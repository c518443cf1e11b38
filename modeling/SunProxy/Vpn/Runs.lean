/-
Runs of the service. At every step of a callback it is known where the tunnel thread can be, and what is
allocated and open; the steps of the tunnel thread change none of it. So native code is used as it should be
in every run, and a callback that has begun can always end: the thread it waits for has been told to stop.
-/
import SunProxy.Lib.Result
import SunProxy.Lib.Simulation
import SunProxy.Vpn.Lifecycle
import Mathlib.Data.Fintype.EquivFin

namespace SunProxy.Vpn

open SunProxy.Kotlin SunProxy.Redirect SunProxy.Result SunProxy.Run SunProxy.Simulation

/-! ## Where a callback can be -/

/-- What follows the steps that end a tunnel. -/
inductive Tail : Life → List Op → Prop where
  | stop : Tail .ready []
  | destroy : Tail .absent [.jniDone, .clearContext, .destroyed]

/-- What is left of a callback, and what is then there for it; the service is as in `life` at its end. -/
inductive Stands (s : MyVpnService) : Life → List Op → Prop where
  | absent (created : s.created = false) (bare : Bare s) : Stands s .absent []
  | ready (has : Has s) (off : Off s) : Stands s .ready []
  | running {fd : Nat} (has : Has s) (up : Up fd s) : Stands s .running []
  | checkContext (created : s.created = true) (bare : Bare s) : Stands s .ready onCreate
  | jniInit (created : s.created = true) (bare : Bare s) : Stands s .ready [.jniInit]
  | loadHosts (has : Has s) (tunnel : Off s ∨ ∃ fd, Up fd s) : Stands s .running start
  | loadRedirectRule (has : Has s) (tunnel : Off s ∧ s.hosts.isSome ∨ ∃ fd, Up fd s) :
    Stands s .running [.loadRedirectRule, .returnIfVpn, .getBuilder, .startVpn, .startNative]
  | returnIfVpn (has : Has s) (tunnel : Off s ∧ Loaded s ∨ ∃ fd, Up fd s) :
    Stands s .running [.returnIfVpn, .getBuilder, .startVpn, .startNative]
  | getBuilder (has : Has s) (off : Off s) (loaded : Loaded s) :
    Stands s .running [.getBuilder, .startVpn, .startNative]
  | startVpn (has : Has s) (off : Off s) (loaded : Loaded s) : Stands s .running [.startVpn, .startNative]
  | startNative {fd : Nat} (has : Has s) (up : Up fd s) (dead : s.tunnelThread = false) :
    Stands s .running [.startNative]
  | jniStart {fd : Nat} (has : Has s) (up : Up fd s) (dead : s.tunnelThread = false) :
    Stands s .running [.jniStart, .newThread fd, .startThread]
  | newThread {fd : Nat} (has : Has s) (up : Up fd s) (dead : s.tunnelThread = false) :
    Stands s .running [.newThread fd, .startThread]
  | startThread {fd : Nat} (has : Has s) (vpn : s.vpn = some fd) (tuns : s.tuns = [fd]) (loaded : Loaded s)
    (thread : s.tunnelThread = true) (tunnel : s.tunnel = .created fd) : Stands s .running [.startThread]
  | ifVpn {life : Life} {rest : List Op} (tail : Tail life rest) (has : Has s) (tunnel : Off s ∨ ∃ fd, Up fd s) :
    Stands s life (.ifVpn :: rest)
  | stopNative {fd : Nat} {life : Life} {rest : List Op} (tail : Tail life rest) (has : Has s) (up : Up fd s) :
    Stands s life (.stopNative :: .closeVpn fd :: .clearVpn :: rest)
  | jniStop {fd : Nat} {life : Life} {rest : List Op} (tail : Tail life rest) (has : Has s) (up : Up fd s) :
    Stands s life (.jniStop :: .join :: .clearThread :: .jniClear :: .closeVpn fd :: .clearVpn :: rest)
  | join {fd : Nat} {life : Life} {rest : List Op} (tail : Tail life rest) (has : Has s) (up : Up fd s)
    (stopping : s.contexts = [(s.jniContext, true)]) :
    Stands s life (.join :: .clearThread :: .jniClear :: .closeVpn fd :: .clearVpn :: rest)
  | clearThread {fd : Nat} {life : Life} {rest : List Op} (tail : Tail life rest) (has : Has s) (up : Up fd s)
    (dead : s.tunnelThread = false) : Stands s life (.clearThread :: .jniClear :: .closeVpn fd :: .clearVpn :: rest)
  | jniClear {fd : Nat} {life : Life} {rest : List Op} (tail : Tail life rest) (has : Has s) (up : Up fd s)
    (dead : s.tunnelThread = false) : Stands s life (.jniClear :: .closeVpn fd :: .clearVpn :: rest)
  | closeVpn {fd : Nat} {life : Life} {rest : List Op} (tail : Tail life rest) (has : Has s) (up : Up fd s)
    (dead : s.tunnelThread = false) : Stands s life (.closeVpn fd :: .clearVpn :: rest)
  | clearVpn {life : Life} {rest : List Op} (tail : Tail life rest) (has : Has s) (tuns : s.tuns = [])
    (thread : s.tunnelThread = false) (tunnel : s.tunnel = .dead) : Stands s life (.clearVpn :: rest)
  | jniDone (has : Has s) (off : Off s) : Stands s .absent [.jniDone, .clearContext, .destroyed]
  | clearContext (alive : s.died = false) (contexts : s.contexts = [])
    (off : Off s) : Stands s .absent [.clearContext, .destroyed]
  | destroyed (bare : Bare s) : Stands s .absent [.destroyed]

variable {t : CharTables} {s s' : MyVpnService} {c : Calls} {fd : Nat} {life : Life} {ops rest : List Op}

theorem Tail.stands (tail : Tail life rest) (has : Has s) (off : Off s) : Stands s life rest := by
  cases tail with
  | stop => exact .ready has off
  | destroy => exact .jniDone has off

theorem Up.dead (up : Up fd s) (h : s.tunnelThread = false) : s.tunnel = .dead := by
  cases up.threaded with
  | dead _ tunnel => exact tunnel
  | started thread | running thread | returned thread =>
    rw [h] at thread
    cases thread

/-- Only the fields it tells of play a part. -/
theorem Threaded.congr (h : Threaded fd s) (hthread : s'.tunnelThread = s.tunnelThread) (htunnel : s'.tunnel = s.tunnel)
    (hcontext : s'.jniContext = s.jniContext) : Threaded fd s' := by
  cases h with
  | dead thread tunnel => exact .dead (hthread.trans thread) (htunnel.trans tunnel)
  | started thread tunnel => exact .started (hthread.trans thread) (htunnel.trans tunnel)
  | running thread tunnel => exact .running (hthread.trans thread) (htunnel.trans (hcontext ▸ tunnel))
  | returned thread tunnel => exact .returned (hthread.trans thread) (htunnel.trans tunnel)

/-- The field is null when no thread is alive. -/
theorem Up.thread_eq_false (up : Up fd s) (h : (s.tunnelThread && s.tunnel.isAlive) = false) :
    s.tunnelThread = false := by
  cases up.threaded with
  | dead thread => exact thread
  | started _ tunnel | running _ tunnel | returned _ tunnel =>
    rw [tunnel, Tunnel.isAlive, Bool.and_true] at h
    exact h

theorem Has.stoppingOf (has : Has s) : ∃ stopping, s.stoppingOf s.jniContext = .ok stopping := by
  obtain ⟨stopping, hcontexts⟩ := has.contexts
  refine ⟨stopping, ?_⟩
  rw [MyVpnService.stoppingOf, hcontexts, List.lookup_cons_self]

/-- A call outside the event loop goes through. -/
theorem Has.outsideLoop (has : Has s) (hdead : s.tunnel = .dead) : s.outsideLoop s' = .ok s' := by
  obtain ⟨stopping, hstopping⟩ := has.stoppingOf
  unfold MyVpnService.outsideLoop MyVpnService.loopsOn
  rw [hstopping, hdead]
  rfl

theorem Has.setStopping (has : Has s) (b : Bool) : (s.setStopping b).contexts = [(s.jniContext, b)] := by
  obtain ⟨stopping, hcontexts⟩ := has.contexts
  rw [MyVpnService.setStopping]
  dsimp only
  rw [hcontexts, List.map_singleton, if_pos rfl]

theorem Has.setStopping_has (has : Has s) (b : Bool) : Has (s.setStopping b) :=
  ⟨has.alive, has.created, has.context, b, has.setStopping b⟩

theorem Up.setStopping (up : Up fd s) (b : Bool) : Up fd (s.setStopping b) :=
  ⟨up.vpn, up.tuns, ⟨up.loaded.hosts, up.loaded.rule⟩, up.threaded.congr rfl rfl rfl⟩

/-! ## The tunnel thread -/

theorem tunnelStep_dead (h : s.tunnel = .dead) (a : TunnelStep) : s.tunnelStep a = .ok s := by
  cases a <;> simp only [MyVpnService.tunnelStep, h]

theorem tunnelStep_created (h : s.tunnel = .created fd) (a : TunnelStep) : s.tunnelStep a = .ok s := by
  cases a <;> simp only [MyVpnService.tunnelStep, h]

/-- A step of the tunnel thread keeps the tunnel and the context. -/
theorem Up.tunnelStep (has : Has s) (up : Up fd s) (a : TunnelStep) :
    ∃ s', s.tunnelStep a = .ok s' ∧ Has s' ∧ Up fd s' ∧ s'.jniContext = s.jniContext ∧ s'.contexts = s.contexts := by
  have same : ∃ s', Except.ok (ε := Misuse) s = .ok s' ∧ Has s' ∧ Up fd s' ∧ s'.jniContext = s.jniContext ∧
      s'.contexts = s.contexts := ⟨s, rfl, has, up, rfl, rfl⟩
  have moves : ∀ tunnel, Threaded fd { s with tunnel } → Has { s with tunnel } ∧ Up fd { s with tunnel } :=
    fun tunnel threaded =>
      ⟨⟨has.alive, has.created, has.context, has.contexts⟩, up.vpn, up.tuns, ⟨up.loaded.hosts, up.loaded.rule⟩,
        threaded⟩
  obtain ⟨stopping, hstopping⟩ := has.stoppingOf
  cases up.threaded with
  | dead _ tunnel =>
    rw [tunnelStep_dead tunnel]
    exact same
  -- a thread that has not begun can only call `jni_run`, with the tunnel that is open
  | started thread tunnel =>
    cases a with
    | run =>
      obtain ⟨has', up'⟩ := moves (.running s.jniContext fd .idle) (.running thread rfl)
      refine ⟨_, ?_, has', up', rfl, rfl⟩
      simp only [MyVpnService.tunnelStep, tunnel, up.tuns, hstopping]
      rw [if_neg (by simp)]
      rfl
    | handle | addressFromHosts | redirect | hang | handled | exit | clearThread =>
      simp only [MyVpnService.tunnelStep, tunnel]
      exact same
  | @running loop thread tunnel =>
    -- the loop goes on with its context and its tunnel
    have goes : ∀ loop', ∃ s', Except.ok (ε := Misuse) { s with tunnel := .running s.jniContext fd loop' } = .ok s' ∧
        Has s' ∧ Up fd s' ∧ s'.jniContext = s.jniContext ∧ s'.contexts = s.contexts := fun loop' => by
      obtain ⟨has', up'⟩ := moves (.running s.jniContext fd loop') (.running thread rfl)
      exact ⟨_, rfl, has', up', rfl, rfl⟩
    cases a with
    | handle =>
      simp only [MyVpnService.tunnelStep, tunnel]
      cases loop with
      | idle => exact goes .handling
      | handling | hung => exact same
    | addressFromHosts =>
      simp only [MyVpnService.tunnelStep, tunnel, Option.isNone_iff_eq_none]
      rw [if_neg (Option.isSome_iff_ne_none.1 up.loaded.hosts)]
      cases loop with
      | idle | handling | hung => exact same
    | redirect =>
      simp only [MyVpnService.tunnelStep, tunnel, Option.isNone_iff_eq_none]
      rw [if_neg (Option.isSome_iff_ne_none.1 up.loaded.rule)]
      cases loop with
      | idle | handling | hung => exact same
    | hang =>
      simp only [MyVpnService.tunnelStep, tunnel]
      cases loop with
      | handling => exact goes .hung
      | idle | hung => exact same
    | handled =>
      simp only [MyVpnService.tunnelStep, tunnel]
      cases loop with
      | handling => exact goes .idle
      | idle | hung => exact same
    | exit error =>
      simp only [MyVpnService.tunnelStep, tunnel]
      cases loop with
      | handling | hung => exact same
      -- between two events the loop looks at `stopping`, and may fail at any time
      | idle =>
        simp only [hstopping]
        by_cases hends : (error || stopping) = true
        · obtain ⟨has', up'⟩ := moves .returned (.returned thread rfl)
          refine ⟨_, ?_, has', up', rfl, rfl⟩
          show (if (error || stopping) = true then _ else _) = _
          rw [if_pos hends]
          rfl
        · show ∃ s', (if (error || stopping) = true then _ else _) = _ ∧ _
          rw [if_neg hends]
          exact same
    | run | clearThread =>
      simp only [MyVpnService.tunnelStep, tunnel]
      exact same
  -- `jni_run` has returned, and the thread ends
  | returned thread tunnel =>
    cases a with
    | clearThread =>
      refine ⟨{ s with tunnel := .dead, tunnelThread := false }, ?_,
        ⟨has.alive, has.created, has.context, has.contexts⟩,
        ⟨up.vpn, up.tuns, ⟨up.loaded.hosts, up.loaded.rule⟩, .dead rfl rfl⟩, rfl, rfl⟩
      simp only [MyVpnService.tunnelStep, tunnel]
    | run | handle | addressFromHosts | redirect | hang | handled | exit =>
      simp only [MyVpnService.tunnelStep, tunnel]
      exact same

/-- Wherever a callback stands, a step of the tunnel thread leaves it there. -/
theorem Stands.tunnelStep (h : Stands s life ops) (a : TunnelStep) :
    ∃ s', s.tunnelStep a = .ok s' ∧ Stands s' life ops := by
  have still : s.tunnel = .dead → ∃ s', s.tunnelStep a = .ok s' ∧ Stands s' life ops :=
    fun hdead => ⟨s, tunnelStep_dead hdead a, h⟩
  -- no thread, or one that has ended, does nothing; one that lives keeps what the callback stands on
  cases h with
  | absent _ bare | checkContext _ bare | jniInit _ bare | destroyed bare => exact still bare.off.tunnel
  | ready _ off | getBuilder _ off | startVpn _ off | jniDone _ off | clearContext _ _ off => exact still off.tunnel
  | startNative _ up dead | jniStart _ up dead | newThread _ up dead => exact still (up.dead dead)
  | clearThread _ _ up dead | jniClear _ _ up dead | closeVpn _ _ up dead => exact still (up.dead dead)
  | clearVpn _ _ _ _ tunnel => exact still tunnel
  | startThread has vpn tuns loaded thread tunnel =>
    exact ⟨s, tunnelStep_created tunnel a, .startThread has vpn tuns loaded thread tunnel⟩
  | running has up =>
    obtain ⟨s', hs', has', up', -⟩ := up.tunnelStep has a
    exact ⟨s', hs', .running has' up'⟩
  | stopNative tail has up =>
    obtain ⟨s', hs', has', up', -⟩ := up.tunnelStep has a
    exact ⟨s', hs', .stopNative tail has' up'⟩
  | jniStop tail has up =>
    obtain ⟨s', hs', has', up', -⟩ := up.tunnelStep has a
    exact ⟨s', hs', .jniStop tail has' up'⟩
  -- what was told to stop stays so
  | join tail has up stopping =>
    obtain ⟨s', hs', has', up', hcontext, hcontexts⟩ := up.tunnelStep has a
    refine ⟨s', hs', .join tail has' up' ?_⟩
    rw [hcontexts, hcontext, stopping]
  -- `start` is called with or without a tunnel
  | loadHosts has tunnel =>
    rcases tunnel with off | ⟨fd, up⟩
    · exact still off.tunnel
    · obtain ⟨s', hs', has', up', -⟩ := up.tunnelStep has a
      exact ⟨s', hs', .loadHosts has' (.inr ⟨fd, up'⟩)⟩
  | loadRedirectRule has tunnel =>
    rcases tunnel with ⟨off, -⟩ | ⟨fd, up⟩
    · exact still off.tunnel
    · obtain ⟨s', hs', has', up', -⟩ := up.tunnelStep has a
      exact ⟨s', hs', .loadRedirectRule has' (.inr ⟨fd, up'⟩)⟩
  | returnIfVpn has tunnel =>
    rcases tunnel with ⟨off, -⟩ | ⟨fd, up⟩
    · exact still off.tunnel
    · obtain ⟨s', hs', has', up', -⟩ := up.tunnelStep has a
      exact ⟨s', hs', .returnIfVpn has' (.inr ⟨fd, up'⟩)⟩
  | ifVpn tail has tunnel =>
    rcases tunnel with off | ⟨fd, up⟩
    · exact still off.tunnel
    · obtain ⟨s', hs', has', up', -⟩ := up.tunnelStep has a
      exact ⟨s', hs', .ifVpn tail has' (.inr ⟨fd, up'⟩)⟩

/-! ## The steps of a callback -/

theorem Off.setVpn (off : Off s) (has : Has s) (loaded : Loaded s) (fd : Nat) :
    Has { s with vpn := some fd, tuns := fd :: s.tuns } ∧ Up fd { s with vpn := some fd, tuns := fd :: s.tuns } :=
  ⟨⟨has.alive, has.created, has.context, has.contexts⟩, rfl, congrArg (fd :: ·) off.tuns, ⟨loaded.hosts, loaded.rule⟩,
    .dead off.thread off.tunnel⟩

/-- What makes a step of `start` throw: the settings do not load, the builder refuses what it is given, or the
tunnel is not established. -/
def Calls.Fails (t : CharTables) (c : Calls) : Op → Prop
  | .loadHosts => ∃ e, Pref.loadHosts (c.preferences.hosts.getD []) = .error e
  | .loadRedirectRule => ∃ e, compile t (c.preferences.redirectRule.getD []) = .error e
  | .getBuilder => ∃ e, Pref.getBuilder t c.takes c.dnsServers c.preferences = .error e
  | .startVpn => c.tun = none
  | _ => False

/-- A step of a callback does what it may, and the callback stands behind it, unless an exception ends it. -/
theorem Stands.exec (h : Stands s life ops) (hcontext : c.context ≠ 0) :
    ∃ ops' s', exec t c s ops = .ok (ops', s') ∧
      (s'.died = true ∧ (∃ op ∈ ops.head?, c.Fails t op) ∨ Stands s' life ops') := by
  -- one case for each place a callback can stand at, in the order of the source
  cases h with
  | absent created bare => exact ⟨_, _, rfl, .inr (.absent created bare)⟩
  | ready has off => exact ⟨_, _, rfl, .inr (.ready has off)⟩
  | running has up => exact ⟨_, _, rfl, .inr (.running has up)⟩
  | checkContext created bare =>
    refine ⟨[.jniInit], s, ?_, .inr (.jniInit created bare)⟩
    simp only [Vpn.exec, onCreate, bare.context, ne_eq, not_true, if_false]
  | jniInit created bare =>
    refine ⟨_, _, rfl, .inr
      (.ready ⟨bare.alive, created, hcontext, false, ?_⟩
        ⟨bare.off.vpn, bare.off.tuns, bare.off.thread, bare.off.tunnel⟩)⟩
    rw [bare.contexts]
  -- `start`: what was loaded is there for the thread of an older tunnel too
  | loadHosts has tunnel =>
    simp only [Vpn.exec, start]
    split
    · rename_i e he
      exact ⟨_, _, rfl, .inl ⟨rfl, .loadHosts, rfl, e, he⟩⟩
    · refine ⟨_, _, rfl, .inr (.loadRedirectRule ⟨has.alive, has.created, has.context, has.contexts⟩ ?_)⟩
      rcases tunnel with off | ⟨fd, up⟩
      · exact .inl ⟨⟨off.vpn, off.tuns, off.thread, off.tunnel⟩, rfl⟩
      · exact .inr ⟨fd, up.vpn, up.tuns, ⟨rfl, up.loaded.rule⟩, up.threaded.congr rfl rfl rfl⟩
  | loadRedirectRule has tunnel =>
    simp only [Vpn.exec]
    split
    · rename_i e he
      exact ⟨_, _, rfl, .inl ⟨rfl, .loadRedirectRule, rfl, e, he⟩⟩
    · refine ⟨_, _, rfl, .inr (.returnIfVpn ⟨has.alive, has.created, has.context, has.contexts⟩ ?_)⟩
      rcases tunnel with ⟨off, hhosts⟩ | ⟨fd, up⟩
      · exact .inl ⟨⟨off.vpn, off.tuns, off.thread, off.tunnel⟩, hhosts, rfl⟩
      · exact .inr ⟨fd, up.vpn, up.tuns, ⟨up.loaded.hosts, rfl⟩, up.threaded.congr rfl rfl rfl⟩
  -- a tunnel that runs is left as it is
  | returnIfVpn has tunnel =>
    simp only [Vpn.exec]
    rcases tunnel with ⟨off, loaded⟩ | ⟨fd, up⟩
    · rw [off.vpn]
      exact ⟨_, _, rfl, .inr (.getBuilder has off loaded)⟩
    · rw [up.vpn]
      exact ⟨_, _, rfl, .inr (.running has up)⟩
  | getBuilder has off loaded =>
    simp only [Vpn.exec]
    split
    · rename_i e he
      exact ⟨_, _, rfl, .inl ⟨rfl, .getBuilder, rfl, e, he⟩⟩
    · exact ⟨_, _, rfl, .inr (.startVpn has off loaded)⟩
  | startVpn has off loaded =>
    simp only [Vpn.exec]
    split
    · rename_i hnone
      exact ⟨_, _, rfl, .inl ⟨rfl, .startVpn, rfl, hnone⟩⟩
    · rename_i fd _
      obtain ⟨has', up⟩ := off.setVpn has loaded fd
      exact ⟨_, _, rfl, .inr (.startNative has' up off.thread)⟩
  -- `startNative`: no thread lives, so that `jni_start` is called outside of the event loop
  | startNative has up dead =>
    simp only [Vpn.exec, up.vpn, dead]
    exact ⟨_, _, rfl, .inr (.jniStart has up dead)⟩
  | jniStart has up dead =>
    simp only [Vpn.exec, MyVpnService.jniStart, has.outsideLoop (up.dead dead)]
    exact ⟨_, _, rfl, .inr (.newThread (has.setStopping_has false) (up.setStopping false) dead)⟩
  | newThread has up dead =>
    simp only [Vpn.exec, MyVpnService.newThread, up.dead dead]
    exact ⟨_, _, rfl, .inr (.startThread ⟨has.alive, has.created, has.context, has.contexts⟩ up.vpn up.tuns
      ⟨up.loaded.hosts, up.loaded.rule⟩ rfl rfl)⟩
  | startThread has vpn tuns loaded thread tunnel =>
    simp only [Vpn.exec, thread, tunnel]
    exact ⟨_, _, rfl, .inr (.running ⟨has.alive, has.created, has.context, has.contexts⟩
      ⟨vpn, tuns, ⟨loaded.hosts, loaded.rule⟩, .started rfl rfl⟩)⟩
  -- `stop` and `onDestroy` end the tunnel if there is one
  | ifVpn tail has tunnel =>
    simp only [Vpn.exec]
    rcases tunnel with off | ⟨fd, up⟩
    · rw [off.vpn]
      exact ⟨_, _, rfl, .inr (tail.stands has off)⟩
    · rw [up.vpn]
      exact ⟨_, _, rfl, .inr (.stopNative tail has up)⟩
  | stopNative tail has up =>
    simp only [Vpn.exec]
    cases hthread : s.tunnelThread with
    | false => exact ⟨_, _, rfl, .inr (.closeVpn tail has up hthread)⟩
    | true => exact ⟨_, _, rfl, .inr (.jniStop tail has up)⟩
  | jniStop tail has up =>
    obtain ⟨stopping, hstopping⟩ := has.stoppingOf
    simp only [Vpn.exec, MyVpnService.jniStop, hstopping]
    exact ⟨_, _, rfl, .inr (.join tail (has.setStopping_has true) (up.setStopping true) (has.setStopping true))⟩
  -- `join` is a step that is taken again until the thread has ended
  | join tail has up stopping =>
    simp only [Vpn.exec]
    cases halive : s.tunnelThread && s.tunnel.isAlive with
    | true => exact ⟨_, _, rfl, .inr (.join tail has up stopping)⟩
    | false => exact ⟨_, _, rfl, .inr (.clearThread tail has up (up.thread_eq_false halive))⟩
  | clearThread tail has up dead =>
    refine ⟨_, _, rfl, .inr (.jniClear tail ⟨has.alive, has.created, has.context, has.contexts⟩
      ⟨up.vpn, up.tuns, ⟨up.loaded.hosts, up.loaded.rule⟩, .dead rfl (up.dead dead)⟩ rfl)⟩
  -- behind the join nothing runs: the table may be cleared and the tunnel closed
  | jniClear tail has up dead =>
    simp only [Vpn.exec, MyVpnService.jniClear, has.outsideLoop (up.dead dead)]
    exact ⟨_, _, rfl, .inr (.closeVpn tail has up dead)⟩
  | closeVpn tail has up dead =>
    rename_i fd _
    have hreads : s.reads fd = false := by rw [MyVpnService.reads, up.dead dead]
    have herase : s.tuns.erase fd = [] := by rw [up.tuns, List.erase_cons_head]
    simp only [Vpn.exec, MyVpnService.closeVpn, hreads, Bool.false_eq_true, if_false]
    exact ⟨_, _, rfl, .inr (.clearVpn tail ⟨has.alive, has.created, has.context, has.contexts⟩ herase dead
      (up.dead dead))⟩
  | clearVpn tail has tuns thread tunnel =>
    exact ⟨_, _, rfl, .inr (tail.stands ⟨has.alive, has.created, has.context, has.contexts⟩
      ⟨rfl, tuns, thread, tunnel⟩)⟩
  -- `onDestroy` goes on: the context is freed, and only then forgotten
  | jniDone has off =>
    obtain ⟨stopping, hcontexts⟩ := has.contexts
    simp only [Vpn.exec, MyVpnService.jniDone, has.outsideLoop off.tunnel]
    refine ⟨_, _, rfl, .inr (.clearContext has.alive ?_ ⟨off.vpn, off.tuns, off.thread, off.tunnel⟩)⟩
    dsimp only
    rw [hcontexts]
    simp
  | clearContext alive contexts off =>
    exact ⟨_, _, rfl, .inr (.destroyed ⟨alive, rfl, contexts, off.vpn, off.tuns, off.thread, off.tunnel⟩)⟩
  | destroyed bare =>
    exact ⟨_, _, rfl, .inr (.absent rfl
      ⟨bare.alive, bare.context, bare.contexts, bare.off.vpn, bare.off.tuns, bare.off.thread, bare.off.tunnel⟩)⟩

/-! ## Runs -/

/-- One callback is under way, or none. -/
def System.StandsAt (life : Life) (s : System) : Prop :=
  s.binder = [] ∧ Stands s.service life s.main ∨ s.main = [] ∧ Stands s.service life s.binder

theorem System.StandsAt.idle {s : System} (h : s.StandsAt life) (hmain : s.main = []) (hbinder : s.binder = []) :
    Stands s.service life [] := by
  rcases h with ⟨-, h⟩ | ⟨-, h⟩
  · rwa [hmain] at h
  · rwa [hbinder] at h

theorem Stands.alive (h : Stands s life ops) : s.died = false := by
  cases h with
  | absent _ bare | checkContext _ bare | jniInit _ bare | destroyed bare => exact bare.alive
  | clearContext alive => exact alive
  | ready has | running has | loadHosts has | loadRedirectRule has | returnIfVpn has | getBuilder has | startVpn has
  | startNative has | jniStart has | newThread has | startThread has | jniDone has => exact has.alive
  | ifVpn _ has | stopNative _ has | jniStop _ has | join _ has | clearThread _ has | jniClear _ has | closeVpn _ has
  | clearVpn _ has => exact has.alive

theorem System.StandsAt.alive {s : System} (h : s.StandsAt life) : s.service.died = false := by
  rcases h with ⟨-, h⟩ | ⟨-, h⟩ <;> exact h.alive

theorem Stands.has (h : Stands s life []) (created : s.created = true) : Has s ∧ (Off s ∨ ∃ fd, Up fd s) := by
  cases h with
  | absent hcreated =>
    rw [created] at hcreated
    cases hcreated
  | ready has off => exact ⟨has, .inl off⟩
  | running has up => exact ⟨has, .inr ⟨_, up⟩⟩

theorem Stands.bare (h : Stands s life []) (created : s.created = false) : Bare s := by
  cases h with
  | absent _ bare => exact bare
  | ready has | running has => exact absurd (created.symm.trans has.created) Bool.false_ne_true

/-- The system answers so that a step of `start` throws. -/
def Event.Fails (t : CharTables) : Event → Prop
  | .main c | .binder c => ∃ op, c.Fails t op
  | _ => False

/-- The step that the event lets a callback take throws. -/
def System.Fails (t : CharTables) (s : System) : Event → Prop
  | .main c => ∃ op ∈ s.main.head?, c.Fails t op
  | .binder c => ∃ op ∈ s.binder.head?, c.Fails t op
  | _ => False

theorem System.Fails.event {s : System} {e : Event} (h : s.Fails t e) : e.Fails t := by
  cases e with
  | main c | binder c =>
    obtain ⟨op, -, hfails⟩ := h
    exact ⟨op, hfails⟩
  | onCreate | onStartCommand | onDestroy | onRevoke | tunnel => exact h

theorem begin_idle {s : System} (h : s.main = []) (service : MyVpnService) (callback : List Op) :
    s.begin service callback = { s with service, main := callback } := by
  rw [System.begin, h]
  rfl

theorem System.StandsAt.step {s : System} (h : s.StandsAt life) {e : Event} (hallows : s.Allows e) :
    ∃ s', s.step t e = .ok s' ∧ (s'.service.died = true ∧ s.Fails t e ∨ s'.StandsAt (life.next e)) := by
  unfold System.step
  rw [h.alive]
  cases e with
  -- a callback begins where none is under way
  | onCreate =>
    obtain ⟨hmain, hbinder, hcreated⟩ := hallows
    have bare := (h.idle hmain hbinder).bare hcreated
    refine ⟨_, rfl, .inr ?_⟩
    rw [begin_idle hmain]
    exact .inl ⟨hbinder, .checkContext rfl
      ⟨bare.alive, bare.context, bare.contexts, rfl, bare.off.tuns, rfl, bare.off.tunnel⟩⟩
  | onStartCommand intent =>
    obtain ⟨hmain, hbinder, hcreated⟩ := hallows
    have hidle := h.idle hmain hbinder
    obtain ⟨has, tunnel⟩ := hidle.has hcreated
    cases intent with
    | start =>
      refine ⟨_, rfl, .inr ?_⟩
      rw [begin_idle hmain]
      exact .inl ⟨hbinder, .loadHosts has tunnel⟩
    | stop =>
      refine ⟨_, rfl, .inr ?_⟩
      rw [begin_idle hmain]
      exact .inl ⟨hbinder, .ifVpn .stop has tunnel⟩
    | other => exact ⟨_, rfl, .inr h⟩
  | onDestroy =>
    obtain ⟨hmain, hbinder, hcreated⟩ := hallows
    obtain ⟨has, tunnel⟩ := (h.idle hmain hbinder).has hcreated
    refine ⟨_, rfl, .inr ?_⟩
    rw [begin_idle hmain]
    exact .inl ⟨hbinder, .ifVpn .destroy has tunnel⟩
  | onRevoke =>
    obtain ⟨hmain, hbinder, hcreated⟩ := hallows
    obtain ⟨has, tunnel⟩ := (h.idle hmain hbinder).has hcreated
    refine ⟨_, rfl, .inr ?_⟩
    rw [hbinder]
    exact .inr ⟨hmain, .ifVpn .stop has tunnel⟩
  -- a thread without a callback has nothing to do
  | main c =>
    obtain ⟨hcontext, -⟩ := hallows
    rcases h with ⟨hbinder, h⟩ | ⟨hmain, h⟩
    · obtain ⟨ops, service, hexec, hnext⟩ := h.exec (t := t) hcontext
      refine ⟨{ s with service, main := ops }, ?_, hnext.imp id fun h' => .inl ⟨hbinder, h'⟩⟩
      simp only [Bool.false_eq_true, if_false, hexec]
      rfl
    · refine ⟨s, ?_, .inr (.inr ⟨hmain, h⟩)⟩
      simp only [Bool.false_eq_true, if_false, hmain, Vpn.exec]
      rw [← hmain]
      rfl
  | binder c =>
    obtain ⟨hcontext, -⟩ := hallows
    rcases h with ⟨hbinder, h⟩ | ⟨hmain, h⟩
    · refine ⟨s, ?_, .inr (.inl ⟨hbinder, h⟩)⟩
      simp only [Bool.false_eq_true, if_false, hbinder, Vpn.exec]
      rw [← hbinder]
      rfl
    · obtain ⟨ops, service, hexec, hnext⟩ := h.exec (t := t) hcontext
      refine ⟨{ s with service, binder := ops }, ?_, hnext.imp id fun h' => .inr ⟨hmain, h'⟩⟩
      simp only [Bool.false_eq_true, if_false, hexec]
      rfl
  -- the thread of the tunnel moves beside the callback
  | tunnel a =>
    rcases h with ⟨hbinder, h⟩ | ⟨hmain, h⟩
    · obtain ⟨service, hstep, h'⟩ := h.tunnelStep a
      refine ⟨{ s with service }, ?_, .inr (.inl ⟨hbinder, h'⟩)⟩
      simp only [Bool.false_eq_true, if_false, hstep]
      rfl
    · obtain ⟨service, hstep, h'⟩ := h.tunnelStep a
      refine ⟨{ s with service }, ?_, .inr (.inr ⟨hmain, h'⟩)⟩
      simp only [Bool.false_eq_true, if_false, hstep]
      rfl

/-- The service that its callbacks have left behind, with nothing allocated or open that it does not need. -/
def Rests : Life → MyVpnService → Prop
  | .absent, s => s.created = false ∧ Bare s
  | .ready, s => Has s ∧ Off s
  | .running, s => Has s ∧ ∃ fd, Up fd s

/-- What holds at every moment: the event loop has its context, its tunnel and what it asks the service for;
and between two callbacks the service is as they have left it. -/
structure System.Serves (life : Life) (s : System) : Prop where
  loop : ∀ context fd loop, s.service.tunnel = .running context fd loop → context = s.service.jniContext ∧
    Has s.service ∧ Up fd s.service
  rests : s.main = [] → s.binder = [] → Rests life s.service

theorem Up.loop (up : Up fd s) {context fd' : Nat} {loop : Loop} (h : s.tunnel = .running context fd' loop) :
    context = s.jniContext ∧ fd' = fd := by
  cases up.threaded with
  | dead _ tunnel | started _ tunnel | returned _ tunnel => cases tunnel.symm.trans h
  | running _ tunnel =>
    cases tunnel.symm.trans h
    exact ⟨rfl, rfl⟩

/-- Where the event loop runs, the context and the tunnel are there. -/
theorem Stands.loop (h : Stands s life ops) {context fd : Nat} {loop : Loop}
    (hloop : s.tunnel = .running context fd loop) :
    context = s.jniContext ∧ Has s ∧ Up fd s := by
  have dead : s.tunnel = .dead → context = s.jniContext ∧ Has s ∧ Up fd s := fun hdead => nomatch hdead.symm.trans hloop
  have alive : ∀ {fd'}, Has s → Up fd' s → context = s.jniContext ∧ Has s ∧ Up fd s := fun has up => by
    obtain ⟨hcontext, rfl⟩ := up.loop hloop
    exact ⟨hcontext, has, up⟩
  cases h with
  | absent _ bare | checkContext _ bare | jniInit _ bare | destroyed bare => exact dead bare.off.tunnel
  | ready _ off | getBuilder _ off | startVpn _ off | jniDone _ off | clearContext _ _ off => exact dead off.tunnel
  | clearVpn _ _ _ _ tunnel => exact dead tunnel
  | startThread _ _ _ _ _ tunnel => cases tunnel.symm.trans hloop
  | running has up | startNative has up | jniStart has up | newThread has up => exact alive has up
  | stopNative _ has up | jniStop _ has up | join _ has up | clearThread _ has up | jniClear _ has up
  | closeVpn _ has up => exact alive has up
  | loadHosts has tunnel | ifVpn _ has tunnel =>
    rcases tunnel with off | ⟨fd, up⟩
    · exact dead off.tunnel
    · exact alive has up
  | loadRedirectRule has tunnel | returnIfVpn has tunnel =>
    rcases tunnel with ⟨off, -⟩ | ⟨fd, up⟩
    · exact dead off.tunnel
    · exact alive has up

theorem System.StandsAt.serves {s : System} (h : s.StandsAt life) : s.Serves life where
  loop context fd loop hloop := by
    rcases h with ⟨-, h⟩ | ⟨-, h⟩ <;> exact h.loop hloop
  rests hmain hbinder := by
    cases h.idle hmain hbinder with
    | absent created bare => exact ⟨created, bare⟩
    | ready has off => exact ⟨has, off⟩
    | running has up => exact ⟨has, _, up⟩

/-- The service as its callbacks leave it, in their order. -/
def lifeAfter (events : List Event) : Life := final Life.next .absent events

theorem lifeAfter_snoc (past : List Event) (e : Event) : lifeAfter (past ++ [e]) = (lifeAfter past).next e := by
  rw [lifeAfter, final, List.foldl_append]
  rfl

/-- A process that has died of a failure, or a service that stands somewhere. -/
def Reached (t : CharTables) (past : List Event) (s : System) : Prop :=
  s.service.died = true ∧ (∃ e ∈ past, e.Fails t) ∨ s.StandsAt (lifeAfter past)

theorem reached_init : Reached t [] .init := .inr (.inl ⟨rfl, .absent rfl ⟨rfl, rfl, rfl, rfl, rfl, rfl, rfl⟩⟩)

theorem Reached.step {past : List Event} {s : System} {e : Event} (h : Reached t past s) (hallows : s.Allows e) :
    ∃ s', s.step t e = .ok s' ∧ Reached t (past ++ [e]) s' := by
  rcases h with ⟨hdied, e', he', hfails⟩ | h
  · refine ⟨s, ?_, .inl ⟨hdied, e', List.mem_append_left _ he', hfails⟩⟩
    unfold System.step
    rw [if_pos hdied]
  · obtain ⟨s', hstep, hnext⟩ := h.step hallows
    refine ⟨s', hstep, ?_⟩
    rw [Reached, lifeAfter_snoc]
    exact hnext.imp (fun ⟨hdied, hfails⟩ => ⟨hdied, e, List.mem_append_right _ List.mem_cons_self, hfails.event⟩) id

theorem reached_of_run {events : List Event}
    (h : EveryStep (stepOk (System.step t)) (fun r e => OnOk (fun s => s.Allows e) r) (.ok .init) events) :
    ∃ s, final (stepOk (System.step t)) (.ok .init) events = .ok s ∧ Reached t events s :=
  final_returns (fun _ _ _ h hallows => h.step hallows) reached_init h

/-- In every run in which the callbacks do not overlap nothing is misused, whatever the tunnel thread does
meanwhile; the process dies only of settings that do not load, of a builder that refuses what it is given or of
a tunnel that is not established. -/
theorem serves_run (t : CharTables) (events : List Event)
    (h : EveryStep (stepOk (System.step t)) (fun r e => OnOk (fun s => s.Allows e) r) (.ok .init) events) :
    ∃ s, final (stepOk (System.step t)) (.ok .init) events = .ok s ∧
      (s.service.died = true ∧ (∃ e ∈ events, e.Fails t) ∨ s.Serves (lifeAfter events)) := by
  obtain ⟨s, hs, hreached⟩ := reached_of_run h
  exact ⟨s, hs, hreached.imp id System.StandsAt.serves⟩

/-- The system's answers to the steps of a callback: nothing is set, and the builder takes all. -/
def Calls.answering (context : Nat) (tun : Option Nat) : Calls :=
  ⟨.installed, [], ⟨fun _ => true, fun _ => true⟩, tun, context⟩

/-- The VPN is started, and its thread is in the event loop. -/
def startedRun : List Event :=
  [.onCreate, .main (.answering 1 none), .main (.answering 1 none), .onStartCommand .start] ++
    List.replicate 5 (.main (.answering 2 (some 7))) ++ List.replicate 4 (.main (.answering 2 none)) ++
    [.tunnel .run, .tunnel .handle]

/-- It is revoked then, and the service is destroyed. -/
def revokedRun : List Event :=
  startedRun ++ [.tunnel .redirect, .onRevoke] ++ List.replicate 4 (.binder (.answering 2 none)) ++
    [.tunnel .addressFromHosts, .tunnel .handled, .tunnel (.exit false), .binder (.answering 2 none),
      .tunnel .clearThread] ++
    List.replicate 5 (.binder (.answering 2 none)) ++ [.onDestroy] ++ List.replicate 4 (.main (.answering 2 none))

theorem serves_run_revoked :
    lifeAfter revokedRun = .absent ∧ ∃ s, final (stepOk (System.step .ascii)) (.ok .init) revokedRun = .ok s ∧
    (s.service.died = true ∧ (∃ e ∈ revokedRun, e.Fails .ascii) ∨ s.Serves (lifeAfter revokedRun)) :=
  ⟨rfl, serves_run .ascii revokedRun (by decide +kernel)⟩

/-- The callbacks must not overlap: a revocation that comes while the service is destroyed, and waits for the
same thread, clears a context that is gone. -/
example : (final (stepOk (System.step .ascii)) (.ok .init) (startedRun ++ [.onDestroy, .onRevoke] ++
    List.replicate 4 (.binder (.answering 2 none)) ++ List.replicate 4 (.main (.answering 2 none)) ++
    [.tunnel .handled, .tunnel (.exit false), .tunnel .clearThread] ++ List.replicate 8 (.main (.answering 2 none)) ++
    List.replicate 3 (.binder (.answering 2 none)))).map (fun _ => ()) = .error .deadContext := by decide +kernel

/-! ## The end of a callback -/

/-- How many steps an operation can bring at most, its own included. -/
def Op.steps : Op → Nat
  | .ifVpn => 8
  | .stopNative => 5
  | .checkContext | .startNative => 4
  | _ => 1

def steps (ops : List Op) : Nat := (ops.map Op.steps).sum

@[simp] theorem steps_nil : steps [] = 0 := rfl

@[simp] theorem steps_cons (op : Op) (ops : List Op) : steps (op :: ops) = op.steps + steps ops := List.sum_cons

/-- A step of a callback brings it closer to its end, unless it waits for the thread. -/
theorem steps_exec {op : Op} (h : exec t c s (op :: rest) = .ok (ops, s')) :
    steps ops < steps (op :: rest) ∨ op = .join ∧ (s.tunnelThread && s.tunnel.isAlive) = true ∧ s' = s := by
  have native : ∀ {r : Except Misuse MyVpnService}, (do return (rest, ← r)) = Except.ok (ops, s') → 0 < op.steps →
      steps ops < steps (op :: rest) := fun {r} hr hpos => by
    obtain ⟨s'', -, heq⟩ := bind_eq_ok hr
    cases heq
    rw [steps_cons]
    omega
  cases op with
  | jniStart | newThread | jniStop | jniClear | closeVpn | jniDone => exact .inl (native h Nat.one_pos)
  | join =>
    simp only [exec] at h
    split at h
    · rename_i halive
      cases h
      exact .inr ⟨rfl, halive, rfl⟩
    · cases h
      exact .inl (Nat.lt_add_of_pos_left Nat.one_pos)
  | jniInit | clearThread | clearVpn | clearContext | destroyed =>
    cases h
    exact .inl (Nat.lt_add_of_pos_left Nat.one_pos)
  | checkContext | loadHosts | loadRedirectRule | getBuilder | startVpn | startNative | startThread | ifVpn =>
    simp only [exec] at h
    left
    split at h <;> cases h <;> (try split) <;> simp only [steps_cons, steps_nil, Op.steps] <;> omega
  | returnIfVpn | stopNative =>
    cases h
    left
    split <;> simp only [steps_cons, steps_nil, Op.steps] <;> omega

/-- The steps with which a thread that is told to stop ends, from wherever it is but in an event without end. -/
def ending : List TunnelStep := [.run, .handled, .exit false, .clearThread]

theorem Up.ended (up : Up fd s) (stopping : s.contexts = [(s.jniContext, true)]) (hends : s.tunnel.isHung = false) :
    ∃ s', final (stepOk MyVpnService.tunnelStep) (.ok s) ending = .ok s' ∧ s'.tunnelThread = false ∧
    s'.tunnel = .dead := by
  have hstopping : s.contexts.lookup s.jniContext = some true := by rw [stopping, List.lookup_cons_self]
  -- between two events the loop sees that it is to stop
  have exits : ∀ s₁, s₁.tunnel = .running s.jniContext fd .idle → s₁.contexts = s.contexts →
      final (stepOk MyVpnService.tunnelStep) (.ok s₁) [.exit false, .clearThread] =
        .ok { s₁ with tunnel := .dead, tunnelThread := false } := fun s₁ htunnel hcontexts => by
    have hfirst : s₁.tunnelStep (.exit false) = .ok { s₁ with tunnel := .returned } := by
      simp only [MyVpnService.tunnelStep, htunnel, MyVpnService.stoppingOf, hcontexts, hstopping]
      rfl
    rw [final_cons hfirst]
    rfl
  cases up.threaded with
  | dead thread tunnel =>
    refine ⟨s, ?_, thread, tunnel⟩
    simp only [final, ending, List.foldl_cons, List.foldl_nil, stepOk, Except.bind, tunnelStep_dead tunnel]
  -- the thread enters the loop first
  | started thread tunnel =>
    have hrun : s.tunnelStep .run = .ok { s with tunnel := .running s.jniContext fd .idle } := by
      simp only [MyVpnService.tunnelStep, tunnel, up.tuns, MyVpnService.stoppingOf, hstopping]
      rw [if_neg (by simp)]
      rfl
    have hidle : MyVpnService.tunnelStep { s with tunnel := .running s.jniContext fd .idle } .handled =
        .ok { s with tunnel := .running s.jniContext fd .idle } := rfl
    refine ⟨{ s with tunnel := .dead, tunnelThread := false }, ?_, rfl, rfl⟩
    rw [ending, final_cons hrun, final_cons hidle]
    exact exits _ rfl rfl
  | @running loop thread tunnel =>
    have hrun : s.tunnelStep .run = .ok s := by simp only [MyVpnService.tunnelStep, tunnel]
    refine ⟨{ s with tunnel := .dead, tunnelThread := false }, ?_, rfl, rfl⟩
    rw [ending, final_cons hrun]
    cases loop with
    | idle =>
      have hidle : s.tunnelStep .handled = .ok s := by simp only [MyVpnService.tunnelStep, tunnel]
      rw [final_cons hidle]
      exact exits _ tunnel rfl
    -- the event that is handled ends
    | handling =>
      have hhandled : s.tunnelStep .handled = .ok { s with tunnel := .running s.jniContext fd .idle } := by
        simp only [MyVpnService.tunnelStep, tunnel]
      rw [final_cons hhandled]
      exact exits _ rfl rfl
    | hung =>
      rw [tunnel] at hends
      cases hends
  | returned thread tunnel =>
    refine ⟨{ s with tunnel := .dead, tunnelThread := false }, ?_, rfl, rfl⟩
    simp only [final, ending, List.foldl_cons, List.foldl_nil, stepOk, Except.bind, MyVpnService.tunnelStep, tunnel]

/-- Steps of the tunnel thread, as steps of the system. -/
theorem System.StandsAt.tunnelSteps {s : System} (h : s.StandsAt life) (as : List TunnelStep) :
    ∃ service, final (stepOk MyVpnService.tunnelStep) (.ok s.service) as = .ok service ∧
      final (stepOk (System.step t)) (.ok s) (as.map .tunnel) = .ok { s with service } ∧
      { s with service }.StandsAt life := by
  induction as generalizing s with
  | nil => exact ⟨s.service, rfl, rfl, h⟩
  | cons a as ih =>
    have hstep : ∃ service, s.service.tunnelStep a = .ok service ∧ { s with service }.StandsAt life := by
      rcases h with ⟨hbinder, h⟩ | ⟨hmain, h⟩
      · obtain ⟨service, hstep, h'⟩ := h.tunnelStep a
        exact ⟨service, hstep, .inl ⟨hbinder, h'⟩⟩
      · obtain ⟨service, hstep, h'⟩ := h.tunnelStep a
        exact ⟨service, hstep, .inr ⟨hmain, h'⟩⟩
    obtain ⟨service, hstep, h'⟩ := hstep
    obtain ⟨last, hlast, hsystem, hstands⟩ := ih h'
    have hfirst : s.step t (.tunnel a) = .ok { s with service } := by
      simp only [System.step, h.alive, Bool.false_eq_true, if_false, hstep]
      rfl
    refine ⟨last, ?_, ?_, hstands⟩
    · rw [final_cons hstep]
      exact hlast
    · rw [List.map_cons, final_cons hfirst]
      exact hsystem

/-- The event goes on with what is under way: no callback begins, the event loop does not fail, and every event
that it handles ends. -/
def Event.Continues : Event → Prop
  | .main _ | .binder _ => True
  | .tunnel a => a ≠ .exit true ∧ a ≠ .hang
  | _ => False

/-- The system can always answer so that nothing fails. -/
theorem exists_calls (t : CharTables) (s : System) : ∃ c : Calls, s.Allows (.main c) ∧ ∀ op, ¬c.Fails t op := by
  have fresh : ∀ l : List Nat, ∃ n, n ∉ l := fun l => by
    obtain ⟨n, hn⟩ := Infinite.exists_notMem_finset l.toFinset
    exact ⟨n, mt List.mem_toFinset.2 hn⟩
  obtain ⟨context, hcontext⟩ := fresh (0 :: s.service.contexts.map (·.1))
  obtain ⟨fd, hfd⟩ := fresh s.service.tuns
  obtain ⟨hne, hnew⟩ := not_or.1 (mt List.mem_cons.2 hcontext)
  refine ⟨.answering context (some fd), ⟨hne, hnew, ?_⟩, fun op hfails => ?_⟩
  · rintro _ ⟨⟩
    exact hfd
  · cases op with
    | loadHosts | loadRedirectRule | getBuilder =>
      obtain ⟨e, he⟩ := hfails
      cases he
    | startVpn => cases hfails
    | _ => exact hfails

/-- How far the callback that is under way is from its end. -/
def System.left (s : System) : Nat := steps s.main + steps s.binder

/-- The callback waits for a thread that has not ended. -/
def System.Waits (s : System) : Prop :=
  (∃ rest, s.main = .join :: rest ∨ s.binder = .join :: rest) ∧
    (s.service.tunnelThread && s.service.tunnel.isAlive) = true

/-- What is left of a callback that is about to wait for the thread, or waits for it. -/
def isStopping : List Op → Bool
  | .ifVpn :: _ | .stopNative :: _ | .jniStop :: _ | .join :: _ => true
  | _ => false

/-- The thread is to be waited for, and the event that it handles never ends. -/
def System.Stuck (s : System) : Prop :=
  s.service.tunnel.isHung = true ∧ (isStopping s.main = true ∨ isStopping s.binder = true)

instance (s : System) : Decidable s.Stuck := inferInstanceAs (Decidable (_ ∧ _))

theorem outsideLoop_eq {next : MyVpnService} (h : s.outsideLoop next = .ok s') : s' = next := by
  obtain ⟨stopping, -, h⟩ := bind_eq_ok h
  split at h
  · cases h
  · exact (Except.ok.inj h).symm

/-- The steps of a callback do not hang the thread. -/
theorem exec_isHung (h : exec t c s ops = .ok (rest, s')) (hhung : s'.tunnel.isHung = true) : s'.tunnel = s.tunnel := by
  cases ops with
  | nil =>
    cases h
    rfl
  | cons op ops =>
    cases op with
    | jniStart =>
      obtain ⟨s'', hcall, heq⟩ := bind_eq_ok h
      cases heq
      rw [outsideLoop_eq hcall]
      rfl
    | jniDone | jniClear =>
      obtain ⟨s'', hcall, heq⟩ := bind_eq_ok h
      cases heq
      rw [outsideLoop_eq hcall]
    | jniStop =>
      obtain ⟨s'', hcall, heq⟩ := bind_eq_ok h
      cases heq
      obtain ⟨stopping, -, hset⟩ := bind_eq_ok hcall
      cases hset
      rfl
    -- a new thread has not begun
    | newThread fd =>
      obtain ⟨s'', hcall, heq⟩ := bind_eq_ok h
      cases heq
      unfold MyVpnService.newThread at hcall
      split at hcall <;> cases hcall
      cases hhung
    | closeVpn fd =>
      obtain ⟨s'', hcall, heq⟩ := bind_eq_ok h
      cases heq
      unfold MyVpnService.closeVpn at hcall
      split at hcall <;> cases hcall
      rfl
    | startThread =>
      simp only [exec] at h
      split at h
      · cases h
        cases hhung
      · cases h
        rfl
    | checkContext | loadHosts | loadRedirectRule | getBuilder | startVpn | startNative | ifVpn =>
      simp only [exec] at h
      split at h <;> cases h <;> rfl
    | jniInit | returnIfVpn | stopNative | join | clearThread | clearVpn | clearContext | destroyed =>
      cases h
      rfl

/-- While the thread hangs, a callback that stops it goes on to stop it, and no other one begins to. -/
theorem Stands.exec_hung (h : Stands s life ops) (hhung : s.tunnel.isHung = true)
    (hexec : Vpn.exec t c s ops = .ok (rest, s')) : isStopping rest = isStopping ops := by
  have dead : s.tunnel = .dead → isStopping rest = isStopping ops := fun hdead => by
    rw [hdead] at hhung
    cases hhung
  have alive : ∀ {fd}, Up fd s → s.tunnelThread = true ∧ s.tunnel.isAlive = true := fun up => by
    cases up.threaded with
    | dead _ tunnel | started _ tunnel | returned _ tunnel =>
      rw [tunnel] at hhung
      cases hhung
    | running thread tunnel =>
      rw [tunnel]
      exact ⟨thread, rfl⟩
  cases h with
  | absent | ready | running =>
    cases hexec
    rfl
  -- where the thread is gone, or not begun, it does not hang
  | checkContext _ bare | jniInit _ bare | destroyed bare => exact dead bare.off.tunnel
  | getBuilder _ off | startVpn _ off | jniDone _ off | clearContext _ _ off => exact dead off.tunnel
  | startNative _ up none | jniStart _ up none | newThread _ up none => exact dead (up.dead none)
  | clearThread _ _ up none | jniClear _ _ up none | closeVpn _ _ up none => exact dead (up.dead none)
  | clearVpn _ _ _ _ tunnel => exact dead tunnel
  | startThread _ _ _ _ _ tunnel =>
    rw [tunnel] at hhung
    cases hhung
  -- `start` does not stop the thread
  | loadHosts | loadRedirectRule =>
    simp only [Vpn.exec, start] at hexec
    split at hexec <;> cases hexec <;> rfl
  | returnIfVpn =>
    cases hexec
    split <;> rfl
  -- a tunnel whose thread hangs is there, and its thread is alive: it is waited for
  | ifVpn tail _ tunnel =>
    rcases tunnel with off | ⟨fd, up⟩
    · exact dead off.tunnel
    · simp only [Vpn.exec, up.vpn] at hexec
      cases hexec
      rfl
  | stopNative _ _ up =>
    simp only [Vpn.exec, (alive up).1, if_true] at hexec
    cases hexec
    rfl
  | jniStop =>
    obtain ⟨s'', -, heq⟩ := bind_eq_ok hexec
    cases heq
    rfl
  | join _ _ up =>
    obtain ⟨hthread, halive⟩ := alive up
    simp only [Vpn.exec, hthread, halive, Bool.and_self, if_true] at hexec
    cases hexec
    rfl

/-- A step of the callback on one thread leaves it stuck exactly when it was. -/
theorem Stands.exec_stuck (h : Stands s life ops) (hexec : Vpn.exec t c s ops = .ok (rest, s'))
    (hstuck : s'.tunnel.isHung = true ∧ isStopping rest = true) : s.tunnel.isHung = true ∧ isStopping ops = true := by
  have hhung : s.tunnel.isHung = true := exec_isHung hexec hstuck.1 ▸ hstuck.1
  exact ⟨hhung, (h.exec_hung hhung hexec).symm.trans hstuck.2⟩

/-- A callback that does not wait can take its next step. -/
theorem System.StandsAt.moves {s : System} (h : s.StandsAt life) (hbusy : s.main ≠ [] ∨ s.binder ≠ [])
    (hwaits : ¬ s.Waits) (hstuck : ¬ s.Stuck) :
    ∃ e s', e.Continues ∧ s.Allows e ∧ s.step t e = .ok s' ∧ s'.StandsAt life ∧ ¬ s'.Stuck ∧ s'.left < s.left := by
  obtain ⟨c, hallows, hfails⟩ := exists_calls t s
  rcases h with ⟨hbinder, h⟩ | ⟨hmain, h⟩
  -- the callback is on the main thread
  · obtain ⟨op, rest, hops⟩ := List.exists_cons_of_ne_nil (hbusy.resolve_right (not_not.2 hbinder))
    have halive := h.alive
    obtain ⟨ops, service, hexec, hnext⟩ := h.exec (t := t) hallows.1
    have hstands := hnext.resolve_left fun ⟨_, op, _, hop⟩ => hfails op hop
    refine ⟨.main c, ⟨service, ops, s.binder⟩, trivial, hallows, ?_, .inl ⟨hbinder, hstands⟩, ?_, ?_⟩
    · simp only [System.step, halive, Bool.false_eq_true, if_false, hexec]
      rfl
    · rintro ⟨hhung, hstops⟩
      rcases hstops with hstops | hstops
      · obtain ⟨hhung', hstops'⟩ := h.exec_stuck hexec ⟨hhung, hstops⟩
        exact hstuck ⟨hhung', .inl hstops'⟩
      · rw [hbinder] at hstops
        cases hstops
    · rw [hops] at hexec
      rcases steps_exec hexec with hlt | ⟨rfl, hthread, -⟩
      · exact Nat.add_lt_add_right (hops ▸ hlt) _
      · exact absurd ⟨⟨rest, .inl hops⟩, hthread⟩ hwaits
  -- the callback is on the thread of the binder
  · obtain ⟨op, rest, hops⟩ := List.exists_cons_of_ne_nil (hbusy.resolve_left (not_not.2 hmain))
    have halive := h.alive
    obtain ⟨ops, service, hexec, hnext⟩ := h.exec (t := t) hallows.1
    have hstands := hnext.resolve_left fun ⟨_, op, _, hop⟩ => hfails op hop
    refine ⟨.binder c, ⟨service, s.main, ops⟩, trivial, hallows, ?_, .inr ⟨hmain, hstands⟩, ?_, ?_⟩
    · simp only [System.step, halive, Bool.false_eq_true, if_false, hexec]
      rfl
    · rintro ⟨hhung, hstops⟩
      rcases hstops with hstops | hstops
      · rw [hmain] at hstops
        cases hstops
      · obtain ⟨hhung', hstops'⟩ := h.exec_stuck hexec ⟨hhung, hstops⟩
        exact hstuck ⟨hhung', .inr hstops'⟩
    · rw [hops] at hexec
      rcases steps_exec hexec with hlt | ⟨rfl, hthread, -⟩
      · exact Nat.add_lt_add_left (hops ▸ hlt) _
      · exact absurd ⟨⟨rest, .inr hops⟩, hthread⟩ hwaits

/-- Where a callback waits, its thread has been told to stop. -/
theorem Stands.waits (h : Stands s life (.join :: rest)) : ∃ fd, Up fd s ∧ s.contexts = [(s.jniContext, true)] := by
  cases h with
  | join _ _ up stopping => exact ⟨_, up, stopping⟩

theorem everyStep_tunnel (s : Except Misuse System) (as : List TunnelStep) :
    EveryStep (stepOk (System.step t)) (fun r e => OnOk (fun s => s.Allows e) r) s (as.map .tunnel) := by
  induction as generalizing s with
  | nil => trivial
  | cons a as ih => exact ⟨fun _ _ => trivial, ih _⟩

/-- A callback that is under way can be brought closer to its end. -/
theorem System.StandsAt.advances {s : System} (h : s.StandsAt life) (hbusy : s.main ≠ [] ∨ s.binder ≠ [])
    (hstuck : ¬ s.Stuck) :
    ∃ more s', (∀ e ∈ more, e.Continues) ∧
      EveryStep (stepOk (System.step t)) (fun r e => OnOk (fun s => s.Allows e) r) (.ok s) more ∧
      final (stepOk (System.step t)) (.ok s) more = .ok s' ∧ s'.StandsAt life ∧ ¬ s'.Stuck ∧ s'.left < s.left := by
  by_cases hwaits : s.Waits
  · -- the thread ends first
    obtain ⟨⟨rest, hjoin⟩, hthread⟩ := hwaits
    obtain ⟨fd, up, stopping⟩ : ∃ fd, Up fd s.service ∧ s.service.contexts = [(s.service.jniContext, true)] := by
      rcases h with ⟨hbinder, h⟩ | ⟨hmain, h⟩
      · rw [hjoin.resolve_right (by rw [hbinder]; nofun)] at h
        exact h.waits
      · rw [hjoin.resolve_left (by rw [hmain]; nofun)] at h
        exact h.waits
    -- a callback that waits for an event without end would be stuck
    have hends : s.service.tunnel.isHung = false := by
      refine Bool.eq_false_iff.2 fun hhung => hstuck ⟨hhung, ?_⟩
      exact hjoin.imp (fun h => by rw [h]; rfl) (fun h => by rw [h]; rfl)
    obtain ⟨service, hservice, hsystem, hstands⟩ := h.tunnelSteps (t := t) ending
    obtain ⟨last, hlast, hnone, hdead⟩ := up.ended stopping hends
    cases hservice.symm.trans hlast
    have hfree : ¬ System.Waits { s with service } := by
      rintro ⟨-, halive⟩
      rw [hnone] at halive
      cases halive
    have hloose : ¬ System.Stuck { s with service } := by
      rintro ⟨hhung, -⟩
      rw [hdead] at hhung
      cases hhung
    -- then the join returns
    obtain ⟨e, s', hcontinues, hallows, hstep, hstands', hstuck', hlt⟩ := hstands.moves (t := t) hbusy hfree hloose
    refine ⟨ending.map .tunnel ++ [e], s', ?_, (everyStep_tunnel _ _).append ?_, ?_, hstands', hstuck', hlt⟩
    · simp only [List.mem_append, List.mem_map, List.mem_singleton]
      rintro _ (⟨a, ha, rfl⟩ | rfl)
      · constructor
        · rintro rfl
          revert ha
          decide
        · rintro rfl
          revert ha
          decide
      · exact hcontinues
    · rw [hsystem]
      refine ⟨?_, trivial⟩
      rintro _ ⟨⟩
      exact hallows
    · rw [final_append, hsystem, final_single]
      exact hstep
  · obtain ⟨e, s', hcontinues, hallows, hstep, hstands, hstuck', hlt⟩ := h.moves (t := t) hbusy hwaits hstuck
    refine ⟨[e], s', ?_, ⟨?_, trivial⟩, hstep, hstands, hstuck', hlt⟩
    · intro e' he'
      rw [List.mem_singleton.1 he']
      exact hcontinues
    · rintro _ ⟨⟩
      exact hallows

theorem System.StandsAt.ends {s : System} (h : s.StandsAt life) (hstuck : ¬ s.Stuck) :
    ∃ more s', (∀ e ∈ more, e.Continues) ∧
      EveryStep (stepOk (System.step t)) (fun r e => OnOk (fun s => s.Allows e) r) (.ok s) more ∧
      final (stepOk (System.step t)) (.ok s) more = .ok s' ∧ s'.main = [] ∧ s'.binder = [] ∧ s'.Serves life := by
  -- every step of the callback brings it closer to its end
  induction hn : s.left using Nat.strong_induction_on generalizing s with
  | h n ih =>
    by_cases hidle : s.main = [] ∧ s.binder = []
    · exact ⟨[], s, nofun, trivial, rfl, hidle.1, hidle.2, h.serves⟩
    · obtain ⟨first, s₁, hcontinues, hallows, hfirst, hstands, hstuck', hlt⟩ :=
        h.advances (t := t) (not_and_or.1 hidle) hstuck
      obtain ⟨more, s', hcontinues', hallows', hmore, hends⟩ := ih _ (hn ▸ hlt) hstands hstuck' rfl
      refine ⟨first ++ more, s', ?_, hallows.append ?_, ?_, hends⟩
      · exact fun e he => (List.mem_append.1 he).elim (hcontinues e) (hcontinues' e)
      · rw [hfirst]
        exact hallows'
      · rw [final_append, hfirst, hmore]

/-- The steps that stop a thread throw nothing and leave the thread where it is. -/
theorem exec_stopping (hstops : isStopping ops = true) (h : exec t c s ops = .ok (rest, s')) :
    s'.tunnel = s.tunnel ∧ ¬∃ op ∈ ops.head?, c.Fails t op := by
  unfold isStopping at hstops
  split at hstops
  · refine ⟨?_, by rintro ⟨_, ⟨⟩, ⟨⟩⟩⟩
    simp only [exec] at h
    split at h <;> cases h <;> rfl
  · refine ⟨?_, by rintro ⟨_, ⟨⟩, ⟨⟩⟩⟩
    cases h
    rfl
  · refine ⟨?_, by rintro ⟨_, ⟨⟩, ⟨⟩⟩⟩
    obtain ⟨s'', hcall, heq⟩ := bind_eq_ok h
    cases heq
    obtain ⟨stopping, -, hset⟩ := bind_eq_ok hcall
    cases hset
    rfl
  · refine ⟨?_, by rintro ⟨_, ⟨⟩, ⟨⟩⟩⟩
    cases h
    rfl
  · cases hstops

theorem tunnelStep_hung (h : s.tunnel.isHung = true) (a : TunnelStep) : s.tunnelStep a = .ok s := by
  unfold Tunnel.isHung at h
  split at h
  · rename_i htunnel
    cases a <;> simp only [MyVpnService.tunnelStep, htunnel]
  · cases h

/-- On one thread the callback goes on to stop the thread of the tunnel, which hangs. -/
theorem Stands.stays (h : Stands s life ops) (hhung : s.tunnel.isHung = true) (hstops : isStopping ops = true)
    (hcontext : c.context ≠ 0) :
    ∃ ops' s', Vpn.exec t c s ops = .ok (ops', s') ∧ Stands s' life ops' ∧ s'.tunnel.isHung = true ∧
      isStopping ops' = true := by
  obtain ⟨ops', s', hexec, hnext⟩ := h.exec (t := t) hcontext
  obtain ⟨htunnel, hfails⟩ := exec_stopping hstops hexec
  exact ⟨ops', s', hexec, hnext.resolve_left fun hdied => hfails hdied.2, htunnel ▸ hhung,
    (h.exec_hung hhung hexec).trans hstops⟩

/-- A system that is stuck stays so, whatever goes on. -/
theorem System.StandsAt.stays {s s' : System} (h : s.StandsAt life) (hstuck : s.Stuck) {e : Event}
    (hallows : s.Allows e) (hstep : s.step t e = .ok s') : s'.StandsAt life ∧ s'.Stuck := by
  -- the callback that waits is under way, so that no other one begins
  have hbusy : ¬ (s.main = [] ∧ s.binder = []) := by
    rintro ⟨hmain, hbinder⟩
    obtain ⟨-, hstops⟩ := hstuck
    rw [hmain, hbinder] at hstops
    rcases hstops with hstops | hstops <;> cases hstops
  unfold System.step at hstep
  rw [h.alive] at hstep
  simp only [Bool.false_eq_true, if_false] at hstep
  cases e with
  | onCreate | onStartCommand | onDestroy | onRevoke => exact absurd ⟨hallows.1, hallows.2.1⟩ hbusy
  | main c =>
    rcases h with ⟨hbinder, h⟩ | ⟨hmain, h⟩
    · have hstops := hstuck.2.resolve_right (by rw [hbinder]; nofun)
      obtain ⟨ops', service, hexec, hstands, hhung, hstops'⟩ := h.stays (t := t) hstuck.1 hstops hallows.1
      simp only [hexec] at hstep
      cases hstep
      exact ⟨.inl ⟨hbinder, hstands⟩, hhung, .inl hstops'⟩
    · simp only [hmain, Vpn.exec] at hstep
      cases hstep
      exact ⟨.inr ⟨rfl, h⟩, hstuck.1, .inr (hstuck.2.resolve_left (by rw [hmain]; nofun))⟩
  | binder c =>
    rcases h with ⟨hbinder, h⟩ | ⟨hmain, h⟩
    · simp only [hbinder, Vpn.exec] at hstep
      cases hstep
      exact ⟨.inl ⟨rfl, h⟩, hstuck.1, .inl (hstuck.2.resolve_right (by rw [hbinder]; nofun))⟩
    · have hstops := hstuck.2.resolve_left (by rw [hmain]; nofun)
      obtain ⟨ops', service, hexec, hstands, hhung, hstops'⟩ := h.stays (t := t) hstuck.1 hstops hallows.1
      simp only [hexec] at hstep
      cases hstep
      exact ⟨.inr ⟨hmain, hstands⟩, hhung, .inr hstops'⟩
  -- the thread stays in its event
  | tunnel a =>
    simp only [tunnelStep_hung hstuck.1] at hstep
    cases hstep
    exact ⟨h, hstuck⟩

/-- Whatever goes on, no callback ends in a system that is stuck. -/
theorem System.StandsAt.never_ends {s s' : System} (h : s.StandsAt life) (hstuck : s.Stuck) {more : List Event}
    (hallows : EveryStep (stepOk (System.step t)) (fun r e => OnOk (fun s => s.Allows e) r) (.ok s) more)
    (hrun : final (stepOk (System.step t)) (.ok s) more = .ok s') : ¬ (s'.main = [] ∧ s'.binder = []) := by
  have hkeeps : ∀ (past : List Event) (s : System) (e : Event), s.StandsAt life ∧ s.Stuck → s.Allows e →
      ∃ s', s.step t e = .ok s' ∧ (s'.StandsAt life ∧ s'.Stuck) := by
    rintro past s e ⟨h, hstuck⟩ hallows
    obtain ⟨s', hstep, -⟩ := h.step (t := t) hallows
    exact ⟨s', hstep, h.stays hstuck hallows hstep⟩
  obtain ⟨s'', hs'', -, -, hstops⟩ :=
    @final_returns _ _ _ (System.step t) (fun _ s => s.StandsAt life ∧ s.Stuck) _ hkeeps
    [] s ⟨h, hstuck⟩ more hallows
  cases hs''.symm.trans hrun
  rintro ⟨hmain, hbinder⟩
  rw [hmain, hbinder] at hstops
  rcases hstops with hstops | hstops <;> cases hstops

/-- At every moment of every run the callback that is under way can end, exactly unless it is one that waits for
the thread of the tunnel, and the thread is in an event that never ends. -/
theorem ends_of_run {t : CharTables} {events : List Event} {s : System}
    (h : EveryStep (stepOk (System.step t)) (fun r e => OnOk (fun s => s.Allows e) r) (.ok .init) events)
    (hrun : final (stepOk (System.step t)) (.ok .init) events = .ok s) (halive : s.service.died = false) :
    (∃ more s', (∀ e ∈ more, e.Continues) ∧
      EveryStep (stepOk (System.step t)) (fun r e => OnOk (fun s => s.Allows e) r) (.ok .init) (events ++ more) ∧
      final (stepOk (System.step t)) (.ok .init) (events ++ more) = .ok s' ∧ s'.main = [] ∧ s'.binder = [] ∧
      s'.Serves (lifeAfter events)) ↔ ¬ s.Stuck := by
  obtain ⟨s₁, hs₁, hreached⟩ := reached_of_run h
  cases hs₁.symm.trans hrun
  have hstands := hreached.resolve_left fun hdied => Bool.false_ne_true (halive.symm.trans hdied.1)
  constructor
  · rintro ⟨more, s', -, hallows, hmore, hmain, hbinder, -⟩ hstuck
    rw [final_append, hrun] at hmore
    have hrest := everyStep_append_right hallows
    rw [hrun] at hrest
    exact hstands.never_ends hstuck hrest hmore ⟨hmain, hbinder⟩
  · intro hstuck
    obtain ⟨more, s', hcontinues, hallows, hmore, hends⟩ := hstands.ends (t := t) hstuck
    refine ⟨more, s', hcontinues, h.append ?_, ?_, hends⟩
    · rw [hrun]
      exact hallows
    · rw [final_append, hrun, hmore]

theorem ends_of_run_waiting :
    ∃ s, final (stepOk (System.step .ascii)) (.ok .init) (revokedRun.take 21) = .ok s ∧ s.Waits ∧
    ∃ more s', (∀ e ∈ more, e.Continues) ∧
      EveryStep (stepOk (System.step .ascii)) (fun r e => OnOk (fun s => s.Allows e) r) (.ok .init)
      (revokedRun.take 21 ++ more) ∧
      final (stepOk (System.step .ascii)) (.ok .init) (revokedRun.take 21 ++ more) = .ok s' ∧ s'.main = [] ∧
      s'.binder = [] ∧
      s'.Serves (lifeAfter (revokedRun.take 21)) := by
  have hrun : (final (stepOk (System.step .ascii)) (.ok .init) (revokedRun.take 21)).map
      (fun s => (s.service.died, s.binder.head?, s.service.tunnelThread && s.service.tunnel.isAlive, decide s.Stuck)) =
        .ok (false, some .join, true, false) := by decide +kernel
  obtain ⟨s, hs, hfacts⟩ := map_eq_ok hrun
  obtain ⟨halive, hrest⟩ := Prod.mk.inj hfacts
  obtain ⟨hjoin, hrest⟩ := Prod.mk.inj hrest
  obtain ⟨hthread, hstuck⟩ := Prod.mk.inj hrest
  obtain ⟨rest, hbinder⟩ := List.head?_eq_some_iff.1 hjoin
  exact ⟨s, hs, ⟨⟨rest, .inr hbinder⟩, hthread⟩,
    (ends_of_run (by decide +kernel) hs halive).2 (of_decide_eq_false hstuck)⟩

end SunProxy.Vpn
