/-
An engine that hears nothing more forgets its sessions. A check ends every session that has been idle for
longer than the longest timeout, and a later one removes those that have ended; the turns of the loop
between them keep no session alive. So two checks that are late enough leave an empty table, and
every socket closed.
-/
import SunProxy.Net.Births

namespace SunProxy.Net

open SunProxy.Buffer SunProxy.Kotlin SunProxy.Result SunProxy.Run SunProxy.Simulation

variable {args : Arguments} {ctx : Context} {s s' : NgSession} {t : TcpSession} {u : UdpSession}
  {sessions maxsessions now : Int}

/-! ## The age of a session -/

/-- When a session was last active, or has ended. -/
def SessionData.time : SessionData → Int
  | .icmp i => i.time
  | .udp u => u.time
  | .tcp t => t.time

/-- A session that only waits for its removal. -/
def SessionData.Ended : SessionData → Prop
  | .icmp _ => False
  | .udp u => u.state = .closed ∨ u.state = .blocked
  | .tcp t => t.state = .close

/-- A full table has shorter timeouts, never longer ones. -/
theorem scaledTimeout_le {timeout : Int} (htimeout : 0 ≤ timeout) (hsessions : 0 ≤ sessions) (hmax : 0 < maxsessions) :
    scaledTimeout timeout sessions maxsessions ≤ timeout := by
  have hscale : 0 ≤ Int.tdiv (sessions * 100) maxsessions := Int.tdiv_nonneg (by omega) hmax.le
  have hle : timeout * (100 - Int.tdiv (sessions * 100) maxsessions) ≤ timeout * 100 :=
    Int.mul_le_mul_of_nonneg_left (by omega) htimeout
  have hdiv := Int.tdiv_le_tdiv (c := 100) (by decide) hle
  rwa [Int.mul_tdiv_cancel _ (by decide)] at hdiv

theorem getTcpTimeout_le (state : TcpState) (hsessions : 0 ≤ sessions) (hmax : 0 < maxsessions) :
    getTcpTimeout state sessions maxsessions ≤ TCP_IDLE_TIMEOUT := by
  unfold getTcpTimeout
  dsimp only
  split
  all_goals exact (scaledTimeout_le (by decide) hsessions hmax).trans (by decide)

/-! ## One check -/

/-- What becomes of a session that a check keeps: it has ended just now, or it is as old as it was, and not
too old for its state. -/
inductive Aged (s s' : NgSession) (now : Int) : Prop
  | ended (before : ¬ s.data.Ended) (after : s'.data.Ended) (time : s'.data.time = now)
  | kept (time : s'.data.time = s.data.time)
    (ended : s.data.Ended → s'.data.Ended ∧ now ≤ s.data.time + TCP_KEEP_TIMEOUT)
      (young : now ≤ s.data.time + TCP_IDLE_TIMEOUT)

theorem time_writeOrClose (t : TcpSession) (data : Bytes) (flags : TcpFlags) (ok : Bool) :
    (writeOrClose t data flags ok).1.time = t.time := by
  cases ok <;> rfl

theorem time_accountTcp (t : TcpSession) : (accountTcp t).1.time = t.time := by
  unfold accountTcp
  split <;> rfl

theorem time_accountUdp (u : UdpSession) : (accountUdp u).1.time = u.time := by
  unfold accountUdp
  split <;> rfl

/-- A session that is not closed closes, or is not too old. -/
theorem expireTcp_cases (hopen : ¬ t.isClosed = true) (hsessions : 0 ≤ sessions) (hmax : 0 < maxsessions) :
    (expireTcp t sessions maxsessions now).1.state = .closing ∨
      (expireTcp t sessions maxsessions now).1 = t ∧ now ≤ t.time + TCP_IDLE_TIMEOUT := by
  unfold expireTcp
  split
  · left
    split
    · rfl
    · have hne : t.state ≠ .close := fun h => hopen (by rw [TcpSession.isClosed, h]; rfl)
      dsimp only
      rw [state_writeRst, if_neg hne]
  · rename_i hyoung
    rw [Bool.not_eq_true _ |>.mp hopen] at hyoung
    have hle := getTcpTimeout_le t.state hsessions hmax
    simp only [Bool.not_false, Bool.true_and, decide_eq_true_eq] at hyoung
    exact .inr ⟨rfl, by omega⟩

theorem aged_checkTcpSession (hs : s.data = .tcp t) (hsessions : 0 ≤ sessions) (hmax : 0 < maxsessions)
    (h : (checkTcpSession s t sessions maxsessions now).1 = some s') : Aged s s' now := by
  unfold checkTcpSession at h
  dsimp only at h
  split at h
  · cases h
  rename_i hkept
  cases h
  have hstate := state_accountTcp (closeTcp s.socket (expireTcp t sessions maxsessions now).1 now).2.1
  have htime := time_accountTcp (closeTcp s.socket (expireTcp t sessions maxsessions now).1 now).2.1
  rw [hstate, htime] at hkept
  -- a session that is closed in this check gets the time of the check
  have hclosing : (expireTcp t sessions maxsessions now).1.state = .closing → ¬ t.state = .close →
      Aged s { s with
        data := .tcp (accountTcp (closeTcp s.socket (expireTcp t sessions maxsessions now).1 now).2.1).1
        socket := (closeTcp s.socket (expireTcp t sessions maxsessions now).1 now).1 } now := by
    intro hclosing hne
    unfold closeTcp at hstate htime ⊢
    rw [if_pos hclosing] at hstate htime ⊢
    refine .ended ?_ hstate htime
    rw [hs]
    exact hne
  by_cases hclosed : t.isClosed = true
  · have hexpire : (expireTcp t sessions maxsessions now).1 = t := by
      unfold expireTcp
      rw [hclosed]
      rfl
    rcases (by simpa [TcpSession.isClosed] using hclosed : t.state = .closing ∨ t.state = .close) with hc | hc
    · exact hclosing (by rw [hexpire, hc]) (by rw [hc]; decide)
    · -- it has been closed before
      have hclose : (closeTcp s.socket (expireTcp t sessions maxsessions now).1 now).2.1 = t := by
        unfold closeTcp
        rw [hexpire, if_neg (by rw [hc]; decide)]
      rw [hclose] at hkept hstate htime ⊢
      have hle : now ≤ t.time + TCP_KEEP_TIMEOUT := by
        rw [hc] at hkept
        have := not_and.1 hkept rfl
        omega
      refine .kept ?_ (fun _ => ⟨hstate.trans hc, ?_⟩) ?_
      · rw [hs]
        exact htime
      · rw [hs]
        exact hle
      · rw [hs]
        exact hle.trans (Int.add_le_add_left (by decide) _)
  · rcases expireTcp_cases hclosed hsessions hmax with hexpired | ⟨hsame, hyoung⟩
    · exact hclosing hexpired fun hc => hclosed (by rw [TcpSession.isClosed, hc]; rfl)
    -- one that goes on is not older than its timeout
    · have hne : t.state ≠ .closing ∧ t.state ≠ .close := by simpa [TcpSession.isClosed] using hclosed
      have hclose : (closeTcp s.socket (expireTcp t sessions maxsessions now).1 now).2.1 = t := by
        unfold closeTcp
        rw [hsame, if_neg hne.1]
      rw [hclose] at htime ⊢
      refine .kept ?_ (fun hended => ?_) ?_
      · rw [hs]
        exact htime
      · rw [hs] at hended
        exact absurd hended hne.2
      · rw [hs]
        exact hyoung

theorem aged_checkUdpSession (hs : s.data = .udp u) (hsessions : 0 ≤ sessions) (hmax : 0 < maxsessions)
    (h : (checkUdpSession s u sessions maxsessions now).1 = some s') : Aged s s' now := by
  unfold checkUdpSession at h
  dsimp only at h
  split at h
  · cases h
  rename_i hkept
  cases h
  have hstate := state_accountUdp (closeUdp s.socket (expireUdp u sessions maxsessions now) now).2.1
  have htime := time_accountUdp (closeUdp s.socket (expireUdp u sessions maxsessions now) now).2.1
  rw [hstate, htime] at hkept
  have htimeout : getUdpTimeout u.flow sessions maxsessions ≤ TCP_IDLE_TIMEOUT := by
    unfold getUdpTimeout
    split
    all_goals exact (scaledTimeout_le (by decide) hsessions hmax).trans (by decide)
  by_cases hfinishing : (expireUdp u sessions maxsessions now).state = .finishing
  -- a session that is closed in this check gets the time of the check
  · unfold closeUdp at hstate htime ⊢
    rw [if_pos hfinishing] at hstate htime ⊢
    refine .ended ?_ (.inl hstate) htime
    rw [hs]
    unfold expireUdp at hfinishing
    split at hfinishing
    · rename_i hexpired
      rw [SessionData.Ended, hexpired.1]
      decide
    · rw [SessionData.Ended, hfinishing]
      decide
  · have hsame : expireUdp u sessions maxsessions now = u := by
      unfold expireUdp at hfinishing ⊢
      split
      · rename_i hexpired
        rw [if_pos hexpired] at hfinishing
        exact absurd rfl hfinishing
      · rfl
    have hclose : (closeUdp s.socket (expireUdp u sessions maxsessions now) now).2.1 = u := by
      unfold closeUdp
      rw [if_neg hfinishing, hsame]
    rw [hclose] at hkept hstate htime ⊢
    rw [hsame] at hfinishing
    -- one that has ended is not kept longer than the timeout for that
    have hold : u.state = .closed ∨ u.state = .blocked → now ≤ u.time + TCP_KEEP_TIMEOUT := by
      intro hended
      have hle := not_and.1 hkept hended
      have hkeep : UDP_KEEP_TIMEOUT ≤ TCP_KEEP_TIMEOUT := by decide
      omega
    refine .kept ?_ ?_ ?_
    · rw [hs]
      exact htime
    · rw [hs]
      exact fun hended => ⟨by rw [SessionData.Ended, hstate]; exact hended, hold hended⟩
    · rw [hs]
      show now ≤ u.time + TCP_IDLE_TIMEOUT
      cases hu : u.state with
      | active =>
        have hyoung : ¬ (u.state = .active ∧ u.time + getUdpTimeout u.flow sessions maxsessions < now) := by
          intro hexpired
          unfold expireUdp at hsame
          rw [if_pos hexpired] at hsame
          exact hfinishing (by rw [← hsame]; rfl)
        have := not_and.1 hyoung hu
        omega
      | finishing => exact absurd hu hfinishing
      | closed => exact (hold (.inl hu)).trans (Int.add_le_add_left (by decide) _)
      | blocked => exact (hold (.inr hu)).trans (Int.add_le_add_left (by decide) _)

/-- A check ends a session, or keeps it as it is if it is not too old. -/
theorem aged_checkSession (hsessions : 0 ≤ sessions) (hmax : 0 < maxsessions)
    (h : (checkSession sessions maxsessions now s).1 = some s') : Aged s s' now := by
  unfold checkSession at h
  split at h
  · rename_i i hs
    unfold checkIcmpSession at h
    split at h
    · cases h
    · rename_i hkept
      cases h
      have hle : getIcmpTimeout sessions maxsessions ≤ TCP_IDLE_TIMEOUT :=
        (scaledTimeout_le (by decide) hsessions hmax).trans (by decide)
      have hyoung := (not_or.1 hkept).2
      refine .kept rfl (fun hended => ?_) ?_
      · rw [hs] at hended
        cases hended
      · rw [hs]
        show now ≤ i.time + TCP_IDLE_TIMEOUT
        omega
  · exact aged_checkUdpSession ‹_› hsessions hmax h
  · exact aged_checkTcpSession ‹_› hsessions hmax h

/-! ## One turn -/

theorem time_monitorEvents (t : TcpSession) (socket : Int) (calls : MonitorCalls) :
    (monitorEvents t socket calls).2.1.time = t.time := by
  have halive : (keepAlive t calls).1.time = t.time := by
    unfold keepAlive
    split
    · exact time_writeOrClose { t with lastKeepAlive := calls.ms, remoteSeq := sub32 t.remoteSeq 1 } [] _ calls.tunWrite
    · rfl
  rcases monitorEvents_cases t socket calls with h | ⟨-, h⟩ <;> rw [h]
  exact halive

/-- Monitoring a session keeps its age, and leaves one that has ended alone. -/
theorem monitorSession_aged (calls : Nat → MonitorCalls) (hfits : s.Fits) :
    (monitorSession calls s).1.data.time = s.data.time ∧ (s.data.Ended → (monitorSession calls s).1.data.Ended) := by
  unfold monitorSession
  split
  · rename_i t hs
    split
    · rename_i hsocket
      refine ⟨?_, fun hended => ?_⟩
      · rw [hs]
        unfold monitorTcpSession
        dsimp only [SessionData.time]
        split
        · exact time_monitorEvents t s.socket (calls s.id)
        · exact time_monitorEvents t s.socket (calls s.id)
      · -- a closed session has no socket
        rw [hs] at hended
        have hlost := (NgSession.fits_tcp hs).1 hfits
        rw [show t.state = .close from hended] at hlost
        have : s.socket = -1 := hlost
        omega
    · exact ⟨rfl, id⟩
  · exact ⟨rfl, id⟩

/-- A session after a turn was there before it; it may have been checked. -/
theorem mem_loopTurn {calls : LoopCalls} (hfits : ∀ s ∈ ctx.sessions, s.Fits) (hmax : 0 < args.maxsessions)
    (h : s' ∈ (loopTurn args ctx calls).1.sessions) : ∃ s ∈ ctx.sessions,
      calls.due = true ∧ Aged s s' calls.now ∨
        calls.due = false ∧ s'.data.time = s.data.time ∧ (s.data.Ended → s'.data.Ended) := by
  unfold loopTurn at h
  dsimp only at h
  split at h
  · rename_i hdue
    obtain ⟨s₁, hs₁, hcheck⟩ := List.mem_filterMap.1 h
    obtain ⟨s, hs, hmonitor⟩ := List.mem_filterMap.1 hs₁
    cases hmonitor
    obtain ⟨htime, hended⟩ := monitorSession_aged calls.monitor (hfits s hs)
    have hcount : 0 ≤ ctx.countActive := Int.natCast_nonneg _
    refine ⟨s, hs, .inl ⟨hdue, ?_⟩⟩
    cases aged_checkSession hcount hmax hcheck with
    | ended before after time => exact .ended (mt hended before) after time
    | kept time ended young =>
      rw [htime] at time ended young
      exact .kept time (fun h => ended (hended h)) young
  · rename_i hdue
    obtain ⟨s, hs, hmonitor⟩ := List.mem_filterMap.1 h
    cases hmonitor
    obtain ⟨htime, hended⟩ := monitorSession_aged calls.monitor (hfits s hs)
    exact ⟨s, hs, .inr ⟨Bool.eq_false_iff.2 hdue, htime, hended⟩⟩

/-! ## Turns of a loop that hears nothing -/

/-- A session that has been idle since `T` or has ended before the turns that come. -/
def Idle (T : Int) (turns : List LoopCalls) (s : NgSession) : Prop :=
  s.data.time ≤ T ∨ s.data.Ended ∧ ∀ c ∈ turns, s.data.time ≤ c.now

/-- The clock does not go back. -/
def ClockRises (turns : List LoopCalls) : Prop := turns.Pairwise fun a b => a.now ≤ b.now

variable {c : LoopCalls} {turns before after : List LoopCalls} {t₀ t₁ : Trace} {T m : Int}

theorem final_loop {tr tr' : Trace} (hfits : ∀ s ∈ tr.engine.ctx.sessions, s.Fits)
    (h : final (stepOk (Trace.step args)) (.ok tr) ((c :: turns).map .loop) = .ok tr') :
    ∃ tr₁ : Trace, tr₁.engine.ctx = (loopTurn args tr.engine.ctx c).1 ∧
      (∃ os, tr₁.outputs = tr.outputs ++ os ∧ Sweeps tr.engine.ctx.sessions tr₁.engine.ctx.sessions os) ∧
      final (stepOk (Trace.step args)) (.ok tr₁) (turns.map .loop) = .ok tr' := by
  rw [List.map_cons] at h
  obtain ⟨tr₁, hstep, hrest⟩ := final_cons_eq_ok h
  obtain ⟨e, acts, he, rfl⟩ := Trace.step_cases hstep
  cases he
  refine ⟨_, rfl, ⟨_, ?_, sweeps_loopTurn hfits c⟩, hrest⟩
  rw [Trace.outputs_cons, outputsOf_map]
  rfl

/-- A loop that hears nothing: what its sessions had is closed, or theirs still. -/
theorem sweeps_turns {tr tr' : Trace} (hfits : ∀ s ∈ tr.engine.ctx.sessions, s.Fits)
    (h : final (stepOk (Trace.step args)) (.ok tr) (turns.map .loop) = .ok tr') :
    ∃ os, tr'.outputs = tr.outputs ++ os ∧ Sweeps tr.engine.ctx.sessions tr'.engine.ctx.sessions os := by
  induction turns generalizing tr with
  | nil =>
    cases h
    exact ⟨[], (List.append_nil _).symm, .refl hfits⟩
  | cons c turns ih =>
    obtain ⟨tr₁, -, ⟨os, houtputs, hsweeps⟩, hrest⟩ := final_loop hfits h
    obtain ⟨os', houtputs', hsweeps'⟩ := ih hsweeps.fits hrest
    refine ⟨os ++ os', ?_, hsweeps.trans hsweeps'⟩
    rw [houtputs', houtputs, List.append_assoc]

/-- A property of sessions that turns keep. -/
theorem forall_turns {P : List LoopCalls → NgSession → Prop}
    (hturn : ∀ {ctx : Context} {c turns}, (∀ s ∈ ctx.sessions, s.Fits) → ClockRises (c :: turns) →
      (∀ s ∈ ctx.sessions, P (c :: turns) s) →
      ∀ s ∈ (loopTurn args ctx c).1.sessions, P turns s)
    {tr tr' : Trace} (hfits : ∀ s ∈ tr.engine.ctx.sessions, s.Fits) (hclock : ClockRises (before ++ after))
    (hp : ∀ s ∈ tr.engine.ctx.sessions, P (before ++ after) s)
    (h : final (stepOk (Trace.step args)) (.ok tr) (before.map .loop) = .ok tr') :
    ∀ s ∈ tr'.engine.ctx.sessions, P after s := by
  induction before generalizing tr with
  | nil =>
    cases h
    exact hp
  | cons c before ih =>
    obtain ⟨tr₁, hctx, ⟨_, -, hsweeps⟩, hrest⟩ := final_loop hfits h
    have hnext := hturn hfits hclock hp
    rw [← hctx] at hnext
    exact ih hsweeps.fits (List.pairwise_cons.1 hclock).2 hnext hrest

/-- No turn makes a session younger that is idle. -/
theorem idle_loopTurn (hmax : 0 < args.maxsessions) (hfits : ∀ s ∈ ctx.sessions, s.Fits)
    (hclock : ClockRises (c :: turns)) (h : ∀ s ∈ ctx.sessions, Idle T (c :: turns) s) :
    ∀ s ∈ (loopTurn args ctx c).1.sessions, Idle T turns s := by
  intro s' hs'
  have later : ∀ {s : NgSession}, Idle T (c :: turns) s → s'.data.time = s.data.time → (s.data.Ended → s'.data.Ended) →
      Idle T turns s' := by
    rintro s (htime | ⟨hended, hle⟩) hsame hkept
    · exact .inl (hsame ▸ htime)
    · exact .inr ⟨hkept hended, fun c' hc' => hsame ▸ hle c' (List.mem_cons_of_mem _ hc')⟩
  obtain ⟨s, hs, ⟨-, aged⟩ | ⟨-, hsame, hkept⟩⟩ := mem_loopTurn hfits hmax hs'
  · cases aged with
    | ended _ after time => exact .inr ⟨after, fun c' hc' => time ▸ (List.pairwise_cons.1 hclock).1 c' hc'⟩
    | kept time ended _ => exact later (h s hs) time fun hended => (ended hended).1
  · exact later (h s hs) hsame hkept

/-- A check that is late enough leaves only sessions that have ended. -/
theorem ended_loopTurn (hmax : 0 < args.maxsessions) (hfits : ∀ s ∈ ctx.sessions, s.Fits) (hdue : c.due = true)
    (hlate : T + TCP_IDLE_TIMEOUT < c.now) (h : ∀ s ∈ ctx.sessions, Idle T (c :: turns) s) :
    ∀ s ∈ (loopTurn args ctx c).1.sessions, s.data.Ended ∧ s.data.time ≤ c.now := by
  intro s' hs'
  obtain ⟨s, hs, ⟨-, aged⟩ | ⟨hnot, -⟩⟩ := mem_loopTurn hfits hmax hs'
  · cases aged with
    | ended _ after time => exact ⟨after, time.le⟩
    | kept time ended young =>
      rcases h s hs with htime | ⟨hended, hle⟩
      · omega
      · exact ⟨(ended hended).1, time ▸ hle c List.mem_cons_self⟩
  · exact absurd (hdue.symm.trans hnot) Bool.noConfusion

/-- Sessions that have ended stay as they are, and a check that is late enough removes them. -/
theorem gone_loopTurn (hmax : 0 < args.maxsessions) (hfits : ∀ s ∈ ctx.sessions, s.Fits)
    (h : ∀ s ∈ ctx.sessions, s.data.Ended ∧ s.data.time ≤ m) :
    ∀ s ∈ (loopTurn args ctx c).1.sessions, (s.data.Ended ∧ s.data.time ≤ m) ∧
    (c.due = true → c.now ≤ m + TCP_KEEP_TIMEOUT) := by
  intro s' hs'
  obtain ⟨s, hs, ⟨-, aged⟩ | ⟨hnot, hsame, hkept⟩⟩ := mem_loopTurn hfits hmax hs'
  · obtain ⟨hended, hle⟩ := h s hs
    cases aged with
    | ended before => exact absurd hended before
    | kept time ended _ =>
      obtain ⟨hended', hold⟩ := ended hended
      exact ⟨⟨hended', time ▸ hle⟩, fun _ => by omega⟩
  · obtain ⟨hended, hle⟩ := h s hs
    exact ⟨⟨hkept hended, hsame ▸ hle⟩, fun hdue => absurd (hdue.symm.trans hnot) Bool.noConfusion⟩

/-! ## Whole runs -/

theorem final_loops {tr tr' : Trace}
    (h : final (stepOk (Trace.step args)) (.ok tr) ((before ++ after).map .loop) = .ok tr') :
    ∃ tr₁ : Trace, final (stepOk (Trace.step args)) (.ok tr) (before.map .loop) = .ok tr₁ ∧
      final (stepOk (Trace.step args)) (.ok tr₁) (after.map .loop) = .ok tr' := by
  rw [List.map_append] at h
  exact final_append_eq_ok h

/-- Two checks, one later than the idle timeout after the last activity and one later than the keep timeout after
that, leave no session, and have closed what the sessions had open. -/
theorem drained_of_run {args : Arguments} {events : List Event} {t₀ t : Trace} {before between after : List LoopCalls}
    {c₁ c₂ : LoopCalls} {T : Int} (h₀ : final (stepOk (Trace.step args)) (.ok .init) events = .ok t₀)
    (h : final (stepOk (Trace.step args)) (.ok t₀) ((before ++ c₁ :: (between ++ c₂ :: after)).map .loop) = .ok t)
    (hmax : 0 < args.maxsessions) (hidle : ∀ s ∈ t₀.engine.ctx.sessions, s.data.time ≤ T)
    (hclock : ClockRises (before ++ c₁ :: (between ++ c₂ :: after))) (hdue₁ : c₁.due = true) (hdue₂ : c₂.due = true)
    (hlate₁ : T + TCP_IDLE_TIMEOUT < c₁.now) (hlate₂ : c₁.now + TCP_KEEP_TIMEOUT < c₂.now) :
    t.engine.ctx.sessions = [] ∧
      ∃ os, t.outputs = t₀.outputs ++ os ∧ (closes os).Perm (descriptors t₀.engine.ctx.sessions) := by
  have hfits : ∀ s ∈ t₀.engine.ctx.sessions, s.Fits :=
    (onOk_states_of_inv (fun _ _ _ hinv hs => hinv.step hs) Trace.socketInv_init events _
      (final_mem_states _ _) t₀ h₀).fits
  obtain ⟨os, houtputs, hsweeps⟩ := sweeps_turns hfits h
  have hnone : ∀ s ∈ t.engine.ctx.sessions, False := by
    -- until the first late check
    obtain ⟨t₁, hbefore, h⟩ := final_loops h
    obtain ⟨_, -, hsweeps₁⟩ := sweeps_turns hfits hbefore
    have hidle₁ := forall_turns (P := Idle T) (fun hfits hclock hp => idle_loopTurn hmax hfits hclock hp) hfits hclock
      (fun s hs => .inl (hidle s hs)) hbefore
    -- from there to the second
    obtain ⟨t₂, hctx₂, ⟨_, -, hsweeps₂⟩, h⟩ := final_loop hsweeps₁.fits h
    have hended := ended_loopTurn hmax hsweeps₁.fits hdue₁ hlate₁ hidle₁
    rw [← hctx₂] at hended
    have hclock₂ := (List.pairwise_cons.1 (List.pairwise_append.1 hclock).2.1).2
    obtain ⟨t₃, hbetween, h⟩ := final_loops h
    obtain ⟨_, -, hsweeps₃⟩ := sweeps_turns hsweeps₂.fits hbetween
    have hended₃ := forall_turns (P := fun _ s => s.data.Ended ∧ s.data.time ≤ c₁.now)
      (fun hfits _ hp s hs => (gone_loopTurn hmax hfits hp s hs).1) hsweeps₂.fits hclock₂ hended hbetween
    -- and after it
    obtain ⟨t₄, hctx₄, ⟨_, -, hsweeps₄⟩, h⟩ := final_loop hsweeps₃.fits h
    have hgone : ∀ s ∈ t₄.engine.ctx.sessions, False := by
      intro s hs
      rw [hctx₄] at hs
      have := (gone_loopTurn hmax hsweeps₃.fits hended₃ s hs).2 hdue₂
      omega
    have hclock₄ : ClockRises (after ++ []) := by
      rw [List.append_nil]
      exact (List.pairwise_cons.1 (List.pairwise_append.1 hclock₂).2.1).2
    refine forall_turns (P := fun _ _ => False) (fun hfits _ hp s hs => ?_) hsweeps₄.fits hclock₄ hgone h
    obtain ⟨s, hs, -⟩ := mem_loopTurn hfits hmax hs
    exact hp s hs
  have hempty := List.eq_nil_iff_forall_not_mem.2 hnone
  refine ⟨hempty, os, houtputs, ?_⟩
  have hperm := hsweeps.descriptors
  rwa [hempty, descriptors, List.flatMap_nil, List.append_nil] at hperm

/-- A turn that checks the sessions at a time. -/
def LoopCalls.checking (now : Int) : LoopCalls := ⟨true, now, fun _ => ⟨now * 1000, true, true, 0, 0⟩⟩

theorem drained_of_run_connected : ∃ t₀ t : Trace,
    final (stepOk (Trace.step (.plain [] _ compiled_redirectAll))) (.ok .init) connected = .ok t₀ ∧
    final (stepOk (Trace.step (.plain [] _ compiled_redirectAll))) (.ok t₀)
    ([.checking 5000, .checking 6000].map .loop) = .ok t ∧
    descriptors t₀.engine.ctx.sessions = [3] ∧ t.engine.ctx.sessions = [] ∧
    ∃ os, t.outputs = t₀.outputs ++ os ∧ (closes os).Perm (descriptors t₀.engine.ctx.sessions) := by
  have hfirst : (final (stepOk (Trace.step (.plain [] _ compiled_redirectAll))) (.ok .init) connected).map
      (fun t => (t.engine.ctx.sessions.map (·.data.time), descriptors t.engine.ctx.sessions)) = .ok ([0], [3]) := by
    decide +kernel
  have hboth : (final (stepOk (Trace.step (.plain [] _ compiled_redirectAll))) (.ok .init)
      (connected ++ [.checking 5000, .checking 6000].map .loop)).map (fun t => t.engine.ctx.sessions.length) =
        .ok 0 := by
    decide +kernel
  obtain ⟨t₀, ht₀, hfacts⟩ := map_eq_ok hfirst
  obtain ⟨t, ht, -⟩ := map_eq_ok hboth
  rw [final_append, ht₀] at ht
  have hloops : final (stepOk (Trace.step (.plain [] _ compiled_redirectAll))) (.ok t₀)
      (([] ++ LoopCalls.checking 5000 :: ([] ++ LoopCalls.checking 6000 :: [])).map .loop) = .ok t := ht
  obtain ⟨htimes, hopen⟩ := Prod.mk.inj hfacts
  refine ⟨t₀, t, ht₀, ht, hopen, ?_⟩
  refine drained_of_run (T := 0) ht₀ hloops (by decide) (fun s hs => ?_) ?_ rfl rfl ?_ ?_
  · have hmem := List.mem_map_of_mem (f := (·.data.time)) hs
    rw [htimes, List.mem_singleton] at hmem
    exact hmem.le
  · unfold ClockRises
    simp [LoopCalls.checking]
  · decide
  · decide

end SunProxy.Net
