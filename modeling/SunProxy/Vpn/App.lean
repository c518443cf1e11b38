/-
The service with the settings it reads. The settings are changed while it runs; what it reads when it is
started has passed the checks of the editors, so that nothing but a builder that refuses what it is given, or a
tunnel that is not established, can make it throw.
-/
import SunProxy.Pref.Store
import SunProxy.Vpn.Runs

namespace SunProxy.Vpn

open SunProxy.Kotlin SunProxy.Pref SunProxy.Run

structure App where
  preferences : Preferences
  system : System

/-- The loaders read what is stored. -/
def Calls.reading (p : Preferences) (c : Calls) : Calls := { c with preferences := p }

def Event.reading (p : Preferences) : Event → Event
  | .main c => .main (c.reading p)
  | .binder c => .binder (c.reading p)
  | e => e

inductive AppEvent where
  | change (change : Change)
  | service (event : Event)

def App.step (t : CharTables) (getByName : Str → Option Inet) (a : App) : AppEvent → Except Misuse App
  | .change change => .ok { a with preferences := store t getByName a.preferences change }
  | .service e => do return { a with system := ← a.system.step t (e.reading a.preferences) }

/-- The builder takes what a step gives it, and a tunnel that a step asks for is established. -/
def Calls.establishes (t : CharTables) (c : Calls) : Op → Bool
  | .getBuilder => (getBuilder t c.takes c.dnsServers c.preferences).isOk
  | .startVpn => c.tun.isSome
  | _ => true

def System.establishes (t : CharTables) (s : System) : Event → Bool
  | .main c => s.main.head?.all (c.establishes t)
  | .binder c => s.binder.head?.all (c.establishes t)
  | _ => true

def App.Allows (t : CharTables) (a : App) : AppEvent → Prop
  | .change _ => True
  | .service e => a.system.Allows e ∧ a.system.establishes t (e.reading a.preferences) = true

instance (t : CharTables) (a : App) : (e : AppEvent) → Decidable (a.Allows t e)
  | .change _ => isTrue trivial
  | .service _ => inferInstanceAs (Decidable (_ ∧ _))

def App.init : App := ⟨.installed, .init⟩

def serviceEvents (events : List AppEvent) : List Event :=
  events.filterMap fun
    | .change _ => none
    | .service e => some e

variable {t : CharTables} {getByName : Str → Option Inet}

/-- Of the steps of `start` only those that build the tunnel can throw. -/
theorem not_fails_reading {p : Preferences} (h : Kept t getByName p) {c : Calls} {op : Op}
    (hestablishes : (c.reading p).establishes t op = true) : ¬ (c.reading p).Fails t op := by
  intro hfails
  cases op with
  | loadHosts =>
    obtain ⟨e, he⟩ := hfails
    obtain ⟨entries, hentries, -⟩ := (h.starts []).hosts
    cases hentries.symm.trans he
  | loadRedirectRule =>
    obtain ⟨e, he⟩ := hfails
    obtain ⟨rule, hrule, -⟩ := (h.starts []).redirectRule
    cases hrule.symm.trans he
  | getBuilder =>
    obtain ⟨e, he⟩ := hfails
    rw [Calls.establishes, he] at hestablishes
    cases hestablishes
  | startVpn =>
    rw [Calls.establishes, show (c.reading p).tun = none from hfails] at hestablishes
    cases hestablishes
  | _ => exact hfails

theorem lifeAfter_reading (p : Preferences) (past : List Event) (e : Event) :
    (lifeAfter past).next (e.reading p) = lifeAfter (past ++ [e]) := by
  rw [lifeAfter_snoc]
  cases e <;> rfl

/-- In every run of the app the settings are in order, and the service stands somewhere. -/
def App.Sound (t : CharTables) (getByName : Str → Option Inet) (past : List AppEvent) (a : App) : Prop :=
  Kept t getByName a.preferences ∧ a.system.StandsAt (lifeAfter (serviceEvents past))

theorem App.Sound.step {past : List AppEvent} {a : App} {e : AppEvent} (h : a.Sound t getByName past)
    (hallows : a.Allows t e) :
    ∃ a', a.step t getByName e = .ok a' ∧ a'.Sound t getByName (past ++ [e]) := by
  obtain ⟨hkept, hstands⟩ := h
  have hevents : serviceEvents (past ++ [e]) = serviceEvents past ++ serviceEvents [e] := List.filterMap_append
  unfold App.Sound
  rw [hevents]
  cases e with
  | change change =>
    refine ⟨_, rfl, hkept.store change, ?_⟩
    rw [show serviceEvents [.change change] = [] from rfl, List.append_nil]
    exact hstands
  | service e =>
    obtain ⟨hallowed, hestablishes⟩ := hallows
    have hreads : a.system.Allows (e.reading a.preferences) := by cases e <;> exact hallowed
    have hfails : ¬ a.system.Fails t (e.reading a.preferences) := by
      cases e with
      | main c | binder c =>
        rintro ⟨op, hop, hfails⟩
        exact not_fails_reading hkept ((Option.all_eq_true _ _).1 hestablishes op hop) hfails
      | onCreate | onStartCommand | onDestroy | onRevoke | tunnel => exact id
    obtain ⟨system, hstep, hnext⟩ := hstands.step (t := t) hreads
    refine ⟨{ a with system }, ?_, hkept, ?_⟩
    · simp only [App.step, hstep]
      rfl
    · have hnow := hnext.resolve_left fun hdied => hfails hdied.2
      rwa [lifeAfter_reading] at hnow

/-- In every run of the app, with the settings changed at any moment, the service does not throw as long as the
builder takes what it is given and the tunnel is established, and it serves. -/
theorem lives_run {t : CharTables} {getByName : Str → Option Inet} {events : List AppEvent}
    (h : EveryStep (stepOk (App.step t getByName)) (fun r e => OnOk (fun a => a.Allows t e) r) (.ok .init) events) :
    ∃ a, final (stepOk (App.step t getByName)) (.ok .init) events = .ok a ∧ a.system.service.died = false ∧
      a.system.Serves (lifeAfter (serviceEvents events)) ∧ ∀ dnsServers,
      Starts t getByName dnsServers a.preferences := by
  have hinit : App.init.Sound t getByName [] :=
    ⟨kept_installed t getByName, .inl ⟨rfl, .absent rfl ⟨rfl, rfl, rfl, rfl, rfl, rfl, rfl⟩⟩⟩
  obtain ⟨a, ha, hkept, hstands⟩ := final_returns (fun _ _ _ h hallows => App.Sound.step h hallows) hinit h
  exact ⟨a, ha, hstands.alive, hstands.serves, hkept.starts⟩

/-- The VPN is started, and started again while its thread runs. -/
def startedEvents : List Event :=
  [.onCreate, .main (.answering 1 (some 7)), .main (.answering 1 (some 7)), .onStartCommand .start] ++
    List.replicate 5 (.main (.answering 2 (some 7))) ++ List.replicate 4 (.main (.answering 2 (some 8))) ++
    [.tunnel .run, .tunnel .handle]

def startedAgain : List Event :=
  [.onStartCommand .start] ++ List.replicate 3 (.main (.answering 2 (some 8))) ++ [.tunnel .redirect]

/-- The settings are edited before the first start, and the rules between the two. -/
def editedRun : List AppEvent :=
  editedSettings.map .change ++ startedEvents.map .service ++ [.change (.redirectRule [])] ++ startedAgain.map .service

theorem lives_run_edited : lifeAfter (serviceEvents editedRun) = .running ∧
    ∃ a, final (stepOk (App.step .ascii fun s => some ⟨s = "0.0.0.0".toList, s = "127.0.0.1".toList⟩))
    (.ok .init) editedRun = .ok a ∧
      a.system.service.died = false ∧ a.system.Serves (lifeAfter (serviceEvents editedRun)) ∧
      ∀ dnsServers, Starts .ascii
      (fun s => some ⟨s = "0.0.0.0".toList, s = "127.0.0.1".toList⟩) dnsServers a.preferences :=
  ⟨rfl, lives_run (by decide +kernel)⟩

end SunProxy.Vpn
