/-
A session on its own: what the event loop does with it are the events of a machine that has only this
session and what was done for it; and each event of a TCP session is a chain of moves, so that what every
move keeps holds in every state of a run.
-/
import SunProxy.Net.TcpMoves

namespace SunProxy.Net

open SunProxy.Buffer SunProxy.Result SunProxy.Run SunProxy.Table

/-! ## The machine of a session -/

inductive SessionEvent where
  /-- A segment of the session's flow, with the data it carries. -/
  | segment (h : TcpHeader) (data : Bytes) (calls : TunCalls)
  | monitor (calls : MonitorCalls)
  | check (sessions now : Int)
  | socket (calls : SocketCalls)
  | checkAllowed
  | clear

/-- Sequence numbers have 32 bits, and `datalen` has 16. -/
def SessionEvent.WellFormed : SessionEvent → Prop
  | .segment h data _ => h.seq < 4294967296 ∧ data.length < 65536
  | _ => True

instance : DecidablePred SessionEvent.WellFormed
  | .segment .. => inferInstanceAs (Decidable (_ ∧ _))
  | .monitor _ | .check _ _ | .socket _ | .checkAllowed | .clear => isTrue trivial

/-- The session after a segment, which only a TCP session gets. -/
def NgSession.receive (s : NgSession) (h : TcpHeader) (data : Bytes) (calls : TunCalls) : NgSession × List Output :=
  match s.data with
  | .tcp t => (s.withTcp (segmentResult t s.socket h data calls).1, (segmentResult t s.socket h data calls).2)
  | _ => (s, [])

/-- Events of a socket are delivered while it is open. -/
def NgSession.step (args : Arguments) (s : NgSession) : SessionEvent → Except Fault (Option NgSession × List Output)
  | .segment h data calls => .ok (keep (s.receive h data calls))
  | .monitor calls => .ok (keep (monitorSession (fun _ => calls) s))
  | .check sessions now => .ok (checkSession sessions args.maxsessions now s)
  | .socket calls =>
    if 0 ≤ s.socket then do
      let r ← socketEvent args s calls
      return keep r
    else .ok (some s, [])
  | .checkAllowed => .ok (checkAllowed args s)
  | .clear => .ok (clearSession s)

/-- A run of the machine so far: the session, while it is in the table, and all that was done for it. -/
structure SessionTrace where
  session : Option NgSession
  outputs : List Output

def SessionTrace.step (args : Arguments) (t : SessionTrace) (e : SessionEvent) : Except Fault SessionTrace :=
  match t.session with
  | none => .ok t
  | some s => do
    let (s', os) ← s.step args e
    return ⟨s', t.outputs ++ os⟩

def sessionStates (args : Arguments) (s : NgSession) (events : List SessionEvent) : List (Except Fault SessionTrace) :=
  states (stepOk (SessionTrace.step args)) (.ok ⟨some s, []⟩) events

/-- A session right after a SYN has opened it. -/
def openedSession (id : Nat) (flow : Flow) (h : TcpHeader) (mss ws : Nat) (uid : Int) (data : Bytes) (calls : TunCalls)
    (window : Nat) (socket : Int) : NgSession where
  id := id
  data := .tcp { newTcpSession flow h mss ws uid data calls with recvWindow := window }
  socket := socket
  ev := ⟨false, true⟩

theorem fits_openedSession {id : Nat} {flow : Flow} {h : TcpHeader} {mss ws : Nat} {uid : Int} {data : Bytes}
    {calls : TunCalls} {window : Nat} {socket : Int} (hsocket : 0 ≤ socket) :
    (openedSession id flow h mss ws uid data calls window socket).Fits := by
  rw [NgSession.fits_tcp rfl]
  exact hsocket

/-! ## What is sent -/

/-- The session whose socket takes data, and the data. -/
def Output.send? : Output → Option (Nat × Bytes)
  | .send id data => some (id, data)
  | _ => none

def sends (os : List Output) : List (Nat × Bytes) := os.filterMap Output.send?

/-- The bytes the socket has taken, one after another. -/
def sentBytes (os : List Output) : Bytes := (sends os).flatMap (·.2)

@[simp] theorem sends_append (os os' : List Output) : sends (os ++ os') = sends os ++ sends os' :=
  List.filterMap_append

@[simp] theorem sentBytes_append (os os' : List Output) : sentBytes (os ++ os') = sentBytes os ++ sentBytes os' := by
  rw [sentBytes, sends_append, List.flatMap_append]
  rfl

@[simp] theorem sentBytes_nil : sentBytes [] = [] := rfl

@[simp] theorem sentBytes_send (id : Nat) (data : Bytes) : sentBytes [.send id data] = data := List.append_nil data

@[simp] theorem sentBytes_write (packet : Bytes) : sentBytes [.tunWrite packet] = [] := rfl

theorem sentBytes_other {o : Output} (h : o.IsOther) : sentBytes [o] = [] := by
  cases o with
  | send => cases h
  | tunWrite | close | resolved | usage => rfl

variable {args : Arguments} {s s' : NgSession} {t : TcpSession} {e : SessionEvent} {os : List Output}

theorem step_of_session {tr tr' : SessionTrace} (hs : tr.session = some s) (h : tr.step args e = .ok tr') :
    ∃ r, s.step args e = .ok r ∧ tr' = ⟨r.1, tr.outputs ++ r.2⟩ := by
  unfold SessionTrace.step at h
  rw [hs] at h
  obtain ⟨r, hr, h⟩ := bind_eq_ok h
  cases h
  exact ⟨r, hr, rfl⟩

theorem step_of_none {tr : SessionTrace} (hs : tr.session = none) : tr.step args e = .ok tr := by
  unfold SessionTrace.step
  rw [hs]

/-! ## Moves -/

/-- What is asked of an event of a TCP session. -/
def SessionEvent.Guarded (G : Guard) (t : TcpSession) : SessionEvent → Prop
  | .segment h data calls =>
    (t.TakesData data → G.queue (t.heard h calls.now) h data) ∧
      ((data ≠ [] → t.state.Receives) → ((t.heard h calls.now).queued h data).TakesFin h →
        G.fin ((t.heard h calls.now).queued h data) h data)
  | _ => True

theorem fits_step {r : Option NgSession × List Output} (hfits : s.Fits) (h : s.step args e = .ok r) :
    ∀ s', r.1 = some s' → s'.Fits := by
  cases e with
  -- a segment changes the state, all other events conserve the socket
  | segment header data calls =>
    cases h
    rintro _ ⟨⟩
    unfold NgSession.receive
    split
    · rename_i t hs
      rw [NgSession.fits_tcp rfl]
      exact fits_segmentResult ((NgSession.fits_tcp hs).1 hfits) s.socket header data calls
    · exact hfits
  | monitor calls =>
    cases h
    exact (conserves_monitorSession (fun _ => calls) hfits).fits
  | check sessions now =>
    cases h
    exact (conserves_checkSession hfits).fits
  | socket calls =>
    simp only [NgSession.step] at h
    split at h
    · rename_i hsocket
      obtain ⟨r', hr', h⟩ := bind_eq_ok h
      cases h
      exact (conserves_socketEvent hsocket hfits hr').fits
    · cases h
      rintro _ ⟨⟩
      exact hfits
  | checkAllowed =>
    cases h
    exact (conserves_checkAllowed hfits).fits
  | clear =>
    cases h
    exact conserves_clearSession.fits

theorem later_step {r : Option NgSession × List Output} (h : s.step args e = .ok r) :
    ∀ s', r.1 = some s' → s.Later s' := by
  intro s' hs'
  cases e with
  | segment header data calls =>
    cases h
    cases hs'
    unfold NgSession.receive
    split
    · rename_i t hs
      exact NgSession.later_withTcp hs (later_segmentResult t s.socket header data calls)
    · exact .refl s
  | monitor calls =>
    cases h
    cases hs'
    exact .monitorSession (fun _ => calls) s
  | check sessions now =>
    cases h
    exact .checkSession hs'
  | socket calls =>
    simp only [NgSession.step] at h
    split at h
    · obtain ⟨r', hr', h⟩ := bind_eq_ok h
      cases h
      cases hs'
      exact .socketEvent hr'
    · cases h
      cases hs'
      exact .refl s
  | checkAllowed =>
    cases h
    exact .checkAllowed hs'
  | clear =>
    cases h
    cases hs'

/-- An event of a TCP session is a chain of moves. -/
theorem moves_step {G : Guard} {r : Option NgSession × List Output} (hs : s.data = .tcp t) (hfits : s.Fits)
    (hid : G.id = s.id) (hguard : e.Guarded G t) (h : s.step args e = .ok r) :
    ∃ t', (∀ s', r.1 = some s' → s'.data = .tcp t') ∧ Moves G t r.2 t' := by
  cases e with
  -- a segment is guarded, all other events move as they like
  | segment header data calls =>
    cases h
    refine ⟨(segmentResult t s.socket header data calls).1, ?_, ?_⟩
    · rintro _ ⟨⟩
      simp only [NgSession.receive, hs]
      rfl
    · simp only [keep, NgSession.receive, hs]
      exact moves_segmentResult ((NgSession.fits_tcp hs).1 hfits) hguard.1 hguard.2
  | monitor calls =>
    cases h
    simp only [keep, monitorSession, hs]
    split
    · obtain ⟨t', ht', hmoves⟩ := moves_monitorTcpSession (G := G) s t calls
      exact ⟨t', by rintro _ ⟨⟩; exact ht', hmoves⟩
    · exact ⟨t, by rintro _ ⟨⟩; exact hs, .refl t⟩
  | check sessions now =>
    cases h
    simp only [checkSession, hs]
    exact moves_checkTcpSession s t sessions args.maxsessions now
  | socket calls =>
    simp only [NgSession.step] at h
    split at h
    · obtain ⟨r', hr', h⟩ := bind_eq_ok h
      cases h
      simp only [socketEvent, hs] at hr'
      obtain ⟨t', ht', hmoves⟩ := moves_checkTcpSocket hid hr'
      exact ⟨t', by rintro _ ⟨⟩; exact ht', hmoves⟩
    · cases h
      exact ⟨t, by rintro _ ⟨⟩; exact hs, .refl t⟩
  | checkAllowed =>
    cases h
    simp only [checkAllowed, hs]
    split
    · exact ⟨_, by rintro _ ⟨⟩; rfl, moves_writeRst t⟩
    · exact ⟨t, by rintro _ ⟨⟩; exact hs, .refl t⟩
  | clear =>
    cases h
    -- clearing only closes the socket
    refine ⟨t, by rintro _ ⟨⟩, moves_other fun o ho => ?_⟩
    unfold clearSession at ho
    dsimp only at ho
    split at ho
    · rw [List.mem_singleton.1 ho]
      trivial
    · cases ho

/-- `P` holds of the TCP session at `id` and all that was done for it; once it is removed, of what it was last. -/
def SessionTrace.Holds (id : Nat) (P : TcpSession → List Output → Prop) (tr : SessionTrace) : Prop :=
  ∃ t, P t tr.outputs ∧ ∀ s, tr.session = some s → s.data = .tcp t ∧ s.Fits ∧ s.id = id

def SessionTrace.Guarded (G : Guard) (tr : SessionTrace) (e : SessionEvent) : Prop :=
  ∀ s t, tr.session = some s → s.data = .tcp t → e.Guarded G t

/-- What every move keeps is kept by an event. -/
theorem SessionTrace.Holds.step {G : Guard} {P : TcpSession → List Output → Prop}
    (hmove : ∀ {t os t'} (before : List Output), P t before → Move G t os t' → P t' (before ++ os))
    {tr tr' : SessionTrace} (h : tr.Holds G.id P) (hguard : tr.Guarded G e) (hstep : tr.step args e = .ok tr') :
    tr'.Holds G.id P := by
  obtain ⟨t, hp, hsession⟩ := h
  cases hs : tr.session with
  | none =>
    rw [step_of_none hs] at hstep
    cases hstep
    exact ⟨t, hp, hsession⟩
  | some s =>
    obtain ⟨hdata, hfits, hid⟩ := hsession s hs
    obtain ⟨r, hr, rfl⟩ := step_of_session hs hstep
    obtain ⟨t', ht', hmoves⟩ := moves_step hdata hfits hid.symm (hguard s t hs hdata) hr
    have hkept : P t' (tr.outputs ++ r.2) := Chain.keeps (P := P) (fun before hp hm => hmove before hp hm) hmoves hp
    refine ⟨t', hkept, fun s' hs' => ⟨ht' s' hs', fits_step hfits hr s' hs', ?_⟩⟩
    have hentry : s'.id = s.id := congrArg Prod.fst (later_step hr s' hs').entry
    exact hentry.trans hid

/-- What every move keeps holds in every state of a run of guarded events. -/
theorem holds_sessionStates {G : Guard} {P : TcpSession → List Output → Prop}
    (hmove : ∀ {t os t'} (before : List Output), P t before → Move G t os t' → P t' (before ++ os))
    (hs : s.data = .tcp t) (hfits : s.Fits) (hid : s.id = G.id) (hp : P t []) {events : List SessionEvent}
    (hguard : EveryStep (stepOk (SessionTrace.step args)) (fun r e => OnOk (fun tr => tr.Guarded G e) r)
      (.ok ⟨some s, []⟩)
      events) : ∀ r ∈ sessionStates args s events, OnOk (fun tr => tr.Holds G.id P) r :=
  onOk_states (fun _ => True) (SessionTrace.Holds G.id P) (fun _ _ _ _ _ => trivial)
    (fun _ _ _ _ hp hguard hstep => hp.step hmove hguard hstep) trivial
    ⟨t, hp, fun s' hs' => by cases hs'; exact ⟨hs, hfits, hid⟩⟩ hguard

/-! ## A plain session -/

/-- The final state of a run with plain rules. -/
def plainRun (s : NgSession) (events : List SessionEvent) : Except Fault SessionTrace :=
  final (stepOk (SessionTrace.step (.plain [] _ compiled_redirectAll))) (.ok ⟨some s, []⟩) events

/-- A header without options. -/
def plainHeader (seq ackSeq : Nat) (fin syn ack : Bool) : TcpHeader :=
  ⟨seq, ackSeq, 5, fin, syn, false, false, ack, false, 65535⟩

/-- A socket that takes up to `n` bytes at a time, and has none. -/
def SocketCalls.taking (n : Nat) : SocketCalls where
  now := 0
  err := false
  input := false
  output := true
  recv := .error true
  send := fun _ => .sent n
  tunWrite := fun _ => true
  sendbuf := 0
  unsent := 0

/-- The session of a SYN with the number 100 and the data `data`. -/
def plainSession (data : Bytes) : NgSession :=
  openedSession 0 segmentFlow (plainHeader 100 0 false true false) 1460 0 10002 data .working 65535 3

/-- The events that establish it: the socket is connected, and the client acknowledges. -/
def handshake : List SessionEvent :=
  [.socket (.taking 0), .segment (plainHeader 101 1 false false true) [] .working]

/-- `GET` in two segments, the second one first and the first one twice; the socket takes one byte at a time. -/
def getEvents : List SessionEvent :=
  handshake ++ [.segment (plainHeader 102 1 false false true) [69, 84] .working,
    .segment (plainHeader 101 1 false false true) [71] .working,
      .segment (plainHeader 101 1 false false true) [71] .working,
    .socket (.taking 1)]

end SunProxy.Net
