/-
The event loop: its turns, with the checks of all sessions, the packets and socket events of a poll,
and what surrounds the loop, `check_allowed` and `clear`. A run is a list of such events; it has no
state after an undefined access.
-/
import SunProxy.Lib.Result
import SunProxy.Lib.Run
import SunProxy.Net.Ip

namespace SunProxy.Net

open SunProxy.Buffer SunProxy.Kotlin SunProxy.Result

/-! ## One turn of the loop -/

/-- Whether a session counts towards the limit. -/
def NgSession.isActive (s : NgSession) : Bool :=
  match s.data with
  | .icmp i => !i.stop
  | .udp u => u.state = .active
  | .tcp t => !t.isClosed

def Context.countActive (ctx : Context) : Int := ctx.sessions.countP NgSession.isActive

def monitorSession (calls : Nat → MonitorCalls) (s : NgSession) : NgSession × List Output :=
  match s.data with
  | .tcp t => if 0 ≤ s.socket then monitorTcpSession s t (calls s.id) else (s, [])
  | _ => (s, [])

def checkSession (sessions maxsessions now : Int) (s : NgSession) : Option NgSession × List Output :=
  match s.data with
  | .icmp i => checkIcmpSession s i sessions maxsessions now
  | .udp u => checkUdpSession s u sessions maxsessions now
  | .tcp t => checkTcpSession s t sessions maxsessions now

/-- `f` for each session in turn: the sessions it keeps and all that is done. -/
def eachSession (f : NgSession → Option NgSession × List Output) (sessions : List NgSession) :
    List NgSession × List Output :=
  (sessions.filterMap fun s => (f s).1, sessions.flatMap fun s => (f s).2)

/-- What the system answers in one turn of the loop before the poll; the session checks are made when
the last ones are long enough ago. -/
structure LoopCalls where
  due : Bool
  now : Int
  monitor : Nat → MonitorCalls

def keep (r : NgSession × List Output) : Option NgSession × List Output := (some r.1, r.2)

/-- The table after one turn. -/
def loopTurn (args : Arguments) (ctx : Context) (calls : LoopCalls) : Context × List Output :=
  let (monitored, acks) := eachSession (fun s => keep (monitorSession calls.monitor s)) ctx.sessions
  if calls.due then
    let (checked, outputs) := eachSession (checkSession ctx.countActive args.maxsessions calls.now) monitored
    ({ ctx with sessions := checked }, acks ++ outputs)
  else ({ ctx with sessions := monitored }, acks)

/-! ## Socket events -/

/-- A UDP socket is only read, and only without an error. -/
def socketEvent (args : Arguments) (s : NgSession) (calls : SocketCalls) : Except Fault (NgSession × List Output) :=
  match s.data with
  | .icmp i =>
    let (i, outputs) := checkIcmpSocket i calls
    .ok (s.withIcmp i, outputs)
  | .udp u =>
    if calls.err = false ∧ calls.input = true then do
      let (u, outputs) ← checkUdpSocket args u calls
      return (s.withUdp u, outputs)
    else .ok (s, [])
  | .tcp t => checkTcpSocket args s t calls

/-- The event of the socket of the session at `id`, which is delivered while the socket is open. -/
def handleSocket (args : Arguments) (ctx : Context) (id : Nat) (calls : SocketCalls) :
    Except Fault (Context × List Output) :=
  match ctx.sessions.find? (fun s => s.id = id && 0 ≤ s.socket) with
  | none => .ok (ctx, [])
  | some s => do
    let (s', outputs) ← socketEvent args s calls
    return (ctx.update id fun _ => s', outputs)

/-! ## Before and after the loop -/

/-- `create_packet` for a session, which sets no host name. -/
def sessionPacket (protocol : Nat) (saddr : Bytes) (sport : Nat) (daddr : Bytes) (dport : Nat)
    (uid : Int) : Packet where
  protocol := protocol
  saddr := inetNtop saddr
  sport := sport
  daddr := inetNtop daddr
  dport := dport
  uid := uid
  hostname := none
  tls := false

def flowPacket (protocol : Nat) (flow : Flow) (uid : Int) : Packet :=
  sessionPacket protocol flow.saddr flow.source flow.daddr flow.dest uid

/-- `check_allowed` for one session. -/
def checkAllowed (args : Arguments) (s : NgSession) : Option NgSession × List Output :=
  match s.data with
  | .icmp i =>
    let answer := args.jniIsAddressAllowed (sessionPacket IPPROTO_ICMP i.saddr 0 i.daddr 0 i.uid)
    if i.stop = false ∧ answer = none then (some (s.withIcmp { i with stop := true }), []) else (some s, [])
  | .udp u =>
    if u.state = .blocked then (none, [])
    else if u.state = .active ∧ args.jniIsAddressAllowed (flowPacket IPPROTO_UDP u.flow u.uid) = none then
      (some (s.withUdp (u.withState .finishing)), [])
    else (some s, [])
  | .tcp t =>
    if t.isClosed = false ∧ args.jniIsAddressAllowed (flowPacket IPPROTO_TCP t.flow t.uid) = none then
      let (t, rst) := writeRst t
      (some (s.withTcp t), [rst])
    else (some s, [])

/-- `clear` for one session. -/
def clearSession (s : NgSession) : Option NgSession × List Output :=
  (none, if 0 ≤ s.socket then [.close s.socket] else [])

/-! ## Runs -/

/-- The state between events: the table, and the number of active sessions of the last turn. -/
structure Engine where
  ctx : Context
  sessions : Int
deriving DecidableEq, Repr

inductive Event where
  | loop (calls : LoopCalls)
  /-- A packet read from the tun; `read` gets the `get_mtu()` bytes of the buffer. -/
  | tun (pkt : TunPacket) (calls : TunCalls)
  | socket (id : Nat) (calls : SocketCalls)
  | checkAllowed
  | clear

/-- A table that `f` goes through. -/
def Engine.sweep (e : Engine) (f : NgSession → Option NgSession × List Output) : Engine × List Action :=
  let (sessions, outputs) := eachSession f e.ctx.sessions
  ({ e with ctx := { e.ctx with sessions := sessions } }, outputs.map .output)

def Engine.step (args : Arguments) (e : Engine) : Event → Except Fault (Engine × List Action)
  | .loop calls =>
    let (ctx, outputs) := loopTurn args e.ctx calls
    .ok (⟨ctx, e.ctx.countActive⟩, outputs.map .output)
  | .tun pkt calls =>
    if pkt.length = 0 then .ok (e, [])
    else do
      let (ctx, actions) ← handleIp args e.ctx e.sessions (pkt.take getMtu) calls
      return ({ e with ctx := ctx }, actions)
  | .socket id calls => do
    let (ctx, outputs) ← handleSocket args e.ctx id calls
    return ({ e with ctx := ctx }, outputs.map .output)
  | .checkAllowed => .ok (e.sweep (checkAllowed args))
  | .clear => .ok (e.sweep clearSession)

/-- A run so far: the state, and the events with what was done at each, the last one first. -/
structure Trace where
  engine : Engine
  past : List (Event × List Action)

def Trace.init : Trace := ⟨⟨⟨[], 0⟩, 0⟩, []⟩

/-- One event more. -/
def Trace.step (args : Arguments) (t : Trace) (event : Event) : Except Fault Trace := do
  let (engine, actions) ← t.engine.step args event
  return ⟨engine, (event, actions) :: t.past⟩

/-- A run goes on after each event that is defined. -/
def runStates (args : Arguments) (events : List Event) : List (Except Fault Trace) :=
  Run.states (Run.stepOk (Trace.step args)) (.ok Trace.init) events

/-- The engine after some events, and what was done at each. -/
def Engine.run (args : Arguments) : Engine → List Event → Except Fault (Engine × List (List Action))
  | e, [] => .ok (e, [])
  | e, event :: events => do
    let (e, actions) ← e.step args event
    let (e, rest) ← e.run args events
    return (e, actions :: rest)

theorem final_of_run {args : Arguments} {e e' : Engine} {events : List Event} {acts : List (List Action)}
    (h : e.run args events = .ok (e', acts)) (past : List (Event × List Action)) :
    Run.final (Run.stepOk (Trace.step args)) (.ok ⟨e, past⟩) events = .ok ⟨e', (events.zip acts).reverse ++ past⟩ := by
  induction events generalizing e acts past with
  | nil => cases h; rfl
  | cons event events ih =>
    obtain ⟨⟨e₁, actions⟩, hstep, h⟩ := bind_eq_ok h
    obtain ⟨⟨e₂, rest⟩, hrun, h⟩ := bind_eq_ok h
    cases h
    have hnext : Run.stepOk (Trace.step args) (.ok ⟨e, past⟩) event = .ok ⟨e₁, (event, actions) :: past⟩ := by
      simp only [Run.stepOk, Trace.step, hstep, bind, Except.bind, pure, Except.pure]
    rw [Run.final, List.foldl_cons, hnext, ← Run.final, ih hrun]
    simp only [List.zip_cons_cons, List.reverse_cons, List.append_assoc, List.singleton_append]

/-! ## A plain system -/

/-- The rules of a program, over ASCII. -/
def rulesOf (codes : Str) : Redirect.RedirectRule :=
  match Redirect.compile .ascii codes with
  | .ok rules => rules
  | .error _ => ⟨[]⟩

/-- The `NewStringUTF` of an ASCII text. -/
def asciiString (b : Bytes) : Str := b.map fun x => Char.ofNat x.toNat

theorem asciiString_ascii (b : Bytes) (_ : ∀ x ∈ b, x.toNat < 128) :
    asciiString b = b.map fun x => Char.ofNat x.toNat :=
  rfl

/-- A run with a hosts list and rules, over ASCII. -/
def Arguments.plain (hosts : List HostsEntry) (codes : Str) (h : Redirect.compile .ascii codes = .ok (rulesOf codes)) :
    Arguments where
  tables := .ascii
  codes := codes
  rules := rulesOf codes
  compiled := h
  newStringUTF := asciiString
  newStringUTF_ascii := asciiString_ascii
  hosts := hosts
  myUid := 10001
  fwd53 := false
  rcode := 0
  maxsessions := 100

/-- Calls that all work, for a packet of the user 10002. -/
def TunCalls.working : TunCalls where
  now := 0
  uid := 10002
  sniUid := 10002
  rand := 0
  socket := 3
  protect := 0
  fcntl := true
  connect := true
  sendbuf := 0
  unsent := 0
  sendto := .sent
  tunWrite := true
  malloc := fun _ => 0

/-- A datagram with one byte from `10.1.10.1:1000` to `8.8.8.8` and the port `dport`. -/
def datagramTo (dport : UInt8) : Bytes :=
  [0x45, 0, 0, 29, 0, 0, 0, 0, 64, 17, 0, 0, 10, 1, 10, 1, 8, 8, 8, 8, 3, 232, 0, dport, 0, 9, 0, 0, 7]

def datagramPacket : IpPacket := ⟨4, 17, [10, 1, 10, 1], [8, 8, 8, 8], 20⟩

/-- A TCP segment with a header of 20 bytes from `10.1.10.1:1000` to `8.8.8.8:443`. -/
def segment (seq ackSeq : Nat) (flags : UInt8) (data : Bytes) : Bytes :=
  [0x45, 0] ++ be16 (40 + data.length) ++ [0, 0, 0, 0, 64, 6, 0, 0, 10, 1, 10, 1, 8, 8, 8, 8] ++ [3, 232, 1, 187] ++
    be32 seq ++ be32 ackSeq ++ [0x50, flags] ++ be16 65535 ++ [0, 0, 0, 0] ++ data

def segmentFlow : Flow := ⟨4, [10, 1, 10, 1], 1000, [8, 8, 8, 8], 443⟩

theorem compiled_redirectAll : Redirect.compile .ascii "1.2.3.4:5".toList = .ok (rulesOf "1.2.3.4:5".toList) := rfl

end SunProxy.Net
