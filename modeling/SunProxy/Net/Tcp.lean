/-
TCP sessions: the packets written to the tun, `handle_tcp` on a packet from the tun, and the checks
of a session and of its socket. Sequence numbers and windows wrap at 32 bits.
-/
import SunProxy.Net.Header
import SunProxy.Net.Udp

namespace SunProxy.Net

open SunProxy.Buffer

def TCP_INIT_TIMEOUT : Int := 20
def TCP_IDLE_TIMEOUT : Int := 3600
def TCP_CLOSE_TIMEOUT : Int := 20
def TCP_KEEP_TIMEOUT : Int := 300
def SEND_BUF_DEFAULT : Int := 163840
def EPOLL_MIN_CHECK : Int := 100

def u32 (n : Nat) : Nat := n % 4294967296

/-- `a - b` of 32-bit numbers. -/
def sub32 (a b : Nat) : Nat := (a + 4294967296 - b) % 4294967296

def compareU32 (s1 s2 : Nat) : Int :=
  if s1 = s2 then 0
  else if (s1 < s2 && s2 - s1 < 0x7FFFFFFF) || (s2 < s1 && 0x7FFFFFFF < s1 - s2) then -1
  else 1

def TcpSession.withState (s : TcpSession) (state : TcpState) : TcpSession := { s with state := state }

def NgSession.withTcp (s : NgSession) (t : TcpSession) : NgSession := { s with data := .tcp t }

/-- `TCP_CLOSING` and `TCP_CLOSE` -/
def TcpSession.isClosed (s : TcpSession) : Bool := s.state = .closing || s.state = .close

/-! ## Writing to the tun -/

/-- `write_syn_ack`, `write_ack`, `write_data` and `write_fin_ack`: a failed write closes the session. -/
def writeOrClose (s : TcpSession) (data : Bytes) (flags : TcpFlags) (ok : Bool) : TcpSession × Output :=
  (if ok then s else s.withState .closing, .tunWrite (tcpPacket s data flags))

def writeSynAck (s : TcpSession) (ok : Bool) : TcpSession × Output := writeOrClose s [] ⟨true, true, false, false⟩ ok

def writeAck (s : TcpSession) (ok : Bool) : TcpSession × Output := writeOrClose s [] ⟨false, true, false, false⟩ ok

def writeData (s : TcpSession) (data : Bytes) (ok : Bool) : TcpSession × Output :=
  writeOrClose s data ⟨false, true, false, false⟩ ok

def writeFinAck (s : TcpSession) (ok : Bool) : TcpSession × Output := writeOrClose s [] ⟨false, true, true, false⟩ ok

/-- `write_rst` -/
def writeRst (s : TcpSession) : TcpSession × Output :=
  let listen := s.state = .listen
  let s := if listen then { s with remoteSeq := u32 (s.remoteSeq + 1) } else s
  (if s.state = .close then s else s.withState .closing, .tunWrite (tcpPacket s [] ⟨false, listen, false, true⟩))

theorem mss_writeRst (s : TcpSession) : (writeRst s).1.mss = s.mss := by
  unfold writeRst
  dsimp only
  split <;> split <;> rfl

/-- A session that is reset is closed. -/
theorem isClosed_writeRst (s : TcpSession) : (writeRst s).1.isClosed = true := by
  unfold writeRst
  dsimp only
  split
  all_goals
    split
    · rename_i h
      exact Bool.or_eq_true_iff.2 (.inr (decide_eq_true h))
    · rfl

/-! ## Windows -/

def getSendWindow (s : TcpSession) : Nat :=
  let behind := if s.acked ≤ s.localSeq then s.localSeq - s.acked else sub32 (0x10000 + s.localSeq) s.acked
  let behind := u32 (behind + (s.unconfirmed + 1) * 40)
  if behind < s.sendWindow then s.sendWindow - behind else 0

/-- `get_receive_buffer`, with what `getsockopt` and `ioctl` give. -/
def getReceiveBuffer (socket sendbuf unsent : Int) : Nat :=
  if socket < 0 then 0
  else
    let sendbuf := if sendbuf = 0 then SEND_BUF_DEFAULT else sendbuf
    if unsent < sendbuf then ((sendbuf - unsent) % 4294967296).toNat else 0

def getReceiveWindow (s : TcpSession) (socket sendbuf unsent : Int) : Nat :=
  let toforward := s.forward.foldl (fun sum q => ((sum + (q.len - q.sent)) % 4294967296 : Int)) 0
  let window := min (getReceiveBuffer socket sendbuf unsent) (u32 (0xFFFF <<< s.recvScale))
  if toforward.toNat < window then window - toforward.toNat else 0

/-! ## Packets from the tun -/

/-- The loop over the options of a SYN, `optlen` bytes from `options` on. An option that is taken has
a length, so that `optlen` rounds are enough; one of length zero makes the loop go round for ever. -/
def synOptions (pkt : Bytes) : Nat → Int → Nat → Nat → Nat → Except Fault (Nat × Nat)
  | 0, optlen, _, mss, ws => if optlen ≤ 0 then .ok (mss, ws) else .error .hang
  | fuel + 1, optlen, options, mss, ws =>
    if optlen ≤ 0 then .ok (mss, ws)
    else do
      let kind ← load pkt options
      let len ← load pkt (options + 1)
      if kind = 0 then return (mss, ws)
      if kind = 1 then synOptions pkt fuel (optlen - 1) (options + 1) mss ws
      else if kind = 2 ∧ len = 4 then
        let mss ← loadBe16 pkt (options + 2)
        synOptions pkt fuel (optlen - 4) (options + 4) mss ws
      else if kind = 3 ∧ len = 3 then
        let ws ← load pkt (options + 2)
        synOptions pkt fuel (optlen - 3) (options + 3) mss ws.toNat
      else synOptions pkt fuel (optlen - len.toNat) (options + len.toNat) mss ws

/-- `open_tcp_socket` for the session at `id`; without a SOCKS5 server the address is the redirect
server's or the flow's own. -/
def openTcpSocket (id : Nat) (flow : Flow) (redirect : Option Allowed) (calls : TunCalls) :
    Option Int × List Action :=
  match openProtected calls with
  | (none, opened) => (none, opened)
  | (some socket, opened) =>
    if calls.fcntl = false then (none, opened)
    else (if calls.connect then some socket else none, opened ++ [.connect id (target flow redirect)])

/-- The session for a SYN, with the data it carries queued. -/
def newTcpSession (flow : Flow) (h : TcpHeader) (mss ws : Nat) (uid : Int) (data : Bytes) (calls : TunCalls) :
    TcpSession where
  uid := uid
  time := calls.now
  mss := mss
  recvScale := ws
  sendScale := ws
  recvWindow := 0
  sendWindow := u32 (h.window <<< ws)
  unconfirmed := 0
  remoteSeq := h.seq
  localSeq := u32 calls.rand
  remoteStart := h.seq
  localStart := u32 calls.rand
  acked := 0
  lastKeepAlive := 0
  sent := 0
  received := 0
  flow := flow
  state := .listen
  socks5 := .none
  forward := if data = [] then [] else [⟨h.seq, data.length, 0, h.psh, data⟩]

/-- The data of a segment. The buffer has to have them when they are copied; else they are not looked
at, and what would lie behind the buffer counts as zeros. -/
def readData (pkt : TunPacket) (data datalen : Nat) (copied : Bool) : Except Fault Bytes :=
  if copied then loadBytes pkt.buffer data datalen
  else .ok ((pkt.buffer.drop data ++ List.replicate datalen 0).take datalen)

/-- The part of `handle_tcp` for a SYN of a flow without a session. -/
def createTcp (ctx : Context) (pkt : TunPacket) (payload : Nat) (flow : Flow) (h : TcpHeader) (uid : Int)
    (allowed : Bool) (redirect : Option Allowed) (calls : TunCalls) : Except Fault (Context × List Action) := do
  let optlen := optionLength h.doff
  let (mss, ws) ← synOptions pkt.buffer optlen optlen (payload + 20) (getDefaultMss flow.version) 0
  let start := tcpData payload h.doff
  let datalen := tcpDatalen pkt start
  let data ← readData pkt start datalen (datalen ≠ 0)
  let s := newTcpSession flow h mss ws uid data calls
  match openTcpSocket ctx.next flow redirect calls with
  | (none, opened) => return (ctx.discard, opened)
  | (some socket, opened) =>
    let s := { s with recvWindow := getReceiveWindow s socket calls.sendbuf calls.unsent }
    if allowed then return (ctx.insert (.tcp s) socket ⟨false, true⟩, opened)
    else
      let (s, rst) := writeRst s
      return (ctx.insert (.tcp s) socket ⟨false, true⟩, opened ++ [.output rst])

/-- The reset that answers a segment of a flow without a session. -/
def unknownReset (flow : Flow) (h : TcpHeader) (datalen : Nat) : Output :=
  let rst : TcpSession :=
    { uid := 0, time := 0, mss := 0, recvScale := 0, sendScale := 0, recvWindow := 0, sendWindow := 0, unconfirmed := 0
      remoteSeq := u32 (h.seq + datalen + (if h.syn || h.fin then 1 else 0)), localSeq := h.ackSeq, remoteStart := 0
      localStart := 0, acked := 0, lastKeepAlive := 0, sent := 0, received := 0, flow := flow, state := .closing
      socks5 := .none, forward := [] }
  (writeRst rst).2

/-- The queue with a segment put in its place: `queue_tcp` for data that is not forwarded yet. A
segment that starts where a queued one does replaces it when the lengths differ. -/
def queueSegment (seg : Segment) : List Segment → List Segment
  | [] => [seg]
  | s :: rest =>
    if compareU32 s.seq seg.seq < 0 then s :: queueSegment seg rest
    else if 0 < compareU32 s.seq seg.seq then seg :: s :: rest
    else if s.len = seg.len then s :: rest
    else { s with len := seg.len, data := seg.data } :: rest

/-- `queue_tcp` -/
def queueTcp (s : TcpSession) (h : TcpHeader) (data : Bytes) : TcpSession :=
  if compareU32 h.seq s.remoteSeq < 0 then s
  else { s with forward := queueSegment ⟨h.seq, data.length, 0, h.psh, data⟩ s.forward }

/-- Whether a segment is copied to its place in the queue. -/
def copiesSegment (seq len : Nat) : List Segment → Bool
  | [] => true
  | s :: rest =>
    if compareU32 s.seq seq < 0 then copiesSegment seq len rest
    else if 0 < compareU32 s.seq seq then true
    else s.len ≠ len

/-- Whether `handle_tcp` copies the data of a segment of the session. -/
def copiesData (s : TcpSession) (socket : Int) (h : TcpHeader) (datalen : Nat) : Bool :=
  !s.isClosed && (datalen ≠ 0 && (0 ≤ socket && (s.state ≠ .closeWait &&
    (0 ≤ compareU32 h.seq s.remoteSeq && copiesSegment h.seq datalen s.forward))))

/-- The part of `handle_tcp` for a FIN that acknowledges what was sent. -/
def handleFin (s : TcpSession) (calls : TunCalls) : TcpSession × List Output :=
  match s.state with
  | .established =>
    if s.forward = [] then
      let (s, ack) := writeAck { s with remoteSeq := u32 (s.remoteSeq + 1) } calls.tunWrite
      (if calls.tunWrite then s.withState .closeWait else s, [ack])
    else (s.withState .closeWait, [])
  | .finWait1 =>
    let (s, ack) := writeAck { s with remoteSeq := u32 (s.remoteSeq + 1) } calls.tunWrite
    (if calls.tunWrite then s.withState .close else s, [ack])
  | _ => (s, [])

/-- The part of `handle_tcp` for an acknowledgment of what was sent. -/
def handleAck (s : TcpSession) (h : TcpHeader) : TcpSession :=
  let s := { s with acked := h.ackSeq }
  match s.state with
  | .synRecv => s.withState .established
  | .lastAck => s.withState .closing
  | _ => s

/-- The part of `handle_tcp` for an acknowledgment of something else than what was sent. -/
def handleOtherAck (s : TcpSession) (h : TcpHeader) : TcpSession × List Output :=
  if u32 (h.ackSeq + 1) = s.localSeq then (s, [])
  else if compareU32 h.ackSeq s.localSeq < 0 then
    (if compareU32 h.ackSeq s.acked ≤ 0 then s else { s with acked := h.ackSeq }, [])
  else
    let (s, rst) := writeRst s
    (s, [rst])

/-- The conditions of `handle_tcp` after its data is queued. -/
def handleFlags (s : TcpSession) (h : TcpHeader) (calls : TunCalls) : TcpSession × List Output :=
  if h.rst then (s.withState .closing, [])
  else if h.ack = false ∨ h.ackSeq = s.localSeq then
    if h.syn then (s, [])
    else if h.fin then handleFin s calls
    else if h.ack then (handleAck s h, [])
    else (s, [])
  else handleOtherAck s h

/-- The part of `handle_tcp` for a session that is not closed. -/
def handleTcpSession (s : TcpSession) (socket : Int) (h : TcpHeader) (data : Bytes) (calls : TunCalls) :
    TcpSession × List Output :=
  let s := if h.syn then s else { s with time := calls.now }
  let s := { s with sendWindow := u32 (h.window <<< s.sendScale), unconfirmed := 0 }
  if data ≠ [] ∧ (socket < 0 ∨ s.state = .closeWait) then
    let (s, rst) := writeRst s
    (s, [rst])
  else handleFlags (if data = [] then s else queueTcp s h data) h calls

/-- A session after it heard from its client. -/
def TcpSession.heard (s : TcpSession) (h : TcpHeader) (now : Int) : TcpSession :=
  { s with time := if h.syn then s.time else now, sendWindow := u32 (h.window <<< s.sendScale), unconfirmed := 0 }

section Heard

variable (s : TcpSession) (h : TcpHeader) (now : Int)

@[simp] theorem heard_state : (s.heard h now).state = s.state := rfl
@[simp] theorem heard_forward : (s.heard h now).forward = s.forward := rfl
@[simp] theorem heard_remoteSeq : (s.heard h now).remoteSeq = s.remoteSeq := rfl
@[simp] theorem heard_localSeq : (s.heard h now).localSeq = s.localSeq := rfl
@[simp] theorem heard_flow : (s.heard h now).flow = s.flow := rfl

end Heard

/-- What `handle_tcp` does with a segment: it resets a session that takes no more data, and else queues
the data and goes on with the flags. -/
theorem handleTcpSession_eq (s : TcpSession) (socket : Int) (h : TcpHeader) (data : Bytes) (calls : TunCalls) :
    handleTcpSession s socket h data calls =
      if data ≠ [] ∧ (socket < 0 ∨ s.state = .closeWait) then
        ((writeRst (s.heard h calls.now)).1, [(writeRst (s.heard h calls.now)).2])
      else handleFlags (if data = [] then s.heard h calls.now else queueTcp (s.heard h calls.now) h data) h calls := by
  cases hs : h.syn with
  | false =>
    simp only [handleTcpSession, TcpSession.heard, hs, Bool.false_eq_true, if_false]
  | true =>
    simp only [handleTcpSession, TcpSession.heard, hs, if_true]

/-- `handle_tcp` -/
def handleTcp (ctx : Context) (pkt : TunPacket) (payload : Nat) (flow : Flow) (uid : Int) (allowed : Bool)
    (redirect : Option Allowed) (calls : TunCalls) : Except Fault (Context × List Action) := do
  let h ← readTcpHeader pkt payload
  let start := tcpData payload h.doff
  let datalen := tcpDatalen pkt start
  if h.urg then return (ctx, [])
  match ctx.findTcp flow with
  | none =>
    if h.syn then createTcp ctx pkt payload flow h uid allowed redirect calls
    else return (ctx, [.output (unknownReset flow h datalen)])
  | some (s, t) =>
    let data ← readData pkt start datalen (copiesData t s.socket h datalen)
    let (t, outputs) :=
      if t.isClosed then
        let (t, rst) := writeRst t
        (t, [rst])
      else handleTcpSession t s.socket h data calls
    return (ctx.update s.id (·.withTcp t), outputs.map .output)

end SunProxy.Net
