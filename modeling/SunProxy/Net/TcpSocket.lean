/-
The checks the event loop makes of a TCP session: `check_tcp_session`, `monitor_tcp_session`, and
`check_tcp_socket` when its socket has an event.
-/
import SunProxy.Lib.Result
import SunProxy.Net.Tcp

namespace SunProxy.Net

open SunProxy.Buffer SunProxy.Result

/-! ## Session checks -/

def getTcpTimeout (state : TcpState) (sessions maxsessions : Int) : Int :=
  let timeout := match state with
    | .listen | .synRecv => TCP_INIT_TIMEOUT
    | .established => TCP_IDLE_TIMEOUT
    | _ => TCP_CLOSE_TIMEOUT
  scaledTimeout timeout sessions maxsessions

/-- The timeout of a session that is not closed. -/
def expireTcp (t : TcpSession) (sessions maxsessions now : Int) : TcpSession × List Output :=
  if !t.isClosed && t.time + getTcpTimeout t.state sessions maxsessions < now then
    if t.state = .listen then (t.withState .closing, [])
    else
      let (t, rst) := writeRst t
      (t, [rst])
  else (t, [])

/-- The end of a closing session, with what is closed. -/
def closeTcp (socket : Int) (t : TcpSession) (now : Int) : Int × TcpSession × List Output :=
  if t.state = .closing then
    (if 0 ≤ socket then -1 else socket, { t with time := now, state := .close },
      if 0 ≤ socket then [.close socket] else [])
  else (socket, t, [])

def accountTcp (t : TcpSession) : TcpSession × List Output :=
  if t.isClosed && (t.sent ≠ 0 || t.received ≠ 0) then
    ({ t with sent := 0, received := 0 }, [.usage t.flow IPPROTO_TCP t.uid t.sent t.received])
  else (t, [])

/-- `check_tcp_session`: the session, `none` when it is to be removed. -/
def checkTcpSession (s : NgSession) (t : TcpSession) (sessions maxsessions now : Int) :
    Option NgSession × List Output :=
  let (t, rst) := expireTcp t sessions maxsessions now
  let (socket, t, closed) := closeTcp s.socket t now
  let (t, usage) := accountTcp t
  if t.state = .close ∧ t.time + TCP_KEEP_TIMEOUT < now then (none, rst ++ closed ++ usage)
  else (some { s with data := .tcp t, socket := socket }, rst ++ closed ++ usage)

/-- What the system answers while one session is looked after before a poll. -/
structure MonitorCalls where
  /-- `get_ms()` -/
  ms : Int
  tunWrite : Bool
  epollMod : Bool
  sendbuf : Int
  unsent : Int

/-- The keep-alive that `monitor_tcp_session` sends while the send window is closed. -/
def keepAlive (t : TcpSession) (calls : MonitorCalls) : TcpSession × List Output :=
  if EPOLL_MIN_CHECK < calls.ms - t.lastKeepAlive then
    let (t, ack) := writeAck { t with lastKeepAlive := calls.ms, remoteSeq := sub32 t.remoteSeq 1 } calls.tunWrite
    ({ t with remoteSeq := u32 (t.remoteSeq + 1) }, [ack])
  else (t, [])

/-- Whether the head of the queue can be sent to the socket. -/
def canForward (t : TcpSession) (buffer : Nat) : List Segment → Bool
  | [] => false
  | seg :: _ => seg.seq = t.remoteSeq && sub32 seg.len seg.sent < buffer

/-- The events to wait for, and the session after the keep-alive this may take. -/
def monitorEvents (t : TcpSession) (socket : Int) (calls : MonitorCalls) : PollEvents × TcpSession × List Output :=
  match t.state with
  | .listen => (⟨t.socks5 = .connected, t.socks5 = .none⟩, t, [])
  | .established | .closeWait =>
    let output := canForward t (getReceiveBuffer socket calls.sendbuf calls.unsent) t.forward
    if 0 < getSendWindow t then (⟨true, output⟩, t, [])
    else
      let (t, ack) := keepAlive t calls
      (⟨false, output⟩, t, ack)
  | _ => (⟨false, false⟩, t, [])

/-- The session stays as it is, besides the keep-alive of one that sends while its window is closed. -/
theorem monitorEvents_cases (t : TcpSession) (socket : Int) (calls : MonitorCalls) :
    (monitorEvents t socket calls).2 = (t, []) ∨
      (t.state = .established ∨ t.state = .closeWait) ∧ (monitorEvents t socket calls).2 = keepAlive t calls := by
  unfold monitorEvents
  split
  · exact .inl rfl
  · rename_i hs
    dsimp only
    split
    · exact .inl rfl
    · exact .inr ⟨.inl hs, rfl⟩
  · rename_i hs
    dsimp only
    split
    · exact .inl rfl
    · exact .inr ⟨.inr hs, rfl⟩
  · exact .inl rfl

/-- `monitor_tcp_session` -/
def monitorTcpSession (s : NgSession) (t : TcpSession) (calls : MonitorCalls) : NgSession × List Output :=
  let (ev, t, ack) := monitorEvents t s.socket calls
  let t := if ev ≠ s.ev ∧ calls.epollMod = false then t.withState .closing else t
  ({ s with data := .tcp t, ev := ev }, ack)

/-! ## Socket events -/

/-- The part of `check_tcp_socket` for a socket that is connecting. Once connected, the SYN of the
client is answered. -/
def connectTcp (t : TcpSession) (calls : SocketCalls) : TcpSession × List Output :=
  if t.socks5 = .connected ∧ calls.input = true then
    let (t, rst) := writeRst { t with socks5 := .none }
    (t, [rst])
  else if t.socks5 = .connected ∨ calls.output = true then
    let (t, synAck) := writeSynAck { t with socks5 := .connected, remoteSeq := u32 (t.remoteSeq + 1) }
      (calls.tunWrite 0)
    (if calls.tunWrite 0 then { t with time := calls.now, localSeq := u32 (t.localSeq + 1), state := .synRecv } else t,
      [synAck])
  else (t, [])

/-- The forwarding loop, on the queue, from the send numbered `k` on and with `buffer` bytes of room:
whether it sent, the session and what was sent. -/
def forwardLoop (id : Nat) (calls : SocketCalls) :
    List Segment → Nat → Nat → TcpSession → Bool × TcpSession × List Output
  | [], _, _, t => (false, { t with forward := [] }, [])
  | seg :: rest, k, buffer, t =>
    let t := { t with forward := seg :: rest }
    if canForward t buffer (seg :: rest) then
      match calls.send k with
      | .error true => (false, t, [])
      | .error false =>
        let (t, rst) := writeRst t
        (false, t, [rst])
      | .sent n =>
        let n := min n (seg.len - seg.sent)
        let sent := (seg.sent + n) % 65536
        let output := .send id ((seg.data.drop seg.sent).take n)
        let t := { t with sent := t.sent + n }
        if seg.len = sent then
          let (_, t, outputs) :=
            forwardLoop id calls rest (k + 1) (sub32 buffer n) { t with remoteSeq := u32 (seg.seq + sent) }
          (true, t, output :: outputs)
        else (true, { t with forward := { seg with sent := sent } :: rest }, [output])
    else (false, t, [])

/-- What holds of the rounds of the loop, by the way a round ends, holds of the loop. -/
theorem forwardLoop_induction {Q : TcpSession → TcpSession → List Output → Prop} {id : Nat} {calls : SocketCalls}
    (stop : ∀ t queue, Q t { t with forward := queue } [])
    (reset : ∀ t queue, Q t (writeRst { t with forward := queue }).1 [(writeRst { t with forward := queue }).2])
    (all : ∀ t queue n remoteSeq bytes t' os,
      Q { t with forward := queue, sent := t.sent + n, remoteSeq := remoteSeq } t' os →
      Q t t' (.send id bytes :: os))
    (part : ∀ t queue n bytes, Q t { t with forward := queue, sent := t.sent + n } [.send id bytes])
    (segments : List Segment) (k buffer : Nat) (t : TcpSession) :
    Q t (forwardLoop id calls segments k buffer t).2.1 (forwardLoop id calls segments k buffer t).2.2 := by
  induction segments generalizing k buffer t with
  | nil => exact stop t []
  | cons seg rest ih =>
    unfold forwardLoop
    dsimp only
    split
    · split
      · exact stop t _
      · exact reset t _
      · split
        · apply all
          exact ih _ _ _
        · exact part t _ _ _
    · exact stop t _

/-- The acknowledgment of what was forwarded, with the receive window there is then. -/
def ackForwarded (t : TcpSession) (socket : Int) (fwd : Bool) (calls : SocketCalls) : TcpSession × List Output :=
  let window := getReceiveWindow t socket calls.sendbuf calls.unsent
  let opened := t.recvWindow = 0 && 0 < window
  let t := { t with recvWindow := window }
  if fwd || opened then
    let t := if fwd && (t.forward.isEmpty && t.state = .closeWait) then { t with remoteSeq := u32 (t.remoteSeq + 1) }
      else t
    let (t, ack) := writeAck t (calls.tunWrite 0)
    (if calls.tunWrite 0 then { t with time := calls.now } else t, [ack])
  else (t, [])

/-- The end of the socket's stream. -/
def finishTcp (t : TcpSession) (calls : SocketCalls) : TcpSession × List Output :=
  if t.forward = [] then
    let (t, fin) := writeFinAck t (calls.tunWrite 1)
    let t := if calls.tunWrite 1 then { t with localSeq := u32 (t.localSeq + 1) } else t
    (match t.state with
      | .established => t.withState .finWait1
      | .closeWait => t.withState .lastAck
      | _ => t, [fin])
  else
    let (t, rst) := writeRst t
    (t, [rst])

/-- What is done with the bytes of a `recv`: over port 53 the message after its length is parsed. -/
def processTcpDns (args : Arguments) (flow : Flow) (bytes : Bytes) : Except Fault DnsReply :=
  if flow.dest = 53 ∧ 2 < bytes.length then parseDnsResponse (dnsArgs args) (bytes.drop 2)
  else .ok (.unchanged [] (bytes.drop 2))

/-- The data on its way to the tun has the bytes that were read. -/
theorem length_processTcpDns {args : Arguments} {flow : Flow} {bytes : Bytes} {reply : DnsReply}
    (h : processTcpDns args flow bytes = .ok reply) : (bytes.take 2 ++ reply.data).length = bytes.length := by
  have hrest : reply.data.length = bytes.length - 2 := by
    unfold processTcpDns at h
    split at h
    · rw [length_parseDnsResponse h, List.length_drop]
    · cases h
      exact List.length_drop
  rw [List.length_append, List.length_take, hrest]
  omega

/-- The bytes of a `recv` on their way to the tun. -/
def receiveTcp (args : Arguments) (t : TcpSession) (bytes : Bytes) (calls : SocketCalls) :
    Except Fault (TcpSession × List Output) := do
  let t := { t with received := t.received + bytes.length }
  let reply ← processTcpDns args t.flow bytes
  let bytes := bytes.take 2 ++ reply.data
  let (t, data) := writeData t bytes (calls.tunWrite 1)
  let t := if calls.tunWrite 1 then
      { t with localSeq := u32 (t.localSeq + bytes.length), unconfirmed := (t.unconfirmed + 1) % 65536 }
    else t
  return (t, reply.resolved.map .resolved ++ [data])

/-- The read of `check_tcp_socket`: the socket, the session and what is done. -/
def readTcp (args : Arguments) (t : TcpSession) (socket : Int) (calls : SocketCalls) :
    Except Fault (Int × TcpSession × List Output) :=
  let sendWindow := getSendWindow t
  if (t.state = .established ∨ t.state = .closeWait) ∧ calls.input = true ∧ 0 < sendWindow then
    let t := { t with time := calls.now }
    match calls.recv with
    | .error true => .ok (socket, t, [])
    | .error false =>
      let (t, rst) := writeRst t
      .ok (socket, t, [rst])
    | .data bytes =>
      -- no more than it asks for, and with an MSS of 0 it asks for nothing
      let bytes := bytes.take (min sendWindow t.mss)
      if bytes = [] then
        let (t, outputs) := finishTcp t calls
        .ok (-1, t, outputs ++ [.close socket])
      else do
        let (t, outputs) ← receiveTcp args t bytes calls
        return (socket, t, outputs)
  else .ok (socket, t, [])

/-- `check_tcp_socket` -/
def checkTcpSocket (args : Arguments) (s : NgSession) (t : TcpSession) (calls : SocketCalls) :
    Except Fault (NgSession × List Output) :=
  if calls.err then
    let (t, rst) := writeRst { t with time := calls.now }
    .ok (s.withTcp t, [rst])
  else if t.state = .listen then
    let (t, outputs) := connectTcp t calls
    .ok (s.withTcp t, outputs)
  else do
    let (fwd, t, sent) := if calls.output then
        forwardLoop s.id calls t.forward 0 (getReceiveBuffer s.socket calls.sendbuf calls.unsent) t
      else (false, t, [])
    let (t, acks) := ackForwarded t s.socket fwd calls
    let (socket, t, outputs) ← readTcp args t s.socket calls
    return ({ s with data := .tcp t, socket := socket }, sent ++ acks ++ outputs)

/-- The forwarding part of `check_tcp_socket`. -/
def forwardTcp (id : Nat) (socket : Int) (t : TcpSession) (calls : SocketCalls) : Bool × TcpSession × List Output :=
  if calls.output then forwardLoop id calls t.forward 0 (getReceiveBuffer socket calls.sendbuf calls.unsent) t
  else (false, t, [])

/-- The ways `check_tcp_socket` ends. -/
inductive CheckedTcp (args : Arguments) (s : NgSession) (t : TcpSession) (calls : SocketCalls) :
    NgSession × List Output → Prop
  | failed (err : calls.err = true) : CheckedTcp args s t calls
      (s.withTcp (writeRst { t with time := calls.now }).1, [(writeRst { t with time := calls.now }).2])
  | connecting (err : calls.err = false) (listen : t.state = .listen) :
      CheckedTcp args s t calls (s.withTcp (connectTcp t calls).1, (connectTcp t calls).2)
  | transfer {fwd : Bool} {t₁ : TcpSession} {sent : List Output} {r : Int × TcpSession × List Output}
      (err : calls.err = false) (listen : t.state ≠ .listen)
      (forwarded : forwardTcp s.id s.socket t calls = (fwd, t₁, sent))
      (reads : readTcp args (ackForwarded t₁ s.socket fwd calls).1 s.socket calls = .ok r) : CheckedTcp args s t calls
      ({ s with data := .tcp r.2.1, socket := r.1 }, sent ++ (ackForwarded t₁ s.socket fwd calls).2 ++ r.2.2)

theorem checkTcpSocket_cases {args : Arguments} {s : NgSession} {t : TcpSession} {calls : SocketCalls}
    {r : NgSession × List Output} (h : checkTcpSocket args s t calls = .ok r) : CheckedTcp args s t calls r := by
  unfold checkTcpSocket at h
  split at h
  · rename_i err
    cases h
    exact .failed err
  · rename_i err
    have err : calls.err = false := by simpa using err
    split at h
    · rename_i listen
      cases h
      exact .connecting err listen
    · rename_i listen
      obtain ⟨r', reads, h⟩ := bind_eq_ok h
      have hr : r = ({ s with data := .tcp r'.2.1, socket := r'.1 }, (forwardTcp s.id s.socket t calls).2.2 ++
          (ackForwarded (forwardTcp s.id s.socket t calls).2.1 s.socket (forwardTcp s.id s.socket t calls).1 calls).2 ++
          r'.2.2) := (Except.ok.inj h).symm
      rw [hr]
      exact .transfer err listen rfl reads

end SunProxy.Net
