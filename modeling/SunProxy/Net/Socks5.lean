/-
The negotiation with a SOCKS5 server, which `check_tcp_socket` goes through before it answers the SYN of a client
when `jni_socks5` has set one; with none set it is the connecting of the engine.
-/
import SunProxy.Lib.Reader
import SunProxy.Net.SessionRun
import SunProxy.Net.TcpWire

namespace SunProxy.Net

open SunProxy.Buffer SunProxy.Reader

/-- The values of the `socks5` field. -/
inductive Negotiation where
  | none
  | hello
  | auth
  | connect
  | connected
deriving DecidableEq, Repr

/-- What `jni_socks5` sets besides the address of the server; its buffers hold texts of at most 127 bytes. -/
structure Proxy where
  username : Bytes
  password : Bytes
  username_le : username.length ≤ 127
  password_le : password.length ≤ 127

/-! ## Messages -/

def helloMessage : Bytes := [5, 2, 0, 2]

def authMessage (proxy : Proxy) : Bytes :=
  1 :: UInt8.ofNat proxy.username.length :: (proxy.username ++ UInt8.ofNat proxy.password.length :: proxy.password)

def connectMessage (flow : Flow) : Bytes :=
  5 :: 1 :: 0 :: (if flow.version = 4 then 1 else 4) :: (flow.daddr ++ be16 flow.dest)

/-- What the server is sent in a phase. -/
def Negotiation.message (proxy : Proxy) (flow : Flow) : Negotiation → Bytes
  | .hello => helloMessage
  | .auth => authMessage proxy
  | .connect => connectMessage flow
  | .none | .connected => []

/-- What an answer of the server makes of the negotiation; `none` resets the session. -/
def handleReply (version : Nat) (phase : Negotiation) (bytes : Bytes) : Option Negotiation :=
  match phase, bytes with
  | .hello, [v, code] =>
    if v = 5 then if code = 0 then some .connect else if code = 2 then some .auth else none
    else none
  | .auth, [v, code] => if (v = 1 ∨ v = 5) ∧ code = 0 then some .connect else none
  | .connect, v :: code :: _ =>
    if bytes.length = 6 + (if version = 4 then 4 else 16) ∧ v = 5 ∧ code = 0 then some .connected else none
  | _, _ => none

/-! ## The client -/

/-- A `send` to the server: a part of the message that is not taken is not sent again. -/
def transmit (id : Nat) (t : TcpSession) (message : Bytes) (calls : SocketCalls) : TcpSession × List Output :=
  match calls.send 0 with
  | .error _ =>
    let (t, rst) := writeRst t
    (t, [rst])
  | .sent n => (t, [.send id (message.take n)])

/-- What is said in a phase: to the server, or to the client when the server has connected. -/
def negotiate (proxy : Proxy) (id : Nat) (phase : Negotiation) (t : TcpSession) (calls : SocketCalls) :
    TcpSession × List Output :=
  match phase with
  | .none => (t, [])
  | .connected =>
    let (t, synAck) := writeSynAck { t with remoteSeq := u32 (t.remoteSeq + 1) } (calls.tunWrite 0)
    (if calls.tunWrite 0 then { t with time := calls.now, localSeq := u32 (t.localSeq + 1), state := .synRecv } else t,
      [synAck])
  | phase => transmit id t (phase.message proxy t.flow) calls

/-- The phase and the session after the answer of the server, if there is one, is read. -/
def hearServer (proxy : Option Proxy) (phase : Negotiation) (t : TcpSession) (calls : SocketCalls) :
    Negotiation × TcpSession × List Output :=
  if phase = .none then
    (if calls.output then if proxy.isSome then .hello else .connected else .none, t, [])
  else if calls.input then
    match calls.recv with
    | .error _ =>
      let (t, rst) := writeRst t
      (phase, t, [rst])
    | .data bytes =>
      match handleReply t.flow.version phase (bytes.take 32) with
      | some phase => (phase, t, [])
      | none =>
        let (t, rst) := writeRst t
        (.none, t, [rst])
  else (phase, t, [])

/-- What an unset server is told never matters. -/
def Proxy.unset : Proxy := ⟨[], [], Nat.zero_le _, Nat.zero_le _⟩

/-- The part of `check_tcp_socket` for a socket that is connecting. -/
def connectVia (proxy : Option Proxy) (id : Nat) (phase : Negotiation) (t : TcpSession) (calls : SocketCalls) :
    Negotiation × TcpSession × List Output :=
  let (phase, t, heard) := hearServer proxy phase t calls
  let (t, said) := negotiate (proxy.getD .unset) id phase t calls
  (phase, t, heard ++ said)

/-- With no server set a session connects as the engine has it. -/
theorem connectTcp_eq {t : TcpSession} (h : t.socks5 = .none) (id : Nat) (calls : SocketCalls) :
    connectTcp t calls =
      ({ (connectVia none id .none t calls).2.1 with socks5 := if calls.output then .connected else .none },
        (connectVia none id .none t calls).2.2) := by
  unfold connectTcp connectVia hearServer negotiate
  rw [if_neg (by rw [h]; exact fun h => Socks5.noConfusion h.1), if_pos rfl]
  cases calls.output with
  | false =>
    rw [if_neg (by rw [h]; exact fun h => h.elim Socks5.noConfusion Bool.noConfusion)]
    rw [if_neg Bool.false_ne_true, if_neg Bool.false_ne_true, ← h]
    rfl
  | true =>
    have hpacket : tcpPacket { t with remoteSeq := u32 (t.remoteSeq + 1) } [] ⟨true, true, false, false⟩ =
        tcpPacket { t with socks5 := .connected, remoteSeq := u32 (t.remoteSeq + 1) } [] ⟨true, true, false, false⟩ :=
          rfl
    rw [if_pos (.inr rfl)]
    dsimp only [writeSynAck, writeOrClose, Option.isSome_none]
    rw [hpacket]
    cases calls.tunWrite 0 <;> rfl

/-! ## What one event does -/

variable {proxy : Proxy} {id : Nat} {phase next : Negotiation} {t t' : TcpSession} {calls : SocketCalls}
  {os : List Output}

/-- How `connectVia` ends: the session is closed, there is nothing to do, the next message is sent, or the client
is told that it is connected. -/
inductive Negotiated (proxy : Proxy) (phase : Negotiation) (t : TcpSession) (calls : SocketCalls) :
    Negotiation → TcpSession → List Output → Prop
  | closed {next : Negotiation} {t' : TcpSession} {os : List Output} (state : t'.state = .closing) :
      Negotiated proxy phase t calls next t' os
  | quiet (start : phase = .none) : Negotiated proxy phase t calls .none t []
  | started (start : phase = .none) (id n : Nat) :
      Negotiated proxy phase t calls .hello t [.send id (helloMessage.take n)]
  | answered (bytes : Bytes) {next : Negotiation} (underWay : phase ≠ .none) (recv : calls.recv = .data bytes)
      (reply : handleReply t.flow.version phase (bytes.take 32) = some next) (unfinished : next ≠ .connected)
      (id n : Nat) :
      Negotiated proxy phase t calls next t [.send id ((next.message proxy t.flow).take n)]
  | granted (bytes : Bytes) {t' : TcpSession} {os : List Output} (underWay : phase ≠ .none)
    (recv : calls.recv = .data bytes)
      (reply : handleReply t.flow.version phase (bytes.take 32) = some .connected) (state : t'.state = .synRecv)
      (flow : t'.flow = t.flow) : Negotiated proxy phase t calls .connected t' os

/-- A reset closes a session that is not closed yet, and leaves one that is closing as it is. -/
theorem closing_writeRst (h : t.state = .listen ∨ t.state = .closing) : (writeRst t).1.state = .closing := by
  unfold writeRst
  rcases h with h | h
  · simp [h, TcpSession.withState]
  · simp [h, TcpSession.withState]

theorem transmit_cases (id : Nat) (t : TcpSession) (message : Bytes) (calls : SocketCalls) :
    transmit id t message calls = ((writeRst t).1, [(writeRst t).2]) ∨
      ∃ n, transmit id t message calls = (t, [.send id (message.take n)]) := by
  unfold transmit
  split
  · exact .inl rfl
  · rename_i n _
    exact .inr ⟨n, rfl⟩

theorem closing_transmit (h : t.state = .closing) (message : Bytes) :
    (transmit id t message calls).1.state = .closing := by
  rcases transmit_cases id t message calls with heq | ⟨n, heq⟩
  · rw [heq]
    exact closing_writeRst (.inr h)
  · rw [heq]
    exact h

theorem closing_negotiate (h : t.state = .closing) (hphase : phase ≠ .connected) :
    (negotiate proxy id phase t calls).1.state = .closing := by
  cases phase with
  | none => exact h
  | hello => exact closing_transmit h helloMessage
  | auth => exact closing_transmit h (authMessage proxy)
  | connect => exact closing_transmit h (connectMessage t.flow)
  | connected => exact absurd rfl hphase

/-- The answers that do not reset the session. -/
theorem handleReply_cases {version : Nat} {bytes : Bytes} (h : handleReply version phase bytes = some next) :
    phase = .hello ∧ (bytes = [5, 0] ∧ next = .connect ∨ bytes = [5, 2] ∧ next = .auth) ∨
      phase = .auth ∧ (∃ v, bytes = [v, 0]) ∧ next = .connect ∨
      phase = .connect ∧ bytes.take 2 = [5, 0] ∧ next = .connected := by
  unfold handleReply at h
  split at h
  · split_ifs at h with hv hcode hcode'
    · subst hv hcode
      cases h
      exact .inl ⟨rfl, .inl ⟨rfl, rfl⟩⟩
    · subst hv hcode'
      cases h
      exact .inl ⟨rfl, .inr ⟨rfl, rfl⟩⟩
  · split_ifs at h with hcode
    obtain ⟨-, rfl⟩ := hcode
    cases h
    exact .inr (.inl ⟨rfl, ⟨_, rfl⟩, rfl⟩)
  · obtain ⟨⟨-, hv, hzero⟩, hnext⟩ := Option.ite_none_right_eq_some.1 h
    cases hnext
    exact .inr (.inr ⟨rfl, by rw [hv, hzero]; rfl, rfl⟩)
  · cases h

theorem negotiated_connectVia (id : Nat) (hlisten : t.state = .listen) (hphase : phase ≠ .connected)
    (hpolled : phase = .none ∨ calls.input = true) :
    Negotiated proxy phase t calls (connectVia (some proxy) id phase t calls).1
      (connectVia (some proxy) id phase t calls).2.1 (connectVia (some proxy) id phase t calls).2.2 := by
  have hreset := closing_writeRst (.inl hlisten)
  by_cases hnone : phase = .none
  -- nothing was said: the hello is sent as soon as the socket is writable
  · unfold connectVia hearServer
    rw [if_pos hnone]
    cases calls.output with
    | false => exact .quiet hnone
    | true =>
      dsimp only [Option.isSome_some, Option.getD_some, negotiate]
      rcases transmit_cases id t (Negotiation.message proxy t.flow .hello) calls with heq | ⟨n, heq⟩
      · rw [if_pos rfl, if_pos rfl]
        dsimp only
        rw [heq]
        exact .closed hreset
      · rw [if_pos rfl, if_pos rfl]
        dsimp only
        rw [heq]
        exact .started hnone id n
  · have hinput := hpolled.resolve_left hnone
    unfold connectVia hearServer
    rw [if_neg hnone, if_pos hinput]
    cases hrecv : calls.recv with
    | error retry => exact .closed (closing_negotiate hreset hphase)
    | data bytes =>
      dsimp only
      cases hreply : handleReply t.flow.version phase (bytes.take 32) with
      | none => exact .closed hreset
      | some next =>
        -- each answer is followed by a message, the last one by the SYN-ACK
        have hnext : next = .auth ∨ next = .connect ∨ next = .connected := by
          rcases handleReply_cases hreply with ⟨-, ⟨-, h⟩ | ⟨-, h⟩⟩ | ⟨-, -, h⟩ | ⟨-, -, h⟩
          · exact .inr (.inl h)
          · exact .inl h
          · exact .inr (.inl h)
          · exact .inr (.inr h)
        dsimp only [Option.getD_some]
        rcases hnext with rfl | rfl | rfl
        · rcases transmit_cases id t (Negotiation.message proxy t.flow .auth) calls with heq | ⟨n, heq⟩
          · dsimp only [negotiate]
            rw [heq]
            exact .closed hreset
          · dsimp only [negotiate]
            rw [heq]
            exact .answered bytes hnone hrecv hreply (by decide) id n
        · rcases transmit_cases id t (Negotiation.message proxy t.flow .connect) calls with heq | ⟨n, heq⟩
          · dsimp only [negotiate]
            rw [heq]
            exact .closed hreset
          · dsimp only [negotiate]
            rw [heq]
            exact .answered bytes hnone hrecv hreply (by decide) id n
        · dsimp only [negotiate, writeSynAck, writeOrClose]
          cases calls.tunWrite 0 with
          | false => exact .closed rfl
          | true => exact .granted bytes hnone hrecv hreply rfl rfl

end SunProxy.Net
