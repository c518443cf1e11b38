/-
A session that connects through a SOCKS5 server: the client of `check_tcp_socket`, a server that answers what it
reads, and the two streams between them. Whatever order their steps have, and however the streams are cut, the client of
the tun is told that it is connected only when the server has granted it the address and the port it asked for.
-/
import SunProxy.Net.Socks5

namespace SunProxy.Net

open SunProxy.Buffer SunProxy.Reader SunProxy.Run

/-! ## The server -/

structure Request where
  command : UInt8
  address : Bytes
  port : Nat
deriving DecidableEq, Repr

def readMethods : Reader UInt8 Bytes :=
  andThen item fun version => andThen item fun n => andThen (items n.toNat) fun methods =>
    if version = 5 then give methods else fail

/-- A user name and a password. -/
def readCredentials : Reader UInt8 (Bytes × Bytes) :=
  andThen item fun version => andThen item fun n => andThen (items n.toNat) fun username =>
    andThen item fun m => andThen (items m.toNat) fun password =>
      if version = 1 then give (username, password) else fail

/-- A request for an IPv4 or an IPv6 address. -/
def readRequest : Reader UInt8 Request :=
  andThen item fun version => andThen item fun command => andThen item fun _ => andThen item fun type =>
    andThen (items (if type = 1 then 4 else 16)) fun address => andThen item fun hi => andThen item fun lo =>
      if version = 5 ∧ (type = 1 ∨ type = 4) then give ⟨command, address, hi.toNat * 256 + lo.toNat⟩ else fail

/-- As whom a client has authenticated, if it had to. -/
abbrev Login := Option (Bytes × Bytes)

inductive ProxyServer where
  | methods
  | auth
  | request (login : Login)
  | granted (login : Login) (request : Request)
  | refused
deriving DecidableEq, Repr

/-- What a server decides about a message: the method or the answer, and the address it has bound. -/
structure Decision where
  code : UInt8
  bound : Bytes

/-- A server that reads a message, if there is a whole one: its next state, the rest of its input, and its answer. -/
def ProxyServer.serve (accepts : Bytes → Bytes → Bool) (decision : Decision) (input : Bytes) :
    ProxyServer → ProxyServer × Bytes × Bytes
  | .methods =>
    match readMethods input with
    | some (offered, rest) =>
      if decision.code ∈ offered ∧ decision.code = 0 then (.request none, rest, [5, 0])
      else if decision.code ∈ offered ∧ decision.code = 2 then (.auth, rest, [5, 2])
      else (.refused, rest, [5, 255])
    | none => (.methods, input, [])
  | .auth =>
    match readCredentials input with
    | some (login, rest) =>
      if accepts login.1 login.2 then (.request (some login), rest, [1, 0]) else (.refused, rest, [1, 1])
    | none => (.auth, input, [])
  | .request login =>
    match readRequest input with
    | some (asked, rest) =>
      if asked.command = 1 ∧ decision.code = 0 then (.granted login asked, rest, 5 :: 0 :: 0 :: decision.bound)
      else (.refused, rest, 5 :: (if decision.code = 0 then 7 else decision.code) :: 0 :: decision.bound)
    | none => (.request login, input, [])
  | server => (server, input, [])

/-! ## What the server reads of the client's messages -/

variable {proxy : Proxy} {flow : Flow} {part rest : Bytes}

theorem stable_readMethods : Stable readMethods :=
  stable_item.andThen fun _ => stable_item.andThen fun _ => (stable_items _).andThen fun _ =>
    (stable_give _).ite stable_fail

theorem stable_readCredentials : Stable readCredentials :=
  stable_item.andThen fun _ => stable_item.andThen fun _ => (stable_items _).andThen fun _ =>
    stable_item.andThen fun _ => (stable_items _).andThen fun _ => (stable_give _).ite stable_fail

theorem stable_readRequest : Stable readRequest :=
  stable_item.andThen fun _ => stable_item.andThen fun _ => stable_item.andThen fun _ => stable_item.andThen fun _ =>
    (stable_items _).andThen fun _ => stable_item.andThen fun _ => stable_item.andThen fun _ =>
      (stable_give _).ite stable_fail

theorem readMethods_helloMessage : readMethods helloMessage = some ([0, 2], []) := rfl

theorem readCredentials_authMessage (proxy : Proxy) :
    readCredentials (authMessage proxy) = some ((proxy.username, proxy.password), []) := by
  have hlength : ∀ {text : Bytes}, text.length ≤ 127 → (UInt8.ofNat text.length).toNat = text.length := by
    intro text hle
    rw [UInt8.toNat_ofNat', Nat.mod_eq_of_lt (by omega)]
  have husername : items (UInt8.ofNat proxy.username.length).toNat
      (proxy.username ++ UInt8.ofNat proxy.password.length :: proxy.password) =
        some (proxy.username, UInt8.ofNat proxy.password.length :: proxy.password) := by
    rw [hlength proxy.username_le]
    exact items_append ..
  have hpassword : items (UInt8.ofNat proxy.password.length).toNat proxy.password = some (proxy.password, []) := by
    rw [hlength proxy.password_le]
    simpa using items_append proxy.password []
  rw [readCredentials, authMessage, andThen_item, andThen_item, andThen_eq husername, andThen_item,
    andThen_eq hpassword]
  rfl

theorem readRequest_connectMessage (hform : flow.WellFormed) (hdest : flow.dest < 65536) :
    readRequest (connectMessage flow) = some (⟨1, flow.daddr, flow.dest⟩, []) := by
  have haddress : items (if (if flow.version = 4 then (1 : UInt8) else 4) = 1 then 4 else 16)
    (flow.daddr ++ be16 flow.dest) =
      some (flow.daddr, be16 flow.dest) := by
    have hlength : (if (if flow.version = 4 then (1 : UInt8) else 4) = 1 then 4 else 16) = flow.daddr.length := by
      rcases hform with ⟨h4, -, h⟩ | ⟨h6, -, h⟩
      · rw [if_pos h4, if_pos rfl, h]
      · rw [h6, h]
        rfl
    rw [hlength]
    exact items_append ..
  have hport : (UInt8.ofNat (flow.dest / 256)).toNat * 256 + (UInt8.ofNat flow.dest).toNat = flow.dest := by
    simp only [UInt8.toNat_ofNat']
    omega
  have htype : (if flow.version = 4 then (1 : UInt8) else 4) = 1 ∨
      (if flow.version = 4 then (1 : UInt8) else 4) = 4 := by
    split
    · exact .inl rfl
    · exact .inr rfl
  rw [readRequest, connectMessage, andThen_item, andThen_item, andThen_item, andThen_item, andThen_eq haddress, be16,
    andThen_item, andThen_item, if_pos ⟨rfl, htype⟩, hport]
  rfl

/-! ## The two of them -/

/-- The client in its phase with its session, the server, and what is under way to each. -/
structure Talk where
  phase : Negotiation
  session : TcpSession
  server : ProxyServer
  toServer : Bytes
  toClient : Bytes
deriving DecidableEq, Repr

inductive TalkEvent where
  /-- An event of the client's socket. -/
  | socket (calls : SocketCalls)
  | serve (decision : Decision)

def Talk.init (t : TcpSession) : Talk := ⟨.none, t, .methods, [], []⟩

/-- The bytes a `recv` of the negotiation takes. -/
def receivedIn (phase : Negotiation) (calls : SocketCalls) : Bytes :=
  if phase ≠ .none ∧ calls.input = true then
    match calls.recv with
    | .data bytes => bytes.take 32
    | .error _ => []
  else []

def Talk.step (proxy : Proxy) (accepts : Bytes → Bytes → Bool) (talk : Talk) : TalkEvent → Talk
  | .socket calls =>
    if talk.session.state = .listen then
      if calls.err then { talk with session := (writeRst { talk.session with time := calls.now }).1 }
      else
        let (phase, session, outputs) := connectVia (some proxy) 0 talk.phase talk.session calls
        { talk with
          phase := phase
          session := session
          toServer := talk.toServer ++ sentBytes outputs
          toClient := talk.toClient.drop (receivedIn talk.phase calls).length }
    else talk
  | .serve decision =>
    let (server, rest, answer) := talk.server.serve accepts decision talk.toServer
    { talk with server := server, toServer := rest, toClient := talk.toClient ++ answer }

/-- What `recv` gives is under way to the client. -/
def Talk.Arrives (talk : Talk) : RecvResult → Prop
  | .data bytes => bytes <+: talk.toClient
  | .error _ => True

instance (talk : Talk) : DecidablePred talk.Arrives
  | .data bytes => inferInstanceAs (Decidable (bytes <+: talk.toClient))
  | .error _ => isTrue trivial

/-- A socket that negotiates is polled for input alone. -/
def Talk.Possible (talk : Talk) : TalkEvent → Prop
  | .socket calls => (talk.phase = .none ∨ calls.input = true) ∧ talk.Arrives calls.recv
  | .serve _ => True

instance (talk : Talk) : DecidablePred talk.Possible
  | .socket calls => inferInstanceAs (Decidable ((talk.phase = .none ∨ calls.input = true) ∧ talk.Arrives calls.recv))
  | .serve _ => isTrue trivial

/-! ## What they agree on -/

/-- As whom a client with these credentials may have authenticated. -/
def Proxy.Knows (proxy : Proxy) (login : Login) : Prop := login = none ∨ login = some (proxy.username, proxy.password)

/-- The phase of the client, the state of the server, and what is under way to each: a part of the one message the
server waits for, or its whole answer. -/
inductive Agreed (proxy : Proxy) (flow : Flow) : Negotiation → ProxyServer → Bytes → Bytes → Prop
  | start : Agreed proxy flow .none .methods [] []
  | hello {sent : Bytes} (part : sent <+: helloMessage) : Agreed proxy flow .hello .methods sent []
  | free : Agreed proxy flow .hello (.request none) [] [5, 0]
  | locked : Agreed proxy flow .hello .auth [] [5, 2]
  | auth {sent : Bytes} (part : sent <+: authMessage proxy) : Agreed proxy flow .auth .auth sent []
  | known : Agreed proxy flow .auth (.request (some (proxy.username, proxy.password))) [] [1, 0]
  | connect {login : Login} {sent : Bytes} (knows : proxy.Knows login) (part : sent <+: connectMessage flow) :
      Agreed proxy flow .connect (.request login) sent []
  | granted {login : Login} (knows : proxy.Knows login) (bound : Bytes) :
      Agreed proxy flow .connect (.granted login ⟨1, flow.daddr, flow.dest⟩) [] (5 :: 0 :: 0 :: bound)
  | refused {phase : Negotiation} {toServer toClient : Bytes} (underWay : phase ≠ .none ∧ phase ≠ .connected)
      (hopeless : ∀ chunk, chunk <+: toClient → handleReply flow.version phase chunk = none) :
      Agreed proxy flow phase .refused toServer toClient

variable {phase next : Negotiation} {server : ProxyServer} {toServer toClient : Bytes} {accepts : Bytes → Bytes → Bool}
  {t t' : TcpSession} {calls : SocketCalls} {os : List Output}

theorem Agreed.unfinished (h : Agreed proxy flow phase server toServer toClient) : phase ≠ .connected := by
  cases h with
  | start | hello | free | locked | auth | known | connect | granted => exact Negotiation.noConfusion
  | refused underWay => exact underWay.2

/-- No part of an answer with another code is taken for one that goes on. -/
theorem handleReply_eq_none {version : Nat} {v code : UInt8} {chunk : Bytes} (hzero : code ≠ 0)
    (htwo : phase = .hello → code ≠ 2) (hpart : chunk <+: v :: code :: rest) :
    handleReply version phase chunk = none := by
  cases h : handleReply version phase chunk with
  | none => rfl
  | some next =>
    rcases handleReply_cases h with ⟨hphase, ⟨rfl, -⟩ | ⟨rfl, -⟩⟩ | ⟨-, ⟨w, rfl⟩, -⟩ | ⟨-, htake, -⟩
    · exact absurd (List.cons_prefix_cons.1 (List.cons_prefix_cons.1 hpart).2).1.symm hzero
    · exact absurd (List.cons_prefix_cons.1 (List.cons_prefix_cons.1 hpart).2).1.symm (htwo hphase)
    · exact absurd (List.cons_prefix_cons.1 (List.cons_prefix_cons.1 hpart).2).1.symm hzero
    · have hfront : [5, 0] <+: v :: code :: rest := htake ▸ (List.take_prefix 2 chunk).trans hpart
      exact absurd (List.cons_prefix_cons.1 (List.cons_prefix_cons.1 hfront).2).1.symm hzero

/-- What the server does with what has arrived of a message. -/
theorem Agreed.serve (h : Agreed proxy flow phase server toServer toClient) (hform : flow.WellFormed)
    (hdest : flow.dest < 65536) (decision : Decision) :
    Agreed proxy flow phase (server.serve accepts decision toServer).1 (server.serve accepts decision toServer).2.1
      (toClient ++ (server.serve accepts decision toServer).2.2) := by
  cases h with
  | start => exact .start
  | free => exact .free
  | locked => exact .locked
  | known => exact .known
  -- a server that has granted or refused reads no more
  | granted knows bound =>
    unfold ProxyServer.serve
    rw [List.append_nil]
    exact .granted knows bound
  | refused underWay hopeless =>
    unfold ProxyServer.serve
    rw [List.append_nil]
    exact .refused underWay hopeless
  -- a part of a message is not read; what is read is the message of the client
  | hello part =>
    unfold ProxyServer.serve
    cases hread : readMethods toServer with
    | none => exact .hello part
    | some r =>
      obtain ⟨offered, rest⟩ := r
      obtain ⟨rfl, rfl⟩ := stable_readMethods.eq_of_isPrefix readMethods_helloMessage part hread
      dsimp only
      split
      · exact .free
      · split
        · exact .locked
        · refine .refused (by decide) fun chunk hchunk => ?_
          exact handleReply_eq_none (by decide) (fun _ => by decide) hchunk
  | auth part =>
    unfold ProxyServer.serve
    cases hread : readCredentials toServer with
    | none => exact .auth part
    | some r =>
      obtain ⟨login, rest⟩ := r
      obtain ⟨rfl, rfl⟩ := stable_readCredentials.eq_of_isPrefix (readCredentials_authMessage proxy) part hread
      dsimp only
      split
      · exact .known
      · refine .refused (by decide) fun chunk hchunk => ?_
        exact handleReply_eq_none (by decide) (fun h => by cases h) hchunk
  | connect knows part =>
    unfold ProxyServer.serve
    cases hread : readRequest toServer with
    | none => exact .connect knows part
    | some r =>
      obtain ⟨asked, rest⟩ := r
      obtain ⟨rfl, rfl⟩ := stable_readRequest.eq_of_isPrefix (readRequest_connectMessage hform hdest) part hread
      dsimp only
      split
      · exact .granted knows decision.bound
      · refine .refused (by decide) fun chunk hchunk => ?_
        refine handleReply_eq_none ?_ (fun h => by cases h) hchunk
        split
        · decide
        · assumption

theorem receivedIn_data {bytes : Bytes} (hphase : phase ≠ .none) (hinput : calls.input = true)
    (hrecv : calls.recv = .data bytes) :
    receivedIn phase calls = bytes.take 32 := by
  rw [receivedIn, if_pos ⟨hphase, hinput⟩, hrecv]

/-- What an event of the socket makes of the session: it is closed, it goes on, or it is connected. -/
inductive Heard (proxy : Proxy) (flow : Flow) (phase : Negotiation) (t : TcpSession) (server : ProxyServer)
    (toServer toClient : Bytes) : Prop
  | closed (state : t.state = .closing)
  | goesOn (state : t.state = .listen) (same : t.flow = flow)
    (agreed : Agreed proxy flow phase server toServer toClient)
  | connected (state : t.state = .synRecv) {login : Login} (knows : proxy.Knows login)
      (granted : server = .granted login ⟨1, flow.daddr, flow.dest⟩)

theorem Agreed.socket (h : Agreed proxy t.flow phase server toServer toClient) (hlisten : t.state = .listen)
    (hpolled : phase = .none ∨ calls.input = true) (hrecv : ∀ bytes, calls.recv = .data bytes → bytes <+: toClient)
    (hnext : Negotiated proxy phase t calls next t' os) :
    Heard proxy t.flow next t' server (toServer ++ sentBytes os) (toClient.drop (receivedIn phase calls).length) := by
  cases hnext with
  | closed state => exact .closed state
  | quiet start =>
    subst start
    rw [sentBytes_nil, List.append_nil]
    exact .goesOn hlisten rfl h
  -- the client says hello, to a server that has heard nothing
  | started start id n =>
    subst start
    cases h with
    | start =>
      rw [sentBytes_send]
      exact .goesOn hlisten rfl (.hello (List.take_prefix n _))
    | refused underWay => exact absurd rfl underWay.1
  | answered bytes underWay recv reply unfinished id n =>
    obtain ⟨chunk, hchunk⟩ : ∃ chunk, chunk = bytes.take 32 := ⟨_, rfl⟩
    have hpart : chunk <+: toClient := hchunk ▸ (List.take_prefix 32 bytes).trans (hrecv bytes recv)
    rw [sentBytes_send, receivedIn_data underWay (hpolled.resolve_left underWay) recv]
    rw [← hchunk] at reply ⊢
    -- each answer that lets the client go on is the one of a server in step with it
    rcases handleReply_cases reply with ⟨rfl, ⟨rfl, rfl⟩ | ⟨rfl, rfl⟩⟩ | ⟨rfl, ⟨v, rfl⟩, rfl⟩ | ⟨-, -, rfl⟩
    · cases h with
      | hello => cases List.prefix_nil.1 hpart
      | free => exact .goesOn hlisten rfl (.connect (.inl rfl) (List.take_prefix n _))
      | locked => exact absurd hpart (by decide)
      | refused underWay hopeless => cases (hopeless _ hpart).symm.trans reply
    · cases h with
      | hello => cases List.prefix_nil.1 hpart
      | free => exact absurd hpart (by decide)
      | locked => exact .goesOn hlisten rfl (.auth (List.take_prefix n _))
      | refused underWay hopeless => cases (hopeless _ hpart).symm.trans reply
    · cases h with
      | auth => cases List.prefix_nil.1 hpart
      | known => exact .goesOn hlisten rfl (.connect (.inr rfl) (List.take_prefix n _))
      | refused underWay hopeless => cases (hopeless _ hpart).symm.trans reply
    · exact absurd rfl unfinished
  -- the client is connected only by the answer to its request, and nothing but a grant is that
  | granted bytes underWay recv reply state flow =>
    have hpart : bytes.take 32 <+: toClient := (List.take_prefix 32 bytes).trans (hrecv bytes recv)
    rcases handleReply_cases reply with ⟨-, ⟨-, hnext⟩ | ⟨-, hnext⟩⟩ | ⟨-, -, hnext⟩ | ⟨rfl, htake, -⟩
    · cases hnext
    · cases hnext
    · cases hnext
    · cases h with
      | connect =>
        rw [List.prefix_nil.1 hpart] at htake
        cases htake
      | granted knows bound => exact .connected state knows rfl
      | refused underWay hopeless => cases (hopeless _ hpart).symm.trans reply

/-! ## Whole talks -/

/-- A client that connects agrees with the server, and one that is connected has been granted what it asked for. -/
def Talk.Sound (proxy : Proxy) (flow : Flow) (talk : Talk) : Prop :=
  Heard proxy flow talk.phase talk.session talk.server talk.toServer talk.toClient

theorem Talk.Sound.step {talk : Talk} {e : TalkEvent} (h : talk.Sound proxy flow) (hform : flow.WellFormed)
    (hdest : flow.dest < 65536) (hpossible : talk.Possible e) : (talk.step proxy accepts e).Sound proxy flow := by
  cases e with
  | socket calls =>
    unfold Talk.step
    dsimp only
    split
    · rename_i hlisten
      split
      · exact .closed (closing_writeRst (.inl hlisten))
      · cases h with
        | closed state => cases hlisten.symm.trans state
        | connected state => cases hlisten.symm.trans state
        | goesOn _ same agreed =>
          subst same
          obtain ⟨hpolled, hrecv⟩ := hpossible
          refine agreed.socket hlisten hpolled (fun bytes hbytes => ?_)
            (negotiated_connectVia 0 hlisten agreed.unfinished hpolled)
          rwa [hbytes] at hrecv
    · exact h
  | serve decision =>
    cases h with
    | closed state => exact .closed state
    | goesOn state same agreed => exact .goesOn state same (agreed.serve hform hdest decision)
    | connected state knows granted =>
      refine .connected state knows ?_
      unfold Talk.step
      rw [granted]
      rfl

/-- Whatever the order of what the socket and the server do, and however the streams are cut: when the client of
the tun is told that it is connected, the server has granted the session its address and its port, to nobody or
to the user that was set. -/
theorem granted_of_talk {proxy : Proxy} {accepts : Bytes → Bytes → Bool} {t : TcpSession} {events : List TalkEvent}
    (hlisten : t.state = .listen) (hform : t.flow.WellFormed) (hdest : t.flow.dest < 65536)
    (hpossible : EveryStep (Talk.step proxy accepts) Talk.Possible (.init t) events) :
    ∀ talk ∈ states (Talk.step proxy accepts) (.init t) events, talk.session.state = .synRecv →
      ∃ login, (login = none ∨ login = some (proxy.username, proxy.password)) ∧
        talk.server = .granted login ⟨1, t.flow.daddr, t.flow.dest⟩ := by
  have hsound : ∀ talk ∈ states (Talk.step proxy accepts) (.init t) events, talk.Sound proxy t.flow :=
    forall_states (fun talk e h hp => h.step hform hdest hp) (.goesOn hlisten rfl .start) hpossible
  intro talk htalk hstate
  cases hsound talk htalk with
  | closed state => cases hstate.symm.trans state
  | goesOn state => cases hstate.symm.trans state
  | connected _ knows granted => exact ⟨_, knows, granted⟩

/-! ## When the client is told -/

/-- How many bytes of the server's answer let the client go on: a choice of two bytes, or a grant with an address as
long as the one asked for. -/
def expected (flow : Flow) : Negotiation → ProxyServer → Option Nat
  | .hello, .request _ | .hello, .auth | .auth, .request _ => some 2
  | .connect, .granted .. => some (6 + flow.daddr.length)
  | _, _ => none

/-- What `recv` gives is what lets the client go on. -/
def Talk.Hears (talk : Talk) : RecvResult → Prop
  | .data bytes => expected talk.session.flow talk.phase talk.server = some bytes.length
  | .error _ => False

instance (talk : Talk) : DecidablePred talk.Hears
  | .data _ => inferInstanceAs (Decidable (_ = _))
  | .error _ => isFalse id

def SocketCalls.sends (calls : SocketCalls) : Bool :=
  match calls.send 0 with
  | .sent _ => true
  | .error _ => false

/-- The event leaves the session open: the socket has no error, the client hears what lets it go on, and what it
sends or writes then goes out. -/
def Talk.Keeps (talk : Talk) : TalkEvent → Prop
  | .socket calls => talk.session.state = .listen → calls.err = false ∧
    (talk.phase = .none → calls.output = true → calls.sends = true) ∧
    (talk.phase ≠ .none → talk.Hears calls.recv ∧
      (if talk.phase = .connect then calls.tunWrite 0 else calls.sends) = true)
  | .serve _ => True

instance (talk : Talk) : DecidablePred talk.Keeps
  | .socket _ => inferInstanceAs (Decidable (_ → _))
  | .serve _ => isTrue trivial

theorem prefix_pair {a b : UInt8} {bytes : Bytes} (h : bytes <+: [a, b]) :
    bytes = [] ∨ bytes = [a] ∨ bytes = [a, b] := by
  rcases List.prefix_cons_iff.1 h with rfl | ⟨tail, rfl, hfirst⟩
  · exact .inl rfl
  · rcases List.prefix_cons_iff.1 hfirst with rfl | ⟨rest, rfl, hsecond⟩
    · exact .inr (.inl rfl)
    · rw [List.prefix_nil.1 hsecond]
      exact .inr (.inr rfl)

/-- Of a grant as many bytes are taken as one with an address of the version has, however long it is. -/
theorem handleReply_grant {bound bytes : Bytes} (hform : flow.WellFormed) (hpart : bytes <+: 5 :: 0 :: 0 :: bound) :
    (∃ next, handleReply flow.version .connect (bytes.take 32) = some next) ↔ bytes.length = 6 + flow.daddr.length := by
  have hlength : flow.daddr.length = if flow.version = 4 then 4 else 16 := by
    rcases hform with ⟨h4, -, h⟩ | ⟨h6, -, h⟩
    · rw [if_pos h4, h]
    · rw [h6, h]
      rfl
  have hle : flow.daddr.length ≤ 16 := by
    rw [hlength]
    split <;> omega
  rcases List.prefix_cons_iff.1 hpart with rfl | ⟨tail, rfl, hfirst⟩
  · exact iff_of_false (by rintro ⟨next, ⟨⟩⟩) (by simp only [List.length_nil]; omega)
  · rcases List.prefix_cons_iff.1 hfirst with rfl | ⟨rest, rfl, -⟩
    · exact iff_of_false (by rintro ⟨next, ⟨⟩⟩) (by simp only [List.length_cons, List.length_nil]; omega)
    · unfold handleReply
      dsimp only [List.take_succ_cons]
      rw [← hlength]
      simp only [Option.ite_none_right_eq_some, and_true, List.length_cons, List.length_take]
      constructor
      · rintro ⟨next, hlen, -⟩
        omega
      · intro hlen
        exact ⟨_, by omega, rfl⟩

/-- Of the answers under way the client takes what is expected, and nothing else. -/
theorem Agreed.reply (h : Agreed proxy flow phase server toServer toClient) (hform : flow.WellFormed)
    (hphase : phase ≠ .none) {bytes : Bytes} (hpart : bytes <+: toClient) :
    (∃ next, handleReply flow.version phase (bytes.take 32) = some next) ↔
    expected flow phase server = some bytes.length := by
  cases h with
  | start => exact absurd rfl hphase
  | hello | auth | connect =>
    rw [List.prefix_nil.1 hpart]
    exact iff_of_false (by rintro ⟨next, ⟨⟩⟩) nofun
  | free | locked | known =>
    rcases prefix_pair hpart with rfl | rfl | rfl
    · exact iff_of_false (by rintro ⟨next, ⟨⟩⟩) nofun
    · exact iff_of_false (by rintro ⟨next, ⟨⟩⟩) nofun
    · exact iff_of_true ⟨_, rfl⟩ rfl
  | refused underWay hopeless =>
    rw [hopeless _ ((List.take_prefix 32 bytes).trans hpart)]
    refine iff_of_false (by rintro ⟨next, ⟨⟩⟩) ?_
    cases phase <;> nofun
  | granted knows bound =>
    rw [handleReply_grant hform hpart]
    exact ⟨fun h => congrArg some h.symm, fun h => (Option.some.inj h).symm⟩

/-! ### One event of the socket -/

theorem state_transmit (hlisten : t.state = .listen) (message : Bytes) :
    (transmit 0 t message calls).1.state = if calls.sends then .listen else .closing := by
  unfold transmit SocketCalls.sends
  cases calls.send 0 with
  | error retry => exact closing_writeRst (.inl hlisten)
  | sent n => exact hlisten

/-- What the client says next, when it has heard what lets it go on. -/
theorem state_negotiate (hlisten : t.state = .listen) {version : Nat} {bytes : Bytes} (hphase : phase ≠ .none)
    (hreply : handleReply version phase bytes = some next) :
    (negotiate proxy 0 next t calls).1.state =
      if (if phase = .connect then calls.tunWrite 0 else calls.sends) = true then
        if phase = .connect then .synRecv else .listen
      else .closing := by
  rcases handleReply_cases hreply with ⟨rfl, ⟨-, rfl⟩ | ⟨-, rfl⟩⟩ | ⟨rfl, -, rfl⟩ | ⟨rfl, -, rfl⟩
  · exact state_transmit hlisten _
  · exact state_transmit hlisten _
  · exact state_transmit hlisten _
  · unfold negotiate writeSynAck writeOrClose
    dsimp only
    cases calls.tunWrite 0 with
    | false => rfl
    | true => rfl

/-- What an event of the socket makes of a session that connects. -/
theorem Talk.Sound.state_socket {talk : Talk} (h : talk.Sound proxy flow) (hform : flow.WellFormed)
    (hlisten : talk.session.state = .listen) (hpossible : talk.Possible (.socket calls)) :
    (talk.step proxy accepts (.socket calls)).session.state =
      if talk.Keeps (.socket calls) then if talk.phase = .connect then .synRecv else .listen else .closing := by
  cases h with
  | closed state => cases hlisten.symm.trans state
  | connected state => cases hlisten.symm.trans state
  | goesOn _ same agreed =>
  subst same
  obtain ⟨phase, t, server, toServer, toClient⟩ := talk
  obtain ⟨hpolled, hrecv⟩ := hpossible
  dsimp only at hlisten agreed hpolled hform
  have hreset := closing_writeRst (.inl hlisten)
  simp only [Talk.Keeps, hlisten, forall_const]
  unfold Talk.step
  dsimp only
  rw [if_pos hlisten]
  cases herr : calls.err with
  | true =>
    rw [if_pos rfl, if_neg (by rintro ⟨⟨⟩, -⟩)]
    exact closing_writeRst (.inl hlisten)
  | false =>
    rw [if_neg Bool.false_ne_true]
    simp only [true_and]
    by_cases hnone : phase = .none
    -- the hello waits for the socket to be writable, and the session ends when it is not sent
    · subst hnone
      simp only [forall_const, ne_eq, not_true_eq_false, false_imp_iff, and_true]
      unfold connectVia hearServer
      cases houtput : calls.output with
      | false =>
        rw [if_pos (fun h => Bool.noConfusion h)]
        exact hlisten
      | true =>
        simp only [forall_const]
        exact state_transmit hlisten helloMessage
    -- what is heard is a reply that is accepted exactly when it has the length that is expected
    · have hinput := hpolled.resolve_left hnone
      simp only [hnone, false_imp_iff, true_and, ne_eq, not_false_eq_true, forall_const]
      unfold connectVia hearServer
      rw [if_neg hnone, if_pos hinput]
      cases hcall : calls.recv with
      | error retry =>
        rw [if_neg (by rintro ⟨⟨⟩, -⟩)]
        exact closing_negotiate hreset agreed.unfinished
      | data bytes =>
        rw [hcall] at hrecv
        have hreply := agreed.reply hform hnone hrecv
        dsimp only
        cases hhandled : handleReply t.flow.version phase (bytes.take 32) with
        | none =>
          rw [hhandled] at hreply
          rw [if_neg fun hkeeps => by obtain ⟨next, ⟨⟩⟩ := hreply.2 hkeeps.1]
          exact hreset
        | some next =>
          have hhears : expected t.flow phase server = some bytes.length := hreply.1 ⟨next, hhandled⟩
          dsimp only [Option.getD_some, Talk.Hears]
          rw [state_negotiate hlisten hnone hhandled]
          simp only [hhears, true_and]

/-! ### Runs -/

/-- A session that no longer listens stays as it is. -/
theorem final_session {talk : Talk} (h : talk.session.state ≠ .listen) (events : List TalkEvent) :
    (final (Talk.step proxy accepts) talk events).session = talk.session ∧
      EveryStep (Talk.step proxy accepts) Talk.Keeps talk events := by
  induction events generalizing talk with
  | nil => exact ⟨rfl, trivial⟩
  | cons e events ih =>
    have hsame : (talk.step proxy accepts e).session = talk.session := by
      cases e with
      | socket calls =>
        unfold Talk.step
        dsimp only
        rw [if_neg h]
      | serve decision => rfl
    have hkeeps : talk.Keeps e := by
      cases e with
      | socket calls => exact fun hlisten => absurd hlisten h
      | serve decision => trivial
    obtain ⟨hrest, hkept⟩ := ih (hsame ▸ h)
    exact ⟨hrest.trans hsame, hkeeps, hkept⟩

/-- From a session that connects the client of the tun is told exactly in a run that leaves the session open and
comes to the answer to the request. -/
theorem Talk.Sound.connected_iff {talk : Talk} (h : talk.Sound proxy flow) (hform : flow.WellFormed)
    (hdest : flow.dest < 65536) (hlisten : talk.session.state = .listen) {events : List TalkEvent}
    (hpossible : EveryStep (Talk.step proxy accepts) Talk.Possible talk events) :
    (final (Talk.step proxy accepts) talk events).session.state = .synRecv ↔
      EveryStep (Talk.step proxy accepts) Talk.Keeps talk events ∧ ∃ before calls after,
        events = before ++ .socket calls :: after ∧ (final (Talk.step proxy accepts) talk before).phase = .connect := by
  induction events generalizing talk with
  | nil =>
    refine iff_of_false (fun hstate => ?_) ?_
    · cases hlisten.symm.trans hstate
    · rintro ⟨-, before, calls, after, hevents, -⟩
      cases before <;> cases hevents
  | cons e events ih =>
    obtain ⟨hnow, hrest⟩ := hpossible
    have hnext : (talk.step proxy accepts e).Sound proxy flow := h.step hform hdest hnow
    have hcons : final (Talk.step proxy accepts) talk (e :: events) =
        final (Talk.step proxy accepts) (talk.step proxy accepts e) events := rfl
    -- what is said of the rest of the events is said of all of them
    have hlater : (talk.step proxy accepts e).session.state = .listen → talk.Keeps e →
        (∀ calls, e = .socket calls → talk.phase ≠ .connect) →
        ((final (Talk.step proxy accepts) talk (e :: events)).session.state = .synRecv ↔
          EveryStep (Talk.step proxy accepts) Talk.Keeps talk (e :: events) ∧ ∃ before calls after,
            e :: events = before ++ .socket calls :: after ∧
              (final (Talk.step proxy accepts) talk before).phase = .connect) := by
      intro hlisten' hkeeps hearlier
      rw [hcons, ih hnext hlisten' hrest]
      constructor
      · rintro ⟨hall, before, calls, after, rfl, hphase⟩
        exact ⟨⟨hkeeps, hall⟩, e :: before, calls, after, rfl, hphase⟩
      · rintro ⟨⟨-, hall⟩, before, calls, after, hevents, hphase⟩
        refine ⟨hall, ?_⟩
        cases before with
        | nil =>
          cases hevents
          exact absurd hphase (hearlier calls rfl)
        | cons e' before =>
          cases hevents
          exact ⟨before, calls, after, rfl, hphase⟩
    cases e with
    | serve decision => exact hlater hlisten trivial nofun
    | socket calls =>
      have hstate : (talk.step proxy accepts (.socket calls)).session.state = _ := h.state_socket hform hlisten hnow
      by_cases hkeeps : talk.Keeps (.socket calls)
      · rw [if_pos hkeeps] at hstate
        by_cases hphase : talk.phase = .connect
        · rw [if_pos hphase] at hstate
          have hopen : (talk.step proxy accepts (.socket calls)).session.state ≠ .listen := by
            rw [hstate]
            exact TcpState.noConfusion
          obtain ⟨hsame, hall⟩ := final_session hopen events
          refine iff_of_true ?_ ⟨⟨hkeeps, hall⟩, [], calls, events, rfl, hphase⟩
          rw [hcons, hsame, hstate]
        · rw [if_neg hphase] at hstate
          exact hlater hstate hkeeps fun _ _ => hphase
      · rw [if_neg hkeeps] at hstate
        have hopen : (talk.step proxy accepts (.socket calls)).session.state ≠ .listen := by
          rw [hstate]
          exact TcpState.noConfusion
        obtain ⟨hsame, -⟩ := final_session hopen events
        refine iff_of_false (fun hstate' => ?_) fun hall => hkeeps hall.1.1
        rw [hcons, hsame, hstate] at hstate'
        cases hstate'

/-- In a talk with any server, in any order of what the socket and the server do, and however the streams are cut
and delayed, the client of the tun is told that it is connected exactly when every event of the socket finds
what lets the client go on, and one comes after the request: of the grant the client takes as many bytes as one
with an address of the version asked for has. -/
theorem connected_iff_talk {proxy : Proxy} {accepts : Bytes → Bytes → Bool} {t : TcpSession} {events : List TalkEvent}
    (hlisten : t.state = .listen) (hform : t.flow.WellFormed) (hdest : t.flow.dest < 65536)
    (hpossible : EveryStep (Talk.step proxy accepts) Talk.Possible (.init t) events) :
    (final (Talk.step proxy accepts) (.init t) events).session.state = .synRecv ↔
      EveryStep (Talk.step proxy accepts) Talk.Keeps (.init t) events ∧ ∃ before calls after,
        events = before ++ .socket calls :: after ∧
          (final (Talk.step proxy accepts) (.init t) before).phase = .connect :=
  Talk.Sound.connected_iff (.goesOn hlisten rfl .start) hform hdest hlisten hpossible

/-- An event of a socket that can be read, where all calls work. -/
def SocketCalls.hearing (bytes : Bytes) : SocketCalls :=
  ⟨0, false, true, true, .data bytes, fun _ => .sent 512, fun _ => true, 0, 0⟩

/-- The talk with a server that asks for the password, lets the client in, and grants its request. -/
def admission (bound : Bytes) : List TalkEvent :=
  [.socket (.hearing []), .serve ⟨2, []⟩, .socket (.hearing [5, 2]), .serve ⟨0, []⟩, .socket (.hearing [1, 0]),
    .serve ⟨0, bound⟩, .socket (.hearing (5 :: 0 :: 0 :: bound))]

/-- A user with the password of one letter each. -/
def plainProxy : Proxy := ⟨[97], [98], by decide, by decide⟩

/-- A session of a flow whose SYN has come. -/
def listening : TcpSession := newTcpSession segmentFlow (plainHeader 100 0 false true false) 1460 0 10002 [] .working

/-- An address of the version asked for connects, and one of the other version does not. -/
theorem connected_iff_talk_auth :
    (final (Talk.step plainProxy fun username _ => username == [97]) (.init listening)
      (admission [1, 0, 0, 0, 0, 0, 0])).session.state = .synRecv ∧
    (final (Talk.step plainProxy fun username _ => username == [97]) (.init listening)
      (admission (4 :: List.replicate 18 0))).session.state ≠ .synRecv := by
  constructor
  · refine (connected_iff_talk rfl (by decide) (by decide) (by decide +kernel)).2 ⟨by decide +kernel, ?_⟩
    exact ⟨(admission [1, 0, 0, 0, 0, 0, 0]).take 6, _, [], rfl, by decide +kernel⟩
  · intro hstate
    have hkept := ((connected_iff_talk rfl (by decide) (by decide) (by decide +kernel)).1 hstate).1
    revert hkept
    decide +kernel

theorem granted_of_talk_auth : ∃ login, (login = none ∨ login = some ([97], [98])) ∧
    (final (Talk.step plainProxy fun username _ => username == [97]) (.init listening)
      (admission [1, 0, 0, 0, 0, 0, 0])).server = .granted login ⟨1, [8, 8, 8, 8], 443⟩ := by
  have hpossible : EveryStep (Talk.step plainProxy fun username _ => username == [97]) Talk.Possible (.init listening)
      (admission [1, 0, 0, 0, 0, 0, 0]) := by decide +kernel
  have hstate : (final (Talk.step plainProxy fun username _ => username == [97]) (.init listening)
      (admission [1, 0, 0, 0, 0, 0, 0])).session.state = .synRecv := by decide +kernel
  exact granted_of_talk rfl (by decide) (by decide) hpossible _ (final_mem_states _ _) hstate

end SunProxy.Net
