/-
The session table of the engine: one list of ICMP, UDP and TCP sessions, what the Kotlin side of a
run is, and what a step can do besides changing the table.
-/
import SunProxy.Net.Dns
import SunProxy.Net.Pton
import SunProxy.Redirect.Compile

namespace SunProxy.Net

open SunProxy.Buffer SunProxy.Kotlin SunProxy.Redirect

/-! ## Sessions -/

/-- The fields all of a flow's packets share. Ports are in host order. -/
structure Flow where
  version : Nat
  saddr : Bytes
  source : Nat
  daddr : Bytes
  dest : Nat
deriving DecidableEq, Repr

structure IcmpSession where
  time : Int
  uid : Int
  version : Nat
  saddr : Bytes
  daddr : Bytes
  id : Nat
  stop : Bool
deriving DecidableEq, Repr

inductive UdpState where
  | active
  | finishing
  | closed
  | blocked
deriving DecidableEq, Repr

structure UdpSession where
  time : Int
  uid : Int
  mss : Nat
  sent : Nat
  received : Nat
  flow : Flow
  state : UdpState
deriving DecidableEq, Repr

/-- A segment of client data that waits to be sent to the socket. -/
structure Segment where
  seq : Nat
  len : Nat
  sent : Nat
  psh : Bool
  data : Bytes
deriving DecidableEq, Repr

inductive TcpState where
  | listen
  | synRecv
  | established
  | closeWait
  | finWait1
  | lastAck
  | closing
  | close
deriving DecidableEq, Repr

/-- The values of the `socks5` field that occur with no SOCKS5 server set, as `MyVpnService` sets none. -/
inductive Socks5 where
  | none
  | connected
deriving DecidableEq, Repr

/-- Sequence numbers and windows are 32-bit numbers. -/
structure TcpSession where
  uid : Int
  time : Int
  mss : Nat
  recvScale : Nat
  sendScale : Nat
  recvWindow : Nat
  sendWindow : Nat
  unconfirmed : Nat
  remoteSeq : Nat
  localSeq : Nat
  remoteStart : Nat
  localStart : Nat
  acked : Nat
  lastKeepAlive : Int
  sent : Nat
  received : Nat
  flow : Flow
  state : TcpState
  socks5 : Socks5
  forward : List Segment
deriving DecidableEq, Repr

/-- The events a socket is polled for. -/
structure PollEvents where
  input : Bool
  output : Bool
deriving DecidableEq, Repr

inductive SessionData where
  | icmp (s : IcmpSession)
  | udp (s : UdpSession)
  | tcp (s : TcpSession)
deriving DecidableEq, Repr

/-- `struct ng_session`; `id` is its address, which the events of its socket carry. -/
structure NgSession where
  id : Nat
  data : SessionData
  socket : Int
  ev : PollEvents
deriving DecidableEq, Repr

/-- The session table, the most recent session first, and the next address to allocate. -/
structure Context where
  sessions : List NgSession
  next : Nat
deriving DecidableEq, Repr

/-- The table with `f` applied to the session at the address `id`. -/
def Context.update (ctx : Context) (id : Nat) (f : NgSession → NgSession) : Context :=
  { ctx with sessions := ctx.sessions.map fun s => if s.id = id then f s else s }

/-- The table after a new session was allocated and freed again. -/
def Context.discard (ctx : Context) : Context := { ctx with next := ctx.next + 1 }

/-- The table with a new session. -/
def Context.insert (ctx : Context) (data : SessionData) (socket : Int) (ev : PollEvents) : Context :=
  { sessions := ⟨ctx.next, data, socket, ev⟩ :: ctx.sessions, next := ctx.next + 1 }

def NgSession.udp? (s : NgSession) : Option UdpSession :=
  match s.data with
  | .udp u => some u
  | _ => none

def NgSession.tcp? (s : NgSession) : Option TcpSession :=
  match s.data with
  | .tcp t => some t
  | _ => none

/-- The search of `has_udp_session` and `handle_udp`. -/
def Context.findUdp (ctx : Context) (flow : Flow) : Option (Nat × UdpSession) :=
  ctx.sessions.findSome? fun s => (s.udp?.filter (·.flow = flow)).map (s.id, ·)

/-- The search of `handle_tcp`. -/
def Context.findTcp (ctx : Context) (flow : Flow) : Option (NgSession × TcpSession) :=
  ctx.sessions.findSome? fun s => (s.tcp?.filter (·.flow = flow)).map (s, ·)

/-! ## The Kotlin side -/

/-- An entry of the hosts list. -/
structure HostsEntry where
  regex : Regex
  address : Str
  version : Nat

/-- What a run of the engine is started with: the service's rules and hosts, and the platform. -/
structure Arguments where
  tables : CharTables
  /-- The text of the redirect rules, which the service has compiled. -/
  codes : Str
  rules : RedirectRule
  compiled : compile tables codes = .ok rules
  /-- `NewStringUTF`, the Kotlin text of a C string -/
  newStringUTF : Bytes → Str
  newStringUTF_ascii : ∀ b : Bytes, (∀ x ∈ b, x.toNat < 128) → newStringUTF b = b.map fun x => Char.ofNat x.toNat
  hosts : List HostsEntry
  /-- `Process.myUid()` -/
  myUid : Int
  fwd53 : Bool
  rcode : BitVec 4
  maxsessions : Int

/-- `struct allowed`: where to redirect to; an empty `raddr` is none. -/
structure Allowed where
  raddr : Str
  rport : Nat
deriving DecidableEq, Repr

/-- `MyVpnService.addressFromHosts` -/
def Arguments.addressFromHosts (args : Arguments) (host : Str) (version : Nat) : Option Str :=
  (args.hosts.find? fun e => e.version = version && e.regex.matches args.tables host).map (·.address)

/-- `ServiceSinkhole.isDomainBlocked` -/
def isDomainBlocked (_ : Str) : Bool := false

def protocolName (protocol : Nat) : Str :=
  if protocol = 1 ∨ protocol = 58 then "icmp".toList
  else if protocol = 6 then "tcp".toList
  else if protocol = 17 then "udp".toList
  else []

/-- What `isAddressAllowed` reads of a `Packet`; `hostname` is null where no one has set it. -/
structure Packet where
  protocol : Nat
  saddr : Str
  sport : Nat
  daddr : Str
  dport : Nat
  uid : Int
  hostname : Option Str
  tls : Bool
deriving DecidableEq, Repr

/-- `ServiceSinkhole.isAddressAllowed`: the server to redirect to. `redirect` takes no null. -/
def Arguments.isAddressAllowed (args : Arguments) (packet : Packet) : Except JavaException (Option Server) :=
  if packet.uid = args.myUid then .ok none
  else match packet.hostname with
    | none => .error .nullPointer
    | some hostname =>
      args.rules.eval (protocolName packet.protocol) hostname packet.daddr packet.dport packet.saddr packet.sport
        packet.tls packet.uid

/-- `is_address_allowed`: `none` for NULL, which an exception leaves. -/
def Arguments.jniIsAddressAllowed (args : Arguments) (packet : Packet) : Option Allowed :=
  match args.isAddressAllowed packet with
  | .ok none => some ⟨[], 0⟩
  | .ok (some server) => some ⟨server.address, (server.port % 65536).toNat⟩
  | .error _ => none

/-! ## What a step does -/

/-- A socket address; `addr` is `none` where `inet_pton` refused the text, so that the address is
what the stack held. -/
structure Endpoint where
  addr : Option Bytes
  port : Nat
deriving DecidableEq, Repr

/-- The version of the socket for a flow, and the address it is for: the redirect server's, or the
flow's own destination. -/
def socketVersion (flow : Flow) : Option Allowed → Nat
  | none => flow.version
  | some a => if ':' ∈ a.raddr then 6 else 4

def target (flow : Flow) : Option Allowed → Endpoint
  | none => ⟨some flow.daddr, flow.dest⟩
  | some a => ⟨inetPton (if ':' ∈ a.raddr then 6 else 4) a.raddr, a.rport⟩

/-- What a step does with sockets that are open and with the tun. -/
inductive Output where
  | tunWrite (packet : Bytes)
  /-- Bytes `send` took from a TCP session. -/
  | send (id : Nat) (data : Bytes)
  | close (socket : Int)
  | resolved (rr : ResourceRecord)
  | usage (flow : Flow) (protocol : Nat) (uid : Int) (sent received : Nat)
deriving DecidableEq, Repr

inductive Action where
  /-- `socket()` gave a descriptor. -/
  | socket (fd : Int)
  /-- `open_udp_socket` opened a socket for the session at `id`. -/
  | openUdp (id : Nat) (flow : Flow) (redirect : Option Allowed)
  /-- `open_tcp_socket` for the session at `id` called `connect`. -/
  | connect (id : Nat) (dst : Endpoint)
  | sendtoUdp (id : Nat) (data : Bytes) (dst : Endpoint)
  | sendtoIcmp (id : Nat) (message : Bytes) (dst : Endpoint)
  | output (o : Output)
deriving DecidableEq, Repr

/-- The outcome of sending a datagram, which is sent whole or not at all; an error may be one to
retry (`EINTR`, `EAGAIN`). -/
inductive SendtoResult where
  | sent
  | error (retry : Bool)
deriving DecidableEq, Repr

/-- The outcome of `send`: the number of bytes it took, or an error. -/
inductive SendResult where
  | sent (n : Nat)
  | error (retry : Bool)
deriving DecidableEq, Repr

/-- The outcome of `recv`; no data is the end of the stream. -/
inductive RecvResult where
  | data (bytes : Bytes)
  | error (retry : Bool)
deriving DecidableEq, Repr

/-- What the system answers while a packet from the tun is handled: no call is made twice. One
reading of the clock stands for all of a step. -/
structure TunCalls where
  now : Int
  /-- The uid found for a new flow, and the one found with a server name. -/
  uid : Int
  sniUid : Int
  rand : Nat
  socket : Int
  protect : Int
  /-- Whether both `fcntl` calls work. -/
  fcntl : Bool
  /-- Whether `connect` works or is in progress. -/
  connect : Bool
  sendbuf : Int
  unsent : Int
  sendto : SendtoResult
  /-- Whether the tun takes the whole packet. -/
  tunWrite : Bool
  /-- The bytes fresh memory holds. -/
  malloc : Nat → UInt8

/-- What the system answers while an event of a session's socket is handled. The calls of `send` are
numbered in their order, those of `write` by their place in the code. -/
structure SocketCalls where
  now : Int
  err : Bool
  input : Bool
  output : Bool
  recv : RecvResult
  send : Nat → SendResult
  tunWrite : Nat → Bool
  sendbuf : Int
  unsent : Int

/-- `socket()` and then `protect_socket`: the descriptor when both work, and what was opened. -/
def openProtected (calls : TunCalls) : Option Int × List Action :=
  if calls.socket < 0 then (none, [])
  else if calls.protect < 0 then (none, [.socket calls.socket])
  else (some calls.socket, [.socket calls.socket])

end SunProxy.Net
