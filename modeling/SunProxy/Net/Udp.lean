/-
UDP sessions: the session search, `handle_udp` on a packet from the tun, and the checks of a session
and of its socket.
-/
import SunProxy.Net.Dhcp
import SunProxy.Net.Header

namespace SunProxy.Net

open SunProxy.Buffer SunProxy.Kotlin

def UDP_TIMEOUT_53 : Int := 15
def UDP_TIMEOUT_ANY : Int := 300
def UDP_KEEP_TIMEOUT : Int := 60

/-- `IP_MAXPACKET - 20 - 8` and `IPV6_MAXPACKET - 40 - 8` -/
def UDP4_MAXMSG : Nat := 65507
def UDP6_MAXMSG : Nat := 65487

def UdpSession.withState (u : UdpSession) (state : UdpState) : UdpSession := { u with state := state }

def NgSession.withUdp (s : NgSession) (u : UdpSession) : NgSession := { s with data := .udp u }

/-! ## Sessions by flow -/

/-- `has_udp_session` -/
def hasUdpSession (args : Arguments) (ctx : Context) (flow : Flow) : Bool :=
  if flow.dest = 53 ∧ args.fwd53 = false then true else (ctx.findUdp flow).isSome

/-- `block_udp` -/
def blockUdp (ctx : Context) (flow : Flow) (uid now : Int) : Context :=
  ctx.insert (.udp { time := now, uid := uid, mss := 0, sent := 0, received := 0, flow := flow, state := .blocked })
    (-1) ⟨false, false⟩

/-! ## Packets from the tun -/

/-- `open_udp_socket` for the session at `id`; the options set for broadcast and multicast do not make
it fail. -/
def openUdpSocket (id : Nat) (flow : Flow) (redirect : Option Allowed) (calls : TunCalls) :
    Option Int × List Action :=
  match openProtected calls with
  | (none, opened) => (none, opened)
  | (some socket, opened) => (some socket, opened ++ [.openUdp id flow redirect])

def newUdpSession (flow : Flow) (uid : Int) (redirect : Option Allowed) (now : Int) : UdpSession where
  time := now
  uid := uid
  mss := if socketVersion flow redirect = 4 then UDP4_MAXMSG else UDP6_MAXMSG
  sent := 0
  received := 0
  flow := flow
  state := .active

/-- `address_from_hosts`: the bytes of the address, which stay as allocated when `inet_pton` refuses
its text. -/
def addressFromHosts (args : Arguments) (malloc : Nat → UInt8) (name : Bytes) (qtype : Nat) : Option Bytes :=
  let version := if qtype = DNS_QTYPE_A then 4 else 6
  (args.addressFromHosts (args.newStringUTF name) version).map fun address =>
    (inetPton version address).getD ((List.range (dnsAddrlen qtype)).map malloc)

/-- The data of a datagram, as far as the buffer has them. -/
def udpData (pkt : TunPacket) (p : IpPacket) : Bytes := pkt.slice (p.payload + 8) (pkt.rest (p.payload + 8))

/-- The response of the hosts list to a DNS query, if any. -/
def hostsResponse (args : Arguments) (malloc : Nat → UInt8) (flow : Flow) (data : Bytes)
    (datalen : Nat := data.length) : Except Fault (Option Bytes) :=
  if flow.dest = 53 then do
    match ← getDnsQuery data nameBuffer datalen with
    | some query => checkDomain (addressFromHosts args malloc) data query.qclass query.qtype query.qname
    | none => return none
  else .ok none

/-- The DHCP part of `handle_udp`. -/
def dhcpCheck (flow : Flow) (data : Bytes) (datalen : Nat := data.length) : Except Fault (Option DhcpOutcome) :=
  if flow.source = 68 ∨ flow.dest = 67 then checkDhcp flow data datalen else .ok none

/-- The last part of `handle_udp`: the datagram goes to the address that `redirect` gives. A length that
has wrapped is that of no datagram, and `sendto` refuses it. -/
def forwardUdp (ctx : Context) (id : Nat) (u : UdpSession) (redirect : Option Allowed) (data : Bytes) (datalen : Nat)
    (calls : TunCalls) : Context × List Action :=
  let u := { u with time := calls.now }
  if data.length < datalen then (ctx.update id (·.withUdp (u.withState .finishing)), [])
  else
    let u := match calls.sendto with
      | .sent => { u with sent := u.sent + data.length }
      | .error true => u
      | .error false => u.withState .finishing
    (ctx.update id (·.withUdp u), [.sendtoUdp id data (target u.flow redirect)])

/-- `handle_udp` once there is an active session, at `id`. -/
def handleUdpSession (args : Arguments) (ctx : Context) (id : Nat) (u : UdpSession) (redirect : Option Allowed)
    (data : Bytes) (datalen : Nat) (calls : TunCalls) : Except Fault (Context × List Action) := do
  match ← hostsResponse args calls.malloc u.flow data datalen with
  | some response =>
    return (ctx.update id (·.withUdp (u.withState .finishing)), [.output (.tunWrite (udpPacket u.flow response))])
  | none =>
    match ← dhcpCheck u.flow data datalen with
    | some outcome =>
      return (ctx.update id (·.withUdp { u with flow := outcome.flow }),
        outcome.response.toList.map fun response => .output (.tunWrite (udpPacket outcome.flow response)))
    | none => return forwardUdp ctx id u redirect data datalen calls

/-- The part of `handle_udp` for a flow without a session. -/
def createUdp (args : Arguments) (ctx : Context) (flow : Flow) (uid : Int) (redirect : Option Allowed) (data : Bytes)
    (datalen : Nat) (calls : TunCalls) : Except Fault (Context × List Action) :=
  match openUdpSocket ctx.next flow redirect calls with
  | (none, opened) => .ok (ctx.discard, opened)
  | (some socket, opened) => do
    let u := newUdpSession flow uid redirect calls.now
    let ctx' := ctx.insert (.udp u) socket ⟨true, false⟩
    let (ctx', actions) ← handleUdpSession args ctx' ctx.next u redirect data datalen calls
    return (ctx', opened ++ actions)

/-- `handle_udp`; `data` are the bytes in the buffer of the `datalen` that the difference gives. -/
def handleUdp (args : Arguments) (ctx : Context) (flow : Flow) (uid : Int) (redirect : Option Allowed) (data : Bytes)
    (datalen : Nat) (calls : TunCalls) : Except Fault (Context × List Action) :=
  match ctx.findUdp flow with
  | some (id, u) =>
    if u.state ≠ .active then .ok (ctx, []) else handleUdpSession args ctx id u redirect data datalen calls
  | none => createUdp args ctx flow uid redirect data datalen calls

/-! ## Session checks -/

/-- A timeout scaled down as the table fills. -/
def scaledTimeout (timeout sessions maxsessions : Int) : Int :=
  Int.tdiv (timeout * (100 - Int.tdiv (sessions * 100) maxsessions)) 100

def getUdpTimeout (flow : Flow) (sessions maxsessions : Int) : Int :=
  scaledTimeout (if flow.dest = 53 then UDP_TIMEOUT_53 else UDP_TIMEOUT_ANY) sessions maxsessions

/-- The timeout of an active session. -/
def expireUdp (u : UdpSession) (sessions maxsessions now : Int) : UdpSession :=
  if u.state = .active ∧ u.time + getUdpTimeout u.flow sessions maxsessions < now then u.withState .finishing else u

/-- The end of a finishing session, with what is closed. -/
def closeUdp (socket : Int) (u : UdpSession) (now : Int) : Int × UdpSession × List Output :=
  if u.state = .finishing then (-1, { u with time := now, state := .closed }, [.close socket]) else (socket, u, [])

def accountUdp (u : UdpSession) : UdpSession × List Output :=
  if u.state = .closed ∧ (u.sent ≠ 0 ∨ u.received ≠ 0) then
    ({ u with sent := 0, received := 0 }, [.usage u.flow IPPROTO_UDP u.uid u.sent u.received])
  else (u, [])

/-- `check_udp_session`: the session, `none` when it is to be removed. -/
def checkUdpSession (s : NgSession) (u : UdpSession) (sessions maxsessions now : Int) :
    Option NgSession × List Output :=
  let (socket, u, closed) := closeUdp s.socket (expireUdp u sessions maxsessions now) now
  let (u, usage) := accountUdp u
  if (u.state = .closed ∨ u.state = .blocked) ∧ u.time + UDP_KEEP_TIMEOUT < now then (none, closed ++ usage)
  else (some { s with data := .udp u, socket := socket }, closed ++ usage)

/-! ## Socket events -/

def dnsArgs (args : Arguments) : DnsArgs where
  isDomainBlocked := fun name => isDomainBlocked (args.newStringUTF name)
  rcode := args.rcode

/-- What is done with the bytes of a response: over port 53 they are parsed. -/
def processDns (args : Arguments) (flow : Flow) (bytes : Bytes) : Except Fault DnsReply :=
  if flow.dest = 53 then parseDnsResponse (dnsArgs args) bytes else .ok (.unchanged [] bytes)

/-- The part of `check_udp_socket` after a `recv` that gave data. -/
def receiveUdp (args : Arguments) (u : UdpSession) (bytes : Bytes) (calls : SocketCalls) :
    Except Fault (UdpSession × List Output) := do
  let u := { u with received := u.received + bytes.length }
  let reply ← processDns args u.flow bytes
  let u := if calls.tunWrite 0 = false ∨ u.flow.dest = 53 then u.withState .finishing else u
  return (u, reply.resolved.map .resolved ++ [.tunWrite (udpPacket u.flow (reply.data.take reply.datalen))])

/-- `check_udp_socket` -/
def checkUdpSocket (args : Arguments) (u : UdpSession) (calls : SocketCalls) :
    Except Fault (UdpSession × List Output) :=
  if calls.err then .ok ({ u with time := calls.now, state := .finishing }, [])
  else if calls.input then
    let u := { u with time := calls.now }
    match calls.recv with
    | .error retry => .ok (if retry then u else u.withState .finishing, [])
    | .data bytes =>
      if bytes = [] then .ok (u.withState .finishing, []) else receiveUdp args u (bytes.take u.mss) calls
  else .ok (u, [])

end SunProxy.Net
