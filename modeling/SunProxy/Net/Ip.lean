/-
`handle_ip`: which packets are dropped, which are asked about, and which handler gets them with which
redirection.
-/
import SunProxy.Net.Icmp
import SunProxy.Net.ServerName
import SunProxy.Net.TcpSocket

namespace SunProxy.Net

open SunProxy.Buffer SunProxy.Kotlin

def isIcmp (protocol : Nat) : Bool := protocol = IPPROTO_ICMP || protocol = IPPROTO_ICMPV6

/-- The packets that the limit of sessions applies to, and whose uid is looked up. -/
def startsFlow (args : Arguments) (ctx : Context) (p : IpPacket) (ports : Ports) : Bool :=
  isIcmp p.protocol || ((p.protocol = IPPROTO_UDP && !hasUdpSession args ctx (flowOf p ports)) ||
    (p.protocol = IPPROTO_TCP && ports.syn))

/-- The data of a TCP packet as `handle_ip` finds it: its offset and length. -/
def tcpRange (pkt : TunPacket) (p : IpPacket) : Except Fault (Nat × Nat) := do
  let doff ← load pkt.buffer (p.payload + 12)
  let data := tcpData p.payload (doff.toNat / 16)
  return (data, tcpDatalen pkt data)

/-- What the data of a packet tells of the host: `server_name` and `use_tls` as `get_sni` leaves them,
and the name in an HTTP request. -/
structure HostInfo where
  serverName : Bytes
  tls : Bool
  httpHost : Bytes
deriving DecidableEq, Repr

/-- What is known of the host without data to look at. -/
def noHost : HostInfo := ⟨[], false, []⟩

/-- The search for a server name. -/
def sniInfo (pkt : TunPacket) (p : IpPacket) : Except Fault HostInfo :=
  if p.protocol = IPPROTO_TCP then do
    let (data, datalen) ← tcpRange pkt p
    let sni ← getSni pkt.buffer data datalen
    return { serverName := cString (sni.getD []), tls := sni.isSome, httpHost := [] }
  else .ok noHost

/-- The uid of a packet; -1 when it is not looked up. -/
def packetUid (args : Arguments) (ctx : Context) (p : IpPacket) (ports : Ports) (host : HostInfo) (calls : TunCalls) :
    Int :=
  if startsFlow args ctx p ports then calls.uid else if host.tls then calls.sniUid else -1

/-- Whether a packet passes without being asked about. -/
def assumedAllowed (args : Arguments) (ctx : Context) (p : IpPacket) (ports : Ports) (host : HostInfo) (uid : Int) :
    Bool :=
  (p.protocol = IPPROTO_UDP && hasUdpSession args ctx (flowOf p ports)) ||
    (p.protocol = IPPROTO_TCP && ((!ports.syn || (uid = 0 && ports.dport = 53)) && host.serverName = []))

/-- What the rules are told of the host. For an HTTP name is looked when they are asked about a packet of
TCP without a server name. -/
def hostInfo (args : Arguments) (ctx : Context) (pkt : TunPacket) (p : IpPacket) (ports : Ports) (calls : TunCalls) :
    Except Fault HostInfo := do
  let host ← sniInfo pkt p
  if p.protocol = IPPROTO_TCP ∧ host.serverName = [] ∧
      assumedAllowed args ctx p ports host (packetUid args ctx p ports host calls) = false then
    let (data, datalen) ← tcpRange pkt p
    let name ← httpHost pkt.buffer data datalen
    return { host with httpHost := name }
  else return host

/-- `create_packet_ulysses` for a packet from the tun. -/
def createPacket (args : Arguments) (p : IpPacket) (ports : Ports) (host : HostInfo) (uid : Int) : Packet where
  protocol := p.protocol
  saddr := inetNtop p.saddr
  sport := ports.sport
  daddr := inetNtop p.daddr
  dport := ports.dport
  uid := uid
  hostname := some (args.newStringUTF
    (if host.serverName = [] ∧ p.protocol = IPPROTO_TCP then host.httpHost else host.serverName))
  tls := host.tls

/-- An answer of `is_address_allowed` without an address or a port redirects nowhere. -/
def redirectOf : Option Allowed → Option Allowed
  | none => none
  | some a => if a.raddr = [] ∨ a.rport = 0 then none else some a

/-- `allowed` and `redirect`. -/
structure Verdict where
  allowed : Bool
  redirect : Option Allowed
deriving DecidableEq, Repr

def verdict (args : Arguments) (ctx : Context) (p : IpPacket) (ports : Ports) (host : HostInfo) (uid : Int) : Verdict :=
  if assumedAllowed args ctx p ports host uid then ⟨true, none⟩
  else
    let answer := args.jniIsAddressAllowed (createPacket args p ports host uid)
    let blocked := host.serverName ≠ [] && isDomainBlocked (args.newStringUTF host.serverName)
    ⟨answer.isSome && !blocked, redirectOf answer⟩

/-- The last part of `handle_ip`. -/
def dispatch (args : Arguments) (ctx : Context) (pkt : TunPacket) (p : IpPacket) (ports : Ports) (host : HostInfo)
    (uid : Int) (v : Verdict) (calls : TunCalls) : Except Fault (Context × List Action) :=
  if v.allowed then
    if isIcmp p.protocol then handleIcmp ctx pkt p uid calls
    else if p.protocol = IPPROTO_UDP then
      handleUdp args ctx (flowOf p ports) uid v.redirect (udpData pkt p) (pkt.rest (p.payload + 8)) calls
    else if p.protocol = IPPROTO_TCP then handleTcp ctx pkt p.payload (flowOf p ports) uid true v.redirect calls
    else .ok (ctx, [])
  else if p.protocol = IPPROTO_UDP then .ok (blockUdp ctx (flowOf p ports) uid calls.now, [])
  else if p.protocol = IPPROTO_TCP ∧ host.serverName ≠ [] then
    handleTcp ctx pkt p.payload (flowOf p ports) uid false v.redirect calls
  else .ok (ctx, [])

/-- The record `handle_ip` reports for a server name. -/
def reportSni (p : IpPacket) (host : HostInfo) (calls : TunCalls) : List Action :=
  if host.tls then
    [.output (.resolved { qname := host.serverName, aname := host.serverName, resource := inetNtop p.daddr, ttl := -1,
                          uid := calls.sniUid })]
  else []

/-- `handle_ip` once the ports of the packet are known. -/
def handlePacket (args : Arguments) (ctx : Context) (sessions : Int) (pkt : TunPacket) (p : IpPacket) (ports : Ports)
    (calls : TunCalls) : Except Fault (Context × List Action) :=
  if args.maxsessions ≤ sessions ∧ startsFlow args ctx p ports = true then .ok (ctx, [])
  else do
    let host ← hostInfo args ctx pkt p ports calls
    let uid := packetUid args ctx p ports host calls
    let (ctx', actions) ← dispatch args ctx pkt p ports host uid (verdict args ctx p ports host uid) calls
    return (ctx', reportSni p host calls ++ actions)

/-- `handle_ip` -/
def handleIp (args : Arguments) (ctx : Context) (sessions : Int) (pkt : TunPacket) (calls : TunCalls) :
    Except Fault (Context × List Action) := do
  match ← parseIp pkt with
  | none => return (ctx, [])
  | some p =>
    match ← readPorts pkt p with
    | none => return (ctx, [])
    | some ports => handlePacket args ctx sessions pkt p ports calls

end SunProxy.Net
