/-
ICMP sessions: `handle_icmp` on a packet from the tun, and the checks of a session and of its socket.
-/
import SunProxy.Net.Udp

namespace SunProxy.Net

open SunProxy.Buffer

def ICMP_TIMEOUT : Int := 5
def ICMP_ECHO : Nat := 8

/-- `IP_MAXPACKET - 20 - 8` and `IPV6_MAXPACKET - 40 - 8` -/
def ICMP4_MAXMSG : Nat := 65507
def ICMP6_MAXMSG : Nat := 65487

def NgSession.icmp? (s : NgSession) : Option IcmpSession :=
  match s.data with
  | .icmp i => some i
  | _ => none

def NgSession.withIcmp (s : NgSession) (i : IcmpSession) : NgSession := { s with data := .icmp i }

/-- The search of `handle_icmp`. -/
def Context.findIcmp (ctx : Context) (p : IpPacket) : Option (Nat × IcmpSession) :=
  ctx.sessions.findSome? fun s =>
    (s.icmp?.filter fun i => !i.stop && (i.version = p.version && (i.saddr = p.saddr && i.daddr = p.daddr))).map
      (s.id, ·)

/-! ## Packets from the tun -/

def openIcmpSocket (calls : TunCalls) : Option Int × List Action := openProtected calls

/-- An ICMP message with another id, and its checksum made new on top of `csum`. What would be written
behind the end of a short message is not part of it. -/
def withIcmpId (message : Bytes) (id csum : Nat) : Bytes :=
  let plain := (message.take 2 ++ [0, 0] ++ be16 id ++ message.drop 6).take message.length
  (message.take 2 ++ checkBytes (calcChecksum csum plain) ++ be16 id ++ message.drop 6).take message.length

/-- The sum over the pseudo-header of an IPv6 packet, with the payload length and the next header as
they stand in its header. -/
def icmpPseudoSum (pkt : TunPacket) (p : IpPacket) : Except Fault Nat :=
  if p.version = 6 then do
    let plen ← loadBytes pkt.buffer 4 2
    let next ← load pkt.buffer 6
    return calcChecksum 0 (p.daddr ++ p.saddr ++ plen ++ [0, 0] ++ [0, 0, 0, next])
  else .ok 0

/-- The last part of `handle_icmp`. -/
def forwardIcmp (ctx : Context) (id : Nat) (i : IcmpSession) (p : IpPacket) (message : Bytes) (calls : TunCalls) :
    Context × List Action :=
  let i := { i with time := calls.now }
  let i := match calls.sendto with
    | .error false => { i with stop := true }
    | _ => i
  (ctx.update id (·.withIcmp i), [.sendtoIcmp id message ⟨some p.daddr, 0⟩])

def newIcmpSession (p : IpPacket) (uid now : Int) (id : Nat) : IcmpSession where
  time := now
  uid := uid
  version := p.version
  saddr := p.saddr
  daddr := p.daddr
  id := id
  stop := false

/-- `handle_icmp` -/
def handleIcmp (ctx : Context) (pkt : TunPacket) (p : IpPacket) (uid : Int) (calls : TunCalls) :
    Except Fault (Context × List Action) := do
  let icmpType ← load pkt.buffer p.payload
  if icmpType.toNat ≠ ICMP_ECHO then return (ctx, [])
  let id ← loadBe16 pkt.buffer (p.payload + 4)
  let csum ← icmpPseudoSum pkt p
  -- the checksum is taken of all `icmplen` bytes
  let message ← loadBytes pkt.buffer p.payload (pkt.rest p.payload)
  let message := withIcmpId message (65535 - id) csum
  match ctx.findIcmp p with
  | some (sid, i) => return forwardIcmp ctx sid i p message calls
  | none =>
    match openIcmpSocket calls with
    | (none, opened) => return (ctx.discard, opened)
    | (some socket, opened) =>
      let i := newIcmpSession p uid calls.now id
      let (ctx', actions) := forwardIcmp (ctx.insert (.icmp i) socket ⟨true, false⟩) ctx.next i p message calls
      return (ctx', opened ++ actions)

/-! ## Session checks and socket events -/

def getIcmpTimeout (sessions maxsessions : Int) : Int := scaledTimeout ICMP_TIMEOUT sessions maxsessions

/-- `check_icmp_session`: the session, `none` when it is to be removed. -/
def checkIcmpSession (s : NgSession) (i : IcmpSession) (sessions maxsessions now : Int) :
    Option NgSession × List Output :=
  if i.stop = true ∨ i.time + getIcmpTimeout sessions maxsessions < now then (none, [.close s.socket]) else (some s, [])

/-- An answer from the network with the id of the session. The length field of the IPv6 pseudo-header
is the 32-bit difference as the target holds it. -/
def icmpAnswer (i : IcmpSession) (bytes : Bytes) : Bytes :=
  let len := (((bytes.length : Int) - 40) % 4294967296).toNat
  let csum := if i.version = 6 then
      calcChecksum 0 (i.daddr ++ i.saddr ++ (be32 len).reverse ++ [0, 0, 0, UInt8.ofNat IPPROTO_ICMPV6])
    else 0
  withIcmpId bytes i.id csum

/-- `check_icmp_socket` -/
def checkIcmpSocket (i : IcmpSession) (calls : SocketCalls) : IcmpSession × List Output :=
  if calls.err then ({ i with time := calls.now, stop := true }, [])
  else if calls.input then
    let i := { i with time := calls.now }
    match calls.recv with
    | .error retry => (if retry then i else { i with stop := true }, [])
    | .data bytes =>
      if bytes = [] then ({ i with stop := true }, [])
      else
        let bytes := bytes.take (if i.version = 4 then ICMP4_MAXMSG else ICMP6_MAXMSG)
        let i := if calls.tunWrite 0 then i else { i with stop := true }
        (i, [.tunWrite (icmpPacket i (icmpAnswer i bytes))])
  else (i, [])

end SunProxy.Net
