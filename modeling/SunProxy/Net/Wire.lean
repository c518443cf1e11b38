/-
The packets the engine writes to the tun: the checksum, and `write_icmp`, `write_udp` and
`write_tcp` up to the call of `write`.
-/
import SunProxy.Net.Session

namespace SunProxy.Net

open SunProxy.Buffer

def IPPROTO_ICMP : Nat := 1
def IPPROTO_TCP : Nat := 6
def IPPROTO_UDP : Nat := 17
def IPPROTO_ICMPV6 : Nat := 58
def IPDEFTTL : UInt8 := 64

/-! ## The checksum -/

/-- The 16-bit words of a buffer as a little-endian target reads them; an odd last byte is a word. -/
def wordsLe : Bytes → List Nat
  | lo :: hi :: rest => (lo.toNat + 256 * hi.toNat) :: wordsLe rest
  | [b] => [b.toNat]
  | [] => []

/-- The loop that adds the carries back; three rounds are enough for a 32-bit sum. -/
def foldCarry : Nat → Nat → Nat
  | 0, sum => sum
  | n + 1, sum => if sum / 65536 = 0 then sum else foldCarry n (sum % 65536 + sum / 65536)

def calcChecksum (start : Nat) (buffer : Bytes) : Nat :=
  foldCarry 3 ((wordsLe buffer).foldl (fun sum w => (sum + w) % 4294967296) start)

theorem foldCarry_lt {sum : Nat} (h : sum < 4294967296) : foldCarry 3 sum < 65536 := by
  simp only [foldCarry]
  split_ifs <;> omega

/-- A checksum as it is stored, `~csum`, by a little-endian target. -/
def checkBytes (csum : Nat) : Bytes := [UInt8.ofNat (65535 - csum), UInt8.ofNat ((65535 - csum) / 256)]

/-! ## IP headers -/

/-- The IPv4 header of a packet of `len` bytes, from `saddr` to `daddr`, with the checksum bytes `check`. -/
def ip4Header (len : Nat) (protocol : Nat) (check saddr daddr : Bytes) : Bytes :=
  [0x45, 0] ++ be16 len ++ [0, 0, 0, 0, IPDEFTTL, UInt8.ofNat protocol] ++ check ++ saddr ++ daddr

/-- The header with its checksum. -/
def ip4Packet (protocol : Nat) (saddr daddr payload : Bytes) : Bytes :=
  let len := 20 + payload.length
  let check := checkBytes (calcChecksum 0 (ip4Header len protocol [0, 0] saddr daddr))
  ip4Header len protocol check saddr daddr ++ payload

def ip6Packet (protocol : Nat) (saddr daddr payload : Bytes) : Bytes :=
  [0x60, 0, 0, 0] ++ be16 payload.length ++ [UInt8.ofNat protocol, IPDEFTTL] ++ saddr ++ daddr ++ payload

def ipPacket (version protocol : Nat) (saddr daddr payload : Bytes) : Bytes :=
  if version = 4 then ip4Packet protocol saddr daddr payload else ip6Packet protocol saddr daddr payload

/-- The sum over the pseudo-header of a payload of `len` bytes. Over IPv6 the addresses are swapped
and the 16-bit length fills a 32-bit field. -/
def pseudoSum (version protocol : Nat) (saddr daddr : Bytes) (len : Nat) : Nat :=
  if version = 4 then calcChecksum 0 (saddr ++ daddr ++ [0, UInt8.ofNat protocol] ++ be16 len)
  else calcChecksum 0 (daddr ++ saddr ++ be16 len ++ [0, 0] ++ [0, 0, 0, UInt8.ofNat protocol])

/-! ## The packets -/

/-- The packet of `write_icmp`. -/
def icmpPacket (s : IcmpSession) (data : Bytes) : Bytes :=
  ipPacket s.version (if s.version = 4 then IPPROTO_ICMP else IPPROTO_ICMPV6) s.daddr s.saddr data

def udpHeader (flow : Flow) (datalen : Nat) (check : Bytes) : Bytes :=
  be16 flow.dest ++ be16 flow.source ++ be16 (8 + datalen) ++ check

/-- The packet of `write_udp`. -/
def udpPacket (flow : Flow) (data : Bytes) : Bytes :=
  let csum := pseudoSum flow.version IPPROTO_UDP flow.daddr flow.saddr (8 + data.length)
  let csum := calcChecksum csum (udpHeader flow data.length [0, 0])
  let csum := calcChecksum csum data
  ipPacket flow.version IPPROTO_UDP flow.daddr flow.saddr (udpHeader flow data.length (checkBytes csum) ++ data)

def getMtu : Nat := 10000

def getDefaultMss (version : Nat) : Nat := if version = 4 then getMtu - 20 - 20 else getMtu - 40 - 20

/-- The flags `write_tcp` is called with. -/
structure TcpFlags where
  syn : Bool
  ack : Bool
  fin : Bool
  rst : Bool
deriving DecidableEq, Repr

/-- The options of a SYN; the maximum segment size is stored as the target holds it. -/
def tcpOptions (s : TcpSession) (syn : Bool) : Bytes :=
  if syn then
    [2, 4, UInt8.ofNat (getDefaultMss s.flow.version), UInt8.ofNat (getDefaultMss s.flow.version / 256),
     3, 3, UInt8.ofNat s.recvScale, 0]
  else []

def tcpHeader (s : TcpSession) (f : TcpFlags) (check : Bytes) : Bytes :=
  be16 s.flow.dest ++ be16 s.flow.source ++ be32 s.localSeq ++ be32 (if f.ack then s.remoteSeq else 0) ++
    [UInt8.ofNat ((20 + (tcpOptions s f.syn).length) / 4 * 16),
     UInt8.ofNat (f.fin.toNat + 2 * f.syn.toNat + 4 * f.rst.toNat + 16 * f.ack.toNat)] ++
    be16 (s.recvWindow >>> s.recvScale) ++ check ++ [0, 0]

/-- The packet of `write_tcp`. -/
def tcpPacket (s : TcpSession) (data : Bytes) (f : TcpFlags) : Bytes :=
  let options := tcpOptions s f.syn
  let csum := pseudoSum s.flow.version IPPROTO_TCP s.flow.daddr s.flow.saddr (20 + options.length + data.length)
  let csum := calcChecksum csum (tcpHeader s f [0, 0])
  let csum := calcChecksum csum options
  let csum := calcChecksum csum data
  ipPacket s.flow.version IPPROTO_TCP s.flow.daddr s.flow.saddr
    (tcpHeader s f (checkBytes csum) ++ options ++ data)

end SunProxy.Net
