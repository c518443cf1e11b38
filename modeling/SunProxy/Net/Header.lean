/-
The first part of `handle_ip`: the protocol, the addresses, where the payload of a packet starts, and
its ports. Offsets count from the start of the buffer that the packet was read to. What lies behind the
packet is read as well, where the code does not compare with the length.
-/
import SunProxy.Net.Wire

namespace SunProxy.Net

open SunProxy.Buffer

/-! ## Packets from the tun -/

/-- What `check_tun` hands to `handle_ip`: the buffer, and `length`, the bytes of it that were read. -/
structure TunPacket where
  buffer : Bytes
  length : Nat
  inside : length ≤ buffer.length

namespace TunPacket

/-- A packet with nothing behind it in the buffer. -/
def alone (bytes : Bytes) : TunPacket := ⟨bytes, bytes.length, Nat.le_refl _⟩

instance : Coe Bytes TunPacket := ⟨alone⟩

/-- A packet with other bytes behind it. -/
def followed (bytes tail : Bytes) : TunPacket :=
  ⟨bytes ++ tail, bytes.length, by rw [List.length_append]; exact Nat.le_add_right ..⟩

/-- The packet as it is read to a buffer of `n` bytes. -/
def take (pkt : TunPacket) (n : Nat) : TunPacket where
  buffer := pkt.buffer.take n
  length := min n pkt.length
  inside := by
    rw [List.length_take]
    exact le_min (min_le_left ..) ((min_le_right ..).trans pkt.inside)

/-- The bytes of the packet. -/
def bytes (pkt : TunPacket) : Bytes := pkt.buffer.take pkt.length

/-- `length - (data - pkt)` as a `size_t`: behind the end of the packet the difference wraps. -/
def rest (pkt : TunPacket) (data : Nat) : Nat := (((pkt.length : Int) - data) % 18446744073709551616).toNat

/-- What the buffer holds of the `datalen` bytes at `data`. -/
def slice (pkt : TunPacket) (data datalen : Nat) : Bytes := (pkt.buffer.drop data).take datalen

section Alone

variable (bytes : Bytes)

@[simp] theorem buffer_alone : (alone bytes).buffer = bytes := rfl
@[simp] theorem length_alone : (alone bytes).length = bytes.length := rfl
@[simp] theorem bytes_alone : (alone bytes).bytes = bytes := List.take_length

end Alone

theorem length_bytes (pkt : TunPacket) : pkt.bytes.length = pkt.length := by
  rw [bytes, List.length_take, Nat.min_eq_left pkt.inside]

end TunPacket

/-! ## The IP header -/

def isLowerLayer (protocol : Nat) : Bool :=
  protocol = 0 || protocol = 60 || protocol = 43 || protocol = 44 || protocol = 51 || protocol = 50 || protocol = 135

def isUpperLayer (protocol : Nat) : Bool :=
  protocol = IPPROTO_TCP || protocol = IPPROTO_UDP || protocol = IPPROTO_ICMP || protocol = IPPROTO_ICMPV6

structure IpPacket where
  version : Nat
  protocol : Nat
  saddr : Bytes
  daddr : Bytes
  /-- The offset of the payload. -/
  payload : Nat
deriving DecidableEq, Repr

/-- The loop over extension headers, at the one at `off`. Every round goes on by eight bytes or more,
so that the length of the buffer is enough fuel. -/
def skipExtensions (pkt : TunPacket) : Nat → Nat → Nat → Except Fault (Nat × Nat)
  | 0, off, _ => .error (.read off)
  | fuel + 1, off, protocol => do
    let next ← load pkt.buffer off
    if isLowerLayer next.toNat && !isUpperLayer protocol then
      let len ← load pkt.buffer (off + 1)
      skipExtensions pkt fuel ((off + 8 + len.toNat) % 65536) next.toNat
    else return (off, protocol)

def IP_MF : Nat := 0x2000

/-- `(x - 5) * 4` as a `uint8_t`, for a header length of `x` words. -/
def optionLength (words : Nat) : Nat := (4 * words + 236) % 256

def parseIp4 (pkt : TunPacket) : Except Fault (Option IpPacket) :=
  if pkt.length < 20 then .ok none
  else do
    let first ← load pkt.buffer 0
    let totLen ← loadBe16 pkt.buffer 2
    -- `frag_off` as the target holds it
    let low ← load pkt.buffer 6
    let high ← load pkt.buffer 7
    let protocol ← load pkt.buffer 9
    let saddr ← loadBytes pkt.buffer 12 4
    let daddr ← loadBytes pkt.buffer 16 4
    if (low.toNat + 256 * high.toNat) &&& IP_MF ≠ 0 then return none
    if totLen ≠ pkt.length then return none
    return some {
      version := 4, protocol := protocol.toNat, saddr := saddr, daddr := daddr
      payload := 20 + optionLength (first.toNat % 16) }

/-- The protocol of an IPv6 packet and the `off` its payload is after, besides the header. -/
def extensionOffset (pkt : TunPacket) (next : Nat) : Except Fault (Nat × Nat) :=
  if isUpperLayer next then .ok (0, next)
  else do
    let (off, protocol) ← skipExtensions pkt pkt.buffer.length 40 next
    return if isUpperLayer protocol then (off, protocol) else (0, next)

def parseIp6 (pkt : TunPacket) : Except Fault (Option IpPacket) :=
  if pkt.length < 40 then .ok none
  else do
    let next ← load pkt.buffer 6
    let saddr ← loadBytes pkt.buffer 8 16
    let daddr ← loadBytes pkt.buffer 24 16
    let (off, protocol) ← extensionOffset pkt next.toNat
    return some { version := 6, protocol := protocol, saddr := saddr, daddr := daddr, payload := 40 + off }

/-- The packets `handle_ip` goes on with. -/
def parseIp (pkt : TunPacket) : Except Fault (Option IpPacket) := do
  let first ← load pkt.buffer 0
  if first.toNat / 16 = 4 then parseIp4 pkt
  else if first.toNat / 16 = 6 then parseIp6 pkt
  else return none

/-! ## Ports -/

structure Ports where
  sport : Nat
  dport : Nat
  syn : Bool
deriving DecidableEq, Repr

/-- `length - (payload - pkt) < size`, unsigned: a payload behind the end is not too short. -/
def tooShort (pkt : TunPacket) (payload size : Nat) : Bool := payload ≤ pkt.length && pkt.length - payload < size

def icmpPorts (pkt : TunPacket) (payload : Nat) : Except Fault (Option Ports) :=
  if tooShort pkt payload 8 then .ok none
  else do
    let id ← loadBe16 pkt.buffer (payload + 4)
    return some ⟨id, id, false⟩

def udpPorts (pkt : TunPacket) (payload : Nat) : Except Fault (Option Ports) :=
  if tooShort pkt payload 8 then .ok none
  else do
    let sport ← loadBe16 pkt.buffer payload
    let dport ← loadBe16 pkt.buffer (payload + 2)
    return some ⟨sport, dport, false⟩

def tcpPorts (pkt : TunPacket) (payload : Nat) : Except Fault (Option Ports) :=
  if tooShort pkt payload 20 then .ok none
  else do
    let sport ← loadBe16 pkt.buffer payload
    let dport ← loadBe16 pkt.buffer (payload + 2)
    let flags ← load pkt.buffer (payload + 13)
    return some ⟨sport, dport, flags.toNat.testBit 1⟩

/-- The ports and the SYN flag of a packet, `none` when it is too short for them. -/
def readPorts (pkt : TunPacket) (p : IpPacket) : Except Fault (Option Ports) :=
  if p.protocol = IPPROTO_ICMP ∨ p.protocol = IPPROTO_ICMPV6 then icmpPorts pkt p.payload
  else if p.protocol = IPPROTO_UDP then udpPorts pkt p.payload
  else if p.protocol = IPPROTO_TCP then tcpPorts pkt p.payload
  else .ok (some ⟨0, 0, false⟩)

def flowOf (p : IpPacket) (ports : Ports) : Flow := ⟨p.version, p.saddr, ports.sport, p.daddr, ports.dport⟩

/-! ## The TCP header -/

structure TcpHeader where
  seq : Nat
  ackSeq : Nat
  doff : Nat
  fin : Bool
  syn : Bool
  rst : Bool
  psh : Bool
  ack : Bool
  urg : Bool
  window : Nat
deriving DecidableEq, Repr

def readTcpHeader (pkt : TunPacket) (payload : Nat) : Except Fault TcpHeader := do
  let seq ← loadBe32 pkt.buffer (payload + 4)
  let ackSeq ← loadBe32 pkt.buffer (payload + 8)
  let doff ← load pkt.buffer (payload + 12)
  let flags ← load pkt.buffer (payload + 13)
  let window ← loadBe16 pkt.buffer (payload + 14)
  return {
    seq := seq, ackSeq := ackSeq, doff := doff.toNat / 16, fin := flags.toNat.testBit 0, syn := flags.toNat.testBit 1
    rst := flags.toNat.testBit 2, psh := flags.toNat.testBit 3, ack := flags.toNat.testBit 4
    urg := flags.toNat.testBit 5, window := window }

/-- The offset of the data of a TCP segment. -/
def tcpData (payload doff : Nat) : Nat := payload + 20 + optionLength doff

/-- `datalen`, the rest of the packet as a `uint16_t`. -/
def tcpDatalen (pkt : TunPacket) (data : Nat) : Nat := (((pkt.length : Int) - data) % 65536).toNat

end SunProxy.Net
