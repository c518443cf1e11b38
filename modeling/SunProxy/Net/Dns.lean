/-
DNS messages: the packed header with its bit-fields, the name reader `get_qname` of the engine, its
response parser, and the query reader and hosts answer of sunproxy.c. Every access is one to the
buffer of the message or to the 256 bytes the callers give for a name. `datalen` is what the code takes
for the length of the message: that of its buffer, unless the caller's difference has wrapped.
-/
import SunProxy.Lib.Buffer
import SunProxy.Lib.Result
import SunProxy.Net.Ntop

namespace SunProxy.Net

open SunProxy.Buffer SunProxy.Kotlin SunProxy.Result

def DNS_QCLASS_IN : Nat := 1
def DNS_QTYPE_A : Nat := 1
def DNS_QTYPE_AAAA : Nat := 28
def DNS_SVCB : Nat := 64
def DNS_HTTPS : Nat := 65
def DNS_QNAME_MAX : Nat := 255
def DNS_TTL : Nat := 600

/-! ## The header -/

/-- The packed `struct dns_header`, the counts in host order. -/
structure DnsHeader where
  id : UInt16
  rd : Bool
  tc : Bool
  aa : Bool
  opcode : BitVec 4
  qr : Bool
  rcode : BitVec 4
  cd : Bool
  ad : Bool
  z : Bool
  ra : Bool
  qCount : UInt16
  ansCount : UInt16
  authCount : UInt16
  addCount : UInt16
deriving DecidableEq, Repr

namespace DnsHeader

/-- The third byte; on a little-endian target the first bit-field is the lowest bit. -/
def flagsLow (h : DnsHeader) : UInt8 :=
  UInt8.ofNat (h.rd.toNat + 2 * h.tc.toNat + 4 * h.aa.toNat + 8 * h.opcode.toNat + 128 * h.qr.toNat)

/-- The fourth byte. -/
def flagsHigh (h : DnsHeader) : UInt8 :=
  UInt8.ofNat (h.rcode.toNat + 16 * h.cd.toNat + 32 * h.ad.toNat + 64 * h.z.toNat + 128 * h.ra.toNat)

def bytes (h : DnsHeader) : Bytes :=
  be16 h.id.toNat ++ [h.flagsLow, h.flagsHigh] ++ be16 h.qCount.toNat ++ be16 h.ansCount.toNat ++
    be16 h.authCount.toNat ++ be16 h.addCount.toNat

/-- The bit `k` of a flag byte. -/
def bit (b : UInt8) (k : Nat) : Bool := b.toNat.testBit k

def read (data : Bytes) : Except Fault DnsHeader := do
  let id ← loadBe16 data 0
  let low ← load data 2
  let high ← load data 3
  let qCount ← loadBe16 data 4
  let ansCount ← loadBe16 data 6
  let authCount ← loadBe16 data 8
  let addCount ← loadBe16 data 10
  return {
    id := UInt16.ofNat id
    rd := bit low 0, tc := bit low 1, aa := bit low 2, qr := bit low 7
    opcode := BitVec.ofNat 4 (low.toNat / 8), rcode := BitVec.ofNat 4 high.toNat
    cd := bit high 4, ad := bit high 5, z := bit high 6, ra := bit high 7
    qCount := UInt16.ofNat qCount, ansCount := UInt16.ofNat ansCount
    authCount := UInt16.ofNat authCount, addCount := UInt16.ofNat addCount }

end DnsHeader

/-! ## Names -/

/-- The locals of `get_qname`. -/
structure QnameState where
  /-- Whether a pointer has been followed; from then on `off` is the end of the name. -/
  c : Bool
  off : Nat
  noff : Nat
  ptr : Nat
  len : UInt8
  qname : Bytes
deriving DecidableEq, Repr

/-- The loop of `get_qname`; `left` is `26 - count`, so the 27th label or pointer breaks it. -/
def qnameLoop (data : Bytes) (left : Nat) (s : QnameState) (datalen : Nat := data.length) : Except Fault QnameState :=
  match left with
  | 0 => .ok s
  | left + 1 =>
    if s.len = 0 then .ok s
    else if s.ptr + 1 < datalen ∧ s.len &&& 0xC0 ≠ 0 then do
      let low ← load data (s.ptr + 1)
      let jump := (s.len &&& 0x3F).toNat * 256 + low.toNat
      if datalen ≤ jump then .ok s
      else
        let len ← load data jump
        let off := if s.c then s.off else (s.off + 2) % 65536
        qnameLoop data left { s with ptr := jump, len := len, c := true, off := off } datalen
    else if s.ptr + 1 + s.len.toNat < datalen ∧ s.noff + s.len.toNat ≤ DNS_QNAME_MAX then do
      let label ← loadBytes data (s.ptr + 1) s.len.toNat
      let qname ← storeBytes s.qname s.noff (label ++ [46])
      let noff := (s.noff + s.len.toNat + 1) % 256
      let jump := (s.ptr + 1 + s.len.toNat) % 65536
      if datalen ≤ jump then .ok { s with qname := qname, noff := noff }
      else
        let len ← load data jump
        qnameLoop data left { s with qname := qname, noff := noff, ptr := jump, len := len } datalen
    else .ok s

/-- `get_qname`: the offset after the name as written at `off`, or `none` for -1, and the buffer. -/
def getQname (data : Bytes) (off : Nat) (qname : Bytes) (datalen : Nat := data.length) :
    Except Fault (Option Nat × Bytes) := do
  let qname ← storeBytes qname 0 [0]
  if datalen ≤ off then return (none, qname)
  let len ← load data off
  let s ← qnameLoop data 26 { c := false, off := off, noff := 0, ptr := off, len := len, qname := qname } datalen
  if s.len ≠ 0 ∨ s.noff = 0 then return (none, s.qname)
  let qname ← storeBytes s.qname (s.noff - 1) [0]
  return (some (if s.c then s.off else (s.ptr + 1) % 65536), qname)

/-! ## Queries -/

structure DnsQuery where
  qtype : Nat
  qclass : Nat
  qname : Bytes
deriving DecidableEq, Repr

/-- The question of a datagram that ends right after it, read after `get_qname`. -/
def questionAt (data : Bytes) (off : Option Nat) (qname : Bytes) (datalen : Nat := data.length) :
    Except Fault (Option DnsQuery) :=
  match off with
  | some off =>
    if 0 < off ∧ off + 4 = datalen then do
      let qtype ← loadBe16 data off
      let qclass ← loadBe16 data (off + 2)
      return some { qtype := qtype, qclass := qclass, qname := qname }
    else .ok none
  | none => .ok none

/-- `get_dns_query`; `none` is -1. -/
def getDnsQuery (data : Bytes) (qname : Bytes) (datalen : Nat := data.length) : Except Fault (Option DnsQuery) :=
  if datalen < 13 then .ok none
  else do
    let dns ← DnsHeader.read data
    if dns.qr = false ∧ dns.opcode = 0 ∧ 0 < dns.qCount then
      let (off, qname) ← getQname data 12 qname datalen
      questionAt data off qname datalen
    else .ok none

/-- The packed `struct dns_rr`, every field in host order. -/
structure DnsRr where
  qnamePtr : Nat
  qtype : Nat
  qclass : Nat
  ttl : Nat
  rdlength : Nat

def DnsRr.bytes (rr : DnsRr) : Bytes :=
  be16 rr.qnamePtr ++ be16 rr.qtype ++ be16 rr.qclass ++ be32 rr.ttl ++ be16 rr.rdlength

/-- The header of an answer to a query with header `rh`. -/
def responseHeader (rh : DnsHeader) : DnsHeader :=
  { rh with
    qr := true, aa := false, tc := false, rd := false, ra := false, z := false, ad := false, cd := false
    rcode := 0, ansCount := 1, authCount := 0, addCount := 0 }

def dnsAddrlen (qtype : Nat) : Nat := if qtype = DNS_QTYPE_A then 4 else 16

/-- The response `check_domain` builds when `addressFromHosts` has an address for the name. -/
def buildResponse (data : Bytes) (qclass qtype : Nat) (addr : Bytes) : Except Fault Bytes := do
  let rh ← DnsHeader.read data
  let answer : DnsRr :=
    { qnamePtr := 0xC00C, qtype := qtype, qclass := qclass, ttl := DNS_TTL, rdlength := dnsAddrlen qtype }
  return (responseHeader rh).bytes ++ data.drop 12 ++ answer.bytes ++ addr

/-- `check_domain`: the response it hands to `write_udp`, `none` when it returns 0. It is called for a
datagram that ends right after its question, so that `datalen` is the length of the buffer. -/
def checkDomain (addressFromHosts : Bytes → Nat → Option Bytes) (data : Bytes) (qclass qtype : Nat) (name : Bytes) :
    Except Fault (Option Bytes) :=
  if qclass ≠ DNS_QCLASS_IN ∨ (qtype ≠ DNS_QTYPE_A ∧ qtype ≠ DNS_QTYPE_AAAA) then .ok none
  else match addressFromHosts (cString name) qtype with
    | none => .ok none
    | some addr => do
      let response ← buildResponse data qclass qtype addr
      return some response

/-! ## Responses -/

/-- What `dns_resolved` is given. -/
structure ResourceRecord where
  qname : Bytes
  aname : Bytes
  resource : Str
  ttl : Int
  uid : Int
deriving DecidableEq, Repr

/-- A 32-bit number as an `int`. -/
def int32 (n : Nat) : Int := if n < 0x80000000 then n else n - 0x100000000

/-- The answer loop of `parse_dns_response`: the records it reports, and `svcb` when it ends without an
early return. `name` is the buffer of the owner names. -/
def parseAnswers (data qname : Bytes) (acount off : Nat) (name : Bytes) (svcb : Bool) :
    Except Fault (List ResourceRecord × Option Bool) :=
  match acount with
  | 0 => .ok ([], some svcb)
  | acount + 1 => do
    let (next, name) ← getQname data (off % 65536) name
    match next with
    | none => .ok ([], none)
    | some off =>
      if 0 < off ∧ off + 10 ≤ data.length then
        let qtype ← loadBe16 data off
        let qclass ← loadBe16 data (off + 2)
        let ttl ← loadBe32 data (off + 4)
        let rdlength ← loadBe16 data (off + 8)
        let off := off + 10
        if off + rdlength ≤ data.length then
          if qclass = DNS_QCLASS_IN ∧ (qtype = DNS_QTYPE_A ∨ qtype = DNS_QTYPE_AAAA) then
            if off + dnsAddrlen qtype ≤ data.length then
              let rd ← loadBytes data off (dnsAddrlen qtype)
              let (rest, done) ← parseAnswers data qname acount (off + rdlength) name svcb
              .ok ({ qname := cString qname, aname := cString name, resource := inetNtop rd,
                     ttl := int32 ttl, uid := -1 } :: rest, done)
            else .ok ([], none)
          else if qclass = DNS_QCLASS_IN ∧ (qtype = DNS_SVCB ∨ qtype = DNS_HTTPS) then
            parseAnswers data qname acount (off + rdlength) name true
          else parseAnswers data qname acount (off + rdlength) name svcb
        else .ok ([], none)
      else .ok ([], none)

/-- What a response handler may read of `struct arguments`: the answer of the Kotlin side to
`is_domain_blocked`, and the response code given to blocked names. -/
structure DnsArgs where
  isDomainBlocked : Bytes → Bool
  rcode : BitVec 4

/-- The outcome of `parse_dns_response`: what it reports, and the buffer and `datalen` it leaves. -/
structure DnsReply where
  resolved : List ResourceRecord
  data : Bytes
  datalen : Nat
deriving DecidableEq, Repr

/-- The outcome that leaves the buffer as it is. -/
def DnsReply.unchanged (resolved : List ResourceRecord) (data : Bytes) : DnsReply := ⟨resolved, data, data.length⟩

/-- The header of a response whose answers are taken away. -/
def blockedHeader (rcode : BitVec 4) (dns : DnsHeader) : DnsHeader :=
  { dns with
    qr := true, aa := false, tc := false, rd := false, ra := false, z := false, ad := false, cd := false
    rcode := rcode, ansCount := 0, authCount := 0, addCount := 0 }

/-- The buffer of a name on the stack; what is in it before `get_qname` is never read. -/
def nameBuffer : Bytes := List.replicate (DNS_QNAME_MAX + 1) 0

/-- The part of `parse_dns_response` after the question, which ends at `aoff`. -/
def parseAfterQuestion (args : DnsArgs) (data : Bytes) (dns : DnsHeader) (aoff : Nat) (name : Bytes) :
    Except Fault DnsReply := do
  let (resolved, done) ← parseAnswers data name dns.ansCount.toNat aoff name false
  match done with
  | some svcb =>
    if svcb || args.isDomainBlocked (cString name) then
      return { resolved := resolved, data := (blockedHeader args.rcode dns).bytes ++ data.drop 12, datalen := aoff }
    else return .unchanged resolved data
  | none => return .unchanged resolved data

def parseDnsResponse (args : DnsArgs) (data : Bytes) : Except Fault DnsReply :=
  if data.length < 13 then .ok (.unchanged [] data)
  else do
    let dns ← DnsHeader.read data
    if dns.qr = true ∧ dns.opcode = 0 ∧ 0 < dns.qCount ∧ 0 < dns.ansCount then
      let (off, name) ← getQname data 12 nameBuffer
      match off with
      | some off =>
        if 0 < off ∧ off + 4 ≤ data.length then parseAfterQuestion args data dns (off + 4) name
        else .ok (.unchanged [] data)
      | none => .ok (.unchanged [] data)
    else .ok (.unchanged [] data)

theorem length_dnsHeader (h : DnsHeader) : h.bytes.length = 12 := by
  simp [DnsHeader.bytes]

/-- What becomes of the buffer of a response: nothing, or it gets another header and ends after the
question. -/
inductive Filtered (args : DnsArgs) (data : Bytes) (reply : DnsReply) : Prop
  | kept (same : reply.data = data) (datalen : reply.datalen = data.length)
  | blocked {dns : DnsHeader} {off : Nat} {name : Bytes} (long : 13 ≤ data.length)
    (read : DnsHeader.read data = .ok dns)
      (question : getQname data 12 nameBuffer = .ok (some off, name)) (inside : off + 4 ≤ data.length)
      (rewritten : reply.data = (blockedHeader args.rcode dns).bytes ++ data.drop 12)
        (datalen : reply.datalen = off + 4)

theorem filtered_parseDnsResponse {args : DnsArgs} {data : Bytes} {reply : DnsReply}
    (h : parseDnsResponse args data = .ok reply) : Filtered args data reply := by
  unfold parseDnsResponse at h
  split at h
  · cases h
    exact .kept rfl rfl
  · rename_i hlong
    obtain ⟨dns, hread, h⟩ := bind_eq_ok h
    split at h
    · obtain ⟨⟨next, name⟩, hname, h⟩ := bind_eq_ok h
      cases next with
      | none =>
        cases h
        exact .kept rfl rfl
      | some off =>
        dsimp only at h
        split at h
        · rename_i hoff
          unfold parseAfterQuestion at h
          obtain ⟨⟨resolved, done⟩, -, h⟩ := bind_eq_ok h
          cases done with
          | none =>
            cases h
            exact .kept rfl rfl
          -- all answers were parsed
          | some svcb =>
            dsimp only at h
            split at h
            · cases h
              exact .blocked (by omega) hread hname hoff.2 rfl rfl
            · cases h
              exact .kept rfl rfl
        · cases h
          exact .kept rfl rfl
    · cases h
      exact .kept rfl rfl

/-- The buffer keeps its length. -/
theorem length_parseDnsResponse {args : DnsArgs} {data : Bytes} {reply : DnsReply}
    (h : parseDnsResponse args data = .ok reply) : reply.data.length = data.length := by
  cases filtered_parseDnsResponse h with
  | kept same _ => rw [same]
  | blocked long _ _ _ rewritten _ =>
    rw [rewritten, List.length_append, length_dnsHeader, List.length_drop]
    omega

end SunProxy.Net
