/-
A response of `check_domain` read back: it answers the query it was built from, and the engine's own
parser reports the one record in it, as long as the name has at most 25 labels.
-/
import SunProxy.Net.DnsName

namespace SunProxy.Net

open SunProxy.Buffer SunProxy.Kotlin

/-! ## The header -/

namespace DnsHeader

theorem length_bytes (h : DnsHeader) : h.bytes.length = 12 := rfl

theorem bits_flagsLow (h : DnsHeader) :
    bit h.flagsLow 0 = h.rd ∧ bit h.flagsLow 1 = h.tc ∧ bit h.flagsLow 2 = h.aa ∧ bit h.flagsLow 7 = h.qr ∧
      BitVec.ofNat 4 (h.flagsLow.toNat / 8) = h.opcode := by
  have key : ∀ (rd tc aa qr : Bool) (op : BitVec 4),
      let b := UInt8.ofNat (rd.toNat + 2 * tc.toNat + 4 * aa.toNat + 8 * op.toNat + 128 * qr.toNat)
      bit b 0 = rd ∧ bit b 1 = tc ∧ bit b 2 = aa ∧ bit b 7 = qr ∧ BitVec.ofNat 4 (b.toNat / 8) = op := by
    decide +kernel
  exact key h.rd h.tc h.aa h.qr h.opcode

theorem bits_flagsHigh (h : DnsHeader) :
    bit h.flagsHigh 4 = h.cd ∧ bit h.flagsHigh 5 = h.ad ∧ bit h.flagsHigh 6 = h.z ∧ bit h.flagsHigh 7 = h.ra ∧
      BitVec.ofNat 4 h.flagsHigh.toNat = h.rcode := by
  have key : ∀ (cd ad z ra : Bool) (rcode : BitVec 4),
      let b := UInt8.ofNat (rcode.toNat + 16 * cd.toNat + 32 * ad.toNat + 64 * z.toNat + 128 * ra.toNat)
      bit b 4 = cd ∧ bit b 5 = ad ∧ bit b 6 = z ∧ bit b 7 = ra ∧ BitVec.ofNat 4 b.toNat = rcode := by
    decide +kernel
  exact key h.cd h.ad h.z h.ra h.rcode

/-- A header is read back as it was written. -/
theorem read_bytes (h : DnsHeader) (rest : Bytes) : read (h.bytes ++ rest) = .ok h := by
  obtain ⟨hrd, htc, haa, hqr, hop⟩ := h.bits_flagsLow
  obtain ⟨hcd, had, hz, hra, hrc⟩ := h.bits_flagsHigh
  have hid : loadBe16 (h.bytes ++ rest) 0 = .ok h.id.toNat :=
    loadBe16_append [] _ rfl h.id.toNat_lt
  have hlow : load (h.bytes ++ rest) 2 = .ok h.flagsLow := rfl
  have hhigh : load (h.bytes ++ rest) 3 = .ok h.flagsHigh := rfl
  have hq : loadBe16 (h.bytes ++ rest) 4 = .ok h.qCount.toNat :=
    loadBe16_append (h.bytes.take 4) _ rfl h.qCount.toNat_lt
  have han : loadBe16 (h.bytes ++ rest) 6 = .ok h.ansCount.toNat :=
    loadBe16_append (h.bytes.take 6) _ rfl h.ansCount.toNat_lt
  have hau : loadBe16 (h.bytes ++ rest) 8 = .ok h.authCount.toNat :=
    loadBe16_append (h.bytes.take 8) _ rfl h.authCount.toNat_lt
  have had' : loadBe16 (h.bytes ++ rest) 10 = .ok h.addCount.toNat :=
    loadBe16_append (h.bytes.take 10) _ rfl h.addCount.toNat_lt
  simp only [read, hid, hlow, hhigh, hq, han, hau, had', bind, Except.bind, pure, Except.pure, hrd, htc, haa, hqr, hop,
    hcd, had, hz, hra, hrc, UInt16.ofNat_toNat]

/-- Every twelve bytes are a header. -/
theorem exists_eq_bytes (b0 b1 low high b4 b5 b6 b7 b8 b9 b10 b11 : UInt8) :
    ∃ h : DnsHeader, [b0, b1, low, high, b4, b5, b6, b7, b8, b9, b10, b11] = h.bytes := by
  have hlow : ∀ n < 256, ((n.testBit 0).toNat + 2 * (n.testBit 1).toNat + 4 * (n.testBit 2).toNat + 8 * (n / 8 % 16) +
      128 * (n.testBit 7).toNat) = n := by decide +kernel
  have hhigh : ∀ n < 256, (n % 16 + 16 * (n.testBit 4).toNat + 32 * (n.testBit 5).toNat + 64 * (n.testBit 6).toNat +
      128 * (n.testBit 7).toNat) = n := by decide +kernel
  have hword : ∀ hi lo : UInt8, be16 (UInt16.ofNat (hi.toNat * 256 + lo.toNat)).toNat = [hi, lo] := by
    intro hi lo
    have h1 := hi.toNat_lt
    have h2 := lo.toNat_lt
    have e1 : (hi.toNat * 256 + lo.toNat) / 256 = hi.toNat := by omega
    have e2 : UInt8.ofNat (hi.toNat * 256 + lo.toNat) = lo := by
      apply UInt8.toNat_inj.mp
      rw [UInt8.toNat_ofNat']
      omega
    rw [UInt16.toNat_ofNat', Nat.mod_eq_of_lt (by omega), be16, e1, e2, UInt8.ofNat_toNat]
  refine ⟨{
    id := UInt16.ofNat (b0.toNat * 256 + b1.toNat)
    rd := bit low 0, tc := bit low 1, aa := bit low 2, qr := bit low 7
    opcode := BitVec.ofNat 4 (low.toNat / 8), rcode := BitVec.ofNat 4 high.toNat
    cd := bit high 4, ad := bit high 5, z := bit high 6, ra := bit high 7
    qCount := UInt16.ofNat (b4.toNat * 256 + b5.toNat), ansCount := UInt16.ofNat (b6.toNat * 256 + b7.toNat)
    authCount := UInt16.ofNat (b8.toNat * 256 + b9.toNat)
    addCount := UInt16.ofNat (b10.toNat * 256 + b11.toNat) }, ?_⟩
  simp only [bytes, flagsLow, flagsHigh, bit, hword, BitVec.toNat_ofNat, Nat.reducePow, hlow low.toNat low.toNat_lt,
    hhigh high.toNat high.toNat_lt, UInt8.ofNat_toNat]
  rfl

end DnsHeader

/-! ## Queries and their answers -/

/-- A query datagram with one uncompressed question for an address. -/
structure AddressQuery where
  header : DnsHeader
  labels : List Bytes
  qtype : Nat
  qCount : header.qCount = 1
  wellFormed : Labels labels
  wire : (wireName labels).length ≤ 255
  isAddress : qtype = DNS_QTYPE_A ∨ qtype = DNS_QTYPE_AAAA

namespace AddressQuery

def question (q : AddressQuery) : Bytes := wireName q.labels ++ be16 q.qtype ++ be16 DNS_QCLASS_IN

def datagram (q : AddressQuery) : Bytes := q.header.bytes ++ q.question

theorem datagram_eq (q : AddressQuery) :
    q.datagram = q.header.bytes ++ (wireName q.labels ++ (be16 q.qtype ++ (be16 DNS_QCLASS_IN ++ []))) := by
  simp [datagram, question]

theorem length_datagram (q : AddressQuery) : q.datagram.length = 12 + (wireName q.labels).length + 4 := by
  simp only [datagram, question, List.length_append, DnsHeader.length_bytes, length_be16]
  omega

theorem qtype_lt (q : AddressQuery) : q.qtype < 65536 := by
  rcases q.isAddress with h | h <;> rw [h] <;> decide

/-- `r` is an answer to `q` with `addr`, and the engine's parser reads that answer from it. -/
structure AnsweredBy (q : AddressQuery) (addr r : Bytes) : Prop where
  /-- The id is the query's, `qr` is set, and there is one answer and nothing else. -/
  header : ∃ h, DnsHeader.read r = .ok h ∧ h.id = q.header.id ∧ h.qr = true ∧ h.qCount = 1 ∧ h.ansCount = 1 ∧
    h.authCount = 0 ∧ h.addCount = 0
  question : (r.drop 12).take q.question.length = q.question
  resolved : ∀ args, ∃ out, parseDnsResponse args r = .ok out ∧
    out.resolved = [{ qname := nameText q.labels, aname := nameText q.labels, resource := inetNtop addr,
                      ttl := 600, uid := -1 }]

/-- Whatever the hosts address, an accepted query gets a response that answers it. -/
def DecodesBack (q : AddressQuery) : Prop :=
  ∀ buf d addressFromHosts addr, buf.length = 256 → getDnsQuery q.datagram buf = .ok (some d) →
    addressFromHosts (nameText q.labels) q.qtype = some addr → addr.length = dnsAddrlen q.qtype →
      ∃ r, checkDomain addressFromHosts q.datagram d.qclass d.qtype d.qname = .ok (some r) ∧ q.AnsweredBy addr r

/-! ## Reading the query -/

theorem getQname_root (q : AddressQuery) (h : q.labels = []) (buf : Bytes) (hbuf : buf.length = 256) :
    ∃ name, getQname q.datagram 12 buf = .ok (none, name) := by
  have hload : load q.datagram 12 = .ok 0 := by
    have hhead := load_wireHead q.header.bytes (be16 q.qtype ++ (be16 DNS_QCLASS_IN ++ [])) q.labels
    rw [← q.datagram_eq, h] at hhead
    exact hhead
  have hlen := q.length_datagram
  have hfirst : storeBytes buf 0 [0] = .ok (overwrite buf 0 [0]) := storeBytes_fits (by simp; omega)
  refine ⟨overwrite buf 0 [0], ?_⟩
  unfold getQname
  simp only [hfirst, show ¬ q.datagram.length ≤ 12 by omega, if_false, hload, bind, Except.bind, pure, Except.pure,
    qnameLoop_root _ 26 (s := ⟨false, 12, 0, 12, 0, overwrite buf 0 [0]⟩) rfl, or_true, if_true]

/-- What an accepted query must be. -/
theorem of_getDnsQuery {q : AddressQuery} {buf : Bytes} {d : DnsQuery} (hbuf : buf.length = 256)
    (h : getDnsQuery q.datagram buf = .ok (some d)) :
    q.header.qr = false ∧ q.header.opcode = 0 ∧ q.labels ≠ [] := by
  unfold getDnsQuery at h
  split_ifs at h with hshort
  · cases h
  have hread : DnsHeader.read q.datagram = .ok q.header := q.header.read_bytes q.question
  simp only [hread, bind, Except.bind] at h
  split_ifs at h with hflags
  swap
  · cases h
  refine ⟨hflags.1, hflags.2.1, ?_⟩
  intro hroot
  obtain ⟨name, hname⟩ := q.getQname_root hroot buf hbuf
  simp only [hname, questionAt] at h
  cases h

theorem getDnsQuery_datagram {q : AddressQuery} (hqr : q.header.qr = false) (hop : q.header.opcode = 0)
    (hne : q.labels ≠ []) (h26 : q.labels.length ≤ 26) {buf : Bytes} (hbuf : buf.length = 256) :
    ∃ name, getDnsQuery q.datagram buf = .ok (some ⟨q.qtype, DNS_QCLASS_IN, name⟩) ∧
      cString name = nameText q.labels := by
  have hlen := q.length_datagram
  have hwire := q.wire
  have hread : DnsHeader.read q.datagram = .ok q.header := q.header.read_bytes q.question
  have hcount : 0 < q.header.qCount := by rw [q.qCount]; decide
  obtain ⟨name, hname, htext, -⟩ := getQname_wire q.wellFormed hne h26 hwire q.header.bytes
    (be16 q.qtype ++ (be16 DNS_QCLASS_IN ++ [])) (by rw [DnsHeader.length_bytes]; decide) hbuf
  rw [← q.datagram_eq, DnsHeader.length_bytes] at hname
  have hqtype : loadBe16 q.datagram (12 + (wireName q.labels).length) = .ok q.qtype := by
    have h := loadBe16_append (q.header.bytes ++ wireName q.labels) (be16 DNS_QCLASS_IN ++ [])
      (i := 12 + (wireName q.labels).length) (by simp [DnsHeader.length_bytes]) q.qtype_lt
    rw [List.append_assoc, ← q.datagram_eq] at h
    exact h
  have hqclass : loadBe16 q.datagram (12 + (wireName q.labels).length + 2) = .ok DNS_QCLASS_IN := by
    have h := loadBe16_append (q.header.bytes ++ wireName q.labels ++ be16 q.qtype) []
      (n := DNS_QCLASS_IN) (i := 12 + (wireName q.labels).length + 2)
      (by simp only [List.length_append, DnsHeader.length_bytes, length_be16]) (by decide)
    rw [List.append_assoc, List.append_assoc, ← q.datagram_eq] at h
    exact h
  refine ⟨name, ?_, htext⟩
  unfold getDnsQuery
  simp only [show ¬ q.datagram.length < 13 by omega, if_false, hread, hqr, hop, hcount, and_self, if_true, hname,
    questionAt, hqtype, hqclass, bind, Except.bind, pure, Except.pure,
    show 0 < 12 + (wireName q.labels).length ∧ 12 + (wireName q.labels).length + 4 = q.datagram.length by omega]

/-! ## Reading the response -/

/-- The response to `q` with the address `addr`. -/
def response (q : AddressQuery) (addr : Bytes) : Bytes :=
  (responseHeader q.header).bytes ++ (wireName q.labels ++ (be16 q.qtype ++ (be16 DNS_QCLASS_IN ++
    (be16 0xC00C ++ (be16 q.qtype ++ (be16 DNS_QCLASS_IN ++ (be32 DNS_TTL ++ (be16 (dnsAddrlen q.qtype) ++
      (addr ++ [])))))))))

theorem buildResponse_datagram (q : AddressQuery) (addr : Bytes) :
    buildResponse q.datagram DNS_QCLASS_IN q.qtype addr = .ok (q.response addr) := by
  have hread : DnsHeader.read q.datagram = .ok q.header := q.header.read_bytes q.question
  have hdrop : q.datagram.drop 12 = q.question := rfl
  simp only [buildResponse, hread, hdrop, bind, Except.bind, pure, Except.pure, DnsRr.bytes, response, question,
    List.append_assoc, List.append_nil]

theorem checkDomain_datagram (q : AddressQuery) (addressFromHosts : Bytes → Nat → Option Bytes) {addr name : Bytes}
    (hname : cString name = nameText q.labels) (hhosts : addressFromHosts (nameText q.labels) q.qtype = some addr) :
    checkDomain addressFromHosts q.datagram DNS_QCLASS_IN q.qtype name = .ok (some (q.response addr)) := by
  have htype : ¬(DNS_QCLASS_IN ≠ DNS_QCLASS_IN ∨ (q.qtype ≠ DNS_QTYPE_A ∧ q.qtype ≠ DNS_QTYPE_AAAA)) := by
    rcases q.isAddress with h | h <;> simp [h]
  unfold checkDomain
  simp only [htype, if_false, hname, hhosts, buildResponse_datagram, bind, Except.bind, pure, Except.pure]

theorem dnsAddrlen_lt (qtype : Nat) : dnsAddrlen qtype < 65536 := by
  unfold dnsAddrlen
  split_ifs <;> decide

theorem length_response (q : AddressQuery) (addr : Bytes) :
    (q.response addr).length = 12 + (wireName q.labels).length + 16 + addr.length := by
  simp only [response, List.length_append, DnsHeader.length_bytes, length_be16, length_be32, List.length_nil]
  omega

/-- The engine's parser finds the one record of the response. -/
theorem parseAnswers_response {q : AddressQuery} (hne : q.labels ≠ []) (short : q.labels.length ≤ 25) {addr : Bytes}
    (haddr : addr.length = dnsAddrlen q.qtype) {qname name : Bytes} (hq : cString qname = nameText q.labels)
    (hname : name.length = 256) :
    parseAnswers (q.response addr) qname 1 (12 + (wireName q.labels).length + 4) name false =
      .ok ([{ qname := nameText q.labels, aname := nameText q.labels, resource := inetNtop addr, ttl := 600,
              uid := -1 }], some false) := by
  have hwire := q.wire
  have hlen := q.length_response addr
  have hrd := dnsAddrlen_lt q.qtype
  obtain ⟨pre, hpre, hr⟩ : ∃ pre : Bytes, pre.length = 12 + (wireName q.labels).length + 4 ∧
      q.response addr = pre ++ (be16 0xC00C ++ (be16 q.qtype ++ (be16 DNS_QCLASS_IN ++ (be32 DNS_TTL ++
        (be16 (dnsAddrlen q.qtype) ++ (addr ++ [])))))) := by
    refine ⟨(responseHeader q.header).bytes ++ (wireName q.labels ++ (be16 q.qtype ++ be16 DNS_QCLASS_IN)), ?_, ?_⟩
    · simp only [List.length_append, DnsHeader.length_bytes, length_be16]
      omega
    · simp only [response, List.append_assoc]
  -- the owner name is the pointer to the question
  obtain ⟨owner, howner, htext, -⟩ : ReadsName (q.response addr) (12 + (wireName q.labels).length + 4) name q.labels
      ((12 + (wireName q.labels).length + 4 + 2) % 65536) := by
    have h0 : load (q.response addr) (12 + (wireName q.labels).length + 4) = .ok 0xC0 := by
      rw [hr]
      exact load_append pre _ hpre.symm
    have h1 : load (q.response addr) (12 + (wireName q.labels).length + 4 + 1) = .ok 0x0C := by
      have h := load_append (pre ++ [0xC0])
        (be16 q.qtype ++ (be16 DNS_QCLASS_IN ++ (be32 DNS_TTL ++ (be16 (dnsAddrlen q.qtype) ++ (addr ++ [])))))
        (b := 0x0C) (i := 12 + (wireName q.labels).length + 4 + 1)
        (by simp only [List.length_append, hpre, List.length_cons, List.length_nil])
      rw [List.append_assoc] at h
      rw [hr]
      exact h
    exact getQname_pointer q.wellFormed hne short hwire
      (show q.response addr = (responseHeader q.header).bytes ++ (wireName q.labels ++ _) from rfl)
      (by rw [DnsHeader.length_bytes]; decide) h0 h1 (by omega) (by decide)
        (by rw [DnsHeader.length_bytes]; decide) hname
  rw [Nat.mod_eq_of_lt (by omega)] at howner
  have hqtype : loadBe16 (q.response addr) (12 + (wireName q.labels).length + 4 + 2) = .ok q.qtype := by
    rw [hr, ← List.append_assoc]
    exact loadBe16_append _ _ (by simp only [List.length_append, hpre, length_be16]) q.qtype_lt
  have hqclass : loadBe16 (q.response addr) (12 + (wireName q.labels).length + 4 + 2 + 2) = .ok DNS_QCLASS_IN := by
    rw [hr, ← List.append_assoc, ← List.append_assoc]
    exact loadBe16_append _ _ (by simp only [List.length_append, hpre, length_be16]) (by decide)
  have httl : loadBe32 (q.response addr) (12 + (wireName q.labels).length + 4 + 2 + 4) = .ok DNS_TTL := by
    rw [hr, ← List.append_assoc, ← List.append_assoc, ← List.append_assoc]
    exact loadBe32_append _ _ (by simp only [List.length_append, hpre, length_be16]) (by decide)
  have hrdlength : loadBe16 (q.response addr) (12 + (wireName q.labels).length + 4 + 2 + 8) =
      .ok (dnsAddrlen q.qtype) := by
    rw [hr, ← List.append_assoc, ← List.append_assoc, ← List.append_assoc, ← List.append_assoc]
    exact loadBe16_append _ _ (by simp only [List.length_append, hpre, length_be16, length_be32]) hrd
  have hdata : loadBytes (q.response addr) (12 + (wireName q.labels).length + 4 + 2 + 10) (dnsAddrlen q.qtype) =
      .ok addr := by
    rw [hr, ← List.append_assoc, ← List.append_assoc, ← List.append_assoc, ← List.append_assoc, ← List.append_assoc]
    exact loadBytes_append _ _ (by simp only [List.length_append, hpre, length_be16, length_be32]) haddr.symm
  have htype : DNS_QCLASS_IN = DNS_QCLASS_IN ∧ (q.qtype = DNS_QTYPE_A ∨ q.qtype = DNS_QTYPE_AAAA) :=
    ⟨rfl, q.isAddress⟩
  have hshort : 12 + (wireName q.labels).length + 4 < 65536 := by omega
  unfold parseAnswers
  simp only [Nat.mod_eq_of_lt hshort, howner, hqtype, hqclass, httl, hrdlength, hdata, htype, hq, htext, bind,
    Except.bind, if_true, parseAnswers, and_self,
    show 0 < 12 + (wireName q.labels).length + 4 + 2 ∧
      12 + (wireName q.labels).length + 4 + 2 + 10 ≤ (q.response addr).length by omega,
    show 12 + (wireName q.labels).length + 4 + 2 + 10 + dnsAddrlen q.qtype ≤ (q.response addr).length by omega]
  rfl

theorem parseDnsResponse_response {q : AddressQuery} (hop : q.header.opcode = 0) (hne : q.labels ≠ [])
    (short : q.labels.length ≤ 25) {addr : Bytes} (haddr : addr.length = dnsAddrlen q.qtype) (args : DnsArgs) :
    ∃ out, parseDnsResponse args (q.response addr) = .ok out ∧
      out.resolved = [{ qname := nameText q.labels, aname := nameText q.labels, resource := inetNtop addr,
                        ttl := 600, uid := -1 }] := by
  have hlen := q.length_response addr
  have hwire := q.wire
  have hread : DnsHeader.read (q.response addr) = .ok (responseHeader q.header) := DnsHeader.read_bytes _ _
  have hflags : (responseHeader q.header).qr = true ∧ (responseHeader q.header).opcode = 0 ∧
      0 < (responseHeader q.header).qCount ∧ 0 < (responseHeader q.header).ansCount := by
    refine ⟨rfl, hop, ?_, (by decide : (0 : UInt16) < 1)⟩
    show 0 < q.header.qCount
    rw [q.qCount]
    decide
  -- the question, and then the one answer, which points back to it
  obtain ⟨name, hname, htext, hlength⟩ : ReadsName (q.response addr) 12 nameBuffer q.labels
      (12 + (wireName q.labels).length) :=
    getQname_wire q.wellFormed hne (by omega) hwire (responseHeader q.header).bytes _
      (by rw [DnsHeader.length_bytes]; decide) length_nameBuffer
  have hanswers := parseAnswers_response hne short haddr htext hlength
  have hafter : ∃ out, parseAfterQuestion args (q.response addr) (responseHeader q.header)
      (12 + (wireName q.labels).length + 4) name = .ok out ∧
        out.resolved = [{ qname := nameText q.labels, aname := nameText q.labels, resource := inetNtop addr,
                          ttl := 600, uid := -1 }] := by
    have hcount : (responseHeader q.header).ansCount.toNat = 1 := rfl
    unfold parseAfterQuestion
    simp only [hcount, hanswers, bind, Except.bind, pure, Except.pure, Bool.false_or]
    split_ifs
    · exact ⟨_, rfl, rfl⟩
    · exact ⟨_, rfl, rfl⟩
  obtain ⟨out, hout, hresolved⟩ := hafter
  refine ⟨out, ?_, hresolved⟩
  unfold parseDnsResponse
  simp only [show ¬ (q.response addr).length < 13 by omega, if_false, hread, hflags, and_self, if_true, hname, hout,
    bind, Except.bind,
    show 0 < 12 + (wireName q.labels).length ∧
      12 + (wireName q.labels).length + 4 ≤ (q.response addr).length by omega]

theorem answeredBy_response {q : AddressQuery} (hop : q.header.opcode = 0) (hne : q.labels ≠ [])
    (short : q.labels.length ≤ 25) {addr : Bytes} (haddr : addr.length = dnsAddrlen q.qtype) :
    q.AnsweredBy addr (q.response addr) where
  header := ⟨responseHeader q.header, DnsHeader.read_bytes _ _, rfl, rfl, q.qCount, rfl, rfl, rfl⟩
  question := by
    have hdrop : (q.response addr).drop 12 = q.question ++ (be16 0xC00C ++ (be16 q.qtype ++ (be16 DNS_QCLASS_IN ++
        (be32 DNS_TTL ++ (be16 (dnsAddrlen q.qtype) ++ (addr ++ [])))))) := by
      rw [response, List.drop_left' (DnsHeader.length_bytes _)]
      simp only [question, List.append_assoc]
    rw [hdrop, List.take_left]
  resolved := parseDnsResponse_response hop hne short haddr

/-- A query for a name of at most 25 labels gets an answer that decodes back. -/
theorem decodesBack (q : AddressQuery) (short : q.labels.length ≤ 25) : q.DecodesBack := by
  intro buf d addressFromHosts addr hbuf hd hhosts haddr
  obtain ⟨hqr, hop, hne⟩ := of_getDnsQuery hbuf hd
  obtain ⟨name, hname, htext⟩ := getDnsQuery_datagram hqr hop hne (by omega) hbuf
  obtain rfl : d = ⟨q.qtype, DNS_QCLASS_IN, name⟩ := by
    rw [hname] at hd
    exact (Option.some.inj (Except.ok.inj hd)).symm
  exact ⟨q.response addr, checkDomain_datagram q addressFromHosts htext hhosts, answeredBy_response hop hne short haddr⟩

theorem labels_letters (n : Nat) : Labels (List.replicate n [97]) := by
  intro l hl
  rw [List.eq_of_mem_replicate hl]
  decide

theorem length_dots_letters (n : Nat) : (dots (List.replicate n [97])).length = 2 * n := by
  induction n with
  | zero => rfl
  | succ n ih =>
    have hcons : dots (List.replicate (n + 1) [97]) = 97 :: 46 :: dots (List.replicate n [97]) := rfl
    rw [hcons, List.length_cons, List.length_cons, ih]
    omega

theorem wire_letters {n : Nat} (h : n ≤ 126) : (wireName (List.replicate n [97])).length ≤ 255 := by
  rw [length_wireName, length_dots_letters]
  omega

/-- A query for the address of a name of `n` labels of one letter. -/
def letters (n : Nat) (h : n ≤ 126) : AddressQuery where
  header :=
    { id := 1, rd := true, tc := false, aa := false, opcode := 0, qr := false, rcode := 0, cd := false, ad := false,
      z := false, ra := false, qCount := 1, ansCount := 0, authCount := 0, addCount := 0 }
  labels := List.replicate n [97]
  qtype := DNS_QTYPE_A
  qCount := rfl
  wellFormed := labels_letters n
  wire := wire_letters h
  isAddress := Or.inl rfl

theorem decodesBack_letters : ∃ d r, getDnsQuery (letters 25 (by decide)).datagram nameBuffer = .ok (some d) ∧
    checkDomain (fun _ _ => some [10, 0, 0, 1]) (letters 25 (by decide)).datagram d.qclass d.qtype d.qname = .ok
    (some r) ∧
    (letters 25 (by decide)).AnsweredBy [10, 0, 0, 1] r := by
  obtain ⟨name, hname, -⟩ := getDnsQuery_datagram (q := letters 25 (by decide)) rfl rfl (by decide) (by decide)
    length_nameBuffer
  obtain ⟨r, hr, hanswered⟩ :=
    decodesBack (letters 25 (by decide)) (by decide) nameBuffer _ (fun _ _ => some [10, 0, 0, 1])
    [10, 0, 0, 1] length_nameBuffer hname rfl rfl
  exact ⟨_, r, hname, hr, hanswered⟩

/-- The name of the query is read where it stands, but no longer behind the pointer of the answer. -/
theorem not_decodesBack_letters : ¬ (letters 26 (by decide)).DecodesBack := by
  intro h
  obtain ⟨name, hname, htext⟩ := getDnsQuery_datagram (q := letters 26 (by decide)) rfl rfl (by decide) (by decide)
    length_nameBuffer
  obtain ⟨r, hr, hanswered⟩ :=
    h nameBuffer _ (fun _ _ => some [10, 0, 0, 1]) [10, 0, 0, 1] length_nameBuffer hname rfl rfl
  have hresponse := checkDomain_datagram (letters 26 (by decide)) (fun _ _ => some [10, 0, 0, 1]) htext rfl
  obtain rfl : (letters 26 (by decide)).response [10, 0, 0, 1] = r := by
    rw [hresponse] at hr
    exact Option.some.inj (Except.ok.inj hr)
  obtain ⟨out, hout, hresolved⟩ := hanswered.resolved ⟨fun _ => false, 0⟩
  have hparse : (parseDnsResponse ⟨fun _ => false, 0⟩ ((letters 26 (by decide)).response [10, 0, 0, 1])).map
      DnsReply.resolved = .ok [] := by
    decide +kernel
  rw [hout] at hparse
  have hnone : out.resolved = [] := Except.ok.inj hparse
  rw [hresolved] at hnone
  cases hnone

end AddressQuery

end SunProxy.Net
