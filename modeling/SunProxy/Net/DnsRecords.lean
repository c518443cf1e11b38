/-
The answer loop of `parse_dns_response` on a well-formed response. The place of a record follows from
what `get_qname` returned for the name before it, and that is the end of the name unless labels stand
before its pointer or it is the root.
-/
import SunProxy.Net.CompressedName
import SunProxy.Net.Engine

namespace SunProxy.Net

open SunProxy.Buffer SunProxy.Kotlin SunProxy.Result

/-! ## Well-formed responses -/

/-- A resource record, with where its owner name is written. -/
structure AnswerRecord where
  off : Nat
  next : Nat
  rounds : Nat
  lead : Option Nat
  owner : List Bytes
  qtype : Nat
  qclass : Nat
  ttl : Nat
  rdata : Bytes

namespace AnswerRecord

def isAddress (a : AnswerRecord) : Bool :=
  a.qclass = DNS_QCLASS_IN && (a.qtype = DNS_QTYPE_A || a.qtype = DNS_QTYPE_AAAA)

def isService (a : AnswerRecord) : Bool := a.qclass = DNS_QCLASS_IN && (a.qtype = DNS_SVCB || a.qtype = DNS_HTTPS)

/-- The end of the record. -/
def stop (a : AnswerRecord) : Nat := a.next + 10 + a.rdata.length

/-- The record stands in the message. -/
structure Stands (data : Bytes) (a : AnswerRecord) : Prop where
  name : NameAt data a.off a.owner a.next a.rounds a.lead
  rounds : a.rounds ≤ 25
  wire : (wireName a.owner).length ≤ 255
  qtype : loadBe16 data a.next = .ok a.qtype
  qclass : loadBe16 data (a.next + 2) = .ok a.qclass
  ttl : loadBe32 data (a.next + 4) = .ok a.ttl
  rdlength : loadBe16 data (a.next + 8) = .ok a.rdata.length
  rdata : loadBytes data (a.next + 10) a.rdata.length = .ok a.rdata
  address : a.isAddress = true → a.rdata.length = dnsAddrlen a.qtype

/-- What is reported of the record, with the names as `text` gives them. -/
def report (text : List Bytes → Bytes) (question : List Bytes) (a : AnswerRecord) : ResourceRecord where
  qname := text question
  aname := text a.owner
  resource := inetNtop a.rdata
  ttl := int32 a.ttl
  uid := -1

end AnswerRecord

/-- The records from a place on, one after the other. -/
inductive AnswersFrom (data : Bytes) : Nat → List AnswerRecord → Prop
  | nil (off : Nat) : AnswersFrom data off []
  | cons {a : AnswerRecord} {as : List AnswerRecord} (h : a.Stands data) (hrest : AnswersFrom data a.stop as) :
      AnswersFrom data a.off (a :: as)

/-- A response to a standard query with one question. -/
structure DnsResponse where
  data : Bytes
  header : DnsHeader
  question : List Bytes
  next : Nat
  rounds : Nat
  lead : Option Nat
  answers : List AnswerRecord
  size : data.length < 65536
  read : DnsHeader.read data = .ok header
  qr : header.qr = true
  opcode : header.opcode = 0
  qCount : header.qCount = 1
  ansCount : header.ansCount.toNat = answers.length
  name : NameAt data 12 question next rounds lead
  hrounds : rounds ≤ 25
  wire : (wireName question).length ≤ 255
  asked : next + 4 ≤ data.length
  records : AnswersFrom data (next + 4) answers

namespace DnsResponse

/-- The records the response should be read to have. -/
def reports (text : List Bytes → Bytes) (r : DnsResponse) : List ResourceRecord :=
  (r.answers.filter (·.isAddress)).map (·.report text r.question)

/-- What parsing should leave of the response: without its answers when a service record is among them. -/
def reply (text : List Bytes → Bytes) (args : Arguments) (r : DnsResponse) : DnsReply :=
  if r.answers.any (·.isService) then
    ⟨r.reports text, (blockedHeader args.rcode r.header).bytes ++ r.data.drop 12, r.next + 4⟩
  else .unchanged (r.reports text) r.data

/-- `get_qname` returns the place after a name. -/
def ReturnsEnd (data : Bytes) (off next : Nat) : Prop :=
  ∀ buf : Bytes, buf.length = 256 → ∃ name, getQname data off buf = .ok (some next, name)

/-- The parser stays in step with the records, reports the addresses and strips the answers as it should. -/
structure InStep (args : Arguments) (r : DnsResponse) : Prop where
  question : ReturnsEnd r.data 12 r.next
  owners : ∀ a ∈ r.answers, ReturnsEnd r.data a.off a.next
  outcome : parseDnsResponse (dnsArgs args) r.data = .ok (r.reply dotted args)

/-- A name with a label, and with no label before a pointer. -/
def Followed (labels : List Bytes) (lead : Option Nat) : Prop := labels ≠ [] ∧ (lead = none ∨ lead = some 0)

/-- Every name is written so that the parser finds its end, and a reported one holds no zero byte. -/
structure Followable (r : DnsResponse) : Prop where
  question : Followed r.question r.lead
  owners : ∀ a ∈ r.answers, Followed a.owner a.lead
  zeros : ∀ a ∈ r.answers, a.isAddress = true → 0 ∉ dotted r.question ∧ 0 ∉ dotted a.owner

end DnsResponse

/-! ## The end of a name -/

theorem NameAt.lead_zero {data : Bytes} {off next rounds : Nat} {labels : List Bytes} {lead : Option Nat}
    (h : NameAt data off labels next rounds lead) (hlead : lead.isSome = true) : lead = some 0 ↔ next = off + 2 := by
  cases h with
  | root => cases hlead
  | @label _ n _ _ _ _ lead _ hn _ hrest =>
    have := hrest.next_le
    cases lead with
    | none => cases hlead
    | some k => exact iff_of_false (by simp) (by omega)
  | pointer => exact iff_of_true rfl rfl

/-- The root, also behind a pointer, is refused. -/
theorem getQname_noLabels {data : Bytes} (hdata : data.length < 65536) {off next rounds : Nat} {lead : Option Nat}
    (h : NameAt data off [] next rounds lead) (hrounds : rounds ≤ 26) {buf : Bytes} (hbuf : buf.length = 256) :
    ∃ name, getQname data off buf = .ok (none, name) := by
  have hload := load_lt h.off_lt
  obtain ⟨s', hs', hr⟩ := qnameLoop_of_nameAt hdata h hrounds
    (s := { c := false, off := off, noff := 0, ptr := off, len := _, qname := overwrite buf 0 [0] }) rfl hload
    (length_freshBuffer hbuf) (Nat.zero_le _)
  have hnoff : s'.noff = 0 := hr.noff
  rw [getQname_eq hbuf hload, hs']
  exact ⟨s'.qname, by simp only [bind, Except.bind, hnoff, or_true, if_true, pure, Except.pure]⟩

theorem length_dots_of_wire {labels : List Bytes} (h : (wireName labels).length ≤ 255) :
    (dots labels).length ≤ 255 := by
  rw [length_wireName] at h
  omega

theorem returnsEnd_iff {data : Bytes} (hdata : data.length < 65536) {off next rounds : Nat} {labels : List Bytes}
    {lead : Option Nat} (h : NameAt data off labels next rounds lead) (hrounds : rounds ≤ 25)
    (hwire : (wireName labels).length ≤ 255) :
    DnsResponse.ReturnsEnd data off next ↔ DnsResponse.Followed labels lead := by
  have hroom := length_dots_of_wire hwire
  by_cases hne : labels = []
  · subst hne
    refine iff_of_false ?_ fun h => h.1 rfl
    intro hend
    obtain ⟨name, hname⟩ := hend nameBuffer length_nameBuffer
    obtain ⟨name', hname'⟩ := getQname_noLabels hdata h (by omega) length_nameBuffer
    rw [hname] at hname'
    cases hname'
  · have hend : DnsResponse.ReturnsEnd data off next ↔ qnameEnd off next lead = next := by
      constructor
      · intro hend
        obtain ⟨name, hname⟩ := hend nameBuffer length_nameBuffer
        obtain ⟨name', hname', -⟩ := getQname_of_nameAt hdata h hne (by omega) hroom length_nameBuffer
        rw [hname] at hname'
        exact (Option.some.inj (Prod.mk.inj (Except.ok.inj hname')).1).symm
      · intro hend buf hbuf
        obtain ⟨name, hname, -⟩ := getQname_of_nameAt hdata h hne (by omega) hroom hbuf
        rw [hend] at hname
        exact ⟨name, hname⟩
    rw [hend, DnsResponse.Followed]
    cases lead with
    | none => exact iff_of_true rfl ⟨hne, .inl rfl⟩
    | some n =>
      have hzero := h.lead_zero rfl
      rw [qnameEnd, eq_comm, ← hzero]
      simp [hne]

/-! ## The answer loop -/

/-- What is read of a record after its name. -/
theorem AnswerRecord.Stands.stop_le {data : Bytes} {a : AnswerRecord} (h : a.Stands data) : a.stop ≤ data.length := by
  have hr := h.rdata
  unfold loadBytes at hr
  split at hr
  · assumption
  · cases hr

/-- With every name followable the loop reads the records one after the other. -/
theorem parseAnswers_of_answers {data : Bytes} (hdata : data.length < 65536) {off : Nat} {as : List AnswerRecord}
    (h : AnswersFrom data off as) (hread : ∀ a ∈ as, DnsResponse.Followed a.owner a.lead) {question : List Bytes}
    {qname : Bytes} (hq : cString qname = nameText question) (name : Bytes) (hname : name.length = 256) (svcb : Bool) :
    parseAnswers data qname as.length off name svcb =
      .ok ((as.filter (·.isAddress)).map (·.report nameText question), some (svcb || as.any (·.isService))) := by
  induction h generalizing name svcb with
  | nil => simp [parseAnswers]
  | @cons a as ha hrest ih =>
    obtain ⟨hne, hlead⟩ := hread a (List.mem_cons_self ..)
    have ih := ih fun b hb => hread b (List.mem_cons_of_mem _ hb)
    obtain ⟨owner, howner, htext, hlength⟩ := getQname_of_nameAt hdata ha.name hne (Nat.le_succ_of_le ha.rounds)
      (length_dots_of_wire ha.wire) hname
    -- the reader comes to the end of the name as it is written, where the fixed fields start
    have hend : qnameEnd a.off a.next a.lead = a.next := by
      rcases hlead with hlead | hlead
      · rw [hlead]
        rfl
      · rw [hlead]
        exact ((ha.name.lead_zero (by rw [hlead]; rfl)).1 hlead).symm
    have hoff : a.off % 65536 = a.off := Nat.mod_eq_of_lt (by have := ha.name.off_lt; omega)
    have hstop := ha.stop_le
    unfold AnswerRecord.stop at hstop ih
    have hnext := ha.name.next_le
    have hroom : 0 < a.next ∧ a.next + 10 ≤ data.length := by omega
    rw [hend] at howner
    simp only [List.length_cons, parseAnswers, hoff, howner, hroom, ha.qtype, ha.qclass, ha.ttl, ha.rdlength, hstop,
      bind, Except.bind, and_self, if_true]
    by_cases haddress : a.isAddress = true
    · have hcond : a.qclass = DNS_QCLASS_IN ∧ (a.qtype = DNS_QTYPE_A ∨ a.qtype = DNS_QTYPE_AAAA) := by
        simpa [AnswerRecord.isAddress] using haddress
      have hservice : a.isService = false := by
        obtain ⟨-, ht | ht⟩ := hcond <;> simp only [AnswerRecord.isService, ht] <;> exact Bool.and_false _
      have hlen := ha.address haddress
      have hrdata := ha.rdata
      rw [hlen] at hrdata
      rw [if_pos hcond, if_pos (by omega), hrdata, ih owner hlength svcb]
      simp only [List.filter_cons_of_pos haddress, List.map_cons, List.any_cons, hservice, Bool.false_or,
        AnswerRecord.report, hq, htext]
    · have hcond : ¬(a.qclass = DNS_QCLASS_IN ∧ (a.qtype = DNS_QTYPE_A ∨ a.qtype = DNS_QTYPE_AAAA)) := by
        simpa [AnswerRecord.isAddress] using haddress
      rw [if_neg hcond, List.filter_cons_of_neg haddress]
      by_cases hservice : a.isService = true
      · have hcond' : a.qclass = DNS_QCLASS_IN ∧ (a.qtype = DNS_SVCB ∨ a.qtype = DNS_HTTPS) := by
          simpa [AnswerRecord.isService] using hservice
        rw [if_pos hcond', ih owner hlength true]
        simp [hservice]
      · have hcond' : ¬(a.qclass = DNS_QCLASS_IN ∧ (a.qtype = DNS_SVCB ∨ a.qtype = DNS_HTTPS)) := by
          simpa [AnswerRecord.isService] using hservice
        rw [if_neg hcond', ih owner hlength svcb]
        simp [hservice]

namespace DnsResponse

/-- What parsing leaves of a response whose names can be followed. -/
theorem parseDnsResponse_of_followed (r : DnsResponse) (args : Arguments) (hquestion : Followed r.question r.lead)
    (howners : ∀ a ∈ r.answers, Followed a.owner a.lead) :
    parseDnsResponse (dnsArgs args) r.data = .ok (r.reply nameText args) := by
  obtain ⟨name, hname, htext, hlength⟩ := getQname_of_nameAt r.size r.name hquestion.1 (Nat.le_succ_of_le r.hrounds)
    (length_dots_of_wire r.wire) length_nameBuffer
  -- the question ends where it is written, as no label stands before a pointer
  have hend : qnameEnd 12 r.next r.lead = r.next := by
    rcases hquestion.2 with hlead | hlead
    · rw [hlead]
      rfl
    · rw [hlead]
      exact ((r.name.lead_zero (by rw [hlead]; rfl)).1 hlead).symm
  rw [hend] at hname
  have hnext := r.name.next_le
  have hasked := r.asked
  have hq : 0 < r.header.qCount := by rw [r.qCount]; decide
  have hlong : ¬ r.data.length < 13 := by omega
  have hplace : 0 < r.next ∧ r.next + 4 ≤ r.data.length := by omega
  have hanswers := parseAnswers_of_answers r.size r.records howners htext name hlength false
  unfold parseDnsResponse
  rw [if_neg hlong, r.read]
  simp only [bind, Except.bind, r.qr, r.opcode, hq, true_and, hname, hplace, if_true]
  -- without an answer nothing is parsed behind the question
  by_cases hsome : r.answers = []
  · have hzero : ¬ 0 < r.header.ansCount := by
      have hcount := r.ansCount
      rw [hsome] at hcount
      rw [UInt16.lt_iff_toNat_lt, hcount]
      exact Nat.lt_irrefl 0
    rw [if_neg hzero]
    simp [reply, reports, hsome]
  · have hpos : 0 < r.header.ansCount := by
      rw [UInt16.lt_iff_toNat_lt, r.ansCount]
      exact List.length_pos_iff.2 hsome
    rw [if_pos hpos, parseAfterQuestion, r.ansCount, hanswers]
    simp only [bind, Except.bind, pure, Except.pure, dnsArgs, isDomainBlocked, Bool.or_false, Bool.false_or, reply,
      reports]
    split <;> rfl

theorem report_inj {question : List Bytes} {a : AnswerRecord}
    (h : a.report nameText question = a.report dotted question) : 0 ∉ dotted question ∧ 0 ∉ dotted a.owner := by
  simp only [AnswerRecord.report, ResourceRecord.mk.injEq, and_true] at h
  exact ⟨cString_eq_self.1 h.1, cString_eq_self.1 h.2⟩

theorem report_eq {question : List Bytes} {a : AnswerRecord} (hq : 0 ∉ dotted question) (ha : 0 ∉ dotted a.owner) :
    a.report nameText question = a.report dotted question := by
  have hname : ∀ labels, 0 ∉ dotted labels → nameText labels = dotted labels := fun _ h => cString_eq_self.2 h
  rw [AnswerRecord.report, AnswerRecord.report, hname _ hq, hname _ ha]

/-- The parser is in step with a well-formed response exactly when it can follow the names of it. -/
theorem inStep_iff (r : DnsResponse) (args : Arguments) : r.InStep args ↔ r.Followable := by
  have hends : ∀ a ∈ r.answers, ReturnsEnd r.data a.off a.next ↔ Followed a.owner a.lead := by
    have hstands : ∀ {off : Nat} {as : List AnswerRecord}, AnswersFrom r.data off as → ∀ a ∈ as, a.Stands r.data := by
      intro off as h
      induction h with
      | nil => simp
      | cons h hrest ih => exact List.forall_mem_cons.2 ⟨h, ih⟩
    exact fun a ha => have h := hstands r.records a ha; returnsEnd_iff r.size h.name h.rounds h.wire
  have hquestion := returnsEnd_iff r.size r.name r.hrounds r.wire
  constructor
  · intro h
    have hfollowed : ∀ a ∈ r.answers, Followed a.owner a.lead := fun a ha => (hends a ha).1 (h.owners a ha)
    refine ⟨hquestion.1 h.question, hfollowed, fun a ha haddress => ?_⟩
    have hrun := h.outcome
    rw [parseDnsResponse_of_followed r args (hquestion.1 h.question) hfollowed] at hrun
    have hreports : r.reports nameText = r.reports dotted := by
      have hreply := congrArg DnsReply.resolved (Except.ok.inj hrun)
      unfold reply at hreply
      split at hreply
      · exact hreply
      · exact hreply
    exact report_inj (List.map_inj_left.1 hreports a (List.mem_filter.2 ⟨ha, haddress⟩))
  · rintro ⟨hq, howners, hzeros⟩
    refine ⟨hquestion.2 hq, fun a ha => (hends a ha).2 (howners a ha), ?_⟩
    have hreports : r.reports nameText = r.reports dotted := List.map_inj_left.2 fun a ha => by
      obtain ⟨hmem, haddress⟩ := List.mem_filter.1 ha
      obtain ⟨h1, h2⟩ := hzeros a hmem haddress
      exact report_eq h1 h2
    rw [parseDnsResponse_of_followed r args hq howners, reply, reply, hreports]

/-- A response to a query for `b.c` with an answer whose owner name is `a` and a pointer to the question. -/
def compressedBytes : Bytes :=
  [0, 1, 0x81, 0x80, 0, 1, 0, 1, 0, 0, 0, 0, 1, 98, 1, 99, 0, 0, 1, 0, 1] ++
    [1, 97, 0xC0, 12, 0, 1, 0, 1, 0, 0, 2, 88, 0, 4, 1, 2, 3, 4]

theorem nameAt_question : NameAt compressedBytes 12 [[98], [99]] 17 2 none :=
  .label (n := 1) rfl (by decide) rfl (.label (n := 1) rfl (by decide) rfl (.root rfl))

theorem nameAt_owner : NameAt compressedBytes 21 [[97], [98], [99]] 25 4 (some 1) := by
  have htarget : pointerTarget 0xC0 12 = 12 := by decide
  have hpointer : NameAt compressedBytes 23 [[98], [99]] 25 3 (some 0) :=
    .pointer (show load compressedBytes 23 = .ok 0xC0 from rfl) (by decide)
      (show load compressedBytes 24 = .ok 12 from rfl) (htarget ▸ nameAt_question)
  exact .label (n := 1) rfl (by decide) rfl hpointer

def compressedRecord : AnswerRecord := ⟨21, 25, 4, some 1, [[97], [98], [99]], 1, 1, 600, [1, 2, 3, 4]⟩

theorem stands_compressedRecord : compressedRecord.Stands compressedBytes where
  name := nameAt_owner
  rounds := by decide
  wire := by decide
  qtype := rfl
  qclass := rfl
  ttl := rfl
  rdlength := rfl
  rdata := rfl
  address _ := rfl

def compressedAnswer : DnsResponse where
  data := compressedBytes
  header :=
    { id := 1, rd := true, tc := false, aa := false, opcode := 0, qr := true, rcode := 0, cd := false, ad := false,
      z := false, ra := true, qCount := 1, ansCount := 1, authCount := 0, addCount := 0 }
  question := [[98], [99]]
  next := 17
  rounds := 2
  lead := none
  answers := [compressedRecord]
  size := by decide
  read := by decide +kernel
  qr := rfl
  opcode := rfl
  qCount := rfl
  ansCount := rfl
  name := nameAt_question
  hrounds := by decide
  wire := by decide
  asked := by decide
  records := .cons stands_compressedRecord (.nil _)

/-- No address is reported of that answer. -/
theorem not_inStep_compressedAnswer : ¬ ∀ (r : DnsResponse) (args : Arguments), r.InStep args := by
  intro h
  have hrun := (h compressedAnswer (.plain [] _ compiled_redirectAll)).outcome
  have hparse : (parseDnsResponse (dnsArgs (.plain [] _ compiled_redirectAll)) compressedAnswer.data).map
      DnsReply.resolved = .ok [] := by
    decide +kernel
  rw [hrun] at hparse
  exact absurd (Except.ok.inj hparse) (by decide +kernel)

end DnsResponse

end SunProxy.Net
