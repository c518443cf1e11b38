/-
Names of a DNS message with compression pointers, and what `get_qname` makes of them. Its output
position is an 8-bit counter that a label may bring to 256 exactly: it is then 0 again, and the labels
after it overwrite those before. A name is read whole as long as no leading part of it ends there.
-/
import SunProxy.Net.DnsName
import SunProxy.Lib.Result

namespace SunProxy.Net

open SunProxy.Buffer SunProxy.Kotlin SunProxy.Result

/-! ## Names with pointers -/

/-- The place a compression pointer of the two bytes points to. -/
def pointerTarget (hi lo : UInt8) : Nat := (hi &&& 0x3F).toNat * 256 + lo.toNat

/-- `NameAt data off labels next rounds lead`: a name of the message stands at `off` and has these
labels. As written it ends before `next`; reading it takes `rounds` labels and pointers, and `lead` is
the number of labels before its first pointer, if it has one. -/
inductive NameAt (data : Bytes) : Nat → List Bytes → Nat → Nat → Option Nat → Prop
  | root {off : Nat} (h : load data off = .ok 0) : NameAt data off [] (off + 1) 0 none
  | label {off : Nat} {n : UInt8} {l : Bytes} {ls : List Bytes} {next rounds : Nat} {lead : Option Nat}
      (h : load data off = .ok n) (hn : 1 ≤ n.toNat ∧ n.toNat ≤ 63) (hl : loadBytes data (off + 1) n.toNat = .ok l)
      (hrest : NameAt data (off + 1 + n.toNat) ls next rounds lead) :
      NameAt data off (l :: ls) next (rounds + 1) (lead.map (· + 1))
  | pointer {off : Nat} {hi lo : UInt8} {ls : List Bytes} {next rounds : Nat} {lead : Option Nat}
      (h : load data off = .ok hi) (hhi : hi &&& 0xC0 = 0xC0) (hlo : load data (off + 1) = .ok lo)
      (hrest : NameAt data (pointerTarget hi lo) ls next rounds lead) : NameAt data off ls (off + 2) (rounds + 1)
        (some 0)

/-- The labels joined by dots. -/
def dotted (labels : List Bytes) : Bytes := [46].intercalate labels

theorem dots_cons (l : Bytes) (ls : List Bytes) : dots (l :: ls) = l ++ [46] ++ dots ls := by simp [dots]

theorem length_dots_cons (l : Bytes) (ls : List Bytes) : (dots (l :: ls)).length = l.length + 1 + (dots ls).length := by
  rw [dots_cons]
  simp only [List.length_append, List.length_cons, List.length_nil]

theorem length_dots {labels : List Bytes} (h : labels ≠ []) : (dots labels).length = (dotted labels).length + 1 := by
  rw [dots_eq h]
  simp [dotted]

/-- A name lies inside the message. -/
theorem NameAt.off_lt {data : Bytes} {off next rounds : Nat} {labels : List Bytes} {lead : Option Nat}
    (h : NameAt data off labels next rounds lead) : off < data.length := by
  cases h with
  | root h => exact load_lt_of_ok h
  | label h => exact load_lt_of_ok h
  | pointer h => exact load_lt_of_ok h

theorem NameAt.next_le {data : Bytes} {off next rounds : Nat} {labels : List Bytes} {lead : Option Nat}
    (h : NameAt data off labels next rounds lead) : off < next ∧ next ≤ data.length := by
  induction h with
  | root h => exact ⟨Nat.lt_succ_self _, load_lt_of_ok h⟩
  | label _ _ _ _ ih => exact ⟨by omega, ih.2⟩
  | pointer _ _ hlo _ _ => exact ⟨by omega, load_lt_of_ok hlo⟩

theorem NameAt.lead_le {data : Bytes} {off next rounds : Nat} {labels : List Bytes} {lead : Option Nat}
    (h : NameAt data off labels next rounds lead) (hlead : lead.isSome = true) : off + 2 ≤ data.length := by
  cases h with
  | root => cases hlead
  | label _ hn _ hrest =>
    have := hrest.next_le
    omega
  | pointer _ _ hlo _ => exact load_lt_of_ok hlo

/-! ## One round of the loop -/

theorem mask_of_label {n : UInt8} (h : 1 ≤ n.toNat ∧ n.toNat ≤ 63) : n ≠ 0 ∧ n &&& 0xC0 = 0 := by
  have hspec := labelByte_spec n.toNat (by omega) h.1
  rw [UInt8.ofNat_toNat] at hspec
  exact ⟨hspec.1, hspec.2.1⟩

theorem mask_of_pointer {n : UInt8} (h : n &&& 0xC0 = 0xC0) : n ≠ 0 ∧ n &&& 0xC0 ≠ 0 := by
  constructor
  · rintro rfl
    exact absurd h (by decide)
  · rw [h]
    decide

/-- A pointer takes the loop to its target; only the first one moves `off`. -/
theorem qnameLoop_pointer {data : Bytes} {left : Nat} {s : QnameState} {lo len : UInt8} (hhi : s.len &&& 0xC0 = 0xC0)
    (hlo : load data (s.ptr + 1) = .ok lo) (hlen : load data (pointerTarget s.len lo) = .ok len) :
    qnameLoop data (left + 1) s = qnameLoop data left
      { s with
        ptr := pointerTarget s.len lo, len := len, c := true
        off := if s.c then s.off else (s.off + 2) % 65536 } := by
  obtain ⟨hne, hmask⟩ := mask_of_pointer hhi
  have hroom : s.ptr + 1 < data.length ∧ s.len &&& 0xC0 ≠ 0 := ⟨load_lt_of_ok hlo, hmask⟩
  have htarget : ¬ data.length ≤ pointerTarget s.len lo := Nat.not_le.2 (load_lt_of_ok hlen)
  conv_lhs => unfold qnameLoop
  rw [if_neg hne, if_pos hroom]
  simp only [pointerTarget] at htarget hlen ⊢
  simp only [hlo, htarget, hlen, bind, Except.bind, if_false]

/-- A label with room in the buffer is copied there; one without ends the loop. -/
theorem qnameLoop_copy {data : Bytes} {left : Nat} {s : QnameState} {l : Bytes} {len : UInt8}
    (hdata : data.length < 65536) (hn : 1 ≤ s.len.toNat ∧ s.len.toNat ≤ 63)
    (hl : loadBytes data (s.ptr + 1) s.len.toNat = .ok l) (hlen : load data (s.ptr + 1 + s.len.toNat) = .ok len)
    (hbuf : s.qname.length = 256) :
    qnameLoop data (left + 1) s =
      if s.noff + s.len.toNat ≤ 255 then qnameLoop data left
        { s with
          qname := overwrite s.qname s.noff (l ++ [46]), noff := (s.noff + s.len.toNat + 1) % 256
          ptr := s.ptr + 1 + s.len.toNat, len := len }
      else .ok s := by
  obtain ⟨hne, hmask⟩ := mask_of_label hn
  have hroom := load_lt_of_ok hlen
  have hll := length_of_loadBytes hl
  conv_lhs => unfold qnameLoop
  rw [if_neg hne, if_neg (by simp [hmask])]
  by_cases hfit : s.noff + s.len.toNat ≤ 255
  · have hstore : storeBytes s.qname s.noff (l ++ [46]) = .ok (overwrite s.qname s.noff (l ++ [46])) :=
      storeBytes_fits (by simp only [List.length_append, List.length_cons, List.length_nil]; omega)
    have hjump : (s.ptr + 1 + s.len.toNat) % 65536 = s.ptr + 1 + s.len.toNat := Nat.mod_eq_of_lt (by omega)
    rw [if_pos ⟨hroom, hfit⟩, if_pos hfit]
    simp only [hl, hstore, hjump, Nat.not_le.2 hroom, hlen, bind, Except.bind, if_false]
  · rw [if_neg fun h => hfit h.2, if_neg hfit]

/-! ## The loop over a name -/

/-- What the loop has done to the state when it ends at the root of a name. -/
structure ReadsTo (s s' : QnameState) (labels : List Bytes) (next : Nat) (lead : Option Nat) : Prop where
  len : s'.len = 0
  noff : s'.noff = s.noff + (dots labels).length
  qname : s'.qname = overwrite s.qname s.noff (dots labels)
  /-- Without a pointer the loop ends at the last byte of the name. -/
  plain : lead = none → s'.c = s.c ∧ s'.off = s.off ∧ s'.ptr + 1 = next
  compressed : lead.isSome = true → s'.c = true ∧ s'.off = if s.c then s.off else (s.off + 2) % 65536

theorem readsTo_root {s : QnameState} {next : Nat} (h : s.len = 0) (hnext : s.ptr + 1 = next) :
    ReadsTo s s [] next none :=
  ⟨h, rfl, (overwrite_nil _ _).symm, fun _ => ⟨rfl, rfl, hnext⟩, fun h => by cases h⟩

theorem ReadsTo.pointer {s s' : QnameState} {labels : List Bytes} {next target off : Nat} {lead : Option Nat}
    {len : UInt8} (h : ReadsTo
      { s with ptr := target, len := len, c := true, off := if s.c then s.off else (s.off + 2) % 65536 } s'
      labels next lead) : ReadsTo s s' labels (off + 2) (some 0) := by
  refine ⟨h.len, h.noff, h.qname, fun h => (by cases h), fun _ => ?_⟩
  cases lead with
  | none => exact ⟨(h.plain rfl).1, (h.plain rfl).2.1⟩
  | some n => exact h.compressed rfl

theorem ReadsTo.label {s s' : QnameState} {l : Bytes} {ls : List Bytes} {next ptr n : Nat} {lead : Option Nat}
    {len : UInt8} (hl : l.length = n) (hbuf : s.qname.length = 256) (hfit : s.noff + n + 1 ≤ 255)
    (h : ReadsTo
      { s with qname := overwrite s.qname s.noff (l ++ [46]), noff := s.noff + n + 1, ptr := ptr, len := len } s'
      ls next lead) : ReadsTo s s' (l :: ls) next (lead.map (· + 1)) where
  len := h.len
  noff := by
    rw [h.noff, length_dots_cons, hl]
    show s.noff + n + 1 + _ = _
    omega
  qname := by
    have hwrite := overwrite_overwrite (l ++ [46]) (dots ls) (show s.noff ≤ s.qname.length by omega)
    rw [h.qname, dots_cons, ← hwrite]
    simp only [List.length_append, List.length_cons, List.length_nil, Nat.add_assoc, hl]
  plain hlead := h.plain (by simpa using hlead)
  compressed hlead := h.compressed (by simpa using hlead)

/-- With rounds and room enough the loop reads a name to its root. -/
theorem qnameLoop_of_nameAt {data : Bytes} (hdata : data.length < 65536) {off next rounds : Nat} {labels : List Bytes}
    {lead : Option Nat} (h : NameAt data off labels next rounds lead) {left : Nat} (hleft : rounds ≤ left)
    {s : QnameState} (hptr : s.ptr = off) (hlen : load data off = .ok s.len) (hbuf : s.qname.length = 256)
    (hroom : s.noff + (dots labels).length ≤ 255) :
    ∃ s', qnameLoop data left s = .ok s' ∧ ReadsTo s s' labels next lead := by
  induction h generalizing left s with
  | root h =>
    rw [h] at hlen
    have hzero : s.len = 0 := (Except.ok.inj hlen).symm
    exact ⟨s, qnameLoop_root _ _ hzero, readsTo_root hzero (by rw [hptr])⟩
  -- a pointer takes a round of the loop, and goes on where it leads
  | pointer h hhi hlo hrest ih =>
    rw [h] at hlen
    injection hlen with hlen
    subst hlen hptr
    obtain ⟨left, rfl⟩ := Nat.exists_eq_add_one_of_ne_zero (show left ≠ 0 by omega)
    obtain ⟨len, hlen⟩ : ∃ len, load data (pointerTarget s.len _) = .ok len := ⟨_, load_lt hrest.off_lt⟩
    obtain ⟨s', hs', hr⟩ := ih (Nat.le_of_succ_le_succ hleft) (s := { s with
      ptr := pointerTarget s.len _, len := len, c := true, off := if s.c then s.off else (s.off + 2) % 65536 })
      rfl hlen hbuf hroom
    rw [qnameLoop_pointer hhi hlo hlen]
    exact ⟨s', hs', hr.pointer⟩
  -- a label is copied with a dot behind it; the counter does not wrap, since there is room
  | @label _ _ l _ _ _ _ h hn hl hrest ih =>
    rw [h] at hlen
    injection hlen with hlen
    subst hlen hptr
    obtain ⟨left, rfl⟩ := Nat.exists_eq_add_one_of_ne_zero (show left ≠ 0 by omega)
    obtain ⟨len, hnext⟩ : ∃ len, load data (s.ptr + 1 + s.len.toNat) = .ok len := ⟨_, load_lt hrest.off_lt⟩
    have hll := length_of_loadBytes hl
    rw [length_dots_cons] at hroom
    have hwrap : (s.noff + s.len.toNat + 1) % 256 = s.noff + s.len.toNat + 1 := Nat.mod_eq_of_lt (by omega)
    obtain ⟨s', hs', hr⟩ := ih (Nat.le_of_succ_le_succ hleft) (s := { s with
      qname := overwrite s.qname s.noff (l ++ [46]), noff := s.noff + s.len.toNat + 1
      ptr := s.ptr + 1 + s.len.toNat, len := len }) rfl hnext
      ((length_overwrite (by simp only [List.length_append, List.length_cons, List.length_nil]; omega)).trans hbuf)
      (by show s.noff + s.len.toNat + 1 + _ ≤ 255; omega)
    rw [qnameLoop_copy hdata hn hl hnext hbuf, if_pos (by omega), hwrap]
    exact ⟨s', hs', hr.label hll hbuf (by omega)⟩

/-- A loop that ended at the root had rounds enough, and room unless a leading part of the name
ends at the wrap of the position. -/
theorem room_of_qnameLoop {data : Bytes} (hdata : data.length < 65536) {off next rounds : Nat} {labels : List Bytes}
    {lead : Option Nat} (h : NameAt data off labels next rounds lead) {left : Nat} {s s' : QnameState}
    (hptr : s.ptr = off) (hlen : load data off = .ok s.len) (hbuf : s.qname.length = 256) (hnoff : s.noff ≤ 255)
    (hwrap : ∀ p, p <+: labels → s.noff + (dots p).length ≠ 256) (hloop : qnameLoop data left s = .ok s')
    (hend : s'.len = 0) : rounds ≤ left ∧ s.noff + (dots labels).length ≤ 255 := by
  induction h generalizing left s with
  | root h => exact ⟨Nat.zero_le _, hnoff⟩
  | pointer h hhi hlo hrest ih =>
    rw [h] at hlen
    injection hlen with hlen
    subst hlen hptr
    -- a loop without rounds stops at the pointer, not at a root
    cases left with
    | zero =>
      cases hloop
      exact absurd hend (mask_of_pointer hhi).1
    | succ left =>
      obtain ⟨len, hlen⟩ : ∃ len, load data (pointerTarget s.len _) = .ok len := ⟨_, load_lt hrest.off_lt⟩
      rw [qnameLoop_pointer hhi hlo hlen] at hloop
      obtain ⟨hrounds, hroom⟩ := ih (s := { s with
        ptr := pointerTarget s.len _, len := len, c := true, off := if s.c then s.off else (s.off + 2) % 65536 })
        rfl hlen hbuf hnoff hwrap hloop
      exact ⟨Nat.succ_le_succ hrounds, hroom⟩
  | @label _ _ l ls _ _ _ h hn hl hrest ih =>
    rw [h] at hlen
    injection hlen with hlen
    subst hlen hptr
    cases left with
    | zero =>
      cases hloop
      exact absurd hend (mask_of_label hn).1
    | succ left =>
      obtain ⟨len, hnext⟩ : ∃ len, load data (s.ptr + 1 + s.len.toNat) = .ok len := ⟨_, load_lt hrest.off_lt⟩
      have hll := length_of_loadBytes hl
      rw [qnameLoop_copy hdata hn hl hnext hbuf] at hloop
      split_ifs at hloop with hfit
      · -- the label alone is a leading part, so it stays short of the wrap
        have hone := hwrap [l] ⟨ls, rfl⟩
        rw [length_dots_cons, show (dots []).length = 0 from rfl] at hone
        have hmod : (s.noff + s.len.toNat + 1) % 256 = s.noff + s.len.toNat + 1 := Nat.mod_eq_of_lt (by omega)
        rw [hmod] at hloop
        have hshift : ∀ p, p <+: ls → s.noff + s.len.toNat + 1 + (dots p).length ≠ 256 := fun p hp => by
          have := hwrap (l :: p) ((List.prefix_cons_inj l).2 hp)
          rw [length_dots_cons] at this
          omega
        obtain ⟨hrounds, hroom⟩ := ih (s := { s with
          qname := overwrite s.qname s.noff (l ++ [46]), noff := s.noff + s.len.toNat + 1
          ptr := s.ptr + 1 + s.len.toNat, len := len }) rfl hnext
          ((length_overwrite (by simp only [List.length_append, List.length_cons, List.length_nil]; omega)).trans hbuf)
          (show s.noff + s.len.toNat + 1 ≤ 255 by omega) hshift hloop
        rw [length_dots_cons]
        refine ⟨Nat.succ_le_succ hrounds, ?_⟩
        have : s.noff + s.len.toNat + 1 + (dots ls).length ≤ 255 := hroom
        omega
      · cases hloop
        exact absurd hend (mask_of_label hn).1

/-! ## The name reader -/

/-- What `get_qname` returns for a name it reads: a pointer ends the name two bytes after its start,
wherever the pointer stands. -/
def qnameEnd (off next : Nat) : Option Nat → Nat
  | none => next
  | some _ => off + 2

/-- The start of the name is read into a fresh buffer. -/
theorem getQname_eq {data buf : Bytes} {off : Nat} {len : UInt8} (hbuf : buf.length = 256)
    (hlen : load data off = .ok len) :
    getQname data off buf = do
      let s ← qnameLoop data 26
        { c := false, off := off, noff := 0, ptr := off, len := len, qname := overwrite buf 0 [0] }
      if s.len ≠ 0 ∨ s.noff = 0 then return (none, s.qname)
      let qname ← storeBytes s.qname (s.noff - 1) [0]
      return (some (if s.c then s.off else (s.ptr + 1) % 65536), qname) := by
  have hfirst : storeBytes buf 0 [0] = .ok (overwrite buf 0 [0]) := storeBytes_fits (by simp; omega)
  unfold getQname
  simp only [hfirst, Nat.not_le.2 (load_lt_of_ok hlen), hlen, if_false, bind, Except.bind]

theorem length_freshBuffer {buf : Bytes} (hbuf : buf.length = 256) : (overwrite buf 0 [0]).length = 256 :=
  (length_overwrite (by simp; omega)).trans hbuf

/-- A name with a label that takes at most 26 rounds and 255 bytes is read whole. -/
theorem getQname_of_nameAt {data : Bytes} (hdata : data.length < 65536) {off next rounds : Nat} {labels : List Bytes}
    {lead : Option Nat} (h : NameAt data off labels next rounds lead) (hne : labels ≠ []) (hrounds : rounds ≤ 26)
    (hroom : (dots labels).length ≤ 255) {buf : Bytes} (hbuf : buf.length = 256) :
    ∃ name, getQname data off buf = .ok (some (qnameEnd off next lead), name) ∧ cString name = nameText labels ∧
      name.length = 256 := by
  have hload := load_lt h.off_lt
  obtain ⟨s', hs', hr⟩ := qnameLoop_of_nameAt hdata h hrounds
    (s := { c := false, off := off, noff := 0, ptr := off, len := _, qname := overwrite buf 0 [0] }) rfl hload
    (length_freshBuffer hbuf) (by show 0 + _ ≤ 255; omega)
  have hpos := length_dots_pos hne
  have hnoff : s'.noff = (dots labels).length := by
    rw [hr.noff]
    exact Nat.zero_add _
  obtain ⟨name, hname, htext, hlength⟩ := storeBytes_lastDot hne (overwrite buf 0 [0])
    (by rw [length_freshBuffer hbuf]; omega)
  have hq : s'.qname = overwrite (overwrite buf 0 [0]) 0 (dots labels) := hr.qname
  have hnext := h.next_le
  -- the end that is returned: behind the zero byte, or behind the first pointer
  have hend : (if s'.c then s'.off else (s'.ptr + 1) % 65536) = qnameEnd off next lead := by
    cases lead with
    | none =>
      obtain ⟨hc, -, hptr⟩ := hr.plain rfl
      rw [hc, hptr]
      exact Nat.mod_eq_of_lt (by omega)
    | some n =>
      obtain ⟨hc, hoff⟩ := hr.compressed rfl
      have hlead := h.lead_le rfl
      rw [hc, if_pos rfl, hoff, if_neg Bool.false_ne_true]
      exact Nat.mod_eq_of_lt (by show off + 2 < 65536; omega)
  refine ⟨name, ?_, htext, hlength.trans (length_freshBuffer hbuf)⟩
  rw [getQname_eq hbuf hload, hs']
  simp only [bind, Except.bind, hr.len, hnoff, Nat.ne_of_gt hpos, ne_eq, not_true_eq_false, or_self, if_false, hq,
    hname, pure, Except.pure, hend]

/-- What a name that `get_qname` returns has gone through. -/
theorem of_getQname {data buf name : Bytes} {off n : Nat} (hbuf : buf.length = 256)
    (h : getQname data off buf = .ok (some n, name)) :
    ∃ len s, load data off = .ok len ∧ s.len = 0 ∧ storeBytes s.qname (s.noff - 1) [0] = .ok name ∧ s.noff ≠ 0 ∧
      qnameLoop data 26 { c := false, off := off, noff := 0, ptr := off, len := len, qname := overwrite buf 0 [0] } =
        .ok s := by
  by_cases hoff : off < data.length
  · rw [getQname_eq hbuf (load_lt hoff)] at h
    obtain ⟨s, hs, h⟩ := bind_eq_ok h
    by_cases hbad : s.len ≠ 0 ∨ s.noff = 0
    · rw [if_pos hbad] at h
      cases h
    · rw [if_neg hbad] at h
      obtain ⟨hlen, hnoff⟩ := not_or.1 hbad
      obtain ⟨qname, hq, h⟩ := bind_eq_ok h
      cases h
      exact ⟨_, s, load_lt hoff, not_not.1 hlen, hq, hnoff, hs⟩
  · have hfirst : storeBytes buf 0 [0] = .ok (overwrite buf 0 [0]) := storeBytes_fits (by simp; omega)
    simp only [getQname, hfirst, Nat.le_of_not_lt hoff, if_true, bind, Except.bind, pure, Except.pure] at h
    cases h

/-! ## The name of a query -/

/-- The name stored for an accepted query is the whole name of its question, of at most 254 bytes. -/
def StoresName (data : Bytes) (q : DnsQuery) : Prop :=
  ∃ labels next rounds lead, NameAt data 12 labels next rounds lead ∧ cString q.qname = dotted labels ∧
    (dotted labels).length ≤ 254

/-- The question has a name, no leading labels of which take 256 bytes with their dots, without a zero byte. -/
def FitsName (data : Bytes) : Prop :=
  ∃ labels next rounds lead, NameAt data 12 labels next rounds lead ∧
    (∀ p, p <+: labels → (dots p).length ≠ 256) ∧ ∀ l ∈ labels, 0 ∉ l

theorem zero_notMem_dotted {labels : List Bytes} : 0 ∉ dotted labels ↔ ∀ l ∈ labels, 0 ∉ l := by
  induction labels with
  | nil => simp [dotted]
  | cons l ls ih =>
    cases ls with
    | nil => simp [dotted]
    | cons l' ls =>
      have hcons : dotted (l :: l' :: ls) = l ++ 46 :: dotted (l' :: ls) := by
        simp [dotted, List.intercalate, List.intersperse]
      have hdot : (0 : UInt8) ≠ 46 := by decide
      rw [hcons, List.mem_append, List.mem_cons, not_or, not_or, ih]
      constructor
      · rintro ⟨hl, -, hrest⟩
        exact List.forall_mem_cons.2 ⟨hl, hrest⟩
      · intro h
        exact ⟨h l (List.mem_cons_self ..), hdot, fun x hx => h x (List.mem_cons_of_mem _ hx)⟩

theorem cString_eq_self {text : Bytes} : cString text = text ↔ 0 ∉ text := by
  unfold cString
  rw [List.takeWhile_eq_self_iff]
  constructor
  · intro h hm
    exact absurd (h 0 hm) (by decide)
  · intro h b hb
    have hne : b ≠ 0 := fun e => h (e ▸ hb)
    simpa using hne

theorem zero_notMem_cString {buf : Bytes} : 0 ∉ cString buf := by
  intro h
  exact absurd (List.mem_takeWhile_imp h) (by decide)

theorem length_dots_le_of_prefix {p labels : List Bytes} (h : p <+: labels) :
    (dots p).length ≤ (dots labels).length := by
  obtain ⟨q, rfl⟩ := h
  simp [dots]

/-- What an accepted query has gone through. -/
theorem getQname_of_getDnsQuery {data buf : Bytes} {q : DnsQuery} (h : getDnsQuery data buf = .ok (some q)) :
    ∃ n, getQname data 12 buf = .ok (some n, q.qname) := by
  unfold getDnsQuery at h
  split_ifs at h
  · cases h
  obtain ⟨dns, -, h⟩ := bind_eq_ok h
  split_ifs at h
  swap
  · cases h
  obtain ⟨⟨off, name⟩, hname, h⟩ := bind_eq_ok h
  cases off with
  | none => cases h
  | some n =>
    simp only [questionAt] at h
    split_ifs at h
    swap
    · cases h
    obtain ⟨qtype, -, h⟩ := bind_eq_ok h
    obtain ⟨qclass, -, h⟩ := bind_eq_ok h
    cases h
    exact ⟨n, hname⟩

/-- A query that is accepted has its name stored exactly when the position of the copy does not wrap
to 0 on the way. -/
theorem storesName_iff {data buf : Bytes} {q : DnsQuery} (hdata : data.length < 65536) (hbuf : buf.length = 256)
    (h : getDnsQuery data buf = .ok (some q)) : StoresName data q ↔ FitsName data := by
  obtain ⟨n, hname⟩ := getQname_of_getDnsQuery h
  obtain ⟨len, s, hload, hend, -, hnoff, hloop⟩ := of_getQname hbuf hname
  constructor
  · rintro ⟨labels, next, rounds, lead, hat, hstored, hlen⟩
    refine ⟨labels, next, rounds, lead, hat, fun p hp => ?_, ?_⟩
    · have hle := length_dots_le_of_prefix hp
      by_cases hne : labels = []
      · rw [hne] at hle
        exact Nat.ne_of_lt (Nat.lt_of_le_of_lt hle (by decide))
      · have := length_dots hne
        omega
    · rw [← zero_notMem_dotted, ← hstored]
      exact zero_notMem_cString
  · rintro ⟨labels, next, rounds, lead, hat, hwrap, hzero⟩
    -- a loop that ends without wrapping has stored all labels
    obtain ⟨hrounds, hroom⟩ := room_of_qnameLoop hdata hat
      (s := { c := false, off := 12, noff := 0, ptr := 12, len := len, qname := overwrite buf 0 [0] }) rfl hload
      (length_freshBuffer hbuf) (Nat.zero_le _) (fun p hp => by simpa using hwrap p hp) hloop hend
    have hroom : (dots labels).length ≤ 255 := by simpa using hroom
    have hne : labels ≠ [] := by
      rintro rfl
      obtain ⟨s', hs', hr⟩ := qnameLoop_of_nameAt hdata hat hrounds
        (s := { c := false, off := 12, noff := 0, ptr := 12, len := len, qname := overwrite buf 0 [0] }) rfl hload
        (length_freshBuffer hbuf) (Nat.zero_le _)
      rw [hloop] at hs'
      cases hs'
      exact hnoff hr.noff
    obtain ⟨name, hread, htext, -⟩ := getQname_of_nameAt hdata hat hne hrounds hroom hbuf
    rw [hname] at hread
    cases hread
    have hdots := length_dots hne
    refine ⟨labels, next, rounds, lead, hat, ?_, by omega⟩
    rw [htext]
    exact cString_eq_self.2 (zero_notMem_dotted.2 hzero)

/-- A query for the address of a name with the given labels. -/
def queryFor (labels : List Bytes) : Bytes := [0, 1, 1, 0, 0, 1, 0, 0, 0, 0, 0, 0] ++ wireName labels ++ [0, 1, 0, 1]

/-- Four labels of 63 letters, which take 256 bytes with their dots, and `b`. -/
def wrappingName : List Bytes := List.replicate 4 (List.replicate 63 97) ++ [[98]]

theorem exists_query {data stored : Bytes}
    (h : (getDnsQuery data nameBuffer).map (·.map fun q => cString q.qname) = .ok (some stored)) :
    ∃ q, getDnsQuery data nameBuffer = .ok (some q) ∧ cString q.qname = stored := by
  cases hq : getDnsQuery data nameBuffer with
  | error f => rw [hq] at h; cases h
  | ok r =>
    rw [hq] at h
    cases r with
    | none => cases h
    | some q => exact ⟨q, rfl, Option.some.inj (Except.ok.inj h)⟩

theorem storesName_example : ∃ q, getDnsQuery (queryFor [[97], [98]]) nameBuffer = .ok (some q) ∧
    StoresName (queryFor [[97], [98]]) q := by
  have hrun : (getDnsQuery (queryFor [[97], [98]]) nameBuffer).map (·.map fun q => cString q.qname) =
      .ok (some [97, 46, 98]) := by decide +kernel
  obtain ⟨q, hq, -⟩ := exists_query hrun
  have hat : NameAt (queryFor [[97], [98]]) 12 [[97], [98]] 17 2 none :=
    .label (n := 1) rfl (by decide) rfl (.label (n := 1) rfl (by decide) rfl (.root rfl))
  refine ⟨q, hq, (storesName_iff (by decide) length_nameBuffer hq).2 ⟨_, _, _, _, hat, fun p hp => ?_, by decide⟩⟩
  have hle : (dots p).length ≤ 4 := length_dots_le_of_prefix hp
  omega

/-- The query for the long name is accepted, and the name stored is its last label. -/
theorem not_storesName_wrapping : ¬ ∀ (data buf : Bytes) (q : DnsQuery), data.length < 65536 → buf.length = 256 →
    getDnsQuery data buf = .ok (some q) → StoresName data q := by
  intro h
  have hrun : (getDnsQuery (queryFor wrappingName) nameBuffer).map (·.map fun q => cString q.qname) =
      .ok (some [98]) := by
    decide +kernel
  obtain ⟨q, hq, hstored⟩ := exists_query hrun
  obtain ⟨labels, next, rounds, lead, hat, hname, -⟩ := h _ _ q (by decide +kernel) length_nameBuffer hq
  have hfirst : load (queryFor wrappingName) 12 = .ok 63 := by decide +kernel
  -- the name begins with a label of 63 bytes, so it is not the one byte stored
  cases hat with
  | root h0 => rw [hfirst] at h0; cases h0
  | pointer h0 hhi =>
    rw [hfirst] at h0
    cases h0
    exact absurd hhi (by decide)
  | @label _ n l ls _ _ _ h0 _ hl _ =>
    rw [hfirst] at h0
    cases h0
    have hlen : l.length = 63 := length_of_loadBytes hl
    have hdots := length_dots (List.cons_ne_nil l ls)
    rw [length_dots_cons, ← hname, hstored, hlen, List.length_singleton] at hdots
    omega

end SunProxy.Net
