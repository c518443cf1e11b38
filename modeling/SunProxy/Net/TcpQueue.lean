/-
Sequence numbers and the queue of a TCP session: the octets of a client's stream are numbered from one
after its initial sequence number on, and wrap; and what `queue_tcp` makes of a queue.
-/
import SunProxy.Net.Tcp

namespace SunProxy.Net

open SunProxy.Buffer

/-! ## Sequence numbers -/

/-- The number of the octet at `o` of a stream. -/
def octetSeq (start o : Nat) : Nat := u32 (start + 1 + o)

theorem compareU32_eq_zero_iff {a b : Nat} : compareU32 a b = 0 ↔ a = b := by
  unfold compareU32
  split_ifs with h
  · exact iff_of_true rfl h
  · exact iff_of_false (by decide) h
  · exact iff_of_false (by decide) h

theorem compareU32_neg_iff {a b : Nat} :
    compareU32 a b < 0 ↔ a < b ∧ b - a < 0x7FFFFFFF ∨ b < a ∧ 0x7FFFFFFF < a - b := by
  unfold compareU32
  split_ifs with heq hlt
  · subst heq
    simp
  · simpa using hlt
  · simpa using hlt

theorem compareU32_pos_iff {a b : Nat} : 0 < compareU32 a b ↔ a ≠ b ∧ ¬ compareU32 a b < 0 := by
  rw [ne_eq, ← compareU32_eq_zero_iff]
  omega

section Octets

variable {start a b : Nat}

theorem octetSeq_inj (ha : a < 2147483648) (hb : b < 2147483648) : octetSeq start a = octetSeq start b ↔ a = b := by
  simp only [octetSeq, u32]
  omega

/-- Numbers less than half of all numbers apart compare as the places of their octets. -/
theorem compareU32_octetSeq_lt (hlt : a < b) (hnear : b - a < 2147483647) :
    compareU32 (octetSeq start a) (octetSeq start b) < 0 := by
  rw [compareU32_neg_iff]
  simp only [octetSeq, u32]
  omega

theorem u32_octetSeq_add (start o n : Nat) : u32 (octetSeq start o + n) = octetSeq start (o + n) := by
  simp only [octetSeq, u32]
  omega

end Octets

/-! ## The queue -/

/-- A queued segment is the new one, was there before, or was there with other data at its number. -/
theorem mem_queueSegment {seg q : Segment} {l : List Segment} (h : q ∈ queueSegment seg l) :
    q = seg ∨ q ∈ l ∨ ∃ s ∈ l, s.seq = seg.seq ∧ q = { s with len := seg.len, data := seg.data } := by
  induction l with
  | nil => exact .inl (List.mem_singleton.1 h)
  | cons s rest ih =>
    unfold queueSegment at h
    split at h
    · rcases List.mem_cons.1 h with rfl | h
      · exact .inr (.inl List.mem_cons_self)
      · rcases ih h with rfl | h | ⟨s', hs', hseq, rfl⟩
        · exact .inl rfl
        · exact .inr (.inl (List.mem_cons_of_mem _ h))
        · exact .inr (.inr ⟨s', List.mem_cons_of_mem _ hs', hseq, rfl⟩)
    · rename_i hlt
      split at h
      · exact (List.mem_cons.1 h).imp_right .inl
      · rename_i hgt
        split at h
        · exact .inr (.inl h)
        · have hseq : s.seq = seg.seq := compareU32_eq_zero_iff.1 (by omega)
          rcases List.mem_cons.1 h with rfl | h
          · exact .inr (.inr ⟨s, List.mem_cons_self, hseq, rfl⟩)
          · exact .inr (.inl (List.mem_cons_of_mem _ h))

theorem compareU32_self (n : Nat) : compareU32 n n = 0 := if_pos rfl

/-- A segment that is queued already stays as it is. -/
theorem queueSegment_queueSegment (seg : Segment) (l : List Segment) :
    queueSegment seg (queueSegment seg l) = queueSegment seg l := by
  induction l with
  | nil => simp [queueSegment, compareU32_self]
  | cons s rest ih =>
    by_cases hlt : compareU32 s.seq seg.seq < 0
    · simp only [queueSegment, if_pos hlt, ih]
    · by_cases hgt : 0 < compareU32 s.seq seg.seq
      · simp [queueSegment, if_neg hlt, if_pos hgt, compareU32_self]
      · by_cases hlen : s.len = seg.len <;> simp [queueSegment, hlt, hgt, hlen]

/-- Its data is not copied again. -/
theorem copiesSegment_queueSegment (seg : Segment) (l : List Segment) :
    copiesSegment seg.seq seg.len (queueSegment seg l) = false := by
  induction l with
  | nil => simp [queueSegment, copiesSegment, compareU32_self]
  | cons s rest ih =>
    by_cases hlt : compareU32 s.seq seg.seq < 0
    · simp only [queueSegment, copiesSegment, if_pos hlt, ih]
    · by_cases hgt : 0 < compareU32 s.seq seg.seq
      · simp [queueSegment, copiesSegment, if_neg hlt, if_pos hgt, compareU32_self]
      · by_cases hlen : s.len = seg.len <;> simp [queueSegment, copiesSegment, hlt, hgt, hlen]

end SunProxy.Net
