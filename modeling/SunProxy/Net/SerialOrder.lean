/-
The order `compare_u32` puts on sequence numbers, against the serial order of RFC 1982: the two agree but
for two distances, next to half of all numbers, where the answer of `compare_u32` depends on whether the
numbers wrap.
-/
import SunProxy.Lib.Serial
import SunProxy.Net.TcpQueue

namespace SunProxy.Net

open SunProxy.Serial

variable {a b : Nat}

/-! ## Answers -/

theorem compareU32_cases (a b : Nat) : compareU32 a b = 0 ∨ compareU32 a b = -1 ∨ compareU32 a b = 1 := by
  unfold compareU32
  split_ifs
  · exact .inl rfl
  · exact .inr (.inl rfl)
  · exact .inr (.inr rfl)

theorem compareU32_eq_neg_one_iff : compareU32 a b = -1 ↔ compareU32 a b < 0 := by
  rcases compareU32_cases a b with h | h | h <;> rw [h] <;> decide

theorem gap_u32_of_le (hle : a ≤ b) (hb : b < 4294967296) : gap 4294967296 a b = b - a := by
  unfold gap
  omega

theorem gap_u32_of_lt (hlt : b < a) (ha : a < 4294967296) : gap 4294967296 a b = 4294967296 - (a - b) := by
  unfold gap
  omega

/-- Away from half of all numbers `compare_u32` is the serial order. -/
theorem compareU32_neg_iff_before (ha : a < 4294967296) (hb : b < 4294967296)
    (hbelow : gap 4294967296 a b ≠ 2147483647) (hhalf : gap 4294967296 a b ≠ 2147483648) :
    compareU32 a b < 0 ↔ Before 2147483648 a b := by
  rw [compareU32_neg_iff, Before]
  rcases Nat.lt_or_ge b a with hlt | hle
  · rw [gap_u32_of_lt hlt ha] at *
    omega
  · rw [gap_u32_of_le hle hb] at *
    omega

/-- Two answers for pairs of numbers that are as far apart agree when the order of the pairs does. -/
theorem compareU32_congr {a' b' : Nat} (heq : a = b ↔ a' = b') (hneg : compareU32 a b < 0 ↔ compareU32 a' b' < 0) :
    compareU32 a b = compareU32 a' b' := by
  have hzero := (compareU32_eq_zero_iff (a := a) (b := b)).trans (heq.trans compareU32_eq_zero_iff.symm)
  rcases compareU32_cases a b with h | h | h <;> rcases compareU32_cases a' b' with h' | h' | h' <;>
    simp [h, h'] at hzero hneg ⊢

/-! ## Moving a pair -/

/-- Both numbers moved until the first one is zero, and until the second one is. -/
theorem exists_translate (ha : a < 4294967296) (hb : b < 4294967296) (hne : a ≠ b) :
    (∃ c < 4294967296, (a + c) % 4294967296 = 0 ∧ (b + c) % 4294967296 = gap 4294967296 a b) ∧
      ∃ c < 4294967296, (a + c) % 4294967296 = 4294967296 - gap 4294967296 a b ∧ (b + c) % 4294967296 = 0 := by
  unfold gap
  refine ⟨⟨(4294967296 - a) % 4294967296, ?_⟩, ⟨(4294967296 - b) % 4294967296, ?_⟩⟩
  · omega
  · omega

/-! ## The order -/

/-- What RFC 1982 asks of the answer for two numbers, and what follows from it: the answer for the numbers
the other way around, and for both numbers moved. -/
structure SerialOrder (a b : Nat) : Prop where
  equal : compareU32 a b = 0 ↔ a = b
  before : compareU32 a b = -1 ↔ Before 2147483648 a b
  antisymm : gap 4294967296 a b ≠ 2147483648 → compareU32 b a = -compareU32 a b
  translate : ∀ c < 4294967296, compareU32 ((a + c) % 4294967296) ((b + c) % 4294967296) = compareU32 a b

/-- But for those distances, the numbers the other way around get the opposite answer. -/
theorem compareU32_swap (ha : a < 4294967296) (hb : b < 4294967296) (hbelow : gap 4294967296 a b ≠ 2147483647)
    (hhalf : gap 4294967296 a b ≠ 2147483648) (habove : ¬ (b < a ∧ a - b = 2147483647)) :
    compareU32 b a = -compareU32 a b := by
  by_cases heq : a = b
  · rw [heq, compareU32_self]
    rfl
  · have hzero : compareU32 a b ≠ 0 := mt compareU32_eq_zero_iff.1 heq
    have hzero' : compareU32 b a ≠ 0 := mt compareU32_eq_zero_iff.1 (Ne.symm heq)
    have hflip : compareU32 b a < 0 ↔ ¬ compareU32 a b < 0 := by
      rw [compareU32_neg_iff, compareU32_neg_iff]
      rcases Nat.lt_or_ge b a with hlt | hle
      · have hgap := gap_u32_of_lt hlt ha
        omega
      · have hgap := gap_u32_of_le hle hb
        omega
    rcases compareU32_cases a b with h | h | h
    · exact absurd h hzero
    · rcases compareU32_cases b a with h' | h' | h' <;> simp_all
    · rcases compareU32_cases b a with h' | h' | h' <;> simp_all

/-- `compare_u32` is the serial order for the pairs whose distance is neither half of all numbers nor one
less, nor one more without wrapping, where it is not antisymmetric. -/
theorem serialOrder_iff (ha : a < 4294967296) (hb : b < 4294967296) :
    SerialOrder a b ↔
      gap 4294967296 a b ≠ 2147483647 ∧ gap 4294967296 a b ≠ 2147483648 ∧ ¬ (b < a ∧ a - b = 2147483647) := by
  constructor
  · intro h
    -- where the distance is at the limit, the moved pair that wraps is answered the other way
    have hmoved : ∀ d, gap 4294967296 a b = d → 0 < d → compareU32 0 d = compareU32 (4294967296 - d) 0 := by
      intro d hd hpos
      have hne : a ≠ b := by
        rintro rfl
        rw [gap_self ha] at hd
        omega
      obtain ⟨⟨c, hc, hac, hbc⟩, c', hc', hac', hbc'⟩ := exists_translate ha hb hne
      have hfirst := h.translate c hc
      have hsecond := h.translate c' hc'
      rw [hac, hbc, hd] at hfirst
      rw [hac', hbc', hd] at hsecond
      rw [hfirst, hsecond]
    refine ⟨fun hd => ?_, fun hd => ?_, ?_⟩
    · exact absurd (hmoved _ hd (by decide)) (by decide)
    · exact absurd (hmoved _ hd (by decide)) (by decide)
    · rintro ⟨hlt, hdiff⟩
      have hanti := h.antisymm (by rw [gap_u32_of_lt hlt ha]; omega)
      have hpos : 0 < compareU32 a b := by
        rw [compareU32_pos_iff, compareU32_neg_iff]
        omega
      have hpos' : 0 < compareU32 b a := by
        rw [compareU32_pos_iff, compareU32_neg_iff]
        omega
      omega
  · rintro ⟨hbelow, hhalf, habove⟩
    refine ⟨compareU32_eq_zero_iff, ?_, fun _ => compareU32_swap ha hb hbelow hhalf habove, fun c _ => ?_⟩
    · rw [compareU32_eq_neg_one_iff]
      exact compareU32_neg_iff_before ha hb hbelow hhalf
    · have hmoved := gap_translate ha b c
      have ha' : (a + c) % 4294967296 < 4294967296 := Nat.mod_lt _ (by decide)
      have hb' : (b + c) % 4294967296 < 4294967296 := Nat.mod_lt _ (by decide)
      apply compareU32_congr
      · rw [← gap_eq_zero_iff ha' hb', hmoved, gap_eq_zero_iff ha hb]
      · rw [compareU32_neg_iff_before ha' hb' (by rwa [hmoved]) (by rwa [hmoved]),
          compareU32_neg_iff_before ha hb hbelow hhalf]
        exact before_translate ha b c

/-- Numbers that are neither equal nor about half of all numbers apart. -/
theorem serialOrder_wrapping : SerialOrder 4294967290 5 :=
  (serialOrder_iff (by decide) (by decide)).2 (by decide)

/-- `0x7FFFFFFF` is less than half of all numbers ahead of zero, and yet not after it. -/
theorem not_serialOrder_zero : ¬ SerialOrder 0 2147483647 := by
  intro h
  have hbefore : compareU32 0 2147483647 = -1 := h.before.2 (by decide)
  exact absurd hbefore (by decide)

end SunProxy.Net
