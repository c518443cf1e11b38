/-
One's-complement sums of words up to `m`: a carry out of a word counts as one more. What is left when no
carry is, is the residue modulo `m`, with `m` in the place of zero unless the sum itself is zero. Words of
two digits can be summed with either digit first.
-/
import Mathlib.Data.Nat.ModEq
import Mathlib.Data.Nat.GCD.Basic
import Mathlib.Tactic.Ring

namespace SunProxy.OnesComplement

/-! ## Carries -/

/-- What is left of a sum when its carries are added back. -/
def endAround (m n : Nat) : Nat := if n = 0 then 0 else (n - 1) % m + 1

section EndAround

variable {m : Nat}

theorem endAround_zero : endAround m 0 = 0 := if_pos rfl

theorem endAround_pos {n : Nat} (h : 0 < n) : endAround m n = (n - 1) % m + 1 := if_neg (Nat.pos_iff_ne_zero.1 h)

theorem endAround_of_le {n : Nat} (h : n ≤ m) : endAround m n = n := by
  rcases Nat.eq_zero_or_pos n with rfl | hpos
  · exact endAround_zero
  · rw [endAround_pos hpos, Nat.mod_eq_of_lt (by omega)]
    omega

theorem endAround_le (hm : 0 < m) (n : Nat) : endAround m n ≤ m := by
  rcases Nat.eq_zero_or_pos n with rfl | hpos
  · rw [endAround_zero]
    exact Nat.zero_le m
  · rw [endAround_pos hpos]
    exact Nat.mod_lt _ hm

theorem endAround_eq_zero {n : Nat} : endAround m n = 0 ↔ n = 0 := by
  constructor
  · intro h
    by_contra hne
    rw [endAround, if_neg hne] at h
    cases h
  · rintro rfl
    exact endAround_zero

theorem endAround_modEq (n : Nat) : endAround m n ≡ n [MOD m] := by
  rcases Nat.eq_zero_or_pos n with rfl | hpos
  · rw [endAround_zero]
  · rw [endAround_pos hpos]
    have h := (Nat.mod_modEq (n - 1) m).add_right 1
    rwa [Nat.sub_add_cancel hpos] at h

/-- The residue and being zero decide what is left. -/
theorem endAround_congr {n n' : Nat} (h : n ≡ n' [MOD m]) (hzero : n = 0 ↔ n' = 0) :
    endAround m n = endAround m n' := by
  by_cases hn : n = 0
  · rw [hn, hzero.1 hn]
  · have hpos := Nat.pos_of_ne_zero hn
    have hpos' := Nat.pos_of_ne_zero (mt hzero.2 hn)
    have hpred : n - 1 ≡ n' - 1 [MOD m] := by
      apply Nat.ModEq.add_right_cancel' 1
      rwa [Nat.sub_add_cancel hpos, Nat.sub_add_cancel hpos']
    rw [endAround_pos hpos, endAround_pos hpos', hpred]

/-- One round of adding the carry back. -/
theorem endAround_carry (n : Nat) : endAround m (n % (m + 1) + n / (m + 1)) = endAround m n := by
  have hdiv := Nat.mod_add_div n (m + 1)
  have hbase : 1 ≡ m + 1 [MOD m] := Nat.right_modEq_add_iff.2 (Nat.dvd_refl m)
  apply endAround_congr
  · calc n % (m + 1) + n / (m + 1) = n % (m + 1) + 1 * (n / (m + 1)) := by rw [Nat.one_mul]
      _ ≡ n % (m + 1) + (m + 1) * (n / (m + 1)) [MOD m] := (hbase.mul_right _).add_left _
      _ = n := hdiv
  · constructor
    · intro h
      rw [← hdiv, Nat.eq_zero_of_add_eq_zero_right h, Nat.eq_zero_of_add_eq_zero_left h]
      rfl
    · rintro rfl
      rw [Nat.zero_mod, Nat.zero_div]

/-- Carries can be added back on the way. -/
theorem endAround_add (a b : Nat) : endAround m (endAround m a + b) = endAround m (a + b) := by
  apply endAround_congr
  · exact (endAround_modEq a).add_right b
  · have := endAround_eq_zero (m := m) (n := a)
    omega

/-- All ones are left exactly of the multiples of `m` but zero. -/
theorem endAround_eq_top {n : Nat} (hm : 0 < m) : endAround m n = m ↔ 0 < n ∧ m ∣ n := by
  constructor
  · intro h
    refine ⟨Nat.pos_of_ne_zero ?_, ?_⟩
    · rintro rfl
      rw [endAround_zero] at h
      omega
    · have hmod := endAround_modEq (m := m) n
      rw [h] at hmod
      exact Nat.modEq_zero_iff_dvd.1 (hmod.symm.trans Nat.modulus_modEq_zero)
  · rintro ⟨hpos, hdvd⟩
    have hsame : endAround m n = endAround m m := by
      apply endAround_congr
      · exact (Nat.modEq_zero_iff_dvd.2 hdvd).trans Nat.modulus_modEq_zero.symm
      · omega
    rw [hsame, endAround_of_le (Nat.le_refl m)]

/-- A sum and its complement leave all ones. -/
theorem endAround_complement (hm : 0 < m) (n : Nat) : endAround m (n + (m - endAround m n)) = m := by
  have hle := endAround_le hm n
  rw [← endAround_add, Nat.add_sub_cancel' hle, endAround_of_le (Nat.le_refl m)]

end EndAround

/-! ## Words -/

/-- The words of two digits in base `c`, the second digit more significant; a last digit is a word. -/
def wordsLow (c : Nat) : List Nat → List Nat
  | lo :: hi :: rest => (lo + c * hi) :: wordsLow c rest
  | [lo] => [lo]
  | [] => []

/-- The words of two digits, the first digit more significant; a last digit is followed by a zero. -/
def wordsHigh (c : Nat) : List Nat → List Nat
  | hi :: lo :: rest => (c * hi + lo) :: wordsHigh c rest
  | [hi] => [c * hi]
  | [] => []

section Words

variable {c : Nat}

theorem sum_wordsLow_append {xs : List Nat} (h : Even xs.length) (ys : List Nat) :
    (wordsLow c (xs ++ ys)).sum = (wordsLow c xs).sum + (wordsLow c ys).sum := by
  induction xs using wordsLow.induct with
  | case1 lo hi rest ih =>
    have hrest : Even rest.length := by
      rwa [List.length_cons, List.length_cons, Nat.even_add_one, Nat.even_add_one, not_not] at h
    simp only [List.cons_append, wordsLow, List.sum_cons, ih hrest, Nat.add_assoc]
  | case2 lo => simp at h
  | case3 => simp [wordsLow]

/-- In the other order the digits sum up to `c` times as much. -/
theorem sum_wordsHigh_modEq (hc : 0 < c) (ds : List Nat) :
    (wordsHigh c ds).sum ≡ c * (wordsLow c ds).sum [MOD c * c - 1] := by
  have hsquare : 1 ≡ c * c [MOD c * c - 1] := by
    rw [Nat.modEq_iff_dvd' (Nat.mul_pos hc hc)]
  induction ds using wordsLow.induct with
  | case1 d d' rest ih =>
    have hword : c * d + d' ≡ c * (d + c * d') [MOD c * c - 1] := by
      calc c * d + d' = c * d + 1 * d' := by rw [Nat.one_mul]
        _ ≡ c * d + c * c * d' [MOD c * c - 1] := (hsquare.mul_right d').add_left _
        _ = c * (d + c * d') := by ring
    simp only [wordsHigh, wordsLow, List.sum_cons, Nat.mul_add c (_ + _)]
    exact hword.add ih
  | case2 d => rfl
  | case3 => rfl

theorem sum_wordsHigh_eq_zero (hc : 0 < c) (ds : List Nat) : (wordsHigh c ds).sum = 0 ↔ (wordsLow c ds).sum = 0 := by
  induction ds using wordsLow.induct with
  | case1 d d' rest ih =>
    simp only [wordsHigh, wordsLow, List.sum_cons, Nat.add_eq_zero_iff, Nat.mul_eq_zero, ih]
    omega
  | case2 d =>
    simp only [wordsHigh, wordsLow, List.sum_cons, List.sum_nil, Nat.add_zero, Nat.mul_eq_zero]
    omega
  | case3 => rfl

/-- The order of the digits does not decide whether all ones are left. -/
theorem endAround_wordsHigh (hc : 1 < c) (ds : List Nat) :
    endAround (c * c - 1) (wordsHigh c ds).sum = c * c - 1 ↔ endAround (c * c - 1) (wordsLow c ds).sum = c * c - 1 := by
  have hsquare : 1 < c * c := lt_of_lt_of_le hc (Nat.le_mul_self c)
  have hcoprime : Nat.Coprime (c * c - 1) c := by
    have h := (Nat.coprime_self_sub_left hsquare.le).2 (Nat.coprime_one_left (c * c))
    exact h.coprime_mul_left_right
  have hdvd : c * c - 1 ∣ (wordsHigh c ds).sum ↔ c * c - 1 ∣ (wordsLow c ds).sum := by
    rw [(sum_wordsHigh_modEq (by omega) ds).dvd_iff (Nat.dvd_refl _), hcoprime.dvd_mul_left]
  have hzero := sum_wordsHigh_eq_zero (c := c) (by omega) ds
  rw [endAround_eq_top (by omega), endAround_eq_top (by omega), hdvd]
  omega

end Words

end SunProxy.OnesComplement
