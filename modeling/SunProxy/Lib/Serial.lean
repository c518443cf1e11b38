/-
Numbers below a bound that wrap: how far one is ahead of another, and the serial order, in which a
number is before the ones less than half of all numbers ahead of it.
-/
import Mathlib.Data.Nat.ModEq

namespace SunProxy.Serial

variable {n half a b c k x : Nat}

/-! ## Distance -/

/-- How far `b` is ahead of `a`, among the numbers below `n`. -/
def gap (n a b : Nat) : Nat := (b + n - a) % n

theorem gap_lt (hn : 0 < n) (a b : Nat) : gap n a b < n := Nat.mod_lt _ hn

theorem add_gap_modEq (ha : a < n) (b : Nat) : a + gap n a b ≡ b [MOD n] := by
  calc
    a + gap n a b ≡ a + (b + n - a) [MOD n] := (Nat.mod_modEq _ n).add_left a
    _ = b + n := by omega
    _ ≡ b [MOD n] := Nat.add_modEq_right

/-- The distance is the one number that leads from `a` to `b`. -/
theorem eq_gap (ha : a < n) (hx : x < n) (h : a + x ≡ b [MOD n]) : x = gap n a b := by
  have hgap : a + x ≡ a + gap n a b [MOD n] := h.trans (add_gap_modEq ha b).symm
  have hcancel : x ≡ gap n a b [MOD n] := Nat.ModEq.add_left_cancel' a hgap
  exact hcancel.eq_of_lt_of_lt hx (gap_lt (by omega) a b)

theorem gap_self (ha : a < n) : gap n a a = 0 := (eq_gap ha (by omega) (Nat.ModEq.refl a)).symm

theorem gap_eq_zero_iff (ha : a < n) (hb : b < n) : gap n a b = 0 ↔ a = b := by
  constructor
  · intro h
    have hmod := add_gap_modEq ha b
    rw [h] at hmod
    exact hmod.eq_of_lt_of_lt ha hb
  · rintro rfl
    exact gap_self ha

/-- Moving both numbers keeps their distance. -/
theorem gap_translate (ha : a < n) (b c : Nat) : gap n ((a + c) % n) ((b + c) % n) = gap n a b := by
  have hn : 0 < n := by omega
  refine (eq_gap (Nat.mod_lt _ hn) (gap_lt hn a b) ?_).symm
  calc
    (a + c) % n + gap n a b ≡ a + c + gap n a b [MOD n] := (Nat.mod_modEq _ n).add_right _
    _ = a + gap n a b + c := by omega
    _ ≡ b + c [MOD n] := (add_gap_modEq ha b).add_right c
    _ ≡ (b + c) % n [MOD n] := (Nat.mod_modEq _ n).symm

theorem gap_add (ha : a < n) (b k : Nat) : gap n a ((b + k) % n) = (gap n a b + k) % n := by
  have hn : 0 < n := by omega
  refine (eq_gap ha (Nat.mod_lt _ hn) ?_).symm
  calc
    a + (gap n a b + k) % n ≡ a + (gap n a b + k) [MOD n] := (Nat.mod_modEq _ n).add_left a
    _ = a + gap n a b + k := by omega
    _ ≡ b + k [MOD n] := (add_gap_modEq ha b).add_right k
    _ ≡ (b + k) % n [MOD n] := (Nat.mod_modEq _ n).symm

/-! ## The serial order -/

/-- `a` is before `b`, among the numbers below `2 * half`. -/
def Before (half a b : Nat) : Prop := 0 < gap (2 * half) a b ∧ gap (2 * half) a b < half

instance (half a b : Nat) : Decidable (Before half a b) := inferInstanceAs (Decidable (_ ∧ _))

theorem before_translate (ha : a < 2 * half) (b c : Nat) :
    Before half ((a + c) % (2 * half)) ((b + c) % (2 * half)) ↔ Before half a b := by
  unfold Before
  rw [gap_translate ha]

end SunProxy.Serial
