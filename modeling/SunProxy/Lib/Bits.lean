/-
The bits of a byte list, most significant first, and what comparing a prefix of them takes: the
whole bytes of the prefix, and the high bits of the next one, which a mask of the sign-extended
byte selects.
-/
import Mathlib.Data.List.Basic
import Mathlib.Tactic.Ring

namespace SunProxy.Bits

/-- The bits of a byte, most significant first. -/
def byteBits (b : UInt8) : List Bool := (List.range 8).map b.toBitVec.getMsbD

/-- The bits of a byte list. -/
def bits (bs : List UInt8) : List Bool := bs.flatMap byteBits

@[simp] theorem bits_nil : bits [] = [] := rfl

@[simp] theorem bits_cons (b : UInt8) (bs : List UInt8) : bits (b :: bs) = byteBits b ++ bits bs := rfl

@[simp] theorem length_byteBits (b : UInt8) : (byteBits b).length = 8 := rfl

theorem byteBits_take_eq {x y : UInt8} {k : Nat} (hk : k ≤ 8) :
    (byteBits x).take k = (byteBits y).take k ↔ ∀ i < k, x.toBitVec.getMsbD i = y.toBitVec.getMsbD i := by
  simp only [byteBits, ← List.map_take, List.take_range, Nat.min_eq_left hk]
  simp [List.map_inj_left]

theorem byteBits_injective : Function.Injective byteBits := by
  intro x y h
  have := (byteBits_take_eq (Nat.le_refl 8)).1 (congrArg (List.take 8) h)
  apply UInt8.toBitVec_inj.1
  apply BitVec.eq_of_getMsbD_eq
  exact fun i hi => this i hi

/-! ## Prefixes -/

/-- A prefix of bits is compared byte by byte, then in the next byte. -/
theorem take_bits_cons (x y : UInt8) (a b : List UInt8) (n : Nat) :
    (bits (x :: a)).take n = (bits (y :: b)).take n ↔
      if n < 8 then (byteBits x).take n = (byteBits y).take n
      else x = y ∧ (bits a).take (n - 8) = (bits b).take (n - 8) := by
  simp only [bits_cons, List.take_append, length_byteBits]
  split
  · rename_i h
    rw [show n - 8 = 0 by omega]
    simp
  · rename_i h
    have full : ∀ b, (byteBits b).take n = byteBits b := fun b => List.take_of_length_le (by simp; omega)
    rw [full, full]
    constructor
    · intro h
      obtain ⟨h1, h2⟩ := List.append_inj h (by simp)
      exact ⟨byteBits_injective h1, h2⟩
    · rintro ⟨rfl, h⟩; rw [h]

/-- A prefix of bits is the whole bytes in it and the high bits of the next byte. -/
theorem take_bits_iff {a b : List UInt8} {n : Nat} (ha : n ≤ 8 * a.length) (hb : n ≤ 8 * b.length) :
    (bits a).take n = (bits b).take n ↔ a.take (n / 8) = b.take (n / 8) ∧
      ∀ x y, a[n / 8]? = some x → b[n / 8]? = some y → (byteBits x).take (n % 8) = (byteBits y).take (n % 8) := by
  induction a generalizing b n with
  | nil =>
    obtain rfl : n = 0 := by simpa using ha
    simp
  | cons x a ih =>
    cases b with
    | nil =>
      obtain rfl : n = 0 := by simpa using hb
      simp
    | cons y b =>
      simp only [List.length_cons] at ha hb
      rw [take_bits_cons]
      split
      · rename_i h
        simp [Nat.div_eq_of_lt h, Nat.mod_eq_of_lt h]
      · rename_i h
        obtain ⟨m, rfl⟩ : ∃ m, n = m + 8 := ⟨n - 8, by omega⟩
        rw [Nat.add_sub_cancel, ih (by omega) (by omega), Nat.add_div_right m (by decide), Nat.add_mod_right]
        simp only [List.take_succ_cons, List.cons.injEq, List.getElem?_cons_succ, and_assoc]

theorem getLsbD_mask (k i : Nat) :
    (0xff#32 <<< k).getLsbD i = decide (i < 32 ∧ k ≤ i ∧ i < k + 8) := by
  rw [show 0xff#32 = (BitVec.allOnes 8).setWidth 32 by decide, BitVec.getLsbD_shiftLeft, BitVec.getLsbD_setWidth,
    BitVec.getLsbD_allOnes, Bool.eq_iff_iff]
  simp
  omega

/-- Masking a sign-extended byte with its `k` high bits and everything above compares `k` bits. -/
theorem signExtend_mask_eq (x y : BitVec 8) {k : Nat} (h0 : 0 < k) (hk : k < 8) :
    x.signExtend 32 &&& (0xff#32 <<< (8 - k)) = y.signExtend 32 &&& (0xff#32 <<< (8 - k)) ↔
      ∀ i < k, x.getMsbD i = y.getMsbD i := by
  constructor
  · intro h i hi
    have := congrArg (BitVec.getLsbD · (7 - i)) h
    simp only [BitVec.getLsbD_and, getLsbD_mask, BitVec.getLsbD_signExtend] at this
    simpa [BitVec.getMsbD, show i < 8 by omega, show 8 - k ≤ 7 - i by omega, show 7 - i < 8 by omega,
      show 7 - i < 32 by omega, show 7 - i < 8 - k + 8 by omega] using this
  · intro h
    apply BitVec.eq_of_getLsbD_eq
    intro i hi
    simp only [BitVec.getLsbD_and, getLsbD_mask, BitVec.getLsbD_signExtend]
    -- a bit above the byte repeats the byte's own highest bit, which is selected
    by_cases hm : 8 - k ≤ i
    · have h7 : x.msb = y.msb := h 0 h0
      have hl : i < 8 → x.getLsbD i = y.getLsbD i := fun h8 => by
        have := h (7 - i) (by omega)
        simpa [BitVec.getMsbD, show 7 - i < 8 by omega, show 7 - (7 - i) = i by omega] using this
      split
      · rename_i h8; rw [hl h8]
      · rw [h7]
    · simp [hm]

end SunProxy.Bits
