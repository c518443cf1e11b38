/-
The loop over the options of a SYN, on any bytes. It takes an option's length byte on trust and reads
it, and the value of an MSS or window scale option, before it looks at how much is left: the options
it decodes without leaving the area or going round for ever are those `Readable` describes.
-/
import SunProxy.Net.Tcp
import SunProxy.Lib.Result

namespace SunProxy.Net

open SunProxy.Buffer SunProxy.Result

/-! ## The options of an area -/

/-- The options before the end-of-list marker, each with the bytes its length byte counts, as far as
the area has them. One of length zero has no end. -/
def splitOptions : Bytes → List Bytes
  | [] => []
  | [_] => []
  | kind :: len :: rest =>
    if kind = 0 then []
    else if kind = 1 then splitOptions (len :: rest)
    else if _h : len.toNat = 0 then []
    else (kind :: len :: rest).take len.toNat :: splitOptions ((kind :: len :: rest).drop len.toNat)
termination_by area => area.length

/-- The value of a well-formed MSS option. -/
def optionMss? : Bytes → Option Nat
  | [kind, len, hi, lo] => if kind = 2 ∧ len = 4 then some (hi.toNat * 256 + lo.toNat) else none
  | _ => none

/-- The value of a well-formed window scale option. -/
def optionScale? : Bytes → Option Nat
  | [kind, len, ws] => if kind = 3 ∧ len = 3 then some ws.toNat else none
  | _ => none

def lastMss (os : List Bytes) (mss : Nat) : Nat := (os.filterMap optionMss?).getLastD mss

def lastScale (os : List Bytes) (ws : Nat) : Nat := (os.filterMap optionScale?).getLastD ws

/-- Wherever the area stands in a packet, the loop ends with the last well-formed values. Where
nothing follows the area, a byte behind it cannot be read. -/
def DecodesOptions (area : Bytes) (mss : Nat) : Prop :=
  ∀ pre tail, synOptions (pre ++ (area ++ tail)) area.length area.length pre.length mss 0 =
    .ok (lastMss (splitOptions area) mss, lastScale (splitOptions area) 0)

/-- Every option up to the marker has a byte behind its kind, an option with a length byte has not
length 0, and an MSS option of length 4 or window scale option of length 3 has its value. -/
def Readable : Bytes → Prop
  | [] => True
  | [_] => False
  | kind :: len :: rest =>
    if kind = 0 then True
    else if kind = 1 then Readable (len :: rest)
    else if _h : len.toNat = 0 then False
    else (kind = 2 ∧ len = 4 → 2 ≤ rest.length) ∧ (kind = 3 ∧ len = 3 → 1 ≤ rest.length) ∧
      Readable ((kind :: len :: rest).drop len.toNat)
termination_by area => area.length

/-! ## One option -/

theorem lastMss_cons (o : Bytes) (os : List Bytes) (mss : Nat) :
    lastMss (o :: os) mss = lastMss os ((optionMss? o).getD mss) := by
  cases h : optionMss? o <;>
    simp only [lastMss, List.filterMap_cons, h, List.getLastD_cons, Option.getD_some, Option.getD_none]

theorem lastScale_cons (o : Bytes) (os : List Bytes) (ws : Nat) :
    lastScale (o :: os) ws = lastScale os ((optionScale? o).getD ws) := by
  cases h : optionScale? o <;>
    simp only [lastScale, List.filterMap_cons, h, List.getLastD_cons, Option.getD_some, Option.getD_none]

/-- What is taken of two bytes and more starts with them. -/
theorem eq_of_take_eq {kind len k l : UInt8} {rest tail : Bytes} {n : Nat}
    (h : (kind :: len :: rest).take n = k :: l :: tail) :
    k = kind ∧ l = len := by
  obtain ⟨after, hafter⟩ := List.take_prefix n (kind :: len :: rest)
  rw [h, List.cons_append, List.cons_append, List.cons.injEq, List.cons.injEq] at hafter
  exact ⟨hafter.1, hafter.2.1⟩

theorem optionMss?_take {kind len : UInt8} {rest : Bytes} (h : ¬(kind = 2 ∧ len = 4)) (n : Nat) :
    optionMss? ((kind :: len :: rest).take n) = none := by
  unfold optionMss?
  split
  · rename_i k l hi lo heq
    obtain ⟨hkind, hlen⟩ := eq_of_take_eq heq
    rw [hkind, hlen, if_neg h]
  · rfl

theorem optionScale?_take {kind len : UInt8} {rest : Bytes} (h : ¬(kind = 3 ∧ len = 3)) (n : Nat) :
    optionScale? ((kind :: len :: rest).take n) = none := by
  unfold optionScale?
  split
  · rename_i k l ws heq
    obtain ⟨hkind, hlen⟩ := eq_of_take_eq heq
    rw [hkind, hlen, if_neg h]
  · rfl

/-- One round of the loop, at an option with a byte behind its kind. -/
theorem synOptions_round (pre tail : Bytes) (kind len : UInt8) (rest : Bytes) (fuel mss ws : Nat) :
    synOptions (pre ++ (kind :: len :: rest ++ tail)) (fuel + 1) (kind :: len :: rest).length pre.length mss ws =
      if kind = 0 then .ok (mss, ws)
      else if kind = 1 then synOptions (pre ++ (kind :: len :: rest ++ tail)) fuel
      ((kind :: len :: rest).length - (1 : Nat))
        (pre.length + 1) mss ws
      else if kind = 2 ∧ len = 4 then do
        let mss ← loadBe16 (pre ++ (kind :: len :: rest ++ tail)) (pre.length + 2)
        synOptions (pre ++ (kind :: len :: rest ++ tail)) fuel ((kind :: len :: rest).length - (4 : Nat))
          (pre.length + 4) mss ws
      else if kind = 3 ∧ len = 3 then do
        let ws ← load (pre ++ (kind :: len :: rest ++ tail)) (pre.length + 2)
        synOptions (pre ++ (kind :: len :: rest ++ tail)) fuel ((kind :: len :: rest).length - (3 : Nat))
          (pre.length + 3) mss ws.toNat
      else synOptions (pre ++ (kind :: len :: rest ++ tail)) fuel ((kind :: len :: rest).length - len.toNat)
        (pre.length + len.toNat) mss ws := by
  have hkind : load (pre ++ (kind :: len :: rest ++ tail)) pre.length = .ok kind := load_append pre _ rfl
  have hlen : load (pre ++ (kind :: len :: rest ++ tail)) (pre.length + 1) = .ok len := by
    have := load_append (pre ++ [kind]) (rest ++ tail) (b := len) (i := pre.length + 1) (by simp)
    rwa [List.append_assoc] at this
  have hpos : ¬((kind :: len :: rest).length : Int) ≤ 0 := by simp only [List.length_cons]; omega
  conv_lhs => unfold synOptions
  rw [if_neg hpos]
  simp only [hkind, hlen, bind, Except.bind, pure, Except.pure]
  rfl

theorem exists_two {rest : Bytes} (h : 2 ≤ rest.length) : ∃ hi lo rest', rest = hi :: lo :: rest' := by
  match rest, h with
  | hi :: lo :: rest', _ => exact ⟨hi, lo, rest', rfl⟩

theorem load_third (pre tail : Bytes) (kind len b : UInt8) (rest : Bytes) :
    load (pre ++ (kind :: len :: b :: rest ++ tail)) (pre.length + 2) = .ok b := by
  have := load_append (pre ++ [kind, len]) (rest ++ tail) (b := b) (i := pre.length + 2) (by simp)
  rwa [List.append_assoc] at this

theorem loadBe16_third (pre tail : Bytes) (kind len hi lo : UInt8) (rest : Bytes) :
    loadBe16 (pre ++ (kind :: len :: hi :: lo :: rest ++ tail)) (pre.length + 2) = .ok (hi.toNat * 256 + lo.toNat) := by
  have := loadBe16_bytes (pre ++ [kind, len]) hi lo (rest ++ tail) (i := pre.length + 2) (by simp)
  rwa [List.append_assoc] at this

theorem synOptions_done (pkt : Bytes) (fuel : Nat) {optlen : Int} (h : optlen ≤ 0) (options mss ws : Nat) :
    synOptions pkt fuel optlen options mss ws = .ok (mss, ws) := by
  cases fuel <;> rw [synOptions, if_pos h]

/-- An option of length zero is met for ever. -/
theorem synOptions_zero (pre tail : Bytes) {kind len : UInt8} (rest : Bytes) (h0 : kind ≠ 0) (h1 : kind ≠ 1)
    (hlen : len.toNat = 0) (fuel mss ws : Nat) :
    synOptions (pre ++ (kind :: len :: rest ++ tail)) fuel (kind :: len :: rest).length pre.length mss ws =
      .error .hang := by
  have h4 : ¬(kind = 2 ∧ len = 4) := by rintro ⟨-, rfl⟩; exact absurd hlen (by decide)
  have h3 : ¬(kind = 3 ∧ len = 3) := by rintro ⟨-, rfl⟩; exact absurd hlen (by decide)
  induction fuel with
  | zero => rw [synOptions, if_neg (by simp only [List.length_cons]; omega)]
  | succ fuel ih =>
    have hsame : ((kind :: len :: rest).length - len.toNat : Int) = (kind :: len :: rest).length := by
      rw [hlen]
      omega
    rw [synOptions_round, if_neg h0, if_neg h1, if_neg h4, if_neg h3, hsame, hlen, Nat.add_zero]
    exact ih

/-- The loop behind the first `n` bytes of the area. -/
theorem synOptions_advance (pre area tail : Bytes) {n : Nat} (hn : n ≤ area.length) (fuel mss ws : Nat) :
    synOptions (pre ++ (area ++ tail)) fuel (area.length - n) (pre.length + n) mss ws =
      synOptions ((pre ++ area.take n) ++ (area.drop n ++ tail)) fuel (area.drop n).length (pre ++ area.take n).length
        mss ws := by
  have hpkt : pre ++ (area ++ tail) = (pre ++ area.take n) ++ (area.drop n ++ tail) := by
    conv_lhs => rw [← List.take_append_drop n area]
    simp only [List.append_assoc]
  have hlen : (area.length - n : Int) = (area.drop n).length := by
    rw [List.length_drop]
    omega
  have hplace : (pre ++ area.take n).length = pre.length + n := by
    rw [List.length_append, List.length_take, Nat.min_eq_left hn]
  rw [hpkt, hlen, hplace]

/-! ## The whole area -/

/-- A readable area is decoded. -/
theorem synOptions_of_readable {area : Bytes} (h : Readable area) (pre tail : Bytes) {fuel : Nat}
    (hfuel : area.length ≤ fuel) (mss ws : Nat) :
    synOptions (pre ++ (area ++ tail)) fuel area.length pre.length mss ws =
      .ok (lastMss (splitOptions area) mss, lastScale (splitOptions area) ws) := by
  induction area using splitOptions.induct generalizing pre fuel mss ws with
  | case1 => rw [splitOptions]; exact synOptions_done _ _ (Int.le_refl 0) _ _ _
  | case2 b => rw [Readable] at h; exact h.elim
  | case3 len rest =>
    obtain ⟨fuel, rfl⟩ := Nat.exists_eq_add_one_of_ne_zero (show fuel ≠ 0 by simp at hfuel; omega)
    rw [synOptions_round, if_pos rfl, splitOptions, if_pos rfl]
    rfl
  -- a NOP is a round of one byte
  | case4 len rest h0 ih =>
    obtain ⟨fuel, rfl⟩ := Nat.exists_eq_add_one_of_ne_zero (show fuel ≠ 0 by simp at hfuel; omega)
    rw [Readable, if_neg h0, if_pos rfl] at h
    rw [synOptions_round, if_neg h0, if_pos rfl, synOptions_advance _ _ _ (by simp), splitOptions, if_neg h0,
      if_pos rfl]
    exact ih h (pre ++ [1]) (Nat.le_of_succ_le_succ hfuel) mss ws
  | case5 kind len rest h0 h1 hlen =>
    rw [Readable, if_neg h0, if_neg h1, dif_pos hlen] at h
    exact h.elim
  | case6 kind len rest h0 h1 hlen ih =>
    obtain ⟨fuel, rfl⟩ := Nat.exists_eq_add_one_of_ne_zero (show fuel ≠ 0 by simp at hfuel; omega)
    rw [Readable, if_neg h0, if_neg h1, dif_neg hlen] at h
    obtain ⟨hmss, hscale, hrest⟩ := h
    rw [synOptions_round, if_neg h0, if_neg h1, splitOptions, if_neg h0, if_neg h1, dif_neg hlen, lastMss_cons,
      lastScale_cons]
    have hfuel : ((kind :: len :: rest).drop len.toNat).length ≤ fuel := by
      rw [List.length_drop]
      simp only [List.length_cons] at hfuel ⊢
      omega
    -- the two kinds that are looked at lie inside; of the others only the length counts
    by_cases hm : kind = 2 ∧ len = 4
    · obtain ⟨hi, lo, rest, rfl⟩ := exists_two (hmss hm)
      obtain ⟨rfl, rfl⟩ := hm
      rw [if_pos ⟨rfl, rfl⟩, loadBe16_third]
      simp only [bind, Except.bind]
      rw [synOptions_advance _ _ _ (by simp)]
      exact ih hrest _ hfuel _ _
    · by_cases hs : kind = 3 ∧ len = 3
      · obtain ⟨w, rest, rfl⟩ := List.exists_cons_of_length_pos (hscale hs)
        obtain ⟨rfl, rfl⟩ := hs
        rw [if_neg hm, if_pos ⟨rfl, rfl⟩, load_third]
        simp only [bind, Except.bind]
        rw [synOptions_advance _ _ _ (by simp)]
        exact ih hrest _ hfuel _ _
      · rw [if_neg hm, if_neg hs, optionMss?_take hm, optionScale?_take hs]
        by_cases hfit : len.toNat ≤ (kind :: len :: rest).length
        · rw [synOptions_advance _ _ _ hfit]
          exact ih hrest _ hfuel _ _
        -- an option that ends behind the area ends the loop
        · rw [synOptions_done _ _ (by omega), List.drop_of_length_le (by omega)]
          rw [splitOptions]
          rfl

theorem exists_fuel {pkt : Bytes} {fuel options mss ws : Nat} {optlen : Int} {r : Nat × Nat} (hpos : ¬optlen ≤ 0)
    (h : synOptions pkt fuel optlen options mss ws = .ok r) : ∃ n, fuel = n + 1 := by
  cases fuel with
  | zero =>
    rw [synOptions, if_neg hpos] at h
    cases h
  | succ n => exact ⟨n, rfl⟩

/-- What is decoded without anything behind the area is readable. -/
theorem readable_of_synOptions {area : Bytes} {pre : Bytes} {fuel mss ws : Nat} {r : Nat × Nat}
    (h : synOptions (pre ++ (area ++ [])) fuel area.length pre.length mss ws = .ok r) : Readable area := by
  induction area using splitOptions.induct generalizing pre fuel mss ws with
  | case1 => rw [Readable]; trivial
  | case2 b =>
    -- the length byte is read before the kind is looked at
    obtain ⟨fuel, rfl⟩ := exists_fuel (by simp) h
    rw [synOptions, if_neg (by simp)] at h
    obtain ⟨kind, -, h⟩ := bind_eq_ok h
    obtain ⟨len, hlen, -⟩ := bind_eq_ok h
    have := load_lt_of_ok hlen
    simp at this
  | case3 len rest => rw [Readable, if_pos rfl]; trivial
  | case4 len rest h0 ih =>
    obtain ⟨fuel, rfl⟩ := exists_fuel (by simp only [List.length_cons]; omega) h
    rw [synOptions_round, if_neg h0, if_pos rfl, synOptions_advance _ _ _ (by simp)] at h
    rw [Readable, if_neg h0, if_pos rfl]
    exact ih h
  | case5 kind len rest h0 h1 hlen =>
    rw [synOptions_zero pre [] rest h0 h1 hlen] at h
    cases h
  | case6 kind len rest h0 h1 hlen ih =>
    obtain ⟨fuel, rfl⟩ := exists_fuel (by simp only [List.length_cons]; omega) h
    rw [synOptions_round, if_neg h0, if_neg h1] at h
    rw [Readable, if_neg h0, if_neg h1, dif_neg hlen]
    by_cases hm : kind = 2 ∧ len = 4
    · rw [if_pos hm] at h
      obtain ⟨m, hload, h⟩ := bind_eq_ok h
      have hroom := le_of_loadBe16 hload
      simp only [List.append_nil, List.length_append, List.length_cons] at hroom
      obtain ⟨rfl, rfl⟩ := hm
      rw [synOptions_advance _ _ _ (by simp only [List.length_cons]; omega)] at h
      exact ⟨fun _ => by omega, fun hs => absurd hs.1 (by decide), ih h⟩
    · rw [if_neg hm] at h
      by_cases hs : kind = 3 ∧ len = 3
      · rw [if_pos hs] at h
        obtain ⟨w, hload, h⟩ := bind_eq_ok h
        have hroom := load_lt_of_ok hload
        simp only [List.append_nil, List.length_append, List.length_cons] at hroom
        obtain ⟨rfl, rfl⟩ := hs
        rw [synOptions_advance _ _ _ (by simp only [List.length_cons]; omega)] at h
        exact ⟨fun hm => absurd hm.1 (by decide), fun _ => by omega, ih h⟩
      · rw [if_neg hs] at h
        refine ⟨fun h => absurd h hm, fun h => absurd h hs, ?_⟩
        by_cases hfit : len.toNat ≤ (kind :: len :: rest).length
        · rw [synOptions_advance _ _ _ hfit] at h
          exact ih h
        · rw [List.drop_of_length_le (by omega), Readable]
          trivial

/-- The loop ends, stays in the area and gives the last values exactly when the area is readable. -/
theorem decodesOptions_iff (area : Bytes) (mss : Nat) : DecodesOptions area mss ↔ Readable area := by
  constructor
  · intro h
    exact readable_of_synOptions (h [] [])
  · intro h pre tail
    exact synOptions_of_readable h pre tail (Nat.le_refl _) mss 0

/-- An option of length zero makes the loop go round for ever. -/
theorem not_decodesOptions_zero : ¬∀ (area : Bytes) (mss : Nat), area.length ≤ 40 → DecodesOptions area mss := by
  intro h
  have hrun := h [8, 0, 0, 0] 1460 (by decide) [] []
  have hhang : synOptions ([] ++ ([8, 0, 0, 0] ++ [])) 4 (4 : Nat) 0 1460 0 = .error .hang :=
    synOptions_zero [] [] [0, 0] (by decide) (by decide) (by decide) 4 1460 0
  cases hhang.symm.trans hrun

end SunProxy.Net
