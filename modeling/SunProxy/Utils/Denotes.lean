/-
The addresses that address texts write, read off the texts' form and not off the program: four
decimal numbers for IPv4; for IPv6 eight groups of hexadecimal digits, or two lists of groups with
`::` for the zeros between them. Every text the validators accept writes one address, and the
program's byte arrays hold it.
-/
import SunProxy.Utils.Range
import Mathlib.Data.List.Chain

namespace SunProxy.Utils

open SunProxy.Kotlin SunProxy.Seq SunProxy.Bits

/-- Four decimal numbers between dots, each the value of its byte. -/
inductive Ipv4Denotes (t : CharTables) : Str → List UInt8 → Prop
  | dotted {p q r s : Str} {a b c d : UInt8} (hp : toIntOrNull t 10 p = some (a.toNat : Int))
      (hq : toIntOrNull t 10 q = some (b.toNat : Int)) (hr : toIntOrNull t 10 r = some (c.toNat : Int))
      (hs : toIntOrNull t 10 s = some (d.toNat : Int)) :
      Ipv4Denotes t (['.'].intercalate [p, q, r, s]) [a, b, c, d]

/-- The number that ASCII digits write. -/
def digitsNat (radix : Nat) (s : Str) : Nat := s.foldl (fun acc c => acc * radix + (asciiDigit c).getD 0) 0

/-- The number a group of hexadecimal digits writes. -/
def groupValue (g : Str) : Nat := digitsNat 16 g

def groupBytes (g : Str) : List UInt8 := [UInt8.ofNat (groupValue g / 256), UInt8.ofNat (groupValue g % 256)]

/-- Groups between colons. -/
def joinGroups (gs : List Str) : Str := [':'].intercalate gs

/-- Eight groups, or `::` for the groups of zeros that two lists of groups leave open. -/
inductive Ipv6Denotes : Str → List UInt8 → Prop
  | full {gs : List Str} (h : ∀ g ∈ gs, isGroup g = true) (h8 : gs.length = 8) :
      Ipv6Denotes (joinGroups gs) (gs.flatMap groupBytes)
  | compressed {l r : List Str} (hl : ∀ g ∈ l, isGroup g = true) (hr : ∀ g ∈ r, isGroup g = true)
      (h8 : l.length + r.length < 8) :
      Ipv6Denotes (joinGroups l ++ ("::".toList ++ joinGroups r))
        (l.flatMap groupBytes ++ (List.replicate (2 * (8 - l.length - r.length)) 0 ++ r.flatMap groupBytes))

/-! ## Groups -/

/-- A character that stands for a digit of a number, and not for a sign. -/
def IsDigit (radix : Nat) (c : Char) : Prop := ∃ d, asciiDigit c = some d ∧ d < radix ∧ c.toNat < 128

/-- Digits, read from a value `acc` on. -/
theorem foldlM_digits {t : CharTables} {radix : Nat} {s : Str} (h : ∀ c ∈ s, IsDigit radix c) (acc : Nat) :
    (s.foldlM (fun acc c => (t.digitOf c radix).map (acc * radix + ·)) acc =
      some (s.foldl (fun acc c => acc * radix + (asciiDigit c).getD 0) acc)) ∧
    s.foldl (fun acc c => acc * radix + (asciiDigit c).getD 0) acc < (acc + 1) * radix ^ s.length := by
  induction s generalizing acc with
  | nil => simp
  | cons c s ih =>
    obtain ⟨d, hd, hlt, hc⟩ := h c (List.mem_cons_self ..)
    have hdig : t.digitOf c radix = some d := by rw [t.digitOf_ascii c radix hc, hd]; simp [hlt]
    obtain ⟨h1, h2⟩ := ih (fun c hc => h c (List.mem_cons_of_mem _ hc)) (acc * radix + d)
    simp only [List.foldlM_cons, List.foldl_cons, hdig, hd, Option.map_some, Option.bind_eq_bind, Option.bind_some,
      Option.getD_some, List.length_cons]
    refine ⟨h1, h2.trans_le ?_⟩
    calc (acc * radix + d + 1) * radix ^ s.length ≤ ((acc + 1) * radix) * radix ^ s.length :=
          Nat.mul_le_mul_right _ (by rw [Nat.succ_mul]; omega)
      _ = (acc + 1) * radix ^ (s.length + 1) := by rw [Nat.pow_succ, Nat.mul_assoc, Nat.mul_comm radix]

theorem digitsNat_lt {t : CharTables} {radix : Nat} {s : Str} (h : ∀ c ∈ s, IsDigit radix c) :
    digitsNat radix s < radix ^ s.length := by
  have := (foldlM_digits (t := t) h 0).2
  rwa [Nat.zero_add, Nat.one_mul] at this

/-- A number of digits in the range of `Int` is read as what it writes. -/
theorem toIntOrNull_digits {t : CharTables} {radix : Nat} {s : Str} (h : ∀ c ∈ s, IsDigit radix c) (hs : s ≠ [])
    (hlt : digitsNat radix s < 0x80000000) : toIntOrNull t radix s = some (digitsNat radix s : Int) := by
  cases s with
  | nil => exact absurd rfl hs
  | cons c s =>
    obtain ⟨d, hd, -, -⟩ := h c (List.mem_cons_self ..)
    have hc : ¬ c.toNat < '0'.toNat :=
      fun hlt => absurd (show c.toNat < 48 from hlt) (by have := asciiDigit_range hd; omega)
    rw [toIntOrNull, if_neg hc, digitsValue, (foldlM_digits h 0).1]
    exact if_pos hlt

theorem isDigit_of_hex {c : Char} (h : isHexDigit c = true) : IsDigit 16 c := by
  simp only [isHexDigit, Bool.or_eq_true, Bool.and_eq_true, decide_eq_true_eq] at h
  rcases h with ⟨h1, h2⟩ | ⟨h1, h2⟩ | ⟨h1, h2⟩
  · have n1 : 48 ≤ c.toNat := h1
    have n2 : c.toNat ≤ 57 := h2
    exact ⟨c.toNat - 48, by simp [asciiDigit, h1, h2], by omega, by omega⟩
  · have n1 : 97 ≤ c.toNat := h1
    have n2 : c.toNat ≤ 102 := h2
    have h9 : ¬ c ≤ '9' := fun h => absurd (show c.toNat ≤ 57 from h) (by omega)
    have hz : c ≤ 'z' := show c.toNat ≤ 122 by omega
    exact ⟨c.toNat - 87, by simp [asciiDigit, h1, h9, hz], by omega, by omega⟩
  · have n1 : 65 ≤ c.toNat := h1
    have n2 : c.toNat ≤ 70 := h2
    have h9 : ¬ c ≤ '9' := fun h => absurd (show c.toNat ≤ 57 from h) (by omega)
    have ha : ¬ 'a' ≤ c := fun h => absurd (show 97 ≤ c.toNat from h) (by omega)
    have hz : c ≤ 'Z' := show c.toNat ≤ 90 by omega
    exact ⟨c.toNat - 55, by simp [asciiDigit, h1, h9, ha, hz], by omega, by omega⟩

theorem isDigit_of_group {g : Str} (h : isGroup g = true) : ∀ c ∈ g, IsDigit 16 c := by
  simp only [isGroup, Bool.and_eq_true, List.all_eq_true] at h
  exact fun c hc => isDigit_of_hex (h.2 c hc)

theorem group_ne_nil {g : Str} (h : isGroup g = true) : g ≠ [] := by
  rintro rfl; cases h

theorem groupValue_lt {g : Str} (h : isGroup g = true) : groupValue g < 65536 := by
  have h4 : g.length ≤ 4 := by
    simp only [isGroup, Bool.and_eq_true, decide_eq_true_eq] at h
    exact h.1.2
  exact (digitsNat_lt (t := .ascii) (isDigit_of_group h)).trans_le (Nat.pow_le_pow_right (by decide) h4)

theorem toIntOrNull_group {t : CharTables} {g : Str} (h : isGroup g = true) :
    toIntOrNull t 16 g = some (groupValue g : Int) := by
  have := groupValue_lt h
  exact toIntOrNull_digits (isDigit_of_group h) (group_ne_nil h) (show groupValue g < 0x80000000 by omega)

theorem colon_notMem_group {g : Str} (h : isGroup g = true) : ':' ∉ g := by
  simp only [isGroup, Bool.and_eq_true, List.all_eq_true] at h
  intro hc
  exact absurd (h.2 _ hc) (by decide)

theorem groupsOf_joinGroups {gs : List Str} (h : ∀ g ∈ gs, isGroup g = true) : groupsOf (joinGroups gs) = gs := by
  cases gs with
  | nil => rfl
  | cons g gs =>
    have hne : joinGroups (g :: gs) ≠ [] := fun he => by
      obtain ⟨c, g', hg⟩ := List.exists_cons_of_ne_nil (group_ne_nil (h g (List.mem_cons_self ..)))
      cases gs <;> simp [joinGroups, List.intercalate_cons_cons, hg] at he
    unfold groupsOf split
    rw [if_neg (by simpa using hne)]
    exact List.splitOn_intercalate ':' (fun l hl => colon_notMem_group (h l hl)) (by simp)

theorem joinGroups_groupsOf (s : Str) : joinGroups (groupsOf s) = s := by
  unfold groupsOf joinGroups split
  split
  · rename_i h; rw [List.isEmpty_iff.1 h]; rfl
  · exact List.intercalate_splitOn ':'

theorem areAllBytes_iff (s : Str) : areAllBytes s = true ↔ ∀ g ∈ groupsOf s, isGroup g = true := by
  unfold areAllBytes groupsOf
  split
  · rename_i h; simp [h]
  · rename_i h; simp [h]

/-! ## The texts `isValidIpv6` accepts -/

theorem count_joinGroups {gs : List Str} (h : ∀ g ∈ gs, isGroup g = true) :
    (joinGroups gs).count ':' = gs.length - 1 := by
  induction gs with
  | nil => rfl
  | cons g gs ih =>
    have hg := List.count_eq_zero.2 (colon_notMem_group (h g (List.mem_cons_self ..)))
    cases gs with
    | nil => simpa [joinGroups] using hg
    | cons g' gs =>
      have := ih fun g hg => h g (List.mem_cons_of_mem _ hg)
      simp only [joinGroups] at this
      simp [joinGroups, List.intercalate_cons_cons, List.count_append, hg, this]

/-- Two neighbours that are not both colons. -/
def Apart (a b : Char) : Prop := ¬ (a = ':' ∧ b = ':')

theorem isChain_group {g : Str} (h : ':' ∉ g) : (g ++ [':']).IsChain Apart := by
  induction g with
  | nil => simp
  | cons c g ih =>
    simp only [List.mem_cons, not_or] at h
    cases g with
    | nil => simpa [Apart] using Ne.symm h.1
    | cons d g => exact .cons_cons (fun e => h.1 e.1.symm) (ih h.2)

/-- No two colons stand together in groups, nor in groups before one more colon. -/
theorem isChain_joinGroups {gs : List Str} (h : ∀ g ∈ gs, isGroup g = true) :
    (joinGroups gs ++ [':']).IsChain Apart := by
  induction gs with
  | nil => simp [joinGroups]
  | cons g gs ih =>
    have hg := colon_notMem_group (h g (List.mem_cons_self ..))
    have ih := ih fun g hg => h g (List.mem_cons_of_mem _ hg)
    cases gs with
    | nil => simpa [joinGroups] using isChain_group hg
    | cons g' gs =>
      have hj : joinGroups (g :: g' :: gs) = g ++ ':' :: joinGroups (g' :: gs) := by
        simp [joinGroups, List.intercalate_cons_cons]
      rw [hj, List.append_assoc, List.cons_append, List.isChain_split]
      refine ⟨isChain_group hg, ?_⟩
      -- the next group starts with a digit
      obtain ⟨c, g'', hc⟩ := List.exists_cons_of_ne_nil (group_ne_nil (h g' (by simp)))
      have hne : c ≠ ':' := by
        rintro rfl
        exact colon_notMem_group (h g' (by simp)) (by simp [hc])
      obtain ⟨tl, htl⟩ : ∃ tl, joinGroups (g' :: gs) = c :: tl := by
        cases gs <;> simp [joinGroups, List.intercalate_cons_cons, hc]
      rw [htl] at ih ⊢
      exact .cons_cons (fun e => hne e.2) ih

theorem not_infix_of_isChain {s : Str} (h : s.IsChain Apart) : ¬ "::".toList <:+: s := by
  rintro ⟨p, q, rfl⟩
  have h' : (p ++ ':' :: ':' :: q).IsChain Apart := by simpa using h
  exact (List.isChain_append_cons_cons.1 h').2.1 ⟨rfl, rfl⟩

theorem splitWord_joinGroups {gs : List Str} (h : ∀ g ∈ gs, isGroup g = true) :
    splitWord "::".toList (joinGroups gs) = [joinGroups gs] :=
  splitWord_of_not_infix (not_infix_of_isChain (isChain_joinGroups h).left_of_append)

theorem splitWord_compressed {l r : List Str} (hl : ∀ g ∈ l, isGroup g = true) (hr : ∀ g ∈ r, isGroup g = true) :
    splitWord "::".toList (joinGroups l ++ ("::".toList ++ joinGroups r)) = [joinGroups l, joinGroups r] := by
  rw [splitWord_append (by decide) (not_infix_of_isChain (isChain_joinGroups hl)), splitWord_joinGroups hr]

theorem areAllBytes_joinGroups {gs : List Str} (h : ∀ g ∈ gs, isGroup g = true) :
    areAllBytes (joinGroups gs) = true := by
  rw [areAllBytes_iff, groupsOf_joinGroups h]; exact h

/-- A full text is accepted. -/
theorem isValidIpv6_full {gs : List Str} (h : ∀ g ∈ gs, isGroup g = true) (h8 : gs.length = 8) :
    isValidIpv6 (joinGroups gs) = true := by
  have hc : (joinGroups gs).count ':' = 7 := by rw [count_joinGroups h, h8]
  have hn : contains "::".toList (joinGroups gs) = false :=
    decide_eq_false (not_infix_of_isChain (isChain_joinGroups h).left_of_append)
  have h0 : joinGroups gs ≠ [] := fun e => by rw [e] at hc; cases hc
  have h1 : joinGroups gs ≠ "::".toList := fun e => by rw [e] at hc; cases hc
  rw [isValidIpv6, if_neg (by simpa using h0), if_neg h1]
  simp only [hc, hn, areAllBytes_joinGroups h]
  rfl

/-- A text with `::` is accepted when it has at most six colons. -/
theorem isValidIpv6_compressed {l r : List Str} (hl : ∀ g ∈ l, isGroup g = true) (hr : ∀ g ∈ r, isGroup g = true) :
    isValidIpv6 (joinGroups l ++ ("::".toList ++ joinGroups r)) = decide ((l.length - 1) + (r.length - 1) ≤ 4) := by
  have hc : (joinGroups l ++ ("::".toList ++ joinGroups r)).count ':' = (l.length - 1) + (2 + (r.length - 1)) := by
    rw [List.count_append, List.count_append, count_joinGroups hl, count_joinGroups hr]; rfl
  have hi : contains "::".toList (joinGroups l ++ ("::".toList ++ joinGroups r)) = true :=
    decide_eq_true ⟨joinGroups l, joinGroups r, by simp⟩
  by_cases h2 : joinGroups l ++ ("::".toList ++ joinGroups r) = "::".toList
  · have : (l.length - 1) + (2 + (r.length - 1)) = 2 := by rw [← hc, h2]; rfl
    rw [isValidIpv6, if_neg (by rw [h2]; decide), if_pos h2, eq_comm, decide_eq_true_eq]
    omega
  · rw [isValidIpv6, if_neg (by simp), if_neg h2]
    simp only [hc, hi, splitWord_compressed hl hr, areAllBytes_joinGroups hl, areAllBytes_joinGroups hr]
    split
    · rename_i h
      simp only [Bool.or_eq_true, decide_eq_true_eq] at h
      rw [eq_comm, decide_eq_false_iff_not]; omega
    · rename_i h
      simp only [Bool.or_eq_true, decide_eq_true_eq, not_or] at h
      rw [if_pos trivial]
      split
      · rw [eq_comm, decide_eq_false_iff_not]; omega
      · rw [eq_comm, Bool.and_self, decide_eq_true_eq]; omega

theorem exists_groups {s : Str} (h : areAllBytes s = true) :
    ∃ gs, (∀ g ∈ gs, isGroup g = true) ∧ joinGroups gs = s :=
  ⟨groupsOf s, (areAllBytes_iff s).1 h, joinGroups_groupsOf s⟩

/-- The texts `isValidIpv6` accepts are full, or have `::` and at most six colons. -/
theorem isValidIpv6_shape {s : Str} (h : isValidIpv6 s = true) :
    (∃ gs, (∀ g ∈ gs, isGroup g = true) ∧ gs.length = 8 ∧ s = joinGroups gs) ∨
    ∃ l r, (∀ g ∈ l, isGroup g = true) ∧ (∀ g ∈ r, isGroup g = true) ∧ (l.length - 1) + (r.length - 1) ≤ 4 ∧
      s = joinGroups l ++ ("::".toList ++ joinGroups r) := by
  have hs := h
  unfold isValidIpv6 at h
  by_cases h0 : s.isEmpty = true
  · rw [if_pos h0] at h; cases h
  by_cases h2 : s = "::".toList
  · exact .inr ⟨[], [], by simp, by simp, by simp, by rw [h2]; rfl⟩
  rw [if_neg h0, if_neg h2] at h
  dsimp only at h
  by_cases hn : (decide (s.count ':' < 2) || decide (7 < s.count ':')) = true
  · rw [if_pos hn] at h; cases h
  rw [if_neg hn] at h
  -- with `::` there are two lists of groups, without it there is one of eight
  by_cases hc : contains "::".toList s = true
  · rw [if_pos hc] at h
    by_cases h7 : s.count ':' = 7
    · rw [if_pos h7] at h; cases h
    rw [if_neg h7] at h
    split at h
    · rename_i l r hw
      have hj := intercalate_splitWord (show "::".toList ≠ [] by decide) s
      rw [hw, List.intercalate_cons_cons, List.intercalate_singleton, List.append_assoc] at hj
      simp only [Bool.and_eq_true] at h
      obtain ⟨l, hl, rfl⟩ := exists_groups h.1
      obtain ⟨r, hr, rfl⟩ := exists_groups h.2
      rw [← hj, isValidIpv6_compressed hl hr, decide_eq_true_eq] at hs
      exact .inr ⟨l, r, hl, hr, hs, hj.symm⟩
    · cases h
  · rw [if_neg hc] at h
    simp only [Bool.and_eq_true, beq_iff_eq] at h
    obtain ⟨gs, hg, rfl⟩ := exists_groups h.2
    rw [count_joinGroups hg] at h
    exact .inl ⟨gs, hg, by omega, rfl⟩

theorem mem_joinGroups {gs : List Str} (h : ∀ g ∈ gs, isGroup g = true) {c : Char} (hc : c ∈ joinGroups gs) :
    c = ':' ∨ isHexDigit c = true := by
  induction gs with
  | nil => simp [joinGroups] at hc
  | cons g gs ih =>
    have hg : c ∈ g → isHexDigit c = true := fun hm => by
      have := h g (List.mem_cons_self ..)
      simp only [isGroup, Bool.and_eq_true, List.all_eq_true] at this
      exact this.2 c hm
    have ih := ih fun g hg => h g (List.mem_cons_of_mem _ hg)
    cases gs with
    | nil => exact .inr (hg (by simpa [joinGroups] using hc))
    | cons g' gs =>
      have hc : c ∈ g ∨ c = ':' ∨ c ∈ joinGroups (g' :: gs) := by
        simpa [joinGroups, List.intercalate_cons_cons] using hc
      rcases hc with hc | hc | hc
      · exact .inr (hg hc)
      · exact .inl hc
      · exact ih hc

/-- Digits and colons are all an accepted IPv6 text has. -/
theorem mem_of_valid {s : Str} (h : isValidIpv6 s = true) {c : Char} (hc : c ∈ s) : c = ':' ∨ isHexDigit c = true := by
  obtain ⟨gs, hg, -, rfl⟩ | ⟨l, r, hl, hr, -, rfl⟩ := isValidIpv6_shape h
  · exact mem_joinGroups hg hc
  · simp only [List.mem_append] at hc
    rcases hc with hc | hc | hc
    · exact mem_joinGroups hl hc
    · exact .inl (by simpa using hc)
    · exact mem_joinGroups hr hc

/-! ## The bytes `ipv6ToBytes` stores -/

theorem toByte_natCast (n : Nat) : toByte (n : Int) = UInt8.ofNat n := by
  apply UInt8.toBitVec_inj.1
  simp [toByte, UInt8.ofNat]

theorem arraySet_append {α : Type} (pre post : List α) (x y : α) {i : Int} (hi : i = pre.length) :
    arraySet (pre ++ x :: post) i y = .ok (pre ++ y :: post) := by
  subst hi
  rw [arraySet, if_pos (by simp)]
  simp

theorem setGroup_eq {t : CharTables} {g : Str} (hg : isGroup g = true) (pre post : List UInt8) (x y : UInt8)
    {i : Int} (hi : i * 2 = pre.length) :
    setGroup t (pre ++ x :: y :: post) i g = .ok (pre ++ (groupBytes g ++ post)) := by
  have hv : toInt t 16 g = .ok (groupValue g : Int) := by rw [toInt, toIntOrNull_group hg]
  have h1 : toByte ((groupValue g : Int) / 256) = UInt8.ofNat (groupValue g / 256) :=
    toByte_natCast (groupValue g / 256)
  have h2 : toByte ((groupValue g : Int) % 256) = UInt8.ofNat (groupValue g % 256) :=
    toByte_natCast (groupValue g % 256)
  simp only [setGroup, hv, bind, Except.bind, h1, h2, arraySet_append pre (y :: post) x _ hi]
  have := arraySet_append (pre ++ [UInt8.ofNat (groupValue g / 256)]) post y (UInt8.ofNat (groupValue g % 256))
    (i := i * 2 + 1) (by simp [hi])
  simpa [groupBytes] using this

/-- The loop over the groups before `::`, from the group at place `n` on. -/
theorem setGroups_forward {t : CharTables} {gs : List Str} (h : ∀ g ∈ gs, isGroup g = true) (n : Nat)
    (pre old post : List UInt8) (hpre : pre.length = 2 * n) (hold : old.length = 2 * gs.length) :
    (gs.zipIdx n).foldlM (fun result p => setGroup t result p.2 p.1) (pre ++ (old ++ post)) =
      .ok (pre ++ (gs.flatMap groupBytes ++ post)) := by
  induction gs generalizing n pre old with
  | nil =>
    obtain rfl : old = [] := by simpa using hold
    rfl
  | cons g gs ih =>
    obtain ⟨x, y, old, rfl⟩ : ∃ x y o, old = x :: y :: o := by
      rcases old with _ | ⟨x, _ | ⟨y, o⟩⟩ <;> simp at hold
      · omega
      · exact ⟨x, y, o, rfl⟩
    have hstep : setGroup t (pre ++ (x :: y :: old ++ post)) n g = .ok (pre ++ (groupBytes g ++ (old ++ post))) :=
      setGroup_eq (h g (List.mem_cons_self ..)) pre (old ++ post) x y (by omega)
    rw [List.zipIdx_cons, List.foldlM_cons]
    simp only [hstep, bind, Except.bind]
    have := ih (fun g hg => h g (List.mem_cons_of_mem _ hg)) (n + 1) (pre ++ groupBytes g) old
      (by simp [groupBytes, hpre]; omega) (by simp at hold; omega)
    simpa [List.append_assoc] using this

/-- The loop over the groups after `::`, last group first, from the `n`-th place from the end on. -/
theorem setGroups_backward {t : CharTables} {gs : List Str} (h : ∀ g ∈ gs, isGroup g = true) (n : Nat)
    (pre old post : List UInt8) (hn : pre.length + 2 * (gs.length + n) = 18) (hold : old.length = 2 * gs.length) :
    (gs.zipIdx n).foldlM (fun result p => setGroup t result (8 - p.2) p.1) (pre ++ (old ++ post)) =
      .ok (pre ++ (gs.reverse.flatMap groupBytes ++ post)) := by
  induction gs generalizing n old post with
  | nil =>
    obtain rfl : old = [] := by simpa using hold
    rfl
  | cons g gs ih =>
    obtain ⟨old, x, y, rfl⟩ : ∃ o x y, old = o ++ [x, y] := by
      obtain ⟨o, y, rfl⟩ := List.eq_nil_or_concat' old |>.resolve_left (by rintro rfl; simp at hold)
      obtain ⟨o, x, rfl⟩ := List.eq_nil_or_concat' o |>.resolve_left (by rintro rfl; simp at hold; omega)
      exact ⟨o, x, y, by simp⟩
    have hstep : setGroup t (pre ++ (old ++ [x, y] ++ post)) (8 - n) g =
        .ok (pre ++ (old ++ (groupBytes g ++ post))) := by
      have := setGroup_eq (t := t) (i := 8 - n) (h g (List.mem_cons_self ..)) (pre ++ old) post x y
        (by simp at hn hold ⊢; omega)
      simpa [List.append_assoc] using this
    rw [List.zipIdx_cons, List.foldlM_cons]
    simp only [hstep, bind, Except.bind]
    have := ih (fun g hg => h g (List.mem_cons_of_mem _ hg)) (n + 1) old (groupBytes g ++ post)
      (by simp at hn; omega) (by simp at hold; omega)
    simpa [List.append_assoc] using this

theorem ipv6ToBytes_full {t : CharTables} {gs : List Str} (h : ∀ g ∈ gs, isGroup g = true) (h8 : gs.length = 8) :
    ipv6ToBytes t (joinGroups gs) = .ok (gs.flatMap groupBytes) := by
  have := setGroups_forward (t := t) h 0 [] (List.replicate 16 0) [] rfl (by simp [h8])
  simp only [List.nil_append, List.append_nil] at this
  simp only [ipv6ToBytes, splitWord_joinGroups h, List.map_cons, List.map_nil, groupsOf_joinGroups h, arrayGet,
    List.getElem?_cons_zero, List.getElem?_cons_succ, List.getElem?_nil, bind, Except.bind, this]
  rfl

theorem ipv6ToBytes_compressed {t : CharTables} {l r : List Str} (hl : ∀ g ∈ l, isGroup g = true)
    (hr : ∀ g ∈ r, isGroup g = true) (h8 : l.length + r.length < 8) :
    ipv6ToBytes t (joinGroups l ++ ("::".toList ++ joinGroups r)) =
      .ok (l.flatMap groupBytes ++ (List.replicate (2 * (8 - l.length - r.length)) 0 ++ r.flatMap groupBytes)) := by
  have hf := setGroups_forward (t := t) hl 0 [] (List.replicate (2 * l.length) 0)
    (List.replicate (2 * (8 - l.length)) 0) rfl (by simp)
  have hb := setGroups_backward (t := t) (show ∀ g ∈ r.reverse, isGroup g = true by simpa using hr) 1
    (l.flatMap groupBytes ++ List.replicate (2 * (8 - l.length - r.length)) 0) (List.replicate (2 * r.length) 0) []
    (by simp [groupBytes]; omega) (by simp)
  -- the zeros of the array, before, in and after the first loop's part
  have h1 : List.replicate 16 (0 : UInt8) =
      List.replicate (2 * l.length) 0 ++ List.replicate (2 * (8 - l.length)) 0 := by
    rw [List.replicate_append_replicate]; congr 1; omega
  have h2 : List.replicate (2 * (8 - l.length)) (0 : UInt8) =
      List.replicate (2 * (8 - l.length - r.length)) 0 ++ List.replicate (2 * r.length) 0 := by
    rw [List.replicate_append_replicate]; congr 1; omega
  simp only [List.nil_append] at hf
  rw [← h1, h2] at hf
  simp only [List.append_nil, List.reverse_reverse, List.append_assoc] at hb
  simp only [ipv6ToBytes, splitWord_compressed hl hr, List.map_cons, List.map_nil, groupsOf_joinGroups hl,
    groupsOf_joinGroups hr, arrayGet, List.getElem?_cons_zero, List.getElem?_cons_succ, bind, Except.bind, hf, hb]

/-- Every text `isValidIpv6` accepts writes an address. -/
theorem isValidIpv6_denotes {s : Str} (h : isValidIpv6 s = true) : ∃ b, Ipv6Denotes s b := by
  obtain ⟨gs, hg, h8, rfl⟩ | ⟨l, r, hl, hr, h8, rfl⟩ := isValidIpv6_shape h
  · exact ⟨_, .full hg h8⟩
  · exact ⟨_, .compressed hl hr (by omega)⟩

theorem length_flatMap_groupBytes (gs : List Str) : (gs.flatMap groupBytes).length = 2 * gs.length := by
  simp [groupBytes]; omega

theorem ipv6ToBytes_of_denotes {t : CharTables} {s : Str} {b : List UInt8} (h : Ipv6Denotes s b) :
    b.length = 16 ∧ ipv6ToBytes t s = .ok b := by
  cases h with
  | full h h8 => exact ⟨by rw [length_flatMap_groupBytes, h8], ipv6ToBytes_full h h8⟩
  | compressed hl hr h8 =>
    refine ⟨?_, ipv6ToBytes_compressed hl hr h8⟩
    simp only [List.length_append, length_flatMap_groupBytes, List.length_replicate]
    omega

theorem colon_mem_of_denotes {s : Str} {b : List UInt8} (h : Ipv6Denotes s b) : ':' ∈ s := by
  cases h with
  | full h h8 => exact List.count_pos_iff.1 (by rw [count_joinGroups h, h8]; decide)
  | compressed => simp

/-! ## IPv4 texts -/

/-- A character that is no digit and no sign is not in a number. -/
theorem notMem_number {t : CharTables} {p : Str} {n : Int} (h : toIntOrNull t 10 p = some n) {c : Char}
    (hc : c.toNat < 128) (hd : asciiDigit c = none) (h1 : c ≠ '+') (h2 : c ≠ '-') : c ∉ p := by
  intro hm
  have := (toIntOrNull_chars h).2 _ hm
  rw [t.digitOf_ascii c 10 hc, hd] at this
  simp [h1, h2] at this

theorem isValidIpv4Part_some {t : CharTables} {p : Str} (h : isValidIpv4Part t p = true) :
    ∃ x : UInt8, toIntOrNull t 10 p = some (x.toNat : Int) := by
  unfold isValidIpv4Part at h
  split_ifs at h
  split at h
  · cases h
  · rename_i n hn
    simp only [Bool.not_eq_true', Bool.or_eq_false_iff, decide_eq_false_iff_not] at h
    refine ⟨UInt8.ofNat n.toNat, ?_⟩
    rw [hn, UInt8.toNat_ofNat_of_lt' (by simp [UInt8.size]; omega)]
    congr 1; omega

/-- Every text `isValidIpv4` accepts writes an address. -/
theorem isValidIpv4_denotes {t : CharTables} {s : Str} (h : isValidIpv4 t s = true) : ∃ b, Ipv4Denotes t s b := by
  unfold isValidIpv4 at h
  split_ifs at h with h0
  dsimp only at h
  split_ifs at h with h4
  have hj : ['.'].intercalate (split '.' s) = s := List.intercalate_splitOn '.'
  obtain ⟨p, q, r, u, hp⟩ := List.length_eq_four.1 (not_not.1 h4)
  rw [hp] at h hj
  simp only [List.all_cons, List.all_nil, Bool.and_true, Bool.and_eq_true] at h
  obtain ⟨a, ha⟩ := isValidIpv4Part_some h.1
  obtain ⟨b, hb⟩ := isValidIpv4Part_some h.2.1
  obtain ⟨c, hc⟩ := isValidIpv4Part_some h.2.2.1
  obtain ⟨d, hd⟩ := isValidIpv4Part_some h.2.2.2
  exact ⟨[a, b, c, d], hj ▸ .dotted ha hb hc hd⟩

theorem ipv4ToBytes_of_denotes {t : CharTables} {s : Str} {b : List UInt8} (h : Ipv4Denotes t s b) :
    b.length = 4 ∧ ipv4ToBytes t s = .ok b := by
  cases h with
  | @dotted p q r s a b c d hp hq hr hs =>
    have hsplit : split '.' (['.'].intercalate [p, q, r, s]) = [p, q, r, s] := by
      refine List.splitOn_intercalate '.' ?_ (by simp)
      simp only [List.mem_cons, List.not_mem_nil, or_false, forall_eq_or_imp, forall_eq]
      have hdot : ∀ {p : Str} {n : Int}, toIntOrNull t 10 p = some n → '.' ∉ p := fun h =>
        notMem_number h (by decide) (by decide) (by decide) (by decide)
      exact ⟨hdot hp, hdot hq, hdot hr, hdot hs⟩
    refine ⟨rfl, ?_⟩
    have hbyte : ∀ x : UInt8, toByte (x.toNat : Int) = x := fun x => by rw [toByte_natCast, UInt8.ofNat_toNat]
    simp only [ipv4ToBytes, hsplit, List.range, List.range.loop, List.foldlM_cons, List.foldlM_nil, arrayGet, toInt,
      List.getElem?_cons_zero, List.getElem?_cons_succ, hp, hq, hr, hs, bind, Except.bind, hbyte]
    rfl

/-- A character that is no digit, no sign and no dot is not in an IPv4 text. -/
theorem notMem_of_denotes {t : CharTables} {s : Str} {b : List UInt8} (h : Ipv4Denotes t s b) {c : Char}
    (hc : c.toNat < 128) (hd : asciiDigit c = none) (h1 : c ≠ '+') (h2 : c ≠ '-') (h3 : c ≠ '.') : c ∉ s := by
  cases h with
  | dotted hp hq hr hs =>
    have hn : ∀ {p : Str} {n : Int}, toIntOrNull t 10 p = some n → c ∉ p := fun h => notMem_number h hc hd h1 h2
    simp [List.intercalate_cons_cons, hn hp, hn hq, hn hr, hn hs, h3]

theorem colon_notMem_of_denotes {t : CharTables} {s : Str} {b : List UInt8} (h : Ipv4Denotes t s b) : ':' ∉ s :=
  notMem_of_denotes h (by decide) (by decide) (by decide) (by decide) (by decide)

theorem isValidIpv4_of_colon {t : CharTables} {s : Str} (h : ':' ∈ s) : isValidIpv4 t s = false := by
  cases h4 : isValidIpv4 t s with
  | false => rfl
  | true =>
    obtain ⟨b, hb⟩ := isValidIpv4_denotes h4
    exact absurd h (colon_notMem_of_denotes hb)

/-! ## Ranges -/

/-- A range text: an address, `/` and a prefix length. -/
inductive RangeText (t : CharTables) : Str → Str → Nat → Prop
  | slash {address p : Str} {n : Nat} (h : '/' ∉ address) (hp : toIntOrNull t 10 p = some (n : Int)) :
      RangeText t (address ++ '/' :: p) address n

theorem isValidRange_shape {t : CharTables} (maxBits : Nat) {isValid : Str → Bool} {s : Str}
    (h : isValidRange t maxBits isValid s = true) :
    ∃ address n, RangeText t s address n ∧ n ≤ maxBits ∧ isValid address = true := by
  unfold isValidRange split2 at h
  split_ifs at h with h0
  obtain ⟨-, hc⟩ | ⟨a, p, ha, rfl, hc⟩ := cut_cases '/' s
  · rw [hc] at h; cases h
  · rw [hc] at h
    dsimp only at h
    split at h
    · cases h
    · rename_i n hn
      split_ifs at h with hr
      simp only [Bool.or_eq_true, decide_eq_true_eq, not_or] at hr
      refine ⟨a, n.toNat, .slash ha ?_, by omega, h⟩
      rw [hn]; congr 1; omega

theorem RangeText.unique {t : CharTables} {s a a' : Str} {n n' : Nat} (h : RangeText t s a n)
    (h' : RangeText t s a' n') : a = a' ∧ n = n' := by
  obtain ⟨ha, hp⟩ := h
  generalize hs : a ++ '/' :: _ = s at h'
  obtain ⟨ha', hp'⟩ := h'
  have := congrArg (cut '/') hs
  rw [cut_append ha, cut_append ha'] at this
  cases this
  rw [hp] at hp'
  exact ⟨rfl, by simpa using hp'⟩

theorem isInRange_eq {t : CharTables} {toBytes : Str → Except JavaException (List UInt8)} {ip range address : Str}
    {n : Nat} {a b : List UInt8} (hr : RangeText t range address n) (ha : toBytes ip = .ok a)
    (hb : toBytes address = .ok b) (hna : n ≤ 8 * a.length) (hnb : n ≤ 8 * b.length) :
    isInRange t toBytes ip range = .ok (decide ((bits a).take n = (bits b).take n)) := by
  obtain ⟨h, hp⟩ := hr
  simp only [isInRange, split2, cut_append h, arrayGet, List.getElem?_cons_succ, List.getElem?_cons_zero, toInt, hp, ha,
    hb, bind, Except.bind, inRange_eq a b n hna hnb]

/-- An IPv4 range that writes an address contains the addresses with the same first bits. -/
theorem isIpInRange_ipv4 {t : CharTables} {ip range address : Str} {n : Nat} {a b : List UInt8}
    (hv : isValidIpv4 t ip = true) (ha : Ipv4Denotes t ip a) (hvr : isValidIpv4Range t range = true)
    (hr : RangeText t range address n) (hb : Ipv4Denotes t address b) :
    isIpInRange t ip range = .ok (decide ((bits a).take n = (bits b).take n)) := by
  obtain ⟨address', n', hr', hn, -⟩ := isValidRange_shape 32 hvr
  obtain ⟨rfl, rfl⟩ := hr.unique hr'
  obtain ⟨la, ea⟩ := ipv4ToBytes_of_denotes ha
  obtain ⟨lb, eb⟩ := ipv4ToBytes_of_denotes hb
  rw [isIpInRange, hv, hvr]
  exact isInRange_eq hr ea eb (by omega) (by omega)

/-- An IPv6 range that writes an address contains the addresses with the same first bits. -/
theorem isIpInRange_ipv6 {t : CharTables} {ip range address : Str} {n : Nat} {a b : List UInt8}
    (hv : isValidIpv6 ip = true) (ha : Ipv6Denotes ip a) (hvr : isValidIpv6Range t range = true)
    (hr : RangeText t range address n) (hb : Ipv6Denotes address b) :
    isIpInRange t ip range = .ok (decide ((bits a).take n = (bits b).take n)) := by
  obtain ⟨address', n', hr', hn, -⟩ := isValidRange_shape 128 hvr
  obtain ⟨rfl, rfl⟩ := hr.unique hr'
  obtain ⟨la, ea⟩ := ipv6ToBytes_of_denotes (t := t) ha
  obtain ⟨lb, eb⟩ := ipv6ToBytes_of_denotes (t := t) hb
  rw [isIpInRange, isValidIpv4_of_colon (colon_mem_of_denotes ha), hv, hvr]
  exact isInRange_eq hr ea eb (by omega) (by omega)

/-- Testing an address against a range throws on no text. -/
theorem isIpInRange_ok (t : CharTables) (ip range : Str) : ∃ v, isIpInRange t ip range = .ok v := by
  by_cases h4 : isValidIpv4 t ip = true ∧ isValidIpv4Range t range = true
  · obtain ⟨a, ha⟩ := isValidIpv4_denotes h4.1
    obtain ⟨address, n, hr, -, hv⟩ := isValidRange_shape 32 h4.2
    obtain ⟨b, hb⟩ := isValidIpv4_denotes hv
    exact ⟨_, isIpInRange_ipv4 h4.1 ha h4.2 hr hb⟩
  by_cases h6 : isValidIpv6 ip = true ∧ isValidIpv6Range t range = true
  · obtain ⟨a, ha⟩ := isValidIpv6_denotes h6.1
    obtain ⟨address, n, hr, -, hv⟩ := isValidRange_shape 128 h6.2
    obtain ⟨b, hb⟩ := isValidIpv6_denotes hv
    exact ⟨_, isIpInRange_ipv6 h6.1 ha h6.2 hr hb⟩
  · rw [← Bool.and_eq_true] at h4 h6
    exact ⟨false, by rw [isIpInRange, if_neg h4, if_neg h6]⟩

end SunProxy.Utils
