/-
Cutting, replacing, splitting and scanning lists: the first occurrence of an element, the
leftmost non-overlapping occurrences of a word, and the matches of a scanner that says how long
the match at the front of its input is.
-/
import Mathlib.Data.List.Infix
import Mathlib.Data.List.DropRight
import Mathlib.Data.List.Forall2
import Mathlib.Data.List.Nodup
import Mathlib.Data.List.Pairwise

namespace SunProxy.Seq

variable {α : Type}

section Words

variable [DecidableEq α]

/-! ## The first occurrence -/

/-- The part before the first `d`, and the part after it when `d` occurs. -/
def cut (d : α) : List α → List α × Option (List α)
  | [] => ([], none)
  | c :: s => if c = d then ([], some s) else (c :: (cut d s).1, (cut d s).2)

theorem cut_append {d : α} {p : List α} (h : d ∉ p) (s : List α) : cut d (p ++ d :: s) = (p, some s) := by
  induction p with
  | nil => simp [cut]
  | cons c p ih =>
    simp only [List.mem_cons, not_or] at h
    simp [cut, ih h.2, Ne.symm h.1]

theorem cut_of_notMem {d : α} {s : List α} (h : d ∉ s) : cut d s = (s, none) := by
  induction s with
  | nil => rfl
  | cons c s ih =>
    simp only [List.mem_cons, not_or] at h
    simp [cut, ih h.2, Ne.symm h.1]

theorem cut_cases (d : α) (s : List α) :
    (d ∉ s ∧ cut d s = (s, none)) ∨ ∃ p r, d ∉ p ∧ s = p ++ d :: r ∧ cut d s = (p, some r) := by
  by_cases h : d ∈ s
  · obtain ⟨p, r, rfl, hp⟩ := List.eq_append_cons_of_mem h
    exact .inr ⟨p, r, hp, rfl, cut_append hp r⟩
  · exact .inl ⟨h, cut_of_notMem h⟩

/-! ## Replacing a word -/

/-- Replacement with `skip` elements of a matched word still to drop. -/
def replaceAux (old new : List α) : Nat → List α → List α
  | _, [] => []
  | skip + 1, _ :: s => replaceAux old new skip s
  | 0, c :: s =>
    if old.isPrefixOf (c :: s) then new ++ replaceAux old new (old.length - 1) s
    else c :: replaceAux old new 0 s

/-- Every occurrence of the (non-empty) word `old` replaced, leftmost first and not overlapping. -/
def replaceAll (old new s : List α) : List α := replaceAux old new 0 s

theorem replaceAux_drop (old new : List α) (n : Nat) (s : List α) :
    replaceAux old new n s = replaceAll old new (s.drop n) := by
  induction n generalizing s with
  | zero => rfl
  | succ n ih => cases s with
    | nil => rfl
    | cons c s => exact ih s

@[simp] theorem replaceAll_nil (old new : List α) : replaceAll old new [] = [] := rfl

theorem replaceAll_append {old : List α} (h : old ≠ []) (new s : List α) :
    replaceAll old new (old ++ s) = new ++ replaceAll old new s := by
  cases old with
  | nil => exact absurd rfl h
  | cons c old =>
    have hp : (c :: old).isPrefixOf (c :: (old ++ s)) = true :=
      List.isPrefixOf_iff_prefix.2 (List.prefix_append (c :: old) s)
    show replaceAux (c :: old) new 0 (c :: (old ++ s)) = _
    rw [replaceAux, if_pos hp, replaceAux_drop]
    simp

theorem replaceAll_cons {old new : List α} {c : α} {s : List α} (h : ¬ old <+: c :: s) :
    replaceAll old new (c :: s) = c :: replaceAll old new s := by
  show replaceAux old new 0 (c :: s) = _
  rw [replaceAux, if_neg (by simpa [List.isPrefixOf_iff_prefix] using h)]
  rfl

/-- Replacing a one-element word acts on each element alone. -/
theorem replaceAll_singleton (d : α) (new s : List α) :
    replaceAll [d] new s = s.flatMap fun c => if c = d then new else [c] := by
  induction s with
  | nil => rfl
  | cons c s ih =>
    by_cases h : c = d
    · subst h
      have := replaceAll_append (show [c] ≠ [] by simp) new s
      simpa [ih] using this
    · rw [replaceAll_cons (by simpa using Ne.symm h), ih]
      simp [h]

/-! ## Splitting at a word -/

/-- Splitting with `skip` elements of a matched delimiter still to drop. -/
def splitAux (delim : List α) : Nat → List α → List (List α)
  | _, [] => [[]]
  | skip + 1, _ :: s => splitAux delim skip s
  | 0, c :: s =>
    if delim.isPrefixOf (c :: s) then [] :: splitAux delim (delim.length - 1) s
    else (splitAux delim 0 s).modifyHead (c :: ·)

/-- The parts between the leftmost non-overlapping occurrences of the (non-empty) word `delim`. -/
def splitWord (delim s : List α) : List (List α) := splitAux delim 0 s

theorem splitAux_drop (delim : List α) (n : Nat) (s : List α) :
    splitAux delim n s = splitWord delim (s.drop n) := by
  induction n generalizing s with
  | zero => rfl
  | succ n ih => cases s with
    | nil => rfl
    | cons c s => exact ih s

@[simp] theorem splitWord_nil (delim : List α) : splitWord delim [] = [[]] := rfl

theorem splitWord_delim {delim : List α} (h : delim ≠ []) (s : List α) :
    splitWord delim (delim ++ s) = [] :: splitWord delim s := by
  cases delim with
  | nil => exact absurd rfl h
  | cons c delim =>
    have hp : (c :: delim).isPrefixOf (c :: (delim ++ s)) = true :=
      List.isPrefixOf_iff_prefix.2 (List.prefix_append (c :: delim) s)
    show splitAux (c :: delim) 0 (c :: (delim ++ s)) = _
    rw [splitAux, if_pos hp, splitAux_drop]
    simp

theorem splitWord_cons {delim : List α} {c : α} {s : List α} (h : ¬ delim <+: c :: s) :
    splitWord delim (c :: s) = (splitWord delim s).modifyHead (c :: ·) := by
  show splitAux delim 0 (c :: s) = _
  rw [splitAux, if_neg (by simpa [List.isPrefixOf_iff_prefix] using h)]
  rfl

/-- A text in which the delimiter does not occur is its own only part. -/
theorem splitWord_of_not_infix {delim s : List α} (h : ¬ delim <:+: s) :
    splitWord delim s = [s] := by
  induction s with
  | nil => rfl
  | cons c s ih =>
    rw [splitWord_cons fun hp => h hp.isInfix, ih fun hi => h (hi.trans (List.suffix_cons c s).isInfix)]
    rfl

theorem splitWord_ne_nil (delim s : List α) : splitWord delim s ≠ [] := by
  suffices ∀ n, splitAux delim n s ≠ [] from this 0
  induction s with
  | nil => intro n; simp [splitAux]
  | cons c s ih =>
    rintro (_ | n)
    · rw [splitAux]
      split
      · simp
      · cases hs : splitAux delim 0 s with
        | nil => exact absurd hs (ih 0)
        | cons p ps => simp
    · exact ih n

/-- Joining the parts with the delimiter gives the text back. -/
theorem intercalate_splitWord {delim : List α} (h : delim ≠ []) (s : List α) :
    delim.intercalate (splitWord delim s) = s := by
  induction hn : s.length using Nat.strong_induction_on generalizing s with
  | _ n ih =>
    subst hn
    cases s with
    | nil => rfl
    | cons c s =>
      by_cases hp : delim <+: c :: s
      · obtain ⟨r, hr⟩ := hp
        have hlt : r.length < (c :: s).length := by
          have := List.length_pos_iff.2 h
          rw [← hr, List.length_append]; omega
        rw [← hr, splitWord_delim h, List.intercalate_cons_of_ne_nil (splitWord_ne_nil _ _), ih _ hlt r rfl]
        simp
      · rw [splitWord_cons hp]
        have := ih _ (by simp) s rfl
        cases hs : splitWord delim s with
        | nil => exact absurd hs (splitWord_ne_nil _ _)
        | cons p ps =>
          rw [hs] at this
          rw [List.modifyHead_cons, List.intercalate_cons_cons_left, this]

/-- A text is cut at a delimiter no part of which ends an earlier occurrence. -/
theorem splitWord_append {delim p : List α} (h : delim ≠ []) (hp : ¬ delim <:+: p ++ delim.dropLast)
    (s : List α) : splitWord delim (p ++ (delim ++ s)) = p :: splitWord delim s := by
  induction p with
  | nil => exact splitWord_delim h s
  | cons c p ih =>
    have hn : ¬ delim <+: c :: (p ++ (delim ++ s)) := by
      intro hd
      -- an occurrence at the front ends before the delimiter does
      have hq : c :: (p ++ delim.dropLast) <+: c :: (p ++ (delim ++ s)) := by
        refine List.cons_prefix_cons.2 ⟨rfl, (List.prefix_append_right_inj p).2 ?_⟩
        exact (List.dropLast_prefix delim).trans (List.prefix_append delim s)
      have hl : delim.length ≤ (c :: (p ++ delim.dropLast)).length := by simp; omega
      exact hp (List.prefix_of_prefix_length_le hd hq hl).isInfix
    rw [List.cons_append, splitWord_cons hn, ih fun hi => hp (hi.trans (List.suffix_cons c _).isInfix)]
    rfl

end Words

/-! ## Slices -/

/-- What follows `k + i` elements, read off a slice that starts at `k`. -/
theorem take_append_slice (l : List α) {k n i m : Nat} (h : i + m ≤ n) :
    l.take (k + i) ++ (((l.drop k).take n).drop i).take m = l.take (k + i + m) := by
  have hslice : (((l.drop k).take n).drop i).take m = (l.drop (k + i)).take m := by
    rw [List.drop_take, List.take_take, List.drop_drop, Nat.min_eq_left (by omega)]
  rw [hslice, ← List.take_add]

/-! ## Filtering -/

/-- An element put in the place of another one of a list without repetitions. -/
theorem nodup_replace {l l' : List α} {a b : α} (h : (l ++ a :: l').Nodup) :
    (l ++ b :: l').Nodup ↔ b = a ∨ b ∉ l ++ a :: l' := by
  have hmiddle := List.nodup_middle.1 h
  rw [List.nodup_cons] at hmiddle
  rw [List.nodup_middle, List.nodup_cons, and_iff_left hmiddle.2]
  constructor
  · intro hb
    by_cases heq : b = a
    · exact .inl heq
    · simp only [List.mem_append, List.mem_cons, not_or] at hb ⊢
      exact .inr ⟨hb.1, heq, hb.2⟩
  · rintro (rfl | hb)
    · exact hmiddle.1
    · simp only [List.mem_append, List.mem_cons, not_or] at hb ⊢
      exact ⟨hb.1, hb.2.2⟩

/-- Of elements that a filter takes to different values, one has each value. -/
theorem eq_of_nodup_filterMap {β : Type} {f : α → Option β} {l : List α} (h : (l.filterMap f).Nodup) {a a' : α} {b : β}
    (ha : a ∈ l) (ha' : a' ∈ l) (hb : f a = some b) (hb' : f a' = some b) : a = a' := by
  by_contra hne
  have hpairs : l.Pairwise fun a a' => ∀ b, f a = some b → ∀ b', f a' = some b' → b ≠ b' := List.pairwise_filterMap.1 h
  have : Std.Symm fun a a' : α => ∀ b, f a = some b → ∀ b', f a' = some b' → b ≠ b' :=
    ⟨fun a a' h b hb b' hb' heq => h b' hb' b hb heq.symm⟩
  exact hpairs.forall ha ha' hne b hb b hb' rfl

/-- Where one filter takes an element, the other takes it to the same. -/
theorem filterMap_sublist_of_le {β : Type} {f g : α → Option β} {l : List α}
    (h : ∀ a ∈ l, ∀ b, f a = some b → g a = some b) :
    (l.filterMap f).Sublist (l.filterMap g) := by
  induction l with
  | nil => exact .slnil
  | cons a l ih =>
    have ih := ih fun a' ha' => h a' (List.mem_cons_of_mem _ ha')
    cases hf : f a with
    | some b =>
      rw [List.filterMap_cons_some hf, List.filterMap_cons_some (h a List.mem_cons_self b hf)]
      exact ih.cons_cons b
    | none =>
      rw [List.filterMap_cons_none hf]
      cases hg : g a with
      | none => rwa [List.filterMap_cons_none hg]
      | some b =>
        rw [List.filterMap_cons_some hg]
        exact ih.cons b

/-! ## The first and the last match -/

/-- The last element with `p`. -/
def findLast (p : α → Bool) (l : List α) : Option α := l.reverse.find? p

/-- A value replaced at every match ends as that of the last one. -/
theorem getD_findLast_cons {β : Type} (p : α → Bool) (f : α → β) (a : α) (l : List α) (b : β) :
    ((findLast p (a :: l)).map f).getD b = ((findLast p l).map f).getD (if p a then f a else b) := by
  unfold findLast
  rw [List.reverse_cons, List.find?_append]
  cases hl : l.reverse.find? p with
  | some c => rfl
  | none =>
    cases ha : p a with
    | true => simp [ha]
    | false => simp [ha]

/-- Lists that go along with each other match first at the same place. -/
theorem map_find?_of_forall₂ {β γ : Type} {R : α → β → Prop} {p : α → Bool} {q : β → Bool} {f : α → γ} {g : β → γ}
    {l : List α} {m : List β} (h : List.Forall₂ R l m) (hmatch : ∀ a ∈ l, ∀ b, R a b → p a = q b ∧ f a = g b) :
    (l.find? p).map f = (m.find? q).map g := by
  induction h with
  | nil => rfl
  | @cons a b l m hab _ ih =>
    obtain ⟨hpq, hfg⟩ := hmatch a List.mem_cons_self b hab
    rw [List.find?_cons, List.find?_cons, ← hpq]
    cases p a with
    | true => exact congrArg some hfg
    | false => exact ih fun a' ha' => hmatch a' (List.mem_cons_of_mem a ha')

theorem exists_of_mem_forall₂ {β : Type} {R : α → β → Prop} {l : List α} {m : List β} (h : List.Forall₂ R l m) {b : β}
    (hb : b ∈ m) : ∃ a ∈ l, R a b := by
  induction h with
  | nil => cases hb
  | @cons a b' l m hab _ ih =>
    rcases List.mem_cons.1 hb with rfl | hb
    · exact ⟨a, List.mem_cons_self, hab⟩
    · obtain ⟨a', ha', hab'⟩ := ih hb
      exact ⟨a', List.mem_cons_of_mem a ha', hab'⟩

/-! ## Scanning -/

/-- Scanning with `skip` elements of a match still to drop. -/
def findAux (len : List α → Nat) : Nat → List α → List (List α)
  | _, [] => []
  | skip + 1, _ :: s => findAux len skip s
  | 0, c :: s =>
    match len (c :: s) with
    | 0 => findAux len 0 s
    | n + 1 => (c :: s).take (n + 1) :: findAux len n s

/-- The successive matches of a scanner: `len` gives the length of the match at the front of its
input (0 when there is none, and then one element is passed over). -/
def findAll (len : List α → Nat) (s : List α) : List (List α) := findAux len 0 s

theorem findAux_drop (len : List α → Nat) (n : Nat) (s : List α) :
    findAux len n s = findAll len (s.drop n) := by
  induction n generalizing s with
  | zero => rfl
  | succ n ih => cases s with
    | nil => rfl
    | cons c s => exact ih s

@[simp] theorem findAll_nil (len : List α → Nat) : findAll len [] = [] := rfl

theorem findAll_match {len : List α → Nat} {t : List α} (ht : t ≠ []) (s : List α)
    (h : len (t ++ s) = t.length) : findAll len (t ++ s) = t :: findAll len s := by
  cases t with
  | nil => exact absurd rfl ht
  | cons c t =>
    simp only [List.cons_append, List.length_cons] at h
    show findAux len 0 (c :: (t ++ s)) = _
    rw [findAux, h]
    simp [findAux_drop]

theorem findAll_skip {len : List α → Nat} {c : α} {s : List α} (h : len (c :: s) = 0) :
    findAll len (c :: s) = findAll len s := by
  show findAux len 0 (c :: s) = _
  rw [findAux, h]
  rfl

end SunProxy.Seq
