/-
`Utils.isValidDomainWildcard` and `Utils.domainWildcardToRegex`: the replacements that build the
pattern of a wildcard give one piece for each of its `**`, `*` and other characters, so the
pattern of a valid wildcard always compiles.
-/
import SunProxy.Kotlin.Regex

namespace SunProxy.Utils

open SunProxy.Kotlin SunProxy.Seq

def isWildcardChar (t : CharTables) (c : Char) : Bool :=
  t.isWord c || c == '.' || c == '*' || c == '-' || c == '_' || (0x100 ≤ c.toNat && c.toNat ≤ 0xFFFF)

def isValidDomainWildcard (t : CharTables) (s : Str) : Bool :=
  !contains "***".toList s && (!s.isEmpty && s.all (isWildcardChar t))

def domainWildcardToRegex (s : Str) : Except JavaException Regex :=
  let escaped := replaceAll "\\*".toList "[^.]*".toList (replaceAll "\\*\\*".toList ".*".toList
    (replaceAll "*".toList "\\*".toList (replaceAll ".".toList "\\.".toList s)))
  toRegex ('^' :: escaped ++ ['$'])

/-! ## The pieces of a wildcard -/

/-- The pieces of the pattern of a wildcard. -/
def globPieces : Str → Regex
  | '*' :: '*' :: s => ⟨.any, true⟩ :: globPieces s
  | '*' :: s => ⟨.notChar '.', true⟩ :: globPieces s
  | c :: s => ⟨.lit c, false⟩ :: globPieces s
  | [] => []

/-- The pattern text of a wildcard, with `star` for a single `*`. -/
def globText (star : Str) : Str → Str
  | '*' :: '*' :: s => '.' :: '*' :: globText star s
  | '*' :: s => star ++ globText star s
  | '.' :: s => '\\' :: '.' :: globText star s
  | c :: s => c :: globText star s
  | [] => []

/-- The equations of `globText` and `globPieces` at a single `*`. -/
theorem glob_star {s : Str} (hs : ∀ r, s ≠ '*' :: r) (w : Str) :
    globText w ('*' :: s) = w ++ globText w s ∧
      globPieces ('*' :: s) = ⟨.notChar '.', true⟩ :: globPieces s := by
  rw [globText, globPieces]
  · exact ⟨rfl, rfl⟩
  all_goals exact fun r h => hs r h

/-- The equations at a character that is neither `*` nor `.`. -/
theorem glob_lit {c : Char} (hs : c ≠ '*') (hd : c ≠ '.') (w s : Str) :
    globText w (c :: s) = c :: globText w s ∧ globPieces (c :: s) = ⟨.lit c, false⟩ :: globPieces s := by
  rw [globText, globPieces]
  · exact ⟨rfl, rfl⟩
  · exact fun _ e _ => hs e
  · exact hs
  · exact fun _ e _ => hs e
  · exact hs
  · exact hd

/-- No character of a wildcard has a meaning in a pattern, `.` and `*` apart. -/
def Plain (s : Str) : Prop := ∀ c ∈ s, c ∈ metaChars → c = '.' ∨ c = '*'

theorem plain_of_valid {t : CharTables} {s : Str} (h : isValidDomainWildcard t s = true) : Plain s := by
  simp only [isValidDomainWildcard, Bool.and_eq_true, List.all_eq_true] at h
  intro c hc hm
  have hw := h.2.2 c hc
  simp only [metaChars, List.mem_cons, List.not_mem_nil, or_false] at hm
  rcases hm with rfl | rfl | rfl | rfl | rfl | rfl | rfl | rfl | rfl | rfl | rfl | rfl | rfl | rfl <;>
    first
      | exact .inl rfl
      | exact .inr rfl
      | (simp [isWildcardChar, t.isWord_ascii, asciiDigit] at hw)

theorem Plain.tail {c : Char} {s : Str} (h : Plain (c :: s)) : Plain s :=
  fun d hd => h d (List.mem_cons_of_mem _ hd)

theorem Plain.ne_backslash {c : Char} {s : Str} (h : Plain (c :: s)) : c ≠ '\\' := by
  rintro rfl
  have := h '\\' (List.mem_cons_self ..) (by decide)
  simp at this

/-! ## The replacements -/

def escape (c : Char) : Str := if c = '.' then ['\\', '.'] else if c = '*' then ['\\', '*'] else [c]

theorem escape_eq (s : Str) :
    replaceAll "*".toList "\\*".toList (replaceAll ".".toList "\\.".toList s) = s.flatMap escape := by
  show replaceAll ['*'] ['\\', '*'] (replaceAll ['.'] ['\\', '.'] s) = _
  rw [replaceAll_singleton, replaceAll_singleton, List.flatMap_assoc]
  congr 1
  funext c
  by_cases hd : c = '.'
  · subst hd; simp [escape]
  · by_cases hs : c = '*'
    · subst hs; simp [escape]
    · simp [escape, hd, hs]

/-- A text that starts with neither `\` nor `\` and `*` is not at a replaced word. -/
theorem not_prefix_of_head {w : Str} {c : Char} {s : Str} (hw : w.head? = some '\\') (hc : c ≠ '\\') :
    ¬ w <+: c :: s := by
  rintro ⟨r, hr⟩
  cases w with
  | nil => cases hw
  | cons d w =>
    simp only [List.head?_cons, Option.some.injEq, List.cons_append, List.cons.injEq] at hw hr
    exact hc (hr.1.symm.trans hw)

theorem escape_not_star {s : Str} (hp : Plain s) (h : ∀ r, s ≠ '*' :: r) :
    ¬ ['\\', '*'] <+: s.flatMap escape := by
  rintro ⟨r, hr⟩
  cases s with
  | nil => simp at hr
  | cons c s =>
    have hc : c ≠ '*' := fun e => h s (by rw [e])
    by_cases hd : c = '.'
    · subst hd; simp [escape] at hr
    · simp [escape, hd, hc] at hr
      exact hp.ne_backslash hr.1.symm

theorem replace_doubleStar (s : Str) (hp : Plain s) :
    replaceAll "\\*\\*".toList ".*".toList (s.flatMap escape) = globText ['\\', '*'] s := by
  have hne : "\\*\\*".toList ≠ [] := by decide
  induction s using globText.induct with
  | case1 s ih =>
    have := replaceAll_append hne ".*".toList (s.flatMap escape)
    rw [ih hp.tail.tail] at this
    exact this
  | case2 s hs ih =>
    show replaceAll "\\*\\*".toList ".*".toList ('\\' :: '*' :: s.flatMap escape) = _
    rw [replaceAll_cons, replaceAll_cons (not_prefix_of_head rfl (by decide)), ih hp.tail]
    · simp [globText]
    · rintro ⟨r, hr⟩
      refine escape_not_star hp.tail (fun r h => hs r h) ⟨r, ?_⟩
      simpa using hr
  | case3 s ih =>
    show replaceAll "\\*\\*".toList ".*".toList ('\\' :: '.' :: s.flatMap escape) = _
    rw [replaceAll_cons (by rintro ⟨r, hr⟩; simp at hr), replaceAll_cons (not_prefix_of_head rfl (by decide)),
      ih hp.tail]
    simp [globText]
  | case4 c s h1 h2 h3 ih =>
    have hs : c ≠ '*' := fun e => h2 e
    have hd : c ≠ '.' := fun e => h3 e
    have he : (c :: s).flatMap escape = c :: s.flatMap escape := by simp [escape, hs, hd]
    rw [he, replaceAll_cons (not_prefix_of_head rfl hp.ne_backslash), ih hp.tail]
    simp [globText]
  | case5 => rfl

theorem replace_star (s : Str) (hp : Plain s) :
    replaceAll "\\*".toList "[^.]*".toList (globText ['\\', '*'] s) = globText "[^.]*".toList s := by
  have hne : "\\*".toList ≠ [] := by decide
  induction s using globText.induct with
  | case1 s ih =>
    simp only [globText]
    rw [replaceAll_cons (not_prefix_of_head rfl (by decide)), replaceAll_cons (not_prefix_of_head rfl (by decide)),
      ih hp.tail.tail]
  | case2 s hs ih =>
    have hs' : ∀ r, s ≠ '*' :: r := fun r h => hs r h
    rw [(glob_star hs' _).1, (glob_star hs' _).1]
    have := replaceAll_append hne "[^.]*".toList (globText ['\\', '*'] s)
    rw [ih hp.tail] at this
    exact this
  | case3 s ih =>
    simp only [globText]
    rw [replaceAll_cons (by rintro ⟨r, hr⟩; simp at hr), replaceAll_cons (not_prefix_of_head rfl (by decide)),
      ih hp.tail]
  | case4 c s h1 h2 h3 ih =>
    rw [(glob_lit h2 h3 _ s).1, (glob_lit h2 h3 _ s).1,
      replaceAll_cons (not_prefix_of_head rfl hp.ne_backslash), ih hp.tail]
  | case5 => rfl

/-! ## The pattern compiles -/

theorem parsePieces_star {fuel : Nat} {s r : Str} {e : Elem} (he : parseElem s = some (e, '*' :: r)) :
    parsePieces (fuel + 1) s = (parsePieces fuel r).map (⟨e, true⟩ :: ·) := by
  rw [parsePieces]
  · simp [he]
  · rintro rfl; cases he
  · rintro rfl; simp [parseElem, metaChars] at he

theorem parsePieces_one {fuel : Nat} {s r : Str} {e : Elem} (he : parseElem s = some (e, r))
    (hr : ∀ r', r ≠ '*' :: r') :
    parsePieces (fuel + 1) s = (parsePieces fuel r).map (⟨e, false⟩ :: ·) := by
  rw [parsePieces]
  · simp only [he, Option.bind_some]
  · rintro rfl; cases he
  · rintro rfl; simp [parseElem, metaChars] at he

/-- No piece is followed by a bare `*`, so a piece without a `*` of its own takes none. -/
theorem globText_not_star (s r : Str) : globText "[^.]*".toList s ++ ['$'] ≠ '*' :: r := by
  induction s using globText.induct with
  | case1 s ih => simp [globText]
  | case2 s hs ih =>
    rw [(glob_star (fun r h => hs r h) _).1]
    simp
  | case3 s ih => simp [globText]
  | case4 c s h1 h2 h3 ih =>
    rw [(glob_lit h2 h3 _ s).1]
    intro h; exact h2 (List.cons.inj h).1
  | case5 => simp [globText]

theorem parsePieces_globText (s : Str) (hp : Plain s) (fuel : Nat)
    (hf : (globText "[^.]*".toList s).length < fuel) :
    parsePieces fuel (globText "[^.]*".toList s ++ ['$']) = some (globPieces s) := by
  obtain ⟨fuel, rfl⟩ := Nat.exists_eq_add_one_of_ne_zero (show fuel ≠ 0 by omega)
  induction s using globText.induct generalizing fuel with
  -- two stars
  | case1 s ih =>
    simp only [globText, List.length_cons] at hf
    obtain ⟨fuel, rfl⟩ := Nat.exists_eq_add_one_of_ne_zero (show fuel ≠ 0 by omega)
    rw [globText, globPieces]
    show parsePieces _ ('.' :: '*' :: (globText "[^.]*".toList s ++ ['$'])) = _
    rw [parsePieces_star rfl, ih hp.tail.tail fuel (by omega)]
    rfl
  -- one star: a class of all but the dot
  | case2 s hs ih =>
    obtain ⟨ht, hq⟩ := glob_star (fun r h => hs r h) "[^.]*".toList
    rw [ht] at hf ⊢
    simp only [List.length_append, show ("[^.]*".toList).length = 5 from rfl] at hf
    obtain ⟨fuel, rfl⟩ := Nat.exists_eq_add_one_of_ne_zero (show fuel ≠ 0 by omega)
    rw [hq]
    show parsePieces _ ('[' :: '^' :: '.' :: ']' :: '*' :: (globText "[^.]*".toList s ++ ['$'])) = _
    rw [parsePieces_star rfl, ih hp.tail fuel (by omega)]
    rfl
  -- a dot is escaped
  | case3 s ih =>
    simp only [globText, List.length_cons] at hf
    obtain ⟨fuel, rfl⟩ := Nat.exists_eq_add_one_of_ne_zero (show fuel ≠ 0 by omega)
    have hq : globPieces ('.' :: s) = ⟨.lit '.', false⟩ :: globPieces s := by simp [globPieces]
    rw [globText, hq]
    show parsePieces _ ('\\' :: '.' :: (globText "[^.]*".toList s ++ ['$'])) = _
    rw [parsePieces_one rfl (globText_not_star s), ih hp.tail fuel (by omega)]
    rfl
  -- no other character of a plain text means anything in a regex
  | case4 c s h1 h2 h3 ih =>
    have hc : parseElem (c :: (globText "[^.]*".toList s ++ ['$'])) =
        some (.lit c, globText "[^.]*".toList s ++ ['$']) := by
      have hm : c ∉ metaChars := fun hm => (hp c (List.mem_cons_self ..) hm).elim h3 h2
      rw [parseElem, if_neg hm]
      · rintro _ _ rfl; exact absurd (by decide) hm
      · rintro rfl; exact absurd (by decide) hm
      · rintro _ _ rfl; exact absurd (by decide) hm
    obtain ⟨ht, hq⟩ := glob_lit h2 h3 "[^.]*".toList s
    rw [ht] at hf ⊢
    simp only [List.length_cons] at hf
    obtain ⟨fuel, rfl⟩ := Nat.exists_eq_add_one_of_ne_zero (show fuel ≠ 0 by omega)
    rw [hq, List.cons_append, parsePieces_one hc (globText_not_star s), ih hp.tail fuel (by omega)]
    rfl
  | case5 => simp [globText, parsePieces, globPieces]

/-- The pattern of a valid wildcard compiles, to the wildcard's pieces. -/
theorem domainWildcardToRegex_eq {t : CharTables} {s : Str} (h : isValidDomainWildcard t s = true) :
    domainWildcardToRegex s = .ok (globPieces s) := by
  have hp := plain_of_valid h
  unfold domainWildcardToRegex
  rw [escape_eq, replace_doubleStar s hp, replace_star s hp]
  have := parsePieces_globText s hp (globText "[^.]*".toList s ++ ['$']).length (by simp)
  simp only [toRegex, List.cons_append, this]

end SunProxy.Utils
