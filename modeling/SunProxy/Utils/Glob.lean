/-
What a wildcard of host names means: `**` is any run of characters, another `*` a run without dots,
and any other character itself, whatever its case. The pattern `Utils.domainWildcardToRegex` builds
from a valid wildcard matches exactly these host names.
-/
import SunProxy.Utils.Wildcard

namespace SunProxy.Utils

open SunProxy.Kotlin

/-- The host names a wildcard stands for. Stars are read in pairs from the left. -/
inductive Glob (t : CharTables) : Str → Str → Prop
  | nil : Glob t [] []
  | doubleStar {w a h : Str} (hg : Glob t w h) : Glob t ('*' :: '*' :: w) (a ++ h)
  | star {w a h : Str} (hw : w.head? ≠ some '*') (ha : '.' ∉ a) (hg : Glob t w h) : Glob t ('*' :: w) (a ++ h)
  | char {c d : Char} {w h : Str} (hc : c ≠ '*') (hcd : t.eqIgnoreCase c d = true) (hg : Glob t w h) :
      Glob t (c :: w) (d :: h)

/-! ## One piece of a wildcard -/

theorem glob_nil_iff {t : CharTables} {h : Str} : Glob t [] h ↔ h = [] := by
  constructor
  · rintro ⟨⟩
    rfl
  · rintro rfl
    exact .nil

theorem glob_doubleStar_iff {t : CharTables} {w h : Str} :
    Glob t ('*' :: '*' :: w) h ↔ ∃ a b, h = a ++ b ∧ Glob t w b := by
  constructor
  · intro hg
    cases hg with
    | @doubleStar w a b hg => exact ⟨a, b, rfl, hg⟩
    | star hw => exact absurd rfl hw
    | char hc => exact absurd rfl hc
  · rintro ⟨a, b, rfl, hg⟩
    exact .doubleStar hg

theorem glob_star_iff {t : CharTables} {w h : Str} (hw : ∀ r, w ≠ '*' :: r) :
    Glob t ('*' :: w) h ↔ ∃ a b, h = a ++ b ∧ '.' ∉ a ∧ Glob t w b := by
  constructor
  · intro hg
    cases hg with
    | @doubleStar w => exact absurd rfl (hw w)
    | @star w a b _ ha hg => exact ⟨a, b, rfl, ha, hg⟩
    | char hc => exact absurd rfl hc
  · rintro ⟨a, b, rfl, ha, hg⟩
    refine .star (fun he => ?_) ha hg
    cases w with
    | nil => cases he
    | cons c r => exact hw r (by rw [Option.some.inj he])

theorem glob_char_iff {t : CharTables} {c : Char} {w h : Str} (hc : c ≠ '*') :
    Glob t (c :: w) h ↔ ∃ d b, h = d :: b ∧ t.eqIgnoreCase c d = true ∧ Glob t w b := by
  constructor
  · intro hg
    cases hg with
    | doubleStar => exact absurd rfl hc
    | star => exact absurd rfl hc
    | @char c d w b _ hcd hg => exact ⟨d, b, rfl, hcd, hg⟩
  · rintro ⟨d, b, rfl, hcd, hg⟩
    exact .char hc hcd hg

/-! ## The pieces match what the wildcard stands for -/

theorem matches_star {t : CharTables} {e : Elem} {r : Regex} {h : Str} :
    Regex.matches t (⟨e, true⟩ :: r) h = true ↔
      ∃ a b, h = a ++ b ∧ (∀ c ∈ a, e.test t c = true) ∧ r.matches t b = true := by
  rw [Regex.matches, starMatch_iff]

theorem matches_lit {t : CharTables} {c : Char} {r : Regex} {h : Str} :
    Regex.matches t (⟨.lit c, false⟩ :: r) h = true ↔
      ∃ d b, h = d :: b ∧ t.eqIgnoreCase c d = true ∧ r.matches t b = true := by
  cases h with
  | nil => simp [Regex.matches]
  | cons d b => simp [Regex.matches, Elem.test]

theorem globPieces_matches {t : CharTables} (hdot : ∀ d, t.eqIgnoreCase '.' d = (d == '.')) (w h : Str)
    (hh : ∀ c ∈ h, isLineTerminator c = false) : (globPieces w).matches t h = true ↔ Glob t w h := by
  induction w using globPieces.induct generalizing h with
  | case1 w ih =>
    rw [globPieces, matches_star, glob_doubleStar_iff]
    constructor
    · rintro ⟨a, b, rfl, -, hb⟩
      exact ⟨a, b, rfl, (ih b fun c hc => hh c (List.mem_append_right a hc)).1 hb⟩
    · rintro ⟨a, b, rfl, hb⟩
      refine ⟨a, b, rfl, fun c hc => ?_, (ih b fun c hc => hh c (List.mem_append_right a hc)).2 hb⟩
      simp [Elem.test, hh c (List.mem_append_left b hc)]
  | case2 w hw ih =>
    -- no second star follows, so the piece is a run without dots
    have hw' : ∀ r, w ≠ '*' :: r := fun r h => hw r h
    rw [(glob_star hw' []).2, matches_star, glob_star_iff hw']
    have htest : ∀ a : Str, (∀ c ∈ a, (Elem.notChar '.').test t c = true) ↔ '.' ∉ a := by
      intro a
      simp only [Elem.test, hdot, Bool.not_eq_true', beq_eq_false_iff_ne]
      exact ⟨fun h hm => h '.' hm rfl, fun h c hc he => h (he ▸ hc)⟩
    constructor
    · rintro ⟨a, b, rfl, ha, hb⟩
      exact ⟨a, b, rfl, (htest a).1 ha, (ih b fun c hc => hh c (List.mem_append_right a hc)).1 hb⟩
    · rintro ⟨a, b, rfl, ha, hb⟩
      exact ⟨a, b, rfl, (htest a).2 ha, (ih b fun c hc => hh c (List.mem_append_right a hc)).2 hb⟩
  | case3 c w h1 h2 ih =>
    have hc : c ≠ '*' := fun e => h2 e
    rw [globPieces, matches_lit, glob_char_iff hc]
    · constructor
      · rintro ⟨d, b, rfl, hcd, hb⟩
        exact ⟨d, b, rfl, hcd, (ih b fun c hc => hh c (List.mem_cons_of_mem d hc)).1 hb⟩
      · rintro ⟨d, b, rfl, hcd, hb⟩
        exact ⟨d, b, rfl, hcd, (ih b fun c hc => hh c (List.mem_cons_of_mem d hc)).2 hb⟩
    · exact fun _ e _ => hc e
    · exact hc
  | case4 =>
    rw [globPieces, glob_nil_iff]
    simp [Regex.matches]

/-- Only a dot equals a dot, on the platform restricted to ASCII. -/
theorem eqIgnoreCase_dot_ascii (d : Char) : CharTables.ascii.eqIgnoreCase '.' d = (d == '.') := by
  show (asciiLower '.' == asciiLower d) = (d == '.')
  rw [show asciiLower '.' = '.' by decide, Bool.eq_iff_iff, beq_iff_eq, beq_iff_eq]
  unfold asciiLower
  split_ifs with hd
  · have : ∀ n, 65 ≤ n → n ≤ 90 → '.' ≠ Char.ofNat (n + 32) := by decide
    refine iff_of_false (this d.toNat hd.1 hd.2) ?_
    rintro rfl
    exact absurd hd (by decide)
  · exact eq_comm

/-- The pattern of a valid wildcard compiles, and matches a host name whole if and only if the
wildcard stands for it, where no other character equals a dot without regard to case. -/
theorem domainWildcardToRegex_matches {t : CharTables} (hdot : ∀ d, t.eqIgnoreCase '.' d = (d == '.')) {w h : Str}
    (hw : isValidDomainWildcard t w = true) (hh : ∀ c ∈ h, isLineTerminator c = false) :
    ∃ r, domainWildcardToRegex w = .ok r ∧ (r.matches t h = true ↔ Glob t w h) :=
  ⟨globPieces w, domainWildcardToRegex_eq hw, globPieces_matches hdot w h hh⟩

theorem domainWildcardToRegex_matches_subdomain :
    ∃ r, domainWildcardToRegex "**.Example.*".toList = .ok r ∧
      (r.matches .ascii "a.b.example.com".toList = true ↔
        Glob .ascii "**.Example.*".toList "a.b.example.com".toList) := by
  have hh : "a.b.example.com".toList.all fun c => isLineTerminator c = false := by decide
  exact domainWildcardToRegex_matches eqIgnoreCase_dot_ascii (by decide +kernel) fun c hc =>
    of_decide_eq_true (List.all_eq_true.1 hh c hc)

end SunProxy.Utils
