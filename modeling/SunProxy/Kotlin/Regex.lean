/-
The part of the regular expression language the program builds patterns in: literals, `\` before
a punctuation character, `.`, `[^c]`, each with an optional `*`, between the anchors `^` and `$`.
A pattern outside this part counts as a syntax error here, so a pattern shown to compile does
compile in the full language.
-/
import SunProxy.Kotlin.Text

namespace SunProxy.Kotlin

/-- What one character of the input is tested against. -/
inductive Elem
  | lit (c : Char)
  | any
  | notChar (c : Char)
  deriving DecidableEq, Repr

/-- An element, with or without `*`. -/
structure Piece where
  elem : Elem
  star : Bool
  deriving DecidableEq, Repr

/-- A compiled pattern. The anchors are not kept: `matches` always takes the whole input. -/
abbrev Regex := List Piece

/-- The characters that do not stand for themselves in a pattern. -/
def metaChars : Str := ['\\', '.', '[', ']', '{', '}', '(', ')', '*', '+', '?', '^', '$', '|']

/-! ## Compiling a pattern -/

def parseElem : Str → Option (Elem × Str)
  | '\\' :: c :: s => if (asciiDigit c).isSome then none else some (.lit c, s)
  | '.' :: s => some (.any, s)
  | '[' :: '^' :: c :: ']' :: s => if c ∈ ['\\', '[', ']', '^', '&', '-'] then none else some (.notChar c, s)
  | c :: s => if c ∈ metaChars then none else some (.lit c, s)
  | [] => none

/-- The pieces of a pattern up to its end or its final `$`; every piece takes a character, so the
length of the pattern is enough fuel. -/
def parsePieces : Nat → Str → Option (List Piece)
  | _, [] => some []
  | _, ['$'] => some []
  | 0, _ => none
  | fuel + 1, s =>
    (parseElem s).bind fun (e, r) =>
      match r with
      | '*' :: r => (parsePieces fuel r).map (⟨e, true⟩ :: ·)
      | r => (parsePieces fuel r).map (⟨e, false⟩ :: ·)

/-- `pattern.toRegex()` -/
def toRegex (pattern : Str) : Except JavaException Regex :=
  let body := match pattern with
    | '^' :: s => s
    | s => s
  match parsePieces body.length body with
  | some r => .ok r
  | none => .error .patternSyntax

/-! ## Matching -/

/-- The characters `.` does not match. -/
def isLineTerminator (c : Char) : Bool :=
  c == '\n' || c == '\r' || c.toNat == 0x85 || c.toNat == 0x2028 || c.toNat == 0x2029

def Elem.test (t : CharTables) : Elem → Char → Bool
  | .lit c, d => t.eqIgnoreCase c d
  | .any, d => !isLineTerminator d
  | .notChar c, d => !t.eqIgnoreCase c d

/-- Any number of characters that pass `p`, then what `k` matches. -/
def starMatch (p : Char → Bool) (k : Str → Bool) : Str → Bool
  | [] => k []
  | c :: s => k (c :: s) || (p c && starMatch p k s)

/-- `regex.matches(input)` with `RegexOption.IGNORE_CASE`. -/
def Regex.matches (t : CharTables) : Regex → Str → Bool
  | [], s => s.isEmpty
  | ⟨e, true⟩ :: r, s => starMatch (e.test t) (Regex.matches t r) s
  | ⟨_, false⟩ :: _, [] => false
  | ⟨e, false⟩ :: r, c :: s => e.test t c && Regex.matches t r s

theorem starMatch_iff (p : Char → Bool) (k : Str → Bool) (s : Str) :
    starMatch p k s = true ↔ ∃ a b, s = a ++ b ∧ (∀ c ∈ a, p c = true) ∧ k b = true := by
  induction s with
  | nil =>
    simp only [starMatch, List.nil_eq_append_iff]
    constructor
    · intro h; exact ⟨[], [], ⟨rfl, rfl⟩, by simp, h⟩
    · rintro ⟨a, b, ⟨rfl, rfl⟩, -, h⟩; exact h
  | cons c s ih =>
    simp only [starMatch, Bool.or_eq_true, Bool.and_eq_true, ih]
    constructor
    · rintro (h | ⟨hc, a, b, rfl, ha, hb⟩)
      · exact ⟨[], c :: s, rfl, by simp, h⟩
      · exact ⟨c :: a, b, rfl, by simpa [hc] using ha, hb⟩
    · rintro ⟨a, b, hs, ha, hb⟩
      cases a with
      | nil => subst hs; exact .inl hb
      | cons d a =>
        simp only [List.cons_append, List.cons.injEq] at hs
        obtain ⟨rfl, rfl⟩ := hs
        simp only [List.mem_cons, forall_eq_or_imp] at ha
        exact .inr ⟨ha.1, a, b, rfl, ha.2, hb⟩

end SunProxy.Kotlin
