/-
`RedirectRule.Tokenizer`: the successive matches of its regular expression, which tries the longer
operators before their first characters. Tokens between spaces are read back as they are.
-/
import SunProxy.Redirect.Parser

namespace SunProxy.Redirect

open SunProxy.Kotlin SunProxy.Seq SunProxy.Utils

/-- The characters with a meaning of their own: `()=!<>&|`. -/
def isSpecial (c : Char) : Bool := c ∈ ['(', ')', '=', '!', '<', '>', '&', '|']

/-- `[^\s()=!<>&|]` -/
def isTokenChar (t : CharTables) (c : Char) : Bool := !t.isSpace c && !isSpecial c

/-- The length of the match of
`!~|=~|==|!=|<=|>=|\|\||&&|[()!<>=]|[^\s()=!<>&|]+` at the front of a text, 0 for none. -/
def tokenLength (t : CharTables) : Str → Nat
  | '!' :: '~' :: _ => 2
  | '=' :: '~' :: _ => 2
  | '=' :: '=' :: _ => 2
  | '!' :: '=' :: _ => 2
  | '<' :: '=' :: _ => 2
  | '>' :: '=' :: _ => 2
  | '|' :: '|' :: _ => 2
  | '&' :: '&' :: _ => 2
  | c :: s =>
    if c ∈ ['(', ')', '!', '<', '>', '='] then 1 else ((c :: s).takeWhile (isTokenChar t)).length
  | [] => 0

def tokenize (t : CharTables) (input : Str) : List Token := findAll (tokenLength t) input

/-! ## Tokens between spaces -/

/-- A text that is one token wherever it stands before a space or the end. -/
def IsToken (t : CharTables) (w : Token) : Prop :=
  w ≠ [] ∧ ∀ rest, (∀ c ∈ rest.head?, c = ' ') → tokenLength t (w ++ rest) = w.length

/-- Tokens with a space between them. -/
def spaced (ws : List Token) : Str := [' '].intercalate ws

theorem tokenLength_of_notSpecial {t : CharTables} {c : Char} {s : Str} (h : isSpecial c = false) :
    tokenLength t (c :: s) = ((c :: s).takeWhile (isTokenChar t)).length := by
  simp only [isSpecial, List.mem_cons, List.not_mem_nil, or_false, decide_eq_false_iff_not, not_or] at h
  obtain ⟨h1, h2, h3, h4, h5, h6, h7, h8⟩ := h
  unfold tokenLength
  split <;> simp_all

theorem tokenLength_space (t : CharTables) (s : Str) : tokenLength t (' ' :: s) = 0 := by
  rw [tokenLength_of_notSpecial (by decide), List.takeWhile_cons_of_neg (by simp [isTokenChar, t.isSpace_blank])]
  rfl

/-- Characters without a meaning of their own make a token. -/
theorem isToken_of_chars {t : CharTables} {w : Token} (hw : w ≠ []) (h : ∀ c ∈ w, isTokenChar t c = true) :
    IsToken t w := by
  refine ⟨hw, fun rest hr => ?_⟩
  have htake : (w ++ rest).takeWhile (isTokenChar t) = w := by
    rw [List.takeWhile_append_of_pos h]
    cases rest with
    | nil => simp
    | cons c rest =>
      obtain rfl := hr c rfl
      rw [List.takeWhile_cons_of_neg (by simp [isTokenChar, t.isSpace_blank]), List.append_nil]
  cases w with
  | nil => exact absurd rfl hw
  | cons c w =>
    have hc := h c (List.mem_cons_self ..)
    simp only [isTokenChar, Bool.and_eq_true, Bool.not_eq_true'] at hc
    rw [List.cons_append, tokenLength_of_notSpecial hc.2, ← List.cons_append, htake]

/-- The operators, the parentheses and the connectives. -/
def symbols : List Token :=
  ["||".toList, "&&".toList, "!".toList, "(".toList, ")".toList, "==".toList, "!=".toList, "=~".toList, "!~".toList,
    "<".toList, "<=".toList, ">".toList, ">=".toList]

theorem isToken_symbol (t : CharTables) {w : Token} (h : w ∈ symbols) : IsToken t w := by
  simp only [symbols, List.mem_cons, List.not_mem_nil, or_false] at h
  rcases h with rfl | rfl | rfl | rfl | rfl | rfl | rfl | rfl | rfl | rfl | rfl | rfl | rfl
  all_goals
    refine ⟨by decide, fun rest hr => ?_⟩
    cases rest with
    | nil => rfl
    | cons c rest => obtain rfl := hr c rfl; rfl

/-- Tokens between spaces are read back. -/
theorem tokenize_spaced {t : CharTables} {ws : List Token} (h : ∀ w ∈ ws, IsToken t w) :
    tokenize t (spaced ws) = ws := by
  unfold tokenize spaced
  induction ws with
  | nil => rfl
  | cons w ws ih =>
    obtain ⟨hne, hlen⟩ := h w (List.mem_cons_self ..)
    cases ws with
    | nil =>
      have : findAll (tokenLength t) (w ++ []) = [w] := findAll_match hne [] (hlen [] nofun)
      simpa using this
    | cons v ws =>
      have ih := ih fun w hw => h w (List.mem_cons_of_mem _ hw)
      rw [List.intercalate_cons_cons, List.append_assoc, List.singleton_append,
        findAll_match hne _ (hlen _ (by simp)), findAll_skip (tokenLength_space t _), ih]

end SunProxy.Redirect
