/-
The text functions of the Kotlin and Java libraries the program calls, on texts as lists of
characters. What the libraries take from the Unicode tables (decimal digits, the `\w` and `\s` of
regular expressions, letter case) differs between Java and Android outside ASCII: it is the
structure `CharTables`, with what both document as its fields.
-/
import SunProxy.Lib.Seq
import Mathlib.Data.List.Basic

namespace SunProxy.Kotlin

open SunProxy.Seq

/-- A Kotlin `String`, by its characters. A character outside the basic plane, two units in
Kotlin, is one here: every text the program accepts by a length or an index is free of them. -/
abbrev Str := List Char

/-- What a library call throws. -/
inductive JavaException
  | stringIndexOutOfBounds
  | arrayIndexOutOfBounds
  | numberFormat
  | patternSyntax
  | nullPointer
  | illegalArgument
  deriving DecidableEq, Repr

/-! ## Characters -/

/-- `Char.isWhitespace()`: the Unicode space, line and paragraph separators and the ASCII
control characters that separate. -/
def isWhitespace (c : Char) : Bool :=
  (9 ≤ c.toNat && c.toNat ≤ 13) || (28 ≤ c.toNat && c.toNat ≤ 32) || c.toNat == 0xA0 ||
  c.toNat == 0x1680 || (0x2000 ≤ c.toNat && c.toNat ≤ 0x200A) || c.toNat == 0x2028 ||
  c.toNat == 0x2029 || c.toNat == 0x202F || c.toNat == 0x205F || c.toNat == 0x3000

/-- The value of an ASCII digit or letter as a digit. -/
def asciiDigit (c : Char) : Option Nat :=
  if '0' ≤ c ∧ c ≤ '9' then some (c.toNat - 48)
  else if 'a' ≤ c ∧ c ≤ 'z' then some (c.toNat - 87)
  else if 'A' ≤ c ∧ c ≤ 'Z' then some (c.toNat - 55)
  else none

theorem asciiDigit_range {c : Char} {d : Nat} (h : asciiDigit c = some d) :
    48 ≤ c.toNat ∧ c.toNat ≤ 122 := by
  unfold asciiDigit at h
  split at h
  · rename_i hr; exact ⟨hr.1, le_trans (show c.toNat ≤ 57 from hr.2) (by decide)⟩
  · split at h
    · rename_i hr; exact ⟨le_trans (by decide) (show 97 ≤ c.toNat from hr.1), hr.2⟩
    · split at h
      · rename_i hr
        exact ⟨le_trans (by decide) (show 65 ≤ c.toNat from hr.1),
          le_trans (show c.toNat ≤ 90 from hr.2) (by decide)⟩
      · cases h

def asciiLower (c : Char) : Char :=
  if 'A' ≤ c ∧ c ≤ 'Z' then Char.ofNat (c.toNat + 32) else c

/-- The Unicode tables of the platform, with what its documentation promises. -/
structure CharTables where
  /-- `Character.digit(c, radix)` -/
  digitOf : Char → Nat → Option Nat
  /-- `\w` in a regular expression -/
  isWord : Char → Bool
  /-- `\s` in a regular expression -/
  isSpace : Char → Bool
  /-- equality under `RegexOption.IGNORE_CASE` -/
  eqIgnoreCase : Char → Char → Bool
  digitOf_ascii : ∀ c r, c.toNat < 128 → digitOf c r = (asciiDigit c).filter (· < r)
  digitOf_lt : ∀ c r d, digitOf c r = some d → d < r
  digitOf_basic : ∀ c r d, digitOf c r = some d → c.toNat ≤ 0xFFFF
  digitOf_not_whitespace : ∀ c r d, digitOf c r = some d → isWhitespace c = false ∧ isSpace c = false
  isWord_ascii : ∀ c, c.toNat < 128 → isWord c = ((asciiDigit c).isSome || c == '_')
  isSpace_blank : isSpace ' ' = true
  isSpace_graphic : ∀ c, 33 ≤ c.toNat → c.toNat < 127 → isSpace c = false
  eqIgnoreCase_ascii : ∀ c d, c.toNat < 128 → d.toNat < 128 →
    eqIgnoreCase c d = (asciiLower c == asciiLower d)
  eqIgnoreCase_refl : ∀ c, eqIgnoreCase c c = true

/-- The tables of a Java platform restricted to ASCII: every other character is in no class. -/
def CharTables.ascii : CharTables where
  digitOf c r := (asciiDigit c).filter (· < r)
  isWord c := (asciiDigit c).isSome || c == '_'
  isSpace c := c == ' ' || (9 ≤ c.toNat && c.toNat ≤ 13)
  eqIgnoreCase c d := asciiLower c == asciiLower d
  digitOf_ascii _ _ _ := rfl
  digitOf_lt c r d h := by simp only [Option.filter_eq_some_iff, decide_eq_true_eq] at h; exact h.2
  digitOf_basic c r d h := by
    simp only [Option.filter_eq_some_iff] at h
    have := asciiDigit_range h.1
    omega
  digitOf_not_whitespace c r d h := by
    simp only [Option.filter_eq_some_iff] at h
    have hc := asciiDigit_range h.1
    have hb : c ≠ ' ' := by rintro rfl; exact absurd hc.1 (by decide)
    simp [isWhitespace, hb]
    omega
  isWord_ascii _ _ := rfl
  isSpace_blank := rfl
  isSpace_graphic c h1 h2 := by
    have hb : c ≠ ' ' := by rintro rfl; exact absurd h1 (by decide)
    simp [hb]
    omega
  eqIgnoreCase_ascii _ _ _ _ := rfl
  eqIgnoreCase_refl _ := by simp

/-! ## Lines, trimming, cutting -/

/-- `s.lines()`: the lines end at `\n`, `\r\n` or `\r`. -/
def lines : Str → List Str
  | [] => [[]]
  | '\r' :: '\n' :: s => [] :: lines s
  | c :: s => if c = '\n' ∨ c = '\r' then [] :: lines s else (lines s).modifyHead (c :: ·)

/-- `s.trim()` -/
def trim (s : Str) : Str := (s.dropWhile isWhitespace).rdropWhile isWhitespace

/-- `s.split(d, limit = 2)` -/
def split2 (d : Char) (s : Str) : List Str :=
  match cut d s with
  | (p, none) => [p]
  | (p, some r) => [p, r]

/-- `s.split(d)` for a one-character delimiter. -/
def split (d : Char) (s : Str) : List Str := s.splitOn d

/-- `s.contains(p)` -/
def contains (p s : Str) : Bool := decide (p <:+: s)

/-- A text without line ends is one line. -/
theorem lines_of_noBreak {s : Str} (h : ∀ c ∈ s, c ≠ '\n' ∧ c ≠ '\r') : lines s = [s] := by
  induction s with
  | nil => rfl
  | cons c s ih =>
    have hc := h c (List.mem_cons_self ..)
    have ih := ih fun d hd => h d (List.mem_cons_of_mem _ hd)
    rw [lines]
    · rw [if_neg (by simp [hc]), ih]; rfl
    · exact fun _ e _ => hc.2 e

/-- Trimming takes blanks off both ends of a text that starts and ends with other characters. -/
theorem trim_eq {p s q : Str} (hp : ∀ c ∈ p, isWhitespace c = true) (hq : ∀ c ∈ q, isWhitespace c = true)
    (hs : s ≠ []) (hall : ∀ c, s.head? = some c ∨ s.getLast? = some c → isWhitespace c = false) :
    trim (p ++ (s ++ q)) = s := by
  have hd : (p ++ (s ++ q)).dropWhile isWhitespace = s ++ q := by
    rw [List.dropWhile_append_of_pos hp]
    cases s with
    | nil => exact absurd rfl hs
    | cons c s => exact List.dropWhile_cons_of_neg (by simp [hall c (.inl rfl)])
  have hr : (q.reverse ++ s.reverse).dropWhile isWhitespace = s.reverse := by
    rw [List.dropWhile_append_of_pos (by simpa using hq)]
    cases hc : s.reverse with
    | nil => exact absurd (List.reverse_eq_nil_iff.1 hc) hs
    | cons c r =>
      refine List.dropWhile_cons_of_neg ?_
      have : s.getLast? = some c := by rw [← List.head?_reverse, hc]; rfl
      simp [hall c (.inr this)]
  rw [trim, hd, List.rdropWhile, List.reverse_append, hr, List.reverse_reverse]

/-! ## Indexing -/

/-- `s[i]` -/
def charAt (s : Str) (i : Nat) : Except JavaException Char :=
  match s[i]? with
  | some c => .ok c
  | none => .error .stringIndexOutOfBounds

/-- `s.substring(i)` -/
def substringFrom (s : Str) (i : Nat) : Except JavaException Str :=
  if i ≤ s.length then .ok (s.drop i) else .error .stringIndexOutOfBounds

/-- `s.substring(i, j)` -/
def substring (s : Str) (i j : Nat) : Except JavaException Str :=
  if i ≤ j ∧ j ≤ s.length then .ok ((s.take j).drop i) else .error .stringIndexOutOfBounds

/-- `list[i]` and `array[i]` -/
def arrayGet {α : Type} (a : List α) (i : Nat) : Except JavaException α :=
  match a[i]? with
  | some x => .ok x
  | none => .error .arrayIndexOutOfBounds

/-- `array[i] = x` -/
def arraySet {α : Type} (a : List α) (i : Int) (x : α) : Except JavaException (List α) :=
  if 0 ≤ i ∧ i.toNat < a.length then .ok (a.set i.toNat x) else .error .arrayIndexOutOfBounds

/-! ## Numbers -/

/-- `n.toByte()` -/
def toByte (n : Int) : UInt8 := ⟨BitVec.ofInt 8 n⟩

/-- The number a text of digits writes. -/
def digitsValue (t : CharTables) (radix : Nat) (s : Str) : Option Nat :=
  s.foldlM (fun acc c => (t.digitOf c radix).map (acc * radix + ·)) 0

/-- `s.toIntOrNull(radix)`: an optional sign, digits, and a value in the range of `Int`. -/
def toIntOrNull (t : CharTables) (radix : Nat) : Str → Option Int
  | [] => none
  | c :: s =>
    if c.toNat < '0'.toNat then
      if s.isEmpty then none
      else if c = '-' then
        (digitsValue t radix s).bind fun n => if n ≤ 0x80000000 then some (-(n : Int)) else none
      else if c = '+' then
        (digitsValue t radix s).bind fun n => if n < 0x80000000 then some (n : Int) else none
      else none
    else (digitsValue t radix (c :: s)).bind fun n => if n < 0x80000000 then some (n : Int) else none

theorem digitsValue_digits {t : CharTables} {radix : Nat} {s : Str} {n : Nat} (h : digitsValue t radix s = some n) :
    ∀ c ∈ s, (t.digitOf c radix).isSome := by
  suffices ∀ (s : Str) (acc : Nat), (s.foldlM (fun acc c => (t.digitOf c radix).map (acc * radix + ·)) acc).isSome →
      ∀ c ∈ s, (t.digitOf c radix).isSome from this s 0 (by rw [digitsValue] at h; rw [h]; rfl)
  intro s
  induction s with
  | nil => simp
  | cons c s ih =>
    intro acc h
    cases hc : t.digitOf c radix with
    | none => simp [List.foldlM_cons, hc] at h
    | some d =>
      rw [List.foldlM_cons, hc] at h
      simpa [hc] using ih _ h

/-- Only a sign and digits are read as a number. -/
theorem toIntOrNull_chars {t : CharTables} {radix : Nat} {s : Str} {n : Int} (h : toIntOrNull t radix s = some n) :
    s ≠ [] ∧ ∀ c ∈ s, c = '+' ∨ c = '-' ∨ (t.digitOf c radix).isSome := by
  cases s with
  | nil => cases h
  | cons c s =>
    refine ⟨by simp, ?_⟩
    have digits : ∀ {s : Str} {f : Nat → Option Int}, (digitsValue t radix s).bind f = some n →
        ∀ c ∈ s, (t.digitOf c radix).isSome := fun h => by
      obtain ⟨m, hm, -⟩ := Option.bind_eq_some_iff.1 h
      exact digitsValue_digits hm
    simp only [toIntOrNull] at h
    split_ifs at h with h1 h2 h3 h4
    · rintro d (_ | ⟨_, hd⟩)
      · exact .inr (.inl h3)
      · exact .inr (.inr (digits h d hd))
    · rintro d (_ | ⟨_, hd⟩)
      · exact .inl h4
      · exact .inr (.inr (digits h d hd))
    · exact fun d hd => .inr (.inr (digits h d hd))

/-- `s.toInt(radix)` -/
def toInt (t : CharTables) (radix : Nat) (s : Str) : Except JavaException Int :=
  match toIntOrNull t radix s with
  | some n => .ok n
  | none => .error .numberFormat

end SunProxy.Kotlin
