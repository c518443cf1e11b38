/-
The characters of servers' texts and of the operands of comparisons: none of them is blank, starts
a comment or a condition, or has a meaning for the tokenizer.
-/
import SunProxy.Redirect.Grammar
import SunProxy.Redirect.Tokenizer

namespace SunProxy.Redirect

open SunProxy.Kotlin SunProxy.Seq SunProxy.Utils

/-- A character that neither ends a line nor a part of one. -/
def LineChar (c : Char) : Prop := isWhitespace c = false ∧ c ≠ '#' ∧ c ≠ '$'

instance (c : Char) : Decidable (LineChar c) := inferInstanceAs (Decidable (_ ∧ _))

/-- A character of the tokens that are not symbols. -/
def WordChar (t : CharTables) (c : Char) : Prop := isTokenChar t c = true ∧ LineChar c

theorem wordChar_ascii (t : CharTables) {c : Char} (h1 : 33 ≤ c.toNat) (h2 : c.toNat < 127)
    (hs : isSpecial c = false) (hh : c ≠ '#') (hd : c ≠ '$') : WordChar t c := by
  refine ⟨by rw [isTokenChar, t.isSpace_graphic c h1 h2, hs]; rfl, ?_, hh, hd⟩
  simp only [isWhitespace, Bool.or_eq_false_iff, Bool.and_eq_false_iff, decide_eq_false_iff_not, beq_eq_false_iff_ne]
  omega

/-- The characters of the words of the language itself. -/
def isKeywordChar (c : Char) : Bool :=
  33 ≤ c.toNat && (c.toNat < 127 && (!isSpecial c && (c != '#' && c != '$')))

theorem wordChars_keyword (t : CharTables) {w : Str} (h : w.all isKeywordChar = true) : ∀ c ∈ w, WordChar t c := by
  intro c hc
  have := List.all_eq_true.1 h c hc
  simp only [isKeywordChar, Bool.and_eq_true, decide_eq_true_eq, Bool.not_eq_true', bne_iff_ne] at this
  exact wordChar_ascii t this.1 this.2.1 this.2.2.1 this.2.2.2.1 this.2.2.2.2

/-- The punctuation of numbers, addresses and wildcards. -/
theorem wordChar_punctuation (t : CharTables) {c : Char}
    (h : c ∈ ['+', '-', '.', ':', '/', '[', ']', '_', '*']) : WordChar t c := by
  simp only [List.mem_cons, List.not_mem_nil, or_false] at h
  rcases h with rfl | rfl | rfl | rfl | rfl | rfl | rfl | rfl | rfl <;>
    exact wordChar_ascii t (by decide) (by decide) (by decide) (by decide) (by decide)

/-- The characters with a meaning are no digits. -/
theorem asciiDigit_special {c : Char} (h : isSpecial c = true ∨ c = '#' ∨ c = '$') :
    c.toNat < 128 ∧ asciiDigit c = none := by
  simp only [isSpecial, List.mem_cons, List.not_mem_nil, or_false, decide_eq_true_eq] at h
  rcases h with (rfl | rfl | rfl | rfl | rfl | rfl | rfl | rfl) | rfl | rfl <;> decide

theorem wordChar_digit {t : CharTables} {c : Char} {radix : Nat} (h : (t.digitOf c radix).isSome) : WordChar t c := by
  obtain ⟨d, hd⟩ := Option.isSome_iff_exists.1 h
  have plain : ¬ (isSpecial c = true ∨ c = '#' ∨ c = '$') := fun hs => by
    obtain ⟨hc, hn⟩ := asciiDigit_special hs
    rw [t.digitOf_ascii c radix hc, hn] at hd
    cases hd
  obtain ⟨hw, hsp⟩ := t.digitOf_not_whitespace c radix d hd
  refine ⟨?_, hw, fun e => plain (.inr (.inl e)), fun e => plain (.inr (.inr e))⟩
  rw [isTokenChar, hsp, Bool.eq_false_iff.2 fun e => plain (.inl e)]
  rfl

theorem wordChar_asciiDigit (t : CharTables) {c : Char} (h : (asciiDigit c).isSome) : WordChar t c := by
  obtain ⟨d, hd⟩ := Option.isSome_iff_exists.1 h
  have hr := asciiDigit_range hd
  have plain : ¬ (isSpecial c = true ∨ c = '#' ∨ c = '$') := fun hs => by
    rw [(asciiDigit_special hs).2] at hd
    cases hd
  exact wordChar_ascii t (by omega) (by omega) (Bool.eq_false_iff.2 fun e => plain (.inl e))
    (fun e => plain (.inr (.inl e))) fun e => plain (.inr (.inr e))

/-! ## Numbers and addresses -/

section Chars

variable {t : CharTables}

theorem wordChars_number {s : Str} {n : Int} (h : toIntOrNull t 10 s = some n) : ∀ c ∈ s, WordChar t c := by
  intro c hc
  rcases (toIntOrNull_chars h).2 c hc with rfl | rfl | hd
  · exact wordChar_punctuation t (by decide)
  · exact wordChar_punctuation t (by decide)
  · exact wordChar_digit hd

theorem wordChars_ipv4 {s : Str} (h : isValidIpv4 t s = true) : ∀ c ∈ s, WordChar t c := by
  obtain ⟨b, hb⟩ := isValidIpv4_denotes h
  cases hb with
  | dotted hp hq hr hs =>
    intro c hc
    have hdot : WordChar t '.' := wordChar_punctuation t (by decide)
    simp only [List.intercalate_cons_cons, List.intercalate_singleton, List.mem_append, List.mem_singleton] at hc
    rcases hc with (hc | rfl) | (hc | rfl) | (hc | rfl) | hc
    all_goals first
      | exact hdot
      | exact wordChars_number hp c hc
      | exact wordChars_number hq c hc
      | exact wordChars_number hr c hc
      | exact wordChars_number hs c hc

theorem wordChars_ipv6 {s : Str} (h : isValidIpv6 s = true) : ∀ c ∈ s, WordChar t c := by
  intro c hc
  rcases mem_of_valid h hc with rfl | hx
  · exact wordChar_punctuation t (by decide)
  · obtain ⟨d, hd, -⟩ := isDigit_of_hex hx
    exact wordChar_asciiDigit t (by rw [hd]; rfl)

theorem wordChars_range (maxBits : Nat) {isValid : Str → Bool} {s : Str} (h : isValidRange t maxBits isValid s = true)
    (ha : ∀ s, isValid s = true → ∀ c ∈ s, WordChar t c) : ∀ c ∈ s, WordChar t c := by
  obtain ⟨address, n, hr, -, hv⟩ := isValidRange_shape maxBits h
  cases hr with
  | slash hs hp =>
    intro c hc
    simp only [List.mem_append, List.mem_cons] at hc
    rcases hc with hc | rfl | hc
    · exact ha _ hv c hc
    · exact wordChar_punctuation t (by decide)
    · exact wordChars_number hp c hc

/-- The text of an accepted server has only word characters. -/
theorem wordChars_server {s a : Str} {n : Int} (h : ipAndPort t s = .ok (some (a, n))) :
    s ≠ [] ∧ ∀ c ∈ s, WordChar t c := by
  have hcolon : WordChar t ':' := wordChar_punctuation t (by decide)
  unfold ipAndPort at h
  cases h4 : ipv4AndPort t s with
  | some r =>
    rw [h4] at h; cases h
    obtain ⟨p, -, rfl, hp, hv⟩ := ipv4AndPort_some h4
    refine ⟨by simp, fun c hc => ?_⟩
    simp only [List.mem_append, List.mem_cons] at hc
    rcases hc with hc | rfl | hc
    · exact wordChars_ipv4 hv c hc
    · exact hcolon
    · exact wordChars_number (parsePort_some hp).1 c hc
  | none =>
    rw [h4] at h
    obtain ⟨p, -, rfl, hp, hv⟩ := ipv6AndPort_some h
    refine ⟨by simp, fun c hc => ?_⟩
    simp only [List.mem_append, List.mem_cons] at hc
    rcases hc with rfl | hc | rfl | rfl | hc
    · exact wordChar_punctuation t (by decide)
    · exact wordChars_ipv6 hv c hc
    · exact wordChar_punctuation t (by decide)
    · exact hcolon
    · exact wordChars_number (parsePort_some hp).1 c hc

/-! ## Comparisons -/

theorem wordChars_wildcard {s : Str} (h : isValidDomainWildcard t s = true) (ha : ∀ c ∈ s, c.toNat < 128) :
    s ≠ [] ∧ ∀ c ∈ s, WordChar t c := by
  simp only [isValidDomainWildcard, Bool.and_eq_true, List.all_eq_true] at h
  refine ⟨by rintro rfl; simp at h, fun c hc => ?_⟩
  have hw := h.2.2 c hc
  have hlt := ha c hc
  simp only [isWildcardChar, Bool.or_eq_true, beq_iff_eq, Bool.and_eq_true, decide_eq_true_eq,
    t.isWord_ascii c hlt] at hw
  rcases hw with ((((hd | rfl) | rfl) | rfl) | rfl) | hw
  · rcases hd with hd | rfl
    · exact wordChar_asciiDigit t hd
    · exact wordChar_punctuation t (by decide)
  all_goals first
    | exact wordChar_punctuation t (by decide)
    | omega

theorem wordChars_ip {s : Str} (h : isValidIp t s = true) : s ≠ [] ∧ ∀ c ∈ s, WordChar t c := by
  rcases Bool.or_eq_true_iff.1 h with h4 | h6
  · exact ⟨(by rintro rfl; cases h4), wordChars_ipv4 h4⟩
  · exact ⟨(by rintro rfl; cases h6), wordChars_ipv6 h6⟩

theorem wordChars_ipRange {s : Str} (h : isValidIpRange t s = true) : s ≠ [] ∧ ∀ c ∈ s, WordChar t c := by
  rcases Bool.or_eq_true_iff.1 h with h4 | h6
  · exact ⟨(by rintro rfl; cases h4), wordChars_range 32 h4 fun _ => wordChars_ipv4⟩
  · exact ⟨(by rintro rfl; cases h6), wordChars_range 128 h6 fun _ => wordChars_ipv6⟩

/-- A value that a comparison accepts is one word, a wildcard being in ASCII. -/
theorem Comparison.wordChars {lhs op rhs : Token} {c : Cond} (h : Comparison t lhs op rhs c)
    (ha : lhs = "hostname".toList → ∀ c ∈ rhs, c.toNat < 128) : rhs ≠ [] ∧ ∀ c ∈ rhs, WordChar t c := by
  cases h with
  | protoEq h | protoNe h =>
    cases h <;> exact ⟨by decide, wordChars_keyword t (by decide)⟩
  | hostnameIs h | hostnameIsNot h => exact wordChars_wildcard h (ha rfl)
  | addressEq _ h | addressNe _ h => exact wordChars_ip h
  | addressIn _ h => exact wordChars_ipRange h
  | number _ _ h => exact ⟨(toIntOrNull_chars h).1, wordChars_number h⟩

/-- The field of a comparison is a word, and its operator a symbol or the word `in`. -/
theorem Comparison.fieldAndOperator {lhs op rhs : Token} {c : Cond} (h : Comparison t lhs op rhs c) :
    (lhs ≠ [] ∧ ∀ c ∈ lhs, WordChar t c) ∧ (op ∈ symbols ∨ op = "in".toList) := by
  have address : ∀ {field extract}, AddressField field extract → field ≠ [] ∧ ∀ c ∈ field, WordChar t c := fun hf => by
    cases hf <;> exact ⟨by decide, wordChars_keyword t (by decide)⟩
  cases h with
  | protoEq | protoNe | hostnameIs | hostnameIsNot =>
    exact ⟨⟨by decide, wordChars_keyword t (by decide)⟩, .inl (by decide)⟩
  | addressEq hf | addressNe hf => exact ⟨address hf, .inl (by decide)⟩
  | addressIn hf => exact ⟨address hf, .inr rfl⟩
  | number hf ho =>
    constructor
    · cases hf <;> exact ⟨by decide, wordChars_keyword t (by decide)⟩
    · cases ho <;> exact .inl (by decide)

end Chars

end SunProxy.Redirect
