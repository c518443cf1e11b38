/-
IPv4 texts in Kotlin and in C. `inet_pton` takes four decimal bytes between dots and nothing else;
`Utils.isValidIpv4` reads its parts with `toIntOrNull`, so it also takes a sign before one or two
digits and the decimal digits of any script. The texts with such a part are all that it accepts
and `inet_pton` refuses, and there are no texts the other way round.
-/
import SunProxy.Net.Pton

namespace SunProxy.Net

open SunProxy.Kotlin SunProxy.Seq SunProxy.Utils

/-- A decimal byte: one to three ASCII digits, no leading zero before others, at most 255. -/
structure DecimalByte (p : Str) : Prop where
  digits : ∀ c ∈ p, c ∈ "0123456789".toList
  length : 1 ≤ p.length ∧ p.length ≤ 3
  lead : p.head? = some '0' → p.length = 1
  value : digitsNat 10 p ≤ 255

/-- Four decimal bytes between dots. -/
def Ipv4Text (s : Str) : Prop :=
  ∃ ps : List Str, ps.length = 4 ∧ (∀ p ∈ ps, DecimalByte p) ∧ s = ['.'].intercalate ps

/-- A byte as Kotlin reads one: the digits may be of any script and may stand after a sign, where
a leading zero is no longer noticed. -/
inductive KotlinByte (t : CharTables) : Str → Prop
  | digits {p : Str} {n : Nat} (h : digitsValue t 10 p = some n) (hn : n ≤ 255) (h1 : 1 ≤ p.length)
      (h3 : p.length ≤ 3) (h0 : p.head? = some '0' → p.length = 1) : KotlinByte t p
  | plus {p : Str} {n : Nat} (h : digitsValue t 10 p = some n) (h1 : 1 ≤ p.length) (h2 : p.length ≤ 2) :
      KotlinByte t ('+' :: p)
  | minus {p : Str} (h : digitsValue t 10 p = some 0) (h1 : 1 ≤ p.length) (h2 : p.length ≤ 2) :
      KotlinByte t ('-' :: p)

/-- Four bytes as Kotlin reads them, with a sign or a digit of another script in one. -/
def SignedOrForeign (t : CharTables) (s : Str) : Prop :=
  ∃ ps : List Str, ps.length = 4 ∧ (∀ p ∈ ps, KotlinByte t p) ∧
    (∃ p ∈ ps, ∃ c ∈ p, c ∉ "0123456789".toList) ∧ s = ['.'].intercalate ps

/-! ## Numbers -/

theorem digitsValue_lt {t : CharTables} {radix : Nat} {s : Str} {n : Nat} (h : digitsValue t radix s = some n) :
    n < radix ^ s.length := by
  suffices ∀ (s : Str) (acc n : Nat),
      s.foldlM (fun acc c => (t.digitOf c radix).map (acc * radix + ·)) acc = some n →
        n < (acc + 1) * radix ^ s.length by
    have := this s 0 n h
    rwa [Nat.zero_add, Nat.one_mul] at this
  intro s
  induction s with
  | nil => rintro acc n ⟨rfl⟩; simp
  | cons c s ih =>
    intro acc n h
    rw [List.foldlM_cons] at h
    obtain ⟨v, hv, h⟩ := Option.bind_eq_some_iff.1 h
    obtain ⟨d, hd, rfl⟩ := Option.map_eq_some_iff.1 hv
    have hlt := t.digitOf_lt _ _ _ hd
    calc n < (acc * radix + d + 1) * radix ^ s.length := ih _ _ h
      _ ≤ ((acc + 1) * radix) * radix ^ s.length := Nat.mul_le_mul_right _ (by rw [Nat.succ_mul]; omega)
      _ = (acc + 1) * radix ^ (c :: s).length := by
          rw [List.length_cons, Nat.pow_succ, Nat.mul_assoc, Nat.mul_comm radix]

theorem isDecimal_iff (c : Char) : isDecimal c = true ↔ c ∈ "0123456789".toList := by
  constructor
  · intro h
    simp only [isDecimal, Bool.and_eq_true, decide_eq_true_eq] at h
    have : ∀ n, 48 ≤ n → n ≤ 57 → Char.ofNat n ∈ "0123456789".toList := by decide
    have := this c.toNat h.1 h.2
    rwa [Char.ofNat_toNat] at this
  · exact List.all_eq_true.1 (by decide) c

/-- ASCII digits are read as the number they write. -/
theorem digitsValue_decimal {t : CharTables} {p : Str} (h : ∀ c ∈ p, c ∈ "0123456789".toList) :
    digitsValue t 10 p = some (digitsNat 10 p) := by
  refine (foldlM_digits (fun c hc => ?_) 0).1
  have : "0123456789".toList.all fun c => asciiDigit c = some (c.toNat - 48) ∧ c.toNat - 48 < 10 ∧ c.toNat < 128 := by
    decide
  exact ⟨_, of_decide_eq_true (List.all_eq_true.1 this c (h c hc))⟩

/-- A number of at most three digits is in the range of `Int`. -/
theorem digitsValue_small {t : CharTables} {p : Str} {n : Nat} (h : digitsValue t 10 p = some n)
    (h3 : p.length ≤ 3) : n < 1000 :=
  (digitsValue_lt h).trans_le (Nat.pow_le_pow_right (by decide) h3)

theorem toIntOrNull_unsigned {t : CharTables} {p : Str} {n : Nat} (h : digitsValue t 10 p = some n)
    (h1 : 1 ≤ p.length) (h3 : p.length ≤ 3) : toIntOrNull t 10 p = some (n : Int) := by
  cases p with
  | nil => cases h1
  | cons c s =>
    have hn := digitsValue_small h h3
    have hc : ¬ c.toNat < '0'.toNat := by
      intro hlt
      have hd := digitsValue_digits h c (List.mem_cons_self ..)
      rw [t.digitOf_ascii c 10 (lt_trans hlt (by decide))] at hd
      obtain ⟨d, hd⟩ := Option.isSome_iff_exists.1 hd
      have := asciiDigit_range (Option.filter_eq_some_iff.1 hd).1
      exact absurd (show c.toNat < 48 from hlt) (by omega)
    rw [toIntOrNull, if_neg hc, h, Option.bind_some, if_pos (by omega)]

theorem toIntOrNull_signed {t : CharTables} {p : Str} {n : Nat} (h : digitsValue t 10 p = some n)
    (h1 : 1 ≤ p.length) (h3 : p.length ≤ 3) :
    toIntOrNull t 10 ('+' :: p) = some (n : Int) ∧ toIntOrNull t 10 ('-' :: p) = some (-(n : Int)) := by
  have hn := digitsValue_small h h3
  have hne : ¬ p.isEmpty = true := by
    rw [List.isEmpty_iff]
    rintro rfl
    cases h1
  constructor
  · rw [toIntOrNull, if_pos (by decide), if_neg hne, if_neg (by decide), if_pos rfl, h, Option.bind_some,
      if_pos (by omega)]
  · rw [toIntOrNull, if_pos (by decide), if_neg hne, if_pos rfl, h, Option.bind_some, if_pos (by omega)]

/-! ## The parts -/

/-- A number in the range of a byte is digits, or a sign and digits. -/
theorem kotlinByte_of_number {t : CharTables} {p : Str} {n : Int} (h : toIntOrNull t 10 p = some n) (h0 : 0 ≤ n)
    (h255 : n ≤ 255) (h3 : p.length ≤ 3) (hl : p.head? = some '0' → p.length = 1) : KotlinByte t p := by
  cases p with
  | nil => cases h
  | cons c s =>
    have hlen : (c :: s).length = s.length + 1 := rfl
    rw [toIntOrNull] at h
    by_cases hc : c.toNat < '0'.toNat
    · rw [if_pos hc] at h
      by_cases he : s.isEmpty = true
      · rw [if_pos he] at h; cases h
      have h1 : 1 ≤ s.length := List.length_pos_iff.2 (by simpa using he)
      rw [if_neg he] at h
      -- below the digits only the signs are taken, and behind a minus only zero
      by_cases hm : c = '-'
      · subst hm
        rw [if_pos rfl] at h
        obtain ⟨m, hm, h⟩ := Option.bind_eq_some_iff.1 h
        split_ifs at h
        obtain rfl : m = 0 := by have := Option.some.inj h; omega
        exact .minus hm h1 (by omega)
      · rw [if_neg hm] at h
        by_cases hp : c = '+'
        · subst hp
          rw [if_pos rfl] at h
          obtain ⟨m, hm, -⟩ := Option.bind_eq_some_iff.1 h
          exact .plus hm h1 (by omega)
        · rw [if_neg hp] at h; cases h
    · rw [if_neg hc] at h
      obtain ⟨m, hm, h⟩ := Option.bind_eq_some_iff.1 h
      split_ifs at h
      have := Option.some.inj h
      exact .digits hm (by omega) (by omega) h3 hl

theorem isValidIpv4Part_of_number {t : CharTables} {p : Str} {n : Nat} (h : toIntOrNull t 10 p = some (n : Int))
    (hn : n ≤ 255) (h1 : 1 ≤ p.length) (h3 : p.length ≤ 3) (h0 : p.head? = some '0' → p.length = 1) :
    isValidIpv4Part t p = true := by
  have hne : p.isEmpty = false := by
    cases p with
    | nil => cases h1
    | cons => rfl
  have hz : (p.head? == some '0' && decide (1 < p.length)) = false := by
    by_cases hc : p.head? = some '0'
    · simp [h0 hc]
    · simp [hc]
  rw [isValidIpv4Part, if_neg (by simp only [hne, hz]; simpa using h3), h]
  simpa using hn

theorem isValidIpv4Part_iff (t : CharTables) (p : Str) : isValidIpv4Part t p = true ↔ KotlinByte t p := by
  constructor
  · intro h
    unfold isValidIpv4Part at h
    split_ifs at h with hc
    split at h
    · cases h
    · rename_i n hn
      simp only [Bool.or_eq_true, Bool.and_eq_true, decide_eq_true_eq, beq_iff_eq, not_or, not_and,
        Bool.not_eq_true', Bool.or_eq_false_iff, decide_eq_false_iff_not] at h hc
      have h1 : 1 ≤ p.length := List.length_pos_iff.2 (by simpa using hc.1)
      exact kotlinByte_of_number hn (by omega) (by omega) (by omega) fun h0 => by have := hc.2.2 h0; omega
  · intro h
    cases h with
    | digits h hn h1 h3 h0 => exact isValidIpv4Part_of_number (toIntOrNull_unsigned h h1 h3) hn h1 h3 h0
    | @plus p n h h1 h2 =>
      have hn : n < 100 := (digitsValue_lt h).trans_le (Nat.pow_le_pow_right (by decide) h2)
      exact isValidIpv4Part_of_number (toIntOrNull_signed h h1 (by omega)).1 (by omega) (by simp)
        (by simp only [List.length_cons]; omega) (by simp)
    | minus h h1 h2 =>
      exact isValidIpv4Part_of_number (n := 0) (toIntOrNull_signed h h1 (by omega)).2 (by omega) (by simp)
        (by simp only [List.length_cons]; omega) (by simp)

/-- A decimal byte is a byte for Kotlin, and a byte for Kotlin is decimal when its characters are. -/
theorem decimalByte_iff (t : CharTables) (p : Str) :
    DecimalByte p ↔ KotlinByte t p ∧ ∀ c ∈ p, c ∈ "0123456789".toList := by
  constructor
  · intro h
    exact ⟨.digits (digitsValue_decimal h.digits) h.value h.length.1 h.length.2 h.lead, h.digits⟩
  · rintro ⟨h, hd⟩
    cases h with
    | digits h hn h1 h3 h0 =>
      rw [digitsValue_decimal hd] at h
      cases h
      exact ⟨hd, ⟨h1, h3⟩, h0, hn⟩
    | plus => exact absurd (hd '+' (List.mem_cons_self ..)) (by decide)
    | minus => exact absurd (hd '-' (List.mem_cons_self ..)) (by decide)

theorem ptonPart_isSome (p : Str) : (ptonPart p).isSome = true ↔ DecimalByte p := by
  unfold ptonPart
  split_ifs with h
  · simp only [Bool.and_eq_true, Bool.or_eq_true, decide_eq_true_eq, beq_iff_eq, bne_iff_ne, List.all_eq_true,
      isDecimal_iff] at h
    obtain ⟨⟨⟨hl, hd⟩, h0⟩, hv⟩ := h
    exact iff_of_true rfl ⟨hd, hl, fun hz => h0.resolve_right fun hne => hne hz, hv⟩
  · refine iff_of_false (by simp) fun hp => h ?_
    have h0 : p.length = 1 ∨ p.head? ≠ some '0' := or_iff_not_imp_right.2 fun hz => hp.lead (not_not.1 hz)
    simp only [Bool.and_eq_true, Bool.or_eq_true, decide_eq_true_eq, beq_iff_eq, bne_iff_ne, List.all_eq_true,
      isDecimal_iff]
    exact ⟨⟨⟨hp.length, hp.digits⟩, h0⟩, hp.value⟩

/-! ## The texts -/

theorem dot_notMem_kotlinByte {t : CharTables} {p : Str} (h : KotlinByte t p) : '.' ∉ p := by
  have hd : t.digitOf '.' 10 = none := by rw [t.digitOf_ascii _ _ (by decide)]; decide
  have hn : ∀ {p n}, digitsValue t 10 p = some n → '.' ∉ p := fun h hm => by
    have := digitsValue_digits h _ hm
    rw [hd] at this
    cases this
  cases h with
  | digits h => exact hn h
  | plus h => simpa using hn h
  | minus h => simpa using hn h

theorem split_dots {t : CharTables} {ps : List Str} (h4 : ps.length = 4) (h : ∀ p ∈ ps, KotlinByte t p) :
    split '.' (['.'].intercalate ps) = ps :=
  List.splitOn_intercalate '.' (fun p hp => dot_notMem_kotlinByte (h p hp)) (by rintro rfl; cases h4)

/-- The validator accepts four bytes as Kotlin reads them. -/
theorem isValidIpv4_iff (t : CharTables) (s : Str) :
    isValidIpv4 t s = true ↔
      ∃ ps : List Str, ps.length = 4 ∧ (∀ p ∈ ps, KotlinByte t p) ∧ s = ['.'].intercalate ps := by
  constructor
  · intro h
    unfold isValidIpv4 at h
    split_ifs at h with h0
    dsimp only at h
    split_ifs at h with h4
    simp only [List.all_eq_true, isValidIpv4Part_iff] at h
    exact ⟨split '.' s, not_not.1 h4, h, (List.intercalate_splitOn '.').symm⟩
  · rintro ⟨ps, h4, h, rfl⟩
    have hs := split_dots h4 h
    have hne : ¬ (['.'].intercalate ps).isEmpty = true := by
      intro he
      rw [List.isEmpty_iff.1 he] at hs
      rw [← hs] at h4
      cases h4
    rw [isValidIpv4, if_neg hne]
    simp only [hs, h4]
    simpa [isValidIpv4Part_iff] using h

theorem inetPton4_isSome (s : Str) : (inetPton4 s).isSome = true ↔ Ipv4Text s := by
  constructor
  · intro h
    unfold inetPton4 at h
    split at h
    · rename_i a b c d hs
      obtain ⟨v, h⟩ := Option.isSome_iff_exists.1 h
      simp only [bind, Option.bind_eq_some_iff, pure] at h
      obtain ⟨x, hx, y, hy, z, hz, w, hw, -⟩ := h
      refine ⟨[a, b, c, d], rfl, ?_, by rw [← hs]; exact (List.intercalate_splitOn '.').symm⟩
      simp only [List.mem_cons, List.not_mem_nil, or_false, forall_eq_or_imp, forall_eq, ← ptonPart_isSome, hx, hy, hz,
        hw, Option.isSome_some, and_self]
    · cases h
  · rintro ⟨ps, h4, h, rfl⟩
    have hs := split_dots (t := .ascii) h4 fun p hp => ((decimalByte_iff .ascii p).1 (h p hp)).1
    obtain ⟨a, b, c, d, rfl⟩ := List.length_eq_four.1 h4
    simp only [List.mem_cons, List.not_mem_nil, or_false, forall_eq_or_imp, forall_eq, ← ptonPart_isSome,
      Option.isSome_iff_exists] at h
    obtain ⟨⟨x, hx⟩, ⟨y, hy⟩, ⟨z, hz⟩, w, hw⟩ := h
    simp only [inetPton4, hs, hx, hy, hz, hw, bind, Option.bind_some, pure, Option.isSome_some]

theorem isValidIpv4_of_text (t : CharTables) {s : Str} (h : Ipv4Text s) : isValidIpv4 t s = true := by
  obtain ⟨ps, h4, hp, rfl⟩ := h
  exact (isValidIpv4_iff t _).2 ⟨ps, h4, fun p hm => ((decimalByte_iff t p).1 (hp p hm)).1, rfl⟩

/-- What the validator accepts is dotted decimal, or has a part that is not. -/
theorem text_or_signedOrForeign {t : CharTables} {s : Str} (h : isValidIpv4 t s = true) :
    Ipv4Text s ∨ SignedOrForeign t s := by
  obtain ⟨ps, h4, hp, rfl⟩ := (isValidIpv4_iff t s).1 h
  by_cases hd : ∀ p ∈ ps, ∀ c ∈ p, c ∈ "0123456789".toList
  · exact .inl ⟨ps, h4, fun p hm => (decimalByte_iff t p).2 ⟨hp p hm, hd p hm⟩, rfl⟩
  · push Not at hd
    exact .inr ⟨ps, h4, hp, hd, rfl⟩

theorem SignedOrForeign.valid {t : CharTables} {s : Str} (h : SignedOrForeign t s) : isValidIpv4 t s = true := by
  obtain ⟨ps, h4, hp, -, rfl⟩ := h
  exact (isValidIpv4_iff t _).2 ⟨ps, h4, hp, rfl⟩

theorem SignedOrForeign.not_text {t : CharTables} {s : Str} (h : SignedOrForeign t s) : ¬Ipv4Text s := by
  rintro ⟨qs, hq4, hq, he⟩
  obtain ⟨ps, h4, hp, ⟨p, hm, c, hc, hd⟩, rfl⟩ := h
  have hk : ∀ q ∈ qs, KotlinByte t q := fun q hm => ((decimalByte_iff t q).1 (hq q hm)).1
  obtain rfl : ps = qs := by
    have := congrArg (split '.') he
    rwa [split_dots h4 hp, split_dots hq4 hk] at this
  exact hd ((hq p hm).digits c hc)

/-- `inet_pton` takes the dotted decimal texts, and the validator accepts exactly these unless a
part has a sign or a digit of another script. -/
theorem isValidIpv4_iff_text (t : CharTables) (s : Str) :
    ((inetPton4 s).isSome = true ↔ Ipv4Text s) ∧
      ((isValidIpv4 t s = true ↔ Ipv4Text s) ↔ ¬ SignedOrForeign t s) := by
  refine ⟨inetPton4_isSome s, ?_⟩
  constructor
  · intro h hs
    exact hs.not_text (h.1 hs.valid)
  · intro hs
    exact ⟨fun h => (text_or_signedOrForeign h).resolve_right hs, isValidIpv4_of_text t⟩

/-- `+1.2.3.4` is accepted and `inet_pton` refuses it. -/
theorem not_isValidIpv4_sign :
    isValidIpv4 .ascii "+1.2.3.4".toList = true ∧ (inetPton4 "+1.2.3.4".toList).isSome = false := by
  decide +kernel

end SunProxy.Net
