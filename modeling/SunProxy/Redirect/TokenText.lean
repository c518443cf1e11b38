/-
What the tokenizer leaves out of a condition: the blanks, which no alternative of its regular
expression matches, and with them each `&` and each `|` that is not one of a pair, although the
language has no such operator. The rest of the text is in the tokens, in order.
-/
import SunProxy.Redirect.Compile

namespace SunProxy.Redirect

open SunProxy.Kotlin SunProxy.Seq

/-- A text in which `&` and `|` stand in pairs: every run of either has an even length. -/
inductive Paired : Str → Prop
  | nil : Paired []
  | ampersands {s : Str} (h : Paired s) : Paired ('&' :: '&' :: s)
  | bars {s : Str} (h : Paired s) : Paired ('|' :: '|' :: s)
  | other {c : Char} {s : Str} (ha : c ≠ '&') (hb : c ≠ '|') (h : Paired s) : Paired (c :: s)

/-! ## Pairs -/

theorem paired_other_iff {c : Char} {s : Str} (ha : c ≠ '&') (hb : c ≠ '|') : Paired (c :: s) ↔ Paired s := by
  constructor
  · intro h
    cases h with
    | ampersands => exact absurd rfl ha
    | bars => exact absurd rfl hb
    | other _ _ h => exact h
  · exact .other ha hb

theorem paired_double_iff {c : Char} {s : Str} (hc : c = '&' ∨ c = '|') : Paired (c :: c :: s) ↔ Paired s := by
  constructor
  · intro h
    cases h with
    | ampersands h => exact h
    | bars h => exact h
    | other ha hb => exact (hc.elim ha hb).elim
  · rcases hc with rfl | rfl
    · exact .ampersands
    · exact .bars

theorem not_paired_single {c : Char} {s : Str} (hc : c = '&' ∨ c = '|') (hs : s.head? ≠ some c) : ¬ Paired
    (c :: s) := by
  intro h
  cases h with
  | ampersands => exact hs rfl
  | bars => exact hs rfl
  | other ha hb => exact hc.elim ha hb

theorem paired_append_iff {w : Str} (h : ∀ c ∈ w, c ≠ '&' ∧ c ≠ '|') (s : Str) : Paired (w ++ s) ↔ Paired s := by
  induction w with
  | nil => exact Iff.rfl
  | cons c w ih =>
    have hc := h c (List.mem_cons_self ..)
    rw [List.cons_append, paired_other_iff hc.1 hc.2, ih fun c hc => h c (List.mem_cons_of_mem _ hc)]

/-! ## One step of the scan -/

theorem isSpace_special (t : CharTables) {c : Char} (h : isSpecial c = true) : t.isSpace c = false := by
  simp only [isSpecial, List.mem_cons, List.not_mem_nil, or_false, decide_eq_true_eq] at h
  rcases h with rfl | rfl | rfl | rfl | rfl | rfl | rfl | rfl <;> exact t.isSpace_graphic _ (by decide) (by decide)

/-- What is at the front of a text: a token, a blank, or an `&` or `|` alone. -/
inductive Front (t : CharTables) : Str → Prop
  | token {w r : Str} (hw : w ≠ []) (hl : tokenLength t (w ++ r) = w.length) (hs : ∀ c ∈ w, t.isSpace c = false)
      (hp : Paired (w ++ r) ↔ Paired r) : Front t (w ++ r)
  | blank {c : Char} {s : Str} (h0 : tokenLength t (c :: s) = 0) (hs : t.isSpace c = true) : Front t (c :: s)
  | single {c : Char} {s : Str} (h0 : tokenLength t (c :: s) = 0) (hs : t.isSpace c = false)
      (hp : ¬ Paired (c :: s)) : Front t (c :: s)

/-- A text that starts with a character without a meaning of its own. -/
theorem front_of_notSpecial (t : CharTables) {c : Char} (h : isSpecial c = false) (s : Str) : Front t (c :: s) := by
  have hl := tokenLength_of_notSpecial (t := t) (s := s) h
  by_cases hs : t.isSpace c = true
  · exact .blank (by rw [hl, List.takeWhile_cons_of_neg (by simp [isTokenChar, hs])]; rfl) hs
  · have hc : isTokenChar t c = true := by simp [isTokenChar, hs, h]
    have hmem : ∀ d ∈ (c :: s).takeWhile (isTokenChar t), t.isSpace d = false ∧ isSpecial d = false := fun d hd => by
      simpa [isTokenChar] using List.mem_takeWhile_imp hd
    have hsplit := List.takeWhile_append_dropWhile (p := isTokenChar t) (l := c :: s)
    rw [← hsplit]
    refine .token (by simp [hc]) (by rw [hsplit, hl]) (fun d hd => (hmem d hd).1) (paired_append_iff (fun d hd => ?_) _)
    have := (hmem d hd).2
    constructor <;> rintro rfl <;> exact absurd this (by decide)

/-- A token of two characters. -/
theorem front_two {t : CharTables} {c d : Char} {r : Str} (hc : isSpecial c = true) (hd : d = '~' ∨ isSpecial d = true)
    (hl : tokenLength t (c :: d :: r) = 2)
    (hp : (c = d ∧ (c = '&' ∨ c = '|')) ∨ ((c ≠ '&' ∧ c ≠ '|') ∧ d ≠ '&' ∧ d ≠ '|')) : Front t (c :: d :: r) := by
  have hsd : t.isSpace d = false := by
    rcases hd with rfl | hd
    · exact t.isSpace_graphic _ (by decide) (by decide)
    · exact isSpace_special t hd
  refine .token (w := [c, d]) (by simp) hl (by simp [isSpace_special t hc, hsd]) ?_
  rcases hp with ⟨rfl, hc⟩ | ⟨h1, h2⟩
  · exact paired_double_iff hc
  · exact paired_append_iff (by simp [h1, h2]) r

/-- A token of one character. -/
theorem front_one {t : CharTables} {c : Char} {s : Str} (hc : isSpecial c = true) (hl : tokenLength t (c :: s) = 1)
    (hp : c ≠ '&' ∧ c ≠ '|') : Front t (c :: s) :=
  .token (w := [c]) (by simp) hl (by simp [isSpace_special t hc]) (paired_append_iff (by simp [hp]) s)

theorem front (t : CharTables) (c : Char) (s : Str) : Front t (c :: s) := by
  cases hc : isSpecial c with
  | false => exact front_of_notSpecial t hc s
  | true =>
    have two : ∀ {d r}, s = d :: r → tokenLength t (c :: s) = 2 → (d = '~' ∨ isSpecial d = true) →
        ((c = d ∧ (c = '&' ∨ c = '|')) ∨ ((c ≠ '&' ∧ c ≠ '|') ∧ d ≠ '&' ∧ d ≠ '|')) → Front t (c :: s) := by
      rintro d r rfl hl hd hp
      exact front_two hc hd hl hp
    generalize hn : tokenLength t (c :: s) = n at two
    have hn' := hn
    unfold tokenLength at hn'
    split at hn'
    case h_9 c' s' h1 h2 h3 h4 h5 h6 hbar hamp heq =>
      cases heq
      by_cases hm : c ∈ ['(', ')', '!', '<', '>', '=']
      · rw [if_pos hm] at hn'
        refine front_one hc (hn.trans hn'.symm) ?_
        constructor <;> rintro rfl <;> exact absurd hm (by decide)
      · -- what is left is an `&` or `|`, and the alternatives for the pairs came before
        have hp : c = '&' ∨ c = '|' := by
          simp only [isSpecial, List.mem_cons, List.not_mem_nil, or_false, decide_eq_true_eq] at hc hm
          tauto
        rw [if_neg hm, List.takeWhile_cons_of_neg (by simp [isTokenChar, hc])] at hn'
        refine .single (hn.trans hn'.symm) (isSpace_special t hc) (not_paired_single hp fun hs => ?_)
        obtain ⟨r, rfl⟩ := List.head?_eq_some_iff.1 hs
        rcases hp with rfl | rfl
        · exact hamp r rfl rfl
        · exact hbar r rfl rfl
    case h_10 heq => cases heq
    all_goals
      rename_i heq
      cases heq
      exact two rfl hn'.symm (by decide) (by decide)

/-! ## The whole scan -/

/-- What holds of a text when it holds of all that follows its front holds of every text. -/
theorem scan_induction (t : CharTables) {P : Str → Prop} (nil : P [])
    (step : ∀ s, Front t s → (∀ r : Str, r.length < s.length → P r) → P s) (s : Str) : P s := by
  induction hn : s.length using Nat.strong_induction_on generalizing s with
  | _ n ih =>
    subst hn
    cases s with
    | nil => exact nil
    | cons c s => exact step _ (front t c s) fun r hr => ih r.length hr r rfl

/-- The tokens are what is left of the text, with blanks and more left out. -/
theorem tokens_sublist (t : CharTables) (s : Str) :
    (tokenize t s).flatten.Sublist (s.filter fun c => !t.isSpace c) := by
  induction s using scan_induction t with
  | nil => exact List.Sublist.slnil
  | step s hf ih =>
    cases hf with
    | @token w r hw hl hsp =>
      have hlen := List.length_pos_iff.2 hw
      rw [tokenize, findAll_match hw r hl, List.flatten_cons, List.filter_append,
        List.filter_eq_self.2 fun c hc => by simp [hsp c hc]]
      exact (ih r (by simp; omega)).append_left w
    | @blank c s h0 hb =>
      rw [tokenize, findAll_skip h0, List.filter_cons_of_neg (by simp [hb])]
      exact ih s (by simp)
    | @single c s h0 hb =>
      rw [tokenize, findAll_skip h0, List.filter_cons_of_pos (by simp [hb])]
      exact (ih s (by simp)).cons c

/-- No character but the blanks is dropped if and only if `&` and `|` stand in pairs. -/
theorem tokens_flatten_iff (t : CharTables) (s : Str) :
    (tokenize t s).flatten = s.filter (fun c => !t.isSpace c) ↔ Paired s := by
  induction s using scan_induction t with
  | nil => exact iff_of_true rfl .nil
  | step s hf ih =>
    cases hf with
    | @token w r hw hl hsp hp =>
      have hlen := List.length_pos_iff.2 hw
      rw [tokenize, findAll_match hw r hl, List.flatten_cons, List.filter_append,
        List.filter_eq_self.2 fun c hc => by simp [hsp c hc], List.append_cancel_left_eq, hp]
      exact ih r (by simp; omega)
    | @blank c s h0 hb =>
      have hp : Paired (c :: s) ↔ Paired s := by
        refine paired_other_iff ?_ ?_ <;> rintro rfl <;> rw [isSpace_special t (by decide)] at hb <;> cases hb
      rw [tokenize, findAll_skip h0, List.filter_cons_of_neg (by simp [hb]), hp]
      exact ih s (by simp)
    | @single c s h0 hb hp =>
      -- the tokens are too few: they come from the rest of the text
      have hle := (tokens_sublist t s).length_le
      refine iff_of_false (fun he => ?_) hp
      rw [tokenize, findAll_skip h0, List.filter_cons_of_pos (by simp [hb])] at he
      have := congrArg List.length he
      rw [List.length_cons] at this
      exact absurd hle (by rw [tokenize]; omega)

/-- `tls & dport == 443` is accepted, with the `&` dropped and all after it unread. -/
theorem not_tokens_flatten_ampersand :
    (∃ r, compile .ascii "1.2.3.4:5 $ tls & dport == 443".toList = .ok r ∧
      r.rules.map (·.conditionString) = ["tls & dport == 443".toList]) ∧
    (tokenize .ascii "tls & dport == 443".toList).flatten ≠
      "tls & dport == 443".toList.filter (fun c => !CharTables.ascii.isSpace c) := by
  refine ⟨?_, by decide +kernel⟩
  have hc : (compile .ascii "1.2.3.4:5 $ tls & dport == 443".toList).toOption.map
      (fun r => r.rules.map (·.conditionString)) = some ["tls & dport == 443".toList] := by decide +kernel
  cases h : compile .ascii "1.2.3.4:5 $ tls & dport == 443".toList with
  | error e => rw [h] at hc; cases hc
  | ok r => rw [h] at hc; exact ⟨r, rfl, Option.some.inj hc⟩

end SunProxy.Redirect
