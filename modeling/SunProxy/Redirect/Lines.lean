/-
Compiling one text after another: the lines of a text, `\n` and a second text are the lines of the
two, compiling takes them in order and stops at the first error, and a line's number matters only
for what it reports. So the first text's errors come first, the second's are moved down by the
lines before them, and of the rules the first that matches decides.
-/
import SunProxy.Redirect.ServerText
import SunProxy.Redirect.Compile

namespace SunProxy.Redirect

open SunProxy.Kotlin SunProxy.Result SunProxy.Seq SunProxy.Utils

/-! ## Lines -/

theorem lines_ne_nil (s : Str) : lines s ≠ [] := by
  induction s using lines.induct with
  | case1 => simp [lines]
  | case2 s ih => simp [lines]
  | case3 c s h hc ih =>
    rw [lines, if_pos hc]
    · simp
    · exact h
  | case4 c s h hc ih =>
    rw [lines, if_neg hc]
    · simpa [← List.length_eq_zero_iff] using ih
    · exact h

theorem getLast?_tail {α : Type} {x c : α} {s : List α} (h : (c :: s).getLast? ≠ some x) : s.getLast? ≠ some x := by
  cases s with
  | nil => simp
  | cons d s => rwa [List.getLast?_cons_cons] at h

/-- A `\n` after a text that does not end in `\r` ends the text's last line. -/
theorem lines_append {a : Str} (ha : a.getLast? ≠ some '\r') (b : Str) :
    lines (a ++ '\n' :: b) = lines a ++ lines b := by
  -- the added `\n` does not pair with a final `\r`, since there is none
  have unpaired : ∀ {c : Char} {s : Str}, (c :: s).getLast? ≠ some '\r' → (∀ r, c = '\r' → s = '\n' :: r → False) →
      ∀ r, c = '\r' → s ++ '\n' :: b = '\n' :: r → False := by
    rintro c s ha h r rfl hr
    cases s with
    | nil => exact ha rfl
    | cons d s => exact h s rfl (by rw [(List.cons.inj hr).1])
  induction a using lines.induct with
  | case1 =>
    show lines ('\n' :: b) = [] :: lines b
    simp [lines]
  | case2 s ih =>
    show lines ('\r' :: '\n' :: (s ++ '\n' :: b)) = _
    rw [lines, lines, ih (getLast?_tail (getLast?_tail ha))]
    rfl
  | case3 c s h hc ih =>
    rw [List.cons_append, lines, lines, if_pos hc, if_pos hc, ih (getLast?_tail ha)]
    · rfl
    · exact h
    · exact unpaired ha h
  | case4 c s h hc ih =>
    obtain ⟨l, ls, hl⟩ := List.exists_cons_of_ne_nil (lines_ne_nil s)
    rw [List.cons_append, lines, lines, if_neg hc, if_neg hc, ih (getLast?_tail ha), hl]
    · rfl
    · exact h
    · exact unpaired ha h

/-! ## A line with another number -/

section Renumber

variable {t : CharTables}

/-- The rule, `k` lines further down. -/
def Rule.moveDown (k : Nat) (rule : Rule) : Rule := { rule with lineNumber := rule.lineNumber + k }

/-- A condition is parsed alike on every line. -/
theorem parse_congr {n m : Nat} {ts : List Token} {e : Expression} (h : parse t n ts = .ok e) :
    parse t m ts = .ok e := by
  unfold parse at h ⊢
  split at h
  · rename_i h0
    rw [if_pos h0]
    exact h
  · rename_i h0
    rw [if_neg h0]
    obtain ⟨⟨e', rest⟩, ho, h⟩ := bind_eq_ok h
    rw [parseOr_iff.2 (parseOr_iff.1 ho)]
    exact h

theorem fromLine_moveDown {n : Nat} {line : Str} {rule : Rule} (k : Nat) (h : fromLine t n line = .ok rule) :
    fromLine t (n + k) line = .ok (rule.moveDown k) := by
  rw [fromLine_eq] at h ⊢
  obtain ⟨server, hs, h⟩ := bind_eq_ok h
  obtain ⟨condition, hc, h⟩ := bind_eq_ok h
  cases h
  obtain ⟨hi, htls⟩ := fromString_eq_ok hs
  have hs' : Server.fromString t (n + k) (serverText line) = .ok server := by
    rw [fromString_of_ipAndPort _ hi, ← htls]
  rw [hs']
  simp only [newRule, bind, Except.bind, parse_congr hc]
  rfl

/-- A syntax error on a line is one on the line with another number, which it reports. -/
theorem fromLine_error_moveDown {n : Nat} {line : Str} {e : SyntaxError} (k : Nat)
    (h : fromLine t n line = .error (.syntaxError e)) :
    e.lineNumber = n ∧ ∃ kind, fromLine t (n + k) line = .error (.syntaxError ⟨n + k, kind⟩) := by
  have hi : ¬ Unindexable (serverText line) := fun hu => by
    rw [fromLine_unindexable hu] at h
    cases h
  obtain ⟨kind, he⟩ := fromLine_syntaxOnly hi _ h
  cases he
  refine ⟨rfl, ?_⟩
  cases hk : fromLine t (n + k) line with
  | error x =>
    obtain ⟨kind, rfl⟩ := fromLine_syntaxOnly hi _ hk
    exact ⟨kind, rfl⟩
  | ok rule =>
    -- the line would be accepted with its first number too
    exfalso
    rw [fromLine_eq] at h hk
    obtain ⟨server, hs, hk⟩ := bind_eq_ok hk
    obtain ⟨condition, hc, -⟩ := bind_eq_ok hk
    obtain ⟨hi, htls⟩ := fromString_eq_ok hs
    rw [fromString_of_ipAndPort _ hi] at h
    simp only [newRule, bind, Except.bind, parse_congr hc] at h
    cases h

/-! ## The lines of a program -/

theorem fromLinesFrom_moveDown (k : Nat) {i : Nat} {ls : List Str} :
    (∀ rules, fromLinesFrom t i ls = .ok rules → fromLinesFrom t (i + k) ls = .ok (rules.map (Rule.moveDown k))) ∧
    ∀ e, fromLinesFrom t i ls = .error (.syntaxError e) →
      ∃ e', fromLinesFrom t (i + k) ls = .error (.syntaxError e') ∧ e'.lineNumber = e.lineNumber + k := by
  induction ls generalizing i with
  | nil => exact ⟨fun rules h => (by cases h; rfl), fun e h => (by cases h)⟩
  | cons line ls ih =>
    have ih := ih (i := i + 1)
    rw [Nat.add_right_comm] at ih
    simp only [fromLinesFrom]
    -- an empty line and a comment are skipped wherever they stand
    split
    · exact ih
    · split
      · exact ih
      · cases hl : fromLine t (i + 1) (codeOf line) with
        | error x =>
          refine ⟨fun rules h => (by cases h), fun e h => ?_⟩
          cases h
          obtain ⟨hn, kind, hk⟩ := fromLine_error_moveDown k hl
          rw [Nat.add_right_comm] at hk
          exact ⟨⟨i + k + 1, kind⟩, by rw [hk]; rfl, by rw [hn]; show i + k + 1 = i + 1 + k; omega⟩
        | ok rule =>
          have hk := fromLine_moveDown k hl
          rw [Nat.add_right_comm] at hk
          rw [hk]
          constructor
          · intro rules h
            obtain ⟨_, hrule, h⟩ := bind_eq_ok h
            obtain ⟨rest, hr, h⟩ := bind_eq_ok h
            cases hrule
            cases h
            simp only [bind, Except.bind, ih.1 rest hr]
            rfl
          · -- the line is accepted with both numbers, so the error is one of the lines after it
            intro e h
            cases hr : fromLinesFrom t (i + 1) ls with
            | ok rest => rw [hr] at h; cases h
            | error x =>
              rw [hr] at h
              cases h
              obtain ⟨e', he, hn⟩ := ih.2 e hr
              exact ⟨e', by rw [he]; rfl, hn⟩

/-- The lines of one text are compiled before those of the next. -/
theorem fromLinesFrom_append (i : Nat) (ls ms : List Str) :
    fromLinesFrom t i (ls ++ ms) = fromLinesFrom t i ls >>= fun rules =>
      fromLinesFrom t (i + ls.length) ms >>= fun rest => .ok (rules ++ rest) := by
  induction ls generalizing i with
  | nil =>
    simp only [List.nil_append, fromLinesFrom, List.length_nil, Nat.add_zero, bind, Except.bind]
    cases fromLinesFrom t i ms <;> rfl
  | cons line ls ih =>
    have ih := ih (i + 1)
    rw [Nat.add_assoc, Nat.add_comm 1] at ih
    simp only [List.cons_append, fromLinesFrom, List.length_cons]
    split
    · exact ih
    · split
      · exact ih
      · rw [ih]
        simp only [bind, Except.bind]
        cases fromLine t (i + 1) (codeOf line) with
        | error x => rfl
        | ok rule =>
          cases fromLinesFrom t (i + 1) ls with
          | error x => rfl
          | ok rules =>
            dsimp only
            cases fromLinesFrom t (i + (ls.length + 1)) ms <;> rfl

end Renumber

/-! ## The rule that decides -/

theorem findRule_append (xs ys : List Rule) (p : PacketInfo) :
    findRule (xs ++ ys) p = findRule xs p >>= fun o => match o with
      | some rule => .ok (some rule)
      | none => findRule ys p := by
  induction xs with
  | nil => rfl
  | cons rule xs ih =>
    simp only [List.cons_append, findRule, ih, bind, Except.bind]
    cases rule.condition.eval p with
    | error x => rfl
    | ok v => cases v <;> rfl

/-- Numbers do not matter for what is found. -/
theorem findRule_moveDown (k : Nat) (xs : List Rule) (p : PacketInfo) :
    findRule (xs.map (Rule.moveDown k)) p = (findRule xs p).map (Option.map (Rule.moveDown k)) := by
  induction xs with
  | nil => rfl
  | cons rule xs ih =>
    simp only [List.map_cons, findRule, ih, bind, Except.bind,
      show (rule.moveDown k).condition = rule.condition from rfl]
    cases rule.condition.eval p with
    | error x => rfl
    | ok v => cases v <;> rfl

theorem eval_append (xs ys : List Rule) (k : Nat) (proto hostname daddr : Str) (dport : Int) (saddr : Str) (sport : Int)
    (tls : Bool) (uid : Int) {oa ob : Option Server}
    (ha : (RedirectRule.mk xs).eval proto hostname daddr dport saddr sport tls uid = .ok oa)
    (hb : (RedirectRule.mk ys).eval proto hostname daddr dport saddr sport tls uid = .ok ob) :
    (RedirectRule.mk (xs ++ ys.map (Rule.moveDown k))).eval proto hostname daddr dport saddr sport tls uid =
      .ok (oa.or ob) := by
  obtain ⟨ra, hra, ha⟩ := bind_eq_ok ha
  obtain ⟨rb, hrb, hb⟩ := bind_eq_ok hb
  cases ha
  cases hb
  simp only [RedirectRule.eval, findRule_append, findRule_moveDown, bind, Except.bind, hra]
  cases ra with
  | some rule => rfl
  | none =>
    simp only [hrb, Except.map]
    cases rb <;> rfl

/-! ## Compiling a text after another -/

/-- Compiling the text `a`, `\n` and the text `b`, from compiling each: the first error of `a`, else
the first error of `b` moved down by the lines of `a`, else the rules of `a` before those of `b`. -/
structure Composes (t : CharTables) (a b : Str) : Prop where
  first : ∀ e, compile t a = .error (.syntaxError e) →
    ∃ e', compile t (a ++ '\n' :: b) = .error (.syntaxError e') ∧ e'.lineNumber = e.lineNumber
  second : ∀ ra e, compile t a = .ok ra → compile t b = .error (.syntaxError e) →
    ∃ e', compile t (a ++ '\n' :: b) = .error (.syntaxError e') ∧ e'.lineNumber = e.lineNumber + (lines a).length
  both : ∀ ra rb, compile t a = .ok ra → compile t b = .ok rb →
    ∃ r, compile t (a ++ '\n' :: b) = .ok r ∧ ∀ proto hostname daddr dport saddr sport tls uid, ∃ oa ob,
      ra.eval proto hostname daddr dport saddr sport tls uid = .ok oa ∧
      rb.eval proto hostname daddr dport saddr sport tls uid = .ok ob ∧
      r.eval proto hostname daddr dport saddr sport tls uid = .ok (oa.or ob)

theorem compile_eq_ok {t : CharTables} {codes : Str} {r : RedirectRule} (h : compile t codes = .ok r) :
    fromLinesFrom t 0 (lines codes) = .ok r.rules := by
  obtain ⟨rules, hr, h⟩ := bind_eq_ok h
  cases h
  exact hr

theorem compile_eq_error {t : CharTables} {codes : Str} {x : Thrown} :
    compile t codes = .error x ↔ fromLinesFrom t 0 (lines codes) = .error x := by
  show (fromLinesFrom t 0 (lines codes) >>= fun rules => Except.ok (RedirectRule.mk rules)) = _ ↔ _
  cases fromLinesFrom t 0 (lines codes) with
  | error y => exact ⟨fun h => (by cases h; rfl), fun h => (by cases h; rfl)⟩
  | ok rules => exact iff_of_false (fun h => by cases h) fun h => by cases h

/-- Compiling composes over lines. -/
theorem compile_append (t : CharTables) {a : Str} (ha : a.getLast? ≠ some '\r') (b : Str) : Composes t a b := by
  have hlines : fromLinesFrom t 0 (lines (a ++ '\n' :: b)) = fromLinesFrom t 0 (lines a) >>= fun rules =>
      fromLinesFrom t (0 + (lines a).length) (lines b) >>= fun rest => .ok (rules ++ rest) := by
    rw [lines_append ha, fromLinesFrom_append]
  constructor
  · intro e h
    refine ⟨e, ?_, rfl⟩
    rw [compile_eq_error] at h ⊢
    rw [hlines, h]
    rfl
  · intro ra e hra h
    rw [compile_eq_error] at h
    obtain ⟨e', he, hn⟩ := (fromLinesFrom_moveDown (lines a).length).2 e h
    refine ⟨e', ?_, hn⟩
    rw [compile_eq_error, hlines, compile_eq_ok hra]
    show (fromLinesFrom t (0 + (lines a).length) (lines b) >>= fun rest => .ok (ra.rules ++ rest)) = _
    rw [he]
    rfl
  · intro ra rb hra hrb
    have hb := (fromLinesFrom_moveDown (lines a).length).1 _ (compile_eq_ok hrb)
    refine ⟨⟨ra.rules ++ rb.rules.map (Rule.moveDown (lines a).length)⟩, ?_, ?_⟩
    · show (fromLinesFrom t 0 (lines (a ++ '\n' :: b)) >>= fun rules => Except.ok (RedirectRule.mk rules)) = _
      rw [hlines, compile_eq_ok hra]
      show ((fromLinesFrom t (0 + (lines a).length) (lines b) >>= fun rest => Except.ok (ra.rules ++ rest)) >>=
        fun rules => Except.ok (RedirectRule.mk rules)) = _
      rw [hb]
      rfl
    · intro proto hostname daddr dport saddr sport tls uid
      obtain ⟨oa, hoa⟩ := eval_total_of_compile hra proto hostname daddr dport saddr sport tls uid
      obtain ⟨ob, hob⟩ := eval_total_of_compile hrb proto hostname daddr dport saddr sport tls uid
      exact ⟨oa, ob, hoa, hob, eval_append _ _ _ _ _ _ _ _ _ _ _ hoa hob⟩

theorem compile_append_comment : Composes .ascii "# rules".toList "1.2.3.4:5 $ tls".toList :=
  compile_append .ascii (by decide) _

end SunProxy.Redirect
