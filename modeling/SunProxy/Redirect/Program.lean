/-
Whole programs: rules between comments and empty lines. Compiling the text of a program gives one rule for each of its
rules, under the number of its line, and together they send every packet where the first rule sends it whose
expression is true of it.
-/
import SunProxy.Redirect.Lines
import SunProxy.Redirect.Print

namespace SunProxy.Redirect

open SunProxy.Kotlin SunProxy.Result SunProxy.Seq SunProxy.Utils

variable {t : CharTables}

/-! ## Programs and their text -/

/-- A server that a rule can name. -/
structure Target (t : CharTables) where
  address : Str
  port : Int
  valid : isValidIp t address = true
  one_le : 1 ≤ port
  le : port ≤ 65535

def Target.server (target : Target t) : Server := ⟨target.address, target.port, false⟩

/-- What may follow a `#` on its line. -/
structure Comment where
  text : Str
  noBreak : ∀ c ∈ text, c ≠ '\n' ∧ c ≠ '\r'

inductive Entry (t : CharTables)
  | rule (target : Target t) (condition : BoolExp t)
  | commented (target : Target t) (condition : BoolExp t) (remark : Comment)
  | comment (remark : Comment)
  | empty

namespace Entry

def ruleText (target : Target t) (condition : BoolExp t) : Str :=
  target.server.toString ++ (" $ ".toList ++ condition.text)

def text : Entry t → Str
  | .rule target condition => ruleText target condition
  | .commented target condition remark => ruleText target condition ++ ' ' :: '#' :: remark.text
  | .comment remark => '#' :: remark.text
  | .empty => []

/-- Where an entry sends a packet. -/
def choice : Entry t → PacketInfo → Option Server
  | .rule target condition, p | .commented target condition _, p =>
    if condition.holds p then some target.server else none
  | .comment _, _ | .empty, _ => none

def isRule : Entry t → Bool
  | .rule .. | .commented .. => true
  | .comment _ | .empty => false

end Entry

/-- The text of a program, with a line for each entry. -/
def programText : List (Entry t) → Str
  | [] => []
  | entry :: program => entry.text ++ '\n' :: programText program

example : programText [.comment ⟨" web".toList, by simp⟩, .empty,
    .rule (⟨"1.2.3.4".toList, 80, by decide +kernel, by decide, by decide⟩ : Target .ascii) (.not .tls)] =
    "# web\n\n1.2.3.4:80 $ ! tls\n".toList := by decide +kernel

/-- The numbers of the lines that are rules, the first line having the number `i`. -/
def ruleLines (program : List (Entry t)) (i : Nat) : List Nat :=
  (program.zipIdx i).filterMap fun e => if e.1.isRule then some e.2 else none

/-! ## One entry -/

theorem ruleText_chars (target : Target t) (condition : BoolExp t) :
    ∀ c ∈ Entry.ruleText target condition, c = ' ' ∨ c = '$' ∨ LineChar c := by
  have hserver := ipAndPort_toString target.valid target.one_le target.le
  obtain ⟨x, hx, -⟩ := condition.derives .or
  obtain ⟨-, htext, -⟩ := spaced_chars (List.length_pos_iff.1 hx.length_pos) (condition.printedTokens .or)
  have hdollar : ∀ c ∈ " $ ".toList, c = ' ' ∨ c = '$' := by simp
  intro c hc
  rcases List.mem_append.1 hc with hc | hc
  · exact .inr (.inr ((wordChars_server hserver).2 c hc).2)
  · rcases List.mem_append.1 hc with hc | hc
    · exact (hdollar c hc).imp_right .inl
    · exact (htext c hc).imp_right .inr

theorem noBreak_of_chars {s : Str} (h : ∀ c ∈ s, c = ' ' ∨ c = '$' ∨ LineChar c) : ∀ c ∈ s, c ≠ '\n' ∧ c ≠ '\r' := by
  intro c hc
  rcases h c hc with rfl | rfl | hline
  · decide
  · decide
  · exact ⟨by rintro rfl; exact absurd hline (by decide), by rintro rfl; exact absurd hline (by decide)⟩

/-- An entry is on one line. -/
theorem Entry.noBreak (entry : Entry t) : ∀ c ∈ entry.text, c ≠ '\n' ∧ c ≠ '\r' := by
  have hremark : ∀ (remark : Comment), ∀ c ∈ '#' :: remark.text, c ≠ '\n' ∧ c ≠ '\r' := by
    intro remark c hc
    rcases List.mem_cons.1 hc with rfl | hc
    · decide
    · exact remark.noBreak c hc
  cases entry with
  | rule target condition => exact noBreak_of_chars (ruleText_chars target condition)
  | commented target condition remark =>
    intro c hc
    rcases List.mem_append.1 hc with hc | hc
    · exact noBreak_of_chars (ruleText_chars target condition) c hc
    · rcases List.mem_cons.1 hc with rfl | hc
      · decide
      · exact hremark remark c hc
  | comment remark => exact hremark remark
  | empty => exact fun c hc => absurd hc List.not_mem_nil

theorem trim_append_space (s : Str) : trim (s ++ [' ']) = trim s := by
  unfold trim
  rw [List.dropWhile_append]
  split
  · rename_i hempty
    rw [List.isEmpty_iff.1 hempty]
    rfl
  · rw [List.rdropWhile_concat_pos _ _ _ rfl]

/-- A comment behind a rule is no part of its code. -/
theorem codeOf_commented (target : Target t) (condition : BoolExp t) (remark : Comment) :
    codeOf (Entry.commented target condition remark).text = codeOf (Entry.ruleText target condition) := by
  have hnone : '#' ∉ Entry.ruleText target condition := by
    intro hmem
    rcases ruleText_chars target condition '#' hmem with h | h | h
    · exact absurd h (by decide)
    · exact absurd h (by decide)
    · exact h.2.1 rfl
  have hspace : '#' ∉ Entry.ruleText target condition ++ [' '] := by
    rw [List.mem_append, not_or]
    exact ⟨hnone, by decide⟩
  have hcut := cut_append hspace remark.text
  rw [List.append_assoc] at hcut
  rw [codeOf_eq, codeOf_eq, Entry.text, cut_of_notMem hnone]
  show trim (cut '#' (Entry.ruleText target condition ++ ([' '] ++ '#' :: remark.text))).1 = _
  rw [hcut, trim_append_space]

theorem exists_fromLine_ruleText (target : Target t) (condition : BoolExp t) : ∃ x : Expression,
    codeOf (Entry.ruleText target condition) ≠ [] ∧
    fromLine t 1 (codeOf (Entry.ruleText target condition)) = .ok ⟨1, target.server, condition.text, x⟩ ∧
    ∀ p, x.eval p = .ok (condition.holds p) := by
  have hserver := ipAndPort_toString target.valid target.one_le target.le
  obtain ⟨x, hx, hv⟩ := condition.derives .or
  have hcompile : fromLinesFrom t 0 (lines (Entry.ruleText target condition)) =
    .ok [⟨1, target.server, condition.text, x⟩] :=
    compile_eq_ok (compile_line hserver (condition.printedTokens .or) hx)
  rw [lines_of_noBreak (noBreak_of_chars (ruleText_chars target condition)), fromLinesFrom] at hcompile
  split at hcompile
  · cases hcompile
  · split at hcompile
    · cases hcompile
    · rename_i hcode
      obtain ⟨rule, hrule, hcompile⟩ := bind_eq_ok hcompile
      cases hcompile
      exact ⟨x, fun h => hcode (List.isEmpty_iff.2 h), hrule, hv⟩

/-- The rules of a line that has the code of a rule. -/
theorem fromLinesFrom_rule {line : Str} {target : Target t} {condition : BoolExp t}
    (hcode : codeOf line = codeOf (Entry.ruleText target condition)) (i : Nat) : ∃ x : Expression,
    fromLinesFrom t i [line] = .ok [⟨i + 1, target.server, condition.text, x⟩] ∧ ∀ p,
    x.eval p = .ok (condition.holds p) := by
  obtain ⟨x, hne, hrule, hv⟩ := exists_fromLine_ruleText target condition
  have hmoved := fromLine_moveDown i hrule
  have hline : line ≠ [] := by
    rintro rfl
    exact hne hcode.symm
  refine ⟨x, ?_, hv⟩
  rw [fromLinesFrom, if_neg (fun h => hline (List.isEmpty_iff.1 h)), hcode,
    if_neg (fun h => hne (List.isEmpty_iff.1 h)),
    Nat.add_comm, hmoved]
  rfl

/-- The rules of an entry find what it chooses. -/
theorem fromLinesFrom_entry (entry : Entry t) (i : Nat) : ∃ rules, fromLinesFrom t i [entry.text] = .ok rules ∧
    rules.map (·.lineNumber) = (if entry.isRule then [i + 1] else []) ∧
    ∀ p, (findRule rules p).map (Option.map (·.server)) = .ok (entry.choice p) := by
  have hfind : ∀ (target : Target t) (condition : BoolExp t) {x : Expression},
    (∀ p, x.eval p = .ok (condition.holds p)) → ∀ p,
      (findRule [⟨i + 1, target.server, condition.text, x⟩] p).map (Option.map (·.server)) =
        .ok (if condition.holds p then some target.server else none) := by
    intro target condition x hv p
    simp only [findRule, hv p, bind, Except.bind]
    cases condition.holds p <;> rfl
  cases entry with
  | rule target condition =>
    obtain ⟨x, hrules, hv⟩ := fromLinesFrom_rule (rfl : codeOf (Entry.ruleText target condition) = _) i
    exact ⟨_, hrules, rfl, hfind target condition hv⟩
  | commented target condition remark =>
    obtain ⟨x, hrules, hv⟩ := fromLinesFrom_rule (codeOf_commented target condition remark) i
    exact ⟨_, hrules, rfl, hfind target condition hv⟩
  | comment remark => exact ⟨[], rfl, rfl, fun p => rfl⟩
  | empty => exact ⟨[], rfl, rfl, fun p => rfl⟩

/-! ## Programs -/

theorem fromLinesFrom_programText (program : List (Entry t)) (i : Nat) : ∃ rules,
    fromLinesFrom t i (lines (programText program)) = .ok rules ∧ rules.map (·.lineNumber) = ruleLines program (i + 1) ∧
    ∀ p, (findRule rules p).map (Option.map (·.server)) = .ok (program.findSome? (·.choice p)) := by
  induction program generalizing i with
  | nil => exact ⟨[], rfl, rfl, fun p => rfl⟩
  | cons entry program ih =>
    obtain ⟨xs, hxs, hnumbers, hchoice⟩ := fromLinesFrom_entry entry i
    obtain ⟨ys, hys, hnumbers', hchoice'⟩ := ih (i + 1)
    have hlast : entry.text.getLast? ≠ some '\r' := fun h => (entry.noBreak _ (List.mem_of_getLast? h)).2 rfl
    refine ⟨xs ++ ys, ?_, ?_, fun p => ?_⟩
    · rw [programText, lines_append hlast, lines_of_noBreak entry.noBreak, fromLinesFrom_append, hxs]
      show (fromLinesFrom t (i + 1) (lines (programText program)) >>= fun rest => .ok (xs ++ rest)) = _
      rw [hys]
      rfl
    · rw [List.map_append, hnumbers, hnumbers']
      unfold ruleLines
      rw [List.zipIdx_cons, List.filterMap_cons]
      cases entry.isRule <;> rfl
    · obtain ⟨x, hx, hxserver⟩ := map_eq_ok (hchoice p)
      obtain ⟨y, hy, hyserver⟩ := map_eq_ok (hchoice' p)
      rw [findRule_append, hx, List.findSome?_cons, ← hxserver, ← hyserver]
      cases x with
      | none =>
        show (findRule ys p).map (Option.map (·.server)) = _
        rw [hy]
        rfl
      | some rule => rfl

/-- Compiling the text of a program gives its rules, each with the number of its line, and they send every packet
where the first rule does whose expression is true of it. -/
theorem eval_compile_programText (program : List (Entry t)) : ∃ r, compile t (programText program) = .ok r ∧
    r.rules.map (·.lineNumber) = ruleLines program 1 ∧ ∀ p : PacketInfo,
      r.eval p.proto p.hostname p.daddr p.dport p.saddr p.sport p.tls p.uid = .ok (program.findSome? (·.choice p)) := by
  obtain ⟨rules, hrules, hnumbers, hchoice⟩ := fromLinesFrom_programText program 0
  refine ⟨⟨rules⟩, ?_, hnumbers, fun p => ?_⟩
  · unfold compile fromLines
    rw [hrules]
    rfl
  · obtain ⟨rule, hfind, hserver⟩ := map_eq_ok (hchoice p)
    simp only [RedirectRule.eval, hfind, bind, Except.bind, pure, Except.pure, hserver]

end SunProxy.Redirect
