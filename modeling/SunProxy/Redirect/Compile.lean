/-
`RedirectRule.compile` and `eval`: the lines of a program, each a server with a condition. Compiling
stops at the first line that is refused, and reports it, except where the server's text makes the
address parser index past its end. The rules of a compiled program can be asked about every packet, and
their servers can be redirected to.
-/
import SunProxy.Redirect.Grammar
import SunProxy.Redirect.Tokenizer

namespace SunProxy.Redirect

open SunProxy.Kotlin SunProxy.Result SunProxy.Seq SunProxy.Utils

structure Rule where
  lineNumber : Nat
  server : Server
  conditionString : Str
  condition : Expression

/-- A compiled program. -/
structure RedirectRule where
  rules : List Rule

section Compile

variable (t : CharTables)

/-- `Rule(lineNumber, server, conditionString)` -/
def newRule (lineNumber : Nat) (server : Server) (conditionString : Str) : Except Thrown Rule := do
  let condition ← parse t lineNumber (tokenize t conditionString)
  return ⟨lineNumber, server, conditionString, condition⟩

def fromLine (lineNumber : Nat) (line : Str) : Except Thrown Rule := do
  let parts := (split2 '$' line).map trim
  let server ← Server.fromString t lineNumber (parts.headD [])
  newRule t lineNumber server (parts[1]?.getD [])

/-- A line without its comment: `line.split('#', limit = 2)[0].trim()`. -/
def codeOf (line : Str) : Str := trim ((split2 '#' line).headD [])

/-- The loop of `fromLines`, from the line with index `i` on. -/
def fromLinesFrom (i : Nat) : List Str → Except Thrown (List Rule)
  | [] => .ok []
  | line :: rest =>
    if line.isEmpty then fromLinesFrom (i + 1) rest
    else if (codeOf line).isEmpty then fromLinesFrom (i + 1) rest
    else do
      let rule ← fromLine t (i + 1) (codeOf line)
      let rules ← fromLinesFrom (i + 1) rest
      return rule :: rules

def fromLines (code : Str) : Except Thrown (List Rule) := fromLinesFrom t 0 (lines code)

def compile (codes : Str) : Except Thrown RedirectRule := do
  let rules ← fromLines t codes
  return ⟨rules⟩

end Compile

/-- `rules.find { it.condition.eval(packetInfo) }` -/
def findRule : List Rule → PacketInfo → Except JavaException (Option Rule)
  | [], _ => .ok none
  | rule :: rules, p => do if ← rule.condition.eval p then return some rule else findRule rules p

def RedirectRule.eval (r : RedirectRule) (proto hostname daddr : Str) (dport : Int) (saddr : Str) (sport : Int)
    (tls : Bool) (uid : Int) : Except JavaException (Option Server) := do
  let rule ← findRule r.rules ⟨proto, hostname, daddr, saddr, dport, sport, tls, uid⟩
  return rule.map (·.server)

/-! ## What a line can throw -/

section Lines

variable {t : CharTables}

/-- The text before the first `$` of a line. -/
def serverText (line : Str) : Str := trim (cut '$' line).1

theorem codeOf_eq (line : Str) : codeOf line = trim (cut '#' line).1 := by
  unfold codeOf split2
  split <;> rename_i h <;> rw [h] <;> rfl

theorem fromLine_eq (lineNumber : Nat) (line : Str) :
    fromLine t lineNumber line = Server.fromString t lineNumber (serverText line) >>= fun server =>
      newRule t lineNumber server (((cut '$' line).2.map trim).getD []) := by
  unfold fromLine split2 serverText
  split <;> rename_i h <;> rw [h] <;> rfl

theorem fromString_syntaxOnly {lineNumber : Nat} {s : Str} (h : ¬ Unindexable s) :
    SyntaxOnly lineNumber (Server.fromString t lineNumber s) := by
  unfold Server.fromString
  cases hi : ipAndPort t s with
  | error e => exact absurd (ipAndPort_error_iff.1 hi).2 h
  | ok r =>
    cases r with
    | none => rintro x ⟨⟩; exact ⟨_, rfl⟩
    | some r => exact .ok _

theorem newRule_syntaxOnly {lineNumber : Nat} {server : Server} {s : Str} :
    SyntaxOnly lineNumber (newRule t lineNumber server s) :=
  (parse_syntaxOnly _).bind fun _ _ => .ok _

/-- A line throws a syntax error with its own number, unless its server cannot be indexed. -/
theorem fromLine_syntaxOnly {lineNumber : Nat} {line : Str} (h : ¬ Unindexable (serverText line)) :
    SyntaxOnly lineNumber (fromLine t lineNumber line) := by
  rw [fromLine_eq]
  exact (fromString_syntaxOnly h).bind fun _ _ => newRule_syntaxOnly

theorem fromLine_unindexable {lineNumber : Nat} {line : Str} (h : Unindexable (serverText line)) :
    fromLine t lineNumber line = .error (.exception .stringIndexOutOfBounds) := by
  rw [fromLine_eq, Server.fromString, ipAndPort_error_iff.2 ⟨rfl, h⟩]; rfl

/-! ## The first refused line -/

/-- The line with index `i` has code that `fromLine` does not accept. -/
def Refused (t : CharTables) (i : Nat) (line : Str) : Prop :=
  codeOf line ≠ [] ∧ ∀ rule, fromLine t (i + 1) (codeOf line) ≠ .ok rule

/-- `i` is the index of the first refused line, with the lines numbered from `k` on. -/
def FirstRefused (t : CharTables) (k : Nat) (ls : List Str) (i : Nat) : Prop :=
  (∃ line, ls[i]? = some line ∧ Refused t (k + i) line) ∧
    ∀ j < i, ∀ line, ls[j]? = some line → ¬ Refused t (k + j) line

theorem FirstRefused.succ {k i : Nat} {line : Str} {ls : List Str} (hl : ¬ Refused t k line)
    (h : FirstRefused t (k + 1) ls i) : FirstRefused t k (line :: ls) (i + 1) := by
  obtain ⟨⟨l, hi, hr⟩, hj⟩ := h
  refine ⟨⟨l, hi, by rwa [Nat.add_right_comm] at hr⟩, fun j hlt l' hl' => ?_⟩
  cases j with
  | zero => cases hl'; exact hl
  | succ j =>
    have := hj j (by omega) l' hl'
    rwa [Nat.add_right_comm] at this

theorem firstRefused_unique {k i i' : Nat} {ls : List Str} (h : FirstRefused t k ls i) (h' : FirstRefused t k ls i') :
    i = i' := by
  obtain ⟨⟨l, hi, hr⟩, hj⟩ := h
  obtain ⟨⟨l', hi', hr'⟩, hj'⟩ := h'
  rcases Nat.lt_trichotomy i i' with hlt | heq | hlt
  · exact absurd hr (hj' i hlt l hi)
  · exact heq
  · exact absurd hr' (hj i' hlt l' hi')

/-- The loop returns when no line is refused, and otherwise throws what the first refused line does. -/
theorem fromLinesFrom_spec (k : Nat) (ls : List Str) :
    ((∃ rules, fromLinesFrom t k ls = .ok rules) ∧ ∀ i line, ls[i]? = some line → ¬ Refused t (k + i) line) ∨
    ∃ i line x, FirstRefused t k ls i ∧ ls[i]? = some line ∧ fromLine t (k + i + 1) (codeOf line) = .error x ∧
      fromLinesFrom t k ls = .error x := by
  induction ls generalizing k with
  | nil => exact .inl ⟨⟨[], rfl⟩, by simp⟩
  | cons line ls ih =>
    -- what the rest of the lines gives, once this one is not refused
    have rest : ¬ Refused t k line →
        ((∃ rules, fromLinesFrom t (k + 1) ls = .ok rules) ∧
          ∀ i l, (line :: ls)[i]? = some l → ¬ Refused t (k + i) l) ∨
        ∃ i l x, FirstRefused t k (line :: ls) i ∧ (line :: ls)[i]? = some l ∧
          fromLine t (k + i + 1) (codeOf l) = .error x ∧ fromLinesFrom t (k + 1) ls = .error x := fun hn => by
      rcases ih (k + 1) with ⟨hr, hall⟩ | ⟨i, l, x, hf, hl, hx, hr⟩
      · refine .inl ⟨hr, fun i l hl => ?_⟩
        cases i with
        | zero => cases hl; exact hn
        | succ i =>
          have := hall i l hl
          rwa [Nat.add_right_comm] at this
      · rw [Nat.add_right_comm k 1 i] at hx
        exact .inr ⟨i + 1, l, x, hf.succ hn, hl, hx, hr⟩
    by_cases hc : (codeOf line).isEmpty = true
    · have hs : fromLinesFrom t k (line :: ls) = fromLinesFrom t (k + 1) ls := by
        rw [fromLinesFrom, if_pos hc, ite_self]
      rw [hs]
      exact rest fun h => h.1 (List.isEmpty_iff.1 hc)
    · have hne : line.isEmpty = false := by
        cases line with
        | nil => exact absurd rfl hc
        | cons => rfl
      have hs : fromLinesFrom t k (line :: ls) = fromLine t (k + 1) (codeOf line) >>= fun rule =>
          fromLinesFrom t (k + 1) ls >>= fun rules => .ok (rule :: rules) := by
        rw [fromLinesFrom, if_neg (by simp [hne]), if_neg hc]; rfl
      cases hl : fromLine t (k + 1) (codeOf line) with
      | error x =>
        refine .inr ⟨0, line, x, ⟨⟨line, rfl, fun h => hc (by rw [h]; rfl), fun r h => ?_⟩, by omega⟩, rfl, hl, ?_⟩
        · rw [Nat.add_zero, hl] at h; cases h
        · rw [hs, hl]; rfl
      | ok rule =>
        rw [hs, hl]
        rcases rest fun h => h.2 rule hl with ⟨⟨rules, hr⟩, hall⟩ | ⟨i, l, x, hf, hi, hx, hr⟩
        · exact .inl ⟨⟨rule :: rules, by rw [hr]; rfl⟩, hall⟩
        · exact .inr ⟨i, l, x, hf, hi, hx, by rw [hr]; rfl⟩

/-! ## What compiling reports -/

/-- Compiling returns, or throws a syntax error with the number of the first refused line. -/
def ReportsFirstRefused (t : CharTables) (codes : Str) : Prop :=
  (∃ r, compile t codes = .ok r) ∨
    ∃ e i, compile t codes = .error (.syntaxError e) ∧ e.lineNumber = i + 1 ∧ FirstRefused t 0 (lines codes) i

/-- A line with code whose server's text is empty, or is bracketed and ends with its first `]`. -/
def BadServer (line : Str) : Prop := codeOf line ≠ [] ∧ Unindexable (serverText (codeOf line))

/-- Compiling reports as it should when every line with a bad server's text comes after a line that
is refused. -/
theorem reportsFirstRefused_iff (t : CharTables) (codes : Str) :
    ReportsFirstRefused t codes ↔ ∀ i line, (lines codes)[i]? = some line → BadServer line →
      ∃ j < i, ∃ line', (lines codes)[j]? = some line' ∧ Refused t j line' := by
  have hc : compile t codes = fromLinesFrom t 0 (lines codes) >>= fun rules => .ok ⟨rules⟩ := rfl
  have bad : ∀ {i line}, BadServer line → Refused t i line := fun hb =>
    ⟨hb.1, fun r h => by rw [fromLine_unindexable hb.2] at h; cases h⟩
  unfold ReportsFirstRefused
  rcases fromLinesFrom_spec (t := t) 0 (lines codes) with ⟨⟨rules, hr⟩, hall⟩ | ⟨i, line, x, hf, hi, hx, hr⟩
  · rw [hc, hr]
    refine iff_of_true (.inl ⟨⟨rules⟩, rfl⟩) fun i line hi hb => ?_
    have := hall i line hi
    rw [Nat.zero_add] at this
    exact absurd (bad hb) this
  · rw [hc, hr]
    rw [Nat.zero_add] at hx
    obtain ⟨l, hl, href⟩ := hf.1
    rw [hi] at hl; cases hl
    rw [Nat.zero_add] at href
    constructor
    · rintro (⟨r, h⟩ | ⟨e, i', he, -, -⟩) k l hk hb
      · cases h
      · cases he
        refine ⟨i, ?_, line, hi, href⟩
        -- a bad line before the first refused one would be refused, and at it would not throw `e`
        rcases Nat.lt_trichotomy i k with hlt | rfl | hlt
        · exact hlt
        · rw [hi] at hk; cases hk
          rw [fromLine_unindexable hb.2] at hx; cases hx
        · exact absurd (bad hb) (hf.2 k hlt l hk)
    · intro hbad
      have hgood : ¬ Unindexable (serverText (codeOf line)) := fun hu => by
        obtain ⟨j, hj, l', hl', hrj⟩ := hbad i line hi ⟨href.1, hu⟩
        exact hf.2 j hj l' hl' (by rwa [Nat.zero_add])
      obtain ⟨kind, rfl⟩ := fromLine_syntaxOnly hgood x hx
      exact .inr ⟨⟨i + 1, kind⟩, i, rfl, rfl, hf⟩

end Lines

/-- A line that is only `$ true` makes compiling throw an index error. -/
theorem not_reportsFirstRefused_noServer : ¬ ∀ (t : CharTables) (codes : Str), ReportsFirstRefused t codes := by
  intro h
  have hc : compile .ascii "$ true".toList = .error (.exception .stringIndexOutOfBounds) := rfl
  rcases h .ascii "$ true".toList with ⟨r, hr⟩ | ⟨e, i, he, -⟩
  · rw [hc] at hr; cases hr
  · rw [hc] at he; cases he

/-! ## The rules of a program -/

/-- An address text, and a port number other than 0. -/
structure Server.Usable (s : Server) : Prop where
  address : s.address ≠ []
  port : 1 ≤ s.port ∧ s.port ≤ 65535

/-- A rule that can be asked about every packet, and whose server can be redirected to. -/
structure Rule.Usable (r : Rule) : Prop where
  server : r.server.Usable
  total : ∀ p, ∃ b, r.condition.eval p = .ok b

section Rules

variable {t : CharTables}

theorem usable_of_fromString {lineNumber : Nat} {s : Str} {server : Server}
    (h : Server.fromString t lineNumber s = .ok server) : server.Usable := by
  obtain ⟨ha, hport⟩ := valid_of_ipAndPort (fromString_eq_ok h).1
  refine ⟨?_, hport⟩
  intro hempty
  rw [hempty] at ha
  cases ha

theorem usable_of_fromLine {lineNumber : Nat} {line : Str} {rule : Rule} (h : fromLine t lineNumber line = .ok rule) :
    rule.Usable := by
  rw [fromLine_eq] at h
  obtain ⟨server, hs, h⟩ := bind_eq_ok h
  obtain ⟨condition, hparse, hr⟩ := bind_eq_ok h
  cases hr
  exact ⟨usable_of_fromString hs, total_of_parse hparse⟩

theorem exists_fromLine {i : Nat} {ls : List Str} {rules : List Rule} (h : fromLinesFrom t i ls = .ok rules) :
    ∀ rule ∈ rules, ∃ lineNumber line, fromLine t lineNumber line = .ok rule := by
  induction ls generalizing i rules with
  | nil => cases h; simp
  | cons line ls ih =>
    rw [fromLinesFrom] at h
    split_ifs at h
    · exact ih h
    · exact ih h
    · obtain ⟨rule, hrule, h⟩ := bind_eq_ok h
      obtain ⟨rest, hrest, h⟩ := bind_eq_ok h
      cases h
      rw [List.forall_mem_cons]
      exact ⟨⟨_, _, hrule⟩, ih hrest⟩

/-- Every rule of a compiled program is that of a line. -/
theorem fromLine_of_compile {codes : Str} {r : RedirectRule} (h : compile t codes = .ok r) :
    ∀ rule ∈ r.rules, ∃ lineNumber line, fromLine t lineNumber line = .ok rule := by
  obtain ⟨rules, hrules, h⟩ := bind_eq_ok h
  cases h
  exact exists_fromLine hrules

/-- Every rule of a compiled program can be asked about every packet and redirected to. -/
theorem usable_of_compile {codes : Str} {r : RedirectRule} (h : compile t codes = .ok r) :
    ∀ rule ∈ r.rules, rule.Usable := by
  intro rule hrule
  obtain ⟨lineNumber, line, hline⟩ := fromLine_of_compile h rule hrule
  exact usable_of_fromLine hline

end Rules

theorem findRule_total {rules : List Rule} (h : ∀ rule ∈ rules, rule.Usable) (p : PacketInfo) :
    ∃ o, findRule rules p = .ok o := by
  induction rules with
  | nil => exact ⟨none, rfl⟩
  | cons r rules ih =>
    rw [List.forall_mem_cons] at h
    obtain ⟨b, hb⟩ := h.1.total p
    obtain ⟨o, ho⟩ := ih h.2
    cases b
    · exact ⟨o, by simp only [findRule, hb, ho, bind, Except.bind, Bool.false_eq_true, if_false]⟩
    · exact ⟨some r, by simp only [findRule, hb, bind, Except.bind, if_true, pure, Except.pure]⟩

/-- A compiled program gives an answer for every packet. -/
theorem eval_total_of_compile {t : CharTables} {codes : Str} {r : RedirectRule} (h : compile t codes = .ok r)
    (proto hostname daddr : Str) (dport : Int) (saddr : Str) (sport : Int) (tls : Bool) (uid : Int) :
    ∃ server, r.eval proto hostname daddr dport saddr sport tls uid = .ok server := by
  obtain ⟨o, ho⟩ := findRule_total (usable_of_compile h) ⟨proto, hostname, daddr, saddr, dport, sport, tls, uid⟩
  exact ⟨o.map (·.server), by simp only [RedirectRule.eval, ho, bind, Except.bind, pure, Except.pure]⟩

theorem findRule_mem {rules : List Rule} {p : PacketInfo} {rule : Rule} (h : findRule rules p = .ok (some rule)) :
    rule ∈ rules := by
  induction rules with
  | nil => cases h
  | cons r rules ih =>
    obtain ⟨b, -, h⟩ := bind_eq_ok h
    cases b with
    | true => cases h; exact List.mem_cons_self
    | false => exact List.mem_cons_of_mem _ (ih h)

theorem RedirectRule.eval_mem {r : RedirectRule} {proto hostname daddr : Str} {dport : Int} {saddr : Str} {sport : Int}
    {tls : Bool} {uid : Int} {server : Server}
    (h : r.eval proto hostname daddr dport saddr sport tls uid = .ok (some server)) :
    ∃ rule ∈ r.rules, rule.server = server := by
  obtain ⟨rule, hrule, h⟩ := bind_eq_ok h
  cases rule with
  | none => cases h
  | some rule => cases h; exact ⟨rule, findRule_mem hrule, rfl⟩

end SunProxy.Redirect
