/-
Boolean expressions over the comparisons, written with parentheses only where the precedence of
`!`, `&&` and `||` asks for them: compiling the text gives a rule that matches exactly the packets
on which the expression is true.
-/
import SunProxy.Redirect.Compile
import SunProxy.Redirect.Operands

namespace SunProxy.Redirect

open SunProxy.Kotlin SunProxy.Seq SunProxy.Utils

/-! ## Expressions and their text -/

/-- A comparison the language has, with what it tests. -/
structure WellFormedComparison (t : CharTables) where
  field : Token
  op : Token
  value : Token
  test : Cond
  wellFormed : Comparison t field op value test
  ascii : field = "hostname".toList → ∀ c ∈ value, c.toNat < 128

inductive BoolExp (t : CharTables)
  | true
  | false
  | tls
  | comparison (c : WellFormedComparison t)
  | not (e : BoolExp t)
  | and (l r : BoolExp t)
  | or (l r : BoolExp t)

namespace BoolExp

variable {t : CharTables}

/-- The packets on which an expression is true. -/
def holds : BoolExp t → PacketInfo → Bool
  | .true, _ => Bool.true
  | .false, _ => Bool.false
  | .tls, p => p.tls
  | .comparison c, p => match c.test p with
    | .ok b => b
    | .error _ => Bool.false
  | .not e, p => !e.holds p
  | .and l r, p => l.holds p && r.holds p
  | .or l r, p => l.holds p || r.holds p

def parenthesised (ts : List Token) : List Token := "(".toList :: (ts ++ [")".toList])

/-- The tokens of an expression where the grammar has something of the given level. -/
def tokens : BoolExp t → Level → List Token
  | .true, _ => ["true".toList]
  | .false, _ => ["false".toList]
  | .tls, _ => ["tls".toList]
  | .comparison c, _ => [c.field, c.op, c.value]
  | .not e, .primary => parenthesised ("!".toList :: e.tokens .unary)
  | .not e, _ => "!".toList :: e.tokens .unary
  | .and l r, .or | .and l r, .and => l.tokens .and ++ "&&".toList :: r.tokens .and
  | .and l r, _ => parenthesised (l.tokens .and ++ "&&".toList :: r.tokens .and)
  | .or l r, .or => l.tokens .or ++ "||".toList :: r.tokens .or
  | .or l r, _ => parenthesised (l.tokens .or ++ "||".toList :: r.tokens .or)

/-- The text of an expression. -/
def text (e : BoolExp t) : Str := spaced (e.tokens .or)

end BoolExp

/-! ## The text is a condition with the same meaning -/

section Derivation

variable {t : CharTables}

/-- Two values joined by `&&`, evaluated from the left. -/
def andAlso (x y : Except JavaException Bool) : Except JavaException Bool := do if ← x then y else return false

def orElse (x y : Except JavaException Bool) : Except JavaException Bool := do if ← x then return true else y

theorem andAlso_assoc (x y z : Except JavaException Bool) : andAlso (andAlso x y) z = andAlso x (andAlso y z) := by
  rcases x with _ | _ | _ <;> rcases y with _ | _ | _ <;> rfl

theorem orElse_assoc (x y z : Except JavaException Bool) : orElse (orElse x y) z = orElse x (orElse y z) := by
  rcases x with _ | _ | _ <;> rcases y with _ | _ | _ <;> rfl

theorem Derives.atLevel {ts : List Token} {e : Expression} (h : Derives t .primary ts e) : ∀ level, Derives t level ts e
  | .or => .ofAnd (.ofUnary (.ofPrimary h))
  | .and => .ofUnary (.ofPrimary h)
  | .unary => .ofPrimary h
  | .primary => h

/-- Conjunctions are joined without parentheses on either side. -/
theorem exists_and {ts us : List Token} {l r : Expression} (hl : Derives t .and ts l) (hr : Derives t .and us r) :
    ∃ e, Derives t .and (ts ++ "&&".toList :: us) e ∧ ∀ p, e.eval p = andAlso (l.eval p) (r.eval p) := by
  generalize hlevel : Level.and = level at hr
  induction hr with
  | ofUnary hr => exact ⟨.and l _, .and hl hr, fun _ => rfl⟩
  | @and us₁ us₂ l' r' _ hr' ih =>
    obtain ⟨e, he, hv⟩ := ih rfl
    refine ⟨.and e r', by simpa using Derives.and he hr', fun p => ?_⟩
    show andAlso (e.eval p) (r'.eval p) = andAlso (l.eval p) (andAlso (l'.eval p) (r'.eval p))
    rw [hv, andAlso_assoc]
  | _ => cases hlevel

/-- Disjunctions are joined without parentheses on either side. -/
theorem exists_or {ts us : List Token} {l r : Expression} (hl : Derives t .or ts l) (hr : Derives t .or us r) :
    ∃ e, Derives t .or (ts ++ "||".toList :: us) e ∧ ∀ p, e.eval p = orElse (l.eval p) (r.eval p) := by
  generalize hlevel : Level.or = level at hr
  induction hr with
  | ofAnd hr => exact ⟨.or l _, .or hl hr, fun _ => rfl⟩
  | @or us₁ us₂ l' r' _ hr' ih =>
    obtain ⟨e, he, hv⟩ := ih rfl
    refine ⟨.or e r', by simpa using Derives.or he hr', fun p => ?_⟩
    show orElse (e.eval p) (r'.eval p) = orElse (l.eval p) (orElse (l'.eval p) (r'.eval p))
    rw [hv, orElse_assoc]
  | _ => cases hlevel

/-- The tokens of an expression derive a condition that evaluates to what the expression is. -/
theorem BoolExp.derives (e : BoolExp t) (level : Level) :
    ∃ x, Derives t level (e.tokens level) x ∧ ∀ p, x.eval p = .ok (e.holds p) := by
  induction e generalizing level with
  | true => exact ⟨_, (Derives.literal .true).atLevel level, fun _ => rfl⟩
  | false => exact ⟨_, (Derives.literal .false).atLevel level, fun _ => rfl⟩
  | tls => exact ⟨_, (Derives.literal .tls).atLevel level, fun _ => rfl⟩
  | comparison c =>
    refine ⟨_, (Derives.comparison c.wellFormed).atLevel level, fun p => ?_⟩
    obtain ⟨b, hb⟩ := c.wellFormed.total p
    simp only [Expression.eval, BoolExp.holds, hb]
  | not e ih =>
    obtain ⟨x, hx, hv⟩ := ih .unary
    have hn : ∀ p, (Expression.not x).eval p = .ok (!e.holds p) := fun p => by simp only [Expression.eval, hv]; rfl
    -- at a tighter level the tokens stand in parentheses
    cases level with
    | or => exact ⟨_, .ofAnd (.ofUnary (.not hx)), hn⟩
    | and => exact ⟨_, .ofUnary (.not hx), hn⟩
    | unary => exact ⟨_, .not hx, hn⟩
    | primary => exact ⟨_, .paren (.ofAnd (.ofUnary (.not hx))), hn⟩
  | and l r ihl ihr =>
    obtain ⟨x, hx, hvx⟩ := ihl .and
    obtain ⟨y, hy, hvy⟩ := ihr .and
    obtain ⟨z, hz, hvz⟩ := exists_and hx hy
    have hv : ∀ p, z.eval p = .ok (l.holds p && r.holds p) := fun p => by
      rw [hvz, hvx, hvy]; cases l.holds p <;> rfl
    cases level with
    | or => exact ⟨z, .ofAnd hz, hv⟩
    | and => exact ⟨z, hz, hv⟩
    | unary => exact ⟨z, .ofPrimary (.paren (.ofAnd hz)), hv⟩
    | primary => exact ⟨z, .paren (.ofAnd hz), hv⟩
  | or l r ihl ihr =>
    obtain ⟨x, hx, hvx⟩ := ihl .or
    obtain ⟨y, hy, hvy⟩ := ihr .or
    obtain ⟨z, hz, hvz⟩ := exists_or hx hy
    have hv : ∀ p, z.eval p = .ok (l.holds p || r.holds p) := fun p => by
      rw [hvz, hvx, hvy]; cases l.holds p <;> rfl
    cases level with
    | or => exact ⟨z, hz, hv⟩
    | and => exact ⟨z, .ofUnary (.ofPrimary (.paren hz)), hv⟩
    | unary => exact ⟨z, .ofPrimary (.paren hz), hv⟩
    | primary => exact ⟨z, .paren hz, hv⟩

end Derivation

/-! ## The text as a line of a program -/

section Compiled

variable {t : CharTables}

/-- A token that reads back, on a line of its own. -/
def PrintedToken (t : CharTables) (w : Token) : Prop := IsToken t w ∧ ∀ c ∈ w, LineChar c

theorem printedToken_word {w : Token} (h : w ≠ [] ∧ ∀ c ∈ w, WordChar t c) : PrintedToken t w :=
  ⟨isToken_of_chars h.1 fun c hc => (h.2 c hc).1, fun c hc => (h.2 c hc).2⟩

theorem printedToken_symbol {w : Token} (h : w ∈ symbols) : PrintedToken t w := by
  refine ⟨isToken_symbol t h, ?_⟩
  have hall : symbols.all (fun w => w.all fun c => decide (LineChar c)) = true := by decide
  have := List.all_eq_true.1 hall w h
  exact fun c hc => of_decide_eq_true (List.all_eq_true.1 this c hc)

theorem printedToken_keyword {w : Token}
    (h0 : w ≠ []) (h : w.all isKeywordChar = true) :
    PrintedToken t w := printedToken_word ⟨h0, wordChars_keyword t h⟩

theorem printedToken_parenthesised {ts : List Token} (h : ∀ w ∈ ts, PrintedToken t w) :
    ∀ w ∈ BoolExp.parenthesised ts, PrintedToken t w := by
  intro w hw
  simp only [BoolExp.parenthesised, List.mem_cons, List.mem_append, List.not_mem_nil, or_false] at hw
  rcases hw with rfl | hw | rfl
  · exact printedToken_symbol (by decide)
  · exact h w hw
  · exact printedToken_symbol (by decide)

theorem printedToken_joined {ts us : List Token} {s : Token} (hs : s ∈ symbols) (hts : ∀ w ∈ ts, PrintedToken t w)
    (hus : ∀ w ∈ us, PrintedToken t w) : ∀ w ∈ ts ++ s :: us, PrintedToken t w := by
  intro w hw
  simp only [List.mem_append, List.mem_cons] at hw
  rcases hw with hw | rfl | hw
  · exact hts w hw
  · exact printedToken_symbol hs
  · exact hus w hw

theorem BoolExp.printedTokens (e : BoolExp t) (level : Level) : ∀ w ∈ e.tokens level, PrintedToken t w := by
  induction e generalizing level with
  | true | false | tls => simpa [BoolExp.tokens] using printedToken_keyword (by decide) (by decide)
  | comparison c =>
    obtain ⟨hf, ho⟩ := c.wellFormed.fieldAndOperator
    intro w hw
    simp only [BoolExp.tokens, List.mem_cons, List.not_mem_nil, or_false] at hw
    rcases hw with rfl | rfl | rfl
    · exact printedToken_word hf
    · rcases ho with ho | ho
      · exact printedToken_symbol ho
      · rw [ho]; exact printedToken_keyword (by decide) (by decide)
    · exact printedToken_word (c.wellFormed.wordChars c.ascii)
  | not e ih =>
    have hn : ∀ w ∈ "!".toList :: e.tokens .unary, PrintedToken t w :=
      printedToken_joined (by decide) (show ∀ w ∈ ([] : List Token), PrintedToken t w by simp) (ih .unary)
    cases level with
    | primary => exact printedToken_parenthesised hn
    | _ => exact hn
  | and l r ihl ihr =>
    have hj := printedToken_joined (s := "&&".toList) (by decide) (ihl .and) (ihr .and)
    cases level with
    | or | and => exact hj
    | _ => exact printedToken_parenthesised hj
  | or l r ihl ihr =>
    have hj := printedToken_joined (s := "||".toList) (by decide) (ihl .or) (ihr .or)
    cases level with
    | or => exact hj
    | _ => exact printedToken_parenthesised hj

/-- Tokens between spaces start and end with a token's character, and have blanks only between. -/
theorem spaced_chars {ws : List Token} (hne : ws ≠ []) (h : ∀ w ∈ ws, PrintedToken t w) :
    spaced ws ≠ [] ∧ (∀ c ∈ spaced ws, c = ' ' ∨ LineChar c) ∧
      ∀ c, (spaced ws).head? = some c ∨ (spaced ws).getLast? = some c → LineChar c := by
  induction ws with
  | nil => exact absurd rfl hne
  | cons w ws ih =>
    obtain ⟨⟨hw, -⟩, hc⟩ := h w (List.mem_cons_self ..)
    cases ws with
    | nil =>
      rw [spaced, List.intercalate_singleton]
      refine ⟨hw, fun c hm => .inr (hc c hm), fun c hm => hc c ?_⟩
      exact hm.elim (fun e => List.mem_of_mem_head? e) fun e => List.mem_of_mem_getLast? e
    | cons v ws =>
      obtain ⟨hs, hall, hend⟩ := ih (by simp) fun w hw => h w (List.mem_cons_of_mem _ hw)
      have hcons : spaced (w :: v :: ws) = w ++ ' ' :: spaced (v :: ws) := by
        rw [spaced, List.intercalate_cons_cons, List.append_assoc]; rfl
      rw [hcons]
      refine ⟨by simp [hw], fun c hm => ?_, fun c hm => ?_⟩
      · simp only [List.mem_append, List.mem_cons] at hm
        rcases hm with hm | rfl | hm
        · exact .inr (hc c hm)
        · exact .inl rfl
        · exact hall c hm
      · rw [List.head?_append_of_ne_nil _ hw, List.getLast?_append, List.getLast?_cons,
          List.getLast?_eq_some_getLast hs] at hm
        rcases hm with hm | hm
        · exact hc c (List.mem_of_mem_head? hm)
        · refine hend c (.inr ?_)
          rw [List.getLast?_eq_some_getLast hs]
          simpa using hm

/-- A line of a server, ` $ ` and the text of a condition compiles to one rule. -/
theorem compile_line {server address : Str} {port : Int} {ws : List Token} {x : Expression}
    (hserver : ipAndPort t server = .ok (some (address, port))) (hws : ∀ w ∈ ws, PrintedToken t w)
    (hx : Derives t .or ws x) :
    compile t (server ++ (" $ ".toList ++ spaced ws)) = .ok ⟨[⟨1, ⟨address, port, false⟩, spaced ws, x⟩]⟩ := by
  obtain ⟨hs0, hs⟩ := wordChars_server hserver
  have hw0 : ws ≠ [] := List.length_pos_iff.1 hx.length_pos
  obtain ⟨ht0, ht, hend⟩ := spaced_chars hw0 hws
  have htok : tokenize t (spaced ws) = ws := tokenize_spaced fun w hw => (hws w hw).1
  generalize hline : server ++ (" $ ".toList ++ spaced ws) = line
  have hchars : ∀ c ∈ line, c = ' ' ∨ c = '$' ∨ LineChar c := fun c hc => by
    rw [← hline] at hc
    simp only [List.mem_append] at hc
    rcases hc with hc | hc | hc
    · exact .inr (.inr (hs c hc).2)
    · simp at hc; rcases hc with rfl | rfl | rfl <;> simp
    · exact (ht c hc).imp_right .inr
  have hends : ∀ c, line.head? = some c ∨ line.getLast? = some c → isWhitespace c = false := fun c hc => by
    rw [← hline, List.head?_append_of_ne_nil _ hs0, List.getLast?_append, List.getLast?_append,
      List.getLast?_eq_some_getLast ht0] at hc
    rcases hc with hc | hc
    · exact (hs c (List.mem_of_mem_head? hc)).2.1
    · exact (hend c (.inr (by rw [List.getLast?_eq_some_getLast ht0]; simpa using hc))).1
  have hblank : ∀ c ∈ [' '], isWhitespace c = true := fun c hc => by rw [List.mem_singleton.1 hc]; rfl
  have hline0 : line ≠ [] := by rw [← hline]; simp [hs0]
  -- the line is one line without a comment, and its only dollar sign is the one put in
  have hlines : lines line = [line] := lines_of_noBreak fun c hc => by
    rcases hchars c hc with rfl | rfl | h
    · decide
    · decide
    · exact ⟨by rintro rfl; exact absurd h (by decide), by rintro rfl; exact absurd h (by decide)⟩
  have hcode : codeOf line = line := by
    have hh : '#' ∉ line := fun hm => by
      rcases hchars '#' hm with h | h | h
      · exact absurd h (by decide)
      · exact absurd h (by decide)
      · exact h.2.1 rfl
    rw [codeOf_eq, cut_of_notMem hh]
    simpa using trim_eq (p := []) (q := []) (by simp) (by simp) hline0 hends
  have hcut : cut '$' line = (server ++ [' '], some (' ' :: spaced ws)) := by
    have hd : '$' ∉ server ++ [' '] := fun hm => by
      simp only [List.mem_append, List.mem_singleton] at hm
      exact hm.elim (fun h => (hs _ h).2.2.2 rfl) (by decide)
    rw [← hline, ← cut_append hd]
    simp
  have htrimServer : trim (server ++ [' ']) = server := by
    simpa using trim_eq (p := []) (q := [' ']) (by simp) hblank hs0 fun c hc =>
      (hs c (hc.elim (fun e => List.mem_of_mem_head? e) fun e => List.mem_of_mem_getLast? e)).2.1
  have htrimText : trim (' ' :: spaced ws) = spaced ws := by
    simpa using trim_eq (p := [' ']) (q := []) hblank (by simp) ht0 fun c hc => (hend c hc).1
  -- so the line is read as the server and the text of the expression
  have hfrom : fromLine t 1 line = .ok ⟨1, ⟨address, port, false⟩, spaced ws, x⟩ := by
    rw [fromLine_eq, serverText, hcut, htrimServer, Server.fromString, hserver]
    simp only [Option.map_some, Option.getD_some, htrimText, newRule, htok, parse_of_derives hx, liftJava, bind,
      Except.bind, pure, Except.pure]
  rw [compile, fromLines, hlines, fromLinesFrom, if_neg (by simpa using hline0), hcode, if_neg (by simpa using hline0),
    hfrom]
  rfl

/-- Compiling a server with the text of an expression gives a program that redirects to the server
exactly the packets on which the expression is true. -/
theorem eval_compile_text {server address : Str} {port : Int}
    (h : ipAndPort t server = .ok (some (address, port))) (e : BoolExp t) :
    ∃ r, compile t (server ++ (" $ ".toList ++ e.text)) = .ok r ∧ ∀ p : PacketInfo,
      r.eval p.proto p.hostname p.daddr p.dport p.saddr p.sport p.tls p.uid =
        .ok (if e.holds p then some ⟨address, port, false⟩ else none) := by
  obtain ⟨x, hx, hv⟩ := e.derives .or
  refine ⟨_, compile_line h (e.printedTokens .or) hx, fun p => ?_⟩
  simp only [RedirectRule.eval, findRule, hv p, bind, Except.bind, pure, Except.pure]
  cases e.holds p <;> rfl

/-- `!(true || tls) && false`, written with the parentheses it needs. -/
theorem eval_compile_text_nested : ∃ r,
    compile .ascii ("[::]:1".toList ++ (" $ ".toList ++
      (BoolExp.and (.not (.or .true .tls)) .false : BoolExp .ascii).text)) = .ok r ∧ ∀ p : PacketInfo,
      r.eval p.proto p.hostname p.daddr p.dport p.saddr p.sport p.tls p.uid =
        .ok (if (BoolExp.and (.not (.or .true .tls)) .false : BoolExp .ascii).holds p then
          some ⟨"::".toList, 1, false⟩ else none) :=
  eval_compile_text rfl _

end Compiled

end SunProxy.Redirect
