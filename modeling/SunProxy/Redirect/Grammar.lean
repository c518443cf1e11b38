/-
The grammar of conditions, with the expression each derivation stands for, and the parser against
it: what the parser reads is the longest derivable beginning of its tokens, and whatever follows
that beginning, if it is not `||` or `&&`, is left unread.
-/
import SunProxy.Lib.Result
import SunProxy.Redirect.Parser

namespace SunProxy.Redirect

open SunProxy.Kotlin SunProxy.Result SunProxy.Utils

/-! ## Comparisons -/

inductive IsProtocol : Token → Prop
  | tcp : IsProtocol "tcp".toList
  | udp : IsProtocol "udp".toList
  | icmp : IsProtocol "icmp".toList

inductive AddressField : Token → (PacketInfo → Str) → Prop
  | daddr : AddressField "daddr".toList (·.daddr)
  | saddr : AddressField "saddr".toList (·.saddr)

inductive NumberField : Token → (PacketInfo → Int) → Prop
  | dport : NumberField "dport".toList (·.dport)
  | sport : NumberField "sport".toList (·.sport)
  | uid : NumberField "uid".toList (·.uid)

inductive NumberOp : Token → (Int → Int → Bool) → Prop
  | eq : NumberOp "==".toList fun a b => a == b
  | ne : NumberOp "!=".toList fun a b => a != b
  | lt : NumberOp "<".toList fun a b => decide (a < b)
  | le : NumberOp "<=".toList fun a b => decide (a ≤ b)
  | gt : NumberOp ">".toList fun a b => decide (a > b)
  | ge : NumberOp ">=".toList fun a b => decide (a ≥ b)

/-- The comparisons `field operator value`, and what each tests. -/
inductive Comparison (t : CharTables) : Token → Token → Token → Cond → Prop
  | protoEq {rhs : Token} (h : IsProtocol rhs) :
      Comparison t "proto".toList "==".toList rhs fun ctx => .ok (ctx.proto == rhs)
  | protoNe {rhs : Token} (h : IsProtocol rhs) :
      Comparison t "proto".toList "!=".toList rhs fun ctx => .ok (ctx.proto != rhs)
  | hostnameIs {rhs : Token} (h : isValidDomainWildcard t rhs = true) :
      Comparison t "hostname".toList "=~".toList rhs fun ctx => .ok ((globPieces rhs).matches t ctx.hostname)
  | hostnameIsNot {rhs : Token} (h : isValidDomainWildcard t rhs = true) :
      Comparison t "hostname".toList "!~".toList rhs fun ctx => .ok (!(globPieces rhs).matches t ctx.hostname)
  | addressEq {field rhs : Token} {extract : PacketInfo → Str} (hf : AddressField field extract)
      (h : isValidIp t rhs = true) : Comparison t field "==".toList rhs fun ctx => .ok (extract ctx == rhs)
  | addressNe {field rhs : Token} {extract : PacketInfo → Str} (hf : AddressField field extract)
      (h : isValidIp t rhs = true) : Comparison t field "!=".toList rhs fun ctx => .ok (extract ctx != rhs)
  | addressIn {field rhs : Token} {extract : PacketInfo → Str} (hf : AddressField field extract)
      (h : isValidIpRange t rhs = true) :
      Comparison t field "in".toList rhs fun ctx => isIpInRange t (extract ctx) rhs
  | number {field op rhs : Token} {extract : PacketInfo → Int} {test : Int → Int → Bool} {n : Int}
      (hf : NumberField field extract) (ho : NumberOp op test) (h : toIntOrNull t 10 rhs = some n) :
      Comparison t field op rhs fun ctx => .ok (test (extract ctx) n)

/-- A comparison of a packet throws on no packet. -/
theorem Comparison.total {t : CharTables} {lhs op rhs : Token} {c : Cond} (h : Comparison t lhs op rhs c)
    (ctx : PacketInfo) : ∃ b, c ctx = .ok b := by
  cases h with
  | addressIn hf h => exact isIpInRange_ok ..
  | _ => exact ⟨_, rfl⟩

/-! ## Throwing syntax errors only -/

/-- A result whose only errors are syntax errors at the line. -/
def SyntaxOnly {α : Type} (lineNumber : Nat) (r : Except Thrown α) : Prop :=
  ∀ x, r = .error x → ∃ kind, x = .syntaxError ⟨lineNumber, kind⟩

section SyntaxOnly

variable {α β : Type} {lineNumber : Nat}

theorem SyntaxOnly.ok (a : α) : SyntaxOnly lineNumber (.ok a) := nofun

theorem SyntaxOnly.fail (kind : ErrorKind) : SyntaxOnly lineNumber (fail lineNumber kind : Except Thrown α) := by
  rintro x ⟨⟩; exact ⟨kind, rfl⟩

theorem SyntaxOnly.bind {r : Except Thrown α} {k : α → Except Thrown β} (hr : SyntaxOnly lineNumber r)
    (hk : ∀ a, r = .ok a → SyntaxOnly lineNumber (k a)) : SyntaxOnly lineNumber (r >>= k) := by
  cases r with
  | error x => intro y hy; cases hy; exact hr x rfl
  | ok a => exact hk a rfl

end SyntaxOnly

section Comparisons

variable {t : CharTables} {lineNumber : Nat}

theorem numberComparison_sound {op : Token} {n : Int} {extract : PacketInfo → Int} :
    SyntaxOnly lineNumber (numberComparison lineNumber op n extract) ∧
    ∀ {c}, numberComparison lineNumber op n extract = .ok c →
      ∃ test, NumberOp op test ∧ c = fun ctx => .ok (test (extract ctx) n) := by
  unfold numberComparison
  constructor
  · split_ifs <;> first | exact .ok _ | exact .fail _
  · intro c h
    split_ifs at h with h1 h2 h3 h4 h5 h6 <;> cases h
    · subst h1; exact ⟨_, .eq, rfl⟩
    · subst h2; exact ⟨_, .ne, rfl⟩
    · subst h3; exact ⟨_, .lt, rfl⟩
    · subst h4; exact ⟨_, .le, rfl⟩
    · subst h5; exact ⟨_, .gt, rfl⟩
    · subst h6; exact ⟨_, .ge, rfl⟩

theorem numberComparison_complete {op : Token} {test : Int → Int → Bool} (h : NumberOp op test) (n : Int)
    (extract : PacketInfo → Int) :
    numberComparison lineNumber op n extract = .ok fun ctx => .ok (test (extract ctx) n) := by
  cases h <;> rfl

theorem parseNumberComparison_sound {field op rhs : Token} :
    SyntaxOnly lineNumber (parseNumberComparison t lineNumber field op rhs) ∧
    ∀ {c}, parseNumberComparison t lineNumber field op rhs = .ok c → Comparison t field op rhs c := by
  unfold parseNumberComparison
  split
  · exact ⟨.fail _, nofun⟩
  · rename_i n hn
    constructor
    · split_ifs <;> first | exact numberComparison_sound.1 | exact .fail _
    · intro c h
      split_ifs at h with h1 h2 h3
      · subst h1; obtain ⟨test, ho, rfl⟩ := numberComparison_sound.2 h; exact .number .dport ho hn
      · subst h2; obtain ⟨test, ho, rfl⟩ := numberComparison_sound.2 h; exact .number .sport ho hn
      · subst h3; obtain ⟨test, ho, rfl⟩ := numberComparison_sound.2 h; exact .number .uid ho hn
      · cases h

theorem checkAddressOperand_syntaxOnly {op rhs : Token} :
    SyntaxOnly lineNumber (checkAddressOperand t lineNumber op rhs) := by
  unfold checkAddressOperand
  split_ifs <;> first | exact .ok _ | exact .fail _

theorem addressComparison_syntaxOnly {op rhs : Token} {extract : PacketInfo → Str} :
    SyntaxOnly lineNumber (addressComparison t lineNumber op rhs extract) := by
  unfold addressComparison
  split_ifs <;> first | exact .ok _ | exact .fail _

theorem addressComparison_sound {field op rhs : Token} {extract : PacketInfo → Str} {c : Cond}
    (hf : AddressField field extract) (hu : checkAddressOperand t lineNumber op rhs = .ok ())
    (h : addressComparison t lineNumber op rhs extract = .ok c) : Comparison t field op rhs c := by
  unfold addressComparison at h
  unfold checkAddressOperand at hu
  split_ifs at h with h1 h2 h3 <;> cases h
  · subst h1
    rw [if_neg (by decide), if_pos (.inl rfl)] at hu
    cases hv : isValidIp t rhs <;> rw [hv] at hu
    · cases hu
    · exact .addressEq hf hv
  · subst h2
    rw [if_neg (by decide), if_pos (.inr rfl)] at hu
    cases hv : isValidIp t rhs <;> rw [hv] at hu
    · cases hu
    · exact .addressNe hf hv
  · subst h3
    rw [if_pos rfl] at hu
    cases hv : isValidIpRange t rhs <;> rw [hv] at hu
    · cases hu
    · exact .addressIn hf hv

theorem parseAddressComparison_sound {field op rhs : Token} :
    SyntaxOnly lineNumber (parseAddressComparison t lineNumber field op rhs) ∧
    ∀ {c}, parseAddressComparison t lineNumber field op rhs = .ok c → Comparison t field op rhs c := by
  unfold parseAddressComparison
  constructor
  · refine checkAddressOperand_syntaxOnly.bind fun _ _ => ?_
    split_ifs <;> first | exact addressComparison_syntaxOnly | exact .fail _
  · intro c h
    cases hu : checkAddressOperand t lineNumber op rhs with
    | error x => rw [hu] at h; cases h
    | ok u =>
      rw [hu] at h
      simp only [bind, Except.bind] at h
      split_ifs at h with h1 h2
      · subst h1; exact addressComparison_sound .daddr hu h
      · subst h2; exact addressComparison_sound .saddr hu h
      · cases h

theorem parseHostnameComparison_sound {op rhs : Token} :
    SyntaxOnly lineNumber (parseHostnameComparison t lineNumber op rhs) ∧
    ∀ {c}, parseHostnameComparison t lineNumber op rhs = .ok c → Comparison t "hostname".toList op rhs c := by
  unfold parseHostnameComparison
  split
  · exact ⟨.fail _, nofun⟩
  · rename_i hv
    have hv : isValidDomainWildcard t rhs = true := by simpa using hv
    rw [domainWildcardToRegex_eq hv]
    simp only [liftJava, bind, Except.bind, pure, Except.pure]
    constructor
    · split_ifs <;> first | exact .ok _ | exact .fail _
    · intro c h
      split_ifs at h with h1 h2 <;> cases h
      · subst h1; exact .hostnameIs hv
      · subst h2; exact .hostnameIsNot hv

theorem isProtocol_of_not {rhs : Token} (h : ¬ (rhs ≠ "tcp".toList ∧ rhs ≠ "udp".toList ∧ rhs ≠ "icmp".toList)) :
    IsProtocol rhs := by
  by_cases h1 : rhs = "tcp".toList
  · exact h1 ▸ .tcp
  by_cases h2 : rhs = "udp".toList
  · exact h2 ▸ .udp
  by_cases h3 : rhs = "icmp".toList
  · exact h3 ▸ .icmp
  exact absurd ⟨h1, h2, h3⟩ h

theorem parseProtocolComparison_sound {op rhs : Token} :
    SyntaxOnly lineNumber (parseProtocolComparison lineNumber op rhs) ∧
    ∀ {c}, parseProtocolComparison lineNumber op rhs = .ok c → Comparison t "proto".toList op rhs c := by
  unfold parseProtocolComparison
  constructor
  · split_ifs <;> first | exact .ok _ | exact .fail _
  · intro c h
    split_ifs at h with h0 h1 h2 <;> cases h
    · subst h1; exact .protoEq (isProtocol_of_not h0)
    · subst h2; exact .protoNe (isProtocol_of_not h0)

theorem parseFieldComparison_sound {lhs op rhs : Token} :
    SyntaxOnly lineNumber (parseFieldComparison t lineNumber lhs op rhs) ∧
    ∀ {c}, parseFieldComparison t lineNumber lhs op rhs = .ok c → Comparison t lhs op rhs c := by
  unfold parseFieldComparison
  constructor
  · split_ifs
    · exact (parseProtocolComparison_sound (t := t)).1
    · exact parseHostnameComparison_sound.1
    · exact parseAddressComparison_sound.1
    · exact parseNumberComparison_sound.1
    · exact .fail _
  · intro c h
    split_ifs at h with h1 h2 h3 h4
    · subst h1; exact parseProtocolComparison_sound.2 h
    · subst h2; exact parseHostnameComparison_sound.2 h
    · exact parseAddressComparison_sound.2 h
    · exact parseNumberComparison_sound.2 h
    · cases h

theorem parseFieldComparison_complete {lhs op rhs : Token} {c : Cond} (h : Comparison t lhs op rhs c) :
    parseFieldComparison t lineNumber lhs op rhs = .ok c := by
  cases h with
  | protoEq h => cases h <;> rfl
  | protoNe h => cases h <;> rfl
  | hostnameIs h | hostnameIsNot h =>
    simp [parseFieldComparison, parseHostnameComparison, h, domainWildcardToRegex_eq h, liftJava]
  | addressEq hf h | addressNe hf h | addressIn hf h =>
    cases hf <;> simp [parseFieldComparison, parseAddressComparison, checkAddressOperand, h] <;> rfl
  | number hf ho h =>
    cases hf <;> simp [parseFieldComparison, parseNumberComparison, h, numberComparison_complete ho]

/-- `parseComparison` reads a comparison of the grammar, or throws a syntax error. -/
theorem parseComparison_sound {ts : List Token} :
    SyntaxOnly lineNumber (parseComparison t lineNumber ts) ∧
    ∀ {c rest}, parseComparison t lineNumber ts = .ok (c, rest) →
      ∃ lhs op rhs, ts = lhs :: op :: rhs :: rest ∧ Comparison t lhs op rhs c := by
  unfold parseComparison
  split
  · rename_i lhs op rhs rest
    refine ⟨parseFieldComparison_sound.1.bind fun _ _ => .ok _, fun {c rest'} h => ?_⟩
    obtain ⟨c', h', hc⟩ := bind_eq_ok h
    cases hc
    exact ⟨lhs, op, rhs, rfl, parseFieldComparison_sound.2 h'⟩
  · exact ⟨.fail _, nofun⟩

theorem parseComparison_complete {lhs op rhs : Token} {c : Cond} (h : Comparison t lhs op rhs c) (rest : List Token) :
    parseComparison t lineNumber (lhs :: op :: rhs :: rest) = .ok (c, rest) := by
  rw [parseComparison, parseFieldComparison_complete h]; rfl

end Comparisons

/-! ## Derivations -/

inductive Literal : Token → Expression → Prop
  | true : Literal "true".toList (.constant Bool.true)
  | false : Literal "false".toList (.constant Bool.false)
  | tls : Literal "tls".toList .tls

inductive Level
  | or
  | and
  | unary
  | primary

/-- `or := and ("||" and)*`, `and := unary ("&&" unary)*`, `unary := "!" unary | primary`,
`primary := "(" or ")" | atom`, with the expression that is read. -/
inductive Derives (t : CharTables) : Level → List Token → Expression → Prop
  | ofAnd {ts : List Token} {e : Expression} (h : Derives t .and ts e) : Derives t .or ts e
  | or {ts us : List Token} {l r : Expression} (hl : Derives t .or ts l) (hr : Derives t .and us r) :
      Derives t .or (ts ++ "||".toList :: us) (.or l r)
  | ofUnary {ts : List Token} {e : Expression} (h : Derives t .unary ts e) : Derives t .and ts e
  | and {ts us : List Token} {l r : Expression} (hl : Derives t .and ts l) (hr : Derives t .unary us r) :
      Derives t .and (ts ++ "&&".toList :: us) (.and l r)
  | not {ts : List Token} {e : Expression} (h : Derives t .unary ts e) : Derives t .unary ("!".toList :: ts) (.not e)
  | ofPrimary {ts : List Token} {e : Expression} (h : Derives t .primary ts e) : Derives t .unary ts e
  | paren {ts : List Token} {e : Expression} (h : Derives t .or ts e) :
      Derives t .primary ("(".toList :: (ts ++ [")".toList])) e
  | literal {token : Token} {e : Expression} (h : Literal token e) : Derives t .primary [token] e
  | comparison {lhs op rhs : Token} {c : Cond} (h : Comparison t lhs op rhs c) :
      Derives t .primary [lhs, op, rhs] (.atom c)

/-- A condition throws on no packet. -/
theorem Derives.total {t : CharTables} {level : Level} {ts : List Token} {e : Expression} (h : Derives t level ts e)
    (ctx : PacketInfo) : ∃ b, e.eval ctx = .ok b := by
  induction h with
  | ofAnd _ ih | ofUnary _ ih | ofPrimary _ ih | paren _ ih => exact ih
  | or _ _ ihl ihr =>
    obtain ⟨x, hx⟩ := ihl
    obtain ⟨y, hy⟩ := ihr
    cases x
    · exact ⟨y, by simp only [Expression.eval, hx, hy, bind, Except.bind, Bool.false_eq_true, if_false]⟩
    · exact ⟨true, by simp only [Expression.eval, hx, bind, Except.bind, if_true, pure, Except.pure]⟩
  | and _ _ ihl ihr =>
    obtain ⟨x, hx⟩ := ihl
    obtain ⟨y, hy⟩ := ihr
    cases x
    · exact ⟨false, by simp only [Expression.eval, hx, bind, Except.bind, Bool.false_eq_true, if_false, pure,
        Except.pure]⟩
    · exact ⟨y, by simp only [Expression.eval, hx, hy, bind, Except.bind, if_true]⟩
  | not _ ih =>
    obtain ⟨x, hx⟩ := ih
    exact ⟨!x, by simp only [Expression.eval, hx, bind, Except.bind, pure, Except.pure]⟩
  | literal h => cases h <;> exact ⟨_, rfl⟩
  | comparison h => exact h.total ctx

/-- The tokens are a whole condition. -/
def Derivable (t : CharTables) (ts : List Token) : Prop := ∃ e, Derives t .or ts e

/-- The tokens do not go on with `s`. -/
def NoNext (s : Token) (ts : List Token) : Prop := ∀ rest, ts ≠ s :: rest

theorem matchToken_some {s : Token} {ts rest : List Token} (h : matchToken s ts = some rest) : ts = s :: rest := by
  cases ts with
  | nil => cases h
  | cons token ts =>
    rw [matchToken] at h
    split_ifs at h with he
    cases h; rw [he]

theorem matchToken_none {s : Token} {ts : List Token} : matchToken s ts = none ↔ NoNext s ts := by
  cases ts with
  | nil => exact ⟨fun _ _ => nofun, fun _ => rfl⟩
  | cons token ts =>
    rw [matchToken]
    split_ifs with he
    · exact ⟨nofun, fun h => absurd rfl (he ▸ h ts)⟩
    · exact ⟨fun _ _ h => he (List.cons.inj h).1, fun _ => rfl⟩

@[simp] theorem matchToken_self (s : Token) (ts : List Token) : matchToken s (s :: ts) = some ts := if_pos rfl

theorem NoNext.cons {s token : Token} (h : token ≠ s) (ts : List Token) : NoNext s (token :: ts) :=
  fun _ he => h (List.cons.inj he).1

theorem Comparison.field {t : CharTables} {lhs op rhs : Token} {c : Cond} (h : Comparison t lhs op rhs c) :
    lhs ≠ "(".toList ∧ lhs ≠ "!".toList ∧ literalAtom lhs = none := by
  cases h with
  | protoEq | protoNe | hostnameIs | hostnameIsNot => decide
  | addressEq hf | addressNe hf | addressIn hf => cases hf <;> decide
  | number hf => cases hf <;> decide

theorem literalAtom_iff {token : Token} {e : Expression} : literalAtom token = some e ↔ Literal token e := by
  constructor
  · intro h
    unfold literalAtom at h
    split_ifs at h with h1 h2 h3 <;> cases h
    · subst h1; exact .true
    · subst h2; exact .false
    · subst h3; exact .tls
  · rintro ⟨⟩ <;> rfl

/-! ## What the parser reads is derivable -/

section Sound

variable {t : CharTables} {lineNumber : Nat}

theorem parseAtom_sound {ts : List Token} :
    SyntaxOnly lineNumber (parseAtom t lineNumber ts) ∧
    ∀ {e rest}, parseAtom t lineNumber ts = .ok (e, rest) → ∃ p, ts = p ++ rest ∧ Derives t .primary p e := by
  unfold parseAtom
  split
  · exact ⟨.fail _, nofun⟩
  · rename_i token rest
    split
    · rename_i e he
      refine ⟨.ok _, fun {e' rest'} h => ?_⟩
      cases h
      exact ⟨[token], rfl, .literal (literalAtom_iff.1 he)⟩
    · refine ⟨parseComparison_sound.1.bind fun _ _ => .ok _, fun {e rest'} h => ?_⟩
      obtain ⟨⟨c, r⟩, hc, h⟩ := bind_eq_ok h
      cases h
      obtain ⟨lhs, op, rhs, hts, hcomp⟩ := parseComparison_sound.2 hc
      exact ⟨[lhs, op, rhs], hts, .comparison hcomp⟩

/-- What each function of the parser reads, when it returns. -/
structure Sound (t : CharTables) (lineNumber fuel : Nat) : Prop where
  or : ∀ {ts e rest}, parseOr t lineNumber fuel ts = .ok (e, rest) →
    ∃ p, ts = p ++ rest ∧ Derives t .or p e ∧ NoNext "||".toList rest ∧ NoNext "&&".toList rest
  orLoop : ∀ {left ts e rest p}, parseOrLoop t lineNumber fuel left ts = .ok (e, rest) →
    NoNext "&&".toList ts → Derives t .or p left →
    ∃ q, ts = q ++ rest ∧ Derives t .or (p ++ q) e ∧ NoNext "||".toList rest ∧ NoNext "&&".toList rest
  and : ∀ {ts e rest}, parseAnd t lineNumber fuel ts = .ok (e, rest) →
    ∃ p, ts = p ++ rest ∧ Derives t .and p e ∧ NoNext "&&".toList rest
  andLoop : ∀ {left ts e rest p}, parseAndLoop t lineNumber fuel left ts = .ok (e, rest) →
    Derives t .and p left → ∃ q, ts = q ++ rest ∧ Derives t .and (p ++ q) e ∧ NoNext "&&".toList rest
  unary : ∀ {ts e rest}, parseUnary t lineNumber fuel ts = .ok (e, rest) →
    ∃ p, ts = p ++ rest ∧ Derives t .unary p e
  primary : ∀ {ts e rest}, parsePrimary t lineNumber fuel ts = .ok (e, rest) →
    ∃ p, ts = p ++ rest ∧ Derives t .primary p e

theorem sound (fuel : Nat) : Sound t lineNumber fuel := by
  induction fuel with
  | zero =>
    exact ⟨nofun, nofun, nofun, nofun, nofun, nofun⟩
  | succ fuel ih =>
    constructor
    case or =>
      intro ts e rest h
      rw [parseOr] at h
      obtain ⟨⟨left, mid⟩, hl, h'⟩ := bind_eq_ok h
      obtain ⟨p, rfl, hd, hn⟩ := ih.and hl
      obtain ⟨q, rfl, hd', hn'⟩ := ih.orLoop h' hn (.ofAnd hd)
      exact ⟨p ++ q, by simp, hd', hn'⟩
    case orLoop =>
      -- a round adds an operator and an operand to the tokens that were read so far
      intro left ts e rest p h hn hd
      rw [parseOrLoop] at h
      split at h
      · rename_i hm
        cases h
        exact ⟨[], rfl, by simpa using hd, matchToken_none.1 hm, hn⟩
      · rename_i us hm
        obtain ⟨⟨right, mid⟩, hr, h'⟩ := bind_eq_ok h
        obtain ⟨q, rfl, hq, hn'⟩ := ih.and hr
        obtain ⟨q', rfl, hd', hn''⟩ := ih.orLoop h' hn' (.or hd hq)
        exact ⟨"||".toList :: (q ++ q'), by rw [matchToken_some hm]; simp, by simpa using hd', hn''⟩
    case and =>
      intro ts e rest h
      rw [parseAnd] at h
      obtain ⟨⟨left, mid⟩, hl, h'⟩ := bind_eq_ok h
      obtain ⟨p, rfl, hd⟩ := ih.unary hl
      obtain ⟨q, rfl, hd', hn'⟩ := ih.andLoop h' (.ofUnary hd)
      exact ⟨p ++ q, by simp, hd', hn'⟩
    case andLoop =>
      intro left ts e rest p h hd
      rw [parseAndLoop] at h
      split at h
      · rename_i hm
        cases h
        exact ⟨[], rfl, by simpa using hd, matchToken_none.1 hm⟩
      · rename_i us hm
        obtain ⟨⟨right, mid⟩, hr, h'⟩ := bind_eq_ok h
        obtain ⟨q, rfl, hq⟩ := ih.unary hr
        obtain ⟨q', rfl, hd', hn''⟩ := ih.andLoop h' (.and hd hq)
        exact ⟨"&&".toList :: (q ++ q'), by rw [matchToken_some hm]; simp, by simpa using hd', hn''⟩
    case unary =>
      intro ts e rest h
      rw [parseUnary] at h
      split at h
      · rename_i us hm
        obtain ⟨⟨e', mid⟩, hu, h'⟩ := bind_eq_ok h
        cases h'
        obtain ⟨p, rfl, hd⟩ := ih.unary hu
        exact ⟨"!".toList :: p, matchToken_some hm, .not hd⟩
      · obtain ⟨p, rfl, hd⟩ := ih.primary h
        exact ⟨p, rfl, .ofPrimary hd⟩
    case primary =>
      intro ts e rest h
      rw [parsePrimary] at h
      split at h
      · rename_i us hm
        obtain ⟨⟨e', mid⟩, ho, h'⟩ := bind_eq_ok h
        obtain ⟨p, rfl, hd, -⟩ := ih.or ho
        dsimp only at h'
        split at h'
        · rename_i rest' hc
          cases h'
          exact ⟨"(".toList :: (p ++ [")".toList]), by rw [matchToken_some hm, matchToken_some hc]; simp, .paren hd⟩
        · cases h'
      · exact parseAtom_sound.2 h

theorem Derives.length_pos {level : Level} {ts : List Token} {e : Expression} (h : Derives t level ts e) :
    0 < ts.length := by
  induction h with
  | ofAnd _ ih | ofUnary _ ih | ofPrimary _ ih => exact ih
  | _ => simp

/-- With fuel for the tokens each function of the parser throws only syntax errors. -/
structure Fuelled (t : CharTables) (lineNumber fuel : Nat) : Prop where
  or : ∀ {ts}, 8 * ts.length + 4 ≤ fuel → SyntaxOnly lineNumber (parseOr t lineNumber fuel ts)
  orLoop : ∀ {left ts}, 8 * ts.length + 1 ≤ fuel → SyntaxOnly lineNumber (parseOrLoop t lineNumber fuel left ts)
  and : ∀ {ts}, 8 * ts.length + 3 ≤ fuel → SyntaxOnly lineNumber (parseAnd t lineNumber fuel ts)
  andLoop : ∀ {left ts}, 8 * ts.length + 1 ≤ fuel → SyntaxOnly lineNumber (parseAndLoop t lineNumber fuel left ts)
  unary : ∀ {ts}, 8 * ts.length + 2 ≤ fuel → SyntaxOnly lineNumber (parseUnary t lineNumber fuel ts)
  primary : ∀ {ts}, 8 * ts.length + 1 ≤ fuel → SyntaxOnly lineNumber (parsePrimary t lineNumber fuel ts)

theorem fuelled (fuel : Nat) : Fuelled t lineNumber fuel := by
  -- a token is worth eight calls; the constants are the calls down to the next token
  induction fuel with
  | zero => constructor <;> intros <;> omega
  | succ fuel ih =>
    constructor
    case or =>
      intro ts hf
      rw [parseOr]
      refine (ih.and (by omega)).bind fun ⟨left, mid⟩ hl => ih.orLoop ?_
      obtain ⟨p, rfl, hd, -⟩ := (sound fuel).and hl
      have := hd.length_pos
      simp only [List.length_append] at hf
      omega
    case orLoop =>
      intro left ts hf
      rw [parseOrLoop]
      split
      · exact .ok _
      · rename_i us hm
        rw [matchToken_some hm, List.length_cons] at hf
        refine (ih.and (by omega)).bind fun ⟨right, mid⟩ hr => ih.orLoop ?_
        obtain ⟨p, rfl, hd, -⟩ := (sound fuel).and hr
        simp only [List.length_append] at hf
        omega
    case and =>
      intro ts hf
      rw [parseAnd]
      refine (ih.unary (by omega)).bind fun ⟨left, mid⟩ hl => ih.andLoop ?_
      obtain ⟨p, rfl, hd⟩ := (sound fuel).unary hl
      have := hd.length_pos
      simp only [List.length_append] at hf
      omega
    case andLoop =>
      intro left ts hf
      rw [parseAndLoop]
      split
      · exact .ok _
      · rename_i us hm
        rw [matchToken_some hm, List.length_cons] at hf
        refine (ih.unary (by omega)).bind fun ⟨right, mid⟩ hr => ih.andLoop ?_
        obtain ⟨p, rfl, hd⟩ := (sound fuel).unary hr
        simp only [List.length_append] at hf
        omega
    case unary =>
      intro ts hf
      rw [parseUnary]
      split
      · rename_i us hm
        rw [matchToken_some hm, List.length_cons] at hf
        exact (ih.unary (by omega)).bind fun _ _ => .ok _
      · exact ih.primary (by omega)
    case primary =>
      intro ts hf
      rw [parsePrimary]
      split
      · rename_i us hm
        rw [matchToken_some hm, List.length_cons] at hf
        refine (ih.or (by omega)).bind fun ⟨e, mid⟩ _ => ?_
        dsimp only
        split
        · exact .ok _
        · exact .fail _
      · exact parseAtom_sound.1

end Sound

/-! ## What is derivable is read -/

/-- What the parser does on derivable tokens before any tokens it cannot take for their
continuation: for the looping levels, it comes to its loop with their expression. -/
def Reads (t : CharTables) (lineNumber : Nat) (p : List Token) (e : Expression) : Level → Prop
  | .or => ∀ rest fuel, NoNext "&&".toList rest → 8 * p.length + 4 ≤ fuel →
      ∃ fuel', fuel ≤ fuel' + 8 * p.length ∧
        parseOr t lineNumber fuel (p ++ rest) = parseOrLoop t lineNumber fuel' e rest
  | .and => ∀ rest fuel, 8 * p.length + 3 ≤ fuel →
      ∃ fuel', fuel ≤ fuel' + 8 * p.length ∧
        parseAnd t lineNumber fuel (p ++ rest) = parseAndLoop t lineNumber fuel' e rest
  | .unary => ∀ rest fuel, 8 * p.length + 2 ≤ fuel → parseUnary t lineNumber fuel (p ++ rest) = .ok (e, rest)
  | .primary => ∀ rest fuel, 8 * p.length + 1 ≤ fuel → parsePrimary t lineNumber fuel (p ++ rest) = .ok (e, rest)

section Complete

variable {t : CharTables} {lineNumber : Nat}

theorem parseOrLoop_stop {fuel : Nat} {ts : List Token} (e : Expression) (hf : 0 < fuel) (h : NoNext "||".toList ts) :
    parseOrLoop t lineNumber fuel e ts = .ok (e, ts) := by
  obtain ⟨fuel, rfl⟩ := Nat.exists_eq_add_one_of_ne_zero (show fuel ≠ 0 by omega)
  rw [parseOrLoop, matchToken_none.2 h]

theorem parseAndLoop_stop {fuel : Nat} {ts : List Token} (e : Expression) (hf : 0 < fuel) (h : NoNext "&&".toList ts) :
    parseAndLoop t lineNumber fuel e ts = .ok (e, ts) := by
  obtain ⟨fuel, rfl⟩ := Nat.exists_eq_add_one_of_ne_zero (show fuel ≠ 0 by omega)
  rw [parseAndLoop, matchToken_none.2 h]

theorem Reads.parseAnd {p rest : List Token} {e : Expression} {fuel : Nat} (h : Reads t lineNumber p e .and)
    (hn : NoNext "&&".toList rest) (hf : 8 * p.length + 3 ≤ fuel) :
    parseAnd t lineNumber fuel (p ++ rest) = .ok (e, rest) := by
  obtain ⟨fuel', hf', he⟩ := h rest fuel hf
  rw [he, parseAndLoop_stop e (by omega) hn]

theorem parseAtom_literal {token : Token} {e : Expression} (h : Literal token e) (rest : List Token) :
    parseAtom t lineNumber (token :: rest) = .ok (e, rest) := by
  rw [parseAtom, literalAtom_iff.2 h]

theorem parseAtom_comparison {lhs op rhs : Token} {c : Cond} (h : Comparison t lhs op rhs c) (rest : List Token) :
    parseAtom t lineNumber (lhs :: op :: rhs :: rest) = .ok (.atom c, rest) := by
  rw [parseAtom, h.field.2.2, parseComparison_complete h]; rfl

theorem parsePrimary_atom {fuel : Nat} {token : Token} {ts : List Token} (hf : 0 < fuel) (h : token ≠ "(".toList) :
    parsePrimary t lineNumber fuel (token :: ts) = parseAtom t lineNumber (token :: ts) := by
  obtain ⟨fuel, rfl⟩ := Nat.exists_eq_add_one_of_ne_zero (show fuel ≠ 0 by omega)
  rw [parsePrimary, matchToken_none.2 (.cons h ts)]

theorem Literal.ne {token : Token} {e : Expression} (h : Literal token e) :
    token ≠ "(".toList ∧ token ≠ "!".toList := by
  cases h <;> decide

/-- A primary condition does not start with `!`. -/
theorem Derives.noNot {ts : List Token} {e : Expression} (h : Derives t .primary ts e) (rest : List Token) :
    NoNext "!".toList (ts ++ rest) := by
  cases h with
  | paren => exact .cons (by decide) _
  | literal h => exact .cons h.ne.2 _
  | comparison h => exact .cons h.field.2.1 _

theorem Derives.reads {level : Level} {p : List Token} {e : Expression} (h : Derives t level p e) :
    Reads t lineNumber p e level := by
  induction h with
  | @ofAnd p e h ih =>
    intro rest fuel hn hf
    obtain ⟨fuel, rfl⟩ := Nat.exists_eq_add_one_of_ne_zero (show fuel ≠ 0 by omega)
    have := h.length_pos
    refine ⟨fuel, by omega, ?_⟩
    rw [parseOr, ih.parseAnd hn (by omega)]; rfl
  | @or p q l r hl hr ihl ihr =>
    intro rest fuel hn hf
    simp only [List.length_append, List.length_cons] at hf ⊢
    -- the left side ends in the loop, which takes the operator and then the right side
    obtain ⟨fuel', hf', he⟩ := ihl ("||".toList :: (q ++ rest)) fuel (.cons (by decide) _) (by omega)
    obtain ⟨fuel', rfl⟩ := Nat.exists_eq_add_one_of_ne_zero (show fuel' ≠ 0 by omega)
    refine ⟨fuel', by omega, ?_⟩
    rw [List.append_assoc, List.cons_append, he, parseOrLoop, matchToken_self]
    dsimp only
    rw [ihr.parseAnd hn (by omega)]; rfl
  -- each level hands the tokens down, and takes one unit of fuel
  | @ofUnary p e h ih =>
    intro rest fuel hf
    obtain ⟨fuel, rfl⟩ := Nat.exists_eq_add_one_of_ne_zero (show fuel ≠ 0 by omega)
    have := h.length_pos
    refine ⟨fuel, by omega, ?_⟩
    rw [parseAnd, ih rest fuel (by omega)]; rfl
  | @and p q l r hl hr ihl ihr =>
    intro rest fuel hf
    simp only [List.length_append, List.length_cons] at hf ⊢
    obtain ⟨fuel', hf', he⟩ := ihl ("&&".toList :: (q ++ rest)) fuel (by omega)
    obtain ⟨fuel', rfl⟩ := Nat.exists_eq_add_one_of_ne_zero (show fuel' ≠ 0 by omega)
    refine ⟨fuel', by omega, ?_⟩
    rw [List.append_assoc, List.cons_append, he, parseAndLoop, matchToken_self]
    dsimp only
    rw [ihr rest fuel' (by omega)]; rfl
  | @not p e h ih =>
    intro rest fuel hf
    simp only [List.length_cons] at hf
    obtain ⟨fuel, rfl⟩ := Nat.exists_eq_add_one_of_ne_zero (show fuel ≠ 0 by omega)
    rw [List.cons_append, parseUnary, matchToken_self]
    dsimp only
    rw [ih rest fuel (by omega)]; rfl
  | @ofPrimary p e h ih =>
    intro rest fuel hf
    obtain ⟨fuel, rfl⟩ := Nat.exists_eq_add_one_of_ne_zero (show fuel ≠ 0 by omega)
    rw [parseUnary, matchToken_none.2 (h.noNot rest)]
    exact ih rest fuel (by omega)
  -- between parentheses the loop stops at the closing one
  | @paren p e h ih =>
    intro rest fuel hf
    simp only [List.length_cons, List.length_append, List.length_nil] at hf
    obtain ⟨fuel, rfl⟩ := Nat.exists_eq_add_one_of_ne_zero (show fuel ≠ 0 by omega)
    obtain ⟨fuel', hf', he⟩ := ih (")".toList :: rest) fuel (.cons (by decide) _) (by omega)
    rw [List.cons_append, List.append_assoc, parsePrimary, matchToken_self]
    dsimp only
    rw [List.singleton_append, he, parseOrLoop_stop e (by omega) (.cons (by decide) _)]
    simp only [bind, Except.bind, matchToken_self]
    rfl
  | literal h =>
    intro rest fuel hf
    rw [List.singleton_append, parsePrimary_atom (by omega) h.ne.1, parseAtom_literal h]
  | comparison h =>
    intro rest fuel hf
    rw [List.cons_append, parsePrimary_atom (by omega) h.field.1]
    exact parseAtom_comparison h rest

/-! ## Whole token lists -/

/-- `parseOr` reads exactly the derivable beginnings that are not followed by `||` or `&&`. -/
theorem parseOr_iff {ts rest : List Token} {e : Expression} :
    parseOr t lineNumber (fuelFor ts) ts = .ok (e, rest) ↔
      ∃ p, ts = p ++ rest ∧ Derives t .or p e ∧ NoNext "||".toList rest ∧ NoNext "&&".toList rest := by
  constructor
  · exact (sound _).or
  · rintro ⟨p, rfl, hd, h1, h2⟩
    have hf : 8 * p.length + 8 ≤ fuelFor (p ++ rest) := by simp [fuelFor]
    have hr : Reads t lineNumber p e .or := hd.reads
    obtain ⟨fuel', hf', he⟩ := hr rest (fuelFor (p ++ rest)) h2 (by omega)
    rw [he, parseOrLoop_stop e (by omega) h1]

/-- Parsing throws only syntax errors, at its own line. -/
theorem parse_syntaxOnly (ts : List Token) : SyntaxOnly lineNumber (parse t lineNumber ts) := by
  unfold parse
  split
  · exact .ok _
  · exact ((fuelled _).or (by simp [fuelFor])).bind fun _ _ => .ok _

/-- Tokens that are a whole condition are parsed to its expression. -/
theorem parse_of_derives {ts : List Token} {e : Expression} (h : Derives t .or ts e) :
    parse t lineNumber ts = .ok e := by
  have hne : ts.isEmpty = false := by
    cases ts with
    | nil => exact absurd h.length_pos (by simp)
    | cons => rfl
  have ho : parseOr t lineNumber (fuelFor ts) ts = .ok (e, []) :=
    parseOr_iff.2 ⟨ts, by simp, h, fun _ => nofun, fun _ => nofun⟩
  rw [parse, hne, if_neg (by decide), ho]; rfl

/-- What is parsed throws on no packet. -/
theorem total_of_parse {ts : List Token} {e : Expression} (h : parse t lineNumber ts = .ok e) (ctx : PacketInfo) :
    ∃ b, e.eval ctx = .ok b := by
  unfold parse at h
  split at h
  · cases h
    exact ⟨true, rfl⟩
  · obtain ⟨⟨e', rest⟩, hor, h⟩ := bind_eq_ok h
    cases h
    obtain ⟨p, -, hd, -, -⟩ := parseOr_iff.1 hor
    exact hd.total ctx

/-- A condition stands at the beginning of the tokens, with something after it that does not
continue it. -/
def HasUnreadTail (t : CharTables) (ts : List Token) : Prop :=
  ∃ p rest, ts = p ++ rest ∧ rest ≠ [] ∧ Derivable t p ∧ NoNext "||".toList rest ∧ NoNext "&&".toList rest

/-- Parsing succeeds on the empty list, on whole conditions, and on those with an unread tail. -/
theorem parse_ok_iff {ts : List Token} :
    (∃ e, parse t lineNumber ts = .ok e) ↔ ts = [] ∨ Derivable t ts ∨ HasUnreadTail t ts := by
  constructor
  · rintro ⟨e, h⟩
    unfold parse at h
    split at h
    · rename_i h0; exact .inl (List.isEmpty_iff.1 h0)
    · obtain ⟨⟨e', rest⟩, ho, h⟩ := bind_eq_ok h
      obtain ⟨p, hp, hd, hn⟩ := parseOr_iff.1 ho
      by_cases hr : rest = []
      · exact .inr (.inl ⟨e', by rw [hp, hr, List.append_nil]; exact hd⟩)
      · exact .inr (.inr ⟨p, rest, hp, hr, ⟨e', hd⟩, hn⟩)
  · rintro (rfl | ⟨e, h⟩ | ⟨p, rest, rfl, hr, ⟨e, hd⟩, hn⟩)
    · exact ⟨_, rfl⟩
    · exact ⟨e, parse_of_derives h⟩
    · refine ⟨e, ?_⟩
      rw [parse, if_neg (by simp [hr]), parseOr_iff.2 ⟨p, rfl, hd, hn⟩]; rfl

/-- A whole condition has no unread tail. -/
theorem not_hasUnreadTail_of_derivable {ts : List Token} (h : Derivable t ts) : ¬ HasUnreadTail t ts := by
  rintro ⟨p, rest, hp, hr, ⟨e, hd⟩, hn⟩
  obtain ⟨e', h⟩ := h
  have h1 : parseOr t 0 (fuelFor ts) ts = .ok (e, rest) := parseOr_iff.2 ⟨p, hp, hd, hn⟩
  have h2 : parseOr t 0 (fuelFor ts) ts = .ok (e', []) :=
    parseOr_iff.2 ⟨ts, (List.append_nil ts).symm, h, fun _ => nofun, fun _ => nofun⟩
  rw [h1] at h2
  cases h2
  exact hr rfl

/-- Parsing succeeds on the empty list and on the whole conditions only, and otherwise throws a
syntax error. -/
def ParsesConditions (t : CharTables) (lineNumber : Nat) (ts : List Token) : Prop :=
  ((∃ e, parse t lineNumber ts = .ok e) ↔ ts = [] ∨ Derivable t ts) ∧ SyntaxOnly lineNumber (parse t lineNumber ts)

/-- The parser is exact on the token lists that have no unread tail. -/
theorem parsesConditions_iff (ts : List Token) : ParsesConditions t lineNumber ts ↔ ¬ HasUnreadTail t ts := by
  refine ⟨fun ⟨h, _⟩ hu => ?_, fun hu => ⟨?_, parse_syntaxOnly ts⟩⟩
  · rcases h.1 (parse_ok_iff.2 (.inr (.inr hu))) with rfl | hd
    · obtain ⟨p, rest, hp, hr, -⟩ := hu
      exact hr (List.append_eq_nil_iff.1 hp.symm).2
    · exact not_hasUnreadTail_of_derivable hd hu
  · rw [parse_ok_iff]
    exact ⟨fun h => h.imp_right fun h => h.resolve_right hu, fun h => h.imp_right .inl⟩

end Complete

/-- `true )` is parsed, and is no condition. -/
theorem not_parsesConditions_trueParen : ¬ ∀ (t : CharTables) (lineNumber : Nat) (ts : List Token),
    ParsesConditions t lineNumber ts := by
  intro h
  have hu : HasUnreadTail .ascii ["true".toList, ")".toList] :=
    ⟨["true".toList], [")".toList], rfl, by decide, ⟨_, .ofAnd (.ofUnary (.ofPrimary (.literal .true)))⟩,
      .cons (by decide) _, .cons (by decide) _⟩
  rcases (h .ascii 1 _).1.1 (parse_ok_iff.2 (.inr (.inr hu))) with h0 | hd
  · cases h0
  · exact not_hasUnreadTail_of_derivable hd hu

end SunProxy.Redirect
