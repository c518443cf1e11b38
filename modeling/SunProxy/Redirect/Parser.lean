/-
`RedirectRule.Parser`: the comparisons and the recursive descent over them. The parser's position
in the token list is the list of tokens still to read. Every call of the recursion takes a unit of
fuel, and `fuelFor` is more than a token list can use.
-/
import SunProxy.Redirect.Syntax

namespace SunProxy.Redirect

open SunProxy.Kotlin SunProxy.Utils

abbrev Token := Str

/-- Throwing a `SyntaxError`. -/
def fail {α : Type} (lineNumber : Nat) (kind : ErrorKind) : Except Thrown α :=
  .error (.syntaxError ⟨lineNumber, kind⟩)

section Parser

variable (t : CharTables) (lineNumber : Nat)

/-! ## Comparisons -/

def parseProtocolComparison (op rhs : Token) : Except Thrown Cond :=
  if rhs ≠ "tcp".toList ∧ rhs ≠ "udp".toList ∧ rhs ≠ "icmp".toList then
    fail lineNumber (.invalidProtocolError rhs)
  else if op = "==".toList then .ok fun ctx => .ok (ctx.proto == rhs)
  else if op = "!=".toList then .ok fun ctx => .ok (ctx.proto != rhs)
  else fail lineNumber (.invalidOperatorError op)

def parseHostnameComparison (op rhs : Token) : Except Thrown Cond :=
  if !isValidDomainWildcard t rhs then fail lineNumber (.invalidHostnameWildcardError rhs)
  else do
    let regex ← liftJava (domainWildcardToRegex rhs)
    if op = "=~".toList then return fun ctx => .ok (regex.matches t ctx.hostname)
    else if op = "!~".toList then return fun ctx => .ok (!regex.matches t ctx.hostname)
    else fail lineNumber (.invalidOperatorError op)

def addressComparison (op rhs : Token) (extract : PacketInfo → Str) : Except Thrown Cond :=
  if op = "==".toList then .ok fun ctx => .ok (extract ctx == rhs)
  else if op = "!=".toList then .ok fun ctx => .ok (extract ctx != rhs)
  else if op = "in".toList then .ok fun ctx => isIpInRange t (extract ctx) rhs
  else fail lineNumber (.invalidOperatorError op)

/-- The checks `parseAddressComparison` makes on the operand before it looks at the field. -/
def checkAddressOperand (op rhs : Token) : Except Thrown Unit :=
  if op = "in".toList then
    if !isValidIpRange t rhs then fail lineNumber (.invalidIpRangeError rhs) else .ok ()
  else if op = "==".toList ∨ op = "!=".toList then
    if !isValidIp t rhs then fail lineNumber (.invalidIpAddressError rhs) else .ok ()
  else fail lineNumber (.invalidOperatorError op)

def parseAddressComparison (field op rhs : Token) : Except Thrown Cond := do
  checkAddressOperand t lineNumber op rhs
  if field = "daddr".toList then addressComparison t lineNumber op rhs (·.daddr)
  else if field = "saddr".toList then addressComparison t lineNumber op rhs (·.saddr)
  else fail lineNumber (.invalidFieldError field)

def numberComparison (op : Token) (rhs : Int) (extract : PacketInfo → Int) : Except Thrown Cond :=
  if op = "==".toList then .ok fun ctx => .ok (extract ctx == rhs)
  else if op = "!=".toList then .ok fun ctx => .ok (extract ctx != rhs)
  else if op = "<".toList then .ok fun ctx => .ok (decide (extract ctx < rhs))
  else if op = "<=".toList then .ok fun ctx => .ok (decide (extract ctx ≤ rhs))
  else if op = ">".toList then .ok fun ctx => .ok (decide (extract ctx > rhs))
  else if op = ">=".toList then .ok fun ctx => .ok (decide (extract ctx ≥ rhs))
  else fail lineNumber (.invalidOperatorError op)

def parseNumberComparison (field op rhs : Token) : Except Thrown Cond :=
  match toIntOrNull t 10 rhs with
  | none => fail lineNumber (.syntaxError ("Invalid port ".toList ++ rhs))
  | some rhsInt =>
    if field = "dport".toList then numberComparison lineNumber op rhsInt (·.dport)
    else if field = "sport".toList then numberComparison lineNumber op rhsInt (·.sport)
    else if field = "uid".toList then numberComparison lineNumber op rhsInt (·.uid)
    else fail lineNumber (.invalidFieldError field)

/-- The choice by field in `parseComparison`. -/
def parseFieldComparison (lhs op rhs : Token) : Except Thrown Cond :=
  if lhs = "proto".toList then parseProtocolComparison lineNumber op rhs
  else if lhs = "hostname".toList then parseHostnameComparison t lineNumber op rhs
  else if lhs = "daddr".toList ∨ lhs = "saddr".toList then parseAddressComparison t lineNumber lhs op rhs
  else if lhs = "dport".toList ∨ lhs = "sport".toList ∨ lhs = "uid".toList then
    parseNumberComparison t lineNumber lhs op rhs
  else fail lineNumber (.syntaxError ("Unknown field ".toList ++ lhs))

def parseComparison : List Token → Except Thrown (Cond × List Token)
  | lhs :: op :: rhs :: rest => do
    let cond ← parseFieldComparison t lineNumber lhs op rhs
    return (cond, rest)
  | _ => fail lineNumber .unexpectedEndError

/-! ## The recursive descent -/

/-- `match(s)`: the tokens after `s` when it is the next one. -/
def matchToken (s : Token) : List Token → Option (List Token)
  | token :: rest => if token = s then some rest else none
  | [] => none

/-- `literalAtoms` -/
def literalAtom (token : Token) : Option Expression :=
  if token = "true".toList then some (.constant true)
  else if token = "false".toList then some (.constant false)
  else if token = "tls".toList then some .tls
  else none

def parseAtom : List Token → Except Thrown (Expression × List Token)
  | [] => fail lineNumber .unexpectedEndError
  | token :: rest =>
    match literalAtom token with
    | some e => .ok (e, rest)
    | none => do
      let (cond, rest) ← parseComparison t lineNumber (token :: rest)
      return (.atom cond, rest)

mutual

def parseOr : Nat → List Token → Except Thrown (Expression × List Token)
  | 0, _ => .error .outOfFuel
  | fuel + 1, ts => do
    let (left, rest) ← parseAnd fuel ts
    parseOrLoop fuel left rest

/-- The loop of `parseOr`. -/
def parseOrLoop : Nat → Expression → List Token → Except Thrown (Expression × List Token)
  | 0, _, _ => .error .outOfFuel
  | fuel + 1, left, ts =>
    match matchToken "||".toList ts with
    | none => .ok (left, ts)
    | some rest => do
      let (right, rest) ← parseAnd fuel rest
      parseOrLoop fuel (.or left right) rest

def parseAnd : Nat → List Token → Except Thrown (Expression × List Token)
  | 0, _ => .error .outOfFuel
  | fuel + 1, ts => do
    let (left, rest) ← parseUnary fuel ts
    parseAndLoop fuel left rest

/-- The loop of `parseAnd`. -/
def parseAndLoop : Nat → Expression → List Token → Except Thrown (Expression × List Token)
  | 0, _, _ => .error .outOfFuel
  | fuel + 1, left, ts =>
    match matchToken "&&".toList ts with
    | none => .ok (left, ts)
    | some rest => do
      let (right, rest) ← parseUnary fuel rest
      parseAndLoop fuel (.and left right) rest

def parseUnary : Nat → List Token → Except Thrown (Expression × List Token)
  | 0, _ => .error .outOfFuel
  | fuel + 1, ts =>
    match matchToken "!".toList ts with
    | some rest => do
      let (e, rest) ← parseUnary fuel rest
      return (.not e, rest)
    | none => parsePrimary fuel ts

def parsePrimary : Nat → List Token → Except Thrown (Expression × List Token)
  | 0, _ => .error .outOfFuel
  | fuel + 1, ts =>
    match matchToken "(".toList ts with
    | some rest => do
      -- `parse()` tests the whole token list for emptiness, and there was a `(` in it
      let (e, rest) ← parseOr fuel rest
      match matchToken ")".toList rest with
      | some rest => return (e, rest)
      | none => fail lineNumber .unexpectedEndError
    | none => parseAtom t lineNumber ts

end

/-- More fuel than the recursion over the tokens can use. -/
def fuelFor (ts : List Token) : Nat := 8 * ts.length + 8

/-- `Parser.parse(lineNumber, tokens)` -/
def parse (tokens : List Token) : Except Thrown Expression :=
  if tokens.isEmpty then .ok (.constant true)
  else do
    let (e, _) ← parseOr t lineNumber (fuelFor tokens) tokens
    return e

end Parser

end SunProxy.Redirect
