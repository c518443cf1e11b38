/-
The data of `RedirectRule`: servers, packets, the errors with their messages, and conditions with
their evaluation.
-/
import SunProxy.Utils.Denotes
import SunProxy.Utils.Wildcard

namespace SunProxy.Redirect

open SunProxy.Kotlin SunProxy.Utils

/-! ## Errors -/

/-- `SyntaxError` and its subclasses, each with what it is built from. -/
inductive ErrorKind
  | syntaxError (innerMessage : Str)
  | unexpectedEndError
  | invalidProtocolError (got : Str)
  | invalidOperatorError (got : Str)
  | invalidHostnameWildcardError (got : Str)
  | invalidIpRangeError (got : Str)
  | invalidIpAddressError (got : Str)
  | invalidFieldError (got : Str)
  deriving DecidableEq, Repr

def ErrorKind.innerMessage : ErrorKind → Str
  | .syntaxError m => m
  | .unexpectedEndError => "Unexpected end of expression".toList
  | .invalidProtocolError got => "Invalid protocol: ".toList ++ got
  | .invalidOperatorError got => "Invalid operator: ".toList ++ got
  | .invalidHostnameWildcardError got => "Invalid hostname wildcard: ".toList ++ got
  | .invalidIpRangeError got => "Invalid IP range: ".toList ++ got
  | .invalidIpAddressError got => "Invalid IP address: ".toList ++ got
  | .invalidFieldError got => "Invalid field: ".toList ++ got

structure SyntaxError where
  lineNumber : Nat
  kind : ErrorKind
  deriving DecidableEq, Repr

/-- What compiling a rule can throw. A recursion of the parser that runs out of fuel is kept apart:
it is shown never to happen. -/
inductive Thrown
  | syntaxError (e : SyntaxError)
  | exception (e : JavaException)
  | outOfFuel
  deriving DecidableEq, Repr

/-- An exception of a library call. -/
def liftJava {α : Type} : Except JavaException α → Except Thrown α
  | .ok a => .ok a
  | .error e => .error (.exception e)

/-! ## Servers and packets -/

structure Server where
  address : Str
  port : Int
  tls : Bool
  deriving DecidableEq, Repr

def Server.fromString (t : CharTables) (lineNumber : Nat) (s : Str) : Except Thrown Server := do
  match ← liftJava (ipAndPort t s) with
  | none => throw (.syntaxError ⟨lineNumber, .syntaxError ("Invalid address and port: ".toList ++ s)⟩)
  | some (address, port) => return ⟨address, port, false⟩

theorem fromString_eq_ok {t : CharTables} {n : Nat} {s : Str} {server : Server}
    (h : Server.fromString t n s = .ok server) :
    ipAndPort t s = .ok (some (server.address, server.port)) ∧ server.tls = false := by
  unfold Server.fromString at h
  cases hi : ipAndPort t s with
  | error e => rw [hi] at h; cases h
  | ok r =>
    rw [hi] at h
    cases r with
    | none => cases h
    | some r => cases h; exact ⟨rfl, rfl⟩

structure PacketInfo where
  proto : Str
  hostname : Str
  daddr : Str
  saddr : Str
  dport : Int
  sport : Int
  tls : Bool
  uid : Int
  deriving DecidableEq, Repr

/-! ## Conditions -/

/-- A comparison of a packet's field. -/
abbrev Cond := PacketInfo → Except JavaException Bool

inductive Expression
  | not (e : Expression)
  | and (l r : Expression)
  | or (l r : Expression)
  | atom (cond : Cond)

namespace Expression

def eval : Expression → PacketInfo → Except JavaException Bool
  | .not e, p => do return !(← e.eval p)
  | .and l r, p => do if ← l.eval p then r.eval p else return false
  | .or l r, p => do if ← l.eval p then return true else r.eval p
  | .atom cond, p => cond p

/-- `Expression.True` and `Expression.False` -/
def constant (b : Bool) : Expression := .atom fun _ => .ok b

def tls : Expression := .atom fun p => .ok p.tls

end Expression

end SunProxy.Redirect
