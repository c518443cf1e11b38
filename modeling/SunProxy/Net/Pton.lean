/-
`inet_pton`: the address a text stands for, `none` when it returns 0 and leaves the address alone.
-/
import SunProxy.Net.Ntop

namespace SunProxy.Net

open SunProxy.Kotlin SunProxy.Seq SunProxy.Utils

def isDecimal (c : Char) : Bool := '0'.toNat ≤ c.toNat && c.toNat ≤ '9'.toNat

/-- A decimal byte: no leading zero, at most 255. -/
def ptonPart (p : Str) : Option UInt8 :=
  if (1 ≤ p.length && p.length ≤ 3) && p.all isDecimal && (p.length == 1 || p.head? != some '0') &&
      digitsNat 10 p ≤ 255 then
    some (UInt8.ofNat (digitsNat 10 p))
  else none

/-- `inet_pton(AF_INET, s)` -/
def inetPton4 (s : Str) : Option (List UInt8) :=
  match split '.' s with
  | [a, b, c, d] => do return [← ptonPart a, ← ptonPart b, ← ptonPart c, ← ptonPart d]
  | _ => none

/-- The bytes of colon-separated groups; with `dotted`, the last may be an IPv4 text. -/
def ptonGroups (dotted : Bool) : List Str → Option (List UInt8)
  | [] => some []
  | [g] => if isGroup g then some (groupBytes g) else if dotted then inetPton4 g else none
  | g :: gs => if isGroup g then (ptonGroups dotted gs).map (groupBytes g ++ ·) else none

/-- `inet_pton(AF_INET6, s)`; `::` stands for at least one group. -/
def inetPton6 (s : Str) : Option (List UInt8) :=
  match splitWord "::".toList s with
  | [l] => (ptonGroups true (groupsOf l)).filter (·.length = 16)
  | [l, r] => do
    let front ← ptonGroups false (groupsOf l)
    let back ← ptonGroups true (groupsOf r)
    if front.length + back.length ≤ 14 then
      return front ++ List.replicate (16 - (front.length + back.length)) 0 ++ back
    else none
  | _ => none

/-- `inet_pton` of the family of an IP version. -/
def inetPton (version : Nat) (s : Str) : Option (List UInt8) := if version = 4 then inetPton4 s else inetPton6 s

example : inetPton 6 "64:ff9b::10.0.0.1".toList = some [0, 0x64, 0xFF, 0x9B, 0, 0, 0, 0, 0, 0, 0, 0, 10, 0, 0, 1] := by
  decide

/-! ## The length of an address -/

theorem inetPton4_length {s : Str} {b : List UInt8} (h : inetPton4 s = some b) : b.length = 4 := by
  unfold inetPton4 at h
  split at h
  · simp only [bind, Option.bind_eq_some_iff, pure, Option.some.injEq] at h
    obtain ⟨_, -, _, -, _, -, _, -, rfl⟩ := h
    rfl
  · cases h

theorem inetPton6_length {s : Str} {b : List UInt8} (h : inetPton6 s = some b) : b.length = 16 := by
  unfold inetPton6 at h
  split at h
  · simpa using (Option.filter_eq_some_iff.1 h).2
  · simp only [bind, Option.bind_eq_some_iff, pure] at h
    obtain ⟨front, -, back, -, h⟩ := h
    split_ifs at h with hle
    obtain rfl := Option.some.inj h
    simp only [List.length_append, List.length_replicate]
    omega
  · cases h

theorem inetPton_length {version : Nat} {s : Str} {b : List UInt8} (h : inetPton version s = some b) :
    b.length = if version = 4 then 4 else 16 := by
  unfold inetPton at h
  split_ifs at h ⊢
  · exact inetPton4_length h
  · exact inetPton6_length h

end SunProxy.Net
