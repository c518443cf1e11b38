/-
The address checks of `Utils`: `isValidIpv4`, `isValidIpv6`, and the parsers of `address:port`
texts. `ipv6AndPort` indexes its argument before it knows the index is there: the texts on which
it throws are exactly the empty one and a bracketed text with nothing after its `]`.
-/
import SunProxy.Kotlin.Text
import Mathlib.Data.List.Count

namespace SunProxy.Utils

open SunProxy.Kotlin SunProxy.Seq

/-! ## IPv4 texts -/

/-- One iteration of the loop over the parts in `isValidIpv4`. -/
def isValidIpv4Part (t : CharTables) (part : Str) : Bool :=
  if part.isEmpty || (3 < part.length || (part.head? == some '0' && 1 < part.length)) then false
  else match toIntOrNull t 10 part with
    | none => false
    | some num => !(num < 0 || 255 < num)

def isValidIpv4 (t : CharTables) (address : Str) : Bool :=
  if address.isEmpty then false
  else
    let parts := split '.' address
    if parts.length ≠ 4 then false else parts.all (isValidIpv4Part t)

/-- The port checks that `ipv4AndPort` and `ipv6AndPort` share. -/
def parsePort (t : CharTables) (s : Str) : Option Int :=
  match toIntOrNull t 10 s with
  | none => none
  | some port => if port < 1 || 65535 < port then none else some port

def ipv4AndPort (t : CharTables) (s : Str) : Option (Str × Int) :=
  match split2 ':' s with
  | [address, p] =>
    match parsePort t p with
    | none => none
    | some port => if !isValidIpv4 t address then none else some (address, port)
  | _ => none

/-! ## IPv6 texts -/

def isHexDigit (c : Char) : Bool :=
  ('0' ≤ c && c ≤ '9') || (('a' ≤ c && c ≤ 'f') || ('A' ≤ c && c ≤ 'F'))

def isGroup (g : Str) : Bool := (1 ≤ g.length && g.length ≤ 4) && g.all isHexDigit

def areAllBytes (s : Str) : Bool := s.isEmpty || (split ':' s).all isGroup

def isValidIpv6 (address : Str) : Bool :=
  if address.isEmpty then false
  else if address = "::".toList then true
  else
    let colonCount := address.count ':'
    if colonCount < 2 || 7 < colonCount then false
    else if contains "::".toList address then
      if colonCount = 7 then false
      else match splitWord "::".toList address with
        | [l, r] => areAllBytes l && areAllBytes r
        | _ => false
    else colonCount == 7 && areAllBytes address

def isValidIp (t : CharTables) (address : Str) : Bool := isValidIpv4 t address || isValidIpv6 address

def ipv6AndPort (t : CharTables) (s : Str) : Except JavaException (Option (Str × Int)) := do
  let c ← charAt s 0
  if c ≠ '[' then return none
  match s.idxOf? ']' with
  | none => return none
  | some closingBracketIndex =>
    let d ← charAt s (closingBracketIndex + 1)
    if d ≠ ':' then return none
    let p ← substringFrom s (closingBracketIndex + 2)
    match parsePort t p with
    | none => return none
    | some port =>
      let address ← substring s 1 closingBracketIndex
      if !isValidIpv6 address then return none
      return some (address, port)

def ipAndPort (t : CharTables) (s : Str) : Except JavaException (Option (Str × Int)) :=
  match ipv4AndPort t s with
  | some r => .ok (some r)
  | none => ipv6AndPort t s

/-! ## Ranges -/

/-- `isValidIpv4Range` and `isValidIpv6Range`, which differ in the length and the address check. -/
def isValidRange (t : CharTables) (maxBits : Int) (isValid : Str → Bool) (s : Str) : Bool :=
  if s.isEmpty then false
  else match split2 '/' s with
    | [address, b] =>
      match toIntOrNull t 10 b with
      | none => false
      | some bits => if bits < 0 || maxBits < bits then false else isValid address
    | _ => false

def isValidIpv4Range (t : CharTables) (s : Str) : Bool := isValidRange t 32 (isValidIpv4 t) s

def isValidIpv6Range (t : CharTables) (s : Str) : Bool := isValidRange t 128 isValidIpv6 s

def isValidIpRange (t : CharTables) (s : Str) : Bool := isValidIpv4Range t s || isValidIpv6Range t s

/-! ## Where the parser of bracketed addresses throws -/

/-- The empty text, or a bracketed text that ends with its first `]`. -/
inductive Unindexable : Str → Prop
  | empty : Unindexable []
  | bracket {p : Str} (h : ']' ∉ p) : Unindexable ('[' :: (p ++ [']']))

theorem idxOf?_append {p : Str} (h : ']' ∉ p) (r : Str) : (p ++ ']' :: r).idxOf? ']' = some p.length := by
  induction p with
  | nil => simp [List.idxOf?_cons]
  | cons c p ih =>
    simp only [List.mem_cons, not_or] at h
    simp [List.idxOf?_cons, ih h.2, Ne.symm h.1]

theorem ipv6AndPort_bracket (t : CharTables) {p : Str} (h : ']' ∉ p) (r : Str) :
    ipv6AndPort t ('[' :: (p ++ ']' :: r)) = match r with
      | [] => .error .stringIndexOutOfBounds
      | c :: q =>
        if c ≠ ':' then .ok none
        else match parsePort t q with
          | none => .ok none
          | some port => if isValidIpv6 p then .ok (some (p, port)) else .ok none := by
  have hi : ('[' :: (p ++ ']' :: r)).idxOf? ']' = some (p.length + 1) := by
    simp [List.idxOf?_cons, idxOf?_append h r]
  unfold ipv6AndPort
  simp only [charAt, List.getElem?_cons_zero, hi, bind, Except.bind, pure, Except.pure, ne_eq, not_true_eq_false,
    ite_false]
  cases r with
  | nil => simp
  | cons c q =>
    have hr : substringFrom ('[' :: (p ++ ']' :: c :: q)) (p.length + 1 + 2) = .ok q := by
      rw [substringFrom, if_pos (by simp)]
      simp [List.drop_append]
    have hp : substring ('[' :: (p ++ ']' :: c :: q)) 1 (p.length + 1) = .ok p := by
      rw [substring, if_pos (by simp)]
      simp
    simp only [List.getElem?_cons_succ, hr, hp]
    rw [List.getElem?_append_right (by omega), show p.length + 1 - p.length = 1 by omega]
    simp only [List.getElem?_cons_succ, List.getElem?_cons_zero]
    split
    · rfl
    · split
      · rfl
      · cases isValidIpv6 p <;> rfl

theorem ipv6AndPort_of_ne {t : CharTables} {c : Char} {s : Str} (h : c ≠ '[' ∨ ']' ∉ s) :
    ipv6AndPort t (c :: s) = .ok none := by
  unfold ipv6AndPort
  simp only [charAt, List.getElem?_cons_zero, bind, Except.bind, pure, Except.pure]
  by_cases hc : c = '['
  · subst hc
    have hi : ('[' :: s).idxOf? ']' = none := by simpa using h
    simp [hi]
  · simp [hc]

/-- A text is empty, has no `]` after a leading `[`, or is cut at its first `]`. -/
theorem bracket_cases (s : Str) :
    s = [] ∨ (∃ c r, s = c :: r ∧ (c ≠ '[' ∨ ']' ∉ r)) ∨ ∃ p r, ']' ∉ p ∧ s = '[' :: (p ++ ']' :: r) := by
  cases s with
  | nil => exact .inl rfl
  | cons c s =>
    refine .inr ?_
    by_cases hc : c = '['
    · subst hc
      obtain ⟨h, -⟩ | ⟨p, r, h, rfl, -⟩ := cut_cases ']' s
      · exact .inl ⟨_, _, rfl, .inr h⟩
      · exact .inr ⟨p, r, h, rfl⟩
    · exact .inl ⟨c, s, rfl, .inl hc⟩

theorem unindexable_bracket_iff {p : Str} (hp : ']' ∉ p) (r : Str) :
    Unindexable ('[' :: (p ++ ']' :: r)) ↔ r = [] := by
  refine ⟨fun hu => ?_, fun h => h ▸ .bracket hp⟩
  generalize hs : '[' :: (p ++ ']' :: r) = s at hu
  cases hu with
  | empty => cases hs
  | @bracket p' hq =>
    have := congrArg (cut ']') (List.cons.inj hs).2
    rw [cut_append hp, cut_append hq] at this
    cases this; rfl

theorem not_unindexable_of_ne {c : Char} {r : Str} (h : c ≠ '[' ∨ ']' ∉ r) : ¬ Unindexable (c :: r) := by
  intro hu
  generalize hs : c :: r = s at hu
  cases hu with
  | empty => cases hs
  | bracket hq => cases hs; simp at h

theorem ipv6AndPort_error_iff {t : CharTables} {s : Str} {e : JavaException} :
    ipv6AndPort t s = .error e ↔ e = .stringIndexOutOfBounds ∧ Unindexable s := by
  obtain rfl | ⟨c, r, rfl, h⟩ | ⟨p, r, hp, rfl⟩ := bracket_cases s
  · have : ipv6AndPort t [] = .error .stringIndexOutOfBounds := rfl
    rw [this, Except.error.injEq]
    exact ⟨fun h => ⟨h.symm, .empty⟩, fun h => h.1.symm⟩
  · rw [ipv6AndPort_of_ne h]
    exact ⟨nofun, fun ⟨_, hu⟩ => absurd hu (not_unindexable_of_ne h)⟩
  · rw [ipv6AndPort_bracket t hp, unindexable_bracket_iff hp]
    cases r with
    | nil =>
      rw [Except.error.injEq]
      exact ⟨fun h => ⟨h.symm, rfl⟩, fun h => h.1.symm⟩
    | cons c q =>
      refine ⟨fun h => ?_, fun ⟨_, hu⟩ => by cases hu⟩
      dsimp only at h
      split_ifs at h <;> split at h <;> cases h

/-! ## The texts an address parser accepts -/

theorem ipv4AndPort_some {t : CharTables} {s : Str} {a : Str} {n : Int} (h : ipv4AndPort t s = some (a, n)) :
    ∃ p, ':' ∉ a ∧ s = a ++ ':' :: p ∧ parsePort t p = some n ∧ isValidIpv4 t a = true := by
  unfold ipv4AndPort split2 at h
  obtain ⟨-, hc⟩ | ⟨q, r, hq, rfl, hc⟩ := cut_cases ':' s
  · rw [hc] at h; cases h
  · rw [hc] at h
    dsimp only at h
    split at h
    · cases h
    · rename_i port hport
      split_ifs at h with hv
      cases h
      exact ⟨r, hq, rfl, hport, by simpa using hv⟩

theorem ipv6AndPort_some {t : CharTables} {s : Str} {a : Str} {n : Int}
    (h : ipv6AndPort t s = .ok (some (a, n))) :
    ∃ p, ']' ∉ a ∧ s = '[' :: (a ++ ']' :: ':' :: p) ∧ parsePort t p = some n ∧ isValidIpv6 a = true := by
  obtain rfl | ⟨c, r, rfl, hne⟩ | ⟨p, r, hp, rfl⟩ := bracket_cases s
  · cases h
  · rw [ipv6AndPort_of_ne hne] at h; cases h
  · rw [ipv6AndPort_bracket t hp] at h
    cases r with
    | nil => cases h
    | cons c q =>
      dsimp only at h
      by_cases hc : c = ':'
      · subst hc
        rw [if_neg (by simp)] at h
        split at h
        · cases h
        · rename_i port hport
          split_ifs at h with hv <;> cases h
          exact ⟨q, hp, rfl, hport, hv⟩
      · rw [if_pos hc] at h; cases h

theorem parsePort_some {t : CharTables} {s : Str} {n : Int} (h : parsePort t s = some n) :
    toIntOrNull t 10 s = some n ∧ 1 ≤ n ∧ n ≤ 65535 := by
  unfold parsePort at h
  split at h
  · cases h
  · rename_i port hp
    split_ifs at h with hr
    cases h
    simp only [Bool.or_eq_true, decide_eq_true_eq, not_or] at hr
    exact ⟨hp, by omega, by omega⟩

/-- A text on which `ipv6AndPort` throws ends in no digit, so it is no IPv4 address with a port. -/
theorem ipv4AndPort_of_unindexable {t : CharTables} {s : Str} (h : Unindexable s) : ipv4AndPort t s = none := by
  cases hr : ipv4AndPort t s with
  | none => rfl
  | some r =>
    obtain ⟨p, -, hs, hp, -⟩ := ipv4AndPort_some (a := r.1) (n := r.2) hr
    obtain ⟨hne, hd⟩ := toIntOrNull_chars (parsePort_some hp).1
    cases h with
    | empty => simp at hs
    | @bracket q hq =>
      have hl : ('[' :: q) ++ [']'] = (r.1 ++ ':' :: p.dropLast) ++ [p.getLast hne] := by
        simpa [List.dropLast_append_getLast] using hs
      have hc : ']' = p.getLast hne := List.singleton_inj.1 (List.append_inj_right' hl rfl)
      have := hd _ (hc ▸ List.getLast_mem hne)
      rw [t.digitOf_ascii _ _ (by decide)] at this
      simp [asciiDigit] at this

/-- A parser of addresses throws on the texts `ipv6AndPort` throws on. -/
theorem ipAndPort_error_iff {t : CharTables} {s : Str} {e : JavaException} :
    ipAndPort t s = .error e ↔ e = .stringIndexOutOfBounds ∧ Unindexable s := by
  unfold ipAndPort
  cases h : ipv4AndPort t s with
  | none => exact ipv6AndPort_error_iff
  | some r =>
    exact ⟨nofun, fun ⟨_, hu⟩ => by rw [ipv4AndPort_of_unindexable hu] at h; cases h⟩

/-- What a parser of addresses with ports returns is a valid address and a port number. -/
theorem valid_of_ipAndPort {t : CharTables} {s a : Str} {p : Int} (h : ipAndPort t s = .ok (some (a, p))) :
    isValidIp t a = true ∧ 1 ≤ p ∧ p ≤ 65535 := by
  unfold ipAndPort at h
  cases h4 : ipv4AndPort t s with
  | some r =>
    rw [h4] at h; cases h
    obtain ⟨q, -, -, hp, hv⟩ := ipv4AndPort_some h4
    exact ⟨by rw [isValidIp, hv, Bool.true_or], (parsePort_some hp).2⟩
  | none =>
    rw [h4] at h
    obtain ⟨q, -, -, hp, hv⟩ := ipv6AndPort_some h
    exact ⟨by rw [isValidIp, hv, Bool.or_true], (parsePort_some hp).2⟩

end SunProxy.Utils
