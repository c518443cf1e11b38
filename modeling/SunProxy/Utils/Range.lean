/-
`Utils.isIpInRange`: the bytes of an address text, and the comparison of the bytes of two
addresses under a prefix length. On texts the validators accept nothing throws, and the answer is
that the first bits agree.
-/
import SunProxy.Utils.Address
import SunProxy.Lib.Bits

namespace SunProxy.Utils

open SunProxy.Kotlin SunProxy.Seq SunProxy.Bits

/-! ## The bytes of an address -/

def ipv4ToBytes (t : CharTables) (ip : Str) : Except JavaException (List UInt8) :=
  let parts := split '.' ip
  (List.range 4).foldlM (fun result i => do
    let part ← arrayGet parts i
    let n ← toInt t 10 part
    arraySet result i (toByte n)) (List.replicate 4 0)

/-- The groups of one side of `::`. -/
def groupsOf (s : Str) : List Str := if s.isEmpty then [] else split ':' s

/-- One iteration of the loops in `ipv6ToBytes`: the group `g` goes to place `i`. -/
def setGroup (t : CharTables) (result : List UInt8) (i : Int) (g : Str) : Except JavaException (List UInt8) := do
  let twoBytes ← toInt t 16 g
  let result ← arraySet result (i * 2) (toByte (twoBytes / 256))
  arraySet result (i * 2 + 1) (toByte (twoBytes % 256))

def ipv6ToBytes (t : CharTables) (ip : Str) : Except JavaException (List UInt8) := do
  let parts := (splitWord "::".toList ip).map groupsOf
  let p0 ← arrayGet parts 0
  let result ← p0.zipIdx.foldlM (fun result p => setGroup t result p.2 p.1) (List.replicate 16 0)
  match parts[1]? with
  | none => return result
  | some p1 => (p1.reverse.zipIdx 1).foldlM (fun result p => setGroup t result (8 - p.2) p.1) result

/-! ## Comparing under a prefix length -/

/-- The loop over the whole bytes in `isIpv4InRange` and `isIpv6InRange`. -/
def sameBytes (a b : List UInt8) (i : Nat) : Nat → Except JavaException Bool
  | 0 => .ok true
  | n + 1 => do
    let x ← arrayGet a i
    let y ← arrayGet b i
    if x ≠ y then return false
    sameBytes a b (i + 1) n

/-- The comparison `isIpv4InRange` and `isIpv6InRange` share. -/
def inRange (ipBytes rangeBytes : List UInt8) (mask : Int) : Except JavaException Bool := do
  let maskBytes := (mask.tdiv 8).toNat
  if !(← sameBytes ipBytes rangeBytes 0 maskBytes) then return false
  if mask.tmod 8 = 0 then return true
  let lastMask := 0xff#32 <<< (8 - mask.tmod 8).toNat
  let x ← arrayGet ipBytes maskBytes
  let y ← arrayGet rangeBytes maskBytes
  return x.toBitVec.signExtend 32 &&& lastMask == y.toBitVec.signExtend 32 &&& lastMask

/-- `isIpv4InRange` and `isIpv6InRange`, which differ in `toBytes` only. -/
def isInRange (t : CharTables) (toBytes : Str → Except JavaException (List UInt8)) (ip range : Str) :
    Except JavaException Bool := do
  let parts := split2 '/' range
  let p ← arrayGet parts 1
  let mask ← toInt t 10 p
  let ipBytes ← toBytes ip
  let r ← arrayGet parts 0
  let rangeBytes ← toBytes r
  inRange ipBytes rangeBytes mask

def isIpv4InRange (t : CharTables) (ip range : Str) : Except JavaException Bool :=
  isInRange t (ipv4ToBytes t) ip range

def isIpv6InRange (t : CharTables) (ip range : Str) : Except JavaException Bool :=
  isInRange t (ipv6ToBytes t) ip range

def isIpInRange (t : CharTables) (ip range : Str) : Except JavaException Bool :=
  if isValidIpv4 t ip && isValidIpv4Range t range then isIpv4InRange t ip range
  else if isValidIpv6 ip && isValidIpv6Range t range then isIpv6InRange t ip range
  else .ok false

theorem sameBytes_eq (a b : List UInt8) (i n : Nat) (ha : i + n ≤ a.length) (hb : i + n ≤ b.length) :
    sameBytes a b i n = .ok (decide ((a.drop i).take n = (b.drop i).take n)) := by
  induction n generalizing i with
  | zero => simp [sameBytes]
  | succ n ih =>
    have hx : a[i]? = some a[i] := List.getElem?_eq_getElem (by omega)
    have hy : b[i]? = some b[i] := List.getElem?_eq_getElem (by omega)
    rw [List.drop_eq_getElem_cons (by omega : i < a.length), List.drop_eq_getElem_cons (by omega : i < b.length)]
    simp only [sameBytes, arrayGet, hx, hy, bind, Except.bind, pure, Except.pure, List.take_succ_cons,
      List.cons.injEq]
    by_cases h : a[i] = b[i]
    · simp [h, ih (i + 1) (by omega) (by omega)]
    · simp [h]

/-- On addresses long enough for the prefix, the comparison is of the first bits. -/
theorem inRange_eq (a b : List UInt8) (n : Nat) (ha : n ≤ 8 * a.length) (hb : n ≤ 8 * b.length) :
    inRange a b n = .ok (decide ((bits a).take n = (bits b).take n)) := by
  have hd : ((n : Int).tdiv 8).toNat = n / 8 := by rw [Int.tdiv_eq_ediv_of_nonneg (by omega)]; omega
  have hm : (n : Int).tmod 8 = ((n % 8 : Nat) : Int) := by rw [Int.tmod_eq_emod_of_nonneg (by omega)]; omega
  have hsame : sameBytes a b 0 (n / 8) = .ok (decide (a.take (n / 8) = b.take (n / 8))) := by
    simpa using sameBytes_eq a b 0 (n / 8) (by omega) (by omega)
  have key := take_bits_iff ha hb
  simp only [inRange, hd, hm, hsame, bind, Except.bind, pure, Except.pure]
  by_cases hw : a.take (n / 8) = b.take (n / 8)
  · by_cases h0 : n % 8 = 0
    · have : (bits a).take n = (bits b).take n := key.2 ⟨hw, by simp [h0]⟩
      simp [hw, h0, this]
    · have hx : a[n / 8]? = some a[n / 8] := List.getElem?_eq_getElem (by omega)
      have hy : b[n / 8]? = some b[n / 8] := List.getElem?_eq_getElem (by omega)
      have hbits : (bits a).take n = (bits b).take n ↔
          (byteBits a[n / 8]).take (n % 8) = (byteBits b[n / 8]).take (n % 8) := by
        rw [key]
        refine ⟨fun h => h.2 _ _ hx hy, fun h => ⟨hw, fun x y h1 h2 => ?_⟩⟩
        rw [hx] at h1; rw [hy] at h2
        cases h1; cases h2; exact h
      have hs : (8 - ((n % 8 : Nat) : Int)).toNat = 8 - n % 8 := by omega
      have hc := signExtend_mask_eq a[n / 8].toBitVec b[n / 8].toBitVec (k := n % 8) (by omega) (by omega)
      rw [← byteBits_take_eq (by omega), ← hbits] at hc
      simp only [hw, decide_true, Bool.not_true, Bool.false_eq_true, ite_false, arrayGet, hx, hy, hs]
      rw [if_neg (by omega)]
      simp only [← hc]
      rfl
  · have : ¬ (bits a).take n = (bits b).take n := fun h => hw (key.1 h).1
    simp [hw, this]

end SunProxy.Utils
