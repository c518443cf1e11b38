/-
Byte buffers as C code uses them: a load or a store outside the buffer is a fault, never a value, and
so is a loop that does not end.
Numbers are read and written most significant byte first.
-/
import Mathlib.Data.List.Basic
import Mathlib.Tactic.Common
import SunProxy.Lib.Result

namespace SunProxy.Buffer

open SunProxy.Result

abbrev Bytes := List UInt8

/-- An access outside the buffer, with the first index that is not in it, or a loop without end. -/
inductive Fault where
  | read (i : Nat)
  | write (i : Nat)
  | hang
deriving DecidableEq, Repr

def load (data : Bytes) (i : Nat) : Except Fault UInt8 :=
  match data[i]? with
  | some b => .ok b
  | none => .error (.read i)

/-- The `n` bytes from place `i` on. -/
def loadBytes (data : Bytes) (i n : Nat) : Except Fault Bytes :=
  if i + n ≤ data.length then .ok ((data.drop i).take n) else .error (.read (max i data.length))

/-- The buffer with `src` copied to place `i`. -/
def overwrite (buf : Bytes) (i : Nat) (src : Bytes) : Bytes := buf.take i ++ src ++ buf.drop (i + src.length)

def storeBytes (buf : Bytes) (i : Nat) (src : Bytes) : Except Fault Bytes :=
  if i + src.length ≤ buf.length then .ok (overwrite buf i src) else .error (.write (max i buf.length))

def loadBe16 (data : Bytes) (i : Nat) : Except Fault Nat := do
  let hi ← load data i
  let lo ← load data (i + 1)
  return hi.toNat * 256 + lo.toNat

def loadBe32 (data : Bytes) (i : Nat) : Except Fault Nat := do
  let hi ← loadBe16 data i
  let lo ← loadBe16 data (i + 2)
  return hi * 65536 + lo

def be16 (n : Nat) : Bytes := [UInt8.ofNat (n / 256), UInt8.ofNat n]

def be32 (n : Nat) : Bytes := be16 (n / 65536) ++ be16 n

/-- The text a `char *` to the buffer stands for: the bytes before the first zero. -/
def cString (buf : Bytes) : Bytes := buf.takeWhile (· != 0)

/-! ## Loads -/

theorem load_of_getElem? {data : Bytes} {i : Nat} {b : UInt8} (h : data[i]? = some b) : load data i = .ok b := by
  simp only [load, h]

theorem load_lt {data : Bytes} {i : Nat} (h : i < data.length) : load data i = .ok data[i] :=
  load_of_getElem? (List.getElem?_eq_getElem h)

/-- What was read is in the buffer. -/
theorem load_lt_of_ok {data : Bytes} {i : Nat} {b : UInt8} (h : load data i = .ok b) : i < data.length := by
  unfold load at h
  split at h
  · rename_i hb
    exact (List.getElem?_eq_some_iff.1 hb).1
  · cases h

theorem load_append (pre rest : Bytes) {b : UInt8} {i : Nat} (hi : i = pre.length) :
    load (pre ++ b :: rest) i = .ok b :=
  load_of_getElem? (by subst hi; simp)

/-- What is in front of a buffer shifts its places. -/
theorem load_shift (pre : Bytes) {data : Bytes} {i : Nat} (h : i < data.length) :
    load (pre ++ data) (pre.length + i) = load data i := by
  unfold load
  rw [List.getElem?_append_right (Nat.le_add_right ..), Nat.add_sub_cancel_left, List.getElem?_eq_getElem h]

theorem loadBe16_shift (pre : Bytes) {data : Bytes} {i : Nat} (h : i + 1 < data.length) :
    loadBe16 (pre ++ data) (pre.length + i) = loadBe16 data i := by
  unfold loadBe16
  rw [load_shift pre (Nat.lt_of_succ_lt h), Nat.add_assoc, load_shift pre h]

theorem loadBytes_shift (pre : Bytes) {data : Bytes} {i n : Nat} (h : i + n ≤ data.length) :
    loadBytes (pre ++ data) (pre.length + i) n = loadBytes data i n := by
  unfold loadBytes
  rw [if_pos h, if_pos (by rw [List.length_append]; omega), List.drop_append,
    List.drop_eq_nil_of_le (Nat.le_add_right ..),
    List.nil_append, Nat.add_sub_cancel_left]

theorem loadBytes_append (pre rest : Bytes) {mid : Bytes} {i n : Nat} (hi : i = pre.length) (hn : n = mid.length) :
    loadBytes (pre ++ (mid ++ rest)) i n = .ok mid := by
  subst hi hn
  simp [loadBytes]

theorem length_of_loadBytes {data b : Bytes} {i n : Nat} (h : loadBytes data i n = .ok b) : b.length = n := by
  unfold loadBytes at h
  split at h
  · cases h
    simp only [List.length_take, List.length_drop]
    omega
  · cases h

/-- The first `n` bytes of what ends the buffer. -/
theorem loadBytes_end (pre data : Bytes) {i n : Nat} (hi : i = pre.length) (hn : n ≤ data.length) :
    loadBytes (pre ++ data) i n = .ok (data.take n) := by
  have h : loadBytes (pre ++ (data.take n ++ data.drop n)) i n = .ok (data.take n) :=
    loadBytes_append pre (data.drop n) hi (List.length_take_of_le hn).symm
  rwa [List.take_append_drop] at h

theorem loadBe16_bytes (pre : Bytes) (hi lo : UInt8) (rest : Bytes) {i : Nat} (h : i = pre.length) :
    loadBe16 (pre ++ hi :: lo :: rest) i = .ok (hi.toNat * 256 + lo.toNat) := by
  have hhi : load (pre ++ hi :: lo :: rest) i = .ok hi := load_append pre (lo :: rest) h
  have hlo : load (pre ++ hi :: lo :: rest) (i + 1) = .ok lo := by
    have := load_append (pre ++ [hi]) rest (b := lo) (i := i + 1) (by simp [h])
    rwa [List.append_assoc] at this
  simp only [loadBe16, hhi, hlo, bind, Except.bind, pure, Except.pure]

theorem loadBe16_append (pre rest : Bytes) {n i : Nat} (hi : i = pre.length) (hn : n < 65536) :
    loadBe16 (pre ++ (be16 n ++ rest)) i = .ok n := by
  have hv : (UInt8.ofNat (n / 256)).toNat * 256 + (UInt8.ofNat n).toNat = n := by
    simp only [UInt8.toNat_ofNat']
    omega
  calc loadBe16 (pre ++ (be16 n ++ rest)) i = .ok ((UInt8.ofNat (n / 256)).toNat * 256 + (UInt8.ofNat n).toNat) :=
        loadBe16_bytes pre _ _ rest hi
    _ = .ok n := by rw [hv]

theorem load_of_drop {data rest : Bytes} {i : Nat} {b : UInt8} (h : data.drop i = b :: rest) : load data i = .ok b := by
  refine load_of_getElem? ?_
  have hhead : (data.drop i)[0]? = some b := by rw [h]; rfl
  rwa [List.getElem?_drop, Nat.add_zero] at hhead

theorem loadBe16_of_drop {data rest : Bytes} {i n : Nat} (hn : n < 65536) (h : data.drop i = be16 n ++ rest) :
    loadBe16 data i = .ok n := by
  have hi : i ≤ data.length := by
    have hlen := congrArg List.length h
    simp only [be16, List.length_drop, List.length_append, List.length_cons, List.length_nil] at hlen
    omega
  rw [← List.take_append_drop i data, h]
  exact loadBe16_append _ rest (List.length_take_of_le hi).symm hn

theorem loadBytes_of_drop {data mid rest : Bytes} {i : Nat} (hi : i ≤ data.length) (h : data.drop i = mid ++ rest) :
    loadBytes data i mid.length = .ok mid := by
  rw [← List.take_append_drop i data, h]
  exact loadBytes_append _ rest (List.length_take_of_le hi).symm rfl

/-- What is behind the bytes that were read. -/
theorem drop_of_load {data : Bytes} {i : Nat} {b : UInt8} (h : load data i = .ok b) :
    data.drop i = b :: data.drop (i + 1) := by
  have hi := load_lt_of_ok h
  rw [load_lt hi] at h
  rw [List.drop_eq_getElem_cons hi, Except.ok.inj h]

theorem drop_of_loadBe16 {data : Bytes} {i n : Nat} (h : loadBe16 data i = .ok n) :
    data.drop i = be16 n ++ data.drop (i + 2) := by
  unfold loadBe16 at h
  obtain ⟨hi, hhi, h⟩ := bind_eq_ok h
  obtain ⟨lo, hlo, h⟩ := bind_eq_ok h
  cases h
  have hfst : UInt8.ofNat ((hi.toNat * 256 + lo.toNat) / 256) = hi := by
    apply UInt8.toNat_inj.mp
    have := lo.toNat_lt
    have := hi.toNat_lt
    rw [UInt8.toNat_ofNat']
    omega
  have hsnd : UInt8.ofNat (hi.toNat * 256 + lo.toNat) = lo := by
    apply UInt8.toNat_inj.mp
    have := lo.toNat_lt
    rw [UInt8.toNat_ofNat']
    omega
  rw [be16, hfst, hsnd, drop_of_load hhi, drop_of_load hlo]
  rfl

theorem drop_of_loadBytes {data b : Bytes} {i n : Nat} (h : loadBytes data i n = .ok b) :
    data.drop i = b ++ data.drop (i + n) := by
  unfold loadBytes at h
  split at h
  · cases h
    rw [← List.drop_drop, List.take_append_drop]
  · cases h

theorem be16_mod (n : Nat) : be16 (n % 65536) = be16 n := by
  have h1 : UInt8.ofNat (n % 65536 / 256) = UInt8.ofNat (n / 256) := by
    apply UInt8.toNat_inj.mp
    simp only [UInt8.toNat_ofNat']
    omega
  have h2 : UInt8.ofNat (n % 65536) = UInt8.ofNat n := by
    apply UInt8.toNat_inj.mp
    simp only [UInt8.toNat_ofNat']
    omega
  simp only [be16, h1, h2]

theorem loadBe32_append (pre rest : Bytes) {n i : Nat} (hi : i = pre.length) (hn : n < 4294967296) :
    loadBe32 (pre ++ (be32 n ++ rest)) i = .ok n := by
  have h1 : loadBe16 (pre ++ (be32 n ++ rest)) i = .ok (n / 65536) := by
    rw [be32, List.append_assoc]
    exact loadBe16_append pre _ hi (by omega)
  have h2 : loadBe16 (pre ++ (be32 n ++ rest)) (i + 2) = .ok (n % 65536) := by
    have h := loadBe16_append (pre ++ be16 (n / 65536)) rest (n := n % 65536) (i := i + 2) (by simp [hi, be16])
      (by omega)
    rw [be16_mod, List.append_assoc] at h
    rw [be32, List.append_assoc]
    exact h
  have hv : n / 65536 * 65536 + n % 65536 = n := by omega
  simp only [loadBe32, h1, h2, bind, Except.bind, pure, Except.pure, hv]

theorem be32_mod (n : Nat) : be32 (n % 4294967296) = be32 n := by
  have hhi : be16 (n % 4294967296 / 65536) = be16 (n / 65536) := by
    rw [← be16_mod (n / 65536)]
    congr 1
    omega
  have hlo : be16 (n % 4294967296) = be16 n := by
    rw [← be16_mod n, ← be16_mod (n % 4294967296)]
    congr 1
    omega
  rw [be32, be32, hhi, hlo]

/-- A number that was stored is read back as far as it fits. -/
theorem loadBe16_stored (pre rest : Bytes) {n i : Nat} (hi : i = pre.length) :
    loadBe16 (pre ++ (be16 n ++ rest)) i = .ok (n % 65536) := by
  rw [← be16_mod]
  exact loadBe16_append pre rest hi (Nat.mod_lt _ (by decide))

theorem loadBe32_stored (pre rest : Bytes) {n i : Nat} (hi : i = pre.length) :
    loadBe32 (pre ++ (be32 n ++ rest)) i = .ok (n % 4294967296) := by
  rw [← be32_mod]
  exact loadBe32_append pre rest hi (Nat.mod_lt _ (by decide))

/-- A 16-bit number that was read fits. -/
theorem lt_of_loadBe16 {data : Bytes} {i n : Nat} (h : loadBe16 data i = .ok n) : n < 65536 := by
  unfold loadBe16 at h
  cases hhi : load data i with
  | error f => rw [hhi] at h; cases h
  | ok hi =>
    cases hlo : load data (i + 1) with
    | error f => rw [hhi, hlo] at h; cases h
    | ok lo =>
      rw [hhi, hlo] at h
      cases h
      have := hi.toNat_lt
      have := lo.toNat_lt
      omega

theorem lt_of_loadBe32 {data : Bytes} {i n : Nat} (h : loadBe32 data i = .ok n) : n < 4294967296 := by
  unfold loadBe32 at h
  cases hhi : loadBe16 data i with
  | error f => rw [hhi] at h; cases h
  | ok hi =>
    cases hlo : loadBe16 data (i + 2) with
    | error f => rw [hhi, hlo] at h; cases h
    | ok lo =>
      rw [hhi, hlo] at h
      cases h
      have := lt_of_loadBe16 hhi
      have := lt_of_loadBe16 hlo
      omega

theorem le_of_loadBe16 {data : Bytes} {i n : Nat} (h : loadBe16 data i = .ok n) : i + 2 ≤ data.length := by
  unfold loadBe16 at h
  cases hhi : load data i with
  | error f => rw [hhi] at h; cases h
  | ok hi =>
    cases hlo : load data (i + 1) with
    | error f => rw [hhi, hlo] at h; cases h
    | ok lo => exact load_lt_of_ok hlo

/-! ## Stores -/

theorem cString_append_zero (text rest : Bytes) : cString (text ++ 0 :: rest) = cString text := by
  unfold cString
  induction text with
  | nil => simp
  | cons b text ih =>
    by_cases hb : b = 0
    · simp [hb]
    · simp [hb, ih]

theorem storeBytes_fits {buf src : Bytes} {i : Nat} (h : i + src.length ≤ buf.length) :
    storeBytes buf i src = .ok (overwrite buf i src) := by
  simp only [storeBytes, h, if_true]

theorem length_overwrite {buf src : Bytes} {i : Nat} (h : i + src.length ≤ buf.length) :
    (overwrite buf i src).length = buf.length := by
  simp only [overwrite, List.length_append, List.length_take, List.length_drop]
  omega

theorem overwrite_nil (buf : Bytes) (i : Nat) : overwrite buf i [] = buf := by simp [overwrite]

/-- Two writes next to each other are one. -/
theorem overwrite_overwrite {buf : Bytes} (a b : Bytes) {i : Nat} (h : i ≤ buf.length) :
    overwrite (overwrite buf i a) (i + a.length) b = overwrite buf i (a ++ b) := by
  have hlen : (buf.take i ++ a).length = i + a.length := by simp [Nat.min_eq_left h]
  have htake : (buf.take i ++ a ++ buf.drop (i + a.length)).take (i + a.length) = buf.take i ++ a := by
    rw [← hlen, List.take_left]
  have hdrop : (buf.take i ++ a ++ buf.drop (i + a.length)).drop (i + a.length + b.length) =
      buf.drop (i + (a ++ b).length) := by
    rw [← hlen, List.drop_append, List.drop_of_length_le (by omega), List.nil_append, hlen, List.drop_drop]
    congr 1
    simp only [List.length_append]
    omega
  unfold overwrite
  rw [htake, hdrop]
  simp only [List.append_assoc]

/-- A zero written over the last byte of a text that starts the buffer ends the text there. -/
theorem cString_overwrite {text rest : Bytes} {b : UInt8} :
    cString (overwrite (text ++ b :: rest) text.length [0]) = cString text := by
  have h : overwrite (text ++ b :: rest) text.length [0] = text ++ 0 :: rest := by simp [overwrite]
  rw [h, cString_append_zero]

@[simp] theorem length_be16 (n : Nat) : (be16 n).length = 2 := rfl

@[simp] theorem length_be32 (n : Nat) : (be32 n).length = 4 := rfl

/-! ## Accesses inside a buffer -/

section Inside

variable {data buf src : Bytes} {i n : Nat}

theorem returns_load (h : i < data.length) : Returns (fun _ => True) (load data i) := ⟨_, load_lt h, trivial⟩

theorem returns_loadBe16 (h : i + 1 < data.length) : Returns (· < 65536) (loadBe16 data i) := by
  have hread : loadBe16 data i = .ok (data[i].toNat * 256 + data[i + 1].toNat) := by
    rw [loadBe16, load_lt (Nat.lt_of_succ_lt h), load_lt h]
    rfl
  exact ⟨_, hread, lt_of_loadBe16 hread⟩

theorem returns_loadBytes (h : i + n ≤ data.length) : Returns (fun b => b.length = n) (loadBytes data i n) := by
  have hread : loadBytes data i n = .ok ((data.drop i).take n) := if_pos h
  exact ⟨_, hread, length_of_loadBytes hread⟩

theorem returns_storeBytes (h : i + src.length ≤ buf.length) :
    Returns (fun b => b.length = buf.length) (storeBytes buf i src) :=
  ⟨_, storeBytes_fits h, length_overwrite h⟩

end Inside

end SunProxy.Buffer
