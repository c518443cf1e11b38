/-
What `Utils.isIpInRange` answers on the texts the validators accept, of either family: whether the
address that one text writes agrees, in the first bits, with the address of the range.
-/
import SunProxy.Utils.Denotes

namespace SunProxy.Utils

open SunProxy.Kotlin SunProxy.Bits

/-- The address a text of either family writes: four bytes or sixteen. -/
inductive IpDenotes (t : CharTables) : Str → List UInt8 → Prop
  | ipv4 {s : Str} {b : List UInt8} (h : Ipv4Denotes t s b) : IpDenotes t s b
  | ipv6 {s : Str} {b : List UInt8} (h : Ipv6Denotes s b) : IpDenotes t s b

/-- A valid IPv6 text has a colon. -/
theorem colon_mem_of_valid {s : Str} (h : isValidIpv6 s = true) : ':' ∈ s := by
  obtain ⟨b, hb⟩ := isValidIpv6_denotes h
  exact colon_mem_of_denotes hb

/-- The families of valid texts do not overlap. -/
theorem isValidIpv4_false_of_valid {t : CharTables} {s : Str} (h : isValidIpv6 s = true) : isValidIpv4 t s = false :=
  isValidIpv4_of_colon (colon_mem_of_valid h)

/-- A valid text that writes four bytes is an IPv4 text. -/
theorem isValidIpv4_of_denotes {t : CharTables} {s : Str} {b : List UInt8} (h : isValidIp t s = true)
    (hb : Ipv4Denotes t s b) : isValidIpv4 t s = true := by
  simp only [isValidIp, Bool.or_eq_true] at h
  exact h.resolve_right fun h6 => colon_notMem_of_denotes hb (colon_mem_of_valid h6)

/-- A valid text that writes sixteen bytes is an IPv6 text. -/
theorem isValidIpv6_of_denotes {t : CharTables} {s : Str} {b : List UInt8} (h : isValidIp t s = true)
    (hb : Ipv6Denotes s b) : isValidIpv6 s = true := by
  simp only [isValidIp, Bool.or_eq_true] at h
  refine h.resolve_left fun h4 => ?_
  rw [isValidIpv4_of_colon (colon_mem_of_denotes hb)] at h4
  cases h4

theorem isValidIp_denotes {t : CharTables} {s : Str} (h : isValidIp t s = true) : ∃ b, IpDenotes t s b := by
  simp only [isValidIp, Bool.or_eq_true] at h
  rcases h with h | h
  · obtain ⟨b, hb⟩ := isValidIpv4_denotes h
    exact ⟨b, .ipv4 hb⟩
  · obtain ⟨b, hb⟩ := isValidIpv6_denotes h
    exact ⟨b, .ipv6 hb⟩

/-- A text writes one address. -/
theorem IpDenotes.unique {t : CharTables} {s : Str} {a b : List UInt8} (ha : IpDenotes t s a) (hb : IpDenotes t s b) :
    a = b := by
  cases ha with
  | ipv4 ha =>
    cases hb with
    | ipv4 hb =>
      have := (ipv4ToBytes_of_denotes ha).2.symm.trans (ipv4ToBytes_of_denotes hb).2
      exact Except.ok.inj this
    | ipv6 hb => exact absurd (colon_mem_of_denotes hb) (colon_notMem_of_denotes ha)
  | ipv6 ha =>
    cases hb with
    | ipv4 hb => exact absurd (colon_mem_of_denotes ha) (colon_notMem_of_denotes hb)
    | ipv6 hb =>
      have := (ipv6ToBytes_of_denotes (t := t) ha).2.symm.trans (ipv6ToBytes_of_denotes hb).2
      exact Except.ok.inj this

/-! ## Ranges -/

theorem isValidIpRange_shape {t : CharTables} {range : Str} (h : isValidIpRange t range = true) :
    ∃ address n, RangeText t range address n ∧ isValidIp t address = true := by
  simp only [isValidIpRange, Bool.or_eq_true] at h
  rcases h with h | h
  · obtain ⟨address, n, hr, -, hv⟩ := isValidRange_shape 32 h
    exact ⟨address, n, hr, by simp [isValidIp, hv]⟩
  · obtain ⟨address, n, hr, -, hv⟩ := isValidRange_shape 128 h
    exact ⟨address, n, hr, by simp [isValidIp, hv]⟩

/-- A valid range of an IPv4 address is a valid IPv4 range and no IPv6 range. -/
theorem isValidIpv4Range_of_denotes {t : CharTables} {range address : Str} {n : Nat} {b : List UInt8}
    (h : isValidIpRange t range = true) (hr : RangeText t range address n) (hb : Ipv4Denotes t address b) :
    isValidIpv4Range t range = true ∧ isValidIpv6Range t range = false := by
  have h6 : isValidIpv6Range t range ≠ true := by
    intro h6
    obtain ⟨address', n', hr', -, hv⟩ := isValidRange_shape 128 h6
    obtain ⟨rfl, rfl⟩ := hr.unique hr'
    exact colon_notMem_of_denotes hb (colon_mem_of_valid hv)
  simp only [isValidIpRange, Bool.or_eq_true] at h
  exact ⟨h.resolve_right h6, Bool.eq_false_iff.2 h6⟩

/-- A valid range of an IPv6 address is a valid IPv6 range and no IPv4 range. -/
theorem isValidIpv6Range_of_denotes {t : CharTables} {range address : Str} {n : Nat} {b : List UInt8}
    (h : isValidIpRange t range = true) (hr : RangeText t range address n) (hb : Ipv6Denotes address b) :
    isValidIpv6Range t range = true ∧ isValidIpv4Range t range = false := by
  have h4 : isValidIpv4Range t range ≠ true := by
    intro h4
    obtain ⟨address', n', hr', -, hv⟩ := isValidRange_shape 32 h4
    obtain ⟨rfl, rfl⟩ := hr.unique hr'
    rw [isValidIpv4_of_colon (colon_mem_of_denotes hb)] at hv
    cases hv
  simp only [isValidIpRange, Bool.or_eq_true] at h
  exact ⟨h.resolve_left h4, Bool.eq_false_iff.2 h4⟩

/-! ## The answer -/

/-- For what they write the test compares the families and the first bits. -/
theorem isIpInRange_of_denotes {t : CharTables} {ip range address : Str} {n : Nat} {a b : List UInt8}
    (h : isValidIp t ip = true) (hr : isValidIpRange t range = true) (hrt : RangeText t range address n)
    (ha : IpDenotes t ip a) (hb : IpDenotes t address b) :
    isIpInRange t ip range = .ok (decide (a.length = b.length ∧ (bits a).take n = (bits b).take n)) := by
  cases ha with
  | ipv4 ha =>
    have hv := isValidIpv4_of_denotes h ha
    have la := (ipv4ToBytes_of_denotes ha).1
    cases hb with
    | ipv4 hb =>
      rw [isIpInRange_ipv4 hv ha (isValidIpv4Range_of_denotes hr hrt hb).1 hrt hb]
      simp [la, (ipv4ToBytes_of_denotes hb).1]
    | ipv6 hb =>
      -- the families differ, so neither pair of validators accepts both texts
      have h6 : isValidIpv6 ip = false := by
        cases hv6 : isValidIpv6 ip with
        | false => rfl
        | true => rw [isValidIpv4_false_of_valid hv6] at hv; cases hv
      rw [isIpInRange, (isValidIpv6Range_of_denotes hr hrt hb).2, h6]
      simp [la, (ipv6ToBytes_of_denotes (t := t) hb).1]
  | ipv6 ha =>
    have hv := isValidIpv6_of_denotes h ha
    have la := (ipv6ToBytes_of_denotes (t := t) ha).1
    cases hb with
    | ipv4 hb =>
      rw [isIpInRange, isValidIpv4_false_of_valid hv, (isValidIpv4Range_of_denotes hr hrt hb).2]
      simp [la, (ipv4ToBytes_of_denotes hb).1]
    | ipv6 hb =>
      rw [isIpInRange_ipv6 hv ha (isValidIpv6Range_of_denotes hr hrt hb).1 hrt hb]
      simp [la, (ipv6ToBytes_of_denotes (t := t) hb).1]

/-- Every accepted address and range write an address and a prefix length, and for whatever they
write the test throws nothing and compares the families and the first bits. -/
theorem isIpInRange_eq {t : CharTables} {ip range : Str} (h : isValidIp t ip = true)
    (hr : isValidIpRange t range = true) :
    (∃ address n a b, RangeText t range address n ∧ IpDenotes t ip a ∧ IpDenotes t address b) ∧
      ∀ address n a b, RangeText t range address n → IpDenotes t ip a → IpDenotes t address b →
        isIpInRange t ip range = .ok (decide (a.length = b.length ∧ (bits a).take n = (bits b).take n)) := by
  constructor
  · obtain ⟨address, n, hrt, hv⟩ := isValidIpRange_shape hr
    obtain ⟨a, ha⟩ := isValidIp_denotes h
    obtain ⟨b, hb⟩ := isValidIp_denotes hv
    exact ⟨address, n, a, b, hrt, ha, hb⟩
  · intro address n a b hrt ha hb
    exact isIpInRange_of_denotes h hr hrt ha hb

theorem isIpInRange_eq_half :
    isIpInRange .ascii "2001:db8::1".toList "2001:db8:8000::/33".toList = .ok false ∧
      ∃ address n a b, RangeText .ascii "2001:db8:8000::/33".toList address n ∧
        IpDenotes .ascii "2001:db8::1".toList a ∧ IpDenotes .ascii address b ∧
        ¬ (a.length = b.length ∧ (bits a).take n = (bits b).take n) := by
  have hf : isIpInRange .ascii "2001:db8::1".toList "2001:db8:8000::/33".toList = .ok false := by decide +kernel
  obtain ⟨⟨address, n, a, b, hr, ha, hb⟩, h⟩ := @isIpInRange_eq .ascii "2001:db8::1".toList
    "2001:db8:8000::/33".toList (by decide +kernel) (by decide +kernel)
  refine ⟨hf, address, n, a, b, hr, ha, hb, fun he => ?_⟩
  rw [h _ _ _ _ hr ha hb, decide_eq_true he] at hf
  cases hf

end SunProxy.Utils
