/-
The two address comparisons of conditions on the texts `inet_ntop` gives: `==` compares the texts,
`in` the addresses they write. They part exactly where the operand writes the packet's address in
another spelling than `inet_ntop` does.
-/
import SunProxy.Net.Ntop
import SunProxy.Redirect.Grammar
import SunProxy.Redirect.ServerText

namespace SunProxy.Net

open SunProxy.Bits SunProxy.Kotlin SunProxy.Redirect SunProxy.Seq SunProxy.Utils

/-! ## The texts of `inet_ntop` -/

/-- A text of `inet_ntop` that is accepted writes the address it was made from. -/
theorem ipDenotes_inetNtop {t : CharTables} {b : List UInt8} (hb : b.length = 4 ∨ b.length = 16)
    (hv : isValidIp t (inetNtop b) = true) : IpDenotes t (inetNtop b) b := by
  rcases hb with hb | hb
  · rw [inetNtop, if_pos hb]
    exact .ipv4 (inetNtop4_spec t hb).2
  · rw [inetNtop, if_neg (by omega)] at hv ⊢
    cases hd : isDotted (words b) with
    | true =>
      obtain ⟨hc, h6⟩ := inetNtop6_dotted hb hd
      rw [isValidIp, isValidIpv4_of_colon hc, h6] at hv
      cases hv
    | false => exact .ipv6 (inetNtop6_spec hb hd).1

/-! ## The range of one address -/

/-- `A/32` for an IPv4 address, `A/128` for an IPv6 address. -/
def fullRange (address : Str) : Str := address ++ '/' :: Nat.toDigits 10 (if ':' ∈ address then 128 else 32)

example : fullRange "::1".toList = "::1/128".toList := by decide

theorem isValidRange_slash {t : CharTables} {maxBits : Int} {n : Nat} {isValid : Str → Bool} {address p : Str}
    (h : '/' ∉ address) (hp : toIntOrNull t 10 p = some (n : Int)) (hn : n ≤ maxBits) :
    isValidRange t maxBits isValid (address ++ '/' :: p) = isValid address := by
  rw [isValidRange, if_neg (by simp)]
  simp only [split2, cut_append h, hp]
  exact if_neg (by simp only [Bool.or_eq_true, decide_eq_true_eq]; omega)

theorem fullRange_spec {t : CharTables} {address : Str} {a : List UInt8} (h : isValidIp t address = true)
    (ha : IpDenotes t address a) :
    isValidIpRange t (fullRange address) = true ∧ RangeText t (fullRange address) address (8 * a.length) := by
  have hp : ∀ n < 1000, toIntOrNull t 10 (Nat.toDigits 10 n) = some (n : Int) := fun n hn =>
    toIntOrNull_toDigits (by omega)
  cases ha with
  | ipv4 ha =>
    have hs : '/' ∉ address := notMem_of_denotes ha (by decide) (by decide) (by decide) (by decide) (by decide)
    have hv := isValidIpv4_of_denotes h ha
    rw [fullRange, if_neg (colon_notMem_of_denotes ha), (ipv4ToBytes_of_denotes ha).1]
    refine ⟨?_, .slash hs (hp 32 (by decide))⟩
    rw [isValidIpRange, isValidIpv4Range, isValidRange_slash hs (hp 32 (by decide)) (by decide), hv,
      Bool.true_or]
  | ipv6 ha =>
    have hv := isValidIpv6_of_denotes h ha
    have hs : '/' ∉ address := fun hm => by
      rcases mem_of_valid hv hm with he | hx
      · cases he
      · exact absurd hx (by decide)
    rw [fullRange, if_pos (colon_mem_of_denotes ha), (ipv6ToBytes_of_denotes (t := t) ha).1]
    refine ⟨?_, .slash hs (hp 128 (by decide))⟩
    rw [isValidIpRange, isValidIpv6Range, isValidRange_slash hs (hp 128 (by decide)) (by decide), hv,
      Bool.or_true]

/-- The whole of the bits is the whole of the bytes. -/
theorem take_bits_full {a b : List UInt8} (h : b.length = a.length) :
    (bits b).take (8 * a.length) = (bits a).take (8 * a.length) ↔ b = a := by
  constructor
  · intro he
    have := ((take_bits_iff (by omega) (by omega)).1 he).1
    rwa [Nat.mul_div_cancel_left _ (by decide), List.take_of_length_le h.le, List.take_of_length_le le_rfl] at this
  · rintro rfl
    rfl

/-- The range of one address contains a text that is accepted and writes the address. -/
theorem isIpInRange_fullRange {t : CharTables} {b a : List UInt8} {address : Str} (hb : b.length = 4 ∨ b.length = 16)
    (h : isValidIp t address = true) (ha : IpDenotes t address a) :
    isIpInRange t (inetNtop b) (fullRange address) = .ok true ↔ isValidIp t (inetNtop b) = true ∧ b = a := by
  obtain ⟨hvr, hr⟩ := fullRange_spec h ha
  by_cases hv : isValidIp t (inetNtop b) = true
  · rw [isIpInRange_of_denotes hv hvr hr (ipDenotes_inetNtop hb hv) ha]
    simp only [Except.ok.injEq, decide_eq_true_eq, hv, true_and]
    constructor
    · rintro ⟨hl, he⟩
      exact (take_bits_full hl).1 he
    · rintro rfl
      exact ⟨rfl, rfl⟩
  · have hn : isIpInRange t (inetNtop b) (fullRange address) = .ok false := by
      simp only [isValidIp, Bool.or_eq_true, not_or, Bool.not_eq_true] at hv
      rw [isIpInRange, hv.1, hv.2]
      rfl
    rw [hn]
    simp [hv]

/-! ## The comparisons -/

/-- The conditions `field == A`, `field != A` and `field in A/32` or `field in A/128` are accepted, and
on the packet the first is true when the last is, and the second when the first is not. -/
def EqualityAgrees (t : CharTables) (lineNumber : Nat) (field address : Token) (p : PacketInfo) : Prop :=
  ∃ eq ne inRange : Cond,
    parseFieldComparison t lineNumber field "==".toList address = .ok eq ∧
    parseFieldComparison t lineNumber field "!=".toList address = .ok ne ∧
    parseFieldComparison t lineNumber field "in".toList (fullRange address) = .ok inRange ∧
    (eq p = .ok true ↔ inRange p = .ok true) ∧ (ne p = .ok true ↔ ¬ eq p = .ok true)

/-- `address` is another text for the bytes `b` than `inet_ntop`'s, which is itself accepted. -/
def Respelled (t : CharTables) (b : List UInt8) (address : Str) : Prop :=
  IpDenotes t address b ∧ isValidIp t (inetNtop b) = true ∧ address ≠ inetNtop b

/-- The comparisons agree on a packet's address unless the operand spells it in another way. -/
theorem equalityAgrees_iff {t : CharTables} {lineNumber : Nat} {field address : Token} {extract : PacketInfo → Str}
    {b : List UInt8} {p : PacketInfo} (hf : AddressField field extract) (h : isValidIp t address = true)
    (hb : b.length = 4 ∨ b.length = 16) (hp : extract p = inetNtop b) :
    EqualityAgrees t lineNumber field address p ↔ ¬ Respelled t b address := by
  obtain ⟨a, ha⟩ := isValidIp_denotes h
  have hin : parseFieldComparison t lineNumber field "in".toList (fullRange address) = _ :=
    parseFieldComparison_complete (.addressIn hf (fullRange_spec h ha).1)
  have agrees : EqualityAgrees t lineNumber field address p ↔
      (inetNtop b = address ↔ isValidIp t (inetNtop b) = true ∧ b = a) := by
    unfold EqualityAgrees
    rw [parseFieldComparison_complete (.addressEq hf h), parseFieldComparison_complete (.addressNe hf h), hin]
    simp [hp, isIpInRange_fullRange hb h ha]
  rw [agrees]
  constructor
  · rintro hiff ⟨hd, hv, hs⟩
    exact hs (hiff.2 ⟨hv, hd.unique ha⟩).symm
  · intro hs
    -- equal texts write one address; one address is written by equal texts, or it is spelled again
    constructor
    · rintro rfl
      exact ⟨h, (ipDenotes_inetNtop hb h).unique ha⟩
    · rintro ⟨hv, rfl⟩
      by_contra hc
      exact hs ⟨ha, hv, Ne.symm hc⟩

/-- The address `2001:db8::1`. -/
def docAddress : List UInt8 := [0x20, 0x01, 0x0D, 0xB8] ++ (List.replicate 11 0 ++ [1])

/-- A packet to it. -/
def packetToDoc : PacketInfo where
  proto := "tcp".toList
  hostname := []
  daddr := "2001:db8::1".toList
  saddr := "10.1.10.1".toList
  dport := 443
  sport := 1000
  tls := false
  uid := 0

theorem equalityAgrees_iff_doc :
    EqualityAgrees .ascii 1 "daddr".toList "2001:db8::1".toList packetToDoc ↔
      ¬ Respelled .ascii docAddress "2001:db8::1".toList :=
  equalityAgrees_iff .daddr (by decide +kernel) (.inr rfl) (by decide +kernel)

/-- `daddr == 2001:DB8::1` is false of that packet, and `daddr in 2001:DB8::1/128` is true. -/
theorem not_equalityAgrees_upperCase :
    isValidIp .ascii "2001:DB8::1".toList = true ∧ packetToDoc.daddr = inetNtop docAddress ∧
      ¬ EqualityAgrees .ascii 1 "daddr".toList "2001:DB8::1".toList packetToDoc := by
  refine ⟨by decide +kernel, by decide +kernel, ?_⟩
  rintro ⟨eq, ne, inRange, heq, -, hin, hiff, -⟩
  cases heq
  cases hin
  have hr : isIpInRange .ascii packetToDoc.daddr (fullRange "2001:DB8::1".toList) = .ok true := by decide +kernel
  exact absurd (hiff.2 hr) (by decide +kernel)

end SunProxy.Net
