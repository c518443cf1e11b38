/-
The text of a server: `Server.toString` brackets an address with a colon in it, and
`Server.fromString` reads the text back, since the IPv4 parser, which is tried first, refuses
every bracketed text.
-/
import SunProxy.Redirect.Syntax
import SunProxy.Utils.InRange

namespace SunProxy.Redirect

open SunProxy.Kotlin SunProxy.Seq SunProxy.Utils

/-- The decimal text of an `Int`. -/
def intText : Int → Str
  | .ofNat n => Nat.toDigits 10 n
  | .negSucc n => '-' :: Nat.toDigits 10 (n + 1)

def Server.toString (s : Server) : Str :=
  (if ':' ∈ s.address then '[' :: (s.address ++ [']']) else s.address) ++
    ':' :: (intText s.port ++ if s.tls then " tls".toList else [])

example : (⟨"::1".toList, 443, true⟩ : Server).toString = "[::1]:443 tls".toList := by decide

/-! ## Ports -/

theorem isDigit_of_toDigits {n : Nat} {c : Char} (h : c ∈ Nat.toDigits 10 n) :
    asciiDigit c = some (c.toNat - 48) ∧ c.toNat - 48 < 10 ∧ c.toNat < 128 := by
  have hd := Nat.isDigit_of_mem_toDigits (by decide) (by decide) h
  simp only [Char.isDigit, Bool.and_eq_true, decide_eq_true_eq] at hd
  have h1 : 48 ≤ c.toNat := hd.1
  have h2 : c.toNat ≤ 57 := hd.2
  exact ⟨by rw [asciiDigit, if_pos ⟨h1, h2⟩], by omega, by omega⟩

/-- The digits of a number are read as the number. -/
theorem digitsNat_toDigits (n : Nat) : digitsNat 10 (Nat.toDigits 10 n) = n := by
  have fold : ∀ (s : Str) (acc : Nat), (∀ c ∈ s, asciiDigit c = some (c.toNat - 48)) →
      s.foldl (fun acc c => acc * 10 + (asciiDigit c).getD 0) acc = Nat.ofDigitChars 10 s acc := by
    intro s
    induction s with
    | nil => intro acc _; rfl
    | cons c s ih =>
      intro acc h
      rw [List.foldl_cons, h c (List.mem_cons_self ..), ih _ fun c hc => h c (List.mem_cons_of_mem _ hc),
        Nat.ofDigitChars_cons, Nat.mul_comm]
      rfl
  rw [digitsNat, fold _ _ fun c hc => (isDigit_of_toDigits hc).1, Nat.ofDigitChars_ten_toDigits]

theorem toIntOrNull_toDigits {t : CharTables} {n : Nat} (h : n < 0x80000000) :
    toIntOrNull t 10 (Nat.toDigits 10 n) = some (n : Int) := by
  have := toIntOrNull_digits (t := t) (fun c hc => ⟨_, isDigit_of_toDigits hc⟩) (Nat.toDigits_ne_nil (b := 10) (n := n))
  rw [digitsNat_toDigits] at this
  exact this h

/-- A port number is read back from its text. -/
theorem parsePort_intText {t : CharTables} {p : Int} (h1 : 1 ≤ p) (h2 : p ≤ 65535) :
    parsePort t (intText p) = some p := by
  obtain ⟨n, rfl⟩ := Int.eq_ofNat_of_zero_le (show 0 ≤ p by omega)
  show parsePort t (Nat.toDigits 10 n) = _
  rw [parsePort, toIntOrNull_toDigits (by omega)]
  exact if_neg (by simp only [Bool.or_eq_true, decide_eq_true_eq]; omega)

/-! ## Addresses -/

/-- A bracketed text is no IPv4 address with a port. -/
theorem ipv4AndPort_bracket (t : CharTables) (s : Str) : ipv4AndPort t ('[' :: s) = none := by
  cases hr : ipv4AndPort t ('[' :: s) with
  | none => rfl
  | some r =>
    obtain ⟨p, -, hs, -, hv⟩ := ipv4AndPort_some (a := r.1) (n := r.2) hr
    obtain ⟨b, hb⟩ := isValidIpv4_denotes hv
    have hn := notMem_of_denotes (c := '[') hb (by decide) (by decide) (by decide) (by decide) (by decide)
    cases ha : r.1 with
    | nil => rw [ha] at hv; cases hv
    | cons c a =>
      rw [ha, List.cons_append] at hs
      rw [ha, ← (List.cons.inj hs).1] at hn
      exact absurd (List.mem_cons_self ..) hn

theorem ipAndPort_toString {t : CharTables} {a : Str} {p : Int} (ha : isValidIp t a = true) (h1 : 1 ≤ p)
    (h2 : p ≤ 65535) : ipAndPort t (Server.toString ⟨a, p, false⟩) = .ok (some (a, p)) := by
  have hport := parsePort_intText (t := t) h1 h2
  simp only [isValidIp, Bool.or_eq_true] at ha
  by_cases hc : ':' ∈ a
  · have h6 : isValidIpv6 a = true := ha.resolve_left (by rw [isValidIpv4_of_colon hc]; simp)
    have hb : ']' ∉ a := by
      intro hm
      rcases mem_of_valid h6 hm with he | hx
      · cases he
      · exact absurd hx (by decide)
    have hs : Server.toString ⟨a, p, false⟩ = '[' :: (a ++ ']' :: ':' :: intText p) := by
      simp [Server.toString, hc]
    rw [ipAndPort, hs, ipv4AndPort_bracket, ipv6AndPort_bracket t hb]
    simp [hport, h6]
  · have h4 : isValidIpv4 t a = true := ha.resolve_right fun h6 => hc (colon_mem_of_valid h6)
    have hs : Server.toString ⟨a, p, false⟩ = a ++ ':' :: intText p := by
      simp [Server.toString, hc]
    simp only [ipAndPort, hs, ipv4AndPort, split2, cut_append hc, hport, h4]
    rfl

theorem fromString_of_ipAndPort {t : CharTables} {s a : Str} {p : Int} (n : Nat)
    (h : ipAndPort t s = .ok (some (a, p))) : Server.fromString t n s = .ok ⟨a, p, false⟩ := by
  rw [Server.fromString, h]
  rfl

/-- A valid address with a port number is read back from its text, and so is every server that was
read from some text. -/
theorem fromString_toString (t : CharTables) (n : Nat) :
    (∀ (a : Str) (p : Int), isValidIp t a = true → 1 ≤ p → p ≤ 65535 →
      Server.fromString t n (Server.toString ⟨a, p, false⟩) = .ok ⟨a, p, false⟩) ∧
    ∀ (m : Nat) (s : Str) (server : Server), Server.fromString t m s = .ok server →
      Server.fromString t n server.toString = .ok server := by
  constructor
  · intro a p ha h1 h2
    exact fromString_of_ipAndPort n (ipAndPort_toString ha h1 h2)
  · rintro m s ⟨a, p, tls⟩ h
    obtain ⟨hi, rfl⟩ := fromString_eq_ok h
    obtain ⟨ha, h1, h2⟩ := valid_of_ipAndPort hi
    exact fromString_of_ipAndPort n (ipAndPort_toString ha h1 h2)

theorem fromString_toString_bracket :
    Server.fromString .ascii 1 "[2001:db8::1]:443".toList = .ok ⟨"2001:db8::1".toList, 443, false⟩ :=
  (fromString_toString .ascii 1).1 "2001:db8::1".toList 443 (by decide +kernel) (by decide) (by decide)

end SunProxy.Redirect
