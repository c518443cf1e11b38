/-
The way of a rule's server into C: its address as the bytes JNI gives for a Kotlin text, copied
with `strcpy` into the 47 bytes of `raddr`, and its port cast to 16 bits. No address a program can
contain is longer than 46 bytes, since what the validators accept has few characters: at most 39
in ASCII, or four parts of at most three digits of any script.
-/
import SunProxy.Net.DottedText
import SunProxy.Net.Rules
import SunProxy.Redirect.ServerText

namespace SunProxy.Net

open SunProxy.Buffer SunProxy.Kotlin SunProxy.Redirect SunProxy.Result SunProxy.Utils

/-! ## Modified UTF-8 -/

/-- The UTF-16 units of a character. -/
def utf16Units (c : Char) : List Nat :=
  if c.toNat ≤ 0xFFFF then [c.toNat]
  else [0xD800 + (c.toNat - 0x10000) / 0x400, 0xDC00 + (c.toNat - 0x10000) % 0x400]

/-- The bytes of a unit; zero takes two, so that no byte of a text is zero. -/
def utf8Unit (u : Nat) : Bytes :=
  if 1 ≤ u ∧ u ≤ 0x7F then [UInt8.ofNat u]
  else if u ≤ 0x7FF then [UInt8.ofNat (0xC0 + u / 64), UInt8.ofNat (0x80 + u % 64)]
  else [UInt8.ofNat (0xE0 + u / 4096), UInt8.ofNat (0x80 + u / 64 % 64), UInt8.ofNat (0x80 + u % 64)]

/-- The bytes of `GetStringUTFChars`, without the final zero. -/
def modifiedUtf8 (s : Str) : Bytes := s.flatMap fun c => (utf16Units c).flatMap utf8Unit

example : modifiedUtf8 ['1', '٣', Char.ofNat 0] = [0x31, 0xD9, 0xA3, 0xC0, 0x80] := by decide

theorem length_utf8Unit_le (u : Nat) : (utf8Unit u).length ≤ 3 := by
  unfold utf8Unit
  split_ifs <;> simp

theorem ofNat_ne_zero {n : Nat} (h1 : 1 ≤ n) (h2 : n < 256) : UInt8.ofNat n ≠ 0 := by
  intro h
  have := congrArg UInt8.toNat h
  rw [UInt8.toNat_ofNat_of_lt' h2] at this
  exact absurd this (by simp; omega)

theorem zero_notMem_utf8Unit {u : Nat} (hu : u ≤ 0xFFFF) : (0 : UInt8) ∉ utf8Unit u := by
  unfold utf8Unit
  split_ifs with h1 h2
  · simpa using (ofNat_ne_zero h1.1 (by omega)).symm
  · simp only [List.mem_cons, List.not_mem_nil, or_false, not_or]
    exact ⟨(ofNat_ne_zero (by omega) (by omega)).symm, (ofNat_ne_zero (by omega) (by omega)).symm⟩
  · simp only [List.mem_cons, List.not_mem_nil, or_false, not_or]
    exact ⟨(ofNat_ne_zero (by omega) (by omega)).symm, (ofNat_ne_zero (by omega) (by omega)).symm,
      (ofNat_ne_zero (by omega) (by omega)).symm⟩

theorem utf16Units_le {c : Char} : ∀ u ∈ utf16Units c, u ≤ 0xFFFF := by
  have hc : c.toNat < 0x110000 := by
    have := c.valid
    rcases this with h | ⟨-, h⟩
    · exact lt_trans h (by decide)
    · exact h
  unfold utf16Units
  split_ifs with h
  · simpa using h
  · simp only [List.mem_cons, List.not_mem_nil, or_false, forall_eq_or_imp, forall_eq]
    omega

theorem zero_notMem_modifiedUtf8 (s : Str) : (0 : UInt8) ∉ modifiedUtf8 s := by
  simp only [modifiedUtf8, List.mem_flatMap, not_exists, not_and]
  exact fun c _ u hu => zero_notMem_utf8Unit (utf16Units_le u hu)

theorem modifiedUtf8_append (a b : Str) : modifiedUtf8 (a ++ b) = modifiedUtf8 a ++ modifiedUtf8 b :=
  List.flatMap_append

theorem modifiedUtf8_cons (c : Char) (s : Str) :
    modifiedUtf8 (c :: s) = (utf16Units c).flatMap utf8Unit ++ modifiedUtf8 s :=
  List.flatMap_cons

/-- Characters of the basic plane take at most three bytes each. -/
theorem length_modifiedUtf8_basic {s : Str} (h : ∀ c ∈ s, c.toNat ≤ 0xFFFF) :
    (modifiedUtf8 s).length ≤ 3 * s.length := by
  induction s with
  | nil => exact Nat.le_refl _
  | cons c s ih =>
    have hc := h c (List.mem_cons_self ..)
    have := length_utf8Unit_le c.toNat
    have := ih fun c hc => h c (List.mem_cons_of_mem _ hc)
    rw [modifiedUtf8_cons, utf16Units, if_pos hc, List.length_append, List.length_cons]
    simp only [List.flatMap_cons, List.flatMap_nil, List.append_nil]
    omega

/-- ASCII characters but zero take one byte each. -/
theorem length_modifiedUtf8_ascii {s : Str} (h : ∀ c ∈ s, 1 ≤ c.toNat ∧ c.toNat ≤ 0x7F) :
    (modifiedUtf8 s).length = s.length := by
  induction s with
  | nil => rfl
  | cons c s ih =>
    have hc := h c (List.mem_cons_self ..)
    rw [modifiedUtf8_cons, utf16Units, if_pos (by omega), List.length_append, List.length_cons,
      ih fun c hc => h c (List.mem_cons_of_mem _ hc)]
    simp only [List.flatMap_cons, List.flatMap_nil, List.append_nil, utf8Unit, if_pos hc, List.length_singleton]
    omega

/-! ## The lengths of addresses -/

theorem length_joinGroups_le {gs : List Str} (h : ∀ g ∈ gs, isGroup g = true) :
    (joinGroups gs).length ≤ 5 * gs.length := by
  induction gs with
  | nil => exact Nat.le_refl _
  | cons g gs ih =>
    have hg : g.length ≤ 4 := by
      have := h g (List.mem_cons_self ..)
      simp only [isGroup, Bool.and_eq_true, decide_eq_true_eq] at this
      exact this.1.2
    have ih := ih fun g hg => h g (List.mem_cons_of_mem _ hg)
    cases gs with
    | nil => simp [joinGroups]; omega
    | cons g' gs =>
      simp only [joinGroups, List.length_cons] at ih
      simp only [joinGroups, List.intercalate_cons_cons, List.length_append, List.length_cons, List.length_nil]
      omega

theorem length_ipv6_le {s : Str} (h : isValidIpv6 s = true) : s.length ≤ 40 := by
  obtain ⟨gs, hg, h8, rfl⟩ | ⟨l, r, hl, hr, h4, rfl⟩ := isValidIpv6_shape h
  · have := length_joinGroups_le hg
    omega
  · have := length_joinGroups_le hl
    have := length_joinGroups_le hr
    simp only [List.length_append, show ("::".toList).length = 2 from rfl]
    omega

theorem length_utf8_ipv6 {s : Str} (h : isValidIpv6 s = true) : (modifiedUtf8 s).length ≤ 46 := by
  rw [length_modifiedUtf8_ascii fun c hc => ?_]
  · exact (length_ipv6_le h).trans (by decide)
  · rcases mem_of_valid h hc with rfl | hx
    · decide
    · obtain ⟨d, hd, -, hlt⟩ := isDigit_of_hex hx
      have := asciiDigit_range hd
      omega

/-- A byte as Kotlin reads it has at most three characters of the basic plane. -/
theorem length_utf8_kotlinByte {t : CharTables} {p : Str} (h : KotlinByte t p) : (modifiedUtf8 p).length ≤ 9 := by
  have hd : ∀ {p : Str} {n : Nat}, digitsValue t 10 p = some n → ∀ c ∈ p, c.toNat ≤ 0xFFFF := fun h c hc => by
    obtain ⟨d, hd⟩ := Option.isSome_iff_exists.1 (digitsValue_digits h c hc)
    exact t.digitOf_basic c 10 d hd
  have hb : p.length ≤ 3 ∧ ∀ c ∈ p, c.toNat ≤ 0xFFFF := by
    cases h with
    | digits h hn h1 h3 => exact ⟨h3, hd h⟩
    | plus h h1 h2 => exact ⟨Nat.succ_le_succ h2, List.forall_mem_cons.2 ⟨by decide, hd h⟩⟩
    | minus h h1 h2 => exact ⟨Nat.succ_le_succ h2, List.forall_mem_cons.2 ⟨by decide, hd h⟩⟩
  have := length_modifiedUtf8_basic hb.2
  omega

theorem length_utf8_ipv4 {t : CharTables} {s : Str} (h : isValidIpv4 t s = true) : (modifiedUtf8 s).length ≤ 46 := by
  obtain ⟨ps, h4, hp, rfl⟩ := (isValidIpv4_iff t s).1 h
  obtain ⟨a, b, c, d, rfl⟩ := List.length_eq_four.1 h4
  simp only [List.mem_cons, List.not_mem_nil, or_false, forall_eq_or_imp, forall_eq] at hp
  have := length_utf8_kotlinByte hp.1
  have := length_utf8_kotlinByte hp.2.1
  have := length_utf8_kotlinByte hp.2.2.1
  have := length_utf8_kotlinByte hp.2.2.2
  have hdot : (modifiedUtf8 ['.']).length = 1 := rfl
  simp only [List.intercalate_cons_cons, List.intercalate_singleton, modifiedUtf8_append, List.length_append, hdot]
  omega

/-! ## The copy -/

/-- `strcpy(dst, src)` -/
def strcpy (dst src : Bytes) : Except Fault Bytes := storeBytes dst 0 (cString src ++ [0])

/-- `INET6_ADDRSTRLEN + 1`, the size of `raddr`. -/
def raddrSize : Nat := 47

theorem cString_of_notMem {s : Bytes} (h : (0 : UInt8) ∉ s) : cString s = s := by
  have hs : ∀ b ∈ s, (b != 0) = true := fun b hb => by
    rw [bne_iff_ne]
    rintro rfl
    exact h hb
  rw [cString, List.takeWhile_eq_self_iff]
  exact hs

/-- A text that fits is copied whole. -/
theorem strcpy_eq {dst s : Bytes} (h : (0 : UInt8) ∉ s) (hl : s.length < dst.length) :
    ∃ b, strcpy dst (s ++ [0]) = .ok b ∧ cString b = s := by
  refine ⟨overwrite dst 0 (s ++ [0]), ?_, ?_⟩
  · rw [strcpy, cString_append_zero, cString_of_notMem h, storeBytes, if_pos (by simp; omega)]
  · rw [overwrite, List.take_zero, List.nil_append, List.append_assoc, List.singleton_append, cString_append_zero,
      cString_of_notMem h]

/-- What `is_address_allowed` and the test in `handle_ip` keep of a server. -/
structure Carried (server : Server) : Prop where
  length : (modifiedUtf8 server.address).length ≤ 46
  port : 1 ≤ server.port ∧ server.port ≤ 65535
  /-- the copy into `raddr` writes inside of it, and all of the text -/
  raddr : ∀ old : Bytes, old.length = raddrSize →
    ∃ b, strcpy old (modifiedUtf8 server.address ++ [0]) = .ok b ∧ cString b = modifiedUtf8 server.address
  /-- the cast to `uint16_t` -/
  rport : ((server.port % 65536).toNat : Int) = server.port
  kept : redirectOf (some ⟨server.address, (server.port % 65536).toNat⟩) = some ⟨server.address, server.port.toNat⟩

theorem carried_of_valid {t : CharTables} {server : Server} (ha : isValidIp t server.address = true)
    (h1 : 1 ≤ server.port) (h2 : server.port ≤ 65535) : Carried server := by
  have hlen : (modifiedUtf8 server.address).length ≤ 46 := by
    rcases Bool.or_eq_true_iff.1 ha with h4 | h6
    · exact length_utf8_ipv4 h4
    · exact length_utf8_ipv6 h6
  have hport : (server.port % 65536).toNat = server.port.toNat := by omega
  refine ⟨hlen, ⟨h1, h2⟩, fun old ho => ?_, by omega, ?_⟩
  · exact strcpy_eq (zero_notMem_modifiedUtf8 _) (by rw [ho]; exact Nat.lt_succ_of_le hlen)
  · rw [hport, redirectOf, if_neg]
    rintro (h | h)
    · dsimp only at h
      rw [h] at ha
      cases ha
    · dsimp only at h
      omega

theorem carried_of_fromLine {t : CharTables} {lineNumber : Nat} {line : Str} {rule : Rule}
    (h : fromLine t lineNumber line = .ok rule) : Carried rule.server := by
  rw [fromLine_eq] at h
  obtain ⟨server, hs, h⟩ := bind_eq_ok h
  obtain ⟨condition, -, hr⟩ := bind_eq_ok h
  cases hr
  obtain ⟨ha, h1, h2⟩ := valid_of_ipAndPort (fromString_eq_ok hs).1
  exact carried_of_valid ha h1 h2

/-- The server of every rule of a compiled program reaches the engine as it is. -/
theorem carried_of_compile {t : CharTables} {codes : Str} {r : RedirectRule} (h : compile t codes = .ok r) :
    ∀ rule ∈ r.rules, Carried rule.server := by
  intro rule hrule
  obtain ⟨lineNumber, line, hline⟩ := fromLine_of_compile h rule hrule
  exact carried_of_fromLine hline

theorem carried_of_compile_one :
    ∃ r, compile .ascii "1.2.3.4:5 $ tls".toList = .ok r ∧ r.rules.length = 1 ∧ ∀ rule ∈ r.rules,
    Carried rule.server := by
  cases h : compile .ascii "1.2.3.4:5 $ tls".toList with
  | error e =>
    have : (compile .ascii "1.2.3.4:5 $ tls".toList).toOption.isSome = true := by decide +kernel
    rw [h] at this
    cases this
  | ok r =>
    have hl : ((compile .ascii "1.2.3.4:5 $ tls".toList).toOption.map (·.rules.length)) = some 1 := by decide +kernel
    rw [h] at hl
    exact ⟨r, rfl, Option.some.inj hl, carried_of_compile h⟩

end SunProxy.Net
