/-
What `handle_ip` reads of a packet: its accesses stay inside exactly when the fields that give the
lengths of headers do not lead out. A payload behind the end of the packet is not too short for the
unsigned comparisons, a header length of less than five words wraps, the first extension header of an
IPv6 packet is read before anything is compared, and nothing is compared with the data offset.
-/
import SunProxy.Net.Steps

namespace SunProxy.Net

open SunProxy.Buffer SunProxy.Result SunProxy.Net.TunPacket

variable {pkt : Bytes}

/-! ## Fields -/

/-- The byte at `i`. -/
def byteAt (pkt : Bytes) (i : Nat) : Nat := (pkt[i]?.getD 0).toNat

theorem load_byteAt {i : Nat} (h : i < pkt.length) : ∃ b, load pkt i = .ok b ∧ b.toNat = byteAt pkt i := by
  refine ⟨pkt[i], load_lt h, ?_⟩
  rw [byteAt, List.getElem?_eq_getElem h, Option.getD_some]

theorem load_outside {i : Nat} (h : ¬i < pkt.length) : load pkt i = .error (.read i) := by
  rw [load, List.getElem?_eq_none (not_lt.1 h)]

theorem loadBe16_byteAt {i : Nat} (h : i + 1 < pkt.length) :
    loadBe16 pkt i = .ok (byteAt pkt i * 256 + byteAt pkt (i + 1)) := by
  obtain ⟨hi, hload, hbyte⟩ := load_byteAt (show i < pkt.length by omega)
  obtain ⟨lo, hload', hbyte'⟩ := load_byteAt h
  simp only [loadBe16, hload, hload', bind, Except.bind, pure, Except.pure, hbyte, hbyte']

theorem loadBytes_inside {i n : Nat} (h : i + n ≤ pkt.length) : loadBytes pkt i n = .ok ((pkt.drop i).take n) :=
  if_pos h

/-- The bytes of a header of `words` words as `handle_ip` and `handle_tcp` skip it. -/
def headerBytes (words : Nat) : Nat := if words < 5 then 256 + 4 * words else 4 * words

theorem headerBytes_eq {words : Nat} (h : words < 16) : 20 + optionLength words = headerBytes words := by
  unfold optionLength headerBytes
  split <;> omega

/-- The extension headers from `off` on: one of a lower layer is followed by the next. -/
inductive ExtensionAt (pkt : Bytes) : Nat → Nat → Prop
  | here (off : Nat) : ExtensionAt pkt off off
  | next {off x : Nat} (lower : isLowerLayer (byteAt pkt off) = true)
      (h : ExtensionAt pkt (off + 8 + byteAt pkt (off + 1)) x) : ExtensionAt pkt off x

/-- The fields of extension headers that are looked at. -/
def ExtensionInside (pkt : Bytes) (off : Nat) : Prop :=
  off < pkt.length ∧ (isLowerLayer (byteAt pkt off) = true → off + 1 < pkt.length)

/-! ## Extension headers -/

theorem isUpperLayer_of_isLowerLayer {n : Nat} (h : isLowerLayer n = true) : isUpperLayer n = false := by
  simp only [isLowerLayer, Bool.or_eq_true, decide_eq_true_eq] at h
  rcases h with (((((rfl | rfl) | rfl) | rfl) | rfl) | rfl) | rfl <;> rfl

/-- The loop ends inside the packet when all headers are inside, at a protocol of no upper layer. -/
theorem skipExtensions_ok {fuel off protocol : Nat} (hlen : pkt.length ≤ 10000) (hfuel : pkt.length ≤ off + fuel)
    (hupper : isUpperLayer protocol = false) (hinside : ∀ x, ExtensionAt pkt off x → ExtensionInside pkt x) :
    ∃ off' protocol', skipExtensions pkt fuel off protocol = .ok (off', protocol') ∧
    isUpperLayer protocol' = false := by
  induction fuel generalizing off protocol with
  | zero =>
    have hoff := (hinside off (.here off)).1
    omega
  | succ fuel ih =>
    obtain ⟨hoff, hlower⟩ := hinside off (.here off)
    obtain ⟨next, hnext, hbyte⟩ := load_byteAt hoff
    unfold skipExtensions
    simp only [buffer_alone, hnext, bind, Except.bind, hupper, Bool.not_false, Bool.and_true]
    by_cases hgo : isLowerLayer next.toNat = true
    · rw [if_pos hgo]
      rw [hbyte] at hgo
      obtain ⟨len, hload, hlen'⟩ := load_byteAt (hlower hgo)
      have hsmall : (off + 8 + len.toNat) % 65536 = off + 8 + byteAt pkt (off + 1) := by
        have := len.toNat_lt
        rw [← hlen']
        omega
      simp only [hload, hsmall]
      apply ih
      · omega
      · rw [hbyte]
        exact isUpperLayer_of_isLowerLayer hgo
      · exact fun x hx => hinside x (.next hgo hx)
    · rw [if_neg hgo]
      exact ⟨off, protocol, rfl, hupper⟩

/-- A header outside makes the loop read outside. -/
theorem skipExtensions_outside {off protocol x : Nat} (fuel : Nat) (hlen : pkt.length ≤ 10000)
    (hupper : isUpperLayer protocol = false) (hx : ExtensionAt pkt off x) (houtside : ¬ExtensionInside pkt x) :
    ∃ f, skipExtensions pkt fuel off protocol = .error f := by
  induction hx generalizing fuel protocol with
  -- the read of this header, or of its length, is outside
  | here off =>
    cases fuel with
    | zero => exact ⟨_, rfl⟩
    | succ fuel =>
      unfold skipExtensions
      by_cases hoff : off < pkt.length
      · obtain ⟨next, hnext, hbyte⟩ := load_byteAt hoff
        rw [ExtensionInside, not_and, Classical.not_imp] at houtside
        obtain ⟨hlower, hend⟩ := houtside hoff
        rw [← hbyte] at hlower
        simp only [buffer_alone, hnext, bind, Except.bind, hlower, hupper, Bool.not_false, Bool.and_self, if_true,
          load_outside hend]
        exact ⟨_, rfl⟩
      · rw [buffer_alone, load_outside hoff]
        exact ⟨_, rfl⟩
  -- this header is skipped
  | @next off x hlower _ ih =>
    cases fuel with
    | zero => exact ⟨_, rfl⟩
    | succ fuel =>
      unfold skipExtensions
      by_cases hend : off + 1 < pkt.length
      · obtain ⟨next, hnext, hbyte⟩ := load_byteAt (show off < pkt.length by omega)
        obtain ⟨len, hload, hlen'⟩ := load_byteAt hend
        have hsmall : (off + 8 + len.toNat) % 65536 = off + 8 + byteAt pkt (off + 1) := by
          have := len.toNat_lt
          rw [← hlen']
          omega
        rw [← hbyte] at hlower
        simp only [buffer_alone, hnext, hload, hsmall, bind, Except.bind, hlower, hupper, Bool.not_false, Bool.and_self,
          if_true]
        exact ih _ (isUpperLayer_of_isLowerLayer hlower) houtside
      · by_cases hoff : off < pkt.length
        · obtain ⟨next, hnext, hbyte⟩ := load_byteAt hoff
          rw [← hbyte] at hlower
          simp only [buffer_alone, hnext, bind, Except.bind, hlower, hupper, Bool.not_false, Bool.and_self, if_true,
            load_outside hend]
          exact ⟨_, rfl⟩
        · rw [buffer_alone, load_outside hoff]
          exact ⟨_, rfl⟩

/-! ## The IP header -/

/-- An IPv4 packet that `handle_ip` goes on with. -/
def IsIp4 (pkt : Bytes) : Prop :=
  byteAt pkt 0 / 16 = 4 ∧ 20 ≤ pkt.length ∧ (byteAt pkt 6 + 256 * byteAt pkt 7) &&& IP_MF = 0 ∧
    byteAt pkt 2 * 256 + byteAt pkt 3 = pkt.length

/-- An IPv6 packet that `handle_ip` goes on with. -/
def IsIp6 (pkt : Bytes) : Prop := byteAt pkt 0 / 16 = 6 ∧ 40 ≤ pkt.length

/-- The protocol in the IP header, and the offset of what comes after the header. -/
def protocolOf (pkt : Bytes) : Nat := byteAt pkt (if byteAt pkt 0 / 16 = 4 then 9 else 6)

def transportOf (pkt : Bytes) : Nat := if byteAt pkt 0 / 16 = 4 then headerBytes (byteAt pkt 0 % 16) else 40

/-- What is taken from the header of an IPv4 packet. -/
def ip4Fields (pkt : Bytes) : IpPacket :=
  ⟨4, byteAt pkt 9, (pkt.drop 12).take 4, (pkt.drop 16).take 4, 20 + optionLength (byteAt pkt 0 % 16)⟩

theorem parseIp_ip4_eq {pkt : TunPacket} (hversion : byteAt pkt.buffer 0 / 16 = 4) (hlen : 20 ≤ pkt.length) :
    parseIp pkt =
      .ok (if (byteAt pkt.buffer 6 + 256 * byteAt pkt.buffer 7) &&& IP_MF ≠ 0 then none
        else if byteAt pkt.buffer 2 * 256 + byteAt pkt.buffer 3 ≠ pkt.length then none
        else some (ip4Fields pkt.buffer)) := by
  have hbuffer : 20 ≤ pkt.buffer.length := hlen.trans pkt.inside
  obtain ⟨first, hfirst, hbyte⟩ := load_byteAt (show 0 < pkt.buffer.length by omega)
  obtain ⟨low, hlow, hbyte6⟩ := load_byteAt (show 6 < pkt.buffer.length by omega)
  obtain ⟨high, hhigh, hbyte7⟩ := load_byteAt (show 7 < pkt.buffer.length by omega)
  obtain ⟨protocol, hprotocol, hbyte9⟩ := load_byteAt (show 9 < pkt.buffer.length by omega)
  have htotLen := loadBe16_byteAt (show 2 + 1 < pkt.buffer.length by omega)
  have hsaddr := loadBytes_inside (show 12 + 4 ≤ pkt.buffer.length by omega)
  have hdaddr := loadBytes_inside (show 16 + 4 ≤ pkt.buffer.length by omega)
  simp only [parseIp, parseIp4, hfirst, htotLen, hlow, hhigh, hprotocol, hsaddr, hdaddr, bind, Except.bind, pure,
    Except.pure, hbyte, hbyte6, hbyte7, hbyte9, hversion, if_true, if_neg (not_lt.2 hlen), ip4Fields]
  split_ifs <;> rfl

theorem parseIp_ip4 (h : IsIp4 pkt) :
    ∃ p, parseIp pkt = .ok (some p) ∧ p.protocol = protocolOf pkt ∧ p.payload = transportOf pkt := by
  obtain ⟨hversion, hlen, hmf, htot⟩ := h
  refine ⟨ip4Fields pkt, ?_, ?_, ?_⟩
  · rw [parseIp_ip4_eq (show byteAt (alone pkt).buffer 0 / 16 = 4 from hversion) hlen, buffer_alone, length_alone,
      if_neg (not_not.2 hmf), if_neg (not_not.2 htot)]
  · rw [protocolOf, if_pos hversion, ip4Fields]
  · rw [transportOf, if_pos hversion]
    exact headerBytes_eq (Nat.mod_lt _ (by decide))

/-- The extension headers of an IPv6 packet are inside of it. -/
def ExtensionsInside (pkt : Bytes) : Prop := ∀ x, ExtensionAt pkt 40 x → ExtensionInside pkt x

theorem protocolOf_ip6 (h : IsIp6 pkt) : protocolOf pkt = byteAt pkt 6 ∧ transportOf pkt = 40 := by
  have hversion : ¬byteAt pkt 0 / 16 = 4 := by rw [h.1]; decide
  exact ⟨by rw [protocolOf, if_neg hversion], by rw [transportOf, if_neg hversion]⟩

/-- Extension headers are skipped only to go back to the protocol of the header. -/
theorem extensionOffset_spec (next : Nat) (hlen : pkt.length ≤ 10000) :
    (isUpperLayer next = true ∨ ExtensionsInside pkt → extensionOffset pkt next = .ok (0, next)) ∧
      (isUpperLayer next = false → ¬ExtensionsInside pkt → ∃ f, extensionOffset pkt next = .error f) := by
  simp only [extensionOffset, buffer_alone]
  constructor
  · intro h
    by_cases hupper : isUpperLayer next = true
    · rw [if_pos hupper]
    · obtain ⟨off, protocol, hskip, hlower⟩ := skipExtensions_ok hlen (show pkt.length ≤ 40 + pkt.length by omega)
        (by simpa using hupper) (h.resolve_left hupper)
      simp only [hupper, if_false, hskip, hlower, bind, Except.bind, pure, Except.pure, Bool.false_eq_true]
  · intro hupper houtside
    rw [ExtensionsInside, not_forall] at houtside
    obtain ⟨x, hx⟩ := houtside
    rw [Classical.not_imp] at hx
    obtain ⟨f, hskip⟩ := skipExtensions_outside pkt.length hlen hupper hx.1 hx.2
    simp only [hupper, Bool.false_eq_true, if_false, hskip, bind, Except.bind]
    exact ⟨f, rfl⟩

theorem parseIp_ip6_eq (h : IsIp6 pkt) : parseIp pkt = (do
    let r ← extensionOffset pkt (byteAt pkt 6)
    return some ⟨6, r.2, (pkt.drop 8).take 16, (pkt.drop 24).take 16, 40 + r.1⟩) := by
  obtain ⟨hversion, hlong⟩ := h
  obtain ⟨first, hfirst, hbyte⟩ := load_byteAt (show 0 < pkt.length by omega)
  obtain ⟨next, hnext, hbyte6⟩ := load_byteAt (show 6 < pkt.length by omega)
  have hsaddr := loadBytes_inside (show 8 + 16 ≤ pkt.length by omega)
  have hdaddr := loadBytes_inside (show 24 + 16 ≤ pkt.length by omega)
  simp only [parseIp, parseIp6, buffer_alone, length_alone, hfirst, hnext, hsaddr, hdaddr, bind, Except.bind, hbyte,
    hbyte6, hversion, if_neg (show ¬6 = 4 by decide), if_neg (show ¬pkt.length < 40 by omega), if_true]

theorem parseIp_ip6 (h : IsIp6 pkt) (hlen : pkt.length ≤ 10000) :
    (isUpperLayer (protocolOf pkt) = true ∨ ExtensionsInside pkt →
        ∃ p, parseIp pkt = .ok (some p) ∧ p.protocol = protocolOf pkt ∧ p.payload = transportOf pkt) ∧
      (isUpperLayer (protocolOf pkt) = false → ¬ExtensionsInside pkt → ∃ f, parseIp pkt = .error f) := by
  obtain ⟨hprotocol, htransport⟩ := protocolOf_ip6 h
  obtain ⟨hok, herror⟩ := extensionOffset_spec (byteAt pkt 6) hlen
  rw [hprotocol, htransport, parseIp_ip6_eq h]
  constructor
  · intro h
    rw [hok h]
    exact ⟨_, rfl, rfl, rfl⟩
  · intro hupper houtside
    obtain ⟨f, hf⟩ := herror hupper houtside
    rw [hf]
    exact ⟨f, rfl⟩

/-- Every other packet is dropped without a read outside of it. -/
theorem parseIp_other (hne : 0 < pkt.length) (h4 : ¬IsIp4 pkt) (h6 : ¬IsIp6 pkt) : parseIp pkt = .ok none := by
  by_cases hlong4 : byteAt pkt 0 / 16 = 4 ∧ 20 ≤ pkt.length
  · rw [parseIp_ip4_eq (show byteAt (alone pkt).buffer 0 / 16 = 4 from hlong4.1) hlong4.2, buffer_alone, length_alone]
    by_cases hmf : (byteAt pkt 6 + 256 * byteAt pkt 7) &&& IP_MF = 0
    · rw [if_neg (not_not.2 hmf), if_pos fun htot => h4 ⟨hlong4.1, hlong4.2, hmf, htot⟩]
    · rw [if_pos hmf]
  · obtain ⟨first, hfirst, hbyte⟩ := load_byteAt hne
    simp only [parseIp, buffer_alone, hfirst, bind, Except.bind, hbyte]
    by_cases hv4 : byteAt pkt 0 / 16 = 4
    · rw [if_pos hv4, parseIp4, length_alone, if_pos (not_le.1 fun hlen => hlong4 ⟨hv4, hlen⟩)]
    · rw [if_neg hv4]
      by_cases hv6 : byteAt pkt 0 / 16 = 6
      · have hshort : pkt.length < 40 := not_le.1 fun hlong => h6 ⟨hv6, hlong⟩
        rw [if_pos hv6, parseIp6, length_alone, if_pos hshort]
      · rw [if_neg hv6]
        rfl

/-! ## Ports -/

/-- The header a packet of the protocol has to have. -/
def headerSize (protocol : Nat) : Nat := if protocol = IPPROTO_TCP then 20 else 8

section Ports

variable {payload size : Nat}

theorem tooShort_inside (h : payload ≤ pkt.length) :
    tooShort pkt payload size = decide (pkt.length < payload + size) := by
  rw [tooShort, length_alone, decide_eq_true h, Bool.true_and]
  exact decide_eq_decide.2 (by omega)

/-- The difference wraps, and is not too short. -/
theorem tooShort_outside (h : pkt.length < payload) : tooShort pkt payload size = false := by
  rw [tooShort, length_alone, decide_eq_false (not_le.2 h), Bool.false_and]

theorem loadBe16_outside {i : Nat} (h : pkt.length ≤ i) : loadBe16 pkt i = .error (.read i) := by
  rw [loadBe16, load_outside (not_lt.2 h)]
  rfl

theorem icmpPorts_spec : (payload ≤ pkt.length → icmpPorts pkt payload = .ok none ∧ pkt.length < payload + 8 ∨
      payload + 8 ≤ pkt.length ∧ ∃ ports, icmpPorts pkt payload = .ok (some ports)) ∧
    (pkt.length < payload → ∃ f, icmpPorts pkt payload = .error f) := by
  simp only [icmpPorts, buffer_alone]
  constructor
  · intro hin
    rw [tooShort_inside hin]
    by_cases hshort : pkt.length < payload + 8
    · rw [if_pos (decide_eq_true hshort)]
      exact .inl ⟨rfl, hshort⟩
    · have hid := loadBe16_byteAt (show payload + 4 + 1 < pkt.length by omega)
      rw [decide_eq_false hshort, if_neg Bool.false_ne_true, hid]
      exact .inr ⟨by omega, _, rfl⟩
  · intro hout
    rw [tooShort_outside hout, if_neg Bool.false_ne_true, loadBe16_outside (by omega)]
    exact ⟨_, rfl⟩

theorem udpPorts_spec : (payload ≤ pkt.length → udpPorts pkt payload = .ok none ∧ pkt.length < payload + 8 ∨
      payload + 8 ≤ pkt.length ∧ ∃ ports, udpPorts pkt payload = .ok (some ports)) ∧
    (pkt.length < payload → ∃ f, udpPorts pkt payload = .error f) := by
  simp only [udpPorts, buffer_alone]
  constructor
  · intro hin
    rw [tooShort_inside hin]
    by_cases hshort : pkt.length < payload + 8
    · rw [if_pos (decide_eq_true hshort)]
      exact .inl ⟨rfl, hshort⟩
    · have hsport := loadBe16_byteAt (show payload + 1 < pkt.length by omega)
      have hdport := loadBe16_byteAt (show payload + 2 + 1 < pkt.length by omega)
      rw [decide_eq_false hshort, if_neg Bool.false_ne_true, hsport, hdport]
      exact .inr ⟨by omega, _, rfl⟩
  · intro hout
    rw [tooShort_outside hout, if_neg Bool.false_ne_true, loadBe16_outside (by omega)]
    exact ⟨_, rfl⟩

theorem tcpPorts_spec : (payload ≤ pkt.length → tcpPorts pkt payload = .ok none ∧ pkt.length < payload + 20 ∨
      payload + 20 ≤ pkt.length ∧
        ∃ ports, tcpPorts pkt payload = .ok (some ports) ∧ ports.syn = (byteAt pkt (payload + 13)).testBit 1) ∧
    (pkt.length < payload → ∃ f, tcpPorts pkt payload = .error f) := by
  simp only [tcpPorts, buffer_alone]
  constructor
  · intro hin
    rw [tooShort_inside hin]
    by_cases hshort : pkt.length < payload + 20
    · rw [if_pos (decide_eq_true hshort)]
      exact .inl ⟨rfl, hshort⟩
    · have hsport := loadBe16_byteAt (show payload + 1 < pkt.length by omega)
      have hdport := loadBe16_byteAt (show payload + 2 + 1 < pkt.length by omega)
      obtain ⟨flags, hflags, hbyte⟩ := load_byteAt (show payload + 13 < pkt.length by omega)
      rw [decide_eq_false hshort, if_neg Bool.false_ne_true, hsport, hdport]
      simp only [hflags, bind, Except.bind, pure, Except.pure]
      exact .inr ⟨by omega, _, rfl, by rw [hbyte]⟩
  · intro hout
    rw [tooShort_outside hout, if_neg Bool.false_ne_true, loadBe16_outside (by omega)]
    exact ⟨_, rfl⟩

end Ports

/-- The ports are read inside the packet exactly when the payload starts there; then the header is inside,
or the packet is dropped. -/
theorem readPorts_spec (p : IpPacket) (hupper : isUpperLayer p.protocol = true) :
    (p.payload ≤ pkt.length → readPorts pkt p = .ok none ∧ pkt.length < p.payload + headerSize p.protocol ∨
        p.payload + headerSize p.protocol ≤ pkt.length ∧ ∃ ports, readPorts pkt p = .ok (some ports) ∧
          (p.protocol = IPPROTO_TCP → ports.syn = (byteAt pkt (p.payload + 13)).testBit 1)) ∧
      (pkt.length < p.payload → ∃ f, readPorts pkt p = .error f) := by
  have hcases : (p.protocol = IPPROTO_ICMP ∨ p.protocol = IPPROTO_ICMPV6) ∨ p.protocol = IPPROTO_UDP ∨
      p.protocol = IPPROTO_TCP := by
    simp only [isUpperLayer, Bool.or_eq_true, decide_eq_true_eq] at hupper
    tauto
  unfold readPorts headerSize
  rcases hcases with hicmp | hudp | htcp
  · have hne : p.protocol ≠ IPPROTO_TCP := by rcases hicmp with h | h <;> rw [h] <;> decide
    rw [if_pos hicmp, if_neg hne]
    refine ⟨fun hin => (icmpPorts_spec.1 hin).imp_right ?_, icmpPorts_spec.2⟩
    rintro ⟨hfits, ports, hports⟩
    exact ⟨hfits, ports, hports, fun h => absurd h hne⟩
  · have hicmp : ¬(p.protocol = IPPROTO_ICMP ∨ p.protocol = IPPROTO_ICMPV6) := by rw [hudp]; decide
    have hne : p.protocol ≠ IPPROTO_TCP := by rw [hudp]; decide
    rw [if_neg hicmp, if_pos hudp, if_neg hne]
    refine ⟨fun hin => (udpPorts_spec.1 hin).imp_right ?_, udpPorts_spec.2⟩
    rintro ⟨hfits, ports, hports⟩
    exact ⟨hfits, ports, hports, fun h => absurd h hne⟩
  · have hicmp : ¬(p.protocol = IPPROTO_ICMP ∨ p.protocol = IPPROTO_ICMPV6) := by rw [htcp]; decide
    have hudp : p.protocol ≠ IPPROTO_UDP := by rw [htcp]; decide
    rw [if_neg hicmp, if_neg hudp, if_pos htcp, if_pos htcp]
    refine ⟨fun hin => (tcpPorts_spec.1 hin).imp_right ?_, tcpPorts_spec.2⟩
    rintro ⟨hfits, ports, hports, hsyn⟩
    exact ⟨hfits, ports, hports, fun _ => hsyn⟩

theorem readPorts_other (p : IpPacket) (hupper : isUpperLayer p.protocol = false) :
    readPorts pkt p = .ok (some ⟨0, 0, false⟩) := by
  simp only [isUpperLayer, Bool.or_eq_false_iff, decide_eq_false_iff_not] at hupper
  obtain ⟨⟨⟨htcp, hudp⟩, hicmp⟩, hicmp6⟩ := hupper
  rw [readPorts, if_neg (not_or.2 ⟨hicmp, hicmp6⟩), if_neg hudp, if_neg htcp]

/-! ## What is handed on -/

/-- The first part of `handle_ip`: the protocol, the addresses, the ports and the SYN flag. -/
def readHeaders (pkt : Bytes) : Except Fault (Option (IpPacket × Ports)) := do
  match ← parseIp pkt with
  | none => return none
  | some p => return (← readPorts pkt p).map (p, ·)

theorem handleIp_eq (args : Arguments) (ctx : Context) (sessions : Int) (pkt : Bytes) (calls : TunCalls) :
    handleIp args ctx sessions pkt calls = (do
      match ← readHeaders pkt with
      | none => return (ctx, [])
      | some (p, ports) => handlePacket args ctx sessions pkt p ports calls) := by
  unfold handleIp readHeaders
  cases parseIp pkt with
  | error f => rfl
  | ok packet =>
    cases packet with
    | none => rfl
    | some p =>
      simp only [bind, Except.bind, pure, Except.pure]
      cases readPorts pkt p with
      | error f => rfl
      | ok ports => cases ports <;> rfl

/-- `handle_ip` goes on to look for a host name and calls a handler. -/
structure HandedOn (args : Arguments) (ctx : Context) (sessions : Int) (pkt : Bytes) (p : IpPacket)
    (ports : Ports) : Prop where
  reads : ReadsPacket pkt p ports
  room : ¬(args.maxsessions ≤ sessions ∧ startsFlow args ctx p ports = true)

/-- The header of the transport and the data that the length fields give are inside the packet. -/
structure TransportInside (pkt : Bytes) (p : IpPacket) : Prop where
  header : isUpperLayer p.protocol = true → p.payload + headerSize p.protocol ≤ pkt.length
  data : p.protocol = IPPROTO_TCP → ∃ data datalen, tcpRange pkt p = .ok (data, datalen) ∧ data + datalen ≤ pkt.length

/-- All that is read of the headers is inside the packet, and so is all that is handed on. -/
structure InBounds (args : Arguments) (ctx : Context) (sessions : Int) (pkt : Bytes) : Prop where
  headers : ∃ r, readHeaders pkt = .ok r
  transport : ∀ p ports, HandedOn args ctx sessions pkt p ports → TransportInside pkt p

/-- The fields that give the lengths of headers lead to places inside the packet. -/
structure FieldsInside (args : Arguments) (sessions : Int) (pkt : Bytes) : Prop where
  extensions : IsIp6 pkt → isUpperLayer (protocolOf pkt) = false → ExtensionsInside pkt
  transport : IsIp4 pkt ∨ IsIp6 pkt → isUpperLayer (protocolOf pkt) = true → transportOf pkt ≤ pkt.length
  /-- Segments that are too short for a header and SYNs at the limit are dropped. -/
  data : IsIp4 pkt ∨ IsIp6 pkt → protocolOf pkt = IPPROTO_TCP → transportOf pkt + 20 ≤ pkt.length →
    ¬(args.maxsessions ≤ sessions ∧ (byteAt pkt (transportOf pkt + 13)).testBit 1 = true) →
    transportOf pkt + headerBytes (byteAt pkt (transportOf pkt + 12) / 16) ≤ pkt.length

section Bounds

variable {args : Arguments} {ctx : Context} {sessions : Int} {p : IpPacket} {ports : Ports}

theorem parseIp_taken (hlen : pkt.length ≤ 10000) (htaken : IsIp4 pkt ∨ IsIp6 pkt)
    (hext : IsIp6 pkt → isUpperLayer (protocolOf pkt) = false → ExtensionsInside pkt) :
    ∃ p, parseIp pkt = .ok (some p) ∧ p.protocol = protocolOf pkt ∧ p.payload = transportOf pkt := by
  rcases htaken with h4 | h6
  · exact parseIp_ip4 h4
  · apply (parseIp_ip6 h6 hlen).1
    cases hupper : isUpperLayer (protocolOf pkt) with
    | true => exact .inl rfl
    | false => exact .inr (hext h6 hupper)

/-- The data of a segment as its data offset gives it. -/
theorem tcpRange_eq (hfits : p.payload + 20 ≤ pkt.length) : tcpRange pkt p =
    .ok (p.payload + headerBytes (byteAt pkt (p.payload + 12) / 16),
      tcpDatalen pkt (p.payload + headerBytes (byteAt pkt (p.payload + 12) / 16))) := by
  obtain ⟨doff, hdoff, hbyte⟩ := load_byteAt (show p.payload + 12 < pkt.length by omega)
  have hwords : doff.toNat / 16 < 16 := by
    have := doff.toNat_lt
    omega
  rw [← hbyte, ← headerBytes_eq hwords, ← Nat.add_assoc]
  simp only [tcpRange, buffer_alone, hdoff, bind, Except.bind, pure, Except.pure, tcpData]

theorem startsFlow_tcp (hprotocol : p.protocol = IPPROTO_TCP) : startsFlow args ctx p ports = ports.syn := by
  simp [startsFlow, hprotocol, isIcmp, IPPROTO_TCP, IPPROTO_ICMP, IPPROTO_ICMPV6, IPPROTO_UDP]

theorem fieldsInside_of_inBounds (hlen : pkt.length ≤ 10000) (h : InBounds args ctx sessions pkt) :
    FieldsInside args sessions pkt := by
  obtain ⟨r, hr⟩ := h.headers
  obtain ⟨packet, hpacket, hr⟩ := bind_eq_ok hr
  -- a part that leads outside would have made one of the reads fail
  have hext : IsIp6 pkt → isUpperLayer (protocolOf pkt) = false → ExtensionsInside pkt := by
    intro h6 hupper
    by_contra houtside
    obtain ⟨f, hf⟩ := (parseIp_ip6 h6 hlen).2 hupper houtside
    cases hpacket.symm.trans hf
  have htransport : IsIp4 pkt ∨ IsIp6 pkt → isUpperLayer (protocolOf pkt) = true → transportOf pkt ≤ pkt.length := by
    intro htaken hupper
    obtain ⟨p, hp, hprotocol, hpayload⟩ := parseIp_taken hlen htaken hext
    cases hpacket.symm.trans hp
    by_contra hout
    rw [← hprotocol] at hupper
    rw [← hpayload, not_le] at hout
    obtain ⟨f, hf⟩ := (readPorts_spec p hupper).2 hout
    simp only [hf, bind, Except.bind] at hr
    cases hr
  refine ⟨hext, htransport, fun htaken htcp hfits hroom => ?_⟩
  have hupper : isUpperLayer (protocolOf pkt) = true := by rw [htcp]; rfl
  obtain ⟨p, hp, hprotocol, hpayload⟩ := parseIp_taken hlen htaken hext
  have hpTcp : p.protocol = IPPROTO_TCP := hprotocol.trans htcp
  rw [← hpayload] at hfits hroom ⊢
  have hin : p.payload ≤ pkt.length := Nat.le_trans (Nat.le_add_right _ _) hfits
  rcases (readPorts_spec p (hprotocol ▸ hupper)).1 hin with ⟨-, hshort⟩ | ⟨-, ports, hports, hsyn⟩
  · rw [headerSize, if_pos hpTcp] at hshort
    omega
  · have handed : HandedOn args ctx sessions pkt p ports := by
      refine ⟨⟨hp, hports⟩, ?_⟩
      rw [startsFlow_tcp hpTcp, hsyn hpTcp]
      exact hroom
    obtain ⟨data, datalen, hrange, hinside⟩ := (h.transport p ports handed).data hpTcp
    cases (tcpRange_eq hfits).symm.trans hrange
    omega

theorem inBounds_of_fieldsInside (hne : 1 ≤ pkt.length) (hlen : pkt.length ≤ 10000)
    (h : FieldsInside args sessions pkt) :
    InBounds args ctx sessions pkt := by
  by_cases htaken : IsIp4 pkt ∨ IsIp6 pkt
  · obtain ⟨p, hp, hprotocol, hpayload⟩ := parseIp_taken hlen htaken h.extensions
    constructor
    · cases hupper : isUpperLayer p.protocol with
      | true =>
        have hin := h.transport htaken (hprotocol ▸ hupper)
        rw [← hpayload] at hin
        rcases (readPorts_spec p hupper).1 hin with ⟨hports, -⟩ | ⟨-, ports, hports, -⟩
        · exact ⟨none, by simp [readHeaders, hp, hports, bind, Except.bind, pure, Except.pure]⟩
        · exact ⟨some (p, ports), by simp [readHeaders, hp, hports, bind, Except.bind, pure, Except.pure]⟩
      | false =>
        exact ⟨some (p, ⟨0, 0, false⟩),
          by simp [readHeaders, hp, readPorts_other p hupper, bind, Except.bind, pure, Except.pure]⟩
    -- the packet that is handed on is the one that was read
    · rintro p' ports ⟨⟨hp', hports⟩, hroom⟩
      cases hp.symm.trans hp'
      have hfits : isUpperLayer p.protocol = true → p.payload + headerSize p.protocol ≤ pkt.length ∧
          (p.protocol = IPPROTO_TCP → ports.syn = (byteAt pkt (p.payload + 13)).testBit 1) := by
        intro hupper
        have hin := h.transport htaken (hprotocol ▸ hupper)
        rw [← hpayload] at hin
        rcases (readPorts_spec p hupper).1 hin with ⟨hnone, -⟩ | ⟨hfits, ports', hports', hsyn⟩
        · cases hnone.symm.trans hports
        · cases hports'.symm.trans hports
          exact ⟨hfits, hsyn⟩
      refine ⟨fun hupper => (hfits hupper).1, fun htcp => ?_⟩
      obtain ⟨hsize, hsyn⟩ := hfits (by rw [htcp]; rfl)
      rw [headerSize, if_pos htcp] at hsize
      rw [startsFlow_tcp htcp, hsyn htcp] at hroom
      have hdata := h.data htaken (hprotocol.symm.trans htcp) (hpayload ▸ hsize) (hpayload ▸ hroom)
      rw [← hpayload] at hdata
      refine ⟨_, _, tcpRange_eq hsize, ?_⟩
      rw [tcpDatalen, length_alone]
      omega
  · rw [not_or] at htaken
    have hnone := parseIp_other hne htaken.1 htaken.2
    constructor
    · exact ⟨none, by simp [readHeaders, hnone, bind, Except.bind, pure, Except.pure]⟩
    · rintro p ports ⟨⟨hp, -⟩, -⟩
      cases hnone.symm.trans hp

end Bounds

/-- For every packet of up to 10000 bytes: all that `handle_ip` reads of its headers, and all that it hands
on, is inside of it exactly when the fields that give the lengths of headers lead to places inside. -/
theorem inBounds_iff (args : Arguments) (ctx : Context) (sessions : Int) (pkt : Bytes) (hne : 1 ≤ pkt.length)
    (hlen : pkt.length ≤ 10000) : InBounds args ctx sessions pkt ↔ FieldsInside args sessions pkt :=
  ⟨fieldsInside_of_inBounds hlen, inBounds_of_fieldsInside hne hlen⟩

theorem inBounds_iff_datagram : InBounds (.plain [] _ compiled_redirectAll) ⟨[], 0⟩ 0 (datagramTo 9) ↔
    FieldsInside (.plain [] _ compiled_redirectAll) 0 (datagramTo 9) :=
  inBounds_iff _ _ _ _ (by decide) (by decide)

/-- A segment whose data offset is zero. -/
def noOffset : Bytes := (segment 100 1 0x10 []).set 32 0

/-- Its data is taken to start 236 bytes behind its end, and to have 65300 bytes. -/
theorem not_inBounds_noOffset : ¬∀ (args : Arguments) (ctx : Context) (sessions : Int) (pkt : Bytes), 1 ≤ pkt.length →
    pkt.length ≤ 10000 → InBounds args ctx sessions pkt := by
  intro hall
  have h := hall (.plain [] _ compiled_redirectAll) ⟨[], 0⟩ 0 noOffset (by decide) (by decide)
  have handed : HandedOn (.plain [] _ compiled_redirectAll) ⟨[], 0⟩ 0 noOffset
      ⟨4, 6, [10, 1, 10, 1], [8, 8, 8, 8], 20⟩ ⟨1000, 443, false⟩ := by
    refine ⟨⟨by decide +kernel, by decide +kernel⟩, ?_⟩
    rintro ⟨hlimit, -⟩
    revert hlimit
    decide
  obtain ⟨data, datalen, hrange, hinside⟩ := (h.transport _ _ handed).data rfl
  have hvalue : tcpRange noOffset ⟨4, 6, [10, 1, 10, 1], [8, 8, 8, 8], 20⟩ = .ok (276, 65300) := by decide +kernel
  cases hrange.symm.trans hvalue
  revert hinside
  decide

-- an IPv6 packet of 40 bytes with no next header is read behind its end
example : parseIp (alone ([0x60, 0, 0, 0, 0, 0, 59, 64] ++ List.replicate 32 0)) = .error (.read 40) := by
  decide +kernel

end SunProxy.Net
