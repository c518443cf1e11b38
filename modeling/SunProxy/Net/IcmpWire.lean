/-
ICMP packets as their receiver reads them: a packet of `write_icmp` is one that `handle_ip` would go on
with, and its identifier is the one of the session.
-/
import SunProxy.Net.Ip
import SunProxy.Net.TcpWire

namespace SunProxy.Net

open SunProxy.Buffer SunProxy.Result

/-! ## Packets that were written -/

theorem exists_checkBytes (csum : Nat) : ∃ a b, checkBytes csum = [a, b] := ⟨_, _, rfl⟩

/-- An IPv4 packet is read as it was written. -/
theorem parseIp_ip4Packet {protocol : Nat} {saddr daddr payload : Bytes} (hsaddr : saddr.length = 4)
    (hdaddr : daddr.length = 4) (hprotocol : protocol < 256) (hlen : payload.length < 65516) :
    parseIp (ip4Packet protocol saddr daddr payload) = .ok (some ⟨4, protocol, saddr, daddr, 20⟩) := by
  unfold ip4Packet
  dsimp only
  obtain ⟨a, b, hcheck⟩ :=
    exists_checkBytes (calcChecksum 0 (ip4Header (20 + payload.length) protocol [0, 0] saddr daddr))
  rw [hcheck]
  have hpkt : ip4Header (20 + payload.length) protocol [a, b] saddr daddr ++ payload = [0x45, 0] ++
      (be16 (20 + payload.length) ++
        ([0, 0, 0, 0, IPDEFTTL, UInt8.ofNat protocol, a, b] ++ (saddr ++ (daddr ++ payload)))) := by
    simp only [ip4Header, List.append_assoc, List.cons_append, List.nil_append]
  rw [hpkt]
  generalize hdata : [0x45, 0] ++ (be16 (20 + payload.length) ++
    ([0, 0, 0, 0, IPDEFTTL, UInt8.ofNat protocol, a, b] ++ (saddr ++ (daddr ++ payload)))) = data
  have hlength : data.length = 20 + payload.length := by
    simp only [← hdata, List.length_append, List.length_cons, List.length_nil, length_be16, hsaddr, hdaddr]
    omega
  have htot : loadBe16 data 2 = .ok (20 + payload.length) := by
    rw [← hdata]
    exact loadBe16_append [0x45, 0] _ rfl (by omega)
  have hfrom : loadBytes data 12 4 = .ok saddr := by
    rw [← hdata]
    exact loadBytes_append ([0x45, 0] ++ be16 (20 + payload.length) ++
      [0, 0, 0, 0, IPDEFTTL, UInt8.ofNat protocol, a, b]) (daddr ++ payload) rfl hsaddr.symm
  have hto : loadBytes data 16 4 = .ok daddr := by
    rw [← hdata]
    have h := loadBytes_append ([0x45, 0] ++ be16 (20 + payload.length) ++
      [0, 0, 0, 0, IPDEFTTL, UInt8.ofNat protocol, a, b] ++ saddr) payload (by simp [hsaddr] : 16 = _) hdaddr.symm
    simpa only [List.append_assoc] using h
  have hfirst : load data 0 = .ok 0x45 := by rw [← hdata]; rfl
  have hlow : load data 6 = .ok 0 := by rw [← hdata]; rfl
  have hhigh : load data 7 = .ok 0 := by rw [← hdata]; rfl
  have hproto : load data 9 = .ok (UInt8.ofNat protocol) := by rw [← hdata]; rfl
  have hnum : (UInt8.ofNat protocol).toNat = protocol := by
    rw [UInt8.toNat_ofNat']
    omega
  have hversion : (0x45 : UInt8).toNat / 16 = 4 := by decide
  have hwhole : (0 : UInt8).toNat + 256 * (0 : UInt8).toNat &&& IP_MF = 0 := by decide
  have hoptions : 20 + optionLength ((0x45 : UInt8).toNat % 16) = 20 := by decide
  simp only [parseIp, parseIp4, TunPacket.buffer_alone, TunPacket.length_alone, hfirst, htot, hlow, hhigh, hproto,
    hfrom, hto, bind, Except.bind, pure, Except.pure, hversion, hwhole, hoptions, hnum, hlength, if_true,
    if_neg (show ¬20 + payload.length < 20 by omega), ne_eq, not_true_eq_false, if_false]

/-- An IPv6 packet for a protocol of the upper layer is read as it was written. -/
theorem parseIp_ip6Packet {protocol : Nat} {saddr daddr payload : Bytes} (hsaddr : saddr.length = 16)
    (hdaddr : daddr.length = 16) (hprotocol : protocol < 256) (hupper : isUpperLayer protocol = true) :
    parseIp (ip6Packet protocol saddr daddr payload) = .ok (some ⟨6, protocol, saddr, daddr, 40⟩) := by
  have hpkt : ip6Packet protocol saddr daddr payload = [0x60, 0, 0, 0] ++ (be16 payload.length ++
      ([UInt8.ofNat protocol, IPDEFTTL] ++ (saddr ++ (daddr ++ payload)))) := by
    simp only [ip6Packet, List.append_assoc]
  rw [hpkt]
  generalize hdata : [0x60, 0, 0, 0] ++ (be16 payload.length ++
    ([UInt8.ofNat protocol, IPDEFTTL] ++ (saddr ++ (daddr ++ payload)))) = data
  have hlength : 40 ≤ data.length := by
    simp only [← hdata, List.length_append, List.length_cons, List.length_nil, length_be16, hsaddr, hdaddr]
    omega
  have hfirst : load data 0 = .ok 0x60 := by rw [← hdata]; rfl
  have hnext : load data 6 = .ok (UInt8.ofNat protocol) := by rw [← hdata]; rfl
  have hfrom : loadBytes data 8 16 = .ok saddr := by
    rw [← hdata]
    exact loadBytes_append ([0x60, 0, 0, 0] ++ be16 payload.length ++ [UInt8.ofNat protocol, IPDEFTTL])
      (daddr ++ payload) rfl hsaddr.symm
  have hto : loadBytes data 24 16 = .ok daddr := by
    rw [← hdata]
    have h := loadBytes_append ([0x60, 0, 0, 0] ++ be16 payload.length ++ [UInt8.ofNat protocol, IPDEFTTL] ++ saddr)
      payload (by simp [hsaddr] : 24 = _) hdaddr.symm
    simpa only [List.append_assoc] using h
  have hnum : (UInt8.ofNat protocol).toNat = protocol := by
    rw [UInt8.toNat_ofNat']
    omega
  have hversion : (0x60 : UInt8).toNat / 16 = 6 := by decide
  simp only [parseIp, parseIp6, extensionOffset, TunPacket.buffer_alone, TunPacket.length_alone, hfirst, hnext, hfrom,
    hto, bind, Except.bind, pure, Except.pure, hversion, hnum, hupper, if_true, if_neg (show ¬6 = 4 by decide),
    if_neg (show ¬data.length < 40 by omega), Nat.add_zero]

/-- A packet of the engine is read as it was written, for a protocol of the upper layer. -/
theorem parseIp_ipPacket {flow : Flow} (h : flow.WellFormed) {protocol : Nat} {payload : Bytes}
    (hupper : isUpperLayer protocol = true) (hlen : flow.version = 4 → payload.length < 65516) :
    parseIp (ipPacket flow.version protocol flow.daddr flow.saddr payload) =
      .ok (some ⟨flow.version, protocol, flow.daddr, flow.saddr, ipHeaderLength flow.version⟩) := by
  have hprotocol : protocol < 256 := by
    simp only [isUpperLayer, Bool.or_eq_true, decide_eq_true_eq] at hupper
    rcases hupper with ((rfl | rfl) | rfl) | rfl <;> decide
  rcases h with ⟨hversion, hsaddr, hdaddr⟩ | ⟨hversion, hsaddr, hdaddr⟩
  · rw [hversion]
    exact parseIp_ip4Packet hdaddr hsaddr hprotocol (hlen hversion)
  · rw [hversion]
    exact parseIp_ip6Packet hdaddr hsaddr hprotocol hupper

theorem addresses_of_parseIp4 {pkt : TunPacket} {p : IpPacket} (h : parseIp4 pkt = .ok (some p)) :
    p.version = 4 ∧ p.saddr.length = 4 ∧ p.daddr.length = 4 := by
  unfold parseIp4 at h
  split at h
  · cases h
  · obtain ⟨first, -, h⟩ := bind_eq_ok h
    obtain ⟨totLen, -, h⟩ := bind_eq_ok h
    obtain ⟨low, -, h⟩ := bind_eq_ok h
    obtain ⟨high, -, h⟩ := bind_eq_ok h
    obtain ⟨protocol, -, h⟩ := bind_eq_ok h
    obtain ⟨saddr, hsaddr, h⟩ := bind_eq_ok h
    obtain ⟨daddr, hdaddr, h⟩ := bind_eq_ok h
    -- fragments and packets of another length than their own are dropped
    split at h
    · cases h
    · split at h <;> cases h
      exact ⟨rfl, length_of_loadBytes hsaddr, length_of_loadBytes hdaddr⟩

theorem addresses_of_parseIp6 {pkt : TunPacket} {p : IpPacket} (h : parseIp6 pkt = .ok (some p)) :
    p.version = 6 ∧ p.saddr.length = 16 ∧ p.daddr.length = 16 := by
  unfold parseIp6 at h
  split at h
  · cases h
  · obtain ⟨next, -, h⟩ := bind_eq_ok h
    obtain ⟨saddr, hsaddr, h⟩ := bind_eq_ok h
    obtain ⟨daddr, hdaddr, h⟩ := bind_eq_ok h
    obtain ⟨r, -, h⟩ := bind_eq_ok h
    cases h
    exact ⟨rfl, length_of_loadBytes hsaddr, length_of_loadBytes hdaddr⟩

/-- The addresses of a packet that is read are of its version. -/
theorem addresses_of_parseIp {pkt : TunPacket} {p : IpPacket} (h : parseIp pkt = .ok (some p)) :
    p.version = 4 ∧ p.saddr.length = 4 ∧ p.daddr.length = 4 ∨
      p.version = 6 ∧ p.saddr.length = 16 ∧ p.daddr.length = 16 := by
  obtain ⟨first, -, h⟩ := bind_eq_ok h
  split at h
  · exact .inl (addresses_of_parseIp4 h)
  · split at h
    · exact .inr (addresses_of_parseIp6 h)
    · cases h

/-! ## Identifiers -/

/-- The identifier of the echo message in a packet. -/
def identifier (pkt : TunPacket) : Option Nat :=
  match parseIp pkt with
  | .ok (some p) => if isIcmp p.protocol then (loadBe16 pkt.buffer (p.payload + 4)).toOption else none
  | _ => none

theorem identifier_eq {pkt : TunPacket} {p : IpPacket} {id : Nat} (hp : parseIp pkt = .ok (some p))
    (protocol : isIcmp p.protocol = true) (hid : loadBe16 pkt.buffer (p.payload + 4) = .ok id) :
    identifier pkt = some id := by
  simp only [identifier, hp, protocol, if_true, hid, Except.toOption]

/-- The identifier of a message comes after four bytes. -/
theorem withIcmpId_eq {message : Bytes} (id csum : Nat) (h : 6 ≤ message.length) :
    ∃ front : Bytes, front.length = 4 ∧ withIcmpId message id csum = front ++ (be16 id ++ message.drop 6) := by
  unfold withIcmpId
  dsimp only
  generalize hcheck : checkBytes _ = check
  have hlen : check.length = 2 := by rw [← hcheck]; rfl
  refine ⟨message.take 2 ++ check, ?_, ?_⟩
  · simp only [List.length_append, List.length_take, hlen]
    omega
  · rw [List.take_of_length_le]
    · simp only [List.append_assoc]
    · simp only [List.length_append, List.length_take, List.length_drop, hlen, length_be16]
      omega

/-- A session with addresses of its version. -/
def IcmpSession.WellFormed (i : IcmpSession) : Prop :=
  i.version = 4 ∧ i.saddr.length = 4 ∧ i.daddr.length = 4 ∨ i.version = 6 ∧ i.saddr.length = 16 ∧ i.daddr.length = 16

/-- An answer goes to the tun with the identifier of its session. -/
theorem identifier_icmpAnswer {i : IcmpSession} (h : i.WellFormed) {bytes : Bytes} (hshort : 6 ≤ bytes.length)
    (hlen : bytes.length < 65516) : identifier (icmpPacket i (icmpAnswer i bytes)) = some (i.id % 65536) := by
  obtain ⟨front, hfront, hanswer⟩ := withIcmpId_eq i.id (if i.version = 6 then calcChecksum 0 (i.daddr ++ i.saddr ++
    (be32 (((bytes.length : Int) - 40) % 4294967296).toNat).reverse ++ [0, 0, 0, UInt8.ofNat IPPROTO_ICMPV6])
      else 0) hshort
  have hdata : icmpAnswer i bytes = front ++ (be16 i.id ++ bytes.drop 6) := hanswer
  have hsize : (icmpAnswer i bytes).length = bytes.length := by
    simp only [hdata, List.length_append, hfront, length_be16, List.length_drop]
    omega
  obtain ⟨protocol, hprotocol⟩ : ∃ protocol, (if i.version = 4 then IPPROTO_ICMP else IPPROTO_ICMPV6) = protocol :=
    ⟨_, rfl⟩
  have hicmp : isIcmp protocol = true := by
    rw [← hprotocol]
    split <;> rfl
  have hupper : isUpperLayer protocol = true := by
    rw [← hprotocol]
    split <;> rfl
  -- The message comes after the header that the packet is read with.
  have hflow : Flow.WellFormed ⟨i.version, i.saddr, 0, i.daddr, 0⟩ := h
  obtain ⟨header, hheader, hpacket⟩ := ipPacket_eq hflow protocol (icmpAnswer i bytes)
  have hparse := parseIp_ipPacket hflow hupper (by rw [hsize]; exact fun _ => hlen)
  rw [icmpPacket, hprotocol]
  refine identifier_eq hparse hicmp ?_
  rw [hpacket, hdata, ← List.append_assoc]
  exact loadBe16_stored (header ++ front) _ (by simp [hfront, hheader])

end SunProxy.Net
