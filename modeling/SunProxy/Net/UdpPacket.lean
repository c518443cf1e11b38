/-
The packets of `write_udp` as a standard receiver takes them. Over IPv6 a checksum field of zero stands for
no checksum, and the receiver drops the packet; the engine stores a zero where the sum comes out as zero,
instead of all ones.
-/
import SunProxy.Net.Checksums

namespace SunProxy.Net

open SunProxy.Buffer SunProxy.OnesComplement

/-! ## The receiver -/

/-- The receiver of a UDP packet takes it. -/
structure UdpAcceptable (pkt : Bytes) : Prop where
  ipLength : if versionOf pkt = 4 then loadBe16 pkt 2 = .ok pkt.length else loadBe16 pkt 4 = .ok (pkt.length - 40)
  udpLength : loadBe16 pkt (ipHeaderLength (versionOf pkt) + 4) = .ok (pkt.length - ipHeaderLength (versionOf pkt))
  checksums : ChecksumsRight pkt
  checked : versionOf pkt = 6 → loadBe16 pkt 46 ≠ .ok 0

/-- The data is not too long for the length fields. -/
def udpFits (version : Nat) (data : Bytes) : Prop :=
  if version = 4 then 28 + data.length < 65536 else 8 + data.length < 65536

instance (version : Nat) (data : Bytes) : Decidable (udpFits version data) := inferInstanceAs (Decidable (ite _ _ _))

/-- What the checksum of a packet is taken of: the pseudo-header, the header with a zero and the data. -/
def udpChecked (flow : Flow) (data : Bytes) : Bytes :=
  pseudoHeader flow.version IPPROTO_UDP flow.daddr flow.saddr (8 + data.length) ++
    (udpHeader flow data.length [0, 0] ++ data)

/-! ## The packet -/

/-- What `write_udp` sums up for the checksum. -/
def udpBuffers (flow : Flow) (data : Bytes) : List Bytes :=
  [storedPseudo flow.version IPPROTO_UDP flow.daddr flow.saddr (8 + data.length), udpHeader flow data.length [0, 0],
    data]

/-- The fields of a UDP header before the checksum. -/
def udpFront (flow : Flow) (datalen : Nat) : Bytes := be16 flow.dest ++ be16 flow.source ++ be16 (8 + datalen)

theorem udpPacket_checked (flow : Flow) (data : Bytes) :
    udpPacket flow data = ipPacket flow.version IPPROTO_UDP flow.daddr flow.saddr
      (udpFront flow data.length ++ (checkBytes ((udpBuffers flow data).foldl calcChecksum 0) ++ data)) := by
  have hcsum : (udpBuffers flow data).foldl calcChecksum 0 = calcChecksum (calcChecksum (pseudoSum flow.version
      IPPROTO_UDP flow.daddr flow.saddr (8 + data.length)) (udpHeader flow data.length [0, 0])) data := by
    rw [pseudoSum_eq]
    rfl
  rw [udpPacket, hcsum]
  simp only [udpHeader, udpFront, List.append_assoc]

section Packet

variable {flow : Flow} {data : Bytes}

/-- The sum that is stored, while the data fits. -/
theorem udpChecksum_eq (h : flow.WellFormed) (hlen : 8 + data.length < 65536) :
    (udpBuffers flow data).foldl calcChecksum 0 = endAround 65535
      (lowSum (storedPseudo flow.version IPPROTO_UDP flow.daddr flow.saddr (8 + data.length)) +
        lowSum (udpFront flow data.length ++ ([0, 0] ++ data))) := by
  have hpseudo := length_storedPseudo_le h IPPROTO_UDP (8 + data.length)
  have hheader : (udpHeader flow data.length [0, 0]).length = 8 := rfl
  have hshort : ∀ b ∈ udpBuffers flow data, b.length ≤ 65536 := by
    intro b hb
    simp only [udpBuffers, List.mem_cons, List.not_mem_nil, or_false] at hb
    rcases hb with rfl | rfl | rfl <;> omega
  have hparts : lowSum (udpFront flow data.length ++ ([0, 0] ++ data)) =
      lowSum (udpHeader flow data.length [0, 0]) + lowSum data := by
    rw [← List.append_assoc]
    exact lowSum_append (udpHeader flow data.length [0, 0]) data ⟨4, rfl⟩
  rw [foldl_calcChecksum (by decide) hshort, hparts]
  simp only [udpBuffers, List.map_cons, List.map_nil, List.sum_cons, List.sum_nil, Nat.zero_add, Nat.add_zero]

/-- The checksum of a packet is taken of more than zeros: of the protocol. -/
theorem wordSum_udpChecked_pos (h : flow.WellFormed) (data : Bytes) : 0 < wordSum (udpChecked flow data) := by
  obtain ⟨⟨hsaddr, -⟩, hdaddr, -⟩ := h.length_even
  rw [Nat.pos_iff_ne_zero, Ne, wordSum_eq_zero, udpChecked, lowSum_append _ _ (even_pseudoHeader h IPPROTO_UDP _)]
  have hprotocol : 0 < lowSum (pseudoHeader flow.version IPPROTO_UDP flow.daddr flow.saddr (8 + data.length)) := by
    unfold pseudoHeader
    split
    · have hword : lowSum [0, UInt8.ofNat IPPROTO_UDP] = 4352 := by decide
      simp only [List.append_assoc, lowSum_append _ _ hsaddr, lowSum_append _ _ hdaddr,
        lowSum_append [0, _] _ ⟨1, rfl⟩, hword]
      omega
    · have hword : lowSum [0, 0, 0, UInt8.ofNat IPPROTO_UDP] = 4352 := by decide
      simp only [List.append_assoc, lowSum_append _ _ hsaddr, lowSum_append _ _ hdaddr,
        lowSum_append (be32 _) _ ⟨2, rfl⟩, hword]
      omega
  omega

theorem udpChecksum_eq_top (h : flow.WellFormed) (hlen : 8 + data.length < 65536) :
    (udpBuffers flow data).foldl calcChecksum 0 = 65535 ↔ 65535 ∣ wordSum (udpChecked flow data) := by
  have hchecked : lowSum (udpChecked flow data) =
      lowSum (storedPseudo flow.version IPPROTO_UDP flow.daddr flow.saddr (8 + data.length)) +
        lowSum (udpFront flow data.length ++ ([0, 0] ++ data)) := by
    rw [udpChecked, lowSum_append _ _ (even_pseudoHeader h IPPROTO_UDP _), lowSum_storedPseudo h IPPROTO_UDP hlen]
    simp only [udpHeader, udpFront, List.append_assoc]
  have hdvd : onesSum (udpChecked flow data) = 65535 ↔ 65535 ∣ wordSum (udpChecked flow data) := by
    rw [onesSum, endAround_eq_top (by decide), and_iff_right (wordSum_udpChecked_pos h data)]
  rw [← hdvd, onesSum_eq_top, hchecked, udpChecksum_eq h hlen]

/-- A length that is stored is read back when it fits. -/
theorem ok_mod_iff (n : Nat) : (.ok (n % 65536) : Except Fault Nat) = .ok n ↔ n < 65536 := by
  constructor
  · intro h
    rw [← Except.ok.inj h]
    exact Nat.mod_lt _ (by decide)
  · intro h
    rw [Nat.mod_eq_of_lt h]

theorem ipLength_ipPacket (h : flow.WellFormed) (protocol : Nat) (payload : Bytes) :
    let pkt := ipPacket flow.version protocol flow.daddr flow.saddr payload
    (if flow.version = 4 then loadBe16 pkt 2 = .ok pkt.length else loadBe16 pkt 4 = .ok (pkt.length - 40)) ↔
      if flow.version = 4 then 20 + payload.length < 65536 else payload.length < 65536 := by
  intro pkt
  obtain ⟨header, hheader, hpkt⟩ := ipPacket_eq h protocol payload
  have hlen : pkt.length = ipHeaderLength flow.version + payload.length := by
    rw [show pkt = _ from hpkt, List.length_append, hheader]
  rcases h with ⟨hversion, -⟩ | ⟨hversion, -⟩
  · have hload : loadBe16 pkt 2 = .ok ((20 + payload.length) % 65536) := by
      simp only [pkt, hversion, ipPacket, ip4Packet, ip4Header, if_true, List.append_assoc]
      exact loadBe16_stored [0x45, 0] _ rfl
    rw [if_pos hversion, if_pos hversion, hload, hlen, hversion]
    exact ok_mod_iff _
  · have hfour : ¬flow.version = 4 := by
      rw [hversion]
      decide
    have hload : loadBe16 pkt 4 = .ok (payload.length % 65536) := by
      simp only [pkt, hversion, ipPacket, ip6Packet, if_neg (show ¬6 = 4 by decide), List.append_assoc]
      exact loadBe16_stored [0x60, 0, 0, 0] _ rfl
    have hrest : pkt.length - 40 = payload.length := by
      rw [hlen, hversion]
      exact Nat.add_sub_cancel_left 40 _
    rw [if_neg hfour, if_neg hfour, hload, hrest]
    exact ok_mod_iff _

end Packet

/-- The length and the checksum in the UDP header. -/
theorem udpFields {flow : Flow} (h : flow.WellFormed) (data : Bytes) (csum : Nat) :
    let pkt := ipPacket flow.version IPPROTO_UDP flow.daddr flow.saddr
      (udpFront flow data.length ++ (checkBytes csum ++ data))
    loadBe16 pkt (ipHeaderLength flow.version + 4) = .ok ((8 + data.length) % 65536) ∧
      loadBe16 pkt (ipHeaderLength flow.version + 6) =
        .ok ((65535 - csum) % 256 * 256 + (65535 - csum) / 256 % 256) := by
  obtain ⟨header, hheader, hpkt⟩ := ipPacket_eq h IPPROTO_UDP (udpFront flow data.length ++ (checkBytes csum ++ data))
  rw [hpkt, ← hheader]
  have hlen := loadBe16_stored (header ++ be16 flow.dest ++ be16 flow.source) (checkBytes csum ++ data)
    (n := 8 + data.length) (i := header.length + 4) (by simp)
  have hcheck : loadBe16 (header ++ be16 flow.dest ++ be16 flow.source ++ be16 (8 + data.length) ++
    (checkBytes csum ++ data))
      (header.length + 6) = .ok
      ((UInt8.ofNat (65535 - csum)).toNat * 256 + (UInt8.ofNat ((65535 - csum) / 256)).toNat) :=
    loadBe16_bytes _ _ _ data (by simp)
  simp only [udpFront, List.append_assoc, UInt8.toNat_ofNat'] at hlen hcheck ⊢
  exact ⟨hlen, hcheck⟩

/-- The receiver takes a packet of `write_udp` exactly when its length fields have room, and over IPv6 the
words that its checksum is taken of do not add up to a multiple of 65535. -/
theorem udpAcceptable_iff {flow : Flow} (h : flow.WellFormed) (data : Bytes) :
    UdpAcceptable (udpPacket flow data) ↔
      udpFits flow.version data ∧ (flow.version = 6 → ¬65535 ∣ wordSum (udpChecked flow data)) := by
  have hpacket := udpPacket_checked flow data
  obtain ⟨csum, hcsum⟩ : ∃ csum, csum = (udpBuffers flow data).foldl calcChecksum 0 := ⟨_, rfl⟩
  rw [← hcsum] at hpacket
  have hpayload : (udpFront flow data.length ++ (checkBytes csum ++ data)).length = 8 + data.length := by
    simp only [udpFront, checkBytes, List.length_append, List.length_cons, List.length_nil, length_be16]
    omega
  obtain ⟨hversion, -, hdrop⟩ := received_ipPacket h (show IPPROTO_UDP < 256 by decide)
    (udpFront flow data.length ++ (checkBytes csum ++ data))
  have hip := ipLength_ipPacket h IPPROTO_UDP (udpFront flow data.length ++ (checkBytes csum ++ data))
  obtain ⟨hudp, hcheck⟩ := udpFields h data csum
  dsimp only at hip hudp hcheck
  rw [← hpacket] at hversion hdrop hip hudp hcheck
  rw [hpayload] at hip
  have hfits : (if flow.version = 4 then 20 + (8 + data.length) < 65536 else 8 + data.length < 65536) ↔
      udpFits flow.version data := by
    rw [udpFits, ← Nat.add_assoc]
  -- a field of zero is stored exactly for a sum of all ones
  constructor
  · intro ha
    have hip' := ha.ipLength
    rw [hversion, hip, hfits] at hip'
    refine ⟨hip', fun h6 htop => ?_⟩
    have hlen : 8 + data.length < 65536 := by
      rwa [udpFits, h6, if_neg (by decide)] at hip'
    rw [← udpChecksum_eq_top h hlen, ← hcsum] at htop
    rw [h6, htop] at hcheck
    exact ha.checked (hversion.trans h6) hcheck
  -- in a packet that fits, the length and the checksum are right
  · rintro ⟨hroom, hsum⟩
    have hlen : 8 + data.length < 65536 := by
      unfold udpFits at hroom
      split at hroom <;> omega
    constructor
    · rw [hversion, hip, hfits]
      exact hroom
    · rw [hversion, hudp, Nat.mod_eq_of_lt hlen, ← List.length_drop, hdrop, hpayload]
    · rw [hpacket]
      apply checksumsRight_ipPacket h (by decide) ⟨3, rfl⟩
      · have hfront : (udpFront flow data.length).length = 6 := rfl
        omega
      · have hsize : (udpFront flow data.length).length + 2 + data.length = 8 + data.length := rfl
        rw [hsize, hcsum]
        exact udpChecksum_eq h hlen
    · intro h6 hzero
      rw [hversion] at h6
      rw [h6] at hcheck
      have hstored : (65535 - csum) % 256 * 256 + (65535 - csum) / 256 % 256 = 0 :=
        Except.ok.inj (hcheck.symm.trans hzero)
      have hle : csum ≤ 65535 := by
        rw [hcsum, udpChecksum_eq h hlen]
        exact endAround_le (by decide) _
      have htop : csum = 65535 := by
        omega
      exact hsum h6 ((udpChecksum_eq_top h hlen).1 (hcsum.symm.trans htop))

/-- A client in the tunnel that asks `2001:4860:4860::8888`. -/
def resolverFlow : Flow :=
  ⟨6, [0xfd, 0, 0, 1, 0, 0, 0, 0, 0, 0, 0, 0, 0, 0, 0, 1], 50000,
    [0x20, 1, 0x48, 0x60, 0x48, 0x60, 0, 0, 0, 0, 0, 0, 0, 0, 0x88, 0x88], 53⟩

theorem udpAcceptable_resolverFlow : UdpAcceptable (udpPacket resolverFlow [1, 2, 3]) :=
  (udpAcceptable_iff (show resolverFlow.WellFormed by decide) [1, 2, 3]).2 ⟨by decide, fun _ => by decide +kernel⟩

/-- The answer from the hosts list, 10.0.0.1, to a query for `a` with the identifier 5782. -/
def unluckyAnswer : Bytes :=
  [22, 150, 128, 0, 0, 1, 0, 1, 0, 0, 0, 0, 1, 97, 0, 0, 1, 0, 1, 192, 12, 0, 1, 0, 1, 0, 0, 2, 88, 0, 4, 10, 0, 0, 1]

example : checkDomain (fun _ _ => some [10, 0, 0, 1])
    ([22, 150, 1, 0, 0, 1, 0, 0, 0, 0, 0, 0, 1, 97, 0, 0, 1, 0, 1]) 1 1
    [97, 0] = .ok (some unluckyAnswer) := by
  decide +kernel

/-- The answer leaves with a checksum of zero. -/
theorem not_udpAcceptable_unluckyAnswer :
    ¬∀ (flow : Flow) (data : Bytes), flow.WellFormed → UdpAcceptable (udpPacket flow data) := by
  intro h
  have hanswer := h resolverFlow unluckyAnswer (by decide)
  have hzero : loadBe16 (udpPacket resolverFlow unluckyAnswer) 46 = .ok 0 := by decide +kernel
  exact hanswer.checked (by decide) hzero

end SunProxy.Net
