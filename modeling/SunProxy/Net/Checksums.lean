/-
The checksums of the packets of `write_tcp` and `write_udp`, as a receiver checks them. The words that
`calc_checksum` adds have the other byte first, the addresses of the IPv6 pseudo-header are swapped and its
length is in the wrong half of its field; none of this changes whether the sum is all ones.
-/
import SunProxy.Lib.OnesComplement
import SunProxy.Net.Bounds
import SunProxy.Net.TcpWire

namespace SunProxy.Net

open SunProxy.Buffer SunProxy.OnesComplement

/-! ## The receiver -/

/-- The sum of bytes as words in network order, with a zero after an odd last byte. -/
def wordSum (bytes : Bytes) : Nat := (wordsHigh 256 (bytes.map UInt8.toNat)).sum

/-- The one's-complement sum of bytes. -/
def onesSum (bytes : Bytes) : Nat := endAround 65535 (wordSum bytes)

/-- The pseudo-header of a payload of `len` bytes. -/
def pseudoHeader (version protocol : Nat) (saddr daddr : Bytes) (len : Nat) : Bytes :=
  if version = 4 then saddr ++ daddr ++ [0, UInt8.ofNat protocol] ++ be16 len
  else saddr ++ daddr ++ be32 len ++ [0, 0, 0, UInt8.ofNat protocol]

/-- The version of a packet. -/
def versionOf (pkt : Bytes) : Nat := byteAt pkt 0 / 16

/-- The pseudo-header that the receiver makes up from the addresses, the protocol and the length of a packet. -/
def receivedPseudo (pkt : Bytes) : Bytes :=
  if versionOf pkt = 4 then
    pseudoHeader 4 (protocolOf pkt) ((pkt.drop 12).take 4) ((pkt.drop 16).take 4) (pkt.length - 20)
  else pseudoHeader 6 (protocolOf pkt) ((pkt.drop 8).take 16) ((pkt.drop 24).take 16) (pkt.length - 40)

/-- What the receiver sums up is all ones: the header of an IPv4 packet, and the payload with its
pseudo-header. -/
structure ChecksumsRight (pkt : Bytes) : Prop where
  header : versionOf pkt = 4 → onesSum (pkt.take 20) = 0xFFFF
  payload : onesSum (receivedPseudo pkt ++ pkt.drop (ipHeaderLength (versionOf pkt))) = 0xFFFF

/-! ## The sum of `calc_checksum` -/

/-- What the words of a buffer add to the accumulator. -/
def lowSum (bytes : Bytes) : Nat := (wordsLe bytes).sum

theorem wordsLe_eq (bytes : Bytes) : wordsLe bytes = wordsLow 256 (bytes.map UInt8.toNat) := by
  induction bytes using wordsLe.induct with
  | case1 lo hi rest ih => simp only [wordsLe, List.map_cons, wordsLow, ih]
  | case2 b => rfl
  | case3 => rfl

theorem onesSum_eq_top (bytes : Bytes) : onesSum bytes = 65535 ↔ endAround 65535 (lowSum bytes) = 65535 := by
  rw [onesSum, wordSum, lowSum, wordsLe_eq]
  exact endAround_wordsHigh (c := 256) (by decide) _

theorem wordSum_eq_zero (bytes : Bytes) : wordSum bytes = 0 ↔ lowSum bytes = 0 := by
  rw [wordSum, lowSum, wordsLe_eq]
  exact sum_wordsHigh_eq_zero (by decide) _

theorem lowSum_append (xs ys : Bytes) (h : Even xs.length) : lowSum (xs ++ ys) = lowSum xs + lowSum ys := by
  simp only [lowSum, wordsLe_eq, List.map_append]
  exact sum_wordsLow_append (by rwa [List.length_map]) _

theorem lowSum_le (bytes : Bytes) : lowSum bytes ≤ 65535 * ((bytes.length + 1) / 2) := by
  unfold lowSum
  induction bytes using wordsLe.induct with
  | case1 lo hi rest ih =>
    have := lo.toNat_lt
    have := hi.toNat_lt
    simp only [wordsLe, List.sum_cons, List.length_cons]
    omega
  | case2 b =>
    have := b.toNat_lt
    simp only [wordsLe, List.sum_cons, List.sum_nil, List.length_cons, List.length_nil]
    omega
  | case3 => exact Nat.zero_le _

theorem foldCarry_eq {k n : Nat} (h : foldCarry k n < 65536) : foldCarry k n = endAround 65535 n := by
  induction k generalizing n with
  | zero => exact (endAround_of_le (Nat.le_of_lt_succ h)).symm
  | succ k ih =>
    rw [foldCarry] at h ⊢
    split at h
    · rename_i hcarry
      rw [if_pos hcarry, endAround_of_le (by omega)]
    · rename_i hcarry
      rw [if_neg hcarry, ih h]
      exact endAround_carry n

/-- An accumulator that has room for the whole sum never wraps. -/
theorem foldl_wrapping {ws : List Nat} {start : Nat} (h : start + ws.sum < 4294967296) :
    ws.foldl (fun sum w => (sum + w) % 4294967296) start = start + ws.sum := by
  induction ws generalizing start with
  | nil => rfl
  | cons w ws ih =>
    rw [List.sum_cons] at h ⊢
    rw [List.foldl_cons, Nat.mod_eq_of_lt (by omega), ih (by omega), Nat.add_assoc]

theorem calcChecksum_eq {start : Nat} {buffer : Bytes} (h : start + lowSum buffer < 4294967296) :
    calcChecksum start buffer = endAround 65535 (start + lowSum buffer) := by
  unfold lowSum at h ⊢
  rw [calcChecksum, foldl_wrapping h, foldCarry_eq (foldCarry_lt h)]

/-- The accumulator has room for the words of a packet. -/
theorem accumulator_lt {start : Nat} {buffer : Bytes} (hstart : start < 65536) (hlen : buffer.length ≤ 65536) :
    start + lowSum buffer < 4294967296 := by
  have := lowSum_le buffer
  omega

theorem calcChecksum_lt {start : Nat} {buffer : Bytes} (hstart : start < 65536) (hlen : buffer.length ≤ 65536) :
    calcChecksum start buffer < 65536 := by
  rw [calcChecksum_eq (accumulator_lt hstart hlen)]
  exact Nat.lt_succ_of_le (endAround_le (by decide) _)

/-- Calls one after another sum up all their buffers. -/
theorem foldl_calcChecksum {bs : List Bytes} {start : Nat} (hstart : start < 65536) (h : ∀ b ∈ bs, b.length ≤ 65536) :
    bs.foldl calcChecksum start = endAround 65535 (start + (bs.map lowSum).sum) := by
  induction bs generalizing start with
  | nil => exact (endAround_of_le (Nat.le_of_lt_succ hstart)).symm
  | cons b bs ih =>
    have hb := h b List.mem_cons_self
    have hrest : ∀ b ∈ bs, b.length ≤ 65536 := fun b hb => h b (List.mem_cons_of_mem _ hb)
    rw [List.foldl_cons, ih (calcChecksum_lt hstart hb) hrest, calcChecksum_eq (accumulator_lt hstart hb),
      endAround_add, List.map_cons, List.sum_cons, Nat.add_assoc]

/-! ## Stored checksums -/

theorem lowSum_checkBytes {csum : Nat} (h : csum ≤ 65535) : lowSum (checkBytes csum) = 65535 - csum := by
  simp only [lowSum, checkBytes, wordsLe, List.sum_cons, List.sum_nil, UInt8.toNat_ofNat']
  omega

/-- Bytes with the complement of their sum stored in a field of two bytes sum up to all ones. -/
theorem onesSum_stored {front back : Bytes} (heven : Even front.length) {csum : Nat}
    (h : csum = endAround 65535 (lowSum (front ++ ([0, 0] ++ back)))) :
    onesSum (front ++ (checkBytes csum ++ back)) = 0xFFFF := by
  have hle : csum ≤ 65535 := by
    rw [h]
    exact endAround_le (by decide) _
  have hzero : lowSum (front ++ ([0, 0] ++ back)) = lowSum front + lowSum back := by
    rw [lowSum_append _ _ heven, lowSum_append [0, 0] _ ⟨1, rfl⟩]
    exact congrArg _ (Nat.zero_add _)
  have hsum : lowSum (front ++ (checkBytes csum ++ back)) = lowSum front + lowSum back + (65535 - csum) := by
    rw [lowSum_append _ _ heven, lowSum_append (checkBytes csum) _ ⟨1, rfl⟩, lowSum_checkBytes hle]
    omega
  rw [onesSum_eq_top, hsum, h, hzero]
  exact endAround_complement (by decide) _

/-! ## The pseudo-header -/

/-- The pseudo-header that the engine sums up. -/
def storedPseudo (version protocol : Nat) (saddr daddr : Bytes) (len : Nat) : Bytes :=
  if version = 4 then saddr ++ daddr ++ [0, UInt8.ofNat protocol] ++ be16 len
  else daddr ++ saddr ++ be16 len ++ [0, 0] ++ [0, 0, 0, UInt8.ofNat protocol]

theorem pseudoSum_eq (version protocol : Nat) (saddr daddr : Bytes) (len : Nat) :
    pseudoSum version protocol saddr daddr len = calcChecksum 0 (storedPseudo version protocol saddr daddr len) := by
  unfold pseudoSum storedPseudo
  split <;> rfl

/-- A flow's addresses have an even number of bytes, and no more than sixteen. -/
theorem Flow.WellFormed.length_even {flow : Flow} (h : flow.WellFormed) :
    (Even flow.saddr.length ∧ flow.saddr.length ≤ 16) ∧ Even flow.daddr.length ∧ flow.daddr.length ≤ 16 := by
  rcases h with ⟨-, hsaddr, hdaddr⟩ | ⟨-, hsaddr, hdaddr⟩
  · rw [hsaddr, hdaddr]
    decide
  · rw [hsaddr, hdaddr]
    decide

theorem even_pseudoHeader {flow : Flow} (h : flow.WellFormed) (protocol len : Nat) :
    Even (pseudoHeader flow.version protocol flow.daddr flow.saddr len).length := by
  obtain ⟨⟨hsaddr, -⟩, hdaddr, -⟩ := h.length_even
  unfold pseudoHeader
  split
  · simp only [List.length_append, List.length_cons, List.length_nil, length_be16]
    exact ((hdaddr.add hsaddr).add ⟨1, rfl⟩).add ⟨1, rfl⟩
  · simp only [List.length_append, List.length_cons, List.length_nil, length_be32]
    exact ((hdaddr.add hsaddr).add ⟨2, rfl⟩).add ⟨2, rfl⟩

theorem length_storedPseudo_le {flow : Flow} (h : flow.WellFormed) (protocol len : Nat) :
    (storedPseudo flow.version protocol flow.daddr flow.saddr len).length ≤ 40 := by
  obtain ⟨⟨-, hsaddr⟩, -, hdaddr⟩ := h.length_even
  unfold storedPseudo
  split
  all_goals
    simp only [List.length_append, List.length_cons, List.length_nil, length_be16]
    omega

/-- The order of the addresses and the place of the length do not change the sum. -/
theorem lowSum_storedPseudo {flow : Flow} (h : flow.WellFormed) (protocol : Nat) {len : Nat} (hlen : len < 65536) :
    lowSum (storedPseudo flow.version protocol flow.daddr flow.saddr len) =
      lowSum (pseudoHeader flow.version protocol flow.daddr flow.saddr len) := by
  obtain ⟨⟨hsaddr, -⟩, hdaddr, -⟩ := h.length_even
  unfold storedPseudo pseudoHeader
  split
  · rfl
  · have hhigh : be32 len = [0, 0] ++ be16 len := by
      rw [be32, Nat.div_eq_of_lt hlen]
      rfl
    simp only [hhigh, List.append_assoc, lowSum_append _ _ hsaddr, lowSum_append _ _ hdaddr,
      lowSum_append (be16 len) _ ⟨1, rfl⟩, lowSum_append [0, 0] _ ⟨1, rfl⟩]
    omega

/-! ## Packets -/

/-- Two addresses and a payload, behind the rest of a header. -/
theorem addresses_append {pkt saddr daddr payload : Bytes} {i n : Nat} (h : pkt.drop i = saddr ++ (daddr ++ payload))
    (hsaddr : saddr.length = n) (hdaddr : daddr.length = n) :
    (pkt.drop i).take n = saddr ∧ (pkt.drop (i + n)).take n = daddr ∧ pkt.drop (i + n + n) = payload := by
  have hsecond : pkt.drop (i + n) = daddr ++ payload := by
    rw [← List.drop_drop, h, List.drop_left' hsaddr]
  refine ⟨?_, ?_, ?_⟩
  · rw [h, List.take_left' hsaddr]
  · rw [hsecond, List.take_left' hdaddr]
  · rw [← List.drop_drop, hsecond, List.drop_left' hdaddr]

/-- What the receiver of a packet takes from its header. -/
theorem received_ipPacket {flow : Flow} (h : flow.WellFormed) {protocol : Nat} (hprotocol : protocol < 256)
    (payload : Bytes) :
    let pkt := ipPacket flow.version protocol flow.daddr flow.saddr payload
    versionOf pkt = flow.version ∧
      receivedPseudo pkt = pseudoHeader flow.version protocol flow.daddr flow.saddr payload.length ∧
      pkt.drop (ipHeaderLength flow.version) = payload := by
  have hnum : (UInt8.ofNat protocol).toNat = protocol := by
    rw [UInt8.toNat_ofNat', Nat.mod_eq_of_lt hprotocol]
  rcases h with ⟨hversion, hsaddr, hdaddr⟩ | ⟨hversion, hsaddr, hdaddr⟩
  -- IPv4: the addresses stand behind twelve bytes, the length is that of the packet less the header
  · rw [hversion]
    intro pkt
    have hdrop : pkt.drop 12 = flow.daddr ++ (flow.saddr ++ payload) := by
      simp only [pkt, ipPacket, ip4Packet, ip4Header, checkBytes, be16, if_true, List.append_assoc, List.cons_append,
        List.nil_append]
      rfl
    have hfour : versionOf pkt = 4 := show (0x45 : UInt8).toNat / 16 = 4 by decide
    have hsame : protocolOf pkt = protocol := by
      rw [protocolOf, if_pos (show byteAt pkt 0 / 16 = 4 from hfour)]
      exact hnum
    obtain ⟨hsource, hdest, hrest⟩ := addresses_append hdrop hdaddr hsaddr
    have hlen : pkt.length - 20 = payload.length := by
      rw [← List.length_drop, hrest]
    refine ⟨hfour, ?_, hrest⟩
    rw [receivedPseudo, if_pos hfour, hsame, hsource, hdest, hlen]
  -- IPv6: the addresses stand behind eight bytes
  · rw [hversion]
    intro pkt
    have hdrop : pkt.drop 8 = flow.daddr ++ (flow.saddr ++ payload) := by
      simp only [pkt, ipPacket, ip6Packet, be16, List.append_assoc, List.cons_append, List.nil_append]
      rfl
    have hsix : versionOf pkt = 6 := show (0x60 : UInt8).toNat / 16 = 6 by decide
    have hnot : ¬versionOf pkt = 4 := by
      rw [hsix]
      decide
    have hsame : protocolOf pkt = protocol := by
      rw [protocolOf, if_neg (show ¬byteAt pkt 0 / 16 = 4 from hnot)]
      exact hnum
    obtain ⟨hsource, hdest, hrest⟩ := addresses_append hdrop hdaddr hsaddr
    have hlen : pkt.length - 40 = payload.length := by
      rw [← List.length_drop, hrest]
    refine ⟨hsix, ?_, hrest⟩
    rw [receivedPseudo, if_neg hnot, hsame, hsource, hdest, hlen]

/-- The header of an IPv4 packet sums up to all ones. -/
theorem onesSum_ip4Packet (protocol : Nat) {saddr daddr : Bytes} (payload : Bytes) (hsaddr : saddr.length = 4)
    (hdaddr : daddr.length = 4) : onesSum ((ip4Packet protocol saddr daddr payload).take 20) = 0xFFFF := by
  have hsplit : ∀ check, ip4Header (20 + payload.length) protocol check saddr daddr =
      ([0x45, 0] ++ be16 (20 + payload.length) ++ [0, 0, 0, 0, IPDEFTTL, UInt8.ofNat protocol]) ++
        (check ++ (saddr ++ daddr)) := by
    intro check
    simp only [ip4Header, List.append_assoc]
  have hshort : (ip4Header (20 + payload.length) protocol [0, 0] saddr daddr).length ≤ 65536 := by
    simp only [hsplit, List.length_append, List.length_cons, List.length_nil, length_be16, hsaddr, hdaddr]
    decide
  have hcsum := calcChecksum_eq (accumulator_lt (show 0 < 65536 by decide) hshort)
  rw [Nat.zero_add] at hcsum
  unfold ip4Packet
  dsimp only
  rw [List.take_left']
  · rw [hsplit]
    apply onesSum_stored
    · exact ⟨5, rfl⟩
    · rw [← hsplit]
      exact hcsum
  · simp only [hsplit, checkBytes, List.length_append, List.length_cons, List.length_nil, length_be16, hsaddr, hdaddr]

/-- A packet is right when its payload has the complement of its sum stored in a field. -/
theorem checksumsRight_ipPacket {flow : Flow} (h : flow.WellFormed) {protocol : Nat} (hprotocol : protocol < 256)
    {front back : Bytes} (heven : Even front.length) (hlen : front.length + 2 + back.length < 65536) {csum : Nat}
    (hcsum : csum = endAround 65535 (lowSum (storedPseudo flow.version protocol flow.daddr flow.saddr
      (front.length + 2 + back.length)) + lowSum (front ++ ([0, 0] ++ back)))) :
    ChecksumsRight (ipPacket flow.version protocol flow.daddr flow.saddr (front ++ (checkBytes csum ++ back))) := by
  obtain ⟨hversion, hpseudo, hpayload⟩ := received_ipPacket h hprotocol (front ++ (checkBytes csum ++ back))
  have hlength : (front ++ (checkBytes csum ++ back)).length = front.length + 2 + back.length := by
    simp only [List.length_append, checkBytes, List.length_cons, List.length_nil]
    omega
  constructor
  · intro h4
    rw [hversion] at h4
    obtain ⟨hsaddr, hdaddr⟩ := h.length_ip4 h4
    rw [h4]
    exact onesSum_ip4Packet protocol _ hdaddr hsaddr
  · rw [hversion, hpayload, hpseudo, hlength, ← List.append_assoc]
    apply onesSum_stored
    · rw [List.length_append]
      exact (even_pseudoHeader h protocol _).add heven
    · rw [List.append_assoc, lowSum_append _ _ (even_pseudoHeader h protocol _), ← lowSum_storedPseudo h protocol hlen]
      exact hcsum

/-! ## Segments -/

/-- The calls of `calc_checksum` for buffers one after another, each with the sum of those before. -/
def chainedCalls (start : Nat) : List Bytes → List (Nat × Bytes)
  | [] => []
  | b :: bs => (start, b) :: chainedCalls (calcChecksum start b) bs

/-- The accumulator of a call stays below 32 bits, whatever word it has got to. -/
def HasRoom (call : Nat × Bytes) : Prop := ∀ n, call.1 + ((wordsLe call.2).take n).sum < 4294967296

theorem hasRoom {start : Nat} {buffer : Bytes} (hstart : start < 65536) (hlen : buffer.length ≤ 65536) :
    HasRoom (start, buffer) := by
  intro n
  have hroom := accumulator_lt hstart hlen
  have hsplit : ((wordsLe buffer).take n).sum + ((wordsLe buffer).drop n).sum = (wordsLe buffer).sum := by
    rw [← List.sum_append, List.take_append_drop]
  rw [lowSum] at hroom
  dsimp only
  omega

theorem hasRoom_chainedCalls {bs : List Bytes} {start : Nat} (hstart : start < 65536) (h : ∀ b ∈ bs, b.length ≤ 65536) :
    ∀ call ∈ chainedCalls start bs, HasRoom call := by
  induction bs generalizing start with
  | nil => exact fun _ hcall => absurd hcall List.not_mem_nil
  | cons b bs ih =>
    have hb := h b List.mem_cons_self
    intro call hcall
    rcases List.mem_cons.1 hcall with rfl | hcall
    · exact hasRoom hstart hb
    · exact ih (calcChecksum_lt hstart hb) (fun b hb => h b (List.mem_cons_of_mem _ hb)) call hcall

/-- What `write_tcp` sums up for the checksum of a segment. -/
def tcpBuffers (t : TcpSession) (data : Bytes) (f : TcpFlags) : List Bytes :=
  [storedPseudo t.flow.version IPPROTO_TCP t.flow.daddr t.flow.saddr (20 + (tcpOptions t f.syn).length + data.length),
    tcpHeader t f [0, 0], tcpOptions t f.syn, data]

/-- The calls of `calc_checksum` in `write_tcp`. -/
def tcpChecksumCalls (t : TcpSession) (data : Bytes) (f : TcpFlags) : List (Nat × Bytes) :=
  let len := 20 + (20 + (tcpOptions t f.syn).length + data.length)
  (if t.flow.version = 4 then [(0, ip4Header len IPPROTO_TCP [0, 0] t.flow.daddr t.flow.saddr)] else []) ++
    chainedCalls 0 (tcpBuffers t data f)

/-- The fields of a TCP header before the checksum. -/
def tcpFront (t : TcpSession) (f : TcpFlags) : Bytes :=
  be16 t.flow.dest ++ be16 t.flow.source ++ be32 t.localSeq ++ be32 (if f.ack then t.remoteSeq else 0) ++
    [UInt8.ofNat ((20 + (tcpOptions t f.syn).length) / 4 * 16),
     UInt8.ofNat (f.fin.toNat + 2 * f.syn.toNat + 4 * f.rst.toNat + 16 * f.ack.toNat)] ++
    be16 (t.recvWindow >>> t.recvScale)

theorem tcpPacket_checked (t : TcpSession) (data : Bytes) (f : TcpFlags) :
    tcpPacket t data f = ipPacket t.flow.version IPPROTO_TCP t.flow.daddr t.flow.saddr
      (tcpFront t f ++ (checkBytes ((tcpBuffers t data f).foldl calcChecksum 0) ++
        ([0, 0] ++ tcpOptions t f.syn ++ data))) := by
  have hcsum : (tcpBuffers t data f).foldl calcChecksum 0 =
    calcChecksum (calcChecksum (calcChecksum (pseudoSum t.flow.version
      IPPROTO_TCP t.flow.daddr t.flow.saddr (20 + (tcpOptions t f.syn).length + data.length)) (tcpHeader t f [0, 0]))
      (tcpOptions t f.syn)) data := by
    rw [pseudoSum_eq]
    rfl
  rw [tcpPacket, hcsum]
  simp only [tcpHeader, tcpFront, List.append_assoc]

theorem length_tcpFront (t : TcpSession) (f : TcpFlags) : (tcpFront t f).length = 16 := rfl

theorem even_tcpOptions (t : TcpSession) (syn : Bool) : Even (tcpOptions t syn).length := by
  rw [length_tcpOptions]
  cases syn <;> decide

section Room

variable {t : TcpSession} {data : Bytes}

theorem length_tcpBuffers (h : t.flow.WellFormed) (f : TcpFlags) (hdata : data.length ≤ 65000) :
    ∀ b ∈ tcpBuffers t data f, b.length ≤ 65536 := by
  have hpseudo := length_storedPseudo_le h IPPROTO_TCP (20 + (tcpOptions t f.syn).length + data.length)
  have hheader := length_tcpHeader t f (show [0, 0].length = 2 from rfl)
  have hoptions := length_tcpOptions_le t f.syn
  intro b hb
  simp only [tcpBuffers, List.mem_cons, List.not_mem_nil, or_false] at hb
  rcases hb with rfl | rfl | rfl | rfl <;> omega

theorem hasRoom_tcpChecksumCalls (h : t.flow.WellFormed) (f : TcpFlags) (hdata : data.length ≤ 65000) :
    ∀ call ∈ tcpChecksumCalls t data f, HasRoom call := by
  intro call hcall
  rcases List.mem_append.1 hcall with hcall | hcall
  · split at hcall
    · rename_i h4
      obtain ⟨hsaddr, hdaddr⟩ := h.length_ip4 h4
      rw [List.mem_singleton.1 hcall]
      apply hasRoom (by decide)
      simp only [ip4Header, List.length_append, List.length_cons, List.length_nil, length_be16, hsaddr, hdaddr]
      decide
    · cases hcall
  · exact hasRoom_chainedCalls (by decide) (length_tcpBuffers h f hdata) call hcall

end Room

/-- The receiver of a packet of `write_tcp` finds its checksums right, and no sum on the way wraps. -/
theorem checksumsRight_tcpPacket {t : TcpSession} (h : t.flow.WellFormed) (data : Bytes) (f : TcpFlags)
    (hdata : data.length ≤ 65000) :
    ChecksumsRight (tcpPacket t data f) ∧ ∀ call ∈ tcpChecksumCalls t data f, HasRoom call := by
  have hback : ([0, 0] ++ tcpOptions t f.syn ++ data).length = 2 + (tcpOptions t f.syn).length + data.length := by
    simp only [List.length_append, List.length_cons, List.length_nil]
  have hlen : (tcpFront t f).length + 2 + ([0, 0] ++ tcpOptions t f.syn ++ data).length =
      20 + (tcpOptions t f.syn).length + data.length := by
    rw [length_tcpFront, hback]
    omega
  have hoptions := length_tcpOptions_le t f.syn
  -- the header with a zero checksum, the options and the data are summed up one after another
  have hparts : lowSum (tcpFront t f ++ ([0, 0] ++ ([0, 0] ++ tcpOptions t f.syn ++ data))) =
      lowSum (tcpHeader t f [0, 0]) + (lowSum (tcpOptions t f.syn) + lowSum data) := by
    have hheader : tcpFront t f ++ ([0, 0] ++ ([0, 0] ++ tcpOptions t f.syn ++ data)) =
        tcpHeader t f [0, 0] ++ (tcpOptions t f.syn ++ data) := by
      simp only [tcpHeader, tcpFront, List.append_assoc]
    rw [hheader, lowSum_append _ _ ⟨10, length_tcpHeader t f rfl⟩, lowSum_append _ _ (even_tcpOptions t f.syn)]
  refine ⟨?_, hasRoom_tcpChecksumCalls h f hdata⟩
  rw [tcpPacket_checked]
  apply checksumsRight_ipPacket h (by decide)
  · exact ⟨8, length_tcpFront t f⟩
  · omega
  · rw [foldl_calcChecksum (by decide) (length_tcpBuffers h f hdata), hparts, hlen]
    simp only [tcpBuffers, List.map_cons, List.map_nil, List.sum_cons, List.sum_nil, Nat.zero_add, Nat.add_zero]

/-- A segment of three bytes of data. -/
theorem checksumsRight_httpsSession :
    ChecksumsRight (tcpPacket httpsSession [71, 69, 84] ⟨false, true, false, false⟩) :=
  (checksumsRight_tcpPacket (show httpsSession.flow.WellFormed by decide) [71, 69, 84] ⟨false, true, false, false⟩
    (by decide)).1

end SunProxy.Net
