/-
The packets of `write_tcp`, read with the accesses of `handle_ip` and `handle_tcp`. They give back the
flow, the numbers, the flags, the window and the data of every segment whose length and window fit their
fields. A SYN does not give back its MSS, which is stored without `htons` and read with `ntohs`.
-/
import SunProxy.Net.IcmpWire
import SunProxy.Net.SynOptions

namespace SunProxy.Net

open SunProxy.Buffer SunProxy.Result

/-! ## Reading a segment -/

/-- What `handle_ip` and `handle_tcp` read of a segment; a SYN has an MSS and a window scale. -/
structure SegmentRead where
  flow : Flow
  header : TcpHeader
  data : Bytes
  options : Option (Nat × Nat)
deriving DecidableEq, Repr

/-- The accesses to a segment. The buffer of the tun goes on with `tail` behind the packet, where the
loop over the options reads the length of a marker that is the last byte. -/
def readSegment (pkt tail : Bytes) : Except Fault (Option SegmentRead) := do
  match ← parseIp pkt with
  | none => return none
  | some p =>
    if p.protocol ≠ IPPROTO_TCP then return none
    match ← readPorts pkt p with
    | none => return none
    | some ports =>
      let h ← readTcpHeader pkt p.payload
      let start := tcpData p.payload h.doff
      let data ← loadBytes pkt start (tcpDatalen pkt start)
      if h.syn then
        let optlen := optionLength h.doff
        let options ← synOptions (pkt ++ tail) optlen optlen (p.payload + 20) (getDefaultMss p.version) 0
        return some ⟨flowOf p ports, h, data, some options⟩
      else return some ⟨flowOf p ports, h, data, none⟩

/-- The fields of a session have the values of their types. -/
structure TcpSession.Typed (t : TcpSession) : Prop where
  flow : t.flow.WellFormed
  source : t.flow.source < 65536
  dest : t.flow.dest < 65536
  recvScale : t.recvScale < 256
  recvWindow : t.recvWindow < 4294967296
  remoteSeq : t.remoteSeq < 4294967296
  localSeq : t.localSeq < 4294967296

/-- What is read is what the packet was written with. -/
structure SegmentRead.Of (t : TcpSession) (data : Bytes) (f : TcpFlags) (r : SegmentRead) : Prop where
  flow : r.flow = ⟨t.flow.version, t.flow.daddr, t.flow.dest, t.flow.saddr, t.flow.source⟩
  seq : r.header.seq = t.localSeq
  ackSeq : r.header.ackSeq = if f.ack then t.remoteSeq else 0
  flags : (⟨r.header.syn, r.header.ack, r.header.fin, r.header.rst⟩ : TcpFlags) = f
  psh : r.header.psh = false
  urg : r.header.urg = false
  window : r.header.window = t.recvWindow >>> t.recvScale
  data : r.data = data
  options : f.syn = true → r.options = some (getDefaultMss t.flow.version, t.recvScale)

/-- A packet of `write_tcp` is read back, whatever the buffer holds behind it. -/
def TcpSession.ReadsBack (t : TcpSession) (data : Bytes) (f : TcpFlags) : Prop :=
  ∀ b tail, ∃ r, readSegment (tcpPacket t data f) (b :: tail) = .ok (some r) ∧ r.Of t data f

/-- The data of a segment without options is not too long: `tot_len` counts an IPv4 packet, and the
receiver of an IPv6 packet counts the data, both with 16 bits. -/
def dataFits (version : Nat) (data : Bytes) : Prop :=
  if version = 4 then 40 + data.length < 65536 else data.length < 65536

instance (version : Nat) (data : Bytes) : Decidable (dataFits version data) := inferInstanceAs (Decidable (ite _ _ _))

/-! ## The parts of a packet -/

theorem tcpPorts_tcpHeader (t : TcpSession) (f : TcpFlags) (pre rest : Bytes) {check : Bytes} (h : check.length = 2) :
    tcpPorts (pre ++ (tcpHeader t f check ++ rest)) pre.length =
      .ok (some ⟨t.flow.dest % 65536, t.flow.source % 65536, f.syn⟩) := by
  have hlong : tooShort (pre ++ (tcpHeader t f check ++ rest)) pre.length 20 = false := by
    simp only [tooShort, TunPacket.length_alone, List.length_append, length_tcpHeader t f h]
    simp
  obtain ⟨-, hsyn, -⟩ := testBit_flags f
  rw [tcpPorts, hlong]
  unfold tcpHeader
  generalize UInt8.ofNat (f.fin.toNat + _ + _ + _) = flags at hsyn ⊢
  generalize UInt8.ofNat (_ / 4 * 16) = doff
  have hsport := loadBe16_stored pre
    (be16 t.flow.source ++ (be32 t.localSeq ++ (be32 (if f.ack then t.remoteSeq else 0) ++
    (doff :: flags :: (be16 (t.recvWindow >>> t.recvScale) ++ (check ++ ([0, 0] ++ rest))))))) (n := t.flow.dest)
    (i := pre.length) rfl
  have hdport := loadBe16_stored (pre ++ be16 t.flow.dest)
    (be32 t.localSeq ++ (be32 (if f.ack then t.remoteSeq else 0) ++
    (doff :: flags :: (be16 (t.recvWindow >>> t.recvScale) ++ (check ++ ([0, 0] ++ rest)))))) (n := t.flow.source)
    (i := pre.length + 2) (by simp)
  have hflags := load_append (pre ++ be16 t.flow.dest ++ be16 t.flow.source ++ be32 t.localSeq ++
    be32 (if f.ack then t.remoteSeq else 0) ++ [doff]) (be16 (t.recvWindow >>> t.recvScale) ++
      (check ++ ([0, 0] ++ rest))) (b := flags) (i := pre.length + 13) (by simp)
  simp only [List.append_assoc, List.cons_append, List.nil_append] at hsport hdport hflags ⊢
  simp only [Bool.false_eq_true, if_false, TunPacket.buffer_alone, hsport, hdport, hflags, bind, Except.bind, pure,
    Except.pure, hsyn]

/-- The MSS of a SYN as it is read: the other byte first. -/
def swappedMss (version : Nat) : Nat := getDefaultMss version % 256 * 256 + getDefaultMss version / 256 % 256

theorem swappedMss_ne (version : Nat) : swappedMss version ≠ getDefaultMss version := by
  unfold swappedMss getDefaultMss
  split
  · decide
  · decide

/-- The loop ends at a marker on the last byte, whose length it reads behind the options. -/
theorem synOptions_marker (pre : Bytes) (b : UInt8) (tail : Bytes) (fuel mss ws : Nat) :
    synOptions (pre ++ ([0] ++ b :: tail)) (fuel + 1) 1 pre.length mss ws = .ok (mss, ws) := by
  have hkind : load (pre ++ ([0] ++ b :: tail)) pre.length = .ok 0 := load_append pre _ rfl
  have hlen : load (pre ++ ([0] ++ b :: tail)) (pre.length + 1) = .ok b := by
    have := load_append (pre ++ [0]) tail (b := b) (i := pre.length + 1) (by simp)
    rwa [List.append_assoc] at this
  unfold synOptions
  simp only [hkind, hlen, bind, Except.bind, if_true]
  rfl

/-- The options of a SYN, with at least a byte behind them. -/
theorem synOptions_tcpOptions (t : TcpSession) (pre : Bytes) (b : UInt8) (tail : Bytes) (mss : Nat) :
    synOptions (pre ++ (tcpOptions t true ++ b :: tail)) 8 8 pre.length mss 0 =
      .ok (swappedMss t.flow.version, t.recvScale % 256) := by
  obtain ⟨hi, hhi⟩ : ∃ hi, hi = UInt8.ofNat (getDefaultMss t.flow.version) := ⟨_, rfl⟩
  obtain ⟨lo, hlo⟩ : ∃ lo, lo = UInt8.ofNat (getDefaultMss t.flow.version / 256) := ⟨_, rfl⟩
  obtain ⟨ws, hws⟩ : ∃ ws, ws = UInt8.ofNat t.recvScale := ⟨_, rfl⟩
  have hoptions : tcpOptions t true = [2, 4, hi, lo, 3, 3, ws, 0] := by
    rw [hhi, hlo, hws]
    rfl
  have hmss : hi.toNat * 256 + lo.toNat = swappedMss t.flow.version := by
    rw [hhi, hlo, UInt8.toNat_ofNat', UInt8.toNat_ofNat']
    rfl
  have hscale : ws.toNat = t.recvScale % 256 := by
    rw [hws, UInt8.toNat_ofNat']
  rw [hoptions]
  calc synOptions (pre ++ ([2, 4, hi, lo, 3, 3, ws, 0] ++ b :: tail)) 8 8 pre.length mss 0
      = synOptions (pre ++ ([2, 4, hi, lo, 3, 3, ws, 0] ++ b :: tail)) 7 (8 - (4 : Nat)) (pre.length + 4)
          (hi.toNat * 256 + lo.toNat) 0 := by
        refine (synOptions_round pre (b :: tail) 2 4 [hi, lo, 3, 3, ws, 0] 7 mss 0).trans ?_
        rw [if_neg (by decide), if_neg (by decide), if_pos ⟨rfl, rfl⟩, loadBe16_third]
        rfl
    _ = synOptions (pre ++ [2, 4, hi, lo] ++ ([3, 3, ws, 0] ++ b :: tail)) 7 4 (pre ++ [2, 4, hi, lo]).length
          (hi.toNat * 256 + lo.toNat) 0 :=
        synOptions_advance pre [2, 4, hi, lo, 3, 3, ws, 0] (b :: tail) (n := 4) (by simp) 7 _ 0
    _ = synOptions (pre ++ [2, 4, hi, lo] ++ ([3, 3, ws, 0] ++ b :: tail)) 6 (4 - (3 : Nat))
          ((pre ++ [2, 4, hi, lo]).length + 3) (hi.toNat * 256 + lo.toNat) ws.toNat := by
        refine (synOptions_round (pre ++ [2, 4, hi, lo]) (b :: tail) 3 3 [ws, 0] 6 _ 0).trans ?_
        rw [if_neg (by decide), if_neg (by decide), if_neg (by decide), if_pos ⟨rfl, rfl⟩, load_third]
        rfl
    _ = synOptions (pre ++ [2, 4, hi, lo] ++ [3, 3, ws] ++ ([0] ++ b :: tail)) 6 1
          (pre ++ [2, 4, hi, lo] ++ [3, 3, ws]).length (hi.toNat * 256 + lo.toNat) ws.toNat :=
        synOptions_advance (pre ++ [2, 4, hi, lo]) [3, 3, ws, 0] (b :: tail) (n := 3) (by simp) 6 _ _
    _ = .ok (swappedMss t.flow.version, t.recvScale % 256) := by
        rw [synOptions_marker, hmss, hscale]

/-! ## The whole packet -/

/-- The receiver of an IPv4 packet takes none that is too long for `tot_len`. -/
theorem length_lt_of_parseIp {pkt : TunPacket} {p : IpPacket} (h : parseIp pkt = .ok (some p))
    (hversion : p.version = 4) : pkt.length < 65536 := by
  obtain ⟨first, -, h⟩ := bind_eq_ok h
  split at h
  · unfold parseIp4 at h
    split at h
    · cases h
    · obtain ⟨first, -, h⟩ := bind_eq_ok h
      obtain ⟨totLen, htotLen, h⟩ := bind_eq_ok h
      obtain ⟨low, -, h⟩ := bind_eq_ok h
      obtain ⟨high, -, h⟩ := bind_eq_ok h
      obtain ⟨protocol, -, h⟩ := bind_eq_ok h
      obtain ⟨saddr, -, h⟩ := bind_eq_ok h
      obtain ⟨daddr, -, h⟩ := bind_eq_ok h
      split at h
      · cases h
      · split at h
        · cases h
        · rename_i hlen
          rw [← not_not.1 hlen]
          exact lt_of_loadBe16 htotLen
  · split at h
    · rw [(addresses_of_parseIp6 h).1] at hversion
      cases hversion
    · cases h

/-- What the receiver reads of a packet that it takes. -/
def sentSegment (t : TcpSession) (data : Bytes) (f : TcpFlags) : SegmentRead where
  flow := ⟨t.flow.version, t.flow.daddr, t.flow.dest % 65536, t.flow.saddr, t.flow.source % 65536⟩
  header := sentHeader t f
  data := data.take (data.length % 65536)
  options := if f.syn then some (swappedMss t.flow.version, t.recvScale % 256) else none

/-- The data of a packet of `write_tcp`, as much of it as a 16-bit length counts. -/
theorem loadBytes_tcpPacket (t : TcpSession) (data : Bytes) (f : TcpFlags) (header : Bytes) {check : Bytes}
    (hcheck : check.length = 2) :
    let pkt := header ++ (tcpHeader t f check ++ (tcpOptions t f.syn ++ data))
    let start := tcpData header.length (sentHeader t f).doff
    loadBytes pkt start (tcpDatalen pkt start) = .ok (data.take (data.length % 65536)) := by
  intro pkt start
  have hpkt : pkt = (header ++ tcpHeader t f check ++ tcpOptions t f.syn) ++ data := by
    simp only [pkt, List.append_assoc]
  have hplace : (header ++ tcpHeader t f check ++ tcpOptions t f.syn).length =
      header.length + 20 + (tcpOptions t f.syn).length := by
    rw [List.length_append, List.length_append, length_tcpHeader t f hcheck]
  have hstart : start = (header ++ tcpHeader t f check ++ tcpOptions t f.syn).length := by
    rw [hplace, length_tcpOptions]
    simp only [start, tcpData, sentHeader]
    cases f.syn <;> rfl
  have hlen : tcpDatalen pkt start = data.length % 65536 := by
    rw [tcpDatalen, TunPacket.length_alone, hstart, hpkt, List.length_append]
    omega
  rw [hlen, hpkt]
  exact loadBytes_end _ _ hstart (Nat.mod_le _ _)

theorem readSegment_tcpPacket {t : TcpSession} (h : t.flow.WellFormed) (data : Bytes) (f : TcpFlags)
    (hlen : t.flow.version = 4 → 40 + (tcpOptions t f.syn).length + data.length < 65536) (b : UInt8) (tail : Bytes) :
    readSegment (tcpPacket t data f) (b :: tail) = .ok (some (sentSegment t data f)) := by
  have hparse : parseIp (tcpPacket t data f) =
      .ok (some ⟨t.flow.version, IPPROTO_TCP, t.flow.daddr, t.flow.saddr, ipHeaderLength t.flow.version⟩) := by
    unfold tcpPacket
    dsimp only
    generalize hcheck : checkBytes _ = check
    refine parseIp_ipPacket h rfl fun hversion => ?_
    rw [List.length_append, List.length_append, length_tcpHeader t f (by rw [← hcheck]; rfl)]
    have := hlen hversion
    omega
  obtain ⟨header, check, hheader, hcheck, hpacket⟩ := tcpPacket_eq h data f
  rw [← hheader] at hparse
  have hports := tcpPorts_tcpHeader t f header (tcpOptions t f.syn ++ data) hcheck
  have hread := readTcpHeader_tcpHeader t f header check (tcpOptions t f.syn ++ data)
  have hdata := loadBytes_tcpPacket t data f header hcheck
  dsimp only at hdata
  rw [← hpacket] at hports hread hdata
  have hoptions : f.syn = true → synOptions (tcpPacket t data f ++ b :: tail) (optionLength (sentHeader t f).doff)
      (optionLength (sentHeader t f).doff) (header.length + 20) (getDefaultMss t.flow.version) 0 =
        .ok (swappedMss t.flow.version, t.recvScale % 256) := by
    intro hsyn
    -- a byte follows the options: the first one of the data, or the one behind the packet
    obtain ⟨b', tail', htail⟩ := List.exists_cons_of_length_pos (l := data ++ b :: tail) (by simp)
    have hpkt : tcpPacket t data f ++ b :: tail =
        (header ++ tcpHeader t f check) ++ (tcpOptions t true ++ b' :: tail') := by
      rw [hpacket, ← htail, hsyn]
      simp only [List.append_assoc]
    have hplace : header.length + 20 = (header ++ tcpHeader t f check).length := by
      rw [List.length_append, length_tcpHeader t f hcheck]
    have height : optionLength (sentHeader t f).doff = 8 := by
      simp only [sentHeader, hsyn, if_true]
      rfl
    rw [hpkt, hplace, height]
    exact synOptions_tcpOptions t _ b' tail' _
  have hreadPorts : readPorts (tcpPacket t data f)
      ⟨t.flow.version, IPPROTO_TCP, t.flow.daddr, t.flow.saddr, header.length⟩ = _ := hports
  unfold readSegment
  simp only [hparse, hreadPorts, hread, hdata, bind, Except.bind, pure, Except.pure, ne_eq, not_true_eq_false, if_false]
  cases hsyn : f.syn with
  | true =>
    rw [if_pos (show (sentHeader t f).syn = true from hsyn), hoptions hsyn]
    simp only [sentSegment, flowOf, hsyn, if_true]
  | false =>
    rw [if_neg (show ¬(sentHeader t f).syn = true by rw [sentHeader, hsyn]; exact Bool.false_ne_true)]
    simp only [sentSegment, flowOf, hsyn, Bool.false_eq_true, if_false]

theorem parseIp_of_readSegment {pkt tail : Bytes} {r : SegmentRead} (h : readSegment pkt tail = .ok (some r)) :
    ∃ p, parseIp pkt = .ok (some p) ∧ p.version = r.flow.version := by
  obtain ⟨_ | p, hparse, h⟩ := bind_eq_ok h
  · cases h
  · refine ⟨p, hparse, ?_⟩
    dsimp only at h
    split at h
    · cases h
    · obtain ⟨_ | ports, -, h⟩ := bind_eq_ok h
      · cases h
      · obtain ⟨header, -, h⟩ := bind_eq_ok h
        obtain ⟨data, -, h⟩ := bind_eq_ok h
        split at h
        · obtain ⟨options, -, h⟩ := bind_eq_ok h
          cases h
          rfl
        · cases h
          rfl

/-- An IPv4 packet that is read back is counted by `tot_len`. -/
theorem length_lt_of_readSegment {t : TcpSession} (h : t.flow.WellFormed) {data : Bytes} {f : TcpFlags} {tail : Bytes}
    {r : SegmentRead} (hread : readSegment (tcpPacket t data f) tail = .ok (some r))
    (hversion : r.flow.version = t.flow.version) (h4 : t.flow.version = 4) :
    40 + (tcpOptions t f.syn).length + data.length < 65536 := by
  obtain ⟨p, hparse, hp⟩ := parseIp_of_readSegment hread
  have hlen : (tcpPacket t data f).length < 65536 := length_lt_of_parseIp hparse (by rw [hp, hversion, h4])
  obtain ⟨header, check, hheader, hcheck, hpacket⟩ := tcpPacket_eq h data f
  rw [hpacket] at hlen
  simp only [List.length_append, hheader, length_tcpHeader t f hcheck, h4, ipHeaderLength, if_true] at hlen
  omega

/-- The receiver reads what a segment was written with exactly when it is no SYN, and its length and its
window fit 16 bits. -/
theorem readsBack_iff {t : TcpSession} (h : t.Typed) (data : Bytes) (f : TcpFlags) :
    t.ReadsBack data f ↔ f.syn = false ∧ dataFits t.flow.version data ∧ t.recvWindow >>> t.recvScale < 65536 := by
  constructor
  · intro hback
    obtain ⟨r, hread, hof⟩ := hback 0 []
    -- a packet that is taken is short enough, so what is read of it is known
    have hlen := length_lt_of_readSegment h.flow hread (by rw [hof.flow])
    have hsame := (readSegment_tcpPacket h.flow data f hlen 0 []).symm.trans hread
    cases hsame
    have hsyn : f.syn = false := by
      by_contra hsyn
      rw [Bool.not_eq_false] at hsyn
      have hoptions := hof.options hsyn
      simp only [sentSegment, hsyn, if_true, Option.some.injEq, Prod.mk.injEq] at hoptions
      exact swappedMss_ne _ hoptions.1
    refine ⟨hsyn, ?_, ?_⟩
    · unfold dataFits
      split
      · rename_i h4
        have := hlen h4
        omega
      · have htake : (data.take (data.length % 65536)).length = data.length := congrArg List.length hof.data
        rw [List.length_take_of_le (Nat.mod_le _ _)] at htake
        rw [← htake]
        exact Nat.mod_lt _ (by decide)
    · rw [← hof.window]
      exact Nat.mod_lt _ (by decide)
  · rintro ⟨hsyn, hfits, hwindow⟩ b tail
    have hoptions : (tcpOptions t f.syn).length = 0 := by
      rw [hsyn]
      rfl
    have hread := readSegment_tcpPacket h.flow data f
      (fun h4 => by rw [dataFits, if_pos h4] at hfits; omega) b tail
    have hdata : data.length < 65536 := by
      unfold dataFits at hfits
      split at hfits <;> omega
    refine ⟨sentSegment t data f, hread, ?_⟩
    constructor
    · simp only [sentSegment, Nat.mod_eq_of_lt h.source, Nat.mod_eq_of_lt h.dest]
    · exact Nat.mod_eq_of_lt h.localSeq
    · simp only [sentSegment, sentHeader, u32, Nat.mod_eq_of_lt h.remoteSeq]
    · rfl
    · rfl
    · rfl
    · exact Nat.mod_eq_of_lt hwindow
    · simp only [sentSegment, Nat.mod_eq_of_lt hdata, List.take_length]
    · intro h
      rw [hsyn] at h
      cases h

/-- A window of the engine fits: the shift takes back what the largest window was scaled with. -/
theorem getReceiveWindow_shiftRight_lt (t : TcpSession) (socket sendbuf unsent : Int) :
    getReceiveWindow t socket sendbuf unsent >>> t.recvScale < 65536 := by
  have hle : getReceiveWindow t socket sendbuf unsent ≤ 0xFFFF <<< t.recvScale := by
    unfold getReceiveWindow
    dsimp only
    have hwindow : min (getReceiveBuffer socket sendbuf unsent)
      (u32 (0xFFFF <<< t.recvScale)) ≤ 0xFFFF <<< t.recvScale :=
      le_trans (min_le_right _ _) (Nat.mod_le _ _)
    split
    · exact le_trans (Nat.sub_le _ _) hwindow
    · exact Nat.zero_le _
  rw [Nat.shiftRight_eq_div_pow, Nat.div_lt_iff_lt_mul (Nat.two_pow_pos _)]
  rw [Nat.shiftLeft_eq] at hle
  exact lt_of_le_of_lt hle (Nat.mul_lt_mul_of_pos_right (by decide) (Nat.two_pow_pos _))

theorem httpsSession_typed : httpsSession.Typed := by
  constructor <;> decide

/-- A segment of the session with three bytes of data is read back. -/
theorem readsBack_ack : httpsSession.ReadsBack [7, 8, 9] ⟨false, true, false, false⟩ :=
  (readsBack_iff httpsSession_typed [7, 8, 9] ⟨false, true, false, false⟩).2 ⟨rfl, by decide, by decide⟩

/-- The SYN of the session, which acknowledges that of the client, offers an MSS of 59430 instead of 9960. -/
theorem not_readsBack_synAck : ¬∀ (t : TcpSession) (data : Bytes) (f : TcpFlags), t.Typed → t.ReadsBack data f := by
  intro h
  obtain ⟨r, hread, hof⟩ := h httpsSession [] ⟨true, true, false, false⟩ httpsSession_typed 0 []
  have hsent := readSegment_tcpPacket httpsSession_typed.flow [] ⟨true, true, false, false⟩ (by decide) 0 []
  cases hsent.symm.trans hread
  have hoptions : some (59430, 7) = some (9960, 7) := hof.options rfl
  exact absurd hoptions (by decide)

end SunProxy.Net
