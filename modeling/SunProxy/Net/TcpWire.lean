/-
The packets of a TCP session as their receiver reads them: the header of a packet of `write_tcp` has
the numbers and flags it was written with.
-/
import SunProxy.Net.Tcp

namespace SunProxy.Net

open SunProxy.Buffer

/-- A flow with addresses of its version. -/
def Flow.WellFormed (flow : Flow) : Prop :=
  flow.version = 4 ∧ flow.saddr.length = 4 ∧ flow.daddr.length = 4 ∨
    flow.version = 6 ∧ flow.saddr.length = 16 ∧ flow.daddr.length = 16

instance (flow : Flow) : Decidable flow.WellFormed := inferInstanceAs (Decidable (_ ∨ _))

theorem Flow.WellFormed.length_ip4 {flow : Flow} (h : flow.WellFormed) (h4 : flow.version = 4) :
    flow.saddr.length = 4 ∧ flow.daddr.length = 4 := by
  rcases h with ⟨-, haddrs⟩ | ⟨h6, -⟩
  · exact haddrs
  · rw [h4] at h6
    cases h6

/-- The length of the IP header of a packet that is written. -/
def ipHeaderLength (version : Nat) : Nat := if version = 4 then 20 else 40

/-- What a packet carries comes after its IP header. -/
theorem ipPacket_eq {flow : Flow} (h : flow.WellFormed) (protocol : Nat) (payload : Bytes) :
    ∃ header : Bytes, header.length = ipHeaderLength flow.version ∧
      ipPacket flow.version protocol flow.daddr flow.saddr payload = header ++ payload := by
  rcases h with ⟨hversion, hsaddr, hdaddr⟩ | ⟨hversion, hsaddr, hdaddr⟩
  · rw [hversion]
    refine ⟨_, ?_, rfl⟩
    simp only [ip4Header, ipHeaderLength, checkBytes, List.length_append, List.length_cons, List.length_nil,
      length_be16, hsaddr, hdaddr, if_true]
  · rw [hversion]
    refine ⟨[0x60, 0, 0, 0] ++ be16 payload.length ++ [UInt8.ofNat protocol, IPDEFTTL] ++ flow.daddr ++ flow.saddr, ?_,
      ?_⟩
    · simp only [ipHeaderLength, List.length_append, List.length_cons, List.length_nil, length_be16, hsaddr, hdaddr]
      rfl
    · rfl

/-- The flags of a header that was written. -/
theorem testBit_flags (f : TcpFlags) :
    let flags := (UInt8.ofNat (f.fin.toNat + 2 * f.syn.toNat + 4 * f.rst.toNat + 16 * f.ack.toNat)).toNat
    flags.testBit 0 = f.fin ∧ flags.testBit 1 = f.syn ∧ flags.testBit 2 = f.rst ∧ flags.testBit 3 = false ∧
      flags.testBit 4 = f.ack ∧ flags.testBit 5 = false := by
  obtain ⟨syn, ack, fin, rst⟩ := f
  cases syn <;> cases ack <;> cases fin <;> cases rst <;> decide

theorem length_tcpOptions (t : TcpSession) (syn : Bool) : (tcpOptions t syn).length = if syn then 8 else 0 := by
  cases syn <;> rfl

theorem length_tcpOptions_le (t : TcpSession) (syn : Bool) : (tcpOptions t syn).length ≤ 8 := by
  rw [length_tcpOptions]
  split <;> decide

theorem length_tcpHeader (t : TcpSession) (f : TcpFlags) {check : Bytes} (h : check.length = 2) :
    (tcpHeader t f check).length = 20 := by
  simp only [tcpHeader, List.length_append, List.length_cons, List.length_nil, length_be16, length_be32, h]

/-- The data offset of a header that was written. -/
theorem doff_tcpHeader (t : TcpSession) (f : TcpFlags) :
    (UInt8.ofNat ((20 + (tcpOptions t f.syn).length) / 4 * 16)).toNat / 16 = if f.syn then 7 else 5 := by
  rw [length_tcpOptions]
  cases f.syn <;> rfl

/-- A packet of `write_tcp` is an IP header, the TCP header, the options of a SYN and the data. -/
theorem tcpPacket_eq {t : TcpSession} (h : t.flow.WellFormed) (data : Bytes) (f : TcpFlags) :
    ∃ header check : Bytes, header.length = ipHeaderLength t.flow.version ∧ check.length = 2 ∧
      tcpPacket t data f = header ++ (tcpHeader t f check ++ (tcpOptions t f.syn ++ data)) := by
  unfold tcpPacket
  dsimp only
  generalize hcheck : checkBytes _ = check
  obtain ⟨header, hlen, hpacket⟩ := ipPacket_eq h IPPROTO_TCP (tcpHeader t f check ++ tcpOptions t f.syn ++ data)
  refine ⟨header, check, hlen, ?_, ?_⟩
  · rw [← hcheck]
    rfl
  · rw [hpacket, List.append_assoc]

/-- The header that the receiver of a packet of `write_tcp` reads. -/
def sentHeader (t : TcpSession) (f : TcpFlags) : TcpHeader where
  seq := u32 t.localSeq
  ackSeq := if f.ack then u32 t.remoteSeq else 0
  doff := if f.syn then 7 else 5
  fin := f.fin
  syn := f.syn
  rst := f.rst
  psh := false
  ack := f.ack
  urg := false
  window := (t.recvWindow >>> t.recvScale) % 65536

theorem readTcpHeader_tcpHeader (t : TcpSession) (f : TcpFlags) (pre check rest : Bytes) :
    readTcpHeader (pre ++ (tcpHeader t f check ++ rest)) pre.length = .ok (sentHeader t f) := by
  obtain ⟨hfin, hsyn, hrst, hpsh, hack, hurg⟩ := testBit_flags f
  have hwords := doff_tcpHeader t f
  unfold tcpHeader
  generalize UInt8.ofNat (f.fin.toNat + _ + _ + _) = flags at hfin hsyn hrst hpsh hack hurg ⊢
  generalize UInt8.ofNat (_ / 4 * 16) = doff at hwords ⊢
  have hseq := loadBe32_stored (pre ++ be16 t.flow.dest ++ be16 t.flow.source)
    (be32 (if f.ack then t.remoteSeq else 0) ++ (doff :: flags :: (be16 (t.recvWindow >>> t.recvScale) ++
      (check ++ ([0, 0] ++ rest))))) (n := t.localSeq) (i := pre.length + 4) (by simp)
  have hackSeq := loadBe32_stored (pre ++ be16 t.flow.dest ++ be16 t.flow.source ++ be32 t.localSeq)
    (doff :: flags :: (be16 (t.recvWindow >>> t.recvScale) ++ (check ++ ([0, 0] ++ rest))))
    (n := if f.ack then t.remoteSeq else 0) (i := pre.length + 8) (by simp)
  have hdoff := load_append (pre ++ be16 t.flow.dest ++ be16 t.flow.source ++ be32 t.localSeq ++
    be32 (if f.ack then t.remoteSeq else 0)) (flags :: (be16 (t.recvWindow >>> t.recvScale) ++
      (check ++ ([0, 0] ++ rest)))) (b := doff) (i := pre.length + 12) (by simp)
  have hflags := load_append (pre ++ be16 t.flow.dest ++ be16 t.flow.source ++ be32 t.localSeq ++
    be32 (if f.ack then t.remoteSeq else 0) ++ [doff]) (be16 (t.recvWindow >>> t.recvScale) ++
      (check ++ ([0, 0] ++ rest))) (b := flags) (i := pre.length + 13) (by simp)
  have hwindow := loadBe16_stored (pre ++ be16 t.flow.dest ++ be16 t.flow.source ++ be32 t.localSeq ++
    be32 (if f.ack then t.remoteSeq else 0) ++ [doff, flags]) (check ++ ([0, 0] ++ rest))
    (n := t.recvWindow >>> t.recvScale) (i := pre.length + 14) (by simp)
  simp only [List.append_assoc, List.cons_append, List.nil_append] at hseq hackSeq hdoff hflags hwindow ⊢
  unfold readTcpHeader
  simp only [TunPacket.buffer_alone, hseq, hackSeq, hdoff, hflags, hwindow, bind, Except.bind, pure, Except.pure,
    hwords, hfin, hsyn, hrst, hpsh, hack, hurg, sentHeader]
  cases f.ack <;> rfl

/-- The header of a packet of `write_tcp`. -/
theorem readTcpHeader_tcpPacket {t : TcpSession} (h : t.flow.WellFormed) (data : Bytes) (f : TcpFlags) :
    ∃ header, readTcpHeader (tcpPacket t data f) (ipHeaderLength t.flow.version) = .ok header ∧
      header.seq = u32 t.localSeq ∧ header.ackSeq = (if f.ack then u32 t.remoteSeq else 0) ∧ header.ack = f.ack ∧
      header.syn = f.syn ∧ header.fin = f.fin ∧ header.rst = f.rst := by
  obtain ⟨pre, check, hlen, -, hpacket⟩ := tcpPacket_eq h data f
  refine ⟨sentHeader t f, ?_, rfl, rfl, rfl, rfl, rfl, rfl⟩
  rw [hpacket, ← hlen]
  exact readTcpHeader_tcpHeader t f pre check _

/-- A session of 10.1.10.1 port 50000 with 8.8.8.8 port 443 that has taken the SYN. -/
def httpsSession : TcpSession where
  uid := 10000
  time := 0
  mss := 1460
  recvScale := 7
  sendScale := 7
  recvWindow := 163840
  sendWindow := 65535
  unconfirmed := 0
  remoteSeq := 1001
  localSeq := 5000
  remoteStart := 1000
  localStart := 5000
  acked := 0
  lastKeepAlive := 0
  sent := 0
  received := 0
  flow := ⟨4, [10, 1, 10, 1], 50000, [8, 8, 8, 8], 443⟩
  state := .synRecv
  socks5 := .none
  forward := []

end SunProxy.Net
