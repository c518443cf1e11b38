/-
A response with a service record, over UDP and over TCP. The parser takes the answers away and gives the
new length back; over UDP the message ends there, over TCP all that was read goes on to the client, under
the length it came with.
-/
import SunProxy.Net.DnsRecords
import SunProxy.Net.SessionRun
import SunProxy.Net.TcpWire

namespace SunProxy.Net

open SunProxy.Buffer SunProxy.Result

/-! ## What is written -/

/-- The packet that is written to the tun. -/
def Output.write? : Output → Option Bytes
  | .tunWrite packet => some packet
  | _ => none

def writes (os : List Output) : List Bytes := os.filterMap Output.write?

theorem writes_resolved (rs : List ResourceRecord) (packet : Bytes) :
    writes (rs.map .resolved ++ [.tunWrite packet]) = [packet] := by
  have hnone : (rs.map Output.resolved).filterMap Output.write? = [] := by
    rw [List.filterMap_eq_nil_iff]
    intro o ho
    obtain ⟨rr, -, rfl⟩ := List.mem_map.1 ho
    rfl
  rw [writes, List.filterMap_append, hnone]
  rfl

variable {args : Arguments} {u : UdpSession} {t : TcpSession} {bytes : Bytes} {calls : SocketCalls}

/-- Over UDP a datagram is written up to the length the parser gives. -/
theorem writes_receiveUdp {r : UdpSession × List Output} (h : receiveUdp args u bytes calls = .ok r) :
    ∃ reply, processDns args u.flow bytes = .ok reply ∧
    writes r.2 = [udpPacket u.flow (reply.data.take reply.datalen)] := by
  obtain ⟨reply, hreply, h⟩ := bind_eq_ok h
  cases h
  refine ⟨reply, hreply, ?_⟩
  rw [writes_resolved]
  split <;> rfl

/-- Over TCP all that was read is written, the two bytes of the length among it. -/
theorem writes_receiveTcp {r : TcpSession × List Output} (h : receiveTcp args t bytes calls = .ok r) :
    ∃ reply, processTcpDns args t.flow bytes = .ok reply ∧
      writes r.2 = [tcpPacket t (bytes.take 2 ++ reply.data) ⟨false, true, false, false⟩] := by
  obtain ⟨reply, hreply, h⟩ := bind_eq_ok h
  cases h
  refine ⟨reply, hreply, ?_⟩
  rw [writes_resolved]
  rfl

/-- Packets of a session that differ in the length of their data differ. -/
theorem length_tcpPacket (t : TcpSession) (data : Bytes) (f : TcpFlags) :
    (tcpPacket t data f).length = (tcpPacket t [] f).length + data.length := by
  simp only [tcpPacket, ipPacket]
  split
  · simp only [ip4Packet, ip4Header, List.length_append, length_be16, List.length_nil]
    simp only [checkBytes, List.length_cons, List.length_nil, tcpHeader, List.length_append, length_be16, length_be32]
    omega
  · simp only [ip6Packet, List.length_append, length_be16, List.length_nil]
    simp only [checkBytes, List.length_cons, List.length_nil, tcpHeader, List.length_append, length_be16, length_be32]
    omega

namespace DnsResponse

/-! ## Filtered responses -/

/-- The response without its answers: another header, and the question. -/
def withoutAnswers (args : Arguments) (r : DnsResponse) : Bytes :=
  (blockedHeader args.rcode r.header).bytes ++ (r.data.drop 12).take (r.next - 8)

/-- The message with its length before it, as it goes over TCP. -/
def overTcp (message : Bytes) : Bytes := be16 message.length ++ message

/-- The client is given the response without its answers over UDP and over TCP alike. -/
structure FilteredAlike (args : Arguments) (r : DnsResponse) (u : UdpSession) (t : TcpSession)
    (calls : SocketCalls) : Prop where
  udp : ∃ after, receiveUdp args u r.data calls = .ok after ∧
    writes after.2 = [udpPacket u.flow (r.withoutAnswers args)]
  tcp : ∃ after, receiveTcp args t (overTcp r.data) calls = .ok after ∧
    writes after.2 = [tcpPacket t (overTcp (r.withoutAnswers args)) ⟨false, true, false, false⟩]

theorem length_withoutAnswers (args : Arguments) (r : DnsResponse) : (r.withoutAnswers args).length = r.next + 4 := by
  have hnext := r.name.next_le
  have hasked := r.asked
  rw [withoutAnswers, List.length_append, length_dnsHeader, List.length_take, List.length_drop]
  omega

theorem length_overTcp (message : Bytes) : (overTcp message).length = message.length + 2 := by
  rw [overTcp, List.length_append, length_be16, Nat.add_comm]

/-- A response with an answer goes on behind its question. -/
theorem next_lt_length {r : DnsResponse} (hservice : r.answers.any (·.isService) = true) :
    r.next + 4 < r.data.length := by
  have hrecords := r.records
  generalize r.answers = as at hservice hrecords
  generalize r.next + 4 = off at hrecords ⊢
  cases hrecords with
  | nil => cases hservice
  | cons h _ => exact h.name.off_lt

/-- A response with a service record is not the same over TCP as over UDP. -/
theorem not_filteredAlike (r : DnsResponse) (args : Arguments) (u : UdpSession) (t : TcpSession) (calls : SocketCalls)
    (hservice : r.answers.any (·.isService) = true) : ¬ r.FilteredAlike args u t calls := by
  rintro ⟨-, after, hrun, hwrites⟩
  obtain ⟨reply, hreply, hwritten⟩ := writes_receiveTcp hrun
  rw [hwritten] at hwrites
  have hlen : ((overTcp r.data).take 2 ++ reply.data).length = (overTcp (r.withoutAnswers args)).length := by
    have hpackets := congrArg List.length (List.singleton_inj.1 hwrites)
    rw [length_tcpPacket t ((overTcp r.data).take 2 ++ reply.data), length_tcpPacket t (overTcp _)] at hpackets
    omega
  have hlonger := next_lt_length hservice
  rw [length_processTcpDns hreply, length_overTcp, length_overTcp, length_withoutAnswers] at hlen
  omega

/-! ## What is forwarded -/

/-- Over UDP the answers are taken away from a response whose names can be followed. -/
theorem writes_receiveUdp_service (r : DnsResponse) (hquestion : Followed r.question r.lead)
    (howners : ∀ a ∈ r.answers, Followed a.owner a.lead) (hservice : r.answers.any (·.isService) = true)
    (hdest : u.flow.dest = 53) :
    ∃ after, receiveUdp args u r.data calls = .ok after ∧
    writes after.2 = [udpPacket u.flow (r.withoutAnswers args)] := by
  have hparse := r.parseDnsResponse_of_followed args hquestion howners
  have hprocess : processDns args u.flow r.data = .ok (r.reply nameText args) := by
    rw [processDns, if_pos hdest, hparse]
  have hdata : ((r.reply nameText args).data.take (r.reply nameText args).datalen) = r.withoutAnswers args := by
    have hnext := r.name.next_le
    rw [reply, if_pos hservice]
    show ((blockedHeader args.rcode r.header).bytes ++ r.data.drop 12).take (r.next + 4) = r.withoutAnswers args
    rw [withoutAnswers, List.take_append, length_dnsHeader, List.take_of_length_le (by rw [length_dnsHeader]; omega)]
    rfl
  obtain ⟨after, hafter⟩ : ∃ after, receiveUdp args u r.data calls = .ok after := by
    simp only [receiveUdp, hprocess, bind, Except.bind]
    exact ⟨_, rfl⟩
  obtain ⟨reply, hreply, hwrites⟩ := writes_receiveUdp hafter
  rw [hprocess] at hreply
  cases hreply
  rw [hdata] at hwrites
  exact ⟨after, hafter, hwrites⟩

/-- Over TCP the same response goes on with its answers behind the new header, and with its old length. -/
theorem writes_receiveTcp_service (r : DnsResponse) (hquestion : Followed r.question r.lead)
    (howners : ∀ a ∈ r.answers, Followed a.owner a.lead) (hservice : r.answers.any (·.isService) = true)
    (hdest : t.flow.dest = 53) : ∃ after, receiveTcp args t (overTcp r.data) calls = .ok after ∧
      writes after.2 = [tcpPacket t
        (be16 r.data.length ++ ((blockedHeader args.rcode r.header).bytes ++ r.data.drop 12))
        ⟨false, true, false, false⟩] := by
  have hparse := r.parseDnsResponse_of_followed args hquestion howners
  have hnext := r.name.next_le
  have hprocess : processTcpDns args t.flow (overTcp r.data) = .ok (r.reply nameText args) := by
    have hlong : 2 < (overTcp r.data).length := by
      rw [length_overTcp]
      omega
    have hmessage : (overTcp r.data).drop 2 = r.data := List.drop_left' (length_be16 _)
    rw [processTcpDns, if_pos ⟨hdest, hlong⟩, hmessage, hparse]
  obtain ⟨after, hafter⟩ : ∃ after, receiveTcp args t (overTcp r.data) calls = .ok after := by
    simp only [receiveTcp, hprocess, bind, Except.bind]
    exact ⟨_, rfl⟩
  obtain ⟨reply, hreply, hwrites⟩ := writes_receiveTcp hafter
  have hlead : (overTcp r.data).take 2 = be16 r.data.length := List.take_left' (length_be16 _)
  rw [hprocess] at hreply
  cases hreply
  rw [hlead, DnsResponse.reply, if_pos hservice] at hwrites
  exact ⟨after, hafter, hwrites⟩

/-! ## A response with a service record -/

/-- A response to an HTTPS query for `a`, with one answer. -/
def serviceBytes : Bytes :=
  [0, 1, 0x81, 0x80, 0, 1, 0, 1, 0, 0, 0, 0, 1, 97, 0, 0, 65, 0, 1] ++
    [0xC0, 12, 0, 65, 0, 1, 0, 0, 2, 88, 0, 3, 0, 1, 0]

theorem nameAt_serviceQuestion : NameAt serviceBytes 12 [[97]] 15 1 none :=
  .label (n := 1) rfl (by decide) rfl (.root rfl)

theorem nameAt_serviceOwner : NameAt serviceBytes 19 [[97]] 21 2 (some 0) := by
  have htarget : pointerTarget 0xC0 12 = 12 := by decide
  exact .pointer (show load serviceBytes 19 = .ok 0xC0 from rfl) (by decide)
    (show load serviceBytes 20 = .ok 12 from rfl) (htarget ▸ nameAt_serviceQuestion)

def serviceRecord : AnswerRecord := ⟨19, 21, 2, some 0, [[97]], 65, 1, 600, [0, 1, 0]⟩

theorem stands_serviceRecord : serviceRecord.Stands serviceBytes :=
  ⟨nameAt_serviceOwner, by decide, by decide, rfl, rfl, rfl, rfl, rfl, by decide⟩

def serviceAnswer : DnsResponse where
  data := serviceBytes
  header := compressedAnswer.header
  question := [[97]]
  next := 15
  rounds := 1
  lead := none
  answers := [serviceRecord]
  size := by decide
  read := by decide +kernel
  qr := compressedAnswer.qr
  opcode := compressedAnswer.opcode
  qCount := compressedAnswer.qCount
  ansCount := compressedAnswer.ansCount
  name := nameAt_serviceQuestion
  hrounds := by decide
  wire := by decide
  asked := by decide
  records := .cons stands_serviceRecord (.nil _)

/-- The flow of 10.1.10.1 port 50000 to the resolver 8.8.8.8. -/
def lookupFlow : Flow := ⟨4, [10, 1, 10, 1], 50000, [8, 8, 8, 8], 53⟩

theorem not_filteredAlike_serviceAnswer : ¬ serviceAnswer.FilteredAlike (.plain [] _ compiled_redirectAll)
    ⟨0, 0, 1472, 0, 0, lookupFlow, .active⟩ { httpsSession with flow := lookupFlow } (.taking 0) :=
  not_filteredAlike serviceAnswer _ _ _ _ rfl

/-- Over UDP that response is written with its 19 bytes of header and question, over TCP with all 34 bytes. -/
theorem not_forall_filteredAlike : ¬ ∀ (r : DnsResponse) (args : Arguments) (u : UdpSession) (t : TcpSession)
    (calls : SocketCalls), r.answers.any (·.isService) = true → u.flow.dest = 53 → t.flow.dest = 53 →
      r.FilteredAlike args u t calls := by
  intro h
  obtain ⟨after, hrun, hwrites⟩ := (h serviceAnswer (.plain [] _ compiled_redirectAll)
    ⟨0, 0, 1472, 0, 0, lookupFlow, .active⟩ { httpsSession with flow := lookupFlow } (.taking 0) rfl rfl rfl).tcp
  have hlengths : (receiveTcp (.plain [] _ compiled_redirectAll) { httpsSession with flow := lookupFlow }
      (overTcp serviceAnswer.data) (.taking 0)).map (fun r => (writes r.2).map List.length) = .ok [76] := by
    decide +kernel
  rw [hrun] at hlengths
  simp only [Except.map, hwrites] at hlengths
  exact absurd hlengths (by decide +kernel)

end DnsResponse

end SunProxy.Net
