/-
Queries the hosts list has an address for. One that finds no session of its flow, or an active one,
gets one response and nothing is sent for it; but a session is done with its first response, and later
queries of its flow are ignored until it is removed.
-/
import SunProxy.Net.UdpRun

namespace SunProxy.Net

open SunProxy.Buffer SunProxy.Kotlin SunProxy.Result

variable {args : Arguments} {ctx : Context} {calls : TunCalls} {sessions : Int} {pkt : TunPacket}

/-! ## The response -/

/-- The version of the hosts entries that a query is about. -/
def DnsQuery.version (q : DnsQuery) : Nat := if q.qtype = DNS_QTYPE_A then 4 else 6

/-- A query in a packet to port 53, and the first entry of the hosts list for it. -/
structure HostsQuery (args : Arguments) (pkt : TunPacket) (p : IpPacket) (ports : Ports) (q : DnsQuery)
    (e : HostsEntry) : Prop where
  reads : ReadsPacket pkt p ports
  protocol : p.protocol = IPPROTO_UDP
  port : ports.dport = 53
  query : getDnsQuery (udpData pkt p) nameBuffer (pkt.rest (p.payload + 8)) = .ok (some q)
  qclass : q.qclass = DNS_QCLASS_IN
  qtype : q.qtype = DNS_QTYPE_A ∨ q.qtype = DNS_QTYPE_AAAA
  entry : args.hosts.find? (fun e => e.version = q.version &&
    e.regex.matches args.tables (args.newStringUTF (cString q.qname))) = some e

/-- What is written to the tun. -/
def tunWrites (acts : List Action) : List Bytes :=
  acts.filterMap fun
    | .output (.tunWrite packet) => some packet
    | _ => none

/-- A datagram to the network. -/
def Action.IsSendto : Action → Prop
  | .sendtoUdp .. => True
  | .sendtoIcmp .. => True
  | _ => False

/-- One response is written, with the address of the entry, and nothing is sent. -/
structure Answers (flow : Flow) (data : Bytes) (q : DnsQuery) (e : HostsEntry) (acts : List Action) : Prop where
  response : ∃ r, tunWrites acts = [udpPacket flow r] ∧
    ∀ addr, inetPton q.version e.address = some addr → buildResponse data q.qclass q.qtype addr = .ok r
  quiet : ∀ a ∈ acts, ¬ a.IsSendto

theorem header_of_getDnsQuery {data buf : Bytes} {datalen : Nat} {q : DnsQuery}
    (h : getDnsQuery data buf datalen = .ok (some q)) :
    ∃ rh, DnsHeader.read data = .ok rh := by
  unfold getDnsQuery at h
  split at h
  · cases h
  · obtain ⟨rh, hrh, -⟩ := bind_eq_ok h
    exact ⟨rh, hrh⟩

theorem HostsQuery.response {p : IpPacket} {ports : Ports} {q : DnsQuery} {e : HostsEntry}
    (h : HostsQuery args pkt p ports q e) (malloc : Nat → UInt8) :
    ∃ r, hostsResponse args malloc (flowOf p ports) (udpData pkt p) (pkt.rest (p.payload + 8)) = .ok (some r) ∧
      ∀ addr, inetPton q.version e.address = some addr →
        buildResponse (udpData pkt p) q.qclass q.qtype addr = .ok r := by
  obtain ⟨rh, hheader⟩ := header_of_getDnsQuery h.query
  have hbuild : ∀ addr, ∃ r, buildResponse (udpData pkt p) q.qclass q.qtype addr = .ok r := fun addr => by
    simp only [buildResponse, hheader, bind, Except.bind, pure, Except.pure, Except.ok.injEq, exists_eq']
  have haddress : addressFromHosts args malloc (cString q.qname) q.qtype =
      some ((inetPton q.version e.address).getD ((List.range (dnsAddrlen q.qtype)).map malloc)) := by
    have hentry : args.addressFromHosts (args.newStringUTF (cString q.qname)) q.version = some e.address := by
      rw [Arguments.addressFromHosts, h.entry, Option.map_some]
    show (args.addressFromHosts (args.newStringUTF (cString q.qname)) q.version).map _ = _
    rw [hentry]
    rfl
  obtain ⟨r, hr⟩ := hbuild ((inetPton q.version e.address).getD ((List.range (dnsAddrlen q.qtype)).map malloc))
  refine ⟨r, ?_, fun addr haddr => by rwa [haddr] at hr⟩
  have hasked : ¬(q.qclass ≠ DNS_QCLASS_IN ∨ q.qtype ≠ DNS_QTYPE_A ∧ q.qtype ≠ DNS_QTYPE_AAAA) := by
    rintro (hne | ⟨ha, haaaa⟩)
    · exact hne h.qclass
    · exact h.qtype.elim ha haaaa
  have hport : (flowOf p ports).dest = 53 := h.port
  simp only [hostsResponse, if_pos hport, h.query, bind, Except.bind, checkDomain, if_neg hasked, haddress, hr, pure,
    Except.pure]

/-! ## Queries of a flow -/

theorem answers_opened {flow : Flow} {data r : Bytes} {q : DnsQuery} {e : HostsEntry} (opened : List Action)
    (hr : ∀ addr, inetPton q.version e.address = some addr → buildResponse data q.qclass q.qtype addr = .ok r)
    (ho : opened = [] ∨ ∃ fd id redirect, opened = [.socket fd, .openUdp id flow redirect]) :
    Answers flow data q e (opened ++ [.output (.tunWrite (udpPacket flow r))]) := by
  rcases ho with rfl | ⟨fd, id, redirect, rfl⟩
  · exact ⟨⟨r, rfl, hr⟩, by simp [Action.IsSendto]⟩
  · exact ⟨⟨r, rfl, hr⟩, by simp [Action.IsSendto]⟩

/-- A query that finds an active session of its flow, or none and its socket opens, is answered; one that
finds another session is ignored. -/
theorem HostsQuery.answered {p : IpPacket} {ports : Ports} {q : DnsQuery} {e : HostsEntry}
    (h : HostsQuery args pkt p ports q e) (room : startsFlow args ctx p ports = true → sessions < args.maxsessions) :
    ((∀ r, ctx.findUdp (flowOf p ports) = some r → r.2.state = .active) →
      (ctx.findUdp (flowOf p ports) = none → 0 ≤ calls.socket ∧ 0 ≤ calls.protect) →
        ∃ ctx' acts, handleIp args ctx sessions pkt calls = .ok (ctx', acts) ∧
          Answers (flowOf p ports) (udpData pkt p) q e acts) ∧
    ∀ r, ctx.findUdp (flowOf p ports) = some r → r.2.state ≠ .active →
      handleIp args ctx sessions pkt calls = .ok (ctx, []) := by
  obtain ⟨r, hresponse, hr⟩ := h.response calls.malloc
  rw [handleIp_udp h.reads h.protocol room]
  generalize (verdict args ctx p ports noHost (packetUid args ctx p ports noHost calls)).redirect = redirect
  constructor
  · intro hactive hopens
    cases hfind : ctx.findUdp (flowOf p ports) with
    | some s =>
      -- the answer finishes the session that is found
      obtain ⟨id, u⟩ := s
      have hstate : u.state = .active := hactive _ hfind
      obtain ⟨hflow, -⟩ := mem_of_findUdp hfind
      refine ⟨ctx.update id (·.withUdp (u.withState .finishing)), _, ?_, answers_opened [] hr (.inl rfl)⟩
      simp only [handleUdp, hfind, hstate, ne_eq, not_true_eq_false, if_false, handleUdpSession, hflow, hresponse, bind,
        Except.bind, pure, Except.pure, List.nil_append]
    | none =>
      -- a socket is opened, and nothing sent with it
      have opens := hopens hfind
      have hopen : openUdpSocket ctx.next (flowOf p ports) redirect calls =
          (some calls.socket, [.socket calls.socket, .openUdp ctx.next (flowOf p ports) redirect]) := by
        simp only [openUdpSocket, openProtected, if_neg (Int.not_lt.2 opens.1), if_neg (Int.not_lt.2 opens.2),
          List.singleton_append]
      generalize packetUid args ctx p ports noHost calls = uid
      have hnew : (newUdpSession (flowOf p ports) uid redirect calls.now).flow = flowOf p ports := rfl
      refine ⟨(ctx.insert (.udp (newUdpSession (flowOf p ports) uid redirect calls.now)) calls.socket
        ⟨true, false⟩).update ctx.next
          (·.withUdp ((newUdpSession (flowOf p ports) uid redirect calls.now).withState .finishing)), _, ?_,
        answers_opened _ hr (.inr ⟨calls.socket, ctx.next, redirect, rfl⟩)⟩
      simp only [handleUdp, hfind, createUdp, hopen, handleUdpSession, hnew, hresponse, bind, Except.bind, pure,
        Except.pure]
  · rintro ⟨id, u⟩ hfind hstate
    simp only [handleUdp, hfind]
    rw [if_pos hstate]

/-- A query for the IPv4 address of the name `a`, from `10.1.10.1:1000` to `8.8.8.8`. -/
def queryPacket : Bytes :=
  [0x45, 0, 0, 47, 0, 0, 0, 0, 64, 17, 0, 0, 10, 1, 10, 1, 8, 8, 8, 8, 3, 232, 0, 53, 0, 27, 0, 0,
   0, 1, 1, 0, 0, 1, 0, 0, 0, 0, 0, 0, 1, 97, 0, 0, 1, 0, 1]

def letterEntry : HostsEntry := ⟨[⟨.lit 'a', false⟩], "10.0.0.1".toList, 4⟩

def letterQuery : DnsQuery := ⟨1, 1, [97, 0] ++ List.replicate 254 0⟩

theorem hostsQuery_letter :
    HostsQuery (.plain [letterEntry] _ compiled_redirectAll) queryPacket datagramPacket ⟨1000, 53, false⟩ letterQuery
      letterEntry where
  reads := ⟨by decide +kernel, by decide +kernel⟩
  protocol := rfl
  port := rfl
  query := by decide +kernel
  qclass := rfl
  qtype := .inl rfl
  entry := rfl

theorem answered_letter : ∃ ctx' acts, handleIp (.plain [letterEntry] _ compiled_redirectAll) ⟨[], 0⟩ 0 queryPacket
      .working = .ok (ctx', acts) ∧
    Answers (flowOf datagramPacket ⟨1000, 53, false⟩) (udpData queryPacket datagramPacket) letterQuery letterEntry
      acts := by
  refine (HostsQuery.answered hostsQuery_letter ?_).1 ?_ ?_
  · exact fun _ => by decide
  · rintro r ⟨⟩
  · exact fun _ => ⟨by decide, by decide⟩

def answerPacket : Bytes :=
  [0x45, 0, 0, 63, 0, 0, 0, 0, 64, 17, 86, 157, 8, 8, 8, 8, 10, 1, 10, 1, 0, 53, 3, 232, 0, 43, 232, 56,
   0, 1, 128, 0, 0, 1, 0, 1, 0, 0, 0, 0, 1, 97, 0, 0, 1, 0, 1, 192, 12, 0, 1, 0, 1, 0, 0, 2, 88, 0, 4, 10, 0, 0, 1]

/-- The table after the query: the session is done. -/
def answeredTable : Context :=
  ⟨[⟨0, .udp ⟨0, -1, UDP4_MAXMSG, 0, 0, flowOf datagramPacket ⟨1000, 53, false⟩, .finishing⟩, 3, ⟨true, false⟩⟩], 1⟩

theorem run_queryPacket : (⟨⟨[], 0⟩, 0⟩ : Engine).run (.plain [letterEntry] _ compiled_redirectAll)
    [.tun queryPacket .working] = .ok (⟨answeredTable, 0⟩, [[.socket 3,
      .openUdp 0 (flowOf datagramPacket ⟨1000, 53, false⟩) none,
      .output (.tunWrite answerPacket)]]) := by
  decide +kernel

/-- The same query again, from the same port, gets no response. -/
theorem not_answers_again : ¬ ∀ (args : Arguments) (events : List Event) (t : Trace) (pkt : TunPacket) (p : IpPacket)
    (ports : Ports) (q : DnsQuery) (e : HostsEntry) (calls : TunCalls),
    Run.final (Run.stepOk (Trace.step args)) (.ok .init) events = .ok t → HostsQuery args pkt p ports q e →
    t.engine.sessions < args.maxsessions → 0 ≤ calls.socket ∧ 0 ≤ calls.protect →
    ∃ ctx' acts, handleIp args t.engine.ctx t.engine.sessions pkt calls = .ok (ctx', acts) ∧
      Answers (flowOf p ports) (udpData pkt p) q e acts := by
  intro h
  obtain ⟨ctx', acts, hip, hanswers⟩ := h _ _ _ _ _ _ _ _ .working (final_of_run run_queryPacket []) hostsQuery_letter
    (by decide) ⟨by decide, by decide⟩
  have hignored : handleIp (.plain [letterEntry] _ compiled_redirectAll) answeredTable 0 queryPacket .working =
      .ok (answeredTable, []) := by
    decide +kernel
  rw [hignored] at hip
  cases hip
  obtain ⟨r, hr, -⟩ := hanswers.response
  cases hr

end SunProxy.Net
