/-
What is written to the tun answers what came from it: in every run each packet goes from where a packet read before
went, and to where that one came from, whatever the order of the events of all sessions; after a DHCP request that was
answered, to the address it was given. No rule, redirection or answer of a server makes the engine write to a client
that has not asked, or in another one's name.
-/
import SunProxy.Net.Births

namespace SunProxy.Net

open SunProxy.Buffer SunProxy.Result SunProxy.Run SunProxy.Simulation SunProxy.Table

variable {args : Arguments} {ctx ctx' : Context} {acts : List Action} {os : List Output} {p : IpPacket} {ports : Ports}
  {flow : Flow} {packet : Bytes}

/-! ## Replies -/

/-- A packet from a port to a port. -/
def portsPacket (flow : Flow) (protocol : Nat) (rest : Bytes) : Bytes :=
  ipPacket flow.version protocol flow.daddr flow.saddr (be16 flow.dest ++ (be16 flow.source ++ rest))

/-- The packet is a DHCP request that `check_dhcp` answers. -/
structure AsksLease (pkt : TunPacket) (p : IpPacket) (ports : Ports) : Prop where
  protocol : p.protocol = IPPROTO_UDP
  request : AnswersDhcp (flowOf p ports) (udpData pkt p) (pkt.rest (p.payload + 8))

/-- The packets that answer a packet: they have its addresses, and its ports, the other way round. After a DHCP
request they go to the address that it was given. -/
inductive RepliesTo (pkt : TunPacket) (p : IpPacket) (ports : Ports) : Bytes → Prop
  | icmp {protocol : Nat} (asked : isIcmp p.protocol = true) (answers : isIcmp protocol = true) (message : Bytes) :
      RepliesTo pkt p ports (ipPacket p.version protocol p.daddr p.saddr message)
  | ports (asked : p.protocol = IPPROTO_UDP ∨ p.protocol = IPPROTO_TCP) (rest : Bytes) :
      RepliesTo pkt p ports (portsPacket (flowOf p ports) p.protocol rest)
  | leased (asks : AsksLease pkt p ports) (rest : Bytes) :
      RepliesTo pkt p ports (portsPacket (flowOf p ports).leased IPPROTO_UDP rest)

/-- The packets of the flow of a session, or of the flow it had when a DHCP request of it was answered. -/
def Key.Asks (pkt : TunPacket) (p : IpPacket) (ports : Ports) : Key → Prop
  | .icmp version saddr daddr => isIcmp p.protocol = true ∧ version = p.version ∧ saddr = p.saddr ∧ daddr = p.daddr
  | .udp flow =>
    p.protocol = IPPROTO_UDP ∧ flow = flowOf p ports ∨ AsksLease pkt p ports ∧ flow = (flowOf p ports).leased
  | .tcp flow _ => p.protocol = IPPROTO_TCP ∧ flow = flowOf p ports

/-- The packets that a session writes. -/
def Key.Writes : Key → Bytes → Prop
  | .icmp version saddr daddr, packet =>
    ∃ protocol message, isIcmp protocol = true ∧ packet = ipPacket version protocol daddr saddr message
  | .udp flow, packet => ∃ rest, packet = portsPacket flow IPPROTO_UDP rest
  | .tcp flow _, packet => ∃ rest, packet = portsPacket flow IPPROTO_TCP rest

theorem Key.Asks.replies {pkt : TunPacket} {key : Key} (h : key.Asks pkt p ports) (hwrites : key.Writes packet) :
    RepliesTo pkt p ports packet := by
  cases key with
  | icmp version saddr daddr =>
    obtain ⟨asked, rfl, rfl, rfl⟩ := h
    obtain ⟨protocol, message, answers, rfl⟩ := hwrites
    exact .icmp asked answers message
  | udp flow =>
    obtain ⟨rest, rfl⟩ := hwrites
    rcases h with ⟨asked, rfl⟩ | ⟨asks, rfl⟩
    · rw [← asked]
      exact .ports (.inl asked) rest
    · exact .leased asks rest
  | tcp flow uid =>
    obtain ⟨asked, rfl⟩ := h
    obtain ⟨rest, rfl⟩ := hwrites
    rw [← asked]
    exact .ports (.inr asked) rest

theorem exists_tcpPacket {t : TcpSession} (hflow : t.flow = flow) (data : Bytes) (f : TcpFlags) :
    ∃ rest, tcpPacket t data f = portsPacket flow IPPROTO_TCP rest := by
  subst hflow
  unfold tcpPacket tcpHeader portsPacket
  simp only [List.append_assoc]
  exact ⟨_, rfl⟩

theorem exists_udpPacket (flow : Flow) (data : Bytes) :
    ∃ rest, udpPacket flow data = portsPacket flow IPPROTO_UDP rest := by
  unfold udpPacket udpHeader portsPacket
  simp only [List.append_assoc]
  exact ⟨_, rfl⟩

/-! ## What sessions write -/

/-- All that is written is written by a session with this key. -/
def Key.WritesAll (key : Key) (os : List Output) : Prop := ∀ packet, .tunWrite packet ∈ os → key.Writes packet

theorem Key.WritesAll.nil (key : Key) : key.WritesAll [] := fun _ h => absurd h List.not_mem_nil

theorem Key.WritesAll.of_other {key : Key} (h : ∀ packet, .tunWrite packet ∉ os) : key.WritesAll os :=
  fun packet hw => absurd hw (h packet)

theorem Key.WritesAll.append {key : Key} {os' : List Output} (h : key.WritesAll os) (h' : key.WritesAll os') :
    key.WritesAll (os ++ os') := fun packet hw => (List.mem_append.1 hw).elim (h packet) (h' packet)

theorem Key.WritesAll.singleton {key : Key} (h : key.Writes packet) : key.WritesAll [.tunWrite packet] := by
  intro packet' hw
  obtain rfl := Output.tunWrite.inj (List.mem_singleton.1 hw)
  exact h

/-- Nothing is asked of the segments. -/
def Guard.free (id : Nat) : Guard := ⟨id, fun _ _ _ => True, fun _ _ _ => True⟩

/-- A move of a TCP session writes for its flow. -/
theorem writesAll_move {G : Guard} {t t' : TcpSession} (hmove : Move G t os t') :
    (Key.tcp t.flow t.uid).WritesAll os := by
  cases hmove with
  | alike | goes | syn | queue | fin | lastFin | halfClose | finish => exact .nil _
  | sendPart | sendAll | sendLast =>
    apply Key.WritesAll.of_other
    intro packet hw
    cases List.mem_singleton.1 hw
  | other ho =>
    apply Key.WritesAll.of_other
    intro packet hw
    rw [← List.mem_singleton.1 hw] at ho
    cases ho
  | write data flags => exact .singleton (exists_tcpPacket rfl data flags)
  | keepAlive ms _ => exact .singleton (exists_tcpPacket rfl _ _)

theorem writesAll_moves {G : Guard} {t t' : TcpSession} (h : Moves G t os t') :
    (Key.tcp t.flow t.uid).WritesAll os := by
  induction h with
  | refl => exact .nil _
  | head first _ ih =>
    have hflow := flow_move first
    refine (writesAll_move first).append fun packet hw => ?_
    obtain ⟨rest, hrest⟩ := ih packet hw
    exact ⟨rest, hflow ▸ hrest⟩

theorem writesAll_checkIcmpSocket (i : IcmpSession) (calls : SocketCalls) :
    (SessionData.icmp i).key.WritesAll (checkIcmpSocket i calls).2 := by
  unfold checkIcmpSocket
  split
  · exact .nil _
  · split
    · dsimp only
      split
      · exact .nil _
      · split
        · exact .nil _
        · -- the answer has the addresses of the session, whether it was written or not
          have hicmp : isIcmp (if i.version = 4 then IPPROTO_ICMP else IPPROTO_ICMPV6) = true := by split <;> rfl
          apply Key.WritesAll.singleton
          cases calls.tunWrite 0
          · exact ⟨_, _, hicmp, rfl⟩
          · exact ⟨_, _, hicmp, rfl⟩
    · exact .nil _

theorem writesAll_checkUdpSocket {u : UdpSession} {calls : SocketCalls} {r : UdpSession × List Output}
    (h : checkUdpSocket args u calls = .ok r) : (Key.udp u.flow).WritesAll r.2 := by
  have quiet : ∀ {r' : UdpSession}, (r', []) = r → (Key.udp u.flow).WritesAll r.2 := by
    rintro r' rfl
    exact .nil _
  unfold checkUdpSocket at h
  split at h
  · exact quiet (Except.ok.inj h)
  · split at h
    · dsimp only at h
      split at h
      · exact quiet (Except.ok.inj h)
      · split at h
        · exact quiet (Except.ok.inj h)
        · obtain ⟨reply, -, h⟩ := bind_eq_ok h
          cases h
          apply Key.WritesAll.append
          · apply Key.WritesAll.of_other
            intro packet hw
            obtain ⟨rr, -, hrr⟩ := List.mem_map.1 hw
            cases hrr
          · apply Key.WritesAll.singleton
            dsimp only
            split
            · exact exists_udpPacket u.flow _
            · exact exists_udpPacket u.flow _
    · exact quiet (Except.ok.inj h)

/-- Only its socket makes a session write that is not TCP. -/
theorem NgSession.step_silent {s : NgSession} {e : SessionEvent} {r : Option NgSession × List Output}
    (hdata : ∀ t, s.data ≠ .tcp t) (hsocket : ∀ calls, e ≠ .socket calls) (h : s.step args e = .ok r) (packet : Bytes) :
    .tunWrite packet ∉ r.2 := by
  cases e with
  | segment header data calls =>
    cases h
    unfold NgSession.receive
    split
    · exact absurd ‹_› (hdata _)
    · exact List.not_mem_nil
  | monitor calls =>
    cases h
    unfold monitorSession
    split
    · exact absurd ‹_› (hdata _)
    · exact List.not_mem_nil
  | check sessions now =>
    cases h
    unfold checkSession
    split
    · unfold checkIcmpSession
      split <;> simp
    · unfold checkUdpSession closeUdp accountUdp
      dsimp only
      split_ifs <;> simp
    · exact absurd ‹_› (hdata _)
  | socket calls => exact absurd rfl (hsocket calls)
  | checkAllowed =>
    cases h
    unfold checkAllowed
    split
    · dsimp only
      split <;> exact List.not_mem_nil
    · split_ifs <;> exact List.not_mem_nil
    · exact absurd ‹_› (hdata _)
  | clear =>
    cases h
    unfold clearSession
    dsimp only
    split <;> simp

theorem writesAll_socketEvent {s : NgSession} {calls : SocketCalls} {r : NgSession × List Output}
    (hdata : ∀ t, s.data ≠ .tcp t) (h : socketEvent args s calls = .ok r) : s.data.key.WritesAll r.2 := by
  unfold socketEvent at h
  split at h
  · rename_i i hi
    cases h
    rw [hi]
    exact writesAll_checkIcmpSocket i calls
  · rename_i u hu
    rw [hu]
    split at h
    · obtain ⟨r', hr', h⟩ := bind_eq_ok h
      cases h
      exact writesAll_checkUdpSocket hr'
    · cases h
      exact .nil _
  · exact absurd ‹_› (hdata _)

/-- What is done with a session writes for its flow. -/
theorem NgSession.writes_step {s : NgSession} {e : SessionEvent} {r : Option NgSession × List Output} (hfits : s.Fits)
    (h : s.step args e = .ok r) : s.data.key.WritesAll r.2 := by
  by_cases htcp : ∃ t, s.data = .tcp t
  · obtain ⟨t, hdata⟩ := htcp
    have hguard : e.Guarded (.free s.id) t := by
      cases e with
      | segment => exact ⟨fun _ => trivial, fun _ _ => trivial⟩
      | monitor | check | socket | checkAllowed | clear => trivial
    obtain ⟨t', -, hmoves⟩ := moves_step hdata hfits rfl hguard h
    rw [hdata]
    exact writesAll_moves hmoves
  · have hdata : ∀ t, s.data ≠ .tcp t := not_exists.1 htcp
    by_cases hsocket : ∃ calls, e = .socket calls
    · obtain ⟨calls, rfl⟩ := hsocket
      simp only [NgSession.step] at h
      split at h
      · obtain ⟨r', hr', h⟩ := bind_eq_ok h
        cases h
        exact writesAll_socketEvent hdata hr'
      · cases h
        exact .nil _
    · exact .of_other (NgSession.step_silent hdata (not_exists.1 hsocket) h)

/-! ## What the engine writes -/

theorem writes_eachSession {f : NgSession → Option NgSession × List Output} {l : List NgSession}
    (h : ∀ s ∈ l, s.data.key.WritesAll (f s).2) (hw : .tunWrite packet ∈ (eachSession f l).2) :
    ∃ s ∈ l, s.data.key.Writes packet := by
  obtain ⟨s, hs, hw⟩ := List.mem_flatMap.1 hw
  exact ⟨s, hs, h s hs packet hw⟩

theorem writes_loopTurn (hf : ∀ s ∈ ctx.sessions, s.Fits) (calls : LoopCalls)
    (hw : .tunWrite packet ∈ (loopTurn args ctx calls).2) : ∃ s ∈ ctx.sessions, s.data.key.Writes packet := by
  have hmonitor : ∀ s ∈ ctx.sessions, s.data.key.WritesAll (keep (monitorSession calls.monitor s)).2 := fun s hs =>
    have hstep : s.step args (.monitor (calls.monitor s.id)) = .ok (keep (monitorSession calls.monitor s)) := rfl
    NgSession.writes_step (hf s hs) hstep
  have hcheck : ∀ s' ∈ (eachSession (fun s => keep (monitorSession calls.monitor s)) ctx.sessions).1,
      s'.data.key.WritesAll (checkSession ctx.countActive args.maxsessions calls.now s').2 := fun s' hs' => by
    obtain ⟨s, hs, hkept⟩ := List.mem_filterMap.1 hs'
    cases hkept
    have hmonitored : s.step args (.monitor (calls.monitor s.id)) = .ok (keep (monitorSession calls.monitor s)) := rfl
    have hchecked : (monitorSession calls.monitor s).1.step args (.check ctx.countActive calls.now) =
        .ok (checkSession ctx.countActive args.maxsessions calls.now (monitorSession calls.monitor s).1) := rfl
    exact NgSession.writes_step (fits_step (hf s hs) hmonitored _ rfl) hchecked
  unfold loopTurn at hw
  dsimp only at hw
  split at hw
  · rcases List.mem_append.1 hw with hw | hw
    · exact writes_eachSession hmonitor hw
    · -- what is checked is a session after its monitoring, which has the same key
      obtain ⟨s', hs', hwrites⟩ := writes_eachSession hcheck hw
      obtain ⟨s, hs, hkept⟩ := List.mem_filterMap.1 hs'
      cases hkept
      have hkey := (NgSession.Later.monitorSession calls.monitor s).key
      rw [hkey] at hwrites
      exact ⟨s, hs, hwrites⟩
  · exact writes_eachSession hmonitor hw

section Packets

variable {pkt : TunPacket} {data : Bytes} {datalen : Nat} {calls : TunCalls} {redirect : Option Allowed} {uid : Int}

/-- The answer to a datagram is written for the flow that its session has then. -/
theorem writesAll_dealt {malloc : Nat → UInt8} {id : Nat} {flow' : Flow}
    (h : Dealt args malloc flow data datalen id redirect flow' acts) : (Key.udp flow').WritesAll (outputsOf acts) := by
  cases h with
  | answered => exact .singleton (exists_udpPacket flow _)
  | leased => exact .singleton (exists_udpPacket flow.leased _)
  | dhcp | forwarded | refused => exact .nil _

theorem writesAll_handledUdp (h : HandledUdp args ctx flow redirect data datalen calls ctx' acts) :
    ∃ flow', (flow' = flow ∨ flow' = flow.leased ∧ AnswersDhcp flow data datalen) ∧
      (Key.udp flow').WritesAll (outputsOf acts) := by
  cases h with
  | ignored => exact ⟨flow, .inl rfl, .nil _⟩
  | session _ _ dealt _ _ => exact ⟨_, dealt.flow_or_leased, writesAll_dealt dealt⟩
  | failed _ refused _ =>
    rw [outputsOf_openProtected (openUdpSocket_none refused)]
    exact ⟨flow, .inl rfl, .nil _⟩
  | opened _ _ dealt _ _ _ _ =>
    have hwrites := writesAll_dealt dealt
    exact ⟨_, dealt.flow_or_leased, hwrites⟩

theorem outputsOf_handledIcmp (h : HandledIcmp ctx pkt p calls ctx' acts) : outputsOf acts = [] := by
  cases h with
  | ignored | session | opened => rfl
  | failed _ _ refused _ => exact outputsOf_openProtected refused

/-- A segment of a flow without a session is answered in its flow. -/
theorem writesAll_unknownReset (h : TcpHeader) (datalen : Nat) :
    (Key.tcp flow uid).WritesAll [unknownReset flow h datalen] :=
  writesAll_moves (moves_writeRst (G := .free 0) _)

theorem writesAll_handleTcp {payload : Nat} (hf : ∀ s ∈ ctx.sessions, s.Fits)
    (h : handleTcp ctx pkt payload flow uid true redirect calls = .ok (ctx', acts)) :
    (Key.tcp flow uid).WritesAll (outputsOf acts) := by
  cases handleTcp_cases h with
  | ignored => exact .nil _
  | unknown found header syn _ =>
    obtain ⟨header', hread, h⟩ := bind_eq_ok h
    cases header.symm.trans hread
    rw [found, syn] at h
    dsimp only at h
    split at h
    · cases h
    · cases h
      exact writesAll_unknownReset _ _
  | session found reads urg changed =>
    rename_i s t header data
    obtain ⟨hflow, hs, hdata⟩ := mem_of_findTcp found
    have hmoves : Moves (.free s.id) t (segmentResult t s.socket header data calls).2
      (segmentResult t s.socket header data calls).1 :=
      moves_segmentResult ((NgSession.fits_tcp hdata).1 (hf s hs)) (fun _ => trivial) fun _ _ => trivial
    rw [outputsOf_map, ← hflow]
    exact writesAll_moves hmoves
  | failed _ _ _ _ refused _ =>
    have hnone : outputsOf acts = [] := outputsOf_eq_nil fun a ha => by
      rcases mem_openTcpSocket_none refused a ha with ⟨fd, rfl⟩ | rfl <;> rfl
    rw [hnone]
    exact .nil _
  | opened _ _ _ _ _ _ _ listens _ _ =>
    rw [(listens rfl).1]
    exact .nil _

theorem repliesTo_dispatch {host : HostInfo} {v : Verdict} (hf : ∀ s ∈ ctx.sessions, s.Fits)
    (hallowed : v.allowed = true) (h : dispatch args ctx pkt p ports host uid v calls = .ok (ctx', acts))
    (hw : .tunWrite packet ∈ outputsOf acts) :
    RepliesTo pkt p ports packet := by
  rw [dispatch, if_pos hallowed] at h
  split at h
  · rw [outputsOf_handledIcmp (handleIcmp_cases h)] at hw
    cases hw
  · split at h
    · rename_i protocol
      obtain ⟨flow', hflow, hwrites⟩ := writesAll_handledUdp (handleUdp_cases h)
      have hasks : (Key.udp flow').Asks pkt p ports :=
        hflow.imp (fun heq => ⟨protocol, heq⟩) fun hleased => ⟨⟨protocol, hleased.2⟩, hleased.1⟩
      exact hasks.replies (hwrites packet hw)
    · split at h
      · rename_i protocol
        have hasks : (Key.tcp (flowOf p ports) uid).Asks pkt p ports := ⟨protocol, rfl⟩
        exact hasks.replies (writesAll_handleTcp hf h packet hw)
      · cases h
        cases hw

/-- What `handle_ip` writes replies to the packet that it is given. -/
theorem repliesTo_handleIp {sessions : Int} (hf : ∀ s ∈ ctx.sessions, s.Fits)
    (h : handleIp args ctx sessions pkt calls = .ok (ctx', acts)) (hw : .tunWrite packet ∈ outputsOf acts) :
    ∃ p ports, ReadsPacket pkt p ports ∧ RepliesTo pkt p ports packet := by
  obtain ⟨header, hp, h⟩ := bind_eq_ok h
  cases header with
  | none =>
    cases h
    cases hw
  | some p =>
    obtain ⟨ports, hports, h⟩ := bind_eq_ok h
    cases ports with
    | none =>
      cases h
      cases hw
    | some ports =>
      refine ⟨p, ports, ⟨hp, hports⟩, ?_⟩
      dsimp only at h
      unfold handlePacket at h
      split at h
      · cases h
        cases hw
      · obtain ⟨host, -, h⟩ := bind_eq_ok h
        obtain ⟨⟨ctx'', acts''⟩, hdispatch, h⟩ := bind_eq_ok h
        cases h
        -- a report of a server name is no packet
        have hreports : outputsOf (reportSni p host calls) = [] ∨
            ∃ rr, outputsOf (reportSni p host calls) = [.resolved rr] := by
          unfold reportSni
          split
          · exact .inr ⟨_, rfl⟩
          · exact .inl rfl
        rw [outputsOf_append] at hw
        rcases List.mem_append.1 hw with hw | hw
        · rcases hreports with hnone | ⟨rr, hrr⟩
          · rw [hnone] at hw
            cases hw
          · rw [hrr] at hw
            cases List.mem_singleton.1 hw
        · exact repliesTo_dispatch hf (verdict_allowed ..) hdispatch hw

/-- A session of the table after a datagram has the key of one that was there, or the flow of the datagram, or
what that becomes when it is a DHCP request. -/
theorem HandledUdp.asked {s : NgSession} (h : HandledUdp args ctx flow redirect data datalen calls ctx' acts)
    (hv : ctx.table.Valid) (hs : s ∈ ctx'.sessions) : (∃ s₀ ∈ ctx.sessions, s₀.data.key = s.data.key) ∨
      ∃ u, s.data = .udp u ∧ (u.flow = flow ∨ u.flow = flow.leased ∧ AnswersDhcp flow data datalen) := by
  cases h with
  | ignored _ _ same => exact .inl ⟨s, same ▸ hs, rfl⟩
  | failed _ _ same =>
    subst same
    exact .inl ⟨s, hs, rfl⟩
  | session _ _ dealt _ changed =>
    rw [changed] at hs
    obtain ⟨s₀, hs₀, rfl⟩ := List.mem_map.1 hs
    split
    · exact .inr ⟨_, rfl, dealt.flow_or_leased⟩
    · exact .inl ⟨s₀, hs₀, rfl⟩
  | opened _ _ dealt _ _ _ added =>
    rw [added hv] at hs
    rcases List.mem_cons.1 hs with rfl | hs
    · exact .inr ⟨_, rfl, dealt.flow_or_leased⟩
    · exact .inl ⟨s, hs, rfl⟩

/-- A session of the table has the key of one that was there, or one that the packet asks for. -/
theorem HandledIp.asked {sessions : Int} {s : NgSession} (h : HandledIp args ctx sessions pkt calls ctx' acts)
    (hv : ctx.table.Valid) (hs : s ∈ ctx'.sessions) :
    (∃ s₀ ∈ ctx.sessions, s₀.data.key = s.data.key) ∨ ∃ p ports, ReadsPacket pkt p ports ∧
    s.data.key.Asks pkt p ports := by
  have old : ctx.Later ctx' → ∃ s₀ ∈ ctx.sessions, s₀.data.key = s.data.key := fun hlater => by
    obtain ⟨s₀, hs₀, hl⟩ := hlater.mem hs
    exact ⟨s₀, hs₀, hl.key.symm⟩
  have new : ∀ {data : SessionData}, ctx.Added ctx' data → s ∈ ctx.sessions ∨ s.data = data := fun hadded => by
    obtain ⟨socket, ev, hsessions⟩ := hadded.sessions
    rw [hsessions] at hs
    rcases List.mem_cons.1 hs with rfl | hs
    · exact .inr rfl
    · exact .inl hs
  -- a session was there before, or the packet has opened it
  cases h with
  | quiet same _ => exact .inl ⟨s, same ▸ hs, rfl⟩
  | icmp reads protocol _ handled =>
    rcases handled.later_or_added hv with hlater | ⟨-, i, hkey, hadded⟩
    · exact .inl (old hlater)
    · rcases new hadded with hs | hdata
      · exact .inl ⟨s, hs, rfl⟩
      · refine .inr ⟨_, _, reads, ?_⟩
        rw [hdata, hkey]
        exact ⟨protocol, rfl, rfl, rfl⟩
  | udp reads protocol _ _ handled =>
    rcases handled.asked hv hs with hold | ⟨u, hdata, hflow⟩
    · exact .inl hold
    · refine .inr ⟨_, _, reads, ?_⟩
      rw [hdata]
      exact hflow.imp (fun heq => ⟨protocol, heq⟩) fun ⟨heq, request⟩ => ⟨⟨protocol, request⟩, heq⟩
  | tcp reads protocol _ _ _ _ handled =>
    rcases handled.later_or_added hv with hlater | ⟨-, t, hflow, -, hadded⟩
    · exact .inl (old hlater)
    · rcases new hadded with hs | hdata
      · exact .inl ⟨s, hs, rfl⟩
      · refine .inr ⟨_, _, reads, ?_⟩
        rw [hdata]
        exact ⟨protocol, hflow⟩

end Packets

/-- What an event writes replies to its packet, or is written by a session that was there. -/
theorem Engine.step_writes {e e' : Engine} {event : Event} (hf : ∀ s ∈ e.ctx.sessions, s.Fits)
    (h : e.step args event = .ok (e', acts)) (hw : .tunWrite packet ∈ outputsOf acts) :
    (∃ pkt calls p ports, event = .tun pkt calls ∧ ReadsPacket (pkt.take getMtu) p ports ∧
        RepliesTo (pkt.take getMtu) p ports packet) ∨
      ∃ s ∈ e.ctx.sessions, s.data.key.Writes packet := by
  cases event with
  | loop calls =>
    cases h
    rw [outputsOf_map] at hw
    exact .inr (writes_loopTurn hf calls hw)
  -- what is written at once replies to the packet
  | tun pkt calls =>
    simp only [Engine.step] at h
    split at h
    · cases h
      cases hw
    · obtain ⟨⟨ctx', acts'⟩, hip, h⟩ := bind_eq_ok h
      cases h
      obtain ⟨p, ports, reads, replies⟩ := repliesTo_handleIp hf hip hw
      exact .inl ⟨pkt, calls, p, ports, rfl, reads, replies⟩
  -- all else is written by a session, for its own key
  | socket id calls =>
    obtain ⟨⟨ctx', os⟩, hsocket, h⟩ := bind_eq_ok h
    cases h
    rw [outputsOf_map] at hw
    rcases handleSocket_cases hsocket with heq | ⟨s, hs, -, hopen, r, hr, heq⟩
    · cases heq
      cases hw
    · cases heq
      have hstep : s.step args (.socket calls) = .ok (keep r) := by
        simp only [NgSession.step, if_pos hopen, hr]
        rfl
      exact .inr ⟨s, hs, NgSession.writes_step (hf s hs) hstep packet hw⟩
  | checkAllowed =>
    cases h
    rw [outputsOf_map] at hw
    refine .inr (writes_eachSession (fun s hs => ?_) hw)
    have hstep : s.step args .checkAllowed = .ok (checkAllowed args s) := rfl
    exact NgSession.writes_step (hf s hs) hstep
  | clear =>
    cases h
    rw [outputsOf_map] at hw
    refine .inr (writes_eachSession (fun s hs => ?_) hw)
    have hstep : s.step args .clear = .ok (clearSession s) := rfl
    exact NgSession.writes_step (hf s hs) hstep

theorem Engine.step_asked {e e' : Engine} {event : Event} {s : NgSession} (hv : e.ctx.table.Valid)
    (h : e.step args event = .ok (e', acts)) (hs : s ∈ e'.ctx.sessions) :
    (∃ s₀ ∈ e.ctx.sessions, s₀.data.key = s.data.key) ∨
      ∃ pkt calls p ports, event = .tun pkt calls ∧ ReadsPacket (pkt.take getMtu) p ports ∧
        s.data.key.Asks (pkt.take getMtu) p ports := by
  rcases Engine.step_cases hv h with ⟨pkt, calls, rfl, -, handled⟩ | ⟨-, hlater⟩
  · rcases handled.asked hv hs with hold | ⟨p, ports, reads, asks⟩
    · exact .inl hold
    · exact .inr ⟨pkt, calls, p, ports, rfl, reads, asks⟩
  · obtain ⟨s₀, hs₀, hl⟩ := hlater.mem hs
    exact .inl ⟨s₀, hs₀, hl.key.symm⟩

/-! ## Runs -/

/-- A packet that was read from the tun. -/
def WasRead (events : List Event) (pkt : TunPacket) (p : IpPacket) (ports : Ports) : Prop :=
  ∃ read calls, .tun read calls ∈ events ∧ pkt = read.take getMtu ∧ ReadsPacket pkt p ports

/-- Every session was asked for by a packet that was read, and all that is written replies to one. -/
structure Trace.Answers (events : List Event) (t : Trace) : Prop where
  inv : t.SocketInv
  asked : ∀ s ∈ t.engine.ctx.sessions, ∃ pkt p ports, WasRead events pkt p ports ∧ s.data.key.Asks pkt p ports
  written : ∀ packet, .tunWrite packet ∈ t.outputs → ∃ pkt p ports, WasRead events pkt p ports ∧
    RepliesTo pkt p ports packet

theorem WasRead.more {events more : List Event} {pkt : TunPacket} (h : WasRead events pkt p ports) :
    WasRead (events ++ more) pkt p ports := by
  obtain ⟨read, calls, hmem, hpkt, reads⟩ := h
  exact ⟨read, calls, List.mem_append_left _ hmem, hpkt, reads⟩

theorem Trace.answers_init : Trace.init.Answers [] where
  inv := Trace.socketInv_init
  asked := nofun
  written := nofun

theorem Trace.Answers.step {events : List Event} {event : Event} {t t' : Trace} (h : t.Answers events)
    (hs : t.step args event = .ok t') : t'.Answers (events ++ [event]) := by
  have hinv := h.inv.step hs
  obtain ⟨e, acts, he, rfl⟩ := Trace.step_cases hs
  refine ⟨hinv, fun s hmem => ?_, fun packet hw => ?_⟩
  · rcases Engine.step_asked h.inv.valid he hmem with ⟨s₀, hs₀, hkey⟩ | ⟨pkt, calls, p, ports, rfl, reads, asks⟩
    · obtain ⟨pkt, p, ports, hread, asks⟩ := h.asked s₀ hs₀
      exact ⟨pkt, p, ports, hread.more, hkey ▸ asks⟩
    · exact ⟨_, p, ports, ⟨pkt, calls, List.mem_append_right _ List.mem_cons_self, rfl, reads⟩, asks⟩
  · rw [Trace.outputs_cons] at hw
    rcases List.mem_append.1 hw with hw | hw
    · obtain ⟨pkt, p, ports, hread, replies⟩ := h.written packet hw
      exact ⟨pkt, p, ports, hread.more, replies⟩
    · rcases Engine.step_writes h.inv.fits he hw with ⟨pkt, calls, p, ports, rfl, reads, replies⟩ | ⟨s, hs, hwrites⟩
      · exact ⟨_, p, ports, ⟨pkt, calls, List.mem_append_right _ List.mem_cons_self, rfl, reads⟩, replies⟩
      · obtain ⟨pkt, p, ports, hread, asks⟩ := h.asked s hs
        exact ⟨pkt, p, ports, hread.more, asks.replies hwrites⟩

theorem answers_of_run {events : List Event} {t : Trace}
    (h : final (stepOk (Trace.step args)) (.ok .init) events = .ok t) : t.Answers events := by
  induction events using List.reverseRecOn generalizing t with
  | nil =>
    cases h
    exact Trace.answers_init
  | append_singleton events event ih =>
    obtain ⟨t₀, h₀, hstep⟩ := final_append_eq_ok h
    exact (ih h₀).step hstep

/-- Every packet written to the tun in a run replies to a packet read from it before: it comes from where that one
went and goes to where that one came from, with its protocol and ports; or the one read was a DHCP request, and it
goes to the address given to that. -/
theorem written_of_run {args : Arguments} {events : List Event} {t : Trace} {packet : Bytes}
    (h : final (stepOk (Trace.step args)) (.ok .init) events = .ok t) (hw : .tunWrite packet ∈ t.outputs) :
    ∃ pkt calls p ports, .tun pkt calls ∈ events ∧ ReadsPacket (pkt.take getMtu) p ports ∧
        RepliesTo (pkt.take getMtu) p ports packet := by
  obtain ⟨_, p, ports, ⟨pkt, calls, hmem, rfl, reads⟩, replies⟩ := (answers_of_run h).written packet hw
  exact ⟨pkt, calls, p, ports, hmem, reads, replies⟩

/-- The acknowledgment of the SYN that begins `connected`. -/
def connectedSynAck : Bytes :=
  [69, 0, 0, 48, 0, 0, 0, 0, 64, 6, 86, 183, 8, 8, 8, 8, 10, 1, 10, 1, 1, 187, 3, 232, 0, 0, 0, 0, 0, 0, 0, 101, 112,
    18, 255, 255, 120, 131, 0, 0, 2, 4, 232, 38, 3, 3, 0, 0]

theorem written_of_run_connected : ∃ t : Trace,
    final (stepOk (Trace.step (.plain [] _ compiled_redirectAll))) (.ok .init) connected = .ok t ∧
    .tunWrite connectedSynAck ∈ t.outputs ∧
    ∃ pkt calls p ports, .tun pkt calls ∈ connected ∧ ReadsPacket (pkt.take getMtu) p ports ∧
      RepliesTo (pkt.take getMtu) p ports connectedSynAck := by
  have hrun : (final (stepOk (Trace.step (.plain [] _ compiled_redirectAll))) (.ok .init) connected).map (·.outputs) =
      .ok [.tunWrite connectedSynAck] := by decide +kernel
  obtain ⟨t, ht, houtputs⟩ := map_eq_ok hrun
  have hmem : .tunWrite connectedSynAck ∈ t.outputs := by
    rw [houtputs]
    exact List.mem_singleton_self _
  exact ⟨t, ht, hmem, written_of_run ht hmem⟩

end SunProxy.Net
