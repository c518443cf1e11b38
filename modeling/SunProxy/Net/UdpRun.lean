/-
Where UDP datagrams go. The first datagram of a flow goes where the rules say, except one to port 53;
later ones go to their own destination, so that a session keeps its target exactly as long as none of
them is forwarded where the first was redirected.
-/
import SunProxy.Lib.Run
import SunProxy.Net.Steps

namespace SunProxy.Net

open SunProxy.Buffer SunProxy.Kotlin SunProxy.Redirect SunProxy.Result SunProxy.Run SunProxy.Table

variable {args : Arguments} {ctx ctx' : Context} {acts : List Action} {calls : TunCalls} {sessions : Int}
  {pkt : TunPacket}

/-! ## The UDP part of a step -/

/-- A call on the socket of a UDP session. -/
def Action.IsUdp : Action → Prop
  | .openUdp .. => True
  | .sendtoUdp .. => True
  | _ => False

theorem Action.IsOutput.not_isUdp {a : Action} (h : a.IsOutput) : ¬ a.IsUdp := by
  obtain ⟨o, rfl⟩ := h
  exact id

theorem Action.IsSocket.not_isUdp {a : Action} (h : a.IsSocket) : ¬ a.IsUdp := by
  obtain ⟨fd, rfl⟩ := h
  exact id

theorem HandledIcmp.not_isUdp {p : IpPacket} (h : HandledIcmp ctx pkt p calls ctx' acts) :
    ∀ a ∈ acts, ¬ a.IsUdp := by
  cases h with
  | ignored _ _ => simp
  | session _ _ _ => simp [Action.IsUdp]
  | failed _ _ refused _ => exact fun a ha => (openProtected_none refused a ha).not_isUdp
  | opened _ _ _ _ _ _ _ _ => simp [Action.IsUdp]

theorem HandledTcp.not_isUdp {payload : Nat} {flow : Flow} {uid : Int} {allowed : Bool} {redirect : Option Allowed}
    (h : HandledTcp ctx pkt payload flow uid allowed redirect calls ctx' acts) : ∀ a ∈ acts, ¬ a.IsUdp := by
  cases h with
  | ignored _ _ _ => simp
  | unknown _ _ _ _ => simp [Action.IsUdp]
  | session _ _ _ _ =>
    rintro a ha
    obtain ⟨o, -, rfl⟩ := List.mem_map.1 ha
    exact id
  | failed _ _ _ _ refused _ =>
    intro a ha
    rcases mem_openTcpSocket_none refused a ha with h | rfl
    · exact h.not_isUdp
    · exact id
  | opened _ _ _ _ _ _ _ _ outputs _ =>
    intro a ha
    simp only [List.mem_cons] at ha
    rcases ha with rfl | rfl | ha
    · exact id
    · exact id
    · exact (outputs a ha).not_isUdp

/-- A call on a UDP socket is made by `handle_udp`. -/
theorem HandledIp.udp_of_mem (h : HandledIp args ctx sessions pkt calls ctx' acts) {a : Action} (ha : a ∈ acts)
    (hu : a.IsUdp) : ∃ p ports, ∃ v : Verdict, ReadsPacket pkt p ports ∧ p.protocol = IPPROTO_UDP ∧
      v = verdict args ctx p ports noHost (packetUid args ctx p ports noHost calls) ∧
      HandledUdp args ctx (flowOf p ports) v.redirect (udpData pkt p) (pkt.rest (p.payload + 8)) calls ctx' acts := by
  cases h with
  | quiet _ reports => exact absurd hu (reports a ha).isOutput.not_isUdp
  | icmp _ _ _ handled => exact absurd hu (handled.not_isUdp a ha)
  | udp reads protocol _ judged handled => exact ⟨_, _, _, reads, protocol, judged, handled⟩
  | tcp _ _ _ _ _ _ handled =>
    rcases List.mem_append.1 ha with ha | ha
    · exact absurd hu (isReport_reportSni ha).isOutput.not_isUdp
    · exact absurd hu (handled.not_isUdp a ha)

theorem hasUdpSession_of_findUdp {flow : Flow} {r : Nat × UdpSession} (h : ctx.findUdp flow = some r) :
    hasUdpSession args ctx flow = true := by
  simp only [hasUdpSession, h, Option.isSome_some, ite_self]

/-- The datagrams of a session that is there are not redirected. -/
theorem redirect_of_findUdp {p : IpPacket} {ports : Ports} {uid : Int} {r : Nat × UdpSession}
    (protocol : p.protocol = IPPROTO_UDP) (h : ctx.findUdp (flowOf p ports) = some r) :
    verdict args ctx p ports noHost uid = ⟨true, none⟩ := by
  apply verdict_assumed
  simp only [assumedAllowed, protocol, hasUdpSession_of_findUdp h, decide_true, Bool.true_and, Bool.true_or]

/-- A packet that is not dropped for the limit is dispatched. -/
theorem handleIp_dispatch {p : IpPacket} {ports : Ports} {host : HostInfo} (reads : ReadsPacket pkt p ports)
    (room : startsFlow args ctx p ports = true → sessions < args.maxsessions)
    (info : hostInfo args ctx pkt p ports calls = .ok host) :
    handleIp args ctx sessions pkt calls =
      (dispatch args ctx pkt p ports host (packetUid args ctx p ports host calls)
        (verdict args ctx p ports host (packetUid args ctx p ports host calls)) calls).map
          fun r => (r.1, reportSni p host calls ++ r.2) := by
  have hroom : ¬(args.maxsessions ≤ sessions ∧ startsFlow args ctx p ports = true) := fun h =>
    absurd (room h.2) (by omega)
  unfold handleIp
  simp only [reads.packet, reads.ports, bind, Except.bind, handlePacket, if_neg hroom, info, pure, Except.pure]
  cases dispatch args ctx pkt p ports host (packetUid args ctx p ports host calls)
    (verdict args ctx p ports host (packetUid args ctx p ports host calls)) calls <;> rfl

/-- Only a TCP segment has a host name, which is reported. -/
theorem handleIp_noHost {p : IpPacket} {ports : Ports} (reads : ReadsPacket pkt p ports)
    (protocol : p.protocol ≠ IPPROTO_TCP) (room : startsFlow args ctx p ports = true → sessions < args.maxsessions) :
    handleIp args ctx sessions pkt calls =
      dispatch args ctx pkt p ports noHost (packetUid args ctx p ports noHost calls)
        (verdict args ctx p ports noHost (packetUid args ctx p ports noHost calls)) calls := by
  rw [handleIp_dispatch reads room (hostInfo_noHost protocol)]
  cases dispatch args ctx pkt p ports noHost (packetUid args ctx p ports noHost calls)
    (verdict args ctx p ports noHost (packetUid args ctx p ports noHost calls)) calls <;> rfl

/-- A datagram that is not dropped for the limit goes to `handle_udp`. -/
theorem handleIp_udp {p : IpPacket} {ports : Ports} (reads : ReadsPacket pkt p ports)
    (protocol : p.protocol = IPPROTO_UDP) (room : startsFlow args ctx p ports = true → sessions < args.maxsessions) :
    handleIp args ctx sessions pkt calls =
      handleUdp args ctx (flowOf p ports) (packetUid args ctx p ports noHost calls)
        (verdict args ctx p ports noHost (packetUid args ctx p ports noHost calls)).redirect
        (udpData pkt p) (pkt.rest (p.payload + 8)) calls := by
  have hicmp : isIcmp p.protocol = false := by rw [protocol]; rfl
  have htcp : p.protocol ≠ IPPROTO_TCP := by rw [protocol]; decide
  rw [handleIp_noHost reads htcp room, dispatch, if_pos (verdict_allowed ..), hicmp, if_neg Bool.false_ne_true,
    if_pos protocol]

/-- A packet of a flow that is taken for known goes to `handle_udp` without a redirection. -/
theorem handleIp_knownUdp {p : IpPacket} {ports : Ports} (reads : ReadsPacket pkt p ports)
    (protocol : p.protocol = IPPROTO_UDP) (known : hasUdpSession args ctx (flowOf p ports) = true) :
    handleIp args ctx sessions pkt calls =
      handleUdp args ctx (flowOf p ports) (-1) none (udpData pkt p) (pkt.rest (p.payload + 8)) calls := by
  have hicmp : isIcmp p.protocol = false := by rw [protocol]; rfl
  have htcp : p.protocol ≠ IPPROTO_TCP := by rw [protocol]; decide
  have hstarts : startsFlow args ctx p ports = false := by
    simp only [startsFlow, hicmp, known, htcp, Bool.not_true, Bool.and_false, decide_false, Bool.false_and,
      Bool.or_self]
  have huid : packetUid args ctx p ports noHost calls = -1 := by
    simp only [packetUid, hstarts, noHost, Bool.false_eq_true, if_false]
  have hverdict : verdict args ctx p ports noHost (-1) = ⟨true, none⟩ := by
    apply verdict_assumed
    simp only [assumedAllowed, protocol, known, decide_true, Bool.and_self, Bool.true_or]
  have hroom : startsFlow args ctx p ports = true → sessions < args.maxsessions := fun h => by
    rw [hstarts] at h
    cases h
  rw [handleIp_udp reads protocol hroom, huid, hverdict]

/-- A datagram that `handle_udp` forwards for a session that is there, at `id`. -/
structure Forwards (args : Arguments) (ctx : Context) (pkt : TunPacket) (calls : TunCalls) (id : Nat) (flow : Flow) :
    Prop where
  datagram : ∃ p ports, ReadsPacket pkt p ports ∧ p.protocol = IPPROTO_UDP ∧ flowOf p ports = flow ∧
    hostsResponse args calls.malloc flow (udpData pkt p) (pkt.rest (p.payload + 8)) = .ok none ∧
    dhcpCheck flow (udpData pkt p) (pkt.rest (p.payload + 8)) = .ok none ∧
    pkt.rest (p.payload + 8) ≤ (udpData pkt p).length
  session : ∃ u, ctx.findUdp flow = some (id, u) ∧ u.state = .active

/-- Such a datagram is sent to its own destination. -/
theorem Forwards.sends {id : Nat} {flow : Flow} (hf : Forwards args ctx pkt calls id flow) (sessions : Int) :
    ∃ ctx' data, handleIp args ctx sessions pkt calls = .ok (ctx', [.sendtoUdp id data (target flow none)]) := by
  obtain ⟨p, ports, reads, protocol, rfl, hosts, hdhcp, inside⟩ := hf.datagram
  obtain ⟨u, found, state⟩ := hf.session
  obtain ⟨hflow, -⟩ := mem_of_findUdp found
  obtain ⟨u', -, -, -, hforward⟩ := forwardUdp_cases ctx id u none (udpData pkt p) calls state inside
  rw [hflow] at hforward
  refine ⟨ctx.update id (·.withUdp u'), udpData pkt p, ?_⟩
  rw [handleIp_knownUdp reads protocol (hasUdpSession_of_findUdp found), handleUdp]
  simp only [found, state, ne_eq, not_true_eq_false, if_false, handleUdpSession, hflow, hosts, hdhcp, bind, Except.bind,
    pure, Except.pure, hforward]

/-- What is sent of a datagram goes to where it is redirected. -/
theorem Dealt.sendtoUdp_eq {malloc : Nat → UInt8} {flow flow' : Flow} {data data' : Bytes} {datalen id id' : Nat}
    {redirect : Option Allowed} {dst : Endpoint} (h : Dealt args malloc flow data datalen id redirect flow' acts)
    (ha : .sendtoUdp id' data' dst ∈ acts) : id' = id ∧ dst = target flow redirect ∧
      hostsResponse args malloc flow data datalen = .ok none ∧ dhcpCheck flow data datalen = .ok none ∧
      datalen ≤ data.length := by
  cases h with
  | answered | leased => simp at ha
  | dhcp | refused => cases ha
  | forwarded hosts hdhcp inside =>
    simp only [List.mem_singleton, Action.sendtoUdp.injEq] at ha
    exact ⟨ha.1, ha.2.2, hosts, hdhcp, inside⟩

theorem Dealt.not_openUdp {malloc : Nat → UInt8} {flow flow' flow'' : Flow} {data : Bytes} {datalen id id' : Nat}
    {redirect redirect' : Option Allowed} (h : Dealt args malloc flow data datalen id redirect flow' acts) :
    .openUdp id' flow'' redirect' ∉ acts := by
  cases h <;> simp

/-- What is sent goes where the socket was opened for in the same step, or is a datagram of a session
that was there before and goes to its own destination. -/
theorem HandledIp.sendtoUdp_cases (h : HandledIp args ctx sessions pkt calls ctx' acts) {id : Nat} {data : Bytes}
    {dst : Endpoint} (ha : .sendtoUdp id data dst ∈ acts) :
    (∃ flow redirect, .openUdp id flow redirect ∈ acts) ∧
        (∀ flow redirect, .openUdp id flow redirect ∈ acts → dst = target flow redirect) ∨
      ∃ flow, Forwards args ctx pkt calls id flow ∧ dst = target flow none := by
  obtain ⟨p, ports, v, reads, protocol, rfl, handled⟩ := h.udp_of_mem ha trivial
  cases handled with
  | ignored _ _ _ => cases ha
  | session found state dealt _ changed =>
    right
    obtain ⟨rfl, rfl, hosts, hdhcp, inside⟩ := dealt.sendtoUdp_eq ha
    rw [redirect_of_findUdp protocol found]
    exact ⟨_, ⟨⟨p, ports, reads, protocol, rfl, hosts, hdhcp, inside⟩, ⟨_, found, state⟩⟩, rfl⟩
  | failed _ refused _ => exact absurd trivial (openProtected_none (openUdpSocket_none refused) _ ha).not_isUdp
  | opened _ _ dealt _ _ _ added =>
    left
    simp only [List.mem_cons, reduceCtorEq, false_or] at ha
    obtain ⟨rfl, rfl, -⟩ := dealt.sendtoUdp_eq ha
    refine ⟨⟨_, _, List.mem_cons_of_mem _ List.mem_cons_self⟩, fun flow redirect ho => ?_⟩
    simp only [List.mem_cons, reduceCtorEq, Action.openUdp.injEq, dealt.not_openUdp, or_false, false_or] at ho
    rw [ho.2.1, ho.2.2]

/-- A socket is opened for a session that is new. -/
theorem HandledIp.openUdp_cases (h : HandledIp args ctx sessions pkt calls ctx' acts) (hv : ctx.table.Valid) {id : Nat}
    {flow : Flow} {redirect : Option Allowed} (ha : .openUdp id flow redirect ∈ acts) :
    id = ctx.next ∧ ∃ u : UdpSession, (u.flow = flow ∨ u.flow = flow.leased) ∧ ctx.Added ctx' (.udp u) := by
  obtain ⟨p, ports, v, reads, protocol, rfl, handled⟩ := h.udp_of_mem ha trivial
  cases handled with
  | ignored _ _ _ => cases ha
  | session _ _ dealt _ _ => exact absurd ha dealt.not_openUdp
  | failed _ refused _ => exact absurd trivial (openProtected_none (openUdpSocket_none refused) _ ha).not_isUdp
  | opened _ _ dealt _ _ _ added =>
    simp only [List.mem_cons, reduceCtorEq, Action.openUdp.injEq, dealt.not_openUdp, or_false, false_or] at ha
    obtain ⟨rfl, rfl, -⟩ := ha
    exact ⟨rfl, _, dealt.flow, added hv ▸ .insert ..⟩

/-! ## The first datagram of a flow -/

theorem ReadsPacket.unique {p p' : IpPacket} {ports ports' : Ports} (h : ReadsPacket pkt p ports)
    (h' : ReadsPacket pkt p' ports') : p' = p ∧ ports' = ports := by
  obtain rfl : p = p' := Option.some.inj (Except.ok.inj (h.packet.symm.trans h'.packet))
  exact ⟨rfl, Option.some.inj (Except.ok.inj (h'.ports.symm.trans h.ports))⟩

/-- All datagrams of the flow that are sent go to the server that the rules give for it, if it is anywhere. -/
def ToServer (args : Arguments) (flow : Flow) (uid : Int) (acts : List Action) : Prop :=
  ∀ id data dst, .sendtoUdp id data dst ∈ acts →
    ∃ server, ruleServer args IPPROTO_UDP flow [] false uid = .ok server ∧
      ∀ dst', serverTarget flow server = some dst' → dst = dst'

/-- The verdict on a datagram of a flow without a session: port 53 is not asked about. -/
theorem target_firstDatagram {p : IpPacket} {ports : Ports} (protocol : p.protocol = IPPROTO_UDP)
    (new : ctx.findUdp (flowOf p ports) = none) (hfwd : args.fwd53 = false) :
    (ports.dport ≠ 53 → ∃ server, ruleServer args IPPROTO_UDP (flowOf p ports) [] false calls.uid = .ok server ∧
        (target (flowOf p ports)
          (verdict args ctx p ports noHost (packetUid args ctx p ports noHost calls)).redirect).set? =
            serverTarget (flowOf p ports) server) ∧
      (ports.dport = 53 →
        (verdict args ctx p ports noHost (packetUid args ctx p ports noHost calls)).redirect = none) := by
  constructor
  · intro hport
    have hknown : hasUdpSession args ctx (flowOf p ports) = false := by
      have hdest : ¬((flowOf p ports).dest = 53 ∧ args.fwd53 = false) := fun h => hport h.1
      rw [hasUdpSession, if_neg hdest, new]
      rfl
    have hasked : ∀ uid, assumedAllowed args ctx p ports noHost uid = false := fun uid => by
      simp only [assumedAllowed, protocol, hknown, Bool.and_false, Bool.false_or]
      rfl
    have huid : packetUid args ctx p ports noHost calls = calls.uid := by
      simp only [packetUid, startsFlow, protocol, hknown, decide_true, Bool.not_false, Bool.and_self, Bool.true_or,
        Bool.or_true, if_true]
    rw [huid, ← protocol]
    exact target_verdict_noHost (hasked _)
  · intro hport
    rw [verdict_assumed]
    have hknown : hasUdpSession args ctx (flowOf p ports) = true := by
      rw [hasUdpSession, if_pos ⟨hport, hfwd⟩]
    simp only [assumedAllowed, protocol, hknown, decide_true, Bool.and_self, Bool.true_or]

/-- The first datagram of a flow goes where the rules say, or keeps its destination when it is for
port 53. -/
theorem firstDatagram_target {p : IpPacket} {ports : Ports} (reads : ReadsPacket pkt p ports)
    (protocol : p.protocol = IPPROTO_UDP) (new : ctx.findUdp (flowOf p ports) = none) (hfwd : args.fwd53 = false)
    (h : handleIp args ctx sessions pkt calls = .ok (ctx', acts)) :
    (ports.dport ≠ 53 → ToServer args (flowOf p ports) calls.uid acts) ∧
      (ports.dport = 53 → ∀ id data dst, .sendtoUdp id data dst ∈ acts →
        dst = ⟨some (flowOf p ports).daddr, (flowOf p ports).dest⟩) := by
  have sends : ∀ {id data dst}, .sendtoUdp id data dst ∈ acts → dst = target (flowOf p ports)
      (verdict args ctx p ports noHost (packetUid args ctx p ports noHost calls)).redirect := by
    intro id data dst hsent
    obtain ⟨p', ports', v, reads', -, rfl, handled⟩ := (handleIp_cases h).udp_of_mem hsent trivial
    obtain ⟨rfl, rfl⟩ := reads.unique reads'
    cases handled with
    | ignored found _ _ => rw [new] at found; cases found
    | session found _ _ _ _ => rw [new] at found; cases found
    | failed _ refused _ => exact absurd trivial (openProtected_none (openUdpSocket_none refused) _ hsent).not_isUdp
    | opened _ _ dealt _ _ _ _ =>
      simp only [List.mem_cons, reduceCtorEq, false_or] at hsent
      exact (dealt.sendtoUdp_eq hsent).2.1
  constructor
  · intro hport id data dst hsent
    obtain ⟨server, hserver, htarget⟩ := (target_firstDatagram protocol new hfwd).1 hport
    refine ⟨server, hserver, fun dst' hdst => ?_⟩
    rw [← htarget] at hdst
    rw [sends hsent, (set?_eq_some.1 hdst).1]
  · intro hport id data dst hsent
    rw [sends hsent, (target_firstDatagram protocol new hfwd).2 hport]
    rfl

theorem readsPacket_datagramTo_9 : ReadsPacket (datagramTo 9) datagramPacket ⟨1000, 9, false⟩ :=
  ⟨by decide +kernel, by decide +kernel⟩

theorem readsPacket_datagramTo_53 : ReadsPacket (datagramTo 53) datagramPacket ⟨1000, 53, false⟩ :=
  ⟨by decide +kernel, by decide +kernel⟩

theorem handleIp_redirectAll_9 : ∃ ctx', handleIp (.plain [] _ compiled_redirectAll) ⟨[], 0⟩ 0 (datagramTo 9) .working =
    .ok (ctx', [.socket 3, .openUdp 0 ⟨4, [10, 1, 10, 1], 1000, [8, 8, 8, 8], 9⟩ (some ⟨"1.2.3.4".toList, 5⟩),
      .sendtoUdp 0 [7] ⟨some [1, 2, 3, 4], 5⟩]) := ⟨_, rfl⟩

theorem handleIp_redirectAll_53 : ∃ ctx', handleIp (.plain [] _ compiled_redirectAll) ⟨[], 0⟩ 0 (datagramTo 53)
    .working = .ok (ctx', [.socket 3, .openUdp 0 ⟨4, [10, 1, 10, 1], 1000, [8, 8, 8, 8], 53⟩ none,
      .sendtoUdp 0 [7] ⟨some [8, 8, 8, 8], 53⟩]) := ⟨_, rfl⟩

theorem firstDatagram_target_redirectAll :
    ToServer (.plain [] _ compiled_redirectAll) (flowOf datagramPacket ⟨1000, 9, false⟩) 10002 [.socket 3,
      .openUdp 0 ⟨4, [10, 1, 10, 1], 1000, [8, 8, 8, 8], 9⟩ (some ⟨"1.2.3.4".toList, 5⟩),
      .sendtoUdp 0 [7] ⟨some [1, 2, 3, 4], 5⟩] := by
  obtain ⟨ctx', h⟩ := handleIp_redirectAll_9
  exact (firstDatagram_target readsPacket_datagramTo_9 rfl rfl rfl h).1 (by decide)

/-- A rule for everything does not get the datagrams to port 53. -/
theorem not_toServer_dns : ¬ ∀ (args : Arguments) (ctx ctx' : Context) (sessions : Int) (pkt : TunPacket)
    (calls : TunCalls) (p : IpPacket) (ports : Ports) (acts : List Action), ReadsPacket pkt p ports →
    p.protocol = IPPROTO_UDP →
    ctx.findUdp (flowOf p ports) = none → args.fwd53 = false →
    handleIp args ctx sessions pkt calls = .ok (ctx', acts) → ToServer args (flowOf p ports) calls.uid acts := by
  intro h
  obtain ⟨ctx', hip⟩ := handleIp_redirectAll_53
  obtain ⟨server, hserver, hdst⟩ := h _ _ _ _ _ _ _ _ _ readsPacket_datagramTo_53 rfl rfl rfl hip 0 [7]
    ⟨some [8, 8, 8, 8], 53⟩ (by simp)
  have hrule : ruleServer (.plain [] _ compiled_redirectAll) IPPROTO_UDP
      (flowOf datagramPacket ⟨1000, 53, false⟩) [] false 10002 = .ok (some ⟨"1.2.3.4".toList, 5, false⟩) := rfl
  obtain rfl : some ⟨"1.2.3.4".toList, 5, false⟩ = server := Except.ok.inj (hrule.symm.trans hserver)
  have hsame := hdst ⟨some [1, 2, 3, 4], 5⟩ rfl
  revert hsame
  decide

/-! ## Runs -/

/-- `a` was done in the run. -/
def Trace.Did (t : Trace) (a : Action) : Prop := ∃ e ∈ t.past, a ∈ e.2

theorem Trace.step_cases {t t' : Trace} {event : Event} (h : t.step args event = .ok t') :
    ∃ engine acts, t.engine.step args event = .ok (engine, acts) ∧ t' = ⟨engine, (event, acts) :: t.past⟩ := by
  obtain ⟨⟨engine, acts⟩, hs, h⟩ := bind_eq_ok h
  cases h
  exact ⟨engine, acts, hs, rfl⟩

theorem Trace.did_step {t : Trace} {engine : Engine} {event : Event} {a : Action} :
    Trace.Did ⟨engine, (event, acts) :: t.past⟩ a ↔ t.Did a ∨ a ∈ acts := by
  simp only [Trace.Did, List.mem_cons, exists_eq_or_imp]
  exact or_comm

/-- All that a UDP session sent went where it was opened for. -/
def Trace.KeepsTarget (t : Trace) : Prop :=
  ∀ id flow redirect data dst, t.Did (.openUdp id flow redirect) → t.Did (.sendtoUdp id data dst) →
    dst = target flow redirect

/-- The event forwards no datagram for a session that was opened for another target than the
destination of its flow. -/
def Trace.StaysOnTarget (args : Arguments) (t : Trace) (event : Event) : Prop :=
  ∀ pkt calls id flow flow' redirect, event = .tun pkt calls →
    Forwards args t.engine.ctx (pkt.take getMtu) calls id flow → t.Did (.openUdp id flow' redirect) →
      target flow' redirect = target flow' none

theorem target_of_lasting {flow flow' : Flow} (h : (Key.udp flow).lasting = (Key.udp flow').lasting) :
    target flow none = target flow' none := by
  simp only [Key.lasting, Key.udp.injEq, Flow.mk.injEq] at h
  simp only [target, h.2.2.2.1, h.2.2.2.2]

/-- Sockets are opened for sessions at addresses given once, and used for these sessions only. -/
structure Trace.UdpInv (t : Trace) : Prop where
  valid : t.engine.ctx.table.Valid
  opened : Recorded (fun k (o : Flow × Option Allowed) => k = (Key.udp o.1).lasting) t.engine.ctx.table
    fun id o => t.Did (.openUdp id o.1 o.2)
  sent : ∀ {id data dst}, t.Did (.sendtoUdp id data dst) → id < t.engine.ctx.next

theorem Trace.udpInv_init : Trace.init.UdpInv where
  valid := ⟨.nil, nofun⟩
  opened := ⟨by simp [Trace.Did, Trace.init], by simp [Trace.Did, Trace.init]⟩
  sent := by simp [Trace.Did, Trace.init]

theorem Trace.UdpInv.step {t t' : Trace} {event : Event} (h : t.UdpInv) (hs : t.step args event = .ok t') :
    t'.UdpInv := by
  obtain ⟨e, acts, he, rfl⟩ := Trace.step_cases hs
  have hadvance := Engine.step_advance h.valid he
  rcases Engine.step_cases h.valid he with ⟨pkt, calls, rfl, -, handled⟩ | ⟨outputs, -⟩
  · refine ⟨hadvance.valid h.valid, h.opened.advance h.valid hadvance (fun ho => ?_) (fun hk ho => ?_), fun hsent => ?_⟩
    · rcases Trace.did_step.1 ho with ho | ho
      · exact .inl ho
      · obtain ⟨rfl, u, -, added⟩ := handled.openUdp_cases h.valid ho
        exact .inr ⟨rfl, by rw [Context.table, Context.table, added.next]; exact Nat.lt_succ_self _⟩
    · rcases Trace.did_step.1 ho with ho | ho
      · exact absurd (h.opened.old ho) (Nat.lt_irrefl _)
      · obtain ⟨-, u, hflow, added⟩ := handled.openUdp_cases h.valid ho
        obtain ⟨socket, ev, hsessions⟩ := added.sessions
        simp only [Context.table, hsessions, List.map_cons, List.mem_cons] at hk
        rcases hk with hk | hk
        · rw [(Prod.mk.inj hk).2]
          rcases hflow with hflow | hflow
          · rw [SessionData.key, hflow]
          · rw [SessionData.key, hflow, lasting_leased]
        · exact absurd (h.valid.fresh _ hk) (Nat.lt_irrefl _)
    · rcases Trace.did_step.1 hsent with hsent | hsent
      · exact Nat.lt_of_lt_of_le (h.sent hsent) hadvance.le
      · rcases handled.sendtoUdp_cases hsent with ⟨⟨flow, redirect, ho⟩, -⟩ | ⟨flow, forwards, -⟩
        · obtain ⟨rfl, u, -, added⟩ := handled.openUdp_cases h.valid ho
          show _ < e.ctx.next
          rw [added.next]
          exact Nat.lt_succ_self _
        · obtain ⟨u, found, -⟩ := forwards.session
          obtain ⟨-, s, hs, rfl, -⟩ := mem_of_findUdp found
          exact Nat.lt_of_lt_of_le (h.valid.fresh s.entry (List.mem_map_of_mem hs)) hadvance.le
  -- no other event opens a UDP session or sends on one
  · have quiet : ∀ {a : Action}, a.IsUdp → Trace.Did ⟨e, (event, acts) :: t.past⟩ a → t.Did a := fun hu hd => by
      rcases Trace.did_step.1 hd with hd | hd
      · exact hd
      · exact absurd hu (outputs _ hd).not_isUdp
    refine ⟨hadvance.valid h.valid, h.opened.advance h.valid hadvance (fun ho => .inl (quiet trivial ho))
      (fun hk ho => ?_), fun hsent => ?_⟩
    · exact absurd (h.opened.old (quiet trivial ho)) (Nat.lt_irrefl _)
    · exact Nat.lt_of_lt_of_le (h.sent (quiet trivial hsent)) hadvance.le

/-- A datagram that is forwarded has the destination that its session was opened with. -/
theorem Trace.UdpInv.target_of_forwards {t : Trace} (h : t.UdpInv) {id : Nat} {flow flow' : Flow}
    {redirect : Option Allowed} (forwards : Forwards args t.engine.ctx pkt calls id flow)
    (ho : t.Did (.openUdp id flow' redirect)) : target flow none = target flow' none := by
  obtain ⟨u, found, -⟩ := forwards.session
  obtain ⟨rfl, s, hs, rfl, hdata⟩ := mem_of_findUdp found
  have hkey := h.opened.agree (o := (flow', redirect)) (List.mem_map_of_mem hs : s.entry ∈ _) ho
  rw [hdata] at hkey
  exact target_of_lasting hkey

/-- A session keeps its target through an event exactly when the event keeps to the target. -/
theorem Trace.keepsTarget_step_iff {t : Trace} (h : t.UdpInv) (hk : t.KeepsTarget) (event : Event) :
    OnOk KeepsTarget (t.step args event) ↔ t.StaysOnTarget args event := by
  constructor
  · rintro hok pkt calls id flow flow' redirect rfl forwards ho
    obtain ⟨ctx', data, hip⟩ := forwards.sends t.engine.sessions
    have hne : pkt.length ≠ 0 := by
      obtain ⟨p, ports, reads, -⟩ := forwards.datagram
      exact (lt_of_lt_of_le reads.length_pos (min_le_right ..)).ne'
    have hstep : t.step args (.tun pkt calls) = .ok ⟨⟨ctx', t.engine.sessions⟩,
        (.tun pkt calls, [.sendtoUdp id data (target flow none)]) :: t.past⟩ := by
      simp only [Trace.step, Engine.step, if_neg hne, hip, bind, Except.bind, pure, Except.pure]
    rw [← h.target_of_forwards forwards ho]
    exact (hok _ hstep id flow' redirect data (target flow none) (Trace.did_step.2 (.inl ho))
      (Trace.did_step.2 (.inr List.mem_cons_self))).symm
  · rintro hstays t' hs id flow redirect data dst ho hsent
    obtain ⟨e, acts, he, rfl⟩ := Trace.step_cases hs
    rw [Trace.did_step] at ho hsent
    rcases Engine.step_cases h.valid he with ⟨pkt, calls, rfl, -, handled⟩ | ⟨outputs, -⟩
    · rcases hsent with hsent | hsent
      · rcases ho with ho | ho
        · exact hk id flow redirect data dst ho hsent
        · obtain ⟨rfl, -⟩ := handled.openUdp_cases h.valid ho
          exact absurd (h.sent hsent) (Nat.lt_irrefl _)
      · rcases handled.sendtoUdp_cases hsent with ⟨⟨flow', redirect', ho'⟩, hall⟩ | ⟨flow', forwards, rfl⟩
        · rcases ho with ho | ho
          · obtain ⟨rfl, -⟩ := handled.openUdp_cases h.valid ho'
            exact absurd (h.opened.old (o := (flow, redirect)) ho) (Nat.lt_irrefl _)
          · exact hall flow redirect ho
        · rcases ho with ho | ho
          · rw [h.target_of_forwards forwards ho]
            exact (hstays pkt calls id flow' flow redirect rfl forwards ho).symm
          -- the socket of a session that is there was not opened just now
          · obtain ⟨hid, -⟩ := handled.openUdp_cases h.valid ho
            obtain ⟨u, found, -⟩ := forwards.session
            obtain ⟨-, s, hs', rfl, -⟩ := mem_of_findUdp found
            have hfresh := h.valid.fresh s.entry (List.mem_map_of_mem hs')
            exact absurd hfresh (Nat.not_lt.2 (Nat.le_of_eq hid.symm))
    · have quiet : ∀ {a : Action}, a.IsUdp → t.Did a ∨ a ∈ acts → t.Did a := fun hu hd => by
        rcases hd with hd | hd
        · exact hd
        · exact absurd hu (outputs _ hd).not_isUdp
      exact hk id flow redirect data dst (quiet trivial ho) (quiet trivial hsent)

/-- Every session of a run sends to one target, exactly when every event keeps to the target. -/
theorem keepsTarget_runStates_iff (args : Arguments) (events : List Event) :
    (∀ r ∈ runStates args events, OnOk Trace.KeepsTarget r) ↔
      EveryStep (stepOk (Trace.step args)) (fun r event => OnOk (fun t => t.StaysOnTarget args event) r) (.ok .init)
        events :=
  onOk_states_iff Trace.UdpInv Trace.KeepsTarget (fun _ _ _ h hs => h.step hs)
    (fun _ event h hk => Trace.keepsTarget_step_iff h hk event) Trace.udpInv_init
    (by simp [Trace.KeepsTarget, Trace.Did, Trace.init]) events

/-- Sent twice under a rule that redirects everything, it goes to two places. -/
theorem not_keepsTarget_twice : ¬ ∀ (args : Arguments) (events : List Event), ∀ r ∈ runStates args events,
    OnOk Trace.KeepsTarget r := by
  intro h
  obtain ⟨engine, hrun⟩ : ∃ engine, Run.final (stepOk (Trace.step (.plain [] _ compiled_redirectAll))) (.ok .init)
      [.tun (datagramTo 9) .working, .tun (datagramTo 9) .working] = .ok ⟨engine, [
        (.tun (datagramTo 9) .working, [.sendtoUdp 0 [7] ⟨some [8, 8, 8, 8], 9⟩]),
        (.tun (datagramTo 9) .working, [.socket 3, .openUdp 0 ⟨4, [10, 1, 10, 1], 1000, [8, 8, 8, 8], 9⟩
          (some ⟨"1.2.3.4".toList, 5⟩), .sendtoUdp 0 [7] ⟨some [1, 2, 3, 4], 5⟩])]⟩ := ⟨_, rfl⟩
  have hkeeps := h _ _ _ (final_mem_states _ _) _ hrun
  have hsame := hkeeps 0 ⟨4, [10, 1, 10, 1], 1000, [8, 8, 8, 8], 9⟩ (some ⟨"1.2.3.4".toList, 5⟩) [7]
    ⟨some [8, 8, 8, 8], 9⟩
    (by simp [Trace.Did]) (by simp [Trace.Did])
  revert hsame
  decide

end SunProxy.Net
