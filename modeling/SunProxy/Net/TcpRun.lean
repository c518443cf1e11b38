/-
Where TCP connections go. The socket of a flow is opened at its SYN, when nothing is known of the host;
a server name that comes later finds the session there and connects nothing. So a session goes where its
name would send it exactly when the rules send it there without a name.
-/
import SunProxy.Net.SessionRun
import SunProxy.Net.UdpRun

namespace SunProxy.Net

open SunProxy.Buffer SunProxy.Kotlin SunProxy.Redirect SunProxy.Result SunProxy.Run SunProxy.Table

variable {args : Arguments} {ctx ctx' : Context} {acts : List Action} {calls : TunCalls} {sessions : Int}
  {pkt : TunPacket}

/-! ## Packets without data -/

/-- A SYN to a flow that carries no data. -/
structure BareSyn (pkt : TunPacket) (p : IpPacket) (ports : Ports) : Prop where
  reads : ReadsPacket pkt p ports
  protocol : p.protocol = IPPROTO_TCP
  segment : ∃ h, ReadsSegment pkt p.payload h [] ∧ h.syn = true

/-- The server for a flow when its SYN comes: DNS over TCP of the system is not asked about. -/
def synServer (args : Arguments) (flow : Flow) (uid : Int) : Except JavaException (Option Server) :=
  if uid = 0 ∧ flow.dest = 53 then .ok none else ruleServer args IPPROTO_TCP flow [] false uid

/-- A segment without data says nothing of the host. -/
theorem hostInfo_noData {p : IpPacket} {ports : Ports} {h : TcpHeader} (protocol : p.protocol = IPPROTO_TCP)
    (segment : ReadsSegment pkt p.payload h []) : hostInfo args ctx pkt p ports calls = .ok noHost := by
  obtain ⟨seq, -, header⟩ := bind_eq_ok segment.header
  obtain ⟨ackSeq, -, header⟩ := bind_eq_ok header
  obtain ⟨doff, hdoff, header⟩ := bind_eq_ok header
  obtain ⟨flags, -, header⟩ := bind_eq_ok header
  obtain ⟨window, -, header⟩ := bind_eq_ok header
  cases header
  have hlen : tcpDatalen pkt (tcpData p.payload (doff.toNat / 16)) = 0 := by
    have hlength := congrArg List.length segment.data
    rw [length_segmentData] at hlength
    exact hlength.symm
  have hrange : tcpRange pkt p = .ok (tcpData p.payload (doff.toNat / 16), 0) := by
    simp only [tcpRange, hdoff, bind, Except.bind, pure, Except.pure, hlen]
  have hsni : sniInfo pkt p = .ok noHost := by
    have hnone : getSni pkt.buffer (tcpData p.payload (doff.toNat / 16)) 0 = .ok none := rfl
    simp only [sniInfo, if_pos protocol, hrange, hnone, bind, Except.bind, pure, Except.pure]
    rfl
  have hhttp : httpHost pkt.buffer (tcpData p.payload (doff.toNat / 16)) 0 = .ok [] := by
    rw [httpHost, if_pos (.inl (Nat.zero_le _)), List.take_zero]
    rfl
  simp only [hostInfo, hsni, hrange, hhttp, bind, Except.bind, pure, Except.pure]
  split <;> rfl

/-- The rules are asked about a SYN without data as about a flow without a host, in plain text. -/
theorem target_bareSyn (args : Arguments) (ctx : Context) (calls : TunCalls) {p : IpPacket} {ports : Ports}
    (h : BareSyn pkt p ports) :
    hostInfo args ctx pkt p ports calls = .ok noHost ∧ packetUid args ctx p ports noHost calls = calls.uid ∧
      ∃ server, synServer args (flowOf p ports) calls.uid = .ok server ∧
        (target (flowOf p ports) (verdict args ctx p ports noHost calls.uid).redirect).set? =
          serverTarget (flowOf p ports) server := by
  obtain ⟨reads, protocol, header, segment, hsyn⟩ := h
  have hports : ports.syn = true := (syn_of_readPorts protocol reads.ports segment.header).trans hsyn
  have hudp : p.protocol ≠ IPPROTO_UDP := by rw [protocol]; decide
  have hstarts : startsFlow args ctx p ports = true := by simp [startsFlow, protocol, hports]
  refine ⟨hostInfo_noData protocol segment, by rw [packetUid, if_pos hstarts], ?_⟩
  by_cases hdns : calls.uid = 0 ∧ ports.dport = 53
  · have hassumed : assumedAllowed args ctx p ports noHost calls.uid = true := by
      simp [assumedAllowed, protocol, hdns.1, hdns.2, noHost]
    refine ⟨none, if_pos hdns, ?_⟩
    rw [verdict_assumed hassumed]
    rfl
  · have hasked : assumedAllowed args ctx p ports noHost calls.uid = false := by
      simp [assumedAllowed, hudp, hports, hdns]
    have hserver : synServer args (flowOf p ports) calls.uid =
        ruleServer args p.protocol (flowOf p ports) [] false calls.uid := by
      rw [protocol]
      exact if_neg hdns
    rw [hserver]
    exact target_verdict_noHost hasked

/-! ## The TCP part of a step -/

/-- `open_tcp_socket` called `connect`. -/
def Action.IsConnect : Action → Prop
  | .connect .. => True
  | _ => False

theorem Action.IsOutput.not_isConnect {a : Action} (h : a.IsOutput) : ¬a.IsConnect := by
  obtain ⟨o, rfl⟩ := h
  exact id

theorem Action.IsSocket.not_isConnect {a : Action} (h : a.IsSocket) : ¬a.IsConnect := by
  obtain ⟨fd, rfl⟩ := h
  exact id

theorem HandledIcmp.not_isConnect {p : IpPacket} (h : HandledIcmp ctx pkt p calls ctx' acts) :
    ∀ a ∈ acts, ¬a.IsConnect := by
  cases h with
  | ignored _ _ => simp
  | session _ _ _ => simp [Action.IsConnect]
  | failed _ _ refused _ => exact fun a ha => (openProtected_none refused a ha).not_isConnect
  | opened _ _ _ _ _ _ _ _ => simp [Action.IsConnect]

theorem Dealt.not_isConnect {malloc : Nat → UInt8} {flow flow' : Flow} {data : Bytes} {datalen id : Nat}
    {redirect : Option Allowed} (h : Dealt args malloc flow data datalen id redirect flow' acts) :
    ∀ a ∈ acts, ¬a.IsConnect := by
  cases h <;> simp [Action.IsConnect]

theorem HandledUdp.not_isConnect {flow : Flow} {redirect : Option Allowed} {data : Bytes} {datalen : Nat}
    (h : HandledUdp args ctx flow redirect data datalen calls ctx' acts) : ∀ a ∈ acts, ¬a.IsConnect := by
  cases h with
  | ignored _ _ _ => simp
  | session _ _ dealt _ _ => exact dealt.not_isConnect
  | failed _ refused _ => exact fun a ha => (openProtected_none (openUdpSocket_none refused) a ha).not_isConnect
  | opened _ _ dealt _ _ _ _ =>
    rintro a (_ | ⟨_, _ | ⟨_, ha⟩⟩)
    · exact id
    · exact id
    · exact dealt.not_isConnect a ha

/-- A connection is made by `handle_tcp`. -/
theorem HandledIp.tcp_of_mem (h : HandledIp args ctx sessions pkt calls ctx' acts) {a : Action} (ha : a ∈ acts)
    (hc : a.IsConnect) : ∃ p ports host acts', ReadsPacket pkt p ports ∧ p.protocol = IPPROTO_TCP ∧
      hostInfo args ctx pkt p ports calls = .ok host ∧ a ∈ acts' ∧
      HandledTcp ctx pkt p.payload (flowOf p ports) (packetUid args ctx p ports host calls) true
        (verdict args ctx p ports host (packetUid args ctx p ports host calls)).redirect calls ctx' acts' := by
  cases h with
  | quiet _ reports => exact absurd hc (reports a ha).isOutput.not_isConnect
  | icmp _ _ _ handled => exact absurd hc (handled.not_isConnect a ha)
  | udp _ _ _ _ handled => exact absurd hc (handled.not_isConnect a ha)
  | tcp reads protocol _ info of_uid judged handled =>
    subst of_uid judged
    rcases List.mem_append.1 ha with ha | ha
    · exact absurd hc (isReport_reportSni ha).isOutput.not_isConnect
    · exact ⟨_, _, _, _, reads, protocol, info, ha, handled⟩

/-- A connection is made for a flow without a session, at the next address: to where the verdict on its
SYN redirects it. What is at this address afterwards is the session of the flow. -/
theorem HandledTcp.connect_cases {payload : Nat} {flow : Flow} {uid : Int} {allowed : Bool} {redirect : Option Allowed}
    (h : HandledTcp ctx pkt payload flow uid allowed redirect calls ctx' acts) {id : Nat} {dst : Endpoint}
    (ha : .connect id dst ∈ acts) : id = ctx.next ∧ dst = target flow redirect ∧ ctx.findTcp flow = none ∧
      ctx.table.next < ctx'.table.next ∧ ∀ k, (ctx.next, k) ∈ ctx'.table.entries →
        (ctx.next, k) ∈ ctx.table.entries ∨ k = .tcp flow uid := by
  cases h with
  | ignored _ _ _ => cases ha
  | unknown _ _ _ _ => simp at ha
  | session _ _ _ _ => simp at ha
  | failed found _ _ _ refused same =>
    subst same
    rcases mem_openTcpSocket_none refused _ ha with ⟨fd, hfd⟩ | heq
    · cases hfd
    · cases heq
      exact ⟨rfl, rfl, found, Nat.lt_succ_self _, fun k hk => .inl hk⟩
  | opened found _ _ _ _ later _ _ outputs added =>
    subst added
    simp only [List.mem_cons, reduceCtorEq, Action.connect.injEq, false_or] at ha
    rcases ha with ⟨rfl, rfl⟩ | ha
    · refine ⟨rfl, rfl, found, Nat.lt_succ_self _, fun k hk => ?_⟩
      rcases List.mem_cons.1 hk with heq | hk
      · rw [(Prod.mk.inj heq).2, SessionData.key, later.flow, later.uid]
        exact .inr rfl
      · exact .inl hk
    · obtain ⟨o, ho⟩ := outputs _ ha
      cases ho

/-! ## Runs -/

/-- A SYN without data has connected the session at `id` to `dst`. -/
def Trace.ConnectedBare (t : Trace) (id : Nat) (dst : Endpoint) : Prop :=
  ∃ pkt calls acts p ports, (Event.tun pkt calls, acts) ∈ t.past ∧ BareSyn (pkt.take getMtu) p ports ∧
    .connect id dst ∈ acts

/-- `dst` is where the flow of the session is sent when nothing is known of its host. -/
def SentBare (args : Arguments) (k : Key) (dst : Endpoint) : Prop :=
  ∃ flow uid server, k = .tcp flow uid ∧ synServer args flow uid = .ok server ∧ dst.set? = serverTarget flow server

/-- Connections are made for sessions at addresses given once, and say where these sessions go. -/
structure Trace.TcpInv (args : Arguments) (t : Trace) : Prop where
  valid : t.engine.ctx.table.Valid
  connected : Recorded (SentBare args) t.engine.ctx.table t.ConnectedBare

theorem Trace.tcpInv_init (args : Arguments) : Trace.init.TcpInv args where
  valid := ⟨.nil, by simp [Context.table, Trace.init]⟩
  connected := ⟨by simp [Trace.ConnectedBare, Trace.init], by simp [Trace.ConnectedBare, Trace.init]⟩

/-- A connection made for a SYN without data. -/
theorem HandledIp.connectBare_cases (h : HandledIp args ctx sessions pkt calls ctx' acts) (hv : ctx.table.Valid)
    {p : IpPacket} {ports : Ports} (bare : BareSyn pkt p ports) {id : Nat} {dst : Endpoint}
    (ha : .connect id dst ∈ acts) :
    id = ctx.table.next ∧ ctx.table.next < ctx'.table.next ∧
      ∀ k, (ctx.table.next, k) ∈ ctx'.table.entries → SentBare args k dst := by
  obtain ⟨p', ports', host, acts', reads, -, info, ha, handled⟩ := h.tcp_of_mem ha trivial
  obtain ⟨rfl, rfl⟩ := bare.reads.unique reads
  obtain ⟨hinfo, huid, server, hserver, htarget⟩ := target_bareSyn args ctx calls bare
  cases hinfo.symm.trans info
  rw [huid] at handled
  obtain ⟨rfl, rfl, -, hnext, hnew⟩ := handled.connect_cases ha
  refine ⟨rfl, hnext, fun k hk => ?_⟩
  rcases hnew k hk with hold | rfl
  · exact absurd (hv.fresh _ hold) (Nat.lt_irrefl _)
  · exact ⟨_, _, server, rfl, hserver, htarget⟩

theorem Trace.TcpInv.step {t t' : Trace} {event : Event} (h : t.TcpInv args) (hs : t.step args event = .ok t') :
    t'.TcpInv args := by
  obtain ⟨e, acts, he, rfl⟩ := Trace.step_cases hs
  have hadvance := Engine.step_advance h.valid he
  refine ⟨hadvance.valid h.valid, h.connected.advance h.valid hadvance ?_ ?_⟩
  · rintro id dst ⟨pkt, calls, acts', p, ports, hmem, bare, ha⟩
    rcases List.mem_cons.1 hmem with heq | hmem
    · cases heq
      rcases Engine.step_cases h.valid he with ⟨pkt', calls', hevent, -, handled⟩ | ⟨outputs, -⟩
      · cases hevent
        obtain ⟨hid, hnext, -⟩ := handled.connectBare_cases h.valid bare ha
        exact .inr ⟨hid, hnext⟩
      · exact absurd trivial (outputs _ ha).not_isConnect
    · exact .inl ⟨pkt, calls, acts', p, ports, hmem, bare, ha⟩
  · rintro k dst hk ⟨pkt, calls, acts', p, ports, hmem, bare, ha⟩
    rcases List.mem_cons.1 hmem with heq | hmem
    · cases heq
      rcases Engine.step_cases h.valid he with ⟨pkt', calls', hevent, -, handled⟩ | ⟨outputs, -⟩
      · cases hevent
        obtain ⟨-, -, hsent⟩ := handled.connectBare_cases h.valid bare ha
        exact hsent k hk
      · exact absurd trivial (outputs _ ha).not_isConnect
    · exact absurd (h.connected.old ⟨pkt, calls, acts', p, ports, hmem, bare, ha⟩) (Nat.lt_irrefl _)

/-- `get_sni` finds `name` in the packet, and the flow of the packet has the session `s`. -/
structure BringsName (ctx : Context) (pkt : TunPacket) (s : NgSession) (u : TcpSession) (name : Bytes) : Prop where
  packet : ∃ p ports host, ReadsPacket pkt p ports ∧ p.protocol = IPPROTO_TCP ∧ sniInfo pkt p = .ok host ∧
    host.tls = true ∧ host.serverName = name ∧ ctx.findTcp (flowOf p ports) = some (s, u)

/-- The rules send the flow to `dst` when its host and TLS are known; a server whose address cannot be read is
nowhere. -/
def SentByName (args : Arguments) (flow : Flow) (uid : Int) (hostname : Str) (dst : Endpoint) : Prop :=
  ∃ server, evalFlow args IPPROTO_TCP flow hostname true uid = .ok server ∧ serverTarget flow server = some dst

/-- The rules send the flow with its host to where they send it without. -/
def SameServer (args : Arguments) (flow : Flow) (uid : Int) (hostname : Str) : Prop :=
  ∃ server dst, synServer args flow uid = .ok server ∧ serverTarget flow server = some dst ∧
    SentByName args flow uid hostname dst

/-- A SYN without data has connected the session `s` to `dst`, and a packet of its flow with the server
name `name` is next. -/
structure Named (args : Arguments) (t t' : Trace) (s : NgSession) (u : TcpSession) (name : Bytes)
    (dst : Endpoint) : Prop where
  packet : ∃ pkt calls, t.step args (.tun pkt calls) = .ok t' ∧ BringsName t.engine.ctx (pkt.take getMtu) s u name
  connected : t'.ConnectedBare s.id dst

/-- The packet with the name connects nothing. -/
theorem BringsName.not_connect {s : NgSession} {u : TcpSession} {name : Bytes} (h : BringsName ctx pkt s u name)
    (handled : HandledIp args ctx sessions pkt calls ctx' acts) (id : Nat) (dst : Endpoint) :
    .connect id dst ∉ acts := by
  intro ha
  obtain ⟨p, ports, host, reads, -, -, -, -, hfind⟩ := h.packet
  obtain ⟨p', ports', _, acts', reads', -, -, ha, htcp⟩ := handled.tcp_of_mem ha trivial
  obtain ⟨rfl, rfl⟩ := reads.unique reads'
  obtain ⟨-, -, hnone, -⟩ := htcp.connect_cases ha
  rw [hnone] at hfind
  cases hfind

/-- In every run, when a server name comes for a session that a SYN without data has connected: nothing
is connected then, and the session goes where the rules send it by this name exactly when they send it
there without one. -/
theorem sentByName_runStates_iff (args : Arguments) (events : List Event) : ∀ r ∈ runStates args events,
    OnOk (fun t => ∀ t' s u name dst, Named args t t' s u name dst →
      (∀ id dst', t'.Did (.connect id dst') → t.Did (.connect id dst')) ∧
        (SentByName args u.flow u.uid (args.newStringUTF name) dst ↔
          SameServer args u.flow u.uid (args.newStringUTF name))) r := by
  have hinv : ∀ r ∈ runStates args events, OnOk (fun t => t.TcpInv args) r :=
    onOk_states_of_inv (fun t event t' h hs => h.step hs) (Trace.tcpInv_init args) events
  rintro r hr t ht t' s u name dst ⟨⟨pkt, calls, hstep, brings⟩, hconnected⟩
  have h := hinv r hr t ht
  obtain ⟨e, acts, he, rfl⟩ := Trace.step_cases hstep
  -- the packet with the name connects nothing
  have hnone : ∀ id dst', .connect id dst' ∉ acts := by
    intro id dst' ha
    rcases Engine.step_cases h.valid he with ⟨pkt', calls', hevent, -, handled⟩ | ⟨outputs, -⟩
    · cases hevent
      exact brings.not_connect handled id dst' ha
    · exact (outputs _ ha).not_isConnect trivial
  refine ⟨fun id dst' hdid => (Trace.did_step.1 hdid).resolve_right (hnone id dst'), ?_⟩
  -- so the session was connected before, and by a SYN that the rules were asked about
  have hbefore : t.ConnectedBare s.id dst := by
    obtain ⟨pkt', calls', acts', p, ports, hmem, bare, ha⟩ := hconnected
    rcases List.mem_cons.1 hmem with heq | hmem
    · cases heq
      exact absurd ha (hnone _ _)
    · exact ⟨pkt', calls', acts', p, ports, hmem, bare, ha⟩
  obtain ⟨p, ports, host, -, -, -, -, -, hfind⟩ := brings.packet
  obtain ⟨-, hs, hdata⟩ := mem_of_findTcp hfind
  have hentry : s.entry ∈ t.engine.ctx.table.entries := List.mem_map_of_mem hs
  obtain ⟨flow, uid, server, hkey, hserver, hset⟩ := h.connected.agree hentry hbefore
  rw [hdata] at hkey
  obtain ⟨rfl, rfl⟩ := Key.tcp.inj hkey
  constructor
  · rintro ⟨named, hnamed, hdst⟩
    have hsame : serverTarget u.flow server = some dst := by
      rw [← hset]
      exact set?_eq_some.2 ⟨rfl, isSome_of_serverTarget hdst⟩
    exact ⟨server, dst, hserver, hsame, named, hnamed, hdst⟩
  · rintro ⟨server', dst', hserver', hdst', hsent⟩
    cases hserver.symm.trans hserver'
    obtain ⟨rfl, -⟩ := set?_eq_some.1 (hset.trans hdst')
    exact hsent

/-! ## A client hello -/

/-- A client hello with the server name `a`. -/
def clientHello : Bytes :=
  [22, 3, 1, 0, 61, 1, 0, 0, 57, 3, 3] ++ List.replicate 32 0 ++ [0, 0, 2, 0x13, 1, 1, 0, 0, 14] ++
    [0, 0, 0, 6, 0, 4, 0, 0, 1, 97, 0, 23, 0, 0]

/-- The SYN of a flow, the connection of its socket and the acknowledgment of the client; then its hello. -/
def connected : List Event :=
  [.tun (segment 100 0 0x02 []) .working, .socket 0 (.taking 0), .tun (segment 101 1 0x10 []) .working]

def hello : Event := .tun (segment 101 1 0x18 clientHello) .working

theorem bareSyn_segment :
    BareSyn (.take (segment 100 0 0x02 []) getMtu) ⟨4, 6, [10, 1, 10, 1], [8, 8, 8, 8], 20⟩ ⟨1000, 443, true⟩ where
  reads := ⟨by decide +kernel, by decide +kernel⟩
  protocol := rfl
  segment := ⟨plainHeader 100 0 false true false, ⟨by decide +kernel, by decide +kernel⟩, rfl⟩

/-- What was done for the SYN, the session of the flow, and whether the hello is taken. -/
structure HelloFacts where
  syn : Option (List Action)
  session : Option (Nat × Flow × Int)
  taken : Bool
deriving DecidableEq

def helloFacts (args : Arguments) (r : Engine × List (List Action)) : HelloFacts where
  syn := r.2.head?
  session := (r.1.ctx.findTcp segmentFlow).map fun q => (q.1.id, q.2.flow, q.2.uid)
  taken := (r.1.step args hello).toOption.isSome

theorem named_of_run {args : Arguments} {dst : Endpoint}
    (h : (Trace.init.engine.run args connected).map (helloFacts args) =
    .ok ⟨some [.socket 3, .connect 0 dst], some (0, segmentFlow, 10002), true⟩) :
    ∃ t t' s u, .ok t ∈ runStates args connected ∧ Named args t t' s u [97] dst ∧ u.flow = segmentFlow ∧
    u.uid = 10002 := by
  obtain ⟨⟨e, acts⟩, hrun, hfacts⟩ := map_eq_ok h
  simp only [helloFacts, HelloFacts.mk.injEq] at hfacts
  obtain ⟨hhead, hfind, hstep⟩ := hfacts
  obtain ⟨⟨s, u⟩, hfind, hsession⟩ := Option.map_eq_some_iff.1 hfind
  simp only [Prod.mk.injEq] at hsession
  obtain ⟨hid, hflow, huid⟩ := hsession
  obtain ⟨rest, rfl⟩ := List.head?_eq_some_iff.1 hhead
  have hfinal := final_of_run hrun []
  obtain ⟨⟨e', acts'⟩, hnext⟩ := Option.isSome_iff_exists.1 hstep
  have hnext : e.step args hello = .ok (e', acts') := by
    cases hs : e.step args hello with
    | ok r =>
      rw [hs] at hnext
      cases hnext
      rfl
    | error f => rw [hs] at hnext; cases hnext
  have hstep' : Trace.step args ⟨e, (connected.zip ([.socket 3, .connect 0 dst] :: rest)).reverse ++ []⟩ hello =
      .ok ⟨e', (hello, acts') :: ((connected.zip ([.socket 3, .connect 0 dst] :: rest)).reverse ++ [])⟩ := by
    simp only [Trace.step, hnext, bind, Except.bind, pure, Except.pure]
  refine ⟨_, _, s, u, hfinal ▸ final_mem_states _ _, ⟨⟨_, _, hstep', ?_⟩, ?_⟩, hflow, huid⟩
  · refine ⟨⟨4, 6, [10, 1, 10, 1], [8, 8, 8, 8], 20⟩, ⟨1000, 443, false⟩, ⟨[97], true, []⟩, ⟨?_, ?_⟩, rfl, ?_, rfl,
      rfl, hfind⟩
    · decide +kernel
    · decide +kernel
    · decide +kernel
  · refine ⟨_, .working, [.socket 3, .connect 0 dst], _, _, List.mem_cons_of_mem _ ?_, bareSyn_segment, ?_⟩
    · simp [connected]
    · rw [hid]
      exact List.mem_cons_of_mem _ List.mem_cons_self

theorem compiled_rulesOf {codes : Str} (h : (Redirect.compile .ascii codes).map (fun _ => ()) = .ok ()) :
    Redirect.compile .ascii codes = .ok (rulesOf codes) := by
  unfold rulesOf
  cases hc : Redirect.compile .ascii codes with
  | ok rules => rfl
  | error e =>
    rw [hc] at h
    cases h

theorem compiled_redirectTls :
    Redirect.compile .ascii "1.2.3.4:5 $ tls".toList = .ok (rulesOf "1.2.3.4:5 $ tls".toList) :=
  compiled_rulesOf (by decide +kernel)

theorem run_redirectAll : (Trace.init.engine.run (.plain [] _ compiled_redirectAll) connected).map
    (helloFacts (.plain [] _ compiled_redirectAll)) =
      .ok ⟨some [.socket 3, .connect 0 ⟨some [1, 2, 3, 4], 5⟩], some (0, segmentFlow, 10002), true⟩ := by
  decide +kernel

theorem run_redirectTls : (Trace.init.engine.run (.plain [] _ compiled_redirectTls) connected).map
    (helloFacts (.plain [] _ compiled_redirectTls)) =
      .ok ⟨some [.socket 3, .connect 0 ⟨some [8, 8, 8, 8], 443⟩], some (0, segmentFlow, 10002), true⟩ := by
  decide +kernel

theorem sentByName_runStates_redirectAll :
    ∃ t t' s u dst, .ok t ∈ runStates (.plain [] _ compiled_redirectAll) connected ∧
    Named (.plain [] _ compiled_redirectAll) t t' s u [97] dst ∧
    (SentByName (.plain [] _ compiled_redirectAll) u.flow u.uid ['a'] dst ↔
      SameServer (.plain [] _ compiled_redirectAll) u.flow u.uid ['a']) := by
  obtain ⟨t, t', s, u, hmem, hnamed, -, -⟩ := named_of_run run_redirectAll
  exact ⟨t, t', s, u, _, hmem, hnamed, (sentByName_runStates_iff _ _ _ hmem t rfl t' s u _ _ hnamed).2⟩

/-- A rule for TLS does not get the flow whose client hello it matches. -/
theorem not_sentByName_tls : ¬∀ (args : Arguments) (events : List Event), ∀ r ∈ runStates args events,
    OnOk (fun t => ∀ t' s u name dst, Named args t t' s u name dst →
      SentByName args u.flow u.uid (args.newStringUTF name) dst) r := by
  intro hall
  obtain ⟨t, t', s, u, hmem, hnamed, hflow, huid⟩ := named_of_run run_redirectTls
  obtain ⟨server, hserver, hdst⟩ := hall _ _ _ hmem t rfl t' s u _ _ hnamed
  rw [hflow] at hserver hdst
  have heval : (evalFlow (.plain [] _ compiled_redirectTls) IPPROTO_TCP segmentFlow ['a'] true u.uid) =
      .ok (some ⟨"1.2.3.4".toList, 5, false⟩) := by
    rw [huid]
    decide +kernel
  cases hserver.symm.trans heval
  revert hdst
  decide

end SunProxy.Net
