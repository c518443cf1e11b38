/-
From the text of the rules to the sockets: in every run each connection, and the datagram that a UDP session
is opened with, goes where the first rule sends it whose expression is true of what the packet shows, if the
address of its server can be read.
-/
import SunProxy.Net.TcpRun
import SunProxy.Redirect.Program

namespace SunProxy.Net

open SunProxy.Buffer SunProxy.Kotlin SunProxy.Redirect SunProxy.Result SunProxy.Run SunProxy.Table

variable {args : Arguments} {ctx ctx' : Context} {acts : List Action} {calls : TunCalls} {pkt : TunPacket}
  {p : IpPacket}
  {ports : Ports} {host : HostInfo} {uid : Int} {program : List (Entry args.tables)}

/-! ## What the rules choose -/

/-- What a rule is asked about a packet from the tun. -/
def Arguments.packetInfo (args : Arguments) (p : IpPacket) (ports : Ports) (host : HostInfo) (uid : Int) :
    PacketInfo where
  proto := protocolName p.protocol
  hostname := args.newStringUTF
    (if host.serverName = [] ∧ p.protocol = IPPROTO_TCP then host.httpHost else host.serverName)
  daddr := inetNtop p.daddr
  saddr := inetNtop p.saddr
  dport := ports.dport
  sport := ports.sport
  tls := host.tls
  uid := uid

/-- Packets that no rule is asked about: DNS that is not to be forwarded, and DNS over TCP of the system. -/
def Exempt (args : Arguments) (p : IpPacket) (ports : Ports) (host : HostInfo) (uid : Int) : Prop :=
  ports.dport = 53 ∧ (p.protocol = IPPROTO_UDP ∧ args.fwd53 = false ∨
    p.protocol = IPPROTO_TCP ∧ uid = 0 ∧ host.serverName = [])

instance : Decidable (Exempt args p ports host uid) := inferInstanceAs (Decidable (_ ∧ _))

/-- Where the program sends a packet. What the app itself sends is left alone. -/
def chosenServer (args : Arguments) (program : List (Entry args.tables)) (p : IpPacket) (ports : Ports)
    (host : HostInfo) (uid : Int) : Option Server :=
  if uid = args.myUid ∨ Exempt args p ports host uid then none
  else program.findSome? (·.choice (args.packetInfo p ports host uid))

/-- The rules of the service are those of the text. -/
theorem eval_rules (hcodes : args.codes = programText program) (q : PacketInfo) :
    args.rules.eval q.proto q.hostname q.daddr q.dport q.saddr q.sport q.tls q.uid =
      .ok (program.findSome? (·.choice q)) := by
  obtain ⟨rules, hrules, -, heval⟩ := eval_compile_programText program
  have hcompiled := args.compiled
  rw [hcodes, hrules] at hcompiled
  rw [← Except.ok.inj hcompiled]
  exact heval q

theorem isAddressAllowed_program (hcodes : args.codes = programText program) (hexempt : ¬Exempt args p ports host uid) :
    args.isAddressAllowed (createPacket args p ports host uid) = .ok (chosenServer args program p ports host uid) := by
  have heval := eval_rules hcodes (args.packetInfo p ports host uid)
  by_cases huid : uid = args.myUid
  · rw [chosenServer, if_pos (.inl huid)]
    exact if_pos huid
  · rw [chosenServer, if_neg (not_or.2 ⟨huid, hexempt⟩), ← heval]
    exact if_neg huid

/-- A packet of a flow without a session passes unasked only if it is exempt. -/
theorem assumedAllowed_iff (hnew : p.protocol = IPPROTO_TCP ∧ ports.syn = true ∨
      p.protocol = IPPROTO_UDP ∧ ctx.findUdp (flowOf p ports) = none) :
    assumedAllowed args ctx p ports host uid = true ↔ Exempt args p ports host uid := by
  have hne : IPPROTO_TCP ≠ IPPROTO_UDP := by decide
  rcases hnew with ⟨protocol, syn⟩ | ⟨protocol, found⟩
  · simp [assumedAllowed, Exempt, protocol, syn, hne, and_assoc, and_comm]
  · have hdest : (flowOf p ports).dest = ports.dport := rfl
    simp [assumedAllowed, Exempt, protocol, hasUdpSession, found, hdest, hne.symm]

theorem target_verdict (hcodes : args.codes = programText program)
    (hnew : p.protocol = IPPROTO_TCP ∧ ports.syn = true ∨
      p.protocol = IPPROTO_UDP ∧ ctx.findUdp (flowOf p ports) = none) :
    (target (flowOf p ports) (verdict args ctx p ports host uid).redirect).set? =
      serverTarget (flowOf p ports) (chosenServer args program p ports host uid) := by
  by_cases hexempt : Exempt args p ports host uid
  · rw [verdict_assumed ((assumedAllowed_iff hnew).2 hexempt), chosenServer, if_pos (.inr hexempt)]
    rfl
  · have hasked : assumedAllowed args ctx p ports host uid = false :=
      Bool.eq_false_iff.2 fun h => hexempt ((assumedAllowed_iff hnew).1 h)
    have hserver := isAddressAllowed_program hcodes hexempt
    have hallowed := verdict_allowed args ctx p ports host uid
    simp only [verdict, hasked, Bool.false_eq_true, if_false, Bool.and_eq_true] at hallowed ⊢
    obtain ⟨a, hanswer⟩ := Option.isSome_iff_exists.1 hallowed.1
    obtain ⟨server, hsame, htarget⟩ := target_redirectOf hanswer (flowOf p ports)
    rw [hserver] at hsame
    rw [hanswer, htarget, Except.ok.inj hsame]

/-- What a packet shows of its host. For an HTTP name is not looked when no rule is asked. -/
def shownHost (args : Arguments) (pkt : TunPacket) (p : IpPacket) (ports : Ports) (uid : Int) :
    Except Fault HostInfo := do
  let host ← sniInfo pkt p
  if p.protocol = IPPROTO_TCP ∧ host.serverName = [] ∧ ¬Exempt args p ports host uid then
    let (data, datalen) ← tcpRange pkt p
    let name ← httpHost pkt.buffer data datalen
    return { host with httpHost := name }
  else return host

theorem shownHost_noHost (protocol : p.protocol ≠ IPPROTO_TCP) : shownHost args pkt p ports uid = .ok noHost := by
  simp only [shownHost, sniInfo, bind, Except.bind, protocol, false_and, if_false]
  rfl

/-- The rules are told of the host of a SYN what it shows. -/
theorem hostInfo_syn (protocol : p.protocol = IPPROTO_TCP) (syn : ports.syn = true) :
    hostInfo args ctx pkt p ports calls = shownHost args pkt p ports calls.uid := by
  have hstarts : startsFlow args ctx p ports = true := by simp [startsFlow, protocol, syn]
  have hasked : ∀ host : HostInfo,
    assumedAllowed args ctx p ports host (packetUid args ctx p ports host calls) = false ↔
      ¬Exempt args p ports host calls.uid := fun host => by
    rw [packetUid, if_pos hstarts, ← assumedAllowed_iff (.inl ⟨protocol, syn⟩), Bool.not_eq_true]
  unfold hostInfo shownHost
  simp only [hasked]

/-! ## What is opened -/

/-- A socket is opened for the session at `id`, and connected to `dst` or given a datagram for `dst` at once. -/
def Dials (acts : List Action) (id : Nat) (dst : Endpoint) : Prop :=
  .connect id dst ∈ acts ∨ ∃ flow redirect data, .openUdp id flow redirect ∈ acts ∧ .sendtoUdp id data dst ∈ acts

/-- A socket goes where the program sends the packet that it is opened for, if that is anywhere. -/
structure Redirects (args : Arguments) (program : List (Entry args.tables)) (pkt : TunPacket) (uid : Int)
    (dst : Endpoint) : Prop where
  packet : ∃ p ports host, ReadsPacket pkt p ports ∧ shownHost args pkt p ports uid = .ok host ∧
    ∀ dst', serverTarget (flowOf p ports) (chosenServer args program p ports host uid) = some dst' → dst = dst'

theorem HandledIp.connects {sessions : Int} {id : Nat} {dst : Endpoint}
    (h : HandledIp args ctx sessions pkt calls ctx' acts) (hcodes : args.codes = programText program)
    (ha : .connect id dst ∈ acts) :
    Redirects args program pkt calls.uid dst := by
  obtain ⟨p, ports, host, acts', reads, protocol, info, hmem, handled⟩ := h.tcp_of_mem ha trivial
  obtain ⟨-, hdst, -⟩ := handled.connect_cases hmem
  have syn : ports.syn = true := by
    cases handled with
    | ignored | unknown | session => simp at hmem
    | failed _ header syn _ _ _ => exact (syn_of_readPorts protocol reads.ports header).trans syn
    | opened _ segment syn _ _ _ _ _ _ _ => exact (syn_of_readPorts protocol reads.ports segment.header).trans syn
  have hstarts : startsFlow args ctx p ports = true := by simp [startsFlow, protocol, syn]
  have huid : packetUid args ctx p ports host calls = calls.uid := if_pos hstarts
  rw [huid] at hdst
  rw [hostInfo_syn protocol syn] at info
  refine ⟨p, ports, host, reads, info, fun dst' hserver => ?_⟩
  rw [← target_verdict hcodes (.inl ⟨protocol, syn⟩), ← hdst] at hserver
  exact (set?_eq_some.1 hserver).1

theorem HandledIp.opensUdp {sessions : Int} {id : Nat} {flow : Flow} {redirect : Option Allowed} {data : Bytes}
    {dst : Endpoint} (h : HandledIp args ctx sessions pkt calls ctx' acts) (hcodes : args.codes = programText program)
    (ha : .openUdp id flow redirect ∈ acts) (hsent : .sendtoUdp id data dst ∈ acts) :
    Redirects args program pkt calls.uid dst := by
  obtain ⟨p, ports, v, reads, protocol, rfl, handled⟩ := h.udp_of_mem ha trivial
  have htcp : p.protocol ≠ IPPROTO_TCP := by rw [protocol]; decide
  refine ⟨p, ports, noHost, reads, shownHost_noHost htcp, fun dst' hserver => ?_⟩
  cases handled with
  | ignored => cases ha
  | session _ _ dealt _ _ => exact absurd ha dealt.not_openUdp
  | failed _ refused _ =>
    exact absurd trivial (openProtected_none (openUdpSocket_none refused) _ ha).not_isUdp
  | opened found _ dealt _ _ _ _ =>
    simp only [List.mem_cons, reduceCtorEq, false_or] at hsent
    obtain ⟨-, rfl, -⟩ := dealt.sendtoUdp_eq hsent
    -- the uid is looked up unless the packet is exempt, and then no rule is asked
    have hsame : chosenServer args program p ports noHost (packetUid args ctx p ports noHost calls) =
        chosenServer args program p ports noHost calls.uid := by
      by_cases hstarts : startsFlow args ctx p ports = true
      · rw [packetUid, if_pos hstarts]
      · have hknown : hasUdpSession args ctx (flowOf p ports) = true := by
          by_contra hnot
          exact hstarts (by simp [startsFlow, protocol, hnot])
        have hexempt : ports.dport = 53 ∧ args.fwd53 = false := by
          unfold hasUdpSession at hknown
          split at hknown
          · assumption
          · rw [found] at hknown
            cases hknown
        have hchosen : ∀ uid, chosenServer args program p ports noHost uid = none := fun uid =>
          if_pos (.inr ⟨hexempt.1, .inl ⟨protocol, hexempt.2⟩⟩)
        rw [hchosen, hchosen]
    rw [← hsame, ← target_verdict hcodes (.inr ⟨protocol, found⟩)] at hserver
    exact (set?_eq_some.1 hserver).1

/-- The sockets that an event opens go where the program sends its packet. -/
theorem Engine.step_redirects {e e' : Engine} {event : Event} {id : Nat} {dst : Endpoint} (hv : e.ctx.table.Valid)
    (hcodes : args.codes = programText program) (h : e.step args event = .ok (e', acts)) (hdials : Dials acts id dst) :
    ∃ pkt calls, event = .tun pkt calls ∧ Redirects args program (pkt.take getMtu) calls.uid dst := by
  rcases Engine.step_cases hv h with ⟨pkt, calls, rfl, -, handled⟩ | ⟨outputs, -⟩
  · refine ⟨pkt, calls, rfl, ?_⟩
    rcases hdials with hconnect | ⟨flow, redirect, data, hopen, hsent⟩
    · exact handled.connects hcodes hconnect
    · exact handled.opensUdp hcodes hopen hsent
  · exfalso
    rcases hdials with hconnect | ⟨flow, redirect, data, hopen, -⟩
    · obtain ⟨o, ho⟩ := outputs _ hconnect
      cases ho
    · obtain ⟨o, ho⟩ := outputs _ hopen
      cases ho

/-! ## Runs -/

/-- What was opened in a run, if anything, was opened where the program says. -/
structure Trace.Redirected (args : Arguments) (program : List (Entry args.tables)) (t : Trace) : Prop where
  valid : t.engine.ctx.table.Valid
  dialed : ∀ event acts, (event, acts) ∈ t.past → ∀ id dst, Dials acts id dst →
    ∃ pkt calls, event = .tun pkt calls ∧ Redirects args program (pkt.take getMtu) calls.uid dst

theorem Trace.Redirected.step {t t' : Trace} {event : Event} (h : t.Redirected args program)
    (hcodes : args.codes = programText program) (hs : t.step args event = .ok t') : t'.Redirected args program := by
  obtain ⟨e, acts, he, rfl⟩ := Trace.step_cases hs
  refine ⟨(Engine.step_advance h.valid he).valid h.valid, fun event' acts' hmem id dst hdials => ?_⟩
  rcases List.mem_cons.1 hmem with heq | hmem
  · cases heq
    exact Engine.step_redirects h.valid hcodes he hdials
  · exact h.dialed event' acts' hmem id dst hdials

/-- In every run with the rules of a program, each connection, and the datagram that a UDP session is opened
with, goes where the first rule of the program sends the packet that the socket was opened for, if the address
of its server can be read. -/
theorem dialed_of_program {args : Arguments} {program : List (Entry args.tables)} {events : List Event} {t : Trace}
    {event : Event} {acts : List Action} {id : Nat} {dst : Endpoint} (hcodes : args.codes = programText program)
    (h : final (stepOk (Trace.step args)) (.ok .init) events = .ok t) (hdone : (event, acts) ∈ t.past)
    (hdials : Dials acts id dst) :
    ∃ pkt calls, event = .tun pkt calls ∧ Redirects args program (pkt.take getMtu) calls.uid dst := by
  have hinit : Trace.init.Redirected args program := ⟨⟨.nil, nofun⟩, fun _ _ h => absurd h List.not_mem_nil⟩
  have hinv : t.Redirected args program :=
    onOk_states_of_inv (fun _ _ _ hinv hs => hinv.step hcodes hs) hinit events _ (final_mem_states _ _) t h
  exact hinv.dialed event acts hdone id dst hdials

/-- Plain text to one server, and the rest to none. -/
def plainWeb : List (Entry .ascii) :=
  [.comment ⟨" web".toList, by simp⟩,
    .rule ⟨"9.9.9.9".toList, 53, by decide +kernel, by decide, by decide⟩ .tls,
    .empty,
    .rule ⟨"1.2.3.4".toList, 5, by decide +kernel, by decide, by decide⟩ (.not .tls)]

theorem compiled_plainWeb : Redirect.compile .ascii (programText plainWeb) = .ok (rulesOf (programText plainWeb)) := by
  obtain ⟨rules, hrules, -⟩ := eval_compile_programText plainWeb
  exact compiled_rulesOf (by rw [hrules]; rfl)

theorem dialed_of_program_plainWeb : ∃ (t : Trace) (event : Event) (acts : List Action),
    final (stepOk (Trace.step (.plain [] _ compiled_plainWeb))) (.ok .init) connected = .ok t ∧ (event, acts) ∈ t.past ∧
    Dials acts 0 ⟨some [1, 2, 3, 4], 5⟩ ∧ ∃ pkt calls, event = .tun pkt calls ∧
      Redirects (.plain [] _ compiled_plainWeb) plainWeb (pkt.take getMtu) calls.uid ⟨some [1, 2, 3, 4], 5⟩ := by
  have hrun : (final (stepOk (Trace.step (.plain [] _ compiled_plainWeb))) (.ok .init) connected).map
      (fun t => (t.past.map Prod.snd).getLast?) = .ok (some [.socket 3, .connect 0 ⟨some [1, 2, 3, 4], 5⟩]) := by
    decide +kernel
  obtain ⟨t, ht, hlast⟩ := map_eq_ok hrun
  obtain ⟨⟨event, acts⟩, hdone, hacts⟩ := List.mem_map.1 (List.mem_of_getLast? hlast)
  have hdials : Dials acts 0 ⟨some [1, 2, 3, 4], 5⟩ := by
    rw [show acts = _ from hacts]
    exact .inl (List.mem_cons_of_mem _ List.mem_cons_self)
  exact ⟨t, event, acts, ht, hdone, hdials, dialed_of_program rfl ht hdone hdials⟩

end SunProxy.Net
