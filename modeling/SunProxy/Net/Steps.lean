/-
What each event of a run can do: for the handlers of tun packets and `handle_ip`, the ways a packet
ends, with what is done and what becomes of the table; and that a table only ever loses sessions or
gets one at a new address.
-/
import SunProxy.Net.Flows
import SunProxy.Net.Rules

namespace SunProxy.Net

open SunProxy.Buffer SunProxy.Kotlin SunProxy.Result SunProxy.Table

variable {args : Arguments} {ctx ctx' : Context} {acts : List Action} {calls : TunCalls}

/-- A session that is changed right after it was put into the table. -/
theorem insert_update (hv : ctx.table.Valid) {data data' : SessionData} {socket : Int} {ev : PollEvents}
    {f : NgSession → NgSession} (hf : f ⟨ctx.next, data, socket, ev⟩ = ⟨ctx.next, data', socket, ev⟩) :
    (ctx.insert data socket ev).update ctx.next f = ctx.insert data' socket ev := by
  have hold : ctx.sessions.map (fun s => if s.id = ctx.next then f s else s) = ctx.sessions := by
    conv_rhs => rw [← List.map_id ctx.sessions]
    apply List.map_congr_left
    intro s hs
    have hlt : s.id < ctx.next := hv.fresh s.entry (List.mem_map_of_mem hs)
    rw [if_neg (Nat.ne_of_lt hlt), id]
  simp only [Context.update, Context.insert, List.map_cons, if_true, hf, hold]

theorem length_insert_update (ctx : Context) (data : SessionData) (socket : Int) (ev : PollEvents) (id : Nat)
    (f : NgSession → NgSession) :
    ((ctx.insert data socket ev).update id f).sessions.length = ctx.sessions.length + 1 := by
  simp only [Context.update, Context.insert, List.length_map, List.length_cons]

/-! ## Opening a socket -/

/-- A step of opening a socket that is no call on a session. -/
def Action.IsSocket (a : Action) : Prop := ∃ fd, a = .socket fd

def Action.IsOutput (a : Action) : Prop := ∃ o, a = .output o

/-- A record that is reported. -/
def Action.IsReport (a : Action) : Prop := ∃ rr, a = .output (.resolved rr)

theorem Action.IsReport.isOutput {a : Action} (h : a.IsReport) : a.IsOutput := by
  obtain ⟨rr, rfl⟩ := h
  exact ⟨_, rfl⟩

theorem openProtected_none {calls : TunCalls} {acts : List Action} (h : openProtected calls = (none, acts)) :
    ∀ a ∈ acts, a.IsSocket := by
  unfold openProtected at h
  split_ifs at h
  · cases h
    simp
  · cases h
    intro a ha
    rw [List.mem_singleton] at ha
    exact ⟨_, ha⟩
  · cases h

theorem openProtected_some {calls : TunCalls} {socket : Int} {acts : List Action}
    (h : openProtected calls = (some socket, acts)) :
    socket = calls.socket ∧ acts = [.socket calls.socket] ∧ 0 ≤ calls.socket ∧ 0 ≤ calls.protect := by
  unfold openProtected at h
  split_ifs at h with hs hp
  · cases h
  · cases h
  · cases h
    exact ⟨rfl, rfl, not_lt.1 hs, not_lt.1 hp⟩

theorem openUdpSocket_none {id : Nat} {flow : Flow} {redirect : Option Allowed} {calls : TunCalls} {acts : List Action}
    (h : openUdpSocket id flow redirect calls = (none, acts)) : openProtected calls = (none, acts) := by
  unfold openUdpSocket at h
  split at h
  · rename_i hopen
    cases h
    exact hopen
  · cases h

theorem openUdpSocket_of_works {calls : TunCalls} (hsocket : 0 ≤ calls.socket) (hprotect : 0 ≤ calls.protect) (id : Nat)
    (flow : Flow) (redirect : Option Allowed) :
    openUdpSocket id flow redirect calls = (some calls.socket, [.socket calls.socket, .openUdp id flow redirect]) := by
  rw [openUdpSocket, openProtected, if_neg (not_lt.2 hsocket), if_neg (not_lt.2 hprotect)]
  rfl

theorem openUdpSocket_some {id : Nat} {flow : Flow} {redirect : Option Allowed} {calls : TunCalls} {socket : Int}
    {acts : List Action} (h : openUdpSocket id flow redirect calls = (some socket, acts)) :
    socket = calls.socket ∧ acts = [.socket calls.socket, .openUdp id flow redirect] ∧ 0 ≤ calls.socket ∧
      0 ≤ calls.protect := by
  unfold openUdpSocket at h
  split at h
  · cases h
  · rename_i hopen
    cases h
    obtain ⟨rfl, rfl, hsocket⟩ := openProtected_some hopen
    exact ⟨rfl, rfl, hsocket⟩

/-! ## UDP -/

/-- How a datagram of a session is dealt with: it is answered from the hosts list, taken as DHCP without an
answer or with one, forwarded, or refused for its length. First the flow of the session after it. -/
inductive Dealt (args : Arguments) (malloc : Nat → UInt8) (flow : Flow) (data : Bytes) (datalen id : Nat)
    (redirect : Option Allowed) : Flow → List Action → Prop
  | answered {r : Bytes} (hosts : hostsResponse args malloc flow data datalen = .ok (some r)) :
      Dealt args malloc flow data datalen id redirect flow [.output (.tunWrite (udpPacket flow r))]
  | dhcp {o : DhcpOutcome} (hosts : hostsResponse args malloc flow data datalen = .ok none)
      (dhcp : dhcpCheck flow data datalen = .ok (some o)) (silent : o.response = none) :
      Dealt args malloc flow data datalen id redirect flow []
  | leased {o : DhcpOutcome} {r : Bytes} (hosts : hostsResponse args malloc flow data datalen = .ok none)
      (dhcp : dhcpCheck flow data datalen = .ok (some o)) (response : o.response = some r) :
      Dealt args malloc flow data datalen id redirect flow.leased [.output (.tunWrite (udpPacket flow.leased r))]
  | forwarded (hosts : hostsResponse args malloc flow data datalen = .ok none)
      (dhcp : dhcpCheck flow data datalen = .ok none) (inside : datalen ≤ data.length) :
      Dealt args malloc flow data datalen id redirect flow [.sendtoUdp id data (target flow redirect)]
  | refused (hosts : hostsResponse args malloc flow data datalen = .ok none)
      (dhcp : dhcpCheck flow data datalen = .ok none) (outside : data.length < datalen) :
      Dealt args malloc flow data datalen id redirect flow []

/-- Of the packets it takes, `check_dhcp` answers the requests, and then the flow is another one. -/
theorem checkDhcp_some {flow : Flow} {data : Bytes} {datalen : Nat} {o : DhcpOutcome}
    (h : checkDhcp flow data datalen = .ok (some o)) :
    o = ⟨flow, [], none⟩ ∨ ∃ stores, o = ⟨flow.leased, stores, some (dhcpResponse stores)⟩ := by
  unfold checkDhcp at h
  split at h
  · cases h
  · obtain ⟨optionFormat, -, h⟩ := bind_eq_ok h
    obtain ⟨htype, -, h⟩ := bind_eq_ok h
    obtain ⟨hlen, -, h⟩ := bind_eq_ok h
    obtain ⟨opcode, -, h⟩ := bind_eq_ok h
    split at h
    · cases h
    · split at h
      · cases h
      · split at h
        · obtain ⟨siaddr, -, h⟩ := bind_eq_ok h
          cases h
          exact .inr ⟨_, rfl⟩
        · cases h
          exact .inl rfl

theorem dhcpCheck_some {flow : Flow} {data : Bytes} {datalen : Nat} {o : DhcpOutcome}
    (h : dhcpCheck flow data datalen = .ok (some o)) :
    o = ⟨flow, [], none⟩ ∨ ∃ stores, o = ⟨flow.leased, stores, some (dhcpResponse stores)⟩ := by
  unfold dhcpCheck at h
  split at h
  · exact checkDhcp_some h
  · cases h

@[simp] theorem lasting_leased (flow : Flow) : (Key.udp flow.leased).lasting = (Key.udp flow).lasting := rfl

theorem Dealt.flow {malloc : Nat → UInt8} {flow flow' : Flow} {data : Bytes} {datalen id : Nat}
    {redirect : Option Allowed} (h : Dealt args malloc flow data datalen id redirect flow' acts) :
    flow' = flow ∨ flow' = flow.leased := by
  cases h with
  | leased => exact .inr rfl
  | answered | dhcp | forwarded | refused => exact .inl rfl

/-- `check_dhcp` answers the payload. -/
def AnswersDhcp (flow : Flow) (data : Bytes) (datalen : Nat) : Prop :=
  ∃ o r, dhcpCheck flow data datalen = .ok (some o) ∧ o.response = some r

theorem Dealt.flow_or_leased {malloc : Nat → UInt8} {flow flow' : Flow} {data : Bytes} {datalen id : Nat}
    {redirect : Option Allowed} (h : Dealt args malloc flow data datalen id redirect flow' acts) :
    flow' = flow ∨ flow' = flow.leased ∧ AnswersDhcp flow data datalen := by
  cases h with
  | leased _ hdhcp response => exact .inr ⟨rfl, _, _, hdhcp, response⟩
  | answered | dhcp | forwarded | refused => exact .inl rfl

/-- An answer to a DHCP request changes the source of a flow only. -/
theorem Dealt.lasting {malloc : Nat → UInt8} {flow flow' : Flow} {data : Bytes} {datalen id : Nat}
    {redirect : Option Allowed} (h : Dealt args malloc flow data datalen id redirect flow' acts) :
    (Key.udp flow').lasting = (Key.udp flow).lasting := by
  rcases h.flow with rfl | rfl
  · rfl
  · exact lasting_leased flow

/-- The session of the datagram is still active after it. -/
def StaysActive (args : Arguments) (calls : TunCalls) (flow : Flow) (data : Bytes) (datalen : Nat) : Prop :=
  hostsResponse args calls.malloc flow data datalen = .ok none ∧
    ∃ o, dhcpCheck flow data datalen = .ok o ∧
      (o.isNone = true → datalen ≤ data.length ∧ calls.sendto ≠ .error false)

theorem forwardUdp_cases (ctx : Context) (id : Nat) (u : UdpSession) (redirect : Option Allowed) (data : Bytes)
    (calls : TunCalls) (active : u.state = .active) {datalen : Nat} (inside : datalen ≤ data.length) :
    ∃ u' : UdpSession, u'.flow = u.flow ∧ (u'.state = .active ∨ u'.state = .finishing) ∧
      (u'.state = .active ↔ calls.sendto ≠ .error false) ∧
      forwardUdp ctx id u redirect data datalen calls =
        (ctx.update id (·.withUdp u'), [.sendtoUdp id data (target u.flow redirect)]) := by
  unfold forwardUdp
  dsimp only
  rw [if_neg (not_lt.2 inside)]
  split
  · rename_i h
    exact ⟨{ u with time := calls.now, sent := u.sent + data.length }, rfl, .inl active,
      iff_of_true active (by rw [h]; nofun), rfl⟩
  · rename_i h
    exact ⟨{ u with time := calls.now }, rfl, .inl active, iff_of_true active (by rw [h]; nofun), rfl⟩
  · rename_i h
    exact ⟨{ u with time := calls.now, state := .finishing }, rfl, .inr rfl, iff_of_false nofun (not_not.2 h), rfl⟩

theorem handleUdpSession_cases {id : Nat} {u : UdpSession} {redirect : Option Allowed} {data : Bytes} {datalen : Nat}
    (active : u.state = .active) (h : handleUdpSession args ctx id u redirect data datalen calls = .ok (ctx', acts)) :
    ∃ u' : UdpSession, Dealt args calls.malloc u.flow data datalen id redirect u'.flow acts ∧
      (u'.state = .active ∨ u'.state = .finishing) ∧ (u'.state = .active ↔ StaysActive args calls u.flow data datalen) ∧
      ctx' = ctx.update id (·.withUdp u') := by
  obtain ⟨response, hosts, h⟩ := bind_eq_ok h
  cases response with
  -- answered from the hosts
  | some response =>
    cases h
    have hends : ¬ StaysActive args calls u.flow data datalen := fun h => by cases hosts.symm.trans h.1
    exact ⟨u.withState .finishing, .answered hosts, .inr rfl, iff_of_false nofun hends, rfl⟩
  | none =>
    obtain ⟨outcome, hdhcp, h⟩ := bind_eq_ok h
    cases outcome with
    -- taken by `check_dhcp`, with or without an answer
    | some outcome =>
      cases h
      have hstays : StaysActive args calls u.flow data datalen := ⟨hosts, _, hdhcp, nofun⟩
      rcases dhcpCheck_some hdhcp with rfl | ⟨stores, rfl⟩
      · exact ⟨{ u with flow := u.flow }, .dhcp hosts hdhcp rfl, .inl active, iff_of_true active hstays, rfl⟩
      · exact ⟨{ u with flow := u.flow.leased }, .leased hosts hdhcp rfl, .inl active, iff_of_true active hstays, rfl⟩
    | none =>
      -- forwarded, if all of it is there to be sent
      have hstays : StaysActive args calls u.flow data datalen ↔
          datalen ≤ data.length ∧ calls.sendto ≠ .error false := by
        constructor
        · rintro ⟨-, o, ho, hs⟩
          cases hdhcp.symm.trans ho
          exact hs rfl
        · exact fun hs => ⟨hosts, none, hdhcp, fun _ => hs⟩
      rcases Nat.lt_or_ge data.length datalen with hout | hin
      · simp only [forwardUdp, if_pos hout] at h
        cases h
        exact ⟨{ u with time := calls.now, state := .finishing }, .refused hosts hdhcp hout, .inr rfl,
          iff_of_false nofun fun h => absurd (hstays.1 h).1 (not_le.2 hout), rfl⟩
      · obtain ⟨u', hflow, hstate, hactive, hforward⟩ := forwardUdp_cases ctx id u redirect data calls active hin
        rw [hforward] at h
        cases h
        refine ⟨u', ?_, hstate, hactive.trans ?_, rfl⟩
        · rw [hflow]
          exact .forwarded hosts hdhcp hin
        · exact (and_iff_right hin).symm.trans hstays.symm

/-- The ways `handle_udp` ends. -/
inductive HandledUdp (args : Arguments) (ctx : Context) (flow : Flow) (redirect : Option Allowed) (data : Bytes)
    (datalen : Nat) (calls : TunCalls) (ctx' : Context) : List Action → Prop
  | ignored {id : Nat} {u : UdpSession} (found : ctx.findUdp flow = some (id, u)) (state : u.state ≠ .active)
      (same : ctx' = ctx) : HandledUdp args ctx flow redirect data datalen calls ctx' []
  | session {id : Nat} {u u' : UdpSession} {acts : List Action} (found : ctx.findUdp flow = some (id, u))
      (state : u.state = .active) (dealt : Dealt args calls.malloc flow data datalen id redirect u'.flow acts)
      (after : u'.state = .active ∨ u'.state = .finishing) (changed : ctx' = ctx.update id (·.withUdp u')) :
      HandledUdp args ctx flow redirect data datalen calls ctx' acts
  | failed {acts : List Action} (found : ctx.findUdp flow = none)
      (refused : openUdpSocket ctx.next flow redirect calls = (none, acts)) (same : ctx' = ctx.discard) :
      HandledUdp args ctx flow redirect data datalen calls ctx' acts
  | opened {u : UdpSession} {acts : List Action} (found : ctx.findUdp flow = none)
      (opens : 0 ≤ calls.socket ∧ 0 ≤ calls.protect)
      (dealt : Dealt args calls.malloc flow data datalen ctx.next redirect u.flow acts)
      (after : u.state = .active ∨ u.state = .finishing)
      (active : u.state = .active ↔ StaysActive args calls flow data datalen)
      (grown : ctx'.sessions.length = ctx.sessions.length + 1)
      (added : ctx.table.Valid → ctx' = ctx.insert (.udp u) calls.socket ⟨true, false⟩) :
      HandledUdp args ctx flow redirect data datalen calls ctx'
        (.socket calls.socket :: .openUdp ctx.next flow redirect :: acts)

theorem handleUdp_cases {flow : Flow} {uid : Int} {redirect : Option Allowed} {data : Bytes} {datalen : Nat}
    (h : handleUdp args ctx flow uid redirect data datalen calls = .ok (ctx', acts)) :
    HandledUdp args ctx flow redirect data datalen calls ctx' acts := by
  unfold handleUdp at h
  split at h
  · rename_i id u found
    split at h
    · rename_i state
      cases h
      exact .ignored found state rfl
    · rename_i state
      obtain ⟨hflow, -⟩ := mem_of_findUdp found
      obtain ⟨u', dealt, after, -, changed⟩ := handleUdpSession_cases (not_not.1 state) h
      rw [hflow] at dealt
      exact .session found (not_not.1 state) dealt after changed
  · rename_i found
    unfold createUdp at h
    split at h
    · rename_i refused
      cases h
      exact .failed found refused rfl
    · rename_i hopen
      obtain ⟨rfl, rfl, opens⟩ := openUdpSocket_some hopen
      obtain ⟨⟨ctx'', rest⟩, hsession, h⟩ := bind_eq_ok h
      cases h
      obtain ⟨u', dealt, after, active, changed⟩ := handleUdpSession_cases rfl hsession
      exact .opened found opens dealt after active (changed ▸ length_insert_update ..)
        fun hv => changed.trans (insert_update hv rfl)

/-! ## TCP -/

theorem openTcpSocket_none {id : Nat} {flow : Flow} {redirect : Option Allowed} {calls : TunCalls} {acts : List Action}
    (h : openTcpSocket id flow redirect calls = (none, acts)) :
    openProtected calls = (none, acts) ∨
      openProtected calls = (some calls.socket, [.socket calls.socket]) ∧
        (calls.fcntl = false ∧ acts = [.socket calls.socket] ∨
          calls.connect = false ∧ acts = [.socket calls.socket, .connect id (target flow redirect)]) := by
  unfold openTcpSocket at h
  split at h
  · rename_i hopen
    cases h
    exact .inl hopen
  · rename_i hopen
    obtain ⟨rfl, rfl, -⟩ := openProtected_some hopen
    split_ifs at h with hfcntl hconnect
    · cases h
      exact .inr ⟨hopen, .inl ⟨hfcntl, rfl⟩⟩
    · cases h
    · cases h
      exact .inr ⟨hopen, .inr ⟨by simpa using hconnect, rfl⟩⟩

theorem openTcpSocket_some {id : Nat} {flow : Flow} {redirect : Option Allowed} {calls : TunCalls} {socket : Int}
    {acts : List Action} (h : openTcpSocket id flow redirect calls = (some socket, acts)) :
    socket = calls.socket ∧ acts = [.socket calls.socket, .connect id (target flow redirect)] ∧ 0 ≤ calls.socket ∧
      0 ≤ calls.protect ∧ calls.fcntl = true ∧ calls.connect = true := by
  unfold openTcpSocket at h
  split at h
  · cases h
  · rename_i hopen
    obtain ⟨rfl, rfl, hsocket, hprotect⟩ := openProtected_some hopen
    split_ifs at h with hfcntl hconnect
    · cases h
    · cases h
      exact ⟨rfl, rfl, hsocket, hprotect, by simpa using hfcntl, hconnect⟩
    · cases h

/-- What is done of opening a TCP socket when it fails. -/
theorem mem_openTcpSocket_none {id : Nat} {flow : Flow} {redirect : Option Allowed} {calls : TunCalls}
    {acts : List Action} (h : openTcpSocket id flow redirect calls = (none, acts)) :
    ∀ a ∈ acts, a.IsSocket ∨ a = .connect id (target flow redirect) := by
  intro a ha
  rcases openTcpSocket_none h with h | ⟨-, ⟨-, rfl⟩ | ⟨-, rfl⟩⟩
  · exact .inl (openProtected_none h a ha)
  · rw [List.mem_singleton] at ha
    exact .inl ⟨_, ha⟩
  · simp only [List.mem_cons, List.not_mem_nil, or_false] at ha
    rcases ha with rfl | rfl
    · exact .inl ⟨_, rfl⟩
    · exact .inr rfl

/-- What `handle_tcp` does with a segment of a session. -/
def segmentResult (t : TcpSession) (socket : Int) (h : TcpHeader) (data : Bytes) (calls : TunCalls) :
    TcpSession × List Output :=
  if t.isClosed then ((writeRst t).1, [(writeRst t).2]) else handleTcpSession t socket h data calls

theorem later_segmentResult (t : TcpSession) (socket : Int) (h : TcpHeader) (data : Bytes) (calls : TunCalls) :
    t.Later (segmentResult t socket h data calls).1 := by
  unfold segmentResult
  split
  · exact .writeRst t
  · exact .handleTcpSession t socket h data calls

/-- The data of a segment with the header `h` at `payload`, with zeros for what is behind the buffer. -/
def segmentData (pkt : TunPacket) (payload : Nat) (h : TcpHeader) : Bytes :=
  let start := tcpData payload h.doff
  let datalen := tcpDatalen pkt start
  (pkt.buffer.drop start ++ List.replicate datalen 0).take datalen

theorem length_segmentData (pkt : TunPacket) (payload : Nat) (h : TcpHeader) :
    (segmentData pkt payload h).length = tcpDatalen pkt (tcpData payload h.doff) := by
  simp [segmentData]

/-- The segment in a packet whose TCP header is at `payload`. -/
structure ReadsSegment (pkt : TunPacket) (payload : Nat) (h : TcpHeader) (data : Bytes) : Prop where
  header : readTcpHeader pkt payload = .ok h
  data : data = segmentData pkt payload h

/-- Data that is copied is the same. -/
theorem readData_eq {pkt : TunPacket} {start datalen : Nat} {copied : Bool} {data : Bytes}
    (h : readData pkt start datalen copied = .ok data) :
    data = (pkt.buffer.drop start ++ List.replicate datalen 0).take datalen := by
  unfold readData at h
  split at h
  · unfold loadBytes at h
    split at h
    · rename_i hfits
      cases h
      rw [List.take_append_of_le_length (by rw [List.length_drop]; omega)]
    · cases h
  · cases h
    rfl

/-- The ways `handle_tcp` ends. -/
inductive HandledTcp (ctx : Context) (pkt : TunPacket) (payload : Nat) (flow : Flow) (uid : Int) (allowed : Bool)
    (redirect : Option Allowed) (calls : TunCalls) (ctx' : Context) : List Action → Prop
  | ignored {h : TcpHeader} (header : readTcpHeader pkt payload = .ok h) (urg : h.urg = true) (same : ctx' = ctx) :
      HandledTcp ctx pkt payload flow uid allowed redirect calls ctx' []
  | unknown {h : TcpHeader} {packet : Bytes} (found : ctx.findTcp flow = none)
      (header : readTcpHeader pkt payload = .ok h) (syn : h.syn = false) (same : ctx' = ctx) :
      HandledTcp ctx pkt payload flow uid allowed redirect calls ctx' [.output (.tunWrite packet)]
  | session {s : NgSession} {t : TcpSession} {h : TcpHeader} {data : Bytes} (found : ctx.findTcp flow = some (s, t))
      (reads : ReadsSegment pkt payload h data) (urg : h.urg = false)
      (changed : ctx' = ctx.update s.id (·.withTcp (segmentResult t s.socket h data calls).1)) :
      HandledTcp ctx pkt payload flow uid allowed redirect calls ctx'
        ((segmentResult t s.socket h data calls).2.map .output)
  | failed {h : TcpHeader} {acts : List Action} (found : ctx.findTcp flow = none)
      (header : readTcpHeader pkt payload = .ok h) (syn : h.syn = true) (urg : h.urg = false)
      (refused : openTcpSocket ctx.next flow redirect calls = (none, acts)) (same : ctx' = ctx.discard) :
      HandledTcp ctx pkt payload flow uid allowed redirect calls ctx' acts
  | opened {t : TcpSession} {h : TcpHeader} {data : Bytes} {mss ws : Nat} {acts : List Action}
      (found : ctx.findTcp flow = none) (reads : ReadsSegment pkt payload h data) (syn : h.syn = true)
      (urg : h.urg = false)
      (opens : openTcpSocket ctx.next flow redirect calls = (some calls.socket,
        [.socket calls.socket, .connect ctx.next (target flow redirect)]))
      (later : (newTcpSession flow h mss ws uid data calls).Later t)
      (options : synOptions pkt.buffer (optionLength h.doff) (optionLength h.doff) (payload + 20)
        (getDefaultMss flow.version) 0 = .ok (mss, ws))
      (listens : allowed = true →
        acts = [] ∧ ∃ w, t = { newTcpSession flow h mss ws uid data calls with recvWindow := w })
      (outputs : ∀ a ∈ acts, a.IsOutput) (added : ctx' = ctx.insert (.tcp t) calls.socket ⟨false, true⟩) :
      HandledTcp ctx pkt payload flow uid allowed redirect calls ctx'
        (.socket calls.socket :: .connect ctx.next (target flow redirect) :: acts)

theorem createTcp_cases {pkt : TunPacket} {payload : Nat} {flow : Flow} {h : TcpHeader} {uid : Int}
    {allowed : Bool} {redirect : Option Allowed} (found : ctx.findTcp flow = none)
    (header : readTcpHeader pkt payload = .ok h) (syn : h.syn = true) (urg : h.urg = false)
    (hr : createTcp ctx pkt payload flow h uid allowed redirect calls = .ok (ctx', acts)) :
    HandledTcp ctx pkt payload flow uid allowed redirect calls ctx' acts := by
  obtain ⟨⟨mss, ws⟩, options, hr⟩ := bind_eq_ok hr
  obtain ⟨data, hdata, hr⟩ := bind_eq_ok hr
  have reads : ReadsSegment pkt payload h data := ⟨header, readData_eq hdata⟩
  dsimp only at hr
  split at hr
  · rename_i refused
    cases hr
    exact .failed found header syn urg refused rfl
  · rename_i hopen
    obtain ⟨rfl, rfl, -⟩ := openTcpSocket_some hopen
    have hwindow : ∀ w, (newTcpSession flow h mss ws uid data calls).Later
        { newTcpSession flow h mss ws uid data calls with recvWindow := w } := fun w => ⟨rfl, rfl, fun h => h⟩
    split at hr
    · obtain ⟨rfl, rfl⟩ := Prod.mk.inj (Except.ok.inj hr)
      exact .opened found reads syn urg hopen (hwindow _) options (fun _ => ⟨rfl, _, rfl⟩) (by simp) rfl
    · rename_i denied
      obtain ⟨rfl, rfl⟩ := Prod.mk.inj (Except.ok.inj hr)
      refine .opened found reads syn urg hopen ((hwindow _).trans (.writeRst _)) options (fun h => absurd h denied)
        (fun a ha => ?_) rfl
      exact ⟨_, List.mem_singleton.1 ha⟩

theorem handleTcp_cases {pkt : TunPacket} {payload : Nat} {flow : Flow} {uid : Int} {allowed : Bool}
    {redirect : Option Allowed} (hr : handleTcp ctx pkt payload flow uid allowed redirect calls = .ok (ctx', acts)) :
    HandledTcp ctx pkt payload flow uid allowed redirect calls ctx' acts := by
  obtain ⟨h, header, hr⟩ := bind_eq_ok hr
  dsimp only at hr
  split at hr
  · rename_i urg
    cases hr
    exact .ignored header urg rfl
  · rename_i urg
    split at hr
    · rename_i found
      split at hr
      · rename_i syn
        exact createTcp_cases found header syn (by simpa using urg) hr
      · rename_i syn
        cases hr
        exact .unknown found header (by simpa using syn) rfl
    · rename_i s t found
      obtain ⟨data, hdata, hr⟩ := bind_eq_ok hr
      change Except.ok (ctx.update s.id (·.withTcp (segmentResult t s.socket h data calls).1),
        (segmentResult t s.socket h data calls).2.map Action.output) = .ok (ctx', acts) at hr
      cases hr
      exact .session found ⟨header, readData_eq hdata⟩ (by simpa using urg) rfl

/-! ## ICMP -/

theorem mem_of_findIcmp {p : IpPacket} {id : Nat} {i : IcmpSession} (h : ctx.findIcmp p = some (id, i)) :
    (i.stop = false ∧ i.version = p.version ∧ i.saddr = p.saddr ∧ i.daddr = p.daddr) ∧
      ∃ s ∈ ctx.sessions, s.id = id ∧ s.data = .icmp i := by
  obtain ⟨s, hs, h⟩ := List.exists_of_findSome?_eq_some h
  obtain ⟨i', hi, hp⟩ := Option.map_eq_some_iff.1 h
  cases hp
  obtain ⟨hi, hmatch⟩ := Option.filter_eq_some_iff.1 hi
  refine ⟨by simpa using hmatch, s, hs, rfl, ?_⟩
  unfold NgSession.icmp? at hi
  split at hi <;> cases hi
  assumption

/-- The ways `handle_icmp` ends. -/
inductive HandledIcmp (ctx : Context) (pkt : TunPacket) (p : IpPacket) (calls : TunCalls) (ctx' : Context) :
    List Action → Prop
  | ignored (other : load pkt.buffer p.payload ≠ .ok 8) (same : ctx' = ctx) : HandledIcmp ctx pkt p calls ctx' []
  | session {sid : Nat} {i i' : IcmpSession} {message : Bytes} {dst : Endpoint}
      (found : ctx.findIcmp p = some (sid, i)) (later : i.Later i') (changed : ctx' = ctx.update sid (·.withIcmp i')) :
      HandledIcmp ctx pkt p calls ctx' [.sendtoIcmp sid message dst]
  | failed {acts : List Action} (echo : load pkt.buffer p.payload = .ok 8) (found : ctx.findIcmp p = none)
      (refused : openProtected calls = (none, acts)) (same : ctx' = ctx.discard) :
      HandledIcmp ctx pkt p calls ctx' acts
  | opened {i : IcmpSession} {message : Bytes} {dst : Endpoint} (echo : load pkt.buffer p.payload = .ok 8)
      (found : ctx.findIcmp p = none) (opens : 0 ≤ calls.socket ∧ 0 ≤ calls.protect)
      (sum : ∃ csum, icmpPseudoSum pkt p = .ok csum) (stop : i.stop = true ↔ calls.sendto = .error false)
      (grown : ctx'.sessions.length = ctx.sessions.length + 1)
      (key : (SessionData.icmp i).key = .icmp p.version p.saddr p.daddr)
      (added : ctx.table.Valid → ctx' = ctx.insert (.icmp i) calls.socket ⟨true, false⟩) :
      HandledIcmp ctx pkt p calls ctx' [.socket calls.socket, .sendtoIcmp ctx.next message dst]

theorem forwardIcmp_cases (ctx : Context) (id : Nat) (i : IcmpSession) (p : IpPacket) (message : Bytes)
    (calls : TunCalls) (running : i.stop = false) : ∃ i' : IcmpSession, i.Later i' ∧ i'.id = i.id ∧
      (i'.stop = true ↔ calls.sendto = .error false) ∧ forwardIcmp ctx id i p message calls =
      (ctx.update id (·.withIcmp i'), [.sendtoIcmp id message ⟨some p.daddr, 0⟩]) := by
  unfold forwardIcmp
  dsimp only
  split
  · rename_i h
    exact ⟨{ i with time := calls.now, stop := true }, ⟨rfl, rfl, rfl, fun _ => rfl⟩, rfl, iff_of_true rfl h, rfl⟩
  · rename_i h
    exact ⟨{ i with time := calls.now }, ⟨rfl, rfl, rfl, fun h => h⟩, rfl, iff_of_false (by simp [running]) h, rfl⟩

theorem handleIcmp_cases {pkt : TunPacket} {p : IpPacket} {uid : Int}
    (h : handleIcmp ctx pkt p uid calls = .ok (ctx', acts)) : HandledIcmp ctx pkt p calls ctx' acts := by
  obtain ⟨icmpType, htype, h⟩ := bind_eq_ok h
  split at h
  · rename_i hne
    cases h
    refine .ignored (fun heq => hne ?_) rfl
    cases htype.symm.trans heq
    rfl
  · rename_i heq
    have echo : load pkt.buffer p.payload = .ok 8 := by
      obtain rfl : icmpType = 8 := UInt8.toNat_inj.1 (not_not.1 heq)
      exact htype
    obtain ⟨id, -, h⟩ := bind_eq_ok h
    obtain ⟨csum, hsum, h⟩ := bind_eq_ok h
    obtain ⟨message, -, h⟩ := bind_eq_ok h
    dsimp only at h
    split at h
    -- the session that is found, or a new one, sends the message
    · rename_i sid i found
      obtain ⟨i', later, -, -, hforward⟩ := forwardIcmp_cases ctx sid i p
        (withIcmpId message (65535 - id) csum) calls (mem_of_findIcmp found).1.1
      rw [hforward] at h
      cases h
      exact .session found later rfl
    · rename_i found
      split at h
      · rename_i refused
        cases h
        exact .failed echo found refused rfl
      · rename_i hopen
        obtain ⟨rfl, rfl, opens⟩ := openProtected_some hopen
        obtain ⟨i', later, -, stop, hforward⟩ := forwardIcmp_cases
          (ctx.insert (.icmp (newIcmpSession p uid calls.now id)) calls.socket ⟨true, false⟩) ctx.next
          (newIcmpSession p uid calls.now id) p (withIcmpId message (65535 - id) csum) calls rfl
        rw [hforward] at h
        cases h
        have key : (SessionData.icmp i').key = .icmp p.version p.saddr p.daddr := by
          simp only [SessionData.key, later.version, later.saddr, later.daddr, newIcmpSession]
        exact .opened echo found opens ⟨_, hsum⟩ stop (length_insert_update ..) key fun hv => insert_update hv rfl

/-! ## Packets -/

/-- A packet with which `handle_ip` gets as far as the ports. -/
structure ReadsPacket (pkt : TunPacket) (p : IpPacket) (ports : Ports) : Prop where
  packet : parseIp pkt = .ok (some p)
  ports : readPorts pkt p = .ok (some ports)

theorem ReadsPacket.length_pos {pkt : TunPacket} {p : IpPacket} {ports : Ports} (h : ReadsPacket pkt p ports) :
    0 < pkt.length := by
  obtain ⟨first, -, hp⟩ := bind_eq_ok h.packet
  split at hp
  · unfold parseIp4 at hp
    split at hp
    · cases hp
    · omega
  · split at hp
    · unfold parseIp6 at hp
      split at hp
      · cases hp
      · omega
    · cases hp

/-- The SYN flag is read twice. -/
theorem syn_of_readPorts {pkt : TunPacket} {p : IpPacket} {ports : Ports} {h : TcpHeader}
    (protocol : p.protocol = IPPROTO_TCP) (hports : readPorts pkt p = .ok (some ports))
    (header : readTcpHeader pkt p.payload = .ok h) :
    ports.syn = h.syn := by
  have hicmp : ¬(p.protocol = IPPROTO_ICMP ∨ p.protocol = IPPROTO_ICMPV6) := by rw [protocol]; decide
  have hudp : p.protocol ≠ IPPROTO_UDP := by rw [protocol]; decide
  rw [readPorts, if_neg hicmp, if_neg hudp, if_pos protocol, tcpPorts] at hports
  split at hports
  · cases hports
  · obtain ⟨sport, -, hports⟩ := bind_eq_ok hports
    obtain ⟨dport, -, hports⟩ := bind_eq_ok hports
    obtain ⟨flags, hflags, hports⟩ := bind_eq_ok hports
    cases hports
    obtain ⟨seq, -, header⟩ := bind_eq_ok header
    obtain ⟨ackSeq, -, header⟩ := bind_eq_ok header
    obtain ⟨doff, -, header⟩ := bind_eq_ok header
    obtain ⟨flags', hflags', header⟩ := bind_eq_ok header
    obtain ⟨window, -, header⟩ := bind_eq_ok header
    cases hflags.symm.trans hflags'
    cases header
    rfl

theorem hostInfo_noHost {pkt : TunPacket} {p : IpPacket} {ports : Ports} (h : p.protocol ≠ IPPROTO_TCP) :
    hostInfo args ctx pkt p ports calls = .ok noHost := by
  simp only [hostInfo, sniInfo, bind, Except.bind, h, false_and, if_false]
  rfl

/-- The ways `handle_ip` ends. -/
inductive HandledIp (args : Arguments) (ctx : Context) (sessions : Int) (pkt : TunPacket) (calls : TunCalls)
    (ctx' : Context) : List Action → Prop
  | quiet {acts : List Action} (same : ctx' = ctx) (reports : ∀ a ∈ acts, a.IsReport) :
      HandledIp args ctx sessions pkt calls ctx' acts
  | icmp {p : IpPacket} {ports : Ports} {acts : List Action} (reads : ReadsPacket pkt p ports)
      (protocol : isIcmp p.protocol = true) (room : startsFlow args ctx p ports = true → sessions < args.maxsessions)
      (handled : HandledIcmp ctx pkt p calls ctx' acts) : HandledIp args ctx sessions pkt calls ctx' acts
  | udp {p : IpPacket} {ports : Ports} {v : Verdict} {acts : List Action} (reads : ReadsPacket pkt p ports)
      (protocol : p.protocol = IPPROTO_UDP) (room : startsFlow args ctx p ports = true → sessions < args.maxsessions)
      (judged : v = verdict args ctx p ports noHost (packetUid args ctx p ports noHost calls))
      (handled : HandledUdp args ctx (flowOf p ports) v.redirect (udpData pkt p) (pkt.rest (p.payload + 8)) calls
        ctx' acts) :
      HandledIp args ctx sessions pkt calls ctx' acts
  | tcp {p : IpPacket} {ports : Ports} {host : HostInfo} {uid : Int} {v : Verdict} {acts : List Action}
      (reads : ReadsPacket pkt p ports) (protocol : p.protocol = IPPROTO_TCP)
      (room : startsFlow args ctx p ports = true → sessions < args.maxsessions)
      (info : hostInfo args ctx pkt p ports calls = .ok host) (of_uid : uid = packetUid args ctx p ports host calls)
      (judged : v = verdict args ctx p ports host uid)
      (handled : HandledTcp ctx pkt p.payload (flowOf p ports) uid true v.redirect calls ctx' acts) :
      HandledIp args ctx sessions pkt calls ctx' (reportSni p host calls ++ acts)

theorem isReport_reportSni {p : IpPacket} {host : HostInfo} {calls : TunCalls} {a : Action}
    (h : a ∈ reportSni p host calls) : a.IsReport := by
  unfold reportSni at h
  split at h
  · exact ⟨_, List.mem_singleton.1 h⟩
  · cases h

theorem handleIp_cases {sessions : Int} {pkt : TunPacket}
    (h : handleIp args ctx sessions pkt calls = .ok (ctx', acts)) :
    HandledIp args ctx sessions pkt calls ctx' acts := by
  obtain ⟨packet, hp, h⟩ := bind_eq_ok h
  cases packet with
  | none => cases h; exact .quiet rfl (by simp)
  | some p =>
    obtain ⟨ports, hports, h⟩ := bind_eq_ok h
    cases ports with
    | none => cases h; exact .quiet rfl (by simp)
    | some ports =>
      have reads : ReadsPacket pkt p ports := ⟨hp, hports⟩
      dsimp only at h
      unfold handlePacket at h
      split at h
      · cases h; exact .quiet rfl (by simp)
      · rename_i hroom
        have room : startsFlow args ctx p ports = true → sessions < args.maxsessions := fun hs =>
          lt_of_not_ge fun hle => hroom ⟨hle, hs⟩
        obtain ⟨host, info, h⟩ := bind_eq_ok h
        obtain ⟨⟨ctx'', acts'⟩, hd, h⟩ := bind_eq_ok h
        obtain ⟨rfl, rfl⟩ := Prod.mk.inj (Except.ok.inj h)
        have quiet : ctx'' = ctx → acts' = [] →
            HandledIp args ctx sessions pkt calls ctx'' (reportSni p host calls ++ acts') := by
          rintro rfl rfl
          exact .quiet rfl fun a ha => isReport_reportSni (by simpa using ha)
        have noSni : p.protocol ≠ IPPROTO_TCP → host = noHost ∧ reportSni p host calls ++ acts' = acts' := by
          intro hne
          rw [hostInfo_noHost hne] at info
          cases info
          exact ⟨rfl, rfl⟩
        -- every packet is allowed, and only TCP has a server name to report
        rw [dispatch, if_pos (verdict_allowed ..)] at hd
        split at hd
        · rename_i protocol
          have hne : p.protocol ≠ IPPROTO_TCP := by rintro heq; rw [heq] at protocol; cases protocol
          rw [(noSni hne).2]
          exact .icmp reads protocol room (handleIcmp_cases hd)
        · split at hd
          · rename_i protocol
            have hne : p.protocol ≠ IPPROTO_TCP := by rw [protocol]; decide
            obtain ⟨rfl, hacts⟩ := noSni hne
            rw [hacts]
            exact .udp reads protocol room rfl (handleUdp_cases hd)
          · split at hd
            · rename_i protocol
              exact .tcp reads protocol room info rfl rfl (handleTcp_cases hd)
            · cases hd; exact quiet rfl rfl

/-! ## Tables -/

/-- A table in which a session at the next address is new. -/
structure Context.Added (ctx ctx' : Context) (data : SessionData) : Prop where
  sessions : ∃ socket ev, ctx'.sessions = ⟨ctx.next, data, socket, ev⟩ :: ctx.sessions
  next : ctx'.next = ctx.next + 1

theorem Context.Added.insert (ctx : Context) (data : SessionData) (socket : Int) (ev : PollEvents) :
    ctx.Added (ctx.insert data socket ev) data := ⟨⟨socket, ev, rfl⟩, rfl⟩

theorem Context.Added.of_eq {data : SessionData} {socket : Int} {ev : PollEvents}
    (h : ctx' = ctx.insert data socket ev) : ctx.Added ctx' data := h ▸ .insert ctx data socket ev

theorem Context.Added.advance {data : SessionData} (h : ctx.Added ctx' data) : Advance ctx.table ctx'.table := by
  obtain ⟨socket, ev, hs⟩ := h.sessions
  refine .add data.key.lasting ?_ ?_
  · simp only [Context.table, hs, List.map_cons]
    rfl
  · simp only [Context.table, h.next]
    exact Nat.lt_succ_self _

theorem HandledIcmp.later_or_added {pkt : TunPacket} {p : IpPacket} (h : HandledIcmp ctx pkt p calls ctx' acts)
    (hv : ctx.table.Valid) :
    ctx.Later ctx' ∨ ctx.findIcmp p = none ∧ ∃ i, (SessionData.icmp i).key = .icmp p.version p.saddr p.daddr ∧
      ctx.Added ctx' (.icmp i) := by
  cases h with
  | ignored _ same => exact .inl (same ▸ .refl ctx)
  | session found later changed =>
    obtain ⟨-, s, hs, rfl, hdata⟩ := mem_of_findIcmp found
    exact .inl (changed ▸ later_update hv hs (NgSession.later_withIcmp hdata later))
  | failed _ _ _ same => exact .inl (same ▸ .discard ctx)
  | opened _ found _ _ _ _ key added => exact .inr ⟨found, _, key, added hv ▸ .insert ..⟩

/-- A session whose request was answered has another flow. -/
theorem NgSession.kept_withUdp {s : NgSession} {u u' : UdpSession} (hs : s.data = .udp u)
    (hkey : (Key.udp u'.flow).lasting = (Key.udp u.flow).lasting) (active : u.state = .active) :
    s.Kept (s.withUdp u') where
  entry := by
    simp only [entry, withUdp, hs, SessionData.key, hkey]
  active _ := by
    simp only [isActive, hs, active, decide_true]

theorem HandledUdp.kept_or_added {flow : Flow} {redirect : Option Allowed} {data : Bytes} {datalen : Nat}
    (h : HandledUdp args ctx flow redirect data datalen calls ctx' acts) (hv : ctx.table.Valid) :
    ctx.Kept ctx' ∨ ctx.findUdp flow = none ∧
      ∃ u : UdpSession, (u.flow = flow ∨ u.flow = flow.leased) ∧ ctx.Added ctx' (.udp u) := by
  cases h with
  | ignored _ _ same => exact .inl (same ▸ (Context.Later.refl ctx).kept)
  | session found state dealt _ changed =>
    obtain ⟨hflow, s, hs, rfl, hdata⟩ := mem_of_findUdp found
    have hkey := dealt.lasting
    rw [← hflow] at hkey
    exact .inl (changed ▸ follows_update hv hs (NgSession.kept_withUdp hdata hkey state)
      fun s => (NgSession.Later.refl s).kept)
  | failed _ _ same => exact .inl (same ▸ (Context.Later.discard ctx).kept)
  | opened found _ dealt _ _ _ added =>
    exact .inr ⟨found, _, dealt.flow, added hv ▸ .insert ..⟩

theorem HandledTcp.later_or_added {pkt : TunPacket} {payload : Nat} {flow : Flow} {uid : Int} {allowed : Bool}
    {redirect : Option Allowed}
    (h : HandledTcp ctx pkt payload flow uid allowed redirect calls ctx' acts) (hv : ctx.table.Valid) :
    ctx.Later ctx' ∨ ctx.findTcp flow = none ∧ ∃ t : TcpSession, t.flow = flow ∧ t.uid = uid ∧
      ctx.Added ctx' (.tcp t) := by
  cases h with
  | ignored _ _ same => exact .inl (same ▸ .refl ctx)
  | unknown _ _ _ same => exact .inl (same ▸ .refl ctx)
  | session found _ _ changed =>
    obtain ⟨-, hs, hdata⟩ := mem_of_findTcp found
    exact .inl (changed ▸ later_update hv hs (NgSession.later_withTcp hdata (later_segmentResult ..)))
  | failed _ _ _ _ _ same => exact .inl (same ▸ .discard ctx)
  | opened found _ _ _ _ later _ _ _ added => exact .inr ⟨found, _, later.flow, later.uid, added ▸ .insert ..⟩

/-- A table after a packet has its sessions, or one session more. -/
theorem HandledIp.advance {sessions : Int} {pkt : TunPacket} (h : HandledIp args ctx sessions pkt calls ctx' acts)
    (hv : ctx.table.Valid) : Advance ctx.table ctx'.table := by
  cases h with
  | quiet same _ => exact same ▸ .of_eq rfl (Nat.le_refl _)
  | icmp _ _ _ handled =>
    rcases handled.later_or_added hv with h | ⟨-, i, -, h⟩
    · exact h.advance
    · exact h.advance
  | udp _ _ _ _ handled =>
    rcases handled.kept_or_added hv with h | ⟨-, u, -, h⟩
    · exact h.advance
    · exact h.advance
  | tcp _ _ _ _ _ _ handled =>
    rcases handled.later_or_added hv with h | ⟨-, t, -, -, h⟩
    · exact h.advance
    · exact h.advance

/-! ## Events -/

theorem later_loopTurn (calls : LoopCalls) : ctx.Later (loopTurn args ctx calls).1 := by
  have hmonitor := Context.Later.eachSession (f := fun s => keep (monitorSession calls.monitor s))
    (fun h => by cases h; exact .monitorSession calls.monitor _) ctx
  unfold loopTurn
  dsimp only
  split
  · exact hmonitor.trans (.eachSession .checkSession _)
  · exact hmonitor

/-- The event of a socket is one of the session that has it, or of none. -/
theorem handleSocket_cases {id : Nat} {calls : SocketCalls} {r : Context × List Output}
    (h : handleSocket args ctx id calls = .ok r) :
    r = (ctx, []) ∨ ∃ s ∈ ctx.sessions, s.id = id ∧ 0 ≤ s.socket ∧
      ∃ r', socketEvent args s calls = .ok r' ∧ r = (ctx.update s.id fun _ => r'.1, r'.2) := by
  unfold handleSocket at h
  split at h
  · cases h
    exact .inl rfl
  · rename_i s hfind
    obtain ⟨r', hr', h⟩ := bind_eq_ok h
    cases h
    have hfound := List.find?_some hfind
    simp only [Bool.and_eq_true, decide_eq_true_eq] at hfound
    obtain ⟨rfl, hsocket⟩ := hfound
    exact .inr ⟨s, List.mem_of_find?_eq_some hfind, rfl, hsocket, r', hr', rfl⟩

theorem later_handleSocket {id : Nat} {calls : SocketCalls} {r : Context × List Output} (hv : ctx.table.Valid)
    (h : handleSocket args ctx id calls = .ok r) : ctx.Later r.1 := by
  rcases handleSocket_cases h with rfl | ⟨s, hs, -, -, r', hr', rfl⟩
  · exact .refl ctx
  · exact later_update hv hs (.socketEvent hr')

/-- An event is a packet that is handled, or changes no more than sessions that are there. -/
theorem Engine.step_cases {e e' : Engine} {event : Event} (hv : e.ctx.table.Valid)
    (h : e.step args event = .ok (e', acts)) :
    (∃ pkt calls, event = .tun pkt calls ∧ e'.sessions = e.sessions ∧
      HandledIp args e.ctx e.sessions (pkt.take getMtu) calls e'.ctx acts) ∨
      (∀ a ∈ acts, a.IsOutput) ∧ e.ctx.Later e'.ctx := by
  have outputs : ∀ os : List Output, ∀ a ∈ os.map Action.output, a.IsOutput := fun os a ha => by
    obtain ⟨o, -, rfl⟩ := List.mem_map.1 ha
    exact ⟨o, rfl⟩
  cases event with
  | loop calls =>
    cases h
    exact .inr ⟨outputs _, later_loopTurn calls⟩
  | tun pkt calls =>
    simp only [Engine.step] at h
    split at h
    · cases h
      exact .inr ⟨by simp, .refl _⟩
    · obtain ⟨⟨ctx', acts'⟩, hip, h⟩ := bind_eq_ok h
      cases h
      exact .inl ⟨pkt, calls, rfl, rfl, handleIp_cases hip⟩
  | socket id calls =>
    obtain ⟨⟨ctx', os⟩, hsocket, h⟩ := bind_eq_ok h
    cases h
    exact .inr ⟨outputs _, later_handleSocket hv hsocket⟩
  | checkAllowed =>
    cases h
    exact .inr ⟨outputs _, .eachSession .checkAllowed _⟩
  | clear =>
    cases h
    exact .inr ⟨outputs _, .eachSession (fun h => by cases h) _⟩

theorem Engine.step_advance {e e' : Engine} {event : Event} (hv : e.ctx.table.Valid)
    (h : e.step args event = .ok (e', acts)) : Advance e.ctx.table e'.ctx.table := by
  rcases Engine.step_cases hv h with ⟨pkt, calls, -, -, handled⟩ | ⟨-, later⟩
  · exact handled.advance hv
  · exact later.advance

end SunProxy.Net
