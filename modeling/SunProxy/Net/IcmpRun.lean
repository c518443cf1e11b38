/-
Which identifier a ping gets back. A session is found by its addresses alone and keeps the identifier of
the request that opened it, so the answers are right as long as no session gets a request with another one.
-/
import SunProxy.Net.IcmpWire
import SunProxy.Net.UdpRun

namespace SunProxy.Net

open SunProxy.Buffer SunProxy.Result SunProxy.Run SunProxy.Table

variable {args : Arguments} {ctx ctx' : Context} {acts : List Action} {calls : TunCalls} {sessions : Int}
  {pkt : TunPacket}

/-! ## Sessions that stay -/

theorem IcmpSession.Later.wellFormed {i i' : IcmpSession} (h : i.Later i') (hi : i.WellFormed) : i'.WellFormed := by
  unfold IcmpSession.WellFormed
  rw [h.version, h.saddr, h.daddr]
  exact hi

theorem id_checkIcmpSocket (i : IcmpSession) (calls : SocketCalls) : (checkIcmpSocket i calls).1.id = i.id := by
  unfold checkIcmpSocket
  dsimp only
  split
  · rfl
  · split
    · split
      · split <;> rfl
      · split
        · rfl
        · split <;> rfl
    · rfl

/-- `s'` is the session `s`; if that is an ICMP session, with its identifier. -/
structure NgSession.Keeps (s s' : NgSession) : Prop where
  id : s'.id = s.id
  icmp : ∀ i, s.data = .icmp i → ∃ i', s'.data = .icmp i' ∧ i.Later i' ∧ i'.id = i.id

namespace NgSession.Keeps

theorem refl (s : NgSession) : s.Keeps s := ⟨rfl, fun i hi => ⟨i, hi, ⟨rfl, rfl, rfl, fun h => h⟩, rfl⟩⟩

theorem withIcmp {s : NgSession} {i i' : IcmpSession} (hs : s.data = .icmp i) (later : i.Later i')
    (hid : i'.id = i.id) :
    s.Keeps (s.withIcmp i') where
  id := rfl
  icmp j hj := by
    obtain rfl : i = j := SessionData.icmp.inj (hs.symm.trans hj)
    exact ⟨i', rfl, later, hid⟩

/-- Of other sessions nothing more is asked. -/
theorem of_id {s s' : NgSession} (h : s'.id = s.id) (hs : ∀ i, s.data ≠ .icmp i) : s.Keeps s' :=
  ⟨h, fun i hi => absurd hi (hs i)⟩

theorem of_later {s s' : NgSession} (h : s.Later s') (hs : ∀ i, s.data ≠ .icmp i) : s.Keeps s' := of_id h.id hs

theorem monitorSession (calls : Nat → MonitorCalls) (s : NgSession) : s.Keeps (monitorSession calls s).1 := by
  cases hs : s.data with
  | icmp i =>
    simp only [Net.monitorSession, hs]
    exact refl s
  | udp | tcp => exact of_later (.monitorSession calls s) (by simp [hs])

theorem checkSession {count maxsessions now : Int} {s s' : NgSession}
    (h : (checkSession count maxsessions now s).1 = some s') : s.Keeps s' := by
  cases hs : s.data with
  | icmp i =>
    simp only [Net.checkSession, hs, checkIcmpSession] at h
    split at h <;> cases h
    exact refl s
  | udp | tcp => exact of_later (.checkSession h) (by simp [hs])

theorem checkAllowed {s s' : NgSession} (h : (checkAllowed args s).1 = some s') : s.Keeps s' := by
  cases hs : s.data with
  | icmp i =>
    simp only [Net.checkAllowed, hs] at h
    split at h <;> cases h
    · exact withIcmp hs ⟨rfl, rfl, rfl, fun _ => rfl⟩ rfl
    · exact refl s
  | udp | tcp => exact of_later (.checkAllowed h) (by simp [hs])

theorem socketEvent {s : NgSession} {calls : SocketCalls} {r : NgSession × List Output}
    (h : socketEvent args s calls = .ok r) : s.Keeps r.1 := by
  cases hs : s.data with
  | icmp i =>
    simp only [Net.socketEvent, hs] at h
    cases h
    exact withIcmp hs (.checkIcmpSocket i calls) (id_checkIcmpSocket i calls)
  | udp | tcp => exact of_later (.socketEvent h) (by simp [hs])

theorem trans {a b c : NgSession} (h : a.Keeps b) (h' : b.Keeps c) : a.Keeps c where
  id := h'.id.trans h.id
  icmp i hi := by
    obtain ⟨j, hj, hl, hid⟩ := h.icmp i hi
    obtain ⟨k, hk, hl', hid'⟩ := h'.icmp j hj
    refine ⟨k, hk, ⟨hl'.version.trans hl.version, hl'.saddr.trans hl.saddr, hl'.daddr.trans hl.daddr, fun hstop => ?_⟩,
      hid'.trans hid⟩
    exact hl'.stop (hl.stop hstop)

end NgSession.Keeps

/-- Every session of `ctx'` is one of `ctx`, or at the next address. -/
def Context.Keeps (ctx ctx' : Context) : Prop :=
  ∀ s' ∈ ctx'.sessions, s'.id = ctx.next ∨ ∃ s ∈ ctx.sessions, s.Keeps s'

namespace Context.Keeps

theorem of_sessions (h : ctx'.sessions = ctx.sessions) : ctx.Keeps ctx' := by
  intro s hs
  rw [h] at hs
  exact .inr ⟨s, hs, .refl s⟩

theorem eachSession {f : NgSession → Option NgSession × List Output} (hf : ∀ {s s'}, (f s).1 = some s' → s.Keeps s')
    (ctx : Context) : ctx.Keeps { ctx with sessions := (eachSession f ctx.sessions).1 } := by
  intro s' hs'
  obtain ⟨s, hs, h⟩ := List.mem_filterMap.1 hs'
  exact .inr ⟨s, hs, hf h⟩

theorem update (hv : ctx.table.Valid) {s : NgSession} (hs : s ∈ ctx.sessions) {f : NgSession → NgSession}
    (hf : s.Keeps (f s)) : ctx.Keeps (ctx.update s.id f) := by
  intro s' hs'
  obtain ⟨r, hr, rfl⟩ := List.mem_map.1 hs'
  refine .inr ⟨r, hr, ?_⟩
  split
  · rename_i hid
    rw [eq_of_id_eq hv hr hs hid]
    exact hf
  · exact .refl r

theorem added {data : SessionData} (h : ctx.Added ctx' data) : ctx.Keeps ctx' := by
  obtain ⟨socket, ev, hsessions⟩ := h.sessions
  intro s hs
  rw [hsessions] at hs
  rcases List.mem_cons.1 hs with rfl | hs
  · exact .inl rfl
  · exact .inr ⟨s, hs, .refl s⟩

theorem loopTurn (calls : LoopCalls) : ctx.Keeps (loopTurn args ctx calls).1 := by
  have hmonitor : ∀ s' ∈ (Net.eachSession (fun s => keep (monitorSession calls.monitor s)) ctx.sessions).1,
      ∃ s ∈ ctx.sessions, s.Keeps s' := by
    intro s' hs'
    obtain ⟨s, hs, h⟩ := List.mem_filterMap.1 hs'
    cases h
    exact ⟨s, hs, .monitorSession calls.monitor s⟩
  unfold Net.loopTurn
  dsimp only
  split
  · intro s' hs'
    obtain ⟨r, hr, h⟩ := List.mem_filterMap.1 hs'
    obtain ⟨s, hs, hkeeps⟩ := hmonitor r hr
    exact .inr ⟨s, hs, hkeeps.trans (.checkSession h)⟩
  · exact fun s' hs' => .inr (hmonitor s' hs')

theorem handleSocket {id : Nat} {calls : SocketCalls} {r : Context × List Output} (hv : ctx.table.Valid)
    (h : handleSocket args ctx id calls = .ok r) : ctx.Keeps r.1 := by
  rcases handleSocket_cases h with rfl | ⟨s, hs, -, -, r', hr', rfl⟩
  · exact of_sessions rfl
  · exact update hv hs (.socketEvent hr')

end Context.Keeps

/-! ## Requests -/

/-- A message on the socket of an ICMP session. -/
def Action.IsEcho : Action → Prop
  | .sendtoIcmp .. => True
  | _ => False

theorem Action.IsOutput.not_isEcho {a : Action} (h : a.IsOutput) : ¬ a.IsEcho := by
  obtain ⟨o, rfl⟩ := h
  exact id

theorem Action.IsSocket.not_isEcho {a : Action} (h : a.IsSocket) : ¬ a.IsEcho := by
  obtain ⟨fd, rfl⟩ := h
  exact id

theorem Dealt.not_isEcho {malloc : Nat → UInt8} {flow flow' : Flow} {data : Bytes} {datalen id : Nat}
    {redirect : Option Allowed} (h : Dealt args malloc flow data datalen id redirect flow' acts) :
    ∀ a ∈ acts, ¬ a.IsEcho := by
  cases h with
  | answered | leased | forwarded => simp [Action.IsEcho]
  | dhcp | refused => simp

/-- How `handle_icmp` leaves the identifiers alone: it sends nothing; or it sends a request for a session that is
there, or for a new one that has the identifier of the request. -/
inductive HandledEcho (ctx : Context) (pkt : TunPacket) (p : IpPacket) (ctx' : Context) : List Action → Prop
  | quiet {acts : List Action} (silent : ∀ a ∈ acts, ¬ a.IsEcho) (keeps : ctx.Keeps ctx') :
      HandledEcho ctx pkt p ctx' acts
  | known {sid id : Nat} {i : IcmpSession} {message : Bytes} {dst : Endpoint}
      (echo : load pkt.buffer p.payload = .ok 8) (reads : loadBe16 pkt.buffer (p.payload + 4) = .ok id)
      (found : ctx.findIcmp p = some (sid, i)) (keeps : ctx.Keeps ctx') :
      HandledEcho ctx pkt p ctx' [.sendtoIcmp sid message dst]
  | opened {i : IcmpSession} {socket : Int} {ev : PollEvents} {message : Bytes} {dst : Endpoint}
      (reads : loadBe16 pkt.buffer (p.payload + 4) = .ok i.id)
      (flow : i.version = p.version ∧ i.saddr = p.saddr ∧ i.daddr = p.daddr)
      (added : ctx' = ctx.insert (.icmp i) socket ev) :
      HandledEcho ctx pkt p ctx' [.socket socket, .sendtoIcmp ctx.next message dst]

theorem handleIcmp_echo {p : IpPacket} {uid : Int} (hv : ctx.table.Valid)
    (h : handleIcmp ctx pkt p uid calls = .ok (ctx', acts)) : HandledEcho ctx pkt p ctx' acts := by
  obtain ⟨icmpType, htype, h⟩ := bind_eq_ok h
  split at h
  · cases h
    exact .quiet (by simp) (.of_sessions rfl)
  · rename_i heq
    have echo : load pkt.buffer p.payload = .ok 8 := by
      obtain rfl : icmpType = 8 := UInt8.toNat_inj.1 (not_not.1 heq)
      exact htype
    obtain ⟨id, reads, h⟩ := bind_eq_ok h
    obtain ⟨csum, -, h⟩ := bind_eq_ok h
    obtain ⟨message, -, h⟩ := bind_eq_ok h
    dsimp only at h
    split at h
    · -- the identifier of the request is sent, but not stored
      rename_i sid i found
      obtain ⟨⟨running, -⟩, s, hs, rfl, hdata⟩ := mem_of_findIcmp found
      obtain ⟨i', later, hid, -, hforward⟩ := forwardIcmp_cases ctx s.id i p
        (withIcmpId message (65535 - id) csum) calls running
      rw [hforward] at h
      cases h
      exact .known echo reads found (.update hv hs (.withIcmp hdata later hid))
    · split at h
      · rename_i refused
        cases h
        exact .quiet (fun a ha => (openProtected_none refused a ha).not_isEcho) (.of_sessions rfl)
      · rename_i hopen
        obtain ⟨rfl, rfl, -⟩ := openProtected_some hopen
        obtain ⟨i', later, rfl, -, hforward⟩ := forwardIcmp_cases
          (ctx.insert (.icmp (newIcmpSession p uid calls.now id)) calls.socket ⟨true, false⟩) ctx.next
          (newIcmpSession p uid calls.now id) p (withIcmpId message (65535 - id) csum) calls rfl
        rw [hforward] at h
        cases h
        exact .opened reads ⟨later.version, later.saddr, later.daddr⟩ (insert_update hv rfl)

theorem handleIp_icmp {p : IpPacket} {ports : Ports} (reads : ReadsPacket pkt p ports)
    (protocol : isIcmp p.protocol = true) (room : startsFlow args ctx p ports = true → sessions < args.maxsessions) :
    handleIp args ctx sessions pkt calls = handleIcmp ctx pkt p (packetUid args ctx p ports noHost calls) calls := by
  have htcp : p.protocol ≠ IPPROTO_TCP := by
    rintro heq
    rw [heq] at protocol
    cases protocol
  rw [handleIp_noHost reads htcp room, dispatch, if_pos (verdict_allowed ..), if_pos protocol]

theorem HandledUdp.silent {flow : Flow} {redirect : Option Allowed} {data : Bytes} {datalen : Nat}
    (hv : ctx.table.Valid) (h : HandledUdp args ctx flow redirect data datalen calls ctx' acts) :
    (∀ a ∈ acts, ¬ a.IsEcho) ∧ ctx.Keeps ctx' := by
  cases h with
  | ignored _ _ same => exact ⟨by simp, .of_sessions (by rw [same])⟩
  | session found _ dealt _ changed =>
    obtain ⟨-, s, hs, rfl, hdata⟩ := mem_of_findUdp found
    exact ⟨dealt.not_isEcho, changed ▸ .update hv hs (.of_id rfl (by simp [hdata]))⟩
  | failed _ refused same =>
    exact ⟨fun a ha => (openProtected_none (openUdpSocket_none refused) a ha).not_isEcho,
      .of_sessions (by rw [same]; rfl)⟩
  | opened _ _ dealt _ _ _ added =>
    refine ⟨fun a ha => ?_, .added (.of_eq (added hv))⟩
    simp only [List.mem_cons] at ha
    rcases ha with rfl | rfl | ha
    · exact id
    · exact id
    · exact dealt.not_isEcho a ha

theorem HandledTcp.silent {payload : Nat} {flow : Flow} {uid : Int} {allowed : Bool} {redirect : Option Allowed}
    (hv : ctx.table.Valid) (h : HandledTcp ctx pkt payload flow uid allowed redirect calls ctx' acts) :
    (∀ a ∈ acts, ¬ a.IsEcho) ∧ ctx.Keeps ctx' := by
  cases h with
  | ignored _ _ same => exact ⟨by simp, .of_sessions (by rw [same])⟩
  | unknown _ _ _ same => exact ⟨by simp [Action.IsEcho], .of_sessions (by rw [same])⟩
  | @session s t h data found _ _ changed =>
    obtain ⟨-, hs, hdata⟩ := mem_of_findTcp found
    constructor
    · intro a ha
      obtain ⟨o, -, rfl⟩ := List.mem_map.1 ha
      exact id
    · refine changed ▸ .update hv hs
        (.of_later (NgSession.later_withTcp hdata (later_segmentResult t s.socket h data calls)) ?_)
      simp [hdata]
  | failed _ _ _ _ refused same =>
    refine ⟨fun a ha => ?_, .of_sessions (by rw [same]; rfl)⟩
    rcases mem_openTcpSocket_none refused a ha with h | rfl
    · exact h.not_isEcho
    · exact id
  | opened _ _ _ _ _ _ _ _ outputs added =>
    refine ⟨fun a ha => ?_, .added (.of_eq added)⟩
    simp only [List.mem_cons] at ha
    rcases ha with rfl | rfl | ha
    · exact id
    · exact id
    · exact (outputs a ha).not_isEcho

/-- An event that sends an echo request is its packet; all others only keep the sessions. -/
inductive Engine.EchoStep (e e' : Engine) (event : Event) (acts : List Action) : Prop
  | quiet (silent : ∀ a ∈ acts, ¬ a.IsEcho) (keeps : e.ctx.Keeps e'.ctx)
  | request {pkt : TunPacket} {calls : TunCalls} {p : IpPacket} (packet : event = .tun pkt calls)
      (parses : parseIp (pkt.take getMtu) = .ok (some p)) (protocol : isIcmp p.protocol = true)
      (handled : HandledEcho e.ctx (pkt.take getMtu) p e'.ctx acts)

theorem HandledEcho.keeps {p : IpPacket} (h : HandledEcho ctx pkt p ctx' acts) : ctx.Keeps ctx' := by
  cases h with
  | quiet _ keeps => exact keeps
  | known _ _ _ keeps => exact keeps
  | opened _ _ added => exact .added (.of_eq added)

theorem Engine.EchoStep.keeps {e e' : Engine} {event : Event} (h : e.EchoStep e' event acts) : e.ctx.Keeps e'.ctx := by
  cases h with
  | quiet _ keeps => exact keeps
  | request _ _ _ handled => exact handled.keeps

theorem Engine.step_echo {e e' : Engine} {event : Event} (hv : e.ctx.table.Valid)
    (h : e.step args event = .ok (e', acts)) : e.EchoStep e' event acts := by
  have outputs : ∀ os : List Output, ∀ a ∈ os.map Action.output, ¬ a.IsEcho := fun os a ha => by
    obtain ⟨o, -, rfl⟩ := List.mem_map.1 ha
    exact id
  cases event with
  | loop calls =>
    cases h
    exact .quiet (outputs _) (.loopTurn calls)
  | tun pkt calls =>
    simp only [Engine.step] at h
    split at h
    · cases h
      exact .quiet (by simp) (.of_sessions rfl)
    · obtain ⟨⟨ctx', acts'⟩, hip, h⟩ := bind_eq_ok h
      cases h
      cases handleIp_cases hip with
      | quiet same reports =>
        exact .quiet (fun a ha => (reports a ha).isOutput.not_isEcho) (.of_sessions (by rw [same]))
      -- only `handle_icmp` sends echo requests
      | icmp reads protocol room _ =>
        rw [handleIp_icmp reads protocol room] at hip
        exact .request rfl reads.packet protocol (handleIcmp_echo hv hip)
      | udp _ _ _ _ handled =>
        obtain ⟨silent, keeps⟩ := handled.silent hv
        exact .quiet silent keeps
      | tcp _ _ _ _ _ _ handled =>
        obtain ⟨silent, keeps⟩ := handled.silent hv
        refine .quiet (fun a ha => ?_) keeps
        rcases List.mem_append.1 ha with ha | ha
        · exact (isReport_reportSni ha).isOutput.not_isEcho
        · exact silent a ha
  | socket id calls =>
    obtain ⟨⟨ctx', os⟩, hsocket, h⟩ := bind_eq_ok h
    cases h
    exact .quiet (outputs _) (.handleSocket hv hsocket)
  | checkAllowed =>
    cases h
    exact .quiet (outputs _) (.eachSession .checkAllowed _)
  | clear =>
    cases h
    exact .quiet (outputs _) (.eachSession (fun h => by cases h) _)

/-! ## Runs -/

/-- `message` was sent on the socket of the session at `sid` for the packet `pkt`. -/
def Requested (past : List (Event × List Action)) (sid : Nat) (pkt : TunPacket) (message : Bytes) : Prop :=
  ∃ calls acts dst, (.tun pkt calls, acts) ∈ past ∧ .sendtoIcmp sid message dst ∈ acts

theorem requested_cons {past : List (Event × List Action)} {event : Event} {sid : Nat} {message : Bytes}
    (h : Requested ((event, acts) :: past) sid pkt message) :
    Requested past sid pkt message ∨ ∃ calls dst, event = .tun pkt calls ∧ .sendtoIcmp sid message dst ∈ acts := by
  obtain ⟨calls, acts', dst, hpast, hsent⟩ := h
  rcases List.mem_cons.1 hpast with heq | hpast
  · obtain ⟨rfl, rfl⟩ := Prod.mk.inj heq
    exact .inr ⟨calls, dst, rfl, hsent⟩
  · exact .inl ⟨calls, acts', dst, hpast, hsent⟩

/-- An echo reply has the sequence number and the data of its request; the identifiers are the kernel's. -/
structure Replies (message reply : Bytes) : Prop where
  header : 8 ≤ reply.length
  rest : reply.drop 6 = message.drop 6

/-- Every reply that went to the tun has the identifier of the request it answers. -/
def Trace.CarriesIdentifiers (t : Trace) : Prop :=
  ∀ after before sid calls acts, t.past = after ++ (.socket sid calls, acts) :: before →
    ∀ pkt message reply (packet : Bytes), Requested before sid pkt message → calls.recv = .data reply →
      Replies message reply → .output (.tunWrite packet) ∈ acts → identifier packet = identifier (pkt.take getMtu)

/-- The session that is there for an echo request. -/
def Context.echoSession (ctx : Context) (pkt : TunPacket) : Option IcmpSession :=
  match parseIp pkt with
  | .ok (some p) =>
    if isIcmp p.protocol = true ∧ load pkt.buffer p.payload = .ok 8 then (ctx.findIcmp p).map (·.2) else none
  | _ => none

/-- An echo request for a session that is there has the identifier of the session. -/
def Trace.SharesIdentifier (t : Trace) : Event → Prop
  | .tun pkt _ => ∀ i ∈ t.engine.ctx.echoSession (pkt.take getMtu), identifier (pkt.take getMtu) = some i.id
  | _ => True

instance (t : Trace) : (event : Event) → Decidable (t.SharesIdentifier event)
  | .tun pkt _ => inferInstanceAs (Decidable (∀ i ∈ t.engine.ctx.echoSession (pkt.take getMtu), _ = some i.id))
  | .loop _ | .socket .. | .checkAllowed | .clear => isTrue trivial

theorem identifier_lt {id : Nat} (h : identifier pkt = some id) : id < 65536 := by
  unfold identifier at h
  split at h
  · split at h
    · unfold Except.toOption at h
      split at h <;> cases h
      rename_i hid
      exact lt_of_loadBe16 hid
    · cases h
  · cases h

/-- What a socket event of an ICMP session writes to the tun. -/
theorem Engine.tunWrite_of_socket {e e' : Engine} {sid : Nat} {calls : SocketCalls} {reply packet : Bytes}
    (h : e.step args (.socket sid calls) = .ok (e', acts)) (hreply : calls.recv = .data reply)
    (hwrite : .output (.tunWrite packet) ∈ acts) : ∃ s ∈ e.ctx.sessions, s.id = sid ∧ ∀ i, s.data = .icmp i →
      packet = icmpPacket i (icmpAnswer i (reply.take (if i.version = 4 then ICMP4_MAXMSG else ICMP6_MAXMSG))) := by
  obtain ⟨⟨ctx', os⟩, hsocket, h⟩ := bind_eq_ok h
  cases h
  obtain ⟨o, ho, heq⟩ := List.mem_map.1 hwrite
  cases heq
  rcases handleSocket_cases hsocket with heq | ⟨s, hs, hid, -, r, hr, heq⟩
  · cases heq
    cases ho
  · cases heq
    refine ⟨s, hs, hid, fun i hi => ?_⟩
    simp only [socketEvent, hi] at hr
    cases hr
    unfold checkIcmpSocket at ho
    simp only [hreply] at ho
    split at ho
    · cases ho
    · split at ho
      · split at ho
        · cases ho
        · -- The packet is made of what the clock and a failed write leave alone.
          have hpacket := Output.tunWrite.inj (List.mem_singleton.1 ho)
          split at hpacket <;> exact hpacket
      · cases ho

/-- Sessions are at addresses given once. -/
structure Trace.EchoInv (t : Trace) : Prop where
  valid : t.engine.ctx.table.Valid
  requested : ∀ {sid pkt message}, Requested t.past sid pkt message → sid < t.engine.ctx.next

theorem Trace.echoInv_init : Trace.init.EchoInv where
  valid := ⟨.nil, nofun⟩
  requested := by
    rintro sid pkt message ⟨calls, acts, dst, hpast, -⟩
    cases hpast

theorem Trace.EchoInv.step {t t' : Trace} {event : Event} (h : t.EchoInv) (hs : t.step args event = .ok t') :
    t'.EchoInv := by
  obtain ⟨e, acts, he, rfl⟩ := Trace.step_cases hs
  have hadvance := Engine.step_advance h.valid he
  refine ⟨hadvance.valid h.valid, fun hreq => ?_⟩
  rcases requested_cons hreq with hreq | ⟨calls, dst, rfl, hsent⟩
  · exact Nat.lt_of_lt_of_le (h.requested hreq) hadvance.le
  · cases Engine.step_echo h.valid he with
    | quiet silent _ => exact absurd trivial (silent _ hsent)
    | request _ _ _ handled =>
      cases handled with
      | quiet silent _ => exact absurd trivial (silent _ hsent)
      | known _ _ found _ =>
        obtain ⟨-, s, hmem, rfl, -⟩ := mem_of_findIcmp found
        obtain ⟨rfl, -, -⟩ := Action.sendtoIcmp.inj (List.mem_singleton.1 hsent)
        exact Nat.lt_of_lt_of_le (h.valid.fresh s.entry (List.mem_map_of_mem hmem)) hadvance.le
      | opened _ _ added =>
        simp only [List.mem_cons, reduceCtorEq, Action.sendtoIcmp.injEq, List.not_mem_nil, or_false, false_or] at hsent
        rw [hsent.1, added]
        exact Nat.lt_succ_self _

/-- All requests for a session that is there have its identifier, and all replies have been right. -/
structure Trace.EchoRight (t : Trace) : Prop where
  sessions : ∀ s ∈ t.engine.ctx.sessions, ∀ pkt message, Requested t.past s.id pkt message →
    ∃ i, s.data = .icmp i ∧ i.WellFormed ∧ identifier (pkt.take getMtu) = some i.id
  replies : t.CarriesIdentifiers

theorem Trace.echoRight_init : Trace.init.EchoRight where
  sessions := by simp [Trace.init]
  replies := by
    intro after before sid calls acts hpast
    simp [Trace.init] at hpast

/-- What was right of a session stays right while it is kept. -/
theorem Trace.EchoRight.kept {t : Trace} (hinv : t.EchoInv) (h : t.EchoRight) (hkeeps : t.engine.ctx.Keeps ctx')
    {s' : NgSession} (hs' : s' ∈ ctx'.sessions) {message : Bytes} (hreq : Requested t.past s'.id pkt message) :
    ∃ i, s'.data = .icmp i ∧ i.WellFormed ∧ identifier (pkt.take getMtu) = some i.id := by
  rcases hkeeps s' hs' with hnext | ⟨s, hs, hkept⟩
  · -- the address was not given before, so no request was sent for it
    exact absurd (hinv.requested hreq) (by omega)
  · rw [hkept.id] at hreq
    obtain ⟨i, hi, hwf, hid⟩ := h.sessions s hs pkt message hreq
    obtain ⟨i', hi', later, heq⟩ := hkept.icmp i hi
    exact ⟨i', hi', later.wellFormed hwf, by rw [hid, heq]⟩

/-- The session of the request that was just sent. -/
theorem Trace.echoRight_request {t : Trace} (hinv : t.EchoInv) {p : IpPacket} {calls : TunCalls}
    (hshares : t.SharesIdentifier (.tun pkt calls)) (parses : parseIp (pkt.take getMtu) = .ok (some p))
    (protocol : isIcmp p.protocol = true) (handled : HandledEcho t.engine.ctx (pkt.take getMtu) p ctx' acts)
    {s' : NgSession} (hs' : s' ∈ ctx'.sessions) {message : Bytes} {dst : Endpoint}
    (hsent : .sendtoIcmp s'.id message dst ∈ acts) :
    ∃ i, s'.data = .icmp i ∧ i.WellFormed ∧ identifier (pkt.take getMtu) = some i.id := by
  have haddresses := addresses_of_parseIp parses
  cases handled with
  | quiet silent _ => exact absurd trivial (silent _ hsent)
  | @known sid id i m d echo reads found keeps =>
    obtain ⟨⟨-, hversion, hsaddr, hdaddr⟩, s, hs, rfl, hdata⟩ := mem_of_findIcmp found
    have hid := (Action.sendtoIcmp.inj (List.mem_singleton.1 hsent)).1
    have hfound : t.engine.ctx.echoSession (pkt.take getMtu) = some i := by
      simp only [Context.echoSession, parses, protocol, echo, found, and_self, if_true, Option.map_some]
    rcases keeps s' hs' with hnext | ⟨s₁, hs₁, hkept⟩
    · have hfresh : s.id < t.engine.ctx.next := hinv.valid.fresh s.entry (List.mem_map_of_mem hs)
      omega
    · -- it was found by the packet's addresses, and shares its identifier by assumption
      obtain rfl : s₁ = s := eq_of_id_eq hinv.valid hs₁ hs (hkept.id.symm.trans hid)
      obtain ⟨i', hi', later, heq⟩ := hkept.icmp i hdata
      refine ⟨i', hi', later.wellFormed ?_, heq ▸ hshares i hfound⟩
      rw [IcmpSession.WellFormed, hversion, hsaddr, hdaddr]
      exact haddresses
  | @opened i socket ev m d reads flow added =>
    simp only [List.mem_cons, reduceCtorEq, Action.sendtoIcmp.injEq, List.not_mem_nil, or_false, false_or] at hsent
    -- only the new session is at the address of the request
    rw [added] at hs'
    rcases List.mem_cons.1 hs' with rfl | hs'
    · refine ⟨i, rfl, ?_, identifier_eq parses protocol reads⟩
      rw [IcmpSession.WellFormed, flow.1, flow.2.1, flow.2.2]
      exact haddresses
    · have hfresh : s'.id < t.engine.ctx.next := hinv.valid.fresh s'.entry (List.mem_map_of_mem hs')
      omega

theorem Trace.EchoRight.step {t t' : Trace} {event : Event} (hinv : t.EchoInv) (h : t.EchoRight)
    (hshares : t.SharesIdentifier event) (hs : t.step args event = .ok t') : t'.EchoRight := by
  obtain ⟨e, acts, he, rfl⟩ := Trace.step_cases hs
  constructor
  · intro s' hs' pkt message hreq
    have hstep := Engine.step_echo hinv.valid he
    rcases requested_cons hreq with hold | ⟨calls, dst, rfl, hsent⟩
    · exact h.kept hinv hstep.keeps hs' hold
    · cases hstep with
      | quiet silent _ => exact absurd trivial (silent _ hsent)
      | request packet parses protocol handled =>
        obtain ⟨rfl, rfl⟩ := Event.tun.inj packet
        exact Trace.echoRight_request hinv hshares parses protocol handled hs' hsent
  · intro after before sid calls acts' hpast pkt message reply packet hreq hreply hanswers hwrite
    -- the reply is that of the last event, or of one that was right before
    cases after with
    | nil =>
      simp only [List.nil_append, List.cons.injEq, Prod.mk.injEq] at hpast
      obtain ⟨⟨rfl, rfl⟩, rfl⟩ := hpast
      obtain ⟨s, hmem, rfl, hwritten⟩ := Engine.tunWrite_of_socket he hreply hwrite
      obtain ⟨i, hi, hwf, hid⟩ := h.sessions s hmem pkt message hreq
      have hlong := hanswers.header
      rw [hwritten i hi, identifier_icmpAnswer hwf, hid, Nat.mod_eq_of_lt (identifier_lt hid)]
      · simp only [List.length_take, ICMP4_MAXMSG, ICMP6_MAXMSG]
        split <;> omega
      · simp only [List.length_take, ICMP4_MAXMSG, ICMP6_MAXMSG]
        split <;> omega
    | cons last after =>
      obtain ⟨-, hpast⟩ := List.cons.inj hpast
      exact h.replies after before sid calls acts' hpast pkt message reply packet hreq hreply hanswers hwrite

/-- As long as the echo requests that share a session share its identifier, every reply has the identifier of
the request it answers. -/
theorem carriesIdentifiers_runStates (args : Arguments) (events : List Event)
    (h : EveryStep (stepOk (Trace.step args)) (fun r event => OnOk (fun t => t.SharesIdentifier event) r) (.ok .init)
      events) : ∀ r ∈ runStates args events, OnOk Trace.CarriesIdentifiers r := by
  intro r hr t ht
  have hright := onOk_states Trace.EchoInv Trace.EchoRight (fun _ _ _ h hs => h.step hs)
    (fun _ _ _ hinv h hshares hs => h.step hinv hshares hs) Trace.echoInv_init Trace.echoRight_init h
  exact (hright r hr t ht).replies

/-- An echo request without data from `10.1.10.1` to `8.8.8.8`. -/
def echoRequest (id seq : Nat) : Bytes :=
  [0x45, 0, 0, 28, 0, 0, 0, 0, 64, 1, 0, 0, 10, 1, 10, 1, 8, 8, 8, 8, 8, 0, 0, 0] ++ be16 id ++ be16 seq

/-- The socket of a session has the reply to it. -/
def SocketCalls.replying (id seq : Nat) : SocketCalls where
  now := 0
  err := false
  input := true
  output := false
  recv := .data ([0, 0, 0, 0] ++ be16 id ++ be16 seq)
  send := fun _ => .error true
  tunWrite := fun _ => true
  sendbuf := 0
  unsent := 0

theorem carriesIdentifiers_runStates_ping :
    OnOk Trace.CarriesIdentifiers (final (stepOk (Trace.step (.plain [] _ compiled_redirectAll))) (.ok .init)
      [.tun (echoRequest 1 1) .working, .tun (echoRequest 1 2) .working, .socket 0 (.replying 65534 2)]) :=
  carriesIdentifiers_runStates _ _ (by decide +kernel) _ (final_mem_states _ _)

/-- Two processes ping `8.8.8.8`: the reply to the second one has the identifier of the first. -/
theorem not_carriesIdentifiers_shared : ¬ ∀ (args : Arguments) (events : List Event), ∀ r ∈ runStates args events,
    OnOk Trace.CarriesIdentifiers r := by
  intro h
  obtain ⟨engine, hrun⟩ : ∃ engine, final (stepOk (Trace.step (.plain [] _ compiled_redirectAll))) (.ok .init)
      [.tun (echoRequest 1 1) .working, .tun (echoRequest 2 2) .working, .socket 0 (.replying 65533 2)] = .ok ⟨engine, [
        (.socket 0 (.replying 65533 2),
          [.output (.tunWrite ([69, 0, 0, 28, 0, 0, 0, 0, 64, 1, 86, 208, 8, 8, 8, 8, 10, 1,
          10, 1] ++ [0, 0, 255, 252, 0, 1, 0, 2]))]),
        (.tun (echoRequest 2 2) .working, [.sendtoIcmp 0 [8, 0, 247, 255, 255, 253, 0, 2] ⟨some [8, 8, 8, 8], 0⟩]),
        (.tun (echoRequest 1 1) .working, [.socket 3,
          .sendtoIcmp 0 [8, 0, 247, 255, 255, 254, 0, 1] ⟨some [8, 8, 8, 8], 0⟩])]⟩ := ⟨_, rfl⟩
  have hcarries := h _ _ _ (final_mem_states _ _) _ hrun
  have hsame := hcarries [] _ 0 _ _ rfl (echoRequest 2 2) [8, 0, 247, 255, 255, 253, 0, 2] [0, 0, 0, 0, 255, 253, 0, 2]
    _ ⟨.working, _, _, List.mem_cons_self, List.mem_singleton_self _⟩ rfl ⟨by decide, rfl⟩ (List.mem_singleton_self _)
  revert hsame
  decide +kernel

end SunProxy.Net
