/-
The event loop as many sessions side by side: what it does with a TCP session is what the machine of
that session alone does, on the turns, segments and socket events of the run that are the session's.
So what holds of every run of the machine holds of the session in every run of the loop.
-/
import SunProxy.Lib.Simulation
import SunProxy.Net.Delivery
import SunProxy.Net.TcpRun
import SunProxy.Net.Unique

namespace SunProxy.Net

open SunProxy.Buffer SunProxy.Kotlin SunProxy.Result SunProxy.Run SunProxy.Simulation SunProxy.Table

variable {args : Arguments} {ctx ctx' : Context} {acts : List Action} {s : NgSession} {t : TcpSession}

/-! ## The session at an address -/

def Context.lookup (ctx : Context) (id : Nat) : Option NgSession := ctx.sessions.find? (·.id = id)

theorem mem_of_lookup {id : Nat} (h : ctx.lookup id = some s) : s ∈ ctx.sessions ∧ s.id = id :=
  ⟨List.mem_of_find?_eq_some h, by simpa using List.find?_some h⟩

/-- What is made of the only session at an address is what is there afterwards. -/
theorem find?_filterMap {f : NgSession → Option NgSession} {l : List NgSession} (hn : (l.map (·.id)).Nodup)
    (hf : ∀ s ∈ l, ∀ s', f s = some s' → s'.id = s.id) (hs : s ∈ l) :
    (l.filterMap f).find? (·.id = s.id) = f s := by
  induction l with
  | nil => cases hs
  | cons a l ih =>
    obtain ⟨ha, hn⟩ := List.nodup_cons.1 hn
    have ih := ih hn fun s hs => hf s (List.mem_cons_of_mem _ hs)
    rcases List.mem_cons.1 hs with rfl | hs
    · have hrest : (l.filterMap f).find? (·.id = s.id) = none := by
        rw [List.find?_eq_none]
        intro s' hs' hid
        obtain ⟨b, hb, hfb⟩ := List.mem_filterMap.1 hs'
        refine ha (List.mem_map.2 ⟨b, hb, ?_⟩)
        rw [← hf b (List.mem_cons_of_mem _ hb) s' hfb]
        simpa using hid
      cases hfs : f s with
      | none => rw [List.filterMap_cons_none hfs, hrest]
      | some s' =>
        have hid : s'.id = s.id := hf s List.mem_cons_self s' hfs
        rw [List.filterMap_cons_some hfs, List.find?_cons_of_pos (by simpa using hid)]
    · have hne : a.id ≠ s.id := fun heq => ha (List.mem_map.2 ⟨s, hs, heq.symm⟩)
      cases hfa : f a with
      | none => rw [List.filterMap_cons_none hfa, ih hs]
      | some a' =>
        have hid : a'.id = a.id := hf a List.mem_cons_self a' hfa
        rw [List.filterMap_cons_some hfa, List.find?_cons_of_neg (by simpa [hid] using hne), ih hs]

theorem nodup_of_valid (hv : ctx.table.Valid) : (ctx.sessions.map (·.id)).Nodup := by
  have hn := hv.nodup
  rwa [Context.table, List.map_map] at hn

theorem lookup_of_mem (hv : ctx.table.Valid) (hs : s ∈ ctx.sessions) : ctx.lookup s.id = some s := by
  have hfind := find?_filterMap (f := some) (nodup_of_valid hv) (fun _ _ _ h => by cases h; rfl) hs
  rwa [List.filterMap_some] at hfind

theorem lookup_eachSession {f : NgSession → Option NgSession × List Output} (hv : ctx.table.Valid)
    (hf : ∀ {s s'}, (f s).1 = some s' → s.Later s') (hs : s ∈ ctx.sessions) :
    ({ ctx with sessions := (eachSession f ctx.sessions).1 } : Context).lookup s.id = (f s).1 :=
  find?_filterMap (nodup_of_valid hv) (fun _ _ _ h => congrArg Prod.fst (hf h).entry) hs

theorem lookup_update (hv : ctx.table.Valid) {id : Nat} {f : NgSession → NgSession} (hs : s ∈ ctx.sessions)
    (hf : ∀ s ∈ ctx.sessions, s.id = id → (f s).id = id) :
    (ctx.update id f).lookup s.id = some (if s.id = id then f s else s) := by
  have hfind := find?_filterMap (f := fun s => some (if s.id = id then f s else s)) (nodup_of_valid hv)
    (fun s hs s' h => by cases h; split; exacts [(hf s hs ‹_›).trans ‹s.id = id›.symm, rfl]) hs
  rwa [List.filterMap_eq_map'] at hfind

theorem lookup_discard (hv : ctx.table.Valid) (hs : s ∈ ctx.sessions) : ctx.discard.lookup s.id = some s :=
  (lookup_of_mem hv hs : ctx.lookup s.id = some s)

/-- A session at the next address hides no other. -/
theorem lookup_insert (hv : ctx.table.Valid) {data : SessionData} {socket : Int} {ev : PollEvents}
    (hs : s ∈ ctx.sessions) :
    (ctx.insert data socket ev).lookup s.id = some s := by
  have hlt : s.id < ctx.next := hv.fresh _ (List.mem_map_of_mem hs)
  unfold Context.lookup Context.insert
  rw [List.find?_cons_of_neg (by simpa using Nat.ne_of_gt hlt)]
  exact lookup_of_mem hv hs

/-- An address that has been given and has no session gets none. -/
theorem lookup_eq_none_of_advance {id : Nat} (ha : Advance ctx.table ctx'.table) (hid : id < ctx.next)
    (h : ctx.lookup id = none) : ctx'.lookup id = none := by
  unfold Context.lookup at h ⊢
  rw [List.find?_eq_none] at h ⊢
  intro s' hs' heq
  have heq : s'.id = id := by simpa using heq
  rcases ha.mem (List.mem_map_of_mem hs') with hold | hnew
  · obtain ⟨s, hs, he⟩ := List.mem_map.1 hold
    have hid : s.id = id := (congrArg Prod.fst he).trans heq
    exact h s hs (decide_eq_true hid)
  · rw [show s'.entry.1 = id from heq] at hnew
    exact Nat.ne_of_lt hid hnew

/-! ## What is sent to sockets -/

def Action.output? : Action → Option Output
  | .output o => some o
  | _ => none

def outputsOf (acts : List Action) : List Output := acts.filterMap Action.output?

@[simp] theorem outputsOf_append (acts acts' : List Action) :
    outputsOf (acts ++ acts') = outputsOf acts ++ outputsOf acts' :=
  List.filterMap_append

@[simp] theorem outputsOf_map (os : List Output) : outputsOf (os.map .output) = os := by
  rw [outputsOf, List.filterMap_map]
  exact List.filterMap_some

/-- What the sockets of the sessions at `id` take. -/
def sendsFor (id : Nat) (os : List Output) : List (Nat × Bytes) := (sends os).filter (·.1 = id)

@[simp] theorem sendsFor_append (id : Nat) (os os' : List Output) :
    sendsFor id (os ++ os') = sendsFor id os ++ sendsFor id os' := by
  simp only [sendsFor, sends_append, List.filter_append]

theorem sends_eq_nil {os : List Output} (h : ∀ o ∈ os, o.send? = none) : sends os = [] := List.filterMap_eq_nil_iff.2 h

theorem sendsFor_eq_nil {id : Nat} {os : List Output} (h : sends os = []) : sendsFor id os = [] := by
  rw [sendsFor, h, List.filter_nil]

theorem sends_flatMap_eq_nil {l : List NgSession} {f : NgSession → List Output} (h : ∀ s ∈ l, sends (f s) = []) :
    sends (l.flatMap f) = [] := by
  apply sends_eq_nil
  intro o ho
  obtain ⟨s, hs, ho⟩ := List.mem_flatMap.1 ho
  exact List.filterMap_eq_nil_iff.1 (h s hs) o ho

theorem sends_isWrite {os : List Output} (h : ∀ o ∈ os, o.IsWrite) : sends os = [] :=
  sends_eq_nil fun o ho => by
    obtain ⟨packet, rfl⟩ := h o ho
    rfl

theorem sends_other {o : Output} (h : o.IsOther) : sends [o] = [] := by
  cases o with
  | send => cases h
  | tunWrite | close | resolved | usage => rfl

theorem sends_monitorSession (calls : Nat → MonitorCalls) (s : NgSession) : sends (monitorSession calls s).2 = [] := by
  unfold monitorSession
  split
  · split
    · exact sends_isWrite (isWrite_monitorEvents _ _ _)
    · rfl
  · rfl

theorem sends_checkSession (sessions maxsessions now : Int) (s : NgSession) :
    sends (checkSession sessions maxsessions now s).2 = [] := by
  have hrst : ∀ t : TcpSession, sends (expireTcp t sessions maxsessions now).2 = [] := by
    intro t
    unfold expireTcp
    split_ifs <;> rfl
  have hclose : ∀ (socket : Int) (t : TcpSession), sends (closeTcp socket t now).2.2 = [] := by
    intro socket t
    unfold closeTcp
    split_ifs <;> rfl
  have husage : ∀ t : TcpSession, sends (accountTcp t).2 = [] := by
    intro t
    unfold accountTcp
    split <;> rfl
  unfold checkSession
  split
  · unfold checkIcmpSession
    split <;> rfl
  · unfold checkUdpSession closeUdp accountUdp
    dsimp only
    split_ifs <;> rfl
  · unfold checkTcpSession
    dsimp only
    split
    all_goals simp only [sends_append, hrst, hclose, husage, List.append_nil]

theorem sends_checkAllowed (args : Arguments) (s : NgSession) : sends (checkAllowed args s).2 = [] := by
  unfold checkAllowed
  split
  · dsimp only
    split <;> rfl
  · split_ifs <;> rfl
  · split <;> rfl

theorem sends_clearSession (s : NgSession) : sends (clearSession s).2 = [] := by
  unfold clearSession
  dsimp only
  split <;> rfl

/-- What a chain of moves sends goes to the socket of the session. -/
theorem sends_moves {G : Guard} {t' : TcpSession} {os : List Output} (h : Moves G t os t') :
    ∀ p ∈ sends os, p.1 = G.id := by
  have hkept : ∀ p ∈ sends ([] ++ os), p.1 = G.id :=
    Chain.keeps (P := fun _ os => ∀ p ∈ sends os, p.1 = G.id) (fun before hp hm => ?_) h nofun
  · exact hkept
  rw [sends_append]
  intro p hmem
  rcases List.mem_append.1 hmem with hmem | hmem
  · exact hp p hmem
  · cases hm with
    | alike | goes | syn | queue | fin | lastFin | halfClose | finish | write | keepAlive => cases hmem
    | other ho =>
      rw [sends_other ho] at hmem
      cases hmem
    | sendPart | sendAll | sendLast => rw [List.mem_singleton.1 hmem]

/-! ## Packets for others -/

section Packets

variable {calls : TunCalls} {pkt : TunPacket} {p : IpPacket}

theorem outputsOf_eq_nil (h : ∀ a ∈ acts, a.output? = none) : outputsOf acts = [] := List.filterMap_eq_nil_iff.2 h

theorem outputsOf_openProtected (h : openProtected calls = (none, acts)) : outputsOf acts = [] :=
  outputsOf_eq_nil fun a ha => by
    obtain ⟨fd, rfl⟩ := openProtected_none h a ha
    rfl

theorem sends_isReport (h : ∀ a ∈ acts, a.IsReport) : sends (outputsOf acts) = [] := by
  apply sends_eq_nil
  intro o ho
  obtain ⟨a, ha, hout⟩ := List.mem_filterMap.1 ho
  obtain ⟨rr, rfl⟩ := h a ha
  cases hout
  rfl

theorem HandledIcmp.sends_eq_nil (h : HandledIcmp ctx pkt p calls ctx' acts) : sends (outputsOf acts) = [] := by
  cases h with
  | ignored | session | opened => rfl
  | failed _ _ refused _ => rw [outputsOf_openProtected refused]; rfl

theorem Dealt.sends_eq_nil {malloc : Nat → UInt8} {flow flow' : Flow} {data : Bytes} {datalen id : Nat}
    {redirect : Option Allowed} (h : Dealt args malloc flow data datalen id redirect flow' acts) :
    sends (outputsOf acts) = [] := by
  cases h <;> rfl

theorem HandledUdp.sends_eq_nil {flow : Flow} {redirect : Option Allowed} {data : Bytes} {datalen : Nat}
    (h : HandledUdp args ctx flow redirect data datalen calls ctx' acts) : sends (outputsOf acts) = [] := by
  cases h with
  | ignored => rfl
  | session _ _ dealt _ _ => exact dealt.sends_eq_nil
  | failed _ refused _ => rw [outputsOf_openProtected (openUdpSocket_none refused)]; rfl
  | opened _ _ dealt _ _ _ _ => exact dealt.sends_eq_nil

theorem sends_segmentResult (t : TcpSession) (socket : Int) (h : TcpHeader) (data : Bytes) (calls : TunCalls) :
    sends (segmentResult t socket h data calls).2 = [] :=
  sends_isWrite (isWrite_segmentResult t socket h data calls)

theorem HandledTcp.sends_eq_nil {payload : Nat} {flow : Flow} {uid : Int} {redirect : Option Allowed}
    (h : HandledTcp ctx pkt payload flow uid true redirect calls ctx' acts) : sends (outputsOf acts) = [] := by
  cases h with
  | ignored | unknown => rfl
  | session _ _ _ _ => rw [outputsOf_map, sends_segmentResult]
  | failed _ _ _ _ refused _ =>
    have hnone : outputsOf acts = [] := outputsOf_eq_nil fun a ha => by
      rcases mem_openTcpSocket_none refused a ha with ⟨fd, rfl⟩ | rfl <;> rfl
    rw [hnone]
    rfl
  | opened _ _ _ _ _ _ _ listens _ _ =>
    rw [(listens rfl).1]
    rfl

/-- A session of another kind is at another address. -/
theorem lookup_update_other (hv : ctx.table.Valid) (hs : s ∈ ctx.sessions) {s' : NgSession} (hs' : s' ∈ ctx.sessions)
    (hne : s' ≠ s) {f : NgSession → NgSession} (hf : ∀ s, (f s).id = s.id) :
    (ctx.update s'.id f).lookup s.id = some s := by
  have hid : s.id ≠ s'.id := fun heq => hne (eq_of_id_eq hv hs' hs heq.symm)
  rw [lookup_update hv hs fun s _ heq => (hf s).trans heq, if_neg hid]

theorem HandledIcmp.lookup (h : HandledIcmp ctx pkt p calls ctx' acts) (hv : ctx.table.Valid) (hs : s ∈ ctx.sessions)
    (ht : s.data = .tcp t) : ctx'.lookup s.id = some s := by
  cases h with
  | ignored _ same => exact same ▸ lookup_of_mem hv hs
  | session found _ changed =>
    obtain ⟨-, s', hs', rfl, hdata⟩ := mem_of_findIcmp found
    rw [changed]
    refine lookup_update_other hv hs hs' ?_ fun _ => rfl
    rintro rfl
    cases hdata.symm.trans ht
  | failed _ _ _ same => exact same ▸ lookup_discard hv hs
  | opened _ _ _ _ _ _ _ added => exact added hv ▸ lookup_insert hv hs

theorem HandledUdp.lookup {flow : Flow} {redirect : Option Allowed} {data : Bytes} {datalen : Nat}
    (h : HandledUdp args ctx flow redirect data datalen calls ctx' acts) (hv : ctx.table.Valid) (hs : s ∈ ctx.sessions)
    (ht : s.data = .tcp t) : ctx'.lookup s.id = some s := by
  cases h with
  | ignored _ _ same => exact same ▸ lookup_of_mem hv hs
  | session found _ _ _ changed =>
    obtain ⟨-, s', hs', rfl, hdata⟩ := mem_of_findUdp found
    rw [changed]
    refine lookup_update_other hv hs hs' ?_ fun _ => rfl
    rintro rfl
    cases hdata.symm.trans ht
  | failed _ _ same => exact same ▸ lookup_discard hv hs
  | opened _ _ _ _ _ _ added => exact added hv ▸ lookup_insert hv hs

/-- A segment of another flow. -/
theorem HandledTcp.lookup {payload : Nat} {flow : Flow} {uid : Int} {redirect : Option Allowed}
    (h : HandledTcp ctx pkt payload flow uid true redirect calls ctx' acts) (hv : ctx.table.Valid)
    (hs : s ∈ ctx.sessions) (ht : s.data = .tcp t) (hflow : t.flow ≠ flow) : ctx'.lookup s.id = some s := by
  cases h with
  | ignored _ _ same | unknown _ _ _ same => exact same ▸ lookup_of_mem hv hs
  | session found _ _ changed =>
    obtain ⟨hfound, hs', hdata⟩ := mem_of_findTcp found
    rw [changed]
    refine lookup_update_other hv hs hs' ?_ fun _ => rfl
    rintro rfl
    cases hdata.symm.trans ht
    exact hflow hfound
  | failed _ _ _ _ _ same => exact same ▸ lookup_discard hv hs
  | opened _ _ _ _ _ _ _ _ _ added => exact added ▸ lookup_insert hv hs

/-- A table with one session per flow finds the session of a flow. -/
theorem findTcp_of_unique (hu : ctx.UniqueLasting) (hs : s ∈ ctx.sessions) (ht : s.data = .tcp t) :
    ctx.findTcp t.flow = some (s, t) := by
  have hslot : ∀ {s' : NgSession} {t' : TcpSession}, s'.data = .tcp t' → s'.slot? = some (.tcp t'.flow) := by
    intro s' t' hd
    simp only [NgSession.slot?, hd]
  have hlasting : ∀ {s' : NgSession} {t' : TcpSession}, s'.data = .tcp t' →
      s'.slot?.filter Slot.lasts = some (.tcp t'.flow) := by
    intro s' t' hd
    rw [hslot hd]
    rfl
  cases hfind : ctx.findTcp t.flow with
  | none => exact absurd (List.mem_filterMap.2 ⟨s, hs, hslot ht⟩) (notMem_slots_tcp hfind)
  | some r =>
    obtain ⟨hflow, hs', hdata⟩ := mem_of_findTcp hfind
    have heq : r.1 = s := by
      by_contra hne
      rw [Context.UniqueLasting, Context.lastingSlots_eq] at hu
      exact hne (Seq.eq_of_nodup_filterMap hu hs' hs (hlasting hdata) (hflow ▸ hlasting ht))
    obtain ⟨s', t'⟩ := r
    subst heq
    cases hdata.symm.trans ht
    rfl

/-- A TCP segment is handed to `handle_tcp`, unless it is a SYN that is dropped for the limit. -/
theorem handleIp_tcp {ports : Ports} {sessions : Int} (reads : ReadsPacket pkt p ports)
    (protocol : p.protocol = IPPROTO_TCP) (h : handleIp args ctx sessions pkt calls = .ok (ctx', acts)) :
    ports.syn = true ∧ ctx' = ctx ∧ acts = [] ∨ ∃ host uid redirect acts',
      HandledTcp ctx pkt p.payload (flowOf p ports) uid true redirect calls ctx' acts' ∧
        acts = reportSni p host calls ++ acts' := by
  have hicmp : isIcmp p.protocol = false := by rw [protocol]; rfl
  have hudp : p.protocol ≠ IPPROTO_UDP := by rw [protocol]; decide
  -- at the limit a SYN is dropped, and every other segment handed on
  by_cases hroom : args.maxsessions ≤ sessions ∧ startsFlow args ctx p ports = true
  · left
    have hdropped : handleIp args ctx sessions pkt calls = .ok (ctx, []) := by
      unfold handleIp
      simp only [reads.packet, reads.ports, bind, Except.bind, handlePacket, if_pos hroom]
    rw [hdropped] at h
    cases h
    have hstarts := hroom.2
    simp only [startsFlow, hicmp, decide_eq_false hudp, decide_eq_true protocol, Bool.false_or, Bool.false_and,
      Bool.true_and] at hstarts
    exact ⟨hstarts, rfl, rfl⟩
  · right
    -- a fault in the search for a host name would have ended the run
    cases info : hostInfo args ctx pkt p ports calls with
    | error x =>
      unfold handleIp at h
      simp only [reads.packet, reads.ports, bind, Except.bind, handlePacket, if_neg hroom, info] at h
      cases h
    | ok host =>
      rw [handleIp_dispatch reads (fun hs => lt_of_not_ge fun hle => hroom ⟨hle, hs⟩) info, dispatch,
        if_pos (verdict_allowed ..), hicmp, if_neg Bool.false_ne_true, if_neg hudp, if_pos protocol] at h
      cases hd : handleTcp ctx pkt p.payload (flowOf p ports) (packetUid args ctx p ports host calls) true
          (verdict args ctx p ports host (packetUid args ctx p ports host calls)).redirect calls with
      | error x =>
        rw [hd] at h
        cases h
      | ok r =>
        rw [hd] at h
        cases h
        exact ⟨host, _, _, r.2, handleTcp_cases hd, rfl⟩

end Packets

/-! ## What a session sees -/

/-- A packet is a segment of the flow, with the data it carries. -/
def CarriesSegment (flow : Flow) (pkt : TunPacket) (h : TcpHeader) (data : Bytes) : Prop :=
  ∃ p ports, ReadsPacket pkt p ports ∧ p.protocol = IPPROTO_TCP ∧ flowOf p ports = flow ∧
    ReadsSegment pkt p.payload h data

theorem ReadsSegment.unique {pkt : TunPacket} {payload : Nat} {h h' : TcpHeader} {data data' : Bytes}
    (hr : ReadsSegment pkt payload h data) (hr' : ReadsSegment pkt payload h' data') : h = h' ∧ data = data' := by
  have hh := hr.header.symm.trans hr'.header
  cases hh
  exact ⟨rfl, hr.data.trans hr'.data.symm⟩

theorem CarriesSegment.unique {flow : Flow} {pkt : TunPacket} {h h' : TcpHeader} {data data' : Bytes} {p : IpPacket}
    {ports : Ports} (hc : CarriesSegment flow pkt h data) (reads : ReadsPacket pkt p ports)
    (hr : ReadsSegment pkt p.payload h' data') :
    h = h' ∧ data = data' ∧ flowOf p ports = flow := by
  obtain ⟨p', ports', reads', -, hflow, hr'⟩ := hc
  obtain ⟨rfl, rfl⟩ := reads'.unique reads
  obtain ⟨rfl, rfl⟩ := hr'.unique hr
  exact ⟨rfl, rfl, hflow⟩

/-- What an event of the loop is to the TCP session of `flow` at `id`. Of the segments of its flow it does
not see urgent ones, and SYNs that may be dropped for the limit. -/
inductive Event.Seen (flow : Flow) (id : Nat) : Event → List SessionEvent → Prop
  | turn (calls : LoopCalls) (sessions : Int) :
      Seen flow id (.loop calls) (.monitor (calls.monitor id) :: if calls.due then [.check sessions calls.now] else [])
  | segment {pkt : TunPacket} {h : TcpHeader} {data : Bytes} (carries : CarriesSegment flow (pkt.take getMtu) h data)
      (urg : h.urg = false) (calls : TunCalls) : Seen flow id (.tun pkt calls) [.segment h data calls]
  | packet {pkt : TunPacket}
    (unseen : ∀ h data, CarriesSegment flow (pkt.take getMtu) h data → h.urg = true ∨ h.syn = true)
      (calls : TunCalls) : Seen flow id (.tun pkt calls) []
  | socket (calls : SocketCalls) : Seen flow id (.socket id calls) [.socket calls]
  | other {id' : Nat} (ne : id' ≠ id) (calls : SocketCalls) : Seen flow id (.socket id' calls) []
  | checkAllowed : Seen flow id .checkAllowed [.checkAllowed]
  | clear : Seen flow id .clear [.clear]

theorem exists_seen (flow : Flow) (id : Nat) (event : Event) : ∃ vs, event.Seen flow id vs := by
  cases event with
  | loop calls => exact ⟨_, .turn calls 0⟩
  | tun pkt calls =>
    by_cases hc : ∃ h data, CarriesSegment flow (pkt.take getMtu) h data ∧ h.urg = false
    · obtain ⟨h, data, carries, urg⟩ := hc
      exact ⟨_, .segment carries urg calls⟩
    · refine ⟨_, .packet (fun h data carries => .inl ?_) calls⟩
      by_contra hurg
      exact hc ⟨h, data, carries, by simpa using hurg⟩
  | socket id' calls =>
    by_cases hid : id' = id
    · subst hid
      exact ⟨_, .socket calls⟩
    · exact ⟨_, .other hid calls⟩
  | checkAllowed => exact ⟨_, .checkAllowed⟩
  | clear => exact ⟨_, .clear⟩

/-- The machine of the session comes to `r` on the events `vs`, and so does the table, with the same data
for the socket. -/
structure Projects (args : Arguments) (s : NgSession) (vs : List SessionEvent) (r : Option NgSession × List Output)
    (ctx' : Context) (os : List Output) : Prop where
  runs : ∀ before, final (stepOk (SessionTrace.step args)) (.ok ⟨some s, before⟩) vs = .ok ⟨r.1, before ++ r.2⟩
  session : ctx'.lookup s.id = r.1
  outputs : r.2.Sublist os
  sends : sendsFor s.id os = sends r.2

theorem step_ok {v : SessionEvent} {r : Option NgSession × List Output} (h : s.step args v = .ok r)
    (before : List Output) :
    SessionTrace.step args ⟨some s, before⟩ v = .ok ⟨r.1, before ++ r.2⟩ := by
  simp only [SessionTrace.step, h, bind, Except.bind, pure, Except.pure]

theorem Projects.idle {os : List Output} (session : ctx'.lookup s.id = some s) (hsends : Net.sends os = []) :
    Projects args s [] (some s, []) ctx' os where
  runs before := by rw [List.append_nil]; rfl
  session := session
  outputs := List.nil_sublist os
  sends := sendsFor_eq_nil hsends

theorem Projects.one {v : SessionEvent} {r : Option NgSession × List Output} {os : List Output}
    (h : s.step args v = .ok r) (session : ctx'.lookup s.id = r.1) (outputs : r.2.Sublist os)
    (hsends : sendsFor s.id os = Net.sends r.2) :
    Projects args s [v] r ctx' os where
  runs before := step_ok h before
  session := session
  outputs := outputs
  sends := hsends

theorem sublist_flatMap {f : NgSession → List Output} {l : List NgSession} (hs : s ∈ l) :
    (f s).Sublist (l.flatMap f) := by
  rw [List.flatMap_def]
  exact List.sublist_flatten_of_mem (List.mem_map_of_mem hs)

/-! ## One event -/

section Step

variable {e e' : Engine}

/-- A sweep through the table does with each session what its machine does. -/
theorem projects_sweep (args : Arguments) {f : NgSession → Option NgSession × List Output} {v : SessionEvent}
    (hv : ctx.table.Valid) (hf : ∀ {s s'}, (f s).1 = some s' → s.Later s') (hsends : ∀ s, sends (f s).2 = [])
    (hs : s ∈ ctx.sessions) (hstep : s.step args v = .ok (f s)) :
    Projects args s [v] (f s) { ctx with sessions := (eachSession f ctx.sessions).1 } (eachSession f ctx.sessions).2 :=
  .one hstep (lookup_eachSession hv hf hs) (sublist_flatMap (f := fun s => (f s).2) hs)
    ((sendsFor_eq_nil (sends_flatMap_eq_nil fun s _ => hsends s)).trans (hsends s).symm)

theorem later_monitor (calls : Nat → MonitorCalls) {s s' : NgSession}
    (h : (keep (monitorSession calls s)).1 = some s') :
    s.Later s' := by
  cases h
  exact .monitorSession calls s

theorem monitorSession_congr (calls : Nat → MonitorCalls) (s : NgSession) :
    monitorSession calls s = monitorSession (fun _ => calls s.id) s := by
  unfold monitorSession
  split <;> rfl

theorem projects_loop (args : Arguments) (hv : ctx.table.Valid) (hs : s ∈ ctx.sessions) (calls : LoopCalls) :
    ∃ r, Projects args s (.monitor (calls.monitor s.id) :: if calls.due then [.check ctx.countActive calls.now]
      else []) r
      (loopTurn args ctx calls).1 (loopTurn args ctx calls).2 := by
  have hstep : s.step args (.monitor (calls.monitor s.id)) = .ok (keep (monitorSession calls.monitor s)) := by
    rw [monitorSession_congr]
    rfl
  -- all sessions are monitored, and then, when it is due, checked
  have hmonitored := projects_sweep args hv (later_monitor calls.monitor)
    (fun s => sends_monitorSession calls.monitor s) hs hstep
  generalize hr : monitorSession calls.monitor s = m at hstep hmonitored
  unfold loopTurn
  dsimp only
  cases hdue : calls.due with
  | false => exact ⟨_, hmonitored⟩
  | true =>
    simp only [reduceIte]
    -- the check finds the session that the monitoring has left
    have hv' := (Context.Later.eachSession (later_monitor calls.monitor) ctx).advance.valid hv
    have hlater : s.Later m.1 := later_monitor calls.monitor (by rw [hr]; rfl)
    have hid : m.1.id = s.id := hlater.id
    obtain ⟨hmem, -⟩ := mem_of_lookup hmonitored.session
    have hchecked := projects_sweep (v := .check ctx.countActive calls.now) args hv' .checkSession
      (sends_checkSession ctx.countActive args.maxsessions calls.now) hmem rfl
    refine ⟨((checkSession ctx.countActive args.maxsessions calls.now m.1).1,
      (keep m).2 ++ (checkSession ctx.countActive args.maxsessions calls.now m.1).2), ?_, ?_, ?_, ?_⟩
    -- its machine does the two one after another
    · intro before
      have hfirst := hmonitored.runs before
      have hsecond := hchecked.runs (before ++ (keep m).2)
      rw [List.append_assoc] at hsecond
      rw [← List.singleton_append, final_append, hfirst]
      exact hsecond
    · rw [← hid]
      exact hchecked.session
    · exact hmonitored.outputs.append hchecked.outputs
    · rw [sendsFor_append, hmonitored.sends, sends_append, ← hid]
      exact congrArg _ hchecked.sends

/-- A segment of the flow that `handle_tcp` gets. -/
theorem projects_segment (args : Arguments) {pkt : TunPacket} {calls : TunCalls} {payload : Nat} {uid : Int}
    {redirect : Option Allowed} {h : TcpHeader} {data : Bytes} (hv : ctx.table.Valid) (hu : ctx.UniqueLasting)
    (hs : s ∈ ctx.sessions) (ht : s.data = .tcp t) (hreads : ReadsSegment pkt payload h data)
    (handled : HandledTcp ctx pkt payload t.flow uid true redirect calls ctx' acts) :
    h.urg = true ∧ ctx' = ctx ∧ acts = [] ∨
      h.urg = false ∧ ∃ r, Projects args s [.segment h data calls] r ctx' (outputsOf acts) := by
  -- no other session has the flow: the search finds this one
  have hfound := findTcp_of_unique hu hs ht
  cases handled with
  | ignored header urg same =>
    cases header.symm.trans hreads.header
    exact .inl ⟨urg, same, rfl⟩
  | unknown found | failed found | opened found => cases hfound.symm.trans found
  | session found reads urg changed =>
    cases hfound.symm.trans found
    obtain ⟨rfl, rfl⟩ := hreads.unique reads
    have hstep : s.step args (.segment h data calls) =
        .ok (some (s.withTcp (segmentResult t s.socket h data calls).1),
          (segmentResult t s.socket h data calls).2) := by
      simp only [NgSession.step, NgSession.receive, ht, keep]
    refine .inr ⟨urg, _, .one hstep ?_ ?_ ?_⟩
    · have hkept : ∀ a ∈ ctx.sessions, a.id = s.id → (a.withTcp (segmentResult t s.socket h data calls).1).id = s.id :=
        fun _ _ heq => heq
      rw [changed, lookup_update hv hs hkept, if_pos rfl]
    · rw [outputsOf_map]
    · have hnone := sends_segmentResult t s.socket h data calls
      rw [outputsOf_map, sendsFor_eq_nil hnone, hnone]

theorem projects_tun {sessions : Int} {pkt : TunPacket} {calls : TunCalls} (hv : ctx.table.Valid)
    (hu : ctx.UniqueLasting) (hs : s ∈ ctx.sessions) (ht : s.data = .tcp t)
    (h : handleIp args ctx sessions (pkt.take getMtu) calls = .ok (ctx', acts)) :
    ∃ vs r, Event.Seen t.flow s.id (.tun pkt calls) vs ∧ Projects args s vs r ctx' (outputsOf acts) := by
  have unchanged : ctx' = ctx → acts = [] → Projects args s [] (some s, []) ctx' (outputsOf acts) := by
    rintro rfl rfl
    exact .idle (lookup_of_mem hv hs) rfl
  -- the packet is a segment of the flow, or the session does not see it
  by_cases hc : ∃ h data, CarriesSegment t.flow (pkt.take getMtu) h data
  · obtain ⟨header, data, carries⟩ := hc
    obtain ⟨p, ports, reads, protocol, hflow, segment⟩ := id carries
    rcases handleIp_tcp reads protocol h with ⟨hsyn, hsame, hacts⟩ | ⟨host, uid, redirect, acts', handled, hacts⟩
    -- a SYN is dropped for the limit
    · refine ⟨[], _, .packet (fun h' data' carries' => .inr ?_) calls, unchanged hsame hacts⟩
      obtain ⟨rfl, -⟩ := carries'.unique reads segment
      exact (syn_of_readPorts protocol reads.ports segment.header).symm.trans hsyn
    · rw [hflow] at handled
      have hreport : sends (outputsOf (reportSni p host calls)) = [] := sends_isReport fun a ha => isReport_reportSni ha
      -- an urgent segment is ignored, any other one is shown to the session
      rcases projects_segment args hv hu hs ht segment handled with ⟨hurg, hsame, hnone⟩ | ⟨hurg, r, hprojects⟩
      · refine ⟨[], (some s, []), .packet (fun h' data' carries' => .inl ?_) calls, .idle ?_ ?_⟩
        · obtain ⟨rfl, -⟩ := carries'.unique reads segment
          exact hurg
        · rw [hsame]
          exact lookup_of_mem hv hs
        · rw [hacts, hnone, List.append_nil]
          exact hreport
      · refine ⟨_, r, .segment carries hurg calls, hprojects.runs, hprojects.session, ?_, ?_⟩
        · rw [hacts, outputsOf_append]
          exact hprojects.outputs.trans (List.sublist_append_right _ _)
        · rw [hacts, outputsOf_append, sendsFor_append, sendsFor_eq_nil hreport, List.nil_append]
          exact hprojects.sends
  · have hunseen : Event.Seen t.flow s.id (.tun pkt calls) [] :=
      .packet (fun h data carries => absurd ⟨h, data, carries⟩ hc) calls
    refine ⟨[], (some s, []), hunseen, ?_⟩
    -- another protocol, or another flow: the session stays, and nothing is sent for it
    cases handleIp_cases h with
    | quiet same reports => exact .idle (same ▸ lookup_of_mem hv hs) (sends_isReport reports)
    | icmp _ _ _ handled => exact .idle (handled.lookup hv hs ht) handled.sends_eq_nil
    | udp _ _ _ _ handled => exact .idle (handled.lookup hv hs ht) handled.sends_eq_nil
    | @tcp p ports host _ _ _ reads protocol _ _ _ _ handled =>
      have hreport : sends (outputsOf (reportSni p host calls)) = [] := sends_isReport fun a ha => isReport_reportSni ha
      refine .idle ?_ ?_
      · by_cases hflow : t.flow = flowOf p ports
        · -- a segment of the flow that is looked at would be one of its segments
          cases handled with
          | ignored _ _ same | unknown _ _ _ same => exact same ▸ lookup_of_mem hv hs
          | session _ segment _ _ => exact absurd ⟨_, _, _, _, reads, protocol, hflow.symm, segment⟩ hc
          | failed _ _ _ _ _ same => exact same ▸ lookup_discard hv hs
          | opened _ segment _ _ _ _ _ _ _ _ => exact absurd ⟨_, _, _, _, reads, protocol, hflow.symm, segment⟩ hc
        · exact handled.lookup hv hs ht hflow
      · rw [outputsOf_append, sends_append, hreport, List.nil_append]
        exact handled.sends_eq_nil

theorem sends_checkIcmpSocket (i : IcmpSession) (calls : SocketCalls) : sends (checkIcmpSocket i calls).2 = [] := by
  unfold checkIcmpSocket
  split
  · rfl
  · split
    · dsimp only
      split
      · rfl
      · split <;> rfl
    · rfl

theorem sends_checkUdpSocket {u : UdpSession} {calls : SocketCalls} {r : UdpSession × List Output}
    (hr : checkUdpSocket args u calls = .ok r) : sends r.2 = [] := by
  unfold checkUdpSocket at hr
  split at hr
  · cases hr
    rfl
  · split at hr
    · dsimp only at hr
      split at hr
      · cases hr
        rfl
      · split at hr
        · cases hr
          rfl
        · obtain ⟨reply, -, hr⟩ := bind_eq_ok hr
          cases hr
          have hresolved : sends (reply.resolved.map .resolved) = [] := sends_eq_nil fun o ho => by
            obtain ⟨rr, -, rfl⟩ := List.mem_map.1 ho
            rfl
          rw [sends_append, hresolved]
          rfl
    · cases hr
      rfl

/-- What a socket takes is of the session that has it. -/
theorem sends_socketEvent {calls : SocketCalls} {r : NgSession × List Output} (h : socketEvent args s calls = .ok r) :
    ∀ p ∈ sends r.2, p.1 = s.id := by
  unfold socketEvent at h
  split at h
  · rename_i i _
    have hnone : sends (checkIcmpSocket i calls).2 = [] := sends_checkIcmpSocket i calls
    obtain rfl := Except.ok.inj h
    change ∀ p ∈ sends (checkIcmpSocket i calls).2, p.1 = s.id
    rw [hnone]
    exact nofun
  · split at h
    · obtain ⟨r', hr', h⟩ := bind_eq_ok h
      cases h
      rw [sends_checkUdpSocket hr']
      exact nofun
    · cases h
      exact nofun
  -- only a TCP session hands on data, and under its own number
  · obtain ⟨t', -, hmoves⟩ := moves_checkTcpSocket (G := ⟨s.id, fun _ _ _ => True, fun _ _ _ => True⟩) rfl h
    exact sends_moves hmoves

theorem projects_socket {id : Nat} {calls : SocketCalls} {r : Context × List Output} (hv : ctx.table.Valid)
    (hs : s ∈ ctx.sessions) (flow : Flow) (h : handleSocket args ctx id calls = .ok r) :
    ∃ vs r', Event.Seen flow s.id (.socket id calls) vs ∧ Projects args s vs r' r.1 r.2 := by
  unfold handleSocket at h
  split at h
  · rename_i hfind
    cases h
    -- no session has such a socket; this one has none that is open
    have hnone := List.find?_eq_none.1 hfind s hs
    by_cases hid : id = s.id
    · subst hid
      have hclosed : ¬ 0 ≤ s.socket := by simpa using hnone
      have hstep : s.step args (.socket calls) = .ok (some s, []) := by rw [NgSession.step, if_neg hclosed]
      exact ⟨_, _, .socket calls, .one hstep (lookup_of_mem hv hs) (.refl _) rfl⟩
    · exact ⟨_, _, .other hid calls, .idle (lookup_of_mem hv hs) rfl⟩
  · rename_i s' hfind
    obtain ⟨r', hr', h⟩ := bind_eq_ok h
    cases h
    have hfound := List.find?_some hfind
    simp only [Bool.and_eq_true, decide_eq_true_eq] at hfound
    obtain ⟨rfl, hsocket⟩ := hfound
    have hs' := List.mem_of_find?_eq_some hfind
    have hlater : s'.Later r'.1 := .socketEvent hr'
    have hkept : ∀ a ∈ ctx.sessions, a.id = s'.id → r'.1.id = s'.id := fun _ _ _ => hlater.id
    -- the socket is the one of the session, or of another one, which leaves this one alone
    by_cases hid : s'.id = s.id
    · obtain rfl := eq_of_id_eq hv hs' hs hid
      have hstep : s'.step args (.socket calls) = .ok (keep r') := by
        rw [NgSession.step, if_pos hsocket, hr']
        rfl
      refine ⟨_, _, .socket calls, .one hstep ?_ (.refl _) ?_⟩
      · rw [lookup_update hv hs hkept, if_pos rfl]
        rfl
      · exact List.filter_eq_self.2 fun p hp => decide_eq_true (sends_socketEvent hr' p hp)
    · refine ⟨_, (some s, []), .other hid calls, ?_, ?_, List.nil_sublist _, ?_⟩
      · intro before
        rw [List.append_nil]
        rfl
      · rw [lookup_update hv hs hkept, if_neg fun heq => hid heq.symm]
      · rw [sendsFor, List.filter_eq_nil_iff.2]
        · rfl
        · intro p hp
          rw [sends_socketEvent hr' p hp]
          simpa using hid

/-- An event of the loop does with a TCP session what the machine of the session does on what it sees. -/
theorem projects_step {event : Event} (hv : e.ctx.table.Valid) (hu : e.ctx.UniqueLasting) (hs : s ∈ e.ctx.sessions)
    (ht : s.data = .tcp t) (h : e.step args event = .ok (e', acts)) :
    ∃ vs r, event.Seen t.flow s.id vs ∧ Projects args s vs r e'.ctx (outputsOf acts) := by
  cases event with
  | loop calls =>
    cases h
    obtain ⟨r, hprojects⟩ := projects_loop args hv hs calls
    rw [outputsOf_map]
    exact ⟨_, r, .turn calls _, hprojects⟩
  | tun pkt calls =>
    simp only [Engine.step] at h
    split at h
    -- nothing was read
    · rename_i hempty
      cases h
      refine ⟨[], (some s, []), .packet (fun h data carries => ?_) calls, .idle (lookup_of_mem hv hs) rfl⟩
      obtain ⟨p, ports, reads, -⟩ := carries
      have hpos := reads.length_pos
      simp only [TunPacket.take, hempty, Nat.min_zero] at hpos
      exact absurd hpos (Nat.lt_irrefl 0)
    · obtain ⟨⟨ctx', acts'⟩, hip, h⟩ := bind_eq_ok h
      cases h
      exact projects_tun hv hu hs ht hip
  | socket id calls =>
    obtain ⟨⟨ctx', os⟩, hsocket, h⟩ := bind_eq_ok h
    cases h
    rw [outputsOf_map]
    exact projects_socket hv hs t.flow hsocket
  | checkAllowed =>
    cases h
    rw [outputsOf_map]
    exact ⟨_, _, .checkAllowed, projects_sweep args hv .checkAllowed (sends_checkAllowed args) hs rfl⟩
  | clear =>
    cases h
    rw [outputsOf_map]
    exact ⟨_, _, .clear, projects_sweep args hv (fun h => by cases h) sends_clearSession hs rfl⟩

end Step

end SunProxy.Net
