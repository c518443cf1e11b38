/-
The session table and the flows of its sessions. A session is only made by a handler that has looked for
one in vain, and a stopped ICMP session is not looked for any more; but an answered DHCP request changes
the flow of its session. So the table has one session per flow exactly as long as no request is answered
whose new flow has a session already; over TCP and ICMP it has one always.
-/
import SunProxy.Net.UdpRun

namespace SunProxy.Net

open SunProxy.Buffer SunProxy.Kotlin SunProxy.Result SunProxy.Run SunProxy.Seq SunProxy.Table

variable {args : Arguments} {ctx ctx' : Context} {acts : List Action} {calls : TunCalls} {sessions : Int}
  {pkt : TunPacket}

/-! ## Slots -/

/-- What only one session of a table may be for. -/
inductive Slot where
  | icmp (version : Nat) (saddr daddr : Bytes)
  | udp (flow : Flow)
  | tcp (flow : Flow)
deriving DecidableEq, Repr

/-- A stopped ICMP session is for nothing. -/
def NgSession.slot? (s : NgSession) : Option Slot :=
  match s.data with
  | .icmp i => if i.stop then none else some (.icmp i.version i.saddr i.daddr)
  | .udp u => some (.udp u.flow)
  | .tcp t => some (.tcp t.flow)

/-- The slots in use, those of the sessions of the table. -/
def Context.slots (ctx : Context) : List Slot := ctx.sessions.filterMap NgSession.slot?

/-- What a session with this key is for. -/
def Key.slot : Key → Slot
  | .icmp version saddr daddr => .icmp version saddr daddr
  | .udp flow => .udp flow
  | .tcp flow _ => .tcp flow

theorem NgSession.slot?_eq_some {s : NgSession} {k : Slot} : s.slot? = some k ↔ s.data.key.slot = k ∧
    (∀ version saddr daddr, k = .icmp version saddr daddr → s.isActive = true) := by
  unfold slot? isActive
  cases s.data with
  | icmp i =>
    simp only [SessionData.key, Key.slot, Option.ite_none_left_eq_some, Option.some.injEq, Bool.not_eq_true',
      Bool.not_eq_true]
    constructor
    · rintro ⟨hstop, rfl⟩
      exact ⟨rfl, fun _ _ _ _ => hstop⟩
    · rintro ⟨rfl, hstop⟩
      exact ⟨hstop _ _ _ rfl, rfl⟩
  | udp u =>
    simp only [SessionData.key, Key.slot, Option.some.injEq]
    exact ⟨fun h => ⟨h, fun _ _ _ heq => by cases h.trans heq⟩, And.left⟩
  | tcp t =>
    simp only [SessionData.key, Key.slot, Option.some.injEq]
    exact ⟨fun h => ⟨h, fun _ _ _ heq => by cases h.trans heq⟩, And.left⟩

theorem NgSession.Later.slot? {s s' : NgSession} (h : s.Later s') {k : Slot} (hk : s'.slot? = some k) :
    s.slot? = some k := by
  rw [slot?_eq_some, h.key] at hk
  exact slot?_eq_some.2 ⟨hk.1, fun version saddr daddr hicmp => h.active (hk.2 version saddr daddr hicmp)⟩

/-- A slot that no step gives to another session. -/
def Slot.lasts : Slot → Bool
  | .udp _ => false
  | _ => true

theorem Key.eq_of_lasting {k k' : Key} (h : k'.lasting = k.lasting) (hlasts : k'.slot.lasts = true) : k' = k := by
  cases k' with
  | udp flow => cases hlasts
  | icmp version saddr daddr =>
    cases k with
    | icmp => exact h
    | udp | tcp => cases h
  | tcp flow uid =>
    cases k with
    | tcp => exact h
    | icmp | udp => cases h

theorem NgSession.Kept.slot? {s s' : NgSession} (h : s.Kept s') {k : Slot} (hlasts : k.lasts = true)
    (hk : s'.slot? = some k) : s.slot? = some k := by
  obtain ⟨rfl, hactive⟩ := slot?_eq_some.1 hk
  have hkey := Key.eq_of_lasting (congrArg Prod.snd h.entry) hlasts
  rw [hkey] at hactive ⊢
  exact slot?_eq_some.2 ⟨rfl, fun version saddr daddr hicmp => h.active (hactive version saddr daddr hicmp)⟩

/-- No slot is taken by sessions that change and go. -/
theorem Context.Later.slots_sublist (h : ctx.Later ctx') : ctx'.slots.Sublist ctx.slots := by
  obtain ⟨f, hf, hl⟩ := h.sessions
  rw [Context.slots, hf, List.filterMap_filterMap]
  refine filterMap_sublist_of_le fun s hs k hk => ?_
  obtain ⟨s', hs', hk⟩ := Option.bind_eq_some_iff.1 hk
  exact (hl s hs s' hs').slot? hk

/-- The slots that last. -/
def Context.lastingSlots (ctx : Context) : List Slot := ctx.slots.filter Slot.lasts

theorem Context.lastingSlots_eq (ctx : Context) :
    ctx.lastingSlots = ctx.sessions.filterMap fun s => s.slot?.filter Slot.lasts := by
  rw [lastingSlots, slots, List.filter_filterMap]

theorem Context.Kept.lastingSlots_sublist (h : ctx.Kept ctx') : ctx'.lastingSlots.Sublist ctx.lastingSlots := by
  obtain ⟨f, hf, hl⟩ := h.sessions
  rw [lastingSlots_eq, lastingSlots_eq, hf, List.filterMap_filterMap]
  refine filterMap_sublist_of_le fun s hs k hk => ?_
  obtain ⟨s', hs', hk⟩ := Option.bind_eq_some_iff.1 hk
  obtain ⟨hk, hlasts⟩ := Option.filter_eq_some_iff.1 hk
  exact Option.filter_eq_some_iff.2 ⟨(hl s hs s' hs').slot? hlasts hk, hlasts⟩

theorem Context.Added.slots_eq {data : SessionData} (h : ctx.Added ctx' data) :
    ctx'.slots = ctx.slots ∨ ∃ s : NgSession, s.data = data ∧ ∃ k, s.slot? = some k ∧ ctx'.slots = k :: ctx.slots := by
  obtain ⟨socket, ev, hs⟩ := h.sessions
  rw [Context.slots, hs]
  cases hk : NgSession.slot? ⟨ctx.next, data, socket, ev⟩ with
  | none => exact .inl (List.filterMap_cons_none hk)
  | some k => exact .inr ⟨_, rfl, k, hk, List.filterMap_cons_some hk⟩

/-! ## Searches -/

theorem mem_slots {k : Slot} : k ∈ ctx.slots ↔ ∃ s ∈ ctx.sessions, s.slot? = some k := List.mem_filterMap

theorem findUdp_eq_none {flow : Flow} : ctx.findUdp flow = none ↔ .udp flow ∉ ctx.slots := by
  constructor
  · intro h hmem
    obtain ⟨s, hs, hk⟩ := mem_slots.1 hmem
    have hnone := List.findSome?_eq_none_iff.1 h s hs
    unfold NgSession.slot? at hk
    split at hk
    · split at hk <;> cases hk
    · rename_i u hdata
      cases hk
      simp [NgSession.udp?, hdata, Option.filter] at hnone
    · cases hk
  · intro h
    by_contra hfound
    obtain ⟨⟨id, u⟩, hfound⟩ := Option.ne_none_iff_exists'.1 hfound
    obtain ⟨rfl, s, hs, -, hdata⟩ := mem_of_findUdp hfound
    exact h (mem_slots.2 ⟨s, hs, by rw [NgSession.slot?, hdata]⟩)

theorem notMem_slots_tcp {flow : Flow} (h : ctx.findTcp flow = none) : .tcp flow ∉ ctx.slots := by
  intro hmem
  obtain ⟨s, hs, hk⟩ := mem_slots.1 hmem
  have hnone := List.findSome?_eq_none_iff.1 h s hs
  unfold NgSession.slot? at hk
  split at hk
  · split at hk <;> cases hk
  · cases hk
  · rename_i t hdata
    cases hk
    simp [NgSession.tcp?, hdata, Option.filter] at hnone

theorem notMem_slots_icmp {p : IpPacket} (h : ctx.findIcmp p = none) : .icmp p.version p.saddr p.daddr ∉ ctx.slots := by
  intro hmem
  obtain ⟨s, hs, hk⟩ := mem_slots.1 hmem
  have hnone := List.findSome?_eq_none_iff.1 h s hs
  unfold NgSession.slot? at hk
  split at hk
  · rename_i i hdata
    split at hk
    · cases hk
    · rename_i hstop
      obtain ⟨hversion, hsaddr, hdaddr⟩ := Slot.icmp.inj (Option.some.inj hk)
      simp [NgSession.icmp?, hdata, hstop, hversion, hsaddr, hdaddr] at hnone
  · cases hk
  · cases hk

/-! ## Tables with one session per flow -/

/-- No two sessions of the table are for one flow. -/
def Context.Unique (ctx : Context) : Prop := ctx.slots.Nodup

/-- No two sessions of the table are for one flow over TCP, or for one pair of addresses over ICMP. -/
def Context.UniqueLasting (ctx : Context) : Prop := ctx.lastingSlots.Nodup

theorem Context.Later.unique (h : ctx.Later ctx') (hu : ctx.Unique) : ctx'.Unique :=
  List.Nodup.sublist h.slots_sublist hu

theorem Context.Kept.uniqueLasting (h : ctx.Kept ctx') (hu : ctx.UniqueLasting) : ctx'.UniqueLasting :=
  List.Nodup.sublist h.lastingSlots_sublist hu

/-- A session that is added keeps the table unique when its slot is free. -/
theorem Context.Added.unique {data : SessionData} (h : ctx.Added ctx' data) (hu : ctx.Unique)
    (hfree : ∀ s : NgSession, s.data = data → ∀ k, s.slot? = some k → k ∉ ctx.slots) : ctx'.Unique := by
  rcases h.slots_eq with hs | ⟨s, hdata, k, hk, hs⟩
  · rw [Context.Unique, hs]
    exact hu
  · rw [Context.Unique, hs]
    exact List.nodup_cons.2 ⟨hfree s hdata k hk, hu⟩

theorem Context.Added.uniqueLasting {data : SessionData} (h : ctx.Added ctx' data) (hu : ctx.UniqueLasting)
    (hfree : ∀ s : NgSession, s.data = data → ∀ k, s.slot? = some k → k.lasts = true → k ∉ ctx.slots) :
    ctx'.UniqueLasting := by
  rcases h.slots_eq with hs | ⟨s, hdata, k, hk, hs⟩
  · rw [Context.UniqueLasting, lastingSlots, hs]
    exact hu
  · rw [Context.UniqueLasting, lastingSlots, hs, List.filter_cons]
    split
    · rename_i hlasts
      refine List.nodup_cons.2 ⟨fun hmem => ?_, hu⟩
      exact hfree s hdata k hk hlasts (List.mem_filter.1 hmem).1
    · exact hu

/-- The slot of the ICMP session that is added was free. -/
theorem free_icmp {p : IpPacket} {i : IcmpSession} (found : ctx.findIcmp p = none)
    (key : (SessionData.icmp i).key = .icmp p.version p.saddr p.daddr) (s : NgSession) (hdata : s.data = .icmp i)
    (k : Slot) (hk : s.slot? = some k) : k ∉ ctx.slots := by
  simp only [SessionData.key, Key.icmp.injEq] at key
  simp only [NgSession.slot?, hdata, Option.ite_none_left_eq_some, Option.some.injEq] at hk
  obtain ⟨-, rfl⟩ := hk
  rw [key.1, key.2.1, key.2.2]
  exact notMem_slots_icmp found

theorem free_tcp {flow : Flow} {t : TcpSession} (found : ctx.findTcp flow = none) (hflow : t.flow = flow)
    (s : NgSession) (hdata : s.data = .tcp t) (k : Slot) (hk : s.slot? = some k) : k ∉ ctx.slots := by
  simp only [NgSession.slot?, hdata, Option.some.injEq] at hk
  subst hk
  rw [hflow]
  exact notMem_slots_tcp found

/-! ### TCP and ICMP -/

theorem HandledIp.uniqueLasting (h : HandledIp args ctx sessions pkt calls ctx' acts) (hv : ctx.table.Valid)
    (hu : ctx.UniqueLasting) : ctx'.UniqueLasting := by
  cases h with
  | quiet same _ => exact same ▸ hu
  | icmp _ _ _ handled =>
    rcases handled.later_or_added hv with hlater | ⟨found, i, key, hadded⟩
    · exact hlater.kept.uniqueLasting hu
    · exact hadded.uniqueLasting hu fun s hdata k hk _ => free_icmp found key s hdata k hk
  | udp _ _ _ _ handled =>
    rcases handled.kept_or_added hv with hkept | ⟨-, u, -, hadded⟩
    · exact hkept.uniqueLasting hu
    · refine hadded.uniqueLasting hu fun s hdata k hk hlasts => ?_
      simp only [NgSession.slot?, hdata, Option.some.injEq] at hk
      subst hk
      cases hlasts
  | tcp _ _ _ _ _ _ handled =>
    rcases handled.later_or_added hv with hlater | ⟨found, t, hflow, -, hadded⟩
    · exact hlater.kept.uniqueLasting hu
    · exact hadded.uniqueLasting hu fun s hdata k hk _ => free_tcp found hflow s hdata k hk

theorem Engine.step_uniqueLasting {e e' : Engine} {event : Event} (hv : e.ctx.table.Valid) (hu : e.ctx.UniqueLasting)
    (h : e.step args event = .ok (e', acts)) : e'.ctx.UniqueLasting := by
  rcases Engine.step_cases hv h with ⟨pkt, calls, -, -, handled⟩ | ⟨-, later⟩
  · exact handled.uniqueLasting hv hu
  · exact later.kept.uniqueLasting hu

/-! ### UDP -/

/-- The datagram of the flow is handed to `check_dhcp`, which answers it. -/
structure TakesLease (args : Arguments) (ctx : Context) (flow : Flow) (data : Bytes) (datalen : Nat)
    (calls : TunCalls) :
    Prop where
  hosts : hostsResponse args calls.malloc flow data datalen = .ok none
  request : AnswersDhcp flow data datalen
  session : (∃ id u, ctx.findUdp flow = some (id, u) ∧ u.state = .active) ∨
    ctx.findUdp flow = none ∧ 0 ≤ calls.socket ∧ 0 ≤ calls.protect

/-- The flow that the session of an answered request gets is its own, or no session has it. -/
def Context.FreesLease (ctx : Context) (flow : Flow) : Prop := flow.leased = flow ∨ ctx.findUdp flow.leased = none

/-- What is done with a datagram leaves its flow, or answers a DHCP request. -/
theorem Dealt.flow_iff {flow flow' : Flow} {data : Bytes} {datalen id : Nat} {redirect : Option Allowed}
    (h : Dealt args calls.malloc flow data datalen id redirect flow' acts)
    (hsession : (∃ id u, ctx.findUdp flow = some (id, u) ∧ u.state = .active) ∨
      ctx.findUdp flow = none ∧ 0 ≤ calls.socket ∧ 0 ≤ calls.protect) :
    flow' = flow ∧ ¬TakesLease args ctx flow data datalen calls ∨
      flow' = flow.leased ∧ TakesLease args ctx flow data datalen calls := by
  cases h with
  | answered hosts => exact .inl ⟨rfl, fun h => by cases hosts.symm.trans h.hosts⟩
  | dhcp _ hdhcp silent =>
    refine .inl ⟨rfl, fun h => ?_⟩
    obtain ⟨o, r, ho, hr⟩ := h.request
    cases hdhcp.symm.trans ho
    cases silent.symm.trans hr
  | leased hosts hdhcp response => exact .inr ⟨rfl, hosts, ⟨_, _, hdhcp, response⟩, hsession⟩
  | forwarded _ hdhcp | refused _ hdhcp =>
    refine .inl ⟨rfl, fun h => ?_⟩
    obtain ⟨o, r, ho, -⟩ := h.request
    cases hdhcp.symm.trans ho

/-- A session of the table that is changed, and the slots beside its own. -/
theorem slots_withUdp (hv : ctx.table.Valid) {s : NgSession} {u : UdpSession} (hs : s ∈ ctx.sessions)
    (hdata : s.data = .udp u) (u' : UdpSession) : ∃ l l', ctx.slots = l ++ .udp u.flow :: l' ∧
      (ctx.update s.id (·.withUdp u')).slots = l ++ .udp u'.flow :: l' := by
  obtain ⟨l, l', hsplit⟩ := List.append_of_mem hs
  have hnodup : (ctx.sessions.map NgSession.id).Nodup := by
    have hids := hv.nodup
    rwa [Context.table, List.map_map] at hids
  rw [hsplit, List.map_append, List.map_cons, List.nodup_middle, List.nodup_cons, List.mem_append] at hnodup
  -- the others have other ids, so that they stay as they are
  have hother : ∀ l₁ : List NgSession, s.id ∉ l₁.map NgSession.id →
      l₁.map (fun x => if x.id = s.id then x.withUdp u' else x) = l₁ := by
    intro l₁ hid
    refine (List.map_congr_left fun x hx => ?_).trans (List.map_id l₁)
    rw [if_neg fun heq => hid (List.mem_map.2 ⟨x, hx, heq⟩), id]
  refine ⟨l.filterMap NgSession.slot?, l'.filterMap NgSession.slot?, ?_, ?_⟩
  · have hslot : s.slot? = some (.udp u.flow) := by rw [NgSession.slot?, hdata]
    rw [Context.slots, hsplit, List.filterMap_append, List.filterMap_cons_some hslot]
  · have hslot : (s.withUdp u').slot? = some (.udp u'.flow) := rfl
    simp only [Context.slots, Context.update, hsplit, List.map_append, List.map_cons, if_true,
      hother l fun h => hnodup.1 (.inl h), hother l' fun h => hnodup.1 (.inr h), List.filterMap_append]
    rw [List.filterMap_cons_some hslot]

theorem HandledUdp.unique_iff {flow : Flow} {redirect : Option Allowed} {data : Bytes} {datalen : Nat}
    (h : HandledUdp args ctx flow redirect data datalen calls ctx' acts) (hv : ctx.table.Valid) (hu : ctx.Unique) :
    ctx'.Unique ↔ (TakesLease args ctx flow data datalen calls → ctx.FreesLease flow) := by
  cases h with
  -- nothing is dealt with, and the table keeps its flows
  | ignored found state same =>
    subst same
    refine iff_of_true hu fun h => ?_
    rcases h.session with ⟨id, u, hfound, hstate⟩ | ⟨hnone, -⟩
    · cases found.symm.trans hfound
      exact absurd hstate state
    · cases found.symm.trans hnone
  | failed found refused same =>
    subst same
    refine iff_of_true ((Context.Later.discard ctx).unique hu) fun h => ?_
    rcases h.session with ⟨id, u, hfound, -⟩ | ⟨-, hsocket, hprotect⟩
    · cases found.symm.trans hfound
    · cases (openUdpSocket_of_works hsocket hprotect _ _ _).symm.trans refused
  -- the session that is found keeps its flow, or gets the one of the lease
  | @session _ u u' _ found state dealt _ changed =>
    obtain ⟨hflow, s, hs, rfl, hdata⟩ := mem_of_findUdp found
    obtain ⟨l, l', hslots, hslots'⟩ := slots_withUdp hv hs hdata u'
    rw [hflow] at hslots
    subst changed
    rw [Context.Unique, hslots] at hu
    rw [Context.Unique, hslots', nodup_replace hu, ← hslots, ← findUdp_eq_none]
    rcases dealt.flow_iff (.inl ⟨_, _, found, state⟩) with ⟨heq, hnot⟩ | ⟨heq, htakes⟩
    · exact iff_of_true (.inl (congrArg Slot.udp heq)) fun htakes => absurd htakes hnot
    · rw [heq, Slot.udp.injEq]
      exact (imp_iff_right htakes).symm
  -- the flow of the new session was free; the one of the lease may be not
  | opened found opens dealt _ _ _ added =>
    rw [added hv]
    have hslots : ∀ u : UdpSession, (ctx.insert (.udp u) calls.socket ⟨true, false⟩).slots = .udp u.flow :: ctx.slots :=
      fun _ => rfl
    have hunique : ∀ flow' : Flow, (Slot.udp flow' :: ctx.slots).Nodup ↔ ctx.findUdp flow' = none := fun flow' => by
      rw [List.nodup_cons, ← findUdp_eq_none]
      exact and_iff_left hu
    rw [Context.Unique, hslots, hunique]
    rcases dealt.flow_iff (.inr ⟨found, opens⟩) with ⟨heq, hnot⟩ | ⟨heq, htakes⟩
    · rw [heq]
      exact iff_of_true found fun htakes => absurd htakes hnot
    · rw [heq, Context.FreesLease]
      refine ⟨fun h _ => .inr h, fun h => (h htakes).elim (fun hsame => ?_) id⟩
      rw [hsame]
      exact found

/-! ## Runs -/

/-- A packet that asks for an address frees the flow its session gets. -/
def Event.FreesLease (args : Arguments) (e : Engine) : Event → Prop
  | .tun pkt calls => ∀ p ports, ReadsPacket (pkt.take getMtu) p ports → p.protocol = IPPROTO_UDP →
      (startsFlow args e.ctx p ports = true → e.sessions < args.maxsessions) →
      TakesLease args e.ctx (flowOf p ports) (udpData (pkt.take getMtu) p)
        ((pkt.take getMtu).rest (p.payload + 8)) calls →
      e.ctx.FreesLease (flowOf p ports)
  | _ => True

/-- A request that is answered ends no run. -/
theorem handleUdp_of_takesLease {flow : Flow} {data : Bytes} {datalen : Nat}
    (h : TakesLease args ctx flow data datalen calls) (uid : Int) (redirect : Option Allowed) :
    ∃ r, handleUdp args ctx flow uid redirect data datalen calls = .ok r := by
  obtain ⟨hosts, ⟨o, r, hdhcp, -⟩, hsession⟩ := h
  have hanswers : ∀ (ctx : Context) (id : Nat) (u : UdpSession), u.flow = flow →
      ∃ r, handleUdpSession args ctx id u redirect data datalen calls = .ok r := by
    rintro ctx id u rfl
    unfold handleUdpSession
    simp only [hosts, hdhcp, bind, Except.bind]
    exact ⟨_, rfl⟩
  unfold handleUdp
  rcases hsession with ⟨id, u, hfound, hstate⟩ | ⟨hnone, hsocket, hprotect⟩
  · obtain ⟨hflow, -⟩ := mem_of_findUdp hfound
    simp only [hfound, hstate, ne_eq, not_true_eq_false, if_false]
    exact hanswers ctx id u hflow
  · have hflow : (newUdpSession flow uid redirect calls.now).flow = flow := rfl
    obtain ⟨r, hr⟩ := hanswers
      (ctx.insert (.udp (newUdpSession flow uid redirect calls.now)) calls.socket ⟨true, false⟩)
      ctx.next _ hflow
    simp only [hnone, createUdp, openUdpSocket_of_works hsocket hprotect, hr, bind, Except.bind]
    exact ⟨_, rfl⟩

theorem HandledIp.unique (h : HandledIp args ctx sessions pkt calls ctx' acts) (hv : ctx.table.Valid) (hu : ctx.Unique)
    (hfrees : ∀ p ports, ReadsPacket pkt p ports → p.protocol = IPPROTO_UDP →
      (startsFlow args ctx p ports = true → sessions < args.maxsessions) →
      TakesLease args ctx (flowOf p ports) (udpData pkt p) (pkt.rest (p.payload + 8)) calls →
      ctx.FreesLease (flowOf p ports)) : ctx'.Unique := by
  cases h with
  | quiet same _ => exact same ▸ hu
  | icmp _ _ _ handled =>
    rcases handled.later_or_added hv with hlater | ⟨found, i, key, hadded⟩
    · exact hlater.unique hu
    · exact hadded.unique hu fun s hdata k hk => free_icmp found key s hdata k hk
  | udp reads protocol room _ handled => exact (handled.unique_iff hv hu).2 (hfrees _ _ reads protocol room)
  | tcp _ _ _ _ _ _ handled =>
    rcases handled.later_or_added hv with hlater | ⟨found, t, hflow, -, hadded⟩
    · exact hlater.unique hu
    · exact hadded.unique hu fun s hdata k hk => free_tcp found hflow s hdata k hk

/-- Of a table with one session per flow, a step makes such a table exactly when a packet that asks for an
address frees the flow its session gets. -/
theorem Engine.step_unique_iff {e : Engine} {event : Event} (hv : e.ctx.table.Valid) (hu : e.ctx.Unique) :
    (∀ e' acts, e.step args event = .ok (e', acts) → e'.ctx.Unique) ↔ event.FreesLease args e := by
  constructor
  · intro h
    cases event with
    | loop | socket | checkAllowed | clear => trivial
    | tun pkt calls =>
      intro p ports reads protocol room htakes
      obtain ⟨⟨ctx', acts⟩, hr⟩ := handleUdp_of_takesLease htakes
        (packetUid args e.ctx p ports noHost calls)
        (verdict args e.ctx p ports noHost (packetUid args e.ctx p ports noHost calls)).redirect
      have hip : handleIp args e.ctx e.sessions (pkt.take getMtu) calls = .ok (ctx', acts) := by
        rw [handleIp_udp reads protocol room, hr]
      have hlen : pkt.length ≠ 0 := by
        have hpos := reads.length_pos
        simp only [TunPacket.take] at hpos
        omega
      have hstep : e.step args (.tun pkt calls) = .ok ({ e with ctx := ctx' }, acts) := by
        simp only [Engine.step, if_neg hlen, hip, bind, Except.bind, pure, Except.pure]
      exact ((handleUdp_cases hr).unique_iff hv hu).1 (h _ _ hstep) htakes
  · intro hfrees e' acts h
    rcases Engine.step_cases hv h with ⟨pkt, calls, rfl, -, handled⟩ | ⟨-, later⟩
    · exact handled.unique hv hu hfrees
    · exact later.unique hu

theorem uniqueLasting_runStates (args : Arguments) (events : List Event) :
    ∀ r ∈ runStates args events, OnOk (fun t => t.engine.ctx.UniqueLasting) r := by
  have hinv : ∀ r ∈ runStates args events, OnOk (fun t => t.engine.ctx.table.Valid ∧ t.engine.ctx.UniqueLasting) r := by
    refine onOk_states_of_inv (fun t event t' h hs => ?_) ⟨⟨.nil, nofun⟩, .nil⟩ events
    obtain ⟨e, acts, he, rfl⟩ := Trace.step_cases hs
    exact ⟨(Engine.step_advance h.1 he).valid h.1, Engine.step_uniqueLasting h.1 h.2 he⟩
  exact fun r hr t ht => (hinv r hr t ht).2

/-- A run has one session per flow in every state exactly when no step of it answers a DHCP request with a
flow that another session has. -/
theorem unique_runStates_iff (args : Arguments) (events : List Event) :
    (∀ r ∈ runStates args events, OnOk (fun t => t.engine.ctx.Unique) r) ↔
      EveryStep (stepOk (Trace.step args)) (fun r event => OnOk (fun t => event.FreesLease args t.engine) r) (.ok .init)
        events := by
  have hvalid : ∀ (t : Trace) (event : Event) (t' : Trace), t.engine.ctx.table.Valid → t.step args event = .ok t' →
      t'.engine.ctx.table.Valid := by
    intro t event t' hv hs
    obtain ⟨e, acts, he, rfl⟩ := Trace.step_cases hs
    exact (Engine.step_advance hv he).valid hv
  have hstep : ∀ (t : Trace) (event : Event), t.engine.ctx.table.Valid → t.engine.ctx.Unique →
      (OnOk (fun t => t.engine.ctx.Unique) (t.step args event) ↔ event.FreesLease args t.engine) := by
    intro t event hv hu
    rw [← Engine.step_unique_iff hv hu]
    constructor
    · intro h e' acts he
      refine h ⟨e', (event, acts) :: t.past⟩ ?_
      simp only [Trace.step, he, bind, Except.bind, pure, Except.pure]
    · intro h t' hs
      obtain ⟨e, acts, he, rfl⟩ := Trace.step_cases hs
      exact h e acts he
  have hinit : Trace.init.engine.ctx.table.Valid := ⟨.nil, List.forall_mem_nil _⟩
  exact onOk_states_iff _ _ hvalid hstep hinit .nil events

/-- A datagram with `data` from the port 68 of `saddr` to the broadcast address and port 67. -/
def dhcpDatagram (saddr data : Bytes) : Bytes :=
  [0x45, 0] ++ be16 (28 + data.length) ++ [0, 0, 0, 0, 64, 17, 0, 0] ++ saddr ++ [255, 255, 255, 255] ++
    [0, 68, 0, 67] ++ be16 (8 + data.length) ++ [0, 0] ++ data

/-- A datagram of the flow that a DHCP client gets, and the request of a client without an address. -/
def leasedTwice : List Event :=
  [.tun (dhcpDatagram [10, 1, 10, 1] [7]) .working,
    .tun (dhcpDatagram [0, 0, 0, 0]
      ([1, 1, 6, 0, 1, 2, 3, 4] ++ List.replicate 228 0 ++ [0x63, 0x82, 0x53, 0x63])) .working]

theorem not_unique_runStates_dhcp : ¬∀ (args : Arguments) (events : List Event), ∀ r ∈ runStates args events,
    OnOk (fun t => t.engine.ctx.Unique) r := by
  intro hall
  have hslots : (final (stepOk (Trace.step (.plain [] _ compiled_redirectAll))) (.ok .init) leasedTwice).map
      (fun t => t.engine.ctx.slots) = .ok [.udp ⟨4, [10, 1, 10, 1], 68, [255, 255, 255, 255], 67⟩,
        .udp ⟨4, [10, 1, 10, 1], 68, [255, 255, 255, 255], 67⟩] := by
    decide +kernel
  obtain ⟨t, ht, hslots⟩ := map_eq_ok hslots
  have hunique := hall _ _ _ (final_mem_states _ _) t ht
  dsimp only [Context.Unique] at hunique
  rw [hslots] at hunique
  revert hunique
  decide

end SunProxy.Net
