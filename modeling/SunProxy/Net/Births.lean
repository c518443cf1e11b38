/-
A run of the event loop as runs of its TCP sessions: every session in the table has been opened by a SYN,
and is where its own machine comes from there on what it saw of the events since; its socket has been
given the same data. With what holds in every run of the machine, the data of one connection reach
its socket whatever the loop does for the others.
-/
import SunProxy.Net.Projection

namespace SunProxy.Net

open SunProxy.Buffer SunProxy.Result SunProxy.Run SunProxy.Simulation SunProxy.Table

variable {args : Arguments} {ctx ctx' : Context} {acts : List Action} {s : NgSession} {t : TcpSession}

/-! ## Runs -/

/-- All that was done for the sessions in a run, in its order. -/
def Trace.outputs (t : Trace) : List Output := t.past.reverse.flatMap fun e => outputsOf e.2

@[simp] theorem Trace.outputs_init : Trace.init.outputs = [] := rfl

@[simp] theorem Trace.outputs_cons (e : Engine) (event : Event) (past : List (Event × List Action)) :
    Trace.outputs ⟨e, (event, acts) :: past⟩ = (past.reverse.flatMap fun e => outputsOf e.2) ++ outputsOf acts := by
  rw [Trace.outputs, List.reverse_cons, List.flatMap_append, List.flatMap_singleton]

theorem sends_loopTurn (calls : LoopCalls) : sends (loopTurn args ctx calls).2 = [] := by
  have hmonitor : sends (eachSession (fun s => keep (monitorSession calls.monitor s)) ctx.sessions).2 = [] :=
    sends_flatMap_eq_nil fun s _ => sends_monitorSession calls.monitor s
  unfold loopTurn
  dsimp only
  split
  · rw [sends_append, hmonitor]
    exact sends_flatMap_eq_nil fun s _ => sends_checkSession _ _ _ s
  · exact hmonitor

theorem HandledIp.sends_eq_nil {sessions : Int} {pkt : TunPacket} {calls : TunCalls}
    (h : HandledIp args ctx sessions pkt calls ctx' acts) : sends (outputsOf acts) = [] := by
  cases h with
  | quiet _ reports => exact sends_isReport reports
  | icmp _ _ _ handled => exact handled.sends_eq_nil
  | udp _ _ _ _ handled => exact handled.sends_eq_nil
  | tcp _ _ _ _ _ _ handled =>
    rw [outputsOf_append, sends_append, sends_isReport fun a ha => isReport_reportSni ha]
    exact handled.sends_eq_nil

/-- Data are for sessions that are there. -/
theorem Engine.step_sends {e e' : Engine} {event : Event} (h : e.step args event = .ok (e', acts)) :
    ∀ p ∈ sends (outputsOf acts), ∃ s ∈ e.ctx.sessions, s.id = p.1 := by
  have quiet : sends (outputsOf acts) = [] → ∀ p ∈ sends (outputsOf acts), ∃ s ∈ e.ctx.sessions, s.id = p.1 := by
    intro hnone p hp
    rw [hnone] at hp
    cases hp
  cases event with
  | loop calls =>
    cases h
    apply quiet
    rw [outputsOf_map]
    exact sends_loopTurn calls
  | tun pkt calls =>
    simp only [Engine.step] at h
    split at h
    · cases h
      exact quiet rfl
    · obtain ⟨⟨ctx', acts'⟩, hip, h⟩ := bind_eq_ok h
      cases h
      exact quiet (handleIp_cases hip).sends_eq_nil
  -- only a socket takes data
  | socket id calls =>
    obtain ⟨⟨ctx', os⟩, hsocket, h⟩ := bind_eq_ok h
    cases h
    rw [outputsOf_map]
    rcases handleSocket_cases hsocket with heq | ⟨s, hs, -, -, r, hr, heq⟩
    · cases heq
      exact fun _ h => absurd h List.not_mem_nil
    · cases heq
      exact fun p hp => ⟨s, hs, (sends_socketEvent hr p hp).symm⟩
  | checkAllowed =>
    cases h
    apply quiet
    rw [outputsOf_map]
    exact sends_flatMap_eq_nil fun s _ => sends_checkAllowed args s
  | clear =>
    cases h
    apply quiet
    rw [outputsOf_map]
    exact sends_flatMap_eq_nil fun s _ => sends_clearSession s

/-- What every run keeps: one session per TCP flow and per address, and data only for addresses that were given. -/
structure Trace.Sound (t : Trace) : Prop where
  valid : t.engine.ctx.table.Valid
  unique : t.engine.ctx.UniqueLasting
  sent : ∀ p ∈ sends t.outputs, p.1 < t.engine.ctx.next

theorem Trace.sound_init : Trace.init.Sound where
  valid := ⟨.nil, nofun⟩
  unique := List.nodup_nil
  sent := nofun

/-- No event sends to the address it gives. -/
theorem Trace.Sound.sent_step {t t' : Trace} {event : Event} (h : t.Sound) (hs : t.step args event = .ok t') :
    ∀ p ∈ sends t'.outputs, p.1 < t.engine.ctx.next := by
  obtain ⟨e, acts, he, rfl⟩ := Trace.step_cases hs
  intro p hp
  rw [Trace.outputs_cons, sends_append] at hp
  rcases List.mem_append.1 hp with hp | hp
  · exact h.sent p hp
  · obtain ⟨s, hmem, hid⟩ := Engine.step_sends he p hp
    exact hid ▸ h.valid.fresh s.entry (List.mem_map_of_mem hmem)

theorem Trace.Sound.step {t t' : Trace} {event : Event} (h : t.Sound) (hs : t.step args event = .ok t') : t'.Sound := by
  have hsent := h.sent_step hs
  obtain ⟨e, acts, he, rfl⟩ := Trace.step_cases hs
  have hadvance := Engine.step_advance h.valid he
  exact ⟨hadvance.valid h.valid, Engine.step_uniqueLasting h.valid h.unique he,
    fun p hp => Nat.lt_of_lt_of_le (hsent p hp) hadvance.le⟩

theorem sound_of_run {events : List Event} {t : Trace}
    (h : final (stepOk (Trace.step args)) (.ok .init) events = .ok t) :
    t.Sound :=
  onOk_states_of_inv (fun _ _ _ hsound hs => hsound.step hs) Trace.sound_init events _ (final_mem_states _ _) t h

/-- The trace of the session at `id` is what a run shows of it. -/
structure Trace.Shows (flow : Flow) (id : Nat) (t : Trace) (tr : SessionTrace) : Prop where
  sound : t.Sound
  given : id < t.engine.ctx.next
  session : t.engine.ctx.lookup id = tr.session
  flow : ∀ s, tr.session = some s → ∃ u, s.data = .tcp u ∧ u.flow = flow
  sends : sendsFor id t.outputs = sends tr.outputs
  outputs : tr.outputs.Sublist t.outputs

theorem final_of_none {tr : SessionTrace} (hs : tr.session = none) (vs : List SessionEvent) :
    final (stepOk (SessionTrace.step args)) (.ok tr) vs = .ok tr := by
  induction vs with
  | nil => rfl
  | cons v vs ih =>
    rw [final, List.foldl_cons, show stepOk (SessionTrace.step args) (.ok tr) v = .ok tr from step_of_none hs]
    exact ih

/-- The session at an address keeps its flow. -/
theorem flow_of_lookup (hv : ctx.table.Valid) (ha : Advance ctx.table ctx'.table) {id : Nat} (hid : id < ctx.next)
    (hs : ctx.lookup id = some s) (ht : s.data = .tcp t) {s' : NgSession} (hs' : ctx'.lookup id = some s') :
    ∃ t', s'.data = .tcp t' ∧ t'.flow = t.flow := by
  obtain ⟨hmem, rfl⟩ := mem_of_lookup hs
  obtain ⟨hmem', hid'⟩ := mem_of_lookup hs'
  rcases ha.mem (List.mem_map_of_mem hmem') with hold | hnew
  · obtain ⟨a, hold, hentry⟩ := List.mem_map.1 hold
    obtain rfl := eq_of_id_eq hv hold hmem ((congrArg Prod.fst hentry).trans hid')
    have hkey : s'.data.key.lasting = a.data.key.lasting := (congrArg Prod.snd hentry).symm
    rw [ht] at hkey
    cases hdata : s'.data with
    | icmp | udp =>
      rw [hdata] at hkey
      cases hkey
    | tcp t' =>
      rw [hdata] at hkey
      exact ⟨t', rfl, (Key.tcp.inj hkey).1⟩
  · rw [show s'.entry.1 = s.id from hid'] at hnew
    exact absurd hnew (Nat.ne_of_lt hid)

/-- The machine of a session follows the loop. -/
theorem follows_session (args : Arguments) (flow : Flow) (id : Nat) :
    Follows (Trace.step args) (SessionTrace.step args) (Event.Seen flow id) (Trace.Shows flow id) := by
  intro t event t' tr h hstep
  obtain ⟨e, acts, he, rfl⟩ := Trace.step_cases hstep
  have hadvance := Engine.step_advance h.sound.valid he
  have hgiven : id < e.ctx.next := Nat.lt_of_lt_of_le h.given hadvance.le
  cases hs : tr.session with
  -- a session that is gone does not come back, and its number is not given again
  | none =>
    obtain ⟨vs, seen⟩ := exists_seen flow id event
    have hgone := h.session.trans hs
    have hnone : sendsFor id (outputsOf acts) = [] := by
      refine List.filter_eq_nil_iff.2 fun p hp => ?_
      obtain ⟨s, hmem, hid⟩ := Engine.step_sends he p hp
      have hne := List.find?_eq_none.1 hgone s hmem
      rwa [hid] at hne
    refine ⟨vs, tr, seen, final_of_none hs vs, h.sound.step hstep, hgiven, ?_, h.flow, ?_, ?_⟩
    · rw [hs]
      exact lookup_eq_none_of_advance hadvance h.given hgone
    · rw [Trace.outputs_cons, sendsFor_append, hnone, List.append_nil]
      exact h.sends
    · rw [Trace.outputs_cons]
      exact h.outputs.trans (List.sublist_append_left _ _)
  -- one that is there does what its machine does
  | some s =>
    obtain ⟨u, hdata, rfl⟩ := h.flow s hs
    have hlookup := h.session.trans hs
    obtain ⟨hmem, rfl⟩ := mem_of_lookup hlookup
    obtain ⟨vs, r, seen, hprojects⟩ := projects_step h.sound.valid h.sound.unique hmem hdata he
    have hruns := hprojects.runs tr.outputs
    rw [← hs] at hruns
    refine ⟨vs, _, seen, hruns, h.sound.step hstep, hgiven, hprojects.session, fun s' hs' => ?_, ?_, ?_⟩
    · exact flow_of_lookup h.sound.valid hadvance h.given hlookup hdata (hprojects.session.trans hs')
    · rw [Trace.outputs_cons, sendsFor_append, hprojects.sends, sends_append]
      exact congrArg (· ++ _) h.sends
    · rw [Trace.outputs_cons]
      exact h.outputs.append hprojects.outputs

/-! ## The start of a session -/

/-- The session is what a SYN with these data opens. -/
structure Opens (flow : Flow) (pkt : TunPacket) (h : TcpHeader) (data : Bytes) (s : NgSession) : Prop where
  carries : CarriesSegment flow (pkt.take getMtu) h data
  syn : h.syn = true
  urg : h.urg = false
  session : ∃ mss ws uid calls window socket, 0 ≤ socket ∧
    s = openedSession s.id flow h mss ws uid data calls window socket

/-- A TCP session at the next address is what the packet has opened. -/
theorem HandledIp.opens {sessions : Int} {pkt : TunPacket} {calls : TunCalls}
    (h : HandledIp args ctx sessions (pkt.take getMtu) calls ctx' acts) (hv : ctx.table.Valid) (hs : s ∈ ctx'.sessions)
    (hid : s.id = ctx.next) (ht : s.data = .tcp t) : ∃ header data, Opens t.flow pkt header data s := by
  have fresh : s ∉ ctx.sessions := fun hmem => Nat.ne_of_lt (hv.fresh s.entry (List.mem_map_of_mem hmem)) hid
  have old : ∀ {ctx' : Context}, ctx.Kept ctx' → s ∉ ctx'.sessions := fun hkept hmem => by
    obtain ⟨f, hf, hl⟩ := hkept.sessions
    rw [hf] at hmem
    obtain ⟨a, ha, hfa⟩ := List.mem_filterMap.1 hmem
    have hentry : s.id = a.id := congrArg Prod.fst (hl a ha s hfa).entry
    exact Nat.ne_of_lt (hv.fresh a.entry (List.mem_map_of_mem ha)) (hentry.symm.trans hid)
  have other : ∀ {data : SessionData}, ctx.Added ctx' data → s.data = data := fun hadded => by
    obtain ⟨socket, ev, hsessions⟩ := hadded.sessions
    rw [hsessions] at hs
    rcases List.mem_cons.1 hs with rfl | hs
    · rfl
    · exact absurd hs fresh
  -- the session is new, so that the packet has opened it
  cases h with
  | quiet same _ => exact absurd (same ▸ hs) fresh
  | icmp _ _ _ handled =>
    rcases handled.later_or_added hv with hlater | ⟨-, i, -, hadded⟩
    · exact absurd hs (old hlater.kept)
    · cases ht.symm.trans (other hadded)
  | udp _ _ _ _ handled =>
    rcases handled.kept_or_added hv with hkept | ⟨-, u, -, hadded⟩
    · exact absurd hs (old hkept)
    · cases ht.symm.trans (other hadded)
  -- of what is done with a segment only an opened socket adds a session
  | tcp reads protocol _ _ _ _ handled =>
    cases handled with
    | ignored _ _ same | unknown _ _ _ same => exact absurd (same ▸ hs) fresh
    | failed _ _ _ _ _ same =>
      subst same
      exact absurd hs fresh
    | session found segment urg changed =>
      obtain ⟨-, hs', hdata⟩ := mem_of_findTcp found
      exact absurd (changed ▸ hs)
        (old (later_update hv hs' (NgSession.later_withTcp hdata (later_segmentResult ..))).kept)
    | opened found segment syn urg opens later options listens _ added =>
      subst added
      obtain ⟨-, w, rfl⟩ := listens rfl
      rcases List.mem_cons.1 hs with rfl | hs
      · obtain rfl := SessionData.tcp.inj ht
        obtain ⟨-, -, hsocket, -⟩ := openTcpSocket_some opens
        exact ⟨_, _, ⟨_, _, reads, protocol, rfl, segment⟩, syn, urg, _, _, _, _, _, _, hsocket, rfl⟩
      · exact absurd hs fresh

theorem Engine.opens_step {e e' : Engine} {event : Event} (hv : e.ctx.table.Valid)
    (h : e.step args event = .ok (e', acts)) (hs : s ∈ e'.ctx.sessions) (hid : s.id = e.ctx.next)
    (ht : s.data = .tcp t) :
    ∃ pkt calls header data, event = .tun pkt calls ∧ Opens t.flow pkt header data s := by
  rcases Engine.step_cases hv h with ⟨pkt, calls, rfl, -, handled⟩ | ⟨-, hlater⟩
  · obtain ⟨header, data, opens⟩ := handled.opens hv hs hid ht
    exact ⟨pkt, calls, header, data, rfl, opens⟩
  · obtain ⟨f, hf, hl⟩ := hlater.sessions
    rw [hf] at hs
    obtain ⟨a, ha, hfa⟩ := List.mem_filterMap.1 hs
    have hentry : s.id = a.id := (hl a ha s hfa).id
    exact absurd (hentry.symm.trans hid) (Nat.ne_of_lt (hv.fresh a.entry (List.mem_map_of_mem ha)))

/-- The session that an event opens is shown as it is from there on. -/
theorem Trace.Sound.shows {t t' : Trace} {event : Event} (h : t.Sound) (hstep : t.step args event = .ok t')
    (hs : s ∈ t'.engine.ctx.sessions) (hid : s.id = t.engine.ctx.next) {u : TcpSession} (hdata : s.data = .tcp u) :
    t'.Shows u.flow s.id ⟨some s, []⟩ := by
  have hsound := h.step hstep
  refine ⟨hsound, hsound.valid.fresh s.entry (List.mem_map_of_mem hs), lookup_of_mem hsound.valid hs, ?_, ?_,
    List.nil_sublist _⟩
  · rintro _ ⟨⟩
    exact ⟨u, hdata, rfl⟩
  · refine List.filter_eq_nil_iff.2 fun p hp => ?_
    have hlt := h.sent_step hstep p hp
    rw [← hid] at hlt
    simpa using Nat.ne_of_lt hlt

/-- A TCP session that is there has been opened by one of the events. -/
theorem opened_of_run {events : List Event} {t : Trace}
    (h : final (stepOk (Trace.step args)) (.ok .init) events = .ok t) {u : TcpSession} (hs : s ∈ t.engine.ctx.sessions)
    (hdata : s.data = .tcp u) :
    ∃ before pkt calls after header data s₀ t₁, events = before ++ .tun pkt calls :: after ∧
      Opens u.flow pkt header data s₀ ∧ s₀.id = s.id ∧ t₁.Shows u.flow s.id ⟨some s₀, []⟩ ∧
        final (stepOk (Trace.step args)) (.ok t₁) after = .ok t := by
  induction events using List.reverseRecOn generalizing t s u with
  | nil =>
    cases h
    cases hs
  | append_singleton events event ih =>
    obtain ⟨t₀, h₀, hstep⟩ := final_append_eq_ok h
    have hsound := sound_of_run h₀
    obtain ⟨e, acts, he, rfl⟩ := Trace.step_cases hstep
    rcases (Engine.step_advance hsound.valid he).mem (List.mem_map_of_mem hs) with hold | hnew
    · -- it was there before, as a session of the same flow
      obtain ⟨s', hs', hentry⟩ := List.mem_map.1 hold
      have hkey : s'.data.key.lasting = .tcp u.flow u.uid := by
        rw [show s'.data.key.lasting = s.data.key.lasting from congrArg Prod.snd hentry, hdata]
        rfl
      cases hdata' : s'.data with
      | icmp | udp =>
        rw [hdata'] at hkey
        cases hkey
      | tcp u' =>
        rw [hdata'] at hkey
        obtain ⟨hflow, -⟩ := Key.tcp.inj hkey
        obtain ⟨before, pkt, calls, after, header, data, s₀, t₁, rfl, opens, hid, hshows, hafter⟩ := ih h₀ hs' hdata'
        rw [show s'.id = s.id from congrArg Prod.fst hentry] at hid hshows
        rw [hflow] at opens hshows
        refine ⟨before, pkt, calls, after ++ [event], header, data, s₀, t₁, ?_, opens, hid, hshows, ?_⟩
        · rw [List.append_assoc]
          rfl
        · rw [final_append, hafter]
          exact hstep
    · obtain ⟨pkt, calls, header, data, rfl, opens⟩ := Engine.opens_step hsound.valid he hs hnew hdata
      exact ⟨events, pkt, calls, [], header, data, s, _, rfl, opens, rfl, hsound.shows hstep hs hnew hdata, rfl⟩

/-- What a run shows of the session that was `s₀` before `events`: its machine comes to the session that is
there, and has done what was done for it in this order, with the same data for its socket. -/
def ShownSince (args : Arguments) (flow : Flow) (s₀ : NgSession) (events : List Event) (t : Trace) : Prop :=
  ∃ vs tr, Views (Event.Seen flow s₀.id) events vs ∧
    final (stepOk (SessionTrace.step args)) (.ok ⟨some s₀, []⟩) vs = .ok tr ∧ t.engine.ctx.lookup s₀.id = tr.session ∧
    sendsFor s₀.id t.outputs = sends tr.outputs ∧ tr.outputs.Sublist t.outputs

theorem Trace.Shows.since {t t' : Trace} {flow : Flow} (h : t.Shows flow s.id ⟨some s, []⟩) {events : List Event}
    (hrun : final (stepOk (Trace.step args)) (.ok t) events = .ok t') : ShownSince args flow s events t' := by
  obtain ⟨vs, tr, hviews, hmachine, hshown⟩ := (follows_session args flow s.id).run h hrun
  exact ⟨vs, tr, hviews, hmachine, hshown.session, hshown.sends, hshown.outputs⟩

/-- A TCP session of the table has been opened by a SYN; from there on the run, as far as it goes, is for it
a run of its own machine on what it sees of the events. -/
theorem session_of_run {args : Arguments} {events more : List Event} {t t' : Trace} {s : NgSession} {u : TcpSession}
    (h : final (stepOk (Trace.step args)) (.ok .init) events = .ok t)
    (h' : final (stepOk (Trace.step args)) (.ok t) more = .ok t') (hs : s ∈ t.engine.ctx.sessions)
    (hdata : s.data = .tcp u) :
    ∃ before pkt calls after header data s₀, events = before ++ .tun pkt calls :: after ∧
      Opens u.flow pkt header data s₀ ∧ s₀.id = s.id ∧ ShownSince args u.flow s₀ (after ++ more) t' := by
  obtain ⟨before, pkt, calls, after, header, data, s₀, t₁, hevents, opens, hid, hshows, hafter⟩ :=
    opened_of_run h hs hdata
  have hrun : final (stepOk (Trace.step args)) (.ok t₁) (after ++ more) = .ok t' := by rw [final_append, hafter, h']
  rw [← hid] at hshows
  exact ⟨before, pkt, calls, after, header, data, s₀, hevents, opens, hid, hshows.since hrun⟩

/-- `GET` from the client of the flow, and a socket that takes one byte. -/
def getTaken : List Event := [.tun (segment 101 1 0x18 [71, 69, 84]) .working, .socket 0 (.taking 1)]

theorem session_of_run_get : ∃ (t t' : Trace) (s : NgSession) (u : TcpSession),
    final (stepOk (Trace.step (.plain [] _ compiled_redirectAll))) (.ok .init) connected = .ok t ∧
    final (stepOk (Trace.step (.plain [] _ compiled_redirectAll))) (.ok t) getTaken = .ok t' ∧
    sendsFor 0 t'.outputs = [(0, [71])] ∧
    ∃ before pkt calls after header data s₀, connected = before ++ .tun pkt calls :: after ∧
      Opens u.flow pkt header data s₀ ∧ s₀.id = s.id ∧
      ShownSince (.plain [] _ compiled_redirectAll) u.flow s₀ (after ++ getTaken) t' := by
  have hfirst : (final (stepOk (Trace.step (.plain [] _ compiled_redirectAll))) (.ok .init) connected).map
      (fun t => (t.engine.ctx.findTcp segmentFlow).isSome) = .ok true := by decide +kernel
  have hboth : (final (stepOk (Trace.step (.plain [] _ compiled_redirectAll))) (.ok .init) (connected ++ getTaken)).map
      (fun t => sendsFor 0 t.outputs) = .ok [(0, [71])] := by decide +kernel
  obtain ⟨t, ht, hfound⟩ := map_eq_ok hfirst
  obtain ⟨t', ht', hsent⟩ := map_eq_ok hboth
  obtain ⟨⟨s, u⟩, hfind⟩ := Option.isSome_iff_exists.1 hfound
  obtain ⟨-, hs, hdata⟩ := mem_of_findTcp hfind
  rw [final_append, ht] at ht'
  exact ⟨t, t', s, u, ht, ht', hsent, session_of_run ht ht' hs hdata⟩

/-! ## The data of a connection -/

theorem ReadsSegment.seq_lt {pkt : TunPacket} {payload : Nat} {h : TcpHeader} {data : Bytes}
    (hr : ReadsSegment pkt payload h data) :
    h.seq < 4294967296 := by
  obtain ⟨seq, hseq, hread⟩ := bind_eq_ok hr.header
  obtain ⟨ackSeq, -, hread⟩ := bind_eq_ok hread
  obtain ⟨doff, -, hread⟩ := bind_eq_ok hread
  obtain ⟨flags, -, hread⟩ := bind_eq_ok hread
  obtain ⟨window, -, hread⟩ := bind_eq_ok hread
  cases hread
  exact lt_of_loadBe32 hseq

/-- The machine of a session that a SYN without data opened. -/
theorem delivers_of_machine {id mss ws window : Nat} {flow : Flow} {h : TcpHeader} {uid socket : Int} {calls : TunCalls}
    {stream : Bytes} {vs : List SessionEvent} {tr : SessionTrace} (hsocket : 0 ≤ socket) (hseq : h.seq < 4294967296)
    (hstream : stream.length < 2147483648) (hslices : ∀ v ∈ vs, v.Carries h.seq stream)
    (hrun : final (stepOk (SessionTrace.step args))
      (.ok ⟨some (openedSession id flow h mss ws uid [] calls window socket), []⟩) vs =
      .ok tr) : tr.Holds id fun t os => Delivers h.seq stream t (sentBytes os) := by
  have hopened : Delivers h.seq stream { newTcpSession flow h mss ws uid [] calls with recvWindow := window } [] :=
    .waits (.inl rfl) rfl nofun rfl
  have hguard : EveryStep (stepOk (SessionTrace.step args))
      (fun r e => OnOk (fun tr => tr.Guarded (streamGuard id h.seq stream) e) r)
      (.ok ⟨some (openedSession id flow h mss ws uid [] calls window socket), []⟩) vs :=
    (everyStep_true _ _).imp_of_mem fun e he r _ tr _ s t _ _ => (hslices e he).guarded id t
  refine holds_sessionStates (G := streamGuard id h.seq stream)
    (P := fun t os => Delivers h.seq stream t (sentBytes os))
    (fun before hp hmove => ?_) rfl (fits_openedSession hsocket) rfl hopened hguard _ (final_mem_states _ _) tr hrun
  rw [sentBytes_append]
  exact delivers_move hseq hstream hp hmove

/-- What the event is to a session brings no data that is not the stream's. -/
theorem Event.Seen.carries {flow : Flow} {id start : Nat} {stream : Bytes} {event : Event} {vs : List SessionEvent}
    (h : event.Seen flow id vs) (hslices : ∀ pkt calls, event = .tun pkt calls → ∀ h data,
      CarriesSegment flow (pkt.take getMtu) h data → data ≠ [] → h.Carries start stream data) :
    ∀ v ∈ vs, v.Carries start stream := by
  cases h with
  | turn calls sessions =>
    intro v hv
    split at hv <;> simp only [List.mem_cons, List.not_mem_nil, or_false] at hv
    · rcases hv with rfl | rfl <;> trivial
    · subst hv
      trivial
  | segment carries urg calls =>
    intro v hv
    rw [List.mem_singleton.1 hv]
    exact hslices _ _ rfl _ _ carries
  | socket | checkAllowed | clear =>
    intro v hv
    rw [List.mem_singleton.1 hv]
    trivial
  | packet | other =>
    intro v hv
    cases hv

/-- The data that the socket of a connection is given are at all times a prefix of what its client sent in
it, whatever else happens: whichever packets there are of other flows, and events of other sessions. -/
theorem delivered_of_run {args : Arguments} {before after : List Event} {pkt : TunPacket} {calls : TunCalls}
    {t₀ t₁ t : Trace} {s : NgSession} {u : TcpSession} {header : TcpHeader} {stream : Bytes}
    (h₀ : final (stepOk (Trace.step args)) (.ok .init) before = .ok t₀) (h₁ : t₀.step args (.tun pkt calls) = .ok t₁)
    (h : final (stepOk (Trace.step args)) (.ok t₁) after = .ok t)
    (hs : t₁.engine.ctx.lookup t₀.engine.ctx.next = some s) (hdata : s.data = .tcp u)
    (hsyn : CarriesSegment u.flow (pkt.take getMtu) header []) (hstream : stream.length < 2147483648)
    (hslices : ∀ pkt calls, .tun pkt calls ∈ after → ∀ h data, CarriesSegment u.flow (pkt.take getMtu) h data →
      data ≠ [] →
      h.Carries header.seq stream data) :
    (sendsFor s.id t.outputs).flatMap (·.2) <+: stream := by
  have hsound := sound_of_run h₀
  obtain ⟨hmem, hid⟩ := mem_of_lookup hs
  have hshows := hsound.shows h₁ hmem hid hdata
  obtain ⟨e, acts, he, rfl⟩ := Trace.step_cases h₁
  obtain ⟨pkt', calls', header', data', hevent, opens⟩ := Engine.opens_step hsound.valid he hmem hid hdata
  cases hevent
  obtain ⟨p, ports, reads, -, -, segment⟩ := hsyn
  obtain ⟨rfl, rfl, -⟩ := opens.carries.unique reads segment
  obtain ⟨mss, ws, uid, calls', window, socket, hsocket, hopened⟩ := opens.session
  obtain ⟨vs, tr, hviews, hmachine, -, hsends, -⟩ := hshows.since h
  have hcarries : ∀ v ∈ vs, v.Carries header'.seq stream := by
    refine hviews.forall_mem fun event hevent ws hsees => hsees.carries fun pkt calls heq => ?_
    subst heq
    exact hslices pkt calls hevent
  rw [hopened] at hmachine
  obtain ⟨t', hdelivers, -⟩ := delivers_of_machine hsocket segment.seq_lt hstream hcarries hmachine
  rw [hsends]
  exact hdelivers.isPrefix

theorem delivered_of_run_get : ∃ t,
    final (stepOk (Trace.step (.plain [] _ compiled_redirectAll))) (.ok .init) (connected ++ getTaken) = .ok t ∧
    sendsFor 0 t.outputs = [(0, [71])] ∧ (sendsFor 0 t.outputs).flatMap (·.2) <+: [71, 69, 84] := by
  have hopened : (Trace.init.step (.plain [] _ compiled_redirectAll) (.tun (segment 100 0 0x02 []) .working)).map
      (fun t => (t.engine.ctx.lookup 0).map fun s => (s.id, s.tcp?.map (·.flow))) =
          .ok (some (0, some segmentFlow)) := by
    decide +kernel
  have hrun : (final (stepOk (Trace.step (.plain [] _ compiled_redirectAll))) (.ok .init) (connected ++ getTaken)).map
      (fun t => sendsFor 0 t.outputs) = .ok [(0, [71])] := by decide +kernel
  obtain ⟨t₁, h₁, hfound⟩ := map_eq_ok hopened
  obtain ⟨t, ht, hsent⟩ := map_eq_ok hrun
  obtain ⟨s, hs, hfacts⟩ := Option.map_eq_some_iff.1 hfound
  obtain ⟨hid, htcp⟩ := Prod.mk.inj hfacts
  obtain ⟨u, hu, hflow⟩ := Option.map_eq_some_iff.1 htcp
  have hdata : s.data = .tcp u := by
    unfold NgSession.tcp? at hu
    split at hu
    · cases hu
      assumption
    · cases hu
  obtain ⟨t₁', h₁', hafter⟩ := final_cons_eq_ok ht
  cases h₁.symm.trans h₁'
  -- the two segments are read in one way only
  have hreads : ∀ {pkt : TunPacket} {d : Bytes} {h : TcpHeader} (header : TcpHeader) (data : Bytes),
      ReadsPacket (pkt.take getMtu) ⟨4, 6, [10, 1, 10, 1], [8, 8, 8, 8], 20⟩ ⟨1000, 443, false⟩ →
      ReadsSegment (pkt.take getMtu) 20 header data → CarriesSegment u.flow (pkt.take getMtu) h d →
      h = header ∧ d = data := fun header data reads segment carries => by
    obtain ⟨hh, hd, -⟩ := carries.unique reads segment
    exact ⟨hh, hd⟩
  refine ⟨t, ht, hsent, ?_⟩
  have hnone : final (stepOk (Trace.step (.plain [] _ compiled_redirectAll))) (.ok .init) [] = .ok .init := rfl
  have hsyn : CarriesSegment u.flow (.take (segment 100 0 0x02 []) getMtu) (plainHeader 100 0 false true false) [] := by
    rw [hflow]
    exact ⟨_, _, bareSyn_segment.reads, rfl, rfl, ⟨by decide +kernel, by decide +kernel⟩⟩
  rw [← hid]
  refine delivered_of_run hnone h₁ hafter hs hdata hsyn (by decide) fun pkt calls hmem h data carries hne => ?_
  change Event.tun pkt calls ∈ [.socket 0 (.taking 0), .tun (segment 101 1 0x10 []) .working,
    .tun (segment 101 1 0x18 [71, 69, 84]) .working, .socket 0 (.taking 1)] at hmem
  simp only [List.mem_cons, reduceCtorEq, Event.tun.injEq, List.not_mem_nil, or_false, false_or] at hmem
  -- the ACK has no data, the other one has `GET`
  rcases hmem with ⟨rfl, -⟩ | ⟨rfl, -⟩
  · obtain ⟨-, rfl⟩ := hreads (plainHeader 101 1 false false true) []
      ⟨by decide +kernel, by decide +kernel⟩ ⟨by decide +kernel, by decide +kernel⟩ carries
    exact absurd rfl hne
  · obtain ⟨rfl, rfl⟩ := hreads ⟨101, 1, 5, false, false, false, true, true, false, 65535⟩ [71, 69, 84]
      ⟨by decide +kernel, by decide +kernel⟩ ⟨by decide +kernel, by decide +kernel⟩ carries
    exact ⟨by decide, 0, by decide, by decide, by decide⟩

end SunProxy.Net
