/-
The limit on active sessions. `handle_ip` compares it with the number of sessions at the last turn of the
loop, and for DNS not at all. So the limit holds as long as the flows that are let through since then, DNS
among them, have room besides the sessions that were counted.
-/
import SunProxy.Net.UdpRun

namespace SunProxy.Net

open SunProxy.Buffer SunProxy.Kotlin SunProxy.Result SunProxy.Run SunProxy.Table

variable {args : Arguments} {ctx ctx' : Context} {acts : List Action} {calls : TunCalls} {sessions : Int}
  {pkt : TunPacket}

/-! ## Counting -/

theorem countP_filterMap_le {α β : Type} {p : α → Bool} {q : β → Bool} {f : α → Option β} {l : List α}
    (h : ∀ a ∈ l, ∀ b, f a = some b → q b = true → p a = true) : (l.filterMap f).countP q ≤ l.countP p := by
  induction l with
  | nil => exact Nat.le_refl _
  | cons a l ih =>
    have ih := ih fun a' ha' => h a' (List.mem_cons_of_mem _ ha')
    rw [List.countP_cons]
    cases hfa : f a with
    | none =>
      rw [List.filterMap_cons_none hfa]
      omega
    | some b =>
      rw [List.filterMap_cons_some hfa, List.countP_cons]
      have hab := h a List.mem_cons_self b hfa
      cases hq : q b with
      | false => simp only [Bool.false_eq_true, if_false]; omega
      | true => simp only [hab hq, if_true]; omega

theorem Context.Kept.countActive_le (h : ctx.Kept ctx') : ctx'.countActive ≤ ctx.countActive := by
  obtain ⟨f, hf, hl⟩ := h.sessions
  rw [Context.countActive, Context.countActive, hf]
  exact Int.ofNat_le.2 (countP_filterMap_le fun s hs s' hs' => (hl s hs s' hs').active)

theorem Context.Added.countActive_le {data : SessionData} (h : ctx.Added ctx' data) :
    ctx'.countActive ≤ ctx.countActive + 1 := by
  obtain ⟨socket, ev, hs⟩ := h.sessions
  rw [Context.countActive, Context.countActive, hs, List.countP_cons]
  split <;> omega

/-! ## New flows -/

/-- The table has no session for the packet, and the packet is one that starts a session. -/
def newFlow (ctx : Context) (pkt : TunPacket) (p : IpPacket) (ports : Ports) : Bool :=
  if isIcmp p.protocol then load pkt.buffer p.payload = .ok 8 && (ctx.findIcmp p).isNone
  else if p.protocol = IPPROTO_UDP then (ctx.findUdp (flowOf p ports)).isNone
  else p.protocol = IPPROTO_TCP && (ports.syn && (ctx.findTcp (flowOf p ports)).isNone)

/-- The packet is of a new flow, and `handle_ip` does not drop it for the limit. -/
def letsThrough (args : Arguments) (ctx : Context) (sessions : Int) (pkt : TunPacket) : Bool :=
  match parseIp pkt with
  | .ok (some p) =>
    match readPorts pkt p with
    | .ok (some ports) => !(args.maxsessions ≤ sessions && startsFlow args ctx p ports) && newFlow ctx pkt p ports
    | _ => false
  | _ => false

theorem letsThrough_of_reads {p : IpPacket} {ports : Ports} (reads : ReadsPacket pkt p ports)
    (room : startsFlow args ctx p ports = true → sessions < args.maxsessions) (new : newFlow ctx pkt p ports = true) :
    letsThrough args ctx sessions pkt = true := by
  have hroom : (args.maxsessions ≤ sessions && startsFlow args ctx p ports) = false := by
    rw [Bool.and_eq_false_imp]
    intro hlimit
    exact Bool.eq_false_iff.2 fun hs => absurd (of_decide_eq_true hlimit) (not_le.2 (room hs))
  simp only [letsThrough, reads.packet, reads.ports, hroom, new, Bool.not_false, Bool.and_self]

/-- After a packet as many sessions are active as before, or one more if it is of a new flow. -/
theorem HandledIp.countActive_le (h : HandledIp args ctx sessions pkt calls ctx' acts) (hv : ctx.table.Valid) :
    ctx'.countActive ≤ ctx.countActive ∨
      letsThrough args ctx sessions pkt = true ∧ ctx'.countActive ≤ ctx.countActive + 1 := by
  cases h with
  | quiet same _ => exact .inl (same ▸ Int.le_refl _)
  | @icmp p ports _ reads protocol room handled =>
    rcases handled.later_or_added hv with h | ⟨found, i, -, hadded⟩
    · exact .inl h.kept.countActive_le
    · -- only an echo request adds a session
      cases handled with
      | ignored _ same => exact .inl (same ▸ Int.le_refl _)
      | session found' _ _ => rw [found] at found'; cases found'
      | failed _ _ _ same => exact .inl (same ▸ Int.le_refl _)
      | opened echo _ _ _ _ _ _ _ =>
        have new : newFlow ctx pkt p ports = true := by
          simp only [newFlow, protocol, if_true, echo, found, decide_true, Option.isNone_none, Bool.and_self]
        exact .inr ⟨letsThrough_of_reads reads room new, hadded.countActive_le⟩
  | @udp p ports _ _ reads protocol room _ handled =>
    rcases handled.kept_or_added hv with h | ⟨found, u, -, hadded⟩
    · exact .inl h.countActive_le
    · have hicmp : isIcmp p.protocol = false := by rw [protocol]; rfl
      have new : newFlow ctx pkt p ports = true := by
        rw [newFlow, hicmp, if_neg Bool.false_ne_true, if_pos protocol, found, Option.isNone_none]
      exact .inr ⟨letsThrough_of_reads reads room new, hadded.countActive_le⟩
  | @tcp p ports _ _ _ _ reads protocol room _ _ _ handled =>
    rcases handled.later_or_added hv with h | ⟨found, t, -, -, hadded⟩
    · exact .inl h.kept.countActive_le
    · cases handled with
      | ignored _ _ same => exact .inl (same ▸ Int.le_refl _)
      | unknown _ _ _ same => exact .inl (same ▸ Int.le_refl _)
      | session found' _ _ _ => rw [found] at found'; cases found'
      | failed _ _ _ _ _ same => exact .inl (same ▸ Int.le_refl _)
      | opened _ segment syn _ _ _ _ _ _ _ =>
        have hports : ports.syn = true := (syn_of_readPorts protocol reads.ports segment.header).trans syn
        have hicmp : isIcmp IPPROTO_TCP = false := rfl
        have hudp : IPPROTO_TCP ≠ IPPROTO_UDP := by decide
        have new : newFlow ctx pkt p ports = true := by
          simp only [newFlow, protocol, hicmp, Bool.false_eq_true, if_false, hudp, hports, found, decide_true,
            Option.isNone_none, Bool.and_self]
        exact .inr ⟨letsThrough_of_reads reads room new, hadded.countActive_le⟩

/-! ## Runs -/

def Trace.WithinLimit (args : Arguments) (t : Trace) : Prop := t.engine.ctx.countActive ≤ args.maxsessions

/-- A run with the number of new flows that were let through since the sessions were counted. -/
structure Batch where
  trace : Trace
  flows : Nat

def Batch.init : Batch := ⟨.init, 0⟩

/-- The packet read next is of a new flow, and is not dropped. -/
def Batch.lets (args : Arguments) (b : Batch) (pkt : TunPacket) : Bool :=
  letsThrough args b.trace.engine.ctx b.trace.engine.sessions (pkt.take getMtu)

def Batch.next (args : Arguments) (b : Batch) : Event → Nat
  | .loop _ => 0
  | .tun pkt _ => if b.lets args pkt then b.flows + 1 else b.flows
  | .socket .. | .checkAllowed | .clear => b.flows

def Batch.step (args : Arguments) (b : Batch) (event : Event) : Except Fault Batch := do
  let t ← b.trace.step args event
  return ⟨t, b.next args event⟩

/-- The event lets no new flow through, or one for which there is room besides the sessions counted last and
the flows let through since. -/
def Batch.HasRoom (args : Arguments) (b : Batch) : Event → Prop
  | .tun pkt _ => b.lets args pkt = true → b.trace.engine.sessions + (b.flows + 1) ≤ args.maxsessions
  | _ => True

instance (b : Batch) : (event : Event) → Decidable (b.HasRoom args event)
  | .tun pkt _ => inferInstanceAs (Decidable (b.lets args pkt = true → _))
  | .loop _ | .socket .. | .checkAllowed | .clear => isTrue trivial

/-- The sessions that are active were counted, or are of flows let through since. -/
structure Batch.Inv (b : Batch) : Prop where
  valid : b.trace.engine.ctx.table.Valid
  counted : b.trace.engine.ctx.countActive ≤ b.trace.engine.sessions + b.flows

theorem Batch.inv_init : Batch.init.Inv := ⟨⟨.nil, nofun⟩, Int.le_refl _⟩

theorem Engine.sessions_of_step {e e' : Engine} {event : Event} (h : e.step args event = .ok (e', acts)) :
    e'.sessions = match event with
      | .loop _ => e.ctx.countActive
      | _ => e.sessions := by
  cases event with
  | loop calls =>
    cases h
    rfl
  | tun pkt calls =>
    simp only [Engine.step] at h
    split at h
    · cases h
      rfl
    · obtain ⟨r, -, h⟩ := bind_eq_ok h
      cases h
      rfl
  | socket id calls =>
    obtain ⟨r, -, h⟩ := bind_eq_ok h
    cases h
    rfl
  | checkAllowed | clear =>
    cases h
    rfl

theorem Batch.Inv.step {b b' : Batch} {event : Event} (h : b.Inv) (hs : b.step args event = .ok b') : b'.Inv := by
  obtain ⟨t, ht, hs⟩ := bind_eq_ok hs
  cases hs
  obtain ⟨e, acts, he, rfl⟩ := Trace.step_cases ht
  have hsessions := Engine.sessions_of_step he
  have hcounted := h.counted
  refine ⟨(Engine.step_advance h.valid he).valid h.valid, ?_⟩
  show e.ctx.countActive ≤ e.sessions + _
  rcases Engine.step_cases h.valid he with ⟨pkt, calls, rfl, -, handled⟩ | ⟨-, later⟩
  · simp only [Batch.next, hsessions]
    rcases handled.countActive_le h.valid with hle | ⟨hlets, hle⟩
    · split <;> omega
    · rw [if_pos (show b.lets args pkt = true from hlets)]
      omega
  · have hle := later.kept.countActive_le
    cases event with
    | loop =>
      -- the count is that of the sessions before the turn
      simp only [Batch.next, hsessions]
      omega
    | tun =>
      simp only [Batch.next, hsessions]
      split <;> omega
    | socket | checkAllowed | clear =>
      simp only [Batch.next, hsessions]
      omega

/-- An event for which there is room keeps the limit. -/
theorem Batch.withinLimit_step {b b' : Batch} {event : Event} (h : b.Inv) (hw : b.trace.WithinLimit args)
    (hroom : b.HasRoom args event) (hs : b.step args event = .ok b') : b'.trace.WithinLimit args := by
  obtain ⟨t, ht, hs⟩ := bind_eq_ok hs
  cases hs
  obtain ⟨e, acts, he, rfl⟩ := Trace.step_cases ht
  have hbefore : b.trace.engine.ctx.countActive ≤ args.maxsessions := hw
  have hcounted := h.counted
  show e.ctx.countActive ≤ args.maxsessions
  rcases Engine.step_cases h.valid he with ⟨pkt, calls, rfl, -, handled⟩ | ⟨-, later⟩
  · rcases handled.countActive_le h.valid with hle | ⟨hlets, hle⟩
    · omega
    · have hfits := hroom hlets
      omega
  · have hle := later.kept.countActive_le
    omega

theorem Batch.states_trace (args : Arguments) (events : List Event) :
    (states (stepOk (Batch.step args)) (.ok .init) events).map (Except.map Batch.trace) =
      states (stepOk (Trace.step args)) (.ok .init) events := by
  refine (states_map (fun b event => ?_) (.ok Batch.init) events).symm
  simp only [Batch.step, bind, Except.bind]
  cases b.trace.step args event <;> rfl

/-- In every run in which each new flow that is let through finds room besides the sessions that were counted
last and the flows let through since, the number of active sessions stays within the limit. -/
theorem withinLimit_runStates (args : Arguments) (h : 0 ≤ args.maxsessions) (events : List Event)
    (hroom : EveryStep (stepOk (Batch.step args)) (fun r event => OnOk (fun b => b.HasRoom args event) r) (.ok .init)
      events) : ∀ r ∈ runStates args events, OnOk (Trace.WithinLimit args) r := by
  have hinit : Batch.init.trace.WithinLimit args := h
  have hbatch := onOk_states Batch.Inv (fun b : Batch => b.trace.WithinLimit args) (fun _ _ _ hi hs => hi.step hs)
    (fun _ _ _ hi hw hroom hs => Batch.withinLimit_step hi hw hroom hs) Batch.inv_init hinit hroom
  rw [runStates, ← Batch.states_trace]
  rintro r hr t ht
  obtain ⟨r', hr', rfl⟩ := List.mem_map.1 hr
  obtain ⟨b, hb, rfl⟩ := map_eq_ok ht
  exact hbatch r' hr' b hb

/-- A system with room for one session. -/
def oneSession : Arguments := { Arguments.plain [] _ compiled_redirectAll with maxsessions := 1 }

/-- A turn of the loop in which nothing is due. -/
def idleTurn : Event := .loop ⟨false, 0, fun _ => ⟨0, true, true, 0, 0⟩⟩

/-- Two datagrams with a count between them. -/
def countedBetween : List Event :=
  [idleTurn, .tun (datagramTo 9) .working, idleTurn, .tun (datagramTo 10) .working]

/-- With a count between them, the second of two datagrams is dropped. -/
theorem withinLimit_runStates_once :
    (final (stepOk (Trace.step oneSession)) (.ok .init) countedBetween).map
    (fun t => t.engine.ctx.countActive) = .ok 1 ∧
    OnOk (Trace.WithinLimit oneSession) (final (stepOk (Trace.step oneSession)) (.ok .init) countedBetween) :=
  ⟨by decide +kernel,
    withinLimit_runStates oneSession (by decide) countedBetween (by decide +kernel) _ (final_mem_states _ _)⟩

/-- Two datagrams of one poll open two sessions. -/
theorem not_withinLimit_twice : ¬ ∀ (args : Arguments) (events : List Event), 0 ≤ args.maxsessions →
    ∀ r ∈ runStates args events, OnOk (Trace.WithinLimit args) r := by
  intro h
  obtain ⟨e, acts, hrun, hcount⟩ : ∃ e acts, (⟨⟨[], 0⟩, 0⟩ : Engine).run oneSession
      [.tun (datagramTo 9) .working, .tun (datagramTo 10) .working] = .ok (e, acts) ∧ e.ctx.countActive = 2 :=
    ⟨_, _, rfl, rfl⟩
  have hwithin : e.ctx.countActive ≤ 1 := h oneSession _ (by decide) _ (final_mem_states _ _) _ (final_of_run hrun [])
  omega

end SunProxy.Net
