/-
Packets that arrive twice: what `handle_tcp` does with a copy of the packet it has just taken. The queue
and the numbers of the session stay as the first one left them; and the session stays open, unless the
first one closed it, or brought the last data together with the FIN.
-/
import SunProxy.Net.SessionRun
import SunProxy.Net.TcpQueue
import SunProxy.Net.TcpWire

namespace SunProxy.Net

open SunProxy.Buffer SunProxy.Result

variable {t t' : TcpSession} {h : TcpHeader} {data : Bytes} {calls : TunCalls}

/-! ## Resets -/

/-- The packet is written to the tun, and its receiver reads a reset. -/
def Action.IsReset (version : Nat) (a : Action) : Prop :=
  ∃ packet h, a = .output (.tunWrite packet) ∧ readTcpHeader packet (ipHeaderLength version) = .ok h ∧ h.rst = true

theorem isReset_writeRst (hflow : t.flow.WellFormed) : (Action.output (writeRst t).2).IsReset t.flow.version := by
  unfold writeRst
  dsimp only
  split
  · obtain ⟨header, hread, -, -, -, -, -, hrst⟩ := readTcpHeader_tcpPacket
      (t := { t with remoteSeq := u32 (t.remoteSeq + 1) }) hflow [] ⟨false, decide (t.state = .listen), false, true⟩
    exact ⟨_, header, rfl, hread, hrst⟩
  · obtain ⟨header, hread, -, -, -, -, -, hrst⟩ := readTcpHeader_tcpPacket hflow []
      ⟨false, decide (t.state = .listen), false, true⟩
    exact ⟨_, header, rfl, hread, hrst⟩

theorem not_isReset {packet : Bytes} {version : Nat}
    (hread : (readTcpHeader packet (ipHeaderLength version)).map (·.rst) = .ok false) :
    ¬(Action.output (.tunWrite packet)).IsReset version := by
  rintro ⟨_, header, ⟨⟩, hheader, hrst⟩
  rw [hheader] at hread
  exact Bool.false_ne_true ((Except.ok.inj hread).symm.trans hrst)

/-! ## Flags -/

/-- The same data waits to be forwarded, and the same numbers are next. -/
structure TcpSession.SameNumbers (t t' : TcpSession) : Prop where
  forward : t'.forward = t.forward
  localSeq : t'.localSeq = t.localSeq
  remoteSeq : t'.remoteSeq = t.remoteSeq

theorem TcpSession.SameNumbers.trans {t₁ t₂ t₃ : TcpSession} (h : t₁.SameNumbers t₂) (h' : t₂.SameNumbers t₃) :
    t₁.SameNumbers t₃ :=
  ⟨h'.forward.trans h.forward, h'.localSeq.trans h.localSeq, h'.remoteSeq.trans h.remoteSeq⟩

theorem sameNumbers_writeRst (hlisten : t.state ≠ .listen) : t.SameNumbers (writeRst t).1 := by
  unfold writeRst
  simp only [hlisten, if_false]
  split <;> exact ⟨rfl, rfl, rfl⟩

/-- A closed session that is reset stays in its state. -/
theorem state_writeRst_of_isClosed (hclosed : t.isClosed = true) : (writeRst t).1.state = t.state := by
  simp only [TcpSession.isClosed, Bool.or_eq_true, decide_eq_true_eq] at hclosed
  rw [state_writeRst]
  rcases hclosed with hs | hs <;> rw [hs]
  · rfl
  · rfl

/-- The segment acknowledges what was sent, and nothing else is in it. -/
def TcpSession.TakesAck (t : TcpSession) (h : TcpHeader) : Prop :=
  h.syn = false ∧ h.fin = false ∧ h.ack = true ∧ h.ackSeq = t.localSeq

instance (t : TcpSession) (h : TcpHeader) : Decidable (t.TakesAck h) := inferInstanceAs (Decidable (_ ∧ _))

/-- Where the state goes when what was sent is acknowledged. -/
def TcpState.acknowledged : TcpState → TcpState
  | .synRecv => .established
  | .lastAck => .closing
  | state => state

theorem acknowledged_acknowledged (state : TcpState) : state.acknowledged.acknowledged = state.acknowledged := by
  cases state <;> rfl

/-- The segment acknowledges nothing that was not sent yet. -/
def TcpSession.Expects (t : TcpSession) (h : TcpHeader) : Prop :=
  h.ack = false ∨ h.ackSeq = t.localSeq ∨ u32 (h.ackSeq + 1) = t.localSeq ∨ compareU32 h.ackSeq t.localSeq < 0

theorem handleAck_spec (t : TcpSession) (h : TcpHeader) :
    t.SameNumbers (handleAck t h) ∧ (handleAck t h).state = t.state.acknowledged := by
  unfold handleAck
  dsimp only
  split
  · rename_i hs
    exact ⟨⟨rfl, rfl, rfl⟩, by rw [hs]; rfl⟩
  · rename_i hs
    exact ⟨⟨rfl, rfl, rfl⟩, by rw [hs]; rfl⟩
  · rename_i hsyn hlast
    refine ⟨⟨rfl, rfl, rfl⟩, ?_⟩
    dsimp only at hsyn hlast ⊢
    cases hs : t.state <;> first | rfl | exact absurd hs hsyn | exact absurd hs hlast

/-- Neither a FIN that is taken nor an acknowledgment of what was not sent: nothing is written. -/
theorem handleFlags_spec (hrst : h.rst = false) (hfin : ¬t.TakesFin h) (hexpects : t.Expects h) (calls : TunCalls) :
    (handleFlags t h calls).2 = [] ∧ t.SameNumbers (handleFlags t h calls).1 ∧
      (handleFlags t h calls).1.state = if t.TakesAck h then t.state.acknowledged else t.state := by
  unfold handleFlags
  rw [hrst, if_neg Bool.false_ne_true]
  by_cases hack : h.ack = false ∨ h.ackSeq = t.localSeq
  · rw [if_pos hack]
    by_cases hsyn : h.syn = true
    · have hnone : ¬t.TakesAck h := fun htakes => Bool.false_ne_true (htakes.1.symm.trans hsyn)
      rw [if_pos hsyn, if_neg hnone]
      exact ⟨rfl, ⟨rfl, rfl, rfl⟩, rfl⟩
    · rw [if_neg hsyn]
      have hsyn : h.syn = false := by simpa using hsyn
      by_cases hf : h.fin = true
      · have hnone : ¬t.TakesAck h := fun htakes => Bool.false_ne_true (htakes.2.1.symm.trans hf)
        rw [if_pos hf, if_neg hnone]
        unfold handleFin
        split
        · rename_i hs
          exact absurd ⟨.inl hs, hf, hsyn, hrst, hack⟩ hfin
        · rename_i hs
          exact absurd ⟨.inr hs, hf, hsyn, hrst, hack⟩ hfin
        · exact ⟨rfl, ⟨rfl, rfl, rfl⟩, rfl⟩
      · rw [if_neg hf]
        by_cases ha : h.ack = true
        · have hseq : h.ackSeq = t.localSeq := hack.resolve_left (by simp [ha])
          obtain ⟨hsame, hstate⟩ := handleAck_spec t h
          have htakes : t.TakesAck h := ⟨hsyn, by simpa using hf, ha, hseq⟩
          rw [if_pos ha, if_pos htakes]
          exact ⟨rfl, hsame, hstate⟩
        · have hnone : ¬t.TakesAck h := fun htakes => ha htakes.2.2.1
          rw [if_neg ha, if_neg hnone]
          exact ⟨rfl, ⟨rfl, rfl, rfl⟩, rfl⟩
  · rw [if_neg hack]
    rw [not_or] at hack
    have hnone : ¬t.TakesAck h := fun htakes => hack.2 htakes.2.2.2
    rw [if_neg hnone]
    -- what is acknowledged was sent before, so that nothing is reset
    unfold handleOtherAck
    by_cases hkeep : u32 (h.ackSeq + 1) = t.localSeq
    · rw [if_pos hkeep]
      exact ⟨rfl, ⟨rfl, rfl, rfl⟩, rfl⟩
    · rw [if_neg hkeep]
      have hbefore : compareU32 h.ackSeq t.localSeq < 0 := by
        rcases hexpects with hno | hseq | hseq | hlt
        · exact absurd hno hack.1
        · exact absurd hseq hack.2
        · exact absurd hseq hkeep
        · exact hlt
      rw [if_pos hbefore]
      refine ⟨rfl, ?_, ?_⟩
      · dsimp only
        split <;> exact ⟨rfl, rfl, rfl⟩
      · dsimp only
        split <;> rfl

/-- Without the reset of an acknowledgment that was not expected, it was expected. -/
theorem expects_of_noReset (hflow : t.flow.WellFormed) (hrst : h.rst = false)
    (hreset : ∀ o ∈ (handleFlags t h calls).2, ¬(Action.output o).IsReset t.flow.version) : t.Expects h := by
  by_contra hnot
  simp only [TcpSession.Expects, not_or] at hnot
  obtain ⟨hack, hseq, hkeep, hlt⟩ := hnot
  have heq : (handleFlags t h calls).2 = [(writeRst t).2] := by
    simp [handleFlags, handleOtherAck, hrst, hack, hseq, hkeep, hlt]
  exact hreset _ (heq ▸ List.mem_singleton_self _) (isReset_writeRst hflow)

/-- A FIN that is taken closes the session, or half of it. -/
theorem handleFin_spec (htakes : t.TakesFin h) (calls : TunCalls) : (handleFin t calls).1.localSeq = t.localSeq ∧
    ((handleFin t calls).1.isClosed = true ∨ (handleFin t calls).1.state = .closeWait) := by
  unfold handleFin
  rcases htakes.1 with hs | hs
  · rw [hs]
    dsimp only
    split
    · cases hw : calls.tunWrite with
      | true => exact ⟨rfl, .inr rfl⟩
      | false => exact ⟨rfl, .inl rfl⟩
    · exact ⟨rfl, .inr rfl⟩
  · rw [hs]
    cases hw : calls.tunWrite with
    | true => exact ⟨rfl, .inl rfl⟩
    | false => exact ⟨rfl, .inl rfl⟩

theorem handleFlags_takesFin (htakes : t.TakesFin h) (calls : TunCalls) :
    handleFlags t h calls = handleFin t calls := by
  obtain ⟨-, hfin, hsyn, hrst, hack⟩ := htakes
  simp [handleFlags, hfin, hsyn, hrst, hack]

/-! ## Segments -/

theorem flow_queued (t : TcpSession) (h : TcpHeader) (data : Bytes) : (t.queued h data).flow = t.flow := by
  unfold TcpSession.queued queueTcp
  split
  · rfl
  · split <;> rfl

/-- Only the queue changes. -/
theorem queued_spec (t : TcpSession) (h : TcpHeader) (data : Bytes) : (t.queued h data).state = t.state ∧
    (t.queued h data).localSeq = t.localSeq ∧ (t.queued h data).remoteSeq = t.remoteSeq := by
  unfold TcpSession.queued queueTcp
  split
  · exact ⟨rfl, rfl, rfl⟩
  · split <;> exact ⟨rfl, rfl, rfl⟩

/-- The data of a copy is queued already, or was forwarded. -/
theorem sameNumbers_queued_heard (hforward : t'.forward = (t.queued h data).forward)
    (hseq : data = [] ∨ t'.remoteSeq = t.remoteSeq) (now : Int) : t'.SameNumbers ((t'.heard h now).queued h data) := by
  obtain ⟨-, hlocal, hremote⟩ := queued_spec (t'.heard h now) h data
  refine ⟨?_, hlocal, hremote⟩
  unfold TcpSession.queued at hforward ⊢
  by_cases hdata : data = []
  · rw [if_pos hdata]
    rfl
  · rw [if_neg hdata] at hforward ⊢
    have hseq : t'.remoteSeq = t.remoteSeq := hseq.resolve_left hdata
    unfold queueTcp at hforward ⊢
    rw [heard_remoteSeq, heard_forward, hseq]
    by_cases hbefore : compareU32 h.seq t.remoteSeq < 0
    · rw [if_pos hbefore, heard_forward]
    · rw [if_neg hbefore] at hforward ⊢
      rw [hforward]
      exact queueSegment_queueSegment _ _

/-- A segment that is taken without a reset is queued, and its flags are looked at. -/
theorem segmentResult_of_noReset {socket : Int} (hflow : t.flow.WellFormed)
    (hreset : ∀ o ∈ (segmentResult t socket h data calls).2, ¬(Action.output o).IsReset t.flow.version) :
    t.isClosed = false ∧ (data ≠ [] → 0 ≤ socket ∧ t.state ≠ .closeWait) ∧
      segmentResult t socket h data calls = handleFlags ((t.heard h calls.now).queued h data) h calls := by
  unfold segmentResult at hreset ⊢
  by_cases hclosed : t.isClosed = true
  · rw [if_pos hclosed] at hreset
    exact absurd (isReset_writeRst hflow) (hreset _ List.mem_cons_self)
  · rw [if_neg hclosed] at hreset ⊢
    rw [handleTcpSession_eq] at hreset ⊢
    by_cases hrefuse : data ≠ [] ∧ (socket < 0 ∨ t.state = .closeWait)
    · rw [if_pos hrefuse] at hreset
      exact absurd (isReset_writeRst (t := t.heard h calls.now) hflow) (hreset _ List.mem_cons_self)
    · rw [if_neg hrefuse]
      refine ⟨by simpa using hclosed, fun hdata => ?_, rfl⟩
      rw [not_and, not_or, not_lt] at hrefuse
      exact hrefuse hdata

/-- The segment has left nothing to do: its data is in the queue, and its flags are dealt with. -/
structure TcpSession.Settled (t : TcpSession) (h : TcpHeader) (data : Bytes) (t' : TcpSession) : Prop where
  forward : t'.forward = t.forward
  remoteSeq : data = [] ∨ t'.remoteSeq = t.remoteSeq
  noFin : ¬t'.TakesFin h
  expects : t'.Expects h
  acknowledged : t'.TakesAck h → t'.state.acknowledged = t'.state

theorem forward_handleFin (t : TcpSession) (calls : TunCalls) : (handleFin t calls).1.forward = t.forward := by
  unfold handleFin writeAck writeOrClose
  cases calls.tunWrite <;> split <;> first | rfl | (split <;> rfl)

/-- What the flags leave to do: nothing, when the session stays open. -/
theorem settled_handleFlags (hrst : h.rst = false) (hexpects : t.Expects h)
    (hopen : (handleFlags t h calls).1.isClosed = false)
    (hdata : (handleFlags t h calls).1.state = .closeWait → data = []) :
    t.Settled h data (handleFlags t h calls).1 := by
  by_cases hfin : t.TakesFin h
  · have hack := hfin.2.2.2.2
    rw [handleFlags_takesFin hfin] at hopen hdata ⊢
    obtain ⟨hlocal, hclosed | hwait⟩ := handleFin_spec hfin calls
    · exact absurd hclosed (by simp [hopen])
    · refine ⟨forward_handleFin t calls, .inl (hdata hwait), fun htakes => ?_, ?_, fun htakes => ?_⟩
      · rcases htakes.1 with hs | hs <;> cases hwait.symm.trans hs
      · rw [TcpSession.Expects, hlocal]
        exact hexpects
      · rw [hwait]
        rfl
  · obtain ⟨-, hsame, hstate⟩ := handleFlags_spec hrst hfin hexpects calls
    refine ⟨hsame.forward, .inr hsame.remoteSeq, fun htakes => ?_, ?_, fun htakes => ?_⟩
    · -- only an acknowledgment goes to another state, and that is no FIN
      have hnone : ¬t.TakesAck h := fun hack => Bool.false_ne_true (hack.2.1.symm.trans htakes.2.1)
      rw [if_neg hnone] at hstate
      rw [TcpSession.TakesFin, hstate, hsame.localSeq] at htakes
      exact hfin htakes
    · rw [TcpSession.Expects, hsame.localSeq]
      exact hexpects
    · rw [TcpSession.TakesAck, hsame.localSeq] at htakes
      have hack : t.TakesAck h := htakes
      rw [hstate, if_pos hack, acknowledged_acknowledged]

/-- What is settled is not done again. -/
theorem TcpSession.Settled.copy (hs : (t.queued h data).Settled h data t') (hrst : h.rst = false) (now : Int)
    (calls : TunCalls) :
    (handleFlags ((t'.heard h now).queued h data) h calls).2 = [] ∧
      t'.SameNumbers (handleFlags ((t'.heard h now).queued h data) h calls).1 ∧
      (handleFlags ((t'.heard h now).queued h data) h calls).1.state = t'.state := by
  obtain ⟨-, -, hremote⟩ := queued_spec t h data
  have hqueue := sameNumbers_queued_heard (h := h) hs.forward
    (hs.remoteSeq.imp_right fun hseq => hseq.trans hremote) now
  obtain ⟨hstate, hlocal, -⟩ := queued_spec (t'.heard h now) h data
  rw [heard_state] at hstate
  rw [heard_localSeq] at hlocal
  have hfin : ¬((t'.heard h now).queued h data).TakesFin h := by
    rw [TcpSession.TakesFin, hstate, hlocal]
    exact hs.noFin
  have hexpects : ((t'.heard h now).queued h data).Expects h := by
    rw [TcpSession.Expects, hlocal]
    exact hs.expects
  obtain ⟨hnothing, hsame, hafter⟩ := handleFlags_spec hrst hfin hexpects calls
  refine ⟨hnothing, hqueue.trans hsame, ?_⟩
  rw [hafter, hstate]
  split
  · rename_i hack
    rw [TcpSession.TakesAck, hlocal] at hack
    exact hs.acknowledged hack
  · rfl

/-- A segment that is taken without a reset is settled, as long as the session stays open; data that came with
the last FIN excepted. -/
theorem settled_segmentResult {socket : Int} (hflow : t.flow.WellFormed)
    (hreset : ∀ o ∈ (segmentResult t socket h data calls).2, ¬(Action.output o).IsReset t.flow.version)
    (ht' : (segmentResult t socket h data calls).1 = t') (hopen : t'.isClosed = false)
    (hdata : t'.state = .closeWait → data = []) :
    h.rst = false ∧ ((t.heard h calls.now).queued h data).Settled h data t' := by
  obtain ⟨-, -, heq⟩ := segmentResult_of_noReset hflow hreset
  rw [heq] at hreset ht'
  have hrst : h.rst = false := by
    by_contra hrst
    rw [handleFlags, if_pos (by simpa using hrst)] at ht'
    subst ht'
    cases hopen
  have hqueued : ((t.heard h calls.now).queued h data).flow.WellFormed := by
    rw [flow_queued, heard_flow]
    exact hflow
  have hexpects := expects_of_noReset hqueued hrst (by rwa [flow_queued, heard_flow])
  subst ht'
  exact ⟨hrst, settled_handleFlags hrst hexpects hopen hdata⟩

/-- The data of a segment that was taken without a reset is not copied again. -/
theorem copiesData_segmentResult {socket : Int} (hflow : t.flow.WellFormed)
    (hreset : ∀ o ∈ (segmentResult t socket h data calls).2, ¬(Action.output o).IsReset t.flow.version)
    (ht' : (segmentResult t socket h data calls).1 = t') : copiesData t' socket h data.length = false := by
  unfold copiesData
  cases hclosed : t'.isClosed with
  | true => rfl
  | false =>
    by_cases hdata : data = []
    · subst hdata
      simp
    · by_cases hwait : t'.state = .closeWait
      · simp [hwait]
      · obtain ⟨-, hsettled⟩ := settled_segmentResult hflow hreset ht' hclosed fun h => absurd h hwait
        obtain ⟨-, -, hremote⟩ := queued_spec (t.heard h calls.now) h data
        have hforward := hsettled.forward
        have hseq := (hsettled.remoteSeq.resolve_left hdata).trans hremote
        rw [TcpSession.queued, if_neg hdata, queueTcp] at hforward
        rw [hseq]
        -- it lies behind what was forwarded, or is in the queue
        by_cases hbefore : compareU32 h.seq (t.heard h calls.now).remoteSeq < 0
        · have hnot : ¬0 ≤ compareU32 h.seq (t.heard h calls.now).remoteSeq := not_le.2 hbefore
          simp only [decide_eq_false hnot, Bool.false_and, Bool.and_false]
        · rw [if_neg hbefore] at hforward
          have hcopied := copiesSegment_queueSegment ⟨h.seq, data.length, 0, h.psh, data⟩ (t.heard h calls.now).forward
          rw [hforward, hcopied]
          simp

/-- What `handle_tcp` does with a segment again that it has taken before: the queue and the numbers
stay. A session that the first one closed is reset where it is; else nothing is written and the state
stays, unless the first one brought data with the FIN. -/
theorem segmentResult_copy {socket : Int} (hflow : t.flow.WellFormed)
    (hreset : ∀ o ∈ (segmentResult t socket h data calls).2, ¬(Action.output o).IsReset t.flow.version)
    (ht' : (segmentResult t socket h data calls).1 = t') (calls' : TunCalls) :
    t'.SameNumbers (segmentResult t' socket h data calls').1 ∧
      (t'.isClosed = true → segmentResult t' socket h data calls' = ((writeRst t').1, [(writeRst t').2])) ∧
      (t'.isClosed = false → (t'.state = .closeWait → data = []) →
        (segmentResult t' socket h data calls').2 = [] ∧
        (segmentResult t' socket h data calls').1.state = t'.state) := by
  obtain ⟨-, htaken, -⟩ := segmentResult_of_noReset hflow hreset
  by_cases hclosed : t'.isClosed = true
  · have hlisten : t'.state ≠ .listen := by
      intro hs
      simp [TcpSession.isClosed, hs] at hclosed
    have hcopy : segmentResult t' socket h data calls' = ((writeRst t').1, [(writeRst t').2]) := if_pos hclosed
    rw [hcopy]
    exact ⟨sameNumbers_writeRst hlisten, fun _ => rfl, fun hnot => absurd hclosed (by simp [hnot])⟩
  · have hopen' : t'.isClosed = false := by simpa using hclosed
    have hcopy : segmentResult t' socket h data calls' = handleTcpSession t' socket h data calls' := if_neg hclosed
    -- data that came with the last FIN is answered with a reset the second time
    by_cases hdata : t'.state = .closeWait → data = []
    · have haccept : ¬(data ≠ [] ∧ (socket < 0 ∨ t'.state = .closeWait)) := by
        rintro ⟨hne, hlost | hwait⟩
        · exact absurd (htaken hne).1 (not_le.2 hlost)
        · exact hne (hdata hwait)
      obtain ⟨hrst, hsettled⟩ := settled_segmentResult hflow hreset ht' hopen' hdata
      obtain ⟨hnothing, hsame, hstate⟩ := hsettled.copy hrst calls'.now calls'
      rw [hcopy, handleTcpSession_eq, if_neg haccept]
      exact ⟨hsame, fun h => absurd h hclosed, fun _ _ => ⟨hnothing, hstate⟩⟩
    · have hwait : t'.state = .closeWait := by
        by_contra hwait
        exact hdata fun h => absurd h hwait
      have hne : data ≠ [] := fun hnil => hdata fun _ => hnil
      rw [hcopy, handleTcpSession_eq, if_pos ⟨hne, .inr hwait⟩]
      have hheard : t'.SameNumbers (t'.heard h calls'.now) := ⟨rfl, rfl, rfl⟩
      refine ⟨hheard.trans (sameNumbers_writeRst ?_), fun h => absurd h hclosed, fun _ h => absurd h hdata⟩
      rw [heard_state, hwait]
      decide

/-! ## The table -/

variable {ctx ctx₁ : Context} {flow : Flow} {s : NgSession}

/-- A session that is changed is found where it was. -/
theorem findTcp_update (hv : ctx.table.Valid) (hfind : ctx.findTcp flow = some (s, t)) (hflow : t'.flow = flow) :
    (ctx.update s.id (·.withTcp t')).findTcp flow = some (s.withTcp t', t') := by
  obtain ⟨l, s', l', hsplit, hs', hbefore⟩ := List.findSome?_eq_some_iff.1 hfind
  obtain ⟨t₁, -, hpair⟩ := Option.map_eq_some_iff.1 hs'
  obtain ⟨rfl, rfl⟩ := Prod.mk.inj hpair
  have hmem : s' ∈ ctx.sessions := by simp [hsplit]
  unfold Context.findTcp Context.update
  dsimp only
  rw [hsplit, List.map_append, List.map_cons, if_pos rfl, List.findSome?_append, List.findSome?_eq_none_iff.2]
  · simp [NgSession.tcp?, NgSession.withTcp, hflow]
  · intro x hx
    obtain ⟨y, hy, rfl⟩ := List.mem_map.1 hx
    -- the sessions before it are other ones
    have hne : y.id ≠ s'.id := by
      intro hid
      have heq : y = s' := eq_of_id_eq hv (by simp [hsplit, hy]) hmem hid
      rw [← heq, hbefore y hy] at hs'
      cases hs'
    rw [if_neg hne]
    exact hbefore y hy

section Handle

variable {pkt : TunPacket} {payload : Nat} {uid : Int} {allowed : Bool} {redirect : Option Allowed}

theorem handleTcp_urg (hheader : readTcpHeader pkt payload = .ok h) (hurg : h.urg = true) :
    handleTcp ctx pkt payload flow uid allowed redirect calls = .ok (ctx, []) := by
  unfold handleTcp
  rw [hheader]
  simp only [bind, Except.bind, hurg, if_true]
  rfl

theorem handleTcp_session (hfind : ctx.findTcp flow = some (s, t)) (hheader : readTcpHeader pkt payload = .ok h)
    (hread : readData pkt (tcpData payload h.doff) (tcpDatalen pkt (tcpData payload h.doff))
      (copiesData t s.socket h (tcpDatalen pkt (tcpData payload h.doff))) = .ok data)
    (hurg : h.urg = false) : handleTcp ctx pkt payload flow uid allowed redirect calls =
      .ok (ctx.update s.id (·.withTcp (segmentResult t s.socket h data calls).1),
        (segmentResult t s.socket h data calls).2.map .output) := by
  unfold handleTcp
  rw [hheader]
  simp only [bind, Except.bind, hurg, Bool.false_eq_true, if_false, hread, hfind]
  rfl

/-- Data that the buffer has is read, whether it is copied or not. -/
theorem readData_of_fits (hdata : data = segmentData pkt payload h)
    (hfits : tcpData payload h.doff + tcpDatalen pkt (tcpData payload h.doff) ≤ pkt.buffer.length) (copied : Bool) :
    readData pkt (tcpData payload h.doff) (tcpDatalen pkt (tcpData payload h.doff)) copied = .ok data := by
  unfold readData
  split
  · rw [loadBytes, if_pos hfits, hdata, segmentData, List.take_append_of_le_length (by rw [List.length_drop]; omega)]
  · rw [hdata]
    rfl

/-- Data that is not copied again needs nothing of the buffer. -/
theorem readData_copy {socket : Int} (hdata : data = segmentData pkt payload h)
    (hcopies : copiesData t socket h data.length = false) :
    readData pkt (tcpData payload h.doff) (tcpDatalen pkt (tcpData payload h.doff))
      (copiesData t socket h (tcpDatalen pkt (tcpData payload h.doff))) = .ok data := by
  rw [← length_segmentData pkt payload h, ← hdata, hcopies, readData, if_neg Bool.false_ne_true, hdata,
    length_segmentData]
  rfl

/-- For every session and every packet of its client: when `handle_tcp` takes the packet and writes no
reset, a copy right after it leaves the queue and the numbers. A session that the first one closed
answers with a reset and stays in its state; else nothing is written and the state stays, unless the
packet brought data with the FIN. -/
theorem handleTcp_copy {acts : List Action} (hv : ctx.table.Valid) (hflow : flow.WellFormed)
    (hfind : ctx.findTcp flow = some (s, t)) (hreads : ReadsSegment pkt payload h data)
    (hfirst : handleTcp ctx pkt payload flow uid allowed redirect calls = .ok (ctx₁, acts))
    (hreset : ∀ a ∈ acts, ¬a.IsReset flow.version) (uid' : Int) (allowed' : Bool) (redirect' : Option Allowed)
    (calls' : TunCalls) :
    ∃ s₁ t₁ s₂ t₂ ctx₂ acts₂, ctx₁.findTcp flow = some (s₁, t₁) ∧
      handleTcp ctx₁ pkt payload flow uid' allowed' redirect' calls' = .ok (ctx₂, acts₂) ∧
      ctx₂.findTcp flow = some (s₂, t₂) ∧ t₁.SameNumbers t₂ ∧
      (t.isClosed = false → t₁.isClosed = true → (∃ a, acts₂ = [a] ∧ a.IsReset flow.version) ∧ t₂.state = t₁.state) ∧
      ((t₁.isClosed = true → t.isClosed = true) → (t₁.state = .closeWait → data = []) →
        acts₂ = [] ∧ t₂.state = t₁.state) := by
  obtain ⟨hownFlow, hs, hdata⟩ := mem_of_findTcp hfind
  cases handleTcp_cases hfirst with
  | unknown found | failed found | opened found => rw [found] at hfind; cases hfind
  | ignored header urg same =>
    -- an urgent packet is ignored, and its copy is too
    subst same
    exact ⟨s, t, s, t, ctx₁, [], hfind, handleTcp_urg header urg, hfind, ⟨rfl, rfl, rfl⟩,
      fun hopen hclosed => absurd hclosed (by simp [hopen]), fun _ _ => ⟨rfl, rfl⟩⟩
  | session found reads urg changed =>
    obtain ⟨rfl, rfl⟩ := Prod.mk.inj (Option.some.inj (hfind.symm.trans found))
    cases hreads.header.symm.trans reads.header
    obtain rfl := hreads.data.trans reads.data.symm
    subst hownFlow
    have hnoReset : ∀ o ∈ (segmentResult t s.socket h data calls).2, ¬(Action.output o).IsReset t.flow.version :=
      fun o ho => hreset _ (List.mem_map_of_mem ho)
    have hlater := later_segmentResult t s.socket h data calls
    obtain ⟨hsame, hclosed, hopen⟩ := segmentResult_copy hflow hnoReset rfl calls'
    have hfind₁ := findTcp_update hv hfind hlater.flow
    have hv₁ := (later_update hv hs (f := (·.withTcp (segmentResult t s.socket h data calls).1))
      (NgSession.later_withTcp hdata hlater)).advance.valid hv
    have hfind₂ := findTcp_update hv₁ hfind₁ ((later_segmentResult _ s.socket h data calls').flow.trans hlater.flow)
    rw [← changed] at hfind₁ hfind₂
    obtain ⟨hwasOpen, -⟩ := segmentResult_of_noReset hflow hnoReset
    have hread := readData_copy hreads.data (copiesData_segmentResult hflow hnoReset rfl)
    refine ⟨_, _, _, _, _, _, hfind₁, handleTcp_session hfind₁ hreads.header hread urg, hfind₂, hsame,
      fun _ hc => ?_, fun hc hwait => ?_⟩
    · have hcopy := hclosed hc
      rw [← hlater.flow] at hflow ⊢
      refine ⟨⟨_, congrArg (fun r => r.2.map Action.output) hcopy, isReset_writeRst hflow⟩, ?_⟩
      exact (congrArg (fun r => r.1.state) hcopy).trans (state_writeRst_of_isClosed hc)
    · have hstill : (segmentResult t s.socket h data calls).1.isClosed = false := by
        by_contra hc'
        exact absurd (hc (by simpa using hc')) (by simp [hwasOpen])
      obtain ⟨hnothing, hstate⟩ := hopen hstill hwait
      exact ⟨congrArg (List.map Action.output) hnothing, hstate⟩

end Handle

/-! ## A plain session -/

/-- A table with one session, with nothing to forward, in the state `state`. -/
def plainContext (state : TcpState) (socket : Int) : Context where
  sessions := [⟨0, .tcp { newTcpSession segmentFlow (plainHeader 100 0 false true false) 1460 0 10002 [] .working with
    remoteSeq := 101, localSeq := 1, state := state }, socket, ⟨false, false⟩⟩]
  next := 1

theorem valid_plainContext (state : TcpState) (socket : Int) : (plainContext state socket).table.Valid where
  nodup := List.nodup_singleton 0
  fresh e he := by
    rw [List.mem_singleton.1 he]
    exact Nat.zero_lt_one

theorem handleTcp_copy_get : ∃ ctx₁ ctx₂ s₁ t₁ s₂ t₂,
    handleTcp (plainContext .established 3) (segment 101 1 0x10 [71]) 20 segmentFlow 10002 true none .working = .ok
    (ctx₁, []) ∧
    handleTcp ctx₁ (segment 101 1 0x10 [71]) 20 segmentFlow 10002 true none .working = .ok (ctx₂, []) ∧
    ctx₁.findTcp segmentFlow = some (s₁, t₁) ∧ ctx₂.findTcp segmentFlow = some (s₂, t₂) ∧ t₁.SameNumbers t₂ ∧
    t₂.state = t₁.state := by
  have hreads : ReadsSegment (segment 101 1 0x10 [71]) 20 (plainHeader 101 1 false false true) [71] :=
    ⟨by decide +kernel, by decide +kernel⟩
  have hfirst : handleTcp (plainContext .established 3)
    (segment 101 1 0x10 [71]) 20 segmentFlow 10002 true none .working = _ :=
    handleTcp_session rfl hreads.header (readData_of_fits hreads.data (by decide +kernel) _) rfl
  obtain ⟨s₁, t₁, s₂, t₂, ctx₂, acts₂, hfind₁, hsecond, hfind₂, hsame, -, hquiet⟩ :=
    handleTcp_copy (valid_plainContext _ _) (by decide) rfl hreads hfirst
      (fun a ha => absurd (show a ∈ [] from ha) List.not_mem_nil) 10002 true none .working
  have hstate : t₁.state = .established := by
    have hfind := Option.some.inj hfind₁
    rw [← (Prod.mk.inj hfind).2]
    rfl
  obtain ⟨rfl, hstays⟩ := hquiet (fun hclosed => by simp [TcpSession.isClosed, hstate] at hclosed)
    (fun hwait => by rw [hstate] at hwait; cases hwait)
  exact ⟨_, _, _, _, _, _, hfirst, hsecond, hfind₁, hfind₂, hsame, hstays⟩

/-- The last FIN of the client closes the session, so that its copy is answered with a reset. -/
theorem not_handleTcp_copy_lastFin :
    ¬∀ (ctx ctx₁ : Context) (pkt : TunPacket) (payload : Nat) (flow : Flow) (h : TcpHeader)
    (data : Bytes) (s : NgSession) (t : TcpSession) (uid : Int) (allowed : Bool) (redirect : Option Allowed)
    (calls : TunCalls) (acts : List Action), ctx.table.Valid → flow.WellFormed → ctx.findTcp flow = some (s, t) →
    ReadsSegment pkt payload h data → h.rst = false →
    handleTcp ctx pkt payload flow uid allowed redirect calls = .ok (ctx₁, acts) →
    (∀ a ∈ acts, ¬a.IsReset flow.version) →
    ∃ s₁ t₁ s₂ t₂ ctx₂ acts₂, ctx₁.findTcp flow = some (s₁, t₁) ∧
      handleTcp ctx₁ pkt payload flow uid allowed redirect calls = .ok (ctx₂, acts₂) ∧
      ctx₂.findTcp flow = some (s₂, t₂) ∧ t₁.SameNumbers t₂ ∧ (∀ a ∈ acts₂, ¬a.IsReset flow.version) ∧
      (t₂.state = .closing → t₁.state = .closing) := by
  intro hall
  have hreads : ReadsSegment (segment 101 1 0x11 []) 20 (plainHeader 101 1 true false true) [] :=
    ⟨by decide +kernel, by decide +kernel⟩
  have hfirst : handleTcp (plainContext .finWait1 (-1))
    (segment 101 1 0x11 []) 20 segmentFlow 10002 true none .working = _ :=
    handleTcp_session rfl hreads.header (readData_of_fits hreads.data (by decide +kernel) _) rfl
  obtain ⟨s₁, t₁, s₂, t₂, ctx₂, acts₂, hfind₁, hsecond, -, -, hreset, -⟩ :=
    hall _ _ _ 20 segmentFlow _ _ _ _ 10002 true none .working _ (valid_plainContext _ _)
      (by decide) rfl hreads rfl hfirst (fun a ha => by
        rw [List.mem_singleton.1 ha]
        exact not_isReset (by decide +kernel))
  have hpair := Prod.mk.inj (Option.some.inj hfind₁)
  -- the first copy has closed the session, the second one resets it
  have hclosed : t₁.isClosed = true := by
    rw [← hpair.2]
    rfl
  have hflow : t₁.flow = segmentFlow := by
    rw [← hpair.2]
    rfl
  have hread := readData_of_fits hreads.data (by decide +kernel)
  have hcopy := hsecond.symm.trans (handleTcp_session hfind₁ hreads.header (hread _) rfl)
  have hacts : acts₂ = [.output (writeRst t₁).2] := by
    rw [(Prod.mk.inj (Except.ok.inj hcopy)).2, segmentResult, if_pos hclosed]
    rfl
  refine hreset (.output (writeRst t₁).2) ?_ ?_
  · rw [hacts]
    exact List.mem_singleton_self _
  · rw [← hflow]
    apply isReset_writeRst
    rw [hflow]
    decide

end SunProxy.Net
