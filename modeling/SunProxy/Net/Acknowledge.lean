/-
What the packets of a TCP session acknowledge: no octet that the socket has not taken, and the FIN of the
client only when it has taken all octets. The number expected next counts what was sent, less what was sent
of segments that are still queued; a FIN moves it on by one, which is right where the queue, sent in full,
ends at the FIN.
-/
import SunProxy.Net.SessionRun
import SunProxy.Net.TcpQueue
import SunProxy.Net.TcpWire

namespace SunProxy.Net

open SunProxy.Buffer SunProxy.Result SunProxy.Run

/-! ## Acknowledgments -/

/-- A packet that acknowledges no more than `delivered` octets after the SYN, or the FIN when it was heard
and all `length` octets before it are delivered. -/
def AckRight (start length : Nat) (finHeard : Prop) (version delivered : Nat) (packet : Bytes) : Prop :=
  ∃ h, readTcpHeader packet (ipHeaderLength version) = .ok h ∧ (h.ack = true →
    ∃ m, h.ackSeq = u32 (start + m) ∧ (m ≤ 1 + delivered ∨ length ≤ delivered ∧ finHeard ∧ m ≤ length + 2))

/-- Every packet is right about what the socket had taken before it. -/
def AcksRight (start length : Nat) (finHeard : Prop) (version : Nat) (os : List Output) : Prop :=
  ∀ before packet, before ++ [.tunWrite packet] <+: os →
    AckRight start length finHeard version (sentBytes before).length packet

section Right

variable {start length version : Nat} {finHeard : Prop} {os : List Output}

theorem acksRight_nil : AcksRight start length finHeard version [] := by
  intro before packet h
  simp at h

theorem AcksRight.append (h : AcksRight start length finHeard version os) {o : Output}
    (ho : ∀ packet, o = .tunWrite packet → AckRight start length finHeard version (sentBytes os).length packet) :
    AcksRight start length finHeard version (os ++ [o]) := by
  intro before packet hprefix
  rcases List.prefix_concat_iff.1 hprefix with heq | hprefix
  · obtain ⟨rfl, hlast⟩ := List.append_inj' heq rfl
    exact ho packet (List.singleton_inj.1 hlast).symm
  · exact h before packet hprefix

theorem AckRight.of_header {t : TcpSession} {data : Bytes} {f : TcpFlags} {delivered m : Nat}
    (hflow : t.flow.WellFormed) (hseq : t.remoteSeq = u32 (start + m))
    (hm : m ≤ 1 + delivered ∨ length ≤ delivered ∧ finHeard ∧ m ≤ length + 2) :
    AckRight start length finHeard t.flow.version delivered (tcpPacket t data f) := by
  obtain ⟨h, hread, -, hackSeq, hack, -⟩ := readTcpHeader_tcpPacket hflow data f
  refine ⟨h, hread, fun hf => ⟨m, ?_, hm⟩⟩
  rw [hackSeq, if_pos (hack ▸ hf), hseq, u32, u32, Nat.mod_mod]

end Right

/-! ## FINs -/

/-- The number expected once the queue was sent in full; none when octets are missing in it. -/
def drained (seq : Nat) : List Segment → Option Nat
  | [] => some seq
  | q :: rest => if q.seq = seq then drained (u32 (q.seq + q.len)) rest else none

/-- The queue, sent in full, ends at the FIN of the segment, or is never sent in full. -/
def TcpSession.FinInOrder (t : TcpSession) (h : TcpHeader) (data : Bytes) : Prop :=
  ∀ n ∈ drained t.remoteSeq t.forward, n = u32 (h.seq + data.length)

instance (t : TcpSession) (h : TcpHeader) (data : Bytes) : Decidable (t.FinInOrder h data) :=
  inferInstanceAs (Decidable (∀ n ∈ drained t.remoteSeq t.forward, n = u32 (h.seq + data.length)))

/-- A FIN in the event comes after `length` octets. -/
def SessionEvent.EndsAt (start length : Nat) : SessionEvent → Prop
  | .segment h data _ => h.fin = true → u32 (h.seq + data.length) = octetSeq start length
  | _ => True

instance (start length : Nat) : DecidablePred (SessionEvent.EndsAt start length)
  | .segment .. => inferInstanceAs (Decidable (_ → _))
  | .monitor _ | .check _ _ | .socket _ | .checkAllowed | .clear => isTrue trivial

def SessionEvent.BringsFin : SessionEvent → Prop
  | .segment h _ _ => h.fin = true
  | _ => False

/-- A FIN that the session takes is in order, and no number stands for two octets from the next one to it. -/
def SessionTrace.FinInOrder (length : Nat) (tr : SessionTrace) : SessionEvent → Prop
  | .segment h data _ => ∀ t ∈ tr.session.bind NgSession.tcp?, (data ≠ [] → t.state.Receives) →
    (t.queued h data).TakesFin h →
      length < (sentBytes tr.outputs).length + 4294967295 ∧ (t.queued h data).FinInOrder h data
  | _ => True

instance (length : Nat) (tr : SessionTrace) : DecidablePred (tr.FinInOrder length)
  | .segment h data _ => inferInstanceAs
    (Decidable (∀ t ∈ tr.session.bind NgSession.tcp?, (data ≠ [] → t.state.Receives) →
      (t.queued h data).TakesFin h →
        length < (sentBytes tr.outputs).length + 4294967295 ∧ (t.queued h data).FinInOrder h data))
  | .monitor _ | .check _ _ | .socket _ | .checkAllowed | .clear => isTrue trivial

/-! ## Counting -/

/-- A segment whose counters are right about its data. -/
structure Segment.Counted (q : Segment) : Prop where
  data : q.data.length = q.len
  len : q.len < 65536
  sent : q.sent < 65536

/-- What was sent of segments that are still queued. -/
def sentSum (l : List Segment) : Nat := (l.map (·.sent)).sum

variable {start length : Nat} {seg : Segment} {l rest : List Segment} {t t' : TcpSession} {n : Nat}

theorem counted_queueSegment (hl : ∀ q ∈ l, q.Counted) (hseg : seg.Counted) : ∀ q ∈ queueSegment seg l, q.Counted := by
  intro q hq
  rcases mem_queueSegment hq with rfl | hq | ⟨s, hs, -, rfl⟩
  · exact hseg
  · exact hl q hq
  · exact ⟨hseg.data, hseg.len, (hl s hs).sent⟩

theorem sentSum_queueSegment (hseg : seg.sent = 0) (l : List Segment) : sentSum (queueSegment seg l) = sentSum l := by
  induction l with
  | nil => simp [queueSegment, sentSum, hseg]
  | cons s rest ih =>
    unfold queueSegment
    simp only [sentSum] at ih ⊢
    split_ifs <;> simp [ih, hseg]

/-- A send takes the bytes it counts, and no counter wraps. -/
theorem Segment.Counted.taken (h : seg.Counted) (hn : n ≤ seg.len - seg.sent) :
    ((seg.data.drop seg.sent).take n).length = n ∧ (seg.sent + n) % 65536 = seg.sent + n := by
  have hlen := h.len
  have hsent := h.sent
  rw [List.length_take, List.length_drop, h.data]
  omega

/-! ## The relation -/

/-- Until a FIN is acknowledged the number expected next counts the `delivered` octets, and the FIN of a
session that still forwards ends its queue. -/
structure Counts (start length : Nat) (finHeard : Prop) (t : TcpSession) (delivered m : Nat) : Prop where
  remoteSeq : t.remoteSeq = u32 (start + m)
  counted : ∀ q ∈ t.forward, q.Counted
  le : m + sentSum t.forward ≤ 1 + delivered
  listen : t.state = .listen → m + sentSum t.forward = delivered
  opened : t.state ≠ .listen → t.isClosed = false → 1 ≤ m ∧ m + sentSum t.forward = 1 + delivered
  finWait : t.state = .finWait1 → t.forward = []
  closeWait : t.state = .closeWait → finHeard ∧ length < delivered + 4294967295 ∧
    ∀ n ∈ drained t.remoteSeq t.forward, n = octetSeq start length

/-- The FIN of the client is acknowledged. -/
structure Ended (start length : Nat) (finHeard : Prop) (t : TcpSession) (delivered : Nat) : Prop where
  remoteSeq : t.remoteSeq = u32 (start + (length + 2))
  le : length ≤ delivered
  fin : finHeard
  empty : t.forward = []
  state : t.state = .closeWait ∨ t.state = .lastAck ∨ t.isClosed = true

inductive Acks (start length : Nat) (finHeard : Prop) (t : TcpSession) (delivered : Nat) : Prop
  | counts (m : Nat) (h : Counts start length finHeard t delivered m)
  | ended (h : Ended start length finHeard t delivered)

/-- The number that an open session expects, and acknowledges, is that of the first octet not delivered, less
what was sent of segments that are still queued; or the one after the FIN. -/
def TcpSession.ExpectsNext (start length : Nat) (finHeard : Prop) (t : TcpSession) (delivered : Nat) : Prop :=
  t.state ≠ .listen → t.isClosed = false → u32 (t.remoteSeq + sentSum t.forward) = u32 (start + (1 + delivered)) ∨
    t.remoteSeq = u32 (start + (length + 2)) ∧ length ≤ delivered ∧ finHeard ∧ t.forward = []

variable {finHeard : Prop} {delivered m : Nat}

/-- Where the FIN is expected next, all octets before it were sent. -/
theorem le_of_octetSeq (hseq : u32 (start + (1 + delivered)) = octetSeq start length)
    (hnear : length < delivered + 4294967295) : length ≤ delivered := by
  simp only [u32, octetSeq] at hseq
  omega

theorem u32_octetSeq_succ (start length : Nat) : u32 (octetSeq start length + 1) = u32 (start + (length + 2)) := by
  simp only [u32, octetSeq]
  omega

theorem not_receives_of_isClosed (h : t.isClosed = true) : ¬ t.state.Receives := by
  have hs : t.state = .closing ∨ t.state = .close := by simpa [TcpSession.isClosed] using h
  rcases hs with hs | hs <;> rw [hs] <;> exact id

theorem Acks.expectsNext (h : Acks start length finHeard t delivered) :
    t.ExpectsNext start length finHeard delivered := by
  intro hlisten hopen
  cases h with
  | counts m h =>
    obtain ⟨-, hcount⟩ := h.opened hlisten hopen
    refine .inl ?_
    rw [h.remoteSeq, ← hcount, ← Nat.add_assoc]
    exact Nat.mod_add_mod _ _ _
  | ended h => exact .inr ⟨h.remoteSeq, h.le, h.fin, h.empty⟩

/-- A session whose FIN is acknowledged gets no more data. -/
theorem Ended.not_receives (h : Ended start length finHeard t delivered) : ¬ t.state.Receives := by
  rcases h.state with hs | hs | hs
  · rw [hs]; exact id
  · rw [hs]; exact id
  · exact not_receives_of_isClosed hs

theorem Acks.alike (h : Acks start length finHeard t delivered) (ha : t.Alike t') :
    Acks start length finHeard t' delivered := by
  have hclosed : t'.isClosed = t.isClosed := by simp only [TcpSession.isClosed, ha.state]
  cases h with
  | counts m h =>
    obtain ⟨remoteSeq, counted, le, listen, opened, finWait, closeWait⟩ := h
    rw [← ha.remoteSeq] at remoteSeq closeWait
    rw [← ha.forward] at counted le listen opened finWait closeWait
    rw [← ha.state] at listen opened finWait closeWait
    exact .counts m ⟨remoteSeq, counted, le, listen, hclosed ▸ opened, finWait, closeWait⟩
  | ended h =>
    exact .ended ⟨ha.remoteSeq.trans h.remoteSeq, h.le, h.fin, ha.forward.trans h.empty,
      by rw [ha.state, hclosed]; exact h.state⟩

/-! ## States -/

theorem Acks.closed (h : Acks start length finHeard t delivered) {state : TcpState}
    (hs : (t.withState state).isClosed = true) :
    Acks start length finHeard (t.withState state) delivered := by
  cases h with
  | counts m h =>
    refine .counts m ⟨h.remoteSeq, h.counted, h.le, fun heq => ?_, fun _ hopen => ?_, fun heq => ?_, fun heq => ?_⟩
    · simp [TcpSession.isClosed, heq] at hs
    · simp [hs] at hopen
    · simp [TcpSession.isClosed, heq] at hs
    · simp [TcpSession.isClosed, heq] at hs
  | ended h => exact .ended ⟨h.remoteSeq, h.le, h.fin, h.empty, .inr (.inr hs)⟩

theorem Acks.goes (h : Acks start length finHeard t delivered) {state : TcpState} (hgoes : t.state.Goes state) :
    Acks start length finHeard (t.withState state) delivered := by
  rcases hgoes.cases with ⟨hs, rfl⟩ | rfl | ⟨-, rfl⟩
  · cases h with
    | counts m h =>
      refine .counts m ⟨h.remoteSeq, h.counted, h.le, nofun, fun _ _ => h.opened (by simp [hs]) ?_, nofun, nofun⟩
      simp [TcpSession.isClosed, hs]
    | ended h => exact absurd (hs ▸ trivial) h.not_receives
  · exact h.closed rfl
  · exact h.closed rfl

theorem Acks.syn (h : Acks start length finHeard t delivered) (hlisten : t.state = .listen) {state : TcpState}
    (after : state = .synRecv ∨ state = .closing) :
    Acks start length finHeard { t with remoteSeq := u32 (t.remoteSeq + 1), state := state } delivered := by
  cases h with
  | counts m h =>
    have hseq : u32 (t.remoteSeq + 1) = u32 (start + (m + 1)) := by
      simp only [h.remoteSeq, u32]
      omega
    have hcount := h.listen hlisten
    have hstate : state ≠ .listen ∧ state ≠ .finWait1 ∧ state ≠ .closeWait := by rcases after with rfl | rfl <;> decide
    refine .counts (m + 1) ⟨hseq, h.counted, ?_, fun heq => absurd heq hstate.1, fun _ _ => ⟨Nat.succ_pos m, ?_⟩,
      fun heq => absurd heq hstate.2.1, fun heq => absurd heq hstate.2.2⟩
    · dsimp only
      omega
    · dsimp only
      omega
  | ended h => exact absurd (hlisten ▸ trivial) h.not_receives

/-! ## Data -/

theorem Acks.queueTcp (h : Acks start length finHeard t delivered) (hs : t.state.Receives) {header : TcpHeader}
    {data : Bytes} (hdata : data.length < 65536) : Acks start length finHeard (queueTcp t header data) delivered := by
  unfold Net.queueTcp
  split
  · exact h
  · cases h with
    | counts m h =>
      have hcounted : Segment.Counted ⟨header.seq, data.length, 0, header.psh, data⟩ := ⟨rfl, hdata, Nat.zero_lt_succ _⟩
      have hsum : sentSum (queueSegment ⟨header.seq, data.length, 0, header.psh, data⟩ t.forward) = sentSum t.forward :=
        sentSum_queueSegment rfl t.forward
      have hstate : t.state ≠ .finWait1 ∧ t.state ≠ .closeWait := by
        constructor
        · intro heq; rw [heq] at hs; cases hs
        · intro heq; rw [heq] at hs; cases hs
      refine .counts m ⟨h.remoteSeq, counted_queueSegment h.counted hcounted, ?_, ?_, ?_,
        fun heq => absurd heq hstate.1, fun heq => absurd heq hstate.2⟩
      · rw [hsum]; exact h.le
      · rw [hsum]; exact h.listen
      · rw [hsum]; exact h.opened
    | ended h => exact absurd hs h.not_receives

theorem Counts.sendPart (h : Counts start length finHeard t delivered m) (hlisten : t.state ≠ .listen)
    (queue : t.forward = seg :: rest) (hn : n ≤ seg.len - seg.sent) : Counts start length finHeard
      { t with forward := { seg with sent := (seg.sent + n) % 65536 } :: rest }
      (delivered + ((seg.data.drop seg.sent).take n).length) m := by
  obtain ⟨remoteSeq, counted, le, listen, opened, finWait, closeWait⟩ := h
  rw [queue] at counted le opened closeWait
  have hseg := counted seg List.mem_cons_self
  obtain ⟨htaken, hcount⟩ := hseg.taken hn
  have hsum : sentSum ({ seg with sent := seg.sent + n } :: rest) = sentSum (seg :: rest) + n := by
    simp only [sentSum, List.map_cons, List.sum_cons]
    omega
  rw [htaken, hcount]
  refine ⟨remoteSeq, fun q hq => ?_, ?_, fun heq => absurd heq hlisten, fun hl hopen => ?_, fun heq => ?_,
    fun heq => ?_⟩
  · rcases List.mem_cons.1 hq with rfl | hq
    · exact ⟨hseg.data, hseg.len, by dsimp only; omega⟩
    · exact counted q (List.mem_cons_of_mem _ hq)
  · dsimp only
    omega
  · obtain ⟨hpos, heq⟩ := opened hl hopen
    refine ⟨hpos, ?_⟩
    dsimp only
    omega
  · rw [finWait heq] at queue
    cases queue
  · obtain ⟨hfin, hnear, hdrained⟩ := closeWait heq
    exact ⟨hfin, by omega, hdrained⟩

theorem Counts.sendAll (h : Counts start length finHeard t delivered m) (hlisten : t.state ≠ .listen)
    (queue : t.forward = seg :: rest) (next : seg.seq = t.remoteSeq) (hn : n ≤ seg.len - seg.sent)
    (all : seg.len = (seg.sent + n) % 65536) : Counts start length finHeard
      { t with forward := rest, remoteSeq := u32 (seg.seq + (seg.sent + n) % 65536) }
      (delivered + ((seg.data.drop seg.sent).take n).length) (m + (seg.sent + n)) := by
  obtain ⟨remoteSeq, counted, le, listen, opened, finWait, closeWait⟩ := h
  rw [queue] at counted le opened closeWait
  obtain ⟨htaken, hcount⟩ := (counted seg List.mem_cons_self).taken hn
  have hsum : sentSum (seg :: rest) = seg.sent + sentSum rest := List.sum_cons
  have hseq : u32 (seg.seq + (seg.sent + n)) = u32 (start + (m + (seg.sent + n))) := by
    rw [next, remoteSeq]
    simp only [u32]
    omega
  rw [htaken, hcount]
  refine ⟨hseq, fun q hq => counted q (List.mem_cons_of_mem _ hq), ?_, fun heq => absurd heq hlisten,
    fun hl hopen => ?_, fun heq => ?_, fun heq => ?_⟩
  · dsimp only
    omega
  · obtain ⟨hpos, heq⟩ := opened hl hopen
    refine ⟨Nat.lt_of_lt_of_le hpos (Nat.le_add_right _ _), ?_⟩
    dsimp only
    omega
  · rw [finWait heq] at queue
    cases queue
  · obtain ⟨hfin, hnear, hdrained⟩ := closeWait heq
    rw [drained, if_pos next, all, hcount] at hdrained
    exact ⟨hfin, by omega, hdrained⟩

/-! ## FINs -/

/-- A FIN that is the next number expected is acknowledged. -/
theorem Counts.fin (h : Counts start length finHeard t delivered m) (hlisten : t.state ≠ .listen)
    (hopen : t.isClosed = false) (hempty : t.forward = []) (hfin : finHeard) (hnear : length < delivered + 4294967295)
    (hseq : t.remoteSeq = octetSeq start length) {state : TcpState}
    (hstate : state = .closeWait ∨ state = .close ∨ state = .closing) :
    Ended start length finHeard { t with remoteSeq := u32 (t.remoteSeq + 1), state := state } delivered := by
  obtain ⟨-, hcount⟩ := h.opened hlisten hopen
  rw [hempty] at hcount
  have hm : m = 1 + delivered := hcount
  have hle := le_of_octetSeq (hm ▸ h.remoteSeq.symm.trans hseq) hnear
  refine ⟨?_, hle, hfin, hempty, ?_⟩
  · exact (congrArg (fun x => u32 (x + 1)) hseq).trans (u32_octetSeq_succ start length)
  · rcases hstate with rfl | rfl | rfl
    · exact .inl rfl
    · exact .inr (.inr rfl)
    · exact .inr (.inr rfl)

/-- The last data before a FIN that was taken ends at the FIN. -/
theorem Counts.sendLast (h : Counts start length finHeard t delivered m) (hs : t.state = .closeWait)
    (queue : t.forward = [seg]) (next : seg.seq = t.remoteSeq) (hn : n ≤ seg.len - seg.sent)
    (all : seg.len = (seg.sent + n) % 65536) :
    Ended start length finHeard
      { t with forward := [], remoteSeq := u32 (u32 (seg.seq + (seg.sent + n) % 65536) + 1) }
      (delivered + ((seg.data.drop seg.sent).take n).length) := by
  have hall := h.sendAll (by rw [hs]; decide) queue next hn all
  obtain ⟨hfin, hnear, hdrained⟩ := hall.closeWait hs
  have hended := hall.fin (by simp [hs]) (by simp [TcpSession.isClosed, hs]) rfl hfin hnear (hdrained _ rfl)
    (.inl (Eq.refl TcpState.closeWait))
  exact ⟨hended.remoteSeq, hended.le, hfin, rfl, .inl hs⟩

/-! ## Moves -/

/-- Only FINs in order are taken. -/
def finGuard (id start length reached : Nat) (finHeard : Prop) : Guard where
  id := id
  queue _ _ data := data.length < 65536
  fin t h data := finHeard ∧ length < reached + 4294967295 ∧ u32 (h.seq + data.length) = octetSeq start length ∧
    t.FinInOrder h data

variable {os : List Output} {id reached : Nat}

theorem Acks.finish (h : Acks start length finHeard t delivered) (empty : t.forward = []) {state : TcpState}
    (after : t.state = .established ∧ state = .finWait1 ∨ t.state = .closeWait ∧ state = .lastAck) :
    Acks start length finHeard (t.withState state) delivered := by
  have hopen : t.state ≠ .listen ∧ t.isClosed = false := by
    rcases after with ⟨hs, -⟩ | ⟨hs, -⟩ <;> simp [TcpSession.isClosed, hs]
  have hstate : state ≠ .listen ∧ state ≠ .closeWait := by rcases after with ⟨-, rfl⟩ | ⟨-, rfl⟩ <;> decide
  cases h with
  | counts m h =>
    exact .counts m ⟨h.remoteSeq, h.counted, h.le, fun heq => absurd heq hstate.1, fun _ _ => h.opened hopen.1 hopen.2,
      fun _ => empty, fun heq => absurd heq hstate.2⟩
  | ended h =>
    rcases after with ⟨hs, -⟩ | ⟨-, rfl⟩
    · exact absurd (hs ▸ trivial) h.not_receives
    · exact .ended ⟨h.remoteSeq, h.le, h.fin, h.empty, .inr (.inl rfl)⟩

/-- Every move keeps the relation. -/
theorem Acks.move (h : Acks start length finHeard t delivered) (hreached : reached ≤ delivered)
    (hmove : Move (finGuard id start length reached finHeard) t os t') :
    Acks start length finHeard t' (delivered + (sentBytes os).length) := by
  cases hmove with
  | alike ha => exact h.alike ha
  | other ho => rw [sentBytes_other ho]; exact h
  | write data flags => exact h
  | keepAlive ms _ =>
    have hseq : u32 t.remoteSeq = t.remoteSeq := by
      cases h with
      | counts m h => rw [h.remoteSeq, u32, u32, Nat.mod_mod]
      | ended h => rw [h.remoteSeq, u32, u32, Nat.mod_mod]
    rw [hseq]
    exact h
  | goes hgoes => exact h.goes hgoes
  | syn hlisten after => exact h.syn hlisten after
  | queue receives guard => exact h.queueTcp receives guard
  -- a session that ended has nothing left to send
  | sendPart hlisten queue _ le =>
    rw [sentBytes_send]
    cases h with
    | counts m h => exact .counts m (h.sendPart hlisten queue le)
    | ended h => rw [h.empty] at queue; cases queue
  | sendAll hlisten queue next le all =>
    rw [sentBytes_send]
    cases h with
    | counts m h => exact .counts _ (h.sendAll hlisten queue next le all)
    | ended h => rw [h.empty] at queue; cases queue
  | sendLast closeWait queue next le all =>
    rw [sentBytes_send]
    cases h with
    | counts m h => exact .ended (h.sendLast closeWait queue next le all)
    | ended h => rw [h.empty] at queue; cases queue
  -- with an empty queue the number that is expected is the one of the FIN
  | fin established empty guard after =>
    obtain ⟨hfin, hnear, hends, horder⟩ := guard
    cases h with
    | counts m h =>
      have hseq : t.remoteSeq = octetSeq start length := (horder _ (by rw [empty]; rfl)).trans hends
      exact .ended (h.fin (by simp [established]) (by simp [TcpSession.isClosed, established]) empty hfin
        (Nat.lt_of_lt_of_le hnear (Nat.add_le_add_right hreached _)) hseq (after.imp_right .inr))
    | ended h => exact absurd (established ▸ trivial) h.not_receives
  | lastFin finWait guard after =>
    obtain ⟨hfin, hnear, hends, horder⟩ := guard
    cases h with
    | counts m h =>
      have empty := h.finWait finWait
      have hseq : t.remoteSeq = octetSeq start length := (horder _ (by rw [empty]; rfl)).trans hends
      exact .ended (h.fin (by simp [finWait]) (by simp [TcpSession.isClosed, finWait]) empty hfin
        (Nat.lt_of_lt_of_le hnear (Nat.add_le_add_right hreached _)) hseq (.inr after))
    | ended h => rcases h.state with hs | hs | hs <;> simp [TcpSession.isClosed, finWait] at hs
  | halfClose established queued guard =>
    obtain ⟨hfin, hnear, hends, horder⟩ := guard
    cases h with
    | counts m h =>
      refine .counts m ⟨h.remoteSeq, h.counted, h.le, (fun hs => by cases hs),
        fun _ _ => h.opened (by simp [established]) ?_,
        (fun hs => by cases hs), fun _ => ?_⟩
      · simp [TcpSession.isClosed, established]
      · exact ⟨hfin, Nat.lt_of_lt_of_le hnear (Nat.add_le_add_right hreached _), fun n hn => (horder n hn).trans hends⟩
    | ended h => exact absurd (established ▸ trivial) h.not_receives
  | finish empty after => exact h.finish empty after

/-- What is written acknowledges no more than is delivered. -/
theorem Acks.right (h : Acks start length finHeard t delivered) (hflow : t.flow.WellFormed) (data : Bytes)
    (f : TcpFlags) :
    AckRight start length finHeard t.flow.version delivered (tcpPacket t data f) := by
  cases h with
  | counts m h => exact .of_header hflow h.remoteSeq (.inl (Nat.le_trans (Nat.le_add_right _ _) h.le))
  | ended h => exact .of_header hflow h.remoteSeq (.inr ⟨h.le, h.fin, Nat.le_refl _⟩)

theorem sub32_u32_succ (n : Nat) : sub32 (u32 (n + 1)) 1 = u32 n := by
  simp only [sub32, u32]
  omega

/-- The keep-alive acknowledges one octet less. -/
theorem Acks.right_keepAlive (h : Acks start length finHeard t delivered) (hflow : t.flow.WellFormed)
    (hs : t.state = .established ∨ t.state = .closeWait) (ms : Int) (f : TcpFlags) :
    AckRight start length finHeard t.flow.version delivered
      (tcpPacket { t with lastKeepAlive := ms, remoteSeq := sub32 t.remoteSeq 1 } [] f) := by
  have hopen : t.state ≠ .listen ∧ t.isClosed = false := by rcases hs with hs | hs <;> simp [TcpSession.isClosed, hs]
  cases h with
  | counts m h =>
    obtain ⟨hpos, -⟩ := h.opened hopen.1 hopen.2
    have hle := h.le
    obtain ⟨k, rfl⟩ := Nat.exists_eq_add_of_le' hpos
    have hseq : sub32 t.remoteSeq 1 = u32 (start + k) := by rw [h.remoteSeq, ← Nat.add_assoc, sub32_u32_succ]
    exact .of_header (t := { t with lastKeepAlive := ms, remoteSeq := sub32 t.remoteSeq 1 }) hflow hseq
      (.inl (by omega))
  | ended h =>
    have hseq : sub32 t.remoteSeq 1 = u32 (start + (length + 1)) := by
      rw [h.remoteSeq, ← sub32_u32_succ (start + (length + 1)), Nat.add_assoc start]
    exact .of_header (t := { t with lastKeepAlive := ms, remoteSeq := sub32 t.remoteSeq 1 }) hflow hseq
      (.inr ⟨h.le, h.fin, Nat.le_succ _⟩)

/-! ## Runs -/

/-- The session of a flow, of which at least `reached` octets were sent, and all it wrote. -/
structure AckInv (start length : Nat) (finHeard : Prop) (flow : Flow) (reached : Nat) (t : TcpSession)
    (os : List Output) :
    Prop where
  ofFlow : t.flow = flow
  reached : reached ≤ (sentBytes os).length
  acks : Acks start length finHeard t (sentBytes os).length
  right : AcksRight start length finHeard flow.version os

theorem AckInv.move {flow : Flow} (hflow : flow.WellFormed) {before : List Output}
    (h : AckInv start length finHeard flow reached t before)
    (hmove : Move (finGuard id start length reached finHeard) t os t') :
    AckInv start length finHeard flow reached t' (before ++ os) := by
  have hacks := h.acks.move h.reached hmove
  rw [← List.length_append, ← sentBytes_append] at hacks
  obtain ⟨rfl, reached, acks, right⟩ := h
  refine ⟨flow_move hmove, ?_, hacks, ?_⟩
  · rw [sentBytes_append, List.length_append]
    exact Nat.le_add_right_of_le reached
  · cases hmove with
    | write data flags =>
      refine right.append fun packet heq => ?_
      cases heq
      exact acks.right hflow data flags
    | keepAlive ms hs =>
      refine right.append fun packet heq => ?_
      cases heq
      exact acks.right_keepAlive hflow hs ms _
    | other ho =>
      refine right.append fun packet heq => ?_
      rw [heq] at ho
      cases ho
    | sendPart | sendAll | sendLast => exact right.append nofun
    | alike | goes | syn | queue | fin | lastFin | halfClose | finish =>
      rw [List.append_nil]
      exact right

/-- Hearing from the client changes nothing that a FIN is about. -/
theorem queued_heard (t : TcpSession) (h : TcpHeader) (data : Bytes) (now : Int) :
    (t.heard h now).queued h data = (t.queued h data).heard h now := by
  unfold TcpSession.queued
  split
  · rfl
  · unfold queueTcp
    rw [heard_remoteSeq]
    by_cases hbefore : compareU32 h.seq t.remoteSeq < 0
    · rw [if_pos hbefore, if_pos hbefore]
    · rw [if_neg hbefore, if_neg hbefore]
      rfl

theorem SessionTrace.FinInOrder.guarded {tr : SessionTrace} {e : SessionEvent} (h : tr.FinInOrder length e)
    (hform : e.WellFormed) (hends : e.EndsAt start length) (hheard : e.BringsFin → finHeard) (id : Nat) :
    tr.Guarded (finGuard id start length (sentBytes tr.outputs).length finHeard) e := by
  intro s t hs hdata
  have ht : t ∈ tr.session.bind NgSession.tcp? := by simp [hs, NgSession.tcp?, hdata]
  cases e with
  | segment header data calls =>
    refine ⟨fun _ => hform.2, fun hreceives htakes => ?_⟩
    rw [queued_heard] at htakes ⊢
    obtain ⟨hnear, horder⟩ := h t ht hreceives htakes
    have hfin : header.fin = true := htakes.2.1
    exact ⟨hheard hfin, hnear, hends hfin, horder⟩
  | monitor | check | socket | checkAllowed | clear => trivial

/-- What was sent before an event bounds what was sent at each of its moves. -/
theorem holds_ackInv_step {args : Arguments} {flow : Flow} (hflow : flow.WellFormed) {tr tr' : SessionTrace}
    {e : SessionEvent} (h : tr.Holds id (AckInv start length finHeard flow 0))
    (hguard : tr.Guarded (finGuard id start length (sentBytes tr.outputs).length finHeard) e)
    (hstep : tr.step args e = .ok tr') : tr'.Holds id (AckInv start length finHeard flow 0) := by
  obtain ⟨t, hinv, hsession⟩ := h
  have hreached : tr.Holds id (AckInv start length finHeard flow (sentBytes tr.outputs).length) :=
    ⟨t, ⟨hinv.ofFlow, Nat.le_refl _, hinv.acks, hinv.right⟩, hsession⟩
  obtain ⟨t', hinv', hsession'⟩ := hreached.step (G := finGuard id start length (sentBytes tr.outputs).length finHeard)
    (fun _ hp hmove => hp.move hflow hmove) hguard hstep
  exact ⟨t', ⟨hinv'.ofFlow, Nat.zero_le _, hinv'.acks, hinv'.right⟩, hsession'⟩

theorem acks_newTcpSession {flow : Flow} {h : TcpHeader} {mss ws : Nat} {uid : Int} {data : Bytes} {calls : TunCalls}
    (hseq : h.seq < 4294967296) (hdata : data.length < 65536) :
    Acks h.seq length finHeard (newTcpSession flow h mss ws uid data calls) 0 := by
  have hcounted : ∀ q ∈ (newTcpSession flow h mss ws uid data calls).forward, q.Counted ∧ q.sent = 0 := by
    intro q hq
    simp only [newTcpSession] at hq
    split at hq
    · cases hq
    · rw [List.mem_singleton.1 hq]
      exact ⟨⟨rfl, hdata, Nat.zero_lt_succ _⟩, rfl⟩
  have hsum : sentSum (newTcpSession flow h mss ws uid data calls).forward = 0 := by
    simp only [newTcpSession, sentSum]
    split <;> rfl
  refine .counts 0 ⟨(Nat.mod_eq_of_lt hseq).symm, fun q hq => (hcounted q hq).1, ?_, fun _ => ?_,
    fun hs => absurd rfl hs, nofun, nofun⟩
  · rw [hsum]; exact Nat.zero_le _
  · rw [hsum]

/-- In every run in which each FIN that is taken is in order, what is written acknowledges no octet that is
not delivered, and the FIN only once it was heard and all octets are delivered; and what the session expects
next counts the octets that are delivered. -/
theorem acksRight_final (args : Arguments) (id : Nat) (flow : Flow) (h : TcpHeader) (mss ws : Nat) (uid : Int)
    (data : Bytes) (calls : TunCalls) (window : Nat) (socket : Int) (length : Nat) (events : List SessionEvent)
    (hsocket : 0 ≤ socket) (hflow : flow.WellFormed) (hseq : h.seq < 4294967296) (hdata : data.length < 65536)
    (hform : ∀ e ∈ events, e.WellFormed) (hends : ∀ e ∈ events, e.EndsAt h.seq length)
    (horder : EveryStep (stepOk (SessionTrace.step args)) (fun r e => OnOk (fun tr => tr.FinInOrder length e) r)
      (.ok ⟨some (openedSession id flow h mss ws uid data calls window socket), []⟩) events) :
    OnOk (fun tr => AcksRight h.seq length (∃ e ∈ events, e.BringsFin) flow.version tr.outputs ∧
        ∀ t ∈ tr.session.bind NgSession.tcp?,
        t.ExpectsNext h.seq length (∃ e ∈ events, e.BringsFin) (sentBytes tr.outputs).length)
      (final (stepOk (SessionTrace.step args))
        (.ok ⟨some (openedSession id flow h mss ws uid data calls window socket), []⟩) events) := by
  have halike : (newTcpSession flow h mss ws uid data calls).Alike
      { newTcpSession flow h mss ws uid data calls with recvWindow := window } := ⟨rfl, rfl, rfl, rfl, rfl⟩
  have hopened : AckInv h.seq length (∃ e ∈ events, e.BringsFin) flow 0
      { newTcpSession flow h mss ws uid data calls with recvWindow := window } [] :=
    ⟨rfl, Nat.zero_le _, (acks_newTcpSession hseq hdata).alike halike, acksRight_nil⟩
  have hholds : SessionTrace.Holds id (AckInv h.seq length (∃ e ∈ events, e.BringsFin) flow 0)
      ⟨some (openedSession id flow h mss ws uid data calls window socket), []⟩ :=
    ⟨_, hopened, fun s hs => by cases hs; exact ⟨rfl, fits_openedSession hsocket, rfl⟩⟩
  have hguard : EveryStep (stepOk (SessionTrace.step args)) (fun r e => OnOk (fun tr => tr.Guarded
      (finGuard id h.seq length (sentBytes tr.outputs).length (∃ e ∈ events, e.BringsFin)) e) r)
      (.ok ⟨some (openedSession id flow h mss ws uid data calls window socket), []⟩) events :=
    horder.imp_of_mem fun e he r hr tr htr => (hr tr htr).guarded (hform e he) (hends e he) (fun hf => ⟨e, he, hf⟩) id
  have hruns := onOk_states (fun _ => True) _ (fun _ _ _ _ _ => trivial)
    (fun _ _ _ _ hp hguard hstep => holds_ackInv_step hflow hp hguard hstep) trivial hholds hguard
  intro tr htr
  obtain ⟨t, hinv, hsession⟩ := hruns _ (final_mem_states _ _) tr htr
  refine ⟨hinv.right, fun t' ht' => ?_⟩
  obtain ⟨s, hs, ht'⟩ := Option.bind_eq_some_iff.1 ht'
  obtain ⟨hdata, -, -⟩ := hsession s hs
  rw [NgSession.tcp?, hdata] at ht'
  cases ht'
  exact hinv.acks.expectsNext

/-- `GET` in two segments, the second one with the FIN; the socket takes all. -/
def finEvents : List SessionEvent :=
  handshake ++ [.segment (plainHeader 101 1 false false true) [71] .working,
    .segment (plainHeader 102 1 true false true) [69, 84] .working, .socket (.taking 2)]

theorem acksRight_final_get : OnOk (fun tr => AcksRight 100 3 (∃ e ∈ finEvents, e.BringsFin) 4 tr.outputs ∧
      ∀ t ∈ tr.session.bind NgSession.tcp?,
      t.ExpectsNext 100 3 (∃ e ∈ finEvents, e.BringsFin) (sentBytes tr.outputs).length)
    (plainRun (plainSession []) finEvents) :=
  acksRight_final _ 0 segmentFlow (plainHeader 100 0 false true false) 1460 0 10002 [] .working 65535 3 3 finEvents
    (by decide) (by decide) (by decide) (by decide) (by decide) (by decide) (by decide +kernel)

/-- The number a packet over IPv4 acknowledges. -/
def Output.ack? : Output → Option Nat
  | .tunWrite packet =>
    match readTcpHeader packet 20 with
    | .ok h => if h.ack then some h.ackSeq else none
    | .error _ => none
  | _ => none

/-- The FIN after `GET`, all of which is lost. -/
def earlyFin : List SessionEvent := handshake ++ [.segment (plainHeader 104 1 true false true) [] .working]

theorem ack_earlyFin : (plainRun (plainSession []) earlyFin).map
    (fun tr => (tr.outputs.getLast?.bind Output.ack?, (sentBytes tr.outputs.dropLast).length)) = .ok (some 102, 0) := by
  decide +kernel

/-- A FIN that arrives before the data acknowledges an octet that is not delivered. -/
theorem not_acksRight_earlyFin :
    ¬ ∀ (args : Arguments) (id : Nat) (flow : Flow) (h : TcpHeader) (mss ws : Nat) (uid : Int)
    (data : Bytes) (calls : TunCalls) (window : Nat) (socket : Int) (length : Nat) (events : List SessionEvent),
    0 ≤ socket →
    flow.WellFormed → h.seq < 4294967296 → data.length < 65536 → (∀ e ∈ events, e.WellFormed) →
    (∀ e ∈ events, e.EndsAt h.seq length) →
    OnOk (fun tr => AcksRight h.seq length (∃ e ∈ events, e.BringsFin) flow.version tr.outputs)
      (final (stepOk (SessionTrace.step args))
        (.ok ⟨some (openedSession id flow h mss ws uid data calls window socket), []⟩) events) := by
  intro hall
  have hright := hall (.plain [] _ compiled_redirectAll) 0 segmentFlow
    (plainHeader 100 0 false true false) 1460 0 10002 []
    .working 65535 3 3 earlyFin (by decide) (by decide) (by decide) (by decide) (by decide) (by decide)
  obtain ⟨tr, htr, hlast⟩ := map_eq_ok ack_earlyFin
  obtain ⟨hack, hsent⟩ := Prod.mk.inj hlast
  obtain ⟨o, ho, hack⟩ := Option.bind_eq_some_iff.1 hack
  have houtputs := List.dropLast_append_getLast? o ho
  cases o with
  | tunWrite packet =>
    have hprefix : tr.outputs.dropLast ++ [.tunWrite packet] <+: tr.outputs := by rw [houtputs]
    obtain ⟨h, hread, hbound⟩ := hright tr htr _ packet hprefix
    have hread : readTcpHeader packet 20 = .ok h := hread
    simp only [Output.ack?, hread, Option.ite_none_right_eq_some, Option.some.injEq] at hack
    obtain ⟨m, hm, hle⟩ := hbound hack.1
    rw [hsent, hack.2] at *
    simp only [u32, plainHeader] at hm
    omega
  | send | close | resolved | usage => cases hack

end SunProxy.Net
