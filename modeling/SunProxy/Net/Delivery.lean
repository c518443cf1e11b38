/-
What the socket of a TCP session takes is a prefix of the stream of its client. The number expected next
says how much of the stream was sent, together with what was sent of the segment at the head; this
relation is kept by every move, as long as the segments that arrive are slices of the stream.
-/
import SunProxy.Lib.Seq
import SunProxy.Net.SessionRun
import SunProxy.Net.TcpQueue

namespace SunProxy.Net

open SunProxy.Buffer SunProxy.Run SunProxy.Seq

/-! ## Slices of a stream -/

/-- A queued segment that carries octets of the stream. Its counters have 16 bits. -/
structure Segment.IsSlice (start : Nat) (stream : Bytes) (q : Segment) : Prop where
  octets : ∃ o, q.seq = octetSeq start o ∧ o + q.len ≤ stream.length ∧ o < 2147483648 ∧
    q.data = (stream.drop o).take q.len
  len : q.len < 65536
  sent : q.sent < 65536

/-- A segment whose data are octets of the stream; `datalen` is a 16-bit number. -/
def TcpHeader.Carries (start : Nat) (stream : Bytes) (h : TcpHeader) (data : Bytes) : Prop :=
  data.length < 65536 ∧
    ∃ o, h.seq = octetSeq start o ∧ o + data.length ≤ stream.length ∧ data = (stream.drop o).take data.length

/-- The event brings no data that is not the stream's. -/
def SessionEvent.Carries (start : Nat) (stream : Bytes) : SessionEvent → Prop
  | .segment h data _ => data ≠ [] → h.Carries start stream data
  | _ => True

/-- A segment of the stream of which nothing was sent. -/
def Segment.IsFresh (start : Nat) (stream : Bytes) (q : Segment) : Prop := q.IsSlice start stream ∧ q.sent = 0

/-! ## The queue -/

/-- What was sent of the segment at the head. -/
def headSent : List Segment → Nat
  | [] => 0
  | head :: _ => head.sent

/-- A queue when `k` octets were sent before its head. Something was sent of no segment but the head,
and of the head only once it was its turn. -/
inductive Queued (start : Nat) (stream : Bytes) (k : Nat) : List Segment → Prop
  | nil (le : k ≤ stream.length) : Queued start stream k []
  | cons {head : Segment} {rest : List Segment} (slice : head.IsSlice start stream)
      (turn : head.sent ≠ 0 → head.seq = octetSeq start k) (le : k + head.sent ≤ stream.length)
      (fresh : ∀ q ∈ rest, q.IsFresh start stream) : Queued start stream k (head :: rest)

variable {start k n : Nat} {stream sent : Bytes} {seg : Segment} {l rest : List Segment}

theorem Queued.le (h : Queued start stream k l) : k + headSent l ≤ stream.length := by
  cases h with
  | nil le => exact le
  | cons _ _ le _ => exact le

theorem Queued.of_fresh (hl : ∀ q ∈ l, q.IsFresh start stream) (hk : k ≤ stream.length) : Queued start stream k l := by
  cases l with
  | nil => exact .nil hk
  | cons head rest =>
    obtain ⟨hslice, hsent⟩ := hl head List.mem_cons_self
    exact .cons hslice (fun hne => absurd hsent hne) (by omega) fun q hq => hl q (List.mem_cons_of_mem _ hq)

theorem Segment.IsSlice.replace {s : Segment} (hs : s.IsSlice start stream) (hseg : seg.IsSlice start stream)
    (hseq : s.seq = seg.seq) : Segment.IsSlice start stream { s with len := seg.len, data := seg.data } := by
  obtain ⟨o, ho, hoctets⟩ := hseg.octets
  exact ⟨⟨o, hseq.trans ho, hoctets⟩, hseg.len, hs.sent⟩

theorem fresh_queueSegment (hl : ∀ q ∈ l, q.IsFresh start stream) (hseg : seg.IsFresh start stream) :
    ∀ q ∈ queueSegment seg l, q.IsFresh start stream := by
  intro q hq
  rcases mem_queueSegment hq with rfl | hq | ⟨s, hs, hseq, rfl⟩
  · exact hseg
  · exact hl q hq
  · exact ⟨(hl s hs).1.replace hseg.1 hseq, (hl s hs).2⟩

/-- A new segment that is not before the octet whose turn it is stays behind a head of which something
was sent. -/
theorem Queued.queueSegment (h : Queued start stream k l) (hstream : stream.length < 2147483648)
    (hseg : seg.IsFresh start stream) (hpos : 0 < seg.len) (hnext : ¬ compareU32 seg.seq (octetSeq start k) < 0) :
    Queued start stream k (queueSegment seg l) ∧ headSent (queueSegment seg l) = headSent l := by
  cases h with
  | nil le => exact ⟨.of_fresh (fresh_queueSegment (l := []) nofun hseg) le, hseg.2⟩
  | @cons head rest slice turn le fresh =>
    unfold Net.queueSegment
    split
    · exact ⟨.cons slice turn le (fresh_queueSegment fresh hseg), rfl⟩
    · rename_i hlt
      split
      · rename_i hgt
        have hsent : head.sent = 0 := by
          by_contra hne
          obtain ⟨o, ho, hfit, -⟩ := hseg.1.octets
          have hturn := turn hne
          rw [hturn, ho] at hgt hlt
          rw [ho] at hnext
          -- the new segment is neither before nor behind the octet whose turn it is
          have hkle : k < stream.length := by omega
          rcases Nat.lt_trichotomy o k with hok | rfl | hok
          · exact hnext (compareU32_octetSeq_lt hok (by omega))
          · rw [compareU32_pos_iff] at hgt
            exact hgt.1 rfl
          · exact hlt (compareU32_octetSeq_lt hok (by omega))
        refine ⟨.of_fresh ?_ (by omega), hseg.2.trans hsent.symm⟩
        intro q hq
        rcases List.mem_cons.1 hq with rfl | hq
        · exact hseg
        · rcases List.mem_cons.1 hq with rfl | hq
          · exact ⟨slice, hsent⟩
          · exact fresh q hq
      · rename_i hgt
        have hseq : head.seq = seg.seq := compareU32_eq_zero_iff.1 (by omega)
        split
        · exact ⟨.cons slice turn le fresh, rfl⟩
        · exact ⟨.cons (slice.replace hseg.1 hseq) turn le fresh, rfl⟩

/-- What is sent of a head whose turn it is follows what was sent. -/
theorem Queued.next (h : Queued start stream k (seg :: rest)) (hstream : stream.length < 2147483648)
    (hturn : seg.seq = octetSeq start k) (hn : n ≤ seg.len - seg.sent) :
    stream.take (k + seg.sent) ++ (seg.data.drop seg.sent).take n = stream.take (k + (seg.sent + n)) ∧
      seg.sent + n < 65536 ∧ k + (seg.sent + n) ≤ stream.length := by
  cases h with
  | cons slice _ le _ =>
    have hlen := slice.len
    have hsent := slice.sent
    obtain ⟨o, ho, hfit, hlt, hdata⟩ := slice.octets
    obtain rfl : o = k := (octetSeq_inj hlt (by omega)).1 (ho.symm.trans hturn)
    by_cases hle : seg.sent + n ≤ seg.len
    · refine ⟨?_, by omega, by omega⟩
      rw [hdata, take_append_slice stream hle, Nat.add_assoc]
    · -- more was sent of it than its length now
      obtain rfl : n = 0 := by omega
      rw [List.take_zero, List.append_nil, Nat.add_zero]
      exact ⟨rfl, hsent, le⟩

/-! ## The relation -/

/-- `k` octets were sent, and part of the head. -/
structure Transfers (start : Nat) (stream : Bytes) (t : TcpSession) (sent : Bytes) (k : Nat) : Prop where
  listen : t.state ≠ .listen
  finWait : t.state ≠ .finWait1
  remoteSeq : t.remoteSeq = octetSeq start k
  queue : Queued start stream k t.forward
  sent : sent = stream.take (k + headSent t.forward)

/-- How far the stream has got: the session waits for its socket, or was closed before it had one, or it
forwards, or nothing is left to forward and nothing more will be queued. -/
inductive Delivers (start : Nat) (stream : Bytes) (t : TcpSession) (sent : Bytes) : Prop
  | waits (state : t.state = .listen ∨ t.isClosed = true) (remoteSeq : t.remoteSeq = start)
    (fresh : ∀ q ∈ t.forward, q.IsFresh start stream)
      (nothing : sent = [])
  | transfers (k : Nat) (h : Transfers start stream t sent k)
  | ended (receives : ¬ t.state.Receives) (empty : t.forward = []) (isPrefix : sent <+: stream)

variable {t t' : TcpSession}

theorem Delivers.isPrefix (h : Delivers start stream t sent) : sent <+: stream := by
  cases h with
  | waits _ _ _ nothing => exact nothing ▸ List.nil_prefix
  | transfers k h => exact h.sent ▸ List.take_prefix ..
  | ended _ _ isPrefix => exact isPrefix

theorem Delivers.alike (h : Delivers start stream t sent) (ha : t.Alike t') : Delivers start stream t' sent := by
  cases h with
  | waits state remoteSeq fresh nothing =>
    unfold TcpSession.isClosed at state
    exact .waits (by rwa [TcpSession.isClosed, ha.state]) (ha.remoteSeq ▸ remoteSeq) (ha.forward ▸ fresh) nothing
  | transfers k h =>
    exact .transfers k ⟨ha.state ▸ h.listen, ha.state ▸ h.finWait, ha.remoteSeq.trans h.remoteSeq, ha.forward ▸ h.queue,
      ha.forward ▸ h.sent⟩
  | ended receives empty isPrefix => exact .ended (ha.state ▸ receives) (ha.forward ▸ empty) isPrefix

/-- With an empty queue a session may stop to receive. -/
theorem Delivers.end (h : Delivers start stream t sent) (empty : t.forward = []) {t' : TcpSession}
    (same : t'.forward = t.forward) (hstate : ¬ t'.state.Receives) : Delivers start stream t' sent :=
  .ended hstate (same.trans empty) h.isPrefix

theorem Delivers.goes (h : Delivers start stream t sent) {state : TcpState} (hgoes : t.state.Goes state) :
    Delivers start stream (t.withState state) sent := by
  have hgoes := hgoes.cases
  cases h with
  | waits waiting remoteSeq fresh nothing =>
    refine .waits (.inr ?_) remoteSeq fresh nothing
    rcases hgoes with ⟨hs, -⟩ | rfl | ⟨-, rfl⟩
    · simp [TcpSession.isClosed, hs] at waiting
    · rfl
    · rfl
  | transfers k h =>
    have hstate : state ≠ .listen ∧ state ≠ .finWait1 := by
      rcases hgoes with ⟨-, rfl⟩ | rfl | ⟨-, rfl⟩ <;> decide
    exact .transfers k ⟨hstate.1, hstate.2, h.remoteSeq, h.queue, h.sent⟩
  | ended receives empty isPrefix =>
    refine .ended ?_ empty isPrefix
    rcases hgoes with ⟨hs, -⟩ | rfl | ⟨-, rfl⟩
    · rw [hs] at receives
      exact absurd trivial receives
    · exact id
    · exact id

/-! ## Moves -/

/-- Only slices of the stream are queued. -/
def streamGuard (id start : Nat) (stream : Bytes) : Guard where
  id := id
  queue _ h data := data ≠ [] ∧ h.Carries start stream data
  fin _ _ _ := True

/-- The SYN of the client has the number before its first octet. -/
theorem Delivers.syn (h : Delivers start stream t sent) (listen : t.state = .listen) {state : TcpState}
    (after : state = .synRecv ∨ state = .closing) :
    Delivers start stream { t with remoteSeq := u32 (t.remoteSeq + 1), state := state } sent := by
  cases h with
  | waits _ remoteSeq fresh nothing =>
    have hstate : state ≠ .listen ∧ state ≠ .finWait1 := by rcases after with rfl | rfl <;> decide
    have hnone : headSent t.forward = 0 := by
      cases hf : t.forward with
      | nil => rfl
      | cons head rest => exact (fresh head (hf ▸ List.mem_cons_self)).2
    refine .transfers 0 ⟨hstate.1, hstate.2, ?_, .of_fresh fresh (Nat.zero_le _), ?_⟩
    · simp only [remoteSeq, octetSeq, Nat.add_zero]
    · rw [hnone, nothing]
      rfl
  | transfers k h => exact absurd listen h.listen
  | ended receives _ _ => exact absurd (listen ▸ trivial) receives

/-- The data of a segment as a new segment of the queue. -/
theorem TcpHeader.Carries.isFresh {h : TcpHeader} {data : Bytes} (hc : h.Carries start stream data)
    (hstream : stream.length < 2147483648) (hdata : data ≠ []) :
    Segment.IsFresh start stream ⟨h.seq, data.length, 0, h.psh, data⟩ := by
  obtain ⟨hlen, o, hseq, hfit, hslice⟩ := hc
  have hpos := List.length_pos_iff.2 hdata
  exact ⟨⟨⟨o, hseq, hfit, by omega, hslice⟩, hlen, Nat.zero_lt_succ _⟩, rfl⟩

theorem Delivers.queueTcp (h : Delivers start stream t sent) (hstream : stream.length < 2147483648)
    (receives : t.state.Receives) {header : TcpHeader} {data : Bytes} (hdata : data ≠ [])
    (hc : header.Carries start stream data) : Delivers start stream (queueTcp t header data) sent := by
  unfold Net.queueTcp
  split
  · exact h
  · rename_i hnext
    have hseg := hc.isFresh hstream hdata
    cases h with
    | waits state remoteSeq fresh nothing => exact .waits state remoteSeq (fresh_queueSegment fresh hseg) nothing
    | transfers k h =>
      rw [h.remoteSeq] at hnext
      obtain ⟨hqueue, hhead⟩ := h.queue.queueSegment hstream hseg (List.length_pos_iff.2 hdata) hnext
      exact .transfers k ⟨h.listen, h.finWait, h.remoteSeq, hqueue, by rw [h.sent, ← hhead]⟩
    | ended never _ _ => exact absurd receives never

/-- What may be sent is the head of the queue of a session that forwards. -/
theorem Delivers.of_next (h : Delivers start stream t sent) (queue : t.forward = seg :: rest)
    (next : seg.seq = t.remoteSeq) : ∃ k, Transfers start stream t sent k := by
  cases h with
  | waits _ remoteSeq fresh _ =>
    -- no octet has the number of the SYN
    obtain ⟨o, ho, -, hlt, -⟩ := (fresh seg (queue ▸ List.mem_cons_self)).1.octets
    rw [next, remoteSeq] at ho
    simp only [octetSeq, u32] at ho
    omega
  | transfers k h => exact ⟨k, h⟩
  | ended _ empty _ => rw [empty] at queue; cases queue

/-- A session in a state that forwards and takes no FIN but the first forwards. -/
theorem Delivers.of_established (h : Delivers start stream t sent) (hs : t.state = .established) :
    ∃ k, Transfers start stream t sent k := by
  cases h with
  | waits state _ _ _ => simp [TcpSession.isClosed, hs] at state
  | transfers k h => exact ⟨k, h⟩
  | ended never _ _ => exact absurd (hs ▸ trivial) never

/-- The end of the socket's stream leaves nothing to forward. -/
theorem Delivers.of_finWait (h : Delivers start stream t sent) (hs : t.state = .finWait1) : t.forward = [] := by
  cases h with
  | waits state _ _ _ => simp [TcpSession.isClosed, hs] at state
  | transfers k h => exact absurd hs h.finWait
  | ended _ empty _ => exact empty

theorem Delivers.sendPart (h : Delivers start stream t sent) (hstream : stream.length < 2147483648)
    (queue : t.forward = seg :: rest) (next : seg.seq = t.remoteSeq) (le : n ≤ seg.len - seg.sent) :
    Delivers start stream { t with forward := { seg with sent := (seg.sent + n) % 65536 } :: rest }
      (sent ++ (seg.data.drop seg.sent).take n) := by
  obtain ⟨k, h⟩ := h.of_next queue next
  have hqueue := h.queue
  have hsent := h.sent
  rw [queue] at hqueue hsent
  obtain ⟨htaken, hsmall, hle⟩ := hqueue.next hstream (next.trans h.remoteSeq) le
  cases hqueue with
  | cons slice turn _ fresh =>
    refine .transfers k ⟨h.listen, h.finWait, h.remoteSeq, ?_, ?_⟩
    · rw [Nat.mod_eq_of_lt hsmall]
      exact .cons ⟨slice.octets, slice.len, hsmall⟩ (fun _ => next.trans h.remoteSeq) hle fresh
    · rw [hsent, Nat.mod_eq_of_lt hsmall]
      exact htaken

theorem Delivers.sendAll (h : Delivers start stream t sent) (hstream : stream.length < 2147483648)
    (queue : t.forward = seg :: rest) (next : seg.seq = t.remoteSeq) (le : n ≤ seg.len - seg.sent) :
    Delivers start stream { t with forward := rest, remoteSeq := u32 (seg.seq + (seg.sent + n) % 65536) }
      (sent ++ (seg.data.drop seg.sent).take n) := by
  obtain ⟨k, h⟩ := h.of_next queue next
  have hqueue := h.queue
  have hsent := h.sent
  rw [queue] at hqueue hsent
  have hturn := next.trans h.remoteSeq
  obtain ⟨htaken, hsmall, hle⟩ := hqueue.next hstream hturn le
  cases hqueue with
  | cons slice turn _ fresh =>
    have hnone : headSent rest = 0 := by
      cases rest with
      | nil => rfl
      | cons head rest => exact (fresh head List.mem_cons_self).2
    refine .transfers (k + (seg.sent + n)) ⟨h.listen, h.finWait, ?_, .of_fresh fresh hle, ?_⟩
    · rw [Nat.mod_eq_of_lt hsmall, hturn]
      exact u32_octetSeq_add start k _
    · rw [hsent]
      simp only [hnone, Nat.add_zero]
      exact htaken

/-- Every move keeps what is sent a prefix of the stream. -/
theorem delivers_move {id : Nat} {os : List Output} (hstart : start < 4294967296) (hstream : stream.length < 2147483648)
    (h : Delivers start stream t sent) (hmove : Move (streamGuard id start stream) t os t') :
    Delivers start stream t' (sent ++ sentBytes os) := by
  cases hmove with
  | alike ha => simpa using h.alike ha
  | other ho => simpa [sentBytes_other ho] using h
  | write data flags => simpa using h
  -- a keep-alive takes one from the number and puts it back
  | keepAlive ms _ =>
    rw [sentBytes_write, List.append_nil]
    cases h with
    | waits state remoteSeq fresh nothing =>
      exact .waits state (by simp only [remoteSeq, u32, Nat.mod_eq_of_lt hstart]) fresh nothing
    | transfers k h =>
      exact .transfers k ⟨h.listen, h.finWait, by simp only [h.remoteSeq, octetSeq, u32, Nat.mod_mod], h.queue, h.sent⟩
    | ended receives empty isPrefix => exact .ended receives empty isPrefix
  | goes hgoes => simpa using h.goes hgoes
  | syn listen after => simpa using h.syn listen after
  | queue receives guard => simpa using h.queueTcp hstream receives guard.1 guard.2
  | sendPart _ queue next le => simpa using h.sendPart hstream queue next le
  | sendAll _ queue next le _ => simpa using h.sendAll hstream queue next le
  | fin _ empty _ after =>
    rw [sentBytes_nil, List.append_nil]
    refine h.end empty rfl ?_
    rcases after with rfl | rfl <;> simp [TcpState.Receives]
  | lastFin finWait _ after =>
    rw [sentBytes_nil, List.append_nil]
    refine h.end (h.of_finWait finWait) rfl ?_
    rcases after with rfl | rfl <;> simp [TcpState.Receives]
  | halfClose established _ _ =>
    obtain ⟨k, h⟩ := h.of_established established
    rw [sentBytes_nil, List.append_nil]
    exact .transfers k ⟨by simp [TcpSession.withState], by simp [TcpSession.withState], h.remoteSeq, h.queue, h.sent⟩
  | sendLast closeWait queue next le _ =>
    have hlast := h.sendAll hstream queue next le
    rw [sentBytes_send]
    exact hlast.end rfl rfl (by simp [closeWait, TcpState.Receives])
  | finish empty after =>
    rw [sentBytes_nil, List.append_nil]
    refine h.end empty rfl ?_
    rcases after with ⟨-, rfl⟩ | ⟨-, rfl⟩ <;> simp [TcpSession.withState, TcpState.Receives]

/-! ## Runs -/

theorem SessionEvent.Carries.guarded {e : SessionEvent} (h : e.Carries start stream) (id : Nat) (t : TcpSession) :
    e.Guarded (streamGuard id start stream) t := by
  cases e with
  | segment header data calls => exact ⟨fun htakes => ⟨htakes.2, h htakes.2⟩, fun _ _ => trivial⟩
  | monitor | check | socket | checkAllowed | clear => trivial

/-- For every session that a SYN without data opens, what its socket takes is at all times a prefix of
the stream of its client. -/
theorem sentBytes_prefix (args : Arguments) (id : Nat) (flow : Flow) (h : TcpHeader) (mss ws : Nat) (uid : Int)
    (calls : TunCalls) (window : Nat) (socket : Int) (stream : Bytes) (events : List SessionEvent)
    (hsocket : 0 ≤ socket) (hseq : h.seq < 4294967296) (hstream : stream.length < 2147483648)
    (hslices : ∀ e ∈ events, e.Carries h.seq stream) :
    ∀ r ∈ sessionStates args (openedSession id flow h mss ws uid [] calls window socket) events,
      OnOk (fun tr => sentBytes tr.outputs <+: stream) r := by
  have hopened : Delivers h.seq stream { newTcpSession flow h mss ws uid [] calls with recvWindow := window } [] :=
    .waits (.inl rfl) rfl nofun rfl
  have hguard : EveryStep (stepOk (SessionTrace.step args))
      (fun r e => OnOk (fun tr => tr.Guarded (streamGuard id h.seq stream) e) r)
      (.ok ⟨some (openedSession id flow h mss ws uid [] calls window socket), []⟩) events :=
    (everyStep_true _ _).imp_of_mem fun e he r _ tr _ s t _ _ => (hslices e he).guarded id t
  intro r hr tr htr
  obtain ⟨t, hdelivers, -⟩ := holds_sessionStates (G := streamGuard id h.seq stream)
    (P := fun t os => Delivers h.seq stream t (sentBytes os))
    (fun before hp hmove => by rw [sentBytes_append]; exact delivers_move hseq hstream hp hmove)
    rfl (fits_openedSession hsocket) rfl hopened hguard r hr tr htr
  exact hdelivers.isPrefix

theorem sentBytes_prefix_get :
    (plainRun (plainSession []) getEvents).map (fun tr => sentBytes tr.outputs) = .ok [71, 69] ∧
    ∀ r ∈ sessionStates (.plain [] _ compiled_redirectAll) (plainSession []) getEvents,
      OnOk (fun tr => sentBytes tr.outputs <+: [71, 69, 84]) r := by
  have hlast : (plainHeader 102 1 false false true).Carries 100 [71, 69, 84] [69, 84] :=
    ⟨by decide, 1, by decide, by decide, by decide⟩
  have hfirst : (plainHeader 101 1 false false true).Carries 100 [71, 69, 84] [71] :=
    ⟨by decide, 0, by decide, by decide, by decide⟩
  have hslices : ∀ e ∈ getEvents, e.Carries 100 [71, 69, 84] := by
    simp only [getEvents, handshake, List.cons_append, List.nil_append, List.forall_mem_cons]
    exact ⟨trivial, fun h => absurd rfl h, fun _ => hlast, fun _ => hfirst, fun _ => hfirst, trivial, by simp⟩
  exact ⟨by decide +kernel,
    sentBytes_prefix _ 0 segmentFlow (plainHeader 100 0 false true false) 1460 0 10002 .working 65535 3
    [71, 69, 84] getEvents (by decide) (by decide) (by decide) hslices⟩

end SunProxy.Net
