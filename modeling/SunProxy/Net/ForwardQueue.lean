/-
The queue of client data of an open TCP session: in every state of a run in which no segment is queued
that overlaps another one, its segments are in the order of their numbers and none is before the number
expected next. Data on the SYN, segments that overlap and shorter copies of segments break this.
-/
import Mathlib.Algebra.Order.BigOperators.Group.List
import SunProxy.Net.SessionRun
import SunProxy.Net.TcpQueue

namespace SunProxy.Net

open SunProxy.Buffer SunProxy.Run

/-! ## Segments that are apart -/

/-- The number of the first octet that was not sent; while the session listens its SYN comes before. -/
def TcpSession.nextOctet (t : TcpSession) : Nat := if t.state = .listen then u32 (t.remoteSeq + 1) else t.remoteSeq

/-- Counted from `base` on, the new segment `n` does not overlap `q` unless both start at one number, and
is not shorter than what was sent then. -/
def Segment.ApartFrom (base : Nat) (n q : Segment) : Prop :=
  (sub32 q.seq base < sub32 n.seq base → sub32 q.seq base + q.len ≤ sub32 n.seq base) ∧
    (sub32 n.seq base < sub32 q.seq base → sub32 n.seq base + n.len ≤ sub32 q.seq base) ∧
    (q.seq = n.seq → q.sent ≤ n.len)

instance (base : Nat) (n q : Segment) : Decidable (Segment.ApartFrom base n q) :=
  inferInstanceAs (Decidable (_ ∧ _ ∧ _))

/-- The data is dropped as it was sent before, or starts less than half of all numbers after the next
octet and is apart from all that is queued. -/
def TcpSession.QueuesApart (t : TcpSession) (h : TcpHeader) (data : Bytes) : Prop :=
  compareU32 h.seq t.remoteSeq < 0 ∨
    sub32 h.seq t.nextOctet < 2147483647 ∧
      ∀ q ∈ t.forward, Segment.ApartFrom t.nextOctet ⟨h.seq, data.length, 0, h.psh, data⟩ q

instance (t : TcpSession) (h : TcpHeader) (data : Bytes) : Decidable (t.QueuesApart h data) :=
  inferInstanceAs (Decidable (_ ∨ _ ∧ _))

/-- Segments in the order of their octets, counted from `base` on. -/
structure Sorted (base : Nat) (l : List Segment) : Prop where
  ahead : ∀ q ∈ l, q.seq < 4294967296 ∧ sub32 q.seq base < 2147483647 ∧ 0 < q.len ∧ q.len < 65536 ∧ q.sent ≤ q.len
  apart : l.Pairwise fun a b => sub32 a.seq base + a.len ≤ sub32 b.seq base

variable {base : Nat} {n seg : Segment} {l rest : List Segment} {t t' : TcpSession}

/-- Numbers less than half of all numbers ahead compare as their distances. -/
theorem compareU32_neg_iff_sub32 {a b : Nat} (hbase : base < 4294967296) (ha : a < 4294967296) (hb : b < 4294967296)
    (hna : sub32 a base < 2147483647) (hnb : sub32 b base < 2147483647) :
    compareU32 a b < 0 ↔ sub32 a base < sub32 b base := by
  rw [compareU32_neg_iff]
  simp only [sub32] at *
  omega

theorem sub32_inj {a b : Nat} (hbase : base < 4294967296) (ha : a < 4294967296) (hb : b < 4294967296) :
    sub32 a base = sub32 b base ↔ a = b := by
  simp only [sub32]
  omega

theorem sorted_nil (base : Nat) : Sorted base [] := ⟨nofun, .nil⟩

theorem Sorted.tail (h : Sorted base (seg :: rest)) : Sorted base rest :=
  ⟨fun q hq => h.ahead q (List.mem_cons_of_mem _ hq), h.apart.of_cons⟩

/-- A new segment that is apart from all others goes to its place. -/
theorem Sorted.queueSegment (h : Sorted base l) (hbase : base < 4294967296) (hseq : n.seq < 4294967296)
    (hnear : sub32 n.seq base < 2147483647) (hpos : 0 < n.len) (hlen : n.len < 65536) (hfresh : n.sent = 0)
    (hapart : ∀ q ∈ l, Segment.ApartFrom base n q) : Sorted base (queueSegment n l) := by
  induction l with
  | nil =>
    refine ⟨fun q hq => ?_, List.pairwise_singleton ..⟩
    rw [List.mem_singleton.1 hq]
    exact ⟨hseq, hnear, hpos, hlen, by omega⟩
  | cons s rest ih =>
    obtain ⟨hsseq, hsnear, hspos, hslen, hssent⟩ := h.ahead s List.mem_cons_self
    obtain ⟨hbefore, hafter, hsame⟩ := hapart s List.mem_cons_self
    have hrest := List.pairwise_cons.1 h.apart
    have hcompare := compareU32_neg_iff_sub32 hbase hsseq hseq hsnear hnear
    -- the new segment goes behind the first one, before it, or in its place
    unfold Net.queueSegment
    split
    · rename_i hlt
      have ih := ih h.tail fun q hq => hapart q (List.mem_cons_of_mem _ hq)
      refine ⟨fun q hq => ?_, List.pairwise_cons.2 ⟨fun q hq => ?_, ih.apart⟩⟩
      · rcases List.mem_cons.1 hq with rfl | hq
        · exact h.ahead q List.mem_cons_self
        · exact ih.ahead q hq
      · rcases mem_queueSegment hq with rfl | hq | ⟨s', hs', -, rfl⟩
        · exact hbefore (hcompare.1 hlt)
        · exact hrest.1 q hq
        · exact hrest.1 s' hs'
    · rename_i hlt
      split
      · rename_i hgt
        rw [compareU32_pos_iff] at hgt
        have hne : sub32 s.seq base ≠ sub32 n.seq base := fun heq => hgt.1 ((sub32_inj hbase hsseq hseq).1 heq)
        have hns : sub32 n.seq base + n.len ≤ sub32 s.seq base := hafter (by omega)
        refine ⟨fun q hq => ?_, List.pairwise_cons.2 ⟨fun q hq => ?_, h.apart⟩⟩
        · rcases List.mem_cons.1 hq with rfl | hq
          · exact ⟨hseq, hnear, hpos, hlen, by omega⟩
          · exact h.ahead q hq
        · rcases List.mem_cons.1 hq with rfl | hq
          · exact hns
          · have := hrest.1 q hq
            omega
      · rename_i hgt
        have heq : s.seq = n.seq := compareU32_eq_zero_iff.1 (by omega)
        split
        · exact h
        · refine ⟨fun q hq => ?_, List.pairwise_cons.2 ⟨fun q hq => ?_, hrest.2⟩⟩
          · rcases List.mem_cons.1 hq with rfl | hq
            · exact ⟨hsseq, hsnear, hpos, hlen, hsame heq⟩
            · exact h.ahead q (List.mem_cons_of_mem _ hq)
          · -- the segment that is replaced had octets, so that `q` starts after its number
            have hq' := hrest.1 q hq
            rw [heq] at hq'
            exact heq ▸ (hapart q (List.mem_cons_of_mem _ hq)).2.1 (by omega)

/-- What follows the head is ahead of the octet after it. -/
theorem Sorted.next (h : Sorted base (seg :: rest)) (hbase : base < 4294967296) (hturn : seg.seq = base) :
    Sorted (u32 (seg.seq + seg.len)) rest := by
  have hrest := List.pairwise_cons.1 h.apart
  have hplace : ∀ q ∈ rest, sub32 q.seq (u32 (seg.seq + seg.len)) + seg.len = sub32 q.seq base := by
    intro q hq
    have hseq := (h.ahead q (List.mem_cons_of_mem _ hq)).1
    have hlen := (h.ahead seg List.mem_cons_self).2.2.2.1
    have hafter := hrest.1 q hq
    rw [hturn] at hafter ⊢
    simp only [sub32, u32] at hafter ⊢
    omega
  refine ⟨fun q hq => ?_, hrest.2.imp_of_mem fun {a b} ha hb hab => ?_⟩
  · have hq' := h.ahead q (List.mem_cons_of_mem _ hq)
    have := hplace q hq
    exact ⟨hq'.1, by omega, hq'.2.2⟩
  · have := hplace a ha
    have := hplace b hb
    omega

/-! ## Sessions -/

/-- The octet with the number `seq` is in the segment. -/
def Segment.Holds (q : Segment) (seq : Nat) : Prop := sub32 seq q.seq < q.len

/-- The queue of a session: its segments are in order, none is shorter than what was sent of it, and once
the SYN is acknowledged none is before the number expected next. So the loop can send what it has of the
octet expected next, and there is never less to forward than nothing. -/
structure TcpSession.QueueRight (t : TcpSession) : Prop where
  increasing : t.forward.Pairwise fun a b => compareU32 a.seq b.seq < 0
  sent : ∀ q ∈ t.forward, q.sent ≤ q.len
  head : t.state ≠ .listen → ∀ q ∈ t.forward.head?, 0 ≤ compareU32 q.seq t.remoteSeq
  sendable : t.state ≠ .listen → ∀ q ∈ t.forward, q.Holds t.remoteSeq → ∃ head ∈ t.forward.head?, head.seq = t.remoteSeq
  toforward : 0 ≤ (t.forward.map fun q => (q.len - q.sent : Int)).sum

/-- What holds of a session until it is closed. -/
structure TcpSession.InOrder (t : TcpSession) : Prop where
  remoteSeq : t.remoteSeq < 4294967296
  finWait : t.state = .finWait1 → t.forward = []
  sorted : Sorted t.nextOctet t.forward

theorem nextOctet_lt (h : t.remoteSeq < 4294967296) : t.nextOctet < 4294967296 := by
  unfold TcpSession.nextOctet
  split
  · exact Nat.mod_lt _ (by decide)
  · exact h

theorem nextOctet_eq (h : t.state ≠ .listen) : t.nextOctet = t.remoteSeq := if_neg h

theorem Sorted.increasing (h : Sorted base l) (hbase : base < 4294967296) :
    l.Pairwise fun a b => compareU32 a.seq b.seq < 0 := by
  refine h.apart.imp_of_mem fun {a b} ha hb hab => ?_
  obtain ⟨haseq, hanear, hapos, -⟩ := h.ahead a ha
  obtain ⟨hbseq, hbnear, -⟩ := h.ahead b hb
  exact (compareU32_neg_iff_sub32 hbase haseq hbseq hanear hbnear).2 (by omega)

/-- Only the head can start at the number counted from. -/
theorem Sorted.head_of_holds (h : Sorted base l) (hbase : base < 4294967296) (hn : n ∈ l) (hholds : n.Holds base) :
    ∃ head ∈ l.head?, head.seq = base := by
  obtain ⟨hseq, hnear, -, hlen, -⟩ := h.ahead n hn
  have hturn : n.seq = base := by
    unfold Segment.Holds at hholds
    simp only [sub32] at hholds hnear
    omega
  cases l with
  | nil => cases hn
  | cons head rest =>
    refine ⟨head, rfl, ?_⟩
    rcases List.mem_cons.1 hn with rfl | hn
    · exact hturn
    · have hafter := (List.pairwise_cons.1 h.apart).1 n hn
      have hpos := (h.ahead head List.mem_cons_self).2.2.1
      rw [hturn] at hafter
      simp only [sub32] at hafter
      omega

theorem TcpSession.InOrder.right (h : t.InOrder) : t.QueueRight where
  increasing := h.sorted.increasing (nextOctet_lt h.remoteSeq)
  sent q hq := (h.sorted.ahead q hq).2.2.2.2
  head hs q hq := by
    obtain ⟨hseq, hnear, -⟩ := h.sorted.ahead q (List.mem_of_mem_head? hq)
    have hseq' := h.remoteSeq
    rw [nextOctet_eq hs] at hnear
    have hnot := (compareU32_neg_iff_sub32 hseq' hseq hseq' hnear (by simp [sub32])).not
    simp [sub32] at hnot
    exact hnot
  sendable hs q hq hholds := by
    rw [← nextOctet_eq hs] at hholds ⊢
    exact h.sorted.head_of_holds (nextOctet_lt h.remoteSeq) hq hholds
  toforward := by
    refine List.sum_nonneg fun x hx => ?_
    obtain ⟨q, hq, rfl⟩ := List.mem_map.1 hx
    have := (h.sorted.ahead q hq).2.2.2.2
    omega

/-! ## Moves -/

/-- Only segments that are apart are queued. -/
def apartGuard (id : Nat) : Guard where
  id := id
  queue t h data := data ≠ [] ∧ h.seq < 4294967296 ∧ data.length < 65536 ∧ t.QueuesApart h data
  fin _ _ _ := True

theorem TcpSession.InOrder.alike (h : t.InOrder) (ha : t.Alike t') : t'.InOrder where
  remoteSeq := ha.remoteSeq ▸ h.remoteSeq
  finWait hs := by
    rw [ha.state] at hs
    rw [ha.forward, h.finWait hs]
  sorted := by
    have hnext : t'.nextOctet = t.nextOctet := by simp only [TcpSession.nextOctet, ha.state, ha.remoteSeq]
    rw [hnext, ha.forward]
    exact h.sorted

theorem TcpSession.InOrder.empty {t : TcpSession} (hseq : t.remoteSeq < 4294967296)
    (hempty : t.forward = []) : t.InOrder :=
  ⟨hseq, fun _ => hempty, hempty ▸ sorted_nil _⟩

theorem TcpSession.InOrder.queueTcp (h : t.InOrder) (hs : t.state.Receives) {header : TcpHeader} {data : Bytes}
    (hdata : data ≠ []) (hseq : header.seq < 4294967296) (hlen : data.length < 65536)
    (hapart : t.QueuesApart header data) :
    (queueTcp t header data).InOrder := by
  unfold Net.queueTcp
  split
  · exact h
  · rename_i hnext
    obtain ⟨hnear, hapart⟩ := hapart.resolve_left hnext
    refine ⟨h.remoteSeq, fun hwait => ?_, ?_⟩
    · change t.state = .finWait1 at hwait
      rw [hwait] at hs
      cases hs
    · exact h.sorted.queueSegment (nextOctet_lt h.remoteSeq) hseq hnear (List.length_pos_iff.2 hdata) hlen rfl hapart

theorem TcpSession.InOrder.goes (h : t.InOrder) {state : TcpState} (hgoes : t.state.Goes state) :
    (t.withState state).isClosed = true ∨ (t.withState state).InOrder := by
  rcases hgoes.cases with ⟨hs, rfl⟩ | rfl | ⟨-, rfl⟩
  · refine .inr ⟨h.remoteSeq, nofun, ?_⟩
    have hsorted := h.sorted
    rw [nextOctet_eq (by rw [hs]; decide)] at hsorted
    exact hsorted
  · exact .inl rfl
  · exact .inl rfl

/-- The numbers are counted from the octet after the SYN before and after it is acknowledged. -/
theorem TcpSession.InOrder.syn (h : t.InOrder) (listen : t.state = .listen) :
    TcpSession.InOrder { t with remoteSeq := u32 (t.remoteSeq + 1), state := .synRecv } where
  remoteSeq := Nat.mod_lt _ (by decide)
  finWait := nofun
  sorted := by
    have hsorted := h.sorted
    rw [TcpSession.nextOctet, if_pos listen] at hsorted
    exact hsorted

theorem TcpSession.InOrder.sendPart (h : t.InOrder) (queue : t.forward = seg :: rest) {k : Nat}
    (hk : k ≤ seg.len - seg.sent) :
    TcpSession.InOrder { t with forward := { seg with sent := (seg.sent + k) % 65536 } :: rest } where
  remoteSeq := h.remoteSeq
  finWait hs := by rw [h.finWait hs] at queue; cases queue
  sorted := by
    have hsorted := h.sorted
    rw [queue] at hsorted
    refine ⟨fun q hq => ?_, List.pairwise_cons.2 (List.pairwise_cons.1 hsorted.apart)⟩
    rcases List.mem_cons.1 hq with rfl | hq
    · obtain ⟨hseq, hnear, hpos, hlen, hsent⟩ := hsorted.ahead seg List.mem_cons_self
      have hle : (seg.sent + k) % 65536 ≤ seg.sent + k := Nat.mod_le _ _
      exact ⟨hseq, hnear, hpos, hlen, by dsimp only; omega⟩
    · exact hsorted.ahead q (List.mem_cons_of_mem _ hq)

theorem TcpSession.InOrder.sendAll (h : t.InOrder) (listen : t.state ≠ .listen) (queue : t.forward = seg :: rest)
    (next : seg.seq = t.remoteSeq) :
    TcpSession.InOrder { t with forward := rest, remoteSeq := u32 (seg.seq + seg.len) } where
  remoteSeq := Nat.mod_lt _ (by decide)
  finWait hs := by rw [h.finWait hs] at queue; cases queue
  sorted := by
    have hsorted := h.sorted
    rw [queue, nextOctet_eq listen] at hsorted
    have hnext := hsorted.next h.remoteSeq next
    rw [nextOctet_eq (t := { t with forward := rest, remoteSeq := u32 (seg.seq + seg.len) }) listen]
    exact hnext

/-- A move of a session in order closes it or keeps it in order. -/
theorem TcpSession.InOrder.move {id : Nat} {os : List Output} (h : t.InOrder) (hmove : Move (apartGuard id) t os t') :
    t'.isClosed = true ∨ t'.InOrder := by
  cases hmove with
  | alike ha => exact .inr (h.alike ha)
  | other _ | write _ _ => exact .inr h
  | keepAlive ms _ =>
    have hseq : u32 t.remoteSeq = t.remoteSeq := Nat.mod_eq_of_lt h.remoteSeq
    rw [hseq]
    exact .inr h
  | goes hgoes => exact h.goes hgoes
  | syn listen after =>
    rcases after with rfl | rfl
    · exact .inr (h.syn listen)
    · exact .inl rfl
  | queue receives guard => exact .inr (h.queueTcp receives guard.1 guard.2.1 guard.2.2.1 guard.2.2.2)
  | sendPart _ queue _ le => exact .inr (h.sendPart queue le)
  | sendAll listen queue next _ all => exact .inr (all ▸ h.sendAll listen queue next)
  | fin _ empty _ _ => exact .inr (.empty (Nat.mod_lt _ (by decide)) empty)
  | lastFin finWait _ _ => exact .inr (.empty (Nat.mod_lt _ (by decide)) (h.finWait finWait))
  | halfClose established _ _ =>
    have hsorted := h.sorted
    rw [nextOctet_eq (by rw [established]; decide)] at hsorted
    exact .inr ⟨h.remoteSeq, nofun, hsorted⟩
  | sendLast _ _ _ _ _ => exact .inr (.empty (Nat.mod_lt _ (by decide)) rfl)
  | finish empty _ => exact .inr (.empty h.remoteSeq empty)

/-! ## Runs -/

/-- What the event brings to the queue of the session is apart from all that is queued. -/
def SessionEvent.QueuesApart (t : TcpSession) : SessionEvent → Prop
  | .segment h data _ => t.TakesData data → t.QueuesApart h data
  | _ => True

def SessionTrace.QueuesApart (tr : SessionTrace) (e : SessionEvent) : Prop :=
  ∀ t ∈ tr.session.bind NgSession.tcp?, e.QueuesApart t

instance (t : TcpSession) : DecidablePred (SessionEvent.QueuesApart t)
  | .segment .. => inferInstanceAs (Decidable (_ → _))
  | .monitor _ | .check _ _ | .socket _ | .checkAllowed | .clear => isTrue trivial

instance (tr : SessionTrace) (e : SessionEvent) : Decidable (tr.QueuesApart e) :=
  inferInstanceAs (Decidable (∀ t ∈ tr.session.bind NgSession.tcp?, e.QueuesApart t))

/-- The queue of the session is right while the session is open. -/
def SessionTrace.QueueRight (tr : SessionTrace) : Prop :=
  ∀ t ∈ tr.session.bind NgSession.tcp?, t.isClosed = false → t.QueueRight

theorem SessionTrace.QueuesApart.guarded {tr : SessionTrace} {e : SessionEvent} (h : tr.QueuesApart e)
    (hform : e.WellFormed) (id : Nat) : tr.Guarded (apartGuard id) e := by
  intro s t hs hdata
  have ht : t ∈ tr.session.bind NgSession.tcp? := by simp [hs, NgSession.tcp?, hdata]
  have hapart := h t ht
  cases e with
  | segment header data calls => exact ⟨fun htakes => ⟨htakes.2, hform.1, hform.2, hapart htakes⟩, fun _ _ => trivial⟩
  | monitor | check | socket | checkAllowed | clear => trivial

/-- In every run from a SYN without data, in which what is queued is apart from all that is queued, the
queue of the session is right while the session is open. -/
theorem queueRight_sessionStates (args : Arguments) (id : Nat) (flow : Flow) (h : TcpHeader) (mss ws : Nat) (uid : Int)
    (calls : TunCalls) (window : Nat) (socket : Int) (events : List SessionEvent) (hsocket : 0 ≤ socket)
    (hseq : h.seq < 4294967296) (hform : ∀ e ∈ events, e.WellFormed)
    (hapart : EveryStep (stepOk (SessionTrace.step args)) (fun r e => OnOk (fun tr => tr.QueuesApart e) r)
      (.ok ⟨some (openedSession id flow h mss ws uid [] calls window socket), []⟩) events) :
    ∀ r ∈ sessionStates args (openedSession id flow h mss ws uid [] calls window socket) events,
      OnOk SessionTrace.QueueRight r := by
  have hopened : TcpSession.InOrder { newTcpSession flow h mss ws uid [] calls with recvWindow := window } :=
    .empty hseq rfl
  have hguard : EveryStep (stepOk (SessionTrace.step args)) (fun r e => OnOk (fun tr => tr.Guarded (apartGuard id) e) r)
      (.ok ⟨some (openedSession id flow h mss ws uid [] calls window socket), []⟩) events :=
    hapart.imp_of_mem fun e he r hr tr htr => (hr tr htr).guarded (hform e he) id
  intro r hr tr htr t ht hopen
  obtain ⟨t', hinv, hsession⟩ :=
    holds_sessionStates (G := apartGuard id) (P := fun t _ => t.isClosed = true ∨ t.InOrder)
    (fun _ hp hmove => hp.elim (fun hc => .inl (isClosed_move hc hmove)) (·.move hmove))
    rfl (fits_openedSession hsocket) rfl (.inr hopened) hguard r hr tr htr
  obtain ⟨s, hs, hdata⟩ := Option.bind_eq_some_iff.1 ht
  have hsame := (hsession s hs).1
  simp only [NgSession.tcp?, hsame, Option.some.injEq] at hdata
  subst hdata
  exact (hinv.resolve_left (by simp [hopen])).right

theorem queueRight_sessionStates_get :
    (plainRun (plainSession []) getEvents).map (fun tr => (tr.session.bind NgSession.tcp?).map fun t =>
      (t.remoteSeq, t.forward.map fun q => (q.seq, q.sent))) = .ok (some (102, [(102, 1)])) ∧
    ∀ r ∈ sessionStates (.plain [] _ compiled_redirectAll) (plainSession []) getEvents,
    OnOk SessionTrace.QueueRight r := by
  refine ⟨by decide +kernel, ?_⟩
  exact queueRight_sessionStates _ 0 segmentFlow
    (plainHeader 100 0 false true false) 1460 0 10002 .working 65535 3 getEvents
    (by decide) (by decide) (by decide) (by decide +kernel)

/-- The head of the queue of an open session is not before the number expected next. -/
def SessionTrace.HeadRight (tr : SessionTrace) : Prop :=
  ∀ t ∈ tr.session.bind NgSession.tcp?, t.isClosed = false → t.state ≠ .listen →
    ∀ q ∈ t.forward.head?, 0 ≤ compareU32 q.seq t.remoteSeq

instance (tr : SessionTrace) : Decidable tr.HeadRight :=
  inferInstanceAs (Decidable (∀ t ∈ tr.session.bind NgSession.tcp?, _))

/-- Data on the SYN is queued with the number of the SYN, and stays at the head for ever. -/
theorem not_queueRight_synData :
    ¬ ∀ (args : Arguments) (id : Nat) (flow : Flow) (h : TcpHeader) (mss ws : Nat) (uid : Int)
    (data : Bytes) (calls : TunCalls) (window : Nat) (socket : Int) (events : List SessionEvent), 0 ≤ socket →
    h.seq < 4294967296 → data.length < 65536 → (∀ e ∈ events, e.WellFormed) →
    ∀ r ∈ sessionStates args (openedSession id flow h mss ws uid data calls window socket) events,
      OnOk SessionTrace.QueueRight r := by
  intro hall
  have hright : OnOk SessionTrace.HeadRight (plainRun (plainSession [71]) handshake) := fun tr htr t ht hopen =>
    (hall (.plain [] _ compiled_redirectAll) 0 segmentFlow
      (plainHeader 100 0 false true false) 1460 0 10002 [71] .working 65535
      3 handshake (by decide) (by decide) (by decide) (by decide) _ (final_mem_states _ _) tr htr t ht hopen).head
  exact absurd hright (by decide +kernel)

-- `GET` in two segments that overlap
example : ¬ OnOk SessionTrace.HeadRight (plainRun (plainSession []) (handshake ++
    [.segment (plainHeader 101 1 false false true) [71, 69] .working,
      .segment (plainHeader 102 1 false false true) [69, 84] .working,
      .socket (.taking 2)])) := by decide +kernel

end SunProxy.Net
