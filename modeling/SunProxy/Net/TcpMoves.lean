/-
What becomes of a TCP session, in small moves: what concerns the stream of its client, the state, the
queue and the next number expected, changes in few ways, one at a time. Whatever the engine does with a
session is a chain of such moves.
-/
import SunProxy.Net.Sockets

namespace SunProxy.Net

open SunProxy.Buffer SunProxy.Result SunProxy.Run

/-! ## Moves -/

/-- Sessions that differ only in what plays no part in the stream of the client. -/
structure TcpSession.Alike (t t' : TcpSession) : Prop where
  flow : t'.flow = t.flow
  state : t'.state = t.state
  remoteSeq : t'.remoteSeq = t.remoteSeq
  remoteStart : t'.remoteStart = t.remoteStart
  forward : t'.forward = t.forward

/-- The states in which data is queued. -/
def TcpState.Receives (state : TcpState) : Prop :=
  match state with
  | .listen | .synRecv | .established => True
  | _ => False

instance : DecidablePred TcpState.Receives
  | .listen | .synRecv | .established => isTrue trivial
  | .closeWait | .finWait1 | .lastAck | .closing | .close => isFalse id

/-- The states a session may go to at any time. -/
inductive TcpState.Goes : TcpState → TcpState → Prop
  | established : Goes .synRecv .established
  | closing (state : TcpState) : Goes state .closing
  | close : Goes .closing .close

theorem TcpState.Goes.cases {state state' : TcpState} (h : state.Goes state') :
    state = .synRecv ∧ state' = .established ∨ state' = .closing ∨ state = .closing ∧ state' = .close := by
  cases h with
  | established => exact .inl ⟨rfl, rfl⟩
  | closing => exact .inr (.inl rfl)
  | close => exact .inr (.inr ⟨rfl, rfl⟩)

/-- What is done that is neither data for the socket nor a packet for the client. -/
def Output.IsOther : Output → Prop
  | .send .. => False
  | .tunWrite _ => False
  | _ => True

/-- The address of the session, and what is asked of the segments that are queued, and of those whose
FIN is taken. -/
structure Guard where
  id : Nat
  queue : TcpSession → TcpHeader → Bytes → Prop
  fin : TcpSession → TcpHeader → Bytes → Prop

inductive Move (G : Guard) : TcpSession → List Output → TcpSession → Prop
  | alike {t t' : TcpSession} (h : t.Alike t') : Move G t [] t'
  | other {t : TcpSession} {o : Output} (h : o.IsOther) : Move G t [o] t
  | write (t : TcpSession) (data : Bytes) (flags : TcpFlags) : Move G t [.tunWrite (tcpPacket t data flags)] t
  /-- The acknowledgment of one number less than expected, which is put back. -/
  | keepAlive {t : TcpSession} (ms : Int) (state : t.state = .established ∨ t.state = .closeWait) : Move G t
      [.tunWrite (tcpPacket { t with lastKeepAlive := ms, remoteSeq := sub32 t.remoteSeq 1 } []
        ⟨false, true, false, false⟩)]
      { t with remoteSeq := u32 t.remoteSeq }
  | goes {t : TcpSession} {state : TcpState} (h : t.state.Goes state) : Move G t [] (t.withState state)
  | syn {t : TcpSession} {state : TcpState} (listen : t.state = .listen) (after : state = .synRecv ∨ state = .closing) :
      Move G t [] { t with remoteSeq := u32 (t.remoteSeq + 1), state := state }
  | queue {t : TcpSession} {h : TcpHeader} {data : Bytes} (receives : t.state.Receives) (guard : G.queue t h data) :
      Move G t [] (queueTcp t h data)
  | sendPart {t : TcpSession} {seg : Segment} {rest : List Segment} {n : Nat} (listen : t.state ≠ .listen)
      (queue : t.forward = seg :: rest) (next : seg.seq = t.remoteSeq) (le : n ≤ seg.len - seg.sent) :
      Move G t [.send G.id ((seg.data.drop seg.sent).take n)]
        { t with forward := { seg with sent := (seg.sent + n) % 65536 } :: rest }
  | sendAll {t : TcpSession} {seg : Segment} {rest : List Segment} {n : Nat} (listen : t.state ≠ .listen)
      (queue : t.forward = seg :: rest) (next : seg.seq = t.remoteSeq) (le : n ≤ seg.len - seg.sent)
      (all : seg.len = (seg.sent + n) % 65536) :
      Move G t [.send G.id ((seg.data.drop seg.sent).take n)]
        { t with forward := rest, remoteSeq := u32 (seg.seq + (seg.sent + n) % 65536) }
  /-- A FIN after which no data is left to forward. -/
  | fin {t : TcpSession} {h : TcpHeader} {data : Bytes} {state : TcpState} (established : t.state = .established)
      (empty : t.forward = []) (guard : G.fin t h data) (after : state = .closeWait ∨ state = .closing) :
      Move G t [] { t with remoteSeq := u32 (t.remoteSeq + 1), state := state }
  | lastFin {t : TcpSession} {h : TcpHeader} {data : Bytes} {state : TcpState} (finWait : t.state = .finWait1)
      (guard : G.fin t h data) (after : state = .close ∨ state = .closing) :
      Move G t [] { t with remoteSeq := u32 (t.remoteSeq + 1), state := state }
  /-- A FIN while data is left to forward. -/
  | halfClose {t : TcpSession} {h : TcpHeader} {data : Bytes} (established : t.state = .established)
      (queued : t.forward ≠ []) (guard : G.fin t h data) : Move G t [] (t.withState .closeWait)
  /-- The last data after such a FIN is sent, which confirms the FIN. -/
  | sendLast {t : TcpSession} {seg : Segment} {n : Nat} (closeWait : t.state = .closeWait) (queue : t.forward = [seg])
      (next : seg.seq = t.remoteSeq) (le : n ≤ seg.len - seg.sent) (all : seg.len = (seg.sent + n) % 65536) :
      Move G t [.send G.id ((seg.data.drop seg.sent).take n)]
        { t with forward := [], remoteSeq := u32 (u32 (seg.seq + (seg.sent + n) % 65536) + 1) }
  | finish {t : TcpSession} {state : TcpState} (empty : t.forward = [])
      (after : t.state = .established ∧ state = .finWait1 ∨ t.state = .closeWait ∧ state = .lastAck) :
      Move G t [] (t.withState state)

/-- One move after another. -/
abbrev Moves (G : Guard) : TcpSession → List Output → TcpSession → Prop := Chain (Move G)

variable {G : Guard} {t t' : TcpSession}

theorem TcpSession.Alike.moves (h : t.Alike t') : Moves G t [] t' := .single (.alike h)

theorem moves_closing (t : TcpSession) : Moves G t [] (t.withState .closing) := .single (.goes (.closing _))

/-- A closed session stays closed. -/
theorem isClosed_move {os : List Output} (h : t.isClosed = true) (hmove : Move G t os t') : t'.isClosed = true := by
  have hs : t.state = .closing ∨ t.state = .close := by simpa [TcpSession.isClosed] using h
  cases hmove with
  | alike ha => rwa [TcpSession.isClosed, ha.state]
  | other _ | write _ _ | keepAlive _ _ | sendPart _ _ _ _ | sendAll _ _ _ _ _ | sendLast _ _ _ _ _ => exact h
  | goes hgoes =>
    rcases hgoes.cases with ⟨heq, -⟩ | rfl | ⟨-, rfl⟩
    · simp [heq] at hs
    · rfl
    · rfl
  | syn heq _ => simp [heq] at hs
  | queue receives _ => rcases hs with hs | hs <;> rw [hs] at receives <;> cases receives
  | fin heq _ _ _ => simp [heq] at hs
  | lastFin heq _ _ => simp [heq] at hs
  | halfClose heq _ _ => simp [heq] at hs
  | finish _ after => rcases after with ⟨heq, -⟩ | ⟨heq, -⟩ <;> simp [heq] at hs

theorem flow_move {os : List Output} (hmove : Move G t os t') : t'.flow = t.flow := by
  cases hmove with
  | alike ha => exact ha.flow
  | queue _ _ =>
    unfold queueTcp
    split <;> rfl
  | other | write | keepAlive | goes | syn | sendPart | sendAll | fin | lastFin | halfClose | sendLast | finish => rfl

/-- What is done besides changes nothing. -/
theorem moves_other {os : List Output} (h : ∀ o ∈ os, o.IsOther) : Moves G t os t := by
  induction os with
  | nil => exact .refl t
  | cons o os ih =>
    have ih := ih fun o' ho' => h o' (List.mem_cons_of_mem _ ho')
    exact .head (.other (h o List.mem_cons_self)) ih

/-! ## Packets for the client -/

theorem moves_write (t : TcpSession) (data : Bytes) (flags : TcpFlags) (h : t.Alike t') :
    Moves G t [.tunWrite (tcpPacket t data flags)] t' :=
  .head (.write t data flags) h.moves

theorem moves_write_closing (t : TcpSession) (data : Bytes) (flags : TcpFlags) (h : (t.withState .closing).Alike t') :
    Moves G t [.tunWrite (tcpPacket t data flags)] t' :=
  .head (.write t data flags) (.quiet (.goes (.closing _)) h.moves)

/-- A reset answers the SYN of a session that listens. -/
theorem moves_writeRst (t : TcpSession) : Moves G t [(writeRst t).2] (writeRst t).1 := by
  by_cases hlisten : t.state = .listen
  · have hpacket : (writeRst t).2 =
      .tunWrite (tcpPacket { t with remoteSeq := u32 (t.remoteSeq + 1), state := .closing }
        [] ⟨false, true, false, true⟩) := by
      simp only [writeRst, hlisten, decide_true, if_true]
      rfl
    have hafter : (writeRst t).1 = { t with remoteSeq := u32 (t.remoteSeq + 1), state := .closing } := by
      simp only [writeRst, hlisten, decide_true, if_true, reduceCtorEq, if_false]
      rfl
    rw [hpacket, hafter]
    exact .quiet (.syn hlisten (.inr rfl)) (.single (.write _ _ _))
  · have hpacket : (writeRst t).2 = .tunWrite (tcpPacket t [] ⟨false, false, false, true⟩) := by
      simp [writeRst, hlisten]
    have hafter : (writeRst t).1 = if t.state = .close then t else t.withState .closing := by
      simp [writeRst, hlisten]
    rw [hpacket, hafter]
    split
    · exact .single (.write _ _ _)
    · exact .head (.write _ _ _) (moves_closing t)

/-! ## Segments -/

theorem moves_handleFin {h : TcpHeader} {data : Bytes}
    (hfin : t.state = .established ∨ t.state = .finWait1 → G.fin t h data) (calls : TunCalls) :
    Moves G t (handleFin t calls).2 (handleFin t calls).1 := by
  unfold handleFin
  split
  · rename_i hs
    have hguard := hfin (.inl hs)
    split
    · rename_i hempty
      cases hw : calls.tunWrite with
      | true =>
        exact .quiet (.fin hs hempty hguard (.inl rfl)) (.single (.write _ _ _))
      | false => exact .quiet (.fin hs hempty hguard (.inr rfl)) (.single (.write _ _ _))
    · rename_i hqueued
      exact .single (.halfClose hs hqueued hguard)
  · rename_i hs
    have hguard := hfin (.inr hs)
    cases hw : calls.tunWrite with
    | true => exact .quiet (.lastFin hs hguard (.inl rfl)) (.single (.write _ _ _))
    | false => exact .quiet (.lastFin hs hguard (.inr rfl)) (.single (.write _ _ _))
  · exact .refl t

theorem moves_handleAck (t : TcpSession) (h : TcpHeader) : Moves G t [] (handleAck t h) := by
  have halike : t.Alike { t with acked := h.ackSeq } := ⟨rfl, rfl, rfl, rfl, rfl⟩
  unfold handleAck
  dsimp only
  split
  · rename_i hs
    refine .quiet (.alike halike) (.single (.goes ?_))
    rw [halike.state, hs]
    exact .established
  · exact .quiet (.alike halike) (moves_closing _)
  · exact halike.moves

theorem moves_handleOtherAck (t : TcpSession) (h : TcpHeader) :
    Moves G t (handleOtherAck t h).2 (handleOtherAck t h).1 := by
  unfold handleOtherAck
  split_ifs
  · exact .refl t
  · exact .refl t
  · exact TcpSession.Alike.moves ⟨rfl, rfl, rfl, rfl, rfl⟩
  · exact moves_writeRst t

/-- A segment whose FIN `handle_tcp` looks at. -/
def TcpSession.TakesFin (t : TcpSession) (h : TcpHeader) : Prop :=
  (t.state = .established ∨ t.state = .finWait1) ∧ h.fin = true ∧ h.syn = false ∧ h.rst = false ∧
    (h.ack = false ∨ h.ackSeq = t.localSeq)

instance (t : TcpSession) (h : TcpHeader) : Decidable (t.TakesFin h) := inferInstanceAs (Decidable (_ ∧ _))

theorem moves_handleFlags {h : TcpHeader} {data : Bytes} (hfin : t.TakesFin h → G.fin t h data) (calls : TunCalls) :
    Moves G t (handleFlags t h calls).2 (handleFlags t h calls).1 := by
  unfold handleFlags
  split_ifs with hrst hack hsyn hf hb
  · exact moves_closing t
  · exact .refl t
  · exact moves_handleFin (fun hs => hfin ⟨hs, hf, by simpa using hsyn, by simpa using hrst, hack⟩) calls
  · exact moves_handleAck t h
  · exact .refl t
  · exact moves_handleOtherAck t h

/-- The session after the data of a segment has been queued. -/
def TcpSession.queued (t : TcpSession) (h : TcpHeader) (data : Bytes) : TcpSession :=
  if data = [] then t else queueTcp t h data

/-- `handle_tcp` takes the data of a segment. -/
def TcpSession.TakesData (t : TcpSession) (data : Bytes) : Prop := t.state.Receives ∧ data ≠ []

instance (t : TcpSession) (data : Bytes) : Decidable (t.TakesData data) := inferInstanceAs (Decidable (_ ∧ _))

theorem alike_heard (t : TcpSession) (h : TcpHeader) (now : Int) : t.Alike (t.heard h now) := ⟨rfl, rfl, rfl, rfl, rfl⟩

theorem moves_segmentResult {socket : Int} {h : TcpHeader} {data : Bytes} {calls : TunCalls}
    (hfits : t.state.Fits socket) (hqueue : t.TakesData data → G.queue (t.heard h calls.now) h data)
    (hfin : (data ≠ [] → t.state.Receives) → ((t.heard h calls.now).queued h data).TakesFin h →
      G.fin ((t.heard h calls.now).queued h data) h data) :
    Moves G t (segmentResult t socket h data calls).2 (segmentResult t socket h data calls).1 := by
  have hheard := alike_heard t h calls.now
  unfold segmentResult
  split
  · exact moves_writeRst t
  · rename_i hopen
    rw [handleTcpSession_eq]
    split
    · exact .quiet (.alike hheard) (moves_writeRst _)
    · rename_i haccept
      refine .quiet (.alike hheard) ?_
      unfold TcpSession.queued at hfin
      by_cases hdata : data = []
      · rw [if_pos hdata] at hfin ⊢
        exact moves_handleFlags (hfin fun h => absurd hdata h) calls
      · rw [if_neg hdata] at hfin ⊢
        -- with a socket, and neither closed nor half closed, the session still receives
        have hreceives : t.state.Receives := by
          have hsocket : 0 ≤ socket := not_lt.1 fun hlost => haccept ⟨hdata, .inl hlost⟩
          have hwait : t.state ≠ .closeWait := fun hwait => haccept ⟨hdata, .inr hwait⟩
          cases hstate : t.state <;> simp only [hstate, TcpState.Fits] at hfits <;>
            simp_all [TcpState.Receives, TcpSession.isClosed]
        exact .quiet (.queue hreceives (hqueue ⟨hreceives, hdata⟩)) (moves_handleFlags (hfin fun _ => hreceives) calls)

/-! ## Socket events -/

theorem moves_connectTcp (hlisten : t.state = .listen) (calls : SocketCalls) :
    Moves G t (connectTcp t calls).2 (connectTcp t calls).1 := by
  unfold connectTcp
  split
  · have halike : t.Alike { t with socks5 := .none } := ⟨rfl, rfl, rfl, rfl, rfl⟩
    exact .quiet (.alike halike) (moves_writeRst _)
  · split
    · cases hw : calls.tunWrite 0 with
      | true =>
        exact .quiet (.syn hlisten (.inl rfl)) (moves_write _ [] ⟨true, true, false, false⟩ ⟨rfl, rfl, rfl, rfl, rfl⟩)
      | false =>
        exact .quiet (.syn hlisten (.inr rfl)) (moves_write _ [] ⟨true, true, false, false⟩ ⟨rfl, rfl, rfl, rfl, rfl⟩)
    · exact .refl t

/-- The loop goes on with the rest of the queue it is given. -/
theorem moves_forwardLoop (hlisten : t.state ≠ .listen) (calls : SocketCalls) (segments : List Segment)
    (k buffer : Nat) :
    Moves G { t with forward := segments } (forwardLoop G.id calls segments k buffer t).2.2
      (forwardLoop G.id calls segments k buffer t).2.1 := by
  induction segments generalizing k buffer t with
  | nil => exact .refl _
  | cons seg rest ih =>
    unfold forwardLoop
    dsimp only
    split
    · rename_i hcan
      have hnext : seg.seq = t.remoteSeq := by
        simp only [canForward, Bool.and_eq_true, decide_eq_true_eq] at hcan
        exact hcan.1
      split
      · exact .refl _
      · exact moves_writeRst _
      · rename_i n _
        have hle : min n (seg.len - seg.sent) ≤ seg.len - seg.sent := Nat.min_le_right _ _
        split
        · rename_i hall
          refine .head (.sendAll (t := { t with forward := seg :: rest }) hlisten rfl hnext hle hall)
            (.quiet (.alike ?_) (ih ?_ _ _))
          · exact hlisten
          · exact ⟨rfl, rfl, rfl, rfl, rfl⟩
        · refine .head (.sendPart (t := { t with forward := seg :: rest }) hlisten rfl hnext hle)
            (TcpSession.Alike.moves ?_)
          exact ⟨rfl, rfl, rfl, rfl, rfl⟩
    · exact .refl _

theorem forward_writeRst (t : TcpSession) : (writeRst t).1.forward = t.forward := by
  unfold writeRst
  dsimp only
  split <;> split <;> rfl

/-- A loop that sends nothing leaves the queue. -/
theorem forwardLoop_idle {id : Nat} {calls : SocketCalls} {segments : List Segment} {k buffer : Nat}
    (h : (forwardLoop id calls segments k buffer t).1 = false) :
    (forwardLoop id calls segments k buffer t).2.1.forward = segments := by
  cases segments with
  | nil => rfl
  | cons seg rest =>
    unfold forwardLoop at h ⊢
    by_cases hcan : canForward { t with forward := seg :: rest } buffer (seg :: rest) = true
    · simp only [hcan, if_true] at h ⊢
      cases hsend : calls.send k with
      | error retry =>
        cases retry with
        | true => rfl
        | false => exact forward_writeRst _
      | sent n =>
        simp only [hsend] at h
        split at h <;> cases h
    · simp only [hcan]
      rfl

/-- A loop that empties the queue after a FIN ends with the last data. -/
theorem moves_forwardLoop_last (hclose : t.state = .closeWait) (calls : SocketCalls) (segments : List Segment)
    (k buffer : Nat) (hsent : (forwardLoop G.id calls segments k buffer t).1 = true)
    (hempty : (forwardLoop G.id calls segments k buffer t).2.1.forward = []) :
    Moves G { t with forward := segments } (forwardLoop G.id calls segments k buffer t).2.2
      { (forwardLoop G.id calls segments k buffer t).2.1 with
        remoteSeq := u32 ((forwardLoop G.id calls segments k buffer t).2.1.remoteSeq + 1) } := by
  induction segments generalizing k buffer t with
  | nil => cases hsent
  | cons seg rest ih =>
    unfold forwardLoop at hsent hempty ⊢
    by_cases hcan : canForward { t with forward := seg :: rest } buffer (seg :: rest) = true
    · have hnext : seg.seq = t.remoteSeq := by
        simp only [canForward, Bool.and_eq_true, decide_eq_true_eq] at hcan
        exact hcan.1
      simp only [hcan, if_true] at hsent hempty ⊢
      cases hsend : calls.send k with
      | error retry => cases retry <;> simp [hsend] at hsent
      | sent n =>
        simp only [hsend] at hsent hempty ⊢
        have hle : min n (seg.len - seg.sent) ≤ seg.len - seg.sent := Nat.min_le_right _ _
        by_cases hall : seg.len = (seg.sent + min n (seg.len - seg.sent)) % 65536
        · rw [if_pos hall] at hempty ⊢
          -- the last segment is sent as the last data; any other one is an ordinary send
          cases rest with
          | nil =>
            refine .head (.sendLast (t := { t with forward := [seg] }) hclose rfl hnext hle hall)
              (TcpSession.Alike.moves ?_)
            exact ⟨rfl, rfl, rfl, rfl, rfl⟩
          | cons next rest =>
            have hlisten : t.state ≠ .listen := by rw [hclose]; decide
            refine .head (.sendAll (t := { t with forward := seg :: next :: rest }) hlisten rfl hnext hle hall)
              (.quiet (.alike ?_) (ih ?_ _ _ ?_ hempty))
            · exact hclose
            · -- what is left is only emptied by sending it
              refine Bool.eq_true_of_not_eq_false fun hidle => ?_
              have hleft := forwardLoop_idle hidle
              rw [hempty] at hleft
              cases hleft
            · exact ⟨rfl, rfl, rfl, rfl, rfl⟩
        · rw [if_neg hall] at hempty
          cases hempty
    · simp [hcan] at hsent

/-- The loop may close the session, and goes to no other state. -/
theorem state_forwardLoop (id : Nat) (calls : SocketCalls) (segments : List Segment) (k buffer : Nat) (t : TcpSession) :
    (forwardLoop id calls segments k buffer t).2.1.state = t.state ∨
      (forwardLoop id calls segments k buffer t).2.1.isClosed = true := by
  refine forwardLoop_induction (Q := fun t t' _ => t'.state = t.state ∨ t'.isClosed = true) (fun t queue => ?_)
    (fun t queue => ?_) (fun t queue n remoteSeq bytes t' os ih => ?_) (fun t queue n bytes => ?_) segments k buffer t
  · exact .inl rfl
  · exact .inr (isClosed_writeRst _)
  · exact ih
  · exact .inl rfl

theorem moves_forwardTcp (hlisten : t.state ≠ .listen) (socket : Int) (calls : SocketCalls) :
    Moves G t (forwardTcp G.id socket t calls).2.2 (forwardTcp G.id socket t calls).2.1 := by
  unfold forwardTcp
  split
  · exact moves_forwardLoop hlisten calls t.forward 0 _
  · exact .refl t

/-- What was forwarded last after a FIN confirms the FIN. -/
theorem moves_forwardTcp_last {t₁ : TcpSession} {socket : Int} {calls : SocketCalls} {sent : List Output}
    (h : forwardTcp G.id socket t calls = (true, t₁, sent)) (hclose : t₁.state = .closeWait)
    (hempty : t₁.forward = []) :
    Moves G t sent { t₁ with remoteSeq := u32 (t₁.remoteSeq + 1) } := by
  unfold forwardTcp at h
  split at h
  · have hstate := state_forwardLoop G.id calls t.forward 0 (getReceiveBuffer socket calls.sendbuf calls.unsent) t
    rw [h] at hstate
    have hclose : t.state = .closeWait := by
      rcases hstate with heq | hclosed
      · exact heq ▸ hclose
      · simp [TcpSession.isClosed, hclose] at hclosed
    have hlast := moves_forwardLoop_last (G := G) hclose calls t.forward 0
      (getReceiveBuffer socket calls.sendbuf calls.unsent)
    rw [h] at hlast
    exact hlast rfl hempty
  · cases h

theorem moves_writeAck (t : TcpSession) (calls : SocketCalls) : Moves G t [(writeAck t (calls.tunWrite 0)).2]
    (if calls.tunWrite 0 then { (writeAck t (calls.tunWrite 0)).1 with time := calls.now }
      else (writeAck t (calls.tunWrite 0)).1) := by
  cases hw : calls.tunWrite 0 with
  | true => exact moves_write t [] ⟨false, true, false, false⟩ ⟨rfl, rfl, rfl, rfl, rfl⟩
  | false => exact moves_write_closing t [] ⟨false, true, false, false⟩ ⟨rfl, rfl, rfl, rfl, rfl⟩

/-- Data is forwarded and acknowledged. -/
theorem moves_ackForwarded {t₁ : TcpSession} {socket : Int} {calls : SocketCalls} {fwd : Bool} {sent : List Output}
    (hlisten : t.state ≠ .listen) (h : forwardTcp G.id socket t calls = (fwd, t₁, sent)) :
    Moves G t (sent ++ (ackForwarded t₁ socket fwd calls).2) (ackForwarded t₁ socket fwd calls).1 := by
  have hsent : Moves G t sent t₁ := by
    have hmoves := moves_forwardTcp (G := G) hlisten socket calls
    rwa [h] at hmoves
  have hwindow : t₁.Alike { t₁ with recvWindow := getReceiveWindow t₁ socket calls.sendbuf calls.unsent } :=
    ⟨rfl, rfl, rfl, rfl, rfl⟩
  unfold ackForwarded
  dsimp only
  split
  · by_cases hconfirm : (fwd && (t₁.forward.isEmpty && decide (t₁.state = .closeWait))) = true
    · rw [if_pos hconfirm]
      simp only [Bool.and_eq_true, List.isEmpty_iff, decide_eq_true_eq] at hconfirm
      obtain ⟨rfl, hempty, hclose⟩ := hconfirm
      refine (moves_forwardTcp_last h hclose hempty).trans (.quiet (.alike ?_) (moves_writeAck _ calls))
      exact ⟨rfl, rfl, rfl, rfl, rfl⟩
    · rw [if_neg hconfirm]
      exact hsent.trans (.quiet (.alike hwindow) (moves_writeAck _ calls))
  · rw [List.append_nil]
    exact hsent.trans_quiet (.alike hwindow)

theorem moves_finishTcp (hs : t.state = .established ∨ t.state = .closeWait) (calls : SocketCalls) :
    Moves G t (finishTcp t calls).2 (finishTcp t calls).1 := by
  unfold finishTcp
  split
  · rename_i hempty
    cases hw : calls.tunWrite 1 with
    | true =>
      have hsent : Moves G t [.tunWrite (tcpPacket t [] ⟨false, true, true, false⟩)]
          { t with localSeq := u32 (t.localSeq + 1) } := moves_write _ _ _ ⟨rfl, rfl, rfl, rfl, rfl⟩
      rcases hs with hs | hs
      · have hgo := hsent.trans (.single (.finish hempty (.inl ⟨hs, rfl⟩)))
        simpa [writeFinAck, writeOrClose, hs] using hgo
      · have hgo := hsent.trans (.single (.finish hempty (.inr ⟨hs, rfl⟩)))
        simpa [writeFinAck, writeOrClose, hs] using hgo
    | false =>
      have hgo : Moves G t [.tunWrite (tcpPacket t [] ⟨false, true, true, false⟩)] (t.withState .closing) :=
        moves_write_closing _ _ _ ⟨rfl, rfl, rfl, rfl, rfl⟩
      simpa [writeFinAck, writeOrClose, TcpSession.withState] using hgo
  · exact moves_writeRst t

theorem moves_receiveTcp {args : Arguments} {bytes : Bytes} {calls : SocketCalls} {r : TcpSession × List Output}
    (hr : receiveTcp args t bytes calls = .ok r) : Moves G t r.2 r.1 := by
  obtain ⟨reply, -, hr⟩ := bind_eq_ok hr
  cases hr
  have halike : t.Alike { t with received := t.received + bytes.length } := ⟨rfl, rfl, rfl, rfl, rfl⟩
  refine .quiet (.alike halike) (.trans (moves_other ?_) ?_)
  · intro o ho
    obtain ⟨rr, -, rfl⟩ := List.mem_map.1 ho
    trivial
  · cases hw : calls.tunWrite 1 with
    | true => exact moves_write _ _ ⟨false, true, false, false⟩ ⟨rfl, rfl, rfl, rfl, rfl⟩
    | false => exact moves_write_closing _ _ ⟨false, true, false, false⟩ ⟨rfl, rfl, rfl, rfl, rfl⟩

theorem moves_readTcp {args : Arguments} {socket : Int} {calls : SocketCalls} {r : Int × TcpSession × List Output}
    (hr : readTcp args t socket calls = .ok r) : Moves G t r.2.2 r.2.1 := by
  have halike : t.Alike { t with time := calls.now } := ⟨rfl, rfl, rfl, rfl, rfl⟩
  unfold readTcp at hr
  dsimp only at hr
  split at hr
  · rename_i hc
    split at hr
    · cases hr
      exact halike.moves
    · cases hr
      exact .quiet (.alike halike) (moves_writeRst _)
    · split at hr
      · cases hr
        refine .quiet (.alike halike) (.trans (moves_finishTcp (t := { t with time := calls.now }) hc.1 calls) ?_)
        exact .single (.other trivial)
      · obtain ⟨r', hr', hr⟩ := bind_eq_ok hr
        cases hr
        exact .quiet (.alike halike) (moves_receiveTcp hr')
  · cases hr
    exact .refl t

theorem moves_checkTcpSocket {args : Arguments} {s : NgSession} {calls : SocketCalls} {r : NgSession × List Output}
    (hid : G.id = s.id) (hr : checkTcpSocket args s t calls = .ok r) : ∃ t', r.1.data = .tcp t' ∧ Moves G t r.2 t' := by
  cases checkTcpSocket_cases hr with
  | failed _ =>
    have halike : t.Alike { t with time := calls.now } := ⟨rfl, rfl, rfl, rfl, rfl⟩
    exact ⟨_, rfl, .quiet (.alike halike) (moves_writeRst _)⟩
  | connecting _ listen => exact ⟨_, rfl, moves_connectTcp listen calls⟩
  | @transfer fwd t₁ sent r' _ listen forwarded reads =>
    rw [← hid] at forwarded
    exact ⟨_, rfl, (moves_ackForwarded listen forwarded).trans (moves_readTcp reads)⟩

/-! ## Checks -/

theorem moves_expireTcp (t : TcpSession) (sessions maxsessions now : Int) :
    Moves G t (expireTcp t sessions maxsessions now).2 (expireTcp t sessions maxsessions now).1 := by
  unfold expireTcp
  split_ifs
  · exact moves_closing t
  · exact moves_writeRst t
  · exact .refl t

theorem moves_closeTcp (t : TcpSession) (socket now : Int) :
    Moves G t (closeTcp socket t now).2.2 (closeTcp socket t now).2.1 := by
  unfold closeTcp
  split
  · rename_i hs
    have hclose : t.state.Goes .close := hs ▸ .close
    have halike : (t.withState .close).Alike { t with time := now, state := .close } := ⟨rfl, rfl, rfl, rfl, rfl⟩
    refine .quiet (.goes hclose) (.quiet (.alike halike) ?_)
    apply moves_other
    intro o ho
    split at ho
    · rw [List.mem_singleton.1 ho]
      trivial
    · cases ho
  · exact .refl t

theorem moves_accountTcp (t : TcpSession) : Moves G t (accountTcp t).2 (accountTcp t).1 := by
  unfold accountTcp
  split
  · have husage : (Output.usage t.flow IPPROTO_TCP t.uid t.sent t.received).IsOther := trivial
    have halike : t.Alike { t with sent := 0, received := 0 } := ⟨rfl, rfl, rfl, rfl, rfl⟩
    exact .head (.other husage) halike.moves
  · exact .refl t

theorem moves_checkTcpSession (s : NgSession) (t : TcpSession) (sessions maxsessions now : Int) :
    ∃ t', (∀ s', (checkTcpSession s t sessions maxsessions now).1 = some s' → s'.data = .tcp t') ∧
      Moves G t (checkTcpSession s t sessions maxsessions now).2 t' := by
  have hexpire := moves_expireTcp (G := G) t sessions maxsessions now
  have hclose := hexpire.trans (moves_closeTcp _ s.socket now)
  refine ⟨(accountTcp (closeTcp s.socket (expireTcp t sessions maxsessions now).1 now).2.1).1, ?_, ?_⟩
  · intro s' hs'
    unfold checkTcpSession at hs'
    dsimp only at hs'
    split at hs' <;> cases hs'
    rfl
  · have hmoves := hclose.trans (moves_accountTcp _)
    unfold checkTcpSession
    dsimp only
    split
    · exact hmoves
    · exact hmoves

theorem moves_keepAlive (hs : t.state = .established ∨ t.state = .closeWait) (calls : MonitorCalls) :
    Moves G t (keepAlive t calls).2 (keepAlive t calls).1 := by
  unfold keepAlive
  split
  · have hseq : u32 (sub32 t.remoteSeq 1 + 1) = u32 t.remoteSeq := by
      simp only [u32, sub32]
      omega
    have hsent : Moves G t [.tunWrite
      (tcpPacket { t with lastKeepAlive := calls.ms, remoteSeq := sub32 t.remoteSeq 1 } []
        ⟨false, true, false, false⟩)] { t with remoteSeq := u32 t.remoteSeq } := .single (.keepAlive calls.ms hs)
    cases hw : calls.tunWrite with
    | true =>
      simp only [writeAck, writeOrClose, if_true, hseq]
      exact hsent.trans (TcpSession.Alike.moves ⟨rfl, rfl, rfl, rfl, rfl⟩)
    | false =>
      simp only [writeAck, writeOrClose, Bool.false_eq_true, if_false, TcpSession.withState, hseq]
      exact hsent.trans (.quiet (.goes (.closing _)) (TcpSession.Alike.moves ⟨rfl, rfl, rfl, rfl, rfl⟩))
  · exact .refl t

theorem moves_monitorEvents (t : TcpSession) (socket : Int) (calls : MonitorCalls) :
    Moves G t (monitorEvents t socket calls).2.2 (monitorEvents t socket calls).2.1 := by
  rcases monitorEvents_cases t socket calls with h | ⟨hs, h⟩ <;> rw [h]
  · exact .refl t
  · exact moves_keepAlive hs calls

theorem moves_monitorTcpSession (s : NgSession) (t : TcpSession) (calls : MonitorCalls) :
    ∃ t', (monitorTcpSession s t calls).1.data = .tcp t' ∧ Moves G t (monitorTcpSession s t calls).2 t' := by
  have hm := moves_monitorEvents (G := G) t s.socket calls
  unfold monitorTcpSession
  dsimp only
  split
  · refine ⟨_, rfl, ?_⟩
    rw [← List.append_nil (monitorEvents t s.socket calls).2.2]
    exact hm.trans (moves_closing _)
  · exact ⟨_, rfl, hm⟩

end SunProxy.Net
