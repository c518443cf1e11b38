/-
The bytes in flight over a run of a TCP session: while the session sends, what its client has
acknowledged is at most half of all numbers back. What is read from the socket then never exceeds the
window the client announced last, though the send window is not always what the client can take.
-/
import SunProxy.Net.SendWindow
import SunProxy.Net.SessionRun

namespace SunProxy.Net

open SunProxy.Buffer SunProxy.Result SunProxy.Run SunProxy.Serial

variable {t t' : TcpSession} {args : Arguments}

/-! ## Sessions that send -/

/-- The states in which data of the socket goes to the client. -/
def TcpSession.Sends (t : TcpSession) : Prop := t.state = .established ∨ t.state = .closeWait

theorem not_sends_of_isClosed (h : t.isClosed = true) : ¬ t.Sends := by
  simp only [TcpSession.isClosed, Bool.or_eq_true, decide_eq_true_eq] at h
  rintro (hs | hs) <;> rw [hs] at h <;> simp at h

/-- Sessions with the same numbers and the same window, of which the later one sends only if the earlier
one did. -/
structure TcpSession.SameWindow (t t' : TcpSession) : Prop where
  flow : t'.flow = t.flow
  acked : t'.acked = t.acked
  localSeq : t'.localSeq = t.localSeq
  sendScale : t'.sendScale = t.sendScale
  sendWindow : t'.sendWindow = t.sendWindow
  unconfirmed : t'.unconfirmed = t.unconfirmed
  sends : t'.Sends → t.Sends

namespace TcpSession.SameWindow

theorem refl (t : TcpSession) : t.SameWindow t := ⟨rfl, rfl, rfl, rfl, rfl, rfl, id⟩

theorem trans {t₁ t₂ t₃ : TcpSession} (h : t₁.SameWindow t₂) (h' : t₂.SameWindow t₃) : t₁.SameWindow t₃ :=
  ⟨h'.flow.trans h.flow, h'.acked.trans h.acked, h'.localSeq.trans h.localSeq, h'.sendScale.trans h.sendScale,
    h'.sendWindow.trans h.sendWindow, h'.unconfirmed.trans h.unconfirmed, h.sends ∘ h'.sends⟩

theorem withState {state : TcpState} (h : state ≠ .established) (h' : state = .closeWait → t.Sends) :
    t.SameWindow (t.withState state) :=
  ⟨rfl, rfl, rfl, rfl, rfl, rfl, fun hs => hs.elim (absurd · h) h'⟩

theorem closing (t : TcpSession) : t.SameWindow (t.withState .closing) := withState nofun nofun

theorem writeOrClose (t : TcpSession) (data : Bytes) (flags : TcpFlags) (ok : Bool) :
    t.SameWindow (writeOrClose t data flags ok).1 := by
  cases ok
  · exact closing t
  · exact refl t

theorem writeRst (t : TcpSession) : t.SameWindow (writeRst t).1 := by
  have hclosed := not_sends_of_isClosed (isClosed_writeRst t)
  constructor
  case sends => exact fun hs => absurd hs hclosed
  all_goals
    unfold Net.writeRst
    dsimp only
    split <;> split <;> rfl

theorem queued (t : TcpSession) (h : TcpHeader) (data : Bytes) : t.SameWindow (t.queued h data) := by
  unfold TcpSession.queued queueTcp
  split
  · exact refl t
  · split
    · exact refl t
    · exact ⟨rfl, rfl, rfl, rfl, rfl, rfl, id⟩

theorem handleFin (t : TcpSession) (calls : TunCalls) : t.SameWindow (handleFin t calls).1 := by
  have hnext : t.SameWindow { t with remoteSeq := u32 (t.remoteSeq + 1) } := ⟨rfl, rfl, rfl, rfl, rfl, rfl, id⟩
  unfold Net.handleFin
  split
  · rename_i hs
    split
    · cases hw : calls.tunWrite with
      | true => exact hnext.trans (withState nofun fun _ => .inl hs)
      | false => exact hnext.trans (closing _)
    · exact withState nofun fun _ => .inl hs
  · cases hw : calls.tunWrite with
    | true => exact hnext.trans (withState nofun nofun)
    | false => exact hnext.trans (closing _)
  · exact refl t

theorem expireTcp (t : TcpSession) (sessions maxsessions now : Int) :
    t.SameWindow (expireTcp t sessions maxsessions now).1 := by
  unfold Net.expireTcp
  split_ifs
  · exact closing t
  · exact writeRst t
  · exact refl t

theorem checkTcpSession (s : NgSession) (t : TcpSession) (sessions maxsessions now : Int) :
    ∀ s', (checkTcpSession s t sessions maxsessions now).1 = some s' → ∃ t', s'.data = .tcp t' ∧ t.SameWindow t' := by
  have hexpire := expireTcp t sessions maxsessions now
  have hclose : ∀ u : TcpSession, u.SameWindow (closeTcp s.socket u now).2.1 := by
    intro u
    unfold closeTcp
    split
    · exact ⟨rfl, rfl, rfl, rfl, rfl, rfl, by rintro (hs | hs) <;> cases hs⟩
    · exact refl u
  have haccount : ∀ u : TcpSession, u.SameWindow (accountTcp u).1 := by
    intro u
    unfold accountTcp
    split
    · exact ⟨rfl, rfl, rfl, rfl, rfl, rfl, id⟩
    · exact refl u
  intro s' hs'
  unfold Net.checkTcpSession at hs'
  dsimp only at hs'
  split at hs'
  · cases hs'
  · cases hs'
    exact ⟨_, rfl, (hexpire.trans (hclose _)).trans (haccount _)⟩

theorem monitorTcpSession (s : NgSession) (t : TcpSession) (calls : MonitorCalls) :
    ∃ t', (monitorTcpSession s t calls).1.data = .tcp t' ∧ t.SameWindow t' := by
  have hkeep : t.SameWindow (keepAlive t calls).1 := by
    have hback : t.SameWindow { t with lastKeepAlive := calls.ms, remoteSeq := sub32 t.remoteSeq 1 } :=
      ⟨rfl, rfl, rfl, rfl, rfl, rfl, fun hs => hs.elim .inl .inr⟩
    unfold keepAlive
    split
    · have hack := hback.trans (writeOrClose _ [] ⟨false, true, false, false⟩ calls.tunWrite)
      exact hack.trans ⟨rfl, rfl, rfl, rfl, rfl, rfl, id⟩
    · exact refl t
  have hevents : t.SameWindow (monitorEvents t s.socket calls).2.1 := by
    rcases monitorEvents_cases t s.socket calls with h | ⟨-, h⟩ <;> rw [h]
    · exact refl t
    · exact hkeep
  unfold Net.monitorTcpSession
  generalize monitorEvents t s.socket calls = r at hevents ⊢
  refine ⟨_, rfl, hevents.trans ?_⟩
  split
  · exact closing _
  · exact refl _

theorem forwardLoop (id : Nat) (calls : SocketCalls) (segments : List Segment) (k buffer : Nat) (t : TcpSession) :
    t.SameWindow (forwardLoop id calls segments k buffer t).2.1 := by
  refine forwardLoop_induction (Q := fun t t' _ => t.SameWindow t') (fun t queue => ?_) (fun t queue => ?_)
    (fun t queue n remoteSeq bytes t' os ih => ?_) (fun t queue n bytes => ?_) segments k buffer t
  · exact ⟨rfl, rfl, rfl, rfl, rfl, rfl, fun h => h⟩
  · have hqueue : t.SameWindow { t with forward := queue } := ⟨rfl, rfl, rfl, rfl, rfl, rfl, fun h => h⟩
    exact hqueue.trans (writeRst _)
  · refine trans ?_ ih
    exact ⟨rfl, rfl, rfl, rfl, rfl, rfl, fun h => h⟩
  · exact ⟨rfl, rfl, rfl, rfl, rfl, rfl, fun h => h⟩

theorem forwardTcp (id : Nat) (socket : Int) (t : TcpSession) (calls : SocketCalls) :
    t.SameWindow (forwardTcp id socket t calls).2.1 := by
  unfold Net.forwardTcp
  split
  · exact forwardLoop id calls _ _ _ t
  · exact refl t

theorem ackForwarded (t : TcpSession) (socket : Int) (fwd : Bool) (calls : SocketCalls) :
    t.SameWindow (ackForwarded t socket fwd calls).1 := by
  have hack : ∀ u : TcpSession, t.SameWindow u → t.SameWindow (if calls.tunWrite 0 then
      { (writeAck u (calls.tunWrite 0)).1 with time := calls.now } else (writeAck u (calls.tunWrite 0)).1) := by
    intro u hu
    have hwrite := hu.trans (writeOrClose u [] ⟨false, true, false, false⟩ (calls.tunWrite 0))
    split
    · exact hwrite.trans ⟨rfl, rfl, rfl, rfl, rfl, rfl, id⟩
    · exact hwrite
  unfold Net.ackForwarded
  dsimp only
  split
  · apply hack
    split <;> exact ⟨rfl, rfl, rfl, rfl, rfl, rfl, id⟩
  · exact ⟨rfl, rfl, rfl, rfl, rfl, rfl, id⟩

end TcpSession.SameWindow

/-! ## The invariant -/

/-- A session with a window scale of at most 14, which bounds the window; and while it sends, its client
is at most half of all numbers back. -/
structure TcpSession.InWindow (t : TcpSession) : Prop where
  flow : t.flow.WellFormed
  counts : t.Counts
  sendScale : t.sendScale ≤ 14
  sendWindow : t.sendWindow < 1073741824
  near : t.Sends → t.inflight ≤ 2147483648

namespace TcpSession.InWindow

theorem same (h : t.InWindow) (hsame : t.SameWindow t') : t'.InWindow where
  flow := hsame.flow ▸ h.flow
  counts := ⟨hsame.acked ▸ h.counts.acked, hsame.localSeq ▸ h.counts.localSeq, hsame.sendWindow ▸ h.counts.sendWindow,
    hsame.unconfirmed ▸ h.counts.unconfirmed⟩
  sendScale := hsame.sendScale ▸ h.sendScale
  sendWindow := hsame.sendWindow ▸ h.sendWindow
  near := by
    intro hs
    rw [TcpSession.inflight, hsame.acked, hsame.localSeq]
    exact h.near (hsame.sends hs)

/-- A session that does not send may have any numbers. -/
theorem of_not_sends (h : t.InWindow) (hflow : t'.flow = t.flow) (hacked : t'.acked = t.acked)
    (hlocal : t'.localSeq < 4294967296) (hscale : t'.sendScale = t.sendScale) (hwindow : t'.sendWindow = t.sendWindow)
    (hunconfirmed : t'.unconfirmed = t.unconfirmed) (hnot : ¬ t'.Sends) : t'.InWindow where
  flow := hflow ▸ h.flow
  counts := ⟨hacked ▸ h.counts.acked, hlocal, hwindow ▸ h.counts.sendWindow, hunconfirmed ▸ h.counts.unconfirmed⟩
  sendScale := hscale ▸ h.sendScale
  sendWindow := hwindow ▸ h.sendWindow
  near := fun hs => absurd hs hnot

/-- What can be sent fits the window: what is counted as in flight is no less than what is. -/
theorem add_le (h : t.InWindow) (hs : t.Sends) (hpos : 0 < getSendWindow t) {n : Nat} (hn : n ≤ getSendWindow t) :
    t.inflight + n ≤ t.sendWindow := by
  have hnear := h.near hs
  have hunconfirmed := h.counts.unconfirmed
  have hfits : t.behind + t.surplus < 4294967296 := by
    unfold TcpSession.behind TcpSession.surplus
    split <;> omega
  rw [getSendWindow_eq h.counts, Nat.mod_eq_of_lt hfits] at hpos hn
  unfold TcpSession.behind at hpos hn
  omega

end TcpSession.InWindow

/-! ## Segments -/

/-- The fields of a header that are read have the values of their types. -/
def TcpHeader.Typed (h : TcpHeader) : Prop := h.ackSeq < 4294967296 ∧ h.window < 65536

instance (h : TcpHeader) : Decidable h.Typed := inferInstanceAs (Decidable (_ ∧ _))

theorem typed_of_readTcpHeader {pkt : Bytes} {payload : Nat} {h : TcpHeader}
    (hread : readTcpHeader pkt payload = .ok h) :
    h.Typed := by
  obtain ⟨seq, -, hread⟩ := bind_eq_ok hread
  obtain ⟨ackSeq, hack, hread⟩ := bind_eq_ok hread
  obtain ⟨doff, -, hread⟩ := bind_eq_ok hread
  obtain ⟨flags, -, hread⟩ := bind_eq_ok hread
  obtain ⟨window, hwindow, hread⟩ := bind_eq_ok hread
  cases hread
  exact ⟨lt_of_loadBe32 hack, lt_of_loadBe16 hwindow⟩

variable {h : TcpHeader}

theorem shift_window_lt {window scale : Nat} (hwindow : window < 65536) (hscale : scale ≤ 14) :
    u32 (window <<< scale) < 1073741824 := by
  have hpow : 2 ^ scale ≤ 2 ^ 14 := Nat.pow_le_pow_right (by decide) hscale
  have hmul : window * 2 ^ scale ≤ 65535 * 2 ^ 14 := Nat.mul_le_mul (by omega) hpow
  rw [Nat.shiftLeft_eq, u32]
  omega

theorem inWindow_heard (ht : t.InWindow) (hh : h.Typed) (now : Int) : (t.heard h now).InWindow where
  flow := ht.flow
  counts := ⟨ht.counts.acked, ht.counts.localSeq, Nat.mod_lt _ (by decide), Nat.succ_pos _⟩
  sendScale := ht.sendScale
  sendWindow := shift_window_lt hh.2 ht.sendScale
  near := ht.near

/-- What is acknowledged before the next number is less than half of all numbers back, or half of them. -/
theorem gap_le_of_compareU32_neg {a b : Nat} (ha : a < 4294967296) (hb : b < 4294967296) (hneg : compareU32 a b < 0) :
    gap 4294967296 a b ≤ 2147483648 := by
  rw [compareU32_neg_iff] at hneg
  rcases hneg with ⟨hlt, hnear⟩ | ⟨hlt, hfar⟩
  · rw [gap_u32_of_le hlt.le hb]
    omega
  · rw [gap_u32_of_lt hlt ha]
    omega

theorem inWindow_handleAck (ht : t.InWindow) (hack : h.ackSeq = t.localSeq) : (handleAck t h).InWindow := by
  have hall : TcpSession.InWindow { t with acked := h.ackSeq } := by
    refine ⟨ht.flow, ⟨?_, ht.counts.localSeq, ht.counts.sendWindow, ht.counts.unconfirmed⟩, ht.sendScale,
      ht.sendWindow, ?_⟩
    · exact hack ▸ ht.counts.localSeq
    · intro _
      show gap 4294967296 h.ackSeq t.localSeq ≤ 2147483648
      rw [hack, gap_self ht.counts.localSeq]
      decide
  unfold handleAck
  dsimp only
  split
  · -- with nothing in flight the session may start to send
    obtain ⟨hflow, ⟨hacked, hlocal, hwindow, hunconfirmed⟩, hscale, hbound, -⟩ := hall
    refine ⟨hflow, ⟨hacked, hlocal, hwindow, hunconfirmed⟩, hscale, hbound, fun _ => ?_⟩
    show gap 4294967296 h.ackSeq t.localSeq ≤ 2147483648
    rw [hack, gap_self ht.counts.localSeq]
    decide
  · exact hall.same (.closing _)
  · exact hall

theorem inWindow_handleOtherAck (ht : t.InWindow) (hh : h.Typed) : (handleOtherAck t h).1.InWindow := by
  unfold handleOtherAck
  split_ifs with hkeep hbefore hrepeated
  · exact ht
  · exact ht
  · refine ⟨ht.flow, ⟨hh.1, ht.counts.localSeq, ht.counts.sendWindow, ht.counts.unconfirmed⟩, ht.sendScale,
      ht.sendWindow, ?_⟩
    intro _
    exact gap_le_of_compareU32_neg hh.1 ht.counts.localSeq hbefore
  · exact ht.same (.writeRst t)

theorem inWindow_handleFlags (ht : t.InWindow) (hh : h.Typed) (calls : TunCalls) :
    (handleFlags t h calls).1.InWindow := by
  unfold handleFlags
  split_ifs with hrst hack hsyn hfin hisAck
  · exact ht.same (.closing t)
  · exact ht
  · exact ht.same (.handleFin t calls)
  · exact inWindow_handleAck ht (hack.resolve_left (by simp [hisAck]))
  · exact ht
  · exact inWindow_handleOtherAck ht hh

theorem inWindow_segmentResult (ht : t.InWindow) (hh : h.Typed) (socket : Int) (data : Bytes) (calls : TunCalls) :
    (segmentResult t socket h data calls).1.InWindow := by
  have hheard := inWindow_heard ht hh calls.now
  unfold segmentResult
  split
  · exact ht.same (.writeRst t)
  · rw [handleTcpSession_eq]
    split
    · exact hheard.same (.writeRst _)
    · exact inWindow_handleFlags (hheard.same (.queued _ h data)) hh calls

/-! ## The data of packets -/

/-- The bytes of data of what is written for a client of that version. -/
def Output.carried (version : Nat) : Output → Nat
  | .tunWrite packet =>
    match readTcpHeader packet (ipHeaderLength version) with
    | .ok h => packet.length - tcpData (ipHeaderLength version) h.doff
    | .error _ => 0
  | _ => 0

section Carried

variable {flow : Flow}

theorem carried_tcpPacket (hform : flow.WellFormed) (hflow : t.flow = flow) (data : Bytes) (f : TcpFlags) :
    (Output.tunWrite (tcpPacket t data f)).carried flow.version = data.length := by
  subst hflow
  obtain ⟨header, check, hlen, hcheck, hpacket⟩ := tcpPacket_eq hform data f
  have hread := readTcpHeader_tcpHeader t f header check (tcpOptions t f.syn ++ data)
  unfold Output.carried
  dsimp only
  rw [hpacket, ← hlen, hread]
  simp only [List.length_append, length_tcpHeader t f hcheck, length_tcpOptions, sentHeader, tcpData, optionLength]
  cases f.syn
  · simp only [Bool.false_eq_true, if_false]
    omega
  · simp only [if_true]
    omega

theorem carried_writeRst (hform : flow.WellFormed) (hflow : t.flow = flow) :
    (writeRst t).2.carried flow.version = 0 := by
  unfold writeRst
  dsimp only
  split
  · refine carried_tcpPacket hform ?_ [] _
    exact hflow
  · exact carried_tcpPacket hform hflow [] _

theorem carried_forwardLoop (hform : flow.WellFormed) (hflow : t.flow = flow) (id : Nat) (calls : SocketCalls)
    (segments : List Segment) (k buffer : Nat) :
    ∀ o ∈ (forwardLoop id calls segments k buffer t).2.2, o.carried flow.version = 0 := by
  refine forwardLoop_induction (Q := fun t _ os => t.flow = flow → ∀ o ∈ os, o.carried flow.version = 0)
    (fun t queue _ => nofun) (fun t queue hflow o ho => ?_) (fun t queue n remoteSeq bytes t' os ih hflow o ho => ?_)
    (fun t queue n bytes _ o ho => ?_) segments k buffer t hflow
  · rw [List.mem_singleton.1 ho]
    exact carried_writeRst hform hflow
  · rcases List.mem_cons.1 ho with rfl | ho
    · rfl
    · exact ih hflow o ho
  · rw [List.mem_singleton.1 ho]
    rfl

theorem carried_forwardTcp (hform : flow.WellFormed) (hflow : t.flow = flow) (id : Nat) (socket : Int)
    (calls : SocketCalls) :
    ∀ o ∈ (forwardTcp id socket t calls).2.2, o.carried flow.version = 0 := by
  unfold forwardTcp
  split
  · exact carried_forwardLoop hform hflow id calls _ _ _
  · exact nofun

theorem carried_ackForwarded (hform : flow.WellFormed) (hflow : t.flow = flow) (socket : Int) (fwd : Bool)
    (calls : SocketCalls) :
    ∀ o ∈ (ackForwarded t socket fwd calls).2, o.carried flow.version = 0 := by
  unfold ackForwarded
  dsimp only
  split
  · intro o ho
    rw [List.mem_singleton.1 ho]
    refine carried_tcpPacket hform ?_ [] _
    split
    · exact hflow
    · exact hflow
  · exact nofun

theorem carried_connectTcp (hform : flow.WellFormed) (hflow : t.flow = flow) (calls : SocketCalls) :
    ∀ o ∈ (connectTcp t calls).2, o.carried flow.version = 0 := by
  unfold connectTcp
  split
  · intro o ho
    rw [List.mem_singleton.1 ho]
    refine carried_writeRst hform ?_
    exact hflow
  · split
    · intro o ho
      rw [List.mem_singleton.1 ho]
      refine carried_tcpPacket hform ?_ [] _
      exact hflow
    · exact nofun

theorem carried_finishTcp (hform : flow.WellFormed) (hflow : t.flow = flow) (calls : SocketCalls) :
    ∀ o ∈ (finishTcp t calls).2, o.carried flow.version = 0 := by
  unfold finishTcp
  split
  · intro o ho
    rw [List.mem_singleton.1 ho]
    exact carried_tcpPacket hform hflow [] _
  · intro o ho
    rw [List.mem_singleton.1 ho]
    exact carried_writeRst hform hflow

end Carried

/-! ## The events of a socket -/

theorem inWindow_connectTcp (ht : t.InWindow) (calls : SocketCalls) : (connectTcp t calls).1.InWindow := by
  unfold connectTcp
  split
  · have hsocks : t.SameWindow { t with socks5 := .none } := ⟨rfl, rfl, rfl, rfl, rfl, rfl, id⟩
    exact ht.same (hsocks.trans (.writeRst _))
  · split
    · cases hw : calls.tunWrite 0 with
      | true =>
        refine ht.of_not_sends rfl rfl (Nat.mod_lt _ (by decide)) rfl rfl rfl ?_
        rintro (hs | hs) <;> cases hs
      | false =>
        refine ht.of_not_sends rfl rfl ht.counts.localSeq rfl rfl rfl ?_
        rintro (hs | hs) <;> cases hs
    · exact ht

/-- After the end of the stream nothing is sent. -/
theorem inWindow_finishTcp (ht : t.InWindow) (hs : t.Sends) (calls : SocketCalls) : (finishTcp t calls).1.InWindow := by
  unfold finishTcp
  split
  · cases hw : calls.tunWrite 1 with
    | true =>
      rcases hs with hs | hs
      · simp only [writeFinAck, writeOrClose, hs, if_true]
        refine ht.of_not_sends rfl rfl (Nat.mod_lt _ (by decide)) rfl rfl rfl ?_
        rintro (hs | hs) <;> cases hs
      · simp only [writeFinAck, writeOrClose, hs, if_true]
        refine ht.of_not_sends rfl rfl (Nat.mod_lt _ (by decide)) rfl rfl rfl ?_
        rintro (hs | hs) <;> cases hs
    | false => exact ht.same (.closing t)
  · exact ht.same (.writeRst t)

/-- A session that has come to a state of the invariant, and what it wrote for its client: no more
than the client has announced to take. -/
structure TcpSession.Forwards (t t' : TcpSession) (os : List Output) : Prop where
  after : t'.InWindow
  within : ∀ o ∈ os, 0 < o.carried t.flow.version → t.inflight + o.carried t.flow.version ≤ t.sendWindow

/-- Nothing is forwarded where no data is carried. -/
theorem TcpSession.Forwards.of_carried {os : List Output} (h : t'.InWindow)
    (hzero : ∀ o ∈ os, o.carried t.flow.version = 0) : t.Forwards t' os :=
  ⟨h, fun o ho hpos => absurd (hzero o ho) (Nat.ne_of_gt hpos)⟩

theorem forwards_receiveTcp (ht : t.InWindow) (hs : t.Sends) (hpos : 0 < getSendWindow t) {bytes : Bytes}
    (hlen : bytes.length ≤ getSendWindow t) {calls : SocketCalls} {r : TcpSession × List Output}
    (hr : receiveTcp args t bytes calls = .ok r) : t.Forwards r.1 r.2 := by
  obtain ⟨reply, hreply, hr⟩ := bind_eq_ok hr
  have hdata := length_processTcpDns hreply
  have hfits := ht.add_le hs hpos hlen
  have hreceived : t.SameWindow { t with received := t.received + bytes.length } := ⟨rfl, rfl, rfl, rfl, rfl, rfl, id⟩
  cases hr
  constructor
  · cases hw : calls.tunWrite 1 with
    | true =>
      have hnear := ht.sendWindow
      refine ⟨ht.flow, ⟨ht.counts.acked, Nat.mod_lt _ (by decide), ht.counts.sendWindow, Nat.mod_lt _ (by decide)⟩,
        ht.sendScale, ht.sendWindow, fun _ => ?_⟩
      show gap 4294967296 t.acked ((t.localSeq + (bytes.take 2 ++ reply.data).length) % 4294967296) ≤ 2147483648
      rw [hdata, gap_add ht.counts.acked]
      exact (Nat.mod_le _ _).trans (by unfold TcpSession.inflight at hfits; omega)
    | false => exact ht.same (hreceived.trans (.closing _))
  · intro o ho hcarried
    rcases List.mem_append.1 ho with ho | ho
    · obtain ⟨rr, -, rfl⟩ := List.mem_map.1 ho
      exact absurd hcarried (Nat.lt_irrefl 0)
    · rw [List.mem_singleton.1 ho]
      have hwritten : (Output.tunWrite (tcpPacket { t with received := t.received + bytes.length }
          (bytes.take 2 ++ reply.data) ⟨false, true, false, false⟩)).carried t.flow.version =
          (bytes.take 2 ++ reply.data).length := carried_tcpPacket ht.flow rfl _ _
      show t.inflight + (Output.tunWrite _).carried t.flow.version ≤ t.sendWindow
      rw [hwritten, hdata]
      exact hfits

theorem forwards_readTcp (ht : t.InWindow) {socket : Int} {calls : SocketCalls} {r : Int × TcpSession × List Output}
    (hr : readTcp args t socket calls = .ok r) : t.Forwards r.2.1 r.2.2 := by
  have htime : t.SameWindow { t with time := calls.now } := ⟨rfl, rfl, rfl, rfl, rfl, rfl, id⟩
  unfold readTcp at hr
  dsimp only at hr
  split at hr
  · rename_i hread
    split at hr
    · cases hr
      exact .of_carried (ht.same htime) nofun
    · cases hr
      refine .of_carried (ht.same (htime.trans (.writeRst _))) fun o ho => ?_
      rw [List.mem_singleton.1 ho]
      exact carried_writeRst ht.flow rfl
    · split at hr
      · cases hr
        refine .of_carried (inWindow_finishTcp (ht.same htime) hread.1 calls) fun o ho => ?_
        rcases List.mem_append.1 ho with ho | ho
        · refine carried_finishTcp ht.flow ?_ calls o ho
          rfl
        · rw [List.mem_singleton.1 ho]
          rfl
      · obtain ⟨r', hr', hr⟩ := bind_eq_ok hr
        cases hr
        have hlen : ∀ bytes : Bytes, (bytes.take (min (getSendWindow t) t.mss)).length ≤ getSendWindow t :=
          fun bytes => (List.length_take_le _ bytes).trans (Nat.min_le_left _ _)
        obtain ⟨hafter, hwithin⟩ := forwards_receiveTcp (ht.same htime) hread.1 hread.2.2 (hlen _) hr'
        exact ⟨hafter, hwithin⟩
  · cases hr
    exact .of_carried ht nofun

theorem forwards_checkTcpSocket (ht : t.InWindow) {s : NgSession} {calls : SocketCalls} {r : NgSession × List Output}
    (hr : checkTcpSocket args s t calls = .ok r) : ∃ t', r.1.data = .tcp t' ∧ t.Forwards t' r.2 := by
  cases checkTcpSocket_cases hr with
  | failed _ =>
    have htime : t.SameWindow { t with time := calls.now } := ⟨rfl, rfl, rfl, rfl, rfl, rfl, id⟩
    refine ⟨_, rfl, .of_carried (ht.same (htime.trans (.writeRst _))) fun o ho => ?_⟩
    rw [List.mem_singleton.1 ho]
    exact carried_writeRst ht.flow rfl
  | connecting _ _ => exact ⟨_, rfl, .of_carried (inWindow_connectTcp ht calls) (carried_connectTcp ht.flow rfl calls)⟩
  | transfer _ listen forwarded reads =>
    rename_i fwd t₁ sent r' _
    have hloop : t.SameWindow t₁ := by
      have hsame : t.SameWindow (forwardTcp s.id s.socket t calls).2.1 := .forwardTcp s.id s.socket t calls
      rwa [forwarded] at hsame
    have hack := hloop.trans (.ackForwarded t₁ s.socket fwd calls)
    obtain ⟨hafter, hwithin⟩ := forwards_readTcp (ht.same hack) reads
    refine ⟨_, rfl, hafter, fun o ho hpos => ?_⟩
    rcases List.mem_append.1 ho with ho | ho
    · -- what goes to the socket, and its acknowledgment, carries nothing
      have hzero : o.carried t.flow.version = 0 := by
        rcases List.mem_append.1 ho with ho | ho
        · have hcarried := carried_forwardTcp ht.flow rfl s.id s.socket calls o
          rw [forwarded] at hcarried
          exact hcarried ho
        · exact carried_ackForwarded ht.flow hloop.flow s.socket fwd calls o ho
      exact absurd hzero (Nat.ne_of_gt hpos)
    · have hread := hwithin o ho
      rw [TcpSession.inflight, hack.flow, hack.acked, hack.localSeq, hack.sendWindow] at hread
      exact hread hpos

/-! ## Runs -/

/-- The header of a segment was read from a packet. -/
def SessionEvent.Typed : SessionEvent → Prop
  | .segment h _ _ => h.Typed
  | _ => True

instance : DecidablePred SessionEvent.Typed
  | .segment h _ _ => inferInstanceAs (Decidable h.Typed)
  | .monitor _ | .check _ _ | .socket _ | .checkAllowed | .clear => isTrue trivial

/-- A TCP session of the invariant. -/
def NgSession.InWindow (s : NgSession) : Prop := ∃ t, s.data = .tcp t ∧ t.InWindow

theorem inWindow_step {s : NgSession} {e : SessionEvent} {r : Option NgSession × List Output} (hs : s.InWindow)
    (he : e.Typed) (h : s.step args e = .ok r) : ∀ s', r.1 = some s' → s'.InWindow := by
  obtain ⟨t, hdata, ht⟩ := hs
  cases e with
  -- a segment sets the window of the client, and a socket event keeps to it
  | segment header data calls =>
    cases h
    rintro _ ⟨⟩
    simp only [NgSession.receive, hdata]
    exact ⟨_, rfl, inWindow_segmentResult ht he s.socket data calls⟩
  -- all other events leave the window and the numbers
  | monitor calls =>
    cases h
    rintro _ ⟨⟩
    simp only [monitorSession, hdata]
    split
    · obtain ⟨t', ht', hsame⟩ := TcpSession.SameWindow.monitorTcpSession s t calls
      exact ⟨t', ht', ht.same hsame⟩
    · exact ⟨t, hdata, ht⟩
  | check sessions now =>
    cases h
    intro s' hs'
    simp only [checkSession, hdata] at hs'
    obtain ⟨t', ht', hsame⟩ := TcpSession.SameWindow.checkTcpSession s t sessions args.maxsessions now s' hs'
    exact ⟨t', ht', ht.same hsame⟩
  | socket calls =>
    simp only [NgSession.step] at h
    split at h
    · obtain ⟨r', hr', h⟩ := bind_eq_ok h
      cases h
      rintro _ ⟨⟩
      simp only [socketEvent, hdata] at hr'
      obtain ⟨t', ht', hforwards⟩ := forwards_checkTcpSocket ht hr'
      exact ⟨t', ht', hforwards.after⟩
    · cases h
      rintro _ ⟨⟩
      exact ⟨t, hdata, ht⟩
  | checkAllowed =>
    cases h
    intro s' hs'
    simp only [checkAllowed, hdata] at hs'
    split at hs'
    · cases hs'
      exact ⟨_, rfl, ht.same (.writeRst t)⟩
    · cases hs'
      exact ⟨t, hdata, ht⟩
  | clear =>
    cases h
    intro s' hs'
    cases hs'

theorem inWindow_openedSession {id : Nat} {flow : Flow} {mss ws : Nat} {uid : Int} {data : Bytes} {calls : TunCalls}
    {window : Nat} {socket : Int} (hflow : flow.WellFormed) (hh : h.Typed) (hscale : ws ≤ 14) :
    (openedSession id flow h mss ws uid data calls window socket).InWindow := by
  refine ⟨_, rfl, hflow, ⟨?_, Nat.mod_lt _ (by decide), Nat.mod_lt _ (by decide), ?_⟩, hscale,
    shift_window_lt hh.2 hscale, ?_⟩
  · exact Nat.succ_pos _
  · exact Nat.succ_pos _
  · rintro (hs | hs) <;> cases hs

/-- What `check_tcp_socket` forwards of a session, whatever the system answers, is in the window that the
client announced last, together with what the client has not acknowledged. -/
def TcpSession.KeepsWindow (args : Arguments) (s : NgSession) (t : TcpSession) : Prop :=
  ∀ calls r, checkTcpSocket args s t calls = .ok r → ∀ o ∈ r.2, 0 < o.carried t.flow.version →
    gap 4294967296 t.acked ((t.localSeq + o.carried t.flow.version) % 4294967296) ≤ t.sendWindow

theorem TcpSession.InWindow.keepsWindow (ht : t.InWindow) (args : Arguments) (s : NgSession) :
    t.KeepsWindow args s := by
  intro calls r hr o ho hpos
  obtain ⟨t', -, hforwards⟩ := forwards_checkTcpSocket ht hr
  rw [gap_add ht.counts.acked]
  exact (Nat.mod_le _ _).trans (hforwards.within o ho hpos)

/-- In every run of a session with a window scale of at most 14, in any order of acknowledgments, window
updates and reads, no more is in flight than the client has announced to take. -/
theorem keepsWindow_run (args : Arguments) {id : Nat} {flow : Flow} {mss ws : Nat} {uid : Int} {data : Bytes}
    {calls : TunCalls} {window : Nat} {socket : Int} {events : List SessionEvent} (hflow : flow.WellFormed)
    (hh : h.Typed) (hscale : ws ≤ 14) (htyped : ∀ e ∈ events, e.Typed) :
    ∀ r ∈ sessionStates args (openedSession id flow h mss ws uid data calls window socket) events,
      OnOk (fun tr => ∀ s t, tr.session = some s → s.data = .tcp t → t.KeepsWindow args s) r := by
  have hinv : ∀ r ∈ sessionStates args (openedSession id flow h mss ws uid data calls window socket) events,
      OnOk (fun tr => ∀ s, tr.session = some s → s.InWindow) r := by
    have hgood : EveryStep (stepOk (SessionTrace.step args)) (fun r e => OnOk (fun _ => e.Typed) r)
        (.ok ⟨some (openedSession id flow h mss ws uid data calls window socket), []⟩) events :=
      (everyStep_true _ _).imp_of_mem fun e he _ _ _ _ => htyped e he
    refine onOk_states (fun _ => True) _ (fun _ _ _ _ _ => trivial) ?_ trivial ?_ hgood
    · intro tr e tr' _ hs he hstep s' hs'
      cases hsession : tr.session with
      | none =>
        rw [step_of_none hsession] at hstep
        cases hstep
        rw [hsession] at hs'
        cases hs'
      | some s =>
        obtain ⟨r, hr, rfl⟩ := step_of_session hsession hstep
        exact inWindow_step (hs s hsession) he hr s' hs'
    · rintro s ⟨⟩
      exact inWindow_openedSession hflow hh hscale
  intro r hr tr htr s t hs hdata
  obtain ⟨t', hdata', ht'⟩ := hinv r hr tr htr s hs
  rw [hdata] at hdata'
  cases hdata'
  exact ht'.keepsWindow args s

/-- A read of three bytes. -/
def SocketCalls.reading : SocketCalls :=
  { SocketCalls.taking 0 with input := true, output := false, recv := .data [72, 84, 84] }

/-- A session that is established; the read that follows is written for the client. -/
theorem keepsWindow_plainSession :
    (∀ r ∈ sessionStates (.plain [] _ compiled_redirectAll) (plainSession []) handshake,
      OnOk (fun tr => ∀ s t, tr.session = some s → s.data = .tcp t →
        t.KeepsWindow (.plain [] _ compiled_redirectAll) s) r) ∧
      (plainRun (plainSession []) (handshake ++ [.socket .reading])).map (·.outputs.map (·.carried 4)) = .ok [0, 3] :=
  ⟨keepsWindow_run _ (by decide) (by decide) (by decide) (by decide), by decide +kernel⟩

end SunProxy.Net
