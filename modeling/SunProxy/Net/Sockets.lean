/-
The sockets of sessions. What socket a session has follows from its state, and whatever is done with a
session closes its socket or leaves it as it is; so no descriptor is closed twice, and none is lost
with its session.
-/
import SunProxy.Net.Descriptors
import SunProxy.Net.UdpRun

namespace SunProxy.Net

open SunProxy.Buffer SunProxy.Kotlin SunProxy.Ledger SunProxy.Result SunProxy.Run SunProxy.Table

/-! ## The socket in each state -/

/-- A state and a socket that a session can have together. A session that is closing still has its
socket, or has lost it to the end of the stream. -/
def TcpState.Fits (state : TcpState) (socket : Int) : Prop :=
  match state with
  | .listen | .synRecv | .established | .closeWait => 0 ≤ socket
  | .finWait1 | .lastAck | .close => socket = -1
  | .closing => -1 ≤ socket

def UdpState.Fits (state : UdpState) (socket : Int) : Prop :=
  match state with
  | .active | .finishing => 0 ≤ socket
  | .closed | .blocked => socket = -1

def NgSession.Fits (s : NgSession) : Prop :=
  match s.data with
  | .icmp _ => 0 ≤ s.socket
  | .udp u => u.state.Fits s.socket
  | .tcp t => t.state.Fits s.socket

theorem NgSession.fits_icmp {s : NgSession} {i : IcmpSession} (h : s.data = .icmp i) : s.Fits ↔ 0 ≤ s.socket := by
  rw [Fits, h]

theorem NgSession.fits_udp {s : NgSession} {u : UdpSession} (h : s.data = .udp u) :
    s.Fits ↔ u.state.Fits s.socket := by
  rw [Fits, h]

theorem NgSession.fits_tcp {s : NgSession} {t : TcpSession} (h : s.data = .tcp t) :
    s.Fits ↔ t.state.Fits s.socket := by
  rw [Fits, h]

theorem UdpState.Fits.open_iff {state : UdpState} {socket : Int} (h : state.Fits socket) :
    0 ≤ socket ↔ state = .active ∨ state = .finishing := by
  cases state <;> simp only [UdpState.Fits] at h <;> simp <;> omega

theorem TcpState.Fits.closing {state : TcpState} {socket : Int} (h : state.Fits socket) :
    TcpState.closing.Fits socket := by
  cases state <;> simp only [TcpState.Fits] at h ⊢ <;> omega

theorem NgSession.Fits.le {s : NgSession} (h : s.Fits) : -1 ≤ s.socket := by
  unfold NgSession.Fits at h
  split at h
  · omega
  · rename_i u _
    cases hu : u.state <;> simp only [hu, UdpState.Fits] at h <;> omega
  · exact h.closing

/-! ## TCP sessions -/

section Tcp

variable {t : TcpSession} {socket : Int}

theorem state_writeRst (t : TcpSession) : (writeRst t).1.state = if t.state = .close then .close else .closing := by
  unfold writeRst
  dsimp only
  split <;> split <;> simp_all [TcpSession.withState]

theorem fits_writeRst (t : TcpSession) (h : t.state.Fits socket) : (writeRst t).1.state.Fits socket := by
  rw [state_writeRst]
  split
  · rename_i hs
    rwa [hs] at h
  · exact h.closing

theorem fits_writeOrClose (t : TcpSession) (data : Bytes) (flags : TcpFlags) (ok : Bool) (h : t.state.Fits socket) :
    (writeOrClose t data flags ok).1.state.Fits socket := by
  cases ok
  · exact h.closing
  · exact h

theorem fits_expireTcp (h : t.state.Fits socket) (sessions maxsessions now : Int) :
    (expireTcp t sessions maxsessions now).1.state.Fits socket := by
  unfold expireTcp
  split_ifs
  · exact h.closing
  · exact fits_writeRst _ h
  · exact h

theorem fits_keepAlive (h : t.state.Fits socket) (calls : MonitorCalls) :
    (keepAlive t calls).1.state.Fits socket := by
  unfold keepAlive
  split
  · exact fits_writeOrClose _ _ _ _ h
  · exact h

theorem fits_monitorEvents (h : t.state.Fits socket) (fd : Int) (calls : MonitorCalls) :
    (monitorEvents t fd calls).2.1.state.Fits socket := by
  rcases monitorEvents_cases t fd calls with he | ⟨-, he⟩ <;> rw [he]
  · exact h
  · exact fits_keepAlive h calls

theorem fits_connectTcp (hs : t.state = .listen) (h : 0 ≤ socket) (calls : SocketCalls) :
    (connectTcp t calls).1.state.Fits socket := by
  have hfits : t.state.Fits socket := by rwa [hs]
  unfold connectTcp
  split
  · exact fits_writeRst _ hfits
  · split
    · dsimp only
      split
      · exact h
      · exact fits_writeOrClose _ _ _ _ hfits
    · exact hfits

theorem fits_forwardLoop (h : t.state.Fits socket) (id : Nat) (calls : SocketCalls) (segments : List Segment)
    (k buffer : Nat) : (forwardLoop id calls segments k buffer t).2.1.state.Fits socket := by
  refine forwardLoop_induction (Q := fun t t' _ => t.state.Fits socket → t'.state.Fits socket) (fun t queue h => ?_)
    (fun t queue h => ?_) (fun t queue n remoteSeq bytes t' os ih h => ?_)
    (fun t queue n bytes h => ?_) segments k buffer t h
  · exact h
  · exact fits_writeRst _ h
  · exact ih h
  · exact h

theorem fits_ackForwarded (h : t.state.Fits socket) (fd : Int) (fwd : Bool) (calls : SocketCalls) :
    (ackForwarded t fd fwd calls).1.state.Fits socket := by
  have hack : ∀ t' : TcpSession, t'.state = t.state → (writeAck t' (calls.tunWrite 0)).1.state.Fits socket := by
    intro t' ht
    apply fits_writeOrClose
    rwa [ht]
  unfold ackForwarded
  dsimp only
  split
  · split
    · exact hack _ (by split <;> rfl)
    · exact hack _ (by split <;> rfl)
  · exact h

/-- After the end of the stream a session has no socket. -/
theorem fits_finishTcp (hs : t.state = .established ∨ t.state = .closeWait) (calls : SocketCalls) :
    (finishTcp t calls).1.state.Fits (-1) := by
  unfold finishTcp
  split
  · cases hw : calls.tunWrite 1 with
    | true => rcases hs with hs | hs <;> simp [writeFinAck, writeOrClose, hs, TcpSession.withState, TcpState.Fits]
    | false => simp [writeFinAck, writeOrClose, TcpSession.withState, TcpState.Fits]
  · rw [state_writeRst]
    split <;> simp [TcpState.Fits]

theorem fits_receiveTcp {args : Arguments} {bytes : Bytes} {calls : SocketCalls}
    {r : TcpSession × List Output} (h : t.state.Fits socket) (hr : receiveTcp args t bytes calls = .ok r) :
    r.1.state.Fits socket := by
  obtain ⟨reply, -, hr⟩ := bind_eq_ok hr
  cases hr
  dsimp only
  split_ifs
  · exact h
  · exact h.closing

theorem fits_handleFin (h : t.state.Fits socket) (calls : TunCalls) : (handleFin t calls).1.state.Fits socket := by
  have hw : (writeAck { t with remoteSeq := u32 (t.remoteSeq + 1) } calls.tunWrite).1.state.Fits socket :=
    fits_writeOrClose _ _ _ _ h
  unfold handleFin
  split
  -- ESTABLISHED: the end is near when nothing waits to be sent
  · rename_i hs
    rw [hs] at h
    split
    · dsimp only
      split
      · exact h
      · exact hw
    · exact h
  · rename_i hs
    rw [hs] at h
    dsimp only
    split
    · exact h
    · exact hw
  · exact h

theorem fits_handleAck (h : t.state.Fits socket) (header : TcpHeader) :
    (handleAck t header).state.Fits socket := by
  unfold handleAck
  dsimp only
  split
  · rename_i hs
    rwa [hs] at h
  · exact h.closing
  · exact h

theorem fits_handleFlags (h : t.state.Fits socket) (header : TcpHeader) (calls : TunCalls) :
    (handleFlags t header calls).1.state.Fits socket := by
  unfold handleFlags handleOtherAck
  split_ifs
  · exact h.closing
  · exact h
  · exact fits_handleFin h calls
  · exact fits_handleAck h header
  · exact h
  · exact h
  · exact h
  · exact h
  · exact fits_writeRst _ h

theorem fits_segmentResult (h : t.state.Fits socket) (fd : Int) (header : TcpHeader) (data : Bytes)
    (calls : TunCalls) : (segmentResult t fd header data calls).1.state.Fits socket := by
  have hheard : (t.heard header calls.now).state.Fits socket := h
  have hqueued : (queueTcp (t.heard header calls.now) header data).state.Fits socket := by
    unfold queueTcp
    split
    · exact h
    · exact h
  unfold segmentResult
  split
  · exact fits_writeRst _ h
  · rw [handleTcpSession_eq]
    split
    · exact fits_writeRst _ hheard
    · split
      · exact fits_handleFlags hheard header calls
      · exact fits_handleFlags hqueued header calls

end Tcp

/-! ## What is closed -/

def Output.closed? : Output → Option Int
  | .close fd => some fd
  | _ => none

def closes (os : List Output) : List Int := os.filterMap Output.closed?

@[simp] theorem closes_nil : closes [] = [] := rfl

@[simp] theorem closes_append (os os' : List Output) : closes (os ++ os') = closes os ++ closes os' :=
  List.filterMap_append

theorem closes_isWrite {os : List Output} (h : ∀ o ∈ os, o.IsWrite) : closes os = [] := by
  rw [closes, List.filterMap_eq_nil_iff]
  intro o ho
  obtain ⟨packet, rfl⟩ := h o ho
  rfl

theorem closes_resolved (rrs : List ResourceRecord) : closes (rrs.map .resolved) = [] := by
  rw [closes, List.filterMap_map, List.filterMap_eq_nil_iff]
  exact fun _ _ => rfl

theorem uses_map_output (os : List Output) : uses (os.map .output) = (closes os).map .release := by
  induction os with
  | nil => rfl
  | cons o os ih =>
    cases o with
    | close fd => exact congrArg (_ :: ·) ih
    | tunWrite | send | resolved | usage => exact ih

/-- The descriptor that a session with this socket has. -/
def owned (socket : Int) : List Int := if 0 ≤ socket then [socket] else []

theorem owned_eq_nil {socket : Int} (h : socket = -1) : owned socket = [] := by
  rw [owned, if_neg (by omega)]

theorem owned_eq {socket : Int} (h : 0 ≤ socket) : owned socket = [socket] := if_pos h

/-- What is done with a session closes its socket or leaves it to the session, and the socket fits the
session's state again. -/
structure Conserves (s : NgSession) (s' : Option NgSession) (os : List Output) : Prop where
  fits : ∀ s₁, s' = some s₁ → s₁.Fits
  sockets : closes os ++ s'.toList.flatMap (owned ·.socket) = owned s.socket

theorem Conserves.some {s s' : NgSession} {os : List Output} (fits : s'.Fits) (socket : s'.socket = s.socket)
    (h : closes os = []) : Conserves s (some s') os where
  fits := by rintro _ ⟨⟩; exact fits
  sockets := by simp [h, socket]

theorem Conserves.removed {s : NgSession} {os : List Output} (h : closes os = owned s.socket) :
    Conserves s none os where
  fits := by rintro _ ⟨⟩
  sockets := by simpa using h

/-! ## The session checks -/

theorem closes_expireTcp (t : TcpSession) (sessions maxsessions now : Int) :
    closes (expireTcp t sessions maxsessions now).2 = [] := by
  unfold expireTcp
  split_ifs <;> rfl

theorem closes_accountTcp (t : TcpSession) : closes (accountTcp t).2 = [] := by
  unfold accountTcp
  split <;> rfl

theorem closes_accountUdp (u : UdpSession) : closes (accountUdp u).2 = [] := by
  unfold accountUdp
  split <;> rfl

theorem state_accountTcp (t : TcpSession) : (accountTcp t).1.state = t.state := by
  unfold accountTcp
  split <;> rfl

theorem state_accountUdp (u : UdpSession) : (accountUdp u).1.state = u.state := by
  unfold accountUdp
  split <;> rfl

theorem closeTcp_spec {t : TcpSession} {socket : Int} (h : t.state.Fits socket) (now : Int) :
    (closeTcp socket t now).2.1.state.Fits (closeTcp socket t now).1 ∧
      closes (closeTcp socket t now).2.2 ++ owned (closeTcp socket t now).1 = owned socket := by
  unfold closeTcp
  split
  · rename_i hs
    rw [hs] at h
    by_cases hsocket : 0 ≤ socket
    · simp only [hsocket, if_true, owned_eq hsocket]
      exact ⟨rfl, rfl⟩
    · simp only [hsocket, if_false]
      have hle : -1 ≤ socket := h
      have hlost : socket = -1 := by omega
      exact ⟨hlost, rfl⟩
  · exact ⟨h, rfl⟩

theorem closeUdp_spec {u : UdpSession} {socket : Int} (h : u.state.Fits socket) (now : Int) :
    (closeUdp socket u now).2.1.state.Fits (closeUdp socket u now).1 ∧
      closes (closeUdp socket u now).2.2 ++ owned (closeUdp socket u now).1 = owned socket := by
  unfold closeUdp
  split
  · rename_i hs
    rw [hs] at h
    exact ⟨rfl, by rw [owned_eq h]; rfl⟩
  · exact ⟨h, rfl⟩

variable {args : Arguments} {s : NgSession} {sessions maxsessions now : Int}

theorem conserves_checkIcmpSession {i : IcmpSession} (hs : s.data = .icmp i) (h : s.Fits) :
    Conserves s (checkIcmpSession s i sessions maxsessions now).1
    (checkIcmpSession s i sessions maxsessions now).2 := by
  unfold checkIcmpSession
  split
  · exact .removed (owned_eq ((NgSession.fits_icmp hs).1 h)).symm
  · exact .some h rfl rfl

theorem conserves_checkUdpSession {u : UdpSession} (hs : s.data = .udp u) (h : s.Fits) :
    Conserves s (checkUdpSession s u sessions maxsessions now).1 (checkUdpSession s u sessions maxsessions now).2 := by
  have hexpired : (expireUdp u sessions maxsessions now).state.Fits s.socket := by
    have hu := (NgSession.fits_udp hs).1 h
    unfold expireUdp
    split
    · rename_i hactive
      rw [hactive.1] at hu
      exact hu
    · exact hu
  obtain ⟨hfits, hclosed⟩ := closeUdp_spec hexpired now
  unfold checkUdpSession
  dsimp only
  rw [state_accountUdp]
  split
  -- a session that has ended and waited is removed; what it had is closed by then
  · rename_i hended
    refine .removed ?_
    rw [closes_append, closes_accountUdp, List.append_nil, ← hclosed, owned_eq_nil, List.append_nil]
    rcases hended.1 with hstate | hstate
    · rwa [hstate] at hfits
    · rwa [hstate] at hfits
  · constructor
    · rintro s₁ ⟨⟩
      rw [NgSession.fits_udp rfl, state_accountUdp]
      exact hfits
    · simpa [closes_accountUdp] using hclosed

theorem conserves_checkTcpSession {t : TcpSession} (hs : s.data = .tcp t) (h : s.Fits) :
    Conserves s (checkTcpSession s t sessions maxsessions now).1 (checkTcpSession s t sessions maxsessions now).2 := by
  have hexpired := fits_expireTcp ((NgSession.fits_tcp hs).1 h) sessions maxsessions now
  obtain ⟨hfits, hclosed⟩ := closeTcp_spec hexpired now
  unfold checkTcpSession
  dsimp only
  rw [state_accountTcp]
  split
  · rename_i hended
    refine .removed ?_
    rw [closes_append, closes_append, closes_accountTcp, closes_expireTcp, List.append_nil, List.nil_append, ← hclosed,
      owned_eq_nil, List.append_nil]
    rwa [hended.1] at hfits
  · constructor
    · rintro s₁ ⟨⟩
      rw [NgSession.fits_tcp rfl, state_accountTcp]
      exact hfits
    · simpa [closes_accountTcp, closes_expireTcp] using hclosed

theorem conserves_checkSession (h : s.Fits) :
    Conserves s (checkSession sessions maxsessions now s).1 (checkSession sessions maxsessions now s).2 := by
  unfold checkSession
  split
  · rename_i hs
    exact conserves_checkIcmpSession hs h
  · rename_i hs
    exact conserves_checkUdpSession hs h
  · rename_i hs
    exact conserves_checkTcpSession hs h

theorem isWrite_keepAlive (t : TcpSession) (calls : MonitorCalls) : ∀ o ∈ (keepAlive t calls).2, o.IsWrite := by
  unfold keepAlive
  intro o ho
  split at ho
  · exact ⟨_, List.mem_singleton.1 ho⟩
  · cases ho

theorem isWrite_monitorEvents (t : TcpSession) (socket : Int) (calls : MonitorCalls) :
    ∀ o ∈ (monitorEvents t socket calls).2.2, o.IsWrite := by
  rcases monitorEvents_cases t socket calls with he | ⟨-, he⟩ <;> rw [he]
  · nofun
  · exact isWrite_keepAlive t calls

theorem monitorSession_spec (calls : Nat → MonitorCalls) (h : s.Fits) :
    (monitorSession calls s).1.Fits ∧ (monitorSession calls s).1.id = s.id ∧
      (monitorSession calls s).1.socket = s.socket ∧ closes (monitorSession calls s).2 = [] := by
  unfold monitorSession
  split
  · rename_i t hs
    split
    · have hfits := fits_monitorEvents ((NgSession.fits_tcp hs).1 h) s.socket (calls s.id)
      refine ⟨?_, rfl, rfl, closes_isWrite (isWrite_monitorEvents t s.socket (calls s.id))⟩
      unfold monitorTcpSession
      dsimp only
      rw [NgSession.fits_tcp rfl]
      split
      · exact hfits.closing
      · exact hfits
    · exact ⟨h, rfl, rfl, rfl⟩
  · exact ⟨h, rfl, rfl, rfl⟩

theorem conserves_monitorSession (calls : Nat → MonitorCalls) (h : s.Fits) :
    Conserves s (keep (monitorSession calls s)).1 (keep (monitorSession calls s)).2 := by
  obtain ⟨hfits, -, hsocket, hcloses⟩ := monitorSession_spec calls h
  exact .some hfits hsocket hcloses

theorem conserves_checkAllowed (h : s.Fits) : Conserves s (checkAllowed args s).1 (checkAllowed args s).2 := by
  unfold checkAllowed
  split
  · rename_i i hs
    dsimp only
    split
    · refine .some ?_ rfl rfl
      exact (NgSession.fits_icmp rfl).2 ((NgSession.fits_icmp hs).1 h)
    · exact .some h rfl rfl
  · rename_i u hs
    have hu := (NgSession.fits_udp hs).1 h
    split
    -- a blocked session never had a socket
    · rename_i hblocked
      rw [hblocked] at hu
      exact .removed (owned_eq_nil hu).symm
    · split
      -- the socket of an active one is left to the next check
      · rename_i hactive
        rw [hactive.1] at hu
        exact .some ((NgSession.fits_udp rfl).2 hu) rfl rfl
      · exact .some h rfl rfl
  · rename_i t hs
    split
    · exact .some ((NgSession.fits_tcp rfl).2 (fits_writeRst t ((NgSession.fits_tcp hs).1 h))) rfl rfl
    · exact .some h rfl rfl

theorem conserves_clearSession : Conserves s (clearSession s).1 (clearSession s).2 := by
  refine .removed ?_
  unfold clearSession owned
  split <;> rfl

/-! ## Socket events -/

theorem closes_forwardLoop (id : Nat) (calls : SocketCalls) (segments : List Segment) (k buffer : Nat)
    (t : TcpSession) :
    closes (forwardLoop id calls segments k buffer t).2.2 = [] := by
  refine forwardLoop_induction (Q := fun _ _ os => closes os = []) (fun t queue => ?_) (fun t queue => ?_)
    (fun t queue n remoteSeq bytes t' os ih => ?_) (fun t queue n bytes => ?_) segments k buffer t
  · rfl
  · rfl
  · exact ih
  · rfl

theorem closes_connectTcp (t : TcpSession) (calls : SocketCalls) : closes (connectTcp t calls).2 = [] := by
  unfold connectTcp
  split
  · rfl
  · split <;> rfl

theorem closes_ackForwarded (t : TcpSession) (socket : Int) (fwd : Bool) (calls : SocketCalls) :
    closes (ackForwarded t socket fwd calls).2 = [] := by
  unfold ackForwarded
  dsimp only
  split <;> rfl

theorem closes_finishTcp (t : TcpSession) (calls : SocketCalls) : closes (finishTcp t calls).2 = [] := by
  unfold finishTcp
  split <;> rfl

theorem readTcp_spec {t : TcpSession} {socket : Int} {calls : SocketCalls} {r : Int × TcpSession × List Output}
    (hsocket : 0 ≤ socket) (h : t.state.Fits socket) (hr : readTcp args t socket calls = .ok r) :
    r.2.1.state.Fits r.1 ∧ closes r.2.2 ++ owned r.1 = owned socket := by
  unfold readTcp at hr
  dsimp only at hr
  split at hr
  · rename_i hc
    split at hr
    · cases hr
      exact ⟨h, rfl⟩
    · cases hr
      exact ⟨fits_writeRst _ h, rfl⟩
    · split at hr
      · cases hr
        -- the end of the stream closes the socket
        refine ⟨fits_finishTcp (t := { t with time := calls.now }) hc.1 calls, ?_⟩
        rw [closes_append, closes_finishTcp, owned_eq hsocket]
        rfl
      · obtain ⟨r', hr', hr⟩ := bind_eq_ok hr
        cases hr
        refine ⟨fits_receiveTcp (t := { t with time := calls.now }) h hr', ?_⟩
        obtain ⟨reply, -, hr'⟩ := bind_eq_ok hr'
        cases hr'
        rw [closes_append, closes_resolved]
        rfl
  · cases hr
    exact ⟨h, rfl⟩

theorem conserves_checkTcpSocket {t : TcpSession} {calls : SocketCalls} {r : NgSession × List Output}
    (hs : s.data = .tcp t) (hsocket : 0 ≤ s.socket) (h : s.Fits) (hr : checkTcpSocket args s t calls = .ok r) :
    Conserves s (some r.1) r.2 := by
  have hfits := (NgSession.fits_tcp hs).1 h
  cases checkTcpSocket_cases hr with
  | failed _ =>
    refine .some ((NgSession.fits_tcp rfl).2 ?_) rfl rfl
    exact fits_writeRst _ hfits
  | connecting _ listen =>
    exact .some ((NgSession.fits_tcp rfl).2 (fits_connectTcp listen hsocket calls)) rfl (closes_connectTcp t calls)
  | @transfer fwd t₁ sent r' _ _ forwarded reads =>
    have hsent : t₁.state.Fits s.socket ∧ closes sent = [] := by
      unfold forwardTcp at forwarded
      split at forwarded
      · have hloop := fits_forwardLoop hfits s.id calls t.forward 0
          (getReceiveBuffer s.socket calls.sendbuf calls.unsent)
        have hcloses := closes_forwardLoop s.id calls t.forward 0
          (getReceiveBuffer s.socket calls.sendbuf calls.unsent) t
        rw [forwarded] at hloop hcloses
        exact ⟨hloop, hcloses⟩
      · cases forwarded
        exact ⟨hfits, rfl⟩
    -- what the socket takes closes nothing, so that what is read decides
    obtain ⟨hread, hclosed⟩ := readTcp_spec hsocket (fits_ackForwarded hsent.1 s.socket fwd calls) reads
    constructor
    · rintro s₁ ⟨⟩
      exact (NgSession.fits_tcp rfl).2 hread
    · simpa [hsent.2, closes_ackForwarded] using hclosed

theorem state_checkUdpSocket {u : UdpSession} {calls : SocketCalls} {r : UdpSession × List Output}
    (hr : checkUdpSocket args u calls = .ok r) :
    (r.1.state = u.state ∨ r.1.state = .finishing) ∧ closes r.2 = [] := by
  unfold checkUdpSocket at hr
  split at hr
  · cases hr
    exact ⟨.inr rfl, rfl⟩
  · split at hr
    · dsimp only at hr
      split at hr
      -- an error that is no hint to try again ends the session
      · rename_i retry _
        cases hr
        cases retry
        · exact ⟨.inr rfl, rfl⟩
        · exact ⟨.inl rfl, rfl⟩
      · split at hr
        · cases hr
          exact ⟨.inr rfl, rfl⟩
        · obtain ⟨reply, -, hr⟩ := bind_eq_ok hr
          cases hr
          dsimp only
          constructor
          · split
            · exact .inr rfl
            · exact .inl rfl
          · rw [closes_append, closes_resolved]
            rfl
    · cases hr
      exact ⟨.inl rfl, rfl⟩

theorem closes_checkIcmpSocket (i : IcmpSession) (calls : SocketCalls) : closes (checkIcmpSocket i calls).2 = [] := by
  unfold checkIcmpSocket
  split
  · rfl
  · split
    · dsimp only
      split
      · rfl
      · split <;> rfl
    · rfl

theorem conserves_socketEvent {calls : SocketCalls} {r : NgSession × List Output} (hsocket : 0 ≤ s.socket) (h : s.Fits)
    (hr : socketEvent args s calls = .ok r) : Conserves s (some r.1) r.2 := by
  unfold socketEvent at hr
  split at hr
  · rename_i i hs
    cases hr
    exact .some ((NgSession.fits_icmp rfl).2 hsocket) rfl (closes_checkIcmpSocket i calls)
  · rename_i u hs
    split at hr
    · obtain ⟨r', hr', hr⟩ := bind_eq_ok hr
      cases hr
      obtain ⟨hstate, hcloses⟩ := state_checkUdpSocket hr'
      refine .some ((NgSession.fits_udp rfl).2 ?_) rfl hcloses
      have hu := (NgSession.fits_udp hs).1 h
      rcases hstate with hstate | hstate
      · rwa [hstate]
      · rw [hstate]
        exact hsocket
    · cases hr
      exact .some h rfl rfl
  · rename_i t hs
    exact conserves_checkTcpSocket hs hsocket h hr

/-! ## Tables -/

/-- The descriptors of the sessions of a table. -/
def descriptors (sessions : List NgSession) : List Int := sessions.flatMap (owned ·.socket)

/-- A table goes from `l` to `l'`: what its sessions had is closed or still theirs, and a session that
is gone has lost its socket before or just now. -/
structure Sweeps (l l' : List NgSession) (os : List Output) : Prop where
  fits : ∀ s ∈ l', s.Fits
  descriptors : (closes os ++ descriptors l').Perm (descriptors l)
  kept : ∀ s ∈ l, (∃ s' ∈ l', s'.id = s.id ∧ s'.socket = s.socket) ∨ s.socket = -1 ∨ .close s.socket ∈ os

theorem Conserves.kept {s : NgSession} {s' : Option NgSession} {os : List Output} (h : Conserves s s' os) (hs : s.Fits)
    (hid : ∀ s₁, s' = Option.some s₁ → s₁.id = s.id) :
    (∃ s₁, s' = Option.some s₁ ∧ s₁.id = s.id ∧ s₁.socket = s.socket) ∨ s.socket = -1 ∨ .close s.socket ∈ os := by
  by_cases hsocket : 0 ≤ s.socket
  · have howned := h.sockets
    rw [owned_eq hsocket] at howned
    have hmem : s.socket ∈ closes os ++ s'.toList.flatMap (owned ·.socket) := by
      rw [howned]; exact List.mem_singleton_self _
    -- the descriptor is among the closed ones, or among those of what is left
    rcases List.mem_append.1 hmem with hmem | hmem
    · obtain ⟨o, ho, hclose⟩ := List.mem_filterMap.1 hmem
      cases o with
      | close fd =>
        cases hclose
        exact .inr (.inr ho)
      | tunWrite | send | resolved | usage => cases hclose
    · obtain ⟨s₁, hs₁, hmem⟩ := List.mem_flatMap.1 hmem
      rw [Option.mem_toList] at hs₁
      unfold owned at hmem
      split at hmem
      · exact .inl ⟨s₁, hs₁, hid s₁ hs₁, (List.mem_singleton.1 hmem).symm⟩
      · cases hmem
  · have hle := hs.le
    exact .inr (.inl (by omega))

theorem Sweeps.eachSession {f : NgSession → Option NgSession × List Output} {l : List NgSession}
    (hl : ∀ s ∈ l, s.Fits) (hf : ∀ s, s.Fits → Conserves s (f s).1 (f s).2)
    (hid : ∀ {s s'}, (f s).1 = some s' → s.Later s') : Sweeps l (eachSession f l).1 (eachSession f l).2 where
  fits s' hs' := by
    obtain ⟨s, hs, hs'⟩ := List.mem_filterMap.1 hs'
    exact (hf s (hl s hs)).fits s' hs'
  descriptors := by
    have hcloses : closes (Net.eachSession f l).2 = l.flatMap fun s => closes (f s).2 := List.filterMap_flatMap
    have hsockets : Net.descriptors (Net.eachSession f l).1 =
        l.flatMap fun s => (f s).1.toList.flatMap (owned ·.socket) := by
      rw [Net.descriptors, Net.eachSession, List.filterMap_eq_flatMap_toList, List.flatMap_assoc]
    have heach : (l.flatMap fun s => closes (f s).2 ++ (f s).1.toList.flatMap (owned ·.socket)) = Net.descriptors l :=
      List.flatMap_congr fun s hs => (hf s (hl s hs)).sockets
    -- session by session, and then all that is closed before all that is left
    rw [hcloses, hsockets, ← heach]
    exact List.flatMap_append_perm ..
  kept s hs := by
    rcases (hf s (hl s hs)).kept (hl s hs) fun s₁ hs₁ => congrArg Prod.fst (hid hs₁).entry with
      ⟨s₁, hs₁, hsame⟩ | hlost | hclosed
    · exact .inl ⟨s₁, List.mem_filterMap.2 ⟨s, hs, hs₁⟩, hsame⟩
    · exact .inr (.inl hlost)
    · exact .inr (.inr (List.mem_flatMap.2 ⟨s, hs, hclosed⟩))

theorem Sweeps.trans {a b c : List NgSession} {os os' : List Output} (h : Sweeps a b os) (h' : Sweeps b c os') :
    Sweeps a c (os ++ os') where
  fits := h'.fits
  descriptors := by
    rw [closes_append, List.append_assoc]
    exact (h'.descriptors.append_left _).trans h.descriptors
  kept s hs := by
    rcases h.kept s hs with ⟨s', hs', hid, hsocket⟩ | hlost | hclosed
    · rcases h'.kept s' hs' with ⟨s'', hs'', hid', hsocket'⟩ | hlost | hclosed
      · exact .inl ⟨s'', hs'', hid'.trans hid, hsocket'.trans hsocket⟩
      · exact .inr (.inl (hsocket ▸ hlost))
      · exact .inr (.inr (List.mem_append_right _ (hsocket ▸ hclosed)))
    · exact .inr (.inl hlost)
    · exact .inr (.inr (List.mem_append_left _ hclosed))

variable {ctx ctx' : Context} {acts : List Action}

theorem sweeps_loopTurn (hf : ∀ s ∈ ctx.sessions, s.Fits) (calls : LoopCalls) :
    Sweeps ctx.sessions (loopTurn args ctx calls).1.sessions (loopTurn args ctx calls).2 := by
  have hmonitor := Sweeps.eachSession hf (fun s hs => conserves_monitorSession calls.monitor hs)
    (fun h => by cases h; exact .monitorSession calls.monitor _)
  unfold loopTurn
  dsimp only
  split
  · exact hmonitor.trans (.eachSession hmonitor.fits (fun s hs => conserves_checkSession hs) .checkSession)
  · exact hmonitor

/-- The session that is changed, between those that stay. -/
theorem update_split (hv : ctx.table.Valid) {s : NgSession} (hs : s ∈ ctx.sessions) :
    ∃ l l', ctx.sessions = l ++ s :: l' ∧ ∀ f, (ctx.update s.id f).sessions = l ++ f s :: l' := by
  -- no other session of the list has the number
  obtain ⟨l, l', hsplit⟩ := List.append_of_mem hs
  have hnodup : (ctx.sessions.map (·.id)).Nodup := by
    have := hv.nodup
    rwa [Context.table, List.map_map] at this
  rw [hsplit, List.map_append, List.map_cons, List.nodup_append, List.nodup_cons] at hnodup
  obtain ⟨-, ⟨hafter, -⟩, hbefore⟩ := hnodup
  refine ⟨l, l', hsplit, fun f => ?_⟩
  have hl : l.map (fun s' => if s'.id = s.id then f s' else s') = l := by
    conv_rhs => rw [← List.map_id l]
    apply List.map_congr_left
    intro s' hs'
    rw [if_neg (hbefore _ (List.mem_map_of_mem hs') _ List.mem_cons_self), id]
  have hl' : l'.map (fun s' => if s'.id = s.id then f s' else s') = l' := by
    conv_rhs => rw [← List.map_id l']
    apply List.map_congr_left
    intro s' hs'
    have hne : s'.id ≠ s.id := fun hid => hafter (hid ▸ List.mem_map_of_mem hs')
    rw [if_neg hne, id]
  rw [Context.update, hsplit, List.map_append, List.map_cons, hl, hl', if_pos rfl]

theorem Sweeps.update (hv : ctx.table.Valid) (hf : ∀ s ∈ ctx.sessions, s.Fits) {s : NgSession} (hs : s ∈ ctx.sessions)
    {f : NgSession → NgSession} {os : List Output} (h : Conserves s (some (f s)) os) (hid : (f s).id = s.id) :
    Sweeps ctx.sessions (ctx.update s.id f).sessions os := by
  -- the other sessions, and their descriptors, stay
  have hkept := h.kept (hf s hs) fun s₁ hs₁ => by cases hs₁; exact hid
  have hsockets : closes os ++ owned (f s).socket = owned s.socket := by simpa using h.sockets
  obtain ⟨l, l', hsplit, hupdate⟩ := update_split hv hs
  rw [hupdate, hsplit]
  rw [hsplit] at hf
  simp only [List.mem_append, List.mem_cons] at hf
  refine ⟨fun s' hs' => ?_, ?_, fun s' hs' => ?_⟩
  · simp only [List.mem_append, List.mem_cons] at hs'
    rcases hs' with hs' | rfl | hs'
    · exact hf s' (.inl hs')
    · exact h.fits _ rfl
    · exact hf s' (.inr (.inr hs'))
  · simp only [Net.descriptors, List.flatMap_append, List.flatMap_cons, ← hsockets]
    rw [List.append_assoc (closes os)]
    exact List.perm_append_comm_assoc ..
  · simp only [List.mem_append, List.mem_cons] at hs'
    rcases hs' with hs' | rfl | hs'
    · exact .inl ⟨s', by simp [hs'], rfl, rfl⟩
    · rcases hkept with ⟨s₁, hs₁, hsame⟩ | hlost
      · cases hs₁
        exact .inl ⟨f s', by simp, hsame⟩
      · exact .inr hlost
    · exact .inl ⟨s', by simp [hs'], rfl, rfl⟩

theorem Sweeps.refl (hf : ∀ s ∈ ctx.sessions, s.Fits) : Sweeps ctx.sessions ctx.sessions [] where
  fits := hf
  descriptors := .refl _
  kept s hs := .inl ⟨s, hs, rfl, rfl⟩

theorem sweeps_handleSocket {id : Nat} {calls : SocketCalls} {r : Context × List Output} (hv : ctx.table.Valid)
    (hf : ∀ s ∈ ctx.sessions, s.Fits) (hr : handleSocket args ctx id calls = .ok r) :
    Sweeps ctx.sessions r.1.sessions r.2 := by
  rcases handleSocket_cases hr with rfl | ⟨s, hs, -, hsocket, r', hr', rfl⟩
  · exact .refl hf
  · exact .update hv hf hs (conserves_socketEvent hsocket (hf s hs) hr')
      (congrArg Prod.fst (NgSession.Later.socketEvent hr').entry)

/-! ## Packets -/

/-- In a step the table goes from `l` to `l'`: nothing is closed that is not open, what the sessions
have stays open, and a session that is gone has lost its socket before or in the step. -/
structure KeepsSockets (l l' : List NgSession) (acts : List Action) : Prop where
  fits : ∀ s ∈ l', s.Fits
  held : ∀ h, (descriptors l).Subperm h → ∃ h', held h (uses acts) = some h' ∧ (descriptors l').Subperm h'
  kept : ∀ s ∈ l, (∃ s' ∈ l', s'.id = s.id ∧ s'.socket = s.socket) ∨ s.socket = -1 ∨
    .output (.close s.socket) ∈ acts

theorem Sweeps.keeps {l l' : List NgSession} {os : List Output} (h : Sweeps l l' os) :
    KeepsSockets l l' (os.map .output) where
  fits := h.fits
  held fds hsub := by
    rw [uses_map_output]
    exact held_release (h.descriptors.subperm.trans hsub)
  kept s hs := by
    rcases h.kept s hs with hkept | hlost | hclosed
    · exact .inl hkept
    · exact .inr (.inl hlost)
    · exact .inr (.inr (List.mem_map_of_mem hclosed))

/-- A step that closes nothing and leaves the sessions alone. -/
theorem KeepsSockets.same {l : List NgSession} (hf : ∀ s ∈ l, s.Fits) {fds : List Int}
    (huses : uses acts = fds.map .acquire) : KeepsSockets l l acts where
  fits := hf
  held h hsub := by
    rw [huses, held_acquire]
    exact ⟨_, rfl, hsub.trans (List.sublist_append_right ..).subperm⟩
  kept s hs := .inl ⟨s, hs, rfl, rfl⟩

theorem KeepsSockets.idle {l : List NgSession} (hf : ∀ s ∈ l, s.Fits) (huses : uses acts = []) :
    KeepsSockets l l acts := by
  apply KeepsSockets.same hf
  rw [huses]
  exact List.map_nil.symm

/-- A step that opens the socket of a new session. -/
theorem KeepsSockets.opened {l : List NgSession} {s : NgSession} (hf : ∀ s ∈ l, s.Fits) (hs : s.Fits)
    (hsocket : 0 ≤ s.socket) (huses : uses acts = [.acquire s.socket]) : KeepsSockets l (s :: l) acts where
  fits s' hs' := by
    rcases List.mem_cons.1 hs' with rfl | hs'
    · exact hs
    · exact hf s' hs'
  held h hsub := by
    refine ⟨s.socket :: h, by rw [huses]; rfl, ?_⟩
    rw [descriptors, List.flatMap_cons, owned_eq hsocket]
    exact (List.subperm_cons _).2 hsub
  kept s' hs' := .inl ⟨s', List.mem_cons_of_mem _ hs', rfl, rfl⟩

theorem KeepsSockets.of_uses {l l' : List NgSession} {acts' : List Action} (h : KeepsSockets l l' acts')
    (huses : uses acts = uses acts') (hmem : ∀ a ∈ acts', a ∈ acts) : KeepsSockets l l' acts where
  fits := h.fits
  held fds hsub := by
    rw [huses]
    exact h.held fds hsub
  kept s hs := by
    rcases h.kept s hs with hkept | hlost | hclosed
    · exact .inl hkept
    · exact .inr (.inl hlost)
    · exact .inr (.inr (hmem _ hclosed))

theorem KeepsSockets.update (hv : ctx.table.Valid) (hf : ∀ s ∈ ctx.sessions, s.Fits) {s : NgSession}
    (hs : s ∈ ctx.sessions) {f : NgSession → NgSession} (fits : (f s).Fits) (socket : (f s).socket = s.socket)
    (hid : (f s).id = s.id) (huses : uses acts = []) : KeepsSockets ctx.sessions (ctx.update s.id f).sessions acts :=
  have hsweeps : Sweeps ctx.sessions (ctx.update s.id f).sessions [] := .update hv hf hs (.some fits socket rfl) hid
  hsweeps.keeps.of_uses huses (by simp)

theorem uses_opens {acts : List Action} (h : ∀ a ∈ acts, a.IsSocket ∨ a.use? = none) :
    ∃ fds : List Int, uses acts = fds.map .acquire := by
  induction acts with
  | nil => exact ⟨[], rfl⟩
  | cons a acts ih =>
    obtain ⟨fds, hfds⟩ := ih fun a' ha' => h a' (List.mem_cons_of_mem _ ha')
    rcases h a List.mem_cons_self with ⟨fd, rfl⟩ | hnone
    · exact ⟨fd :: fds, congrArg (_ :: ·) hfds⟩
    · exact ⟨fds, by rw [uses, List.filterMap_cons_none hnone, ← uses, hfds]⟩

variable {calls : TunCalls} {pkt : TunPacket}

theorem HandledIcmp.keepsSockets {p : IpPacket} (h : HandledIcmp ctx pkt p calls ctx' acts) (hv : ctx.table.Valid)
    (hf : ∀ s ∈ ctx.sessions, s.Fits) : KeepsSockets ctx.sessions ctx'.sessions acts := by
  cases h with
  | ignored _ same =>
    rw [same]
    exact .idle hf rfl
  | session found later changed =>
    obtain ⟨-, s, hs, rfl, hdata⟩ := mem_of_findIcmp found
    have hsocket := (NgSession.fits_icmp hdata).1 (hf s hs)
    rw [changed]
    exact .update hv hf hs ((NgSession.fits_icmp rfl).2 hsocket) rfl rfl rfl
  | failed _ _ refused same =>
    obtain ⟨fds, hfds⟩ := uses_opens fun a ha => .inl (openProtected_none refused a ha)
    rw [same]
    exact .same hf hfds
  | opened _ _ opens _ _ _ _ added =>
    rw [added hv]
    exact .opened hf ((NgSession.fits_icmp rfl).2 opens.1) opens.1 rfl

theorem HandledUdp.keepsSockets {flow : Flow} {redirect : Option Allowed} {data : Bytes} {datalen : Nat}
    (h : HandledUdp args ctx flow redirect data datalen calls ctx' acts) (hv : ctx.table.Valid)
    (hf : ∀ s ∈ ctx.sessions, s.Fits) : KeepsSockets ctx.sessions ctx'.sessions acts := by
  have fits : ∀ {u : UdpSession} {socket : Int}, u.state = .active ∨ u.state = .finishing → 0 ≤ socket →
      u.state.Fits socket := fun hstate hsocket => by
    rcases hstate with hstate | hstate
    · rwa [hstate]
    · rwa [hstate]
  cases h with
  | ignored _ _ same =>
    rw [same]
    exact .idle hf rfl
  -- the socket stays with its session
  | session found state dealt after changed =>
    obtain ⟨-, s, hs, rfl, hdata⟩ := mem_of_findUdp found
    have hsocket := (NgSession.fits_udp hdata).1 (hf s hs)
    rw [state] at hsocket
    rw [changed]
    exact .update hv hf hs ((NgSession.fits_udp rfl).2 (fits after hsocket)) rfl rfl (uses_dealt dealt)
  | failed _ refused same =>
    -- what was opened is closed again where the call fails behind it
    obtain ⟨fds, hfds⟩ := uses_opens fun a ha => .inl (openProtected_none (openUdpSocket_none refused) a ha)
    rw [same]
    exact .same hf hfds
  | @opened u acts _ opens dealt after _ _ added =>
    -- the new session owns what was opened
    have huses : uses acts = [] := uses_dealt dealt
    rw [added hv]
    exact .opened hf ((NgSession.fits_udp rfl).2 (fits after opens.1)) opens.1
      (congrArg (Use.acquire calls.socket :: ·) huses)

/-- A TCP session of a packet that is allowed begins to listen. -/
theorem HandledTcp.keepsSockets {payload : Nat} {flow : Flow} {uid : Int} {redirect : Option Allowed}
    (h : HandledTcp ctx pkt payload flow uid true redirect calls ctx' acts) (hv : ctx.table.Valid)
    (hf : ∀ s ∈ ctx.sessions, s.Fits) : KeepsSockets ctx.sessions ctx'.sessions acts := by
  cases h with
  | ignored _ _ same =>
    rw [same]
    exact .idle hf rfl
  | unknown _ _ _ same =>
    rw [same]
    exact .idle hf rfl
  | @session s t header data found _ _ changed =>
    obtain ⟨-, hs, hdata⟩ := mem_of_findTcp found
    have hfits := fits_segmentResult ((NgSession.fits_tcp hdata).1 (hf s hs)) s.socket header data calls
    rw [changed]
    exact .update hv hf hs ((NgSession.fits_tcp rfl).2 hfits) rfl rfl
      (uses_map_isWrite (isWrite_segmentResult t s.socket header data calls))
  | failed _ _ _ _ refused same =>
    -- what was opened is closed again where the call fails behind it
    obtain ⟨fds, hfds⟩ := uses_opens fun a ha => (mem_openTcpSocket_none refused a ha).imp_right fun h => by rw [h]; rfl
    rw [same]
    exact .same hf hfds
  | opened _ _ _ _ opens _ _ listens _ added =>
    obtain ⟨-, -, hsocket, -⟩ := openTcpSocket_some opens
    obtain ⟨rfl, w, rfl⟩ := listens rfl
    rw [added]
    refine .opened hf ?_ hsocket rfl
    rw [NgSession.fits_tcp rfl]
    exact hsocket

theorem HandledIp.keepsSockets {count : Int} (h : HandledIp args ctx count pkt calls ctx' acts) (hv : ctx.table.Valid)
    (hf : ∀ s ∈ ctx.sessions, s.Fits) : KeepsSockets ctx.sessions ctx'.sessions acts := by
  have reports : ∀ {acts}, (∀ a ∈ acts, a.IsReport) → uses acts = [] := fun h => by
    rw [uses, List.filterMap_eq_nil_iff]
    intro a ha
    obtain ⟨rr, rfl⟩ := h a ha
    rfl
  cases h with
  | quiet same quiet =>
    rw [same]
    exact .idle hf (reports quiet)
  | icmp _ _ _ handled => exact handled.keepsSockets hv hf
  | udp _ _ _ _ handled => exact handled.keepsSockets hv hf
  | tcp _ _ _ _ _ _ handled =>
    refine (handled.keepsSockets hv hf).of_uses ?_ fun a ha => List.mem_append_right _ ha
    rw [uses_append, reports fun a ha => isReport_reportSni ha, List.nil_append]

/-! ## Runs -/

theorem Engine.step_keepsSockets {e e' : Engine} {event : Event} (hv : e.ctx.table.Valid)
    (hf : ∀ s ∈ e.ctx.sessions, s.Fits) (h : e.step args event = .ok (e', acts)) :
    KeepsSockets e.ctx.sessions e'.ctx.sessions acts := by
  -- each sweep, socket event and packet keeps the descriptors of what it does not close
  cases event with
  | loop calls =>
    cases h
    exact (sweeps_loopTurn hf calls).keeps
  | tun pkt calls =>
    simp only [Engine.step] at h
    split at h
    · cases h
      exact .idle hf rfl
    · obtain ⟨⟨ctx', acts'⟩, hip, h⟩ := bind_eq_ok h
      cases h
      exact (handleIp_cases hip).keepsSockets hv hf
  | socket id calls =>
    obtain ⟨⟨ctx', os⟩, hsocket, h⟩ := bind_eq_ok h
    cases h
    exact (sweeps_handleSocket hv hf hsocket).keeps
  | checkAllowed =>
    cases h
    exact (Sweeps.eachSession hf (fun s hs => conserves_checkAllowed hs) .checkAllowed).keeps
  | clear =>
    cases h
    exact (Sweeps.eachSession hf (fun s _ => conserves_clearSession) fun h => by cases h).keeps

/-- The descriptors opened and closed in a run. -/
def Trace.uses (t : Trace) : List (Use Int) := t.past.reverse.flatMap fun e => Net.uses e.2

/-- Where the sockets are right: no descriptor has been closed that was not open, those of the sessions
are open, and a session has one in the states that use it. -/
structure Trace.SocketsRight (t : Trace) : Prop where
  held : ∃ fds, Ledger.held [] t.uses = some fds ∧ (descriptors t.engine.ctx.sessions).Subperm fds
  udp : ∀ s ∈ t.engine.ctx.sessions, ∀ u, s.data = .udp u → (0 ≤ s.socket ↔ u.state = .active ∨ u.state = .finishing)
  tcp : ∀ s ∈ t.engine.ctx.sessions, ∀ t, s.data = .tcp t →
    t.state = .finWait1 ∨ t.state = .lastAck ∨ t.state = .close → s.socket = -1

/-- A session that an event removes has no socket, or its socket is closed in the same step. -/
def Trace.RemovesClosed (args : Arguments) (t : Trace) (event : Event) : Prop :=
  ∀ e acts, t.engine.step args event = .ok (e, acts) → ∀ s ∈ t.engine.ctx.sessions,
    (∀ s' ∈ e.ctx.sessions, s'.id ≠ s.id) → s.socket = -1 ∨ .output (.close s.socket) ∈ acts

/-- What carries this through a run. -/
structure Trace.SocketInv (t : Trace) : Prop where
  valid : t.engine.ctx.table.Valid
  fits : ∀ s ∈ t.engine.ctx.sessions, s.Fits
  held : ∃ fds, Ledger.held [] t.uses = some fds ∧ (descriptors t.engine.ctx.sessions).Subperm fds

theorem Trace.socketInv_init : Trace.init.SocketInv where
  valid := ⟨.nil, by simp [Context.table, init]⟩
  fits := by simp [init]
  held := ⟨[], rfl, .refl _⟩

theorem Trace.SocketInv.step {t t' : Trace} {event : Event} (h : t.SocketInv) (hs : t.step args event = .ok t') :
    t'.SocketInv := by
  obtain ⟨e, acts, he, rfl⟩ := Trace.step_cases hs
  have hkeeps := Engine.step_keepsSockets h.valid h.fits he
  obtain ⟨fds, hheld, hsub⟩ := h.held
  obtain ⟨fds', hheld', hsub'⟩ := hkeeps.held fds hsub
  refine ⟨(Engine.step_advance h.valid he).valid h.valid, hkeeps.fits, fds', ?_, hsub'⟩
  have huses : Trace.uses ⟨e, (event, acts) :: t.past⟩ = t.uses ++ Net.uses acts := by
    simp only [Trace.uses, List.reverse_cons, List.flatMap_append, List.flatMap_cons, List.flatMap_nil, List.append_nil]
  rw [huses, held_append, hheld]
  exact hheld'

theorem Trace.SocketInv.right {t : Trace} (h : t.SocketInv) : t.SocketsRight where
  held := h.held
  udp s hs u hdata := ((NgSession.fits_udp hdata).1 (h.fits s hs)).open_iff
  tcp s hs t hdata hstate := by
    have hfits := (NgSession.fits_tcp hdata).1 (h.fits s hs)
    rcases hstate with hstate | hstate | hstate
    · rwa [hstate] at hfits
    · rwa [hstate] at hfits
    · rwa [hstate] at hfits

theorem Trace.SocketInv.removesClosed {t : Trace} (h : t.SocketInv) (event : Event) : t.RemovesClosed args event := by
  intro e acts he s hs hgone
  rcases (Engine.step_keepsSockets h.valid h.fits he).kept s hs with ⟨s', hs', hid, -⟩ | hclosed
  · exact absurd hid (hgone s' hs')
  · exact hclosed

/-- In every state of every run the sockets are right, and whatever comes next removes no session with
an open socket. -/
theorem socketsRight_runStates (args : Arguments) (events : List Event) :
    ∀ r ∈ runStates args events, OnOk (fun t => t.SocketsRight ∧ ∀ event, t.RemovesClosed args event) r := by
  have hinv : ∀ r ∈ runStates args events, OnOk Trace.SocketInv r :=
    onOk_states_of_inv (fun t event t' h hs => h.step hs) Trace.socketInv_init events
  exact fun r hr t ht => ⟨(hinv r hr t ht).right, (hinv r hr t ht).removesClosed⟩

/-- A turn of the loop in which the sessions are checked at `now`. -/
def checkTurn (now : Int) : Event := .loop ⟨true, now, fun _ => ⟨0, true, true, 0, 0⟩⟩

/-- A datagram, the end of its session and its removal. -/
def datagramLife : List Event := [.tun (datagramTo 9) .working, checkTurn 1000, checkTurn 2000]

theorem socketsRight_runStates_datagram :
    (final (stepOk (Trace.step (.plain [] _ compiled_redirectAll))) (.ok .init) datagramLife).map
      (fun t => (t.engine.ctx.sessions, t.uses)) = .ok ([], [.acquire 3, .release 3]) ∧
    OnOk (fun t => t.SocketsRight ∧ ∀ event, t.RemovesClosed (.plain [] _ compiled_redirectAll) event)
      (final (stepOk (Trace.step (.plain [] _ compiled_redirectAll))) (.ok .init) datagramLife) :=
  ⟨by decide +kernel, socketsRight_runStates _ _ _ (final_mem_states _ _)⟩

end SunProxy.Net
