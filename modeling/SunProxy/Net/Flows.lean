/-
The session table as a table of flows. What is done with a session leaves its flow alone, and a TCP
session its uid, but for the source address of a UDP session, which `check_dhcp` may overwrite; and none
that has ended comes back to life.
-/
import SunProxy.Lib.Result
import SunProxy.Lib.Seq
import SunProxy.Lib.Table
import SunProxy.Net.Engine

namespace SunProxy.Net

open SunProxy.Buffer SunProxy.Kotlin SunProxy.Result SunProxy.Seq SunProxy.Table

/-! ## The flow of a session -/

inductive Key where
  | icmp (version : Nat) (saddr daddr : Bytes)
  | udp (flow : Flow)
  | tcp (flow : Flow) (uid : Int)
deriving DecidableEq, Repr

def SessionData.key : SessionData → Key
  | .icmp i => .icmp i.version i.saddr i.daddr
  | .udp u => .udp u.flow
  | .tcp t => .tcp t.flow t.uid

/-- The part of a key that no step changes. -/
def Key.lasting : Key → Key
  | .udp flow => .udp { flow with saddr := [] }
  | k => k

def NgSession.entry (s : NgSession) : Nat × Key := (s.id, s.data.key.lasting)

def Context.table (ctx : Context) : Numbered Key := ⟨ctx.sessions.map NgSession.entry, ctx.next⟩

/-- `s'` is a later state of the session `s`. -/
structure NgSession.Kept (s s' : NgSession) : Prop where
  entry : s'.entry = s.entry
  active : s'.isActive = true → s.isActive = true

/-- `s'` is a later state of the session `s`, with the same key. -/
structure NgSession.Later (s s' : NgSession) : Prop where
  id : s'.id = s.id
  key : s'.data.key = s.data.key
  active : s'.isActive = true → s.isActive = true

theorem NgSession.Later.refl (s : NgSession) : s.Later s := ⟨rfl, rfl, fun h => h⟩

theorem NgSession.Later.trans {a b c : NgSession} (h : a.Later b) (h' : b.Later c) : a.Later c :=
  ⟨h'.id.trans h.id, h'.key.trans h.key, fun ha => h.active (h'.active ha)⟩

theorem NgSession.Later.entry {s s' : NgSession} (h : s.Later s') : s'.entry = s.entry := by
  rw [NgSession.entry, NgSession.entry, h.id, h.key]

theorem NgSession.Later.kept {s s' : NgSession} (h : s.Later s') : s.Kept s' := ⟨h.entry, h.active⟩

/-! ## ICMP sessions -/

structure IcmpSession.Later (i i' : IcmpSession) : Prop where
  version : i'.version = i.version
  saddr : i'.saddr = i.saddr
  daddr : i'.daddr = i.daddr
  stop : i.stop = true → i'.stop = true

theorem NgSession.later_withIcmp {s : NgSession} {i i' : IcmpSession} (hs : s.data = .icmp i) (h : i.Later i') :
    s.Later (s.withIcmp i') where
  id := rfl
  key := by simp only [withIcmp, hs, SessionData.key, h.version, h.saddr, h.daddr]
  active ha := by
    simp only [isActive, withIcmp, hs, Bool.not_eq_true'] at ha ⊢
    cases hi : i.stop with
    | false => rfl
    | true => rw [h.stop hi] at ha; cases ha

theorem IcmpSession.Later.checkIcmpSocket (i : IcmpSession) (calls : SocketCalls) :
    i.Later (checkIcmpSocket i calls).1 := by
  unfold Net.checkIcmpSocket
  split
  · exact ⟨rfl, rfl, rfl, fun _ => rfl⟩
  · split
    · dsimp only
      split
      · split <;> exact ⟨rfl, rfl, rfl, by simp⟩
      · split
        · exact ⟨rfl, rfl, rfl, fun _ => rfl⟩
        · dsimp only
          split <;> exact ⟨rfl, rfl, rfl, by simp⟩
    · exact ⟨rfl, rfl, rfl, fun h => h⟩

/-! ## UDP sessions -/

structure UdpSession.Later (u u' : UdpSession) : Prop where
  flow : u'.flow = u.flow
  active : u'.state = .active → u.state = .active

theorem NgSession.later_withUdp {s : NgSession} {u u' : UdpSession} (hs : s.data = .udp u) (h : u.Later u') :
    s.Later (s.withUdp u') where
  id := rfl
  key := by simp only [withUdp, hs, SessionData.key, h.flow]
  active ha := by
    simp only [isActive, withUdp, hs, decide_eq_true_eq] at ha ⊢
    exact h.active ha

namespace UdpSession.Later

theorem refl (u : UdpSession) : u.Later u := ⟨rfl, id⟩

theorem trans {a b c : UdpSession} (h : a.Later b) (h' : b.Later c) : a.Later c :=
  ⟨h'.flow.trans h.flow, fun ha => h.active (h'.active ha)⟩

theorem finishing (u : UdpSession) : u.Later (u.withState .finishing) := ⟨rfl, nofun⟩

theorem expireUdp (u : UdpSession) (sessions maxsessions now : Int) :
    u.Later (expireUdp u sessions maxsessions now) := by
  unfold Net.expireUdp
  split
  · exact finishing u
  · exact refl u

theorem closeUdp (u : UdpSession) (socket now : Int) : u.Later (closeUdp socket u now).2.1 := by
  unfold Net.closeUdp
  split
  · exact ⟨rfl, nofun⟩
  · exact refl u

theorem accountUdp (u : UdpSession) : u.Later (accountUdp u).1 := by
  unfold Net.accountUdp
  split
  · exact ⟨rfl, id⟩
  · exact refl u

theorem receiveUdp {u : UdpSession} {args : Arguments} {bytes : Bytes} {calls : SocketCalls}
    {r : UdpSession × List Output} (h : receiveUdp args u bytes calls = .ok r) : u.Later r.1 := by
  obtain ⟨reply, -, hr⟩ := bind_eq_ok h
  cases hr
  dsimp only
  split
  · exact ⟨rfl, nofun⟩
  · exact ⟨rfl, id⟩

theorem checkUdpSocket {u : UdpSession} {args : Arguments} {calls : SocketCalls} {r : UdpSession × List Output}
    (h : checkUdpSocket args u calls = .ok r) : u.Later r.1 := by
  unfold Net.checkUdpSocket at h
  split at h
  · cases h
    exact ⟨rfl, nofun⟩
  · split at h
    · dsimp only at h
      split at h
      · cases h
        split
        · exact ⟨rfl, id⟩
        · exact ⟨rfl, nofun⟩
      · split at h
        · cases h
          exact ⟨rfl, nofun⟩
        · have hr := receiveUdp h
          exact ⟨hr.flow, hr.active⟩
    · cases h
      exact refl u

end UdpSession.Later

/-! ## TCP sessions -/

structure TcpSession.Later (t t' : TcpSession) : Prop where
  flow : t'.flow = t.flow
  uid : t'.uid = t.uid
  closed : t.isClosed = true → t'.isClosed = true

theorem NgSession.later_withTcp {s : NgSession} {t t' : TcpSession} (hs : s.data = .tcp t) (h : t.Later t') :
    s.Later (s.withTcp t') where
  id := rfl
  key := by simp only [withTcp, hs, SessionData.key, h.flow, h.uid]
  active ha := by
    simp only [isActive, withTcp, hs, Bool.not_eq_true'] at ha ⊢
    cases ht : t.isClosed with
    | false => rfl
    | true => rw [h.closed ht] at ha; cases ha

theorem TcpSession.not_isClosed {t : TcpSession} {state : TcpState} (h : t.state = state)
    (hs : state ≠ .closing ∧ state ≠ .close) : ¬ t.isClosed = true := by
  simp only [isClosed, h, Bool.or_eq_true, decide_eq_true_eq]
  rintro (rfl | rfl)
  · exact hs.1 rfl
  · exact hs.2 rfl

namespace TcpSession.Later

theorem refl (t : TcpSession) : t.Later t := ⟨rfl, rfl, id⟩

theorem trans {a b c : TcpSession} (h : a.Later b) (h' : b.Later c) : a.Later c :=
  ⟨h'.flow.trans h.flow, h'.uid.trans h.uid, fun ha => h'.closed (h.closed ha)⟩

theorem closing (t : TcpSession) : t.Later (t.withState .closing) := ⟨rfl, rfl, fun _ => rfl⟩

/-- A session that is not closed may go to any state. -/
theorem withState {t t' : TcpSession} (h : t.Later t') {state : TcpState} (hs : ¬ t.isClosed = true) :
    t.Later (t'.withState state) :=
  ⟨h.flow, h.uid, fun hc => absurd hc hs⟩

theorem writeRst (t : TcpSession) : t.Later (writeRst t).1 := by
  unfold Net.writeRst
  dsimp only
  split
  · split
    · exact ⟨rfl, rfl, id⟩
    · exact ⟨rfl, rfl, fun _ => rfl⟩
  · split
    · exact ⟨rfl, rfl, id⟩
    · exact ⟨rfl, rfl, fun _ => rfl⟩

theorem writeOrClose (t : TcpSession) (data : Bytes) (flags : TcpFlags) (ok : Bool) :
    t.Later (writeOrClose t data flags ok).1 := by
  cases ok
  · exact closing t
  · exact refl t

theorem writeAck (t : TcpSession) (ok : Bool) : t.Later (writeAck t ok).1 := writeOrClose t _ _ ok

theorem expireTcp (t : TcpSession) (sessions maxsessions now : Int) :
    t.Later (expireTcp t sessions maxsessions now).1 := by
  unfold Net.expireTcp
  split_ifs
  · exact closing t
  · exact writeRst t
  · exact refl t

theorem closeTcp (t : TcpSession) (socket now : Int) : t.Later (closeTcp socket t now).2.1 := by
  unfold Net.closeTcp
  split
  · exact ⟨rfl, rfl, fun _ => rfl⟩
  · exact refl t

theorem accountTcp (t : TcpSession) : t.Later (accountTcp t).1 := by
  unfold Net.accountTcp
  split
  · exact ⟨rfl, rfl, id⟩
  · exact refl t

/-- Sequence numbers do not matter. -/
theorem withRemoteSeq {t t' : TcpSession} (h : t.Later t') (seq : Nat) : t.Later { t' with remoteSeq := seq } :=
  ⟨h.flow, h.uid, h.closed⟩

theorem keepAliveStart (t : TcpSession) (ms : Int) (seq : Nat) :
    t.Later { t with lastKeepAlive := ms, remoteSeq := seq } :=
  ⟨rfl, rfl, fun h => h⟩

theorem keepAlive (t : TcpSession) (calls : MonitorCalls) : t.Later (keepAlive t calls).1 := by
  unfold Net.keepAlive
  split
  · exact withRemoteSeq ((keepAliveStart t _ _).trans (writeAck _ _)) _
  · exact refl t

theorem monitorEvents (t : TcpSession) (socket : Int) (calls : MonitorCalls) :
    t.Later (monitorEvents t socket calls).2.1 := by
  rcases monitorEvents_cases t socket calls with h | ⟨-, h⟩ <;> rw [h]
  · exact refl t
  · exact keepAlive t calls

theorem connectTcp {t : TcpSession} (hs : t.state = .listen) (calls : SocketCalls) :
    t.Later (connectTcp t calls).1 := by
  have hopen := not_isClosed hs ⟨nofun, nofun⟩
  unfold Net.connectTcp
  split
  · have hw := writeRst { t with socks5 := .none }
    exact ⟨hw.flow, hw.uid, hw.closed⟩
  · split
    · have hw := writeOrClose { t with socks5 := .connected, remoteSeq := u32 (t.remoteSeq + 1) } []
        ⟨true, true, false, false⟩ (calls.tunWrite 0)
      dsimp only
      split <;> exact ⟨hw.flow, hw.uid, fun hc => absurd hc hopen⟩
    · exact refl t

theorem forwardLoop (t : TcpSession) (id : Nat) (calls : SocketCalls) (segments : List Segment) (k buffer : Nat) :
    t.Later (forwardLoop id calls segments k buffer t).2.1 := by
  refine forwardLoop_induction (Q := fun t t' _ => t.Later t') (fun t queue => ?_) (fun t queue => ?_)
    (fun t queue n remoteSeq bytes t' os ih => ?_) (fun t queue n bytes => ?_) segments k buffer t
  · exact ⟨rfl, rfl, fun h => h⟩
  · have hw := writeRst { t with forward := queue }
    exact ⟨hw.flow, hw.uid, hw.closed⟩
  · exact ⟨ih.flow, ih.uid, ih.closed⟩
  · exact ⟨rfl, rfl, fun h => h⟩

theorem ackForwarded (t : TcpSession) (socket : Int) (fwd : Bool) (calls : SocketCalls) :
    t.Later (ackForwarded t socket fwd calls).1 := by
  unfold Net.ackForwarded
  dsimp only
  split
  · split <;> split <;>
      exact ⟨(writeAck _ _).flow, (writeAck _ _).uid, fun h => (writeAck _ _).closed h⟩
  · exact ⟨rfl, rfl, fun h => h⟩

/-- The end of a stream is only looked at while the session is open. -/
theorem finishTcp {t : TcpSession} (hopen : ¬ t.isClosed = true) (calls : SocketCalls) :
    t.Later (finishTcp t calls).1 := by
  unfold Net.finishTcp
  split
  · have hw := writeOrClose t [] ⟨false, true, true, false⟩ (calls.tunWrite 1)
    dsimp only
    split <;> split <;> exact ⟨hw.flow, hw.uid, fun h => absurd h hopen⟩
  · exact writeRst t

theorem receiveTcp {t : TcpSession} {args : Arguments} {bytes : Bytes} {calls : SocketCalls}
    {r : TcpSession × List Output} (h : receiveTcp args t bytes calls = .ok r) : t.Later r.1 := by
  obtain ⟨reply, -, hr⟩ := bind_eq_ok h
  cases hr
  dsimp only
  split_ifs
  · exact ⟨rfl, rfl, fun h => h⟩
  · exact ⟨rfl, rfl, fun _ => rfl⟩

theorem readTcp {t : TcpSession} {args : Arguments} {socket : Int} {calls : SocketCalls}
    {r : Int × TcpSession × List Output} (h : readTcp args t socket calls = .ok r) : t.Later r.2.1 := by
  unfold Net.readTcp at h
  dsimp only at h
  split at h
  · rename_i hc
    have hopen : ¬ t.isClosed = true := by
      rcases hc.1 with hs | hs <;> exact not_isClosed hs ⟨nofun, nofun⟩
    split at h
    · cases h
      exact ⟨rfl, rfl, fun h => h⟩
    · cases h
      exact ⟨(writeRst _).flow, (writeRst _).uid, fun hc => absurd hc hopen⟩
    · split at h
      · cases h
        have hf := finishTcp (t := { t with time := calls.now }) hopen calls
        exact ⟨hf.flow, hf.uid, hf.closed⟩
      · obtain ⟨r', hr, hr'⟩ := bind_eq_ok h
        cases hr'
        exact ⟨(receiveTcp hr).flow, (receiveTcp hr).uid, fun hc => absurd hc hopen⟩
  · cases h
    exact refl t

theorem handleFin (t : TcpSession) (calls : TunCalls) : t.Later (handleFin t calls).1 := by
  have hw := writeAck { t with remoteSeq := u32 (t.remoteSeq + 1) } calls.tunWrite
  unfold Net.handleFin
  split
  · rename_i hs
    have hopen := not_isClosed hs ⟨nofun, nofun⟩
    split
    · dsimp only
      split <;> exact ⟨hw.flow, hw.uid, fun h => absurd h hopen⟩
    · exact ⟨rfl, rfl, fun h => absurd h hopen⟩
  · rename_i hs
    have hopen := not_isClosed hs ⟨nofun, nofun⟩
    dsimp only
    split <;> exact ⟨hw.flow, hw.uid, fun h => absurd h hopen⟩
  · exact refl t

theorem handleAck (t : TcpSession) (h : TcpHeader) : t.Later (handleAck t h) := by
  unfold Net.handleAck
  dsimp only
  split
  · rename_i hs
    exact ⟨rfl, rfl, fun h => absurd h (not_isClosed hs ⟨nofun, nofun⟩)⟩
  · exact ⟨rfl, rfl, fun _ => rfl⟩
  · exact ⟨rfl, rfl, fun h => h⟩

theorem handleOtherAck (t : TcpSession) (h : TcpHeader) : t.Later (handleOtherAck t h).1 := by
  unfold Net.handleOtherAck
  split_ifs
  · exact refl t
  · exact refl t
  · exact ⟨rfl, rfl, fun h => h⟩
  · exact writeRst t

theorem handleFlags (t : TcpSession) (h : TcpHeader) (calls : TunCalls) : t.Later (handleFlags t h calls).1 := by
  unfold Net.handleFlags
  split_ifs
  · exact closing t
  · exact refl t
  · exact handleFin t calls
  · exact handleAck t h
  · exact refl t
  · exact handleOtherAck t h

theorem queueTcp (t : TcpSession) (h : TcpHeader) (data : Bytes) : t.Later (queueTcp t h data) := by
  unfold Net.queueTcp
  split
  · exact refl t
  · exact ⟨rfl, rfl, fun h => h⟩

theorem handleTcpSession (t : TcpSession) (socket : Int) (h : TcpHeader) (data : Bytes) (calls : TunCalls) :
    t.Later (handleTcpSession t socket h data calls).1 := by
  unfold Net.handleTcpSession
  generalize hs : (if h.syn then t else { t with time := calls.now }) = s
  have hst : t.Later s := by
    subst hs
    split <;> exact ⟨rfl, rfl, fun h => h⟩
  have hsw : s.Later { s with sendWindow := u32 (h.window <<< s.sendScale), unconfirmed := 0 } := ⟨rfl, rfl, fun h => h⟩
  have htw := hst.trans hsw
  dsimp only
  split
  · exact htw.trans (writeRst _)
  · split
    · exact htw.trans (handleFlags _ h calls)
    · exact htw.trans ((queueTcp _ h data).trans (handleFlags _ h calls))

end TcpSession.Later

/-! ## Sessions -/

namespace NgSession.Later

theorem checkUdpSession {s s' : NgSession} {u : UdpSession} (hs : s.data = .udp u) {sessions maxsessions now : Int}
    (h : (checkUdpSession s u sessions maxsessions now).1 = some s') : s.Later s' := by
  unfold Net.checkUdpSession at h
  dsimp only at h
  split at h <;> cases h
  have he := UdpSession.Later.expireUdp u sessions maxsessions now
  have hc := he.trans (.closeUdp _ s.socket now)
  have hl := NgSession.later_withUdp hs (hc.trans (.accountUdp _))
  exact ⟨hl.id, hl.key, hl.active⟩

theorem checkTcpSession {s s' : NgSession} {t : TcpSession} (hs : s.data = .tcp t)
    {sessions maxsessions now : Int} (h : (checkTcpSession s t sessions maxsessions now).1 = some s') :
    s.Later s' := by
  unfold Net.checkTcpSession at h
  dsimp only at h
  split at h <;> cases h
  have he := TcpSession.Later.expireTcp t sessions maxsessions now
  have hc := he.trans (.closeTcp _ s.socket now)
  have hl := NgSession.later_withTcp hs (hc.trans (.accountTcp _))
  exact ⟨hl.id, hl.key, hl.active⟩

theorem checkSession {sessions maxsessions now : Int} {s s' : NgSession}
    (h : (checkSession sessions maxsessions now s).1 = some s') : s.Later s' := by
  unfold Net.checkSession at h
  split at h
  · unfold checkIcmpSession at h
    split at h <;> cases h
    exact refl s
  · rename_i u hs
    exact checkUdpSession hs h
  · rename_i t hs
    exact checkTcpSession hs h

theorem monitorSession (calls : Nat → MonitorCalls) (s : NgSession) : s.Later (monitorSession calls s).1 := by
  unfold Net.monitorSession
  split
  · rename_i t hs
    split
    · have hm := TcpSession.Later.monitorEvents t s.socket (calls s.id)
      unfold monitorTcpSession
      dsimp only
      split
      · have hl := NgSession.later_withTcp hs (hm.trans (.closing _))
        exact ⟨hl.id, hl.key, hl.active⟩
      · have hl := NgSession.later_withTcp hs hm
        exact ⟨hl.id, hl.key, hl.active⟩
    · exact refl s
  · exact refl s

theorem checkAllowed {args : Arguments} {s s' : NgSession} (h : (checkAllowed args s).1 = some s') : s.Later s' := by
  unfold Net.checkAllowed at h
  split at h
  · rename_i i hs
    dsimp only at h
    split at h <;> cases h
    · exact NgSession.later_withIcmp hs ⟨rfl, rfl, rfl, fun _ => rfl⟩
    · exact refl s
  · rename_i u hs
    split at h
    · cases h
    · split at h <;> cases h
      · exact NgSession.later_withUdp hs (.finishing u)
      · exact refl s
  · rename_i t hs
    split at h <;> cases h
    · exact NgSession.later_withTcp hs (.writeRst t)
    · exact refl s

theorem checkTcpSocket {args : Arguments} {s : NgSession} {t : TcpSession} (hs : s.data = .tcp t)
    {calls : SocketCalls} {r : NgSession × List Output} (h : checkTcpSocket args s t calls = .ok r) :
    s.Later r.1 := by
  cases checkTcpSocket_cases h with
  | failed _ =>
    have hw := TcpSession.Later.writeRst { t with time := calls.now }
    exact NgSession.later_withTcp hs ⟨hw.flow, hw.uid, hw.closed⟩
  | connecting _ listen => exact NgSession.later_withTcp hs (.connectTcp listen calls)
  | transfer _ _ forwarded reads =>
    have hsent : t.Later (forwardTcp s.id s.socket t calls).2.1 := by
      unfold forwardTcp
      split
      · exact .forwardLoop t _ _ _ _ _
      · exact .refl t
    rw [forwarded] at hsent
    have hl := NgSession.later_withTcp hs ((hsent.trans (.ackForwarded _ _ _ calls)).trans (.readTcp reads))
    exact ⟨hl.id, hl.key, hl.active⟩

theorem socketEvent {args : Arguments} {s : NgSession} {calls : SocketCalls} {r : NgSession × List Output}
    (h : socketEvent args s calls = .ok r) : s.Later r.1 := by
  unfold Net.socketEvent at h
  split at h
  · rename_i i hs
    cases h
    exact NgSession.later_withIcmp hs (.checkIcmpSocket i calls)
  · rename_i u hs
    split at h
    · obtain ⟨r', hr, hr'⟩ := bind_eq_ok h
      cases hr'
      exact NgSession.later_withUdp hs (.checkUdpSocket hr)
    · cases h
      exact refl s
  · rename_i t hs
    exact checkTcpSocket hs h

end NgSession.Later

/-! ## Tables -/

/-- The sessions of `ctx'` come from sessions of `ctx`, each as `R` says. -/
structure Context.Follows (R : NgSession → NgSession → Prop) (ctx ctx' : Context) : Prop where
  sessions : ∃ f : NgSession → Option NgSession, ctx'.sessions = ctx.sessions.filterMap f ∧
    ∀ s ∈ ctx.sessions, ∀ s', f s = some s' → R s s'
  next : ctx.next ≤ ctx'.next

/-- The sessions of `ctx'` are later states of sessions of `ctx`. -/
abbrev Context.Kept (ctx ctx' : Context) : Prop := ctx.Follows NgSession.Kept ctx'

/-- The sessions of `ctx'` are later states of sessions of `ctx`, with the same keys. -/
abbrev Context.Later (ctx ctx' : Context) : Prop := ctx.Follows NgSession.Later ctx'

theorem Context.Follows.mono {R R' : NgSession → NgSession → Prop} {ctx ctx' : Context} (h : ctx.Follows R ctx')
    (hR : ∀ s s', R s s' → R' s s') : ctx.Follows R' ctx' where
  sessions := by
    obtain ⟨f, hf, hl⟩ := h.sessions
    exact ⟨f, hf, fun s hs s' hs' => hR s s' (hl s hs s' hs')⟩
  next := h.next

/-- Every session was there before. -/
theorem Context.Follows.mem {R : NgSession → NgSession → Prop} {ctx ctx' : Context} (h : ctx.Follows R ctx')
    {s' : NgSession} (hs : s' ∈ ctx'.sessions) : ∃ s ∈ ctx.sessions, R s s' := by
  obtain ⟨f, hf, hl⟩ := h.sessions
  rw [hf] at hs
  obtain ⟨s, hmem, hs⟩ := List.mem_filterMap.1 hs
  exact ⟨s, hmem, hl s hmem s' hs⟩

theorem Context.Kept.advance {ctx ctx' : Context} (h : ctx.Kept ctx') : Advance ctx.table ctx'.table := by
  obtain ⟨f, hf, hl⟩ := h.sessions
  refine .keep ?_ h.next
  simp only [Context.table, hf, List.map_filterMap]
  rw [← List.filterMap_eq_map']
  refine filterMap_sublist_of_le fun s hs e he => ?_
  obtain ⟨s', hs', he⟩ := Option.map_eq_some_iff.1 he
  rw [← he, (hl s hs s' hs').entry]

namespace Context.Later

theorem refl (ctx : Context) : ctx.Later ctx where
  sessions := ⟨some, by simp, fun s _ s' h => by cases h; exact .refl s⟩
  next := Nat.le_refl _

theorem discard (ctx : Context) : ctx.Later ctx.discard where
  sessions := (refl ctx).sessions
  next := Nat.le_succ _

theorem trans {a b c : Context} (h : a.Later b) (h' : b.Later c) : a.Later c where
  sessions := by
    obtain ⟨f, hf, hl⟩ := h.sessions
    obtain ⟨g, hg, hl'⟩ := h'.sessions
    refine ⟨fun s => (f s).bind g, by rw [hg, hf, List.filterMap_filterMap], fun s hs s'' hbind => ?_⟩
    obtain ⟨s', hs', hs''⟩ := Option.bind_eq_some_iff.1 hbind
    have hmem : s' ∈ b.sessions := by
      rw [hf]
      exact List.mem_filterMap.2 ⟨s, hs, hs'⟩
    exact (hl s hs s' hs').trans (hl' s' hmem s'' hs'')
  next := h.next.trans h'.next

theorem eachSession {f : NgSession → Option NgSession × List Output} (hf : ∀ {s s'}, (f s).1 = some s' → s.Later s')
    (ctx : Context) : ctx.Later { ctx with sessions := (eachSession f ctx.sessions).1 } where
  sessions := ⟨fun s => (f s).1, rfl, fun _ _ _ h => hf h⟩
  next := Nat.le_refl _

theorem kept {ctx ctx' : Context} (h : ctx.Later ctx') : ctx.Kept ctx' := h.mono fun _ _ h => h.kept

theorem advance {ctx ctx' : Context} (h : ctx.Later ctx') : Advance ctx.table ctx'.table := h.kept.advance

end Context.Later

/-- In a valid table only one session is at an address. -/
theorem eq_of_id_eq {ctx : Context} (hv : ctx.table.Valid) {s s' : NgSession} (hs : s ∈ ctx.sessions)
    (hs' : s' ∈ ctx.sessions) (h : s.id = s'.id) : s = s' := by
  have hn : (ctx.sessions.map (·.id)).Nodup := by
    have := hv.nodup
    rwa [Context.table, List.map_map] at this
  exact List.inj_on_of_nodup_map hn hs hs' h

theorem follows_update {R : NgSession → NgSession → Prop} {ctx : Context} (hv : ctx.table.Valid) {s : NgSession}
    (hs : s ∈ ctx.sessions) {f : NgSession → NgSession} (hf : R s (f s)) (hrefl : ∀ s, R s s) :
    ctx.Follows R (ctx.update s.id f) where
  sessions := by
    refine ⟨fun s' => some (if s'.id = s.id then f s' else s'), ?_, fun s' hs' s'' h => ?_⟩
    · rw [List.filterMap_eq_map']
      rfl
    · cases h
      split
      · rename_i hid
        rw [eq_of_id_eq hv hs' hs hid]
        exact hf
      · exact hrefl s'
  next := Nat.le_refl _

theorem later_update {ctx : Context} (hv : ctx.table.Valid) {s : NgSession} (hs : s ∈ ctx.sessions)
    {f : NgSession → NgSession} (hf : s.Later (f s)) : ctx.Later (ctx.update s.id f) :=
  follows_update hv hs hf .refl

theorem mem_of_findUdp {ctx : Context} {flow : Flow} {id : Nat} {u : UdpSession} (h : ctx.findUdp flow = some (id, u)) :
    u.flow = flow ∧ ∃ s ∈ ctx.sessions, s.id = id ∧ s.data = .udp u := by
  obtain ⟨s, hs, h⟩ := List.exists_of_findSome?_eq_some h
  obtain ⟨u', hu, hp⟩ := Option.map_eq_some_iff.1 h
  cases hp
  obtain ⟨hu, hflow⟩ := Option.filter_eq_some_iff.1 hu
  refine ⟨by simpa using hflow, s, hs, rfl, ?_⟩
  unfold NgSession.udp? at hu
  split at hu <;> cases hu
  assumption

theorem mem_of_findTcp {ctx : Context} {flow : Flow} {s : NgSession} {t : TcpSession}
    (h : ctx.findTcp flow = some (s, t)) : t.flow = flow ∧ s ∈ ctx.sessions ∧ s.data = .tcp t := by
  obtain ⟨s', hs, h⟩ := List.exists_of_findSome?_eq_some h
  obtain ⟨t', ht, hp⟩ := Option.map_eq_some_iff.1 h
  cases hp
  obtain ⟨ht, hflow⟩ := Option.filter_eq_some_iff.1 ht
  refine ⟨by simpa using hflow, hs, ?_⟩
  unfold NgSession.tcp? at ht
  split at ht <;> cases ht
  assumption

end SunProxy.Net
