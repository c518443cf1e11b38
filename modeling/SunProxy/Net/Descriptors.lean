/-
The descriptors of sockets that a step opens and closes. An open that fails after `socket` leaves its
descriptor behind, and nothing else does.
-/
import SunProxy.Lib.Ledger
import SunProxy.Net.Steps

namespace SunProxy.Net

open SunProxy.Buffer SunProxy.Kotlin SunProxy.Ledger SunProxy.Result

variable {args : Arguments} {ctx ctx' : Context} {acts : List Action} {calls : TunCalls}

/-! ## Opens and closes -/

def Action.use? : Action → Option (Use Int)
  | .socket fd => some (.acquire fd)
  | .output (.close fd) => some (.release fd)
  | _ => none

def uses (acts : List Action) : List (Use Int) := acts.filterMap Action.use?

theorem uses_append (acts acts' : List Action) : uses (acts ++ acts') = uses acts ++ uses acts' :=
  List.filterMap_append

def Output.IsWrite (o : Output) : Prop := ∃ packet, o = .tunWrite packet

theorem uses_map_isWrite {os : List Output} (h : ∀ o ∈ os, o.IsWrite) : uses (os.map .output) = [] := by
  rw [uses, List.filterMap_eq_nil_iff]
  intro a ha
  obtain ⟨o, ho, rfl⟩ := List.mem_map.1 ha
  obtain ⟨packet, rfl⟩ := h o ho
  rfl

theorem uses_dealt {malloc : Nat → UInt8} {flow flow' : Flow} {data : Bytes} {datalen id : Nat}
    {redirect : Option Allowed} (h : Dealt args malloc flow data datalen id redirect flow' acts) : uses acts = [] := by
  cases h <;> rfl

/-! ## Segments of a session -/

theorem isWrite_handleFin (t : TcpSession) (calls : TunCalls) : ∀ o ∈ (handleFin t calls).2, o.IsWrite := by
  unfold handleFin
  intro o ho
  split at ho
  · split at ho
    · exact ⟨_, List.mem_singleton.1 ho⟩
    · cases ho
  · exact ⟨_, List.mem_singleton.1 ho⟩
  · cases ho

theorem isWrite_handleFlags (t : TcpSession) (h : TcpHeader) (calls : TunCalls) :
    ∀ o ∈ (handleFlags t h calls).2, o.IsWrite := by
  intro o ho
  unfold handleFlags handleOtherAck at ho
  split_ifs at ho
  · cases ho
  · cases ho
  · exact isWrite_handleFin t calls o ho
  · cases ho
  · cases ho
  · cases ho
  · cases ho
  · cases ho
  · exact ⟨_, List.mem_singleton.1 ho⟩

theorem isWrite_segmentResult (t : TcpSession) (socket : Int) (h : TcpHeader) (data : Bytes) (calls : TunCalls) :
    ∀ o ∈ (segmentResult t socket h data calls).2, o.IsWrite := by
  unfold segmentResult
  split
  · intro o ho
    exact ⟨_, List.mem_singleton.1 ho⟩
  · rw [handleTcpSession_eq]
    split
    · intro o ho
      exact ⟨_, List.mem_singleton.1 ho⟩
    · exact isWrite_handleFlags _ h calls

/-! ## Failed opens -/

/-- Where a step adds no session, the same descriptors are open after it as before. -/
def LeavesNone (ctx ctx' : Context) (acts : List Action) : Prop :=
  ctx'.sessions.length = ctx.sessions.length → ∀ h, held h (uses acts) = some h

theorem leavesNone_of_uses (h : uses acts = []) : LeavesNone ctx ctx' acts := by
  intro _ fds
  rw [h, held]

/-- A descriptor that is opened is there afterwards, if nothing is closed. -/
theorem not_leavesNone {rest : List Action} (hlen : ctx'.sessions.length = ctx.sessions.length)
    (hrest : uses rest = []) (fd : Int) : ¬ LeavesNone ctx ctx' (.socket fd :: rest) := by
  intro h
  have hone : uses (.socket fd :: rest) = [.acquire fd] := by
    rw [← hrest]
    rfl
  have hheld := h hlen []
  rw [hone, held, held] at hheld
  cases hheld

/-- `protect` fails on a descriptor that `socket` gave. -/
def TunCalls.ProtectFails (calls : TunCalls) : Prop := 0 ≤ calls.socket ∧ calls.protect < 0

/-- Something fails between `socket` and the use of its descriptor in `open_tcp_socket`. -/
def TunCalls.ConnectFails (calls : TunCalls) : Prop :=
  0 ≤ calls.socket ∧ (calls.protect < 0 ∨ calls.fcntl = false ∨ calls.connect = false)

theorem leavesNone_openProtected (refused : openProtected calls = (none, acts)) :
    LeavesNone ctx ctx.discard acts ↔ ¬ calls.ProtectFails := by
  unfold openProtected at refused
  split_ifs at refused with hs hp
  · cases refused
    exact iff_of_true (leavesNone_of_uses rfl) fun h => absurd h.1 (not_le.2 hs)
  · cases refused
    exact iff_of_false (not_leavesNone rfl rfl _) fun h => h ⟨not_lt.1 hs, hp⟩
  · cases refused

theorem leavesNone_openTcpSocket {id : Nat} {flow : Flow} {redirect : Option Allowed}
    (refused : openTcpSocket id flow redirect calls = (none, acts)) :
    LeavesNone ctx ctx.discard acts ↔ ¬ calls.ConnectFails := by
  rcases openTcpSocket_none refused with hopen | ⟨hopen, hfails⟩
  · rw [leavesNone_openProtected hopen, not_iff_not]
    constructor
    · exact fun h => ⟨h.1, .inl h.2⟩
    · rintro ⟨hs, -⟩
      refine ⟨hs, ?_⟩
      unfold openProtected at hopen
      rw [if_neg (not_lt.2 hs)] at hopen
      split_ifs at hopen with hp
      · exact hp
      · cases hopen
  · obtain ⟨-, -, hs, -⟩ := openProtected_some hopen
    have hfail : calls.ConnectFails := ⟨hs, .inr (hfails.imp (fun h => h.1) fun h => h.1)⟩
    refine iff_of_false ?_ (not_not.2 hfail)
    rcases hfails with ⟨-, rfl⟩ | ⟨-, rfl⟩
    · exact not_leavesNone rfl rfl _
    · exact not_leavesNone rfl rfl _

/-- A handler that adds no session leaves a descriptor behind exactly when it gets one from `socket` for
a new flow and a later call for it fails. -/
theorem leavesNone_iff (args : Arguments) (ctx : Context) (calls : TunCalls) (ctx' : Context) (acts : List Action) :
    (∀ flow uid redirect data datalen, handleUdp args ctx flow uid redirect data datalen calls = .ok (ctx', acts) →
      (LeavesNone ctx ctx' acts ↔ ¬(ctx.findUdp flow = none ∧ calls.ProtectFails))) ∧
    (∀ pkt p uid, handleIcmp ctx pkt p uid calls = .ok (ctx', acts) →
      (LeavesNone ctx ctx' acts ↔
        ¬(load pkt.buffer p.payload = .ok 8 ∧ ctx.findIcmp p = none ∧ calls.ProtectFails))) ∧
    ∀ pkt payload flow uid allowed redirect,
      handleTcp ctx pkt payload flow uid allowed redirect calls = .ok (ctx', acts) →
      (LeavesNone ctx ctx' acts ↔ ¬(ctx.findTcp flow = none ∧
        (∃ h, readTcpHeader pkt payload = .ok h ∧ h.syn = true ∧ h.urg = false) ∧ calls.ConnectFails)) := by
  refine ⟨fun flow uid redirect data datalen h => ?_, fun pkt p uid h => ?_,
    fun pkt payload flow uid allowed redirect h => ?_⟩
  -- a session that is added holds the descriptor, and a packet of another kind opens none
  · cases handleUdp_cases h with
    | ignored found _ _ =>
      exact iff_of_true (leavesNone_of_uses rfl) fun h => by rw [found] at h; cases h.1
    | session found _ dealt _ _ =>
      exact iff_of_true (leavesNone_of_uses (uses_dealt dealt)) fun h => by rw [found] at h; cases h.1
    | failed found refused same =>
      rw [same, leavesNone_openProtected (openUdpSocket_none refused)]
      simp only [found, true_and]
    | opened found opens _ _ _ grown _ =>
      refine iff_of_true (fun hlen => ?_) fun h => absurd h.2.2 (not_lt.2 opens.2)
      omega
  · cases handleIcmp_cases h with
    | ignored other _ => exact iff_of_true (leavesNone_of_uses rfl) fun h => other h.1
    | session found _ _ => exact iff_of_true (leavesNone_of_uses rfl) fun h => by rw [found] at h; cases h.2.1
    | failed echo found refused same =>
      rw [same, leavesNone_openProtected refused]
      simp only [echo, found, true_and]
    | opened _ found opens _ _ grown _ _ =>
      refine iff_of_true (fun hlen => ?_) fun h => absurd h.2.2.2 (not_lt.2 opens.2)
      omega
  · cases handleTcp_cases h with
    | ignored header urg _ =>
      refine iff_of_true (leavesNone_of_uses rfl) ?_
      rintro ⟨-, ⟨h', header', -, hurg⟩, -⟩
      cases header.symm.trans header'
      rw [urg] at hurg
      cases hurg
    | unknown found header syn _ =>
      refine iff_of_true (leavesNone_of_uses rfl) ?_
      rintro ⟨-, ⟨h', header', hsyn, -⟩, -⟩
      cases header.symm.trans header'
      rw [syn] at hsyn
      cases hsyn
    | session found _ _ _ =>
      exact iff_of_true (leavesNone_of_uses (uses_map_isWrite (isWrite_segmentResult _ _ _ _ calls)))
        fun h => by rw [found] at h; cases h.1
    | failed found header syn urg refused same =>
      rw [same, leavesNone_openTcpSocket refused, not_iff_not]
      exact ⟨fun h => ⟨found, ⟨_, header, syn, urg⟩, h⟩, fun h => h.2.2⟩
    | opened found _ _ _ opens _ _ _ _ added =>
      obtain ⟨-, -, -, hprotect, hfcntl, hconnect⟩ := openTcpSocket_some opens
      refine iff_of_true (fun hlen => ?_) ?_
      · rw [added] at hlen
        exact absurd hlen (by simp [Context.insert])
      · rintro ⟨-, -, -, hp | hf | hc⟩
        · omega
        · rw [hfcntl] at hf; cases hf
        · rw [hconnect] at hc; cases hc

/-- The calls for a flow to where no connection can be made. -/
def TunCalls.unreachable : TunCalls := { TunCalls.working with connect := false }

theorem handleTcp_unreachable : handleTcp ⟨[], 0⟩ (segment 7 0 2 []) 20 segmentFlow 10002 true none
    .unreachable = .ok (⟨[], 1⟩, [.socket 3, .connect 0 ⟨some [8, 8, 8, 8], 443⟩]) := by
  decide +kernel

theorem leavesNone_iff_unreachable :
    LeavesNone ⟨[], 0⟩ ⟨[], 1⟩ [.socket 3, .connect 0 ⟨some [8, 8, 8, 8], 443⟩] ↔
      ¬((⟨[], 0⟩ : Context).findTcp segmentFlow = none ∧
        (∃ h, readTcpHeader (segment 7 0 2 []) 20 = .ok h ∧ h.syn = true ∧ h.urg = false) ∧
          TunCalls.unreachable.ConnectFails) :=
  (leavesNone_iff (.plain [] _ compiled_redirectAll) ⟨[], 0⟩ _ _ _).2.2 _ _ _ _ _ _ handleTcp_unreachable

/-- Its descriptor stays open. -/
theorem not_leavesNone_unreachable :
    ¬ ∀ (ctx ctx' : Context) (pkt : TunPacket) (payload : Nat) (flow : Flow) (uid : Int)
    (allowed : Bool) (redirect : Option Allowed) (calls : TunCalls) (acts : List Action),
    handleTcp ctx pkt payload flow uid allowed redirect calls = .ok (ctx', acts) → LeavesNone ctx ctx' acts := by
  intro h
  have hleaves := h _ _ _ _ _ _ _ _ _ _ handleTcp_unreachable
  refine not_leavesNone ?_ ?_ 3 hleaves
  · rfl
  · rfl

end SunProxy.Net
