/-
The other direction of a connection: what the client of a TCP session is sent. Its SYN is answered with the
number the session has drawn, what is read from the socket follows in order and without a gap, and
the end follows when all of it was sent, and once. A session that is reset or cannot write sends no more of it.
-/
import SunProxy.Lib.Stream
import SunProxy.Net.SessionRun
import SunProxy.Net.TcpWire

namespace SunProxy.Net

open SunProxy.Buffer SunProxy.Result SunProxy.Run SunProxy.Stream

variable {t t' t'' : TcpSession} {os os' : List Output} {args : Arguments}

/-! ## The segments of a client -/

/-- The segment that a client of the version finds in what is written for it: what follows the header. -/
def Output.piece? (version : Nat) : Output → Option (Piece UInt8)
  | .tunWrite packet =>
    match readTcpHeader packet (ipHeaderLength version) with
    | .ok h => some ⟨h.seq, h.syn, h.fin, packet.drop (tcpData (ipHeaderLength version) h.doff)⟩
    | .error _ => none
  | _ => none

/-- The segments that take numbers: besides acknowledgments and resets. -/
def pieces (version : Nat) (os : List Output) : List (Piece UInt8) :=
  os.filterMap fun o => (o.piece? version).filter fun p => p.numbers ≠ 0

@[simp] theorem pieces_nil (version : Nat) : pieces version [] = [] := rfl

@[simp] theorem pieces_append (version : Nat) : pieces version (os ++ os') = pieces version os ++ pieces version os' :=
  List.filterMap_append

theorem piece_tcpPacket {flow : Flow} (hform : flow.WellFormed) (hflow : t.flow = flow) (data : Bytes) (f : TcpFlags) :
    (Output.tunWrite (tcpPacket t data f)).piece? flow.version = some ⟨u32 t.localSeq, f.syn, f.fin, data⟩ := by
  subst hflow
  obtain ⟨header, check, hlen, hcheck, hpacket⟩ := tcpPacket_eq hform data f
  have hread := readTcpHeader_tcpHeader t f header check (tcpOptions t f.syn ++ data)
  have hstart : tcpData header.length (sentHeader t f).doff =
      (header ++ tcpHeader t f check ++ tcpOptions t f.syn).length := by
    simp only [List.length_append, length_tcpHeader t f hcheck, length_tcpOptions, sentHeader, tcpData, optionLength]
    cases f.syn <;> rfl
  have hdata : header ++ (tcpHeader t f check ++ (tcpOptions t f.syn ++ data)) =
      (header ++ tcpHeader t f check ++ tcpOptions t f.syn) ++ data := by simp only [List.append_assoc]
  unfold Output.piece?
  dsimp only
  rw [hpacket, ← hlen, hread]
  dsimp only
  rw [hstart, hdata, List.drop_left]
  rfl

/-- A packet with data, or for a SYN or a FIN, is a segment that takes numbers. -/
theorem pieces_write {flow : Flow} (hform : flow.WellFormed) (hflow : t.flow = flow) (data : Bytes) (f : TcpFlags)
    (htakes : f.syn = true ∨ f.fin = true ∨ data ≠ []) :
    pieces flow.version [.tunWrite (tcpPacket t data f)] = [⟨u32 t.localSeq, f.syn, f.fin, data⟩] := by
  have hnumbers : Piece.numbers ⟨u32 t.localSeq, f.syn, f.fin, data⟩ ≠ 0 := by
    unfold Piece.numbers
    rcases htakes with h | h | h
    · rw [h]
      simp
    · rw [h]
      simp
    · have hpos := List.length_pos_iff.2 h
      dsimp only
      omega
  rw [pieces, List.filterMap_cons, piece_tcpPacket hform hflow]
  simp only [Option.filter, hnumbers, ne_eq, not_false_eq_true, decide_true, if_true, List.filterMap_nil]

/-- An acknowledgment and a reset take none. -/
theorem pieces_write_none {flow : Flow} (hform : flow.WellFormed) (hflow : t.flow = flow) {f : TcpFlags}
    (hsyn : f.syn = false) (hfin : f.fin = false) : pieces flow.version [.tunWrite (tcpPacket t [] f)] = [] := by
  rw [pieces, List.filterMap_cons, piece_tcpPacket hform hflow, hsyn, hfin]
  rfl

theorem pieces_other {version : Nat} (h : ∀ o ∈ os, ∀ packet, o ≠ .tunWrite packet) : pieces version os = [] := by
  refine List.filterMap_eq_nil_iff.2 fun o ho => ?_
  cases o with
  | tunWrite packet => exact absurd rfl (h _ ho packet)
  | send | close | resolved | usage => rfl

/-! ## Quiet steps -/

/-- How far the stream for the client may be: a session waits for its socket, or sends, or sends no more. -/
inductive Phase where
  | waits | carries | ended
deriving DecidableEq, Repr

def TcpState.phase : TcpState → Phase
  | .listen => .waits
  | .synRecv | .established | .closeWait => .carries
  | .finWait1 | .lastAck | .closing | .close => .ended

theorem phase_of_isClosed (h : t.isClosed = true) : t.state.phase = .ended := by
  simp only [TcpSession.isClosed, Bool.or_eq_true, decide_eq_true_eq] at h
  rcases h with h | h <;> rw [h] <;> rfl

/-- What is done sends nothing of the stream, and leaves it where it is, or ends it. -/
structure TcpSession.Quiet (t t' : TcpSession) (os : List Output) : Prop where
  flow : t'.flow = t.flow
  mss : t'.mss = t.mss
  silent : t.flow.WellFormed → pieces t.flow.version os = []
  same : t'.state.phase = .ended ∨ t'.state.phase = t.state.phase ∧ t'.localSeq = t.localSeq ∧ t'.received = t.received

namespace TcpSession.Quiet

theorem refl (t : TcpSession) : t.Quiet t [] := ⟨rfl, rfl, fun _ => rfl, .inr ⟨rfl, rfl, rfl⟩⟩

theorem trans (h : t.Quiet t' os) (h' : t'.Quiet t'' os') : t.Quiet t'' (os ++ os') where
  flow := h'.flow.trans h.flow
  mss := h'.mss.trans h.mss
  silent := by
    intro hform
    have hsecond := h'.silent (h.flow.symm ▸ hform)
    rw [h.flow] at hsecond
    rw [pieces_append, h.silent hform, hsecond]
    rfl
  same := by
    rcases h'.same with hover | ⟨hphase, hseq, hreceived⟩
    · exact .inl hover
    · rcases h.same with hover | ⟨hphase', hseq', hreceived'⟩
      · exact .inl (hphase.trans hover)
      · exact .inr ⟨hphase.trans hphase', hseq.trans hseq', hreceived.trans hreceived'⟩

theorem cast (h : t.Quiet t' os) (heq : os = os') : t.Quiet t' os' := heq ▸ h

/-- A change of what plays no part in the stream. -/
theorem change (hflow : t'.flow = t.flow) (hmss : t'.mss = t.mss) (hphase : t'.state.phase = t.state.phase)
    (hseq : t'.localSeq = t.localSeq) (hreceived : t'.received = t.received) : t.Quiet t' [] :=
  ⟨hflow, hmss, fun _ => rfl, .inr ⟨hphase, hseq, hreceived⟩⟩

theorem ends (hflow : t'.flow = t.flow) (hmss : t'.mss = t.mss) (hover : t'.state.phase = .ended) : t.Quiet t' [] :=
  ⟨hflow, hmss, fun _ => rfl, .inl hover⟩

theorem closing (t : TcpSession) : t.Quiet (t.withState .closing) [] := ends rfl rfl rfl

/-- After a quiet step nothing but quiet things are done. -/
theorem other (h : t.Quiet t' os) (hother : ∀ o ∈ os', ∀ packet, o ≠ .tunWrite packet) : t.Quiet t' (os ++ os') :=
  h.trans ⟨rfl, rfl, fun _ => pieces_other hother, .inr ⟨rfl, rfl, rfl⟩⟩

theorem write (t : TcpSession) {f : TcpFlags} (hsyn : f.syn = false) (hfin : f.fin = false) :
    t.Quiet t [.tunWrite (tcpPacket t [] f)] :=
  ⟨rfl, rfl, fun hform => pieces_write_none hform rfl hsyn hfin, .inr ⟨rfl, rfl, rfl⟩⟩

theorem writeAck (t : TcpSession) (ok : Bool) : t.Quiet (writeAck t ok).1 [(writeAck t ok).2] := by
  have hwrite : t.Quiet t [.tunWrite (tcpPacket t [] ⟨false, true, false, false⟩)] := write t rfl rfl
  cases ok with
  | true => exact hwrite
  | false => exact hwrite.trans (closing t)

theorem writeRst (t : TcpSession) : t.Quiet (writeRst t).1 [(writeRst t).2] := by
  refine ⟨?_, mss_writeRst t, fun hform => ?_, .inl (phase_of_isClosed (isClosed_writeRst t))⟩
  · unfold Net.writeRst
    dsimp only
    split <;> split <;> rfl
  · unfold Net.writeRst
    dsimp only
    split
    · refine pieces_write_none hform ?_ rfl rfl
      rfl
    · exact pieces_write_none hform rfl rfl rfl

/-! ### Segments -/

theorem heard (t : TcpSession) (h : TcpHeader) (now : Int) : t.Quiet (t.heard h now) [] := change rfl rfl rfl rfl rfl

theorem queued (t : TcpSession) (h : TcpHeader) (data : Bytes) : t.Quiet (t.queued h data) [] := by
  unfold TcpSession.queued queueTcp
  split
  · exact refl t
  · split
    · exact refl t
    · exact change rfl rfl rfl rfl rfl

theorem handleFin (t : TcpSession) (calls : TunCalls) : t.Quiet (handleFin t calls).1 (handleFin t calls).2 := by
  have hnext : t.Quiet { t with remoteSeq := u32 (t.remoteSeq + 1) } [] := change rfl rfl rfl rfl rfl
  unfold Net.handleFin
  split
  · rename_i hs
    split
    · have hack := hnext.trans (writeAck { t with remoteSeq := u32 (t.remoteSeq + 1) } calls.tunWrite)
      cases hw : calls.tunWrite with
      | true =>
        rw [hw] at hack
        exact ⟨rfl, rfl, hack.silent, .inr ⟨by rw [hs]; rfl, rfl, rfl⟩⟩
      | false => rwa [hw] at hack
    · exact change rfl rfl (by rw [hs]; rfl) rfl rfl
  · have hack := hnext.trans (writeAck { t with remoteSeq := u32 (t.remoteSeq + 1) } calls.tunWrite)
    cases hw : calls.tunWrite with
    | true =>
      rw [hw] at hack
      exact ⟨rfl, rfl, hack.silent, .inl rfl⟩
    | false => rwa [hw] at hack
  · exact refl t

theorem handleAck (t : TcpSession) (h : TcpHeader) : t.Quiet (handleAck t h) [] := by
  unfold Net.handleAck
  dsimp only
  split
  · rename_i hs
    exact change rfl rfl (by rw [hs]; rfl) rfl rfl
  · exact ends rfl rfl rfl
  · exact change rfl rfl rfl rfl rfl

theorem handleOtherAck (t : TcpSession) (h : TcpHeader) : t.Quiet (handleOtherAck t h).1 (handleOtherAck t h).2 := by
  unfold Net.handleOtherAck
  split_ifs
  · exact refl t
  · exact refl t
  · exact change rfl rfl rfl rfl rfl
  · exact writeRst t

theorem handleFlags (t : TcpSession) (h : TcpHeader) (calls : TunCalls) :
    t.Quiet (handleFlags t h calls).1 (handleFlags t h calls).2 := by
  unfold Net.handleFlags
  split_ifs
  · exact closing t
  · exact refl t
  · exact handleFin t calls
  · exact handleAck t h
  · exact refl t
  · exact handleOtherAck t h

theorem segmentResult (t : TcpSession) (socket : Int) (h : TcpHeader) (data : Bytes) (calls : TunCalls) :
    t.Quiet (segmentResult t socket h data calls).1 (segmentResult t socket h data calls).2 := by
  have hheard := heard t h calls.now
  unfold Net.segmentResult
  split
  · exact writeRst t
  · rw [handleTcpSession_eq]
    split
    · exact hheard.trans (writeRst _)
    · exact hheard.trans ((queued _ h data).trans (handleFlags _ h calls))

/-! ### Checks -/

theorem expireTcp (t : TcpSession) (sessions maxsessions now : Int) :
    t.Quiet (expireTcp t sessions maxsessions now).1 (expireTcp t sessions maxsessions now).2 := by
  unfold Net.expireTcp
  split_ifs
  · exact closing t
  · exact writeRst t
  · exact refl t

theorem closeTcp (socket : Int) (t : TcpSession) (now : Int) :
    t.Quiet (closeTcp socket t now).2.1 (closeTcp socket t now).2.2 := by
  have hother : ∀ o ∈ if 0 ≤ socket then [Output.close socket] else [], ∀ packet, o ≠ .tunWrite packet := by
    intro o ho packet
    split at ho
    · rw [List.mem_singleton.1 ho]
      exact nofun
    · cases ho
  have hends : t.Quiet { t with time := now, state := .close } [] := ends rfl rfl rfl
  unfold Net.closeTcp
  split
  · exact hends.other hother
  · exact refl t

theorem accountTcp (t : TcpSession) : t.Quiet (accountTcp t).1 (accountTcp t).2 := by
  unfold Net.accountTcp
  split
  · rename_i hclosed
    have hover := phase_of_isClosed (Bool.and_eq_true_iff.1 hclosed).1
    exact ⟨rfl, rfl, fun _ => rfl, .inl hover⟩
  · exact refl t

theorem checkTcpSession (s : NgSession) (t : TcpSession) (sessions maxsessions now : Int) :
    ∃ t', (∀ s', (checkTcpSession s t sessions maxsessions now).1 = some s' → s'.data = .tcp t') ∧
      t.Quiet t' (checkTcpSession s t sessions maxsessions now).2 := by
  have hquiet := ((expireTcp t sessions maxsessions now).trans (closeTcp s.socket _ now)).trans (accountTcp _)
  refine ⟨_, ?_, hquiet.cast ?_⟩
  · intro s' hs'
    unfold Net.checkTcpSession at hs'
    dsimp only at hs'
    split at hs'
    · cases hs'
    · cases hs'
      rfl
  · unfold Net.checkTcpSession
    dsimp only
    split <;> rfl

theorem keepAlive (t : TcpSession) (calls : MonitorCalls) : t.Quiet (keepAlive t calls).1 (keepAlive t calls).2 := by
  have hback : t.Quiet { t with lastKeepAlive := calls.ms, remoteSeq := sub32 t.remoteSeq 1 } [] :=
    change rfl rfl rfl rfl rfl
  unfold Net.keepAlive
  split
  · have hack := hback.trans
      (writeAck { t with lastKeepAlive := calls.ms, remoteSeq := sub32 t.remoteSeq 1 } calls.tunWrite)
    exact hack.trans (change rfl rfl rfl rfl rfl)
  · exact refl t

theorem monitorTcpSession (s : NgSession) (t : TcpSession) (calls : MonitorCalls) :
    ∃ t', (monitorTcpSession s t calls).1.data = .tcp t' ∧ t.Quiet t' (monitorTcpSession s t calls).2 := by
  have hevents : t.Quiet (monitorEvents t s.socket calls).2.1 (monitorEvents t s.socket calls).2.2 := by
    rcases monitorEvents_cases t s.socket calls with h | ⟨-, h⟩ <;> rw [h]
    · exact refl t
    · exact keepAlive t calls
  unfold Net.monitorTcpSession
  generalize monitorEvents t s.socket calls = r at hevents ⊢
  refine ⟨_, rfl, ?_⟩
  split
  · have hclosed := hevents.trans (closing r.2.1)
    rwa [List.append_nil] at hclosed
  · exact hevents

/-! ### Sockets -/

theorem forwardTcp (id : Nat) (socket : Int) (t : TcpSession) (calls : SocketCalls) :
    t.Quiet (forwardTcp id socket t calls).2.1 (forwardTcp id socket t calls).2.2 := by
  unfold Net.forwardTcp
  split
  · refine forwardLoop_induction (Q := fun t t' os => t.Quiet t' os) (fun t queue => ?_) (fun t queue => ?_)
      (fun t queue n remoteSeq bytes t' os ih => ?_) (fun t queue n bytes => ?_) t.forward 0 _ t
    · exact change rfl rfl rfl rfl rfl
    · have hqueue : t.Quiet { t with forward := queue } [] := change rfl rfl rfl rfl rfl
      exact hqueue.trans (writeRst _)
    · have hsent : t.Quiet { t with forward := queue, sent := t.sent + n, remoteSeq := remoteSeq } [.send id bytes] :=
        ⟨rfl, rfl, fun _ => rfl, .inr ⟨rfl, rfl, rfl⟩⟩
      exact hsent.trans ih
    · exact ⟨rfl, rfl, fun _ => rfl, .inr ⟨rfl, rfl, rfl⟩⟩
  · exact refl t

theorem ackForwarded (t : TcpSession) (socket : Int) (fwd : Bool) (calls : SocketCalls) :
    t.Quiet (ackForwarded t socket fwd calls).1 (ackForwarded t socket fwd calls).2 := by
  have hack : ∀ u : TcpSession, t.Quiet u [] → t.Quiet (if calls.tunWrite 0 then
      { (Net.writeAck u (calls.tunWrite 0)).1 with time := calls.now } else (Net.writeAck u (calls.tunWrite 0)).1)
      [(Net.writeAck u (calls.tunWrite 0)).2] := by
    intro u hu
    have hwrite := hu.trans (writeAck u (calls.tunWrite 0))
    split
    · exact hwrite.trans (change rfl rfl rfl rfl rfl)
    · exact hwrite
  unfold Net.ackForwarded
  dsimp only
  split
  · apply hack
    split <;> exact change rfl rfl rfl rfl rfl
  · exact change rfl rfl rfl rfl rfl

end TcpSession.Quiet

/-! ## The stream -/

/-- Where the stream for the client is, and the segments it was sent. -/
inductive ToClient (start mss : Nat) (stream : Bytes) (t : TcpSession) (ps : List (Piece UInt8)) : Prop
  | waits (phase : t.state.phase = .waits) (mss : t.mss = mss) (seq : t.localSeq = start) (received : t.received = 0) (none : ps = [])
  | carries (phase : t.state.phase = .carries) (mss : t.mss = mss)
      (seq : t.localSeq = (start + total ps) % 4294967296) (sent : SentOf 4294967296 start stream ps) (begun : ps ≠ [])
      (inner : ∀ q ∈ ps, q.last = false) (content : contents ps = stream.take t.received)
  | ended (phase : t.state.phase = .ended) (sent : SentOf 4294967296 start stream ps)

variable {start mss : Nat} {stream : Bytes} {ps : List (Piece UInt8)} {calls : SocketCalls}

theorem ToClient.sentOf (h : ToClient start mss stream t ps) : SentOf 4294967296 start stream ps := by
  cases h with
  | waits _ _ _ _ none => exact none ▸ .nil _ _ _
  | carries _ _ _ sent _ _ _ => exact sent
  | ended _ sent => exact sent

theorem ToClient.quiet (h : ToClient start mss stream t ps) (hquiet : t.Quiet t' os) (hform : t.flow.WellFormed) :
    ToClient start mss stream t' (ps ++ pieces t.flow.version os) := by
  rw [hquiet.silent hform, List.append_nil]
  rcases hquiet.same with hover | ⟨hphase, hseq, hreceived⟩
  · exact .ended hover h.sentOf
  · cases h with
    | waits phase mss seq received none =>
      exact .waits (hphase.trans phase) (hquiet.mss.trans mss) (hseq.trans seq) (hreceived.trans received) none
    | carries phase mss seq sent begun inner content =>
      exact .carries (hphase.trans phase) (hquiet.mss.trans mss) (hseq.trans seq) sent begun inner (hreceived ▸ content)
    | ended phase sent => exact .ended (hphase.trans phase) sent

/-- What `recv` gives of the MSS it is asked for at most is what is next of the stream. It gives nothing when it is
asked for nothing, or when the stream is at its end. -/
def TcpSession.ReadsFrom (stream : Bytes) (t : TcpSession) (calls : SocketCalls) : Prop :=
  ∀ bytes, calls.recv = .data bytes → bytes.take t.mss <+: stream.drop t.received ∧
    (bytes.take t.mss = [] → t.mss = 0 ∨ stream.drop t.received = [])

/-- What is read of a stream with this MSS. -/
def readable (mss : Nat) (stream : Bytes) : Bytes := if mss = 0 then [] else stream

/-- What `recv` gives is next of what can be read, and nothing at its end alone. -/
theorem TcpSession.ReadsFrom.next (h : t.ReadsFrom stream calls) {bytes : Bytes} (hrecv : calls.recv = .data bytes) :
    bytes.take t.mss <+: (readable t.mss stream).drop t.received ∧
      (bytes.take t.mss = [] → (readable t.mss stream).drop t.received = []) := by
  obtain ⟨hnext, hend⟩ := h bytes hrecv
  unfold readable
  split
  · rename_i hmss
    rw [hmss, List.take_zero, List.drop_nil]
    exact ⟨List.prefix_refl _, fun _ => rfl⟩
  · rename_i hmss
    exact ⟨hnext, fun hnil => (hend hnil).resolve_left hmss⟩

/-- The SYN of the client is answered once, with the first number. -/
theorem ToClient.connectTcp (h : ToClient start mss stream t ps) (hform : t.flow.WellFormed) (hlisten : t.state = .listen)
    (calls : SocketCalls) :
    ToClient start mss stream (connectTcp t calls).1 (ps ++ pieces t.flow.version (connectTcp t calls).2) := by
  unfold Net.connectTcp
  split
  · have hsocks : t.Quiet { t with socks5 := .none } [] := .change rfl rfl rfl rfl rfl
    exact h.quiet (hsocks.trans (.writeRst _)) hform
  · split
    · cases h with
      | carries phase | ended phase =>
        rw [hlisten] at phase
        cases phase
      | waits phase mss seq received none =>
        subst none
        obtain ⟨u, hu⟩ : ∃ u, u = { t with socks5 := .connected, remoteSeq := u32 (t.remoteSeq + 1) } := ⟨_, rfl⟩
        -- the SYN-ACK is the first piece, and it has the number that was drawn
        have hpiece : pieces t.flow.version [(writeSynAck u (calls.tunWrite 0)).2] =
            [⟨u32 t.localSeq, true, false, []⟩] := by
          have hflow : u.flow = t.flow := by rw [hu]
          have hseq : u.localSeq = t.localSeq := by rw [hu]
          rw [← hseq]
          exact pieces_write hform hflow [] ⟨true, true, false, false⟩ (.inl rfl)
        rw [hu] at hpiece
        have hsent : SentOf 4294967296 start stream [⟨u32 t.localSeq, true, false, []⟩] := by
          rw [seq, u32]
          exact .opening 4294967296 start stream
        rw [List.nil_append, hpiece]
        cases hw : calls.tunWrite 0 with
        | true =>
          refine .carries rfl mss ?_ hsent (List.cons_ne_nil _ _) ?_ ?_
          · rw [total_singleton, ← seq]
            rfl
          · intro q hq
            rw [List.mem_singleton.1 hq]
          · rw [contents_singleton]
            show [] = stream.take t.received
            rw [received]
            rfl
        | false => exact .ended rfl hsent
    · exact h.quiet (.refl t) hform

/-- A read is written as it is, besides over port 53. -/
theorem receiveTcp_other (hdns : t.flow.dest ≠ 53) (bytes : Bytes) (calls : SocketCalls) :
    receiveTcp args t bytes calls = .ok
      (if calls.tunWrite 1 then
        { t with received := t.received + bytes.length, localSeq := u32 (t.localSeq + bytes.length)
                 unconfirmed := (t.unconfirmed + 1) % 65536 }
       else { t with received := t.received + bytes.length, state := .closing },
       [.tunWrite (tcpPacket { t with received := t.received + bytes.length } bytes ⟨false, true, false, false⟩)]) := by
  have hreply : processTcpDns args t.flow bytes = .ok (.unchanged [] (bytes.drop 2)) := by
    rw [processTcpDns, if_neg fun hd => hdns hd.1]
  have hjoin : bytes.take 2 ++ (DnsReply.unchanged [] (bytes.drop 2)).data = bytes := List.take_append_drop 2 bytes
  unfold Net.receiveTcp
  simp only [hreply, hjoin, bind, Except.bind, pure, Except.pure]
  cases calls.tunWrite 1 <;> rfl

/-- A read of some bytes is one segment more, and one of none is no segment. -/
theorem SentOf.read (h : SentOf 4294967296 start stream ps) (begun : ps ≠ []) (inner : ∀ q ∈ ps, q.last = false)
    (hform : t.flow.WellFormed) (hseq : t.localSeq = (start + total ps) % 4294967296) {bytes : Bytes}
    (hnext : contents ps ++ bytes <+: stream) :
    ∃ qs, pieces t.flow.version [.tunWrite (tcpPacket t bytes ⟨false, true, false, false⟩)] = qs ∧
    total qs = bytes.length ∧
      contents qs = bytes ∧ (∀ q ∈ qs, q.last = false) ∧ SentOf 4294967296 start stream (ps ++ qs) := by
  by_cases hbytes : bytes = []
  · subst hbytes
    refine ⟨[], pieces_write_none hform rfl rfl rfl, rfl, rfl, fun _ h => absurd h List.not_mem_nil, ?_⟩
    rwa [List.append_nil]
  · refine ⟨_, pieces_write hform rfl bytes _ (.inr (.inr hbytes)), ?_, ?_, ?_, ?_⟩
    · simp only [total_singleton, Piece.numbers, Bool.toNat_false, Nat.zero_add, Nat.add_zero]
    · rw [contents_singleton]
    · intro q hq
      rw [List.mem_singleton.1 hq]
    · refine h.snoc inner ?_ (iff_of_false Bool.false_ne_true begun) hnext fun h => absurd h Bool.false_ne_true
      rw [hseq, u32, Nat.mod_mod]

/-- The data of a read are the next of the stream. -/
theorem ToClient.receiveTcp (h : ToClient start mss stream t ps) (hform : t.flow.WellFormed) (hdns : t.flow.dest ≠ 53)
    (hphase : t.state.phase = .carries) {bytes : Bytes} (hbytes : bytes <+: stream.drop t.received)
    {r : TcpSession × List Output} (hr : receiveTcp args t bytes calls = .ok r) :
    ToClient start mss stream r.1 (ps ++ pieces t.flow.version r.2) := by
  rw [receiveTcp_other hdns] at hr
  cases hr
  cases h with
  | waits phase | ended phase =>
    rw [hphase] at phase
    cases phase
  | carries _ mss seq sent begun inner content =>
    have hnext : contents ps ++ bytes = stream.take (t.received + bytes.length) := by
      rw [content, List.take_add, ← List.prefix_iff_eq_take.1 hbytes]
    obtain ⟨qs, hqs, htotal, hcontents, hopen, hsent⟩ :=
      SentOf.read (t := { t with received := t.received + bytes.length }) sent begun inner hform seq
        (hnext ▸ List.take_prefix _ _)
    dsimp only at hqs ⊢
    rw [hqs]
    cases hw : calls.tunWrite 1 with
    | false => exact .ended rfl hsent
    | true =>
      refine .carries hphase mss ?_ hsent (List.append_ne_nil_of_left_ne_nil begun _) ?_ ?_
      · show u32 (t.localSeq + bytes.length) = _
        rw [seq, total_append, htotal, u32, Nat.mod_add_mod, Nat.add_assoc]
      · intro q hq
        exact (List.mem_append.1 hq).elim (inner q) (hopen q)
      · rw [contents_append, hcontents]
        exact hnext

/-- The end follows when all of the stream was sent. -/
theorem ToClient.finishTcp (h : ToClient start mss stream t ps) (hform : t.flow.WellFormed)
    (hsends : t.state = .established ∨ t.state = .closeWait) (hend : stream.drop t.received = [])
    (calls : SocketCalls) :
    ToClient start mss stream (finishTcp t calls).1 (ps ++ pieces t.flow.version (finishTcp t calls).2) := by
  have hphase : t.state.phase = .carries := by rcases hsends with hs | hs <;> rw [hs] <;> rfl
  unfold Net.finishTcp
  split
  · cases h with
    | waits phase | ended phase =>
      rw [hphase] at phase
      cases phase
    | carries _ _ seq sent begun inner content =>
      have hall : contents ps = stream := by
        rw [content]
        exact List.take_of_length_le (List.drop_eq_nil_iff.1 hend)
      have hpiece := pieces_write hform rfl [] ⟨false, true, true, false⟩ (.inr (.inl rfl))
      have hsent : SentOf 4294967296 start stream (ps ++ [⟨u32 t.localSeq, false, true, []⟩]) := by
        refine sent.snoc inner ?_ (iff_of_false Bool.false_ne_true begun) ?_ fun _ => ?_
        · rw [seq, u32, Nat.mod_mod]
        · rw [List.append_nil, hall]
        · rw [List.append_nil, hall]
      refine .ended ?_ (hpiece ▸ hsent)
      cases hw : calls.tunWrite 1 with
      | true => rcases hsends with hs | hs <;> simp only [writeFinAck, writeOrClose, hs, if_true] <;> rfl
      | false => rfl
  · exact h.quiet (.writeRst t) hform

theorem ToClient.mss_eq (h : ToClient start mss stream t ps) (hphase : t.state.phase = .carries) : t.mss = mss := by
  cases h with
  | waits phase | ended phase =>
    rw [hphase] at phase
    cases phase
  | carries _ mss => exact mss

theorem ToClient.readTcp (h : ToClient start mss (readable mss stream) t ps) (hform : t.flow.WellFormed) (hdns : t.flow.dest ≠ 53)
    (hreads : t.state.phase = .carries → t.ReadsFrom stream calls) {socket : Int} {r : Int × TcpSession × List Output}
    (hr : readTcp args t socket calls = .ok r) :
    ToClient start mss (readable mss stream) r.2.1 (ps ++ pieces t.flow.version r.2.2) := by
  have htime : t.Quiet { t with time := calls.now } [] := .change rfl rfl rfl rfl rfl
  have hstarted : ToClient start mss (readable mss stream) { t with time := calls.now } ps := by
    have hquiet := h.quiet htime hform
    rwa [pieces_nil, List.append_nil] at hquiet
  unfold Net.readTcp at hr
  dsimp only at hr
  split at hr
  · rename_i hread
    have hphase : t.state.phase = .carries := by rcases hread.1 with hs | hs <;> rw [hs] <;> rfl
    split at hr
    · cases hr
      exact h.quiet htime hform
    · cases hr
      exact h.quiet (htime.trans (.writeRst _)) hform
    · rename_i bytes hrecv
      obtain ⟨hbytes, hend⟩ := (hreads hphase).next hrecv
      obtain rfl := h.mss_eq hphase
      -- the window is open, so it cuts what the MSS leaves of the read, but not to nothing
      have hcut : bytes.take (min (getSendWindow t) t.mss) = (bytes.take t.mss).take (getSendWindow t) :=
        (List.take_take ..).symm
      split at hr
      · rename_i hnil
        cases hr
        have hnone : bytes.take t.mss = [] := by
          rw [hcut, List.take_eq_nil_iff] at hnil
          exact hnil.resolve_left hread.2.2.ne'
        have hfinished := hstarted.finishTcp hform hread.1 (hend hnone) calls
        have hclose : pieces t.flow.version [.close socket] = [] := rfl
        rw [pieces_append, hclose, List.append_nil]
        exact hfinished
      · obtain ⟨r', hr', hr⟩ := bind_eq_ok hr
        cases hr
        have hnext := (List.take_prefix (getSendWindow t) (bytes.take t.mss)).trans hbytes
        exact hstarted.receiveTcp hform hdns hphase (hcut ▸ hnext) hr'
  · cases hr
    rwa [pieces_nil, List.append_nil]

theorem ToClient.checkTcpSocket (h : ToClient start mss (readable mss stream) t ps) (hform : t.flow.WellFormed)
    (hdns : t.flow.dest ≠ 53) (hreads : t.ReadsFrom stream calls) {s : NgSession} {r : NgSession × List Output}
    (hr : checkTcpSocket args s t calls = .ok r) :
    ∃ t', r.1.data = .tcp t' ∧ ToClient start mss (readable mss stream) t' (ps ++ pieces t.flow.version r.2) := by
  cases checkTcpSocket_cases hr with
  | failed _ =>
    have htime : t.Quiet { t with time := calls.now } [] := .change rfl rfl rfl rfl rfl
    have hquiet := htime.trans (.writeRst { t with time := calls.now })
    exact ⟨_, rfl, h.quiet hquiet hform⟩
  | connecting _ listen => exact ⟨_, rfl, h.connectTcp hform listen calls⟩
  | @transfer fwd t₁ sent r' _ listen forwarded reads =>
    have hloop : t.Quiet t₁ sent := by
      have hquiet : t.Quiet (forwardTcp s.id s.socket t calls).2.1 (forwardTcp s.id s.socket t calls).2.2 :=
        .forwardTcp s.id s.socket t calls
      rwa [forwarded] at hquiet
    have hack := hloop.trans (.ackForwarded t₁ s.socket fwd calls)
    have hform' := hack.flow.symm ▸ hform
    have hafter := (h.quiet hack hform).readTcp hform' (hack.flow.symm ▸ hdns) ?_ reads
    · refine ⟨_, rfl, ?_⟩
      rw [hack.flow] at hafter
      rw [pieces_append, ← List.append_assoc]
      exact hafter
    · -- as long as it is not ended, as much was read as before
      intro hphase bytes hrecv
      rcases hack.same with hover | ⟨-, -, hreceived⟩
      · rw [hphase] at hover
        cases hover
      · rw [hreceived, hack.mss]
        exact hreads bytes hrecv

/-! ## Runs -/

/-- The reads that come with an event give what is next of the stream. -/
def SessionEvent.ReadsFrom (stream : Bytes) (t : TcpSession) : SessionEvent → Prop
  | .socket calls => t.ReadsFrom stream calls
  | _ => True

theorem toClient_step {s : NgSession} {e : SessionEvent} {r : Option NgSession × List Output} (hdata : s.data = .tcp t)
    (h : ToClient start mss (readable mss stream) t ps) (hform : t.flow.WellFormed) (hdns : t.flow.dest ≠ 53)
    (hreads : e.ReadsFrom stream t) (hr : s.step args e = .ok r) :
    ∃ t', (∀ s', r.1 = some s' → s'.data = .tcp t') ∧
      ToClient start mss (readable mss stream) t' (ps ++ pieces t.flow.version r.2) := by
  cases e with
  | segment header data calls =>
    cases hr
    simp only [keep, NgSession.receive, hdata]
    refine ⟨_, ?_, h.quiet (.segmentResult t s.socket header data calls) hform⟩
    rintro _ ⟨⟩
    rfl
  | monitor calls =>
    cases hr
    simp only [keep, monitorSession, hdata]
    split
    · obtain ⟨t', ht', hquiet⟩ := TcpSession.Quiet.monitorTcpSession s t calls
      exact ⟨t', by rintro _ ⟨⟩; exact ht', h.quiet hquiet hform⟩
    · exact ⟨t, by rintro _ ⟨⟩; exact hdata, h.quiet (.refl t) hform⟩
  | check sessions now =>
    cases hr
    simp only [checkSession, hdata]
    obtain ⟨t', ht', hquiet⟩ := TcpSession.Quiet.checkTcpSession s t sessions args.maxsessions now
    exact ⟨t', ht', h.quiet hquiet hform⟩
  | socket calls =>
    simp only [NgSession.step] at hr
    split at hr
    -- only the socket brings data; all other events write acknowledgments and resets
    · obtain ⟨r', hr', hr⟩ := bind_eq_ok hr
      cases hr
      simp only [socketEvent, hdata] at hr'
      obtain ⟨t', ht', hafter⟩ := h.checkTcpSocket hform hdns hreads hr'
      exact ⟨t', by rintro _ ⟨⟩; exact ht', hafter⟩
    · cases hr
      exact ⟨t, by rintro _ ⟨⟩; exact hdata, h.quiet (.refl t) hform⟩
  | checkAllowed =>
    cases hr
    simp only [checkAllowed, hdata]
    split
    · exact ⟨_, by rintro _ ⟨⟩; rfl, h.quiet (.writeRst t) hform⟩
    · exact ⟨t, by rintro _ ⟨⟩; exact hdata, h.quiet (.refl t) hform⟩
  | clear =>
    cases hr
    -- clearing closes the socket, and writes nothing
    refine ⟨t, by rintro _ ⟨⟩, h.quiet ⟨rfl, rfl, fun _ => pieces_other fun o ho packet => ?_, .inr ⟨rfl, rfl, rfl⟩⟩ hform⟩
    unfold clearSession at ho
    dsimp only at ho
    split at ho
    · rw [List.mem_singleton.1 ho]
      intro heq
      cases heq
    · cases ho

/-- The flow of a session never changes. -/
theorem NgSession.Later.flow_eq {s s' : NgSession} (h : s.Later s') (hdata : s.data = .tcp t)
    (hdata' : s'.data = .tcp t') :
    t'.flow = t.flow := by
  have hkey : s'.data.key = s.data.key := h.key
  rw [hdata, hdata'] at hkey
  exact (Key.tcp.inj hkey).1

/-- What a trace holds of the stream for the client. -/
def SessionTrace.StreamsTo (flow : Flow) (start mss : Nat) (stream : Bytes) (tr : SessionTrace) : Prop :=
  ∃ t, ToClient start mss (readable mss stream) t (pieces flow.version tr.outputs) ∧
    ∀ s, tr.session = some s → s.data = .tcp t ∧ t.flow = flow

/-- What is asked of the reads of a trace. -/
def SessionTrace.ReadsFrom (stream : Bytes) (tr : SessionTrace) (e : SessionEvent) : Prop :=
  ∀ s t, tr.session = some s → s.data = .tcp t → e.ReadsFrom stream t

theorem SessionTrace.StreamsTo.step {flow : Flow} {tr tr' : SessionTrace} {e : SessionEvent}
    (h : tr.StreamsTo flow start mss stream) (hform : flow.WellFormed) (hdns : flow.dest ≠ 53)
    (hreads : tr.ReadsFrom stream e) (hstep : tr.step args e = .ok tr') :
    tr'.StreamsTo flow start mss stream := by
  obtain ⟨t, hclient, hsession⟩ := h
  cases hs : tr.session with
  | none =>
    rw [step_of_none hs] at hstep
    cases hstep
    exact ⟨t, hclient, hsession⟩
  | some s =>
    obtain ⟨hdata, rfl⟩ := hsession s hs
    obtain ⟨r, hr, rfl⟩ := step_of_session hs hstep
    obtain ⟨t', ht', hafter⟩ := toClient_step hdata hclient hform hdns (hreads s t hs hdata) hr
    refine ⟨t', ?_, fun s' hs' => ⟨ht' s' hs', (later_step hr s' hs').flow_eq hdata (ht' s' hs')⟩⟩
    rw [pieces_append]
    exact hafter

/-- In every run of a session, besides over port 53, its client is sent the stream of the server: the answer
to its SYN, what was read one after another in segments numbered without a gap, and the end only after
all of it. With an MSS of 0 the server is asked for no byte, and the end follows the answer to the SYN. -/
theorem sentOf_sessionStates (args : Arguments) (id : Nat) (flow : Flow) (h : TcpHeader) (mss ws : Nat) (uid : Int)
    (data : Bytes) (calls : TunCalls) (window : Nat) (socket : Int) (stream : Bytes) (events : List SessionEvent)
    (hform : flow.WellFormed) (hdns : flow.dest ≠ 53)
    (hreads : EveryStep (stepOk (SessionTrace.step args)) (fun r e => OnOk (fun tr => tr.ReadsFrom stream e) r)
      (.ok ⟨some (openedSession id flow h mss ws uid data calls window socket), []⟩) events) :
    ∀ r ∈ sessionStates args (openedSession id flow h mss ws uid data calls window socket) events,
      OnOk (fun tr => SentOf 4294967296 (u32 calls.rand) (readable mss stream) (pieces flow.version tr.outputs)) r := by
  have hopened : SessionTrace.StreamsTo flow (u32 calls.rand) mss stream
      ⟨some (openedSession id flow h mss ws uid data calls window socket), []⟩ := by
    refine ⟨{ newTcpSession flow h mss ws uid data calls with recvWindow := window }, .waits rfl rfl rfl rfl rfl, ?_⟩
    rintro _ ⟨⟩
    exact ⟨rfl, rfl⟩
  have hruns := onOk_states (fun _ => True) (SessionTrace.StreamsTo flow (u32 calls.rand) mss stream)
    (fun _ _ _ _ _ => trivial) (fun tr e tr' _ hs hread hstep => hs.step hform hdns hread hstep) trivial hopened hreads
  intro r hr tr htr
  obtain ⟨t, hclient, -⟩ := hruns r hr tr htr
  exact hclient.sentOf

/-- A read of three bytes, and one that finds the end. -/
def readEnd : List SessionEvent :=
  [.socket { SocketCalls.taking 0 with input := true, output := false, recv := .data [72, 84, 84] },
    .socket { SocketCalls.taking 0 with input := true, output := false, recv := .data [] }]

theorem sentOf_sessionStates_read :
    (plainRun (plainSession []) (handshake ++ readEnd)).map (fun tr => pieces 4 tr.outputs) =
      .ok [⟨0, true, false, []⟩, ⟨1, false, false, [72, 84, 84]⟩, ⟨4, false, true, []⟩] ∧
    ∀ r ∈ sessionStates (.plain [] _ compiled_redirectAll) (plainSession []) (handshake ++ readEnd),
      OnOk (fun tr => SentOf 4294967296 0 [72, 84, 84] (pieces 4 tr.outputs)) r := by
  have hreceived : ∀ (events : List SessionEvent) (n : Nat), (plainRun (plainSession []) events).map
      (fun tr => (tr.session.bind NgSession.tcp?).map fun t => (t.received, t.mss)) = .ok (some (n, 1460)) →
      OnOk (fun tr => ∀ s t, tr.session = some s → s.data = .tcp t → t.received = n ∧ t.mss = 1460)
        (plainRun (plainSession []) events) := by
    intro events n h tr htr s t hs ht
    rw [htr] at h
    obtain ⟨u, hu, hn⟩ := Option.map_eq_some_iff.1 (Except.ok.inj h)
    rw [hs, Option.bind_some, NgSession.tcp?, ht] at hu
    cases hu
    exact Prod.mk.inj hn
  refine ⟨by decide +kernel, sentOf_sessionStates _ 0 segmentFlow (plainHeader 100 0 false true false) 1460 0 10002 []
    .working 65535 3 [72, 84, 84] _ (by decide) (by decide) ⟨?_, ?_, ?_, ?_, trivial⟩⟩
  · exact fun _ _ _ _ _ _ => nofun
  · exact fun _ _ _ _ _ _ => trivial
  · intro tr htr s t hs ht bytes hbytes
    cases hbytes
    obtain ⟨hnone, hmss⟩ := hreceived handshake 0 (by decide +kernel) tr htr s t hs ht
    rw [hnone, hmss]
    exact ⟨List.prefix_refl _, nofun⟩
  · intro tr htr s t hs ht bytes hbytes
    cases hbytes
    obtain ⟨hthree, hmss⟩ := hreceived (handshake ++ [readEnd.head (by decide)]) 3 (by decide +kernel) tr htr s t hs ht
    rw [hthree, hmss]
    exact ⟨List.nil_prefix, fun _ => .inr rfl⟩

end SunProxy.Net
