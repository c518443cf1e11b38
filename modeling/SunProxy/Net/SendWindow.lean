/-
The send window of a TCP session, against what its client can still take: the window it announced less
the bytes in flight and the headers of the packets that carry them. `get_send_window` counts 65536
bytes too many once the local number has wrapped and the acknowledged one has not.
-/
import SunProxy.Net.SerialOrder
import SunProxy.Net.TcpWire

namespace SunProxy.Net

open SunProxy.Serial

variable {t : TcpSession} {c : Nat}

/-! ## What the client can take -/

/-- The bytes sent to the client that it has not acknowledged. -/
def TcpSession.inflight (t : TcpSession) : Nat := gap 4294967296 t.acked t.localSeq

/-- The bytes in flight with the largest headers they may have, and those of one packet more. -/
def TcpSession.behind (t : TcpSession) : Nat := t.inflight + 40 * (t.unconfirmed + 1)

/-- The bytes the client can still take. -/
def TcpSession.available (t : TcpSession) : Nat := t.sendWindow - t.behind

/-- The session with its numbers moved. -/
def TcpSession.moved (t : TcpSession) (c : Nat) : TcpSession :=
  { t with localSeq := (t.localSeq + c) % 4294967296, acked := (t.acked + c) % 4294967296 }

/-- What the send window is computed from has the values of its types. -/
structure TcpSession.Counts (t : TcpSession) : Prop where
  acked : t.acked < 4294967296
  localSeq : t.localSeq < 4294967296
  sendWindow : t.sendWindow < 4294967296
  unconfirmed : t.unconfirmed < 65536

theorem TcpSession.Counts.moved (h : t.Counts) (c : Nat) : (t.moved c).Counts :=
  ⟨Nat.mod_lt _ (by decide), Nat.mod_lt _ (by decide), h.sendWindow, h.unconfirmed⟩

/-- Moving the numbers changes nothing for the client. -/
theorem available_moved (h : t.Counts) (c : Nat) : (t.moved c).available = t.available := by
  have hinflight : (t.moved c).inflight = t.inflight := gap_translate h.acked t.localSeq c
  unfold TcpSession.available TcpSession.behind
  rw [hinflight]
  rfl

/-! ## What is computed -/

/-- What `get_send_window` counts besides. -/
def TcpSession.surplus (t : TcpSession) : Nat := if t.acked ≤ t.localSeq then 0 else 65536

theorem getSendWindow_eq (h : t.Counts) : getSendWindow t = t.sendWindow - (t.behind + t.surplus) % 4294967296 := by
  obtain ⟨hacked, hlocal, -, -⟩ := h
  have hbehind : u32 ((if t.acked ≤ t.localSeq then t.localSeq - t.acked else sub32 (0x10000 + t.localSeq) t.acked) +
      (t.unconfirmed + 1) * 40) = (t.behind + t.surplus) % 4294967296 := by
    unfold TcpSession.behind TcpSession.inflight TcpSession.surplus
    split_ifs with hle
    · rw [gap_u32_of_le hle hlocal, u32]
      omega
    · rw [gap_u32_of_lt (Nat.lt_of_not_le hle) hacked, u32, sub32]
      omega
  unfold getSendWindow
  dsimp only
  rw [hbehind]
  split_ifs <;> omega

/-- The window is right when nothing is counted besides and the sum fits; or no byte can be taken, and
none is left either by what is counted, which may be past 32 bits. -/
def TcpSession.Reckoned (t : TcpSession) : Prop :=
  t.acked ≤ t.localSeq ∧ t.behind < 4294967296 ∨
    t.sendWindow ≤ t.behind ∧ (4294967296 ≤ t.behind + t.surplus → t.sendWindow + 4294967296 ≤ t.behind + t.surplus)

instance (t : TcpSession) : Decidable t.Reckoned := inferInstanceAs (Decidable (_ ∨ _))

theorem getSendWindow_eq_available_iff (h : t.Counts) : getSendWindow t = t.available ↔ t.Reckoned := by
  rw [getSendWindow_eq h]
  have hinflight : t.inflight < 4294967296 := gap_lt (by decide) _ _
  obtain ⟨-, -, hwindow, hunconfirmed⟩ := h
  have hbehind : t.behind < 4294967296 + 2621440 := by
    unfold TcpSession.behind
    omega
  unfold TcpSession.available TcpSession.Reckoned TcpSession.surplus
  split_ifs with hle
  · omega
  · omega

/-- The send window is what the client can take, and stays so when the numbers are moved. -/
structure SendWindowRight (t : TcpSession) (c : Nat) : Prop where
  value : getSendWindow t = t.available
  moved : getSendWindow (t.moved c) = getSendWindow t

theorem sendWindowRight_iff (h : t.Counts) : SendWindowRight t c ↔ t.Reckoned ∧ (t.moved c).Reckoned := by
  constructor
  · rintro ⟨hvalue, hmoved⟩
    refine ⟨(getSendWindow_eq_available_iff h).1 hvalue, (getSendWindow_eq_available_iff (h.moved c)).1 ?_⟩
    rw [hmoved, hvalue, available_moved h]
  · rintro ⟨hstays, hmoves⟩
    have hvalue := (getSendWindow_eq_available_iff h).2 hstays
    have hmoved := (getSendWindow_eq_available_iff (h.moved c)).2 hmoves
    refine ⟨hvalue, ?_⟩
    rw [hmoved, hvalue, available_moved h]

/-- A thousand bytes in flight, with numbers that wrap neither as they are nor moved. -/
theorem sendWindowRight_httpsSession : SendWindowRight { httpsSession with acked := 4000 } 70 :=
  (sendWindowRight_iff ⟨by decide, by decide, by decide, by decide⟩).2 ⟨by decide, by decide⟩

/-- The same thousand bytes, when the local number has wrapped: the window is closed. -/
theorem not_sendWindowRight_wrapped :
    ¬ SendWindowRight { httpsSession with acked := 4294966796, localSeq := 500 } 0 := by
  intro h
  exact absurd h.value (by decide)

end SunProxy.Net
