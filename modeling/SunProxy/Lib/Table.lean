/-
Tables whose entries have addresses given one after another. An entry may go, and one may come at
the next address; so what is recorded about an address when it is given stays true of its entry.
-/
import Mathlib.Data.List.Nodup

namespace SunProxy.Table

/-- Entries by address, and the next address to give. -/
structure Numbered (K : Type) where
  entries : List (Nat × K)
  next : Nat

variable {K O : Type}

/-- No address has been given twice. -/
structure Numbered.Valid (T : Numbered K) : Prop where
  nodup : (T.entries.map (·.1)).Nodup
  fresh : ∀ e ∈ T.entries, e.1 < T.next

/-- One step of a table. -/
inductive Advance (T T' : Numbered K) : Prop
  | keep (entries : T'.entries.Sublist T.entries) (next : T.next ≤ T'.next)
  | add (k : K) (entries : T'.entries = (T.next, k) :: T.entries) (next : T.next < T'.next)

namespace Advance

variable {T T' : Numbered K}

theorem of_eq (h : T'.entries = T.entries) (hn : T.next ≤ T'.next) : Advance T T' := .keep (h ▸ .refl _) hn

theorem le (h : Advance T T') : T.next ≤ T'.next := by
  cases h with
  | keep _ hn => exact hn
  | add _ _ hn => exact Nat.le_of_lt hn

/-- An entry after a step was there before, or is the new one. -/
theorem mem (h : Advance T T') {e : Nat × K} (he : e ∈ T'.entries) : e ∈ T.entries ∨ e.1 = T.next := by
  cases h with
  | keep hs _ => exact .inl (hs.subset he)
  | add k hs _ =>
    rw [hs, List.mem_cons] at he
    rcases he with rfl | he
    · exact .inr rfl
    · exact .inl he

theorem valid (h : Advance T T') (hv : T.Valid) : T'.Valid := by
  cases h with
  | keep hs hn =>
    constructor
    · exact hv.nodup.sublist (hs.map _)
    · intro e he
      exact Nat.lt_of_lt_of_le (hv.fresh e (hs.subset he)) hn
  | add k hs hn =>
    constructor
    · rw [hs, List.map_cons, List.nodup_cons]
      refine ⟨fun hm => ?_, hv.nodup⟩
      obtain ⟨e, he, heq⟩ := List.mem_map.1 hm
      exact Nat.ne_of_lt (hv.fresh e he) heq
    · intro e he
      rw [hs, List.mem_cons] at he
      rcases he with rfl | he
      · exact hn
      · exact Nat.lt_trans (hv.fresh e he) hn

end Advance

/-! ## Records -/

/-- The records `opened` are about addresses that have been given, and agree with the entries there. -/
structure Recorded (R : K → O → Prop) (T : Numbered K) (opened : Nat → O → Prop) : Prop where
  old : ∀ {id o}, opened id o → id < T.next
  agree : ∀ {id k o}, (id, k) ∈ T.entries → opened id o → R k o

/-- Records are made for the address that is given, and agree with the entry that is new there. -/
theorem Recorded.advance {R : K → O → Prop} {T T' : Numbered K} {opened opened' : Nat → O → Prop}
    (h : Recorded R T opened) (hv : T.Valid) (ha : Advance T T')
    (hopened : ∀ {id o}, opened' id o → opened id o ∨ id = T.next ∧ T.next < T'.next)
    (hnew : ∀ {k o}, (T.next, k) ∈ T'.entries → opened' T.next o → R k o) : Recorded R T' opened' where
  old ho := by
    rcases hopened ho with ho | ⟨rfl, hn⟩
    · exact Nat.lt_of_lt_of_le (h.old ho) ha.le
    · exact hn
  agree {id k o} he ho := by
    rcases ha.mem he with hold | rfl
    · rcases hopened ho with ho | ⟨rfl, -⟩
      · exact h.agree hold ho
      · exact absurd (hv.fresh _ hold) (Nat.lt_irrefl _)
    · exact hnew he ho

end SunProxy.Table
