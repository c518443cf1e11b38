/-
A ledger of resources that are acquired and released, such as descriptors: what is held after some
uses, where a release of what is not held is an error. Owners who release only what is theirs make none.
-/
import Mathlib.Data.List.Perm.Subperm

namespace SunProxy.Ledger

inductive Use (R : Type) where
  | acquire (r : R)
  | release (r : R)
deriving DecidableEq, Repr

variable {R : Type} [DecidableEq R]

/-- What is held after some uses, `none` once something is released that is not held. -/
def held : List R → List (Use R) → Option (List R)
  | h, [] => some h
  | h, .acquire r :: uses => held (r :: h) uses
  | h, .release r :: uses => if r ∈ h then held (h.erase r) uses else none

theorem held_append (h : List R) (us vs : List (Use R)) :
    held h (us ++ vs) = (held h us).bind fun h' => held h' vs := by
  induction us generalizing h with
  | nil => rfl
  | cons u us ih =>
    cases u with
    | acquire r => exact ih (r :: h)
    | release r =>
      simp only [List.cons_append, held]
      split
      · exact ih (h.erase r)
      · rfl

theorem held_acquire (h rs : List R) : held h (rs.map .acquire) = some (rs.reverse ++ h) := by
  induction rs generalizing h with
  | nil => rfl
  | cons r rs ih => rw [List.map_cons, held, ih, List.reverse_cons, List.append_assoc, List.singleton_append]

/-- Of what is held, an owner may release its own; the others' is held on. -/
theorem held_release {own rest h : List R} (hsub : (own ++ rest).Subperm h) :
    ∃ h', held h (own.map .release) = some h' ∧ rest.Subperm h' := by
  induction own generalizing h with
  | nil => exact ⟨h, rfl, hsub⟩
  | cons r own ih =>
    have hmem : r ∈ h := hsub.subset List.mem_cons_self
    have hrest : (own ++ rest).Subperm (h.erase r) := by
      have herase := hsub.erase r
      rwa [List.cons_append, List.erase_cons_head] at herase
    obtain ⟨h', hheld, hsub'⟩ := ih hrest
    exact ⟨h', by rw [List.map_cons, held, if_pos hmem, hheld], hsub'⟩

end SunProxy.Ledger
