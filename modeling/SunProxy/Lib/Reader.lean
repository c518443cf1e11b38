/-
Readers of one message off the front of a stream, put together from smaller ones. A reader that does not depend on
what follows its message finds nothing else in the part of a message that has arrived.
-/
import Mathlib.Data.List.Infix

namespace SunProxy

/-- A message at the front of the input, and the rest. -/
abbrev Reader (α β : Type) := List α → Option (β × List α)

namespace Reader

variable {α β γ : Type} {read : Reader α β} {next : β → Reader α γ} {input message rest : List α} {v w : β}

def give (v : β) : Reader α β := fun input => some (v, input)

def fail : Reader α β := fun _ => none

def item : Reader α α
  | [] => none
  | a :: rest => some (a, rest)

/-- The first `n` items. -/
def items (n : Nat) : Reader α (List α) :=
  fun input => if n ≤ input.length then some (input.take n, input.drop n) else none

/-- One reader after another. -/
def andThen (read : Reader α β) (next : β → Reader α γ) : Reader α γ :=
  fun input => (read input).bind fun r => next r.1 r.2

@[simp] theorem item_cons (a : α) (rest : List α) : item (a :: rest) = some (a, rest) := rfl

@[simp] theorem give_apply (v : β) (input : List α) : give v input = some (v, input) := rfl

@[simp] theorem fail_apply (input : List α) : (fail : Reader α β) input = none := rfl

theorem items_append (front rest : List α) : items front.length (front ++ rest) = some (front, rest) := by
  rw [items, if_pos (by rw [List.length_append]; omega), List.take_left, List.drop_left]

theorem andThen_eq (h : read input = some (v, rest)) : andThen read next input = next v rest := by rw [andThen, h]; rfl

@[simp] theorem andThen_item (next : α → Reader α γ) (a : α) (rest : List α) :
    andThen item next (a :: rest) = next a rest := rfl

/-- What a reader reads it also reads when more follows. -/
def Stable (read : Reader α β) : Prop :=
  ∀ ⦃input v rest⦄ (more : List α), read input = some (v, rest) → read (input ++ more) = some (v, rest ++ more)

/-- What is read in a part of a message is the message, and it is all there. -/
theorem Stable.eq_of_isPrefix (h : Stable read) (hmessage : read message = some (v, [])) (hpart : input <+: message)
    (hread : read input = some (w, rest)) : w = v ∧ rest = [] := by
  obtain ⟨more, rfl⟩ := hpart
  obtain ⟨rfl, hrest⟩ := Prod.mk.inj (Option.some.inj ((h more hread).symm.trans hmessage))
  exact ⟨rfl, (List.append_eq_nil_iff.1 hrest).1⟩

theorem stable_give (v : β) : Stable (give v : Reader α β) := by
  intro input w rest more h
  cases h
  rfl

theorem stable_fail : Stable (fail : Reader α β) := by
  intro input v rest more h
  cases h

theorem stable_item : Stable (item : Reader α α) := by
  intro input v rest more h
  cases input with
  | nil => cases h
  | cons a input =>
    cases h
    rfl

theorem stable_items (n : Nat) : Stable (items n : Reader α (List α)) := by
  intro input v rest more h
  unfold items at h
  split at h
  · rename_i hle
    cases h
    have happend := items_append (input.take n) (input.drop n ++ more)
    rwa [List.length_take, min_eq_left hle, ← List.append_assoc, List.take_append_drop] at happend
  · cases h

theorem Stable.andThen (h : Stable read) (hnext : ∀ v, Stable (next v)) : Stable (andThen read next) := by
  intro input v rest more hread
  obtain ⟨⟨w, between⟩, hfirst, hsecond⟩ := Option.bind_eq_some_iff.1 hread
  rw [andThen_eq (h more hfirst)]
  exact hnext w more hsecond

theorem Stable.ite {c : Prop} [Decidable c] {other : Reader α β} (h : Stable read) (hother : Stable other) :
    Stable (if c then read else other) := by
  split
  · exact h
  · exact hother

end Reader

end SunProxy
