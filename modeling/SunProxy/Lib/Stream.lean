/-
A stream in pieces that are numbered modulo `M`, one number for each item, for the start and for the end of
the stream: what a sender may have sent of it so far, and what a receiver finds in each piece.
-/
import Mathlib.Algebra.BigOperators.Group.List.Basic
import Mathlib.Data.List.Infix

namespace SunProxy.Stream

structure Piece (α : Type) where
  seq : Nat
  first : Bool
  last : Bool
  data : List α
deriving DecidableEq, Repr

variable {α : Type} {M start n : Nat} {stream : List α} {p : Piece α} {ps qs : List (Piece α)}

/-- How many numbers a piece takes. -/
def Piece.numbers (p : Piece α) : Nat := p.first.toNat + p.data.length + p.last.toNat

def total : List (Piece α) → Nat
  | [] => 0
  | p :: ps => p.numbers + total ps

@[simp] theorem total_nil : total ([] : List (Piece α)) = 0 := rfl

@[simp] theorem total_cons : total (p :: ps) = p.numbers + total ps := rfl

@[simp] theorem total_append : total (ps ++ qs) = total ps + total qs := by
  induction ps with
  | nil => rw [List.nil_append, total_nil, Nat.zero_add]
  | cons p ps ih => rw [List.cons_append, total_cons, ih, total_cons, Nat.add_assoc]

@[simp] theorem total_singleton : total [p] = p.numbers := Nat.add_zero _

/-- Each piece has the number after those of the pieces before it. -/
def Consecutive (M : Nat) : Nat → List (Piece α) → Prop
  | _, [] => True
  | n, p :: ps => p.seq = n % M ∧ Consecutive M (n + p.numbers) ps

theorem consecutive_append : Consecutive M n (ps ++ qs) ↔ Consecutive M n ps ∧ Consecutive M (n + total ps) qs := by
  induction ps generalizing n with
  | nil => simp only [List.nil_append, Consecutive, total_nil, Nat.add_zero, true_and]
  | cons p ps ih =>
    rw [List.cons_append, Consecutive, ih, total_cons, Consecutive, and_assoc, Nat.add_assoc]

def contents (ps : List (Piece α)) : List α := ps.flatMap (·.data)

@[simp] theorem contents_append : contents (ps ++ qs) = contents ps ++ contents qs := List.flatMap_append

@[simp] theorem contents_singleton : contents [p] = p.data := List.flatMap_singleton _ _

/-- What a sender that starts with the number `start` may have sent of a stream: the start first, the items
one after another without a gap, and the end last, after all of them. -/
structure SentOf (M start : Nat) (stream : List α) (ps : List (Piece α)) : Prop where
  numbers : Consecutive M start ps
  first : ∀ {before p after}, ps = before ++ p :: after → (p.first = true ↔ before = [])
  content : contents ps <+: stream
  last : ∀ {before p after}, ps = before ++ p :: after → p.last = true → after = [] ∧ contents ps = stream

theorem SentOf.nil (M start : Nat) (stream : List α) : SentOf M start stream [] where
  numbers := trivial
  first h := by simp at h
  content := List.nil_prefix
  last h := by simp at h

/-- A place in a list with one item more is a place in the list, or the last one. -/
theorem snoc_eq_append {ps before after : List (Piece α)} {p q : Piece α} (h : ps ++ [p] = before ++ q :: after) :
    (∃ after', after = after' ++ [p] ∧ ps = before ++ q :: after') ∨ after = [] ∧ q = p ∧ before = ps := by
  rcases List.eq_nil_or_concat after with rfl | ⟨after', r, rfl⟩
  · obtain ⟨rfl, hq⟩ := List.append_inj' h rfl
    exact .inr ⟨rfl, (List.singleton_inj.1 hq).symm, rfl⟩
  · rw [List.concat_eq_append, ← List.cons_append, ← List.append_assoc] at h
    obtain ⟨rfl, hr⟩ := List.append_inj' h rfl
    refine .inl ⟨after', ?_, rfl⟩
    rw [List.concat_eq_append, List.singleton_inj.1 hr]

/-- One piece more. -/
theorem SentOf.snoc (h : SentOf M start stream ps) (open_ : ∀ q ∈ ps, q.last = false)
    (hseq : p.seq = (start + total ps) % M) (hfirst : p.first = true ↔ ps = [])
    (hcontent : contents ps ++ p.data <+: stream) (hlast : p.last = true → contents ps ++ p.data = stream) :
    SentOf M start stream (ps ++ [p]) where
  numbers := consecutive_append.2 ⟨h.numbers, hseq, trivial⟩
  first {before q after} heq := by
    rcases snoc_eq_append heq with ⟨after', -, hplace⟩ | ⟨-, rfl, rfl⟩
    · exact h.first hplace
    · exact hfirst
  content := by
    rw [contents_append, contents_singleton]
    exact hcontent
  last {before q after} heq hq := by
    rcases snoc_eq_append heq with ⟨after', -, rfl⟩ | ⟨hafter, rfl, rfl⟩
    · rw [open_ q (by simp)] at hq
      cases hq
    · rw [contents_append, contents_singleton]
      exact ⟨hafter, hlast hq⟩

/-- The start on its own. -/
theorem SentOf.opening (M start : Nat) (stream : List α) : SentOf M start stream [⟨start % M, true, false, []⟩] :=
  (SentOf.nil M start stream).snoc nofun rfl (iff_of_true rfl rfl) List.nil_prefix nofun

theorem total_of_inner (h : ∀ q ∈ ps, q.first = false ∧ q.last = false) : total ps = (contents ps).length := by
  induction ps with
  | nil => rfl
  | cons q ps ih =>
    obtain ⟨⟨hfirst, hlast⟩, h⟩ := List.forall_mem_cons.1 h
    rw [total_cons, ih h, Piece.numbers, hfirst, hlast, contents, contents, List.flatMap_cons, List.length_append]
    simp only [Bool.toNat_false, Nat.zero_add, Nat.add_zero]

/-- Before the end, one number more is taken than there are items. -/
theorem SentOf.total_eq (h : SentOf M start stream (ps ++ qs)) (hne : ps ≠ []) (hopen : ∀ q ∈ ps, q.last = false) :
    total ps = 1 + (contents ps).length := by
  obtain ⟨b, bs, rfl⟩ := List.exists_cons_of_ne_nil hne
  obtain ⟨hlast, hopen⟩ := List.forall_mem_cons.1 hopen
  have hstart : b :: bs ++ qs = [] ++ b :: (bs ++ qs) := rfl
  have hfirst : b.first = true := (h.first hstart).2 rfl
  have hinner : ∀ q ∈ bs, q.first = false ∧ q.last = false := by
    intro q hq
    refine ⟨?_, hopen q hq⟩
    obtain ⟨l, r, rfl⟩ := List.append_of_mem hq
    have hplace : b :: (l ++ q :: r) ++ qs = (b :: l) ++ q :: (r ++ qs) := by simp
    exact Bool.eq_false_iff.2 fun hq => List.cons_ne_nil b l ((h.first hplace).1 hq)
  rw [total_cons, total_of_inner hinner, Piece.numbers, hfirst, hlast, contents, contents, List.flatMap_cons,
    List.length_append]
  simp only [Bool.toNat_true, Bool.toNat_false]
  omega

/-- What a receiver that knows the start finds in a piece: the items at its number. -/
theorem SentOf.slice {before after : List (Piece α)} (h : SentOf M start stream (before ++ p :: after))
    (hp : p.first = false) :
    ∃ o, p.seq = (start + 1 + o) % M ∧ p.data <+: stream.drop o := by
  obtain ⟨-, hseq, -⟩ := consecutive_append.1 h.numbers
  have hne : before ≠ [] := fun hnil => by
    rw [(h.first rfl).2 hnil] at hp
    cases hp
  have hopen : ∀ q ∈ before, q.last = false := by
    intro q hq
    obtain ⟨l, r, rfl⟩ := List.append_of_mem hq
    have hplace : l ++ q :: r ++ p :: after = l ++ q :: (r ++ p :: after) := by simp
    exact Bool.eq_false_iff.2 fun hq => by simpa using (h.last hplace hq).1
  refine ⟨(contents before).length, ?_, ?_⟩
  · rw [hseq, h.total_eq hne hopen, Nat.add_assoc]
  · obtain ⟨rest, hrest⟩ := h.content
    rw [contents_append, List.append_assoc] at hrest
    rw [← hrest, List.drop_left, contents, List.flatMap_cons, List.append_assoc]
    exact List.prefix_append _ _

end SunProxy.Stream
