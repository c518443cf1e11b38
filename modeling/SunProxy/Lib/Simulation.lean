/-
Machines that follow one another: each event of one machine is, to the other, a list of events of its
own, and a relation between their states is kept. Then a run of the one is a run of the other on what
it sees of the events.
-/
import SunProxy.Lib.Run

namespace SunProxy.Simulation

open SunProxy.Run

section Runs

variable {F S E : Type} {next : S → E → Except F S} {s s' : S} {e : E} {es es' : List E}

/-- A machine that stopped goes on no more. -/
theorem final_error (x : F) : final (stepOk next) (.error x) es = .error x := by
  induction es with
  | nil => rfl
  | cons e es ih => exact ih

theorem final_append (r : Except F S) :
    final (stepOk next) r (es ++ es') = final (stepOk next) (final (stepOk next) r es) es' :=
  List.foldl_append

theorem final_single : final (stepOk next) (.ok s) [e] = next s e := rfl

theorem final_cons {s₁ : S} (h : next s e = .ok s₁) :
    final (stepOk next) (.ok s) (e :: es) = final (stepOk next) (.ok s₁) es := by
  rw [← h]
  rfl

/-- A run that ends is a first step and the run of the rest. -/
theorem final_cons_eq_ok (h : final (stepOk next) (.ok s) (e :: es) = .ok s') :
    ∃ s₁, next s e = .ok s₁ ∧ final (stepOk next) (.ok s₁) es = .ok s' := by
  change final (stepOk next) (next s e) es = .ok s' at h
  cases hs : next s e with
  | error x =>
    rw [hs, final_error] at h
    cases h
  | ok s₁ => exact ⟨s₁, rfl, hs ▸ h⟩

theorem final_append_eq_ok (h : final (stepOk next) (.ok s) (es ++ es') = .ok s') :
    ∃ s₁, final (stepOk next) (.ok s) es = .ok s₁ ∧ final (stepOk next) (.ok s₁) es' = .ok s' := by
  rw [final_append] at h
  cases hs : final (stepOk next) (.ok s) es with
  | error x =>
    rw [hs, final_error] at h
    cases h
  | ok s₁ => exact ⟨s₁, rfl, hs ▸ h⟩

end Runs

/-! ## What a machine sees of events -/

/-- The events `vs` are what `sees` makes of the events `es`, one after another. -/
inductive Views {E V : Type} (sees : E → List V → Prop) : List E → List V → Prop
  | nil : Views sees [] []
  | cons {e : E} {es : List E} {vs ws : List V} (first : sees e vs) (rest : Views sees es ws) :
      Views sees (e :: es) (vs ++ ws)

/-- What holds of all that is seen of each event holds of what is seen of a list. -/
theorem Views.forall_mem {E V : Type} {sees : E → List V → Prop} {P : V → Prop} {es : List E} {vs : List V}
    (h : Views sees es vs) (hp : ∀ e ∈ es, ∀ ws, sees e ws → ∀ v ∈ ws, P v) : ∀ v ∈ vs, P v := by
  induction h with
  | nil => nofun
  | @cons e es vs ws first rest ih =>
    intro v hv
    rcases List.mem_append.1 hv with hv | hv
    · exact hp e List.mem_cons_self vs first v hv
    · exact ih (fun e he => hp e (List.mem_cons_of_mem _ he)) v hv

section Follows

variable {F F' S E S' V : Type} {next : S → E → Except F S} {next' : S' → V → Except F' S'}
  {sees : E → List V → Prop} {R : S → S' → Prop}

/-- Each step of the first machine is a run of the second one, on what it sees, to a related state. -/
def Follows (next : S → E → Except F S) (next' : S' → V → Except F' S') (sees : E → List V → Prop)
    (R : S → S' → Prop) : Prop :=
  ∀ ⦃s e s' a⦄, R s a → next s e = .ok s' → ∃ vs a', sees e vs ∧ final (stepOk next') (.ok a) vs = .ok a' ∧ R s' a'

/-- So each run of the first one is a run of the second one. -/
theorem Follows.run (h : Follows next next' sees R) {s s' : S} {a : S'} (hR : R s a) {es : List E}
    (hrun : final (stepOk next) (.ok s) es = .ok s') :
    ∃ vs a', Views sees es vs ∧ final (stepOk next') (.ok a) vs = .ok a' ∧ R s' a' := by
  induction es generalizing s a with
  | nil =>
    cases hrun
    exact ⟨[], a, .nil, rfl, hR⟩
  | cons e es ih =>
    obtain ⟨s₁, hs₁, hrun⟩ := final_cons_eq_ok hrun
    obtain ⟨vs, a₁, hsees, hvs, hR₁⟩ := h hR hs₁
    obtain ⟨ws, a', hviews, hws, hR'⟩ := ih hR₁ hrun
    refine ⟨vs ++ ws, a', .cons hsees hviews, ?_, hR'⟩
    rw [final_append, hvs, hws]

end Follows

end SunProxy.Simulation
