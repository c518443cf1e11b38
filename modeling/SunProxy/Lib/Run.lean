/-
Runs of a machine whose step is a function of its state and an event: the states a run visits, a
condition asked of every step, and the two ways such a condition settles a property of all visited
states.
-/

namespace SunProxy.Run

variable {S E : Type} (step : S → E → S)

/-- The states a run visits, the first included. -/
def states : S → List E → List S
  | s, [] => [s]
  | s, e :: es => s :: states (step s e) es

/-- The state a run ends in. -/
def final (s : S) (es : List E) : S := es.foldl step s

/-- A condition on the state before a step and its event, at every step of a run. -/
def EveryStep (good : S → E → Prop) : S → List E → Prop
  | _, [] => True
  | s, e :: es => good s e ∧ EveryStep good (step s e) es

variable {step}

instance decidableEveryStep {good : S → E → Prop} [∀ s e, Decidable (good s e)] :
    (s : S) → (es : List E) → Decidable (EveryStep step good s es)
  | _, [] => isTrue trivial
  | s, e :: es =>
    have : Decidable (EveryStep step good (step s e) es) := decidableEveryStep (step s e) es
    inferInstanceAs (Decidable (good s e ∧ EveryStep step good (step s e) es))

theorem mem_states_self (s : S) (es : List E) : s ∈ states step s es := by
  cases es <;> simp [states]

theorem final_mem_states (s : S) (es : List E) : final step s es ∈ states step s es := by
  induction es generalizing s with
  | nil => simp [final, states]
  | cons e es ih => exact List.mem_cons_of_mem _ (ih (step s e))

/-- What good steps preserve holds in every state of a run of good steps. -/
theorem forall_states {good : S → E → Prop} {Inv : S → Prop} (hstep : ∀ s e, Inv s → good s e → Inv (step s e))
    {s : S} (hs : Inv s) {es : List E} (hg : EveryStep step good s es) : ∀ u ∈ states step s es, Inv u := by
  induction es generalizing s with
  | nil => simpa [states] using hs
  | cons e es ih =>
    simp only [states, List.mem_cons, forall_eq_or_imp]
    exact ⟨hs, ih (hstep s e hs hg.1) hg.2⟩

theorem everyStep_true (s : S) (es : List E) : EveryStep step (fun _ _ => True) s es := by
  induction es generalizing s with
  | nil => trivial
  | cons e es ih => exact ⟨trivial, ih _⟩

theorem EveryStep.append {good : S → E → Prop} {s : S} {es es' : List E} (h : EveryStep step good s es)
    (h' : EveryStep step good (final step s es) es') : EveryStep step good s (es ++ es') := by
  induction es generalizing s with
  | nil => exact h'
  | cons e es ih => exact ⟨h.1, ih h.2 h'⟩

theorem everyStep_append_right {good : S → E → Prop} {s : S} {es es' : List E} (h : EveryStep step good s (es ++ es')) :
    EveryStep step good (final step s es) es' := by
  induction es generalizing s with
  | nil => exact h
  | cons e es ih => exact ih h.2

/-- A condition that follows from another one at the events of the run. -/
theorem EveryStep.imp_of_mem {good good' : S → E → Prop} {s : S} {es : List E} (h : EveryStep step good s es)
    (himp : ∀ e ∈ es, ∀ s, good s e → good' s e) : EveryStep step good' s es := by
  induction es generalizing s with
  | nil => trivial
  | cons e es ih =>
    exact ⟨himp e List.mem_cons_self s h.1, ih h.2 fun e' he' => himp e' (List.mem_cons_of_mem _ he')⟩

/-- Conditions that agree where an invariant holds, for the events `P` allows, agree along a run. -/
theorem everyStep_iff {good good' : S → E → Prop} {Inv : S → Prop} {P : E → Prop}
    (hinv : ∀ s e, Inv s → P e → Inv (step s e)) (hiff : ∀ s e, Inv s → P e → (good s e ↔ good' s e)) {s : S}
    (hs : Inv s) {es : List E} (hes : ∀ e ∈ es, P e) : EveryStep step good s es ↔ EveryStep step good' s es := by
  induction es generalizing s with
  | nil => exact Iff.rfl
  | cons e es ih =>
    have he := hes e List.mem_cons_self
    exact and_congr (hiff s e hs he) (ih (hinv s e hs he) fun e' he' => hes e' (List.mem_cons_of_mem e he'))

/-- What every step preserves holds in every state of every run. -/
theorem forall_states_of_inv {Inv : S → Prop} (hstep : ∀ s e, Inv s → Inv (step s e)) {s : S} (hs : Inv s)
    (es : List E) : ∀ u ∈ states step s es, Inv u :=
  forall_states (fun s e h _ => hstep s e h) hs (everyStep_true s es)

/-- Where exactly the good steps keep `P`, given an invariant, the runs all of whose states have
`P` are the runs of good steps. -/
theorem forall_states_iff {good : S → E → Prop} (Inv P : S → Prop) (hinv : ∀ s e, Inv s → Inv (step s e))
    (hstep : ∀ s e, Inv s → P s → (P (step s e) ↔ good s e)) {s : S} (hs : Inv s) (hp : P s) (es : List E) :
    (∀ u ∈ states step s es, P u) ↔ EveryStep step good s es := by
  induction es generalizing s with
  | nil => simp [states, EveryStep, hp]
  | cons e es ih =>
    simp only [states, List.mem_cons, forall_eq_or_imp, EveryStep, hp, true_and]
    constructor
    · intro h
      have hp' := h _ (mem_states_self _ _)
      exact ⟨(hstep s e hs hp).1 hp', (ih (hinv s e hs) hp').1 h⟩
    · rintro ⟨hg, h⟩
      exact (ih (hinv s e hs) ((hstep s e hs hp).2 hg)).2 h

/-! ## Machines that may stop -/

section Partial

variable {F : Type} {next : S → E → Except F S}

/-- A property of the value of a result, if it has one. -/
def OnOk (P : S → Prop) (r : Except F S) : Prop := ∀ s, r = .ok s → P s

instance {P : S → Prop} [DecidablePred P] : (r : Except F S) → Decidable (OnOk P r)
  | .ok s => decidable_of_iff (P s) ⟨fun h _ hs => Except.ok.inj hs ▸ h, fun h => h s rfl⟩
  | .error _ => isTrue nofun

/-- The step of a machine that stops at an error. -/
def stepOk (next : S → E → Except F S) (r : Except F S) (e : E) : Except F S := r.bind (next · e)

theorem onOk_stepOk {P : S → Prop} {r : Except F S} {e : E} :
    OnOk P (stepOk next r e) ↔ OnOk (fun s => OnOk P (next s e)) r := by
  cases r with
  | error x => exact iff_of_true nofun nofun
  | ok s =>
    refine ⟨fun h s' hs => ?_, fun h => h s rfl⟩
    cases hs
    exact h

/-- What every step preserves holds in every state of every run. -/
theorem onOk_states_of_inv {Inv : S → Prop} (hstep : ∀ s e s', Inv s → next s e = .ok s' → Inv s') {s : S} (hs : Inv s)
    (es : List E) : ∀ u ∈ states (stepOk next) (.ok s) es, OnOk Inv u := by
  apply forall_states_of_inv
  · intro r e h
    exact onOk_stepOk.2 fun s hr s' hs' => hstep s e s' (h s hr) hs'
  · rintro s' ⟨⟩
    exact hs

/-- The states of a machine are those of one that keeps more of its run, as far as `f` shows them. -/
theorem states_map {S' : Type} {next' : S' → E → Except F S'} {f : S → S'}
    (h : ∀ s e, (next s e).map f = next' (f s) e) (r : Except F S) (es : List E) :
    states (stepOk next') (r.map f) es = (states (stepOk next) r es).map (Except.map f) := by
  induction es generalizing r with
  | nil => rfl
  | cons e es ih =>
    have hstep : stepOk next' (r.map f) e = (stepOk next r e).map f := by
      cases r with
      | error x => rfl
      | ok s => exact (h s e).symm
    rw [states, states, List.map_cons, hstep, ih]

/-- A machine whose good steps return, and keep a relation with the events so far, returns in a run of good steps. -/
theorem final_returns {R : List E → S → Prop} {good : S → E → Prop}
    (hstep : ∀ past s e, R past s → good s e → ∃ s', next s e = .ok s' ∧ R (past ++ [e]) s') {past : List E} {s : S}
    (h : R past s) {es : List E} (hg : EveryStep (stepOk next) (fun r e => OnOk (good · e) r) (.ok s) es) :
    ∃ s', final (stepOk next) (.ok s) es = .ok s' ∧ R (past ++ es) s' := by
  induction es generalizing past s with
  | nil =>
    rw [List.append_nil]
    exact ⟨s, rfl, h⟩
  | cons e es ih =>
    obtain ⟨s', hs', h'⟩ := hstep past s e h (hg.1 s rfl)
    have hrest : stepOk next (.ok s) e = .ok s' := hs'
    have hg' := hg.2
    rw [hrest] at hg'
    obtain ⟨s'', hs'', h''⟩ := ih h' hg'
    rw [List.append_assoc] at h''
    refine ⟨s'', ?_, h''⟩
    rw [final, List.foldl_cons, hrest]
    exact hs''

/-- What good steps preserve, given an invariant, holds in every state of a run of good steps. -/
theorem onOk_states {good : S → E → Prop} (Inv P : S → Prop) (hinv : ∀ s e s', Inv s → next s e = .ok s' → Inv s')
    (hstep : ∀ s e s', Inv s → P s → good s e → next s e = .ok s' → P s') {s : S} (hs : Inv s) (hp : P s) {es : List E}
    (hg : EveryStep (stepOk next) (fun r e => OnOk (good · e) r) (.ok s) es) :
    ∀ u ∈ states (stepOk next) (.ok s) es, OnOk P u := by
  have hboth : ∀ u ∈ states (stepOk next) (.ok s) es, OnOk (fun s => Inv s ∧ P s) u := by
    refine forall_states (fun r e h hgood => ?_) (by rintro s' ⟨⟩; exact ⟨hs, hp⟩) hg
    refine onOk_stepOk.2 fun s hr s' hs' => ?_
    obtain ⟨hi, hp⟩ := h s hr
    exact ⟨hinv s e s' hi hs', hstep s e s' hi hp (hgood s hr) hs'⟩
  exact fun u hu s' hs' => (hboth u hu s' hs').2

/-- Where exactly the good steps keep `P`, given an invariant, the runs all of whose states have
`P` are the runs of good steps. -/
theorem onOk_states_iff {good : S → E → Prop} (Inv P : S → Prop)
    (hinv : ∀ s e s', Inv s → next s e = .ok s' → Inv s')
    (hstep : ∀ s e, Inv s → P s → (OnOk P (next s e) ↔ good s e)) {s : S} (hs : Inv s) (hp : P s) (es : List E) :
    (∀ u ∈ states (stepOk next) (.ok s) es, OnOk P u) ↔
      EveryStep (stepOk next) (fun r e => OnOk (good · e) r) (.ok s) es := by
  refine forall_states_iff (OnOk Inv) (OnOk P) (fun r e h => ?_) (fun r e hi hp => ?_) ?_ ?_ es
  · exact onOk_stepOk.2 fun s hr s' hs' => hinv s e s' (h s hr) hs'
  · rw [onOk_stepOk]
    exact ⟨fun h s hr => (hstep s e (hi s hr) (hp s hr)).1 (h s hr),
      fun h s hr => (hstep s e (hi s hr) (hp s hr)).2 (h s hr)⟩
  · rintro s' ⟨⟩
    exact hs
  · rintro s' ⟨⟩
    exact hp

end Partial

/-! ## Moves that put something out -/

/-- Moves one after another, with all they put out. -/
inductive Chain {O : Type} (move : S → List O → S → Prop) : S → List O → S → Prop
  | refl (s : S) : Chain move s [] s
  | head {s s' s'' : S} {os os' : List O} (first : move s os s') (rest : Chain move s' os' s'') :
      Chain move s (os ++ os') s''

namespace Chain

variable {O : Type} {move : S → List O → S → Prop} {s s' s'' : S} {os os' : List O}

theorem single (h : move s os s') : Chain move s os s' := by
  rw [← List.append_nil os]
  exact .head h (.refl s')

theorem trans (h : Chain move s os s') (h' : Chain move s' os' s'') : Chain move s (os ++ os') s'' := by
  induction h with
  | refl _ => exact h'
  | head first _ ih =>
    rw [List.append_assoc]
    exact .head first (ih h')

/-- Moves that put nothing out come before a chain. -/
theorem quiet (h : move s [] s') (h' : Chain move s' os s'') : Chain move s os s'' := .head h h'

theorem trans_quiet (h : Chain move s os s') (h' : move s' [] s'') : Chain move s os s'' := by
  rw [← List.append_nil os]
  exact h.trans (.single h')

/-- What every move keeps, of the state and all that was put out, a chain keeps. -/
theorem keeps {P : S → List O → Prop}
    (hmove : ∀ {s os s'} (before : List O), P s before → move s os s' → P s' (before ++ os)) (h : Chain move s os s')
    {before : List O} (hp : P s before) : P s' (before ++ os) := by
  induction h generalizing before with
  | refl _ => rwa [List.append_nil]
  | head first _ ih =>
    rw [← List.append_assoc]
    exact ih (hmove before hp first)

end Chain

end SunProxy.Run
