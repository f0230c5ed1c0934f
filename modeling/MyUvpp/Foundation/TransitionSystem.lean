import Mathlib.Data.List.Basic

/-! # Runs of partial steps

A component that reacts to events is a function from a state and an event to the next state, without a
result where the event cannot occur. `run` follows a list of events, `Along` says that every event of
a run meets a condition in the state in which it occurs, `Throughout` that every state of a run has a
property, and the invariant rules carry a property from the first state of a run to the last. Every
state a run reaches is the last one of a shorter run. -/

namespace MyUvpp

variable {σ ε : Type*}

/-- Follow a list of events from a state. -/
def run (step : σ → ε → Option σ) : σ → List ε → Option σ
  | s, [] => some s
  | s, e :: es => (step s e).bind fun s' => run step s' es

/-- Every event of the run from a state meets `P` in the state in which it occurs. -/
def Along (step : σ → ε → Option σ) (P : σ → ε → Prop) : σ → List ε → Prop
  | _, [] => True
  | s, e :: es =>
    P s e ∧
      match step s e with
      | some s' => Along step P s' es
      | none => True

/-- Whether a condition holds along a run can be decided where it can be in each state. -/
instance decAlong (step : σ → ε → Option σ) (P : σ → ε → Prop) [∀ s e, Decidable (P s e)] :
    ∀ s es, Decidable (Along step P s es)
  | _, [] => inferInstanceAs (Decidable True)
  | s, e :: es =>
    let rest : Decidable (match step s e with
        | some s' => Along step P s' es
        | none => True) :=
      match step s e with
      | some s' => decAlong step P s' es
      | none => inferInstanceAs (Decidable True)
    @instDecidableAnd _ _ _ rest

/-- `Q` holds in every state that the run from a state passes through, the first and the last ones
included. -/
def Throughout (step : σ → ε → Option σ) (Q : σ → Prop) : σ → List ε → Prop
  | s, [] => Q s
  | s, e :: es =>
    Q s ∧
      match step s e with
      | some s' => Throughout step Q s' es
      | none => True

section Runs

variable {step : σ → ε → Option σ} {P : σ → ε → Prop} {I : σ → Prop} {s s' : σ} {es es' : List ε}

/-- A run is a step and a run. -/
theorem run_cons_eq_some {e : ε} :
    run step s (e :: es) = some s' ↔ ∃ s₁, step s e = some s₁ ∧ run step s₁ es = some s' := by
  rw [run, Option.bind_eq_some_iff]

/-- A run is a run and another one. -/
theorem run_append (es es' : List ε) :
    run step s (es ++ es') = (run step s es).bind fun s₁ => run step s₁ es' := by
  induction es generalizing s with
  | nil => rfl
  | cons e es ih =>
    rw [List.cons_append, run, run, Option.bind_assoc]
    exact congrArg _ (funext fun s₁ => ih)

/-- A run that does not get stuck has a last state, which has what every last state of it has. -/
theorem exists_last {P : σ → Prop} (hsome : (run step s es).isSome = true)
    (h : ∀ s', run step s es = some s' → P s') : ∃ s', run step s es = some s' ∧ P s' := by
  obtain ⟨s', hs'⟩ := Option.isSome_iff_exists.mp hsome
  exact ⟨s', hs', h s' hs'⟩

/-- The same, where something is known about the last state. -/
theorem exists_last_of_map {β : Type*} {P : σ → Prop} (f : σ → β) {b : β}
    (hmap : (run step s es).map f = some b) (h : ∀ s', run step s es = some s' → f s' = b → P s') :
    ∃ s', run step s es = some s' ∧ P s' := by
  obtain ⟨s', hs', hb⟩ := Option.map_eq_some_iff.mp hmap
  exact ⟨s', hs', h s' hs' hb⟩

/-- **The invariant rule under a condition.** What every step that meets the condition preserves, every
run whose steps all meet it preserves. -/
theorem run_invariant_along (hstep : ∀ s e s', I s → P s e → step s e = some s' → I s') (h : I s)
    (halong : Along step P s es) (hrun : run step s es = some s') : I s' := by
  induction es generalizing s with
  | nil =>
    cases hrun
    exact h
  | cons e es ih =>
    obtain ⟨s₁, hs₁, hrun'⟩ := run_cons_eq_some.mp hrun
    have hrest := halong.2
    rw [hs₁] at hrest
    exact ih (hstep s e s₁ h halong.1 hs₁) hrest hrun'

/-- A condition on the events alone. -/
theorem Along.of_forall {P : ε → Prop} (h : ∀ e ∈ es, P e) : Along step (fun _ e => P e) s es := by
  induction es generalizing s with
  | nil => trivial
  | cons e es ih =>
    refine ⟨h e List.mem_cons_self, ?_⟩
    cases step s e with
    | none => trivial
    | some s' => exact ih fun e' he' => h e' (List.mem_cons_of_mem e he')

/-- The events of a run that meets a condition on the events alone. -/
theorem Along.forall_of_run {P : ε → Prop} (h : Along step (fun _ e => P e) s es)
    (hrun : run step s es = some s') : ∀ e ∈ es, P e := by
  induction es generalizing s with
  | nil => exact fun e he => absurd he List.not_mem_nil
  | cons e es ih =>
    obtain ⟨s₁, hs₁, hrun'⟩ := run_cons_eq_some.mp hrun
    have hrest := h.2
    rw [hs₁] at hrest
    exact List.forall_mem_cons.mpr ⟨h.1, ih hrest hrun'⟩

/-- **The invariant rule.** What every step preserves, every run preserves. -/
theorem run_invariant (hstep : ∀ s e s', I s → step s e = some s' → I s') (h : I s)
    (hrun : run step s es = some s') : I s' := by
  induction es generalizing s with
  | nil =>
    cases hrun
    exact h
  | cons e es ih =>
    obtain ⟨s₁, hs₁, hrun'⟩ := run_cons_eq_some.mp hrun
    exact ih (hstep s e s₁ h hs₁) hrun'

/-- **The invariant rule with a history.** What every step preserves when it is added to the events so
far, a run preserves when all its events are added. -/
theorem run_invariant_history {I : List ε → σ → Prop} {hist : List ε}
    (hstep : ∀ hist s e s', I hist s → step s e = some s' → I (hist ++ [e]) s') (h : I hist s)
    (hrun : run step s es = some s') : I (hist ++ es) s' := by
  induction es generalizing hist s with
  | nil =>
    cases hrun
    rw [List.append_nil]
    exact h
  | cons e es ih =>
    obtain ⟨s₁, hs₁, hrun'⟩ := run_cons_eq_some.mp hrun
    rw [← List.singleton_append, ← List.append_assoc]
    exact ih (hstep hist s e s₁ h hs₁) hrun'

/-- A property of every state of a run holds in the first one. -/
theorem Throughout.first {Q : σ → Prop} (h : Throughout step Q s es) : Q s := by
  cases es with
  | nil => exact h
  | cons => exact h.1

/-- **The exact condition for a property of all states.** If an invariant implies `Q`, is preserved by
the steps that meet `P`, and every other step leads to a state without `Q`, then `Q` holds throughout a
run if and only if all its steps meet `P`. -/
theorem throughout_iff_along {Q : σ → Prop} (hgood : ∀ s e s', I s → P s e → step s e = some s' → I s')
    (hbad : ∀ s e s', I s → ¬ P s e → step s e = some s' → ¬ Q s') (hQ : ∀ s, I s → Q s) (h : I s)
    (hrun : run step s es = some s') : Throughout step Q s es ↔ Along step P s es := by
  induction es generalizing s with
  | nil => exact iff_of_true (hQ s h) trivial
  | cons e es ih =>
    obtain ⟨s₁, hs₁, hrun'⟩ := run_cons_eq_some.mp hrun
    rw [Throughout, Along, hs₁]
    by_cases hP : P s e
    · have hrest := ih (hgood s e s₁ h hP hs₁) hrun'
      exact and_congr (iff_of_true (hQ s h) hP) hrest
    · refine iff_of_false (fun hthrough => ?_) fun halong => hP halong.1
      exact hbad s e s₁ h hP hs₁ (Throughout.first hthrough.2)

end Runs

end MyUvpp
