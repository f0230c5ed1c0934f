import MyUvpp.Foundation.TransitionSystem

/-! # Where a component can be led

That nothing can go wrong in a run says little about a component that may stop. `CanReach` says that from
every state with one property there is a run to a state with another one. Such runs are put together one
after the other, and found step by step along a measure. -/

namespace MyUvpp

variable {σ ε : Type*}

/-- From every state with `I` some run, all of whose steps meet `P`, leads to a state with `J`. -/
def CanReach (step : σ → ε → Option σ) (P : σ → ε → Prop) (I J : σ → Prop) : Prop :=
  ∀ s, I s → ∃ es s', Along step P s es ∧ run step s es = some s' ∧ J s'

variable {step : σ → ε → Option σ} {P : σ → ε → Prop} {I J K : σ → Prop}

/-- A condition along a run and along another one that follows it. -/
theorem Along.append {s s' : σ} {es es' : List ε} (h : Along step P s es) (hrun : run step s es = some s')
    (h' : Along step P s' es') : Along step P s (es ++ es') := by
  induction es generalizing s with
  | nil =>
    cases hrun
    exact h'
  | cons e es ih =>
    obtain ⟨s₁, hs₁, hrun'⟩ := run_cons_eq_some.mp hrun
    have hrest := h.2
    rw [hs₁] at hrest
    refine ⟨h.1, ?_⟩
    rw [hs₁]
    exact ih hrest hrun'

namespace CanReach

/-- Two aims that are reached one after the other. -/
theorem trans (h : CanReach step P I J) (h' : CanReach step P J K) : CanReach step P I K := by
  intro s hs
  obtain ⟨es, s₁, halong, hrun, hs₁⟩ := h s hs
  obtain ⟨es', s₂, halong', hrun', hs₂⟩ := h' s₁ hs₁
  exact ⟨es ++ es', s₂, halong.append hrun halong', by rw [run_append, hrun]; exact hrun', hs₂⟩

/-- **Progress along a measure.** If from every state with `I` and without `J` a run leads to one with `I`
and a smaller measure, then a state with both can be reached. -/
theorem of_decreasing (m : σ → ℕ)
    (h : ∀ s, I s → ¬ J s →
      ∃ es s', Along step P s es ∧ run step s es = some s' ∧ I s' ∧ m s' < m s) :
    CanReach step P I fun s => I s ∧ J s := by
  intro s hs
  induction hm : m s using Nat.strongRecOn generalizing s with
  | _ n ih =>
    by_cases hJ : J s
    · exact ⟨[], s, trivial, rfl, hs, hJ⟩
    · obtain ⟨es, s₁, halong, hrun, hs₁, hlt⟩ := h s hs hJ
      obtain ⟨es', s₂, halong', hrun', hs₂⟩ := ih (m s₁) (hm ▸ hlt) s₁ hs₁ rfl
      exact ⟨es ++ es', s₂, halong.append hrun halong', by rw [run_append, hrun]; exact hrun', hs₂⟩

/-- The same, one step at a time. -/
theorem of_decreasing_step (m : σ → ℕ)
    (h : ∀ s, I s → ¬ J s → ∃ e s', P s e ∧ step s e = some s' ∧ I s' ∧ m s' < m s) :
    CanReach step P I fun s => I s ∧ J s := by
  refine of_decreasing m fun s hs hJ => ?_
  obtain ⟨e, s', hP, hstep, hs', hlt⟩ := h s hs hJ
  exact ⟨[e], s', ⟨hP, by rw [hstep]; trivial⟩, run_cons_eq_some.mpr ⟨s', hstep, rfl⟩, hs', hlt⟩

end CanReach

/-- **Every run ends.** If every step that meets `P` makes a measure smaller, then no run of such steps is
longer than the measure. -/
theorem length_add_le_of_decreasing (m : σ → ℕ)
    (h : ∀ s e s', I s → P s e → step s e = some s' → I s' ∧ m s' < m s) {s s' : σ} {es : List ε} (hs : I s)
    (halong : Along step P s es) (hrun : run step s es = some s') : es.length + m s' ≤ m s := by
  induction es generalizing s with
  | nil =>
    cases hrun
    exact Nat.le_of_eq (Nat.zero_add _)
  | cons e es ih =>
    obtain ⟨s₁, hs₁, hrun'⟩ := run_cons_eq_some.mp hrun
    obtain ⟨hI, hlt⟩ := h s e s₁ hs halong.1 hs₁
    have hrest := halong.2
    rw [hs₁] at hrest
    have hlength := ih hI hrest hrun'
    rw [List.length_cons]
    omega

end MyUvpp
