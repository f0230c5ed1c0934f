import MyUvpp.Foundation.FrameScan
import MyUvpp.Foundation.TransitionSystem

/-! # Frames along the runs of a machine

A machine reads a stream piece by piece among its other events and emits frames. `Delivers` says which
frames a run emits for which pieces. A machine whose steps reduce what it has pending and the piece it
reads (`Framing.Decodes`) delivers the frames of the scan, whatever its other events are. -/

namespace MyUvpp

variable {σ ε : Type*}

/-- Some run over events in `P` reads these pieces, one for each event with an `input`, and emits these
frames. -/
def Delivers {α φ : Type*} (step : σ → ε → Option σ) (P : ε → Prop) (input : ε → Option (List α))
    (emitted : σ → List φ) (s : σ) (pieces : List (List α)) (out : List φ) : Prop :=
  ∃ es s', (∀ e ∈ es, P e) ∧ es.filterMap input = pieces ∧ run step s es = some s' ∧
    emitted s' = emitted s ++ out

namespace Framing

variable {α β : Type*}

/-- **The rule for decoding runs.** What every step reduces that meets a condition, a run reduces all of
whose steps meet it: what was pending, and all that it reads. -/
theorem reduces_along {F : Framing α β} {step : σ → ε → Option σ} {P : σ → ε → Prop} {I : σ → Prop}
    {input : ε → Option (List α)} {pending : σ → List α} {emitted : σ → List (β × List α)}
    (hstep : ∀ s e s', I s → P s e → step s e = some s' → I s' ∧
      ∃ out, F.Reduces (pending s ++ (input e).getD []) out (pending s') ∧
        emitted s' = emitted s ++ out)
    {s s' : σ} {es : List ε} (h : I s) (halong : Along step P s es) (hrun : run step s es = some s') :
    I s' ∧ ∃ out, F.Reduces (pending s ++ (es.filterMap input).flatten) out (pending s') ∧
      emitted s' = emitted s ++ out := by
  induction es generalizing s with
  | nil =>
    cases hrun
    refine ⟨h, [], ?_, (List.append_nil _).symm⟩
    rw [List.filterMap_nil, List.flatten_nil, List.append_nil]
    exact .refl _
  | cons e es ih =>
    obtain ⟨s₁, hs₁, hrun'⟩ := run_cons_eq_some.mp hrun
    have hrest := halong.2
    rw [hs₁] at hrest
    obtain ⟨h₁, out₁, hred₁, hout₁⟩ := hstep s e s₁ h halong.1 hs₁
    obtain ⟨hinv, out₂, hred₂, hout₂⟩ := ih h₁ hrest hrun'
    refine ⟨hinv, out₁ ++ out₂, ?_, by rw [hout₂, hout₁, List.append_assoc]⟩
    -- the first reduction is still one with the later pieces behind it
    have hinput : ((e :: es).filterMap input).flatten =
        (input e).getD [] ++ (es.filterMap input).flatten := by
      cases hi : input e with
      | none => rw [List.filterMap_cons_none hi, Option.getD_none, List.nil_append]
      | some piece => rw [List.filterMap_cons_some hi, List.flatten_cons, Option.getD_some]
    rw [hinput, ← List.append_assoc]
    exact (hred₁.append _).trans hred₂

/-- A machine that decodes a stream: what it has pending, and the invariant under which its steps
reduce it. -/
structure Decodes (F : Framing α β) (step : σ → ε → Option σ) (P : ε → Prop)
    (input : ε → Option (List α)) (emitted : σ → List (β × List α)) where
  pending : σ → List α
  Inv : σ → Prop
  /-- The machine can read. -/
  Reading : σ → Prop
  inv_step : ∀ s e s', Inv s → P e → step s e = some s' → Inv s'
  reduces : ∀ s e s', Inv s → P e → step s e = some s' →
    ∃ out, F.Reduces (pending s ++ (input e).getD []) out (pending s') ∧
      emitted s' = emitted s ++ out
  /-- No complete frame is pending. -/
  scan_pending : ∀ s, Inv s → F.scan (pending s) = []
  read : ∀ s, Inv s → Reading s → ∀ piece, ∃ e s', P e ∧ input e = some piece ∧
    step s e = some s' ∧ Reading s'

namespace Decodes

variable {F : Framing α β} {step : σ → ε → Option σ} {P : ε → Prop} {input : ε → Option (List α)}
  {emitted : σ → List (β × List α)} (D : F.Decodes step P input emitted) {s s' : σ}

/-- A run reduces what is pending and all that it reads. -/
theorem run_reduces {es : List ε} (h : D.Inv s) (hes : ∀ e ∈ es, P e)
    (hrun : run step s es = some s') :
    D.Inv s' ∧ ∃ out, F.Reduces (D.pending s ++ (es.filterMap input).flatten) out (D.pending s') ∧
      emitted s' = emitted s ++ out :=
  reduces_along (fun s e s' h he hs => ⟨D.inv_step s e s' h he hs, D.reduces s e s' h he hs⟩) h
    (Along.of_forall hes) hrun

/-- A machine that can read can read any pieces. -/
theorem exists_run (h : D.Inv s) (hr : D.Reading s) (pieces : List (List α)) :
    ∃ es s', (∀ e ∈ es, P e) ∧ es.filterMap input = pieces ∧ run step s es = some s' := by
  induction pieces generalizing s with
  | nil => exact ⟨[], s, fun e he => absurd he List.not_mem_nil, rfl, rfl⟩
  | cons piece pieces ih =>
    obtain ⟨e, s₁, he, hinput, hs₁, hr₁⟩ := D.read s h hr piece
    obtain ⟨es, s', hes, hpieces, hrun⟩ := ih (D.inv_step s e s₁ h he hs₁) hr₁
    refine ⟨e :: es, s', fun e' he' => ?_, ?_, run_cons_eq_some.mpr ⟨s₁, hs₁, hrun⟩⟩
    · rcases List.mem_cons.mp he' with rfl | he'
      · exact he
      · exact hes e' he'
    · rw [List.filterMap_cons_some hinput, hpieces]

/-- **The frames that a decoding machine delivers** are those of the scan of what it has pending and
all that it reads. -/
theorem delivers_iff (h : D.Inv s) (hr : D.Reading s) (pieces : List (List α))
    (out : List (β × List α)) :
    Delivers step P input emitted s pieces out ↔
      out = F.scan (D.pending s ++ pieces.flatten) := by
  -- nothing complete is pending in the end, so that all frames of the scan have been emitted
  have hemitted : ∀ es s', (∀ e ∈ es, P e) → run step s es = some s' →
      emitted s' = emitted s ++ F.scan (D.pending s ++ (es.filterMap input).flatten) := by
    intro es s' hes hrun
    obtain ⟨hinv, out, hred, hout⟩ := D.run_reduces h hes hrun
    rw [hout, hred.scan_eq, D.scan_pending s' hinv, List.append_nil]
  constructor
  · rintro ⟨es, s', hes, rfl, hrun, hout⟩
    exact List.append_cancel_left (hout.symm.trans (hemitted es s' hes hrun))
  · rintro rfl
    obtain ⟨es, s', hes, rfl, hrun⟩ := D.exists_run h hr pieces
    exact ⟨es, s', hes, rfl, hrun, hemitted es s' hes hrun⟩

end Decodes

end Framing

end MyUvpp
