import Mathlib.Data.List.Basic

/-!
# Runs of a labelled step relation

A run of a step relation `step s e s'` from a state `s₀` is a finite sequence of steps. Its
*trace* lists every step by the state it was taken in and its label, the latest step first, so
that a condition on the steps of a run is a condition on the members of its trace, and a quantity
accumulated along a run is a recursion on its trace.

## Main definitions

* `Foundation.Run`: runs, with their traces.

## Main results

* `Foundation.Run.invariant`: a property preserved by the steps that meet a condition holds at the
  end of every run whose steps all meet it.
* `Foundation.Run.trans`, `Foundation.Run.split_of_mem`: runs compose, and split at their steps.
* `Foundation.Run.eq_of_labels`: a run of a deterministic relation is determined by its labels.
* `Foundation.Run.project`: a component whose steps a relation describes makes a run of its own.
* `Foundation.Run.simulate`: a run whose steps are matched by runs of another relation is, with
  the conditions on the steps.
-/

namespace Foundation

variable {σ ε : Type*} {step : σ → ε → σ → Prop} {s₀ s s' : σ} {tr tr' : List (σ × ε)}

/-- `Run step s₀ tr s`: the steps of `tr`, the latest first, lead from `s₀` to `s`. -/
inductive Run (step : σ → ε → σ → Prop) (s₀ : σ) : List (σ × ε) → σ → Prop
  | start : Run step s₀ [] s₀
  | step {tr : List (σ × ε)} {s : σ} {e : ε} {s' : σ} (run : Run step s₀ tr s)
      (h : step s e s') : Run step s₀ ((s, e) :: tr) s'

namespace Run

/-- **Invariants of runs under a condition on their steps.** A property that holds at the start
and is preserved by every step meeting `C` holds at the end of a run whose steps all meet `C`. -/
theorem invariant {P : σ → Prop} {C : σ → ε → Prop} (start : P s₀)
    (preserved : ∀ s e s', P s → C s e → step s e s' → P s')
    (run : Run step s₀ tr s) (cond : ∀ t ∈ tr, C t.1 t.2) : P s := by
  induction run with
  | start => exact start
  | step run h ih =>
    rw [List.forall_mem_cons] at cond
    exact preserved _ _ _ (ih cond.2) cond.1 h

/-- A property preserved by every step holds at the end of every run. -/
theorem invariant_all {P : σ → Prop} (start : P s₀)
    (preserved : ∀ s e s', P s → step s e s' → P s') (run : Run step s₀ tr s) : P s :=
  run.invariant (C := fun _ _ => True) start (fun s e s' hs _ => preserved s e s' hs)
    fun _ _ => trivial

/-- The steps of a run start in states in which an invariant of all steps holds. -/
theorem restrict {P : σ → Prop} (start : P s₀) (preserved : ∀ s e s', P s → step s e s' → P s')
    (run : Run step s₀ tr s) : Run (fun s e s' => P s ∧ step s e s') s₀ tr s := by
  induction run with
  | start => exact .start
  | step run h ih => exact ih.step ⟨run.invariant_all start preserved, h⟩

/-- Runs compose, the trace of the later one in front. -/
theorem trans (run : Run step s₀ tr s) (run' : Run step s tr' s') :
    Run step s₀ (tr' ++ tr) s' := by
  induction run' with
  | start => exact run
  | step _ h ih => exact ih.step h

/-- A run, split at one of its steps. -/
theorem split_of_mem (run : Run step s₀ tr s) {t : σ × ε} (ht : t ∈ tr) :
    ∃ tr₁ s₁ tr₂, Run step s₀ tr₁ t.1 ∧ step t.1 t.2 s₁ ∧ Run step s₁ tr₂ s := by
  induction run with
  | start => cases ht
  | @step tr s e s' run h ih =>
    rcases List.mem_cons.mp ht with rfl | ht
    · exact ⟨tr, s', [], run, h, .start⟩
    · obtain ⟨tr₁, s₁, tr₂, run₁, h₁, run₂⟩ := ih ht
      exact ⟨tr₁, s₁, _, run₁, h₁, run₂.step h⟩

/-- The states that a run passes through are reached by runs. -/
theorem of_mem (run : Run step s₀ tr s) {t : σ × ε} (ht : t ∈ tr) :
    ∃ tr', Run step s₀ tr' t.1 := by
  obtain ⟨tr₁, _, _, run₁, -, -⟩ := run.split_of_mem ht
  exact ⟨tr₁, run₁⟩

/-- A run of a deterministic relation is determined by its labels. -/
theorem eq_of_labels (hdet : ∀ s e s' s'', step s e s' → step s e s'' → s' = s'')
    (run : Run step s₀ tr s) (run' : Run step s₀ tr' s')
    (hlabels : tr.map Prod.snd = tr'.map Prod.snd) : s = s' := by
  induction run generalizing tr' s' with
  | start =>
    cases run' with
    | start => rfl
    | step => cases hlabels
  | step run h ih =>
    cases run' with
    | start => cases hlabels
    | step run' h' =>
      rw [List.map_cons, List.map_cons, List.cons.injEq] at hlabels
      obtain ⟨rfl, hlabels⟩ := hlabels
      obtain rfl := ih run' hlabels
      exact hdet _ _ _ _ h h'

/-- **Runs of a component.** If every step either leaves a component `f` as it is or makes the
component take a step of its own relation, then the component makes a run. -/
theorem project {σ' ε' : Type*} {step' : σ' → ε' → σ' → Prop} (f : σ → σ')
    (label : σ → ε → Option ε')
    (hstep : ∀ s e s', step s e s' →
      (label s e = none ∧ f s' = f s) ∨ ∃ e', label s e = some e' ∧ step' (f s) e' (f s'))
    (run : Run step s₀ tr s) :
    Run step' (f s₀) (tr.filterMap fun t => (label t.1 t.2).map fun e' => (f t.1, e')) (f s) := by
  induction run with
  | start => exact .start
  | step run h ih =>
    rcases hstep _ _ _ h with ⟨hnone, hf⟩ | ⟨e', hsome, h'⟩
    · rw [List.filterMap_cons_none (by rw [hnone]; rfl), hf]
      exact ih
    · rw [List.filterMap_cons_some (by rw [hsome]; rfl)]
      exact ih.step h'

/-- **Simulation.** If every step that meets `C` is matched by a run of another relation that keeps
`R` and whose steps meet `D`, then every run whose steps meet `C` is. -/
theorem simulate {σ' ε' : Type*} {step' : σ' → ε' → σ' → Prop} {R : σ → σ' → Prop} {t₀ : σ'}
    {C : σ → ε → Prop} {D : σ' → ε' → Prop} (start : R s₀ t₀)
    (hstep : ∀ tr s e s' t, Run step s₀ tr s → C s e → step s e s' → R s t →
      ∃ tr' t', Run step' t tr' t' ∧ R s' t' ∧ ∀ x ∈ tr', D x.1 x.2)
    (run : Run step s₀ tr s) (cond : ∀ t ∈ tr, C t.1 t.2) :
    ∃ tr' t, Run step' t₀ tr' t ∧ R s t ∧ ∀ x ∈ tr', D x.1 x.2 := by
  induction run with
  | start => exact ⟨[], t₀, .start, start, fun x hx => absurd hx List.not_mem_nil⟩
  | step run h ih =>
    rw [List.forall_mem_cons] at cond
    obtain ⟨tr', t, run', hR, hcond'⟩ := ih cond.2
    obtain ⟨tr'', t', run'', hR', hcond''⟩ := hstep _ _ _ _ _ run cond.1 h hR
    exact ⟨_, t', run'.trans run'', hR', List.forall_mem_append.mpr ⟨hcond'', hcond'⟩⟩

end Run

end Foundation
