import Mathlib.Data.List.Basic
import Mathlib.Tactic.Common

/-!
# Runs of a transition system

A system takes steps on events, and each step has outputs; where the step of an event is `none`, the
event does not happen. Runs are built from their end: an invariant is one of the first state and of
each step, and a simulation of the steps is one of the runs.
-/

namespace Transition

variable {σ σ' ε ε' ω ω' : Type*}

/-- From `s₀`, by events that are allowed where they happen, the system reaches a state; `out` are
the outputs on the way. -/
inductive Run (step : σ → ε → Option (σ × List ω)) (allowed : σ → ε → Prop) (s₀ : σ) :
    σ → List ω → Prop
  | refl : Run step allowed s₀ s₀ []
  | step {s s' : σ} {out out' : List ω} {e : ε} (hrun : Run step allowed s₀ s out)
      (hallowed : allowed s e) (hstep : step s e = some (s', out')) :
      Run step allowed s₀ s' (out ++ out')

variable {step : σ → ε → Option (σ × List ω)} {allowed allowed' : σ → ε → Prop} {s₀ s s' : σ}
  {out out' : List ω} {e : ε}

/-- **An invariant** of states and outputs. -/
theorem Run.invariant {P : σ → List ω → Prop} (h : Run step allowed s₀ s out) (h₀ : P s₀ [])
    (hstep : ∀ s s' e out out', P s out → allowed s e → step s e = some (s', out') →
      P s' (out ++ out')) : P s out := by
  induction h with
  | refl => exact h₀
  | step _ hallowed hnext ih => exact hstep _ _ _ _ _ ih hallowed hnext

lemma Run.mono (hallowed : ∀ s e, allowed s e → allowed' s e) (h : Run step allowed s₀ s out) :
    Run step allowed' s₀ s out :=
  h.invariant .refl fun _ _ _ _ _ ih he hstep => ih.step (hallowed _ _ he) hstep

lemma Run.single (hallowed : allowed s e) (hstep : step s e = some (s', out)) :
    Run step allowed s s' out := by
  rw [← List.nil_append out]
  exact Run.refl.step hallowed hstep

lemma Run.trans (h : Run step allowed s₀ s out) (h' : Run step allowed s s' out') :
    Run step allowed s₀ s' (out ++ out') := by
  induction h' with
  | refl =>
    rw [List.append_nil]
    exact h
  | step _ hallowed hstep ih =>
    rw [← List.append_assoc]
    exact ih.step hallowed hstep

/-! ### Executable runs -/

/-- Let the events happen in order, as long as they are allowed. -/
def runEvents (step : σ → ε → Option (σ × List ω)) (allowed : σ → ε → Prop)
    [∀ s e, Decidable (allowed s e)] (s : σ) : List ε → Option (σ × List ω)
  | [] => some (s, [])
  | e :: es =>
    if allowed s e then do
      let (s', out) ← step s e
      let (s'', out') ← runEvents step allowed s' es
      some (s'', out ++ out')
    else none

theorem run_of_runEvents [∀ s e, Decidable (allowed s e)] {es : List ε}
    (h : runEvents step allowed s es = some (s', out)) : Run step allowed s s' out := by
  induction es generalizing s out with
  | nil =>
    obtain ⟨rfl, rfl⟩ := Prod.mk.inj (Option.some.inj h)
    exact .refl
  | cons e es ih =>
    rw [runEvents] at h
    split_ifs at h with hallowed
    obtain ⟨⟨s₁, out₁⟩, hstep, h⟩ := Option.bind_eq_some_iff.mp h
    obtain ⟨⟨s₂, out₂⟩, hrest, h⟩ := Option.bind_eq_some_iff.mp h
    obtain ⟨rfl, rfl⟩ := Prod.mk.inj (Option.some.inj h)
    exact (Run.single hallowed hstep).trans (ih hrest)

/-! ### Simulation -/

/-- **A simulation.** If each step can be followed by some steps of another system that keep the
states related and have outputs that match, then so can each run. -/
theorem Run.simulate {step' : σ' → ε' → Option (σ' × List ω')} {allowed' : σ' → ε' → Prop}
    {R : σ → σ' → Prop} {view : ω → List ω'} {t₀ : σ'} (h : Run step allowed s₀ s out)
    (h₀ : R s₀ t₀)
    (hstep : ∀ s s' e out t, R s t → allowed s e → step s e = some (s', out) →
      ∃ t', Run step' allowed' t t' (out.flatMap view) ∧ R s' t') :
    ∃ t, Run step' allowed' t₀ t (out.flatMap view) ∧ R s t := by
  refine h.invariant (P := fun s out => ∃ t, Run step' allowed' t₀ t (out.flatMap view) ∧ R s t)
    ⟨t₀, .refl, h₀⟩ ?_
  intro s s' e out out' ⟨t, hrun, hR⟩ hallowed hnext
  obtain ⟨t', hrun', hR'⟩ := hstep s s' e out' t hR hallowed hnext
  rw [List.flatMap_append]
  exact ⟨t', hrun.trans hrun', hR'⟩

end Transition
