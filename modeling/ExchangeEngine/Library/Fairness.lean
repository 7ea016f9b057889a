import ExchangeEngine.Library.Transition
import Mathlib.Order.WellFounded

/-!
# Fair executions

The threads of a system are given turns for ever. If, short of a goal, there is always a thread
whose turn brings the system closer, and no other thread takes it further away or makes another one
responsible, then the goal is reached in whatever order the turns come, as long as none of the
threads is left out for good.
-/

namespace Transition

variable {σ ε ω τ μ : Type*}

/-- At each instant an event is tried; where it cannot happen, the turn passes. -/
def Execution (step : σ → ε → Option (σ × List ω)) (s : Nat → σ) (e : Nat → ε) : Prop :=
  ∀ i, (∃ out, step (s i) (e i) = some (s (i + 1), out)) ∨
    step (s i) (e i) = none ∧ s (i + 1) = s i

/-- No thread is left out for good. -/
def Fair (thread : ε → τ) (e : Nat → ε) : Prop := ∀ θ i, ∃ j, i ≤ j ∧ thread (e j) = θ

/-- Short of the goal, the helper can move; its moves lower the measure, and no other move raises it
or changes the helper without lowering it. -/
structure Helps [Preorder μ] (step : σ → ε → Option (σ × List ω)) (allowed : σ → ε → Prop)
    (thread : ε → τ) (inv goal : σ → Prop) (measure : σ → μ) (helper : σ → τ) : Prop where
  keeps : ∀ {s s' e out}, inv s → allowed s e → step s e = some (s', out) → inv s'
  moves : ∀ {s e}, inv s → ¬ goal s → allowed s e → thread e = helper s →
    (step s e).isSome = true
  descends : ∀ {s s' e out}, inv s → ¬ goal s → allowed s e → step s e = some (s', out) →
    measure s' < measure s ∨
      measure s' = measure s ∧ helper s' = helper s ∧ thread e ≠ helper s

variable {step : σ → ε → Option (σ × List ω)} {allowed : σ → ε → Prop} {thread : ε → τ}
  {inv goal : σ → Prop} {s : Nat → σ} {e : Nat → ε}

/-- What each event keeps holds throughout. -/
lemma Execution.invariant {P : σ → Prop} (h : Execution step s e)
    (hallowed : ∀ i, allowed (s i) (e i))
    (hkeeps : ∀ {x x' ev out}, P x → allowed x ev → step x ev = some (x', out) → P x')
    {i : Nat} (hi : P (s i)) {j : Nat} (hij : i ≤ j) : P (s j) := by
  induction j, hij using Nat.le_induction with
  | base => exact hi
  | succ j _ ih =>
    rcases h j with ⟨out, hstep⟩ | ⟨-, hsame⟩
    · exact hkeeps ih (hallowed j) hstep
    · rwa [hsame]

/-- **Every fair execution reaches the goal.** -/
theorem Helps.reaches [Preorder μ] [WellFoundedLT μ] {measure : σ → μ} {helper : σ → τ}
    (h : Helps step allowed thread inv goal measure helper) (hexec : Execution step s e)
    (hfair : Fair thread e) (hallowed : ∀ i, allowed (s i) (e i)) (h₀ : inv (s 0)) :
    ∃ i, goal (s i) := by
  by_contra! hnever
  have hinv : ∀ i, inv (s i) := fun i => hexec.invariant hallowed h.keeps h₀ i.zero_le
  have hnone : ∀ x i, measure (s i) = x → False := by
    intro x
    induction x using WellFoundedLT.induction with
    | ind x ih =>
      intro i hi
      obtain ⟨j, hij, hturn⟩ := hfair (helper (s i)) i
      -- nothing happens to the measure before the helper's turn
      have hwaits : measure (s j) = x ∧ helper (s j) = helper (s i) := by
        clear hturn
        induction j, hij using Nat.le_induction with
        | base => exact ⟨hi, rfl⟩
        | succ j _ hwaits =>
          rcases hexec j with ⟨out, hstep⟩ | ⟨-, hsame⟩
          · rcases h.descends (hinv j) (hnever j) (hallowed j) hstep with hlt | ⟨heq, hhelper, -⟩
            · exact absurd rfl (ih _ (hwaits.1 ▸ hlt) (j + 1))
            · exact ⟨heq.trans hwaits.1, hhelper.trans hwaits.2⟩
          · rwa [hsame]
      have hturn : thread (e j) = helper (s j) := hturn.trans hwaits.2.symm
      rcases hexec j with ⟨out, hstep⟩ | ⟨hblocked, -⟩
      · rcases h.descends (hinv j) (hnever j) (hallowed j) hstep with hlt | ⟨-, -, hother⟩
        · exact ih _ (hwaits.1 ▸ hlt) (j + 1) rfl
        · exact hother hturn
      · have hmoves := h.moves (hinv j) (hnever j) (hallowed j) hturn
        rw [hblocked] at hmoves
        cases hmoves
  exact hnone _ 0 rfl

/-- A goal that is kept is reached for good. -/
theorem Helps.settles [Preorder μ] [WellFoundedLT μ] {measure : σ → μ} {helper : σ → τ}
    (h : Helps step allowed thread inv goal measure helper)
    (hkept : ∀ {x x' ev out}, inv x → goal x → allowed x ev → step x ev = some (x', out) → goal x')
    (hexec : Execution step s e) (hfair : Fair thread e) (hallowed : ∀ i, allowed (s i) (e i))
    (h₀ : inv (s 0)) : ∃ i, ∀ j, i ≤ j → goal (s j) := by
  obtain ⟨i, hi⟩ := h.reaches hexec hfair hallowed h₀
  have hinv := hexec.invariant hallowed h.keeps h₀ i.zero_le
  refine ⟨i, fun j hij =>
    (hexec.invariant (P := fun x => inv x ∧ goal x) hallowed ?_ ⟨hinv, hi⟩ hij).2⟩
  rintro x x' ev out ⟨hx, hgoal⟩ hev hstep
  exact ⟨h.keeps hx hev hstep, hkept hx hgoal hev hstep⟩

/-- The states that an order of turns leads to. -/
def states (step : σ → ε → Option (σ × List ω)) (e : Nat → ε) (s₀ : σ) : Nat → σ
  | 0 => s₀
  | i + 1 => ((step (states step e s₀ i) (e i)).map Prod.fst).getD (states step e s₀ i)

lemma execution_states {s₀ : σ} : Execution step (states step e s₀) e := by
  intro i
  rw [states]
  cases hstep : step (states step e s₀ i) (e i) with
  | none => exact Or.inr ⟨rfl, rfl⟩
  | some r => exact Or.inl ⟨r.2, rfl⟩

end Transition
