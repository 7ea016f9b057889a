import Mathlib.Tactic.Common

/-!
# Computations that may throw

Taking apart what has returned.
-/

namespace Except

universe u

variable {ε ε' : Type*} {α β γ : Type u}

lemma bind_eq_ok {x : Except ε α} {f : α → Except ε β} {b : β} (h : x >>= f = .ok b) :
    ∃ a, x = .ok a ∧ f a = .ok b := by
  cases x with
  | ok a => exact ⟨a, rfl, h⟩
  | error e => cases h

lemma mapError_eq_ok {x : Except ε α} {f : ε → ε'} {a : α} (h : x.mapError f = .ok a) :
    x = .ok a := by
  cases x with
  | ok b => exact congrArg ok (ok.inj h)
  | error e => cases h

lemma ok_bind (a : α) (f : α → Except ε β) : (.ok a : Except ε α) >>= f = f a := rfl

lemma map_bind (x : Except ε α) (f : α → Except ε β) (h : β → γ) :
    (x >>= f).map h = x >>= fun a => (f a).map h := by
  cases x with
  | ok a => rfl
  | error e => rfl

lemma bind_map (x : Except ε α) (h : α → β) (f : β → Except ε γ) :
    x.map h >>= f = x >>= fun a => f (h a) := by
  cases x with
  | ok a => rfl
  | error e => rfl

lemma bind_congr {x : Except ε α} {f f' : α → Except ε β} (h : ∀ a, f a = f' a) :
    x >>= f = x >>= f' := by
  rw [funext h]

end Except
