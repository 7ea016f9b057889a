import Mathlib.Data.List.Basic
import Mathlib.Data.Nat.ModEq
import Mathlib.Logic.Function.Basic
import Mathlib.Tactic.Common

/-!
# Windows of a circular buffer

The positions of an unbounded stream are stored in the slots of a buffer, modulo its size. A window
is a stretch of the stream that the buffer holds; as long as it is shorter than the buffer, writing
elsewhere does not disturb it.
-/

namespace Ring

variable {α : Type*} {size lo i j : Nat} {buffer : Nat → α} {a : α} {l : List α}

/-- The positions from `lo` on hold `l`. -/
def Window (size : Nat) (buffer : Nat → α) (lo : Nat) (l : List α) : Prop :=
  ∀ i (h : i < l.length), buffer ((lo + i) % size) = l[i]

/-- Positions less than one round apart have different slots. -/
lemma slot_ne (h : i < j) (hlt : j < i + size) : i % size ≠ j % size := by
  intro heq
  have hdvd : size ∣ j - i := (Nat.modEq_iff_dvd' h.le).mp heq
  have hle : size ≤ j - i := Nat.le_of_dvd (Nat.sub_pos_of_lt h) hdvd
  omega

/-- Positions at most one round apart share their slot only at the full round. -/
lemma slot_eq_iff (hlt : i < j) (hle : j ≤ i + size) : j % size = i % size ↔ j = i + size := by
  constructor
  · intro heq
    by_contra hne
    exact slot_ne hlt (lt_of_le_of_ne hle hne) heq.symm
  · rintro rfl
    exact Nat.add_mod_right i size

/-- The slot behind a slot. -/
lemma succ_slot (i size : Nat) : (i % size + 1) % size = (i + 1) % size :=
  Nat.mod_add_mod i size 1

lemma window_nil : Window size buffer lo [] := by
  intro i h
  exact absurd h (Nat.not_lt_zero i)

lemma window_cons :
    Window size buffer lo (a :: l) ↔ buffer (lo % size) = a ∧ Window size buffer (lo + 1) l := by
  constructor
  · intro h
    refine ⟨h 0 (Nat.succ_pos _), ?_⟩
    intro i hi
    have hpos : lo + 1 + i = lo + (i + 1) := by omega
    rw [hpos]
    exact h (i + 1) (Nat.succ_lt_succ hi)
  · rintro ⟨ha, h⟩ i hi
    cases i with
    | zero => exact ha
    | succ i =>
      have hpos : lo + (i + 1) = lo + 1 + i := by omega
      rw [hpos]
      exact h i (Nat.lt_of_succ_lt_succ hi)

/-- A position behind the window is written. -/
lemma Window.update (h : Window size buffer lo l) (hle : lo + l.length ≤ j) (hlt : j < lo + size) :
    Window size (Function.update buffer (j % size) a) lo l := by
  intro i hi
  rw [Function.update_of_ne]
  · exact h i hi
  · exact slot_ne (by omega) (by omega)

/-- The position behind the window joins it. -/
lemma Window.snoc (h : Window size buffer lo l) (ha : buffer ((lo + l.length) % size) = a) :
    Window size buffer lo (l ++ [a]) := by
  intro i hi
  rw [List.length_append, List.length_singleton] at hi
  rcases Nat.lt_or_eq_of_le (Nat.le_of_lt_succ hi) with hlt | rfl
  · rw [List.getElem_append_left hlt]
    exact h i hlt
  · rw [List.getElem_concat_length rfl]
    exact ha

end Ring
