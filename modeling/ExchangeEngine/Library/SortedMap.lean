import Mathlib.Data.List.Basic
import Mathlib.Data.List.Pairwise
import Mathlib.Tactic.Common

/-!
# Ordered maps as sorted association lists

`std::map` and its kin, as the list of their entries in key order. Each operation is described by
how it splits the list at the key.
-/

namespace SortedMap

variable {κ ν : Type*} [DecidableEq κ] (lt : κ → κ → Prop) [DecidableRel lt]

/-- Update the value at `k`; a missing key is first given the default value `d`. -/
def modify (d : ν) (k : κ) (f : ν → ν) : List (κ × ν) → List (κ × ν)
  | [] => [(k, f d)]
  | (j, v) :: m =>
    if j = k then (j, f v) :: m
    else if lt k j then (k, f d) :: (j, v) :: m
    else (j, v) :: modify d k f m

/-- The value at `k`. -/
def find (k : κ) : List (κ × ν) → Option ν
  | [] => none
  | (j, v) :: m => if j = k then some v else find k m

/-- Remove the entry at `k`. -/
def erase (k : κ) (m : List (κ × ν)) : List (κ × ν) := m.filter fun e => decide (e.1 ≠ k)

/-- The keys ascend. -/
def Sorted (m : List (κ × ν)) : Prop := m.Pairwise fun e e' => lt e.1 e'.1

variable {lt} {d v : ν} {k : κ} {f : ν → ν} {m pre post : List (κ × ν)}

/-- The list is cut at `k`: smaller keys before, greater keys behind. -/
structure Cut (lt : κ → κ → Prop) (k : κ) (pre post : List (κ × ν)) : Prop where
  before : ∀ e ∈ pre, lt e.1 k
  behind : ∀ e ∈ post, lt k e.1

/-- Where `modify` works: at the entry of the key, or at the place where it belongs. -/
lemma modify_split (hs : Sorted lt m) (htri : ∀ i j, i ≠ j → ¬ lt i j → lt j i)
    (htrans : ∀ i j l, lt i j → lt j l → lt i l) :
    ∃ pre post, Cut lt k pre post ∧
      (m = pre ++ post ∧ modify lt d k f m = pre ++ (k, f d) :: post ∨
        ∃ v, m = pre ++ (k, v) :: post ∧ modify lt d k f m = pre ++ (k, f v) :: post) := by
  induction m with
  | nil => exact ⟨[], [], ⟨by simp, by simp⟩, Or.inl ⟨rfl, rfl⟩⟩
  | cons e m ih =>
    obtain ⟨j, v⟩ := e
    obtain ⟨hj, hs⟩ := List.pairwise_cons.mp hs
    by_cases hjk : j = k
    · subst hjk
      exact ⟨[], m, ⟨by simp, hj⟩, Or.inr ⟨v, rfl, by simp [modify]⟩⟩
    · by_cases hkj : lt k j
      · refine ⟨[], (j, v) :: m, ⟨by simp, ?_⟩, Or.inl ⟨rfl, by simp [modify, hjk, hkj]⟩⟩
        intro e he
        rcases List.mem_cons.mp he with rfl | he
        · exact hkj
        · exact htrans _ _ _ hkj (hj e he)
      · obtain ⟨pre, post, hcut, hm⟩ := ih hs
        refine ⟨(j, v) :: pre, post, ⟨?_, hcut.behind⟩, ?_⟩
        · intro e he
          rcases List.mem_cons.mp he with rfl | he
          · exact htri _ _ (Ne.symm hjk) hkj
          · exact hcut.before e he
        · rcases hm with ⟨rfl, hmod⟩ | ⟨v', rfl, hmod⟩
          · exact Or.inl ⟨rfl, by simp [modify, hjk, hkj, hmod]⟩
          · exact Or.inr ⟨v', rfl, by simp [modify, hjk, hkj, hmod]⟩

omit [DecidableEq κ] [DecidableRel lt] in
lemma cut_of_sorted (hs : Sorted lt (pre ++ (k, v) :: post)) : Cut lt k pre post := by
  obtain ⟨-, hpost, hcross⟩ := List.pairwise_append.mp hs
  exact ⟨fun e he => hcross e he (k, v) (by simp), (List.pairwise_cons.mp hpost).1⟩

omit [DecidableEq κ] [DecidableRel lt] in
lemma Cut.sorted (hcut : Cut lt k pre post) (hpre : Sorted lt pre) (hpost : Sorted lt post)
    (htrans : ∀ i j l, lt i j → lt j l → lt i l) : Sorted lt (pre ++ (k, v) :: post) := by
  refine List.pairwise_append.mpr ⟨hpre, List.pairwise_cons.mpr ⟨hcut.behind, hpost⟩, ?_⟩
  intro e he e' he'
  rcases List.mem_cons.mp he' with rfl | he'
  · exact hcut.before e he
  · exact htrans _ _ _ (hcut.before e he) (hcut.behind e' he')

omit [DecidableRel lt] in
lemma find_eq_some_iff (hs : Sorted lt m) (hirrefl : ∀ k, ¬ lt k k) :
    find k m = some v ↔ (k, v) ∈ m := by
  induction m with
  | nil => simp [find]
  | cons e m ih =>
    obtain ⟨j, w⟩ := e
    obtain ⟨hj, hs⟩ := List.pairwise_cons.mp hs
    rw [find, List.mem_cons, Prod.mk.injEq]
    split_ifs with h
    · subst h
      constructor
      · intro e
        exact Or.inl ⟨rfl, (Option.some.inj e).symm⟩
      · rintro (⟨-, rfl⟩ | hmem)
        · rfl
        · exact absurd (hj _ hmem) (hirrefl _)
    · rw [ih hs]
      exact ⟨Or.inr, fun e => e.resolve_left fun e => h e.1.symm⟩

omit [DecidableRel lt] in
lemma erase_split (hcut : Cut lt k pre post) (hirrefl : ∀ k, ¬ lt k k) :
    erase k (pre ++ (k, v) :: post) = pre ++ post := by
  have hkeep : ∀ l : List (κ × ν), (∀ e ∈ l, lt e.1 k ∨ lt k e.1) → erase k l = l := by
    intro l hl
    rw [erase, List.filter_eq_self]
    intro e he
    apply decide_eq_true
    intro hek
    rcases hl e he with h | h
    · exact hirrefl k (hek ▸ h)
    · exact hirrefl k (hek ▸ h)
  rw [erase, List.filter_append, List.filter_cons_of_neg (by simp)]
  exact congrArg₂ _ (hkeep pre fun e he => Or.inl (hcut.before e he))
    (hkeep post fun e he => Or.inr (hcut.behind e he))

lemma modify_of_split (hcut : Cut lt k pre post) (hirrefl : ∀ k, ¬ lt k k)
    (hasymm : ∀ i j, lt i j → ¬ lt j i) :
    modify lt d k f (pre ++ (k, v) :: post) = pre ++ (k, f v) :: post := by
  have hbefore := hcut.before
  clear hcut
  induction pre with
  | nil => simp [modify]
  | cons e pre ih =>
    obtain ⟨j, w⟩ := e
    have hj : lt j k := hbefore (j, w) (by simp)
    have hne : j ≠ k := by
      rintro rfl
      exact hirrefl _ hj
    rw [List.cons_append, modify, if_neg hne, if_neg (hasymm _ _ hj),
      ih fun e he => hbefore e (by simp [he])]
    rfl

end SortedMap
