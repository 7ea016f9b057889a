import Mathlib.Algebra.BigOperators.Group.List.Basic
import Mathlib.Data.List.TakeWhile
import Mathlib.Tactic.Common
import Mathlib.Tactic.Ring

/-!
# Consuming a queue from the front

A queue of items, each with a quantity. A demand of `n` units is served front to back: `takes`
lists what is taken from each item reached, `rest` is the queue left behind, in which the item
that ends the demand may be reduced. Serving a concatenation is serving its parts in turn, and
nothing is lost: for any weight per unit, what is taken and what is left add up to what was
there.
-/

namespace Consume

variable {α : Type*} (qty : α → Nat) (reduce : α → Nat → α)

/-- The quantity in a queue. -/
def total (l : List α) : Nat := (l.map qty).sum

/-- The items reached by a demand of `n` units, with the quantity taken from each. -/
def takes (n : Nat) : List α → List (α × Nat)
  | [] => []
  | a :: l => if n = 0 then [] else (a, min n (qty a)) :: takes (n - qty a) l

/-- The queue after a demand of `n` units. -/
def rest (n : Nat) : List α → List α
  | [] => []
  | a :: l =>
    if n = 0 then a :: l
    else if qty a ≤ n then rest (n - qty a) l
    else reduce a n :: l

variable {qty reduce}
variable {n : Nat} {a : α} {l l₁ l₂ : List α}

@[simp] lemma total_nil : total qty [] = 0 := rfl

@[simp] lemma total_cons : total qty (a :: l) = qty a + total qty l := by simp [total]

@[simp] lemma total_append : total qty (l₁ ++ l₂) = total qty l₁ + total qty l₂ := by
  simp [total]

@[simp] lemma takes_nil : takes qty n [] = [] := rfl

@[simp] lemma takes_zero : takes qty 0 l = [] := by cases l <;> simp [takes]

lemma takes_cons (hn : n ≠ 0) :
    takes qty n (a :: l) = (a, min n (qty a)) :: takes qty (n - qty a) l := by
  simp [takes, hn]

@[simp] lemma rest_nil : rest qty reduce n [] = [] := rfl

@[simp] lemma rest_zero : rest qty reduce 0 l = l := by cases l <;> simp [rest]

lemma rest_cons_of_le (hn : n ≠ 0) (h : qty a ≤ n) :
    rest qty reduce n (a :: l) = rest qty reduce (n - qty a) l := by
  simp [rest, hn, h]

lemma rest_cons_of_lt (hn : n ≠ 0) (h : n < qty a) :
    rest qty reduce n (a :: l) = reduce a n :: l := by
  simp [rest, hn, Nat.not_le.mpr h]

lemma takes_append :
    takes qty n (l₁ ++ l₂) = takes qty n l₁ ++ takes qty (n - total qty l₁) l₂ := by
  induction l₁ generalizing n with
  | nil => simp
  | cons a l₁ ih =>
    by_cases hn : n = 0
    · simp [hn]
    · rw [List.cons_append, takes_cons hn, takes_cons hn, ih, total_cons, Nat.sub_sub]
      rfl

lemma rest_append :
    rest qty reduce n (l₁ ++ l₂)
      = rest qty reduce n l₁ ++ rest qty reduce (n - total qty l₁) l₂ := by
  induction l₁ generalizing n with
  | nil => simp
  | cons a l₁ ih =>
    by_cases hn : n = 0
    · simp [hn]
    · rcases Nat.lt_or_ge n (qty a) with h | h
      · have : n - (qty a + total qty l₁) = 0 := by omega
        simp [rest_cons_of_lt hn h, this]
      · rw [List.cons_append, rest_cons_of_le hn h, rest_cons_of_le hn h, ih, total_cons,
          Nat.sub_sub]

/-- A demand that covers the queue empties it. -/
lemma rest_eq_nil (hpos : ∀ a ∈ l, 0 < qty a) (h : total qty l ≤ n) :
    rest qty reduce n l = [] := by
  induction l generalizing n with
  | nil => rfl
  | cons a l ih =>
    have ha := hpos a (by simp)
    rw [total_cons] at h
    rw [rest_cons_of_le (by omega) (by omega)]
    exact ih (fun b hb => hpos b (by simp [hb])) (by omega)

/-- The items reached are a prefix of the queue. -/
lemma takes_prefix : (takes qty n l).map Prod.fst <+: l := by
  induction l generalizing n with
  | nil => simp
  | cons a l ih =>
    by_cases hn : n = 0
    · simp [hn]
    · simpa [takes_cons hn] using ih

lemma mem_of_mem_takes {x : α × Nat} (h : x ∈ takes qty n l) : x.1 ∈ l :=
  takes_prefix.subset (List.mem_map_of_mem h)

/-- The items reached are those with less than the demand before them. -/
lemma mem_takes_iff : (∃ q, (a, q) ∈ takes qty n l) ↔
    ∃ l₁ l₂, l = l₁ ++ a :: l₂ ∧ total qty l₁ < n := by
  induction l generalizing n with
  | nil => simp
  | cons b l ih =>
    by_cases hn : n = 0
    · simp [hn]
    rw [takes_cons hn]
    constructor
    · rintro ⟨q, hq⟩
      rcases List.mem_cons.mp hq with heq | hq
      · obtain ⟨rfl, -⟩ := Prod.mk.inj heq
        exact ⟨[], l, rfl, Nat.pos_of_ne_zero hn⟩
      · obtain ⟨l₁, l₂, rfl, hlt⟩ := ih.mp ⟨q, hq⟩
        exact ⟨b :: l₁, l₂, rfl, by rw [total_cons]; omega⟩
    · rintro ⟨l₁, l₂, heq, hlt⟩
      cases l₁ with
      | nil =>
        obtain ⟨rfl, -⟩ := List.cons.inj heq
        exact ⟨_, List.mem_cons_self⟩
      | cons c l₁ =>
        obtain ⟨rfl, rfl⟩ := List.cons.inj heq
        rw [total_cons] at hlt
        have hless : total qty l₁ < n - qty b := by omega
        obtain ⟨q, hq⟩ := ih.mpr ⟨l₁, l₂, rfl, hless⟩
        exact ⟨q, List.mem_cons_of_mem _ hq⟩

lemma pos_of_mem_takes (hpos : ∀ a ∈ l, 0 < qty a) {x : α × Nat} (h : x ∈ takes qty n l) :
    0 < x.2 ∧ x.2 ≤ qty x.1 := by
  induction l generalizing n with
  | nil => simp at h
  | cons a l ih =>
    by_cases hn : n = 0
    · simp [hn] at h
    · rw [takes_cons hn, List.mem_cons] at h
      rcases h with rfl | h
      · have := hpos a (by simp)
        exact ⟨by simp; omega, Nat.min_le_right _ _⟩
      · exact ih (fun b hb => hpos b (by simp [hb])) h

lemma le_of_mem_takes {x : α × Nat} (h : x ∈ takes qty n l) : x.2 ≤ n := by
  induction l generalizing n with
  | nil => exact absurd h List.not_mem_nil
  | cons a l ih =>
    rcases Nat.eq_zero_or_pos n with rfl | hn
    · rw [takes_zero] at h
      exact absurd h List.not_mem_nil
    · rw [takes_cons hn.ne', List.mem_cons] at h
      rcases h with rfl | h
      · exact Nat.min_le_left _ _
      · exact (ih h).trans (Nat.sub_le _ _)

/-- Every item reached but the last is taken in full. -/
lemma takes_full {pre post : List (α × Nat)} {x : α × Nat}
    (h : takes qty n l = pre ++ x :: post) (hpost : post ≠ []) : x.2 = qty x.1 := by
  induction l generalizing n pre with
  | nil => simp at h
  | cons a l ih =>
    by_cases hn : n = 0
    · simp [hn] at h
    · rw [takes_cons hn] at h
      cases pre with
      | nil =>
        obtain ⟨rfl, hl⟩ := List.cons.inj h
        -- something is taken after `a`, so the demand exceeds `a`
        rcases Nat.le_total n (qty a) with hle | hle
        · rw [Nat.sub_eq_zero_of_le hle, takes_zero] at hl
          exact absurd hl.symm hpost
        · exact Nat.min_eq_right hle
      | cons y pre =>
        exact ih (List.cons.inj h).2

/-- The total taken is the demand, or all there is. -/
lemma total_takes : ((takes qty n l).map Prod.snd).sum = min n (total qty l) := by
  induction l generalizing n with
  | nil => simp
  | cons a l ih =>
    by_cases hn : n = 0
    · simp [hn]
    · rw [takes_cons hn, List.map_cons, List.sum_cons, ih, total_cons]
      omega

lemma mem_rest {b : α} (h : b ∈ rest qty reduce n l) :
    b ∈ l ∨ ∃ a ∈ l, ∃ q < qty a, b = reduce a q := by
  induction l generalizing n with
  | nil => simp at h
  | cons a l ih =>
    by_cases hn : n = 0
    · exact Or.inl (by simpa [hn] using h)
    · rcases Nat.lt_or_ge n (qty a) with hlt | hle
      · rw [rest_cons_of_lt hn hlt, List.mem_cons] at h
        rcases h with rfl | h
        · exact Or.inr ⟨a, by simp, n, hlt, rfl⟩
        · exact Or.inl (by simp [h])
      · rw [rest_cons_of_le hn hle] at h
        rcases ih h with hb | ⟨c, hc, q, hq, rfl⟩
        · exact Or.inl (by simp [hb])
        · exact Or.inr ⟨c, by simp [hc], q, hq, rfl⟩

/-- The queue left is a suffix of the queue, up to what `reduce` keeps. -/
lemma map_rest_suffix {β : Type*} (f : α → β) (hf : ∀ a q, f (reduce a q) = f a) :
    (rest qty reduce n l).map f <:+ l.map f := by
  induction l generalizing n with
  | nil => simp
  | cons a l ih =>
    by_cases hn : n = 0
    · simp [hn]
    · rcases Nat.lt_or_ge n (qty a) with hlt | hle
      · simp [rest_cons_of_lt hn hlt, hf]
      · rw [rest_cons_of_le hn hle, List.map_cons]
        exact ih.trans (List.suffix_cons _ _)

/-- What is left: the items reached, reduced by what was taken, as far as something remains of
them, and the items not reached. -/
lemma rest_eq (hq : ∀ a q, qty (reduce a q) = qty a - q) :
    rest qty reduce n l = ((takes qty n l).map fun x => reduce x.1 x.2).filter
      (fun a => decide (0 < qty a)) ++ l.drop (takes qty n l).length := by
  induction l generalizing n with
  | nil => simp
  | cons a l ih =>
    by_cases hn : n = 0
    · simp [hn]
    · rw [takes_cons hn]
      rcases Nat.lt_or_ge n (qty a) with hlt | hle
      · have hpos : 0 < qty a - n := Nat.sub_pos_of_lt hlt
        simp [rest_cons_of_lt hn hlt, Nat.min_eq_left hlt.le, Nat.sub_eq_zero_of_le hlt.le, hq,
          hpos]
      · simp [rest_cons_of_le hn hle, Nat.min_eq_right hle, hq, ih]

lemma length_takes_le : (takes qty n l).length ≤ l.length := by
  have h : (takes qty n l).map Prod.fst <+: l := takes_prefix
  simpa using h.length_le

/-! ### Queues with a barrier -/

section Barrier

variable (stop : α → Bool)

/-- The items before the first one at which serving must stop. -/
def avail (l : List α) : List α := l.takeWhile fun a => !stop a

/-- The first item at which serving must stop, and everything behind it. -/
def blocked (l : List α) : List α := l.dropWhile fun a => !stop a

variable {stop}

@[simp] lemma avail_append_blocked (stop : α → Bool) (l : List α) :
    avail stop l ++ blocked stop l = l :=
  List.takeWhile_append_dropWhile

lemma mem_avail (h : a ∈ avail stop l) : a ∈ l ∧ stop a = false := by
  refine ⟨List.takeWhile_subset _ h, ?_⟩
  simpa using List.mem_takeWhile_imp h

lemma blocked_eq_nil_iff : blocked stop l = [] ↔ ∀ a ∈ l, stop a = false := by
  simp [blocked, List.dropWhile_eq_nil_iff]

lemma avail_of_blocked_eq_nil (h : blocked stop l = []) : avail stop l = l := by
  conv_rhs => rw [← avail_append_blocked stop l, h, List.append_nil]

lemma avail_cons_of_stop (h : stop a = true) : avail stop (a :: l) = [] := by
  simp [avail, h]

lemma blocked_cons_of_stop (h : stop a = true) : blocked stop (a :: l) = a :: l := by
  simp [blocked, h]

lemma avail_cons_of_not_stop (h : stop a = false) : avail stop (a :: l) = a :: avail stop l := by
  simp [avail, h]

lemma blocked_cons_of_not_stop (h : stop a = false) : blocked stop (a :: l) = blocked stop l := by
  simp [blocked, h]

lemma avail_append_of_blocked_eq_nil (h : blocked stop l₁ = []) :
    avail stop (l₁ ++ l₂) = l₁ ++ avail stop l₂ := by
  rw [blocked_eq_nil_iff] at h
  exact List.takeWhile_append_of_pos (by simpa using h)

lemma blocked_append_of_blocked_eq_nil (h : blocked stop l₁ = []) :
    blocked stop (l₁ ++ l₂) = blocked stop l₂ := by
  rw [blocked_eq_nil_iff] at h
  exact List.dropWhile_append_of_pos (by simpa using h)

lemma avail_append_of_blocked_ne_nil (h : blocked stop l₁ ≠ []) :
    avail stop (l₁ ++ l₂) = avail stop l₁ := by
  induction l₁ with
  | nil => exact absurd rfl h
  | cons a l₁ ih =>
    cases ha : stop a with
    | true => rw [List.cons_append, avail_cons_of_stop ha, avail_cons_of_stop ha]
    | false =>
      rw [blocked_cons_of_not_stop ha] at h
      rw [List.cons_append, avail_cons_of_not_stop ha, avail_cons_of_not_stop ha, ih h]

lemma blocked_append_of_blocked_ne_nil (h : blocked stop l₁ ≠ []) :
    blocked stop (l₁ ++ l₂) = blocked stop l₁ ++ l₂ := by
  have hl := avail_append_blocked stop (l₁ ++ l₂)
  have hl₁ := avail_append_blocked stop l₁
  rw [avail_append_of_blocked_ne_nil h] at hl
  exact List.append_cancel_left (hl.trans (by rw [← List.append_assoc, hl₁]))

variable (qty reduce stop)

/-- What is taken when serving stops at the barrier. -/
def served (n : Nat) (l : List α) : List (α × Nat) := takes qty n (avail stop l)

/-- What is left when serving stops at the barrier. -/
def left (n : Nat) (l : List α) : List α := rest qty reduce n (avail stop l) ++ blocked stop l

/-- The part of the demand that is not served. -/
def short (n : Nat) (l : List α) : Nat := n - total qty (avail stop l)

variable {qty reduce stop}

@[simp] lemma served_nil : served qty stop n [] = [] := rfl

@[simp] lemma left_nil : left qty reduce stop n [] = [] := rfl

@[simp] lemma short_nil : short qty stop n [] = n := rfl

@[simp] lemma served_zero : served qty stop 0 l = [] := takes_zero

@[simp] lemma left_zero : left qty reduce stop 0 l = l := by simp [left]

@[simp] lemma short_zero : short qty stop 0 l = 0 := Nat.zero_sub _

lemma served_cons_of_stop (h : stop a = true) : served qty stop n (a :: l) = [] := by
  simp [served, avail_cons_of_stop h]

lemma left_cons_of_stop (h : stop a = true) : left qty reduce stop n (a :: l) = a :: l := by
  simp [left, avail_cons_of_stop h, blocked_cons_of_stop h]

lemma short_cons_of_stop (h : stop a = true) : short qty stop n (a :: l) = n := by
  simp [short, avail_cons_of_stop h]

lemma served_cons_of_not_stop (h : stop a = false) (hn : n ≠ 0) :
    served qty stop n (a :: l) = (a, min n (qty a)) :: served qty stop (n - qty a) l := by
  simp [served, avail_cons_of_not_stop h, takes_cons hn]

lemma short_cons_of_not_stop (h : stop a = false) :
    short qty stop n (a :: l) = short qty stop (n - qty a) l := by
  simp [short, avail_cons_of_not_stop h, Nat.sub_sub]

lemma left_cons_of_le (h : stop a = false) (hn : n ≠ 0) (hle : qty a ≤ n) :
    left qty reduce stop n (a :: l) = left qty reduce stop (n - qty a) l := by
  simp [left, avail_cons_of_not_stop h, blocked_cons_of_not_stop h, rest_cons_of_le hn hle]

lemma left_cons_of_lt (h : stop a = false) (hn : n ≠ 0) (hlt : n < qty a) :
    left qty reduce stop n (a :: l) = reduce a n :: l := by
  simp [left, avail_cons_of_not_stop h, blocked_cons_of_not_stop h, rest_cons_of_lt hn hlt]

/-- Without a barrier in the first part, serving goes on to the second with what is missing. -/
lemma served_append (h : blocked stop l₁ = []) :
    served qty stop n (l₁ ++ l₂)
      = served qty stop n l₁ ++ served qty stop (short qty stop n l₁) l₂ := by
  rw [served, avail_append_of_blocked_eq_nil h, takes_append, served, short,
    avail_of_blocked_eq_nil h, served]

lemma left_append (h : blocked stop l₁ = []) :
    left qty reduce stop n (l₁ ++ l₂)
      = left qty reduce stop n l₁ ++ left qty reduce stop (short qty stop n l₁) l₂ := by
  rw [left, avail_append_of_blocked_eq_nil h, blocked_append_of_blocked_eq_nil h, rest_append,
    left, short, avail_of_blocked_eq_nil h, h, left, List.append_nil, List.append_assoc]

lemma short_append (h : blocked stop l₁ = []) :
    short qty stop n (l₁ ++ l₂) = short qty stop (short qty stop n l₁) l₂ := by
  rw [short, avail_append_of_blocked_eq_nil h, total_append, short, short,
    avail_of_blocked_eq_nil h, Nat.sub_sub]

/-- With a barrier in the first part, the second is not reached. -/
lemma served_append_of_blocked (h : blocked stop l₁ ≠ []) :
    served qty stop n (l₁ ++ l₂) = served qty stop n l₁ := by
  rw [served, avail_append_of_blocked_ne_nil h, served]

lemma left_append_of_blocked (h : blocked stop l₁ ≠ []) :
    left qty reduce stop n (l₁ ++ l₂) = left qty reduce stop n l₁ ++ l₂ := by
  rw [left, avail_append_of_blocked_ne_nil h, blocked_append_of_blocked_ne_nil h, left,
    List.append_assoc]

lemma short_append_of_blocked (h : blocked stop l₁ ≠ []) :
    short qty stop n (l₁ ++ l₂) = short qty stop n l₁ := by
  rw [short, avail_append_of_blocked_ne_nil h, short]

lemma length_served_le : (served qty stop n l).length ≤ l.length :=
  length_takes_le.trans (List.takeWhile_prefix _).length_le

/-- The items served are those with no barrier up to them and less than the demand before them. -/
lemma mem_served_iff : (∃ q, (a, q) ∈ served qty stop n l) ↔ ∃ l₁ l₂, l = l₁ ++ a :: l₂ ∧
    (∀ b ∈ l₁ ++ [a], stop b = false) ∧ total qty l₁ < n := by
  rw [served, mem_takes_iff]
  constructor
  · rintro ⟨l₁, l₂, heq, hlt⟩
    refine ⟨l₁, l₂ ++ blocked stop l, ?_, ?_, hlt⟩
    · rw [← List.cons_append, ← List.append_assoc, ← heq, avail_append_blocked]
    · intro b hb
      refine (mem_avail (l := l) ?_).2
      rw [heq]
      rcases List.mem_append.mp hb with hb | hb
      · exact List.mem_append_left _ hb
      · rw [List.mem_singleton.mp hb]
        exact List.mem_append_right _ List.mem_cons_self
  · rintro ⟨l₁, l₂, rfl, hgo, hlt⟩
    have hnil : blocked stop (l₁ ++ [a]) = [] := blocked_eq_nil_iff.mpr hgo
    refine ⟨l₁, avail stop l₂, ?_, hlt⟩
    rw [List.append_cons, avail_append_of_blocked_eq_nil hnil, ← List.append_cons]

/-- A demand that is not met leaves only the barrier and what is behind it. -/
lemma left_of_short_pos (hpos : ∀ a ∈ l, 0 < qty a) (h : 0 < short qty stop n l) :
    left qty reduce stop n l = blocked stop l := by
  rw [left, rest_eq_nil, List.nil_append]
  · intro a ha
    exact hpos a (mem_avail ha).1
  · simp only [short] at h
    omega

lemma left_eq (hq : ∀ a q, qty (reduce a q) = qty a - q) :
    left qty reduce stop n l = ((served qty stop n l).map fun x => reduce x.1 x.2).filter
      (fun a => decide (0 < qty a)) ++ l.drop (served qty stop n l).length := by
  have hlen : (served qty stop n l).length ≤ (avail stop l).length := length_takes_le
  have hdrop : (avail stop l ++ blocked stop l).drop (served qty stop n l).length
      = (avail stop l).drop (served qty stop n l).length ++ blocked stop l :=
    List.drop_append_of_le_length hlen
  rw [avail_append_blocked] at hdrop
  rw [left, rest_eq hq, List.append_assoc, ← served, hdrop]

lemma mem_left {b : α} (h : b ∈ left qty reduce stop n l) :
    b ∈ l ∨ ∃ a ∈ l, ∃ q < qty a, b = reduce a q := by
  rcases List.mem_append.mp h with h | h
  · rcases mem_rest h with h | ⟨a, ha, q, hq, rfl⟩
    · exact Or.inl (mem_avail h).1
    · exact Or.inr ⟨a, (mem_avail ha).1, q, hq, rfl⟩
  · exact Or.inl (List.dropWhile_subset _ h)

lemma map_left_suffix {β : Type*} (f : α → β) (hf : ∀ a q, f (reduce a q) = f a) :
    (left qty reduce stop n l).map f <:+ l.map f := by
  rw [left, List.map_append]
  conv_rhs => rw [← avail_append_blocked stop l, List.map_append]
  obtain ⟨t, ht⟩ : (rest qty reduce n (avail stop l)).map f <:+ (avail stop l).map f :=
    map_rest_suffix f hf
  exact ⟨t, by rw [← ht, List.append_assoc]⟩

end Barrier

/-! ### Renamed items -/

section Map

variable {β : Type*} {qty' : β → Nat} {reduce' : β → Nat → β} {stop : α → Bool} {stop' : β → Bool}
  {g : α → β}

lemma takes_map (hq : ∀ a, qty' (g a) = qty a) :
    takes qty' n (l.map g) = (takes qty n l).map (Prod.map g id) := by
  induction l generalizing n with
  | nil => rfl
  | cons a l ih =>
    by_cases hn : n = 0
    · simp [hn]
    · rw [List.map_cons, takes_cons hn, takes_cons hn, hq, ih]
      rfl

lemma rest_map (hq : ∀ a, qty' (g a) = qty a) (hr : ∀ a q, reduce' (g a) q = g (reduce a q)) :
    rest qty' reduce' n (l.map g) = (rest qty reduce n l).map g := by
  induction l generalizing n with
  | nil => rfl
  | cons a l ih =>
    by_cases hn : n = 0
    · simp [hn]
    rcases Nat.lt_or_ge n (qty a) with hlt | hle
    · rw [List.map_cons, rest_cons_of_lt hn (by rwa [hq]), rest_cons_of_lt hn hlt, hr,
        List.map_cons]
    · rw [List.map_cons, rest_cons_of_le hn (by rwa [hq]), rest_cons_of_le hn hle, hq, ih]

lemma avail_map (hs : ∀ a, stop' (g a) = stop a) : avail stop' (l.map g) = (avail stop l).map g := by
  rw [avail, List.takeWhile_map, avail]
  exact congrArg (fun p => (l.takeWhile p).map g) (funext fun a => congrArg (!·) (hs a))

lemma blocked_map (hs : ∀ a, stop' (g a) = stop a) :
    blocked stop' (l.map g) = (blocked stop l).map g := by
  rw [blocked, List.dropWhile_map, blocked]
  exact congrArg (fun p => (l.dropWhile p).map g) (funext fun a => congrArg (!·) (hs a))

lemma served_map (hq : ∀ a, qty' (g a) = qty a) (hs : ∀ a, stop' (g a) = stop a) :
    served qty' stop' n (l.map g) = (served qty stop n l).map (Prod.map g id) := by
  rw [served, avail_map hs, takes_map hq, served]

lemma left_map (hq : ∀ a, qty' (g a) = qty a) (hr : ∀ a q, reduce' (g a) q = g (reduce a q))
    (hs : ∀ a, stop' (g a) = stop a) :
    left qty' reduce' stop' n (l.map g) = (left qty reduce stop n l).map g := by
  rw [left, avail_map hs, blocked_map hs, rest_map hq hr, left, List.map_append]

lemma total_map (hq : ∀ a, qty' (g a) = qty a) : total qty' (l.map g) = total qty l := by
  rw [total, total, List.map_map]
  exact congrArg List.sum (List.map_congr_left fun a _ => hq a)

lemma short_map (hq : ∀ a, qty' (g a) = qty a) (hs : ∀ a, stop' (g a) = stop a) :
    short qty' stop' n (l.map g) = short qty stop n l := by
  rw [short, avail_map hs, total_map hq, short]

end Map

/-! ### Conservation -/

/-- The value of a queue when each unit of `a` is worth `f a`. -/
def worth (qty : α → Nat) (f : α → Int) (l : List α) : Int := (l.map fun a => f a * qty a).sum

variable {f : α → Int}

@[simp] lemma worth_nil : worth qty f [] = 0 := rfl

@[simp] lemma worth_cons : worth qty f (a :: l) = f a * qty a + worth qty f l := by simp [worth]

@[simp] lemma worth_append : worth qty f (l₁ ++ l₂) = worth qty f l₁ + worth qty f l₂ := by
  simp [worth]

lemma worth_perm (h : l₁.Perm l₂) : worth qty f l₁ = worth qty f l₂ :=
  (h.map _).sum_eq

lemma worth_nonneg (h : ∀ a, 0 ≤ f a) : 0 ≤ worth qty f l := by
  induction l with
  | nil => exact le_rfl
  | cons a l ih =>
    rw [worth_cons]
    exact Int.add_nonneg (Int.mul_nonneg (h a) (Int.natCast_nonneg _)) ih

/-- A queue is worth nothing when nothing in it is. -/
lemma worth_eq_zero_iff (h : ∀ a, 0 ≤ f a) (hpos : ∀ a ∈ l, 0 < qty a) :
    worth qty f l = 0 ↔ ∀ a ∈ l, f a = 0 := by
  induction l with
  | nil => simp
  | cons a l ih =>
    have hl : 0 ≤ worth qty f l := worth_nonneg h
    have ha : 0 ≤ f a * qty a := Int.mul_nonneg (h a) (Int.natCast_nonneg _)
    have hq : (qty a : Int) ≠ 0 := by
      have := hpos a List.mem_cons_self
      omega
    rw [worth_cons, List.forall_mem_cons, ← ih fun b hb => hpos b (List.mem_cons_of_mem _ hb),
      add_eq_zero_iff_of_nonneg ha hl, mul_eq_zero, or_iff_left hq]

/-- What is taken and what is left are worth what was there. -/
lemma worth_takes_add_rest (hq : ∀ a q, qty (reduce a q) = qty a - q)
    (hf : ∀ a q, f (reduce a q) = f a) :
    ((takes qty n l).map fun x => f x.1 * x.2).sum + worth qty f (rest qty reduce n l)
      = worth qty f l := by
  induction l generalizing n with
  | nil => simp
  | cons a l ih =>
    by_cases hn : n = 0
    · simp [hn]
    · rw [takes_cons hn, List.map_cons, List.sum_cons, worth_cons]
      rcases Nat.lt_or_ge n (qty a) with hlt | hle
      · rw [rest_cons_of_lt hn hlt, worth_cons, hf, hq, Nat.min_eq_left hlt.le,
          Nat.sub_eq_zero_of_le hlt.le, takes_zero, Nat.cast_sub hlt.le]
        simp only [List.map_nil, List.sum_nil]
        ring
      · rw [rest_cons_of_le hn hle, Nat.min_eq_right hle, ← ih]
        ring

end Consume
