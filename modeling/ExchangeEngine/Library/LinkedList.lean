import Mathlib.Data.List.Basic
import Mathlib.Data.List.Nodup
import Mathlib.Tactic.Common

/-!
# Doubly linked lists threaded through an index space

Nodes are indices of some array; `next` and `prev` read the link fields and `null` is the
sentinel. `DList next prev null head tail l` says that the list with these end pointers visits
exactly the indices `l`, in order. Appending at the tail and unlinking any node are described
pointwise, so that the lemmas apply to whatever representation of the fields a program uses.
-/

namespace LinkedList

variable {ι : Type*}

/-- From `h`, with `p` before it, the `next` links visit `l` and exit at `n`; every visited node
points back to the one visited before it. -/
def Seg (next prev : ι → ι) (null : ι) : ι → List ι → ι → ι → Prop
  | _, [], h, n => h = n
  | p, i :: l, h, n => h = i ∧ i ≠ null ∧ prev i = p ∧ Seg next prev null i l (next i) n

variable {next prev next' prev' : ι → ι} {null p h n i : ι} {l l₁ l₂ : List ι}

@[simp] lemma seg_nil : Seg next prev null p [] h n ↔ h = n := Iff.rfl

@[simp] lemma seg_cons : Seg next prev null p (i :: l) h n ↔
    h = i ∧ i ≠ null ∧ prev i = p ∧ Seg next prev null i l (next i) n := Iff.rfl

lemma seg_append : Seg next prev null p (l₁ ++ l₂) h n ↔
    ∃ m, Seg next prev null p l₁ h m ∧ Seg next prev null (l₁.getLastD p) l₂ m n := by
  induction l₁ generalizing p h with
  | nil => simp
  | cons j l₁ ih =>
    simp only [List.cons_append, seg_cons, ih, List.getLastD_cons]
    constructor
    · rintro ⟨hj, hnull, hprev, m, h₁, h₂⟩
      exact ⟨m, ⟨hj, hnull, hprev, h₁⟩, h₂⟩
    · rintro ⟨m, ⟨hj, hnull, hprev, h₁⟩, h₂⟩
      exact ⟨hj, hnull, hprev, m, h₁, h₂⟩

lemma Seg.congr (hs : Seg next prev null p l h n) (hn : ∀ j ∈ l, next' j = next j)
    (hp : ∀ j ∈ l, prev' j = prev j) : Seg next' prev' null p l h n := by
  induction l generalizing p h with
  | nil => exact hs
  | cons j l ih =>
    obtain ⟨hj, hnull, hprev, hs⟩ := hs
    refine ⟨hj, hnull, (hp j (by simp)).trans hprev, ?_⟩
    rw [hn j (by simp)]
    exact ih hs (fun k hk => hn k (by simp [hk])) (fun k hk => hp k (by simp [hk]))

lemma Seg.ne_null (hs : Seg next prev null p l h n) : ∀ j ∈ l, j ≠ null := by
  induction l generalizing p h with
  | nil => simp
  | cons j l ih => simpa using ⟨hs.2.1, ih hs.2.2.2⟩

lemma Seg.head_eq (hs : Seg next prev null p l h n) : h = l.headD n := by
  cases l with
  | nil => exact hs
  | cons j l => exact hs.1

lemma getLastD_mem_of_ne_nil (hl : l ≠ []) : l.getLastD p ∈ l := by
  rw [List.getLastD_eq_getLast?, List.getLast?_eq_getLast_of_ne_nil hl]
  exact List.getLast_mem hl

lemma getLastD_eq_null_iff (hl : ∀ j ∈ l, j ≠ null) : l.getLastD null = null ↔ l = [] := by
  constructor
  · intro h
    by_contra hne
    exact hl _ (getLastD_mem_of_ne_nil hne) h
  · rintro rfl
    rfl

lemma headD_eq_null_iff (hl : ∀ j ∈ l, j ≠ null) : l.headD null = null ↔ l = [] := by
  cases l with
  | nil => simp
  | cons j l => simpa using hl j (by simp)

/-- Redirect the exit of a segment by rewriting the `next` link of its last node. -/
lemma Seg.exit (hs : Seg next prev null p l h n) (hnd : l.Nodup) {m : ι} (hl : l ≠ [])
    (hlast : next' (l.getLastD p) = m) (hn : ∀ j ∈ l, j ≠ l.getLastD p → next' j = next j)
    (hp : ∀ j ∈ l, prev' j = prev j) : Seg next' prev' null p l h m := by
  induction l generalizing p h with
  | nil => exact absurd rfl hl
  | cons j l ih =>
    obtain ⟨hj, hnull, hprev, hs⟩ := hs
    obtain ⟨hjl, hnd⟩ := List.nodup_cons.mp hnd
    rw [List.getLastD_cons] at hlast hn
    refine ⟨hj, hnull, (hp j (by simp)).trans hprev, ?_⟩
    by_cases hnil : l = []
    · subst hnil
      exact hlast
    · have hne : j ≠ l.getLastD j := fun e => hjl (e ▸ getLastD_mem_of_ne_nil hnil)
      rw [hn j (by simp) hne]
      exact ih hs hnd hnil hlast (fun k hk => hn k (by simp [hk]))
        (fun k hk => hp k (by simp [hk]))

/-- Redirect the entry of a segment by rewriting the `prev` link of its first node. -/
lemma Seg.entry (hs : Seg next prev null p l h n) (hnd : l.Nodup) {q : ι}
    (hh : l ≠ [] → prev' h = q) (hn : ∀ j ∈ l, next' j = next j)
    (hp : ∀ j ∈ l, j ≠ h → prev' j = prev j) : Seg next' prev' null q l h n := by
  cases l with
  | nil => exact hs
  | cons j l =>
    obtain ⟨rfl, hnull, -, hs⟩ := hs
    refine ⟨rfl, hnull, hh (by simp), ?_⟩
    rw [hn h (by simp)]
    refine hs.congr (fun k hk => hn k (by simp [hk])) fun k hk => hp k (by simp [hk]) ?_
    rintro rfl
    exact (List.nodup_cons.mp hnd).1 hk

/-! ### Whole lists -/

/-- The list with the given end pointers visits exactly `l`. -/
structure DList (next prev : ι → ι) (null head tail : ι) (l : List ι) : Prop where
  seg : Seg next prev null null l head null
  tail_eq : tail = l.getLastD null
  nodup : l.Nodup

variable {head tail : ι}

lemma DList.empty : DList next prev null null null [] := ⟨rfl, rfl, List.nodup_nil⟩

lemma DList.congr (hd : DList next prev null head tail l) (hn : ∀ j ∈ l, next' j = next j)
    (hp : ∀ j ∈ l, prev' j = prev j) : DList next' prev' null head tail l :=
  ⟨hd.seg.congr hn hp, hd.tail_eq, hd.nodup⟩

lemma DList.ne_null (hd : DList next prev null head tail l) : ∀ j ∈ l, j ≠ null :=
  hd.seg.ne_null

lemma DList.head_eq (hd : DList next prev null head tail l) : head = l.headD null :=
  hd.seg.head_eq

lemma DList.head_eq_null_iff (hd : DList next prev null head tail l) : head = null ↔ l = [] := by
  rw [hd.head_eq, headD_eq_null_iff hd.ne_null]

lemma DList.tail_eq_null_iff (hd : DList next prev null head tail l) : tail = null ↔ l = [] := by
  rw [hd.tail_eq, getLastD_eq_null_iff hd.ne_null]

/-- The links of an inner node are its neighbours. -/
lemma DList.links (hd : DList next prev null head tail (l₁ ++ i :: l₂)) :
    prev i = l₁.getLastD null ∧ next i = l₂.headD null := by
  obtain ⟨m, -, rfl, -, hprev, hs⟩ := seg_append.mp hd.seg
  exact ⟨hprev, hs.head_eq⟩

/-- The neighbours of a node are on its two sides. -/
lemma DList.neighbour_mem (hd : DList next prev null head tail (l₁ ++ i :: l₂)) :
    (prev i ≠ null → prev i ∈ l₁) ∧ (next i ≠ null → next i ∈ l₂) := by
  obtain ⟨hprev, hnext⟩ := hd.links
  constructor
  · intro hne
    rw [hprev] at hne ⊢
    apply getLastD_mem_of_ne_nil
    rintro rfl
    exact hne rfl
  · intro hne
    rw [hnext] at hne ⊢
    cases l₂ with
    | nil => exact absurd rfl hne
    | cons j l₂ => simp

/-- Append a node to an empty list. -/
lemma DList.singleton (hi : i ≠ null) (hn : next i = null) (hp : prev i = null) :
    DList next prev null i i [i] :=
  ⟨⟨rfl, hi, hp, hn⟩, rfl, List.nodup_singleton i⟩

/-- Append a node behind the tail of a non-empty list. -/
lemma DList.pushBack (hd : DList next prev null head tail l) (hl : l ≠ []) (hi : i ≠ null)
    (hil : i ∉ l) (htail : next' tail = i) (hni : next' i = null) (hpi : prev' i = tail)
    (hn : ∀ j ∈ l, j ≠ tail → next' j = next j) (hp : ∀ j ∈ l, prev' j = prev j) :
    DList next' prev' null head i (l ++ [i]) := by
  obtain ⟨hs, rfl, hnd⟩ := hd
  refine ⟨?_, by simp, ?_⟩
  · rw [seg_append]
    exact ⟨i, hs.exit hnd hl htail hn hp, rfl, hi, hpi, hni⟩
  · rw [List.nodup_append]
    refine ⟨hnd, List.nodup_singleton i, ?_⟩
    rintro j hj _ hk rfl
    exact hil (by simpa using (List.mem_singleton.mp hk) ▸ hj)

/-- Unlink a node: its neighbours, or the end pointers, are made to skip it. -/
lemma DList.unlink [DecidableEq ι] (hd : DList next prev null head tail (l₁ ++ i :: l₂))
    (hnext : prev i ≠ null → next' (prev i) = next i)
    (hprev : next i ≠ null → prev' (next i) = prev i)
    (hn : ∀ j ∈ l₁ ++ l₂, j ≠ prev i → next' j = next j)
    (hp : ∀ j ∈ l₁ ++ l₂, j ≠ next i → prev' j = prev j) :
    DList next' prev' null (if prev i = null then next i else head)
      (if next i = null then prev i else tail) (l₁ ++ l₂) := by
  have hnull := hd.ne_null
  obtain ⟨hpi, hni⟩ := hd.links
  obtain ⟨hs, htail, hnd⟩ := hd
  obtain ⟨hnd₁, hnd₂, hdisj⟩ := List.nodup_append.mp hnd
  obtain ⟨m, hs₁, rfl, -, -, hs₂⟩ := seg_append.mp hs
  have hnull₁ : ∀ j ∈ l₁, j ≠ null := fun j hj => hnull j (by simp [hj])
  have hnull₂ : ∀ j ∈ l₂, j ≠ null := fun j hj => hnull j (by simp [hj])
  have hp_iff : prev m = null ↔ l₁ = [] := by rw [hpi, getLastD_eq_null_iff hnull₁]
  have hn_iff : next m = null ↔ l₂ = [] := by rw [hni, headD_eq_null_iff hnull₂]
  -- a neighbour on one side is not a node of the other side
  have hmem₁ : ∀ j ∈ l₁, j ≠ next m := by
    rintro j hj rfl
    have hne : l₂ ≠ [] := fun e => hnull₁ _ hj (hn_iff.mpr e)
    obtain ⟨k, l₃, rfl⟩ := List.exists_cons_of_ne_nil hne
    exact hdisj _ hj k (by simp) (by simpa using hni)
  have hmem₂ : ∀ j ∈ l₂, j ≠ prev m := by
    rintro j hj rfl
    have hne : l₁ ≠ [] := fun e => hnull₂ _ hj (hp_iff.mpr e)
    exact hdisj _ (hpi ▸ getLastD_mem_of_ne_nil hne) _ (List.mem_cons_of_mem _ hj) rfl
  have hentry : Seg next' prev' null (l₁.getLastD null) l₂ (next m) null := by
    refine hs₂.entry (List.nodup_cons.mp hnd₂).2 ?_ ?_ ?_
    · intro hne
      rw [hprev fun e => hne (hn_iff.mp e), hpi]
    · exact fun j hj => hn j (by simp [hj]) (hmem₂ j hj)
    · exact fun j hj => hp j (by simp [hj])
  refine ⟨?_, ?_, ?_⟩
  · rw [seg_append]
    refine ⟨next m, ?_, hentry⟩
    by_cases hl : l₁ = []
    · subst hl
      rw [if_pos (hp_iff.mpr rfl), seg_nil]
    · rw [if_neg (fun e => hl (hp_iff.mp e))]
      refine hs₁.exit hnd₁ hl ?_ ?_ ?_
      · rw [← hpi, hnext fun e => hl (hp_iff.mp e)]
      · exact fun j hj hne => hn j (by simp [hj]) (hpi ▸ hne)
      · exact fun j hj => hp j (by simp [hj]) (hmem₁ j hj)
  · by_cases hl : l₂ = []
    · subst hl
      rw [if_pos (hn_iff.mpr rfl), hpi, List.append_nil]
    · obtain ⟨k, l₃, rfl⟩ := List.exists_cons_of_ne_nil hl
      rw [if_neg (fun e => hl (hn_iff.mp e)), htail]
      simp
  · rw [List.nodup_append]
    exact ⟨hnd₁, (List.nodup_cons.mp hnd₂).2, fun a ha b hb => hdisj a ha b (by simp [hb])⟩

/-! ### Walking a list -/

/-- The indices visited from `h`, at most `fuel` of them. -/
def walk [DecidableEq ι] (next : ι → ι) (null : ι) : Nat → ι → List ι
  | 0, _ => []
  | fuel + 1, i => if i = null then [] else i :: walk next null fuel (next i)

lemma Seg.walk_eq [DecidableEq ι] (hs : Seg next prev null p l h null) (fuel : Nat) :
    walk next null fuel h = l.take fuel := by
  induction fuel generalizing p h l with
  | zero => simp [walk]
  | succ fuel ih =>
    cases l with
    | nil => simp [walk, seg_nil.mp hs]
    | cons j l =>
      obtain ⟨rfl, hnull, -, hs⟩ := hs
      simp [walk, hnull, ih hs]

lemma DList.walk_eq [DecidableEq ι] (hd : DList next prev null head tail l) {fuel : Nat}
    (hf : l.length ≤ fuel) : walk next null fuel head = l := by
  rw [hd.seg.walk_eq, List.take_of_length_le hf]

end LinkedList
