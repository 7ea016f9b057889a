import ExchangeEngine.IOrderBook
import ExchangeEngine.Library.Consume
import ExchangeEngine.Library.Scan

/-!
# The price-time-priority book

What a matching engine is for, without its data structures: each side of the book is the list of
its resting orders, best price first and, within a price, oldest first. An incoming order
consumes the crossing orders of the other side from the front, stops in front of its owner's own
order, and rests what is left of it behind the orders that rank at least as well.

Both engines are shown to refine this model.
-/

namespace ExchangeEngine

/-- Price `p` ranks strictly before price `q` on a side: higher for bids, lower for asks. -/
abbrev Outranks (side : Bool) (p q : Nat) : Prop := Scan.Before side p q

/-- The resting orders of each side in price-time priority. -/
abbrev Book := Bool → List Order

/-- A resting order after `q` units of it were taken. -/
def Order.reduce (o : Order) (q : Nat) : Order := { o with quantity := o.quantity - q }

/-- Self-trade prevention stops `incoming` in front of this resting order. -/
def sameOwner (incoming resting : Order) : Bool := decide (incoming.userId = resting.userId)

namespace Book

variable (B : Book) (o : Order)

/-- The opposite orders whose price crosses the limit of `o`, in priority order. -/
def crossing : List Order := (B (!o.side)).filter fun r => crosses o.side o.price r.price

/-- The opposite orders beyond the limit of `o`. -/
def standing : List Order := (B (!o.side)).filter fun r => !crosses o.side o.price r.price

/-- The resting orders `o` trades with, each with the traded quantity. -/
def served : List (Order × Nat) :=
  Consume.served Order.quantity (sameOwner o) o.quantity (B.crossing o)

/-- The trades emitted for `o`. -/
def fills : List Trade := (B.served o).map fun x => tradeOf o.side o x.1 x.1.price x.2

/-- The quantity of `o` left after trading. -/
def short : Nat := Consume.short Order.quantity (sameOwner o) o.quantity (B.crossing o)

/-- Is there an own order among those `o` could reach? -/
def selfCrossing : List Order := Consume.blocked (sameOwner o) (B.crossing o)

/-- The returned quantity: what is left when an own order stopped the matching. -/
def rejected : Nat := if B.selfCrossing o = [] then 0 else B.short o

/-- The quantity that comes to rest. -/
def placed : Nat := if B.selfCrossing o = [] then B.short o else 0

/-- The opposite side after matching. -/
def remaining : List Order :=
  Consume.left Order.quantity Order.reduce (sameOwner o) o.quantity (B.crossing o)
    ++ B.standing o

/-- Insert behind every order that ranks at least as well. -/
def insert (side : Bool) (o : Order) (l : List Order) : List Order :=
  l.orderedInsert (fun a b => Outranks side a.price b.price) o

/-- The book after `o`, which carries its new id, was submitted. -/
def submit : Book := fun s =>
  if s = o.side then
    if B.placed o = 0 then B s else insert s { o with quantity := B.placed o } (B s)
  else B.remaining o

/-- The resting order with this id, if it belongs to the user. -/
def find (id : Nat) (userId : Int) : Option Order :=
  (B true ++ B false).find? fun r => decide (r.id = id ∧ r.userId = userId)

/-- The book without the order of this id. -/
def remove (id : Nat) : Book := fun s => (B s).filter fun r => decide (r.id ≠ id)

/-- Cancellation: the book afterwards and the cancelled order, if there is one. -/
def cancel (id : Nat) (userId : Int) : Book × Option Order :=
  match B.find id userId with
  | some r => (B.remove id, some r)
  | none => (B, none)

/-- The resting orders of a side at one price, oldest first. -/
def atPrice (side : Bool) (price : Nat) : List Order :=
  (B side).filter fun r => decide (r.price = price)

/-- The best price of a side, `NULL_IDX` when nothing rests there. -/
def best (side : Bool) : Nat := ((B side).map Order.price).headD nullIdx

/-- The first `limit` price levels of a side; the total is kept modulo `2 ^ 32`. -/
def depth (side : Bool) (limit : Nat) : List DepthLevel :=
  (((Scan.positions side maxPrice).filter fun p => decide (B.atPrice side p ≠ [])).map
    fun p => ⟨p, Consume.total Order.quantity (B.atPrice side p) % 2 ^ 32,
      (B.atPrice side p).length⟩).take limit

/-- The first `limit` orders of a side. -/
def orders (side : Bool) (limit : Nat) : List OrderSnapshot :=
  ((B side).map Order.snapshot).take limit

end Book

/-! ### Well-formed books -/

/-- What every reachable book satisfies. -/
structure Book.Valid (B : Book) : Prop where
  /-- orders rest on their side, below the price bound, with something left to trade -/
  order : ∀ s, ∀ r ∈ B s, r.side = s ∧ r.price < maxPrice ∧ 0 < r.quantity
  /-- best price first -/
  priority : ∀ s, (B s).Pairwise fun a b => ¬ Outranks s b.price a.price
  /-- oldest first within a price -/
  fifo : ∀ s, (B s).Pairwise fun a b => a.price = b.price → a.id < b.id
  /-- no id twice -/
  ids : ((B true ++ B false).map Order.id).Nodup
  /-- every bid is below every ask -/
  uncrossed : ∀ b ∈ B true, ∀ a ∈ B false, b.price < a.price

/-- The empty book. -/
def Book.empty : Book := fun _ => []

lemma Book.valid_empty : Book.empty.Valid where
  order := by simp [Book.empty]
  priority := by simp [Book.empty]
  fifo := by simp [Book.empty]
  ids := by simp [Book.empty]
  uncrossed := by simp [Book.empty]

section Order

variable {o r : Order} {q : Nat}

@[simp] lemma Order.reduce_id : (o.reduce q).id = o.id := rfl
@[simp] lemma Order.reduce_userId : (o.reduce q).userId = o.userId := rfl
@[simp] lemma Order.reduce_price : (o.reduce q).price = o.price := rfl
@[simp] lemma Order.reduce_side : (o.reduce q).side = o.side := rfl
@[simp] lemma Order.reduce_quantity : (o.reduce q).quantity = o.quantity - q := rfl

end Order

namespace Book

variable {B : Book} {o : Order}

lemma mem_crossing {r : Order} :
    r ∈ B.crossing o ↔ r ∈ B (!o.side) ∧ crosses o.side o.price r.price = true := by
  simp [crossing]

lemma mem_standing {r : Order} :
    r ∈ B.standing o ↔ r ∈ B (!o.side) ∧ crosses o.side o.price r.price = false := by
  simp [standing]

@[simp] lemma submit_same : B.submit o o.side
    = if B.placed o = 0 then B o.side
      else insert o.side { o with quantity := B.placed o } (B o.side) := by
  simp [submit]

@[simp] lemma submit_opposite : B.submit o (!o.side) = B.remaining o := by
  simp [submit]

lemma mem_insert {side : Bool} {l : List Order} {r : Order} :
    r ∈ insert side o l ↔ r = o ∨ r ∈ l := by
  simp [insert, List.mem_orderedInsert]

/-- A price beyond one that does not cross does not cross either. -/
lemma not_crosses_of_outranks {side : Bool} {limit p q : Nat}
    (h : crosses side limit p = false) (hpq : ¬ Outranks (!side) q p) :
    crosses side limit q = false := by
  cases side <;> simp only [crosses, Outranks, Scan.Before, Bool.not_false, Bool.not_true] at * <;>
    simp at * <;> omega

/-- In a queue sorted by priority the crossing orders come first. -/
lemma filter_crosses_append {side : Bool} {limit : Nat} {l : List Order}
    (h : l.Pairwise fun a b => ¬ Outranks (!side) b.price a.price) :
    (l.filter fun r => crosses side limit r.price)
      ++ (l.filter fun r => !crosses side limit r.price) = l := by
  induction l with
  | nil => rfl
  | cons a l ih =>
    obtain ⟨ha, hl⟩ := List.pairwise_cons.mp h
    cases hc : crosses side limit a.price with
    | true => simpa [hc] using ih hl
    | false =>
      have hnone : l.filter (fun r => crosses side limit r.price) = [] := by
        rw [List.filter_eq_nil_iff]
        intro r hr
        simpa using not_crosses_of_outranks hc (ha r hr)
      simpa [hc, hnone] using ih hl

lemma crossing_append_standing (h : (B (!o.side)).Pairwise fun a b =>
    ¬ Outranks (!o.side) b.price a.price) :
    B.crossing o ++ B.standing o = B (!o.side) :=
  filter_crosses_append h

/-- Up to what `reduce` keeps, matching removes orders from the front of the opposite side. -/
lemma map_remaining_suffix {β : Type*} (f : Order → β) (hf : ∀ r q, f (r.reduce q) = f r)
    (h : (B (!o.side)).Pairwise fun a b => ¬ Outranks (!o.side) b.price a.price) :
    (B.remaining o).map f <:+ (B (!o.side)).map f := by
  rw [← crossing_append_standing h, remaining, List.map_append, List.map_append]
  obtain ⟨t, ht⟩ : (Consume.left Order.quantity Order.reduce (sameOwner o) o.quantity
      (B.crossing o)).map f <:+ (B.crossing o).map f := Consume.map_left_suffix f hf
  exact ⟨t, by rw [← ht, List.append_assoc]⟩

/-- An order left on the opposite side was there before, with at least that quantity. -/
lemma mem_remaining {r : Order} (hpos : ∀ a ∈ B (!o.side), 0 < a.quantity)
    (h : r ∈ B.remaining o) : ∃ a ∈ B (!o.side), ∃ q < a.quantity, r = a.reduce q := by
  rcases List.mem_append.mp h with h | h
  · rcases Consume.mem_left h with h | ⟨a, ha, q, hq, rfl⟩
    · have hr := (mem_crossing.mp h).1
      exact ⟨r, hr, 0, hpos r hr, rfl⟩
    · exact ⟨a, (mem_crossing.mp ha).1, q, hq, rfl⟩
  · have hr := (mem_standing.mp h).1
    exact ⟨r, hr, 0, hpos r hr, rfl⟩

/-! ### Submission keeps the book well formed -/

/-- In priority order no order outranks the first one. -/
lemma not_outranks_first {side : Bool} {a b : Order} {l : List Order}
    (h : ∀ b ∈ l, ¬ Outranks side b.price a.price) (hb : b ∈ a :: l) :
    ¬ Outranks side b.price a.price := by
  rcases List.mem_cons.mp hb with rfl | hb
  · exact Scan.Before.irrefl _ _
  · exact h b hb

/-- Inserting behind the orders that rank at least as well keeps the priority order. -/
lemma priority_insert {side : Bool} {l : List Order}
    (h : l.Pairwise fun a b => ¬ Outranks side b.price a.price) :
    (insert side o l).Pairwise fun a b => ¬ Outranks side b.price a.price := by
  induction l with
  | nil => simp [insert]
  | cons a l ih =>
    obtain ⟨ha, hl⟩ := List.pairwise_cons.mp h
    simp only [insert] at ih ⊢
    by_cases hoa : Outranks side o.price a.price
    · rw [List.orderedInsert_cons, if_pos hoa, List.pairwise_cons]
      refine ⟨?_, h⟩
      intro b hb hbo
      exact not_outranks_first ha hb (Scan.Before.trans hbo hoa)
    · rw [List.orderedInsert_cons, if_neg hoa, List.pairwise_cons]
      refine ⟨?_, ih hl⟩
      intro b hb
      rcases List.mem_orderedInsert _ |>.mp hb with rfl | hb
      · exact hoa
      · exact ha b hb

/-- The newest order may be inserted behind those of its price. -/
lemma fifo_insert {side : Bool} {l : List Order}
    (hpri : l.Pairwise fun a b => ¬ Outranks side b.price a.price)
    (h : l.Pairwise fun a b => a.price = b.price → a.id < b.id) (hid : ∀ r ∈ l, r.id < o.id) :
    (insert side o l).Pairwise fun a b => a.price = b.price → a.id < b.id := by
  induction l with
  | nil => simp [insert]
  | cons a l ih =>
    obtain ⟨ha, hl⟩ := List.pairwise_cons.mp h
    obtain ⟨hpa, hpl⟩ := List.pairwise_cons.mp hpri
    simp only [insert] at ih ⊢
    by_cases hoa : Outranks side o.price a.price
    · rw [List.orderedInsert_cons, if_pos hoa, List.pairwise_cons]
      refine ⟨?_, h⟩
      intro b hb hbo
      exact absurd (hbo ▸ hoa) (not_outranks_first hpa hb)
    · rw [List.orderedInsert_cons, if_neg hoa, List.pairwise_cons]
      refine ⟨?_, ih hpl hl ?_⟩
      · intro b hb
        rcases List.mem_orderedInsert _ |>.mp hb with rfl | hb
        · exact fun _ => hid a (by simp)
        · exact ha b hb
      · exact fun r hr => hid r (by simp [hr])

/-- Where the order goes: behind those it does not outrank, before those it does. -/
lemma insert_append {side : Bool} {l₁ l₂ : List Order}
    (h₁ : ∀ r ∈ l₁, ¬ Outranks side o.price r.price)
    (h₂ : ∀ r ∈ l₂, Outranks side o.price r.price) :
    insert side o (l₁ ++ l₂) = l₁ ++ o :: l₂ := by
  simp only [insert]
  induction l₁ with
  | nil =>
    cases l₂ with
    | nil => rfl
    | cons a l₂ => rw [List.nil_append, List.orderedInsert_cons, if_pos (h₂ a (by simp))]; rfl
  | cons a l₁ ih =>
    rw [List.cons_append, List.orderedInsert_cons, if_neg (h₁ a (by simp)),
      ih fun r hr => h₁ r (by simp [hr])]
    rfl

lemma insert_perm {side : Bool} {l : List Order} : (insert side o l).Perm (o :: l) :=
  List.perm_orderedInsert _ _ _

/-- On a side sorted by priority, an inserted order goes to the back of its price. -/
lemma filter_price_insert {side : Bool} {l : List Order} {p : Nat}
    (h : l.Pairwise fun a b => ¬ Outranks side b.price a.price) :
    (insert side o l).filter (fun r => decide (r.price = p))
      = l.filter (fun r => decide (r.price = p)) ++ if p = o.price then [o] else [] := by
  induction l with
  | nil => by_cases hp : p = o.price <;> simp [insert, hp, eq_comm]
  | cons a l ih =>
    obtain ⟨ha, hl⟩ := List.pairwise_cons.mp h
    have ih := ih hl
    simp only [insert] at ih ⊢
    by_cases hoa : Outranks side o.price a.price
    · -- nothing from here on has the price of the order
      have hnone : p = o.price → (a :: l).filter (fun r => decide (r.price = p)) = [] := by
        rintro rfl
        rw [List.filter_eq_nil_iff]
        intro r hr hpr
        rw [decide_eq_true_eq] at hpr
        rcases List.mem_cons.mp hr with rfl | hr
        · rw [hpr] at hoa
          cases side <;> simp [Scan.Before] at hoa
        · exact ha r hr (hpr ▸ hoa)
      rw [List.orderedInsert_cons, if_pos hoa]
      by_cases hp : p = o.price
      · rw [if_pos hp, List.filter_cons_of_pos (by simp [hp]), hnone hp, List.nil_append]
      · rw [if_neg hp, List.append_nil, List.filter_cons_of_neg (by simp [Ne.symm hp])]
    · rw [List.orderedInsert_cons, if_neg hoa]
      by_cases hap : a.price = p
      · rw [List.filter_cons_of_pos (by simp [hap]), List.filter_cons_of_pos (by simp [hap]), ih]
        rfl
      · rw [List.filter_cons_of_neg (by simp [hap]), List.filter_cons_of_neg (by simp [hap]), ih]

/-- An order resting after a submission is the one submitted, or was there before with at least that
quantity. -/
lemma mem_submit {s : Bool} {r : Order} (hpos : ∀ a ∈ B (!o.side), 0 < a.quantity)
    (h : r ∈ B.submit o s) : (s = o.side ∧ r = { o with quantity := B.placed o }) ∨
      ∃ a ∈ B s, ∃ q, r = a.reduce q := by
  by_cases hs : s = o.side
  · subst hs
    rw [submit_same] at h
    split_ifs at h
    · exact Or.inr ⟨r, h, 0, rfl⟩
    · rcases mem_insert.mp h with h | h
      · exact Or.inl ⟨rfl, h⟩
      · exact Or.inr ⟨r, h, 0, rfl⟩
  · rw [Bool.eq_not_of_ne hs] at h ⊢
    rw [submit_opposite] at h
    obtain ⟨a, ha, q, -, hr⟩ := mem_remaining hpos h
    exact Or.inr ⟨a, ha, q, hr⟩

lemma placed_pos_iff : B.placed o ≠ 0 ↔ B.selfCrossing o = [] ∧ 0 < B.short o := by
  simp only [placed]
  split_ifs with h <;> simp [h, Nat.pos_iff_ne_zero]

/-- When something comes to rest, every crossing order was consumed. -/
lemma remaining_of_placed (hpos : ∀ a ∈ B (!o.side), 0 < a.quantity) (h : B.placed o ≠ 0) :
    B.remaining o = B.standing o := by
  obtain ⟨hnil, hshort⟩ := placed_pos_iff.mp h
  rw [remaining, Consume.left_of_short_pos _ hshort]
  · simp only [selfCrossing] at hnil
    rw [hnil, List.nil_append]
  · intro a ha
    exact hpos a (mem_crossing.mp ha).1

lemma ids_iff (B : Book) (s : Bool) :
    ((B s ++ B (!s)).map Order.id).Nodup ↔ ((B true ++ B false).map Order.id).Nodup := by
  cases s with
  | true => exact Iff.rfl
  | false => exact (List.perm_append_comm.map _).nodup_iff

/-- Being uncrossed, seen from either side. -/
lemma uncrossed_iff (B : Book) (s : Bool) :
    (∀ x ∈ B s, ∀ y ∈ B (!s), crosses s x.price y.price = false)
      ↔ ∀ b ∈ B true, ∀ a ∈ B false, b.price < a.price := by
  cases s with
  | true => simp [crosses]
  | false =>
    simp only [crosses, Bool.not_false, Bool.false_eq_true, if_false, decide_eq_false_iff_not,
      not_le]
    exact ⟨fun h b hb a ha => h a ha b hb, fun h a ha b hb => h b hb a ha⟩

lemma Valid.pos (h : B.Valid) {s : Bool} : ∀ r ∈ B s, 0 < r.quantity :=
  fun r hr => (h.order s r hr).2.2

/-- A side is the one of the order or the one it is matched with. -/
lemma side_eq_or (s : Bool) (o : Order) : s = o.side ∨ s = !o.side := by
  cases s <;> cases o.side <;> simp

lemma Valid.submit_order (h : B.Valid) (hprice : o.price < maxPrice) (s : Bool) :
    ∀ r ∈ B.submit o s, r.side = s ∧ r.price < maxPrice ∧ 0 < r.quantity := by
  intro r hr
  rcases side_eq_or s o with rfl | rfl
  · rw [submit_same] at hr
    split_ifs at hr with hp
    · exact h.order _ r hr
    · rcases mem_insert.mp hr with rfl | hr
      · exact ⟨rfl, hprice, Nat.pos_of_ne_zero hp⟩
      · exact h.order _ r hr
  · rw [submit_opposite] at hr
    obtain ⟨a, ha, q, hq, rfl⟩ := mem_remaining h.pos hr
    obtain ⟨hs, hp, -⟩ := h.order _ a ha
    exact ⟨hs, hp, Nat.sub_pos_of_lt hq⟩

lemma Valid.submit_priority (h : B.Valid) (s : Bool) :
    (B.submit o s).Pairwise fun a b => ¬ Outranks s b.price a.price := by
  rcases side_eq_or s o with rfl | rfl
  · rw [submit_same]
    split_ifs
    · exact h.priority _
    · exact priority_insert (h.priority _)
  · rw [submit_opposite, ← List.pairwise_map (R := fun p q => ¬ Outranks _ q p)]
    refine List.Pairwise.sublist (map_remaining_suffix _ ?_ (h.priority _)).sublist ?_
    · intro r q
      rfl
    · rw [List.pairwise_map]
      exact h.priority _

lemma Valid.submit_fifo (h : B.Valid) (hid : ∀ s, ∀ r ∈ B s, r.id < o.id) (s : Bool) :
    (B.submit o s).Pairwise fun a b => a.price = b.price → a.id < b.id := by
  rcases side_eq_or s o with rfl | rfl
  · rw [submit_same]
    split_ifs
    · exact h.fifo _
    · exact fifo_insert (h.priority _) (h.fifo _) (hid _)
  · rw [submit_opposite]
    have hsub := (map_remaining_suffix (fun r => (r.price, r.id)) (fun _ _ => rfl)
      (h.priority (!o.side))).sublist
    have hf := h.fifo (!o.side)
    rw [← List.pairwise_map (f := fun r : Order => (r.price, r.id))
      (R := fun a b => a.1 = b.1 → a.2 < b.2)] at hf ⊢
    exact hf.sublist hsub

lemma Valid.submit_ids (h : B.Valid) (hid : ∀ s, ∀ r ∈ B s, r.id < o.id) :
    ((B.submit o true ++ B.submit o false).map Order.id).Nodup := by
  rw [← ids_iff _ o.side]
  have hids := (ids_iff B o.side).mpr h.ids
  have hsub : ((B o.side ++ B.remaining o).map Order.id).Sublist
      ((B o.side ++ B (!o.side)).map Order.id) := by
    rw [List.map_append, List.map_append]
    exact (map_remaining_suffix _ (fun _ _ => rfl) (h.priority _)).sublist.append_left _
  rw [submit_same, submit_opposite]
  split_ifs with hp
  · exact hids.sublist hsub
  · rw [((insert_perm.append_right _).map _).nodup_iff, List.cons_append, List.map_cons,
      List.nodup_cons]
    refine ⟨?_, hids.sublist hsub⟩
    intro hmem
    obtain ⟨r, hr, hro⟩ := List.mem_map.mp (hsub.subset hmem)
    have hlt : r.id < o.id := by
      rcases List.mem_append.mp hr with hr | hr
      · exact hid _ r hr
      · exact hid _ r hr
    exact absurd hro hlt.ne

lemma Valid.submit_uncrossed (h : B.Valid) :
    ∀ b ∈ B.submit o true, ∀ a ∈ B.submit o false, b.price < a.price := by
  rw [← uncrossed_iff _ o.side, submit_same, submit_opposite]
  have hun := (uncrossed_iff B o.side).mpr h.uncrossed
  intro x hx y hy
  have hold : x ∈ B o.side → crosses o.side x.price y.price = false := by
    intro hx
    obtain ⟨a, ha, q, -, rfl⟩ := mem_remaining h.pos hy
    exact hun x hx a ha
  split_ifs at hx with hp
  · exact hold hx
  · rcases mem_insert.mp hx with rfl | hx
    · rw [remaining_of_placed h.pos hp] at hy
      exact (mem_standing.mp hy).2
    · exact hold hx

/-- **Submission keeps the book well formed**, for an accepted price and a new greatest id. -/
theorem Valid.submit (h : B.Valid) (hprice : o.price < maxPrice)
    (hid : ∀ s, ∀ r ∈ B s, r.id < o.id) : (B.submit o).Valid where
  order := h.submit_order hprice
  priority := h.submit_priority
  fifo := h.submit_fifo hid
  ids := h.submit_ids hid
  uncrossed := h.submit_uncrossed

/-! ### Cancellation -/

lemma remove_sublist (B : Book) (id : Nat) (s : Bool) : (B.remove id s).Sublist (B s) :=
  List.filter_sublist

/-- Removing an order keeps the book well formed. -/
theorem Valid.remove (h : B.Valid) (id : Nat) : (B.remove id).Valid where
  order s r hr := h.order s r ((remove_sublist B id s).subset hr)
  priority s := (h.priority s).sublist (remove_sublist B id s)
  fifo s := (h.fifo s).sublist (remove_sublist B id s)
  ids := h.ids.sublist (((remove_sublist B id true).append (remove_sublist B id false)).map _)
  uncrossed b hb a ha := h.uncrossed b ((remove_sublist B id true).subset hb) a
    ((remove_sublist B id false).subset ha)

theorem Valid.cancel (h : B.Valid) (id : Nat) (userId : Int) : (B.cancel id userId).1.Valid := by
  simp only [Book.cancel]
  cases B.find id userId with
  | some r => exact h.remove id
  | none => exact h

/-- Cancelling adds nothing to the book. -/
lemma cancel_sublist (B : Book) (id : Nat) (userId : Int) (s : Bool) :
    ((B.cancel id userId).1 s).Sublist (B s) := by
  simp only [Book.cancel]
  cases B.find id userId with
  | some r => exact remove_sublist B id s
  | none => exact List.Sublist.refl _

lemma find_eq_none_iff {id : Nat} {userId : Int} :
    B.find id userId = none ↔ ∀ s, ∀ r ∈ B s, ¬ (r.id = id ∧ r.userId = userId) := by
  rw [find, List.find?_eq_none]
  constructor
  · intro h s r hr
    have hmem : r ∈ B true ++ B false := by
      cases s with
      | true => exact List.mem_append_left _ hr
      | false => exact List.mem_append_right _ hr
    simpa using h r hmem
  · intro h r hr
    rcases List.mem_append.mp hr with hr | hr
    · simpa using h true r hr
    · simpa using h false r hr

lemma mem_sides {r : Order} : r ∈ B true ++ B false ↔ ∃ s, r ∈ B s := by
  simp [or_comm]

/-- An id names one resting order. -/
lemma Valid.eq_of_id (h : B.Valid) {s t : Bool} {r x : Order} (hr : r ∈ B s) (hx : x ∈ B t)
    (hid : r.id = x.id) : r = x :=
  List.inj_on_of_nodup_map h.ids (mem_sides.mpr ⟨s, hr⟩) (mem_sides.mpr ⟨t, hx⟩) hid

/-- `find` succeeds exactly on a resting order of that id and owner. -/
lemma find_eq_some_iff (h : B.Valid) {id : Nat} {userId : Int} {r : Order} :
    B.find id userId = some r ↔ (∃ s, r ∈ B s) ∧ r.id = id ∧ r.userId = userId := by
  constructor
  · intro hf
    have hid := List.find?_some hf
    exact ⟨mem_sides.mp (List.mem_of_find?_eq_some hf), by simpa using hid⟩
  · rintro ⟨⟨s, hr⟩, rfl, rfl⟩
    have hex : (B.find r.id r.userId).isSome := by
      rw [find, List.find?_isSome]
      exact ⟨r, mem_sides.mpr ⟨s, hr⟩, by simp⟩
    obtain ⟨r', hr'⟩ := Option.isSome_iff_exists.mp hex
    have hid := List.find?_some hr'
    simp only [decide_eq_true_eq] at hid
    obtain ⟨t, ht⟩ := mem_sides.mp (List.mem_of_find?_eq_some hr')
    rw [hr', h.eq_of_id ht hr hid.1]

/-! ### Best prices -/

/-- A side with an order has that of its first order as best price. -/
lemma best_mem {s : Bool} (h : B s ≠ []) : ∃ r ∈ B s, B.best s = r.price := by
  obtain ⟨r, l, hl⟩ := List.exists_cons_of_ne_nil h
  refine ⟨r, by simp [hl], ?_⟩
  rw [best, hl, List.map_cons, List.headD_cons]

lemma Valid.best_lt (h : B.Valid) (hbid : B true ≠ []) (hask : B false ≠ []) :
    B.best true < B.best false := by
  obtain ⟨b, hb, hbest⟩ := best_mem hbid
  obtain ⟨a, ha, hbest'⟩ := best_mem hask
  rw [hbest, hbest']
  exact h.uncrossed b hb a ha

end Book

end ExchangeEngine
