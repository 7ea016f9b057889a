import ExchangeEngine.PriceTime

/-!
# Serving an incoming order

How both engines match: the levels of the opposite side are served in turn, and within a level the
queue from the front. This file says what one level contributes, what all levels that cross the
limit amount to, and when the loop over the levels ends.
-/

namespace ExchangeEngine

/-! ### One level -/

/-- What a level keeps when `incoming` was served from it. -/
abbrev leftOf (incoming : Order) (L : List Order) : List Order :=
  Consume.left Order.quantity Order.reduce (sameOwner incoming) incoming.quantity L

/-- The trades of `incoming` with a level. -/
abbrev tradesOf (side : Bool) (price : Nat) (incoming : Order) (L : List Order) : List Trade :=
  (Consume.served Order.quantity (sameOwner incoming) incoming.quantity L).map
    fun x => tradeOf side incoming x.1 price x.2

/-- What a level does not serve. -/
abbrev shortOf (incoming : Order) (L : List Order) : Nat :=
  Consume.short Order.quantity (sameOwner incoming) incoming.quantity L

/-- The own order at which serving stops, and those behind it. -/
abbrev blockedOf (incoming : Order) (L : List Order) : List Order :=
  Consume.blocked (sameOwner incoming) L

/-- How serving `incoming` from a level ends: the rejected quantity if an own order stopped it, and
the incoming order afterwards. -/
def outcome (incoming : Order) (L : List Order) : Option Nat × Order :=
  if blockedOf incoming L ≠ [] ∧ 0 < shortOf incoming L then
    (some (shortOf incoming L), { incoming with quantity := 0 })
  else (none, { incoming with quantity := shortOf incoming L })

section Level

variable {o r : Order} {L : List Order} {side : Bool} {best : Nat}

@[simp] lemma outcome_nil : outcome o [] = (none, o) := by
  simp [outcome, blockedOf, Consume.blocked]

lemma outcome_of_zero (h : o.quantity = 0) : outcome o L = (none, o) := by
  have hs : shortOf o L = 0 := by simp [shortOf, h]
  rw [outcome, if_neg fun e => (hs ▸ e.2).ne rfl, hs]
  cases o
  simp_all

lemma outcome_cons_of_stop (h : sameOwner o r = true) (hn : o.quantity ≠ 0) :
    outcome o (r :: L) = (some o.quantity, { o with quantity := 0 }) := by
  rw [outcome, if_pos]
  · rw [shortOf, Consume.short_cons_of_stop h]
  · rw [blockedOf, Consume.blocked_cons_of_stop h, shortOf, Consume.short_cons_of_stop h]
    exact ⟨List.cons_ne_nil _ _, Nat.pos_of_ne_zero hn⟩

lemma outcome_cons_of_le (h : sameOwner o r = false) :
    outcome o (r :: L) = outcome (o.reduce r.quantity) L := by
  simp only [outcome, blockedOf, shortOf, Consume.blocked_cons_of_not_stop h,
    Consume.short_cons_of_not_stop h]
  rfl

lemma outcome_cons_of_lt (h : sameOwner o r = false) (hlt : o.quantity < r.quantity) :
    outcome o (r :: L) = (none, o.reduce o.quantity) := by
  have hz : o.quantity - r.quantity = 0 := Nat.sub_eq_zero_of_le hlt.le
  rw [outcome_cons_of_le h, outcome_of_zero hz, Order.reduce, Order.reduce, hz, Nat.sub_self]

lemma leftOf_cons_of_le (h : sameOwner o r = false) (hn : o.quantity ≠ 0)
    (hle : r.quantity ≤ o.quantity) : leftOf o (r :: L) = leftOf (o.reduce r.quantity) L :=
  Consume.left_cons_of_le h hn hle

lemma leftOf_cons_of_lt (h : sameOwner o r = false) (hn : o.quantity ≠ 0)
    (hlt : o.quantity < r.quantity) : leftOf o (r :: L) = r.reduce o.quantity :: L :=
  Consume.left_cons_of_lt h hn hlt

lemma leftOf_ids_suffix : (leftOf o L).map Order.id <:+ L.map Order.id :=
  Consume.map_left_suffix Order.id fun _ _ => rfl

lemma leftOf_price (h : ∀ r ∈ L, r.price = best) : ∀ r ∈ leftOf o L, r.price = best := by
  intro r hr
  rcases Consume.mem_left hr with hr | ⟨a, ha, q, -, rfl⟩
  · exact h r hr
  · exact h a ha

lemma tradesOf_cons (h : sameOwner o r = false) (hn : o.quantity ≠ 0) :
    tradesOf side best o (r :: L) = tradeOf side o r best (min o.quantity r.quantity)
      :: tradesOf side best (o.reduce r.quantity) L := by
  rw [tradesOf, Consume.served_cons_of_not_stop h hn]
  rfl

lemma leftOf_of_zero (h : o.quantity = 0) : leftOf o L = L := by
  rw [leftOf, h, Consume.left_zero]

lemma tradesOf_of_zero (h : o.quantity = 0) : tradesOf side best o L = [] := by
  rw [tradesOf, h, Consume.served_zero, List.map_nil]

lemma outcome_eq_some {q : Nat} {o' : Order} (h : outcome o L = (some q, o')) :
    blockedOf o L ≠ [] ∧ shortOf o L = q ∧ o' = { o with quantity := 0 } := by
  simp only [outcome] at h
  split_ifs at h with hc
  · obtain ⟨hq, ho⟩ := Prod.ext_iff.mp h
    exact ⟨hc.1, Option.some.inj hq, ho.symm⟩
  · exact absurd (Prod.ext_iff.mp h).1 (by simp)

lemma outcome_eq_none {o' : Order} (h : outcome o L = (none, o')) :
    ¬ (blockedOf o L ≠ [] ∧ 0 < shortOf o L) ∧ o' = { o with quantity := shortOf o L } := by
  simp only [outcome] at h
  split_ifs at h with hc
  · exact absurd (Prod.ext_iff.mp h).1 (by simp)
  · exact ⟨hc, (Prod.ext_iff.mp h).2.symm⟩

lemma leftOf_ne_nil (h : blockedOf o L ≠ []) : leftOf o L ≠ [] := by
  rw [leftOf, Consume.left]
  simp [h]

lemma blockedOf_eq_nil (h : leftOf o L = []) : blockedOf o L = [] :=
  not_not.mp fun hb => leftOf_ne_nil hb h

end Level

/-! ### The levels in priority order -/

/-- The crossing orders of a side, in priority order. -/
abbrev crossingIn (side : Bool) (o : Order) (L : List Order) : List Order :=
  L.filter fun r => crosses side o.price r.price

/-- The orders of a side beyond the limit. -/
abbrev standingIn (side : Bool) (o : Order) (L : List Order) : List Order :=
  L.filter fun r => !crosses side o.price r.price

/-- The trades of `incoming` with a whole side, each at the price of the resting order. -/
abbrev bookTrades (side : Bool) (o : Order) (L : List Order) : List Trade :=
  (Consume.served Order.quantity (sameOwner o) o.quantity L).map
    fun x => tradeOf side o x.1 x.1.price x.2

/-- How matching against a side ends: the returned quantity and the incoming order afterwards. -/
def result (o : Order) (L : List Order) : Nat × Order :=
  if blockedOf o L = [] then (0, { o with quantity := shortOf o L })
  else (shortOf o L, { o with quantity := 0 })

section Loop

variable {o : Order} {L L' : List Order} {side : Bool} {best : Nat}

lemma crossingIn_append (h : ∀ r ∈ L, crosses side o.price r.price = true) :
    crossingIn side o (L ++ L') = L ++ crossingIn side o L' := by
  rw [crossingIn, List.filter_append, List.filter_eq_self.mpr h]

lemma standingIn_append (h : ∀ r ∈ L, crosses side o.price r.price = true) :
    standingIn side o (L ++ L') = standingIn side o L' := by
  have hnil : standingIn side o L = [] := by
    rw [List.filter_eq_nil_iff]
    intro r hr
    simp [h r hr]
  rw [standingIn, List.filter_append]
  exact congrArg (· ++ _) hnil

/-- When the best level is beyond the limit, so are all others. -/
lemma crossingIn_eq_nil
    (hpri : (L ++ L').Pairwise fun x y => ¬ Outranks (!side) y.price x.price) (hne : L ≠ [])
    (hprice : ∀ r ∈ L, r.price = best) (hc : crosses side o.price best = false) :
    crossingIn side o (L ++ L') = [] := by
  obtain ⟨r, L, rfl⟩ := List.exists_cons_of_ne_nil hne
  have hr : crosses side o.price r.price = false := by
    rw [hprice r List.mem_cons_self, hc]
  rw [List.filter_eq_nil_iff]
  intro x hx
  rw [List.cons_append] at hpri hx
  rcases List.mem_cons.mp hx with rfl | hx
  · simp [hr]
  · simpa using Book.not_crosses_of_outranks hr ((List.pairwise_cons.mp hpri).1 x hx)

/-- At one level the price of the level is the price of the resting order. -/
lemma tradesOf_eq_bookTrades (h : ∀ r ∈ L, r.price = best) :
    tradesOf side best o L = bookTrades side o L := by
  apply List.map_congr_left
  intro x hx
  rw [h x.1 (Consume.mem_avail (Consume.mem_of_mem_takes hx)).1]

lemma result_of_zero (h : o.quantity = 0) : result o L = (0, o) := by
  have hs : shortOf o L = 0 := by simp [shortOf, h]
  rw [result, hs]
  cases o
  simp_all

lemma result_nil : result o [] = (0, o) := by
  simp [result, blockedOf, Consume.blocked]

lemma result_append_of_blocked (h : blockedOf o L ≠ []) : result o (L ++ L') = result o L := by
  rw [result, result, if_neg h, if_neg, shortOf, Consume.short_append_of_blocked h]
  rw [blockedOf, Consume.blocked_append_of_blocked_ne_nil h]
  simp [h]

lemma result_append (h : blockedOf o L = []) :
    result o (L ++ L') = result { o with quantity := shortOf o L } L' := by
  rw [result, result, blockedOf, Consume.blocked_append_of_blocked_eq_nil h, shortOf,
    Consume.short_append h]
  rfl

lemma leftOf_append (h : blockedOf o L = []) :
    leftOf o (L ++ L') = leftOf o L ++ leftOf { o with quantity := shortOf o L } L' :=
  Consume.left_append h

/-- A demand that is met, or stopped, as soon as something of a level is left. -/
lemma short_eq_zero_of_left (hpos : ∀ r ∈ L, 0 < r.quantity) (hleft : leftOf o L ≠ [])
    (hgo : ¬ (blockedOf o L ≠ [] ∧ 0 < shortOf o L)) : shortOf o L = 0 := by
  by_contra hs
  have hs := Nat.pos_of_ne_zero hs
  apply hleft
  rw [leftOf, Consume.left_of_short_pos hpos hs]
  by_contra hb
  exact hgo ⟨hb, hs⟩

/-- Serving ends within `L`: at an own order, or because the demand is met. -/
def Ends (o : Order) (L : List Order) : Prop := blockedOf o L ≠ [] ∨ shortOf o L = 0

lemma leftOf_append_of_ends (h : Ends o L) : leftOf o (L ++ L') = leftOf o L ++ L' := by
  by_cases hb : blockedOf o L = []
  · have hs : shortOf o L = 0 := h.resolve_left (not_not.mpr hb)
    rw [leftOf, Consume.left_append hb]
    congr 1
    exact (congrArg (fun n => Consume.left _ _ _ n L') hs).trans Consume.left_zero
  · exact Consume.left_append_of_blocked hb

lemma bookTrades_append_of_ends (h : Ends o L) :
    bookTrades side o (L ++ L') = bookTrades side o L := by
  by_cases hb : blockedOf o L = []
  · have hs : shortOf o L = 0 := h.resolve_left (not_not.mpr hb)
    have hz : Consume.served Order.quantity (sameOwner o) (shortOf o L) L' = [] := by
      rw [hs, Consume.served_zero]
    rw [bookTrades, Consume.served_append hb, hz, List.append_nil]
  · rw [bookTrades, Consume.served_append_of_blocked hb]

lemma result_append_of_ends (h : Ends o L) : result o (L ++ L') = result o L := by
  by_cases hb : blockedOf o L = []
  · have hs : shortOf o L = 0 := h.resolve_left (not_not.mpr hb)
    rw [result_append hb, hs, result_of_zero rfl, result, if_pos hb, hs]
  · exact result_append_of_blocked hb

end Loop

lemma result_crossing (B : Book) (o : Order) :
    result o (B.crossing o) = (B.rejected o, { o with quantity := B.placed o }) := by
  have hself : B.selfCrossing o = blockedOf o (B.crossing o) := rfl
  rw [result, Book.rejected, Book.placed, hself]
  split_ifs
  · rfl
  · rfl

end ExchangeEngine
