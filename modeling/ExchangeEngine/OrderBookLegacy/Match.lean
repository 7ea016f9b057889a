import ExchangeEngine.OrderBookLegacy.Basic
import ExchangeEngine.Serving

/-!
# Matching on `OrderBookLegacy`

The loops over a level and over the levels serve the incoming order as the price-time-priority
book does, and take every consumed order out of `locations_`.
-/

namespace ExchangeEngine

namespace OrderBookLegacy

variable {side listener : Bool} {price total : Nat} {s : MatchState} {L : List Order}

/-- The trades handed to the listener, which may be absent. -/
def MatchState.emit (s : MatchState) (listener : Bool) (trades : List Trade) : List Trade :=
  if listener then s.notified ++ trades else s.notified

/-- The entries of the orders of `L` that are not in `L'` any more are erased. -/
def Erased (f f' : Nat → Option Location) (L L' : List Order) : Prop :=
  ∀ id, f' id = if id ∈ L.map Order.id ∧ id ∉ L'.map Order.id then none else f id

lemma Erased.refl (f : Nat → Option Location) (L : List Order) : Erased f f L L := by
  intro id
  rw [if_neg fun h => h.2 h.1]

/-- `s'` is reached from `s` by serving the queue `L` of a level, of which `level` is left. -/
structure ServedLevel (side listener : Bool) (price : Nat) (s s' : MatchState) (L : List Order)
    (level : PriceLevel) : Prop where
  orders : level.orders = leftOf s.incoming L
  total : level.totalQuantity = Consume.total Order.quantity level.orders % 2 ^ 32
  fills : s'.fills = s.fills ++ tradesOf side price s.incoming L
  notified : s'.notified = s.emit listener (tradesOf side price s.incoming L)
  locations : Erased s.locations s'.locations L level.orders

lemma ServedLevel.unchanged {o : Order} (htotal : total = Consume.total Order.quantity L % 2 ^ 32)
    (hleft : leftOf s.incoming L = L) (htrades : tradesOf side price s.incoming L = []) :
    ServedLevel side listener price s { s with incoming := o } L ⟨L, total⟩ := by
  refine ⟨hleft.symm, htotal, ?_, ?_, Erased.refl _ _⟩
  · rw [htrades, List.append_nil]
  · rw [htrades, MatchState.emit, List.append_nil, ite_self]

/-- A head that covers the incoming order is reduced, and nothing more is served. -/
lemma ServedLevel.covered {r : Order} {t : Trade}
    (htotal : total = Consume.total Order.quantity (r :: L) % 2 ^ 32) (hn : s.incoming.quantity ≠ 0)
    (hstop : sameOwner s.incoming r = false) (hlt : s.incoming.quantity < r.quantity)
    (ht : tradeOf side s.incoming r price s.incoming.quantity = t) :
    ServedLevel side listener price s
      ⟨s.locations, s.incoming.reduce s.incoming.quantity, s.fills ++ [t], s.emit listener [t]⟩
      (r :: L) ⟨r.reduce s.incoming.quantity :: L, sub32 total s.incoming.quantity⟩ := by
  have hz : (s.incoming.reduce r.quantity).quantity = 0 := Nat.sub_eq_zero_of_le hlt.le
  have htrades : tradesOf side price s.incoming (r :: L) = [t] := by
    rw [tradesOf_cons hstop hn, Nat.min_eq_left hlt.le, tradesOf_of_zero hz, ht]
  refine ⟨?_, ?_, ?_, ?_, ?_⟩
  · exact (leftOf_cons_of_lt hstop hn hlt).symm
  · rw [htotal, Consume.total_cons, sub32_mod (by omega), Consume.total_cons]
    simp only [Order.reduce_quantity]
    omega
  · rw [htrades]
  · rw [htrades]
  · exact Erased.refl _ (r :: L)

/-- A head that is consumed is erased, followed by serving the rest of the queue. -/
lemma ServedLevel.cons {r : Order} {s' : MatchState} {level : PriceLevel} {t : Trade}
    (hid : r.id ∉ L.map Order.id) (hn : s.incoming.quantity ≠ 0)
    (hstop : sameOwner s.incoming r = false) (hle : r.quantity ≤ s.incoming.quantity)
    (ht : tradeOf side s.incoming r price r.quantity = t)
    (h : ServedLevel side listener price ⟨Function.update s.locations r.id none,
      s.incoming.reduce r.quantity, s.fills ++ [t], s.emit listener [t]⟩ s' L level) :
    ServedLevel side listener price s s' (r :: L) level := by
  have htrades : tradesOf side price s.incoming (r :: L)
      = t :: tradesOf side price (s.incoming.reduce r.quantity) L := by
    rw [tradesOf_cons hstop hn, Nat.min_eq_right hle, ht]
  refine ⟨?_, h.total, ?_, ?_, ?_⟩
  · rw [h.orders, leftOf_cons_of_le hstop hn hle]
  · rw [h.fills, htrades, List.append_assoc, List.singleton_append]
  · rw [h.notified, htrades, MatchState.emit, MatchState.emit, MatchState.emit]
    split_ifs
    · rw [List.append_assoc, List.singleton_append]
    · rfl
  · intro id
    have hsub : level.orders.map Order.id ⊆ L.map Order.id := by
      rw [h.orders]
      exact leftOf_ids_suffix.subset
    rw [h.locations id]
    simp only [List.map_cons, List.mem_cons]
    by_cases hr : id = r.id
    · subst hr
      rw [if_neg fun h => hid h.1, if_pos ⟨Or.inl rfl, fun h => hid (hsub h)⟩,
        Function.update_self]
    · rw [Function.update_of_ne hr]
      exact if_congr (and_congr_left' (by simp [hr])) rfl rfl

/-- **The inner loop** serves the incoming order from the queue of the level. -/
lemma matchLevel_spec (htotal : total = Consume.total Order.quantity L % 2 ^ 32)
    (hids : (L.map Order.id).Nodup) :
    ∃ level s' stop, matchLevel side listener price L total s = (level, s', stop) ∧
      ServedLevel side listener price s s' L level ∧
      (stop, s'.incoming) = outcome s.incoming L := by
  induction L generalizing s total with
  | nil =>
    exact ⟨_, s, none, rfl, ServedLevel.unchanged htotal rfl rfl, outcome_nil.symm⟩
  | cons r L ih =>
    rw [matchLevel]
    by_cases hn : s.incoming.quantity = 0
    · rw [if_neg (by omega)]
      exact ⟨_, s, none, rfl, ServedLevel.unchanged htotal (leftOf_of_zero hn)
        (tradesOf_of_zero hn), (outcome_of_zero hn).symm⟩
    rw [if_pos (Nat.pos_of_ne_zero hn)]
    by_cases hown : s.incoming.userId = r.userId
    · have hstop : sameOwner s.incoming r = true := by simp [sameOwner, hown]
      rw [if_pos hown]
      refine ⟨_, _, _, rfl, ServedLevel.unchanged htotal ?_ ?_, ?_⟩
      · exact Consume.left_cons_of_stop hstop
      · rw [tradesOf, Consume.served_cons_of_stop hstop, List.map_nil]
      · rw [outcome_cons_of_stop hstop hn]
    have hstop : sameOwner s.incoming r = false := by simp [sameOwner, hown]
    obtain ⟨hid, hids⟩ := List.nodup_cons.mp hids
    rw [if_neg hown]
    simp only
    rcases Nat.lt_or_ge s.incoming.quantity r.quantity with hlt | hle
    · have hne : r.quantity - s.incoming.quantity ≠ 0 := Nat.sub_ne_zero_of_lt hlt
      rw [Nat.min_eq_left hlt.le, if_neg hne]
      refine ⟨_, _, _, rfl, ServedLevel.covered htotal hn hstop hlt rfl, ?_⟩
      rw [outcome_cons_of_lt hstop hlt]
      rfl
    · have hz : r.quantity - r.quantity = 0 := Nat.sub_self _
      rw [Nat.min_eq_right hle, if_pos hz]
      generalize ht : tradeOf side s.incoming r price r.quantity = t
      have htotal' : sub32 total r.quantity = Consume.total Order.quantity L % 2 ^ 32 := by
        rw [htotal, Consume.total_cons, sub32_mod (Nat.le_add_right _ _), Nat.add_sub_cancel_left]
      obtain ⟨level, s', stop, hrun, hserved, hout⟩ := @ih (sub32 total r.quantity)
        ⟨Function.update s.locations r.id none, s.incoming.reduce r.quantity, s.fills ++ [t],
          s.emit listener [t]⟩ htotal' hids
      refine ⟨level, s', stop, hrun, hserved.cons hid hn hstop hle ht, ?_⟩
      rw [hout, outcome_cons_of_le hstop]

/-! ### The levels in priority order -/

/-- The orders of a side, level by level. -/
def ordersOf (M : Levels) : List Order := M.flatMap fun e => e.2.orders

/-- An entry of the map: a price with its non-empty queue. -/
structure LevelOk (e : Nat × PriceLevel) : Prop where
  lt : e.1 < maxPrice
  ne_nil : e.2.orders ≠ []
  total : e.2.totalQuantity = Consume.total Order.quantity e.2.orders % 2 ^ 32
  price : ∀ r ∈ e.2.orders, r.price = e.1

@[simp] lemma ordersOf_cons (e : Nat × PriceLevel) (M : Levels) :
    ordersOf (e :: M) = e.2.orders ++ ordersOf M := by
  rw [ordersOf, List.flatMap_cons, ordersOf]

@[simp] lemma ordersOf_append (M M' : Levels) :
    ordersOf (M ++ M') = ordersOf M ++ ordersOf M' := by
  rw [ordersOf, List.flatMap_append, ordersOf, ordersOf]

lemma mem_ordersOf {M : Levels} {r : Order} :
    r ∈ ordersOf M ↔ ∃ e ∈ M, r ∈ e.2.orders := List.mem_flatMap

/-- The orders of a sorted map are sorted by priority. -/
lemma priority_ordersOf {M : Levels} (hs : SortedMap.Sorted (Scan.Before side) M)
    (hok : ∀ e ∈ M, LevelOk e) :
    (ordersOf M).Pairwise fun x y => ¬ Outranks side y.price x.price := by
  rw [ordersOf, List.pairwise_flatMap]
  constructor
  · intro e he
    rw [List.pairwise_iff_forall_sublist]
    intro x y hxy
    rw [(hok e he).price x (hxy.subset (by simp)), (hok e he).price y (hxy.subset (by simp))]
    exact Scan.Before.irrefl _ _
  · apply hs.imp_of_mem
    intro e e' he he' hlt x hx y hy
    rw [(hok e he).price x hx, (hok e' he').price y hy]
    exact hlt.asymm

/-- `s'` is reached from `s` by serving the levels `M` of the side opposite to `side`, of which `M'`
are left. -/
structure ServedLevels (side listener : Bool) (s s' : MatchState) (M M' : Levels) : Prop where
  keys : M'.map Prod.fst <:+ M.map Prod.fst
  ok : ∀ e ∈ M', LevelOk e
  orders : ordersOf M' = leftOf s.incoming (crossingIn side s.incoming (ordersOf M))
    ++ standingIn side s.incoming (ordersOf M)
  fills : s'.fills = s.fills ++ bookTrades side s.incoming (crossingIn side s.incoming (ordersOf M))
  notified : s'.notified
    = s.emit listener (bookTrades side s.incoming (crossingIn side s.incoming (ordersOf M)))
  locations : Erased s.locations s'.locations (ordersOf M) (ordersOf M')

lemma ServedLevels.unchanged {M : Levels} (hok : ∀ e ∈ M, LevelOk e)
    (horders : leftOf s.incoming (crossingIn side s.incoming (ordersOf M))
      ++ standingIn side s.incoming (ordersOf M) = ordersOf M)
    (htrades : bookTrades side s.incoming (crossingIn side s.incoming (ordersOf M)) = []) :
    ServedLevels side listener s s M M := by
  refine ⟨List.suffix_rfl, hok, horders.symm, ?_, ?_, Erased.refl _ _⟩
  · rw [htrades, List.append_nil]
  · rw [htrades, MatchState.emit, List.append_nil, ite_self]

lemma erased_append {f f' f'' : Nat → Option Location} {L₁ L₁' L₂ L₂' : List Order}
    (h₁ : Erased f f' L₁ L₁') (h₂ : Erased f' f'' L₂ L₂')
    (hsub : L₁'.map Order.id ⊆ L₁.map Order.id) (hsub' : L₂'.map Order.id ⊆ L₂.map Order.id)
    (hdisj : ∀ id ∈ L₁.map Order.id, id ∉ L₂.map Order.id) :
    Erased f f'' (L₁ ++ L₂) (L₁' ++ L₂') := by
  intro id
  have hs := @hsub id
  have hs' := @hsub' id
  have hd := hdisj id
  rw [h₂ id, h₁ id]
  simp only [List.map_append, List.mem_append]
  by_cases h₁ : id ∈ L₁.map Order.id
  · have h₂ := hd h₁
    have h₂' : id ∉ L₂'.map Order.id := fun h => h₂ (hs' h)
    simp only [h₁, h₂, h₂', or_false, true_and, false_and, if_false]
  · have h₁' : id ∉ L₁'.map Order.id := fun h => h₁ (hs h)
    simp only [h₁, h₁', false_or, false_and, if_false]

section Levels

variable {level level' : PriceLevel} {M M' : Levels} {s₁ s' : MatchState}

/-- What the outer loop finds at the best level, which crosses the limit. -/
structure BestLevel (side : Bool) (s : MatchState) (price : Nat) (level : PriceLevel)
    (M : Levels) : Prop where
  ok : ∀ e ∈ (price, level) :: M, LevelOk e
  crosses : ∀ r ∈ level.orders, crosses side s.incoming.price r.price = true
  disjoint : ∀ id ∈ level.orders.map Order.id, id ∉ (ordersOf M).map Order.id
  split : crossingIn side s.incoming (ordersOf M) ++ standingIn side s.incoming (ordersOf M)
    = ordersOf M

lemma BestLevel.levelOk (h : BestLevel side s price level M) : LevelOk (price, level) :=
  h.ok _ List.mem_cons_self

/-- Serving ends within the best level, and something of the level is left. -/
lemma BestLevel.stay (h : BestLevel side s price level M)
    (hserved : ServedLevel side listener price s s₁ level.orders level')
    (hends : Ends s.incoming level.orders) (hne : leftOf s.incoming level.orders ≠ []) :
    ServedLevels side listener s s₁ ((price, level) :: M) ((price, level') :: M) where
  keys := List.suffix_rfl
  ok e he := by
    rcases List.mem_cons.mp he with rfl | he
    · refine ⟨h.levelOk.lt, ?_, hserved.total, ?_⟩
      · rw [hserved.orders]
        exact hne
      · rw [hserved.orders]
        exact leftOf_price h.levelOk.price
    · exact h.ok e (List.mem_cons_of_mem _ he)
  orders := by
    rw [ordersOf_cons, ordersOf_cons, crossingIn_append h.crosses, standingIn_append h.crosses,
      leftOf_append_of_ends hends, List.append_assoc, h.split, hserved.orders]
  fills := by
    rw [ordersOf_cons, crossingIn_append h.crosses, bookTrades_append_of_ends hends,
      ← tradesOf_eq_bookTrades h.levelOk.price, hserved.fills]
  notified := by
    rw [ordersOf_cons, crossingIn_append h.crosses, bookTrades_append_of_ends hends,
      ← tradesOf_eq_bookTrades h.levelOk.price, hserved.notified]
  locations := by
    rw [ordersOf_cons, ordersOf_cons]
    apply erased_append hserved.locations (Erased.refl _ _) _ (List.Subset.refl _) h.disjoint
    rw [hserved.orders]
    exact leftOf_ids_suffix.subset

/-- The best level is used up, and the loop goes on with the next one. -/
lemma BestLevel.next (h : BestLevel side s price level M)
    (hserved : ServedLevel side listener price s s₁ level.orders level')
    (hleft : leftOf s.incoming level.orders = [])
    (hin : s₁.incoming = { s.incoming with quantity := shortOf s.incoming level.orders })
    (hserved' : ServedLevels side listener s₁ s' M M') :
    ServedLevels side listener s s' ((price, level) :: M) M' := by
  have hblocked := blockedOf_eq_nil hleft
  have hnil : level'.orders = [] := hserved.orders.trans hleft
  have hcrossing : crossingIn side s₁.incoming (ordersOf M)
      = crossingIn side s.incoming (ordersOf M) := by rw [hin]
  have hstanding : standingIn side s₁.incoming (ordersOf M)
      = standingIn side s.incoming (ordersOf M) := by rw [hin]
  have htrades : bookTrades side s.incoming
      (crossingIn side s.incoming (level.orders ++ ordersOf M))
      = tradesOf side price s.incoming level.orders
        ++ bookTrades side s₁.incoming (crossingIn side s₁.incoming (ordersOf M)) := by
    rw [hcrossing, hin, crossingIn_append h.crosses, tradesOf_eq_bookTrades h.levelOk.price,
      bookTrades, Consume.served_append hblocked, List.map_append]
    rfl
  refine ⟨hserved'.keys.trans (List.suffix_cons _ _), hserved'.ok, ?_, ?_, ?_, ?_⟩
  · rw [ordersOf_cons, crossingIn_append h.crosses, standingIn_append h.crosses,
      leftOf_append hblocked, hleft, List.nil_append, hserved'.orders, hcrossing, hstanding, hin]
  · rw [ordersOf_cons, htrades, hserved'.fills, hserved.fills, List.append_assoc]
  · rw [ordersOf_cons, htrades, hserved'.notified, MatchState.emit, MatchState.emit,
      hserved.notified, MatchState.emit]
    split_ifs
    · rw [List.append_assoc]
    · rfl
  · have hsub : (ordersOf M').map Order.id ⊆ (ordersOf M).map Order.id := by
      rw [hserved'.orders, hcrossing, hstanding, List.map_append]
      conv_rhs => rw [← h.split, List.map_append]
      exact List.append_subset.mpr
        ⟨fun id h => List.mem_append_left _ (leftOf_ids_suffix.subset h),
          List.subset_append_right _ _⟩
    have herased := erased_append hserved.locations hserved'.locations
      (by rw [hnil]; exact List.nil_subset _) hsub h.disjoint
    rw [hnil, List.nil_append] at herased
    rw [ordersOf_cons]
    exact herased

end Levels

/-- **The outer loop** serves the incoming order from the levels that cross its limit. -/
lemma matchLevels_spec {M : Levels} (hs : SortedMap.Sorted (Scan.Before (!side)) M)
    (hok : ∀ e ∈ M, LevelOk e) (hpos : ∀ r ∈ ordersOf M, 0 < r.quantity)
    (hids : ((ordersOf M).map Order.id).Nodup) :
    ∃ M' s' rejectedQty, matchLevels side listener M s = (M', s', rejectedQty) ∧
      ServedLevels side listener s s' M M' ∧
      (rejectedQty, s'.incoming)
        = result s.incoming (crossingIn side s.incoming (ordersOf M)) := by
  induction M generalizing s with
  | nil =>
    exact ⟨[], s, 0, rfl, ServedLevels.unchanged hok rfl rfl, result_nil.symm⟩
  | cons e M ih =>
    have hpri := priority_ordersOf hs hok
    obtain ⟨price, level⟩ := e
    have hlevel := hok _ List.mem_cons_self
    have hokM : ∀ e ∈ M, LevelOk e := fun e he => hok e (List.mem_cons_of_mem _ he)
    rw [ordersOf_cons] at hpri hpos hids ⊢
    simp only at hlevel hpri hpos hids ⊢
    have hsplit : crossingIn side s.incoming (level.orders ++ ordersOf M)
        ++ standingIn side s.incoming (level.orders ++ ordersOf M)
        = level.orders ++ ordersOf M := Book.filter_crosses_append hpri
    rw [matchLevels]
    by_cases hn : s.incoming.quantity = 0
    · rw [if_neg fun h => h.1.ne' hn]
      refine ⟨_, s, 0, rfl, ServedLevels.unchanged hok ?_ ?_, (result_of_zero hn).symm⟩
      · rw [ordersOf_cons, leftOf_of_zero hn]
        exact hsplit
      · rw [bookTrades, hn, Consume.served_zero, List.map_nil]
    cases hc : crosses side s.incoming.price price with
    | false =>
      -- the best level is beyond the limit, and so are all others
      have hnone : crossingIn side s.incoming (level.orders ++ ordersOf M) = [] :=
        crossingIn_eq_nil hpri hlevel.ne_nil hlevel.price hc
      rw [if_neg (by simp)]
      refine ⟨_, s, 0, rfl, ServedLevels.unchanged hok ?_ ?_, ?_⟩
      · rw [ordersOf_cons, hnone]
        rw [hnone] at hsplit
        exact hsplit
      · rw [ordersOf_cons, hnone]
        rfl
      · rw [hnone, result_nil]
    | true =>
      rw [List.map_append] at hids
      obtain ⟨hids₁, hids₂, hdisj⟩ := List.nodup_append.mp hids
      have hbest : BestLevel side s price level M := by
        refine ⟨hok, fun r hr => ?_, fun id hid hid' => hdisj id hid id hid' rfl,
          Book.filter_crosses_append (List.pairwise_append.mp hpri).2.1⟩
        rw [hlevel.price r hr, hc]
      obtain ⟨level', s₁, stop, hrun, hserved, hout⟩ :=
        @matchLevel_spec side listener price level.totalQuantity s level.orders hlevel.total hids₁
      rw [if_pos ⟨Nat.pos_of_ne_zero hn, rfl⟩, hrun]
      cases stop with
      | some q =>
        obtain ⟨hblocked, hq, hin⟩ := outcome_eq_some hout.symm
        have hends : Ends s.incoming level.orders := Or.inl hblocked
        refine ⟨_, s₁, q, rfl, hbest.stay hserved hends (leftOf_ne_nil hblocked), ?_⟩
        rw [crossingIn_append hbest.crosses, result_append_of_ends hends, result,
          if_neg hblocked, hq, hin]
      | none =>
        obtain ⟨hgo, hin⟩ := outcome_eq_none hout.symm
        by_cases hleft : leftOf s.incoming level.orders = []
        · have hblocked := blockedOf_eq_nil hleft
          have hnil : level'.orders = [] := hserved.orders.trans hleft
          obtain ⟨M', s', rej, hrun', hserved', hres⟩ := @ih s₁ (List.pairwise_cons.mp hs).2 hokM
            (fun r hr => hpos r (List.mem_append_right _ hr)) hids₂
          simp only [hnil, List.isEmpty_nil, if_true]
          refine ⟨M', s', rej, hrun', hbest.next hserved hleft hin hserved', ?_⟩
          have hcrossing : crossingIn side s₁.incoming (ordersOf M)
              = crossingIn side s.incoming (ordersOf M) := by rw [hin]
          rw [crossingIn_append hbest.crosses, result_append hblocked, hres, hcrossing, hin]
        · have hpos₁ : ∀ r ∈ level.orders, 0 < r.quantity :=
            fun r hr => hpos r (List.mem_append_left _ hr)
          have hz := short_eq_zero_of_left hpos₁ hleft hgo
          have hends : Ends s.incoming level.orders := Or.inr hz
          have hne : level'.orders.isEmpty = false := by
            rw [hserved.orders]
            simpa using hleft
          simp only [hne, Bool.false_eq_true, if_false]
          refine ⟨_, s₁, 0, rfl, hbest.stay hserved hends hleft, ?_⟩
          rw [crossingIn_append hbest.crosses, result_append_of_ends hends, result]
          split_ifs
          · rw [hin]
          · rw [hin, hz]

end OrderBookLegacy

end ExchangeEngine
