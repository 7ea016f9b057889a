import ExchangeEngine.OrderBook.Properties

/-!
# Price-time priority

The trades of a submission are the greedy consumption of the crossing orders, best price first and
oldest first within a price, up to the first order of the same owner.
-/

namespace ExchangeEngine

/-- `x` is matched before `y`: better price, or the same price and submitted earlier. -/
def Precedes (side : Bool) (x y : Order) : Prop :=
  Outranks side x.price y.price ∨ x.price = y.price ∧ x.id < y.id

/-- The orders of `R` in front of the first one of the user. -/
def beforeOwn (userId : Int) (R : List Order) : List Order :=
  R.takeWhile fun x => decide (x.userId ≠ userId)

/-- `traded` is the greedy consumption by `o` of the crossing orders `R`. -/
structure GreedyFill (B : Book) (o : Order) (R : List Order) (traded : List (Order × Nat)) :
    Prop where
  crossing : ∀ x, x ∈ R ↔ x ∈ B (!o.side) ∧ crosses o.side o.price x.price = true
  sorted : R.Pairwise (Precedes (!o.side))
  /-- no order is skipped, and none from the first own order on is reached -/
  reached : traded.map Prod.fst <+: beforeOwn o.userId R
  /-- every order reached, but possibly the last, is filled completely -/
  full : ∀ pre x post, traded = pre ++ x :: post → post ≠ [] → x.2 = x.1.quantity
  amount : ∀ x ∈ traded, 0 < x.2 ∧ x.2 ≤ x.1.quantity
  total : (traded.map Prod.snd).sum
    = min o.quantity (Consume.total Order.quantity (beforeOwn o.userId R))

namespace Book

variable {B : Book} {o : Order}

lemma avail_eq_beforeOwn (o : Order) (R : List Order) :
    Consume.avail (sameOwner o) R = beforeOwn o.userId R := by
  have h : (fun x : Order => !sameOwner o x) = fun x => decide (x.userId ≠ o.userId) := by
    funext x
    simp [sameOwner, eq_comm]
  rw [Consume.avail, h, beforeOwn]

lemma Valid.sorted (h : B.Valid) (s : Bool) : (B s).Pairwise (Precedes s) := by
  apply ((h.priority s).and (h.fifo s)).imp
  rintro x y ⟨hpri, hfifo⟩
  by_cases hp : x.price = y.price
  · exact Or.inr ⟨hp, hfifo hp⟩
  · left
    cases s <;> simp [Scan.Before] at hpri ⊢ <;> omega

theorem Valid.greedyFill (h : B.Valid) : GreedyFill B o (B.crossing o) (B.served o) where
  crossing x := mem_crossing
  sorted := (h.sorted _).sublist List.filter_sublist
  reached := by
    rw [← avail_eq_beforeOwn]
    exact Consume.takes_prefix
  full pre x post hsplit hpost := Consume.takes_full hsplit hpost
  amount x hx := by
    apply Consume.pos_of_mem_takes _ hx
    intro a ha
    exact (h.order _ a (mem_crossing.mp (Consume.mem_avail ha).1).1).2.2
  total := by
    rw [← avail_eq_beforeOwn]
    exact Consume.total_takes

/-- No own order among the crossing ones. -/
lemma selfCrossing_eq_nil_iff :
    B.selfCrossing o = [] ↔ ∀ x ∈ B.crossing o, x.userId ≠ o.userId := by
  rw [selfCrossing, Consume.blocked_eq_nil_iff]
  simp [sameOwner, eq_comm]

/-- What is not served is what was not traded. -/
lemma short_eq : B.short o = o.quantity - ((B.served o).map Prod.snd).sum := by
  have htotal : ((B.served o).map Prod.snd).sum = min o.quantity
      (Consume.total Order.quantity (Consume.avail (sameOwner o) (B.crossing o))) :=
    Consume.total_takes
  rw [htotal, short, Consume.short]
  omega

lemma placed_eq : B.placed o = if ∀ x ∈ B.crossing o, x.userId ≠ o.userId
    then o.quantity - ((B.served o).map Prod.snd).sum else 0 := by
  rw [placed, short_eq]
  exact if_congr selfCrossing_eq_nil_iff rfl rfl

lemma rejected_eq : B.rejected o = if ∀ x ∈ B.crossing o, x.userId ≠ o.userId
    then 0 else o.quantity - ((B.served o).map Prod.snd).sum := by
  rw [rejected, short_eq]
  exact if_congr selfCrossing_eq_nil_iff rfl rfl

/-- The opposite side after matching: the traded orders, as far as something is left of them, and
the others as they were. -/
lemma remaining_eq (h : B.Valid) : B.remaining o
    = ((B.served o).map fun x => x.1.reduce x.2).filter (fun a => decide (0 < a.quantity))
      ++ (B (!o.side)).drop (B.served o).length := by
  have hlen : (B.served o).length ≤ (B.crossing o).length := by
    have hp : (B.served o).map Prod.fst <+: Consume.avail (sameOwner o) (B.crossing o) :=
      Consume.takes_prefix
    have h₁ := hp.length_le
    rw [List.length_map] at h₁
    exact h₁.trans (List.takeWhile_prefix _).length_le
  have hdrop : (B.crossing o ++ B.standing o).drop (B.served o).length
      = (B.crossing o).drop (B.served o).length ++ B.standing o :=
    List.drop_append_of_le_length hlen
  rw [crossing_append_standing (h.priority _)] at hdrop
  rw [remaining, Consume.left_eq fun _ _ => rfl, List.append_assoc, hdrop]
  rfl

/-- The queues on the side of the order: what is left of it goes to the back of its price. -/
lemma atPrice_submit (h : B.Valid) (p : Nat) : (B.submit o).atPrice o.side p = B.atPrice o.side p
    ++ if p = o.price ∧ 0 < B.placed o then [{ o with quantity := B.placed o }] else [] := by
  rw [atPrice, submit_same]
  by_cases hplaced : B.placed o = 0
  · simp [hplaced, atPrice]
  · rw [if_neg hplaced, filter_price_insert (h.priority _), atPrice]
    by_cases hp : p = o.price
    · simp [hp, Nat.pos_of_ne_zero hplaced]
    · simp [hp]

end Book

namespace OrderBook

variable {b : OrderBook} {o : Order}

/-- The outcome of submitting `o`, given the crossing orders and what was traded with them. -/
structure PriceTimeOutcome (b : OrderBook) (o : Order) (r : Processed) (R : List Order)
    (traded : List (Order × Nat)) : Prop where
  fills : r.fills = traded.map fun x => tradeOf o.side r.order x.1 x.1.price x.2
  /-- the listener, if there is one, hears of every fill -/
  notified : r.notified = if b.tradeListener then r.fills else []
  /-- the parties of a trade differ, and its price, that of the resting order, respects both
  limits -/
  limits : ∀ x ∈ traded, ∀ t, t = tradeOf o.side r.order x.1 x.1.price x.2 →
    t.price = x.1.price ∧ t.buyerUserId ≠ t.sellerUserId ∧
    (if o.side then x.1.price else o.price) ≤ t.price ∧ t.price ≤ t.buyerLimitPrice
  /-- the returned quantity is what an own order kept from trading -/
  rejected : r.rejectedQty = if ∀ x ∈ R, x.userId ≠ o.userId then 0
    else o.quantity - (traded.map Prod.snd).sum
  /-- the order keeps its fields, under its new id -/
  order : ∃ i < maxOrders, r.order =
    { o with
      id := (b.orderIdCounter + 1) * 2 ^ 32 + i
      quantity := if ∀ x ∈ R, x.userId ≠ o.userId
        then o.quantity - (traded.map Prod.snd).sum else 0 }
  /-- a remainder goes to the back of the queue of its price -/
  own : ∀ p < maxPrice, r.book.queue o.side p = b.queue o.side p
    ++ if p = o.price ∧ 0 < r.order.quantity then [r.order] else []
  /-- what was not traded stays as it was -/
  opposite : r.book.resting (!o.side)
    = (traded.map fun x => x.1.reduce x.2).filter (fun a => decide (0 < a.quantity))
      ++ (b.resting (!o.side)).drop traded.length

lemma Submitted.priceTimeOutcome {r : Processed} {i : Nat} (h : Inv b) (hi : i < maxOrders)
    (hs : Submitted b { o with id := (b.orderIdCounter + 1) * 2 ^ 32 + i } r) :
    PriceTimeOutcome b o r (b.resting.crossing o) (b.resting.served o) := by
  generalize ho : { o with id := (b.orderIdCounter + 1) * 2 ^ 32 + i } = o' at hs
  -- the new id plays no part in matching
  have hserved : b.resting.served o' = b.resting.served o := by rw [← ho]; rfl
  have hremaining : b.resting.remaining o' = b.resting.remaining o := by rw [← ho]; rfl
  have hplaced : b.resting.placed o' = b.resting.placed o := by rw [← ho]; rfl
  have hrejected : b.resting.rejected o' = b.resting.rejected o := by rw [← ho]; rfl
  have hside : o'.side = o.side := by rw [← ho]
  have hprice : o'.price = o.price := by rw [← ho]
  have horder : r.order.userId = o.userId ∧ r.order.price = o.price := by
    rw [hs.order, ← ho]
    exact ⟨rfl, rfl⟩
  refine ⟨?_, hs.notified, ?_, ?_, ⟨i, hi, ?_⟩, ?_, ?_⟩
  · rw [hs.fills, Book.fills, hserved, hs.order, hside]
    rfl
  · rintro x hx t rfl
    obtain ⟨hmem, hown⟩ := Consume.mem_avail (Consume.mem_of_mem_takes hx)
    have hcross := (Book.mem_crossing.mp hmem).2
    simp only [sameOwner, decide_eq_false_iff_not] at hown
    cases hd : o.side with
    | true => simpa [tradeOf, crosses, horder, hd, hown] using hcross
    | false => simpa [tradeOf, crosses, horder, hd, Ne.symm hown] using hcross
  · rw [hs.rejected, hrejected, Book.rejected_eq]
  · rw [hs.order, hplaced, ← Book.placed_eq, ← ho]
  · intro p hp
    rw [hs.inv.queue_eq _ hp, h.queue_eq _ hp, hs.resting, hs.order, ← hside,
      Book.atPrice_submit h.valid, hprice]
  · rw [hs.resting, ← hside, Book.submit_opposite, hremaining, Book.remaining_eq h.valid, hside]

/-- **Price-time priority, exactly**: in every reachable book a gated submission trades with the
crossing orders greedily, in priority order, up to the first own order; an own order rejects the
remainder, which otherwise comes to rest; all other orders stay. -/
theorem processOrder_priceTime (h : Reachable b) (hcan : canProcessOrder b o = true)
    (hcounter : b.orderIdCounter + 1 < 2 ^ 32) :
    ∃ r R traded, (∀ fuel, maxOrders < fuel → processOrder o.side fuel b o = some r) ∧
      GreedyFill b.resting o R traded ∧ PriceTimeOutcome b o r R traded := by
  obtain ⟨r, hrun, i, hi, -, hs⟩ := processOrder_spec h.inv hcan hcounter (Nat.lt_succ_self _)
  refine ⟨r, _, _, ?_, h.inv.valid.greedyFill, hs.priceTimeOutcome h.inv hi⟩
  exact fun fuel hfuel => processOrder_mono hfuel hrun

/-- A sell order of user 8 against the resting buy order of user 7. -/
theorem processOrder_priceTime_sampleOrder : ∃ b r R traded, Reachable b ∧
    (∀ fuel, maxOrders < fuel →
      processOrder false fuel b ⟨0, 8, 0, 90, 7, 1, false⟩ = some r) ∧
    GreedyFill b.resting ⟨0, 8, 0, 90, 7, 1, false⟩ R traded ∧
    PriceTimeOutcome b ⟨0, 8, 0, 90, 7, 1, false⟩ r R traded := by
  obtain ⟨r, hrun, hreach⟩ := sampleOrder_run
  have hstate : (processOrder true 100001 new sampleOrder).map (fun r =>
      (canProcessOrder r.book ⟨0, 8, 0, 90, 7, 1, false⟩, r.book.orderIdCounter))
      = some (true, 1) := by decide +kernel
  simp only [hrun, Option.map_some, Option.some.injEq, Prod.mk.injEq] at hstate
  obtain ⟨r', R, traded, hmatch⟩ := processOrder_priceTime hreach hstate.1
    (by rw [hstate.2]; decide)
  exact ⟨r.book, r', R, traded, hreach, hmatch⟩

end OrderBook

end ExchangeEngine
