import ExchangeEngine.OrderBookLegacy.Match

/-!
# Submitting an order to `OrderBookLegacy`

The invariant of the LEGACY engine relates the two maps and the location index. Under it a
submission does to the listed orders what `Book.submit` does.
-/

namespace ExchangeEngine

namespace OrderBookLegacy

/-- The orders of both sides, level by level. -/
def resting (b : OrderBookLegacy) : Book := fun side => ordersOf (b.half side)

/-- The maps, the location index and the counter agree. -/
structure Inv (b : OrderBookLegacy) : Prop where
  sorted : ∀ s, SortedMap.Sorted (Scan.Before s) (b.half s)
  ok : ∀ s, ∀ e ∈ b.half s, LevelOk e
  located : ∀ s, ∀ r ∈ b.resting s, b.locations r.id = some ⟨s, r.price, r.id⟩
  found : ∀ id loc, b.locations id = some loc → ∃ s, ∃ r ∈ b.resting s, r.id = id
  ids : ∀ s, ∀ r ∈ b.resting s, r.id ≤ b.orderIdCounter
  valid : b.resting.Valid

variable {b b' : OrderBookLegacy} {side s : Bool} {o r : Order} {M M' pre post : Levels}

/-! ### Resting an order -/

lemma ordersOf_price (hok : ∀ e ∈ M, LevelOk e) (hr : r ∈ ordersOf M) :
    ∃ e ∈ M, r ∈ e.2.orders ∧ r.price = e.1 := by
  obtain ⟨e, he, hr⟩ := mem_ordersOf.mp hr
  exact ⟨e, he, hr, (hok e he).price r hr⟩

/-- Appending an order to its level inserts it into the side in priority order. -/
lemma ordersOf_append_level {L : List Order} (hcut : SortedMap.Cut (Scan.Before side) o.price pre
    post) (hpre : ∀ e ∈ pre, LevelOk e) (hpost : ∀ e ∈ post, LevelOk e)
    (hL : ∀ r ∈ L, r.price = o.price) :
    ordersOf pre ++ ((L ++ [o]) ++ ordersOf post)
      = Book.insert side o (ordersOf pre ++ (L ++ ordersOf post)) := by
  have hbefore : ∀ r ∈ ordersOf pre ++ L, ¬ Outranks side o.price r.price := by
    intro r hr
    rcases List.mem_append.mp hr with hr | hr
    · obtain ⟨e, he, -, hprice⟩ := ordersOf_price hpre hr
      rw [hprice]
      exact (hcut.before e he).asymm
    · rw [hL r hr]
      exact Scan.Before.irrefl _ _
  have hafter : ∀ r ∈ ordersOf post, Outranks side o.price r.price := by
    intro r hr
    obtain ⟨e, he, -, hprice⟩ := ordersOf_price hpost hr
    rw [hprice]
    exact hcut.behind e he
  have hins := Book.insert_append hbefore hafter
  rw [List.append_assoc, List.append_assoc] at hins
  rw [hins, List.append_assoc, List.singleton_append]

/-- A level with one more order. -/
lemma levelOk_append {L : List Order} {total : Nat} (hprice : o.price < maxPrice)
    (hL : ∀ r ∈ L, r.price = o.price) (htotal : total = Consume.total Order.quantity L % 2 ^ 32) :
    LevelOk (o.price, ⟨L ++ [o], add32 total o.quantity⟩) where
  lt := hprice
  ne_nil := by simp
  total := by
    rw [htotal, add32_mod, Consume.total_append, Consume.total_cons, Consume.total_nil, add_zero]
  price r hr := by
    rcases List.mem_append.mp hr with hr | hr
    · exact hL r hr
    · rw [List.mem_singleton.mp hr]

/-- `add_order` on a map: the order goes behind those that rank at least as well. -/
lemma modify_levels (hs : SortedMap.Sorted (Scan.Before side) M) (hok : ∀ e ∈ M, LevelOk e)
    (hprice : o.price < maxPrice) (hM' : SortedMap.modify (Scan.Before side) {} o.price
      (fun level => (⟨level.orders ++ [o], add32 level.totalQuantity o.quantity⟩ : PriceLevel)) M
      = M') :
    SortedMap.Sorted (Scan.Before side) M' ∧ (∀ e ∈ M', LevelOk e) ∧
      ordersOf M' = Book.insert side o (ordersOf M) := by
  obtain ⟨pre, post, hcut, hm⟩ := SortedMap.modify_split (d := ({} : PriceLevel)) (k := o.price)
    (f := fun level => ⟨level.orders ++ [o], add32 level.totalQuantity o.quantity⟩) hs
    (fun _ _ hne h => Scan.Before.of_not hne h) (fun _ _ _ h h' => h.trans h')
  rw [hM'] at hm
  -- both cases leave the old level, possibly empty, with `o` at its back
  suffices h : ∃ L total, (∀ r ∈ L, r.price = o.price) ∧
      total = Consume.total Order.quantity L % 2 ^ 32 ∧
      ordersOf M = ordersOf pre ++ (L ++ ordersOf post) ∧
      (∀ e ∈ pre, e ∈ M) ∧ (∀ e ∈ post, e ∈ M) ∧
      SortedMap.Sorted (Scan.Before side) pre ∧ SortedMap.Sorted (Scan.Before side) post ∧
      M' = pre ++ (o.price, ⟨L ++ [o], add32 total o.quantity⟩) :: post by
    obtain ⟨L, total, hL, htotal, hM, hpre, hpost, hspre, hspost, rfl⟩ := h
    refine ⟨hcut.sorted hspre hspost fun _ _ _ h h' => h.trans h', ?_, ?_⟩
    · intro e he
      rcases List.mem_append.mp he with he | he
      · exact hok e (hpre e he)
      rcases List.mem_cons.mp he with rfl | he
      · exact levelOk_append hprice hL htotal
      · exact hok e (hpost e he)
    · rw [hM, ordersOf_append, ordersOf_cons]
      exact ordersOf_append_level hcut (fun e he => hok e (hpre e he))
        (fun e he => hok e (hpost e he)) hL
  rcases hm with ⟨rfl, rfl⟩ | ⟨v, rfl, rfl⟩
  · obtain ⟨hspre, hspost, -⟩ := List.pairwise_append.mp hs
    refine ⟨[], 0, by simp, rfl, ?_, ?_, ?_, hspre, hspost, rfl⟩
    · rw [ordersOf_append, List.nil_append]
    · exact fun e he => List.mem_append_left _ he
    · exact fun e he => List.mem_append_right _ he
  · obtain ⟨hspre, hspost, -⟩ := List.pairwise_append.mp hs
    have hv := hok (o.price, v) (by simp)
    refine ⟨v.orders, v.totalQuantity, hv.price, hv.total, ?_, ?_, ?_, hspre, ?_, rfl⟩
    · rw [ordersOf_append, ordersOf_cons]
    · exact fun e he => List.mem_append_left _ he
    · exact fun e he => List.mem_append_right _ (List.mem_cons_of_mem _ he)
    · exact (List.pairwise_cons.mp hspost).2

/-! ### Submission -/

/-- `r` is what submitting `o`, which carries its new id, does to the price-time-priority book. -/
structure Submitted (b : OrderBookLegacy) (o : Order) (r : Processed) : Prop where
  inv : Inv r.book
  counter : r.book.orderIdCounter = b.orderIdCounter + 1
  listener : r.book.tradeListener = b.tradeListener
  resting : r.book.resting = b.resting.submit o
  order : r.order = { o with quantity := b.resting.placed o }
  rejected : r.rejectedQty = b.resting.rejected o
  fills : r.fills = b.resting.fills o
  notified : r.notified = if b.tradeListener then r.fills else []

lemma Inv.ids_nodup (h : Inv b) (s : Bool) : ((ordersOf (b.half s)).map Order.id).Nodup := by
  have hids := (Book.ids_iff b.resting s).mpr h.valid.ids
  rw [List.map_append] at hids
  exact (List.nodup_append.mp hids).1

lemma Inv.ids_disjoint (h : Inv b) (hr : r ∈ b.resting s) :
    r.id ∉ (b.resting (!s)).map Order.id := by
  have hids := (Book.ids_iff b.resting s).mpr h.valid.ids
  rw [List.map_append] at hids
  exact fun hmem => (List.nodup_append.mp hids).2.2 _ (List.mem_map_of_mem hr) _ hmem rfl

/-- Matching against the opposite side. -/
lemma Inv.matchLevels (h : Inv b) (o : Order) :
    ∃ M' s', matchLevels o.side b.tradeListener (b.half (!o.side)) ⟨b.locations, o, [], []⟩
        = (M', s', b.resting.rejected o) ∧
      s'.incoming = { o with quantity := b.resting.placed o } ∧
      ServedLevels o.side b.tradeListener ⟨b.locations, o, [], []⟩ s' (b.half (!o.side)) M' := by
  obtain ⟨M', s', rej, hrun, hserved, hres⟩ := @matchLevels_spec o.side b.tradeListener
    ⟨b.locations, o, [], []⟩ (b.half (!o.side)) (h.sorted _) (h.ok _)
    h.valid.pos (h.ids_nodup _)
  have hres : (rej, s'.incoming)
      = (b.resting.rejected o, { o with quantity := b.resting.placed o }) :=
    hres.trans (result_crossing b.resting o)
  obtain ⟨rfl, hin⟩ := Prod.mk.inj hres
  exact ⟨M', s', hrun, hin, hserved⟩

/-- The index still names every order that was not consumed, and no other one. -/
lemma Inv.matched_locations (h : Inv b) {s' : MatchState}
    (hserved : ServedLevels o.side b.tradeListener ⟨b.locations, o, [], []⟩ s' (b.half (!o.side))
      M') :
    (∀ r ∈ b.resting o.side, s'.locations r.id = some ⟨o.side, r.price, r.id⟩) ∧
    (∀ r ∈ ordersOf M', s'.locations r.id = some ⟨!o.side, r.price, r.id⟩) ∧
    ∀ id loc, s'.locations id = some loc →
      (∃ r ∈ b.resting o.side, r.id = id) ∨ ∃ r ∈ ordersOf M', r.id = id := by
  have herased := hserved.locations
  have hpos : ∀ a ∈ b.resting (!o.side), 0 < a.quantity := h.valid.pos
  refine ⟨?_, ?_, ?_⟩
  · intro r hr
    rw [herased r.id, if_neg fun e => h.ids_disjoint hr e.1]
    exact h.located _ r hr
  · intro r hr
    have hmem : r.id ∈ (ordersOf M').map Order.id := List.mem_map_of_mem hr
    rw [herased r.id, if_neg fun e => e.2 hmem]
    rw [hserved.orders] at hr
    obtain ⟨a, ha, q, -, rfl⟩ := Book.mem_remaining (B := b.resting) (o := o) hpos hr
    exact h.located _ a ha
  · intro id loc hloc
    rw [herased id] at hloc
    split_ifs at hloc with hgone
    obtain ⟨s, r, hr, rfl⟩ := h.found id loc hloc
    by_cases hs : s = o.side
    · subst hs
      exact Or.inl ⟨r, hr, rfl⟩
    · rw [Bool.eq_not_of_ne hs] at hr
      rw [not_and_not_right] at hgone
      obtain ⟨x, hx, hxid⟩ := List.mem_map.mp (hgone (List.mem_map_of_mem hr))
      exact Or.inr ⟨x, hx, hxid⟩

/-- The book between matching `o`, which left `M'` on the opposite side, and resting it. -/
structure Matched (b : OrderBookLegacy) (o : Order) (s' : MatchState) (M' : Levels)
    (b₁ : OrderBookLegacy) : Prop where
  half : ∀ s, b₁.half s = if s = !o.side then M' else b.half s
  locations : b₁.locations = s'.locations
  counter : b₁.orderIdCounter = b.orderIdCounter + 1
  listener : b₁.tradeListener = b.tradeListener

lemma Matched.half_own {s' : MatchState} {b₁ : OrderBookLegacy} (h : Matched b o s' M' b₁) :
    b₁.half o.side = b.half o.side := by
  simp [h.half]

lemma Matched.half_opposite {s' : MatchState} {b₁ : OrderBookLegacy} (h : Matched b o s' M' b₁) :
    b₁.half (!o.side) = M' := by
  rw [h.half, if_pos rfl]

/-- The book after `o` came to rest, or did not. -/
structure Rested (b : OrderBookLegacy) (o : Order) (M' : Levels) (b₂ : OrderBookLegacy) :
    Prop where
  counter : b₂.orderIdCounter = b.orderIdCounter + 1
  listener : b₂.tradeListener = b.tradeListener
  opposite : b₂.half (!o.side) = M'
  sorted : SortedMap.Sorted (Scan.Before o.side) (b₂.half o.side)
  ok : ∀ e ∈ b₂.half o.side, LevelOk e
  own : b₂.resting o.side = b.resting.submit o o.side
  located : ∀ r ∈ b₂.resting o.side, b₂.locations r.id = some ⟨o.side, r.price, r.id⟩
  left : ∀ r ∈ ordersOf M', b₂.locations r.id = some ⟨!o.side, r.price, r.id⟩
  found : ∀ id loc, b₂.locations id = some loc →
    (∃ r ∈ b₂.resting o.side, r.id = id) ∨ ∃ r ∈ ordersOf M', r.id = id

/-- An order of which nothing is placed stays out of the book. -/
lemma Matched.rested_of_gone (h : Inv b) {s' : MatchState} {b₁ : OrderBookLegacy}
    (hmatched : Matched b o s' M' b₁)
    (hserved : ServedLevels o.side b.tradeListener ⟨b.locations, o, [], []⟩ s' (b.half (!o.side))
      M') (hplaced : b.resting.placed o = 0) : Rested b o M' b₁ := by
  obtain ⟨hown, hleft, hfound⟩ := h.matched_locations hserved
  have hown₁ : b₁.resting o.side = b.resting o.side := by
    rw [OrderBookLegacy.resting, hmatched.half_own, OrderBookLegacy.resting]
  refine ⟨hmatched.counter, hmatched.listener, hmatched.half_opposite, ?_, ?_, ?_, ?_, ?_, ?_⟩
  · rw [hmatched.half_own]
    exact h.sorted _
  · rw [hmatched.half_own]
    exact h.ok _
  · rw [hown₁, Book.submit_same, if_pos hplaced]
  · rw [hown₁, hmatched.locations]
    exact hown
  · rw [hmatched.locations]
    exact hleft
  · rw [hown₁, hmatched.locations]
    exact hfound

/-- The id of a new order is in no entry of the index. -/
lemma Inv.id_ne (h : Inv b) (hid : o.id = b.orderIdCounter + 1) (hr : r ∈ b.resting s) :
    r.id ≠ o.id := by
  rw [hid]
  exact (Nat.lt_succ_of_le (h.ids s r hr)).ne

/-- What is placed is added behind its level, under its new id. -/
lemma Matched.rested_of_added (h : Inv b) {s' : MatchState} {b₁ : OrderBookLegacy}
    (hmatched : Matched b o s' M' b₁)
    (hserved : ServedLevels o.side b.tradeListener ⟨b.locations, o, [], []⟩ s' (b.half (!o.side))
      M') (hin : s'.incoming = { o with quantity := b.resting.placed o })
    (hid : o.id = b.orderIdCounter + 1) (hprice : o.price < maxPrice)
    (hplaced : b.resting.placed o ≠ 0) : Rested b o M' (addOrder o.side b₁ s'.incoming) := by
  obtain ⟨hown, hleft, hfound⟩ := h.matched_locations hserved
  have hinid : s'.incoming.id = o.id := by rw [hin]
  have hinprice : s'.incoming.price < maxPrice := by rw [hin]; exact hprice
  have hinside : s'.incoming.side = o.side := by rw [hin]
  generalize hlv : SortedMap.modify (Scan.Before o.side) ({} : PriceLevel) s'.incoming.price
    (fun level => ⟨level.orders ++ [s'.incoming],
      add32 level.totalQuantity s'.incoming.quantity⟩) (b.half o.side) = levels
  obtain ⟨hsort, hok, horders⟩ := modify_levels (h.sorted o.side) (h.ok _) hinprice hlv
  have hadd : addOrder o.side b₁ s'.incoming = { b₁.setHalf o.side levels with
      locations := Function.update s'.locations o.id
        (some ⟨o.side, s'.incoming.price, o.id⟩) } := by
    rw [addOrder, hmatched.half_own, hlv, hmatched.locations, hinid, hinside]
  have hhalf : ∀ f : Nat → Option Location,
      ({ b₁.setHalf o.side levels with locations := f } : OrderBookLegacy).half o.side
        = levels := by
    intro f
    rw [half_locations, half_setHalf, if_pos rfl]
  -- the order is new, so no other entry of the index changes
  have hnew : ∀ r ∈ b.resting o.side, r.id ≠ o.id := fun r hr => h.id_ne hid hr
  have hnew' : ∀ r ∈ ordersOf M', r.id ≠ o.id := by
    intro r hr
    rw [hserved.orders] at hr
    obtain ⟨a, ha, q, -, rfl⟩ := Book.mem_remaining (B := b.resting) (o := o)
      h.valid.pos hr
    have hne : a.id ≠ o.id := h.id_ne hid ha
    exact hne
  rw [hadd]
  refine ⟨by simp [hmatched.counter], by simp [hmatched.listener], ?_, ?_, ?_, ?_, ?_, ?_, ?_⟩
  · rw [half_locations, half_setHalf, if_neg (by simp), hmatched.half_opposite]
  · rw [hhalf]
    exact hsort
  · rw [hhalf]
    exact hok
  · rw [OrderBookLegacy.resting, hhalf, horders, Book.submit_same, if_neg hplaced, hin]
    rfl
  · intro r hr
    rw [OrderBookLegacy.resting, hhalf, horders] at hr
    rcases Book.mem_insert.mp hr with rfl | hr
    · rw [hinid]
      exact Function.update_self _ _ _
    · exact (Function.update_of_ne (hnew r hr) _ _).trans (hown r hr)
  · intro r hr
    exact (Function.update_of_ne (hnew' r hr) _ _).trans (hleft r hr)
  · intro id loc hloc
    rw [OrderBookLegacy.resting, hhalf, horders]
    by_cases hne : id = o.id
    · exact Or.inl ⟨_, Book.mem_insert.mpr (Or.inl rfl), hinid.trans hne.symm⟩
    · have hloc := (Function.update_of_ne hne _ _).symm.trans hloc
      rcases hfound id loc hloc with ⟨r, hr, hrid⟩ | hright
      · exact Or.inl ⟨r, Book.mem_insert.mpr (Or.inr hr), hrid⟩
      · exact Or.inr hright

lemma Rested.resting {b₂ : OrderBookLegacy} (hrested : Rested b o M' b₂)
    (hM' : ordersOf M' = b.resting.remaining o) : b₂.resting = b.resting.submit o := by
  funext s
  by_cases hs : s = o.side
  · rw [hs]
    exact hrested.own
  · rw [Bool.eq_not_of_ne hs, Book.submit_opposite, OrderBookLegacy.resting, hrested.opposite,
      hM']

/-- The invariant holds again. -/
lemma Rested.inv (h : Inv b) {s' : MatchState} {b₂ : OrderBookLegacy} (hrested : Rested b o M' b₂)
    (hserved : ServedLevels o.side b.tradeListener ⟨b.locations, o, [], []⟩ s' (b.half (!o.side))
      M') (hid : o.id = b.orderIdCounter + 1) (hprice : o.price < maxPrice) : Inv b₂ := by
  have hresting := hrested.resting hserved.orders
  have hleft : b₂.resting (!o.side) = ordersOf M' := by
    rw [OrderBookLegacy.resting, hrested.opposite]
  have hside : ∀ s, s = o.side ∨ s = !o.side := fun s =>
    or_iff_not_imp_left.mpr Bool.eq_not_of_ne
  have hvalid := h.valid.submit hprice fun s r hr => by
    rw [hid]
    exact Nat.lt_succ_of_le (h.ids s r hr)
  refine ⟨?_, ?_, ?_, ?_, ?_, hresting ▸ hvalid⟩
  · intro s
    rcases hside s with rfl | rfl
    · exact hrested.sorted
    · have hs := h.sorted (!o.side)
      rw [hrested.opposite, SortedMap.Sorted, ← List.pairwise_map]
      rw [SortedMap.Sorted, ← List.pairwise_map] at hs
      exact hs.sublist hserved.keys.sublist
  · intro s
    rcases hside s with rfl | rfl
    · exact hrested.ok
    · rw [hrested.opposite]
      exact hserved.ok
  · intro s r hr
    rcases hside s with rfl | rfl
    · exact hrested.located r hr
    · exact hrested.left r (hleft ▸ hr)
  · intro id loc hloc
    rcases hrested.found id loc hloc with ⟨r, hr, hrid⟩ | ⟨r, hr, hrid⟩
    · exact ⟨_, r, hr, hrid⟩
    · exact ⟨_, r, hleft ▸ hr, hrid⟩
  · intro s r hr
    rw [hrested.counter, ← hid]
    rw [hresting] at hr
    rcases Book.mem_submit h.valid.pos hr with
      ⟨-, rfl⟩ | ⟨a, ha, q, rfl⟩
    · exact le_rfl
    · rw [hid]
      exact Nat.le_succ_of_le (h.ids s a ha)

/-- **A submission** does to the listed orders what `Book.submit` does. -/
theorem processOrder_spec (h : Inv b) (hcan : canProcessOrder b o = true)
    (hcounter : b.orderIdCounter + 1 < 2 ^ 64) :
    Submitted b { o with id := b.orderIdCounter + 1 } (processOrder o.side b o) := by
  have hprice : o.price < maxPrice := of_decide_eq_true hcan
  generalize ho : { o with id := b.orderIdCounter + 1 } = o'
  have hoid : o'.id = b.orderIdCounter + 1 := by rw [← ho]
  have hoprice : o'.price < maxPrice := by rw [← ho]; exact hprice
  have hoside : o.side = o'.side := by rw [← ho]
  obtain ⟨M', s', hrun, hin, hserved⟩ := h.matchLevels o'
  generalize hb₁ : { ({ b with orderIdCounter := b.orderIdCounter + 1 } :
    OrderBookLegacy).setHalf (!o'.side) M' with locations := s'.locations } = b₁
  have hmatched : Matched b o' s' M' b₁ := by
    subst hb₁
    refine ⟨fun s => ?_, rfl, by simp, by simp⟩
    rw [half_locations, half_setHalf]
    rfl
  have hprocess : processOrder o.side b o
      = ⟨if 0 < s'.incoming.quantity then addOrder o'.side b₁ s'.incoming else b₁,
        s'.incoming, b.resting.rejected o', s'.fills, s'.notified⟩ := by
    have hcounter' : (b.orderIdCounter + 1) % 2 ^ 64 = b.orderIdCounter + 1 :=
      Nat.mod_eq_of_lt hcounter
    have hmatch : matchOrder o'.side ({ b with orderIdCounter := b.orderIdCounter + 1 }) o'
        = (b₁, s', b.resting.rejected o') := by
      simp only [matchOrder, half_mk, hrun]
      rw [hb₁]
    rw [processOrder, hcounter', ho, hoside, hmatch]
  have hrested : Rested b o' M' (processOrder o.side b o).book := by
    rw [hprocess]
    simp only
    by_cases hplaced : b.resting.placed o' = 0
    · rw [if_neg (by simp [hin, hplaced])]
      exact hmatched.rested_of_gone h hserved hplaced
    · have hpos : 0 < s'.incoming.quantity := by
        rw [hin]
        exact Nat.pos_of_ne_zero hplaced
      rw [if_pos hpos]
      exact hmatched.rested_of_added h hserved hin hoid hoprice hplaced
  refine ⟨hrested.inv h hserved hoid hoprice, hrested.counter, hrested.listener,
    hrested.resting hserved.orders, ?_, ?_, ?_, ?_⟩
  · rw [hprocess]
    exact hin
  · rw [hprocess]
  · rw [hprocess]
    exact hserved.fills
  · rw [hprocess]
    exact hserved.notified.trans (by rw [hserved.fills]; rfl)

end OrderBookLegacy

end ExchangeEngine
