import ExchangeEngine.OrderBookLegacy.Process

/-!
# Cancelling an order of `OrderBookLegacy`

The location index finds exactly the resting orders, so cancelling is `Book.cancel`.
-/

namespace ExchangeEngine

namespace OrderBookLegacy

variable {b b' : OrderBookLegacy} {side s : Bool} {o r : Order} {M M' pre post : Levels}
  {id : Nat} {userId : Int} {l l₁ l₂ : List Order} {level : PriceLevel}

/-! ### The node a location names -/

lemma id_ne_of_nodup (h : ((l₁ ++ r :: l₂).map Order.id).Nodup) :
    (∀ x ∈ l₁, x.id ≠ r.id) ∧ ∀ x ∈ l₂, x.id ≠ r.id := by
  rw [List.map_append, List.map_cons, List.nodup_middle, List.nodup_cons] at h
  refine ⟨?_, ?_⟩
  · intro x hx e
    exact h.1 (List.mem_append_left _ (e ▸ List.mem_map_of_mem hx))
  · intro x hx e
    exact h.1 (List.mem_append_right _ (e ▸ List.mem_map_of_mem hx))

lemma find?_id (h : ((l₁ ++ r :: l₂).map Order.id).Nodup) :
    (l₁ ++ r :: l₂).find? (fun o => decide (o.id = r.id)) = some r := by
  have hnone : l₁.find? (fun o => decide (o.id = r.id)) = none := by
    rw [List.find?_eq_none]
    intro x hx
    simpa using (id_ne_of_nodup h).1 x hx
  rw [List.find?_append, hnone, Option.none_or, List.find?_cons_of_pos (by simp)]

lemma eraseP_id (h : ((l₁ ++ r :: l₂).map Order.id).Nodup) :
    (l₁ ++ r :: l₂).eraseP (fun o => decide (o.id = r.id)) = l₁ ++ l₂ := by
  rw [List.eraseP_append_right _ fun x hx => by simpa using (id_ne_of_nodup h).1 x hx,
    List.eraseP_cons_of_pos (by simp)]

lemma filter_id (h : ((l₁ ++ r :: l₂).map Order.id).Nodup) :
    (l₁ ++ r :: l₂).filter (fun o => decide (o.id ≠ r.id)) = l₁ ++ l₂ := by
  obtain ⟨h₁, h₂⟩ := id_ne_of_nodup h
  have hkeep : ∀ l : List Order, (∀ x ∈ l, x.id ≠ r.id) →
      l.filter (fun o => decide (o.id ≠ r.id)) = l := by
    intro l hl
    rw [List.filter_eq_self]
    exact fun x hx => decide_eq_true (hl x hx)
  rw [List.filter_append, List.filter_cons_of_neg (by simp), hkeep l₁ h₁, hkeep l₂ h₂]

/-- Where a resting order is. -/
structure At (b : OrderBookLegacy) (s : Bool) (r : Order) (pre post : Levels) (level : PriceLevel)
    (l₁ l₂ : List Order) : Prop where
  half : b.half s = pre ++ (r.price, level) :: post
  cut : SortedMap.Cut (Scan.Before s) r.price pre post
  orders : level.orders = l₁ ++ r :: l₂
  nodup : ((l₁ ++ r :: l₂).map Order.id).Nodup
  find : SortedMap.find r.price (b.half s) = some level

lemma Inv.at (h : Inv b) (hr : r ∈ b.resting s) :
    ∃ pre post level l₁ l₂, At b s r pre post level l₁ l₂ := by
  obtain ⟨⟨p, level⟩, he, hmem, hprice⟩ := ordersOf_price (h.ok s) hr
  have hprice : p = r.price := hprice.symm
  subst hprice
  obtain ⟨pre, post, hhalf⟩ := List.append_of_mem he
  obtain ⟨l₁, l₂, horders⟩ := List.append_of_mem hmem
  have hsort := h.sorted s
  rw [hhalf] at hsort
  have hnd := h.ids_nodup s
  rw [hhalf, ordersOf_append, ordersOf_cons, List.map_append, List.map_append] at hnd
  have hnd := (List.nodup_append.mp (List.nodup_append.mp hnd).2.1).1
  refine ⟨pre, post, level, l₁, l₂, hhalf, SortedMap.cut_of_sorted hsort, horders, ?_, ?_⟩
  · rw [← horders]
    exact hnd
  · rw [SortedMap.find_eq_some_iff (h.sorted s) (Scan.Before.irrefl s)]
    exact he

lemma At.deref (ha : At b s r pre post level l₁ l₂) :
    b.deref ⟨s, r.price, r.id⟩ = some r := by
  simp only [OrderBookLegacy.deref, ha.find, Option.bind_eq_bind, Option.bind_some, ha.orders,
    find?_id ha.nodup]

/-- `erase_from_book` takes the order out of its level, and the level out of the map when it was
the only one there. -/
lemma At.erase (ha : At b s r pre post level l₁ l₂) :
    b.eraseFromBook ⟨s, r.price, r.id⟩ r = b.setHalf s (pre ++
      (if l₁ ++ l₂ = [] then []
        else [(r.price, ⟨l₁ ++ l₂, sub32 level.totalQuantity r.quantity⟩)]) ++ post) := by
  simp only [eraseFromBook, ha.find, ha.orders, eraseP_id ha.nodup]
  by_cases hnil : l₁ ++ l₂ = []
  · rw [if_pos (by simp [hnil]), if_pos hnil, ha.half,
      SortedMap.erase_split ha.cut (Scan.Before.irrefl s), List.append_nil]
  · rw [if_neg (by simpa using hnil), if_neg hnil, ha.half,
      SortedMap.modify_of_split ha.cut (Scan.Before.irrefl s) fun _ _ h => h.asymm,
      List.append_assoc, List.singleton_append]

/-! ### Cancellation -/

/-- `b'` is what cancelling does to the price-time-priority book. -/
structure Cancelled (b : OrderBookLegacy) (id : Nat) (userId : Int) (b' : OrderBookLegacy) :
    Prop where
  inv : Inv b'
  counter : b'.orderIdCounter = b.orderIdCounter
  listener : b'.tradeListener = b.tradeListener
  resting : b'.resting = (b.resting.cancel id userId).1

/-- The levels that are left after an order was erased. -/
lemma At.levels (ha : At b s r pre post level l₁ l₂) (h : Inv b)
    (hM' : pre ++ (if l₁ ++ l₂ = [] then []
      else [(r.price, ⟨l₁ ++ l₂, sub32 level.totalQuantity r.quantity⟩)]) ++ post = M') :
    SortedMap.Sorted (Scan.Before s) M' ∧ (∀ e ∈ M', LevelOk e) ∧
      ordersOf M' = b.resting.remove r.id s := by
  have hsort := h.sorted s
  have hok := h.ok s
  have hnd := h.ids_nodup s
  rw [ha.half] at hsort hok hnd
  obtain ⟨hspre, hspost, hcross⟩ := List.pairwise_append.mp hsort
  have hlevel := hok (r.price, level) (by simp)
  have hremove : b.resting.remove r.id s = ordersOf pre ++ ((l₁ ++ l₂) ++ ordersOf post) := by
    have hsplit : ordersOf (b.half s) = (ordersOf pre ++ l₁) ++ r :: (l₂ ++ ordersOf post) := by
      rw [ha.half, ordersOf_append, ordersOf_cons, ha.orders]
      simp
    have hnd' := h.ids_nodup s
    rw [hsplit] at hnd'
    rw [Book.remove, OrderBookLegacy.resting, hsplit, filter_id hnd']
    simp
  rw [hremove]
  by_cases hnil : l₁ ++ l₂ = []
  · rw [if_pos hnil, List.append_nil] at hM'
    subst hM'
    refine ⟨?_, ?_, ?_⟩
    · refine List.pairwise_append.mpr ⟨hspre, (List.pairwise_cons.mp hspost).2, ?_⟩
      exact fun e he e' he' => hcross e he e' (List.mem_cons_of_mem _ he')
    · intro e he
      apply hok e
      rcases List.mem_append.mp he with he | he <;> simp [he]
    · rw [hnil, List.nil_append, ordersOf_append]
  · rw [if_neg hnil, List.append_assoc, List.singleton_append] at hM'
    subst hM'
    refine ⟨?_, ?_, ?_⟩
    · exact ha.cut.sorted hspre (List.pairwise_cons.mp hspost).2 fun _ _ _ h h' => h.trans h'
    · intro e he
      rcases List.mem_append.mp he with he | he
      · exact hok e (List.mem_append_left _ he)
      rcases List.mem_cons.mp he with rfl | he
      · refine ⟨hlevel.lt, hnil, ?_, ?_⟩
        · have hle : r.quantity ≤ Consume.total Order.quantity level.orders := by
            rw [ha.orders, Consume.total_append, Consume.total_cons]
            omega
          rw [hlevel.total]
          simp only
          rw [sub32_mod hle, ha.orders, Consume.total_append, Consume.total_append,
            Consume.total_cons]
          congr 1
          omega
        · intro x hx
          apply hlevel.price x
          rw [ha.orders]
          rcases List.mem_append.mp hx with hx | hx <;> simp [hx]
      · exact hok e (by simp [he])
    · rw [ordersOf_append, ordersOf_cons]

/-- What `cancel_order` leaves: the levels `M'` on the side of the order, and an index without its
id. -/
def erased (b : OrderBookLegacy) (s : Bool) (M' : Levels) (id : Nat) : OrderBookLegacy :=
  { b.setHalf s M' with locations := Function.update b.locations id none }

lemma half_erased (b : OrderBookLegacy) (s : Bool) (M' : Levels) (id : Nat) (t : Bool) :
    (b.erased s M' id).half t = if t = s then M' else b.half t := by
  rw [erased, half_locations, half_setHalf]

lemma locations_erased (b : OrderBookLegacy) (s : Bool) (M' : Levels) (id : Nat) :
    (b.erased s M' id).locations = Function.update b.locations id none := rfl

/-- Nothing but the order is gone. -/
lemma Inv.resting_erased (h : Inv b) (hr : r ∈ b.resting s)
    (horders : ordersOf M' = b.resting.remove r.id s) :
    (b.erased s M' r.id).resting = b.resting.remove r.id := by
  funext t
  rw [OrderBookLegacy.resting, half_erased]
  split_ifs with hts
  · rw [hts, horders]
  · refine (List.filter_eq_self.mpr ?_).symm
    intro x hx
    apply decide_eq_true
    intro hid
    have hx' := (h.valid.order t x hx).1
    rw [h.valid.eq_of_id hx hr hid, (h.valid.order s r hr).1] at hx'
    exact hts hx'.symm

lemma Inv.erased (h : Inv b) (hr : r ∈ b.resting s)
    (hsort : SortedMap.Sorted (Scan.Before s) M') (hok : ∀ e ∈ M', LevelOk e)
    (horders : ordersOf M' = b.resting.remove r.id s) : Inv (b.erased s M' r.id) := by
  have hresting := h.resting_erased hr horders
  have hkeep : ∀ t, ∀ x ∈ b.resting.remove r.id t, x ∈ b.resting t ∧ x.id ≠ r.id := by
    intro t x hx
    obtain ⟨hx, hne⟩ := List.mem_filter.mp hx
    exact ⟨hx, of_decide_eq_true hne⟩
  refine ⟨?_, ?_, ?_, ?_, ?_, ?_⟩
  · intro t
    rw [half_erased]
    split_ifs with hts
    · rw [hts]
      exact hsort
    · exact h.sorted t
  · intro t
    rw [half_erased]
    split_ifs with hts
    · exact hok
    · exact h.ok t
  · intro t x hx
    obtain ⟨hx, hne⟩ := hkeep t x (hresting ▸ hx)
    rw [locations_erased, Function.update_of_ne hne]
    exact h.located t x hx
  · intro id loc hid
    rw [locations_erased] at hid
    by_cases hne : id = r.id
    · rw [hne, Function.update_self] at hid
      cases hid
    · rw [Function.update_of_ne hne] at hid
      obtain ⟨t, x, hx, rfl⟩ := h.found id loc hid
      refine ⟨t, x, ?_, rfl⟩
      rw [hresting]
      exact List.mem_filter.mpr ⟨hx, decide_eq_true hne⟩
  · intro t x hx
    rw [hresting] at hx
    have hle := h.ids t x (hkeep t x hx).1
    simpa [OrderBookLegacy.erased] using hle
  · rw [hresting]
    exact h.valid.remove r.id

/-- A call that finds no match returns false and leaves the book alone. -/
lemma Inv.cancel_miss (h : Inv b) {id : Nat} {userId : Int}
    (hrun : cancelOrder b id userId = some (b, none)) (hfind : b.resting.find id userId = none) :
    ∃ b', cancelOrder b id userId = some (b', b.resting.find id userId) ∧
      Cancelled b id userId b' := by
  refine ⟨b, by rw [hrun, hfind], h, rfl, rfl, ?_⟩
  rw [Book.cancel, hfind]

/-- **Cancellation is exact.** -/
theorem cancelOrder_spec (h : Inv b) (id : Nat) (userId : Int) :
    ∃ b', cancelOrder b id userId = some (b', b.resting.find id userId) ∧
      Cancelled b id userId b' := by
  cases hloc : b.locations id with
  | none =>
    apply h.cancel_miss
    · simp only [cancelOrder, hloc]
    · rw [Book.find_eq_none_iff]
      rintro s r hr ⟨rfl, -⟩
      rw [h.located s r hr] at hloc
      cases hloc
  | some loc =>
    obtain ⟨s, r, hr, rfl⟩ := h.found id loc hloc
    obtain ⟨pre, post, level, l₁, l₂, ha⟩ := h.at hr
    have hloc' := h.located s r hr
    rw [hloc] at hloc'
    obtain rfl := Option.some.inj hloc'
    by_cases huser : r.userId = userId
    swap
    · apply h.cancel_miss
      · simp only [cancelOrder, hloc, ha.deref, Option.bind_eq_bind, Option.bind_some, ne_eq,
          huser, not_false_eq_true, if_true]
      · rw [Book.find_eq_none_iff]
        rintro t x hx ⟨hid, hxuser⟩
        rw [h.valid.eq_of_id hx hr hid] at hxuser
        exact huser hxuser
    have hfind : b.resting.find r.id userId = some r := by
      rw [Book.find_eq_some_iff h.valid]
      exact ⟨⟨s, hr⟩, rfl, huser⟩
    have hcancel : (b.resting.cancel r.id userId).1 = b.resting.remove r.id := by
      rw [Book.cancel, hfind]
    generalize hM' : pre ++ (if l₁ ++ l₂ = [] then []
      else [(r.price, ⟨l₁ ++ l₂, sub32 level.totalQuantity r.quantity⟩)]) ++ post = M'
    obtain ⟨hsort, hok, horders⟩ := ha.levels h hM'
    have hrun : cancelOrder b r.id userId = some (b.erased s M' r.id, some r) := by
      simp only [cancelOrder, hloc, ha.deref, Option.bind_eq_bind, Option.bind_some, ne_eq,
        huser, not_true_eq_false, if_false, ha.erase, hM', locations_setHalf, erased]
    refine ⟨_, hrun.trans (by rw [hfind]), h.erased hr hsort hok horders, ?_, ?_, ?_⟩
    · simp [erased]
    · simp [erased]
    · exact (h.resting_erased hr horders).trans hcancel.symm

end OrderBookLegacy

end ExchangeEngine
