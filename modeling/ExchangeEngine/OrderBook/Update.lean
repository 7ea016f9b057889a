import ExchangeEngine.OrderBook.Invariant

/-!
# The list updates of `OrderBook`

Three things happen to the lists: a queued slot is unlinked and freed (a full fill, a
cancellation), a popped slot is linked behind the tail of its level (an order comes to rest), and
the order at a slot loses part of its quantity (a partial fill). For each, a structure says what
the code has changed, field by field, and one lemma derives that `Lists` is kept.
-/

namespace ExchangeEngine

namespace OrderBook

open LinkedList

variable {b b' : OrderBook} {ix : Slots} {held : List Nat} {s : Bool} {p i : Nat}
  {l₁ l₂ : List Nat}

/-! ### One level -/

/-- The slots `l` are queued at level `(s, p)`, which counts and totals them. -/
structure Queued (b : OrderBook) (s : Bool) (p : Nat) (l : List Nat) : Prop where
  linked : DList b.next b.prev nullIdx
    ((b.half s).levels p).headIdx ((b.half s).levels p).tailIdx l
  count : ((b.half s).levels p).orderCount = l.length
  total : ((b.half s).levels p).totalQuantity
    = Consume.total Order.quantity (l.map b.orderAt) % 2 ^ 32

lemma Lists.queued (h : Lists b ix held) (hp : p < maxPrice) : Queued b s p (ix s p) :=
  ⟨h.linked s p hp, h.count s p hp, h.total s p hp⟩

/-- A level stays as it is where nothing happens to it and to its slots. -/
lemma Queued.congr {l : List Nat} (h : Queued b s p l) (hn : ∀ j ∈ l, b'.next j = b.next j)
    (hp : ∀ j ∈ l, b'.prev j = b.prev j) (ho : ∀ j ∈ l, b'.orderAt j = b.orderAt j)
    (hlevel : (b'.half s).levels p = (b.half s).levels p) : Queued b' s p l where
  linked := by
    rw [hlevel]
    exact h.linked.congr hn hp
  count := by
    rw [hlevel]
    exact h.count
  total := by
    rw [hlevel, List.map_congr_left ho]
    exact h.total

/-- It is enough to look at the level that changed, and at the others as they were. -/
lemma queued_setAt {l : List Nat} (hsame : Queued b' s p l)
    (hother : ∀ s' p', p' < maxPrice → ¬ (s' = s ∧ p' = p) → Queued b' s' p' (ix s' p')) :
    ∀ s' p', p' < maxPrice → Queued b' s' p' (setAt ix s p l s' p') := by
  intro s' p' hp'
  by_cases e : s' = s ∧ p' = p
  · obtain ⟨rfl, rfl⟩ := e
    rwa [setAt_same]
  · rw [setAt_of_ne e]
    exact hother s' p' hp' e

/-! ### Unlinking a slot -/

/-- Slot `i` of level `(s, p)` was unlinked and pushed on the free stack. -/
structure Unlinked (b b' : OrderBook) (s : Bool) (p i : Nat) : Prop where
  next : ∀ j ≠ i, b'.next j
    = if j = b.prev i ∧ b.prev i ≠ nullIdx then b.next i else b.next j
  prev : ∀ j ≠ i, b'.prev j
    = if j = b.next i ∧ b.next i ≠ nullIdx then b.prev i else b.prev j
  order : ∀ j ≠ i, b'.orderAt j = b.orderAt j
  id : (b'.orderAt i).id = 0
  level : ∀ s' p', (b'.half s').levels p' = if s' = s ∧ p' = p then
    { headIdx := if b.prev i = nullIdx then b.next i else ((b.half s).levels p).headIdx
      tailIdx := if b.next i = nullIdx then b.prev i else ((b.half s).levels p).tailIdx
      totalQuantity := sub32 ((b.half s).levels p).totalQuantity (b.orderAt i).quantity
      orderCount := sub32 ((b.half s).levels p).orderCount 1 }
    else (b.half s').levels p'
  free : b'.freeIndices = i :: b.freeIndices
  counter : b'.orderIdCounter = b.orderIdCounter

/-- The neighbours of a slot are queued at its level. -/
lemma Lists.neighbour_mem (h : Lists b ix held) (hix : ix s p = l₁ ++ i :: l₂) :
    (b.prev i ≠ nullIdx → b.prev i ∈ l₁) ∧ (b.next i ≠ nullIdx → b.next i ∈ l₂) := by
  have hd := h.linked s p (h.slot s p i (by simp [hix])).1
  rw [hix] at hd
  exact hd.neighbour_mem

/-- The other slots of the level. -/
lemma Lists.ne_of_mem (h : Lists b ix held) (hix : ix s p = l₁ ++ i :: l₂) {j : Nat}
    (hj : j ∈ l₁ ++ l₂) : j ≠ i ∧ j ∈ ix s p := by
  have hnd := h.nodup s p
  rw [hix, List.nodup_middle, List.nodup_cons] at hnd
  refine ⟨fun e => hnd.1 (e ▸ hj), ?_⟩
  rw [hix]
  exact ((List.sublist_cons_self i l₂).append_left l₁).subset hj

/-- What is queued afterwards was queued at the same level before, and is not the slot. -/
lemma Lists.mem_unlinked (h : Lists b ix held) (hix : ix s p = l₁ ++ i :: l₂) {s' : Bool}
    {p' j : Nat} (hj : j ∈ setAt ix s p (l₁ ++ l₂) s' p') : j ≠ i ∧ j ∈ ix s' p' := by
  by_cases e : s' = s ∧ p' = p
  · obtain ⟨rfl, rfl⟩ := e
    rw [setAt_same] at hj
    exact h.ne_of_mem hix hj
  · rw [setAt_of_ne e] at hj
    refine ⟨?_, hj⟩
    rintro rfl
    exact e (h.level_unique hj (by simp [hix]))

/-- The level of the slot loses it. -/
lemma Queued.unlink (h : Queued b s p (l₁ ++ i :: l₂)) (hlen : (l₁ ++ i :: l₂).length ≤ maxOrders)
    (hu : Unlinked b b' s p i) : Queued b' s p (l₁ ++ l₂) := by
  have hnd := h.linked.nodup
  rw [List.nodup_middle, List.nodup_cons] at hnd
  have hne : ∀ j ∈ l₁ ++ l₂, j ≠ i := by
    rintro j hj rfl
    exact hnd.1 hj
  obtain ⟨hprev, hnext⟩ := h.linked.neighbour_mem
  have hlevel := hu.level s p
  rw [if_pos ⟨rfl, rfl⟩] at hlevel
  refine ⟨?_, ?_, ?_⟩
  · rw [hlevel]
    apply h.linked.unlink
    · intro hn
      rw [hu.next _ (hne _ (List.mem_append_left _ (hprev hn))), if_pos ⟨rfl, hn⟩]
    · intro hn
      rw [hu.prev _ (hne _ (List.mem_append_right _ (hnext hn))), if_pos ⟨rfl, hn⟩]
    · intro j hj hjn
      rw [hu.next j (hne j hj), if_neg fun e => hjn e.1]
    · intro j hj hjn
      rw [hu.prev j (hne j hj), if_neg fun e => hjn e.1]
  · rw [hlevel, h.count]
    simp only [sub32, List.length_append, List.length_cons, maxOrders] at hlen ⊢
    omega
  · rw [List.map_congr_left fun j hj => hu.order j (hne j hj), hlevel, h.total, sub32_mod]
    · simp only [List.map_append, List.map_cons, Consume.total_append, Consume.total_cons]
      omega
    · simp only [List.map_append, List.map_cons, Consume.total_append, Consume.total_cons]
      omega

/-- The other levels do not lose anything. -/
lemma Lists.queued_unlinked (h : Lists b ix held) (hix : ix s p = l₁ ++ i :: l₂)
    (hu : Unlinked b b' s p i) {s' : Bool} {p' : Nat} (hp' : p' < maxPrice)
    (e : ¬ (s' = s ∧ p' = p)) : Queued b' s' p' (ix s' p') := by
  obtain ⟨hprev, hnext⟩ := h.neighbour_mem hix
  have hne : ∀ j ∈ ix s' p', j ≠ i := by
    rintro j hj rfl
    exact e (h.level_unique hj (by simp [hix]))
  refine (h.queued hp').congr ?_ ?_ (fun j hj => hu.order j (hne j hj)) ?_
  · intro j hj
    rw [hu.next j (hne j hj), if_neg]
    rintro ⟨rfl, hn⟩
    exact e (h.level_unique hj (h.ne_of_mem hix (List.mem_append_left _ (hprev hn))).2)
  · intro j hj
    rw [hu.prev j (hne j hj), if_neg]
    rintro ⟨rfl, hn⟩
    exact e (h.level_unique hj (h.ne_of_mem hix (List.mem_append_right _ (hnext hn))).2)
  · rw [hu.level, if_neg e]

lemma Lists.unlink (h : Lists b ix held) (hix : ix s p = l₁ ++ i :: l₂)
    (hu : Unlinked b b' s p i) : Lists b' (setAt ix s p (l₁ ++ l₂)) held := by
  have hmem : i ∈ ix s p := by simp [hix]
  obtain ⟨hp, hi⟩ := h.slot s p i hmem
  have hsame := h.queued (s := s) hp
  have hlen := h.length_le s p
  rw [hix] at hsame hlen
  have hqueued := queued_setAt (hsame.unlink hlen hu) fun s' p' => h.queued_unlinked hix hu
  refine ⟨fun s' p' hp' => (hqueued s' p' hp').linked, fun s' p' hp' => (hqueued s' p' hp').count,
    fun s' p' hp' => (hqueued s' p' hp').total, ?_, ?_, ?_, ?_, ?_, ?_⟩
  · intro s' p' j hj
    exact h.slot s' p' j (h.mem_unlinked hix hj).2
  · intro s' p' j hj
    obtain ⟨hji, hj⟩ := h.mem_unlinked hix hj
    rw [hu.order j hji]
    exact h.order s' p' j hj
  · intro s' p' j hj
    obtain ⟨hji, hj⟩ := h.mem_unlinked hix hj
    rw [hu.order j hji, hu.counter]
    exact h.id s' p' j hj
  · rw [hu.free, List.nodup_middle, List.nodup_cons]
    exact ⟨h.not_free hmem, h.free_nodup⟩
  · intro j hj
    by_cases e : j = i
    · subst e
      exact ⟨hi, hu.id⟩
    · rw [hu.order j e]
      rw [hu.free] at hj
      apply h.free j
      simpa [e] using hj
  · intro j hj
    rw [hu.free]
    by_cases e : j = i
    · exact Or.inl (by simp [e])
    · rcases h.cover j hj with hf | ⟨s', p', hjx⟩
      · left
        rcases List.mem_append.mp hf with hf | hf <;> simp [hf]
      · right
        refine ⟨s', p', ?_⟩
        by_cases e' : s' = s ∧ p' = p
        · obtain ⟨rfl, rfl⟩ := e'
          rw [setAt_same]
          simpa [hix, e] using hjx
        · rwa [setAt_of_ne e']

lemma Unlinked.ordersOf_eq (hu : Unlinked b b' s p i) (h : Lists b ix held)
    (hix : ix s p = l₁ ++ i :: l₂) : ordersOf b' (setAt ix s p (l₁ ++ l₂))
      = setAt (ordersOf b ix) s p ((l₁ ++ l₂).map b.orderAt) := by
  have hmap : ∀ s' p', (setAt ix s p (l₁ ++ l₂) s' p').map b'.orderAt
      = (setAt ix s p (l₁ ++ l₂) s' p').map b.orderAt := by
    intro s' p'
    exact List.map_congr_left fun j hj => hu.order j (h.mem_unlinked hix hj).1
  funext s' p'
  rw [ordersOf, hmap]
  by_cases e : s' = s ∧ p' = p
  · obtain ⟨rfl, rfl⟩ := e
    rw [setAt_same, setAt_same]
  · rw [setAt_of_ne e, setAt_of_ne e]
    rfl

/-! ### Linking a slot behind the tail -/

/-- The popped slot `i` was filled with the order `o` and linked at the back of its level. -/
structure Linked (b b' : OrderBook) (s : Bool) (i : Nat) (o : Order) : Prop where
  next : ∀ j ≠ i, b'.next j = if j = ((b.half s).levels o.price).tailIdx ∧
    ((b.half s).levels o.price).tailIdx ≠ nullIdx then i else b.next j
  prev : ∀ j ≠ i, b'.prev j = b.prev j
  next_self : b'.next i = nullIdx
  prev_self : b'.prev i = ((b.half s).levels o.price).tailIdx
  order : ∀ j, b'.orderAt j = if j = i then o else b.orderAt j
  level : ∀ s' p', (b'.half s').levels p' = if s' = s ∧ p' = o.price then
    { headIdx := if ((b.half s).levels o.price).tailIdx = nullIdx then i
        else ((b.half s).levels o.price).headIdx
      tailIdx := i
      totalQuantity := add32 ((b.half s).levels o.price).totalQuantity o.quantity
      orderCount := add32 ((b.half s).levels o.price).orderCount 1 }
    else (b.half s').levels p'
  free : b'.freeIndices = b.freeIndices
  counter : b'.orderIdCounter = b.orderIdCounter

/-- The slots that were queued before hold the same orders. -/
lemma Linked.order_eq {o : Order} (hl : Linked b b' s i o) (h : Lists b ix [i]) {s' : Bool}
    {p' j : Nat} (hj : j ∈ ix s' p') : j ≠ i ∧ b'.orderAt j = b.orderAt j := by
  have hji : j ≠ i := by
    rintro rfl
    exact h.not_free hj (by simp)
  rw [hl.order, if_neg hji]
  exact ⟨hji, rfl⟩

/-- The tail of a level is queued there and nowhere else. -/
lemma Lists.eq_of_tail (h : Lists b ix held) (hp : p < maxPrice) {s' : Bool} {p' j : Nat}
    (hj : j ∈ ix s' p') (e : j = ((b.half s).levels p).tailIdx) : s' = s ∧ p' = p := by
  have hd := h.linked s p hp
  have hne : ix s p ≠ [] := by
    intro hnil
    rw [hd.tail_eq_null_iff.mpr hnil] at e
    have hlt := (h.slot s' p' j hj).2
    simp only [maxOrders, nullIdx] at hlt e
    omega
  rw [hd.tail_eq] at e
  exact h.level_unique hj (e ▸ getLastD_mem_of_ne_nil hne)

/-- The level of the order gains the slot. -/
lemma Lists.queued_link {o : Order} (h : Lists b ix [i]) (hl : Linked b b' s i o)
    (hprice : o.price < maxPrice) : Queued b' s o.price (ix s o.price ++ [i]) := by
  have hi := (h.free i (by simp)).1
  have hnull : i ≠ nullIdx := by
    simp only [maxOrders, nullIdx] at hi ⊢
    omega
  have hd := h.linked s o.price hprice
  have hout : ∀ j ∈ ix s o.price, j ≠ i := fun j hj => (hl.order_eq h hj).1
  have hlevel := hl.level s o.price
  rw [if_pos ⟨rfl, rfl⟩] at hlevel
  refine ⟨?_, ?_, ?_⟩
  · rw [hlevel]
    by_cases hnil : ix s o.price = []
    · have ht := hd.tail_eq_null_iff.mpr hnil
      rw [if_pos ht, hnil, List.nil_append]
      exact DList.singleton hnull hl.next_self (hl.prev_self.trans ht)
    · have ht : ((b.half s).levels o.price).tailIdx ≠ nullIdx := fun e =>
        hnil (hd.tail_eq_null_iff.mp e)
      have hmem := getLastD_mem_of_ne_nil (p := nullIdx) hnil
      rw [← hd.tail_eq] at hmem
      rw [if_neg ht]
      apply hd.pushBack hnil hnull (fun hmem => hout i hmem rfl) _ hl.next_self hl.prev_self
      · intro j hj hjt
        rw [hl.next j (hout j hj), if_neg fun e => hjt e.1]
      · intro j hj
        exact hl.prev j (hout j hj)
      · rw [hl.next _ (hout _ hmem), if_pos ⟨rfl, ht⟩]
  · have hlen := h.length_le s o.price
    rw [hlevel, h.count s o.price hprice]
    simp only [add32, List.length_append, List.length_singleton, maxOrders] at hlen ⊢
    omega
  · rw [hlevel, h.total s o.price hprice, add32_mod, List.map_append,
      List.map_congr_left fun j hj => (hl.order_eq h hj).2, Consume.total_append]
    simp [hl.order]

/-- The other levels do not gain anything. -/
lemma Lists.queued_linked {o : Order} (h : Lists b ix [i]) (hl : Linked b b' s i o)
    (hprice : o.price < maxPrice) {s' : Bool} {p' : Nat} (hp' : p' < maxPrice)
    (e : ¬ (s' = s ∧ p' = o.price)) : Queued b' s' p' (ix s' p') := by
  refine (h.queued hp').congr ?_ ?_ (fun j hj => (hl.order_eq h hj).2) ?_
  · intro j hj
    rw [hl.next j (hl.order_eq h hj).1, if_neg fun ej => e (h.eq_of_tail hprice hj ej.1)]
  · intro j hj
    exact hl.prev j (hl.order_eq h hj).1
  · rw [hl.level, if_neg e]

/-- What is queued afterwards was queued at the same level before, or is the slot. -/
lemma mem_linked {o : Order} {s' : Bool} {p' j : Nat}
    (hj : j ∈ setAt ix s o.price (ix s o.price ++ [i]) s' p') :
    j ∈ ix s' p' ∨ s' = s ∧ p' = o.price ∧ j = i := by
  by_cases e : s' = s ∧ p' = o.price
  · obtain ⟨rfl, rfl⟩ := e
    rw [setAt_same, List.mem_append, List.mem_singleton] at hj
    exact hj.imp_right fun hj => ⟨rfl, rfl, hj⟩
  · rw [setAt_of_ne e] at hj
    exact Or.inl hj

lemma Lists.link {o : Order} (h : Lists b ix [i]) (hl : Linked b b' s i o)
    (hside : o.side = s) (hprice : o.price < maxPrice) (hq : 0 < o.quantity)
    (hid : ∃ k, 0 < k ∧ k ≤ b.orderIdCounter ∧ o.id = k * 2 ^ 32 + i) :
    Lists b' (setAt ix s o.price (ix s o.price ++ [i])) [] := by
  have hqueued := queued_setAt (h.queued_link hl hprice) fun s' p' => h.queued_linked hl hprice
  have hself : b'.orderAt i = o := by rw [hl.order, if_pos rfl]
  refine ⟨fun s' p' hp' => (hqueued s' p' hp').linked, fun s' p' hp' => (hqueued s' p' hp').count,
    fun s' p' hp' => (hqueued s' p' hp').total, ?_, ?_, ?_, ?_, ?_, ?_⟩
  · intro s' p' j hj
    rcases mem_linked hj with hj | ⟨rfl, rfl, rfl⟩
    · exact h.slot s' p' j hj
    · exact ⟨hprice, (h.free j (by simp)).1⟩
  · intro s' p' j hj
    rcases mem_linked hj with hj | ⟨rfl, rfl, rfl⟩
    · rw [(hl.order_eq h hj).2]
      exact h.order s' p' j hj
    · rw [hself]
      exact ⟨hside, rfl, hq⟩
  · intro s' p' j hj
    rw [hl.counter]
    rcases mem_linked hj with hj | ⟨rfl, rfl, rfl⟩
    · rw [(hl.order_eq h hj).2]
      exact h.id s' p' j hj
    · rw [hself]
      exact hid
  · rw [hl.free, List.nil_append]
    exact (List.nodup_cons.mp h.free_nodup).2
  · intro j hj
    rw [hl.free, List.nil_append] at hj
    have hji : j ≠ i := by
      rintro rfl
      exact (List.nodup_cons.mp h.free_nodup).1 hj
    rw [hl.order, if_neg hji]
    exact h.free j (by simp [hj])
  · intro j hj
    rw [hl.free, List.nil_append]
    rcases h.cover j hj with hf | ⟨s', p', hjx⟩
    · rcases List.mem_cons.mp hf with rfl | hf
      · exact Or.inr ⟨s, o.price, by simp⟩
      · exact Or.inl hf
    · right
      refine ⟨s', p', ?_⟩
      by_cases e : s' = s ∧ p' = o.price
      · obtain ⟨rfl, rfl⟩ := e
        simp [hjx]
      · rwa [setAt_of_ne e]

lemma Linked.ordersOf_eq {o : Order} (hl : Linked b b' s i o) (h : Lists b ix [i]) :
    ordersOf b' (setAt ix s o.price (ix s o.price ++ [i]))
      = setAt (ordersOf b ix) s o.price (ordersOf b ix s o.price ++ [o]) := by
  have hmap : ∀ s' p', (ix s' p').map b'.orderAt = (ix s' p').map b.orderAt := by
    intro s' p'
    exact List.map_congr_left fun j hj => (hl.order_eq h hj).2
  funext s' p'
  by_cases e : s' = s ∧ p' = o.price
  · obtain ⟨rfl, rfl⟩ := e
    rw [ordersOf, setAt_same, setAt_same, List.map_append, hmap]
    simp [ordersOf, hl.order]
  · rw [ordersOf, setAt_of_ne e, setAt_of_ne e]
    exact hmap s' p'

/-! ### Reducing an order in place -/

/-- `q` units, not all of them, were taken from the order at slot `i` of level `(s, p)`. -/
structure Reduced (b b' : OrderBook) (s : Bool) (p i q : Nat) : Prop where
  next : ∀ j, b'.next j = b.next j
  prev : ∀ j, b'.prev j = b.prev j
  order : ∀ j, b'.orderAt j = if j = i then (b.orderAt i).reduce q else b.orderAt j
  level : ∀ s' p', (b'.half s').levels p' = if s' = s ∧ p' = p then
    { (b.half s).levels p with
      totalQuantity := sub32 ((b.half s).levels p).totalQuantity q }
    else (b.half s').levels p'
  free : b'.freeIndices = b.freeIndices
  counter : b'.orderIdCounter = b.orderIdCounter

/-- Lists of other slots hold the same orders. -/
lemma Reduced.map_orderAt {q : Nat} (hr : Reduced b b' s p i q) {l : List Nat} (hl : i ∉ l) :
    l.map b'.orderAt = l.map b.orderAt := by
  apply List.map_congr_left
  intro j hj
  rw [hr.order, if_neg]
  rintro rfl
  exact hl hj

/-- The level of the slot loses the quantity. -/
lemma Queued.reduce {q : Nat} (h : Queued b s p (l₁ ++ i :: l₂)) (hr : Reduced b b' s p i q)
    (hq : q < (b.orderAt i).quantity) : Queued b' s p (l₁ ++ i :: l₂) := by
  have hnd := h.linked.nodup
  rw [List.nodup_middle, List.nodup_cons, List.mem_append, not_or] at hnd
  have hlevel := hr.level s p
  rw [if_pos ⟨rfl, rfl⟩] at hlevel
  refine ⟨?_, ?_, ?_⟩
  · rw [hlevel]
    exact h.linked.congr (fun j _ => hr.next j) fun j _ => hr.prev j
  · rw [hlevel]
    exact h.count
  · rw [hlevel, h.total, sub32_mod]
    · simp only [List.map_append, List.map_cons, hr.map_orderAt hnd.1.1, hr.map_orderAt hnd.1.2,
        Consume.total_append, Consume.total_cons, hr.order, if_true, Order.reduce_quantity]
      omega
    · simp only [List.map_append, List.map_cons, Consume.total_append, Consume.total_cons]
      omega

lemma Lists.reduce {q : Nat} (h : Lists b ix held) (hix : ix s p = l₁ ++ i :: l₂)
    (hr : Reduced b b' s p i q) (hq : q < (b.orderAt i).quantity) : Lists b' ix held := by
  have hmem : i ∈ ix s p := by simp [hix]
  have hid : ∀ j, (b'.orderAt j).id = (b.orderAt j).id := by
    intro j
    rw [hr.order]
    split_ifs with e
    · rw [e, Order.reduce_id]
    · rfl
  have hqueued : ∀ s' p', p' < maxPrice → Queued b' s' p' (ix s' p') := by
    intro s' p' hp'
    by_cases e : s' = s ∧ p' = p
    · obtain ⟨rfl, rfl⟩ := e
      have hsame := h.queued (s := s') hp'
      rw [hix] at hsame ⊢
      exact hsame.reduce hr hq
    · refine (h.queued hp').congr (fun j _ => hr.next j) (fun j _ => hr.prev j) ?_ ?_
      · intro j hj
        rw [hr.order, if_neg]
        rintro rfl
        exact e (h.level_unique hj hmem)
      · rw [hr.level, if_neg e]
  refine ⟨fun s' p' hp' => (hqueued s' p' hp').linked, fun s' p' hp' => (hqueued s' p' hp').count,
    fun s' p' hp' => (hqueued s' p' hp').total, h.slot, ?_, ?_, ?_, ?_, ?_⟩
  · intro s' p' j hj
    obtain ⟨hs, hpr, hpos⟩ := h.order s' p' j hj
    rw [hr.order]
    split_ifs with e
    · subst e
      exact ⟨hs, hpr, Nat.sub_pos_of_lt hq⟩
    · exact ⟨hs, hpr, hpos⟩
  · intro s' p' j hj
    rw [hid, hr.counter]
    exact h.id s' p' j hj
  · rw [hr.free]
    exact h.free_nodup
  · intro j hj
    rw [hr.free] at hj
    rw [hid]
    exact h.free j hj
  · intro j hj
    rw [hr.free]
    exact h.cover j hj

lemma Reduced.ordersOf_eq {q : Nat} (hr : Reduced b b' s p i q) (h : Lists b ix held)
    (hix : ix s p = l₁ ++ i :: l₂) : ordersOf b' ix = setAt (ordersOf b ix) s p
      (l₁.map b.orderAt ++ (b.orderAt i).reduce q :: l₂.map b.orderAt) := by
  have hnd := h.nodup s p
  rw [hix, List.nodup_middle, List.nodup_cons, List.mem_append, not_or] at hnd
  funext s' p'
  by_cases e : s' = s ∧ p' = p
  · obtain ⟨rfl, rfl⟩ := e
    rw [ordersOf, setAt_same, hix, List.map_append, List.map_cons, hr.map_orderAt hnd.1.1,
      hr.map_orderAt hnd.1.2, hr.order, if_pos rfl]
  · rw [ordersOf, setAt_of_ne e]
    apply hr.map_orderAt
    intro hi
    exact e (h.level_unique hi (by simp [hix]))

/-! ### The bitmaps -/

lemma Lists.setBits (h : Lists b ix held) (s : Bool) (m : Bitmap) :
    Lists (b.setBits s m) ix held := by
  have hnext : (b.setBits s m).next = b.next := by
    funext i
    simp [next]
  have hprev : (b.setBits s m).prev = b.prev := by
    funext i
    simp [prev]
  have horder : (b.setBits s m).orderAt = b.orderAt := by
    funext i
    simp [orderAt]
  constructor
  · intro s' p' hp'
    rw [hnext, hprev, levels_setBits]
    exact h.linked s' p' hp'
  · intro s' p' hp'
    rw [levels_setBits]
    exact h.count s' p' hp'
  · intro s' p' hp'
    rw [levels_setBits, horder]
    exact h.total s' p' hp'
  · exact h.slot
  · rw [horder]
    exact h.order
  · rw [horder, orderIdCounter_setBits]
    exact h.id
  · rw [freeIndices_setBits]
    exact h.free_nodup
  · rw [freeIndices_setBits, horder]
    exact h.free
  · rw [freeIndices_setBits]
    exact h.cover

lemma ordersOf_setBits (b : OrderBook) (s : Bool) (m : Bitmap) :
    ordersOf (b.setBits s m) = ordersOf b := by
  funext ix s' p'
  rw [ordersOf, ordersOf]
  apply List.map_congr_left
  intro i _
  rw [orderAt, orderAt, nodePool_setBits]

/-- The best price of a side, `NULL_IDX` when the side is empty. -/
def bestOf (Q : Queues) (s : Bool) : Nat :=
  ((Scan.positions s maxPrice).filter fun p => decide (Q s p ≠ [])).headD nullIdx

lemma Marks.getBest_eq {Q : Queues} (h : Marks b Q) (s : Bool) :
    getBest s b = some (bestOf Q s) :=
  (h s).getBest_eq s

/-- Empty levels at the front do not count. -/
lemma bestOf_eq {Q : Queues} {pre ps : List Nat} (hps : Scan.positions s maxPrice = pre ++ ps)
    (hpre : ∀ p ∈ pre, Q s p = []) :
    bestOf Q s = (ps.filter fun p => decide (Q s p ≠ [])).headD nullIdx := by
  have hnil : pre.filter (fun p => decide (Q s p ≠ [])) = [] := by
    rw [List.filter_eq_nil_iff]
    intro p hp
    simp [hpre p hp]
  rw [bestOf, hps, List.filter_append, hnil, List.nil_append]

/-- New bits for one side. -/
lemma Marks.setBits {Q Q' : Queues} {m : Bitmap} (h : Marks b Q)
    (hm : m.Rep fun p => Q' s p ≠ []) (hsame : ∀ s' p, s' ≠ s → Q' s' p = Q s' p) :
    Marks (b.setBits s m) Q' := by
  intro s'
  rw [bits_setBits]
  by_cases e : s' = s
  · subst e
    rw [if_pos rfl]
    exact hm
  · rw [if_neg e]
    apply (h s').congr
    intro p
    rw [hsame s' p e]

/-- A cleared bit for an emptied level. -/
lemma Marks.clearBit {Q Q' : Queues} (h : Marks b Q) (hnil : Q' s p = [])
    (hsame : ∀ s' p', ¬ (s' = s ∧ p' = p) → Q' s' p' = Q s' p') :
    Marks (OrderBook.clearBit s b p) Q' := by
  apply h.setBits
  · apply ((h s).clearBit p).congr
    intro p'
    by_cases ep : p' = p
    · simp [ep, hnil]
    · rw [hsame s p' fun e => ep e.2]
      simp [ep]
  · exact fun s' p' hs => hsame s' p' fun e => hs e.1

/-- A set bit for a level that is no longer empty. -/
lemma Marks.setBit {Q Q' : Queues} (h : Marks b Q) (hp : p < maxPrice) (hne : Q' s p ≠ [])
    (hsame : ∀ s' p', ¬ (s' = s ∧ p' = p) → Q' s' p' = Q s' p') :
    Marks (OrderBook.setBit s b p) Q' := by
  apply h.setBits
  · apply ((h s).setBit hp).congr
    intro p'
    by_cases ep : p' = p
    · simp [ep, hne]
    · rw [hsame s p' fun e => ep e.2]
      simp [ep]
  · exact fun s' p' hs => hsame s' p' fun e => hs e.1

/-- The bits stay when no level becomes empty or non-empty. -/
lemma Marks.congr {Q Q' : Queues} (h : Marks b Q) (hsame : ∀ s p, Q' s p = [] ↔ Q s p = []) :
    Marks b Q' := by
  intro s
  apply (h s).congr
  intro p
  rw [ne_eq, ne_eq, hsame s p]

end OrderBook

end ExchangeEngine
