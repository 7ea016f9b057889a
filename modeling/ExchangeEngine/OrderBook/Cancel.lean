import ExchangeEngine.OrderBook.Branches
import ExchangeEngine.OrderBook.Process

/-!
# Cancelling an order of `OrderBook`

The low half of an id is the slot of the order, and a slot is free exactly when its id is zero. So
a non-zero id names at most one resting order, which is found at its slot. The id zero is the
exception: it matches the stale node at slot 0 whenever that slot is free.
-/

namespace ExchangeEngine

namespace OrderBook

open LinkedList

variable {b b' : OrderBook} {ix : Slots} {held l₁ l₂ : List Nat} {s : Bool} {p i id : Nat}
  {userId : Int}

/-- The id zero would match the free slot 0 by the owner left in its node. -/
def StaleMatch (b : OrderBook) (id : Nat) (userId : Int) : Prop :=
  id = 0 ∧ (b.orderAt 0).id = 0 ∧ (b.orderAt 0).userId = userId

instance (b : OrderBook) (id : Nat) (userId : Int) : Decidable (StaleMatch b id userId) := by
  unfold StaleMatch; infer_instance

/-! ### Unlinking in the code -/

/-- The pool after the neighbours of slot `i` were linked to each other. -/
def bypass (pool : Pool) (i : Nat) : Pool :=
  let next := (pool i).nextIdx
  let prev := (pool i).prevIdx
  let pool := if prev = nullIdx then pool else pool.withNext prev next
  if next = nullIdx then pool else pool.withPrev next prev

lemma bypass_nextIdx (pool : Pool) (i j : Nat) : (bypass pool i j).nextIdx
    = if j = (pool i).prevIdx ∧ (pool i).prevIdx ≠ nullIdx then (pool i).nextIdx
      else (pool j).nextIdx := by
  simp only [bypass]
  by_cases hp : (pool i).prevIdx = nullIdx <;> by_cases hn : (pool i).nextIdx = nullIdx <;>
    simp [hp, hn]

lemma bypass_prevIdx (pool : Pool) (i j : Nat) : (bypass pool i j).prevIdx
    = if j = (pool i).nextIdx ∧ (pool i).nextIdx ≠ nullIdx then (pool i).prevIdx
      else (pool j).prevIdx := by
  simp only [bypass]
  by_cases hp : (pool i).prevIdx = nullIdx <;> by_cases hn : (pool i).nextIdx = nullIdx <;>
    simp [hp, hn]

lemma bypass_order (pool : Pool) (i j : Nat) : (bypass pool i j).order = (pool j).order := by
  simp only [bypass]
  by_cases hp : (pool i).prevIdx = nullIdx <;> by_cases hn : (pool i).nextIdx = nullIdx <;>
    simp [hp, hn]

/-- The level after its slot `i` was unlinked. -/
def without (b : OrderBook) (list : OrderList) (i : Nat) : OrderList where
  headIdx := if b.prev i = nullIdx then b.next i else list.headIdx
  tailIdx := if b.next i = nullIdx then b.prev i else list.tailIdx
  totalQuantity := sub32 list.totalQuantity (b.orderAt i).quantity
  orderCount := sub32 list.orderCount 1

/-- What `cancel_order` does once the id and the owner match a linked slot. -/
lemma cancelOrder_match {list : OrderList} {b₂ : OrderBook} (hslot : id &&& 0xFFFFFFFF = i)
    (hi : i < maxOrders)
    (hid : (b.nodePool i).order.id = id) (huser : (b.nodePool i).order.userId = userId)
    (hside : (b.nodePool i).order.side = s) (hprice : (b.nodePool i).order.price = p)
    (hp : p < maxPrice)
    (hprev : b.prev i ≠ nullIdx → b.prev i < maxOrders ∧ i ≠ b.prev i)
    (hnext : b.next i ≠ nullIdx → b.next i < maxOrders)
    (hlist : without b ((b.half s).levels p) i = list)
    (hb₂ : (if list.orderCount = 0 then clearBit s (b.setLevel s p list) p
      else b.setLevel s p list) = b₂) :
    cancelOrder b id userId = some
      ({ b₂ with
          nodePool := (bypass b.nodePool i).withOrder i fun o => { o with id := 0 }
          freeIndices := i :: b.freeIndices },
        some (b.orderAt i)) := by
  subst hb₂ hlist
  by_cases hpn : (b.nodePool i).prevIdx = nullIdx
  · by_cases hnn : (b.nodePool i).nextIdx = nullIdx
    · simp [cancelOrder, hslot, Nat.not_le.mpr hi, hid, huser, hside, hprice, level, hp, hpn, hnn,
        Pool.setOrder, hi, bypass, without, next, prev, orderAt]
    · have hn : (b.nodePool i).nextIdx < maxOrders := hnext hnn
      simp [cancelOrder, hslot, Nat.not_le.mpr hi, hid, huser, hside, hprice, level, hp, hpn, hnn,
        hn, Pool.setOrder, Pool.setPrev, hi, bypass, without, next, prev, orderAt]
  · obtain ⟨hpl, hne⟩ : (b.nodePool i).prevIdx < maxOrders ∧ i ≠ (b.nodePool i).prevIdx :=
      hprev hpn
    by_cases hnn : (b.nodePool i).nextIdx = nullIdx
    · simp [cancelOrder, hslot, Nat.not_le.mpr hi, hid, huser, hside, hprice, level, hp, hpn, hnn,
        hpl, hne, Pool.setOrder, Pool.setNext, hi, bypass, without, next, prev, orderAt]
    · have hn : (b.nodePool i).nextIdx < maxOrders := hnext hnn
      simp [cancelOrder, hslot, Nat.not_le.mpr hi, hid, huser, hside, hprice, level, hp, hpn, hnn,
        hpl, hne, hn, Pool.setOrder, Pool.setNext, Pool.setPrev, hi, bypass, without, next, prev,
        orderAt]

/-- A matched slot that is linked is unlinked and freed, and the bit of an emptied level goes. -/
lemma cancelOrder_linked (h : Lists b ix []) (hix : ix s p = l₁ ++ i :: l₂)
    (hid : (b.orderAt i).id = id) (huser : (b.orderAt i).userId = userId) :
    ∃ b', cancelOrder b id userId = some (b', some (b.orderAt i)) ∧ Unlinked b b' s p i ∧
      b'.tradeListener = b.tradeListener ∧
      ∀ t, (b'.half t).bits
        = ((if l₁ ++ l₂ = [] then clearBit s b p else b).half t).bits := by
  have hmem : i ∈ ix s p := by simp [hix]
  obtain ⟨hp, hi⟩ := h.slot s p i hmem
  obtain ⟨hside, hprice, -⟩ := h.order s p i hmem
  obtain ⟨k, -, -, hk⟩ := h.id s p i hmem
  obtain ⟨hprev, hnext⟩ := h.neighbour_mem hix
  have hnd := h.nodup s p
  rw [hix, List.nodup_middle, List.nodup_cons, List.mem_append, not_or] at hnd
  have hlt : ∀ j, j ∈ l₁ ∨ j ∈ l₂ → j < maxOrders := by
    intro j hj
    apply (h.slot s p j _).2
    rw [hix]
    rcases hj with hj | hj <;> simp [hj]
  have hcount : (without b ((b.half s).levels p) i).orderCount = 0 ↔ l₁ ++ l₂ = [] := by
    have hlen := h.length_le s p
    have hc := h.count s p hp
    rw [hix, List.length_append, List.length_cons] at hlen hc
    rw [without, hc, List.append_eq_nil_iff, ← List.length_eq_zero_iff,
      ← List.length_eq_zero_iff]
    simp only [sub32, maxOrders] at hlen ⊢
    omega
  generalize hlist : without b ((b.half s).levels p) i = list at hcount
  obtain ⟨b₂, hb₂⟩ : ∃ b₂, (if list.orderCount = 0 then clearBit s (b.setLevel s p list) p
    else b.setLevel s p list) = b₂ := ⟨_, rfl⟩
  have hcounter : b₂.orderIdCounter = b.orderIdCounter := by
    rw [← hb₂, orderIdCounter_ite_clearBit, orderIdCounter_setLevel]
  have hlisten : b₂.tradeListener = b.tradeListener := by
    rw [← hb₂, tradeListener_ite_clearBit, tradeListener_setLevel]
  refine ⟨_, cancelOrder_match (slot_of_id (hid ▸ hk) hi) hi hid huser hside hprice hp
    (fun hne => ⟨hlt _ (Or.inl (hprev hne)), fun e => hnd.1.1 (e ▸ hprev hne)⟩)
    (fun hne => hlt _ (Or.inr (hnext hne))) hlist hb₂,
    ⟨?_, ?_, ?_, ?_, ?_, rfl, hcounter⟩, hlisten, ?_⟩
  · intro j _
    rw [next, Pool.withOrder_nextIdx, bypass_nextIdx]
    exact if_congr Iff.rfl rfl rfl
  · intro j _
    rw [prev, Pool.withOrder_prevIdx, bypass_prevIdx]
    exact if_congr Iff.rfl rfl rfl
  · intro j hj
    simp [orderAt, bypass_order, hj]
  · simp [orderAt]
  · intro s' p'
    rw [half_mk, ← hb₂, levels_ite_clearBit, levels_setLevel, ← hlist]
    rfl
  · intro t
    rw [half_mk, ← hb₂]
    simp only [hcount]
    split_ifs
    · simp [clearBit]
    · simp

/-! ### Exactness -/

lemma Lists.mem_resting (h : Lists b ix held) {r : Order} :
    r ∈ b.resting s ↔ ∃ p, ∃ i ∈ ix s p, b.orderAt i = r := by
  rw [h.resting_eq, List.mem_flatMap]
  constructor
  · rintro ⟨p, -, hr⟩
    exact ⟨p, List.mem_map.mp hr⟩
  · rintro ⟨p, i, hi, hr⟩
    exact ⟨p, Scan.mem_positions.mpr (h.slot s p i hi).1, List.mem_map.mpr ⟨i, hi, hr⟩⟩

/-- A resting order is stored at the slot its id names. -/
lemma Lists.slot_eq (h : Lists b ix held) (hi : i ∈ ix s p) :
    (b.orderAt i).id &&& 0xFFFFFFFF = i := by
  obtain ⟨k, -, -, hk⟩ := h.id s p i hi
  exact slot_of_id hk (h.slot s p i hi).2

/-- Dropping the order of slot `i` from the lists is dropping its id from the listing. -/
lemma Unlinked.resting_eq {ix' : Slots} (hu : Unlinked b b' s p i) (h : Lists b ix held)
    (hix : ix s p = l₁ ++ i :: l₂) (h' : Lists b' ix' held)
    (hix' : ix' = setAt ix s p (l₁ ++ l₂)) :
    b'.resting = b.resting.remove (b.orderAt i).id := by
  have hmem : i ∈ ix s p := by simp [hix]
  have hother : ∀ t q, ∀ j ∈ ix t q, j ≠ i → (b.orderAt j).id ≠ (b.orderAt i).id := by
    intro t q j hj hji e
    rw [← h.slot_eq hj, e, h.slot_eq hmem] at hji
    exact hji rfl
  funext t
  rw [Book.remove, h'.resting_eq, h.resting_eq, List.filter_flatMap, hix', hu.ordersOf_eq h hix]
  apply List.flatMap_congr
  intro q _
  by_cases e : t = s ∧ q = p
  · obtain ⟨rfl, rfl⟩ := e
    have hnd := h.nodup t q
    rw [hix, List.nodup_middle, List.nodup_cons] at hnd
    have hkeep : ∀ l : List Nat, (∀ j ∈ l, j ∈ l₁ ++ l₂) →
        (l.map b.orderAt).filter (fun r => decide (r.id ≠ (b.orderAt i).id))
          = l.map b.orderAt := by
      intro l hl
      rw [List.filter_eq_self]
      intro r hr
      obtain ⟨j, hj, rfl⟩ := List.mem_map.mp hr
      have hj := hl j hj
      have hjix : j ∈ ix t q := by
        rw [hix]
        rcases List.mem_append.mp hj with hj | hj <;> simp [hj]
      exact decide_eq_true (hother t q j hjix fun e => hnd.1 (e ▸ hj))
    rw [setAt_same, ordersOf, hix, List.map_append, List.map_append, List.map_cons,
      List.filter_append, List.filter_cons_of_neg (by simp),
      hkeep l₁ fun j hj => List.mem_append_left _ hj,
      hkeep l₂ fun j hj => List.mem_append_right _ hj]
  · rw [setAt_of_ne e, ordersOf, eq_comm, List.filter_eq_self]
    intro r hr
    obtain ⟨j, hj, rfl⟩ := List.mem_map.mp hr
    refine decide_eq_true (hother t q j hj ?_)
    rintro rfl
    exact e (h.level_unique hj hmem)

/-- `b'` is what cancelling does to the price-time-priority book. -/
structure Cancelled (b : OrderBook) (id : Nat) (userId : Int) (b' : OrderBook) : Prop where
  inv : Inv b'
  counter : b'.orderIdCounter = b.orderIdCounter
  listener : b'.tradeListener = b.tradeListener
  resting : b'.resting = (b.resting.cancel id userId).1
  unchanged : b.resting.find id userId = none → b' = b

/-- A call that finds no match returns false and leaves the book alone. -/
lemma Inv.cancel_miss (h : Inv b) (hrun : cancelOrder b id userId = some (b, none))
    (hfind : b.resting.find id userId = none) :
    ∃ b', cancelOrder b id userId = some (b', b.resting.find id userId) ∧
      Cancelled b id userId b' := by
  refine ⟨b, by rw [hrun, hfind], h, rfl, rfl, ?_, fun _ => rfl⟩
  rw [Book.cancel, hfind]

/-- A matched slot is linked: a free one has id zero. -/
lemma Lists.linked_of_match (h : Lists b ix []) (hstale : ¬ StaleMatch b id userId)
    (hi : id &&& 0xFFFFFFFF = i) (hlt : i < maxOrders) (hid : (b.orderAt i).id = id)
    (huser : (b.orderAt i).userId = userId) : ∃ s p, i ∈ ix s p := by
  rcases h.cover i hlt with hfree | hlinked
  · exfalso
    have hzero := (h.free i hfree).2
    rw [hid] at hzero
    subst hzero
    apply hstale
    rw [Nat.zero_and] at hi
    subst hi
    exact ⟨rfl, hid, huser⟩
  · exact hlinked

/-- The bits mark the levels again once the one of an emptied level is cleared. -/
lemma Unlinked.marks (hu : Unlinked b b' s p i) (h : Lists b ix held) (hm : Marks b (ordersOf b ix))
    (hix : ix s p = l₁ ++ i :: l₂) (hbits : ∀ t, (b'.half t).bits
      = ((if l₁ ++ l₂ = [] then clearBit s b p else b).half t).bits) :
    Marks b' (ordersOf b' (setAt ix s p (l₁ ++ l₂))) := by
  rw [hu.ordersOf_eq h hix]
  refine Marks.of_bits ?_ hbits
  split_ifs with hnil
  · apply hm.clearBit
    · rw [setAt_same, hnil, List.map_nil]
    · exact fun _ _ e => setAt_of_ne e
  · apply hm.congr
    intro s' p'
    by_cases e : s' = s ∧ p' = p
    · obtain ⟨rfl, rfl⟩ := e
      rw [setAt_same, List.map_eq_nil_iff, ordersOf, List.map_eq_nil_iff, hix]
      exact iff_of_false hnil (by simp)
    · rw [setAt_of_ne e]

/-- **Cancellation is exact**, unless the id is zero and matches a stale node. -/
theorem cancelOrder_spec (hinv : Inv b) (hstale : ¬ StaleMatch b id userId) :
    ∃ b', cancelOrder b id userId = some (b', b.resting.find id userId) ∧
      Cancelled b id userId b' := by
  have ⟨⟨ix, h, hm⟩, hvalid⟩ := hinv
  generalize hi : id &&& 0xFFFFFFFF = i
  by_cases hlt : i < maxOrders
  swap
  · apply hinv.cancel_miss
    · rw [cancelOrder, hi, if_pos (Nat.not_lt.mp hlt)]
    · rw [Book.find_eq_none_iff]
      rintro s r hr ⟨rfl, -⟩
      obtain ⟨p, j, hj, rfl⟩ := h.mem_resting.mp hr
      rw [h.slot_eq hj] at hi
      exact hlt (hi ▸ (h.slot s p j hj).2)
  by_cases hmatch : (b.orderAt i).id = id ∧ (b.orderAt i).userId = userId
  swap
  · apply hinv.cancel_miss
    · have hne : (b.nodePool i).order.id ≠ id ∨ (b.nodePool i).order.userId ≠ userId :=
        not_and_or.mp hmatch
      rw [cancelOrder, hi, if_neg (Nat.not_le.mpr hlt), if_pos hne]
    · rw [Book.find_eq_none_iff]
      rintro s r hr ⟨rfl, rfl⟩
      obtain ⟨p, j, hj, rfl⟩ := h.mem_resting.mp hr
      rw [h.slot_eq hj] at hi
      exact hmatch (hi ▸ ⟨rfl, rfl⟩)
  obtain ⟨hid, huser⟩ := hmatch
  obtain ⟨s, p, hmem⟩ := h.linked_of_match hstale hi hlt hid huser
  obtain ⟨l₁, l₂, hix⟩ := List.append_of_mem hmem
  obtain ⟨b', hrun, hu, hlisten, hbits⟩ := cancelOrder_linked h hix hid huser
  have hfind : b.resting.find id userId = some (b.orderAt i) := by
    rw [Book.find_eq_some_iff hvalid]
    exact ⟨⟨s, h.mem_resting.mpr ⟨p, i, hmem, rfl⟩⟩, hid, huser⟩
  have h' := h.unlink hix hu
  have hresting := hu.resting_eq h hix h' rfl
  rw [hid] at hresting
  refine ⟨b', by rw [hrun, hfind], ⟨⟨_, h', hu.marks h hm hix hbits⟩, ?_⟩, hu.counter, hlisten,
    ?_, ?_⟩
  · rw [hresting]
    exact hvalid.remove id
  · rw [hresting, Book.cancel, hfind]
  · intro hnone
    rw [hfind] at hnone
    exact absurd hnone (by simp)

end OrderBook

end ExchangeEngine
