import ExchangeEngine.OrderBook.Trace

/-!
# Properties of reachable books

What the invariant means in terms of the arrays of `OrderBook`, what a cancellation does for any
argument, and which trades a submission executes.
-/

namespace ExchangeEngine

namespace OrderBook

open LinkedList

variable {b b' : OrderBook} {ix : Slots} {held : List Nat} {s side : Bool} {p i : Nat} {o : Order}

/-! ### The representation -/

/-- The node pool, the free stack, the level lists and the bitmaps are consistent. -/
structure WellFormed (b : OrderBook) : Prop where
  /-- a slot is free, once and with node id 0, or linked at exactly one level under an id naming it -/
  slot : ∀ i < maxOrders,
    (b.freeIndices.count i = 1 ∧ (b.nodePool i).order.id = 0 ∧
      ∀ s p, p < maxPrice → i ∉ b.levelIndices s p) ∨
    (b.freeIndices.count i = 0 ∧ (b.nodePool i).order.id ≠ 0 ∧
      (b.nodePool i).order.id % 2 ^ 32 = i ∧
      ∃! l : Bool × Nat, l.2 < maxPrice ∧ i ∈ b.levelIndices l.1 l.2)
  free_lt : ∀ i ∈ b.freeIndices, i < maxOrders
  /-- following `next_idx` from `head_idx` ends at `tail_idx`, and `prev_idx` leads back -/
  linked : ∀ s p, p < maxPrice → DList b.next b.prev nullIdx
    ((b.half s).levels p).headIdx ((b.half s).levels p).tailIdx (b.levelIndices s p)
  node : ∀ s p, p < maxPrice → ∀ i ∈ b.levelIndices s p, i < maxOrders ∧
    (b.nodePool i).order.side = s ∧ (b.nodePool i).order.price = p ∧
    0 < (b.nodePool i).order.quantity
  count : ∀ s p, p < maxPrice →
    ((b.half s).levels p).orderCount = (b.levelIndices s p).length
  l1 : ∀ s p, p < maxPrice → (((b.half s).bits.l1 (p / 64)).getLsbD (p % 64) = true ↔
    b.levelIndices s p ≠ [])
  l2 : ∀ s i, ((b.half s).bits.l2 (i / 64)).getLsbD (i % 64) = true ↔ (b.half s).bits.l1 i ≠ 0#64
  l3 : ∀ s j, (b.half s).bits.l3.getLsbD j = true ↔ (b.half s).bits.l2 j ≠ 0#64

lemma Inv.wellFormed (h : Inv b) : WellFormed b := by
  obtain ⟨⟨ix, h, hm⟩, -⟩ := h
  have hnd : b.freeIndices.Nodup := h.free_nodup
  have hmem : ∀ s p, p < maxPrice → ∀ i, i ∈ b.levelIndices s p ↔ i ∈ ix s p := by
    intro s p hp i
    rw [h.levelIndices_eq hp]
  refine ⟨?_, fun i hi => (h.free i hi).1, ?_, ?_, ?_, ?_, fun s => (hm s).l2, fun s => (hm s).l3⟩
  · intro i hi
    rcases h.cover i hi with hfree | ⟨s, p, hix⟩
    · refine Or.inl ⟨List.count_eq_one_of_mem hnd hfree, (h.free i hfree).2, ?_⟩
      intro s p hp hix
      exact h.not_free ((hmem s p hp i).mp hix) hfree
    · obtain ⟨k, -, -, hid⟩ := h.id s p i hix
      have hp := (h.slot s p i hix).1
      refine Or.inr ⟨List.count_eq_zero_of_not_mem (h.not_free hix), h.id_ne_zero hix, ?_,
        ⟨s, p⟩, ⟨hp, (hmem s p hp i).mpr hix⟩, ?_⟩
      · have hid : (b.nodePool i).order.id = k * 2 ^ 32 + i := hid
        simp only [maxOrders] at hi
        omega
      · rintro ⟨s', p'⟩ ⟨hp', hix'⟩
        obtain ⟨rfl, rfl⟩ := h.level_unique hix ((hmem s' p' hp' i).mp hix')
        rfl
  · intro s p hp
    rw [h.levelIndices_eq hp]
    exact h.linked s p hp
  · intro s p hp i hi
    rw [hmem s p hp] at hi
    exact ⟨(h.slot s p i hi).2, h.order s p i hi⟩
  · intro s p hp
    rw [h.levelIndices_eq hp]
    exact h.count s p hp
  · intro s p hp
    rw [h.levelIndices_eq hp, (hm s).l1, ordersOf, ne_eq, List.map_eq_nil_iff]

/-- Every slot is on the free stack or holds one of the listed orders. -/
lemma Inv.slots_count (h : Inv b) : b.freeIndices.length
    + ((b.resting true).length + (b.resting false).length) = maxOrders := by
  obtain ⟨⟨ix, h, hm⟩, -⟩ := h
  have hlen : ∀ s, (b.resting s).length
      = ((Scan.positions s maxPrice).flatMap (ix s)).length := by
    intro s
    rw [h.resting_eq, List.length_flatMap, List.length_flatMap]
    simp only [ordersOf, List.length_map]
  have hmem : ∀ s i, i ∈ (Scan.positions s maxPrice).flatMap (ix s) ↔ ∃ p, i ∈ ix s p := by
    intro s i
    rw [List.mem_flatMap]
    constructor
    · rintro ⟨p, -, hi⟩
      exact ⟨p, hi⟩
    · rintro ⟨p, hi⟩
      exact ⟨p, Scan.mem_positions.mpr (h.slot s p i hi).1, hi⟩
  have hnd : ∀ s, ((Scan.positions s maxPrice).flatMap (ix s)).Nodup := by
    intro s
    rw [List.nodup_flatMap]
    refine ⟨fun p _ => h.nodup s p, (Scan.nodup_positions s maxPrice).imp ?_⟩
    intro p q hpq i hi hi'
    exact hpq (h.level_unique hi hi').2
  have hperm : (b.freeIndices ++ ((Scan.positions true maxPrice).flatMap (ix true)
      ++ (Scan.positions false maxPrice).flatMap (ix false))).Perm (List.range maxOrders) := by
    rw [List.perm_ext_iff_of_nodup _ List.nodup_range]
    · intro i
      rw [List.mem_append, List.mem_append, hmem, hmem, List.mem_range]
      constructor
      · rintro (hi | ⟨p, hi⟩ | ⟨p, hi⟩)
        · exact (h.free i hi).1
        · exact (h.slot _ p i hi).2
        · exact (h.slot _ p i hi).2
      · intro hi
        rcases h.cover i hi with hf | ⟨s, p, hi⟩
        · exact Or.inl hf
        · cases s with
          | true => exact Or.inr (Or.inl ⟨p, hi⟩)
          | false => exact Or.inr (Or.inr ⟨p, hi⟩)
    · rw [List.nodup_append', List.nodup_append']
      refine ⟨h.free_nodup, ⟨hnd true, hnd false, ?_⟩, ?_⟩
      · intro i hi hi'
        obtain ⟨p, hi⟩ := (hmem true i).mp hi
        obtain ⟨q, hi'⟩ := (hmem false i).mp hi'
        exact absurd (h.level_unique hi hi').1 (by simp)
      · intro i hi hi'
        rcases List.mem_append.mp hi' with hi' | hi'
        · obtain ⟨p, hi'⟩ := (hmem _ i).mp hi'
          exact h.not_free hi' hi
        · obtain ⟨p, hi'⟩ := (hmem _ i).mp hi'
          exact h.not_free hi' hi
  rw [hlen, hlen, ← List.length_append, ← List.length_append, hperm.length_eq, List.length_range]

/-- **The representation invariant**: in every reachable book the five structures agree, no slot is
lost, and a gated submission finds a slot and is executed. -/
theorem wellFormed_of_reachable (h : Reachable b) : WellFormed b ∧
    b.freeIndices.length + ((b.resting true).length + (b.resting false).length) = maxOrders ∧
    ∀ o, canProcessOrder b o = true → b.orderIdCounter + 1 < 2 ^ 32 →
      b.freeIndices ≠ [] ∧ ∀ fuel, maxOrders < fuel → (processOrder o.side fuel b o).isSome := by
  refine ⟨h.inv.wellFormed, h.inv.slots_count, ?_⟩
  intro o hcan hcounter
  refine ⟨?_, ?_⟩
  · have hfree : o.price < maxPrice ∧ b.freeIndices ≠ [] := by
      simpa [canProcessOrder] using hcan
    exact hfree.2
  · intro fuel hfuel
    obtain ⟨r, hrun, -⟩ := processOrder_spec h.inv hcan hcounter hfuel
    rw [hrun]
    rfl

lemma sampleOrder_run :
    ∃ r, processOrder true 100001 new sampleOrder = some r ∧ Reachable r.book := by
  obtain ⟨r, hrun⟩ := Option.isSome_iff_exists.mp
    (by decide +kernel : (processOrder true 100001 new sampleOrder).isSome = true)
  have hcan : canProcessOrder new sampleOrder = true := by decide +kernel
  exact ⟨r, hrun, Relation.ReflTransGen.refl.tail (Step.submit hcan (by decide) hrun)⟩

/-- The book after some bids and offers, a trade and a cancellation. -/
theorem wellFormed_after_sampleInputs : ∃ b, Reachable b ∧
    ((depth true b 5).map fun rows => rows.map DepthLevel.price) = some [100, 99] ∧
    ((depth false b 5).map fun rows => rows.map DepthLevel.price) = some [105, 106] ∧
    WellFormed b ∧ b.freeIndices.length
      + ((b.resting true).length + (b.resting false).length) = maxOrders := by
  obtain ⟨⟨b, evs⟩, hrun, hout⟩ := Option.map_eq_some_iff.mp
    (by decide +kernel :
      (Transition.runEvents (handle 100001) Gated listening sampleInputs).map (fun x =>
        ((depth true x.1 5).map fun rows => rows.map DepthLevel.price,
          (depth false x.1 5).map fun rows => rows.map DepthLevel.price))
      = some (some [100, 99], some [105, 106]))
  have hreach := (trace_of_run (Transition.run_of_runEvents hrun)).reachable
  obtain ⟨hbids, hoffers⟩ := Prod.mk.inj hout
  obtain ⟨hwf, hcount, -⟩ := wellFormed_of_reachable hreach
  exact ⟨b, hreach, hbids, hoffers, hwf, hcount⟩

/-! ### Cancellation -/

/-- What `cancel_order` promises for these arguments: it succeeds exactly on a resting order of this
id and owner, hands it out, and removes it and nothing else; otherwise the book stays. -/
def CancelExact (b : OrderBook) (id : Nat) (userId : Int) : Prop :=
  ∃ b' out, cancelOrder b id userId = some (b', out) ∧
    (out.isSome = true ↔ ∃ s, ∃ r ∈ b.resting s, r.id = id ∧ r.userId = userId) ∧
    (∀ r, out = some r → r.id = id ∧ r.userId = userId ∧
      (∃ l₁ l₂, b.queue r.side r.price = l₁ ++ r :: l₂ ∧ b'.queue r.side r.price = l₁ ++ l₂) ∧
      ∀ s p, p < maxPrice → ¬ (s = r.side ∧ p = r.price) → b'.queue s p = b.queue s p) ∧
    (out = none → b' = b)

lemma Inv.mem_resting (h : Inv b) {r : Order} (hr : r ∈ b.resting s) :
    r.side = s ∧ r.price < maxPrice ∧ r ∈ b.queue s r.price := by
  obtain ⟨⟨ix, h, hm⟩, hvalid⟩ := h
  obtain ⟨hs, hp, -⟩ := hvalid.order s r hr
  refine ⟨hs, hp, ?_⟩
  obtain ⟨p, i, hi, rfl⟩ := h.mem_resting.mp hr
  rw [(h.order s p i hi).2.1] at hp ⊢
  rw [h.queue_eq hp]
  exact List.mem_map_of_mem hi

lemma Inv.queue_eq (h : Inv b) (s : Bool) (hp : p < maxPrice) :
    b.queue s p = b.resting.atPrice s p := by
  obtain ⟨⟨ix, h, hm⟩, -⟩ := h
  rw [h.queue_eq hp, h.atPrice_eq s hp, ordersOf]

/-- Two resting orders of one id are the same order. -/
lemma Inv.eq_of_id_eq (h : Inv b) {r x : Order} {t : Bool} (hr : r ∈ b.resting s)
    (hx : x ∈ b.resting t) (hid : r.id = x.id) : r = x := by
  have hmem : ∀ {y : Order} {s : Bool}, y ∈ b.resting s →
      y ∈ b.resting true ++ b.resting false := by
    intro y s hy
    cases s with
    | true => exact List.mem_append_left _ hy
    | false => exact List.mem_append_right _ hy
  exact List.inj_on_of_nodup_map h.valid.ids (hmem hr) (hmem hx) hid

/-- The queue a cancelled order leaves, and the other queues. -/
lemma Inv.queue_remove (h : Inv b) (h' : Inv b') {r : Order} (hr : r ∈ b.resting s)
    (hresting : b'.resting = b.resting.remove r.id) :
    (∃ l₁ l₂, b.queue s r.price = l₁ ++ r :: l₂ ∧ b'.queue s r.price = l₁ ++ l₂) ∧
      ∀ t p, p < maxPrice → ¬ (t = s ∧ p = r.price) → b'.queue t p = b.queue t p := by
  obtain ⟨-, hp, hmem⟩ := h.mem_resting hr
  have hqueue : ∀ t p, p < maxPrice →
      b'.queue t p = (b.queue t p).filter fun x => decide (x.id ≠ r.id) := by
    intro t p hp
    rw [h'.queue_eq t hp, h.queue_eq t hp, hresting, Book.atPrice, Book.atPrice, Book.remove,
      List.filter_comm]
  have hsub : ∀ t p, p < maxPrice → ∀ x ∈ b.queue t p, x ∈ b.resting t ∧ x.price = p := by
    intro t p hp x hx
    rw [h.queue_eq t hp] at hx
    simpa [Book.atPrice] using hx
  constructor
  · obtain ⟨l₁, l₂, hl⟩ := List.append_of_mem hmem
    refine ⟨l₁, l₂, hl, ?_⟩
    have hnd : ((b.queue s r.price).map Order.id).Nodup := by
      have hside : ((b.resting s).map Order.id).Nodup := by
        have hids := (Book.ids_iff b.resting s).mpr h.valid.ids
        rw [List.map_append] at hids
        exact hids.of_append_left
      rw [h.queue_eq s hp]
      exact hside.sublist (List.filter_sublist.map _)
    rw [hl, List.map_append, List.map_cons, List.nodup_middle, List.nodup_cons,
      ← List.map_append] at hnd
    have hkeep : ∀ l : List Order, l ⊆ l₁ ++ l₂ →
        l.filter (fun x => decide (x.id ≠ r.id)) = l := by
      intro l hl
      rw [List.filter_eq_self]
      intro x hx
      apply decide_eq_true
      intro e
      exact hnd.1 (e ▸ List.mem_map_of_mem (hl hx))
    rw [hqueue s _ hp, hl, List.filter_append, List.filter_cons_of_neg (by simp),
      hkeep l₁ (List.subset_append_left _ _), hkeep l₂ (List.subset_append_right _ _)]
  · intro t p hp hne
    rw [hqueue t p hp, List.filter_eq_self]
    intro x hx
    apply decide_eq_true
    intro e
    obtain ⟨hx, hxp⟩ := hsub t p hp x hx
    obtain rfl := h.eq_of_id_eq hx hr e
    exact hne ⟨(h.mem_resting hx).1.symm.trans (h.mem_resting hr).1, hxp.symm⟩

/-- Once the id and the owner match the node, `cancel_order` returns true. -/
lemma cancelOrder_isSome {id : Nat} {userId : Int} {out : Option Order}
    (hrun : cancelOrder b id userId = some (b', out)) (hlt : id &&& 0xFFFFFFFF < maxOrders)
    (hid : (b.orderAt (id &&& 0xFFFFFFFF)).id = id)
    (huser : (b.orderAt (id &&& 0xFFFFFFFF)).userId = userId) : out.isSome = true := by
  cases cancelOrder_branch hrun with
  | missed hmiss =>
    rcases hmiss with hle | hne | hne
    · exact absurd hlt (Nat.not_lt.mpr hle)
    · exact absurd hid hne
    · exact absurd huser hne
  | found => rfl

/-- The stale node passes the check, but no resting order has the id zero. -/
lemma Inv.not_cancelExact (h : Inv b) {id : Nat} {userId : Int} (hs : StaleMatch b id userId) :
    ¬ CancelExact b id userId := by
  obtain ⟨rfl, hzero, huser⟩ := hs
  rintro ⟨b', out, hrun, hiff, -, -⟩
  have hout : out.isSome = true := cancelOrder_isSome hrun (by decide) hzero huser
  obtain ⟨s, r, hr, hid, -⟩ := hiff.mp hout
  obtain ⟨⟨ix, hl, -⟩, -⟩ := h
  obtain ⟨p, i, hi, rfl⟩ := hl.mem_resting.mp hr
  exact hl.id_ne_zero hi hid

lemma Inv.cancelExact (h : Inv b) {id : Nat} {userId : Int} (hs : ¬ StaleMatch b id userId) :
    CancelExact b id userId := by
  obtain ⟨b', hrun, hc⟩ := cancelOrder_spec h hs
  refine ⟨b', _, hrun, ?_, ?_, hc.unchanged⟩
  · constructor
    · intro hsome
      obtain ⟨r, hr⟩ := Option.isSome_iff_exists.mp hsome
      obtain ⟨⟨s, hs⟩, hid, huser⟩ := (Book.find_eq_some_iff h.valid).mp hr
      exact ⟨s, r, hs, hid, huser⟩
    · rintro ⟨s, r, hr, hid, huser⟩
      rw [(Book.find_eq_some_iff h.valid).mpr ⟨⟨s, hr⟩, hid, huser⟩]
      rfl
  · intro r hfind
    obtain ⟨⟨s, hs⟩, hid, huser⟩ := (Book.find_eq_some_iff h.valid).mp hfind
    have hresting := hc.resting
    rw [Book.cancel, hfind, ← hid] at hresting
    obtain ⟨rfl, -, -⟩ := h.mem_resting hs
    obtain ⟨hthis, hother⟩ := h.queue_remove hc.inv hs hresting
    exact ⟨hid, huser, hthis, hother⟩

/-- **Cancellation is exact in every reachable book, for all arguments but one kind**: the id zero
with the owner of the stale node at a free slot 0. -/
theorem cancelExact_iff (h : Reachable b) (id : Nat) (userId : Int) :
    CancelExact b id userId ↔ ¬ StaleMatch b id userId :=
  ⟨fun hexact hstale => h.inv.not_cancelExact hstale hexact, h.inv.cancelExact⟩

theorem cancelExact_sampleOrder :
    ∃ r, processOrder true 100001 new sampleOrder = some r ∧ CancelExact r.book (2 ^ 32) 7 := by
  obtain ⟨r, hrun, hreach⟩ := sampleOrder_run
  refine ⟨r, hrun, (cancelExact_iff hreach (2 ^ 32) 7).mpr ?_⟩
  exact not_staleMatch_of_ne_zero (by decide)

/-- The order of user 7 is cancelled twice: by its id, and once more through the stale node. -/
theorem sampleOrder_cancelled_twice : ∃ r b b',
    processOrder true 100001 new sampleOrder = some r ∧
    cancelOrder r.book (2 ^ 32) 7 = some (b, some { sampleOrder with id := 2 ^ 32 }) ∧
    cancelOrder b 0 7 = some (b', some { sampleOrder with id := 0 }) ∧
    Reachable b ∧ ¬ CancelExact b 0 7 := by
  obtain ⟨r, hrun, hreach⟩ := sampleOrder_run
  have houts : (do
      let r ← processOrder true 100001 new sampleOrder
      let (b, out) ← cancelOrder r.book (2 ^ 32) 7
      let (_, out') ← cancelOrder b 0 7
      some (out, out', decide (StaleMatch b 0 7)))
      = some (some { sampleOrder with id := 2 ^ 32 }, some { sampleOrder with id := 0 }, true) := by
    decide +kernel
  simp only [hrun, Option.bind_eq_bind, Option.bind_some] at houts
  obtain ⟨⟨b, out⟩, hcancel, houts⟩ := Option.bind_eq_some_iff.mp houts
  obtain ⟨⟨b', out'⟩, hcancel', houts⟩ := Option.bind_eq_some_iff.mp houts
  simp only [Option.some.injEq, Prod.mk.injEq, decide_eq_true_eq] at houts
  obtain ⟨rfl, rfl, hstale⟩ := houts
  have hreach' : Reachable b :=
    hreach.tail (Step.cancel (not_staleMatch_of_ne_zero (by decide)) hcancel)
  exact ⟨r, b, b', hrun, hcancel, hcancel', hreach', hreach'.inv.not_cancelExact hstale⟩

end OrderBook

end ExchangeEngine
