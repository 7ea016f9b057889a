import ExchangeEngine.OrderBook.Match

/-!
# Submitting an order to `OrderBook`

A submission pops a slot, matches the order under its new id, and links what is left of it behind
the tail of its level or gives the slot back. On the listed orders this is `Book.submit`.
-/

namespace ExchangeEngine

namespace OrderBook

open LinkedList

/-- The representation invariant, which holds between operations. -/
structure Inv (b : OrderBook) : Prop where
  slots : ∃ ix, Lists b ix [] ∧ Marks b (ordersOf b ix)
  valid : b.resting.Valid

variable {b b' : OrderBook} {ix : Slots} {held : List Nat} {s side : Bool} {p i : Nat}
  {o : Order}

/-- The listed orders are those of the levels, best price first. -/
lemma Lists.resting_eq (h : Lists b ix held) (s : Bool) :
    b.resting s = (Scan.positions s maxPrice).flatMap (ordersOf b ix s) := by
  apply List.flatMap_congr
  intro p hp
  exact h.queue_eq (Scan.mem_positions.mp hp)

/-! ### Resting an order -/

lemma addOrder_spec (h : Lists b ix [i]) (hm : Marks b (ordersOf b ix))
    (hid : o.id &&& 0xFFFFFFFF = i) (hprice : o.price < maxPrice) :
    ∃ b', addOrder side b o = some b' ∧ Linked b b' side i o ∧
      b'.tradeListener = b.tradeListener ∧
      Marks b' (setAt (ordersOf b ix) side o.price (ordersOf b ix side o.price ++ [o])) := by
  have hi : i < maxOrders := (h.free i (by simp)).1
  have hd := h.linked side o.price hprice
  have hout : ∀ s' p', i ∉ ix s' p' := fun s' p' hmem => h.not_free hmem (by simp)
  have hne : ordersOf b ix side o.price ++ [o] ≠ [] := by simp
  by_cases ht : ((b.half side).levels o.price).tailIdx = nullIdx
  · generalize hb : addOrder side b o = r
    simp only [addOrder, hid, level, hprice, ht, if_true, Pool.setOrder, Pool.setPrev,
      Pool.setNext, hi, Option.bind_eq_bind, Option.bind_some] at hb
    subst hb
    refine ⟨_, rfl, ⟨?_, ?_, ?_, ?_, ?_, ?_, ?_, ?_⟩, ?_, ?_⟩
    · intro j hj
      simp [setBit, next, hj, ht]
    · intro j hj
      simp [setBit, prev, hj]
    · simp [setBit, next]
    · simp [setBit, prev, ht]
    · intro j
      by_cases e : j = i <;> simp [setBit, orderAt, e]
    · intro s' p'
      simp [setBit, ht]
    · simp [setBit]
    · simp [setBit]
    · simp [setBit]
    · have hset : Marks (setBit side b o.price) (setAt (ordersOf b ix) side o.price
          (ordersOf b ix side o.price ++ [o])) := by
        apply hm.setBit hprice
        · rw [setAt_same]
          exact hne
        · exact fun _ _ e => setAt_of_ne e
      apply hset.of_bits
      intro s'
      simp [setBit]
  · have hfull : ix side o.price ≠ [] := fun e => ht (hd.tail_eq_null_iff.mpr e)
    have htail : ((b.half side).levels o.price).tailIdx ∈ ix side o.price := by
      rw [hd.tail_eq]
      exact getLastD_mem_of_ne_nil hfull
    have htlt := (h.slot _ _ _ htail).2
    have hti : ((b.half side).levels o.price).tailIdx ≠ i := fun e => hout _ _ (e ▸ htail)
    generalize hb : addOrder side b o = r
    simp only [addOrder, hid, level, hprice, ht, if_true, if_false, Pool.setOrder, Pool.setPrev,
      Pool.setNext, hi, htlt, Option.bind_eq_bind, Option.bind_some] at hb
    subst hb
    refine ⟨_, rfl, ⟨?_, ?_, ?_, ?_, ?_, ?_, ?_, ?_⟩, ?_, ?_⟩
    · intro j hj
      simp [next, hj, ht]
    · intro j hj
      simp [prev, hj]
    · simp [next, hti.symm]
    · simp [prev]
    · intro j
      by_cases e : j = i <;> simp [orderAt, e]
    · intro s' p'
      simp [ht]
    · simp
    · simp
    · simp
    · have hkeep : Marks b (setAt (ordersOf b ix) side o.price
          (ordersOf b ix side o.price ++ [o])) := by
        apply hm.congr
        intro s' p'
        by_cases e : s' = side ∧ p' = o.price
        · obtain ⟨rfl, rfl⟩ := e
          rw [setAt_same, ordersOf, List.map_eq_nil_iff]
          exact iff_of_false hne hfull
        · rw [setAt_of_ne e]
      apply hkeep.of_bits
      intro s'
      simp

/-- Appending an order to its level inserts it into the side in priority order. -/
lemma flatMap_setAt {Q : Queues} (hprice : ∀ p, ∀ r ∈ Q s p, r.price = p)
    (hp : o.price < maxPrice) :
    (Scan.positions s maxPrice).flatMap (setAt Q s o.price (Q s o.price ++ [o]) s)
      = Book.insert s o ((Scan.positions s maxPrice).flatMap (Q s)) := by
  obtain ⟨pre, post, hsplit, hpre, hpost⟩ := Scan.positions_split s hp
  have hkeep : ∀ l : List Nat, o.price ∉ l →
      l.flatMap (setAt Q s o.price (Q s o.price ++ [o]) s) = l.flatMap (Q s) := by
    intro l hl
    apply List.flatMap_congr
    intro p hp
    exact setAt_of_ne fun e => hl (e.2 ▸ hp)
  have hbefore : ∀ r ∈ pre.flatMap (Q s) ++ Q s o.price, ¬ Outranks s o.price r.price := by
    intro r hr
    rcases List.mem_append.mp hr with hr | hr
    · obtain ⟨p, hpp, hr⟩ := List.mem_flatMap.mp hr
      rw [hprice p r hr]
      exact (hpre p hpp).1.asymm
    · rw [hprice _ r hr]
      exact Scan.Before.irrefl _ _
  have hafter : ∀ r ∈ post.flatMap (Q s), Outranks s o.price r.price := by
    intro r hr
    obtain ⟨p, hpp, hr⟩ := List.mem_flatMap.mp hr
    rw [hprice p r hr]
    exact (hpost p hpp).1
  have hins := Book.insert_append hbefore hafter
  rw [List.append_assoc, List.append_assoc] at hins
  rw [hsplit, List.flatMap_append, List.flatMap_append, List.flatMap_cons, List.flatMap_cons,
    setAt_same, hkeep pre fun e => Scan.Before.irrefl _ _ (hpre _ e).1,
    hkeep post fun e => Scan.Before.irrefl _ _ (hpost _ e).1, hins, List.append_assoc,
    List.singleton_append]

/-! ### Ids -/

lemma makeId_eq {counter : Nat} (hc : counter < 2 ^ 32) (hi : i < maxOrders) :
    makeId counter i = counter * 2 ^ 32 + i := by
  have hi : i < 2 ^ 32 := by
    simp only [maxOrders] at hi
    omega
  rw [makeId, Nat.shiftLeft_eq, Nat.mod_eq_of_lt (by omega), Nat.mul_comm,
    Nat.two_pow_add_eq_or_of_lt hi]

lemma slot_of_id {k id : Nat} (hid : id = k * 2 ^ 32 + i) (hi : i < maxOrders) :
    id &&& 0xFFFFFFFF = i := by
  rw [show 0xFFFFFFFF = 2 ^ 32 - 1 from rfl, Nat.and_two_pow_sub_one_eq_mod]
  simp only [maxOrders] at hi
  omega

/-! ### Submission -/

/-- A popped slot, and a new value of the counter. -/
lemma Lists.pop {free : List Nat} (h : Lists b ix []) (hfree : b.freeIndices = i :: free) :
    Lists { b with orderIdCounter := b.orderIdCounter + 1, freeIndices := free } ix [i] where
  linked := h.linked
  count := h.count
  total := h.total
  slot := h.slot
  order := h.order
  id s p j hj := by
    obtain ⟨k, hk, hle, hid⟩ := h.id s p j hj
    exact ⟨k, hk, Nat.le_succ_of_le hle, hid⟩
  free_nodup := by simpa [hfree] using h.free_nodup
  free j hj := h.free j (by simpa [hfree] using hj)
  cover j hj := by simpa [hfree] using h.cover j hj

/-- A held slot given back. -/
lemma Lists.release (h : Lists b ix [i]) :
    Lists { b with freeIndices := i :: b.freeIndices } ix [] where
  linked := h.linked
  count := h.count
  total := h.total
  slot := h.slot
  order := h.order
  id := h.id
  free_nodup := h.free_nodup
  free := h.free
  cover := h.cover

/-- `r` is what submitting `o`, which carries its new id, does to the price-time-priority book. -/
structure Submitted (b : OrderBook) (o : Order) (r : Processed) : Prop where
  inv : Inv r.book
  counter : r.book.orderIdCounter = b.orderIdCounter + 1
  listener : r.book.tradeListener = b.tradeListener
  resting : r.book.resting = b.resting.submit o
  order : r.order = { o with quantity := b.resting.placed o }
  rejected : r.rejectedQty = b.resting.rejected o
  fills : r.fills = b.resting.fills o
  notified : r.notified = if b.tradeListener then r.fills else []

/-- Every resting order is older than the next one. -/
lemma Lists.id_lt {k : Nat} (h : Lists b ix held) (hk : b.orderIdCounter < k) (s : Bool)
    {r : Order} (hr : r ∈ b.resting s) : r.id < k * 2 ^ 32 + i := by
  rw [h.resting_eq, List.mem_flatMap] at hr
  obtain ⟨p, -, hr⟩ := hr
  obtain ⟨j, hj, rfl⟩ := List.mem_map.mp hr
  obtain ⟨k', -, hle, hid⟩ := h.id s p j hj
  have hjlt := (h.slot s p j hj).2
  simp only [maxOrders] at hjlt
  omega

lemma Lists.price (h : Lists b ix held) (s : Bool) (p : Nat) :
    ∀ r ∈ ordersOf b ix s p, r.price = p := by
  intro r hr
  obtain ⟨i, hi, rfl⟩ := List.mem_map.mp hr
  exact (h.order s p i hi).2.1

/-- Matching against the whole opposite side. -/
lemma matchOrder_spec {fuel : Nat} (h : Lists b ix held) (hm : Marks b (ordersOf b ix))
    (hfuel : maxOrders < fuel) :
    ∃ st ix' rejectedQty, matchOrder side fuel b o = some (st, rejectedQty) ∧
      ServedBook side held ⟨b, o, [], []⟩ st ix ix' (Scan.positions (!side) maxPrice)
        (b.resting (!side)) ∧
      (rejectedQty, st.incoming) = result o (crossingIn side o (b.resting (!side))) := by
  have hlen : (Scan.positions (!side) maxPrice).length < fuel := by
    rw [Scan.length_positions]
    exact hfuel
  obtain ⟨st, ix', rej, hrun, hserved, hres⟩ := @matchLoop_spec ix held side fuel fuel
    ⟨b, o, [], []⟩ [] (Scan.positions (!side) maxPrice) h hm rfl (by simp) hfuel hlen
  rw [← h.resting_eq (!side)] at hserved hres
  refine ⟨st, ix', rej, ?_, hserved, hres⟩
  rw [matchOrder, hm.getBest_eq]
  exact hrun

lemma processOrder_eq {fuel rej : Nat} {free : List Nat} {o' : Order} {b₀ : OrderBook}
    {st : MatchState} (hfree : b.freeIndices = i :: free) (hi : i < maxOrders)
    (hcounter : b.orderIdCounter + 1 < 2 ^ 32)
    (ho : { o with id := (b.orderIdCounter + 1) * 2 ^ 32 + i } = o')
    (hb₀ : { b with orderIdCounter := b.orderIdCounter + 1, freeIndices := free } = b₀)
    (hrun : matchOrder side fuel b₀ o' = some (st, rej)) :
    processOrder side fuel b o = (if 0 < st.incoming.quantity
      then addOrder side st.book st.incoming
      else some { st.book with freeIndices := i :: st.book.freeIndices }).bind fun book =>
        some ⟨book, st.incoming, rej, st.fills, st.notified⟩ := by
  have hcounter' : (b.orderIdCounter + 1) % 2 ^ 64 = b.orderIdCounter + 1 := by omega
  simp only [processOrder, hfree, hcounter', makeId_eq hcounter hi, ho, hb₀, hrun,
    Option.bind_eq_bind, Option.bind_some]
  split_ifs
  · rfl
  · rfl

/-- `o`, with the slot `i` and its new id, was matched, and `st` is left. -/
structure AfterMatch (b : OrderBook) (o : Order) (i : Nat) (st : MatchState) (ix' : Slots) :
    Prop where
  lists : Lists st.book ix' [i]
  marks : Marks st.book (ordersOf st.book ix')
  counter : st.book.orderIdCounter = b.orderIdCounter + 1
  listener : st.book.tradeListener = b.tradeListener
  own : (Scan.positions o.side maxPrice).flatMap (ordersOf st.book ix' o.side)
    = b.resting o.side
  opposite : (Scan.positions (!o.side) maxPrice).flatMap (ordersOf st.book ix' (!o.side))
    = b.resting.remaining o
  incoming : st.incoming = { o with quantity := b.resting.placed o }
  fills : st.fills = b.resting.fills o
  notified : st.notified = if b.tradeListener then st.fills else []

/-- Matching, once a slot was popped. -/
lemma Lists.afterMatch {fuel : Nat} {free : List Nat} (h : Lists b ix [])
    (hm : Marks b (ordersOf b ix)) (hfree : b.freeIndices = i :: free) (hfuel : maxOrders < fuel) :
    ∃ st ix', matchOrder o.side fuel
        { b with orderIdCounter := b.orderIdCounter + 1, freeIndices := free } o
        = some (st, b.resting.rejected o) ∧ AfterMatch b o i st ix' := by
  generalize hb₀ : { b with orderIdCounter := b.orderIdCounter + 1, freeIndices := free } = b₀
  have h₀ : Lists b₀ ix [i] := hb₀ ▸ h.pop hfree
  have hm₀ : Marks b₀ (ordersOf b₀ ix) := hb₀ ▸ hm
  have hQ₀ : ordersOf b₀ ix = ordersOf b ix := by rw [← hb₀]; rfl
  have hcount₀ : b₀.orderIdCounter = b.orderIdCounter + 1 := by rw [← hb₀]
  have hlisten₀ : b₀.tradeListener = b.tradeListener := by rw [← hb₀]
  have hrest : b₀.resting = b.resting := by
    funext s
    rw [h₀.resting_eq, hQ₀, h.resting_eq]
  obtain ⟨st, ix', rej, hrun, hserved, hres⟩ := @matchOrder_spec b₀ ix [i] o.side o fuel h₀ hm₀
    hfuel
  rw [hrest] at hserved hres
  have hres : (rej, st.incoming)
      = (b.resting.rejected o, { o with quantity := b.resting.placed o }) :=
    hres.trans (result_crossing b.resting o)
  obtain ⟨rfl, hin⟩ := Prod.mk.inj hres
  refine ⟨st, ix', hrun, hserved.lists, hserved.marks, hserved.counter.trans hcount₀,
    hserved.listener.trans hlisten₀, ?_, hserved.orders, hin, hserved.fills, ?_⟩
  · -- the side of the order is not touched by matching
    rw [h.resting_eq]
    refine List.flatMap_congr fun p _ => ?_
    rw [hserved.same _ _ fun e => by simp at e, hQ₀]
  · simp only [hserved.notified, hserved.fills, MatchState.emit, hlisten₀, List.nil_append]

/-- The book after `o` came to rest, or did not. -/
structure Rested (b : OrderBook) (o : Order) (st : MatchState) (ix' : Slots) (b₁ : OrderBook)
    (ix₁ : Slots) : Prop where
  lists : Lists b₁ ix₁ []
  marks : Marks b₁ (ordersOf b₁ ix₁)
  counter : b₁.orderIdCounter = st.book.orderIdCounter
  listener : b₁.tradeListener = st.book.tradeListener
  opposite : ∀ p, ordersOf b₁ ix₁ (!o.side) p = ordersOf st.book ix' (!o.side) p
  own : b₁.resting o.side = b.resting.submit o o.side

section Rested

variable {st : MatchState} {ix' ix₁ : Slots} {b₁ : OrderBook}

lemma Rested.submitted (hrested : Rested b o st ix' b₁ ix₁) (hmatched : AfterMatch b o i st ix')
    (hvalid : (b.resting.submit o).Valid) :
    Submitted b o ⟨b₁, st.incoming, b.resting.rejected o, st.fills, st.notified⟩ := by
  have hresting : b₁.resting = b.resting.submit o := by
    funext s
    by_cases hs : s = o.side
    · rw [hs, hrested.own]
    · rw [Bool.eq_not_of_ne hs, Book.submit_opposite, hrested.lists.resting_eq,
        List.flatMap_congr fun p _ => hrested.opposite p]
      exact hmatched.opposite
  refine ⟨⟨⟨ix₁, hrested.lists, hrested.marks⟩, hresting ▸ hvalid⟩, ?_, ?_, hresting,
    hmatched.incoming, rfl, hmatched.fills, hmatched.notified⟩
  · rw [hrested.counter, hmatched.counter]
  · rw [hrested.listener, hmatched.listener]

/-- An order of which nothing is placed gives its slot back. -/
lemma AfterMatch.rested_of_gone (hmatched : AfterMatch b o i st ix')
    (hplaced : b.resting.placed o = 0) :
    Rested b o st ix' { st.book with freeIndices := i :: st.book.freeIndices } ix' := by
  refine ⟨hmatched.lists.release, hmatched.marks, rfl, rfl, fun _ => rfl, ?_⟩
  rw [Book.submit_same, if_pos hplaced, ← hmatched.own]
  exact hmatched.lists.release.resting_eq _

/-- What is placed is linked behind the tail of its level. -/
lemma AfterMatch.rested_of_added (hmatched : AfterMatch b o i st ix') (hi : i < maxOrders)
    (hid : o.id = (b.orderIdCounter + 1) * 2 ^ 32 + i) (hprice : o.price < maxPrice)
    (hplaced : b.resting.placed o ≠ 0) :
    ∃ b₁ ix₁, addOrder o.side st.book st.incoming = some b₁ ∧ Rested b o st ix' b₁ ix₁ := by
  have hinprice : st.incoming.price < maxPrice := by rw [hmatched.incoming]; exact hprice
  have hinid : st.incoming.id = (b.orderIdCounter + 1) * 2 ^ 32 + i := by
    rw [hmatched.incoming]
    exact hid
  have hpos : 0 < st.incoming.quantity := by
    rw [hmatched.incoming]
    exact Nat.pos_of_ne_zero hplaced
  obtain ⟨b₁, hb₁, hl, hlisten, hm₁⟩ := @addOrder_spec st.book ix' o.side i st.incoming
    hmatched.lists hmatched.marks (slot_of_id hinid hi) hinprice
  have hside : st.incoming.side = o.side := by rw [hmatched.incoming]
  have h₁ := hmatched.lists.link hl hside hinprice hpos
    ⟨_, Nat.succ_pos _, by rw [hmatched.counter], hinid⟩
  have horders := hl.ordersOf_eq hmatched.lists
  refine ⟨b₁, _, hb₁, h₁, horders ▸ hm₁, hl.counter, hlisten, ?_, ?_⟩
  · intro p
    rw [horders, setAt_of_ne fun e => by simp at e]
  · rw [h₁.resting_eq, horders, flatMap_setAt (hmatched.lists.price _) hinprice, hmatched.own,
      Book.submit_same, if_neg hplaced, hmatched.incoming]

end Rested

/-- **A gated submission** never runs into undefined behaviour, ends within the given fuel, and
does to the listed orders what `Book.submit` does. -/
theorem processOrder_spec {fuel : Nat} (hinv : Inv b) (hcan : canProcessOrder b o = true)
    (hcounter : b.orderIdCounter + 1 < 2 ^ 32) (hfuel : maxOrders < fuel) :
    ∃ r, processOrder o.side fuel b o = some r ∧
      ∃ i < maxOrders, b.freeIndices.head? = some i ∧
        Submitted b { o with id := (b.orderIdCounter + 1) * 2 ^ 32 + i } r := by
  obtain ⟨⟨ix, h, hm⟩, hvalid⟩ := hinv
  obtain ⟨hprice, hfree⟩ : o.price < maxPrice ∧ b.freeIndices ≠ [] := by
    simpa [canProcessOrder] using hcan
  obtain ⟨i, free, hfree⟩ := List.exists_cons_of_ne_nil hfree
  have hi : i < maxOrders := (h.free i (by simp [hfree])).1
  generalize ho : { o with id := (b.orderIdCounter + 1) * 2 ^ 32 + i } = o'
  have hoid : o'.id = (b.orderIdCounter + 1) * 2 ^ 32 + i := by rw [← ho]
  have hoprice : o'.price < maxPrice := by rw [← ho]; exact hprice
  have hoside : o.side = o'.side := by rw [← ho]
  have hvalid' : (b.resting.submit o').Valid := hvalid.submit hoprice fun s r hr => by
    rw [hoid]
    exact h.id_lt (Nat.lt_succ_self _) s hr
  obtain ⟨st, ix', hrun, hmatched⟩ := h.afterMatch (o := o') hm hfree hfuel
  suffices hrun' : ∃ r, processOrder o.side fuel b o = some r ∧ Submitted b o' r by
    obtain ⟨r, hr, hsub⟩ := hrun'
    exact ⟨r, hr, i, hi, by simp [hfree], ho ▸ hsub⟩
  rw [hoside, processOrder_eq hfree hi hcounter ho rfl hrun]
  by_cases hplaced : b.resting.placed o' = 0
  · rw [if_neg (by simp [hmatched.incoming, hplaced])]
    exact ⟨_, rfl, (hmatched.rested_of_gone hplaced).submitted hmatched hvalid'⟩
  · obtain ⟨b₁, ix₁, hadd, hrested⟩ := hmatched.rested_of_added hi hoid hoprice hplaced
    have hpos : 0 < st.incoming.quantity := by
      rw [hmatched.incoming]
      exact Nat.pos_of_ne_zero hplaced
    rw [if_pos hpos, hadd]
    exact ⟨_, rfl, hrested.submitted hmatched hvalid'⟩

end OrderBook

end ExchangeEngine
