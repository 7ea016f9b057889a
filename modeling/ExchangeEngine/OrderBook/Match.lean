import ExchangeEngine.OrderBook.Update
import ExchangeEngine.Serving

/-!
# Matching on `OrderBook`

The inner loop serves the incoming order from the queue of one level, the outer loop from the
levels in priority order; both end after at most one pass more than there are orders or prices.
What they leave in the lists is what `Consume.left` leaves of the queues.
-/

namespace ExchangeEngine

namespace OrderBook

open LinkedList

variable {b b' : OrderBook} {ix : Slots} {held : List Nat} {s side : Bool} {p i q best : Nat}
  {l : List Nat}

/-! ### One fill -/

/-- A fill that takes all of the resting order releases its slot. -/
lemma fill_all (h : Lists b ix held) (hix : ix s p = i :: l)
    (hq : (b.orderAt i).quantity = q) :
    ∃ b', fill s p b i q = some b' ∧ Unlinked b b' s p i ∧ Frame b b' := by
  have hmem : i ∈ ix s p := by simp [hix]
  obtain ⟨hp, hi⟩ := h.slot s p i hmem
  have hd := h.linked s p hp
  rw [hix] at hd
  have hix' : ix s p = [] ++ i :: l := hix
  have hd' : DList _ _ _ _ _ ([] ++ i :: l) := hd
  have hprev : (b.nodePool i).prevIdx = nullIdx := hd'.links.1
  have hhead : ((b.half s).levels p).headIdx = i := hd.head_eq
  have hnext : (b.nodePool i).nextIdx ≠ nullIdx → (b.nodePool i).nextIdx ∈ l :=
    (h.neighbour_mem hix').2
  have hnd := h.nodup s p
  rw [hix, List.nodup_cons] at hnd
  have hq' : (b.nodePool i).order.quantity - q = 0 := by
    rw [← hq]
    exact Nat.sub_self _
  have hq'' : (b.nodePool i).order.quantity = q := hq
  by_cases hn : (b.nodePool i).nextIdx = nullIdx
  · generalize hb : fill s p b i q = r
    simp only [fill, level, hp, Pool.setOrder, hi, hq', hn, if_true, Option.bind_eq_bind,
      Option.bind_some, Pool.withOrder_order, Pool.withOrder_nextIdx, ne_eq, not_true_eq_false,
      if_false] at hb
    subst hb
    refine ⟨_, rfl, ⟨?_, ?_, ?_, ?_, ?_, ?_, ?_⟩, ⟨?_, ?_, ?_⟩⟩
    · intro j _
      simp [next, prev, hprev]
    · intro j _
      simp [next, prev, hn]
    · intro j hj
      simp [orderAt, hj]
    · simp [orderAt]
    · intro s' p'
      simp [next, prev, orderAt, hprev, hn, hq'']
    all_goals simp
  · have hnlt : (b.nodePool i).nextIdx < maxOrders :=
      (h.slot s p _ (by simp [hix, hnext hn])).2
    generalize hb : fill s p b i q = r
    simp only [fill, level, hp, Pool.setOrder, Pool.setPrev, hi, hq', hn, hnlt, if_true,
      Option.bind_eq_bind, Option.bind_some, Pool.withOrder_order, Pool.withOrder_nextIdx, ne_eq,
      not_false_eq_true] at hb
    subst hb
    refine ⟨_, rfl, ⟨?_, ?_, ?_, ?_, ?_, ?_, ?_⟩, ⟨?_, ?_, ?_⟩⟩
    · intro j _
      simp [next, prev, hprev]
    · intro j _
      simp [next, prev, hprev, hn]
    · intro j hj
      simp [orderAt, hj]
    · simp [orderAt]
    · intro s' p'
      simp [next, prev, orderAt, hprev, hn, hq'']
    all_goals simp

/-- A fill that leaves something of the resting order keeps its slot at the head. -/
lemma fill_part (h : Lists b ix held) (hmem : i ∈ ix s p) (hq : q < (b.orderAt i).quantity) :
    ∃ b', fill s p b i q = some b' ∧ Reduced b b' s p i q ∧ Frame b b' := by
  obtain ⟨hp, hi⟩ := h.slot s p i hmem
  have hq' : (b.nodePool i).order.quantity - q ≠ 0 := Nat.sub_ne_zero_of_lt hq
  generalize hb : fill s p b i q = r
  simp only [fill, level, hp, Pool.setOrder, hi, hq', if_true, if_false, Option.bind_eq_bind,
    Option.bind_some, Pool.withOrder_order] at hb
  subst hb
  refine ⟨_, rfl, ⟨?_, ?_, ?_, ?_, ?_, ?_⟩, ⟨?_, ?_, ?_⟩⟩
  · intro j
    simp [next]
  · intro j
    simp [prev]
  · intro j
    simp [orderAt, Order.reduce]
  · intro s' p'
    simp
  all_goals simp

/-! ### The level at the best price -/

/-- The trades handed to the listener, which may be absent. -/
def MatchState.emit (s : MatchState) (trades : List Trade) : List Trade :=
  if s.book.tradeListener then s.notified ++ trades else s.notified

/-- `st'` is reached from `st` by serving the queue `L` of level `(!side, best)`. -/
structure ServedLevel (side : Bool) (best : Nat) (held : List Nat) (st st' : MatchState)
    (ix ix' : Slots) (L : List Order) : Prop where
  lists : Lists st'.book ix' held
  frame : Frame st.book st'.book
  orders : ordersOf st'.book ix'
    = setAt (ordersOf st.book ix) (!side) best (leftOf st.incoming L)
  fills : st'.fills = st.fills ++ tradesOf side best st.incoming L
  notified : st'.notified = st.emit (tradesOf side best st.incoming L)

lemma ServedLevel.unchanged {st : MatchState} {L : List Order} {o : Order}
    (h : Lists st.book ix held) (hL : ordersOf st.book ix (!side) best = L)
    (hleft : leftOf st.incoming L = L) (htrades : tradesOf side best st.incoming L = []) :
    ServedLevel side best held st { st with incoming := o } ix ix L := by
  refine ⟨h, Frame.refl _, ?_, ?_, ?_⟩
  · rw [hleft, ← hL, setAt_self]
  · rw [htrades, List.append_nil]
  · rw [htrades, MatchState.emit, List.append_nil, ite_self]

/-- One fill, followed by serving what it left of the queue. -/
lemma ServedLevel.cons {st st₁ st' : MatchState} {ix₁ ix' : Slots} {L L₁ : List Order}
    {t : Trade} (h : ServedLevel side best held st₁ st' ix₁ ix' L₁)
    (hframe : Frame st.book st₁.book)
    (horders : ordersOf st₁.book ix₁ = setAt (ordersOf st.book ix) (!side) best L₁)
    (hleft : leftOf st.incoming L = leftOf st₁.incoming L₁)
    (htrades : tradesOf side best st.incoming L = t :: tradesOf side best st₁.incoming L₁)
    (hfills : st₁.fills = st.fills ++ [t]) (hnotified : st₁.notified = st.emit [t]) :
    ServedLevel side best held st st' ix ix' L := by
  refine ⟨h.lists, hframe.trans h.frame, ?_, ?_, ?_⟩
  · rw [h.orders, horders, setAt_setAt, hleft]
  · rw [h.fills, hfills, htrades, List.append_assoc, List.singleton_append]
  · rw [h.notified, htrades, MatchState.emit, MatchState.emit, hnotified, hframe.listener,
      MatchState.emit]
    split_ifs
    · rw [List.append_assoc, List.singleton_append]
    · rfl

/-- One pass of the inner loop over a non-empty level. -/
lemma matchLevel_step {fuel : Nat} {st : MatchState} (hbest : best < maxPrice)
    (hhead : ((st.book.half (!side)).levels best).headIdx = i) (hnull : i ≠ nullIdx)
    (hi : i < maxOrders) (hn : st.incoming.quantity ≠ 0) {q : Nat} {t : Trade}
    (hq : min st.incoming.quantity (st.book.orderAt i).quantity = q)
    (ht : tradeOf side st.incoming (st.book.orderAt i) best q = t) :
    matchLevel side best (fuel + 1) st =
      if st.incoming.userId = (st.book.orderAt i).userId then
        some ({ st with incoming := { st.incoming with quantity := 0 } },
          some st.incoming.quantity)
      else (fill (!side) best st.book i q).bind fun book =>
        matchLevel side best fuel
          ⟨book, st.incoming.reduce q, st.fills ++ [t], st.emit [t]⟩ := by
  subst hq ht
  simp only [matchLevel, level, hbest, if_true, Option.bind_eq_bind, Option.bind_some, hhead,
    Nat.pos_of_ne_zero hn, hnull, ne_eq, not_false_eq_true, and_self, Pool.read, hi]
  rfl

lemma matchLevel_zero {fuel : Nat} {st : MatchState} (hbest : best < maxPrice)
    (hn : st.incoming.quantity = 0) : matchLevel side best (fuel + 1) st = some (st, none) := by
  simp [matchLevel, level, hbest, hn]

/-- A head that covers the incoming order is reduced, and nothing more is served. -/
lemma ServedLevel.covered {st : MatchState} {b' : OrderBook} {t : Trade}
    (h : Lists st.book ix held) (hix : ix (!side) best = [] ++ i :: l)
    (hn : st.incoming.quantity ≠ 0) (hstop : sameOwner st.incoming (st.book.orderAt i) = false)
    (hlt : st.incoming.quantity < (st.book.orderAt i).quantity)
    (hr : Reduced st.book b' (!side) best i st.incoming.quantity) (hf : Frame st.book b')
    (ht : tradeOf side st.incoming (st.book.orderAt i) best st.incoming.quantity = t) :
    ServedLevel side best held st
      ⟨b', st.incoming.reduce st.incoming.quantity, st.fills ++ [t], st.emit [t]⟩ ix ix
      (st.book.orderAt i :: l.map st.book.orderAt) := by
  have hz : (st.incoming.reduce st.incoming.quantity).quantity = 0 := Nat.sub_self _
  have horders := hr.ordersOf_eq h hix
  have hrest : ServedLevel side best held
      ⟨b', st.incoming.reduce st.incoming.quantity, st.fills ++ [t], st.emit [t]⟩
      ⟨b', st.incoming.reduce st.incoming.quantity, st.fills ++ [t], st.emit [t]⟩ ix ix
      ((st.book.orderAt i).reduce st.incoming.quantity :: l.map st.book.orderAt) :=
    ServedLevel.unchanged (h.reduce hix hr hlt) (horders ▸ setAt_same _ _ _ _)
      (leftOf_of_zero hz) (tradesOf_of_zero hz)
  apply hrest.cons hf horders
  · rw [leftOf_of_zero hz]
    exact leftOf_cons_of_lt hstop hn hlt
  · rw [tradesOf_cons hstop hn, Nat.min_eq_left hlt.le, ht, tradesOf_of_zero hz,
      tradesOf_of_zero (Nat.sub_eq_zero_of_le hlt.le)]
  · rfl
  · rfl

/-- **The inner loop** serves the incoming order from the queue of the level. -/
lemma matchLevel_spec {fuel : Nat} {st : MatchState} (h : Lists st.book ix held)
    (hbest : best < maxPrice) (hix : ix (!side) best = l) (hfuel : l.length < fuel) :
    ∃ st' ix' stop, matchLevel side best fuel st = some (st', stop) ∧
      ServedLevel side best held st st' ix ix' (l.map st.book.orderAt) ∧
      (stop, st'.incoming) = outcome st.incoming (l.map st.book.orderAt) := by
  induction l generalizing st ix fuel with
  | nil =>
    obtain ⟨fuel, rfl⟩ := Nat.exists_eq_add_one_of_ne_zero (Nat.ne_zero_of_lt hfuel)
    have hhead := (h.linked (!side) best hbest).head_eq_null_iff.mpr hix
    refine ⟨st, ix, none, ?_, ?_, ?_⟩
    · simp [matchLevel, level, hbest, hhead]
    · exact ServedLevel.unchanged h (by simp [ordersOf, hix]) rfl rfl
    · rw [List.map_nil, outcome_nil]
  | cons i l ih =>
    obtain ⟨fuel, rfl⟩ := Nat.exists_eq_add_one_of_ne_zero (Nat.ne_zero_of_lt hfuel)
    rw [List.length_cons] at hfuel
    have hix' : ix (!side) best = [] ++ i :: l := hix
    have hmem : i ∈ ix (!side) best := by simp [hix]
    have hi := (h.slot _ _ i hmem).2
    have hd := h.linked (!side) best hbest
    have hhead : ((st.book.half (!side)).levels best).headIdx = i := by
      rw [hd.head_eq, hix]
      rfl
    have hnull : i ≠ nullIdx := hd.ne_null i hmem
    have hL : ordersOf st.book ix (!side) best = (i :: l).map st.book.orderAt := by
      rw [ordersOf, hix]
    rw [List.map_cons] at hL ⊢
    by_cases hn : st.incoming.quantity = 0
    · refine ⟨st, ix, none, matchLevel_zero hbest hn, ?_, ?_⟩
      · exact ServedLevel.unchanged h hL (leftOf_of_zero hn) (tradesOf_of_zero hn)
      · rw [outcome_of_zero hn]
    rw [matchLevel_step hbest hhead hnull hi hn rfl rfl]
    by_cases hown : st.incoming.userId = (st.book.orderAt i).userId
    · have hstop : sameOwner st.incoming (st.book.orderAt i) = true := by simp [sameOwner, hown]
      rw [if_pos hown]
      refine ⟨_, ix, _, rfl, ?_, ?_⟩
      · apply ServedLevel.unchanged h hL
        · exact Consume.left_cons_of_stop hstop
        · rw [tradesOf, Consume.served_cons_of_stop hstop, List.map_nil]
      · rw [outcome_cons_of_stop hstop hn]
    have hstop : sameOwner st.incoming (st.book.orderAt i) = false := by simp [sameOwner, hown]
    rw [if_neg hown]
    rcases Nat.lt_or_ge st.incoming.quantity (st.book.orderAt i).quantity with hlt | hle
    · -- the resting order covers the incoming one, and the next pass ends the loop
      obtain ⟨b', hb', hr, hf⟩ := fill_part h hmem hlt
      obtain ⟨fuel, rfl⟩ := Nat.exists_eq_add_one_of_ne_zero
        (Nat.ne_zero_of_lt (Nat.lt_of_succ_lt_succ hfuel))
      rw [Nat.min_eq_left hlt.le, hb', Option.bind_some]
      refine ⟨_, ix, none, matchLevel_zero hbest (Nat.sub_self _),
        ServedLevel.covered h hix' hn hstop hlt hr hf rfl, ?_⟩
      rw [outcome_cons_of_lt hstop hlt]
    · -- the resting order is consumed, and the loop goes on with the rest of the level
      obtain ⟨b', hb', hu, hf⟩ := fill_all h hix rfl
      have hnd := h.nodup (!side) best
      rw [hix, List.nodup_cons] at hnd
      have hmap : l.map b'.orderAt = l.map st.book.orderAt := by
        apply List.map_congr_left
        intro j hj
        apply hu.order
        rintro rfl
        exact hnd.1 hj
      rw [Nat.min_eq_right hle, hb', Option.bind_some]
      obtain ⟨st', ix', stop, hrun, hserved, hout⟩ := @ih _ fuel
        ⟨b', st.incoming.reduce (st.book.orderAt i).quantity, st.fills ++ [_], st.emit [_]⟩
        (h.unlink hix' hu) (setAt_same _ _ _ _) (Nat.lt_of_succ_lt_succ hfuel)
      rw [hmap] at hserved hout
      refine ⟨st', ix', stop, hrun, hserved.cons hf ?_ ?_ ?_ rfl rfl, ?_⟩
      · exact hu.ordersOf_eq h hix'
      · exact leftOf_cons_of_le hstop hn hle
      · rw [tradesOf_cons hstop hn, Nat.min_eq_right hle]
      · rw [hout, outcome_cons_of_le hstop]

/-! ### The levels in priority order -/

/-- `st'` is reached from `st` by serving the levels `ps` of the side opposite to `side`, whose
orders were `L`. -/
structure ServedBook (side : Bool) (held : List Nat) (st st' : MatchState) (ix ix' : Slots)
    (ps : List Nat) (L : List Order) : Prop where
  lists : Lists st'.book ix' held
  marks : Marks st'.book (ordersOf st'.book ix')
  counter : st'.book.orderIdCounter = st.book.orderIdCounter
  listener : st'.book.tradeListener = st.book.tradeListener
  same : ∀ s p, ¬ (s = !side ∧ p ∈ ps) → ordersOf st'.book ix' s p = ordersOf st.book ix s p
  orders : ps.flatMap (ordersOf st'.book ix' (!side))
    = leftOf st.incoming (crossingIn side st.incoming L) ++ standingIn side st.incoming L
  fills : st'.fills = st.fills ++ bookTrades side st.incoming (crossingIn side st.incoming L)
  notified : st'.notified
    = st.emit (bookTrades side st.incoming (crossingIn side st.incoming L))

lemma ServedBook.unchanged {st : MatchState} {ps : List Nat} {L : List Order}
    (h : Lists st.book ix held) (hm : Marks st.book (ordersOf st.book ix))
    (hL : ps.flatMap (ordersOf st.book ix (!side)) = L)
    (horders : leftOf st.incoming (crossingIn side st.incoming L)
      ++ standingIn side st.incoming L = L)
    (htrades : bookTrades side st.incoming (crossingIn side st.incoming L) = []) :
    ServedBook side held st st ix ix ps L := by
  refine ⟨h, hm, rfl, rfl, fun _ _ _ => rfl, ?_, ?_, ?_⟩
  · rw [horders, hL]
  · rw [htrades, List.append_nil]
  · rw [htrades, MatchState.emit, List.append_nil, ite_self]

/-- An empty level in front changes nothing. -/
lemma ServedBook.skip {st st' : MatchState} {ix' : Slots} {ps : List Nat} {L : List Order}
    (h : ServedBook side held st st' ix ix' ps L) (hp : p ∉ ps)
    (hnil : ordersOf st.book ix (!side) p = []) :
    ServedBook side held st st' ix ix' (p :: ps) L := by
  refine ⟨h.lists, h.marks, h.counter, h.listener, ?_, ?_, h.fills, h.notified⟩
  · intro s' p' hne
    exact h.same s' p' fun e => hne ⟨e.1, List.mem_cons_of_mem _ e.2⟩
  · rw [List.flatMap_cons, h.same _ _ fun e => hp e.2, hnil, List.nil_append, h.orders]

/-- A level of which something is left keeps its bit. -/
lemma ServedLevel.marks_of_left {st st' : MatchState} {ix' : Slots} {L : List Order}
    (h : ServedLevel side p held st st' ix ix' L) (hm : Marks st.book (ordersOf st.book ix))
    (hL : ordersOf st.book ix (!side) p = L) (hne : L ≠ []) (hleft : leftOf st.incoming L ≠ []) :
    Marks st'.book (ordersOf st'.book ix') := by
  apply (h.frame.marks hm).congr
  intro s' p'
  rw [h.orders]
  by_cases e : s' = !side ∧ p' = p
  · obtain ⟨rfl, rfl⟩ := e
    rw [setAt_same, hL]
    exact iff_of_false hleft hne
  · rw [setAt_of_ne e]

/-- Serving that ends within the first level leaves the other levels alone. -/
lemma ServedBook.of_ends {st st' : MatchState} {ix' : Slots} {ps : List Nat} {L L' : List Order}
    (hm : Marks st.book (ordersOf st.book ix)) (hp : p ∉ ps)
    (h : ServedLevel side p held st st' ix ix' L) (hL : ordersOf st.book ix (!side) p = L)
    (hne : L ≠ []) (hleft : leftOf st.incoming L ≠ []) (hends : Ends st.incoming L)
    (hcross : ∀ r ∈ L, crosses side st.incoming.price r.price = true)
    (hprice : ∀ r ∈ L, r.price = p) (hL' : ps.flatMap (ordersOf st.book ix (!side)) = L')
    (hsplit : crossingIn side st.incoming L' ++ standingIn side st.incoming L' = L') :
    ServedBook side held st st' ix ix' (p :: ps) (L ++ L') := by
  have hother : ∀ s' p', ¬ (s' = !side ∧ p' = p) →
      ordersOf st'.book ix' s' p' = ordersOf st.book ix s' p' := by
    intro s' p' e
    rw [h.orders, setAt_of_ne e]
  have htrades : bookTrades side st.incoming (crossingIn side st.incoming (L ++ L'))
      = tradesOf side p st.incoming L := by
    rw [crossingIn_append hcross, bookTrades_append_of_ends hends, tradesOf_eq_bookTrades hprice]
  refine ⟨h.lists, h.marks_of_left hm hL hne hleft, h.frame.counter, h.frame.listener, ?_, ?_, ?_,
    ?_⟩
  · intro s' p' hne'
    exact hother s' p' fun e => hne' ⟨e.1, e.2 ▸ List.mem_cons_self⟩
  · have hrest : ps.flatMap (ordersOf st'.book ix' (!side)) = L' := by
      rw [← hL']
      apply List.flatMap_congr
      intro p' hp'
      exact hother _ _ fun e => hp (e.2 ▸ hp')
    rw [List.flatMap_cons, hrest, h.orders, setAt_same, crossingIn_append hcross,
      standingIn_append hcross, leftOf_append_of_ends hends, List.append_assoc, hsplit]
  · rw [h.fills, htrades]
  · rw [h.notified, htrades]

/-- Serving a level to the end, and then the levels behind it. -/
lemma ServedBook.cons {st st₁ st' : MatchState} {ix₁ ix' : Slots} {ps : List Nat}
    {L L' : List Order} {m : Bitmap} (hp : p ∉ ps)
    (h : ServedLevel side p held st st₁ ix ix₁ L)
    (h' : ServedBook side held { st₁ with book := st₁.book.setBits (!side) m } st' ix₁ ix' ps L')
    (hblocked : blockedOf st.incoming L = []) (hleft : leftOf st.incoming L = [])
    (hin : st₁.incoming = { st.incoming with quantity := shortOf st.incoming L })
    (hcross : ∀ r ∈ L, crosses side st.incoming.price r.price = true)
    (hprice : ∀ r ∈ L, r.price = p) :
    ServedBook side held st st' ix ix' (p :: ps) (L ++ L') := by
  have hsame : ∀ s' p', ¬ (s' = !side ∧ p' ∈ ps) →
      ordersOf st'.book ix' s' p' = ordersOf st₁.book ix₁ s' p' := by
    intro s' p' e
    rw [h'.same s' p' e, ordersOf_setBits]
  have hcrossing : crossingIn side st₁.incoming L' = crossingIn side st.incoming L' := by
    rw [hin]
  have hstanding : standingIn side st₁.incoming L' = standingIn side st.incoming L' := by
    rw [hin]
  have htrades : bookTrades side st.incoming (crossingIn side st.incoming (L ++ L'))
      = tradesOf side p st.incoming L
        ++ bookTrades side st₁.incoming (crossingIn side st₁.incoming L') := by
    rw [hcrossing, hin, crossingIn_append hcross, tradesOf_eq_bookTrades hprice, bookTrades,
      Consume.served_append hblocked, List.map_append]
    rfl
  refine ⟨h'.lists, h'.marks, ?_, ?_, ?_, ?_, ?_, ?_⟩
  · rw [h'.counter, orderIdCounter_setBits, h.frame.counter]
  · rw [h'.listener, tradeListener_setBits, h.frame.listener]
  · intro s' p' hne
    rw [hsame s' p' fun e => hne ⟨e.1, List.mem_cons_of_mem _ e.2⟩, h.orders, setAt_of_ne]
    exact fun e => hne ⟨e.1, e.2 ▸ List.mem_cons_self⟩
  · rw [List.flatMap_cons, hsame _ _ fun e => hp e.2, h.orders, setAt_same, hleft,
      List.nil_append, h'.orders, crossingIn_append hcross, standingIn_append hcross,
      leftOf_append hblocked, hleft, List.nil_append, hin]
  · rw [h'.fills, htrades, h.fills, List.append_assoc]
  · rw [h'.notified, htrades, MatchState.emit, MatchState.emit, tradeListener_setBits,
      h.frame.listener, h.notified, MatchState.emit]
    split_ifs
    · rw [List.append_assoc]
    · rfl

/-- The queues of the levels `ps`, listed in scanning order, are sorted by priority. -/
lemma Lists.priority (h : Lists b ix held) {ps : List Nat} (hps : ps.Pairwise (Scan.Before s)) :
    (ps.flatMap (ordersOf b ix s)).Pairwise fun x y => ¬ Outranks s y.price x.price := by
  have hprice : ∀ p, ∀ r ∈ ordersOf b ix s p, r.price = p := by
    intro p r hr
    obtain ⟨i, hi, rfl⟩ := List.mem_map.mp hr
    exact (h.order s p i hi).2.1
  rw [List.pairwise_flatMap]
  constructor
  · intro p _
    rw [List.pairwise_iff_forall_sublist]
    intro x y hxy
    rw [hprice p x (hxy.subset (by simp)), hprice p y (hxy.subset (by simp))]
    exact Scan.Before.irrefl _ _
  · apply hps.imp
    intro p q hpq x hx y hy
    rw [hprice p x hx, hprice q y hy]
    exact hpq.asymm

lemma matchLoop_zero {lf fuel : Nat} {st : MatchState} (hn : st.incoming.quantity = 0) :
    matchLoop side lf (fuel + 1) best st = some (st, 0) := by
  simp [matchLoop, hn]

/-- The pass of the outer loop in which an own order is reached. -/
lemma matchLoop_stop {lf fuel q : Nat} {st st₁ : MatchState} (hn : st.incoming.quantity ≠ 0)
    (hbest : best < maxPrice) (hcross : crosses side st.incoming.price best = true)
    (hrun : matchLevel side best lf st = some (st₁, some q)) :
    matchLoop side lf (fuel + 1) best st = some (st₁, q) := by
  rw [matchLoop, if_pos ⟨Nat.pos_of_ne_zero hn, ne_nullIdx hbest, hcross⟩, hrun]
  rfl

/-- The pass of the outer loop that goes on to the next level. -/
lemma matchLoop_next {lf fuel best' : Nat} {st st₁ : MatchState} {book : OrderBook}
    (hn : st.incoming.quantity ≠ 0) (hbest : best < maxPrice)
    (hcross : crosses side st.incoming.price best = true)
    (hrun : matchLevel side best lf st = some (st₁, none))
    (hbook : (if ((st₁.book.half (!side)).levels best).orderCount = 0
      then clearBit (!side) st₁.book best else st₁.book) = book)
    (hbest' : getBest (!side) book = some best') :
    matchLoop side lf (fuel + 1) best st
      = matchLoop side lf fuel best' { st₁ with book := book } := by
  rw [matchLoop, if_pos ⟨Nat.pos_of_ne_zero hn, ne_nullIdx hbest, hcross⟩, hrun]
  simp only [Option.bind_eq_bind, Option.bind_some, level, hbest, if_true, hbook, hbest']

section Loop

variable {lf fuel : Nat} {st st₁ : MatchState} {ix₁ : Slots} {pre ps : List Nat}
  {L L' : List Order} {stop : Option Nat}

/-- The outer loop serves the incoming order from the levels `ps`, which begin with the best one. -/
def LoopServes (side : Bool) (held : List Nat) (lf fuel : Nat) (st : MatchState) (ix : Slots)
    (ps : List Nat) : Prop :=
  ∃ st' ix' rejectedQty,
    matchLoop side lf fuel (bestOf (ordersOf st.book ix) (!side)) st = some (st', rejectedQty) ∧
    ServedBook side held st st' ix ix' ps (ps.flatMap (ordersOf st.book ix (!side))) ∧
    (rejectedQty, st'.incoming) = result st.incoming
      (crossingIn side st.incoming (ps.flatMap (ordersOf st.book ix (!side))))

/-- What the outer loop finds: `p` is the best level, with the orders `L`, and those of the levels
`ps` behind it are `L'`. -/
structure BestLevel (side : Bool) (st : MatchState) (ix : Slots) (p : Nat) (ps : List Nat)
    (L L' : List Order) : Prop where
  orders : ordersOf st.book ix (!side) p = L
  rest : ps.flatMap (ordersOf st.book ix (!side)) = L'
  best : bestOf (ordersOf st.book ix) (!side) = p
  lt : p < maxPrice
  notMem : p ∉ ps
  ne_nil : L ≠ []
  price : ∀ r ∈ L, r.price = p
  pos : ∀ r ∈ L, 0 < r.quantity
  priority : (L ++ L').Pairwise fun x y => ¬ Outranks (!side) y.price x.price

lemma Lists.bestLevel (h : Lists st.book ix held)
    (hps : Scan.positions (!side) maxPrice = pre ++ p :: ps)
    (hpre : ∀ q ∈ pre, ix (!side) q = []) (hne : ix (!side) p ≠ []) :
    BestLevel side st ix p ps (ordersOf st.book ix (!side) p)
      (ps.flatMap (ordersOf st.book ix (!side))) := by
  have hnd := Scan.nodup_positions (!side) maxPrice
  have hsorted := Scan.pairwise_positions (!side) maxPrice
  rw [hps] at hnd hsorted
  have hne' : ordersOf st.book ix (!side) p ≠ [] := by
    rw [ordersOf, ne_eq, List.map_eq_nil_iff]
    exact hne
  have hmem : ∀ r ∈ ordersOf st.book ix (!side) p, r.price = p ∧ 0 < r.quantity := by
    intro r hr
    obtain ⟨i, hi, rfl⟩ := List.mem_map.mp hr
    exact (h.order _ p i hi).2
  refine ⟨rfl, rfl, ?_, ?_, ?_, hne', fun r hr => (hmem r hr).1, fun r hr => (hmem r hr).2, ?_⟩
  · rw [bestOf_eq hps fun q hq => by rw [ordersOf, hpre q hq, List.map_nil]]
    simp [hne']
  · rw [← @Scan.mem_positions (!side), hps]
    simp
  · exact (List.nodup_cons.mp (List.nodup_append.mp hnd).2.1).1
  · rw [← List.flatMap_cons]
    exact h.priority (List.pairwise_append.mp hsorted).2.1

/-- The bit of an exhausted level goes. -/
lemma ServedLevel.marks_clearBit (h : ServedLevel side p held st st₁ ix ix₁ L)
    (hm : Marks st.book (ordersOf st.book ix)) (hleft : leftOf st.incoming L = []) :
    Marks (clearBit (!side) st₁.book p) (ordersOf (clearBit (!side) st₁.book p) ix₁) := by
  have hgone : ordersOf st₁.book ix₁ (!side) p = [] := by
    rw [h.orders, setAt_same, hleft]
  rw [clearBit, ordersOf_setBits, ← clearBit]
  apply (h.frame.marks hm).clearBit hgone
  intro s' p' e
  rw [h.orders, setAt_of_ne e]

/-- An exhausted level is empty like those in front of it. -/
lemma ServedLevel.slots_eq_nil (h : ServedLevel side p held st st₁ ix ix₁ L)
    (hleft : leftOf st.incoming L = []) (hpre : ∀ q ∈ pre, ix (!side) q = []) :
    ∀ q ∈ pre ++ [p], ix₁ (!side) q = [] := by
  intro q hq
  rw [← List.map_eq_nil_iff (f := st₁.book.orderAt)]
  have horders := congrFun (congrFun h.orders (!side)) q
  by_cases hqp : q = p
  · subst hqp
    rw [setAt_same, hleft] at horders
    exact horders
  · have hq' := (List.mem_append.mp hq).resolve_right fun hq => hqp (List.mem_singleton.mp hq)
    rw [setAt_of_ne fun e => hqp e.2, ordersOf, ordersOf, hpre q hq'] at horders
    exact horders

namespace BestLevel

lemma flatMap_eq (hl : BestLevel side st ix p ps L L') :
    (p :: ps).flatMap (ordersOf st.book ix (!side)) = L ++ L' := by
  rw [List.flatMap_cons, hl.orders, hl.rest]

lemma split (hl : BestLevel side st ix p ps L L') :
    crossingIn side st.incoming (L ++ L') ++ standingIn side st.incoming (L ++ L') = L ++ L' :=
  Book.filter_crosses_append hl.priority

lemma split_rest (hl : BestLevel side st ix p ps L L') :
    crossingIn side st.incoming L' ++ standingIn side st.incoming L' = L' :=
  Book.filter_crosses_append (List.pairwise_append.mp hl.priority).2.1

lemma crosses_of_mem (hl : BestLevel side st ix p ps L L')
    (hc : crosses side st.incoming.price p = true) :
    ∀ r ∈ L, crosses side st.incoming.price r.price = true := by
  intro r hr
  rw [hl.price r hr, hc]

/-- Nothing is demanded any more. -/
lemma serves_of_zero (hl : BestLevel side st ix p ps L L') (h : Lists st.book ix held)
    (hm : Marks st.book (ordersOf st.book ix)) (hn : st.incoming.quantity = 0) :
    LoopServes side held lf (fuel + 1) st ix (p :: ps) := by
  rw [LoopServes, hl.flatMap_eq]
  refine ⟨st, ix, 0, matchLoop_zero hn, ServedBook.unchanged h hm hl.flatMap_eq ?_ ?_,
    (result_of_zero hn).symm⟩
  · rw [leftOf_of_zero hn, hl.split]
  · rw [bookTrades, hn, Consume.served_zero, List.map_nil]

/-- The best level is beyond the limit, and so are all others. -/
lemma serves_of_beyond (hl : BestLevel side st ix p ps L L') (h : Lists st.book ix held)
    (hm : Marks st.book (ordersOf st.book ix))
    (hc : crosses side st.incoming.price p = false) :
    LoopServes side held lf (fuel + 1) st ix (p :: ps) := by
  have hnone : crossingIn side st.incoming (L ++ L') = [] :=
    crossingIn_eq_nil hl.priority hl.ne_nil hl.price hc
  have hsplit := hl.split
  rw [LoopServes, hl.flatMap_eq]
  refine ⟨st, ix, 0, ?_, ServedBook.unchanged h hm hl.flatMap_eq ?_ ?_, ?_⟩
  · simp [matchLoop, hl.best, hc]
  · rw [hnone] at hsplit ⊢
    exact hsplit
  · rw [hnone]
    rfl
  · rw [hnone, result_nil]

/-- The number of orders that the level counts after it was served. -/
lemma orderCount_eq (hl : BestLevel side st ix p ps L L')
    (hserved : ServedLevel side p held st st₁ ix ix₁ L) :
    ((st₁.book.half (!side)).levels p).orderCount = (leftOf st.incoming L).length := by
  have hL₁ : ordersOf st₁.book ix₁ (!side) p = leftOf st.incoming L := by
    rw [hserved.orders, setAt_same]
  rw [hserved.lists.count (!side) p hl.lt, ← hL₁, ordersOf, List.length_map]

lemma book_of_left (hl : BestLevel side st ix p ps L L')
    (hserved : ServedLevel side p held st st₁ ix ix₁ L) (hleft : leftOf st.incoming L ≠ []) :
    (if ((st₁.book.half (!side)).levels p).orderCount = 0
      then clearBit (!side) st₁.book p else st₁.book) = st₁.book := by
  rw [if_neg]
  rw [hl.orderCount_eq hserved, List.length_eq_zero_iff]
  exact hleft

lemma book_of_exhausted (hl : BestLevel side st ix p ps L L')
    (hserved : ServedLevel side p held st st₁ ix ix₁ L) (hleft : leftOf st.incoming L = []) :
    (if ((st₁.book.half (!side)).levels p).orderCount = 0
      then clearBit (!side) st₁.book p else st₁.book) = clearBit (!side) st₁.book p := by
  rw [if_pos]
  rw [hl.orderCount_eq hserved, hleft, List.length_nil]

/-- An own order is reached within the best level. -/
lemma serves_of_stop (hl : BestLevel side st ix p ps L L') {q : Nat}
    (hm : Marks st.book (ordersOf st.book ix)) (hn : st.incoming.quantity ≠ 0)
    (hc : crosses side st.incoming.price p = true)
    (hrun : matchLevel side p lf st = some (st₁, some q))
    (hserved : ServedLevel side p held st st₁ ix ix₁ L)
    (hout : (some q, st₁.incoming) = outcome st.incoming L) :
    LoopServes side held lf (fuel + 1) st ix (p :: ps) := by
  obtain ⟨hblocked, hq, hin⟩ := outcome_eq_some hout.symm
  have hends : Ends st.incoming L := Or.inl hblocked
  have hcross := hl.crosses_of_mem hc
  rw [LoopServes, hl.flatMap_eq, hl.best]
  refine ⟨st₁, ix₁, q, matchLoop_stop hn hl.lt hc hrun, ServedBook.of_ends hm hl.notMem hserved
    hl.orders hl.ne_nil (leftOf_ne_nil hblocked) hends hcross hl.price hl.rest hl.split_rest, ?_⟩
  rw [crossingIn_append hcross, result_append_of_ends hends, result, if_neg hblocked, hq, hin]

/-- Something of the best level is left: the demand is met, and the next pass ends the loop. -/
lemma serves_of_left (hl : BestLevel side st ix p ps L L')
    (hm : Marks st.book (ordersOf st.book ix)) (hn : st.incoming.quantity ≠ 0)
    (hc : crosses side st.incoming.price p = true)
    (hrun : matchLevel side p lf st = some (st₁, none))
    (hserved : ServedLevel side p held st st₁ ix ix₁ L)
    (hout : (none, st₁.incoming) = outcome st.incoming L) (hleft : leftOf st.incoming L ≠ []) :
    LoopServes side held lf (fuel + 2) st ix (p :: ps) := by
  obtain ⟨hgo, hin⟩ := outcome_eq_none hout.symm
  have hz : shortOf st.incoming L = 0 := short_eq_zero_of_left hl.pos hleft hgo
  have hends : Ends st.incoming L := Or.inr hz
  have hcross := hl.crosses_of_mem hc
  have hsb := ServedBook.of_ends hm hl.notMem hserved hl.orders hl.ne_nil hleft hends hcross
    hl.price hl.rest hl.split_rest
  rw [LoopServes, hl.flatMap_eq, hl.best]
  refine ⟨st₁, ix₁, 0, ?_, hsb, ?_⟩
  · rw [matchLoop_next hn hl.lt hc hrun (hl.book_of_left hserved hleft) (hsb.marks.getBest_eq _),
      matchLoop_zero]
    rw [hin, hz]
  · rw [crossingIn_append hcross, result_append_of_ends hends, result]
    split_ifs
    · rw [hin]
    · rw [hin, hz]

/-- The best level is used up: its bit goes, and the loop moves on. -/
lemma serves_of_exhausted (hl : BestLevel side st ix p ps L L')
    (hm : Marks st.book (ordersOf st.book ix)) (hn : st.incoming.quantity ≠ 0)
    (hc : crosses side st.incoming.price p = true)
    (hrun : matchLevel side p lf st = some (st₁, none))
    (hserved : ServedLevel side p held st st₁ ix ix₁ L)
    (hout : (none, st₁.incoming) = outcome st.incoming L) (hleft : leftOf st.incoming L = [])
    (hnext : LoopServes side held lf fuel
      { st₁ with book := clearBit (!side) st₁.book p } ix₁ ps) :
    LoopServes side held lf (fuel + 1) st ix (p :: ps) := by
  obtain ⟨-, hin⟩ := outcome_eq_none hout.symm
  have hblocked := blockedOf_eq_nil hleft
  have hcross := hl.crosses_of_mem hc
  have horders : ordersOf (clearBit (!side) st₁.book p) ix₁ = ordersOf st₁.book ix₁ := by
    rw [clearBit, ordersOf_setBits]
  have hbook := hl.book_of_exhausted hserved hleft
  have hm₁ := hserved.marks_clearBit hm hleft
  have hflat : ps.flatMap (ordersOf (clearBit (!side) st₁.book p) ix₁ (!side)) = L' := by
    rw [← hl.rest, horders, hserved.orders]
    apply List.flatMap_congr
    intro p' hp'
    exact setAt_of_ne fun e => hl.notMem (e.2 ▸ hp')
  obtain ⟨st', ix', rej, hrun', hserved', hres⟩ := hnext
  rw [hflat] at hserved' hres
  rw [LoopServes, hl.flatMap_eq, hl.best]
  refine ⟨st', ix', rej, ?_, ServedBook.cons hl.notMem hserved hserved' hblocked hleft hin
    hcross hl.price, ?_⟩
  · rw [matchLoop_next hn hl.lt hc hrun hbook (hm₁.getBest_eq _), hrun']
  · rw [crossingIn_append hcross, result_append hblocked, hres, hin]

end BestLevel

/-- **The outer loop** serves the incoming order from the levels that cross its limit. -/
lemma matchLoop_spec (h : Lists st.book ix held) (hm : Marks st.book (ordersOf st.book ix))
    (hps : Scan.positions (!side) maxPrice = pre ++ ps) (hpre : ∀ p ∈ pre, ix (!side) p = [])
    (hlf : maxOrders < lf) (hfuel : ps.length < fuel) :
    LoopServes side held lf fuel st ix ps := by
  induction ps generalizing st ix pre fuel with
  | nil =>
    obtain ⟨fuel, rfl⟩ := Nat.exists_eq_add_one_of_ne_zero (Nat.ne_zero_of_lt hfuel)
    refine ⟨st, ix, 0, ?_, ServedBook.unchanged h hm rfl rfl rfl, ?_⟩
    · rw [bestOf_eq hps fun p hp => by rw [ordersOf, hpre p hp, List.map_nil]]
      simp [matchLoop]
    · exact result_nil.symm
  | cons p ps ih =>
    have hps' : Scan.positions (!side) maxPrice = (pre ++ [p]) ++ ps := by
      rw [hps, List.append_assoc, List.singleton_append]
    by_cases hnil : ix (!side) p = []
    · -- an empty level is not visited
      have hnd := Scan.nodup_positions (!side) maxPrice
      rw [hps] at hnd
      have hpps : p ∉ ps := (List.nodup_cons.mp (List.nodup_append.mp hnd).2.1).1
      have hnil' : ordersOf st.book ix (!side) p = [] := by rw [ordersOf, hnil, List.map_nil]
      obtain ⟨st', ix', rej, hrun, hserved, hres⟩ := ih h hm hps'
        (by simpa [or_imp, forall_and, hnil] using hpre) (Nat.lt_of_succ_lt hfuel)
      rw [LoopServes, List.flatMap_cons, hnil', List.nil_append]
      exact ⟨st', ix', rej, hrun, hserved.skip hpps hnil', hres⟩
    obtain ⟨fuel, rfl⟩ := Nat.exists_eq_add_one_of_ne_zero (Nat.ne_zero_of_lt hfuel)
    rw [List.length_cons] at hfuel
    have hl := h.bestLevel hps hpre hnil
    by_cases hn : st.incoming.quantity = 0
    · exact hl.serves_of_zero h hm hn
    cases hc : crosses side st.incoming.price p with
    | false => exact hl.serves_of_beyond h hm hc
    | true =>
      obtain ⟨st₁, ix₁, stop, hrun, hserved, hout⟩ :=
        matchLevel_spec h hl.lt rfl ((h.length_le (!side) p).trans_lt hlf)
      cases stop with
      | some q => exact hl.serves_of_stop hm hn hc hrun hserved hout
      | none =>
        by_cases hleft : leftOf st.incoming (ordersOf st.book ix (!side) p) = []
        · apply hl.serves_of_exhausted hm hn hc hrun hserved hout hleft
          exact ih (hserved.lists.setBits _ _) (hserved.marks_clearBit hm hleft) hps'
            (hserved.slots_eq_nil hleft hpre) (Nat.lt_of_succ_lt_succ hfuel)
        · obtain ⟨fuel, rfl⟩ := Nat.exists_eq_add_one_of_ne_zero
            (Nat.ne_zero_of_lt (Nat.lt_of_succ_lt_succ hfuel))
          exact hl.serves_of_left hm hn hc hrun hserved hout hleft

end Loop

end OrderBook

end ExchangeEngine
