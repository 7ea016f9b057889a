import ExchangeEngine.Server.Owned

/-!
# What the parties of a trade have agreed to

The engine changes the id of an order and lowers its quantity, and nothing else. So a trade is
between two orders that were queued, at a price within the limits of both; and nobody trades more at
a price than was ordered for him with a limit that allows it.
-/

namespace ExchangeEngine

/-! ### Parts of orders -/

/-- What the engine makes of an order: it gives it an id, and fills some of it. -/
def Order.PartOf (r o : Order) : Prop :=
  ∃ id, ∃ q ≤ o.quantity, r = { o with id := id, quantity := q }

lemma Order.PartOf.reduce {r o : Order} (h : r.PartOf o) (q : Nat) : (r.reduce q).PartOf o := by
  obtain ⟨id, n, hle, rfl⟩ := h
  exact ⟨id, n - q, (Nat.sub_le _ _).trans hle, rfl⟩

/-- What rests for a company is a part of orders of which `S` holds. -/
def MarketState.RestingFrom (m : MarketState) (S : Nat → Order → Prop) : Prop :=
  ∀ c b, m.findInstrument c = some b → ∀ s, ∀ r ∈ b.resting s, ∃ o, S c o ∧ r.PartOf o

/-- A trade that two orders agree to. -/
structure Trade.Between (t : Trade) (bid ask : Order) : Prop where
  buys : bid.side = true
  sells : ask.side = false
  buyer : bid.userId = t.buyerUserId
  seller : ask.userId = t.sellerUserId
  apart : t.buyerUserId ≠ t.sellerUserId
  le_bid : t.price ≤ bid.price
  ask_le : ask.price ≤ t.price
  quantity : 0 < t.quantity ∧ t.quantity ≤ bid.quantity ∧ t.quantity ≤ ask.quantity

/-- A trade between orders of which `S` holds. -/
def Trade.Agreed (S : Nat → Order → Prop) (t : Trade) : Prop :=
  ∃ bid ask, t.Between bid ask ∧ S t.companyId bid ∧ S t.companyId ask

lemma Trade.Agreed.mono {S S' : Nat → Order → Prop} {t : Trade} (hS : ∀ c o, S c o → S' c o)
    (h : t.Agreed S) : t.Agreed S' := by
  obtain ⟨bid, ask, hbetween, hbid, hask⟩ := h
  exact ⟨bid, ask, hbetween, hS _ _ hbid, hS _ _ hask⟩

lemma Trade.Between.of_parts {t : Trade} {b a bid ask : Order} (h : t.Between b a)
    (hb : b.PartOf bid) (ha : a.PartOf ask) : t.Between bid ask := by
  obtain ⟨i, q, hq, rfl⟩ := hb
  obtain ⟨i', q', hq', rfl⟩ := ha
  exact ⟨h.buys, h.sells, h.buyer, h.seller, h.apart, h.le_bid, h.ask_le, h.quantity.1,
    h.quantity.2.1.trans hq, h.quantity.2.2.trans hq'⟩

section Task

variable {m : MarketState} {task : EngineTask} {e : Effect} {b : AnyBook} {o : Order}
  {S S' : Nat → Order → Prop} {u : Int} {c p : Nat} {s : Bool} {t : Trade}

/-- A fill is between the order that comes in and one that rests. -/
lemma between_of_mem_fills {B : Book} (h : B.Valid) (ht : t ∈ B.fills o) :
    t.companyId = o.companyId ∧ ∃ r ∈ B (!o.side),
      if o.side then t.Between o r else t.Between r o := by
  obtain ⟨⟨r, q⟩, hr, rfl⟩ := List.mem_map.mp ht
  obtain ⟨hmem, hapart⟩ := Consume.mem_avail (Consume.mem_of_mem_takes hr)
  obtain ⟨hrest, hcross⟩ := Book.mem_crossing.mp hmem
  have hside := (h.order _ r hrest).1
  have hne : o.userId ≠ r.userId := by simpa [sameOwner] using hapart
  have hpos : 0 < q ∧ q ≤ r.quantity := Consume.pos_of_mem_takes
    (fun x hx => h.pos x (Book.mem_crossing.mp (Consume.mem_avail hx).1).1) hr
  have hle : q ≤ o.quantity := Consume.le_of_mem_takes hr
  cases hs : o.side with
  | true =>
    rw [hs] at hside hcross
    refine ⟨rfl, r, hs ▸ hrest, ?_⟩
    exact ⟨hs, hside, rfl, rfl, hne, of_decide_eq_true hcross, le_rfl, hpos.1, hle, hpos.2⟩
  | false =>
    rw [hs] at hside hcross
    refine ⟨rfl, r, hs ▸ hrest, ?_⟩
    exact ⟨hside, hs, rfl, rfl, hne.symm, le_rfl, of_decide_eq_true hcross, hpos.1, hpos.2, hle⟩

lemma MarketState.RestingFrom.mono (hS : ∀ c o, S c o → S' c o) (h : m.RestingFrom S) :
    m.RestingFrom S' := by
  intro c b hb s r hr
  obtain ⟨o, ho, hpart⟩ := h c b hb s r hr
  exact ⟨o, hS c o ho, hpart⟩

lemma MarketState.RestingFrom.setBook {b' : AnyBook} (h : m.RestingFrom S)
    (hb' : ∀ s, ∀ r ∈ b'.resting s, ∃ o, S c o ∧ r.PartOf o) : (m.setBook c b').RestingFrom S := by
  intro d x hx
  rw [MarketState.findInstrument_setBook] at hx
  split_ifs at hx with hd
  · subst hd
    rwa [← Option.some.inj hx]
  · exact h d x hx

/-- **One task** makes trades between orders that were queued. -/
theorem Acts.agreed (hm : m.Ok) (haddr : task.Addressed) (hrest : m.RestingFrom S)
    (htask : ∀ c o, task = .order c o → S c o) (h : Acts m task e) :
    (∀ t ∈ e.fills, t.Agreed S) ∧ e.market.RestingFrom S := by
  cases h with
  | switchEngine mode =>
    refine ⟨fun t ht => absurd ht List.not_mem_nil, ?_⟩
    by_cases hmode : mode = m.engineMode
    · rwa [hmode, MarketState.setEngineMode_self]
    · intro c b hb s r hr
      rw [MarketState.findInstrument_setEngineMode m c hmode] at hb
      obtain ⟨-, -, rfl⟩ := Option.map_eq_some_iff.mp hb
      rw [AnyBook.resting_make] at hr
      exact absurd hr List.not_mem_nil
  | @orderProcessed c id o b r hfind hcan hs hlisten =>
    have hvalid := (hm.inv c b hfind).valid
    have ho : S c o := htask c o rfl
    have hself : ({ o with id := id } : Order).PartOf o := ⟨id, o.quantity, le_rfl, rfl⟩
    have haddr : o.companyId = c := haddr
    constructor
    · intro t ht
      obtain ⟨hcompany, r, hr, hbetween⟩ := between_of_mem_fills hvalid ht
      obtain ⟨x, hx, hpart⟩ := hrest c b hfind _ r hr
      have hc : t.companyId = c := hcompany.trans haddr
      rw [Trade.Agreed, hc]
      split_ifs at hbetween
      · exact ⟨o, x, hbetween.of_parts hself hpart, ho, hx⟩
      · exact ⟨x, o, hbetween.of_parts hpart hself, hx, ho⟩
    · refine hrest.setBook fun s x hx => ?_
      rw [hs.resting] at hx
      rcases Book.mem_submit hvalid.pos hx with ⟨-, rfl⟩ | ⟨r, hr, q, rfl⟩
      · have hle : b.resting.placed { o with id := id } ≤ o.quantity := by
          have htotal := Book.traded_add_placed_add_rejected (B := b.resting)
            (o := { o with id := id })
          simp only at htotal
          omega
        exact ⟨o, ho, id, _, hle, rfl⟩
      · obtain ⟨y, hy, hpart⟩ := hrest c b hfind s r hr
        exact ⟨y, hy, hpart.reduce q⟩
  | @cancelMissed c id userId b b' hfind hnone hinv hlisten hresting =>
    refine ⟨fun t ht => absurd ht List.not_mem_nil, hrest.setBook ?_⟩
    rw [hresting]
    exact hrest c b hfind
  | @cancelled c id userId b b' x hfind hx hinv hlisten hresting =>
    refine ⟨fun t ht => absurd ht List.not_mem_nil, hrest.setBook fun s r hr => ?_⟩
    rw [hresting] at hr
    exact hrest c b hfind s r ((Book.remove_sublist _ _ _).subset hr)
  | _ => exact ⟨fun t ht => absurd ht List.not_mem_nil, hrest⟩

/-! ### Quantities -/

/-- One for each share that an order of `u` for `c` on the side is still about, if its limit is `p`
or beyond. -/
def Order.stake (u : Int) (c : Nat) (s : Bool) (p : Nat) (o : Order) : Int :=
  if o.userId = u ∧ o.companyId = c ∧ o.side = s ∧ crosses s o.price p = true then 1 else 0

/-- How much of `c` a trade is that `u` makes on the side, at `p` or beyond. -/
def Trade.amount (u : Int) (c : Nat) (s : Bool) (p : Nat) (t : Trade) : Int :=
  if (if s then t.buyerUserId else t.sellerUserId) = u ∧ t.companyId = c ∧
    crosses s t.price p = true then t.quantity else 0

/-- How much of `c` a task orders for `u` on the side, with a limit of `p` or beyond. -/
def EngineTask.amount (u : Int) (c : Nat) (s : Bool) (p : Nat) : EngineTask → Int
  | .order _ o => o.stake u c s p * o.quantity
  | .cancel _ _ _ => 0
  | .snapshot _ => 0
  | .switchEngine _ => 0

lemma Order.stake_nonneg (o : Order) : 0 ≤ o.stake u c s p := by
  rw [stake]
  split_ifs
  · exact Int.one_nonneg
  · exact le_rfl

lemma EngineTask.amount_nonneg (task : EngineTask) : 0 ≤ task.amount u c s p := by
  cases task with
  | order d o => exact mul_nonneg o.stake_nonneg (Int.natCast_nonneg _)
  | _ => exact le_rfl

lemma crosses_trans {limit q : Nat} (h : crosses s limit q = true) (h' : crosses s q p = true) :
    crosses s limit p = true := by
  cases s with
  | true => exact decide_eq_true ((of_decide_eq_true h').trans (of_decide_eq_true h))
  | false => exact decide_eq_true ((of_decide_eq_true h).trans (of_decide_eq_true h'))

/-- What a fill is about for the user of the order that comes in. -/
lemma amount_tradeOf_incoming {r : Order} {q : Nat} (hcross : crosses o.side o.price r.price = true) :
    (tradeOf o.side o r r.price q).amount u c o.side p ≤ o.stake u c o.side p * q := by
  have hamount : (tradeOf o.side o r r.price q).amount u c o.side p
      = if o.userId = u ∧ o.companyId = c ∧ crosses o.side r.price p = true then (q : Int)
        else 0 := by
    cases hs : o.side <;> simp [Trade.amount, tradeOf]
  rw [hamount]
  split_ifs with h
  · rw [Order.stake, if_pos ⟨h.1, h.2.1, rfl, crosses_trans hcross h.2.2⟩, one_mul]
  · exact mul_nonneg o.stake_nonneg (Int.natCast_nonneg q)

/-- What it is about for the user of the order that rests, at whose price it is. -/
lemma amount_tradeOf_resting {r : Order} {q : Nat} (hside : r.side = !o.side)
    (hcompany : r.companyId = o.companyId) :
    (tradeOf o.side o r r.price q).amount u c (!o.side) p = r.stake u c (!o.side) p * q := by
  cases hs : o.side <;> simp [Trade.amount, tradeOf, Order.stake, hside, hcompany, hs]

lemma amount_tradeOf_le {r : Order} {q : Nat} (hside : r.side = !o.side)
    (hcompany : r.companyId = o.companyId) (hcross : crosses o.side o.price r.price = true) :
    (tradeOf o.side o r r.price q).amount u c s p ≤ r.stake u c s p * q + o.stake u c s p * q := by
  have hresting : 0 ≤ r.stake u c s p * q := mul_nonneg r.stake_nonneg (Int.natCast_nonneg q)
  have hincoming : 0 ≤ o.stake u c s p * q := mul_nonneg o.stake_nonneg (Int.natCast_nonneg q)
  rcases Bool.eq_or_eq_not s o.side with rfl | rfl
  · linarith only [amount_tradeOf_incoming (u := u) (c := c) (p := p) (q := q) hcross, hresting]
  · linarith only [amount_tradeOf_resting (u := u) (c := c) (p := p) (q := q) hside hcompany,
      hincoming]

/-- What the fills of an order are about, on both sides. -/
lemma amounts_fills_le {B : Book} (hside : ∀ r ∈ B (!o.side), r.side = !o.side)
    (hcompany : ∀ r ∈ B (!o.side), r.companyId = o.companyId) :
    ((B.fills o).map (Trade.amount u c s p)).sum
      ≤ B.taken (Order.stake u c s p) o + o.stake u c s p * B.traded o := by
  have hserved : ∀ x ∈ B.served o, x.1 ∈ B.crossing o := fun x hx =>
    (Consume.mem_avail (Consume.mem_of_mem_takes hx)).1
  simp only [Book.fills, Book.taken, Book.traded]
  generalize B.served o = l at hserved ⊢
  induction l with
  | nil => simp
  | cons x l ih =>
    obtain ⟨hmem, hcross⟩ := Book.mem_crossing.mp (hserved x List.mem_cons_self)
    have ih := ih fun y hy => hserved y (List.mem_cons_of_mem _ hy)
    have hx := amount_tradeOf_le (u := u) (c := c) (s := s) (p := p) (q := x.2) (hside _ hmem)
      (hcompany _ hmem) hcross
    simp only [List.map_cons, List.sum_cons, Nat.cast_add, mul_add]
    linarith only [hx, ih]

/-- **One task**: what it trades and leaves in the books was in the books or is ordered by it. -/
theorem Acts.amount_le (hm : m.Ok) (haddr : task.Addressed) (h : Acts m task e) :
    (e.fills.map (Trade.amount u c s p)).sum + e.market.held (Order.stake u c s p)
      ≤ m.held (Order.stake u c s p) + task.amount u c s p := by
  have hnothing : ∀ m' : MarketState, m'.held (Order.stake u c s p) ≤ m.held (Order.stake u c s p) →
      (([] : List Trade).map (Trade.amount u c s p)).sum + m'.held (Order.stake u c s p)
        ≤ m.held (Order.stake u c s p) + task.amount u c s p := by
    intro m' hle
    simp only [List.map_nil, List.sum_nil]
    linarith only [hle, task.amount_nonneg (u := u) (c := c) (s := s) (p := p)]
  have hheld_nonneg : 0 ≤ m.held (Order.stake u c s p) :=
    Finset.sum_nonneg fun _ _ => held_nonneg Order.stake_nonneg
  cases h with
  | switchEngine mode =>
    refine hnothing _ ?_
    by_cases hmode : mode = m.engineMode
    · rw [hmode, MarketState.setEngineMode_self]
    · rw [held_setEngineMode hmode]
      exact hheld_nonneg
  | @orderProcessed d id o b r hfind hcan hs hlisten =>
    have hvalid := (hm.inv d b hfind).valid
    have hheld := held_setBook (Order.stake u c s p) r.book hm hfind
    rw [hs.resting] at hheld
    have hbook : (b.resting.submit { o with id := id }).held (Order.stake u c s p)
        + b.resting.taken (Order.stake u c s p) { o with id := id }
        = b.resting.held (Order.stake u c s p)
          + o.stake u c s p * b.resting.placed { o with id := id } :=
      Book.held_submit fun _ _ => rfl
    have hfills : ((b.resting.fills { o with id := id }).map (Trade.amount u c s p)).sum
        ≤ b.resting.taken (Order.stake u c s p) { o with id := id }
          + o.stake u c s p * b.resting.traded { o with id := id } :=
      amounts_fills_le (fun r hr => (hvalid.order _ r hr).1)
        fun r hr => (hm.company d b hfind _ r hr).trans (Eq.symm haddr)
    have htotal : ((b.resting.traded { o with id := id } + b.resting.placed { o with id := id }
        + b.resting.rejected { o with id := id } : Nat) : Int) = o.quantity :=
      congrArg Nat.cast Book.traded_add_placed_add_rejected
    have hrejected : 0 ≤ o.stake u c s p * b.resting.rejected { o with id := id } :=
      mul_nonneg o.stake_nonneg (Int.natCast_nonneg _)
    push_cast at htotal
    rw [EngineTask.amount, ← htotal]
    linarith only [hheld, hbook, hfills, hrejected]
  | @cancelMissed d id userId b b' hfind hnone hinv hlisten hresting =>
    refine hnothing _ ?_
    have hheld := held_setBook (Order.stake u c s p) b' hm hfind
    rw [hresting] at hheld
    linarith only [hheld]
  | @cancelled d id userId b b' x hfind hx hinv hlisten hresting =>
    refine hnothing _ ?_
    have hheld := held_setBook (Order.stake u c s p) b' hm hfind
    obtain ⟨⟨s', hmem⟩, rfl, rfl⟩ :=
      (Book.find_eq_some_iff (hm.inv d b hfind).valid).mp hx
    have hremove := (hm.inv d b hfind).valid.held_remove (Order.stake u c s p) hmem
    have hgone : 0 ≤ x.stake u c s p * x.quantity :=
      mul_nonneg x.stake_nonneg (Int.natCast_nonneg _)
    rw [hresting] at hheld
    linarith only [hheld, hremove, hgone]
  | _ => exact hnothing _ le_rfl

end Task

end ExchangeEngine
