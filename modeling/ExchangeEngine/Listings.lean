import ExchangeEngine.OrderBook.Properties
import ExchangeEngine.OrderBookLegacy.Run

/-!
# What the listings say

Depth and order listings are prefixes of the price levels and of the resting orders. The total of a
level is counted in 32 bits.
-/

namespace ExchangeEngine

namespace Book

variable {B : Book} {side : Bool} {p : Nat}

/-- The prices at which something rests, best first. -/
def prices (B : Book) (side : Bool) : List Nat :=
  (Scan.positions side maxPrice).filter fun p => decide (B.atPrice side p ≠ [])

/-- The sum of what is left of the orders at a price. -/
def totalAt (B : Book) (side : Bool) (p : Nat) : Nat :=
  Consume.total Order.quantity (B.atPrice side p)

lemma mem_prices (h : B.Valid) : p ∈ B.prices side ↔ ∃ r ∈ B side, r.price = p := by
  rw [prices, List.mem_filter, Scan.mem_positions, decide_eq_true_eq, atPrice, ne_eq,
    List.filter_eq_nil_iff]
  constructor
  · rintro ⟨-, hne⟩
    push Not at hne
    obtain ⟨r, hr, hp⟩ := hne
    exact ⟨r, hr, of_decide_eq_true hp⟩
  · rintro ⟨r, hr, rfl⟩
    exact ⟨(h.order side r hr).2.1, fun hnone => hnone r hr (decide_eq_true rfl)⟩

lemma pairwise_prices : (B.prices side).Pairwise (Outranks side) :=
  (Scan.pairwise_positions side maxPrice).filter _

/-- Price priority, and time priority at one price: the ids increase. -/
lemma Valid.priceTime (h : B.Valid) (side : Bool) : (B side).Pairwise fun x y =>
    Outranks side x.price y.price ∨ x.price = y.price ∧ x.id < y.id := by
  refine ((h.priority side).and (h.fifo side)).imp fun {x y} hxy => ?_
  by_cases hp : x.price = y.price
  · exact Or.inr ⟨hp, hxy.2 hp⟩
  · exact Or.inl (Scan.Before.of_not (Ne.symm hp) hxy.1)

lemma length_atPrice : (B.atPrice side p).length = (B side).countP fun r => r.price = p := by
  rw [atPrice, List.countP_eq_length_filter]

lemma depth_eq_map (limit : Nat) : B.depth side limit = ((B.prices side).take limit).map fun p =>
    ⟨p, B.totalAt side p % 2 ^ 32, (B side).countP fun r => r.price = p⟩ := by
  rw [depth, ← prices, List.map_take]
  refine congrArg (List.take limit) (List.map_congr_left fun p _ => ?_)
  rw [← length_atPrice]
  rfl

/-- The total at a price, from the prices and quantities of all that rests on the side. -/
lemma totalAt_eq : B.totalAt side p
    = ((((B side).map fun r => (r.price, r.quantity)).filter fun x => x.1 = p).map Prod.snd).sum := by
  rw [List.filter_map, List.map_map]
  rfl

end Book

namespace OrderBook

variable {b : OrderBook}

/-- **Depth and order listings are exact prefixes**: of the non-empty price levels, strictly best
first, each with its number of orders; and of the resting orders in price-time priority. -/
theorem listings_exact (h : Reachable b) (side : Bool) (limit : Nat) :
    (∃ (rows : List DepthLevel) (prices : List Nat), depth side b limit = some rows ∧
      prices.Pairwise (fun p q => if side then q < p else p < q) ∧
      (∀ p, p ∈ prices ↔ ∃ r ∈ b.resting side, r.price = p) ∧
      rows.map (fun row => (row.price, row.orders))
        = (prices.take limit).map fun p => (p, (b.resting side).countP fun r => r.price = p)) ∧
    orders side b limit = some (((b.resting side).take limit).map Order.snapshot) ∧
    (b.resting side).Pairwise fun x y =>
      (if side then y.price < x.price else x.price < y.price) ∨ x.price = y.price ∧ x.id < y.id := by
  have hvalid := h.inv.valid
  refine ⟨⟨_, b.resting.prices side, depth_spec h.inv side limit, Book.pairwise_prices,
    fun p => Book.mem_prices hvalid, ?_⟩, ?_, hvalid.priceTime side⟩
  · rw [Book.depth_eq_map, List.map_map]
    rfl
  · rw [orders_spec h.inv, Book.orders, List.map_take]

/-- Three bids at two prices, of which two are listed. -/
theorem listings_exact_sampleInputs : ∃ (b : OrderBook) (rows : List DepthLevel)
    (prices : List Nat), Reachable b ∧ depth true b 1 = some rows ∧ rows = [⟨100, 2, 1⟩] ∧
    rows.map (fun row => (row.price, row.orders))
      = (prices.take 1).map (fun p => (p, (b.resting true).countP fun r => r.price = p)) ∧
    orders true b 2 = some [⟨4294967296, 7, 0, 100, 2⟩, ⟨17179869185, 8, 3, 99, 2⟩] ∧
    orders true b 2 = some (((b.resting true).take 2).map Order.snapshot) := by
  obtain ⟨⟨b, evs⟩, hrun, hout⟩ := Option.map_eq_some_iff.mp
    (by decide +kernel :
      (Transition.runEvents (handle 100001) Gated listening sampleInputs).map (fun x =>
        (depth true x.1 1, orders true x.1 2))
      = some (some [⟨100, 2, 1⟩],
          some [⟨4294967296, 7, 0, 100, 2⟩, ⟨17179869185, 8, 3, 99, 2⟩]))
  have hreach := (trace_of_run (Transition.run_of_runEvents hrun)).reachable
  obtain ⟨hdepth, horders⟩ := Prod.mk.inj hout
  obtain ⟨⟨rows, prices, hrows, -, -, heq⟩, -, -⟩ := listings_exact hreach true 1
  have hlisted := Option.some.inj (hrows.symm.trans hdepth)
  exact ⟨b, rows, prices, hreach, hrows, hlisted, heq, horders,
    (listings_exact hreach true 2).2.1⟩

end OrderBook

/-! ### Totals -/

namespace OrderBookLegacy

variable {b : OrderBookLegacy}

/-- The rows of the depth, but for the number of orders, which is counted in 32 bits. -/
lemma depth_totals (h : Inv b) (side : Bool) (limit : Nat) :
    (depth side b limit).map (fun row => (row.price, row.quantity))
      = ((b.resting.prices side).take limit).map fun p =>
        (p, b.resting.totalAt side p % 2 ^ 32) := by
  rw [OrderBookLegacy.depth, Book.prices, ← h.keys_eq, ← List.map_take, List.map_map,
    List.map_map]
  refine List.map_congr_left fun e he => ?_
  have he := List.mem_of_mem_take he
  simp only [Function.comp_apply, Book.totalAt, h.atPrice_eq he, (h.ok side e he).total]

end OrderBookLegacy

/-- Totals that are counted modulo `2 ^ 32` are right exactly if they are less. -/
lemma totals_exact_iff {B : Book} {rows : List DepthLevel} {prices : List Nat} {side : Bool}
    (h : rows.map (fun row => (row.price, row.quantity))
      = prices.map fun p => (p, B.totalAt side p % 2 ^ 32)) :
    (∀ row ∈ rows, row.quantity = B.totalAt side row.price) ↔
      ∀ p ∈ prices, B.totalAt side p < 2 ^ 32 := by
  have hpairs : (∀ row ∈ rows, row.quantity = B.totalAt side row.price) ↔
      ∀ x ∈ rows.map (fun row => (row.price, row.quantity)), x.2 = B.totalAt side x.1 := by
    rw [List.forall_mem_map]
  rw [hpairs, h, List.forall_mem_map]
  exact forall₂_congr fun _ _ => Nat.mod_eq_iff_lt (Nat.two_pow_pos 32).ne'

/-- **When the totals of the levels are right**, in both engines: the quantity of a row is the sum
of what is left of the orders at its price, exactly if this is less than `2 ^ 32` at each of the best
prices that are listed. -/
theorem level_totals_exact_iff (side : Bool) (limit : Nat) :
    (∀ b, OrderBook.Reachable b → ∃ rows, OrderBook.depth side b limit = some rows ∧
      ((∀ row ∈ rows, row.quantity = b.resting.totalAt side row.price) ↔
        ∀ p ∈ (b.resting.prices side).take limit, b.resting.totalAt side p < 2 ^ 32)) ∧
    ∀ b, OrderBookLegacy.Reachable b →
      ((∀ row ∈ OrderBookLegacy.depth side b limit,
        row.quantity = b.resting.totalAt side row.price) ↔
        ∀ p ∈ (b.resting.prices side).take limit, b.resting.totalAt side p < 2 ^ 32) := by
  constructor
  · intro b h
    refine ⟨_, OrderBook.depth_spec h.inv side limit, totals_exact_iff ?_⟩
    rw [Book.depth_eq_map, List.map_map]
    rfl
  · intro b h
    exact totals_exact_iff (OrderBookLegacy.depth_totals h.inv side limit)

/-- A bid at price 0, for which nothing is reserved, of the largest quantity. -/
def largestBid : Order := ⟨0, 7, 0, 0, 2 ^ 32 - 1, 1, true⟩

/-- Two of them rest at one price, and its total has wrapped around. -/
theorem level_total_wraps :
    (∃ b rows row, OrderBook.Reachable b ∧ OrderBook.depth true b 1 = some rows ∧ row ∈ rows ∧
      row.quantity = 2 ^ 32 - 2 ∧ b.resting.totalAt true row.price = 2 ^ 33 - 2) ∧
    ∃ b row, OrderBookLegacy.Reachable b ∧ row ∈ OrderBookLegacy.depth true b 1 ∧
      row.quantity = 2 ^ 32 - 2 ∧ b.resting.totalAt true row.price = 2 ^ 33 - 2 := by
  constructor
  · have hrun : (do
        let r ← OrderBook.processOrder true 100001 OrderBook.new largestBid
        let r' ← OrderBook.processOrder true 100001 r.book largestBid
        let rows ← OrderBook.depth true r'.book 1
        let snaps ← OrderBook.orders true r'.book 3
        some (r.book.orderIdCounter, OrderBook.canProcessOrder r.book largestBid, rows,
          snaps.map fun s => (s.price, s.quantity)))
        = some (1, true, [⟨0, 2 ^ 32 - 2, 2⟩], [(0, 2 ^ 32 - 1), (0, 2 ^ 32 - 1)]) := by
      decide +kernel
    simp only [Option.bind_eq_bind] at hrun
    obtain ⟨r, hr, hrun⟩ := Option.bind_eq_some_iff.mp hrun
    obtain ⟨r', hr', hrun⟩ := Option.bind_eq_some_iff.mp hrun
    obtain ⟨rows, hrows, hrun⟩ := Option.bind_eq_some_iff.mp hrun
    obtain ⟨snaps, hsnaps, hrun⟩ := Option.bind_eq_some_iff.mp hrun
    simp only [Option.some.injEq, Prod.mk.injEq] at hrun
    obtain ⟨hcounter, hcan, rfl, hboth⟩ := hrun
    have hreach : OrderBook.Reachable r'.book := by
      refine Relation.ReflTransGen.tail (Relation.ReflTransGen.single ?_) ?_ (b := r.book)
      · exact .submit (o := largestBid) (by decide +kernel) (by decide) hr
      · exact .submit hcan (by rw [hcounter]; decide) hr'
    refine ⟨r'.book, _, _, hreach, hrows, List.mem_singleton_self _, rfl, ?_⟩
    have htwo : ((r'.book.resting true).take 3).map (fun s => (s.price, s.quantity))
        = [(0, 2 ^ 32 - 1), (0, 2 ^ 32 - 1)] := by
      rw [OrderBook.orders_spec hreach.inv] at hsnaps
      obtain rfl := Option.some.inj hsnaps
      rw [Book.orders, ← List.map_take, List.map_map] at hboth
      exact hboth
    have hshort : (r'.book.resting true).length ≤ 3 := by
      have hlength := congrArg List.length htwo
      rw [List.length_map, List.length_take] at hlength
      simp only [List.length_cons, List.length_nil] at hlength
      omega
    rw [List.take_of_length_le hshort] at htwo
    rw [Book.totalAt_eq, htwo]
    decide
  · refine ⟨(OrderBookLegacy.processOrder true
      (OrderBookLegacy.processOrder true OrderBookLegacy.new largestBid).book largestBid).book,
      ⟨0, 2 ^ 32 - 2, 2⟩, ?_, ?_, rfl, ?_⟩
    · refine (Relation.ReflTransGen.single (.submit (o := largestBid) ?_ ?_)).tail
        (.submit (o := largestBid) ?_ ?_)
      all_goals decide +kernel
    · decide +kernel
    · decide +kernel

end ExchangeEngine
