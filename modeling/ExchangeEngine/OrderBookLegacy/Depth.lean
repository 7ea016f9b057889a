import ExchangeEngine.OrderBookLegacy.Cancel

/-!
# Best prices and listings of `OrderBookLegacy`

The first entry of a map is the best level, and its entries in turn are the price levels and the
resting orders in priority order.
-/

namespace ExchangeEngine

namespace OrderBookLegacy

variable {b : OrderBookLegacy} {side s : Bool} {M pre post : Levels} {e : Nat × PriceLevel}

/-- Under the invariant the best price is that of the first resting order. -/
theorem best_spec (h : Inv b) (side : Bool) : best side b = b.resting.best side := by
  rw [OrderBookLegacy.best, Book.best, OrderBookLegacy.resting]
  have hok := h.ok side
  cases hM : b.half side with
  | nil => rfl
  | cons e M =>
    have he := hok e (by simp [hM])
    obtain ⟨r, L, hL⟩ := List.exists_cons_of_ne_nil he.ne_nil
    rw [ordersOf_cons, hL, List.cons_append, List.map_cons, List.headD_cons,
      he.price r (by simp [hL])]

/-- An entry of a map holds all orders of its price. -/
lemma filter_price (hcut : SortedMap.Cut (Scan.Before side) e.1 pre post)
    (hok : ∀ e' ∈ pre ++ e :: post, LevelOk e') :
    (ordersOf (pre ++ e :: post)).filter (fun r => decide (r.price = e.1)) = e.2.orders := by
  have hother : ∀ N : Levels, (∀ e' ∈ N, LevelOk e' ∧ e'.1 ≠ e.1) →
      (ordersOf N).filter (fun r => decide (r.price = e.1)) = [] := by
    intro N hN
    rw [List.filter_eq_nil_iff]
    intro r hr
    obtain ⟨e', he', -, hprice⟩ := ordersOf_price (fun e' he' => (hN e' he').1) hr
    rw [decide_eq_true_eq, hprice]
    exact (hN e' he').2
  have hself : e.2.orders.filter (fun r => decide (r.price = e.1)) = e.2.orders := by
    rw [List.filter_eq_self]
    exact fun r hr => decide_eq_true ((hok e (by simp)).price r hr)
  rw [ordersOf_append, ordersOf_cons, List.filter_append, List.filter_append, hself, hother pre,
    hother post, List.nil_append, List.append_nil]
  · intro e' he'
    refine ⟨hok e' (by simp [he']), fun heq => ?_⟩
    exact Scan.Before.irrefl _ _ (heq ▸ hcut.behind e' he')
  · intro e' he'
    refine ⟨hok e' (by simp [he']), fun heq => ?_⟩
    exact Scan.Before.irrefl _ _ (heq ▸ hcut.before e' he')

lemma Inv.atPrice_eq (h : Inv b) (he : e ∈ b.half side) :
    b.resting.atPrice side e.1 = e.2.orders := by
  obtain ⟨pre, post, hhalf⟩ := List.append_of_mem he
  have hsort := h.sorted side
  have hok := h.ok side
  rw [hhalf] at hsort hok
  rw [Book.atPrice, OrderBookLegacy.resting, hhalf]
  exact filter_price (SortedMap.cut_of_sorted hsort) hok

/-- The keys of a map are the prices at which something rests, best first. -/
lemma Inv.keys_eq (h : Inv b) (side : Bool) : (b.half side).map Prod.fst
    = (Scan.positions side maxPrice).filter fun p => decide (b.resting.atPrice side p ≠ []) := by
  have : Std.Irrefl (Scan.Before side) := ⟨Scan.Before.irrefl side⟩
  have : Std.Antisymm (Scan.Before side) := ⟨fun _ _ h h' => absurd h' h.asymm⟩
  refine List.Pairwise.eq_of_mem_iff (r := Scan.Before side) ?_ ?_ ?_
  · rw [List.pairwise_map]
    exact h.sorted side
  · exact (Scan.pairwise_positions side maxPrice).filter _
  · intro p
    rw [List.mem_map, List.mem_filter, Scan.mem_positions, decide_eq_true_eq]
    constructor
    · rintro ⟨e, he, rfl⟩
      rw [h.atPrice_eq he]
      exact ⟨(h.ok side e he).lt, (h.ok side e he).ne_nil⟩
    · rintro ⟨-, hne⟩
      obtain ⟨r, hr⟩ := List.exists_mem_of_ne_nil _ hne
      obtain ⟨hr, hrp⟩ := List.mem_filter.mp hr
      obtain ⟨e, he, -, hprice⟩ := ordersOf_price (h.ok side) hr
      exact ⟨e, he, hprice.symm.trans (of_decide_eq_true hrp)⟩

/-- Under the invariant the depth listing is that of the resting orders. -/
theorem depth_spec (h : Inv b) (side : Bool) (limit : Nat)
    (hlen : (b.resting side).length < 2 ^ 32) :
    depth side b limit = b.resting.depth side limit := by
  rw [OrderBookLegacy.depth, Book.depth, ← h.keys_eq, List.map_map, ← List.map_take]
  apply List.map_congr_left
  intro e he
  have he := List.mem_of_mem_take he
  have hle : e.2.orders.length < 2 ^ 32 := by
    rw [← h.atPrice_eq he]
    exact (List.length_filter_le _ _).trans_lt hlen
  simp only [Function.comp_apply, h.atPrice_eq he, (h.ok side e he).total, Nat.mod_eq_of_lt hle]

/-- The order listing is that of the resting orders. -/
theorem orders_spec (b : OrderBookLegacy) (side : Bool) (limit : Nat) :
    orders side b limit = b.resting.orders side limit := by
  rw [OrderBookLegacy.orders, Book.orders, OrderBookLegacy.resting, ordersOf, List.map_flatMap]

end OrderBookLegacy

end ExchangeEngine
