import ExchangeEngine.OrderBook.Cancel

/-!
# The listings of `OrderBook`

Best price, depth and order listings read the bitmaps, the level counters and the lists; under the
invariant they report what the price-time-priority book contains.
-/

namespace ExchangeEngine

namespace OrderBook

open LinkedList

variable {b b' : OrderBook} {ix : Slots} {held l₁ l₂ : List Nat} {s : Bool} {p i id limit : Nat}

/-- The orders listed at a price are those of its level. -/
lemma Lists.atPrice_eq (h : Lists b ix held) (s : Bool) (hp : p < maxPrice) :
    b.resting.atPrice s p = ordersOf b ix s p := by
  obtain ⟨pre, post, hsplit, hpre, hpost⟩ := Scan.positions_split s hp
  have hirrefl : ∀ q, ¬ Scan.Before s q q := by
    intro q
    cases s <;> simp [Scan.Before]
  have hother : ∀ l : List Nat, p ∉ l →
      (l.flatMap (ordersOf b ix s)).filter (fun r => decide (r.price = p)) = [] := by
    intro l hl
    rw [List.filter_eq_nil_iff]
    intro r hr
    obtain ⟨q, hq, hr⟩ := List.mem_flatMap.mp hr
    rw [h.price s q r hr, decide_eq_true_eq]
    rintro rfl
    exact hl hq
  have hsame : (ordersOf b ix s p).filter (fun r => decide (r.price = p)) = ordersOf b ix s p := by
    rw [List.filter_eq_self]
    intro r hr
    exact decide_eq_true (h.price s p r hr)
  rw [Book.atPrice, h.resting_eq, hsplit, List.flatMap_append, List.flatMap_cons,
    List.filter_append, List.filter_append, hsame, hother pre fun e => hirrefl _ (hpre _ e).1,
    hother post fun e => hirrefl _ (hpost _ e).1, List.nil_append, List.append_nil]

/-! ### Best prices -/

theorem getBest_spec (hinv : Inv b) (side : Bool) :
    getBest side b = some (b.resting.best side) := by
  obtain ⟨⟨ix, h, hm⟩, -⟩ := hinv
  rw [hm.getBest_eq, bestOf, Book.best, h.resting_eq]
  generalize Scan.positions side maxPrice = ps
  congr 1
  induction ps with
  | nil => rfl
  | cons p ps ih =>
    by_cases hnil : ordersOf b ix side p = []
    · rw [List.filter_cons_of_neg (by simp [hnil]), ih, List.flatMap_cons, hnil, List.nil_append]
    · obtain ⟨r, l, hl⟩ := List.exists_cons_of_ne_nil hnil
      have hprice := h.price side p r (hl ▸ List.mem_cons_self)
      rw [List.filter_cons_of_pos (by simp [hnil]), List.flatMap_cons, hl]
      exact hprice.symm

/-! ### Depth -/

/-- The depth row of a level. -/
def depthRow (b : OrderBook) (side : Bool) (p : Nat) : DepthLevel :=
  ⟨p, ((b.half side).levels p).totalQuantity, ((b.half side).levels p).orderCount⟩

/-- The depth scan lists the non-empty levels in scanning order, cut at the limit. -/
lemma depth_eq {Q : Queues} (hm : Marks b Q) (side : Bool) (limit : Nat) :
    depth side b limit = some ((((Scan.positions side maxPrice).filter
      fun p => decide (Q side p ≠ [])).map (b.depthRow side)).take limit) := by
  have hrep := hm side
  have hlisting := hrep.listing_eq side
  have hlen : ∀ x : BitVec 64, (Scan.bits side x).length < 65 := fun x =>
    Nat.lt_succ_of_le (Scan.length_bits_le side x)
  rw [← hlisting, depth]
  generalize (b.half side).bits = m at hrep ⊢
  -- the price, word and row numbers that a scan of set bits can reach are in bounds
  have hprice : ∀ i, ∀ k ∈ Scan.bits side (m.l1 i), i * 64 + k < maxPrice := by
    intro i k hk
    obtain ⟨hk, hbit⟩ := Scan.mem_bits.mp hk
    apply hrep.lt
    rw [← hrep.l1, show (i * 64 + k) / 64 = i by omega, show (i * 64 + k) % 64 = k by omega]
    exact hbit
  have hword : ∀ j, ∀ i ∈ Scan.bits side (m.l2 j), j * 64 + i < bitmapL1Size := by
    intro j i hi
    obtain ⟨hi, hbit⟩ := Scan.mem_bits.mp hi
    apply hrep.l1_lt
    rw [← hrep.l2, show (j * 64 + i) / 64 = j by omega, show (j * 64 + i) % 64 = i by omega]
    exact hbit
  have hrow : ∀ j ∈ Scan.bits side m.l3, j < bitmapL2Size := by
    intro j hj
    exact hrep.l2_lt ((hrep.l3 j).mp (Scan.mem_bits.mp hj).2)
  -- the three loops, from the inside
  have hbit : ∀ j, ∀ i ∈ Scan.bits side (m.l2 j), ∀ acc : List DepthLevel, acc.length < limit →
      (m.readL1 (j * 64 + i)).bind (fun l1Copy => Scan.loop side (fun k acc =>
          (b.level side ((j * 64 + i) * 64 + k)).bind fun list =>
            some (acc ++ [⟨(j * 64 + i) * 64 + k, list.totalQuantity, list.orderCount⟩]))
        limit 65 l1Copy acc)
      = some ((acc ++ (Scan.bits side (m.l1 (j * 64 + i))).flatMap
        fun k => [b.depthRow side ((j * 64 + i) * 64 + k)]).take limit) := by
    intro j i hi acc hacc
    rw [Bitmap.readL1, if_pos (hword j i hi), Option.bind_some]
    apply Scan.loop_eq _ _ hacc.le (hlen _)
    intro k hk acc hacc
    rw [level, if_pos (hprice _ k hk), Option.bind_some, List.take_of_length_le]
    · rfl
    · rw [List.length_append]
      exact hacc
  have hscan : ∀ j ∈ Scan.bits side m.l3, ∀ acc : List DepthLevel, acc.length < limit →
      (m.readL2 j).bind (fun l2Copy => Scan.loop side (fun i acc =>
          (m.readL1 (j * 64 + i)).bind fun l1Copy => Scan.loop side (fun k acc =>
              (b.level side ((j * 64 + i) * 64 + k)).bind fun list =>
                some (acc ++ [⟨(j * 64 + i) * 64 + k, list.totalQuantity, list.orderCount⟩]))
            limit 65 l1Copy acc)
        limit 65 l2Copy acc)
      = some ((acc ++ (Scan.bits side (m.l2 j)).flatMap fun i =>
        (Scan.bits side (m.l1 (j * 64 + i))).flatMap
          fun k => [b.depthRow side ((j * 64 + i) * 64 + k)]).take limit) := by
    intro j hj acc hacc
    rw [Bitmap.readL2, if_pos (hrow j hj), Option.bind_some]
    exact Scan.loop_eq _ (hbit j) hacc.le (hlen _)
  apply (Scan.loop_eq _ hscan (Nat.zero_le _) (hlen _)).trans
  simp only [List.nil_append, Bitmap.listing, List.map_flatMap, List.map_map,
    ← List.map_eq_flatMap]
  rfl

/-- Under the invariant the depth listing is that of the resting orders. -/
theorem depth_spec (hinv : Inv b) (side : Bool) (limit : Nat) :
    depth side b limit = some (b.resting.depth side limit) := by
  obtain ⟨⟨ix, h, hm⟩, -⟩ := hinv
  have hfilter : ((Scan.positions side maxPrice).filter
        fun p => decide (ordersOf b ix side p ≠ []))
      = (Scan.positions side maxPrice).filter fun p => decide (b.resting.atPrice side p ≠ []) := by
    apply List.filter_congr
    intro p hp
    rw [h.atPrice_eq side (Scan.mem_positions.mp hp)]
  rw [depth_eq hm, Book.depth, hfilter]
  congr 2
  apply List.map_congr_left
  intro p hp
  have hp := Scan.mem_positions.mp (List.mem_filter.mp hp).1
  rw [depthRow, h.atPrice_eq side hp, h.total side p hp, h.count side p hp, ordersOf,
    List.length_map]

/-! ### Orders -/

/-- Cutting the blocks and then the items is cutting the items, when no block is empty. -/
lemma take_flatMap_take {α β : Type*} {f : α → List β} {l : List α} (hf : ∀ a ∈ l, f a ≠ [])
    (n : Nat) : ((l.take n).flatMap f).take n = (l.flatMap f).take n := by
  induction l generalizing n with
  | nil => simp
  | cons a l ih =>
    cases n with
    | zero => simp
    | succ n =>
      have hlen : 0 < (f a).length := List.length_pos_of_ne_nil (hf a (by simp))
      have hih := congrArg (List.take (n + 1 - (f a).length))
        (ih (fun b hb => hf b (by simp [hb])) n)
      rw [List.take_take, List.take_take, Nat.min_eq_left (by omega)] at hih
      rw [List.take_succ_cons, List.flatMap_cons, List.flatMap_cons, List.take_append,
        List.take_append, hih]

/-- The inner listing loop follows the links of a level. -/
lemma collectLevel_seg {l : List Nat} {q head room : Nat} {snaps : List OrderSnapshot}
    (hs : Seg b.next b.prev nullIdx q l head nullIdx) (hl : ∀ i ∈ l, i < maxOrders) :
    collectLevel b.nodePool room head snaps
      = some (snaps ++ ((l.map b.orderAt).map Order.snapshot).take room) := by
  induction l generalizing q head room snaps with
  | nil =>
    rw [seg_nil] at hs
    cases room with
    | zero => simp [collectLevel]
    | succ room => simp [collectLevel, hs]
  | cons i l ih =>
    obtain ⟨rfl, hnull, -, hs⟩ := hs
    cases room with
    | zero => simp [collectLevel]
    | succ room =>
      have hstep : collectLevel b.nodePool (room + 1) head snaps
          = collectLevel b.nodePool room (b.next head)
            (snaps ++ [(b.orderAt head).snapshot]) := by
        simp only [collectLevel, hnull, if_false, Pool.read, hl head (by simp), if_true,
          Option.bind_eq_bind, Option.bind_some]
        rfl
      rw [hstep, ih hs fun j hj => hl j (by simp [hj])]
      simp

/-- The outer listing loop collects the levels until the limit is reached. -/
lemma collectLevels_eq (h : Lists b ix held) {ps : List Nat} {snaps : List OrderSnapshot}
    (hps : ∀ p ∈ ps, p < maxPrice) (hsnaps : snaps.length ≤ limit) :
    collectLevels s b limit (ps.map (b.depthRow s)) snaps
      = some ((snaps ++ (ps.flatMap (ordersOf b ix s)).map Order.snapshot).take limit) := by
  induction ps generalizing snaps with
  | nil => simp [collectLevels, List.take_of_length_le hsnaps]
  | cons p ps ih =>
    have hp := hps p (by simp)
    have hlevel : collectLevel b.nodePool (limit - snaps.length)
        ((b.half s).levels p).headIdx snaps = some (snaps
          ++ (((ix s p).map b.orderAt).map Order.snapshot).take (limit - snaps.length)) :=
      collectLevel_seg (h.linked s p hp).seg fun i hi => (h.slot s p i hi).2
    have htake : snaps ++ (((ix s p).map b.orderAt).map Order.snapshot).take (limit - snaps.length)
        = (snaps ++ (ordersOf b ix s p).map Order.snapshot).take limit := by
      rw [List.take_append, List.take_of_length_le hsnaps]
      rfl
    rw [htake] at hlevel
    rw [List.map_cons, collectLevels]
    simp only [depthRow, level, hp, if_true, Option.bind_eq_bind, Option.bind_some, hlevel]
    rw [List.flatMap_cons, List.map_append, ← List.append_assoc]
    split_ifs with hfull
    · rw [List.length_take, min_eq_left_iff] at hfull
      rw [List.take_append_of_le_length hfull]
    · apply (ih (fun q hq => hps q (by simp [hq])) (List.length_take_le _ _)).trans
      rw [Scan.take_take_append]

/-- Under the invariant the order listing is that of the resting orders. -/
theorem orders_spec (hinv : Inv b) (side : Bool) (limit : Nat) :
    orders side b limit = some (b.resting.orders side limit) := by
  obtain ⟨⟨ix, h, hm⟩, -⟩ := hinv
  rw [orders, depth_eq hm]
  simp only [Option.bind_eq_bind, Option.bind_some]
  rw [← List.map_take, collectLevels_eq h _ (Nat.zero_le _)]
  · rw [List.nil_append, ← List.map_take, take_flatMap_take, Book.orders, h.resting_eq,
      List.map_take]
    · congr 3
      generalize Scan.positions side maxPrice = ps
      induction ps with
      | nil => rfl
      | cons p ps ih =>
        by_cases hnil : ordersOf b ix side p = []
        · rw [List.filter_cons_of_neg (by simp [hnil]), ih, List.flatMap_cons, hnil,
            List.nil_append]
        · rw [List.filter_cons_of_pos (by simp [hnil]), List.flatMap_cons, List.flatMap_cons, ih]
    · intro p hp
      simpa using (List.mem_filter.mp hp).2
  · intro p hp
    exact Scan.mem_positions.mp (List.mem_filter.mp (List.mem_of_mem_take hp)).1

end OrderBook

end ExchangeEngine
