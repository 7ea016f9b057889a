import ExchangeEngine.OrderBook.Properties

/-!
# Matching terminates

The outer loop of `match_buy` and `match_sell` moves on only when the bit of the level it has served
is gone, so the prices that it visits get worse and worse.
-/

namespace ExchangeEngine

namespace OrderBook

variable {b b₀ : OrderBook} {ix : Slots} {held : List Nat} {side : Bool} {p best lf fuel : Nat}
  {o : Order} {st st₁ : MatchState}

/-! ### The visited levels -/

/-- `matchLoop`, with the prices at which the body of the loop is executed. -/
def visitLoop (side : Bool) (levelFuel : Nat) :
    Nat → Nat → MatchState → Option (MatchState × Nat × List Nat)
  | 0, _, _ => none
  | fuel + 1, best, s =>
    if 0 < s.incoming.quantity ∧ best ≠ nullIdx ∧ crosses side s.incoming.price best then do
      let (s, stop) ← matchLevel side best levelFuel s
      match stop with
      | some rejectedQty => some (s, rejectedQty, [best])
      | none =>
        let list ← s.book.level (!side) best
        let book := if list.orderCount = 0 then clearBit (!side) s.book best else s.book
        let (s, rejectedQty, visited) ←
          visitLoop side levelFuel fuel (← getBest (!side) book) { s with book := book }
        some (s, rejectedQty, best :: visited)
    else some (s, 0, [])

def visitOrder (side : Bool) (fuel : Nat) (b : OrderBook) (incoming : Order) :
    Option (MatchState × Nat × List Nat) := do
  visitLoop side fuel fuel (← getBest (!side) b) ⟨b, incoming, [], []⟩

/-- Without the record it is the loop of the engine. -/
lemma map_visitLoop (side : Bool) (lf fuel best : Nat) (st : MatchState) :
    (visitLoop side lf fuel best st).map (fun x => (x.1, x.2.1))
      = matchLoop side lf fuel best st := by
  induction fuel generalizing best st with
  | zero => rfl
  | succ fuel ih =>
    rw [visitLoop, matchLoop]
    split_ifs
    · cases hrun : matchLevel side best lf st with
      | none => rfl
      | some x =>
        obtain ⟨st₁, stop⟩ := x
        cases stop with
        | some q => rfl
        | none =>
          simp only [Option.bind_eq_bind, Option.bind_some]
          cases hlist : st₁.book.level (!side) best with
          | none => rfl
          | some list =>
            simp only [Option.bind_some]
            generalize (if list.orderCount = 0 then clearBit (!side) st₁.book best
              else st₁.book) = book
            cases hbest : getBest (!side) book with
            | none => rfl
            | some best' =>
              simp only [Option.bind_some, ← ih, Option.map_bind]
              rw [Option.map_eq_bind]
              rfl
    · rfl

lemma map_visitOrder (side : Bool) (fuel : Nat) (b : OrderBook) (o : Order) :
    (visitOrder side fuel b o).map (fun x => (x.1, x.2.1)) = matchOrder side fuel b o := by
  rw [visitOrder, matchOrder]
  cases getBest (!side) b with
  | none => rfl
  | some best => exact map_visitLoop side fuel fuel best _

lemma visitLoop_zero (hn : st.incoming.quantity = 0) :
    visitLoop side lf (fuel + 1) best st = some (st, 0, []) := by
  simp [visitLoop, hn]

/-- The pass that goes on to the next level. -/
lemma visitLoop_next {best' : Nat} {book : OrderBook} (hn : st.incoming.quantity ≠ 0)
    (hbest : best < maxPrice) (hcross : crosses side st.incoming.price best = true)
    (hrun : matchLevel side best lf st = some (st₁, none))
    (hbook : (if ((st₁.book.half (!side)).levels best).orderCount = 0
      then clearBit (!side) st₁.book best else st₁.book) = book)
    (hbest' : getBest (!side) book = some best') :
    visitLoop side lf (fuel + 1) best st
      = (visitLoop side lf fuel best' { st₁ with book := book }).map
        fun x => (x.1, x.2.1, best :: x.2.2) := by
  rw [visitLoop, if_pos ⟨Nat.pos_of_ne_zero hn, ne_nullIdx hbest, hcross⟩, hrun]
  simp only [Option.bind_eq_bind, Option.bind_some, level, hbest, if_true, hbook, hbest']
  rw [Option.map_eq_bind]
  rfl

/-- More fuel does not matter. -/
lemma visitLoop_mono {lf' fuel' : Nat} {x : MatchState × Nat × List Nat} (hlf : lf ≤ lf')
    (hle : fuel ≤ fuel') (h : visitLoop side lf fuel best st = some x) :
    visitLoop side lf' fuel' best st = some x := by
  induction fuel generalizing fuel' best st x with
  | zero => cases h
  | succ fuel ih =>
    obtain ⟨fuel', rfl⟩ := Nat.exists_eq_add_one_of_ne_zero (Nat.ne_zero_of_lt hle)
    rw [visitLoop] at h ⊢
    split_ifs at h ⊢ with hgo
    · obtain ⟨⟨st₁, stop⟩, hrun, h⟩ := Option.bind_eq_some_iff.mp h
      rw [matchLevel_mono hlf hrun]
      simp only [Option.bind_eq_bind, Option.bind_some]
      cases stop with
      | some q => exact h
      | none =>
        obtain ⟨list, hlist, h⟩ := Option.bind_eq_some_iff.mp h
        obtain ⟨best', hbest, h⟩ := Option.bind_eq_some_iff.mp h
        obtain ⟨y, hrest, h⟩ := Option.bind_eq_some_iff.mp h
        simp only [hlist, Option.bind_some, hbest, ih (Nat.le_of_succ_le_succ hle) hrest]
        exact h
    · exact h

/-- The visited prices are among those at which the loop may find a level, in their order. -/
lemma visitLoop_sublist {pre ps visited : List Nat} {rej : Nat} {st' : MatchState}
    (h : Lists st.book ix held) (hm : Marks st.book (ordersOf st.book ix))
    (hps : Scan.positions (!side) maxPrice = pre ++ ps) (hpre : ∀ p ∈ pre, ix (!side) p = [])
    (hlf : maxOrders < lf)
    (hrun : visitLoop side lf fuel (bestOf (ordersOf st.book ix) (!side)) st
      = some (st', rej, visited)) : visited.Sublist ps := by
  induction ps generalizing st ix pre fuel visited with
  | nil =>
    have hbest : bestOf (ordersOf st.book ix) (!side) = nullIdx := by
      rw [bestOf_eq hps fun p hp => by rw [ordersOf, hpre p hp, List.map_nil]]
      rfl
    cases fuel with
    | zero => cases hrun
    | succ fuel =>
      rw [hbest, visitLoop, if_neg fun hgo => hgo.2.1 rfl] at hrun
      obtain ⟨-, -, rfl⟩ : st = st' ∧ 0 = rej ∧ [] = visited := by simpa using hrun
      exact List.Sublist.refl _
  | cons p ps ih =>
    have hps' : Scan.positions (!side) maxPrice = (pre ++ [p]) ++ ps := by
      rw [hps, List.append_assoc, List.singleton_append]
    by_cases hnil : ix (!side) p = []
    · -- an empty level is not visited
      have hpre' : ∀ q ∈ pre ++ [p], ix (!side) q = [] := by
        simpa [or_imp, forall_and, hnil] using hpre
      exact (ih h hm hps' hpre' hrun).cons p
    have hl := h.bestLevel hps hpre hnil
    rw [hl.best] at hrun
    cases fuel with
    | zero => cases hrun
    | succ fuel =>
      by_cases hn : st.incoming.quantity = 0
      · rw [visitLoop_zero hn] at hrun
        obtain ⟨-, -, rfl⟩ : st = st' ∧ 0 = rej ∧ [] = visited := by simpa using hrun
        exact List.nil_sublist _
      cases hc : crosses side st.incoming.price p with
      | false =>
        rw [visitLoop, if_neg fun hgo => by simp [hc] at hgo] at hrun
        obtain ⟨-, -, rfl⟩ : st = st' ∧ 0 = rej ∧ [] = visited := by simpa using hrun
        exact List.nil_sublist _
      | true =>
        obtain ⟨st₁, ix₁, stop, hlevel, hserved, hout⟩ :=
          matchLevel_spec h hl.lt rfl ((h.length_le (!side) p).trans_lt hlf)
        cases stop with
        | some q =>
          rw [visitLoop, if_pos ⟨Nat.pos_of_ne_zero hn, ne_nullIdx hl.lt, hc⟩, hlevel] at hrun
          obtain ⟨-, -, rfl⟩ : st₁ = st' ∧ q = rej ∧ [p] = visited := by simpa using hrun
          exact List.singleton_sublist.mpr List.mem_cons_self
        | none =>
          by_cases hleft : leftOf st.incoming (ordersOf st.book ix (!side) p) = []
          · have hm₁ := hserved.marks_clearBit hm hleft
            rw [visitLoop_next hn hl.lt hc hlevel (hl.book_of_exhausted hserved hleft)
              (hm₁.getBest_eq _)] at hrun
            obtain ⟨⟨st₂, rej₂, visited₂⟩, hrest, heq⟩ := Option.map_eq_some_iff.mp hrun
            obtain ⟨rfl, rfl, rfl⟩ : st₂ = st' ∧ rej₂ = rej ∧ p :: visited₂ = visited := by
              simpa using heq
            have hsub := @ih ix₁ fuel { st₁ with book := clearBit (!side) st₁.book p } (pre ++ [p])
              visited₂ (hserved.lists.setBits _ _) hm₁ hps' (hserved.slots_eq_nil hleft hpre) hrest
            exact hsub.cons_cons p
          · -- something of the level is left, so nothing is demanded any more
            obtain ⟨hgo, hin⟩ := outcome_eq_none hout.symm
            have hz : st₁.incoming.quantity = 0 := by
              rw [hin]
              exact short_eq_zero_of_left hl.pos hleft hgo
            have hm₁ := hserved.marks_of_left hm hl.orders hl.ne_nil hleft
            rw [visitLoop_next hn hl.lt hc hlevel (hl.book_of_left hserved hleft)
              (hm₁.getBest_eq _)] at hrun
            cases fuel with
            | zero => cases hrun
            | succ fuel =>
              rw [visitLoop_zero hz] at hrun
              obtain ⟨-, -, rfl⟩ : st₁ = st' ∧ 0 = rej ∧ [p] = visited := by simpa using hrun
              exact List.singleton_sublist.mpr List.mem_cons_self

/-! ### Reachable books -/

/-- A book as `match_buy` or `match_sell` may find it: as it is, or without the slot that a
submission has taken. -/
inductive Entered (b : OrderBook) : OrderBook → Prop
  | plain : Entered b b
  | taken {i : Nat} {free : List Nat} (hfree : b.freeIndices = i :: free) : Entered b
      { b with orderIdCounter := (b.orderIdCounter + 1) % 2 ^ 64, freeIndices := free }

lemma Entered.lists (h : Inv b) (hcounter : b.orderIdCounter + 1 < 2 ^ 64) (hb : Entered b b₀) :
    ∃ ix held, Lists b₀ ix held ∧ Marks b₀ (ordersOf b₀ ix) ∧ b₀.resting = b.resting := by
  obtain ⟨⟨ix, hl, hm⟩, -⟩ := h
  cases hb with
  | plain => exact ⟨ix, [], hl, hm, rfl⟩
  | taken hfree =>
    rw [Nat.mod_eq_of_lt hcounter]
    refine ⟨ix, _, hl.pop hfree, hm, ?_⟩
    funext s
    rw [(hl.pop hfree).resting_eq, hl.resting_eq]
    rfl

lemma Reachable.orderIdCounter_lt (h : Reachable b) : b.orderIdCounter < 2 ^ 32 := by
  induction h with
  | refl => decide
  | tail hreach hs ih =>
    cases hs with
    | listen => exact ih
    | submit hcan hcounter hrun =>
      obtain ⟨i, -, -, hsub⟩ := processOrder_sound (Reachable.inv hreach) hcan hcounter hrun
      rw [hsub.counter]
      exact hcounter
    | cancel hstale hrun =>
      obtain ⟨b₁, hrun', hc⟩ := cancelOrder_spec (Reachable.inv hreach) hstale
      obtain rfl := (Prod.mk.inj (Option.some.inj (hrun.symm.trans hrun'))).1
      rw [hc.counter]
      exact ih

/-- **Matching terminates** on every reachable book, with at most as many trades as there are
opposite orders at or better than the limit; the outer loop visits prices that get strictly worse,
so none twice. -/
theorem matching_terminates (h : Reachable b) (hb : Entered b b₀) (side : Bool) (o : Order) :
    ∃ st rejectedQty visited,
      (∀ fuel, maxOrders < fuel → matchOrder side fuel b₀ o = some (st, rejectedQty) ∧
        visitOrder side fuel b₀ o = some (st, rejectedQty, visited)) ∧
      st.fills.length
        ≤ ((b.resting (!side)).filter fun r => crosses side o.price r.price).length ∧
      visited.Pairwise (fun p q => if side then p < q else q < p) ∧ visited.Nodup := by
  have hcounter : b.orderIdCounter + 1 < 2 ^ 64 :=
    (Nat.succ_le_of_lt h.orderIdCounter_lt).trans_lt (by decide)
  obtain ⟨ix, held, hl, hm, hresting⟩ := hb.lists h.inv hcounter
  have hlt := Nat.lt_succ_self maxOrders
  obtain ⟨st, ix', rej, hrun, hserved, -⟩ := @matchOrder_spec _ _ _ side o _ hl hm hlt
  rw [hresting] at hserved
  obtain ⟨⟨st', rej', visited⟩, hvisit, heq⟩ :=
    Option.map_eq_some_iff.mp ((map_visitOrder side _ b₀ o).trans hrun)
  obtain ⟨rfl, rfl⟩ := Prod.mk.inj heq
  obtain ⟨best, hbest, hloop⟩ := Option.bind_eq_some_iff.mp hvisit
  rw [hm.getBest_eq] at hbest
  obtain rfl := Option.some.inj hbest
  have hsub : visited.Sublist (Scan.positions (!side) maxPrice) :=
    @visitLoop_sublist ix held side _ _ ⟨b₀, o, [], []⟩ [] _ visited _ _ hl hm rfl
      (fun _ hp => absurd hp List.not_mem_nil) hlt hloop
  refine ⟨st', rej', visited, fun fuel hfuel => ?_, ?_, ?_, ?_⟩
  · have hvisit' : visitOrder side fuel b₀ o = some (st', rej', visited) := by
      rw [visitOrder, hm.getBest_eq]
      exact visitLoop_mono hfuel hfuel hloop
    refine ⟨?_, hvisit'⟩
    rw [← map_visitOrder, hvisit']
    rfl
  · rw [hserved.fills, List.nil_append, bookTrades, List.length_map]
    exact Consume.length_served_le
  · have hsorted := (Scan.pairwise_positions (!side) maxPrice).sublist hsub
    cases side with
    | true => exact hsorted
    | false => exact hsorted
  · exact hsub.nodup (Scan.nodup_positions _ _)

/-- User 8 sells into the bid of user 7. -/
theorem matching_terminates_sampleOrder :
    ∃ r, processOrder true 100001 new sampleOrder = some r ∧
      ∃ st rejectedQty visited,
        (∀ fuel, maxOrders < fuel →
          matchOrder false fuel r.book ⟨0, 8, 0, 90, 3, 1, false⟩ = some (st, rejectedQty) ∧
          visitOrder false fuel r.book ⟨0, 8, 0, 90, 3, 1, false⟩
            = some (st, rejectedQty, visited)) ∧
        st.fills.length ≤ 1 ∧ visited.Nodup := by
  obtain ⟨r, hrun, hreach⟩ := sampleOrder_run
  obtain ⟨st, rej, visited, hmatch, hfills, -, hnodup⟩ :=
    matching_terminates hreach .plain false ⟨0, 8, 0, 90, 3, 1, false⟩
  have hcount : (processOrder true 100001 new sampleOrder).map
      (fun r => (OrderBook.orders true r.book 2).map List.length) = some (some 1) := by
    decide +kernel
  rw [hrun, Option.map_some, orders_spec hreach.inv, Option.map_some, Book.orders,
    List.length_take, List.length_map] at hcount
  have hlength : min 2 (r.book.resting true).length = 1 := by simpa using hcount
  have hle : (r.book.resting true).length ≤ 1 := by omega
  exact ⟨r, hrun, st, rej, visited, hmatch,
    hfills.trans ((List.length_filter_le _ _).trans hle), hnodup⟩

end OrderBook

end ExchangeEngine
