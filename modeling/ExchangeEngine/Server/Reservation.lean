import ExchangeEngine.Server.Wealth

/-!
# No reservation is dropped

When the engine thread pops an order, its quantity should be found again in the settlements queued,
in the book and in a refund. The `order` handler reserves without looking up the instrument, and
the engine thread skips a task without instrument; a book without listener settles nothing.
-/

namespace ExchangeEngine

/-- The quantity of the settlements that concern the order's side of the user's account. -/
def settledQty (c : Nat) (o : Order) (tasks : List DbTask) : Nat :=
  ((tasks.filter fun t => decide (t.type = .settle ∧ t.companyId = c ∧
    (if o.side then t.buyerId else t.sellerId) = o.userId)).map DbTask.quantity).sum

/-- The quantity given back: the tasks that are refunds of the order. -/
def refundedQty (c : Nat) (o : Order) (tasks : List DbTask) : Nat :=
  ((tasks.filter fun t => decide (t = refund o.userId o c t.quantity)).map DbTask.quantity).sum

/-- The quantity that came to rest between two books, for the user and at the price of the order. -/
def restedQty (before after : Book) (o : Order) : Nat :=
  (((after o.side).filter fun r => decide (r.userId = o.userId ∧ r.price = o.price ∧
    ∀ x ∈ before o.side, x.id ≠ r.id)).map Order.quantity).sum

/-- The quantity of the order is found in the settlements, in the book or in a refund. -/
def Accounted (m m' : MarketState) (c : Nat) (o : Order) (pushed : List DbTask) : Prop :=
  o.quantity = settledQty c o pushed + restedQty (m.restingOf c) (m'.restingOf c) o
    + refundedQty c o pushed

instance (m m' : MarketState) (c : Nat) (o : Order) (pushed : List DbTask) :
    Decidable (Accounted m m' c o pushed) :=
  inferInstanceAs (Decidable (_ = _))

/-- No order that crosses the limit is reached: there is none, or the first is the user's own. -/
def MeetsNobody (b : AnyBook) (o : Order) : Prop :=
  ∀ r ∈ (b.resting.crossing o).head?, sameOwner o r = true

/-- The order asks for nothing, or its company is listed and the book refuses it, or has a listener,
or finds nobody to trade with. -/
def KeepsReservation (m : MarketState) (c : Nat) (o : Order) : Prop :=
  o.quantity = 0 ∨ ∃ b, m.findInstrument c = some b ∧
    (b.canProcessOrder o = false ∨ b.tradeListener = true ∨ MeetsNobody b o)

section Counting

variable {c : Nat} {o : Order} {b : AnyBook} {m : MarketState} {t u : List DbTask} {q : Nat}

@[simp] lemma settledQty_nil : settledQty c o [] = 0 := rfl

@[simp] lemma refundedQty_nil : refundedQty c o [] = 0 := rfl

@[simp] lemma settledQty_append : settledQty c o (t ++ u) = settledQty c o t + settledQty c o u := by
  simp [settledQty]

@[simp] lemma refundedQty_append :
    refundedQty c o (t ++ u) = refundedQty c o t + refundedQty c o u := by
  simp [refundedQty]

@[simp] lemma type_refund_ne_settle : (refund o.userId o c q).type ≠ .settle := by
  simp only [refund]
  split_ifs
  · exact DbTaskType.noConfusion
  · exact DbTaskType.noConfusion

@[simp] lemma quantity_refund : (refund o.userId o c q).quantity = q := by
  simp only [refund]
  split_ifs
  · rfl
  · rfl

@[simp] lemma settledQty_refund : settledQty c o [refund o.userId o c q] = 0 := by
  simp [settledQty]

@[simp] lemma refundedQty_refund : refundedQty c o [refund o.userId o c q] = q := by
  simp [refundedQty]

/-- The settlements of a book's fills count what the order traded. -/
lemma settledQty_fills (B : Book) (hc : o.companyId = c) :
    settledQty c o ((B.fills o).flatMap onTrade) = B.traded o := by
  simp only [Book.fills, Book.traded]
  induction B.served o with
  | nil => rfl
  | cons x l ih =>
    rw [List.map_cons, List.flatMap_cons, settledQty_append, ih, List.map_cons, List.sum_cons]
    congr 1
    cases hs : o.side <;> simp [settledQty, onTrade, tradeOf, hs, hc]

lemma refundedQty_fills (ts : List Trade) : refundedQty c o (ts.flatMap onTrade) = 0 := by
  simp only [refundedQty]
  rw [List.filter_eq_nil_iff.mpr, List.map_nil, List.sum_nil]
  intro task htask heq
  have hof := List.filter_eq_self.mp (filter_onTrade ts) task htask
  rw [of_decide_eq_true heq, ofTrade_refund] at hof
  cases hof

/-- What rests anew after a submission is what was placed. -/
lemma restedQty_submit {B : Book} (hnew : ∀ s, ∀ x ∈ B s, x.id < o.id) :
    restedQty B (B.submit o) o = B.placed o := by
  have hold : (B o.side).filter (fun r => decide (r.userId = o.userId ∧ r.price = o.price ∧
      ∀ x ∈ B o.side, x.id ≠ r.id)) = [] := by
    rw [List.filter_eq_nil_iff]
    intro r hr h
    exact (of_decide_eq_true h).2.2 r hr rfl
  rw [restedQty, Book.submit_same]
  split_ifs with hp
  · rw [hold, hp]
    rfl
  · rw [((Book.insert_perm.filter _).map _).sum_eq, List.filter_cons_of_pos, hold, List.map_cons,
      List.map_nil, List.sum_singleton]
    rw [decide_eq_true_eq]
    exact ⟨rfl, rfl, fun x hx => (hnew _ x hx).ne⟩

lemma restedQty_self {B : Book} : restedQty B B o = 0 := by
  rw [restedQty, List.filter_eq_nil_iff.mpr, List.map_nil, List.sum_nil]
  intro r hr h
  exact (of_decide_eq_true h).2.2 r hr rfl

/-- An order trades unless it asks for nothing or meets nobody. -/
lemma traded_eq_zero_iff (hvalid : b.resting.Valid) :
    b.resting.traded o = 0 ↔ o.quantity = 0 ∨ MeetsNobody b o := by
  simp only [Book.traded, Book.served, MeetsNobody]
  have hpos : ∀ r ∈ b.resting.crossing o, 0 < r.quantity := fun r hr =>
    (hvalid.order _ r (Book.mem_crossing.mp hr).1).2.2
  cases hcross : b.resting.crossing o with
  | nil => simp
  | cons r l =>
    rw [hcross] at hpos
    by_cases hq : o.quantity = 0
    · simp [hq]
    cases hown : sameOwner o r with
    | true => simp [Consume.served_cons_of_stop hown, hown]
    | false =>
      have hr := hpos r List.mem_cons_self
      rw [Consume.served_cons_of_not_stop hown hq]
      simp [hown, hq, hr.ne']

end Counting

/-- What an order traded is settled if the book has a listener. -/
lemma settledQty_processed {b : AnyBook} {c : Nat} {o : Order} (hc : o.companyId = c) :
    settledQty c o (processedTasks b c o)
      = if b.tradeListener then b.resting.traded o else 0 := by
  rw [processedTasks, settledQty_append]
  split_ifs
  · rw [settledQty_fills _ hc, settledQty_refund, Nat.add_zero]
  · rw [settledQty_fills _ hc, settledQty_nil, Nat.add_zero]
  · rw [List.flatMap_nil, settledQty_nil, settledQty_refund]
  · rw [List.flatMap_nil, settledQty_nil]

/-- What was rejected is given back. -/
lemma refundedQty_processed {b : AnyBook} {c : Nat} {o : Order} :
    refundedQty c o (processedTasks b c o) = b.resting.rejected o := by
  rw [processedTasks, refundedQty_append, refundedQty_fills, Nat.zero_add]
  split_ifs with hpos
  · exact refundedQty_refund
  · rw [refundedQty_nil, Nat.eq_zero_of_not_pos hpos]

/-- **One order**: its quantity is accounted for exactly if the market keeps its reservation. -/
theorem Acts.accounted {m : MarketState} {c : Nat} {o : Order} {e : Effect} (hm : m.Ok)
    (haddr : o.companyId = c) (h : Acts m (.order c o) e) :
    Accounted m e.market c o e.pushed ↔ KeepsReservation m c o := by
  simp only [Accounted, KeepsReservation]
  cases h with
  | orderUnlisted _ hfind =>
    simp only [restedQty_self, settledQty_nil, refundedQty_nil, hfind]
    simp
  | orderRefused hfind hcan =>
    rw [restedQty_self, settledQty_refund, refundedQty_refund]
    simp only [Nat.zero_add, true_iff]
    exact Or.inr ⟨_, hfind, Or.inl hcan⟩
  | @orderProcessed c id o b r hfind hcan hs hlisten =>
    have hafter : (m.setBook c r.book).restingOf c = b.resting.submit { o with id := id } := by
      rw [restingOf_of_find (by rw [MarketState.findInstrument_setBook, if_pos rfl]), hs.resting]
    have hsettled := settledQty_processed (b := b) (o := { o with id := id }) haddr
    have hrefunded := refundedQty_processed (b := b) (c := c) (o := { o with id := id })
    have hrested := restedQty_submit (o := { o with id := id }) hs.new
    have htotal := Book.traded_add_placed_add_rejected (B := b.resting) (o := { o with id := id })
    have hzero := traded_eq_zero_iff (b := b) (o := { o with id := id }) (hm.inv c b hfind).valid
    -- neither the counting nor the condition looks at the id
    change settledQty c o _ = _ at hsettled
    change refundedQty c o _ = _ at hrefunded
    change restedQty _ _ o = _ at hrested
    change _ = o.quantity at htotal
    change _ ↔ o.quantity = 0 ∨ MeetsNobody b o at hzero
    simp only [restingOf_of_find hfind, hafter, hsettled, hrefunded, hrested, hfind]
    constructor
    · intro heq
      cases hl : b.tradeListener with
      | true => exact Or.inr ⟨b, rfl, Or.inr (Or.inl hl)⟩
      | false =>
        rw [hl, if_neg Bool.false_ne_true] at heq
        have hnone : b.resting.traded { o with id := id } = 0 := by omega
        rcases hzero.mp hnone with hq | hn
        · exact Or.inl hq
        · exact Or.inr ⟨b, rfl, Or.inr (Or.inr hn)⟩
    · intro hkeep
      cases hl : b.tradeListener with
      | true =>
        rw [if_pos rfl]
        exact htotal.symm
      | false =>
        have hnone : b.resting.traded { o with id := id } = 0 := by
          rw [hzero]
          rcases hkeep with hq | ⟨b', hb', hrefused | hlisten' | hn⟩
          · exact Or.inl hq
          · rw [← Option.some.inj hb', hcan] at hrefused
            cases hrefused
          · rw [← Option.some.inj hb', hl] at hlisten'
            cases hlisten'
          · rw [← Option.some.inj hb'] at hn
            exact Or.inr hn
        rw [if_neg Bool.false_ne_true]
        omega

namespace Server

/-- **When no reservation is dropped**: once the engine thread has popped an order, its quantity is
accounted for exactly if the market kept its reservation. -/
theorem accounted_iff {companies : List Nat} {m : MarketState} {db : Database} {s : Server}
    {fills : List Trade} {pushed : List DbTask} {c fuel : Nat} {o : Order}
    {queue : List EngineTask} (hm : MarketState.new companies = .ok m)
    (h : Run SafeEvent (start m db) s fills pushed) (hqueue : s.engineQueue = .order c o :: queue)
    (hsafe : s.SafeEvent (.engine fuel)) (hfuel : maxOrders < fuel) :
    ∃ s' fills' pushed', s.step (.engine fuel) = some (s', fills', pushed') ∧
      (Accounted s.market s'.market c o pushed' ↔ KeepsReservation s.market c o) := by
  have hok : s.Ok := Run.ok (fun _ _ h => h) (ok_start (ok_new hm) db) h
  have htask : (EngineTask.order c o).Safe s.market := hsafe _ (by rw [hqueue]; rfl)
  obtain ⟨e, hrun⟩ := Option.isSome_iff_exists.mp (runTask_isSome hok.market htask hfuel)
  have haddr : (EngineTask.order c o).Addressed :=
    hok.addressed _ (by rw [hqueue]; exact List.mem_cons_self)
  exact ⟨_, e.fills, e.pushed, step_of_runTask hqueue hrun,
    (runTask_acts hok.market htask hrun).accounted hok.market haddr⟩

theorem accounted_iff_sampleOffer : ∃ s s' fills' pushed',
    Run SafeEvent (start sampleMarket sampleDb) s [] [] ∧
      s.step (.engine 100001) = some (s', fills', pushed') ∧
      Accounted s.market s'.market 1 ⟨0, 7, 0, 5, 4, 1, false⟩ pushed' := by
  obtain ⟨⟨s, fills, pushed⟩, hrun, hout⟩ := Option.map_eq_some_iff.mp
    (by decide +kernel : (((start sampleMarket sampleDb).runEvents SafeEvent [sampleOffer]).map
      fun x => decide (x.1.engineQueue = [.order 1 ⟨0, 7, 0, 5, 4, 1, false⟩] ∧
        x.1.SafeEvent (.engine 100001) ∧ x.2 = ([], []) ∧
        (x.1.market.findInstrument 1).map AnyBook.tradeListener = some true)) = some true)
  obtain ⟨hqueue, hsafe, hnil, hlisten⟩ := of_decide_eq_true hout
  obtain ⟨rfl, rfl⟩ := Prod.mk.inj hnil
  obtain ⟨b, hb, hl⟩ := Option.map_eq_some_iff.mp hlisten
  have h := run_of_runEvents hrun
  obtain ⟨s', fills', pushed', hstep, hiff⟩ :=
    accounted_iff new_sampleMarket h hqueue hsafe (by decide)
  exact ⟨s, s', fills', pushed', h, hstep, hiff.mpr (Or.inr ⟨b, hb, Or.inr (Or.inl hl)⟩)⟩

/-- User 7 bids for a company that is not listed: the cash is reserved and never heard of again. -/
theorem reservation_dropped_unlisted : ∃ s s' fills' pushed',
    Run SafeEvent (start sampleMarket sampleDb) s [] [] ∧
      s.engineQueue = [.order 2 ⟨0, 7, 0, 5, 3, 2, true⟩] ∧ s.db.cash 7 = sampleDb.cash 7 - 5 * 3 ∧
      s.step (.engine 100001) = some (s', fills', pushed') ∧
      ¬ Accounted s.market s'.market 2 ⟨0, 7, 0, 5, 3, 2, true⟩ pushed' := by
  obtain ⟨⟨s, fills, pushed⟩, hrun, hout⟩ := Option.map_eq_some_iff.mp
    (by decide +kernel : (((start sampleMarket sampleDb).runEvents SafeEvent
      [.message 0 (.order ⟨"a", some 2, some "BUY", some 5, some 3, some 0, false, none⟩)]).map
      fun x => decide (x.1.engineQueue = [.order 2 ⟨0, 7, 0, 5, 3, 2, true⟩] ∧
        x.1.db.cash 7 = sampleDb.cash 7 - 5 * 3 ∧ x.2 = ([], []) ∧
        (x.1.step (.engine 100001)).map (fun y =>
          decide (Accounted x.1.market y.1.market 2 ⟨0, 7, 0, 5, 3, 2, true⟩ y.2.2)) = some false))
      = some true)
  obtain ⟨hqueue, hcash, hnil, hlost⟩ := of_decide_eq_true hout
  obtain ⟨rfl, rfl⟩ := Prod.mk.inj hnil
  obtain ⟨⟨s', fills', pushed'⟩, hstep, hlost⟩ := Option.map_eq_some_iff.mp hlost
  exact ⟨s, s', fills', pushed', run_of_runEvents hrun, hqueue, hcash, hstep,
    of_decide_eq_false hlost⟩

end Server

end ExchangeEngine
