import ExchangeEngine.OrderBook.Properties

/-!
# Every unit of an order is accounted for

Along a trace the quantity of an accepted order is what its trades name, what was rejected, what
its cancellation handed out and what still rests.
-/

namespace ExchangeEngine

/-- The quantity of the trades that name the order. -/
def tradedQty (i : Nat) (ts : List Trade) : Nat :=
  ((ts.filter fun t => decide (t.buyOrderId = i ∨ t.sellOrderId = i)).map Trade.quantity).sum

/-- One for the order of this id, zero for all others. -/
def named (i : Nat) (r : Order) : Int := if r.id = i then 1 else 0

/-- The quantity resting under an id. -/
def Book.restingQty (i : Nat) (B : Book) : Nat :=
  (((B true ++ B false).filter fun r => decide (r.id = i)).map Order.quantity).sum

section Book

variable {B : Book} {o x : Order} {i : Nat} {s : Bool} {ts us : List Trade}

lemma tradedQty_cons (t : Trade) : tradedQty i (t :: ts)
    = (if t.buyOrderId = i ∨ t.sellOrderId = i then t.quantity else 0) + tradedQty i ts := by
  rw [tradedQty, List.filter_cons]
  split_ifs with h h' h'
  · rfl
  · exact absurd (of_decide_eq_true h) h'
  · exact absurd (decide_eq_true h') h
  · exact (Nat.zero_add _).symm

lemma tradedQty_eq_zero (h : ∀ t ∈ ts, t.buyOrderId ≠ i ∧ t.sellOrderId ≠ i) :
    tradedQty i ts = 0 := by
  rw [tradedQty, List.filter_eq_nil_iff.mpr, List.map_nil, List.sum_nil]
  intro t ht hi
  rcases of_decide_eq_true hi with hi | hi
  · exact (h t ht).1 hi
  · exact (h t ht).2 hi

lemma worth_named (l : List Order) : Consume.worth Order.quantity (named i) l
    = (((l.filter fun r => decide (r.id = i)).map Order.quantity).sum : Nat) := by
  induction l with
  | nil => rfl
  | cons r l ih =>
    rw [Consume.worth_cons, ih, List.filter_cons, named]
    by_cases h : r.id = i
    · simp [h]
    · simp [h]

lemma restingQty_eq_held : (B.restingQty i : Int) = B.held (named i) := by
  rw [Book.restingQty, ← worth_named, Consume.worth_append]
  rfl

/-- The ids of the fills of `o` are its own and those of resting orders. -/
lemma mem_fills {t : Trade} (h : t ∈ B.fills o) : ∃ r ∈ B (!o.side),
    (t.buyOrderId = o.id ∧ t.sellOrderId = r.id) ∨ (t.buyOrderId = r.id ∧ t.sellOrderId = o.id) := by
  obtain ⟨⟨r, q⟩, hr, rfl⟩ := List.mem_map.mp h
  refine ⟨r, (Book.mem_crossing.mp (Consume.mem_avail (Consume.mem_of_mem_takes hr)).1).1, ?_⟩
  cases hs : o.side with
  | true => exact Or.inl ⟨rfl, rfl⟩
  | false => exact Or.inr ⟨rfl, rfl⟩

/-- The fills of `o` name it with all it traded. -/
lemma tradedQty_fills_self : tradedQty o.id (B.fills o) = B.traded o := by
  rw [Book.fills, Book.traded]
  induction B.served o with
  | nil => rfl
  | cons y l ih =>
    rw [List.map_cons, tradedQty_cons, ih, List.map_cons, List.sum_cons]
    cases hs : o.side <;> simp [tradeOf]

/-- The fills of `o` name any other order with what was taken from it. -/
lemma tradedQty_fills (hi : i ≠ o.id) :
    (tradedQty i (B.fills o) : Int) = B.taken (named i) o := by
  rw [Book.fills, Book.taken]
  induction B.served o with
  | nil => rfl
  | cons y l ih =>
    rw [List.map_cons, tradedQty_cons, Nat.cast_add, ih, List.map_cons, List.sum_cons, named]
    congr 1
    cases hs : o.side <;> simp [tradeOf, hi.symm]

/-- What a submission does to the quantity resting under an older id. -/
lemma restingQty_submit (hi : i ≠ o.id) :
    (B.submit o).restingQty i + tradedQty i (B.fills o) = B.restingQty i := by
  have hheld : (B.submit o).held (named i) + B.taken (named i) o
      = B.held (named i) + named i o * B.placed o := Book.held_submit fun _ _ => rfl
  rw [named, if_neg hi.symm, zero_mul, add_zero, ← tradedQty_fills hi, ← restingQty_eq_held,
    ← restingQty_eq_held] at hheld
  exact_mod_cast hheld

/-- What comes to rest under the new id. -/
lemma restingQty_submit_self (hnew : ∀ s, ∀ r ∈ B s, r.id < o.id) :
    (B.submit o).restingQty o.id = B.placed o := by
  have hheld : (B.submit o).held (named o.id) + B.taken (named o.id) o
      = B.held (named o.id) + named o.id o * B.placed o := Book.held_submit fun _ _ => rfl
  have hnone : B.held (named o.id) = 0 := by
    rw [← restingQty_eq_held, Book.restingQty, List.filter_eq_nil_iff.mpr]
    · rfl
    · intro r hr hid
      obtain ⟨s, hr⟩ := Book.mem_sides.mp hr
      exact (hnew s r hr).ne (of_decide_eq_true hid)
  have htaken : B.taken (named o.id) o = 0 := by
    rw [Book.taken]
    apply List.sum_eq_zero
    intro n hn
    obtain ⟨⟨r, q⟩, hr, rfl⟩ := List.mem_map.mp hn
    have hmem := (Book.mem_crossing.mp (Consume.mem_avail (Consume.mem_of_mem_takes hr)).1).1
    rw [named, if_neg (hnew _ r hmem).ne, zero_mul]
  rw [hnone, htaken, ← restingQty_eq_held, named, if_pos rfl] at hheld
  rw [add_zero, zero_add, one_mul] at hheld
  exact_mod_cast hheld

/-- Cancelling an order leaves nothing under its id, and nothing else changes. -/
lemma restingQty_remove (hvalid : B.Valid) (hx : x ∈ B s) :
    (B.remove x.id).restingQty i + (if x.id = i then x.quantity else 0) = B.restingQty i := by
  have hheld := hvalid.held_remove (named i) hx
  rw [named, ← restingQty_eq_held, ← restingQty_eq_held] at hheld
  split_ifs at hheld ⊢
  · rw [one_mul] at hheld
    exact_mod_cast hheld
  · rw [zero_mul] at hheld
    exact_mod_cast hheld

lemma restingQty_remove_self (id : Nat) : (B.remove id).restingQty id = 0 := by
  rw [Book.restingQty, List.filter_eq_nil_iff.mpr]
  · rfl
  · intro r hr hid
    obtain ⟨s, hr⟩ := Book.mem_sides.mp hr
    rw [Book.remove, List.mem_filter] at hr
    exact of_decide_eq_true hr.2 (of_decide_eq_true hid)

/-- An order that came to rest was not rejected. -/
lemma placed_eq_zero_or_rejected_eq_zero : B.placed o = 0 ∨ B.rejected o = 0 := by
  rw [Book.placed, Book.rejected]
  split_ifs
  · exact Or.inr rfl
  · exact Or.inl rfl

end Book

namespace OrderBook

/-- The quantity of the trades of a call that name the order. -/
def Event.traded (i : Nat) : Event → Nat
  | submitted _ _ _ trades => tradedQty i trades
  | cancelled _ _ _ => 0

/-- The quantity that a call hands out as that of the cancelled order. -/
def Event.cancelledQty (i : Nat) : Event → Nat
  | submitted _ _ _ _ => 0
  | cancelled _ _ out => (out.map fun x => if x.id = i then x.quantity else 0).getD 0

/-- The parts of an order's quantity at some point of a run. -/
structure Parts where
  traded : Nat
  rejected : Nat
  cancelled : Nat
  resting : Nat

/-- All parts add up to the quantity, and only one of the last three is there. -/
def Parts.Account (p : Parts) (quantity : Nat) : Prop :=
  quantity = p.traded + p.rejected + p.cancelled + p.resting ∧
    (p.rejected = 0 ∨ p.cancelled = 0) ∧ (p.rejected = 0 ∨ p.resting = 0) ∧
    (p.cancelled = 0 ∨ p.resting = 0)

/-- The parts of the order with id `i`, of which `rejected` was rejected. -/
def parts (i rejected : Nat) (evs : List Event) (b : OrderBook) : Parts where
  traded := (evs.map (Event.traded i)).sum
  rejected := rejected
  cancelled := (evs.map (Event.cancelledQty i)).sum
  resting := b.resting.restingQty i

/-- Everything an event names is older than `n`. -/
def Event.Before (n : Nat) : Event → Prop
  | submitted _ order _ trades => order.id < n ∧ ∀ t ∈ trades, t.buyOrderId < n ∧ t.sellOrderId < n
  | cancelled _ _ out => ∀ x ∈ out, x.id < n

variable {b b' : OrderBook} {evs : List Event} {o order : Order} {fuel id i rej : Nat}
  {userId : Int} {trades : List Trade}

lemma Event.Before.mono {n n' : Nat} {e : Event} (h : e.Before n) (hle : n ≤ n') : e.Before n' := by
  cases e with
  | submitted o order rej trades =>
    exact ⟨h.1.trans_le hle, fun t ht => ⟨(h.2 t ht).1.trans_le hle, (h.2 t ht).2.trans_le hle⟩⟩
  | cancelled id userId out => exact fun x hx => (h x hx).trans_le hle

/-- **Ids only grow**: everything handed out so far is older than the next order. -/
lemma Trace.before (h : Trace b evs) :
    (∀ e ∈ evs, e.Before ((b.orderIdCounter + 1) * 2 ^ 32)) ∧
      ∀ s, ∀ r ∈ b.resting s, r.id < (b.orderIdCounter + 1) * 2 ^ 32 := by
  have hrest : ∀ {b evs}, Trace b evs → ∀ s, ∀ r ∈ b.resting s,
      r.id < (b.orderIdCounter + 1) * 2 ^ 32 := by
    intro b evs h s r hr
    obtain ⟨⟨ix, hl, -⟩, -⟩ := h.inv
    have hlt := hl.id_lt (i := 0) (Nat.lt_succ_self b.orderIdCounter) s hr
    rwa [Nat.add_zero] at hlt
  refine ⟨?_, hrest h⟩
  induction h with
  | start => exact fun e he => absurd he List.not_mem_nil
  | @submit b evs o fuel r h hcan hcounter hrun ih =>
    obtain ⟨i, hi, hs, hnotified⟩ := h.submit_spec hcan hcounter hrun
    have hlt : (b.orderIdCounter + 1) * 2 ^ 32 + i < (r.book.orderIdCounter + 1) * 2 ^ 32 := by
      rw [hs.counter]
      simp only [maxOrders] at hi
      omega
    intro e he
    rcases List.mem_append.mp he with he | he
    · exact (ih e he).mono (le_trans (Nat.le_add_right _ i) hlt.le)
    · rw [List.mem_singleton.mp he]
      refine ⟨?_, ?_⟩
      · rw [hs.order]
        exact hlt
      · intro t ht
        rw [hnotified] at ht
        obtain ⟨x, hx, hids⟩ := mem_fills ht
        have hold := (hrest h _ x hx).trans_le (le_trans (Nat.le_add_right _ i) hlt.le)
        rcases hids with ⟨hbuy, hsell⟩ | ⟨hbuy, hsell⟩
        · rw [hbuy, hsell]
          exact ⟨hlt, hold⟩
        · rw [hbuy, hsell]
          exact ⟨hold, hlt⟩
  | @cancel b b' evs id userId out h hid hrun ih =>
    obtain ⟨hout, hc⟩ := h.cancel_spec hid hrun
    intro e he
    rw [hc.counter]
    rcases List.mem_append.mp he with he | he
    · exact ih e he
    · rw [List.mem_singleton.mp he]
      intro x hx
      rw [hout] at hx
      obtain ⟨⟨s, hmem⟩, -⟩ := (Book.find_eq_some_iff h.inv.valid).mp hx
      exact hrest h s x hmem

lemma parts_append (e : Event) : parts i rej (evs ++ [e]) b' =
    { traded := (evs.map (Event.traded i)).sum + e.traded i
      rejected := rej
      cancelled := (evs.map (Event.cancelledQty i)).sum + e.cancelledQty i
      resting := b'.resting.restingQty i } := by
  simp [parts]

/-- Nothing older names the next order. -/
lemma sum_eq_zero_of_before {n : Nat} (h : ∀ e ∈ evs, e.Before n) (hi : n ≤ i) :
    (evs.map (Event.traded i)).sum = 0 ∧ (evs.map (Event.cancelledQty i)).sum = 0 := by
  constructor
  · apply List.sum_eq_zero
    intro m hm
    obtain ⟨e, he, rfl⟩ := List.mem_map.mp hm
    cases e with
    | submitted o order rej trades =>
      apply tradedQty_eq_zero
      intro t ht
      obtain ⟨hbuy, hsell⟩ := (h _ he).2 t ht
      exact ⟨(hbuy.trans_le hi).ne, (hsell.trans_le hi).ne⟩
    | cancelled id userId out => rfl
  · apply List.sum_eq_zero
    intro m hm
    obtain ⟨e, he, rfl⟩ := List.mem_map.mp hm
    cases e with
    | submitted o order rej trades => rfl
    | cancelled id userId out =>
      cases out with
      | none => rfl
      | some x => exact if_neg ((h _ he x rfl).trans_le hi).ne

/-- **A submission** keeps the account of every older order. -/
lemma Parts.Account.submit {B : Book} {traded cancelled quantity : Nat} (hi : i ≠ o.id)
    (h : Parts.Account ⟨traded, rej, cancelled, B.restingQty i⟩ quantity) :
    Parts.Account ⟨traded + tradedQty i (B.fills o), rej, cancelled, (B.submit o).restingQty i⟩
      quantity := by
  have hmove := restingQty_submit (B := B) hi
  obtain ⟨hsum, hrc, hrr, hcr⟩ := h
  simp only at hsum hrc hrr hcr
  refine ⟨?_, hrc, ?_, ?_⟩
  · simp only
    omega
  · exact hrr.imp_right fun hz => (Nat.add_eq_zero_iff.mp (hmove.trans hz)).1
  · exact hcr.imp_right fun hz => (Nat.add_eq_zero_iff.mp (hmove.trans hz)).1

/-- **The submission** of an order opens its account. -/
lemma Parts.Account.open {B : Book} (hnew : ∀ s, ∀ r ∈ B s, r.id < o.id) :
    Parts.Account ⟨tradedQty o.id (B.fills o), B.rejected o, 0, (B.submit o).restingQty o.id⟩
      o.quantity := by
  have htotal := Book.traded_add_placed_add_rejected (B := B) (o := o)
  rw [restingQty_submit_self hnew, tradedQty_fills_self]
  refine ⟨?_, Or.inr rfl, placed_eq_zero_or_rejected_eq_zero.symm, Or.inl rfl⟩
  simp only
  omega

/-- **A cancellation** moves what rests to what was cancelled. -/
lemma Parts.Account.cancel {B : Book} {x : Order} {s : Bool} {traded cancelled quantity : Nat}
    (hvalid : B.Valid) (hx : x ∈ B s)
    (h : Parts.Account ⟨traded, rej, cancelled, B.restingQty i⟩ quantity) :
    Parts.Account ⟨traded, rej, cancelled + (if x.id = i then x.quantity else 0),
      (B.remove x.id).restingQty i⟩ quantity := by
  have hmove := restingQty_remove (i := i) hvalid hx
  obtain ⟨hsum, hrc, hrr, hcr⟩ := h
  simp only at hsum hrc hrr hcr
  by_cases hid : x.id = i
  · subst hid
    rw [if_pos rfl] at hmove ⊢
    have hrest := restingQty_remove_self (B := B) x.id
    have hpos : 0 < x.quantity := hvalid.pos x hx
    rw [hrest] at hmove ⊢
    have hzero : rej = 0 := hrr.resolve_right (by omega)
    refine ⟨?_, Or.inl hzero, Or.inr rfl, Or.inr rfl⟩
    simp only
    omega
  · rw [if_neg hid] at hmove ⊢
    rw [Nat.add_zero] at hmove ⊢
    rw [hmove]
    exact ⟨hsum, hrc, hrr, hcr⟩

/-- **Order-quantity accounting**: at every point of a run, the quantity of every order accepted so
far is what the emitted trades naming it say, what was rejected at its submission, what its
cancellation handed out and what rests under its id; of the last three only one is there. -/
theorem quantity_accounted (h : Trace b evs) (hmem : .submitted o order rej trades ∈ evs) :
    (parts order.id rej evs b).Account o.quantity := by
  induction h with
  | start => exact absurd hmem List.not_mem_nil
  | @submit b evs o' fuel r h hcan hcounter hrun ih =>
    obtain ⟨k, -, hs, hnotified⟩ := h.submit_spec hcan hcounter hrun
    obtain ⟨hbefore, hrest⟩ := h.before
    have hnext : (b.orderIdCounter + 1) * 2 ^ 32 ≤ (b.orderIdCounter + 1) * 2 ^ 32 + k :=
      Nat.le_add_right _ k
    rw [parts_append, hs.resting]
    simp only [Event.traded, Event.cancelledQty, Nat.add_zero, hnotified]
    rcases List.mem_append.mp hmem with hmem | hmem
    · have hold : order.id < (b.orderIdCounter + 1) * 2 ^ 32 := (hbefore _ hmem).1
      exact (ih hmem).submit (hold.trans_le hnext).ne
    · obtain ⟨rfl, rfl, rfl, -⟩ := Event.submitted.inj (List.mem_singleton.mp hmem)
      rw [hs.order, hs.rejected]
      obtain ⟨htraded, hcancelled⟩ := sum_eq_zero_of_before hbefore hnext
      rw [htraded, hcancelled, Nat.zero_add]
      refine Parts.Account.open (o := { o with id := (b.orderIdCounter + 1) * 2 ^ 32 + k }) ?_
      exact fun s x hx => (hrest s x hx).trans_le hnext
  | @cancel b b' evs id userId out h hid hrun ih =>
    obtain ⟨hout, hc⟩ := h.cancel_spec hid hrun
    have hold : .submitted o order rej trades ∈ evs := by
      rcases List.mem_append.mp hmem with hmem | hmem
      · exact hmem
      · exact absurd (List.mem_singleton.mp hmem) (by simp)
    rw [parts_append, hc.resting, Book.cancel, hout]
    cases hfind : b.resting.find id userId with
    | none => exact ih hold
    | some x =>
      obtain ⟨⟨s, hx⟩, rfl, -⟩ := (Book.find_eq_some_iff h.inv.valid).mp hfind
      exact (ih hold).cancel h.inv.valid hx

/-- One order is traded in part, one is rejected, one is cancelled. -/
theorem quantity_accounted_sampleInputs : ∃ b evs, Trace b evs ∧
    (evs.map (Event.traded 4294967296)).sum = 3 ∧ (parts 4294967296 0 evs b).Account 5 ∧
    (parts 12884901889 4 evs b).Account 4 ∧
    (evs.map (Event.cancelledQty 21474836482)).sum = 1 ∧
    (parts 21474836482 0 evs b).Account 1 := by
  obtain ⟨⟨b, evs⟩, hrun, hout⟩ := Option.map_eq_some_iff.mp
    (by decide +kernel :
      (Transition.runEvents (handle 100001) Gated listening sampleInputs).map (fun x => decide (
        .submitted sampleOrder { sampleOrder with id := 4294967296 } 0 [] ∈ x.2 ∧
        .submitted ⟨0, 7, 2, 100, 4, 1, false⟩ ⟨12884901889, 7, 2, 100, 0, 1, false⟩ 4 [] ∈ x.2 ∧
        .submitted ⟨0, 8, 4, 98, 1, 1, true⟩ ⟨21474836482, 8, 4, 98, 1, 1, true⟩ 0 [] ∈ x.2 ∧
        (x.2.map (Event.traded 4294967296)).sum = 3 ∧
        (x.2.map (Event.cancelledQty 21474836482)).sum = 1)) = some true)
  have h := trace_of_run (Transition.run_of_runEvents hrun)
  obtain ⟨htraded, hrejected, hcancelled, hsum, hsum'⟩ := of_decide_eq_true hout
  exact ⟨b, evs, h, hsum, quantity_accounted h htraded, quantity_accounted h hrejected, hsum',
    quantity_accounted h hcancelled⟩

end OrderBook

end ExchangeEngine
