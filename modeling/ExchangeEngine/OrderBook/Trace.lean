import ExchangeEngine.Conservation
import ExchangeEngine.Library.Transition
import ExchangeEngine.Listener
import ExchangeEngine.OrderBook.Run

/-!
# What a run of `OrderBook` hands out

A trace keeps, for every call of a run, its arguments and what it handed out.
-/

namespace ExchangeEngine

namespace OrderBook

/-- A call and what it handed out: for a submission the order afterwards, the returned quantity and
the trades the listener heard of; for a cancellation the cancelled order, if there was one. -/
inductive Event
  | submitted (o order : Order) (rejectedQty : Nat) (trades : List Trade)
  | cancelled (id : Nat) (userId : Int) (out : Option Order)
deriving DecidableEq

/-- A new book, with a listener. -/
def listening : OrderBook := { new with tradeListener := true }

/-- A run of gated submissions and cancellations of non-zero ids, with all it handed out. -/
inductive Trace : OrderBook → List Event → Prop
  | start : Trace listening []
  | submit {b : OrderBook} {evs : List Event} {o : Order} {fuel : Nat} {r : Processed}
      (h : Trace b evs) (hcan : canProcessOrder b o = true)
      (hcounter : b.orderIdCounter + 1 < 2 ^ 32)
      (hrun : processOrder o.side fuel b o = some r) :
      Trace r.book (evs ++ [.submitted o r.order r.rejectedQty r.notified])
  | cancel {b b' : OrderBook} {evs : List Event} {id : Nat} {userId : Int} {out : Option Order}
      (h : Trace b evs) (hid : id ≠ 0) (hrun : cancelOrder b id userId = some (b', out)) :
      Trace b' (evs ++ [.cancelled id userId out])

variable {b b' : OrderBook} {evs : List Event} {o : Order} {fuel id : Nat} {userId : Int}

lemma listening_inv : Inv listening := inv_new.step (.listen new true)

lemma Trace.inv (h : Trace b evs) : Inv b := by
  induction h with
  | start => exact listening_inv
  | submit _ hcan hcounter hrun ih => exact ih.step (.submit hcan hcounter hrun)
  | cancel _ hid hrun ih => exact ih.step (.cancel (not_staleMatch_of_ne_zero hid) hrun)

lemma Trace.listener (h : Trace b evs) : b.tradeListener = true := by
  induction h with
  | start => rfl
  | submit _ _ _ hrun ih => exact (processOrder_notified hrun).1.trans ih
  | cancel _ _ hrun ih => exact (cancelOrder_tradeListener hrun).trans ih

/-- What a gated submission of a trace hands out. -/
lemma Trace.submit_spec {r : Processed} (h : Trace b evs) (hcan : canProcessOrder b o = true)
    (hcounter : b.orderIdCounter + 1 < 2 ^ 32) (hrun : processOrder o.side fuel b o = some r) :
    ∃ i < maxOrders, Submitted b { o with id := (b.orderIdCounter + 1) * 2 ^ 32 + i } r ∧
      r.notified = b.resting.fills { o with id := (b.orderIdCounter + 1) * 2 ^ 32 + i } := by
  obtain ⟨i, hi, -, hs⟩ := processOrder_sound h.inv hcan hcounter hrun
  refine ⟨i, hi, hs, ?_⟩
  rw [(processOrder_notified hrun).2, h.listener, if_pos rfl, hs.fills]

/-- What a cancellation of a trace hands out. -/
lemma Trace.cancel_spec {out : Option Order} (h : Trace b evs) (hid : id ≠ 0)
    (hrun : cancelOrder b id userId = some (b', out)) :
    out = b.resting.find id userId ∧ Cancelled b id userId b' := by
  obtain ⟨b₁, hrun', hc⟩ := cancelOrder_spec h.inv (not_staleMatch_of_ne_zero hid)
  rw [hrun, Option.some.injEq, Prod.mk.injEq] at hrun'
  rw [hrun'.1]
  exact ⟨hrun'.2, hc⟩

/-- One call of a trace. -/
inductive Called (b : OrderBook) : Event → OrderBook → Prop
  | submit {o : Order} {fuel : Nat} {r : Processed} (hcan : canProcessOrder b o = true)
      (hcounter : b.orderIdCounter + 1 < 2 ^ 32) (hrun : processOrder o.side fuel b o = some r) :
      Called b (.submitted o r.order r.rejectedQty r.notified) r.book
  | cancel {b' : OrderBook} {id : Nat} {userId : Int} {out : Option Order} (hid : id ≠ 0)
      (hrun : cancelOrder b id userId = some (b', out)) : Called b (.cancelled id userId out) b'

/-- The last call of a trace. -/
lemma Trace.last {e : Event} (h : Trace b (evs ++ [e])) : ∃ b₁, Trace b₁ evs ∧ Called b₁ e b := by
  generalize hl : evs ++ [e] = l at h
  cases h with
  | start => exact absurd hl (by simp)
  | submit h hcan hcounter hrun =>
    obtain ⟨rfl, he⟩ := List.append_inj' hl rfl
    rw [(List.cons.inj he).1]
    exact ⟨_, h, .submit hcan hcounter hrun⟩
  | cancel h hid hrun =>
    obtain ⟨rfl, he⟩ := List.append_inj' hl rfl
    rw [(List.cons.inj he).1]
    exact ⟨_, h, .cancel hid hrun⟩

lemma Trace.reachable (h : Trace b evs) : Reachable b := by
  induction h with
  | start => exact Relation.ReflTransGen.single (.listen new true)
  | submit _ hcan hcounter hrun ih => exact ih.tail (.submit hcan hcounter hrun)
  | cancel _ hid hrun ih => exact ih.tail (.cancel (not_staleMatch_of_ne_zero hid) hrun)

/-! ### Traces that are computed -/

inductive Input
  | submit (o : Order)
  | cancel (id : Nat) (userId : Int)

def handle (fuel : Nat) (b : OrderBook) : Input → Option (OrderBook × List Event)
  | .submit o =>
    if canProcessOrder b o then
      (processOrder o.side fuel b o).map fun r =>
        (r.book, [.submitted o r.order r.rejectedQty r.notified])
    else none
  | .cancel id userId =>
    (cancelOrder b id userId).map fun x => (x.1, [.cancelled id userId x.2])

/-- There is an id left, and 0 is none. -/
def Gated (b : OrderBook) : Input → Prop
  | .submit _ => b.orderIdCounter + 1 < 2 ^ 32
  | .cancel id _ => id ≠ 0

instance (b : OrderBook) : (input : Input) → Decidable (Gated b input)
  | .submit _ => inferInstanceAs (Decidable (_ < _))
  | .cancel id _ => inferInstanceAs (Decidable (id ≠ 0))

lemma Trace.handle {input : Input} {out : List Event} (h : Trace b evs) (hgated : Gated b input)
    (hstep : OrderBook.handle fuel b input = some (b', out)) : Trace b' (evs ++ out) := by
  cases input with
  | submit o =>
    rw [OrderBook.handle] at hstep
    split_ifs at hstep with hcan
    obtain ⟨r, hrun, heq⟩ := Option.map_eq_some_iff.mp hstep
    obtain ⟨rfl, rfl⟩ := Prod.mk.inj heq
    exact h.submit hcan hgated hrun
  | cancel id userId =>
    obtain ⟨⟨b₁, x⟩, hrun, heq⟩ := Option.map_eq_some_iff.mp hstep
    obtain ⟨rfl, rfl⟩ := Prod.mk.inj heq
    exact h.cancel hgated hrun

lemma trace_of_run (h : Transition.Run (handle fuel) Gated listening b evs) : Trace b evs :=
  h.invariant .start fun _ _ _ _ _ htrace hgated hstep => htrace.handle hgated hstep

/-- A buy order of user 7 for five shares at 1.00. -/
def sampleOrder : Order := ⟨0, 7, 0, 100, 5, 1, true⟩

/-- User 7 buys three shares of user 9, and his bid keeps an offer of his own out; then there are bids
and offers at other prices, and one of the bids is cancelled. -/
def sampleInputs : List Input :=
  [.submit sampleOrder, .submit ⟨0, 9, 1, 100, 3, 1, false⟩, .submit ⟨0, 7, 2, 100, 4, 1, false⟩,
    .submit ⟨0, 8, 3, 99, 2, 1, true⟩, .submit ⟨0, 8, 4, 98, 1, 1, true⟩,
    .submit ⟨0, 9, 5, 99, 6, 1, true⟩, .submit ⟨0, 9, 6, 105, 4, 1, false⟩,
    .submit ⟨0, 8, 7, 106, 2, 1, false⟩, .cancel 21474836482 8]

end OrderBook

end ExchangeEngine
