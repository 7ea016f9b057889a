import ExchangeEngine.OrderBook.Properties
import ExchangeEngine.OrderBookLegacy.Run
import ExchangeEngine.Renumber

/-!
# Both engines

Both engines run the same script of submissions and cancellations. An id of the CURRENT engine
carries that of the LEGACY engine in its upper half, and up to this the two engines cannot be told
apart: neither by what a call returns nor by what can be read off the book after it. Neither of
them ever crosses its book.
-/

namespace ExchangeEngine

/-! ### Scripts -/

/-- A submission, or the cancellation by a user of the `k`-th order that was processed. -/
inductive Call
  | submit (o : Order)
  | cancel (k : Nat) (userId : Int)

def Call.isSubmit : Call → Bool
  | submit _ => true
  | cancel _ _ => false

/-- What a call hands back; `unknown` when the order to cancel was not processed yet. -/
inductive Reply
  | refused
  | processed (order : Order) (rejectedQty : Nat) (fills notified : List Trade)
  | cancelled (out : Option Order)
  | unknown

/-- What can be read off a book. -/
structure View where
  bestBid : Option Nat
  bestAsk : Option Nat
  bidDepth : Nat → Option (List DepthLevel)
  askDepth : Nat → Option (List DepthLevel)
  bidOrders : Nat → Option (List OrderSnapshot)
  askOrders : Nat → Option (List OrderSnapshot)

/-- A book and the ids of the orders it has processed. -/
structure ScriptState (σ : Type) where
  book : σ
  ids : List Nat

namespace IOrderBook

variable {σ : Type} (E : IOrderBook σ)

def view (b : σ) : View :=
  ⟨E.bestBid b, E.bestAsk b, E.bidDepth b, E.askDepth b, E.bidOrders b, E.askOrders b⟩

/-- One call; a submission is gated by `can_process_order`. -/
def call (s : ScriptState σ) : Call → Option (ScriptState σ × Reply)
  | .submit o =>
    if E.canProcessOrder s.book o then do
      let r ← E.processOrder s.book o
      some (⟨r.book, s.ids ++ [r.order.id]⟩, .processed r.order r.rejectedQty r.fills r.notified)
    else some (s, .refused)
  | .cancel k userId =>
    match s.ids[k]? with
    | none => some (s, .unknown)
    | some id => do
      let (book, out) ← E.cancelOrder s.book id userId
      some (⟨book, s.ids⟩, .cancelled out)

variable {E} {s : ScriptState σ} {o : Order} {k id : Nat} {userId : Int}

lemma call_submit {r : Processed σ} (hcan : E.canProcessOrder s.book o = true)
    (hrun : E.processOrder s.book o = some r) :
    E.call s (.submit o) = some (⟨r.book, s.ids ++ [r.order.id]⟩,
      .processed r.order r.rejectedQty r.fills r.notified) := by
  rw [call, if_pos hcan, hrun]
  rfl

lemma call_refused (hcan : E.canProcessOrder s.book o = false) :
    E.call s (.submit o) = some (s, .refused) := by
  rw [call, hcan, if_neg Bool.false_ne_true]

lemma call_unknown (hk : s.ids[k]? = none) : E.call s (.cancel k userId) = some (s, .unknown) := by
  rw [call, hk]

lemma call_cancel {b : σ} {out : Option Order} (hk : s.ids[k]? = some id)
    (hrun : E.cancelOrder s.book id userId = some (b, out)) :
    E.call s (.cancel k userId) = some (⟨b, s.ids⟩, .cancelled out) := by
  rw [call, hk]
  simp only [hrun, Option.bind_eq_bind, Option.bind_some]

variable (E)

/-- A script: what every call returns and what the book shows after it. -/
def run (s : ScriptState σ) : List Call → Option (ScriptState σ × List (Reply × View))
  | [] => some (s, [])
  | c :: cs => do
    let (s, reply) ← E.call s c
    let seen := (reply, E.view s.book)
    let (s, rest) ← run s cs
    some (s, seen :: rest)

variable {E}

lemma run_cons {s' : ScriptState σ} {c : Call} {cs : List Call} {reply : Reply}
    {x : ScriptState σ × List (Reply × View)} (hcall : E.call s c = some (s', reply))
    (hrun : E.run s' cs = some x) :
    E.run s (c :: cs) = some (x.1, (reply, E.view s'.book) :: x.2) := by
  simp only [run, hcall, hrun, Option.bind_eq_bind, Option.bind_some]

end IOrderBook

/-- The CURRENT engine. -/
def OrderBook.engine (fuel : Nat) : IOrderBook OrderBook where
  new := OrderBook.new
  setTradeListener l b := { b with tradeListener := l }
  canProcessOrder := OrderBook.canProcessOrder
  processBuyOrder := OrderBook.processBuyOrder fuel
  processSellOrder := OrderBook.processSellOrder fuel
  cancelOrder := OrderBook.cancelOrder
  bidDepth := OrderBook.bidDepth
  askDepth := OrderBook.askDepth
  bidOrders := OrderBook.bidOrders
  askOrders := OrderBook.askOrders
  bestBid := OrderBook.bestBid
  bestAsk := OrderBook.bestAsk

/-- The LEGACY engine. -/
def OrderBookLegacy.engine : IOrderBook OrderBookLegacy where
  new := OrderBookLegacy.new
  setTradeListener l b := { b with tradeListener := l }
  canProcessOrder := OrderBookLegacy.canProcessOrder
  processBuyOrder b o := some (OrderBookLegacy.processBuyOrder b o)
  processSellOrder b o := some (OrderBookLegacy.processSellOrder b o)
  cancelOrder := OrderBookLegacy.cancelOrder
  bidDepth b limit := some (OrderBookLegacy.bidDepth b limit)
  askDepth b limit := some (OrderBookLegacy.askDepth b limit)
  bidOrders b limit := some (OrderBookLegacy.bidOrders b limit)
  askOrders b limit := some (OrderBookLegacy.askOrders b limit)
  bestBid b := some (OrderBookLegacy.bestBid b)
  bestAsk b := some (OrderBookLegacy.bestAsk b)

@[simp] lemma OrderBook.engine_processOrder (fuel : Nat) (b : OrderBook) (o : Order) :
    (OrderBook.engine fuel).processOrder b o = OrderBook.processOrder o.side fuel b o := by
  simp only [IOrderBook.processOrder]
  cases o.side <;> rfl

@[simp] lemma OrderBookLegacy.engine_processOrder (b : OrderBookLegacy) (o : Order) :
    OrderBookLegacy.engine.processOrder b o = some (OrderBookLegacy.processOrder o.side b o) := by
  simp only [IOrderBook.processOrder]
  cases o.side <;> rfl

/-! ### The correspondence of ids -/

/-- The LEGACY id inside a CURRENT one. -/
def upper (id : Nat) : Nat := id >>> 32

lemma upper_id {k i : Nat} (hi : i < maxOrders) : upper (k * 2 ^ 32 + i) = k := by
  rw [upper, Nat.shiftRight_eq_div_pow]
  simp only [maxOrders] at hi
  omega

def Reply.renumber (f : Nat → Nat) : Reply → Reply
  | refused => refused
  | processed o rejectedQty fills notified =>
    processed (o.renumber f) rejectedQty (fills.map (Trade.renumber f))
      (notified.map (Trade.renumber f))
  | cancelled out => cancelled (out.map (Order.renumber f))
  | unknown => unknown

def View.renumber (f : Nat → Nat) (v : View) : View :=
  { v with
    bidOrders := fun limit => (v.bidOrders limit).map (List.map (OrderSnapshot.renumber f))
    askOrders := fun limit => (v.askOrders limit).map (List.map (OrderSnapshot.renumber f)) }

/-! ### The simulation -/

/-- The two engines list the same orders, up to their ids, and have issued the same ids. -/
structure Related (c : ScriptState OrderBook) (g : ScriptState OrderBookLegacy) : Prop where
  current : c.book.Inv
  legacy : g.book.Inv
  resting : g.book.resting = c.book.resting.renumber upper
  counter : g.book.orderIdCounter = c.book.orderIdCounter
  listener : g.book.tradeListener = c.book.tradeListener
  ids : g.ids = c.ids.map upper
  length : c.ids.length = c.book.orderIdCounter
  issued : ∀ k id, c.ids[k]? = some id → upper id = k + 1
  known : ∀ s, ∀ r ∈ c.book.resting s, r.id ∈ c.ids

variable {c : ScriptState OrderBook} {g : ScriptState OrderBookLegacy} {fuel : Nat}

lemma Related.length_resting (h : Related c g) (s : Bool) :
    (g.book.resting s).length = (c.book.resting s).length := by
  rw [h.resting, Book.renumber, List.length_map]

/-- An issued id is told apart from those of the resting orders. -/
lemma Related.apart (h : Related c g) {k id : Nat} (hk : c.ids[k]? = some id) :
    c.book.resting.Apart upper id := by
  intro s r hr heq
  obtain ⟨j, hj⟩ := List.mem_iff_getElem?.mp (h.known s r hr)
  have hj' := h.issued j _ hj
  have hk' := h.issued k _ hk
  have hjk : j = k := by omega
  rw [hjk, hk] at hj
  exact (Option.some.inj hj).symm

/-- Related books show the same. -/
lemma Related.view (h : Related c g) : OrderBookLegacy.engine.view g.book
    = ((OrderBook.engine fuel).view c.book).renumber upper := by
  have hbest : ∀ s, some (OrderBookLegacy.best s g.book) = OrderBook.getBest s c.book := by
    intro s
    rw [OrderBookLegacy.best_spec h.legacy, OrderBook.getBest_spec h.current, h.resting,
      Book.best_renumber]
  have hlen : ∀ s, (g.book.resting s).length < 2 ^ 32 := by
    intro s
    have hcount := h.current.slots_count
    simp only [maxOrders] at hcount
    rw [h.length_resting]
    cases s <;> omega
  have hdepth : ∀ s, (fun limit => some (OrderBookLegacy.depth s g.book limit))
      = OrderBook.depth s c.book := by
    intro s
    funext limit
    rw [OrderBookLegacy.depth_spec h.legacy s limit (hlen s), OrderBook.depth_spec h.current,
      h.resting, Book.depth_renumber]
  have horders : ∀ s, (fun limit => some (OrderBookLegacy.orders s g.book limit))
      = fun limit => (OrderBook.orders s c.book limit).map
        (List.map (OrderSnapshot.renumber upper)) := by
    intro s
    funext limit
    rw [OrderBookLegacy.orders_spec, OrderBook.orders_spec h.current, h.resting,
      Book.orders_renumber, Option.map_some]
  simp only [IOrderBook.view, View.renumber]
  congr 1
  · exact hbest true
  · exact hbest false
  · exact hdepth true
  · exact hdepth false
  · exact horders true
  · exact horders false

/-- Both engines take a submission or refuse it. -/
lemma Related.can (h : Related c g) (o : Order)
    (hroom : (g.book.resting true).length + (g.book.resting false).length < maxOrders) :
    OrderBook.canProcessOrder c.book o = OrderBookLegacy.canProcessOrder g.book o := by
  have hcount := h.current.slots_count
  have hfree : c.book.freeIndices ≠ [] := by
    intro hnil
    rw [hnil, List.length_nil] at hcount
    rw [h.length_resting, h.length_resting] at hroom
    omega
  rw [OrderBook.canProcessOrder, OrderBookLegacy.canProcessOrder]
  cases hl : c.book.freeIndices with
  | nil => exact absurd hl hfree
  | cons i free => simp

/-- Processing an order, under its new id, on both engines. -/
lemma Related.submitted (h : Related c g) {o : Order} {i : Nat} {r : OrderBook.Processed}
    {r' : OrderBookLegacy.Processed} (hi : i < maxOrders)
    (hs : OrderBook.Submitted c.book
      { o with id := (c.book.orderIdCounter + 1) * 2 ^ 32 + i } r)
    (hl : OrderBookLegacy.Submitted g.book { o with id := g.book.orderIdCounter + 1 } r') :
    Reply.processed r'.order r'.rejectedQty r'.fills r'.notified
        = (Reply.processed r.order r.rejectedQty r.fills r.notified).renumber upper ∧
      Related ⟨r.book, c.ids ++ [r.order.id]⟩ ⟨r'.book, g.ids ++ [r'.order.id]⟩ := by
  generalize ho₂ : { o with id := g.book.orderIdCounter + 1 } = o₂ at hl
  generalize ho₁ : { o with id := (c.book.orderIdCounter + 1) * 2 ^ 32 + i } = o₁ at hs
  have hid₁ : o₁.id = (c.book.orderIdCounter + 1) * 2 ^ 32 + i := by rw [← ho₁]
  have hup : upper o₁.id = c.book.orderIdCounter + 1 := by rw [hid₁, upper_id hi]
  have ho : o₂ = o₁.renumber upper := by
    rw [← ho₂, Order.renumber, hup, h.counter, ← ho₁]
  subst ho
  have horder : r'.order = r.order.renumber upper := by
    rw [hl.order, hs.order, h.resting, Book.placed_renumber]
    rfl
  have hfills : r'.fills = r.fills.map (Trade.renumber upper) := by
    rw [hl.fills, hs.fills, h.resting, Book.fills_renumber]
  have hnotified : r'.notified = r.notified.map (Trade.renumber upper) := by
    rw [hl.notified, hs.notified, h.listener, hfills]
    split_ifs
    · rfl
    · rfl
  have hrejected : r'.rejectedQty = r.rejectedQty := by
    rw [hl.rejected, hs.rejected, h.resting, Book.rejected_renumber]
  have hid : r.order.id = o₁.id := by rw [hs.order]
  refine ⟨by rw [horder, hfills, hnotified, hrejected]; rfl, ?_⟩
  refine ⟨hs.inv, hl.inv, ?_, ?_, ?_, ?_, ?_, ?_, ?_⟩
  · rw [hl.resting, hs.resting, h.resting, Book.submit_renumber]
  · rw [hl.counter, hs.counter, h.counter]
  · rw [hl.listener, hs.listener, h.listener]
  · rw [List.map_append, h.ids, horder]
    rfl
  · rw [List.length_append, h.length, hs.counter, List.length_singleton]
  · intro k id hk
    rcases Nat.lt_or_ge k c.ids.length with hlt | hge
    · rw [List.getElem?_append_left hlt] at hk
      exact h.issued k id hk
    · rw [List.getElem?_append_right hge, List.getElem?_singleton] at hk
      split_ifs at hk with hz
      have hk' : k = c.ids.length := by omega
      rw [← Option.some.inj hk, hid, hup, hk', h.length]
  · intro s x hx
    rw [List.mem_append, List.mem_singleton]
    rw [hs.resting] at hx
    rcases Book.mem_submit h.current.valid.pos hx with
      ⟨-, rfl⟩ | ⟨a, ha, q, rfl⟩
    · exact Or.inr hid.symm
    · exact Or.inl (h.known s a ha)

/-- **Step lemma**: related engines answer a call alike and stay related. -/
lemma Related.call (h : Related c g) (op : Call) (hfuel : maxOrders < fuel)
    (hroom : op.isSubmit = true →
      (g.book.resting true).length + (g.book.resting false).length < maxOrders)
    (hcounter : op.isSubmit = true → c.book.orderIdCounter + 1 < 2 ^ 32) :
    ∃ c' g' reply, (OrderBook.engine fuel).call c op = some (c', reply) ∧
      OrderBookLegacy.engine.call g op = some (g', reply.renumber upper) ∧ Related c' g' ∧
      c'.book.orderIdCounter ≤ c.book.orderIdCounter + if op.isSubmit then 1 else 0 := by
  cases op with
  | submit o =>
    have hcounter := hcounter rfl
    have hcan := h.can o (hroom rfl)
    cases hacc : OrderBook.canProcessOrder c.book o with
    | false =>
      refine ⟨c, g, .refused, ?_, ?_, h, Nat.le_add_right _ _⟩
      · exact IOrderBook.call_refused hacc
      · exact IOrderBook.call_refused (hcan.symm.trans hacc)
    | true =>
      have hacc' := hcan.symm.trans hacc
      obtain ⟨r, hrun, i, hi, -, hs⟩ := OrderBook.processOrder_spec h.current hacc hcounter hfuel
      have hl := OrderBookLegacy.processOrder_spec h.legacy hacc' (by rw [h.counter]; omega)
      obtain ⟨hreply, hrel⟩ := h.submitted hi hs hl
      refine ⟨_, _, _, IOrderBook.call_submit hacc ((OrderBook.engine_processOrder _ _ _).trans hrun),
        ?_, hrel, hs.counter.le⟩
      rw [← hreply]
      exact IOrderBook.call_submit hacc' (OrderBookLegacy.engine_processOrder _ _)
  | cancel k userId =>
    cases hk : c.ids[k]? with
    | none =>
      have hk' : g.ids[k]? = none := by rw [h.ids, List.getElem?_map, hk, Option.map_none]
      refine ⟨c, g, .unknown, ?_, ?_, h, Nat.le_add_right _ _⟩
      · exact IOrderBook.call_unknown hk
      · exact IOrderBook.call_unknown hk'
    | some id =>
      have hk' : g.ids[k]? = some (upper id) := by rw [h.ids, List.getElem?_map, hk, Option.map_some]
      have happart := h.apart hk
      have hne : id ≠ 0 := by
        rintro rfl
        exact absurd (h.issued k 0 hk) (by simp [upper])
      have hstale : ¬ OrderBook.StaleMatch c.book id userId :=
        OrderBook.not_staleMatch_of_ne_zero hne
      obtain ⟨c', hrun, hc⟩ := OrderBook.cancelOrder_spec h.current hstale
      obtain ⟨g', hrun', hg⟩ := OrderBookLegacy.cancelOrder_spec h.legacy (upper id) userId
      refine ⟨⟨c', c.ids⟩, ⟨g', g.ids⟩, .cancelled (c.book.resting.find id userId), ?_, ?_, ?_, ?_⟩
      · exact IOrderBook.call_cancel hk hrun
      · rw [h.resting, Book.find_renumber happart] at hrun'
        exact IOrderBook.call_cancel hk' hrun'
      · refine ⟨hc.inv, hg.inv, ?_, ?_, ?_, h.ids, ?_, h.issued, ?_⟩
        · rw [hg.resting, hc.resting, h.resting, Book.cancel_renumber happart]
        · rw [hg.counter, hc.counter, h.counter]
        · rw [hg.listener, hc.listener, h.listener]
        · rw [hc.counter]
          exact h.length
        · intro s x hx
          rw [hc.resting] at hx
          exact h.known s x ((Book.cancel_sublist _ _ _ s).subset hx)
      · exact hc.counter.le

/-- A book before its first call. -/
def IOrderBook.start {σ : Type} (E : IOrderBook σ) (listener : Bool) : ScriptState σ :=
  ⟨E.setTradeListener listener E.new, []⟩

lemma related_start (fuel : Nat) (l : Bool) :
    Related ((OrderBook.engine fuel).start l) (OrderBookLegacy.engine.start l) where
  current := OrderBook.inv_new.step (.listen _ l)
  legacy := OrderBookLegacy.inv_new.listen l
  resting := by
    have hnew := OrderBookLegacy.resting_new.trans
      (congrArg (Book.renumber upper) OrderBook.resting_new).symm
    exact hnew
  counter := rfl
  listener := rfl
  ids := rfl
  length := rfl
  issued _ _ hk := by cases hk
  known s r hr := by
    have hr : r ∈ OrderBook.new.resting s := hr
    rw [OrderBook.resting_new] at hr
    exact absurd hr List.not_mem_nil

/-- **Run lemma**: related engines answer a script alike. -/
lemma Related.run (h : Related c g) (calls : List Call) (hfuel : maxOrders < fuel)
    (hcount : c.book.orderIdCounter + calls.countP Call.isSubmit < 2 ^ 32)
    (hroom : ∀ pre o post g' seen, calls = pre ++ .submit o :: post →
      OrderBookLegacy.engine.run g pre = some (g', seen) →
      (g'.book.resting true).length + (g'.book.resting false).length < maxOrders) :
    ∃ c' g' seen, (OrderBook.engine fuel).run c calls = some (c', seen) ∧
      OrderBookLegacy.engine.run g calls
        = some (g', seen.map (Prod.map (Reply.renumber upper) (View.renumber upper))) ∧
      Related c' g' := by
  induction calls generalizing c g with
  | nil => exact ⟨c, g, [], rfl, rfl, h⟩
  | cons call calls ih =>
    have hcount' : c.book.orderIdCounter + (if call.isSubmit then 1 else 0)
        + calls.countP Call.isSubmit < 2 ^ 32 := by
      rw [List.countP_cons] at hcount
      omega
    obtain ⟨c₁, g₁, reply, hcall, hcall', h₁, hle⟩ := h.call call hfuel
      (fun hsub => by
        cases call with
        | submit o => exact hroom [] o calls g [] rfl rfl
        | cancel k userId => cases hsub)
      (fun hsub => by
        rw [hsub, if_pos rfl] at hcount'
        omega)
    obtain ⟨c', g', seen, hrun, hrun', h'⟩ := ih h₁ (by omega) (by
      intro pre o post g₂ seen hsplit hpre
      exact hroom (call :: pre) o post g₂ _ (by rw [hsplit]; rfl)
        (IOrderBook.run_cons hcall' hpre))
    refine ⟨c', g', _, IOrderBook.run_cons hcall hrun, ?_, h'⟩
    rw [IOrderBook.run_cons hcall' hrun', @Related.view c₁ g₁ fuel h₁]
    rfl

/-- **Engine parity**: on every script with fewer than `2 ^ 32` submissions, none of them into a
full book, both engines return the same and show the same after every call, once the ids of the
CURRENT engine are replaced by their upper halves. -/
theorem engine_parity (listener : Bool) (calls : List Call) (fuel : Nat) (hfuel : maxOrders < fuel)
    (hcount : calls.countP Call.isSubmit < 2 ^ 32)
    (hroom : ∀ pre o post g seen, calls = pre ++ .submit o :: post →
      OrderBookLegacy.engine.run (OrderBookLegacy.engine.start listener) pre = some (g, seen) →
      (g.book.resting true).length + (g.book.resting false).length < maxOrders) :
    ∃ c g seen,
      (OrderBook.engine fuel).run ((OrderBook.engine fuel).start listener) calls = some (c, seen) ∧
      OrderBookLegacy.engine.run (OrderBookLegacy.engine.start listener) calls
        = some (g, seen.map (Prod.map (Reply.renumber upper) (View.renumber upper))) ∧
      g.ids = c.ids.map upper ∧ ∀ k id, c.ids[k]? = some id → upper id = k + 1 := by
  have hzero : ((OrderBook.engine fuel).start listener).book.orderIdCounter = 0 := rfl
  obtain ⟨c, g, seen, hrun, hrun', h⟩ := (related_start fuel listener).run calls hfuel
    (by rw [hzero, Nat.zero_add]; exact hcount) hroom
  exact ⟨c, g, seen, hrun, hrun', h.ids, h.issued⟩

/-- A buy order, a sell order that takes it and rests, and the cancellation of what rests. -/
def sampleScript : List Call :=
  [.submit OrderBook.sampleOrder, .submit ⟨0, 8, 0, 90, 7, 1, false⟩, .cancel 1 8]

theorem engine_parity_sampleScript : ∃ c g seen,
    (OrderBook.engine 100001).run ((OrderBook.engine 100001).start true) sampleScript
      = some (c, seen) ∧
    OrderBookLegacy.engine.run (OrderBookLegacy.engine.start true) sampleScript
      = some (g, seen.map (Prod.map (Reply.renumber upper) (View.renumber upper))) ∧
    g.ids = c.ids.map upper ∧ ∀ k id, c.ids[k]? = some id → upper id = k + 1 := by
  apply engine_parity true sampleScript 100001 (by decide) (by decide)
  intro pre o post g seen hsplit hrun
  have hpre : pre = [] ∨ pre = [.submit OrderBook.sampleOrder] := by
    rcases pre with _ | ⟨a, _ | ⟨a', _ | ⟨a'', pre⟩⟩⟩ <;> simp_all [sampleScript]
  have hlen : (OrderBookLegacy.engine.run (OrderBookLegacy.engine.start true) pre).map
      (fun x => decide ((x.1.book.resting true).length + (x.1.book.resting false).length
        < maxOrders)) = some true := by
    rcases hpre with rfl | rfl
    · decide +kernel
    · decide +kernel
  rw [hrun] at hlen
  exact of_decide_eq_true (Option.some.inj hlen)

/-! ### Neither engine crosses its book -/

/-- **The book is never crossed**, in no reachable state of either engine. -/
theorem never_crossed :
    (∀ b, OrderBook.Reachable b →
      (∀ x ∈ b.resting true, ∀ y ∈ b.resting false, x.price < y.price) ∧
      ∃ bid ask, OrderBook.bestBid b = some bid ∧ OrderBook.bestAsk b = some ask ∧
        (b.resting true ≠ [] → b.resting false ≠ [] → bid < ask)) ∧
    ∀ b, OrderBookLegacy.Reachable b →
      (∀ x ∈ b.resting true, ∀ y ∈ b.resting false, x.price < y.price) ∧
      (b.resting true ≠ [] → b.resting false ≠ [] →
        OrderBookLegacy.bestBid b < OrderBookLegacy.bestAsk b) := by
  constructor
  · intro b h
    exact ⟨h.inv.valid.uncrossed, _, _, OrderBook.getBest_spec h.inv true,
      OrderBook.getBest_spec h.inv false, h.inv.valid.best_lt⟩
  · intro b h
    refine ⟨h.inv.valid.uncrossed, ?_⟩
    rw [OrderBookLegacy.bestBid, OrderBookLegacy.bestAsk, OrderBookLegacy.best_spec h.inv,
      OrderBookLegacy.best_spec h.inv]
    exact h.inv.valid.best_lt

/-- The buy order at 1.00 with a sell order at 1.10 beside it. -/
theorem never_crossed_sampleOrder :
    (∃ b, OrderBook.Reachable b ∧ OrderBook.bestBid b = some 100 ∧ OrderBook.bestAsk b = some 110 ∧
      ∀ x ∈ b.resting true, ∀ y ∈ b.resting false, x.price < y.price) ∧
    ∃ b, OrderBookLegacy.Reachable b ∧ OrderBookLegacy.bestBid b = 100 ∧
      OrderBookLegacy.bestAsk b = 110 ∧
      ∀ x ∈ b.resting true, ∀ y ∈ b.resting false, x.price < y.price := by
  constructor
  · obtain ⟨r, hrun, hreach⟩ := OrderBook.sampleOrder_run
    have hstate : (OrderBook.processOrder true 100001 OrderBook.new OrderBook.sampleOrder).bind
        (fun r => (OrderBook.processOrder false 100001 r.book ⟨0, 8, 0, 110, 7, 1, false⟩).map
          fun r' => (OrderBook.canProcessOrder r.book ⟨0, 8, 0, 110, 7, 1, false⟩,
            r.book.orderIdCounter, OrderBook.bestBid r'.book, OrderBook.bestAsk r'.book))
        = some (true, 1, some 100, some 110) := by decide +kernel
    rw [hrun, Option.bind_some] at hstate
    obtain ⟨r', hrun', hstate⟩ := Option.map_eq_some_iff.mp hstate
    simp only [Prod.mk.injEq] at hstate
    obtain ⟨hcan, hcounter, hbid, hask⟩ := hstate
    have hreach' : OrderBook.Reachable r'.book :=
      hreach.tail (OrderBook.Step.submit hcan (by rw [hcounter]; decide) hrun')
    exact ⟨r'.book, hreach', hbid, hask, (never_crossed.1 _ hreach').1⟩
  · have hreach : OrderBookLegacy.Reachable
        (OrderBookLegacy.processOrder false
          (OrderBookLegacy.processOrder true OrderBookLegacy.new OrderBook.sampleOrder).book
          ⟨0, 8, 0, 110, 7, 1, false⟩).book := by
      refine (Relation.ReflTransGen.refl.tail (OrderBookLegacy.Step.submit
        (o := OrderBook.sampleOrder) ?_ ?_)).tail
        (OrderBookLegacy.Step.submit (o := ⟨0, 8, 0, 110, 7, 1, false⟩) ?_ ?_)
      · decide
      · decide
      · decide
      · decide
    exact ⟨_, hreach, by decide, by decide, (never_crossed.2 _ hreach).1⟩

end ExchangeEngine
