import ExchangeEngine.Engines
import ExchangeEngine.Listener

/-!
# The market

`MarketState` of `Market.h`: one book for each listed company, all of the engine in force. What is
said here about a book holds for both engines.
-/

namespace ExchangeEngine

inductive EngineMode
  | current
  | legacy
deriving DecidableEq, Repr

/-- A book behind `std::unique_ptr<IOrderBook>`. -/
inductive AnyBook
  | current (b : OrderBook)
  | legacy (b : OrderBookLegacy)

def makeOrderBook : EngineMode → AnyBook
  | .legacy => .legacy OrderBookLegacy.new
  | .current => .current OrderBook.new

def Processed.map {σ τ : Type} (f : σ → τ) (r : Processed σ) : Processed τ :=
  ⟨f r.book, r.order, r.rejectedQty, r.fills, r.notified⟩

namespace AnyBook

def canProcessOrder : AnyBook → Order → Bool
  | current b => b.canProcessOrder
  | legacy b => b.canProcessOrder

/-- `process_buy_order` or `process_sell_order`, by the side of the order; the fuel bounds the
passes of the loops of `OrderBook`. -/
def processOrder (fuel : Nat) : AnyBook → Order → Option (Processed AnyBook)
  | current b, o => ((OrderBook.engine fuel).processOrder b o).map (Processed.map current)
  | legacy b, o => (OrderBookLegacy.engine.processOrder b o).map (Processed.map legacy)

def cancelOrder : AnyBook → Nat → Int → Option (AnyBook × Option Order)
  | current b, id, userId => (b.cancelOrder id userId).map fun x => (current x.1, x.2)
  | legacy b, id, userId => (b.cancelOrder id userId).map fun x => (legacy x.1, x.2)

def bestBid : AnyBook → Option Nat
  | current b => b.bestBid
  | legacy b => some b.bestBid

def bestAsk : AnyBook → Option Nat
  | current b => b.bestAsk
  | legacy b => some b.bestAsk

def tradeListener : AnyBook → Bool
  | current b => b.tradeListener
  | legacy b => b.tradeListener

def setTradeListener (l : Bool) : AnyBook → AnyBook
  | current b => current { b with tradeListener := l }
  | legacy b => legacy { b with tradeListener := l }

def orderIdCounter : AnyBook → Nat
  | current b => b.orderIdCounter
  | legacy b => b.orderIdCounter

/-- The resting orders in price-time priority. -/
def resting : AnyBook → Book
  | current b => b.resting
  | legacy b => b.resting

/-- The representation invariant of the engine. -/
def Inv : AnyBook → Prop
  | current b => b.Inv
  | legacy b => b.Inv

/-- Would this cancellation hit a stale node? -/
def StaleMatch : AnyBook → Nat → Int → Prop
  | current b, id, userId => b.StaleMatch id userId
  | legacy _, _, _ => False

instance (b : AnyBook) (id : Nat) (userId : Int) : Decidable (b.StaleMatch id userId) := by
  cases b with
  | current b => exact inferInstanceAs (Decidable (b.StaleMatch id userId))
  | legacy b => exact isFalse fun h => h

/-! ### What both engines do -/

variable {b b' : AnyBook} {o : Order} {fuel id : Nat} {userId : Int}

lemma inv_make (mode : EngineMode) : (makeOrderBook mode).Inv := by
  cases mode with
  | current => exact OrderBook.inv_new
  | legacy => exact OrderBookLegacy.inv_new

lemma resting_make (mode : EngineMode) : (makeOrderBook mode).resting = Book.empty := by
  cases mode with
  | current => exact OrderBook.resting_new
  | legacy => exact OrderBookLegacy.resting_new

lemma Inv.setTradeListener (h : b.Inv) (l : Bool) : (b.setTradeListener l).Inv := by
  cases b with
  | current b => exact OrderBook.Inv.step h (.listen b l)
  | legacy b => exact OrderBookLegacy.Inv.listen h l

@[simp] lemma resting_setTradeListener (l : Bool) :
    (b.setTradeListener l).resting = b.resting := by
  cases b <;> rfl

@[simp] lemma tradeListener_setTradeListener (l : Bool) :
    (b.setTradeListener l).tradeListener = l := by
  cases b <;> rfl

lemma Inv.valid (h : b.Inv) : b.resting.Valid := by
  cases b with
  | current b => exact OrderBook.Inv.valid h
  | legacy b => exact OrderBookLegacy.Inv.valid h

/-- `r` is what submitting `o`, which carries its new id, does to the price-time-priority book. -/
structure Submitted (b : AnyBook) (o : Order) (r : Processed AnyBook) : Prop where
  inv : r.book.Inv
  new : ∀ s, ∀ x ∈ b.resting s, x.id < o.id
  resting : r.book.resting = b.resting.submit o
  order : r.order = { o with quantity := b.resting.placed o }
  rejected : r.rejectedQty = b.resting.rejected o
  fills : r.fills = b.resting.fills o

/-- A submission hands every fill to the listener, if there is one; no invariant is needed. -/
lemma processOrder_notified {r : Processed AnyBook} (h : b.processOrder fuel o = some r) :
    r.book.tradeListener = b.tradeListener ∧
      r.notified = if b.tradeListener then r.fills else [] := by
  cases b with
  | current b =>
    rw [processOrder, OrderBook.engine_processOrder] at h
    obtain ⟨r', hrun, rfl⟩ := Option.map_eq_some_iff.mp h
    exact OrderBook.processOrder_notified hrun
  | legacy b =>
    rw [processOrder, OrderBookLegacy.engine_processOrder] at h
    obtain rfl := Option.some.inj h
    exact OrderBookLegacy.processOrder_notified _ _ _

/-- **A gated submission** does what `Book.submit` does. -/
theorem processOrder_sound {r : Processed AnyBook} (h : b.Inv)
    (hcan : b.canProcessOrder o = true) (hcounter : b.orderIdCounter + 1 < 2 ^ 32)
    (hrun : b.processOrder fuel o = some r) : ∃ id, Submitted b { o with id := id } r := by
  cases b with
  | current b =>
    rw [processOrder, OrderBook.engine_processOrder] at hrun
    obtain ⟨r', hrun', rfl⟩ := Option.map_eq_some_iff.mp hrun
    obtain ⟨i, -, -, hs⟩ := OrderBook.processOrder_sound h hcan hcounter hrun'
    refine ⟨(b.orderIdCounter + 1) * 2 ^ 32 + i, hs.inv, ?_, hs.resting, hs.order, hs.rejected,
      hs.fills⟩
    intro s x hx
    obtain ⟨⟨ix, hl, -⟩, -⟩ := h
    exact hl.id_lt (Nat.lt_succ_self _) s hx
  | legacy b =>
    rw [processOrder, OrderBookLegacy.engine_processOrder] at hrun
    obtain rfl := Option.some.inj hrun
    have hs := OrderBookLegacy.processOrder_spec h hcan (lt_trans hcounter (by decide))
    refine ⟨b.orderIdCounter + 1, hs.inv, ?_, hs.resting, hs.order, hs.rejected, hs.fills⟩
    intro s x hx
    exact Nat.lt_succ_of_le (OrderBookLegacy.Inv.ids h s x hx)

/-- A gated submission is executed. -/
theorem processOrder_isSome (h : b.Inv) (hcan : b.canProcessOrder o = true)
    (hcounter : b.orderIdCounter + 1 < 2 ^ 32) (hfuel : maxOrders < fuel) :
    (b.processOrder fuel o).isSome = true := by
  cases b with
  | current b =>
    obtain ⟨r, hrun, -⟩ := OrderBook.processOrder_spec h hcan hcounter hfuel
    rw [processOrder, OrderBook.engine_processOrder, hrun, Option.map_some, Option.isSome_some]
  | legacy b =>
    rw [processOrder, OrderBookLegacy.engine_processOrder, Option.map_some, Option.isSome_some]

/-- **A cancellation**, unless it hits a stale node, does what `Book.cancel` does. -/
theorem cancelOrder_spec (h : b.Inv) (hstale : ¬ b.StaleMatch id userId) :
    ∃ b', b.cancelOrder id userId = some (b', b.resting.find id userId) ∧ b'.Inv ∧
      b'.tradeListener = b.tradeListener ∧ b'.resting = (b.resting.cancel id userId).1 := by
  cases b with
  | current b =>
    obtain ⟨b', hrun, hc⟩ := OrderBook.cancelOrder_spec h hstale
    refine ⟨current b', ?_, hc.inv, hc.listener, hc.resting⟩
    simp only [cancelOrder, hrun, Option.map_some, resting]
  | legacy b =>
    obtain ⟨b', hrun, hc⟩ := OrderBookLegacy.cancelOrder_spec h id userId
    refine ⟨legacy b', ?_, hc.inv, hc.listener, hc.resting⟩
    simp only [cancelOrder, hrun, Option.map_some, resting]

lemma cancelOrder_sound {out : Option Order} (h : b.Inv) (hstale : ¬ b.StaleMatch id userId)
    (hrun : b.cancelOrder id userId = some (b', out)) : b.resting.find id userId = out ∧ b'.Inv ∧
      b'.tradeListener = b.tradeListener ∧ b'.resting = (b.resting.cancel id userId).1 := by
  obtain ⟨b₁, hrun₁, hspec⟩ := cancelOrder_spec h hstale
  rw [hrun] at hrun₁
  obtain ⟨rfl, hout⟩ := Prod.mk.inj (Option.some.inj hrun₁)
  exact ⟨hout.symm, hspec⟩

lemma not_staleMatch_of_ne_zero (h : id ≠ 0) : ¬ b.StaleMatch id userId := by
  cases b with
  | current b => exact OrderBook.not_staleMatch_of_ne_zero h
  | legacy b => exact fun h => h

/-- Cancelling keeps the listener; no invariant is needed. -/
lemma cancelOrder_tradeListener {out : Option Order}
    (h : b.cancelOrder id userId = some (b', out)) : b'.tradeListener = b.tradeListener := by
  cases b with
  | current b =>
    obtain ⟨⟨b₁, out₁⟩, hrun, heq⟩ := Option.map_eq_some_iff.mp h
    obtain ⟨rfl, -⟩ := Prod.mk.inj heq
    exact OrderBook.cancelOrder_tradeListener hrun
  | legacy b =>
    obtain ⟨⟨b₁, out₁⟩, hrun, heq⟩ := Option.map_eq_some_iff.mp h
    obtain ⟨rfl, -⟩ := Prod.mk.inj heq
    exact OrderBookLegacy.cancelOrder_tradeListener hrun

end AnyBook

/-! ### The instruments -/

/-- The market; of a company only the id is kept, and `instruments` is the array of instruments, of
which only the books are kept. -/
structure MarketState where
  companies : List Nat
  instruments : Nat → Option AnyBook
  engineMode : EngineMode

namespace MarketState

/-- The constructor. -/
def new (companies : List Nat) : Except String MarketState :=
  if companies.isEmpty then .error "MarketState requires at least one company"
  else .ok
    { companies := companies
      instruments := fun id => if id ∈ companies then some (makeOrderBook .current) else none
      engineMode := .current }

def findInstrument (m : MarketState) (companyId : Nat) : Option AnyBook := m.instruments companyId

def defaultCompanyId (m : MarketState) : Nat := m.companies.headD 0

def setEngineMode (m : MarketState) (mode : EngineMode) : MarketState :=
  if mode = m.engineMode then m
  else
    { m with
      engineMode := mode
      instruments := fun id => (m.instruments id).map fun _ => makeOrderBook mode }

/-- The market after the book of an instrument was changed. -/
def setBook (m : MarketState) (companyId : Nat) (book : AnyBook) : MarketState :=
  { m with instruments := Function.update m.instruments companyId (some book) }

variable (m : MarketState) (c c' : Nat) (book : AnyBook) (mode : EngineMode)

@[simp] lemma findInstrument_setBook : (m.setBook c book).findInstrument c'
    = if c' = c then some book else m.findInstrument c' := by
  exact Function.update_apply _ _ _ _

@[simp] lemma companies_setBook : (m.setBook c book).companies = m.companies := rfl

@[simp] lemma setEngineMode_self : m.setEngineMode m.engineMode = m := by
  rw [setEngineMode, if_pos rfl]

lemma findInstrument_setEngineMode {mode : EngineMode} (h : mode ≠ m.engineMode) :
    (m.setEngineMode mode).findInstrument c
      = (m.findInstrument c).map fun _ => makeOrderBook mode := by
  rw [setEngineMode, if_neg h]
  rfl

@[simp] lemma companies_setEngineMode : (m.setEngineMode mode).companies = m.companies := by
  rw [setEngineMode]
  split_ifs
  · rfl
  · rfl

end MarketState

end ExchangeEngine
