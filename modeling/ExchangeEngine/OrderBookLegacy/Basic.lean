import ExchangeEngine.IOrderBook
import ExchangeEngine.Library.Scan
import ExchangeEngine.Library.SortedMap
import Mathlib.Logic.Function.Basic

/-!
# `OrderBookLegacy`, the LEGACY engine

A shallow embedding of `OrderBookLegacy.h`. A `std::map` of price levels is the list of its entries
in map order, highest price first for bids and lowest first for asks. A `std::list` iterator is the
id of the order it points to. As for `OrderBook`, the two sides share one definition with the side
as a parameter.

Both loops of `match_buy` and `match_sell` run over a queue: a pass that does not end the loop
removes the front, so they recurse on the level and on the list of levels.
-/

namespace ExchangeEngine

structure PriceLevel where
  orders : List Order := []
  totalQuantity : Nat := 0
deriving DecidableEq, Repr

/-- Where an order rests; `nodeIt` is the iterator to it. -/
structure Location where
  side : Bool
  price : Nat
  nodeIt : Nat
deriving DecidableEq, Repr

/-- `std::map<uint32_t, PriceLevel, ...>` -/
abbrev Levels := List (Nat × PriceLevel)

structure OrderBookLegacy where
  bids : Levels
  asks : Levels
  locations : Nat → Option Location
  orderIdCounter : Nat
  tradeListener : Bool

namespace OrderBookLegacy

def new : OrderBookLegacy := ⟨[], [], fun _ => none, 0, false⟩

/-! ### Access to one side -/

def half (b : OrderBookLegacy) (side : Bool) : Levels := if side then b.bids else b.asks

def setHalf (b : OrderBookLegacy) (side : Bool) (levels : Levels) : OrderBookLegacy :=
  if side then { b with bids := levels } else { b with asks := levels }

@[simp] lemma half_setHalf (b : OrderBookLegacy) (s t : Bool) (m : Levels) :
    (b.setHalf s m).half t = if t = s then m else b.half t := by
  cases s <;> cases t <;> rfl

@[simp] lemma locations_setHalf (b : OrderBookLegacy) (s : Bool) (m : Levels) :
    (b.setHalf s m).locations = b.locations := by
  cases s <;> rfl

@[simp] lemma orderIdCounter_setHalf (b : OrderBookLegacy) (s : Bool) (m : Levels) :
    (b.setHalf s m).orderIdCounter = b.orderIdCounter := by
  cases s <;> rfl

@[simp] lemma tradeListener_setHalf (b : OrderBookLegacy) (s : Bool) (m : Levels) :
    (b.setHalf s m).tradeListener = b.tradeListener := by
  cases s <;> rfl

@[simp] lemma half_locations (b : OrderBookLegacy) (f : Nat → Option Location) (t : Bool) :
    ({ b with locations := f } : OrderBookLegacy).half t = b.half t := rfl

@[simp] lemma half_mk (b : OrderBookLegacy) (f : Nat → Option Location) (n : Nat) (l t : Bool) :
    (OrderBookLegacy.mk b.bids b.asks f n l).half t = b.half t := rfl

/-- The best price of a side, `NULL_PRICE` when it is empty. -/
def best (side : Bool) (b : OrderBookLegacy) : Nat :=
  match b.half side with
  | [] => nullIdx
  | (price, _) :: _ => price

def bestBid : OrderBookLegacy → Nat := best true
def bestAsk : OrderBookLegacy → Nat := best false

/-! ### Resting an order -/

/-- `add_order(order, bids_)` or `add_order(order, asks_)` -/
def addOrder (side : Bool) (b : OrderBookLegacy) (order : Order) : OrderBookLegacy :=
  let levels := SortedMap.modify (Scan.Before side) {} order.price
    (fun level =>
      { orders := level.orders ++ [order]
        totalQuantity := add32 level.totalQuantity order.quantity }) (b.half side)
  let loc : Location := ⟨order.side, order.price, order.id⟩
  { b.setHalf side levels with
    locations := Function.update b.locations order.id (some loc) }

/-! ### Matching -/

/-- What the matching loops carry besides the levels. -/
structure MatchState where
  locations : Nat → Option Location
  incoming : Order
  fills : List Trade
  notified : List Trade

/-- The inner loop over a level, for an incoming order on `side`; the last component is the rejected
quantity when self-trade prevention returns early. -/
def matchLevel (side listener : Bool) (price : Nat) :
    List Order → Nat → MatchState → PriceLevel × MatchState × Option Nat
  | [], total, s => (⟨[], total⟩, s, none)
  | resting :: orders, total, s =>
    if 0 < s.incoming.quantity then
      if s.incoming.userId = resting.userId then
        (⟨resting :: orders, total⟩, { s with incoming := { s.incoming with quantity := 0 } },
          some s.incoming.quantity)
      else
        let fillQty := min s.incoming.quantity resting.quantity
        let trade := tradeOf side s.incoming resting price fillQty
        let incoming := { s.incoming with quantity := s.incoming.quantity - fillQty }
        let resting := { resting with quantity := resting.quantity - fillQty }
        let s := { s with
          incoming := incoming
          fills := s.fills ++ [trade]
          notified := if listener then s.notified ++ [trade] else s.notified }
        if resting.quantity = 0 then
          matchLevel side listener price orders (sub32 total fillQty)
            { s with locations := Function.update s.locations resting.id none }
        -- the front stays, so the incoming order is used up and the loop ends
        else (⟨resting :: orders, sub32 total fillQty⟩, s, none)
    else (⟨resting :: orders, total⟩, s, none)

/-- The outer loop over the levels of the opposite side. -/
def matchLevels (side listener : Bool) : Levels → MatchState → Levels × MatchState × Nat
  | [], s => ([], s, 0)
  | (price, level) :: levels, s =>
    if 0 < s.incoming.quantity ∧ crosses side s.incoming.price price then
      match matchLevel side listener price level.orders level.totalQuantity s with
      | (level, s, some rejectedQty) => ((price, level) :: levels, s, rejectedQty)
      | (level, s, none) =>
        if level.orders.isEmpty then matchLevels side listener levels s
        -- the level stays, so the incoming order is used up and the loop ends
        else ((price, level) :: levels, s, 0)
    else ((price, level) :: levels, s, 0)

/-- The book after matching, the match state and the rejected quantity. -/
def matchOrder (side : Bool) (b : OrderBookLegacy) (incoming : Order) :
    OrderBookLegacy × MatchState × Nat :=
  let (levels, s, rejectedQty) :=
    matchLevels side b.tradeListener (b.half (!side)) ⟨b.locations, incoming, [], []⟩
  ({ b.setHalf (!side) levels with locations := s.locations }, s, rejectedQty)

def matchBuy : OrderBookLegacy → Order → OrderBookLegacy × MatchState × Nat := matchOrder true
def matchSell : OrderBookLegacy → Order → OrderBookLegacy × MatchState × Nat := matchOrder false

/-! ### Submission -/

/-- `can_process_order` -/
def canProcessOrder (_ : OrderBookLegacy) (order : Order) : Bool := decide (order.price < maxPrice)

abbrev Processed := ExchangeEngine.Processed OrderBookLegacy

def processOrder (side : Bool) (b : OrderBookLegacy) (order : Order) : Processed :=
  let counter := (b.orderIdCounter + 1) % 2 ^ 64
  let order := { order with id := counter }
  let b := { b with orderIdCounter := counter }
  let (b, s, rejectedQty) := matchOrder side b order
  let b := if 0 < s.incoming.quantity then addOrder side b s.incoming else b
  ⟨b, s.incoming, rejectedQty, s.fills, s.notified⟩

def processBuyOrder : OrderBookLegacy → Order → Processed := processOrder true
def processSellOrder : OrderBookLegacy → Order → Processed := processOrder false

/-! ### Cancellation -/

/-- `*loc.node_it`; `none` when no order is there any more. -/
def deref (b : OrderBookLegacy) (loc : Location) : Option Order := do
  let level ← SortedMap.find loc.price (b.half loc.side)
  level.orders.find? fun o => decide (o.id = loc.nodeIt)

/-- `erase_from_book` for the order `node` at `loc` -/
def eraseFromBook (b : OrderBookLegacy) (loc : Location) (node : Order) : OrderBookLegacy :=
  match SortedMap.find loc.price (b.half loc.side) with
  | none => b
  | some level =>
    let level : PriceLevel :=
      { orders := level.orders.eraseP fun o => decide (o.id = loc.nodeIt)
        totalQuantity := sub32 level.totalQuantity node.quantity }
    if level.orders.isEmpty then
      b.setHalf loc.side (SortedMap.erase loc.price (b.half loc.side))
    else
      b.setHalf loc.side (SortedMap.modify (Scan.Before loc.side) {} loc.price (fun _ => level)
        (b.half loc.side))

/-- `cancel_order`: the cancelled order when it returns true, `none` inside when it returns false.
-/
def cancelOrder (b : OrderBookLegacy) (orderId : Nat) (userId : Int) :
    Option (OrderBookLegacy × Option Order) :=
  match b.locations orderId with
  | none => some (b, none)
  | some loc => do
    let node ← b.deref loc
    if node.userId ≠ userId then some (b, none)
    else
      let b := b.eraseFromBook loc node
      some ({ b with locations := Function.update b.locations orderId none }, some node)

/-! ### Listings -/

/-- `depth_of` -/
def depth (side : Bool) (b : OrderBookLegacy) (limit : Nat) : List DepthLevel :=
  (b.half side).take limit |>.map fun (price, level) =>
    ⟨price, level.totalQuantity, level.orders.length % 2 ^ 32⟩

def bidDepth : OrderBookLegacy → Nat → List DepthLevel := depth true
def askDepth : OrderBookLegacy → Nat → List DepthLevel := depth false

/-- `orders_of`: the rows of all levels in turn, until there are `limit` of them. -/
def orders (side : Bool) (b : OrderBookLegacy) (limit : Nat) : List OrderSnapshot :=
  ((b.half side).flatMap fun (_, level) => level.orders.map Order.snapshot).take limit

def bidOrders : OrderBookLegacy → Nat → List OrderSnapshot := orders true
def askOrders : OrderBookLegacy → Nat → List OrderSnapshot := orders false

end OrderBookLegacy

end ExchangeEngine
