import Mathlib.Algebra.Group.Nat.Defs
import Mathlib.Data.List.Sort
import Mathlib.Tactic.Common

/-!
# The matching-engine interface

The records that both engines exchange with their callers (`IOrderBook.h`): orders, trades, and
the rows of the depth and order listings. Packing and padding bytes are left out.

Ids, prices, quantities and timestamps are natural numbers. The only `uint32_t` counters whose
wrap-around can be observed are the level totals, updated through `add32` and `sub32`.
-/

namespace ExchangeEngine

/-- `MAX_PRICE`: both engines accept prices (in cents) strictly below it. -/
def maxPrice : Nat := 100000

/-- `NULL_IDX` of `OrderBook.h` and `NULL_PRICE` of `OrderBookLegacy.h`: `(uint32_t) -1`. -/
def nullIdx : Nat := 2 ^ 32 - 1

lemma ne_nullIdx {price : Nat} (h : price < maxPrice) : price ≠ nullIdx := by
  simp only [maxPrice, nullIdx] at h ⊢
  omega

/-- `a += b` on `uint32_t`. -/
def add32 (a b : Nat) : Nat := (a + b) % 2 ^ 32

/-- `a -= b` on `uint32_t`. -/
def sub32 (a b : Nat) : Nat := (a + (2 ^ 32 - b % 2 ^ 32)) % 2 ^ 32

lemma add32_mod (a b : Nat) : add32 (a % 2 ^ 32) b = (a + b) % 2 ^ 32 := by
  simp [add32]

lemma sub32_mod {a b : Nat} (h : b ≤ a) : sub32 (a % 2 ^ 32) b = (a - b) % 2 ^ 32 := by
  simp only [sub32]
  omega

/-- An order; `side` is `true` for BUY and `false` for SELL. -/
structure Order where
  id : Nat
  userId : Int
  timestamp : Nat
  price : Nat
  quantity : Nat
  companyId : Nat
  side : Bool
deriving DecidableEq, Repr

/-- The record handed to `ITradeListener::on_trade` for one fill. -/
structure Trade where
  buyOrderId : Nat
  sellOrderId : Nat
  buyerUserId : Int
  sellerUserId : Int
  price : Nat
  quantity : Nat
  buyerLimitPrice : Nat
  companyId : Nat
deriving DecidableEq, Repr

structure DepthLevel where
  price : Nat
  quantity : Nat
  orders : Nat
deriving DecidableEq, Repr

structure OrderSnapshot where
  id : Nat
  userId : Int
  timestamp : Nat
  price : Nat
  quantity : Nat
deriving DecidableEq, Repr

/-- The listing row of a resting order. -/
def Order.snapshot (o : Order) : OrderSnapshot :=
  ⟨o.id, o.userId, o.timestamp, o.price, o.quantity⟩

/-- Does a resting price cross the limit of an incoming order on `side`? The loop guards
`best_ask <= incoming.price` (buy) and `best_bid >= incoming.price` (sell). -/
def crosses (side : Bool) (limit price : Nat) : Bool :=
  if side then decide (price ≤ limit) else decide (limit ≤ price)

/-- The trade built when `incoming`, on `side`, takes `fillQty` from `resting` at `price`. -/
def tradeOf (side : Bool) (incoming resting : Order) (price fillQty : Nat) : Trade :=
  if side then
    { buyOrderId := incoming.id, sellOrderId := resting.id
      buyerUserId := incoming.userId, sellerUserId := resting.userId
      price := price, quantity := fillQty
      buyerLimitPrice := incoming.price, companyId := incoming.companyId }
  else
    { buyOrderId := resting.id, sellOrderId := incoming.id
      buyerUserId := resting.userId, sellerUserId := incoming.userId
      price := price, quantity := fillQty
      buyerLimitPrice := resting.price, companyId := incoming.companyId }

/-- What a call of `process_*_order` leaves behind: the book, the order (an in/out parameter), the
returned quantity, the fills executed and the trades passed to the listener. -/
structure Processed (σ : Type) where
  book : σ
  order : Order
  rejectedQty : Nat
  fills : List Trade
  notified : List Trade

/-- The engine interface, for an engine with books `σ`; `none` stands for undefined behaviour. -/
structure IOrderBook (σ : Type) where
  new : σ
  setTradeListener : Bool → σ → σ
  canProcessOrder : σ → Order → Bool
  processBuyOrder : σ → Order → Option (Processed σ)
  processSellOrder : σ → Order → Option (Processed σ)
  cancelOrder : σ → Nat → Int → Option (σ × Option Order)
  bidDepth : σ → Nat → Option (List DepthLevel)
  askDepth : σ → Nat → Option (List DepthLevel)
  bidOrders : σ → Nat → Option (List OrderSnapshot)
  askOrders : σ → Nat → Option (List OrderSnapshot)
  bestBid : σ → Option Nat
  bestAsk : σ → Option Nat

/-- Call the `process_*_order` of the side of the order. -/
def IOrderBook.processOrder {σ : Type} (E : IOrderBook σ) (b : σ) (o : Order) :
    Option (Processed σ) :=
  if o.side then E.processBuyOrder b o else E.processSellOrder b o

end ExchangeEngine
