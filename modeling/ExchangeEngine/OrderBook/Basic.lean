import ExchangeEngine.OrderBook.Bitmap
import ExchangeEngine.Library.LinkedList

/-!
# `OrderBook`, the CURRENT engine

A shallow embedding of `OrderBook.h`. Arrays are functions on indices; `free_indices_` is a list
whose head is the back of the vector. The two sides of the book carry the same code in C++, with
`bids_`/`asks_` and the scan direction exchanged, so each pair of functions is one definition with
the side as a parameter, followed by the two members under their own names.

`none` stands for an execution with no defined result: an array access out of bounds, `back()` of
an empty vector, a bit scan of a zero word, or a loop that is still running when the fuel is spent.
-/

namespace ExchangeEngine

open Scan

/-- `MAX_ORDERS`, the size of the node pool. -/
def maxOrders : Nat := 100000

structure OrderNode where
  order : Order
  prevIdx : Nat
  nextIdx : Nat
deriving DecidableEq, Repr

/-- The queue of one price level: a doubly linked list through the node pool. -/
structure OrderList where
  headIdx : Nat := nullIdx
  tailIdx : Nat := nullIdx
  totalQuantity : Nat := 0
  orderCount : Nat := 0
deriving DecidableEq, Repr

/-- `bids_` or `asks_` with its bitmap. -/
structure BookSide where
  levels : Nat → OrderList
  bits : Bitmap

abbrev Pool := Nat → OrderNode

namespace Pool

/-- `node_pool_[i].order = ...`, `.next_idx = ...` and `.prev_idx = ...`, inside the bounds. -/
def withOrder (pool : Pool) (i : Nat) (f : Order → Order) : Pool :=
  Function.update pool i { pool i with order := f (pool i).order }

def withNext (pool : Pool) (i j : Nat) : Pool :=
  Function.update pool i { pool i with nextIdx := j }

def withPrev (pool : Pool) (i j : Nat) : Pool :=
  Function.update pool i { pool i with prevIdx := j }

/-- Access to the vector is undefined outside its bounds. -/
def read (pool : Pool) (i : Nat) : Option OrderNode :=
  if i < maxOrders then some (pool i) else none

def setOrder (pool : Pool) (i : Nat) (f : Order → Order) : Option Pool :=
  if i < maxOrders then some (pool.withOrder i f) else none

def setNext (pool : Pool) (i j : Nat) : Option Pool :=
  if i < maxOrders then some (pool.withNext i j) else none

def setPrev (pool : Pool) (i j : Nat) : Option Pool :=
  if i < maxOrders then some (pool.withPrev i j) else none

variable (pool : Pool) (i j k : Nat) (f : Order → Order)

@[simp] lemma withOrder_order :
    (pool.withOrder i f k).order = if k = i then f (pool i).order else (pool k).order := by
  by_cases h : k = i
  · subst h; simp [withOrder]
  · simp [withOrder, h]

@[simp] lemma withOrder_nextIdx : (pool.withOrder i f k).nextIdx = (pool k).nextIdx := by
  by_cases h : k = i
  · subst h; simp [withOrder]
  · simp [withOrder, h]

@[simp] lemma withOrder_prevIdx : (pool.withOrder i f k).prevIdx = (pool k).prevIdx := by
  by_cases h : k = i
  · subst h; simp [withOrder]
  · simp [withOrder, h]

@[simp] lemma withNext_order : (pool.withNext i j k).order = (pool k).order := by
  by_cases h : k = i
  · subst h; simp [withNext]
  · simp [withNext, h]

@[simp] lemma withNext_nextIdx :
    (pool.withNext i j k).nextIdx = if k = i then j else (pool k).nextIdx := by
  by_cases h : k = i
  · subst h; simp [withNext]
  · simp [withNext, h]

@[simp] lemma withNext_prevIdx : (pool.withNext i j k).prevIdx = (pool k).prevIdx := by
  by_cases h : k = i
  · subst h; simp [withNext]
  · simp [withNext, h]

@[simp] lemma withPrev_order : (pool.withPrev i j k).order = (pool k).order := by
  by_cases h : k = i
  · subst h; simp [withPrev]
  · simp [withPrev, h]

@[simp] lemma withPrev_nextIdx : (pool.withPrev i j k).nextIdx = (pool k).nextIdx := by
  by_cases h : k = i
  · subst h; simp [withPrev]
  · simp [withPrev, h]

@[simp] lemma withPrev_prevIdx :
    (pool.withPrev i j k).prevIdx = if k = i then j else (pool k).prevIdx := by
  by_cases h : k = i
  · subst h; simp [withPrev]
  · simp [withPrev, h]

end Pool

structure OrderBook where
  orderIdCounter : Nat
  nodePool : Pool
  freeIndices : List Nat
  bids : BookSide
  asks : BookSide
  /-- is `trade_listener` set? -/
  tradeListener : Bool

namespace OrderBook

/-- The state after construction: every node is zero-initialised, slot 0 is on top of the free
stack, no listener is attached. -/
def new : OrderBook where
  orderIdCounter := 0
  nodePool _ := ⟨⟨0, 0, 0, 0, 0, 0, false⟩, 0, 0⟩
  freeIndices := List.range' 0 maxOrders
  bids := ⟨fun _ => {}, Bitmap.zero⟩
  asks := ⟨fun _ => {}, Bitmap.zero⟩
  tradeListener := false

/-! ### Access to one side -/

def half (b : OrderBook) (side : Bool) : BookSide := if side then b.bids else b.asks

def setHalf (b : OrderBook) (side : Bool) (h : BookSide) : OrderBook :=
  if side then { b with bids := h } else { b with asks := h }

/-- `bids_[price]` or `asks_[price]` -/
def level (b : OrderBook) (side : Bool) (price : Nat) : Option OrderList :=
  if price < maxPrice then some ((b.half side).levels price) else none

@[simp] lemma half_setHalf (b : OrderBook) (s t : Bool) (h : BookSide) :
    (b.setHalf s h).half t = if t = s then h else b.half t := by
  cases s <;> cases t <;> rfl

@[simp] lemma half_mk (b : OrderBook) (n : Nat) (pool : Pool) (free : List Nat) (l t : Bool) :
    (OrderBook.mk n pool free b.bids b.asks l).half t = b.half t := rfl

@[simp] lemma nodePool_setHalf (b : OrderBook) (s : Bool) (h : BookSide) :
    (b.setHalf s h).nodePool = b.nodePool := by
  cases s <;> rfl

@[simp] lemma freeIndices_setHalf (b : OrderBook) (s : Bool) (h : BookSide) :
    (b.setHalf s h).freeIndices = b.freeIndices := by
  cases s <;> rfl

@[simp] lemma orderIdCounter_setHalf (b : OrderBook) (s : Bool) (h : BookSide) :
    (b.setHalf s h).orderIdCounter = b.orderIdCounter := by
  cases s <;> rfl

@[simp] lemma tradeListener_setHalf (b : OrderBook) (s : Bool) (h : BookSide) :
    (b.setHalf s h).tradeListener = b.tradeListener := by
  cases s <;> rfl

def setLevel (b : OrderBook) (side : Bool) (price : Nat) (list : OrderList) : OrderBook :=
  b.setHalf side { b.half side with levels := Function.update (b.half side).levels price list }

def setBits (b : OrderBook) (side : Bool) (bits : Bitmap) : OrderBook :=
  b.setHalf side { b.half side with bits := bits }

@[simp] lemma levels_setLevel (b : OrderBook) (s t : Bool) (p q : Nat) (l : OrderList) :
    ((b.setLevel s p l).half t).levels q
      = if t = s ∧ q = p then l else (b.half t).levels q := by
  by_cases ht : t = s
  · subst ht
    by_cases hq : q = p
    · simp [setLevel, hq]
    · simp [setLevel, hq]
  · simp [setLevel, ht]

@[simp] lemma bits_setLevel (b : OrderBook) (s t : Bool) (p : Nat) (l : OrderList) :
    ((b.setLevel s p l).half t).bits = (b.half t).bits := by
  by_cases ht : t = s
  · subst ht
    simp [setLevel]
  · simp [setLevel, ht]

@[simp] lemma nodePool_setLevel (b : OrderBook) (s : Bool) (p : Nat) (l : OrderList) :
    (b.setLevel s p l).nodePool = b.nodePool := nodePool_setHalf _ _ _

@[simp] lemma freeIndices_setLevel (b : OrderBook) (s : Bool) (p : Nat) (l : OrderList) :
    (b.setLevel s p l).freeIndices = b.freeIndices := freeIndices_setHalf _ _ _

@[simp] lemma orderIdCounter_setLevel (b : OrderBook) (s : Bool) (p : Nat) (l : OrderList) :
    (b.setLevel s p l).orderIdCounter = b.orderIdCounter := orderIdCounter_setHalf _ _ _

@[simp] lemma tradeListener_setLevel (b : OrderBook) (s : Bool) (p : Nat) (l : OrderList) :
    (b.setLevel s p l).tradeListener = b.tradeListener := tradeListener_setHalf _ _ _

@[simp] lemma nodePool_setBits (b : OrderBook) (s : Bool) (m : Bitmap) :
    (b.setBits s m).nodePool = b.nodePool := nodePool_setHalf _ _ _

@[simp] lemma freeIndices_setBits (b : OrderBook) (s : Bool) (m : Bitmap) :
    (b.setBits s m).freeIndices = b.freeIndices := freeIndices_setHalf _ _ _

@[simp] lemma orderIdCounter_setBits (b : OrderBook) (s : Bool) (m : Bitmap) :
    (b.setBits s m).orderIdCounter = b.orderIdCounter := orderIdCounter_setHalf _ _ _

@[simp] lemma tradeListener_setBits (b : OrderBook) (s : Bool) (m : Bitmap) :
    (b.setBits s m).tradeListener = b.tradeListener := tradeListener_setHalf _ _ _

@[simp] lemma levels_setBits (b : OrderBook) (s t : Bool) (m : Bitmap) :
    ((b.setBits s m).half t).levels = (b.half t).levels := by
  by_cases ht : t = s
  · subst ht
    simp [setBits]
  · simp [setBits, ht]

@[simp] lemma bits_setBits (b : OrderBook) (s t : Bool) (m : Bitmap) :
    ((b.setBits s m).half t).bits = if t = s then m else (b.half t).bits := by
  by_cases ht : t = s
  · subst ht
    simp [setBits]
  · simp [setBits, ht]

def setBit (side : Bool) (b : OrderBook) (price : Nat) : OrderBook :=
  b.setBits side ((b.half side).bits.setBit price)

def setBidsBit : OrderBook → Nat → OrderBook := setBit true
def setAsksBit : OrderBook → Nat → OrderBook := setBit false

def clearBit (side : Bool) (b : OrderBook) (price : Nat) : OrderBook :=
  b.setBits side ((b.half side).bits.clearBit price)

def clearBidsBit : OrderBook → Nat → OrderBook := clearBit true
def clearAsksBit : OrderBook → Nat → OrderBook := clearBit false

/-- The best bid is the highest set price, the best ask the lowest. -/
def getBest (side : Bool) (b : OrderBook) : Option Nat := (b.half side).bits.getBest side

def getBestBid : OrderBook → Option Nat := getBest true
def getBestAsk : OrderBook → Option Nat := getBest false

def bestBid : OrderBook → Option Nat := getBestBid
def bestAsk : OrderBook → Option Nat := getBestAsk

/-! ### Resting an order -/

/-- Link the node of `order`, whose slot is in the low half of its id, behind the tail of its
level. -/
def addOrder (side : Bool) (b : OrderBook) (order : Order) : Option OrderBook := do
  let poolIdx := order.id &&& 0xFFFFFFFF
  let pool ← b.nodePool.setOrder poolIdx fun _ => order
  let pool ← pool.setPrev poolIdx nullIdx
  let pool ← pool.setNext poolIdx nullIdx
  let list ← b.level side order.price
  if list.tailIdx = nullIdx then
    let list := { list with headIdx := poolIdx, tailIdx := poolIdx }
    let b := setBit side { b with nodePool := pool } order.price
    some (b.setLevel side order.price { list with
      totalQuantity := add32 list.totalQuantity order.quantity
      orderCount := add32 list.orderCount 1 })
  else
    let pool ← pool.setNext list.tailIdx poolIdx
    let pool ← pool.setPrev poolIdx list.tailIdx
    let list := { list with tailIdx := poolIdx }
    some ({ b with nodePool := pool }.setLevel side order.price { list with
      totalQuantity := add32 list.totalQuantity order.quantity
      orderCount := add32 list.orderCount 1 })

def addBuyOrder : OrderBook → Order → Option OrderBook := addOrder true
def addSellOrder : OrderBook → Order → Option OrderBook := addOrder false

/-! ### Matching -/

/-- What the matching loops carry: the book, the incoming order, the fills executed so far and the
trades handed to the listener so far. -/
structure MatchState where
  book : OrderBook
  incoming : Order
  fills : List Trade
  notified : List Trade

/-- The book part of one fill: `fillQty` leaves the order at the head of the level, whose node is
released when nothing remains. -/
def fill (side : Bool) (price : Nat) (b : OrderBook) (restingIdx fillQty : Nat) :
    Option OrderBook := do
  let list ← b.level side price
  let pool ← b.nodePool.setOrder restingIdx fun o => { o with quantity := o.quantity - fillQty }
  let list := { list with totalQuantity := sub32 list.totalQuantity fillQty }
  if (pool restingIdx).order.quantity = 0 then
    let list := { list with headIdx := (pool restingIdx).nextIdx }
    let pool ← if list.headIdx ≠ nullIdx then pool.setPrev list.headIdx nullIdx else some pool
    let list := if list.headIdx ≠ nullIdx then list else { list with tailIdx := nullIdx }
    let list := { list with orderCount := sub32 list.orderCount 1 }
    let pool ← pool.setOrder restingIdx fun o => { o with id := 0 }
    some ({ b with nodePool := pool, freeIndices := restingIdx :: b.freeIndices }.setLevel
      side price list)
  else
    some ({ b with nodePool := pool }.setLevel side price list)

/-- The inner loop over the level at `best`, for an incoming order on `side`. The second component
is the rejected quantity when self-trade prevention returns early. -/
def matchLevel (side : Bool) (best : Nat) : Nat → MatchState → Option (MatchState × Option Nat)
  | 0, _ => none
  | fuel + 1, s => do
    let list ← s.book.level (!side) best
    if 0 < s.incoming.quantity ∧ list.headIdx ≠ nullIdx then
      let resting := (← s.book.nodePool.read list.headIdx).order
      if s.incoming.userId = resting.userId then
        some ({ s with incoming := { s.incoming with quantity := 0 } },
          some s.incoming.quantity)
      else
        let fillQty := min s.incoming.quantity resting.quantity
        let trade := tradeOf side s.incoming resting best fillQty
        let book ← fill (!side) best s.book list.headIdx fillQty
        matchLevel side best fuel
          { book := book
            incoming := { s.incoming with quantity := s.incoming.quantity - fillQty }
            fills := s.fills ++ [trade]
            notified := if s.book.tradeListener then s.notified ++ [trade] else s.notified }
    else some (s, none)

/-- The outer loop over price levels, entered with the best opposite price. -/
def matchLoop (side : Bool) (levelFuel : Nat) :
    Nat → Nat → MatchState → Option (MatchState × Nat)
  | 0, _, _ => none
  | fuel + 1, best, s =>
    if 0 < s.incoming.quantity ∧ best ≠ nullIdx ∧ crosses side s.incoming.price best then do
      let (s, stop) ← matchLevel side best levelFuel s
      match stop with
      | some rejectedQty => some (s, rejectedQty)
      | none =>
        let list ← s.book.level (!side) best
        let book := if list.orderCount = 0 then clearBit (!side) s.book best else s.book
        matchLoop side levelFuel fuel (← getBest (!side) book) { s with book := book }
    else some (s, 0)

def matchOrder (side : Bool) (fuel : Nat) (b : OrderBook) (incoming : Order) :
    Option (MatchState × Nat) := do
  matchLoop side fuel fuel (← getBest (!side) b) ⟨b, incoming, [], []⟩

def matchBuy : Nat → OrderBook → Order → Option (MatchState × Nat) := matchOrder true
def matchSell : Nat → OrderBook → Order → Option (MatchState × Nat) := matchOrder false

/-! ### Submission -/

/-- `can_process_order` -/
def canProcessOrder (b : OrderBook) (order : Order) : Bool :=
  decide (order.price < maxPrice) && !b.freeIndices.isEmpty

abbrev Processed := ExchangeEngine.Processed OrderBook

/-- `((++order_id_counter) << 32) | pool_idx` on `uint64_t` -/
def makeId (counter poolIdx : Nat) : Nat := counter <<< 32 % 2 ^ 64 ||| poolIdx

def processOrder (side : Bool) (fuel : Nat) (b : OrderBook) (order : Order) :
    Option Processed :=
  match b.freeIndices with
  | [] => none
  | poolIdx :: free => do
    let counter := (b.orderIdCounter + 1) % 2 ^ 64
    let order := { order with id := makeId counter poolIdx }
    let b := { b with orderIdCounter := counter, freeIndices := free }
    let (s, rejectedQty) ← matchOrder side fuel b order
    let book ←
      if 0 < s.incoming.quantity then addOrder side s.book s.incoming
      else some { s.book with freeIndices := poolIdx :: s.book.freeIndices }
    some ⟨book, s.incoming, rejectedQty, s.fills, s.notified⟩

def processBuyOrder : Nat → OrderBook → Order → Option Processed := processOrder true
def processSellOrder : Nat → OrderBook → Order → Option Processed := processOrder false

/-! ### Cancellation -/

/-- `cancel_order`: the cancelled order when it returns true, `none` inside when it returns false.
-/
def cancelOrder (b : OrderBook) (orderId : Nat) (userId : Int) :
    Option (OrderBook × Option Order) :=
  let targetIdx := orderId &&& 0xFFFFFFFF
  if maxOrders ≤ targetIdx then some (b, none)
  else
    let node := b.nodePool targetIdx
    if node.order.id ≠ orderId ∨ node.order.userId ≠ userId then some (b, none)
    else do
      let cancelled := node.order
      let list ← b.level cancelled.side cancelled.price
      let list := if node.prevIdx = nullIdx then { list with headIdx := node.nextIdx } else list
      let pool ←
        if node.prevIdx = nullIdx then some b.nodePool
        else b.nodePool.setNext node.prevIdx node.nextIdx
      -- `node` is a reference: its links are read again after the first write
      let node := pool targetIdx
      let list := if node.nextIdx = nullIdx then { list with tailIdx := node.prevIdx } else list
      let pool ←
        if node.nextIdx = nullIdx then some pool else pool.setPrev node.nextIdx node.prevIdx
      let list := { list with
        totalQuantity := sub32 list.totalQuantity cancelled.quantity
        orderCount := sub32 list.orderCount 1 }
      let b := b.setLevel cancelled.side cancelled.price list
      let b := if list.orderCount = 0 then clearBit cancelled.side b cancelled.price else b
      let pool ← pool.setOrder targetIdx fun o => { o with id := 0 }
      some ({ b with nodePool := pool, freeIndices := targetIdx :: b.freeIndices },
        some cancelled)

/-! ### Listings -/

/-- `bid_depth` and `ask_depth`: three nested scans over copies of the bitmap words. A word has at
most 64 set bits, so 65 passes of each loop suffice. -/
def depth (side : Bool) (b : OrderBook) (limit : Nat) : Option (List DepthLevel) :=
  let m := (b.half side).bits
  loop side (fun l3Bit acc => do
    let l2Copy ← m.readL2 l3Bit
    loop side (fun l2Bit acc => do
      let l1Idx := l3Bit * 64 + l2Bit
      let l1Copy ← m.readL1 l1Idx
      loop side (fun l1Bit acc => do
        let price := l1Idx * 64 + l1Bit
        let list ← b.level side price
        some (acc ++ [⟨price, list.totalQuantity, list.orderCount⟩]))
        limit 65 l1Copy acc)
      limit 65 l2Copy acc)
    limit 65 m.l3 []

def bidDepth : OrderBook → Nat → Option (List DepthLevel) := depth true
def askDepth : OrderBook → Nat → Option (List DepthLevel) := depth false

/-- The inner loop of the order listings: follow `next_idx` while there is room for more rows. -/
def collectLevel (pool : Pool) : Nat → Nat → List OrderSnapshot → Option (List OrderSnapshot)
  | 0, _, snaps => some snaps
  | room + 1, currIdx, snaps =>
    if currIdx = nullIdx then some snaps
    else do
      let node ← pool.read currIdx
      collectLevel pool room node.nextIdx (snaps ++ [node.order.snapshot])

/-- The outer loop of the order listings, over the levels found by the depth scan. -/
def collectLevels (side : Bool) (b : OrderBook) (limit : Nat) :
    List DepthLevel → List OrderSnapshot → Option (List OrderSnapshot)
  | [], snaps => some snaps
  | lvl :: rest, snaps => do
    let list ← b.level side lvl.price
    let snaps ← collectLevel b.nodePool (limit - snaps.length) list.headIdx snaps
    if snaps.length = limit then some snaps else collectLevels side b limit rest snaps

def orders (side : Bool) (b : OrderBook) (limit : Nat) : Option (List OrderSnapshot) := do
  collectLevels side b limit (← depth side b limit) []

def bidOrders : OrderBook → Nat → Option (List OrderSnapshot) := orders true
def askOrders : OrderBook → Nat → Option (List OrderSnapshot) := orders false

end OrderBook

end ExchangeEngine
