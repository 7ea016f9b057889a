import ExchangeEngine.Database
import ExchangeEngine.Market

/-!
# The server

`Server.h`: sessions reserve funds and queue tasks, the engine thread applies the tasks to the books
and queues what the fills and refunds mean for the wallets, and the database worker applies these
in batches. The three run concurrently; an interleaving is a list of events.

Both queues are lists: `push` of the engine queue waits until there is room, so nothing is dropped.
What is only sent to clients is left out.
-/

namespace ExchangeEngine

/-! ### Tasks -/

inductive DbTaskType
  | settle
  | refundCash
  | refundShares
  | logTrade
deriving DecidableEq, Repr

/-- A task of the database worker; `buyerId` is the user of a refund. -/
structure DbTask where
  buyerId : Int
  sellerId : Int
  quantity : Nat
  price : Nat
  buyerLimitPrice : Nat
  companyId : Nat
  type : DbTaskType
deriving DecidableEq, Repr

inductive EngineTask
  | order (companyId : Nat) (order : Order)
  | cancel (companyId orderId : Nat) (userId : Int)
  | snapshot (companyId : Nat)
  | switchEngine (mode : EngineMode)
deriving DecidableEq, Repr

/-! ### The engine thread -/

/-- What `on_trade` queues for a fill. -/
def onTrade (t : Trade) : List DbTask :=
  [⟨t.buyerUserId, t.sellerUserId, t.quantity, t.price, t.buyerLimitPrice, t.companyId, .settle⟩,
    ⟨t.buyerUserId, t.sellerUserId, t.quantity, t.price, 0, t.companyId, .logTrade⟩]

/-- The refund of `quantity` units of an order. -/
def refund (userId : Int) (order : Order) (companyId quantity : Nat) : DbTask :=
  if order.side then ⟨userId, 0, quantity, order.price, 0, companyId, .refundCash⟩
  else ⟨userId, 0, quantity, 0, 0, companyId, .refundShares⟩

/-- What a task does: the market afterwards, the fills executed by the books, and the database tasks
queued, both in order. -/
structure Effect where
  market : MarketState
  fills : List Trade
  pushed : List DbTask

/-- The branches of `run_engine_worker`. -/
def runTask (fuel : Nat) (m : MarketState) : EngineTask → Option Effect
  | .switchEngine mode => some ⟨m.setEngineMode mode, [], []⟩
  | .order companyId order =>
    match m.findInstrument companyId with
    | none => some ⟨m, [], []⟩
    | some book =>
      if book.canProcessOrder order then do
        let r ← book.processOrder fuel order
        some
          { market := m.setBook companyId r.book
            fills := r.fills
            pushed := r.notified.flatMap onTrade ++
              if 0 < r.rejectedQty then [refund r.order.userId r.order companyId r.rejectedQty]
              else [] }
      else some ⟨m, [], [refund order.userId order companyId order.quantity]⟩
  | .cancel companyId orderId userId =>
    match m.findInstrument companyId with
    | none => some ⟨m, [], []⟩
    | some book => do
      let (book, out) ← book.cancelOrder orderId userId
      some
        { market := m.setBook companyId book
          fills := []
          pushed := match out with
            | some cancelled => [refund userId cancelled companyId cancelled.quantity]
            | none => [] }
  | .snapshot _ => some ⟨m, [], []⟩

/-! ### The database worker -/

/-- One task of a batch. -/
def applyTask (db : Database) (task : DbTask) : Database :=
  match task.type with
  | .settle => db.settleTradeUnlocked task.buyerId task.sellerId task.companyId task.quantity
      task.price task.buyerLimitPrice
  | .refundCash => db.releaseCashUnlocked task.buyerId (task.price * task.quantity)
  | .refundShares => db.releaseSharesUnlocked task.buyerId task.companyId task.quantity
  | .logTrade => db.logTradeUnlocked task.companyId task.buyerId task.sellerId task.price
      task.quantity

/-- Whose wallet a task concerns. -/
def DbTask.users (task : DbTask) : List Int :=
  match task.type with
  | .settle => [task.buyerId, task.sellerId]
  | .refundCash => [task.buyerId]
  | .refundShares => [task.buyerId]
  | .logTrade => []

/-- `affected_users` -/
def affectedUsers (tasks : List DbTask) : List Int :=
  (tasks.flatMap DbTask.users).dedup.insertionSort (· ≤ ·)

/-! ### The server state -/

structure Server where
  market : MarketState
  db : Database
  engineQueue : List EngineTask
  dbQueueFront : List DbTask
  dbQueueBack : List DbTask

namespace Server

/-- The constructor: `trade_listener` is set on the book of every listed company. -/
def start (market : MarketState) (db : Database) : Server where
  market :=
    { market with
      instruments := fun id =>
        if id ∈ market.companies then (market.instruments id).map (AnyBook.setTradeListener true)
        else market.instruments id }
  db := db
  engineQueue := []
  dbQueueFront := []
  dbQueueBack := []

/-- The engine thread pops a task, if there is one; with it come its fills and the tasks it queues
for the database worker. -/
def engineStep (fuel : Nat) (s : Server) : Option (Server × List Trade × List DbTask) :=
  match s.engineQueue with
  | [] => some (s, [], [])
  | task :: queue => do
    let e ← runTask fuel s.market task
    some
      ({ s with
          market := e.market
          engineQueue := queue
          dbQueueFront := s.dbQueueFront ++ e.pushed },
        e.fills, e.pushed)

/-- The database worker: it applies and clears the back buffer, or swaps the buffers when the back
buffer is empty. -/
def dbStep (s : Server) : Server :=
  if s.dbQueueBack.isEmpty then
    { s with dbQueueFront := s.dbQueueBack, dbQueueBack := s.dbQueueFront }
  else { s with db := s.dbQueueBack.foldl applyTask s.db, dbQueueBack := [] }

/-! ### Messages -/

/-- An `order` message; a missing field is `none`. -/
structure OrderMsg where
  token : String := ""
  companyId : Option Nat := none
  side : Option String
  price : Option Nat
  quantity : Option Nat
  timestamp : Option Nat
  stress : Bool := false
  syntheticUserId : Option Int := none

structure MarketOrderMsg where
  token : String := ""
  companyId : Option Nat := none
  side : Option String
  quantity : Option Nat
  timestamp : Option Nat

structure CancelMsg where
  token : String := ""
  companyId : Option Nat := none
  orderId : Option Nat

inductive Message
  | order (msg : OrderMsg)
  | marketOrder (msg : MarketOrderMsg)
  | cancel (msg : CancelMsg)
  | switchEngine (mode : String)
  | snapshot (companyId : Option Nat)

/-- `engine_queue_.push` -/
def push (s : Server) (task : EngineTask) : Server :=
  { s with engineQueue := s.engineQueue ++ [task] }

def enqueueOrderTask (s : Server) (companyId : Nat) (userId : Int) (side : Bool)
    (price quantity timestamp : Nat) : Server :=
  s.push (.order companyId
    { id := 0, userId := userId, timestamp := timestamp, price := price, quantity := quantity
      companyId := companyId, side := side })

/-- Replace an error text. -/
def orElse {α : Type} (r : Except String α) (text : String) : Except String α :=
  r.mapError fun _ => text

def handleOrder (now : Int) (s : Server) (msg : OrderMsg) : Except String Server :=
  match msg.price, msg.quantity, msg.side, msg.timestamp with
  | some price, some quantity, some sideText, some timestamp => do
    let companyId := msg.companyId.getD s.market.defaultCompanyId
    let side := sideText == "BUY"
    if 100000 ≤ price then throw "Price exceeds maximum allowed ($999.99)."
    let userId ← orElse (s.db.validateSession now msg.token) "Authentication required/invalid."
    if msg.stress then
      let syntheticId := msg.syntheticUserId.getD (-1)
      let userId := if syntheticId < 0 then syntheticId else -1
      return s.enqueueOrderTask companyId userId side price quantity timestamp
    else if side then
      let db ← s.db.reserveCash userId (price * quantity)
      return { s with db := db }.enqueueOrderTask companyId userId side price quantity timestamp
    else
      let db ← s.db.reserveShares userId companyId quantity
      return { s with db := db }.enqueueOrderTask companyId userId side price quantity timestamp
  | _, _, _, _ => throw "Missing required fields for order submission."

def handleMarketOrder (now : Int) (s : Server) (msg : MarketOrderMsg) :
    Option (Except String Server) :=
  match msg.quantity, msg.side, msg.timestamp with
  | some quantity, some sideText, some timestamp =>
    match orElse (s.db.validateSession now msg.token) "Authentication required." with
    | .error e => some (.error e)
    | .ok userId =>
      let companyId := msg.companyId.getD s.market.defaultCompanyId
      let side := sideText == "BUY"
      match s.market.findInstrument companyId with
      | none => some (.error "Unknown instrument.")
      | some book =>
        if side then do
          let refPrice ← book.bestAsk
          if refPrice = nullIdx then
            some (.error "No asks in book - market buy cannot execute.")
          else some do
            let db ← s.db.reserveCash userId (refPrice * quantity)
            return { s with db := db }.enqueueOrderTask companyId userId true refPrice quantity
              timestamp
        else do
          let refPrice ← book.bestBid
          if refPrice = nullIdx then
            some (.error "No bids in book - market sell cannot execute.")
          else some do
            let db ← s.db.reserveShares userId companyId quantity
            return { s with db := db }.enqueueOrderTask companyId userId false refPrice quantity
              timestamp
  | _, _, _ => some (.error "Missing required fields for market order.")

def handleCancel (now : Int) (s : Server) (msg : CancelMsg) : Except String Server :=
  match msg.orderId with
  | some orderId => do
    let userId ← orElse (s.db.validateSession now msg.token) "Authentication required to cancel."
    return s.push (.cancel (msg.companyId.getD s.market.defaultCompanyId) orderId userId)
  | none => throw "Missing order_id for cancellation."

def handleSwitchEngine (s : Server) (mode : String) : Except String Server :=
  if mode ≠ "CURRENT" ∧ mode ≠ "LEGACY" then throw "mode must be CURRENT or LEGACY."
  else return s.push (.switchEngine (if mode = "LEGACY" then .legacy else .current))

/-- `handle_message` for the messages that concern the market: the server afterwards, or the error
sent back. -/
def handleMessage (now : Int) (s : Server) : Message → Option (Except String Server)
  | .order msg => some (s.handleOrder now msg)
  | .marketOrder msg => s.handleMarketOrder now msg
  | .cancel msg => some (s.handleCancel now msg)
  | .switchEngine mode => some (s.handleSwitchEngine mode)
  | .snapshot companyId =>
    some (.ok (s.push (.snapshot (companyId.getD s.market.defaultCompanyId))))

/-! ### Runs -/

/-- One event of an interleaving. -/
inductive Event
  | message (now : Int) (msg : Message)
  | engine (fuel : Nat)
  | db

/-- The server after an event, with the fills and the database tasks of the engine thread. -/
def step (s : Server) : Event → Option (Server × List Trade × List DbTask)
  | .message now msg => (s.handleMessage now msg).map fun
    | .ok s' => (s', [], [])
    | .error _ => (s, [], [])
  | .engine fuel => s.engineStep fuel
  | .db => some (s.dbStep, [], [])

/-- From `s₀`, by events that are allowed where they happen, the server reaches a state; on the way
the books executed `fills` and the engine thread queued `pushed`. -/
inductive Run (allowed : Server → Event → Prop) (s₀ : Server) :
    Server → List Trade → List DbTask → Prop
  | refl : Run allowed s₀ s₀ [] []
  | step {s s' : Server} {fills fills' : List Trade} {pushed pushed' : List DbTask} {e : Event}
      (hrun : Run allowed s₀ s fills pushed) (hallowed : allowed s e)
      (hstep : s.step e = some (s', fills', pushed')) :
      Run allowed s₀ s' (fills ++ fills') (pushed ++ pushed')

end Server

end ExchangeEngine
