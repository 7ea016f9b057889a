import ExchangeEngine.SPSCQueue
import ExchangeEngine.Server.Atomic
import ExchangeEngine.Server.Shutdown

/-!
# The threads at work

The thread of the sessions, the engine thread and the database worker of a running server, each in
its own steps: one access to the ring of the engine queue, one statement, one task of a batch. A
thread locks `db_.mutex()` or the mutex of the registry in a step of its own, and waits while
another thread holds it; the database worker takes the first while it holds the second. What
`db_q_mutex_` guards is one step. A market order reads the best price while the engine thread may be
changing the book: it reads anything. The metrics are left out.
-/

namespace ExchangeEngine

inductive Thread
  | session
  | engine
  | dbWorker
deriving DecidableEq

/-- What a message asks for, whose token is yet to be checked. -/
inductive Request
  | order (stress : Bool) (syntheticUserId : Option Int) (companyId : Nat) (side : Bool)
      (price quantity timestamp : Nat)
  | marketOrder (companyId : Nat) (side : Bool) (quantity timestamp : Nat)
  | cancel (companyId orderId : Nat)

/-- What comes in that is not about orders. -/
inductive Errand
  /-- a registration, and the id that SQLite gives -/
  | register (userId : Int)
  | login (token : String) (userId expiresAt : Int)
  /-- a request for a snapshot that has a token -/
  | snapshot (companyId : Option Nat)
  /-- any other message, with its calls of the database: does each write something? -/
  | other (writes : List Bool)

/-- Where the thread of the sessions is. -/
inductive SessionThread
  | reading
  /-- in `validate_session` -/
  | authenticating (now : Int) (token : String) (request : Request)
  /-- about to read the best price for a market order -/
  | pricing (userId : Int) (companyId : Nat) (side : Bool) (quantity timestamp : Nat)
  | reserving (userId : Int) (companyId : Nat) (side : Bool) (price quantity timestamp : Nat)
  /-- in `push` of the engine queue, until it has room -/
  | pushing (task : EngineTask)
  /-- in calls of the database, each with the statements that it makes under the mutex; a snapshot
  may be asked for after them -/
  | calling (calls : List (List Statement)) (snapshot : Option Nat)
  /-- in `add` of the registry -/
  | joining
  /-- in `remove` of the registry -/
  | leaving

/-- What the engine thread does after a task. -/
inductive Report
  | broadcast
  /-- under `db_q_mutex_` -/
  | queue (tasks : List DbTask)

/-- Where the engine thread is. -/
inductive EngineWorker
  | popping
  | running (task : EngineTask)
  | reporting (reports : List Report)

/-- Where the database worker is. -/
inductive BatchWorker
  | waiting
  /-- about to lock `db_.mutex()` -/
  | swapped
  /-- about to apply task `i` of the back buffer -/
  | applying (i : Nat)
  /-- about to lock the registry for the first of these users -/
  | notifying (users : List Int)
  /-- in the registry, with so many sessions of a user to send his wallet to, and these users after
  him -/
  | updating (sessions : Nat) (users : List Int)
deriving DecidableEq

structure Workers where
  market : MarketState
  db : Database
  engineQueue : SPSCQueue EngineTask
  dbQueueFront : List DbTask
  dbQueueBack : List DbTask
  session : SessionThread
  engine : EngineWorker
  dbWorker : BatchWorker
  /-- who holds `db_.mutex()` -/
  dbMutex : Option Thread
  /-- who holds the mutex of the registry -/
  registryMutex : Option Thread

namespace Workers

/-- The capacity of `EngineQueue`, and a slot more. -/
def size : Nat := 2 ^ 16

inductive Move
  /-- a message about orders or the engine comes in -/
  | receive (now : Int) (msg : Server.Message)
  | errand (errand : Errand)
  /-- a connection is accepted -/
  | accept
  /-- a connection has been closed -/
  | leave
  /-- the handler goes on; a best price that it reads is `refPrice`, and `user` tells whether its
  connection has a user -/
  | session (refPrice : Nat) (user : Bool)
  /-- `left` is what moving a task out of its slot leaves there -/
  | engine (fuel : Nat) (left : EngineTask)
  /-- a user whose wallet is broadcast has so many sessions -/
  | dbWorker (sessions : Nat)

/-- The server when its threads start. -/
def start (market : MarketState) (db : Database) (buffer : Nat → EngineTask) : Workers where
  market := (Server.start market db).market
  db := db
  engineQueue := .new buffer
  dbQueueFront := []
  dbQueueBack := []
  session := .reading
  engine := .popping
  dbWorker := .waiting
  dbMutex := none
  registryMutex := none

/-- Is a batch being applied? -/
def Locked (w : Workers) : Prop := ∃ i, w.dbWorker = .applying i

instance (w : Workers) : Decidable w.Locked :=
  match h : w.dbWorker with
  | .applying i => isTrue ⟨i, h⟩
  | .waiting => isFalse fun ⟨i, hi⟩ => by rw [h] at hi; cases hi
  | .swapped => isFalse fun ⟨i, hi⟩ => by rw [h] at hi; cases hi
  | .notifying users => isFalse fun ⟨i, hi⟩ => by rw [h] at hi; cases hi
  | .updating sessions users => isFalse fun ⟨i, hi⟩ => by rw [h] at hi; cases hi

/-- A step that needs a mutex: it is locked if it is free, and the thread waits if another one
holds it. -/
def guarded {α : Type} (mutex : Option Thread) (thread : Thread) (lock step : Option α) :
    Option α :=
  match mutex with
  | none => lock
  | some holder => if holder = thread then step else none

/-! ### The sessions -/

/-- A message up to the check of its token. -/
def receive (now : Int) (w : Workers) : Server.Message → SessionThread
  | .order msg =>
    match msg.price, msg.quantity, msg.side, msg.timestamp with
    | some price, some quantity, some sideText, some timestamp =>
      if 100000 ≤ price then .reading
      else
        .authenticating now msg.token
          (.order msg.stress msg.syntheticUserId (msg.companyId.getD w.market.defaultCompanyId)
            (sideText == "BUY") price quantity timestamp)
    | _, _, _, _ => .reading
  | .marketOrder msg =>
    match msg.quantity, msg.side, msg.timestamp with
    | some quantity, some sideText, some timestamp =>
      .authenticating now msg.token
        (.marketOrder (msg.companyId.getD w.market.defaultCompanyId) (sideText == "BUY") quantity
          timestamp)
    | _, _, _ => .reading
  | .cancel msg =>
    match msg.orderId with
    | some orderId =>
      .authenticating now msg.token
        (.cancel (msg.companyId.getD w.market.defaultCompanyId) orderId)
    | none => .reading
  | .switchEngine mode =>
    if mode ≠ "CURRENT" ∧ mode ≠ "LEGACY" then .reading
    else .pushing (.switchEngine (if mode = "LEGACY" then .legacy else .current))
  | .snapshot companyId => .pushing (.snapshot (companyId.getD w.market.defaultCompanyId))

/-- A request of a user, up to what its handler does next. -/
def allow (m : MarketState) (userId : Int) : Request → SessionThread
  | .order stress syntheticUserId companyId side price quantity timestamp =>
    if stress then
      let syntheticId := syntheticUserId.getD (-1)
      .pushing (orderTask companyId (if syntheticId < 0 then syntheticId else -1) side price
        quantity timestamp)
    else .reserving userId companyId side price quantity timestamp
  | .marketOrder companyId side quantity timestamp =>
    if (m.findInstrument companyId).isSome then .pricing userId companyId side quantity timestamp
    else .reading
  | .cancel companyId orderId => .pushing (.cancel companyId orderId userId)

/-- `send_user_update` -/
def userUpdate : SessionThread := .calling [[]] none

/-- The calls of the database of an errand. -/
def begin (m : MarketState) : Errand → SessionThread
  | .register userId =>
    .calling
      ([.elsewhere, .initBal userId] ::
        m.companies.map (fun companyId => [.settleShares userId companyId 100]) ++ [[]]) none
  | .login token userId expiresAt =>
    .calling [[.createSess (bindText token) userId expiresAt], []] none
  | .snapshot companyId => .calling [[]] (some (companyId.getD m.defaultCompanyId))
  | .other writes => .calling (writes.map fun write => if write then [.elsewhere] else []) none

/-- `request_snapshot` ends with a user update. -/
def afterPush (user : Bool) : EngineTask → SessionThread
  | .snapshot _ => if user then userUpdate else .reading
  | .order _ _ => .reading
  | .cancel _ _ _ => .reading
  | .switchEngine _ => .reading

/-- The calls are over. -/
def afterCalls : Option Nat → SessionThread
  | some companyId => .pushing (.snapshot companyId)
  | none => .reading

/-- The next step of a handler. -/
def sessionStep (refPrice : Nat) (user : Bool) (w : Workers) : Option Workers :=
  let lockDb := some { w with dbMutex := some .session }
  let lockRegistry := some { w with registryMutex := some .session }
  match w.session with
  | .reading => none
  | .authenticating now token request =>
    guarded w.dbMutex .session lockDb
      (some
        { w with
          session := match w.db.validateSession now token with
            | .error _ => .reading
            | .ok userId => allow w.market userId request
          dbMutex := none })
  | .pricing userId companyId side quantity timestamp =>
    some
      { w with
        session :=
          if refPrice = nullIdx then .reading
          else .reserving userId companyId side refPrice quantity timestamp }
  | .reserving userId companyId side price quantity timestamp =>
    guarded w.dbMutex .session lockDb
      (match w.db.reserve userId companyId side price quantity with
      | .error _ => some { w with session := .reading, dbMutex := none }
      | .ok db =>
        some
          { w with
            db := db
            session := .pushing (orderTask companyId userId side price quantity timestamp)
            dbMutex := none })
  | .pushing task =>
    match w.engineQueue.pushStep size task with
    | (queue, .pushed _) => some { w with engineQueue := queue, session := afterPush user task }
    | (queue, _) => some { w with engineQueue := queue }
  | .calling [] snapshot => some { w with session := afterCalls snapshot }
  | .calling ([] :: calls) snapshot =>
    guarded w.dbMutex .session lockDb
      (some { w with session := .calling calls snapshot, dbMutex := none })
  | .calling ((statement :: statements) :: calls) snapshot =>
    guarded w.dbMutex .session lockDb
      (some
        { w with
          db := w.db.execute statement
          session := .calling (statements :: calls) snapshot })
  | .joining =>
    guarded w.registryMutex .session lockRegistry
      (some
        { w with
          session := .pushing (.snapshot w.market.defaultCompanyId)
          registryMutex := none })
  | .leaving =>
    guarded w.registryMutex .session lockRegistry
      (some { w with session := .reading, registryMutex := none })

/-! ### The engine thread -/

/-- Does the engine thread read the recent prices from the database? -/
def ReadsPrices (m : MarketState) : EngineTask → Prop
  | .snapshot companyId => (m.findInstrument companyId).isSome = true
  | .order _ _ => False
  | .cancel _ _ _ => False
  | .switchEngine _ => False

instance (m : MarketState) : (task : EngineTask) → Decidable (ReadsPrices m task)
  | .snapshot companyId => inferInstanceAs (Decidable ((m.findInstrument companyId).isSome = true))
  | .order _ _ => isFalse id
  | .cancel _ _ _ => isFalse id
  | .switchEngine _ => isFalse id

/-- Is this a trade that is queued? -/
def isTrade (tasks : List DbTask) : Bool := tasks.any fun task => task.type = .settle

/-- Each trade is broadcast before it is queued, the book after the trades; a book that was changed
by a cancellation is broadcast before the refund, and after a switch all books are. -/
def reports (m : MarketState) (task : EngineTask) (pushed : List DbTask) : List Report :=
  let each := (sections pushed).flatMap fun tasks => [.broadcast, .queue tasks]
  match task with
  | .order companyId order =>
    let processed := (m.findInstrument companyId).any fun book => book.canProcessOrder order
    ((sections pushed).takeWhile isTrade).flatMap (fun tasks => [.broadcast, .queue tasks]) ++
      (if processed then [.broadcast] else []) ++
        ((sections pushed).dropWhile isTrade).map .queue
  | .cancel _ _ _ => each
  | .snapshot _ => []
  | .switchEngine _ => m.companies.map (fun _ => .broadcast) ++ [.broadcast]

/-- A task is run, with the mutex of the database as it is then. -/
def run (fuel : Nat) (task : EngineTask) (mutex : Option Thread) (w : Workers) :
    Option (Workers × List Trade) := do
  let e ← runTask fuel w.market task
  some
    ({ w with
        market := e.market
        engine := .reporting (reports w.market task e.pushed)
        dbMutex := mutex },
      e.fills)

/-- The next step of the engine thread, and the fills. -/
def engineStep (fuel : Nat) (left : EngineTask) (w : Workers) : Option (Workers × List Trade) :=
  match w.engine with
  | .popping =>
    match w.engineQueue.popStep size left with
    | (queue, .popped task) => some ({ w with engineQueue := queue, engine := .running task }, [])
    | (queue, _) => some ({ w with engineQueue := queue }, [])
  | .running task =>
    if ReadsPrices w.market task then
      guarded w.dbMutex .engine (some ({ w with dbMutex := some .engine }, []))
        (w.run fuel task none)
    else w.run fuel task w.dbMutex
  | .reporting [] => some ({ w with engine := .popping }, [])
  | .reporting (.broadcast :: rest) =>
    guarded w.registryMutex .engine (some ({ w with registryMutex := some .engine }, []))
      (some ({ w with engine := .reporting rest, registryMutex := none }, []))
  | .reporting (.queue tasks :: rest) =>
    some ({ w with dbQueueFront := w.dbQueueFront ++ tasks, engine := .reporting rest }, [])

/-! ### The database worker -/

def dbWorkerStep (sessions : Nat) (w : Workers) : Option Workers :=
  match w.dbWorker with
  | .waiting =>
    if w.dbQueueFront.isEmpty then none
    else
      some
        { w with
          dbQueueFront := w.dbQueueBack
          dbQueueBack := w.dbQueueFront
          dbWorker := .swapped }
  | .swapped =>
    guarded w.dbMutex .dbWorker
      (some { w with dbWorker := .applying 0, dbMutex := some .dbWorker }) none
  | .applying i =>
    match w.dbQueueBack[i]? with
    | some task => some { w with db := applyTask w.db task, dbWorker := .applying (i + 1) }
    | none =>
      some { w with dbWorker := .notifying (affectedUsers w.dbQueueBack), dbMutex := none }
  | .notifying [] => some { w with dbQueueBack := [], dbWorker := .waiting }
  | .notifying (_ :: users) =>
    guarded w.registryMutex .dbWorker
      (some { w with dbWorker := .updating sessions users, registryMutex := some .dbWorker }) none
  | .updating 0 users => some { w with dbWorker := .notifying users, registryMutex := none }
  | .updating (sessions + 1) users =>
    guarded w.dbMutex .dbWorker (some { w with dbMutex := some .dbWorker })
      (some { w with dbWorker := .updating sessions users, dbMutex := none })

/-! ### Runs -/

/-- A handler begins. -/
def enter (w : Workers) (session : SessionThread) : Option (Workers × List Trade) :=
  match w.session with
  | .reading => some ({ w with session := session }, [])
  | _ => none

/-- One step of one thread. -/
def step (w : Workers) : Move → Option (Workers × List Trade)
  | .receive now msg => w.enter (w.receive now msg)
  | .errand errand => w.enter (begin w.market errand)
  | .accept => w.enter .joining
  | .leave => w.enter .leaving
  | .session refPrice user => (w.sessionStep refPrice user).map fun w' => (w', [])
  | .engine fuel left => w.engineStep fuel left
  | .dbWorker sessions => (w.dbWorkerStep sessions).map fun w' => (w', [])

/-- From `w₀`, by moves that are allowed where they happen, the threads reach a state; on the way
the books execute `fills`. -/
abbrev Run (allowed : Workers → Move → Prop) (w₀ : Workers) : Workers → List Trade → Prop :=
  Transition.Run step allowed w₀

end Workers

end ExchangeEngine
