import ExchangeEngine.Accounts.Queries
import ExchangeEngine.Client.Feed
import ExchangeEngine.Server.Session

/-!
# Connections

The sessions of `Server.h` with all that they share: texts come in on any number of connections, the
engine thread and the database worker send to those in the registry, and the process may be killed
and started again between two events. A handler runs at one go, since all of them run on one thread,
but for the wallet that some of them send in the end: wallets are read and posted on two threads,
and both in two steps. The metrics are left out.
-/

namespace ExchangeEngine

/-! ### Frames -/

/-- What a connection is sent. The frames of `user_update` and of a game do not name the user, and
no time is kept. -/
inductive Outgoing
  | error (message : String)
  | registered (userId : Int) (username : String)
  | loggedIn (token : String) (userId : Int) (username : String)
  | userUpdate (userId : Int) (profile : UserProfile)
  | myTrades (userId : Int) (trades : List UserTrade)
  | leaderboard (entries : List LeaderboardEntry)
  | game (userId : Int) (msg : GameMessage)
  | market (msg : ServerMsg)
  | engineMode (mode : EngineMode)

/-- Whose account or game a frame tells about. The leaderboard is public, and so are the books. -/
def Outgoing.about : Outgoing → Option Int
  | .registered userId _ => some userId
  | .loggedIn _ userId _ => some userId
  | .userUpdate userId _ => some userId
  | .myTrades userId _ => some userId
  | .game userId _ => some userId
  | .error _ => none
  | .leaderboard _ => none
  | .market _ => none
  | .engineMode _ => none

/-! ### Handlers -/

/-- What the handlers take from their environment, with the salt of a registration and the random
bytes of a login. -/
structure Circumstances extends Surroundings where
  salt : Nat
  draw : Fin 32 → UInt8

/-- What a message leads to: the shared state, the user of the connection, what happened, what is
sent back, and whether the wallet is sent after that. -/
structure Reception where
  exchange : Exchange
  games : GameTables
  currentUserId : Int
  log : List Exchange.Entry
  frames : List Outgoing
  updates : Bool

/-- Is it the wallet? -/
def Response.updates : Response → Bool
  | .userUpdate _ => true
  | _ => false

namespace Exchange

variable (x : Exchange)

/-- A response of a session, with what it contains. The wallet comes later. -/
def frameOf (userId : Int) : Response → List Outgoing
  | .error message => [.error message]
  | .leaderboard => [.leaderboard (x.server.db.getLeaderboard x.users 20)]
  | .myTrades userId => [.myTrades userId (x.server.db.getUserTrades userId 50)]
  | .userUpdate _ => []
  | .game msg => [.game userId msg]

variable {J : Type} (json : JsonLib J) (sodium : Sodium) (g : GameManager) (env : Circumstances)
  (games : GameTables) (userId : Int)

/-- Nothing changes. -/
def stay (frames : List Outgoing) : Reception := ⟨x, games, userId, [], frames, false⟩

/-- The texts that a registration is made of. -/
def readRegistration (msg : J) : Except String (String × String × String) := do
  let username ← json.value msg "username" json.getString ""
  let password ← json.value msg "password" json.getString ""
  let role ← json.value msg "role" json.getString "trader"
  return (username, password, role)

def receiveRegister (msg : J) : Reception :=
  match readRegistration json msg with
  | .error _ => x.stay games userId []
  | .ok (username, password, role) =>
    match x.handleRegister sodium env.salt username password role with
    | .error message => x.stay games userId [.error message]
    | .ok (x', id) =>
      ⟨x', games, id,
        createdEntry password (starterShares x.server.market.companies) (some (id, true)),
        [.registered id username], true⟩

/-- The texts that a login is made of. -/
def readLogin (msg : J) : Except String (String × String) := do
  let username ← json.value msg "username" json.getString ""
  let password ← json.value msg "password" json.getString ""
  return (username, password)

def receiveLogin (msg : J) : Reception :=
  match readLogin json msg with
  | .error _ => x.stay games userId []
  | .ok (username, password) =>
    match x.handleLogin sodium env.draw env.now username password with
    | .error message => x.stay games userId [.error message]
    | .ok (x, token, id) =>
      ⟨x, games, id, [.granted ⟨token, id, env.now, password⟩], [.loggedIn token id username], true⟩

/-- A message that is neither a registration nor a login. -/
def receiveOther (raw : String) : Option Reception :=
  (Session.handleMessage ⟨x.server, games, userId⟩ json g env.toSurroundings
    ⟨fun c _ => some (c, []), fun c _ => some (c, [])⟩ raw).map fun r =>
      let x := { x with server := r.1.server }
      ⟨x, r.1.games, r.1.currentUserId, [], r.2.flatMap (x.frameOf r.1.currentUserId),
        r.2.any Response.updates⟩

/-- `handle_message` -/
def receive (raw : String) : Option Reception :=
  match json.parse raw with
  | .error _ => some (x.stay games userId [])
  | .ok msg =>
    if !json.isObject msg then some (x.stay games userId [])
    else
      match Session.readType json msg with
      | .error _ => some (x.stay games userId [])
      | .ok type =>
        if type = "register" then some (x.receiveRegister json sodium env games userId msg)
        else if type = "login" then some (x.receiveLogin json sodium env games userId msg)
        else x.receiveOther json g env games userId raw

end Exchange

/-! ### The engine thread -/

/-- What is broadcast for a task. -/
def broadcastFor (fuel : Nat) (s : Server) (task : EngineTask) : Option (List Outgoing) :=
  (sentFor fuel s false task).map fun msgs =>
    msgs.map (fun msg => .market msg.1) ++
      match task with
      | .switchEngine mode => [.engineMode mode]
      | _ => []

/-- What the session that asked for a task is sent besides. -/
def replyFor (fuel : Nat) (s : Server) : EngineTask → Option (List Outgoing)
  | .order companyId order =>
    match s.market.findInstrument companyId with
    | none => some []
    | some book =>
      if book.canProcessOrder order then
        (book.processOrder fuel order).map fun r =>
          if 0 < r.rejectedQty then
            [.error "Order partially cancelled due to self-trade prevention."]
          else []
      else some [.error "Order rejected: exchange capacity limit reached."]
  | .snapshot companyId =>
    (sentFor fuel s true (.snapshot companyId)).map fun msgs => msgs.map fun msg => .market msg.1
  | .cancel _ _ _ => some []
  | .switchEngine _ => some []

/-! ### The network -/

/-- A connection: who is logged in, whether it is in the registry, and whether it is read. -/
structure Connection where
  currentUserId : Int := -1
  registered : Bool := true
  reading : Bool := true
deriving DecidableEq

/-- Where `send_user_update` has got to. -/
inductive Update
  | asked (k : Nat)
  /-- the wallet has been read, but not posted -/
  | read (k : Nat) (userId : Int) (profile : UserProfile)
deriving DecidableEq

/-- Where `broadcast_user_update` has got to, which holds the mutex of the registry: whom it is
about, the sessions that have yet to be visited, and the wallet on its way. -/
structure Round where
  userId : Int
  left : List Nat
  update : Option Update

/-- The exchange with all connections that there have been. -/
structure Network where
  exchange : Exchange
  games : GameTables
  connections : List Connection
  /-- of each queued task, the connection that is told about it -/
  senders : List (Option Nat)
  /-- the wallet that the io thread is about to send -/
  io : Option Update
  /-- the users whom the database worker has yet to notify -/
  affected : List Int
  /-- the user whom it notifies -/
  round : Option Round

namespace Network

inductive Event
  /-- a connection is accepted -/
  | accept
  /-- it leaves the registry -/
  | leave (k : Nat)
  | receive (k : Nat) (env : Circumstances) (raw : String)
  | engine (fuel : Nat)
  /-- the database worker swaps the buffers or commits a batch -/
  | settle
  /-- the io thread goes on with the wallet that it sends -/
  | update
  /-- the database worker goes on notifying; of the sessions that are left, it visits this one -/
  | notify (i : Nat)
  | restart (salt salt' : Nat)

/-- What happens. -/
inductive Happening
  | heard (k : Nat) (now : Int) (raw : String)
  /-- a task is queued, and which connection it is for -/
  | queued (task : EngineTask) (sender : Option Nat)
  | entry (e : Exchange.Entry)
  /-- a wallet is read for a connection -/
  | read (k : Nat) (userId : Int) (profile : UserProfile)
  | sent (k : Nat) (frame : Outgoing)

section Step

variable {J : Type} (json : JsonLib J) (sodium : Sodium) (g : GameManager) (m : MarketState)
  (n : Network)

/-- The connection that a task is for; a cancellation names none. -/
def senderOf (k : Nat) : EngineTask → Option Nat
  | .cancel _ _ _ => none
  | .order _ _ => some k
  | .snapshot _ => some k
  | .switchEngine _ => some k

/-- The tasks that have been queued since `s`. -/
def newTasks (s s' : Server) : List EngineTask := s'.engineQueue.drop s.engineQueue.length

/-- What happens when a text comes in. -/
def reception (k : Nat) (now : Int) (raw : String) (tasks : List EngineTask) (r : Reception) :
    List Happening :=
  .heard k now raw :: tasks.map (fun task => .queued task (senderOf k task))
    ++ r.log.map .entry ++ r.frames.map (.sent k)

/-- What each connection is sent. -/
def deliver (f : Nat → Connection → List Outgoing) : List Happening :=
  (n.connections.zipIdx.map fun x => (f x.2 x.1).map (Happening.sent x.2)).flatten

/-- What a connection is sent for a task. -/
def framesFor (sender : Option Nat) (broadcast reply : List Outgoing) (k : Nat)
    (conn : Connection) : List Outgoing :=
  (if conn.registered then broadcast else []) ++ if sender = some k then reply else []

/-- The sessions in the registry. -/
def sessions : List Nat :=
  (List.range n.connections.length).filter fun k =>
    n.connections[k]?.any Connection.registered

/-- `user_id` -/
def userOf (k : Nat) : Option Int := n.connections[k]?.map Connection.currentUserId

/-- `send_user_update`, in two steps. -/
def advance : Update → Option Update × List Happening
  | .asked k =>
    match n.userOf k with
    | none => (none, [])
    | some userId =>
      if userId = -1 then (none, [])
      else
        let profile := n.exchange.server.db.getUserProfile userId
        (some (.read k userId profile), [.read k userId profile])
  | .read k userId profile => (none, [.sent k (.userUpdate userId profile)])

/-- `broadcast_user_update` goes on. -/
def goOn (round : Round) (i : Nat) : Network × List Happening :=
  match round.update with
  | some update =>
    ({ n with round := some { round with update := (n.advance update).1 } }, (n.advance update).2)
  | none =>
    match round.left[i]? with
    | some k =>
      let update := if n.userOf k = some round.userId then some (Update.asked k) else none
      ({ n with round := some { round with left := round.left.eraseIdx i, update := update } }, [])
    | none => ({ n with round := if round.left = [] then none else some round }, [])

/-- The network after an event, and what happens. While the io thread sends a wallet it does nothing
else, and nobody enters or leaves the registry while its mutex is held. That the engine thread, too,
waits for that mutex before it broadcasts is not required here. -/
def step : Event → Option (Network × List Happening)
  | .accept =>
    let task : EngineTask := .snapshot n.exchange.server.market.defaultCompanyId
    if n.io.isNone ∧ n.round.isNone then
      some
        ({ n with
            exchange := { n.exchange with server := n.exchange.server.push task }
            connections := n.connections ++ [{}]
            senders := n.senders ++ [some n.connections.length] },
          [.queued task (some n.connections.length)])
    else none
  | .leave k =>
    if n.io.isNone ∧ n.round.isNone then
      some ({ n with connections := n.connections.modify k fun conn =>
        { conn with registered := false } }, [])
    else none
  | .receive k env raw => do
    let conn ← n.connections[k]?
    if conn.reading ∧ n.io.isNone then
      let r ← n.exchange.receive json sodium g env n.games conn.currentUserId raw
      let tasks := newTasks n.exchange.server r.exchange.server
      some
        ({ n with
            exchange := r.exchange
            games := r.games
            connections := n.connections.set k { conn with currentUserId := r.currentUserId }
            senders := n.senders ++ tasks.map (senderOf k)
            io := if r.updates then some (.asked k) else none },
          reception k env.now raw tasks r)
    else none
  | .engine fuel =>
    match n.exchange.server.engineQueue with
    | [] => some (n, [])
    | task :: _ => do
      let (s, fills, _) ← n.exchange.server.step (.engine fuel)
      let broadcast ← broadcastFor fuel n.exchange.server task
      let reply ← replyFor fuel n.exchange.server task
      some
        ({ n with exchange := { n.exchange with server := s }, senders := n.senders.tail },
          fills.map (fun t => .entry (.fill t)) ++
            n.deliver (framesFor n.senders.head?.join broadcast reply))
  | .settle =>
    if n.affected = [] ∧ n.round.isNone then
      some
        ({ n with
            exchange := { n.exchange with server := n.exchange.server.dbStep }
            affected := affectedUsers n.exchange.server.dbQueueBack }, [])
    else none
  | .update =>
    n.io.map fun update => ({ n with io := (n.advance update).1 }, (n.advance update).2)
  | .notify i =>
    match n.round, n.affected with
    | some round, _ => some (n.goOn round i)
    | none, userId :: affected =>
      some ({ n with affected := affected, round := some ⟨userId, n.sessions, none⟩ }, [])
    | none, [] => none
  | .restart salt salt' =>
    let (x, entries) := Exchange.main sodium m salt salt' n.exchange.server.db n.exchange.users
    some
      ({ n with
          exchange := x
          connections := n.connections.map fun conn =>
            { conn with registered := false, reading := false }
          senders := []
          io := none
          affected := []
          round := none }, entries.map .entry)

end Step

/-- From `n₀` the network reaches a state; `log` is what happens on the way. -/
abbrev Run {J : Type} (json : JsonLib J) (sodium : Sodium) (g : GameManager) (m : MarketState)
    (n₀ : Network) : Network → List Happening → Prop :=
  Transition.Run (step json sodium g m) (fun _ _ => True) n₀

/-- Nothing has ever been stored, and nobody is connected. -/
def blank (m : MarketState) (chance : Chance) : Network :=
  ⟨.blank m chance, .empty, [], [], none, [], none⟩

/-- A small exchange without a past. -/
def sampleBlank : Network := blank Server.sampleMarket ⟨fun _ => 0, fun _ => 0⟩

end Network

end ExchangeEngine
