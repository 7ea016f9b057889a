import ExchangeEngine.Client.Basic
import ExchangeEngine.Server.Settlement

/-!
# What a client is sent

The server with one connected client. The engine thread sends trade frames and books to every
client and a snapshot to the one that asked; the messages arrive in order. The server may act, and
the client may work, at any time.
-/

namespace ExchangeEngine

/-! ### What the engine thread sends -/

namespace AnyBook

/-- `bid_orders` and `ask_orders` -/
def orders (side : Bool) : AnyBook → Nat → Option (List OrderSnapshot)
  | current b, limit => OrderBook.orders side b limit
  | legacy b, limit => some (OrderBookLegacy.orders side b limit)

def bidOrders : AnyBook → Nat → Option (List OrderSnapshot) := orders true

def askOrders : AnyBook → Nat → Option (List OrderSnapshot) := orders false

end AnyBook

/-- `book_to_json`, with the default limit of the listings. -/
def bookMsg (companyId : Nat) (book : AnyBook) : Option BookMsg := do
  let buyOrders ← book.bidOrders 100
  let sellOrders ← book.askOrders 100
  some ⟨companyId, buyOrders, sellOrders⟩

lemma companyId_bookMsg {companyId : Nat} {book : AnyBook} {msg : BookMsg}
    (h : bookMsg companyId book = some msg) : msg.companyId = companyId := by
  obtain ⟨buyOrders, -, h⟩ := Option.bind_eq_some_iff.mp h
  obtain ⟨sellOrders, -, h⟩ := Option.bind_eq_some_iff.mp h
  rw [← Option.some.inj h]

/-- The price as a `uint32_t`. -/
def Trade.execPrice (t : Trade) : Nat := t.price % 2 ^ 32

def tradeMsg (t : Trade) : TradeMsg :=
  ⟨t.companyId, t.execPrice, t.quantity, t.buyOrderId, t.sellOrderId⟩

/-- The books that are sent after a switch. -/
def bookMsgs (m : MarketState) : List Nat → Option (List BookMsg)
  | [] => some []
  | companyId :: companies =>
    match m.findInstrument companyId with
    | some book => do
      let msg ← bookMsg companyId book
      let msgs ← bookMsgs m companies
      some (msg :: msgs)
    | none => bookMsgs m companies

/-- What the client is sent for a task, each message with the number of fills that the task has
executed by then; `asked` says whether it is the client's own task. -/
def sentFor (fuel : Nat) (s : Server) (asked : Bool) :
    EngineTask → Option (List (ServerMsg × Nat))
  | .switchEngine mode => do
    let msgs ← bookMsgs (s.market.setEngineMode mode) s.market.companies
    some (msgs.map fun msg => (.book msg, 0))
  | .order companyId order =>
    match s.market.findInstrument companyId with
    | none => some []
    | some book =>
      if book.canProcessOrder order then do
        let r ← book.processOrder fuel order
        let msg ← bookMsg companyId r.book
        some ((r.notified.zipIdx 1).map (fun x => (.trade (tradeMsg x.1), x.2))
          ++ [(.book msg, r.fills.length)])
      else some []
  | .cancel companyId orderId userId =>
    match s.market.findInstrument companyId with
    | none => some []
    | some book => do
      let (book, out) ← book.cancelOrder orderId userId
      match out with
      | some _ =>
        let msg ← bookMsg companyId book
        some [(.book msg, 0)]
      | none => some []
  | .snapshot companyId =>
    match s.market.findInstrument companyId with
    | none => some []
    | some book => do
      let msg ← bookMsg companyId book
      some (if asked then
          [(.snapshot msg (s.db.getRecentPrices companyId 60).reverse, 0)]
        else [])

/-- What a task does, and what the client is sent for it. -/
inductive Sends (fuel : Nat) (s : Server) (asked : Bool) :
    EngineTask → Effect → List (ServerMsg × Nat) → Prop
  | switchEngine {mode : EngineMode} {books : List BookMsg}
      (hbooks : bookMsgs (s.market.setEngineMode mode) s.market.companies = some books) :
      Sends fuel s asked (.switchEngine mode) ⟨s.market.setEngineMode mode, [], []⟩
        (books.map fun msg => (.book msg, 0))
  | snapshot {c : Nat} {b : AnyBook} {msg : BookMsg} (hfind : s.market.findInstrument c = some b)
      (hmsg : bookMsg c b = some msg) (hasked : asked = true) :
      Sends fuel s asked (.snapshot c) ⟨s.market, [], []⟩
        [(.snapshot msg (s.db.getRecentPrices c 60).reverse, 0)]
  | silent (task : EngineTask) (pushed : List DbTask) :
      Sends fuel s asked task ⟨s.market, [], pushed⟩ []
  | processed {c : Nat} {o : Order} {b : AnyBook} {r : Processed AnyBook} {msg : BookMsg}
      (pushed : List DbTask) (hfind : s.market.findInstrument c = some b)
      (hcan : b.canProcessOrder o = true) (hprocess : b.processOrder fuel o = some r)
      (hmsg : bookMsg c r.book = some msg) :
      Sends fuel s asked (.order c o) ⟨s.market.setBook c r.book, r.fills, pushed⟩
        ((r.notified.zipIdx 1).map (fun x => (.trade (tradeMsg x.1), x.2))
          ++ [(.book msg, r.fills.length)])
  | cancelMissed {c id : Nat} {userId : Int} {b b' : AnyBook}
      (hfind : s.market.findInstrument c = some b)
      (hcancel : b.cancelOrder id userId = some (b', none)) :
      Sends fuel s asked (.cancel c id userId) ⟨s.market.setBook c b', [], []⟩ []
  | cancelled {c id : Nat} {userId : Int} {b b' : AnyBook} {x : Order} {msg : BookMsg}
      (pushed : List DbTask) (hfind : s.market.findInstrument c = some b)
      (hcancel : b.cancelOrder id userId = some (b', some x)) (hmsg : bookMsg c b' = some msg) :
      Sends fuel s asked (.cancel c id userId) ⟨s.market.setBook c b', [], pushed⟩
        [(.book msg, 0)]

/-- **A task sends** one of these lists of messages. -/
theorem sentFor_sends {fuel : Nat} {s : Server} {asked : Bool} {task : EngineTask} {e : Effect}
    {msgs : List (ServerMsg × Nat)} (hrun : runTask fuel s.market task = some e)
    (hsent : sentFor fuel s asked task = some msgs) : Sends fuel s asked task e msgs := by
  cases runTask_branch hrun with
  | switchEngine mode =>
    obtain ⟨books, hbooks, hsent⟩ := Option.bind_eq_some_iff.mp hsent
    obtain rfl := Option.some.inj hsent
    exact .switchEngine hbooks
  | snapshot c =>
    rw [sentFor] at hsent
    cases hfind : s.market.findInstrument c with
    | none =>
      rw [hfind] at hsent
      obtain rfl := Option.some.inj hsent
      exact .silent _ _
    | some b =>
      rw [hfind] at hsent
      obtain ⟨msg, hmsg, hsent⟩ := Option.bind_eq_some_iff.mp hsent
      obtain rfl := Option.some.inj hsent
      cases asked with
      | false => exact .silent _ _
      | true => exact .snapshot hfind hmsg rfl
  | orderUnlisted o hfind =>
    rw [sentFor, hfind] at hsent
    obtain rfl := Option.some.inj hsent
    exact .silent _ _
  | orderRefused hfind hcan =>
    simp only [sentFor, hfind, hcan, Bool.false_eq_true, if_false] at hsent
    obtain rfl := Option.some.inj hsent
    exact .silent _ _
  | orderProcessed hfind hcan hprocess =>
    simp only [sentFor, hfind, hcan, if_true, hprocess, Option.bind_eq_bind, Option.bind_some]
      at hsent
    obtain ⟨msg, hmsg, hsent⟩ := Option.bind_eq_some_iff.mp hsent
    obtain rfl := Option.some.inj hsent
    exact .processed _ hfind hcan hprocess hmsg
  | cancelUnlisted id userId hfind =>
    rw [sentFor, hfind] at hsent
    obtain rfl := Option.some.inj hsent
    exact .silent _ _
  | cancelMissed hfind hcancel =>
    simp only [sentFor, hfind, hcancel, Option.bind_eq_bind, Option.bind_some] at hsent
    obtain rfl := Option.some.inj hsent
    exact .cancelMissed hfind hcancel
  | cancelled hfind hcancel =>
    simp only [sentFor, hfind, hcancel, Option.bind_eq_bind, Option.bind_some] at hsent
    obtain ⟨msg, hmsg, hsent⟩ := Option.bind_eq_some_iff.mp hsent
    obtain rfl := Option.some.inj hsent
    exact .cancelled _ hfind hcancel hmsg

/-! ### The connection -/

/-- Is it a snapshot of the company? -/
def ServerMsg.SnapshotOf (companyId : Nat) : ServerMsg → Prop
  | .snapshot msg _ => msg.companyId = companyId
  | _ => False

instance (companyId : Nat) (msg : ServerMsg) : Decidable (msg.SnapshotOf companyId) := by
  cases msg <;> unfold ServerMsg.SnapshotOf <;> infer_instance

def ServerMsg.isLoggedIn : ServerMsg → Bool
  | .loggedIn _ => true
  | _ => false

/-- The server and one of its clients. The last three fields record what has happened: `executed`
are the fills of the server, and a message carries their number when it was sent; `processed` are
the messages that the client has processed, the last one first. -/
structure Feed where
  server : Server
  /-- of each queued task, whether the client asked for it -/
  asked : List Bool
  sent : List (ServerMsg × Nat)
  client : Client
  executed : List Trade
  processed : List (ServerMsg × Nat)

inductive Feed.Move
  | message (own : Bool) (now : Int) (msg : Server.Message)
  | engine (fuel : Nat)
  | db
  | login (userId : Int)
  | receive
  | changeCompany (companyId : Nat)
  | logout

namespace Feed

/-- The client connects to a server that has executed `executed`. -/
def connect (s : Server) (executed : List Trade) (client : Client) : Feed where
  server := s
  asked := s.engineQueue.map fun _ => false
  sent := []
  client := client
  executed := executed
  processed := []

def step (f : Feed) : Move → Option Feed
  | .message own now msg => do
    let (s, _, _) ← f.server.step (.message now msg)
    some
      { f with
        server := s
        asked := f.asked
          ++ List.replicate (s.engineQueue.length - f.server.engineQueue.length) own }
  | .engine fuel =>
    match f.server.engineQueue with
    | [] => some f
    | task :: _ => do
      let (s, fills, _) ← f.server.step (.engine fuel)
      let msgs ← sentFor fuel f.server (f.asked.headD false) task
      some
        { f with
          server := s
          asked := f.asked.tail
          sent := f.sent ++ msgs.map fun x => (x.1, f.executed.length + x.2)
          executed := f.executed ++ fills }
  | .db => do
    let (s, _, _) ← f.server.step .db
    some { f with server := s }
  | .login userId => some { f with sent := f.sent ++ [(.loggedIn userId, f.executed.length)] }
  | .receive =>
    match f.sent with
    | [] => some f
    | x :: sent => some
      { f with sent := sent, client := f.client.onMessage x.1, processed := x :: f.processed }
  | .changeCompany companyId => some { f with client := f.client.changeCompany companyId }
  | .logout => some { f with client := f.client.handleLogout }

/-- From `f₀`, by moves that are allowed where they happen, the connection reaches a state. -/
inductive Run (allowed : Feed → Move → Prop) (f₀ : Feed) : Feed → Prop
  | refl : Run allowed f₀ f₀
  | step {f f' : Feed} {e : Move} (hrun : Run allowed f₀ f) (hallowed : allowed f e)
      (hstep : f.step e = some f') : Run allowed f₀ f'

/-- Make the moves in order, as long as they are allowed. -/
def runMoves (allowed : Feed → Move → Prop) [∀ f e, Decidable (allowed f e)] (f : Feed) :
    List Move → Option Feed
  | [] => some f
  | e :: es => if allowed f e then (f.step e).bind fun f' => runMoves allowed f' es else none

lemma Run.head {allowed : Feed → Move → Prop} {f f' f'' : Feed} {e : Move}
    (hallowed : allowed f e) (hstep : f.step e = some f') (h : Run allowed f' f'') :
    Run allowed f f'' := by
  induction h with
  | refl => exact Run.step Run.refl hallowed hstep
  | step _ hallowed' hstep' ih => exact Run.step ih hallowed' hstep'

/-- The moves made form a run. -/
theorem run_of_runMoves {allowed : Feed → Move → Prop} [∀ f e, Decidable (allowed f e)]
    {f f' : Feed} {es : List Move} (h : f.runMoves allowed es = some f') : Run allowed f f' := by
  induction es generalizing f with
  | nil =>
    obtain rfl := Option.some.inj h
    exact Run.refl
  | cons e es ih =>
    rw [runMoves] at h
    split_ifs at h with hallowed
    obtain ⟨f₁, hstep, hrest⟩ := Option.bind_eq_some_iff.mp h
    exact Run.head hallowed hstep (ih hrest)

/-! ### Moves -/

variable {f f' : Feed} {e : Move}

/-- What a move does. -/
inductive Steps (f : Feed) : Move → Feed → Prop
  | message (own : Bool) {now : Int} {msg : Server.Message} {s : Server}
      (hserver : f.server.step (.message now msg) = some (s, [], []))
      (hmarket : s.market = f.server.market) : Steps f (.message own now msg)
        { f with
          server := s
          asked := f.asked
            ++ List.replicate (s.engineQueue.length - f.server.engineQueue.length) own }
  | idle (fuel : Nat) (hqueue : f.server.engineQueue = []) : Steps f (.engine fuel) f
  | task {fuel : Nat} {task : EngineTask} {queue : List EngineTask} {s : Server} {effect : Effect}
      {msgs : List (ServerMsg × Nat)} (hqueue : f.server.engineQueue = task :: queue)
      (hserver : f.server.step (.engine fuel) = some (s, effect.fills, effect.pushed))
      (hmarket : s.market = effect.market)
      (hsends : Sends fuel f.server (f.asked.headD false) task effect msgs) :
      Steps f (.engine fuel)
        { f with
          server := s
          asked := f.asked.tail
          sent := f.sent ++ msgs.map fun x => (x.1, f.executed.length + x.2)
          executed := f.executed ++ effect.fills }
  | db {s : Server} (hserver : f.server.step .db = some (s, [], []))
      (hmarket : s.market = f.server.market) : Steps f .db { f with server := s }
  | login (userId : Int) : Steps f (.login userId)
      { f with sent := f.sent ++ [(.loggedIn userId, f.executed.length)] }
  | wait (hsent : f.sent = []) : Steps f .receive f
  | receive {x : ServerMsg × Nat} {sent : List (ServerMsg × Nat)} (hsent : f.sent = x :: sent) :
      Steps f .receive
        { f with sent := sent, client := f.client.onMessage x.1, processed := x :: f.processed }
  | changeCompany (companyId : Nat) : Steps f (.changeCompany companyId)
      { f with client := f.client.changeCompany companyId }
  | logout : Steps f .logout { f with client := f.client.handleLogout }

/-- **A move** does one of these things. -/
theorem step_steps (h : f.step e = some f') : Steps f e f' := by
  cases e with
  | message own now msg =>
    obtain ⟨⟨s, fills, pushed⟩, hserver, h⟩ := Option.bind_eq_some_iff.mp h
    obtain rfl := Option.some.inj h
    have hsteps := Server.step_steps hserver
    obtain ⟨rfl, rfl, hmarket⟩ : fills = [] ∧ pushed = [] ∧ s.market = f.server.market := by
      cases hsteps with
      | rejected => exact ⟨rfl, rfl, rfl⟩
      | handled hmsg => cases hmsg <;> exact ⟨rfl, rfl, rfl⟩
    exact .message own hserver hmarket
  | engine fuel =>
    rw [step] at h
    cases hqueue : f.server.engineQueue with
    | nil =>
      rw [hqueue] at h
      obtain rfl := Option.some.inj h
      exact .idle fuel hqueue
    | cons task queue =>
      rw [hqueue] at h
      obtain ⟨⟨s, fills, pushed⟩, hserver, h⟩ := Option.bind_eq_some_iff.mp h
      obtain ⟨msgs, hsent, h⟩ := Option.bind_eq_some_iff.mp h
      obtain rfl := Option.some.inj h
      have hserver' := hserver
      rw [Server.step, Server.engineStep, hqueue] at hserver'
      obtain ⟨effect, hrun, hout⟩ := Option.bind_eq_some_iff.mp hserver'
      obtain ⟨rfl, hfills⟩ := Prod.mk.inj (Option.some.inj hout)
      obtain ⟨rfl, rfl⟩ := Prod.mk.inj hfills
      exact .task hqueue hserver rfl (sentFor_sends hrun hsent)
  | db =>
    obtain rfl := Option.some.inj h
    refine .db rfl ?_
    rw [Server.dbStep]
    split_ifs
    · rfl
    · rfl
  | login userId =>
    obtain rfl := Option.some.inj h
    exact .login userId
  | receive =>
    rw [step] at h
    cases hsent : f.sent with
    | nil =>
      rw [hsent] at h
      obtain rfl := Option.some.inj h
      exact .wait hsent
    | cons x sent =>
      rw [hsent] at h
      obtain rfl := Option.some.inj h
      exact .receive hsent
  | changeCompany companyId =>
    obtain rfl := Option.some.inj h
    exact .changeCompany companyId
  | logout =>
    obtain rfl := Option.some.inj h
    exact .logout

/-- The market can take the task popped. -/
def Safe (f : Feed) : Move → Prop
  | .engine fuel => f.server.SafeEvent (.engine fuel)
  | _ => True

instance (f : Feed) (e : Move) : Decidable (f.Safe e) := by
  cases e with
  | engine fuel => exact inferInstanceAs (Decidable (f.server.SafeEvent (.engine fuel)))
  | _ => exact isTrue trivial

/-- A move keeps the server in good order. -/
lemma ok_step (h : f.server.Ok) (hsafe : f.Safe e) (hstep : f.step e = some f') :
    f'.server.Ok := by
  cases step_steps hstep with
  | message own hserver => exact h.step (e := .message _ _) trivial hserver
  | idle => exact h
  | task hqueue hserver => exact h.step (e := .engine _) hsafe hserver
  | db hserver => exact h.step (e := .db) trivial hserver
  | _ => exact h

end Feed

end ExchangeEngine
