import ExchangeEngine.Accounts.Queries
import ExchangeEngine.Accounts.Run
import ExchangeEngine.Client.PriceHistory

/-!
# The trades of a user

`trades` logs what the books have executed. Nothing else gets into it, nothing twice, and nothing
out of order, whatever happens; what is missing was executed after a switch of the engine, or was
still queued when the process ended. Read back, the trades are in order if the clock has not gone
back.
-/

namespace ExchangeEngine

/-! ### Rows -/

/-- What is logged of a fill. -/
def Trade.row (t : Trade) : LoggedTrade :=
  ⟨t.companyId, t.buyerUserId, t.sellerUserId, bindInt t.price, bindInt t.quantity⟩

/-- What a task logs. -/
def DbTask.row (task : DbTask) : LoggedTrade :=
  ⟨task.companyId, task.buyerId, task.sellerId, bindInt task.price, bindInt task.quantity⟩

/-- What the tasks will log. -/
def loggedRows (tasks : List DbTask) : List LoggedTrade :=
  (tasks.filter fun task => task.type = .logTrade).map DbTask.row

/-- The trades in the table, in the order in which they were logged. -/
def Database.logged (db : Database) : List LoggedTrade := db.trades.map TradeRow.toLoggedTrade

/-- Is it a trade of the user? -/
def LoggedTrade.Involves (userId : Int) (trade : LoggedTrade) : Prop :=
  trade.buyerId = userId ∨ trade.sellerId = userId

instance (userId : Int) (trade : LoggedTrade) : Decidable (trade.Involves userId) :=
  inferInstanceAs (Decidable (_ ∨ _))

section Rows

variable {db : Database} {tasks tasks' : List DbTask} {fills : List Trade}

lemma loggedRows_append : loggedRows (tasks ++ tasks') = loggedRows tasks ++ loggedRows tasks' := by
  rw [loggedRows, List.filter_append, List.map_append, ← loggedRows, ← loggedRows]

lemma logged_applyTask (task : DbTask) :
    (applyTask db task).logged = db.logged ++ loggedRows [task] := by
  simp only [applyTask, loggedRows, Database.logged]
  cases htype : task.type with
  | settle => simp [trades_settleTrade, htype]
  | refundCash => simp [Database.releaseCashUnlocked, Database.settleCash, htype]
  | refundShares => simp [Database.releaseSharesUnlocked, Database.settleShares, htype]
  | logTrade => simp [Database.logTradeUnlocked, DbTask.row, htype]

lemma logged_batch (tasks : List DbTask) :
    (tasks.foldl applyTask db).logged = db.logged ++ loggedRows tasks := by
  induction tasks generalizing db with
  | nil => exact (List.append_nil _).symm
  | cons task tasks ih =>
    rw [List.foldl_cons, ih, logged_applyTask, List.append_assoc, ← loggedRows_append,
      List.singleton_append]

lemma loggedRows_onTrade (fills : List Trade) :
    loggedRows (fills.flatMap onTrade) = fills.map Trade.row := by
  induction fills with
  | nil => rfl
  | cons t fills ih =>
    rw [List.flatMap_cons, loggedRows_append, ih, List.map_cons]
    rfl

lemma loggedRows_refund (userId : Int) (order : Order) (companyId quantity : Nat) :
    loggedRows [refund userId order companyId quantity] = [] := by
  rw [loggedRows, refund]
  split_ifs <;> rfl

/-- **A task** has fills logged, or none of them. -/
lemma loggedRows_runTask {fuel : Nat} {m : MarketState} {task : EngineTask} {e : Effect}
    (h : runTask fuel m task = some e) :
    (loggedRows e.pushed).Sublist (e.fills.map Trade.row) := by
  cases runTask_branch h with
  | orderRefused => rw [loggedRows_refund]; exact List.nil_sublist _
  | @orderProcessed c o b r _ _ hprocess =>
    have hrefund : ∀ {c q : Nat} {u : Int} {o : Order},
        loggedRows (if 0 < q then [refund u o c q] else []) = [] := by
      intro c q u o
      split_ifs
      · exact loggedRows_refund ..
      · rfl
    have hnotified : r.notified.Sublist r.fills := by
      rw [(AnyBook.processOrder_notified hprocess).2]
      split_ifs
      · exact List.Sublist.refl _
      · exact List.nil_sublist _
    rw [loggedRows_append, loggedRows_onTrade, hrefund, List.append_nil]
    exact hnotified.map Trade.row
  | cancelled => rw [loggedRows_refund]; exact List.nil_sublist _
  | _ => exact List.nil_sublist _

end Rows

/-! ### Servers -/

namespace Server

variable {s s' : Server} {e : Event} {fills : List Trade} {pushed : List DbTask}

/-- What is logged and what will be. -/
def rows (s : Server) : List LoggedTrade :=
  s.db.logged ++ loggedRows (s.dbQueueBack ++ s.dbQueueFront)

/-- **An event** adds what the engine thread queues. -/
lemma rows_step (h : s.step e = some (s', fills, pushed)) :
    s'.rows = s.rows ++ loggedRows pushed := by
  have hnone : loggedRows [] = [] := rfl
  cases step_steps h with
  | rejected => rw [hnone, List.append_nil]
  | handled hmsg =>
    rw [hnone, List.append_nil]
    cases hmsg <;> rfl
  | idle => rw [hnone, List.append_nil]
  | task hqueue hrun => simp only [rows, loggedRows_append, List.append_assoc]
  | swap hback => simp only [rows, hback, hnone, List.nil_append, List.append_nil]
  | batch =>
    simp only [rows, logged_batch, loggedRows_append, hnone, List.nil_append, List.append_nil,
      List.append_assoc]

/-- What is queued for the log has been executed. -/
lemma loggedRows_step (h : s.step e = some (s', fills, pushed)) :
    (loggedRows pushed).Sublist (fills.map Trade.row) := by
  cases step_steps h with
  | task _ hrun => exact loggedRows_runTask hrun
  | _ => exact List.nil_sublist _

end Server

/-! ### The exchange -/

section Tables

variable {db db' : Database} {users users' : Users} {u : Int} {companies : List Nat}

lemma trades_grantAll : (Exchange.grantAll u companies db).trades = db.trades := by
  induction companies generalizing db with
  | nil => rfl
  | cons c companies ih => exact ih

lemma trades_gift {id : Option Int} : (Exchange.gift db id).trades = db.trades := by
  cases id with
  | some v => exact trades_settleTrade ..
  | none => rfl

lemma trades_giftCut {id : Option Int} {writes : Nat} :
    (Exchange.giftCut db id writes).trades = db.trades := by
  match id, writes with
  | _, 0 => rfl
  | none, 1 => rfl
  | some _, 1 => rfl
  | _, _ + 2 => exact trades_gift

lemma trades_creation {sodium : Sodium} {username password : String} {id : Option (Int × Bool)}
    (h : Creation sodium username password db users (db', users', id)) :
    db'.trades = db.trades := by
  cases h <;> rfl

lemma trades_creations {sodium : Sodium} {log : List Exchange.Entry}
    (h : Creations sodium db users db' users' log) : db'.trades = db.trades := by
  cases h with
  | nothing => rfl
  | registered companies hcreation => exact trades_grantAll.trans (trades_creation hcreation)
  | main writes hshrey hakshay =>
    exact trades_giftCut.trans ((trades_creation hakshay).trans (trades_creation hshrey))

end Tables

namespace Exchange

variable {sodium : Sodium} {m : MarketState} {chance : Chance} {allowed : Exchange → Event → Prop}
  {x x' : Exchange} {e : Event} {log log' : List Entry}

/-- What is logged, or will be, has been executed. -/
lemma rows_step (h : (x.server.rows).Sublist ((Entry.fills log).map Trade.row))
    (hstep : step sodium m x e = some (x', log')) :
    (x'.server.rows).Sublist ((Entry.fills (log ++ log')).map Trade.row) := by
  rw [Entry.fills_append, List.map_append]
  -- the queues are lost, the table is not
  have hstarted : ∀ {db : Database} {users : Users},
      Creations sodium x.server.db x.users db users log' →
      ((Server.start m db).rows).Sublist ((Entry.fills log).map Trade.row
        ++ (Entry.fills log').map Trade.row) := by
    intro db users hcreations
    have htable : (x.server.db.logged).Sublist x.server.rows := List.sublist_append_left _ _
    have hnone : loggedRows [] = [] := rfl
    simp only [Server.rows, Server.start, hnone, List.append_nil, Database.logged,
      trades_creations hcreations]
    exact (htable.trans h).trans (List.sublist_append_left _ _)
  cases step_steps hstep with
  | server hserver =>
    rw [Server.rows_step hserver, Entry.fills_map_fill]
    exact h.append (Server.loggedRows_step hserver)
  | refused => exact h.trans (List.sublist_append_left _ _)
  | registered =>
    simp only [Server.rows, Database.logged, Database.initBal, trades_grantAll] at h ⊢
    exact h.trans (List.sublist_append_left _ _)
  | loggedIn => exact h.trans (List.sublist_append_left _ _)
  | restarted hcreations => exact hstarted hcreations
  | killed _ hcreations => exact hstarted hcreations

/-- **The log is of trades that were made**, each of them at most once and all in their order, in
every run from an empty database. -/
lemma Run.logged (h : Run sodium m allowed (blank m chance) x log) :
    (x.server.db.logged).Sublist ((Entry.fills log).map Trade.row) := by
  have hrows := h.invariant
    (P := fun x log => (x.server.rows).Sublist ((Entry.fills log).map Trade.row))
    (List.Sublist.refl _) fun _ _ _ _ _ ih _ hstep => rows_step ih hstep
  exact (List.sublist_append_left _ _).trans hrows

end Exchange

/-! ### What is read -/

/-- The trades of a user as they are shown, oldest first. -/
def userTrades (userId : Int) (rows : List LoggedTrade) : List ShownTrade :=
  (rows.filter fun row => row.Involves userId).map LoggedTrade.read

lemma userTrades_append {userId : Int} {rows rows' : List LoggedTrade} :
    userTrades userId (rows ++ rows') = userTrades userId rows ++ userTrades userId rows' := by
  rw [userTrades, List.filter_append, List.map_append, ← userTrades, ← userTrades]

lemma userTrades_logged (db : Database) (userId : Int) : userTrades userId db.logged
    = ((db.trades.filter fun row => row.buyerId = userId ∨ row.sellerId = userId).map
        TradeRow.read).map UserTrade.toShownTrade := by
  rw [userTrades, Database.logged, List.filter_map, List.map_map, List.map_map]
  rfl

/-- What is asked for are some of them. -/
lemma getUserTrades_subperm (db : Database) (userId : Int) (limit : Nat) :
    ((db.getUserTrades userId limit).map UserTrade.toShownTrade).Subperm
      (userTrades userId db.logged) := by
  rw [userTrades_logged, Database.getUserTrades]
  refine List.Sublist.subperm ?_ |>.trans
    (((Database.newestFirst_perm _).map TradeRow.read).map UserTrade.toShownTrade).subperm
  exact ((List.take_sublist _ _).map _).map _

/-- They are the last ones, if the clock has not gone back. -/
lemma getUserTrades_eq {db : Database} (h : db.Ordered) (userId : Int) (limit : Nat) :
    ((db.getUserTrades userId limit).map UserTrade.toShownTrade).reverse
      = (userTrades userId db.logged).rtake limit := by
  rw [userTrades_logged, Database.getUserTrades, h.newestFirst_filter,
    List.rtake_eq_reverse_take_reverse]
  congr 1
  rw [← List.map_reverse, ← List.map_reverse, ← List.map_take, ← List.map_take]

/-- The fills of a task wait to be logged. -/
lemma loggedRows_of_settled {fills : List Trade} {pushed : List DbTask}
    (h : pushed.filter DbTask.ofTrade = fills.flatMap onTrade) :
    loggedRows pushed = fills.map Trade.row := by
  rw [← loggedRows_onTrade, ← h, loggedRows, loggedRows, List.filter_filter]
  congr 1
  refine List.filter_congr fun task _ => ?_
  cases htype : task.type with
  | logTrade => simp [DbTask.ofTrade, htype]
  | _ => simp

/-- **The trades of a user**, in operation without a change of the engine: those logged, and those
that wait in the buffers, are those that were logged before and those executed since. He is sent the
last ones of those logged, if the clock has not gone back. -/
theorem my_trades_exact {companies : List Nat} {m : MarketState} {db : Database} {s : Server}
    {fills : List Trade} {pushed : List DbTask} (hm : MarketState.new companies = .ok m)
    (h : Server.Run Server.KeepsEngine (.start m db) s fills pushed) (userId : Int) (limit : Nat) :
    (s.db.Ordered → ((s.db.getUserTrades userId limit).map UserTrade.toShownTrade).reverse
        = (userTrades userId s.db.logged).rtake limit) ∧
      userTrades userId s.db.logged
          ++ userTrades userId (loggedRows (s.dbQueueBack ++ s.dbQueueFront))
        = userTrades userId (db.logged ++ fills.map Trade.row) := by
  have hrows : s.market.Listening ∧ s.rows = db.logged ++ fills.map Trade.row := by
    induction h with
    | refl => exact ⟨Server.listening_start hm db, rfl⟩
    | step _ hkeep hstep ih =>
      refine ⟨Server.listening_step ih.1 hkeep hstep, ?_⟩
      rw [Server.rows_step hstep, ih.2, List.map_append, List.append_assoc]
      congr 1
      cases Server.step_steps hstep with
      | task hqueue hrun =>
        have hsettled := runTask_settled ih.1 (hkeep _ (by rw [hqueue]; rfl)) hrun
        rw [loggedRows_of_settled hsettled.1]
      | _ => rfl
  refine ⟨fun hordered => getUserTrades_eq hordered userId limit, ?_⟩
  rw [← userTrades_append, ← hrows.2]
  rfl

/-- User 8 has sold a share to user 7, and the trade has been logged. -/
theorem my_trades_exact_sampleTrading : ∃ s fills pushed,
    Server.Run Server.KeepsEngine (.start Server.sampleMarket Server.sampleDb) s fills pushed ∧
      ((s.db.getUserTrades 7 50).map UserTrade.toShownTrade).reverse = [⟨1, 7, 8, 5, 1⟩] ∧
      userTrades 7 s.db.logged ++ userTrades 7 (loggedRows (s.dbQueueBack ++ s.dbQueueFront))
        = userTrades 7 (Server.sampleDb.logged ++ fills.map Trade.row) := by
  obtain ⟨⟨s, fills, pushed⟩, hrun, hlogged⟩ := Option.map_eq_some_iff.mp
    (by decide +kernel : (((Server.start Server.sampleMarket Server.sampleDb).runEvents
      Server.KeepsEngine Server.sampleTrading).map fun x =>
        (userTrades 7 x.1.db.logged, decide x.1.db.Ordered)) = some ([⟨1, 7, 8, 5, 1⟩], true))
  have h := Server.run_of_runEvents hrun
  obtain ⟨hshown, hall⟩ := my_trades_exact Server.new_sampleMarket h 7 50
  obtain ⟨hlogged, hordered⟩ := Prod.mk.inj hlogged
  refine ⟨s, fills, pushed, h, ?_, hall⟩
  rw [hshown (of_decide_eq_true hordered), hlogged]
  rfl

end ExchangeEngine
