import ExchangeEngine.Client.PriceHistory
import ExchangeEngine.Library.Transition
import ExchangeEngine.Server.Wealth

/-!
# The trade feed

The server keeps its last hundred trades, whatever the company, and a snapshot brings them. The
client lists twenty: those that the snapshot has brought, and above them the trades of the company
that is selected, as their frames arrive. Between a snapshot and the frames, no trade is lost or
repeated.
-/

namespace ExchangeEngine

/-! ### The history of the server -/

namespace TradeHistory

/-- `max_trades_` -/
def maxTrades : Nat := 100

variable {α : Type*}

/-- `record`; the last trade stands last. -/
def record (trades : List α) (trade : α) : List α :=
  if maxTrades < (trades ++ [trade]).length then (trades ++ [trade]).tail else trades ++ [trade]

/-- The trades as `to_json` lists them. -/
def toJson (trades : List α) : List α := trades.reverse

/-- The history holds the last trades. -/
lemma record_rtake (l : List α) (trade : α) :
    record (l.rtake maxTrades) trade = (l ++ [trade]).rtake maxTrades := by
  have hdrop : l.rtake maxTrades ++ [trade] = (l ++ [trade]).drop (l.length - maxTrades) := by
    rw [List.rtake, List.drop_append_of_le_length (Nat.sub_le _ _)]
  have hlength : (l ++ [trade]).length = l.length + 1 := List.length_append
  rw [record, hdrop, List.length_drop, hlength, List.rtake, hlength]
  split_ifs with hfull
  · rw [List.tail_drop]
    congr 1
    omega
  · congr 1
    omega

lemma foldl_record (l trades : List α) :
    trades.foldl record (l.rtake maxTrades) = (l ++ trades).rtake maxTrades := by
  induction trades generalizing l with
  | nil => rw [List.foldl_nil, List.append_nil]
  | cons trade trades ih =>
    rw [List.foldl_cons, record_rtake, ih, List.append_assoc, List.singleton_append]

end TradeHistory

/-! ### What the client lists -/

/-- `makeTradeRow`, but for the time and the key. -/
def makeTradeRow (trade : TradeMsg) : TradeMsg :=
  { trade with
    buyOrderId := toNumber trade.buyOrderId
    sellOrderId := toNumber trade.sellOrderId }

/-- `applyTradeHistory` -/
def applyTradeHistory (trades : List TradeMsg) : List TradeMsg := (trades.take 20).map makeTradeRow

/-- `trades` after a message; a snapshot brings `history`. While no company is selected,
`Number(null)` is 0. -/
def Client.listTrades (client : Client) (trades history : List TradeMsg) :
    ServerMsg → List TradeMsg
  | .trade msg =>
    if msg.companyId = client.selectedCompanyId.getD 0 then (makeTradeRow msg :: trades).take 20
    else trades
  | .snapshot _ _ => applyTradeHistory history
  | .book _ => trades
  | .loggedIn _ => trades

/-! ### The connection -/

namespace TradeHistory

/-- What the server remembers after a message. -/
def after (trades : List TradeMsg) : ServerMsg → List TradeMsg
  | .trade msg => record trades msg
  | .snapshot _ _ => trades
  | .book _ => trades
  | .loggedIn _ => trades

/-- What it puts into the message. -/
def within (trades : List TradeMsg) : ServerMsg → List TradeMsg
  | .trade _ => []
  | .snapshot _ _ => toJson trades
  | .book _ => []
  | .loggedIn _ => []

/-- The history when these messages have been sent, and what each of them has brought. -/
def send : List TradeMsg → List (ServerMsg × Nat) → List TradeMsg × List (List TradeMsg)
  | trades, [] => (trades, [])
  | trades, x :: msgs =>
    let (trades', brought) := send (after trades x.1) msgs
    (trades', within trades x.1 :: brought)

variable {trades : List TradeMsg} {msgs msgs' : List (ServerMsg × Nat)}

lemma send_append : send trades (msgs ++ msgs') =
    ((send (send trades msgs).1 msgs').1,
      (send trades msgs).2 ++ (send (send trades msgs).1 msgs').2) := by
  induction msgs generalizing trades with
  | nil => rfl
  | cons x msgs ih =>
    simp only [List.cons_append, send, ih]

end TradeHistory

/-- The trades that frames tell. -/
def framesOf (msgs : List (ServerMsg × Nat)) : List TradeMsg :=
  msgs.filterMap fun x =>
    match x.1 with
    | .trade msg => some msg
    | .snapshot _ _ => none
    | .book _ => none
    | .loggedIn _ => none

@[simp] lemma framesOf_append (msgs msgs' : List (ServerMsg × Nat)) :
    framesOf (msgs ++ msgs') = framesOf msgs ++ framesOf msgs' :=
  List.filterMap_append

lemma framesOf_books (books : List BookMsg) (n : Nat) :
    framesOf (books.map fun msg => (.book msg, n)) = [] := by
  induction books with
  | nil => rfl
  | cons msg books ih => exact ih

lemma framesOf_trades (trades : List (Trade × Nat)) (n : Nat) :
    framesOf (trades.map fun x => (.trade (tradeMsg x.1), n + x.2))
      = (trades.map Prod.fst).map tradeMsg := by
  induction trades with
  | nil => rfl
  | cons x trades ih => exact congrArg _ ih

/-- **The frames of a task** tell its fills. -/
lemma framesOf_sends {fuel n : Nat} {s : Server} {task : EngineTask} {asked : Bool} {e : Effect}
    {msgs : List (ServerMsg × Nat)} (hm : s.market.Listening) (h : Sends fuel s asked task e msgs) :
    framesOf (msgs.map fun x => (x.1, n + x.2)) = e.fills.map tradeMsg := by
  cases h with
  | switchEngine =>
    rw [List.map_map]
    exact framesOf_books _ _
  | processed pushed hfind hcan hprocess =>
    have hnotified := (AnyBook.processOrder_notified hprocess).2
    rw [hm _ _ hfind, if_pos rfl] at hnotified
    rw [hnotified, List.map_append, List.map_map, framesOf_append]
    refine (congrArg (· ++ _) (framesOf_trades _ _)).trans ?_
    rw [List.zipIdx_map_fst]
    exact List.append_nil _
  | _ => rfl

/-- The connection, with the history that the server keeps and the trades that the client lists. -/
structure TradeFeed extends Feed where
  history : List TradeMsg
  /-- what each message on its way brings -/
  brought : List (List TradeMsg)
  trades : List TradeMsg
  /-- the number of frames processed before the snapshot whose company is selected, if the company
  has not been changed since -/
  since : Option Nat

namespace TradeFeed

/-- The client connects to a server that has executed `executed`. -/
def connect (s : Server) (executed : List Trade) (client : Client) (trades : List TradeMsg) :
    TradeFeed where
  toFeed := .connect s executed client
  history := (executed.map tradeMsg).foldl TradeHistory.record []
  brought := []
  trades := trades
  since := none

/-- The client after a message. -/
def receive (x : TradeFeed) (feed : Feed) (msg : ServerMsg) : TradeFeed :=
  { toFeed := feed
    history := x.history
    brought := x.brought.tail
    trades := x.client.listTrades x.trades (x.brought.headD []) msg
    since :=
      match msg with
      | .snapshot _ _ => some (framesOf x.processed).length
      | .trade _ => x.since
      | .book _ => x.since
      | .loggedIn _ => x.since }

/-- The connection after a move, and the fills. -/
def step (x : TradeFeed) (e : Feed.Move) : Option (TradeFeed × List Trade) := do
  let feed ← x.toFeed.step e
  let fills := feed.executed.drop x.executed.length
  match e with
  | .receive =>
    match x.sent with
    | [] => some ({ x with toFeed := feed }, fills)
    | msg :: _ => some (x.receive feed msg.1, fills)
  | .changeCompany _ => some ({ x with toFeed := feed, trades := [], since := none }, fills)
  | _ =>
    let (history, brought) := TradeHistory.send x.history (feed.sent.drop x.sent.length)
    some ({ x with toFeed := feed, history := history, brought := x.brought ++ brought }, fills)

/-- From `x₀`, by moves that are allowed where they happen, the connection reaches a state; on the
way the books execute `fills`. -/
abbrev Run (allowed : TradeFeed → Feed.Move → Prop) (x₀ : TradeFeed) :
    TradeFeed → List Trade → Prop :=
  Transition.Run step allowed x₀

/-! ### What the client hears -/

/-- The trades whose frames the client has processed. -/
def heard (x : TradeFeed) : List TradeMsg := (framesOf x.processed).reverse

/-- What a feed lists, the last trade first, if a snapshot has brought the first `n` of the trades
`all` and the frames of the others have come since. -/
def tape (companyId : Nat) (all : List TradeMsg) (n : Nat) : List TradeMsg :=
  (((all.drop n).filter fun trade => trade.companyId = companyId).reverse
    ++ ((all.take n).rtake TradeHistory.maxTrades).reverse).take 20

/-- What holds along a run, if `past` are the trades before the client connected. -/
structure Told (past : List TradeMsg) (x : TradeFeed) : Prop where
  brought : (x.history, x.brought)
    = TradeHistory.send ((past ++ x.heard).rtake TradeHistory.maxTrades) x.sent
  listed : ∀ k, x.since = some k → k ≤ x.heard.length ∧ ∃ c, x.client.selectedCompanyId = some c ∧
    x.trades = (tape c (past ++ x.heard) (past.length + k)).map makeTradeRow

variable {x x' : TradeFeed} {e : Feed.Move} {past : List TradeMsg} {fills executed : List Trade}

lemma take_cons_map {α β : Type*} (f : α → β) (a : α) (l : List α) (n : Nat) :
    (f a :: (l.take n).map f).take n = ((a :: l).take n).map f := by
  rw [← List.map_cons, ← List.map_take]
  cases n with
  | zero => rfl
  | succ n => simp [List.take_take]

/-- A frame. -/
lemma tape_append {c n : Nat} {all : List TradeMsg} (hn : n ≤ all.length) (msg : TradeMsg) :
    (tape c (all ++ [msg]) n).map makeTradeRow = if msg.companyId = c then
        (makeTradeRow msg :: (tape c all n).map makeTradeRow).take 20
      else (tape c all n).map makeTradeRow := by
  rw [tape, List.drop_append_of_le_length hn, List.take_append_of_le_length hn, List.filter_append,
    List.reverse_append]
  split_ifs with hc
  · rw [tape, take_cons_map]
    simp [hc]
  · rw [tape]
    simp [hc]

/-- A snapshot. -/
lemma tape_length (c : Nat) (all : List TradeMsg) :
    (tape c all all.length).map makeTradeRow
      = applyTradeHistory (TradeHistory.toJson (all.rtake TradeHistory.maxTrades)) := by
  rw [tape, List.drop_length, List.take_length]
  rfl

lemma heard_receive (x : TradeFeed) (feed : Feed) (msg : ServerMsg) {k : Nat}
    (hprocessed : feed.processed = (msg, k) :: x.processed) :
    (x.receive feed msg).heard = x.heard ++ framesOf [(msg, k)] := by
  have hsplit := framesOf_append [(msg, k)] x.processed
  have hone : (framesOf [(msg, k)]).reverse = framesOf [(msg, k)] := by
    cases msg <;> rfl
  show (framesOf feed.processed).reverse = x.heard ++ framesOf [(msg, k)]
  rw [hprocessed]
  refine (congrArg List.reverse hsplit).trans ?_
  rw [List.reverse_append, hone]
  rfl

/-- The server remembers what it has told. -/
lemma after_rtake (all : List TradeMsg) (msg : ServerMsg) (k : Nat) :
    TradeHistory.after (all.rtake TradeHistory.maxTrades) msg
      = (all ++ framesOf [(msg, k)]).rtake TradeHistory.maxTrades := by
  cases msg with
  | trade msg => exact TradeHistory.record_rtake all msg
  | _ =>
    refine congrArg (List.rtake · _) ?_
    exact (List.append_nil all).symm

lemma length_heard (x : TradeFeed) : x.heard.length = (framesOf x.processed).length :=
  List.length_reverse

lemma Told.receive (h : x.Told past) {msg : ServerMsg} {k : Nat} {sent : List (ServerMsg × Nat)}
    (hsent : x.sent = (msg, k) :: sent) :
    (x.receive
      { x.toFeed with
        sent := sent, client := x.client.onMessage msg, processed := (msg, k) :: x.processed }
      msg).Told past := by
  obtain ⟨hbrought, hlisted⟩ := h
  rw [hsent, TradeHistory.send] at hbrought
  obtain ⟨hhistory, hbrought⟩ := Prod.mk.inj hbrought
  constructor
  · rw [heard_receive _ _ _ rfl, ← List.append_assoc, ← after_rtake]
    show (x.history, x.brought.tail) = _
    rw [hhistory, hbrought]
    rfl
  · intro n hn
    rw [heard_receive _ _ _ rfl, ← List.append_assoc]
    cases msg with
    | trade msg =>
      obtain ⟨hle, c, hselected, htrades⟩ := hlisted n hn
      have hlength : past.length + n ≤ (past ++ x.heard).length := by
        rw [List.length_append]
        omega
      refine ⟨?_, c, hselected, ?_⟩
      · rw [List.length_append]
        omega
      · refine Eq.trans ?_ (tape_append hlength msg).symm
        show x.client.listTrades x.trades (x.brought.headD []) (.trade msg) = _
        rw [Client.listTrades, hselected, Option.getD_some, htrades]
    | snapshot msg priceHistory =>
      obtain rfl : (framesOf x.processed).length = n := Option.some.inj hn
      have hnone : framesOf [(.snapshot msg priceHistory, k)] = [] := rfl
      rw [hnone, List.append_nil, List.append_nil, ← length_heard, ← List.length_append]
      refine ⟨le_rfl, msg.companyId, rfl, ?_⟩
      rw [tape_length]
      show applyTradeHistory (x.brought.headD []) = _
      rw [hbrought]
      rfl
    | book msg =>
      obtain ⟨hle, c, hselected, htrades⟩ := hlisted n hn
      have hnone : framesOf [(.book msg, k)] = [] := rfl
      rw [hnone, List.append_nil, List.append_nil]
      refine ⟨hle, c, ?_, htrades⟩
      show (x.client.onMessage (.book msg)).selectedCompanyId = some c
      rw [Client.onMessage]
      split_ifs with happlies
      · rcases happlies with hnobody | hsame
        · rw [hnobody] at hselected
          cases hselected
        · rw [← hselected, hsame]
          rfl
      · exact hselected
    | loggedIn userId =>
      obtain ⟨hle, c, hselected, htrades⟩ := hlisted n hn
      have hnone : framesOf [(.loggedIn userId, k)] = [] := rfl
      rw [hnone, List.append_nil, List.append_nil]
      exact ⟨hle, c, hselected, htrades⟩

/-- More is sent. -/
lemma Told.send (h : x.Told past) {feed : Feed} {msgs : List (ServerMsg × Nat)}
    (hsent : feed.sent = x.sent ++ msgs) (hprocessed : feed.processed = x.processed)
    (hselected : feed.client.selectedCompanyId = x.client.selectedCompanyId) :
    ({ x with
      toFeed := feed
      history := (TradeHistory.send x.history (feed.sent.drop x.sent.length)).1
      brought := x.brought ++ (TradeHistory.send x.history (feed.sent.drop x.sent.length)).2 } :
      TradeFeed).Told past := by
  have hheard : (framesOf feed.processed).reverse = x.heard := by rw [hprocessed, heard]
  constructor
  · rw [heard, hheard]
    show _ = TradeHistory.send _ feed.sent
    obtain ⟨hhistory, hbrought⟩ := Prod.mk.inj h.brought
    rw [hsent, List.drop_left, TradeHistory.send_append, ← hhistory, ← hbrought]
  · intro k hk
    rw [heard, hheard, hselected]
    exact h.listed k hk

/-- What a move is, with what it sends. -/
inductive Steps (x : TradeFeed) : Feed.Move → TradeFeed → List Trade → Prop
  | sends {e : Feed.Move} {feed : Feed} {msgs : List (ServerMsg × Nat)} {fills : List Trade}
      (hstep : x.toFeed.step e = some feed) (hsent : feed.sent = x.sent ++ msgs)
      (hprocessed : feed.processed = x.processed)
      (hselected : feed.client.selectedCompanyId = x.client.selectedCompanyId)
      (hexecuted : feed.executed = x.executed ++ fills)
      (hframes : x.server.market.Listening → framesOf msgs = fills.map tradeMsg) :
      Steps x e
        { x with
          toFeed := feed
          history := (TradeHistory.send x.history (feed.sent.drop x.sent.length)).1
          brought := x.brought ++ (TradeHistory.send x.history (feed.sent.drop x.sent.length)).2 }
        fills
  | received {msg : ServerMsg} {k : Nat} {sent : List (ServerMsg × Nat)}
      (hsent : x.sent = (msg, k) :: sent) :
      Steps x .receive
        (x.receive
          { x.toFeed with
            sent := sent, client := x.client.onMessage msg, processed := (msg, k) :: x.processed }
          msg) []
  | waits (hsent : x.sent = []) : Steps x .receive x []
  | changeCompany (companyId : Nat) :
      Steps x (.changeCompany companyId)
        { x with
          toFeed := { x.toFeed with client := x.client.changeCompany companyId }
          trades := [], since := none } []

/-- What the server sends is news of the fills. -/
lemma feed_sends {f f' : Feed} (hreceive : e ≠ .receive) (hchange : ∀ c, e ≠ .changeCompany c)
    (h : f.step e = some f') : ∃ msgs fills, f'.sent = f.sent ++ msgs ∧
      f'.processed = f.processed ∧ f'.client.selectedCompanyId = f.client.selectedCompanyId ∧
      f'.executed = f.executed ++ fills ∧
      (f.server.market.Listening → framesOf msgs = fills.map tradeMsg) := by
  cases Feed.step_steps h with
  | @task fuel task queue s effect msgs hqueue hserver hmarket hsends =>
    exact ⟨_, effect.fills, rfl, rfl, rfl, rfl, fun hlisten => framesOf_sends hlisten hsends⟩
  | login userId =>
    exact ⟨_, [], rfl, rfl, rfl, (List.append_nil _).symm, fun _ => rfl⟩
  | wait | receive => exact absurd rfl hreceive
  | changeCompany companyId => exact absurd rfl (hchange companyId)
  | _ =>
    exact ⟨[], [], (List.append_nil _).symm, rfl, rfl, (List.append_nil _).symm, fun _ => rfl⟩

/-- **A move** is one of these. -/
theorem step_steps (h : x.step e = some (x', fills)) : Steps x e x' fills := by
  obtain ⟨feed, hfeed, h⟩ := Option.bind_eq_some_iff.mp h
  cases e with
  | receive =>
    cases Feed.step_steps hfeed with
    | wait hsent =>
      simp only [hsent] at h
      obtain ⟨rfl, rfl⟩ := Prod.mk.inj (Option.some.inj h)
      rw [List.drop_length]
      exact .waits hsent
    | @receive y sent hsent =>
      simp only [hsent] at h
      obtain ⟨rfl, rfl⟩ := Prod.mk.inj (Option.some.inj h)
      rw [List.drop_length]
      exact .received hsent
  | changeCompany companyId =>
    obtain rfl := Option.some.inj hfeed
    obtain ⟨rfl, rfl⟩ := Prod.mk.inj (Option.some.inj h)
    rw [List.drop_length]
    exact .changeCompany companyId
  | _ =>
    obtain ⟨msgs, fills, hsent, hprocessed, hselected, hexecuted, hframes⟩ :=
      feed_sends (by rintro ⟨⟩) (by rintro c ⟨⟩) hfeed
    obtain ⟨rfl, rfl⟩ := Prod.mk.inj (Option.some.inj h)
    rw [hexecuted, List.drop_left]
    exact .sends hfeed hsent hprocessed hselected hexecuted hframes

lemma listening_step {f f' : Feed} (hlisten : f.server.market.Listening) (hkeep : f.KeepsEngine e)
    (h : f.step e = some f') : f'.server.market.Listening := by
  cases Feed.step_steps h with
  | message own hserver hmarket => exact hmarket ▸ hlisten
  | @task fuel _ _ _ _ _ hqueue hserver =>
    have hkeep : f.server.KeepsEngine (.engine fuel) := hkeep
    exact Server.listening_step hlisten hkeep hserver
  | db hserver hmarket => exact hmarket ▸ hlisten
  | _ => exact hlisten

/-- What is told is executed, and the frames of the rest are on their way. -/
structure Exact (past fills : List Trade) (x : TradeFeed) : Prop where
  told : x.Told (past.map tradeMsg)
  listening : x.server.market.Listening
  executed : x.executed = past ++ fills
  frames : (past ++ fills).map tradeMsg = past.map tradeMsg ++ x.heard ++ framesOf x.sent

/-- **A move** tells no trade twice and leaves out none. -/
lemma Exact.step {past : List Trade} (h : x.Exact past executed) (hkeep : x.toFeed.KeepsEngine e)
    (hstep : x.step e = some (x', fills)) : x'.Exact past (executed ++ fills) := by
  cases step_steps hstep with
  | @sends _ feed msgs _ hfeed hsent hprocessed hselected hexecuted hframes =>
    refine ⟨h.told.send hsent hprocessed hselected, listening_step h.listening hkeep hfeed, ?_, ?_⟩
    · rw [← List.append_assoc, ← h.executed]
      exact hexecuted
    · have hheard : (framesOf feed.processed).reverse = x.heard := by rw [hprocessed, heard]
      have hnew := hframes h.listening
      show _ = _ ++ (framesOf feed.processed).reverse ++ framesOf feed.sent
      rw [hheard, hsent, framesOf_append, hnew, ← List.append_assoc, ← List.append_assoc,
        List.map_append, h.frames]
  | @received msg k sent hsent =>
    rw [List.append_nil]
    refine ⟨h.told.receive hsent, h.listening, h.executed, ?_⟩
    have hsplit := framesOf_append [(msg, k)] sent
    rw [List.singleton_append] at hsplit
    rw [heard_receive _ _ _ rfl, h.frames, hsent, hsplit]
    simp only [List.append_assoc]
    rfl
  | waits =>
    rw [List.append_nil]
    exact h
  | changeCompany companyId =>
    rw [List.append_nil]
    exact ⟨⟨h.told.brought, fun k hk => by cases hk⟩, h.listening, h.executed, h.frames⟩

/-- **The trade feed is exact**, in any run in which no task changes the engine. When the client has
processed `n` of the frames, and the snapshot of the company that is selected came after `k` of
them, it lists the last twenty of these trades, the last one first: those of the company since the
snapshot, and before it the last hundred that the snapshot brought. The frames of all other trades
are on their way. -/
theorem feed_exact {companies : List Nat} {m : MarketState} {db : Database} {s : Server}
    {past : List Trade} {pushed : List DbTask} (hm : MarketState.new companies = .ok m)
    (hserver : Server.Run Server.KeepsEngine (Server.start m db) s past pushed) (client : Client)
    (trades : List TradeMsg)
    (h : Run (fun x e => x.toFeed.KeepsEngine e) (connect s past client trades) x fills) :
    (past ++ fills).map tradeMsg = past.map tradeMsg ++ x.heard ++ framesOf x.sent ∧
      ∀ k, x.since = some k → k ≤ x.heard.length ∧ ∃ c, x.client.selectedCompanyId = some c ∧
        x.trades
          = (tape c (past.map tradeMsg ++ x.heard) (past.length + k)).map makeTradeRow := by
  have hexact : x.Exact past fills := by
    refine h.invariant (P := fun x fills => x.Exact past fills) ?_ ?_
    · refine ⟨⟨?_, fun k hk => by cases hk⟩, (Server.logs_run hm 0 hserver).listening, ?_, ?_⟩
      · have hfold := TradeHistory.foldl_record [] (past.map tradeMsg)
        rw [List.rtake_nil, List.nil_append] at hfold
        show ((past.map tradeMsg).foldl TradeHistory.record [], []) = (List.rtake (_ ++ []) _, [])
        rw [hfold, List.append_nil]
      · exact (List.append_nil _).symm
      · simp [heard, connect, Feed.connect, framesOf]
    · intro x x' e fills fills' hexact hkeep hstep
      exact hexact.step hkeep hstep
  refine ⟨hexact.frames, fun k hk => ?_⟩
  have hlisted := hexact.told.listed k hk
  rwa [List.length_map] at hlisted

/-- A trade, a snapshot, and a trade. -/
def sampleTrades : List Feed.Move :=
  Feed.sampleTrade ++ Feed.sampleSnapshot ++ Feed.sampleTrade ++ List.replicate 3 .receive

theorem feed_exact_sampleTrades : ∃ x fills,
    Run (fun x e => x.toFeed.KeepsEngine e)
      (connect (Server.start Server.sampleMarket Server.sampleDb) [] .initial []) x fills ∧
      fills.length = 2 ∧ x.since = some 1 ∧ x.trades.length = 2 ∧
      ∃ c, x.trades = (tape c x.heard 1).map makeTradeRow := by
  obtain ⟨⟨x, fills⟩, hrun, hout⟩ := Option.map_eq_some_iff.mp
    (by decide +kernel :
      (Transition.runEvents step (fun x e => x.toFeed.KeepsEngine e)
        (connect (Server.start Server.sampleMarket Server.sampleDb) [] .initial [])
        sampleTrades).map (fun r => (r.2.length, r.1.since, r.1.trades.length))
        = some (2, some 1, 2))
  have h := Transition.run_of_runEvents hrun
  obtain ⟨hfills, hout⟩ := Prod.mk.inj hout
  obtain ⟨hsince, hlength⟩ := Prod.mk.inj hout
  obtain ⟨-, hlisted⟩ := feed_exact Server.new_sampleMarket .refl .initial [] h
  obtain ⟨-, c, -, htrades⟩ := hlisted 1 hsince
  exact ⟨x, fills, h, hfills, hsince, hlength, c, htrades⟩

end TradeFeed

end ExchangeEngine
