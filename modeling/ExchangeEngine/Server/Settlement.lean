import ExchangeEngine.Server.Run

/-!
# Every fill is settled

As long as every book has its listener, each fill queues one settlement and one log entry. The
listener is connected when the server starts; `set_engine_mode` replaces the books and does not
connect it again.
-/

namespace ExchangeEngine

/-- Is it one of the two tasks that `on_trade` queues? -/
def DbTask.ofTrade (task : DbTask) : Bool :=
  match task.type with
  | .settle => true
  | .logTrade => true
  | .refundCash => false
  | .refundShares => false

lemma ofTrade_refund (userId : Int) (o : Order) (c q : Nat) :
    (refund userId o c q).ofTrade = false := by
  simp only [refund]
  split_ifs
  · rfl
  · rfl

lemma filter_onTrade (ts : List Trade) :
    (ts.flatMap onTrade).filter DbTask.ofTrade = ts.flatMap onTrade := by
  rw [List.filter_eq_self]
  intro task h
  obtain ⟨t, -, ht⟩ := List.mem_flatMap.mp h
  rcases List.mem_pair.mp ht with rfl | rfl
  · rfl
  · rfl

/-- Every book has its listener. -/
def MarketState.Listening (m : MarketState) : Prop :=
  ∀ c b, m.findInstrument c = some b → b.tradeListener = true

lemma MarketState.Listening.setBook {m : MarketState} {c : Nat} {b : AnyBook} (h : m.Listening)
    (hb : b.tradeListener = true) : (m.setBook c b).Listening := by
  intro d x hx
  rw [findInstrument_setBook] at hx
  split_ifs at hx
  · rwa [← Option.some.inj hx]
  · exact h d x hx

/-- A switch to the engine in force does nothing; any other leaves books without listener. -/
def EngineTask.KeepsEngine (m : MarketState) : EngineTask → Prop
  | .switchEngine mode => mode = m.engineMode
  | _ => True

instance (m : MarketState) : (task : EngineTask) → Decidable (task.KeepsEngine m)
  | .switchEngine mode => inferInstanceAs (Decidable (mode = m.engineMode))
  | .order _ _ | .cancel _ _ _ | .snapshot _ => isTrue trivial

/-- **One task.** While every book has its listener, the tasks queued for trades are those of the
fills executed, whatever state the books are in. -/
theorem runTask_settled {m : MarketState} {task : EngineTask} {fuel : Nat} {e : Effect}
    (hm : m.Listening) (hkeep : task.KeepsEngine m) (h : runTask fuel m task = some e) :
    e.pushed.filter DbTask.ofTrade = e.fills.flatMap onTrade ∧ e.market.Listening := by
  cases runTask_branch h with
  | switchEngine mode =>
    have hmode : mode = m.engineMode := hkeep
    rw [hmode, MarketState.setEngineMode_self]
    exact ⟨rfl, hm⟩
  | snapshot => exact ⟨rfl, hm⟩
  | orderUnlisted => exact ⟨rfl, hm⟩
  | orderRefused =>
    rw [List.filter_cons_of_neg (by simp [ofTrade_refund])]
    exact ⟨rfl, hm⟩
  | orderProcessed hfind hcan hprocess =>
    obtain ⟨hlisten, hnotified⟩ := AnyBook.processOrder_notified hprocess
    rw [hm _ _ hfind] at hlisten hnotified
    refine ⟨?_, hm.setBook hlisten⟩
    rw [if_pos rfl] at hnotified
    rw [List.filter_append, hnotified, filter_onTrade]
    split_ifs
    · rw [List.filter_cons_of_neg (by simp [ofTrade_refund]), List.filter_nil, List.append_nil]
    · rw [List.filter_nil, List.append_nil]
  | cancelUnlisted => exact ⟨rfl, hm⟩
  | cancelMissed hfind hcancel =>
    have hlisten := AnyBook.cancelOrder_tradeListener hcancel
    exact ⟨rfl, hm.setBook (hlisten.trans (hm _ _ hfind))⟩
  | cancelled hfind hcancel =>
    have hlisten := AnyBook.cancelOrder_tradeListener hcancel
    rw [List.filter_cons_of_neg (by simp [ofTrade_refund])]
    exact ⟨rfl, hm.setBook (hlisten.trans (hm _ _ hfind))⟩

namespace Server

/-- The task popped, if any, does not replace the books. -/
def KeepsEngine (s : Server) : Event → Prop
  | .engine _ => ∀ task ∈ s.engineQueue.head?, task.KeepsEngine s.market
  | _ => True

instance (s : Server) : (e : Event) → Decidable (s.KeepsEngine e)
  | .engine _ =>
    inferInstanceAs (Decidable (∀ task ∈ s.engineQueue.head?, task.KeepsEngine s.market))
  | .message _ _ | .db => isTrue trivial

lemma listening_start {companies : List Nat} {m : MarketState}
    (hm : MarketState.new companies = .ok m) (db : Database) :
    (start m db).market.Listening := by
  intro c b hb
  rw [findInstrument_start] at hb
  split_ifs at hb with hc
  · obtain ⟨b₀, -, rfl⟩ := Option.map_eq_some_iff.mp hb
    exact AnyBook.tradeListener_setTradeListener true
  · rw [← (ok_new hm).listed c, hb] at hc
    exact absurd rfl hc

/-- **Every fill is settled**, exactly once and in order, in every run of the server in which no
`SWITCH_ENGINE` task changes the engine. -/
theorem every_fill_settled {companies : List Nat} {m : MarketState} {db : Database} {s : Server}
    {fills : List Trade} {pushed : List DbTask} (hm : MarketState.new companies = .ok m)
    (h : Run KeepsEngine (start m db) s fills pushed) :
    pushed.filter DbTask.ofTrade = fills.flatMap onTrade := by
  suffices hs : pushed.filter DbTask.ofTrade = fills.flatMap onTrade ∧ s.market.Listening from hs.1
  induction h with
  | refl => exact ⟨rfl, listening_start hm db⟩
  | @step s s' fills fills' pushed pushed' e hrun hkeep hstep ih =>
    obtain ⟨hsettled, hlisten⟩ := ih
    rw [List.filter_append, List.flatMap_append, hsettled]
    cases step_steps hstep with
    | task hqueue hrun =>
      have hkeep := hkeep _ (by rw [hqueue]; rfl)
      obtain ⟨hnew, hlisten'⟩ := runTask_settled hlisten hkeep hrun
      exact ⟨congrArg _ hnew, hlisten'⟩
    | handled hmsg => cases hmsg <;> exact ⟨rfl, hlisten⟩
    | _ => exact ⟨rfl, hlisten⟩

/-! ### A small server -/

/-- One listed company. -/
def sampleMarket : MarketState where
  companies := [1]
  instruments := fun c => if c ∈ [1] then some (makeOrderBook .current) else none
  engineMode := .current

lemma new_sampleMarket : MarketState.new [1] = .ok sampleMarket := rfl

/-- Two users, logged in with the tokens `a` and `b`. -/
def sampleDb : Database where
  balances := fun u => if u = 7 ∨ u = 8 then some 1000 else none
  portfolios := fun u c => if (u = 7 ∨ u = 8) ∧ c = 1 then some 10 else none
  sessions := fun token => if token = "a" then some ⟨7, 1⟩ else if token = "b" then some ⟨8, 1⟩
    else none
  trades := []
  clock := fun _ => 0

/-- User 7 offers four shares. -/
def sampleOffer : Event :=
  .message 0 (.order ⟨"a", some 1, some "SELL", some 5, some 4, some 0, false, none⟩)

/-- User 8 sells one share, user 7 buys it. -/
def sampleTrading : List Event :=
  [.message 0 (.order ⟨"b", some 1, some "SELL", some 5, some 1, some 0, false, none⟩),
    .message 0 (.order ⟨"a", some 1, some "BUY", some 6, some 1, some 0, false, none⟩),
    .engine 100001, .engine 100001, .db, .db]

theorem every_fill_settled_sampleTrading : ∃ s fills pushed,
    Run KeepsEngine (start sampleMarket sampleDb) s fills pushed ∧ fills ≠ [] ∧
      pushed.filter DbTask.ofTrade = fills.flatMap onTrade := by
  obtain ⟨⟨s, fills, pushed⟩, hrun, hfills⟩ := Option.map_eq_some_iff.mp
    (by decide +kernel : (((start sampleMarket sampleDb).runEvents KeepsEngine sampleTrading).map
      fun x => x.2.1.isEmpty) = some false)
  have h := run_of_runEvents hrun
  refine ⟨s, fills, pushed, h, ?_, every_fill_settled new_sampleMarket h⟩
  rintro rfl
  cases hfills

/-- After a switch the same orders trade, and nothing is queued for the database. -/
theorem fill_unsettled_after_switch : ∃ s fills pushed,
    Run (fun _ _ => True) (start sampleMarket sampleDb) s fills pushed ∧
      fills = [⟨2, 1, 7, 8, 5, 1, 6, 1⟩] ∧
      pushed.filter DbTask.ofTrade ≠ fills.flatMap onTrade := by
  obtain ⟨⟨s, fills, pushed⟩, hrun, hout⟩ := Option.map_eq_some_iff.mp
    (by decide +kernel : (((start sampleMarket sampleDb).runEvents (fun _ _ => True)
      ([.message 0 (.switchEngine "LEGACY"), .engine 100001] ++ sampleTrading)).map fun x => x.2)
      = some ([⟨2, 1, 7, 8, 5, 1, 6, 1⟩], []))
  obtain ⟨rfl, rfl⟩ := Prod.mk.inj hout
  exact ⟨s, _, _, run_of_runEvents hrun, rfl, by decide⟩

end Server

end ExchangeEngine
