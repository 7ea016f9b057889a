import ExchangeEngine.Accounts.Basic
import Mathlib.Data.List.Sort

/-!
# Queries

What `Database.h` reads for the clients: the wallet of a user, the trades of a user, and the
leaderboard.
-/

namespace ExchangeEngine

structure UserProfile where
  cash : Int
  portfolio : List (Nat × Nat)
deriving DecidableEq

/-- What a row of `trades` shows of a trade when it is read. -/
structure ShownTrade where
  companyId : Nat
  buyerId : Int
  sellerId : Int
  price : Nat
  quantity : Nat
deriving DecidableEq

/-- A row of `trades` as it is read. -/
structure UserTrade extends ShownTrade where
  ts : Int
deriving DecidableEq

structure LeaderboardEntry where
  userId : Int
  username : String
  cash : Int
  totalShares : Int
deriving DecidableEq

/-- A stored integer as a `uint32_t`. -/
def columnUint (n : Int) : Nat := (n % 2 ^ 32).toNat

def LoggedTrade.read (trade : LoggedTrade) : ShownTrade where
  companyId := trade.companyId % 2 ^ 16
  buyerId := trade.buyerId
  sellerId := trade.sellerId
  price := columnUint trade.price
  quantity := columnUint trade.quantity

def TradeRow.read (row : TradeRow) : UserTrade where
  toShownTrade := row.toLoggedTrade.read
  ts := row.ts

namespace Database

variable (db : Database)

/-- The ids that a company can have. -/
def companyIds : List Nat := List.range (2 ^ 16)

/-- The rows of the portfolio come in the order of the primary key. -/
def getUserProfile (userId : Int) : UserProfile where
  cash := db.cash userId
  portfolio := companyIds.filterMap fun companyId =>
    let shares := columnUint (db.shares userId companyId)
    if 0 < shares then some (companyId, shares) else none

/-- `SELECT ... WHERE buyer_id = ? OR seller_id = ? ORDER BY ts DESC, id DESC LIMIT ?` -/
def getUserTrades (userId : Int) (limit : Nat) : List UserTrade :=
  ((newestFirst (db.trades.filter fun row => row.buyerId = userId ∨ row.sellerId = userId)).take
    limit).map TradeRow.read

/-- `FROM users u JOIN balances b ... LEFT JOIN portfolios p ... GROUP BY u.id` -/
def leaderboardEntry (row : UserRow) : Option LeaderboardEntry :=
  (db.balances row.id).map fun cash =>
    { userId := row.id
      username := row.username
      cash := cash
      totalShares := (companyIds.map (db.shares row.id)).sum }

/-- `ORDER BY b.cash DESC LIMIT ?`; users with the same cash stay in the order of their ids. -/
def getLeaderboard (users : Users) (limit : Nat) : List LeaderboardEntry :=
  ((users.rows.filterMap db.leaderboardEntry).insertionSort fun e e' => e'.cash ≤ e.cash).take
    limit

end Database

/-! ### The wallet -/

/-- The shares of a company that a profile lists. -/
def UserProfile.shares (profile : UserProfile) (companyId : Nat) : Nat :=
  (profile.portfolio.lookup companyId).getD 0

end ExchangeEngine
