import Mathlib.Algebra.Group.Int.Defs
import Mathlib.Algebra.Group.Nat.Defs
import Mathlib.Data.Int.Basic
import Mathlib.Data.List.Sort
import Mathlib.Logic.Function.Basic
import Mathlib.Tactic.Common

/-!
# The database

The tables of `Database.h` that hold the wallets, as functions from their keys; a missing row is
`none`. `INTEGER` columns are integers. The foreign keys are not enforced, since the connection does
not turn them on. The clock is that of the machine: it may go back.
-/

namespace ExchangeEngine

structure SessionRow where
  userId : Int
  expiresAt : Int

/-- What a row of `trades` tells about a trade. -/
structure LoggedTrade where
  companyId : Nat
  buyerId : Int
  sellerId : Int
  price : Int
  quantity : Int
deriving DecidableEq

/-- A row of `trades`, without its id. -/
structure TradeRow extends LoggedTrade where
  ts : Int
deriving DecidableEq

/-- The rows of `trades` come in the order of their ids; `clock i` is what `std::time` says when row
`i` is logged. -/
structure Database where
  balances : Int → Option Int
  portfolios : Int → Nat → Option Int
  sessions : String → Option SessionRow
  trades : List TradeRow
  clock : Nat → Int

/-- `sqlite3_bind_int` takes a 32-bit signed integer. -/
def bindInt (n : Nat) : Int := if n < 2 ^ 31 then n else n - 2 ^ 32

/-- A text is bound as a C string, up to its first zero. -/
def bindText (text : String) : String :=
  String.ofList (text.toList.takeWhile fun c => c ≠ Char.ofNat 0)

/-- `ORDER BY ts DESC, id DESC` -/
def newestFirst (rows : List TradeRow) : List TradeRow :=
  rows.reverse.insertionSort fun row row' => row'.ts ≤ row.ts

namespace Database

variable (db : Database)

/-! ### The prepared statements -/

/-- `UPDATE balances SET cash = cash - ? WHERE user_id = ?` -/
def resCash (amount : Int) (userId : Int) : Database :=
  { db with
    balances := Function.update db.balances userId ((db.balances userId).map (· - amount)) }

/-- `UPDATE balances SET cash = cash + ? WHERE user_id = ?` -/
def settleCash (amount : Int) (userId : Int) : Database :=
  { db with
    balances := Function.update db.balances userId ((db.balances userId).map (· + amount)) }

/-- `UPDATE portfolios SET shares = shares - ? WHERE user_id = ? AND company_id = ?` -/
def resShares (quantity : Int) (userId : Int) (companyId : Nat) : Database :=
  { db with
    portfolios := Function.update db.portfolios userId
      (Function.update (db.portfolios userId) companyId
        ((db.portfolios userId companyId).map (· - quantity))) }

/-- `INSERT INTO portfolios ... ON CONFLICT ... DO UPDATE SET shares = shares + excluded.shares` -/
def settleShares (userId : Int) (companyId : Nat) (quantity : Int) : Database :=
  { db with
    portfolios := Function.update db.portfolios userId
      (Function.update (db.portfolios userId) companyId
        (some ((db.portfolios userId companyId).getD 0 + quantity))) }

/-- `INSERT INTO balances (user_id, cash) VALUES (?, 1000000)`, which fails for a user that has a
row. -/
def initBal (userId : Int) : Database :=
  { db with
    balances := Function.update db.balances userId
      (some ((db.balances userId).getD 1000000)) }

/-- `INSERT INTO sessions (token, user_id, expires_at) VALUES (?, ?, ?)`, which fails for a token
that has a row. -/
def createSess (token : String) (userId expiresAt : Int) : Database :=
  { db with
    sessions := Function.update db.sessions token
      (some ((db.sessions token).getD ⟨userId, expiresAt⟩)) }

/-! ### The operations -/

def validateSession (now : Int) (token : String) : Except String Int :=
  match db.sessions (bindText token) with
  | some row => if now < row.expiresAt then .ok row.userId else .error "Invalid or expired session"
  | none => .error "Invalid or expired session"

def reserveCash (userId amountCents : Int) : Except String Database :=
  if (db.balances userId).getD 0 < amountCents then .error "Insufficient funds."
  else .ok (db.resCash amountCents userId)

def reserveShares (userId : Int) (companyId quantity : Nat) : Except String Database :=
  if (db.portfolios userId companyId).getD 0 < quantity then .error "Insufficient shares."
  else .ok (db.resShares quantity userId companyId)

def settleTradeUnlocked (buyerId sellerId : Int) (companyId quantity price buyerLimitPrice : Nat) :
    Database :=
  let totalCents : Int := price * quantity
  let db := (db.settleShares buyerId companyId quantity).settleCash totalCents sellerId
  if price < buyerLimitPrice then
    db.settleCash ((buyerLimitPrice - price : Nat) * quantity) buyerId
  else db

def logTradeUnlocked (companyId : Nat) (buyerId sellerId : Int) (price quantity : Nat) :
    Database :=
  { db with
    trades := db.trades ++
      [{ companyId := companyId, buyerId := buyerId, sellerId := sellerId
         price := bindInt price, quantity := bindInt quantity, ts := db.clock db.trades.length }] }

/-- `SELECT price ... WHERE company_id = ? ORDER BY ts DESC, id DESC LIMIT ?`, cast to `uint32_t`.
-/
def getRecentPrices (companyId limit : Nat) : List Nat :=
  ((newestFirst (db.trades.filter fun row => row.companyId = companyId)).take limit).map
    fun row => (row.price % 2 ^ 32).toNat

def releaseCashUnlocked (userId amountCents : Int) : Database := db.settleCash amountCents userId

def releaseSharesUnlocked (userId : Int) (companyId quantity : Nat) : Database :=
  db.settleShares userId companyId quantity

/-! ### Wallets -/

/-- The cash of a user, zero without a row. -/
def cash (userId : Int) : Int := (db.balances userId).getD 0

/-- The shares of a user in a company, zero without a row. -/
def shares (userId : Int) (companyId : Nat) : Int := (db.portfolios userId companyId).getD 0

/-- Does the user have an account? -/
def Registered (userId : Int) : Prop := (db.balances userId).isSome = true

instance (userId : Int) : Decidable (db.Registered userId) :=
  inferInstanceAs (Decidable ((db.balances userId).isSome = true))

variable {db} {u v : Int} {c d : Nat} {n : Int}

lemma registered_settleCash : (db.settleCash n v).Registered u ↔ db.Registered u := by
  simp only [Registered, settleCash]
  by_cases h : u = v
  · subst h
    simp
  · simp [h]

lemma registered_resCash : (db.resCash n v).Registered u ↔ db.Registered u := by
  simp only [Registered, resCash]
  by_cases h : u = v
  · subst h
    simp
  · simp [h]

lemma cash_settleCash (h : db.Registered u) :
    (db.settleCash n v).cash u = db.cash u + if u = v then n else 0 := by
  obtain ⟨x, hx⟩ := Option.isSome_iff_exists.mp h
  simp only [cash, settleCash]
  by_cases huv : u = v
  · subst huv
    simp [hx]
  · simp [huv]

/-- A reservation that is covered; without a row it is for nothing. -/
lemma cash_resCash (hn : 0 ≤ n) (h : n ≤ db.cash v) :
    (db.resCash n v).cash u = db.cash u - if u = v then n else 0 := by
  simp only [cash] at h ⊢
  simp only [resCash]
  by_cases huv : u = v
  · subst huv
    cases hx : db.balances u with
    | some x => simp
    | none =>
      rw [hx] at h
      simp [Int.le_antisymm h hn]
  · simp [huv]

@[simp] lemma cash_settleShares : (db.settleShares v d n).cash u = db.cash u := rfl
@[simp] lemma cash_resShares : (db.resShares n v d).cash u = db.cash u := rfl
@[simp] lemma shares_settleCash : (db.settleCash n v).shares u c = db.shares u c := rfl
@[simp] lemma shares_resCash : (db.resCash n v).shares u c = db.shares u c := rfl

lemma shares_settleShares : (db.settleShares v d n).shares u c
    = db.shares u c + if u = v ∧ c = d then n else 0 := by
  simp only [shares, settleShares]
  by_cases huv : u = v
  · subst huv
    by_cases hcd : c = d
    · subst hcd
      simp
    · simp [hcd]
  · simp [huv]

lemma shares_resShares (hn : 0 ≤ n) (h : n ≤ db.shares v d) : (db.resShares n v d).shares u c
    = db.shares u c - if u = v ∧ c = d then n else 0 := by
  simp only [shares] at h ⊢
  simp only [resShares]
  by_cases huv : u = v
  · subst huv
    by_cases hcd : c = d
    · subst hcd
      cases hx : db.portfolios u c with
      | some x => simp
      | none =>
        rw [hx] at h
        simp [Int.le_antisymm h hn]
    · simp [hcd]
  · simp [huv]

variable {buyer seller : Int} {quantity price limit : Nat}

lemma registered_settleTrade :
    (db.settleTradeUnlocked buyer seller d quantity price limit).Registered u
      ↔ db.Registered u := by
  have hshares : (db.settleShares buyer d quantity).Registered u ↔ db.Registered u := Iff.rfl
  simp only [settleTradeUnlocked]
  split_ifs
  · rw [registered_settleCash, registered_settleCash, hshares]
  · rw [registered_settleCash, hshares]

/-- A settlement pays the seller, and the buyer what he bid above the price. -/
lemma cash_settleTrade (h : db.Registered u) :
    (db.settleTradeUnlocked buyer seller d quantity price limit).cash u
      = db.cash u + ((if u = seller then (price * quantity : Int) else 0)
        + if u = buyer then ((limit - price : Nat) * quantity : Int) else 0) := by
  have hshares : (db.settleShares buyer d quantity).Registered u := h
  simp only [settleTradeUnlocked]
  by_cases hlt : price < limit
  · simp only [if_pos hlt]
    rw [cash_settleCash (registered_settleCash.mpr hshares), cash_settleCash hshares,
      cash_settleShares, Int.add_assoc]
  · simp only [if_neg hlt]
    rw [cash_settleCash hshares, cash_settleShares, Nat.sub_eq_zero_of_le (not_lt.mp hlt)]
    simp

/-- A settlement hands the shares to the buyer. -/
lemma shares_settleTrade :
    (db.settleTradeUnlocked buyer seller d quantity price limit).shares u c
      = db.shares u c + if u = buyer ∧ c = d then (quantity : Int) else 0 := by
  simp only [settleTradeUnlocked]
  by_cases hlt : price < limit
  · simp only [if_pos hlt]
    rw [shares_settleCash, shares_settleCash, shares_settleShares]
  · simp only [if_neg hlt]
    rw [shares_settleCash, shares_settleShares]

/-! ### The clock -/

/-- The clock has not gone back from one logged trade to the next. -/
def Ordered (db : Database) : Prop := db.trades.Pairwise fun row row' => row.ts ≤ row'.ts

instance (db : Database) : Decidable db.Ordered :=
  inferInstanceAs (Decidable (db.trades.Pairwise fun row row' => row.ts ≤ row'.ts))

lemma newestFirst_perm (rows : List TradeRow) : (newestFirst rows).Perm rows :=
  (List.perm_insertionSort _ _).trans (List.reverse_perm rows)

lemma newestFirst_eq {rows : List TradeRow} (h : rows.Pairwise fun row row' => row.ts ≤ row'.ts) :
    newestFirst rows = rows.reverse :=
  (List.pairwise_reverse.mpr h).insertionSort_eq

/-- The last rows come first, if the clock has not gone back. -/
lemma Ordered.newestFirst_filter (h : db.Ordered) (p : TradeRow → Bool) :
    newestFirst (db.trades.filter p) = (db.trades.filter p).reverse :=
  newestFirst_eq (h.sublist List.filter_sublist)

end Database

end ExchangeEngine
