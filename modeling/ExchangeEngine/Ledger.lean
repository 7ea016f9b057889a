import ExchangeEngine.Conservation
import ExchangeEngine.Server.Basic
import Mathlib.Tactic.Positivity

/-!
# What a user owns

The ledger of one user and one asset, cash or the shares of a company: what an order reserves, what
a fill earns, what a database task credits, and how these fit together.
-/

namespace ExchangeEngine

/-- Cash, or the shares of a company. -/
inductive Asset
  | cash
  | shares (companyId : Nat)

namespace Asset

/-- What a user has of an asset in the database. -/
def balance (db : Database) (u : Int) : Asset → Int
  | cash => db.cash u
  | shares c => db.shares u c

/-- What each unit of an order reserves from a user: the price of a buy, the share of a sell. -/
def unit (u : Int) : Asset → Order → Int
  | cash, o => if o.side = true ∧ o.userId = u then o.price else 0
  | shares c, o => if o.side = false ∧ o.userId = u ∧ o.companyId = c then 1 else 0

/-- What a database task adds to the balance of a user. -/
def credit (u : Int) : Asset → DbTask → Int
  | cash, t =>
    match t.type with
    | .settle => (if u = t.sellerId then (t.price * t.quantity : Int) else 0)
        + if u = t.buyerId then ((t.buyerLimitPrice - t.price : Nat) * t.quantity : Int) else 0
    | .refundCash => if u = t.buyerId then (t.price * t.quantity : Int) else 0
    | .refundShares => 0
    | .logTrade => 0
  | shares c, t =>
    match t.type with
    | .settle => if u = t.buyerId ∧ c = t.companyId then (t.quantity : Int) else 0
    | .refundShares => if u = t.buyerId ∧ c = t.companyId then (t.quantity : Int) else 0
    | .refundCash => 0
    | .logTrade => 0

/-- What a fill earns a user, at the execution price: negative for what he gives. -/
def earned (u : Int) : Asset → Trade → Int
  | cash, t => (if u = t.sellerUserId then (t.price * t.quantity : Int) else 0)
      - if u = t.buyerUserId then (t.price * t.quantity : Int) else 0
  | shares c, t => (if u = t.buyerUserId ∧ c = t.companyId then (t.quantity : Int) else 0)
      - if u = t.sellerUserId ∧ c = t.companyId then (t.quantity : Int) else 0

/-- What the tasks of a queue will add. -/
def credits (a : Asset) (u : Int) (tasks : List DbTask) : Int := (tasks.map (a.credit u)).sum

/-- What a list of fills earned. -/
def earnings (a : Asset) (u : Int) (fills : List Trade) : Int := (fills.map (a.earned u)).sum

variable {a : Asset} {u : Int} {o r : Order} {q c : Nat}

lemma unit_cash : cash.unit u o = if o.side = true ∧ o.userId = u then (o.price : Int) else 0 := rfl

lemma unit_shares :
    (shares c).unit u o = if o.side = false ∧ o.userId = u ∧ o.companyId = c then 1 else 0 := rfl

@[simp] lemma unit_quantity : a.unit u { o with quantity := q } = a.unit u o := by
  cases a <;> rfl

@[simp] lemma unit_id {i : Nat} : a.unit u { o with id := i } = a.unit u o := by
  cases a <;> rfl

lemma unit_nonneg : 0 ≤ a.unit u o := by
  cases a with
  | cash =>
    rw [unit_cash]
    positivity
  | shares c =>
    rw [unit_shares]
    positivity

/-- An order reserves from its owner only. -/
lemma unit_eq_zero (h : o.userId ≠ u) : a.unit u o = 0 := by
  cases a <;> simp [unit_cash, unit_shares, h]

@[simp] lemma credits_nil : a.credits u [] = 0 := rfl

@[simp] lemma credits_append (t t' : List DbTask) :
    a.credits u (t ++ t') = a.credits u t + a.credits u t' := by
  simp [credits]

@[simp] lemma credits_cons (x : DbTask) (t : List DbTask) :
    a.credits u (x :: t) = a.credit u x + a.credits u t := by
  simp [credits]

@[simp] lemma earnings_nil : a.earnings u [] = 0 := rfl

@[simp] lemma earnings_append (t t' : List Trade) :
    a.earnings u (t ++ t') = a.earnings u t + a.earnings u t' := by
  simp [earnings]

/-- A refund credits what the order had reserved. -/
lemma credit_refund (hc : o.companyId = c) :
    a.credit u (refund o.userId o c q) = a.unit u o * q := by
  subst hc
  cases a <;> cases hs : o.side <;> simp [credit, refund, unit_cash, unit_shares, hs, eq_comm]

/-- **A fill** credits what it earned and what both orders had reserved for it. -/
lemma credits_onTrade (hside : r.side = !o.side) (hcompany : r.companyId = o.companyId)
    (hcross : crosses o.side o.price r.price = true) :
    a.credits u (onTrade (tradeOf o.side o r r.price q))
      = a.earned u (tradeOf o.side o r r.price q) + (a.unit u r + a.unit u o) * q := by
  cases a with
  | cash =>
    cases hs : o.side with
    | true =>
      rw [hs] at hcross hside
      have hle : r.price ≤ o.price := by simpa [crosses] using hcross
      simp only [onTrade, credits_cons, credits_nil, credit, earned, tradeOf, if_true, unit_cash, hs,
        hside, Nat.cast_sub hle, @eq_comm _ _ u]
      simp
      split_ifs <;> ring
    | false =>
      rw [hs] at hcross hside
      simp only [onTrade, credits_cons, credits_nil, credit, earned, tradeOf, unit_cash, hs, hside,
        @eq_comm _ _ u]
      simp
  | shares c =>
    cases hs : o.side with
    | true =>
      rw [hs] at hside
      simp only [onTrade, credits_cons, credits_nil, credit, earned, tradeOf, if_true, unit_shares,
        hs, hside, hcompany, @eq_comm _ _ u, @eq_comm _ _ c]
      simp
    | false =>
      rw [hs] at hside
      simp only [onTrade, credits_cons, credits_nil, credit, earned, tradeOf, unit_shares, hs, hside,
        hcompany, @eq_comm _ _ u, @eq_comm _ _ c]
      simp

/-- **A submission**: the tasks that its fills queue credit what the fills earned and what both
sides had reserved for them. -/
theorem credits_fills {B : Book} (hside : ∀ r ∈ B (!o.side), r.side = !o.side)
    (hcompany : ∀ r ∈ B (!o.side), r.companyId = o.companyId) :
    a.credits u ((B.fills o).flatMap onTrade) = a.earnings u (B.fills o)
      + B.taken (a.unit u) o + a.unit u o * B.traded o := by
  have hserved : ∀ x ∈ B.served o, x.1 ∈ B (!o.side) ∧
      crosses o.side o.price x.1.price = true := fun x hx =>
    Book.mem_crossing.mp (Consume.mem_avail (Consume.mem_of_mem_takes hx)).1
  simp only [Book.fills, Book.taken, Book.traded]
  generalize B.served o = l at hserved ⊢
  induction l with
  | nil => simp
  | cons x l ih =>
    obtain ⟨hmem, hcross⟩ := hserved x List.mem_cons_self
    have ih := ih fun y hy => hserved y (List.mem_cons_of_mem _ hy)
    have hone := credits_onTrade (a := a) (u := u) (q := x.2) (hside _ hmem) (hcompany _ hmem)
      hcross
    simp only [List.map_cons, List.flatMap_cons, credits_append, ih, hone, earnings, List.sum_cons,
      Nat.cast_add]
    ring

/-! ### The database -/

variable {db : Database}

lemma registered_applyTask (t : DbTask) : (applyTask db t).Registered u ↔ db.Registered u := by
  simp only [applyTask]
  cases t.type with
  | settle => exact Database.registered_settleTrade
  | refundCash => exact Database.registered_settleCash
  | refundShares => exact Iff.rfl
  | logTrade => exact Iff.rfl

/-- **A task of the database worker** adds its credit; cash, only to who has a wallet. -/
theorem balance_applyTask (hu : a = .cash → db.Registered u) (t : DbTask) :
    a.balance (applyTask db t) u = a.balance db u + a.credit u t := by
  simp only [applyTask]
  cases a with
  | cash =>
    cases ht : t.type with
    | settle =>
      simp only [balance, credit, ht]
      exact Database.cash_settleTrade (hu rfl)
    | refundCash =>
      simp only [balance, credit, ht]
      exact Database.cash_settleCash (hu rfl)
    | refundShares =>
      simp only [balance, credit, ht, add_zero]
      exact Database.cash_settleShares
    | logTrade =>
      simp only [balance, credit, ht, add_zero]
      rfl
  | shares c =>
    cases ht : t.type with
    | settle =>
      simp only [balance, credit, ht]
      exact Database.shares_settleTrade
    | refundCash =>
      simp only [balance, credit, ht, add_zero]
      exact Database.shares_settleCash
    | refundShares =>
      simp only [balance, credit, ht]
      exact Database.shares_settleShares
    | logTrade =>
      simp only [balance, credit, ht, add_zero]
      rfl

/-- **A batch** adds its credits. -/
theorem balance_batch (hu : db.Registered u) (tasks : List DbTask) :
    a.balance (tasks.foldl applyTask db) u = a.balance db u + a.credits u tasks := by
  induction tasks generalizing db with
  | nil => exact (add_zero _).symm
  | cons t tasks ih =>
    rw [List.foldl_cons, ih ((registered_applyTask t).mpr hu), balance_applyTask fun _ => hu,
      credits_cons, add_assoc]

lemma credit_nonneg (t : DbTask) : 0 ≤ a.credit u t := by
  cases a <;> cases ht : t.type <;> simp only [credit, ht] <;> positivity

/-- To who has no wallet it adds at most that. -/
lemma balance_batch_le (tasks : List DbTask) :
    a.balance (tasks.foldl applyTask db) u ≤ a.balance db u + a.credits u tasks := by
  induction tasks generalizing db with
  | nil => exact (add_zero _).ge
  | cons t tasks ih =>
    have hone : a.balance (applyTask db t) u ≤ a.balance db u + a.credit u t := by
      by_cases hu : a = .cash → db.Registered u
      · exact (balance_applyTask hu t).le
      · obtain ⟨rfl, hnone⟩ := Classical.not_imp.mp hu
        have hzero : ∀ {db : Database}, ¬ db.Registered u → db.cash u = 0 := by
          intro db hu
          have hnone : db.balances u = none := by simpa [Database.Registered] using hu
          simp [Database.cash, hnone]
        have hstill : ¬ (applyTask db t).Registered u := fun h =>
          hnone ((registered_applyTask t).mp h)
        rw [balance, balance, hzero hnone, hzero hstill, zero_add]
        exact credit_nonneg t
    rw [List.foldl_cons, credits_cons]
    have hrest := @ih (applyTask db t)
    omega

lemma registered_batch (tasks : List DbTask) :
    (tasks.foldl applyTask db).Registered u ↔ db.Registered u := by
  induction tasks generalizing db with
  | nil => exact Iff.rfl
  | cons t tasks ih => rw [List.foldl_cons, ih, registered_applyTask]

end Asset

end ExchangeEngine
