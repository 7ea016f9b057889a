import ExchangeEngine.Library.Transition
import ExchangeEngine.Server.Ledger

/-!
# The server in atomic actions

What the threads of the server are meant to amount to: a session reserves funds and queues the order
at one go, the engine thread takes a task at one go, and so does the database worker with a batch.
Where a batch ends is left open, since the engine thread may be in the middle of a task. What is not
about orders is written statement by statement.
-/

namespace ExchangeEngine

/-- The task of an order, which has no id yet. -/
def orderTask (companyId : Nat) (userId : Int) (side : Bool) (price quantity timestamp : Nat) :
    EngineTask :=
  .order companyId
    { id := 0, userId := userId, timestamp := timestamp, price := price, quantity := quantity
      companyId := companyId, side := side }

/-- What an order reserves. -/
def Database.reserve (db : Database) (userId : Int) (companyId : Nat) (side : Bool)
    (price quantity : Nat) : Except String Database :=
  if side then db.reserveCash userId (price * quantity)
  else db.reserveShares userId companyId quantity

/-- Is the task of a synthetic user, or no order? -/
def EngineTask.Unfunded : EngineTask → Prop
  | .order _ o => o.userId < 0
  | .cancel _ _ _ => True
  | .snapshot _ => True
  | .switchEngine _ => True

instance : (task : EngineTask) → Decidable task.Unfunded
  | .order _ o => inferInstanceAs (Decidable (o.userId < 0))
  | .cancel _ _ _ => isTrue trivial
  | .snapshot _ => isTrue trivial
  | .switchEngine _ => isTrue trivial

/-- What `main` and the handlers write that are not about orders. -/
inductive Statement
  | initBal (userId : Int)
  | settleShares (userId : Int) (companyId quantity : Nat)
  | settleCash (amount : Nat) (userId : Int)
  | createSess (token : String) (userId expiresAt : Int)
  /-- in the tables of the users and of the games -/
  | elsewhere

def Database.execute (db : Database) : Statement → Database
  | .initBal userId => db.initBal userId
  | .settleShares userId companyId quantity => db.settleShares userId companyId quantity
  | .settleCash amount userId => db.settleCash amount userId
  | .createSess token userId expiresAt => db.createSess token userId expiresAt
  | .elsewhere => db

/-- The statement is about nothing that the user owns. -/
def Statement.Spares (u : Int) : Statement → Prop
  | .initBal userId => u ≠ userId
  | .settleShares userId _ _ => u ≠ userId
  | .settleCash _ userId => u ≠ userId
  | .createSess _ _ _ => True
  | .elsewhere => True

namespace Server

inductive Action
  | submit (userId : Int) (companyId : Nat) (side : Bool) (price quantity timestamp : Nat)
  /-- what reserves nothing -/
  | queue (task : EngineTask)
  | engine (fuel : Nat)
  /-- the first `n` database tasks become a batch -/
  | swap (n : Nat)
  | commit
  | write (statement : Statement)

/-- The server after an action, and the fills. -/
def act (s : Server) : Action → Option (Server × List Trade)
  | .submit userId companyId side price quantity timestamp =>
    match s.db.reserve userId companyId side price quantity with
    | .ok db =>
      some ({ s with db := db }.push (orderTask companyId userId side price quantity timestamp), [])
    | .error _ => some (s, [])
  | .queue task => if task.Unfunded then some (s.push task, []) else none
  | .engine fuel => (s.engineStep fuel).map fun r => (r.1, r.2.1)
  | .swap n =>
    if s.dbQueueBack = [] then
      some
        ({ s with dbQueueFront := s.dbQueueFront.drop n, dbQueueBack := s.dbQueueFront.take n }, [])
    else none
  | .commit => some ({ s with db := s.dbQueueBack.foldl applyTask s.db, dbQueueBack := [] }, [])
  | .write statement => some ({ s with db := s.db.execute statement }, [])

/-- Ordinary operation, action by action. -/
def OrdinaryAction (s : Server) : Action → Prop
  | .submit _ companyId _ _ _ _ => companyId ∈ s.market.companies
  | .queue task => task.Ordinary s.market ∧ task.Addressed
  | .engine _ => ∀ task ∈ s.engineQueue.head?, task.HasRoom s.market
  | .swap _ => True
  | .commit => True
  | .write _ => True

/-- What the action writes is about nothing that the user owns. -/
def Action.Spares (u : Int) : Action → Prop
  | .write statement => statement.Spares u
  | _ => True

variable {s s' : Server} {action : Action} {fills : List Trade} {a : Asset} {u : Int}

/-! ### Statements -/

/-- Nobody's account is closed. -/
lemma registered_execute {db : Database} {statement : Statement} (h : db.Registered u) :
    (db.execute statement).Registered u := by
  cases statement with
  | initBal v =>
    simp only [Database.Registered, Database.execute, Database.initBal, Function.update_apply]
    split_ifs
    · rfl
    · exact h
  | settleCash amount v => exact Database.registered_settleCash.mpr h
  | _ => exact h

lemma balance_execute {db : Database} {statement : Statement} (h : statement.Spares u)
    (hu : db.Registered u) : a.balance (db.execute statement) u = a.balance db u := by
  cases statement with
  | initBal v =>
    cases a with
    | cash =>
      have hsame : (db.initBal v).balances u = db.balances u := Function.update_of_ne h _ _
      simp only [Asset.balance, Database.cash, Database.execute, hsame]
    | shares c => rfl
  | settleShares v c n =>
    cases a with
    | cash => rfl
    | shares d =>
      have hne : ¬ (u = v ∧ d = c) := fun hboth => h hboth.1
      rw [Database.execute, Asset.balance, Database.shares_settleShares, if_neg hne, add_zero]
      rfl
  | settleCash amount v =>
    cases a with
    | cash =>
      have hne : u ≠ v := h
      rw [Database.execute, Asset.balance, Database.cash_settleCash hu, if_neg hne, add_zero]
      rfl
    | shares c => rfl
  | createSess token v expiresAt => cases a <;> rfl
  | elsewhere => rfl

lemma nonNegative_execute {db : Database} (statement : Statement) (h : db.NonNegative) :
    (db.execute statement).NonNegative := by
  cases statement with
  | initBal v => exact nonNegative_initBal h
  | settleShares v c n => exact nonNegative_settleShares h (Int.natCast_nonneg n)
  | settleCash amount v => exact nonNegative_settleCash h (Int.natCast_nonneg amount)
  | createSess token v expiresAt => exact h
  | elsewhere => exact h

/-! ### Actions -/

lemma reserve_eq_ok {db db' : Database} {userId : Int} {companyId price quantity : Nat}
    {side : Bool} (h : db.reserve userId companyId side price quantity = .ok db') :
    (side = true ∧ (price * quantity : Int) ≤ db.cash userId ∧
        db' = db.resCash (price * quantity) userId) ∨
      side = false ∧ (quantity : Int) ≤ db.shares userId companyId ∧
        db' = db.resShares quantity userId companyId := by
  cases side with
  | true =>
    obtain ⟨hfunds, rfl⟩ := reserveCash_eq_ok h
    exact Or.inl ⟨rfl, hfunds, rfl⟩
  | false =>
    obtain ⟨hfunds, rfl⟩ := reserveShares_eq_ok h
    exact Or.inr ⟨rfl, hfunds, rfl⟩

/-- What an action does. -/
inductive Does (s : Server) : Action → Server → List Trade → Prop
  | submitted {userId : Int} {companyId price quantity timestamp : Nat} {side : Bool}
      {db : Database} (hreserve : s.db.reserve userId companyId side price quantity = .ok db) :
      Does s (.submit userId companyId side price quantity timestamp)
        ({ s with db := db }.push (orderTask companyId userId side price quantity timestamp)) []
  | refused (userId : Int) (companyId : Nat) (side : Bool) (price quantity timestamp : Nat) :
      Does s (.submit userId companyId side price quantity timestamp) s []
  | queued {task : EngineTask} (hunfunded : task.Unfunded) : Does s (.queue task) (s.push task) []
  | engine {fuel : Nat} {s' : Server} {fills : List Trade} {pushed : List DbTask}
      (hstep : s.step (.engine fuel) = some (s', fills, pushed)) : Does s (.engine fuel) s' fills
  | swapped {n : Nat} (hback : s.dbQueueBack = []) :
      Does s (.swap n)
        { s with dbQueueFront := s.dbQueueFront.drop n, dbQueueBack := s.dbQueueFront.take n } []
  | committed :
      Does s .commit { s with db := s.dbQueueBack.foldl applyTask s.db, dbQueueBack := [] } []
  | wrote (statement : Statement) :
      Does s (.write statement) { s with db := s.db.execute statement } []

/-- **An action** does one of these things. -/
theorem act_does (h : s.act action = some (s', fills)) : Does s action s' fills := by
  cases action with
  | submit userId companyId side price quantity timestamp =>
    simp only [act] at h
    cases hreserve : s.db.reserve userId companyId side price quantity with
    | ok db =>
      rw [hreserve] at h
      obtain ⟨rfl, rfl⟩ := Prod.mk.inj (Option.some.inj h)
      exact .submitted hreserve
    | error e =>
      rw [hreserve] at h
      obtain ⟨rfl, rfl⟩ := Prod.mk.inj (Option.some.inj h)
      exact .refused ..
  | queue task =>
    simp only [act] at h
    split_ifs at h with hunfunded
    obtain ⟨rfl, rfl⟩ := Prod.mk.inj (Option.some.inj h)
    exact .queued hunfunded
  | engine fuel =>
    obtain ⟨⟨s₁, fills₁, pushed⟩, hstep, h⟩ := Option.map_eq_some_iff.mp h
    obtain ⟨rfl, rfl⟩ := Prod.mk.inj h
    exact .engine hstep
  | swap n =>
    simp only [act] at h
    split_ifs at h with hback
    obtain ⟨rfl, rfl⟩ := Prod.mk.inj (Option.some.inj h)
    exact .swapped hback
  | commit =>
    obtain ⟨rfl, rfl⟩ := Prod.mk.inj (Option.some.inj h)
    exact .committed
  | write statement =>
    obtain ⟨rfl, rfl⟩ := Prod.mk.inj (Option.some.inj h)
    exact .wrote statement

/-! ### Ordinary operation -/

lemma Running.push {task : EngineTask} (h : s.Running) (db : Database) (haddr : task.Addressed)
    (htask : task.Ordinary s.market) : ({ s with db := db }.push task).Running where
  ok := Ok.push ⟨h.ok.market, h.ok.addressed⟩ haddr
  listening := h.listening
  queue t ht := by
    rcases List.mem_append.mp ht with ht | ht
    · exact h.queue t ht
    · rwa [List.mem_singleton.mp ht]

/-- **One ordinary action.** -/
lemma Running.act (h : s.Running) (hord : s.OrdinaryAction action)
    (hact : s.act action = some (s', fills)) : s'.Running := by
  cases act_does hact with
  | submitted => exact h.push _ rfl hord
  | refused => exact h
  | queued => exact h.push s.db hord.2 hord.1
  | engine hstep => exact h.step (e := .engine _) hord hstep
  | swapped => exact ⟨⟨h.ok.market, h.ok.addressed⟩, h.listening, h.queue⟩
  | committed => exact ⟨⟨h.ok.market, h.ok.addressed⟩, h.listening, h.queue⟩
  | wrote => exact ⟨⟨h.ok.market, h.ok.addressed⟩, h.listening, h.queue⟩

lemma registered_reserve {db db' : Database} {userId : Int} {companyId price quantity : Nat}
    {side : Bool} (h : db.reserve userId companyId side price quantity = .ok db') :
    db'.Registered u ↔ db.Registered u := by
  rcases reserve_eq_ok h with ⟨-, -, rfl⟩ | ⟨-, -, rfl⟩
  · exact Database.registered_resCash
  · exact Iff.rfl

lemma registered_act (hact : s.act action = some (s', fills)) (h : s.db.Registered u) :
    s'.db.Registered u := by
  cases act_does hact with
  | submitted hreserve => exact (registered_reserve hreserve).mpr h
  | engine hstep => exact (registered_step hstep).mpr h
  | committed => exact (Asset.registered_batch _).mpr h
  | wrote => exact registered_execute h
  | _ => exact h

/-- What is reserved for an order goes into it. -/
lemma balance_reserve {db db' : Database} {userId : Int} {companyId price quantity : Nat}
    {side : Bool} (timestamp : Nat)
    (h : db.reserve userId companyId side price quantity = .ok db') :
    a.balance db' u
      + (orderTask companyId userId side price quantity timestamp).reserved a u
      = a.balance db u := by
  rw [orderTask, EngineTask.reserved]
  rcases reserve_eq_ok h with ⟨rfl, hfunds, rfl⟩ | ⟨rfl, hfunds, rfl⟩
  · cases a with
    | cash =>
      simp only [Asset.balance, Asset.unit_cash, Database.cash_resCash (by positivity) hfunds,
        @eq_comm _ u, true_and]
      split_ifs <;> ring
    | shares d => simp [Asset.balance, Asset.unit_shares, Database.shares_resCash]
  · cases a with
    | cash => simp [Asset.balance, Asset.unit_cash, Database.cash_resShares]
    | shares d =>
      simp only [Asset.balance, Asset.unit_shares,
        Database.shares_resShares (Int.natCast_nonneg _) hfunds, @eq_comm _ u, @eq_comm _ d,
        true_and]
      split_ifs <;> ring

/-- What is unfunded goes into no order of his. -/
lemma reserved_unfunded {task : EngineTask} (h : task.Unfunded) (hu : 0 ≤ u) :
    task.reserved a u = 0 := by
  cases task with
  | order c o =>
    have hneg : o.userId < 0 := h
    rw [EngineTask.reserved, Asset.unit_eq_zero, zero_mul]
    omega
  | _ => rfl

/-- **An action** changes what belongs to a user by what the fills earned him. -/
theorem act_wealth (h : s.Running) (hord : s.OrdinaryAction action) (hspares : action.Spares u)
    (hreg : s.db.Registered u) (hu : 0 ≤ u) (hact : s.act action = some (s', fills)) :
    s'.wealth a u = s.wealth a u + a.earnings u fills := by
  cases act_does hact with
  | submitted hreserve =>
    rw [wealth_push, wealth_reserve, Asset.earnings_nil]
    linear_combination balance_reserve (a := a) _ hreserve
  | refused => rw [Asset.earnings_nil, add_zero]
  | queued hunfunded => rw [wealth_push, reserved_unfunded hunfunded hu, Asset.earnings_nil]
  | @engine fuel _ _ _ hstep =>
    have he : s.Ordinary (.engine fuel) := hord
    exact step_wealth h.ok h.listening (h.safe he) h.keepsEngine h.listed hreg
      (fun _ _ _ hmsg => by cases hmsg) hstep
  | @swapped n hback =>
    have hsplit := congrArg (a.credits u) (List.take_append_drop n s.dbQueueFront)
    rw [Asset.credits_append] at hsplit
    simp only [wealth, live, pending, hback, Asset.credits_nil, Asset.earnings_nil]
    linear_combination hsplit
  | committed =>
    simp only [wealth, live, pending, Asset.balance_batch hreg, Asset.credits_nil,
      Asset.earnings_nil]
    ring
  | wrote => rw [wealth_reserve, balance_execute hspares hreg, sub_self, Asset.earnings_nil]

lemma companies_act (hact : s.act action = some (s', fills)) :
    s'.market.companies = s.market.companies := by
  cases act_does hact with
  | engine hstep => exact companies_step hstep
  | _ => rfl

lemma nonNegative_act (h : s.db.NonNegative) (hact : s.act action = some (s', fills)) :
    s'.db.NonNegative := by
  cases act_does hact with
  | submitted hreserve =>
    rcases reserve_eq_ok hreserve with ⟨-, hfunds, rfl⟩ | ⟨-, hfunds, rfl⟩
    · exact nonNegative_resCash h hfunds
    · exact nonNegative_resShares h hfunds
  | engine hstep => exact nonNegative_step h hstep
  | committed => exact nonNegative_batch h _
  | wrote statement => exact nonNegative_execute statement h
  | _ => exact h

end Server

end ExchangeEngine
