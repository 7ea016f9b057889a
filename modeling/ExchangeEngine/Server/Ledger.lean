import ExchangeEngine.Server.Wealth

/-!
# The ledger of an account

In ordinary operation, on listed companies and without changes of the engine, what belongs to an
account is what it started with and what its fills earned, however sessions, engine thread and
database worker interleave. No balance ever gets negative.
-/

namespace ExchangeEngine

/-- Rows with nothing below zero. -/
def Database.NonNegative (db : Database) : Prop :=
  (∀ u x, db.balances u = some x → 0 ≤ x) ∧ ∀ u c x, db.portfolios u c = some x → 0 ≤ x

/-- A queued task in ordinary operation. -/
def EngineTask.Ordinary (m : MarketState) : EngineTask → Prop
  | .order c _ => c ∈ m.companies
  | .cancel _ id _ => id ≠ 0
  | .snapshot _ => True
  | .switchEngine _ => False

/-- Has the book of an order ids left? -/
def EngineTask.HasRoom (m : MarketState) : EngineTask → Prop
  | .order c _ => ∀ b ∈ m.findInstrument c, b.orderIdCounter + 1 < 2 ^ 32
  | _ => True

namespace Server

/-- Orders go to listed companies, cancellations carry a non-zero id, nobody switches the engine. -/
def Message.Ordinary (m : MarketState) : Message → Prop
  | .order msg => msg.companyId.getD m.defaultCompanyId ∈ m.companies
  | .marketOrder msg => msg.companyId.getD m.defaultCompanyId ∈ m.companies
  | .cancel msg => msg.orderId ≠ some 0
  | .switchEngine _ => False
  | .snapshot _ => True

/-- Is it a stress order? -/
def Message.stress : Message → Bool
  | .order msg => msg.stress
  | _ => false

/-- Ordinary operation: ordinary messages, and fewer than `2 ^ 32` submissions for each book. -/
def Ordinary (s : Server) : Event → Prop
  | .message _ msg => msg.Ordinary s.market
  | .engine _ => ∀ task ∈ s.engineQueue.head?, task.HasRoom s.market
  | .db => True

/-- Ordinary operation without stress orders. -/
def Honest (s : Server) (e : Event) : Prop :=
  s.Ordinary e ∧ ∀ now msg, e = .message now msg → msg.stress = false

instance (m : MarketState) : (task : EngineTask) → Decidable (task.HasRoom m)
  | .order c _ => inferInstanceAs (Decidable (∀ b ∈ m.findInstrument c, _))
  | .cancel _ _ _ | .switchEngine _ | .snapshot _ => isTrue trivial

instance (m : MarketState) : (msg : Message) → Decidable (msg.Ordinary m)
  | .order _ | .marketOrder _ => inferInstanceAs (Decidable (_ ∈ m.companies))
  | .cancel msg => inferInstanceAs (Decidable (msg.orderId ≠ some 0))
  | .switchEngine _ => isFalse id
  | .snapshot _ => isTrue trivial

instance (s : Server) : (e : Event) → Decidable (s.Ordinary e)
  | .message _ msg => inferInstanceAs (Decidable (msg.Ordinary s.market))
  | .engine _ => inferInstanceAs (Decidable (∀ task ∈ s.engineQueue.head?, _))
  | .db => isTrue trivial

instance (s : Server) : (e : Event) → Decidable (s.Honest e)
  | .message now msg =>
    decidable_of_iff (s.Ordinary (.message now msg) ∧ msg.stress = false)
      ⟨fun h => ⟨h.1, fun _ _ he => by cases he; exact h.2⟩, fun h => ⟨h.1, h.2 _ _ rfl⟩⟩
  | .engine fuel =>
    decidable_of_iff (s.Ordinary (.engine fuel))
      ⟨fun h => ⟨h, fun _ _ he => by cases he⟩, fun h => h.1⟩
  | .db => isTrue ⟨trivial, fun _ _ he => by cases he⟩

/-- What ordinary operation keeps up. -/
structure Running (s : Server) : Prop where
  ok : s.Ok
  listening : s.market.Listening
  queue : ∀ task ∈ s.engineQueue, task.Ordinary s.market

variable {a : Asset} {u : Int} {s s' : Server} {e : Event} {fills : List Trade}
  {pushed : List DbTask} {now : Int} {msg : Message}

lemma Running.head {task : EngineTask} (h : s.Running) (ht : task ∈ s.engineQueue.head?) :
    task.Ordinary s.market :=
  h.queue task (List.mem_of_mem_head? ht)

lemma Running.safe (h : s.Running) (he : s.Ordinary e) : s.SafeEvent e := by
  cases e with
  | engine fuel =>
    intro task ht
    have hroom := he task ht
    have hord := h.head ht
    cases task with
    | order c o => exact hroom
    | cancel c id userId => exact fun b _ => AnyBook.not_staleMatch_of_ne_zero hord
    | snapshot c => trivial
    | switchEngine mode => trivial
  | message now msg => trivial
  | db => trivial

lemma Running.keepsEngine (h : s.Running) : s.KeepsEngine e := by
  cases e with
  | engine fuel =>
    intro task ht
    have hord := h.head ht
    cases task with
    | switchEngine mode => exact hord.elim
    | _ => trivial
  | message now msg => trivial
  | db => trivial

lemma Running.listed (h : s.Running) : s.ListedEvent e := by
  cases e with
  | engine fuel =>
    intro task ht
    have hord := h.head ht
    cases task with
    | order c o => exact hord
    | _ => trivial
  | message now msg => trivial
  | db => trivial

/-- The task that an ordinary message queues is ordinary. -/
lemma Handled.ordinary (hmsg : msg.Ordinary s.market) (h : Handled now s msg s') :
    ∃ task, s'.engineQueue = s.engineQueue ++ [task] ∧ task.Ordinary s.market := by
  have horders : ∀ c stress, msg.Orders s.market c stress → c ∈ s.market.companies := by
    intro c stress hc
    cases msg with
    | order msg => exact hc.1 ▸ hmsg
    | marketOrder msg => exact hc.1 ▸ hmsg
    | _ => exact hc.elim
  cases h with
  | buy _ _ _ hc => exact ⟨_, rfl, horders _ _ hc⟩
  | sell _ _ _ hc => exact ⟨_, rfl, horders _ _ hc⟩
  | stress _ _ _ _ hc => exact ⟨_, rfl, horders _ _ hc⟩
  | cancel _ hid =>
    refine ⟨_, rfl, ?_⟩
    rintro rfl
    exact hmsg hid
  | switchEngine => exact hmsg.elim
  | snapshot => exact ⟨_, rfl, trivial⟩

/-- **One ordinary step.** -/
theorem Running.step (h : s.Running) (he : s.Ordinary e)
    (hstep : s.step e = some (s', fills, pushed)) : s'.Running := by
  have hcompanies := companies_step hstep
  refine ⟨h.ok.step (h.safe he) hstep, listening_step h.listening h.keepsEngine hstep, ?_⟩
  have hsame : ∀ task : EngineTask, task.Ordinary s.market → task.Ordinary s'.market := by
    intro task ht
    cases task with
    | order c o =>
      have hc : c ∈ s.market.companies := ht
      rw [← hcompanies] at hc
      exact hc
    | _ => exact ht
  intro task htask
  apply hsame
  cases step_steps hstep with
  | handled hmsg =>
    obtain ⟨t, hqueue, ht⟩ := hmsg.ordinary he
    rw [hqueue] at htask
    rcases List.mem_append.mp htask with htask | htask
    · exact h.queue task htask
    · rwa [List.mem_singleton.mp htask]
  | task hqueue hrun =>
    apply h.queue task
    rw [hqueue]
    exact List.mem_cons_of_mem _ htask
  | _ => exact h.queue task htask

lemma running_start {companies : List Nat} {m : MarketState}
    (hm : MarketState.new companies = .ok m) (db : Database) : (start m db).Running where
  ok := ok_start (ok_new hm) db
  listening := listening_start hm db
  queue := by
    intro task h
    exact absurd h List.not_mem_nil

/-- **Every server in ordinary operation** is running. -/
theorem Run.running {allowed : Server → Event → Prop} {s₀ : Server}
    (hord : ∀ s e, allowed s e → s.Ordinary e) (h₀ : s₀.Running)
    (h : Run allowed s₀ s fills pushed) : s.Running := by
  induction h with
  | refl => exact h₀
  | step _ hallowed hstep ih => exact ih.step (hord _ _ hallowed) hstep

/-! ### Nothing gets negative -/

lemma nonNegative_settleCash {db : Database} {n v : Int} (h : db.NonNegative) (hn : 0 ≤ n) :
    (db.settleCash n v).NonNegative := by
  refine ⟨?_, h.2⟩
  intro w x hx
  by_cases hw : w = v
  · subst hw
    obtain ⟨y, hy, rfl⟩ : ∃ y, db.balances w = some y ∧ y + n = x := by
      simpa [Database.settleCash] using hx
    exact add_nonneg (h.1 w y hy) hn
  · apply h.1 w x
    simpa [Database.settleCash, hw] using hx

lemma nonNegative_resCash {db : Database} {n v : Int} (h : db.NonNegative)
    (hfunds : n ≤ db.cash v) : (db.resCash n v).NonNegative := by
  refine ⟨?_, h.2⟩
  intro w x hx
  by_cases hw : w = v
  · subst hw
    obtain ⟨y, hy, rfl⟩ : ∃ y, db.balances w = some y ∧ y - n = x := by
      simpa [Database.resCash] using hx
    have hcash : db.cash w = y := by simp [Database.cash, hy]
    exact sub_nonneg.mpr (hcash ▸ hfunds)
  · apply h.1 w x
    simpa [Database.resCash, hw] using hx

lemma nonNegative_settleShares {db : Database} {n v : Int} {c : Nat} (h : db.NonNegative)
    (hn : 0 ≤ n) : (db.settleShares v c n).NonNegative := by
  refine ⟨h.1, ?_⟩
  intro w d x hx
  by_cases hw : w = v ∧ d = c
  · obtain ⟨rfl, rfl⟩ := hw
    have hx : (db.portfolios w d).getD 0 + n = x := by simpa [Database.settleShares] using hx
    rw [← hx]
    refine add_nonneg ?_ hn
    cases hy : db.portfolios w d with
    | none => exact le_rfl
    | some y => exact h.2 w d y hy
  · apply h.2 w d x
    rw [← hx]
    by_cases hwv : w = v
    · have hd : d ≠ c := fun hd => hw ⟨hwv, hd⟩
      subst hwv
      simp [Database.settleShares, hd]
    · simp [Database.settleShares, hwv]

lemma nonNegative_resShares {db : Database} {n v : Int} {c : Nat} (h : db.NonNegative)
    (hfunds : n ≤ db.shares v c) : (db.resShares n v c).NonNegative := by
  refine ⟨h.1, ?_⟩
  intro w d x hx
  by_cases hw : w = v ∧ d = c
  · obtain ⟨rfl, rfl⟩ := hw
    obtain ⟨y, hy, rfl⟩ : ∃ y, db.portfolios w d = some y ∧ y - n = x := by
      simpa [Database.resShares] using hx
    have hshares : db.shares w d = y := by simp [Database.shares, hy]
    exact sub_nonneg.mpr (hshares ▸ hfunds)
  · apply h.2 w d x
    rw [← hx]
    by_cases hwv : w = v
    · have hd : d ≠ c := fun hd => hw ⟨hwv, hd⟩
      subst hwv
      simp [Database.resShares, hd]
    · simp [Database.resShares, hwv]

lemma nonNegative_initBal {db : Database} {u : Int} (h : db.NonNegative) :
    (db.initBal u).NonNegative := by
  refine ⟨?_, h.2⟩
  intro w x hx
  by_cases hw : w = u
  · subst hw
    cases hold : db.balances w with
    | none =>
      have hx : 1000000 = x := by simpa [Database.initBal, hold] using hx
      exact hx ▸ by decide
    | some y =>
      have hx : y = x := by simpa [Database.initBal, hold] using hx
      exact hx ▸ h.1 w y hold
  · exact h.1 w x (by simpa [Database.initBal, hw] using hx)

lemma nonNegative_applyTask {db : Database} (h : db.NonNegative) (t : DbTask) :
    (applyTask db t).NonNegative := by
  simp only [applyTask]
  cases t.type with
  | settle =>
    have hpaid := nonNegative_settleCash (v := t.sellerId)
      (nonNegative_settleShares (v := t.buyerId) (c := t.companyId) h
        (Int.natCast_nonneg t.quantity)) (by positivity : (0 : Int) ≤ t.price * t.quantity)
    simp only [Database.settleTradeUnlocked]
    split_ifs
    · exact nonNegative_settleCash hpaid (by positivity)
    · exact hpaid
  | refundCash => exact nonNegative_settleCash h (by positivity)
  | refundShares => exact nonNegative_settleShares h (Int.natCast_nonneg _)
  | logTrade => exact h

lemma nonNegative_batch {db : Database} (h : db.NonNegative) (tasks : List DbTask) :
    (tasks.foldl applyTask db).NonNegative := by
  induction tasks generalizing db with
  | nil => exact h
  | cons t tasks ih => exact ih (nonNegative_applyTask h t)

/-- **No step makes a balance negative.** -/
theorem nonNegative_step (h : s.db.NonNegative) (hstep : s.step e = some (s', fills, pushed)) :
    s'.db.NonNegative := by
  cases step_steps hstep with
  | handled hmsg =>
    cases hmsg with
    | buy _ _ _ _ _ hfunds => exact nonNegative_resCash h hfunds
    | sell _ _ _ _ _ hfunds => exact nonNegative_resShares h hfunds
    | _ => exact h
  | batch => exact nonNegative_batch h _
  | _ => exact h

/-! ### The ledger -/

lemma not_orders_of_not_stress {m : MarketState} {c : Nat} (h : msg.stress = false) :
    ¬ msg.Orders m c true := by
  cases msg with
  | order msg =>
    intro hc
    have hs : msg.stress = false := h
    exact absurd (hs.symm.trans hc.2) Bool.false_ne_true
  | marketOrder msg => exact fun hc => absurd hc.2.symm Bool.false_ne_true
  | _ => exact fun hc => hc

lemma held_start {companies : List Nat} {m : MarketState} {db : Database}
    (hm : MarketState.new companies = .ok m) (unit : Order → Int) :
    (start m db).market.held unit = 0 := by
  apply Finset.sum_eq_zero
  intro c _
  have hbook : (start m db).market.restingOf c = Book.empty := by
    simp only [MarketState.restingOf]
    cases hb : (start m db).market.findInstrument c with
    | none => rfl
    | some b => exact resting_start hm hb
  rw [hbook, Book.held_empty]

lemma wealth_start {companies : List Nat} {m : MarketState} {db : Database}
    (hm : MarketState.new companies = .ok m) : (start m db).wealth a u = a.balance db u := by
  simp only [wealth, live, pending, held_start hm]
  simp [start]

/-- **Ordinary operation** changes the wealth of an account by what its fills earn. An account with
a negative id is left out when there are stress orders. -/
theorem Run.wealth_eq {allowed : Server → Event → Prop} {companies : List Nat} {m : MarketState}
    {db : Database} (hm : MarketState.new companies = .ok m) (hu : db.Registered u)
    (hord : ∀ s e, allowed s e → s.Ordinary e)
    (hstress : ∀ s now msg c, allowed s (.message now msg) → msg.Orders s.market c true → 0 ≤ u)
    (h : Run allowed (start m db) s fills pushed) :
    s.wealth a u = a.balance db u + a.earnings u fills := by
  suffices hs : s.wealth a u = a.balance db u + a.earnings u fills ∧ s.db.Registered u from hs.1
  induction h with
  | refl => exact ⟨(wealth_start hm).trans (add_zero _).symm, hu⟩
  | @step s s' fills fills' pushed pushed' e hrun hallowed hstep ih =>
    obtain ⟨ih, hreg⟩ := ih
    have hrunning := Run.running hord (running_start hm db) hrun
    have hlast := step_wealth (a := a) hrunning.ok hrunning.listening
      (hrunning.safe (hord _ _ hallowed)) hrunning.keepsEngine hrunning.listed hreg
      (fun now msg c hmsg hc => hstress s now msg c (hmsg ▸ hallowed) hc) hstep
    refine ⟨?_, (registered_step hstep).mpr hreg⟩
    rw [hlast, ih, Asset.earnings_append, add_assoc]

/-- **The ledger.** In every state reached by honest operation, whatever the interleaving, an
account has, for cash and for the shares of each company, in the database, in its live orders and in
credits still pending, what it had at first and what its fills earned; and nothing is negative. -/
theorem ledger {companies : List Nat} {m : MarketState} {db : Database}
    (hm : MarketState.new companies = .ok m) (hdb : db.NonNegative)
    (h : Run Honest (start m db) s fills pushed) :
    (∀ u, db.Registered u → ∀ a : Asset,
      a.balance s.db u + s.live a u + s.pending a u = a.balance db u + a.earnings u fills) ∧
    s.db.NonNegative := by
  constructor
  · intro u hu a
    refine Run.wealth_eq hm hu (fun _ _ he => he.1) ?_ h
    intro s now msg c he hc
    exact absurd hc (not_orders_of_not_stress (he.2 now msg rfl))
  · induction h with
    | refl => exact hdb
    | step _ _ hstep ih => exact nonNegative_step ih hstep

lemma nonNegative_sampleDb : sampleDb.NonNegative := by
  constructor
  · intro u x h
    have hx : (u = 7 ∨ u = 8) ∧ 1000 = x := by simpa [sampleDb] using h
    exact hx.2 ▸ by decide
  · intro u c x h
    have hx : ((u = 7 ∨ u = 8) ∧ c = 1) ∧ 10 = x := by simpa [sampleDb] using h
    exact hx.2 ▸ by decide

theorem ledger_sampleTrading : ∃ s fills pushed,
    Run Honest (start sampleMarket sampleDb) s fills pushed ∧ fills ≠ [] ∧
      Asset.cash.balance s.db 7 + s.live .cash 7 + s.pending .cash 7
        = Asset.cash.balance sampleDb 7 + Asset.cash.earnings 7 fills ∧ s.db.NonNegative := by
  obtain ⟨⟨s, fills, pushed⟩, hrun, hfills⟩ := Option.map_eq_some_iff.mp
    (by decide +kernel : (((start sampleMarket sampleDb).runEvents Honest sampleTrading).map
      fun x => x.2.1.isEmpty) = some false)
  have h := run_of_runEvents hrun
  obtain ⟨hledger, hnonneg⟩ := ledger new_sampleMarket nonNegative_sampleDb h
  refine ⟨s, fills, pushed, h, ?_, hledger 7 rfl .cash, hnonneg⟩
  rintro rfl
  cases hfills

end Server

end ExchangeEngine
