import ExchangeEngine.Ledger
import ExchangeEngine.Server.Settlement
import Mathlib.Algebra.BigOperators.Group.Finset.Basic
import Mathlib.Algebra.Order.BigOperators.Group.Finset
import Mathlib.Tactic.LinearCombination

/-!
# The wealth of a user

What belongs to a user at any moment is spread over the database, the orders queued, the books and
the database tasks not yet applied. This file says what each step does to the sum.
-/

namespace ExchangeEngine

/-- The orders resting for a company; none when it is not listed. -/
def MarketState.restingOf (m : MarketState) (c : Nat) : Book :=
  ((m.findInstrument c).map AnyBook.resting).getD Book.empty

/-- What all resting orders are worth. -/
def MarketState.held (unit : Order → Int) (m : MarketState) : Int :=
  ∑ c ∈ m.companies.toFinset, (m.restingOf c).held unit

/-- What a queued task has reserved from a user. -/
def EngineTask.reserved (a : Asset) (u : Int) : EngineTask → Int
  | .order _ o => a.unit u o * o.quantity
  | _ => 0

/-- Is the company of an order listed? -/
def EngineTask.Listed (m : MarketState) : EngineTask → Prop
  | .order c _ => c ∈ m.companies
  | _ => True

section Market

variable {m : MarketState} {c : Nat} {b b' : AnyBook} {unit : Order → Int}

lemma restingOf_of_find (h : m.findInstrument c = some b) : m.restingOf c = b.resting := by
  rw [MarketState.restingOf, h]
  rfl

lemma restingOf_setBook (d : Nat) :
    (m.setBook c b').restingOf d = if d = c then b'.resting else m.restingOf d := by
  rw [MarketState.restingOf, MarketState.findInstrument_setBook]
  split_ifs
  · rfl
  · rfl

/-- Changing one book changes the value held by the change of that book. -/
lemma held_setBook (unit : Order → Int) (b' : AnyBook) (hm : m.Ok)
    (hfind : m.findInstrument c = some b) :
    (m.setBook c b').held unit + b.resting.held unit
      = m.held unit + b'.resting.held unit := by
  have hc : c ∈ m.companies.toFinset := by
    rw [List.mem_toFinset, ← hm.listed, hfind]
    rfl
  have hother : ∑ d ∈ m.companies.toFinset.erase c, ((m.setBook c b').restingOf d).held unit
      = ∑ d ∈ m.companies.toFinset.erase c, (m.restingOf d).held unit := by
    apply Finset.sum_congr rfl
    intro d hd
    rw [restingOf_setBook, if_neg (Finset.ne_of_mem_erase hd)]
  simp only [MarketState.held]
  rw [MarketState.companies_setBook, ← Finset.add_sum_erase _ _ hc, ← Finset.add_sum_erase _ _ hc,
    hother, restingOf_setBook, if_pos rfl, restingOf_of_find hfind]
  ring

lemma held_setEngineMode {mode : EngineMode} (h : mode ≠ m.engineMode) :
    (m.setEngineMode mode).held unit = 0 := by
  simp only [MarketState.held]
  apply Finset.sum_eq_zero
  intro c _
  rw [MarketState.restingOf, MarketState.findInstrument_setEngineMode m c h]
  cases m.findInstrument c with
  | none => rfl
  | some b =>
    simp only [Option.map_some, Option.getD_some]
    rw [AnyBook.resting_make, Book.held_empty]

end Market

/-! ### One task -/

section Task

variable {m : MarketState} {task : EngineTask} {e : Effect} {a : Asset} {u : Int}

/-- **One order** on a book with listener: nothing is lost. -/
lemma credits_processedTasks {b : AnyBook} {c : Nat} {o : Order} (hvalid : b.resting.Valid)
    (hcompany : ∀ s, ∀ r ∈ b.resting s, r.companyId = c) (hc : o.companyId = c)
    (hlisten : b.tradeListener = true) :
    (b.resting.submit o).held (a.unit u) + a.credits u (processedTasks b c o)
      = b.resting.held (a.unit u) + a.earnings u (b.resting.fills o)
        + a.unit u o * o.quantity := by
  have hbook : (b.resting.submit o).held (a.unit u) + b.resting.taken (a.unit u) o
      = b.resting.held (a.unit u) + a.unit u o * b.resting.placed o :=
    Book.held_submit fun _ _ => Asset.unit_quantity
  have hfills : a.credits u ((b.resting.fills o).flatMap onTrade)
      = a.earnings u (b.resting.fills o) + b.resting.taken (a.unit u) o
        + a.unit u o * b.resting.traded o :=
    Asset.credits_fills (fun r hr => (hvalid.order _ r hr).1)
      (fun r hr => (hcompany _ r hr).trans hc.symm)
  have hrefund : a.credits u (if 0 < b.resting.rejected o then
      [refund o.userId o c (b.resting.rejected o)] else [])
      = a.unit u o * b.resting.rejected o := by
    split_ifs with hpos
    · rw [Asset.credits_cons, Asset.credits_nil, add_zero, Asset.credit_refund hc]
    · rw [Nat.eq_zero_of_not_pos hpos, Nat.cast_zero, mul_zero, Asset.credits_nil]
  have htotal : ((b.resting.traded o + b.resting.placed o + b.resting.rejected o : Nat) : Int)
      = o.quantity := congrArg Nat.cast Book.traded_add_placed_add_rejected
  push_cast at htotal
  rw [processedTasks, if_pos hlisten, Asset.credits_append, hfills, hrefund, ← htotal]
  linear_combination hbook

/-- **One task** on listed companies with listeners, without a change of the engine: what the task
had reserved and what its fills earned is in the books and in the tasks queued. -/
theorem Acts.balanced (hm : m.Ok) (hlisten : m.Listening) (haddr : task.Addressed)
    (hkeep : task.KeepsEngine m) (hlisted : task.Listed m) (h : Acts m task e) :
    e.market.held (a.unit u) + a.credits u e.pushed
      = m.held (a.unit u) + task.reserved a u + a.earnings u e.fills := by
  cases h with
  | switchEngine mode =>
    have hmode : mode = m.engineMode := hkeep
    rw [hmode, MarketState.setEngineMode_self]
    simp [EngineTask.reserved]
  | snapshot => simp [EngineTask.reserved]
  | @orderUnlisted c o hfind =>
    have hc : c ∈ m.companies := hlisted
    rw [← hm.listed, hfind] at hc
    cases hc
  | @orderRefused c o b hfind hcan =>
    have hc : o.companyId = c := haddr
    rw [Asset.credits_cons, Asset.credit_refund hc]
    simp [EngineTask.reserved]
  | @orderProcessed c id o b r hfind hcan hs hlistener =>
    have hheld := held_setBook (a.unit u) r.book hm hfind
    have hone := credits_processedTasks (a := a) (u := u) (o := { o with id := id })
      (hm.inv c b hfind).valid (hm.company c b hfind) haddr (hlisten c b hfind)
    rw [hs.resting] at hheld
    rw [Asset.unit_id] at hone
    rw [EngineTask.reserved]
    linear_combination hheld + hone
  | cancelUnlisted => simp [EngineTask.reserved]
  | @cancelMissed c id userId b b' hfind hnone hinv hl hresting =>
    have hheld := held_setBook (a.unit u) b' hm hfind
    rw [hresting] at hheld
    simp only [EngineTask.reserved, Asset.credits_nil, Asset.earnings_nil]
    linear_combination hheld
  | @cancelled c id userId b b' x hfind hx hinv hl hresting =>
    have hvalid := (hm.inv c b hfind).valid
    have hheld := held_setBook (a.unit u) b' hm hfind
    obtain ⟨⟨s, hmem⟩, rfl, rfl⟩ := (Book.find_eq_some_iff hvalid).mp hx
    have hremove := hvalid.held_remove (a.unit u) hmem
    rw [hresting] at hheld
    rw [Asset.credits_cons, Asset.credits_nil, Asset.credit_refund (hm.company c b hfind s x hmem)]
    simp only [EngineTask.reserved, Asset.earnings_nil]
    linear_combination hheld + hremove

end Task

/-! ### The whole server -/

namespace Server

/-- What the live orders of a user have reserved, queued or resting. -/
def live (a : Asset) (u : Int) (s : Server) : Int :=
  (s.engineQueue.map (EngineTask.reserved a u)).sum + s.market.held (a.unit u)

/-- What the database tasks not yet applied will add. -/
def pending (a : Asset) (u : Int) (s : Server) : Int :=
  a.credits u s.dbQueueFront + a.credits u s.dbQueueBack

/-- Everything that belongs to a user. -/
def wealth (a : Asset) (u : Int) (s : Server) : Int :=
  a.balance s.db u + s.live a u + s.pending a u

/-- The task popped, if any, is not an order for a company that is not listed. -/
def ListedEvent (s : Server) : Event → Prop
  | .engine _ => ∀ task ∈ s.engineQueue.head?, task.Listed s.market
  | _ => True

variable {a : Asset} {u : Int} {s s' : Server} {now : Int} {msg : Message}

lemma wealth_push (task : EngineTask) :
    (s.push task).wealth a u = s.wealth a u + task.reserved a u := by
  simp only [wealth, live, pending, push, List.map_append, List.sum_append, List.map_cons,
    List.map_nil, List.sum_singleton]
  ring

lemma wealth_reserve (db : Database) :
    ({ s with db := db } : Server).wealth a u
      = s.wealth a u + (a.balance db u - a.balance s.db u) := by
  simp only [wealth, live, pending]
  ring

/-- **A message** moves funds from the database to the order it queues. Synthetic orders reserve
nothing from anybody else. -/
lemma Handled.wealth_eq
    (hstress : ∀ c, msg.Orders s.market c true → 0 ≤ u) (h : Handled now s msg s') :
    s'.wealth a u = s.wealth a u := by
  cases h with
  | buy price quantity timestamp hmsg hauth hfunds =>
    rw [enqueueOrderTask, wealth_push, wealth_reserve, EngineTask.reserved]
    cases a with
    | cash =>
      simp only [Asset.balance, Asset.unit_cash, Database.cash_resCash (by positivity) hfunds,
        @eq_comm _ u, true_and]
      split_ifs <;> ring
    | shares d => simp [Asset.balance, Asset.unit_shares]
  | sell price quantity timestamp hmsg hauth hfunds =>
    rw [enqueueOrderTask, wealth_push, wealth_reserve, EngineTask.reserved]
    cases a with
    | cash => simp [Asset.balance, Asset.unit_cash]
    | shares d =>
      simp only [Asset.balance, Asset.unit_shares,
        Database.shares_resShares (Int.natCast_nonneg _) hfunds, @eq_comm _ u, @eq_comm _ d,
        true_and]
      split_ifs <;> ring
  | @stress _ v c side price quantity timestamp hmsg hv =>
    have hne : v ≠ u := (lt_of_lt_of_le hv (hstress c hmsg)).ne
    rw [enqueueOrderTask, wealth_push, EngineTask.reserved, Asset.unit_eq_zero hne, zero_mul,
      add_zero]
  | cancel =>
    rw [wealth_push]
    exact add_zero _
  | switchEngine =>
    rw [wealth_push]
    exact add_zero _
  | snapshot =>
    rw [wealth_push]
    exact add_zero _

lemma Handled.registered (h : Handled now s msg s') : s'.db.Registered u ↔ s.db.Registered u := by
  cases h with
  | buy => exact Database.registered_resCash
  | _ => exact Iff.rfl

lemma Handled.market (h : Handled now s msg s') : s'.market = s.market := by
  cases h <;> rfl

lemma registered_step {e : Event} {fills : List Trade} {pushed : List DbTask}
    (h : s.step e = some (s', fills, pushed)) : s'.db.Registered u ↔ s.db.Registered u := by
  cases step_steps h with
  | handled hmsg => exact hmsg.registered
  | batch => exact Asset.registered_batch _
  | _ => exact Iff.rfl

/-- What the engine thread did to a user's wealth, whatever the task. -/
lemma wealth_task {task : EngineTask} {queue : List EngineTask} {e : Effect}
    (hqueue : s.engineQueue = task :: queue) :
    ({ s with
        market := e.market
        engineQueue := queue
        dbQueueFront := s.dbQueueFront ++ e.pushed } : Server).wealth a u
      = s.wealth a u + (e.market.held (a.unit u) + a.credits u e.pushed
        - (s.market.held (a.unit u) + task.reserved a u)) := by
  simp only [wealth, live, pending, hqueue, List.map_cons, List.sum_cons, Asset.credits_append]
  ring

/-- **A step** changes a user's wealth by what the fills earned him. -/
theorem step_wealth {e : Event} {fills : List Trade} {pushed : List DbTask} (hok : s.Ok)
    (hlisten : s.market.Listening) (hsafe : s.SafeEvent e) (hkeep : s.KeepsEngine e)
    (hlisted : s.ListedEvent e) (hu : s.db.Registered u)
    (hstress : ∀ now msg c, e = .message now msg → msg.Orders s.market c true → 0 ≤ u)
    (h : s.step e = some (s', fills, pushed)) :
    s'.wealth a u = s.wealth a u + a.earnings u fills := by
  cases step_steps h with
  | rejected => rw [Asset.earnings_nil, add_zero]
  | handled hmsg =>
    rw [hmsg.wealth_eq fun c hc => hstress _ _ c rfl hc, Asset.earnings_nil, add_zero]
  | idle => rw [Asset.earnings_nil, add_zero]
  | @task fuel task queue e hqueue hrun =>
    have hhead : task ∈ s.engineQueue.head? := by rw [hqueue]; rfl
    have haddr : task.Addressed := hok.addressed _ (by rw [hqueue]; exact List.mem_cons_self)
    have hbalanced := (hok.acts hsafe hqueue hrun).balanced (a := a) (u := u) hok.market hlisten
      haddr (hkeep _ hhead) (hlisted _ hhead)
    rw [wealth_task hqueue]
    linear_combination hbalanced
  | swap hback =>
    simp only [wealth, live, pending, hback, Asset.credits_nil, Asset.earnings_nil]
    ring
  | batch hback =>
    simp only [wealth, live, pending, Asset.balance_batch hu, Asset.credits_nil,
      Asset.earnings_nil]
    ring

/-- While the engine is not changed, every book keeps its listener. -/
lemma listening_step {e : Event} {fills : List Trade} {pushed : List DbTask}
    (hlisten : s.market.Listening) (hkeep : s.KeepsEngine e)
    (h : s.step e = some (s', fills, pushed)) : s'.market.Listening := by
  cases step_steps h with
  | handled hmsg => exact hmsg.market ▸ hlisten
  | task hqueue hrun =>
    exact (runTask_settled hlisten (hkeep _ (by rw [hqueue]; rfl)) hrun).2
  | _ => exact hlisten

/-- Which companies are listed never changes. -/
lemma companies_step {e : Event} {fills : List Trade} {pushed : List DbTask}
    (h : s.step e = some (s', fills, pushed)) : s'.market.companies = s.market.companies := by
  cases step_steps h with
  | handled hmsg => rw [hmsg.market]
  | task _ hrun => exact (runTask_branch hrun).companies
  | _ => rfl

end Server

end ExchangeEngine
