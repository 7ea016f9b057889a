import ExchangeEngine.Accounts.Authentication
import ExchangeEngine.Ledger

/-!
# Who can spend

Settlements, refunds, registrations, logins, kills and restarts only ever add to what the database
says that a user has. Less becomes of it in one way: by an order message with a token that was
handed out when that user logged in.
-/

namespace ExchangeEngine

namespace Asset

variable {a : Asset} {db : Database} {u v : Int} {c : Nat} {n : Int} {companies : List Nat}

lemma le_settleCash (hn : 0 ≤ n) : a.balance db u ≤ a.balance (db.settleCash n v) u := by
  cases a with
  | shares c => exact le_rfl
  | cash =>
    simp only [balance, Database.cash, Database.settleCash]
    by_cases huv : u = v
    · subst huv
      cases db.balances u with
      | none => simp
      | some x => simpa using hn
    · simp [huv]

lemma le_settleShares (hn : 0 ≤ n) : a.balance db u ≤ a.balance (db.settleShares v c n) u := by
  cases a with
  | cash => exact le_rfl
  | shares d =>
    simp only [balance, Database.shares_settleShares]
    split_ifs
    · exact le_add_of_nonneg_right hn
    · exact (add_zero _).ge

lemma le_settleTrade {buyer seller : Int} {quantity price limit : Nat} : a.balance db u
    ≤ a.balance (db.settleTradeUnlocked buyer seller c quantity price limit) u := by
  have hshares : a.balance db u ≤ a.balance (db.settleShares buyer c quantity) u :=
    le_settleShares (Int.natCast_nonneg _)
  have hpaid := hshares.trans
    (le_settleCash (v := seller) (by positivity : (0 : Int) ≤ price * quantity))
  simp only [Database.settleTradeUnlocked]
  split_ifs
  · exact hpaid.trans (le_settleCash (by positivity))
  · exact hpaid

lemma le_applyTask (t : DbTask) : a.balance db u ≤ a.balance (applyTask db t) u := by
  simp only [applyTask]
  cases t.type with
  | settle => exact le_settleTrade
  | refundCash => exact le_settleCash (by positivity)
  | refundShares => exact le_settleShares (Int.natCast_nonneg _)
  | logTrade => exact (by cases a <;> exact le_rfl)

/-- The database worker only credits. -/
lemma le_batch (tasks : List DbTask) :
    a.balance db u ≤ a.balance (tasks.foldl applyTask db) u := by
  induction tasks generalizing db with
  | nil => exact le_rfl
  | cons t tasks ih => exact (le_applyTask t).trans ih

lemma le_initBal : a.balance db u ≤ a.balance (db.initBal v) u := by
  cases a with
  | shares c => exact le_rfl
  | cash =>
    simp only [balance, Database.cash, Database.initBal]
    by_cases huv : u = v
    · subst huv
      cases db.balances u with
      | none => simp
      | some x => simp
    · simp [huv]

lemma le_grantAll : a.balance db u ≤ a.balance (Exchange.grantAll v companies db) u := by
  induction companies generalizing db with
  | nil => exact le_rfl
  | cons c companies ih =>
    have hone : a.balance db u ≤ a.balance (db.grantShares v c 100) u :=
      le_settleShares (by decide)
    exact hone.trans ih

lemma le_gift {id : Option Int} : a.balance db u ≤ a.balance (Exchange.gift db id) u := by
  cases id with
  | some v =>
    simp only [Exchange.gift, Database.settleTrade]
    exact le_settleTrade
  | none => exact le_rfl

lemma le_giftCut {id : Option Int} {writes : Nat} :
    a.balance db u ≤ a.balance (Exchange.giftCut db id writes) u := by
  match id, writes with
  | _, 0 => exact le_rfl
  | none, 1 => exact le_rfl
  | some _, 1 => exact le_settleShares (by decide)
  | _, _ + 2 => exact le_gift

lemma le_creation {sodium : Sodium} {username password : String} {users users' : Users}
    {db' : Database} {id : Option (Int × Bool)}
    (h : Creation sodium username password db users (db', users', id)) :
    a.balance db u ≤ a.balance db' u := by
  cases h with
  | nothing => exact le_rfl
  | orphaned => exact le_rfl
  | funded => exact le_initBal

/-- Accounts created cost nobody anything. -/
lemma le_creations {sodium : Sodium} {users users' : Users} {db' : Database}
    {log : List Exchange.Entry} (h : Creations sodium db users db' users' log) :
    a.balance db u ≤ a.balance db' u := by
  cases h with
  | nothing => exact le_rfl
  | registered companies hcreation => exact (le_creation hcreation).trans le_grantAll
  | main writes hshrey hakshay =>
    exact ((le_creation hshrey).trans (le_creation hakshay)).trans le_giftCut

end Asset

namespace Server

variable {a : Asset} {s s' : Server} {now u : Int} {msg : Message} {e : Event}
  {fills : List Trade} {pushed : List DbTask}

lemma not_stress_of_orders {m : MarketState} {c : Nat} (h : msg.Orders m c false) :
    msg.stress = false := by
  cases msg with
  | order msg => exact h.2
  | _ => rfl

/-- A message that takes something queues an order of the one it takes it from. -/
lemma Handled.debit (h : Handled now s msg s') (hless : a.balance s'.db u < a.balance s.db u) :
    Queued s s' u ∧ msg.stress = false := by
  cases h with
  | @buy _ _ v c price quantity timestamp hmsg =>
    suffices huv : u = v from ⟨⟨_, rfl, huv ▸ rfl⟩, not_stress_of_orders hmsg⟩
    by_contra huv
    refine hless.ne ?_
    cases a with
    | cash => simp [Asset.balance, Database.cash, enqueueOrderTask, push, Database.resCash, huv]
    | shares c => rfl
  | @sell _ _ v c price quantity timestamp hmsg =>
    suffices huv : u = v from ⟨⟨_, rfl, huv ▸ rfl⟩, not_stress_of_orders hmsg⟩
    by_contra huv
    refine hless.ne ?_
    cases a with
    | cash => rfl
    | shares c =>
      simp [Asset.balance, Database.shares, enqueueOrderTask, push, Database.resShares, huv]
  | _ => exact absurd hless (lt_irrefl _)

/-- **A step takes something** only by a message with a token of the user it takes it from. -/
theorem step_debit (hstep : s.step e = some (s', fills, pushed))
    (hless : a.balance s'.db u < a.balance s.db u) :
    ∃ now msg, e = .message now msg ∧ s.db.validateSession now msg.token = .ok u := by
  cases step_steps hstep with
  | @handled now msg s' hmsg =>
    obtain ⟨hqueued, hstress⟩ := hmsg.debit hless
    obtain ⟨v, hauth, hv⟩ := step_authenticated hstep hqueued
    rw [if_neg (by simp [hstress])] at hv
    exact ⟨now, msg, rfl, hv ▸ hauth⟩
  | batch => exact absurd hless (Asset.le_batch _).not_gt
  | _ => exact absurd hless (lt_irrefl _)

end Server

namespace Exchange

variable {sodium : Sodium} {m : MarketState} {chance : Chance} {x x' : Exchange} {e : Event}
  {log log' : List Entry} {a : Asset} {u : Int}

/-- **Only its owner spends.** After any run from an empty database, an event that leaves a user
less cash or fewer shares in the database is an order message. Its token was handed out less than a
day ago, to a login as that user with the password of his account. A kill takes nothing, wherever it
falls. -/
theorem spent_by_owner (hsodium : sodium.Distinguishes (Entry.passwords log))
    (h : Run sodium m (fun _ _ => True) (blank m chance) x log)
    (hstep : step sodium m x e = some (x', log'))
    (hless : a.balance x'.server.db u < a.balance x.server.db u) :
    ∃ now msg, e = .server (.message now msg) ∧ ∃ g ∈ Entry.grants log,
      g.token = bindText msg.token ∧ g.userId = u ∧ now < g.time + 86400 ∧
        ⟨u, g.password⟩ ∈ Entry.accounts log := by
  cases step_steps hstep with
  | server hserver =>
    obtain ⟨now, msg, rfl, hauth⟩ := Server.step_debit hserver hless
    obtain ⟨g, hfind, htime, rfl⟩ := h.validateSession_iff.mp hauth
    have hg := List.mem_of_find?_eq_some hfind
    exact ⟨now, msg, rfl, g, hg, by simpa using List.find?_some hfind, rfl, htime,
      h.password hsodium hg⟩
  | refused => exact absurd hless (lt_irrefl _)
  | registered => exact absurd hless (Asset.le_initBal.trans Asset.le_grantAll).not_gt
  | loggedIn => exact absurd hless balance_createSess.not_lt
  | restarted hcreations => exact absurd hless (Asset.le_creations hcreations).not_gt
  | killed _ hcreations => exact absurd hless (Asset.le_creations hcreations).not_gt

/-- `shrey` bids for a share. -/
def sampleBid : Event :=
  .server (.message 6 (.order ⟨sampleGrant.token, some 1, some "BUY", some 5, some 1, some 0, false,
    none⟩))

theorem spent_by_owner_sampleBid : ∃ x log x' log',
    Run sampleSodium Server.sampleMarket (fun _ _ => True) sampleBlank x log ∧
      step sampleSodium Server.sampleMarket x sampleBid = some (x', log') ∧
      ∃ g ∈ Entry.grants log, g.userId = 1 ∧ ⟨1, g.password⟩ ∈ Entry.accounts log := by
  obtain ⟨⟨x, log⟩, hrun, hlast⟩ := Option.bind_eq_some_iff.mp
    (by decide +kernel : ((Transition.runEvents (step sampleSodium Server.sampleMarket)
      (fun _ _ => True) sampleBlank sampleLogin).bind fun r =>
        (step sampleSodium Server.sampleMarket r.1 sampleBid).map fun r' =>
          (decide (Asset.cash.balance r'.1.server.db 1 < Asset.cash.balance r.1.server.db 1),
            Entry.passwords r.2)) = some (true, ["pass123", "pass123", "secret", "pass123"]))
  obtain ⟨⟨x', log'⟩, hstep, hout⟩ := Option.map_eq_some_iff.mp hlast
  obtain ⟨hless, hpasswords⟩ := Prod.mk.inj hout
  have h := Transition.run_of_runEvents hrun
  obtain ⟨now, msg, -, g, hg, -, hu, -, hpassword⟩ :=
    spent_by_owner (sampleSodium_distinguishes (hpasswords ▸ by decide +kernel)) h hstep
      (of_decide_eq_true hless)
  exact ⟨x, log, x', log', h, hstep, g, hg, hu, hpassword⟩

end Exchange

end ExchangeEngine
