import ExchangeEngine.Server.Stress
import Mathlib.Tactic.Linarith

/-!
# Whose orders they are

Without stress orders everything that is queued or rests belongs to somebody with a session. Then
nothing that the server does adds to what all accounts own together: a switch of the engine, an
order for a company that is not listed, or a fill that nobody settles can only take away.
-/

namespace ExchangeEngine

/-! ### One task -/

/-- The user of a task, if there is one, is among `A`. -/
def EngineTask.Of (A : Finset Int) : EngineTask → Prop
  | .order _ o => o.userId ∈ A
  | .cancel _ _ userId => userId ∈ A
  | _ => True

/-- The task credits nobody outside `A`. -/
def DbTask.Credits (A : Finset Int) (t : DbTask) : Prop :=
  t.buyerId ∈ A ∧ (t.type = .settle → t.sellerId ∈ A)

/-- All resting orders are from `A`. -/
def MarketState.RestingOf (m : MarketState) (A : Finset Int) : Prop :=
  ∀ c b, m.findInstrument c = some b → ∀ s, ∀ r ∈ b.resting s, r.userId ∈ A

section Task

variable {m : MarketState} {task : EngineTask} {e : Effect} {A A' : Finset Int} {b : AnyBook}
  {o : Order} {a : Asset} {u : Int}

lemma DbTask.Credits.mono {t : DbTask} (hsub : A ⊆ A') (h : t.Credits A) : t.Credits A' :=
  ⟨hsub h.1, fun ht => hsub (h.2 ht)⟩

lemma credits_eq_zero {tasks : List DbTask} (h : ∀ t ∈ tasks, t.Credits A) (hu : u ∉ A) :
    a.credits u tasks = 0 := by
  induction tasks with
  | nil => rfl
  | cons t tasks ih =>
    have hbuyer : u ≠ t.buyerId := fun heq => hu (heq ▸ (h t List.mem_cons_self).1)
    have hseller : t.type = .settle → u ≠ t.sellerId := fun ht heq =>
      hu (heq ▸ (h t List.mem_cons_self).2 ht)
    rw [Asset.credits_cons, ih fun x hx => h x (List.mem_cons_of_mem _ hx), add_zero]
    cases a with
    | cash => cases ht : t.type <;> simp [Asset.credit, ht, hbuyer, hseller]
    | shares c => cases ht : t.type <;> simp [Asset.credit, ht, hbuyer]

lemma credits_onTrade_of_among {ts : List Trade} (h : ∀ t ∈ ts, t.Among A) :
    ∀ x ∈ ts.flatMap onTrade, x.Credits A := by
  intro x hx
  obtain ⟨t, ht, hx⟩ := List.mem_flatMap.mp hx
  rcases List.mem_pair.mp hx with rfl | rfl
  · exact ⟨(h t ht).1, fun _ => (h t ht).2⟩
  · exact ⟨(h t ht).1, fun htype => by cases htype⟩

lemma credits_refund_of_mem {c q : Nat} (h : u ∈ A) : (refund u o c q).Credits A := by
  simp only [refund]
  split_ifs
  · exact ⟨h, fun htype => by cases htype⟩
  · exact ⟨h, fun htype => by cases htype⟩

/-- An order of `A` trades with orders of `A`. -/
lemma fills_among (ho : o.userId ∈ A) (hrest : ∀ s, ∀ r ∈ b.resting s, r.userId ∈ A) :
    ∀ t ∈ b.resting.fills o, t.Among A := by
  intro t ht
  obtain ⟨⟨r, q⟩, hr, rfl⟩ := List.mem_map.mp ht
  have hmem : r ∈ b.resting (!o.side) :=
    (Book.mem_crossing.mp (Consume.mem_avail (Consume.mem_of_mem_takes hr)).1).1
  cases hs : o.side with
  | true => exact ⟨ho, hrest _ r hmem⟩
  | false => exact ⟨hrest _ r hmem, ho⟩

lemma MarketState.RestingOf.setBook {c : Nat} {b' : AnyBook} (h : m.RestingOf A)
    (hb' : ∀ s, ∀ r ∈ b'.resting s, r.userId ∈ A) : (m.setBook c b').RestingOf A := by
  intro d x hx
  rw [MarketState.findInstrument_setBook] at hx
  split_ifs at hx
  · rwa [← Option.some.inj hx]
  · exact h d x hx

lemma MarketState.RestingOf.setEngineMode (h : m.RestingOf A) (mode : EngineMode) :
    (m.setEngineMode mode).RestingOf A := by
  by_cases hmode : mode = m.engineMode
  · rwa [hmode, MarketState.setEngineMode_self]
  · intro c b hb s r hr
    rw [MarketState.findInstrument_setEngineMode m c hmode] at hb
    obtain ⟨-, -, rfl⟩ := Option.map_eq_some_iff.mp hb
    rw [AnyBook.resting_make] at hr
    exact absurd hr List.not_mem_nil

/-- **One task** of `A` on orders of `A`: its fills are among `A`, it credits nobody else, and it
leaves orders of `A`. -/
theorem Acts.owned (hm : m.Ok) (htask : task.Of A) (hrest : m.RestingOf A) (h : Acts m task e) :
    (∀ t ∈ e.fills, t.Among A) ∧ (∀ t ∈ e.pushed, t.Credits A) ∧ e.market.RestingOf A := by
  cases h with
  | switchEngine mode => exact ⟨by simp, by simp, hrest.setEngineMode mode⟩
  | orderRefused hfind hcan =>
    refine ⟨by simp, ?_, hrest⟩
    intro t ht
    rw [List.mem_singleton.mp ht]
    exact credits_refund_of_mem htask
  | @orderProcessed c id o b r hfind hcan hs hlisten =>
    have hamong := fills_among (o := { o with id := id }) htask (hrest c b hfind)
    refine ⟨hamong, ?_, hrest.setBook ?_⟩
    · intro t ht
      rcases List.mem_append.mp ht with ht | ht
      · split_ifs at ht
        · exact credits_onTrade_of_among hamong t ht
        · exact absurd ht List.not_mem_nil
      · split_ifs at ht with hrej
        · rw [List.mem_singleton.mp ht]
          exact credits_refund_of_mem htask
        · exact absurd ht List.not_mem_nil
    · intro s x hx
      rw [hs.resting] at hx
      rcases Book.mem_submit (hm.inv c b hfind).valid.pos hx with ⟨-, rfl⟩ | ⟨r, hr, q, rfl⟩
      · exact htask
      · exact hrest c b hfind s r hr
  | @cancelMissed c id userId b b' hfind hnone hinv hlisten hresting =>
    refine ⟨by simp, by simp, hrest.setBook ?_⟩
    rw [hresting]
    exact hrest c b hfind
  | @cancelled c id userId b b' x hfind hx hinv hlisten hresting =>
    refine ⟨by simp, ?_, hrest.setBook ?_⟩
    · intro t ht
      rw [List.mem_singleton.mp ht]
      exact credits_refund_of_mem htask
    · intro s r hr
      rw [hresting] at hr
      exact hrest c b hfind s r ((Book.remove_sublist _ _ _).subset hr)
  | _ => exact ⟨by simp, by simp, hrest⟩

/-- One order: what it leaves in the book and has credited is at most what was there before and what
its settled fills earned. -/
lemma credits_processedTasks_le {c : Nat} (hvalid : b.resting.Valid)
    (hcompany : ∀ s, ∀ r ∈ b.resting s, r.companyId = c) (hc : o.companyId = c) :
    (b.resting.submit o).held (a.unit u) + a.credits u (processedTasks b c o)
      ≤ b.resting.held (a.unit u)
        + a.earnings u (if b.tradeListener then b.resting.fills o else [])
        + a.unit u o * o.quantity := by
  cases hlisten : b.tradeListener with
  | true =>
    rw [if_pos rfl]
    exact (credits_processedTasks hvalid hcompany hc hlisten).le
  | false =>
    have hbook : (b.resting.submit o).held (a.unit u) + b.resting.taken (a.unit u) o
        = b.resting.held (a.unit u) + a.unit u o * b.resting.placed o :=
      Book.held_submit fun _ _ => Asset.unit_quantity
    have htaken : 0 ≤ b.resting.taken (a.unit u) o := by
      refine List.sum_nonneg fun x hx => ?_
      obtain ⟨r, -, rfl⟩ := List.mem_map.mp hx
      exact mul_nonneg Asset.unit_nonneg (Int.natCast_nonneg _)
    have hrefund : a.credits u (processedTasks b c o)
        = a.unit u o * b.resting.rejected o := by
      rw [processedTasks, hlisten]
      simp only [Bool.false_eq_true, if_false, List.flatMap_nil, List.nil_append]
      split_ifs with hpos
      · rw [Asset.credits_cons, Asset.credits_nil, add_zero, Asset.credit_refund hc]
      · rw [Nat.eq_zero_of_not_pos hpos, Nat.cast_zero, mul_zero, Asset.credits_nil]
    have htraded : 0 ≤ a.unit u o * b.resting.traded o :=
      mul_nonneg Asset.unit_nonneg (Int.natCast_nonneg _)
    have htotal : ((b.resting.traded o + b.resting.placed o + b.resting.rejected o : Nat) : Int)
        = o.quantity := congrArg Nat.cast Book.traded_add_placed_add_rejected
    push_cast at htotal
    rw [hrefund, if_neg Bool.false_ne_true, Asset.earnings_nil, add_zero, ← htotal]
    linarith only [hbook, htaken, htraded]

lemma market_held_nonneg : 0 ≤ m.held (a.unit u) :=
  Finset.sum_nonneg fun _ _ => held_nonneg fun _ => Asset.unit_nonneg

/-- What a user has in the database is a part of what belongs to him. -/
lemma balance_le_wealth (s : Server) : a.balance s.db u ≤ s.wealth a u := by
  have hcredit : ∀ t : DbTask, 0 ≤ a.credit u t := by
    intro t
    cases a with
    | cash =>
      simp only [Asset.credit]
      split <;> positivity
    | shares c =>
      simp only [Asset.credit]
      split <;> positivity
  have hcredits : ∀ tasks : List DbTask, 0 ≤ a.credits u tasks := by
    intro tasks
    refine List.sum_nonneg fun n hn => ?_
    obtain ⟨t, -, rfl⟩ := List.mem_map.mp hn
    exact hcredit t
  have hqueue : 0 ≤ (s.engineQueue.map (EngineTask.reserved a u)).sum := by
    refine List.sum_nonneg fun n hn => ?_
    obtain ⟨task, -, rfl⟩ := List.mem_map.mp hn
    cases task with
    | order c o => exact mul_nonneg Asset.unit_nonneg (Int.natCast_nonneg _)
    | _ => exact le_rfl
  have hheld : 0 ≤ s.market.held (a.unit u) := market_held_nonneg
  simp only [Server.wealth, Server.live, Server.pending]
  linarith only [hcredits s.dbQueueFront, hcredits s.dbQueueBack, hqueue, hheld]

/-- **One task** adds to what anybody has in the books and in the tasks queued at most what he had
reserved for it and what its settled fills earned him. -/
theorem Acts.value_le (hm : m.Ok) (haddr : task.Addressed) (h : Acts m task e) :
    ∃ settled ⊆ e.fills, ∀ a u, e.market.held (a.unit u) + a.credits u e.pushed
      ≤ m.held (a.unit u) + task.reserved a u + a.earnings u settled := by
  cases h with
  | switchEngine mode =>
    refine ⟨[], List.Subset.refl _, fun a u => ?_⟩
    simp only [EngineTask.reserved, Asset.credits_nil, Asset.earnings_nil, add_zero]
    by_cases hmode : mode = m.engineMode
    · rw [hmode, MarketState.setEngineMode_self]
    · rw [held_setEngineMode hmode]
      exact market_held_nonneg
  | snapshot => exact ⟨[], List.Subset.refl _, fun a u => by simp [EngineTask.reserved]⟩
  | orderUnlisted =>
    refine ⟨[], List.Subset.refl _, fun a u => ?_⟩
    simp only [EngineTask.reserved, Asset.credits_nil, Asset.earnings_nil, add_zero]
    exact le_add_of_nonneg_right (mul_nonneg Asset.unit_nonneg (Int.natCast_nonneg _))
  | orderRefused hfind hcan =>
    refine ⟨[], List.Subset.refl _, fun a u => ?_⟩
    rw [Asset.credits_cons, Asset.credit_refund haddr]
    simp [EngineTask.reserved]
  | @orderProcessed c id o b r hfind hcan hs hlisten =>
    refine ⟨if b.tradeListener then b.resting.fills { o with id := id } else [], ?_, ?_⟩
    · split_ifs
      · exact List.Subset.refl _
      · exact List.nil_subset _
    · intro a u
      have hheld := held_setBook (a.unit u) r.book hm hfind
      have hone := credits_processedTasks_le (a := a) (u := u) (o := { o with id := id })
        (hm.inv c b hfind).valid (hm.company c b hfind) haddr
      rw [hs.resting] at hheld
      rw [Asset.unit_id] at hone
      rw [EngineTask.reserved]
      linarith only [hheld, hone]
  | cancelUnlisted => exact ⟨[], List.Subset.refl _, fun a u => by simp [EngineTask.reserved]⟩
  | @cancelMissed c id userId b b' hfind hnone hinv hl hresting =>
    refine ⟨[], List.Subset.refl _, fun a u => ?_⟩
    have hheld := held_setBook (a.unit u) b' hm hfind
    rw [hresting] at hheld
    simp only [EngineTask.reserved, Asset.credits_nil, Asset.earnings_nil]
    linarith only [hheld]
  | @cancelled c id userId b b' x hfind hx hinv hl hresting =>
    refine ⟨[], List.Subset.refl _, fun a u => ?_⟩
    have hvalid := (hm.inv c b hfind).valid
    have hheld := held_setBook (a.unit u) b' hm hfind
    obtain ⟨⟨s, hmem⟩, rfl, rfl⟩ := (Book.find_eq_some_iff hvalid).mp hx
    have hremove := hvalid.held_remove (a.unit u) hmem
    rw [hresting] at hheld
    rw [Asset.credits_cons, Asset.credits_nil, Asset.credit_refund (hm.company c b hfind s x hmem)]
    simp only [EngineTask.reserved, Asset.earnings_nil]
    linarith only [hheld, hremove]

end Task

/-! ### The whole server -/

namespace Server

/-- Everything that is queued, rests or is stored belongs to users among `A`. -/
structure Owned (A : Finset Int) (s : Server) : Prop where
  queue : ∀ task ∈ s.engineQueue, task.Of A
  resting : s.market.RestingOf A
  sessions : s.db.Sessions A
  front : ∀ t ∈ s.dbQueueFront, t.Credits A
  back : ∀ t ∈ s.dbQueueBack, t.Credits A
  rows : ∀ u ∉ A, ∀ c, s.db.portfolios u c = none

/-- The message is no stress order. -/
def Unstressed : Event → Prop
  | .message _ msg => msg.stress = false
  | _ => True

variable {A A' : Finset Int} {s s' : Server} {e : Event} {fills : List Trade}
  {pushed : List DbTask} {a : Asset} {u now : Int} {msg : Message}

lemma Owned.mono (hsub : A ⊆ A') (h : s.Owned A) : s.Owned A' where
  queue task ht := by
    have htask := h.queue task ht
    cases task with
    | order c o => exact hsub htask
    | cancel c id userId => exact hsub htask
    | _ => trivial
  resting c b hb side r hr := hsub (h.resting c b hb side r hr)
  sessions token row hrow := hsub (h.sessions token row hrow)
  front t ht := (h.front t ht).mono hsub
  back t ht := (h.back t ht).mono hsub
  rows u hu := h.rows u fun hA => hu (hsub hA)

lemma Owned.withDb {db : Database} (h : s.Owned A) (hsub : A ⊆ A') (hsessions : db.Sessions A')
    (hrows : ∀ u ∉ A', ∀ c, db.portfolios u c = none) : ({ s with db := db } : Server).Owned A' :=
  let h' := h.mono hsub
  ⟨h'.queue, h'.resting, hsessions, h'.front, h'.back, hrows⟩

/-- Who has no account has nothing anywhere. -/
lemma Owned.wealth_eq_zero (h : s.Owned A) (hok : s.Ok) (hreg : ¬ s.db.Registered u)
    (hu : u ∉ A) : s.wealth a u = 0 := by
  have hbalance : a.balance s.db u = 0 := by
    cases a with
    | cash =>
      have hnone : s.db.balances u = none := by simpa [Database.Registered] using hreg
      simp [Asset.balance, Database.cash, hnone]
    | shares c => simp [Asset.balance, Database.shares, h.rows u hu c]
  have hqueue : ∀ tasks : List EngineTask, (∀ task ∈ tasks, task.Of A) →
      (tasks.map (EngineTask.reserved a u)).sum = 0 := by
    intro tasks htasks
    refine List.sum_eq_zero fun x hx => ?_
    obtain ⟨task, ht, rfl⟩ := List.mem_map.mp hx
    cases task with
    | order c o =>
      have ho : o.userId ≠ u := fun heq => hu (heq ▸ htasks _ ht)
      rw [EngineTask.reserved, Asset.unit_eq_zero ho, zero_mul]
    | _ => rfl
  have hheld : s.market.held (a.unit u) = 0 := by
    rw [market_held_eq_zero_iff hok.market fun _ => Asset.unit_nonneg]
    intro c b hb side r hr
    exact Asset.unit_eq_zero fun heq => hu (heq ▸ h.resting c b hb side r hr)
  rw [wealth, live, pending, hbalance, hqueue _ h.queue, hheld, credits_eq_zero h.front hu,
    credits_eq_zero h.back hu]
  rfl

lemma Owned.push {task : EngineTask} {db : Database} (h : s.Owned A) (ht : task.Of A)
    (hrows : ∀ u ∉ A, ∀ c, db.portfolios u c = none) (hsessions : db.sessions = s.db.sessions) :
    (({ s with db := db } : Server).push task).Owned A where
  queue t hmem := by
    rcases List.mem_append.mp hmem with hmem | hmem
    · exact h.queue t hmem
    · rwa [List.mem_singleton.mp hmem]
  resting := h.resting
  sessions token row hrow := h.sessions token row (hsessions ▸ hrow)
  front := h.front
  back := h.back
  rows := hrows

lemma portfolios_settleShares_of_ne {db : Database} {v n : Int} {c : Nat} (h : u ≠ v) :
    (db.settleShares v c n).portfolios u = db.portfolios u := by
  simp [Database.settleShares, h]

lemma portfolios_resShares_eq_none {db : Database} {v n : Int} {c d : Nat}
    (h : db.portfolios u d = none) : (db.resShares n v c).portfolios u d = none := by
  simp only [Database.resShares]
  by_cases huv : u = v
  · subst huv
    by_cases hdc : d = c
    · subst hdc
      simp [h]
    · simp [hdc, h]
  · simp [huv, h]

lemma portfolios_applyTask {db : Database} {t : DbTask} (ht : t.Credits A) (hu : u ∉ A) :
    (applyTask db t).portfolios u = db.portfolios u := by
  have hne : u ≠ t.buyerId := fun heq => hu (heq ▸ ht.1)
  simp only [applyTask]
  cases t.type with
  | settle =>
    simp only [Database.settleTradeUnlocked]
    split_ifs
    · exact portfolios_settleShares_of_ne hne
    · exact portfolios_settleShares_of_ne hne
  | refundCash => rfl
  | refundShares => exact portfolios_settleShares_of_ne hne
  | logTrade => rfl

lemma portfolios_batch {db : Database} {tasks : List DbTask} (ht : ∀ t ∈ tasks, t.Credits A)
    (hu : u ∉ A) : (tasks.foldl applyTask db).portfolios u = db.portfolios u := by
  induction tasks generalizing db with
  | nil => rfl
  | cons t tasks ih =>
    rw [List.foldl_cons, ih fun x hx => ht x (List.mem_cons_of_mem _ hx),
      portfolios_applyTask (ht t List.mem_cons_self) hu]

lemma Owned.handled (h : s.Owned A) (hstress : msg.stress = false) (hmsg : Handled now s msg s') :
    s'.Owned A := by
  have hsession : ∀ {token : String} {u : Int}, s.db.validateSession now token = .ok u → u ∈ A := by
    intro token u hauth
    obtain ⟨row, hrow, rfl⟩ := validateSession_eq_ok hauth
    exact h.sessions _ row hrow
  cases hmsg with
  | buy _ _ _ _ hauth => exact h.push (hsession hauth) h.rows rfl
  | sell _ _ _ _ hauth =>
    exact h.push (hsession hauth)
      (fun u hu c => portfolios_resShares_eq_none (h.rows u hu c)) rfl
  | stress _ _ _ _ hc => exact absurd hc (not_orders_of_not_stress hstress)
  | cancel _ _ hauth => exact h.push (hsession hauth) h.rows rfl
  | switchEngine => exact h.push trivial h.rows rfl
  | snapshot => exact h.push trivial h.rows rfl

/-- **One step** without a stress order: everything still belongs to `A`, and the fills are among
`A`. -/
theorem Owned.step (h : s.Owned A) (hok : s.Ok) (hsafe : s.SafeEvent e) (hstress : Unstressed e)
    (hstep : s.step e = some (s', fills, pushed)) :
    s'.Owned A ∧ ∀ t ∈ fills, t.Among A := by
  cases step_steps hstep with
  | rejected => exact ⟨h, by simp⟩
  | handled hmsg => exact ⟨h.handled hstress hmsg, by simp⟩
  | idle => exact ⟨h, by simp⟩
  | @task fuel task queue e hqueue hrun =>
    have hhead : task ∈ s.engineQueue := by rw [hqueue]; exact List.mem_cons_self
    obtain ⟨hamong, hcredits, hrest⟩ :=
      (hok.acts hsafe hqueue hrun).owned hok.market (h.queue _ hhead) h.resting
    refine ⟨⟨?_, hrest, h.sessions, ?_, h.back, h.rows⟩, hamong⟩
    · intro t ht
      apply h.queue t
      rw [hqueue]
      exact List.mem_cons_of_mem _ ht
    · intro t ht
      rcases List.mem_append.mp ht with ht | ht
      · exact h.front t ht
      · exact hcredits t ht
  | swap hback => exact ⟨⟨h.queue, h.resting, h.sessions, by simp, h.front, h.rows⟩, by simp⟩
  | batch hback =>
    refine ⟨⟨h.queue, h.resting, ?_, h.front, by simp, ?_⟩, by simp⟩
    · intro token row hrow
      rw [sessions_batch] at hrow
      exact h.sessions token row hrow
    · intro u hu c
      rw [portfolios_batch h.back hu]
      exact h.rows u hu c

/-- A step adds to anybody's wealth at most what its settled fills earned him. -/
lemma step_wealth_le (hok : s.Ok) (hsafe : s.SafeEvent e) (hstress : Unstressed e)
    (hstep : s.step e = some (s', fills, pushed)) :
    ∃ settled ⊆ fills, ∀ a u, s'.wealth a u ≤ s.wealth a u + a.earnings u settled := by
  cases step_steps hstep with
  | rejected => exact ⟨[], List.Subset.refl _, fun a u => by simp⟩
  | handled hmsg =>
    refine ⟨[], List.Subset.refl _, fun a u => ?_⟩
    rw [hmsg.wealth_eq fun c hc => absurd hc (not_orders_of_not_stress hstress),
      Asset.earnings_nil, add_zero]
  | idle => exact ⟨[], List.Subset.refl _, fun a u => by simp⟩
  | @task fuel task queue e hqueue hrun =>
    have haddr : task.Addressed := hok.addressed _ (by rw [hqueue]; exact List.mem_cons_self)
    obtain ⟨settled, hsub, hle⟩ := (hok.acts hsafe hqueue hrun).value_le hok.market haddr
    refine ⟨settled, hsub, fun a u => ?_⟩
    rw [wealth_task hqueue]
    linarith only [hle a u]
  | swap hback =>
    refine ⟨[], List.Subset.refl _, fun a u => ?_⟩
    simp [wealth, live, pending, hback]
  | batch hback =>
    refine ⟨[], List.Subset.refl _, fun a u => ?_⟩
    have hbatch := @Asset.balance_batch_le a u s.db s.dbQueueBack
    simp only [wealth, live, pending, Asset.credits_nil, Asset.earnings_nil]
    linarith only [hbatch]

/-- **No step** without a stress order adds to what the accounts own together. -/
theorem Owned.total_le (h : s.Owned A) (hok : s.Ok)
    (hsafe : s.SafeEvent e) (hstress : Unstressed e)
    (hstep : s.step e = some (s', fills, pushed)) (a : Asset) :
    ∑ u ∈ A, s'.wealth a u ≤ ∑ u ∈ A, s.wealth a u := by
  obtain ⟨settled, hsub, hle⟩ := step_wealth_le hok hsafe hstress hstep
  have hamong : ∀ t ∈ settled, t.Among A := fun t ht =>
    (h.step hok hsafe hstress hstep).2 t (hsub ht)
  calc ∑ u ∈ A, s'.wealth a u
      ≤ ∑ u ∈ A, (s.wealth a u + a.earnings u settled) :=
        Finset.sum_le_sum fun u _ => hle a u
    _ = ∑ u ∈ A, s.wealth a u := by
        rw [Finset.sum_add_distrib, sum_earnings hamong, add_zero]

end Server

end ExchangeEngine
