import ExchangeEngine.Server.Ledger
import ExchangeEngine.Server.Switch
import Mathlib.Algebra.BigOperators.Group.Finset.Piecewise

/-!
# Stress orders and real wallets

Synthetic orders have negative user ids and reserve nothing. They stay away from the real wallets as
long as they trade with nobody: `settle_shares` inserts a row for whatever user buys or gets shares
back, and a fill between a real and a synthetic order pays or charges only the real side.
-/

namespace ExchangeEngine

/-- `o` gets to trade with `r`: no own order comes up to `r`, and what comes before it is not
enough. -/
def Reaches (b : AnyBook) (o r : Order) : Prop :=
  ∃ l₁ l₂, b.resting.crossing o = l₁ ++ r :: l₂ ∧ (∀ x ∈ l₁ ++ [r], sameOwner o x = false) ∧
    Consume.total Order.quantity l₁ < o.quantity

/-- A real order, unless it is refused, reaches real orders only. A synthetic buy reaches nobody; a
synthetic sell is not refused and finds no buyer, not even its own. -/
def KeepsApart (b : AnyBook) (o : Order) : Prop :=
  if 0 ≤ o.userId then b.canProcessOrder o = true → ∀ r, Reaches b o r → 0 ≤ r.userId
  else if o.side = true then b.canProcessOrder o = true → ∀ r, ¬ Reaches b o r
  else b.canProcessOrder o = true ∧ (o.quantity = 0 ∨ b.resting.crossing o = [])

lemma mem_served_iff {b : AnyBook} {o r : Order} :
    (∃ q, (r, q) ∈ b.resting.served o) ↔ Reaches b o r :=
  Consume.mem_served_iff

/-- No row of a synthetic user. -/
def Database.NoSynthetic (db : Database) : Prop :=
  ∀ u < 0, db.balances u = none ∧ ∀ c, db.portfolios u c = none

/-- Sessions belong to accounts. -/
def Database.Sessions (db : Database) (A : Finset Int) : Prop :=
  ∀ token row, db.sessions token = some row → row.userId ∈ A

/-- The task inserts no row for a synthetic user. -/
def DbTask.Harmless (t : DbTask) : Prop := t.type = .settle ∨ t.type = .refundShares → 0 ≤ t.buyerId

/-- Orders are synthetic or from an account, cancellations from an account. -/
def EngineTask.From (A : Finset Int) : EngineTask → Prop
  | .order _ o => o.userId < 0 ∨ o.userId ∈ A
  | .cancel _ _ userId => userId ∈ A
  | _ => True

section Database

variable {db : Database} {t : DbTask}

lemma noSynthetic_settleCash {n v : Int} (h : db.NoSynthetic) :
    (db.settleCash n v).NoSynthetic := by
  intro u hu
  refine ⟨?_, (h u hu).2⟩
  by_cases huv : u = v
  · subst huv
    simp [Database.settleCash, (h u hu).1]
  · simp [Database.settleCash, huv, (h u hu).1]

lemma noSynthetic_resCash {n v : Int} (h : db.NoSynthetic) : (db.resCash n v).NoSynthetic := by
  intro u hu
  refine ⟨?_, (h u hu).2⟩
  by_cases huv : u = v
  · subst huv
    simp [Database.resCash, (h u hu).1]
  · simp [Database.resCash, huv, (h u hu).1]

lemma noSynthetic_settleShares {n v : Int} {c : Nat} (h : db.NoSynthetic) (hv : 0 ≤ v) :
    (db.settleShares v c n).NoSynthetic := by
  intro u hu
  refine ⟨(h u hu).1, ?_⟩
  intro d
  have huv : u ≠ v := (lt_of_lt_of_le hu hv).ne
  simp [Database.settleShares, huv, (h u hu).2 d]

lemma noSynthetic_resShares {n v : Int} {c : Nat} (h : db.NoSynthetic) :
    (db.resShares n v c).NoSynthetic := by
  intro u hu
  refine ⟨(h u hu).1, ?_⟩
  intro d
  by_cases huv : u = v
  · subst huv
    by_cases hd : d = c
    · subst hd
      simp [Database.resShares, (h u hu).2 d]
    · simp [Database.resShares, hd, (h u hu).2 d]
  · simp [Database.resShares, huv, (h u hu).2 d]

lemma noSynthetic_applyTask (h : db.NoSynthetic) (ht : t.Harmless) :
    (applyTask db t).NoSynthetic := by
  simp only [applyTask]
  cases hty : t.type with
  | settle =>
    have hpaid := noSynthetic_settleCash (n := t.price * t.quantity) (v := t.sellerId)
      (noSynthetic_settleShares (n := t.quantity) (c := t.companyId) h (ht (Or.inl hty)))
    simp only [Database.settleTradeUnlocked]
    split_ifs
    · exact noSynthetic_settleCash hpaid
    · exact hpaid
  | refundCash => exact noSynthetic_settleCash h
  | refundShares => exact noSynthetic_settleShares h (ht (Or.inr hty))
  | logTrade => exact h

lemma noSynthetic_batch {tasks : List DbTask} (h : db.NoSynthetic)
    (ht : ∀ t ∈ tasks, t.Harmless) : (tasks.foldl applyTask db).NoSynthetic := by
  induction tasks generalizing db with
  | nil => exact h
  | cons t tasks ih =>
    exact ih (noSynthetic_applyTask h (ht t List.mem_cons_self)) fun x hx =>
      ht x (List.mem_cons_of_mem _ hx)

lemma sessions_applyTask : (applyTask db t).sessions = db.sessions := by
  simp only [applyTask]
  cases t.type with
  | settle =>
    simp only [Database.settleTradeUnlocked]
    split_ifs
    · rfl
    · rfl
  | _ => rfl

lemma sessions_batch (tasks : List DbTask) :
    (tasks.foldl applyTask db).sessions = db.sessions := by
  induction tasks generalizing db with
  | nil => rfl
  | cons t tasks ih => rw [List.foldl_cons, ih, sessions_applyTask]

end Database

/-! ### One order -/

lemma harmless_refund {u : Int} {o : Order} {c q : Nat} (h : 0 ≤ u ∨ o.side = true) :
    (refund u o c q).Harmless := by
  intro hty
  cases hs : o.side with
  | true => simp [refund, hs] at hty
  | false =>
    rw [refund, hs, if_neg Bool.false_ne_true]
    exact h.resolve_right (by simp [hs])

/-- Both parties of the fill are accounts. -/
def Trade.Among (A : Finset Int) (t : Trade) : Prop := t.buyerUserId ∈ A ∧ t.sellerUserId ∈ A

lemma harmless_onTrade {A : Finset Int} {ts : List Trade} (hpos : ∀ u ∈ A, 0 < u)
    (h : ∀ t ∈ ts, t.Among A) : ∀ x ∈ ts.flatMap onTrade, x.Harmless := by
  intro x hx _
  obtain ⟨t, ht, hx⟩ := List.mem_flatMap.mp hx
  rcases List.mem_pair.mp hx with rfl | rfl
  · exact (hpos _ (h t ht).1).le
  · exact (hpos _ (h t ht).1).le

section Order

variable {b : AnyBook} {o : Order} {A : Finset Int}

/-- **An order kept apart** trades among accounts only. -/
lemma KeepsApart.among (h : KeepsApart b o) (hcan : b.canProcessOrder o = true)
    (ho : o.userId < 0 ∨ o.userId ∈ A)
    (hrest : ∀ s, ∀ r ∈ b.resting s, r.userId < 0 ∨ r.userId ∈ A) :
    ∀ t ∈ b.resting.fills o, t.Among A := by
  intro t ht
  obtain ⟨⟨r, q⟩, hr, rfl⟩ := List.mem_map.mp ht
  have hreach : Reaches b o r := mem_served_iff.mp ⟨q, hr⟩
  simp only [KeepsApart] at h
  split_ifs at h with hreal hbuy
  · have hoA : o.userId ∈ A := ho.resolve_left (not_lt.mpr hreal)
    have hmem : r ∈ b.resting (!o.side) :=
      (Book.mem_crossing.mp (Consume.mem_avail (Consume.mem_of_mem_takes hr)).1).1
    have hrA : r.userId ∈ A := (hrest _ r hmem).resolve_left (not_lt.mpr (h hcan r hreach))
    cases hs : o.side with
    | true => exact ⟨hoA, hrA⟩
    | false => exact ⟨hrA, hoA⟩
  · exact absurd hreach (h hcan r)
  · obtain ⟨l₁, l₂, hcross, -, hlt⟩ := hreach
    rcases h.2 with hq | hnil
    · rw [hq] at hlt
      exact absurd hlt (Nat.not_lt_zero _)
    · rw [hnil] at hcross
      exact absurd hcross.symm (by simp)

/-- It gives back shares to accounts only. -/
lemma KeepsApart.rejected (h : KeepsApart b o) (hrej : 0 < b.resting.rejected o) :
    0 ≤ o.userId ∨ o.side = true := by
  simp only [KeepsApart] at h
  split_ifs at h with hreal hbuy
  · exact Or.inl hreal
  · exact Or.inr hbuy
  · have hzero : b.resting.rejected o = 0 := by
      rw [Book.rejected, Book.selfCrossing, Book.short]
      rcases h.2 with hq | hnil
      · rw [hq, Consume.short_zero]
        exact ite_self 0
      · rw [hnil]
        rfl
    exact absurd hzero hrej.ne'

lemma KeepsApart.refused (h : KeepsApart b o) (hcan : b.canProcessOrder o = false) :
    0 ≤ o.userId ∨ o.side = true := by
  simp only [KeepsApart] at h
  split_ifs at h with hreal hbuy
  · exact Or.inl hreal
  · exact Or.inr hbuy
  · rw [hcan] at h
    exact absurd h.1 Bool.false_ne_true

end Order

/-- The order popped, if any, keeps apart. -/
def EngineTask.KeepsApart (m : MarketState) : EngineTask → Prop
  | .order c o => ∀ b ∈ m.findInstrument c, ExchangeEngine.KeepsApart b o
  | _ => True

/-- **One task** that keeps apart trades among accounts and queues nothing harmful. -/
theorem Acts.apart {m : MarketState} {task : EngineTask} {e : Effect} {A : Finset Int}
    (hpos : ∀ u ∈ A, 0 < u) (hapart : task.KeepsApart m) (hfrom : task.From A)
    (hrest : ∀ c b, m.findInstrument c = some b → ∀ s, ∀ r ∈ b.resting s,
      r.userId < 0 ∨ r.userId ∈ A) (h : Acts m task e) :
    (∀ t ∈ e.fills, t.Among A) ∧ ∀ t ∈ e.pushed, t.Harmless := by
  cases h with
  | orderRefused hfind hcan =>
    refine ⟨fun t ht => absurd ht List.not_mem_nil, ?_⟩
    intro t ht
    rw [List.mem_singleton.mp ht]
    exact harmless_refund ((hapart _ hfind).refused hcan)
  | @orderProcessed c id o b r hfind hcan hs hlisten =>
    -- neither side of the condition looks at the id
    have hkeep : ExchangeEngine.KeepsApart b { o with id := id } := by
      cases b <;> exact hapart _ hfind
    have hcan' : b.canProcessOrder { o with id := id } = true := by
      cases b <;> exact hcan
    have hamong := hkeep.among hcan' hfrom (hrest c b hfind)
    refine ⟨hamong, ?_⟩
    intro t ht
    rcases List.mem_append.mp ht with ht | ht
    · split_ifs at ht
      · exact harmless_onTrade hpos hamong t ht
      · exact absurd ht List.not_mem_nil
    · split_ifs at ht with hrej
      · rw [List.mem_singleton.mp ht]
        exact harmless_refund (hkeep.rejected hrej)
      · exact absurd ht List.not_mem_nil
  | cancelled hfind hx =>
    refine ⟨fun t ht => absurd ht List.not_mem_nil, ?_⟩
    intro t ht
    rw [List.mem_singleton.mp ht]
    exact harmless_refund (Or.inl (hpos _ hfrom).le)
  | _ => exact ⟨fun t ht => absurd ht List.not_mem_nil, fun t ht => absurd ht List.not_mem_nil⟩

/-- Orders resting after a task were resting before, or are the task's. -/
lemma Acts.resting_from {m : MarketState} {task : EngineTask} {e : Effect} {A : Finset Int}
    (hm : m.Ok) (hfrom : task.From A)
    (hrest : ∀ c b, m.findInstrument c = some b → ∀ s, ∀ r ∈ b.resting s,
      r.userId < 0 ∨ r.userId ∈ A) (h : Acts m task e) :
    ∀ c b, e.market.findInstrument c = some b → ∀ s, ∀ r ∈ b.resting s,
      r.userId < 0 ∨ r.userId ∈ A := by
  have hset : ∀ (c : Nat) (b' : AnyBook),
      (∀ s, ∀ r ∈ b'.resting s, r.userId < 0 ∨ r.userId ∈ A) →
      ∀ d x, (m.setBook c b').findInstrument d = some x → ∀ s, ∀ r ∈ x.resting s,
        r.userId < 0 ∨ r.userId ∈ A := by
    intro c b' hb' d x hx
    rw [MarketState.findInstrument_setBook] at hx
    split_ifs at hx
    · rwa [← Option.some.inj hx]
    · exact hrest d x hx
  cases h with
  | switchEngine mode =>
    by_cases hmode : mode = m.engineMode
    · rw [hmode, MarketState.setEngineMode_self]
      exact hrest
    · intro c b hb s r hr
      rw [MarketState.findInstrument_setEngineMode m c hmode] at hb
      obtain ⟨-, -, rfl⟩ := Option.map_eq_some_iff.mp hb
      rw [AnyBook.resting_make] at hr
      exact absurd hr List.not_mem_nil
  | @orderProcessed c id o b r hfind hcan hs hlisten =>
    apply hset c r.book
    intro s x hx
    rw [hs.resting] at hx
    rcases Book.mem_submit (hm.inv c b hfind).valid.pos hx with ⟨-, rfl⟩ | ⟨a, ha, q, rfl⟩
    · exact hfrom
    · exact hrest c b hfind s a ha
  | @cancelMissed c id userId b b' hfind hnone hinv hlisten hresting =>
    apply hset c b'
    rw [hresting]
    exact hrest c b hfind
  | @cancelled c id userId b b' x hfind hx hinv hlisten hresting =>
    apply hset c b'
    intro s r hr
    rw [hresting] at hr
    exact hrest c b hfind s r ((Book.remove_sublist _ _ _).subset hr)
  | _ => exact hrest

/-- **A fill among accounts** earns them nothing together. -/
lemma sum_earned {A : Finset Int} {a : Asset} {t : Trade} (h : t.Among A) :
    ∑ u ∈ A, a.earned u t = 0 := by
  cases a with
  | cash =>
    simp only [Asset.earned, Finset.sum_sub_distrib, Finset.sum_ite_eq', h.1, h.2, if_true,
      sub_self]
  | shares c =>
    simp only [Asset.earned, Finset.sum_sub_distrib, ite_and, Finset.sum_ite_eq', h.1, h.2, if_true,
      sub_self]

lemma sum_earnings {A : Finset Int} {a : Asset} {fills : List Trade}
    (h : ∀ t ∈ fills, t.Among A) : ∑ u ∈ A, a.earnings u fills = 0 := by
  induction fills with
  | nil => exact Finset.sum_eq_zero fun _ _ => rfl
  | cons t fills ih =>
    have hsplit : ∑ u ∈ A, a.earnings u (t :: fills)
        = ∑ u ∈ A, a.earned u t + ∑ u ∈ A, a.earnings u fills := by
      rw [← Finset.sum_add_distrib]
      exact Finset.sum_congr rfl fun _ _ => by simp [Asset.earnings]
    rw [hsplit, sum_earned (h t List.mem_cons_self),
      ih fun x hx => h x (List.mem_cons_of_mem _ hx), add_zero]

namespace Server

/-- Ordinary operation in which every order popped keeps apart. -/
def Apart (s : Server) (e : Event) : Prop :=
  s.Ordinary e ∧ ∀ fuel, e = .engine fuel →
    ∀ task ∈ s.engineQueue.head?, task.KeepsApart s.market

/-- Synthetic and real orders are told apart everywhere, and nothing harmful is queued. -/
structure Isolated (A : Finset Int) (s : Server) : Prop where
  queue : ∀ task ∈ s.engineQueue, task.From A
  resting : ∀ c b, s.market.findInstrument c = some b → ∀ side, ∀ r ∈ b.resting side,
    r.userId < 0 ∨ r.userId ∈ A
  sessions : s.db.Sessions A
  rows : s.db.NoSynthetic
  front : ∀ t ∈ s.dbQueueFront, t.Harmless
  back : ∀ t ∈ s.dbQueueBack, t.Harmless

variable {A : Finset Int} {s s' : Server} {e : Event} {fills : List Trade} {pushed : List DbTask}
  {now : Int} {msg : Message}

lemma validateSession_eq_ok {db : Database} {token : String} {u : Int}
    (h : db.validateSession now token = .ok u) :
    ∃ row, db.sessions (bindText token) = some row ∧ row.userId = u := by
  simp only [Database.validateSession] at h
  cases hrow : db.sessions (bindText token) with
  | none =>
    rw [hrow] at h
    cases h
  | some row =>
    simp only [hrow] at h
    split_ifs at h
    exact ⟨row, rfl, Except.ok.inj h⟩

lemma Isolated.push {task : EngineTask} {db : Database} (h : s.Isolated A) (ht : task.From A)
    (hrows : db.NoSynthetic) (hsessions : db.sessions = s.db.sessions) :
    (({ s with db := db } : Server).push task).Isolated A where
  queue t hmem := by
    rcases List.mem_append.mp hmem with hmem | hmem
    · exact h.queue t hmem
    · rwa [List.mem_singleton.mp hmem]
  resting := h.resting
  sessions token row hrow := h.sessions token row (hsessions ▸ hrow)
  rows := hrows
  front := h.front
  back := h.back

lemma Isolated.handled (h : s.Isolated A) (hmsg : Handled now s msg s') : s'.Isolated A := by
  have hsession : ∀ {token : String} {u : Int}, s.db.validateSession now token = .ok u → u ∈ A := by
    intro token u hauth
    obtain ⟨row, hrow, rfl⟩ := validateSession_eq_ok hauth
    exact h.sessions _ row hrow
  cases hmsg with
  | buy _ _ _ _ hauth =>
    exact h.push (Or.inr (hsession hauth)) (noSynthetic_resCash h.rows) rfl
  | sell _ _ _ _ hauth =>
    exact h.push (Or.inr (hsession hauth)) (noSynthetic_resShares h.rows) rfl
  | stress _ _ _ _ _ hu => exact h.push (Or.inl hu) h.rows rfl
  | cancel _ _ hauth => exact h.push (hsession hauth) h.rows rfl
  | switchEngine => exact h.push trivial h.rows rfl
  | snapshot => exact h.push trivial h.rows rfl

/-- **One step** of a run that keeps apart: its fills are among accounts. -/
theorem Isolated.step (h : s.Isolated A) (hpos : ∀ u ∈ A, 0 < u) (hrunning : s.Running)
    (he : s.Apart e) (hstep : s.step e = some (s', fills, pushed)) :
    s'.Isolated A ∧ ∀ t ∈ fills, t.Among A := by
  have hnone : ∀ t ∈ ([] : List Trade), t.Among A := fun t ht => absurd ht List.not_mem_nil
  cases step_steps hstep with
  | rejected => exact ⟨h, hnone⟩
  | handled hmsg => exact ⟨h.handled hmsg, hnone⟩
  | idle => exact ⟨h, hnone⟩
  | @task fuel task queue e hqueue hrun =>
    have hhead : task ∈ s.engineQueue.head? := by rw [hqueue]; rfl
    have hacts := hrunning.ok.acts (hrunning.safe he.1) hqueue hrun
    have hfrom : task.From A := h.queue _ (List.mem_of_mem_head? hhead)
    obtain ⟨hamong, hharmless⟩ := hacts.apart hpos (he.2 fuel rfl task hhead) hfrom h.resting
    refine ⟨⟨?_, hacts.resting_from hrunning.ok.market hfrom h.resting, h.sessions, h.rows, ?_,
      h.back⟩, hamong⟩
    · intro t ht
      apply h.queue t
      rw [hqueue]
      exact List.mem_cons_of_mem _ ht
    · intro t ht
      rcases List.mem_append.mp ht with ht | ht
      · exact h.front t ht
      · exact hharmless t ht
  | swap hback =>
    exact ⟨⟨h.queue, h.resting, h.sessions, h.rows, fun t ht => absurd ht List.not_mem_nil,
      h.front⟩, hnone⟩
  | batch hback =>
    refine ⟨⟨h.queue, h.resting, ?_, noSynthetic_batch h.rows h.back, h.front,
      fun t ht => absurd ht List.not_mem_nil⟩, hnone⟩
    intro token row hrow
    rw [sessions_batch] at hrow
    exact h.sessions token row hrow

/-- **Stress orders stay away from real wallets** in every run whose orders keep apart: the total
wealth of the accounts, in cash and in the shares of each company, is what it was at first, and no
row of a synthetic user appears. -/
theorem stress_isolated {companies : List Nat} {m : MarketState} {db : Database}
    (hm : MarketState.new companies = .ok m) (hA : ∀ u, u ∈ A ↔ db.Real u)
    (hsessions : db.Sessions A) (hrows : db.NoSynthetic)
    (h : Run Apart (start m db) s fills pushed) :
    (∀ a : Asset, ∑ u ∈ A, s.wealth a u = ∑ u ∈ A, a.balance db u) ∧ s.db.NoSynthetic := by
  have hpos : ∀ u ∈ A, 0 < u := fun u hu => ((hA u).mp hu).1
  have hisolated : s.Isolated A ∧ ∀ t ∈ fills, t.Among A := by
    induction h with
    | refl =>
      refine ⟨⟨?_, ?_, hsessions, hrows, ?_, ?_⟩, ?_⟩
      · exact fun t ht => absurd ht List.not_mem_nil
      · intro c b hb side r hr
        rw [resting_start hm hb] at hr
        exact absurd hr List.not_mem_nil
      · exact fun t ht => absurd ht List.not_mem_nil
      · exact fun t ht => absurd ht List.not_mem_nil
      · exact fun t ht => absurd ht List.not_mem_nil
    | step hrun he hstep ih =>
      have hrunning := Run.running (fun _ _ he => he.1) (running_start hm db) hrun
      obtain ⟨hiso, hnew⟩ := ih.1.step hpos hrunning he hstep
      refine ⟨hiso, ?_⟩
      intro t ht
      rcases List.mem_append.mp ht with ht | ht
      · exact ih.2 t ht
      · exact hnew t ht
  refine ⟨?_, hisolated.1.rows⟩
  intro a
  have hwealth : ∀ u ∈ A, s.wealth a u = a.balance db u + a.earnings u fills := fun u hu =>
    Run.wealth_eq hm ((hA u).mp hu).2 (fun _ _ he => he.1) (fun _ _ _ _ _ _ => (hpos u hu).le) h
  rw [Finset.sum_congr rfl hwealth, Finset.sum_add_distrib, sum_earnings hisolated.2, add_zero]

/-- A synthetic bid for one share. -/
def sampleStress : Event :=
  .message 0 (.order ⟨"b", some 1, some "BUY", some 5, some 1, some 0, true, none⟩)

lemma real_sampleDb (u : Int) : u ∈ ({7, 8} : Finset Int) ↔ sampleDb.Real u := by
  have hreg : sampleDb.Registered u ↔ u = 7 ∨ u = 8 := by
    simp [Database.Registered, sampleDb]
  rw [Database.Real, hreg, Finset.mem_insert, Finset.mem_singleton]
  exact ⟨fun h => ⟨by omega, h⟩, fun h => h.2⟩

lemma sessions_sampleDb : sampleDb.Sessions {7, 8} := by
  intro token row hrow
  rw [sampleDb] at hrow
  simp only at hrow
  split_ifs at hrow
  · rw [← Option.some.inj hrow]
    decide
  · rw [← Option.some.inj hrow]
    decide

lemma noSynthetic_sampleDb : sampleDb.NoSynthetic := by
  intro u hu
  have h7 : u ≠ 7 := by omega
  have h8 : u ≠ 8 := by omega
  simp [sampleDb, h7, h8]

/-- Without resting orders any synthetic bid keeps apart. -/
lemma keepsApart_of_empty {b : AnyBook} {o : Order} (hb : b.resting = Book.empty)
    (ho : o.side = true) : KeepsApart b o := by
  have hnobody : ∀ r, ¬ Reaches b o r := by
    rintro r ⟨l₁, l₂, hcross, -⟩
    rw [hb] at hcross
    exact absurd hcross.symm (List.append_ne_nil_of_right_ne_nil _ (List.cons_ne_nil _ _))
  simp only [KeepsApart]
  split_ifs
  · exact fun _ r hr => absurd hr (hnobody r)
  · exact fun _ => hnobody

theorem stress_isolated_sampleStress : ∃ s fills pushed,
    Run Apart (start sampleMarket sampleDb) s fills pushed ∧ s.engineQueue = [] ∧
      (∀ a : Asset, ∑ u ∈ {7, 8}, s.wealth a u = ∑ u ∈ {7, 8}, a.balance sampleDb u) ∧
      s.db.NoSynthetic := by
  have hrun : (((start sampleMarket sampleDb).step sampleStress).bind fun x =>
      (x.1.step (.engine 100001)).map fun y => decide (x.1.engineQueue
        = [.order 1 ⟨0, -1, 0, 5, 1, 1, true⟩] ∧ x.1.Ordinary (.engine 100001) ∧
        (start sampleMarket sampleDb).Ordinary sampleStress ∧ y.1.engineQueue = []))
      = some true := by decide +kernel
  obtain ⟨⟨s₁, fills₁, pushed₁⟩, hstep₁, hrun⟩ := Option.bind_eq_some_iff.mp hrun
  obtain ⟨⟨s₂, fills₂, pushed₂⟩, hstep₂, hout⟩ := Option.map_eq_some_iff.mp hrun
  obtain ⟨hqueue, hengine, hmessage, hdone⟩ := of_decide_eq_true hout
  have hmarket : s₁.market = (start sampleMarket sampleDb).market := by
    cases step_steps hstep₁ with
    | rejected => rfl
    | handled hmsg => exact hmsg.market
  have hapart : s₁.Apart (.engine 100001) := by
    refine ⟨hengine, ?_⟩
    intro fuel _ task htask
    rw [hqueue] at htask
    rw [← Option.some.inj htask]
    intro b hb
    rw [hmarket] at hb
    exact keepsApart_of_empty (resting_start new_sampleMarket hb) rfl
  have h := Run.step (Run.step Run.refl ⟨hmessage, fun _ he => nomatch he⟩ hstep₁) hapart hstep₂
  exact ⟨s₂, _, _, h, hdone, stress_isolated new_sampleMarket real_sampleDb sessions_sampleDb
    noSynthetic_sampleDb h⟩

/-- A synthetic bid meets the offer of user 7, who is paid; the shares go to a new row of the
synthetic user. -/
theorem stress_pays_real_seller : ∃ s fills pushed,
    Run Ordinary (start sampleMarket sampleDb) s fills pushed ∧
      s.db.portfolios (-1) 1 = some 1 ∧
      ∑ u ∈ {7, 8}, s.wealth .cash u = ∑ u ∈ {7, 8}, Asset.cash.balance sampleDb u + 5 := by
  obtain ⟨⟨s, fills, pushed⟩, hrun, hout⟩ := Option.map_eq_some_iff.mp
    (by decide +kernel : (((start sampleMarket sampleDb).runEvents Ordinary
      [sampleOffer, sampleStress, .engine 100001, .engine 100001, .db, .db]).map fun x =>
        decide (x.1.db.portfolios (-1) 1 = some 1 ∧ Asset.cash.earnings 7 x.2.1 = 5 ∧
          Asset.cash.earnings 8 x.2.1 = 0)) = some true)
  obtain ⟨hrow, hseven, height⟩ := of_decide_eq_true hout
  have h := run_of_runEvents hrun
  have hwealth : ∀ u ∈ ({7, 8} : Finset Int), s.wealth .cash u
      = Asset.cash.balance sampleDb u + Asset.cash.earnings u fills := by
    intro u hu
    obtain ⟨hpos, hreg⟩ := (real_sampleDb u).mp hu
    exact Run.wealth_eq new_sampleMarket hreg (fun _ _ he => he)
      (fun _ _ _ _ _ _ => hpos.le) h
  have hearned : ∑ u ∈ ({7, 8} : Finset Int), Asset.cash.earnings u fills = 5 := by
    rw [Finset.sum_pair (by decide), show Asset.cash.earnings 7 fills = 5 from hseven,
      show Asset.cash.earnings 8 fills = 0 from height, add_zero]
  refine ⟨s, fills, pushed, h, hrow, ?_⟩
  rw [Finset.sum_congr rfl hwealth, Finset.sum_add_distrib, hearned]

end Server

end ExchangeEngine
