import ExchangeEngine.Server.Atomicity
import ExchangeEngine.Server.Owned

/-!
# Crashes

The process may be killed at any moment, and started again. What the file of the database then holds
is what has been committed: a reservation commits at once, and so does any other statement; a batch
commits as a whole, and one that has not been committed is undone. Before the threads start, `main`
makes those of its two accounts that are not there yet.
-/

namespace ExchangeEngine

/-- What has been committed to the file, with the statements that `main` has yet to make, or with
the threads. -/
inductive Process
  | starting (file : Database) (statements : List Statement)
  | running (file : Database) (threads : Workers)

namespace Process

def file : Process → Database
  | starting file _ => file
  | running file _ => file

/-- `create_user`, if it gives an id -/
def createUser : Option Int → List Statement
  | some id => [.elsewhere, .initBal id]
  | none => []

/-- `settle_trade` of 500 shares for nothing, if the account is new -/
def gift : Option Int → List Statement
  | some id => [.settleShares id 1 500, .settleCash 0 id]
  | none => []

/-- The process is started, and these accounts are made. -/
def start (db : Database) (shrey akshay : Option Int) : Process :=
  .starting db (createUser shrey ++ createUser akshay ++ gift shrey)

inductive Event
  /-- `main` makes a statement, or starts the threads -/
  | main (buffer : Nat → EngineTask)
  | move (move : Workers.Move)
  /-- the process is killed and started again -/
  | crash (shrey akshay : Option Int)

/-- The process after an event, and the fills; a transaction is open while a batch is being applied.
-/
def step (market : MarketState) (p : Process) : Event → Option (Process × List Trade)
  | .main buffer =>
    match p with
    | starting file (statement :: statements) =>
      some (.starting (file.execute statement) statements, [])
    | starting file [] => some (.running file (.start market file buffer), [])
    | running _ _ => none
  | .move move =>
    match p with
    | starting _ _ => none
    | running file threads => do
      let (threads, fills) ← threads.step move
      some (.running (if threads.Locked then file else threads.db) threads, fills)
  | .crash shrey akshay => some (start p.file shrey akshay, [])

/-- From `p₀`, by events that are allowed where they happen, the process reaches a state; on the way
the books execute `fills`. -/
abbrev Run (market : MarketState) (allowed : Process → Event → Prop) (p₀ : Process) :
    Process → List Trade → Prop :=
  Transition.Run (step market) allowed p₀

end Process

namespace Server

end Server

namespace Process

variable {m : MarketState} {p p' : Process} {s : Server} {move : Workers.Move} {e : Event}
  {fills : List Trade} {accounts : Int → Prop} {u : Int}

/-- What an event does. -/
inductive Steps (m : MarketState) (p : Process) : Event → Process → List Trade → Prop
  | statement {file : Database} {statement : Statement} {statements : List Statement}
      (buffer : Nat → EngineTask) (hat : p = .starting file (statement :: statements)) :
      Steps m p (.main buffer) (.starting (file.execute statement) statements) []
  | started {file : Database} (buffer : Nat → EngineTask) (hat : p = .starting file []) :
      Steps m p (.main buffer) (.running file (.start m file buffer)) []
  | move {file : Database} {threads w : Workers} {move : Workers.Move} {fills : List Trade}
      (hat : p = .running file threads) (hstep : threads.step move = some (w, fills)) :
      Steps m p (.move move) (.running (if w.Locked then file else w.db) w) fills
  | crash (shrey akshay : Option Int) :
      Steps m p (.crash shrey akshay) (start p.file shrey akshay) []

/-- **An event** is one of these. -/
theorem step_steps (h : p.step m e = some (p', fills)) : Steps m p e p' fills := by
  cases e with
  | main buffer =>
    rcases p with ⟨file, _ | ⟨statement, statements⟩⟩ | ⟨file, threads⟩
    · obtain ⟨rfl, rfl⟩ := Prod.mk.inj (Option.some.inj h)
      exact .started buffer rfl
    · obtain ⟨rfl, rfl⟩ := Prod.mk.inj (Option.some.inj h)
      exact .statement buffer rfl
    · cases h
  | move move =>
    cases p with
    | starting file statements => cases h
    | running file threads =>
      obtain ⟨⟨w, fills⟩, hstep, h⟩ := Option.bind_eq_some_iff.mp h
      obtain ⟨rfl, rfl⟩ := Prod.mk.inj (Option.some.inj h)
      exact .move rfl hstep
  | crash shrey akshay =>
    obtain ⟨rfl, rfl⟩ := Prod.mk.inj (Option.some.inj h)
    exact .crash shrey akshay

/-- The process looks like the server `s`; while `main` is at work that is idle. -/
def Shows (m : MarketState) (p : Process) (s : Server) : Prop :=
  match p with
  | starting file _ => s = Server.start m file
  | running file threads => threads.Shows s ∧ file = s.db

lemma Shows.file_eq (h : p.Shows m s) : p.file = s.db := by
  cases p with
  | starting file statements =>
    have hs : s = Server.start m file := h
    rw [hs]
    rfl
  | running file threads => exact h.2

/-- What a move commits. -/
lemma committed_eq {w : Workers} {s s' : Server} {file : Database} (hfile : file = s.db)
    (hshows : w.Shows s') (hlocked : w.Locked → s'.db = s.db) :
    (if w.Locked then file else w.db) = s'.db := by
  split_ifs with h
  · exact hfile.trans (hlocked h).symm
  · exact hshows.batch.db_eq h

/-- The accounts that `main` makes are new. -/
def Missing (db : Database) (shrey akshay : Option Int) : Prop :=
  (∀ id ∈ shrey, ¬ db.Registered id) ∧ ∀ id ∈ akshay, ¬ db.Registered id

instance (db : Database) (shrey akshay : Option Int) : Decidable (Missing db shrey akshay) :=
  inferInstanceAs (Decidable
    ((∀ id ∈ shrey, ¬ db.Registered id) ∧ ∀ id ∈ akshay, ¬ db.Registered id))

/-- Ordinary operation, but for crashes. -/
def Ordinary (p : Process) : Event → Prop
  | .main _ => True
  | .move move =>
    match p with
    | starting _ _ => True
    | running _ threads => threads.Ordinary move
  | .crash shrey akshay => Missing p.file shrey akshay

instance (p : Process) : (e : Event) → Decidable (p.Ordinary e)
  | .main _ => isTrue trivial
  | .move move =>
    match p with
    | starting _ _ => isTrue trivial
    | running _ threads => inferInstanceAs (Decidable (threads.Ordinary move))
  | .crash shrey akshay => inferInstanceAs (Decidable (Missing p.file shrey akshay))

lemma spares_start {db : Database} {shrey akshay : Option Int} (h : Missing db shrey akshay)
    (hu : db.Registered u) :
    ∀ statement ∈ createUser shrey ++ createUser akshay ++ gift shrey, statement.Spares u := by
  have hother : ∀ id, ¬ db.Registered id → u ≠ id := by
    rintro id hid rfl
    exact hid hu
  have hcreate : ∀ account : Option Int, (∀ id ∈ account, ¬ db.Registered id) →
      ∀ statement ∈ createUser account, statement.Spares u := by
    rintro (_ | id) hid statement hstatement
    · cases hstatement
    · rcases List.mem_pair.mp hstatement with rfl | rfl
      · trivial
      · exact hother id (hid id rfl)
  have hgift : ∀ statement ∈ gift shrey, statement.Spares u := by
    intro statement hstatement
    cases hshrey : shrey with
    | none =>
      rw [hshrey] at hstatement
      cases hstatement
    | some id =>
      rw [hshrey] at hstatement
      rcases List.mem_pair.mp hstatement with rfl | rfl
      · exact hother id (h.1 id hshrey)
      · exact hother id (h.1 id hshrey)
  intro statement hstatement
  rcases List.mem_append.mp hstatement with hstatement | hstatement
  · rcases List.mem_append.mp hstatement with hstatement | hstatement
    · exact hcreate shrey h.1 statement hstatement
    · exact hcreate akshay h.2 statement hstatement
  · exact hgift statement hstatement

/-- The process looks like a server in ordinary operation, where these accounts are kept. -/
def Sane (m : MarketState) (accounts : Int → Prop) (p : Process) (s : Server) : Prop :=
  match p with
  | starting file statements => s = Server.start m file ∧ (∀ u, accounts u → file.Registered u) ∧
      ∀ u, accounts u → ∀ statement ∈ statements, statement.Spares u
  | running file threads => threads.Sane accounts s ∧ file = s.db

lemma Sane.file_eq (h : p.Sane m accounts s) : p.file = s.db := by
  cases p with
  | starting file statements =>
    have hs : s = Server.start m file := h.1
    rw [hs]
    rfl
  | running file threads => exact h.2

lemma Sane.registered (h : p.Sane m accounts s) (hu : accounts u) : p.file.Registered u := by
  cases p with
  | starting file statements => exact h.2.1 u hu
  | running file threads =>
    have hfile : file = s.db := h.2
    exact hfile ▸ h.1.accounts u hu

lemma sane_start {db : Database} {shrey akshay : Option Int} (hmissing : Missing db shrey akshay)
    (haccounts : ∀ u, accounts u → db.Registered u) :
    (start db shrey akshay).Sane m accounts (Server.start m db) :=
  ⟨rfl, haccounts, fun u hu => spares_start hmissing (haccounts u hu)⟩

/-- **One ordinary event**, a crash among them, gives an account no more than its fills earn. -/
lemma Sane.step {companies : List Nat} (hm : MarketState.new companies = .ok m)
    (h : p.Sane m accounts s) (hord : p.Ordinary e) (hdb : s.db.NonNegative)
    (hstep : p.step m e = some (p', fills)) :
    ∃ s', p'.Sane m accounts s' ∧ s'.db.NonNegative ∧ ∀ u, accounts u → 0 ≤ u → ∀ a : Asset,
      s'.wealth a u ≤ s.wealth a u + a.earnings u fills := by
  have hsane := h
  have hregistered := fun u => h.registered (u := u)
  cases step_steps hstep with
  | @statement file statement statements buffer hat =>
    rw [hat] at hsane
    obtain ⟨hs, haccounts, hspares⟩ := hsane
    have hs : s = Server.start m file := hs
    rw [hs] at hdb
    refine ⟨Server.start m (file.execute statement), ⟨rfl, ?_, ?_⟩,
      Server.nonNegative_execute statement hdb, fun u hu _ a => ?_⟩
    · exact fun u hu => Server.registered_execute (haccounts u hu)
    · exact fun u hu st hst => hspares u hu st (List.mem_cons_of_mem _ hst)
    · rw [hs, Server.wealth_start hm, Server.wealth_start hm, Asset.earnings_nil, add_zero,
        Server.balance_execute (hspares u hu _ List.mem_cons_self) (haccounts u hu)]
  | @started file buffer hat =>
    rw [hat] at hsane
    obtain ⟨hs, haccounts, -⟩ := hsane
    have hs : s = Server.start m file := hs
    refine ⟨s, ⟨?_, by rw [hs]; rfl⟩, hdb, fun u _ _ a => by rw [Asset.earnings_nil, add_zero]⟩
    rw [hs]
    exact Workers.sane_start file buffer hm haccounts
  | @move file threads w move fills hat hmove =>
    rw [hat] at hsane hord
    obtain ⟨hthreads, hfile⟩ := hsane
    obtain ⟨s', hsane', hnonneg, hlocked, hwealth⟩ := hthreads.step hord hdb hmove
    exact ⟨s', ⟨hsane', committed_eq hfile hsane'.shows hlocked⟩, hnonneg,
      fun u hu hpos a => (hwealth u hu hpos a).le⟩
  | crash shrey akshay =>
    refine ⟨_, sane_start hord hregistered, ?_, fun u _ _ a => ?_⟩
    · rw [h.file_eq]
      exact hdb
    · -- what is on its way is lost
      rw [Server.wealth_start hm, Asset.earnings_nil, add_zero, h.file_eq]
      exact balance_le_wealth s

/-- **Crashes only lose.** In ordinary operation, wherever and however often the process is killed:
an account never has more in the file than it had at first and what its fills, in all lives of the
process, have earned; and nothing in the file is negative. -/
theorem crash_loses {companies : List Nat} {db : Database} {shrey akshay : Option Int}
    (hm : MarketState.new companies = .ok m) (hdb : db.NonNegative)
    (hmissing : Missing db shrey akshay)
    (h : Run m Ordinary (start db shrey akshay) p fills) :
    (∀ u, 0 ≤ u → db.Registered u → ∀ a : Asset,
      a.balance p.file u ≤ a.balance db u + a.earnings u fills) ∧ p.file.NonNegative := by
  have hledger : ∃ s, p.Sane m db.Registered s ∧ s.db.NonNegative ∧ ∀ u, db.Registered u → 0 ≤ u →
      ∀ a : Asset, s.wealth a u ≤ a.balance db u + a.earnings u fills := by
    refine h.invariant (P := fun p fills => ∃ s, p.Sane m db.Registered s ∧ s.db.NonNegative ∧
      ∀ u, db.Registered u → 0 ≤ u →
        ∀ a : Asset, s.wealth a u ≤ a.balance db u + a.earnings u fills)
      ⟨_, sane_start hmissing fun _ hu => hu, hdb, fun u _ _ a => ?_⟩ ?_
    · rw [Server.wealth_start hm, Asset.earnings_nil, add_zero]
    · rintro p p' e fills fills' ⟨s, hsane, hnonneg, hwealth⟩ hord hstep
      obtain ⟨s', hsane', hnonneg', hstep'⟩ := hsane.step hm hord hnonneg hstep
      refine ⟨s', hsane', hnonneg', fun u hu hpos a => (hstep' u hu hpos a).trans ?_⟩
      rw [Asset.earnings_append, ← add_assoc]
      exact add_le_add_left (hwealth u hu hpos a) _
  obtain ⟨s, hsane, hnonneg, hwealth⟩ := hledger
  rw [hsane.file_eq]
  exact ⟨fun u hpos hu a => (balance_le_wealth s).trans (hwealth u hu hpos a), hnonneg⟩

/-- The process starts, there is a trade, and it is killed in the middle of the batch; then it is
started again. -/
def sampleCrash : List Event :=
  [.main fun _ => .snapshot 0] ++ Workers.sampleMoves.map .move ++ [.crash none none]

theorem crash_loses_sampleCrash : ∃ p fills,
    Run Server.sampleMarket Ordinary (start Server.sampleDb none none) p fills ∧
      Asset.cash.earnings 7 fills = -5 ∧ Asset.cash.balance p.file 7 ≤ 995 := by
  obtain ⟨⟨p, fills⟩, hrun, hearned⟩ := Option.map_eq_some_iff.mp
    (by decide +kernel :
      (Transition.runEvents (step Server.sampleMarket) Ordinary
        (start Server.sampleDb none none) sampleCrash).map
        (fun r => Asset.cash.earnings 7 r.2) = some (-5))
  have h := Transition.run_of_runEvents hrun
  obtain ⟨hle, -⟩ := crash_loses Server.new_sampleMarket Server.nonNegative_sampleDb (by decide) h
  refine ⟨p, fills, h, hearned, ?_⟩
  have hcash := hle 7 (by decide) rfl .cash
  rw [show Asset.cash.earnings 7 fills = -5 from hearned] at hcash
  exact hcash

end Process

end ExchangeEngine
