import ExchangeEngine.Server.Settlement

/-!
# Stopping the server

The engine thread, the database worker and the destructor of `Server.h`, each in its own steps: a
critical section of `db_q_mutex_`, one task of a batch, one access to `stop_worker_`. Sleeping
threads may wake up at any time, so notifications decide nothing.

What the destructor waits for is not enough: the engine thread empties its queue before it looks at
`stop_worker_` again, and the database worker may be gone by then.
-/

namespace ExchangeEngine

/-- The critical sections in which a task's database tasks are queued: `on_trade` queues its two
tasks in one. -/
def sections : List DbTask → List (List DbTask)
  | [] => []
  | [task] => [[task]]
  | task :: log :: tasks =>
    if task.type = .settle then [task, log] :: sections tasks
    else [task] :: sections (log :: tasks)

lemma flatten_sections (tasks : List DbTask) : (sections tasks).flatten = tasks := by
  fun_induction sections with
  | case1 => rfl
  | case2 task => rfl
  | case3 task log tasks hsettle ih => rw [List.flatten_cons, ih]; rfl
  | case4 task log tasks hsettle ih => rw [List.flatten_cons, ih]; rfl

/-! ### The threads -/

/-- Where `run_engine_worker` is. -/
inductive EngineThread
  /-- at the outer loop, about to read `stop_worker_` -/
  | checking
  /-- at the inner loop -/
  | popping
  /-- still to queue these -/
  | pushing (sections : List (List DbTask))
  | exited
deriving DecidableEq

/-- Where `run_db_worker` is. -/
inductive DbWorker
  | waiting
  /-- about to apply task `i` of the back buffer -/
  | applying (i : Nat)
  | exited
deriving DecidableEq

/-- Where the destructor is; sessions are served until it starts. -/
inductive Destructor
  | serving
  | stopped
  | notified
  | joinedEngine
  | done
deriving DecidableEq

structure Threads where
  server : Server
  stopWorker : Bool
  engine : EngineThread
  dbWorker : DbWorker
  destructor : Destructor

inductive Move
  | message (now : Int) (msg : Server.Message)
  | engine (fuel : Nat)
  | dbWorker
  | destructor

namespace Threads

def start (market : MarketState) (db : Database) : Threads where
  server := Server.start market db
  stopWorker := false
  engine := .checking
  dbWorker := .waiting
  destructor := .serving

/-- The engine thread: its next state and the tasks it queues. -/
def engineStep (fuel : Nat) (t : Threads) : Option (Threads × List DbTask) :=
  match t.engine with
  | .checking => some ({ t with engine := if t.stopWorker then .exited else .popping }, [])
  | .popping =>
    match t.server.engineQueue with
    | [] => some ({ t with engine := .checking }, [])
    | task :: queue => do
      let e ← runTask fuel t.server.market task
      some
        ({ t with
            server := { t.server with market := e.market, engineQueue := queue }
            engine := .pushing (sections e.pushed) },
          [])
  | .pushing [] => some ({ t with engine := .popping }, [])
  | .pushing (tasks :: rest) =>
    some
      ({ t with
          server := { t.server with dbQueueFront := t.server.dbQueueFront ++ tasks }
          engine := .pushing rest },
        tasks)
  | .exited => none

/-- The database worker: its next state and the tasks it applies. -/
def dbWorkerStep (t : Threads) : Option (Threads × List DbTask) :=
  match t.dbWorker with
  | .waiting =>
    if t.server.dbQueueFront.isEmpty then
      if t.stopWorker then some ({ t with dbWorker := .exited }, []) else none
    else
      some
        ({ t with
            server := { t.server with
              dbQueueFront := t.server.dbQueueBack
              dbQueueBack := t.server.dbQueueFront }
            dbWorker := .applying 0 },
          [])
  | .applying i =>
    match t.server.dbQueueBack[i]? with
    | some task =>
      some
        ({ t with
            server := { t.server with db := applyTask t.server.db task }
            dbWorker := .applying (i + 1) },
          [task])
    | none =>
      some ({ t with server := { t.server with dbQueueBack := [] }, dbWorker := .waiting }, [])
  | .exited => none

/-- `~Server` -/
def destructorStep (t : Threads) : Option Threads :=
  match t.destructor with
  | .serving => some { t with stopWorker := true, destructor := .stopped }
  | .stopped => some { t with destructor := .notified }
  | .notified => if t.engine = .exited then some { t with destructor := .joinedEngine } else none
  | .joinedEngine => if t.dbWorker = .exited then some { t with destructor := .done } else none
  | .done => none

/-- A session handles a message, on the thread that later runs the destructor. -/
def messageStep (now : Int) (msg : Server.Message) (t : Threads) : Option Threads :=
  if t.destructor = .serving then
    (t.server.handleMessage now msg).map fun
      | .ok s => { t with server := s }
      | .error _ => t
  else none

/-- One step of one thread; with it come the database tasks it queues and those it applies. -/
def step (t : Threads) : Move → Option (Threads × List DbTask × List DbTask)
  | .message now msg => (t.messageStep now msg).map fun t' => (t', [], [])
  | .engine fuel => (t.engineStep fuel).map fun x => (x.1, x.2, [])
  | .dbWorker => t.dbWorkerStep.map fun x => (x.1, [], x.2)
  | .destructor => t.destructorStep.map fun t' => (t', [], [])

/-- From `t₀` the threads reach a state by `steps`, each listed with the state it was taken in; on
the way the database tasks `pushed` were queued and `applied` were applied. -/
inductive Run (t₀ : Threads) :
    List (Threads × Move) → Threads → List DbTask → List DbTask → Prop
  | refl : Run t₀ [] t₀ [] []
  | step {steps : List (Threads × Move)} {t t' : Threads} {move : Move}
      {pushed pushed' applied applied' : List DbTask} (hrun : Run t₀ steps t pushed applied)
      (hstep : t.step move = some (t', pushed', applied')) :
      Run t₀ (steps ++ [(t, move)]) t' (pushed ++ pushed') (applied ++ applied')

/-- Run the moves in order. -/
def runMoves (t : Threads) : List Move →
    Option (List (Threads × Move) × Threads × List DbTask × List DbTask)
  | [] => some ([], t, [], [])
  | move :: moves => do
    let (t', pushed, applied) ← t.step move
    let (steps, t'', pushed', applied') ← runMoves t' moves
    some ((t, move) :: steps, t'', pushed ++ pushed', applied ++ applied')

/-! ### What is still to be applied -/

/-- The rest of the back buffer. -/
def unapplied (t : Threads) : List DbTask :=
  match t.dbWorker with
  | .applying i => t.server.dbQueueBack.drop i
  | _ => t.server.dbQueueBack

/-- What the next step of the engine thread queues. -/
def next (t : Threads) : List DbTask :=
  match t.engine with
  | .pushing (tasks :: _) => tasks
  | _ => []

/-- The move does not queue anything once the database worker has exited. -/
def Timely (t : Threads) : Move → Prop
  | .engine _ => t.dbWorker = .exited → t.next = []
  | _ => True

/-! ### Steps -/

variable {t t' : Threads} {move : Move} {pushed pushed' applied applied' : List DbTask}

/-- What every move but those of the database worker does to the buffers. -/
structure Queues (t : Threads) (pushed : List DbTask) (t' : Threads) : Prop where
  dbWorker : t'.dbWorker = t.dbWorker
  back : t'.server.dbQueueBack = t.server.dbQueueBack
  front : t'.server.dbQueueFront = t.server.dbQueueFront ++ pushed

lemma Queues.of_server (hworker : t'.dbWorker = t.dbWorker)
    (hserver : t'.server.dbQueueBack = t.server.dbQueueBack ∧
      t'.server.dbQueueFront = t.server.dbQueueFront) : Queues t [] t' :=
  ⟨hworker, hserver.1, by rw [hserver.2, List.append_nil]⟩

lemma handleMessage_buffers {s s' : Server} {now : Int} {msg : Server.Message}
    (h : s.handleMessage now msg = some (.ok s')) :
    s'.dbQueueBack = s.dbQueueBack ∧ s'.dbQueueFront = s.dbQueueFront := by
  cases Server.handleMessage_handled h <;> exact ⟨rfl, rfl⟩

lemma messageStep_queues {now : Int} {msg : Server.Message}
    (h : t.messageStep now msg = some t') : Queues t [] t' := by
  simp only [messageStep] at h
  split_ifs at h
  obtain ⟨r, hr, h⟩ := Option.map_eq_some_iff.mp h
  cases r with
  | ok s =>
    subst h
    exact .of_server rfl (handleMessage_buffers hr)
  | error e =>
    subst h
    exact .of_server rfl ⟨rfl, rfl⟩

lemma engineStep_queues {fuel : Nat} (h : t.engineStep fuel = some (t', pushed)) :
    Queues t pushed t' ∧ pushed = t.next := by
  simp only [engineStep] at h
  simp only [next]
  split at h
  · next hat =>
    obtain ⟨rfl, rfl⟩ := Prod.mk.inj (Option.some.inj h)
    exact ⟨.of_server rfl ⟨rfl, rfl⟩, by rw [hat]⟩
  · next hat =>
    split at h
    · obtain ⟨rfl, rfl⟩ := Prod.mk.inj (Option.some.inj h)
      exact ⟨.of_server rfl ⟨rfl, rfl⟩, by rw [hat]⟩
    · obtain ⟨e, -, h⟩ := Option.bind_eq_some_iff.mp h
      obtain ⟨rfl, rfl⟩ := Prod.mk.inj (Option.some.inj h)
      exact ⟨.of_server rfl ⟨rfl, rfl⟩, by rw [hat]⟩
  · next hat =>
    obtain ⟨rfl, rfl⟩ := Prod.mk.inj (Option.some.inj h)
    exact ⟨.of_server rfl ⟨rfl, rfl⟩, by rw [hat]⟩
  · next tasks rest hat =>
    obtain ⟨rfl, rfl⟩ := Prod.mk.inj (Option.some.inj h)
    exact ⟨⟨rfl, rfl, rfl⟩, by rw [hat]⟩
  · cases h

lemma destructorStep_queues (h : t.destructorStep = some t') : Queues t [] t' := by
  simp only [destructorStep] at h
  split at h
  · rw [← Option.some.inj h]
    exact .of_server rfl ⟨rfl, rfl⟩
  · rw [← Option.some.inj h]
    exact .of_server rfl ⟨rfl, rfl⟩
  · split_ifs at h
    rw [← Option.some.inj h]
    exact .of_server rfl ⟨rfl, rfl⟩
  · split_ifs at h
    rw [← Option.some.inj h]
    exact .of_server rfl ⟨rfl, rfl⟩
  · cases h

/-- What a move of the database worker does to the buffers. -/
inductive Works (t t' : Threads) : List DbTask → Prop
  | exits (hat : t.dbWorker = .waiting) (hfront : t.server.dbQueueFront = [])
      (hat' : t'.dbWorker = .exited) (hserver : t'.server = t.server) : Works t t' []
  | swaps (hat : t.dbWorker = .waiting) (hat' : t'.dbWorker = .applying 0)
      (hfront : t'.server.dbQueueFront = t.server.dbQueueBack)
      (hback : t'.server.dbQueueBack = t.server.dbQueueFront) : Works t t' []
  | applies {i : Nat} {task : DbTask} (hat : t.dbWorker = .applying i)
      (htask : t.server.dbQueueBack[i]? = some task) (hat' : t'.dbWorker = .applying (i + 1))
      (hfront : t'.server.dbQueueFront = t.server.dbQueueFront)
      (hback : t'.server.dbQueueBack = t.server.dbQueueBack) : Works t t' [task]
  | clears {i : Nat} (hat : t.dbWorker = .applying i) (hend : t.server.dbQueueBack.length ≤ i)
      (hat' : t'.dbWorker = .waiting) (hfront : t'.server.dbQueueFront = t.server.dbQueueFront)
      (hback : t'.server.dbQueueBack = []) : Works t t' []

lemma dbWorkerStep_works (h : t.dbWorkerStep = some (t', applied)) : Works t t' applied := by
  simp only [dbWorkerStep] at h
  split at h
  · next hat =>
    split_ifs at h with hfront hstop
    · obtain ⟨rfl, rfl⟩ := Prod.mk.inj (Option.some.inj h)
      exact .exits hat (List.isEmpty_iff.mp hfront) rfl rfl
    · obtain ⟨rfl, rfl⟩ := Prod.mk.inj (Option.some.inj h)
      exact .swaps hat rfl rfl rfl
  · next i hat =>
    split at h
    · next task htask =>
      obtain ⟨rfl, rfl⟩ := Prod.mk.inj (Option.some.inj h)
      exact .applies hat htask rfl rfl rfl
    · next hend =>
      obtain ⟨rfl, rfl⟩ := Prod.mk.inj (Option.some.inj h)
      exact .clears hat (List.getElem?_eq_none_iff.mp hend) rfl rfl rfl
  · cases h

/-- What a move does to the buffers. -/
inductive Moves (t : Threads) : Move → Threads → List DbTask → List DbTask → Prop
  | queues {move : Move} {t' : Threads} {pushed : List DbTask} (h : Queues t pushed t')
      (htimely : t.Timely move ↔ (t.dbWorker = .exited → pushed = [])) : Moves t move t' pushed []
  | works {t' : Threads} {applied : List DbTask} (h : Works t t' applied) :
      Moves t .dbWorker t' [] applied

/-- **A move** does one of these things. -/
theorem step_moves (h : t.step move = some (t', pushed, applied)) :
    Moves t move t' pushed applied := by
  cases move with
  | message now msg =>
    obtain ⟨t₁, hstep, h⟩ := Option.map_eq_some_iff.mp h
    obtain ⟨rfl, rfl, rfl⟩ : t₁ = t' ∧ [] = pushed ∧ [] = applied := by simpa using h
    exact .queues (messageStep_queues hstep) ⟨fun _ _ => rfl, fun _ => trivial⟩
  | engine fuel =>
    obtain ⟨⟨t₁, tasks⟩, hstep, h⟩ := Option.map_eq_some_iff.mp h
    obtain ⟨rfl, rfl, rfl⟩ : t₁ = t' ∧ tasks = pushed ∧ [] = applied := by simpa using h
    obtain ⟨hqueues, rfl⟩ := engineStep_queues hstep
    exact .queues hqueues Iff.rfl
  | dbWorker =>
    obtain ⟨⟨t₁, tasks⟩, hstep, h⟩ := Option.map_eq_some_iff.mp h
    obtain ⟨rfl, rfl, rfl⟩ : t₁ = t' ∧ [] = pushed ∧ tasks = applied := by simpa using h
    exact .works (dbWorkerStep_works hstep)
  | destructor =>
    obtain ⟨t₁, hstep, h⟩ := Option.map_eq_some_iff.mp h
    obtain ⟨rfl, rfl, rfl⟩ : t₁ = t' ∧ [] = pushed ∧ [] = applied := by simpa using h
    exact .queues (destructorStep_queues hstep) ⟨fun _ _ => rfl, fun _ => trivial⟩

/-! ### Runs -/

lemma Run.head {t'' : Threads} {steps : List (Threads × Move)}
    (hstep : t.step move = some (t', pushed, applied)) (h : Run t' steps t'' pushed' applied') :
    Run t ((t, move) :: steps) t'' (pushed ++ pushed') (applied ++ applied') := by
  induction h with
  | refl =>
    rw [List.append_nil, List.append_nil]
    exact Run.step Run.refl hstep
  | step _ hstep' ih =>
    rw [← List.append_assoc, ← List.append_assoc]
    exact Run.step ih hstep'

/-- The executed moves form a run. -/
theorem run_of_runMoves {moves : List Move} {steps : List (Threads × Move)}
    (h : t.runMoves moves = some (steps, t', pushed, applied)) :
    Run t steps t' pushed applied := by
  induction moves generalizing t steps pushed applied with
  | nil =>
    obtain ⟨rfl, rfl, rfl, rfl⟩ : [] = steps ∧ t = t' ∧ [] = pushed ∧ [] = applied := by
      simpa using Option.some.inj h
    exact Run.refl
  | cons move moves ih =>
    obtain ⟨⟨t₁, pushed₁, applied₁⟩, hstep, h⟩ := Option.bind_eq_some_iff.mp h
    obtain ⟨⟨steps₂, t₂, pushed₂, applied₂⟩, hrest, h⟩ := Option.bind_eq_some_iff.mp h
    obtain ⟨rfl, hout⟩ := Prod.mk.inj (Option.some.inj h)
    cases hout
    exact Run.head hstep (ih hrest)

/-- What holds after `steps`. -/
structure Accounts (t : Threads) (steps : List (Threads × Move)) (pushed applied : List DbTask) :
    Prop where
  all : applied ++ t.unapplied ++ t.server.dbQueueFront = pushed
  /-- between two batches the back buffer is empty -/
  back : (∀ i, t.dbWorker ≠ .applying i) → t.server.dbQueueBack = []
  serving : t.dbWorker ≠ .exited → ∀ x ∈ steps, x.1.Timely x.2
  /-- what is queued after the exit of the database worker stays in the front buffer -/
  late : t.dbWorker = .exited → (t.server.dbQueueFront = [] ↔ ∀ x ∈ steps, x.1.Timely x.2)

variable {steps : List (Threads × Move)}

lemma Accounts.queues (h : t.Accounts steps pushed applied) (hqueues : Queues t pushed' t')
    (htimely : t.Timely move ↔ (t.dbWorker = .exited → pushed' = [])) :
    t'.Accounts (steps ++ [(t, move)]) (pushed ++ pushed') (applied ++ []) where
  all := by
    have hunapplied : t'.unapplied = t.unapplied := by
      rw [unapplied, hqueues.dbWorker, hqueues.back, ← unapplied]
    rw [hunapplied, hqueues.front, ← h.all, List.append_nil, List.append_assoc _ _ pushed']
  back := by
    rw [hqueues.dbWorker, hqueues.back]
    exact h.back
  serving := by
    rw [hqueues.dbWorker, List.forall_mem_append, List.forall_mem_singleton]
    intro hat
    exact ⟨h.serving hat, htimely.mpr fun hexited => absurd hexited hat⟩
  late := by
    rw [hqueues.dbWorker, hqueues.front, List.append_eq_nil_iff, List.forall_mem_append,
      List.forall_mem_singleton]
    intro hat
    rw [h.late hat, htimely, forall_prop_of_true hat]

lemma Accounts.works (h : t.Accounts steps pushed applied) (hworks : Works t t' applied') :
    t'.Accounts (steps ++ [(t, .dbWorker)]) (pushed ++ []) (applied ++ applied') := by
  have hall := h.all
  have hback := h.back
  have hsteps : (∀ x ∈ steps ++ [(t, Move.dbWorker)], x.1.Timely x.2)
      ↔ ∀ x ∈ steps, x.1.Timely x.2 := by
    rw [List.forall_mem_append, List.forall_mem_singleton]
    exact and_iff_left trivial
  have hserving : ∀ x ∈ steps ++ [(t, Move.dbWorker)], x.1.Timely x.2 := by
    refine hsteps.mpr (h.serving ?_)
    cases hworks <;> simp [*]
  rw [List.append_nil]
  cases hworks with
  | exits hat hfront hat' hserver =>
    rw [hat] at hback
    rw [unapplied, hat] at hall
    refine ⟨?_, ?_, fun _ => hserving, fun _ => ?_⟩
    · rw [unapplied, hat', hserver, List.append_nil]
      exact hall
    · intro _
      rw [hserver]
      exact hback fun i => nofun
    · rw [hserver, hfront]
      exact iff_of_true rfl hserving
  | swaps hat hat' hfront hback' =>
    rw [hat] at hback
    have hnil := hback fun i => nofun
    rw [unapplied, hat] at hall
    refine ⟨?_, ?_, fun _ => hserving, fun hexited => ?_⟩
    · simp only [hnil, List.append_nil] at hall
      rw [unapplied, hat', hfront, hback', hnil, List.append_nil, List.append_nil]
      exact hall
    · intro hne
      exact absurd hat' (hne 0)
    · rw [hat'] at hexited
      cases hexited
  | @applies i task hat htask hat' hfront hback' =>
    rw [unapplied, hat] at hall
    obtain ⟨hi, rfl⟩ := List.getElem?_eq_some_iff.mp htask
    refine ⟨?_, ?_, fun _ => hserving, fun hexited => ?_⟩
    · simp only [List.drop_eq_getElem_cons hi] at hall
      rw [unapplied, hat', hfront, hback', ← hall]
      simp only [List.append_assoc, List.cons_append, List.nil_append]
    · intro hne
      exact absurd hat' (hne (i + 1))
    · rw [hat'] at hexited
      cases hexited
  | clears hat hend hat' hfront hback' =>
    rw [unapplied, hat] at hall
    refine ⟨?_, fun _ => hback', fun _ => hserving, fun hexited => ?_⟩
    · simp only [List.drop_eq_nil_of_le hend] at hall
      rw [unapplied, hat', hfront, hback', List.append_nil]
      exact hall
    · rw [hat'] at hexited
      cases hexited

/-- **Every database task is accounted for**, in every run. -/
theorem Run.accounts {market : MarketState} {db : Database}
    (h : Run (start market db) steps t pushed applied) : t.Accounts steps pushed applied := by
  induction h with
  | refl => exact ⟨rfl, fun _ => rfl, fun _ _ => nofun, nofun⟩
  | step _ hstep ih =>
    cases step_moves hstep with
    | queues hqueues htimely => exact ih.queues hqueues htimely
    | works hworks => exact ih.works hworks

/-- **Database tasks are applied at most once and in the order in which they are queued**; those
applied, the rest of the back buffer and the front buffer are all that were queued. When both
threads have exited all of them are applied if and only if none was queued after the exit of the
database worker. -/
theorem applied_once_iff {market : MarketState} {db : Database}
    (h : Run (start market db) steps t pushed applied) :
    applied ++ t.unapplied ++ t.server.dbQueueFront = pushed ∧
      (t.engine = .exited → t.dbWorker = .exited →
        (applied = pushed ↔ ∀ x ∈ steps, x.1.Timely x.2)) := by
  have hacc := h.accounts
  refine ⟨hacc.all, fun _ hexited => ?_⟩
  have hback : t.unapplied = [] := by
    rw [unapplied, hexited]
    refine hacc.back fun i => ?_
    rw [hexited]
    nofun
  have hall := hacc.all
  rw [hback, List.append_nil] at hall
  rw [← hacc.late hexited, ← hall, List.self_eq_append_right]

/-! ### Two runs -/

/-- User 8 offers a share, user 7 buys it; the engine thread is at its inner loop. -/
def sampleBuy : List Move :=
  [.message 0 (.order ⟨"b", some 1, some "SELL", some 5, some 1, some 0, false, none⟩),
    .message 0 (.order ⟨"a", some 1, some "BUY", some 6, some 1, some 0, false, none⟩),
    .engine 100001]

/-- The engine thread takes both orders, queues what follows from them, and exits. -/
def sampleDrain : List Move := List.replicate 7 (.engine 100001)

/-- The destructor up to its first `join`. -/
def sampleStop : List Move := [.destructor, .destructor]

theorem applied_once_iff_sampleBuy : ∃ steps t pushed applied,
    Run (start Server.sampleMarket Server.sampleDb) steps t pushed applied ∧
      t.engine = .exited ∧ t.dbWorker = .exited ∧ pushed ≠ [] ∧
      applied ++ t.unapplied ++ t.server.dbQueueFront = pushed ∧
      (applied = pushed ↔ ∀ x ∈ steps, x.1.Timely x.2) ∧ applied = pushed := by
  obtain ⟨⟨steps, t, pushed, applied⟩, hrun, hout⟩ := Option.map_eq_some_iff.mp
    (by decide +kernel : (((start Server.sampleMarket Server.sampleDb).runMoves
      (sampleBuy ++ sampleStop ++ sampleDrain ++ List.replicate 5 .dbWorker)).map fun x =>
        decide (x.2.1.engine = .exited ∧ x.2.1.dbWorker = .exited ∧ x.2.2.1 ≠ [] ∧
          x.2.2.2 = x.2.2.1)) = some true)
  obtain ⟨hengine, hworker, hpushed, happlied⟩ := of_decide_eq_true hout
  have h := run_of_runMoves hrun
  obtain ⟨hall, hiff⟩ := applied_once_iff h
  exact ⟨steps, t, pushed, applied, h, hengine, hworker, hpushed, hall, hiff hengine hworker,
    happlied⟩

/-- The database worker finds its buffer empty and exits, then the engine thread takes the orders:
the trade is never settled. -/
theorem settlement_lost_at_exit : ∃ steps t pushed applied,
    Run (start Server.sampleMarket Server.sampleDb) steps t pushed applied ∧
      t.destructor = .done ∧ t.engine = .exited ∧ t.dbWorker = .exited ∧
      pushed = [⟨7, 8, 1, 5, 6, 1, .settle⟩, ⟨7, 8, 1, 5, 0, 1, .logTrade⟩] ∧ applied = [] := by
  obtain ⟨⟨steps, t, pushed, applied⟩, hrun, hout⟩ := Option.map_eq_some_iff.mp
    (by decide +kernel : (((start Server.sampleMarket Server.sampleDb).runMoves
      (sampleBuy ++ sampleStop ++ [.dbWorker] ++ sampleDrain ++ sampleStop)).map fun x =>
        decide (x.2.1.destructor = .done ∧ x.2.1.engine = .exited ∧ x.2.1.dbWorker = .exited ∧
          x.2.2.1 = [⟨7, 8, 1, 5, 6, 1, .settle⟩, ⟨7, 8, 1, 5, 0, 1, .logTrade⟩] ∧
          x.2.2.2 = [])) = some true)
  exact ⟨steps, t, pushed, applied, run_of_runMoves hrun, of_decide_eq_true hout⟩

end Threads

end ExchangeEngine
