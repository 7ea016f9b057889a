import ExchangeEngine.Library.Fairness
import ExchangeEngine.Server.Fit
import ExchangeEngine.Server.Mutexes
import Mathlib.Data.Prod.Lex

/-!
# Everything gets done

A push spins while the ring is full, a pop while it is empty, the threads wait for the mutex of the
database and for that of the registry, and the database worker for a batch. None of them waits for
ever: when nothing more comes in, all that is on its way is done, whatever turns the threads are
given, if each of them gets turns again and again.
-/

namespace ExchangeEngine

/-! ### The ring -/

namespace SPSCQueue

variable {α : Type*} {k : Nat} {q : SPSCQueue α} {s : Fifo α}

/-- How far a push is from its end; on a full ring it starts again and again. -/
def pushPhase (size : Nat) (q : SPSCQueue α) : Nat :=
  match q.pushing with
  | .idle => 4
  | .loadedTail _ _ => if (q.items size).length = size - 1 then 4 else 3
  | .checked _ _ _ => 2
  | .written _ _ => 1

/-- How far a pop is from its end, if there is something to pop. -/
def popPhase (size : Nat) (q : SPSCQueue α) : Nat :=
  if (q.items size).isEmpty then 0
  else
    match q.popping with
    | .idle => 4
    | .loadedHead _ => 3
    | .checked _ => 2
    | .read _ _ => 1

lemma pushPhase_le (size : Nat) (q : SPSCQueue α) : q.pushPhase size ≤ 4 := by
  rw [pushPhase]
  split
  · decide
  · split_ifs <;> decide
  · decide
  · decide

lemma popPhase_le (size : Nat) (q : SPSCQueue α) : q.popPhase size ≤ 4 := by
  rw [popPhase]
  split_ifs
  · decide
  · split <;> decide

lemma popPhase_pos {size : Nat} (h : q.items size ≠ []) : 0 < q.popPhase size := by
  rw [popPhase, if_neg (by simpa using h)]
  split <;> decide

lemma popping_pushStep (size : Nat) (item : α) : (q.pushStep size item).1.popping = q.popping := by
  simp only [pushStep]
  cases q.pushing with
  | loadedTail x tail =>
    simp only
    split_ifs <;> rfl
  | _ => rfl

lemma length_items_lt (h : Represents (2 ^ k) q s) : (q.items (2 ^ k)).length < 2 ^ k := by
  rw [h.items_eq]
  exact h.room

/-- A step of a push that does not end it: the ring holds what it held. -/
lemma items_pushStep_of_none (h : Represents (2 ^ k) q s) {item : α}
    (hnone : (q.pushStep (2 ^ k) item).2.accepted = none) :
    (q.pushStep (2 ^ k) item).1.items (2 ^ k) = q.items (2 ^ k) := by
  rw [items_pushStep h, hnone, Option.toList_none, List.append_nil]

lemma items_popStep_of_none (h : Represents (2 ^ k) q s) {left : α}
    (hnone : (q.popStep (2 ^ k) left).2.taken = none) :
    (q.popStep (2 ^ k) left).1.items (2 ^ k) = q.items (2 ^ k) := by
  rw [items_popStep h left, hnone]
  rfl

/-- **A step of a push** brings it closer to its end, if the ring is not full. -/
lemma pushPhase_pushStep (h : Represents (2 ^ k) q s) {item : α}
    (hnone : (q.pushStep (2 ^ k) item).2.accepted = none) :
    (q.pushStep (2 ^ k) item).1.pushPhase (2 ^ k) < q.pushPhase (2 ^ k) ∨
      (q.pushStep (2 ^ k) item).1.pushPhase (2 ^ k) = q.pushPhase (2 ^ k) ∧
        (q.items (2 ^ k)).length = 2 ^ k - 1 := by
  have hitems := items_pushStep_of_none h hnone
  obtain ⟨s', hstep, -⟩ := h.pushStep item
  simp only [pushPhase, hitems]
  cases hp : q.pushing with
  | idle =>
    simp only [pushStep, hp]
    split_ifs with hfull
    · exact Or.inr ⟨rfl, hfull⟩
    · exact Or.inl (by decide)
  | loadedTail x tail =>
    simp only [pushStep, hp] at hstep ⊢
    split_ifs at hstep ⊢ with hnext hfull hfull
    · exact Or.inr ⟨rfl, hfull⟩
    · cases hstep with
      | pushFailed hlength => exact absurd (h.items_eq ▸ hlength) hfull
    · exact Or.inl (show 2 < 4 by decide)
    · exact Or.inl (show 2 < 3 by decide)
  | checked x tail nextTail =>
    simp only [pushStep, hp]
    exact Or.inl (by decide)
  | written x nextTail =>
    simp only [pushStep, hp] at hnone
    cases hnone

/-- **A step of a pop** brings it closer to its end, if there is something to pop. -/
lemma popPhase_popStep (h : Represents (2 ^ k) q s) {left : α}
    (hnone : (q.popStep (2 ^ k) left).2.taken = none) :
    (q.popStep (2 ^ k) left).1.popPhase (2 ^ k) < q.popPhase (2 ^ k) ∨
      (q.popStep (2 ^ k) left).1.popPhase (2 ^ k) = q.popPhase (2 ^ k) ∧
        q.items (2 ^ k) = [] := by
  have hitems := items_popStep_of_none h hnone
  obtain ⟨s', hstep, -⟩ := h.popStep left
  simp only [popPhase, hitems, List.isEmpty_iff]
  by_cases hempty : q.items (2 ^ k) = []
  · exact Or.inr ⟨by rw [if_pos hempty, if_pos hempty], hempty⟩
  rw [if_neg hempty, if_neg hempty]
  left
  cases hp : q.popping with
  | idle =>
    simp only [popStep, hp]
    decide
  | loadedHead head =>
    simp only [popStep, hp] at hstep ⊢
    split_ifs at hstep ⊢
    · cases hstep with
      | popFailed hnil => exact absurd (h.items_eq.trans hnil) hempty
    · show 2 < 3
      decide
  | checked head =>
    simp only [popStep, hp]
    decide
  | read x head =>
    simp only [popStep, hp] at hnone
    cases hnone

/-- What comes out leaves room for a push. -/
lemma pushPhase_popStep_le (h : Represents (2 ^ k) q s) {left item : α}
    (hsome : (q.popStep (2 ^ k) left).2.taken = some item) :
    (q.popStep (2 ^ k) left).1.pushPhase (2 ^ k) ≤ q.pushPhase (2 ^ k) := by
  have hitems := items_popStep h left
  have hlength := length_items_lt h
  rw [hsome] at hitems
  rw [hitems, Option.toList_some, List.length_append, List.length_singleton] at hlength
  simp only [pushPhase, pushing_popStep]
  cases q.pushing with
  | loadedTail x tail =>
    simp only
    have hroom : ((q.popStep (2 ^ k) left).1.items (2 ^ k)).length ≠ 2 ^ k - 1 := by omega
    rw [if_neg hroom]
    split_ifs <;> decide
  | _ => exact le_rfl

end SPSCQueue

/-! ### What is still to do -/

lemma EngineWorker.mem_taken {engine : EngineWorker} {task : EngineTask} (h : task ∈ engine.taken) :
    engine = .running task := by
  cases engine with
  | running running => rw [List.mem_singleton.mp h]
  | _ => cases h

/-- How many engine tasks a handler may still queue. -/
def SessionThread.todo : SessionThread → Nat
  | .reading => 0
  | .authenticating _ _ _ => 1
  | .pricing _ _ _ _ _ => 1
  | .reserving _ _ _ _ _ _ => 1
  | .pushing _ => 1
  | .calling _ none => 0
  | .calling _ (some _) => 1
  | .joining => 1
  | .leaving => 0

/-- The steps of calls of the database, with those that lock and unlock. -/
def callsWork (calls : List (List Statement)) : Nat :=
  (calls.map fun statements => statements.length + 2).sum

/-- What a handler has to do, if a push has `phase` to go. -/
def SessionThread.work (phase : Nat) : SessionThread → Nat
  | .reading => 0
  | .authenticating _ _ _ => 13
  | .pricing _ _ _ _ _ => 11
  | .reserving _ _ _ _ _ _ => 10
  | .pushing _ => phase + 4
  | .calling calls none => callsWork calls + 1
  | .calling calls (some _) => callsWork calls + 9
  | .joining => 10
  | .leaving => 2

lemma SessionThread.work_mono {n n' : Nat} (h : n ≤ n') (session : SessionThread) :
    session.work n ≤ session.work n' := by
  cases session with
  | pushing task => exact Nat.add_le_add_right h 4
  | calling calls snapshot => cases snapshot <;> exact le_rfl
  | _ => exact le_rfl

def Report.work : Report → Nat
  | .broadcast => 2
  | .queue _ => 1

lemma length_affectedUsers (tasks : List DbTask) :
    (affectedUsers tasks).length ≤ 2 * tasks.length := by
  rw [affectedUsers, List.length_insertionSort]
  refine (List.dedup_sublist _).length_le.trans ?_
  have hsum := List.sum_le_card_nsmul (tasks.map fun task => task.users.length) 2 fun n hn => ?_
  · rw [List.length_map, smul_eq_mul, mul_comm] at hsum
    rwa [List.length_flatMap]
  · obtain ⟨task, -, rfl⟩ := List.mem_map.mp hn
    simp only [DbTask.users]
    cases task.type <;> simp

namespace Workers

/-- Whose turn it is. -/
def Move.thread : Move → Thread
  | .engine _ _ => .engine
  | .dbWorker _ => .dbWorker
  | _ => .session

/-- Nothing comes in, and the loops of the matching run to their end. -/
def Move.Goes : Move → Prop
  | .receive _ _ => False
  | .errand _ => False
  | .accept => False
  | .leave => False
  | .session _ _ => True
  | .engine fuel _ => maxOrders < fuel
  | .dbWorker _ => True

variable {w w' : Workers} {s : Server} {move : Move} {fills : List Trade} {fuel : Nat}

/-- Has a thread yet to lock a mutex? -/
def unlocked (mutex : Option Thread) (thread : Thread) : Nat := if mutex = some thread then 0 else 1

lemma unlocked_none (thread : Thread) : unlocked none thread = 1 := rfl

lemma unlocked_self (thread : Thread) : unlocked (some thread) thread = 0 := if_pos rfl

/-- The engine tasks that are not done, with the one that may still be queued. -/
def undone (w : Workers) : Nat :=
  w.engine.taken.length + (w.engineQueue.items size).length + w.session.todo

def sessionWork (w : Workers) : Nat :=
  w.session.work (w.engineQueue.pushPhase size) + unlocked w.dbMutex .session
    + unlocked w.registryMutex .session

def engineWork (w : Workers) : Nat :=
  (match w.engine with
    | .popping => w.engineQueue.popPhase size
    | .running _ => 0
    | .reporting reports => (reports.map Report.work).sum + 5)
  + unlocked w.dbMutex .engine + unlocked w.registryMutex .engine

/-- What the database worker has to do, but for the sessions of a user. -/
def dbWork (w : Workers) : Nat :=
  (if w.dbQueueFront = [] then 0 else 5 * w.dbQueueFront.length + 4) +
    match w.dbWorker with
    | .waiting => 0
    | .swapped => 5 * w.dbQueueBack.length + 3
    | .applying i => w.dbQueueBack.length - i + 4 * w.dbQueueBack.length + 2
    | .notifying users => 2 * users.length + 1
    | .updating _ users => 2 * users.length + 2

def updateWork (w : Workers) : Nat :=
  (match w.dbWorker with
    | .updating sessions _ => 2 * sessions
    | _ => 0)
  + unlocked w.dbMutex .dbWorker

/-- What is still to do, the tasks before all else: they lead to more work for the engine thread,
that to more for the database worker, and a user may have any number of sessions. -/
def rank (w : Workers) : ℕ ×ₗ ℕ ×ₗ ℕ ×ₗ ℕ ×ₗ ℕ :=
  toLex (w.undone, toLex (w.sessionWork, toLex (w.engineWork, toLex (w.dbWork, w.updateWork))))

/-- Nothing is on its way. -/
structure Quiet (w : Workers) : Prop where
  session : w.session = .reading
  engine : w.engine = .popping
  ring : w.engineQueue.items size = []
  front : w.dbQueueFront = []
  dbWorker : w.dbWorker = .waiting

open Classical in
/-- The thread whose turn is waited for. -/
noncomputable def helper (w : Workers) : Thread :=
  if ¬ w.EngineWaits then .engine
  else if ¬ w.DbWorkerWaits then .dbWorker
  else .session

lemma helper_engine (h : ¬ w.EngineWaits) : w.helper = .engine := if_pos h

lemma helper_of_waits (h : w.EngineWaits) : w.helper ≠ .engine := by
  rw [helper, if_neg (not_not_intro h)]
  split_ifs
  · exact Thread.noConfusion
  · exact Thread.noConfusion

lemma helper_dbWorker (h : w.EngineWaits) (hdb : ¬ w.DbWorkerWaits) : w.helper = .dbWorker := by
  rw [helper, if_neg (not_not_intro h), if_pos hdb]

lemma helper_session (h : w.EngineWaits) (hdb : w.DbWorkerWaits) : w.helper = .session := by
  rw [helper, if_neg (not_not_intro h), if_neg (not_not_intro hdb)]

/-- A handler that pushes is not waited for while there are tasks in the ring. -/
lemma Held.helper_ne_session {task : EngineTask} (h : w.Held) (hat : w.session = .pushing task)
    (hring : w.engineQueue.items size ≠ []) : w.helper ≠ .session := by
  by_cases hengine : w.EngineWaits
  · by_cases hdb : w.DbWorkerWaits
    · obtain ⟨⟨-, hnil⟩, -⟩ := h.idle_of_waits hengine hdb (by rw [hat]; exact id)
        (by rw [hat]; exact id)
      exact absurd hnil hring
    · rw [helper_dbWorker hengine hdb]
      exact Thread.noConfusion
  · rw [helper_engine hengine]
    exact Thread.noConfusion

/-! ### What a step does to the rank -/

lemma rank_lt_of_undone (h : w'.undone < w.undone) : w'.rank < w.rank :=
  Prod.Lex.toLex_lt_toLex'.mpr ⟨h.le, fun heq => absurd heq h.ne⟩

lemma rank_lt_of_sessionWork (hundone : w'.undone = w.undone)
    (h : w'.sessionWork < w.sessionWork) : w'.rank < w.rank :=
  Prod.Lex.toLex_lt_toLex'.mpr ⟨hundone.le, fun _ =>
    Prod.Lex.toLex_lt_toLex'.mpr ⟨h.le, fun heq => absurd heq h.ne⟩⟩

lemma rank_lt_of_engineWork (hundone : w'.undone = w.undone)
    (hsession : w'.sessionWork ≤ w.sessionWork) (h : w'.engineWork < w.engineWork) :
    w'.rank < w.rank :=
  Prod.Lex.toLex_lt_toLex'.mpr ⟨hundone.le, fun _ =>
    Prod.Lex.toLex_lt_toLex'.mpr ⟨hsession, fun _ =>
      Prod.Lex.toLex_lt_toLex'.mpr ⟨h.le, fun heq => absurd heq h.ne⟩⟩⟩

lemma rank_lt_of_dbWork (hundone : w'.undone = w.undone) (hsession : w'.sessionWork = w.sessionWork)
    (hengine : w'.engineWork = w.engineWork) (h : w'.dbWork < w.dbWork) : w'.rank < w.rank :=
  Prod.Lex.toLex_lt_toLex'.mpr ⟨hundone.le, fun _ =>
    Prod.Lex.toLex_lt_toLex'.mpr ⟨hsession.le, fun _ =>
      Prod.Lex.toLex_lt_toLex'.mpr ⟨hengine.le, fun _ =>
        Prod.Lex.toLex_lt_toLex'.mpr ⟨h.le, fun heq => absurd heq h.ne⟩⟩⟩⟩

lemma rank_lt_of_updateWork (hundone : w'.undone = w.undone)
    (hsession : w'.sessionWork = w.sessionWork) (hengine : w'.engineWork = w.engineWork)
    (hdb : w'.dbWork = w.dbWork) (h : w'.updateWork < w.updateWork) : w'.rank < w.rank :=
  Prod.Lex.toLex_lt_toLex'.mpr ⟨hundone.le, fun _ =>
    Prod.Lex.toLex_lt_toLex'.mpr ⟨hsession.le, fun _ =>
      Prod.Lex.toLex_lt_toLex'.mpr ⟨hengine.le, fun _ =>
        Prod.Lex.toLex_lt_toLex'.mpr ⟨hdb.le, fun _ => h⟩⟩⟩⟩

lemma helper_setQueue {queue : SPSCQueue EngineTask}
    (hitems : queue.items size = w.engineQueue.items size) :
    ({ w with engineQueue := queue } : Workers).helper = w.helper := by
  have hwaits : ({ w with engineQueue := queue } : Workers).EngineWaits ↔ w.EngineWaits := by
    rw [EngineWaits, EngineWaits, hitems]
  have hdb : ({ w with engineQueue := queue } : Workers).DbWorkerWaits ↔ w.DbWorkerWaits := Iff.rfl
  rw [helper, helper, hwaits, hdb]

/-- The rank falls, or a thread that is not waited for turns in vain. -/
def Descends (w : Workers) (move : Move) (w' : Workers) : Prop :=
  w'.rank < w.rank ∨ w'.rank = w.rank ∧ w'.helper = w.helper ∧ move.thread ≠ w.helper

/-- A push that spins is on a full ring: the engine thread is waited for. -/
lemma descends_pushing {refPrice : Nat} {user : Bool} {task : EngineTask} (h : w.Shows s)
    (hheld : w.Held) (hat : w.session = .pushing task)
    (hnone : (w.engineQueue.pushStep size task).2.accepted = none) :
    w.Descends (.session refPrice user)
      { w with engineQueue := (w.engineQueue.pushStep size task).1 } := by
  obtain ⟨fifo, hring⟩ := h.ring
  have hitems : (w.engineQueue.pushStep size task).1.items size = w.engineQueue.items size :=
    SPSCQueue.items_pushStep_of_none hring hnone
  have hundone : ({ w with engineQueue := (w.engineQueue.pushStep size task).1 } : Workers).undone
      = w.undone := by
    rw [undone, undone, hitems]
  rcases SPSCQueue.pushPhase_pushStep hring hnone with hlt | ⟨heq, hfull⟩
  · refine Or.inl (rank_lt_of_sessionWork hundone ?_)
    rw [sessionWork, sessionWork, hat]
    exact Nat.add_lt_add_right (Nat.add_lt_add_right (Nat.add_lt_add_right hlt 4) _) _
  · have hbusy : w.engineQueue.items size ≠ [] := by
      intro hnil
      rw [← size, hnil] at hfull
      exact absurd hfull (by decide)
    refine Or.inr ⟨?_, helper_setQueue hitems, (hheld.helper_ne_session hat hbusy).symm⟩
    have hsession : ({ w with engineQueue := (w.engineQueue.pushStep size task).1 } :
        Workers).sessionWork = w.sessionWork := by
      rw [sessionWork, sessionWork]
      exact congrArg (fun n => w.session.work n + _ + _) heq
    have hengine : ({ w with engineQueue := (w.engineQueue.pushStep size task).1 } :
        Workers).engineWork = w.engineWork := by
      simp only [engineWork, SPSCQueue.popPhase, hitems, SPSCQueue.popping_pushStep]
    rw [rank, rank, hundone, hsession, hengine]
    rfl

/-- A pop that spins is on an empty ring: the engine thread is not waited for. -/
lemma descends_popping {left : EngineTask} (h : w.Shows s) (hat : w.engine = .popping)
    (hnone : (w.engineQueue.popStep size left).2.taken = none) :
    w.Descends (.engine fuel left)
      { w with engineQueue := (w.engineQueue.popStep size left).1 } := by
  obtain ⟨fifo, hring⟩ := h.ring
  have hitems : (w.engineQueue.popStep size left).1.items size = w.engineQueue.items size :=
    SPSCQueue.items_popStep_of_none hring hnone
  have hundone : ({ w with engineQueue := (w.engineQueue.popStep size left).1 } : Workers).undone
      = w.undone := by
    rw [undone, undone, hitems]
  have hsession : ({ w with engineQueue := (w.engineQueue.popStep size left).1 } :
      Workers).sessionWork = w.sessionWork := by
    simp only [sessionWork, SPSCQueue.pushPhase, hitems, SPSCQueue.pushing_popStep]
  rcases SPSCQueue.popPhase_popStep hring hnone with hlt | ⟨heq, hnil⟩
  · refine Or.inl (rank_lt_of_engineWork hundone hsession.le ?_)
    rw [engineWork, engineWork, hat]
    exact Nat.add_lt_add_right (Nat.add_lt_add_right hlt _) _
  · have hwaits : w.EngineWaits := by
      rw [EngineWaits, hat]
      exact hnil
    refine Or.inr ⟨?_, helper_setQueue hitems, (helper_of_waits hwaits).symm⟩
    have hengine : ({ w with engineQueue := (w.engineQueue.popStep size left).1 } :
        Workers).engineWork = w.engineWork := by
      rw [engineWork, engineWork, hat]
      exact congrArg (fun n => n + _ + _) heq
    rw [rank, rank, hundone, hsession, hengine]
    rfl

lemma todo_afterPush (user : Bool) (task : EngineTask) : (afterPush user task).todo = 0 := by
  cases task with
  | snapshot companyId => cases user <;> rfl
  | _ => rfl

lemma work_afterPush (user : Bool) (task : EngineTask) (n : Nat) :
    (afterPush user task).work n ≤ 3 := by
  cases task with
  | snapshot companyId => cases user <;> simp [afterPush, userUpdate, SessionThread.work, callsWork]
  | _ => simp [afterPush, SessionThread.work]

/-- What is pushed is one more in the ring, and one less to be pushed. -/
lemma descends_pushed {refPrice : Nat} {user : Bool} {task item : EngineTask} (h : w.Shows s)
    (hat : w.session = .pushing task)
    (hsome : (w.engineQueue.pushStep size task).2 = .pushed item) :
    w.Descends (.session refPrice user)
      { w with
        engineQueue := (w.engineQueue.pushStep size task).1, session := afterPush user task } := by
  obtain ⟨fifo, hring⟩ := h.ring
  have hitems : (w.engineQueue.pushStep size task).1.items size
      = w.engineQueue.items size ++ (w.engineQueue.pushStep size task).2.accepted.toList :=
    SPSCQueue.items_pushStep hring task
  refine Or.inl (rank_lt_of_sessionWork ?_ ?_)
  · rw [undone, undone, hitems, hsome, hat, List.length_append, todo_afterPush]
    rfl
  · rw [sessionWork, sessionWork, hat]
    refine Nat.add_lt_add_right (Nat.add_lt_add_right ?_ _) _
    exact Nat.lt_add_left _ (Nat.lt_succ_of_le (work_afterPush user task _))

/-- What is popped is one less in the ring, and in the hands of the engine thread. -/
lemma descends_popped {left task : EngineTask} (h : w.Shows s) (hat : w.engine = .popping)
    (hsome : (w.engineQueue.popStep size left).2 = .popped task) :
    w.Descends (.engine fuel left)
      { w with
        engineQueue := (w.engineQueue.popStep size left).1, engine := .running task } := by
  obtain ⟨fifo, hring⟩ := h.ring
  have hitems : w.engineQueue.items size = (w.engineQueue.popStep size left).2.taken.toList
      ++ (w.engineQueue.popStep size left).1.items size := SPSCQueue.items_popStep hring left
  have htaken : (w.engineQueue.popStep size left).2.taken = some task := by
    rw [hsome]
    rfl
  rw [htaken, Option.toList_some, List.singleton_append] at hitems
  refine Or.inl (rank_lt_of_engineWork ?_ ?_ ?_)
  · rw [undone, undone, hitems, hat, List.length_cons]
    simp only [EngineWorker.taken, List.length_singleton, List.length_nil]
    omega
  · have hphase := SessionThread.work_mono (SPSCQueue.pushPhase_popStep_le hring htaken) w.session
    exact Nat.add_le_add_right (Nat.add_le_add_right hphase _) _
  · rw [engineWork, engineWork, hat]
    refine Nat.add_lt_add_right (Nat.add_lt_add_right ?_ _) _
    refine SPSCQueue.popPhase_pos fun hnil => ?_
    rw [hnil] at hitems
    cases hitems

/-- A request that is not dropped is closer to its end. -/
lemma allow_work (m : MarketState) (userId : Int) (request : Request) :
    allow m userId request = .reading ∨
      (allow m userId request).todo = 1 ∧ ∀ n ≤ 4, (allow m userId request).work n ≤ 11 := by
  cases request with
  | order stress syntheticUserId companyId side price quantity timestamp =>
    refine Or.inr ?_
    simp only [allow]
    split_ifs
    · exact ⟨rfl, fun n hn => (Nat.add_le_add_right hn 4).trans (by decide)⟩
    · exact ⟨rfl, fun n hn => (Nat.add_le_add_right hn 4).trans (by decide)⟩
    · exact ⟨rfl, fun n hn => Nat.le_succ 10⟩
  | marketOrder companyId side quantity timestamp =>
    simp only [allow]
    split_ifs
    · exact Or.inr ⟨rfl, fun n hn => le_rfl⟩
    · exact Or.inl rfl
  | cancel companyId orderId =>
    exact Or.inr ⟨rfl, fun n hn => (Nat.add_le_add_right hn 4).trans (by decide)⟩

/-- A step of the handler. -/
lemma Steps.descends_session (h : w.Shows s) (hheld : w.Held) (hgoes : move.Goes)
    (hthread : move.thread = .session) (hsteps : Steps w move w' fills) :
    w.Descends move w' := by
  cases hsteps with
  | @entered move session hat hhandler =>
    cases move with
    | session refPrice user => cases hhandler
    | engine fuel left => cases hhandler
    | dbWorker sessions => cases hhandler
    | _ => exact hgoes.elim
  | lockedDb hat hfree =>
    refine Or.inl (rank_lt_of_sessionWork rfl ?_)
    rw [sessionWork, sessionWork, hfree]
    exact Nat.add_lt_add_right (Nat.lt_succ_self _) _
  | lockedRegistry hat hfree =>
    refine Or.inl (rank_lt_of_sessionWork rfl ?_)
    rw [sessionWork, sessionWork, hfree]
    exact Nat.lt_succ_self _
  | unauthenticated hat =>
    refine Or.inl (rank_lt_of_undone ?_)
    rw [undone, undone, hat]
    exact Nat.lt_succ_self _
  | @authenticated refPrice user now token request userId hat hmutex =>
    rcases allow_work w.market userId request with hreading | ⟨htodo, hwork⟩
    · refine Or.inl (rank_lt_of_undone ?_)
      rw [undone, undone, hat, hreading]
      exact Nat.lt_succ_self _
    · refine Or.inl (rank_lt_of_sessionWork ?_ ?_)
      · rw [undone, undone, hat, htodo]
        rfl
      · have hle := hwork _ (SPSCQueue.pushPhase_le size w.engineQueue)
        rw [sessionWork, sessionWork, hat, hmutex]
        refine Nat.add_lt_add_right ?_ _
        simp only [unlocked_none, unlocked_self]
        exact Nat.lt_succ_of_le (Nat.succ_le_succ hle)
  | unpriced hat =>
    refine Or.inl (rank_lt_of_undone ?_)
    rw [undone, undone, hat]
    exact Nat.lt_succ_self _
  | priced hat =>
    refine Or.inl (rank_lt_of_sessionWork ?_ ?_)
    · rw [undone, undone, hat]
      rfl
    · rw [sessionWork, sessionWork, hat]
      exact Nat.add_lt_add_right (Nat.add_lt_add_right (Nat.lt_succ_self 10) _) _
  | refused hat =>
    refine Or.inl (rank_lt_of_undone ?_)
    rw [undone, undone, hat]
    exact Nat.lt_succ_self _
  | reserved hat hmutex =>
    have hphase := SPSCQueue.pushPhase_le size w.engineQueue
    refine Or.inl (rank_lt_of_sessionWork ?_ ?_)
    · rw [undone, undone, hat]
      rfl
    · rw [sessionWork, sessionWork, hat, hmutex]
      refine Nat.add_lt_add_right ?_ _
      simp only [SessionThread.work, unlocked_none, unlocked_self]
      omega
  | pushing hat hnone => exact descends_pushing h hheld hat hnone
  | pushed hat hsome => exact descends_pushed h hat hsome
  | @called refPrice user snapshot hat =>
    have hphase := SPSCQueue.pushPhase_le size w.engineQueue
    refine Or.inl (rank_lt_of_sessionWork ?_ ?_)
    · rw [undone, undone, hat]
      cases snapshot <;> rfl
    · rw [sessionWork, sessionWork, hat]
      refine Nat.add_lt_add_right (Nat.add_lt_add_right ?_ _) _
      cases snapshot <;> simp only [afterCalls, SessionThread.work] <;> omega
  | @calling refPrice user calls snapshot hat hmutex =>
    refine Or.inl (rank_lt_of_sessionWork ?_ ?_)
    · rw [undone, undone, hat]
      cases snapshot <;> rfl
    · rw [sessionWork, sessionWork, hat, hmutex]
      refine Nat.add_lt_add_right ?_ _
      cases snapshot <;>
        simp only [SessionThread.work, callsWork, List.map_cons, List.sum_cons, List.length_nil,
          unlocked_none, unlocked_self] <;> omega
  | @executed refPrice user statement statements calls snapshot hat hmutex =>
    refine Or.inl (rank_lt_of_sessionWork ?_ ?_)
    · rw [undone, undone, hat]
      cases snapshot <;> rfl
    · rw [sessionWork, sessionWork, hat]
      refine Nat.add_lt_add_right (Nat.add_lt_add_right ?_ _) _
      cases snapshot <;>
        simp only [SessionThread.work, callsWork, List.map_cons, List.sum_cons,
          List.length_cons] <;> omega
  | joined hat hmutex =>
    have hphase := SPSCQueue.pushPhase_le size w.engineQueue
    refine Or.inl (rank_lt_of_sessionWork ?_ ?_)
    · rw [undone, undone, hat]
      rfl
    · rw [sessionWork, sessionWork, hat, hmutex]
      simp only [SessionThread.work, unlocked_none, unlocked_self]
      omega
  | left hat hmutex =>
    refine Or.inl (rank_lt_of_sessionWork ?_ ?_)
    · rw [undone, undone, hat]
      rfl
    · rw [sessionWork, sessionWork, hat, hmutex]
      simp only [SessionThread.work, unlocked_none, unlocked_self]
      omega
  | _ => cases hthread

/-- A step of the engine thread. -/
lemma Steps.descends_engine (h : w.Shows s) (hthread : move.thread = .engine)
    (hsteps : Steps w move w' fills) : w.Descends move w' := by
  cases hsteps with
  | entered hat hhandler =>
    cases move with
    | engine fuel left => cases hhandler
    | _ => cases hthread
  | popping hat hnone => exact descends_popping h hat hnone
  | popped hat hsome => exact descends_popped h hat hsome
  | lockedPrices hat hreads hfree =>
    refine Or.inl (rank_lt_of_engineWork rfl ?_ ?_)
    · rw [sessionWork, sessionWork, hfree]
      exact le_rfl
    · rw [engineWork, engineWork, hfree]
      exact Nat.add_lt_add_right (Nat.lt_succ_self _) _
  | ran hat hmutex hrun =>
    refine Or.inl (rank_lt_of_undone ?_)
    rw [undone, undone, hat]
    simp only [EngineWorker.taken, List.length_singleton, List.length_nil]
    omega
  | returned hat =>
    have hphase := SPSCQueue.popPhase_le size w.engineQueue
    refine Or.inl (rank_lt_of_engineWork ?_ le_rfl ?_)
    · rw [undone, undone, hat]
      rfl
    · rw [engineWork, engineWork, hat]
      refine Nat.add_lt_add_right (Nat.add_lt_add_right ?_ _) _
      exact lt_of_le_of_lt hphase (Nat.lt_add_left _ (by decide))
  | lockedBroadcast hat hfree =>
    refine Or.inl (rank_lt_of_engineWork rfl ?_ ?_)
    · rw [sessionWork, sessionWork, hfree]
      exact le_rfl
    · rw [engineWork, engineWork, hfree]
      exact Nat.lt_succ_self _
  | broadcast hat hmutex =>
    refine Or.inl (rank_lt_of_engineWork ?_ ?_ ?_)
    · rw [undone, undone, hat]
      rfl
    · rw [sessionWork, sessionWork, hmutex]
      exact le_rfl
    · rw [engineWork, engineWork, hat, hmutex]
      simp only [List.map_cons, List.sum_cons, Report.work, unlocked_none, unlocked_self]
      omega
  | handedOver hat =>
    refine Or.inl (rank_lt_of_engineWork ?_ le_rfl ?_)
    · rw [undone, undone, hat]
      rfl
    · rw [engineWork, engineWork, hat]
      simp only [List.map_cons, List.sum_cons, Report.work]
      omega
  | _ => cases hthread

/-- A step of the database worker. -/
lemma Steps.descends_dbWorker (h : w.Shows s) (hheld : w.Held) (hthread : move.thread = .dbWorker)
    (hsteps : Steps w move w' fills) : w.Descends move w' := by
  cases hsteps with
  | entered hat hhandler =>
    cases move with
    | dbWorker sessions => cases hhandler
    | _ => cases hthread
  | swapped hat hfront =>
    have hbatch := h.batch
    rw [Batched, hat] at hbatch
    refine Or.inl (rank_lt_of_dbWork rfl rfl rfl ?_)
    rw [dbWork, dbWork, hat, hbatch.1, if_neg hfront]
    simp only [if_pos]
    omega
  | locked hat hfree =>
    refine Or.inl (rank_lt_of_dbWork rfl ?_ ?_ ?_)
    · rw [sessionWork, sessionWork, hfree]
      rfl
    · rw [engineWork, engineWork, hfree]
      rfl
    · rw [dbWork, dbWork, hat]
      simp only
      omega
  | applied hat htask =>
    have hmore := (List.getElem?_eq_some_iff.mp htask).1
    refine Or.inl (rank_lt_of_dbWork rfl rfl rfl ?_)
    rw [dbWork, dbWork, hat]
    simp only
    omega
  | committed hat hdone =>
    have hmutex := h.mutex ⟨_, hat⟩
    have husers := length_affectedUsers w.dbQueueBack
    refine Or.inl (rank_lt_of_dbWork rfl ?_ ?_ ?_)
    · rw [sessionWork, sessionWork, hmutex]
      rfl
    · rw [engineWork, engineWork, hmutex]
      rfl
    · rw [dbWork, dbWork, hat]
      simp only
      omega
  | cleared hat =>
    refine Or.inl (rank_lt_of_dbWork rfl rfl rfl ?_)
    rw [dbWork, dbWork, hat]
    simp only [List.length_nil]
    omega
  | began hat hfree =>
    refine Or.inl (rank_lt_of_dbWork rfl ?_ ?_ ?_)
    · rw [sessionWork, sessionWork, hfree]
      rfl
    · rw [engineWork, engineWork, hfree]
      rfl
    · rw [dbWork, dbWork, hat]
      simp only [List.length_cons]
      omega
  | ended hat =>
    have hmutex := hheld.updating hat
    refine Or.inl (rank_lt_of_dbWork rfl ?_ ?_ ?_)
    · rw [sessionWork, sessionWork, hmutex]
      rfl
    · rw [engineWork, engineWork, hmutex]
      rfl
    · rw [dbWork, dbWork, hat]
      simp only
      omega
  | lockedWallet hat hfree =>
    refine Or.inl (rank_lt_of_updateWork rfl ?_ ?_ rfl ?_)
    · rw [sessionWork, sessionWork, hfree]
      rfl
    · rw [engineWork, engineWork, hfree]
      rfl
    · rw [updateWork, updateWork, hfree]
      exact Nat.lt_succ_self _
  | updated hat hmutex =>
    refine Or.inl (rank_lt_of_updateWork rfl ?_ ?_ ?_ ?_)
    · rw [sessionWork, sessionWork, hmutex]
      rfl
    · rw [engineWork, engineWork, hmutex]
      rfl
    · rw [dbWork, dbWork, hat]
    · rw [updateWork, updateWork, hat, hmutex]
      simp only [unlocked_none, unlocked_self]
      omega
  | _ => cases hthread

/-- **A step** brings the threads closer to the end of what is to do, or a thread that is not waited
for spins. -/
lemma Steps.descends (h : w.Shows s) (hheld : w.Held) (hgoes : move.Goes)
    (hsteps : Steps w move w' fills) : w.Descends move w' := by
  cases hthread : move.thread with
  | session => exact hsteps.descends_session h hheld hgoes hthread
  | engine => exact hsteps.descends_engine h hthread
  | dbWorker => exact hsteps.descends_dbWorker h hheld hthread

/-- What is undone never becomes more. -/
lemma Descends.undone_le (h : w.Descends move w') : w'.undone ≤ w.undone := by
  have hle : w'.rank ≤ w.rank := by
    rcases h with hlt | ⟨heq, -, -⟩
    · exact hlt.le
    · exact heq.le
  exact (Prod.Lex.toLex_le_toLex'.mp hle).1

/-! ### What the threads keep -/

/-- A cancellation whose token is yet to be checked names an order. -/
def AimedSession : SessionThread → Prop
  | .authenticating _ _ (.cancel _ orderId) => orderId ≠ 0
  | _ => True

/-- Cancellations that come in name orders, and the books have an id for the order in hand. -/
def Careful (w : Workers) : Move → Prop
  | .receive _ msg => msg.Aimed
  | .engine _ _ => ∀ task ∈ w.engine.taken, task.HasRoom w.market
  | _ => True

instance (w : Workers) : (move : Move) → Decidable (w.Careful move)
  | .receive _ msg => inferInstanceAs (Decidable msg.Aimed)
  | .engine _ _ => inferInstanceAs (Decidable (∀ task ∈ w.engine.taken, task.HasRoom w.market))
  | .errand _ => isTrue trivial
  | .accept => isTrue trivial
  | .leave => isTrue trivial
  | .session _ _ => isTrue trivial
  | .dbWorker _ => isTrue trivial

/-- What a message asks for names an order, if it cancels. -/
lemma aimed_receive {now : Int} {msg : Server.Message} (hmsg : msg.Aimed) :
    AimedSession (w.receive now msg) := by
  cases msg with
  | order msg =>
    simp only [receive]
    split
    · split_ifs <;> trivial
    · trivial
  | marketOrder msg =>
    simp only [receive]
    split <;> trivial
  | cancel msg =>
    simp only [receive]
    split
    · next orderId hid =>
      rintro rfl
      exact hmsg hid
    · trivial
  | switchEngine mode =>
    simp only [receive]
    split_ifs <;> trivial
  | snapshot companyId => trivial

lemma aimed_begin {m : MarketState} (e : Errand) : AimedSession (begin m e) := by
  cases e <;> trivial

lemma aimed_allow {m : MarketState} {userId : Int} (request : Request) :
    AimedSession (allow m userId request) := by
  cases request with
  | order stress syntheticUserId companyId side price quantity timestamp =>
    simp only [allow]
    split_ifs <;> trivial
  | marketOrder companyId side quantity timestamp =>
    simp only [allow]
    split_ifs <;> trivial
  | cancel companyId orderId => trivial

lemma aimed_afterPush (user : Bool) (task : EngineTask) : AimedSession (afterPush user task) := by
  cases task with
  | snapshot companyId => cases user <;> trivial
  | _ => trivial

lemma aimed_session (h : AimedSession w.session) (hcareful : w.Careful move)
    (hsteps : Steps w move w' fills) : AimedSession w'.session := by
  cases hsteps with
  | entered hat hhandler =>
    cases move with
    | receive now msg =>
      rw [← Option.some.inj hhandler]
      exact aimed_receive hcareful
    | errand e =>
      rw [← Option.some.inj hhandler]
      exact aimed_begin e
    | accept =>
      rw [← Option.some.inj hhandler]
      trivial
    | leave =>
      rw [← Option.some.inj hhandler]
      trivial
    | _ => cases hhandler
  | authenticated => exact aimed_allow _
  | pushed => exact aimed_afterPush _ _
  | @called refPrice user snapshot hat => cases snapshot <;> trivial
  | unauthenticated | unpriced | priced | refused | reserved => trivial
  | calling | executed | joined | left => trivial
  | _ => exact h

/-- What is pushed at once names an order, if it cancels one. -/
lemma Enqueues.aimed {task : EngineTask} (h : w.Enqueues move task)
    (hsession : AimedSession w.session) : task.Addressed ∧ task.Aimed := by
  cases h with
  | entered hhandler =>
    rcases handler_eq_pushing hhandler with ⟨mode, rfl⟩ | ⟨companyId, rfl⟩
    · exact ⟨trivial, trivial⟩
    · exact ⟨trivial, trivial⟩
  | authenticated hat hallow =>
    rw [hat] at hsession
    rcases allow_eq_pushing hallow with
      ⟨companyId, orderId, rfl, rfl⟩ | ⟨_, companyId, _, _, _, _, syntheticId, -, rfl, rfl⟩
    · exact ⟨trivial, hsession⟩
    · exact ⟨rfl, trivial⟩
  | called => exact ⟨trivial, trivial⟩
  | joined => exact ⟨trivial, trivial⟩

/-- The threads look like a server in good order, and so do the mutexes. -/
structure Sound (w : Workers) : Prop where
  fit : ∃ s, w.Shows s ∧ s.Fit
  held : w.Held
  session : AimedSession w.session

lemma sound_start {companies : List Nat} {m : MarketState} (hm : MarketState.new companies = .ok m)
    (db : Database) (buffer : Nat → EngineTask) : (start m db buffer).Sound where
  fit :=
    ⟨_, shows_start m db buffer, Server.ok_start (Server.ok_new hm) db, fun _ ht => by cases ht⟩
  held := held_start m db buffer
  session := trivial

/-- The task in hand is the first on its way. -/
lemma Shows.head {task : EngineTask} (h : w.Shows s) (hat : w.engine = .running task) :
    s.engineQueue.head? = some task := by
  rw [h.queue, tasks, hat]
  rfl

lemma Sound.task {task : EngineTask} (h : w.Sound) (hat : w.engine = .running task) :
    w.market.Ok ∧ task.Aimed := by
  obtain ⟨s, hshows, hfit⟩ := h.fit
  exact ⟨hshows.market ▸ hfit.ok.market, hfit.aimed task (List.mem_of_mem_head? (hshows.head hat))⟩

lemma Sound.step (h : w.Sound) (hcareful : w.Careful move)
    (hstep : w.step move = some (w', fills)) : w'.Sound := by
  obtain ⟨s, hshows, hfit⟩ := h.fit
  have hsteps := step_steps hstep
  refine ⟨?_, h.held.step hsteps, aimed_session h.session hcareful hsteps⟩
  rcases hshows.step hstep with ⟨hshows', -⟩ | ⟨action, s', hcaused, hact, hshows'⟩
  · exact ⟨s, hshows', hfit⟩
  · refine ⟨s', hshows', hfit.act ?_ hact⟩
    cases hcaused with
    | queue henqueues => exact henqueues.aimed h.session
    | engine left hat =>
      intro task htask
      rw [hshows.head hat] at htask
      obtain rfl := Option.some.inj htask
      rw [hshows.market]
      refine (h.task hat).2.safe_of_hasRoom (hcareful _ ?_)
      rw [hat]
      exact List.mem_singleton_self _
    | submit | swap | commit | write => trivial

/-- The books can number the orders on their way. -/
structure Provided (w : Workers) : Prop where
  sound : w.Sound
  room : w.market.Room w.undone

/-- The task in hand can be run. -/
lemma Provided.safe {task : EngineTask} (h : w.Provided) (hat : w.engine = .running task) :
    w.market.Ok ∧ w.market.Room (w.undone - 1 + 1) ∧ task.Safe w.market := by
  obtain ⟨hm, haimed⟩ := h.sound.task hat
  have hroom : w.market.Room (w.undone - 1 + 1) := by
    refine h.room.mono ?_
    rw [undone, hat]
    simp only [EngineWorker.taken, List.length_singleton]
    omega
  exact ⟨hm, hroom, haimed.safe_of_hasRoom (hroom.hasRoom hm)⟩

lemma Provided.step (h : w.Provided) (hgoes : move.Goes)
    (hstep : w.step move = some (w', fills)) : w'.Provided := by
  obtain ⟨s, hshows, -⟩ := h.sound.fit
  have hsteps := step_steps hstep
  refine ⟨h.sound.step ?_ hstep, ?_⟩
  · cases move with
    | receive now msg => exact hgoes.elim
    | engine fuel left =>
      intro task htask
      obtain ⟨hm, hroom, -⟩ := h.safe (EngineWorker.mem_taken htask)
      exact hroom.hasRoom hm
    | _ => trivial
  · have hle := (hsteps.descends hshows h.sound.held hgoes).undone_le
    cases hsteps with
    | ran hat hmutex hrun =>
      obtain ⟨hm, hroom, hsafe⟩ := h.safe hat
      refine (hroom.runTask hm hsafe hrun).mono ?_
      rw [undone, undone, hat]
      simp only [EngineWorker.taken, List.length_singleton, List.length_nil]
      omega
    | _ => exact h.room.mono hle

/-- **There is always a thread to wait for**, until nothing is on its way. -/
lemma helps : Transition.Helps step (fun _ move => move.Goes) Move.thread Provided Quiet rank
    helper where
  keeps h hgoes hstep := h.step hgoes hstep
  moves := by
    intro w move h hbusy hgoes hturn
    have hheld := h.sound.held
    by_cases hengine : w.EngineWaits
    · by_cases hdb : w.DbWorkerWaits
      · rw [helper_session hengine hdb] at hturn
        cases move with
        | session refPrice user =>
          rw [step, Option.isSome_map]
          refine sessionStep_isSome (fun hat => ?_) (fun huses => ?_) fun huses => ?_
          · obtain ⟨⟨hpopping, hring⟩, hwaiting, hfront⟩ := hheld.idle_of_waits hengine hdb
              (by rw [hat]; exact id) (by rw [hat]; exact id)
            exact hbusy ⟨hat, hpopping, hring, hfront, hwaiting⟩
          · exact hheld.not_taken_db hengine hdb
          · exact hheld.not_taken_registry hengine hdb huses
        | engine fuel left => cases hturn
        | dbWorker sessions => cases hturn
        | _ => exact hgoes.elim
      · rw [helper_dbWorker hengine hdb] at hturn
        cases move with
        | dbWorker sessions =>
          rw [step, Option.isSome_map]
          exact hheld.dbWorkerStep_isSome hdb
        | _ => cases hturn
    · rw [helper_engine hengine] at hturn
      cases move with
      | engine fuel left =>
        refine engineStep_isSome hengine fun task hat => ?_
        obtain ⟨hm, -, hsafe⟩ := h.safe hat
        exact runTask_isSome hm hsafe hgoes
      | _ => cases hturn
  descends := by
    intro w w' move out h _ hgoes hstep
    obtain ⟨s, hshows, -⟩ := h.sound.fit
    exact (step_steps hstep).descends hshows h.sound.held hgoes

/-- Nothing comes of nothing. -/
lemma Quiet.step (hquiet : w.Quiet) (hshows : w.Shows s) (hgoes : move.Goes)
    (hstep : w.step move = some (w', fills)) : w'.Quiet := by
  cases move with
  | session refPrice user =>
    rw [Workers.step, sessionStep, hquiet.session] at hstep
    cases hstep
  | engine fuel left =>
    obtain ⟨fifo, hring⟩ := hshows.ring
    have hitems : w.engineQueue.items size = (w.engineQueue.popStep size left).2.taken.toList
        ++ (w.engineQueue.popStep size left).1.items size := SPSCQueue.items_popStep hring left
    obtain ⟨hnone, hring'⟩ := List.append_eq_nil_iff.mp (hitems.symm.trans hquiet.ring)
    simp only [Workers.step, engineStep, hquiet.engine] at hstep
    rcases hreturned : w.engineQueue.popStep size left with ⟨queue, returned⟩
    rw [hreturned] at hstep hnone hring'
    cases returned with
    | popped task => cases hnone
    | _ =>
      obtain ⟨rfl, -⟩ := Prod.mk.inj (Option.some.inj hstep)
      exact ⟨hquiet.session, rfl, hring', hquiet.front, hquiet.dbWorker⟩
  | dbWorker sessions =>
    rw [Workers.step, dbWorkerStep, hquiet.dbWorker, hquiet.front] at hstep
    cases hstep
  | _ => exact hgoes.elim

/-! ### From the start -/

lemma sound_run {companies : List Nat} {m : MarketState} {db : Database}
    {buffer : Nat → EngineTask} (hm : MarketState.new companies = .ok m)
    (h : Run Careful (start m db buffer) w fills) : w.Sound := by
  refine h.invariant (P := fun w _ => w.Sound) (sound_start hm db buffer) ?_
  rintro w w' move fills fills' hsound hcareful hstep
  exact hsound.step hcareful hstep

/-- **Everything gets done.** When nothing more comes in, all that is on its way is done for
good, whatever turns the threads are given, if each of them gets turns again and again: the handler
ends, also one that spins on a full ring, the tasks are matched, also those that switch the engine,
and the batches are applied. -/
theorem threads_finish {companies : List Nat} {m : MarketState} {db : Database}
    {buffer : Nat → EngineTask} {ws : Nat → Workers} {moves : Nat → Move}
    (hm : MarketState.new companies = .ok m) (h : Run Careful (start m db buffer) w fills)
    (hroom : w.market.Room w.undone) (hexec : Transition.Execution step ws moves)
    (hstart : ws 0 = w) (hfair : Transition.Fair Move.thread moves)
    (hgoes : ∀ i, (moves i).Goes) : ∃ i, ∀ j, i ≤ j → (ws j).Quiet := by
  refine helps.settles ?_ hexec hfair hgoes (hstart ▸ ⟨sound_run hm h, hroom⟩)
  intro x x' move out hprovided hquiet hgo hstep
  obtain ⟨s, hshows, -⟩ := hprovided.sound.fit
  exact hquiet.step hshows hgo hstep

/-- User 8 offers a share; somebody switches the engine, and that is being pushed when nothing more
comes in. -/
def pushingMoves : List Move :=
  [.receive 0 (.order ⟨"b", some 1, some "SELL", some 5, some 1, some 0, false, none⟩)]
    ++ List.replicate 8 (.session 0 true) ++ [.receive 0 (.switchEngine "LEGACY")]
    ++ List.replicate 2 (.session 0 true) ++ List.replicate 3 (.engine 100001 (.snapshot 0))

/-- The threads take turns. -/
def roundRobin (i : Nat) : Move :=
  if i % 3 = 0 then .session 0 true
  else if i % 3 = 1 then .engine 100001 (.snapshot 0)
  else .dbWorker 1

lemma fair_roundRobin : Transition.Fair Move.thread roundRobin := by
  intro thread i
  cases thread with
  | session =>
    refine ⟨3 * i, by omega, ?_⟩
    rw [roundRobin, if_pos (by omega)]
    rfl
  | engine =>
    refine ⟨3 * i + 1, by omega, ?_⟩
    rw [roundRobin, if_neg (by omega), if_pos (by omega)]
    rfl
  | dbWorker =>
    refine ⟨3 * i + 2, by omega, ?_⟩
    rw [roundRobin, if_neg (by omega), if_neg (by omega)]
    rfl

lemma goes_roundRobin (i : Nat) : (roundRobin i).Goes := by
  rw [roundRobin]
  split_ifs
  · trivial
  · exact Nat.lt_succ_self _
  · trivial

theorem threads_finish_pushingMoves : ∃ w fills, Run Careful sampleStart w fills ∧ ¬ w.Quiet ∧
    ∃ i, ∀ j, i ≤ j → (Transition.states step roundRobin w j).Quiet := by
  obtain ⟨⟨w, fills⟩, hrun, hout⟩ := Option.map_eq_some_iff.mp
    (by decide +kernel :
      (Transition.runEvents step Careful sampleStart pushingMoves).map
        (fun r => (r.1.session.todo, decide (r.1.market.Room r.1.undone))) = some (1, true))
  have h := Transition.run_of_runEvents hrun
  obtain ⟨htodo, hroom⟩ := Prod.mk.inj hout
  refine ⟨w, fills, h, ?_, threads_finish Server.new_sampleMarket h (of_decide_eq_true hroom)
    Transition.execution_states rfl fair_roundRobin goes_roundRobin⟩
  intro hquiet
  rw [hquiet.session] at htodo
  cases htodo

end Workers

end ExchangeEngine
