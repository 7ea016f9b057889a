import ExchangeEngine.Server.Turns

/-!
# Atomicity

However the steps of the threads interleave, they amount to a run of atomic actions: an order is
reserved and queued at one go, a task is matched at one go, and nobody sees a part of a batch. What
is true of the atomic server is then true of the threads, with what is on its way in each of them.
-/

namespace ExchangeEngine

/-! ### What is in the ring -/

/-- What is being pushed. -/
def Pushing.item {α : Type*} : Pushing α → Option α
  | .idle => none
  | .loadedTail item _ => some item
  | .checked item _ _ => some item
  | .written item _ => some item

namespace SPSCQueue

variable {α : Type*} {size : Nat} {q : SPSCQueue α} {s : Fifo α}

/-- What `n` slots hold. -/
def slots (size : Nat) (q : SPSCQueue α) (lo n : Nat) : List α :=
  (List.range n).map fun i => q.buffer ((lo + i) % size)

/-- What has been pushed and not been popped; the consumer may have read the first item. -/
def items (size : Nat) (q : SPSCQueue α) : List α :=
  let length := (q.tail + size - q.head) % size
  match q.popping with
  | .read item head => item :: slots size q (head + 1) (length - 1)
  | _ => slots size q q.head length

lemma slots_of_window {lo : Nat} {l : List α} (h : Ring.Window size q.buffer lo l) :
    slots size q lo l.length = l := by
  refine List.ext_getElem (by simp [slots]) fun i hi hi' => ?_
  simp only [slots, List.getElem_map, List.getElem_range]
  exact h i hi'

lemma slots_mod {lo n : Nat} : slots size q (lo % size) n = slots size q lo n := by
  simp only [slots, Nat.mod_add_mod]

/-- How much is in the ring. -/
lemma length_of_represents (h : Represents size q s) :
    (q.tail + size - q.head) % size = s.queue.length := by
  have hroom := h.room
  have hhead : q.head < size := by
    rw [h.head]
    exact Nat.mod_lt _ (by omega)
  have htail : q.tail = (q.head + s.queue.length) % size := by
    rw [h.tail, h.head, Nat.mod_add_mod]
  rcases Nat.lt_or_ge (q.head + s.queue.length) size with hlt | hge
  · rw [htail, Nat.mod_eq_of_lt hlt]
    have hsub : q.head + s.queue.length + size - q.head = s.queue.length + size := by omega
    rw [hsub, Nat.add_mod_right, Nat.mod_eq_of_lt hroom]
  · have hslot : (q.head + s.queue.length) % size = q.head + s.queue.length - size := by
      rw [Nat.mod_eq_sub_mod hge, Nat.mod_eq_of_lt (by omega)]
    have hsub : q.head + s.queue.length - size + size - q.head = s.queue.length := by omega
    rw [htail, hslot, hsub, Nat.mod_eq_of_lt hroom]

/-- The ring holds what the queue that it stands for holds. -/
lemma Represents.items_eq (h : Represents size q s) : q.items size = s.queue := by
  have hunread := h.unread
  have hpopping := h.popping
  have hlength := length_of_represents h
  simp only [Unread] at hunread
  simp only [PopOk] at hpopping
  simp only [items, hlength]
  cases hp : q.popping with
  | read item head =>
    simp only [hp] at hunread hpopping ⊢
    obtain ⟨queue, hqueue, hwindow⟩ := hunread
    rw [hqueue, List.length_cons, Nat.add_sub_cancel, hpopping, ← slots_mod, Nat.mod_add_mod,
      slots_mod, slots_of_window hwindow]
  | idle =>
    simp only [hp] at hunread ⊢
    rw [h.head, slots_mod, slots_of_window hunread]
  | loadedHead head =>
    simp only [hp] at hunread ⊢
    rw [h.head, slots_mod, slots_of_window hunread]
  | checked head =>
    simp only [hp] at hunread ⊢
    rw [h.head, slots_mod, slots_of_window hunread]

/-- What goes in and what comes out. -/
lemma Fifo.Step.balance {capacity : Nat} {s' : Fifo α} {r : Returned α}
    (h : Fifo.Step capacity s r s') :
    s.queue ++ r.accepted.toList = r.taken.toList ++ s'.queue := by
  cases h with
  | nothing => exact List.append_nil _
  | pushed item => rfl
  | pushFailed => exact List.append_nil _
  | popped hqueue =>
    rw [hqueue]
    exact List.append_nil _
  | popFailed => exact List.append_nil _

lemma taken_pushStep (item : α) : (q.pushStep size item).2.taken = none := by
  simp only [pushStep]
  cases q.pushing with
  | loadedTail x tail =>
    simp only
    split_ifs <;> rfl
  | _ => rfl

lemma accepted_popStep (left : α) : (q.popStep size left).2.accepted = none := by
  simp only [popStep]
  cases q.popping with
  | loadedHead head =>
    simp only
    split_ifs <;> rfl
  | _ => rfl

lemma items_pushStep {k : Nat} (h : Represents (2 ^ k) q s) (item : α) :
    (q.pushStep (2 ^ k) item).1.items (2 ^ k)
      = q.items (2 ^ k) ++ (q.pushStep (2 ^ k) item).2.accepted.toList := by
  obtain ⟨s', hstep, h'⟩ := h.pushStep item
  have hbalance := hstep.balance
  rw [taken_pushStep] at hbalance
  rw [h.items_eq, h'.items_eq, hbalance]
  rfl

lemma items_popStep {k : Nat} (h : Represents (2 ^ k) q s) (left : α) :
    q.items (2 ^ k)
      = (q.popStep (2 ^ k) left).2.taken.toList ++ (q.popStep (2 ^ k) left).1.items (2 ^ k) := by
  obtain ⟨s', hstep, h'⟩ := h.popStep left
  have hbalance := hstep.balance
  rw [accepted_popStep, Option.toList_none, List.append_nil] at hbalance
  rw [h.items_eq, h'.items_eq, hbalance]

/-- A push is of the item that it began with. -/
lemma item_pushStep (size : Nat) {item : α} (h : ∀ x, q.pushing.item = some x → x = item) :
    (∀ x, (q.pushStep size item).1.pushing.item = some x → x = item) ∧
      ∀ x, (q.pushStep size item).2 = .pushed x →
        x = item ∧ (q.pushStep size item).1.pushing = .idle := by
  simp only [pushStep]
  cases hp : q.pushing with
  | idle => exact ⟨fun x hx => (Option.some.inj hx).symm, fun x hx => (by cases hx)⟩
  | loadedTail x tail =>
    have hx : x = item := h x (by rw [hp]; rfl)
    simp only
    split_ifs
    · exact ⟨fun y hy => (by cases hy), fun y hy => (by cases hy)⟩
    · exact ⟨fun y hy => (Option.some.inj hy).symm.trans hx, fun y hy => (by cases hy)⟩
  | checked x tail nextTail =>
    have hx : x = item := h x (by rw [hp]; rfl)
    exact ⟨fun y hy => (Option.some.inj hy).symm.trans hx, fun y hy => (by cases hy)⟩
  | written x nextTail =>
    have hx : x = item := h x (by rw [hp]; rfl)
    exact ⟨fun y hy => (by cases hy),
      fun y hy => ⟨(Returned.pushed.inj hy).symm.trans hx, rfl⟩⟩

lemma pushing_popStep (left : α) : (q.popStep size left).1.pushing = q.pushing := by
  simp only [popStep]
  cases q.popping with
  | loadedHead head =>
    simp only
    split_ifs <;> rfl
  | _ => rfl

end SPSCQueue

/-! ### What is on its way -/

def SessionThread.queued : SessionThread → List EngineTask
  | .reading => []
  | .authenticating _ _ _ => []
  | .pricing _ _ _ _ _ => []
  | .reserving _ _ _ _ _ _ => []
  | .pushing task => [task]
  | .calling _ _ => []
  | .joining => []
  | .leaving => []

def Report.tasks : Report → List DbTask
  | .broadcast => []
  | .queue tasks => tasks

def EngineWorker.taken : EngineWorker → List EngineTask
  | .popping => []
  | .running task => [task]
  | .reporting _ => []

def EngineWorker.unqueued : EngineWorker → List DbTask
  | .popping => []
  | .running _ => []
  | .reporting reports => reports.flatMap Report.tasks

namespace Workers

open Server (Action)

variable {w w' : Workers} {s s' : Server} {move : Move} {fills : List Trade}

/-- The engine tasks on their way, in the order in which they are taken. -/
def tasks (w : Workers) : List EngineTask :=
  w.engine.taken ++ w.engineQueue.items size ++ w.session.queued

/-- The part of the batch that has not been applied. -/
def unapplied (w : Workers) : List DbTask :=
  match w.dbWorker with
  | .waiting => []
  | .swapped => w.dbQueueBack
  | .applying i => w.dbQueueBack.drop i
  | .notifying _ => []
  | .updating _ _ => []

/-- The database tasks on their way. -/
def dbTasks (w : Workers) : List DbTask := w.unapplied ++ w.dbQueueFront ++ w.engine.unqueued

/-- The batch is that of `s`, and so is the database, but for the part of the batch that has been
applied. -/
def Batched (w : Workers) (s : Server) : Prop :=
  match w.dbWorker with
  | .waiting => w.dbQueueBack = [] ∧ s.dbQueueBack = [] ∧ w.db = s.db
  | .swapped => s.dbQueueBack = w.dbQueueBack ∧ w.db = s.db
  | .applying i =>
    s.dbQueueBack = w.dbQueueBack ∧ w.db = (w.dbQueueBack.take i).foldl applyTask s.db
  | .notifying _ => s.dbQueueBack = [] ∧ w.db = s.db
  | .updating _ _ => s.dbQueueBack = [] ∧ w.db = s.db

/-- The threads look like the server `s`. -/
structure Shows (w : Workers) (s : Server) : Prop where
  market : s.market = w.market
  ring : ∃ fifo, SPSCQueue.Represents size w.engineQueue fifo
  queue : s.engineQueue = w.tasks
  pushing : ∀ task, w.engineQueue.pushing.item = some task → w.session = .pushing task
  front : s.dbQueueFront = w.dbQueueFront ++ w.engine.unqueued
  batch : w.Batched s
  /-- nobody else writes while a batch is being applied -/
  mutex : w.Locked → w.dbMutex = some .dbWorker

/-- Who is not kept out by the mutex sees whole batches. -/
lemma Batched.db_eq (h : w.Batched s) (hfree : ¬ w.Locked) : w.db = s.db := by
  rw [Batched] at h
  cases hat : w.dbWorker with
  | applying i => exact absurd ⟨i, hat⟩ hfree
  | waiting =>
    rw [hat] at h
    exact h.2.2
  | _ =>
    rw [hat] at h
    exact h.2

/-- What a session writes is no part of a batch. -/
lemma Batched.write {db : Database} (h : w.Batched s) (hfree : ¬ w.Locked) :
    ({ w with db := db } : Workers).Batched { s with db := db } := by
  rw [Batched] at h ⊢
  cases hat : w.dbWorker with
  | applying i => exact absurd ⟨i, hat⟩ hfree
  | waiting =>
    rw [hat] at h
    exact ⟨h.1, h.2.1, rfl⟩
  | _ =>
    rw [hat] at h
    exact ⟨h.1, rfl⟩

lemma not_locked_of_waiting (h : w.dbWorker = .waiting) : ¬ w.Locked := by
  rintro ⟨i, hi⟩
  rw [h] at hi
  cases hi

/-- Whoever holds the mutex of the database keeps batches out. -/
lemma Shows.not_locked {thread : Thread} (h : w.Shows s) (hmutex : w.dbMutex = some thread)
    (hthread : thread ≠ .dbWorker) : ¬ w.Locked :=
  fun hlocked => hthread (Option.some.inj (hmutex.symm.trans (h.mutex hlocked)))

lemma Shows.not_locked_of_free (h : w.Shows s) (hfree : w.dbMutex = none) : ¬ w.Locked := by
  intro hlocked
  rw [h.mutex hlocked] at hfree
  cases hfree

/-- A mutex changes hands, but for that of the database while a batch is being applied. -/
lemma Shows.mutexes (h : w.Shows s) {dbMutex registryMutex : Option Thread}
    (hmutex : w.Locked → dbMutex = some .dbWorker) :
    ({ w with dbMutex := dbMutex, registryMutex := registryMutex } : Workers).Shows s :=
  ⟨h.market, h.ring, h.queue, h.pushing, h.front, h.batch, hmutex⟩

lemma shows_start (m : MarketState) (db : Database) (buffer : Nat → EngineTask) :
    (start m db buffer).Shows (Server.start m db) where
  market := rfl
  ring := ⟨_, SPSCQueue.represents_new buffer 16⟩
  queue := by
    have hempty : (start m db buffer).engineQueue.items size = [] :=
      (SPSCQueue.represents_new buffer 16).items_eq
    rw [tasks, hempty]
    rfl
  pushing task h := by cases h
  front := rfl
  batch := ⟨rfl, rfl, rfl⟩
  mutex hlocked := absurd hlocked (not_locked_of_waiting rfl)

/-- The task that a handler begins to push, without a reservation. -/
inductive Enqueues (w : Workers) : Move → EngineTask → Prop
  | entered {move : Move} {task : EngineTask} (hhandler : move.handler w = some (.pushing task)) :
      Enqueues w move task
  | authenticated {refPrice : Nat} {user : Bool} {now : Int} {token : String} {request : Request}
      {task : EngineTask} {userId : Int} (hat : w.session = .authenticating now token request)
      (hallow : allow w.market userId request = .pushing task) :
      Enqueues w (.session refPrice user) task
  | called {refPrice : Nat} {user : Bool} {companyId : Nat}
      (hat : w.session = .calling [] (some companyId)) :
      Enqueues w (.session refPrice user) (.snapshot companyId)
  | joined {refPrice : Nat} {user : Bool} (hat : w.session = .joining) :
      Enqueues w (.session refPrice user) (.snapshot w.market.defaultCompanyId)

/-- What a move amounts to. -/
inductive Causes (w : Workers) : Move → Action → Prop
  | submit {userId : Int} {companyId price quantity timestamp : Nat} {side : Bool} (refPrice : Nat)
      (user : Bool)
      (hat : w.session = .reserving userId companyId side price quantity timestamp)
      (hmutex : w.dbMutex = some .session) :
      Causes w (.session refPrice user) (.submit userId companyId side price quantity timestamp)
  | queue {move : Move} {task : EngineTask} (henqueues : w.Enqueues move task) :
      Causes w move (.queue task)
  | engine {fuel : Nat} {task : EngineTask} (left : EngineTask) (hat : w.engine = .running task) :
      Causes w (.engine fuel left) (.engine fuel)
  | swap {sessions : Nat} (n : Nat) (hat : w.dbWorker = .waiting) :
      Causes w (.dbWorker sessions) (.swap n)
  | commit {sessions i : Nat} (hat : w.dbWorker = .applying i) (hdone : w.dbQueueBack.length ≤ i) :
      Causes w (.dbWorker sessions) .commit
  | write {refPrice : Nat} {user : Bool} {statement : Statement} {statements : List Statement}
      {calls : List (List Statement)} {snapshot : Option Nat}
      (hat : w.session = .calling ((statement :: statements) :: calls) snapshot)
      (hmutex : w.dbMutex = some .session) : Causes w (.session refPrice user) (.write statement)

/-- Nothing happens to `s`, or an action does. -/
def Follows (w : Workers) (move : Move) (s : Server) (w' : Workers) (fills : List Trade) : Prop :=
  (w'.Shows s ∧ fills = []) ∨
    ∃ action s', w.Causes move action ∧ s.act action = some (s', fills) ∧ w'.Shows s'

/-! ### The sessions -/

/-- Of the messages, those that need no user push at once. -/
lemma receive_eq_pushing {now : Int} {msg : Server.Message} {task : EngineTask}
    (h : w.receive now msg = .pushing task) :
    (∃ mode, msg = .switchEngine mode) ∨ ∃ companyId, msg = .snapshot companyId := by
  cases msg with
  | order msg =>
    simp only [receive] at h
    split at h
    · split_ifs at h
    · cases h
  | marketOrder msg =>
    simp only [receive] at h
    split at h <;> cases h
  | cancel msg =>
    simp only [receive] at h
    split at h <;> cases h
  | switchEngine mode => exact Or.inl ⟨mode, rfl⟩
  | snapshot companyId => exact Or.inr ⟨companyId, rfl⟩

/-- A handler that begins pushes no order at once. -/
lemma handler_eq_pushing {task : EngineTask} (h : move.handler w = some (.pushing task)) :
    (∃ mode, task = .switchEngine mode) ∨ ∃ companyId, task = .snapshot companyId := by
  cases move with
  | receive now msg =>
    have hreceive : w.receive now msg = .pushing task := Option.some.inj h
    rcases receive_eq_pushing hreceive with ⟨mode, rfl⟩ | ⟨companyId, rfl⟩
    · simp only [receive] at hreceive
      split_ifs at hreceive
      · exact Or.inl ⟨_, (SessionThread.pushing.inj hreceive).symm⟩
      · exact Or.inl ⟨_, (SessionThread.pushing.inj hreceive).symm⟩
    · exact Or.inr ⟨_, (SessionThread.pushing.inj hreceive).symm⟩
  | errand e => cases e <;> cases h
  | _ => cases h

/-- A user's request pushes at once if it cancels, or if its order is a stress order. -/
lemma allow_eq_pushing {m : MarketState} {userId : Int} {request : Request} {task : EngineTask}
    (h : allow m userId request = .pushing task) :
    (∃ companyId orderId, request = .cancel companyId orderId ∧
        task = .cancel companyId orderId userId) ∨
      ∃ syntheticUserId companyId side price quantity timestamp, ∃ syntheticId < 0,
        request = .order true syntheticUserId companyId side price quantity timestamp ∧
          task = orderTask companyId syntheticId side price quantity timestamp := by
  cases request with
  | order stress syntheticUserId companyId side price quantity timestamp =>
    simp only [allow] at h
    split_ifs at h with hstress hsynthetic
    · subst hstress
      exact Or.inr ⟨_, _, _, _, _, _, _, hsynthetic, rfl, (SessionThread.pushing.inj h).symm⟩
    · subst hstress
      exact Or.inr ⟨_, _, _, _, _, _, -1, by decide, rfl, (SessionThread.pushing.inj h).symm⟩
  | marketOrder companyId side quantity timestamp =>
    simp only [allow] at h
    split_ifs at h
  | cancel companyId orderId =>
    exact Or.inl ⟨_, _, rfl, (SessionThread.pushing.inj h).symm⟩

lemma Enqueues.unfunded {task : EngineTask} (h : w.Enqueues move task) : task.Unfunded := by
  cases h with
  | entered hhandler =>
    rcases handler_eq_pushing hhandler with ⟨mode, rfl⟩ | ⟨companyId, rfl⟩
    · trivial
    · trivial
  | authenticated hat hallow =>
    rcases allow_eq_pushing hallow with
      ⟨companyId, orderId, -, rfl⟩ | ⟨_, _, _, _, _, _, syntheticId, hneg, -, rfl⟩
    · trivial
    · exact hneg
  | called => trivial
  | joined => trivial

/-- A handler begins to push. -/
lemma Shows.push (h : w.Shows s) (task : EngineTask) (db db' : Database)
    {dbMutex registryMutex : Option Thread} (hat : w.session.queued = [])
    (hbatch : ({ w with db := db } : Workers).Batched { s with db := db' })
    (hmutex : w.Locked → dbMutex = some .dbWorker) :
    ({ w with
      db := db
      session := .pushing task
      dbMutex := dbMutex
      registryMutex := registryMutex } : Workers).Shows ({ s with db := db' }.push task) where
  market := h.market
  ring := h.ring
  queue := by
    rw [Server.push, h.queue, tasks, tasks, hat, List.append_nil]
    rfl
  pushing item hitem := by
    rw [h.pushing item hitem] at hat
    cases hat
  front := h.front
  batch := hbatch
  mutex := hmutex

/-- A handler goes on, and what it may begin to push is an action. -/
lemma Shows.enters {session : SessionThread} {dbMutex registryMutex : Option Thread}
    (h : w.Shows s) (hat : w.session.queued = []) (hmutex : w.Locked → dbMutex = some .dbWorker)
    (henqueues : ∀ task, session = .pushing task → w.Enqueues move task) :
    Follows w move s
      { w with session := session, dbMutex := dbMutex, registryMutex := registryMutex } [] := by
  cases hsession : session with
  | pushing task =>
    have hqueue := henqueues task hsession
    exact Or.inr ⟨_, _, .queue hqueue, if_pos hqueue.unfunded,
      h.push task w.db s.db hat h.batch hmutex⟩
  | _ =>
    refine Or.inl ⟨⟨h.market, h.ring, ?_, ?_, h.front, h.batch, hmutex⟩, rfl⟩
    · rw [h.queue, tasks, tasks, hat]
      rfl
    · intro task htask
      rw [h.pushing task htask] at hat
      cases hat

/-- What is being pushed is what the handler pushes. -/
lemma Shows.item_eq {task x : EngineTask} (h : w.Shows s) (hat : w.session = .pushing task)
    (hx : w.engineQueue.pushing.item = some x) : x = task :=
  (SessionThread.pushing.inj (hat.symm.trans (h.pushing x hx))).symm

/-- A step of `push`. -/
lemma Shows.pushStep {task : EngineTask} (h : w.Shows s) (hat : w.session = .pushing task)
    (session : SessionThread) (hqueued : session.queued
      = if (w.engineQueue.pushStep size task).2.accepted = none then [task] else [])
    (hsession : ∀ x, (w.engineQueue.pushStep size task).1.pushing.item = some x →
      session = .pushing x) :
    ({ w with
      engineQueue := (w.engineQueue.pushStep size task).1
      session := session } : Workers).Shows s where
  market := h.market
  ring := by
    obtain ⟨fifo, hring⟩ := h.ring
    obtain ⟨fifo', -, hring'⟩ := hring.pushStep task
    exact ⟨fifo', hring'⟩
  queue := by
    obtain ⟨fifo, hring⟩ := h.ring
    have hitem : ∀ x, w.engineQueue.pushing.item = some x → x = task := fun x => h.item_eq hat
    have hitems : (w.engineQueue.pushStep size task).1.items size
        = w.engineQueue.items size ++ (w.engineQueue.pushStep size task).2.accepted.toList :=
      SPSCQueue.items_pushStep hring task
    rw [h.queue, tasks, tasks, hqueued, hitems, hat]
    cases hreturned : (w.engineQueue.pushStep size task).2 with
    | pushed x =>
      rw [(SPSCQueue.item_pushStep size hitem).2 x hreturned |>.1]
      simp [SPSCQueue.Returned.accepted, SessionThread.queued]
    | _ => simp [SPSCQueue.Returned.accepted, SessionThread.queued]
  pushing := hsession
  front := h.front
  batch := h.batch
  mutex := h.mutex

lemma Shows.pushes {task : EngineTask} (h : w.Shows s) (hat : w.session = .pushing task)
    (hnone : (w.engineQueue.pushStep size task).2.accepted = none) :
    ({ w with engineQueue := (w.engineQueue.pushStep size task).1 } : Workers).Shows s := by
  refine h.pushStep hat w.session ?_ fun x hx => ?_
  · rw [if_pos hnone, hat]
    rfl
  · rw [hat, (SPSCQueue.item_pushStep size fun x => h.item_eq hat).1 x hx]

lemma queued_afterPush (user : Bool) (task : EngineTask) : (afterPush user task).queued = [] := by
  cases task with
  | snapshot companyId => cases user <;> rfl
  | _ => rfl

lemma Shows.pushed {task item : EngineTask} (h : w.Shows s) (user : Bool)
    (hat : w.session = .pushing task)
    (hsome : (w.engineQueue.pushStep size task).2 = .pushed item) :
    ({ w with
      engineQueue := (w.engineQueue.pushStep size task).1
      session := afterPush user task } : Workers).Shows s := by
  refine h.pushStep hat _ ?_ fun x hx => ?_
  · rw [hsome, queued_afterPush, if_neg]
    simp [SPSCQueue.Returned.accepted]
  · rw [((SPSCQueue.item_pushStep size fun x => h.item_eq hat).2 item hsome).2] at hx
    cases hx

/-- A handler reserves, and begins to push. -/
lemma Shows.reserved {refPrice : Nat} {user : Bool} {userId : Int}
    {companyId price quantity timestamp : Nat} {side : Bool} {db : Database} (h : w.Shows s)
    (hat : w.session = .reserving userId companyId side price quantity timestamp)
    (hmutex : w.dbMutex = some .session)
    (hreserve : w.db.reserve userId companyId side price quantity = .ok db) :
    Follows w (.session refPrice user) s
      { w with
        db := db
        session := .pushing (orderTask companyId userId side price quantity timestamp)
        dbMutex := none } [] := by
  have hfree := h.not_locked hmutex (by decide)
  refine Or.inr ⟨_, _, .submit refPrice user hat hmutex, ?_,
    h.push _ db db (by rw [hat]; rfl) (h.batch.write hfree) fun hlocked => absurd hlocked hfree⟩
  rw [Server.act, ← h.batch.db_eq hfree, hreserve]

/-- A handler makes a statement. -/
lemma Shows.executed {refPrice : Nat} {user : Bool} {statement : Statement}
    {statements : List Statement} {calls : List (List Statement)} {snapshot : Option Nat}
    (h : w.Shows s) (hat : w.session = .calling ((statement :: statements) :: calls) snapshot)
    (hmutex : w.dbMutex = some .session) :
    Follows w (.session refPrice user) s
      { w with
        db := w.db.execute statement
        session := .calling (statements :: calls) snapshot } [] := by
  have hfree := h.not_locked hmutex (by decide)
  have hqueued : w.session.queued = [] := by rw [hat]; rfl
  refine Or.inr ⟨_, _, .write hat hmutex, rfl, h.market, h.ring, ?_, ?_, h.front, ?_, h.mutex⟩
  · rw [h.queue, tasks, tasks, hqueued]
    rfl
  · intro task htask
    rw [h.pushing task htask] at hqueued
    cases hqueued
  · rw [← h.batch.db_eq hfree]
    exact h.batch.write hfree

/-! ### The engine thread -/

/-- What is reported is what the task has queued. -/
lemma tasks_reports {fuel : Nat} {m : MarketState} {task : EngineTask} {e : Effect}
    (hrun : runTask fuel m task = some e) :
    (reports m task e.pushed).flatMap Report.tasks = e.pushed := by
  have heach : ∀ l : List (List DbTask),
      (l.flatMap fun tasks => [Report.broadcast, .queue tasks]).flatMap Report.tasks
        = l.flatten := by
    intro l
    induction l with
    | nil => rfl
    | cons tasks l ih =>
      rw [List.flatMap_cons, List.flatMap_append, ih]
      simp [Report.tasks]
  have hqueues : ∀ l : List (List DbTask),
      (l.map Report.queue).flatMap Report.tasks = l.flatten := by
    intro l
    rw [List.flatMap_map]
    exact List.flatMap_id
  have hbroadcasts : ∀ l : List Nat,
      (l.map fun _ => Report.broadcast).flatMap Report.tasks = [] := by
    intro l
    rw [List.flatMap_map]
    exact List.flatMap_eq_nil_iff.mpr fun _ _ => rfl
  cases task with
  | order companyId order =>
    have hbook : ∀ b : Bool,
        (if b = true then [Report.broadcast] else []).flatMap Report.tasks = [] := by
      intro b
      cases b <;> rfl
    simp only [reports]
    rw [List.flatMap_append, List.flatMap_append, heach, hbook, hqueues, List.append_nil,
      ← List.flatten_append, List.takeWhile_append_dropWhile, flatten_sections]
  | cancel companyId orderId userId =>
    simp only [reports]
    rw [heach, flatten_sections]
  | snapshot companyId =>
    obtain rfl := Option.some.inj hrun
    rfl
  | switchEngine mode =>
    obtain rfl := Option.some.inj hrun
    simp only [reports]
    rw [List.flatMap_append, hbroadcasts]
    rfl

/-- A step of `pop`. -/
lemma Shows.popStep (h : w.Shows s) (hat : w.engine = .popping) (left : EngineTask)
    (engine : EngineWorker)
    (htaken : engine.taken = (w.engineQueue.popStep size left).2.taken.toList)
    (hunqueued : engine.unqueued = []) :
    ({ w with
      engineQueue := (w.engineQueue.popStep size left).1
      engine := engine } : Workers).Shows s where
  market := h.market
  ring := by
    obtain ⟨fifo, hring⟩ := h.ring
    obtain ⟨fifo', -, hring'⟩ := hring.popStep left
    exact ⟨fifo', hring'⟩
  queue := by
    obtain ⟨fifo, hring⟩ := h.ring
    have hitems : w.engineQueue.items size = (w.engineQueue.popStep size left).2.taken.toList
        ++ (w.engineQueue.popStep size left).1.items size := SPSCQueue.items_popStep hring left
    rw [h.queue, tasks, tasks, hat, htaken, hitems]
    rfl
  pushing task htask := by
    rw [SPSCQueue.pushing_popStep] at htask
    exact h.pushing task htask
  front := by
    rw [h.front, hat, hunqueued]
    rfl
  batch := h.batch
  mutex := h.mutex

/-- A task is matched. -/
lemma Shows.running {fuel : Nat} {task : EngineTask} {e : Effect} {mutex : Option Thread}
    (h : w.Shows s) (hat : w.engine = .running task) (hrun : runTask fuel w.market task = some e)
    (hmutex : w.Locked → mutex = some .dbWorker) :
    ({ w with
      market := e.market
      engine := .reporting (reports w.market task e.pushed)
      dbMutex := mutex } : Workers).Shows
      { s with
        market := e.market
        engineQueue := w.engineQueue.items size ++ w.session.queued
        dbQueueFront := s.dbQueueFront ++ e.pushed } where
  market := rfl
  ring := h.ring
  queue := rfl
  pushing := h.pushing
  front := by
    simp only [EngineWorker.unqueued, tasks_reports hrun, h.front, hat, List.append_nil]
  batch := h.batch
  mutex := hmutex

/-- What it leads to is queued. -/
lemma Shows.unqueued (h : w.Shows s) {front : List DbTask} {engine : EngineWorker}
    {registryMutex : Option Thread} (htaken : engine.taken = w.engine.taken)
    (hfront : front ++ engine.unqueued = w.dbQueueFront ++ w.engine.unqueued) :
    ({ w with
      dbQueueFront := front, engine := engine, registryMutex := registryMutex } :
        Workers).Shows s where
  market := h.market
  ring := h.ring
  queue := by
    rw [h.queue, tasks, tasks, htaken]
  pushing := h.pushing
  front := h.front.trans hfront.symm
  batch := h.batch
  mutex := h.mutex

/-- A task is run at one go. -/
lemma Shows.ran {fuel : Nat} {left task : EngineTask} {e : Effect} {mutex : Option Thread}
    (h : w.Shows s) (hat : w.engine = .running task)
    (hmutex : w.dbMutex = some .engine ∧ mutex = none ∨
      ¬ ReadsPrices w.market task ∧ mutex = w.dbMutex)
    (hrun : runTask fuel w.market task = some e) :
    Follows w (.engine fuel left) s
      { w with
        market := e.market
        engine := .reporting (reports w.market task e.pushed)
        dbMutex := mutex } e.fills := by
  have hkept : w.Locked → mutex = some .dbWorker := by
    rcases hmutex with ⟨hheld, -⟩ | ⟨-, rfl⟩
    · exact fun hlocked => absurd hlocked (h.not_locked hheld (by decide))
    · exact h.mutex
  refine Or.inr ⟨_, _, .engine left hat, ?_, h.running hat hrun hkept⟩
  have hqueue : s.engineQueue = task :: (w.engineQueue.items size ++ w.session.queued) := by
    rw [h.queue, tasks, hat]
    rfl
  rw [← h.market] at hrun
  rw [Server.act, Server.engineStep, hqueue]
  simp only [hrun, Option.bind_eq_bind, Option.bind_some, Option.map_some]

/-! ### The database worker -/

lemma Shows.swapped {sessions : Nat} (h : w.Shows s) (hat : w.dbWorker = .waiting) :
    Follows w (.dbWorker sessions) s
      { w with
        dbQueueFront := w.dbQueueBack
        dbQueueBack := w.dbQueueFront
        dbWorker := .swapped } [] := by
  have hbatch := h.batch
  rw [Batched, hat] at hbatch
  obtain ⟨hback, hback', hdb⟩ := hbatch
  refine Or.inr ⟨_, _, .swap w.dbQueueFront.length hat, if_pos hback', ?_⟩
  refine ⟨h.market, h.ring, h.queue, h.pushing, ?_, ?_, ?_⟩
  · rw [h.front, List.drop_left, hback]
    rfl
  · rw [h.front, List.take_left]
    exact ⟨rfl, hdb⟩
  · rintro ⟨i, hi⟩
    cases hi

/-- Another part of the worker's way. -/
lemma Shows.dbWorker (h : w.Shows s) {db : Database} {back : List DbTask} {dbWorker : BatchWorker}
    {dbMutex registryMutex : Option Thread}
    (hbatch : ({ w with db := db, dbQueueBack := back, dbWorker := dbWorker } : Workers).Batched s)
    (hmutex : ∀ i, dbWorker = .applying i → dbMutex = some .dbWorker) :
    ({ w with
      db := db
      dbQueueBack := back
      dbWorker := dbWorker
      dbMutex := dbMutex
      registryMutex := registryMutex } : Workers).Shows s :=
  ⟨h.market, h.ring, h.queue, h.pushing, h.front, hbatch, fun ⟨i, hi⟩ => hmutex i hi⟩

lemma Batched.applied {i : Nat} {task : DbTask} (h : w.Batched s) (hat : w.dbWorker = .applying i)
    (htask : w.dbQueueBack[i]? = some task) :
    ({ w with db := applyTask w.db task, dbWorker := .applying (i + 1) } : Workers).Batched s := by
  rw [Batched, hat] at h
  obtain ⟨hback, hdb⟩ := h
  refine ⟨hback, ?_⟩
  rw [List.take_add_one, htask, List.foldl_append, ← hdb]
  rfl

/-- The last task of a batch makes it an action. -/
lemma Shows.committed {sessions i : Nat} (h : w.Shows s) (hat : w.dbWorker = .applying i)
    (hdone : w.dbQueueBack.length ≤ i) :
    Follows w (.dbWorker sessions) s
      { w with dbWorker := .notifying (affectedUsers w.dbQueueBack), dbMutex := none } [] := by
  have hbatch := h.batch
  rw [Batched, hat] at hbatch
  obtain ⟨hback, hdb⟩ := hbatch
  refine Or.inr ⟨_, _, .commit hat hdone, rfl, h.market, h.ring, h.queue, h.pushing, h.front,
    ⟨rfl, ?_⟩, ?_⟩
  · rw [hdb, hback, List.take_of_length_le hdone]
  · rintro ⟨j, hj⟩
    cases hj

/-! ### The refinement -/

/-- **One step of one thread** is no action of the server or one. -/
lemma Shows.step (h : w.Shows s) (hstep : w.step move = some (w', fills)) :
    Follows w move s w' fills := by
  have hbatch := h.batch
  rw [Batched] at hbatch
  have hnone : ∀ {thread : Thread}, w.dbMutex = some thread → thread ≠ .dbWorker →
      w.Locked → (none : Option Thread) = some .dbWorker :=
    fun hmutex hthread hlocked => absurd hlocked (h.not_locked hmutex hthread)
  cases step_steps hstep with
  | entered hat hhandler =>
    refine h.enters (by rw [hat]; rfl) h.mutex fun task htask => ?_
    exact .entered (htask ▸ hhandler)
  | lockedDb hat hfree =>
    exact Or.inl ⟨h.mutexes fun hlocked => absurd hlocked (h.not_locked_of_free hfree), rfl⟩
  | lockedRegistry => exact Or.inl ⟨h.mutexes h.mutex, rfl⟩
  | unauthenticated hat hmutex =>
    exact h.enters (by rw [hat]; rfl) (hnone hmutex (by decide)) fun _ htask => by cases htask
  | authenticated userId hat hmutex =>
    exact h.enters (by rw [hat]; rfl) (hnone hmutex (by decide)) fun _ => .authenticated hat
  | unpriced hat => exact h.enters (by rw [hat]; rfl) h.mutex fun _ htask => by cases htask
  | priced hat => exact h.enters (by rw [hat]; rfl) h.mutex fun _ htask => by cases htask
  | refused hat hmutex =>
    exact h.enters (by rw [hat]; rfl) (hnone hmutex (by decide)) fun _ htask => by cases htask
  | reserved hat hmutex hreserve => exact h.reserved hat hmutex hreserve
  | pushing hat hfull => exact Or.inl ⟨h.pushes hat hfull, rfl⟩
  | pushed hat hsome => exact Or.inl ⟨h.pushed _ hat hsome, rfl⟩
  | @called refPrice user snapshot hat =>
    refine h.enters (by rw [hat]; rfl) h.mutex fun task htask => ?_
    cases snapshot with
    | none => cases htask
    | some companyId =>
      obtain rfl := SessionThread.pushing.inj htask
      exact .called hat
  | calling hat hmutex =>
    exact h.enters (by rw [hat]; rfl) (hnone hmutex (by decide)) fun _ htask => by cases htask
  | executed hat hmutex => exact h.executed hat hmutex
  | joined hat =>
    refine h.enters (by rw [hat]; rfl) h.mutex fun task htask => ?_
    obtain rfl := SessionThread.pushing.inj htask
    exact .joined hat
  | left hat => exact h.enters (by rw [hat]; rfl) h.mutex fun _ htask => by cases htask
  | popping hat hempty =>
    exact Or.inl ⟨h.popStep hat _ w.engine (by rw [hempty, hat]; rfl) (by rw [hat]; rfl), rfl⟩
  | popped hat hsome => exact Or.inl ⟨h.popStep hat _ _ (by rw [hsome]; rfl) rfl, rfl⟩
  | lockedPrices hat hreads hfree =>
    exact Or.inl ⟨h.mutexes fun hlocked => absurd hlocked (h.not_locked_of_free hfree), rfl⟩
  | ran hat hmutex hrun => exact h.ran hat hmutex hrun
  | returned hat => exact Or.inl ⟨h.unqueued (by rw [hat]; rfl) (by rw [hat]; rfl), rfl⟩
  | lockedBroadcast => exact Or.inl ⟨h.mutexes h.mutex, rfl⟩
  | broadcast hat => exact Or.inl ⟨h.unqueued (by rw [hat]; rfl) (by rw [hat]; rfl), rfl⟩
  | handedOver hat =>
    refine Or.inl ⟨h.unqueued (by rw [hat]; rfl) ?_, rfl⟩
    rw [hat, EngineWorker.unqueued, EngineWorker.unqueued, List.flatMap_cons, List.append_assoc]
    rfl
  | swapped hat => exact h.swapped hat
  | locked hat =>
    rw [hat] at hbatch
    exact Or.inl ⟨h.dbWorker ⟨hbatch.1, hbatch.2⟩ fun _ _ => rfl, rfl⟩
  | applied hat htask =>
    exact Or.inl ⟨h.dbWorker (h.batch.applied hat htask) fun _ _ => h.mutex ⟨_, hat⟩, rfl⟩
  | committed hat hdone => exact h.committed hat hdone
  | cleared hat =>
    rw [hat] at hbatch
    exact Or.inl ⟨h.dbWorker ⟨rfl, hbatch.1, hbatch.2⟩ (fun _ hi => by cases hi), rfl⟩
  | began hat =>
    rw [hat] at hbatch
    exact Or.inl ⟨h.dbWorker hbatch (fun _ hi => by cases hi), rfl⟩
  | ended hat =>
    rw [hat] at hbatch
    exact Or.inl ⟨h.dbWorker hbatch (fun _ hi => by cases hi), rfl⟩
  | lockedWallet => exact Or.inl ⟨h.dbWorker h.batch fun _ _ => rfl, rfl⟩
  | updated hat =>
    rw [hat] at hbatch
    exact Or.inl ⟨h.dbWorker hbatch (fun _ hi => by cases hi), rfl⟩

/-- Nobody else writes to the database while the database worker holds its mutex, and the worker has
not committed. -/
lemma Causes.db_eq {action : Action} {fills' : List Trade} (h : w.Causes move action)
    (hshows : w.Shows s) (hact : s.act action = some (s', fills))
    (hstep : w.step move = some (w', fills')) (hlocked : w'.Locked) : s'.db = s.db := by
  have hsession : ∀ {refPrice : Nat} {user : Bool}, move = .session refPrice user →
      w.dbMutex ≠ some .session := by
    rintro refPrice user rfl hmutex
    have hsame : w'.dbWorker = w.dbWorker := by
      cases step_steps hstep <;> rfl
    rw [Locked, hsame] at hlocked
    exact hshows.not_locked hmutex (by decide) hlocked
  cases h with
  | submit refPrice user hat hmutex => exact absurd hmutex (hsession rfl)
  | queue henqueues =>
    cases Server.act_does hact with
    | queued => rfl
  | engine left hat =>
    cases Server.act_does hact with
    | engine hengine =>
      cases Server.step_steps hengine <;> rfl
  | swap n hat =>
    cases Server.act_does hact with
    | swapped hback => rfl
  | commit hat hdone =>
    obtain ⟨i, hi⟩ := hlocked
    have hleft : w'.dbWorker = .notifying (affectedUsers w.dbQueueBack) := by
      rw [step, dbWorkerStep, hat] at hstep
      simp only [List.getElem?_eq_none hdone] at hstep
      obtain ⟨rfl, -⟩ := Prod.mk.inj (Option.some.inj hstep)
      rfl
    rw [hleft] at hi
    cases hi
  | write hat hmutex => exact absurd hmutex (hsession rfl)

variable {a : Asset} {u : Int} {accounts : Int → Prop}

/-- Everything that belongs to a user: in the database, in the orders on their way and on the books,
and in the credits on their way. -/
def wealth (a : Asset) (u : Int) (w : Workers) : Int :=
  a.balance w.db u + (w.tasks.map (EngineTask.reserved a u)).sum + w.market.held (a.unit u)
    + a.credits u w.dbTasks

/-- The part of a batch that has been applied is in the database. -/
lemma Batched.balance (h : w.Batched s) (hu : s.db.Registered u) :
    a.balance w.db u + a.credits u w.unapplied
      = a.balance s.db u + a.credits u s.dbQueueBack := by
  rw [Batched] at h
  rw [unapplied]
  cases hat : w.dbWorker with
  | waiting =>
    rw [hat] at h
    rw [h.2.1, h.2.2]
  | applying i =>
    rw [hat] at h
    have hsplit := congrArg (a.credits u) (List.take_append_drop i w.dbQueueBack)
    rw [Asset.credits_append] at hsplit
    rw [h.1, h.2, Asset.balance_batch hu]
    linear_combination hsplit
  | _ =>
    rw [hat] at h
    rw [h.1, h.2]

/-- A batch opens and closes no accounts. -/
lemma Batched.registered (h : w.Batched s) : w.db.Registered u ↔ s.db.Registered u := by
  by_cases hlocked : w.Locked
  · obtain ⟨i, hat⟩ := hlocked
    rw [Batched, hat] at h
    rw [h.2]
    exact Asset.registered_batch _
  · rw [h.db_eq hlocked]

lemma Shows.wealth_eq (h : w.Shows s) (hu : s.db.Registered u) : w.wealth a u = s.wealth a u := by
  have hbalance := h.batch.balance (a := a) hu
  have hfront := congrArg (a.credits u) h.front
  rw [Asset.credits_append] at hfront
  simp only [wealth, Server.wealth, Server.live, Server.pending, h.queue, h.market, dbTasks,
    Asset.credits_append]
  linear_combination hbalance - hfront

/-- A registration gets an id that nobody has. -/
def Fresh (db : Database) : Errand → Prop
  | .register userId => ¬ db.Registered userId
  | .login _ _ _ => True
  | .snapshot _ => True
  | .other _ => True

instance (db : Database) : (errand : Errand) → Decidable (Fresh db errand)
  | .register userId => inferInstanceAs (Decidable (¬ db.Registered userId))
  | .login _ _ _ => isTrue trivial
  | .snapshot _ => isTrue trivial
  | .other _ => isTrue trivial

/-- Ordinary operation: ordinary messages, and fewer than `2 ^ 32` submissions for each book. -/
def Ordinary (w : Workers) : Move → Prop
  | .receive _ msg => msg.Ordinary w.market
  | .errand e => Fresh w.db e
  | .accept => True
  | .leave => True
  | .session _ _ => True
  | .engine _ _ => ∀ task ∈ w.engine.taken, task.HasRoom w.market
  | .dbWorker _ => True

instance (w : Workers) : (move : Move) → Decidable (w.Ordinary move)
  | .receive _ msg => inferInstanceAs (Decidable (msg.Ordinary w.market))
  | .errand e => inferInstanceAs (Decidable (Fresh w.db e))
  | .accept => isTrue trivial
  | .leave => isTrue trivial
  | .session _ _ => isTrue trivial
  | .engine _ _ => inferInstanceAs (Decidable (∀ task ∈ w.engine.taken, task.HasRoom w.market))
  | .dbWorker _ => isTrue trivial

/-- A request is for a listed company, or cancels an order that may exist. -/
def RequestOrdinary (m : MarketState) : Request → Prop
  | .order _ _ companyId _ _ _ _ => companyId ∈ m.companies
  | .marketOrder companyId _ _ _ => companyId ∈ m.companies
  | .cancel _ orderId => orderId ≠ 0

/-- The request in hand is ordinary, the order in hand for a listed company; and no statement
touches the accounts. -/
def SessionOrdinary (m : MarketState) (accounts : Int → Prop) : SessionThread → Prop
  | .reading => True
  | .authenticating _ _ request => RequestOrdinary m request
  | .pricing _ companyId _ _ _ => companyId ∈ m.companies
  | .reserving _ companyId _ _ _ _ => companyId ∈ m.companies
  | .pushing _ => True
  | .calling calls _ =>
    ∀ statements ∈ calls, ∀ statement ∈ statements, ∀ u, accounts u → statement.Spares u
  | .joining => True
  | .leaving => True

lemma ordinary_receive {now : Int} {msg : Server.Message} (hmsg : msg.Ordinary w.market) :
    SessionOrdinary w.market accounts (w.receive now msg) := by
  cases msg with
  | order msg =>
    simp only [receive]
    split
    · split_ifs
      · trivial
      · exact hmsg
    · trivial
  | marketOrder msg =>
    simp only [receive]
    split
    · exact hmsg
    · trivial
  | cancel msg =>
    simp only [receive]
    split
    · next orderId hid =>
      rintro rfl
      exact hmsg hid
    · trivial
  | switchEngine mode => exact hmsg.elim
  | snapshot companyId => trivial

lemma ordinary_begin {m : MarketState} {db : Database} {e : Errand} (he : Fresh db e)
    (haccounts : ∀ u, accounts u → db.Registered u) :
    SessionOrdinary m accounts (begin m e) := by
  cases e with
  | register userId =>
    have hspares : ∀ u, accounts u → u ≠ userId := by
      rintro u hu rfl
      exact he (haccounts u hu)
    intro statements hstatements statement hstatement u hu
    rcases List.mem_append.mp hstatements with hstatements | hstatements
    · rcases List.mem_cons.mp hstatements with rfl | hstatements
      · rcases List.mem_pair.mp hstatement with rfl | rfl
        · trivial
        · exact hspares u hu
      · obtain ⟨companyId, -, rfl⟩ := List.mem_map.mp hstatements
        rw [List.mem_singleton.mp hstatement]
        exact hspares u hu
    · rw [List.mem_singleton.mp hstatements] at hstatement
      cases hstatement
  | login token userId expiresAt =>
    intro statements hstatements statement hstatement u _
    rcases List.mem_pair.mp hstatements with rfl | rfl
    · rw [List.mem_singleton.mp hstatement]
      trivial
    · cases hstatement
  | snapshot companyId =>
    intro statements hstatements statement hstatement
    rw [List.mem_singleton.mp hstatements] at hstatement
    cases hstatement
  | other writes =>
    intro statements hstatements statement hstatement u _
    obtain ⟨write, -, rfl⟩ := List.mem_map.mp hstatements
    split_ifs at hstatement
    · rw [List.mem_singleton.mp hstatement]
      trivial
    · cases hstatement

lemma ordinary_allow {m : MarketState} {userId : Int} {request : Request}
    (h : RequestOrdinary m request) : SessionOrdinary m accounts (allow m userId request) := by
  cases request with
  | order stress syntheticUserId companyId side price quantity timestamp =>
    simp only [allow]
    split_ifs
    · trivial
    · trivial
    · exact h
  | marketOrder companyId side quantity timestamp =>
    simp only [allow]
    split_ifs
    · exact h
    · trivial
  | cancel companyId orderId => trivial

lemma ordinary_userUpdate {m : MarketState} : SessionOrdinary m accounts userUpdate := by
  intro statements hstatements statement hstatement
  rw [List.mem_singleton.mp hstatements] at hstatement
  cases hstatement

lemma ordinary_afterPush {m : MarketState} {user : Bool} {task : EngineTask} :
    SessionOrdinary m accounts (afterPush user task) := by
  cases task with
  | snapshot companyId =>
    cases user with
    | false => trivial
    | true => exact ordinary_userUpdate
  | _ => trivial

/-- A handler stays with its company, and makes the statements that are left. -/
lemma ordinary_session (h : SessionOrdinary w.market accounts w.session) (hord : w.Ordinary move)
    (haccounts : ∀ u, accounts u → w.db.Registered u)
    (hstep : w.step move = some (w', fills)) : SessionOrdinary w.market accounts w'.session := by
  cases step_steps hstep with
  | entered hat hhandler =>
    cases move with
    | receive now msg =>
      rw [← Option.some.inj hhandler]
      exact ordinary_receive hord
    | errand e =>
      rw [← Option.some.inj hhandler]
      exact ordinary_begin hord haccounts
    | accept =>
      rw [← Option.some.inj hhandler]
      trivial
    | leave =>
      rw [← Option.some.inj hhandler]
      trivial
    | _ => cases hhandler
  | authenticated userId hat =>
    rw [hat] at h
    exact ordinary_allow h
  | priced hat =>
    rw [hat] at h
    exact h
  | pushed => exact ordinary_afterPush
  | @called refPrice user snapshot hat => cases snapshot <;> trivial
  | calling hat =>
    rw [hat] at h
    exact fun statements hstatements => h statements (List.mem_cons_of_mem _ hstatements)
  | executed hat =>
    rw [hat] at h
    intro statements hstatements statement hstatement
    rcases List.mem_cons.mp hstatements with rfl | hstatements
    · exact h _ List.mem_cons_self _ (List.mem_cons_of_mem _ hstatement)
    · exact h _ (List.mem_cons_of_mem _ hstatements) _ hstatement
  | unauthenticated | unpriced | refused | reserved | joined | left => trivial
  | _ => exact h

lemma SessionOrdinary.congr {m m' : MarketState} {session : SessionThread}
    (hm : m'.companies = m.companies) (h : SessionOrdinary m accounts session) :
    SessionOrdinary m' accounts session := by
  cases session with
  | authenticating now token request =>
    cases request with
    | cancel companyId orderId => exact h
    | _ =>
      rw [SessionOrdinary, RequestOrdinary, hm]
      exact h
  | pricing userId companyId side quantity timestamp =>
    rw [SessionOrdinary, hm]
    exact h
  | reserving userId companyId side price quantity timestamp =>
    rw [SessionOrdinary, hm]
    exact h
  | calling calls snapshot => exact h
  | _ => trivial

/-- What is pushed at once is ordinary. -/
lemma Enqueues.ordinary {task : EngineTask} (h : w.Enqueues move task) (hord : w.Ordinary move)
    (hsession : SessionOrdinary w.market accounts w.session) :
    task.Ordinary w.market ∧ task.Addressed := by
  cases h with
  | entered hhandler =>
    cases move with
    | receive now msg =>
      have hreceive : w.receive now msg = .pushing task := Option.some.inj hhandler
      rcases receive_eq_pushing hreceive with ⟨mode, rfl⟩ | ⟨companyId, rfl⟩
      · exact False.elim hord
      · rw [← SessionThread.pushing.inj hreceive]
        exact ⟨trivial, trivial⟩
    | errand e => cases e <;> cases hhandler
    | _ => cases hhandler
  | authenticated hat hallow =>
    rw [hat] at hsession
    rcases allow_eq_pushing hallow with
      ⟨companyId, orderId, rfl, rfl⟩ | ⟨_, companyId, _, _, _, _, syntheticId, -, rfl, rfl⟩
    · exact ⟨hsession, trivial⟩
    · exact ⟨hsession, rfl⟩
  | called => exact ⟨trivial, trivial⟩
  | joined => exact ⟨trivial, trivial⟩

/-- The threads look like a server in ordinary operation, where these accounts are kept. -/
structure Sane (accounts : Int → Prop) (w : Workers) (s : Server) : Prop where
  shows : w.Shows s
  running : s.Running
  session : SessionOrdinary w.market accounts w.session
  accounts : ∀ u, accounts u → s.db.Registered u

/-- An ordinary move is an ordinary action. -/
lemma Sane.action {action : Action} (h : Sane accounts w s) (hord : w.Ordinary move)
    (hcauses : w.Causes move action) :
    s.OrdinaryAction action ∧ ∀ u, accounts u → action.Spares u := by
  have hsession := h.session
  cases hcauses with
  | submit refPrice user hat hmutex =>
    rw [hat, ← h.shows.market] at hsession
    exact ⟨hsession, fun _ _ => trivial⟩
  | queue henqueues =>
    have htask := henqueues.ordinary hord hsession
    rw [← h.shows.market] at htask
    exact ⟨htask, fun _ _ => trivial⟩
  | @engine fuel task left hat =>
    refine ⟨fun task' htask' => ?_, fun _ _ => trivial⟩
    rw [h.shows.queue, tasks, hat] at htask'
    obtain rfl := Option.some.inj htask'
    rw [h.shows.market]
    refine hord task ?_
    rw [hat]
    exact List.mem_singleton_self task
  | swap n hat => exact ⟨trivial, fun _ _ => trivial⟩
  | commit hat hdone => exact ⟨trivial, fun _ _ => trivial⟩
  | write hat hmutex =>
    rw [hat] at hsession
    exact ⟨trivial, hsession _ List.mem_cons_self _ List.mem_cons_self⟩

/-- **One ordinary step of one thread** changes what belongs to a user by what his fills earn. -/
lemma Sane.step (h : Sane accounts w s) (hord : w.Ordinary move) (hdb : s.db.NonNegative)
    (hstep : w.step move = some (w', fills)) :
    ∃ s', Sane accounts w' s' ∧ s'.db.NonNegative ∧ (w'.Locked → s'.db = s.db) ∧
      ∀ u, accounts u → 0 ≤ u → ∀ a : Asset,
        s'.wealth a u = s.wealth a u + a.earnings u fills := by
  have hsession := ordinary_session h.session hord
    (fun u hu => h.shows.batch.registered.mpr (h.accounts u hu)) hstep
  rcases h.shows.step hstep with ⟨hshows, rfl⟩ | ⟨action, s', hcauses, hact, hshows⟩
  · have hsame : w'.market.companies = w.market.companies := by
      rw [← hshows.market, h.shows.market]
    exact ⟨s, ⟨hshows, h.running, hsession.congr hsame, h.accounts⟩, hdb, fun _ => rfl,
      fun u _ _ a => by rw [Asset.earnings_nil, add_zero]⟩
  · obtain ⟨haction, hspares⟩ := h.action hord hcauses
    have hsame : w'.market.companies = w.market.companies := by
      rw [← hshows.market, Server.companies_act hact, h.shows.market]
    exact ⟨s', ⟨hshows, h.running.act haction hact, hsession.congr hsame,
        fun u hu => Server.registered_act hact (h.accounts u hu)⟩,
      Server.nonNegative_act hdb hact, hcauses.db_eq h.shows hact hstep,
      fun u hu hpos a => Server.act_wealth h.running haction (hspares u hu) (h.accounts u hu) hpos
        hact⟩

lemma sane_start {companies : List Nat} {m : MarketState} (db : Database)
    (buffer : Nat → EngineTask) (hm : MarketState.new companies = .ok m)
    (haccounts : ∀ u, accounts u → db.Registered u) :
    Sane accounts (start m db buffer) (Server.start m db) :=
  ⟨shows_start m db buffer, Server.running_start hm db, trivial, haccounts⟩

/-- **The ledger, thread by thread.** In every state that the threads reach in ordinary operation,
also in the middle of a push, of a task or of a batch: what belongs to an account, in the database
and wherever it is on its way, is what it had at first and what its fills have earned; and nothing
in the database is negative. -/
theorem threads_ledger {companies : List Nat} {m : MarketState} {db : Database}
    {buffer : Nat → EngineTask} (hm : MarketState.new companies = .ok m) (hdb : db.NonNegative)
    (h : Run Ordinary (start m db buffer) w fills) :
    (∀ u, 0 ≤ u → db.Registered u → ∀ a : Asset,
      w.wealth a u = a.balance db u + a.earnings u fills) ∧ w.db.NonNegative := by
  have hledger : ∃ s, Sane db.Registered w s ∧ s.db.NonNegative ∧ ∀ u, db.Registered u → 0 ≤ u →
      ∀ a : Asset, s.wealth a u = a.balance db u + a.earnings u fills := by
    refine h.invariant (P := fun w fills => ∃ s, Sane db.Registered w s ∧ s.db.NonNegative ∧
      ∀ u, db.Registered u → 0 ≤ u →
        ∀ a : Asset, s.wealth a u = a.balance db u + a.earnings u fills)
      ⟨_, sane_start db buffer hm fun _ hu => hu, hdb, fun u hu _ a => ?_⟩ ?_
    · rw [Server.wealth_start hm, Asset.earnings_nil, add_zero]
    · rintro w w' move fills fills' ⟨s, hsane, hnonneg, hwealth⟩ hord hstep
      obtain ⟨s', hsane', hnonneg', -, hstep'⟩ := hsane.step hord hnonneg hstep
      refine ⟨s', hsane', hnonneg', fun u hu hpos a => ?_⟩
      rw [hstep' u hu hpos a, hwealth u hu hpos a, Asset.earnings_append, add_assoc]
  obtain ⟨s, hsane, hnonneg, hwealth⟩ := hledger
  refine ⟨fun u hpos hu a => ?_, ?_⟩
  · rw [hsane.shows.wealth_eq (hsane.accounts u hu), hwealth u hu hpos a]
  · by_cases hlocked : w.Locked
    · have hbatch := hsane.shows.batch
      obtain ⟨i, hat⟩ := hlocked
      rw [Batched, hat] at hbatch
      rw [hbatch.2]
      exact Server.nonNegative_batch hnonneg _
    · rw [hsane.shows.batch.db_eq hlocked]
      exact hnonneg

/-- User 8 offers a share and user 7 buys it; the database worker is in the middle of the batch. -/
def sampleMoves : List Move :=
  [.receive 0 (.order ⟨"b", some 1, some "SELL", some 5, some 1, some 0, false, none⟩)]
    ++ List.replicate 8 (.session 0 true)
    ++ [.receive 0 (.order ⟨"a", some 1, some "BUY", some 6, some 1, some 0, false, none⟩)]
    ++ List.replicate 8 (.session 0 true) ++ List.replicate 18 (.engine 100001 (.snapshot 0))
    ++ List.replicate 3 (.dbWorker 1)

/-- The threads of two users with 1000 cents and 10 shares each. -/
def sampleStart : Workers := start Server.sampleMarket Server.sampleDb fun _ => .snapshot 0

theorem threads_ledger_sampleMoves : ∃ w fills, Run Ordinary sampleStart w fills ∧
    w.dbWorker = .applying 1 ∧ Asset.cash.earnings 7 fills = -5 ∧ w.wealth .cash 7 = 995 := by
  obtain ⟨⟨w, fills⟩, hrun, hout⟩ := Option.map_eq_some_iff.mp
    (by decide +kernel : (Transition.runEvents step Ordinary sampleStart sampleMoves).map
      (fun r => (r.1.dbWorker, Asset.cash.earnings 7 r.2)) = some (.applying 1, -5))
  have h := Transition.run_of_runEvents hrun
  obtain ⟨hworker, hearned⟩ := Prod.mk.inj hout
  obtain ⟨hwealth, -⟩ := threads_ledger Server.new_sampleMarket Server.nonNegative_sampleDb h
  refine ⟨w, fills, h, hworker, hearned, ?_⟩
  rw [hwealth 7 (by decide) rfl .cash, hearned]
  rfl

end Workers

end ExchangeEngine
