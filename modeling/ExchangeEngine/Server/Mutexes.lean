import ExchangeEngine.Server.Atomicity

/-!
# The mutexes

Who holds the mutex of the database or that of the registry is at a place where it needs it, and
goes on unless it needs the other one: only the database worker takes both, the registry's first. So
the threads never wait for each other in a circle.
-/

namespace ExchangeEngine

namespace Workers

variable {w w' : Workers} {s : Server} {move : Move} {fills : List Trade} {fuel : Nat}

/-! ### Who holds them -/

/-- Is this where a thread holds the mutex of the database? -/
def UsesDb (w : Workers) : Thread → Prop
  | .session => w.session.UsesDb
  | .engine => ∃ task, w.engine = .running task ∧ ReadsPrices w.market task
  | .dbWorker => w.Locked ∨ ∃ more users, w.dbWorker = .updating (more + 1) users

/-- Is this where a thread holds the mutex of the registry? -/
def UsesRegistry (w : Workers) : Thread → Prop
  | .session => w.session.UsesRegistry
  | .engine => ∃ rest, w.engine = .reporting (.broadcast :: rest)
  | .dbWorker => ∃ sessions users, w.dbWorker = .updating sessions users

/-- Who holds a mutex needs it. -/
structure Held (w : Workers) : Prop where
  db : ∀ thread, w.dbMutex = some thread → w.UsesDb thread
  registry : ∀ thread, w.registryMutex = some thread → w.UsesRegistry thread
  updating : ∀ {sessions users}, w.dbWorker = .updating sessions users →
    w.registryMutex = some .dbWorker

lemma held_start (m : MarketState) (db : Database) (buffer : Nat → EngineTask) :
    (start m db buffer).Held := by
  refine ⟨?_, ?_, ?_⟩
  · rintro thread hthread
    cases hthread
  · rintro thread hthread
    cases hthread
  · rintro sessions users hat
    cases hat

namespace Held

lemma lockDb {thread : Thread} (h : w.Held) (huses : w.UsesDb thread) :
    ({ w with dbMutex := some thread } : Workers).Held := by
  refine ⟨fun holder hholder => ?_, h.registry, h.updating⟩
  obtain rfl := Option.some.inj hholder
  exact huses

lemma unlockDb (h : w.Held) : ({ w with dbMutex := none } : Workers).Held where
  db _ hholder := by cases hholder
  registry := h.registry
  updating := h.updating

lemma lockRegistry {thread : Thread} (h : w.Held) (hfree : w.registryMutex = none)
    (huses : w.UsesRegistry thread) :
    ({ w with registryMutex := some thread } : Workers).Held := by
  refine ⟨h.db, fun holder hholder => ?_, fun hat => ?_⟩
  · obtain rfl := Option.some.inj hholder
    exact huses
  · have hholder := h.updating hat
    rw [hfree] at hholder
    cases hholder

lemma unlockRegistry (h : w.Held) (hholder : w.registryMutex ≠ some .dbWorker) :
    ({ w with registryMutex := none } : Workers).Held where
  db := h.db
  registry _ hnone := by cases hnone
  updating hat := absurd (h.updating hat) hholder

lemma setSession {session : SessionThread} {database : Database} {queue : SPSCQueue EngineTask}
    (h : w.Held) (hdb : w.dbMutex = some .session → session.UsesDb)
    (hregistry : w.registryMutex = some .session → session.UsesRegistry) :
    ({ w with db := database, engineQueue := queue, session := session } : Workers).Held where
  db
    | .session, hholder => hdb hholder
    | .engine, hholder => h.db .engine hholder
    | .dbWorker, hholder => h.db .dbWorker hholder
  registry
    | .session, hholder => hregistry hholder
    | .engine, hholder => h.registry .engine hholder
    | .dbWorker, hholder => h.registry .dbWorker hholder
  updating := h.updating

lemma setEngine {market : MarketState} {queue : SPSCQueue EngineTask} {front : List DbTask}
    {engine : EngineWorker} (h : w.Held)
    (hdb : w.dbMutex = some .engine → ∃ task, engine = .running task ∧ ReadsPrices market task)
    (hregistry : w.registryMutex = some .engine →
      ∃ rest, engine = .reporting (.broadcast :: rest)) :
    ({ w with
        market := market
        engineQueue := queue
        dbQueueFront := front
        engine := engine } : Workers).Held where
  db
    | .session, hholder => h.db .session hholder
    | .engine, hholder => hdb hholder
    | .dbWorker, hholder => h.db .dbWorker hholder
  registry
    | .session, hholder => h.registry .session hholder
    | .engine, hholder => hregistry hholder
    | .dbWorker, hholder => h.registry .dbWorker hholder
  updating := h.updating

lemma setDbWorker {dbWorker : BatchWorker} {database : Database} {front back : List DbTask}
    (h : w.Held)
    (hdb : w.dbMutex = some .dbWorker →
      (∃ i, dbWorker = .applying i) ∨ ∃ more users, dbWorker = .updating (more + 1) users)
    (hregistry : w.registryMutex = some .dbWorker ↔
      ∃ sessions users, dbWorker = .updating sessions users) :
    ({ w with
        db := database
        dbQueueFront := front
        dbQueueBack := back
        dbWorker := dbWorker } : Workers).Held where
  db
    | .session, hholder => h.db .session hholder
    | .engine, hholder => h.db .engine hholder
    | .dbWorker, hholder => hdb hholder
  registry
    | .session, hholder => h.registry .session hholder
    | .engine, hholder => h.registry .engine hholder
    | .dbWorker, hholder => hregistry.mp hholder
  updating hat := hregistry.mpr ⟨_, _, hat⟩

/-- A handler that needs neither mutex goes on. -/
lemma goOn {session : SessionThread} {queue : SPSCQueue EngineTask} (h : w.Held)
    (hdb : ¬ w.session.UsesDb) (hregistry : ¬ w.session.UsesRegistry) :
    ({ w with engineQueue := queue, session := session } : Workers).Held :=
  h.setSession (fun hholder => absurd (h.db _ hholder) hdb)
    fun hholder => absurd (h.registry _ hholder) hregistry

/-- A handler ends a call of the database. -/
lemma endCall {session : SessionThread} {database : Database} (h : w.Held)
    (hregistry : ¬ w.session.UsesRegistry) :
    ({ w with db := database, session := session, dbMutex := none } : Workers).Held :=
  h.unlockDb.setSession (fun hholder => by cases hholder)
    fun hholder => absurd (h.registry _ hholder) hregistry

/-- A handler leaves the registry. -/
lemma leaveRegistry {session : SessionThread} (h : w.Held) (hdb : ¬ w.session.UsesDb)
    (hholder : w.registryMutex = some .session) :
    ({ w with session := session, registryMutex := none } : Workers).Held := by
  have hother : w.registryMutex ≠ some .dbWorker := by
    rw [hholder]
    exact nofun
  exact (h.unlockRegistry hother).setSession (fun hmutex => absurd (h.db _ hmutex) hdb)
    fun hnone => by cases hnone

/-- Only a task that is being run has the engine thread hold the mutex of the database. -/
lemma engine_ne_db (h : w.Held) (hat : ∀ task, w.engine ≠ .running task) :
    w.dbMutex ≠ some .engine := by
  intro hholder
  obtain ⟨task, hrunning, -⟩ := h.db _ hholder
  exact hat task hrunning

/-- Only a broadcast has it hold the registry. -/
lemma engine_ne_registry (h : w.Held) (hat : ∀ rest, w.engine ≠ .reporting (.broadcast :: rest)) :
    w.registryMutex ≠ some .engine := by
  intro hholder
  obtain ⟨rest, hbroadcast⟩ := h.registry _ hholder
  exact hat rest hbroadcast

/-- The engine thread goes on when it needs neither mutex. -/
lemma goOnEngine {queue : SPSCQueue EngineTask} {front : List DbTask} {engine : EngineWorker}
    (h : w.Held) (hdb : ∀ task, w.engine ≠ .running task)
    (hregistry : ∀ rest, w.engine ≠ .reporting (.broadcast :: rest)) :
    ({ w with engineQueue := queue, dbQueueFront := front, engine := engine } : Workers).Held :=
  h.setEngine (fun hholder => absurd hholder (h.engine_ne_db hdb))
    fun hholder => absurd hholder (h.engine_ne_registry hregistry)

lemma dbWorker_ne_db (h : w.Held) (hlocked : ∀ i, w.dbWorker ≠ .applying i)
    (hupdating : ∀ sessions users, w.dbWorker ≠ .updating sessions users) :
    w.dbMutex ≠ some .dbWorker := by
  intro hholder
  rcases h.db _ hholder with ⟨i, hat⟩ | ⟨more, users, hat⟩
  · exact hlocked i hat
  · exact hupdating _ _ hat

/-- The database worker holds the registry just when it updates the sessions of a user. -/
lemma registry_iff (h : w.Held) {dbWorker : BatchWorker}
    (hbefore : ∀ sessions users, w.dbWorker ≠ .updating sessions users)
    (hafter : ∀ sessions users, dbWorker ≠ .updating sessions users) :
    w.registryMutex = some .dbWorker ↔ ∃ sessions users, dbWorker = .updating sessions users := by
  constructor
  · intro hholder
    obtain ⟨sessions, users, hat⟩ := h.registry _ hholder
    exact absurd hat (hbefore sessions users)
  · rintro ⟨sessions, users, hat⟩
    exact absurd hat (hafter sessions users)

/-- The database worker enters the registry. -/
lemma beginUser {sessions : Nat} {users : List Int} (h : w.Held)
    (hdb : w.dbMutex ≠ some .dbWorker) :
    ({ w with dbWorker := .updating sessions users, registryMutex := some .dbWorker } :
      Workers).Held where
  db
    | .session, hholder => h.db .session hholder
    | .engine, hholder => h.db .engine hholder
    | .dbWorker, hholder => absurd hholder hdb
  registry _ hholder := by
    obtain rfl := Option.some.inj hholder
    exact ⟨_, _, rfl⟩
  updating _ := rfl

/-- It leaves the registry. -/
lemma endUser {users : List Int} (h : w.Held) (hdb : w.dbMutex ≠ some .dbWorker) :
    ({ w with dbWorker := .notifying users, registryMutex := none } : Workers).Held where
  db
    | .session, hholder => h.db .session hholder
    | .engine, hholder => h.db .engine hholder
    | .dbWorker, hholder => absurd hholder hdb
  registry _ hnone := by cases hnone
  updating hat := by cases hat

/-- **A turn** keeps the mutexes in order. -/
theorem step (h : w.Held) (hsteps : Steps w move w' fills) : w'.Held := by
  cases hsteps with
  | entered hat => exact h.goOn (by rw [hat]; exact id) (by rw [hat]; exact id)
  | lockedDb hat => exact h.lockDb hat
  | lockedRegistry hat hfree => exact h.lockRegistry hfree hat
  | unauthenticated hat => exact h.endCall (by rw [hat]; exact id)
  | authenticated _ hat => exact h.endCall (by rw [hat]; exact id)
  | unpriced hat => exact h.goOn (by rw [hat]; exact id) (by rw [hat]; exact id)
  | priced hat => exact h.goOn (by rw [hat]; exact id) (by rw [hat]; exact id)
  | refused hat => exact h.endCall (by rw [hat]; exact id)
  | reserved hat => exact h.endCall (by rw [hat]; exact id)
  | pushing hat => exact h.goOn (by rw [hat]; exact id) (by rw [hat]; exact id)
  | pushed hat => exact h.goOn (by rw [hat]; exact id) (by rw [hat]; exact id)
  | called hat => exact h.goOn (by rw [hat]; exact fun hne => hne rfl) (by rw [hat]; exact id)
  | calling hat => exact h.endCall (by rw [hat]; exact id)
  | executed hat =>
    refine h.setSession (fun _ => List.cons_ne_nil _ _) fun hholder => ?_
    have huses := h.registry _ hholder
    rw [UsesRegistry, hat] at huses
    exact huses.elim
  | joined hat hmutex => exact h.leaveRegistry (by rw [hat]; exact id) hmutex
  | left hat hmutex => exact h.leaveRegistry (by rw [hat]; exact id) hmutex
  | popping hat => exact ⟨h.db, h.registry, h.updating⟩
  | popped hat =>
    exact h.goOnEngine (by rw [hat]; exact fun _ => nofun) (by rw [hat]; exact fun _ => nofun)
  | lockedPrices hat hreads => exact h.lockDb ⟨_, hat, hreads⟩
  | ran hat hmutex =>
    have hregistry := h.engine_ne_registry (by rw [hat]; exact fun _ => nofun)
    rcases hmutex with ⟨-, rfl⟩ | ⟨hreads, rfl⟩
    · exact h.unlockDb.setEngine (fun hnone => by cases hnone)
        fun hholder => absurd hholder hregistry
    · refine h.setEngine (fun hholder => ?_) fun hholder => absurd hholder hregistry
      obtain ⟨task, hrunning, htask⟩ := h.db _ hholder
      rw [hat] at hrunning
      exact absurd (EngineWorker.running.inj hrunning ▸ htask) hreads
  | returned hat =>
    exact h.goOnEngine (by rw [hat]; exact fun _ => nofun) (by rw [hat]; exact fun _ => nofun)
  | lockedBroadcast hat hfree => exact h.lockRegistry hfree ⟨_, hat⟩
  | broadcast hat hmutex =>
    have hdb := h.engine_ne_db (by rw [hat]; exact fun _ => nofun)
    have hother : w.registryMutex ≠ some .dbWorker := by
      rw [hmutex]
      exact nofun
    exact (h.unlockRegistry hother).setEngine (fun hholder => absurd hholder hdb)
      fun hnone => by cases hnone
  | handedOver hat =>
    exact h.goOnEngine (by rw [hat]; exact fun _ => nofun) (by rw [hat]; exact fun _ => nofun)
  | swapped hat =>
    have hdb := h.dbWorker_ne_db (by rw [hat]; exact nofun) (by rw [hat]; exact fun _ => nofun)
    exact h.setDbWorker (fun hholder => absurd hholder hdb)
      (h.registry_iff (by rw [hat]; exact fun _ => nofun) fun _ => nofun)
  | locked hat hfree =>
    have hbegun : ({ w with dbWorker := .applying 0 } : Workers).Held :=
      h.setDbWorker (fun _ => Or.inl ⟨0, rfl⟩)
        (h.registry_iff (by rw [hat]; exact fun _ => nofun) fun _ => nofun)
    exact hbegun.lockDb (Or.inl ⟨0, rfl⟩)
  | applied hat =>
    exact h.setDbWorker (fun _ => Or.inl ⟨_, rfl⟩)
      (h.registry_iff (by rw [hat]; exact fun _ => nofun) fun _ => nofun)
  | committed hat =>
    exact h.unlockDb.setDbWorker (fun hnone => by cases hnone)
      (h.registry_iff (by rw [hat]; exact fun _ => nofun) fun _ => nofun)
  | cleared hat =>
    have hdb := h.dbWorker_ne_db (by rw [hat]; exact nofun) (by rw [hat]; exact fun _ => nofun)
    exact h.setDbWorker (fun hholder => absurd hholder hdb)
      (h.registry_iff (by rw [hat]; exact fun _ => nofun) fun _ => nofun)
  | began hat =>
    exact h.beginUser
      (h.dbWorker_ne_db (by rw [hat]; exact nofun) (by rw [hat]; exact fun _ => nofun))
  | ended hat =>
    refine h.endUser fun hholder => ?_
    rcases h.db _ hholder with ⟨i, hlocked⟩ | ⟨more, users, hupdating⟩
    · rw [hat] at hlocked
      cases hlocked
    · rw [hat] at hupdating
      cases hupdating
  | lockedWallet hat => exact h.lockDb (Or.inr ⟨_, _, hat⟩)
  | updated hat =>
    exact h.unlockDb.setDbWorker (fun hnone => by cases hnone)
      (iff_of_true (h.updating hat) ⟨_, _, rfl⟩)

end Held

/-! ### Who waits -/

/-- Another thread holds the mutex. -/
def Taken (mutex : Option Thread) (thread : Thread) : Prop :=
  ∃ holder, mutex = some holder ∧ holder ≠ thread

/-- Is there nothing that the engine thread can do? -/
def EngineWaits (w : Workers) : Prop :=
  match w.engine with
  | .popping => w.engineQueue.items size = []
  | .running task => ReadsPrices w.market task ∧ Taken w.dbMutex .engine
  | .reporting (.broadcast :: _) => Taken w.registryMutex .engine
  | .reporting _ => False

/-- Is there nothing that the database worker can do? -/
def DbWorkerWaits (w : Workers) : Prop :=
  match w.dbWorker with
  | .waiting => w.dbQueueFront = []
  | .swapped => Taken w.dbMutex .dbWorker
  | .notifying (_ :: _) => Taken w.registryMutex .dbWorker
  | .updating (_ + 1) _ => Taken w.dbMutex .dbWorker
  | _ => False

lemma eq_of_not_taken {mutex : Option Thread} {thread : Thread} (h : ¬ Taken mutex thread) :
    ∀ holder, mutex = some holder → holder = thread := by
  intro holder hholder
  by_contra hother
  exact h ⟨holder, hholder, hother⟩

lemma not_taken_of {mutex : Option Thread} {thread : Thread}
    (h : mutex = none ∨ mutex = some thread) : ¬ Taken mutex thread := by
  rintro ⟨holder, hholder, hother⟩
  rcases h with h | h
  · rw [h] at hholder
    cases hholder
  · rw [h] at hholder
    exact hother (Option.some.inj hholder).symm

lemma Held.engine_ne_db_of_waits (h : w.Held) (hwaits : w.EngineWaits) :
    w.dbMutex ≠ some .engine := by
  intro hholder
  obtain ⟨task, hat, -⟩ := h.db _ hholder
  rw [EngineWaits, hat] at hwaits
  obtain ⟨-, holder, hother, hne⟩ := hwaits
  rw [hholder] at hother
  exact hne (Option.some.inj hother).symm

lemma Held.engine_ne_registry_of_waits (h : w.Held) (hwaits : w.EngineWaits) :
    w.registryMutex ≠ some .engine := by
  intro hholder
  obtain ⟨rest, hat⟩ := h.registry _ hholder
  rw [EngineWaits, hat] at hwaits
  obtain ⟨holder, hother, hne⟩ := hwaits
  rw [hholder] at hother
  exact hne (Option.some.inj hother).symm

lemma Held.dbWorker_ne_db_of_waits (h : w.Held) (hwaits : w.DbWorkerWaits) :
    w.dbMutex ≠ some .dbWorker := by
  intro hholder
  rcases h.db _ hholder with ⟨i, hat⟩ | ⟨more, users, hat⟩
  · rw [DbWorkerWaits, hat] at hwaits
    exact hwaits
  · rw [DbWorkerWaits, hat] at hwaits
    obtain ⟨holder, hother, hne⟩ := hwaits
    rw [hholder] at hother
    exact hne (Option.some.inj hother).symm

/-- **No circle.** When the engine thread and the database worker both wait, the handler holds the
mutex of the database, or nobody does; and if nobody does, only the handler can be in the registry.
-/
lemma Held.of_waits (h : w.Held) (hengine : w.EngineWaits) (hdbWorker : w.DbWorkerWaits) :
    (w.dbMutex = none ∨ w.dbMutex = some .session) ∧
      (w.dbMutex = none → w.registryMutex = none ∨ w.registryMutex = some .session) := by
  have hdb : w.dbMutex = none ∨ w.dbMutex = some .session := by
    cases hmutex : w.dbMutex with
    | none => exact Or.inl rfl
    | some holder =>
      cases holder with
      | session => exact Or.inr rfl
      | engine => exact absurd hmutex (h.engine_ne_db_of_waits hengine)
      | dbWorker => exact absurd hmutex (h.dbWorker_ne_db_of_waits hdbWorker)
  refine ⟨hdb, fun hfree => ?_⟩
  cases hmutex : w.registryMutex with
  | none => exact Or.inl rfl
  | some holder =>
    cases holder with
    | session => exact Or.inr rfl
    | engine => exact absurd hmutex (h.engine_ne_registry_of_waits hengine)
    | dbWorker =>
      obtain ⟨sessions, users, hat⟩ := h.registry _ hmutex
      rw [DbWorkerWaits, hat] at hdbWorker
      cases sessions with
      | zero => exact hdbWorker.elim
      | succ more =>
        obtain ⟨holder, hholder, -⟩ := hdbWorker
        rw [hfree] at hholder
        cases hholder

/-- When the others wait and the handler needs no mutex, there is nothing on its way to them. -/
lemma Held.idle_of_waits (h : w.Held) (hengine : w.EngineWaits) (hdbWorker : w.DbWorkerWaits)
    (hdb : ¬ w.session.UsesDb) (hregistry : ¬ w.session.UsesRegistry) :
    (w.engine = .popping ∧ w.engineQueue.items size = []) ∧
      w.dbWorker = .waiting ∧ w.dbQueueFront = [] := by
  obtain ⟨hnotDb, hnotRegistry⟩ := h.of_waits hengine hdbWorker
  have hfreeDb : w.dbMutex = none :=
    hnotDb.resolve_right fun hholder => hdb (h.db _ hholder)
  have hfreeRegistry : w.registryMutex = none :=
    (hnotRegistry hfreeDb).resolve_right fun hholder => hregistry (h.registry _ hholder)
  have hfree : ∀ {thread}, ¬ Taken none thread := not_taken_of (Or.inl rfl)
  constructor
  · rw [EngineWaits, hfreeDb, hfreeRegistry] at hengine
    cases hat : w.engine with
    | popping =>
      rw [hat] at hengine
      exact ⟨rfl, hengine⟩
    | running task =>
      rw [hat] at hengine
      exact absurd hengine.2 hfree
    | reporting reports =>
      rcases reports with _ | ⟨_ | tasks, rest⟩ <;> rw [hat] at hengine
      · exact hengine.elim
      · exact absurd hengine hfree
      · exact hengine.elim
  · rw [DbWorkerWaits, hfreeDb, hfreeRegistry] at hdbWorker
    cases hat : w.dbWorker with
    | waiting =>
      rw [hat] at hdbWorker
      exact ⟨rfl, hdbWorker⟩
    | swapped =>
      rw [hat] at hdbWorker
      exact absurd hdbWorker hfree
    | applying i =>
      rw [hat] at hdbWorker
      exact hdbWorker.elim
    | notifying users =>
      rw [hat] at hdbWorker
      cases users with
      | nil => exact hdbWorker.elim
      | cons userId users => exact absurd hdbWorker hfree
    | updating sessions users =>
      rw [hat] at hdbWorker
      cases sessions with
      | zero => exact hdbWorker.elim
      | succ more => exact absurd hdbWorker hfree

lemma Held.not_taken_db (h : w.Held) (hengine : w.EngineWaits) (hdbWorker : w.DbWorkerWaits) :
    ¬ Taken w.dbMutex .session :=
  not_taken_of (h.of_waits hengine hdbWorker).1

/-- A handler at the registry does not hold the mutex of the database, so nobody does. -/
lemma Held.not_taken_registry (h : w.Held) (hengine : w.EngineWaits) (hdbWorker : w.DbWorkerWaits)
    (huses : w.session.UsesRegistry) : ¬ Taken w.registryMutex .session := by
  obtain ⟨hdb, hregistry⟩ := h.of_waits hengine hdbWorker
  refine not_taken_of (hregistry (hdb.resolve_right fun hholder => ?_))
  have hsession : w.session.UsesDb := h.db _ hholder
  cases hat : w.session with
  | joining =>
    rw [hat] at hsession
    exact hsession
  | leaving =>
    rw [hat] at hsession
    exact hsession
  | _ =>
    rw [hat] at huses
    exact huses

/-! ### Who can move -/

/-- A handler can move if no other thread has a mutex that it needs. -/
lemma sessionStep_isSome {refPrice : Nat} {user : Bool} (hbusy : w.session ≠ .reading)
    (hdb : w.session.UsesDb → ¬ Taken w.dbMutex .session)
    (hregistry : w.session.UsesRegistry → ¬ Taken w.registryMutex .session) :
    (w.sessionStep refPrice user).isSome = true := by
  simp only [sessionStep]
  cases hat : w.session with
  | reading => exact absurd hat hbusy
  | authenticating now token request =>
    rw [hat] at hdb
    exact guarded_isSome (fun _ => rfl) (fun _ => rfl) (eq_of_not_taken (hdb trivial))
  | pricing userId companyId side quantity timestamp => rfl
  | reserving userId companyId side price quantity timestamp =>
    rw [hat] at hdb
    refine guarded_isSome (fun _ => rfl) (fun _ => ?_) (eq_of_not_taken (hdb trivial))
    split <;> rfl
  | pushing task =>
    simp only
    split <;> rfl
  | calling calls snapshot =>
    rw [hat] at hdb
    rcases calls with _ | ⟨_ | ⟨statement, statements⟩, calls⟩
    · rfl
    · exact guarded_isSome (fun _ => rfl) (fun _ => rfl)
        (eq_of_not_taken (hdb (List.cons_ne_nil _ _)))
    · exact guarded_isSome (fun _ => rfl) (fun _ => rfl)
        (eq_of_not_taken (hdb (List.cons_ne_nil _ _)))
  | joining =>
    rw [hat] at hregistry
    exact guarded_isSome (fun _ => rfl) (fun _ => rfl) (eq_of_not_taken (hregistry trivial))
  | leaving =>
    rw [hat] at hregistry
    exact guarded_isSome (fun _ => rfl) (fun _ => rfl) (eq_of_not_taken (hregistry trivial))

/-- The engine thread can move unless it waits, if its task can be run. -/
lemma engineStep_isSome {left : EngineTask} (hwaits : ¬ w.EngineWaits)
    (hrun : ∀ task, w.engine = .running task → (runTask fuel w.market task).isSome = true) :
    (w.engineStep fuel left).isSome = true := by
  simp only [engineStep]
  cases hat : w.engine with
  | popping =>
    simp only
    split <;> rfl
  | running task =>
    rw [EngineWaits, hat] at hwaits
    obtain ⟨e, he⟩ := Option.isSome_iff_exists.mp (hrun task hat)
    have hran : ∀ mutex, (w.run fuel task mutex).isSome = true := by
      intro mutex
      rw [run, he]
      rfl
    simp only
    split_ifs with hreads
    · exact guarded_isSome (fun _ => rfl) (fun _ => hran none)
        (eq_of_not_taken fun htaken => hwaits ⟨hreads, htaken⟩)
    · exact hran w.dbMutex
  | reporting reports =>
    rcases reports with _ | ⟨_ | tasks, rest⟩
    · rfl
    · rw [EngineWaits, hat] at hwaits
      exact guarded_isSome (fun _ => rfl) (fun _ => rfl) (eq_of_not_taken hwaits)
    · rfl

/-- The database worker can move unless it waits. -/
lemma Held.dbWorkerStep_isSome {sessions : Nat} (h : w.Held) (hwaits : ¬ w.DbWorkerWaits) :
    (w.dbWorkerStep sessions).isSome = true := by
  simp only [dbWorkerStep]
  rw [DbWorkerWaits] at hwaits
  cases hat : w.dbWorker with
  | waiting =>
    rw [hat] at hwaits
    simp only
    rw [if_neg fun hempty => hwaits (List.isEmpty_iff.mp hempty)]
    rfl
  | swapped =>
    rw [hat] at hwaits
    refine guarded_isSome (fun _ => rfl) (fun hholder => ?_) (eq_of_not_taken hwaits)
    rcases h.db _ hholder with ⟨i, hlocked⟩ | ⟨more, users, hupdating⟩
    · rw [hat] at hlocked
      cases hlocked
    · rw [hat] at hupdating
      cases hupdating
  | applying i =>
    simp only
    split <;> rfl
  | notifying users =>
    cases users with
    | nil => rfl
    | cons userId users =>
      rw [hat] at hwaits
      refine guarded_isSome (fun _ => rfl) (fun hholder => ?_) (eq_of_not_taken hwaits)
      obtain ⟨sessions, users, hupdating⟩ := h.registry _ hholder
      rw [hat] at hupdating
      cases hupdating
  | updating sessions users =>
    cases sessions with
    | zero => rfl
    | succ more =>
      rw [hat] at hwaits
      exact guarded_isSome (fun _ => rfl) (fun _ => rfl) (eq_of_not_taken hwaits)

end Workers

end ExchangeEngine
