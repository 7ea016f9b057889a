import ExchangeEngine.Server.Workers

/-!
# Turns

What each thread does when it has its turn, and when it can do something.
-/

namespace ExchangeEngine

/-- The thread of the sessions needs the mutex of the database. -/
def SessionThread.UsesDb : SessionThread → Prop
  | .authenticating _ _ _ => True
  | .reserving _ _ _ _ _ _ => True
  | .calling calls _ => calls ≠ []
  | _ => False

/-- It needs the mutex of the registry. -/
def SessionThread.UsesRegistry : SessionThread → Prop
  | .joining => True
  | .leaving => True
  | _ => False

namespace Workers

/-- The handler that begins with a move. -/
def Move.handler (w : Workers) : Move → Option SessionThread
  | .receive now msg => some (w.receive now msg)
  | .errand e => some (begin w.market e)
  | .accept => some .joining
  | .leave => some .leaving
  | .session _ _ => none
  | .engine _ _ => none
  | .dbWorker _ => none

variable {w w' : Workers} {move : Move} {fills : List Trade} {fuel : Nat}

/-- What a thread does in its turn. -/
inductive Steps (w : Workers) : Move → Workers → List Trade → Prop
  | entered {move : Move} {session : SessionThread} (hat : w.session = .reading)
      (hhandler : move.handler w = some session) : Steps w move { w with session := session } []
  | lockedDb {refPrice : Nat} {user : Bool} (hat : w.session.UsesDb) (hfree : w.dbMutex = none) :
      Steps w (.session refPrice user) { w with dbMutex := some .session } []
  | lockedRegistry {refPrice : Nat} {user : Bool} (hat : w.session.UsesRegistry)
      (hfree : w.registryMutex = none) :
      Steps w (.session refPrice user) { w with registryMutex := some .session } []
  | unauthenticated {refPrice : Nat} {user : Bool} {now : Int} {token : String} {request : Request}
      (hat : w.session = .authenticating now token request) (hmutex : w.dbMutex = some .session) :
      Steps w (.session refPrice user) { w with session := .reading, dbMutex := none } []
  | authenticated {refPrice : Nat} {user : Bool} {now : Int} {token : String} {request : Request}
      (userId : Int) (hat : w.session = .authenticating now token request)
      (hmutex : w.dbMutex = some .session) :
      Steps w (.session refPrice user)
        { w with session := allow w.market userId request, dbMutex := none } []
  | unpriced {user : Bool} {userId : Int} {companyId quantity timestamp : Nat} {side : Bool}
      (hat : w.session = .pricing userId companyId side quantity timestamp) :
      Steps w (.session nullIdx user) { w with session := .reading } []
  | priced {refPrice : Nat} {user : Bool} {userId : Int} {companyId quantity timestamp : Nat}
      {side : Bool} (hat : w.session = .pricing userId companyId side quantity timestamp)
      (hprice : refPrice ≠ nullIdx) :
      Steps w (.session refPrice user)
        { w with session := .reserving userId companyId side refPrice quantity timestamp } []
  | refused {refPrice : Nat} {user : Bool} {userId : Int} {companyId price quantity timestamp : Nat}
      {side : Bool} (hat : w.session = .reserving userId companyId side price quantity timestamp)
      (hmutex : w.dbMutex = some .session) :
      Steps w (.session refPrice user) { w with session := .reading, dbMutex := none } []
  | reserved {refPrice : Nat} {user : Bool} {userId : Int}
      {companyId price quantity timestamp : Nat} {side : Bool} {db : Database}
      (hat : w.session = .reserving userId companyId side price quantity timestamp)
      (hmutex : w.dbMutex = some .session)
      (hreserve : w.db.reserve userId companyId side price quantity = .ok db) :
      Steps w (.session refPrice user)
        { w with
          db := db
          session := .pushing (orderTask companyId userId side price quantity timestamp)
          dbMutex := none } []
  | pushing {refPrice : Nat} {user : Bool} {task : EngineTask} (hat : w.session = .pushing task)
      (hnone : (w.engineQueue.pushStep size task).2.accepted = none) :
      Steps w (.session refPrice user)
        { w with engineQueue := (w.engineQueue.pushStep size task).1 } []
  | pushed {refPrice : Nat} {user : Bool} {task item : EngineTask} (hat : w.session = .pushing task)
      (hsome : (w.engineQueue.pushStep size task).2 = .pushed item) :
      Steps w (.session refPrice user)
        { w with
          engineQueue := (w.engineQueue.pushStep size task).1, session := afterPush user task } []
  | called {refPrice : Nat} {user : Bool} {snapshot : Option Nat}
      (hat : w.session = .calling [] snapshot) :
      Steps w (.session refPrice user) { w with session := afterCalls snapshot } []
  | calling {refPrice : Nat} {user : Bool} {calls : List (List Statement)} {snapshot : Option Nat}
      (hat : w.session = .calling ([] :: calls) snapshot) (hmutex : w.dbMutex = some .session) :
      Steps w (.session refPrice user)
        { w with session := .calling calls snapshot, dbMutex := none } []
  | executed {refPrice : Nat} {user : Bool} {statement : Statement} {statements : List Statement}
      {calls : List (List Statement)} {snapshot : Option Nat}
      (hat : w.session = .calling ((statement :: statements) :: calls) snapshot)
      (hmutex : w.dbMutex = some .session) :
      Steps w (.session refPrice user)
        { w with
          db := w.db.execute statement, session := .calling (statements :: calls) snapshot } []
  | joined {refPrice : Nat} {user : Bool} (hat : w.session = .joining)
      (hmutex : w.registryMutex = some .session) :
      Steps w (.session refPrice user)
        { w with
          session := .pushing (.snapshot w.market.defaultCompanyId), registryMutex := none } []
  | left {refPrice : Nat} {user : Bool} (hat : w.session = .leaving)
      (hmutex : w.registryMutex = some .session) :
      Steps w (.session refPrice user) { w with session := .reading, registryMutex := none } []
  | popping {fuel : Nat} {left : EngineTask} (hat : w.engine = .popping)
      (hnone : (w.engineQueue.popStep size left).2.taken = none) :
      Steps w (.engine fuel left) { w with engineQueue := (w.engineQueue.popStep size left).1 } []
  | popped {fuel : Nat} {left task : EngineTask} (hat : w.engine = .popping)
      (hsome : (w.engineQueue.popStep size left).2 = .popped task) :
      Steps w (.engine fuel left)
        { w with engineQueue := (w.engineQueue.popStep size left).1, engine := .running task } []
  | lockedPrices {fuel : Nat} {left task : EngineTask} (hat : w.engine = .running task)
      (hreads : ReadsPrices w.market task) (hfree : w.dbMutex = none) :
      Steps w (.engine fuel left) { w with dbMutex := some .engine } []
  | ran {fuel : Nat} {left task : EngineTask} {e : Effect} {mutex : Option Thread}
      (hat : w.engine = .running task)
      (hmutex : w.dbMutex = some .engine ∧ mutex = none ∨
        ¬ ReadsPrices w.market task ∧ mutex = w.dbMutex)
      (hrun : runTask fuel w.market task = some e) :
      Steps w (.engine fuel left)
        { w with
          market := e.market
          engine := .reporting (reports w.market task e.pushed)
          dbMutex := mutex } e.fills
  | returned {fuel : Nat} {left : EngineTask} (hat : w.engine = .reporting []) :
      Steps w (.engine fuel left) { w with engine := .popping } []
  | lockedBroadcast {fuel : Nat} {left : EngineTask} {rest : List Report}
      (hat : w.engine = .reporting (.broadcast :: rest)) (hfree : w.registryMutex = none) :
      Steps w (.engine fuel left) { w with registryMutex := some .engine } []
  | broadcast {fuel : Nat} {left : EngineTask} {rest : List Report}
      (hat : w.engine = .reporting (.broadcast :: rest))
      (hmutex : w.registryMutex = some .engine) :
      Steps w (.engine fuel left)
        { w with engine := .reporting rest, registryMutex := none } []
  | handedOver {fuel : Nat} {left : EngineTask} {tasks : List DbTask} {rest : List Report}
      (hat : w.engine = .reporting (.queue tasks :: rest)) :
      Steps w (.engine fuel left)
        { w with dbQueueFront := w.dbQueueFront ++ tasks, engine := .reporting rest } []
  | swapped {sessions : Nat} (hat : w.dbWorker = .waiting) (hfront : w.dbQueueFront ≠ []) :
      Steps w (.dbWorker sessions)
        { w with
          dbQueueFront := w.dbQueueBack
          dbQueueBack := w.dbQueueFront
          dbWorker := .swapped } []
  | locked {sessions : Nat} (hat : w.dbWorker = .swapped) (hfree : w.dbMutex = none) :
      Steps w (.dbWorker sessions)
        { w with dbWorker := .applying 0, dbMutex := some .dbWorker } []
  | applied {sessions i : Nat} {task : DbTask} (hat : w.dbWorker = .applying i)
      (htask : w.dbQueueBack[i]? = some task) :
      Steps w (.dbWorker sessions)
        { w with db := applyTask w.db task, dbWorker := .applying (i + 1) } []
  | committed {sessions i : Nat} (hat : w.dbWorker = .applying i)
      (hdone : w.dbQueueBack.length ≤ i) :
      Steps w (.dbWorker sessions)
        { w with dbWorker := .notifying (affectedUsers w.dbQueueBack), dbMutex := none } []
  | cleared {sessions : Nat} (hat : w.dbWorker = .notifying []) :
      Steps w (.dbWorker sessions) { w with dbQueueBack := [], dbWorker := .waiting } []
  | began {sessions : Nat} {userId : Int} {users : List Int}
      (hat : w.dbWorker = .notifying (userId :: users)) (hfree : w.registryMutex = none) :
      Steps w (.dbWorker sessions)
        { w with dbWorker := .updating sessions users, registryMutex := some .dbWorker } []
  | ended {sessions : Nat} {users : List Int} (hat : w.dbWorker = .updating 0 users) :
      Steps w (.dbWorker sessions)
        { w with dbWorker := .notifying users, registryMutex := none } []
  | lockedWallet {sessions more : Nat} {users : List Int}
      (hat : w.dbWorker = .updating (more + 1) users) (hfree : w.dbMutex = none) :
      Steps w (.dbWorker sessions) { w with dbMutex := some .dbWorker } []
  | updated {sessions more : Nat} {users : List Int}
      (hat : w.dbWorker = .updating (more + 1) users) (hmutex : w.dbMutex = some .dbWorker) :
      Steps w (.dbWorker sessions)
        { w with dbWorker := .updating more users, dbMutex := none } []

section Guarded

variable {α : Type} {mutex : Option Thread} {thread : Thread} {lock step : Option α} {x : α}

lemma guarded_eq_some (h : guarded mutex thread lock step = some x) :
    mutex = none ∧ lock = some x ∨ mutex = some thread ∧ step = some x := by
  cases mutex with
  | none => exact Or.inl ⟨rfl, h⟩
  | some holder =>
    simp only [guarded] at h
    split_ifs at h with hholder
    exact Or.inr ⟨congrArg some hholder, h⟩

/-- Whoever waits, waits for another thread. -/
lemma guarded_isSome (hlock : mutex = none → lock.isSome = true)
    (hstep : mutex = some thread → step.isSome = true)
    (hfree : ∀ holder, mutex = some holder → holder = thread) :
    (guarded mutex thread lock step).isSome = true := by
  cases mutex with
  | none => exact hlock rfl
  | some holder =>
    obtain rfl := hfree holder rfl
    rw [guarded, if_pos rfl]
    exact hstep rfl

end Guarded

/-- The handler locks the mutex of the database. -/
lemma lockedDb_steps {refPrice : Nat} {user : Bool} {session : SessionThread}
    (hat : w.session = session) (huses : session.UsesDb) (hfree : w.dbMutex = none)
    (h : some { w with session := session, dbMutex := some .session } = some w') :
    Steps w (.session refPrice user) w' [] := by
  obtain rfl := Option.some.inj h
  obtain rfl := hat
  exact .lockedDb huses hfree

/-- The handler locks the mutex of the registry. -/
lemma lockedRegistry_steps {refPrice : Nat} {user : Bool} {session : SessionThread}
    (hat : w.session = session) (huses : session.UsesRegistry) (hfree : w.registryMutex = none)
    (h : some { w with session := session, registryMutex := some .session } = some w') :
    Steps w (.session refPrice user) w' [] := by
  obtain rfl := Option.some.inj h
  obtain rfl := hat
  exact .lockedRegistry huses hfree

lemma sessionStep_steps {refPrice : Nat} {user : Bool} (h : w.sessionStep refPrice user = some w') :
    Steps w (.session refPrice user) w' [] := by
  simp only [sessionStep] at h
  cases hat : w.session with
  | reading =>
    rw [hat] at h
    cases h
  | authenticating now token request =>
    simp only [hat] at h
    rcases guarded_eq_some h with ⟨hfree, h⟩ | ⟨hmutex, h⟩
    · exact lockedDb_steps hat trivial hfree h
    · cases hvalid : w.db.validateSession now token with
      | error e =>
        rw [hvalid] at h
        obtain rfl := Option.some.inj h
        exact .unauthenticated hat hmutex
      | ok userId =>
        rw [hvalid] at h
        obtain rfl := Option.some.inj h
        exact .authenticated userId hat hmutex
  | pricing userId companyId side quantity timestamp =>
    rw [hat] at h
    obtain rfl := Option.some.inj h
    by_cases hprice : refPrice = nullIdx
    · rw [if_pos hprice, hprice]
      exact .unpriced hat
    · rw [if_neg hprice]
      exact .priced hat hprice
  | reserving userId companyId side price quantity timestamp =>
    simp only [hat] at h
    rcases guarded_eq_some h with ⟨hfree, h⟩ | ⟨hmutex, h⟩
    · exact lockedDb_steps hat trivial hfree h
    · cases hreserve : w.db.reserve userId companyId side price quantity with
      | error e =>
        rw [hreserve] at h
        obtain rfl := Option.some.inj h
        exact .refused hat hmutex
      | ok db =>
        rw [hreserve] at h
        obtain rfl := Option.some.inj h
        exact .reserved hat hmutex hreserve
  | pushing task =>
    simp only [hat] at h
    have hpushing := @Steps.pushing w refPrice user task hat
    have hpushed := fun item => @Steps.pushed w refPrice user task item hat
    rcases hreturned : w.engineQueue.pushStep size task with ⟨queue, returned⟩
    rw [hreturned] at h hpushing hpushed
    rw [hat] at hpushing
    cases returned with
    | pushed item =>
      obtain rfl := Option.some.inj h
      exact hpushed item rfl
    | _ =>
      obtain rfl := Option.some.inj h
      exact hpushing rfl
  | calling calls snapshot =>
    rcases calls with _ | ⟨_ | ⟨statement, statements⟩, calls⟩
    · simp only [hat] at h
      obtain rfl := Option.some.inj h
      exact .called hat
    · simp only [hat] at h
      rcases guarded_eq_some h with ⟨hfree, h⟩ | ⟨hmutex, h⟩
      · exact lockedDb_steps hat (List.cons_ne_nil _ _) hfree h
      · obtain rfl := Option.some.inj h
        exact .calling hat hmutex
    · simp only [hat] at h
      rcases guarded_eq_some h with ⟨hfree, h⟩ | ⟨hmutex, h⟩
      · exact lockedDb_steps hat (List.cons_ne_nil _ _) hfree h
      · obtain rfl := Option.some.inj h
        exact .executed hat hmutex
  | joining =>
    simp only [hat] at h
    rcases guarded_eq_some h with ⟨hfree, h⟩ | ⟨hmutex, h⟩
    · exact lockedRegistry_steps hat trivial hfree h
    · obtain rfl := Option.some.inj h
      exact .joined hat hmutex
  | leaving =>
    simp only [hat] at h
    rcases guarded_eq_some h with ⟨hfree, h⟩ | ⟨hmutex, h⟩
    · exact lockedRegistry_steps hat trivial hfree h
    · obtain rfl := Option.some.inj h
      exact .left hat hmutex

lemma run_steps {left task : EngineTask} {mutex : Option Thread} (hat : w.engine = .running task)
    (hmutex : w.dbMutex = some .engine ∧ mutex = none ∨
      ¬ ReadsPrices w.market task ∧ mutex = w.dbMutex)
    (h : w.run fuel task mutex = some (w', fills)) : Steps w (.engine fuel left) w' fills := by
  obtain ⟨e, hrun, h⟩ := Option.bind_eq_some_iff.mp h
  obtain ⟨rfl, rfl⟩ := Prod.mk.inj (Option.some.inj h)
  exact .ran hat hmutex hrun

lemma engineStep_steps {left : EngineTask} (h : w.engineStep fuel left = some (w', fills)) :
    Steps w (.engine fuel left) w' fills := by
  simp only [engineStep] at h
  cases hat : w.engine with
  | popping =>
    simp only [hat] at h
    have hpopping := @Steps.popping w fuel left hat
    have hpopped := fun task => @Steps.popped w fuel left task hat
    rcases hreturned : w.engineQueue.popStep size left with ⟨queue, returned⟩
    rw [hreturned] at h hpopping hpopped
    rw [hat] at hpopping
    cases returned with
    | popped task =>
      obtain ⟨rfl, rfl⟩ := Prod.mk.inj (Option.some.inj h)
      exact hpopped task rfl
    | _ =>
      obtain ⟨rfl, rfl⟩ := Prod.mk.inj (Option.some.inj h)
      exact hpopping rfl
  | running task =>
    simp only [hat] at h
    split_ifs at h with hreads
    · rcases guarded_eq_some h with ⟨hfree, h⟩ | ⟨hmutex, h⟩
      · obtain ⟨rfl, rfl⟩ := Prod.mk.inj (Option.some.inj h)
        rw [← hat]
        exact .lockedPrices hat hreads hfree
      · exact run_steps hat (Or.inl ⟨hmutex, rfl⟩) h
    · exact run_steps hat (Or.inr ⟨hreads, rfl⟩) h
  | reporting reports =>
    rcases reports with _ | ⟨_ | tasks, rest⟩
    · simp only [hat] at h
      obtain ⟨rfl, rfl⟩ := Prod.mk.inj (Option.some.inj h)
      exact .returned hat
    · simp only [hat] at h
      rcases guarded_eq_some h with ⟨hfree, h⟩ | ⟨hmutex, h⟩
      · obtain ⟨rfl, rfl⟩ := Prod.mk.inj (Option.some.inj h)
        rw [← hat]
        exact .lockedBroadcast hat hfree
      · obtain ⟨rfl, rfl⟩ := Prod.mk.inj (Option.some.inj h)
        exact .broadcast hat hmutex
    · simp only [hat] at h
      obtain ⟨rfl, rfl⟩ := Prod.mk.inj (Option.some.inj h)
      exact .handedOver hat

lemma dbWorkerStep_steps {sessions : Nat} (h : w.dbWorkerStep sessions = some w') :
    Steps w (.dbWorker sessions) w' [] := by
  simp only [dbWorkerStep] at h
  cases hat : w.dbWorker with
  | waiting =>
    simp only [hat] at h
    split_ifs at h with hempty
    obtain rfl := Option.some.inj h
    exact .swapped hat fun hnil => hempty (List.isEmpty_iff.mpr hnil)
  | swapped =>
    simp only [hat] at h
    rcases guarded_eq_some h with ⟨hfree, h⟩ | ⟨-, h⟩
    · obtain rfl := Option.some.inj h
      exact .locked hat hfree
    · cases h
  | applying i =>
    simp only [hat] at h
    cases htask : w.dbQueueBack[i]? with
    | some task =>
      rw [htask] at h
      obtain rfl := Option.some.inj h
      exact .applied hat htask
    | none =>
      rw [htask] at h
      obtain rfl := Option.some.inj h
      exact .committed hat (List.getElem?_eq_none_iff.mp htask)
  | notifying users =>
    cases users with
    | nil =>
      simp only [hat] at h
      obtain rfl := Option.some.inj h
      exact .cleared hat
    | cons userId users =>
      simp only [hat] at h
      rcases guarded_eq_some h with ⟨hfree, h⟩ | ⟨-, h⟩
      · obtain rfl := Option.some.inj h
        exact .began hat hfree
      · cases h
  | updating more users =>
    cases more with
    | zero =>
      simp only [hat] at h
      obtain rfl := Option.some.inj h
      exact .ended hat
    | succ more =>
      simp only [hat] at h
      rcases guarded_eq_some h with ⟨hfree, h⟩ | ⟨hmutex, h⟩
      · obtain rfl := Option.some.inj h
        rw [← hat]
        exact .lockedWallet hat hfree
      · obtain rfl := Option.some.inj h
        exact .updated hat hmutex

lemma enter_steps {session : SessionThread} (hhandler : move.handler w = some session)
    (h : w.enter session = some (w', fills)) : Steps w move w' fills := by
  simp only [enter] at h
  cases hat : w.session with
  | reading =>
    rw [hat] at h
    obtain ⟨rfl, rfl⟩ := Prod.mk.inj (Option.some.inj h)
    exact .entered hat hhandler
  | _ =>
    rw [hat] at h
    cases h

/-- **A turn** of a thread is one of these steps. -/
theorem step_steps (h : w.step move = some (w', fills)) : Steps w move w' fills := by
  cases move with
  | session refPrice user =>
    obtain ⟨w₁, hsession, h⟩ := Option.map_eq_some_iff.mp h
    obtain ⟨rfl, rfl⟩ := Prod.mk.inj h
    exact sessionStep_steps hsession
  | engine fuel left => exact engineStep_steps h
  | dbWorker sessions =>
    obtain ⟨w₁, hworker, h⟩ := Option.map_eq_some_iff.mp h
    obtain ⟨rfl, rfl⟩ := Prod.mk.inj h
    exact dbWorkerStep_steps hworker
  | _ => exact enter_steps rfl h

end Workers

end ExchangeEngine
