import ExchangeEngine.Library.Except
import ExchangeEngine.Server.Invariant

/-!
# Runs of the server

What a message can do to the server, and what every reachable server satisfies: the market is in
good order and every queued order goes to the company it names.
-/

namespace ExchangeEngine

namespace Server

/-! ### Executable runs -/

/-- Run the events in order, as long as they are allowed. -/
def runEvents (allowed : Server → Event → Prop) [∀ s e, Decidable (allowed s e)] (s : Server) :
    List Event → Option (Server × List Trade × List DbTask)
  | [] => some (s, [], [])
  | e :: es =>
    if allowed s e then do
      let (s', fills, pushed) ← s.step e
      let (s'', fills', pushed') ← runEvents allowed s' es
      some (s'', fills ++ fills', pushed ++ pushed')
    else none

lemma Run.head {allowed : Server → Event → Prop} {s s' s'' : Server} {e : Event}
    {fills fills' : List Trade} {pushed pushed' : List DbTask} (hallowed : allowed s e)
    (hstep : s.step e = some (s', fills, pushed)) (h : Run allowed s' s'' fills' pushed') :
    Run allowed s s'' (fills ++ fills') (pushed ++ pushed') := by
  induction h with
  | refl =>
    rw [List.append_nil, List.append_nil]
    exact Run.step Run.refl hallowed hstep
  | step _ hallowed' hstep' ih =>
    rw [← List.append_assoc, ← List.append_assoc]
    exact Run.step ih hallowed' hstep'

/-- The executed events form a run. -/
theorem run_of_runEvents {allowed : Server → Event → Prop} [∀ s e, Decidable (allowed s e)]
    {s s' : Server} {es : List Event} {fills : List Trade} {pushed : List DbTask}
    (h : s.runEvents allowed es = some (s', fills, pushed)) : Run allowed s s' fills pushed := by
  induction es generalizing s fills pushed with
  | nil =>
    obtain ⟨rfl, hout⟩ := Prod.mk.inj (Option.some.inj h)
    obtain ⟨rfl, rfl⟩ := Prod.mk.inj hout
    exact Run.refl
  | cons e es ih =>
    rw [runEvents] at h
    split_ifs at h with hallowed
    obtain ⟨⟨s₁, fills₁, pushed₁⟩, hstep, h⟩ := Option.bind_eq_some_iff.mp h
    obtain ⟨⟨s₂, fills₂, pushed₂⟩, hrest, h⟩ := Option.bind_eq_some_iff.mp h
    obtain ⟨rfl, hout⟩ := Prod.mk.inj (Option.some.inj h)
    obtain ⟨rfl, rfl⟩ := Prod.mk.inj hout
    exact Run.head hallowed hstep (ih hrest)

/-! ### Messages -/

/-- Does the message submit an order for company `c`, flagged `stress`? -/
def Message.Orders (m : MarketState) (c : Nat) (stress : Bool) : Message → Prop
  | .order msg => msg.companyId.getD m.defaultCompanyId = c ∧ msg.stress = stress
  | .marketOrder msg => msg.companyId.getD m.defaultCompanyId = c ∧ stress = false
  | _ => False

/-- What an accepted message does to the server. -/
inductive Handled (now : Int) (s : Server) : Message → Server → Prop
  | buy {msg : Message} {token : String} {u : Int} {c : Nat} (price quantity timestamp : Nat)
      (hmsg : msg.Orders s.market c false) (hauth : s.db.validateSession now token = .ok u)
      (hfunds : (price * quantity : Int) ≤ s.db.cash u) :
      Handled now s msg ({ s with db := s.db.resCash (price * quantity) u }.enqueueOrderTask
        c u true price quantity timestamp)
  | sell {msg : Message} {token : String} {u : Int} {c : Nat} (price quantity timestamp : Nat)
      (hmsg : msg.Orders s.market c false) (hauth : s.db.validateSession now token = .ok u)
      (hfunds : (quantity : Int) ≤ s.db.shares u c) :
      Handled now s msg ({ s with db := s.db.resShares quantity u c }.enqueueOrderTask
        c u false price quantity timestamp)
  | stress {msg : Message} {u : Int} {c : Nat} (side : Bool) (price quantity timestamp : Nat)
      (hmsg : msg.Orders s.market c true) (hu : u < 0) :
      Handled now s msg (s.enqueueOrderTask c u side price quantity timestamp)
  | cancel {msg : CancelMsg} {token : String} {u : Int} {id : Nat} (c : Nat)
      (hid : msg.orderId = some id) (hauth : s.db.validateSession now token = .ok u) :
      Handled now s (.cancel msg) (s.push (.cancel c id u))
  | switchEngine (text : String) (mode : EngineMode) :
      Handled now s (.switchEngine text) (s.push (.switchEngine mode))
  | snapshot (companyId : Option Nat) (c : Nat) :
      Handled now s (.snapshot companyId) (s.push (.snapshot c))

variable {now : Int} {s s' : Server} {msg : Message}

lemma reserveCash_eq_ok {db db' : Database} {u n : Int} (h : db.reserveCash u n = .ok db') :
    n ≤ db.cash u ∧ db' = db.resCash n u := by
  simp only [Database.reserveCash] at h
  split_ifs at h with hlt
  exact ⟨not_lt.mp hlt, (Except.ok.inj h).symm⟩

lemma reserveShares_eq_ok {db db' : Database} {u : Int} {c n : Nat}
    (h : db.reserveShares u c n = .ok db') : (n : Int) ≤ db.shares u c ∧
      db' = db.resShares n u c := by
  simp only [Database.reserveShares] at h
  split_ifs at h with hlt
  exact ⟨not_lt.mp hlt, (Except.ok.inj h).symm⟩

lemma handleOrder_handled {msg : OrderMsg} (h : s.handleOrder now msg = .ok s') :
    Handled now s (.order msg) s' := by
  simp only [handleOrder] at h
  split at h
  · rename_i price quantity sideText timestamp hprice hquantity hside htimestamp
    by_cases hmax : 100000 ≤ price
    · simp [hmax, throw, throwThe, MonadExceptOf.throw, bind, Except.bind] at h
    simp only [hmax, if_false] at h
    obtain ⟨-, -, h⟩ := Except.bind_eq_ok h
    obtain ⟨u, hauth, h⟩ := Except.bind_eq_ok h
    have hauth := Except.mapError_eq_ok hauth
    cases hstress : msg.stress with
    | true =>
      rw [if_pos hstress] at h
      rw [← Except.ok.inj h]
      refine Handled.stress _ _ _ _ ⟨rfl, hstress⟩ ?_
      split_ifs with hneg
      · exact hneg
      · decide
    | false =>
      rw [if_neg (by simp [hstress])] at h
      split_ifs at h with hbuy
      · obtain ⟨db, hdb, h⟩ := Except.bind_eq_ok h
        obtain ⟨hfunds, rfl⟩ := reserveCash_eq_ok hdb
        rw [← Except.ok.inj h, hbuy]
        exact Handled.buy _ _ _ ⟨rfl, hstress⟩ hauth hfunds
      · obtain ⟨db, hdb, h⟩ := Except.bind_eq_ok h
        obtain ⟨hfunds, rfl⟩ := reserveShares_eq_ok hdb
        rw [← Except.ok.inj h, eq_false_of_ne_true hbuy]
        exact Handled.sell _ _ _ ⟨rfl, hstress⟩ hauth hfunds
  · cases h

lemma handleMarketOrder_handled {msg : MarketOrderMsg}
    (h : s.handleMarketOrder now msg = some (.ok s')) : Handled now s (.marketOrder msg) s' := by
  simp only [handleMarketOrder] at h
  split at h
  · rename_i quantity sideText timestamp hquantity hside htimestamp
    cases hauth : orElse (s.db.validateSession now msg.token) "Authentication required." with
    | error e => simp [hauth] at h
    | ok u =>
      have hauth' := Except.mapError_eq_ok hauth
      rw [hauth] at h
      cases hfind : s.market.findInstrument (msg.companyId.getD s.market.defaultCompanyId) with
      | none => simp [hfind] at h
      | some book =>
        simp only [hfind] at h
        split_ifs at h
        · obtain ⟨refPrice, -, h⟩ := Option.bind_eq_some_iff.mp h
          split_ifs at h
          · cases Option.some.inj h
          · obtain ⟨db, hdb, h⟩ := Except.bind_eq_ok (Option.some.inj h)
            obtain ⟨hfunds, rfl⟩ := reserveCash_eq_ok hdb
            rw [← Except.ok.inj h]
            exact Handled.buy _ _ _ ⟨rfl, rfl⟩ hauth' hfunds
        · obtain ⟨refPrice, -, h⟩ := Option.bind_eq_some_iff.mp h
          split_ifs at h
          · cases Option.some.inj h
          · obtain ⟨db, hdb, h⟩ := Except.bind_eq_ok (Option.some.inj h)
            obtain ⟨hfunds, rfl⟩ := reserveShares_eq_ok hdb
            rw [← Except.ok.inj h]
            exact Handled.sell _ _ _ ⟨rfl, rfl⟩ hauth' hfunds
  · cases Option.some.inj h

/-- **An accepted message** acts in one of these ways. -/
theorem handleMessage_handled (h : s.handleMessage now msg = some (.ok s')) :
    Handled now s msg s' := by
  cases msg with
  | order msg => exact handleOrder_handled (Option.some.inj h)
  | marketOrder msg => exact handleMarketOrder_handled h
  | cancel msg =>
    have h := Option.some.inj h
    simp only [handleCancel] at h
    split at h
    · rename_i id hid
      obtain ⟨u, hauth, h⟩ := Except.bind_eq_ok h
      rw [← Except.ok.inj h]
      exact Handled.cancel _ hid (Except.mapError_eq_ok hauth)
    · cases h
  | switchEngine mode =>
    have h := Option.some.inj h
    simp only [handleSwitchEngine] at h
    by_cases hmode : mode ≠ "CURRENT" ∧ mode ≠ "LEGACY"
    · rw [if_pos hmode] at h
      cases h
    · rw [if_neg hmode] at h
      rw [← Except.ok.inj h]
      exact Handled.switchEngine _ _
  | snapshot companyId =>
    rw [← Except.ok.inj (Option.some.inj h)]
    exact Handled.snapshot _ _

/-! ### Steps -/

/-- What an event does to the server. -/
inductive Steps (s : Server) : Event → Server → List Trade → List DbTask → Prop
  | rejected (now : Int) (msg : Message) : Steps s (.message now msg) s [] []
  | handled {now : Int} {msg : Message} {s' : Server} (h : Handled now s msg s') :
      Steps s (.message now msg) s' [] []
  | idle (fuel : Nat) (hqueue : s.engineQueue = []) : Steps s (.engine fuel) s [] []
  | task {fuel : Nat} {task : EngineTask} {queue : List EngineTask} {e : Effect}
      (hqueue : s.engineQueue = task :: queue) (hrun : runTask fuel s.market task = some e) :
      Steps s (.engine fuel)
        { s with
          market := e.market
          engineQueue := queue
          dbQueueFront := s.dbQueueFront ++ e.pushed }
        e.fills e.pushed
  | swap (hback : s.dbQueueBack = []) :
      Steps s .db { s with dbQueueFront := [], dbQueueBack := s.dbQueueFront } [] []
  | batch (hback : s.dbQueueBack ≠ []) :
      Steps s .db { s with db := s.dbQueueBack.foldl applyTask s.db, dbQueueBack := [] } [] []

/-- The step of the engine thread, from what its task does. -/
lemma step_of_runTask {fuel : Nat} {task : EngineTask} {queue : List EngineTask} {e : Effect}
    (hqueue : s.engineQueue = task :: queue) (hrun : runTask fuel s.market task = some e) :
    s.step (.engine fuel) = some
      ({ s with
          market := e.market
          engineQueue := queue
          dbQueueFront := s.dbQueueFront ++ e.pushed },
        e.fills, e.pushed) := by
  rw [step, engineStep, hqueue]
  simp only [hrun, Option.bind_eq_bind, Option.bind_some]

/-- **An event** does one of these things. -/
theorem step_steps {e : Event} {fills : List Trade} {pushed : List DbTask}
    (h : s.step e = some (s', fills, pushed)) : Steps s e s' fills pushed := by
  cases e with
  | message now msg =>
    obtain ⟨r, hr, h⟩ := Option.map_eq_some_iff.mp h
    cases r with
    | ok s₁ =>
      obtain ⟨rfl, rfl, rfl⟩ : s₁ = s' ∧ [] = fills ∧ [] = pushed := by simpa using h
      exact Steps.handled (handleMessage_handled hr)
    | error e =>
      obtain ⟨rfl, rfl, rfl⟩ : s = s' ∧ [] = fills ∧ [] = pushed := by simpa using h
      exact Steps.rejected now msg
  | engine fuel =>
    rw [step, engineStep] at h
    cases hqueue : s.engineQueue with
    | nil =>
      rw [hqueue] at h
      obtain ⟨rfl, rfl, rfl⟩ : s = s' ∧ [] = fills ∧ [] = pushed := by simpa using h
      exact Steps.idle fuel hqueue
    | cons task queue =>
      rw [hqueue] at h
      obtain ⟨e, hrun, h⟩ := Option.bind_eq_some_iff.mp h
      obtain ⟨rfl, hout⟩ := Prod.mk.inj (Option.some.inj h)
      obtain ⟨rfl, rfl⟩ := Prod.mk.inj hout
      exact Steps.task hqueue hrun
  | db =>
    obtain ⟨rfl, hout⟩ := Prod.mk.inj (Option.some.inj h)
    obtain ⟨rfl, rfl⟩ := Prod.mk.inj hout
    simp only [dbStep]
    split_ifs with hback
    · have hnil : s.dbQueueBack = [] := List.isEmpty_iff.mp hback
      rw [hnil]
      exact Steps.swap hnil
    · exact Steps.batch fun hnil => hback (List.isEmpty_iff.mpr hnil)

/-! ### Reachable servers -/

/-- The market is in good order and every queued order goes to the company it names. -/
structure Ok (s : Server) : Prop where
  market : s.market.Ok
  addressed : ∀ task ∈ s.engineQueue, task.Addressed

/-- The market can take the task that the engine thread pops. -/
def SafeEvent (s : Server) : Event → Prop
  | .engine _ => ∀ task ∈ s.engineQueue.head?, task.Safe s.market
  | _ => True

instance (s : Server) (e : Event) : Decidable (s.SafeEvent e) := by
  cases e with
  | engine fuel => exact inferInstanceAs (Decidable (∀ task ∈ s.engineQueue.head?, _))
  | message now msg => exact isTrue trivial
  | db => exact isTrue trivial

lemma Ok.push {task : EngineTask} (h : s.Ok) (haddr : task.Addressed) : (s.push task).Ok where
  market := h.market
  addressed t ht := by
    rcases List.mem_append.mp ht with ht | ht
    · exact h.addressed t ht
    · rwa [List.mem_singleton.mp ht]

lemma Ok.handled (h : s.Ok) (hmsg : Handled now s msg s') : s'.Ok := by
  cases hmsg with
  | buy => exact Ok.push ⟨h.market, h.addressed⟩ rfl
  | sell => exact Ok.push ⟨h.market, h.addressed⟩ rfl
  | stress => exact h.push rfl
  | cancel => exact h.push trivial
  | switchEngine => exact h.push trivial
  | snapshot => exact h.push trivial

lemma Ok.acts {task : EngineTask} {queue : List EngineTask} {fuel : Nat} {e : Effect} (h : s.Ok)
    (hsafe : s.SafeEvent (.engine fuel)) (hqueue : s.engineQueue = task :: queue)
    (hrun : runTask fuel s.market task = some e) : Acts s.market task e :=
  runTask_acts h.market (hsafe task (by rw [hqueue]; rfl)) hrun

/-- **One step keeps the server in good order.** -/
theorem Ok.step {e : Event} {fills : List Trade} {pushed : List DbTask} (h : s.Ok)
    (hsafe : s.SafeEvent e) (hstep : s.step e = some (s', fills, pushed)) : s'.Ok := by
  cases step_steps hstep with
  | rejected => exact h
  | handled hmsg => exact h.handled hmsg
  | idle => exact h
  | task hqueue hrun =>
    have haddr := h.addressed
    rw [hqueue] at haddr
    exact ⟨(h.acts hsafe hqueue hrun).ok h.market (haddr _ List.mem_cons_self),
      fun t ht => haddr t (List.mem_cons_of_mem _ ht)⟩
  | swap => exact ⟨h.market, h.addressed⟩
  | batch => exact ⟨h.market, h.addressed⟩

/-- **Every reachable server is in good order**, in runs whose events are safe. -/
theorem Run.ok {allowed : Server → Event → Prop} {s₀ : Server} {fills : List Trade}
    {pushed : List DbTask} (hsafe : ∀ s e, allowed s e → s.SafeEvent e) (h₀ : s₀.Ok)
    (h : Run allowed s₀ s fills pushed) : s.Ok := by
  induction h with
  | refl => exact h₀
  | step _ hallowed hstep ih => exact ih.step (hsafe _ _ hallowed) hstep

/-! ### The first state -/

lemma findInstrument_new {companies : List Nat} {m : MarketState}
    (h : MarketState.new companies = .ok m) (c : Nat) : m.findInstrument c
      = if c ∈ m.companies then some (makeOrderBook .current) else none := by
  simp only [MarketState.new] at h
  split_ifs at h
  rw [← Except.ok.inj h]
  rfl

lemma ok_new {companies : List Nat} {m : MarketState} (h : MarketState.new companies = .ok m) :
    m.Ok := by
  have hmake : ∀ c b, m.findInstrument c = some b → b = makeOrderBook .current := by
    intro c b hb
    rw [findInstrument_new h] at hb
    split_ifs at hb
    exact (Option.some.inj hb).symm
  refine ⟨?_, ?_, ?_⟩
  · intro c
    rw [findInstrument_new h]
    split_ifs with hc
    · simp [hc]
    · simp [hc]
  · intro c b hb
    rw [hmake c b hb]
    exact AnyBook.inv_make _
  · intro c b hb s r hr
    rw [hmake c b hb, AnyBook.resting_make] at hr
    exact absurd hr List.not_mem_nil

lemma findInstrument_start (m : MarketState) (db : Database) (c : Nat) :
    (start m db).market.findInstrument c = if c ∈ m.companies then
      (m.findInstrument c).map (AnyBook.setTradeListener true) else m.findInstrument c := rfl

/-- A book of the started server is the book of the market, at most with a listener more. -/
lemma findInstrument_of_start {m : MarketState} {db : Database} {c : Nat} {b : AnyBook}
    (h : (start m db).market.findInstrument c = some b) :
    ∃ b₀, m.findInstrument c = some b₀ ∧ (b = b₀ ∨ b = b₀.setTradeListener true) := by
  rw [findInstrument_start] at h
  split_ifs at h
  · obtain ⟨b₀, hb₀, rfl⟩ := Option.map_eq_some_iff.mp h
    exact ⟨b₀, hb₀, Or.inr rfl⟩
  · exact ⟨b, h, Or.inl rfl⟩

/-- Connecting the listener changes neither the books nor their good order. -/
lemma ok_start {m : MarketState} (hm : m.Ok) (db : Database) : (start m db).Ok where
  market := by
    refine ⟨?_, ?_, ?_⟩
    · intro c
      rw [findInstrument_start]
      split_ifs
      · rw [Option.isSome_map]
        exact hm.listed c
      · exact hm.listed c
    · intro c b hb
      obtain ⟨b₀, hb₀, rfl | rfl⟩ := findInstrument_of_start hb
      · exact hm.inv c _ hb₀
      · exact (hm.inv c b₀ hb₀).setTradeListener true
    · intro c b hb
      obtain ⟨b₀, hb₀, rfl | rfl⟩ := findInstrument_of_start hb
      · exact hm.company c _ hb₀
      · rw [AnyBook.resting_setTradeListener]
        exact hm.company c b₀ hb₀
  addressed := by
    intro task h
    exact absurd h List.not_mem_nil

/-- At first nothing rests. -/
lemma resting_start {companies : List Nat} {m : MarketState}
    (hm : MarketState.new companies = .ok m) {db : Database} {c : Nat} {b : AnyBook}
    (h : (start m db).market.findInstrument c = some b) : b.resting = Book.empty := by
  have hnew : ∀ b, m.findInstrument c = some b → b.resting = Book.empty := by
    intro b hb
    rw [findInstrument_new hm] at hb
    split_ifs at hb
    rw [← Option.some.inj hb, AnyBook.resting_make]
  obtain ⟨b₀, hb₀, rfl | rfl⟩ := findInstrument_of_start h
  · exact hnew _ hb₀
  · rw [AnyBook.resting_setTradeListener]
    exact hnew b₀ hb₀

end Server

end ExchangeEngine
