import ExchangeEngine.Server.Session
import ExchangeEngine.Server.Wealth

/-!
# Messages without a valid token

Two runs are compared, one in which a session handles a message and one in which it does not; in
both the workers then finish all the work that is queued. A message without a valid token makes no
difference to books and wallets, unless it switches the engine.
-/

namespace ExchangeEngine

namespace Server

variable {s s' t : Server} {m m' : MarketState} {db : Database} {fuel : Nat} {task : EngineTask}

/-! ### Finishing the work -/

/-- Only the two workers act. -/
def Working (fuel : Nat) (_ : Server) : Event → Prop
  | .engine fuel' => fuel' = fuel
  | .db => True
  | .message _ _ => False

/-- `t` is `s` after the workers have finished all that is queued, however they take turns. -/
structure WorkedOff (fuel : Nat) (s t : Server) : Prop where
  run : ∃ fills pushed, Run (Working fuel) s t fills pushed
  engineQueue : t.engineQueue = []
  dbQueueFront : t.dbQueueFront = []
  dbQueueBack : t.dbQueueBack = []

/-- What the tasks do to the market, and the database tasks that they queue. -/
def runTasks (fuel : Nat) (m : MarketState) : List EngineTask → Option (MarketState × List DbTask)
  | [] => some (m, [])
  | task :: queue => do
    let e ← runTask fuel m task
    let (m', pushed) ← runTasks fuel e.market queue
    some (m', e.pushed ++ pushed)

/-- Market and database when all work is finished. -/
def outcome (fuel : Nat) (s : Server) : Option (MarketState × Database) :=
  (runTasks fuel s.market s.engineQueue).map fun x =>
    (x.1, (s.dbQueueBack ++ s.dbQueueFront ++ x.2).foldl applyTask s.db)

/-- Whichever worker acts, the outcome stays. -/
lemma outcome_step {e : Event} {fills : List Trade} {pushed : List DbTask}
    (hworking : Working fuel s e) (hstep : s.step e = some (s', fills, pushed)) :
    s'.outcome fuel = s.outcome fuel := by
  cases step_steps hstep with
  | rejected => exact hworking.elim
  | handled => exact hworking.elim
  | idle => rfl
  | @task fuel' task queue e hqueue hrun =>
    obtain rfl : fuel' = fuel := hworking
    simp only [outcome, hqueue, runTasks, hrun, Option.bind_eq_bind, Option.bind_some]
    cases runTasks fuel' e.market queue with
    | none => rfl
    | some x => simp only [Option.map_some, Option.bind_some, List.append_assoc]
  | swap hback =>
    simp only [outcome, hback, List.nil_append, List.append_nil]
  | batch =>
    simp only [outcome, List.nil_append, List.append_assoc, List.foldl_append]

lemma outcome_run {fills : List Trade} {pushed : List DbTask}
    (h : Run (Working fuel) s t fills pushed) : t.outcome fuel = s.outcome fuel := by
  induction h with
  | refl => rfl
  | step _ hworking hstep ih => exact (outcome_step hworking hstep).trans ih

lemma WorkedOff.outcome_eq (h : WorkedOff fuel s t) : s.outcome fuel = some (t.market, t.db) := by
  obtain ⟨fills, pushed, hrun⟩ := h.run
  rw [← outcome_run hrun, outcome, h.engineQueue, h.dbQueueFront, h.dbQueueBack]
  rfl

/-- The database worker empties both buffers in three turns. -/
lemma exists_workedOff_of_nil (hqueue : s.engineQueue = []) : ∃ t, WorkedOff fuel s t := by
  have hturn : ∀ s : Server, s.step .db = some (s.dbStep, [], []) := fun _ => rfl
  have hdb : ∀ s : Server, Working fuel s .db := fun _ => trivial
  have hrun := ((Run.refl.step (hdb s) (hturn s)).step (hdb _) (hturn _)).step (hdb _) (hturn _)
  refine ⟨s.dbStep.dbStep.dbStep, ⟨_, _, hrun⟩, ?_, ?_, ?_⟩
  all_goals
    cases hback : s.dbQueueBack with
    | nil => cases hfront : s.dbQueueFront with
      | nil => simp [dbStep, hqueue, hback, hfront]
      | cons task front => simp [dbStep, hqueue, hback, hfront]
    | cons task back => cases hfront : s.dbQueueFront with
      | nil => simp [dbStep, hqueue, hback, hfront]
      | cons task front => simp [dbStep, hqueue, hback, hfront]

/-- Work that has an outcome can be finished. -/
lemma exists_workedOff {x : MarketState × Database} (h : s.outcome fuel = some x) :
    ∃ t, WorkedOff fuel s t := by
  generalize hqueue : s.engineQueue = queue
  induction queue generalizing s with
  | nil => exact exists_workedOff_of_nil hqueue
  | cons task queue ih =>
    obtain ⟨x₁, hx₁, -⟩ := Option.map_eq_some_iff.mp h
    rw [hqueue, runTasks] at hx₁
    obtain ⟨e, hrun, -⟩ := Option.bind_eq_some_iff.mp hx₁
    have hstep := step_of_runTask hqueue hrun
    have hkept := outcome_step (e := .engine fuel) rfl hstep
    obtain ⟨t, ⟨fills, pushed, hrest⟩, hdone, hfront, hback⟩ := ih (hkept.trans h) rfl
    exact ⟨t, ⟨_, _, Run.head (e := .engine fuel) rfl hstep hrest⟩, hdone, hfront, hback⟩

lemma runTasks_append {queue : List EngineTask} {pushed : List DbTask}
    (h : runTasks fuel m queue = some (m', pushed)) (task : EngineTask) :
    runTasks fuel m (queue ++ [task])
      = (runTask fuel m' task).map fun e => (e.market, pushed ++ e.pushed) := by
  induction queue generalizing m pushed with
  | nil =>
    obtain ⟨rfl, rfl⟩ := Prod.mk.inj (Option.some.inj h)
    simp only [List.nil_append, runTasks]
    cases runTask fuel m task with
    | none => rfl
    | some e => simp [Option.bind_eq_bind]
  | cons first queue ih =>
    obtain ⟨e, hrun, h⟩ := Option.bind_eq_some_iff.mp h
    obtain ⟨⟨m₁, pushed₁⟩, hrest, h⟩ := Option.bind_eq_some_iff.mp h
    obtain ⟨rfl, rfl⟩ := Prod.mk.inj (Option.some.inj h)
    rw [List.cons_append, runTasks, hrun]
    simp only [Option.bind_eq_bind, Option.bind_some, ih hrest]
    cases runTask fuel m₁ task with
    | none => rfl
    | some e' => simp only [Option.map_some, Option.bind_some, List.append_assoc]

/-- A task queued last acts last. -/
lemma outcome_push (h : s.outcome fuel = some (m, db)) (task : EngineTask) :
    (s.push task).outcome fuel
      = (runTask fuel m task).map fun e => (e.market, e.pushed.foldl applyTask db) := by
  obtain ⟨⟨m', pushed⟩, hrun, hdone⟩ := Option.map_eq_some_iff.mp h
  obtain ⟨rfl, rfl⟩ := Prod.mk.inj hdone
  rw [outcome, push, runTasks_append hrun]
  cases runTask fuel m' task with
  | none => rfl
  | some e => simp only [Option.map_some, List.foldl_append]

/-! ### What books and wallets hold -/

/-- The same orders rest in every book, and every user has the same cash and the same shares. -/
structure SameMarket (s t : Server) : Prop where
  resting : ∀ d, t.market.restingOf d = s.market.restingOf d
  cash : ∀ u, t.db.cash u = s.db.cash u
  shares : ∀ u d, t.db.shares u d = s.db.shares u d

/-- No order rests anywhere. -/
def NothingRests (m : MarketState) : Prop := ∀ d, m.restingOf d = Book.empty

lemma nothingRests_setEngineMode {mode : EngineMode} (h : mode ≠ m.engineMode) :
    NothingRests (m.setEngineMode mode) := by
  intro d
  rw [MarketState.restingOf, MarketState.findInstrument_setEngineMode m d h]
  cases m.findInstrument d with
  | none => rfl
  | some b => exact AnyBook.resting_make mode

/-- A switch changes nothing that rests exactly if it does nothing or nothing rests. -/
lemma restingOf_setEngineMode_iff {mode : EngineMode} :
    (∀ d, (m.setEngineMode mode).restingOf d = m.restingOf d) ↔
      mode = m.engineMode ∨ NothingRests m := by
  by_cases hmode : mode = m.engineMode
  · subst hmode
    simp
  · have hempty := nothingRests_setEngineMode hmode
    simp only [hmode, false_or]
    constructor
    · exact fun hsame d => (hsame d).symm.trans (hempty d)
    · exact fun hnone d => (hempty d).trans (hnone d).symm

/-- A task that is queued after all others, and changes no wallet. -/
lemma WorkedOff.push (h : WorkedOff fuel s t)
    (hrun : runTask fuel t.market task = some ⟨m, [], []⟩) :
    (∃ t', WorkedOff fuel (s.push task) t') ∧ ∀ t', WorkedOff fuel (s.push task) t' →
      (SameMarket t t' ↔ ∀ d, m.restingOf d = t.market.restingOf d) := by
  have hout := outcome_push h.outcome_eq task
  rw [hrun, Option.map_some, List.foldl_nil] at hout
  refine ⟨exists_workedOff hout, fun t' ht' => ?_⟩
  rw [ht'.outcome_eq] at hout
  obtain ⟨hmarket, hdb⟩ : t'.market = m ∧ t'.db = t.db := Prod.mk.inj (Option.some.inj hout)
  constructor
  · intro hsame
    rw [← hmarket]
    exact hsame.resting
  · intro hsame
    exact ⟨hmarket ▸ hsame, fun u => by rw [hdb], fun u d => by rw [hdb]⟩

/-- Both runs end alike when nothing is queued. -/
lemma WorkedOff.same (h : WorkedOff fuel s t) {t' : Server} (h' : WorkedOff fuel s t') :
    SameMarket t t' := by
  have hout := h'.outcome_eq
  rw [h.outcome_eq] at hout
  obtain ⟨hmarket, hdb⟩ := Prod.mk.inj (Option.some.inj hout)
  exact ⟨fun d => by rw [hmarket], fun u => by rw [hdb], fun u d => by rw [hdb]⟩

end Server

/-! ### Handling -/

namespace Session

open Server

variable {J α : Type} {json : JsonLib J} {g : GameManager} {env : Surroundings} {c : Session}
  {accounts : Accounts J} {raw : String} {msg : J}

/-- The message is neither `register` nor `login`. -/
def NoAccount (json : JsonLib J) (raw : String) : Prop :=
  ∀ msg, json.parse raw = .ok msg →
    readType json msg ≠ .ok "register" ∧ readType json msg ≠ .ok "login"

/-- The token of a message is not accepted. -/
def Rejected (json : JsonLib J) (env : Surroundings) (c : Session) (msg : J) : Prop :=
  ∀ token, readToken json msg = .ok token →
    ∀ userId, c.server.db.validateSession env.now token ≠ .ok userId

/-- The message carries no token that is accepted. -/
def Unauthenticated (json : JsonLib J) (env : Surroundings) (c : Session) (raw : String) : Prop :=
  ∀ msg, json.parse raw = .ok msg → Rejected json env c msg

/-- The engine that a `switch_engine` message asks for. -/
def modeOf (json : JsonLib J) (msg : J) : Option EngineMode :=
  match json.value msg "mode" json.getString "" with
  | .ok "LEGACY" => some .legacy
  | .ok "CURRENT" => some .current
  | _ => none

/-- The engine that the message asks for, if it is a `switch_engine` message. -/
def requestedMode (json : JsonLib J) (raw : String) : Option EngineMode :=
  match json.parse raw with
  | .ok msg => if json.isObject msg ∧ readType json msg = .ok "switch_engine" then modeOf json msg
    else none
  | .error _ => none

/-- The handler left the server as it was, or asked for a snapshot. -/
def Quiet (c : Session) (r : Option Handled) : Prop :=
  ∃ c' sent, r = some (c', sent) ∧
    (c'.server = c.server ∨ ∃ id, c'.server = c.server.push (.snapshot id))

lemma quiet_self (sent : List Response) : Quiet c (some (c, sent)) := ⟨c, sent, rfl, Or.inl rfl⟩

lemma quiet_reading {r : Except String α} {f : α → Option Handled}
    (h : ∀ a, r = .ok a → Quiet c (f a)) : Quiet c (c.reading r f) := by
  cases r with
  | ok a => exact h a rfl
  | error e => exact quiet_self []

/-- What comes after the token is read matters only when the token is refused. -/
lemma quiet_readToken (h : Rejected json env c msg) {f : String → Option Handled}
    (hf : ∀ token e, c.server.db.validateSession env.now token = .error e → Quiet c (f token)) :
    Quiet c (c.reading (readToken json msg) f) := by
  refine quiet_reading fun token htoken => ?_
  cases hauth : c.server.db.validateSession env.now token with
  | ok userId => exact absurd hauth (h token htoken userId)
  | error e => exact hf token e hauth

/-- A handler stops at a token that is not accepted. -/
lemma quiet_authenticated (h : Rejected json env c msg) (message : String)
    (f : Session → Option Handled) : Quiet c (c.authenticated json env msg message f) := by
  refine quiet_readToken h fun token e herror => ?_
  rw [herror]
  exact quiet_self _

lemma recognize_of_rejected (h : Rejected json env c msg) {token : String}
    (htoken : readToken json msg = .ok token) : c.recognize env token = c := by
  rw [recognize]
  split_ifs
  · rfl
  · cases hauth : c.server.db.validateSession env.now token with
    | ok userId => exact absurd hauth (h token htoken userId)
    | error e => rfl

lemma quiet_handleSnapshot (h : Rejected json env c msg) :
    Quiet c (c.handleSnapshot json env msg) := by
  refine quiet_reading fun token htoken => ?_
  rw [recognize_of_rejected h htoken]
  exact quiet_reading fun id _ => ⟨_, _, rfl, Or.inr ⟨id, rfl⟩⟩

lemma quiet_handleMyTrades (h : Rejected json env c msg) :
    Quiet c (c.handleMyTrades json env msg) := by
  refine quiet_reading fun token htoken => ?_
  rw [recognize_of_rejected h htoken]
  simp only
  split_ifs
  · exact quiet_self _
  · exact quiet_self _

lemma quiet_handleGameQuote (h : Rejected json env c msg) :
    Quiet c (c.handleGameQuote json g env msg) := by
  simp only [handleGameQuote]
  split_ifs
  · exact quiet_self _
  · exact quiet_authenticated h _ _

lemma quiet_handleGameSession (h : Rejected json env c msg) (missing : String)
    (f : Int → Int → GameTables × Except GameException (List GameMessage)) :
    Quiet c (c.handleGameSession json env msg missing f) := by
  simp only [handleGameSession]
  split_ifs
  · exact quiet_self _
  · exact quiet_authenticated h _ _

lemma quiet_handleCancel (h : Rejected json env c msg) : Quiet c (c.handleCancel json env msg) := by
  simp only [handleCancel]
  split_ifs
  · exact quiet_self _
  · refine quiet_readToken h fun token e herror => ?_
    rw [herror]
    exact quiet_self _

lemma quiet_handleMarketOrder (h : Rejected json env c msg) :
    Quiet c (c.handleMarketOrder json env msg) := by
  simp only [handleMarketOrder]
  split_ifs
  · exact quiet_self _
  · refine quiet_readToken h fun token e herror => ?_
    rw [herror]
    exact quiet_self _

/-- An order is read before its token is looked at. -/
lemma quiet_handleOrder (h : Rejected json env c msg) : Quiet c (c.handleOrder json env msg) := by
  simp only [handleOrder]
  split_ifs
  · exact quiet_self _
  · refine quiet_reading fun companyId _ => quiet_reading fun price _ => ?_
    refine quiet_reading fun quantity _ => quiet_reading fun timestamp _ => ?_
    split_ifs
    · exact quiet_self _
    · refine quiet_readToken h fun token e herror => ?_
      rw [herror]
      exact quiet_self _

/-- The token is not looked at. -/
lemma handleSwitchEngine_eq : (∃ mode sent, modeOf json msg = some mode ∧
      c.handleSwitchEngine json msg
        = some ({ c with server := c.server.push (.switchEngine mode) }, sent)) ∨
    modeOf json msg = none ∧ Quiet c (c.handleSwitchEngine json msg) := by
  simp only [modeOf, handleSwitchEngine]
  cases json.value msg "mode" json.getString "" with
  | error e => exact Or.inr ⟨rfl, quiet_self _⟩
  | ok text =>
    by_cases hlegacy : text = "LEGACY"
    · subst hlegacy
      exact Or.inl ⟨.legacy, _, rfl, rfl⟩
    by_cases hcurrent : text = "CURRENT"
    · subst hcurrent
      exact Or.inl ⟨.current, _, rfl, rfl⟩
    refine Or.inr ⟨?_, ?_⟩
    · simp [hlegacy, hcurrent]
    · rw [reading, Server.handleSwitchEngine, if_pos ⟨hcurrent, hlegacy⟩]
      exact quiet_self _

/-- **A message without a valid token** does nothing to the server, or asks for a snapshot, or
switches the engine. -/
lemma handleMessage_unauthenticated (haccount : NoAccount json raw)
    (hauth : Unauthenticated json env c raw) :
    (∃ mode sent, requestedMode json raw = some mode ∧ c.handleMessage json g env accounts raw
      = some ({ c with server := c.server.push (.switchEngine mode) }, sent)) ∨
    requestedMode json raw = none ∧ Quiet c (c.handleMessage json g env accounts raw) := by
  simp only [requestedMode, handleMessage, reading]
  cases hparse : json.parse raw with
  | error e => exact Or.inr ⟨rfl, quiet_self _⟩
  | ok msg =>
    have h := hauth msg hparse
    obtain ⟨hregister, hlogin⟩ := haccount msg hparse
    by_cases hobject : json.isObject msg = true
    · simp only [hobject, Bool.not_true, Bool.false_eq_true, if_false, true_and]
      cases htype : readType json msg with
      | error e => exact Or.inr ⟨if_neg (fun h => by cases h), quiet_self _⟩
      | ok type =>
        by_cases hswitch : type = "switch_engine"
        · subst hswitch
          simp only [if_true]
          exact handleSwitchEngine_eq
        · refine Or.inr ⟨if_neg (by simpa using hswitch), ?_⟩
          simp only
          split
          · exact absurd htype hregister
          · exact absurd htype hlogin
          · exact quiet_self _
          · exact quiet_handleSnapshot h
          · exact absurd rfl hswitch
          · exact quiet_handleMyTrades h
          · exact quiet_authenticated h _ _
          · exact quiet_handleGameQuote h
          · exact quiet_handleGameSession h _ _
          · exact quiet_handleGameSession h _ _
          · exact quiet_handleCancel h
          · exact quiet_handleMarketOrder h
          · exact quiet_handleOrder h
          · exact quiet_self _
    · simp only [hobject, Bool.not_false, if_true]
      exact Or.inr ⟨rfl, quiet_self _⟩

/-- **When a message without a valid token goes unnoticed**: handled or not, the workers finish
with the same books and wallets exactly if it asks for no engine but the one in force when the
engine thread gets to it, or nothing rests then. Here `t` is the server without the message. -/
theorem unauthenticated_unnoticed_iff (json : JsonLib J) (g : GameManager) (env : Surroundings)
    (accounts : Accounts J) (c : Session) (raw : String) (fuel : Nat)
    (haccount : NoAccount json raw) (hauth : Unauthenticated json env c raw) :
    ∃ c' sent, c.handleMessage json g env accounts raw = some (c', sent) ∧
      ∀ t, WorkedOff fuel c.server t → (∃ t', WorkedOff fuel c'.server t') ∧
        ∀ t', WorkedOff fuel c'.server t' → (SameMarket t t' ↔
          ∀ mode, requestedMode json raw = some mode →
            mode = t.market.engineMode ∨ NothingRests t.market) := by
  rcases handleMessage_unauthenticated haccount hauth with
    ⟨mode, sent, hmode, hhandled⟩ | ⟨hnone, c', sent, hhandled, hquiet⟩
  · refine ⟨_, sent, hhandled, fun t ht => ?_⟩
    have hrun : runTask fuel t.market (.switchEngine mode)
        = some ⟨t.market.setEngineMode mode, [], []⟩ := rfl
    obtain ⟨hdone, hsame⟩ := ht.push hrun
    refine ⟨hdone, fun t' ht' => (hsame t' ht').trans ?_⟩
    rw [restingOf_setEngineMode_iff, hmode]
    simp
  · refine ⟨c', sent, hhandled, fun t ht => ?_⟩
    rw [hnone]
    rcases hquiet with hsame | ⟨id, hsnapshot⟩
    · rw [hsame]
      exact ⟨⟨t, ht⟩, fun t' ht' => ⟨fun _ => nofun, fun _ => ht.same ht'⟩⟩
    · rw [hsnapshot]
      have hrun : runTask fuel t.market (.snapshot id) = some ⟨t.market, [], []⟩ := rfl
      obtain ⟨hdone, hiff⟩ := ht.push hrun
      exact ⟨hdone, fun t' ht' => ⟨fun _ => nofun, fun _ => (hiff t' ht').mpr fun _ => rfl⟩⟩

/-! ### Two messages -/

def sampleSwitch : String := "\x7b\"type\":\"switch_engine\",\"mode\":\"LEGACY\"\x7d"

def sampleSwitchMsg : Doc :=
  .object [("type", .text "switch_engine"), ("mode", .text "LEGACY")]

def sampleCancel : String := "\x7b\"type\":\"cancel\",\"order_id\":4294967296\x7d"

def sampleCancelMsg : Doc :=
  .object [("type", .text "cancel"), ("order_id", .number 4294967296)]

/-- A library that can parse the two messages. -/
def sampleLib : JsonLib Doc :=
  docLib [(sampleSwitch, sampleSwitchMsg), (sampleCancel, sampleCancelMsg)]

def sampleAccounts : Accounts Doc := ⟨fun c _ => some (c, []), fun c _ => some (c, [])⟩

lemma parse_sampleSwitch : sampleLib.parse sampleSwitch = .ok sampleSwitchMsg := by
  simp [sampleLib, docLib]

lemma parse_sampleCancel : sampleLib.parse sampleCancel = .ok sampleCancelMsg := by
  have hne : (sampleCancel == sampleSwitch) = false := by decide
  simp [sampleLib, docLib, List.lookup_cons, hne]

lemma noAccount_of_parse (hparse : json.parse raw = .ok msg)
    (hregister : readType json msg ≠ .ok "register") (hlogin : readType json msg ≠ .ok "login") :
    NoAccount json raw := by
  intro msg' hparse'
  obtain rfl := Except.ok.inj (hparse.symm.trans hparse')
  exact ⟨hregister, hlogin⟩

/-- Without a token the empty one is looked up. -/
lemma unauthenticated_of_parse (hparse : json.parse raw = .ok msg)
    (htoken : readToken json msg = .ok "") (hdb : c.server.db.sessions (bindText "") = none) :
    Unauthenticated json env c raw := by
  intro msg' hparse' token htoken' userId
  obtain rfl := Except.ok.inj (hparse.symm.trans hparse')
  obtain rfl := Except.ok.inj (htoken.symm.trans htoken')
  rw [Database.validateSession, hdb]
  nofun

/-- User 7 has offered four shares. -/
lemma sampleOffer_rests : ∃ s fills pushed,
    Run SafeEvent (start sampleMarket sampleDb) s fills pushed ∧ WorkedOff 0 s s ∧
      s.db.sessions "" = none ∧ s.market.engineMode = .current ∧
      s.market.restingOf 1 ≠ Book.empty := by
  obtain ⟨⟨s, fills, pushed⟩, hrun, hout⟩ := Option.map_eq_some_iff.mp
    (by decide +kernel : (((start sampleMarket sampleDb).runEvents SafeEvent
      [sampleOffer, .engine 100001]).map fun x =>
        decide (x.1.engineQueue = [] ∧ x.1.dbQueueFront = [] ∧ x.1.dbQueueBack = [] ∧
          (x.1.db.sessions "").isNone = true ∧ x.1.market.engineMode = .current ∧
          (x.1.market.restingOf 1 false).isEmpty = false)) = some true)
  obtain ⟨hqueue, hfront, hback, hsessions, hmode, hrests⟩ := of_decide_eq_true hout
  refine ⟨s, fills, pushed, run_of_runEvents hrun, ⟨⟨[], [], .refl⟩, hqueue, hfront, hback⟩,
    Option.isNone_iff_eq_none.mp hsessions, hmode, fun hempty => ?_⟩
  rw [hempty] at hrests
  cases hrests

/-- The cancellation of the offer, without a token, goes unnoticed. -/
theorem unauthenticated_unnoticed_iff_sampleCancel : ∃ c : Session,
    c.server.market.restingOf 1 ≠ Book.empty ∧
      ∃ c' sent, c.handleMessage sampleLib ⟨[], {}⟩ ⟨0, 0, none, 0⟩ sampleAccounts sampleCancel
        = some (c', sent) ∧ ∃ t', WorkedOff 0 c'.server t' ∧ SameMarket c.server t' := by
  obtain ⟨s, -, -, -, hdone, hsessions, -, hrests⟩ := sampleOffer_rests
  obtain ⟨c', sent, hhandled, hall⟩ := unauthenticated_unnoticed_iff sampleLib ⟨[], {}⟩
    ⟨0, 0, none, 0⟩ sampleAccounts ⟨s, .empty, -1⟩ sampleCancel 0
    (noAccount_of_parse parse_sampleCancel (by decide) (by decide))
    (unauthenticated_of_parse parse_sampleCancel rfl hsessions)
  obtain ⟨⟨t', ht'⟩, hiff⟩ := hall s hdone
  refine ⟨⟨s, .empty, -1⟩, hrests, c', sent, hhandled, t', ht', (hiff t' ht').mpr ?_⟩
  intro mode hmode
  have hnone : requestedMode sampleLib sampleCancel = none := by
    rw [requestedMode, parse_sampleCancel]
    decide
  rw [hnone] at hmode
  cases hmode

/-- Anybody can switch the engine, and the offer is gone. -/
theorem offer_gone_by_switch : ∃ s fills pushed,
    Run SafeEvent (start sampleMarket sampleDb) s fills pushed ∧ WorkedOff 0 s s ∧
      NoAccount sampleLib sampleSwitch ∧
      Unauthenticated sampleLib ⟨0, 0, none, 0⟩ ⟨s, .empty, -1⟩ sampleSwitch ∧
      ∃ c' sent, (Session.mk s .empty (-1)).handleMessage sampleLib ⟨[], {}⟩ ⟨0, 0, none, 0⟩
        sampleAccounts sampleSwitch = some (c', sent) ∧ ∃ t', WorkedOff 0 c'.server t' ∧ ¬ SameMarket s t' := by
  obtain ⟨s, fills, pushed, hrun, hdone, hsessions, hmode, hrests⟩ := sampleOffer_rests
  have hswitch : runTask 0 s.market (.switchEngine .legacy)
      = some ⟨s.market.setEngineMode .legacy, [], []⟩ := rfl
  obtain ⟨⟨t', ht'⟩, hiff⟩ := hdone.push hswitch
  refine ⟨s, fills, pushed, hrun, hdone,
    noAccount_of_parse parse_sampleSwitch (by decide) (by decide),
    unauthenticated_of_parse parse_sampleSwitch rfl hsessions,
    ⟨s.push (.switchEngine .legacy), .empty, -1⟩, [], ?_, t', ht', fun hsame => ?_⟩
  · rw [handleMessage, parse_sampleSwitch]
    rfl
  · rcases restingOf_setEngineMode_iff.mp ((hiff t' ht').mp hsame) with hsame | hnone
    · rw [hmode] at hsame
      cases hsame
    · exact hrests (hnone 1)

end Session

end ExchangeEngine
