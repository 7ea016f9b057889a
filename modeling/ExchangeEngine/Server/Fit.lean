import ExchangeEngine.Server.Atomic

/-!
# Servers that can go on

A server in good order whose queue names orders in its cancellations goes on in good order, as long
as the books have ids left. A task takes one id at most.
-/

namespace ExchangeEngine

/-! ### Ids that are left -/

namespace AnyBook

variable {b b' : AnyBook} {o : Order} {r : Processed AnyBook} {fuel id : Nat} {userId : Int}

lemma orderIdCounter_processOrder (h : b.Inv) (hcan : b.canProcessOrder o = true)
    (hcounter : b.orderIdCounter + 1 < 2 ^ 32) (hrun : b.processOrder fuel o = some r) :
    r.book.orderIdCounter = b.orderIdCounter + 1 := by
  cases b with
  | current b =>
    rw [processOrder, OrderBook.engine_processOrder] at hrun
    obtain ⟨r', hrun', rfl⟩ := Option.map_eq_some_iff.mp hrun
    obtain ⟨i, -, -, hs⟩ := OrderBook.processOrder_sound h hcan hcounter hrun'
    exact hs.counter
  | legacy b =>
    rw [processOrder, OrderBookLegacy.engine_processOrder] at hrun
    obtain rfl := Option.some.inj hrun
    exact (OrderBookLegacy.processOrder_spec h hcan (lt_trans hcounter (by decide))).counter

lemma orderIdCounter_cancelOrder {out : Option Order} (h : b.Inv)
    (hstale : ¬ b.StaleMatch id userId) (hrun : b.cancelOrder id userId = some (b', out)) :
    b'.orderIdCounter = b.orderIdCounter := by
  cases b with
  | current b =>
    obtain ⟨⟨b₁, out₁⟩, hrun', heq⟩ := Option.map_eq_some_iff.mp hrun
    obtain ⟨rfl, rfl⟩ := Prod.mk.inj heq
    obtain ⟨b₂, hspec, hc⟩ := OrderBook.cancelOrder_spec h hstale
    rw [hrun', Option.some.injEq, Prod.mk.injEq] at hspec
    obtain ⟨rfl, -⟩ := hspec
    exact hc.counter
  | legacy b =>
    obtain ⟨⟨b₁, out₁⟩, hrun', heq⟩ := Option.map_eq_some_iff.mp hrun
    obtain ⟨rfl, rfl⟩ := Prod.mk.inj heq
    obtain ⟨b₂, hspec, hc⟩ := OrderBookLegacy.cancelOrder_spec h id userId
    rw [hrun', Option.some.injEq, Prod.mk.injEq] at hspec
    obtain ⟨rfl, -⟩ := hspec
    exact hc.counter

lemma orderIdCounter_make (mode : EngineMode) : (makeOrderBook mode).orderIdCounter = 0 := by
  cases mode <;> rfl

end AnyBook

/-- Every book can number `n` more orders. -/
def MarketState.Room (m : MarketState) (n : Nat) : Prop :=
  ∀ c ∈ m.companies, ∀ b ∈ m.findInstrument c, b.orderIdCounter + n < 2 ^ 32

instance (m : MarketState) (n : Nat) : Decidable (m.Room n) :=
  inferInstanceAs (Decidable (∀ c ∈ m.companies, ∀ b ∈ m.findInstrument c, _))

/-- A cancellation names an order. -/
def EngineTask.Aimed : EngineTask → Prop
  | .cancel _ id _ => id ≠ 0
  | .order _ _ => True
  | .snapshot _ => True
  | .switchEngine _ => True

section Room

variable {m : MarketState} {task : EngineTask} {e : Effect} {fuel n n' c : Nat} {b b' : AnyBook}

lemma MarketState.Room.mono (h : m.Room n) (hle : n' ≤ n) : m.Room n' := by
  intro c hc b hb
  have hcounter := h c hc b hb
  omega

lemma MarketState.Room.find (h : m.Room n) (hm : m.Ok) (hb : m.findInstrument c = some b) :
    b.orderIdCounter + n < 2 ^ 32 :=
  h c ((hm.listed c).mp (by rw [hb]; rfl)) b hb

lemma EngineTask.Aimed.safe_of_hasRoom (h : task.Aimed) (hroom : task.HasRoom m) :
    task.Safe m := by
  cases task with
  | order c o => exact hroom
  | cancel c id userId => exact fun b _ => AnyBook.not_staleMatch_of_ne_zero h
  | snapshot c => trivial
  | switchEngine mode => trivial

lemma MarketState.Room.hasRoom (h : m.Room (n + 1)) (hm : m.Ok) : task.HasRoom m := by
  cases task with
  | order c o =>
    intro b hb
    have hcounter := h.find hm hb
    omega
  | _ => trivial

lemma MarketState.Room.setBook (h : m.Room (n + 1)) (hm : m.Ok) (hb : m.findInstrument c = some b)
    (hcounter : b'.orderIdCounter ≤ b.orderIdCounter + 1) : (m.setBook c b').Room n := by
  intro d hd x hx
  rw [findInstrument_setBook] at hx
  split_ifs at hx
  · have hold := h.find hm hb
    obtain rfl := Option.some.inj hx
    omega
  · have hold := h.find hm hx
    omega

/-- **A task** takes one id at most. -/
lemma MarketState.Room.runTask (h : m.Room (n + 1)) (hm : m.Ok) (hsafe : task.Safe m)
    (hrun : ExchangeEngine.runTask fuel m task = some e) : e.market.Room n := by
  cases runTask_branch hrun with
  | switchEngine mode =>
    by_cases hmode : mode = m.engineMode
    · rw [hmode, setEngineMode_self]
      exact h.mono (Nat.le_succ n)
    · intro d _ x hx
      rw [Option.mem_def, findInstrument_setEngineMode m d hmode] at hx
      obtain ⟨b, hb, rfl⟩ := Option.map_eq_some_iff.mp hx
      have hold := h.find hm hb
      rw [AnyBook.orderIdCounter_make]
      omega
  | @orderProcessed c o b r hfind hcan hprocess =>
    exact h.setBook hm hfind
      (AnyBook.orderIdCounter_processOrder (hm.inv c b hfind) hcan (hsafe b hfind) hprocess).le
  | @cancelMissed c id userId b b' hfind hcancel =>
    have hsame := AnyBook.orderIdCounter_cancelOrder (hm.inv c b hfind) (hsafe b hfind) hcancel
    exact h.setBook hm hfind (hsame.le.trans (Nat.le_succ _))
  | @cancelled c id userId b b' x hfind hcancel =>
    have hsame := AnyBook.orderIdCounter_cancelOrder (hm.inv c b hfind) (hsafe b hfind) hcancel
    exact h.setBook hm hfind (hsame.le.trans (Nat.le_succ _))
  | _ => exact h.mono (Nat.le_succ n)

end Room

/-! ### The atomic server -/

namespace Server

variable {s s' : Server} {action : Action} {fills : List Trade}

/-- A cancellation that comes in names an order, if it has an id at all. -/
def Message.Aimed : Message → Prop
  | .cancel msg => msg.orderId ≠ some 0
  | .order _ => True
  | .marketOrder _ => True
  | .switchEngine _ => True
  | .snapshot _ => True

instance : (msg : Message) → Decidable msg.Aimed
  | .cancel msg => inferInstanceAs (Decidable (msg.orderId ≠ some 0))
  | .order _ => isTrue trivial
  | .marketOrder _ => isTrue trivial
  | .switchEngine _ => isTrue trivial
  | .snapshot _ => isTrue trivial

/-- The server is in good order, and what is queued names orders. -/
structure Fit (s : Server) : Prop where
  ok : s.Ok
  aimed : ∀ task ∈ s.engineQueue, task.Aimed

/-- What a server in good order can do. -/
def FitAction (s : Server) : Action → Prop
  | .submit _ _ _ _ _ _ => True
  | .queue task => task.Addressed ∧ task.Aimed
  | .engine fuel => s.SafeEvent (.engine fuel)
  | .swap _ => True
  | .commit => True
  | .write _ => True

lemma Fit.push {task : EngineTask} (h : s.Fit) (db : Database) (haddr : task.Addressed)
    (haimed : task.Aimed) : ({ s with db := db }.push task).Fit where
  ok := Ok.push ⟨h.ok.market, h.ok.addressed⟩ haddr
  aimed t ht := by
    rcases List.mem_append.mp ht with ht | ht
    · exact h.aimed t ht
    · rwa [List.mem_singleton.mp ht]

lemma Fit.act (h : s.Fit) (hfit : s.FitAction action) (hact : s.act action = some (s', fills)) :
    s'.Fit := by
  cases act_does hact with
  | submitted => exact h.push _ rfl trivial
  | refused => exact h
  | queued => exact h.push s.db hfit.1 hfit.2
  | @engine fuel _ _ _ hstep =>
    have hsafe : s.SafeEvent (.engine fuel) := hfit
    refine ⟨h.ok.step hsafe hstep, fun task htask => h.aimed task ?_⟩
    cases step_steps hstep with
    | idle => exact htask
    | task hqueue =>
      rw [hqueue]
      exact List.mem_cons_of_mem _ htask
  | swapped => exact ⟨⟨h.ok.market, h.ok.addressed⟩, h.aimed⟩
  | committed => exact ⟨⟨h.ok.market, h.ok.addressed⟩, h.aimed⟩
  | wrote => exact ⟨⟨h.ok.market, h.ok.addressed⟩, h.aimed⟩

end Server

end ExchangeEngine
