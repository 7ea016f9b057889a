import ExchangeEngine.Server.Basic

/-!
# What the engine thread can do

On a market whose books satisfy their invariants a task acts in one of a few ways, each described
in terms of the price-time-priority books. Every reachable market is of this kind, as long as no
cancellation hits a stale node and no book runs out of ids.
-/

namespace ExchangeEngine

/-- The companies that are listed have a book, and no others. -/
def MarketState.Listed (m : MarketState) : Prop :=
  ∀ c, (m.findInstrument c).isSome = true ↔ c ∈ m.companies

/-- Every listed company has a book, in good order, and orders rest in the book of their company. -/
structure MarketState.Ok (m : MarketState) : Prop where
  listed : m.Listed
  inv : ∀ c b, m.findInstrument c = some b → b.Inv
  company : ∀ c b, m.findInstrument c = some b → ∀ s, ∀ r ∈ b.resting s, r.companyId = c

/-- A task that a market in good order can take: a book has ids left, and a cancellation does not
hit a stale node. -/
def EngineTask.Safe (m : MarketState) : EngineTask → Prop
  | .order c _ => ∀ b, m.findInstrument c = some b → b.orderIdCounter + 1 < 2 ^ 32
  | .cancel c id userId => ∀ b, m.findInstrument c = some b → ¬ b.StaleMatch id userId
  | .snapshot _ => True
  | .switchEngine _ => True

instance (m : MarketState) (task : EngineTask) : Decidable (task.Safe m) := by
  cases task with
  | order c o => exact inferInstanceAs (Decidable (∀ b ∈ m.findInstrument c, _))
  | cancel c id userId =>
    exact inferInstanceAs (Decidable (∀ b ∈ m.findInstrument c, ¬ b.StaleMatch id userId))
  | snapshot c => exact isTrue trivial
  | switchEngine mode => exact isTrue trivial

/-- An order goes to the company it names. -/
def EngineTask.Addressed : EngineTask → Prop
  | .order c o => o.companyId = c
  | .cancel _ _ _ => True
  | .snapshot _ => True
  | .switchEngine _ => True

/-- The branch of `run_engine_worker` that a task takes, whatever state the books are in. -/
inductive Branch (fuel : Nat) (m : MarketState) : EngineTask → Effect → Prop
  | switchEngine (mode : EngineMode) :
      Branch fuel m (.switchEngine mode) ⟨m.setEngineMode mode, [], []⟩
  | snapshot (c : Nat) : Branch fuel m (.snapshot c) ⟨m, [], []⟩
  | orderUnlisted {c : Nat} (o : Order) (hfind : m.findInstrument c = none) :
      Branch fuel m (.order c o) ⟨m, [], []⟩
  | orderRefused {c : Nat} {o : Order} {b : AnyBook} (hfind : m.findInstrument c = some b)
      (hcan : b.canProcessOrder o = false) :
      Branch fuel m (.order c o) ⟨m, [], [refund o.userId o c o.quantity]⟩
  | orderProcessed {c : Nat} {o : Order} {b : AnyBook} {r : Processed AnyBook}
      (hfind : m.findInstrument c = some b) (hcan : b.canProcessOrder o = true)
      (hprocess : b.processOrder fuel o = some r) :
      Branch fuel m (.order c o)
        ⟨m.setBook c r.book, r.fills, r.notified.flatMap onTrade ++
          if 0 < r.rejectedQty then [refund r.order.userId r.order c r.rejectedQty] else []⟩
  | cancelUnlisted {c : Nat} (id : Nat) (userId : Int) (hfind : m.findInstrument c = none) :
      Branch fuel m (.cancel c id userId) ⟨m, [], []⟩
  | cancelMissed {c id : Nat} {userId : Int} {b b' : AnyBook}
      (hfind : m.findInstrument c = some b) (hcancel : b.cancelOrder id userId = some (b', none)) :
      Branch fuel m (.cancel c id userId) ⟨m.setBook c b', [], []⟩
  | cancelled {c id : Nat} {userId : Int} {b b' : AnyBook} {x : Order}
      (hfind : m.findInstrument c = some b)
      (hcancel : b.cancelOrder id userId = some (b', some x)) :
      Branch fuel m (.cancel c id userId)
        ⟨m.setBook c b', [], [refund userId x c x.quantity]⟩

/-- The tasks queued when `o` is processed by a book. -/
def processedTasks (b : AnyBook) (c : Nat) (o : Order) : List DbTask :=
  (if b.tradeListener then b.resting.fills o else []).flatMap onTrade ++
    if 0 < b.resting.rejected o then [refund o.userId o c (b.resting.rejected o)] else []

/-- What a task does to a market. -/
inductive Acts (m : MarketState) : EngineTask → Effect → Prop
  | switchEngine (mode : EngineMode) : Acts m (.switchEngine mode) ⟨m.setEngineMode mode, [], []⟩
  | snapshot (c : Nat) : Acts m (.snapshot c) ⟨m, [], []⟩
  | orderUnlisted {c : Nat} (o : Order) (h : m.findInstrument c = none) :
      Acts m (.order c o) ⟨m, [], []⟩
  | orderRefused {c : Nat} {o : Order} {b : AnyBook} (h : m.findInstrument c = some b)
      (hcan : b.canProcessOrder o = false) :
      Acts m (.order c o) ⟨m, [], [refund o.userId o c o.quantity]⟩
  | orderProcessed {c id : Nat} {o : Order} {b : AnyBook} {r : Processed AnyBook}
      (h : m.findInstrument c = some b) (hcan : b.canProcessOrder o = true)
      (hs : b.Submitted { o with id := id } r)
      (hlisten : r.book.tradeListener = b.tradeListener) :
      Acts m (.order c o)
        ⟨m.setBook c r.book, b.resting.fills { o with id := id },
          processedTasks b c { o with id := id }⟩
  | cancelUnlisted {c : Nat} (id : Nat) (userId : Int) (h : m.findInstrument c = none) :
      Acts m (.cancel c id userId) ⟨m, [], []⟩
  | cancelMissed {c id : Nat} {userId : Int} {b b' : AnyBook} (h : m.findInstrument c = some b)
      (hfind : b.resting.find id userId = none) (hinv : b'.Inv)
      (hlisten : b'.tradeListener = b.tradeListener) (hresting : b'.resting = b.resting) :
      Acts m (.cancel c id userId) ⟨m.setBook c b', [], []⟩
  | cancelled {c id : Nat} {userId : Int} {b b' : AnyBook} {x : Order}
      (h : m.findInstrument c = some b) (hfind : b.resting.find id userId = some x)
      (hinv : b'.Inv) (hlisten : b'.tradeListener = b.tradeListener)
      (hresting : b'.resting = b.resting.remove id) :
      Acts m (.cancel c id userId) ⟨m.setBook c b', [], [refund userId x c x.quantity]⟩

variable {m : MarketState} {task : EngineTask} {e : Effect} {fuel : Nat}

/-- **A task takes** one of these branches. -/
theorem runTask_branch (h : runTask fuel m task = some e) : Branch fuel m task e := by
  cases task with
  | switchEngine mode =>
    obtain rfl := Option.some.inj h
    exact .switchEngine mode
  | snapshot c =>
    obtain rfl := Option.some.inj h
    exact .snapshot c
  | order c o =>
    rw [runTask] at h
    cases hfind : m.findInstrument c with
    | none =>
      rw [hfind] at h
      obtain rfl := Option.some.inj h
      exact .orderUnlisted o hfind
    | some b =>
      simp only [hfind] at h
      cases hcan : b.canProcessOrder o with
      | false =>
        rw [if_neg (by simp [hcan])] at h
        obtain rfl := Option.some.inj h
        exact .orderRefused hfind hcan
      | true =>
        rw [if_pos hcan] at h
        obtain ⟨r, hprocess, h⟩ := Option.bind_eq_some_iff.mp h
        obtain rfl := Option.some.inj h
        exact .orderProcessed hfind hcan hprocess
  | cancel c id userId =>
    rw [runTask] at h
    cases hfind : m.findInstrument c with
    | none =>
      rw [hfind] at h
      obtain rfl := Option.some.inj h
      exact .cancelUnlisted id userId hfind
    | some b =>
      rw [hfind] at h
      obtain ⟨⟨b', out⟩, hcancel, h⟩ := Option.bind_eq_some_iff.mp h
      obtain rfl := Option.some.inj h
      cases out with
      | none => exact .cancelMissed hfind hcancel
      | some x => exact .cancelled hfind hcancel

/-- **A task acts** in one of these ways. -/
theorem runTask_acts (hm : m.Ok) (hsafe : task.Safe m) (h : runTask fuel m task = some e) :
    Acts m task e := by
  cases runTask_branch h with
  | switchEngine mode => exact .switchEngine mode
  | snapshot c => exact .snapshot c
  | orderUnlisted o hfind => exact .orderUnlisted o hfind
  | orderRefused hfind hcan => exact .orderRefused hfind hcan
  | @orderProcessed c o b r hfind hcan hprocess =>
    obtain ⟨id, hs⟩ := AnyBook.processOrder_sound (hm.inv c b hfind) hcan (hsafe b hfind) hprocess
    obtain ⟨hlisten, hnotified⟩ := AnyBook.processOrder_notified hprocess
    have hrefund : refund r.order.userId r.order c r.rejectedQty
        = refund o.userId { o with id := id } c r.rejectedQty := by
      rw [hs.order]
      rfl
    rw [hs.fills, hnotified, hs.fills, hrefund, hs.rejected]
    exact .orderProcessed hfind hcan hs hlisten
  | cancelUnlisted id userId hfind => exact .cancelUnlisted id userId hfind
  | @cancelMissed c id userId b b' hfind hcancel =>
    obtain ⟨hx, hinv, hlisten, hresting⟩ :=
      AnyBook.cancelOrder_sound (hm.inv c b hfind) (hsafe b hfind) hcancel
    rw [Book.cancel, hx] at hresting
    exact .cancelMissed hfind hx hinv hlisten hresting
  | @cancelled c id userId b b' x hfind hcancel =>
    obtain ⟨hx, hinv, hlisten, hresting⟩ :=
      AnyBook.cancelOrder_sound (hm.inv c b hfind) (hsafe b hfind) hcancel
    rw [Book.cancel, hx] at hresting
    exact .cancelled hfind hx hinv hlisten hresting

/-- The engine thread never gets stuck on such a task. -/
theorem runTask_isSome (hm : m.Ok) (hsafe : task.Safe m) (hfuel : maxOrders < fuel) :
    (runTask fuel m task).isSome = true := by
  cases task with
  | switchEngine mode => rfl
  | snapshot c => rfl
  | order c o =>
    rw [runTask]
    cases hfind : m.findInstrument c with
    | none => rfl
    | some b =>
      simp only
      cases hcan : b.canProcessOrder o with
      | false => rfl
      | true =>
        obtain ⟨r, hr⟩ := Option.isSome_iff_exists.mp
          (AnyBook.processOrder_isSome (hm.inv c b hfind) hcan (hsafe b hfind) hfuel)
        rw [if_pos rfl, hr]
        rfl
  | cancel c id userId =>
    rw [runTask]
    cases hfind : m.findInstrument c with
    | none => rfl
    | some b =>
      obtain ⟨b', hrun, -⟩ := AnyBook.cancelOrder_spec (hm.inv c b hfind) (hsafe b hfind)
      simp only [hrun, Option.bind_eq_bind, Option.bind_some, Option.isSome_some]

/-! ### The same companies are listed -/

lemma MarketState.Listed.setBook {c : Nat} {b b' : AnyBook} (hm : m.Listed)
    (hfind : m.findInstrument c = some b) : (m.setBook c b').Listed := by
  intro d
  rw [findInstrument_setBook, companies_setBook]
  split_ifs with hd
  · subst hd
    rw [← hm d, hfind]
    rfl
  · exact hm d

lemma MarketState.Listed.setEngineMode (hm : m.Listed) (mode : EngineMode) :
    (m.setEngineMode mode).Listed := by
  by_cases hmode : mode = m.engineMode
  · subst hmode
    rwa [setEngineMode_self]
  · intro c
    rw [findInstrument_setEngineMode m c hmode, companies_setEngineMode, Option.isSome_map]
    exact hm c

/-- **A task** lists no company and delists none, whatever state the books are in. -/
theorem Branch.companies (h : Branch fuel m task e) : e.market.companies = m.companies := by
  cases h with
  | switchEngine mode => exact m.companies_setEngineMode mode
  | _ => rfl

lemma Branch.listed (hm : m.Listed) (h : Branch fuel m task e) : e.market.Listed := by
  cases h with
  | switchEngine mode => exact hm.setEngineMode mode
  | orderProcessed hfind => exact hm.setBook hfind
  | cancelMissed hfind => exact hm.setBook hfind
  | cancelled hfind => exact hm.setBook hfind
  | _ => exact hm

/-! ### The market stays in good order -/

lemma MarketState.Ok.setBook {c : Nat} {b b' : AnyBook} (hm : m.Ok)
    (hfind : m.findInstrument c = some b) (hinv : b'.Inv)
    (hcompany : ∀ s, ∀ r ∈ b'.resting s, r.companyId = c) : (m.setBook c b').Ok where
  listed := hm.listed.setBook hfind
  inv d x hx := by
    rw [findInstrument_setBook] at hx
    split_ifs at hx
    · rwa [← Option.some.inj hx]
    · exact hm.inv d x hx
  company d x hx := by
    rw [findInstrument_setBook] at hx
    split_ifs at hx with hd
    · rw [hd, ← Option.some.inj hx]
      exact hcompany
    · exact hm.company d x hx

/-- A switch leaves fresh books. -/
lemma MarketState.Ok.setEngineMode (hm : m.Ok) (mode : EngineMode) : (m.setEngineMode mode).Ok := by
  by_cases hmode : mode = m.engineMode
  · subst hmode
    rwa [setEngineMode_self]
  · refine ⟨hm.listed.setEngineMode mode, ?_, ?_⟩
    · intro c b hb
      rw [findInstrument_setEngineMode m c hmode] at hb
      obtain ⟨-, -, rfl⟩ := Option.map_eq_some_iff.mp hb
      exact AnyBook.inv_make mode
    · intro c b hb s r hr
      rw [findInstrument_setEngineMode m c hmode] at hb
      obtain ⟨-, -, rfl⟩ := Option.map_eq_some_iff.mp hb
      rw [AnyBook.resting_make] at hr
      exact absurd hr List.not_mem_nil

/-- **A task keeps the market in good order.** -/
theorem Acts.ok (hm : m.Ok) (haddr : task.Addressed) (h : Acts m task e) : e.market.Ok := by
  cases h with
  | switchEngine mode => exact hm.setEngineMode mode
  | snapshot => exact hm
  | orderUnlisted => exact hm
  | orderRefused => exact hm
  | @orderProcessed c id o b r hfind hcan hs hlisten =>
    apply hm.setBook hfind hs.inv
    intro s x hx
    rw [hs.resting] at hx
    rcases Book.mem_submit (hm.inv c b hfind).valid.pos hx with ⟨-, rfl⟩ | ⟨a, ha, q, rfl⟩
    · exact haddr
    · exact hm.company c b hfind s a ha
  | cancelUnlisted => exact hm
  | @cancelMissed c id userId b b' hfind hnone hinv hlisten hresting =>
    apply hm.setBook hfind hinv
    rw [hresting]
    exact hm.company c b hfind
  | @cancelled c id userId b b' x hfind hx hinv hlisten hresting =>
    apply hm.setBook hfind hinv
    intro s r hr
    rw [hresting] at hr
    exact hm.company c b hfind s r ((Book.remove_sublist _ _ _).subset hr)

end ExchangeEngine
