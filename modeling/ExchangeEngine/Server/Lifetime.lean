import ExchangeEngine.OrderBook.Origin
import ExchangeEngine.Server.Settlement

/-!
# Order ids over the life of the server

A switch of the engine gives every instrument a new book, and a new book counts its orders from one
again. The history of the engine thread keeps, for each accepted order, which book accepted it, and
for each cancelled order, which id was asked for.
-/

namespace ExchangeEngine

/-! ### The ids of one book -/

namespace AnyBook

def mode : AnyBook → EngineMode
  | current _ => .current
  | legacy _ => .legacy

/-- The id that an engine gives to the order of this number. -/
def Numbers : EngineMode → Nat → Nat → Prop
  | .current, n, id => ∃ i < maxOrders, id = n * 2 ^ 32 + i ∧ (n = 1 → i = 0)
  | .legacy, n, id => id = n

/-- The book holds only orders with the property; an `OrderBook` that has accepted none still has
slot 0 on top of the free stack and no id in its nodes. For `OrderBook` nothing is said about its
lists. -/
def From (S : Order → Prop) : AnyBook → Prop
  | current b => b.Origin S ∧ (b.orderIdCounter = 0 →
      b.freeIndices.head? = some 0 ∧ ∀ i, (b.nodePool i).order.id = 0)
  | legacy b => OrderBookLegacy.Inv b ∧ ∀ s, ∀ r ∈ b.resting s, S r

variable {b b' : AnyBook} {o : Order} {fuel id n : Nat} {userId : Int} {S S' : Order → Prop}

lemma From.mono (h : b.From S) (hS : ∀ r, S r → S' r) : b.From S' := by
  cases b with
  | current b => exact ⟨⟨fun i => (h.1.node i).imp_right (hS _), h.1.free⟩, h.2⟩
  | legacy b => exact ⟨h.1, fun s r hr => hS r (h.2 s r hr)⟩

lemma from_make (S : Order → Prop) (mode : EngineMode) : (makeOrderBook mode).From S := by
  cases mode with
  | current =>
    refine ⟨⟨fun _ => Or.inl rfl, ?_⟩, fun _ => ⟨rfl, fun _ => rfl⟩⟩
    intro i hi
    exact (Nat.zero_add maxOrders) ▸ (List.mem_range'_1.mp hi).2
  | legacy =>
    refine ⟨OrderBookLegacy.inv_new, ?_⟩
    intro s r hr
    rw [OrderBookLegacy.resting_new] at hr
    exact absurd hr List.not_mem_nil

lemma From.setTradeListener (h : b.From S) (l : Bool) : (b.setTradeListener l).From S := by
  cases b with
  | current b => exact ⟨⟨h.1.node, h.1.free⟩, h.2⟩
  | legacy b => exact ⟨OrderBookLegacy.Inv.listen h.1 l, h.2⟩

/-- **A submission** numbers its order, and afterwards the book may hold it too. -/
theorem From.submit {r : Processed AnyBook} (hS : OrderBook.QuantityFree S) (h : b.From S)
    (hcan : b.canProcessOrder o = true) (hcounter : b.orderIdCounter + 1 < 2 ^ 32)
    (hrun : b.processOrder fuel o = some r) : r.book.mode = b.mode ∧
      r.book.orderIdCounter = b.orderIdCounter + 1 ∧
      Numbers b.mode (b.orderIdCounter + 1) r.order.id ∧
      r.book.From fun x => S x ∨ ∃ q, x = { o with id := r.order.id, quantity := q } := by
  cases b with
  | current b =>
    rw [processOrder, OrderBook.engine_processOrder] at hrun
    obtain ⟨r', hrun', rfl⟩ := Option.map_eq_some_iff.mp hrun
    obtain ⟨i, hi, hhead, hid, hnext, horigin⟩ :=
      OrderBook.processOrder_origin hS h.1 hcounter hrun'
    refine ⟨rfl, hnext, ⟨i, hi, hid, ?_⟩, horigin, ?_⟩
    · intro hone
      have hzero : b.orderIdCounter = 0 := Nat.succ.inj hone
      rw [(h.2 hzero).1] at hhead
      exact (Option.some.inj hhead).symm
    · intro hzero
      exact absurd (hnext.symm.trans hzero) (Nat.succ_ne_zero _)
  | legacy b =>
    rw [processOrder, OrderBookLegacy.engine_processOrder] at hrun
    obtain rfl := Option.some.inj hrun
    have hs := OrderBookLegacy.processOrder_spec h.1 hcan (lt_trans hcounter (by decide))
    have hid : (Processed.map legacy (OrderBookLegacy.processOrder o.side b o)).order.id
        = b.orderIdCounter + 1 := by
      rw [Processed.map, hs.order]
    refine ⟨rfl, hs.counter, hid, hs.inv, ?_⟩
    intro s x hx
    have hx : x ∈ b.resting.submit { o with id := b.orderIdCounter + 1 } s := hs.resting ▸ hx
    rcases Book.mem_submit (o := { o with id := b.orderIdCounter + 1 }) h.1.valid.pos hx with
      ⟨-, rfl⟩ | ⟨a, ha, q, rfl⟩
    · rw [hid]
      exact Or.inr ⟨_, rfl⟩
    · exact Or.inl (hS a _ (h.2 s a ha))

/-- **A cancellation** hands out an order of the book under the id it was asked for. -/
theorem From.cancel {out : Option Order} (h : b.From S)
    (hrun : b.cancelOrder id userId = some (b', out)) : b'.mode = b.mode ∧
      b'.orderIdCounter = b.orderIdCounter ∧ b'.From S ∧
      ∀ x ∈ out, x.id = id ∧ (id = 0 ∨ S x) := by
  cases b with
  | current b =>
    obtain ⟨⟨b₁, out₁⟩, hrun', heq⟩ := Option.map_eq_some_iff.mp hrun
    obtain ⟨rfl, rfl⟩ := Prod.mk.inj heq
    have hk := OrderBook.cancelOrder_origin h.1 hrun'
    refine ⟨rfl, hk.counter, ⟨hk.origin, ?_⟩, ?_⟩
    · intro hzero
      obtain ⟨hhead, hids⟩ := h.2 (hk.counter.symm.trans hzero)
      -- nothing but id zero can be found in the nodes
      have hnone : b.Origin fun _ => False := ⟨fun i => Or.inl (hids i), h.1.free⟩
      have hk' := OrderBook.cancelOrder_origin hnone hrun'
      refine ⟨?_, fun i => (hk'.origin.node i).resolve_right fun hf => hf⟩
      rcases hk'.free with hfree | ⟨hid, hfree⟩
      · rw [hfree, hhead]
      · rw [hids] at hid
        rw [hfree, ← hid, Nat.zero_and, List.head?_cons]
    · intro x hx
      obtain ⟨hid, hx⟩ := hk.out x hx
      exact ⟨hid, hx.imp_left hid.symm.trans⟩
  | legacy b =>
    obtain ⟨⟨b₁, out₁⟩, hrun', heq⟩ := Option.map_eq_some_iff.mp hrun
    obtain ⟨rfl, rfl⟩ := Prod.mk.inj heq
    obtain ⟨b₂, hspec, hc⟩ := OrderBookLegacy.cancelOrder_spec h.1 id userId
    rw [hrun', Option.some.injEq, Prod.mk.injEq] at hspec
    obtain ⟨rfl, rfl⟩ := hspec
    refine ⟨rfl, hc.counter, ⟨hc.inv, ?_⟩, ?_⟩
    · intro s r hr
      have hr : r ∈ (b.resting.cancel id userId).1 s := hc.resting ▸ hr
      exact h.2 s r ((Book.cancel_sublist _ _ _ s).subset hr)
    · intro x hx
      obtain ⟨⟨s, hmem⟩, hid, -⟩ :=
        (Book.find_eq_some_iff (OrderBookLegacy.Inv.valid h.1)).mp hx
      exact ⟨hid, Or.inr (h.2 s x hmem)⟩

end AnyBook

namespace Server

/-! ### Histories -/

/-- An order, with its id, that a book of an instrument accepted: the books had been replaced
`epoch` times, and it was the `number`-th order of that book. -/
structure Accepted where
  companyId : Nat
  epoch : Nat
  mode : EngineMode
  number : Nat
  order : Order
deriving DecidableEq, Repr

/-- An order that a CANCEL task for `orderId` removed. -/
structure Removed where
  companyId : Nat
  epoch : Nat
  orderId : Nat
  order : Order
deriving DecidableEq, Repr

/-- What an ORDER task adds to the history. -/
def accepts (fuel : Nat) (m : MarketState) (epoch companyId : Nat) (o : Order) : List Accepted :=
  match m.findInstrument companyId with
  | none => []
  | some book =>
    if book.canProcessOrder o then
      match book.processOrder fuel o with
      | none => []
      | some r => [⟨companyId, epoch, m.engineMode, book.orderIdCounter + 1,
          { o with id := r.order.id }⟩]
    else []

/-- What a CANCEL task adds to the history. -/
def removes (m : MarketState) (epoch companyId orderId : Nat) (userId : Int) : List Removed :=
  match m.findInstrument companyId with
  | none => []
  | some book =>
    match book.cancelOrder orderId userId with
    | some (_, some cancelled) => [⟨companyId, epoch, orderId, cancelled⟩]
    | _ => []

/-- The tasks of the engine thread, one after the other: the market they lead to, how often the
books were replaced, and the orders accepted and removed. -/
inductive Life (m₀ : MarketState) : MarketState → Nat → List Accepted → List Removed → Prop
  | start : Life m₀ m₀ 0 [] []
  | order {m : MarketState} {n fuel c : Nat} {as : List Accepted} {rs : List Removed} {o : Order}
      {e : Effect} (h : Life m₀ m n as rs) (hrun : runTask fuel m (.order c o) = some e) :
      Life m₀ e.market n (as ++ accepts fuel m n c o) rs
  | cancel {m : MarketState} {n fuel c id : Nat} {as : List Accepted} {rs : List Removed}
      {userId : Int} {e : Effect} (h : Life m₀ m n as rs)
      (hrun : runTask fuel m (.cancel c id userId) = some e) :
      Life m₀ e.market n as (rs ++ removes m n c id userId)
  | switchEngine {m : MarketState} {n fuel : Nat} {as : List Accepted} {rs : List Removed}
      {mode : EngineMode} {e : Effect} (h : Life m₀ m n as rs)
      (hrun : runTask fuel m (.switchEngine mode) = some e) :
      Life m₀ e.market (if mode = m.engineMode then n else n + 1) as rs
  | snapshot {m : MarketState} {n fuel c : Nat} {as : List Accepted} {rs : List Removed} {e : Effect}
      (h : Life m₀ m n as rs) (hrun : runTask fuel m (.snapshot c) = some e) :
      Life m₀ e.market n as rs

/-- **An id never comes back**: the orders of an instrument have different ids, and a CANCEL task
with the id of an accepted order removes that order, out of the book that accepted it. -/
structure NeverBack (as : List Accepted) (rs : List Removed) : Prop where
  distinct : ∀ c, ((as.filter fun a => decide (a.companyId = c)).map fun a => a.order.id).Nodup
  exact : ∀ r ∈ rs, ∀ a ∈ as, a.companyId = r.companyId → a.order.id = r.orderId →
    a.epoch = r.epoch ∧ ∃ q, r.order = { a.order with quantity := q }

/-! ### What a history looks like -/

/-- The engine in force after `epoch` replacements. -/
def modeAt (epoch : Nat) : EngineMode := if epoch % 2 = 0 then .current else .legacy

/-- The orders of one book, whatever is left of them. -/
def Given (as : List Accepted) (c epoch : Nat) (x : Order) : Prop :=
  ∃ a ∈ as, a.companyId = c ∧ a.epoch = epoch ∧ ∃ q, x = { a.order with quantity := q }

/-- A book of the instrument in force holds orders it accepted, and has counted them. -/
structure BookLived (as : List Accepted) (c epoch : Nat) (b : AnyBook) : Prop where
  mode : b.mode = modeAt epoch
  origin : b.From (Given as c epoch)
  counted : ∀ a ∈ as, a.companyId = c → a.epoch = epoch → a.number ≤ b.orderIdCounter
  first : 0 < b.orderIdCounter →
    ∃ a ∈ as, a.companyId = c ∧ a.epoch = epoch ∧ a.number = 1

/-- What holds of every accepted order. -/
structure AcceptedLived (as : List Accepted) (epoch : Nat) (a : Accepted) : Prop where
  epoch : a.epoch ≤ epoch
  mode : a.mode = modeAt a.epoch
  number : 0 < a.number
  id : AnyBook.Numbers a.mode a.number a.order.id
  first : ∃ a₁ ∈ as, a₁.companyId = a.companyId ∧ a₁.epoch = a.epoch ∧ a₁.number = 1

/-- `a` was accepted before `a'`, as far as they are orders of one instrument. -/
def Earlier (a a' : Accepted) : Prop := a.companyId = a'.companyId →
  a.epoch < a'.epoch ∨ a.epoch = a'.epoch ∧ a.number < a'.number

/-- The invariant of histories. -/
structure Lived (m : MarketState) (n : Nat) (as : List Accepted) (rs : List Removed) : Prop where
  mode : m.engineMode = modeAt n
  book : ∀ c b, m.findInstrument c = some b → BookLived as c n b
  accepted : ∀ a ∈ as, AcceptedLived as n a
  ordered : as.Pairwise Earlier
  removed : ∀ r ∈ rs, r.orderId = 0 ∨ ∃ a ∈ as, a.companyId = r.companyId ∧ a.epoch = r.epoch ∧
    a.order.id = r.orderId ∧ ∃ q, r.order = { a.order with quantity := q }

section Steps

variable {m : MarketState} {n fuel c id : Nat} {as as' : List Accepted} {rs : List Removed}
  {a : Accepted} {b b' : AnyBook} {o : Order} {userId : Int} {mode : EngineMode}

lemma quantityFree_given (as : List Accepted) (c n : Nat) :
    OrderBook.QuantityFree (Given as c n) := by
  rintro x q ⟨a, ha, hc, hn, q', rfl⟩
  exact ⟨a, ha, hc, hn, q, rfl⟩

lemma Given.mono {x : Order} (hsub : as ⊆ as') (h : Given as c n x) : Given as' c n x := by
  obtain ⟨a, ha, hrest⟩ := h
  exact ⟨a, hsub ha, hrest⟩

lemma AcceptedLived.mono (hsub : as ⊆ as') (h : AcceptedLived as n a) : AcceptedLived as' n a where
  epoch := h.epoch
  mode := h.mode
  number := h.number
  id := h.id
  first := by
    obtain ⟨a₁, ha₁, hrest⟩ := h.first
    exact ⟨a₁, hsub ha₁, hrest⟩

/-- The books of the other instruments do not notice a new order. -/
lemma BookLived.append (h : BookLived as c n b) (hne : a.companyId ≠ c) :
    BookLived (as ++ [a]) c n b where
  mode := h.mode
  origin := h.origin.mono fun r hr => hr.mono (List.subset_append_left as [a])
  counted a' ha' hc hn := by
    rcases List.mem_append.mp ha' with ha' | ha'
    · exact h.counted a' ha' hc hn
    · rw [List.mem_singleton.mp ha'] at hc
      exact absurd hc hne
  first hpos := by
    obtain ⟨a₁, ha₁, hrest⟩ := h.first hpos
    exact ⟨a₁, List.mem_append_left _ ha₁, hrest⟩

lemma findInstrument_setBook_cases {d : Nat} {b' x : AnyBook}
    (h : (m.setBook c b').findInstrument d = some x) :
    d = c ∧ x = b' ∨ d ≠ c ∧ m.findInstrument d = some x := by
  rw [MarketState.findInstrument_setBook] at h
  split_ifs at h with hd
  · exact Or.inl ⟨hd, (Option.some.inj h).symm⟩
  · exact Or.inr ⟨hd, h⟩

/-- **An accepted order** gets the next number of its book. -/
lemma Lived.accept {r : Processed AnyBook} (h : Lived m n as rs)
    (hfind : m.findInstrument c = some b) (hcan : b.canProcessOrder o = true)
    (hcounter : b.orderIdCounter + 1 < 2 ^ 32) (hrun : b.processOrder fuel o = some r) :
    Lived (m.setBook c r.book) n
      (as ++ [⟨c, n, m.engineMode, b.orderIdCounter + 1, { o with id := r.order.id }⟩]) rs := by
  have hb := h.book c b hfind
  obtain ⟨hmode, hnext, hid, horigin⟩ :=
    hb.origin.submit (quantityFree_given as c n) hcan hcounter hrun
  generalize hx : (⟨c, n, m.engineMode, b.orderIdCounter + 1, { o with id := r.order.id }⟩ :
    Accepted) = x
  have hxc : x.companyId = c := by rw [← hx]
  have hxn : x.epoch = n := by rw [← hx]
  have hxnumber : x.number = b.orderIdCounter + 1 := by rw [← hx]
  have hxmem : x ∈ as ++ [x] := List.mem_append_right _ (List.mem_singleton.mpr rfl)
  have hsub : as ⊆ as ++ [x] := List.subset_append_left as [x]
  have hfirst : ∃ a₁ ∈ as ++ [x], a₁.companyId = c ∧ a₁.epoch = n ∧ a₁.number = 1 := by
    rcases Nat.eq_zero_or_pos b.orderIdCounter with hzero | hpos
    · exact ⟨x, hxmem, hxc, hxn, by rw [hxnumber, hzero]⟩
    · obtain ⟨a₁, ha₁, hrest⟩ := hb.first hpos
      exact ⟨a₁, hsub ha₁, hrest⟩
  refine ⟨h.mode, ?_, ?_, ?_, ?_⟩
  · intro d y hy
    rcases findInstrument_setBook_cases hy with ⟨rfl, rfl⟩ | ⟨hd, hy⟩
    · refine ⟨hmode.trans hb.mode, ?_, ?_, fun _ => hfirst⟩
      · apply horigin.mono
        rintro y (hy | ⟨q, rfl⟩)
        · exact hy.mono hsub
        · exact ⟨x, hxmem, hxc, hxn, q, by rw [← hx]⟩
      · intro a ha hac han
        rw [hnext]
        rcases List.mem_append.mp ha with ha | ha
        · exact (hb.counted a ha hac han).trans (Nat.le_succ _)
        · rw [List.mem_singleton.mp ha, hxnumber]
    · exact (h.book d y hy).append (hxc.trans_ne hd.symm)
  · intro a ha
    rcases List.mem_append.mp ha with ha | ha
    · exact (h.accepted a ha).mono hsub
    · rw [List.mem_singleton.mp ha]
      refine ⟨hxn.le, ?_, ?_, ?_, ?_⟩
      · rw [hxn, ← hx]
        exact h.mode
      · rw [hxnumber]
        exact Nat.succ_pos _
      · rw [← hx]
        simp only
        rwa [h.mode, ← hb.mode]
      · rw [hxc, hxn]
        exact hfirst
  · rw [List.pairwise_append]
    refine ⟨h.ordered, List.pairwise_singleton _ _, ?_⟩
    intro a ha a' ha' hac
    rw [List.mem_singleton.mp ha'] at hac ⊢
    rw [hxn, hxnumber]
    rcases Nat.lt_or_eq_of_le (h.accepted a ha).epoch with hlt | heq
    · exact Or.inl hlt
    · exact Or.inr ⟨heq, Nat.lt_succ_of_le (hb.counted a ha (hac.trans hxc) heq)⟩
  · intro r hr
    apply (h.removed r hr).imp_right
    rintro ⟨a, ha, hrest⟩
    exact ⟨a, hsub ha, hrest⟩

/-- **A cancellation** removes an order of the book in force, under the id asked for. -/
lemma Lived.remove {out : Option Order} (h : Lived m n as rs)
    (hfind : m.findInstrument c = some b) (hrun : b.cancelOrder id userId = some (b', out)) :
    Lived (m.setBook c b') n as (rs ++ out.toList.map fun x => ⟨c, n, id, x⟩) := by
  have hb := h.book c b hfind
  obtain ⟨hmode, hcounter, horigin, hout⟩ := hb.origin.cancel hrun
  refine ⟨h.mode, ?_, h.accepted, h.ordered, ?_⟩
  · intro d y hy
    rcases findInstrument_setBook_cases hy with ⟨rfl, rfl⟩ | ⟨-, hy⟩
    · refine ⟨hmode.trans hb.mode, horigin, ?_, ?_⟩
      · rw [hcounter]
        exact hb.counted
      · rw [hcounter]
        exact hb.first
    · exact h.book d y hy
  · intro r hr
    rcases List.mem_append.mp hr with hr | hr
    · exact h.removed r hr
    · obtain ⟨x, hx, rfl⟩ := List.mem_map.mp hr
      obtain ⟨hid, hgiven⟩ := hout x (Option.mem_toList.mp hx)
      apply hgiven.imp_right
      rintro ⟨a, ha, hac, han, q, rfl⟩
      exact ⟨a, ha, hac, han, hid, q, rfl⟩

lemma eq_modeAt_succ (h : mode ≠ modeAt n) : mode = modeAt (n + 1) := by
  have hparity : (n + 1) % 2 = 0 ↔ ¬ n % 2 = 0 := by omega
  rw [modeAt] at h ⊢
  by_cases hn : n % 2 = 0
  · rw [if_pos hn] at h
    rw [if_neg fun hs => hparity.mp hs hn]
    cases mode with
    | current => exact absurd rfl h
    | legacy => rfl
  · rw [if_neg hn] at h
    rw [if_pos (hparity.mpr hn)]
    cases mode with
    | current => rfl
    | legacy => exact absurd rfl h

/-- **A switch** starts books that have accepted nothing. -/
lemma Lived.switch (h : Lived m n as rs) (hmode : mode ≠ m.engineMode) :
    Lived (m.setEngineMode mode) (n + 1) as rs := by
  have hnext : mode = modeAt (n + 1) := eq_modeAt_succ (h.mode ▸ hmode)
  refine ⟨?_, ?_, ?_, h.ordered, h.removed⟩
  · rw [MarketState.setEngineMode, if_neg hmode]
    exact hnext
  · intro c b hb
    rw [MarketState.findInstrument_setEngineMode m c hmode] at hb
    obtain ⟨-, -, rfl⟩ := Option.map_eq_some_iff.mp hb
    refine ⟨?_, AnyBook.from_make _ mode, ?_, ?_⟩
    · rw [← hnext]
      cases mode <;> rfl
    · intro a ha _ han
      have hle := (h.accepted a ha).epoch
      rw [han] at hle
      exact absurd hle (Nat.not_succ_le_self n)
    · intro hpos
      cases mode with
      | current => exact absurd hpos (Nat.lt_irrefl 0)
      | legacy => exact absurd hpos (Nat.lt_irrefl 0)
  · intro a ha
    have hacc := h.accepted a ha
    exact ⟨hacc.epoch.trans (Nat.le_succ n), hacc.mode, hacc.number, hacc.id, hacc.first⟩

end Steps

section Run

variable {m₀ m : MarketState} {n c id : Nat} {as : List Accepted} {rs : List Removed}
  {companies : List Nat} {db : Database}

lemma lived_start (hm : MarketState.new companies = .ok m₀) :
    Lived (start m₀ db).market 0 [] [] := by
  simp only [MarketState.new] at hm
  split_ifs at hm
  obtain rfl := Except.ok.inj hm
  refine ⟨rfl, ?_, by simp, List.Pairwise.nil, by simp⟩
  intro c b hb
  have hbook : b = (makeOrderBook .current).setTradeListener true := by
    rw [MarketState.findInstrument, Server.start] at hb
    simp only at hb
    split_ifs at hb
    exact (Option.some.inj hb).symm
  subst hbook
  refine ⟨rfl, (AnyBook.from_make _ _).setTradeListener true, by simp, ?_⟩
  exact fun hpos => absurd hpos (Nat.lt_irrefl 0)

lemma Lived.order {fuel : Nat} {o : Order} {e : Effect} (h : Lived m n as rs)
    (hcounter : ∀ a ∈ accepts fuel m n c o, a.number < 2 ^ 32)
    (hrun : runTask fuel m (.order c o) = some e) :
    Lived e.market n (as ++ accepts fuel m n c o) rs := by
  rw [accepts] at hcounter ⊢
  cases runTask_branch hrun with
  | orderUnlisted o hfind =>
    rw [hfind]
    rwa [List.append_nil]
  | orderRefused hfind hcan =>
    simp only [hfind, hcan, Bool.false_eq_true, if_false]
    rwa [List.append_nil]
  | orderProcessed hfind hcan hprocess =>
    simp only [hfind, hcan, hprocess, if_true] at hcounter ⊢
    exact h.accept hfind hcan (hcounter _ (List.mem_singleton.mpr rfl)) hprocess

lemma Lived.cancel {fuel : Nat} {userId : Int} {e : Effect} (h : Lived m n as rs)
    (hrun : runTask fuel m (.cancel c id userId) = some e) :
    Lived e.market n as (rs ++ removes m n c id userId) := by
  rw [removes]
  cases runTask_branch hrun with
  | cancelUnlisted id userId hfind =>
    rw [hfind]
    rwa [List.append_nil]
  | cancelMissed hfind hcancel =>
    simp only [hfind, hcancel]
    exact h.remove hfind hcancel
  | cancelled hfind hcancel =>
    simp only [hfind, hcancel]
    exact h.remove hfind hcancel

/-- **Every history is of this kind**, as long as no book counts `2 ^ 32` orders. -/
theorem Life.lived (hm : MarketState.new companies = .ok m₀)
    (h : Life (Server.start m₀ db).market m n as rs) (hcounter : ∀ a ∈ as, a.number < 2 ^ 32) :
    Lived m n as rs := by
  induction h with
  | start => exact lived_start hm
  | order h hrun ih =>
    refine (ih fun a ha => hcounter a (List.mem_append_left _ ha)).order ?_ hrun
    exact fun a ha => hcounter a (List.mem_append_right _ ha)
  | cancel h hrun ih => exact (ih hcounter).cancel hrun
  | @switchEngine m n fuel as rs mode e h hrun ih =>
    obtain rfl := Option.some.inj hrun
    by_cases hmode : mode = m.engineMode
    · rw [if_pos hmode, hmode, MarketState.setEngineMode_self]
      exact ih hcounter
    · rw [if_neg hmode]
      exact (ih hcounter).switch hmode
  | snapshot h hrun ih =>
    obtain rfl := Option.some.inj hrun
    exact ih hcounter

/-! ### When ids come back -/

/-- Ids of different numbers of one engine differ. -/
lemma numbers_ne {mode : EngineMode} {k k' i i' : Nat} (h : AnyBook.Numbers mode k i)
    (h' : AnyBook.Numbers mode k' i') (hne : k ≠ k') : i ≠ i' := by
  cases mode with
  | current =>
    obtain ⟨j, hj, hi, -⟩ := h
    obtain ⟨j', hj', hi', -⟩ := h'
    simp only [maxOrders] at hj hj'
    omega
  | legacy => exact fun heq => hne (h.symm.trans (heq.trans h'))

/-- No order has id zero. -/
lemma numbers_ne_zero {mode : EngineMode} {k i : Nat} (h : AnyBook.Numbers mode k i) (hk : 0 < k) :
    i ≠ 0 := by
  cases mode with
  | current =>
    obtain ⟨j, -, rfl, -⟩ := h
    exact (Nat.add_pos_left (Nat.mul_pos hk (Nat.two_pow_pos 32)) j).ne'
  | legacy => exact fun hi => hk.ne' (h.symm.trans hi)

/-- Ids of different engines differ. -/
lemma numbers_mode_ne {mode mode' : EngineMode} {k k' i i' : Nat} (h : AnyBook.Numbers mode k i)
    (h' : AnyBook.Numbers mode' k' i') (hmode : mode ≠ mode') (hk : 0 < k) (hk' : 0 < k')
    (hlt : k < 2 ^ 32) (hlt' : k' < 2 ^ 32) : i ≠ i' := by
  cases mode with
  | current =>
    cases mode' with
    | current => exact absurd rfl hmode
    | legacy =>
      obtain ⟨j, hj, rfl, -⟩ := h
      rw [h']
      omega
  | legacy =>
    cases mode' with
    | current =>
      obtain ⟨j, hj, rfl, -⟩ := h'
      rw [h]
      omega
    | legacy => exact absurd rfl hmode

/-- The first orders of two books of one engine get the same id. -/
lemma numbers_one {mode : EngineMode} {i i' : Nat} (h : AnyBook.Numbers mode 1 i)
    (h' : AnyBook.Numbers mode 1 i') : i = i' := by
  cases mode with
  | current =>
    obtain ⟨j, -, hi, hj⟩ := h
    obtain ⟨j', -, hi', hj'⟩ := h'
    rw [hi, hi', hj rfl, hj' rfl]
  | legacy => exact h.trans h'.symm

/-- No instrument accepts orders in two books of the same engine. -/
def OneBookEach (as : List Accepted) : Prop := ∀ a ∈ as, ∀ a' ∈ as, a.companyId = a'.companyId →
  a.mode = a'.mode → a.epoch = a'.epoch

instance (as : List Accepted) : Decidable (OneBookEach as) :=
  inferInstanceAs (Decidable (∀ a ∈ as, _))

lemma Lived.id_ne (h : Lived m n as rs) (hcounter : ∀ a ∈ as, a.number < 2 ^ 32)
    (hone : OneBookEach as) {a a' : Accepted} (ha : a ∈ as) (ha' : a' ∈ as)
    (hc : a.companyId = a'.companyId) (hearlier : Earlier a a') : a.order.id ≠ a'.order.id := by
  have hacc := h.accepted a ha
  have hacc' := h.accepted a' ha'
  by_cases hmode : a.mode = a'.mode
  · have hepoch := hone a ha a' ha' hc hmode
    rcases hearlier hc with hlt | ⟨-, hlt⟩
    · exact absurd hepoch hlt.ne
    · exact numbers_ne hacc.id (hmode ▸ hacc'.id) hlt.ne
  · exact numbers_mode_ne hacc.id hacc'.id hmode hacc.number hacc'.number (hcounter a ha)
      (hcounter a' ha')

lemma Lived.distinct (h : Lived m n as rs) (hcounter : ∀ a ∈ as, a.number < 2 ^ 32)
    (hone : OneBookEach as) (c : Nat) :
    ((as.filter fun a => decide (a.companyId = c)).map fun a => a.order.id).Nodup := by
  rw [List.Nodup, List.pairwise_map]
  refine List.Pairwise.imp_of_mem ?_ (h.ordered.filter _)
  intro a a' ha ha' hearlier
  obtain ⟨ha, hc⟩ := List.mem_filter.mp ha
  obtain ⟨ha', hc'⟩ := List.mem_filter.mp ha'
  exact h.id_ne hcounter hone ha ha' ((of_decide_eq_true hc).trans (of_decide_eq_true hc').symm)
    hearlier

/-- **Ids never come back exactly when no instrument accepts orders in two books of the same
engine**, over every sequence of tasks in which no book counts `2 ^ 32` orders. -/
theorem neverBack_iff (hm : MarketState.new companies = .ok m₀)
    (h : Life (start m₀ db).market m n as rs) (hcounter : ∀ a ∈ as, a.number < 2 ^ 32) :
    NeverBack as rs ↔ OneBookEach as := by
  have hl := h.lived hm hcounter
  constructor
  · intro hback a ha a' ha' hc hmode
    by_contra hepoch
    obtain ⟨a₁, ha₁, hc₁, he₁, hn₁⟩ := (hl.accepted a ha).first
    obtain ⟨a₂, ha₂, hc₂, he₂, hn₂⟩ := (hl.accepted a' ha').first
    -- the first orders of the two books have the same id
    have hid : a₁.order.id = a₂.order.id := by
      have h₁ := (hl.accepted a₁ ha₁)
      have h₂ := (hl.accepted a₂ ha₂)
      have hmode₁ : a₁.mode = a.mode := by rw [h₁.mode, (hl.accepted a ha).mode, he₁]
      have hmode₂ : a₂.mode = a.mode := by rw [h₂.mode, hmode, (hl.accepted a' ha').mode, he₂]
      have hid₁ := h₁.id
      have hid₂ := h₂.id
      rw [hmode₁, hn₁] at hid₁
      rw [hmode₂, hn₂] at hid₂
      exact numbers_one hid₁ hid₂
    have hmem₁ : a₁ ∈ as.filter fun x => decide (x.companyId = a.companyId) :=
      List.mem_filter.mpr ⟨ha₁, decide_eq_true hc₁⟩
    have hmem₂ : a₂ ∈ as.filter fun x => decide (x.companyId = a.companyId) :=
      List.mem_filter.mpr ⟨ha₂, decide_eq_true (hc₂.trans hc.symm)⟩
    have heq := List.inj_on_of_nodup_map (hback.distinct a.companyId) hmem₁ hmem₂ hid
    exact hepoch (he₁.symm.trans ((congrArg Accepted.epoch heq).trans he₂))
  · intro hone
    refine ⟨hl.distinct hcounter hone, ?_⟩
    intro r hr a ha hc hid
    rcases hl.removed r hr with hzero | ⟨a', ha', hc', he', hid', hq⟩
    · have hacc := hl.accepted a ha
      exact absurd (hid.trans hzero) (numbers_ne_zero hacc.id hacc.number)
    · have hmem : a ∈ as.filter fun x => decide (x.companyId = r.companyId) :=
        List.mem_filter.mpr ⟨ha, decide_eq_true hc⟩
      have hmem' : a' ∈ as.filter fun x => decide (x.companyId = r.companyId) :=
        List.mem_filter.mpr ⟨ha', decide_eq_true hc'⟩
      have heq := List.inj_on_of_nodup_map (hl.distinct hcounter hone r.companyId) hmem hmem'
        (hid.trans hid'.symm)
      rw [heq]
      exact ⟨he', hq⟩

end Run

/-! ### Switching away and back -/

/-- Two bids of one user. -/
def sampleEarly : Order := ⟨0, 7, 0, 100, 5, 1, true⟩
def sampleLate : Order := ⟨0, 7, 1, 99, 3, 1, true⟩

/-- The id of the first order of an `OrderBook`. -/
def sampleId : Nat := 4294967296

lemma sampleReturn_run : ∃ e₁ e₂ e₃ e₄ e₅,
    runTask 100001 (start sampleMarket sampleDb).market (.order 1 sampleEarly) = some e₁ ∧
    runTask 100001 e₁.market (.switchEngine .legacy) = some e₂ ∧
    runTask 100001 e₂.market (.switchEngine .current) = some e₃ ∧
    runTask 100001 e₃.market (.order 1 sampleLate) = some e₄ ∧
    runTask 100001 e₄.market (.cancel 1 sampleId 7) = some e₅ ∧
    e₁.market.engineMode = .current ∧ e₂.market.engineMode = .legacy ∧
    accepts 100001 (start sampleMarket sampleDb).market 0 1 sampleEarly
      = [⟨1, 0, .current, 1, { sampleEarly with id := sampleId }⟩] ∧
    accepts 100001 e₃.market 2 1 sampleLate
      = [⟨1, 2, .current, 1, { sampleLate with id := sampleId }⟩] ∧
    removes e₄.market 2 1 sampleId 7 = [⟨1, 2, sampleId, { sampleLate with id := sampleId }⟩] := by
  have hrun : ((runTask 100001 (start sampleMarket sampleDb).market
      (.order 1 sampleEarly)).bind fun e₁ =>
      (runTask 100001 e₁.market (.switchEngine .legacy)).bind fun e₂ =>
      (runTask 100001 e₂.market (.switchEngine .current)).bind fun e₃ =>
      (runTask 100001 e₃.market (.order 1 sampleLate)).bind fun e₄ =>
      (runTask 100001 e₄.market (.cancel 1 sampleId 7)).map fun _ => decide (
        e₁.market.engineMode = .current ∧ e₂.market.engineMode = .legacy ∧
        accepts 100001 (start sampleMarket sampleDb).market 0 1 sampleEarly
          = [⟨1, 0, .current, 1, { sampleEarly with id := sampleId }⟩] ∧
        accepts 100001 e₃.market 2 1 sampleLate
          = [⟨1, 2, .current, 1, { sampleLate with id := sampleId }⟩] ∧
        removes e₄.market 2 1 sampleId 7
          = [⟨1, 2, sampleId, { sampleLate with id := sampleId }⟩])) = some true := by
    decide +kernel
  obtain ⟨e₁, h₁, hrun⟩ := Option.bind_eq_some_iff.mp hrun
  obtain ⟨e₂, h₂, hrun⟩ := Option.bind_eq_some_iff.mp hrun
  obtain ⟨e₃, h₃, hrun⟩ := Option.bind_eq_some_iff.mp hrun
  obtain ⟨e₄, h₄, hrun⟩ := Option.bind_eq_some_iff.mp hrun
  obtain ⟨e₅, h₅, hrun⟩ := Option.map_eq_some_iff.mp hrun
  exact ⟨e₁, e₂, e₃, e₄, e₅, h₁, h₂, h₃, h₄, h₅, of_decide_eq_true hrun⟩

/-- After a switch to LEGACY and back, the id of a discarded order is given again, and cancelling it
removes the later order. -/
theorem id_back_after_switches : ∃ m n as rs,
    Life (start sampleMarket sampleDb).market m n as rs ∧ ¬ NeverBack as rs ∧
      ∃ r ∈ rs, ∃ a ∈ as, a.companyId = r.companyId ∧ a.order.id = r.orderId ∧
        a.epoch ≠ r.epoch := by
  obtain ⟨e₁, e₂, e₃, e₄, e₅, h₁, h₂, h₃, h₄, h₅, hmode₁, hmode₂, hacc₁, hacc₂, hrem⟩ :=
    sampleReturn_run
  have hlife := ((((Life.start.order h₁).switchEngine h₂).switchEngine h₃).order h₄).cancel h₅
  rw [hmode₁, hmode₂, if_neg (by decide), if_neg (by decide), hacc₁, hacc₂, hrem] at hlife
  refine ⟨_, _, _, _, hlife, ?_, _, List.mem_singleton.mpr rfl, _, List.mem_cons_self, rfl, rfl,
    by decide⟩
  intro hback
  exact absurd (hback.distinct 1) (by decide)

lemma sampleSwitch_run : ∃ e₁ e₂ e₃ e₄,
    runTask 100001 (start sampleMarket sampleDb).market (.order 1 sampleEarly) = some e₁ ∧
    runTask 100001 e₁.market (.switchEngine .legacy) = some e₂ ∧
    runTask 100001 e₂.market (.order 1 sampleLate) = some e₃ ∧
    runTask 100001 e₃.market (.cancel 1 1 7) = some e₄ ∧
    e₁.market.engineMode = .current ∧
    accepts 100001 (start sampleMarket sampleDb).market 0 1 sampleEarly
      = [⟨1, 0, .current, 1, { sampleEarly with id := sampleId }⟩] ∧
    accepts 100001 e₂.market 1 1 sampleLate = [⟨1, 1, .legacy, 1, { sampleLate with id := 1 }⟩] ∧
    removes e₃.market 1 1 1 7 = [⟨1, 1, 1, { sampleLate with id := 1 }⟩] := by
  have hrun : ((runTask 100001 (start sampleMarket sampleDb).market
      (.order 1 sampleEarly)).bind fun e₁ =>
      (runTask 100001 e₁.market (.switchEngine .legacy)).bind fun e₂ =>
      (runTask 100001 e₂.market (.order 1 sampleLate)).bind fun e₃ =>
      (runTask 100001 e₃.market (.cancel 1 1 7)).map fun _ => decide (
        e₁.market.engineMode = .current ∧
        accepts 100001 (start sampleMarket sampleDb).market 0 1 sampleEarly
          = [⟨1, 0, .current, 1, { sampleEarly with id := sampleId }⟩] ∧
        accepts 100001 e₂.market 1 1 sampleLate
          = [⟨1, 1, .legacy, 1, { sampleLate with id := 1 }⟩] ∧
        removes e₃.market 1 1 1 7
          = [⟨1, 1, 1, { sampleLate with id := 1 }⟩])) = some true := by
    decide +kernel
  obtain ⟨e₁, h₁, hrun⟩ := Option.bind_eq_some_iff.mp hrun
  obtain ⟨e₂, h₂, hrun⟩ := Option.bind_eq_some_iff.mp hrun
  obtain ⟨e₃, h₃, hrun⟩ := Option.bind_eq_some_iff.mp hrun
  obtain ⟨e₄, h₄, hrun⟩ := Option.map_eq_some_iff.mp hrun
  exact ⟨e₁, e₂, e₃, e₄, h₁, h₂, h₃, h₄, of_decide_eq_true hrun⟩

/-- One switch is harmless: the books of the two engines number differently. -/
theorem neverBack_sampleEarly : ∃ m n as rs,
    Life (start sampleMarket sampleDb).market m n as rs ∧
      as.map Accepted.mode = [.current, .legacy] ∧ rs.length = 1 ∧ NeverBack as rs := by
  obtain ⟨e₁, e₂, e₃, e₄, h₁, h₂, h₃, h₄, hmode, hacc₁, hacc₂, hrem⟩ := sampleSwitch_run
  have hlife := (((Life.start.order h₁).switchEngine h₂).order h₃).cancel h₄
  rw [hmode, if_neg (by decide), hacc₁, hacc₂, hrem] at hlife
  refine ⟨_, _, _, _, hlife, rfl, rfl, ?_⟩
  exact (neverBack_iff new_sampleMarket hlife (by decide)).mpr (by decide)

end Server

end ExchangeEngine
