import ExchangeEngine.OrderBook.Basic
import Mathlib.Logic.Relation

/-!
# The branches of `OrderBook`

What the operations write in each of their branches, whatever state the book is in. The matching
loops are a sequence of steps.
-/

namespace ExchangeEngine

namespace OrderBook

open Relation

variable {b b' : OrderBook} {side : Bool} {o : Order} {fuel i : Nat} {pool pool' : Pool}

/-! ### Writes to the pool -/

lemma order_setNext {j : Nat} (h : pool.setNext i j = some pool') (k : Nat) :
    (pool' k).order = (pool k).order := by
  rw [Pool.setNext] at h
  split_ifs at h
  rw [← Option.some.inj h, Pool.withNext_order]

lemma order_setPrev {j : Nat} (h : pool.setPrev i j = some pool') (k : Nat) :
    (pool' k).order = (pool k).order := by
  rw [Pool.setPrev] at h
  split_ifs at h
  rw [← Option.some.inj h, Pool.withPrev_order]

/-! ### One fill -/

/-- A fill releases the slot or leaves something of its order. -/
inductive FillBranch (side : Bool) (price : Nat) (b : OrderBook) (i q : Nat) : OrderBook → Prop
  | all {pool pool₁ pool₂ : Pool} (list : OrderList)
      (hpool : b.nodePool.setOrder i (fun o => { o with quantity := o.quantity - q }) = some pool)
      (hzero : (pool i).order.quantity = 0) (hlinks : ∀ j, (pool₁ j).order = (pool j).order)
      (hrelease : pool₁.setOrder i (fun o => { o with id := 0 }) = some pool₂) :
      FillBranch side price b i q
        ({ b with nodePool := pool₂, freeIndices := i :: b.freeIndices }.setLevel side price list)
  | part {pool : Pool} (list : OrderList)
      (hpool : b.nodePool.setOrder i (fun o => { o with quantity := o.quantity - q }) = some pool)
      (hrest : (pool i).order.quantity ≠ 0) :
      FillBranch side price b i q ({ b with nodePool := pool }.setLevel side price list)

lemma fill_branch {price q : Nat} (h : fill side price b i q = some b') :
    FillBranch side price b i q b' := by
  simp only [fill, Option.bind_eq_bind] at h
  obtain ⟨list, -, h⟩ := Option.bind_eq_some_iff.mp h
  obtain ⟨pool, hpool, h⟩ := Option.bind_eq_some_iff.mp h
  by_cases hzero : (pool i).order.quantity = 0
  · rw [if_pos hzero] at h
    split_ifs at h
    · obtain ⟨pool₁, hprev, h⟩ := Option.bind_eq_some_iff.mp h
      obtain ⟨pool₂, hrelease, h⟩ := Option.bind_eq_some_iff.mp h
      rw [← Option.some.inj h]
      exact .all _ hpool hzero (order_setPrev hprev) hrelease
    · obtain ⟨pool₁, hsame, h⟩ := Option.bind_eq_some_iff.mp h
      obtain rfl : pool = pool₁ := Option.some.inj hsame
      obtain ⟨pool₂, hrelease, h⟩ := Option.bind_eq_some_iff.mp h
      rw [← Option.some.inj h]
      exact .all _ hpool hzero (fun _ => rfl) hrelease
  · rw [if_neg hzero] at h
    rw [← Option.some.inj h]
    exact .part _ hpool hzero

/-! ### Resting an order -/

/-- An order opens its level, which is marked, or is linked behind the tail. -/
inductive AddBranch (side : Bool) (b : OrderBook) (o : Order) : OrderBook → Prop
  | opens {pool pool' : Pool} (list : OrderList)
      (hpool : b.nodePool.setOrder (o.id &&& 0xFFFFFFFF) (fun _ => o) = some pool)
      (hlinks : ∀ j, (pool' j).order = (pool j).order) :
      AddBranch side b o
        ((setBit side { b with nodePool := pool' } o.price).setLevel side o.price list)
  | behind {pool pool' : Pool} (list : OrderList)
      (hpool : b.nodePool.setOrder (o.id &&& 0xFFFFFFFF) (fun _ => o) = some pool)
      (hlinks : ∀ j, (pool' j).order = (pool j).order) :
      AddBranch side b o ({ b with nodePool := pool' }.setLevel side o.price list)

lemma addOrder_branch (h : addOrder side b o = some b') : AddBranch side b o b' := by
  simp only [addOrder, Option.bind_eq_bind] at h
  obtain ⟨pool, hpool, h⟩ := Option.bind_eq_some_iff.mp h
  obtain ⟨pool₁, hprev, h⟩ := Option.bind_eq_some_iff.mp h
  obtain ⟨pool₂, hnext, h⟩ := Option.bind_eq_some_iff.mp h
  obtain ⟨list, -, h⟩ := Option.bind_eq_some_iff.mp h
  have hlinks : ∀ j, (pool₂ j).order = (pool j).order := fun j =>
    (order_setNext hnext j).trans (order_setPrev hprev j)
  by_cases ht : list.tailIdx = nullIdx
  · rw [if_pos ht] at h
    rw [← Option.some.inj h]
    exact .opens _ hpool hlinks
  · rw [if_neg ht] at h
    obtain ⟨pool₃, hnext', h⟩ := Option.bind_eq_some_iff.mp h
    obtain ⟨pool₄, hprev', h⟩ := Option.bind_eq_some_iff.mp h
    rw [← Option.some.inj h]
    refine .behind _ hpool fun j => ?_
    rw [order_setPrev hprev', order_setNext hnext', hlinks]

/-! ### Matching -/

/-- One step of the matching loops. -/
inductive MatchStep (side : Bool) : MatchState → MatchState → Prop
  /-- self-trade prevention -/
  | stop (st : MatchState) :
      MatchStep side st { st with incoming := { st.incoming with quantity := 0 } }
  | fill {st : MatchState} {best i : Nat} {node : OrderNode} {book : OrderBook}
      (hread : st.book.nodePool.read i = some node) (hpos : 0 < st.incoming.quantity)
      (hother : st.incoming.userId ≠ node.order.userId)
      (hfill : fill (!side) best st.book i (min st.incoming.quantity node.order.quantity)
        = some book) :
      MatchStep side st
        (let q := min st.incoming.quantity node.order.quantity
        let t := tradeOf side st.incoming node.order best q
        { book := book
          incoming := { st.incoming with quantity := st.incoming.quantity - q }
          fills := st.fills ++ [t]
          notified := if st.book.tradeListener then st.notified ++ [t] else st.notified })
  /-- nothing is left of a level -/
  | clear (st : MatchState) (best : Nat) :
      MatchStep side st { st with book := clearBit (!side) st.book best }

lemma matchLevel_steps {best : Nat} {st st' : MatchState} {stop : Option Nat}
    (h : matchLevel side best fuel st = some (st', stop)) :
    ReflTransGen (MatchStep side) st st' := by
  induction fuel generalizing st with
  | zero => cases h
  | succ fuel ih =>
    rw [matchLevel] at h
    obtain ⟨list, -, h⟩ := Option.bind_eq_some_iff.mp h
    by_cases hgo : 0 < st.incoming.quantity ∧ list.headIdx ≠ nullIdx
    · rw [if_pos hgo] at h
      obtain ⟨node, hread, h⟩ := Option.bind_eq_some_iff.mp h
      by_cases hown : st.incoming.userId = node.order.userId
      · rw [if_pos hown] at h
        obtain ⟨rfl, -⟩ := Prod.mk.inj (Option.some.inj h)
        exact .single (.stop st)
      · rw [if_neg hown] at h
        obtain ⟨book, hfill, h⟩ := Option.bind_eq_some_iff.mp h
        exact .head (.fill hread hgo.1 hown hfill) (ih h)
    · rw [if_neg hgo] at h
      obtain ⟨rfl, -⟩ := Prod.mk.inj (Option.some.inj h)
      exact .refl

lemma matchLoop_steps {lf best rej : Nat} {st st' : MatchState}
    (h : matchLoop side lf fuel best st = some (st', rej)) :
    ReflTransGen (MatchStep side) st st' := by
  induction fuel generalizing best st with
  | zero => cases h
  | succ fuel ih =>
    rw [matchLoop] at h
    split_ifs at h
    · obtain ⟨⟨st₁, stop⟩, hlevel, h⟩ := Option.bind_eq_some_iff.mp h
      have hsteps := matchLevel_steps hlevel
      cases stop with
      | some q =>
        obtain ⟨rfl, -⟩ := Prod.mk.inj (Option.some.inj h)
        exact hsteps
      | none =>
        obtain ⟨list, -, h⟩ := Option.bind_eq_some_iff.mp h
        obtain ⟨best', -, h⟩ := Option.bind_eq_some_iff.mp h
        have hrest := ih h
        split_ifs at hrest
        · exact hsteps.trans (.head (.clear st₁ best) hrest)
        · exact hsteps.trans hrest
    · obtain ⟨rfl, -⟩ := Prod.mk.inj (Option.some.inj h)
      exact .refl

/-! ### Submission -/

/-- The counter and the slot `i` are taken, and the order is matched. -/
def Matches (side : Bool) (b : OrderBook) (o : Order) (i : Nat) (st : MatchState) : Prop :=
  ReflTransGen (MatchStep side)
    { book := { b with
        orderIdCounter := (b.orderIdCounter + 1) % 2 ^ 64
        freeIndices := b.freeIndices.tail }
      incoming := { o with id := makeId ((b.orderIdCounter + 1) % 2 ^ 64) i }
      fills := []
      notified := [] } st

/-- What matching leaves of an order rests in the slot; without a rest the slot is free again. -/
inductive SubmitBranch (side : Bool) (b : OrderBook) (o : Order) : Processed → Prop
  | rests {i : Nat} {st : MatchState} {book : OrderBook} (rej : Nat)
      (hfree : b.freeIndices.head? = some i) (hmatches : Matches side b o i st)
      (hpos : 0 < st.incoming.quantity) (hadd : AddBranch side st.book st.incoming book) :
      SubmitBranch side b o ⟨book, st.incoming, rej, st.fills, st.notified⟩
  | done {i : Nat} {st : MatchState} (rej : Nat)
      (hfree : b.freeIndices.head? = some i) (hmatches : Matches side b o i st)
      (hzero : ¬ 0 < st.incoming.quantity) :
      SubmitBranch side b o
        ⟨{ st.book with freeIndices := i :: st.book.freeIndices }, st.incoming, rej, st.fills,
          st.notified⟩

lemma processOrder_branch {r : Processed} (h : processOrder side fuel b o = some r) :
    SubmitBranch side b o r := by
  simp only [processOrder] at h
  cases hfree : b.freeIndices with
  | nil => simp [hfree] at h
  | cons i free =>
    simp only [hfree, matchOrder, Option.bind_eq_bind] at h
    obtain ⟨⟨st, rej⟩, hmatch, h⟩ := Option.bind_eq_some_iff.mp h
    obtain ⟨best, -, hmatch⟩ := Option.bind_eq_some_iff.mp hmatch
    have hhead : b.freeIndices.head? = some i := by rw [hfree, List.head?_cons]
    have hmatches : Matches side b o i st := by
      rw [Matches, hfree, List.tail_cons]
      exact matchLoop_steps hmatch
    by_cases hpos : 0 < st.incoming.quantity
    · rw [if_pos hpos] at h
      obtain ⟨book, hadd, h⟩ := Option.bind_eq_some_iff.mp h
      rw [← Option.some.inj h]
      exact .rests rej hhead hmatches hpos (addOrder_branch hadd)
    · rw [if_neg hpos] at h
      rw [← Option.some.inj h]
      exact .done rej hhead hmatches hpos

/-! ### Cancellation -/

section

variable (c : Prop) [Decidable c] (b : OrderBook) (s t : Bool) (p : Nat)

@[simp] lemma levels_ite_clearBit :
    ((if c then clearBit s b p else b).half t).levels = (b.half t).levels := by
  split_ifs
  · rw [clearBit, levels_setBits]
  · rfl

@[simp] lemma freeIndices_ite_clearBit :
    (if c then clearBit s b p else b).freeIndices = b.freeIndices := by
  split_ifs
  · rw [clearBit, freeIndices_setBits]
  · rfl

@[simp] lemma orderIdCounter_ite_clearBit :
    (if c then clearBit s b p else b).orderIdCounter = b.orderIdCounter := by
  split_ifs
  · rw [clearBit, orderIdCounter_setBits]
  · rfl

@[simp] lemma tradeListener_ite_clearBit :
    (if c then clearBit s b p else b).tradeListener = b.tradeListener := by
  split_ifs
  · rw [clearBit, tradeListener_setBits]
  · rfl

end

/-- The book after an order was unlinked from a level, whose bit goes with its last order. -/
def closeLevel (b : OrderBook) (side : Bool) (price : Nat) (list : OrderList) : OrderBook :=
  if list.orderCount = 0 then clearBit side (b.setLevel side price list) price
  else b.setLevel side price list

section

variable (b : OrderBook) (side : Bool) (price : Nat) (list : OrderList)

@[simp] lemma orderIdCounter_closeLevel :
    (b.closeLevel side price list).orderIdCounter = b.orderIdCounter :=
  (orderIdCounter_ite_clearBit _ _ _ _).trans (orderIdCounter_setLevel _ _ _ _)

@[simp] lemma freeIndices_closeLevel :
    (b.closeLevel side price list).freeIndices = b.freeIndices :=
  (freeIndices_ite_clearBit _ _ _ _).trans (freeIndices_setLevel _ _ _ _)

@[simp] lemma tradeListener_closeLevel :
    (b.closeLevel side price list).tradeListener = b.tradeListener :=
  (tradeListener_ite_clearBit _ _ _ _).trans (tradeListener_setLevel _ _ _ _)

end

/-- A cancellation of slot `i` finds another order there, or unlinks the order and releases the
slot. -/
inductive CancelBranch (b : OrderBook) (id : Nat) (userId : Int) (i : Nat) :
    OrderBook → Option Order → Prop
  | missed (hmiss : maxOrders ≤ i ∨ (b.nodePool i).order.id ≠ id ∨
        (b.nodePool i).order.userId ≠ userId) :
      CancelBranch b id userId i b none
  | found {pool pool' : Pool} (list : OrderList) (hi : i < maxOrders)
      (hid : (b.nodePool i).order.id = id) (huser : (b.nodePool i).order.userId = userId)
      (hlinks : ∀ j, (pool j).order = (b.nodePool j).order)
      (hrelease : pool.setOrder i (fun o => { o with id := 0 }) = some pool') :
      CancelBranch b id userId i
        { b.closeLevel (b.nodePool i).order.side (b.nodePool i).order.price list with
          nodePool := pool'
          freeIndices := i ::
            (b.closeLevel (b.nodePool i).order.side (b.nodePool i).order.price list).freeIndices }
        (some (b.nodePool i).order)

lemma cancelOrder_branch {id : Nat} {userId : Int} {out : Option Order}
    (h : cancelOrder b id userId = some (b', out)) :
    CancelBranch b id userId (id &&& 0xFFFFFFFF) b' out := by
  rw [cancelOrder] at h
  generalize id &&& 0xFFFFFFFF = i at h ⊢
  by_cases hlt : maxOrders ≤ i
  · rw [if_pos hlt] at h
    obtain ⟨rfl, rfl⟩ := Prod.mk.inj (Option.some.inj h)
    exact .missed (.inl hlt)
  rw [if_neg hlt] at h
  by_cases hmiss : (b.nodePool i).order.id ≠ id ∨ (b.nodePool i).order.userId ≠ userId
  · rw [if_pos hmiss] at h
    obtain ⟨rfl, rfl⟩ := Prod.mk.inj (Option.some.inj h)
    exact .missed (.inr hmiss)
  rw [if_neg hmiss] at h
  obtain ⟨hid, huser⟩ := not_or.mp hmiss
  obtain ⟨list, -, h⟩ := Option.bind_eq_some_iff.mp h
  extract_lets list₁ finish at h
  have hfinish : ∀ pool : Pool, (∀ j, (pool j).order = (b.nodePool j).order) →
      finish pool = some (b', out) → CancelBranch b id userId i b' out := by
    intro pool hlinks h
    unfold finish at h
    extract_lets node list₂ list₃ b₁ b₂ at h
    have hfound : ∀ pool₁ : Pool, (∀ j, (pool₁ j).order = (pool j).order) →
        ((pool₁.setOrder i fun o => { o with id := 0 }).bind fun pool₂ =>
          some ({ b₂ with nodePool := pool₂, freeIndices := i :: b₂.freeIndices },
            some (b.nodePool i).order)) = some (b', out) → CancelBranch b id userId i b' out := by
      intro pool₁ hlinks₁ h
      obtain ⟨pool₂, hrelease, h⟩ := Option.bind_eq_some_iff.mp h
      obtain ⟨rfl, rfl⟩ := Prod.mk.inj (Option.some.inj h)
      exact .found list₃ (Nat.not_le.mp hlt) (not_not.mp hid) (not_not.mp huser)
        (fun j => (hlinks₁ j).trans (hlinks j)) hrelease
    split_ifs at h
    · exact hfound pool (fun _ => rfl) h
    · obtain ⟨pool₁, hprev, h⟩ := Option.bind_eq_some_iff.mp h
      exact hfound pool₁ (order_setPrev hprev) h
  split_ifs at h
  · exact hfinish b.nodePool (fun _ => rfl) h
  · obtain ⟨pool, hnext, h⟩ := Option.bind_eq_some_iff.mp h
    exact hfinish pool (order_setNext hnext) h

end OrderBook

end ExchangeEngine
