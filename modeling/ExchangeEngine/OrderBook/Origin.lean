import ExchangeEngine.OrderBook.Cancel

/-!
# Where the orders in the nodes come from

A node is free, with id zero, or it holds an order that was submitted, with a quantity that may be
less. This holds in every state of a book, whether reachable or not.
-/

namespace ExchangeEngine

namespace OrderBook

open Relation

variable {b b' : OrderBook} {side : Bool} {o : Order} {fuel : Nat} {S : Order → Prop} {i : Nat}
  {pool pool' : Pool} {f : Order → Order} {st st' : MatchState}

/-- A property of orders that says nothing about the quantity. -/
def QuantityFree (S : Order → Prop) : Prop := ∀ r q, S r → S { r with quantity := q }

/-- A node with this order is free or has the property. -/
def FreeOr (S : Order → Prop) (r : Order) : Prop := r.id = 0 ∨ S r

/-- Every node is free or holds an order with the property, and only slots of the pool are free. -/
structure Origin (S : Order → Prop) (b : OrderBook) : Prop where
  node : ∀ i, FreeOr S (b.nodePool i).order
  free : ∀ i ∈ b.freeIndices, i < maxOrders

/-- The part of a book that `Origin` reads, and the counter, are kept. -/
structure Kept (S : Order → Prop) (b b' : OrderBook) : Prop where
  counter : b'.orderIdCounter = b.orderIdCounter
  node : (∀ i, FreeOr S (b.nodePool i).order) → ∀ i, FreeOr S (b'.nodePool i).order
  free : (∀ i ∈ b.freeIndices, i < maxOrders) → ∀ i ∈ b'.freeIndices, i < maxOrders

lemma Kept.refl (S : Order → Prop) (b : OrderBook) : Kept S b b := ⟨rfl, id, id⟩

lemma Kept.trans {b'' : OrderBook} (h : Kept S b b') (h' : Kept S b' b'') : Kept S b b'' :=
  ⟨h'.counter.trans h.counter, h'.node ∘ h.node, h'.free ∘ h.free⟩

lemma Kept.origin (h : Kept S b b') (ho : Origin S b) : Origin S b' :=
  ⟨h.node ho.node, h.free ho.free⟩

/-! ### Writes to the pool -/

lemma freeOr_setOrder (hf : ∀ r, FreeOr S r → FreeOr S (f r)) (h : pool.setOrder i f = some pool') :
    (∀ j, FreeOr S (pool j).order) → ∀ j, FreeOr S (pool' j).order := by
  intro hpool j
  rw [Pool.setOrder] at h
  split_ifs at h
  rw [← Option.some.inj h, Pool.withOrder_order]
  split_ifs
  · exact hf _ (hpool i)
  · exact hpool j

lemma lt_of_setOrder (h : pool.setOrder i f = some pool') : i < maxOrders := by
  rw [Pool.setOrder] at h
  split_ifs at h with hi
  exact hi

lemma freeOr_release (r : Order) : FreeOr S { r with id := 0 } := Or.inl rfl

/-! ### Matching -/

lemma fill_kept {price q : Nat} (hS : QuantityFree S) (h : fill side price b i q = some b') :
    Kept S b b' := by
  have hless : ∀ r, FreeOr S r → FreeOr S { r with quantity := r.quantity - q } := fun r hr =>
    hr.imp_right (hS r _)
  cases fill_branch h with
  | all list hpool hzero hlinks hrelease =>
    refine ⟨orderIdCounter_setLevel _ _ _ _, ?_, ?_⟩
    · intro hb
      rw [nodePool_setLevel]
      apply freeOr_setOrder (fun r _ => freeOr_release r) hrelease
      intro j
      rw [hlinks]
      exact freeOr_setOrder hless hpool hb j
    · intro hb j hj
      rw [freeIndices_setLevel] at hj
      rcases List.mem_cons.mp hj with rfl | hj
      · exact lt_of_setOrder hpool
      · exact hb j hj
  | part list hpool =>
    refine ⟨orderIdCounter_setLevel _ _ _ _, ?_, ?_⟩
    · rw [nodePool_setLevel]
      exact freeOr_setOrder hless hpool
    · rw [freeIndices_setLevel]
      exact id

lemma AddBranch.kept (ho : S o) (h : AddBranch side b o b') : Kept S b b' := by
  have hnode : ∀ {pool pool' : Pool},
      b.nodePool.setOrder (o.id &&& 0xFFFFFFFF) (fun _ => o) = some pool →
      (∀ j, (pool' j).order = (pool j).order) →
      (∀ j, FreeOr S (b.nodePool j).order) → ∀ j, FreeOr S (pool' j).order := by
    intro pool pool' hpool hlinks hb j
    rw [hlinks]
    exact freeOr_setOrder (fun _ _ => Or.inr ho) hpool hb j
  cases h with
  | opens list hpool hlinks =>
    refine ⟨?_, ?_, ?_⟩
    · rw [orderIdCounter_setLevel, setBit, orderIdCounter_setBits]
    · rw [nodePool_setLevel, setBit, nodePool_setBits]
      exact hnode hpool hlinks
    · rw [freeIndices_setLevel, setBit, freeIndices_setBits]
      exact id
  | behind list hpool hlinks =>
    refine ⟨orderIdCounter_setLevel _ _ _ _, ?_, ?_⟩
    · rw [nodePool_setLevel]
      exact hnode hpool hlinks
    · rw [freeIndices_setLevel]
      exact id

/-- Matching keeps the book, and of the incoming order all but the quantity. -/
structure Matched (S : Order → Prop) (st st' : MatchState) : Prop where
  book : Kept S st.book st'.book
  incoming : ∃ q, st'.incoming = { st.incoming with quantity := q }

lemma Matched.refl (S : Order → Prop) (st : MatchState) : Matched S st st :=
  ⟨Kept.refl S _, _, rfl⟩

lemma Matched.trans {st st' st'' : MatchState} (h : Matched S st st') (h' : Matched S st' st'') :
    Matched S st st'' := by
  obtain ⟨hb, q, hq⟩ := h
  obtain ⟨hb', q', hq'⟩ := h'
  exact ⟨hb.trans hb', q', by rw [hq', hq]⟩

lemma clearBit_kept (side : Bool) (b : OrderBook) (price : Nat) :
    Kept S b (clearBit side b price) where
  counter := orderIdCounter_setBits _ _ _
  node := by
    rw [clearBit, nodePool_setBits]
    exact id
  free := by
    rw [clearBit, freeIndices_setBits]
    exact id

lemma MatchStep.matched (hS : QuantityFree S) (h : MatchStep side st st') : Matched S st st' := by
  cases h with
  | stop => exact ⟨Kept.refl S _, _, rfl⟩
  | fill _ _ _ hfill => exact ⟨fill_kept hS hfill, _, rfl⟩
  | clear best => exact ⟨clearBit_kept _ _ _, _, rfl⟩

lemma matched_of_steps (hS : QuantityFree S) (h : ReflTransGen (MatchStep side) st st') :
    Matched S st st' := by
  induction h with
  | refl => exact Matched.refl S st
  | tail _ hstep ih => exact ih.trans (hstep.matched hS)

/-! ### Submission and cancellation -/

/-- Where matching ends, whether the order rests or not. -/
lemma Matches.origin (hS : QuantityFree S) (hb : Origin S b)
    (hcounter : b.orderIdCounter + 1 < 2 ^ 32) (hfree : b.freeIndices.head? = some i)
    (h : Matches side b o i st) :
    i < maxOrders ∧ st.incoming.id = (b.orderIdCounter + 1) * 2 ^ 32 + i ∧
      (∃ q, st.incoming = { o with id := st.incoming.id, quantity := q }) ∧
      st.book.orderIdCounter = b.orderIdCounter + 1 ∧
      Origin (fun x => S x ∨ ∃ q, x = { o with id := st.incoming.id, quantity := q }) st.book := by
  have hi : i < maxOrders := hb.free i (List.mem_of_head? hfree)
  have hmod : (b.orderIdCounter + 1) % 2 ^ 64 = b.orderIdCounter + 1 := by omega
  rw [Matches, hmod, makeId_eq hcounter hi] at h
  generalize hid : (b.orderIdCounter + 1) * 2 ^ 32 + i = id at h
  have hS' : QuantityFree fun x => S x ∨ ∃ q, x = { o with id := id, quantity := q } := by
    rintro x q (hx | ⟨q', rfl⟩)
    · exact Or.inl (hS x q hx)
    · exact Or.inr ⟨q, rfl⟩
  obtain ⟨hbook, q, hq⟩ := matched_of_steps hS' h
  have horder : st.incoming.id = id := by rw [hq]
  rw [horder]
  refine ⟨hi, rfl, ⟨q, hq⟩, hbook.counter, hbook.origin ⟨?_, ?_⟩⟩
  · exact fun j => (hb.node j).imp_right Or.inl
  · exact fun j hj => hb.free j (List.mem_of_mem_tail hj)

/-- **A submission** gives its order an id of the next number and puts nothing else in the nodes. -/
theorem processOrder_origin {r : Processed} (hS : QuantityFree S) (hb : Origin S b)
    (hcounter : b.orderIdCounter + 1 < 2 ^ 32) (h : processOrder side fuel b o = some r) :
    ∃ i < maxOrders, b.freeIndices.head? = some i ∧
      r.order.id = (b.orderIdCounter + 1) * 2 ^ 32 + i ∧
      r.book.orderIdCounter = b.orderIdCounter + 1 ∧
      Origin (fun x => S x ∨ ∃ q, x = { o with id := r.order.id, quantity := q }) r.book := by
  cases processOrder_branch h with
  | rests rej hfree hmatches hpos hadd =>
    obtain ⟨hi, hid, hq, hcount, horigin⟩ := hmatches.origin hS hb hcounter hfree
    have hkept := hadd.kept (S := fun x => S x ∨ ∃ q, x = { o with id := _, quantity := q })
      (Or.inr hq)
    exact ⟨_, hi, hfree, hid, hkept.counter.trans hcount, hkept.origin horigin⟩
  | done rej hfree hmatches hzero =>
    obtain ⟨hi, hid, -, hcount, horigin⟩ := hmatches.origin hS hb hcounter hfree
    refine ⟨_, hi, hfree, hid, hcount, horigin.node, fun j hj => ?_⟩
    rcases List.mem_cons.mp hj with rfl | hj
    · exact hi
    · exact horigin.free j hj

/-- What a cancellation leaves and hands out; `i` is the slot in its id. -/
structure CancelKept (S : Order → Prop) (b : OrderBook) (id i : Nat) (b' : OrderBook)
    (out : Option Order) : Prop where
  counter : b'.orderIdCounter = b.orderIdCounter
  origin : Origin S b'
  out : ∀ x ∈ out, x.id = id ∧ FreeOr S x
  free : b'.freeIndices = b.freeIndices ∨
    (b.nodePool i).order.id = id ∧ b'.freeIndices = i :: b.freeIndices

/-- **A cancellation** hands out the order of the id it was asked for. -/
theorem cancelOrder_origin {id : Nat} {userId : Int} {out : Option Order} (hb : Origin S b)
    (h : cancelOrder b id userId = some (b', out)) :
    CancelKept S b id (id &&& 0xFFFFFFFF) b' out := by
  cases cancelOrder_branch h with
  | missed => exact ⟨rfl, hb, by simp, Or.inl rfl⟩
  | found list hi hid huser hlinks hrelease =>
    rw [freeIndices_closeLevel]
    refine ⟨orderIdCounter_closeLevel _ _ _ _, ⟨?_, ?_⟩, ?_, Or.inr ⟨hid, rfl⟩⟩
    · apply freeOr_setOrder (fun r _ => freeOr_release r) hrelease
      intro j
      rw [hlinks]
      exact hb.node j
    · intro j hj
      rcases List.mem_cons.mp hj with rfl | hj
      · exact hi
      · exact hb.free j hj
    · intro x hx
      rw [← Option.some.inj hx]
      exact ⟨hid, hb.node _⟩

end OrderBook

end ExchangeEngine
