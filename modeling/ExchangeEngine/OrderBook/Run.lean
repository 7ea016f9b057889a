import ExchangeEngine.OrderBook.Depth
import Mathlib.Logic.Relation

/-!
# Runs of `OrderBook`

A run starts from a new book and takes gated submissions and cancellations in any order. The
invariant holds in every state it reaches, so every operation of a run is defined and does what
the price-time-priority book says.
-/

namespace ExchangeEngine

namespace OrderBook

open LinkedList

variable {b b' : OrderBook} {ix : Slots} {side : Bool} {o : Order} {fuel fuel' : Nat}

/-! ### The fuel does not matter -/

lemma matchLevel_succ {best : Nat} {st : MatchState} {x : MatchState × Option Nat}
    (h : matchLevel side best fuel st = some x) : matchLevel side best (fuel + 1) st = some x := by
  induction fuel generalizing st with
  | zero => cases h
  | succ fuel ih =>
    rw [matchLevel] at h ⊢
    cases hlevel : st.book.level (!side) best with
    | none => simp [hlevel] at h
    | some list =>
      simp only [hlevel, Option.bind_eq_bind, Option.bind_some] at h ⊢
      by_cases hgo : 0 < st.incoming.quantity ∧ list.headIdx ≠ nullIdx
      · rw [if_pos hgo] at h ⊢
        obtain ⟨node, hread, h⟩ := Option.bind_eq_some_iff.mp h
        rw [hread, Option.bind_some]
        by_cases hown : st.incoming.userId = node.order.userId
        · rw [if_pos hown] at h ⊢
          exact h
        · rw [if_neg hown] at h ⊢
          obtain ⟨book, hbook, h⟩ := Option.bind_eq_some_iff.mp h
          rw [hbook, Option.bind_some]
          exact ih h
      · rw [if_neg hgo] at h ⊢
        exact h

lemma matchLevel_mono {best : Nat} {st : MatchState} {x : MatchState × Option Nat}
    (hle : fuel ≤ fuel') (h : matchLevel side best fuel st = some x) :
    matchLevel side best fuel' st = some x := by
  induction hle with
  | refl => exact h
  | step _ ih => exact matchLevel_succ ih

lemma matchLoop_mono {lf lf' best : Nat} {st : MatchState} {x : MatchState × Nat}
    (hlf : lf ≤ lf') (hle : fuel ≤ fuel') (h : matchLoop side lf fuel best st = some x) :
    matchLoop side lf' fuel' best st = some x := by
  induction fuel generalizing fuel' best st with
  | zero => cases h
  | succ fuel ih =>
    obtain ⟨fuel', rfl⟩ := Nat.exists_eq_add_one_of_ne_zero (Nat.ne_zero_of_lt hle)
    rw [matchLoop] at h ⊢
    split_ifs at h ⊢ with hgo
    · obtain ⟨⟨st₁, stop⟩, hrun, h⟩ := Option.bind_eq_some_iff.mp h
      rw [matchLevel_mono hlf hrun]
      simp only [Option.bind_eq_bind, Option.bind_some]
      cases stop with
      | some q => exact h
      | none =>
        obtain ⟨list, hlist, h⟩ := Option.bind_eq_some_iff.mp h
        obtain ⟨best', hbest, h⟩ := Option.bind_eq_some_iff.mp h
        simp only [hlist, Option.bind_some, hbest]
        exact ih (Nat.le_of_succ_le_succ hle) h
    · exact h

lemma processOrder_mono {r : Processed} (hle : fuel ≤ fuel')
    (h : processOrder side fuel b o = some r) : processOrder side fuel' b o = some r := by
  simp only [processOrder] at h ⊢
  cases hfree : b.freeIndices with
  | nil => simp [hfree] at h
  | cons i free =>
    simp only [hfree, matchOrder, Option.bind_eq_bind] at h ⊢
    obtain ⟨⟨st, rej⟩, hmatch, h⟩ := Option.bind_eq_some_iff.mp h
    obtain ⟨best, hbest, hmatch⟩ := Option.bind_eq_some_iff.mp hmatch
    rw [hbest, Option.bind_some, matchLoop_mono hle hle hmatch]
    exact h

/-- Whatever fuel a gated submission was run with, it did what the specification says. -/
theorem processOrder_sound {r : Processed} (hinv : Inv b) (hcan : canProcessOrder b o = true)
    (hcounter : b.orderIdCounter + 1 < 2 ^ 32) (hrun : processOrder o.side fuel b o = some r) :
    ∃ i < maxOrders, b.freeIndices.head? = some i ∧
      Submitted b { o with id := (b.orderIdCounter + 1) * 2 ^ 32 + i } r := by
  obtain ⟨r', hrun', hsub⟩ := processOrder_spec hinv hcan hcounter
    (Nat.lt_succ_of_le (Nat.le_max_right fuel maxOrders))
  rw [processOrder_mono (Nat.le_succ_of_le (Nat.le_max_left _ _)) hrun] at hrun'
  obtain rfl := Option.some.inj hrun'
  exact hsub

/-! ### Reachable books -/

lemma half_new (s : Bool) : new.half s = ⟨fun _ => {}, Bitmap.zero⟩ := by
  cases s <;> rfl

lemma lists_new : Lists new (fun _ _ => []) [] where
  linked s _ _ := by
    rw [half_new]
    exact DList.empty
  count s _ _ := by rw [half_new, List.length_nil]
  total s _ _ := by
    rw [half_new, List.map_nil, Consume.total_nil]
    rfl
  slot _ _ _ hi := absurd hi (List.not_mem_nil)
  order _ _ _ hi := absurd hi (List.not_mem_nil)
  id _ _ _ hi := absurd hi (List.not_mem_nil)
  free_nodup := by
    rw [List.nil_append]
    exact List.nodup_range'
  free i hi := by
    refine ⟨?_, rfl⟩
    rw [List.nil_append, new, List.mem_range'_1] at hi
    omega
  cover i hi := by
    left
    rw [List.nil_append, new, List.mem_range'_1]
    omega

lemma resting_new : new.resting = Book.empty := by
  funext s
  exact (lists_new.resting_eq s).trans (List.flatMap_eq_nil_iff.mpr fun _ _ => rfl)

theorem inv_new : Inv new := by
  refine ⟨⟨_, lists_new, ?_⟩, resting_new ▸ Book.valid_empty⟩
  intro s
  rw [half_new]
  apply Bitmap.rep_zero.congr
  intro p
  simp [ordersOf]

/-- One call: attaching or detaching the listener, a gated submission, or a cancellation that does
not hit a stale node. Every cancellation of a non-zero id is of this kind. -/
inductive Step : OrderBook → OrderBook → Prop
  | listen (b : OrderBook) (l : Bool) : Step b { b with tradeListener := l }
  | submit {b : OrderBook} {o : Order} {fuel : Nat} {r : Processed}
      (hcan : canProcessOrder b o = true) (hcounter : b.orderIdCounter + 1 < 2 ^ 32)
      (hrun : processOrder o.side fuel b o = some r) : Step b r.book
  | cancel {b b' : OrderBook} {id : Nat} {userId : Int} {out : Option Order}
      (hstale : ¬ StaleMatch b id userId)
      (hrun : cancelOrder b id userId = some (b', out)) : Step b b'

/-- The books reached from a new one. -/
def Reachable : OrderBook → Prop := Relation.ReflTransGen Step new

lemma not_staleMatch_of_ne_zero {id : Nat} {userId : Int} (h : id ≠ 0) :
    ¬ StaleMatch b id userId := fun hs => h hs.1

lemma Inv.step (h : Inv b) (hs : Step b b') : Inv b' := by
  cases hs with
  | listen l =>
    obtain ⟨⟨ix, hl, hm⟩, hvalid⟩ := h
    exact ⟨⟨ix, ⟨hl.linked, hl.count, hl.total, hl.slot, hl.order, hl.id, hl.free_nodup, hl.free,
      hl.cover⟩, hm⟩, hvalid⟩
  | submit hcan hcounter hrun =>
    obtain ⟨i, -, -, hsub⟩ := processOrder_sound h hcan hcounter hrun
    exact hsub.inv
  | cancel hstale hrun =>
    obtain ⟨b₁, hrun', hc⟩ := cancelOrder_spec h hstale
    obtain rfl := (Prod.mk.inj (Option.some.inj (hrun.symm.trans hrun'))).1
    exact hc.inv

/-- **The invariant holds in every reachable book.** -/
theorem Reachable.inv (h : Reachable b) : Inv b := by
  induction h with
  | refl => exact inv_new
  | tail _ hs ih => exact ih.step hs

end OrderBook

end ExchangeEngine
