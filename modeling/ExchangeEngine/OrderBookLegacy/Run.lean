import ExchangeEngine.OrderBookLegacy.Depth
import Mathlib.Logic.Relation

/-!
# Runs of `OrderBookLegacy`

A run starts from a new book and takes gated submissions and cancellations in any order; the
invariant holds in every state it reaches.
-/

namespace ExchangeEngine

namespace OrderBookLegacy

variable {b b' : OrderBookLegacy} {o : Order}

lemma half_new (s : Bool) : new.half s = [] := by
  cases s <;> rfl

lemma resting_new : new.resting = Book.empty := by
  funext s
  rw [OrderBookLegacy.resting, half_new]
  rfl

theorem inv_new : Inv new where
  sorted s := by
    rw [half_new]
    exact List.Pairwise.nil
  ok s e he := by
    rw [half_new] at he
    exact absurd he List.not_mem_nil
  located s r hr := by
    rw [resting_new] at hr
    exact absurd hr List.not_mem_nil
  found _ _ h := by cases h
  ids s r hr := by
    rw [resting_new] at hr
    exact absurd hr List.not_mem_nil
  valid := by
    rw [resting_new]
    exact Book.valid_empty

lemma Inv.listen (h : Inv b) (l : Bool) : Inv { b with tradeListener := l } :=
  ⟨h.sorted, h.ok, h.located, h.found, h.ids, h.valid⟩

/-- One call: attaching or detaching the listener, a gated submission, or a cancellation. -/
inductive Step : OrderBookLegacy → OrderBookLegacy → Prop
  | listen (b : OrderBookLegacy) (l : Bool) : Step b { b with tradeListener := l }
  | submit {b : OrderBookLegacy} {o : Order} (hcan : canProcessOrder b o = true)
      (hcounter : b.orderIdCounter + 1 < 2 ^ 64) : Step b (processOrder o.side b o).book
  | cancel {b b' : OrderBookLegacy} {id : Nat} {userId : Int} {out : Option Order}
      (hrun : cancelOrder b id userId = some (b', out)) : Step b b'

/-- The books reached from a new one. -/
def Reachable : OrderBookLegacy → Prop := Relation.ReflTransGen Step new

lemma Inv.step (h : Inv b) (hs : Step b b') : Inv b' := by
  cases hs with
  | listen l => exact h.listen l
  | submit hcan hcounter => exact (processOrder_spec h hcan hcounter).inv
  | @cancel _ id userId _ hrun =>
    obtain ⟨b₁, hrun', hc⟩ := cancelOrder_spec h id userId
    obtain rfl := (Prod.mk.inj (Option.some.inj (hrun.symm.trans hrun'))).1
    exact hc.inv

/-- **The invariant holds in every reachable book.** -/
theorem Reachable.inv (h : Reachable b) : Inv b := by
  induction h with
  | refl => exact inv_new
  | tail _ hs ih => exact ih.step hs

end OrderBookLegacy

end ExchangeEngine
