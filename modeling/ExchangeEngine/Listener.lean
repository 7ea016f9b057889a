import ExchangeEngine.OrderBook.Cancel
import ExchangeEngine.OrderBookLegacy.Basic

/-!
# The trade listener

The matching loops call the listener for each fill, in the order of the fills, and skip the call
when none is attached. This holds in every state of a book, whether reachable or not.
-/

namespace ExchangeEngine

/-! ### The CURRENT engine -/

namespace OrderBook

open Relation

variable {b b' : OrderBook} {side : Bool} {o : Order} {fuel : Nat} {st st' : MatchState}

lemma fill_tradeListener {price i q : Nat} (h : fill side price b i q = some b') :
    b'.tradeListener = b.tradeListener := by
  cases fill_branch h with
  | all => exact tradeListener_setLevel _ _ _ _
  | part => exact tradeListener_setLevel _ _ _ _

lemma AddBranch.tradeListener_eq (h : AddBranch side b o b') :
    b'.tradeListener = b.tradeListener := by
  cases h with
  | opens => rw [tradeListener_setLevel, setBit, tradeListener_setBits]
  | behind => rw [tradeListener_setLevel]

/-- From `st` on, a listener heard of every fill. -/
structure Heard (st st' : MatchState) : Prop where
  listener : st'.book.tradeListener = st.book.tradeListener
  notified : ∃ trades, st'.fills = st.fills ++ trades ∧
    st'.notified = st.notified ++ if st.book.tradeListener then trades else []

lemma Heard.refl (st : MatchState) : Heard st st := ⟨rfl, [], by simp⟩

lemma Heard.trans {st st' st'' : MatchState} (h : Heard st st') (h' : Heard st' st'') :
    Heard st st'' := by
  obtain ⟨hl, ts, hf, hn⟩ := h
  obtain ⟨hl', ts', hf', hn'⟩ := h'
  refine ⟨hl'.trans hl, ts ++ ts', ?_, ?_⟩
  · rw [hf', hf, List.append_assoc]
  · rw [hn', hn, hl]
    split_ifs
    · rw [List.append_assoc]
    · simp

lemma MatchStep.heard (h : MatchStep side st st') : Heard st st' := by
  cases h with
  | stop => exact ⟨rfl, [], by simp⟩
  | fill _ _ _ hfill =>
    refine ⟨fill_tradeListener hfill, [_], rfl, ?_⟩
    simp only
    split_ifs
    · rfl
    · rw [List.append_nil]
  | clear best =>
    refine ⟨?_, [], by simp⟩
    rw [clearBit, tradeListener_setBits]

lemma heard_of_steps (h : ReflTransGen (MatchStep side) st st') : Heard st st' := by
  induction h with
  | refl => exact Heard.refl st
  | tail _ hstep ih => exact ih.trans hstep.heard

/-- A submission hands every fill to the listener, if there is one, and keeps the listener. This
needs no invariant. -/
theorem processOrder_notified {r : Processed} (h : processOrder side fuel b o = some r) :
    r.book.tradeListener = b.tradeListener ∧
      r.notified = if b.tradeListener then r.fills else [] := by
  cases processOrder_branch h with
  | rests rej hfree hmatches hpos hadd =>
    obtain ⟨hlisten, trades, hfills, hnotified⟩ := heard_of_steps hmatches
    simp only [List.nil_append] at hfills hnotified
    exact ⟨hadd.tradeListener_eq.trans hlisten, by rw [hnotified, hfills]⟩
  | done rej hfree hmatches hzero =>
    obtain ⟨hlisten, trades, hfills, hnotified⟩ := heard_of_steps hmatches
    simp only [List.nil_append] at hfills hnotified
    exact ⟨hlisten, by rw [hnotified, hfills]⟩

/-- A cancellation keeps the listener. -/
lemma cancelOrder_tradeListener {id : Nat} {userId : Int} {out : Option Order}
    (h : cancelOrder b id userId = some (b', out)) : b'.tradeListener = b.tradeListener := by
  cases cancelOrder_branch h with
  | missed => rfl
  | found => exact tradeListener_closeLevel _ _ _ _

end OrderBook

/-! ### The LEGACY engine -/

namespace OrderBookLegacy

variable {side listener : Bool}

/-- From `st` on, a listener heard of every fill. -/
def Heard (listener : Bool) (st st' : MatchState) : Prop :=
  ∃ trades, st'.fills = st.fills ++ trades ∧
    st'.notified = st.notified ++ if listener then trades else []

lemma Heard.refl (listener : Bool) (st : MatchState) : Heard listener st st := ⟨[], by simp⟩

lemma Heard.trans {st st' st'' : MatchState} (h : Heard listener st st')
    (h' : Heard listener st' st'') : Heard listener st st'' := by
  obtain ⟨ts, hf, hn⟩ := h
  obtain ⟨ts', hf', hn'⟩ := h'
  refine ⟨ts ++ ts', ?_, ?_⟩
  · rw [hf', hf, List.append_assoc]
  · rw [hn', hn]
    split_ifs
    · rw [List.append_assoc]
    · simp

lemma matchLevel_heard (price total : Nat) (L : List Order) (st : MatchState) :
    Heard listener st (matchLevel side listener price L total st).2.1 := by
  induction L generalizing total st with
  | nil => exact Heard.refl _ st
  | cons r L ih =>
    rw [matchLevel]
    by_cases hn : 0 < st.incoming.quantity
    · rw [if_pos hn]
      by_cases hown : st.incoming.userId = r.userId
      · rw [if_pos hown]
        exact ⟨[], by simp⟩
      · rw [if_neg hown]
        have hone : ∀ t incoming locations, Heard listener st
            ⟨locations, incoming, st.fills ++ [t],
              if listener then st.notified ++ [t] else st.notified⟩ := by
          intro t incoming locations
          refine ⟨[t], rfl, ?_⟩
          simp only
          split_ifs
          · rfl
          · rw [List.append_nil]
        by_cases hz : r.quantity - min st.incoming.quantity r.quantity = 0
        · simp only [hz, if_true]
          exact (hone _ _ _).trans (ih _ _)
        · simp only [hz, if_false]
          exact hone _ _ _
    · rw [if_neg hn]
      exact Heard.refl _ st

lemma matchLevels_heard (M : Levels) (st : MatchState) :
    Heard listener st (matchLevels side listener M st).2.1 := by
  induction M generalizing st with
  | nil => exact Heard.refl _ st
  | cons e M ih =>
    obtain ⟨price, level⟩ := e
    rw [matchLevels]
    by_cases hgo : 0 < st.incoming.quantity ∧ crosses side st.incoming.price price
    · rw [if_pos hgo]
      have h := @matchLevel_heard side listener price level.totalQuantity level.orders st
      generalize matchLevel side listener price level.orders level.totalQuantity st = x at h
      obtain ⟨level', st', stop⟩ := x
      cases stop with
      | some q => exact h
      | none =>
        simp only
        split_ifs
        · exact h.trans (ih st')
        · exact h
    · rw [if_neg hgo]
      exact Heard.refl _ st

lemma addOrder_tradeListener (b : OrderBookLegacy) (o : Order) :
    (addOrder side b o).tradeListener = b.tradeListener := by
  simp [addOrder]

/-- A submission hands every fill to the listener, if there is one, and keeps the listener. -/
theorem processOrder_notified (side : Bool) (b : OrderBookLegacy) (o : Order) :
    (processOrder side b o).book.tradeListener = b.tradeListener ∧
      (processOrder side b o).notified
        = if b.tradeListener then (processOrder side b o).fills else [] := by
  generalize ho : { o with id := (b.orderIdCounter + 1) % 2 ^ 64 } = o'
  obtain ⟨trades, hfills, hnotified⟩ := @matchLevels_heard side b.tradeListener
    (b.half (!side)) ⟨b.locations, o', [], []⟩
  simp only [List.nil_append] at hfills hnotified
  simp only [processOrder, matchOrder, half_mk, ho]
  refine ⟨?_, by rw [hnotified, hfills]⟩
  split_ifs
  · rw [addOrder_tradeListener]
    exact tradeListener_setHalf _ _ _
  · exact tradeListener_setHalf _ _ _

/-- A cancellation keeps the listener. -/
lemma cancelOrder_tradeListener {b b' : OrderBookLegacy} {id : Nat} {userId : Int}
    {out : Option Order} (h : cancelOrder b id userId = some (b', out)) :
    b'.tradeListener = b.tradeListener := by
  have herase : ∀ loc node, (b.eraseFromBook loc node).tradeListener = b.tradeListener := by
    intro loc node
    simp only [eraseFromBook]
    cases SortedMap.find loc.price (b.half loc.side) with
    | none => rfl
    | some level =>
      simp only
      split_ifs
      · rw [tradeListener_setHalf]
      · rw [tradeListener_setHalf]
  simp only [cancelOrder] at h
  cases hloc : b.locations id with
  | none =>
    rw [hloc] at h
    rw [(Prod.mk.inj (Option.some.inj h)).1]
  | some loc =>
    rw [hloc] at h
    obtain ⟨node, -, h⟩ := Option.bind_eq_some_iff.mp h
    split_ifs at h
    · rw [(Prod.mk.inj (Option.some.inj h)).1]
    · rw [← (Prod.mk.inj (Option.some.inj h)).1]
      exact herase loc node

end OrderBookLegacy

end ExchangeEngine
