import ExchangeEngine.OrderBook.Replay
import ExchangeEngine.Renumber
import Mathlib.Logic.Equiv.Basic

/-!
# Every lawful run is a run of `OrderBook`

The engine chooses the ids itself, so it follows a lawful list of events up to a renumbering: the
calls are those of the list, with the engine's own ids, and so is what they hand out.
-/

namespace ExchangeEngine

namespace OrderBook

/-- The event under other ids; the id an order carries when it is submitted plays no part. -/
def Event.renumber (f : Nat → Nat) : Event → Event
  | submitted o order rej trades =>
    .submitted o (order.renumber f) rej (trades.map (Trade.renumber f))
  | cancelled id userId out => .cancelled (f id) userId (out.map (Order.renumber f))

/-- `f` gives every listed id its partner and confuses no two ids. -/
structure Extends (f : Nat → Nat) (L : List (Nat × Nat)) : Prop where
  inj : Function.Injective f
  maps : ∀ p ∈ L, f p.1 = p.2

variable {b c : OrderBook} {evs : List Event} {e : Event} {f : Nat → Nat} {B : Book} {o : Order}
  {i n : Nat} {L L' : List (Nat × Nat)}

lemma Extends.of_append (h : Extends f (L ++ L')) : Extends f L :=
  ⟨h.inj, fun p hp => h.maps p (List.mem_append_left _ hp)⟩

lemma Extends.last (h : Extends f (L ++ [(i, n)])) : f i = n :=
  h.maps (i, n) (List.mem_append_right _ (List.mem_singleton.mpr rfl))

/-- A pairing of ids extends to a permutation of all ids. -/
lemma exists_extends (hfst : (L.map Prod.fst).Nodup) (hsnd : (L.map Prod.snd).Nodup) :
    ∃ f : Equiv.Perm Nat, Extends f L := by
  induction L with
  | nil => exact ⟨Equiv.refl Nat, (Equiv.refl Nat).injective, by simp⟩
  | cons p L ih =>
    obtain ⟨hp, hfst⟩ := List.nodup_cons.mp hfst
    obtain ⟨hq, hsnd⟩ := List.nodup_cons.mp hsnd
    obtain ⟨f, hf⟩ := ih hfst hsnd
    refine ⟨f.trans (Equiv.swap (f p.1) p.2), Equiv.injective _, ?_⟩
    intro q hmem
    rw [Equiv.trans_apply]
    rcases List.mem_cons.mp hmem with rfl | hmem
    · exact Equiv.swap_apply_left _ _
    · -- the swap moves neither the id nor the partner of another pair
      rw [← hf.maps q hmem]
      refine Equiv.swap_apply_of_ne_of_ne ?_ ?_
      · exact fun heq => hp (f.injective heq ▸ List.mem_map_of_mem hmem)
      · exact fun heq => hq (heq ▸ hf.maps q hmem ▸ List.mem_map_of_mem hmem)

/-! ### Renumbered events -/

lemma submission_renumber :
    (submission B o i).renumber f = submission (B.renumber f) o (f i) := by
  have hplaced := Book.placed_renumber (B := B) (o := { o with id := i }) (f := f)
  have hrejected := Book.rejected_renumber (B := B) (o := { o with id := i }) (f := f)
  have hfills := Book.fills_renumber (B := B) (o := { o with id := i }) (f := f)
  rw [submission, submission, Event.renumber, ← hrejected, ← hfills, ← hplaced]
  rfl

/-- Replaying commutes with renumbering. -/
theorem replay_renumber (hf : Function.Injective f) :
    replay (evs.map (Event.renumber f)) = (replay evs).renumber f := by
  induction evs using List.reverseRecOn with
  | nil => rfl
  | append_singleton evs e ih =>
    rw [List.map_append, List.map_singleton, replay_snoc, replay_snoc, ih]
    cases e with
    | submitted o order rej trades => exact Book.submit_renumber (o := { o with id := order.id })
    | cancelled id userId out =>
      exact Book.cancel_renumber fun s r hr heq => hf heq

/-! ### Following a lawful run -/

/-- `c` is reached by following the events: `L` pairs each id with the one the engine gave. -/
structure Realized (evs : List Event) (L : List (Nat × Nat)) (c : OrderBook) : Prop where
  trace : ∀ f, Extends f L → Trace c (evs.map (Event.renumber f))
  given : L.map Prod.fst = 0 :: given evs
  zero : (0, 0) ∈ L
  nodup : (L.map Prod.snd).Nodup
  old : ∀ p ∈ L, p.2 < (c.orderIdCounter + 1) * 2 ^ 32
  counter : c.orderIdCounter = (OrderBook.given evs).length

lemma Realized.start : Realized [] [(0, 0)] listening where
  trace _ _ := .start
  given := rfl
  zero := List.mem_singleton.mpr rfl
  nodup := List.nodup_singleton 0
  old p hp := by
    rw [List.mem_singleton.mp hp]
    exact Nat.mul_pos (Nat.succ_pos _) (Nat.two_pow_pos 32)
  counter := rfl

lemma Realized.exists_extends (hr : Realized evs L c) (h : Lawful evs) :
    ∃ f : Equiv.Perm Nat, Extends f L :=
  OrderBook.exists_extends (hr.given ▸ h.given_nodup) hr.nodup

lemma Realized.resting_eq (hr : Realized evs L c) (hf : Extends f L) :
    c.resting = (replay evs).renumber f :=
  (hr.trace f hf).resting_eq.trans (replay_renumber hf.inj)

/-- The book has the same room under other ids. -/
lemma Realized.room (hr : Realized evs L c) (h : Lawful evs)
    (hroom : (replay evs true).length + (replay evs false).length < maxOrders) :
    c.freeIndices ≠ [] := by
  obtain ⟨f, hf⟩ := hr.exists_extends h
  have hcount := (hr.trace f hf).inv.slots_count
  simp only [hr.resting_eq hf, Book.renumber, List.length_map] at hcount
  rintro hnil
  rw [hnil, List.length_nil, Nat.zero_add] at hcount
  exact hroom.ne hcount

/-- The engine follows a submission. -/
lemma Realized.submit (hr : Realized evs L c) (h : Lawful evs) (hprice : o.price < maxPrice)
    (hroom : (replay evs true).length + (replay evs false).length < maxOrders)
    (hcounter : (OrderBook.given evs).length + 1 < 2 ^ 32) :
    ∃ n c', Realized (evs ++ [submission (replay evs) o i]) (L ++ [(i, n)]) c' := by
  obtain ⟨f₀, hf₀⟩ := hr.exists_extends h
  have hcan : canProcessOrder c o = true := by
    simpa [canProcessOrder] using ⟨hprice, hr.room h hroom⟩
  rw [← hr.counter] at hcounter
  obtain ⟨r, hrun, -⟩ := processOrder_spec (hr.trace f₀ hf₀).inv hcan hcounter
    (Nat.lt_succ_self maxOrders)
  obtain ⟨k, hk, hs, hnotified⟩ := (hr.trace f₀ hf₀).submit_spec hcan hcounter hrun
  have hnew : ∀ p ∈ L, p.2 < (c.orderIdCounter + 1) * 2 ^ 32 + k := fun p hp =>
    (hr.old p hp).trans_le (Nat.le_add_right _ k)
  refine ⟨(c.orderIdCounter + 1) * 2 ^ 32 + k, r.book, ⟨?_, ?_, ?_, ?_, ?_, ?_⟩⟩
  · intro f hf
    have hevent : (submission (replay evs) o i).renumber f
        = .submitted o r.order r.rejectedQty r.notified := by
      rw [submission_renumber, ← hr.resting_eq hf.of_append, hf.last, hs.order, hs.rejected,
        hnotified, submission]
    rw [List.map_append, List.map_singleton, hevent]
    exact (hr.trace f hf.of_append).submit hcan hcounter hrun
  · rw [List.map_append, hr.given, given_append]
    rfl
  · exact List.mem_append_left _ hr.zero
  · rw [List.map_append, List.nodup_append]
    refine ⟨hr.nodup, List.nodup_singleton _, ?_⟩
    intro m hm n hn
    obtain ⟨p, hp, rfl⟩ := List.mem_map.mp hm
    rw [List.mem_singleton.mp hn]
    exact (hnew p hp).ne
  · intro p hp
    rw [hs.counter]
    have hlt : (c.orderIdCounter + 1) * 2 ^ 32 + k < (c.orderIdCounter + 1 + 1) * 2 ^ 32 := by
      simp only [maxOrders] at hk
      omega
    rcases List.mem_append.mp hp with hp | hp
    · exact (hnew p hp).trans hlt
    · rw [List.mem_singleton.mp hp]
      exact hlt
  · rw [hs.counter, hr.counter, given_append, List.length_append]
    rfl

/-- The engine follows a cancellation. -/
lemma Realized.cancel {id : Nat} {userId : Int} (hr : Realized evs L c) (h : Lawful evs)
    (hid : id ≠ 0) :
    ∃ c', Realized (evs ++ [.cancelled id userId ((replay evs).find id userId)]) L c' := by
  have hgiven : OrderBook.given (evs ++ [.cancelled id userId ((replay evs).find id userId)])
      = OrderBook.given evs := by
    rw [given_append]
    exact List.append_nil _
  have hcall : ∀ f, Extends f L → f id ≠ 0 ∧ ∃ c', cancelOrder c (f id) userId
        = some (c', ((replay evs).find id userId).map (Order.renumber f)) ∧
      Cancelled c (f id) userId c' ∧ c.resting.find (f id) userId
        = ((replay evs).find id userId).map (Order.renumber f) := by
    intro f hf
    have hne : f id ≠ 0 := fun heq => hid (hf.inj (heq.trans (hf.maps _ hr.zero).symm))
    have hstale : ¬ StaleMatch c (f id) userId := not_staleMatch_of_ne_zero hne
    obtain ⟨c', hrun, hc⟩ := cancelOrder_spec (hr.trace f hf).inv hstale
    have hfind : c.resting.find (f id) userId
        = ((replay evs).find id userId).map (Order.renumber f) := by
      rw [hr.resting_eq hf, Book.find_renumber fun s r _ heq => hf.inj heq]
    exact ⟨hne, c', hfind ▸ hrun, hc, hfind⟩
  -- where the call leads does not depend on the renumbering
  suffices hsame : ∃ c', c'.orderIdCounter = c.orderIdCounter ∧ ∀ f, Extends f L →
      cancelOrder c (f id) userId
        = some (c', ((replay evs).find id userId).map (Order.renumber f)) by
    obtain ⟨c', hcounter, hrun⟩ := hsame
    refine ⟨c', ⟨?_, ?_, hr.zero, hr.nodup, ?_, ?_⟩⟩
    · intro f hf
      rw [List.map_append, List.map_singleton]
      exact (hr.trace f hf).cancel (hcall f hf).1 (hrun f hf)
    · rw [hgiven, hr.given]
    · rw [hcounter]
      exact hr.old
    · rw [hcounter, hgiven, hr.counter]
  cases hout : (replay evs).find id userId with
  | none =>
    refine ⟨c, rfl, ?_⟩
    intro f hf
    obtain ⟨-, c', hrun, hc, hfind⟩ := hcall f hf
    rw [hout, Option.map_none] at hfind
    rw [hout, hc.unchanged hfind] at hrun
    exact hrun
  | some x =>
    obtain ⟨⟨s, hx⟩, rfl, -⟩ := (Book.find_eq_some_iff h.valid).mp hout
    obtain ⟨p, hp, hpid⟩ : ∃ p ∈ L, p.1 = x.id := by
      rw [← List.mem_map, hr.given]
      exact List.mem_cons_of_mem _ (h.valid_and_ids.2 s x hx)
    have hpartner : ∀ f, Extends f L → f x.id = p.2 := fun f hf => hpid ▸ hf.maps p hp
    obtain ⟨f₀, hf₀⟩ := hr.exists_extends h
    obtain ⟨-, c', hrun, hc, -⟩ := hcall f₀ hf₀
    refine ⟨c', hc.counter, ?_⟩
    intro f hf
    obtain ⟨-, c'', hrun', -, -⟩ := hcall f hf
    rw [hpartner f₀ hf₀] at hrun
    rw [hpartner f hf] at hrun' ⊢
    rw [hout] at hrun hrun'
    rw [hrun, Option.some.injEq, Prod.mk.injEq] at hrun'
    rw [hrun, Option.some.injEq, Prod.mk.injEq]
    exact ⟨rfl, hrun'.2⟩

/-- **Every lawful run is realized**, as long as ids are left. -/
theorem Lawful.realized (h : Lawful evs) (hcounter : (OrderBook.given evs).length < 2 ^ 32) :
    ∃ L c, Realized evs L c := by
  induction h with
  | start => exact ⟨_, _, .start⟩
  | @snoc evs e h hnext ih =>
    have hle : (OrderBook.given evs).length ≤ (OrderBook.given (evs ++ [e])).length := by
      rw [given_append, List.length_append]
      exact Nat.le_add_right _ _
    obtain ⟨L, c, hr⟩ := ih (hle.trans_lt hcounter)
    cases hnext with
    | @submit o i hprice hroom hpos hnew =>
      have hlt : (OrderBook.given evs).length + 1 < 2 ^ 32 := by
        rw [given_append, List.length_append] at hcounter
        exact hcounter
      obtain ⟨n, c', hr'⟩ := hr.submit (i := i) h hprice hroom hlt
      exact ⟨_, c', hr'⟩
    | cancel hid =>
      obtain ⟨c', hr'⟩ := hr.cancel h hid
      exact ⟨L, c', hr'⟩

end OrderBook

end ExchangeEngine
