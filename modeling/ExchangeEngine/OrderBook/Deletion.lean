import ExchangeEngine.OrderBook.Realize
import ExchangeEngine.Untouched

/-!
# A cancelled order that was never touched leaves no trace

Take an order that rests in full, that matching never touches and that its owner cancels. Without
its submission and its cancellation the run hands out the same, up to a renumbering of the ids, and
leads to the same book.
-/

namespace ExchangeEngine

namespace OrderBook

/-- Matching does not touch the order `id` during `evs`, which follow `before`: no trade names it,
and it is never the order at which self-trade prevention stops an incoming one. -/
structure Untouched (id : Nat) (before evs : List Event) : Prop where
  untraded : ∀ o order rej trades, .submitted o order rej trades ∈ evs →
    ∀ t ∈ trades, t.buyOrderId ≠ id ∧ t.sellOrderId ≠ id
  unstopped : ∀ evs₁ evs₂ o order rej trades, evs = evs₁ ++ .submitted o order rej trades :: evs₂ →
    ∀ b, Trace b (before ++ evs₁) → ¬ b.resting.Stops o id

/-- The books list the same, under other ids: the depth of both sides and the queue of every level.
-/
structure ListsAlike (f : Nat → Nat) (b c : OrderBook) : Prop where
  depth : ∀ side limit, OrderBook.depth side c limit = OrderBook.depth side b limit
  queue : ∀ side price, price < maxPrice →
    c.queue side price = (b.queue side price).map (Order.renumber f)

variable {b c : OrderBook} {evs evs' pre mid post : List Event} {e : Event} {f : Nat → Nat}
  {o order x : Order} {B : Book} {i id rej : Nat} {trades : List Trade}

/-! ### One more event -/

/-- What rests after an event was given by it or rested before. -/
lemma Next.rests_before (h : Lawful evs) (hnext : Next evs e) {s : Bool} {r : Order}
    (hr : r ∈ e.replay (replay evs) s) : r.id ∈ e.given ∨ ∃ a ∈ replay evs s, a.id = r.id := by
  cases hnext with
  | @submit o i hprice hroom hpos hnew =>
    rcases Book.mem_submit (o := { o with id := i }) h.valid.pos hr with ⟨-, rfl⟩ | ⟨a, ha, q, rfl⟩
    · exact Or.inl List.mem_cons_self
    · exact Or.inr ⟨a, ha, rfl⟩
  | cancel hid => exact Or.inr ⟨r, (Book.cancel_sublist _ _ _ s).subset hr, rfl⟩

/-- An event gives a greater id than any before it. -/
lemma Next.given_lt (hnext : Next evs e) : ∀ k ∈ e.given, ∀ j ∈ given evs, j < k := by
  intro k hk j hj
  cases hnext with
  | submit hprice hroom hpos hnew =>
    rw [List.mem_singleton.mp hk]
    exact lt_of_before hnew j hj
  | cancel hid => exact absurd hk List.not_mem_nil

/-- The fills name every order that was served. -/
lemma served_of_fills (h : ∀ t ∈ B.fills o, t.buyOrderId ≠ id ∧ t.sellOrderId ≠ id) :
    ∀ y ∈ B.served o, y.1.id ≠ id := by
  intro y hy
  obtain ⟨hbuy, hsell⟩ := h _ (List.mem_map_of_mem hy)
  cases hs : o.side with
  | true => simpa [tradeOf, hs] using hsell
  | false => simpa [tradeOf, hs] using hbuy

/-- A submission that does not touch the order may come next where the order is missing. -/
lemma Next.submit_remove (h : Lawful evs) (hids : ∀ e ∈ evs', e ∈ evs)
    (hreplay : replay evs' = (replay evs).remove id) (hprice : o.price < maxPrice)
    (hroom : (replay evs true).length + (replay evs false).length < maxOrders) (hpos : 0 < i)
    (hnew : ∀ e ∈ evs, e.Before i) (hid : id < i)
    (htrade : ∀ t ∈ (replay evs).fills { o with id := i }, t.buyOrderId ≠ id ∧ t.sellOrderId ≠ id)
    (hstop : ¬ (replay evs).Stops o id) :
    Next evs' (submission (replay evs) o i) ∧
      (submission (replay evs) o i).replay (replay evs')
        = ((submission (replay evs) o i).replay (replay evs)).remove id := by
  have hserved := served_of_fills htrade
  have hstop' : ¬ (replay evs).Stops { o with id := i } id := hstop
  obtain ⟨halike, -⟩ := h.valid.tradesAlike hserved hstop'
  have hevent : submission (replay evs) o i = submission (replay evs') o i := by
    rw [submission, submission, hreplay, halike.placed, halike.rejected, halike.fills]
  constructor
  · rw [hevent]
    refine .submit hprice ?_ hpos fun e he => hnew e (hids e he)
    rw [hreplay]
    exact (Nat.add_le_add (Book.remove_sublist _ _ _).length_le
      (Book.remove_sublist _ _ _).length_le).trans_lt hroom
  · rw [replay_submission, hreplay]
    exact h.valid.submit_remove hserved hstop' hid.ne'

/-- So may a cancellation that leaves the order in the book. -/
lemma Next.cancel_remove {userId : Int} (hreplay : replay evs' = (replay evs).remove i)
    (hid : id ≠ 0) (hrests : ∃ s, ∃ r ∈ ((replay evs).cancel id userId).1 s, r.id = i) :
    Next evs' (.cancelled id userId ((replay evs).find id userId)) ∧
      ((replay evs').cancel id userId).1 = (((replay evs).cancel id userId).1).remove i := by
  by_cases hi : id = i
  · subst hi
    -- the call fails: otherwise the order would be gone
    have hnone : (replay evs).find id userId = none := by
      cases hfind : (replay evs).find id userId with
      | none => rfl
      | some x =>
        obtain ⟨s, r, hr, hrid⟩ := hrests
        rw [Book.cancel, hfind] at hr
        exact absurd hrid (of_decide_eq_true (List.mem_filter.mp hr).2)
    have hnone' : (replay evs').find id userId = none := by
      rw [hreplay, Book.find_remove_self]
    constructor
    · rw [hnone, ← hnone']
      exact .cancel hid
    · rw [Book.cancel, hnone', Book.cancel, hnone, hreplay]
  · constructor
    · have hfind : (replay evs').find id userId = (replay evs).find id userId := by
        rw [hreplay, Book.find_remove hi]
      rw [← hfind]
      exact .cancel hid
    · rw [hreplay, Book.cancel_remove hi]

/-! ### The whole run -/

/-- The order is missing and nothing else differs, as long as it rests untouched. -/
lemma Lawful.hide (h : Lawful (pre ++ .submitted o order rej trades :: mid))
    (hfull : order.quantity = o.quantity)
    (huntraded : ∀ o' order' rej' trades', .submitted o' order' rej' trades' ∈ mid →
      ∀ t ∈ trades', t.buyOrderId ≠ order.id ∧ t.sellOrderId ≠ order.id)
    (hunstopped : ∀ mid₁ mid₂ o' order' rej' trades',
      mid = mid₁ ++ .submitted o' order' rej' trades' :: mid₂ →
      ¬ (replay (pre ++ .submitted o order rej trades :: mid₁)).Stops o' order.id)
    (hrests : ∃ s, ∃ r ∈ replay (pre ++ .submitted o order rej trades :: mid) s, r.id = order.id) :
    Lawful (pre ++ mid) ∧ replay (pre ++ mid)
      = (replay (pre ++ .submitted o order rej trades :: mid)).remove order.id := by
  induction mid using List.reverseRecOn with
  | nil =>
    obtain ⟨hpre, hnext⟩ := h.last
    rw [List.append_nil, replay_snoc]
    refine ⟨hpre, ?_⟩
    generalize he : Event.submitted o order rej trades = e at hnext
    cases hnext with
    | @submit o' i hprice hroom hpos hnew =>
      obtain ⟨rfl, rfl, -⟩ := Event.submitted.inj he
      refine (hpre.valid.remove_submit (o := { o with id := i }) ?_ hfull).symm
      exact fun s r hr => (lt_of_before hnew _ (hpre.valid_and_ids.2 s r hr)).ne
    | cancel hid => cases he
  | append_singleton mid e ih =>
    rw [← List.cons_append, ← List.append_assoc] at h hrests ⊢
    obtain ⟨hprev, hnext⟩ := h.last
    have hmem : order.id ∈ given (pre ++ .submitted o order rej trades :: mid) :=
      List.mem_flatMap.mpr ⟨_, List.mem_append_right _ List.mem_cons_self, List.mem_cons_self⟩
    have hrest : ∃ s, ∃ r ∈ replay (pre ++ .submitted o order rej trades :: mid) s,
        r.id = order.id := by
      obtain ⟨s, r, hr, hrid⟩ := hrests
      rw [replay_snoc] at hr
      rcases hnext.rests_before hprev hr with hgiven | ⟨a, ha, haid⟩
      · exact absurd hrid (hnext.given_lt _ hgiven _ hmem).ne'
      · exact ⟨s, a, ha, haid.trans hrid⟩
    obtain ⟨hlawful, hreplay⟩ := ih hprev (fun o' order' rej' trades' hm =>
        huntraded o' order' rej' trades' (List.mem_append_left _ hm))
      (fun mid₁ mid₂ o' order' rej' trades' hm =>
        hunstopped mid₁ (mid₂ ++ [e]) o' order' rej' trades' (by simp [hm])) hrest
    have hids : ∀ e ∈ pre ++ mid, e ∈ pre ++ .submitted o order rej trades :: mid := by
      intro e he
      rcases List.mem_append.mp he with he | he
      · exact List.mem_append_left _ he
      · exact List.mem_append_right _ (List.mem_cons_of_mem _ he)
    suffices hstep : Next (pre ++ mid) e ∧ e.replay (replay (pre ++ mid))
        = (e.replay (replay (pre ++ .submitted o order rej trades :: mid))).remove order.id by
      rw [← List.append_assoc, replay_snoc, replay_snoc]
      exact ⟨hlawful.snoc hstep.1, hstep.2⟩
    cases hnext with
    | @submit o' i hprice hroom hpos hnew =>
      refine Next.submit_remove hprev hids hreplay hprice hroom hpos hnew
        (lt_of_before hnew _ hmem) ?_ ?_
      · exact huntraded _ _ _ _ (List.mem_append_right _ (List.mem_singleton.mpr rfl))
      · exact hunstopped mid [] _ _ _ _ rfl
    | cancel hid =>
      rw [replay_snoc] at hrests
      exact Next.cancel_remove hreplay hid hrests

/-- After the cancellation the two runs go on alike. -/
lemma Lawful.graft (h : Lawful (evs ++ post)) (h' : Lawful evs') (hreplay : replay evs' = replay evs)
    (hsub : ∀ e ∈ evs', e ∈ evs) :
    Lawful (evs' ++ post) ∧ replay (evs' ++ post) = replay (evs ++ post) := by
  induction post using List.reverseRecOn with
  | nil => simpa using ⟨h', hreplay⟩
  | append_singleton post e ih =>
    rw [← List.append_assoc] at h
    obtain ⟨h, hnext⟩ := h.last
    obtain ⟨hlawful, hpost⟩ := ih h
    rw [← List.append_assoc, ← List.append_assoc, replay_snoc, replay_snoc, hpost]
    refine ⟨hlawful.snoc ?_, rfl⟩
    cases hnext with
    | submit hprice hroom hpos hnew =>
      rw [← hpost] at hroom ⊢
      refine .submit hprice hroom hpos ?_
      intro e he
      apply hnew e
      rcases List.mem_append.mp he with he | he
      · exact List.mem_append_left _ (hsub e he)
      · exact List.mem_append_right _ he
    | cancel hid =>
      rw [← hpost]
      exact .cancel hid

/-- A beginning of a trace is a trace. -/
lemma Trace.of_append (h : Trace b (evs ++ evs')) : ∃ b₁, Trace b₁ evs := by
  induction evs' using List.reverseRecOn generalizing b with
  | nil => exact ⟨b, List.append_nil evs ▸ h⟩
  | append_singleton evs' e ih =>
    rw [← List.append_assoc] at h
    obtain ⟨b₁, h₁, -⟩ := h.last
    exact ih h₁

lemma Lawful.of_append (h : Lawful (evs ++ evs')) : Lawful evs := by
  induction evs' using List.reverseRecOn with
  | nil => exact List.append_nil evs ▸ h
  | append_singleton evs' e ih =>
    rw [← List.append_assoc] at h
    exact ih h.last.1

/-- Books of the same replayed events list the same. -/
lemma listsAlike (h : Trace b evs) (h' : Trace c (evs'.map (Event.renumber f)))
    (hf : Function.Injective f) (hreplay : replay evs' = replay evs) : ListsAlike f b c := by
  have hresting : c.resting = b.resting.renumber f := by
    rw [h'.resting_eq, replay_renumber hf, hreplay, h.resting_eq]
  constructor
  · intro side limit
    rw [depth_spec h'.inv, depth_spec h.inv, hresting, Book.depth_renumber]
  · intro side price hprice
    rw [h'.inv.queue_eq side hprice, h.inv.queue_eq side hprice, hresting, Book.atPrice_renumber]

/-- **A cancelled untouched order leaves no trace**: without its submission and its cancellation
there is a run with the same events under other ids, and from the cancellation on the books list
the same. -/
theorem deleted_without_trace
    (h : Trace b (pre ++ .submitted o order rej trades :: mid
      ++ .cancelled order.id o.userId (some x) :: post))
    (hfull : order.quantity = o.quantity)
    (huntouched : Untouched order.id (pre ++ [.submitted o order rej trades]) mid) :
    ∃ f : Equiv.Perm Nat, f 0 = 0 ∧
      (∃ c, Trace c ((pre ++ mid ++ post).map (Event.renumber f))) ∧
      ∀ post₁, post₁ <+: post → ∀ b₁ c₁,
        Trace b₁ (pre ++ .submitted o order rej trades :: mid
          ++ .cancelled order.id o.userId (some x) :: post₁) →
        Trace c₁ ((pre ++ mid ++ post₁).map (Event.renumber f)) → ListsAlike f b₁ c₁ := by
  have hlawful := h.lawful
  rw [List.append_cons] at hlawful
  obtain ⟨hprev, hnext⟩ := hlawful.of_append.last
  -- when it is cancelled the order rests
  have hfind : (replay (pre ++ .submitted o order rej trades :: mid)).find order.id o.userId
      = some x := by
    generalize he : Event.cancelled order.id o.userId (some x) = e at hnext
    cases hnext with
    | submit hprice hroom hpos hnew => cases he
    | cancel hid =>
      obtain ⟨rfl, rfl, hout⟩ := Event.cancelled.inj he
      exact hout.symm
  have hrests : ∃ s, ∃ r ∈ replay (pre ++ .submitted o order rej trades :: mid) s,
      r.id = order.id := by
    obtain ⟨⟨s, hx⟩, hxid, -⟩ := (Book.find_eq_some_iff hprev.valid).mp hfind
    exact ⟨s, x, hx, hxid⟩
  obtain ⟨hrest, hreplay⟩ := hprev.hide hfull huntouched.untraded
    (fun mid₁ mid₂ o' order' rej' trades' hmid => by
      have hsplit : pre ++ .submitted o order rej trades :: mid
            ++ .cancelled order.id o.userId (some x) :: post
          = pre ++ .submitted o order rej trades :: mid₁
            ++ (.submitted o' order' rej' trades' :: mid₂
              ++ .cancelled order.id o.userId (some x) :: post) := by
        simp [hmid]
      rw [hsplit] at h
      obtain ⟨b₁, h₁⟩ := h.of_append
      rw [← h₁.resting_eq]
      exact huntouched.unstopped mid₁ mid₂ o' order' rej' trades' hmid b₁ (by simpa using h₁))
    hrests
  have hcancel : replay (pre ++ mid) = replay (pre ++ .submitted o order rej trades :: mid
      ++ [.cancelled order.id o.userId (some x)]) := by
    rw [replay_snoc, Event.replay, Book.cancel, hfind, hreplay]
  have hsub : ∀ e ∈ pre ++ mid, e ∈ pre ++ .submitted o order rej trades :: mid
      ++ [.cancelled order.id o.userId (some x)] := by
    intro e he
    simp only [List.mem_append, List.mem_cons] at he ⊢
    tauto
  obtain ⟨hrun, -⟩ := hlawful.graft hrest hcancel hsub
  -- the engine has enough ids for what is left of the run
  have hids : (given (pre ++ mid ++ post)).length < 2 ^ 32 := by
    refine lt_of_le_of_lt ?_ h.counter_lt
    rw [h.counter_eq]
    simp only [given_append, given_cons, List.length_append]
    omega
  obtain ⟨L, c, hr⟩ := hrun.realized hids
  obtain ⟨f, hf⟩ := hr.exists_extends hrun
  refine ⟨f, hf.maps _ hr.zero, ⟨c, hr.trace f hf⟩, ?_⟩
  rintro post₁ ⟨post₂, rfl⟩ b₁ c₁ h₁ h₁'
  apply listsAlike h₁ h₁' f.injective
  have hlawful₁ := h₁.lawful
  rw [List.append_cons] at hlawful₁ ⊢
  exact (hlawful₁.graft hrest hcancel hsub).2

/-- A bid below that of `sampleOrder`, of another user. -/
def sampleLowerBid : Order := ⟨0, 8, 0, 99, 3, 1, true⟩

lemma sampleLowerBid_run : ∃ r r' b x, processOrder true 100001 listening sampleOrder = some r ∧
    processOrder true 100001 r.book sampleLowerBid = some r' ∧
    cancelOrder r'.book r.order.id 7 = some (b, some x) ∧
    canProcessOrder r.book sampleLowerBid = true ∧ r.book.orderIdCounter = 1 ∧
    r.order.id ≠ 0 ∧ r.order.quantity = 5 ∧ r'.notified = [] := by
  have hrun : ((processOrder true 100001 listening sampleOrder).bind fun r =>
      (processOrder true 100001 r.book sampleLowerBid).bind fun r' =>
        (cancelOrder r'.book r.order.id 7).map fun x => decide (x.2.isSome = true ∧
          canProcessOrder r.book sampleLowerBid = true ∧ r.book.orderIdCounter = 1 ∧
          r.order.id ≠ 0 ∧ r.order.quantity = 5 ∧ r'.notified = [])) = some true := by
    decide +kernel
  obtain ⟨r, hr, hrun⟩ := Option.bind_eq_some_iff.mp hrun
  obtain ⟨r', hr', hrun⟩ := Option.bind_eq_some_iff.mp hrun
  obtain ⟨⟨b, out⟩, hcancel, hrun⟩ := Option.map_eq_some_iff.mp hrun
  obtain ⟨hout, hrest⟩ := of_decide_eq_true hrun
  obtain ⟨x, rfl⟩ := Option.isSome_iff_exists.mp hout
  exact ⟨r, r', b, x, hr, hr', hcancel, hrest⟩

/-- Nothing rests that a bid could reach after `sampleOrder` alone. -/
lemma untouched_sampleOrder {order order' : Order} {rej rej' : Nat} {trades : List Trade} :
    Untouched order.id ([] ++ [.submitted sampleOrder order rej trades])
      [.submitted sampleLowerBid order' rej' []] where
  untraded o' order' rej' trades' hmem t ht := by
    obtain ⟨-, -, -, rfl⟩ := Event.submitted.inj (List.mem_singleton.mp hmem)
    exact absurd ht List.not_mem_nil
  unstopped evs₁ evs₂ o' order' rej' trades' hsplit b₁ h₁ := by
    cases evs₁ with
    | cons e evs₁ => simp at hsplit
    | nil =>
      obtain ⟨rfl, -⟩ := Event.submitted.inj (List.cons.inj hsplit).1
      have hnone : b₁.resting.crossing sampleLowerBid = [] := by
        rw [h₁.resting_eq]
        rfl
      rintro ⟨l₁, x, l₂, hcrossing, -⟩
      rw [hnone] at hcrossing
      exact absurd hcrossing (by simp)

theorem deleted_without_trace_sampleOrder : ∃ e, ∃ f : Equiv.Perm Nat, f 0 = 0 ∧
    ∃ c, Trace c (([] ++ [e] ++ []).map (Event.renumber f)) := by
  obtain ⟨r, r', b, x, hr, hr', hcancel, hcan', hcounter, hid, hfull, hnone⟩ := sampleLowerBid_run
  have hcan : canProcessOrder listening sampleOrder = true := by decide +kernel
  have h : Trace r.book [.submitted sampleOrder r.order r.rejectedQty r.notified] :=
    Trace.submit Trace.start hcan (by decide) hr
  have hlt : r.book.orderIdCounter + 1 < 2 ^ 32 := by
    rw [hcounter]
    decide
  have h' : Trace b ([] ++ .submitted sampleOrder r.order r.rejectedQty r.notified
      :: [.submitted sampleLowerBid r'.order r'.rejectedQty []]
      ++ .cancelled r.order.id sampleOrder.userId (some x) :: []) := by
    rw [← hnone]
    exact (h.submit hcan' hlt hr').cancel hid hcancel
  obtain ⟨f, hzero, hc, -⟩ := deleted_without_trace h' hfull untouched_sampleOrder
  exact ⟨_, f, hzero, hc⟩

end OrderBook

end ExchangeEngine
