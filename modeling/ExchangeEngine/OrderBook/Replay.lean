import ExchangeEngine.OrderBook.Accounting

/-!
# Runs without the data structures

`replay` computes from what a run handed out which orders rest, and `Lawful` says which lists of
events the price-time-priority book allows. Every trace is lawful.
-/

namespace ExchangeEngine

namespace OrderBook

/-! ### Replaying events -/

/-- The book after one more event. -/
def Event.replay (B : Book) : Event → Book
  | submitted o order _ _ => B.submit { o with id := order.id }
  | cancelled id userId _ => (B.cancel id userId).1

/-- The book after all events. -/
def replay (evs : List Event) : Book := evs.foldl Event.replay Book.empty

/-- What the book hands out for `o` when it gives it the id `i`. -/
def submission (B : Book) (o : Order) (i : Nat) : Event :=
  .submitted o { o with id := i, quantity := B.placed { o with id := i } }
    (B.rejected { o with id := i }) (B.fills { o with id := i })

/-- An event that may come next: a submission with a new greatest id while there is room, or any
cancellation of a non-zero id. -/
inductive Next (evs : List Event) : Event → Prop
  | submit {o : Order} {i : Nat} (hprice : o.price < maxPrice)
      (hroom : (replay evs true).length + (replay evs false).length < maxOrders) (hpos : 0 < i)
      (hnew : ∀ e ∈ evs, e.Before i) : Next evs (submission (replay evs) o i)
  | cancel {id : Nat} {userId : Int} (hid : id ≠ 0) :
      Next evs (.cancelled id userId ((replay evs).find id userId))

/-- The events of a run of the price-time-priority book. -/
inductive Lawful : List Event → Prop
  | start : Lawful []
  | snoc {evs : List Event} {e : Event} (h : Lawful evs) (hnext : Next evs e) : Lawful (evs ++ [e])

/-- The ids an event gives to accepted orders. -/
def Event.given : Event → List Nat
  | submitted _ order _ _ => [order.id]
  | cancelled _ _ _ => []

/-- The ids given by a run. -/
def given (evs : List Event) : List Nat := evs.flatMap Event.given

variable {b c : OrderBook} {evs : List Event} {e : Event} {f : Nat → Nat} {B : Book} {o : Order}
  {i : Nat}

@[simp] lemma replay_snoc : replay (evs ++ [e]) = e.replay (replay evs) := by
  rw [replay, List.foldl_append]
  rfl

@[simp] lemma given_append (evs evs' : List Event) : given (evs ++ evs') = given evs ++ given evs' :=
  List.flatMap_append

@[simp] lemma given_cons : given (e :: evs) = e.given ++ given evs := List.flatMap_cons

@[simp] lemma given_singleton : given [e] = e.given := List.flatMap_singleton ..

@[simp] lemma replay_submission :
    (submission B o i).replay B = B.submit { o with id := i } := rfl

lemma Lawful.last (h : Lawful (evs ++ [e])) : Lawful evs ∧ Next evs e := by
  generalize hl : evs ++ [e] = l at h
  cases h with
  | start => exact absurd hl (by simp)
  | snoc h hnext =>
    obtain ⟨rfl, he⟩ := List.append_inj' hl rfl
    rw [(List.cons.inj he).1]
    exact ⟨h, hnext⟩

lemma lt_of_before (h : ∀ e ∈ evs, e.Before i) : ∀ k ∈ given evs, k < i := by
  intro k hk
  obtain ⟨e, he, hk⟩ := List.mem_flatMap.mp hk
  have hbefore := h e he
  cases e with
  | submitted o order rej trades =>
    rw [List.mem_singleton.mp hk]
    exact hbefore.1
  | cancelled id userId out => exact absurd hk List.not_mem_nil

/-- **The replayed book is well formed**, and only ids that were given rest in it. -/
theorem Lawful.valid_and_ids (h : Lawful evs) :
    (replay evs).Valid ∧ ∀ s, ∀ r ∈ replay evs s, r.id ∈ given evs := by
  induction h with
  | start => exact ⟨Book.valid_empty, fun s r hr => absurd hr List.not_mem_nil⟩
  | @snoc evs e h hnext ih =>
    obtain ⟨hvalid, hids⟩ := ih
    rw [replay_snoc, given_append, given_singleton]
    cases hnext with
    | @submit o i hprice hroom hpos hnew =>
      rw [replay_submission]
      refine ⟨hvalid.submit hprice fun s r hr => lt_of_before hnew _ (hids s r hr), ?_⟩
      intro s r hr
      rw [List.mem_append]
      rcases Book.mem_submit (o := { o with id := i }) hvalid.pos hr with ⟨-, rfl⟩ | ⟨a, ha, q, rfl⟩
      · exact Or.inr List.mem_cons_self
      · exact Or.inl (hids s a ha)
    | cancel hid =>
      refine ⟨hvalid.cancel _ _, fun s r hr => List.mem_append_left _ ?_⟩
      exact hids s r ((Book.cancel_sublist _ _ _ s).subset hr)

lemma Lawful.valid (h : Lawful evs) : (replay evs).Valid := h.valid_and_ids.1

/-- No id is given twice, and none is zero. -/
lemma Lawful.given_nodup (h : Lawful evs) : (0 :: given evs).Nodup := by
  induction h with
  | start => exact List.nodup_singleton 0
  | @snoc evs e h hnext ih =>
    rw [given_append, given_singleton]
    cases hnext with
    | @submit o i hprice hroom hpos hnew =>
      rw [← List.cons_append, List.nodup_append]
      refine ⟨ih, List.nodup_singleton _, ?_⟩
      intro k hk j hj
      rw [List.mem_singleton.mp hj]
      rcases List.mem_cons.mp hk with rfl | hk
      · exact hpos.ne
      · exact (lt_of_before hnew k hk).ne
    | cancel hid => rwa [Event.given, List.append_nil]

/-! ### Traces are lawful -/

lemma resting_listening : listening.resting = Book.empty := resting_new

/-- The resting orders of a trace are those of its events. -/
theorem Trace.resting_eq (h : Trace b evs) : b.resting = replay evs := by
  induction h with
  | start => exact resting_listening
  | submit h hcan hcounter hrun ih =>
    obtain ⟨i, -, hs, -⟩ := h.submit_spec hcan hcounter hrun
    rw [replay_snoc, ← ih, hs.resting, Event.replay, hs.order]
  | cancel h hid hrun ih =>
    obtain ⟨-, hc⟩ := h.cancel_spec hid hrun
    rw [replay_snoc, ← ih, hc.resting, Event.replay]

lemma Trace.counter_eq (h : Trace b evs) : b.orderIdCounter = (given evs).length := by
  induction h with
  | start => rfl
  | submit h hcan hcounter hrun ih =>
    obtain ⟨i, -, hs, -⟩ := h.submit_spec hcan hcounter hrun
    rw [hs.counter, ih, given_append, List.length_append]
    rfl
  | cancel h hid hrun ih =>
    obtain ⟨-, hc⟩ := h.cancel_spec hid hrun
    rw [hc.counter, ih, given_append, List.length_append]
    rfl

lemma Trace.counter_lt (h : Trace b evs) : b.orderIdCounter < 2 ^ 32 := by
  induction h with
  | start => exact Nat.two_pow_pos 32
  | submit h hcan hcounter hrun ih =>
    obtain ⟨i, -, hs, -⟩ := h.submit_spec hcan hcounter hrun
    rw [hs.counter]
    exact hcounter
  | cancel h hid hrun ih =>
    obtain ⟨-, hc⟩ := h.cancel_spec hid hrun
    rw [hc.counter]
    exact ih

theorem Trace.lawful (h : Trace b evs) : Lawful evs := by
  induction h with
  | start => exact .start
  | @submit b evs o fuel r h hcan hcounter hrun ih =>
    obtain ⟨i, -, hs, hnotified⟩ := h.submit_spec hcan hcounter hrun
    obtain ⟨hprice, hfree⟩ : o.price < maxPrice ∧ b.freeIndices ≠ [] := by
      simpa [canProcessOrder] using hcan
    have hroom : (replay evs true).length + (replay evs false).length < maxOrders := by
      have hcount := h.inv.slots_count
      have hfree := List.length_pos_iff.mpr hfree
      rw [h.resting_eq] at hcount
      omega
    have hevent : Event.submitted o r.order r.rejectedQty r.notified
        = submission (replay evs) o ((b.orderIdCounter + 1) * 2 ^ 32 + i) := by
      rw [hs.order, hs.rejected, hnotified, h.resting_eq, submission]
    rw [hevent]
    refine ih.snoc (.submit hprice hroom ?_ ?_)
    · exact Nat.add_pos_left (Nat.mul_pos (Nat.succ_pos _) (Nat.two_pow_pos 32)) i
    · exact fun e he => (h.before.1 e he).mono (Nat.le_add_right _ i)
  | cancel h hid hrun ih =>
    obtain ⟨hout, -⟩ := h.cancel_spec hid hrun
    rw [hout, h.resting_eq]
    exact ih.snoc (.cancel hid)

end OrderBook

end ExchangeEngine
