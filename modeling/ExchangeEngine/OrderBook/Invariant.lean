import ExchangeEngine.OrderBook.Basic
import ExchangeEngine.PriceTime

/-!
# The representation invariant of `OrderBook`

The book couples a node pool, a stack of free slots, an array of linked lists per side and a
bitmap per side. `Lists b ix held` relates the first three: `ix` gives the slots queued at every
price level, `held` the slots that were popped and are not linked yet. `Marks` relates the queues
to the bitmaps. Between operations nothing is held, and the two together with the
well-formedness of the listed orders are the invariant `Inv`.

`resting` reads the book as a price-time-priority book.
-/

namespace ExchangeEngine

namespace OrderBook

open LinkedList

/-! ### Reading the lists -/

def next (b : OrderBook) (i : Nat) : Nat := (b.nodePool i).nextIdx

def prev (b : OrderBook) (i : Nat) : Nat := (b.nodePool i).prevIdx

def orderAt (b : OrderBook) (i : Nat) : Order := (b.nodePool i).order

/-- The slots visited by following `next_idx` from `head_idx`. -/
def levelIndices (b : OrderBook) (side : Bool) (price : Nat) : List Nat :=
  walk b.next nullIdx maxOrders ((b.half side).levels price).headIdx

/-- The orders queued at a price level, in list order. -/
def queue (b : OrderBook) (side : Bool) (price : Nat) : List Order :=
  (b.levelIndices side price).map b.orderAt

/-- The orders listed level by level, best price first. -/
def resting (b : OrderBook) : Book := fun side =>
  (Scan.positions side maxPrice).flatMap (b.queue side)

/-! ### The invariant -/

/-- The slots of every level, as a function of side and price. -/
abbrev Slots := Bool → Nat → List Nat

/-- The node pool, the free stack and the level lists agree. -/
structure Lists (b : OrderBook) (ix : Slots) (held : List Nat) : Prop where
  linked : ∀ s p, p < maxPrice → DList b.next b.prev nullIdx
    ((b.half s).levels p).headIdx ((b.half s).levels p).tailIdx (ix s p)
  count : ∀ s p, p < maxPrice → ((b.half s).levels p).orderCount = (ix s p).length
  total : ∀ s p, p < maxPrice → ((b.half s).levels p).totalQuantity
    = Consume.total Order.quantity ((ix s p).map b.orderAt) % 2 ^ 32
  slot : ∀ s p, ∀ i ∈ ix s p, p < maxPrice ∧ i < maxOrders
  order : ∀ s p, ∀ i ∈ ix s p,
    (b.orderAt i).side = s ∧ (b.orderAt i).price = p ∧ 0 < (b.orderAt i).quantity
  id : ∀ s p, ∀ i ∈ ix s p, ∃ k, 0 < k ∧ k ≤ b.orderIdCounter ∧
    (b.orderAt i).id = k * 2 ^ 32 + i
  free_nodup : (held ++ b.freeIndices).Nodup
  free : ∀ i ∈ held ++ b.freeIndices, i < maxOrders ∧ (b.orderAt i).id = 0
  cover : ∀ i < maxOrders, i ∈ held ++ b.freeIndices ∨ ∃ s p, i ∈ ix s p

/-- The orders of every level, as a function of side and price. -/
abbrev Queues := Bool → Nat → List Order

/-- The orders held by the given slots. -/
def ordersOf (b : OrderBook) (ix : Slots) : Queues := fun s p => (ix s p).map b.orderAt

/-- The bitmaps mark exactly the non-empty levels. -/
def Marks (b : OrderBook) (Q : Queues) : Prop :=
  ∀ s, (b.half s).bits.Rep fun p => Q s p ≠ []

/-- `b'` differs from `b` in the node pool, the lists and the free stack only. -/
structure Frame (b b' : OrderBook) : Prop where
  bits : ∀ s, (b'.half s).bits = (b.half s).bits
  counter : b'.orderIdCounter = b.orderIdCounter
  listener : b'.tradeListener = b.tradeListener

lemma Frame.refl (b : OrderBook) : Frame b b := ⟨fun _ => rfl, rfl, rfl⟩

lemma Frame.trans {b b' b'' : OrderBook} (h : Frame b b') (h' : Frame b' b'') : Frame b b'' :=
  ⟨fun s => (h'.bits s).trans (h.bits s), h'.counter.trans h.counter,
    h'.listener.trans h.listener⟩

lemma Marks.of_bits {b b' : OrderBook} {Q : Queues} (hm : Marks b Q)
    (h : ∀ s, (b'.half s).bits = (b.half s).bits) : Marks b' Q := by
  intro s
  rw [h s]
  exact hm s

lemma Frame.marks {b b' : OrderBook} {Q : Queues} (h : Frame b b') (hm : Marks b Q) :
    Marks b' Q := hm.of_bits h.bits

/-- The contents of the level at `(s, p)` replaced by `l`. -/
def setAt {α : Type*} (f : Bool → Nat → α) (s : Bool) (p : Nat) (l : α) : Bool → Nat → α :=
  fun s' p' => if s' = s ∧ p' = p then l else f s' p'

@[simp] lemma setAt_same {α : Type*} (f : Bool → Nat → α) (s : Bool) (p : Nat) (l : α) :
    setAt f s p l s p = l := by
  simp [setAt]

lemma setAt_of_ne {α : Type*} {f : Bool → Nat → α} {s s' : Bool} {p p' : Nat} {l : α}
    (h : ¬ (s' = s ∧ p' = p)) : setAt f s p l s' p' = f s' p' := if_neg h

lemma setAt_self {α : Type*} (f : Bool → Nat → α) (s : Bool) (p : Nat) :
    setAt f s p (f s p) = f := by
  funext s' p'
  by_cases e : s' = s ∧ p' = p
  · obtain ⟨rfl, rfl⟩ := e
    rw [setAt_same]
  · rw [setAt_of_ne e]

lemma setAt_setAt {α : Type*} (f : Bool → Nat → α) (s : Bool) (p : Nat) (x y : α) :
    setAt (setAt f s p x) s p y = setAt f s p y := by
  funext s' p'
  by_cases e : s' = s ∧ p' = p
  · obtain ⟨rfl, rfl⟩ := e
    rw [setAt_same, setAt_same]
  · rw [setAt_of_ne e, setAt_of_ne e, setAt_of_ne e]

section

variable {b : OrderBook} {ix : Slots} {held : List Nat} {s s' : Bool} {p p' i : Nat}

lemma Lists.id_ne_zero (h : Lists b ix held) (hi : i ∈ ix s p) : (b.orderAt i).id ≠ 0 := by
  obtain ⟨k, hk, -, hid⟩ := h.id s p i hi
  omega

/-- A queued slot is neither free nor held. -/
lemma Lists.not_free (h : Lists b ix held) (hi : i ∈ ix s p) : i ∉ held ++ b.freeIndices :=
  fun hf => h.id_ne_zero hi (h.free i hf).2

/-- A slot is queued at one level only. -/
lemma Lists.level_unique (h : Lists b ix held) (hi : i ∈ ix s p) (hi' : i ∈ ix s' p') :
    s = s' ∧ p = p' := by
  obtain ⟨hs, hp, -⟩ := h.order s p i hi
  obtain ⟨hs', hp', -⟩ := h.order s' p' i hi'
  exact ⟨hs.symm.trans hs', hp.symm.trans hp'⟩

/-- No slot is queued at a price out of range. -/
lemma Lists.eq_nil_of_not_lt (h : Lists b ix held) (hp : ¬ p < maxPrice) : ix s p = [] := by
  rw [List.eq_nil_iff_forall_not_mem]
  intro i hi
  exact hp (h.slot s p i hi).1

lemma Lists.nodup (h : Lists b ix held) (s : Bool) (p : Nat) : (ix s p).Nodup := by
  by_cases hp : p < maxPrice
  · exact (h.linked s p hp).nodup
  · rw [h.eq_nil_of_not_lt hp]
    exact List.nodup_nil

lemma Lists.length_le (h : Lists b ix held) (s : Bool) (p : Nat) :
    (ix s p).length ≤ maxOrders := by
  have hsub : ix s p ⊆ List.range maxOrders := by
    intro i hi
    exact List.mem_range.mpr (h.slot s p i hi).2
  simpa using ((h.nodup s p).subperm hsub).length_le

/-- Walking a level from its head visits exactly its slots. -/
lemma Lists.levelIndices_eq (h : Lists b ix held) (hp : p < maxPrice) :
    b.levelIndices s p = ix s p :=
  (h.linked s p hp).walk_eq (h.length_le s p)

lemma Lists.queue_eq (h : Lists b ix held) (hp : p < maxPrice) :
    b.queue s p = (ix s p).map b.orderAt := by
  rw [queue, h.levelIndices_eq hp]

end

end OrderBook

end ExchangeEngine
