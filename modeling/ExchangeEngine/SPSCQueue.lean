import ExchangeEngine.Library.Ring
import Mathlib.Data.List.Induction

/-!
# The queue between the sessions and the engine thread

`SPSCQueue` of `Server.h`, step by step: the producer and the consumer each run their loads, their
access to the buffer and their store as atomic steps, interleaved in any way. Between two steps a
side remembers what it has loaded, which the other side may have changed meanwhile.
-/

namespace ExchangeEngine

/-- Where the producer is in `push(item)`. -/
inductive Pushing (α : Type*)
  | idle
  | loadedTail (item : α) (tail : Nat)
  /-- about to write slot `tail` -/
  | checked (item : α) (tail nextTail : Nat)
  | written (item : α) (nextTail : Nat)

/-- Where the consumer is in `pop(item)`. -/
inductive Popping (α : Type*)
  | idle
  | loadedHead (head : Nat)
  /-- about to read slot `head` -/
  | checked (head : Nat)
  | read (item : α) (head : Nat)

structure SPSCQueue (α : Type*) where
  head : Nat
  tail : Nat
  buffer : Nat → α
  pushing : Pushing α
  popping : Popping α

namespace SPSCQueue

/-- What a step returns to the caller. -/
inductive Returned (α : Type*)
  | nothing
  | pushed (item : α)
  | pushFailed
  | popped (item : α)
  | popFailed

variable {α : Type*}

/-- The queue after construction; the slots hold default values. -/
def new (buffer : Nat → α) : SPSCQueue α := ⟨0, 0, buffer, .idle, .idle⟩

/-- The next step of the producer; `item` is what it pushes when it starts a call. -/
def pushStep (size : Nat) (item : α) (q : SPSCQueue α) : SPSCQueue α × Returned α :=
  match q.pushing with
  | .idle => ({ q with pushing := .loadedTail item q.tail }, .nothing)
  | .loadedTail item tail =>
    let nextTail := (tail + 1) &&& (size - 1)
    if nextTail = q.head then ({ q with pushing := .idle }, .pushFailed)
    else ({ q with pushing := .checked item tail nextTail }, .nothing)
  | .checked item tail nextTail =>
    ({ q with
        buffer := Function.update q.buffer tail item
        pushing := .written item nextTail },
      .nothing)
  | .written item nextTail => ({ q with tail := nextTail, pushing := .idle }, .pushed item)

/-- The next step of the consumer; `left` is what moving an item out leaves in its slot. -/
def popStep (size : Nat) (left : α) (q : SPSCQueue α) : SPSCQueue α × Returned α :=
  match q.popping with
  | .idle => ({ q with popping := .loadedHead q.head }, .nothing)
  | .loadedHead head =>
    if head = q.tail then ({ q with popping := .idle }, .popFailed)
    else ({ q with popping := .checked head }, .nothing)
  | .checked head =>
    ({ q with
        buffer := Function.update q.buffer head left
        popping := .read (q.buffer head) head },
      .nothing)
  | .read item head =>
    ({ q with head := (head + 1) &&& (size - 1), popping := .idle }, .popped item)

/-- A step of one side. -/
inductive Move (α : Type*)
  | push (item : α)
  | pop (left : α)

def step (size : Nat) (q : SPSCQueue α) : Move α → SPSCQueue α × Returned α
  | .push item => q.pushStep size item
  | .pop left => q.popStep size left

/-- The queue after an interleaving of steps, and what they returned. -/
def run (size : Nat) (buffer : Nat → α) (moves : List (Move α)) :
    SPSCQueue α × List (Returned α) :=
  moves.foldl (fun x move => ((x.1.step size move).1, x.2 ++ [(x.1.step size move).2]))
    (new buffer, [])

/-- The items accepted by successful pushes. -/
def Returned.accepted : Returned α → Option α
  | .pushed item => some item
  | _ => none

/-- The items returned by successful pops. -/
def Returned.taken : Returned α → Option α
  | .popped item => some item
  | _ => none

/-! ### The bounded queue it stands for -/

/-- A bounded queue: what was returned, and what is in it. -/
structure Fifo (α : Type*) where
  taken : List α
  queue : List α

/-- What the steps may do to a queue of at most `capacity` items. -/
inductive Fifo.Step (capacity : Nat) : Fifo α → Returned α → Fifo α → Prop
  | nothing (s : Fifo α) : Step capacity s .nothing s
  | pushed {s : Fifo α} (item : α) (h : s.queue.length < capacity) :
      Step capacity s (.pushed item) ⟨s.taken, s.queue ++ [item]⟩
  | pushFailed {s : Fifo α} (h : s.queue.length = capacity) : Step capacity s .pushFailed s
  | popped {s : Fifo α} {item : α} {queue : List α} (h : s.queue = item :: queue) :
      Step capacity s (.popped item) ⟨s.taken ++ [item], queue⟩
  | popFailed {s : Fifo α} (h : s.queue = []) : Step capacity s .popFailed s

/-- From the empty queue, steps that return `returned` lead to `s`. -/
inductive Fifo.Run (capacity : Nat) : List (Returned α) → Fifo α → Prop
  | start : Run capacity [] ⟨[], []⟩
  | snoc {returned : List (Returned α)} {s s' : Fifo α} {r : Returned α}
      (h : Run capacity returned s) (hstep : Step capacity s r s') :
      Run capacity (returned ++ [r]) s'

/-- The part of the buffer that is still to be read. -/
def Unread (size : Nat) (q : SPSCQueue α) (s : Fifo α) : Prop :=
  match q.popping with
  | .read item _ => ∃ queue, s.queue = item :: queue ∧
      Ring.Window size q.buffer (s.taken.length + 1) queue
  | _ => Ring.Window size q.buffer s.taken.length s.queue

/-- What the producer remembers. -/
def PushOk (size : Nat) (q : SPSCQueue α) (s : Fifo α) : Prop :=
  let position := s.taken.length + s.queue.length
  match q.pushing with
  | .idle => True
  | .loadedTail _ tail => tail = position % size
  | .checked _ tail nextTail => tail = position % size ∧ nextTail = (position + 1) % size ∧
      s.queue.length + 1 < size
  | .written item nextTail => nextTail = (position + 1) % size ∧ s.queue.length + 1 < size ∧
      q.buffer (position % size) = item

/-- What the consumer remembers. -/
def PopOk (size : Nat) (q : SPSCQueue α) (s : Fifo α) : Prop :=
  match q.popping with
  | .idle => True
  | .loadedHead head => head = s.taken.length % size
  | .checked head => head = s.taken.length % size ∧ s.queue ≠ []
  | .read _ head => head = s.taken.length % size

/-- The queue `q` stands for `s`. -/
structure Represents (size : Nat) (q : SPSCQueue α) (s : Fifo α) : Prop where
  head : q.head = s.taken.length % size
  tail : q.tail = (s.taken.length + s.queue.length) % size
  room : s.queue.length < size
  unread : Unread size q s
  pushing : PushOk size q s
  popping : PopOk size q s

variable {size k : Nat} {q : SPSCQueue α} {s : Fifo α} {item left : α}

/-- Masking with `Size - 1` is reduction modulo `Size`. -/
lemma mask_eq (x k : Nat) : x &&& (2 ^ k - 1) = x % 2 ^ k := Nat.and_two_pow_sub_one_eq_mod x k

lemma represents_new (buffer : Nat → α) (k : Nat) :
    Represents (2 ^ k) (new buffer) ⟨[], []⟩ where
  head := (Nat.zero_mod _).symm
  tail := (Nat.zero_mod _).symm
  room := Nat.two_pow_pos k
  unread := Ring.window_nil
  pushing := trivial
  popping := trivial

/-- Writing behind the last item does not disturb what is to be read. -/
lemma Represents.unread_update (h : Represents size q s) (hroom : s.queue.length + 1 < size)
    (item : α) (pushing : Pushing α) :
    Unread size { q with
      buffer := Function.update q.buffer ((s.taken.length + s.queue.length) % size) item
      pushing := pushing } s := by
  have hunread := h.unread
  simp only [Unread] at hunread ⊢
  cases hp : q.popping with
  | read x head =>
    simp only [hp] at hunread ⊢
    obtain ⟨queue, hqueue, hwindow⟩ := hunread
    have hlen : s.queue.length = queue.length + 1 := by rw [hqueue, List.length_cons]
    exact ⟨queue, hqueue, hwindow.update (by omega) (by omega)⟩
  | idle =>
    simp only [hp] at hunread ⊢
    exact hunread.update le_rfl (by omega)
  | loadedHead head =>
    simp only [hp] at hunread ⊢
    exact hunread.update le_rfl (by omega)
  | checked head =>
    simp only [hp] at hunread ⊢
    exact hunread.update le_rfl (by omega)

/-- The item written behind the last one can be read. -/
lemma Represents.unread_snoc (h : Represents size q s)
    (hitem : q.buffer ((s.taken.length + s.queue.length) % size) = item) :
    Unread size q ⟨s.taken, s.queue ++ [item]⟩ := by
  have hunread := h.unread
  simp only [Unread] at hunread ⊢
  cases hp : q.popping with
  | read x head =>
    simp only [hp] at hunread ⊢
    obtain ⟨queue, hqueue, hwindow⟩ := hunread
    refine ⟨queue ++ [item], by rw [hqueue]; rfl, hwindow.snoc ?_⟩
    rw [← hitem, hqueue, List.length_cons]
    congr 2
    omega
  | idle =>
    simp only [hp] at hunread ⊢
    exact hunread.snoc hitem
  | loadedHead head =>
    simp only [hp] at hunread ⊢
    exact hunread.snoc hitem
  | checked head =>
    simp only [hp] at hunread ⊢
    exact hunread.snoc hitem

lemma Represents.popOk_snoc (h : Represents size q s) (item : α) :
    PopOk size q ⟨s.taken, s.queue ++ [item]⟩ := by
  have hpopping := h.popping
  simp only [PopOk] at hpopping ⊢
  cases hp : q.popping with
  | checked head =>
    simp only [hp] at hpopping ⊢
    exact ⟨hpopping.1, by simp⟩
  | idle => trivial
  | loadedHead head =>
    simp only [hp] at hpopping ⊢
    exact hpopping
  | read x head =>
    simp only [hp] at hpopping ⊢
    exact hpopping

/-- **A step of the producer** is one of the bounded queue. -/
theorem Represents.pushStep (h : Represents (2 ^ k) q s) (item : α) :
    ∃ s', Fifo.Step (2 ^ k - 1) s (q.pushStep (2 ^ k) item).2 s' ∧
      Represents (2 ^ k) (q.pushStep (2 ^ k) item).1 s' := by
  have hpushing := h.pushing
  have hroom := h.room
  have hpow : 0 < 2 ^ k := Nat.two_pow_pos k
  simp only [PushOk] at hpushing
  cases hp : q.pushing with
  | idle =>
    simp only [SPSCQueue.pushStep, hp]
    exact ⟨s, .nothing s, ⟨h.head, h.tail, h.room, h.unread, h.tail, h.popping⟩⟩
  | loadedTail x tail =>
    simp only [hp] at hpushing
    have hnext : (tail + 1) &&& (2 ^ k - 1) = (s.taken.length + s.queue.length + 1) % 2 ^ k := by
      rw [mask_eq, hpushing, Ring.succ_slot]
    have hfull : (s.taken.length + s.queue.length + 1) % 2 ^ k = q.head
        ↔ s.queue.length + 1 = 2 ^ k := by
      rw [h.head, Ring.slot_eq_iff (by omega) (by omega)]
      omega
    simp only [SPSCQueue.pushStep, hp, hnext, hfull]
    split_ifs with hlen
    · exact ⟨s, .pushFailed (by omega), ⟨h.head, h.tail, h.room, h.unread, trivial, h.popping⟩⟩
    · exact ⟨s, .nothing s, ⟨h.head, h.tail, h.room, h.unread,
        ⟨hpushing, rfl, by omega⟩, h.popping⟩⟩
  | checked x tail nextTail =>
    simp only [hp] at hpushing
    obtain ⟨rfl, rfl, hlen⟩ := hpushing
    simp only [SPSCQueue.pushStep, hp]
    exact ⟨s, .nothing s, ⟨h.head, h.tail, h.room, h.unread_update hlen _ _,
      ⟨rfl, hlen, Function.update_self _ _ _⟩, h.popping⟩⟩
  | written x nextTail =>
    simp only [hp] at hpushing
    obtain ⟨rfl, hlen, hx⟩ := hpushing
    simp only [SPSCQueue.pushStep, hp]
    refine ⟨_, .pushed x (by omega), ⟨h.head, ?_, ?_, h.unread_snoc hx, trivial, h.popOk_snoc x⟩⟩
    · simp only [List.length_append, List.length_singleton]
      rfl
    · rw [List.length_append]
      exact hlen

/-- Moving the first item out does not disturb what the producer has written. -/
lemma Represents.pushOk_update (h : Represents size q s) (hne : s.queue ≠ []) (left : α)
    (popping : Popping α) :
    PushOk size { q with
      buffer := Function.update q.buffer (s.taken.length % size) left
      popping := popping } s := by
  have hpushing := h.pushing
  have hpos := List.length_pos_iff.mpr hne
  simp only [PushOk] at hpushing ⊢
  cases hp : q.pushing with
  | written x nextTail =>
    simp only [hp] at hpushing ⊢
    obtain ⟨hnext, hlen, hx⟩ := hpushing
    refine ⟨hnext, hlen, ?_⟩
    rw [Function.update_of_ne (Ring.slot_ne (by omega) (by omega)).symm, hx]
  | idle => trivial
  | loadedTail x tail =>
    simp only [hp] at hpushing ⊢
    exact hpushing
  | checked x tail nextTail =>
    simp only [hp] at hpushing ⊢
    exact hpushing

/-- What the producer remembers stays right when the first item is returned. -/
lemma Represents.pushOk_pop {queue : List α} (h : Represents size q s)
    (hqueue : s.queue = item :: queue) : PushOk size q ⟨s.taken ++ [item], queue⟩ := by
  have hpushing := h.pushing
  have hposition : (s.taken ++ [item]).length + queue.length
      = s.taken.length + s.queue.length := by
    rw [hqueue, List.length_append, List.length_singleton, List.length_cons]
    omega
  have hlen : queue.length ≤ s.queue.length := by
    rw [hqueue, List.length_cons]
    exact Nat.le_succ _
  simp only [PushOk] at hpushing ⊢
  cases hp : q.pushing with
  | idle => trivial
  | loadedTail x tail =>
    simp only [hp] at hpushing ⊢
    rw [hposition]
    exact hpushing
  | checked x tail nextTail =>
    simp only [hp] at hpushing ⊢
    rw [hposition]
    exact ⟨hpushing.1, hpushing.2.1, by omega⟩
  | written x nextTail =>
    simp only [hp] at hpushing ⊢
    rw [hposition]
    exact ⟨hpushing.1, by omega, hpushing.2.2⟩

/-- **A step of the consumer** is one of the bounded queue. -/
theorem Represents.popStep (h : Represents (2 ^ k) q s) (left : α) :
    ∃ s', Fifo.Step (2 ^ k - 1) s (q.popStep (2 ^ k) left).2 s' ∧
      Represents (2 ^ k) (q.popStep (2 ^ k) left).1 s' := by
  have hpopping := h.popping
  have hunread := h.unread
  have hroom := h.room
  simp only [PopOk] at hpopping
  simp only [Unread] at hunread
  cases hp : q.popping with
  | idle =>
    simp only [hp] at hunread
    simp only [SPSCQueue.popStep, hp]
    exact ⟨s, .nothing s, ⟨h.head, h.tail, h.room, hunread, h.pushing, h.head⟩⟩
  | loadedHead head =>
    simp only [hp] at hpopping hunread
    have hempty : head = q.tail ↔ s.queue = [] := by
      rw [hpopping, h.tail, ← List.length_eq_zero_iff]
      constructor
      · intro heq
        by_contra hne
        exact Ring.slot_ne (by omega) (by omega) heq
      · intro hzero
        rw [hzero, Nat.add_zero]
    simp only [SPSCQueue.popStep, hp, hempty]
    split_ifs with hnil
    · exact ⟨s, .popFailed hnil, ⟨h.head, h.tail, h.room, hunread, h.pushing, trivial⟩⟩
    · exact ⟨s, .nothing s, ⟨h.head, h.tail, h.room, hunread, h.pushing, hpopping, hnil⟩⟩
  | checked head =>
    simp only [hp] at hpopping hunread
    obtain ⟨rfl, hne⟩ := hpopping
    obtain ⟨x, queue, hqueue⟩ := List.exists_cons_of_ne_nil hne
    simp only [SPSCQueue.popStep, hp]
    refine ⟨s, .nothing s, ⟨h.head, h.tail, h.room, ?_, h.pushOk_update hne left _, rfl⟩⟩
    have hlen : s.queue.length = queue.length + 1 := by rw [hqueue, List.length_cons]
    rw [hqueue, Ring.window_cons] at hunread
    obtain ⟨hx, hwindow⟩ := hunread
    refine ⟨queue, by rw [hqueue, hx], ?_⟩
    -- the slot of the first item is also that of the position one round later
    have hround : s.taken.length % 2 ^ k = (s.taken.length + 2 ^ k) % 2 ^ k :=
      (Nat.add_mod_right _ _).symm
    simp only [hround]
    exact hwindow.update (by omega) (by omega)
  | read x head =>
    simp only [hp] at hpopping hunread
    obtain ⟨queue, hqueue, hwindow⟩ := hunread
    have hnext : (head + 1) &&& (2 ^ k - 1) = (s.taken ++ [x]).length % 2 ^ k := by
      rw [mask_eq, hpopping, Ring.succ_slot, List.length_append, List.length_singleton]
    have htail := h.tail
    rw [hqueue, List.length_cons] at htail hroom
    simp only [SPSCQueue.popStep, hp]
    refine ⟨_, .popped hqueue, ⟨hnext, ?_, Nat.lt_of_succ_lt hroom, ?_,
      h.pushOk_pop hqueue, trivial⟩⟩
    · simp only [List.length_append, List.length_singleton]
      rw [htail]
      congr 1
      omega
    · simp only [Unread, List.length_append, List.length_singleton]
      exact hwindow

theorem Represents.step (h : Represents (2 ^ k) q s) (move : Move α) :
    ∃ s', Fifo.Step (2 ^ k - 1) s (q.step (2 ^ k) move).2 s' ∧
      Represents (2 ^ k) (q.step (2 ^ k) move).1 s' := by
  cases move with
  | push item => exact h.pushStep item
  | pop left => exact h.popStep left

/-! ### Runs -/

section Run

variable {capacity : Nat} {returned : List (Returned α)}

/-- **What a bounded queue returns**, and how much it holds. -/
theorem Fifo.Run.history (h : Fifo.Run capacity returned s) :
    returned.filterMap Returned.taken = s.taken ∧
      returned.filterMap Returned.accepted = s.taken ++ s.queue ∧ s.queue.length ≤ capacity := by
  induction h with
  | start => exact ⟨rfl, rfl, Nat.zero_le _⟩
  | snoc h hstep ih =>
    obtain ⟨htaken, haccepted, hlen⟩ := ih
    rw [List.filterMap_append, List.filterMap_append, htaken, haccepted]
    cases hstep with
    | nothing => simpa [Returned.taken, Returned.accepted] using hlen
    | pushed item hroom =>
      simp only [Returned.taken, Returned.accepted, List.filterMap_cons, List.filterMap_nil,
        List.append_nil, List.append_assoc, List.length_append, List.length_singleton]
      exact ⟨trivial, trivial, hroom⟩
    | pushFailed => simpa [Returned.taken, Returned.accepted] using hlen
    | popped hqueue =>
      rw [hqueue, List.length_cons] at hlen
      simp only [hqueue, Returned.taken, Returned.accepted, List.filterMap_cons,
        List.filterMap_nil, List.append_nil, List.append_assoc, List.singleton_append]
      exact ⟨trivial, trivial, Nat.le_of_succ_le hlen⟩
    | popFailed => simpa [Returned.taken, Returned.accepted] using hlen

/-- **The queue refines a bounded queue** of `Size - 1` items. -/
theorem run_represents (k : Nat) (buffer : Nat → α) (moves : List (Move α)) :
    ∃ s, Represents (2 ^ k) (run (2 ^ k) buffer moves).1 s ∧
      Fifo.Run (2 ^ k - 1) (run (2 ^ k) buffer moves).2 s := by
  induction moves using List.reverseRecOn with
  | nil => exact ⟨_, represents_new buffer k, .start⟩
  | append_singleton moves move ih =>
    obtain ⟨s, hrep, hrun⟩ := ih
    rw [run, List.foldl_append, ← run]
    obtain ⟨s', hstep, hrep'⟩ := hrep.step move
    exact ⟨s', hrep', hrun.snoc hstep⟩

/-- What is promised of a queue that returned `returned` so far. -/
structure Correct (size : Nat) (q : SPSCQueue α) (returned : List (Returned α)) : Prop where
  /-- items come out in the order in which they went in -/
  order : returned.filterMap Returned.taken <+: returned.filterMap Returned.accepted
  bounded : (returned.filterMap Returned.accepted).length
    ≤ (returned.filterMap Returned.taken).length + (size - 1)
  /-- the producer does not write the slot the consumer is about to read -/
  exclusive : ∀ item tail nextTail head, q.pushing = .checked item tail nextTail →
    q.popping = .checked head → tail ≠ head
  pushFailed : ∀ item, (q.pushStep size item).2 = .pushFailed →
    (returned.filterMap Returned.accepted).length
      = (returned.filterMap Returned.taken).length + (size - 1)
  popFailed : ∀ left, (q.popStep size left).2 = .popFailed →
    returned.filterMap Returned.accepted = returned.filterMap Returned.taken

/-- **`SPSCQueue` is a bounded FIFO queue**, for every size that is a power of two, every contents
of the slots at first and every interleaving of the steps. -/
theorem run_correct (k : Nat) (buffer : Nat → α) (moves : List (Move α)) :
    Correct (2 ^ k) (run (2 ^ k) buffer moves).1 (run (2 ^ k) buffer moves).2 := by
  obtain ⟨s, hrep, hrun⟩ := run_represents k buffer moves
  obtain ⟨htaken, haccepted, hlen⟩ := hrun.history
  generalize run (2 ^ k) buffer moves = x at hrep hrun htaken haccepted ⊢
  obtain ⟨q, returned⟩ := x
  simp only at hrep hrun htaken haccepted ⊢
  refine ⟨?_, ?_, ?_, ?_, ?_⟩
  · rw [htaken, haccepted]
    exact List.prefix_append _ _
  · rw [htaken, haccepted, List.length_append]
    exact Nat.add_le_add_left hlen _
  · intro item tail nextTail head hpush hpop
    have hpushing := hrep.pushing
    have hpopping := hrep.popping
    simp only [PushOk, hpush] at hpushing
    simp only [PopOk, hpop] at hpopping
    have hpos := List.length_pos_iff.mpr hpopping.2
    rw [hpushing.1, hpopping.1]
    exact (Ring.slot_ne (by omega) (by omega)).symm
  · intro item hfailed
    obtain ⟨s', hstep, -⟩ := hrep.pushStep item
    rw [hfailed] at hstep
    cases hstep with
    | pushFailed hfull => rw [htaken, haccepted, List.length_append, hfull]
  · intro left hfailed
    obtain ⟨s', hstep, -⟩ := hrep.popStep left
    rw [hfailed] at hstep
    cases hstep with
    | popFailed hempty => rw [htaken, haccepted, hempty, List.append_nil]

end Run

end SPSCQueue

end ExchangeEngine
