import Mathlib.Tactic.Common

/-!
# Outbound messages

`send` and `do_write` of `Server.h`. A message that is sent from any thread becomes a handler of the
executor, which runs the posted handlers in their order; a write runs until its own handler does.
The queue holds the message being written together with those that wait.
-/

namespace ExchangeEngine

/-- A message in the queue; the payload is a list of bytes. -/
structure OutboundMsg where
  payload : List Nat
  isBinary : Bool
deriving DecidableEq, Repr

/-- What `async_write` is given: a payload, and the option `text` of the stream at that moment. -/
structure Frame where
  payload : List Nat
  text : Bool
deriving DecidableEq, Repr

/-- The frame that a message is to be written as. -/
def OutboundMsg.frame (msg : OutboundMsg) : Frame := ⟨msg.payload, !msg.isBinary⟩

/-- A connection, as far as writing is concerned. `posted` are the handlers of `send` that have not
run, `outstanding` the writes that have not completed. `removed` says that a failed write has taken
the session from the registry. The last three record which writes were started, which have succeeded
and which have failed. -/
structure Outbound where
  posted : List OutboundMsg := []
  writeQueue : List OutboundMsg := []
  text : Bool := true
  outstanding : List Frame := []
  removed : Bool := false
  started : List Frame := []
  written : List Frame := []
  failed : List Frame := []
deriving DecidableEq, Repr

namespace Outbound

/-- The front of an empty queue is undefined. -/
def doWrite (q : Outbound) : Option Outbound :=
  match q.writeQueue with
  | [] => none
  | msg :: _ =>
    let text := !msg.isBinary
    some
      { q with
        text := text
        outstanding := q.outstanding ++ [⟨msg.payload, text⟩]
        started := q.started ++ [⟨msg.payload, text⟩] }

def send (q : Outbound) (msg : OutboundMsg) : Outbound := { q with posted := q.posted ++ [msg] }

/-- The handler that `send` posts. -/
def onSend (q : Outbound) (msg : OutboundMsg) : Option Outbound :=
  let q := { q with writeQueue := q.writeQueue ++ [msg] }
  if q.writeQueue.length = 1 then q.doWrite else some q

/-- The handler of a write; nothing can be popped from an empty queue. -/
def onWrite (q : Outbound) (ec : Bool) : Option Outbound :=
  if ec then some { q with removed := true }
  else
    match q.writeQueue with
    | [] => none
    | _ :: queue =>
      let q := { q with writeQueue := queue }
      if queue ≠ [] then q.doWrite else some q

/-- What may happen next: a thread sends, the executor runs the oldest posted handler, or one of the
outstanding writes completes. -/
inductive Event
  | send (msg : OutboundMsg)
  | run
  | complete (i : Nat) (ec : Bool)
deriving DecidableEq, Repr

/-- Without a posted handler, or without such a write, nothing happens. `none` is undefined. -/
def step (q : Outbound) : Event → Option Outbound
  | .send msg => some (q.send msg)
  | .run =>
    match q.posted with
    | [] => some q
    | msg :: posted => { q with posted := posted }.onSend msg
  | .complete i ec =>
    match q.outstanding[i]? with
    | none => some q
    | some w =>
      { q with
        outstanding := q.outstanding.eraseIdx i
        written := if ec then q.written else q.written ++ [w]
        failed := if ec then q.failed ++ [w] else q.failed }.onWrite ec

/-- The connection after the events, in order. -/
def run (q : Outbound) (events : List Event) : Option Outbound := events.foldlM step q

/-- The messages that the events send, in order. -/
def sends (events : List Event) : List OutboundMsg :=
  events.filterMap fun
    | .send msg => some msg
    | _ => none

variable {q q' : Outbound} {msg : OutboundMsg} {msgs : List OutboundMsg}

/-! ### The invariant -/

/-- Whether a write is in flight can be read off the queue, until one fails. -/
structure Inv (msgs : List OutboundMsg) (q : Outbound) : Prop where
  order : msgs.map OutboundMsg.frame = q.written ++ (q.writeQueue ++ q.posted).map OutboundMsg.frame
  writing : q.failed = [] → q.outstanding = (q.writeQueue.take 1).map OutboundMsg.frame
  stopped : q.failed ≠ [] → q.outstanding = [] ∧ q.writeQueue ≠ []
  removed : q.removed = true ↔ q.failed ≠ []

lemma inv_init : Inv [] {} := ⟨rfl, fun _ => rfl, fun h => absurd rfl h, by decide⟩

/-- What an event does. -/
inductive Acts (q : Outbound) : Event → Outbound → Prop
  | sent (msg : OutboundMsg) : Acts q (.send msg) (q.send msg)
  | idle {e : Event} (hsend : ∀ msg, e ≠ .send msg) : Acts q e q
  | starts {msg : OutboundMsg} {posted : List OutboundMsg} (hposted : q.posted = msg :: posted)
      (hqueue : q.writeQueue = []) (hopen : q.failed = []) :
      Acts q .run
        { q with
          posted := posted
          writeQueue := [msg]
          text := !msg.isBinary
          outstanding := [msg.frame]
          started := q.started ++ [msg.frame] }
  | waits {msg front : OutboundMsg} {posted queue : List OutboundMsg}
      (hposted : q.posted = msg :: posted) (hqueue : q.writeQueue = front :: queue) :
      Acts q .run { q with posted := posted, writeQueue := front :: (queue ++ [msg]) }
  | fails {front : OutboundMsg} {queue : List OutboundMsg} (hqueue : q.writeQueue = front :: queue)
      (hopen : q.failed = []) :
      Acts q (.complete 0 true)
        { q with outstanding := [], removed := true, failed := [front.frame] }
  | empties {front : OutboundMsg} (hqueue : q.writeQueue = [front]) (hopen : q.failed = []) :
      Acts q (.complete 0 false)
        { q with
          writeQueue := []
          outstanding := []
          written := q.written ++ [front.frame] }
  | continues {front msg : OutboundMsg} {queue : List OutboundMsg}
      (hqueue : q.writeQueue = front :: msg :: queue) (hopen : q.failed = []) :
      Acts q (.complete 0 false)
        { q with
          writeQueue := msg :: queue
          text := !msg.isBinary
          outstanding := [msg.frame]
          started := q.started ++ [msg.frame]
          written := q.written ++ [front.frame] }

lemma Inv.outstanding_eq {front : OutboundMsg} {queue : List OutboundMsg} (h : Inv msgs q)
    (hopen : q.failed = []) (hqueue : q.writeQueue = front :: queue) :
    q.outstanding = [front.frame] := by
  rw [h.writing hopen, hqueue]
  rfl

/-- The oldest posted handler. -/
lemma Inv.run_acts (h : Inv msgs q) : ∃ q', q.step .run = some q' ∧ Acts q .run q' := by
  cases hposted : q.posted with
  | nil =>
    refine ⟨q, ?_, .idle nofun⟩
    rw [step, hposted]
  | cons msg posted =>
    cases hqueue : q.writeQueue with
    | nil =>
      have hopen : q.failed = [] := by
        by_contra hfailed
        exact (h.stopped hfailed).2 hqueue
      have hidle : q.outstanding = [] := by
        rw [h.writing hopen, hqueue]
        rfl
      refine ⟨_, ?_, .starts hposted hqueue hopen⟩
      simp [step, onSend, doWrite, hposted, hqueue, hidle, OutboundMsg.frame]
    | cons front queue =>
      refine ⟨_, ?_, .waits hposted hqueue⟩
      simp [step, onSend, hposted, hqueue]

/-- There is at most one write that can complete. -/
lemma Inv.complete_acts (h : Inv msgs q) (i : Nat) (ec : Bool) :
    ∃ q', q.step (.complete i ec) = some q' ∧ Acts q (.complete i ec) q' := by
  cases hwrite : q.outstanding[i]? with
  | none =>
    refine ⟨q, ?_, .idle nofun⟩
    rw [step, hwrite]
  | some w =>
    have hopen : q.failed = [] := by
      by_contra hfailed
      rw [(h.stopped hfailed).1] at hwrite
      cases hwrite
    cases hqueue : q.writeQueue with
    | nil =>
      rw [h.writing hopen, hqueue] at hwrite
      cases hwrite
    | cons front queue =>
      have hout := h.outstanding_eq hopen hqueue
      obtain rfl : i = 0 := by
        have hlt := (List.getElem?_eq_some_iff.mp hwrite).1
        rw [hout] at hlt
        exact Nat.lt_one_iff.mp hlt
      cases ec with
      | true =>
        refine ⟨_, ?_, .fails hqueue hopen⟩
        simp [step, onWrite, hout, hopen]
      | false =>
        cases queue with
        | nil =>
          refine ⟨_, ?_, .empties hqueue hopen⟩
          simp [step, onWrite, hout, hqueue]
        | cons msg queue =>
          refine ⟨_, ?_, .continues hqueue hopen⟩
          simp [step, onWrite, doWrite, hout, hqueue, OutboundMsg.frame]

/-- **A step** is defined. -/
lemma Inv.step_acts (h : Inv msgs q) (e : Event) : ∃ q', q.step e = some q' ∧ Acts q e q' := by
  cases e with
  | send msg => exact ⟨_, rfl, .sent msg⟩
  | run => exact h.run_acts
  | complete i ec => exact h.complete_acts i ec

@[simp] lemma sends_run : sends [.run] = [] := rfl

@[simp] lemma sends_complete (i : Nat) (ec : Bool) : sends [.complete i ec] = [] := rfl

/-- **A step** keeps the invariant. -/
lemma Inv.acts {e : Event} (h : Inv msgs q) (hacts : Acts q e q') : Inv (msgs ++ sends [e]) q' := by
  have horder := h.order
  cases hacts with
  | sent msg =>
    refine ⟨?_, h.writing, h.stopped, h.removed⟩
    rw [List.map_append, horder, List.append_assoc, ← List.map_append, List.append_assoc]
    rfl
  | idle hsend =>
    cases e with
    | send msg => exact absurd rfl (hsend msg)
    | run =>
      rw [sends_run, List.append_nil]
      exact h
    | complete i ec =>
      rw [sends_complete, List.append_nil]
      exact h
  | starts hposted hqueue hopen =>
    rw [hposted, hqueue] at horder
    rw [sends_run, List.append_nil]
    exact ⟨horder, fun _ => rfl, fun hfailed => absurd hopen hfailed, h.removed⟩
  | waits hposted hqueue =>
    rw [hposted, hqueue] at horder
    rw [sends_run, List.append_nil]
    refine ⟨?_, fun hopen => ?_, fun hfailed => ⟨(h.stopped hfailed).1, nofun⟩, h.removed⟩
    · rw [horder]
      simp
    · exact h.outstanding_eq hopen hqueue
  | fails hqueue hopen =>
    rw [sends_complete, List.append_nil]
    refine ⟨horder, nofun, fun _ => ⟨rfl, ?_⟩, ⟨nofun, fun _ => rfl⟩⟩
    rw [hqueue]
    nofun
  | empties hqueue hopen | continues hqueue hopen =>
    rw [hqueue] at horder
    rw [sends_complete, List.append_nil]
    refine ⟨?_, fun _ => rfl, fun hfailed => absurd hopen hfailed, h.removed⟩
    rw [horder]
    simp

/-- After a failure no write is started. -/
lemma Acts.started_eq {e : Event} (hacts : Acts q e q') (h : q.failed ≠ []) :
    q'.failed ≠ [] ∧ q'.started = q.started := by
  cases hacts with
  | sent => exact ⟨h, rfl⟩
  | idle => exact ⟨h, rfl⟩
  | starts _ _ hopen => exact absurd hopen h
  | waits => exact ⟨h, rfl⟩
  | fails _ hopen => exact absurd hopen h
  | empties _ hopen => exact absurd hopen h
  | continues _ hopen => exact absurd hopen h

/-! ### Runs -/

lemma run_cons (q : Outbound) (e : Event) (events : List Event) :
    q.run (e :: events) = (q.step e).bind fun q' => q'.run events := rfl

lemma run_append (q : Outbound) (before after : List Event) :
    q.run (before ++ after) = (q.run before).bind fun q' => q'.run after := List.foldlM_append

lemma sends_cons (e : Event) (events : List Event) :
    sends (e :: events) = sends [e] ++ sends events := by
  rw [← List.singleton_append]
  exact List.filterMap_append

/-- **A run** is defined and keeps the invariant. -/
lemma Inv.run (h : Inv msgs q) (events : List Event) :
    ∃ q', q.run events = some q' ∧ Inv (msgs ++ sends events) q' := by
  induction events generalizing q msgs with
  | nil =>
    refine ⟨q, rfl, ?_⟩
    rw [sends, List.filterMap_nil, List.append_nil]
    exact h
  | cons e events ih =>
    obtain ⟨q₁, hstep, hacts⟩ := h.step_acts e
    obtain ⟨q', hrun, hinv⟩ := ih (h.acts hacts)
    refine ⟨q', ?_, ?_⟩
    · rw [run_cons, hstep, Option.bind_some, hrun]
    · rw [sends_cons, ← List.append_assoc]
      exact hinv

/-- After a failure **a run** starts no write. -/
lemma Inv.run_stopped (h : Inv msgs q) (hfailed : q.failed ≠ []) (events : List Event) :
    ∃ q', q.run events = some q' ∧ q'.started = q.started := by
  induction events generalizing q msgs with
  | nil => exact ⟨q, rfl, rfl⟩
  | cons e events ih =>
    obtain ⟨q₁, hstep, hacts⟩ := h.step_acts e
    obtain ⟨hfailed', hstarted⟩ := hacts.started_eq hfailed
    obtain ⟨q', hrun, hsame⟩ := ih (h.acts hacts) hfailed'
    refine ⟨q', ?_, hsame.trans hstarted⟩
    rw [run_cons, hstep, Option.bind_some, hrun]

/-- Messages are written one at a time, in order. -/
structure InOrder (msgs : List OutboundMsg) (q : Outbound) : Prop where
  single : q.outstanding.length ≤ 1
  front : ∀ w ∈ q.outstanding, ∃ msg, q.writeQueue.head? = some msg ∧ w = msg.frame
  order : q.failed = [] →
    msgs.map OutboundMsg.frame = q.written ++ (q.writeQueue ++ q.posted).map OutboundMsg.frame
  busy : q.failed = [] → q.writeQueue ≠ [] → q.outstanding ≠ []

lemma inOrder_of_idle (hout : q.outstanding = [])
    (horder : msgs.map OutboundMsg.frame
      = q.written ++ (q.writeQueue ++ q.posted).map OutboundMsg.frame)
    (hbusy : q.failed = [] → q.writeQueue = []) : InOrder msgs q where
  single := by
    rw [hout]
    exact Nat.zero_le 1
  front w hw := by
    rw [hout] at hw
    cases hw
  order _ := horder
  busy hopen hne := absurd (hbusy hopen) hne

lemma Inv.inOrder (h : Inv msgs q) : InOrder msgs q := by
  by_cases hopen : q.failed = []
  · cases hqueue : q.writeQueue with
    | nil =>
      have hidle : q.outstanding = [] := by
        rw [h.writing hopen, hqueue]
        rfl
      exact inOrder_of_idle hidle h.order fun _ => hqueue
    | cons front queue =>
      have hout := h.outstanding_eq hopen hqueue
      refine ⟨?_, ?_, fun _ => h.order, fun _ _ => ?_⟩
      · rw [hout]
        exact Nat.le_refl 1
      · intro w hw
        rw [hout] at hw
        rw [hqueue]
        exact ⟨front, rfl, List.mem_singleton.mp hw⟩
      · rw [hout]
        nofun
  · exact inOrder_of_idle (h.stopped hopen).1 h.order fun hnone => absurd hnone hopen

/-- **Outbound messages are written one at a time, in order**: in every interleaving each step is
defined, and after a failed write no further write is started. -/
theorem outbound_inOrder (events : List Event) :
    ∃ q, run {} events = some q ∧ InOrder (sends events) q ∧
      (q.failed ≠ [] → ∀ more, ∃ q', run {} (events ++ more) = some q' ∧
        q'.started = q.started) := by
  obtain ⟨q, hrun, hinv⟩ := inv_init.run events
  refine ⟨q, hrun, hinv.inOrder, fun hfailed more => ?_⟩
  obtain ⟨q', hmore, hstarted⟩ := hinv.run_stopped hfailed more
  refine ⟨q', ?_, hstarted⟩
  rw [run_append, hrun, Option.bind_some, hmore]

end Outbound

end ExchangeEngine
