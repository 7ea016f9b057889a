import ExchangeEngine.Network.Privacy

/-!
# What is queued and told

The tasks that connections have queued, and the frames about the market that a connection is sent,
seen through some view of their messages: texts and notifications lead to none, and a task to those
of its broadcast and its reply.
-/

namespace ExchangeEngine

/-- The message of a frame about the market. -/
def Outgoing.msg : Outgoing → Option ServerMsg
  | .market msg => some msg
  | _ => none

namespace Network

variable {J β : Type} {json : JsonLib J} {sodium : Sodium} {g : GameManager} {n : Network}
  {log log' : List Happening} {k : Nat} {view : ServerMsg → Option β}

/-! ### What is queued -/

/-- A task that is queued, and which connection it is for. -/
def Happening.task : Happening → Option (EngineTask × Option Nat)
  | .queued task sender => some (task, sender)
  | .heard _ _ _ => none
  | .entry _ => none
  | .read _ _ _ => none
  | .sent _ _ => none

/-- The tasks that have been queued. -/
def queuedTasks (log : List Happening) : List (EngineTask × Option Nat) :=
  log.filterMap Happening.task

@[simp] lemma queuedTasks_append (log log' : List Happening) :
    queuedTasks (log ++ log') = queuedTasks log ++ queuedTasks log' := List.filterMap_append

lemma queuedTasks_eq_nil (h : ∀ x ∈ log, x.task = none) : queuedTasks log = [] :=
  List.filterMap_eq_nil_iff.mpr h

lemma queuedTasks_ofWallet (h : ∀ x ∈ log, x.OfWallet) : queuedTasks log = [] := by
  refine queuedTasks_eq_nil fun x hx => ?_
  cases x with
  | queued task sender => exact (h _ hx).elim
  | _ => rfl

@[simp] lemma queuedTasks_deliver (f : Nat → Connection → List Outgoing) :
    queuedTasks (n.deliver f) = [] := by
  refine queuedTasks_eq_nil fun x hx => ?_
  obtain ⟨_, hframes, hx⟩ := List.mem_flatten.mp hx
  obtain ⟨conn, -, rfl⟩ := List.mem_map.mp hframes
  obtain ⟨frame, -, rfl⟩ := List.mem_map.mp hx
  rfl

@[simp] lemma queuedTasks_map_entry {α : Type} (f : α → Exchange.Entry) (l : List α) :
    queuedTasks (l.map fun y => .entry (f y)) = [] := by
  refine queuedTasks_eq_nil fun x hx => ?_
  obtain ⟨_, -, rfl⟩ := List.mem_map.mp hx
  rfl

lemma queuedTasks_reception {now : Int} {raw : String} {tasks : List EngineTask} {r : Reception} :
    queuedTasks (reception k now raw tasks r) = tasks.map fun task => (task, senderOf k task) := by
  have hsent : queuedTasks (r.frames.map (.sent k)) = [] := by
    refine queuedTasks_eq_nil fun x hx => ?_
    obtain ⟨frame, -, rfl⟩ := List.mem_map.mp hx
    rfl
  have hentries : queuedTasks (r.log.map .entry) = [] := queuedTasks_map_entry (fun y => y) r.log
  have htasks : queuedTasks (.heard k now raw :: tasks.map fun task =>
      .queued task (senderOf k task)) = tasks.map fun task => (task, senderOf k task) := by
    rw [queuedTasks, List.filterMap_cons, Happening.task, List.filterMap_map,
      ← List.filterMap_eq_map]
    rfl
  rw [reception, queuedTasks_append, queuedTasks_append, hsent, hentries, htasks, List.append_nil,
    List.append_nil]

/-! ### What is told -/

def Happening.told (view : ServerMsg → Option β) (k : Nat) : Happening → Option β
  | .sent k' frame => if k' = k then frame.msg.bind view else none
  | .queued _ _ => none
  | .heard _ _ _ => none
  | .entry _ => none
  | .read _ _ _ => none

/-- What the connection is told. -/
def told (view : ServerMsg → Option β) (k : Nat) (log : List Happening) : List β :=
  log.filterMap (Happening.told view k)

/-- What frames tell. -/
def tellings (view : ServerMsg → Option β) (frames : List Outgoing) : List β :=
  frames.filterMap fun frame => frame.msg.bind view

lemma told_append : told view k (log ++ log') = told view k log ++ told view k log' :=
  List.filterMap_append

lemma tellings_append {frames frames' : List Outgoing} :
    tellings view (frames ++ frames') = tellings view frames ++ tellings view frames' :=
  List.filterMap_append

lemma told_eq_nil (h : ∀ x ∈ log, x.told view k = none) : told view k log = [] :=
  List.filterMap_eq_nil_iff.mpr h

lemma tellings_eq_nil {frames : List Outgoing} (h : ∀ frame ∈ frames, frame.msg = none) :
    tellings view frames = [] := by
  refine List.filterMap_eq_nil_iff.mpr fun frame hframe => ?_
  rw [h frame hframe]
  rfl

lemma told_map_entry {α : Type} {f : α → Exchange.Entry} {l : List α} :
    told view k (l.map fun y => .entry (f y)) = [] := by
  refine told_eq_nil fun x hx => ?_
  obtain ⟨_, -, rfl⟩ := List.mem_map.mp hx
  rfl

lemma told_map_sent {k' : Nat} {frames : List Outgoing} :
    told view k (frames.map (.sent k')) = if k' = k then tellings view frames else [] := by
  rw [told, List.filterMap_map]
  split_ifs with hk
  · exact List.filterMap_congr fun frame _ => if_pos hk
  · exact List.filterMap_eq_nil_iff.mpr fun frame _ => if_neg hk

/-- What is delivered is looked for on the connection itself. -/
lemma told_zipIdx {f : Nat → Connection → List Outgoing} {l : List Connection} {i : Nat} :
    told view k ((l.zipIdx i).map fun x => (f x.2 x.1).map (Happening.sent x.2)).flatten
      = if i ≤ k then (l[k - i]?.map fun conn => tellings view (f k conn)).getD [] else [] := by
  induction l generalizing i with
  | nil =>
    simp [told]
  | cons conn l ih =>
    rw [List.zipIdx_cons, List.map_cons, List.flatten_cons, told_append, told_map_sent, ih]
    rcases lt_trichotomy i k with hlt | rfl | hgt
    · have hsub : k - i = (k - (i + 1)) + 1 := by omega
      simp only [hlt.ne, if_false, List.nil_append, Nat.succ_le_of_lt hlt, if_true, hlt.le, hsub,
        List.getElem?_cons_succ]
    · simp
    · have hle : ¬ i ≤ k := by omega
      have hle' : ¬ i + 1 ≤ k := by omega
      simp [hgt.ne', hle, hle']

lemma told_deliver {f : Nat → Connection → List Outgoing} : told view k (n.deliver f)
    = (n.connections[k]?.map fun conn => tellings view (f k conn)).getD [] := by
  rw [deliver, told_zipIdx, if_pos k.zero_le, Nat.sub_zero]

/-! ### Texts and wallets -/

/-- A text is not answered with the state of the market. -/
lemma msg_received {env : Circumstances} {x : Exchange} {games : GameTables} {userId : Int}
    {raw : String} {r : Reception} (h : Received json sodium g env x games userId raw r) :
    ∀ frame ∈ r.frames, frame.msg = none := by
  intro frame hframe
  cases h with
  | stayed herror =>
    obtain ⟨message, rfl⟩ := herror frame hframe
    rfl
  | registered =>
    rw [List.mem_singleton.mp hframe]
    rfl
  | loggedIn =>
    rw [List.mem_singleton.mp hframe]
    rfl
  | served =>
    obtain ⟨response, -, hframe⟩ := List.mem_flatMap.mp hframe
    cases response with
    | userUpdate w => exact absurd hframe List.not_mem_nil
    | _ =>
      rw [List.mem_singleton.mp hframe]
      rfl

lemma told_reception {env : Circumstances} {x : Exchange} {games : GameTables} {userId : Int}
    {raw : String} {tasks : List EngineTask} {r : Reception} {k' : Nat}
    (h : Received json sodium g env x games userId raw r) :
    told view k (reception k' env.now raw tasks r) = [] := by
  have hsent : told view k (r.frames.map (.sent k')) = [] := by
    rw [told_map_sent, tellings_eq_nil (msg_received h), ite_self]
  have hentries : told view k (r.log.map .entry) = [] := told_map_entry (f := fun y => y)
  rw [reception, told_append, told_append, hsent, hentries, List.append_nil, List.append_nil]
  refine told_eq_nil fun y hy => ?_
  rcases List.mem_cons.mp hy with rfl | hy
  · rfl
  · obtain ⟨task, -, rfl⟩ := List.mem_map.mp hy
    rfl

lemma told_ofWallet (h : ∀ x ∈ log, x.OfWallet) : told view k log = [] := by
  refine told_eq_nil fun x hx => ?_
  cases x with
  | sent k' frame =>
    obtain ⟨userId, profile, rfl⟩ := h _ hx
    simp [Happening.told, Outgoing.msg]
  | _ => rfl

/-! ### Tasks -/

/-- A broadcast tells what the task makes the engine thread send. -/
lemma tellings_broadcastFor (view : ServerMsg → Option β) {fuel : Nat} {s : Server}
    {task : EngineTask} {frames : List Outgoing} (h : broadcastFor fuel s task = some frames) :
    ∃ msgs, sentFor fuel s false task = some msgs ∧
      tellings view frames = msgs.filterMap fun x => view x.1 := by
  obtain ⟨msgs, hmsgs, rfl⟩ := Option.map_eq_some_iff.mp h
  refine ⟨msgs, hmsgs, ?_⟩
  have hmarket : tellings view (msgs.map fun msg => .market msg.1)
      = msgs.filterMap fun x => view x.1 := by
    rw [tellings, List.filterMap_map]
    rfl
  rw [tellings_append, hmarket]
  cases task <;> exact List.append_nil _

/-- A reply tells something only if a snapshot was asked for. -/
lemma tellings_replyFor (view : ServerMsg → Option β) {fuel : Nat} {s : Server}
    {task : EngineTask} {frames : List Outgoing} (h : replyFor fuel s task = some frames) :
    tellings view frames = [] ∨
      ∃ c msgs, task = .snapshot c ∧ sentFor fuel s true task = some msgs ∧
        tellings view frames = msgs.filterMap fun x => view x.1 := by
  cases task with
  | order companyId order =>
    refine Or.inl (tellings_eq_nil fun frame hframe => ?_)
    simp only [replyFor] at h
    cases hfind : s.market.findInstrument companyId with
    | none =>
      rw [hfind] at h
      obtain rfl := Option.some.inj h
      exact absurd hframe List.not_mem_nil
    | some book =>
      simp only [hfind] at h
      split_ifs at h
      · obtain ⟨r, -, rfl⟩ := Option.map_eq_some_iff.mp h
        split_ifs at hframe
        · rw [List.mem_singleton.mp hframe]
          rfl
        · exact absurd hframe List.not_mem_nil
      · obtain rfl := Option.some.inj h
        rw [List.mem_singleton.mp hframe]
        rfl
  | cancel companyId orderId userId =>
    obtain rfl := Option.some.inj h
    exact Or.inl rfl
  | snapshot companyId =>
    obtain ⟨msgs, hmsgs, rfl⟩ := Option.map_eq_some_iff.mp h
    refine Or.inr ⟨companyId, msgs, rfl, hmsgs, ?_⟩
    rw [tellings, List.filterMap_map]
    rfl
  | switchEngine mode =>
    obtain rfl := Option.some.inj h
    exact Or.inl rfl

/-- What a connection is told for a task. -/
lemma told_task {sender : Option Nat} {broadcast reply : List Outgoing} {fills : List Trade} :
    told view k (fills.map (fun t => .entry (.fill t))
        ++ n.deliver (framesFor sender broadcast reply))
      = (n.connections[k]?.map fun conn =>
          (if conn.registered then tellings view broadcast else [])
            ++ if sender = some k then tellings view reply else []).getD [] := by
  have hframes : ∀ conn : Connection, tellings view (framesFor sender broadcast reply k conn)
      = (if conn.registered then tellings view broadcast else [])
        ++ if sender = some k then tellings view reply else [] := by
    intro conn
    rw [framesFor, tellings_append]
    split_ifs <;> rfl
  rw [told_append, told_map_entry, told_deliver, List.nil_append]
  simp only [hframes]

end Network

end ExchangeEngine
