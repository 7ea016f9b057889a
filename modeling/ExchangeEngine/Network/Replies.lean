import ExchangeEngine.Network.Told
import ExchangeEngine.Network.Wallet

/-!
# Replies

Snapshots are asked for by texts, and are sent by the engine thread later on. Between two starts of
the process each connection is sent one snapshot for each that it has asked for, in that order; the
others still wait.
-/

namespace ExchangeEngine

/-- Of which company a message is a snapshot. -/
def ServerMsg.snapshotOf : ServerMsg → Option Nat
  | .snapshot msg _ => some msg.companyId
  | _ => none

namespace Network

variable {J : Type} {json : JsonLib J} {sodium : Sodium} {g : GameManager} {m : MarketState}
  {n n' n₀ : Network} {e : Event} {log log' : List Happening} {k : Nat} {companies : List Nat}

/-- The snapshot of a listed company that a task asks for on the connection. -/
def requestOf (companies : List Nat) (k : Nat) : EngineTask → Option Nat → Option Nat
  | .snapshot c, sender => if sender = some k ∧ c ∈ companies then some c else none
  | .order _ _, _ => none
  | .cancel _ _ _, _ => none
  | .switchEngine _, _ => none

/-- The snapshots that the connection has asked for. -/
def requests (companies : List Nat) (k : Nat) (log : List Happening) : List Nat :=
  (queuedTasks log).filterMap fun x => requestOf companies k x.1 x.2

/-- The snapshots that it was sent. -/
def snapshots (k : Nat) (log : List Happening) : List Nat := told ServerMsg.snapshotOf k log

/-- Those that wait. -/
def waiting (companies : List Nat) (k : Nat) (tasks : List EngineTask)
    (senders : List (Option Nat)) : List Nat :=
  (tasks.zip senders).filterMap fun x => requestOf companies k x.1 x.2

/-! ### What is logged -/

lemma requests_append : requests companies k (log ++ log')
    = requests companies k log ++ requests companies k log' := by simp [requests]

lemma snapshots_append : snapshots k (log ++ log') = snapshots k log ++ snapshots k log' :=
  told_append

lemma requests_eq_nil (h : queuedTasks log = []) : requests companies k log = [] := by
  rw [requests, h]
  rfl

/-! ### What is sent for a task -/

lemma snapshotOf_broadcastFor {fuel : Nat} {s : Server} {task : EngineTask} {e : Effect}
    {frames : List Outgoing} (hrun : runTask fuel s.market task = some e)
    (h : broadcastFor fuel s task = some frames) : tellings ServerMsg.snapshotOf frames = [] := by
  obtain ⟨msgs, hmsgs, heq⟩ := tellings_broadcastFor ServerMsg.snapshotOf h
  rw [heq, List.filterMap_eq_nil_iff]
  intro x hx
  cases sentFor_sends hrun hmsgs with
  | switchEngine =>
    obtain ⟨msg, -, rfl⟩ := List.mem_map.mp hx
    rfl
  | snapshot _ _ hasked => cases hasked
  | silent => exact absurd hx List.not_mem_nil
  | processed =>
    rcases List.mem_append.mp hx with hx | hx
    · obtain ⟨t, -, rfl⟩ := List.mem_map.mp hx
      rfl
    · rw [List.mem_singleton.mp hx]
      rfl
  | cancelMissed => exact absurd hx List.not_mem_nil
  | cancelled =>
    rw [List.mem_singleton.mp hx]
    rfl

/-- A snapshot of a listed company is sent, and nothing else is one. -/
lemma snapshotOf_replyFor {fuel : Nat} {s : Server} {task : EngineTask} {frames : List Outgoing}
    (hm : s.market.Listed) (h : replyFor fuel s task = some frames) :
    tellings ServerMsg.snapshotOf frames
      = (requestOf s.market.companies k task (some k)).toList := by
  cases task with
  | snapshot companyId =>
    have hlisted := hm companyId
    obtain ⟨msgs, hmsgs, rfl⟩ := Option.map_eq_some_iff.mp h
    simp only [sentFor] at hmsgs
    cases hfind : s.market.findInstrument companyId with
    | none =>
      rw [hfind] at hmsgs hlisted
      obtain rfl := Option.some.inj hmsgs
      have hunlisted : companyId ∉ s.market.companies := fun hmem =>
        Bool.false_ne_true (hlisted.mpr hmem)
      simp [requestOf, hunlisted, tellings]
    | some book =>
      rw [hfind] at hmsgs hlisted
      obtain ⟨msg, hmsg, hmsgs⟩ := Option.bind_eq_some_iff.mp hmsgs
      obtain rfl := Option.some.inj hmsgs
      have hmem : companyId ∈ s.market.companies := hlisted.mp rfl
      simp [requestOf, hmem, tellings, Outgoing.msg, ServerMsg.snapshotOf, companyId_bookMsg hmsg]
  | _ =>
    rcases tellings_replyFor ServerMsg.snapshotOf h with hnil | ⟨c, msgs, heq, -, -⟩
    · rw [hnil]
      rfl
    · cases heq

/-! ### What waits -/

lemma waiting_cons {task : EngineTask} {tasks : List EngineTask} {sender : Option Nat}
    {senders : List (Option Nat)} : waiting companies k (task :: tasks) (sender :: senders)
      = (requestOf companies k task sender).toList ++ waiting companies k tasks senders := by
  rw [waiting, List.zip_cons_cons, List.filterMap_cons]
  cases requestOf companies k task sender <;> rfl

lemma waiting_append {tasks tasks' : List EngineTask} {senders senders' : List (Option Nat)}
    (h : tasks.length = senders.length) :
    waiting companies k (tasks ++ tasks') (senders ++ senders')
      = waiting companies k tasks senders ++ waiting companies k tasks' senders' := by
  rw [waiting, List.zip_append h, List.filterMap_append]
  rfl

lemma waiting_map {tasks : List EngineTask} {f : EngineTask → Option Nat} :
    waiting companies k tasks (tasks.map f)
      = tasks.filterMap fun task => requestOf companies k task (f task) := by
  induction tasks with
  | nil => rfl
  | cons task tasks ih =>
    rw [List.map_cons, waiting_cons, ih, List.filterMap_cons]
    cases requestOf companies k task (f task) <;> rfl

/-! ### Texts -/

/-- A text leaves the market alone, and queues at most. -/
lemma server_received {env : Circumstances} {x : Exchange} {games : GameTables} {userId : Int}
    {raw : String} {r : Reception} (h : Received json sodium g env x games userId raw r) :
    r.exchange.server.market = x.server.market ∧ r.exchange.server.engineQueue
      = x.server.engineQueue ++ newTasks x.server r.exchange.server := by
  have hnone : ∀ {db : Database}, newTasks x.server { x.server with db := db } = [] :=
    List.drop_length
  cases h with
  | stayed => exact ⟨rfl, by simp [Exchange.stay, newTasks_self]⟩
  | registered _ _ hregister =>
    obtain ⟨row, users, -, -, -, rfl⟩ := Exchange.handleRegister_eq_ok hregister
    exact ⟨rfl, by rw [hnone, List.append_nil]⟩
  | loggedIn _ _ hlogin =>
    obtain ⟨row, -, -, -, -, rfl⟩ := Exchange.handleLogin_eq_ok hlogin
    exact ⟨rfl, by rw [hnone, List.append_nil]⟩
  | @served msg c' sent _ hserved =>
    rcases hserved.server with hsame | ⟨message, hstep, -⟩
    · have hsame : c'.server = x.server := hsame
      exact ⟨congrArg Server.market hsame, by simp [hsame, newTasks_self]⟩
    · have hstep : x.server.step (.message env.now message) = some (c'.server, [], []) := hstep
      generalize c'.server = s' at hstep
      cases Server.step_steps hstep with
      | rejected => exact ⟨rfl, by simp [newTasks_self]⟩
      | handled hmsg => exact ⟨hmsg.market, (queue_newTasks hmsg).1⟩

lemma requests_reception {now : Int} {raw : String} {tasks : List EngineTask} {r : Reception}
    {k' : Nat} : requests companies k (reception k' now raw tasks r)
      = tasks.filterMap fun task => requestOf companies k task (senderOf k' task) := by
  rw [requests, queuedTasks_reception, List.filterMap_map]
  rfl

/-! ### Runs -/

/-- Does the process end? -/
def Event.ends : Event → Bool
  | .restart _ _ => true
  | _ => false

/-- What has been asked for has been sent or waits. -/
structure Answering (k : Nat) (n : Network) (log : List Happening) : Prop where
  listed : n.exchange.server.market.Listed
  senders : n.exchange.server.engineQueue.length = n.senders.length
  known : some k ∈ n.senders → k < n.connections.length
  answered : requests n.exchange.server.market.companies k log = snapshots k log
    ++ waiting n.exchange.server.market.companies k n.exchange.server.engineQueue n.senders

/-- What has been queued waits. -/
lemma Answering.extend {tasks : List EngineTask} {senders : List (Option Nat)}
    (h : Answering k n log) (hmarket : n'.exchange.server.market = n.exchange.server.market)
    (hqueue : n'.exchange.server.engineQueue = n.exchange.server.engineQueue ++ tasks)
    (hsenders : n'.senders = n.senders ++ senders) (hlength : tasks.length = senders.length)
    (hconnections : n.connections.length ≤ n'.connections.length)
    (hknown : some k ∈ senders → k < n'.connections.length)
    (hrequests : ∀ companies, requests companies k log' = waiting companies k tasks senders)
    (hsnapshots : snapshots k log' = []) : Answering k n' (log ++ log') where
  listed := hmarket ▸ h.listed
  senders := by rw [hqueue, hsenders, List.length_append, List.length_append, h.senders, hlength]
  known hmem := by
    rw [hsenders] at hmem
    rcases List.mem_append.mp hmem with hmem | hmem
    · exact (h.known hmem).trans_le hconnections
    · exact hknown hmem
  answered := by
    rw [requests_append, snapshots_append, hsnapshots, hmarket, hqueue, hsenders,
      waiting_append h.senders, hrequests, h.answered, List.append_nil, List.append_assoc]

/-- What neither asks for snapshots nor sends any changes nothing. -/
lemma Answering.quiet (h : Answering k n log)
    (hmarket : n'.exchange.server.market = n.exchange.server.market)
    (hqueue : n'.exchange.server.engineQueue = n.exchange.server.engineQueue)
    (hsenders : n'.senders = n.senders)
    (hconnections : n'.connections.length = n.connections.length)
    (hrequests : ∀ companies, requests companies k log' = []) (hsnapshots : snapshots k log' = []) :
    Answering k n' (log ++ log') := by
  rw [← List.append_nil n.exchange.server.engineQueue] at hqueue
  rw [← List.append_nil n.senders] at hsenders
  exact h.extend hmarket hqueue hsenders rfl hconnections.ge (fun h => by cases h) hrequests
    hsnapshots

/-- A task is answered on the connection that it is for. -/
lemma snapshots_task {fuel : Nat} {s : Server} {task : EngineTask} {effect : Effect}
    {sender : Option Nat} {broadcast reply : List Outgoing} {fills : List Trade}
    (hm : s.market.Listed) (hknown : sender = some k → k < n.connections.length)
    (hrun : runTask fuel s.market task = some effect)
    (hbroadcast : broadcastFor fuel s task = some broadcast)
    (hreply : replyFor fuel s task = some reply) :
    snapshots k (fills.map (fun t => .entry (.fill t))
        ++ n.deliver (framesFor sender broadcast reply))
      = (requestOf s.market.companies k task sender).toList := by
  have hothers : sender ≠ some k → requestOf s.market.companies k task sender = none := by
    intro hne
    cases task with
    | snapshot c => exact if_neg fun h => hne h.1
    | _ => rfl
  rw [snapshots, told_task, snapshotOf_broadcastFor hrun hbroadcast]
  simp only [ite_self, List.nil_append]
  by_cases hsender : sender = some k
  · rw [List.getElem?_eq_getElem (hknown hsender), Option.map_some, Option.getD_some,
      if_pos hsender, snapshotOf_replyFor hm hreply, hsender]
  · rw [hothers hsender]
    simp only [if_neg hsender]
    cases n.connections[k]? <;> rfl

/-- **One event** keeps count of the requests. -/
lemma Answering.step (h : Answering k n log) (he : e.ends = false)
    (hstep : Network.step json sodium g m n e = some (n', log')) :
    Answering k n' (log ++ log') := by
  cases step_steps hstep with
  | accept _ _ htask =>
    subst htask
    refine h.extend rfl rfl rfl rfl (by simp) ?_ (fun _ => rfl) rfl
    intro hmem
    rw [Option.some.inj (List.mem_singleton.mp hmem), List.length_append]
    exact Nat.lt_succ_self _
  | leave k' =>
    exact h.quiet rfl rfl rfl (List.length_modify _ _ _) (fun _ => rfl) rfl
  | @receive k' env raw conn r tasks _ hconn hreceived htasks =>
    obtain ⟨hmarket, hqueue⟩ := server_received hreceived
    refine h.extend hmarket (htasks ▸ hqueue) rfl (List.length_map _).symm
      (List.length_set).ge ?_ (fun companies => ?_) (told_reception hreceived)
    · intro hmem
      obtain ⟨task, -, hsender⟩ := List.mem_map.mp hmem
      have hk : k' = k := by
        cases task with
        | cancel => cases hsender
        | _ => exact Option.some.inj hsender
      rw [List.length_set]
      exact hk ▸ (List.getElem?_eq_some_iff.mp hconn).1
    · rw [requests_reception, waiting_map]
  | idle => exact h.quiet rfl rfl rfl rfl (fun _ => rfl) rfl
  | @task fuel task queue s fills pushed broadcast reply hqueue hserver hbroadcast hreply =>
    have hcompanies := Server.companies_step hserver
    have hlength := h.senders
    have hanswered := h.answered
    have hknown := h.known
    cases hsenders : n.senders with
    | nil =>
      rw [hqueue, hsenders] at hlength
      cases hlength
    | cons sender senders =>
      rw [hqueue, hsenders] at hlength hanswered
      rw [hsenders] at hknown
      cases Server.step_steps hserver with
      | idle _ hnil =>
        rw [hnil] at hqueue
        cases hqueue
      | @task _ task' queue' effect hqueue' hrun =>
        obtain ⟨rfl, rfl⟩ := List.cons.inj (hqueue'.symm.trans hqueue)
        refine ⟨(runTask_branch hrun).listed h.listed, Nat.succ.inj hlength,
          fun hmem => hknown (List.mem_cons_of_mem _ hmem), ?_⟩
        have hrequests : ∀ companies, requests companies k
            (effect.fills.map (fun t => .entry (.fill t))
              ++ n.deliver (framesFor sender broadcast reply)) = [] :=
          fun companies => requests_eq_nil (by simp)
        have hsnapshots : snapshots k (effect.fills.map (fun t => .entry (.fill t))
            ++ n.deliver (framesFor sender broadcast reply))
              = (requestOf n.exchange.server.market.companies k task' sender).toList :=
          snapshots_task h.listed (fun heq => hknown (heq ▸ List.mem_cons_self)) hrun hbroadcast
            hreply
        rw [waiting_cons] at hanswered
        simp only [List.head?_cons, Option.join_some, List.tail_cons]
        rw [requests_append, snapshots_append, hrequests, hsnapshots, hcompanies, hanswered,
          List.append_nil, List.append_assoc]
  | settle =>
    refine h.quiet ?_ ?_ rfl rfl (fun _ => rfl) rfl
    all_goals
      simp only [Server.dbStep]
      split_ifs <;> rfl
  | notified hnotifies =>
    obtain ⟨hexchange, -, hconnections, hsenders⟩ := hnotifies.same
    exact h.quiet (by rw [hexchange]) (by rw [hexchange]) hsenders (by rw [hconnections])
      (fun _ => requests_eq_nil (queuedTasks_ofWallet hnotifies.ofWallet))
      (told_ofWallet hnotifies.ofWallet)
  | restart => cases he

/-- Which companies are listed does not change. -/
lemma companies_step (he : e.ends = false)
    (hstep : Network.step json sodium g m n e = some (n', log)) :
    n'.exchange.server.market.companies = n.exchange.server.market.companies := by
  cases step_steps hstep with
  | receive _ _ hreceived => rw [(server_received hreceived).1]
  | task _ hserver => exact Server.companies_step hserver
  | settle =>
    simp only [Server.dbStep]
    split_ifs <;> rfl
  | notified hnotifies => rw [hnotifies.same.1]
  | restart => cases he
  | _ => rfl

end Network

end ExchangeEngine
