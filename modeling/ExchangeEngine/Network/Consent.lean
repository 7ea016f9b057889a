import ExchangeEngine.Network.Books
import ExchangeEngine.Network.Reports
import ExchangeEngine.Server.Consent

/-!
# Trades that were agreed

No trade is made without a buy order and a sell order that came in on connections, each of them with
a token of its user; and nobody trades more than was ordered for him, at prices that the orders
allow.
-/

namespace ExchangeEngine

open Server (Handled)

namespace Network

variable {J : Type} {json : JsonLib J} {sodium : Sodium} {g : GameManager} {m : MarketState}
  {chance : Chance} {n n' : Network} {e : Event} {log log' : List Happening} {k c p : Nat} {u : Int}
  {s : Bool} {o : Order} {companies : List Nat}

/-- The order was queued for the company. Unless its user is a synthetic one, the connection that it
came in on had sent a token that a login as the user was given. -/
def Ordered (json : JsonLib J) (log : List Happening) (c : Nat) (o : Order) : Prop :=
  ∃ k, (.order c o, some k) ∈ queuedTasks log ∧ (0 ≤ o.userId → KnowsToken json log k o.userId)

/-- How much of `c` was ordered for `u` on the side, with a limit of `p` or beyond. -/
def ordered (u : Int) (c : Nat) (s : Bool) (p : Nat) (log : List Happening) : Int :=
  ((queuedTasks log).map fun x => x.1.amount u c s p).sum

/-- How much of `c` was traded by `u` on the side, at `p` or beyond. -/
def traded (u : Int) (c : Nat) (s : Bool) (p : Nat) (log : List Happening) : Int :=
  ((Exchange.Entry.fills (entries log)).map (Trade.amount u c s p)).sum

lemma Ordered.append (h : Ordered json log c o) (log' : List Happening) :
    Ordered json (log ++ log') c o := by
  obtain ⟨k, hmem, htoken⟩ := h
  refine ⟨k, ?_, fun hu => (htoken hu).append log'⟩
  rw [queuedTasks_append]
  exact List.mem_append_left _ hmem

lemma ordered_append :
    ordered u c s p (log ++ log') = ordered u c s p log + ordered u c s p log' := by
  simp [ordered]

lemma traded_append : traded u c s p (log ++ log') = traded u c s p log + traded u c s p log' := by
  simp [traded]

/-! ### Texts -/

/-- A message queues one task, or none. -/
lemma newTasks_handled {now : Int} {msg : Server.Message} {srv srv' : Server}
    (h : Handled now srv msg srv') :
    ∃ task, srv'.engineQueue = srv.engineQueue ++ [task] ∧ newTasks srv srv' = [task] := by
  cases h <;> exact ⟨_, rfl, List.drop_left⟩

/-- A text makes no trade. -/
lemma fills_received {env : Circumstances} {x : Exchange} {games : GameTables} {userId : Int}
    {raw : String} {r : Reception} (h : Received json sodium g env x games userId raw r) :
    Exchange.Entry.fills r.log = [] := by
  cases h <;> rfl

/-- **What a text queues** for a user who is not synthetic is allowed by a token of his. -/
lemma shows_of_newTasks {env : Circumstances} {x : Exchange} {games : GameTables} {userId : Int}
    {raw : String} {r : Reception} (h : Received json sodium g env x games userId raw r)
    (hmem : .order c o ∈ newTasks x.server r.exchange.server) (hu : 0 ≤ o.userId) :
    ∃ msg, json.parse raw = .ok msg ∧
      Session.Shows json env.toSurroundings msg ⟨x.server, games, userId⟩ o.userId := by
  have hnone : ∀ {db : Database}, newTasks x.server { x.server with db := db } = [] :=
    List.drop_length
  cases h with
  | stayed =>
    rw [Exchange.stay, newTasks_self] at hmem
    cases hmem
  | registered _ _ hregister =>
    obtain ⟨row, users, -, -, -, rfl⟩ := Exchange.handleRegister_eq_ok hregister
    rw [hnone] at hmem
    cases hmem
  | loggedIn _ _ hlogin =>
    obtain ⟨row, -, -, -, -, rfl⟩ := Exchange.handleLogin_eq_ok hlogin
    rw [hnone] at hmem
    cases hmem
  | @served msg c' sent hparse hserved =>
    refine ⟨msg, hparse, hserved.shows hu ?_⟩
    rcases hserved.server with hsame | ⟨message, hstep, -⟩
    · have hsame : c'.server = x.server := hsame
      rw [hsame, newTasks_self] at hmem
      cases hmem
    · have hstep : x.server.step (.message env.now message) = some (c'.server, [], []) := hstep
      generalize c'.server = srv' at hstep hmem
      cases Server.step_steps hstep with
      | rejected =>
        rw [newTasks_self] at hmem
        cases hmem
      | handled hmsg =>
        obtain ⟨task, hqueue, htasks⟩ := newTasks_handled hmsg
        rw [htasks] at hmem
        obtain rfl := List.mem_singleton.mp hmem
        exact ⟨_, hqueue, rfl⟩

/-- Nor does a new account. -/
lemma fills_creations {db db' : Database} {users users' : Users} {log : List Exchange.Entry}
    (h : Creations sodium db users db' users' log) : Exchange.Entry.fills log = [] := by
  have hcreated : ∀ password shares account,
      Exchange.Entry.fills (Exchange.createdEntry password shares account) = [] := by
    rintro password shares (_ | ⟨id, wallet⟩) <;> rfl
  cases h with
  | nothing => rfl
  | registered companies => exact hcreated _ _ _
  | main => rw [Exchange.Entry.fills_append, hcreated, hcreated, List.append_nil]

/-! ### The invariant -/

/-- What waits and what rests was ordered, and so was what has been traded. -/
structure Consenting (json : JsonLib J) (n : Network) (log : List Happening) : Prop where
  ok : n.exchange.server.Ok
  queue : ∀ c o, .order c o ∈ n.exchange.server.engineQueue → Ordered json log c o
  resting : n.exchange.server.market.RestingFrom (Ordered json log)
  fills : ∀ t ∈ Exchange.Entry.fills (entries log), t.Agreed (Ordered json log)
  amount : ∀ u c s p, traded u c s p log + n.exchange.server.market.held (Order.stake u c s p)
    + (n.exchange.server.engineQueue.map (EngineTask.amount u c s p)).sum ≤ ordered u c s p log

/-- The process has just been started. -/
lemma Consenting.start {db : Database} (hm : MarketState.new companies = .ok m)
    (hserver : n.exchange.server = .start m db)
    (hfills : ∀ t ∈ Exchange.Entry.fills (entries log), t.Agreed (Ordered json log))
    (hamount : ∀ u c s p, traded u c s p log ≤ ordered u c s p log) : Consenting json n log := by
  have hqueue : n.exchange.server.engineQueue = [] := by rw [hserver]; rfl
  refine ⟨hserver ▸ Server.ok_start (Server.ok_new hm) db, ?_, ?_, hfills, fun u c s p => ?_⟩
  · intro c o hmem
    rw [hqueue] at hmem
    cases hmem
  · intro c b hb s r hr
    rw [Server.resting_start hm (hserver ▸ hb)] at hr
    cases hr
  · rw [hqueue, hserver, Server.held_start hm]
    simpa using hamount u c s p

/-- Tasks are queued, and the market stays as it is. -/
lemma Consenting.extend {tasks : List EngineTask} (h : Consenting json n log)
    (hok : n'.exchange.server.Ok)
    (hmarket : n'.exchange.server.market = n.exchange.server.market)
    (hqueue : n'.exchange.server.engineQueue = n.exchange.server.engineQueue ++ tasks)
    (htasks : (queuedTasks log').map Prod.fst = tasks)
    (hordered : ∀ c o, .order c o ∈ tasks → Ordered json (log ++ log') c o)
    (hfills : Exchange.Entry.fills (entries log') = []) : Consenting json n' (log ++ log') where
  ok := hok
  queue c o hmem := by
    rw [hqueue] at hmem
    rcases List.mem_append.mp hmem with hmem | hmem
    · exact (h.queue c o hmem).append log'
    · exact hordered c o hmem
  resting := by
    rw [hmarket]
    exact h.resting.mono fun c o ho => ho.append log'
  fills t ht := by
    rw [entries_append, Exchange.Entry.fills_append, hfills, List.append_nil] at ht
    exact (h.fills t ht).mono fun c o ho => ho.append log'
  amount u c s p := by
    have htraded : traded u c s p log' = 0 := by rw [traded, hfills]; rfl
    have hnew : ordered u c s p log' = (tasks.map (EngineTask.amount u c s p)).sum := by
      rw [← htasks, List.map_map]
      rfl
    have hold := h.amount u c s p
    rw [traded_append, ordered_append, htraded, hnew, hmarket, hqueue, List.map_append,
      List.sum_append]
    linarith only [hold]

/-- Nothing is queued, and the server stays as it is. -/
lemma Consenting.quiet (h : Consenting json n log) (hok : n'.exchange.server.Ok)
    (hmarket : n'.exchange.server.market = n.exchange.server.market)
    (hqueue : n'.exchange.server.engineQueue = n.exchange.server.engineQueue)
    (htasks : queuedTasks log' = []) (hentries : entries log' = []) :
    Consenting json n' (log ++ log') := by
  rw [← List.append_nil n.exchange.server.engineQueue] at hqueue
  refine h.extend hok hmarket hqueue (by rw [htasks]; rfl) (fun _ _ hmem => by cases hmem) ?_
  rw [hentries]
  rfl

/-- The engine thread takes a task. -/
lemma Consenting.task {task : EngineTask} {queue : List EngineTask} {effect : Effect}
    (h : Consenting json n log) (hok : n'.exchange.server.Ok)
    (hqueue : n.exchange.server.engineQueue = task :: queue)
    (hacts : Acts n.exchange.server.market task effect)
    (hmarket : n'.exchange.server.market = effect.market)
    (hqueue' : n'.exchange.server.engineQueue = queue)
    (htasks : queuedTasks log' = [])
    (hfills : Exchange.Entry.fills (entries log') = effect.fills) :
    Consenting json n' (log ++ log') := by
  have hhead : task ∈ n.exchange.server.engineQueue := by rw [hqueue]; exact List.mem_cons_self
  have haddr : task.Addressed := h.ok.addressed _ hhead
  have hnew : ∀ c o, Ordered json log c o → Ordered json (log ++ log') c o :=
    fun c o ho => ho.append log'
  obtain ⟨hagreed, hresting⟩ := hacts.agreed h.ok.market haddr h.resting
    fun c o heq => h.queue c o (heq ▸ hhead)
  refine ⟨hok, fun c o hmem => ?_, hmarket ▸ hresting.mono hnew, fun t ht => ?_, fun u c s p => ?_⟩
  · refine hnew c o (h.queue c o ?_)
    rw [hqueue, ← hqueue']
    exact List.mem_cons_of_mem _ hmem
  · rw [entries_append, Exchange.Entry.fills_append, hfills] at ht
    rcases List.mem_append.mp ht with ht | ht
    · exact (h.fills t ht).mono hnew
    · exact (hagreed t ht).mono hnew
  · have hbefore := h.amount u c s p
    have hstep := hacts.amount_le (u := u) (c := c) (s := s) (p := p) h.ok.market haddr
    have htraded : traded u c s p log' = (effect.fills.map (Trade.amount u c s p)).sum := by
      rw [traded, hfills]
    have hordered : ordered u c s p log' = 0 := by rw [ordered, htasks]; rfl
    rw [hqueue, List.map_cons, List.sum_cons] at hbefore
    rw [traded_append, ordered_append, htraded, hordered, hmarket, hqueue']
    linarith only [hbefore, hstep]

lemma Consenting.traded_le_ordered (h : Consenting json n log) :
    traded u c s p log ≤ ordered u c s p log := by
  have hheld : 0 ≤ n.exchange.server.market.held (Order.stake u c s p) :=
    Finset.sum_nonneg fun _ _ => held_nonneg Order.stake_nonneg
  have hqueue : 0 ≤ (n.exchange.server.engineQueue.map (EngineTask.amount u c s p)).sum := by
    refine List.sum_nonneg fun x hx => ?_
    obtain ⟨task, -, rfl⟩ := List.mem_map.mp hx
    exact task.amount_nonneg
  linarith only [h.amount u c s p, hheld, hqueue]

/-- **One event** makes no trade that was not agreed. -/
lemma Consenting.step (hm : MarketState.new companies = .ok m)
    (hrun : Exchange.Run sodium m Exchange.Whole (.blank m chance) n.exchange (entries log))
    (h : Consenting json n log) (horderly : Orderly n e)
    (hstep : Network.step json sodium g m n e = some (n', log')) :
    Consenting json n' (log ++ log') := by
  have hok := ok_step (Server.ok_new hm) h.ok horderly hstep
  cases step_steps hstep with
  | accept _ _ htask =>
    subst htask
    refine h.extend hok rfl rfl rfl (fun c o hmem => ?_) rfl
    cases List.mem_singleton.mp hmem
  | leave => exact h.quiet hok rfl rfl rfl rfl
  | @receive k env raw conn r tasks _ _ hreceived htasks =>
    obtain ⟨hmarket, hqueue⟩ := server_received hreceived
    refine h.extend hok hmarket (htasks ▸ hqueue) ?_ (fun c o hmem => ?_) ?_
    · rw [queuedTasks_reception, List.map_map]
      exact List.map_id _
    · refine ⟨k, ?_, fun hu => ?_⟩
      · rw [queuedTasks_append, queuedTasks_reception]
        exact List.mem_append_right _ (List.mem_map.mpr ⟨_, hmem, rfl⟩)
      · obtain ⟨msg, hparse, hshows⟩ := shows_of_newTasks hreceived (htasks ▸ hmem) hu
        refine knowsToken_of_shows hrun ?_ hparse hshows
        exact List.mem_append_left _ (List.mem_append_left _ List.mem_cons_self)
    · rw [entries_received]
      exact fills_received hreceived
  | idle => exact h.quiet hok rfl rfl rfl rfl
  | @task fuel task queue srv fills pushed broadcast reply hqueue hserver =>
    have hsafe : n.exchange.server.SafeEvent (.engine fuel) := horderly
    have htasks : queuedTasks (fills.map (fun t => .entry (.fill t))
        ++ n.deliver (framesFor n.senders.head?.join broadcast reply)) = [] := by simp
    have hfills : Exchange.Entry.fills (entries (fills.map (fun t => .entry (.fill t))
        ++ n.deliver (framesFor n.senders.head?.join broadcast reply))) = fills := by simp
    cases Server.step_steps hserver with
    | idle _ hnil =>
      rw [hnil] at hqueue
      cases hqueue
    | @task _ task' queue' effect hqueue' hrun =>
      obtain ⟨rfl, rfl⟩ := List.cons.inj (hqueue'.symm.trans hqueue)
      exact h.task hok hqueue (h.ok.acts hsafe hqueue hrun) rfl rfl htasks hfills
  | settle =>
    refine h.quiet hok ?_ ?_ rfl rfl
    all_goals
      simp only [Server.dbStep]
      split_ifs <;> rfl
  | notified hnotifies =>
    have hexchange := hnotifies.same.1
    exact h.quiet hok (by rw [hexchange]) (by rw [hexchange])
      (queuedTasks_ofWallet hnotifies.ofWallet) (entries_ofWallet hnotifies.ofWallet)
  | @restart salt salt' x created hmain =>
    obtain ⟨db, users, hx, hcreations, -⟩ := Exchange.main_creations (m := m) salt salt'
      n.exchange.server.db n.exchange.users
    rw [hmain] at hx hcreations
    have hentries : entries (created.map .entry) = created := by
      simpa using entries_map_entry (fun e => e) created
    have hfills : Exchange.Entry.fills (entries (created.map .entry)) = [] := by
      rw [hentries]
      exact fills_creations hcreations
    have hserver : x.server = .start m db := congrArg Exchange.server hx
    refine .start hm hserver (fun t ht => ?_) fun u c s p => ?_
    · rw [entries_append, Exchange.Entry.fills_append, hfills, List.append_nil] at ht
      exact (h.fills t ht).mono fun c o ho => ho.append _
    · have hold := h.traded_le_ordered (u := u) (c := c) (s := s) (p := p)
      have htraded : traded u c s p (created.map .entry) = 0 := by rw [traded, hfills]; rfl
      have hqueued : queuedTasks (created.map .entry) = [] :=
        queuedTasks_map_entry (fun y => y) created
      have hordered : ordered u c s p (created.map .entry) = 0 := by rw [ordered, hqueued]; rfl
      rwa [traded_append, ordered_append, htraded, hordered, add_zero, add_zero]

/-- **No trade without consent.** Whatever comes in from whom, and whoever takes the next step:
every trade that was made is between a buy order and a sell order of two users, at a price within
both limits and of no more than either asks for; and each of the two had come in on a connection
that had sent a token of the user, or is of a synthetic one. Nor did anybody trade more of a
company, at a price or beyond, than was ordered for him with such a limit. -/
theorem trades_agreed (hm : MarketState.new companies = .ok m)
    (h : Transition.Run (Network.step json sodium g m) Orderly (blank m chance) n log) :
    (∀ t ∈ Exchange.Entry.fills (entries log), t.Agreed (Ordered json log)) ∧
      ∀ u c s p, traded u c s p log ≤ ordered u c s p log := by
  have hconsenting : Run json sodium g m (blank m chance) n log ∧ Consenting json n log := by
    refine h.invariant (P := fun n log => Run json sodium g m (blank m chance) n log ∧
      Consenting json n log) ⟨.refl, ?_⟩ ?_
    · exact .start hm rfl (fun t ht => absurd ht List.not_mem_nil) fun _ _ _ _ => le_rfl
    · intro n n' e log log' ⟨hrun, ih⟩ horderly hstep
      exact ⟨hrun.step trivial hstep, ih.step hm (Run.exchange hrun) horderly hstep⟩
  exact ⟨hconsenting.2.fills, fun _ _ _ _ => hconsenting.2.traded_le_ordered⟩

/-- `shrey` sells two shares of those that he has offered. -/
theorem trades_agreed_sampleTrade : ∃ (n : Network) (log : List Happening) (t : Trade),
    Transition.Run (Network.step reportsLib Exchange.sampleSodium ⟨[], {}⟩ Server.sampleMarket)
      Orderly sampleBlank n log ∧
    Exchange.Entry.fills (entries log) = [t] ∧ t.Agreed (Ordered reportsLib log) ∧
    traded 1 1 false 5 log = 2 ∧ ordered 1 1 false 5 log = 3 ∧
    traded 1 1 false 5 log ≤ ordered 1 1 false 5 log := by
  obtain ⟨⟨n, log⟩, hrun, hsample⟩ := Option.map_eq_some_iff.mp
    (by decide +kernel : (Transition.runEvents (step reportsLib Exchange.sampleSodium ⟨[], {}⟩
      Server.sampleMarket) Orderly sampleBlank sampleTrade).map
        (fun r => ((Exchange.Entry.fills (entries r.2)).length, traded 1 1 false 5 r.2,
          ordered 1 1 false 5 r.2)) = some (1, 2, 3))
  simp only [Prod.mk.injEq] at hsample
  obtain ⟨hlength, htraded, hordered⟩ := hsample
  obtain ⟨t, ht⟩ := List.length_eq_one_iff.mp hlength
  have h := Transition.run_of_runEvents hrun
  have hagreed := trades_agreed Server.new_sampleMarket h
  exact ⟨n, log, t, h, ht, hagreed.1 t (ht ▸ List.mem_singleton_self t), htraded, hordered,
    hagreed.2 1 1 false 5⟩

end Network

end ExchangeEngine
