import ExchangeEngine.Accounts.Authentication
import ExchangeEngine.Network.Basic
import ExchangeEngine.Network.Serves

/-!
# From texts to events

Whatever texts come in on whichever connections, and however handlers, engine thread and database
worker take turns: the exchange does a run of its own events, and what holds of those runs holds of
the network.
-/

namespace ExchangeEngine

/-! ### Receptions -/

section Receptions

variable {J : Type} {json : JsonLib J} {sodium : Sodium} {g : GameManager} {env : Circumstances}
  {x : Exchange} {games : GameTables} {userId : Int} {raw : String} {r : Reception}

/-- What a text leads to. -/
inductive Received (json : JsonLib J) (sodium : Sodium) (g : GameManager) (env : Circumstances)
    (x : Exchange) (games : GameTables) (userId : Int) (raw : String) : Reception → Prop
  | stayed {frames : List Outgoing} (hframes : ∀ f ∈ frames, ∃ message, f = .error message) :
      Received json sodium g env x games userId raw (x.stay games userId frames)
  | registered {msg : J} {username password role : String} {x' : Exchange} {id : Int}
      (hparse : json.parse raw = .ok msg)
      (hread : Exchange.readRegistration json msg = .ok (username, password, role))
      (hregister : x.handleRegister sodium env.salt username password role = .ok (x', id)) :
      Received json sodium g env x games userId raw
        ⟨x', games, id,
          Exchange.createdEntry password (Exchange.starterShares x.server.market.companies)
            (some (id, true)), [.registered id username], true⟩
  | loggedIn {msg : J} {username password token : String} {x' : Exchange} {id : Int}
      (hparse : json.parse raw = .ok msg)
      (hread : Exchange.readLogin json msg = .ok (username, password))
      (hlogin : x.handleLogin sodium env.draw env.now username password = .ok (x', token, id)) :
      Received json sodium g env x games userId raw
        ⟨x', games, id, [.granted ⟨token, id, env.now, password⟩], [.loggedIn token id username],
          true⟩
  | served {msg : J} {c' : Session} {sent : List Response} (hparse : json.parse raw = .ok msg)
      (hserved : Session.Served json g env.toSurroundings msg ⟨x.server, games, userId⟩ c' sent) :
      Received json sodium g env x games userId raw
        ⟨{ x with server := c'.server }, c'.games, c'.currentUserId, [],
          sent.flatMap (Exchange.frameOf { x with server := c'.server } c'.currentUserId),
          sent.any Response.updates⟩

lemma Received.nothing :
    Received json sodium g env x games userId raw (x.stay games userId []) :=
  .stayed fun _ h => absurd h List.not_mem_nil

lemma Received.refused (message : String) :
    Received json sodium g env x games userId raw (x.stay games userId [.error message]) :=
  .stayed fun _ h => ⟨message, List.mem_singleton.mp h⟩

lemma receiveRegister_received {msg : J} (hparse : json.parse raw = .ok msg) :
    Received json sodium g env x games userId raw
      (x.receiveRegister json sodium env games userId msg) := by
  simp only [Exchange.receiveRegister]
  cases hread : Exchange.readRegistration json msg with
  | error e => exact .nothing
  | ok texts =>
    obtain ⟨username, password, role⟩ := texts
    cases hregister : x.handleRegister sodium env.salt username password role with
    | error message => simpa only [hregister] using .refused message
    | ok out =>
      obtain ⟨x', id⟩ := out
      simpa only [hregister] using .registered hparse hread hregister

lemma receiveLogin_received {msg : J} (hparse : json.parse raw = .ok msg) :
    Received json sodium g env x games userId raw
      (x.receiveLogin json sodium env games userId msg) := by
  simp only [Exchange.receiveLogin]
  cases hread : Exchange.readLogin json msg with
  | error e => exact .nothing
  | ok texts =>
    obtain ⟨username, password⟩ := texts
    cases hlogin : x.handleLogin sodium env.draw env.now username password with
    | error message => simpa only [hlogin] using .refused message
    | ok out =>
      obtain ⟨x', token, id⟩ := out
      simpa only [hlogin] using .loggedIn hparse hread hlogin

/-- **A text** leads to one of these. -/
theorem receive_received (h : x.receive json sodium g env games userId raw = some r) :
    Received json sodium g env x games userId raw r := by
  simp only [Exchange.receive] at h
  cases hparse : json.parse raw with
  | error e =>
    rw [hparse] at h
    obtain rfl := Option.some.inj h
    exact .nothing
  | ok msg =>
    simp only [hparse] at h
    by_cases hobject : json.isObject msg = true
    · simp only [hobject, Bool.not_true, Bool.false_eq_true, if_false] at h
      cases htype : Session.readType json msg with
      | error e =>
        simp only [htype] at h
        obtain rfl := Option.some.inj h
        exact .nothing
      | ok type =>
        simp only [htype] at h
        split_ifs at h with hregister hlogin
        · obtain rfl := Option.some.inj h
          exact receiveRegister_received hparse
        · obtain rfl := Option.some.inj h
          exact receiveLogin_received hparse
        · obtain ⟨⟨c', sent⟩, hsession, rfl⟩ := Option.map_eq_some_iff.mp h
          exact .served hparse
            (Session.serves_handleMessage hparse hobject htype hregister hlogin c' sent hsession)
    · simp only [hobject, Bool.not_false, if_true] at h
      obtain rfl := Option.some.inj h
      exact .nothing

end Receptions

/-! ### Steps of the network -/

/-- What an event of the exchange was part of what happened. -/
def Network.Happening.entries : Network.Happening → List Exchange.Entry
  | .entry e => [e]
  | .heard _ _ _ => []
  | .queued _ _ => []
  | .read _ _ _ => []
  | .sent _ _ => []

namespace Network

variable {J : Type} {json : JsonLib J} {sodium : Sodium} {g : GameManager} {m : MarketState}
  {chance : Chance} {n n' n₀ : Network} {e : Event} {log : List Happening}

/-- What has happened to the exchange. -/
def entries (log : List Happening) : List Exchange.Entry := log.flatMap Happening.entries

@[simp] lemma entries_append (log log' : List Happening) :
    entries (log ++ log') = entries log ++ entries log' := List.flatMap_append

@[simp] lemma entries_map_entry {α : Type} (f : α → Exchange.Entry) (l : List α) :
    entries (l.map fun a => .entry (f a)) = l.map f := by
  induction l with
  | nil => rfl
  | cons a l ih =>
    rw [List.map_cons, List.map_cons, ← ih]
    rfl

@[simp] lemma entries_map_sent (k : Nat) (frames : List Outgoing) :
    entries (frames.map (Happening.sent k)) = [] := by
  induction frames with
  | nil => rfl
  | cons f frames ih => exact ih

/-- Who is sent what. -/
lemma sent_mem_deliver {f : Nat → Connection → List Outgoing} {k : Nat} {frame : Outgoing} :
    .sent k frame ∈ n.deliver f ↔ ∃ conn, n.connections[k]? = some conn ∧ frame ∈ f k conn := by
  simp only [deliver, List.mem_flatten, List.mem_map, Prod.exists, List.mk_mem_zipIdx_iff_getElem?]
  constructor
  · rintro ⟨_, ⟨conn, k', hconn, rfl⟩, hmem⟩
    obtain ⟨frame', hframe, heq⟩ := List.mem_map.mp hmem
    obtain ⟨rfl, rfl⟩ := Happening.sent.inj heq
    exact ⟨conn, hconn, hframe⟩
  · rintro ⟨conn, hconn, hframe⟩
    exact ⟨_, ⟨conn, k, hconn, rfl⟩, List.mem_map_of_mem hframe⟩

@[simp] lemma entries_deliver (f : Nat → Connection → List Outgoing) :
    entries (n.deliver f) = [] := by
  rw [entries, List.flatMap_eq_nil_iff]
  intro x hx
  obtain ⟨_, hframes, hx⟩ := List.mem_flatten.mp hx
  obtain ⟨conn, -, rfl⟩ := List.mem_map.mp hframes
  obtain ⟨frame, -, rfl⟩ := List.mem_map.mp hx
  rfl

/-- What `send_user_update` does next. -/
inductive Advances (n : Network) : Update → Option Update → List Happening → Prop
  | nobody {k : Nat} (hnobody : ∀ conn, n.connections[k]? = some conn → conn.currentUserId = -1) :
      Advances n (.asked k) none []
  | read {k : Nat} {conn : Connection} (hconn : n.connections[k]? = some conn)
      (hsomebody : conn.currentUserId ≠ -1) :
      Advances n (.asked k)
        (some (.read k conn.currentUserId
          (n.exchange.server.db.getUserProfile conn.currentUserId)))
        [.read k conn.currentUserId (n.exchange.server.db.getUserProfile conn.currentUserId)]
  | sent (k : Nat) (userId : Int) (profile : UserProfile) :
      Advances n (.read k userId profile) none [.sent k (.userUpdate userId profile)]

lemma advance_advances (update : Update) :
    Advances n update (n.advance update).1 (n.advance update).2 := by
  cases update with
  | asked k =>
    simp only [advance, userOf]
    cases hconn : n.connections[k]? with
    | none => exact .nobody fun _ hsome => by cases hconn.symm.trans hsome
    | some conn =>
      simp only [Option.map_some]
      split_ifs with hnobody
      · exact .nobody fun _ hsome => Option.some.inj (hconn.symm.trans hsome) ▸ hnobody
      · exact .read hconn hnobody
  | read k userId profile => exact .sent k userId profile

/-- What the two threads that send wallets do next. -/
inductive Notifies (n : Network) : Event → Network → List Happening → Prop
  | update {update : Update} {next : Option Update} {log : List Happening}
      (hio : n.io = some update) (hadvances : n.Advances update next log) :
      Notifies n .update { n with io := next } log
  | begin (i : Nat) {userId : Int} {affected : List Int} (hround : n.round = none)
      (haffected : n.affected = userId :: affected) :
      Notifies n (.notify i)
        { n with affected := affected, round := some ⟨userId, n.sessions, none⟩ } []
  | visit {i k : Nat} {round : Round} (hround : n.round = some round)
      (hupdate : round.update = none) (hk : round.left[i]? = some k) :
      Notifies n (.notify i)
        { n with
          round := some { round with
            left := round.left.eraseIdx i
            update := if n.userOf k = some round.userId then some (.asked k) else none } } []
  | advance (i : Nat) {round : Round} {update : Update} {next : Option Update}
      {log : List Happening} (hround : n.round = some round)
      (hupdate : round.update = some update) (hadvances : n.Advances update next log) :
      Notifies n (.notify i) { n with round := some { round with update := next } } log
  | finish (i : Nat) {round : Round} (hround : n.round = some round)
      (hupdate : round.update = none) (hleft : round.left = []) :
      Notifies n (.notify i) { n with round := none } []
  | wait (i : Nat) : Notifies n (.notify i) n []

lemma goOn_notifies {round : Round} (i : Nat) (hround : n.round = some round) :
    Notifies n (.notify i) (n.goOn round i).1 (n.goOn round i).2 := by
  simp only [goOn]
  cases hupdate : round.update with
  | some update => exact .advance i hround hupdate (advance_advances update)
  | none =>
    simp only
    cases hk : round.left[i]? with
    | some k => exact .visit hround hupdate hk
    | none =>
      simp only
      split_ifs with hleft
      · exact .finish i hround hupdate hleft
      · rw [← hround]
        exact .wait i

/-- What an event does to the network. -/
inductive Steps (json : JsonLib J) (sodium : Sodium) (g : GameManager) (m : MarketState)
    (n : Network) : Event → Network → List Happening → Prop
  | accept {task : EngineTask} (hio : n.io = none) (hround : n.round = none)
      (htask : task = .snapshot n.exchange.server.market.defaultCompanyId) :
      Steps json sodium g m n .accept
        { n with
          exchange := { n.exchange with server := n.exchange.server.push task }
          connections := n.connections ++ [{}]
          senders := n.senders ++ [some n.connections.length] }
        [.queued task (some n.connections.length)]
  | leave (k : Nat) (hio : n.io = none) (hround : n.round = none) :
      Steps json sodium g m n (.leave k)
        { n with connections := n.connections.modify k fun conn =>
            { conn with registered := false } } []
  | receive {k : Nat} {env : Circumstances} {raw : String} {conn : Connection} {r : Reception}
      {tasks : List EngineTask} (hio : n.io = none) (hconn : n.connections[k]? = some conn)
      (hreceived : Received json sodium g env n.exchange n.games conn.currentUserId raw r)
      (htasks : tasks = newTasks n.exchange.server r.exchange.server) :
      Steps json sodium g m n (.receive k env raw)
        { n with
          exchange := r.exchange
          games := r.games
          connections := n.connections.set k { conn with currentUserId := r.currentUserId }
          senders := n.senders ++ tasks.map (senderOf k)
          io := if r.updates then some (.asked k) else none } (reception k env.now raw tasks r)
  | idle {fuel : Nat} (hqueue : n.exchange.server.engineQueue = []) :
      Steps json sodium g m n (.engine fuel) n []
  | task {fuel : Nat} {task : EngineTask} {queue : List EngineTask} {s : Server}
      {fills : List Trade} {pushed : List DbTask} {broadcast reply : List Outgoing}
      (hqueue : n.exchange.server.engineQueue = task :: queue)
      (hstep : n.exchange.server.step (.engine fuel) = some (s, fills, pushed))
      (hbroadcast : broadcastFor fuel n.exchange.server task = some broadcast)
      (hreply : replyFor fuel n.exchange.server task = some reply) :
      Steps json sodium g m n (.engine fuel)
        { n with exchange := { n.exchange with server := s }, senders := n.senders.tail }
        (fills.map (fun t => .entry (.fill t)) ++
          n.deliver (framesFor n.senders.head?.join broadcast reply))
  | settle (haffected : n.affected = []) (hround : n.round = none) :
      Steps json sodium g m n .settle
        { n with
          exchange := { n.exchange with server := n.exchange.server.dbStep }
          affected := affectedUsers n.exchange.server.dbQueueBack } []
  | notified {e : Event} {n' : Network} {log : List Happening} (h : n.Notifies e n' log) :
      Steps json sodium g m n e n' log
  | restart {salt salt' : Nat} {x : Exchange} {created : List Exchange.Entry}
      (hmain : Exchange.main sodium m salt salt' n.exchange.server.db n.exchange.users
        = (x, created)) :
      Steps json sodium g m n (.restart salt salt')
        { n with
          exchange := x
          connections := n.connections.map fun conn =>
            { conn with registered := false, reading := false }
          senders := []
          io := none
          affected := []
          round := none } (created.map .entry)

/-- **An event** does one of these things. -/
theorem step_steps (h : step json sodium g m n e = some (n', log)) :
    Steps json sodium g m n e n' log := by
  cases e with
  | accept =>
    simp only [step, Option.isNone_iff_eq_none] at h
    split_ifs at h with hfree
    obtain ⟨rfl, rfl⟩ := Prod.mk.inj (Option.some.inj h)
    exact .accept hfree.1 hfree.2 rfl
  | leave k =>
    simp only [step, Option.isNone_iff_eq_none] at h
    split_ifs at h with hfree
    obtain ⟨rfl, rfl⟩ := Prod.mk.inj (Option.some.inj h)
    exact .leave k hfree.1 hfree.2
  | receive k env raw =>
    obtain ⟨conn, hconn, h⟩ := Option.bind_eq_some_iff.mp h
    split_ifs at h with hfree
    obtain ⟨r, hr, h⟩ := Option.bind_eq_some_iff.mp h
    obtain ⟨rfl, rfl⟩ := Prod.mk.inj (Option.some.inj h)
    exact .receive (Option.isNone_iff_eq_none.mp hfree.2) hconn (receive_received hr) rfl
  | engine fuel =>
    simp only [step] at h
    cases hqueue : n.exchange.server.engineQueue with
    | nil =>
      rw [hqueue] at h
      obtain ⟨rfl, rfl⟩ := Prod.mk.inj (Option.some.inj h)
      exact .idle hqueue
    | cons task queue =>
      rw [hqueue] at h
      obtain ⟨⟨s, fills, pushed⟩, hstep, h⟩ := Option.bind_eq_some_iff.mp h
      obtain ⟨broadcast, hbroadcast, h⟩ := Option.bind_eq_some_iff.mp h
      obtain ⟨reply, hreply, h⟩ := Option.bind_eq_some_iff.mp h
      obtain ⟨rfl, rfl⟩ := Prod.mk.inj (Option.some.inj h)
      exact .task hqueue hstep hbroadcast hreply
  | settle =>
    simp only [step, Option.isNone_iff_eq_none] at h
    split_ifs at h with hdone
    obtain ⟨rfl, rfl⟩ := Prod.mk.inj (Option.some.inj h)
    exact .settle hdone.1 hdone.2
  | update =>
    obtain ⟨update, hio, h⟩ := Option.map_eq_some_iff.mp h
    obtain ⟨rfl, rfl⟩ := Prod.mk.inj h
    exact .notified (.update hio (advance_advances update))
  | notify i =>
    simp only [step] at h
    cases hround : n.round with
    | some round =>
      rw [hround] at h
      have h := Option.some.inj h
      have hnotifies := goOn_notifies i hround
      rw [h] at hnotifies
      exact .notified hnotifies
    | none =>
      cases haffected : n.affected with
      | nil => simp [hround, haffected] at h
      | cons userId affected =>
        rw [hround, haffected] at h
        obtain ⟨rfl, rfl⟩ := Prod.mk.inj (Option.some.inj h)
        exact .notified (.begin i hround haffected)
  | restart salt salt' =>
    simp only [step] at h
    rcases hmain : Exchange.main sodium m salt salt' n.exchange.server.db n.exchange.users
      with ⟨x, created⟩
    rw [hmain] at h
    obtain ⟨rfl, rfl⟩ := Prod.mk.inj (Option.some.inj h)
    exact .restart hmain

/-- Wallets on their way change nothing else. -/
lemma Notifies.same (h : n.Notifies e n' log) : n'.exchange = n.exchange ∧ n'.games = n.games ∧
    n'.connections = n.connections ∧ n'.senders = n.senders := by
  cases h <;> exact ⟨rfl, rfl, rfl, rfl⟩

/-- Nothing happens but that wallets are read and sent. -/
def Happening.OfWallet : Happening → Prop
  | .read _ _ _ => True
  | .sent _ frame => ∃ userId profile, frame = .userUpdate userId profile
  | .heard _ _ _ => False
  | .queued _ _ => False
  | .entry _ => False

lemma Advances.ofWallet {update : Update} {next : Option Update} (h : n.Advances update next log) :
    ∀ x ∈ log, x.OfWallet := by
  intro x hx
  cases h with
  | nobody => cases hx
  | read =>
    rw [List.mem_singleton.mp hx]
    trivial
  | sent k userId profile =>
    rw [List.mem_singleton.mp hx]
    exact ⟨userId, profile, rfl⟩

lemma Notifies.ofWallet (h : n.Notifies e n' log) : ∀ x ∈ log, x.OfWallet := by
  cases h with
  | update _ hadvances => exact hadvances.ofWallet
  | advance _ _ _ hadvances => exact hadvances.ofWallet
  | _ => exact fun _ hx => absurd hx List.not_mem_nil

lemma entries_ofWallet (h : ∀ x ∈ log, x.OfWallet) : entries log = [] := by
  refine List.flatMap_eq_nil_iff.mpr fun x hx => ?_
  cases x with
  | entry e => exact (h _ hx).elim
  | _ => rfl

/-! ### The refinement -/

lemma entries_received {k : Nat} {now : Int} {raw : String} {tasks : List EngineTask}
    {r : Reception} : entries (reception k now raw tasks r) = r.log := by
  have hlog := entries_map_entry (fun e => e) r.log
  have htasks : entries (tasks.map fun task => .queued task (senderOf k task)) = [] := by
    rw [entries, List.flatMap_eq_nil_iff]
    intro x hx
    obtain ⟨task, -, rfl⟩ := List.mem_map.mp hx
    rfl
  rw [reception, entries_append, entries_append, entries_map_sent, List.append_nil]
  have hheard : entries (.heard k now raw :: tasks.map fun task => .queued task (senderOf k task))
      = [] := htasks
  rw [hheard, List.nil_append]
  simpa using hlog

/-- What the exchange does when a text comes in. -/
lemma run_of_received {env : Circumstances} {x : Exchange} {games : GameTables} {userId : Int}
    {raw : String} {r : Reception} (h : Received json sodium g env x games userId raw r) :
    Exchange.Run sodium m Exchange.Whole x r.exchange r.log := by
  cases h with
  | stayed => exact .refl
  | @registered msg username password role x' id _ _ hregister =>
    refine .single (e := .register env.salt username password role) trivial ?_
    simp only [Exchange.step, hregister]
  | @loggedIn msg username password token x' id _ _ hlogin =>
    refine .single (e := .login env.draw env.now username password) trivial ?_
    simp only [Exchange.step, hlogin]
  | served _ hserved =>
    rcases hserved.server with hsame | ⟨message, hstep, -⟩
    · rw [hsame]
      exact .refl
    · refine .single (e := .server (.message env.now message)) trivial ?_
      have hstep : x.server.step (.message env.now message) = some (_, [], []) := hstep
      simp only [Exchange.step, hstep, Option.map_some, List.map_nil]

/-- **One event** of the network is a run of the exchange. -/
lemma exchange_step (h : step json sodium g m n e = some (n', log)) :
    Exchange.Run sodium m Exchange.Whole n.exchange n'.exchange (entries log) := by
  cases step_steps h with
  | accept _ _ htask =>
    subst htask
    exact .single (e := .server (.message 0 (.snapshot none))) trivial rfl
  | leave => exact .refl
  | receive _ _ hreceived =>
    rw [entries_received]
    exact run_of_received hreceived
  | idle => exact .refl
  | @task fuel task queue s fills pushed _ _ _ hstep =>
    rw [entries_append, entries_deliver, List.append_nil, entries_map_entry]
    refine .single (e := .server (.engine fuel)) trivial ?_
    simp only [Exchange.step, hstep, Option.map_some]
  | settle => exact .single (e := .server .db) trivial rfl
  | notified hnotifies =>
    rw [entries_ofWallet hnotifies.ofWallet, hnotifies.same.1]
    exact .refl
  | @restart salt salt' x created hmain =>
    have hcreated : entries (created.map .entry) = created := by
      simpa using entries_map_entry (fun e => e) created
    rw [hcreated]
    refine .single (e := .restart salt salt') trivial ?_
    simp only [Exchange.step, hmain]

/-- **The exchange does a run** of its own. -/
lemma Run.exchange (h : Run json sodium g m n₀ n log) :
    Exchange.Run sodium m Exchange.Whole n₀.exchange n.exchange (entries log) := by
  have hsimulated : ∃ x, Exchange.Run sodium m Exchange.Whole n₀.exchange x (entries log) ∧
      x = n.exchange :=
    h.simulate (R := fun n x => x = n.exchange) rfl
      fun _ n' _ _ _ hx _ hstep => ⟨n'.exchange, hx ▸ exchange_step hstep, rfl⟩
  obtain ⟨x, hrun, rfl⟩ := hsimulated
  exact hrun

/-- The game is played only as a user whose token is valid. -/
lemma games_step (h : step json sodium g m n e = some (n', log)) : n'.games = n.games ∨
    ∃ call : GameManager.Call, n'.games = (g.call n.games call).1 ∧
      ∃ now token, n.exchange.server.db.validateSession now token = .ok call.userId := by
  cases step_steps h with
  | receive _ _ hreceived =>
    cases hreceived with
    | served _ hserved =>
      rcases hserved.games with hsame | ⟨call, ⟨token, -, hauth⟩, hcall⟩
      · exact Or.inl hsame
      · exact Or.inr ⟨call, hcall, _, token, hauth⟩
    | _ => exact Or.inl rfl
  | notified hnotifies => exact Or.inl hnotifies.same.2.1
  | _ => exact Or.inl rfl

/-- **From texts to events.** Whatever texts come in on whichever connections, and whoever takes the
next step: on an empty database the exchange does a run of its own events, and the games are those
of a sequence of calls, each for a user who had logged in. -/
theorem network_refines (h : Run json sodium g m (blank m chance) n log) :
    Exchange.Run sodium m Exchange.Whole (.blank m chance) n.exchange (entries log) ∧
      ∃ calls, n.games = g.run .empty calls ∧ ∀ call ∈ calls,
        ∃ grant ∈ Exchange.Entry.grants (entries log), grant.userId = call.userId := by
  have hboth : Run json sodium g m (blank m chance) n log ∧
      ∃ calls, n.games = g.run .empty calls ∧ ∀ call ∈ calls,
        ∃ grant ∈ Exchange.Entry.grants (entries log), grant.userId = call.userId := by
    refine h.invariant (P := fun n log => Run json sodium g m (blank m chance) n log ∧
      ∃ calls, n.games = g.run .empty calls ∧ ∀ call ∈ calls,
        ∃ grant ∈ Exchange.Entry.grants (entries log), grant.userId = call.userId)
      ⟨.refl, [], rfl, fun _ hcall => absurd hcall List.not_mem_nil⟩ ?_
    rintro n n' e log log' ⟨hrun, calls, hgames, hcalls⟩ - hstep
    refine ⟨hrun.step trivial hstep, ?_⟩
    have hkept : ∀ call ∈ calls, ∃ grant ∈ Exchange.Entry.grants (entries (log ++ log')),
        grant.userId = call.userId := by
      intro call hcall
      obtain ⟨grant, hgrant, hu⟩ := hcalls call hcall
      refine ⟨grant, ?_, hu⟩
      rw [entries_append, Exchange.Entry.grants_append]
      exact List.mem_append_left _ hgrant
    rcases games_step hstep with hsame | ⟨call, hcall, now, token, hauth⟩
    · exact ⟨calls, hsame.trans hgames, hkept⟩
    · obtain ⟨grant, hfind, -, hu⟩ := hrun.exchange.validateSession_iff.mp hauth
      refine ⟨calls ++ [call], ?_, ?_⟩
      · rw [hcall, hgames, GameManager.run, GameManager.run, List.foldl_append]
        rfl
      · intro c hc
        rcases List.mem_append.mp hc with hc | hc
        · exact hkept c hc
        · rw [List.mem_singleton.mp hc]
          refine ⟨grant, ?_, hu⟩
          rw [entries_append, Exchange.Entry.grants_append]
          exact List.mem_append_left _ (List.mem_of_find?_eq_some hfind)
  exact ⟨h.exchange, hboth.2⟩

/-! ### A login -/

/-- What `shrey` logs in with, and bids with then. -/
def loginLib : JsonLib Doc := docLib
  [("login", .object [("type", .text "login"), ("username", .text "shrey"),
      ("password", .text "pass123")]),
    ("bid", .object [("type", .text "order"), ("token", .text Exchange.sampleGrant.token),
      ("side", .text "BUY"), ("price", .number 5), ("quantity", .number 3),
      ("timestamp", .number 0)])]

/-- `shrey` connects and logs in. -/
def sampleSession : List Event :=
  [.restart 0 0, .accept, .receive 0 ⟨⟨5, 0, none, 0⟩, 0, fun _ => 0⟩ "login"]

theorem network_refines_sampleSession : ∃ n log,
    Run loginLib Exchange.sampleSodium ⟨[], {}⟩ Server.sampleMarket sampleBlank n log ∧
    Exchange.Run Exchange.sampleSodium Server.sampleMarket Exchange.Whole .sampleBlank n.exchange
      (entries log) ∧
    Exchange.Entry.grants (entries log) = [Exchange.sampleGrant] := by
  obtain ⟨⟨n, log⟩, hrun, hgrants⟩ := Option.map_eq_some_iff.mp
    (by decide +kernel : (Transition.runEvents (step loginLib Exchange.sampleSodium ⟨[], {}⟩
      Server.sampleMarket) (fun _ _ => True) sampleBlank sampleSession).map
        (fun r => Exchange.Entry.grants (entries r.2)) = some [Exchange.sampleGrant])
  have h := Transition.run_of_runEvents hrun
  exact ⟨n, log, h, (network_refines h).1, hgrants⟩

end Network

end ExchangeEngine
