import ExchangeEngine.Client.OpenOrders
import ExchangeEngine.Network.Replies

/-!
# The books that connections are shown

Every connection is sent the book again whenever it has changed. So the last book of a company that
a connection in the registry was sent is never out of date, whoever has traded, cancelled or
switched the engine since, on whichever connection.
-/

namespace ExchangeEngine

namespace Network

variable {J : Type} {json : JsonLib J} {sodium : Sodium} {g : GameManager} {m : MarketState}
  {chance : Chance} {n n' : Network} {e : Event} {log log' : List Happening} {k c : Nat}
  {companies : List Nat}

/-- The engine thread takes tasks that the market can take. -/
def Orderly (n : Network) : Event → Prop
  | .engine fuel => n.exchange.server.SafeEvent (.engine fuel)
  | _ => True

instance (n : Network) (e : Event) : Decidable (Orderly n e) := by
  cases e with
  | engine fuel => exact inferInstanceAs (Decidable (n.exchange.server.SafeEvent (.engine fuel)))
  | _ => exact isTrue trivial

/-- A text keeps the server in good order. -/
lemma ok_received {env : Circumstances} {x : Exchange} {games : GameTables} {userId : Int}
    {raw : String} {r : Reception} (hok : x.server.Ok)
    (h : Received json sodium g env x games userId raw r) : r.exchange.server.Ok := by
  cases h with
  | stayed => exact hok
  | registered _ _ hregister =>
    obtain ⟨row, users, -, -, -, rfl⟩ := Exchange.handleRegister_eq_ok hregister
    exact ⟨hok.market, hok.addressed⟩
  | loggedIn _ _ hlogin =>
    obtain ⟨row, -, -, -, -, rfl⟩ := Exchange.handleLogin_eq_ok hlogin
    exact ⟨hok.market, hok.addressed⟩
  | @served msg c' sent _ hserved =>
    rcases hserved.server with hsame | ⟨message, hstep, -⟩
    · exact hsame ▸ hok
    · exact hok.step (e := .message env.now message) trivial hstep

/-- **One event** keeps the server in good order. -/
lemma ok_step (hm : m.Ok) (h : n.exchange.server.Ok) (horderly : Orderly n e)
    (hstep : Network.step json sodium g m n e = some (n', log)) : n'.exchange.server.Ok := by
  cases step_steps hstep with
  | accept _ _ htask =>
    subst htask
    exact h.push trivial
  | receive _ _ hreceived => exact ok_received h hreceived
  | @task fuel _ _ _ _ _ _ _ _ hserver =>
    have hsafe : n.exchange.server.SafeEvent (.engine fuel) := horderly
    exact h.step hsafe hserver
  | settle => exact h.step (e := .db) trivial rfl
  | notified hnotifies =>
    rw [hnotifies.same.1]
    exact h
  | @restart salt salt' x created hmain =>
    obtain ⟨db, users, hx, -⟩ := Exchange.main_creations (m := m) salt salt'
      n.exchange.server.db n.exchange.users
    rw [hmain] at hx
    have hserver : x.server = .start m db := congrArg Exchange.server hx
    rw [hserver]
    exact Server.ok_start hm db
  | _ => exact h

/-- The books of a company that a connection was sent, the latest last. -/
def books (c k : Nat) (log : List Happening) : List BookMsg := told (ServerMsg.about c) k log

/-- What is known of the books: they have been sent to connections that there are, and the last one
on a connection in the registry is the current one. -/
structure Current (n : Network) (log : List Happening) : Prop where
  ok : n.exchange.server.Ok
  known : ∀ c k, n.connections.length ≤ k → books c k log = []
  current : ∀ (c k : Nat) (conn : Connection), n.connections[k]? = some conn →
    conn.registered = true → ∀ msg ∈ (books c k log).getLast?,
      msg = listing c (n.exchange.server.market.restingOf c)

/-- Nothing is sent about a market that stays as it is. -/
lemma Current.quiet (h : Current n log) (hok : n'.exchange.server.Ok)
    (hmarket : n'.exchange.server.market = n.exchange.server.market)
    (hlength : n.connections.length ≤ n'.connections.length)
    (hregistered : ∀ (k : Nat) (conn : Connection), n'.connections[k]? = some conn →
      conn.registered = true → n.connections.length ≤ k ∨
        ∃ old, n.connections[k]? = some old ∧ old.registered = true)
    (hquiet : ∀ c k, books c k log' = []) : Current n' (log ++ log') where
  ok := hok
  known c k hk := by
    rw [books, told_append, ← books, ← books, h.known c k (hlength.trans hk), hquiet]
    rfl
  current c k conn hconn hreg msg hmsg := by
    rw [books, told_append, ← books, ← books, hquiet, List.append_nil] at hmsg
    rcases hregistered k conn hconn hreg with hnew | ⟨old, hold, holdreg⟩
    · rw [h.known c k hnew] at hmsg
      cases hmsg
    · rw [hmarket]
      exact h.current c k old hold holdreg msg hmsg

/-- What a connection in the registry is sent for a task tells of every book that it changes. -/
lemma tells_task (sender : Option Nat) {fuel : Nat} {s : Server} {task : EngineTask}
    {effect : Effect} {broadcast reply : List Outgoing} {B : List BookMsg}
    (hm : s.market.Ok) (hsafe : task.Safe s.market)
    (hrun : runTask fuel s.market task = some effect)
    (hbroadcast : broadcastFor fuel s task = some broadcast)
    (hreply : replyFor fuel s task = some reply)
    (hB : B = tellings (ServerMsg.about c) broadcast
      ++ if sender = some k then tellings (ServerMsg.about c) reply else []) :
    B = [] ∧ effect.market.restingOf c = s.market.restingOf c ∨
      B.getLast? = some (listing c (effect.market.restingOf c)) := by
  obtain ⟨msgs, hmsgs, htold⟩ := tellings_broadcastFor (ServerMsg.about c) hbroadcast
  have htells : Tells c s.market effect.market msgs :=
    tells_sends hm hsafe (sentFor_sends hrun hmsgs)
  have hlast : tellings (ServerMsg.about c) reply = [] ∨
      (tellings (ServerMsg.about c) reply).getLast?
        = some (listing c (effect.market.restingOf c)) := by
    rcases tellings_replyFor (ServerMsg.about c) hreply
      with hnil | ⟨d, msgs', -, hmsgs', heq⟩
    · exact Or.inl hnil
    · have htells' : Tells c s.market effect.market msgs' :=
        tells_sends hm hsafe (sentFor_sends hrun hmsgs')
      rw [heq]
      exact htells'.imp And.left id
  have hbroad : B = newsOf c msgs
      ++ if sender = some k then tellings (ServerMsg.about c) reply else [] := by
    rw [hB, htold]
    rfl
  have hone : ∀ R : List BookMsg, R = [] ∨
      R.getLast? = some (listing c (effect.market.restingOf c)) → B = newsOf c msgs ++ R →
      B = [] ∧ effect.market.restingOf c = s.market.restingOf c ∨
        B.getLast? = some (listing c (effect.market.restingOf c)) := by
    rintro R (rfl | hR) rfl
    · rw [List.append_nil]
      exact htells
    · refine Or.inr ?_
      rw [List.getLast?_append, hR]
      rfl
  split_ifs at hbroad
  · exact hone _ hlast hbroad
  · exact hone _ (Or.inl rfl) hbroad

/-- **One event** keeps the books current. -/
lemma Current.step (hm : m.Ok) (h : Current n log) (horderly : Orderly n e)
    (hstep : Network.step json sodium g m n e = some (n', log')) : Current n' (log ++ log') := by
  have hok := ok_step hm h.ok horderly hstep
  cases step_steps hstep with
  | accept =>
    refine h.quiet hok rfl (by simp) ?_ fun _ _ => rfl
    intro k conn hconn hreg
    rw [List.getElem?_append] at hconn
    split_ifs at hconn with hlt
    · exact Or.inr ⟨conn, hconn, hreg⟩
    · exact Or.inl (not_lt.mp hlt)
  | leave k' =>
    refine h.quiet hok rfl (List.length_modify _ _ _).ge ?_ fun _ _ => rfl
    intro k conn hconn hreg
    rw [List.getElem?_modify] at hconn
    obtain ⟨old, hold, rfl⟩ := Option.map_eq_some_iff.mp hconn
    refine Or.inr ⟨old, hold, ?_⟩
    split_ifs at hreg
    exact hreg
  | @receive k' env raw conn₀ r tasks _ hconn₀ hreceived =>
    refine h.quiet hok (server_received hreceived).1 (List.length_set).ge ?_
      fun _ _ => told_reception hreceived
    intro k conn hconn hreg
    rw [List.getElem?_set] at hconn
    split_ifs at hconn with hk hlt
    · subst hk
      obtain rfl := Option.some.inj hconn
      exact Or.inr ⟨conn₀, hconn₀, hreg⟩
    · exact Or.inr ⟨conn, hconn, hreg⟩
  | idle =>
    exact h.quiet hok rfl le_rfl (fun k conn hconn hreg => Or.inr ⟨conn, hconn, hreg⟩)
      fun _ _ => rfl
  | @task fuel task queue s fills pushed broadcast reply hqueue hserver hbroadcast hreply =>
    have hsafe : n.exchange.server.SafeEvent (.engine fuel) := horderly
    cases Server.step_steps hserver with
    | idle _ hnil =>
      rw [hnil] at hqueue
      cases hqueue
    | @task _ task' queue' effect hqueue' hrun =>
      obtain ⟨rfl, rfl⟩ := List.cons.inj (hqueue'.symm.trans hqueue)
      have htask : task'.Safe n.exchange.server.market := hsafe task' (by rw [hqueue]; rfl)
      refine ⟨hok, fun c k hk => ?_, fun c k conn hconn hreg msg hmsg => ?_⟩
      · have hnone : n.connections[k]? = none := List.getElem?_eq_none hk
        rw [books, told_append, told_task, hnone]
        have hold := h.known c k hk
        rw [books] at hold
        rw [hold]
        rfl
      · have hconn : n.connections[k]? = some conn := hconn
        rw [books, told_append, told_task, hconn] at hmsg
        simp only [Option.map_some, Option.getD_some, hreg, if_true] at hmsg
        rcases tells_task (c := c) (k := k) n.senders.head?.join h.ok.market htask hrun
          hbroadcast hreply rfl with ⟨hnil, hsame⟩ | hlast
        · rw [hnil, List.append_nil] at hmsg
          exact (h.current c k conn hconn hreg msg hmsg).trans (congrArg (listing c) hsame.symm)
        · rw [List.getLast?_append, hlast] at hmsg
          exact (Option.some.inj hmsg).symm
  | settle =>
    refine h.quiet hok ?_ le_rfl (fun k conn hconn hreg => Or.inr ⟨conn, hconn, hreg⟩)
      fun _ _ => rfl
    simp only [Server.dbStep]
    split_ifs <;> rfl
  | notified hnotifies =>
    obtain ⟨hexchange, -, hconnections, -⟩ := hnotifies.same
    refine h.quiet hok (by rw [hexchange]) (by rw [hconnections]) (fun k conn hconn hreg => ?_)
      fun _ _ => told_ofWallet hnotifies.ofWallet
    exact Or.inr ⟨conn, hconnections ▸ hconn, hreg⟩
  | restart hmain =>
    refine ⟨hok, fun c k hk => ?_, fun c k conn hconn hreg => ?_⟩
    · rw [List.length_map] at hk
      rw [books, told_append, told_map_entry, List.append_nil]
      exact h.known c k hk
    · obtain ⟨old, -, rfl⟩ := Option.map_eq_some_iff.mp (List.getElem?_map ▸ hconn)
      cases hreg

/-- **No book that is shown is out of date.** In every run from an empty database, the last book of
a company that a connection in the registry was sent, alone or in a snapshot, lists the orders that
rest now: of each side the first hundred, best price first. -/
theorem books_current {conn : Connection} {msg : BookMsg} (hm : MarketState.new companies = .ok m)
    (h : Transition.Run (Network.step json sodium g m) Orderly (blank m chance) n log)
    (hconn : n.connections[k]? = some conn) (hregistered : conn.registered = true)
    (hlast : (books c k log).getLast? = some msg) :
    msg = listing c (n.exchange.server.market.restingOf c) := by
  have hok : m.Ok := Server.ok_new hm
  have hcurrent : Current n log := by
    refine h.invariant (P := fun n log => Current n log) ⟨Server.ok_start hok _, fun _ _ _ => rfl, ?_⟩
      fun _ _ _ _ _ ih horderly hstep => ih.step hok horderly hstep
    intro c k conn hconn
    cases hconn
  exact hcurrent.current c k conn hconn hregistered msg hlast

/-- Another client bids, and the first one is sent the book. -/
theorem books_current_sampleBid : ∃ (n : Network) (log : List Happening) (msg : BookMsg),
    Transition.Run (Network.step loginLib Exchange.sampleSodium ⟨[], {}⟩ Server.sampleMarket) Orderly
      sampleBlank n log ∧
    (books 1 0 log).getLast? = some msg ∧ msg.buyOrders.length = 1 ∧
    msg = listing 1 (n.exchange.server.market.restingOf 1) := by
  obtain ⟨⟨n, log⟩, hrun, hsample⟩ := Option.map_eq_some_iff.mp
    (by decide +kernel : (Transition.runEvents (step loginLib Exchange.sampleSodium ⟨[], {}⟩
      Server.sampleMarket) Orderly sampleBlank
        [.restart 0 0, .accept, .accept, .receive 1 ⟨⟨5, 0, none, 0⟩, 0, fun _ => 0⟩ "login",
          .update, .update, .receive 1 ⟨⟨6, 0, none, 0⟩, 0, fun _ => 0⟩ "bid", .engine 5, .engine 5,
          .engine 5]).map
        (fun r => ((books 1 0 r.2).getLast?.map fun msg => msg.buyOrders.length,
          r.1.connections[0]?)) = some (some 1, some {}))
  obtain ⟨hbooks, hconn⟩ := Prod.mk.inj hsample
  obtain ⟨msg, hlast, hlength⟩ := Option.map_eq_some_iff.mp hbooks
  have h := Transition.run_of_runEvents hrun
  exact ⟨n, log, msg, h, hlast, hlength, books_current Server.new_sampleMarket h hconn rfl hlast⟩

end Network

end ExchangeEngine
