import ExchangeEngine.Network.Refinement

/-!
# Who is told what

Wallet, trades and games of a user are told on those connections only that have sent the password of
the user, or a token that a login as the user was given; and tokens go to the first kind only.
-/

namespace ExchangeEngine

namespace Outgoing

/-- Is the frame about the market, or an error? -/
def OfMarket : Outgoing → Prop
  | .error _ => True
  | .market _ => True
  | .engineMode _ => True
  | .registered _ _ => False
  | .loggedIn _ _ _ => False
  | .userUpdate _ _ => False
  | .myTrades _ _ => False
  | .leaderboard _ => False
  | .game _ _ => False

lemma OfMarket.about {frame : Outgoing} (h : frame.OfMarket) : frame.about = none := by
  cases frame with
  | error message => rfl
  | market msg => rfl
  | engineMode mode => rfl
  | _ => exact h.elim

/-- What the frame tells of trades and ranks is true of the tables of `x`. -/
def Reads (x : Exchange) : Outgoing → Prop
  | .myTrades userId trades => trades = x.server.db.getUserTrades userId 50
  | .leaderboard entries => entries = x.server.db.getLeaderboard x.users 20
  | .error _ => True
  | .registered _ _ => True
  | .loggedIn _ _ _ => True
  | .userUpdate _ _ => True
  | .game _ _ => True
  | .market _ => True
  | .engineMode _ => True

lemma OfMarket.reads {x : Exchange} {frame : Outgoing} (h : frame.OfMarket) : frame.Reads x := by
  cases frame with
  | error message => trivial
  | market msg => trivial
  | engineMode mode => trivial
  | _ => exact h.elim

end Outgoing

namespace Network

variable {J : Type} {json : JsonLib J} {sodium : Sodium} {g : GameManager} {m : MarketState}
  {chance : Chance} {n n' : Network} {e : Event} {log log' : List Happening} {k : Nat} {u : Int}

/-- The connection has sent a text with the password of `u`. -/
def KnowsPassword (json : JsonLib J) (log : List Happening) (k : Nat) (u : Int) : Prop :=
  ∃ now raw msg password, .heard k now raw ∈ log ∧ json.parse raw = .ok msg ∧
    json.value msg "password" json.getString "" = .ok password ∧
    ⟨u, password⟩ ∈ Exchange.Entry.accounts (entries log)

/-- The connection has sent a text with a token that a login as `u` was given; of what it has sent
as a token, SQLite reads as much as comes before a zero. -/
def KnowsToken (json : JsonLib J) (log : List Happening) (k : Nat) (u : Int) : Prop :=
  ∃ now raw msg token, .heard k now raw ∈ log ∧ json.parse raw = .ok msg ∧
    Session.readToken json msg = .ok token ∧
    ∃ grant ∈ Exchange.Entry.grants (entries log), grant.token = bindText token ∧
      grant.userId = u

/-- What the connection has sent is of `u`. -/
def Identified (json : JsonLib J) (log : List Happening) (k : Nat) (u : Int) : Prop :=
  KnowsPassword json log k u ∨ KnowsToken json log k u

lemma KnowsPassword.append (h : KnowsPassword json log k u) (log' : List Happening) :
    KnowsPassword json (log ++ log') k u := by
  obtain ⟨now, raw, msg, password, hheard, hparse, hread, haccount⟩ := h
  refine ⟨now, raw, msg, password, List.mem_append_left _ hheard, hparse, hread, ?_⟩
  rw [entries_append, Exchange.Entry.accounts_append]
  exact List.mem_append_left _ haccount

lemma KnowsToken.append (h : KnowsToken json log k u) (log' : List Happening) :
    KnowsToken json (log ++ log') k u := by
  obtain ⟨now, raw, msg, token, hheard, hparse, hread, grant, hgrant, htoken, huser⟩ := h
  refine ⟨now, raw, msg, token, List.mem_append_left _ hheard, hparse, hread, grant, ?_, htoken,
    huser⟩
  rw [entries_append, Exchange.Entry.grants_append]
  exact List.mem_append_left _ hgrant

lemma Identified.append (h : Identified json log k u) (log' : List Happening) :
    Identified json (log ++ log') k u :=
  h.imp (fun h => h.append log') fun h => h.append log'

lemma password_of_readRegistration {msg : J} {username password role : String}
    (h : Exchange.readRegistration json msg = .ok (username, password, role)) :
    json.value msg "password" json.getString "" = .ok password := by
  obtain ⟨_, -, h⟩ := Except.bind_eq_ok h
  obtain ⟨password', hpassword, h⟩ := Except.bind_eq_ok h
  obtain ⟨_, -, h⟩ := Except.bind_eq_ok h
  obtain ⟨-, heq⟩ := Prod.mk.inj (Except.ok.inj h)
  obtain ⟨rfl, -⟩ := Prod.mk.inj heq
  exact hpassword

lemma password_of_readLogin {msg : J} {username password : String}
    (h : Exchange.readLogin json msg = .ok (username, password)) :
    json.value msg "password" json.getString "" = .ok password := by
  obtain ⟨_, -, h⟩ := Except.bind_eq_ok h
  obtain ⟨password', hpassword, h⟩ := Except.bind_eq_ok h
  obtain ⟨-, rfl⟩ := Prod.mk.inj (Except.ok.inj h)
  exact hpassword

/-! ### Frames -/

lemma market_broadcastFor {fuel : Nat} {s : Server} {task : EngineTask} {frames : List Outgoing}
    (h : broadcastFor fuel s task = some frames) : ∀ f ∈ frames, f.OfMarket := by
  obtain ⟨msgs, -, rfl⟩ := Option.map_eq_some_iff.mp h
  intro f hf
  rcases List.mem_append.mp hf with hf | hf
  · obtain ⟨msg, -, rfl⟩ := List.mem_map.mp hf
    trivial
  · cases task with
    | switchEngine mode =>
      rw [List.mem_singleton.mp hf]
      trivial
    | _ => exact absurd hf List.not_mem_nil

lemma market_replyFor {fuel : Nat} {s : Server} {task : EngineTask} {frames : List Outgoing}
    (h : replyFor fuel s task = some frames) : ∀ f ∈ frames, f.OfMarket := by
  intro f hf
  cases task with
  | order companyId order =>
    simp only [replyFor] at h
    cases hfind : s.market.findInstrument companyId with
    | none =>
      rw [hfind] at h
      obtain rfl := Option.some.inj h
      exact absurd hf List.not_mem_nil
    | some book =>
      simp only [hfind] at h
      split_ifs at h
      · obtain ⟨r, -, rfl⟩ := Option.map_eq_some_iff.mp h
        split_ifs at hf
        · rw [List.mem_singleton.mp hf]
          trivial
        · exact absurd hf List.not_mem_nil
      · obtain rfl := Option.some.inj h
        rw [List.mem_singleton.mp hf]
        trivial
  | snapshot companyId =>
    obtain ⟨msgs, -, rfl⟩ := Option.map_eq_some_iff.mp h
    obtain ⟨msg, -, rfl⟩ := List.mem_map.mp hf
    trivial
  | cancel companyId orderId userId =>
    obtain rfl := Option.some.inj h
    exact absurd hf List.not_mem_nil
  | switchEngine mode =>
    obtain rfl := Option.some.inj h
    exact absurd hf List.not_mem_nil

/-- What is sent for a task is about the market. -/
lemma market_framesFor {fuel : Nat} {s : Server} {task : EngineTask} {sender : Option Nat}
    {broadcast reply : List Outgoing} {conn : Connection}
    (hbroadcast : broadcastFor fuel s task = some broadcast)
    (hreply : replyFor fuel s task = some reply) :
    ∀ f ∈ framesFor sender broadcast reply k conn, f.OfMarket := by
  intro f hf
  rw [framesFor, List.mem_append] at hf
  rcases hf with hf | hf
  · split_ifs at hf
    · exact market_broadcastFor hbroadcast f hf
    · exact absurd hf List.not_mem_nil
  · split_ifs at hf
    · exact market_replyFor hreply f hf
    · exact absurd hf List.not_mem_nil

/-- A response that becomes a frame about `u` tells about `u`. -/
lemma tells_of_frameOf {x : Exchange} {v : Int} {response : Response} {f : Outgoing}
    (hf : f ∈ x.frameOf v response) (habout : f.about = some u) : response.Tells v u := by
  cases response with
  | error message =>
    rw [List.mem_singleton.mp hf] at habout
    cases habout
  | leaderboard =>
    rw [List.mem_singleton.mp hf] at habout
    cases habout
  | myTrades w =>
    rw [List.mem_singleton.mp hf] at habout
    exact (Option.some.inj habout).symm
  | userUpdate w => exact absurd hf List.not_mem_nil
  | game msg =>
    rw [List.mem_singleton.mp hf] at habout
    exact (Option.some.inj habout).symm

/-! ### Wallets on their way -/

/-- One of the two threads has got so far with a wallet. -/
def Pending (n : Network) (update : Update) : Prop :=
  n.io = some update ∨ ∃ round, n.round = some round ∧ round.update = some update

lemma not_pending {update : Update} (hio : n.io = none) (hround : n.round = none) :
    ¬ n.Pending update := by
  rintro (hsome | ⟨round, hsome, -⟩)
  · cases hio.symm.trans hsome
  · cases hround.symm.trans hsome

/-- A wallet on its way was on it before, or has just been read. -/
lemma Advances.pending {update : Update} {next : Option Update} {profile : UserProfile}
    (h : n.Advances update next log') (hnext : next = some (.read k u profile)) :
    .read k u profile ∈ log' := by
  cases h with
  | nobody => cases hnext
  | read hconn hsomebody =>
    obtain ⟨rfl, rfl, rfl⟩ := Update.read.inj (Option.some.inj hnext)
    exact List.mem_singleton_self _
  | sent => cases hnext

lemma Notifies.pending {profile : UserProfile} (h : n.Notifies e n' log')
    (hpending : n'.Pending (.read k u profile)) :
    n.Pending (.read k u profile) ∨ .read k u profile ∈ log' := by
  cases h with
  | update hio hadvances =>
    rcases hpending with hnext | hround
    · exact Or.inr (hadvances.pending hnext)
    · exact Or.inl (Or.inr hround)
  | begin i hround haffected =>
    rcases hpending with hio | ⟨round, heq, hupdate⟩
    · exact Or.inl (Or.inl hio)
    · obtain rfl := Option.some.inj heq
      cases hupdate
  | visit hround hnone hk =>
    rcases hpending with hio | ⟨round, heq, hupdate⟩
    · exact Or.inl (Or.inl hio)
    · obtain rfl := Option.some.inj heq
      simp only at hupdate
      split_ifs at hupdate
      cases hupdate
  | advance i hround hsome hadvances =>
    rcases hpending with hio | ⟨round, heq, hupdate⟩
    · exact Or.inl (Or.inl hio)
    · obtain rfl := Option.some.inj heq
      exact Or.inr (hadvances.pending hupdate)
  | finish i hround hnone hleft =>
    rcases hpending with hio | ⟨round, heq, hupdate⟩
    · exact Or.inl (Or.inl hio)
    · cases heq
  | wait => exact Or.inl hpending

/-- A wallet that is sent had been on its way. -/
lemma Notifies.sent {frame : Outgoing} (h : n.Notifies e n' log') (hsent : .sent k frame ∈ log') :
    ∃ userId profile, frame = .userUpdate userId profile ∧ n.Pending (.read k userId profile) := by
  have hadvance : ∀ {update : Update} {next : Option Update}, n.Advances update next log' →
      ∃ userId profile, frame = .userUpdate userId profile ∧ update = .read k userId profile := by
    intro update next hadvances
    cases hadvances with
    | nobody => cases hsent
    | read => cases List.mem_singleton.mp hsent
    | sent k' userId profile =>
      obtain ⟨rfl, rfl⟩ := Happening.sent.inj (List.mem_singleton.mp hsent)
      exact ⟨userId, profile, rfl, rfl⟩
  cases h with
  | update hio hadvances =>
    obtain ⟨userId, profile, hframe, rfl⟩ := hadvance hadvances
    exact ⟨userId, profile, hframe, Or.inl hio⟩
  | advance i hround hupdate hadvances =>
    obtain ⟨userId, profile, hframe, rfl⟩ := hadvance hadvances
    exact ⟨userId, profile, hframe, Or.inr ⟨_, hround, hupdate⟩⟩
  | _ => cases hsent

/-- **A wallet is read** for the user whom the connection is of then, as it is then. -/
lemma Notifies.read {profile : UserProfile} (h : n.Notifies e n' log')
    (hread : .read k u profile ∈ log') :
    (∃ conn, n.connections[k]? = some conn ∧ conn.currentUserId = u) ∧ u ≠ -1 ∧
      profile = n.exchange.server.db.getUserProfile u := by
  have hadvance : ∀ {update : Update} {next : Option Update}, n.Advances update next log' →
      (∃ conn, n.connections[k]? = some conn ∧ conn.currentUserId = u) ∧ u ≠ -1 ∧
        profile = n.exchange.server.db.getUserProfile u := by
    intro update next hadvances
    cases hadvances with
    | nobody => cases hread
    | read hconn hsomebody =>
      obtain ⟨rfl, rfl, rfl⟩ := Happening.read.inj (List.mem_singleton.mp hread)
      exact ⟨⟨_, hconn, rfl⟩, hsomebody, rfl⟩
    | sent => cases List.mem_singleton.mp hread
  cases h with
  | update _ hadvances => exact hadvance hadvances
  | advance _ _ _ hadvances => exact hadvance hadvances
  | _ => cases hread

/-- Connections belong to users whom they have named, and were told about nobody else. -/
structure Discreet (json : JsonLib J) (n : Network) (log : List Happening) : Prop where
  users : ∀ (k : Nat) (conn : Connection), n.connections[k]? = some conn →
    conn.currentUserId = -1 ∨ Identified json log k conn.currentUserId
  told : ∀ k frame u, .sent k frame ∈ log → frame.about = some u → Identified json log k u
  tokens : ∀ k token u username, .sent k (.loggedIn token u username) ∈ log →
    KnowsPassword json log k u
  pending : ∀ k u profile, n.Pending (.read k u profile) → Identified json log k u

lemma discreet_blank : Discreet json (blank m chance) [] where
  users k conn h := by cases h
  told _ _ _ h := absurd h List.not_mem_nil
  tokens _ _ _ _ h := absurd h List.not_mem_nil
  pending _ _ _ h := absurd h (not_pending rfl rfl)

/-- What has been said stays justified. -/
lemma Discreet.extend (h : Discreet json n log)
    (husers : ∀ (k : Nat) (conn : Connection), n'.connections[k]? = some conn →
      (∃ old, n.connections[k]? = some old ∧ old.currentUserId = conn.currentUserId) ∨
        conn.currentUserId = -1 ∨ Identified json (log ++ log') k conn.currentUserId)
    (htold : ∀ k frame u, .sent k frame ∈ log' → frame.about = some u →
      Identified json (log ++ log') k u)
    (htokens : ∀ k token u username, .sent k (.loggedIn token u username) ∈ log' →
      KnowsPassword json (log ++ log') k u)
    (hpending : ∀ k u profile, n'.Pending (.read k u profile) →
      n.Pending (.read k u profile) ∨ Identified json (log ++ log') k u) :
    Discreet json n' (log ++ log') where
  users k conn hconn := by
    rcases husers k conn hconn with ⟨old, hold, heq⟩ | hnew
    · rw [← heq]
      exact (h.users k old hold).imp id fun h => h.append _
    · exact hnew
  told k frame u hsent habout := by
    rcases List.mem_append.mp hsent with hsent | hsent
    · exact (h.told k frame u hsent habout).append _
    · exact htold k frame u hsent habout
  tokens k token u username hsent := by
    rcases List.mem_append.mp hsent with hsent | hsent
    · exact (h.tokens k token u username hsent).append _
    · exact htokens k token u username hsent
  pending k u profile hnow :=
    (hpending k u profile hnow).elim (fun hbefore => (h.pending k u profile hbefore).append _) id

/-- What happened sent nothing about anybody. -/
lemma Discreet.quiet (h : Discreet json n log)
    (husers : ∀ (k : Nat) (conn : Connection), n'.connections[k]? = some conn →
      (∃ old, n.connections[k]? = some old ∧ old.currentUserId = conn.currentUserId) ∨
        conn.currentUserId = -1)
    (hquiet : ∀ k frame, .sent k frame ∈ log' → frame.about = none)
    (hpending : ∀ update, n'.Pending update → n.Pending update) :
    Discreet json n' (log ++ log') := by
  refine h.extend (fun k conn hconn => (husers k conn hconn).imp id Or.inl) ?_ ?_
    fun k u profile hnow => Or.inl (hpending _ hnow)
  · intro k frame u hsent habout
    rw [hquiet k frame hsent] at habout
    cases habout
  · intro k token u username hsent
    cases hquiet k _ hsent

lemma sent_notMem_entries {frame : Outgoing} {α : Type} {f : α → Exchange.Entry} {l : List α} :
    Happening.sent k frame ∉ l.map fun a => .entry (f a) := by
  intro hmem
  obtain ⟨_, -, heq⟩ := List.mem_map.mp hmem
  cases heq

/-- A text is answered on its own connection. -/
lemma sent_mem_received {k' : Nat} {now : Int} {raw : String} {tasks : List EngineTask}
    {r : Reception} {frame : Outgoing} (h : .sent k' frame ∈ reception k now raw tasks r) :
    k' = k ∧ frame ∈ r.frames := by
  rcases List.mem_append.mp h with h | h
  · rcases List.mem_append.mp h with h | h
    · rcases List.mem_cons.mp h with h | h
      · cases h
      · obtain ⟨task, -, heq⟩ := List.mem_map.mp h
        cases heq
    · exact absurd h sent_notMem_entries
  · obtain ⟨frame', hmem, heq⟩ := List.mem_map.mp h
    obtain ⟨rfl, rfl⟩ := Happening.sent.inj heq
    exact ⟨rfl, hmem⟩

/-- The wallet is not among what a handler sends at once. -/
lemma userUpdate_notMem {env : Circumstances} {x : Exchange} {games : GameTables} {userId v : Int}
    {raw : String} {r : Reception} {profile : UserProfile}
    (h : Received json sodium g env x games userId raw r) : .userUpdate v profile ∉ r.frames := by
  intro hmem
  cases h with
  | stayed hframes =>
    obtain ⟨message, heq⟩ := hframes _ hmem
    cases heq
  | registered => cases List.mem_singleton.mp hmem
  | loggedIn => cases List.mem_singleton.mp hmem
  | served =>
    obtain ⟨response, -, hmem⟩ := List.mem_flatMap.mp hmem
    cases response with
    | userUpdate w => cases hmem
    | _ => cases List.mem_singleton.mp hmem

/-- **What is sent** is read from the tables as they are then. -/
lemma reads_of_sent {frame : Outgoing} (hstep : step json sodium g m n e = some (n', log'))
    (hsent : .sent k frame ∈ log') : frame.Reads n'.exchange := by
  cases step_steps hstep with
  | accept => cases List.mem_singleton.mp hsent
  | leave => cases hsent
  | receive _ _ hreceived =>
    obtain ⟨-, hframe⟩ := sent_mem_received hsent
    cases hreceived with
    | stayed hframes =>
      obtain ⟨message, rfl⟩ := hframes _ hframe
      trivial
    | registered =>
      rw [List.mem_singleton.mp hframe]
      trivial
    | loggedIn =>
      rw [List.mem_singleton.mp hframe]
      trivial
    | served =>
      obtain ⟨response, -, hframe⟩ := List.mem_flatMap.mp hframe
      cases response with
      | userUpdate w => exact absurd hframe List.not_mem_nil
      | error message => rw [List.mem_singleton.mp hframe]; trivial
      | leaderboard => rw [List.mem_singleton.mp hframe]; exact rfl
      | myTrades w => rw [List.mem_singleton.mp hframe]; exact rfl
      | game msg => rw [List.mem_singleton.mp hframe]; trivial
  | idle => cases hsent
  | task _ _ hbroadcast hreply =>
    rcases List.mem_append.mp hsent with hsent | hsent
    · exact absurd hsent sent_notMem_entries
    · obtain ⟨conn, -, hframe⟩ := sent_mem_deliver.mp hsent
      exact (market_framesFor hbroadcast hreply frame hframe).reads
  | settle => cases hsent
  | notified hnotifies =>
    obtain ⟨userId, profile, rfl, -⟩ := hnotifies.sent hsent
    trivial
  | restart => exact absurd hsent (sent_notMem_entries (f := fun e => e))

/-- Only the connection itself goes over to a user. -/
lemma user_of_set {conn conn' : Connection} {k' : Nat} {userId : Int}
    (h : (n.connections.set k { conn with currentUserId := userId })[k']? = some conn') :
    n.connections[k']? = some conn' ∨ k' = k ∧ conn'.currentUserId = userId := by
  rw [List.getElem?_set] at h
  split_ifs at h with hk hlt
  · subst hk
    exact Or.inr ⟨rfl, by rw [← Option.some.inj h]⟩
  · exact Or.inl h

/-- A text is answered as it may be. -/
lemma Discreet.answered {now : Int} {raw : String} {conn : Connection} {tasks : List EngineTask}
    {r : Reception} (h : Discreet json n log) (hlog' : log' = reception k now raw tasks r)
    (hn' : n'.connections = n.connections.set k { conn with currentUserId := r.currentUserId })
    (hpending : ∀ k u profile, n'.Pending (.read k u profile) → n.Pending (.read k u profile))
    (huser : r.currentUserId = -1 ∨ Identified json (log ++ log') k r.currentUserId)
    (htold : ∀ frame ∈ r.frames, ∀ u, frame.about = some u → Identified json (log ++ log') k u)
    (htokens : ∀ token u username, .loggedIn token u username ∈ r.frames →
      KnowsPassword json (log ++ log') k u) : Discreet json n' (log ++ log') := by
  refine h.extend ?_ ?_ ?_ fun k u profile hnow => Or.inl (hpending k u profile hnow)
  · intro k' conn' hconn'
    rw [hn'] at hconn'
    rcases user_of_set hconn' with hold | ⟨rfl, heq⟩
    · exact Or.inl ⟨conn', hold, rfl⟩
    · rw [heq]
      exact Or.inr huser
  · intro k' frame u hsent habout
    rw [hlog'] at hsent
    obtain ⟨rfl, hframe⟩ := sent_mem_received hsent
    exact htold frame hframe u habout
  · intro k' token u username hsent
    rw [hlog'] at hsent
    obtain ⟨rfl, hframe⟩ := sent_mem_received hsent
    exact htokens token u username hframe

/-- A token that is valid was granted. -/
lemma knowsToken_of_shows {env : Surroundings} {raw : String} {msg : J} {v : Int}
    (hrun : Exchange.Run sodium m Exchange.Whole (.blank m chance) n.exchange (entries log))
    (hheard : .heard k env.now raw ∈ log') (hparse : json.parse raw = .ok msg)
    (h : Session.Shows json env msg ⟨n.exchange.server, n.games, v⟩ u) :
    KnowsToken json (log ++ log') k u := by
  obtain ⟨token, hread, hauth⟩ := h
  obtain ⟨grant, hfind, -, huser⟩ := hrun.validateSession_iff.mp hauth
  refine ⟨env.now, raw, msg, token, List.mem_append_right _ hheard, hparse, hread, grant, ?_,
    by simpa using List.find?_some hfind, huser⟩
  rw [entries_append, Exchange.Entry.grants_append]
  exact List.mem_append_left _ (List.mem_of_find?_eq_some hfind)

/-- **A text** is answered discreetly. -/
lemma Discreet.receive {env : Circumstances} {raw : String} {conn : Connection} {r : Reception}
    (hsodium : sodium.Distinguishes (Exchange.Entry.passwords (entries log ++ r.log)))
    (hrun : Exchange.Run sodium m Exchange.Whole (.blank m chance) n.exchange (entries log))
    (h : Discreet json n log) (hconn : n.connections[k]? = some conn)
    (hreceived : Received json sodium g env n.exchange n.games conn.currentUserId raw r)
    (hn' : n'.connections = n.connections.set k { conn with currentUserId := r.currentUserId })
    (hpending : ∀ k u profile, n'.Pending (.read k u profile) → n.Pending (.read k u profile))
    (tasks : List EngineTask) : Discreet json n' (log ++ reception k env.now raw tasks r) := by
  have hrun' : Exchange.Run sodium m Exchange.Whole (.blank m chance) r.exchange
    (entries log ++ r.log) := hrun.trans (run_of_received hreceived)
  generalize hlog' : reception k env.now raw tasks r = log'
  have hheard : Happening.heard k env.now raw ∈ log' := by
    rw [← hlog']
    exact List.mem_append_left _ (List.mem_append_left _ List.mem_cons_self)
  have hentries : entries (log ++ log') = entries log ++ r.log := by
    rw [← hlog', entries_append, entries_received]
  have hkept : conn.currentUserId = -1 ∨ Identified json (log ++ log') k conn.currentUserId :=
    (h.users k conn hconn).imp id fun h => h.append log'
  cases hreceived with
  | stayed hframes =>
    refine h.answered hlog'.symm hn' hpending hkept ?_ ?_
    · intro frame hframe u habout
      obtain ⟨message, rfl⟩ := hframes frame hframe
      cases habout
    · intro token u username hframe
      obtain ⟨message, heq⟩ := hframes _ hframe
      cases heq
  | @registered msg username password role x' id hparse hread hregister =>
    have hknows : KnowsPassword json (log ++ log') k id := by
      refine ⟨_, raw, msg, password, List.mem_append_right _ hheard, hparse,
        password_of_readRegistration hread, ?_⟩
      rw [hentries, Exchange.Entry.accounts_append]
      exact List.mem_append_right _ (List.mem_singleton_self _)
    refine h.answered hlog'.symm hn' hpending (Or.inr (Or.inl hknows)) ?_ ?_
    · intro frame hframe u habout
      rw [List.mem_singleton.mp hframe] at habout
      obtain rfl := Option.some.inj habout
      exact Or.inl hknows
    · intro token u name hframe
      cases List.mem_singleton.mp hframe
  | @loggedIn msg username password token x' id hparse hread hlogin =>
    have hgrant : ⟨token, id, env.now, password⟩ ∈ Exchange.Entry.grants
        (entries log ++ [.granted ⟨token, id, env.now, password⟩]) := by
      rw [Exchange.Entry.grants_append]
      exact List.mem_append_right _ (List.mem_singleton_self _)
    have hknows : KnowsPassword json (log ++ log') k id :=
      ⟨_, raw, msg, password, List.mem_append_right _ hheard, hparse, password_of_readLogin hread,
        hentries ▸ Exchange.Run.password hsodium hrun' hgrant⟩
    refine h.answered hlog'.symm hn' hpending (Or.inr (Or.inl hknows)) ?_ ?_
    · intro frame hframe u habout
      rw [List.mem_singleton.mp hframe] at habout
      obtain rfl := Option.some.inj habout
      exact Or.inl hknows
    · intro token' u name hframe
      obtain ⟨-, rfl, -⟩ := Outgoing.loggedIn.inj (List.mem_singleton.mp hframe)
      exact hknows
  | @served msg c' sent hparse hserved =>
    have hshows : ∀ {v : Int}, Session.Shows json env.toSurroundings msg
        ⟨n.exchange.server, n.games, conn.currentUserId⟩ v → KnowsToken json (log ++ log') k v :=
      fun hv => knowsToken_of_shows hrun hheard hparse hv
    have huser : c'.currentUserId = -1 ∨ Identified json (log ++ log') k c'.currentUserId := by
      rcases hserved.user with hold | hnew
      · have hold : c'.currentUserId = conn.currentUserId := hold
        rw [hold]
        exact hkept
      · exact Or.inr (Or.inr (hshows hnew))
    refine h.answered hlog'.symm hn' hpending huser ?_ ?_
    · intro frame hframe u habout
      obtain ⟨response, hresponse, hframe⟩ := List.mem_flatMap.mp hframe
      obtain ⟨rfl, hallowed⟩ := hserved.sent response hresponse u (tells_of_frameOf hframe habout)
      rcases hallowed with hsomebody | hshown
      · exact huser.resolve_left hsomebody
      · exact Or.inr (hshows hshown)
    · intro token u name hframe
      obtain ⟨response, -, hframe⟩ := List.mem_flatMap.mp hframe
      cases response with
      | userUpdate w => exact absurd hframe List.not_mem_nil
      | _ => cases List.mem_singleton.mp hframe

/-- **One event** keeps the network discreet. -/
theorem Discreet.step
    (hsodium : sodium.Distinguishes (Exchange.Entry.passwords (entries (log ++ log'))))
    (hrun : Exchange.Run sodium m Exchange.Whole (.blank m chance) n.exchange (entries log))
    (h : Discreet json n log) (hstep : Network.step json sodium g m n e = some (n', log')) :
    Discreet json n' (log ++ log') := by
  cases step_steps hstep with
  | accept =>
    refine h.quiet ?_ (fun _ _ hsent => by cases List.mem_singleton.mp hsent) fun _ hnow => hnow
    intro k conn hconn
    rw [List.getElem?_append] at hconn
    split_ifs at hconn
    · exact Or.inl ⟨conn, hconn, rfl⟩
    · rw [List.mem_singleton.mp (List.mem_of_getElem? hconn)]
      exact Or.inr rfl
  | leave k' =>
    refine h.quiet ?_ (fun _ _ hsent => absurd hsent List.not_mem_nil) fun _ hnow => hnow
    intro k conn hconn
    rw [List.getElem?_modify] at hconn
    obtain ⟨old, hold, rfl⟩ := Option.map_eq_some_iff.mp hconn
    refine Or.inl ⟨old, hold, ?_⟩
    split_ifs <;> rfl
  | receive hio hconn hreceived =>
    rw [entries_append, entries_received] at hsodium
    refine h.receive hsodium hrun hconn hreceived rfl ?_ _
    rintro k u profile (hnext | hround)
    · simp only at hnext
      split_ifs at hnext
      cases hnext
    · exact Or.inr hround
  | idle =>
    rw [List.append_nil]
    exact h
  | task _ _ hbroadcast hreply =>
    refine h.quiet (fun k conn hconn => Or.inl ⟨conn, hconn, rfl⟩) ?_ fun _ hnow => hnow
    intro k frame hsent
    rcases List.mem_append.mp hsent with hsent | hsent
    · exact absurd hsent sent_notMem_entries
    · obtain ⟨conn, -, hframe⟩ := sent_mem_deliver.mp hsent
      exact (market_framesFor hbroadcast hreply frame hframe).about
  | settle =>
    exact h.quiet (fun k conn hconn => Or.inl ⟨conn, hconn, rfl⟩)
      (fun _ _ hsent => absurd hsent List.not_mem_nil) fun _ hnow => hnow
  | notified hnotifies =>
    obtain ⟨-, -, hconnections, -⟩ := hnotifies.same
    refine h.extend (fun k conn hconn => Or.inl ⟨conn, hconnections ▸ hconn, rfl⟩) ?_ ?_ ?_
    · intro k frame u hsent habout
      obtain ⟨userId, profile, rfl, hpending⟩ := hnotifies.sent hsent
      obtain rfl := Option.some.inj habout
      exact (h.pending k userId profile hpending).append _
    · intro k token u username hsent
      obtain ⟨_, _, heq, -⟩ := hnotifies.sent hsent
      cases heq
    · intro k u profile hnow
      refine (hnotifies.pending hnow).imp id fun hread => ?_
      obtain ⟨⟨conn, hconn, rfl⟩, hsomebody, -⟩ := hnotifies.read hread
      exact ((h.users k conn hconn).resolve_left hsomebody).append _
  | restart =>
    refine h.quiet ?_ (fun k frame hsent => absurd hsent (sent_notMem_entries (f := fun e => e)))
      fun _ hnow => absurd hnow (not_pending rfl rfl)
    intro k conn hconn
    obtain ⟨old, hold, rfl⟩ := Option.map_eq_some_iff.mp (List.getElem?_map ▸ hconn)
    exact Or.inl ⟨old, hold, rfl⟩

/-- **Who is told what**, in every run on an empty database: a connection that is told about the
wallet, the trades or a game of a user has sent the password of the user, or a token that a login as
the user was given; and one that is given a token has sent the password. -/
theorem confidential (hsodium : sodium.Distinguishes (Exchange.Entry.passwords (entries log)))
    (h : Run json sodium g m (blank m chance) n log) :
    (∀ k frame u, .sent k frame ∈ log → frame.about = some u →
      KnowsPassword json log k u ∨ KnowsToken json log k u) ∧
    ∀ k token u username, .sent k (.loggedIn token u username) ∈ log →
      KnowsPassword json log k u := by
  have hdiscreet : Run json sodium g m (blank m chance) n log ∧
      (sodium.Distinguishes (Exchange.Entry.passwords (entries log)) → Discreet json n log) := by
    refine h.invariant (P := fun n log => Run json sodium g m (blank m chance) n log ∧
      (sodium.Distinguishes (Exchange.Entry.passwords (entries log)) → Discreet json n log))
      ⟨.refl, fun _ => discreet_blank⟩ ?_
    intro n n' e log log' ⟨hrun, ih⟩ _ hstep
    refine ⟨hrun.step trivial hstep, fun hsodium => ?_⟩
    rw [entries_append] at hsodium
    exact (ih hsodium.left).step (entries_append log log' ▸ hsodium) (Run.exchange hrun) hstep
  exact ⟨(hdiscreet.2 hsodium).told, (hdiscreet.2 hsodium).tokens⟩

/-- Is it a token for `u`, sent on the connection? -/
def handsOut (k : Nat) (u : Int) : Happening → Bool
  | .sent k' (.loggedIn _ v _) => k' = k ∧ v = u
  | _ => false

lemma sent_of_handsOut {x : Happening} (h : handsOut k u x = true) :
    ∃ token username, x = .sent k (.loggedIn token u username) := by
  cases x with
  | sent k' frame =>
    cases frame with
    | loggedIn token v username =>
      obtain ⟨rfl, rfl⟩ : k' = k ∧ v = u := by simpa [handsOut] using h
      exact ⟨token, username, rfl⟩
    | _ => cases h
  | _ => cases h

theorem confidential_sampleSession : ∃ n log,
    Run loginLib Exchange.sampleSodium ⟨[], {}⟩ Server.sampleMarket sampleBlank n log ∧
    (∃ token username, .sent 0 (.loggedIn token 1 username) ∈ log) ∧
    KnowsPassword loginLib log 0 1 := by
  obtain ⟨⟨n, log⟩, hrun, hout⟩ := Option.map_eq_some_iff.mp
    (by decide +kernel : (Transition.runEvents (step loginLib Exchange.sampleSodium ⟨[], {}⟩
      Server.sampleMarket) (fun _ _ => True) sampleBlank sampleSession).map
        (fun r => (r.2.any (handsOut 0 1), Exchange.Entry.passwords (entries r.2)))
          = some (true, ["pass123", "pass123", "pass123"]))
  obtain ⟨hsent, hpasswords⟩ := Prod.mk.inj hout
  have h := Transition.run_of_runEvents hrun
  obtain ⟨x, hx, hlogin⟩ := List.any_eq_true.mp hsent
  obtain ⟨token, username, rfl⟩ := sent_of_handsOut hlogin
  exact ⟨n, log, h, ⟨token, username, hx⟩,
    (confidential (Exchange.sampleSodium_distinguishes (hpasswords ▸ by decide +kernel)) h).2 0
      token 1 username hx⟩

end Network

end ExchangeEngine
