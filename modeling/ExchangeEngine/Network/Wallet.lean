import ExchangeEngine.Accounts.Supply
import ExchangeEngine.Network.Told

/-!
# The wallet that a client sees

A `user_update` is sent when a batch has touched the wallet, not when an order reserves something.
So the last wallet that was read for a connection is off by what has been reserved since, and by
nothing else: unless another one is due, no credit is missing. It is the last one that the
connection is sent, but for those that had been read before and were still on their way on the other
thread.
-/

namespace ExchangeEngine

/-! ### Batches -/

lemma Asset.credit_eq_zero {a : Asset} {u : Int} {t : DbTask} (h : u ∉ t.users) :
    a.credit u t = 0 := by
  simp only [DbTask.users] at h
  cases htype : t.type with
  | settle =>
    rw [htype] at h
    simp only [List.mem_cons, List.not_mem_nil, or_false, not_or] at h
    cases a <;> simp [credit, htype, h.1, h.2]
  | refundCash =>
    rw [htype] at h
    simp only [List.mem_singleton] at h
    cases a <;> simp [credit, htype, h]
  | refundShares =>
    rw [htype] at h
    simp only [List.mem_singleton] at h
    cases a <;> simp [credit, htype, h]
  | logTrade => cases a <;> simp [credit, htype]

lemma mem_affectedUsers {u : Int} {tasks : List DbTask} :
    u ∈ affectedUsers tasks ↔ ∃ t ∈ tasks, u ∈ t.users := by
  rw [affectedUsers, List.mem_insertionSort, List.mem_dedup, List.mem_flatMap]

/-- A batch leaves the others alone. -/
lemma balance_batch_of_notMem {a : Asset} {db : Database} {u : Int} {tasks : List DbTask}
    (hu : db.Registered u) (h : u ∉ affectedUsers tasks) :
    a.balance (tasks.foldl applyTask db) u = a.balance db u := by
  rw [Asset.balance_batch hu, Asset.credits, List.sum_eq_zero, add_zero]
  intro x hx
  obtain ⟨t, ht, rfl⟩ := List.mem_map.mp hx
  exact Asset.credit_eq_zero fun hmem => h (mem_affectedUsers.mpr ⟨t, ht, hmem⟩)

/-! ### Reservations -/

namespace Network

open Server (Handled)

variable {J : Type} {json : JsonLib J} {sodium : Sodium} {g : GameManager} {m : MarketState}
  {chance : Chance} {n n' n₀ : Network} {e : Event} {log log' : List Happening} {k : Nat} {u : Int}
  {a : Asset} {x : Exchange} {s s' : Server}

/-- What the tasks that are queued on the way reserve of a user's. -/
def reserved (a : Asset) (u : Int) (log : List Happening) : Int :=
  ((queuedTasks log).map fun x => x.1.reserved a u).sum

lemma reserved_append : reserved a u (log ++ log') = reserved a u log + reserved a u log' := by
  simp [reserved]

lemma reserved_eq_zero (h : queuedTasks log = []) : reserved a u log = 0 := by
  rw [reserved, h]
  rfl

lemma newTasks_self (s : Server) : newTasks s s = [] := List.drop_length

lemma queue_newTasks {now : Int} {msg : Server.Message} (h : Handled now s msg s') :
    s'.engineQueue = s.engineQueue ++ newTasks s s' ∧ s'.dbQueueFront = s.dbQueueFront ∧
      s'.dbQueueBack = s.dbQueueBack := by
  cases h <;> exact ⟨by simp [newTasks, Server.enqueueOrderTask, Server.push], rfl, rfl⟩

/-- **A message** moves what its order reserves out of the wallet. -/
lemma balance_message {now : Int} {msg : Server.Message} (hu : 0 ≤ u)
    (hstep : s.step (.message now msg) = some (s', [], [])) :
    a.balance s.db u
      = a.balance s'.db u + ((newTasks s s').map (EngineTask.reserved a u)).sum := by
  cases Server.step_steps hstep with
  | rejected =>
    rw [newTasks_self]
    exact (add_zero _).symm
  | handled hmsg =>
    have hwealth := hmsg.wealth_eq (a := a) fun _ _ => hu
    obtain ⟨hqueue, hfront, hback⟩ := queue_newTasks hmsg
    simp only [Server.wealth, Server.live, Server.pending, hqueue, hfront, hback, hmsg.market,
      List.map_append, List.sum_append] at hwealth
    linarith only [hwealth]

/-- **A text** leaves the wallets alone, but for what is reserved. -/
lemma balance_received {env : Circumstances} {games : GameTables} {userId : Int} {raw : String}
    {r : Reception} (hsound : x.Sound) (hu : u ∈ x.users.ids)
    (h : Received json sodium g env x games userId raw r) :
    a.balance x.server.db u = a.balance r.exchange.server.db u
      + ((newTasks x.server r.exchange.server).map (EngineTask.reserved a u)).sum := by
  have hnone : ∀ {db : Database}, newTasks x.server { x.server with db := db } = [] :=
    List.drop_length
  cases h with
  | stayed =>
    have hstay : newTasks x.server x.server = [] := newTasks_self _
    simp [Exchange.stay, hstay]
  | registered _ _ hregister =>
    obtain ⟨row, users, -, hadded, -, rfl⟩ := Exchange.handleRegister_eq_ok hregister
    have hne : u ≠ row.id := fun heq => hsound.toKept.id_notMem hadded (heq ▸ hu)
    rw [hnone, balance_grantAll _ (not_registered_of_added hsound.toKept hadded), if_neg hne]
    simp
  | loggedIn _ _ hlogin =>
    obtain ⟨row, -, -, -, -, rfl⟩ := Exchange.handleLogin_eq_ok hlogin
    rw [hnone, balance_createSess]
    exact (add_zero _).symm
  | served _ hserved =>
    rcases hserved.server with hsame | ⟨message, hstep, -⟩
    · have hsame : _ = x.server := hsame
      rw [hsame, newTasks_self]
      exact (add_zero _).symm
    · exact balance_message (hsound.pos u hu).le hstep

/-! ### Users of connections -/

/-- The accounts are sound, and connections are of users. -/
structure Peopled (n : Network) : Prop where
  sound : n.exchange.Sound
  users : ∀ (k : Nat) (conn : Connection), n.connections[k]? = some conn →
    conn.currentUserId = -1 ∨ conn.currentUserId ∈ n.exchange.users.ids

/-- Connections stay with their users, or go over to another one. -/
lemma Peopled.extend (h : n.Peopled) (hrun : Exchange.Run sodium m Exchange.Whole n.exchange
      n'.exchange (entries log))
    (husers : ∀ (k : Nat) (conn : Connection), n'.connections[k]? = some conn →
      (∃ old, n.connections[k]? = some old ∧ old.currentUserId = conn.currentUserId) ∨
        conn.currentUserId = -1 ∨ conn.currentUserId ∈ n'.exchange.users.ids) : n'.Peopled where
  sound := Exchange.Run.sound h.sound hrun
  users k conn hconn := by
    rcases husers k conn hconn with ⟨old, hold, heq⟩ | hnew
    · rw [← heq]
      exact (h.users k old hold).imp id fun hmem => Exchange.Run.ids_subset h.sound.toKept hrun hmem
    · exact hnew

lemma user_received {env : Circumstances} {games : GameTables} {userId : Int} {raw : String}
    {r : Reception} (hsound : x.Sound) (h : Received json sodium g env x games userId raw r) :
    r.currentUserId = userId ∨ r.currentUserId ∈ r.exchange.users.ids := by
  cases h with
  | stayed => exact Or.inl rfl
  | registered _ _ hregister =>
    obtain ⟨row, users, -, hadded, rfl, rfl⟩ := Exchange.handleRegister_eq_ok hregister
    exact Or.inr (mem_ids_of_added hadded)
  | loggedIn _ _ hlogin =>
    obtain ⟨row, hrow, -, rfl, -, rfl⟩ := Exchange.handleLogin_eq_ok hlogin
    exact Or.inr (Users.id_mem_of_named hrow)
  | served _ hserved =>
    rcases hserved.user with hsame | ⟨token, -, hauth⟩
    · exact Or.inl hsame
    · obtain ⟨row, hrow, -, huser⟩ := Exchange.validateSession_eq_ok_iff.mp hauth
      exact Or.inr (huser ▸ hsound.sessions _ row hrow)

/-- **One event** keeps the network peopled. -/
lemma Peopled.step (h : n.Peopled) (hstep : Network.step json sodium g m n e = some (n', log)) :
    n'.Peopled := by
  have hrun := exchange_step hstep
  refine h.extend hrun fun k conn hconn => ?_
  cases step_steps hstep with
  | accept =>
    rw [List.getElem?_append] at hconn
    split_ifs at hconn
    · exact Or.inl ⟨conn, hconn, rfl⟩
    · rw [List.mem_singleton.mp (List.mem_of_getElem? hconn)]
      exact Or.inr (Or.inl rfl)
  | leave k' =>
    rw [List.getElem?_modify] at hconn
    obtain ⟨old, hold, rfl⟩ := Option.map_eq_some_iff.mp hconn
    refine Or.inl ⟨old, hold, ?_⟩
    split_ifs <;> rfl
  | @receive k' env raw conn₀ r tasks _ hconn₀ hreceived =>
    rcases user_of_set hconn with hold | ⟨rfl, huser⟩
    · exact Or.inl ⟨conn, hold, rfl⟩
    · rcases user_received h.sound hreceived with hsame | hmem
      · exact Or.inl ⟨conn₀, hconn₀, by rw [huser, hsame]⟩
      · exact Or.inr (Or.inr (huser ▸ hmem))
  | restart =>
    obtain ⟨old, hold, rfl⟩ := Option.map_eq_some_iff.mp (List.getElem?_map ▸ hconn)
    exact Or.inl ⟨old, hold, rfl⟩
  | notified hnotifies => exact Or.inl ⟨conn, hnotifies.same.2.2.1 ▸ hconn, rfl⟩
  | _ => exact Or.inl ⟨conn, hconn, rfl⟩

/-- The connection is in the registry, as `u`. -/
def Serving (k : Nat) (u : Int) (n : Network) : Prop :=
  ∃ conn, n.connections[k]? = some conn ∧ conn.registered = true ∧ conn.currentUserId = u

lemma not_serving_restarted {x : Exchange} {senders : List (Option Nat)} :
    ¬ Serving k u ⟨x, n.games, n.connections.map fun conn =>
      { conn with registered := false, reading := false }, senders, none, [], none⟩ := by
  rintro ⟨conn, hconn, hregistered, -⟩
  obtain ⟨old, -, rfl⟩ := Option.map_eq_some_iff.mp (List.getElem?_map ▸ hconn)
  cases hregistered

/-- The wallet of `u` will be read again for the connection. -/
def Due (k : Nat) (u : Int) (n : Network) : Prop :=
  u ∈ n.affected ∨ (∃ round, n.round = some round ∧ round.userId = u ∧ k ∈ round.left) ∨
    n.Pending (.asked k)

/-- What was due is, or has been done. -/
lemma Due.notified (h : Due k u n) (hu : u ≠ -1) (hserving : Serving k u n)
    (hnotifies : n.Notifies e n' log') : Due k u n' ∨ ∃ profile, .read k u profile ∈ log' := by
  obtain ⟨conn, hconn, hregistered, huser⟩ := hserving
  have hadvance : ∀ {next : Option Update}, n.Advances (.asked k) next log' →
      ∃ profile, .read k u profile ∈ log' := by
    intro next hadvances
    cases hadvances with
    | nobody hnobody => exact absurd (huser.symm.trans (hnobody conn hconn)) hu
    | read hconn' =>
      obtain rfl := Option.some.inj (hconn.symm.trans hconn')
      subst huser
      exact ⟨_, List.mem_singleton_self _⟩
  cases hnotifies with
  | update hio hadvances =>
    rcases h with hmem | hround | hasked | hround
    · exact Or.inl (Or.inl hmem)
    · exact Or.inl (Or.inr (Or.inl hround))
    · obtain rfl := Option.some.inj (hio.symm.trans hasked)
      exact Or.inr (hadvance hadvances)
    · exact Or.inl (Or.inr (Or.inr (Or.inr hround)))
  | begin i hround haffected =>
    rcases h with hmem | ⟨round, hsome, -⟩ | hasked | ⟨round, hsome, -⟩
    · rw [haffected] at hmem
      rcases List.mem_cons.mp hmem with rfl | hmem
      · have hk : k ∈ n.sessions := by
          rw [sessions, List.mem_filter, List.mem_range, hconn]
          exact ⟨(List.getElem?_eq_some_iff.mp hconn).1, hregistered⟩
        exact Or.inl (Or.inr (Or.inl ⟨_, rfl, rfl, hk⟩))
      · exact Or.inl (Or.inl hmem)
    · cases hround.symm.trans hsome
    · exact Or.inl (Or.inr (Or.inr (Or.inl hasked)))
    · cases hround.symm.trans hsome
  | @visit i k' round hround hupdate hk' =>
    rcases h with hmem | ⟨round', hsome, rfl, hk⟩ | hasked | ⟨round', hsome, hasked⟩
    · exact Or.inl (Or.inl hmem)
    · obtain rfl := Option.some.inj (hround.symm.trans hsome)
      by_cases heq : k' = k
      · subst heq
        have hvisited : n.userOf k' = some round.userId := by
          rw [userOf, hconn, Option.map_some, huser]
        exact Or.inl (Or.inr (Or.inr (Or.inr ⟨_, rfl, if_pos hvisited⟩)))
      · obtain ⟨j, hj⟩ := List.mem_iff_getElem?.mp hk
        have hne : j ≠ i := fun hji => heq (Option.some.inj (hk'.symm.trans (hji ▸ hj)))
        exact Or.inl (Or.inr (Or.inl
          ⟨_, rfl, rfl, List.mem_eraseIdx_iff_getElem?.mpr ⟨j, hne, hj⟩⟩))
    · exact Or.inl (Or.inr (Or.inr (Or.inl hasked)))
    · obtain rfl := Option.some.inj (hround.symm.trans hsome)
      cases hupdate.symm.trans hasked
  | @advance i round update next _ hround hupdate hadvances =>
    rcases h with hmem | ⟨round', hsome, hdue⟩ | hasked | ⟨round', hsome, hasked⟩
    · exact Or.inl (Or.inl hmem)
    · obtain rfl := Option.some.inj (hround.symm.trans hsome)
      exact Or.inl (Or.inr (Or.inl ⟨_, rfl, hdue⟩))
    · exact Or.inl (Or.inr (Or.inr (Or.inl hasked)))
    · obtain rfl := Option.some.inj (hround.symm.trans hsome)
      obtain rfl := Option.some.inj (hupdate.symm.trans hasked)
      exact Or.inr (hadvance hadvances)
  | finish i hround hupdate hleft =>
    rcases h with hmem | ⟨round', hsome, -, hk⟩ | hasked | ⟨round', hsome, hasked⟩
    · exact Or.inl (Or.inl hmem)
    · obtain rfl := Option.some.inj (hround.symm.trans hsome)
      rw [hleft] at hk
      cases hk
    · exact Or.inl (Or.inr (Or.inr (Or.inl hasked)))
    · obtain rfl := Option.some.inj (hround.symm.trans hsome)
      cases hupdate.symm.trans hasked
  | wait => exact Or.inl h

/-- What is known of a wallet that has been read: how it has changed, or that another one will be
read or has been. -/
def Tracks (k : Nat) (u : Int) (db : Database) (n : Network) (log : List Happening) : Prop :=
  (∀ a : Asset, a.balance db u = a.balance n.exchange.server.db u + reserved a u log) ∨
    Due k u n ∨ ∃ profile, .read k u profile ∈ log

/-- **One event** is kept track of, while the connection is in the registry. -/
lemma Tracks.step {db : Database} (hpeopled : n.Peopled) (hu : u ∈ n.exchange.users.ids)
    (hserving : Serving k u n) (h : Tracks k u db n log)
    (hstep : Network.step json sodium g m n e = some (n', log')) (hserving' : Serving k u n') :
    Tracks k u db n' (log ++ log') := by
  have hreg : n.exchange.server.db.Registered u := (hpeopled.sound.wallets u).mpr hu
  rcases h with hbalance | hdue | ⟨profile, hread⟩
  · have hsame : (∀ a : Asset, a.balance n.exchange.server.db u
        = a.balance n'.exchange.server.db u + reserved a u log') →
        Tracks k u db n' (log ++ log') := by
      intro hkept
      refine Or.inl fun a => ?_
      rw [hbalance a, hkept a, reserved_append]
      ring
    cases step_steps hstep with
    | accept _ _ htask =>
      subst htask
      exact hsame fun a => (add_zero _).symm
    | leave => exact hsame fun a => (add_zero _).symm
    | receive _ _ hreceived htasks =>
      refine hsame fun a => ?_
      rw [reserved, queuedTasks_reception, List.map_map, htasks]
      exact balance_received hpeopled.sound hu hreceived
    | idle => exact hsame fun a => (add_zero _).symm
    | task hqueue hserver =>
      refine hsame fun a => ?_
      rw [reserved_eq_zero (by simp)]
      cases Server.step_steps hserver with
      | idle => exact (add_zero _).symm
      | task => exact (add_zero _).symm
    | settle =>
      by_cases hmem : u ∈ affectedUsers n.exchange.server.dbQueueBack
      · exact Or.inr (Or.inl (Or.inl hmem))
      · refine hsame fun a => ?_
        simp only [Server.dbStep]
        split_ifs
        · exact (add_zero _).symm
        · rw [balance_batch_of_notMem hreg hmem]
          exact (add_zero _).symm
    | notified hnotifies =>
      refine hsame fun a => ?_
      rw [reserved_eq_zero (queuedTasks_ofWallet hnotifies.ofWallet), add_zero, hnotifies.same.1]
    | restart => exact absurd hserving' not_serving_restarted
  · have hkept : Due k u n' → Tracks k u db n' (log ++ log') := fun hdue => Or.inr (Or.inl hdue)
    cases step_steps hstep with
    | accept => exact hkept hdue
    | leave => exact hkept hdue
    | receive hio =>
      rcases hdue with hmem | hround | hasked | hround
      · exact hkept (Or.inl hmem)
      · exact hkept (Or.inr (Or.inl hround))
      · cases hio.symm.trans hasked
      · exact hkept (Or.inr (Or.inr (Or.inr hround)))
    | idle => exact hkept hdue
    | task => exact hkept hdue
    | settle hidle hnone =>
      rcases hdue with hmem | ⟨round, hsome, -⟩ | hasked
      · rw [hidle] at hmem
        cases hmem
      · cases hnone.symm.trans hsome
      · exact hkept (Or.inr (Or.inr hasked))
    | notified hnotifies =>
      have hsomebody : u ≠ -1 := by
        have hpos := hpeopled.sound.pos u hu
        omega
      rcases hdue.notified hsomebody hserving hnotifies with hdue | ⟨profile, hread⟩
      · exact hkept hdue
      · exact Or.inr (Or.inr ⟨profile, List.mem_append_right _ hread⟩)
    | restart => exact absurd hserving' not_serving_restarted
  · exact Or.inr (Or.inr ⟨profile, List.mem_append_left _ hread⟩)

/-- A wallet on its way is sent, sooner or later. -/
lemma Pending.step {profile : UserProfile} (h : n.Pending (.read k u profile))
    (hstep : Network.step json sodium g m n e = some (n', log')) (hserving : Serving k u n') :
    n'.Pending (.read k u profile) ∨ .sent k (.userUpdate u profile) ∈ log' := by
  have hadvance : ∀ {next : Option Update}, n.Advances (.read k u profile) next log' →
      .sent k (.userUpdate u profile) ∈ log' := by
    intro next hadvances
    cases hadvances
    exact List.mem_singleton_self _
  cases step_steps hstep with
  | receive hio =>
    rcases h with hread | hround
    · cases hio.symm.trans hread
    · exact Or.inl (Or.inr hround)
  | restart => exact absurd hserving not_serving_restarted
  | notified hnotifies =>
    cases hnotifies with
    | update hio hadvances =>
      rcases h with hread | hround
      · obtain rfl := Option.some.inj (hio.symm.trans hread)
        exact Or.inr (hadvance hadvances)
      · exact Or.inl (Or.inr hround)
    | begin i hround =>
      rcases h with hread | ⟨round, hsome, -⟩
      · exact Or.inl (Or.inl hread)
      · cases hround.symm.trans hsome
    | visit hround hupdate =>
      rcases h with hread | ⟨round, hsome, hread⟩
      · exact Or.inl (Or.inl hread)
      · obtain rfl := Option.some.inj (hround.symm.trans hsome)
        cases hupdate.symm.trans hread
    | advance i hround hupdate hadvances =>
      rcases h with hread | ⟨round, hsome, hread⟩
      · exact Or.inl (Or.inl hread)
      · obtain rfl := Option.some.inj (hround.symm.trans hsome)
        obtain rfl := Option.some.inj (hupdate.symm.trans hread)
        exact Or.inr (hadvance hadvances)
    | finish i hround hupdate =>
      rcases h with hread | ⟨round, hsome, hread⟩
      · exact Or.inl (Or.inl hread)
      · obtain rfl := Option.some.inj (hround.symm.trans hsome)
        cases hupdate.symm.trans hread
    | wait => exact Or.inl h
  | _ => exact Or.inl h

/-- What is known of the wallets on the connection since `n₁`: what is on its way was on it then or
has been read since, and what was sent was on its way then or has been read since. -/
def Accounted (k : Nat) (n₁ n : Network) (log : List Happening) : Prop :=
  ∀ v profile, (n.Pending (.read k v profile) ∨ .sent k (.userUpdate v profile) ∈ log) →
    n₁.Pending (.read k v profile) ∨ .read k v profile ∈ log

lemma Accounted.step {n₁ : Network} (h : Accounted k n₁ n log)
    (hstep : Network.step json sodium g m n e = some (n', log')) :
    Accounted k n₁ n' (log ++ log') := by
  have hkept : ∀ v profile, (n.Pending (.read k v profile) ∨
      .sent k (.userUpdate v profile) ∈ log) →
      n₁.Pending (.read k v profile) ∨ .read k v profile ∈ log ++ log' :=
    fun v profile hbefore => (h v profile hbefore).imp id (List.mem_append_left _)
  have hquiet : (∀ v profile, n'.Pending (.read k v profile) → n.Pending (.read k v profile)) →
      (∀ v profile, .sent k (.userUpdate v profile) ∉ log') →
      Accounted k n₁ n' (log ++ log') := by
    rintro hpending hsent v profile (hnow | hnow)
    · exact hkept v profile (Or.inl (hpending v profile hnow))
    · rcases List.mem_append.mp hnow with hnow | hnow
      · exact hkept v profile (Or.inr hnow)
      · exact absurd hnow (hsent v profile)
  cases step_steps hstep with
  | accept => exact hquiet (fun _ _ hnow => hnow) (by simp)
  | leave => exact hquiet (fun _ _ hnow => hnow) (by simp)
  | receive hio hconn hreceived =>
    refine hquiet ?_ ?_
    · rintro v profile (hnow | hnow)
      · simp only at hnow
        split_ifs at hnow
        cases hnow
      · exact Or.inr hnow
    · intro v profile hsent
      exact userUpdate_notMem hreceived (sent_mem_received hsent).2
  | idle => exact hquiet (fun _ _ hnow => hnow) (by simp)
  | task _ _ hbroadcast hreply =>
    refine hquiet (fun _ _ hnow => hnow) fun v profile hsent => ?_
    rcases List.mem_append.mp hsent with hsent | hsent
    · exact absurd hsent sent_notMem_entries
    · obtain ⟨conn, -, hframe⟩ := sent_mem_deliver.mp hsent
      exact market_framesFor hbroadcast hreply _ hframe
  | settle => exact hquiet (fun _ _ hnow => hnow) (by simp)
  | restart => exact hquiet (fun _ _ hnow => absurd hnow (not_pending rfl rfl)) (by simp)
  | notified hnotifies =>
    rintro v profile (hnow | hnow)
    · rcases hnotifies.pending hnow with hbefore | hread
      · exact hkept v profile (Or.inl hbefore)
      · exact Or.inr (List.mem_append_right _ hread)
    · rcases List.mem_append.mp hnow with hnow | hnow
      · exact hkept v profile (Or.inr hnow)
      · obtain ⟨v', profile', heq, hbefore⟩ := hnotifies.sent hnow
        obtain ⟨rfl, rfl⟩ := Outgoing.userUpdate.inj heq
        exact hkept v profile (Or.inl hbefore)

instance (k : Nat) (u : Int) (n : Network) : Decidable (Serving k u n) :=
  decidable_of_iff
    (∃ conn ∈ n.connections[k]?, conn.registered = true ∧ conn.currentUserId = u) Iff.rfl

instance (n : Network) (update : Update) : Decidable (n.Pending update) :=
  decidable_of_iff (n.io = some update ∨ ∃ round ∈ n.round, round.update = some update) Iff.rfl

instance (k : Nat) (u : Int) (n : Network) : Decidable (Due k u n) :=
  decidable_of_iff (u ∈ n.affected ∨ (∃ round ∈ n.round, round.userId = u ∧ k ∈ round.left) ∨
    n.Pending (.asked k)) Iff.rfl

end Network

end ExchangeEngine
