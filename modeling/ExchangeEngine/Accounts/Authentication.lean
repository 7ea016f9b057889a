import ExchangeEngine.Accounts.Run

/-!
# Who a token stands for

Session rows are inserted at logins and never change, so a token stands for the user of the first
login that was handed it, for a day: SQLite reads a token up to a zero. Every order and every
cancellation that is queued has such a token behind it, and every login the password that the
account was created with.
-/

namespace ExchangeEngine

/-- Of these passwords, a hash verifies only the one that it was made of. -/
def Sodium.Distinguishes (sodium : Sodium) (passwords : List String) : Prop :=
  ∀ password ∈ passwords, ∀ given ∈ passwords, ∀ salt hash,
    sodium.pwhashStr salt password = some hash →
    sodium.pwhashStrVerify (bindText hash) given = true → given = password

lemma Sodium.Distinguishes.left {sodium : Sodium} {log log' : List Exchange.Entry}
    (h : sodium.Distinguishes (Exchange.Entry.passwords (log ++ log'))) :
    sodium.Distinguishes (Exchange.Entry.passwords log) := by
  have hmem : ∀ password ∈ Exchange.Entry.passwords log,
      password ∈ Exchange.Entry.passwords (log ++ log') := by
    intro password hpassword
    simp only [Exchange.Entry.passwords, Exchange.Entry.accounts_append,
      Exchange.Entry.grants_append, List.map_append, List.mem_append] at hpassword ⊢
    exact hpassword.imp Or.inl Or.inl
  exact fun password hpassword given hgiven =>
    h password (hmem password hpassword) given (hmem given hgiven)

/-! ### What a queued task was allowed by -/

/-- For whom a task acts. -/
def EngineTask.user : EngineTask → Option Int
  | .order _ o => some o.userId
  | .cancel _ _ userId => some userId
  | .snapshot _ => none
  | .switchEngine _ => none

namespace Server

/-- The token of a message; that of a snapshot request is not looked at here. -/
def Message.token : Message → String
  | .order msg => msg.token
  | .marketOrder msg => msg.token
  | .cancel msg => msg.token
  | .switchEngine _ => ""
  | .snapshot _ => ""

variable {s s' : Server} {now u : Int} {msg : Message} {task : EngineTask}

/-- The message has queued an order or a cancellation for `u`. -/
def Queued (s s' : Server) (u : Int) : Prop :=
  ∃ task, s'.engineQueue = s.engineQueue ++ [task] ∧ task.user = some u

lemma user_of_pushed (h : Queued s (s.push task) u) : task.user = some u := by
  obtain ⟨t, hqueue, hu⟩ := h
  have ht : task = t := List.singleton_inj.mp (List.append_cancel_left hqueue)
  rwa [ht]

lemma user_of_enqueued {db : Database} {c price quantity timestamp : Nat} {v : Int} {side : Bool}
    (h : Queued s ({ s with db := db }.enqueueOrderTask c v side price quantity timestamp) u) :
    u = v := by
  obtain ⟨t, hqueue, hu⟩ := h
  obtain rfl := List.singleton_inj.mp (List.append_cancel_left hqueue)
  exact (Option.some.inj hu).symm

lemma handleOrder_authenticated {msg : OrderMsg} (h : s.handleOrder now msg = .ok s')
    (hqueued : Queued s s' u) : ∃ v, s.db.validateSession now msg.token = .ok v ∧
      if msg.stress then u < 0 else u = v := by
  simp only [handleOrder] at h
  split at h
  · rename_i price quantity sideText timestamp hprice hquantity hside htimestamp
    by_cases hmax : 100000 ≤ price
    · simp [hmax, throw, throwThe, MonadExceptOf.throw, bind, Except.bind] at h
    simp only [hmax, if_false] at h
    obtain ⟨-, -, h⟩ := Except.bind_eq_ok h
    obtain ⟨v, hauth, h⟩ := Except.bind_eq_ok h
    refine ⟨v, Except.mapError_eq_ok hauth, ?_⟩
    cases hstress : msg.stress with
    | true =>
      rw [if_pos hstress] at h
      rw [← Except.ok.inj h] at hqueued
      obtain rfl := user_of_enqueued hqueued
      simp only [if_true]
      split_ifs with hneg
      · exact hneg
      · decide
    | false =>
      rw [if_neg (by simp [hstress])] at h
      simp only [Bool.false_eq_true, if_false]
      split_ifs at h with hbuy
      · obtain ⟨db, hdb, h⟩ := Except.bind_eq_ok h
        rw [← Except.ok.inj h] at hqueued
        exact user_of_enqueued hqueued
      · obtain ⟨db, hdb, h⟩ := Except.bind_eq_ok h
        rw [← Except.ok.inj h] at hqueued
        exact user_of_enqueued hqueued
  · cases h

lemma handleMarketOrder_authenticated {msg : MarketOrderMsg}
    (h : s.handleMarketOrder now msg = some (.ok s')) (hqueued : Queued s s' u) :
    s.db.validateSession now msg.token = .ok u := by
  simp only [handleMarketOrder] at h
  split at h
  · cases hauth : orElse (s.db.validateSession now msg.token) "Authentication required." with
    | error e => simp [hauth] at h
    | ok v =>
      rw [Except.mapError_eq_ok hauth]
      rw [hauth] at h
      cases hfind : s.market.findInstrument (msg.companyId.getD s.market.defaultCompanyId) with
      | none => simp [hfind] at h
      | some book =>
        simp only [hfind] at h
        split_ifs at h
        · obtain ⟨refPrice, -, h⟩ := Option.bind_eq_some_iff.mp h
          split_ifs at h
          · cases Option.some.inj h
          · obtain ⟨db, hdb, h⟩ := Except.bind_eq_ok (Option.some.inj h)
            rw [← Except.ok.inj h] at hqueued
            rw [user_of_enqueued hqueued]
        · obtain ⟨refPrice, -, h⟩ := Option.bind_eq_some_iff.mp h
          split_ifs at h
          · cases Option.some.inj h
          · obtain ⟨db, hdb, h⟩ := Except.bind_eq_ok (Option.some.inj h)
            rw [← Except.ok.inj h] at hqueued
            rw [user_of_enqueued hqueued]
  · cases Option.some.inj h

/-- **Nothing is queued** for a user without a token that is valid for him; a stress order acts for
a synthetic user. -/
lemma step_authenticated (h : s.step (.message now msg) = some (s', [], []))
    (hqueued : Queued s s' u) : ∃ v, s.db.validateSession now msg.token = .ok v ∧
      if msg.stress then u < 0 else u = v := by
  obtain ⟨r, hr, h⟩ := Option.map_eq_some_iff.mp h
  cases r with
  | error e =>
    obtain ⟨rfl, -⟩ := Prod.mk.inj h
    obtain ⟨task, hqueue, -⟩ := hqueued
    simp at hqueue
  | ok s₁ =>
    obtain ⟨rfl, -⟩ := Prod.mk.inj h
    cases msg with
    | order msg => exact handleOrder_authenticated (Option.some.inj hr) hqueued
    | marketOrder msg => exact ⟨u, handleMarketOrder_authenticated hr hqueued, rfl⟩
    | cancel msg =>
      have hr := Option.some.inj hr
      simp only [handleCancel] at hr
      split at hr
      · obtain ⟨v, hauth, hr⟩ := Except.bind_eq_ok hr
        rw [← Except.ok.inj hr] at hqueued
        exact ⟨v, Except.mapError_eq_ok hauth, (Option.some.inj (user_of_pushed hqueued)).symm⟩
      · cases hr
    | switchEngine mode =>
      have hr := Option.some.inj hr
      simp only [handleSwitchEngine] at hr
      by_cases hmode : mode ≠ "CURRENT" ∧ mode ≠ "LEGACY"
      · rw [if_pos hmode] at hr
        cases hr
      · rw [if_neg hmode] at hr
        rw [← Except.ok.inj hr] at hqueued
        cases user_of_pushed hqueued
    | snapshot companyId =>
      rw [← Except.ok.inj (Option.some.inj hr)] at hqueued
      cases user_of_pushed hqueued

end Server

/-! ### What the tables hold -/

/-- The session that a login asks for. -/
def Grant.row (g : Grant) : SessionRow := ⟨g.userId, g.time + 86400⟩

/-- The password hash of each user was made of the password that the account was created with. -/
def Users.Hashed (sodium : Sodium) (users : Users) (accounts : List Created) : Prop :=
  ∀ row ∈ users.rows, ∃ salt password hash, sodium.pwhashStr salt password = some hash ∧
    row.passwordHash = bindText hash ∧ ⟨row.id, password⟩ ∈ accounts

namespace Users.Hashed

variable {sodium : Sodium} {users users' : Users} {row : UserRow} {db db' : Database}
  {accounts new : List Created} {salt : Nat} {username password role : String}

lemma append (h : users.Hashed sodium accounts) (new : List Created) :
    users.Hashed sodium (accounts ++ new) := by
  intro row hrow
  obtain ⟨salt, password, hash, hhash, hrowhash, hmem⟩ := h row hrow
  exact ⟨salt, password, hash, hhash, hrowhash, List.mem_append_left _ hmem⟩

lemma added (h : users.Hashed sodium accounts)
    (hfrom : UserRow.From sodium salt username password role row)
    (hadded : users.Added row users') :
    users'.Hashed sodium (accounts ++ [⟨row.id, password⟩]) := by
  intro r hr
  rw [hadded.eq] at hr
  rcases List.mem_append.mp hr with hr | hr
  · exact h.append _ r hr
  · obtain rfl := List.mem_singleton.mp hr
    obtain ⟨hash, hhash, hrowhash⟩ := hfrom.hash
    exact ⟨salt, password, hash, hhash, hrowhash, by simp⟩

lemma creation {id : Option (Int × Bool)} (h : users.Hashed sodium accounts)
    (shares : List (Nat × Nat))
    (hcreation : Creation sodium username password db users (db', users', id)) :
    users'.Hashed sodium
      (accounts ++ Exchange.Entry.accounts (Exchange.createdEntry password shares id)) := by
  cases hcreation with
  | nothing => exact h.append _
  | orphaned hfrom hadded => exact h.added hfrom hadded
  | funded hfrom hadded => exact h.added hfrom hadded

lemma creations {log : List Exchange.Entry} (h : users.Hashed sodium accounts)
    (hcreations : Creations sodium db users db' users' log) :
    users'.Hashed sodium (accounts ++ Exchange.Entry.accounts log) := by
  cases hcreations with
  | nothing => exact h.append _
  | registered companies hcreation => exact h.creation _ hcreation
  | main writes hshrey hakshay =>
    rw [Exchange.Entry.accounts_append, ← List.append_assoc]
    exact (h.creation _ hshrey).creation _ hakshay

end Users.Hashed

/-! ### What new accounts leave in place -/

section Kept

variable {sodium : Sodium} {username password : String} {db db' : Database} {users users' : Users}
  {row : UserRow} {id : Option (Int × Bool)} {log : List Exchange.Entry}

lemma Users.Added.rows_subset (h : users.Added row users') : users.rows ⊆ users'.rows := by
  rw [h.rows_eq]
  exact List.subset_append_left _ _

lemma Creation.kept (h : Creation sodium username password db users (db', users', id))
    (shares : List (Nat × Nat)) : users.rows ⊆ users'.rows ∧ db'.sessions = db.sessions ∧
      Exchange.Entry.grants (Exchange.createdEntry password shares id) = [] := by
  cases h with
  | nothing => exact ⟨List.Subset.refl _, rfl, rfl⟩
  | orphaned _ hadded => exact ⟨hadded.rows_subset, rfl, rfl⟩
  | funded _ hadded => exact ⟨hadded.rows_subset, rfl, rfl⟩

/-- **Accounts created** leave users and sessions in place, and nobody has logged in. -/
lemma Creations.kept (h : Creations sodium db users db' users' log) :
    users.rows ⊆ users'.rows ∧ db'.sessions = db.sessions ∧ Exchange.Entry.grants log = [] := by
  cases h with
  | nothing => exact ⟨List.Subset.refl _, rfl, rfl⟩
  | registered companies hcreation =>
    rw [sessions_grantAll]
    exact hcreation.kept _
  | main writes hshrey hakshay =>
    obtain ⟨hrows, hsessions, hgrants⟩ := hshrey.kept (Exchange.giftShares writes)
    obtain ⟨hrows', hsessions', hgrants'⟩ := hakshay.kept []
    rw [sessions_giftCut, Exchange.Entry.grants_append, hgrants, hgrants']
    exact ⟨List.Subset.trans hrows hrows', hsessions'.trans hsessions, rfl⟩

end Kept

namespace Exchange

variable {sodium : Sodium} {m : MarketState} {chance : Chance} {allowed : Exchange → Event → Prop}
  {x x' : Exchange} {e : Event} {log log' : List Entry} {token : String} {now u : Int}

/-- What the tables say about the past. -/
structure Backed (sodium : Sodium) (x : Exchange) (log : List Entry) : Prop where
  hashed : x.users.Hashed sodium (Entry.accounts log)
  verified : ∀ g ∈ Entry.grants log, ∃ row ∈ x.users.rows, row.id = g.userId ∧
    sodium.pwhashStrVerify row.passwordHash g.password = true
  sessions : ∀ token, x.server.db.sessions token
    = ((Entry.grants log).find? fun g => g.token = token).map Grant.row

/-- Users are only added. -/
lemma rows_subset (h : step sodium m x e = some (x', log)) : x.users.rows ⊆ x'.users.rows := by
  cases step_steps h with
  | registered _ hadded => exact hadded.rows_subset
  | restarted hcreations => exact hcreations.kept.1
  | killed _ hcreations => exact hcreations.kept.1
  | _ => exact List.Subset.refl _

lemma sessions_createSess {db : Database} {t : String} {n : Int} :
    (db.createSess token u n).sessions t
      = (db.sessions t).or (if t = token then some ⟨u, n⟩ else none) := by
  by_cases ht : t = token
  · subst ht
    cases hold : db.sessions t with
    | none => simp [Database.createSess, hold]
    | some row => simp [Database.createSess, hold]
  · simp [Database.createSess, ht]

/-- The session rows after a step are those of the logins before and of the step's. -/
lemma sessions_step (h : step sodium m x e = some (x', log)) (token : String) :
    x'.server.db.sessions token = (x.server.db.sessions token).or
      (((Entry.grants log).find? fun g => g.token = token).map Grant.row) := by
  cases step_steps h with
  | server hserver => simp [Server.sessions_step hserver]
  | refused => simp [Entry.grants]
  | registered => simp [createdEntry, Entry.grants]
  | @loggedIn raw now username password row hrow hverify =>
    rw [sessions_createSess]
    by_cases ht : token = Database.generateToken raw
    · simp [Entry.grants, Grant.row, ht]
    · simp [Entry.grants, ht, eq_comm]
  | restarted hcreations => simp [Server.start, hcreations.kept.2.1, hcreations.kept.2.2]
  | killed _ hcreations => simp [Server.start, hcreations.kept.2.1, hcreations.kept.2.2]

/-- **One step** of the past. -/
theorem Backed.step (h : x.Backed sodium log) (hstep : step sodium m x e = some (x', log')) :
    x'.Backed sodium (log ++ log') where
  hashed := by
    rw [Entry.accounts_append]
    cases step_steps hstep with
    | registered hfrom hadded => exact h.hashed.added hfrom hadded
    | restarted hcreations => exact h.hashed.creations hcreations
    | killed _ hcreations => exact h.hashed.creations hcreations
    | _ => exact h.hashed.append _
  verified g hg := by
    rw [Entry.grants_append] at hg
    rcases List.mem_append.mp hg with hg | hg
    · obtain ⟨row, hrow, hverified⟩ := h.verified g hg
      exact ⟨row, rows_subset hstep hrow, hverified⟩
    · cases step_steps hstep with
      | loggedIn hrow hverify =>
        obtain rfl : g = _ := List.mem_singleton.mp hg
        exact ⟨_, (Users.named_mem hrow).1, rfl, hverify⟩
      | server => simp at hg
      | restarted hcreations => simp [hcreations.kept.2.2] at hg
      | refused => simp [Entry.grants] at hg
      | registered => simp [createdEntry, Entry.grants] at hg
      | killed _ hcreations => simp [hcreations.kept.2.2] at hg
  sessions token := by
    rw [sessions_step hstep, h.sessions, Entry.grants_append, List.find?_append]
    cases (Entry.grants log).find? fun g => g.token = token with
    | none => rfl
    | some g => rfl

lemma backed_blank : (blank m chance).Backed sodium [] where
  hashed _ h := absurd h List.not_mem_nil
  verified _ h := absurd h List.not_mem_nil
  sessions _ := rfl

lemma Run.backed (h : Run sodium m allowed (blank m chance) x log) : x.Backed sodium log :=
  h.invariant (P := fun x log => x.Backed sodium log) backed_blank
    fun _ _ _ _ _ ih _ hstep => Backed.step ih hstep

lemma validateSession_eq_ok_iff {db : Database} : db.validateSession now token = .ok u ↔
    ∃ row, db.sessions (bindText token) = some row ∧ now < row.expiresAt ∧ row.userId = u := by
  simp only [Database.validateSession]
  cases db.sessions (bindText token) with
  | none => simp
  | some row => by_cases h : now < row.expiresAt <;> simp [h]

/-- A token stands for the user of the first login that was handed it. -/
lemma Run.validateSession_iff (h : Run sodium m allowed (blank m chance) x log) {token : String} :
    x.server.db.validateSession now token = .ok u ↔
      ∃ g, (Entry.grants log).find? (fun g => g.token = bindText token) = some g ∧
        now < g.time + 86400 ∧ g.userId = u := by
  rw [validateSession_eq_ok_iff, h.backed.sessions]
  simp only [Option.map_eq_some_iff, ↓existsAndEq, and_true, Grant.row]

/-- A login gave the password that the account was created with. -/
lemma Run.password {g : Grant} (hsodium : sodium.Distinguishes (Entry.passwords log))
    (h : Run sodium m allowed (blank m chance) x log) (hg : g ∈ Entry.grants log) :
    ⟨g.userId, g.password⟩ ∈ Entry.accounts log := by
  obtain ⟨row, hrow, hid, hverify⟩ := h.backed.verified g hg
  obtain ⟨salt, password, hash, hhash, hrowhash, hmem⟩ := h.backed.hashed row hrow
  rw [hrowhash] at hverify
  have hcreated : password ∈ Entry.passwords log :=
    List.mem_append_left _ (List.mem_map_of_mem (f := Created.password) hmem)
  have hgiven : g.password ∈ Entry.passwords log :=
    List.mem_append_right _ (List.mem_map_of_mem hg)
  rw [hsodium password hcreated g.password hgiven salt hash hhash hverify, ← hid]
  exact hmem

/-- **Authentication.** In every run from an empty database: a text is accepted exactly for the user
of the first login that was handed it, up to a zero, for a day; each login gave the password that
the account was created with; and whatever is queued for a user had such a token, a stress order for
a synthetic one. -/
theorem authenticated (hsodium : sodium.Distinguishes (Entry.passwords log))
    (h : Run sodium m (fun _ _ => True) (blank m chance) x log) :
    (∀ now token u, x.server.db.validateSession now token = .ok u ↔
      ∃ g, (Entry.grants log).find? (fun g => g.token = bindText token) = some g ∧
        now < g.time + 86400 ∧ g.userId = u) ∧
    (∀ g ∈ Entry.grants log, ⟨g.userId, g.password⟩ ∈ Entry.accounts log) ∧
    ∀ now msg s u, x.server.step (.message now msg) = some (s, [], []) →
      Server.Queued x.server s u → ∃ g ∈ Entry.grants log, g.token = bindText msg.token ∧
        now < g.time + 86400 ∧ if msg.stress then u < 0 else u = g.userId := by
  refine ⟨fun now token u => h.validateSession_iff, fun g hg => h.password hsodium hg, ?_⟩
  intro now msg s u hstep hqueued
  obtain ⟨v, hauth, hu⟩ := Server.step_authenticated hstep hqueued
  obtain ⟨g, hfind, htime, rfl⟩ := h.validateSession_iff.mp hauth
  have htoken : g.token = bindText msg.token := by simpa using List.find?_some hfind
  exact ⟨g, List.mem_of_find?_eq_some hfind, htoken, htime, hu⟩

lemma sampleSodium_distinguishes {passwords : List String}
    (h : ∀ password ∈ passwords, ∀ given ∈ passwords,
      bindText (toString (checksum password)) = toString (checksum given) → given = password) :
    sampleSodium.Distinguishes passwords := by
  intro password hpassword given hgiven salt hash hhash hverify
  obtain rfl := Option.some.inj hhash
  exact h password hpassword given hgiven (of_decide_eq_true hverify)

def sampleGrant : Grant := ⟨Database.generateToken fun _ => 0, 1, 5, "pass123"⟩

/-- The token, and what SQLite does not read. -/
def sampleToken : String := sampleGrant.token ++ "\x00!"

theorem authenticated_sampleLogin : ∃ x log,
    Run sampleSodium Server.sampleMarket (fun _ _ => True) sampleBlank x log ∧
      x.server.db.validateSession 6 sampleToken = .ok 1 ∧
      ⟨1, "pass123"⟩ ∈ Entry.accounts log := by
  obtain ⟨⟨x, log⟩, hrun, hout⟩ := Option.map_eq_some_iff.mp
    (by decide +kernel : (Transition.runEvents (step sampleSodium Server.sampleMarket)
      (fun _ _ => True) sampleBlank sampleLogin).map
        (fun r => (Entry.grants r.2, Entry.passwords r.2))
          = some ([sampleGrant], ["pass123", "pass123", "secret", "pass123"]))
  have h := Transition.run_of_runEvents hrun
  obtain ⟨hgrants, hpasswords⟩ := Prod.mk.inj hout
  obtain ⟨hsession, hpassword, -⟩ := authenticated
    (sampleSodium_distinguishes (hpasswords ▸ by decide +kernel)) h
  refine ⟨x, log, h, (hsession _ _ _).mpr ⟨sampleGrant, ?_, by decide, rfl⟩,
    hpassword sampleGrant ?_⟩
  · rw [show bindText sampleToken = sampleGrant.token by decide +kernel]
    simp [hgrants]
  · rw [hgrants]
    exact List.mem_singleton_self _

end Exchange

end ExchangeEngine
