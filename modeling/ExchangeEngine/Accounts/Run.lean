import ExchangeEngine.Accounts.Basic
import ExchangeEngine.Server.Stress

/-!
# Runs of the exchange

What an event does to the exchange, and what holds of the accounts in every run: the numbers of the
users grow in the order of their registration, a wallet belongs to one of them, and so does every
session. Each has a wallet but those in whose registration the process was killed.
-/

namespace ExchangeEngine

/-! ### Tokens -/

/-- There is no zero in a token that is handed out. -/
lemma bindText_generateToken (raw : Fin 32 → UInt8) :
    bindText (Database.generateToken raw) = Database.generateToken raw := by
  have hchars : Char.ofNat 0 ∉ Database.tokenChars := by decide +kernel
  have hzero : ∀ c ∈ (Database.generateToken raw).toList, decide (c ≠ Char.ofNat 0) = true := by
    intro c hc
    rw [Database.generateToken, String.toList_ofList, List.mem_ofFn] at hc
    obtain ⟨i, rfl⟩ := hc
    have hlt : (raw i).toNat % 62 < Database.tokenChars.length :=
      Nat.mod_lt _ (by decide : 0 < 62)
    rw [List.getD_eq_getElem?_getD, List.getElem?_eq_getElem hlt, Option.getD_some]
    exact decide_eq_true fun hzero => hchars (hzero ▸ List.getElem_mem hlt)
  rw [bindText, List.takeWhile_eq_self_iff.mpr hzero, String.ofList_toList]

/-! ### Creating users -/

namespace Users

/-- The ids given. -/
def ids (users : Users) : Finset Int := (users.rows.map UserRow.id).toFinset

/-- `users'` has one row more. -/
structure Added (users : Users) (row : UserRow) (users' : Users) : Prop where
  id : row.id = users.nextId
  new : ∀ r ∈ users.rows, r.username ≠ row.username
  eq : users' = users.insert row

variable {users users' : Users} {row : UserRow} {u : Int} {name : String}

lemma mem_ids : u ∈ users.ids ↔ ∃ row ∈ users.rows, row.id = u := by
  simp [ids]

lemma Added.rows_eq (h : users.Added row users') : users'.rows = users.rows ++ [row] := by
  rw [h.eq]
  rfl

lemma Added.ids_eq (h : users.Added row users') : users'.ids = Insert.insert row.id users.ids := by
  ext u
  rw [mem_ids, h.rows_eq, Finset.mem_insert, mem_ids]
  simp only [List.mem_append, List.mem_singleton, or_and_right, exists_or, exists_eq_left,
    @eq_comm _ row.id u, or_comm]

lemma named_mem (h : users.named name = some row) : row ∈ users.rows ∧ row.username = name :=
  ⟨List.mem_of_find?_eq_some h, by simpa using List.find?_some h⟩

lemma id_mem_of_named (h : users.named name = some row) : row.id ∈ users.ids :=
  mem_ids.mpr ⟨row, (named_mem h).1, rfl⟩

end Users

/-- The row that a registration inserts. -/
structure UserRow.From (sodium : Sodium) (salt : Nat) (username password role : String)
    (row : UserRow) : Prop where
  username : row.username = bindText username
  hash : ∃ hash, sodium.pwhashStr salt password = some hash ∧ row.passwordHash = bindText hash
  role : row.role = bindText role

section Create

variable {sodium : Sodium} {salt : Nat} {username password role : String} {db db' : Database}
  {users users' : Users} {id : Int}

lemma newUser_eq_ok {row : UserRow}
    (h : Database.newUser sodium salt username password role users = .ok row) :
    UserRow.From sodium salt username password role row ∧ users.Added row (users.insert row) := by
  simp only [Database.newUser] at h
  cases hhash : sodium.pwhashStr salt password with
  | none => simp [hhash] at h
  | some hash =>
    rw [hhash] at h
    simp only at h
    split_ifs at h with hfull htaken
    obtain rfl := Except.ok.inj h
    refine ⟨⟨rfl, ⟨hash, hhash, rfl⟩, rfl⟩, ⟨rfl, ?_, rfl⟩⟩
    intro r hr hname
    exact htaken (List.any_eq_true.mpr ⟨r, hr, decide_eq_true hname⟩)

/-- **A user created** is a new row with a new wallet. -/
lemma createUser_eq_ok
    (h : db.createUser sodium salt username password role users = .ok (db', users', id)) :
    ∃ row, UserRow.From sodium salt username password role row ∧ users.Added row users' ∧
      row.id = id ∧ db' = db.initBal id := by
  obtain ⟨row, hrow, h⟩ := Except.bind_eq_ok h
  obtain ⟨hfrom, hadded⟩ := newUser_eq_ok hrow
  obtain ⟨rfl, hout⟩ := Prod.mk.inj (Except.ok.inj h)
  obtain ⟨rfl, rfl⟩ := Prod.mk.inj hout
  exact ⟨row, hfrom, hadded, rfl, rfl⟩

/-- What `create_user` does to the tables, cut off or not; the user created, and whether he has a
wallet. -/
inductive Creation (sodium : Sodium) (username password : String) (db : Database) (users : Users) :
    Database × Users × Option (Int × Bool) → Prop
  | nothing : Creation sodium username password db users (db, users, none)
  | orphaned {salt : Nat} {role : String} {row : UserRow} {users' : Users}
      (hfrom : UserRow.From sodium salt username password role row)
      (hadded : users.Added row users') :
      Creation sodium username password db users (db, users', some (row.id, false))
  | funded {salt : Nat} {role : String} {row : UserRow} {users' : Users}
      (hfrom : UserRow.From sodium salt username password role row)
      (hadded : users.Added row users') :
      Creation sodium username password db users (db.initBal row.id, users', some (row.id, true))

lemma createDefault_creation {id : Option Int}
    (h : Exchange.createDefault sodium salt username db users = (db', users', id)) :
    Creation sodium username "pass123" db users (db', users', id.map fun id => (id, true)) := by
  rw [Exchange.createDefault] at h
  cases hcreate : db.createUser sodium salt username "pass123" "trader" users with
  | ok r =>
    obtain ⟨db₁, users₁, id₁⟩ := r
    obtain ⟨row, hfrom, hadded, rfl, rfl⟩ := createUser_eq_ok hcreate
    rw [hcreate] at h
    obtain ⟨rfl, rfl, rfl⟩ : db.initBal row.id = db' ∧ users₁ = users' ∧ some row.id = id := by
      simpa using h
    exact .funded hfrom hadded
  | error e =>
    rw [hcreate] at h
    obtain ⟨rfl, rfl, rfl⟩ : db = db' ∧ users = users' ∧ none = id := by simpa using h
    exact .nothing

lemma createCut_creation {writes left : Nat} {id : Option (Int × Bool)}
    (h : Exchange.createCut sodium salt username password role writes db users
      = (db', users', id, left)) :
    Creation sodium username password db users (db', users', id) := by
  have hout := congrArg (fun r => (r.1, r.2.1, r.2.2.1)) h
  simp only at hout
  rw [← hout]
  cases hrow : Database.newUser sodium salt username password role users with
  | error e =>
    simp only [Exchange.createCut, hrow]
    exact .nothing
  | ok row =>
    obtain ⟨hfrom, hadded⟩ := newUser_eq_ok hrow
    match writes with
    | 0 =>
      simp only [Exchange.createCut, hrow]
      exact .nothing
    | 1 =>
      simp only [Exchange.createCut, hrow]
      exact .orphaned hfrom hadded
    | writes + 2 =>
      simp only [Exchange.createCut, hrow]
      exact .funded hfrom hadded

/-- What a registration or `main` does to the tables, cut off or not. -/
inductive Creations (sodium : Sodium) (db : Database) (users : Users) :
    Database → Users → List Exchange.Entry → Prop
  | nothing : Creations sodium db users db users []
  | registered {username password : String} {db' : Database} {users' : Users} {id : Int}
      {wallet : Bool} (companies : List Nat)
      (hcreation : Creation sodium username password db users (db', users', some (id, wallet))) :
      Creations sodium db users (Exchange.grantAll id companies db') users'
        (Exchange.createdEntry password (Exchange.starterShares companies) (some (id, wallet)))
  | main {db₁ db₂ : Database} {users₁ users₂ : Users} {shrey akshay : Option (Int × Bool)}
      (writes : Nat)
      (hshrey : Creation sodium "shrey" "pass123" db users (db₁, users₁, shrey))
      (hakshay : Creation sodium "akshay" "pass123" db₁ users₁ (db₂, users₂, akshay)) :
      Creations sodium db users (Exchange.giftCut db₂ (shrey.map Prod.fst) writes) users₂
        (Exchange.createdEntry "pass123" (Exchange.giftShares writes) shrey
          ++ Exchange.createdEntry "pass123" [] akshay)

end Create

namespace Exchange

variable {sodium : Sodium} {m : MarketState} {x x' : Exchange} {e : Event} {log : List Entry}

/-- **`main`** leaves nobody without a wallet. -/
lemma main_creations (salt salt' : Nat) (db : Database) (users : Users) :
    ∃ db' users', (main sodium m salt salt' db users).1 = ⟨.start m db', users'⟩ ∧
      Creations sodium db users db' users' (main sodium m salt salt' db users).2 ∧
      Entry.orphans (main sodium m salt salt' db users).2 = [] := by
  rcases hshrey : createDefault sodium salt "shrey" db users with ⟨db₁, users₁, shrey⟩
  rcases hakshay : createDefault sodium salt' "akshay" db₁ users₁ with ⟨db₂, users₂, akshay⟩
  have hmain := Creations.main 2 (createDefault_creation hshrey) (createDefault_creation hakshay)
  rw [Option.map_map] at hmain
  simp only [main, hshrey, hakshay]
  refine ⟨gift db₂ shrey, users₂, rfl, ?_, ?_⟩
  · rwa [show Prod.fst ∘ (fun id : Int => (id, true)) = id from rfl, Option.map_id] at hmain
  · cases shrey <;> cases akshay <;> rfl

lemma handleRegister_eq_ok {salt : Nat} {username password role : String} {id : Int}
    (h : x.handleRegister sodium salt username password role = .ok (x', id)) :
    ∃ row users, UserRow.From sodium salt username password role row ∧ x.users.Added row users ∧
      row.id = id ∧ x' = ⟨{ x.server with
        db := grantAll row.id x.server.market.companies (x.server.db.initBal row.id) }, users⟩ := by
  rw [handleRegister] at h
  split_ifs at h
  obtain ⟨⟨db, users, id⟩, hcreate, h⟩ := Except.bind_eq_ok h
  obtain ⟨row, hfrom, hadded, rfl, rfl⟩ := createUser_eq_ok hcreate
  obtain ⟨rfl, rfl⟩ := Prod.mk.inj (Except.ok.inj h)
  exact ⟨row, users, hfrom, hadded, rfl, rfl⟩

lemma registerCut_creations (salt : Nat) (username password role : String) (writes : Nat) :
    Creations sodium x.server.db x.users
      (x.registerCut sodium salt username password role writes).1
      (x.registerCut sodium salt username password role writes).2.1
      (x.registerCut sodium salt username password role writes).2.2 := by
  rw [registerCut]
  split_ifs
  · exact .nothing
  · rcases hout : createCut sodium salt username password role writes x.server.db x.users
      with ⟨db, users, id, left⟩
    cases id with
    | none =>
      cases createCut_creation hout
      exact .nothing
    | some id => exact .registered _ (createCut_creation hout)

lemma mainCut_creations (salt salt' writes : Nat) (db : Database) (users : Users) :
    Creations sodium db users (mainCut sodium salt salt' writes db users).1
      (mainCut sodium salt salt' writes db users).2.1
      (mainCut sodium salt salt' writes db users).2.2 := by
  rcases hshrey : createCut sodium salt "shrey" "pass123" "trader" writes db users
    with ⟨db₁, users₁, shrey, writes₁⟩
  rcases hakshay : createCut sodium salt' "akshay" "pass123" "trader" writes₁ db₁ users₁
    with ⟨db₂, users₂, akshay, writes₂⟩
  simp only [mainCut, hshrey, hakshay]
  exact .main writes₂ (createCut_creation hshrey) (createCut_creation hakshay)

lemma handleLogin_eq_ok {raw : Fin 32 → UInt8} {now id : Int} {username password token : String}
    (h : x.handleLogin sodium raw now username password = .ok (x', token, id)) :
    ∃ row, x.users.named (bindText username) = some row ∧
      sodium.pwhashStrVerify row.passwordHash password = true ∧ row.id = id ∧
      token = Database.generateToken raw ∧ x' = { x with server := { x.server with
        db := x.server.db.createSess (bindText (Database.generateToken raw)) row.id
          (now + 86400) } } := by
  obtain ⟨⟨db, token', id'⟩, hdb, h⟩ := Except.bind_eq_ok h
  rw [Database.login] at hdb
  cases hrow : x.users.named (bindText username) with
  | none => simp [hrow] at hdb
  | some row =>
    rw [hrow] at hdb
    simp only at hdb
    split_ifs at hdb with hverify
    obtain ⟨rfl, hout⟩ := Prod.mk.inj (Except.ok.inj hdb)
    obtain ⟨rfl, rfl⟩ := Prod.mk.inj hout
    obtain ⟨rfl, hout⟩ := Prod.mk.inj (Except.ok.inj h)
    obtain ⟨rfl, rfl⟩ := Prod.mk.inj hout
    exact ⟨row, rfl, hverify, rfl, rfl, rfl⟩

/-! ### Steps -/

/-- What an event does to the exchange. -/
inductive Steps (sodium : Sodium) (m : MarketState) (x : Exchange) :
    Event → Exchange → List Entry → Prop
  | server {e : Server.Event} {s : Server} {fills : List Trade} {pushed : List DbTask}
      (h : x.server.step e = some (s, fills, pushed)) :
      Steps sodium m x (.server e) { x with server := s } (fills.map .fill)
  | refused (e : Event) : Steps sodium m x e x []
  | registered {salt : Nat} {username password role : String} {row : UserRow} {users : Users}
      (hfrom : UserRow.From sodium salt username password role row)
      (hadded : x.users.Added row users) :
      Steps sodium m x (.register salt username password role)
        ⟨{ x.server with
            db := grantAll row.id x.server.market.companies (x.server.db.initBal row.id) },
          users⟩ (createdEntry password (starterShares x.server.market.companies)
            (some (row.id, true)))
  | loggedIn {raw : Fin 32 → UInt8} {now : Int} {username password : String} {row : UserRow}
      (hrow : x.users.named (bindText username) = some row)
      (hverify : sodium.pwhashStrVerify row.passwordHash password = true) :
      Steps sodium m x (.login raw now username password)
        { x with
          server := { x.server with
            db := x.server.db.createSess (Database.generateToken raw) row.id (now + 86400) } }
        [.granted ⟨Database.generateToken raw, row.id, now, password⟩]
  | restarted {salt salt' : Nat} {db : Database} {users : Users} {log : List Entry}
      (h : Creations sodium x.server.db x.users db users log) (hfunded : Entry.orphans log = []) :
      Steps sodium m x (.restart salt salt') ⟨.start m db, users⟩ log
  | killed {e : Event} {db : Database} {users : Users} {log : List Entry} (hwhole : ¬ x.Whole e)
      (h : Creations sodium x.server.db x.users db users log) :
      Steps sodium m x e ⟨.start m db, users⟩ log

/-- **An event** does one of these things. -/
theorem step_steps (h : step sodium m x e = some (x', log)) : Steps sodium m x e x' log := by
  cases e with
  | server e =>
    obtain ⟨⟨s, fills', pushed⟩, hstep, h⟩ := Option.map_eq_some_iff.mp h
    obtain ⟨rfl, rfl⟩ := Prod.mk.inj h
    exact .server hstep
  | register salt username password role =>
    rw [step] at h
    cases hreg : x.handleRegister sodium salt username password role with
    | error text =>
      rw [hreg] at h
      obtain ⟨rfl, rfl⟩ := Prod.mk.inj (Option.some.inj h)
      exact .refused _
    | ok r =>
      rw [hreg] at h
      obtain ⟨rfl, rfl⟩ := Prod.mk.inj (Option.some.inj h)
      obtain ⟨row, users, hfrom, hadded, hid, hx⟩ := handleRegister_eq_ok hreg
      rw [hx, ← hid]
      exact .registered hfrom hadded
  | login raw now username password =>
    rw [step] at h
    cases hlogin : x.handleLogin sodium raw now username password with
    | error text =>
      rw [hlogin] at h
      obtain ⟨rfl, rfl⟩ := Prod.mk.inj (Option.some.inj h)
      exact .refused _
    | ok r =>
      rw [hlogin] at h
      obtain ⟨rfl, rfl⟩ := Prod.mk.inj (Option.some.inj h)
      obtain ⟨row, hrow, hverify, hid, htoken, hx⟩ := handleLogin_eq_ok hlogin
      rw [hx, htoken, ← hid, bindText_generateToken]
      exact .loggedIn hrow hverify
  | restart salt salt' =>
    obtain ⟨db, users, heq, hcreations, hfunded⟩ :=
      @main_creations sodium m salt salt' x.server.db x.users
    rw [Option.some.inj h] at heq hcreations hfunded
    have heq : x' = ⟨.start m db, users⟩ := heq
    rw [heq]
    exact .restarted hcreations hfunded
  | killedInRegister salt username password role writes =>
    obtain ⟨rfl, rfl⟩ := Prod.mk.inj (Option.some.inj h)
    exact .killed id (registerCut_creations salt username password role writes)
  | killedInMain salt salt' writes =>
    obtain ⟨rfl, rfl⟩ := Prod.mk.inj (Option.some.inj h)
    exact .killed id (mainCut_creations salt salt' writes x.server.db x.users)

end Exchange

/-! ### Sound accounts -/

section Tables

variable {db : Database} {u v n : Int} {companies : List Nat}

lemma registered_initBal : (db.initBal v).Registered u ↔ u = v ∨ db.Registered u := by
  simp only [Database.Registered, Database.initBal]
  by_cases h : u = v
  · subst h
    simp
  · simp [h]

lemma balance_createSess {a : Asset} {token : String} :
    a.balance (db.createSess token v n) u = a.balance db u := by
  cases a <;> rfl

@[simp] lemma sessions_initBal : (db.initBal v).sessions = db.sessions := rfl

@[simp] lemma balances_grantAll :
    (Exchange.grantAll v companies db).balances = db.balances := by
  induction companies generalizing db with
  | nil => rfl
  | cons c companies ih => exact ih

@[simp] lemma sessions_grantAll :
    (Exchange.grantAll v companies db).sessions = db.sessions := by
  induction companies generalizing db with
  | nil => rfl
  | cons c companies ih => exact ih

lemma registered_grantAll : (Exchange.grantAll v companies db).Registered u ↔ db.Registered u := by
  rw [Database.Registered, balances_grantAll]
  rfl

lemma registered_gift {id : Option Int} :
    (Exchange.gift db id).Registered u ↔ db.Registered u := by
  cases id with
  | some v =>
    simp only [Exchange.gift, Database.settleTrade]
    exact Database.registered_settleTrade
  | none => exact Iff.rfl

@[simp] lemma sessions_gift {id : Option Int} : (Exchange.gift db id).sessions = db.sessions := by
  cases id with
  | some v => rfl
  | none => rfl

lemma registered_giftCut {id : Option Int} {writes : Nat} :
    (Exchange.giftCut db id writes).Registered u ↔ db.Registered u := by
  match id, writes with
  | _, 0 => exact Iff.rfl
  | none, 1 => exact Iff.rfl
  | some _, 1 => exact Iff.rfl
  | _, _ + 2 => exact registered_gift

@[simp] lemma sessions_giftCut {id : Option Int} {writes : Nat} :
    (Exchange.giftCut db id writes).sessions = db.sessions := by
  match id, writes with
  | _, 0 => rfl
  | none, 1 => rfl
  | some _, 1 => rfl
  | _, _ + 2 => exact sessions_gift

end Tables

/-- Users are numbered upwards in the order of their registration, under different names; a wallet
belongs to one of them, and so does a session. -/
structure Users.Kept (users : Users) (db : Database) : Prop where
  increasing : (users.rows.map UserRow.id).Pairwise (· < ·)
  positive : ∀ u ∈ users.ids, 0 < u
  lastId : 0 ≤ users.lastId
  le_lastId : ∀ u ∈ users.ids, u ≤ users.lastId
  usernames : (users.rows.map UserRow.username).Nodup
  owner : ∀ u, db.Registered u → u ∈ users.ids
  sessions : db.Sessions users.ids

/-- Besides, each of them has a wallet. -/
structure Users.Sound (users : Users) (db : Database) : Prop extends Users.Kept users db where
  funded : ∀ u ∈ users.ids, db.Registered u

namespace Users.Kept

variable {users users' : Users} {db db' : Database} {row : UserRow} {u : Int} {token : String}

lemma lt_nextId (h : users.Kept db) (hu : u ∈ users.ids) : u < users.nextId := by
  have hle := h.le_lastId u hu
  rw [nextId]
  omega

/-- The id of a user added is new. -/
lemma id_notMem (h : users.Kept db) (hadded : users.Added row users') : row.id ∉ users.ids := by
  intro hmem
  have hlt := h.lt_nextId hmem
  rw [← hadded.id] at hlt
  exact lt_irrefl _ hlt

/-- What gives nobody a wallet and leaves the sessions in place. -/
lemma congr (h : users.Kept db) (hwallets : ∀ u, db'.Registered u → db.Registered u)
    (hsessions : db'.sessions = db.sessions) : users.Kept db' where
  increasing := h.increasing
  positive := h.positive
  lastId := h.lastId
  le_lastId := h.le_lastId
  usernames := h.usernames
  owner u hu := h.owner u (hwallets u hu)
  sessions token row hrow := h.sessions token row (hsessions ▸ hrow)

/-- A user is added; he may have a wallet now. -/
lemma added (h : users.Kept db) (hadded : users.Added row users')
    (hwallets : ∀ u, db'.Registered u → u = row.id ∨ db.Registered u)
    (hsessions : db'.sessions = db.sessions) : users'.Kept db' where
  increasing := by
    rw [hadded.rows_eq, List.map_append, List.map_singleton, List.pairwise_append]
    refine ⟨h.increasing, List.pairwise_singleton _ _, ?_⟩
    intro u hu v hv
    rw [List.mem_singleton.mp hv, hadded.id]
    exact h.lt_nextId (List.mem_toFinset.mpr hu)
  positive u hu := by
    rw [hadded.ids_eq, Finset.mem_insert] at hu
    rcases hu with rfl | hu
    · have hlast := h.lastId
      rw [hadded.id, nextId]
      omega
    · exact h.positive u hu
  lastId := by
    have hlast := h.lastId
    have hid : users'.lastId = users.nextId := by rw [hadded.eq, ← hadded.id]; rfl
    rw [hid, nextId]
    omega
  le_lastId u hu := by
    have hid : users'.lastId = row.id := by rw [hadded.eq]; rfl
    rw [hadded.ids_eq, Finset.mem_insert] at hu
    rw [hid]
    rcases hu with rfl | hu
    · exact le_rfl
    · rw [hadded.id]
      exact (h.lt_nextId hu).le
  usernames := by
    rw [hadded.rows_eq, List.map_append, List.map_singleton, List.nodup_append]
    refine ⟨h.usernames, List.nodup_singleton _, ?_⟩
    intro a ha b hb
    obtain ⟨r, hr, rfl⟩ := List.mem_map.mp ha
    rw [List.mem_singleton.mp hb]
    exact hadded.new r hr
  owner u hu := by
    rw [hadded.ids_eq, Finset.mem_insert]
    exact (hwallets u hu).imp id (h.owner u)
  sessions token r hr := by
    rw [hadded.ids_eq]
    exact Finset.mem_insert_of_mem (h.sessions token r (hsessions ▸ hr))

lemma creation {sodium : Sodium} {username password : String} {id : Option (Int × Bool)}
    (h : users.Kept db)
    (hcreation : Creation sodium username password db users (db', users', id)) :
    users'.Kept db' := by
  cases hcreation with
  | nothing => exact h
  | orphaned _ hadded => exact h.added hadded (fun _ => Or.inr) rfl
  | funded _ hadded => exact h.added hadded (fun _ => registered_initBal.mp) rfl

/-- **Accounts created** keep the others. -/
lemma creations {sodium : Sodium} {log : List Exchange.Entry} (h : users.Kept db)
    (hcreations : Creations sodium db users db' users' log) : users'.Kept db' := by
  cases hcreations with
  | nothing => exact h
  | registered companies hcreation =>
    exact (h.creation hcreation).congr (fun _ => registered_grantAll.mp) sessions_grantAll
  | main writes hshrey hakshay =>
    exact ((h.creation hshrey).creation hakshay).congr (fun _ => registered_giftCut.mp)
      sessions_giftCut

lemma createSess (h : users.Kept db) (hu : u ∈ users.ids) (expiresAt : Int) :
    users.Kept (db.createSess token u expiresAt) where
  increasing := h.increasing
  positive := h.positive
  lastId := h.lastId
  le_lastId := h.le_lastId
  usernames := h.usernames
  owner := h.owner
  sessions t r hr := by
    by_cases ht : t = token
    · subst ht
      cases hold : db.sessions t with
      | none =>
        have hr : (⟨u, expiresAt⟩ : SessionRow) = r := by
          simpa [Database.createSess, hold] using hr
        rwa [← hr]
      | some old =>
        have hr : old = r := by simpa [Database.createSess, hold] using hr
        exact hr ▸ h.sessions t old hold
    · apply h.sessions t r
      simpa [Database.createSess, ht] using hr

end Users.Kept

namespace Users.Sound

variable {users users' : Users} {db db' : Database} {row : UserRow} {u : Int} {token : String}

lemma empty {clock : Nat → Int} {skips : Nat → Nat} :
    Users.Sound ⟨[], 0, skips⟩ ⟨fun _ => none, fun _ _ => none, fun _ => none, [], clock⟩ where
  increasing := List.Pairwise.nil
  positive u hu := by simp [Users.ids] at hu
  lastId := le_rfl
  le_lastId u hu := by simp [Users.ids] at hu
  usernames := List.nodup_nil
  owner u hu := by simp [Database.Registered] at hu
  sessions token row h := by cases h
  funded u hu := by simp [Users.ids] at hu

lemma wallets (h : users.Sound db) (u : Int) : db.Registered u ↔ u ∈ users.ids :=
  ⟨h.owner u, h.funded u⟩

lemma pos (h : users.Sound db) : ∀ u ∈ users.ids, 0 < u := h.positive

/-- What leaves wallets and sessions in place. -/
lemma congr (h : users.Sound db) (hwallets : ∀ u, db'.Registered u ↔ db.Registered u)
    (hsessions : db'.sessions = db.sessions) : users.Sound db' :=
  ⟨h.toKept.congr (fun u => (hwallets u).mp) hsessions,
    fun u hu => (hwallets u).mpr (h.funded u hu)⟩

lemma added (h : users.Sound db) (hadded : users.Added row users') :
    users'.Sound (db.initBal row.id) := by
  refine ⟨h.toKept.added hadded (fun u => registered_initBal.mp) rfl, fun u hu => ?_⟩
  rw [hadded.ids_eq, Finset.mem_insert] at hu
  exact registered_initBal.mpr (hu.imp id (h.funded u))

lemma createSess (h : users.Sound db) (hu : u ∈ users.ids) (expiresAt : Int) :
    users.Sound (db.createSess token u expiresAt) :=
  ⟨h.toKept.createSess hu expiresAt, h.funded⟩

end Users.Sound

lemma Server.sessions_step {s s' : Server} {e : Server.Event} {fills : List Trade}
    {pushed : List DbTask} (h : s.step e = some (s', fills, pushed)) :
    s'.db.sessions = s.db.sessions := by
  cases Server.step_steps h with
  | handled hmsg => cases hmsg <;> rfl
  | batch => exact sessions_batch _
  | _ => rfl

/-! ### New accounts -/

/-- Accounts are added as the log says, and those that are not orphaned have a wallet. -/
structure Users.Grows (users : Users) (db : Database) (users' : Users) (db' : Database)
    (log : List Exchange.Entry) : Prop where
  rows : users'.rows.map UserRow.id
    = users.rows.map UserRow.id ++ (Exchange.Entry.accounts log).map Created.userId
  fresh : ∀ u ∈ (Exchange.Entry.accounts log).map Created.userId, u ∉ users.ids
  orphans : Exchange.Entry.orphans log ⊆ (Exchange.Entry.accounts log).map Created.userId
  wallets : ∀ u, db'.Registered u ↔ db.Registered u ∨
    u ∈ (Exchange.Entry.accounts log).map Created.userId ∧ u ∉ Exchange.Entry.orphans log

namespace Users.Grows

variable {sodium : Sodium} {users users₁ users₂ users' : Users} {db db₁ db₂ db' : Database}
  {log log₁ log₂ : List Exchange.Entry} {row : UserRow} {u : Int} {username password : String}
  {id : Option (Int × Bool)}

lemma mem_ids (h : users.Grows db users' db' log) :
    u ∈ users'.ids ↔ u ∈ users.ids ∨ u ∈ (Exchange.Entry.accounts log).map Created.userId := by
  rw [ids, List.mem_toFinset, h.rows, List.mem_append, ids, List.mem_toFinset]

/-- No account is added. -/
lemma none (haccounts : Exchange.Entry.accounts log = [])
    (horphans : Exchange.Entry.orphans log = [])
    (hwallets : ∀ u, db'.Registered u ↔ db.Registered u) : users.Grows db users db' log where
  rows := by simp [haccounts]
  fresh u hu := by simp [haccounts] at hu
  orphans u hu := by simp [horphans] at hu
  wallets u := by simp [haccounts, hwallets]

lemma congr (h : users.Grows db users' db' log)
    (hwallets : ∀ u, db₂.Registered u ↔ db'.Registered u) : users.Grows db users' db₂ log :=
  ⟨h.rows, h.fresh, h.orphans, fun u => (hwallets u).trans (h.wallets u)⟩

lemma creation (h : users.Kept db) (shares : List (Nat × Nat))
    (hcreation : Creation sodium username password db users (db', users', id)) :
    users.Grows db users' db' (Exchange.createdEntry password shares id) := by
  cases hcreation with
  | nothing => exact none rfl rfl fun _ => Iff.rfl
  | @orphaned salt role row _ hfrom hadded =>
    refine ⟨by simp [hadded.rows_eq, Exchange.createdEntry, Exchange.Entry.accounts],
      fun u hu => ?_, by simp [Exchange.createdEntry, Exchange.Entry.accounts,
        Exchange.Entry.orphans],
      by simp [Exchange.createdEntry, Exchange.Entry.accounts, Exchange.Entry.orphans]⟩
    obtain rfl : u = row.id := by simpa [Exchange.createdEntry, Exchange.Entry.accounts] using hu
    exact h.id_notMem hadded
  | @funded salt role row _ hfrom hadded =>
    refine ⟨by simp [hadded.rows_eq, Exchange.createdEntry, Exchange.Entry.accounts],
      fun u hu => ?_, by simp [Exchange.createdEntry, Exchange.Entry.orphans],
      by simp [registered_initBal, Exchange.createdEntry, Exchange.Entry.accounts,
        Exchange.Entry.orphans, or_comm]⟩
    obtain rfl : u = row.id := by simpa [Exchange.createdEntry, Exchange.Entry.accounts] using hu
    exact h.id_notMem hadded

lemma trans (h₁ : users.Grows db users₁ db₁ log₁) (h₂ : users₁.Grows db₁ users₂ db₂ log₂) :
    users.Grows db users₂ db₂ (log₁ ++ log₂) where
  rows := by
    rw [h₂.rows, h₁.rows, Exchange.Entry.accounts_append, List.map_append, List.append_assoc]
  fresh u hu := by
    rw [Exchange.Entry.accounts_append, List.map_append, List.mem_append] at hu
    rcases hu with hu | hu
    · exact h₁.fresh u hu
    · exact fun hmem => h₂.fresh u hu (h₁.mem_ids.mpr (Or.inl hmem))
  orphans u hu := by
    rw [Exchange.Entry.orphans_append, List.mem_append] at hu
    rw [Exchange.Entry.accounts_append, List.map_append, List.mem_append]
    exact hu.imp (fun hu => h₁.orphans hu) fun hu => h₂.orphans hu
  wallets u := by
    -- whoever is new in one part is not in the other
    have hapart : u ∈ (Exchange.Entry.accounts log₁).map Created.userId →
        u ∉ (Exchange.Entry.accounts log₂).map Created.userId := fun h₁u h₂u =>
      h₂.fresh u h₂u (h₁.mem_ids.mpr (Or.inr h₁u))
    have horphan₁ := @h₁.orphans u
    have horphan₂ := @h₂.orphans u
    rw [h₂.wallets, h₁.wallets, Exchange.Entry.accounts_append, List.map_append, List.mem_append,
      Exchange.Entry.orphans_append, List.mem_append]
    tauto

/-- If nobody is orphaned, sound accounts stay so. -/
lemma sound (h : users.Grows db users' db' log) (hsound : users.Sound db) (hkept : users'.Kept db')
    (hfunded : Exchange.Entry.orphans log = []) : users'.Sound db' := by
  refine ⟨hkept, fun u hu => (h.wallets u).mpr ?_⟩
  rw [hfunded]
  exact (h.mem_ids.mp hu).imp (hsound.funded u) fun hnew => ⟨hnew, List.not_mem_nil⟩

/-- **Accounts created** are the new ones. -/
lemma creations (h : users.Kept db) (hcreations : Creations sodium db users db' users' log) :
    users.Grows db users' db' log := by
  cases hcreations with
  | nothing => exact none rfl rfl fun _ => Iff.rfl
  | registered companies hcreation =>
    exact (creation h _ hcreation).congr fun _ => registered_grantAll
  | main writes hshrey hakshay =>
    exact ((creation h _ hshrey).trans (creation (h.creation hshrey) _ hakshay)).congr
      fun _ => registered_giftCut

end Users.Grows

namespace Exchange

variable {sodium : Sodium} {m : MarketState} {chance : Chance}
  {allowed : Exchange → Event → Prop} {x₀ x x' : Exchange} {e : Event} {log : List Entry}

/-- The accounts are kept. -/
def Kept (x : Exchange) : Prop := x.users.Kept x.server.db

/-- The accounts are sound. -/
def Sound (x : Exchange) : Prop := x.users.Sound x.server.db

lemma sound_blank : (blank m chance).Sound := Users.Sound.empty

/-- **One step** keeps the accounts. -/
theorem Kept.step (h : x.Kept) (hstep : step sodium m x e = some (x', log)) : x'.Kept := by
  cases step_steps hstep with
  | server hserver =>
    exact h.congr (fun _ => (Server.registered_step hserver).mp) (Server.sessions_step hserver)
  | refused => exact h
  | registered _ hadded =>
    exact h.added hadded (fun _ hu => registered_initBal.mp (registered_grantAll.mp hu))
      sessions_grantAll
  | loggedIn hrow => exact h.createSess (Users.id_mem_of_named hrow) _
  | restarted hcreations => exact h.creations hcreations
  | killed _ hcreations => exact h.creations hcreations

/-- **One step** keeps the accounts sound, if it does not kill the process halfway. -/
theorem Sound.step (h : x.Sound) (hwhole : x.Whole e) (hstep : step sodium m x e = some (x', log)) :
    x'.Sound := by
  cases step_steps hstep with
  | server hserver =>
    exact h.congr (fun _ => Server.registered_step hserver) (Server.sessions_step hserver)
  | refused => exact h
  | registered _ hadded =>
    exact (h.added hadded).congr (fun _ => registered_grantAll) sessions_grantAll
  | loggedIn hrow => exact h.createSess (Users.id_mem_of_named hrow) _
  | restarted hcreations hfunded =>
    exact (Users.Grows.creations h.toKept hcreations).sound h (h.toKept.creations hcreations) hfunded
  | killed hnot => exact absurd hwhole hnot

lemma Run.sound (h₀ : x₀.Sound) (h : Run sodium m Whole x₀ x log) : x.Sound := by
  refine h.invariant (P := fun x _ => x.Sound) h₀ ?_
  intro x x' e log log' hsound hwhole hstep
  exact hsound.step hwhole hstep

/-- The log names the users in the order of their rows. -/
lemma grows_step (h : x.Kept) (hstep : step sodium m x e = some (x', log)) :
    x.users.Grows x.server.db x'.users x'.server.db log := by
  cases step_steps hstep with
  | server hserver =>
    exact .none (by simp) (by simp) fun _ => Server.registered_step hserver
  | refused => exact .none rfl rfl fun _ => Iff.rfl
  | registered hfrom hadded =>
    exact .creations h (.registered x.server.market.companies (.funded hfrom hadded))
  | loggedIn => exact .none rfl rfl fun _ => Iff.rfl
  | restarted hcreations => exact .creations h hcreations
  | killed _ hcreations => exact .creations h hcreations

lemma Run.kept_grows (h₀ : x₀.Kept) (h : Run sodium m allowed x₀ x log) :
    x.Kept ∧ x₀.users.Grows x₀.server.db x.users x.server.db log := by
  refine h.invariant (P := fun x log => x.Kept ∧
    x₀.users.Grows x₀.server.db x.users x.server.db log)
    ⟨h₀, .none rfl rfl fun _ => Iff.rfl⟩ ?_
  intro x x' e log log' ⟨hkept, hgrows⟩ _ hstep
  exact ⟨hkept.step hstep, hgrows.trans (grows_step hkept hstep)⟩

lemma Run.ids_subset (h₀ : x₀.Kept) (h : Run sodium m allowed x₀ x log) :
    x₀.users.ids ⊆ x.users.ids :=
  fun _ hu => (h.kept_grows h₀).2.mem_ids.mpr (Or.inl hu)

/-- **The accounts**, in every run from an empty database, also if the process is killed between two
statements of a registration or of `main`: the rows of `users` are those created, in that order and
with growing numbers; no two have one name; each user has a wallet but those whose registration was
cut off, nobody else has one, and nobody else has a session. -/
theorem accounts_sound (h : Run sodium m (fun _ _ => True) (blank m chance) x log) :
    x.users.rows.map UserRow.id = (Entry.accounts log).map Created.userId ∧
      x.users.Kept x.server.db ∧
      ∀ u, x.server.db.Registered u ↔ u ∈ x.users.ids ∧ u ∉ Entry.orphans log := by
  obtain ⟨hkept, hgrows⟩ := h.kept_grows sound_blank.toKept
  refine ⟨hgrows.rows, hkept, fun u => ?_⟩
  have hids : u ∈ x.users.ids ↔ u ∈ (Entry.accounts log).map Created.userId := by
    rw [hgrows.mem_ids]
    exact or_iff_right (by simp [blank, Users.ids])
  rw [hgrows.wallets, hids]
  exact or_iff_right (by simp [blank, Server.start, Database.Registered])

/-- A number of few digits for each password. -/
def checksum (password : String) : Nat :=
  password.toList.foldl (fun n c => (257 * n + c.toNat) % 2 ^ 32) 0

/-- Hashes of bounded length, without salt. -/
def sampleSodium : Sodium where
  pwhashStr _ password := some (toString (checksum password))
  pwhashStrVerify hash password := hash = toString (checksum password)

/-- `shrey` logs in; the process is killed while somebody registers, and started again. -/
def sampleLogin : List Event :=
  [.restart 0 0, .login (fun _ => 0) 5 "shrey" "pass123",
    .killedInRegister 0 "newcomer" "secret" "trader" 1, .restart 0 0]

theorem accounts_sound_sampleLogin : ∃ x log,
    Run sampleSodium Server.sampleMarket (fun _ _ => True) sampleBlank x log ∧
      x.users.rows.map UserRow.id = [1, 2, 3] ∧
      ∀ u, x.server.db.Registered u ↔ u ∈ x.users.ids ∧ u ≠ 3 := by
  obtain ⟨⟨x, log⟩, hrun, hlength⟩ := Option.map_eq_some_iff.mp
    (by decide +kernel : (Transition.runEvents (step sampleSodium Server.sampleMarket)
      (fun _ _ => True) sampleBlank sampleLogin).map
        (fun r => (r.1.users.rows.map UserRow.id, Entry.orphans r.2)) = some ([1, 2, 3], [3]))
  have h := Transition.run_of_runEvents hrun
  obtain ⟨hrows, horphans⟩ := Prod.mk.inj hlength
  refine ⟨x, log, h, hrows, fun u => ?_⟩
  rw [(accounts_sound h).2.2, horphans, List.mem_singleton]

end Exchange

end ExchangeEngine
