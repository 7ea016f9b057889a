import ExchangeEngine.Library.Except
import ExchangeEngine.Library.Transition
import ExchangeEngine.Server.Settlement

/-!
# Accounts

Registration and login: the table `users` of `Database.h` with its statements, the two handlers of
`Server.h`, and what `main` does before it starts the server. The process may be started again on
the database that an earlier one has left. It may also be killed between two statements of a
registration or of `main`, each of which SQLite commits by itself.
-/

namespace ExchangeEngine

/-- What is used of libsodium. Hashing draws a salt and may fail. -/
structure Sodium where
  pwhashStr : Nat → String → Option String
  pwhashStrVerify : String → String → Bool

/-! ### The table `users` -/

/-- A row of `users`, without the time of its creation. -/
structure UserRow where
  id : Int
  username : String
  passwordHash : String
  role : String
deriving DecidableEq

/-- The rows, and the greatest id that `AUTOINCREMENT` has given to one of them. It may leave out
ids: `skips n` of them before row `n`. -/
structure Users where
  rows : List UserRow
  lastId : Int
  skips : Nat → Nat

namespace Users

variable (users : Users)

/-- `SELECT id, password_hash FROM users WHERE username = ?` -/
def named (username : String) : Option UserRow :=
  users.rows.find? fun row => row.username = username

/-- The id of the next row. -/
def nextId : Int := users.lastId + 1 + users.skips users.rows.length

/-- `INSERT INTO users (username, password_hash, role, created_at) VALUES (?, ?, ?, ?)` -/
def insert (row : UserRow) : Users :=
  { users with rows := users.rows ++ [row], lastId := row.id }

end Users

namespace Database

variable (db : Database)

/-! ### The operations -/

/-- No id is given beyond the greatest row id. -/
def maxRowId : Int := 2 ^ 63 - 1

/-- The row that `create_user` inserts, or why it inserts none. -/
def newUser (sodium : Sodium) (salt : Nat) (username password role : String) (users : Users) :
    Except String UserRow :=
  match sodium.pwhashStr salt password with
  | none => .error "Password hashing failed"
  | some hash =>
    if maxRowId < users.nextId then .error "DB error: database or disk is full"
    else if users.rows.any fun row => row.username = bindText username then
      .error "Username already taken"
    else .ok ⟨users.nextId, bindText username, bindText hash, bindText role⟩

def createUser (sodium : Sodium) (salt : Nat) (username password role : String) (users : Users) :
    Except String (Database × Users × Int) := do
  let row ← newUser sodium salt username password role users
  return (db.initBal row.id, users.insert row, row.id)

def tokenChars : List Char :=
  "abcdefghijklmnopqrstuvwxyzABCDEFGHIJKLMNOPQRSTUVWXYZ0123456789".toList

/-- `generate_token`, from the random bytes. -/
def generateToken (raw : Fin 32 → UInt8) : String :=
  String.ofList (List.ofFn fun i => tokenChars.getD ((raw i).toNat % 62) ' ')

/-- The token is returned even if its row could not be inserted. -/
def login (sodium : Sodium) (raw : Fin 32 → UInt8) (now : Int) (username password : String)
    (users : Users) : Except String (Database × String × Int) :=
  match users.named (bindText username) with
  | none => .error "Invalid username or password"
  | some row =>
    if sodium.pwhashStrVerify row.passwordHash password then
      let token := generateToken raw
      .ok (db.createSess (bindText token) row.id (now + 86400), token, row.id)
    else .error "Invalid username or password"

def grantShares (userId : Int) (companyId quantity : Nat) : Database :=
  db.releaseSharesUnlocked userId companyId quantity

/-- `settle_trade`, where no limit stands for the price itself. -/
def settleTrade (buyerId sellerId : Int) (companyId quantity price buyerLimitPrice : Nat) :
    Database :=
  db.settleTradeUnlocked buyerId sellerId companyId quantity price
    (if buyerLimitPrice = 0 then price else buyerLimitPrice)

end Database

/-! ### The exchange -/

/-- What is left to the machine and to SQLite: the times of the trades, and the ids of users that
are left out. -/
structure Chance where
  clock : Nat → Int
  skips : Nat → Nat

/-- The server together with the table `users`. -/
structure Exchange where
  server : Server
  users : Users

/-- An account created, with the password given. -/
structure Created where
  userId : Int
  password : String
deriving DecidableEq

/-- What comes with an account: a wallet, unless the process was killed before it was made, and
shares of companies. -/
structure Endowment where
  wallet : Bool
  shares : List (Nat × Nat)
deriving DecidableEq

/-- A login: the token handed out, to whom and when, and the password given. -/
structure Grant where
  token : String
  userId : Int
  time : Int
  password : String
deriving DecidableEq

/-- What happened. -/
inductive Exchange.Entry
  | fill (t : Trade)
  | created (account : Created) (endowment : Endowment)
  | granted (grant : Grant)

namespace Exchange.Entry

def fills (log : List Entry) : List Trade :=
  log.filterMap fun
    | .fill t => some t
    | _ => none

def accounts (log : List Entry) : List Created :=
  log.filterMap fun
    | .created account _ => some account
    | _ => none

def endowments (log : List Entry) : List Endowment :=
  log.filterMap fun
    | .created _ endowment => some endowment
    | _ => none

def grants (log : List Entry) : List Grant :=
  log.filterMap fun
    | .granted grant => some grant
    | _ => none

/-- The users who were left without a wallet. -/
def orphans (log : List Entry) : List Int :=
  log.filterMap fun
    | .created account endowment => if endowment.wallet then none else some account.userId
    | _ => none

/-- The passwords of the accounts and of the logins. -/
def passwords (log : List Entry) : List String :=
  (accounts log).map Created.password ++ (grants log).map Grant.password

variable (log log' : List Entry) (ts : List Trade)

@[simp] lemma fills_append : fills (log ++ log') = fills log ++ fills log' :=
  List.filterMap_append

@[simp] lemma accounts_append : accounts (log ++ log') = accounts log ++ accounts log' :=
  List.filterMap_append

@[simp] lemma endowments_append : endowments (log ++ log') = endowments log ++ endowments log' :=
  List.filterMap_append

@[simp] lemma grants_append : grants (log ++ log') = grants log ++ grants log' :=
  List.filterMap_append

@[simp] lemma orphans_append : orphans (log ++ log') = orphans log ++ orphans log' :=
  List.filterMap_append

@[simp] lemma fills_map_fill : fills (ts.map fill) = ts := by simp [fills]

@[simp] lemma accounts_map_fill : accounts (ts.map fill) = [] := by simp [accounts]

@[simp] lemma endowments_map_fill : endowments (ts.map fill) = [] := by simp [endowments]

@[simp] lemma grants_map_fill : grants (ts.map fill) = [] := by simp [grants]

@[simp] lemma orphans_map_fill : orphans (ts.map fill) = [] := by simp [orphans]

end Exchange.Entry

namespace Exchange

variable (sodium : Sodium) (x : Exchange)

/-- The starter portfolio: 100 shares of every listed company. -/
def grantAll (userId : Int) (companies : List Nat) (db : Database) : Database :=
  companies.foldl (fun db companyId => db.grantShares userId companyId 100) db

def starterShares (companies : List Nat) : List (Nat × Nat) :=
  companies.map fun companyId => (companyId, 100)

/-- The entry about a user, if one was created, with or without a wallet. -/
def createdEntry (password : String) (shares : List (Nat × Nat)) :
    Option (Int × Bool) → List Entry
  | some (id, wallet) => [.created ⟨id, password⟩ ⟨wallet, shares⟩]
  | none => []

/-- Does `handle_register` turn the texts down? -/
def turnsDown (username password : String) : Bool :=
  username.isEmpty || password.isEmpty || password.utf8ByteSize < 6

/-- `handle_register`, with the id of the new user. -/
def handleRegister (salt : Nat) (username password role : String) :
    Except String (Exchange × Int) :=
  if turnsDown username password then .error "Valid username and 6+ char password required"
  else do
    let (db, users, id) ← x.server.db.createUser sodium salt username password role x.users
    return ({ server := { x.server with db := grantAll id x.server.market.companies db }
              users := users }, id)

/-- `handle_login`, with the token and the id of the user. -/
def handleLogin (raw : Fin 32 → UInt8) (now : Int) (username password : String) :
    Except String (Exchange × String × Int) := do
  let (db, token, id) ← x.server.db.login sodium raw now username password x.users
  return ({ x with server := { x.server with db := db } }, token, id)

/-- `create_user` in `main`: a failure is ignored. -/
def createDefault (salt : Nat) (username : String) (db : Database) (users : Users) :
    Database × Users × Option Int :=
  match db.createUser sodium salt username "pass123" "trader" users with
  | .ok (db, users, id) => (db, users, some id)
  | .error _ => (db, users, none)

/-- 500 shares for the first account of `main`, if that is new. -/
def gift (db : Database) : Option Int → Database
  | some id => db.settleTrade id id 1 500 0 0
  | none => db

/-- `main`, on the database that it finds, and the accounts it creates. -/
def main (m : MarketState) (salt salt' : Nat) (db : Database) (users : Users) :
    Exchange × List Entry :=
  let (db, users, shrey) := createDefault sodium salt "shrey" db users
  let (db, users, akshay) := createDefault sodium salt' "akshay" db users
  (⟨.start m (gift db shrey), users⟩,
    createdEntry "pass123" [(1, 500)] (shrey.map fun id => (id, true))
      ++ createdEntry "pass123" [] (akshay.map fun id => (id, true)))

/-! ### Kills -/

/-- `create_user`, cut off after so many statements: the tables, the user and whether there is a
wallet, and how many statements are left for what follows. -/
def createCut (salt : Nat) (username password role : String) (writes : Nat) (db : Database)
    (users : Users) : Database × Users × Option (Int × Bool) × Nat :=
  match Database.newUser sodium salt username password role users, writes with
  | .error _, writes => (db, users, none, writes)
  | .ok _, 0 => (db, users, none, 0)
  | .ok row, 1 => (db, users.insert row, some (row.id, false), 0)
  | .ok row, writes + 2 => (db.initBal row.id, users.insert row, some (row.id, true), writes)

/-- `handle_register`, cut off. -/
def registerCut (salt : Nat) (username password role : String) (writes : Nat) :
    Database × Users × List Entry :=
  if turnsDown username password then (x.server.db, x.users, [])
  else
    match createCut sodium salt username password role writes x.server.db x.users with
    | (db, users, some (id, wallet), writes) =>
      let companies := x.server.market.companies.take writes
      (grantAll id companies db, users,
        createdEntry password (starterShares companies) (some (id, wallet)))
    | (db, users, none, _) => (db, users, [])

/-- The gift of `main`, cut off. -/
def giftCut (db : Database) (id : Option Int) : Nat → Database
  | 0 => db
  | 1 => (id.map fun id => db.settleShares id 1 500).getD db
  | _ => gift db id

def giftShares : Nat → List (Nat × Nat)
  | 0 => []
  | _ => [(1, 500)]

/-- `main`, cut off. -/
def mainCut (salt salt' : Nat) (writes : Nat) (db : Database) (users : Users) :
    Database × Users × List Entry :=
  let (db, users, shrey, writes) :=
    createCut sodium salt "shrey" "pass123" "trader" writes db users
  let (db, users, akshay, writes) :=
    createCut sodium salt' "akshay" "pass123" "trader" writes db users
  (giftCut db (shrey.map Prod.fst) writes, users,
    createdEntry "pass123" (giftShares writes) shrey ++ createdEntry "pass123" [] akshay)

inductive Event
  | server (e : Server.Event)
  | register (salt : Nat) (username password role : String)
  | login (raw : Fin 32 → UInt8) (now : Int) (username password : String)
  /-- the process is killed between two events, and started again -/
  | restart (salt salt' : Nat)
  /-- it is killed during a registration, after so many statements -/
  | killedInRegister (salt : Nat) (username password role : String) (writes : Nat)
  /-- it is killed in `main` -/
  | killedInMain (salt salt' : Nat) (writes : Nat)

/-- The exchange after an event, and what happened. A killed process has lost what it had in memory.
That it does nothing before it is started again is not required: a run may go on without. -/
def step (m : MarketState) (x : Exchange) : Event → Option (Exchange × List Entry)
  | .server e => (x.server.step e).map fun r => ({ x with server := r.1 }, r.2.1.map .fill)
  | .register salt username password role =>
    match x.handleRegister sodium salt username password role with
    | .ok (x', id) => some (x', createdEntry password (starterShares x.server.market.companies)
        (some (id, true)))
    | .error _ => some (x, [])
  | .login raw now username password =>
    match x.handleLogin sodium raw now username password with
    | .ok (x', token, id) => some (x', [.granted ⟨token, id, now, password⟩])
    | .error _ => some (x, [])
  | .restart salt salt' => some (main sodium m salt salt' x.server.db x.users)
  | .killedInRegister salt username password role writes =>
    let (db, users, log) := x.registerCut sodium salt username password role writes
    some (⟨.start m db, users⟩, log)
  | .killedInMain salt salt' writes =>
    let (db, users, log) := mainCut sodium salt salt' writes x.server.db x.users
    some (⟨.start m db, users⟩, log)

/-- Events between which the process may be killed, but not within. -/
def Whole (_ : Exchange) : Event → Prop
  | .killedInRegister _ _ _ _ _ => False
  | .killedInMain _ _ _ => False
  | _ => True

/-- From `x₀`, by events that are allowed where they happen, the exchange reaches a state. -/
abbrev Run (m : MarketState) (allowed : Exchange → Event → Prop) (x₀ : Exchange) :
    Exchange → List Entry → Prop :=
  Transition.Run (step sodium m) allowed x₀

/-- Nothing has ever been stored. -/
def blank (m : MarketState) (chance : Chance) : Exchange :=
  ⟨.start m ⟨fun _ => none, fun _ _ => none, fun _ => none, [], chance.clock⟩,
    ⟨[], 0, chance.skips⟩⟩

/-- A small exchange without a past. -/
def sampleBlank : Exchange := blank Server.sampleMarket ⟨fun _ => 0, fun _ => 0⟩

end Exchange

end ExchangeEngine
