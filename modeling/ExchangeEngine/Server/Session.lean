import ExchangeEngine.GameManager.Basic
import ExchangeEngine.Server.Basic

/-!
# Sessions

`Session::handle_message` of `Server.h`: the text that a client sends is parsed, and its type says
what is done with it. An exception ends the handling of the message; what was done before stays.
-/

namespace ExchangeEngine

/-! ### The JSON library -/

/-- What is used of the JSON library; an error is an exception. -/
structure JsonLib (J : Type) where
  parse : String → Except String J
  isObject : J → Bool
  /-- The value under a key. -/
  find : J → String → Option J
  getString : J → Except String String
  getBool : J → Except String Bool
  getDouble : J → Except String ℚ
  getInt64 : J → Except String Int
  getUInt16 : J → Except String Nat
  getUInt32 : J → Except String Nat
  getUInt64 : J → Except String Nat

namespace JsonLib

variable {J α : Type} (json : JsonLib J) (msg : J) (key : String)

def contains : Bool := (json.find msg key).isSome

/-- `msg.value(key, default)` -/
def value (get : J → Except String α) (default : α) : Except String α :=
  match json.find msg key with
  | some v => get v
  | none => .ok default

/-- `msg[key].get<T>()`, where the key is there. -/
def get (get : J → Except String α) : Except String α :=
  match json.find msg key with
  | some v => get v
  | none => .error "type must not be null"

/-- `msg[key] == text`: a value that is no text equals none. -/
def equals (text : String) : Bool :=
  match json.find msg key with
  | some v => (json.getString v).toOption == some text
  | none => false

end JsonLib

/-- Documents with texts and numbers. -/
inductive Doc
  | text (s : String)
  | number (i : Nat)
  | object (fields : List (String × Doc))

def Doc.getNumber : Doc → Except String Nat
  | .number i => .ok i
  | .text _ => .error "type must be number"
  | .object _ => .error "type must be number"

/-- A library that knows some texts. -/
def docLib (texts : List (String × Doc)) : JsonLib Doc where
  parse raw := match texts.lookup raw with
    | some doc => .ok doc
    | none => .error "parse error"
  isObject
    | .object _ => true
    | .text _ => false
    | .number _ => false
  find
    | .object fields, key => fields.lookup key
    | .text _, _ => none
    | .number _, _ => none
  getString
    | .text s => .ok s
    | .number _ => .error "type must be string"
    | .object _ => .error "type must be string"
  getBool _ := .error "type must be boolean"
  getDouble doc := doc.getNumber.map fun i => (i : ℚ)
  getInt64 doc := doc.getNumber.map fun i => (i : Int)
  getUInt16 := Doc.getNumber
  getUInt32 := Doc.getNumber
  getUInt64 := Doc.getNumber

/-! ### The session -/

/-- A connection with what it shares with the others. -/
structure Session where
  server : Server
  games : GameTables
  currentUserId : Int := -1

/-- What is sent back at once; of `leaderboard`, `my_trades` and `user_update` the contents are left
out. -/
inductive Response
  | error (message : String)
  | leaderboard
  | myTrades (userId : Int)
  | userUpdate (userId : Int)
  | game (msg : GameMessage)

/-- What the handlers take from their environment: the time, the draws of the game, and what SQLite
says if it refuses a new game. -/
structure Surroundings where
  now : Int
  pick : Nat
  refusal : Option String
  noiseDraw : ℚ

namespace Session

/-- The session after a message, and what is sent back. -/
abbrev Handled := Session × List Response

variable (c : Session)

/-- The handler goes on with what it read, unless that throws. -/
def reading {α : Type} (r : Except String α) (f : α → Option Handled) : Option Handled :=
  match r with
  | .ok a => f a
  | .error _ => some (c, [])

/-- Send an error and stop. -/
def reject (message : String) : Option Handled := some (c, [.error message])

/-- `send_user_update` -/
def userUpdate : List Response :=
  if c.currentUserId = -1 then [] else [.userUpdate c.currentUserId]

/-- What a handler of the server did. -/
def answer (sent : List Response) : Except String Server → Handled
  | .ok server => ({ c with server := server }, sent)
  | .error message => (c, [.error message])

/-- What the game manager did; an exception that is no `GameError` is only logged. -/
def answerGame : GameTables × Except GameException (List GameMessage) → Handled
  | (games, .ok msgs) => ({ c with games := games }, msgs.map .game)
  | (games, .error (.gameError what)) => ({ c with games := games }, [.error what])
  | (games, .error .stoi) => ({ c with games := games }, [])

section Handlers

variable {J : Type} (json : JsonLib J) (g : GameManager) (env : Surroundings) (msg : J)

/-- The token that a handler reads. -/
def readToken : Except String String := json.value msg "token" json.getString ""

/-- Log in with the token of the message, if it has one that is valid. -/
def recognize (token : String) : Session :=
  if token = "" then c
  else match c.server.db.validateSession env.now token with
    | .ok userId => { c with currentUserId := userId }
    | .error _ => c

/-- Go on as the user that the token names, or send the error and stop. -/
def authenticated (message : String) (f : Session → Option Handled) : Option Handled :=
  c.reading (readToken json msg) fun token =>
    match c.server.db.validateSession env.now token with
    | .ok userId => f { c with currentUserId := userId }
    | .error _ => c.reject message

def handleSnapshot : Option Handled :=
  c.reading (readToken json msg) fun token =>
    let c := c.recognize env token
    c.reading (json.value msg "company_id" json.getUInt16 c.server.market.defaultCompanyId)
      fun companyId =>
        some ({ c with server := c.server.push (.snapshot companyId) }, c.userUpdate)

def handleSwitchEngine : Option Handled :=
  c.reading (json.value msg "mode" json.getString "") fun mode =>
    some (c.answer [] (c.server.handleSwitchEngine mode))

def handleMyTrades : Option Handled :=
  c.reading (readToken json msg) fun token =>
    let c := c.recognize env token
    if c.currentUserId = -1 then c.reject "Not logged in."
    else some (c, [.myTrades c.currentUserId])

def handleGameStart : Option Handled :=
  c.authenticated json env msg "Authentication required/invalid." fun c =>
    c.reading (json.value msg "category" json.getString "") fun category =>
      c.reading (json.value msg "force_new" json.getBool false) fun forceNew =>
        some (c.answerGame
          (g.startSession c.games c.currentUserId category forceNew env.pick env.refusal))

def handleGameQuote : Option Handled :=
  if !json.contains msg "session_id" || !json.contains msg "bid" || !json.contains msg "ask" then
    c.reject "Missing required fields for game_quote."
  else
    c.authenticated json env msg "Authentication required/invalid." fun c =>
      c.reading (json.get msg "session_id" json.getInt64) fun sessionId =>
        c.reading (json.get msg "bid" json.getDouble) fun bid =>
          c.reading (json.get msg "ask" json.getDouble) fun ask =>
            some (c.answerGame
              (g.submitQuote c.games c.currentUserId sessionId bid ask env.noiseDraw))

/-- `game_hint` and `game_end`, which differ in what they call. -/
def handleGameSession (missing : String)
    (f : Int → Int → GameTables × Except GameException (List GameMessage)) : Option Handled :=
  if !json.contains msg "session_id" then c.reject missing
  else
    c.authenticated json env msg "Authentication required/invalid." fun c =>
      c.reading (json.get msg "session_id" json.getInt64) fun sessionId =>
        some (c.answerGame (f c.currentUserId sessionId))

def handleGameHint : Option Handled :=
  c.handleGameSession json env msg "Missing session_id for game_hint." (g.requestHint c.games)

def handleGameEnd : Option Handled :=
  c.handleGameSession json env msg "Missing session_id for game_end." (g.endSession c.games)

/-- The user of a cancellation is not remembered. -/
def handleCancel : Option Handled :=
  if !json.contains msg "order_id" then c.reject "Missing order_id for cancellation."
  else
    c.reading (readToken json msg) fun token =>
      match c.server.db.validateSession env.now token with
      | .error _ => c.reject "Authentication required to cancel."
      | .ok _ =>
        c.reading (json.value msg "company_id" json.getUInt16 c.server.market.defaultCompanyId)
          fun companyId =>
            c.reading (json.get msg "order_id" json.getUInt64) fun orderId =>
              some (c.answer [] (c.server.handleCancel env.now
                { token := token, companyId := some companyId, orderId := some orderId }))

/-- `BUY` is the only text that asks to buy. -/
def readSide : String := if json.equals msg "side" "BUY" then "BUY" else "SELL"

def handleMarketOrder : Option Handled :=
  if !json.contains msg "quantity" || !json.contains msg "side" ||
      !json.contains msg "timestamp" then
    c.reject "Missing required fields for market order."
  else
    c.reading (readToken json msg) fun token =>
      match c.server.db.validateSession env.now token with
      | .error _ => c.reject "Authentication required."
      | .ok userId =>
        let c := { c with currentUserId := userId }
        c.reading (json.value msg "company_id" json.getUInt16 c.server.market.defaultCompanyId)
          fun companyId =>
            c.reading (json.get msg "quantity" json.getUInt32) fun quantity =>
              c.reading (json.get msg "timestamp" json.getUInt64) fun timestamp =>
                (c.server.handleMarketOrder env.now
                  { token := token
                    companyId := some companyId
                    side := some (readSide json msg)
                    quantity := some quantity
                    timestamp := some timestamp }).map (c.answer [])

def handleOrder : Option Handled :=
  if !json.contains msg "price" || !json.contains msg "quantity" || !json.contains msg "side" ||
      !json.contains msg "timestamp" then
    c.reject "Missing required fields for order submission."
  else
    c.reading (json.value msg "company_id" json.getUInt16 c.server.market.defaultCompanyId)
      fun companyId =>
        c.reading (json.get msg "price" json.getUInt32) fun price =>
          c.reading (json.get msg "quantity" json.getUInt32) fun quantity =>
            c.reading (json.get msg "timestamp" json.getUInt64) fun timestamp =>
              if 100000 ≤ price then c.reject "Price exceeds maximum allowed ($999.99)."
              else
                c.reading (readToken json msg) fun token =>
                  match c.server.db.validateSession env.now token with
                  | .error _ => c.reject "Authentication required/invalid."
                  | .ok userId =>
                    let c := { c with currentUserId := userId }
                    c.reading (json.value msg "stress" json.getBool false) fun stress =>
                      -- the synthetic user is read of a stress order only
                      c.reading (if stress then json.value msg "synthetic_user_id" json.getInt64 (-1)
                          else .ok (-1)) fun syntheticUserId =>
                        some (c.answer [] (c.server.handleOrder env.now
                          { token := token
                            companyId := some companyId
                            side := some (readSide json msg)
                            price := some price
                            quantity := some quantity
                            timestamp := some timestamp
                            stress := stress
                            syntheticUserId := some syntheticUserId }))

/-- `handle_register` and `handle_login`. -/
structure Accounts (J : Type) where
  handleRegister : Session → J → Option Handled
  handleLogin : Session → J → Option Handled

def readType : Except String String := json.value msg "type" json.getString ""

def handleMessage (accounts : Accounts J) (raw : String) : Option Handled :=
  c.reading (json.parse raw) fun msg =>
    if !json.isObject msg then some (c, [])
    else
      c.reading (readType json msg) fun type =>
        match type with
        | "register" => accounts.handleRegister c msg
        | "login" => accounts.handleLogin c msg
        | "leaderboard" => some (c, [.leaderboard])
        | "snapshot" => c.handleSnapshot json env msg
        | "switch_engine" => c.handleSwitchEngine json msg
        | "my_trades" => c.handleMyTrades json env msg
        | "game_start" => c.handleGameStart json g env msg
        | "game_quote" => c.handleGameQuote json g env msg
        | "game_hint" => c.handleGameHint json g env msg
        | "game_end" => c.handleGameEnd json g env msg
        | "cancel" => c.handleCancel json env msg
        | "market_order" => c.handleMarketOrder json env msg
        | "order" => c.handleOrder json env msg
        | _ => some (c, [])

end Handlers

end Session

end ExchangeEngine
