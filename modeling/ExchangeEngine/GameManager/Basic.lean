import Mathlib.Algebra.Order.Ring.Rat
import Mathlib.Algebra.Order.Group.Unbundled.Abs

/-!
# The practice game

`GameManager.h` with the judge of `MarketMakerJudge.h` and the game tables of `Database.h`. A
`double` is a rational number; random draws are arguments, and so is the message with which SQLite
may refuse a new session. Tables are lists of rows in the order of their ids, and columns that
nothing reads are left out.

Every operation returns the tables afterwards and the messages to send, or the exception thrown;
what was written before an exception stays written.
-/

namespace ExchangeEngine

/-! ### The judge -/

inductive Verdict
  | buy
  | sell
  | pass
  | invalid
deriving DecidableEq, Repr

structure Quote where
  bid : ℚ
  ask : ℚ

structure JudgeResult where
  verdict : Verdict
  fillPrice : ℚ := 0

def judgeQuote (q : Quote) (trueValue noiseEpsilon noiseDraw : ℚ) : JudgeResult :=
  if q.ask < q.bid then { verdict := .invalid }
  else
    let askEdge := trueValue - q.ask
    let bidEdge := q.bid - trueValue
    let nearAsk := |askEdge| ≤ noiseEpsilon
    let nearBid := |bidEdge| ≤ noiseEpsilon
    if 0 < noiseEpsilon ∧ (nearAsk ∨ nearBid) then
      if noiseDraw < 1 / 2 then { verdict := .pass }
      else if nearAsk ∧ bidEdge ≤ askEdge then { verdict := .buy, fillPrice := q.ask }
      else if nearBid then { verdict := .sell, fillPrice := q.bid }
      else { verdict := .pass }
    else if 0 < askEdge ∧ bidEdge ≤ askEdge then { verdict := .buy, fillPrice := q.ask }
    else if 0 < bidEdge then { verdict := .sell, fillPrice := q.bid }
    else { verdict := .pass }

/-! ### Types of the game -/

structure Scenario where
  id : Int
  category : String
  prompt : String
  unit : String
  trueValue : ℚ
  hints : List String

inductive GameStatus
  | active
  | ended
deriving DecidableEq, Repr

/-- The texts that are stored of a verdict. -/
inductive RoundVerdict
  | buy
  | sell
  | pass
deriving DecidableEq, Repr

structure GameConfig where
  defaultMaxRounds : Int := 5
  hintPenalty : ℚ := 5
  unitSize : ℚ := 1
  noiseEpsilon : ℚ := 0

/-- What an operation throws: a `GameError`, or what `std::stoi` throws. -/
inductive GameException
  | gameError (what : String)
  | stoi
deriving DecidableEq, Repr

/-! ### The game tables -/

structure GameSessionRow where
  id : Int
  userId : Int
  scenarioId : Int
  maxRounds : Int
  currentRound : Int
  position : ℚ
  cash : ℚ
  hintsRevealedCsv : String
  status : GameStatus

structure GameRoundRow where
  sessionId : Int
  roundNumber : Int
  bid : ℚ
  ask : ℚ
  verdict : RoundVerdict
  fillPrice : Option ℚ

/-- `lastId` is the largest id that `game_sessions` has given. -/
structure GameTables where
  gameSessions : List GameSessionRow
  gameRounds : List GameRoundRow
  lastId : Int

namespace GameTables

variable (db : GameTables)

def empty : GameTables := ⟨[], [], 0⟩

/-- `INSERT INTO game_sessions`; the other columns have their defaults. -/
def insertGameSession (userId scenarioId maxRounds : Int) : GameTables :=
  { db with
    gameSessions := db.gameSessions ++
      [{ id := db.lastId + 1, userId := userId, scenarioId := scenarioId, maxRounds := maxRounds
         currentRound := 0, position := 0, cash := 0, hintsRevealedCsv := ""
         status := .active }]
    lastId := db.lastId + 1 }

/-- The id of the new session; `refusal` is what SQLite says if the `INSERT` fails. -/
def createGameSession (userId scenarioId maxRounds : Int) (refusal : Option String) :
    GameTables × Except String Int :=
  match refusal with
  | some errmsg => (db, .error ("DB error: " ++ errmsg))
  | none => (db.insertGameSession userId scenarioId maxRounds, .ok (db.lastId + 1))

/-- `WHERE user_id = ? AND status = 'active' ORDER BY id DESC LIMIT 1` -/
def getActiveGameSession (userId : Int) : Option GameSessionRow :=
  (db.gameSessions.filter fun row => row.userId = userId ∧ row.status = .active).getLast?

def getGameSession (sessionId userId : Int) : Option GameSessionRow :=
  db.gameSessions.find? fun row => row.id = sessionId ∧ row.userId = userId

/-- `UPDATE game_sessions ... WHERE id = ?` -/
def update (sessionId : Int) (f : GameSessionRow → GameSessionRow) : GameTables :=
  { db with
    gameSessions := db.gameSessions.map fun row => if row.id = sessionId then f row else row }

def updateGameSessionState (sessionId currentRound : Int) (position cash : ℚ)
    (hintsRevealedCsv : String) : GameTables :=
  db.update sessionId fun row =>
    { row with
      currentRound := currentRound
      position := position
      cash := cash
      hintsRevealedCsv := hintsRevealedCsv }

def endGameSession (sessionId : Int) : GameTables :=
  db.update sessionId fun row => { row with status := .ended }

def appendGameRound (row : GameRoundRow) : GameTables :=
  { db with gameRounds := db.gameRounds ++ [row] }

/-- `ORDER BY round_number` -/
def getGameRounds (sessionId : Int) : List GameRoundRow :=
  (db.gameRounds.filter fun row => row.sessionId = sessionId).mergeSort
    fun r r' => r.roundNumber ≤ r'.roundNumber

end GameTables

/-! ### Messages -/

/-- An entry of `rounds_to_json`. -/
structure RoundEntry where
  roundNumber : Int
  bid : ℚ
  ask : ℚ
  verdict : RoundVerdict
  fillPrice : Option ℚ
deriving DecidableEq

/-- What is shown of a scenario. -/
structure ScenarioEntry where
  id : Int
  category : String
  prompt : String
  unit : String
deriving DecidableEq

inductive GameEndReason
  | maxRoundsReached
  | playerClosed
deriving DecidableEq, Repr

structure GameStarted where
  sessionId : Int
  scenario : ScenarioEntry
  currentRound : Int
  maxRounds : Int
  position : ℚ
  cash : ℚ
  hintsRevealed : List String
  status : GameStatus
  roundHistory : List RoundEntry
deriving DecidableEq

structure GameRoundResult where
  sessionId : Int
  roundNumber : Int
  quote : Quote
  verdict : RoundVerdict
  fillPrice : Option ℚ
  position : ℚ
  cash : ℚ
  roundsRemaining : Int
  status : GameStatus

structure GameHintRevealed where
  sessionId : Int
  hintIndex : Int
  hintText : String
  cost : ℚ
  cash : ℚ
  hintsRemaining : Int

structure GameEnded where
  sessionId : Int
  trueValue : ℚ
  finalPosition : ℚ
  finalCash : ℚ
  markToModelPnl : ℚ
  reason : GameEndReason
  rounds : List RoundEntry

inductive GameMessage
  | started (msg : GameStarted)
  | roundResult (msg : GameRoundResult)
  | hintRevealed (msg : GameHintRevealed)
  | ended (msg : GameEnded)

def GameMessage.sessionId : GameMessage → Int
  | started msg => msg.sessionId
  | roundResult msg => msg.sessionId
  | hintRevealed msg => msg.sessionId
  | ended msg => msg.sessionId

/-! ### The list of hints as text -/

/-- `isspace` -/
def isSpace (c : Char) : Bool := c = ' ' || ('\t' ≤ c && c ≤ '\r')

/-- `std::stoi`: the number in front, after blanks and a sign; what follows it is ignored. -/
def stoi (text : List Char) : Except GameException Int :=
  let text := text.dropWhile isSpace
  let (negative, text) :=
    match text with
    | '-' :: text => (true, text)
    | '+' :: text => (false, text)
    | text => (false, text)
  let digits := text.takeWhile Char.isDigit
  let n : Int := Nat.ofDigitChars 10 digits 0
  let n := if negative then -n else n
  if digits = [] ∨ n < -2 ^ 31 ∨ 2 ^ 31 ≤ n then .error .stoi else .ok n

def parseHintsCsv (csv : String) : Except GameException (List Int) :=
  ((csv.toList.splitOn ',').filter (· ≠ [])).mapM stoi

def hintsToCsv (hints : List Int) : String :=
  String.ofList ([','].intercalate (hints.map fun i => (toString i).toList))

/-- `static_cast<int>` of a size -/
@[irreducible] def toInt (n : Nat) : Int := Int.bmod n (2 ^ 32)

/-! ### The game manager -/

/-- An exception sends an error and no message. -/
def messagesOf : Except GameException (List GameMessage) → List GameMessage
  | .ok msgs => msgs
  | .error _ => []

structure GameManager where
  scenarios : List Scenario
  config : GameConfig

namespace GameManager

variable (g : GameManager)

/-- `pick` is the random draw. -/
def pickScenario (category : String) (pick : Nat) : Except GameException Scenario :=
  let pool := g.scenarios.filter fun s => category = "" ∨ s.category = category
  if h : pool = [] then
    .error (.gameError ("No scenarios available for category '" ++ category ++ "'"))
  else .ok (pool.get ⟨pick % pool.length, Nat.mod_lt _ (List.length_pos_iff.mpr h)⟩)

def findScenario (scenarioId : Int) : Except GameException Scenario :=
  match g.scenarios.find? fun s => s.id = scenarioId with
  | some s => .ok s
  | none => .error (.gameError ("Unknown scenario id " ++ toString scenarioId))

def requireActiveSession (db : GameTables) (sessionId userId : Int) :
    Except GameException GameSessionRow :=
  match db.getGameSession sessionId userId with
  | none => .error (.gameError "Session not found")
  | some row =>
    if row.status ≠ .active then .error (.gameError "Session has already ended") else .ok row

def verdictToString : Verdict → RoundVerdict
  | .buy => .buy
  | .sell => .sell
  | _ => .pass

def roundsToJson (db : GameTables) (sessionId : Int) : List RoundEntry :=
  (db.getGameRounds sessionId).map fun r =>
    { roundNumber := r.roundNumber, bid := r.bid, ask := r.ask, verdict := r.verdict
      fillPrice := r.fillPrice }

/-- An index that the scenario has no hint for is left out. -/
def revealedHintsToJson (row : GameSessionRow) (scenario : Scenario) :
    Except GameException (List String) := do
  let indices ← parseHintsCsv row.hintsRevealedCsv
  return indices.filterMap fun i =>
    if 0 ≤ i ∧ i < toInt scenario.hints.length then scenario.hints[i.toNat]? else none

def sessionStartedJson (db : GameTables) (row : GameSessionRow) :
    Except GameException GameMessage := do
  let scenario ← g.findScenario row.scenarioId
  let hintsRevealed ← revealedHintsToJson row scenario
  return .started
    { sessionId := row.id
      scenario := ⟨scenario.id, scenario.category, scenario.prompt, scenario.unit⟩
      currentRound := row.currentRound
      maxRounds := row.maxRounds
      position := row.position
      cash := row.cash
      hintsRevealed := hintsRevealed
      status := row.status
      roundHistory := roundsToJson db row.id }

def gameEndedJson (db : GameTables) (row : GameSessionRow) (scenario : Scenario)
    (reason : GameEndReason) : GameMessage :=
  .ended
    { sessionId := row.id
      trueValue := scenario.trueValue
      finalPosition := row.position
      finalCash := row.cash
      markToModelPnl := row.cash + row.position * scenario.trueValue
      reason := reason
      rounds := roundsToJson db row.id }

/-! ### The operations -/

/-- The second half of `start_session`. -/
def newSession (db : GameTables) (userId : Int) (category : String) (pick : Nat)
    (refusal : Option String) : GameTables × Except GameException (List GameMessage) :=
  match g.pickScenario category pick with
  | .error e => (db, .error e)
  | .ok scenario =>
    match db.createGameSession userId scenario.id g.config.defaultMaxRounds refusal with
    | (db, .error what) => (db, .error (.gameError what))
    | (db, .ok id) =>
      (db, match db.getGameSession id userId with
        | none => .error (.gameError "Failed to load newly created session")
        | some fresh => (g.sessionStartedJson db fresh).map fun msg => [msg])

def startSession (db : GameTables) (userId : Int) (category : String) (forceNew : Bool)
    (pick : Nat) (refusal : Option String) :
    GameTables × Except GameException (List GameMessage) :=
  match db.getActiveGameSession userId with
  | some active =>
    if forceNew then g.newSession (db.endGameSession active.id) userId category pick refusal
    else (db, (g.sessionStartedJson db active).map fun msg => [msg])
  | none => g.newSession db userId category pick refusal

/-- The part of `submit_quote` that may throw. -/
def judgeSession (db : GameTables) (userId sessionId : Int) (bid ask noiseDraw : ℚ) :
    Except GameException (GameSessionRow × Scenario × JudgeResult) := do
  let row ← requireActiveSession db sessionId userId
  let scenario ← g.findScenario row.scenarioId
  let result := judgeQuote ⟨bid, ask⟩ scenario.trueValue g.config.noiseEpsilon noiseDraw
  if result.verdict = .invalid then throw (.gameError "Crossed quote: bid must be <= ask")
  else return (row, scenario, result)

/-- The new round number, position and cash. -/
def playRound (row : GameSessionRow) (result : JudgeResult) : GameSessionRow :=
  match result.verdict with
  | .buy =>
    { row with
      currentRound := row.currentRound + 1
      position := row.position - g.config.unitSize
      cash := row.cash + result.fillPrice * g.config.unitSize }
  | .sell =>
    { row with
      currentRound := row.currentRound + 1
      position := row.position + g.config.unitSize
      cash := row.cash - result.fillPrice * g.config.unitSize }
  | _ => { row with currentRound := row.currentRound + 1 }

/-- The round that is recorded; `row` is that of the session quoted. -/
def roundOf (row : GameSessionRow) (bid ask : ℚ) (result : JudgeResult) : GameRoundRow where
  sessionId := row.id
  roundNumber := row.currentRound + 1
  bid := bid
  ask := ask
  verdict := verdictToString result.verdict
  fillPrice := if result.verdict ≠ .pass then some result.fillPrice else none

/-- The writes of `submit_quote`; `row` has the new values. -/
def recordRound (db : GameTables) (row : GameSessionRow) (round : GameRoundRow) : GameTables :=
  let db := db.appendGameRound round
  let db := db.updateGameSessionState row.id row.currentRound row.position row.cash
    row.hintsRevealedCsv
  if row.maxRounds ≤ row.currentRound then db.endGameSession row.id else db

/-- The message that reports a round; `row` has the new values. -/
def roundResultJson (row : GameSessionRow) (round : GameRoundRow) : GameMessage :=
  .roundResult
    { sessionId := row.id
      roundNumber := row.currentRound
      quote := ⟨round.bid, round.ask⟩
      verdict := round.verdict
      fillPrice := round.fillPrice
      position := row.position
      cash := row.cash
      roundsRemaining := row.maxRounds - row.currentRound
      status := if row.maxRounds ≤ row.currentRound then .ended else .active }

def submitQuote (db : GameTables) (userId sessionId : Int) (bid ask noiseDraw : ℚ) :
    GameTables × Except GameException (List GameMessage) :=
  match g.judgeSession db userId sessionId bid ask noiseDraw with
  | .error e => (db, .error e)
  | .ok (row, scenario, result) =>
    let round := roundOf row bid ask result
    let updatedRow := g.playRound row result
    let db := recordRound db updatedRow round
    (db, .ok (roundResultJson updatedRow round ::
      if updatedRow.maxRounds ≤ updatedRow.currentRound then
        [gameEndedJson db { updatedRow with status := .ended } scenario .maxRoundsReached]
      else []))

/-- The part of `request_hint` that may throw; the hint with its index and the new list. -/
def nextHint (db : GameTables) (userId sessionId : Int) :
    Except GameException (GameSessionRow × Scenario × List Int × Int × String) := do
  let row ← requireActiveSession db sessionId userId
  let scenario ← g.findScenario row.scenarioId
  let revealed ← parseHintsCsv row.hintsRevealedCsv
  let nextIndex := toInt revealed.length
  if toInt scenario.hints.length ≤ nextIndex then
    throw (.gameError "No hints remaining for this scenario")
  else
    return (row, scenario, revealed ++ [nextIndex], nextIndex,
      scenario.hints.getD nextIndex.toNat "")

def requestHint (db : GameTables) (userId sessionId : Int) :
    GameTables × Except GameException (List GameMessage) :=
  match g.nextHint db userId sessionId with
  | .error e => (db, .error e)
  | .ok (row, scenario, revealed, nextIndex, hintText) =>
    let newCash := row.cash - g.config.hintPenalty
    (db.updateGameSessionState sessionId row.currentRound row.position newCash
        (hintsToCsv revealed),
      .ok [.hintRevealed
        { sessionId := sessionId
          hintIndex := nextIndex
          hintText := hintText
          cost := g.config.hintPenalty
          cash := newCash
          hintsRemaining := toInt scenario.hints.length - nextIndex - 1 }])

def endSession (db : GameTables) (userId sessionId : Int) :
    GameTables × Except GameException (List GameMessage) :=
  match (do
    let row ← requireActiveSession db sessionId userId
    let scenario ← g.findScenario row.scenarioId
    return (row, scenario)) with
  | .error e => (db, .error e)
  | .ok (row, scenario) =>
    let db := db.endGameSession sessionId
    (db, .ok [gameEndedJson db { row with status := .ended } scenario .playerClosed])

/-! ### Calls -/

/-- A call with its user, its arguments, its random draw and the answer of SQLite. -/
inductive Call
  | startSession (userId : Int) (category : String) (forceNew : Bool) (pick : Nat)
      (refusal : Option String)
  | submitQuote (userId sessionId : Int) (bid ask noiseDraw : ℚ)
  | requestHint (userId sessionId : Int)
  | endSession (userId sessionId : Int)

def Call.userId : Call → Int
  | startSession userId _ _ _ _ => userId
  | submitQuote userId _ _ _ _ => userId
  | requestHint userId _ => userId
  | endSession userId _ => userId

def call (db : GameTables) : Call → GameTables × Except GameException (List GameMessage)
  | .startSession userId category forceNew pick refusal =>
    g.startSession db userId category forceNew pick refusal
  | .submitQuote userId sessionId bid ask noiseDraw =>
    g.submitQuote db userId sessionId bid ask noiseDraw
  | .requestHint userId sessionId => g.requestHint db userId sessionId
  | .endSession userId sessionId => g.endSession db userId sessionId

/-- The tables after the calls, in order. -/
def run (db : GameTables) (calls : List Call) : GameTables :=
  calls.foldl (fun db c => (g.call db c).1) db

/-- What the calls return, in order. -/
def outcomes (db : GameTables) : List Call → List (Except GameException (List GameMessage))
  | [] => []
  | c :: calls => (g.call db c).2 :: outcomes (g.call db c).1 calls

/-- The messages of the calls, in order. -/
def sent (db : GameTables) (calls : List Call) : List GameMessage :=
  (g.outcomes db calls).flatMap messagesOf

end GameManager

end ExchangeEngine
