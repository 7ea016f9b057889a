import ExchangeEngine.GameManager.Invariant
import Mathlib.Data.List.Induction

/-!
# Resuming a game

The client keeps its view of a session up to date message by message; when it asks to resume, the
server builds the view anew from its tables. Both views agree as long as the session is active.
-/

namespace ExchangeEngine

/-! ### The client -/

/-- `gameState` of `App.js`. -/
structure ClientGame where
  sessionId : Int
  scenario : ScenarioEntry
  currentRound : Int
  maxRounds : Int
  position : ℚ
  cash : ℚ
  hintsRevealed : List String
  status : GameStatus
  roundHistory : List RoundEntry
  lastRoundResult : Option GameRoundResult
  reveal : Option GameEnded

namespace ClientGame

/-- The handler of `game_started`. -/
def ofStarted (msg : GameStarted) : ClientGame where
  sessionId := msg.sessionId
  scenario := msg.scenario
  currentRound := msg.currentRound
  maxRounds := msg.maxRounds
  position := msg.position
  cash := msg.cash
  hintsRevealed := msg.hintsRevealed
  status := msg.status
  roundHistory := msg.roundHistory
  lastRoundResult := none
  reveal := none

/-- The handlers of the game messages; a message for another session is ignored. -/
def onMessage (prev : Option ClientGame) : GameMessage → Option ClientGame
  | .started msg => some (ofStarted msg)
  | .roundResult msg => prev.map fun prev =>
    if prev.sessionId ≠ msg.sessionId then prev
    else
      { prev with
        currentRound := msg.roundNumber
        position := msg.position
        cash := msg.cash
        status := msg.status
        lastRoundResult := some msg
        roundHistory := prev.roundHistory ++
          [⟨msg.roundNumber, msg.quote.bid, msg.quote.ask, msg.verdict, msg.fillPrice⟩] }
  | .hintRevealed msg => prev.map fun prev =>
    if prev.sessionId ≠ msg.sessionId then prev
    else { prev with cash := msg.cash, hintsRevealed := prev.hintsRevealed ++ [msg.hintText] }
  | .ended msg => prev.map fun prev =>
    if prev.sessionId ≠ msg.sessionId then prev
    else { prev with status := .ended, reveal := some msg }

/-- An error leaves the game as it is. -/
def receive (prev : Option ClientGame) :
    Except GameException (List GameMessage) → Option ClientGame
  | .ok msgs => msgs.foldl onMessage prev
  | .error _ => prev

/-- What a `game_started` message tells, read off the state of the client. -/
def seen (client : ClientGame) : GameStarted where
  sessionId := client.sessionId
  scenario := client.scenario
  currentRound := client.currentRound
  maxRounds := client.maxRounds
  position := client.position
  cash := client.cash
  hintsRevealed := client.hintsRevealed
  status := client.status
  roundHistory := client.roundHistory

end ClientGame

namespace GameManager

variable {g : GameManager} {db db' : GameTables} {row row' : GameSessionRow}
  {rs rounds : List GameRoundRow} {client : ClientGame} {userId : Int}

/-- A call, and what it means for the client of the user `userId`: it receives the messages that
its own calls return. -/
def clientCall (g : GameManager) (userId : Int) (x : GameTables × Option ClientGame) (c : Call) :
    GameTables × Option ClientGame :=
  ((g.call x.1 c).1,
    if c.userId = userId then ClientGame.receive x.2 (g.call x.1 c).2 else x.2)

/-- The tables and the client after the calls, in order. -/
def clientRun (g : GameManager) (userId : Int) (calls : List Call) :
    GameTables × Option ClientGame :=
  calls.foldl (g.clientCall userId) (.empty, none)

/-! ### What the server tells -/

/-- The view of a session of which `k` hints are revealed. -/
def viewOf (scenario : Scenario) (k : Nat) (rounds : List GameRoundRow) (row : GameSessionRow) :
    GameStarted where
  sessionId := row.id
  scenario := ⟨scenario.id, scenario.category, scenario.prompt, scenario.unit⟩
  currentRound := row.currentRound
  maxRounds := row.maxRounds
  position := row.position
  cash := row.cash
  hintsRevealed := scenario.hints.take k
  status := row.status
  roundHistory := rounds.map fun r => ⟨r.roundNumber, r.bid, r.ask, r.verdict, r.fillPrice⟩

/-- The first `k` hints are shown. -/
lemma filterMap_hints {hints : List String} {k : Nat} {n : Int} (hk : (k : Int) ≤ max 0 n) :
    (((List.range k).map Nat.cast).filterMap fun i : Int =>
      if 0 ≤ i ∧ i < n then hints[i.toNat]? else none) = hints.take k := by
  induction k with
  | zero => rfl
  | succ k ih =>
    have hlt : (0 : Int) ≤ k ∧ (k : Int) < n := by omega
    rw [List.range_succ, List.map_append, List.filterMap_append, ih (by omega), List.take_add_one]
    simp only [List.map_cons, List.map_nil, List.filterMap_cons, List.filterMap_nil, hlt,
      and_self, if_true, Int.toNat_natCast]
    cases hints[k]? with
    | none => rfl
    | some hint => rfl

/-- What `session_started_json` tells of a session. -/
lemma sessionStartedJson_eq {scenario : Scenario} {k : Nat}
    (hok : SessionOk g (db.rounds row.id) row)
    (hscenario : g.findScenario row.scenarioId = .ok scenario)
    (hk : (k : Int) ≤ max 0 (toInt scenario.hints.length))
    (hcsv : row.hintsRevealedCsv = hintsToCsv ((List.range k).map Nat.cast)) :
    g.sessionStartedJson db row = .ok (.started (viewOf scenario k (db.rounds row.id) row)) := by
  have hhints : revealedHintsToJson row scenario = .ok (scenario.hints.take k) := by
    rw [revealedHintsToJson, hcsv, parse_range hk, ← filterMap_hints hk]
    rfl
  rw [sessionStartedJson, hscenario]
  change (revealedHintsToJson row scenario >>= _) = _
  rw [hhints, viewOf, ← hok.getGameRounds_eq]
  rfl

/-- The client shows what the server would tell of the session, if it is active. -/
def Follows (g : GameManager) (userId : Int) (db : GameTables) (client : ClientGame) : Prop :=
  ∃ row ∈ db.gameSessions, row.id = client.sessionId ∧ row.userId = userId ∧
    (row.status = .active → g.sessionStartedJson db row = .ok (.started client.seen))

lemma sessionStartedJson_congr (h : db'.rounds row.id = db.rounds row.id) :
    g.sessionStartedJson db' row = g.sessionStartedJson db row := by
  rw [sessionStartedJson, sessionStartedJson, roundsToJson, roundsToJson,
    GameTables.getGameRounds_congr h]

/-- Another session changes, or that of the client ends. -/
lemma Follows.revise (h : db.Keyed) (hclient : Follows g userId db client)
    (hrow : row ∈ db.gameSessions) (hframe : Revision.Frame row row' rs)
    (hother : row.id = client.sessionId → row'.status = .ended) :
    Follows g userId (db.revise row' rs) client := by
  obtain ⟨r, hr, hid, huser, hshows⟩ := hclient
  have hrs : ∀ r ∈ rs, r.sessionId = row'.id := fun r hr =>
    (hframe.rounds r hr).trans hframe.id.symm
  by_cases hsame : row.id = r.id
  · have hrow' : row = r := h.eq_of_id hrow hr hsame
    subst hrow'
    refine ⟨row', GameTables.mem_revise_self hrow hframe.id, hframe.id.trans hid,
      hframe.userId.trans huser, fun hactive => ?_⟩
    rw [hother hid] at hactive
    cases hactive
  · have hne : r.id ≠ row'.id := fun heq => hsame (heq.trans hframe.id).symm
    refine ⟨r, GameTables.mem_revise_of_ne hr hne, hid, huser, fun hactive => ?_⟩
    rw [sessionStartedJson_congr (GameTables.rounds_revise_of_ne hrs hne)]
    exact hshows hactive

lemma Follows.created (hclient : Follows g userId db client) (u scenarioId maxRounds : Int) :
    Follows g userId (db.insertGameSession u scenarioId maxRounds) client := by
  obtain ⟨r, hr, hid, huser, hshows⟩ := hclient
  exact ⟨r, List.mem_append_left _ hr, hid, huser, hshows⟩

lemma Follows.givenUp {u : Int} (h : db.Keyed) (hclient : Follows g userId db client)
    (hgiven : GivenUp db u db') : Follows g userId db' client := by
  cases hgiven with
  | none => exact hclient
  | some hsome =>
    obtain ⟨hrow, -, -⟩ := GameTables.mem_of_getActiveGameSession hsome
    exact hclient.revise h hrow (Revision.ended (g := g)).frame fun _ => rfl

/-- A `game_started` message for an active session of the user. -/
lemma follows_started {prev : Option ClientGame} (hrow : row ∈ db.gameSessions)
    (huser : row.userId = userId) (hprev : ∀ client ∈ prev, Follows g userId db client)
    (hmem : client ∈ ClientGame.receive prev
      ((g.sessionStartedJson db row).map fun msg => [msg])) : Follows g userId db client := by
  cases hstarted : g.sessionStartedJson db row with
  | error e =>
    rw [hstarted] at hmem
    exact hprev client hmem
  | ok msg =>
    obtain ⟨scenario, hscenario, hmsg⟩ := Except.bind_eq_ok hstarted
    obtain ⟨hints, hhints, hmsg⟩ := Except.bind_eq_ok hmsg
    rw [hstarted] at hmem
    obtain rfl := Except.ok.inj hmsg
    obtain rfl := Option.some.inj hmem
    exact ⟨row, hrow, rfl, huser, fun _ => hstarted⟩

/-- What the client shows of the session that it plays. -/
lemma Follows.seen_eq {scenario : Scenario} {sessionId : Int} (hclient : Follows g userId db client)
    (h : Inv g db) (hplaying : Playing g db userId sessionId row scenario)
    (hid : client.sessionId = row.id) :
    ∃ k : Nat, (k : Int) ≤ max 0 (toInt scenario.hints.length) ∧
      row.hintsRevealedCsv = hintsToCsv ((List.range k).map Nat.cast) ∧
      client.seen = viewOf scenario k (db.rounds row.id) row := by
  obtain ⟨r, hr, hrid, huser, hshows⟩ := hclient
  obtain rfl := h.keyed.eq_of_id hr hplaying.mem (hrid.trans hid)
  have hshow := hshows hplaying.active
  have hok := h.session r hr
  obtain ⟨scenario', k, hscenario, hk, hcsv, -⟩ := hok.cash
  rw [sessionStartedJson_eq hok hscenario hk hcsv] at hshow
  rw [hplaying.scenario] at hscenario
  obtain rfl := Except.ok.inj hscenario
  exact ⟨k, hk, hcsv, (GameMessage.started.inj (Except.ok.inj hshow)).symm⟩

section Round

variable {scenario : Scenario} {result : JudgeResult} {bid ask : ℚ} {c : ClientGame}

/-- A round of another session is ignored. -/
lemma receive_other (hid : c.sessionId ≠ row.id) (db : GameTables) :
    ClientGame.receive (some c)
        (.ok (roundResultJson (g.playRound row result) (roundOf row bid ask result) ::
          if (g.playRound row result).maxRounds ≤ (g.playRound row result).currentRound then
            [gameEndedJson db { g.playRound row result with status := .ended } scenario
              .maxRoundsReached]
          else [])) = some c := by
  split_ifs
  · simp [ClientGame.receive, ClientGame.onMessage, roundResultJson, gameEndedJson, hid]
  · simp [ClientGame.receive, ClientGame.onMessage, roundResultJson, hid]

/-- The last round of the session that the client shows: the session is over. -/
lemma follows_lastRound (hself : finishRound (g.playRound row result) ∈ db'.gameSessions)
    (hframe : Revision.Frame row (finishRound (g.playRound row result))
      [roundOf row bid ask result]) (huser : row.userId = userId) (hid : c.sessionId = row.id)
    (hend : (g.playRound row result).maxRounds ≤ (g.playRound row result).currentRound)
    (hmem : client ∈ ClientGame.receive (some c)
      (.ok [roundResultJson (g.playRound row result) (roundOf row bid ask result),
        gameEndedJson db' { g.playRound row result with status := .ended } scenario
          .maxRoundsReached])) : Follows g userId db' client := by
  have hended : (finishRound (g.playRound row result)).status = .ended := by
    rw [finishRound, if_pos hend]
  have hsame : client.sessionId = row.id := by
    simp only [ClientGame.receive, List.foldl_cons, List.foldl_nil, roundResultJson,
      gameEndedJson, ClientGame.onMessage, Option.map_some, playRound_id, hid, ne_eq,
      not_true_eq_false, if_false] at hmem
    rw [← Option.some.inj hmem]
  refine ⟨_, hself, hframe.id.trans hsame.symm, hframe.userId.trans huser, fun hactive => ?_⟩
  rw [hended] at hactive
  cases hactive

/-- Any other round of the session that the client shows. -/
lemma follows_nextRound {sessionId : Int} (h : Inv g db)
    (hplaying : Playing g db userId sessionId row scenario)
    (hrev : Revision g row (g.playRound row result) [roundOf row bid ask result])
    (hdb' : db' = db.revise (g.playRound row result) [roundOf row bid ask result])
    (hclient : Follows g userId db c) (hid : c.sessionId = row.id)
    (hend : ¬ (g.playRound row result).maxRounds ≤ (g.playRound row result).currentRound)
    (hmem : client ∈ ClientGame.receive (some c)
      (.ok [roundResultJson (g.playRound row result) (roundOf row bid ask result)])) :
    Follows g userId db' client := by
  have hinv : Inv g db' := by
    rw [hdb']
    exact h.evolves (.revised hplaying.mem hplaying.active hrev)
  have hself : g.playRound row result ∈ db'.gameSessions := by
    rw [hdb']
    exact GameTables.mem_revise_self hplaying.mem hrev.frame.id
  simp only [ClientGame.receive, List.foldl_cons, List.foldl_nil, roundResultJson,
    ClientGame.onMessage, Option.map_some, playRound_id, hid, ne_eq, not_true_eq_false,
    if_false, hend] at hmem
  obtain rfl := Option.some.inj hmem
  obtain ⟨k, hk, hcsv, hseen⟩ := hclient.seen_eq h hplaying hid
  refine ⟨_, hself, playRound_id row result, hrev.frame.userId.trans hplaying.user,
    fun hactive => ?_⟩
  have hscenario : g.findScenario (g.playRound row result).scenarioId = .ok scenario := by
    rw [hrev.frame.scenarioId, hplaying.scenario]
  have hcsv' : (g.playRound row result).hintsRevealedCsv
      = hintsToCsv ((List.range k).map Nat.cast) := by
    rw [← playRound_eta]
    exact hcsv
  rw [sessionStartedJson_eq (hinv.session _ hself) hscenario hk hcsv']
  have hrounds : db'.rounds (g.playRound row result).id
      = db.rounds row.id ++ [roundOf row bid ask result] := by
    rw [hdb', GameTables.rounds_revise, playRound_id]
    intro x hx
    rw [hrev.frame.rounds x hx, playRound_id]
  simp only [viewOf, ClientGame.seen, GameStarted.mk.injEq] at hseen
  obtain ⟨-, hscene, -, hmax, -, -, hhints, -, hhistory⟩ := hseen
  rw [hrounds, viewOf, List.map_append, ← hhistory, ← hscene, ← hhints, hactive,
    hrev.frame.maxRounds, ← hmax]
  simp only [List.map_cons, List.map_nil, roundOf, playRound_id, playRound_currentRound]
  rfl

/-- A round that is played. -/
lemma follows_quoted {prev : Option ClientGame} {sessionId : Int} (h : Inv g db)
    (hplaying : Playing g db userId sessionId row scenario) (hvalid : result.verdict ≠ .invalid)
    (hprev : ∀ client ∈ prev, Follows g userId db client)
    (hdb' : db' = db.revise (finishRound (g.playRound row result)) [roundOf row bid ask result])
    (hmem : client ∈ ClientGame.receive prev
      (.ok (roundResultJson (g.playRound row result) (roundOf row bid ask result) ::
        if (g.playRound row result).maxRounds ≤ (g.playRound row result).currentRound then
          [gameEndedJson db' { g.playRound row result with status := .ended } scenario
            .maxRoundsReached]
        else []))) : Follows g userId db' client := by
  have hrev : Revision g row (finishRound (g.playRound row result)) [roundOf row bid ask result] :=
    .quoted bid ask hvalid
  cases prev with
  | none =>
    split_ifs at hmem
    · cases hmem
    · cases hmem
  | some c =>
    by_cases hid : c.sessionId = row.id
    · split_ifs at hmem with hend
      · have hself : finishRound (g.playRound row result) ∈ db'.gameSessions := by
          rw [hdb']
          exact GameTables.mem_revise_self hplaying.mem hrev.frame.id
        exact follows_lastRound hself hrev.frame hplaying.user hid hend hmem
      · have hplayed : finishRound (g.playRound row result) = g.playRound row result := if_neg hend
        rw [hplayed] at hrev hdb'
        exact follows_nextRound h hplaying hrev hdb' (hprev c rfl) hid hend hmem
    · rw [receive_other hid] at hmem
      obtain rfl := Option.some.inj hmem
      rw [hdb']
      exact (hprev c rfl).revise h.keyed hplaying.mem hrev.frame fun heq => absurd heq.symm hid

end Round

/-- A hint of the session that the client shows. -/
lemma follows_hinted {scenario : Scenario} {prev : Option ClientGame} {sessionId next : Int}
    {before : List Int} {msg : GameHintRevealed} (h : Inv g db)
    (hplaying : Playing g db userId sessionId row scenario)
    (hbefore : parseHintsCsv row.hintsRevealedCsv = .ok before) (hnext : next = toInt before.length)
    (hlt : next < toInt scenario.hints.length)
    (hrow' : row' =
      { row with
        cash := row.cash - g.config.hintPenalty
        hintsRevealedCsv := hintsToCsv (before ++ [next]) })
    (hsession : msg.sessionId = row.id) (hcash : msg.cash = row'.cash)
    (htext : msg.hintText = scenario.hints.getD next.toNat "")
    (hprev : ∀ client ∈ prev, Follows g userId db client)
    (hmem : client ∈ ClientGame.receive prev (.ok [.hintRevealed msg])) :
    Follows g userId (db.revise row' []) client := by
  subst hnext
  have hrev : Revision g row row' [] := by
    rw [hrow']
    exact .hinted hplaying.scenario hbefore hlt
  have hinv : Inv g (db.revise row' []) :=
    h.evolves (.revised hplaying.mem hplaying.active hrev)
  have hself : row' ∈ (db.revise row' []).gameSessions :=
    GameTables.mem_revise_self hplaying.mem hrev.frame.id
  cases prev with
  | none => cases hmem
  | some c =>
    simp only [ClientGame.receive, List.foldl_cons, List.foldl_nil, ClientGame.onMessage,
      Option.map_some, hsession] at hmem
    split_ifs at hmem with hid
    · obtain rfl := Option.some.inj hmem
      exact (hprev c rfl).revise h.keyed hplaying.mem hrev.frame fun heq => absurd heq.symm hid
    · obtain rfl := Option.some.inj hmem
      refine ⟨row', hself, hrev.frame.id.trans (not_not.mp hid).symm,
        hrev.frame.userId.trans hplaying.user, fun hactive => ?_⟩
      obtain ⟨k, hk, hcsv, hseen⟩ := (hprev c rfl).seen_eq h hplaying (not_not.mp hid)
      rw [hcsv, parse_range hk] at hbefore
      obtain rfl := Except.ok.inj hbefore
      have hlength : toInt ((List.range k).map (Nat.cast : Nat → Int)).length = k := by
        rw [List.length_map, List.length_range, toInt_of_lt (lt_of_le_toInt hk)]
      rw [hlength] at hlt hrow' htext
      have hscenario : g.findScenario row'.scenarioId = .ok scenario := by
        rw [hrev.frame.scenarioId, hplaying.scenario]
      have hcsv' : row'.hintsRevealedCsv = hintsToCsv ((List.range (k + 1)).map Nat.cast) := by
        rw [hrow', List.range_succ, List.map_append]
        rfl
      rw [sessionStartedJson_eq (hinv.session _ hself) hscenario (by omega) hcsv']
      have hrounds : (db.revise row' []).rounds row'.id = db.rounds row.id := by
        rw [GameTables.rounds_revise (fun r hr => absurd hr List.not_mem_nil), List.append_nil,
          hrev.frame.id]
      have hhints := toInt_le scenario.hints.length
      have htake : scenario.hints.take (k + 1) = scenario.hints.take k ++ [msg.hintText] := by
        have hk' : k < scenario.hints.length := by omega
        rw [htext, Int.toNat_natCast, List.take_add_one, List.getD_eq_getElem?_getD,
          List.getElem?_eq_getElem hk', Option.getD_some, Option.toList_some]
      simp only [viewOf, ClientGame.seen, GameStarted.mk.injEq] at hseen
      obtain ⟨-, hscene, hround, hmax, hposition, -, hhints, hstatus, hhistory⟩ := hseen
      rw [hrounds, viewOf, htake, ← hhistory, ← hscene, ← hhints, hrow', hcash, hrow']
      simp only [← hround, ← hmax, ← hposition, ← hstatus, ← not_not.mp hid]
      rfl

/-- A message about a session that is not shown changes nothing. -/
lemma onMessage_ended {prev : Option ClientGame} {scenario : Scenario} {reason : GameEndReason}
    (hmem : client ∈ ClientGame.receive prev (.ok [gameEndedJson db row scenario reason])) :
    ∃ c ∈ prev, c.sessionId = client.sessionId ∧ (c.sessionId ≠ row.id → client = c) := by
  cases prev with
  | none => cases hmem
  | some c =>
    simp only [ClientGame.receive, List.foldl_cons, List.foldl_nil, gameEndedJson,
      ClientGame.onMessage, Option.map_some] at hmem
    split_ifs at hmem with hid
    · obtain rfl := Option.some.inj hmem
      exact ⟨c, rfl, rfl, fun _ => rfl⟩
    · obtain rfl := Option.some.inj hmem
      exact ⟨c, rfl, rfl, fun hne => absurd hne hid⟩

/-- A session ends. -/
lemma follows_ended {prev : Option ClientGame} {scenario : Scenario} {sessionId : Int}
    {reason : GameEndReason} (h : Inv g db) (hplaying : Playing g db userId sessionId row scenario)
    (hrow' : row' = { row with status := .ended })
    (hprev : ∀ client ∈ prev, Follows g userId db client)
    (hmem : client ∈ ClientGame.receive prev
      (.ok [gameEndedJson (db.revise row' []) row' scenario reason])) :
    Follows g userId (db.revise row' []) client := by
  obtain ⟨c, hc, hsame, hother⟩ := onMessage_ended hmem
  subst hrow'
  have hframe : Revision.Frame row { row with status := .ended } [] :=
    (Revision.ended (g := g)).frame
  obtain ⟨r, hr, hid, huser, -⟩ := (hprev c hc).revise h.keyed hplaying.mem hframe fun _ => rfl
  by_cases hne : c.sessionId = row.id
  · refine ⟨_, GameTables.mem_revise_self hplaying.mem rfl, hne.symm.trans hsame, hplaying.user,
      nofun⟩
  · rw [hother hne]
    exact (hprev c hc).revise h.keyed hplaying.mem hframe fun _ => rfl

/-- The row of another user is not the one that the client shows. -/
lemma Follows.revise_other (h : db.Keyed) (hclient : Follows g userId db client)
    (hrow : row ∈ db.gameSessions) (hframe : Revision.Frame row row' rs)
    (huser : row.userId ≠ userId) : Follows g userId (db.revise row' rs) client := by
  refine hclient.revise h hrow hframe fun hid => ?_
  obtain ⟨r, hr, hrid, hruser, -⟩ := hclient
  rw [h.eq_of_id hrow hr (hid.trans hrid.symm)] at huser
  exact absurd hruser huser

/-- Calls of other users leave alone what the client shows. -/
lemma Acts.follows_other {c : Call} {result : Except GameException (List GameMessage)}
    (h : Inv g db) (hacts : Acts g db c db' result) (hother : c.userId ≠ userId)
    (hclient : Follows g userId db client) : Follows g userId db' client := by
  cases hacts with
  | failed => exact hclient
  | resumed => exact hclient
  | notStarted _ _ _ _ hgiven => exact hclient.givenUp h.keyed hgiven
  | started _ _ _ hgiven _ hcreated =>
    rw [hcreated]
    exact (hclient.givenUp h.keyed hgiven).created _ _ _
  | quoted hplaying _ hvalid hr hrow' hdb' =>
    rw [hdb', hrow', hr]
    apply hclient.revise_other h.keyed hplaying.mem (Revision.quoted (g := g) _ _ hvalid).frame
    rw [hplaying.user]
    exact hother
  | hinted hplaying hbefore hnext hlt hrow' =>
    rw [hnext] at hlt
    rw [hrow', hnext]
    refine hclient.revise_other h.keyed hplaying.mem
      (Revision.hinted hplaying.scenario hbefore hlt).frame ?_
    rw [hplaying.user]
    exact hother
  | ended hplaying hrow' hdb' =>
    rw [hdb', hrow']
    apply hclient.revise_other h.keyed hplaying.mem (Revision.ended (g := g)).frame
    rw [hplaying.user]
    exact hother

/-- **The client follows its session** through every call: it keeps to what the server would
tell. -/
lemma Acts.follows {c : Call} {result : Except GameException (List GameMessage)}
    {prev : Option ClientGame} (h : Inv g db) (hacts : Acts g db c db' result)
    (hprev : ∀ client ∈ prev, Follows g userId db client) :
    ∀ client ∈ if c.userId = userId then ClientGame.receive prev result else prev,
      Follows g userId db' client := by
  intro client hmem
  split_ifs at hmem with hown
  · subst hown
    cases hacts with
    | failed => exact hprev client hmem
    | resumed _ _ _ hactive =>
      obtain ⟨hrow, huser, -⟩ := GameTables.mem_of_getActiveGameSession hactive
      exact follows_started hrow huser hprev hmem
    | notStarted _ _ _ _ hgiven => exact (hprev client hmem).givenUp h.keyed hgiven
    | started _ _ _ hgiven _ hcreated =>
      subst hcreated
      exact follows_started (List.mem_append_right _ (List.mem_singleton_self _)) rfl
        (fun client hclient => ((hprev client hclient).givenUp h.keyed hgiven).created _ _ _) hmem
    | quoted hplaying _ hvalid hr hrow' hdb' =>
      subst hr hrow'
      exact follows_quoted h hplaying hvalid hprev hdb' hmem
    | hinted hplaying hbefore hnext hlt hrow' =>
      exact follows_hinted h hplaying hbefore hnext hlt hrow' rfl rfl rfl hprev hmem
    | ended hplaying hrow' hdb' =>
      subst hdb'
      exact follows_ended h hplaying hrow' hprev hmem
  · exact hacts.follows_other h hown (hprev client hmem)

/-! ### Runs -/

/-- What is kept along a run. -/
lemma clientRun_follows (g : GameManager) (userId : Int) (calls : List Call) :
    (g.clientRun userId calls).1 = g.run .empty calls ∧
      ∀ client ∈ (g.clientRun userId calls).2,
        Follows g userId (g.run .empty calls) client := by
  induction calls using List.reverseRecOn with
  | nil => exact ⟨rfl, fun client hclient => absurd hclient (Option.not_mem_none client)⟩
  | append_singleton calls c ih =>
    obtain ⟨hdb, hfollows⟩ := ih
    have h := inv_run (g := g) inv_empty calls
    have hacts := call_acts (g := g) h.keyed c
    rw [clientRun, List.foldl_append, ← clientRun, run_append]
    simp only [List.foldl_cons, List.foldl_nil, clientCall, hdb]
    exact ⟨rfl, hacts.follows h hfollows⟩

/-- An active session is the one that `get_active_game_session` finds. -/
lemma getActiveGameSession_eq (h : db.Keyed) (hrow : row ∈ db.gameSessions)
    (huser : row.userId = userId) (hactive : row.status = .active) :
    db.getActiveGameSession userId = some row := by
  cases hget : db.getActiveGameSession userId with
  | none => exact absurd hactive (GameTables.not_active_of_getActiveGameSession hget hrow huser)
  | some r =>
    obtain ⟨hr, hruser, hractive⟩ := GameTables.mem_of_getActiveGameSession hget
    rw [h.single r hr row hrow hractive hactive (hruser.trans huser.symm)]

/-- **Resuming agrees with live play**: after any calls of any users, if the session that the
client of a user shows is active, then `start_session` without `force_new` tells the client what it
already shows. -/
theorem resume_seen (userId : Int) (calls : List Call) (client : ClientGame)
    (hclient : (g.clientRun userId calls).2 = some client)
    (hactive : ∃ row ∈ (g.run .empty calls).gameSessions,
      row.id = client.sessionId ∧ row.status = .active) (category : String) (pick : Nat)
    (refusal : Option String) :
    ∃ msg, g.startSession (g.run .empty calls) userId category false pick refusal
        = (g.run .empty calls, .ok [.started msg]) ∧
      (ClientGame.ofStarted msg).seen = client.seen := by
  obtain ⟨-, hfollows⟩ := clientRun_follows g userId calls
  obtain ⟨row, hrow, hid, huser, hshows⟩ := hfollows client hclient
  have h := inv_run (g := g) inv_empty calls
  obtain ⟨row', hrow', hid', hstatus⟩ := hactive
  obtain rfl := h.keyed.eq_of_id hrow' hrow (hid'.trans hid.symm)
  refine ⟨client.seen, ?_, rfl⟩
  rw [startSession, getActiveGameSession_eq h.keyed hrow huser hstatus]
  simp only [Bool.false_eq_true, if_false, hshows hstatus]
  rfl

/-- User 7 plays a round and asks for a hint while user 8 starts a game. -/
def resumedCalls : List Call :=
  [.startSession 7 "" false 0 none, .startSession 8 "" false 0 none, .submitQuote 7 1 6000 7000 0,
    .requestHint 7 1, .submitQuote 7 1 7000 7100 0]

theorem resume_seen_sampleGame : ∃ client,
    (sampleGame.clientRun 7 resumedCalls).2 = some client ∧ client.roundHistory.length = 2 ∧
    ∃ msg, sampleGame.startSession (sampleGame.run .empty resumedCalls) 7 "" false 0 none
        = (sampleGame.run .empty resumedCalls, .ok [.started msg]) ∧
      (ClientGame.ofStarted msg).seen = client.seen := by
  have hmap : (sampleGame.clientRun 7 resumedCalls).2.map
      (fun client => (client.sessionId, client.roundHistory.length)) = some (1, 2) := by
    decide +kernel
  obtain ⟨client, hclient, hshown⟩ := Option.map_eq_some_iff.mp hmap
  obtain ⟨hid, hlength⟩ := Prod.mk.inj hshown
  have hactive : ∃ row ∈ (sampleGame.run .empty resumedCalls).gameSessions,
      row.id = client.sessionId ∧ row.status = .active := by
    rw [hid]
    decide +kernel
  exact ⟨client, hclient, hlength, resume_seen 7 resumedCalls client hclient hactive "" 0 none⟩

end GameManager

end ExchangeEngine
