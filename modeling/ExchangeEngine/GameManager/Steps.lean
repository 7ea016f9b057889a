import ExchangeEngine.GameManager.Basic
import ExchangeEngine.Library.Except
import Mathlib.Data.List.Nodup
import Mathlib.Data.List.TakeWhile
import Mathlib.Tactic.Common
import Mathlib.Tactic.Ring

/-!
# What a game operation does

A call to the game manager changes the row of one active session and may record one round of it, or
it creates a session; a call that throws changes nothing, except that the session given up by
`force_new` stays ended.
-/

namespace ExchangeEngine

/-! ### The list of hints as text -/

lemma isSpace_of_isDigit {c : Char} (h : c.isDigit = true) : isSpace c = false := by
  have hblank : c ≠ ' ' := by
    rintro rfl
    exact absurd h (by decide)
  have hlow : ¬ c ≤ '\r' := by
    simp only [Char.isDigit, Bool.and_eq_true, decide_eq_true_eq] at h
    intro hle
    exact absurd (UInt32.le_trans h.1 hle) (by decide)
  simp [isSpace, hblank, hlow]

lemma stoi_toDigits {n : Nat} (h : n < 2 ^ 31) : stoi (Nat.toDigits 10 n) = .ok n := by
  have hdigit : ∀ c ∈ Nat.toDigits 10 n, c.isDigit = true := fun c hc =>
    Nat.isDigit_of_mem_toDigits (by decide) (by decide) hc
  have hdrop : (Nat.toDigits 10 n).dropWhile isSpace = Nat.toDigits 10 n := by
    rw [List.dropWhile_eq_self_iff]
    intro hl
    rw [isSpace_of_isDigit (hdigit _ (List.getElem_mem hl))]
    nofun
  have htake : (Nat.toDigits 10 n).takeWhile Char.isDigit = Nat.toDigits 10 n :=
    List.takeWhile_eq_self_iff.mpr hdigit
  have hvalue : Nat.ofDigitChars 10 (Nat.toDigits 10 n) 0 = n := Nat.ofDigitChars_ten_toDigits
  rw [stoi, hdrop]
  split
  rename_i negative text hsign
  obtain ⟨rfl, rfl⟩ : false = negative ∧ Nat.toDigits 10 n = text := by
    split at hsign
    · rename_i htext
      exact absurd (hdigit '-' (by rw [htext]; exact List.mem_cons_self)) (by decide)
    · rename_i htext
      exact absurd (hdigit '+' (by rw [htext]; exact List.mem_cons_self)) (by decide)
    · exact Prod.mk.inj hsign
  simp only [htake, hvalue, Nat.toDigits_ne_nil, Bool.false_eq_true, if_false]
  apply if_neg
  rintro (hnil | hlow | hhigh)
  · exact hnil
  · omega
  · omega

/-- The list of hints survives the text. -/
lemma parseHintsCsv_hintsToCsv {hints : List Nat} (h : ∀ i ∈ hints, i < 2 ^ 31) :
    parseHintsCsv (hintsToCsv (hints.map Nat.cast)) = .ok (hints.map Nat.cast) := by
  have htext : ∀ i : Nat, (toString (i : Int)).toList = Nat.toDigits 10 i := by
    intro i
    exact Nat.toList_repr
  have hfields : (hints.map Nat.cast).map (fun i : Int => (toString i).toList)
      = hints.map (Nat.toDigits 10) := by
    rw [List.map_map]
    exact List.map_congr_left fun i _ => htext i
  have hcomma : ∀ field ∈ hints.map (Nat.toDigits 10), ',' ∉ field := by
    intro field hfield hmem
    obtain ⟨i, -, rfl⟩ := List.mem_map.mp hfield
    exact absurd (Nat.isDigit_of_mem_toDigits (by decide) (by decide) hmem) (by decide)
  have hnil : ∀ field ∈ hints.map (Nat.toDigits 10), field ≠ [] := by
    intro field hfield
    obtain ⟨i, -, rfl⟩ := List.mem_map.mp hfield
    exact Nat.toDigits_ne_nil
  have hsplit : (([','].intercalate (hints.map (Nat.toDigits 10))).splitOn ',').filter (· ≠ [])
      = hints.map (Nat.toDigits 10) := by
    cases hints with
    | nil => rfl
    | cons i hints =>
      rw [List.splitOn_intercalate _ hcomma (by simp), List.filter_eq_self]
      exact fun field hfield => decide_eq_true (hnil field hfield)
  rw [parseHintsCsv, hintsToCsv, String.toList_ofList, hfields, hsplit]
  clear hsplit hnil hcomma hfields
  induction hints with
  | nil => rfl
  | cons i hints ih =>
    rw [List.forall_mem_cons] at h
    rw [List.map_cons, List.mapM_cons, stoi_toDigits h.1, ih h.2]
    rfl

/-! ### Sizes -/

lemma bmod_natCast_le (n m : Nat) : Int.bmod n m ≤ n := by
  have hle : (n : Int) % m ≤ n := by exact_mod_cast Nat.mod_le n m
  rw [Int.bmod_eq_emod]
  split_ifs
  · omega
  · omega

lemma toInt_le (n : Nat) : toInt n ≤ n := by
  unfold toInt
  exact bmod_natCast_le n _

lemma toInt_lt (n : Nat) : toInt n < 2 ^ 31 := by
  unfold toInt
  exact Int.bmod_lt (by decide)

lemma toInt_of_lt {n : Nat} (h : n < 2 ^ 31) : toInt n = n := by
  unfold toInt
  exact Int.bmod_eq_of_le_mul_two (by omega) (by omega)

/-! ### Rows -/

namespace GameTables

/-- The rounds of a session in the order in which they were recorded. -/
def rounds (db : GameTables) (sessionId : Int) : List GameRoundRow :=
  db.gameRounds.filter fun r => r.sessionId = sessionId

lemma getGameRounds_congr {db db' : GameTables} {sessionId : Int}
    (h : db'.rounds sessionId = db.rounds sessionId) :
    db'.getGameRounds sessionId = db.getGameRounds sessionId := by
  rw [getGameRounds, ← rounds, h]
  rfl

/-- The row with the id of `row` becomes `row`, and `rounds` are recorded. -/
def revise (db : GameTables) (row : GameSessionRow) (rounds : List GameRoundRow) : GameTables :=
  { db with
    gameSessions := db.gameSessions.map fun r => if r.id = row.id then row else r
    gameRounds := db.gameRounds ++ rounds }

/-- The row that `insertGameSession` appends. -/
def fresh (db : GameTables) (userId scenarioId maxRounds : Int) : GameSessionRow where
  id := db.lastId + 1
  userId := userId
  scenarioId := scenarioId
  maxRounds := maxRounds
  currentRound := 0
  position := 0
  cash := 0
  hintsRevealedCsv := ""
  status := .active

/-- Ids are given once, and a user has at most one active session. -/
structure Keyed (db : GameTables) : Prop where
  nodup : (db.gameSessions.map GameSessionRow.id).Nodup
  issued : ∀ row ∈ db.gameSessions, row.id ≤ db.lastId
  recorded : ∀ r ∈ db.gameRounds, r.sessionId ≤ db.lastId
  single : ∀ row ∈ db.gameSessions, ∀ row' ∈ db.gameSessions, row.status = .active →
    row'.status = .active → row.userId = row'.userId → row = row'

variable {db : GameTables} {row row' : GameSessionRow} {userId sessionId : Int}
  {f f' : GameSessionRow → GameSessionRow}

lemma Keyed.eq_of_id (h : db.Keyed) (hrow : row ∈ db.gameSessions) (hrow' : row' ∈ db.gameSessions)
    (hid : row.id = row'.id) : row = row' :=
  List.inj_on_of_nodup_map h.nodup hrow hrow' hid

lemma mem_revise {rs : List GameRoundRow} {r : GameSessionRow}
    (h : r ∈ (db.revise row rs).gameSessions) :
    r = row ∨ r ∈ db.gameSessions ∧ r.id ≠ row.id := by
  obtain ⟨r', hr', rfl⟩ := List.mem_map.mp h
  split_ifs with hid
  · exact Or.inl rfl
  · exact Or.inr ⟨hr', hid⟩

lemma mem_revise_self {rs : List GameRoundRow} (hrow : row ∈ db.gameSessions)
    (hid : row'.id = row.id) : row' ∈ (db.revise row' rs).gameSessions :=
  List.mem_map.mpr ⟨row, hrow, if_pos hid.symm⟩

lemma mem_revise_of_ne {rs : List GameRoundRow} {r : GameSessionRow} (hr : r ∈ db.gameSessions)
    (hid : r.id ≠ row.id) : r ∈ (db.revise row rs).gameSessions :=
  List.mem_map.mpr ⟨r, hr, if_neg hid⟩

lemma map_id_revise (rs : List GameRoundRow) :
    (db.revise row rs).gameSessions.map GameSessionRow.id
      = db.gameSessions.map GameSessionRow.id := by
  rw [revise, List.map_map]
  refine List.map_congr_left fun r _ => ?_
  simp only [Function.comp_apply]
  split_ifs with hid
  · exact hid.symm
  · rfl

lemma rounds_revise {rs : List GameRoundRow} (hrs : ∀ r ∈ rs, r.sessionId = row.id) :
    (db.revise row rs).rounds row.id = db.rounds row.id ++ rs := by
  rw [rounds, revise, List.filter_append, rounds]
  congr 1
  exact List.filter_eq_self.mpr fun r hr => decide_eq_true (hrs r hr)

lemma rounds_revise_of_ne {rs : List GameRoundRow} (hrs : ∀ r ∈ rs, r.sessionId = row.id)
    (hid : sessionId ≠ row.id) : (db.revise row rs).rounds sessionId = db.rounds sessionId := by
  rw [rounds, revise, List.filter_append, ← rounds, List.append_right_eq_self,
    List.filter_eq_nil_iff]
  intro r hr hcond
  exact hid ((of_decide_eq_true hcond).symm.trans (hrs r hr))

lemma Keyed.revise {rs : List GameRoundRow} (h : db.Keyed) (hrow : row ∈ db.gameSessions)
    (hid : row'.id = row.id) (huser : row'.userId = row.userId)
    (hstatus : row'.status = .active → row.status = .active)
    (hrs : ∀ r ∈ rs, r.sessionId = row.id) : (db.revise row' rs).Keyed where
  nodup := by
    rw [map_id_revise]
    exact h.nodup
  issued r hr := by
    rcases mem_revise hr with rfl | ⟨hr, -⟩
    · rw [hid]
      exact h.issued row hrow
    · exact h.issued r hr
  recorded r hr := by
    rcases List.mem_append.mp hr with hr | hr
    · exact h.recorded r hr
    · rw [hrs r hr]
      exact h.issued row hrow
  single r₁ h₁ r₂ h₂ hactive₁ hactive₂ heq := by
    rcases mem_revise h₁ with rfl | ⟨hr₁, hne₁⟩
    · rcases mem_revise h₂ with rfl | ⟨hr₂, hne₂⟩
      · rfl
      · rw [huser] at heq
        rw [← h.single row hrow r₂ hr₂ (hstatus hactive₁) hactive₂ heq, hid] at hne₂
        exact absurd rfl hne₂
    · rcases mem_revise h₂ with rfl | ⟨hr₂, hne₂⟩
      · rw [huser] at heq
        rw [h.single r₁ hr₁ row hrow hactive₁ (hstatus hactive₂) heq, hid] at hne₁
        exact absurd rfl hne₁
      · exact h.single r₁ hr₁ r₂ hr₂ hactive₁ hactive₂ heq

lemma update_eq (h : (db.gameSessions.map GameSessionRow.id).Nodup) (hrow : row ∈ db.gameSessions)
    (hf : (f row).id = row.id) : db.update row.id f = db.revise (f row) [] := by
  rw [update, revise, List.append_nil]
  congr 1
  refine List.map_congr_left fun r hr => ?_
  rw [hf]
  split_ifs with hid
  · rw [List.inj_on_of_nodup_map h hr hrow hid]
  · rfl

lemma update_revise {rs : List GameRoundRow} (hf : (f row).id = row.id) :
    (db.revise row rs).update row.id f = db.revise (f row) rs := by
  rw [update, revise, revise, List.map_map, hf]
  congr 1
  refine List.map_congr_left fun r _ => ?_
  simp only [Function.comp_apply]
  split_ifs with hid hid'
  · rfl
  · exact absurd rfl hid'
  · rfl

lemma updateGameSessionState_eq (h : (db.gameSessions.map GameSessionRow.id).Nodup)
    (hrow : row ∈ db.gameSessions) (currentRound : Int) (position cash : ℚ)
    (hintsRevealedCsv : String) :
    db.updateGameSessionState row.id currentRound position cash hintsRevealedCsv = db.revise
      { row with
        currentRound := currentRound
        position := position
        cash := cash
        hintsRevealedCsv := hintsRevealedCsv } [] :=
  update_eq h hrow rfl

lemma mem_of_getActiveGameSession (h : db.getActiveGameSession userId = some row) :
    row ∈ db.gameSessions ∧ row.userId = userId ∧ row.status = .active := by
  obtain ⟨hrow, hcond⟩ := List.mem_filter.mp (List.mem_of_getLast? h)
  exact ⟨hrow, of_decide_eq_true hcond⟩

lemma not_active_of_getActiveGameSession (h : db.getActiveGameSession userId = none)
    (hrow : row ∈ db.gameSessions) (huser : row.userId = userId) : row.status ≠ .active := by
  intro hactive
  have hnil := List.getLast?_eq_none_iff.mp h
  exact List.filter_eq_nil_iff.mp hnil row hrow (decide_eq_true ⟨huser, hactive⟩)

lemma mem_of_getGameSession (h : db.getGameSession sessionId userId = some row) :
    row ∈ db.gameSessions ∧ row.id = sessionId ∧ row.userId = userId :=
  ⟨List.mem_of_find?_eq_some h, of_decide_eq_true (List.find?_some h :)⟩

end GameTables

/-! ### Outcomes -/

namespace GameManager

variable {g : GameManager} {db db' : GameTables} {row : GameSessionRow} {scenario : Scenario}
  {userId sessionId : Int} {bid ask noiseDraw : ℚ} {result : JudgeResult}

lemma requireActiveSession_eq_ok (h : requireActiveSession db sessionId userId = .ok row) :
    row ∈ db.gameSessions ∧ row.id = sessionId ∧ row.userId = userId ∧ row.status = .active := by
  simp only [requireActiveSession] at h
  split at h
  · cases h
  · next row' hget =>
    split_ifs at h with hstatus
    obtain ⟨hrow, hid, huser⟩ := GameTables.mem_of_getGameSession hget
    rw [← Except.ok.inj h]
    exact ⟨hrow, hid, huser, not_not.mp hstatus⟩

/-- The session that a quote or a hint is for. -/
structure Playing (g : GameManager) (db : GameTables) (userId sessionId : Int)
    (row : GameSessionRow) (scenario : Scenario) : Prop where
  mem : row ∈ db.gameSessions
  id : row.id = sessionId
  user : row.userId = userId
  active : row.status = .active
  scenario : g.findScenario row.scenarioId = .ok scenario

lemma judgeSession_eq_ok
    (h : g.judgeSession db userId sessionId bid ask noiseDraw = .ok (row, scenario, result)) :
    Playing g db userId sessionId row scenario ∧
      result = judgeQuote ⟨bid, ask⟩ scenario.trueValue g.config.noiseEpsilon noiseDraw ∧
      result.verdict ≠ .invalid := by
  obtain ⟨row', hrow, h⟩ := Except.bind_eq_ok h
  obtain ⟨scenario', hscenario, h⟩ := Except.bind_eq_ok h
  obtain ⟨hmem, hid, huser, hactive⟩ := requireActiveSession_eq_ok hrow
  simp only at h
  split_ifs at h with hinvalid
  obtain ⟨rfl, rfl, rfl⟩ : row' = row ∧ scenario' = scenario ∧ _ = result := by
    simpa using Except.ok.inj h
  exact ⟨⟨hmem, hid, huser, hactive, hscenario⟩, rfl, hinvalid⟩

lemma nextHint_eq_ok {revealed : List Int} {nextIndex : Int} {hintText : String}
    (h : g.nextHint db userId sessionId = .ok (row, scenario, revealed, nextIndex, hintText)) :
    Playing g db userId sessionId row scenario ∧
      ∃ before, parseHintsCsv row.hintsRevealedCsv = .ok before ∧
        nextIndex = toInt before.length ∧ nextIndex < toInt scenario.hints.length ∧
        revealed = before ++ [nextIndex] ∧ hintText = scenario.hints.getD nextIndex.toNat "" := by
  obtain ⟨row', hrow, h⟩ := Except.bind_eq_ok h
  obtain ⟨scenario', hscenario, h⟩ := Except.bind_eq_ok h
  obtain ⟨before, hbefore, h⟩ := Except.bind_eq_ok h
  obtain ⟨hmem, hid, huser, hactive⟩ := requireActiveSession_eq_ok hrow
  simp only at h
  split_ifs at h with hend
  obtain ⟨rfl, rfl, rfl, rfl, rfl⟩ : row' = row ∧ scenario' = scenario ∧ _ = revealed ∧
      _ = nextIndex ∧ _ = hintText := by
    simpa using Except.ok.inj h
  exact ⟨⟨hmem, hid, huser, hactive, hscenario⟩, before, hbefore, rfl, not_le.mp hend, rfl, rfl⟩

/-- The row after a round: the last round ends the session. -/
def finishRound (row : GameSessionRow) : GameSessionRow :=
  if row.maxRounds ≤ row.currentRound then { row with status := .ended } else row

lemma playRound_currentRound (row : GameSessionRow) (result : JudgeResult) :
    (g.playRound row result).currentRound = row.currentRound + 1 := by
  simp only [playRound]
  split <;> rfl

@[simp] lemma playRound_id (row : GameSessionRow) (result : JudgeResult) :
    (g.playRound row result).id = row.id := by
  simp only [playRound]
  split <;> rfl

/-- A round changes nothing else of the row. -/
lemma playRound_eta (row : GameSessionRow) (result : JudgeResult) :
    { row with
      currentRound := (g.playRound row result).currentRound
      position := (g.playRound row result).position
      cash := (g.playRound row result).cash } = g.playRound row result := by
  simp only [playRound]
  split <;> rfl

lemma recordRound_eq (h : db.Keyed) (hrow : row ∈ db.gameSessions) (result : JudgeResult)
    (round : GameRoundRow) : recordRound db (g.playRound row result) round
      = db.revise (finishRound (g.playRound row result)) [round] := by
  have hupdated : (db.appendGameRound round).updateGameSessionState (g.playRound row result).id
      (g.playRound row result).currentRound (g.playRound row result).position
      (g.playRound row result).cash (g.playRound row result).hintsRevealedCsv
      = db.revise (g.playRound row result) [round] := by
    have happended : (db.appendGameRound round).revise (g.playRound row result) []
        = db.revise (g.playRound row result) [round] := by
      rw [GameTables.revise, List.append_nil]
      rfl
    have hnodup : ((db.appendGameRound round).gameSessions.map GameSessionRow.id).Nodup := h.nodup
    have hmem : row ∈ (db.appendGameRound round).gameSessions := hrow
    rw [← happended, ← playRound_eta, GameTables.updateGameSessionState_eq hnodup hmem]
  simp only [recordRound, hupdated, finishRound]
  split_ifs
  · exact GameTables.update_revise rfl
  · rfl

/-- The tables after `force_new` has given up the active session of the user, if there is one. -/
inductive GivenUp (db : GameTables) (userId : Int) : GameTables → Prop
  | none (h : db.getActiveGameSession userId = none) : GivenUp db userId db
  | some {row : GameSessionRow} (h : db.getActiveGameSession userId = some row) :
      GivenUp db userId (db.revise { row with status := .ended } [])

/-- What a call does to the tables, and what it returns. -/
inductive Acts (g : GameManager) (db : GameTables) :
    Call → GameTables → Except GameException (List GameMessage) → Prop
  | failed (c : Call) (e : GameException) : Acts g db c db (.error e)
  | resumed {userId : Int} {row : GameSessionRow} (category : String) (pick : Nat)
      (refusal : Option String) (hactive : db.getActiveGameSession userId = some row) :
      Acts g db (.startSession userId category false pick refusal) db
        ((g.sessionStartedJson db row).map fun msg => [msg])
  | notStarted {userId : Int} {db' : GameTables} (category : String) (forceNew : Bool) (pick : Nat)
      (refusal : Option String) (hgiven : GivenUp db userId db') (e : GameException) :
      Acts g db (.startSession userId category forceNew pick refusal) db' (.error e)
  | started {userId : Int} {db' created : GameTables} {scenario : Scenario} (category : String)
      (forceNew : Bool) (pick : Nat) (hgiven : GivenUp db userId db')
      (hscenario : ∃ s, g.findScenario scenario.id = .ok s)
      (hcreated :
        created = db'.insertGameSession userId scenario.id g.config.defaultMaxRounds) :
      Acts g db (.startSession userId category forceNew pick none) created
        ((g.sessionStartedJson created
          (db'.fresh userId scenario.id g.config.defaultMaxRounds)).map fun msg => [msg])
  | quoted {userId sessionId : Int} {row row' : GameSessionRow} {scenario : Scenario}
      {bid ask noiseDraw : ℚ} {result : JudgeResult} {r : GameRoundRow} {db' : GameTables}
      (hplaying : Playing g db userId sessionId row scenario)
      (hresult : result = judgeQuote ⟨bid, ask⟩ scenario.trueValue g.config.noiseEpsilon noiseDraw)
      (hvalid : result.verdict ≠ .invalid) (hr : r = roundOf row bid ask result)
      (hrow' : row' = g.playRound row result) (hdb' : db' = db.revise (finishRound row') [r]) :
      Acts g db (.submitQuote userId sessionId bid ask noiseDraw) db'
        (.ok (roundResultJson row' r ::
          if row'.maxRounds ≤ row'.currentRound then
            [gameEndedJson db' { row' with status := .ended } scenario .maxRoundsReached]
          else []))
  | hinted {userId sessionId next : Int} {row row' : GameSessionRow} {scenario : Scenario}
      {before : List Int} (hplaying : Playing g db userId sessionId row scenario)
      (hbefore : parseHintsCsv row.hintsRevealedCsv = .ok before)
      (hnext : next = toInt before.length) (hlt : next < toInt scenario.hints.length)
      (hrow' : row' =
        { row with
          cash := row.cash - g.config.hintPenalty
          hintsRevealedCsv := hintsToCsv (before ++ [next]) }) :
      Acts g db (.requestHint userId sessionId) (db.revise row' [])
        (.ok [.hintRevealed
          { sessionId := row.id
            hintIndex := next
            hintText := scenario.hints.getD next.toNat ""
            cost := g.config.hintPenalty
            cash := row'.cash
            hintsRemaining := toInt scenario.hints.length - next - 1 }])
  | ended {userId sessionId : Int} {row row' : GameSessionRow} {scenario : Scenario}
      {db' : GameTables} (hplaying : Playing g db userId sessionId row scenario)
      (hrow' : row' = { row with status := .ended }) (hdb' : db' = db.revise row' []) :
      Acts g db (.endSession userId sessionId) db'
        (.ok [gameEndedJson db' row' scenario .playerClosed])

lemma pickScenario_eq_ok {category : String} {pick : Nat}
    (h : g.pickScenario category pick = .ok scenario) : ∃ s, g.findScenario scenario.id = .ok s := by
  have hmem : scenario ∈ g.scenarios := by
    simp only [pickScenario] at h
    split_ifs at h with hpool
    rw [← Except.ok.inj h]
    exact List.mem_of_mem_filter (List.get_mem _ _)
  simp only [findScenario]
  split
  · next s _ => exact ⟨s, rfl⟩
  · next hnone =>
    have hne := List.find?_eq_none.mp hnone scenario hmem
    exact absurd (decide_eq_true rfl) hne

/-- The session just created is found again. -/
lemma getGameSession_created (h : db.Keyed) (userId scenarioId maxRounds : Int) :
    (db.insertGameSession userId scenarioId maxRounds).getGameSession (db.lastId + 1) userId
      = some (db.fresh userId scenarioId maxRounds) := by
  have hold : db.gameSessions.find? (fun row => row.id = db.lastId + 1 ∧ row.userId = userId)
      = none := by
    rw [List.find?_eq_none]
    intro row hrow hcond
    have hle := h.issued row hrow
    have hid := (of_decide_eq_true hcond).1
    omega
  rw [GameTables.insertGameSession, GameTables.getGameSession, List.find?_append, hold]
  simp [GameTables.fresh]

lemma newSession_acts {db₀ : GameTables} {category : String} {pick : Nat} {forceNew : Bool}
    {refusal : Option String} (h : db.Keyed) (hgiven : GivenUp db₀ userId db) :
    Acts g db₀ (.startSession userId category forceNew pick refusal)
      (g.newSession db userId category pick refusal).1
      (g.newSession db userId category pick refusal).2 := by
  simp only [newSession]
  cases hpick : g.pickScenario category pick with
  | error e => exact .notStarted _ _ _ _ hgiven e
  | ok scenario =>
    cases refusal with
    | some errmsg => exact .notStarted _ _ _ _ hgiven _
    | none =>
      simp only [GameTables.createGameSession,
        getGameSession_created h userId scenario.id g.config.defaultMaxRounds]
      exact .started _ _ _ hgiven (pickScenario_eq_ok hpick) rfl

/-- **A call** does one of these things. -/
theorem call_acts (h : db.Keyed) (c : Call) : Acts g db c (g.call db c).1 (g.call db c).2 := by
  cases c with
  | startSession userId category forceNew pick refusal =>
    simp only [call, startSession]
    cases hactive : db.getActiveGameSession userId with
    | none => exact newSession_acts h (.none hactive)
    | some row =>
      cases forceNew with
      | false => exact .resumed _ _ _ hactive
      | true =>
        obtain ⟨hrow, -, -⟩ := GameTables.mem_of_getActiveGameSession hactive
        have hended : db.endGameSession row.id = db.revise { row with status := .ended } [] :=
          GameTables.update_eq h.nodup hrow rfl
        simp only [if_true, hended]
        exact newSession_acts (h.revise hrow rfl rfl nofun nofun) (.some hactive)
  | submitQuote userId sessionId bid ask noiseDraw =>
    simp only [call, submitQuote]
    cases hjudge : g.judgeSession db userId sessionId bid ask noiseDraw with
    | error e => exact .failed _ e
    | ok x =>
      obtain ⟨row, scenario, result⟩ := x
      obtain ⟨hplaying, hresult, hvalid⟩ := judgeSession_eq_ok hjudge
      obtain rfl := hplaying.id
      have hacts := Acts.quoted hplaying hresult hvalid rfl rfl rfl
      rw [← recordRound_eq h hplaying.mem result] at hacts
      exact hacts
  | requestHint userId sessionId =>
    simp only [call, requestHint]
    cases hhint : g.nextHint db userId sessionId with
    | error e => exact .failed _ e
    | ok x =>
      obtain ⟨row, scenario, revealed, nextIndex, hintText⟩ := x
      obtain ⟨hplaying, before, hbefore, hnext, hlt, rfl, rfl⟩ := nextHint_eq_ok hhint
      obtain rfl := hplaying.id
      simp only [GameTables.updateGameSessionState_eq h.nodup hplaying.mem]
      exact .hinted hplaying hbefore hnext hlt rfl
  | endSession userId sessionId =>
    simp only [call, endSession]
    split
    · next e _ => exact .failed _ e
    · next row scenario hrow =>
      obtain ⟨row', hrow', hrow⟩ := Except.bind_eq_ok hrow
      obtain ⟨scenario', hscenario, hrow⟩ := Except.bind_eq_ok hrow
      obtain ⟨rfl, rfl⟩ : row' = row ∧ scenario' = scenario := by simpa using Except.ok.inj hrow
      obtain ⟨hmem, hid, huser, hactive⟩ := requireActiveSession_eq_ok hrow'
      have hended : db.endGameSession sessionId = db.revise { row' with status := .ended } [] := by
        rw [← hid]
        exact GameTables.update_eq h.nodup hmem rfl
      rw [hended]
      exact .ended ⟨hmem, hid, huser, hactive, hscenario⟩ rfl rfl

end GameManager

end ExchangeEngine
