import ExchangeEngine.GameManager.Edge

/-!
# The secret of a scenario

Every message is built with the scenario at hand, but only the judge and the final result read its
true value. Two banks that differ in nothing else cannot be told apart, as long as the judge says
the same about every quote.
-/

namespace ExchangeEngine

/-- A scenario without its secret. -/
def Scenario.conceal (s : Scenario) : Scenario := { s with trueValue := 0 }

/-- What the judge answers with a verdict. -/
def Quote.answer (q : Quote) : Verdict → JudgeResult
  | .buy => ⟨.buy, q.ask⟩
  | .sell => ⟨.sell, q.bid⟩
  | .pass => ⟨.pass, 0⟩
  | .invalid => ⟨.invalid, 0⟩

@[simp] lemma Quote.answer_verdict (q : Quote) (v : Verdict) : (q.answer v).verdict = v := by
  cases v <;> rfl

/-- The verdict decides the fill price. -/
lemma judgeQuote_eq_answer (q : Quote) (trueValue noiseEpsilon noiseDraw : ℚ) :
    judgeQuote q trueValue noiseEpsilon noiseDraw
      = q.answer (judgeQuote q trueValue noiseEpsilon noiseDraw).verdict := by
  have hjudged := judgeQuote_judged q trueValue noiseEpsilon noiseDraw
  generalize judgeQuote q trueValue noiseEpsilon noiseDraw = result at hjudged ⊢
  cases hjudged <;> rfl

/-- A quote is refused for what it is. -/
lemma judgeQuote_invalid_iff {q : Quote} {trueValue noiseEpsilon noiseDraw : ℚ} :
    (judgeQuote q trueValue noiseEpsilon noiseDraw).verdict = .invalid ↔ q.ask < q.bid := by
  have hjudged := judgeQuote_judged q trueValue noiseEpsilon noiseDraw
  generalize judgeQuote q trueValue noiseEpsilon noiseDraw = result at hjudged ⊢
  cases hjudged with
  | invalid hcrossed => exact ⟨fun _ => hcrossed, fun _ => rfl⟩
  | tails h => exact ⟨nofun, fun hlt => absurd hlt (not_lt.mpr h)⟩
  | bandBuy h => exact ⟨nofun, fun hlt => absurd hlt (not_lt.mpr h)⟩
  | bandSell h => exact ⟨nofun, fun hlt => absurd hlt (not_lt.mpr h)⟩
  | buy h => exact ⟨nofun, fun hlt => absurd hlt (not_lt.mpr h)⟩
  | sell h => exact ⟨nofun, fun hlt => absurd hlt (not_lt.mpr h)⟩
  | pass h => exact ⟨nofun, fun hlt => absurd hlt (not_lt.mpr h)⟩

namespace GameManager

variable {g g' : GameManager} {db : GameTables} {row : GameSessionRow}
  {userId sessionId scenarioId : Int} {category : String}

/-- The bank without its secrets. -/
def conceal (g : GameManager) : GameManager where
  scenarios := g.scenarios.map Scenario.conceal
  config := g.config

/-! ### What does not depend on the true values -/

lemma pool_conceal (g : GameManager) (category : String) :
    (g.conceal.scenarios.filter fun s => category = "" ∨ s.category = category)
      = (g.scenarios.filter fun s => category = "" ∨ s.category = category).map
          Scenario.conceal := by
  rw [conceal, List.filter_map]
  rfl

lemma pickScenario_eq {pool : List Scenario} (pick : Nat)
    (h : (g.scenarios.filter fun s => category = "" ∨ s.category = category) = pool) :
    g.pickScenario category pick =
      if hnil : pool = [] then
        .error (.gameError ("No scenarios available for category '" ++ category ++ "'"))
      else .ok (pool.get ⟨pick % pool.length, Nat.mod_lt _ (List.length_pos_iff.mpr hnil)⟩) := by
  subst h
  rfl

lemma pickScenario_conceal (g : GameManager) (category : String) (pick : Nat) :
    g.conceal.pickScenario category pick
      = (g.pickScenario category pick).map Scenario.conceal := by
  rw [pickScenario_eq pick (pool_conceal g category), pickScenario_eq pick rfl]
  split_ifs with hconceal hnil hnil
  · rfl
  · exact absurd (List.map_eq_nil_iff.mp hconceal) hnil
  · exact absurd (List.map_eq_nil_iff.mpr hnil) hconceal
  · simp [Except.map]

lemma findScenario_conceal (g : GameManager) (scenarioId : Int) :
    g.conceal.findScenario scenarioId = (g.findScenario scenarioId).map Scenario.conceal := by
  have hfind : g.conceal.scenarios.find? (fun s => s.id = scenarioId)
      = (g.scenarios.find? fun s => s.id = scenarioId).map Scenario.conceal := by
    rw [conceal, List.find?_map]
    rfl
  simp only [findScenario]
  rw [hfind]
  cases g.scenarios.find? (fun s => s.id = scenarioId) with
  | none => rfl
  | some s => rfl

lemma sessionStartedJson_conceal (g : GameManager) (db : GameTables) (row : GameSessionRow) :
    g.conceal.sessionStartedJson db row = g.sessionStartedJson db row := by
  simp only [sessionStartedJson]
  rw [findScenario_conceal]
  cases g.findScenario row.scenarioId with
  | error e => rfl
  | ok s => rfl

lemma newSession_conceal (g : GameManager) (db : GameTables) (userId : Int) (category : String)
    (pick : Nat) (refusal : Option String) :
    g.conceal.newSession db userId category pick refusal
      = g.newSession db userId category pick refusal := by
  simp only [newSession]
  simp only [pickScenario_conceal, sessionStartedJson_conceal]
  cases g.pickScenario category pick with
  | error e => rfl
  | ok s => rfl

lemma startSession_conceal (g : GameManager) (db : GameTables) (userId : Int) (category : String)
    (forceNew : Bool) (pick : Nat) (refusal : Option String) :
    g.conceal.startSession db userId category forceNew pick refusal
      = g.startSession db userId category forceNew pick refusal := by
  simp only [startSession]
  simp only [newSession_conceal, sessionStartedJson_conceal]

lemma nextHint_conceal (g : GameManager) (db : GameTables) (userId sessionId : Int) :
    g.conceal.nextHint db userId sessionId = (g.nextHint db userId sessionId).map
      fun x => (x.1, x.2.1.conceal, x.2.2) := by
  simp only [nextHint]
  rw [Except.map_bind]
  refine Except.bind_congr fun row => ?_
  rw [findScenario_conceal, Except.bind_map, Except.map_bind]
  refine Except.bind_congr fun s => ?_
  rw [Except.map_bind]
  refine Except.bind_congr fun revealed => ?_
  rw [apply_ite (Except.map _)]
  rfl

lemma requestHint_conceal (g : GameManager) (db : GameTables) (userId sessionId : Int) :
    g.conceal.requestHint db userId sessionId = g.requestHint db userId sessionId := by
  simp only [requestHint]
  rw [nextHint_conceal]
  cases g.nextHint db userId sessionId with
  | error e => rfl
  | ok x => rfl

/-! ### Two banks -/

/-- What two banks that differ only in their secrets find. -/
lemma findScenario_same (h : g.conceal = g'.conceal) (scenarioId : Int) :
    (∃ e, g.findScenario scenarioId = .error e ∧ g'.findScenario scenarioId = .error e) ∨
      ∃ s s', g.findScenario scenarioId = .ok s ∧ g'.findScenario scenarioId = .ok s' := by
  have hmap : (g.findScenario scenarioId).map Scenario.conceal
      = (g'.findScenario scenarioId).map Scenario.conceal := by
    rw [← findScenario_conceal, ← findScenario_conceal, h]
  cases hs : g.findScenario scenarioId with
  | error e =>
    cases hs' : g'.findScenario scenarioId with
    | error e' =>
      rw [hs, hs'] at hmap
      exact Or.inl ⟨e, rfl, congrArg Except.error (Except.error.inj hmap).symm⟩
    | ok s' =>
      rw [hs, hs'] at hmap
      cases hmap
  | ok s =>
    cases hs' : g'.findScenario scenarioId with
    | error e' =>
      rw [hs, hs'] at hmap
      cases hmap
    | ok s' => exact Or.inr ⟨s, s', rfl, rfl⟩

/-- The verdicts that are told to the player. -/
def verdictsOf (result : Except GameException (List GameMessage)) : List RoundVerdict :=
  (messagesOf result).filterMap fun
    | .roundResult msg => some msg.verdict
    | _ => none

/-- A quote receives the same verdict. -/
def SameVerdict (result result' : Except GameException (List GameMessage)) : Prop :=
  ∀ v ∈ verdictsOf result, ∀ v' ∈ verdictsOf result', v = v'

instance (result result' : Except GameException (List GameMessage)) :
    Decidable (SameVerdict result result') :=
  inferInstanceAs (Decidable (∀ v ∈ verdictsOf result, ∀ v' ∈ verdictsOf result', v = v'))

lemma verdictToString_inj {v v' : Verdict} (hv : v ≠ .invalid) (hv' : v' ≠ .invalid)
    (h : verdictToString v = verdictToString v') : v = v' := by
  cases v with
  | buy => cases v' <;> first | rfl | cases h
  | sell => cases v' <;> first | rfl | cases h
  | pass => cases v' <;> first | rfl | exact absurd rfl hv' | cases h
  | invalid => exact absurd rfl hv

lemma playRound_same (h : g.conceal = g'.conceal) (row : GameSessionRow) (result : JudgeResult) :
    g.playRound row result = g'.playRound row result := by
  have hconfig := congrArg config h
  change g.config = g'.config at hconfig
  simp only [playRound]
  rw [hconfig]

section Quoted

variable {s : Scenario} {bid ask noiseDraw : ℚ} {result : JudgeResult} {e : GameException}

lemma judgeSession_eq_bind (hrow : requireActiveSession db sessionId userId = .ok row) :
    g.judgeSession db userId sessionId bid ask noiseDraw = g.findScenario row.scenarioId >>= fun s =>
      if (judgeQuote ⟨bid, ask⟩ s.trueValue g.config.noiseEpsilon noiseDraw).verdict = .invalid then
        .error (.gameError "Crossed quote: bid must be <= ask")
      else .ok (row, s, judgeQuote ⟨bid, ask⟩ s.trueValue g.config.noiseEpsilon noiseDraw) := by
  simp only [judgeSession]
  rw [hrow]
  rfl

lemma submitQuote_error (h : g.judgeSession db userId sessionId bid ask noiseDraw = .error e) :
    g.submitQuote db userId sessionId bid ask noiseDraw = (db, .error e) := by
  simp only [submitQuote]
  rw [h]

lemma submitQuote_ok
    (h : g.judgeSession db userId sessionId bid ask noiseDraw = .ok (row, s, result)) :
    g.submitQuote db userId sessionId bid ask noiseDraw =
      (recordRound db (g.playRound row result) (roundOf row bid ask result),
        .ok (roundResultJson (g.playRound row result) (roundOf row bid ask result) ::
          if (g.playRound row result).maxRounds ≤ (g.playRound row result).currentRound then
            [gameEndedJson (recordRound db (g.playRound row result) (roundOf row bid ask result))
              { g.playRound row result with status := .ended } s .maxRoundsReached]
          else [])) := by
  simp only [submitQuote]
  rw [h]

/-- A quote is refused alike, or judged. -/
lemma judgeSession_same (h : g.conceal = g'.conceal) (db : GameTables) (userId sessionId : Int)
    (bid ask noiseDraw : ℚ) :
    (∃ e, g.judgeSession db userId sessionId bid ask noiseDraw = .error e ∧
      g'.judgeSession db userId sessionId bid ask noiseDraw = .error e) ∨
    ∃ (row : GameSessionRow) (s s' : Scenario) (v v' : Verdict), v ≠ .invalid ∧ v' ≠ .invalid ∧
      g.judgeSession db userId sessionId bid ask noiseDraw
        = .ok (row, s, Quote.answer ⟨bid, ask⟩ v) ∧
      g'.judgeSession db userId sessionId bid ask noiseDraw
        = .ok (row, s', Quote.answer ⟨bid, ask⟩ v') := by
  cases hrow : requireActiveSession db sessionId userId with
  | error e =>
    refine Or.inl ⟨e, ?_, ?_⟩
    · simp only [judgeSession]
      rw [hrow]
      rfl
    · simp only [judgeSession]
      rw [hrow]
      rfl
  | ok row =>
    rw [judgeSession_eq_bind hrow, judgeSession_eq_bind hrow]
    rcases findScenario_same h row.scenarioId with ⟨e, hs, hs'⟩ | ⟨s, s', hs, hs'⟩
    · rw [hs, hs']
      exact Or.inl ⟨e, rfl, rfl⟩
    · rw [hs, hs', Except.ok_bind, Except.ok_bind]
      by_cases hcrossed : ask < bid
      · rw [if_pos (judgeQuote_invalid_iff.mpr hcrossed),
          if_pos (judgeQuote_invalid_iff.mpr hcrossed)]
        exact Or.inl ⟨_, rfl, rfl⟩
      · have hvalid (trueValue noiseEpsilon : ℚ) :
            (judgeQuote ⟨bid, ask⟩ trueValue noiseEpsilon noiseDraw).verdict ≠ .invalid :=
          fun hinvalid => hcrossed (judgeQuote_invalid_iff.mp hinvalid)
        rw [if_neg (hvalid _ _), if_neg (hvalid _ _)]
        refine Or.inr ⟨row, s, s', _, _, hvalid s.trueValue g.config.noiseEpsilon,
          hvalid s'.trueValue g'.config.noiseEpsilon, ?_, ?_⟩
        · rw [← judgeQuote_eq_answer]
        · rw [← judgeQuote_eq_answer]

lemma submitQuote_same (h : g.conceal = g'.conceal)
    (hverdict : SameVerdict (g.submitQuote db userId sessionId bid ask noiseDraw).2
      (g'.submitQuote db userId sessionId bid ask noiseDraw).2)
    (hended : ∀ msg, GameMessage.ended msg ∉
      messagesOf (g.submitQuote db userId sessionId bid ask noiseDraw).2) :
    g.submitQuote db userId sessionId bid ask noiseDraw
      = g'.submitQuote db userId sessionId bid ask noiseDraw := by
  rcases judgeSession_same h db userId sessionId bid ask noiseDraw with
    ⟨e, hjudge, hjudge'⟩ | ⟨row, s, s', v, v', hv, hv', hjudge, hjudge'⟩
  · rw [submitQuote_error hjudge, submitQuote_error hjudge']
  · rw [submitQuote_ok hjudge] at hended
    rw [submitQuote_ok hjudge, submitQuote_ok hjudge', ← playRound_same h] at hverdict ⊢
    have htold : verdictToString (Quote.answer ⟨bid, ask⟩ v).verdict
        = verdictToString (Quote.answer ⟨bid, ask⟩ v').verdict :=
      hverdict _ List.mem_cons_self _ List.mem_cons_self
    rw [Quote.answer_verdict, Quote.answer_verdict] at htold
    rw [verdictToString_inj hv hv' htold] at hended ⊢
    by_cases hend : (g.playRound row (Quote.answer ⟨bid, ask⟩ v')).maxRounds
        ≤ (g.playRound row (Quote.answer ⟨bid, ask⟩ v')).currentRound
    · rw [if_pos hend] at hended
      exact absurd (List.mem_cons_of_mem _ (List.mem_singleton_self _)) (hended _)
    · rw [if_neg hend, if_neg hend]

end Quoted

/-- Two banks answer a call alike. -/
lemma call_same (h : g.conceal = g'.conceal) (db : GameTables) (c : Call)
    (hverdict : SameVerdict (g.call db c).2 (g'.call db c).2)
    (hended : ∀ msg, GameMessage.ended msg ∉ messagesOf (g.call db c).2) :
    g.call db c = g'.call db c := by
  cases c with
  | startSession userId category forceNew pick refusal =>
    simp only [call]
    rw [← startSession_conceal, h, startSession_conceal]
  | submitQuote userId sessionId bid ask noiseDraw => exact submitQuote_same h hverdict hended
  | requestHint userId sessionId =>
    simp only [call]
    rw [← requestHint_conceal, h, requestHint_conceal]
  | endSession userId sessionId =>
    simp only [call] at hended ⊢
    simp only [endSession] at hended ⊢
    cases hrow : requireActiveSession db sessionId userId with
    | error e => rfl
    | ok row =>
      rw [hrow] at hended
      rcases findScenario_same h row.scenarioId with ⟨e, hs, hs'⟩ | ⟨s, s', hs, hs'⟩
      · rw [Except.ok_bind, Except.ok_bind, hs, hs']
      · rw [Except.ok_bind, hs] at hended
        exact absurd (List.mem_singleton_self _) (hended _)

/-! ### Draws -/

/-- A random number that a call takes: the noise of a quote, or an index below a bound. -/
inductive Draw
  | noise
  | index (bound : Nat)
deriving DecidableEq, Repr

/-- The random number that a call takes, if it gets that far. -/
def draw (g : GameManager) (db : GameTables) : Call → Option Draw
  | .startSession userId category forceNew _ _ =>
    let pool := g.scenarios.filter fun s => category = "" ∨ s.category = category
    if (forceNew = false ∧ db.getActiveGameSession userId ≠ none) ∨ pool = [] then none
    else some (.index pool.length)
  | .submitQuote userId sessionId _ _ _ =>
    match requireActiveSession db sessionId userId >>= fun row =>
      g.findScenario row.scenarioId with
    | .ok _ => some .noise
    | .error _ => none
  | _ => none

/-- The random numbers that the calls take, in order. -/
def draws (g : GameManager) (db : GameTables) : List Call → List (Option Draw)
  | [] => []
  | c :: calls => g.draw db c :: draws g (g.call db c).1 calls

lemma draw_conceal (g : GameManager) (db : GameTables) (c : Call) :
    g.conceal.draw db c = g.draw db c := by
  cases c with
  | startSession userId category forceNew pick refusal =>
    simp only [draw, pool_conceal, List.length_map, List.map_eq_nil_iff]
  | submitQuote userId sessionId bid ask noiseDraw =>
    simp only [draw]
    cases requireActiveSession db sessionId userId with
    | error e => rfl
    | ok row =>
      rw [Except.ok_bind, Except.ok_bind, findScenario_conceal]
      cases g.findScenario row.scenarioId with
      | error e => rfl
      | ok s => rfl
  | requestHint => rfl
  | endSession => rfl

/-! ### Two runs -/

/-- **The true values stay secret**: two banks that differ only in them, with the same random
draws, send the same messages and leave the same tables, as long as every quote receives the same
verdict and no final result is sent. They also take the same draws. -/
theorem trueValue_secret (h : g.conceal = g'.conceal) (db : GameTables) (calls : List Call)
    (hverdicts : List.Forall₂ SameVerdict (g.outcomes db calls) (g'.outcomes db calls))
    (hended : ∀ msg, GameMessage.ended msg ∉ g.sent db calls) :
    g.outcomes db calls = g'.outcomes db calls ∧ g.run db calls = g'.run db calls ∧
      g.draws db calls = g'.draws db calls := by
  induction calls generalizing db with
  | nil => exact ⟨rfl, rfl, rfl⟩
  | cons c calls ih =>
    obtain ⟨hverdict, hverdicts⟩ := List.forall₂_cons.mp hverdicts
    have hcall := call_same h db c hverdict fun msg hmsg =>
      hended msg (List.mem_append_left _ hmsg)
    rw [← hcall] at hverdicts
    obtain ⟨houtcomes, hrun, hdraws⟩ := ih (g.call db c).1 hverdicts fun msg hmsg =>
      hended msg (List.mem_append_right _ hmsg)
    have hdraw : g.draw db c = g'.draw db c := by
      rw [← draw_conceal, h, draw_conceal]
    refine ⟨?_, ?_, ?_⟩
    · rw [outcomes, outcomes, ← hcall, houtcomes]
    · rw [run, List.foldl_cons, ← run, hrun, hcall]
      rfl
    · rw [draws, draws, hdraw, ← hcall, hdraws]

/-- The small game with another true value. -/
def otherGame : GameManager where
  scenarios := sampleGame.scenarios.map fun s => { s with trueValue := 6550 }
  config := sampleGame.config

/-- User 7 trades, asks for a hint, fails, resumes and starts again. -/
def secretCalls : List Call :=
  [.startSession 7 "" false 0 none, .submitQuote 7 1 6000 6500 0, .requestHint 7 1,
    .submitQuote 7 1 7000 6900 0, .submitQuote 7 1 6400 6600 0, .startSession 7 "" false 0 none,
    .startSession 7 "estimation" true 0 none]

theorem trueValue_secret_sampleGame :
    sampleGame.scenarios.map Scenario.trueValue ≠ otherGame.scenarios.map Scenario.trueValue ∧
      sampleGame.outcomes .empty secretCalls = otherGame.outcomes .empty secretCalls ∧
      sampleGame.run .empty secretCalls = otherGame.run .empty secretCalls ∧
      sampleGame.draws .empty secretCalls = otherGame.draws .empty secretCalls := by
  have hverdicts : List.Forall₂ SameVerdict (sampleGame.outcomes .empty secretCalls)
      (otherGame.outcomes .empty secretCalls) := by
    decide +kernel
  have hnone : (sampleGame.sent .empty secretCalls).filterMap (fun
      | .ended msg => some msg.sessionId
      | _ => none) = [] := by
    decide +kernel
  have hconceal : sampleGame.conceal = otherGame.conceal := rfl
  refine ⟨by decide +kernel,
    trueValue_secret hconceal .empty secretCalls hverdicts fun msg hmsg => ?_⟩
  exact absurd (List.filterMap_eq_nil_iff.mp hnone _ hmsg) nofun

end GameManager

end ExchangeEngine
