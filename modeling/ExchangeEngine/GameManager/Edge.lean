import ExchangeEngine.GameManager.Invariant
import Mathlib.Tactic.Linarith

/-!
# The edge of the interviewer

What the interviewer gains by a trade, at the true value, is his edge. The judge trades only where
he has one, up to the noise, and the final result of a game is what he gave away.
-/

namespace ExchangeEngine

/-! ### The judge -/

/-- What the interviewer gains by buying at the ask. -/
def Quote.askEdge (q : Quote) (trueValue : ℚ) : ℚ := trueValue - q.ask

/-- What he gains by selling at the bid. -/
def Quote.bidEdge (q : Quote) (trueValue : ℚ) : ℚ := q.bid - trueValue

/-- What he gains by a verdict. -/
def Quote.edge (q : Quote) (trueValue : ℚ) : RoundVerdict → ℚ
  | .buy => q.askEdge trueValue
  | .sell => q.bidEdge trueValue
  | .pass => 0

/-- The coin decides about such a quote. -/
def Quote.InBand (q : Quote) (trueValue noiseEpsilon : ℚ) : Prop :=
  0 < noiseEpsilon ∧ (|q.askEdge trueValue| ≤ noiseEpsilon ∨ |q.bidEdge trueValue| ≤ noiseEpsilon)

variable {q : Quote} {trueValue noiseEpsilon noiseDraw : ℚ}

/-- The branches of the judge. -/
inductive Judged (q : Quote) (trueValue noiseEpsilon noiseDraw : ℚ) : JudgeResult → Prop
  | invalid (h : q.ask < q.bid) : Judged q trueValue noiseEpsilon noiseDraw ⟨.invalid, 0⟩
  | tails (h : q.bid ≤ q.ask) (hband : q.InBand trueValue noiseEpsilon) (hdraw : noiseDraw < 1 / 2) :
      Judged q trueValue noiseEpsilon noiseDraw ⟨.pass, 0⟩
  | bandBuy (h : q.bid ≤ q.ask) (hband : q.InBand trueValue noiseEpsilon)
      (hnear : |q.askEdge trueValue| ≤ noiseEpsilon)
      (hbest : q.bidEdge trueValue ≤ q.askEdge trueValue) :
      Judged q trueValue noiseEpsilon noiseDraw ⟨.buy, q.ask⟩
  | bandSell (h : q.bid ≤ q.ask) (hband : q.InBand trueValue noiseEpsilon)
      (hnear : |q.bidEdge trueValue| ≤ noiseEpsilon)
      (hbest : q.askEdge trueValue ≤ q.bidEdge trueValue) :
      Judged q trueValue noiseEpsilon noiseDraw ⟨.sell, q.bid⟩
  | buy (h : q.bid ≤ q.ask) (hband : ¬ q.InBand trueValue noiseEpsilon)
      (hedge : 0 < q.askEdge trueValue) : Judged q trueValue noiseEpsilon noiseDraw ⟨.buy, q.ask⟩
  | sell (h : q.bid ≤ q.ask) (hband : ¬ q.InBand trueValue noiseEpsilon)
      (hedge : 0 < q.bidEdge trueValue) : Judged q trueValue noiseEpsilon noiseDraw ⟨.sell, q.bid⟩
  | pass (h : q.bid ≤ q.ask) (hband : ¬ q.InBand trueValue noiseEpsilon)
      (hask : q.askEdge trueValue ≤ 0) (hbid : q.bidEdge trueValue ≤ 0) :
      Judged q trueValue noiseEpsilon noiseDraw ⟨.pass, 0⟩

/-- The two edges cannot both be positive. -/
lemma edges_le (h : q.bid ≤ q.ask) : q.askEdge trueValue + q.bidEdge trueValue ≤ 0 := by
  simp only [Quote.askEdge, Quote.bidEdge]
  linarith

section Band

variable {x y e : ℚ}

/-- Of two edges of which the second is small, the first is not the better one unless it is small.
-/
lemma le_of_near (hsum : x + y ≤ 0) (hnear : |y| ≤ e) (hother : ¬ (|x| ≤ e ∧ y ≤ x)) : x ≤ y := by
  by_contra hlt
  rw [not_le] at hlt
  obtain ⟨hlow, -⟩ := abs_le.mp hnear
  refine hother ⟨abs_le.mpr ⟨?_, ?_⟩, hlt.le⟩
  · linarith
  · linarith

/-- One of two edges is small and the best. -/
lemma not_far (hsum : x + y ≤ 0) (hband : |x| ≤ e ∨ |y| ≤ e) (hx : ¬ (|x| ≤ e ∧ y ≤ x))
    (hy : ¬ |y| ≤ e) : False := by
  rcases hband with hnear | hnear
  · have hlt : x < y := not_le.mp fun hle => hx ⟨hnear, hle⟩
    obtain ⟨hlow, -⟩ := abs_le.mp hnear
    refine hy (abs_le.mpr ⟨?_, ?_⟩)
    · linarith
    · linarith
  · exact hy hnear

end Band

/-- **The judge** takes one of these branches; the last one of the band is never reached. -/
theorem judgeQuote_judged (q : Quote) (trueValue noiseEpsilon noiseDraw : ℚ) :
    Judged q trueValue noiseEpsilon noiseDraw
      (judgeQuote q trueValue noiseEpsilon noiseDraw) := by
  have hsum (h : q.bid ≤ q.ask) : q.askEdge trueValue + q.bidEdge trueValue ≤ 0 := edges_le h
  simp only [judgeQuote]
  split_ifs with hcrossed hband hdraw hbuy hsell hbuy hsell
  · exact .invalid hcrossed
  · exact .tails (not_lt.mp hcrossed) hband hdraw
  · exact .bandBuy (not_lt.mp hcrossed) hband hbuy.1 hbuy.2
  · have hbest := le_of_near (hsum (not_lt.mp hcrossed)) hsell hbuy
    exact .bandSell (not_lt.mp hcrossed) hband hsell hbest
  · exact (not_far (hsum (not_lt.mp hcrossed)) hband.2 hbuy hsell).elim
  · exact .buy (not_lt.mp hcrossed) hband hbuy.1
  · exact .sell (not_lt.mp hcrossed) hband hsell
  · have hbid : q.bidEdge trueValue ≤ 0 := not_lt.mp hsell
    have hask : q.askEdge trueValue ≤ 0 :=
      not_lt.mp fun hpos => hbuy ⟨hpos, hbid.trans hpos.le⟩
    exact .pass (not_lt.mp hcrossed) hband hask hbid

/-- A trade leaves the interviewer an edge, up to the noise. -/
def FairEdge (noiseEpsilon edge : ℚ) : Prop :=
  -noiseEpsilon ≤ edge ∧ (noiseEpsilon = 0 → 0 < edge)

lemma fairEdge_of_pos {edge : ℚ} (heps : 0 ≤ noiseEpsilon) (h : 0 < edge) :
    FairEdge noiseEpsilon edge :=
  ⟨(neg_nonpos.mpr heps).trans h.le, fun _ => h⟩

lemma fairEdge_of_band {edge : ℚ} (hband : q.InBand trueValue noiseEpsilon)
    (h : |edge| ≤ noiseEpsilon) : FairEdge noiseEpsilon edge :=
  ⟨(abs_le.mp h).1, fun hzero => absurd hzero hband.1.ne'⟩

/-- A round that is recorded as a trade is a fair one. -/
lemma Judged.fair {result : JudgeResult} (h : Judged q trueValue noiseEpsilon noiseDraw result)
    (heps : 0 ≤ noiseEpsilon) (htraded : GameManager.verdictToString result.verdict ≠ .pass) :
    FairEdge noiseEpsilon (q.edge trueValue (GameManager.verdictToString result.verdict)) := by
  cases h with
  | invalid => exact absurd rfl htraded
  | tails => exact absurd rfl htraded
  | bandBuy _ hband hnear => exact fairEdge_of_band hband hnear
  | bandSell _ hband hnear => exact fairEdge_of_band hband hnear
  | buy _ _ hedge => exact fairEdge_of_pos heps hedge
  | sell _ _ hedge => exact fairEdge_of_pos heps hedge
  | pass => exact absurd rfl htraded

/-- With heads, a quote in the band trades on the better side. -/
lemma judgeQuote_heads (h : q.bid ≤ q.ask) (hband : q.InBand trueValue noiseEpsilon)
    (hdraw : 1 / 2 ≤ noiseDraw) :
    judgeQuote q trueValue noiseEpsilon noiseDraw = ⟨.buy, q.ask⟩ ∧
        q.bidEdge trueValue ≤ q.askEdge trueValue ∨
      judgeQuote q trueValue noiseEpsilon noiseDraw = ⟨.sell, q.bid⟩ ∧
        q.askEdge trueValue ≤ q.bidEdge trueValue := by
  have hjudged := judgeQuote_judged q trueValue noiseEpsilon noiseDraw
  generalize judgeQuote q trueValue noiseEpsilon noiseDraw = result at hjudged ⊢
  cases hjudged with
  | invalid hcrossed => exact absurd hcrossed (not_lt.mpr h)
  | tails _ _ htails => exact absurd htails (not_lt.mpr hdraw)
  | bandBuy _ _ _ hbest => exact Or.inl ⟨rfl, hbest⟩
  | bandSell _ _ _ hbest => exact Or.inr ⟨rfl, hbest⟩
  | buy _ hout => exact absurd hband hout
  | sell _ hout => exact absurd hband hout
  | pass _ hout => exact absurd hband hout

/-- Without noise the judge passes when the true value is in the spread. -/
lemma judgeQuote_pass_iff :
    (judgeQuote q trueValue 0 noiseDraw).verdict = .pass ↔
      q.bid ≤ trueValue ∧ trueValue ≤ q.ask := by
  have hjudged := judgeQuote_judged q trueValue 0 noiseDraw
  generalize judgeQuote q trueValue 0 noiseDraw = result at hjudged ⊢
  cases hjudged with
  | invalid hcrossed =>
    refine ⟨nofun, fun ⟨hbid, hask⟩ => ?_⟩
    exact absurd (hbid.trans hask) (not_le.mpr hcrossed)
  | tails _ hband => exact absurd hband.1 (lt_irrefl 0)
  | bandBuy _ hband => exact absurd hband.1 (lt_irrefl 0)
  | bandSell _ hband => exact absurd hband.1 (lt_irrefl 0)
  | buy _ _ hedge =>
    refine ⟨nofun, fun ⟨_, hask⟩ => ?_⟩
    exact absurd hask (not_le.mpr (sub_pos.mp hedge))
  | sell _ _ hedge =>
    refine ⟨nofun, fun ⟨hbid, _⟩ => ?_⟩
    exact absurd hbid (not_le.mpr (sub_pos.mp hedge))
  | pass _ _ hask hbid => exact ⟨fun _ => ⟨sub_nonpos.mp hbid, sub_nonpos.mp hask⟩, fun _ => rfl⟩

namespace GameManager

variable {g : GameManager} {db db' : GameTables} {row row' : GameSessionRow} {scenario : Scenario}
  {msgs new : List GameMessage} {sessionId : Int}

/-! ### The account of a session -/

/-- The rounds of a session that the messages report. -/
def roundsOf (sessionId : Int) (msgs : List GameMessage) : List GameRoundResult :=
  msgs.filterMap fun
    | .roundResult msg => if msg.sessionId = sessionId then some msg else none
    | _ => none

/-- The hints of a session that the messages reveal. -/
def hintsOf (sessionId : Int) (msgs : List GameMessage) : List GameHintRevealed :=
  msgs.filterMap fun
    | .hintRevealed msg => if msg.sessionId = sessionId then some msg else none
    | _ => none

/-- What the interviewer has gained by the rounds. -/
def totalEdge (trueValue : ℚ) (rounds : List GameRoundResult) : ℚ :=
  (rounds.map fun r => r.quote.edge trueValue r.verdict).sum

lemma roundsOf_append (sessionId : Int) (msgs new : List GameMessage) :
    roundsOf sessionId (msgs ++ new) = roundsOf sessionId msgs ++ roundsOf sessionId new :=
  List.filterMap_append

lemma hintsOf_append (sessionId : Int) (msgs new : List GameMessage) :
    hintsOf sessionId (msgs ++ new) = hintsOf sessionId msgs ++ hintsOf sessionId new :=
  List.filterMap_append

lemma roundsOf_other (h : ∀ msg ∈ msgs, msg.sessionId ≠ sessionId) :
    roundsOf sessionId msgs = [] := by
  refine List.filterMap_eq_nil_iff.mpr fun msg hmsg => ?_
  have hne := h msg hmsg
  cases msg with
  | roundResult msg => exact if_neg hne
  | started => rfl
  | hintRevealed => rfl
  | ended => rfl

lemma hintsOf_other (h : ∀ msg ∈ msgs, msg.sessionId ≠ sessionId) : hintsOf sessionId msgs = [] := by
  refine List.filterMap_eq_nil_iff.mpr fun msg hmsg => ?_
  have hne := h msg hmsg
  cases msg with
  | hintRevealed msg => exact if_neg hne
  | started => rfl
  | roundResult => rfl
  | ended => rfl

lemma totalEdge_append (trueValue : ℚ) (rounds rounds' : List GameRoundResult) :
    totalEdge trueValue (rounds ++ rounds')
      = totalEdge trueValue rounds + totalEdge trueValue rounds' := by
  rw [totalEdge, List.map_append, List.sum_append, ← totalEdge, ← totalEdge]

/-- What the messages so far say about a session. -/
structure Account (g : GameManager) (msgs : List GameMessage) (row : GameSessionRow)
    (scenario : Scenario) : Prop where
  found : g.findScenario row.scenarioId = .ok scenario
  value : row.cash + row.position * scenario.trueValue
    = -g.config.unitSize * totalEdge scenario.trueValue (roundsOf row.id msgs)
      - g.config.hintPenalty * (hintsOf row.id msgs).length
  fair : ∀ r ∈ roundsOf row.id msgs, r.verdict ≠ .pass →
    FairEdge g.config.noiseEpsilon (r.quote.edge scenario.trueValue r.verdict)

lemma Account.congr (h : Account g msgs row scenario) (hid : row'.id = row.id)
    (hscenario : row'.scenarioId = row.scenarioId) (hposition : row'.position = row.position)
    (hcash : row'.cash = row.cash) : Account g msgs row' scenario where
  found := by
    rw [hscenario]
    exact h.found
  value := by
    rw [hid, hposition, hcash]
    exact h.value
  fair := by
    rw [hid]
    exact h.fair

/-- Messages that report neither a round nor a hint of the session. -/
lemma Account.append_other (h : Account g msgs row scenario) (hrounds : roundsOf row.id new = [])
    (hhints : hintsOf row.id new = []) : Account g (msgs ++ new) row scenario where
  found := h.found
  value := by
    rw [roundsOf_append, hintsOf_append, hrounds, hhints, List.append_nil, List.append_nil]
    exact h.value
  fair := by
    rw [roundsOf_append, hrounds, List.append_nil]
    exact h.fair

/-- A round gives the edge of the interviewer away. -/
lemma playRound_value {noiseDraw : ℚ} {result : JudgeResult}
    (h : Judged q trueValue noiseEpsilon noiseDraw result) (row : GameSessionRow) :
    (g.playRound row result).cash + (g.playRound row result).position * trueValue
      = row.cash + row.position * trueValue
        - g.config.unitSize * q.edge trueValue (verdictToString result.verdict) := by
  cases h with
  | invalid => simp [playRound, verdictToString, Quote.edge]
  | tails => simp [playRound, verdictToString, Quote.edge]
  | bandBuy =>
    simp only [playRound, verdictToString, Quote.edge, Quote.askEdge]
    ring
  | bandSell =>
    simp only [playRound, verdictToString, Quote.edge, Quote.bidEdge]
    ring
  | buy =>
    simp only [playRound, verdictToString, Quote.edge, Quote.askEdge]
    ring
  | sell =>
    simp only [playRound, verdictToString, Quote.edge, Quote.bidEdge]
    ring
  | pass => simp [playRound, verdictToString, Quote.edge]

/-- A round adds its edge to the account. -/
lemma Account.quoted {bid ask noiseDraw : ℚ} {result : JudgeResult} {tail : List GameMessage}
    (h : Account g msgs row scenario) (heps : 0 ≤ g.config.noiseEpsilon)
    (hresult : result = judgeQuote ⟨bid, ask⟩ scenario.trueValue g.config.noiseEpsilon noiseDraw)
    (htail : roundsOf row.id tail = []) (hhints : hintsOf row.id tail = []) :
    Account g
      (msgs ++ roundResultJson (g.playRound row result) (roundOf row bid ask result) :: tail)
      (g.playRound row result) scenario := by
  have hid := playRound_id (g := g) row result
  have hrounds : roundsOf row.id
      (roundResultJson (g.playRound row result) (roundOf row bid ask result) :: tail)
      = _ :: roundsOf row.id tail :=
    List.filterMap_cons_some (if_pos hid)
  have hnone : hintsOf row.id
      (roundResultJson (g.playRound row result) (roundOf row bid ask result) :: tail)
      = hintsOf row.id tail :=
    List.filterMap_cons_none rfl
  have hjudged := judgeQuote_judged ⟨bid, ask⟩ scenario.trueValue g.config.noiseEpsilon noiseDraw
  rw [← hresult] at hjudged
  refine ⟨?_, ?_, ?_⟩
  · rw [← playRound_eta]
    exact h.found
  · rw [playRound_value hjudged, h.value, hid, roundsOf_append, hintsOf_append, hrounds, hnone,
      htail, hhints, List.append_nil, totalEdge_append]
    simp only [totalEdge, List.map_cons, List.map_nil, List.sum_singleton, roundOf]
    ring
  · rw [hid, roundsOf_append, hrounds, htail]
    intro r hr htraded
    rcases List.mem_append.mp hr with hr | hr
    · exact h.fair r hr htraded
    · rw [List.mem_singleton.mp hr] at htraded ⊢
      exact hjudged.fair heps htraded

/-- A hint costs its price. -/
lemma Account.hinted {hint : GameHintRevealed} {csv : String}
    (h : Account g msgs row scenario) (hid : hint.sessionId = row.id) :
    Account g (msgs ++ [.hintRevealed hint])
      { row with cash := row.cash - g.config.hintPenalty, hintsRevealedCsv := csv } scenario := by
  have hhints : hintsOf row.id [.hintRevealed hint] = [hint] :=
    List.filterMap_cons_some (if_pos hid)
  have hrounds : roundsOf row.id [.hintRevealed hint] = [] := rfl
  refine ⟨h.found, ?_, ?_⟩
  · have hvalue := h.value
    rw [hintsOf_append, roundsOf_append, hhints, hrounds, List.append_nil, List.length_append,
      List.length_singleton]
    push_cast
    linarith
  · rw [roundsOf_append, hrounds, List.append_nil]
    exact h.fair

/-! ### The accounts of a run -/

/-- The final result that is reported is the one in the tables. -/
def Reported (g : GameManager) (db : GameTables) (msg : GameEnded) : Prop :=
  ∃ row ∈ db.gameSessions, row.id = msg.sessionId ∧ row.status = .ended ∧
    ∃ scenario, g.findScenario row.scenarioId = .ok scenario ∧
      msg.trueValue = scenario.trueValue ∧
      msg.markToModelPnl = row.cash + row.position * scenario.trueValue

/-- What the messages so far say about all sessions. -/
structure Accounts (g : GameManager) (db : GameTables) (msgs : List GameMessage) : Prop where
  listed : ∀ msg ∈ msgs, ∃ row ∈ db.gameSessions, row.id = msg.sessionId
  session : ∀ row ∈ db.gameSessions, ∃ scenario, Account g msgs row scenario
  reported : ∀ msg, GameMessage.ended msg ∈ msgs → Reported g db msg

lemma accounts_empty : Accounts g .empty [] where
  listed _ h := absurd h List.not_mem_nil
  session _ h := absurd h List.not_mem_nil
  reported _ h := absurd h List.not_mem_nil

/-- A revision of an active session with the messages about it. -/
lemma Accounts.revise {rs : List GameRoundRow} (h : Accounts g db msgs) (hkeyed : db.Keyed)
    (hrow : row ∈ db.gameSessions) (hactive : row.status = .active)
    (haccount : Account g (msgs ++ new) row' scenario) (hid : row'.id = row.id)
    (hnew : ∀ msg ∈ new, msg.sessionId = row.id)
    (hreported : ∀ msg, GameMessage.ended msg ∈ new → Reported g (db.revise row' rs) msg) :
    Accounts g (db.revise row' rs) (msgs ++ new) where
  listed msg hmsg := by
    rcases List.mem_append.mp hmsg with hmsg | hmsg
    · obtain ⟨r, hr, hrid⟩ := h.listed msg hmsg
      by_cases hne : r.id = row'.id
      · exact ⟨row', GameTables.mem_revise_self hrow hid, hne.symm.trans hrid⟩
      · exact ⟨r, GameTables.mem_revise_of_ne hr hne, hrid⟩
    · exact ⟨row', GameTables.mem_revise_self hrow hid, hid.trans (hnew msg hmsg).symm⟩
  session r hr := by
    rcases GameTables.mem_revise hr with rfl | ⟨hr, hne⟩
    · exact ⟨scenario, haccount⟩
    · obtain ⟨s, hs⟩ := h.session r hr
      have hother : ∀ msg ∈ new, msg.sessionId ≠ r.id := fun msg hmsg heq =>
        hne (heq.symm.trans ((hnew msg hmsg).trans hid.symm))
      exact ⟨s, hs.append_other (roundsOf_other hother) (hintsOf_other hother)⟩
  reported msg hmsg := by
    rcases List.mem_append.mp hmsg with hmsg | hmsg
    · obtain ⟨r, hr, hrid, hended, hresult⟩ := h.reported msg hmsg
      have hne : r.id ≠ row'.id := by
        intro heq
        rw [hkeyed.eq_of_id hr hrow (heq.trans hid), hactive] at hended
        cases hended
      exact ⟨r, GameTables.mem_revise_of_ne hr hne, hrid, hended, hresult⟩
    · exact hreported msg hmsg

lemma GivenUp.keyed {userId : Int} (h : db.Keyed) (hgiven : GivenUp db userId db') : db'.Keyed := by
  cases hgiven with
  | none => exact h
  | some hsome =>
    obtain ⟨hrow, -, -⟩ := GameTables.mem_of_getActiveGameSession hsome
    exact h.revise hrow rfl rfl nofun nofun

lemma Accounts.givenUp {userId : Int} (h : Accounts g db msgs) (hkeyed : db.Keyed)
    (hgiven : GivenUp db userId db') : Accounts g db' msgs := by
  cases hgiven with
  | none => exact h
  | @some row hsome =>
    obtain ⟨hrow, -, hactive⟩ := GameTables.mem_of_getActiveGameSession hsome
    obtain ⟨scenario, haccount⟩ := h.session row hrow
    have haccount' : Account g (msgs ++ []) { row with status := .ended } scenario := by
      rw [List.append_nil]
      exact haccount.congr rfl rfl rfl rfl
    rw [← List.append_nil msgs]
    exact h.revise hkeyed hrow hactive haccount' rfl
      (fun _ hmsg => absurd hmsg List.not_mem_nil) (fun _ hmsg => absurd hmsg List.not_mem_nil)

/-- Messages that start or resume a session. -/
lemma Accounts.started {msg : GameStarted} (h : Accounts g db msgs) (hrow : row ∈ db.gameSessions)
    (hid : msg.sessionId = row.id) : Accounts g db (msgs ++ [.started msg]) where
  listed m hm := by
    rcases List.mem_append.mp hm with hm | hm
    · exact h.listed m hm
    · rw [List.mem_singleton.mp hm]
      exact ⟨row, hrow, hid.symm⟩
  session r hr := by
    obtain ⟨s, hs⟩ := h.session r hr
    exact ⟨s, hs.append_other rfl rfl⟩
  reported m hm := by
    rcases List.mem_append.mp hm with hm | hm
    · exact h.reported m hm
    · cases List.mem_singleton.mp hm

lemma Accounts.created (h : Accounts g db msgs) (hkeyed : db.Keyed) {scenarioId : Int}
    (userId maxRounds : Int)
    (hscenario : g.findScenario scenarioId = .ok scenario) :
    Accounts g (db.insertGameSession userId scenarioId maxRounds) msgs where
  listed msg hmsg := by
    obtain ⟨r, hr, hrid⟩ := h.listed msg hmsg
    exact ⟨r, List.mem_append_left _ hr, hrid⟩
  session r hr := by
    rcases mem_created hr with hr | rfl
    · exact h.session r hr
    · have hother : ∀ msg ∈ msgs, msg.sessionId ≠ db.lastId + 1 := by
        intro msg hmsg heq
        obtain ⟨r, hr, hrid⟩ := h.listed msg hmsg
        have hle := hkeyed.issued r hr
        rw [hrid, heq] at hle
        exact absurd hle (not_le.mpr (Int.lt_succ _))
      have hrounds : roundsOf (db.lastId + 1) msgs = [] := roundsOf_other hother
      have hhints : hintsOf (db.lastId + 1) msgs = [] := hintsOf_other hother
      refine ⟨scenario, hscenario, ?_, ?_⟩
      · simp [GameTables.fresh, hrounds, hhints, totalEdge]
      · simp [GameTables.fresh, hrounds]
  reported msg hmsg := by
    obtain ⟨r, hr, hresult⟩ := h.reported msg hmsg
    exact ⟨r, List.mem_append_left _ hr, hresult⟩

lemma sessionStartedJson_eq_ok {msg : GameMessage} (h : g.sessionStartedJson db row = .ok msg) :
    ∃ started, msg = .started started ∧ started.sessionId = row.id := by
  obtain ⟨scenario, -, h⟩ := Except.bind_eq_ok h
  obtain ⟨hints, -, h⟩ := Except.bind_eq_ok h
  exact ⟨_, (Except.ok.inj h).symm, rfl⟩

lemma shown_cases (g : GameManager) (db : GameTables) (row : GameSessionRow) :
    messagesOf ((g.sessionStartedJson db row).map fun msg => [msg]) = [] ∨
      ∃ started : GameStarted, started.sessionId = row.id ∧
        messagesOf ((g.sessionStartedJson db row).map fun msg => [msg]) = [.started started] := by
  cases hstarted : g.sessionStartedJson db row with
  | error e => exact Or.inl rfl
  | ok msg =>
    obtain ⟨started, rfl, hsession⟩ := sessionStartedJson_eq_ok hstarted
    exact Or.inr ⟨started, hsession, rfl⟩

lemma Accounts.shown (h : Accounts g db msgs) (hrow : row ∈ db.gameSessions) :
    Accounts g db
      (msgs ++ messagesOf ((g.sessionStartedJson db' row).map fun msg => [msg])) := by
  rcases shown_cases g db' row with hshown | ⟨started, hsession, hshown⟩
  · rw [hshown, List.append_nil]
    exact h
  · rw [hshown]
    exact h.started hrow hsession

/-- The last round of a session, or an earlier one. -/
lemma Accounts.quoted {userId : Int} {bid ask noiseDraw : ℚ} {result : JudgeResult}
    {r : GameRoundRow} (h : Accounts g db msgs) (hkeyed : db.Keyed)
    (heps : 0 ≤ g.config.noiseEpsilon) (hplaying : Playing g db userId sessionId row scenario)
    (hresult : result = judgeQuote ⟨bid, ask⟩ scenario.trueValue g.config.noiseEpsilon noiseDraw)
    (hr : r = roundOf row bid ask result)
    (hrow' : row' = g.playRound row result) (hdb' : db' = db.revise (finishRound row') [r]) :
    Accounts g db' (msgs ++ roundResultJson row' r ::
      if row'.maxRounds ≤ row'.currentRound then
        [gameEndedJson db' { row' with status := .ended } scenario .maxRoundsReached]
      else []) := by
  obtain ⟨s, haccount⟩ := h.session row hplaying.mem
  obtain rfl : s = scenario := Except.ok.inj (haccount.found.symm.trans hplaying.scenario)
  have hid : row'.id = row.id := by rw [hrow', playRound_id]
  have hscenario : row'.scenarioId = row.scenarioId := by rw [hrow', ← playRound_eta]
  have hround : (roundResultJson row' r).sessionId = row.id := hid
  have hmem : ∀ row'' : GameSessionRow, row''.id = row.id →
      row'' ∈ (db.revise row'' [r]).gameSessions :=
    fun _ => GameTables.mem_revise_self hplaying.mem
  rw [finishRound] at hdb'
  split_ifs at hdb' ⊢ with hend
  · have hnone : roundsOf row.id
        [gameEndedJson db' { row' with status := .ended } s .maxRoundsReached] = [] := rfl
    have hquoted := haccount.quoted heps hresult hnone rfl
    rw [← hrow', ← hr, hdb'] at hquoted
    rw [hdb']
    refine h.revise hkeyed hplaying.mem hplaying.active (hquoted.congr rfl rfl rfl rfl) hid ?_ ?_
    · intro msg hmsg
      rcases List.mem_cons.mp hmsg with rfl | hmsg
      · exact hround
      · rw [List.mem_singleton.mp hmsg]
        exact hid
    · intro msg hmsg
      rcases List.mem_cons.mp hmsg with heq | hmsg
      · cases heq
      · cases List.mem_singleton.mp hmsg
        exact ⟨_, hmem _ hid, rfl, rfl, s, hscenario ▸ hplaying.scenario, rfl, rfl⟩
  · have hnone : roundsOf row.id [] = [] := rfl
    have hquoted := haccount.quoted heps hresult hnone rfl
    rw [← hrow', ← hr] at hquoted
    rw [hdb']
    refine h.revise hkeyed hplaying.mem hplaying.active hquoted hid ?_ ?_
    · intro msg hmsg
      rw [List.mem_singleton.mp hmsg]
      exact hround
    · intro msg hmsg
      cases List.mem_singleton.mp hmsg

/-- **A call** keeps the accounts. -/
lemma Accounts.acts {c : Call} {result : Except GameException (List GameMessage)}
    (h : Accounts g db msgs) (hkeyed : db.Keyed) (heps : 0 ≤ g.config.noiseEpsilon)
    (hacts : Acts g db c db' result) : Accounts g db' (msgs ++ messagesOf result) := by
  cases hacts with
  | failed =>
    rw [messagesOf, List.append_nil]
    exact h
  | resumed _ _ _ hactive => exact h.shown (GameTables.mem_of_getActiveGameSession hactive).1
  | notStarted _ _ _ _ hgiven =>
    rw [messagesOf, List.append_nil]
    exact h.givenUp hkeyed hgiven
  | @started userId _ _ _ _ _ _ hgiven hscenario hcreated =>
    obtain ⟨s, hs⟩ := hscenario
    rw [hcreated]
    have hcreated' := (h.givenUp hkeyed hgiven).created (GivenUp.keyed hkeyed hgiven) userId
      g.config.defaultMaxRounds hs
    exact hcreated'.shown (List.mem_append_right _ (List.mem_singleton_self _))
  | quoted hplaying hresult _ hr hrow' hdb' =>
    exact h.quoted hkeyed heps hplaying hresult hr hrow' hdb'
  | @hinted userId sessionId next row row' scenario before hplaying hbefore hnext hlt hrow' =>
    obtain ⟨s, haccount⟩ := h.session row hplaying.mem
    obtain rfl : s = scenario := Except.ok.inj (haccount.found.symm.trans hplaying.scenario)
    rw [hrow']
    refine h.revise hkeyed hplaying.mem hplaying.active (haccount.hinted rfl) rfl ?_ ?_
    · intro msg hmsg
      rw [List.mem_singleton.mp hmsg]
      rfl
    · intro msg hmsg
      cases List.mem_singleton.mp hmsg
  | @ended userId sessionId row row' scenario db' hplaying hrow' hdb' =>
    obtain ⟨s, haccount⟩ := h.session row hplaying.mem
    rw [hdb', hrow']
    refine h.revise hkeyed hplaying.mem hplaying.active
      ((haccount.append_other rfl rfl).congr rfl rfl rfl rfl) rfl ?_ ?_
    · intro msg hmsg
      rw [List.mem_singleton.mp hmsg]
      rfl
    · intro msg hmsg
      cases List.mem_singleton.mp hmsg
      exact ⟨_, GameTables.mem_revise_self hplaying.mem rfl, rfl, rfl, scenario,
        hplaying.scenario, rfl, rfl⟩

/-- **A run** keeps the accounts. -/
lemma Accounts.run (h : Accounts g db msgs) (hinv : Inv g db) (heps : 0 ≤ g.config.noiseEpsilon)
    (calls : List Call) : Accounts g (g.run db calls) (msgs ++ g.sent db calls) := by
  induction calls generalizing db msgs with
  | nil =>
    rw [sent, outcomes, List.flatMap_nil, List.append_nil]
    exact h
  | cons c calls ih =>
    have hcall := h.acts hinv.keyed heps (call_acts hinv.keyed c)
    have hrun := ih hcall (inv_run hinv [c])
    rw [List.append_assoc] at hrun
    exact hrun

/-! ### What the interviewer keeps -/

/-- The value behind a session. -/
def TrueValue (g : GameManager) (db : GameTables) (sessionId : Int) (trueValue : ℚ) : Prop :=
  ∃ row ∈ db.gameSessions, row.id = sessionId ∧
    ∃ scenario, g.findScenario row.scenarioId = .ok scenario ∧ scenario.trueValue = trueValue

/-- The interviewer never gives away edge. -/
structure KeepsEdge (g : GameManager) : Prop where
  /-- The final result is what the edges and the hints took. -/
  settled : ∀ calls msg, GameMessage.ended msg ∈ g.sent .empty calls →
    TrueValue g (g.run .empty calls) msg.sessionId msg.trueValue ∧
      msg.markToModelPnl = -g.config.unitSize *
          totalEdge msg.trueValue (roundsOf msg.sessionId (g.sent .empty calls))
        - g.config.hintPenalty * (hintsOf msg.sessionId (g.sent .empty calls)).length
  /-- Every trade is a fair one. -/
  fair : ∀ calls r, GameMessage.roundResult r ∈ g.sent .empty calls →
    ∃ trueValue, TrueValue g (g.run .empty calls) r.sessionId trueValue ∧
      (r.verdict ≠ .pass → FairEdge g.config.noiseEpsilon (r.quote.edge trueValue r.verdict))
  /-- With heads, a quote in the band trades on the better side. -/
  trades : ∀ (q : Quote) (trueValue noiseDraw : ℚ), q.bid ≤ q.ask →
    q.InBand trueValue g.config.noiseEpsilon → 1 / 2 ≤ noiseDraw →
    judgeQuote q trueValue g.config.noiseEpsilon noiseDraw = ⟨.buy, q.ask⟩ ∧
        q.bidEdge trueValue ≤ q.askEdge trueValue ∨
      judgeQuote q trueValue g.config.noiseEpsilon noiseDraw = ⟨.sell, q.bid⟩ ∧
        q.askEdge trueValue ≤ q.bidEdge trueValue
  /-- Without noise he passes when the true value is in the spread. -/
  passes : g.config.noiseEpsilon = 0 → ∀ (q : Quote) (trueValue noiseDraw : ℚ),
    (judgeQuote q trueValue g.config.noiseEpsilon noiseDraw).verdict = .pass ↔
      q.bid ≤ trueValue ∧ trueValue ≤ q.ask

/-- A reported round has its fair edge in the account of its session. -/
lemma mem_roundsOf {r : GameRoundResult} (h : GameMessage.roundResult r ∈ msgs) :
    r ∈ roundsOf r.sessionId msgs :=
  List.mem_filterMap.mpr ⟨_, h, if_pos rfl⟩

lemma Accounts.fair {r : GameRoundResult} (h : Accounts g db msgs)
    (hr : GameMessage.roundResult r ∈ msgs) :
    ∃ trueValue, TrueValue g db r.sessionId trueValue ∧
      (r.verdict ≠ .pass →
        FairEdge g.config.noiseEpsilon (r.quote.edge trueValue r.verdict)) := by
  obtain ⟨row, hrow, hid⟩ := h.listed _ hr
  obtain ⟨scenario, haccount⟩ := h.session row hrow
  refine ⟨scenario.trueValue, ⟨row, hrow, hid, scenario, haccount.found, rfl⟩, fun htraded => ?_⟩
  have hmem := mem_roundsOf hr
  rw [← GameMessage.sessionId, ← hid] at hmem
  exact haccount.fair r hmem htraded

lemma Accounts.settled {msg : GameEnded} (h : Accounts g db msgs)
    (hmsg : GameMessage.ended msg ∈ msgs) :
    TrueValue g db msg.sessionId msg.trueValue ∧
      msg.markToModelPnl
        = -g.config.unitSize * totalEdge msg.trueValue (roundsOf msg.sessionId msgs)
          - g.config.hintPenalty * (hintsOf msg.sessionId msgs).length := by
  obtain ⟨row, hrow, hid, -, scenario, hscenario, htrue, hresult⟩ := h.reported msg hmsg
  obtain ⟨s, haccount⟩ := h.session row hrow
  obtain rfl : s = scenario := Except.ok.inj (haccount.found.symm.trans hscenario)
  refine ⟨⟨row, hrow, hid, s, hscenario, htrue.symm⟩, ?_⟩
  rw [hresult, htrue, ← hid]
  exact haccount.value

/-- **The interviewer never gives away edge**, whatever his noise, the draws and the calls. -/
theorem interviewer_keepsEdge (g : GameManager) (heps : 0 ≤ g.config.noiseEpsilon) : KeepsEdge g where
  settled calls msg hmsg := (accounts_empty.run inv_empty heps calls).settled hmsg
  fair calls r hr := (accounts_empty.run inv_empty heps calls).fair hr
  trades _ _ _ h hband hdraw := judgeQuote_heads h hband hdraw
  passes hzero q trueValue noiseDraw := by
    rw [hzero]
    exact judgeQuote_pass_iff

/-- User 7 sells at 6500, buys at 6600, asks for a hint and stops; the true value is 6514. -/
def edgeCalls : List Call :=
  [.startSession 7 "" false 0 none, .submitQuote 7 1 6000 6500 0, .submitQuote 7 1 6600 6700 0,
    .requestHint 7 1, .endSession 7 1]

theorem interviewer_keepsEdge_sampleGame :
    ∃ msg, GameMessage.ended msg ∈ sampleGame.sent .empty edgeCalls ∧
      msg.markToModelPnl = -(14 + 86) - 5 ∧
      msg.markToModelPnl = -sampleGame.config.unitSize *
          totalEdge msg.trueValue (roundsOf msg.sessionId (sampleGame.sent .empty edgeCalls))
        - sampleGame.config.hintPenalty *
          (hintsOf msg.sessionId (sampleGame.sent .empty edgeCalls)).length := by
  have hfinal : (sampleGame.sent .empty edgeCalls).filterMap (fun
      | .ended msg => some msg.markToModelPnl
      | _ => none) = [-(14 + 86) - 5] := by
    decide +kernel
  obtain ⟨msg, hmsg, hresult⟩ := List.mem_filterMap.mp (hfinal ▸ List.mem_singleton_self _)
  cases msg with
  | ended msg =>
    have hkeeps := interviewer_keepsEdge sampleGame (by decide)
    exact ⟨msg, hmsg, Option.some.inj hresult, (hkeeps.settled edgeCalls msg hmsg).2⟩
  | started => cases hresult
  | roundResult => cases hresult
  | hintRevealed => cases hresult

end GameManager

end ExchangeEngine
