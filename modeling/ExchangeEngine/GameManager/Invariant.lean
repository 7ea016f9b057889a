import ExchangeEngine.GameManager.Steps
import Mathlib.Algebra.BigOperators.Group.List.Basic
import Mathlib.Logic.Relation
import Mathlib.Tactic.Push

/-!
# What holds of every game session

Position, cash, round counter and hint list of a session follow from its recorded rounds and the
number of its hints, in every run of the game manager; an ended session never changes again.
-/

namespace ExchangeEngine

namespace GameManager

variable {g : GameManager} {db db' : GameTables} {row row' : GameSessionRow}
  {rs rounds : List GameRoundRow}

/-! ### How the tables evolve -/

/-- The new row of an active session, and the rounds recorded with it. -/
inductive Revision (g : GameManager) (row : GameSessionRow) :
    GameSessionRow → List GameRoundRow → Prop
  | ended : Revision g row { row with status := .ended } []
  | quoted (bid ask : ℚ) {result : JudgeResult} (hvalid : result.verdict ≠ .invalid) :
      Revision g row (finishRound (g.playRound row result)) [roundOf row bid ask result]
  | hinted {scenario : Scenario} {before : List Int}
      (hscenario : g.findScenario row.scenarioId = .ok scenario)
      (hbefore : parseHintsCsv row.hintsRevealedCsv = .ok before)
      (hnext : toInt before.length < toInt scenario.hints.length) :
      Revision g row
        { row with
          cash := row.cash - g.config.hintPenalty
          hintsRevealedCsv := hintsToCsv (before ++ [toInt before.length]) } []

inductive Evolves (g : GameManager) (db : GameTables) : GameTables → Prop
  | revised {row row' : GameSessionRow} {rs : List GameRoundRow} (hrow : row ∈ db.gameSessions)
      (hactive : row.status = .active) (h : Revision g row row' rs) : Evolves g db (db.revise row' rs)
  | created (userId : Int) {scenarioId : Int}
      (hfree : ∀ row ∈ db.gameSessions, row.userId = userId → row.status ≠ .active)
      (hscenario : ∃ s, g.findScenario scenarioId = .ok s) :
      Evolves g db (db.insertGameSession userId scenarioId g.config.defaultMaxRounds)

/-- What a revision keeps. -/
structure Revision.Frame (row row' : GameSessionRow) (rs : List GameRoundRow) : Prop where
  id : row'.id = row.id
  userId : row'.userId = row.userId
  scenarioId : row'.scenarioId = row.scenarioId
  maxRounds : row'.maxRounds = row.maxRounds
  status : row'.status = .active → row.status = .active
  rounds : ∀ r ∈ rs, r.sessionId = row.id

lemma Revision.frame (h : Revision g row row' rs) : Revision.Frame row row' rs := by
  cases h with
  | ended =>
    exact ⟨rfl, rfl, rfl, rfl, (fun h => by cases h), fun r hr => absurd hr List.not_mem_nil⟩
  | @quoted bid ask result hvalid =>
    have hrounds : ∀ r ∈ [roundOf row bid ask result], r.sessionId = row.id := by
      intro r hr
      rw [List.mem_singleton.mp hr]
      rfl
    rw [finishRound, ← playRound_eta row result]
    split_ifs
    · exact ⟨rfl, rfl, rfl, rfl, (fun h => by cases h), hrounds⟩
    · exact ⟨rfl, rfl, rfl, rfl, fun h => h, hrounds⟩
  | hinted =>
    exact ⟨rfl, rfl, rfl, rfl, fun h => h, fun r hr => absurd hr List.not_mem_nil⟩

lemma GivenUp.evolves {userId : Int} (h : db.Keyed) (hgiven : GivenUp db userId db') :
    Relation.ReflTransGen (Evolves g) db db' ∧
      ∀ row ∈ db'.gameSessions, row.userId = userId → row.status ≠ .active := by
  cases hgiven with
  | none hnone =>
    exact ⟨.refl, fun row hrow => GameTables.not_active_of_getActiveGameSession hnone hrow⟩
  | @some row hsome =>
    obtain ⟨hrow, huser, hactive⟩ := GameTables.mem_of_getActiveGameSession hsome
    refine ⟨.single (.revised hrow hactive .ended), fun r hr hruser hractive => ?_⟩
    rcases GameTables.mem_revise hr with rfl | ⟨hr, hne⟩
    · cases hractive
    · rw [h.single r hr row hrow hractive hactive (hruser.trans huser.symm)] at hne
      exact hne rfl

/-- **A call** evolves the tables. -/
lemma Acts.evolves {c : Call} {result : Except GameException (List GameMessage)} (h : db.Keyed)
    (hacts : Acts g db c db' result) : Relation.ReflTransGen (Evolves g) db db' := by
  cases hacts with
  | failed => exact .refl
  | resumed => exact .refl
  | notStarted _ _ _ _ hgiven => exact (hgiven.evolves h).1
  | started _ _ _ hgiven hscenario hcreated =>
    obtain ⟨hevolves, hfree⟩ := hgiven.evolves h
    rw [hcreated]
    exact hevolves.tail (.created _ hfree hscenario)
  | quoted hplaying _ hvalid hr hrow' hdb' =>
    rw [hdb', hrow', hr]
    exact .single (.revised hplaying.mem hplaying.active (.quoted _ _ hvalid))
  | hinted hplaying hbefore hnext hlt hrow' =>
    rw [hrow', hnext]
    rw [hnext] at hlt
    exact .single (.revised hplaying.mem hplaying.active (.hinted hplaying.scenario hbefore hlt))
  | ended hplaying hrow' hdb' =>
    rw [hdb', hrow']
    exact .single (.revised hplaying.mem hplaying.active .ended)

/-! ### The invariant of a session -/

/-- The sum of the fill prices of the rounds with a verdict. -/
def fills (verdict : RoundVerdict) (rounds : List GameRoundRow) : ℚ :=
  ((rounds.filter fun r => r.verdict = verdict).filterMap GameRoundRow.fillPrice).sum

/-- What the recorded rounds and the hints say about the row of a session. -/
structure SessionOk (g : GameManager) (rounds : List GameRoundRow) (row : GameSessionRow) :
    Prop where
  numbered : ∃ n : Nat, row.currentRound = n ∧
    rounds.map GameRoundRow.roundNumber = (List.range n).map fun i : Nat => (i : Int) + 1
  position : row.position = g.config.unitSize * ((rounds.countP fun r => r.verdict = .sell)
    - (rounds.countP fun r => r.verdict = .buy))
  cash : ∃ (scenario : Scenario) (k : Nat), g.findScenario row.scenarioId = .ok scenario ∧
    (k : Int) ≤ max 0 (toInt scenario.hints.length) ∧
    row.hintsRevealedCsv = hintsToCsv ((List.range k).map Nat.cast) ∧
    row.cash = g.config.unitSize * (fills .buy rounds - fills .sell rounds)
      - g.config.hintPenalty * k

/-- A list of hints that are there is short enough for its text. -/
lemma lt_of_le_toInt {k n : Nat} (h : (k : Int) ≤ max 0 (toInt n)) : k < 2 ^ 31 := by
  have hlt := toInt_lt n
  omega

lemma parse_range {k n : Nat} (h : (k : Int) ≤ max 0 (toInt n)) :
    parseHintsCsv (hintsToCsv ((List.range k).map Nat.cast))
      = .ok ((List.range k).map Nat.cast) :=
  parseHintsCsv_hintsToCsv fun _ hi => (List.mem_range.mp hi).trans (lt_of_le_toInt h)

lemma fills_append (verdict : RoundVerdict) (rounds rs : List GameRoundRow) :
    fills verdict (rounds ++ rs) = fills verdict rounds + fills verdict rs := by
  rw [fills, List.filter_append, List.filterMap_append, List.sum_append, ← fills, ← fills]

lemma SessionOk.playRound (h : SessionOk g rounds row) (bid ask : ℚ) {result : JudgeResult}
    (hvalid : result.verdict ≠ .invalid) :
    SessionOk g (rounds ++ [roundOf row bid ask result]) (g.playRound row result) where
  numbered := by
    obtain ⟨n, hn, hnumbers⟩ := h.numbered
    refine ⟨n + 1, by rw [playRound_currentRound, hn]; rfl, ?_⟩
    rw [List.map_append, hnumbers, List.range_succ, List.map_append]
    simp only [List.map_cons, List.map_nil, roundOf, hn]
  position := by
    rw [List.countP_append, List.countP_append]
    have hposition := h.position
    cases hv : result.verdict with
    | buy =>
      simp [GameManager.playRound, roundOf, verdictToString, hv, hposition]
      ring
    | sell =>
      simp [GameManager.playRound, roundOf, verdictToString, hv, hposition]
      ring
    | pass => simp [GameManager.playRound, roundOf, verdictToString, hv, hposition]
    | invalid => exact absurd hv hvalid
  cash := by
    obtain ⟨scenario, k, hscenario, hk, hcsv, hcash⟩ := h.cash
    refine ⟨scenario, k, ?_, hk, ?_, ?_⟩
    · rw [← playRound_eta]
      exact hscenario
    · rw [← playRound_eta]
      exact hcsv
    · rw [fills_append, fills_append]
      cases hv : result.verdict with
      | buy =>
        simp [GameManager.playRound, roundOf, verdictToString, hv, hcash, fills]
        ring
      | sell =>
        simp [GameManager.playRound, roundOf, verdictToString, hv, hcash, fills]
        ring
      | pass => simp [GameManager.playRound, roundOf, verdictToString, hv, hcash, fills]
      | invalid => exact absurd hv hvalid

/-- **A revision** keeps the invariant of its session. -/
lemma SessionOk.revision (h : SessionOk g rounds row) (hrev : Revision g row row' rs) :
    SessionOk g (rounds ++ rs) row' := by
  cases hrev with
  | ended =>
    rw [List.append_nil]
    exact ⟨h.numbered, h.position, h.cash⟩
  | quoted bid ask hvalid =>
    obtain ⟨hnumbered, hposition, hcash⟩ := h.playRound bid ask hvalid
    simp only [finishRound]
    split_ifs
    · exact ⟨hnumbered, hposition, hcash⟩
    · exact ⟨hnumbered, hposition, hcash⟩
  | @hinted scenario' before hscenario' hbefore hnext =>
    obtain ⟨scenario, k, hscenario, hk, hcsv, hcash⟩ := h.cash
    rw [hscenario] at hscenario'
    obtain rfl := Except.ok.inj hscenario'
    rw [hcsv, parse_range hk] at hbefore
    obtain rfl := Except.ok.inj hbefore
    rw [List.length_map, List.length_range, toInt_of_lt (lt_of_le_toInt hk)] at hnext ⊢
    rw [List.append_nil]
    refine ⟨h.numbered, h.position, scenario, k + 1, hscenario, ?_, ?_, ?_⟩
    · omega
    · rw [List.range_succ, List.map_append]
      rfl
    · rw [hcash]
      push_cast
      ring

/-! ### The invariant of the tables -/

structure Inv (g : GameManager) (db : GameTables) : Prop where
  keyed : db.Keyed
  session : ∀ row ∈ db.gameSessions, SessionOk g (db.rounds row.id) row

/-- No session has more rounds than it may have, and an active one has fewer. -/
def Bounded (db : GameTables) : Prop :=
  ∀ row ∈ db.gameSessions, row.currentRound ≤ row.maxRounds ∧
    (row.status = .active → row.currentRound < row.maxRounds)

lemma keyed_empty : GameTables.empty.Keyed where
  nodup := List.nodup_nil
  issued _ h := absurd h List.not_mem_nil
  recorded _ h := absurd h List.not_mem_nil
  single _ h := absurd h List.not_mem_nil

lemma inv_empty : Inv g .empty := ⟨keyed_empty, fun _ h => absurd h List.not_mem_nil⟩

lemma bounded_empty : Bounded .empty := fun _ h => absurd h List.not_mem_nil

lemma mem_created {userId scenarioId maxRounds : Int}
    (h : row ∈ (db.insertGameSession userId scenarioId maxRounds).gameSessions) :
    row ∈ db.gameSessions ∨ row = db.fresh userId scenarioId maxRounds := by
  rcases List.mem_append.mp h with h | h
  · exact Or.inl h
  · exact Or.inr (List.mem_singleton.mp h)

lemma keyed_created (h : db.Keyed) {userId : Int} (scenarioId maxRounds : Int)
    (hfree : ∀ row ∈ db.gameSessions, row.userId = userId → row.status ≠ .active) :
    (db.insertGameSession userId scenarioId maxRounds).Keyed where
  nodup := by
    rw [GameTables.insertGameSession, List.map_append, List.nodup_append']
    refine ⟨h.nodup, List.nodup_singleton _, ?_⟩
    rw [List.map_cons, List.map_nil, List.disjoint_singleton]
    intro hmem
    obtain ⟨row, hrow, hid⟩ := List.mem_map.mp hmem
    have hle := h.issued row hrow
    simp only at hid
    omega
  issued row hrow := by
    rcases mem_created hrow with hrow | rfl
    · exact (h.issued row hrow).trans (Int.le_add_one le_rfl)
    · exact le_rfl
  recorded r hr := (h.recorded r hr).trans (Int.le_add_one le_rfl)
  single r₁ h₁ r₂ h₂ hactive₁ hactive₂ heq := by
    rcases mem_created h₁ with hr₁ | rfl
    · rcases mem_created h₂ with hr₂ | rfl
      · exact h.single r₁ hr₁ r₂ hr₂ hactive₁ hactive₂ heq
      · exact absurd hactive₁ (hfree r₁ hr₁ heq)
    · rcases mem_created h₂ with hr₂ | rfl
      · exact absurd hactive₂ (hfree r₂ hr₂ heq.symm)
      · rfl

/-- A new session has no rounds. -/
lemma rounds_fresh (h : db.Keyed) : db.rounds (db.lastId + 1) = [] := by
  refine List.filter_eq_nil_iff.mpr fun r hr hcond => ?_
  have hle := h.recorded r hr
  have hid := of_decide_eq_true hcond
  omega

lemma sessionOk_fresh {userId scenarioId maxRounds : Int}
    (hscenario : ∃ s, g.findScenario scenarioId = .ok s) :
    SessionOk g [] (db.fresh userId scenarioId maxRounds) where
  numbered := ⟨0, rfl, rfl⟩
  position := by simp [GameTables.fresh]
  cash := by
    obtain ⟨s, hs⟩ := hscenario
    exact ⟨s, 0, hs, le_max_left _ _, rfl, by simp [GameTables.fresh, fills]⟩

/-- **One step** keeps the invariant. -/
lemma Inv.evolves (h : Inv g db) (hevolves : Evolves g db db') : Inv g db' := by
  cases hevolves with
  | @revised row row' rs hrow hactive hrev =>
    have hframe := hrev.frame
    have hrs : ∀ r ∈ rs, r.sessionId = row'.id := fun r hr =>
      (hframe.rounds r hr).trans hframe.id.symm
    refine ⟨h.keyed.revise hrow hframe.id hframe.userId hframe.status hframe.rounds, ?_⟩
    intro r hr
    rcases GameTables.mem_revise hr with rfl | ⟨hr, hne⟩
    · rw [GameTables.rounds_revise hrs, hframe.id]
      exact (h.session row hrow).revision hrev
    · rw [GameTables.rounds_revise_of_ne hrs hne]
      exact h.session r hr
  | created userId hfree hscenario =>
    refine ⟨keyed_created h.keyed _ _ hfree, ?_⟩
    intro r hr
    rcases mem_created hr with hr | rfl
    · exact h.session r hr
    · have hrounds : db.rounds (db.lastId + 1) = [] := rounds_fresh h.keyed
      change SessionOk g (db.rounds (db.lastId + 1)) _
      rw [hrounds]
      exact sessionOk_fresh hscenario

lemma Bounded.evolves (hmax : 1 ≤ g.config.defaultMaxRounds) (h : Bounded db)
    (hevolves : Evolves g db db') : Bounded db' := by
  cases hevolves with
  | @revised row row' rs hrow hactive hrev =>
    intro r hr
    rcases GameTables.mem_revise hr with rfl | ⟨hr, -⟩
    · obtain ⟨hle, hlt⟩ := h row hrow
      have hlt := hlt hactive
      cases hrev with
      | ended => exact ⟨hle, fun h => by cases h⟩
      | quoted bid ask hvalid =>
        rw [← playRound_eta, playRound_currentRound, finishRound]
        split_ifs with hend
        · exact ⟨hlt, fun h => by cases h⟩
        · exact ⟨hlt, fun _ => not_le.mp hend⟩
      | hinted => exact ⟨hle, fun _ => hlt⟩
    · exact h r hr
  | created userId hfree hscenario =>
    intro r hr
    rcases mem_created hr with hr | rfl
    · exact h r hr
    · exact ⟨Int.le_of_lt hmax, fun _ => hmax⟩

/-- A session that has ended stays as it is. -/
def Frozen (db db' : GameTables) : Prop :=
  ∀ row ∈ db.gameSessions, row.status = .ended →
    row ∈ db'.gameSessions ∧ db'.rounds row.id = db.rounds row.id

lemma frozen_evolves (h : db.Keyed) (hevolves : Evolves g db db') : Frozen db db' := by
  intro r hr hended
  cases hevolves with
  | @revised row row' rs hrow hactive hrev =>
    have hframe := hrev.frame
    have hne : r.id ≠ row'.id := by
      intro hid
      rw [h.eq_of_id hr hrow (hid.trans hframe.id), hactive] at hended
      cases hended
    exact ⟨GameTables.mem_revise_of_ne hr hne, GameTables.rounds_revise_of_ne
      (fun r hr => (hframe.rounds r hr).trans hframe.id.symm) hne⟩
  | created => exact ⟨List.mem_append_left _ hr, rfl⟩

/-! ### Runs -/

lemma run_append (db : GameTables) (before after : List Call) :
    g.run db (before ++ after) = g.run (g.run db before) after := List.foldl_append

/-- What every step keeps, a call keeps. -/
lemma call_induction {P : GameTables → Prop}
    (hstep : ∀ db db', Inv g db → Evolves g db db' → P db → P db') (h : Inv g db) (hp : P db)
    (c : Call) : Inv g (g.call db c).1 ∧ P (g.call db c).1 := by
  have hevolves := (call_acts (g := g) h.keyed c).evolves h.keyed
  generalize (g.call db c).1 = db' at hevolves ⊢
  induction hevolves with
  | refl => exact ⟨h, hp⟩
  | tail _ hlast ih => exact ⟨ih.1.evolves hlast, hstep _ _ ih.1 hlast ih.2⟩

/-- What every step keeps, **a run** keeps. -/
lemma run_induction {P : GameTables → Prop}
    (hstep : ∀ db db', Inv g db → Evolves g db db' → P db → P db') (h : Inv g db) (hp : P db)
    (calls : List Call) : Inv g (g.run db calls) ∧ P (g.run db calls) := by
  induction calls generalizing db with
  | nil => exact ⟨h, hp⟩
  | cons c calls ih =>
    obtain ⟨h', hp'⟩ := call_induction hstep h hp c
    exact ih h' hp'

lemma inv_run (h : Inv g db) (calls : List Call) : Inv g (g.run db calls) :=
  (run_induction (P := fun _ => True) (fun _ _ _ _ _ => trivial) h trivial calls).1

lemma bounded_run (hmax : 1 ≤ g.config.defaultMaxRounds) (h : Inv g db) (hb : Bounded db)
    (calls : List Call) : Bounded (g.run db calls) :=
  (run_induction (fun _ _ _ hevolves hb => hb.evolves hmax hevolves) h hb calls).2

lemma frozen_run (h : Inv g db) (calls : List Call) : Frozen db (g.run db calls) := by
  refine (run_induction (P := Frozen db) ?_ h ?_ calls).2
  · intro db₁ db₂ h₁ hevolves hfrozen row hrow hended
    obtain ⟨hrow₁, hrounds₁⟩ := hfrozen row hrow hended
    obtain ⟨hrow₂, hrounds₂⟩ := frozen_evolves h₁.keyed hevolves row hrow₁ hended
    exact ⟨hrow₂, hrounds₂.trans hrounds₁⟩
  · exact fun row hrow _ => ⟨hrow, rfl⟩

/-! ### What is promised -/

/-- The row of a session agrees with its recorded rounds and its hints. -/
structure Consistent (g : GameManager) (db : GameTables) (row : GameSessionRow) : Prop where
  nonneg : 0 ≤ row.currentRound
  numbered : (db.getGameRounds row.id).map GameRoundRow.roundNumber
    = (List.range row.currentRound.toNat).map fun i : Nat => (i : Int) + 1
  le_maxRounds : row.currentRound ≤ row.maxRounds
  lt_maxRounds : row.status = .active → row.currentRound < row.maxRounds
  position : row.position = g.config.unitSize *
    (((db.getGameRounds row.id).countP fun r => r.verdict = .sell)
      - ((db.getGameRounds row.id).countP fun r => r.verdict = .buy))
  cash : ∃ (scenario : Scenario) (k : Nat), g.findScenario row.scenarioId = .ok scenario ∧
    k ≤ scenario.hints.length ∧
    parseHintsCsv row.hintsRevealedCsv = .ok ((List.range k).map Nat.cast) ∧
    row.cash = g.config.unitSize * (fills .buy (db.getGameRounds row.id)
      - fills .sell (db.getGameRounds row.id)) - g.config.hintPenalty * k

/-- The rounds are recorded in the order of their numbers. -/
lemma SessionOk.getGameRounds_eq (h : SessionOk g (db.rounds row.id) row) :
    db.getGameRounds row.id = db.rounds row.id := by
  obtain ⟨n, -, hnumbers⟩ := h.numbered
  apply List.mergeSort_of_pairwise
  have hsorted : ((List.range n).map fun i : Nat => (i : Int) + 1).Pairwise (· ≤ ·) := by
    rw [List.pairwise_map]
    exact List.pairwise_lt_range.imp fun hlt => by omega
  rw [← hnumbers, List.pairwise_map] at hsorted
  exact hsorted.imp fun hle => decide_eq_true hle

lemma Inv.consistent (h : Inv g db) (hb : Bounded db) (hrow : row ∈ db.gameSessions) :
    Consistent g db row := by
  have hok := h.session row hrow
  obtain ⟨n, hn, hnumbers⟩ := hok.numbered
  obtain ⟨scenario, k, hscenario, hk, hcsv, hcash⟩ := hok.cash
  obtain ⟨hle, hlt⟩ := hb row hrow
  have hrounds := hok.getGameRounds_eq
  have hhints := toInt_le scenario.hints.length
  refine ⟨by omega, ?_, hle, hlt, ?_, scenario, k, hscenario, by omega, ?_, ?_⟩
  · rw [hrounds, hnumbers, hn, Int.toNat_natCast]
  · rw [hrounds]
    exact hok.position
  · rw [hcsv, parse_range hk]
  · rw [hrounds]
    exact hcash

lemma filter_id_eq {rows : List GameSessionRow} (hnodup : (rows.map GameSessionRow.id).Nodup)
    (hrow : row ∈ rows) : rows.filter (fun r => r.id = row.id) = [row] := by
  induction rows with
  | nil => cases hrow
  | cons r rows ih =>
    rw [List.map_cons, List.nodup_cons] at hnodup
    rcases List.mem_cons.mp hrow with rfl | hrow
    · have hnil : rows.filter (fun r => r.id = row.id) = [] := by
        refine List.filter_eq_nil_iff.mpr fun r hr hid => ?_
        exact hnodup.1 (List.mem_map.mpr ⟨r, hr, of_decide_eq_true hid⟩)
      rw [List.filter_cons_of_pos (by simp), hnil]
    · have hne : ¬ decide (r.id = row.id) = true := fun hid =>
        hnodup.1 (List.mem_map.mpr ⟨row, hrow, (of_decide_eq_true hid).symm⟩)
      rw [List.filter_cons, if_neg hne, ih hnodup.2 hrow]

/-- A user has at most one active session. -/
lemma Inv.length_active (h : Inv g db) (userId : Int) : (db.gameSessions.filter fun row =>
    row.userId = userId ∧ row.status = .active).length ≤ 1 := by
  have hnodup : (db.gameSessions.filter fun row =>
      row.userId = userId ∧ row.status = .active).Nodup := h.keyed.nodup.of_map.filter _
  generalize hl : (db.gameSessions.filter fun row =>
    row.userId = userId ∧ row.status = .active) = l at hnodup
  have hmem : ∀ row ∈ l, row ∈ db.gameSessions ∧ row.userId = userId ∧ row.status = .active := by
    intro row hrow
    rw [← hl] at hrow
    obtain ⟨hrow, hcond⟩ := List.mem_filter.mp hrow
    exact ⟨hrow, of_decide_eq_true hcond⟩
  match l with
  | [] => exact Nat.zero_le _
  | [_] => exact le_rfl
  | a :: b :: l =>
    obtain ⟨ha, hua, haa⟩ := hmem a List.mem_cons_self
    obtain ⟨hb, hub, hab⟩ := hmem b (List.mem_cons_of_mem _ List.mem_cons_self)
    rw [h.keyed.single a ha b hb haa hab (hua.trans hub.symm)] at hnodup
    exact absurd List.mem_cons_self (List.nodup_cons.mp hnodup).1

/-- **Every game session is consistent** after any sequence of calls, every user has at most one
that is active, and the row and the rounds of an ended session are the same after any further
calls. -/
theorem sessions_consistent (hmax : 1 ≤ g.config.defaultMaxRounds) (before after : List Call) :
    (∀ userId, ((g.run .empty before).gameSessions.filter fun row =>
      row.userId = userId ∧ row.status = .active).length ≤ 1) ∧
    ∀ row ∈ (g.run .empty before).gameSessions, Consistent g (g.run .empty before) row ∧
      (row.status = .ended →
        (g.run .empty (before ++ after)).gameSessions.filter (fun r => r.id = row.id) = [row] ∧
        (g.run .empty (before ++ after)).getGameRounds row.id
          = (g.run .empty before).getGameRounds row.id) := by
  have h := inv_run (g := g) inv_empty before
  have hb := bounded_run hmax inv_empty bounded_empty before
  refine ⟨h.length_active, fun row hrow => ⟨h.consistent hb hrow, fun hended => ?_⟩⟩
  have h' := inv_run h after
  obtain ⟨hrow', hrounds⟩ := frozen_run h after row hrow hended
  rw [run_append]
  exact ⟨filter_id_eq h'.keyed.nodup hrow', GameTables.getGameRounds_congr hrounds⟩

/-! ### A small game -/

/-- The first scenario of the default bank, with the default configuration. -/
def sampleGame : GameManager where
  scenarios :=
    [{ id := 1
       category := "estimation"
       prompt := "How many windows does the Empire State Building have?"
       unit := "windows"
       trueValue := 6514
       hints := ["It was completed in 1931.", "It has 102 stories above ground.",
         "It's roughly 443 meters tall including the antenna."] }]
  config := {}

/-- User 7 sells one unit, asks for a hint, gives up and starts again. -/
def sampleCalls : List Call :=
  [.startSession 7 "" false 0 none, .submitQuote 7 1 6000 6500 0, .requestHint 7 1,
    .startSession 7 "estimation" true 0 none]

theorem sessions_consistent_sampleGame :
    (∃ row ∈ (sampleGame.run .empty sampleCalls).gameSessions, row.status = .ended ∧
      row.cash = 6495) ∧
    ∀ row ∈ (sampleGame.run .empty sampleCalls).gameSessions,
      Consistent sampleGame (sampleGame.run .empty sampleCalls) row := by
  have hmax : 1 ≤ sampleGame.config.defaultMaxRounds := by decide
  have h := (sessions_consistent hmax sampleCalls []).2
  exact ⟨by decide +kernel, fun row hrow => (h row hrow).1⟩

end GameManager

end ExchangeEngine
