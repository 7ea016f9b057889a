import ExchangeEngine.Server.Wealth

/-!
# Switching the engine

`set_engine_mode` throws the resting orders away. What they had reserved is given back to nobody, so
a switch keeps the wealth of the real users only if they had nothing at stake in the books.
-/

namespace ExchangeEngine

/-- A real user: one with a positive id and an account. -/
def Database.Real (db : Database) (u : Int) : Prop := 0 < u ∧ db.Registered u

/-- No resting order of a real user has anything reserved: all are bids at price zero. -/
def NothingAtStake (db : Database) (m : MarketState) : Prop :=
  ∀ c b, m.findInstrument c = some b → ∀ s, ∀ r ∈ b.resting s, db.Real r.userId →
    r.side = true ∧ r.price = 0

section Held

variable {B : Book} {m : MarketState} {unit : Order → Int}

lemma held_nonneg (h : ∀ r, 0 ≤ unit r) : 0 ≤ B.held unit :=
  add_nonneg (Consume.worth_nonneg h) (Consume.worth_nonneg h)

lemma held_eq_zero_iff (hvalid : B.Valid) (h : ∀ r, 0 ≤ unit r) :
    B.held unit = 0 ↔ ∀ s, ∀ r ∈ B s, unit r = 0 := by
  rw [Book.held, add_eq_zero_iff_of_nonneg (Consume.worth_nonneg h) (Consume.worth_nonneg h),
    Consume.worth_eq_zero_iff h hvalid.pos, Consume.worth_eq_zero_iff h hvalid.pos]
  constructor
  · rintro ⟨ht, hf⟩ s
    cases s with
    | true => exact ht
    | false => exact hf
  · exact fun h => ⟨h true, h false⟩

/-- A market holds nothing when no resting order does. -/
lemma market_held_eq_zero_iff (hm : m.Ok) (h : ∀ r, 0 ≤ unit r) :
    m.held unit = 0 ↔ ∀ c b, m.findInstrument c = some b → ∀ s, ∀ r ∈ b.resting s, unit r = 0 := by
  simp only [MarketState.held]
  rw [Finset.sum_eq_zero_iff_of_nonneg fun c _ => held_nonneg h]
  constructor
  · intro hsum c b hb
    have hc : c ∈ m.companies.toFinset := by
      rw [List.mem_toFinset, ← hm.listed, hb]
      rfl
    have hzero := hsum c hc
    rwa [restingOf_of_find hb, held_eq_zero_iff (hm.inv c b hb).valid h] at hzero
  · intro hall c hc
    rw [List.mem_toFinset, ← hm.listed] at hc
    obtain ⟨b, hb⟩ := Option.isSome_iff_exists.mp hc
    rw [restingOf_of_find hb, held_eq_zero_iff (hm.inv c b hb).valid h]
    exact hall c b hb

/-- The real users have nothing at stake exactly if the market holds nothing for any of them. -/
lemma nothingAtStake_iff {db : Database} (hm : m.Ok) : NothingAtStake db m ↔
    ∀ u, db.Real u → ∀ a : Asset, m.held (a.unit u) = 0 := by
  constructor
  · intro hnone u hu a
    rw [market_held_eq_zero_iff hm fun _ => Asset.unit_nonneg]
    intro c b hb s r hr
    by_cases hru : r.userId = u
    · obtain ⟨hside, hprice⟩ := hnone c b hb s r hr (hru ▸ hu)
      cases a with
      | cash => simp [Asset.unit_cash, hprice]
      | shares d => simp [Asset.unit_shares, hside]
    · exact Asset.unit_eq_zero hru
  · intro hzero c b hb s r hr hreal
    have hunit : ∀ a : Asset, a.unit r.userId r = 0 := fun a =>
      (market_held_eq_zero_iff hm fun _ => Asset.unit_nonneg).mp (hzero _ hreal a) c b hb s r hr
    cases hside : r.side with
    | true =>
      refine ⟨rfl, ?_⟩
      simpa [Asset.unit_cash, hside] using hunit .cash
    | false =>
      have hone := hunit (.shares r.companyId)
      simp [Asset.unit_shares, hside] at hone

end Held

namespace Server

/-- **When a switch destroys nothing**: the wealth of every real user, in cash and in the shares of
each company, is kept exactly if the engine is the one in force or no real user has anything at
stake in the books. -/
theorem switch_keeps_wealth_iff {companies : List Nat} {m : MarketState} {db : Database}
    {s : Server} {fills : List Trade} {pushed : List DbTask} {mode : EngineMode}
    {queue : List EngineTask} (hm : MarketState.new companies = .ok m)
    (h : Run SafeEvent (start m db) s fills pushed)
    (hqueue : s.engineQueue = .switchEngine mode :: queue) (fuel : Nat) :
    ∃ s', s.step (.engine fuel) = some (s', [], []) ∧
      ((∀ u, s.db.Real u → ∀ a : Asset, s'.wealth a u = s.wealth a u) ↔
        mode = s.market.engineMode ∨ NothingAtStake s.db s.market) := by
  have hok : s.Ok := Run.ok (fun _ _ h => h) (ok_start (ok_new hm) db) h
  refine ⟨_, step_of_runTask hqueue rfl, ?_⟩
  have hwealth : ∀ u (a : Asset),
      ({ s with
        market := s.market.setEngineMode mode
        engineQueue := queue
        dbQueueFront := s.dbQueueFront ++ [] } : Server).wealth a u = s.wealth a u ↔
      (s.market.setEngineMode mode).held (a.unit u) = s.market.held (a.unit u) := by
    intro u a
    rw [wealth_task (e := ⟨s.market.setEngineMode mode, [], []⟩) hqueue]
    simp only [Asset.credits_nil, EngineTask.reserved, add_zero]
    rw [add_eq_left, sub_eq_zero]
  simp only [hwealth]
  by_cases hmode : mode = s.market.engineMode
  · subst hmode
    simp [MarketState.setEngineMode_self]
  · simp only [held_setEngineMode hmode, hmode, false_or, nothingAtStake_iff hok.market,
      @eq_comm Int 0]

/-- User 7 bids at price zero on a LEGACY book; the switch back to CURRENT throws the bid away. -/
theorem switch_keeps_wealth_iff_sampleMarket : ∃ s s',
    Run SafeEvent (start sampleMarket sampleDb) s [] [] ∧
      s.engineQueue = [.switchEngine .current] ∧ s.market.engineMode = .legacy ∧ s.db.Real 7 ∧
      s.market.restingOf 1 true = [⟨1, 7, 0, 0, 3, 1, true⟩] ∧
      s.step (.engine 0) = some (s', [], []) ∧
      ∀ u, s.db.Real u → ∀ a : Asset, s'.wealth a u = s.wealth a u := by
  obtain ⟨⟨s, fills, pushed⟩, hrun, hout⟩ := Option.map_eq_some_iff.mp
    (by decide +kernel : (((start sampleMarket sampleDb).runEvents SafeEvent
      [.message 0 (.switchEngine "LEGACY"), .engine 0,
        .message 0 (.order ⟨"a", some 1, some "BUY", some 0, some 3, some 0, false, none⟩),
        .engine 0, .message 0 (.switchEngine "CURRENT")]).map fun x =>
        decide (x.1.engineQueue = [.switchEngine .current] ∧ x.2 = ([], []) ∧
          x.1.market.engineMode = .legacy ∧ (x.1.db.balances 7).isSome = true ∧
          x.1.market.companies = [1] ∧ x.1.market.restingOf 1 false = [] ∧
          x.1.market.restingOf 1 true = [⟨1, 7, 0, 0, 3, 1, true⟩])) = some true)
  obtain ⟨hqueue, hnil, hmode, hreg, hcompanies, hoffers, hbids⟩ := of_decide_eq_true hout
  obtain ⟨rfl, rfl⟩ := Prod.mk.inj hnil
  have h := run_of_runEvents hrun
  have hok : s.Ok := Run.ok (fun _ _ h => h) (ok_start (ok_new new_sampleMarket) _) h
  have hnothing : NothingAtStake s.db s.market := by
    intro c b hb side r hr _
    have hc : c ∈ s.market.companies := (hok.market.listed c).mp (by rw [hb]; rfl)
    rw [hcompanies] at hc
    obtain rfl := List.mem_singleton.mp hc
    rw [← restingOf_of_find hb] at hr
    cases side with
    | true =>
      rw [hbids] at hr
      rw [List.mem_singleton.mp hr]
      exact ⟨rfl, rfl⟩
    | false =>
      rw [hoffers] at hr
      cases hr
  obtain ⟨s', hstep, hiff⟩ := switch_keeps_wealth_iff new_sampleMarket h hqueue 0
  exact ⟨s, s', h, hqueue, hmode, ⟨by decide, hreg⟩, hbids, hstep, hiff.mpr (Or.inr hnothing)⟩

/-- User 7 offers four shares on a LEGACY book; the switch back to CURRENT destroys them. -/
theorem shares_destroyed_by_switch : ∃ s s',
    Run SafeEvent (start sampleMarket sampleDb) s [] [] ∧
      s.engineQueue = [.switchEngine .current] ∧ s.step (.engine 0) = some (s', [], []) ∧
      s.db.Real 7 ∧ s.wealth (.shares 1) 7 = 10 ∧ s'.wealth (.shares 1) 7 = 6 := by
  obtain ⟨⟨s, fills, pushed⟩, hrun, hout⟩ := Option.map_eq_some_iff.mp
    (by decide +kernel : (((start sampleMarket sampleDb).runEvents SafeEvent
      [.message 0 (.switchEngine "LEGACY"), .engine 0, sampleOffer, .engine 0,
        .message 0 (.switchEngine "CURRENT")]).map fun x =>
        decide (x.1.engineQueue = [.switchEngine .current] ∧ x.2 = ([], []) ∧
          (x.1.db.balances 7).isSome = true ∧ x.1.wealth (.shares 1) 7 = 10 ∧
          x.1.market.engineMode = .legacy ∧ x.1.market.held (Asset.unit 7 (.shares 1)) = 4))
      = some true)
  obtain ⟨hqueue, hnil, hreg, hbefore, hmode, hheld⟩ := of_decide_eq_true hout
  obtain ⟨rfl, rfl⟩ := Prod.mk.inj hnil
  refine ⟨s, _, run_of_runEvents hrun, hqueue, step_of_runTask hqueue rfl, ⟨by decide, hreg⟩,
    hbefore, ?_⟩
  have hother : EngineMode.current ≠ s.market.engineMode := by
    rw [show s.market.engineMode = .legacy from hmode]
    decide
  rw [wealth_task (e := ⟨s.market.setEngineMode .current, [], []⟩) hqueue,
    held_setEngineMode hother, hheld, hbefore]
  rfl

end Server

end ExchangeEngine
