import ExchangeEngine.Accounts.Supply

/-!
# What each account owns

From any start of the process on a database that earlier ones have left, if they were tame and
killed only between two events, in honest operation: an account owns what it had, what its
registration handed out, and what its fills have earned since.
-/

namespace ExchangeEngine

open Finset

lemma Asset.earnings_eq_zero {A : Finset Int} {a : Asset} {u : Int} {fills : List Trade}
    (h : ∀ t ∈ fills, t.Among A) (hu : u ∉ A) : a.earnings u fills = 0 := by
  refine List.sum_eq_zero fun n hn => ?_
  obtain ⟨t, ht, rfl⟩ := List.mem_map.mp hn
  have hbuyer : u ≠ t.buyerUserId := fun heq => hu (heq ▸ (h t ht).1)
  have hseller : u ≠ t.sellerUserId := fun heq => hu (heq ▸ (h t ht).2)
  cases a <;> simp [Asset.earned, hbuyer, hseller]

lemma Server.Honest.unstressed {s : Server} {e : Server.Event} (h : s.Honest e) :
    Server.Unstressed e := by
  cases e with
  | message now msg => exact h.2 now msg rfl
  | engine fuel => trivial
  | db => trivial

namespace Exchange

variable {sodium : Sodium} {m : MarketState} {chance : Chance} {companies : List Nat}
  {x₀ x x' : Exchange} {e : Event} {log log' : List Entry} {a : Asset} {u : Int}

/-- Honest operation: ordinary messages but no stress orders, registrations and logins. -/
def Honest (x : Exchange) : Event → Prop
  | .server e => x.server.Honest e
  | .register _ _ _ _ => True
  | .login _ _ _ _ => True
  | .restart _ _ => False
  | .killedInRegister _ _ _ _ _ => False
  | .killedInMain _ _ _ => False

instance (x : Exchange) : (e : Event) → Decidable (x.Honest e)
  | .server e => inferInstanceAs (Decidable (x.server.Honest e))
  | .register _ _ _ _ => isTrue trivial
  | .login _ _ _ _ => isTrue trivial
  | .restart _ _ => isFalse id
  | .killedInRegister _ _ _ _ _ => isFalse id
  | .killedInMain _ _ _ => isFalse id

/-- What a user was handed out by registrations. -/
def given (companies : List Nat) (a : Asset) (u : Int) (log : List Entry) : Int :=
  if u ∈ (Entry.accounts log).map Created.userId then starter companies a else 0

/-- What honest operation keeps up. -/
structure Settled (companies : List Nat) (x₀ x : Exchange) (log : List Entry) : Prop where
  running : x.server.Running
  listed : x.server.market.companies = companies
  sound : x.Sound
  clean : x.users.Clean x.server.db
  owned : x.server.Owned x.users.ids
  among : ∀ t ∈ Entry.fills log, t.Among x.users.ids
  accounts : ∀ account ∈ Entry.accounts log, account.userId ∈ x.users.ids
  wealth : ∀ a, ∀ u ∈ x.users.ids, x.server.wealth a u
    = x₀.server.wealth a u + given companies a u log + a.earnings u (Entry.fills log)
  start : ∀ a, ∀ u ∉ x.users.ids, x₀.server.wealth a u = 0
  supply : ∀ a, x.supply a
    = x₀.supply a + starter companies a * (Entry.accounts log).length

lemma settled_start {db : Database} {users : Users} (hm : MarketState.new companies = .ok m)
    (hsound : users.Sound db) (h : users.Clean db) :
    Settled companies ⟨.start m db, users⟩ ⟨.start m db, users⟩ [] where
  running := Server.running_start hm db
  listed := (companies_new hm : m.companies = companies)
  sound := hsound
  clean := h
  owned := owned_start hm h
  among _ ht := absurd ht List.not_mem_nil
  accounts _ ht := absurd ht List.not_mem_nil
  wealth a u _ := by simp [given, Entry.accounts, Entry.fills]
  start a u hu := by rw [Server.wealth_start hm, balance_eq_zero h hu]
  supply a := by simp [Entry.accounts]

lemma total_eq_supply {fills : List Trade} {s : Server} (h : ∀ t ∈ fills, t.Among x.users.ids)
    (hwealth : ∀ u ∈ x.users.ids, s.wealth a u = x.server.wealth a u + a.earnings u fills) :
    supply a { x with server := s } = x.supply a := by
  have hsum : supply a { x with server := s }
      = ∑ u ∈ x.users.ids, (x.server.wealth a u + a.earnings u fills) := sum_congr rfl hwealth
  rw [hsum, sum_add_distrib, sum_earnings h, add_zero]
  rfl

/-- What has been settled stays so when the server takes a step. -/
lemma Settled.server {ev : Server.Event} {s : Server} {fills : List Trade} {pushed : List DbTask}
    (h : Settled companies x₀ x log) (hhonest : x.server.Honest ev)
    (hstep : x.server.step ev = some (s, fills, pushed)) :
    Settled companies x₀ { x with server := s } (log ++ fills.map .fill) := by
  have hsafe := h.running.safe hhonest.1
  obtain ⟨howned, hamong⟩ := h.owned.step h.running.ok hsafe hhonest.unstressed hstep
  have hreg : ∀ u ∈ x.users.ids, x.server.db.Registered u := fun u hu =>
    (h.sound.wallets u).mpr hu
  have hwealth : ∀ a, ∀ u ∈ x.users.ids,
      s.wealth a u = x.server.wealth a u + a.earnings u fills := fun a u hu =>
    Server.step_wealth h.running.ok h.running.listening hsafe h.running.keepsEngine
      h.running.listed (hreg u hu)
      (fun now msg c he hc => absurd hc (Server.not_orders_of_not_stress (hhonest.2 now msg he)))
      hstep
  have hsound : x.users.Sound s.db :=
    h.sound.congr (fun _ => Server.registered_step hstep) (Server.sessions_step hstep)
  refine ⟨h.running.step hhonest.1 hstep,
    (Server.companies_step hstep).trans h.listed, hsound,
    ⟨hsound.toKept, Server.nonNegative_step h.clean.nonNegative hstep, howned.rows⟩, howned, ?_, ?_,
    ?_, h.start, ?_⟩
  · intro t ht
    rw [Entry.fills_append, Entry.fills_map_fill, List.mem_append] at ht
    rcases ht with ht | ht
    · exact h.among t ht
    · exact hamong t ht
  · intro account haccount
    rw [Entry.accounts_append, Entry.accounts_map_fill, List.append_nil] at haccount
    exact h.accounts account haccount
  · intro a u hu
    rw [hwealth a u hu, h.wealth a u hu, given, given, Entry.accounts_append,
      Entry.accounts_map_fill, List.append_nil, Entry.fills_append, Entry.fills_map_fill,
      Asset.earnings_append]
    ring
  · intro a
    rw [total_eq_supply hamong (hwealth a), h.supply a, Entry.accounts_append,
      Entry.accounts_map_fill, List.append_nil]

/-- What has been settled stays so when an account is added. -/
lemma Settled.registered {row : UserRow} {users : Users} {salt : Nat}
    {username password role : String} (h : Settled companies x₀ x log)
    (hfrom : UserRow.From sodium salt username password role row)
    (hadded : x.users.Added row users) :
    Settled companies x₀
      ⟨{ x.server with
          db := grantAll row.id x.server.market.companies (x.server.db.initBal row.id) }, users⟩
      (log ++ createdEntry password (starterShares x.server.market.companies)
        (some (row.id, true))) := by
  generalize hentry : createdEntry password (starterShares x.server.market.companies)
    (some (row.id, true)) = entry
  obtain ⟨hclean, -, -⟩ := h.clean.creations
    (.registered x.server.market.companies (.funded hfrom hadded))
  have hsub := ids_subset_of_added hadded
  have hid := h.clean.kept.id_notMem hadded
  have hnew := not_registered_of_added h.clean.kept hadded
  have hfills : Entry.fills (log ++ entry) = Entry.fills log := by
    simp [← hentry, createdEntry, Entry.fills]
  have haccounts : Entry.accounts (log ++ entry) = Entry.accounts log ++ [⟨row.id, password⟩] := by
    simp [← hentry, createdEntry, Entry.accounts]
  have hsound : users.Sound (grantAll row.id x.server.market.companies
      (x.server.db.initBal row.id)) :=
    (h.sound.added hadded).congr (fun _ => registered_grantAll) sessions_grantAll
  refine ⟨⟨⟨h.running.ok.market, h.running.ok.addressed⟩, h.running.listening, h.running.queue⟩,
    h.listed, hsound, hclean, h.owned.withDb hsub hclean.kept.sessions hclean.rows, ?_, ?_, ?_, ?_,
    ?_⟩
  · rw [hfills]
    exact fun t ht => ⟨hsub (h.among t ht).1, hsub (h.among t ht).2⟩
  · rw [haccounts]
    intro account haccount
    rcases List.mem_append.mp haccount with haccount | haccount
    · exact hsub (h.accounts account haccount)
    · rw [List.mem_singleton.mp haccount]
      exact mem_ids_of_added hadded
  · intro a u hu
    rw [hfills, given, haccounts, List.map_append, Server.wealth_reserve, balance_grantAll _ hnew,
      h.listed]
    by_cases hrow : u = row.id
    · subst hrow
      rw [h.owned.wealth_eq_zero h.running.ok hnew hid, h.start a _ hid,
        Asset.earnings_eq_zero h.among hid]
      simp
    · have hold : u ∈ x.users.ids := by
        rw [hadded.ids_eq, mem_insert] at hu
        exact hu.resolve_left hrow
      rw [h.wealth a u hold, given]
      simp only [hrow, if_false, List.mem_append, List.map_cons, List.map_nil,
        List.mem_singleton, or_false]
      ring
  · intro a u hu
    exact h.start a u fun hmem => hu (hsub hmem)
  · intro a
    rw [supply_registered h.running.ok h.clean h.owned hadded, h.supply a, h.listed, haccounts,
      List.length_append, List.length_singleton]
    push_cast
    ring

/-- A login settles nothing. -/
lemma Settled.loggedIn {token : String} {expiresAt : Int} {grant : Grant}
    (h : Settled companies x₀ x log) (hu : u ∈ x.users.ids) :
    Settled companies x₀
      { x with server := { x.server with db := x.server.db.createSess token u expiresAt } }
      (log ++ [.granted grant]) := by
  have hsound : x.users.Sound (x.server.db.createSess token u expiresAt) :=
    h.sound.createSess hu _
  have hfills : Entry.fills (log ++ [.granted grant]) = Entry.fills log := by simp [Entry.fills]
  have haccounts : Entry.accounts (log ++ [.granted grant]) = Entry.accounts log := by
    simp [Entry.accounts]
  refine ⟨⟨⟨h.running.ok.market, h.running.ok.addressed⟩, h.running.listening, h.running.queue⟩,
    h.listed, hsound, ⟨hsound.toKept, h.clean.nonNegative, h.clean.rows⟩,
    h.owned.withDb (Subset.refl _) hsound.sessions h.owned.rows, hfills ▸ h.among,
    haccounts ▸ h.accounts, ?_, h.start, ?_⟩
  · intro a v hv
    rw [Server.wealth_reserve, balance_createSess, sub_self, add_zero, hfills, given, haccounts]
    exact h.wealth a v hv
  · intro a
    rw [supply_loggedIn, haccounts]
    exact h.supply a

/-- **One step** of honest operation. -/
theorem Settled.step (h : Settled companies x₀ x log) (hhonest : x.Honest e)
    (hstep : Exchange.step sodium m x e = some (x', log')) :
    Settled companies x₀ x' (log ++ log') := by
  cases step_steps hstep with
  | server hserver => exact h.server hhonest hserver
  | refused =>
    rw [List.append_nil]
    exact h
  | registered hfrom hadded => exact h.registered hfrom hadded
  | loggedIn hrow => exact h.loggedIn (Users.id_mem_of_named hrow)
  | restarted => exact hhonest.elim
  | @killed e _ _ _ hnot =>
    cases e with
    | killedInRegister => exact hhonest.elim
    | killedInMain => exact hhonest.elim
    | _ => exact absurd trivial hnot

/-- **What each account owns.** Start the process on any database that earlier runs have left, in
which there was no stress order, no cancellation hit a stale node, no book ran out of ids and the
process was killed only between two events. In honest operation each account then owns what it had,
what its registration has handed out since, and what its fills have earned; and all accounts
together own what they had and what was handed out. -/
theorem value_kept {salt salt' : Nat} {x₁ : Exchange} {log₁ : List Entry}
    (hm : MarketState.new companies = .ok m)
    (h₁ : Run sodium m (fun x e => x.Tame e ∧ x.Whole e) (blank m chance) x₁ log₁)
    (h₀ : x₀ = (main sodium m salt salt' x₁.server.db x₁.users).1)
    (h : Run sodium m Honest x₀ x log) :
    (∀ a, ∀ u ∈ x.users.ids, x.server.wealth a u
      = a.balance x₀.server.db u + given companies a u log + a.earnings u (Entry.fills log)) ∧
    ∀ a, x.supply a
      = x₀.users.total a x₀.server.db + starter companies a * (Entry.accounts log).length := by
  have hcapped := Run.capped hm (h₁.mono fun _ _ hboth => hboth.1)
  have hsound₁ := Run.sound sound_blank (h₁.mono fun _ _ hboth => hboth.2)
  obtain ⟨db, users, hmain, hcreations, hfunded⟩ :=
    @main_creations sodium m salt salt' x₁.server.db x₁.users
  obtain ⟨hclean, -, -⟩ := hcapped.clean.creations hcreations
  have hsound := (Users.Grows.creations hsound₁.toKept hcreations).sound hsound₁ hclean.kept hfunded
  have hstart : x₀ = ⟨.start m db, users⟩ := h₀.trans hmain
  have hsettled : Settled companies x₀ x log := by
    refine h.invariant (P := fun x log => Settled companies x₀ x log) ?_ ?_
    · rw [hstart]
      exact settled_start hm hsound hclean
    · exact fun _ _ _ _ _ ih hhonest hstep => ih.step hhonest hstep
  subst hstart
  refine ⟨fun a u hu => ?_, fun a => ?_⟩
  · rw [hsettled.wealth a u hu, Server.wealth_start hm]
    rfl
  · rw [hsettled.supply a, supply_start hm]
    rfl

/-- `shrey` sells a share of his gift to `akshay`. -/
def sampleSale : List Event :=
  [.login (fun _ => 0) 0 "shrey" "pass123", .login (fun _ => 1) 0 "akshay" "pass123",
    .server (.message 1 (.order ⟨Database.generateToken fun _ => 0, some 1, some "SELL", some 5,
      some 1, some 0, false, none⟩)),
    .server (.message 1 (.order ⟨Database.generateToken fun _ => 1, some 1, some "BUY", some 7,
      some 1, some 1, false, none⟩)),
    .server (.engine 5), .server (.engine 5)]

theorem value_kept_sampleSale : ∃ x log,
    Run sampleSodium Server.sampleMarket Honest
      (main sampleSodium Server.sampleMarket 0 0 sampleBlank.server.db sampleBlank.users).1
      x log ∧ x.server.wealth .cash 2 = 999995 := by
  obtain ⟨⟨x, log⟩, hrun, hsample⟩ := Option.map_eq_some_iff.mp
    (by decide +kernel : (Transition.runEvents (step sampleSodium Server.sampleMarket) Honest
      (main sampleSodium Server.sampleMarket 0 0 sampleBlank.server.db sampleBlank.users).1
      sampleSale).map (fun r => (Asset.cash.earnings 2 (Entry.fills r.2),
        (Entry.accounts r.2).length, decide (2 ∈ r.1.users.ids))) = some (-5, 0, true))
  have h := Transition.run_of_runEvents hrun
  obtain ⟨hearned, hsample⟩ := Prod.mk.inj hsample
  obtain ⟨haccounts, hmem⟩ := Prod.mk.inj hsample
  obtain ⟨hvalue, -⟩ := value_kept Server.new_sampleMarket .refl rfl h
  refine ⟨x, log, h, ?_⟩
  rw [hvalue .cash 2 (of_decide_eq_true hmem), hearned, given, List.length_eq_zero_iff.mp haccounts]
  decide +kernel

end Exchange

end ExchangeEngine
