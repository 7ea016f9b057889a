import ExchangeEngine.Accounts.Authentication
import ExchangeEngine.Server.Owned

/-!
# How much there is

Cash and shares come into being when an account is created, and in no other way: whatever the
sessions, the engine thread and the database worker do, however often the engine is switched and the
process killed and started again, all accounts together own at most what was handed out. In honest
operation they own exactly that.
-/

namespace ExchangeEngine

open Finset

/-! ### What accounts start with -/

/-- What a registration hands out, with the companies whose shares it grants. -/
def starter (companies : List Nat) : Asset → Int
  | .cash => 1000000
  | .shares c => 100 * companies.count c

/-- What comes with an account. -/
def Endowment.of (endowment : Endowment) : Asset → Int
  | .cash => if endowment.wallet then 1000000 else 0
  | .shares c => ((endowment.shares.filter fun x => x.1 = c).map fun x => (x.2 : Int)).sum

/-- What has been handed out with the accounts. -/
def Exchange.Entry.handed (a : Asset) (log : List Exchange.Entry) : Int :=
  ((Exchange.Entry.endowments log).map fun endowment => endowment.of a).sum

section Tables

variable {db : Database} {u v : Int} {c : Nat} {companies : List Nat} {a : Asset}

@[simp] lemma handed_append (log log' : List Exchange.Entry) : Exchange.Entry.handed a (log ++ log')
    = Exchange.Entry.handed a log + Exchange.Entry.handed a log' := by
  simp [Exchange.Entry.handed]

@[simp] lemma handed_map_fill (fills : List Trade) :
    Exchange.Entry.handed a (fills.map .fill) = 0 := by
  simp [Exchange.Entry.handed]

lemma handed_createdEntry (password : String) (id : Int) (wallet : Bool)
    (shares : List (Nat × Nat)) :
    Exchange.Entry.handed a (Exchange.createdEntry password shares (some (id, wallet)))
      = Endowment.of ⟨wallet, shares⟩ a := by
  simp [Exchange.Entry.handed, Exchange.Entry.endowments, Exchange.createdEntry]

/-- The wallet and the shares. -/
lemma handed_eq_add (password : String) (x : Int × Bool) (shares : List (Nat × Nat)) :
    Exchange.Entry.handed a (Exchange.createdEntry password shares (some x))
      = Exchange.Entry.handed a (Exchange.createdEntry password [] (some x))
        + Endowment.of ⟨false, shares⟩ a := by
  rw [handed_createdEntry, handed_createdEntry]
  cases a <;> simp [Endowment.of]

lemma of_shares_cons (c q : Nat) (shares : List (Nat × Nat)) :
    Endowment.of ⟨false, (c, q) :: shares⟩ a
      = Endowment.of ⟨false, [(c, q)]⟩ a + Endowment.of ⟨false, shares⟩ a := by
  cases a with
  | cash => rfl
  | shares d => by_cases hcd : c = d <;> simp [Endowment.of, hcd]

lemma of_starterShares (companies : List Nat) :
    Endowment.of ⟨true, Exchange.starterShares companies⟩ a = starter companies a := by
  cases a with
  | cash => rfl
  | shares d =>
    simp only [Endowment.of, starter, Exchange.starterShares]
    induction companies with
    | nil => rfl
    | cons c companies ih =>
      by_cases hcd : c = d
      · simp [hcd, ih]
        ring
      · simp [hcd, ih]

lemma cash_initBal (h : ¬ db.Registered v) :
    (db.initBal v).cash u = if u = v then 1000000 else db.cash u := by
  have hnone : db.balances v = none := by simpa [Database.Registered] using h
  by_cases huv : u = v
  · subst huv
    simp [Database.cash, Database.initBal, hnone]
  · simp [Database.cash, Database.initBal, huv]

lemma cash_grantAll : (Exchange.grantAll v companies db).cash u = db.cash u := by
  rw [Database.cash, balances_grantAll]
  rfl

lemma shares_grantAll : (Exchange.grantAll v companies db).shares u c
    = db.shares u c + if u = v then (100 * companies.count c : Int) else 0 := by
  induction companies generalizing db with
  | nil => simp [Exchange.grantAll]
  | cons d companies ih =>
    have hone : (db.grantShares v d 100).shares u c
        = db.shares u c + if u = v ∧ c = d then (100 : Int) else 0 :=
      Database.shares_settleShares
    have hrest : (Exchange.grantAll v (d :: companies) db).shares u c
        = (db.grantShares v d 100).shares u c
          + if u = v then (100 * companies.count c : Int) else 0 := ih
    rw [hrest, hone, List.count_cons]
    by_cases huv : u = v
    · by_cases hcd : c = d
      · subst hcd
        simp only [huv, and_self, if_true, beq_self_eq_true]
        push_cast
        ring
      · simp [huv, hcd, Ne.symm hcd]
    · simp [huv]

variable (companies) in
/-- **A registration** hands out the starter, to the new account only. -/
lemma balance_grantAll (h : ¬ db.Registered v) :
    a.balance (Exchange.grantAll v companies (db.initBal v)) u
      = a.balance db u + if u = v then starter companies a else 0 := by
  cases a with
  | cash =>
    have hzero : db.cash v = 0 := by
      have hnone : db.balances v = none := by simpa [Database.Registered] using h
      simp [Database.cash, hnone]
    simp only [Asset.balance, cash_grantAll, cash_initBal h, starter]
    by_cases huv : u = v
    · simp [huv, hzero]
    · simp [huv]
  | shares c =>
    simp only [Asset.balance, shares_grantAll, starter]
    rfl

end Tables

/-! ### All accounts together -/

/-- What the users have in the database. -/
def Users.total (a : Asset) (users : Users) (db : Database) : Int :=
  ∑ u ∈ users.ids, a.balance db u

/-- The tables as they are without stress orders: accounts are kept, nothing is negative, and
nobody else has shares. -/
structure Users.Clean (users : Users) (db : Database) : Prop where
  kept : users.Kept db
  nonNegative : db.NonNegative
  rows : ∀ u ∉ users.ids, ∀ c, db.portfolios u c = none

section Users

variable {users users' : Users} {db db' : Database} {row : UserRow} {a : Asset} {u : Int}
  {companies : List Nat} {sodium : Sodium} {username password : String}

lemma balance_eq_zero (h : users.Clean db) (hu : u ∉ users.ids) : a.balance db u = 0 := by
  cases a with
  | cash =>
    have hnone : db.balances u = none := by
      have hreg : ¬ db.Registered u := fun hreg => hu (h.kept.owner u hreg)
      simpa [Database.Registered] using hreg
    simp [Asset.balance, Database.cash, hnone]
  | shares c => simp [Asset.balance, Database.shares, h.rows u hu c]

lemma not_registered_of_added (h : users.Kept db) (hadded : users.Added row users') :
    ¬ db.Registered row.id :=
  fun hreg => h.id_notMem hadded (h.owner _ hreg)

lemma mem_ids_of_added (hadded : users.Added row users') : row.id ∈ users'.ids := by
  rw [hadded.ids_eq]
  exact mem_insert_self _ _

lemma ids_subset_of_added (hadded : users.Added row users') : users.ids ⊆ users'.ids := by
  rw [hadded.ids_eq]
  exact subset_insert _ _

/-- What is new is only what the new user has. -/
lemma Users.Clean.withNew (h : users.Clean db) (hadded : users.Added row users')
    (hkept : users'.Kept db') (hnonNegative : db'.NonNegative)
    (hrows : db'.portfolios = db.portfolios)
    (hother : ∀ u ≠ row.id, db'.balances u = db.balances u) :
    users'.Clean db' ∧ users'.total a db' = users.total a db + a.balance db' row.id := by
  refine ⟨⟨hkept, hnonNegative, fun u hu c => ?_⟩, ?_⟩
  · rw [hrows]
    exact h.rows u (fun hmem => hu (ids_subset_of_added hadded hmem)) c
  · have hsame : ∀ u ∈ users.ids, a.balance db' u = a.balance db u := by
      intro u hu
      have hne : u ≠ row.id := fun heq => h.kept.id_notMem hadded (heq ▸ hu)
      cases a with
      | cash => simp only [Asset.balance, Database.cash, hother u hne]
      | shares c => simp only [Asset.balance, Database.shares, hrows]
    rw [Users.total, hadded.ids_eq, sum_insert (h.kept.id_notMem hadded), sum_congr rfl hsame,
      add_comm]
    rfl

/-- **A user created** has what comes with a wallet, if he has one. -/
lemma Users.Clean.creation {id : Option (Int × Bool)} (h : users.Clean db)
    (hcreation : Creation sodium username password db users (db', users', id)) :
    users'.Clean db' ∧ users.ids ⊆ users'.ids ∧ (∀ x ∈ id, x.1 ∈ users'.ids) ∧ ∀ a,
      users'.total a db'
        = users.total a db + Exchange.Entry.handed a (Exchange.createdEntry password [] id) := by
  have hkept := h.kept.creation hcreation
  cases hcreation with
  | nothing =>
    exact ⟨h, Subset.refl _, fun x hx => (by cases hx), fun a => (add_zero _).symm⟩
  | @orphaned salt role row _ hfrom hadded =>
    have hnew : ∀ a : Asset, a.balance db row.id = 0 := fun a =>
      balance_eq_zero h (h.kept.id_notMem hadded)
    refine ⟨(h.withNew (a := .cash) hadded hkept h.nonNegative rfl fun _ _ => rfl).1,
      ids_subset_of_added hadded, ?_, fun a => ?_⟩
    · intro x hx
      rw [← Option.some.inj hx]
      exact mem_ids_of_added hadded
    · rw [(h.withNew hadded hkept h.nonNegative rfl fun _ _ => rfl).2, hnew, handed_createdEntry]
      cases a <;> rfl
  | @funded salt role row _ hfrom hadded =>
    have hother : ∀ u ≠ row.id, (db.initBal row.id).balances u = db.balances u := fun u hne => by
      simp [Database.initBal, hne]
    have hnonNegative := Server.nonNegative_initBal (u := row.id) h.nonNegative
    refine ⟨(h.withNew (a := .cash) hadded hkept hnonNegative rfl hother).1,
      ids_subset_of_added hadded, ?_, fun a => ?_⟩
    · intro x hx
      rw [← Option.some.inj hx]
      exact mem_ids_of_added hadded
    · rw [(h.withNew hadded hkept hnonNegative rfl hother).2, handed_createdEntry]
      cases a with
      | cash =>
        simp [Asset.balance, cash_initBal (not_registered_of_added h.kept hadded), Endowment.of]
      | shares c =>
        have hnone := h.rows row.id (h.kept.id_notMem hadded) c
        simp [Asset.balance, Database.shares, Database.initBal, hnone, Endowment.of]

/-- **Shares** are handed out to one of the users. -/
lemma Users.Clean.settleShares {id : Int} (h : users.Clean db) (hid : id ∈ users.ids) (c q : Nat) :
    users.Clean (db.settleShares id c q) ∧ ∀ a,
      users.total a (db.settleShares id c q)
        = users.total a db + Endowment.of ⟨false, [(c, q)]⟩ a := by
  refine ⟨⟨h.kept.congr (fun _ hreg => hreg) rfl,
    Server.nonNegative_settleShares h.nonNegative (Int.natCast_nonneg _), fun u hu d => ?_⟩,
    fun a => ?_⟩
  · have hne : u ≠ id := fun heq => hu (heq ▸ hid)
    rw [Server.portfolios_settleShares_of_ne hne]
    exact h.rows u hu d
  · have heach : ∀ u ∈ users.ids, a.balance (db.settleShares id c q) u
        = a.balance db u + if u = id then Endowment.of ⟨false, [(c, q)]⟩ a else 0 := by
      intro u _
      cases a with
      | cash => simp [Asset.balance, Database.cash_settleShares, Endowment.of]
      | shares d =>
        simp only [Asset.balance, Database.shares_settleShares, Endowment.of]
        by_cases hu : u = id <;> by_cases hcd : d = c <;> simp [hu, hcd, eq_comm]
    rw [Users.total, sum_congr rfl heach, sum_add_distrib, sum_ite_eq', if_pos hid]
    rfl

lemma Users.Clean.grantAll {id : Int} (h : users.Clean db) (hid : id ∈ users.ids)
    (companies : List Nat) : users.Clean (Exchange.grantAll id companies db) ∧ ∀ a,
      users.total a (Exchange.grantAll id companies db)
        = users.total a db + Endowment.of ⟨false, Exchange.starterShares companies⟩ a := by
  induction companies generalizing db with
  | nil => exact ⟨h, fun a => by cases a <;> exact (add_zero _).symm⟩
  | cons c companies ih =>
    obtain ⟨hclean, htotal⟩ := h.settleShares hid c 100
    obtain ⟨hrest, htotal'⟩ := ih hclean
    refine ⟨hrest, fun a => ?_⟩
    have hall : Endowment.of ⟨false, Exchange.starterShares (c :: companies)⟩ a = _ :=
      of_shares_cons c 100 (Exchange.starterShares companies)
    have hfirst : users.total a (Exchange.grantAll id (c :: companies) db) = _ := htotal' a
    rw [hall, hfirst, htotal a, add_assoc]

lemma Users.Clean.giftCut {id : Int} (h : users.Clean db) (hid : id ∈ users.ids) (writes : Nat) :
    users.Clean (Exchange.giftCut db (some id) writes) ∧ ∀ a,
      users.total a (Exchange.giftCut db (some id) writes)
        = users.total a db + Endowment.of ⟨false, Exchange.giftShares writes⟩ a := by
  match writes with
  | 0 => exact ⟨h, fun a => by cases a <;> exact (add_zero _).symm⟩
  | 1 => exact h.settleShares hid 1 500
  | writes + 2 =>
    -- the seller is paid nothing for the gift
    have hgift : Exchange.giftCut db (some id) (writes + 2) = db.settleShares id 1 500 := by
      simp only [Exchange.giftCut, Exchange.gift, Database.settleTrade, Database.settleTradeUnlocked,
        Database.settleCash]
      simp
    rw [hgift]
    exact h.settleShares hid 1 500

/-- **Accounts created** bring with them what is handed out, and nothing else. -/
lemma Users.Clean.creations {log : List Exchange.Entry} (h : users.Clean db)
    (hcreations : Creations sodium db users db' users' log) :
    users'.Clean db' ∧ users.ids ⊆ users'.ids ∧ ∀ a,
      users'.total a db' = users.total a db + Exchange.Entry.handed a log := by
  cases hcreations with
  | nothing => exact ⟨h, Subset.refl _, fun a => (add_zero _).symm⟩
  | registered companies hcreation =>
    obtain ⟨hclean, hsub, hid, htotal⟩ := h.creation hcreation
    obtain ⟨hgranted, htotal'⟩ := hclean.grantAll (hid _ rfl) companies
    refine ⟨hgranted, hsub, fun a => ?_⟩
    rw [htotal' a, htotal a, handed_eq_add _ _ (Exchange.starterShares companies), add_assoc]
  | @main _ db₂ _ _ shrey akshay writes hshrey hakshay =>
    obtain ⟨hclean₁, hsub₁, hid, htotal₁⟩ := h.creation hshrey
    obtain ⟨hclean₂, hsub₂, -, htotal₂⟩ := hclean₁.creation hakshay
    cases shrey with
    | none =>
      have hnone : Exchange.giftCut db₂ none writes = db₂ := by
        match writes with
        | 0 => rfl
        | 1 => rfl
        | _ + 2 => rfl
      rw [Option.map_none, hnone]
      refine ⟨hclean₂, hsub₁.trans hsub₂, fun a => ?_⟩
      rw [htotal₂ a, htotal₁ a, handed_append, ← add_assoc]
      rfl
    | some shrey =>
      obtain ⟨hgiven, htotal₃⟩ := hclean₂.giftCut (hsub₂ (hid _ rfl)) writes
      refine ⟨hgiven, hsub₁.trans hsub₂, fun a => ?_⟩
      rw [handed_append, Option.map_some, htotal₃ a, htotal₂ a, htotal₁ a,
        handed_eq_add _ _ (Exchange.giftShares writes)]
      ring

end Users

/-! ### Nothing is minted -/

namespace Exchange

variable {sodium : Sodium} {m : MarketState} {chance : Chance} {companies : List Nat}
  {x₀ x x' : Exchange} {e : Event} {log log' : List Entry} {a : Asset} {u : Int}

/-- What all users own, in the database, in live orders and in credits still pending. -/
def supply (a : Asset) (x : Exchange) : Int := ∑ u ∈ x.users.ids, x.server.wealth a u

/-- No stress orders, no cancellation that hits a stale node, and ids left in every book. -/
def Tame (x : Exchange) : Event → Prop
  | .server e => x.server.SafeEvent e ∧ Server.Unstressed e
  | _ => True

/-- What the exchange keeps up then. -/
structure Capped (companies : List Nat) (x : Exchange) (log : List Entry) : Prop where
  ok : x.server.Ok
  listed : x.server.market.companies = companies
  clean : x.users.Clean x.server.db
  owned : x.server.Owned x.users.ids
  supply_le : ∀ a, x.supply a ≤ Entry.handed a log

/-- A server that has just been started, on clean tables. -/
lemma owned_start {db : Database} {users : Users} (hm : MarketState.new companies = .ok m)
    (h : users.Clean db) : (Server.start m db).Owned users.ids where
  queue task ht := absurd ht List.not_mem_nil
  resting c b hb side r hr := by
    rw [Server.resting_start hm hb] at hr
    exact absurd hr List.not_mem_nil
  sessions := h.kept.sessions
  front t ht := absurd ht List.not_mem_nil
  back t ht := absurd ht List.not_mem_nil
  rows := h.rows

lemma supply_start {db : Database} {users : Users} (hm : MarketState.new companies = .ok m) :
    supply a ⟨Server.start m db, users⟩ = users.total a db :=
  sum_congr rfl fun _ _ => Server.wealth_start hm

lemma companies_new (hm : MarketState.new companies = .ok m) : m.companies = companies := by
  simp only [MarketState.new] at hm
  split_ifs at hm
  rw [← Except.ok.inj hm]

/-- A registration adds the starter to what all users own. -/
lemma supply_registered {row : UserRow} {users : Users} (hok : x.server.Ok)
    (hclean : x.users.Clean x.server.db) (howned : x.server.Owned x.users.ids)
    (hadded : x.users.Added row users) :
    supply a ⟨{ x.server with
        db := grantAll row.id x.server.market.companies (x.server.db.initBal row.id) }, users⟩
      = x.supply a + starter x.server.market.companies a := by
  have hnew := not_registered_of_added hclean.kept hadded
  have hid := hclean.kept.id_notMem hadded
  have hother : ∀ u ∈ x.users.ids, ({ x.server with
      db := grantAll row.id x.server.market.companies (x.server.db.initBal row.id) } :
        Server).wealth a u = x.server.wealth a u := by
    intro u hu
    have hne : u ≠ row.id := fun heq => hid (heq ▸ hu)
    rw [Server.wealth_reserve, balance_grantAll _ hnew, if_neg hne]
    ring
  simp only [supply]
  rw [hadded.ids_eq, sum_insert hid, sum_congr rfl hother, Server.wealth_reserve,
    balance_grantAll _ hnew, if_pos rfl, howned.wealth_eq_zero hok hnew hid]
  ring

/-- A login moves nothing. -/
lemma supply_loggedIn {token : String} {n : Int} :
    supply a { x with server := { x.server with db := x.server.db.createSess token u n } }
      = x.supply a := by
  refine sum_congr rfl fun v _ => ?_
  rw [Server.wealth_reserve, balance_createSess]
  ring

/-- **One step** adds no more than it hands out. -/
theorem Capped.step (hm : MarketState.new companies = .ok m) (h : x.Capped companies log)
    (htame : x.Tame e) (hstep : step sodium m x e = some (x', log')) :
    x'.Capped companies (log ++ log') := by
  have hstarted : ∀ {db : Database} {users : Users},
      Creations sodium x.server.db x.users db users log' →
      Capped companies ⟨.start m db, users⟩ (log ++ log') := by
    intro db users hcreations
    obtain ⟨hclean, -, htotal⟩ := h.clean.creations hcreations
    have hlisted : m.companies = companies := companies_new hm
    refine ⟨Server.ok_start (Server.ok_new hm) _, hlisted, hclean, owned_start hm hclean,
      fun a => ?_⟩
    have hkept : x.users.total a x.server.db ≤ x.supply a :=
      sum_le_sum fun u _ => balance_le_wealth x.server
    rw [supply_start hm, handed_append]
    linarith only [htotal a, hkept, h.supply_le a]
  cases step_steps hstep with
  | server hserver =>
    obtain ⟨hsafe, hstress⟩ := htame
    have howned := (h.owned.step h.ok hsafe hstress hserver).1
    refine ⟨h.ok.step hsafe hserver, (Server.companies_step hserver).trans h.listed,
      ⟨?_, Server.nonNegative_step h.clean.nonNegative hserver, howned.rows⟩, howned, ?_⟩
    · exact h.clean.kept.congr (fun _ => (Server.registered_step hserver).mp)
        (Server.sessions_step hserver)
    · intro a
      rw [handed_append, handed_map_fill, add_zero]
      exact (h.owned.total_le h.ok hsafe hstress hserver a).trans (h.supply_le a)
  | refused =>
    rw [List.append_nil]
    exact h
  | registered hfrom hadded =>
    obtain ⟨hclean, -, -⟩ := h.clean.creations
      (.registered x.server.market.companies (.funded hfrom hadded))
    refine ⟨⟨h.ok.market, h.ok.addressed⟩, h.listed, hclean,
      h.owned.withDb (ids_subset_of_added hadded) hclean.kept.sessions hclean.rows, ?_⟩
    intro a
    rw [supply_registered h.ok h.clean h.owned hadded, handed_append, handed_createdEntry,
      of_starterShares]
    linarith only [h.supply_le a]
  | @loggedIn raw now _ _ row hrow hverify =>
    have hkept : x.users.Kept
        (x.server.db.createSess (Database.generateToken raw) row.id (now + 86400)) :=
      h.clean.kept.createSess (Users.id_mem_of_named hrow) _
    refine ⟨⟨h.ok.market, h.ok.addressed⟩, h.listed,
      ⟨hkept, h.clean.nonNegative, h.clean.rows⟩,
      h.owned.withDb (Subset.refl _) hkept.sessions h.owned.rows, ?_⟩
    intro a
    rw [supply_loggedIn, handed_append]
    exact (h.supply_le a).trans (add_zero _).ge
  | restarted hcreations => exact hstarted hcreations
  | killed _ hcreations => exact hstarted hcreations

lemma clean_blank : (blank m chance).users.Clean (blank m chance).server.db :=
  ⟨Users.Sound.empty.toKept, ⟨fun _ _ h => (by cases h), fun _ _ _ h => (by cases h)⟩,
    fun _ _ _ => rfl⟩

lemma Run.capped (hm : MarketState.new companies = .ok m)
    (h : Run sodium m Tame (blank m chance) x log) : x.Capped companies log := by
  refine h.invariant (P := fun x log => x.Capped companies log) ?_
    fun _ _ _ _ _ ih htame hstep => Capped.step hm ih htame hstep
  have hlisted : m.companies = companies := companies_new hm
  refine ⟨Server.ok_start (Server.ok_new hm) _, hlisted, clean_blank, owned_start hm clean_blank,
    fun a => ?_⟩
  rw [blank, supply_start hm]
  exact le_rfl

/-- **Nothing is minted.** In every run from an empty database, with any number of switches of the
engine and of restarts, wherever the process was killed, but without stress orders: all users
together own at most what was handed out with the accounts; and no balance is negative. -/
theorem never_minted (hm : MarketState.new companies = .ok m)
    (h : Run sodium m Tame (blank m chance) x log) :
    (∀ a, x.supply a ≤ Entry.handed a log) ∧ x.server.db.NonNegative := by
  have hcapped := h.capped hm
  exact ⟨hcapped.supply_le, hcapped.clean.nonNegative⟩

instance : (e : Server.Event) → Decidable (Server.Unstressed e)
  | .message _ msg => inferInstanceAs (Decidable (msg.stress = false))
  | .engine _ | .db => isTrue trivial

instance (x : Exchange) : (e : Event) → Decidable (x.Tame e)
  | .server e => inferInstanceAs (Decidable (x.server.SafeEvent e ∧ Server.Unstressed e))
  | .register _ _ _ _ | .login _ _ _ _ | .restart _ _ | .killedInRegister _ _ _ _ _
  | .killedInMain _ _ _ => isTrue trivial

/-- The process is killed in `main`, before it has given `shrey` his shares, and started again; a
user registers, and offers a share. -/
def sampleOffer : List Event :=
  [.killedInMain 0 0 3, .restart 0 0, .register 0 "newcomer" "secret" "trader",
    .login (fun _ => 0) 5 "newcomer" "secret",
    .server (.message 6 (.order ⟨Database.generateToken fun _ => 0, some 1, some "SELL", some 5,
      some 1, some 0, false, none⟩)), .server (.engine 5), .restart 0 0]

theorem never_minted_sampleOffer : ∃ x log,
    Run sampleSodium Server.sampleMarket Tame sampleBlank x log ∧
      x.supply (.shares 1) ≤ 100 := by
  obtain ⟨⟨x, log⟩, hrun, hhanded⟩ := Option.map_eq_some_iff.mp
    (by decide +kernel : (Transition.runEvents (step sampleSodium Server.sampleMarket) Tame
      sampleBlank sampleOffer).map (fun r => Entry.handed (.shares 1) r.2) = some 100)
  have h := Transition.run_of_runEvents hrun
  have hhanded : Entry.handed (.shares 1) log = 100 := hhanded
  exact ⟨x, log, h, hhanded ▸ (never_minted Server.new_sampleMarket h).1 (.shares 1)⟩

end Exchange

end ExchangeEngine
