import ExchangeEngine.Server.Session
import ExchangeEngine.Server.Settlement
import Mathlib.Data.Rat.Floor
import Mathlib.Tactic.NormNum

/-!
# The admission of orders

`get<T>()` casts the number that a field stores to the type asked for, so the handlers of `order`
and `market_order` may enter another order than the one written. They enter exactly what is written
if every number is in the range of its type and the side is one of the two.
-/

namespace ExchangeEngine

/-! ### Stored values -/

/-- What a JSON value stores. -/
inductive Stored
  | null
  | boolean (b : Bool)
  | integer (n : Int)
  | unsigned (n : Nat)
  | float (x : ℚ)
  | string (s : String)
  | array
  | object

namespace Stored

/-- The number written. -/
def number : Stored → Option ℚ
  | .integer n => some n
  | .unsigned n => some n
  | .float x => some x
  | _ => none

/-- `static_cast` of a number to an unsigned type of `w` bits. It rounds towards zero, and is
undefined where the result does not fit. -/
def cast (w : Nat) : Stored → Option Nat
  | .integer n => some (n % 2 ^ w).toNat
  | .unsigned n => some (n % 2 ^ w)
  | .float x => if -1 < x ∧ x < 2 ^ w then some ⌊x⌋.toNat else none
  | _ => none

/-- A natural number of at most `w` bits is written. -/
def Fits (w : Nat) (v : Stored) : Prop := ∃ n : Nat, n < 2 ^ w ∧ v.number = some (n : ℚ)

lemma cast_of_number {v : Stored} {w n : Nat} (hlt : n < 2 ^ w) (h : v.number = some (n : ℚ)) :
    v.cast w = some n := by
  cases v with
  | integer m =>
    obtain rfl : m = n := by exact_mod_cast Option.some.inj h
    have hmod : (n : Int) % 2 ^ w = (n : Int) := Int.emod_eq_of_lt (by omega) (by exact_mod_cast hlt)
    rw [cast, hmod, Int.toNat_natCast]
  | unsigned m =>
    obtain rfl : m = n := by exact_mod_cast Option.some.inj h
    rw [cast, Nat.mod_eq_of_lt hlt]
  | float x =>
    obtain rfl : x = n := Option.some.inj h
    have hneg : (-1 : ℚ) < n := lt_of_lt_of_le (by norm_num) (Nat.cast_nonneg n)
    have hlt' : (n : ℚ) < 2 ^ w := by exact_mod_cast hlt
    rw [cast, if_pos ⟨hneg, hlt'⟩, Int.floor_natCast, Int.toNat_natCast]
  | null => cases h
  | boolean b => cases h
  | string s => cases h
  | array => cases h
  | object => cases h

lemma cast_lt {v : Stored} {w n : Nat} (h : v.cast w = some n) : n < 2 ^ w := by
  cases v with
  | integer m =>
    obtain rfl := Option.some.inj h
    have hpos : (0 : Int) < 2 ^ w := by positivity
    have hlt := Int.emod_lt_of_pos m hpos
    have hnonneg := Int.emod_nonneg m hpos.ne'
    have hpow : ((2 ^ w : Nat) : Int) = 2 ^ w := by norm_cast
    omega
  | unsigned m =>
    obtain rfl := Option.some.inj h
    exact Nat.mod_lt m (Nat.two_pow_pos w)
  | float x =>
    obtain ⟨⟨-, hlt⟩, h⟩ := Option.ite_none_right_eq_some.mp h
    obtain rfl := Option.some.inj h
    have hfloor : ⌊x⌋ < ((2 ^ w : Nat) : Int) := Int.floor_lt.mpr (by exact_mod_cast hlt)
    exact (Int.toNat_lt' (Nat.two_pow_pos w)).mpr hfloor
  | null => cases h
  | boolean b => cases h
  | string s => cases h
  | array => cases h
  | object => cases h

end Stored

/-- `get<T>()` for an unsigned type of `w` bits casts without a check of the range. -/
structure Casts {J : Type} (stored : J → Stored) (w : Nat) (get : J → Except String Nat) : Prop where
  of_cast : ∀ v n, (stored v).cast w = some n → get v = .ok n
  lt : ∀ v n, get v = .ok n → n < 2 ^ w

/-- What the library does with the fields of an order. -/
structure PlainCasts {J : Type} (json : JsonLib J) (stored : J → Stored) : Prop where
  getString : ∀ v s, json.getString v = .ok s ↔ stored v = .string s
  getUInt16 : Casts stored 16 json.getUInt16
  getUInt32 : Casts stored 32 json.getUInt32
  getUInt64 : Casts stored 64 json.getUInt64

/-! ### Entering an order -/

/-- An order that is entered. -/
structure Entry where
  companyId : Nat
  side : Bool
  price : Nat
  quantity : Nat
  timestamp : Nat

namespace Entry

/-- Reserve cents for a BUY, and shares for a SELL. -/
def reserve (e : Entry) (db : Database) (userId : Int) : Except String Database :=
  if e.side then db.reserveCash userId (e.price * e.quantity)
  else db.reserveShares userId e.companyId e.quantity

def queue (e : Entry) (s : Server) (userId : Int) : Server :=
  s.enqueueOrderTask e.companyId userId e.side e.price e.quantity e.timestamp

end Entry

namespace Server

variable {s : Server} {now userId : Int} {token sideText : String} {e : Entry}

lemma queue_inj {e' : Entry} {db db' : Database}
    (h : e.queue { s with db := db } userId = e'.queue { s with db := db' } userId) : e = e' := by
  have hqueue := congrArg Server.engineQueue h
  simp only [Entry.queue, enqueueOrderTask, push, List.append_cancel_left_eq, List.cons.injEq,
    EngineTask.order.injEq, Order.mk.injEq, and_true, true_and] at hqueue
  obtain ⟨hcompany, htimestamp, hprice, hquantity, -, hside⟩ := hqueue
  cases e
  cases e'
  simp_all

lemma queue_ne {db : Database} : e.queue { s with db := db } userId ≠ s := by
  intro h
  have hlength := congrArg (fun s => s.engineQueue.length) h
  simp [Entry.queue, enqueueOrderTask, push] at hlength

/-- The entry is made if the funds can be reserved. -/
def enter (s : Server) (userId : Int) (e : Entry) : Except String Server :=
  (e.reserve s.db userId).map fun db => e.queue { s with db := db } userId

lemma enter_eq_ok {s' : Server} : s.enter userId e = .ok s' ↔
    ∃ db, e.reserve s.db userId = .ok db ∧ s' = e.queue { s with db := db } userId := by
  simp only [enter]
  cases e.reserve s.db userId with
  | ok db =>
    constructor
    · intro h
      exact ⟨db, rfl, (Except.ok.inj h).symm⟩
    · rintro ⟨db', hdb, rfl⟩
      obtain rfl := Except.ok.inj hdb
      rfl
  | error message =>
    constructor
    · intro h
      cases h
    · rintro ⟨db, hdb, -⟩
      cases hdb

lemma enter_buy (h : e.side = true) : s.enter userId e = (do
    let db ← s.db.reserveCash userId (e.price * e.quantity)
    return { s with db := db }.enqueueOrderTask e.companyId userId true e.price e.quantity
      e.timestamp) := by
  simp only [enter, Entry.reserve, Entry.queue, h, if_true]
  cases s.db.reserveCash userId (e.price * e.quantity) <;> rfl

lemma enter_sell (h : e.side = false) : s.enter userId e = (do
    let db ← s.db.reserveShares userId e.companyId e.quantity
    return { s with db := db }.enqueueOrderTask e.companyId userId false e.price e.quantity
      e.timestamp) := by
  simp only [enter, Entry.reserve, Entry.queue, h, Bool.false_eq_true, if_false]
  cases s.db.reserveShares userId e.companyId e.quantity <;> rfl

/-- An order of which all fields are there. -/
lemma handleOrder_eq_enter (sideText : String) (syntheticUserId : Option Int)
    (hprice : e.price < 100000)
    (hside : e.side = (sideText == "BUY"))
    (hsession : s.db.validateSession now token = .ok userId) :
    s.handleOrder now ⟨token, some e.companyId, some sideText, some e.price, some e.quantity,
      some e.timestamp, false, syntheticUserId⟩ = s.enter userId e := by
  have hauth : orElse (s.db.validateSession now token) "Authentication required/invalid."
      = .ok userId := by
    rw [hsession]
    rfl
  have hret : ∀ f : Int → Except String Server, (Except.ok userId >>= f) = f userId :=
    fun _ => rfl
  simp only [handleOrder, if_neg (not_le.mpr hprice), hauth, Option.getD_some, ← hside, hret,
    Bool.false_eq_true, if_false]
  cases hs : e.side with
  | true => rw [if_pos rfl, enter_buy hs]
  | false => rw [if_neg Bool.false_ne_true, enter_sell hs]

/-- The best price that the opposite side of the book of a company offers. -/
def referencePrice (s : Server) (companyId : Nat) (side : Bool) : Option Nat := do
  let book ← s.market.findInstrument companyId
  let price ← (if side then book.bestAsk else book.bestBid)
  if price = nullIdx then none else some price

lemma handleMarketOrder_eq_enter (sideText : String)
    (hprice : s.referencePrice e.companyId e.side = some e.price)
    (hside : e.side = (sideText == "BUY"))
    (hsession : s.db.validateSession now token = .ok userId) :
    s.handleMarketOrder now ⟨token, some e.companyId, some sideText, some e.quantity,
      some e.timestamp⟩ = some (s.enter userId e) := by
  have hauth : orElse (s.db.validateSession now token) "Authentication required."
      = .ok userId := by
    rw [hsession]
    rfl
  obtain ⟨book, hbook, hprice⟩ := Option.bind_eq_some_iff.mp hprice
  obtain ⟨price, hbest, hprice⟩ := Option.bind_eq_some_iff.mp hprice
  obtain ⟨hnull, hprice⟩ := Option.ite_none_left_eq_some.mp hprice
  obtain rfl := Option.some.inj hprice
  simp only [handleMarketOrder, hauth, Option.getD_some, ← hside, hbook]
  cases hs : e.side with
  | true =>
    rw [hs, if_pos rfl] at hbest
    rw [if_pos rfl, hbest, enter_buy hs]
    simp only [Option.bind_eq_bind, Option.bind_some, if_neg hnull]
  | false =>
    rw [hs, if_neg Bool.false_ne_true] at hbest
    rw [if_neg Bool.false_ne_true, hbest, enter_sell hs]
    simp only [Option.bind_eq_bind, Option.bind_some, if_neg hnull]

/-- Without a price nothing is entered. -/
lemma handleMarketOrder_ne_ok {companyId quantity timestamp : Nat} {s' : Server}
    (hprice : s.referencePrice companyId (sideText == "BUY") = none) :
    s.handleMarketOrder now ⟨token, some companyId, some sideText, some quantity, some timestamp⟩
      ≠ some (.ok s') := by
  intro h
  simp only [handleMarketOrder, Option.getD_some] at h
  cases hauth : orElse (s.db.validateSession now token) "Authentication required." with
  | error message =>
    rw [hauth] at h
    cases Option.some.inj h
  | ok userId =>
    rw [hauth] at h
    cases hbook : s.market.findInstrument companyId with
    | none =>
      rw [hbook] at h
      cases Option.some.inj h
    | some book =>
      simp only [referencePrice, hbook, Option.bind_eq_bind, Option.bind_some] at h hprice
      split_ifs at h hprice
      all_goals
        obtain ⟨price, hbest, h⟩ := Option.bind_eq_some_iff.mp h
        rw [hbest, Option.bind_some] at hprice
        split_ifs at h hprice
        cases Option.some.inj h

end Server

/-! ### Reading the fields -/

namespace Session

open Server

variable {J α : Type} {json : JsonLib J} {stored : J → Stored} {g : GameManager}
  {env : Surroundings} {c c' : Session} {accounts : Accounts J} {raw token : String} {msg : J}
  {limit : Bool} {e : Entry} {userId : Int}

/-- What the handler of `order` (if `limit`) or of `market_order` reads. -/
structure Reads (json : JsonLib J) (c : Session) (msg : J) (limit : Bool) (e : Entry) : Prop where
  companyId : json.value msg "company_id" json.getUInt16 c.server.market.defaultCompanyId
    = .ok e.companyId
  contains : json.contains msg "side" = true
  side : e.side = json.equals msg "side" "BUY"
  price : limit = true → json.get msg "price" json.getUInt32 = .ok e.price ∧ e.price < 100000
  referencePrice : limit = false →
    c.server.referencePrice e.companyId e.side = some e.price
  quantity : json.get msg "quantity" json.getUInt32 = .ok e.quantity
  timestamp : json.get msg "timestamp" json.getUInt64 = .ok e.timestamp
  stress : limit = true → json.value msg "stress" json.getBool false = .ok false

/-- All that the handler may do to the server is what `P` says. -/
def Enters (P : Server → Prop) (c : Session) (r : Option Handled) : Prop :=
  ∀ c' sent, r = some (c', sent) → c'.server = c.server ∨ P c'.server

lemma enters_self (P : Server → Prop) (h : c'.server = c.server) (sent : List Response) :
    Enters P c (some (c', sent)) := by
  intro c'' sent' hr
  obtain ⟨rfl, -⟩ := Prod.mk.inj (Option.some.inj hr)
  exact Or.inl h

lemma enters_reading {P : Server → Prop} {r : Except String α} {f : α → Option Handled}
    (hc : c'.server = c.server) (h : ∀ a, r = .ok a → Enters P c (f a)) :
    Enters P c (c'.reading r f) := by
  cases r with
  | ok a => exact h a rfl
  | error message => exact enters_self P hc []

lemma enters_answer {P : Server → Prop} {r : Except String Server} (hc : c'.server = c.server)
    (h : ∀ s, r = .ok s → P s) : Enters P c (some (c'.answer [] r)) := by
  intro c'' sent hr
  cases r with
  | ok s =>
    obtain ⟨rfl, -⟩ := Prod.mk.inj (Option.some.inj hr)
    exact Or.inr (h s rfl)
  | error message =>
    obtain ⟨rfl, -⟩ := Prod.mk.inj (Option.some.inj hr)
    exact Or.inl hc

lemma readSide_eq : (readSide json msg == "BUY") = json.equals msg "side" "BUY" := by
  simp only [readSide]
  cases json.equals msg "side" "BUY" <;> rfl

/-- What the handlers do, for a valid token. -/
def Admits (json : JsonLib J) (c : Session) (msg : J) (limit : Bool) (userId : Int) (s : Server) :
    Prop :=
  ∃ e, Reads json c msg limit e ∧ c.server.enter userId e = .ok s

lemma enters_handleOrder (htoken : readToken json msg = .ok token)
    (hsession : c.server.db.validateSession env.now token = .ok userId)
    (hstress : json.value msg "stress" json.getBool false ≠ .ok true) :
    Enters (Admits json c msg true userId) c (c.handleOrder json env msg) := by
  simp only [handleOrder]
  split_ifs with hmissing
  · exact enters_self _ rfl _
  · have hside : json.contains msg "side" = true := by
      simp only [Bool.or_eq_true, Bool.not_eq_true', not_or, Bool.not_eq_false] at hmissing
      exact hmissing.1.2
    refine enters_reading rfl fun companyId hcompany => enters_reading rfl fun price hprice => ?_
    refine enters_reading rfl fun quantity hquantity => enters_reading rfl fun timestamp htime => ?_
    split_ifs with hmax
    · exact enters_self _ rfl _
    · refine enters_reading rfl fun token' htoken' => ?_
      obtain rfl := Except.ok.inj (htoken.symm.trans htoken')
      simp only [hsession]
      refine enters_reading rfl fun stress hflag => ?_
      cases stress with
      | true => exact absurd hflag hstress
      | false =>
        refine enters_reading rfl fun syntheticUserId _ => enters_answer rfl fun s hs => ?_
        have hentry := handleOrder_eq_enter (s := c.server) (e := ⟨companyId,
          json.equals msg "side" "BUY", price, quantity, timestamp⟩) (readSide json msg)
          (some syntheticUserId) (not_le.mp hmax) readSide_eq.symm hsession
        exact ⟨_, ⟨hcompany, hside, rfl, fun _ => ⟨hprice, not_le.mp hmax⟩, nofun, hquantity, htime,
          fun _ => hflag⟩, hentry.symm.trans hs⟩

lemma enters_handleMarketOrder (htoken : readToken json msg = .ok token)
    (hsession : c.server.db.validateSession env.now token = .ok userId) :
    Enters (Admits json c msg false userId) c (c.handleMarketOrder json env msg) := by
  simp only [handleMarketOrder]
  split_ifs with hmissing
  · exact enters_self _ rfl _
  · have hside : json.contains msg "side" = true := by
      simp only [Bool.or_eq_true, Bool.not_eq_true', not_or, Bool.not_eq_false] at hmissing
      exact hmissing.1.2
    refine enters_reading rfl fun token' htoken' => ?_
    obtain rfl := Except.ok.inj (htoken.symm.trans htoken')
    simp only [hsession]
    refine enters_reading rfl fun companyId hcompany => ?_
    refine enters_reading rfl fun quantity hquantity => enters_reading rfl fun timestamp htime => ?_
    cases hprice : c.server.referencePrice companyId (json.equals msg "side" "BUY") with
    | none =>
      intro c' sent hr
      obtain ⟨r, hrun, hr⟩ := Option.map_eq_some_iff.mp hr
      cases r with
      | ok s => exact absurd hrun (handleMarketOrder_ne_ok (readSide_eq ▸ hprice))
      | error message =>
        obtain ⟨rfl, -⟩ := Prod.mk.inj hr
        exact Or.inl rfl
    | some price =>
      have hentry := handleMarketOrder_eq_enter (s := c.server) (e := ⟨companyId,
        json.equals msg "side" "BUY", price, quantity, timestamp⟩) (readSide json msg) hprice
        readSide_eq.symm hsession
      rw [hentry]
      exact enters_answer rfl fun s hs =>
        ⟨_, ⟨hcompany, hside, rfl, nofun, fun _ => hprice, hquantity, htime, nofun⟩, hs⟩

lemma contains_of_get {key : String} {get : J → Except String α} {a : α}
    (h : json.get msg key get = .ok a) : json.contains msg key = true := by
  simp only [JsonLib.get] at h
  simp only [JsonLib.contains]
  cases hfind : json.find msg key with
  | some v => rfl
  | none =>
    rw [hfind] at h
    cases h

lemma reading_ok {r : Except String α} {a : α} (h : r = .ok a) (f : α → Option Handled) :
    c.reading r f = f a := by
  rw [h]
  rfl

lemma handleOrder_of_reads (htoken : readToken json msg = .ok token)
    (hsession : c.server.db.validateSession env.now token = .ok userId)
    (h : Reads json c msg true e) : c.handleOrder json env msg
      = some
        (({ c with currentUserId := userId } : Session).answer [] (c.server.enter userId e)) := by
  obtain ⟨hprice, hmax⟩ := h.price rfl
  have hentry := handleOrder_eq_enter (s := c.server) (readSide json msg) (some (-1)) hmax
    (h.side.trans readSide_eq.symm) hsession
  simp only [handleOrder]
  rw [contains_of_get hprice, contains_of_get h.quantity, contains_of_get h.timestamp, h.contains,
    if_neg (by decide), reading_ok h.companyId, reading_ok hprice, reading_ok h.quantity,
    reading_ok h.timestamp, if_neg (not_le.mpr hmax), reading_ok htoken]
  simp only [hsession]
  rw [reading_ok (h.stress rfl)]
  exact congrArg (fun r => some (Session.answer _ [] r)) hentry

lemma handleMarketOrder_of_reads (htoken : readToken json msg = .ok token)
    (hsession : c.server.db.validateSession env.now token = .ok userId)
    (h : Reads json c msg false e) : c.handleMarketOrder json env msg
      = some
        (({ c with currentUserId := userId } : Session).answer [] (c.server.enter userId e)) := by
  have hentry := handleMarketOrder_eq_enter (s := c.server) (readSide json msg)
    (h.referencePrice rfl) (h.side.trans readSide_eq.symm) hsession
  simp only [handleMarketOrder]
  rw [contains_of_get h.quantity, contains_of_get h.timestamp, h.contains, if_neg (by decide),
    reading_ok htoken]
  simp only [hsession]
  rw [reading_ok h.companyId, reading_ok h.quantity, reading_ok h.timestamp, hentry]
  rfl

/-- The type of the messages that are handled so. -/
def orderType (limit : Bool) : String := if limit then "order" else "market_order"

/-- What the session does with the message. -/
def handleOrderOf (json : JsonLib J) (env : Surroundings) (c : Session) (limit : Bool) (msg : J) :
    Option Handled :=
  if limit then c.handleOrder json env msg else c.handleMarketOrder json env msg

lemma handleMessage_order (hparse : json.parse raw = .ok msg) (hobject : json.isObject msg = true)
    (htype : readType json msg = .ok (orderType limit)) :
    c.handleMessage json g env accounts raw = handleOrderOf json env c limit msg := by
  simp only [handleMessage]
  rw [reading_ok hparse, hobject, if_neg (by decide), reading_ok htype]
  cases limit <;> rfl

lemma enters_handleOrderOf (htoken : readToken json msg = .ok token)
    (hsession : c.server.db.validateSession env.now token = .ok userId)
    (hstress : json.value msg "stress" json.getBool false ≠ .ok true) :
    Enters (Admits json c msg limit userId) c (handleOrderOf json env c limit msg) := by
  cases limit with
  | true => exact enters_handleOrder htoken hsession hstress
  | false => exact enters_handleMarketOrder htoken hsession

lemma handleOrderOf_of_reads (htoken : readToken json msg = .ok token)
    (hsession : c.server.db.validateSession env.now token = .ok userId)
    (h : Reads json c msg limit e) : handleOrderOf json env c limit msg
      = some
        (({ c with currentUserId := userId } : Session).answer [] (c.server.enter userId e)) := by
  cases limit with
  | true => exact handleOrder_of_reads htoken hsession h
  | false => exact handleMarketOrder_of_reads htoken hsession h

/-! ### What is written -/

/-- The field holds this number. -/
def Writes (json : JsonLib J) (stored : J → Stored) (msg : J) (key : String) (n : Nat) : Prop :=
  ∃ v, json.find msg key = some v ∧ (stored v).number = some (n : ℚ)

/-- The entry that the message asks for; without a company it is the default one. -/
structure Written (json : JsonLib J) (stored : J → Stored) (c : Session) (msg : J) (limit : Bool)
    (e : Entry) : Prop where
  companyId : Writes json stored msg "company_id" e.companyId ∨
    json.find msg "company_id" = none ∧ e.companyId = c.server.market.defaultCompanyId
  side : ∃ v, json.find msg "side" = some v ∧
    stored v = .string (if e.side then "BUY" else "SELL")
  price : limit = true → Writes json stored msg "price" e.price
  quantity : Writes json stored msg "quantity" e.quantity
  timestamp : Writes json stored msg "timestamp" e.timestamp

/-- Nothing is reserved and nothing queued, or else both are done for the entry that is written. -/
def AsWritten (json : JsonLib J) (stored : J → Stored) (c : Session) (msg : J) (limit : Bool)
    (userId : Int) (r : Option Handled) : Prop :=
  ∀ c' sent, r = some (c', sent) → c'.server = c.server ∨
    ∃ e db, Written json stored c msg limit e ∧ e.reserve c.server.db userId = .ok db ∧
      c'.server = e.queue { c.server with db := db } userId

/-- The fields of an order are of their types: the side is one of the two, and the numbers are in
range. -/
structure WellTyped (json : JsonLib J) (stored : J → Stored) (msg : J) (limit : Bool) : Prop where
  companyId : ∀ v, json.find msg "company_id" = some v → (stored v).Fits 16
  side : ∀ v, json.find msg "side" = some v → stored v = .string "BUY" ∨ stored v = .string "SELL"
  price : limit = true → ∀ v, json.find msg "price" = some v → (stored v).Fits 32
  quantity : ∀ v, json.find msg "quantity" = some v → (stored v).Fits 32
  timestamp : ∀ v, json.find msg "timestamp" = some v → (stored v).Fits 64

lemma get_eq_ok {key : String} {get : J → Except String α} {a : α}
    (h : json.get msg key get = .ok a) : ∃ v, json.find msg key = some v ∧ get v = .ok a := by
  simp only [JsonLib.get] at h
  cases hfind : json.find msg key with
  | some v =>
    rw [hfind] at h
    exact ⟨v, rfl, h⟩
  | none =>
    rw [hfind] at h
    cases h

section Casts

variable {w n : Nat} {get : J → Except String Nat} {key : String}

/-- A number in range is read as it is written. -/
lemma writes_of_fits (hget : Casts stored w get) (hread : json.get msg key get = .ok n)
    (hfits : ∀ v, json.find msg key = some v → (stored v).Fits w) : Writes json stored msg key n := by
  obtain ⟨v, hfind, hv⟩ := get_eq_ok hread
  obtain ⟨m, hlt, hm⟩ := hfits v hfind
  obtain rfl := Except.ok.inj ((hget.of_cast v m (Stored.cast_of_number hlt hm)).symm.trans hv)
  exact ⟨v, hfind, hm⟩

/-- What is read is in range. -/
lemma fits_of_writes (hget : Casts stored w get) (hread : json.get msg key get = .ok n)
    (hwrites : Writes json stored msg key n) :
    ∀ v, json.find msg key = some v → (stored v).Fits w := by
  intro v hfind
  obtain ⟨v', hfind', hv⟩ := hwrites
  obtain rfl := Option.some.inj (hfind.symm.trans hfind')
  obtain ⟨v', hfind', hread⟩ := get_eq_ok hread
  obtain rfl := Option.some.inj (hfind.symm.trans hfind')
  exact ⟨n, hget.lt v n hread, hv⟩

/-- A field that is there is read by `value` as by `get`. -/
lemma value_eq_get {default : Nat} {v : J} (hfind : json.find msg key = some v) :
    json.value msg key get default = json.get msg key get := by
  simp only [JsonLib.value, JsonLib.get]
  rw [hfind]

lemma equals_iff (hcasts : PlainCasts json stored) {text : String} :
    json.equals msg key text = true ↔ ∃ v, json.find msg key = some v ∧ stored v = .string text := by
  simp only [JsonLib.equals]
  cases hfind : json.find msg key with
  | none => simp
  | some v =>
    simp only [beq_iff_eq, Option.some.injEq, exists_eq_left', ← hcasts.getString]
    cases json.getString v with
    | ok s => simp [Except.toOption]
    | error message => simp [Except.toOption]

end Casts

/-- A well-typed message is read as it is written. -/
lemma Reads.written (hcasts : PlainCasts json stored) (h : Reads json c msg limit e)
    (ht : WellTyped json stored msg limit) : Written json stored c msg limit e where
  companyId := by
    have hread := h.companyId
    cases hfind : json.find msg "company_id" with
    | none =>
      rw [JsonLib.value, hfind] at hread
      exact Or.inr ⟨rfl, (Except.ok.inj hread).symm⟩
    | some v =>
      rw [value_eq_get hfind] at hread
      exact Or.inl (writes_of_fits hcasts.getUInt16 hread ht.companyId)
  side := by
    obtain ⟨v, hfind⟩ := Option.isSome_iff_exists.mp h.contains
    refine ⟨v, hfind, ?_⟩
    have hbuy : e.side = true ↔ stored v = .string "BUY" := by
      rw [h.side, equals_iff hcasts, hfind]
      simp
    cases hside : e.side with
    | true => exact hbuy.mp hside
    | false =>
      refine (ht.side v hfind).resolve_left fun htext => ?_
      rw [hbuy.mpr htext] at hside
      cases hside
  price hlimit := writes_of_fits hcasts.getUInt32 (h.price hlimit).1 (ht.price hlimit)
  quantity := writes_of_fits hcasts.getUInt32 h.quantity ht.quantity
  timestamp := writes_of_fits hcasts.getUInt64 h.timestamp ht.timestamp

/-- Only a well-typed message can be read as it is written. -/
lemma Reads.wellTyped (hcasts : PlainCasts json stored) (h : Reads json c msg limit e)
    (hw : Written json stored c msg limit e) : WellTyped json stored msg limit where
  companyId := by
    rcases hw.companyId with hwrites | ⟨hnone, -⟩
    · obtain ⟨v, hfind, -⟩ := id hwrites
      refine fits_of_writes hcasts.getUInt16 ?_ hwrites
      rw [← value_eq_get hfind]
      exact h.companyId
    · intro v hfind
      rw [hnone] at hfind
      cases hfind
  side := by
    intro v hfind
    obtain ⟨v', hfind', hv⟩ := hw.side
    obtain rfl := Option.some.inj (hfind.symm.trans hfind')
    cases hside : e.side with
    | true =>
      rw [hside, if_pos rfl] at hv
      exact Or.inl hv
    | false =>
      rw [hside, if_neg Bool.false_ne_true] at hv
      exact Or.inr hv
  price hlimit := fits_of_writes hcasts.getUInt32 (h.price hlimit).1 (hw.price hlimit)
  quantity := fits_of_writes hcasts.getUInt32 h.quantity hw.quantity
  timestamp := fits_of_writes hcasts.getUInt64 h.timestamp hw.timestamp

/-- What is reserved and queued as it is written was well-typed. -/
lemma AsWritten.wellTyped (hcasts : PlainCasts json stored) (htoken : readToken json msg = .ok token)
    (hsession : c.server.db.validateSession env.now token = .ok userId)
    (hreads : Reads json c msg limit e) {db : Database}
    (hreserve : e.reserve c.server.db userId = .ok db)
    (h : AsWritten json stored c msg limit userId (handleOrderOf json env c limit msg)) :
    WellTyped json stored msg limit := by
  have henter : c.server.enter userId e = .ok (e.queue { c.server with db := db } userId) :=
    enter_eq_ok.mpr ⟨db, hreserve, rfl⟩
  have hrun := handleOrderOf_of_reads htoken hsession hreads
  rw [henter] at hrun
  rcases h _ _ hrun with hsame | ⟨e', db', hwritten, -, hqueue⟩
  · exact absurd hsame queue_ne
  · obtain rfl := queue_inj hqueue
    exact hreads.wellTyped hcasts hwritten

/-- **When orders are accepted as they are written**: exactly if a message that the handler admits
is well-typed. -/
theorem order_as_written_iff (json : JsonLib J) (stored : J → Stored)
    (hcasts : PlainCasts json stored) (g : GameManager) (env : Surroundings)
    (accounts : Accounts J) (c : Session) (raw token : String) (msg : J) (limit : Bool)
    (userId : Int) (hparse : json.parse raw = .ok msg) (hobject : json.isObject msg = true)
    (htype : readType json msg = .ok (orderType limit)) (htoken : readToken json msg = .ok token)
    (hsession : c.server.db.validateSession env.now token = .ok userId)
    (hstress : json.value msg "stress" json.getBool false ≠ .ok true) :
    AsWritten json stored c msg limit userId (c.handleMessage json g env accounts raw) ↔
      ((∃ e db, Reads json c msg limit e ∧ e.reserve c.server.db userId = .ok db) →
        WellTyped json stored msg limit) := by
  rw [handleMessage_order hparse hobject htype]
  constructor
  · rintro h ⟨e, db, hreads, hreserve⟩
    exact h.wellTyped hcasts htoken hsession hreads hreserve
  · intro h c' sent hrun
    rcases enters_handleOrderOf htoken hsession hstress c' sent hrun with hsame | ⟨e, hreads, henter⟩
    · exact Or.inl hsame
    · obtain ⟨db, hreserve, hserver⟩ := enter_eq_ok.mp henter
      have ht := h ⟨e, db, hreads, hreserve⟩
      exact Or.inr ⟨e, db, hreads.written hcasts ht, hreserve, hserver⟩

end Session

/-! ### Two orders -/

/-- The values of the library. -/
inductive Json
  | null
  | boolean (b : Bool)
  | integer (n : Int)
  | unsigned (n : Nat)
  | float (x : ℚ)
  | string (s : String)
  | array (values : List Json)
  | object (fields : List (String × Json))

namespace Json

def stored : Json → Stored
  | null => .null
  | boolean b => .boolean b
  | integer n => .integer n
  | unsigned n => .unsigned n
  | float x => .float x
  | string s => .string s
  | array _ => .array
  | object _ => .object

/-- `get<T>()` for an unsigned type; a boolean is read by the narrow types only. -/
def getUnsigned (w : Nat) (narrow : Bool) (v : Json) : Except String Nat :=
  match v.stored.cast w, v with
  | some n, _ => .ok n
  | none, float _ => .ok 0
  | none, boolean b => if narrow then .ok b.toNat else .error "type must be number"
  | none, _ => .error "type must be number"

/-- The library, for what one text is parsed as. -/
def lib (raw : String) (msg : Json) : JsonLib Json where
  parse raw' := if raw' = raw then .ok msg else .error "parse error"
  isObject
    | .object _ => true
    | _ => false
  find
    | .object fields, key => fields.lookup key
    | _, _ => none
  getString
    | .string s => .ok s
    | _ => .error "type must be string"
  getBool
    | .boolean b => .ok b
    | _ => .error "type must be boolean"
  getDouble
    | .integer n => .ok n
    | .unsigned n => .ok n
    | .float x => .ok x
    | _ => .error "type must be number"
  getInt64
    | .integer n => .ok n
    | .unsigned n => .ok n
    | .float x => .ok (if 0 ≤ x then ⌊x⌋ else ⌈x⌉)
    | _ => .error "type must be number"
  getUInt16 := getUnsigned 16 true
  getUInt32 := getUnsigned 32 true
  getUInt64 := getUnsigned 64 false

lemma casts_getUnsigned {w : Nat} (hw : 1 ≤ w) (narrow : Bool) :
    Casts stored w (getUnsigned w narrow) where
  of_cast v n h := by
    simp only [getUnsigned]
    rw [h]
  lt v n h := by
    have hone : 1 < 2 ^ w := Nat.one_lt_two_pow (Nat.ne_of_gt hw)
    simp only [getUnsigned] at h
    cases hcast : v.stored.cast w with
    | some m =>
      rw [hcast] at h
      obtain rfl := Except.ok.inj h
      exact Stored.cast_lt hcast
    | none =>
      rw [hcast] at h
      cases v with
      | float x =>
        obtain rfl := Except.ok.inj h
        exact Nat.two_pow_pos w
      | boolean b =>
        cases narrow with
        | true =>
          obtain rfl := Except.ok.inj h
          exact (Bool.toNat_le b).trans_lt hone
        | false => cases h
      | null => cases h
      | integer n => cases hcast
      | unsigned n => cases hcast
      | string s => cases h
      | array values => cases h
      | object fields => cases h

lemma plainCasts_lib (raw : String) (msg : Json) : PlainCasts (lib raw msg) stored where
  getString v s := by
    cases v with
    | string s' => simp [lib, stored]
    | _ => simp [lib, stored]
  getUInt16 := casts_getUnsigned (by decide) true
  getUInt32 := casts_getUnsigned (by decide) true
  getUInt64 := casts_getUnsigned (by decide) false

end Json

namespace Session

open Server

/-- A bid of user 7, of 100 cents for each share. -/
def sampleBid (quantity : Nat) : Json :=
  .object [("type", .string "order"), ("token", .string "a"), ("side", .string "BUY"),
    ("price", .unsigned 100), ("quantity", .unsigned quantity), ("timestamp", .unsigned 0)]

def sampleBidText (quantity : Nat) : String :=
  "\x7b\"type\":\"order\",\"token\":\"a\",\"side\":\"BUY\",\"price\":100,\"quantity\":" ++
    toString quantity ++ ",\"timestamp\":0\x7d"

def sampleBidLib (quantity : Nat) : JsonLib Json :=
  Json.lib (sampleBidText quantity) (sampleBid quantity)

def sampleSession : Session := ⟨.start sampleMarket sampleDb, .empty, -1⟩

/-- What the session makes of the bid. -/
def sampleBidHandled (quantity : Nat) : Option Handled :=
  sampleSession.handleMessage (sampleBidLib quantity) ⟨[], {}⟩ ⟨0, 0, none, 0⟩
    ⟨fun c _ => some (c, []), fun c _ => some (c, [])⟩ (sampleBidText quantity)

lemma parse_sampleBid (quantity : Nat) :
    (sampleBidLib quantity).parse (sampleBidText quantity) = .ok (sampleBid quantity) := if_pos rfl

lemma reads_sampleBid (quantity : Nat) : Reads (sampleBidLib quantity) sampleSession
    (sampleBid quantity) true ⟨1, true, 100, quantity % 2 ^ 32, 0⟩ where
  companyId := rfl
  contains := rfl
  side := rfl
  price _ := ⟨rfl, (by decide : 100 < 100000)⟩
  referencePrice := nofun
  quantity := rfl
  timestamp := rfl
  stress _ := rfl

lemma wellTyped_sampleBid {quantity : Nat} : WellTyped (sampleBidLib quantity) Json.stored
    (sampleBid quantity) true ↔ quantity < 2 ^ 32 := by
  constructor
  · intro h
    obtain ⟨n, hlt, hn⟩ := h.quantity (.unsigned quantity) rfl
    obtain rfl : quantity = n := by exact_mod_cast Option.some.inj hn
    exact hlt
  · intro h
    have hfits : ∀ {key : String} {n w : Nat}, n < 2 ^ w →
        (sampleBidLib quantity).find (sampleBid quantity) key = some (.unsigned n) → ∀ v,
        (sampleBidLib quantity).find (sampleBid quantity) key = some v → v.stored.Fits w := by
      intro key n w hlt hkey v hfind
      obtain rfl := Option.some.inj (hkey.symm.trans hfind)
      exact ⟨n, hlt, rfl⟩
    refine ⟨nofun, ?_, fun _ => hfits (by decide : 100 < 2 ^ 32) rfl, hfits h rfl,
      hfits (by decide : 0 < 2 ^ 64) rfl⟩
    intro v hfind
    obtain rfl := Option.some.inj hfind
    exact Or.inl rfl

/-- A bid for two shares is entered as it is written. -/
theorem order_as_written_iff_sampleBid :
    (∃ e db, Reads (sampleBidLib 2) sampleSession (sampleBid 2) true e ∧
      e.reserve sampleSession.server.db 7 = .ok db) ∧
    AsWritten (sampleBidLib 2) Json.stored sampleSession (sampleBid 2) true 7
      (sampleBidHandled 2) := by
  refine ⟨⟨_, _, reads_sampleBid 2, rfl⟩, ?_⟩
  refine (order_as_written_iff (sampleBidLib 2) Json.stored (Json.plainCasts_lib _ _) ⟨[], {}⟩
    ⟨0, 0, none, 0⟩ _ sampleSession _ "a" (sampleBid 2) true 7 (parse_sampleBid 2) rfl rfl rfl rfl
    nofun).mpr fun _ => ?_
  exact wellTyped_sampleBid.mpr (by decide)

/-- One for `2 ^ 32 + 2` shares, too. -/
theorem quantity_narrowed :
    (sampleBidHandled (2 ^ 32 + 2)).map (fun r => (r.1.server.db.cash 7, r.1.server.engineQueue))
      = some (800, [.order 1 ⟨0, 7, 0, 100, 2, 1, true⟩]) ∧
    ¬ AsWritten (sampleBidLib (2 ^ 32 + 2)) Json.stored sampleSession (sampleBid (2 ^ 32 + 2)) true 7
      (sampleBidHandled (2 ^ 32 + 2)) := by
  constructor
  · have hmessage : sampleBidHandled (2 ^ 32 + 2)
        = handleOrderOf (sampleBidLib (2 ^ 32 + 2)) ⟨0, 0, none, 0⟩ sampleSession true
          (sampleBid (2 ^ 32 + 2)) := handleMessage_order (parse_sampleBid _) rfl rfl
    have hsession : sampleSession.server.db.validateSession 0 "a" = .ok 7 := rfl
    rw [hmessage, handleOrderOf_of_reads rfl hsession (reads_sampleBid _)]
    rfl
  · intro h
    have htype : readType (sampleBidLib (2 ^ 32 + 2)) (sampleBid (2 ^ 32 + 2))
        = .ok (orderType true) := rfl
    rw [sampleBidHandled, handleMessage_order (parse_sampleBid _) rfl htype] at h
    have htyped := h.wellTyped (Json.plainCasts_lib _ _) rfl rfl (reads_sampleBid _) rfl
    exact absurd (wellTyped_sampleBid.mp htyped) (by decide)

end Session

end ExchangeEngine
