import ExchangeEngine.Client.OpenOrders
import ExchangeEngine.Client.Wire

/-!
# Fill notifications

For a trade frame the client looks through the orders of its user for one of the two ids, and raises
a toast for the first that it finds. It looks at the orders of all companies, while every company
numbers its orders by itself.
-/

namespace ExchangeEngine

/-! ### The first match -/

section FirstMatch

variable {α : Type*} {p q : α → Prop} [DecidablePred p] [DecidablePred q] {l : List α}

/-- The first element with one of two properties has the first of them exactly if no element that
has only the second comes before. -/
lemma find?_or_iff (h : ∃ x ∈ l, p x ∨ q x) :
    (∃ x, l.find? (fun x => p x ∨ q x) = some x ∧ p x) ↔
      ∀ before x after, l = before ++ x :: after → q x → ¬ p x → ∃ y ∈ before, p y := by
  constructor
  · rintro ⟨x, hfind, hx⟩ before y after hl hq hp
    obtain ⟨-, first, rest, hsplit, hfirst⟩ := List.find?_eq_some_iff_append.mp hfind
    rw [hl] at hsplit
    rcases List.append_eq_append_iff.mp hsplit with ⟨mid, hmid, htail⟩ | ⟨mid, hmid, htail⟩
    · cases mid with
      | nil =>
        obtain ⟨rfl, -⟩ := List.cons.inj htail
        exact absurd hx hp
      | cons z mid =>
        obtain ⟨rfl, -⟩ := List.cons.inj htail
        have hnone := hfirst y (by simp [hmid])
        simp [hq] at hnone
    · cases mid with
      | nil =>
        obtain ⟨rfl, -⟩ := List.cons.inj htail
        exact absurd hx hp
      | cons z mid =>
        obtain ⟨rfl, -⟩ := List.cons.inj htail
        exact ⟨x, by simp [hmid], hx⟩
  · intro hbefore
    obtain ⟨x, hx, hpq⟩ := h
    have hsome : (l.find? fun x => p x ∨ q x).isSome = true :=
      List.find?_isSome.mpr ⟨x, hx, decide_eq_true hpq⟩
    obtain ⟨y, hfind⟩ := Option.isSome_iff_exists.mp hsome
    obtain ⟨hy, first, rest, hl, hfirst⟩ := List.find?_eq_some_iff_append.mp hfind
    refine ⟨y, hfind, ?_⟩
    by_contra hp
    obtain ⟨z, hz, hpz⟩ := hbefore first y rest hl ((of_decide_eq_true hy).resolve_left hp) hp
    have hnone := hfirst z hz
    simp [hpz] at hnone

end FirstMatch

/-! ### Toasts -/

/-- What `showToast` is told of a fill; the text starts with the side. -/
structure FillToast where
  side : Bool
  quantity : Nat
  price : Nat
deriving DecidableEq, Repr

namespace Client

/-- The orders of all companies, in the order of the keys, which are of type `uint16_t`. -/
def allOrders (client : Client) : List MyOrder :=
  (List.range (2 ^ 16)).flatMap fun companyId =>
    match client.myOrdersByCompany companyId with
    | some my => my.buys ++ my.sells
    | none => []

/-- The row has one of the two ids of a trade. -/
def Matches (trade : TradeMsg) (o : MyOrder) : Prop :=
  o.id = trade.buyOrderId ∨ o.id = trade.sellOrderId

instance (trade : TradeMsg) : DecidablePred (Matches trade) := fun o =>
  inferInstanceAs (Decidable (o.id = trade.buyOrderId ∨ o.id = trade.sellOrderId))

/-- The toast that is raised for a trade frame, if any. -/
def fillToast (client : Client) (trade : TradeMsg) : Option FillToast :=
  (client.allOrders.find? fun o => Matches trade o).map fun matched =>
    ⟨matched.id = trade.buyOrderId, trade.quantity, trade.price⟩

section Toast

variable {client : Client} {trade : TradeMsg}

lemma fillToast_eq_none_iff : client.fillToast trade = none ↔
    ∀ o ∈ client.allOrders, o.id ≠ trade.buyOrderId ∧ o.id ≠ trade.sellOrderId := by
  rw [fillToast, Option.map_eq_none_iff, List.find?_eq_none]
  refine forall₂_congr fun o _ => ?_
  rw [decide_eq_true_eq, Matches, not_or]

lemma fillToast_side_eq_some_iff (side : Bool) :
    (client.fillToast trade).map FillToast.side = some side ↔
      ∃ o, client.allOrders.find? (fun o => Matches trade o) = some o ∧
        decide (o.id = trade.buyOrderId) = side := by
  rw [fillToast, Option.map_map, Option.map_eq_some_iff]
  rfl

/-- The toast says BUY if the first match has the id of the buy order. -/
lemma fillToast_buy_iff (h : ∃ o ∈ client.allOrders, Matches trade o) :
    (client.fillToast trade).map FillToast.side = some true ↔
      ∀ before o after, client.allOrders = before ++ o :: after → o.id = trade.sellOrderId →
        o.id ≠ trade.buyOrderId → ∃ o' ∈ before, o'.id = trade.buyOrderId := by
  rw [fillToast_side_eq_some_iff, ← find?_or_iff h]
  simp only [decide_eq_true_eq]
  rfl

/-- It says SELL if the first match has the id of the sell order only. -/
lemma fillToast_sell_iff (h : ∃ o ∈ client.allOrders, Matches trade o) :
    (client.fillToast trade).map FillToast.side = some false ↔
      ∀ before o after, client.allOrders = before ++ o :: after → o.id = trade.buyOrderId →
        ∃ o' ∈ before, o'.id = trade.sellOrderId ∧ o'.id ≠ trade.buyOrderId := by
  have hsplit : ∀ o : MyOrder, Matches trade o ↔
      (o.id = trade.sellOrderId ∧ o.id ≠ trade.buyOrderId) ∨ o.id = trade.buyOrderId := by
    intro o
    rw [Matches]
    by_cases hbuy : o.id = trade.buyOrderId
    · simp [hbuy]
    · simp [hbuy]
  have hmatch : ∃ o ∈ client.allOrders,
      (o.id = trade.sellOrderId ∧ o.id ≠ trade.buyOrderId) ∨ o.id = trade.buyOrderId := by
    obtain ⟨o, ho, hmatches⟩ := h
    exact ⟨o, ho, (hsplit o).mp hmatches⟩
  have hfirst := find?_or_iff hmatch
  simp only [← hsplit] at hfirst
  rw [fillToast_side_eq_some_iff]
  constructor
  · rintro ⟨o, hfind, hsell⟩ before x after hl hx
    have hne : o.id ≠ trade.buyOrderId := of_decide_eq_false hsell
    have hmatches : Matches trade o := of_decide_eq_true (List.find?_some hfind :)
    exact hfirst.mp ⟨o, hfind, hmatches.resolve_left hne, hne⟩ before x after hl hx
      fun hother => hother.2 hx
  · intro hbefore
    obtain ⟨o, hfind, -, hne⟩ := hfirst.mpr fun before x after hl hx _ =>
      hbefore before x after hl hx
    exact ⟨o, hfind, decide_eq_false hne⟩

end Toast

end Client

/-! ### The traded order -/

/-- The id of the traded order of a side. -/
def Trade.orderId (t : Trade) (side : Bool) : Nat := if side then t.buyOrderId else t.sellOrderId

/-- The rows of each company are those of the orders of the user that its book lists. -/
def Accurate (client : Client) (m : MarketState) (u : Int) : Prop :=
  ∀ c my, client.myOrdersByCompany c = some my →
    my = Client.ordersIn u (listing c (m.restingOf c))

/-- The traded order of that side is one of the listed orders of the user. -/
def Traded (client : Client) (m : MarketState) (u : Int) (t : Trade) (side : Bool) : Prop :=
  client.myOrdersByCompany t.companyId ≠ none ∧
    ∃ o ∈ (m.restingOf t.companyId side).take 100, o.userId = u ∧ o.id = t.orderId side

/-- A toast is raised exactly for a listed order that was traded, and names its side. -/
def Attributed (client : Client) (m : MarketState) (u : Int) (t : Trade) (trade : TradeMsg) : Prop :=
  ∀ side, (client.fillToast trade).map FillToast.side = some side ↔ Traded client m u t side

/-- No listed order is taken for one that was traded. -/
structure Unmistakable (client : Client) (m : MarketState) (u : Int) (t : Trade)
    (trade : TradeMsg) : Prop where
  /-- Without a listed order in the trade, no row of any company has one of its ids. -/
  none : (∀ side, ¬ Traded client m u t side) →
    ∀ o ∈ client.allOrders, o.id ≠ trade.buyOrderId ∧ o.id ≠ trade.sellOrderId
  /-- Rows with the id of the sell order come after one with that of the listed buy order. -/
  buy : Traded client m u t true → ∀ before o after, client.allOrders = before ++ o :: after →
    o.id = trade.sellOrderId → o.id ≠ trade.buyOrderId →
      ∃ o' ∈ before, o'.id = trade.buyOrderId
  /-- Rows with the id of the buy order come after one with that of the listed sell order. -/
  sell : Traded client m u t false → ∀ before o after, client.allOrders = before ++ o :: after →
    o.id = trade.buyOrderId →
      ∃ o' ∈ before, o'.id = trade.sellOrderId ∧ o'.id ≠ trade.buyOrderId

section Attributed

variable {client : Client} {m : MarketState} {u : Int} {t : Trade} {trade : TradeMsg}

/-- When one side of a trade is listed, the toast has to name it. -/
lemma attributed_iff_toast {side : Bool} (htraded : Traded client m u t side)
    (hother : ¬ Traded client m u t (!side)) :
    Attributed client m u t trade ↔
      (client.fillToast trade).map FillToast.side = some side := by
  constructor
  · intro h
    exact (h side).mpr htraded
  · intro htoast side'
    rw [htoast]
    by_cases hside : side' = side
    · rw [hside]
      exact iff_of_true rfl htraded
    · apply iff_of_false (fun heq => hside (Option.some.inj heq).symm)
      rwa [Bool.eq_not_of_ne hside]

/-- When none is, there has to be no toast. -/
lemma attributed_iff_no_toast (hnone : ∀ side, ¬ Traded client m u t side) :
    Attributed client m u t trade ↔ client.fillToast trade = none := by
  constructor
  · intro h
    cases htoast : client.fillToast trade with
    | none => rfl
    | some toast =>
      have hside := (h toast.side).mp (by rw [htoast]; rfl)
      exact absurd hside (hnone _)
  · intro htoast side
    rw [htoast]
    exact iff_of_false nofun (hnone side)

/-- Only one side of a trade is listed, and it has a row with the id of the frame. -/
lemma attributed_iff_of_row (hone : ¬ (Traded client m u t true ∧ Traded client m u t false))
    (hrow : ∀ side, Traded client m u t side → ∃ o ∈ client.allOrders, Client.Matches trade o) :
    Attributed client m u t trade ↔ Unmistakable client m u t trade := by
  by_cases hbuy : Traded client m u t true
  · have hsell : ¬ Traded client m u t false := fun hsell => hone ⟨hbuy, hsell⟩
    rw [attributed_iff_toast hbuy hsell, Client.fillToast_buy_iff (hrow true hbuy)]
    constructor
    · intro h
      exact ⟨fun hnone => absurd hbuy (hnone true), fun _ => h,
        fun hother => absurd hother hsell⟩
    · intro h
      exact h.buy hbuy
  by_cases hsell : Traded client m u t false
  · rw [attributed_iff_toast hsell hbuy, Client.fillToast_sell_iff (hrow false hsell)]
    constructor
    · intro h
      exact ⟨fun hnone => absurd hsell (hnone false), fun hother => absurd hother hbuy, fun _ => h⟩
    · intro h
      exact h.sell hsell
  · have hnone : ∀ side, ¬ Traded client m u t side := by
      intro side
      cases side with
      | true => exact hbuy
      | false => exact hsell
    rw [attributed_iff_no_toast hnone, Client.fillToast_eq_none_iff]
    constructor
    · intro h
      exact ⟨fun _ => h, fun hother => absurd hother hbuy, fun hother => absurd hother hsell⟩
    · intro h
      exact h.none hnone

end Attributed

/-! ### Trades of the server -/

/-- A row of the client for each order of its user that is listed. -/
lemma mem_mine {u : Int} {c : Nat} {side : Bool} {B : Book} {o : Order}
    (ho : o ∈ (B side).take 100) (hu : o.userId = u) :
    o.snapshot.toMyOrder side c ∈ Client.mine u c side (B.orders side 100) := by
  rw [Client.mine, Book.orders, ← List.map_take]
  refine List.mem_map_of_mem (List.mem_filter.mpr ⟨?_, decide_eq_true hu⟩)
  exact List.mem_map_of_mem (List.mem_map_of_mem ho)

namespace AnyBook

variable {b : AnyBook} {o r : Order} {s : Bool}

/-- The ids of a book that has not run out of them. -/
lemma Inv.id_lt_two_pow (h : b.Inv) (hcounter : b.orderIdCounter + 1 < 2 ^ 32)
    (hr : r ∈ b.resting s) : r.id < 2 ^ 64 := by
  cases b with
  | current b =>
    have hlt := OrderBook.Inv.id_lt h hr
    have hcounter' : b.orderIdCounter + 1 < 2 ^ 32 := hcounter
    omega
  | legacy b =>
    have hle := OrderBookLegacy.Inv.ids h s r hr
    have hcounter' : b.orderIdCounter + 1 < 2 ^ 32 := hcounter
    omega

end AnyBook

/-- A fill is between the incoming order and a resting one. -/
lemma orderId_of_mem_fills {B : Book} {o : Order} {t : Trade} (h : t ∈ B.fills o) :
    t.companyId = o.companyId ∧ t.orderId o.side = o.id ∧
      ∃ r ∈ B (!o.side), t.orderId (!o.side) = r.id := by
  obtain ⟨⟨r, q⟩, hr, rfl⟩ := List.mem_map.mp h
  have hrest : r ∈ B (!o.side) :=
    (Book.mem_crossing.mp (Consume.mem_avail (Consume.mem_of_mem_takes hr)).1).1
  simp only [tradeOf, Trade.orderId]
  cases hside : o.side with
  | true =>
    rw [hside] at hrest
    exact ⟨rfl, rfl, r, hrest, rfl⟩
  | false =>
    rw [hside] at hrest
    exact ⟨rfl, rfl, r, hrest, rfl⟩

/-- The next task of the engine thread makes a trade of which a frame is sent. -/
def Server.Makes (fuel : Nat) (s : Server) (t : Trade) : Prop :=
  ∃ c o queue b r, s.engineQueue = .order c o :: queue ∧ s.market.findInstrument c = some b ∧
    b.canProcessOrder o = true ∧ b.processOrder fuel o = some r ∧ t ∈ r.notified

/-- What is known of a trade of a listed company before it is made: the order of one side rests, the
id of the other is new. -/
structure Server.Makes.Facts (m : MarketState) (t : Trade) (side : Bool) : Prop where
  listed : t.companyId ∈ m.companies
  range : t.orderId side < 2 ^ 64
  new : ∀ r ∈ m.restingOf t.companyId (!side), r.id ≠ t.orderId (!side)

lemma Server.Makes.facts {fuel : Nat} {s : Server} {t : Trade} (hok : s.Ok)
    (hsafe : s.SafeEvent (.engine fuel)) (h : s.Makes fuel t) :
    ∃ side, Facts s.market t side := by
  obtain ⟨c, o, queue, b, r, hqueue, hfind, hcan, hprocess, ht⟩ := h
  have htask : EngineTask.order c o ∈ s.engineQueue := by
    rw [hqueue]
    exact List.mem_cons_self
  have hcounter : b.orderIdCounter + 1 < 2 ^ 32 := hsafe (.order c o) (by rw [hqueue]; rfl) b hfind
  have hinv := hok.market.inv c b hfind
  obtain ⟨id, hs⟩ := AnyBook.processOrder_sound hinv hcan hcounter hprocess
  have hfill : t ∈ b.resting.fills { o with id := id } := by
    rw [(AnyBook.processOrder_notified hprocess).2] at ht
    rw [← hs.fills]
    split_ifs at ht
    · exact ht
    · exact absurd ht List.not_mem_nil
  obtain ⟨hcompany, hincoming, x, hx, hresting⟩ := orderId_of_mem_fills hfill
  have hcompany : t.companyId = c := hcompany.trans (hok.addressed _ htask)
  refine ⟨!o.side, ?_, ?_, ?_⟩
  · rw [hcompany, ← hok.market.listed, hfind]
    rfl
  · rw [hresting]
    exact hinv.id_lt_two_pow hcounter hx
  · rw [hcompany, restingOf_of_find hfind, Bool.not_not, hincoming]
    exact fun y hy => (hs.new _ y hy).ne

section Served

variable {client : Client} {m : MarketState} {u : Int} {t : Trade} {trade : TradeMsg} {side : Bool}

/-- Only the resting order is listed. -/
lemma Server.Makes.Facts.side_eq {side' : Bool} (h : Facts m t side)
    (htraded : Traded client m u t side') : side' = side := by
  obtain ⟨-, o, ho, -, hid⟩ := htraded
  by_contra hne
  obtain rfl : side' = !side := Bool.eq_not.mpr hne
  exact h.new o (List.mem_of_mem_take ho) hid

/-- The row of the traded order has the id of the frame. -/
lemma Server.Makes.Facts.matches (h : Facts m t side) (hids : ∀ c ∈ m.companies, c < 2 ^ 16)
    (haccurate : Accurate client m u) (hframe : readTrade (binPayload t) = some trade)
    (htraded : Traded client m u t side) :
    ∃ o ∈ client.allOrders, Client.Matches trade o := by
  obtain ⟨hshown, o, ho, hu, hid⟩ := htraded
  obtain ⟨my, hmy⟩ := Option.ne_none_iff_exists'.mp hshown
  have hrows := haccurate _ _ hmy
  have hrow := mem_mine (c := t.companyId) ho hu
  refine ⟨o.snapshot.toMyOrder side t.companyId, ?_, ?_⟩
  · refine List.mem_flatMap.mpr ⟨t.companyId, List.mem_range.mpr (hids _ h.listed), ?_⟩
    rw [hmy]
    cases side with
    | true =>
      apply List.mem_append_left _
      rw [hrows]
      exact hrow
    | false =>
      apply List.mem_append_right _
      rw [hrows]
      exact hrow
  · have hrange := h.range
    rw [← hid] at hrange
    rw [readTrade_binPayload] at hframe
    obtain rfl := Option.some.inj hframe
    cases side with
    | true =>
      apply Or.inl
      change toNumber o.id = toNumber (t.orderId true % 2 ^ 64)
      rw [← hid, Nat.mod_eq_of_lt hrange]
    | false =>
      apply Or.inr
      change toNumber o.id = toNumber (t.orderId false % 2 ^ 64)
      rw [← hid, Nat.mod_eq_of_lt hrange]

end Served

/-- **When a fill is attributed to the right order**: for the frame of any trade that a server
makes, and any client whose rows are accurate, the right toast is raised if and only if no listed
order of any company is taken for one that was traded. -/
theorem fill_attributed_iff {companies : List Nat} {m : MarketState} {db : Database} {s : Server}
    {fills : List Trade} {pushed : List DbTask} {fuel : Nat} {t : Trade} {trade : TradeMsg}
    (hm : MarketState.new companies = .ok m)
    (h : Server.Run Server.SafeEvent (Server.start m db) s fills pushed)
    (hids : ∀ c ∈ s.market.companies, c < 2 ^ 16) (hsafe : s.SafeEvent (.engine fuel))
    (hmakes : s.Makes fuel t) (hframe : readTrade (binPayload t) = some trade) (client : Client)
    (u : Int) (haccurate : Accurate client s.market u) :
    Attributed client s.market u t trade ↔ Unmistakable client s.market u t trade := by
  have hok := h.ok (fun _ _ h => h) (Server.ok_start (Server.ok_new hm) db)
  obtain ⟨side, hfacts⟩ := hmakes.facts hok hsafe
  refine attributed_iff_of_row ?_ ?_
  · rintro ⟨hbuy, hsell⟩
    cases (hfacts.side_eq hbuy).trans (hfacts.side_eq hsell).symm
  · intro side' htraded
    obtain rfl := hfacts.side_eq htraded
    exact hfacts.matches hids haccurate hframe htraded

/-! ### Two companies number alike -/

/-- The client of a user to whom every book was sent. -/
def Client.upToDate (m : MarketState) (u : Int) : Client :=
  { initial with
    user := some u
    myOrdersByCompany := fun c => do
      let b ← m.findInstrument c
      let msg ← bookMsg c b
      some (ordersIn u msg) }

lemma accurate_upToDate {m : MarketState} (hm : m.Ok) (u : Int) :
    Accurate (.upToDate m u) m u := by
  intro c my hmy
  obtain ⟨b, hfind, hmy⟩ := Option.bind_eq_some_iff.mp hmy
  obtain ⟨msg, hmsg, hmy⟩ := Option.bind_eq_some_iff.mp hmy
  rw [bookMsg_eq (hm.inv c b hfind)] at hmsg
  obtain rfl := Option.some.inj hmsg
  rw [restingOf_of_find hfind]
  exact (Option.some.inj hmy).symm

/-- User 7 bids for company 1, and user 8 for company 2. -/
def twoBids : List Server.Event :=
  [.message 0 (.order ⟨"a", some 1, some "BUY", some 5, some 4, some 0, false, none⟩),
    .message 0 (.order ⟨"b", some 2, some "BUY", some 5, some 4, some 0, false, none⟩),
    .engine 100001, .engine 100001]

/-- The stress test sells a share of a company. -/
def stressSale (c : Nat) : Server.Event :=
  .message 0 (.order ⟨"b", some c, some "SELL", some 5, some 1, some 0, true, none⟩)

/-- The rows of a side. -/
def BookMsg.orders (msg : BookMsg) (side : Bool) : List OrderSnapshot :=
  if side then msg.buyOrders else msg.sellOrders

lemma traded_upToDate_iff {m : MarketState} (hm : m.Ok) {u : Int} {t : Trade} {b : AnyBook}
    {msg : BookMsg} (hfind : m.findInstrument t.companyId = some b)
    (hmsg : bookMsg t.companyId b = some msg) (side : Bool) :
    Traded (.upToDate m u) m u t side ↔
      ∃ row ∈ msg.orders side, row.userId = u ∧ row.id = t.orderId side := by
  have hshown : (Client.upToDate m u).myOrdersByCompany t.companyId ≠ none := by
    simp [Client.upToDate, hfind, hmsg]
  rw [bookMsg_eq (hm.inv _ b hfind)] at hmsg
  obtain rfl := Option.some.inj hmsg
  have hrows : (listing t.companyId b.resting).orders side
      = ((b.resting side).take 100).map Order.snapshot := by
    rw [List.map_take]
    cases side with
    | true => rfl
    | false => rfl
  rw [Traded, hrows, restingOf_of_find hfind]
  constructor
  · rintro ⟨-, o, ho, hu, hid⟩
    exact ⟨o.snapshot, List.mem_map_of_mem ho, hu, hid⟩
  · rintro ⟨row, hrow, hu, hid⟩
    obtain ⟨o, ho, rfl⟩ := List.mem_map.mp hrow
    exact ⟨hshown, o, ho, hu, hid⟩

/-- The order that the engine thread pops next, with its company. -/
def nextOrder : List EngineTask → Option (Nat × Order)
  | .order d o :: _ => some (d, o)
  | _ => none

lemma nextOrder_eq_some {queue : List EngineTask} {d : Nat} {o : Order}
    (h : nextOrder queue = some (d, o)) : ∃ rest, queue = .order d o :: rest := by
  unfold nextOrder at h
  split at h
  · next d' o' rest =>
    cases h
    exact ⟨rest, rfl⟩
  · cases h

/-- The sale is served by the bid of the company, and user 7 reads of a fill. -/
lemma stressSale_run {c : Nat} (hc : c = 1 ∨ c = 2) : ∃ s fills pushed t trade b msg,
    Server.Run Server.SafeEvent (Server.start Feed.twoCompanies Server.sampleDb) s fills pushed ∧
      s.market.Ok ∧ s.market.companies = [1, 2] ∧ s.SafeEvent (.engine 100001) ∧
      s.Makes 100001 t ∧ readTrade (binPayload t) = some trade ∧
      s.market.findInstrument t.companyId = some b ∧ bookMsg t.companyId b = some msg ∧
      t = ⟨2 ^ 32, 2 ^ 33 + 1, if c = 1 then 7 else 8, -1, 5, 1, 5, c⟩ ∧
      msg.orders true = [⟨2 ^ 32, if c = 1 then 7 else 8, 0, 5, 4⟩] ∧ msg.orders false = [] ∧
      (Client.upToDate s.market 7).fillToast trade = some ⟨true, 1, 5⟩ := by
  have hout : ((Server.start Feed.twoCompanies Server.sampleDb).runEvents Server.SafeEvent
      (twoBids ++ [stressSale c])).bind (fun x => do
        let p ← nextOrder x.1.engineQueue
        let b ← x.1.market.findInstrument p.1
        let r ← b.processOrder 100001 p.2
        let t ← r.notified.head?
        let trade ← readTrade (binPayload t)
        let msg ← bookMsg p.1 b
        some (decide ((x.1.market.companies = [1, 2] ∧ x.1.SafeEvent (.engine 100001) ∧
          b.canProcessOrder p.2 = true ∧ p.1 = c) ∧
          t = ⟨2 ^ 32, 2 ^ 33 + 1, if c = 1 then 7 else 8, -1, 5, 1, 5, c⟩ ∧
          msg.orders true = [⟨2 ^ 32, if c = 1 then 7 else 8, 0, 5, 4⟩] ∧
          msg.orders false = [] ∧
          (Client.upToDate x.1.market 7).fillToast trade = some ⟨true, 1, 5⟩)))
      = some true := by
    rcases hc with rfl | rfl
    · decide +kernel
    · decide +kernel
  obtain ⟨⟨s, fills, pushed⟩, hrun, hout⟩ := Option.bind_eq_some_iff.mp hout
  simp only [Option.bind_eq_bind] at hout
  obtain ⟨⟨d, o⟩, hnext, hout⟩ := Option.bind_eq_some_iff.mp hout
  obtain ⟨b, hfind, hout⟩ := Option.bind_eq_some_iff.mp hout
  obtain ⟨r, hprocess, hout⟩ := Option.bind_eq_some_iff.mp hout
  obtain ⟨t, ht, hout⟩ := Option.bind_eq_some_iff.mp hout
  obtain ⟨trade, hframe, hout⟩ := Option.bind_eq_some_iff.mp hout
  obtain ⟨msg, hmsg, hout⟩ := Option.bind_eq_some_iff.mp hout
  obtain ⟨⟨hcompanies, hsafe, hcan, rfl⟩, rfl, hbuys, hsells, htoast⟩ :=
    of_decide_eq_true (Option.some.inj hout)
  obtain ⟨queue, hqueue⟩ := nextOrder_eq_some hnext
  have hrun := Server.run_of_runEvents hrun
  have hok := hrun.ok (fun _ _ h => h) (Server.ok_start (Server.ok_new Feed.twoCompanies_new) _)
  exact ⟨s, fills, pushed, _, trade, b, msg, hrun, hok.market, hcompanies, hsafe,
    ⟨d, o, queue, b, r, hqueue, hfind, hcan, hprocess, List.mem_of_head? ht⟩, hframe, hfind, hmsg,
    rfl, hbuys, hsells, htoast⟩

/-- User 7 reads of the fill of the own bid. -/
theorem fill_attributed_iff_stressSale : ∃ s fills pushed t trade,
    Server.Run Server.SafeEvent (Server.start Feed.twoCompanies Server.sampleDb) s fills pushed ∧
      s.Makes 100001 t ∧ readTrade (binPayload t) = some trade ∧
      (Client.upToDate s.market 7).fillToast trade = some ⟨true, 1, 5⟩ ∧
      Traded (.upToDate s.market 7) s.market 7 t true ∧
      Unmistakable (.upToDate s.market 7) s.market 7 t trade := by
  obtain ⟨s, fills, pushed, t, trade, b, msg, hrun, hm, hcompanies, hsafe, hmakes, hframe, hfind,
    hmsg, ht, hbuys, hsells, htoast⟩ := stressSale_run (.inl rfl)
  have htraded := traded_upToDate_iff hm (u := 7) hfind hmsg
  have hbuy : Traded (.upToDate s.market 7) s.market 7 t true := by
    rw [htraded, hbuys, ht]
    exact ⟨_, List.mem_singleton_self _, rfl, rfl⟩
  have hsell : ¬ Traded (.upToDate s.market 7) s.market 7 t false := by
    rw [htraded, hsells]
    rintro ⟨row, hrow, -⟩
    cases hrow
  have hids : ∀ c ∈ s.market.companies, c < 2 ^ 16 := by
    rw [hcompanies]
    decide
  refine ⟨s, fills, pushed, t, trade, hrun, hmakes, hframe, htoast, hbuy, ?_⟩
  refine (fill_attributed_iff Feed.twoCompanies_new hrun hids hsafe hmakes hframe
    (.upToDate s.market 7) 7 (accurate_upToDate hm 7)).mp fun side => ?_
  rw [htoast]
  cases side with
  | true => exact ⟨fun _ => hbuy, fun _ => rfl⟩
  | false => exact ⟨nofun, fun hother => absurd hother hsell⟩

/-- User 7 reads of the fill of the bid of user 8 for the other company: it has the same id. -/
theorem fill_of_other_company : ∃ s fills pushed t trade,
    Server.Run Server.SafeEvent (Server.start Feed.twoCompanies Server.sampleDb) s fills pushed ∧
      s.Makes 100001 t ∧ t.buyerUserId = 8 ∧ t.sellerUserId = -1 ∧
      readTrade (binPayload t) = some trade ∧ Accurate (.upToDate s.market 7) s.market 7 ∧
      (Client.upToDate s.market 7).fillToast trade = some ⟨true, 1, 5⟩ ∧
      (∀ side, ¬ Traded (.upToDate s.market 7) s.market 7 t side) ∧
      ¬ Attributed (.upToDate s.market 7) s.market 7 t trade := by
  obtain ⟨s, fills, pushed, t, trade, b, msg, hrun, hm, hcompanies, hsafe, hmakes, hframe, hfind,
    hmsg, ht, hbuys, hsells, htoast⟩ := stressSale_run (.inr rfl)
  have hnone : ∀ side, ¬ Traded (.upToDate s.market 7) s.market 7 t side := by
    intro side
    rw [traded_upToDate_iff hm hfind hmsg]
    rintro ⟨row, hrow, huser, -⟩
    cases side with
    | true =>
      rw [hbuys] at hrow
      rw [List.mem_singleton.mp hrow] at huser
      cases huser
    | false =>
      rw [hsells] at hrow
      cases hrow
  refine ⟨s, fills, pushed, t, trade, hrun, hmakes, by rw [ht]; rfl, by rw [ht], hframe,
    accurate_upToDate hm 7, htoast, hnone, fun hattributed => ?_⟩
  exact hnone true ((hattributed true).mp (by rw [htoast]; rfl))

end ExchangeEngine
