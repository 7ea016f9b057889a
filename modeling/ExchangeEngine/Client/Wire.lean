import ExchangeEngine.Client.Basic
import ExchangeEngine.Library.Bytes
import ExchangeEngine.Library.Rounding
import ExchangeEngine.OrderBook.Accounting
import ExchangeEngine.OrderBook.Properties
import ExchangeEngine.Server.Basic

/-!
# Order ids on the wire

A trade is sent as a frame of 27 bytes, an order as a row of a JSON text. The client keeps the ids
as numbers with 53 significant bits, and sends them back as the digits that `JSON.stringify` writes.
-/

namespace ExchangeEngine

/-! ### Trade frames -/

/-- `BinaryTradeMsg` -/
structure BinaryTradeMsg where
  msgType : Nat
  companyId : Nat
  price : Nat
  quantity : Nat
  buyOrderId : Nat
  sellOrderId : Nat

/-- The bytes of the packed struct, on a little-endian host. -/
def BinaryTradeMsg.bytes (btm : BinaryTradeMsg) : List Nat :=
  Bytes.layout [(1, btm.msgType), (2, btm.companyId), (4, btm.price), (4, btm.quantity),
    (8, btm.buyOrderId), (8, btm.sellOrderId)]

/-- The payload that `on_trade` broadcasts. -/
def binPayload (t : Trade) : List Nat :=
  BinaryTradeMsg.bytes
    { msgType := 1
      companyId := t.companyId
      price := t.price
      quantity := t.quantity
      buyOrderId := t.buyOrderId
      sellOrderId := t.sellOrderId }

lemma length_binPayload (t : Trade) : (binPayload t).length = 27 := Bytes.length_layout _

/-- What `onmessage` reads of a binary frame. -/
def readTrade (view : List Nat) : Option TradeMsg := do
  let msgType ← Bytes.read 1 0 view
  if msgType = 1 then
    let companyId ← Bytes.read 2 1 view
    let price ← Bytes.read 4 3 view
    let quantity ← Bytes.read 4 7 view
    let buyOrderId ← Bytes.read 8 11 view
    let sellOrderId ← Bytes.read 8 19 view
    some ⟨companyId, price, quantity, toNumber buyOrderId, toNumber sellOrderId⟩
  else none

/-- The offsets of the two sides agree. -/
lemma readTrade_binPayload (t : Trade) : readTrade (binPayload t)
    = some ⟨t.companyId % 2 ^ 16, t.price % 2 ^ 32, t.quantity % 2 ^ 32,
      toNumber (t.buyOrderId % 2 ^ 64), toNumber (t.sellOrderId % 2 ^ 64)⟩ := by
  have htype : Bytes.read 1 0 (binPayload t) = some 1 := Bytes.read_layout [] _ rfl
  have hcompany : Bytes.read 2 1 (binPayload t) = some (t.companyId % 2 ^ 16) :=
    Bytes.read_layout [(1, 1)] _ rfl
  have hprice : Bytes.read 4 3 (binPayload t) = some (t.price % 2 ^ 32) :=
    Bytes.read_layout [(1, 1), (2, _)] _ rfl
  have hquantity : Bytes.read 4 7 (binPayload t) = some (t.quantity % 2 ^ 32) :=
    Bytes.read_layout [(1, 1), (2, _), (4, _)] _ rfl
  have hbuy : Bytes.read 8 11 (binPayload t) = some (t.buyOrderId % 2 ^ 64) :=
    Bytes.read_layout [(1, 1), (2, _), (4, _), (4, _)] _ rfl
  have hsell : Bytes.read 8 19 (binPayload t) = some (t.sellOrderId % 2 ^ 64) :=
    Bytes.read_layout [(1, 1), (2, _), (4, _), (4, _), (8, _)] _ rfl
  rw [readTrade, htype]
  simp only [Option.bind_eq_bind, Option.bind_some, hcompany, hprice, hquantity, hbuy, hsell,
    if_true]

/-! ### Numbers -/

lemma toNumber_eq_toBits : toNumber = Rounding.toBits 53 := rfl

lemma toNumber_mono : Monotone toNumber := by
  rw [toNumber_eq_toBits]
  exact Rounding.toBits_mono 53

lemma toNumber_toNumber (n : Nat) : toNumber (toNumber n) = toNumber n := by
  rw [toNumber_eq_toBits]
  exact Rounding.toBits_toBits 53 n

/-- The number has at most 53 significant bits. -/
def Representable (n : Nat) : Prop := 2 ^ (n.log2 - 52) ∣ n

lemma toNumber_eq_self_iff {n : Nat} : toNumber n = n ↔ Representable n := by
  rw [toNumber_eq_toBits]
  exact Rounding.toBits_eq_self_iff

lemma toNumber_of_lt {n : Nat} (h : n < 2 ^ 53) : toNumber n = n := by
  rw [toNumber_eq_toBits]
  exact Rounding.toBits_of_lt h

/-- A number below `2 ^ 53` stands for itself only. -/
lemma eq_of_toNumber_eq {m n : Nat} (h : n < 2 ^ 53) (hm : toNumber m = n) : m = n := by
  rcases Nat.lt_or_ge m (2 ^ 53) with hlt | hge
  · rw [← hm, toNumber_of_lt hlt]
  · have hle : toNumber (2 ^ 53) ≤ toNumber m := toNumber_mono hge
    rw [hm, toNumber_eq_self_iff.mpr (by rw [Representable]; decide)] at hle
    exact absurd h hle.not_gt

/-- The digits that `JSON.stringify` writes for a number below `10 ^ 21`: the shortest numeral that
stands for it. -/
def stringify (x : Nat) : Nat := Rounding.numeral toNumber 10 20 x

/-- Of all numerals for the nearest number, this one is written. -/
def OwnNumeral (n : Nat) : Prop := ∃ j, Rounding.IsNumeral toNumber 10 20 j (toNumber n) n

lemma stringify_toNumber_eq_self_iff {n : Nat} : stringify (toNumber n) = n ↔ OwnNumeral n :=
  Rounding.numeral_eq_iff toNumber_mono (toNumber_toNumber n) (by decide)

lemma representable_of_lt {n : Nat} (h : n < 2 ^ 53) : Representable n :=
  toNumber_eq_self_iff.mp (toNumber_of_lt h)

/-- A number below `2 ^ 53` is written out. -/
lemma ownNumeral_of_lt {n : Nat} (h : n < 2 ^ 53) : OwnNumeral n := by
  rw [← stringify_toNumber_eq_self_iff, toNumber_of_lt h]
  exact Rounding.numeral_eq_self toNumber_mono (toNumber_of_lt h) (by decide)
    fun m hm => eq_of_toNumber_eq h hm

/-! ### The ids of a book -/

namespace OrderBook

variable {b : OrderBook} {o r : Order} {s : Bool} {t : Trade}

/-- The ids of a book count its submissions. -/
lemma Inv.id_lt (h : Inv b) (hr : r ∈ b.resting s) : r.id < (b.orderIdCounter + 1) * 2 ^ 32 := by
  obtain ⟨⟨ix, hl, -⟩, -⟩ := h
  obtain ⟨p, i, hi, rfl⟩ := hl.mem_resting.mp hr
  obtain ⟨k, -, hle, hid⟩ := hl.id s p i hi
  have hlt := (hl.slot s p i hi).2
  simp only [maxOrders] at hlt
  omega

lemma Inv.id_ne_zero (h : Inv b) (hr : r ∈ b.resting s) : r.id ≠ 0 := by
  obtain ⟨⟨ix, hl, -⟩, -⟩ := h
  obtain ⟨p, i, hi, rfl⟩ := hl.mem_resting.mp hr
  exact hl.id_ne_zero hi

/-- A trade whose fields are in the range of their types. -/
structure Fits (t : Trade) : Prop where
  companyId : t.companyId < 2 ^ 16
  price : t.price < 2 ^ 32
  quantity : t.quantity < 2 ^ 32
  buyOrderId : t.buyOrderId < 2 ^ 64
  sellOrderId : t.sellOrderId < 2 ^ 64

lemma fits_of_mem_fills (h : Inv b) (hcounter : b.orderIdCounter < 2 ^ 32 - 1)
    (hid : o.id < 2 ^ 64) (hquantity : o.quantity < 2 ^ 32) (hcompany : o.companyId < 2 ^ 16)
    (ht : t ∈ b.resting.fills o) : Fits t := by
  obtain ⟨⟨r, q⟩, hr, rfl⟩ := List.mem_map.mp ht
  have hle : q ≤ o.quantity := Consume.le_of_mem_takes hr
  have hrest : r ∈ b.resting (!o.side) :=
    (Book.mem_crossing.mp (Consume.mem_avail (Consume.mem_of_mem_takes hr)).1).1
  have hprice : r.price < 2 ^ 32 := (h.valid.order _ r hrest).2.1.trans (by decide)
  have hrid : r.id < 2 ^ 64 := (h.id_lt hrest).trans_le (by omega)
  simp only [tradeOf]
  split_ifs
  · exact ⟨hcompany, hprice, hle.trans_lt hquantity, hid, hrid⟩
  · exact ⟨hcompany, hprice, hle.trans_lt hquantity, hrid, hid⟩

end OrderBook

/-! ### Cancellations -/

/-- The row of "My Open Orders" for a row of a book. -/
def OrderSnapshot.toMyOrder (o : OrderSnapshot) (side : Bool) (companyId : Nat) : MyOrder :=
  { o.parsed with side := side, companyId := companyId }

/-- What `cancelOrder` sends for a row. -/
def Client.cancelOrder (client : Client) (token : String) (row : MyOrder) : Server.CancelMsg where
  token := token
  companyId := if row.companyId = 0 then client.selectedCompanyId else some row.companyId
  orderId := some (stringify row.id)

lemma Client.orderId_cancelOrder {client : Client} {token : String} {o : OrderSnapshot}
    {side : Bool} {companyId : Nat} :
    (client.cancelOrder token (o.toMyOrder side companyId)).orderId = some o.id ↔
      OwnNumeral o.id := by
  rw [← stringify_toNumber_eq_self_iff, Client.cancelOrder, Option.some.injEq]
  rfl

namespace OrderBook

variable {b : OrderBook} {side : Bool}

lemma Inv.exists_of_mem_orders (h : Inv b) {limit : Nat} {rows : List OrderSnapshot}
    (hrows : orders side b limit = some rows) {row : OrderSnapshot} (hrow : row ∈ rows) :
    ∃ r ∈ b.resting side, r.snapshot = row := by
  rw [orders_spec h] at hrows
  obtain rfl := Option.some.inj hrows
  exact List.mem_map.mp (List.mem_of_mem_take hrow)

/-- A resting order is cancelled by its id and its owner. -/
lemma Inv.cancelOrder_resting (h : Inv b) {r : Order} (hr : r ∈ b.resting side) :
    ∃ b', cancelOrder b r.id r.userId = some (b', some r) := by
  obtain ⟨b', hrun, -⟩ := cancelOrder_spec h (not_staleMatch_of_ne_zero (h.id_ne_zero hr))
  have hfind : b.resting.find r.id r.userId = some r :=
    (Book.find_eq_some_iff h.valid).mpr ⟨⟨side, hr⟩, rfl, rfl⟩
  rw [hfind] at hrun
  exact ⟨b', hrun⟩

/-- The ids of the first `2 ^ 21 - 1` submissions have at most 53 bits. -/
lemma Inv.id_lt_two_pow (h : Inv b) (hfew : b.orderIdCounter < 2 ^ 21) {r : Order}
    (hr : r ∈ b.resting side) : r.id < 2 ^ 53 := by
  have hlt := h.id_lt hr
  omega

/-- The frame of a trade that a book notifies is read back exactly if its ids have at most 53
significant bits. -/
lemma Inv.readTrade_notified_iff (h : Inv b) {o : Order} {fuel : Nat} {r : Processed}
    (hcan : canProcessOrder b o = true) (hcounter : b.orderIdCounter + 1 < 2 ^ 32)
    (hquantity : o.quantity < 2 ^ 32) (hcompany : o.companyId < 2 ^ 16)
    (hrun : processOrder o.side fuel b o = some r) {t : Trade} (ht : t ∈ r.notified) :
    readTrade (binPayload t)
        = some ⟨t.companyId, t.price, t.quantity, t.buyOrderId, t.sellOrderId⟩ ↔
      Representable t.buyOrderId ∧ Representable t.sellOrderId := by
  obtain ⟨i, hi, -, hsub⟩ := processOrder_sound h hcan hcounter hrun
  have hmem : t ∈ r.fills := by
    rw [hsub.notified] at ht
    split_ifs at ht
    · exact ht
    · exact absurd ht List.not_mem_nil
  rw [hsub.fills] at hmem
  have hid : (b.orderIdCounter + 1) * 2 ^ 32 + i < 2 ^ 64 := by
    simp only [maxOrders] at hi
    omega
  have hfits := fits_of_mem_fills (o := { o with id := (b.orderIdCounter + 1) * 2 ^ 32 + i })
    h (by omega) hid hquantity hcompany hmem
  rw [readTrade_binPayload, Nat.mod_eq_of_lt hfits.companyId, Nat.mod_eq_of_lt hfits.price,
    Nat.mod_eq_of_lt hfits.quantity, Nat.mod_eq_of_lt hfits.buyOrderId,
    Nat.mod_eq_of_lt hfits.sellOrderId]
  simp only [Option.some.injEq, TradeMsg.mk.injEq, true_and, toNumber_eq_self_iff]

/-- No other row is taken for one that is sent back exactly. -/
lemma Inv.row_unique (h : Inv b) {side side' : Bool} {limit limit' : Nat}
    {rows rows' : List OrderSnapshot} (hrows : orders side b limit = some rows)
    (hrows' : orders side' b limit' = some rows') {row row' : OrderSnapshot} (hrow : row ∈ rows)
    (hrow' : row' ∈ rows') (hown : OwnNumeral row.id) (hown' : OwnNumeral row'.id)
    (hsame : row'.parsed.id = row.parsed.id) : row' = row := by
  obtain ⟨r, hr, rfl⟩ := h.exists_of_mem_orders hrows hrow
  obtain ⟨r', hr', rfl⟩ := h.exists_of_mem_orders hrows' hrow'
  have hid : r'.id = r.id := by
    have h := congrArg stringify hsame
    rwa [OrderSnapshot.parsed, OrderSnapshot.parsed,
      stringify_toNumber_eq_self_iff.mpr hown, stringify_toNumber_eq_self_iff.mpr hown'] at h
  rw [h.eq_of_id_eq hr' hr hid]

/-- **When ids survive the wire.** The frame of a trade, of 27 bytes, is read back exactly if both ids
have at most 53 significant bits. The id of a listed order is sent back exactly if it is the numeral
that is written for the nearest number; then no other order is taken for it, and it is cancelled. Ids of
53 bits are both, and so are those of the first `2 ^ 21 - 1` submissions. -/
theorem ids_survive_iff (h : Reachable b) :
    (∀ (o : Order) (fuel : Nat) (r : Processed), canProcessOrder b o = true →
      b.orderIdCounter + 1 < 2 ^ 32 → o.quantity < 2 ^ 32 → o.companyId < 2 ^ 16 →
      processOrder o.side fuel b o = some r → ∀ t ∈ r.notified, (binPayload t).length = 27 ∧
        (readTrade (binPayload t)
            = some ⟨t.companyId, t.price, t.quantity, t.buyOrderId, t.sellOrderId⟩ ↔
          Representable t.buyOrderId ∧ Representable t.sellOrderId)) ∧
    (∀ side limit rows, orders side b limit = some rows → ∀ row ∈ rows,
      (∀ (client : Client) token companyId,
        (client.cancelOrder token (row.toMyOrder side companyId)).orderId = some row.id ↔
          OwnNumeral row.id) ∧
      (∃ b' o, cancelOrder b row.id row.userId = some (b', some o) ∧ o.snapshot = row) ∧
      (OwnNumeral row.id → ∀ side' limit' rows', orders side' b limit' = some rows' →
        ∀ row' ∈ rows', OwnNumeral row'.id → row'.parsed.id = row.parsed.id → row' = row)) ∧
    (∀ id < 2 ^ 53, Representable id ∧ OwnNumeral id) ∧
    (b.orderIdCounter < 2 ^ 21 → ∀ side, ∀ r ∈ b.resting side, r.id < 2 ^ 53) := by
  refine ⟨?_, ?_, fun id hid => ⟨representable_of_lt hid, ownNumeral_of_lt hid⟩,
    fun hfew side r hr => h.inv.id_lt_two_pow hfew hr⟩
  · intro o fuel r hcan hcounter hquantity hcompany hrun t ht
    exact ⟨length_binPayload t,
      h.inv.readTrade_notified_iff hcan hcounter hquantity hcompany hrun ht⟩
  · intro side limit rows hrows row hrow
    refine ⟨fun client token companyId => Client.orderId_cancelOrder, ?_, ?_⟩
    · obtain ⟨r, hr, rfl⟩ := h.inv.exists_of_mem_orders hrows hrow
      obtain ⟨b', hcancel⟩ := h.inv.cancelOrder_resting hr
      exact ⟨b', r, hcancel, rfl⟩
    · intro hown side' limit' rows' hrows' row' hrow' hown' hsame
      exact h.inv.row_unique hrows hrows' hrow hrow' hown hown' hsame

theorem ids_survive_iff_sampleOrder :
    ∃ r row, processOrder true 100001 new sampleOrder = some r ∧ orders true r.book 3 = some [row] ∧
      ∀ (client : Client) token companyId,
        (client.cancelOrder token (row.toMyOrder true companyId)).orderId = some row.id := by
  obtain ⟨r, hrun, hreach⟩ := sampleOrder_run
  have hrows : (processOrder true 100001 new sampleOrder).map (fun r =>
      (r.book.orderIdCounter, orders true r.book 3))
      = some (1, some [⟨2 ^ 32, 7, 0, 100, 5⟩]) := by decide +kernel
  rw [hrun, Option.map_some, Option.some.injEq, Prod.mk.injEq] at hrows
  refine ⟨r, _, hrun, hrows.2, fun client token companyId => ?_⟩
  obtain ⟨-, hlisted, hsmall, -⟩ := ids_survive_iff hreach
  obtain ⟨hsent, -⟩ := hlisted true 3 _ hrows.2 _ (List.mem_singleton_self _)
  exact (hsent client token companyId).mpr (hsmall _ (by decide)).2

/-- The new book after `k` submissions of orders for nothing. -/
def counted (k : Nat) : OrderBook := { new with orderIdCounter := k, tradeListener := true }

lemma reachable_counted {k : Nat} (hk : k < 2 ^ 32) : Reachable (counted k) := by
  induction k with
  | zero => exact Relation.ReflTransGen.single (.listen new true)
  | succ k ih =>
    have hlt : k + 1 < 2 ^ 64 := hk.trans (by decide)
    have hmap : (processOrder true 1 (counted k) ⟨0, 7, 0, 0, 0, 1, true⟩).map Processed.book
        = some (counted ((k + 1) % 2 ^ 64)) := rfl
    rw [Nat.mod_eq_of_lt hlt] at hmap
    obtain ⟨r, hrun, hbook⟩ := Option.map_eq_some_iff.mp hmap
    rw [← hbook]
    exact (ih (Nat.lt_of_succ_lt hk)).tail (.submit (o := ⟨0, 7, 0, 0, 0, 1, true⟩) rfl hk hrun)

/-- A bid above that of `sampleOrder`. -/
def sampleHigherBid : Order := ⟨0, 7, 0, 101, 5, 1, true⟩

/-- The second of two bids in a book that has counted `2 ^ 21 - 1` submissions has an id with 54
significant bits. -/
theorem id_lost_on_the_wire : ∃ b row r t, Reachable b ∧
    orders true b 1 = some [row] ∧ row.id = 9007203549708289 ∧
    (∀ (client : Client) token companyId,
      (client.cancelOrder token (row.toMyOrder true companyId)).orderId = some 9007203549708288) ∧
    processOrder false 100001 b ⟨0, 8, 0, 90, 1, 1, false⟩ = some r ∧ r.notified = [t] ∧
    t.buyOrderId = 9007203549708289 ∧
    (readTrade (binPayload t)).map TradeMsg.buyOrderId = some 9007203549708288 := by
  have hrun : (do
      let r₁ ← processOrder true 100001 (counted (2 ^ 21 - 1)) sampleOrder
      let r₂ ← processOrder true 100001 r₁.book sampleHigherBid
      let rows ← orders true r₂.book 1
      let r ← processOrder false 100001 r₂.book ⟨0, 8, 0, 90, 1, 1, false⟩
      some (r₁.book.orderIdCounter, canProcessOrder r₁.book sampleHigherBid, rows,
        r.notified))
      = some (2 ^ 21, true, [⟨9007203549708289, 7, 0, 101, 5⟩],
        [⟨9007203549708289, 9007207844675586, 7, 8, 101, 1, 101, 1⟩]) := by
    decide +kernel
  simp only [Option.bind_eq_bind] at hrun
  obtain ⟨r₁, hr₁, hrun⟩ := Option.bind_eq_some_iff.mp hrun
  obtain ⟨r₂, hr₂, hrun⟩ := Option.bind_eq_some_iff.mp hrun
  obtain ⟨rows, hrows, hrun⟩ := Option.bind_eq_some_iff.mp hrun
  obtain ⟨r, hr, hrun⟩ := Option.bind_eq_some_iff.mp hrun
  simp only [Option.some.injEq, Prod.mk.injEq] at hrun
  obtain ⟨hcounter, hcan, rfl, htrades⟩ := hrun
  have hreach : Reachable r₂.book := by
    have hcan₁ : canProcessOrder (counted (2 ^ 21 - 1)) sampleOrder = true := by decide +kernel
    have hlt₁ : (counted (2 ^ 21 - 1)).orderIdCounter + 1 < 2 ^ 32 := by decide
    have hlt₂ : r₁.book.orderIdCounter + 1 < 2 ^ 32 := by
      rw [hcounter]
      decide
    exact ((reachable_counted (by decide)).tail (Step.submit (o := sampleOrder) hcan₁ hlt₁ hr₁)).tail
      (Step.submit (o := sampleHigherBid) hcan hlt₂ hr₂)
  refine ⟨r₂.book, _, r, _, hreach, hrows, rfl, fun client token companyId => ?_, hr, htrades, rfl,
    ?_⟩
  · have hsent : stringify (toNumber 9007203549708289) = 9007203549708288 := by decide +kernel
    exact congrArg some hsent
  · decide +kernel

end OrderBook

end ExchangeEngine
