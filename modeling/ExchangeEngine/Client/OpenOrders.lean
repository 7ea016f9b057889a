import ExchangeEngine.Client.Feed
import ExchangeEngine.Server.Wealth

/-!
# The open orders that the client shows

A client keeps the orders of its user for each company. It learns of a change from the book that the
server sends afterwards, which it applies only while the company is selected, and which lists a
hundred orders of each side.
-/

namespace ExchangeEngine

/-! ### Listings -/

/-- What a book in good order is sent as. -/
def listing (c : Nat) (B : Book) : BookMsg := ⟨c, B.orders true 100, B.orders false 100⟩

lemma bookMsg_eq {b : AnyBook} (h : b.Inv) (c : Nat) : bookMsg c b = some (listing c b.resting) := by
  have horders : ∀ side, b.orders side 100 = some (b.resting.orders side 100) := by
    intro side
    cases b with
    | current b => exact OrderBook.orders_spec h side 100
    | legacy b => exact congrArg some (OrderBookLegacy.orders_spec b side 100)
  rw [bookMsg, AnyBook.bidOrders, AnyBook.askOrders, horders, horders]
  rfl

/-- What a message says about the resting orders of a company. -/
def ServerMsg.about (c : Nat) : ServerMsg → Option BookMsg
  | .book msg => if msg.companyId = c then some msg else none
  | .snapshot msg _ => if msg.companyId = c then some msg else none
  | _ => none

/-- What messages say about the resting orders of a company, the latest last. -/
def newsOf (c : Nat) (msgs : List (ServerMsg × Nat)) : List BookMsg :=
  msgs.filterMap fun x => x.1.about c

section News

variable {c : Nat} {msgs msgs' : List (ServerMsg × Nat)}

lemma newsOf_append : newsOf c (msgs ++ msgs') = newsOf c msgs ++ newsOf c msgs' :=
  List.filterMap_append

/-- The stamps do not matter. -/
lemma newsOf_map (f : ServerMsg × Nat → Nat) :
    newsOf c (msgs.map fun x => (x.1, f x)) = newsOf c msgs := by
  rw [newsOf, List.filterMap_map]
  rfl

lemma newsOf_trades (ts : List (Trade × Nat)) :
    newsOf c (ts.map fun x => (.trade (tradeMsg x.1), x.2)) = [] := by
  rw [newsOf, List.filterMap_map]
  exact List.filterMap_eq_nil_iff.mpr fun x _ => rfl

lemma newsOf_book (msg : BookMsg) (k : Nat) :
    newsOf c [(.book msg, k)] = if msg.companyId = c then [msg] else [] := by
  simp only [newsOf, List.filterMap_cons, List.filterMap_nil, ServerMsg.about]
  split_ifs
  · rfl
  · rfl

lemma newsOf_snapshot (msg : BookMsg) (priceHistory : List Nat) (k : Nat) :
    newsOf c [(.snapshot msg priceHistory, k)] = if msg.companyId = c then [msg] else [] := by
  simp only [newsOf, List.filterMap_cons, List.filterMap_nil, ServerMsg.about]
  split_ifs
  · rfl
  · rfl

end News

/-! ### What the engine thread tells -/

/-- What is sent for a task tells the last state of the book of `c`, or nothing if it is as before.
-/
def Tells (c : Nat) (m m' : MarketState) (msgs : List (ServerMsg × Nat)) : Prop :=
  newsOf c msgs = [] ∧ m'.restingOf c = m.restingOf c ∨
    (newsOf c msgs).getLast? = some (listing c (m'.restingOf c))

section Tells

variable {c d fuel : Nat} {m : MarketState} {b b' : AnyBook} {msgs : List (ServerMsg × Nat)}

lemma tells_nothing : Tells c m m [] := Or.inl ⟨rfl, rfl⟩

/-- A changed book is sent last. -/
lemma tells_book (hinv : b'.Inv) {msg : BookMsg} (hmsg : bookMsg d b' = some msg)
    (hmsgs : newsOf c msgs = []) (k : Nat) :
    Tells c m (m.setBook d b') (msgs ++ [(.book msg, k)]) := by
  rw [bookMsg_eq hinv] at hmsg
  obtain rfl := Option.some.inj hmsg
  rw [Tells, newsOf_append, hmsgs, newsOf_book, restingOf_setBook]
  by_cases hc : d = c
  · subst hc
    exact Or.inr (by simp [listing])
  · refine Or.inl ⟨by simp [listing, hc], ?_⟩
    rw [if_neg (Ne.symm hc)]

/-- After a switch the new books are sent, each for its company. -/
lemma news_bookMsgs (hm : m.Ok) {companies : List Nat} {books : List BookMsg}
    (h : bookMsgs m companies = some books) :
    (∀ msg ∈ books, msg.companyId = c → msg = listing c (m.restingOf c)) ∧
      (c ∈ companies → (m.findInstrument c).isSome = true →
        ∃ msg ∈ books, msg.companyId = c) := by
  induction companies generalizing books with
  | nil =>
    obtain rfl := Option.some.inj h
    exact ⟨nofun, nofun⟩
  | cons d companies ih =>
    rw [bookMsgs] at h
    cases hfind : m.findInstrument d with
    | none =>
      rw [hfind] at h
      obtain ⟨hall, hsome⟩ := ih h
      refine ⟨hall, fun hmem hlisted => ?_⟩
      rcases List.mem_cons.mp hmem with rfl | hmem
      · rw [hfind] at hlisted
        cases hlisted
      · exact hsome hmem hlisted
    | some b =>
      simp only [hfind, bookMsg_eq (hm.inv d b hfind), Option.bind_eq_bind, Option.bind_some] at h
      obtain ⟨rest, hrest, h⟩ := Option.bind_eq_some_iff.mp h
      obtain rfl := Option.some.inj h
      obtain ⟨hall, hsome⟩ := ih hrest
      refine ⟨fun msg hmsg hc => ?_, fun hmem hlisted => ?_⟩
      · rcases List.mem_cons.mp hmsg with rfl | hmsg
        · obtain rfl : d = c := hc
          rw [restingOf_of_find hfind]
        · exact hall msg hmsg hc
      · rcases List.mem_cons.mp hmem with rfl | hmem
        · exact ⟨_, List.mem_cons_self, rfl⟩
        · obtain ⟨msg, hmsg, hc⟩ := hsome hmem hlisted
          exact ⟨msg, List.mem_cons_of_mem _ hmsg, hc⟩

lemma mem_newsOf_books {books : List BookMsg} {msg : BookMsg} :
    msg ∈ newsOf c (books.map fun msg => (.book msg, 0)) ↔ msg ∈ books ∧ msg.companyId = c := by
  rw [newsOf, List.filterMap_map, List.mem_filterMap]
  simp only [Function.comp_apply, ServerMsg.about]
  constructor
  · rintro ⟨msg', hmsg', hsome⟩
    split_ifs at hsome with hc
    obtain rfl := Option.some.inj hsome
    exact ⟨hmsg', hc⟩
  · rintro ⟨hmsg, hc⟩
    exact ⟨msg, hmsg, if_pos hc⟩

lemma tells_switch (hm : m.Ok) (mode : EngineMode) {books : List BookMsg}
    (h : bookMsgs (m.setEngineMode mode) m.companies = some books) :
    Tells c m (m.setEngineMode mode) (books.map fun msg => (.book msg, 0)) := by
  obtain ⟨hall, hsome⟩ := news_bookMsgs (c := c) (hm.setEngineMode mode) h
  cases hnews : newsOf c (books.map fun msg => (ServerMsg.book msg, 0)) with
  | nil =>
    refine Or.inl ⟨hnews, ?_⟩
    have hunlisted : ¬ (m.findInstrument c).isSome = true := by
      intro hlisted
      have hlisted' : ((m.setEngineMode mode).findInstrument c).isSome = true := by
        rwa [(hm.setEngineMode mode).listed, m.companies_setEngineMode, ← hm.listed]
      obtain ⟨msg, hmsg, hc⟩ := hsome ((hm.listed c).mp hlisted) hlisted'
      have hmem := mem_newsOf_books.mpr ⟨hmsg, hc⟩
      rw [hnews] at hmem
      cases hmem
    have hnone := Option.not_isSome_iff_eq_none.mp hunlisted
    have hunlisted' : (m.setEngineMode mode).findInstrument c = none := by
      rw [← Option.not_isSome_iff_eq_none, (hm.setEngineMode mode).listed,
        m.companies_setEngineMode, ← hm.listed, hnone]
      nofun
    rw [MarketState.restingOf, MarketState.restingOf, hnone, hunlisted']
  | cons msg news =>
    obtain ⟨last, hlast⟩ := Option.isSome_iff_exists.mp
      (List.getLast?_isSome.mpr (List.cons_ne_nil msg news))
    rw [← hnews] at hlast
    obtain ⟨hbook, hc⟩ := mem_newsOf_books.mp (List.mem_of_getLast? hlast)
    exact Or.inr (hlast.trans (congrArg some (hall last hbook hc)))

/-- **What is sent for a task** tells of every book that it changes. -/
lemma tells_sends {s : Server} {task : EngineTask} {asked : Bool} {e : Effect}
    (hm : s.market.Ok) (hsafe : task.Safe s.market) (h : Sends fuel s asked task e msgs) :
    Tells c s.market e.market msgs := by
  cases h with
  | @switchEngine mode books hbooks => exact tells_switch hm mode hbooks
  | @snapshot d b msg hfind hmsg =>
    rw [bookMsg_eq (hm.inv d b hfind)] at hmsg
    obtain rfl := Option.some.inj hmsg
    rw [Tells, newsOf_snapshot]
    by_cases hc : d = c
    · subst hc
      rw [restingOf_of_find hfind]
      exact Or.inr (by simp [listing])
    · exact Or.inl ⟨by simp [listing, hc], rfl⟩
  | silent => exact tells_nothing
  | @processed d o b r msg pushed hfind hcan hprocess hmsg =>
    obtain ⟨id, hs⟩ :=
      AnyBook.processOrder_sound (hm.inv d b hfind) hcan (hsafe b hfind) hprocess
    exact tells_book hs.inv hmsg (newsOf_trades _) _
  | @cancelMissed d id userId b b' hfind hcancel =>
    obtain ⟨hx, -, -, hresting⟩ :=
      AnyBook.cancelOrder_sound (hm.inv d b hfind) (hsafe b hfind) hcancel
    refine Or.inl ⟨rfl, ?_⟩
    rw [restingOf_setBook]
    split_ifs with hc
    · rw [hc, restingOf_of_find hfind, hresting, Book.cancel, hx]
    · rfl
  | @cancelled d id userId b b' x msg pushed hfind hcancel hmsg =>
    obtain ⟨-, hinv, -⟩ :=
      AnyBook.cancelOrder_sound (hm.inv d b hfind) (hsafe b hfind) hcancel
    have hnothing : newsOf c [] = [] := rfl
    exact tells_book hinv hmsg hnothing 0

end Tells

/-! ### What the client shows -/

/-- The client shows exactly the resting orders of the user: ids and remaining quantities, on both
sides. -/
def Shows (client : Client) (m : MarketState) (u : Int) (c : Nat) : Prop :=
  ∃ my, client.myOrdersByCompany c = some my ∧
    my.buys.map (fun o => (o.id, o.quantity)) = ((m.restingOf c true).filter fun o =>
      o.userId = u).map (fun o => (o.id, o.quantity)) ∧
    my.sells.map (fun o => (o.id, o.quantity)) = ((m.restingOf c false).filter fun o =>
      o.userId = u).map (fun o => (o.id, o.quantity))

/-- The orders of the user are among the first hundred of their side, and a `Number` can be the id
of each. -/
def Visible (m : MarketState) (u : Int) (c : Nat) : Prop :=
  ∀ s, (∀ o ∈ (m.restingOf c s).drop 100, o.userId ≠ u) ∧
    ∀ o ∈ m.restingOf c s, o.userId = u → toNumber o.id = o.id

instance (m : MarketState) (u : Int) (c : Nat) : Decidable (Visible m u c) :=
  inferInstanceAs (Decidable (∀ s, (∀ o ∈ (m.restingOf c s).drop 100, _) ∧ ∀ o ∈ m.restingOf c s, _))

section Shows

variable {u : Int} {c : Nat} {m : MarketState} {client : Client}

/-- The rows of a listing are those of its orders. -/
lemma map_mine (side : Bool) (B : Book) :
    (Client.mine u c side (B.orders side 100)).map (fun o => (o.id, o.quantity))
      = (((B side).take 100).filter fun o => o.userId = u).map
        fun o => (toNumber o.id, o.quantity) := by
  rw [Client.mine, Book.orders, ← List.map_take, List.map_map, List.map_map, List.filter_map,
    List.map_map]
  rfl

/-- A list shows all orders of the user exactly if it is cut behind the last and has the right
ids. -/
lemma map_take_eq_iff (l : List Order) :
    ((l.take 100).filter fun o => o.userId = u).map (fun o => (toNumber o.id, o.quantity))
        = (l.filter fun o => o.userId = u).map (fun o => (o.id, o.quantity)) ↔
      (∀ o ∈ l.drop 100, o.userId ≠ u) ∧ ∀ o ∈ l, o.userId = u → toNumber o.id = o.id := by
  have hsplit : (l.filter fun o => o.userId = u) = ((l.take 100).filter fun o => o.userId = u)
      ++ (l.drop 100).filter fun o => o.userId = u := by
    rw [← List.filter_append, List.take_append_drop]
  constructor
  · intro h
    have hlength := congrArg List.length h
    rw [List.length_map, List.length_map, hsplit, List.length_append] at hlength
    have hdrop : ((l.drop 100).filter fun o => o.userId = u) = [] :=
      List.eq_nil_of_length_eq_zero (by omega)
    rw [hdrop, List.append_nil] at hsplit
    rw [hsplit, List.map_inj_left] at h
    refine ⟨fun o ho hu => List.filter_eq_nil_iff.mp hdrop o ho (decide_eq_true hu),
      fun o ho hu => ?_⟩
    have hmem : o ∈ (l.take 100).filter fun o => o.userId = u := by
      rw [← hsplit]
      exact List.mem_filter.mpr ⟨ho, decide_eq_true hu⟩
    exact (Prod.mk.inj (h o hmem)).1
  · rintro ⟨hdrop, hid⟩
    have hnil : ((l.drop 100).filter fun o => o.userId = u) = [] :=
      List.filter_eq_nil_iff.mpr fun o ho hu => hdrop o ho (of_decide_eq_true hu)
    rw [hsplit, hnil, List.append_nil]
    refine List.map_congr_left fun o ho => ?_
    obtain ⟨ho, hu⟩ := List.mem_filter.mp ho
    rw [hid o (List.mem_of_mem_take ho) (of_decide_eq_true hu)]

lemma shows_iff (h : client.myOrdersByCompany c
    = some (Client.ordersIn u (listing c (m.restingOf c)))) :
    Shows client m u c ↔ Visible m u c := by
  have hside : ∀ s, (Client.mine u c s ((m.restingOf c).orders s 100)).map
      (fun o => (o.id, o.quantity)) = ((m.restingOf c s).filter fun o => o.userId = u).map
        (fun o => (o.id, o.quantity)) ↔ (∀ o ∈ (m.restingOf c s).drop 100, o.userId ≠ u) ∧
          ∀ o ∈ m.restingOf c s, o.userId = u → toNumber o.id = o.id := by
    intro s
    rw [map_mine]
    exact map_take_eq_iff (m.restingOf c s)
  constructor
  · rintro ⟨my, hmy, hbuys, hsells⟩ s
    rw [h] at hmy
    obtain rfl := Option.some.inj hmy
    cases s with
    | true => exact (hside true).mp hbuys
    | false => exact (hside false).mp hsells
  · intro hvisible
    exact ⟨_, h, (hside true).mpr (hvisible true), (hside false).mpr (hvisible false)⟩

end Shows

namespace Feed

variable {f f' : Feed} {e : Move} {c : Nat} {u : Int}

/-- Since the last login the client has processed a snapshot of the company. -/
def Received (f : Feed) (c : Nat) : Prop :=
  ∃ x ∈ f.processed.takeWhile fun x => !x.1.isLoggedIn, x.1.SnapshotOf c

/-- The market can take the task popped; and a book that the client ignores, because another
company is selected, says nothing about its user's orders that it does not show. -/
def Clear (f : Feed) : Move → Prop
  | .engine fuel => f.server.SafeEvent (.engine fuel)
  | .receive =>
    match f.sent.head?, f.client.user with
    | some (.book msg, _), some u => f.Received msg.companyId → f.client.Applies msg ∨
      f.client.myOrdersByCompany msg.companyId = some (Client.ordersIn u msg)
    | _, _ => True
  | _ => True

instance (f : Feed) (c : Nat) : Decidable (f.Received c) :=
  inferInstanceAs (Decidable
    (∃ x ∈ f.processed.takeWhile fun x => !x.1.isLoggedIn, x.1.SnapshotOf c))

lemma Clear.safe (h : f.Clear e) : f.Safe e := by
  cases e with
  | engine fuel => exact h
  | _ => trivial

instance (f : Feed) : (e : Move) → Decidable (f.Clear e)
  | .engine fuel => inferInstanceAs (Decidable (f.server.SafeEvent (.engine fuel)))
  | .receive =>
    match h : f.sent.head?, h' : f.client.user with
    | some (.book msg, _), some u =>
      decidable_of_iff (f.Received msg.companyId → f.client.Applies msg ∨
        f.client.myOrdersByCompany msg.companyId = some (Client.ordersIn u msg))
        (by simp only [Clear, h, h'])
    | some (.book _, _), none => isTrue (by simp only [Clear, h, h'])
    | some (.trade _, _), _ | some (.snapshot _ _, _), _ | some (.loggedIn _, _), _ | none, _ =>
      isTrue (by simp only [Clear, h])
  | .message _ _ _ | .db | .login _ | .changeCompany _ | .logout => isTrue trivial

/-- What holds along a run: the last message under way about a company tells its present book, and
without one the client shows it. -/
structure Informed (f : Feed) : Prop where
  ok : f.server.Ok
  told : ∀ c, ∀ msg ∈ (newsOf c f.sent).getLast?,
    msg = listing c (f.server.market.restingOf c)
  shown : ∀ u c, f.client.user = some u → f.Received c → newsOf c f.sent = [] →
    f.client.myOrdersByCompany c
      = some (Client.ordersIn u (listing c (f.server.market.restingOf c)))

/-- Only a snapshot of the company makes it received. -/
lemma received_of_cons {x : ServerMsg × Nat} {processed : List (ServerMsg × Nat)}
    (h : ∃ y ∈ (x :: processed).takeWhile fun x => !x.1.isLoggedIn, y.1.SnapshotOf c)
    (hx : ¬ x.1.SnapshotOf c) :
    ∃ y ∈ processed.takeWhile fun x => !x.1.isLoggedIn, y.1.SnapshotOf c := by
  obtain ⟨y, hy, hsnapshot⟩ := h
  rw [List.takeWhile_cons] at hy
  split_ifs at hy
  · rcases List.mem_cons.mp hy with rfl | hy
    · exact absurd hsnapshot hx
    · exact ⟨y, hy, hsnapshot⟩
  · cases hy

lemma newsOf_cons (x : ServerMsg × Nat) (sent : List (ServerMsg × Nat)) :
    newsOf c (x :: sent) = newsOf c [x] ++ newsOf c sent := by
  rw [← newsOf_append, List.singleton_append]

/-- The only message about a company tells its present book. -/
lemma Informed.eq_listing {x : ServerMsg × Nat} {sent : List (ServerMsg × Nat)} {msg : BookMsg}
    (h : f.Informed) (hsent : f.sent = x :: sent) (hx : newsOf c [x] = [msg])
    (hnone : newsOf c sent = []) : msg = listing c (f.server.market.restingOf c) := by
  apply h.told c msg
  rw [hsent, newsOf_cons, hx, hnone]
  rfl

/-- **One message** is processed. -/
lemma Informed.receive {x : ServerMsg × Nat} {sent : List (ServerMsg × Nat)} (h : f.Informed)
    (hclear : f.Clear .receive) (hsent : f.sent = x :: sent) : Informed
      { f with
        sent := sent
        client := f.client.onMessage x.1
        processed := x :: f.processed } := by
  refine ⟨h.ok, fun c msg hmsg => ?_, fun u c huser hreceived hnone => ?_⟩
  · apply h.told c msg
    rw [Option.mem_def] at hmsg ⊢
    rw [hsent, newsOf_cons, List.getLast?_append, hmsg, Option.some_or]
  · have hnews : newsOf c f.sent = newsOf c [x] := by
      rw [hsent, newsOf_cons, hnone, List.append_nil]
    obtain ⟨msg, k⟩ := x
    cases msg with
    | trade msg => exact h.shown u c huser (received_of_cons hreceived id) hnews
    | loggedIn userId =>
      obtain ⟨y, hy, -⟩ := hreceived
      cases hy
    | snapshot msg priceHistory =>
      by_cases hc : msg.companyId = c
      · subst hc
        have hlisting := h.eq_listing hsent ((newsOf_snapshot _ _ _).trans (if_pos rfl)) hnone
        rw [← hlisting]
        exact Client.myOrders_applyBookSnapshot huser
      · rw [newsOf_snapshot, if_neg hc] at hnews
        exact (Client.myOrders_applyBookSnapshot_of_ne hc).trans
          (h.shown u c huser (received_of_cons hreceived hc) hnews)
    | book msg =>
      have hreceived' : f.Received c := received_of_cons hreceived id
      simp only [Client.onMessage] at huser ⊢
      by_cases hc : msg.companyId = c
      · subst hc
        have hlisting := h.eq_listing hsent ((newsOf_book _ _).trans (if_pos rfl)) hnone
        rw [← hlisting]
        split_ifs at huser ⊢ with happlies
        · exact Client.myOrders_applyBookSnapshot huser
        · simp only [Clear, hsent, List.head?_cons, huser] at hclear
          exact (hclear hreceived').resolve_left happlies
      · rw [newsOf_book, if_neg hc] at hnews
        split_ifs at huser ⊢
        · exact (Client.myOrders_applyBookSnapshot_of_ne hc).trans
            (h.shown u c huser hreceived' hnews)
        · exact h.shown u c huser hreceived' hnews

/-- **One move** keeps the client informed. -/
lemma Informed.step (h : f.Informed) (hclear : f.Clear e) (hstep : f.step e = some f') :
    f'.Informed := by
  have hok := ok_step h.ok hclear.safe hstep
  cases step_steps hstep with
  | message own hserver hmarket =>
    refine ⟨hok, ?_, ?_⟩
    · rw [hmarket]
      exact h.told
    · rw [hmarket]
      exact h.shown
  | idle => exact h
  | @task fuel task queue s effect msgs hqueue hserver hmarket hsends =>
    have hsafe : f.server.SafeEvent (.engine fuel) := hclear
    have htells : ∀ c, Tells c f.server.market s.market msgs := by
      intro c
      rw [hmarket]
      exact tells_sends h.ok.market (hsafe task (by rw [hqueue]; rfl)) hsends
    refine ⟨hok, fun c => ?_, fun u c huser hreceived => ?_⟩
    · simp only [newsOf_append, newsOf_map]
      rcases htells c with ⟨hnil, hsame⟩ | hlast
      · rw [hnil, List.append_nil, hsame]
        exact h.told c
      · rw [List.getLast?_append, hlast]
        rintro msg ⟨⟩
        rfl
    · simp only [newsOf_append, newsOf_map]
      rcases htells c with ⟨hnil, hsame⟩ | hlast
      · rw [hnil, List.append_nil, hsame]
        exact h.shown u c huser hreceived
      · intro hnone
        rw [(List.append_eq_nil_iff.mp hnone).2] at hlast
        cases hlast
  | db hserver hmarket =>
    refine ⟨hok, ?_, ?_⟩
    · rw [hmarket]
      exact h.told
    · rw [hmarket]
      exact h.shown
  | login userId =>
    have hnews : ∀ c, newsOf c (f.sent ++ [(.loggedIn userId, f.executed.length)])
        = newsOf c f.sent := by
      intro c
      rw [newsOf_append]
      exact List.append_nil _
    refine ⟨h.ok, fun c => ?_, fun u c => ?_⟩
    · rw [hnews]
      exact h.told c
    · rw [hnews]
      exact h.shown u c
  | wait => exact h
  | receive hsent => exact h.receive hclear hsent
  | changeCompany companyId => exact ⟨h.ok, h.told, h.shown⟩
  | logout => exact ⟨h.ok, h.told, nofun⟩

/-- **When "My Open Orders" is accurate**, in any run in which the market can take every task and
the client never ignores news about the orders of its user: once it has the snapshot of every
company and nothing is under way, it shows for every company exactly the orders that rest, if and
only if these are listed and have ids that a `Number` can be. -/
theorem open_orders_shown_iff {companies : List Nat} {m : MarketState} {db : Database} {s : Server}
    {fills : List Trade} {pushed : List DbTask} (hm : MarketState.new companies = .ok m)
    (hserver : Server.Run Server.SafeEvent (Server.start m db) s fills pushed) (client : Client)
    (h : Run Clear (connect s fills client) f) (huser : f.client.user = some u)
    (hreceived : ∀ c ∈ f.server.market.companies, f.Received c) (hsent : f.sent = []) :
    (∀ c ∈ f.server.market.companies, Shows f.client f.server.market u c) ↔
      ∀ c ∈ f.server.market.companies, Visible f.server.market u c := by
  have hinformed : f.Informed := by
    clear huser hreceived hsent
    induction h with
    | refl =>
      have hok := hserver.ok (fun _ _ h => h) (Server.ok_start (Server.ok_new hm) db)
      refine ⟨hok, nofun, ?_⟩
      rintro u c - ⟨x, hx, -⟩
      cases hx
    | step _ hclear hstep ih => exact ih.step hclear hstep
  refine forall₂_congr fun c hc => shows_iff ?_
  exact hinformed.shown u c huser (hreceived c hc) (by rw [hsent]; rfl)

/-! ### Two companies -/

/-- Two listed companies. -/
def twoCompanies : MarketState where
  companies := [1, 2]
  instruments := fun c => if c ∈ [1, 2] then some (makeOrderBook .current) else none
  engineMode := .current

lemma twoCompanies_new : MarketState.new [1, 2] = .ok twoCompanies := rfl

/-- The market changes to the legacy engine, and user 7 logs in and asks for both snapshots. -/
def sampleLogin : List Move :=
  [.message false 0 (.switchEngine "LEGACY"), .login 7, .message true 0 (.snapshot (some 1)),
    .message true 0 (.snapshot (some 2)), .engine 0, .engine 0, .engine 0, .receive, .receive,
    .receive, .receive, .receive]

/-- User 7 bids for company 2, which is selected. -/
def sampleBid : Move :=
  .message true 0 (.order ⟨"a", some 2, some "BUY", some 5, some 4, some 0, false, none⟩)

theorem open_orders_shown_iff_sampleBid : ∃ f,
    Run Clear (connect (Server.start twoCompanies Server.sampleDb) [] .initial) f ∧
      f.server.market.restingOf 2 true ≠ [] ∧
      ∀ c ∈ f.server.market.companies, Shows f.client f.server.market 7 c := by
  obtain ⟨f, hrun, hout⟩ := Option.map_eq_some_iff.mp
    (by decide +kernel :
      ((connect (Server.start twoCompanies Server.sampleDb) [] .initial).runMoves Clear
        (sampleLogin ++ [sampleBid, .engine 100001, .receive])).map (fun f => decide
          ((f.client.user = some 7 ∧ (∀ c ∈ f.server.market.companies, f.Received c) ∧
            f.sent.isEmpty = true) ∧ (f.server.market.restingOf 2 true).isEmpty = false ∧
              ∀ c ∈ f.server.market.companies, Visible f.server.market 7 c)) = some true)
  obtain ⟨⟨huser, hreceived, hsent⟩, hresting, hvisible⟩ := of_decide_eq_true hout
  have h := run_of_runMoves hrun
  have hshown := (open_orders_shown_iff twoCompanies_new .refl .initial h huser hreceived
    (List.isEmpty_iff.mp hsent)).mpr hvisible
  refine ⟨f, h, ?_, hshown⟩
  rw [Ne, ← List.isEmpty_iff, hresting]
  nofun

/-- The user changes to company 1 before the book with the order arrives, and the client ignores
it. -/
theorem bid_not_shown : ∃ f,
    Run Safe (connect (Server.start twoCompanies Server.sampleDb) [] .initial) f ∧
      f.client.user = some 7 ∧ (∀ c ∈ f.server.market.companies, f.Received c) ∧ f.sent = [] ∧
      2 ∈ f.server.market.companies ∧ ¬ Shows f.client f.server.market 7 2 := by
  obtain ⟨f, hrun, hout⟩ := Option.map_eq_some_iff.mp
    (by decide +kernel :
      ((connect (Server.start twoCompanies Server.sampleDb) [] .initial).runMoves Safe
        (sampleLogin ++ [sampleBid, .changeCompany 1, .message true 0 (.snapshot (some 1)),
          .engine 100001, .engine 0, .receive, .receive])).map (fun f => decide
          ((f.client.user = some 7 ∧ (∀ c ∈ f.server.market.companies, f.Received c) ∧
            f.sent.isEmpty = true) ∧ 2 ∈ f.server.market.companies ∧
              f.client.myOrdersByCompany 2 = some ⟨[], []⟩ ∧
              ((f.server.market.restingOf 2 true).filter fun o => o.userId = 7).isEmpty = false))
      = some true)
  obtain ⟨⟨huser, hreceived, hsent⟩, hlisted, hshown, hresting⟩ := of_decide_eq_true hout
  refine ⟨f, run_of_runMoves hrun, huser, hreceived, List.isEmpty_iff.mp hsent, hlisted, ?_⟩
  rintro ⟨my, hmy, hbuys, -⟩
  rw [hshown] at hmy
  obtain rfl := Option.some.inj hmy
  have hnone := List.map_eq_nil_iff.mp hbuys.symm
  rw [hnone] at hresting
  cases hresting

end Feed

end ExchangeEngine
