import ExchangeEngine.Client.Feed

/-!
# The price history of the client

A snapshot replaces the prices that the client has collected by those that are logged. The list
stays complete exactly as long as no snapshot is taken while an executed price that it should
contain still waits to be logged.
-/

namespace ExchangeEngine

/-! ### Prices -/

/-- The prices of the logged trades of a company, oldest first. -/
def Database.loggedPrices (db : Database) (c : Nat) : List Nat :=
  (db.trades.filter fun row => row.companyId = c).map fun row => (row.price % 2 ^ 32).toNat

/-- The prices of the fills in a company. -/
def executedPrices (c : Nat) (fills : List Trade) : List Nat :=
  (fills.filter fun t => t.companyId = c).map Trade.execPrice

/-- The prices of a company that the tasks will log. -/
def waitingPrices (c : Nat) (tasks : List DbTask) : List Nat :=
  (tasks.filter fun task => task.type = .logTrade ∧ task.companyId = c).map fun task =>
    task.price % 2 ^ 32

section Prices

variable {c : Nat} {db : Database}

lemma executedPrices_append (fills fills' : List Trade) :
    executedPrices c (fills ++ fills') = executedPrices c fills ++ executedPrices c fills' := by
  rw [executedPrices, List.filter_append, List.map_append, ← executedPrices, ← executedPrices]

lemma waitingPrices_append (tasks tasks' : List DbTask) :
    waitingPrices c (tasks ++ tasks') = waitingPrices c tasks ++ waitingPrices c tasks' := by
  rw [waitingPrices, List.filter_append, List.map_append, ← waitingPrices, ← waitingPrices]

lemma bindInt_emod (n : Nat) : (bindInt n % 2 ^ 32).toNat = n % 2 ^ 32 := by
  simp only [bindInt]
  split_ifs
  · omega
  · omega

lemma recentPrices_eq (h : db.Ordered) (c n : Nat) :
    (db.getRecentPrices c n).reverse = (db.loggedPrices c).rtake n := by
  rw [Database.getRecentPrices, h.newestFirst_filter, Database.loggedPrices,
    List.rtake_eq_reverse_take_reverse, List.map_take, List.map_reverse]

lemma trades_settleTrade (buyerId sellerId : Int) (companyId quantity price limit : Nat) :
    (db.settleTradeUnlocked buyerId sellerId companyId quantity price limit).trades
      = db.trades := by
  simp only [Database.settleTradeUnlocked]
  split_ifs
  · rfl
  · rfl

/-- What is logged stays logged. -/
lemma trades_prefix_applyTask (task : DbTask) : db.trades <+: (applyTask db task).trades := by
  simp only [applyTask]
  cases task.type with
  | settle =>
    simp only [trades_settleTrade]
    exact List.prefix_rfl
  | refundCash => exact List.prefix_rfl
  | refundShares => exact List.prefix_rfl
  | logTrade => exact List.prefix_append _ _

lemma trades_prefix_foldl (tasks : List DbTask) :
    db.trades <+: (tasks.foldl applyTask db).trades := by
  induction tasks generalizing db with
  | nil => exact List.prefix_rfl
  | cons task tasks ih => exact (trades_prefix_applyTask task).trans ih

lemma Database.Ordered.of_prefix {db' : Database} (h : db'.Ordered)
    (hbegins : db.trades <+: db'.trades) : db.Ordered :=
  List.Pairwise.sublist hbegins.sublist h

lemma Server.trades_prefix_step {s s' : Server} {e : Event} {fills : List Trade}
    {pushed : List DbTask} (h : s.step e = some (s', fills, pushed)) :
    s.db.trades <+: s'.db.trades := by
  cases step_steps h with
  | handled hmsg => cases hmsg <;> exact List.prefix_rfl
  | batch => exact trades_prefix_foldl _
  | _ => exact List.prefix_rfl

lemma loggedPrices_applyTask (task : DbTask) :
    (applyTask db task).loggedPrices c = db.loggedPrices c ++ waitingPrices c [task] := by
  simp only [applyTask, waitingPrices]
  cases htype : task.type with
  | settle => simp [Database.loggedPrices, trades_settleTrade, htype]
  | refundCash =>
    simp [Database.loggedPrices, Database.releaseCashUnlocked, Database.settleCash, htype]
  | refundShares =>
    simp [Database.loggedPrices, Database.releaseSharesUnlocked, Database.settleShares, htype]
  | logTrade =>
    rw [Database.loggedPrices, Database.logTradeUnlocked, List.filter_append, List.map_append,
      ← Database.loggedPrices]
    by_cases hc : task.companyId = c
    · simpa [htype, hc] using bindInt_emod task.price
    · simp [htype, hc]

lemma loggedPrices_foldl (tasks : List DbTask) : (tasks.foldl applyTask db).loggedPrices c
    = db.loggedPrices c ++ waitingPrices c tasks := by
  induction tasks generalizing db with
  | nil => simp [waitingPrices]
  | cons task tasks ih =>
    rw [List.foldl_cons, ih, loggedPrices_applyTask, List.append_assoc, ← waitingPrices_append,
      List.singleton_append]

/-- The fills of a task wait to be logged. -/
lemma waitingPrices_of_settled {fills : List Trade} {pushed : List DbTask}
    (h : pushed.filter DbTask.ofTrade = fills.flatMap onTrade) :
    waitingPrices c pushed = executedPrices c fills := by
  have hsplit : waitingPrices c pushed = waitingPrices c (pushed.filter DbTask.ofTrade) := by
    rw [waitingPrices, waitingPrices, List.filter_filter]
    congr 1
    refine List.filter_congr fun task _ => ?_
    cases htype : task.type with
    | logTrade => simp [DbTask.ofTrade, htype]
    | _ => simp
  rw [hsplit, h]
  clear h hsplit
  induction fills with
  | nil => rfl
  | cons t fills ih =>
    rw [List.flatMap_cons, waitingPrices_append, ih, ← List.singleton_append (l := fills),
      executedPrices_append]
    congr 1
    by_cases hc : t.companyId = c
    · simp [waitingPrices, executedPrices, onTrade, hc, Trade.execPrice]
    · simp [waitingPrices, executedPrices, onTrade, hc]

lemma rtake_rtake {α : Type} (l : List α) (m n : Nat) : (l.rtake m).rtake n = l.rtake (min n m) := by
  simp only [List.rtake_eq_reverse_take_reverse, List.reverse_reverse, List.take_take]

lemma rtake_rtake_append (l : List Nat) (x n : Nat) :
    (l.rtake n ++ [x]).rtake n = (l ++ [x]).rtake n := by
  cases n with
  | zero => simp
  | succ n =>
    rw [List.rtake_concat_succ, List.rtake_concat_succ, rtake_rtake, Nat.min_eq_left n.le_succ]

end Prices

/-! ### What is logged -/

/-- Every book has its listener, and the executed prices are logged or wait to be. -/
structure Server.Logs (c : Nat) (past : List Nat) (s : Server) (executed : List Trade) : Prop where
  listening : s.market.Listening
  prices : s.db.loggedPrices c ++ waitingPrices c (s.dbQueueBack ++ s.dbQueueFront)
    = past ++ executedPrices c executed

/-- **One event** keeps track of the prices. -/
lemma Server.Logs.step {c : Nat} {past : List Nat} {s s' : Server} {executed fills : List Trade}
    {pushed : List DbTask} {e : Event} (h : Logs c past s executed) (hkeep : KeepsEngine s e)
    (hstep : s.step e = some (s', fills, pushed)) : Logs c past s' (executed ++ fills) := by
  obtain ⟨hlisten, hprices⟩ := h
  cases step_steps hstep with
  | rejected => exact ⟨hlisten, by rwa [List.append_nil]⟩
  | handled hmsg =>
    rw [List.append_nil]
    cases hmsg with
    | buy => exact ⟨hlisten, hprices⟩
    | sell => exact ⟨hlisten, hprices⟩
    | stress => exact ⟨hlisten, hprices⟩
    | cancel => exact ⟨hlisten, hprices⟩
    | switchEngine => exact ⟨hlisten, hprices⟩
    | snapshot => exact ⟨hlisten, hprices⟩
  | idle => exact ⟨hlisten, by rwa [List.append_nil]⟩
  | task hqueue hrun =>
    obtain ⟨hsettled, hlisten'⟩ := runTask_settled hlisten (hkeep _ (by rw [hqueue]; rfl)) hrun
    refine ⟨hlisten', ?_⟩
    rw [← List.append_assoc, waitingPrices_append, waitingPrices_of_settled hsettled,
      executedPrices_append, ← List.append_assoc, ← List.append_assoc, hprices]
  | swap hback =>
    rw [hback, List.nil_append] at hprices
    exact ⟨hlisten, by simpa using hprices⟩
  | batch =>
    refine ⟨hlisten, ?_⟩
    rw [loggedPrices_foldl, List.append_nil, List.nil_append, List.append_assoc,
      ← waitingPrices_append, hprices]

lemma Server.logs_run {companies : List Nat} {m : MarketState} {db : Database} {s : Server}
    {fills : List Trade} {pushed : List DbTask} (hm : MarketState.new companies = .ok m) (c : Nat)
    (h : Run KeepsEngine (start m db) s fills pushed) : Logs c (db.loggedPrices c) s fills := by
  induction h with
  | refl => exact ⟨listening_start hm db, by simp [start, waitingPrices, executedPrices]⟩
  | step _ hkeep hstep ih => exact ih.step hkeep hstep

namespace Feed

variable {c n : Nat} {past : List Nat} {executed fills : List Trade}
  {sent msgs : List (ServerMsg × Nat)}

/-! ### The messages under way -/

/-- The messages tell, after the first `n` fills, every further fill, and a snapshot of `c` has the
last prices of its moment. -/
def Paced (c : Nat) (past : List Nat) (executed : List Trade) : Nat → List (ServerMsg × Nat) → Prop
  | n, [] => n = executed.length
  | n, (.trade msg, k) :: sent =>
    k = n + 1 ∧ (executed[n]?).map tradeMsg = some msg ∧ Paced c past executed k sent
  | n, (.snapshot msg priceHistory, k) :: sent =>
    k = n ∧ (msg.companyId = c → priceHistory
      = (past ++ executedPrices c (executed.take n)).rtake 60) ∧ Paced c past executed k sent
  | n, (.book _, k) :: sent => k = n ∧ Paced c past executed k sent
  | n, (.loggedIn _, k) :: sent => k = n ∧ Paced c past executed k sent

lemma Paced.le_length (h : Paced c past executed n sent) : n ≤ executed.length := by
  induction sent generalizing n with
  | nil => exact h.le
  | cons x sent ih =>
    obtain ⟨msg, k⟩ := x
    cases msg with
    | trade msg =>
      obtain ⟨rfl, -, hrest⟩ := h
      exact (Nat.le_succ n).trans (ih hrest)
    | snapshot msg priceHistory =>
      obtain ⟨rfl, -, hrest⟩ := h
      exact ih hrest
    | book msg =>
      obtain ⟨rfl, hrest⟩ := h
      exact ih hrest
    | loggedIn userId =>
      obtain ⟨rfl, hrest⟩ := h
      exact ih hrest

/-- Further messages tell of further fills. -/
lemma Paced.append (h : Paced c past executed n sent)
    (hmsgs : Paced c past (executed ++ fills) executed.length msgs) :
    Paced c past (executed ++ fills) n (sent ++ msgs) := by
  induction sent generalizing n with
  | nil =>
    obtain rfl : n = executed.length := h
    exact hmsgs
  | cons x sent ih =>
    have hle := h.le_length
    obtain ⟨msg, k⟩ := x
    cases msg with
    | trade msg =>
      obtain ⟨rfl, htrade, hrest⟩ := h
      have hlt : n < executed.length := hrest.le_length
      exact ⟨rfl, by rwa [List.getElem?_append_left hlt], ih hrest⟩
    | snapshot msg priceHistory =>
      obtain ⟨rfl, hprices, hrest⟩ := h
      exact ⟨rfl, by rwa [List.take_append_of_le_length hle], ih hrest⟩
    | book msg => exact ⟨h.1, ih h.2⟩
    | loggedIn userId => exact ⟨h.1, ih h.2⟩

/-- Books tell of no fill. -/
lemma paced_books (books : List BookMsg) : Paced c past executed executed.length
    (books.map fun msg => (.book msg, executed.length)) := by
  induction books with
  | nil => exact rfl
  | cons msg books ih => exact ⟨rfl, ih⟩

/-- The frames of the fills of a task, and what follows them. -/
lemma paced_trades {m d : Nat} (hd : m + d = executed.length + 1)
    (hmsgs : Paced c past (executed ++ fills) (executed ++ fills).length msgs) :
    Paced c past (executed ++ fills) executed.length
      ((fills.zipIdx d).map (fun x => (.trade (tradeMsg x.1), m + x.2)) ++ msgs) := by
  induction fills generalizing executed d with
  | nil =>
    rw [List.append_nil] at hmsgs ⊢
    exact hmsgs
  | cons t fills ih =>
    have hsplit : executed ++ t :: fills = (executed ++ [t]) ++ fills := by simp
    have hlength : m + (d + 1) = (executed ++ [t]).length + 1 := by
      rw [List.length_append, List.length_singleton]
      omega
    rw [hsplit] at hmsgs
    have hrest := ih hlength hmsgs
    refine ⟨hd, ?_, ?_⟩
    · simp
    · rw [hsplit]
      simpa [hd] using hrest

/-- **What is sent for a task** tells of its fills; a snapshot needs the prices that are logged to
be the last ones. -/
lemma paced_sends {fuel : Nat} {s : Server} {task : EngineTask} {asked : Bool} {e : Effect}
    (hordered : s.db.Ordered) (hm : s.market.Listening) (h : Sends fuel s asked task e msgs)
    (hlogged : task = .snapshot c → asked = true → (s.db.loggedPrices c).rtake 60
      = (past ++ executedPrices c executed).rtake 60) :
    Paced c past (executed ++ e.fills) executed.length
      (msgs.map fun x => (x.1, executed.length + x.2)) := by
  cases h with
  | switchEngine =>
    rw [List.append_nil, List.map_map]
    exact paced_books _
  | @snapshot d b msg hfind hmsg hasked =>
    rw [List.append_nil]
    refine ⟨rfl, fun hc => ?_, rfl⟩
    have hd := companyId_bookMsg hmsg
    rw [List.take_length, recentPrices_eq hordered, ← hlogged (by rw [← hd, hc]) hasked, ← hd, hc]
  | silent =>
    rw [List.append_nil]
    exact rfl
  | processed pushed hfind hcan hprocess =>
    have hnotified := (AnyBook.processOrder_notified hprocess).2
    rw [hm _ _ hfind, if_pos rfl] at hnotified
    rw [hnotified, List.map_append, List.map_map]
    exact paced_trades rfl ⟨List.length_append.symm, List.length_append.symm⟩
  | cancelMissed =>
    rw [List.append_nil]
    exact rfl
  | @cancelled d id userId b b' x msg =>
    rw [List.append_nil]
    exact paced_books [msg]

/-! ### Runs -/

/-- The client has processed a snapshot of the company. -/
def Charted (f : Feed) (c : Nat) : Prop :=
  ∃ x ∈ f.processed, x.1.SnapshotOf c

/-- The number of fills at the time when the message processed last was sent. -/
def seen (f : Feed) : Nat := (f.processed.head?.map Prod.snd).getD 0

/-- The last logged prices of a company are its last executed prices: nothing waits to be logged,
or it makes no difference. -/
def UpToDate (s : Server) (c : Nat) : Prop :=
  (s.db.loggedPrices c).rtake 60
    = (s.db.loggedPrices c ++ waitingPrices c (s.dbQueueBack ++ s.dbQueueFront)).rtake 60

instance (s : Server) (c : Nat) : Decidable (UpToDate s c) :=
  inferInstanceAs (Decidable (_ = _))

/-- No task changes the engine. -/
def KeepsEngine (f : Feed) : Move → Prop
  | .engine fuel => f.server.KeepsEngine (.engine fuel)
  | _ => True

/-- No task changes the engine, and the client is sent a snapshot of `c` only when the log is up to
date. -/
def Logged (c : Nat) (f : Feed) (e : Move) : Prop :=
  f.KeepsEngine e ∧
    match e with
    | .engine _ => f.server.engineQueue.head? = some (.snapshot c) → f.asked.headD false = true →
      UpToDate f.server c
    | _ => True

instance (f : Feed) : (e : Move) → Decidable (f.KeepsEngine e)
  | .engine fuel => inferInstanceAs (Decidable (f.server.KeepsEngine (.engine fuel)))
  | .message _ _ _ | .db | .login _ | .receive | .changeCompany _ | .logout => isTrue trivial

instance (c : Nat) (f : Feed) : (e : Move) → Decidable (Logged c f e)
  | .engine fuel =>
    inferInstanceAs (Decidable (f.KeepsEngine (.engine fuel) ∧
      (f.server.engineQueue.head? = some (.snapshot c) → f.asked.headD false = true →
        UpToDate f.server c)))
  | .message _ _ _ | .db | .login _ | .receive | .changeCompany _ | .logout =>
    isTrue ⟨trivial, trivial⟩

/-- What holds along a run; `n` fills are known to the client. -/
structure Tracks (c : Nat) (past : List Nat) (f : Feed) (n : Nat) : Prop where
  logs : Server.Logs c past f.server f.executed
  sent : Paced c past f.executed n f.sent
  seen : ∀ x ∈ f.processed.head?, x.2 = n
  shown : f.Charted c → f.client.priceHistory c
    = some ((past ++ executedPrices c (f.executed.take n)).rtake 60)

variable {f f' : Feed} {e : Move}

/-- Other messages chart nothing. -/
lemma charted_of_cons {x : ServerMsg × Nat} {processed : List (ServerMsg × Nat)}
    (h : ∃ y ∈ x :: processed, y.1.SnapshotOf c) (hx : ¬ x.1.SnapshotOf c) :
    ∃ y ∈ processed, y.1.SnapshotOf c := by
  obtain ⟨y, hy, hsnapshot⟩ := h
  rcases List.mem_cons.mp hy with rfl | hy
  · exact absurd hsnapshot hx
  · exact ⟨y, hy, hsnapshot⟩

lemma seen_cons {msg : ServerMsg} {k : Nat} {processed : List (ServerMsg × Nat)} :
    ∀ x ∈ ((msg, k) :: processed).head?, x.2 = k := by
  rintro x ⟨⟩
  rfl

/-- **One message** is processed. -/
lemma Tracks.receive {msg : ServerMsg} {k : Nat} (h : Tracks c past f n)
    (hsent : f.sent = (msg, k) :: sent) : Tracks c past
      { f with
        sent := sent
        client := f.client.onMessage msg
        processed := (msg, k) :: f.processed } k := by
  have hpaced := h.sent
  rw [hsent] at hpaced
  cases msg with
  | trade msg =>
    obtain ⟨rfl, htrade, hrest⟩ := hpaced
    obtain ⟨t, ht, rfl⟩ := Option.map_eq_some_iff.mp htrade
    refine ⟨h.logs, hrest, seen_cons, fun hcharted => ?_⟩
    have hshown := h.shown (charted_of_cons hcharted id)
    rw [List.take_add_one, ht, Option.toList_some, executedPrices_append, ← List.append_assoc]
    simp only [Client.onMessage, Client.onTrade]
    by_cases hc : t.companyId = c
    · have hprice : executedPrices c [t] = [t.execPrice] := by simp [executedPrices, hc]
      have hcompany : (tradeMsg t).companyId = c := hc
      rw [hprice, hcompany, Function.update_self, hshown, Option.getD_some, rtake_rtake_append]
      rfl
    · have hprice : executedPrices c [t] = [] := by simp [executedPrices, hc]
      have hcompany : c ≠ (tradeMsg t).companyId := Ne.symm hc
      rw [hprice, List.append_nil, Function.update_of_ne hcompany, hshown]
  | snapshot msg priceHistory =>
    obtain ⟨rfl, hprices, hrest⟩ := hpaced
    refine ⟨h.logs, hrest, seen_cons, fun hcharted => ?_⟩
    simp only [Client.onMessage]
    by_cases hc : msg.companyId = c
    · rw [hc, Function.update_self, hprices hc, rtake_rtake, Nat.min_self]
    · rw [Function.update_of_ne (Ne.symm hc)]
      exact h.shown (charted_of_cons hcharted hc)
  | book msg =>
    obtain ⟨rfl, hrest⟩ := hpaced
    refine ⟨h.logs, hrest, seen_cons, fun hcharted => ?_⟩
    rw [← h.shown (charted_of_cons hcharted id)]
    simp only [Client.onMessage]
    split_ifs
    · rfl
    · rfl
  | loggedIn userId =>
    obtain ⟨rfl, hrest⟩ := hpaced
    exact ⟨h.logs, hrest, seen_cons, fun hcharted => h.shown (charted_of_cons hcharted id)⟩

/-- **One move** keeps track. -/
lemma Tracks.step (h : Tracks c past f n) (hordered : f.server.db.Ordered) (hlogged : f.Logged c e)
    (hstep : f.step e = some f') : ∃ n', Tracks c past f' n' := by
  obtain ⟨hkeep, hcurrent⟩ := hlogged
  cases step_steps hstep with
  | message own hserver =>
    have hlogs := h.logs.step (e := .message _ _) trivial hserver
    rw [List.append_nil] at hlogs
    exact ⟨n, hlogs, h.sent, h.seen, h.shown⟩
  | idle => exact ⟨n, h⟩
  | @task fuel task queue s effect msgs hqueue hserver hmarket hsends =>
    have hkeep : f.server.KeepsEngine (.engine fuel) := hkeep
    have hpaced : Paced c past (f.executed ++ effect.fills) f.executed.length
        (msgs.map fun x => (x.1, f.executed.length + x.2)) := by
      refine paced_sends hordered h.logs.listening hsends fun htask hasked => ?_
      have hnew : UpToDate f.server c := hcurrent (by rw [hqueue, htask]; rfl) hasked
      rw [UpToDate, h.logs.prices] at hnew
      exact hnew
    refine ⟨n, h.logs.step hkeep hserver, h.sent.append hpaced, h.seen, fun hcharted => ?_⟩
    rw [List.take_append_of_le_length h.sent.le_length]
    exact h.shown hcharted
  | db hserver =>
    have hlogs := h.logs.step (e := .db) trivial hserver
    rw [List.append_nil] at hlogs
    exact ⟨n, hlogs, h.sent, h.seen, h.shown⟩
  | login userId =>
    have hlogin : Paced c past (f.executed ++ []) f.executed.length
        [(.loggedIn userId, f.executed.length)] := by
      rw [List.append_nil]
      exact ⟨rfl, rfl⟩
    have hsent := h.sent.append hlogin
    rw [List.append_nil] at hsent
    exact ⟨n, h.logs, hsent, h.seen, h.shown⟩
  | wait => exact ⟨n, h⟩
  | @receive x sent hsent => exact ⟨x.2, h.receive hsent⟩
  | changeCompany companyId => exact ⟨n, h.logs, h.sent, h.seen, h.shown⟩
  | logout => exact ⟨n, h.logs, h.sent, h.seen, h.shown⟩

/-- What is logged stays logged, whatever moves. -/
lemma trades_prefix_step (hstep : f.step e = some f') :
    f.server.db.trades <+: f'.server.db.trades := by
  cases step_steps hstep with
  | message own hserver => exact Server.trades_prefix_step hserver
  | task hqueue hserver => exact Server.trades_prefix_step hserver
  | db hserver => exact Server.trades_prefix_step hserver
  | _ => exact List.prefix_rfl

/-- **No price point is lost**, in any run in which the clock does not go back, no task changes the
engine and the client is sent a snapshot of the company only when the log is up to date: once it has
processed a snapshot, it has the last sixty prices of the fills executed up to the message processed
last. -/
theorem priceHistory_complete {companies : List Nat} {m : MarketState} {db : Database} {s : Server}
    {fills : List Trade} {pushed : List DbTask} (hm : MarketState.new companies = .ok m)
    (hserver : Server.Run Server.KeepsEngine (Server.start m db) s fills pushed) (client : Client)
    (h : Run (Logged c) (connect s fills client) f) (hordered : f.server.db.Ordered)
    (hcharted : f.Charted c) :
    f.client.priceHistory c = some
      ((db.loggedPrices c ++ executedPrices c (f.executed.take f.seen)).rtake 60) := by
  have htracks : ∃ n, Tracks c (db.loggedPrices c) f n := by
    clear hcharted
    induction h with
    | refl =>
      refine ⟨fills.length, Server.logs_run hm c hserver, rfl, nofun, ?_⟩
      rintro ⟨x, hx, -⟩
      cases hx
    | step _ hlogged hstep ih =>
      have hbefore := hordered.of_prefix (trades_prefix_step hstep)
      obtain ⟨n, hn⟩ := ih hbefore
      exact hn.step hbefore hlogged hstep
  obtain ⟨n, hn⟩ := htracks
  have hseen : f.seen = n := by
    obtain ⟨y, hy, -⟩ := hcharted
    have hknown := hn.seen
    rw [seen]
    cases hprocessed : f.processed with
    | nil =>
      rw [hprocessed] at hy
      cases hy
    | cons x processed =>
      rw [hprocessed] at hknown
      exact hknown x rfl
  rw [hseen]
  exact hn.shown hcharted

/-! ### One trade -/

/-- User 8 sells one share to user 7. -/
def sampleTrade : List Move :=
  [.message false 0 (.order ⟨"b", some 1, some "SELL", some 5, some 1, some 0, false, none⟩),
    .message false 0 (.order ⟨"a", some 1, some "BUY", some 6, some 1, some 0, false, none⟩),
    .engine 100001, .engine 100001]

/-- The client asks for a snapshot and processes all that it is sent. -/
def sampleSnapshot : List Move :=
  [.message true 0 (.snapshot (some 1)), .engine 0, .receive, .receive, .receive, .receive]

theorem priceHistory_complete_sampleTrade : ∃ f,
    Run (Logged 1) (connect (Server.start Server.sampleMarket Server.sampleDb) [] .initial) f ∧
      f.Charted 1 ∧ f.executed.length = 1 ∧ f.client.priceHistory 1 = some
        ((Server.sampleDb.loggedPrices 1
          ++ executedPrices 1 (f.executed.take f.seen)).rtake 60) := by
  obtain ⟨f, hrun, hout⟩ := Option.map_eq_some_iff.mp
    (by decide +kernel :
      ((connect (Server.start Server.sampleMarket Server.sampleDb) [] .initial).runMoves (Logged 1)
        (sampleTrade ++ [.db, .db] ++ sampleSnapshot)).map (fun f =>
          decide ((∃ x ∈ f.processed, x.1.SnapshotOf 1) ∧ f.executed.length = 1 ∧
            f.server.db.Ordered)) = some true)
  obtain ⟨hcharted, hlength, hordered⟩ := of_decide_eq_true hout
  have h := run_of_runMoves hrun
  exact ⟨f, h, hcharted, hlength,
    priceHistory_complete Server.new_sampleMarket .refl .initial h hordered hcharted⟩

/-- The snapshot is taken before the trade is logged, and takes the price of the trade away from
the client. -/
theorem price_lost_by_snapshot : ∃ f,
    Run KeepsEngine (connect (Server.start Server.sampleMarket Server.sampleDb) [] .initial) f ∧
      f.Charted 1 ∧ f.client.priceHistory 1 = some [] ∧
      (Server.sampleDb.loggedPrices 1
        ++ executedPrices 1 (f.executed.take f.seen)).rtake 60 = [5] := by
  obtain ⟨f, hrun, hout⟩ := Option.map_eq_some_iff.mp
    (by decide +kernel :
      ((connect (Server.start Server.sampleMarket Server.sampleDb) [] .initial).runMoves KeepsEngine
        (sampleTrade ++ sampleSnapshot)).map (fun f =>
          decide ((∃ x ∈ f.processed, x.1.SnapshotOf 1) ∧ f.client.priceHistory 1 = some [] ∧
            (Server.sampleDb.loggedPrices 1
              ++ executedPrices 1 (f.executed.take f.seen)).rtake 60 = [5])) = some true)
  obtain ⟨hcharted, hlost, hprice⟩ := of_decide_eq_true hout
  exact ⟨f, run_of_runMoves hrun, hcharted, hlost, hprice⟩

end Feed

end ExchangeEngine
