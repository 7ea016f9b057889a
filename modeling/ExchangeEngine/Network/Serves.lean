import ExchangeEngine.Accounts.Authentication
import ExchangeEngine.Server.Session

/-!
# What a session does with a message

Whatever text comes in, the server takes at most one step of its own, the connection goes over to a
user only with a token that is valid for him, the game is played only with such a token, and what is
sent back tells at most about the user that the connection is then of.
-/

namespace ExchangeEngine

/-- Does a response tell about `u`, on a connection of `userId`? -/
def Response.Tells (userId u : Int) : Response → Prop
  | .myTrades v => u = v
  | .userUpdate v => u = v
  | .game _ => u = userId
  | .error _ => False
  | .leaderboard => False

namespace Session

open Server

variable {J α : Type} {json : JsonLib J} {g : GameManager} {env : Surroundings} {c c₁ : Session}
  {msg : J} {u : Int}

/-- The message carries a token that is valid for `u`. -/
def Shows (json : JsonLib J) (env : Surroundings) (msg : J) (c : Session) (u : Int) : Prop :=
  ∃ token, readToken json msg = .ok token ∧ c.server.db.validateSession env.now token = .ok u

/-- A step that the server takes on a message; what it queues for somebody is allowed by the token
that the text carries. -/
def Steps (json : JsonLib J) (env : Surroundings) (msg : J) (s s' : Server) : Prop :=
  ∃ m, s.step (.message env.now m) = some (s', [], []) ∧
    ∀ u, Queued s s' u → readToken json msg = .ok m.token

/-- What a handler may do at most. -/
structure Served (json : JsonLib J) (g : GameManager) (env : Surroundings) (msg : J)
    (c c' : Session) (sent : List Response) : Prop where
  server : c'.server = c.server ∨ Steps json env msg c.server c'.server
  user : c'.currentUserId = c.currentUserId ∨ Shows json env msg c c'.currentUserId
  games : c'.games = c.games ∨ ∃ call : GameManager.Call,
    Shows json env msg c call.userId ∧ c'.games = (g.call c.games call).1
  sent : ∀ x ∈ sent, ∀ u, x.Tells c'.currentUserId u →
    u = c'.currentUserId ∧ (u ≠ -1 ∨ Shows json env msg c u)

/-- What is queued for a user who is not synthetic is allowed by a token that is valid for him. -/
lemma Served.shows {c' : Session} {sent : List Response} (h : Served json g env msg c c' sent)
    (hu : 0 ≤ u) (hqueued : Queued c.server c'.server u) : Shows json env msg c u := by
  rcases h.server with hsame | ⟨m, hstep, htoken⟩
  · obtain ⟨task, hqueue, -⟩ := hqueued
    rw [hsame] at hqueue
    simp at hqueue
  · obtain ⟨v, hauth, hv⟩ := step_authenticated hstep hqueued
    split_ifs at hv
    · omega
    · exact ⟨m.token, htoken u hqueued, hv ▸ hauth⟩

/-- Whatever the handler did, it may do. -/
def Serves (json : JsonLib J) (g : GameManager) (env : Surroundings) (msg : J) (c : Session)
    (r : Option Handled) : Prop :=
  ∀ c' sent, r = some (c', sent) → Served json g env msg c c' sent

/-- The handler has at most taken over the user of a token. -/
structure Ready (json : JsonLib J) (env : Surroundings) (msg : J) (c c₁ : Session) : Prop where
  server : c₁.server = c.server
  games : c₁.games = c.games
  user : c₁.currentUserId = c.currentUserId ∨ Shows json env msg c c₁.currentUserId

lemma Ready.refl : Ready json env msg c c := ⟨rfl, rfl, Or.inl rfl⟩

lemma Ready.of_shows (h : Shows json env msg c u) :
    Ready json env msg c { c with currentUserId := u } := ⟨rfl, rfl, Or.inr h⟩

lemma Ready.recognize {token : String} (h : readToken json msg = .ok token) :
    Ready json env msg c (c.recognize env token) := by
  rw [Session.recognize]
  split_ifs
  · exact .refl
  · cases hauth : c.server.db.validateSession env.now token with
    | ok userId => exact .of_shows ⟨token, h, hauth⟩
    | error e => exact .refl

lemma Ready.serves (h : Ready json env msg c c₁) {sent : List Response}
    (hsent : ∀ x ∈ sent, ∀ u, x.Tells c₁.currentUserId u →
      u = c₁.currentUserId ∧ (u ≠ -1 ∨ Shows json env msg c u)) :
    Serves json g env msg c (some (c₁, sent)) := by
  intro c' sent' hr
  obtain ⟨rfl, rfl⟩ := Prod.mk.inj (Option.some.inj hr)
  exact ⟨Or.inl h.server, h.user, Or.inl h.games, hsent⟩

lemma Ready.nothing (h : Ready json env msg c c₁) : Serves json g env msg c (some (c₁, [])) :=
  h.serves fun _ hx => absurd hx List.not_mem_nil

lemma Ready.reject (h : Ready json env msg c c₁) (message : String) :
    Serves json g env msg c (c₁.reject message) := by
  refine h.serves fun x hx u htells => ?_
  rw [List.mem_singleton.mp hx] at htells
  exact htells.elim

lemma Ready.reading (h : Ready json env msg c c₁) {r : Except String α} {f : α → Option Handled}
    (hf : ∀ a, r = .ok a → Serves json g env msg c (f a)) :
    Serves json g env msg c (c₁.reading r f) := by
  cases r with
  | ok a => exact hf a rfl
  | error e => exact h.nothing

lemma Ready.answer (h : Ready json env msg c c₁) {r : Except String Server}
    (hr : ∀ s, r = .ok s → Steps json env msg c.server s) :
    Serves json g env msg c (some (c₁.answer [] r)) := by
  cases r with
  | error message => exact h.reject message
  | ok s =>
    intro c' sent hsome
    obtain ⟨rfl, rfl⟩ := Prod.mk.inj (Option.some.inj hsome)
    exact ⟨Or.inr (hr s rfl), h.user, Or.inl h.games, fun _ hx => absurd hx List.not_mem_nil⟩

lemma serves_answerGame (h : Shows json env msg c u) (call : GameManager.Call)
    (hcall : call.userId = u) :
    Serves json g env msg c
      (some (({ c with currentUserId := u }).answerGame (g.call c.games call))) := by
  intro c' sent hsome
  rcases hresult : g.call c.games call with ⟨games, result⟩
  rw [hresult] at hsome
  have hplayed : games = c.games ∨ ∃ call : GameManager.Call,
      Shows json env msg c call.userId ∧ games = (g.call c.games call).1 :=
    Or.inr ⟨call, hcall ▸ h, by rw [hresult]⟩
  cases result with
  | ok msgs =>
    obtain ⟨rfl, rfl⟩ := Prod.mk.inj (Option.some.inj hsome)
    refine ⟨Or.inl rfl, Or.inr h, hplayed, fun x hx v htells => ?_⟩
    obtain ⟨m, -, rfl⟩ := List.mem_map.mp hx
    obtain rfl : v = u := htells
    exact ⟨rfl, Or.inr h⟩
  | error e =>
    cases e with
    | gameError what =>
      obtain ⟨rfl, rfl⟩ := Prod.mk.inj (Option.some.inj hsome)
      refine ⟨Or.inl rfl, Or.inr h, hplayed, fun x hx v htells => ?_⟩
      rw [List.mem_singleton.mp hx] at htells
      exact htells.elim
    | stoi =>
      obtain ⟨rfl, rfl⟩ := Prod.mk.inj (Option.some.inj hsome)
      exact ⟨Or.inl rfl, Or.inr h, hplayed, fun _ hx => absurd hx List.not_mem_nil⟩

/-- A handler that goes on as the user of a token. -/
lemma serves_authenticated (message : String) {f : Session → Option Handled}
    (hf : ∀ u, Shows json env msg c u → Serves json g env msg c (f { c with currentUserId := u })) :
    Serves json g env msg c (c.authenticated json env msg message f) := by
  refine Ready.refl.reading fun token htoken => ?_
  cases hauth : c.server.db.validateSession env.now token with
  | ok u => exact hf u ⟨token, htoken, hauth⟩
  | error e => exact Ready.refl.reject message

/-! ### The handlers -/

lemma serves_handleSnapshot : Serves json g env msg c (c.handleSnapshot json env msg) := by
  refine Ready.refl.reading fun token htoken => ?_
  have hready : Ready json env msg c (c.recognize env token) := .recognize htoken
  refine hready.reading fun companyId _ => ?_
  intro c' sent hsome
  obtain ⟨rfl, rfl⟩ := Prod.mk.inj (Option.some.inj hsome)
  refine ⟨Or.inr ⟨.snapshot (some companyId), ?_, ?_⟩, hready.user, Or.inl hready.games, ?_⟩
  · rw [hready.server]
    rfl
  · rintro u ⟨task, hqueue, htask⟩
    rw [hready.server] at hqueue
    obtain rfl := List.singleton_inj.mp (List.append_cancel_left hqueue)
    cases htask
  · intro x hx u htells
    rw [userUpdate] at hx
    split_ifs at hx with hnobody
    · exact absurd hx List.not_mem_nil
    · rw [List.mem_singleton.mp hx] at htells
      obtain rfl : u = (c.recognize env token).currentUserId := htells
      exact ⟨rfl, Or.inl hnobody⟩

lemma serves_handleSwitchEngine :
    Serves json g env msg c (c.handleSwitchEngine json msg) := by
  refine Ready.refl.reading fun mode _ => ?_
  refine Ready.refl.answer fun s hs => ⟨.switchEngine mode, ?_, ?_⟩
  · simp only [step, Server.handleMessage, hs, Option.map_some]
  · intro u hqueued
    simp only [Server.handleSwitchEngine] at hs
    split_ifs at hs
    all_goals
      rw [← Except.ok.inj hs] at hqueued
      cases user_of_pushed hqueued

lemma serves_handleMyTrades : Serves json g env msg c (c.handleMyTrades json env msg) := by
  refine Ready.refl.reading fun token htoken => ?_
  have hready : Ready json env msg c (c.recognize env token) := .recognize htoken
  simp only
  split_ifs with hnobody
  · exact hready.reject _
  · refine hready.serves fun x hx u htells => ?_
    rw [List.mem_singleton.mp hx] at htells
    obtain rfl : u = (c.recognize env token).currentUserId := htells
    exact ⟨rfl, Or.inl hnobody⟩

lemma serves_handleGameStart : Serves json g env msg c (c.handleGameStart json g env msg) := by
  refine serves_authenticated _ fun u hu => ?_
  refine (Ready.of_shows hu).reading fun category _ => ?_
  refine (Ready.of_shows hu).reading fun forceNew _ => ?_
  exact serves_answerGame hu (.startSession u category forceNew env.pick env.refusal) rfl

lemma serves_handleGameQuote : Serves json g env msg c (c.handleGameQuote json g env msg) := by
  simp only [handleGameQuote]
  split_ifs
  · exact Ready.refl.reject _
  · refine serves_authenticated _ fun u hu => ?_
    refine (Ready.of_shows hu).reading fun sessionId _ => ?_
    refine (Ready.of_shows hu).reading fun bid _ => (Ready.of_shows hu).reading fun ask _ => ?_
    exact serves_answerGame hu (.submitQuote u sessionId bid ask env.noiseDraw) rfl

lemma serves_handleGameHint : Serves json g env msg c (c.handleGameHint json g env msg) := by
  simp only [handleGameHint, handleGameSession]
  split_ifs
  · exact Ready.refl.reject _
  · refine serves_authenticated _ fun u hu => ?_
    refine (Ready.of_shows hu).reading fun sessionId _ => ?_
    exact serves_answerGame hu (.requestHint u sessionId) rfl

lemma serves_handleGameEnd : Serves json g env msg c (c.handleGameEnd json g env msg) := by
  simp only [handleGameEnd, handleGameSession]
  split_ifs
  · exact Ready.refl.reject _
  · refine serves_authenticated _ fun u hu => ?_
    refine (Ready.of_shows hu).reading fun sessionId _ => ?_
    exact serves_answerGame hu (.endSession u sessionId) rfl

lemma serves_handleCancel : Serves json g env msg c (c.handleCancel json env msg) := by
  simp only [handleCancel]
  split_ifs
  · exact Ready.refl.reject _
  · refine Ready.refl.reading fun token htoken => ?_
    cases hauth : c.server.db.validateSession env.now token with
    | error e => exact Ready.refl.reject _
    | ok u =>
      refine Ready.refl.reading fun companyId _ => Ready.refl.reading fun orderId _ => ?_
      refine Ready.refl.answer fun s hs => ⟨.cancel ⟨token, some companyId, some orderId⟩, ?_,
        fun _ _ => htoken⟩
      simp only [step, Server.handleMessage, hs, Option.map_some]

lemma serves_handleMarketOrder :
    Serves json g env msg c (c.handleMarketOrder json env msg) := by
  simp only [handleMarketOrder]
  split_ifs
  · exact Ready.refl.reject _
  · refine Ready.refl.reading fun token htoken => ?_
    cases hauth : c.server.db.validateSession env.now token with
    | error e => exact Ready.refl.reject _
    | ok u =>
      have hready : Ready json env msg c { c with currentUserId := u } :=
        .of_shows ⟨token, htoken, hauth⟩
      refine hready.reading fun companyId _ => hready.reading fun quantity _ => ?_
      refine hready.reading fun timestamp _ => ?_
      intro c' sent hsome
      obtain ⟨r, hr, hsome⟩ := Option.map_eq_some_iff.mp hsome
      refine hready.answer (r := r) (fun s hs => ⟨.marketOrder ⟨token, some companyId,
        some (readSide json msg), some quantity, some timestamp⟩, ?_, fun _ _ => htoken⟩) c' sent
        (congrArg some hsome)
      have hr : c.server.handleMarketOrder env.now ⟨token, some companyId,
        some (readSide json msg), some quantity, some timestamp⟩ = some r := hr
      simp only [step, Server.handleMessage, hr, hs, Option.map_some]

lemma serves_handleOrder : Serves json g env msg c (c.handleOrder json env msg) := by
  simp only [handleOrder]
  split_ifs
  · exact Ready.refl.reject _
  · refine Ready.refl.reading fun companyId _ => Ready.refl.reading fun price _ => ?_
    refine Ready.refl.reading fun quantity _ => Ready.refl.reading fun timestamp _ => ?_
    split_ifs
    · exact Ready.refl.reject _
    · refine Ready.refl.reading fun token htoken => ?_
      cases hauth : c.server.db.validateSession env.now token with
      | error e => exact Ready.refl.reject _
      | ok u =>
        have hready : Ready json env msg c { c with currentUserId := u } :=
          .of_shows ⟨token, htoken, hauth⟩
        refine hready.reading fun stress _ => hready.reading fun syntheticUserId _ => ?_
        refine hready.answer fun s hs => ⟨.order ⟨token, some companyId, some (readSide json msg),
          some price, some quantity, some timestamp, stress, some syntheticUserId⟩, ?_,
          fun _ _ => htoken⟩
        simp only [step, Server.handleMessage, hs, Option.map_some]

/-- **A message** that is neither a registration nor a login does no more than it may. -/
theorem serves_handleMessage {accounts : Accounts J} {raw type : String}
    (hparse : json.parse raw = .ok msg) (hobject : json.isObject msg = true)
    (htype : readType json msg = .ok type) (hregister : type ≠ "register")
    (hlogin : type ≠ "login") :
    Serves json g env msg c (c.handleMessage json g env accounts raw) := by
  simp only [handleMessage, reading, hparse, hobject, htype, Bool.not_true, Bool.false_eq_true,
    if_false]
  split
  · exact absurd rfl hregister
  · exact absurd rfl hlogin
  · refine Ready.refl.serves fun x hx u htells => ?_
    rw [List.mem_singleton.mp hx] at htells
    exact htells.elim
  · exact serves_handleSnapshot
  · exact serves_handleSwitchEngine
  · exact serves_handleMyTrades
  · exact serves_handleGameStart
  · exact serves_handleGameQuote
  · exact serves_handleGameHint
  · exact serves_handleGameEnd
  · exact serves_handleCancel
  · exact serves_handleMarketOrder
  · exact serves_handleOrder
  · exact Ready.refl.nothing

end Session

end ExchangeEngine
