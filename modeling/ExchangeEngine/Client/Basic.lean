import ExchangeEngine.IOrderBook
import Mathlib.Data.List.DropRight
import Mathlib.Logic.Function.Basic

/-!
# The client

The part of `App.js` that keeps track of the orders of the user and of the prices: its handlers for
what the server sends. What is only displayed is left out.
-/

namespace ExchangeEngine

/-- An integer as a `Number`, which has 53 significant bits; ties go to even. -/
def toNumber (n : Nat) : Nat :=
  let unit := 2 ^ (n.log2 - 52)
  let rest := n % unit
  if rest * 2 < unit ∨ rest * 2 = unit ∧ n / unit % 2 = 0 then n / unit * unit
  else (n / unit + 1) * unit

/-! ### Messages -/

/-- A `BinaryTradeMsg`. -/
structure TradeMsg where
  companyId : Nat
  price : Nat
  quantity : Nat
  buyOrderId : Nat
  sellOrderId : Nat

/-- What `book` and `snapshot` messages say about the resting orders. -/
structure BookMsg where
  companyId : Nat
  buyOrders : List OrderSnapshot
  sellOrders : List OrderSnapshot

inductive ServerMsg
  | trade (msg : TradeMsg)
  | book (msg : BookMsg)
  | snapshot (msg : BookMsg) (priceHistory : List Nat)
  | loggedIn (userId : Int)

/-- A row after `JSON.parse`. User ids are small, and 32 bits are exact. -/
def OrderSnapshot.parsed (o : OrderSnapshot) : OrderSnapshot :=
  { o with id := toNumber o.id, timestamp := toNumber o.timestamp }

/-! ### The client -/

/-- A row of "My Open Orders". -/
structure MyOrder extends OrderSnapshot where
  side : Bool
  companyId : Nat
deriving DecidableEq

structure MyOrders where
  buys : List MyOrder
  sells : List MyOrder
deriving DecidableEq

/-- `user` is the id in `userRef`, if somebody is logged in. -/
structure Client where
  user : Option Int
  selectedCompanyId : Option Nat
  myOrdersByCompany : Nat → Option MyOrders
  priceHistory : Nat → Option (List Nat)

namespace Client

/-- Before anything has happened. -/
def initial : Client := ⟨none, none, fun _ => none, fun _ => none⟩

variable (client : Client)

/-- The rows of a user. -/
def mine (userId : Int) (companyId : Nat) (side : Bool) (orders : List OrderSnapshot) :
    List MyOrder :=
  ((orders.map OrderSnapshot.parsed).filter fun o => o.userId = userId).map fun o =>
    { o with side := side, companyId := companyId }

/-- What `msg` says about the orders of a user. -/
def ordersIn (userId : Int) (msg : BookMsg) : MyOrders where
  buys := mine userId msg.companyId true msg.buyOrders
  sells := mine userId msg.companyId false msg.sellOrders

def applyBookSnapshot (msg : BookMsg) : Client :=
  { client with
    selectedCompanyId := some msg.companyId
    myOrdersByCompany :=
      match client.user with
      | some userId =>
        Function.update client.myOrdersByCompany msg.companyId (some (ordersIn userId msg))
      | none => client.myOrdersByCompany }

lemma myOrders_applyBookSnapshot {client : Client} {msg : BookMsg} {userId : Int}
    (h : client.user = some userId) : (client.applyBookSnapshot msg).myOrdersByCompany msg.companyId
      = some (ordersIn userId msg) := by
  rw [applyBookSnapshot, h]
  exact Function.update_self _ _ _

lemma myOrders_applyBookSnapshot_of_ne {client : Client} {msg : BookMsg} {companyId : Nat}
    (h : msg.companyId ≠ companyId) :
    (client.applyBookSnapshot msg).myOrdersByCompany companyId
      = client.myOrdersByCompany companyId := by
  rw [applyBookSnapshot]
  cases client.user with
  | none => rfl
  | some userId => exact Function.update_of_ne h.symm _ _

/-- The handler of a binary trade frame. -/
def onTrade (msg : TradeMsg) : Client :=
  { client with
    priceHistory := Function.update client.priceHistory msg.companyId
      (some ((((client.priceHistory msg.companyId).getD []) ++ [msg.price]).rtake 60)) }

/-- A `book` message is applied if its company is selected, or none. -/
def Applies (msg : BookMsg) : Prop :=
  client.selectedCompanyId = none ∨ client.selectedCompanyId = some msg.companyId

instance (msg : BookMsg) : Decidable (client.Applies msg) := inferInstanceAs (Decidable (_ ∨ _))

/-- `socket.onmessage` -/
def onMessage : ServerMsg → Client
  | .trade msg => client.onTrade msg
  | .book msg => if client.Applies msg then client.applyBookSnapshot msg else client
  | .snapshot msg priceHistory =>
    { client.applyBookSnapshot msg with
      priceHistory := Function.update client.priceHistory msg.companyId
        (some (priceHistory.rtake 60)) }
  | .loggedIn userId => { client with user := some userId }

/-- The part of `handleCompanyChange` that does not wait for the snapshot. -/
def changeCompany (companyId : Nat) : Client :=
  { client with selectedCompanyId := some companyId }

def handleLogout : Client := { client with user := none, myOrdersByCompany := fun _ => none }

end Client

end ExchangeEngine
