import ExchangeEngine.PriceTime
import Mathlib.Data.List.Find

/-!
# Ids play no part in matching

Renumbering the resting orders commutes with every operation of the price-time-priority book; for
cancellation the renumbering must tell the id apart from those of the resting orders.
-/

namespace ExchangeEngine

/-- The order under another id. -/
def Order.renumber (f : Nat → Nat) (o : Order) : Order := { o with id := f o.id }

def OrderSnapshot.renumber (f : Nat → Nat) (o : OrderSnapshot) : OrderSnapshot :=
  { o with id := f o.id }

def Trade.renumber (f : Nat → Nat) (t : Trade) : Trade :=
  { t with buyOrderId := f t.buyOrderId, sellOrderId := f t.sellOrderId }

namespace Book

def renumber (f : Nat → Nat) (B : Book) : Book := fun s => (B s).map (Order.renumber f)

variable {B : Book} {o : Order} {f : Nat → Nat}

lemma crossing_renumber :
    (B.renumber f).crossing (o.renumber f) = (B.crossing o).map (Order.renumber f) := by
  rw [crossing, renumber, List.filter_map]
  rfl

lemma standing_renumber :
    (B.renumber f).standing (o.renumber f) = (B.standing o).map (Order.renumber f) := by
  rw [standing, renumber, List.filter_map]
  rfl

lemma served_renumber : (B.renumber f).served (o.renumber f)
    = (B.served o).map (Prod.map (Order.renumber f) id) := by
  rw [served, crossing_renumber]
  exact Consume.served_map (fun _ => rfl) fun _ => rfl

lemma fills_renumber :
    (B.renumber f).fills (o.renumber f) = (B.fills o).map (Trade.renumber f) := by
  rw [fills, served_renumber, List.map_map, fills, List.map_map]
  apply List.map_congr_left
  intro x _
  have hside : (o.renumber f).side = o.side := rfl
  simp only [Function.comp_apply, tradeOf, hside]
  split_ifs
  · rfl
  · rfl

lemma short_renumber : (B.renumber f).short (o.renumber f) = B.short o := by
  rw [short, crossing_renumber]
  exact Consume.short_map (fun _ => rfl) fun _ => rfl

lemma selfCrossing_renumber :
    (B.renumber f).selfCrossing (o.renumber f) = (B.selfCrossing o).map (Order.renumber f) := by
  rw [selfCrossing, crossing_renumber]
  exact Consume.blocked_map fun _ => rfl

lemma rejected_renumber : (B.renumber f).rejected (o.renumber f) = B.rejected o := by
  rw [rejected, selfCrossing_renumber, short_renumber, rejected]
  simp only [List.map_eq_nil_iff]

lemma placed_renumber : (B.renumber f).placed (o.renumber f) = B.placed o := by
  rw [placed, selfCrossing_renumber, short_renumber, placed]
  simp only [List.map_eq_nil_iff]

lemma remaining_renumber :
    (B.renumber f).remaining (o.renumber f) = (B.remaining o).map (Order.renumber f) := by
  rw [remaining, crossing_renumber, standing_renumber, remaining, List.map_append]
  congr 1
  exact Consume.left_map (fun _ => rfl) (fun _ _ => rfl) fun _ => rfl

lemma insert_renumber {s : Bool} {l : List Order} :
    insert s (o.renumber f) (l.map (Order.renumber f)) = (insert s o l).map (Order.renumber f) := by
  simp only [insert]
  induction l with
  | nil => rfl
  | cons a l ih =>
    have hprice : ∀ x : Order, (x.renumber f).price = x.price := fun _ => rfl
    rw [List.map_cons, List.orderedInsert_cons, List.orderedInsert_cons, hprice, hprice]
    split_ifs
    · rfl
    · rw [ih, List.map_cons]

/-- Submission commutes with renumbering. -/
theorem submit_renumber : (B.renumber f).submit (o.renumber f) = (B.submit o).renumber f := by
  funext s
  have hside : (o.renumber f).side = o.side := rfl
  rw [submit, placed_renumber, remaining_renumber, hside]
  simp only [renumber, submit]
  split_ifs
  · rfl
  · exact insert_renumber (o := { o with quantity := B.placed o })
  · rfl

/-- `f` tells `id` apart from the ids of the resting orders. -/
def Apart (B : Book) (f : Nat → Nat) (id : Nat) : Prop := ∀ s, ∀ r ∈ B s, f r.id = f id → r.id = id

lemma find_renumber {id : Nat} {userId : Int} (h : B.Apart f id) :
    (B.renumber f).find (f id) userId = (B.find id userId).map (Order.renumber f) := by
  have hmap : B.renumber f true ++ B.renumber f false
      = (B true ++ B false).map (Order.renumber f) := (List.map_append).symm
  rw [find, find, hmap, List.find?_map]
  congr 1
  apply List.find?_congr
  intro r hr
  obtain ⟨s, hr⟩ := mem_sides.mp hr
  have hiff : f r.id = f id ↔ r.id = id := ⟨h s r hr, congrArg f⟩
  simp only [Function.comp_apply, Order.renumber, hiff]

lemma remove_renumber {id : Nat} (h : B.Apart f id) :
    (B.renumber f).remove (f id) = (B.remove id).renumber f := by
  funext s
  rw [remove, renumber, List.filter_map, renumber, remove]
  congr 1
  apply List.filter_congr
  intro r hr
  have hiff : f r.id = f id ↔ r.id = id := ⟨h s r hr, congrArg f⟩
  simp only [Function.comp_apply, Order.renumber, hiff, ne_eq]

/-- Cancellation commutes with a renumbering that tells the id apart. -/
theorem cancel_renumber {id : Nat} {userId : Int} (h : B.Apart f id) :
    ((B.renumber f).cancel (f id) userId).1 = ((B.cancel id userId).1).renumber f := by
  rw [cancel, find_renumber h, cancel]
  cases B.find id userId with
  | some r => exact remove_renumber h
  | none => rfl

/-! ### Listings -/

lemma best_renumber (s : Bool) : (B.renumber f).best s = B.best s := by
  rw [best, renumber, List.map_map, best]
  rfl

lemma atPrice_renumber (s : Bool) (p : Nat) :
    (B.renumber f).atPrice s p = (B.atPrice s p).map (Order.renumber f) := by
  rw [atPrice, renumber, List.filter_map]
  rfl

lemma total_renumber (l : List Order) :
    Consume.total Order.quantity (l.map (Order.renumber f)) = Consume.total Order.quantity l :=
  Consume.total_map fun _ => rfl

lemma depth_renumber (s : Bool) (limit : Nat) : (B.renumber f).depth s limit = B.depth s limit := by
  rw [depth, depth]
  simp only [atPrice_renumber, ne_eq, List.map_eq_nil_iff, List.length_map, total_renumber]

lemma orders_renumber (s : Bool) (limit : Nat) :
    (B.renumber f).orders s limit = (B.orders s limit).map (OrderSnapshot.renumber f) := by
  rw [orders, renumber, List.map_map, orders, List.map_take, List.map_map]
  rfl

end Book

end ExchangeEngine
