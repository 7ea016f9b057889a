import ExchangeEngine.PriceTime

/-!
# Nothing is lost in the book

The quantity of a submitted order is what it traded, what came to rest and what was rejected. And
for any value per unit, what the resting orders are worth changes exactly by what was traded, what
came to rest and what was cancelled.
-/

namespace ExchangeEngine

namespace Book

variable {B : Book} {o x : Order} {unit : Order → Int} {s : Bool}

/-- The quantity of `o` that trades. -/
def traded (B : Book) (o : Order) : Nat := ((B.served o).map Prod.snd).sum

/-- What the resting orders are worth when each unit of an order `r` is worth `unit r`. -/
def held (unit : Order → Int) (B : Book) : Int :=
  Consume.worth Order.quantity unit (B true) + Consume.worth Order.quantity unit (B false)

/-- What the resting orders that trade with `o` give up. -/
def taken (unit : Order → Int) (B : Book) (o : Order) : Int :=
  ((B.served o).map fun r => unit r.1 * r.2).sum

@[simp] lemma held_empty : Book.empty.held unit = 0 := rfl

lemma held_eq (s : Bool) : B.held unit
    = Consume.worth Order.quantity unit (B s) + Consume.worth Order.quantity unit (B (!s)) := by
  cases s with
  | true => rfl
  | false => exact add_comm _ _

lemma placed_add_rejected : B.placed o + B.rejected o = B.short o := by
  simp only [placed, rejected]
  split_ifs
  · exact Nat.add_zero _
  · exact Nat.zero_add _

/-- **A submission loses nothing.** -/
theorem traded_add_placed_add_rejected :
    B.traded o + B.placed o + B.rejected o = o.quantity := by
  have htaken : B.traded o
      = min o.quantity (Consume.total Order.quantity (Consume.avail (sameOwner o) (B.crossing o))) :=
    Consume.total_takes
  rw [Nat.add_assoc, placed_add_rejected, htaken, short, Consume.short]
  omega

/-- What matching leaves on the opposite side, and what it takes from it. -/
lemma worth_remaining (hunit : ∀ r q, unit (Order.reduce r q) = unit r) :
    B.taken unit o + Consume.worth Order.quantity unit (B.remaining o)
      = Consume.worth Order.quantity unit (B (!o.side)) := by
  have hsplit : Consume.worth Order.quantity unit (B (!o.side))
      = Consume.worth Order.quantity unit (B.crossing o)
        + Consume.worth Order.quantity unit (B.standing o) := by
    rw [← Consume.worth_append]
    exact Consume.worth_perm (List.filter_append_perm _ _).symm
  have havail : Consume.worth Order.quantity unit (B.crossing o)
      = Consume.worth Order.quantity unit (Consume.avail (sameOwner o) (B.crossing o))
        + Consume.worth Order.quantity unit (Consume.blocked (sameOwner o) (B.crossing o)) := by
    rw [← Consume.worth_append, Consume.avail_append_blocked]
  have hrest : B.taken unit o + Consume.worth Order.quantity unit
        (Consume.rest Order.quantity Order.reduce o.quantity
          (Consume.avail (sameOwner o) (B.crossing o)))
      = Consume.worth Order.quantity unit (Consume.avail (sameOwner o) (B.crossing o)) :=
    Consume.worth_takes_add_rest (fun _ _ => rfl) hunit
  rw [remaining, Consume.left, Consume.worth_append, Consume.worth_append, hsplit, havail, ← hrest]
  ring

/-- What comes to rest on the side of the order. -/
lemma worth_submit_same (hunit : ∀ r q, unit { r with quantity := q } = unit r) :
    Consume.worth Order.quantity unit (B.submit o o.side)
      = Consume.worth Order.quantity unit (B o.side) + unit o * B.placed o := by
  rw [submit_same]
  split_ifs with hp
  · rw [hp, Nat.cast_zero, mul_zero, add_zero]
  · rw [Consume.worth_perm insert_perm, Consume.worth_cons, hunit, add_comm]

/-- **Submission**: the book gains what came to rest and loses what was taken. -/
theorem held_submit (hunit : ∀ r q, unit { r with quantity := q } = unit r) :
    (B.submit o).held unit + B.taken unit o = B.held unit + unit o * B.placed o := by
  have hremaining : B.taken unit o + Consume.worth Order.quantity unit (B.remaining o)
      = Consume.worth Order.quantity unit (B (!o.side)) := worth_remaining fun r q => hunit r _
  rw [held_eq o.side, held_eq o.side, worth_submit_same hunit, submit_opposite, ← hremaining]
  ring

lemma worth_filter (l : List Order) (p : Order → Bool) :
    Consume.worth Order.quantity unit (l.filter p)
      + Consume.worth Order.quantity unit (l.filter fun r => !p r)
      = Consume.worth Order.quantity unit l := by
  rw [← Consume.worth_append]
  exact Consume.worth_perm (List.filter_append_perm _ _)

/-- A well-formed book holds one order of an id. -/
lemma Valid.filter_id (h : B.Valid) (hx : x ∈ B s) :
    ((B true ++ B false).filter fun r => !decide (r.id ≠ x.id)) = [x] := by
  have hmem : x ∈ B true ++ B false := mem_sides.mpr ⟨s, hx⟩
  have hnodup : (B true ++ B false).Nodup := List.Nodup.of_map _ h.ids
  have hfilter : ((B true ++ B false).filter fun r => !decide (r.id ≠ x.id))
      = (B true ++ B false).filter fun r => decide (r = x) := by
    apply List.filter_congr
    intro r hr
    have hiff : r.id = x.id ↔ r = x :=
      ⟨List.inj_on_of_nodup_map h.ids hr hmem, congrArg Order.id⟩
    simp [hiff]
  rw [hfilter, List.filter_eq, List.count_eq_one_of_mem hnodup hmem]
  rfl

/-- **Cancellation**: the book loses what is left of the order. -/
theorem Valid.held_remove (unit : Order → Int) (h : B.Valid) (hx : x ∈ B s) :
    (B.remove x.id).held unit + unit x * x.quantity = B.held unit := by
  have hone : Consume.worth Order.quantity unit
      ((B true ++ B false).filter fun r => !decide (r.id ≠ x.id)) = unit x * x.quantity := by
    rw [h.filter_id hx, Consume.worth_cons, Consume.worth_nil, add_zero]
  simp only [held]
  rw [← Consume.worth_append, ← Consume.worth_append, ← hone, ← worth_filter (B true ++ B false)
    fun r => decide (r.id ≠ x.id)]
  exact congrArg (· + _) (congrArg _ (List.filter_append ..).symm)

end Book

end ExchangeEngine
