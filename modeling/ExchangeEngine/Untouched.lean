import ExchangeEngine.Serving

/-!
# A resting order that matching does not touch

Removing an order that an incoming order neither trades with nor is stopped by makes no difference
to the incoming order, and submitting it makes no difference to the removal.
-/

namespace ExchangeEngine

namespace Book

/-- Self-trade prevention stops `o` in front of the resting order of this id: the first own order
that `o` reaches with something left to trade. -/
def Stops (B : Book) (o : Order) (id : Nat) : Prop :=
  ∃ l₁ x l₂, B.crossing o = l₁ ++ x :: l₂ ∧ x.id = id ∧ (∀ r ∈ l₁, sameOwner o r = false) ∧
    sameOwner o x = true ∧ Consume.total Order.quantity l₁ < o.quantity

/-- `o` trades in `C` as in `B`. -/
structure TradesAlike (B C : Book) (o : Order) : Prop where
  fills : C.fills o = B.fills o
  rejected : C.rejected o = B.rejected o
  placed : C.placed o = B.placed o

variable {B C : Book} {o : Order} {id : Nat} {s : Bool} {L : List Order}

/-- Trades and outcome of an order are decided by the crossing orders. -/
lemma TradesAlike.of_crossing
    (htrades : bookTrades o.side o (C.crossing o) = bookTrades o.side o (B.crossing o))
    (hresult : result o (C.crossing o) = result o (B.crossing o)) : TradesAlike B C o := by
  rw [result_crossing, result_crossing, Prod.mk.injEq] at hresult
  exact ⟨htrades, hresult.1, congrArg Order.quantity hresult.2⟩

/-! ### The side that is matched -/

lemma crossing_remove :
    (B.remove id).crossing o = (B.crossing o).filter fun r => decide (r.id ≠ id) := by
  rw [crossing, remove, crossing, List.filter_comm]

lemma standing_remove :
    (B.remove id).standing o = (B.standing o).filter fun r => decide (r.id ≠ id) := by
  rw [standing, remove, standing, List.filter_comm]

lemma filter_id_eq_self (h : ∀ r ∈ L, r.id ≠ id) :
    (L.filter fun r => decide (r.id ≠ id)) = L :=
  List.filter_eq_self.mpr fun r hr => decide_eq_true (h r hr)

/-- Serving keeps the ids it leaves. -/
lemma leftOf_id_ne (h : ∀ r ∈ L, r.id ≠ id) : ∀ r ∈ leftOf o L, r.id ≠ id := by
  intro r hr
  rcases Consume.mem_left hr with hr | ⟨a, ha, q, -, rfl⟩
  · exact h r hr
  · exact h a ha

/-- An order behind which nothing is served, unless it is itself served or the one that stops. -/
lemma ends_of_untouched {l₁ l₂ : List Order} {x : Order} (hsplit : B.crossing o = l₁ ++ x :: l₂)
    (htrade : ∀ y ∈ B.served o, y.1.id ≠ x.id) (hstop : ¬ B.Stops o x.id) : Ends o l₁ := by
  by_contra hends
  obtain ⟨hnil, hshort⟩ := not_or.mp hends
  have hgo := Consume.blocked_eq_nil_iff.mp (not_not.mp hnil)
  have hlt : Consume.total Order.quantity l₁ < o.quantity := by
    rw [shortOf, Consume.short, Consume.avail_of_blocked_eq_nil (not_not.mp hnil)] at hshort
    exact Nat.lt_of_sub_ne_zero hshort
  cases hown : sameOwner o x with
  | true => exact hstop ⟨l₁, x, l₂, hsplit, rfl, hgo, hown, hlt⟩
  | false =>
    have hserved : ∃ q, (x, q) ∈ B.served o := by
      rw [served, hsplit, Consume.mem_served_iff]
      refine ⟨l₁, l₂, rfl, ?_, hlt⟩
      intro r hr
      rcases List.mem_append.mp hr with hr | hr
      · exact hgo r hr
      · rw [List.mem_singleton.mp hr]
        exact hown
    obtain ⟨q, hq⟩ := hserved
    exact htrade _ hq rfl

/-- **The removed order makes no difference** to an order that does not touch it. -/
theorem Valid.tradesAlike (h : B.Valid) (htrade : ∀ y ∈ B.served o, y.1.id ≠ id)
    (hstop : ¬ B.Stops o id) : TradesAlike B (B.remove id) o ∧
      (B.remove id).remaining o = (B.remaining o).filter fun r => decide (r.id ≠ id) := by
  have hremaining : (B.remaining o).filter (fun r => decide (r.id ≠ id))
      = (leftOf o (B.crossing o)).filter (fun r => decide (r.id ≠ id))
        ++ (B.standing o).filter fun r => decide (r.id ≠ id) := List.filter_append ..
  rw [hremaining]
  by_cases hmem : ∃ x ∈ B.crossing o, x.id = id
  · obtain ⟨x, hx, rfl⟩ := hmem
    obtain ⟨l₁, l₂, hsplit⟩ := List.append_of_mem hx
    have hends := ends_of_untouched hsplit htrade hstop
    -- no other crossing order has its id
    have hnodup : ((B.crossing o).map Order.id).Nodup := by
      refine h.ids.sublist (List.Sublist.map _ (List.filter_sublist.trans ?_))
      cases o.side with
      | true => exact List.sublist_append_right _ _
      | false => exact List.sublist_append_left _ _
    rw [hsplit, List.map_append, List.map_cons, List.nodup_append] at hnodup
    have hl₁ : ∀ r ∈ l₁, r.id ≠ x.id := fun r hr =>
      hnodup.2.2 _ (List.mem_map_of_mem hr) _ List.mem_cons_self
    have hl₂ : ∀ r ∈ l₂, r.id ≠ x.id := fun r hr hid =>
      (List.nodup_cons.mp hnodup.2.1).1 (hid ▸ List.mem_map_of_mem hr)
    have hcrossing : (B.remove x.id).crossing o = l₁ ++ l₂ := by
      rw [crossing_remove, hsplit, List.filter_append, filter_id_eq_self hl₁,
        List.filter_cons_of_neg (by simp), filter_id_eq_self hl₂]
    refine ⟨TradesAlike.of_crossing ?_ ?_, ?_⟩
    · rw [hcrossing, hsplit, bookTrades_append_of_ends hends, bookTrades_append_of_ends hends]
    · rw [hcrossing, hsplit, result_append_of_ends hends, result_append_of_ends hends]
    · rw [remaining, standing_remove, hcrossing, hsplit]
      congr 1
      rw [leftOf_append_of_ends hends, List.filter_append, filter_id_eq_self (leftOf_id_ne hl₁),
        List.filter_cons_of_neg (by simp), filter_id_eq_self hl₂]
      exact leftOf_append_of_ends hends
  · have hne : ∀ r ∈ B.crossing o, r.id ≠ id := fun r hr hid => hmem ⟨r, hr, hid⟩
    have hcrossing : (B.remove id).crossing o = B.crossing o := by
      rw [crossing_remove, filter_id_eq_self hne]
    refine ⟨TradesAlike.of_crossing (by rw [hcrossing]) (by rw [hcrossing]), ?_⟩
    rw [remaining, standing_remove, hcrossing, filter_id_eq_self (leftOf_id_ne hne)]

/-! ### The side that is joined -/

/-- What ranks no better than an outranked order is outranked too. -/
lemma outranks_of_not_outranks {p q r : Nat} (h : Outranks s p q) (h' : ¬ Outranks s r q) :
    Outranks s p r := by
  cases s <;> simp only [Outranks, Scan.Before] at * <;> simp at * <;> omega

/-- Inserting commutes with dropping other orders. -/
lemma insert_filter {p : Order → Bool} (hp : p o = true)
    (h : L.Pairwise fun a b => ¬ Outranks s b.price a.price) :
    insert s o (L.filter p) = (insert s o L).filter p := by
  induction L with
  | nil => simp [insert, hp]
  | cons a l ih =>
    obtain ⟨ha, hl⟩ := List.pairwise_cons.mp h
    by_cases hoa : Outranks s o.price a.price
    · -- the order goes in front of what is left as well
      have hfront : ∀ r ∈ a :: l, Outranks s o.price r.price := by
        intro r hr
        rcases List.mem_cons.mp hr with rfl | hr
        · exact hoa
        · exact outranks_of_not_outranks hoa (ha r hr)
      have hbefore : ∀ r ∈ ([] : List Order), ¬ Outranks s o.price r.price := by simp
      have hall : insert s o ([] ++ a :: l) = [] ++ o :: a :: l := insert_append hbefore hfront
      rw [List.nil_append] at hall
      rw [hall, List.nil_append, List.filter_cons_of_pos hp]
      exact insert_append hbefore fun r hr => hfront r (List.mem_filter.mp hr).1
    · have hall : insert s o (a :: l) = a :: insert s o l := by
        rw [insert, List.orderedInsert_cons, if_neg hoa, insert]
      rw [hall]
      by_cases hpa : p a = true
      · rw [List.filter_cons_of_pos hpa, List.filter_cons_of_pos hpa, ← ih hl, insert,
          List.orderedInsert_cons, if_neg hoa, insert]
      · rw [List.filter_cons_of_neg hpa, List.filter_cons_of_neg hpa, ih hl]

/-- Dropping the inserted order again. -/
lemma filter_insert {p : Order → Bool} (hp : p o = false) :
    (insert s o L).filter p = L.filter p := by
  rw [insert, List.orderedInsert_eq_take_drop, List.filter_append,
    List.filter_cons_of_neg (by simp [hp]), ← List.filter_append, List.takeWhile_append_dropWhile]

/-- **Submission commutes with the removal** of an order it does not touch. -/
theorem Valid.submit_remove (h : B.Valid) (htrade : ∀ y ∈ B.served o, y.1.id ≠ id)
    (hstop : ¬ B.Stops o id) (hid : o.id ≠ id) :
    (B.remove id).submit o = (B.submit o).remove id := by
  obtain ⟨halike, hremaining⟩ := h.tradesAlike htrade hstop
  funext s
  by_cases hs : s = o.side
  · subst hs
    rw [submit_same, halike.placed, Book.remove, Book.remove, submit_same]
    split_ifs
    · rfl
    · exact insert_filter (decide_eq_true hid) (h.priority _)
  · rw [Bool.eq_not_of_ne hs, submit_opposite, hremaining, Book.remove, submit_opposite]

/-- An order that came to rest in full leaves nothing else behind when it is removed. -/
theorem Valid.remove_submit (h : B.Valid) (hnew : ∀ s, ∀ r ∈ B s, r.id ≠ o.id)
    (hfull : B.placed o = o.quantity) : (B.submit o).remove o.id = B := by
  have hpos : ∀ a ∈ B.crossing o, 0 < a.quantity := fun a ha =>
    (h.order _ a (mem_crossing.mp ha).1).2.2
  have hremaining : B.remaining o = B (!o.side) := by
    rw [remaining]
    by_cases hzero : o.quantity = 0
    · rw [hzero, Consume.left_zero, crossing_append_standing (h.priority _)]
    · -- something rests, so nothing crossed
      obtain ⟨hself, hshort⟩ := placed_pos_iff.mp (hfull.trans_ne hzero)
      have hplaced : B.placed o = B.short o := by rw [placed, if_pos hself]
      have havail : Consume.avail (sameOwner o) (B.crossing o) = B.crossing o :=
        Consume.avail_of_blocked_eq_nil hself
      rw [hfull, short, Consume.short, havail] at hplaced
      have hnone : B.crossing o = [] := by
        cases hc : B.crossing o with
        | nil => rfl
        | cons a l =>
          have ha := hpos a (hc ▸ List.mem_cons_self)
          rw [hc, Consume.total_cons] at hplaced
          omega
      rw [← crossing_append_standing (h.priority (!o.side)), hnone, Consume.left_nil]
  funext s
  by_cases hs : s = o.side
  · subst hs
    rw [Book.remove, submit_same, hfull]
    split_ifs
    · exact filter_id_eq_self (hnew _)
    · rw [filter_insert (by simp), filter_id_eq_self (hnew _)]
  · rw [Bool.eq_not_of_ne hs, Book.remove, submit_opposite, hremaining,
      filter_id_eq_self (hnew _)]

/-! ### Cancellations beside the removal -/

lemma find_remove_self {userId : Int} : (B.remove id).find id userId = none := by
  rw [find_eq_none_iff]
  rintro s r hr ⟨hid, -⟩
  exact of_decide_eq_true (List.mem_filter.mp hr).2 hid

lemma find_remove {i : Nat} {userId : Int} (hi : i ≠ id) :
    (B.remove id).find i userId = B.find i userId := by
  rw [find, remove, remove, ← List.filter_append, List.find?_filter, find]
  congr 1
  funext r
  by_cases hr : r.id = i
  · simp [hr, hi]
  · simp [hr]

lemma remove_comm (i j : Nat) : (B.remove i).remove j = (B.remove j).remove i := by
  funext s
  rw [remove, remove, remove, remove, List.filter_comm]

/-- Cancelling another order commutes with the removal. -/
lemma cancel_remove {i : Nat} {userId : Int} (hi : i ≠ id) :
    ((B.remove id).cancel i userId).1 = (B.cancel i userId).1.remove id := by
  rw [cancel, find_remove hi, cancel]
  cases B.find i userId with
  | some r => exact remove_comm id i
  | none => rfl

end Book

end ExchangeEngine
