import ExchangeEngine.IOrderBook
import ExchangeEngine.Library.Scan

/-!
# The hierarchical bitmap

One side of the book marks its non-empty price levels in three levels of 64-bit words: a bit of
`l1` for every price, a bit of `l2` for every `l1` word, a bit of `l3` for every `l2` word. The
C++ code has one copy of each function for bids and one for asks; they differ in the arrays
they touch and in the direction of the scan, bids from the highest price and asks from the
lowest, which is the parameter `desc` here.

`Rep m P` is the meaning of a bitmap as a set of prices. Setting and clearing a bit are
insertion and removal, and the best price is the first element in scanning order.
-/

namespace ExchangeEngine

open Scan

/-- `BITMAP_L1_SIZE` -/
def bitmapL1Size : Nat := maxPrice / 64 + 1

/-- `BITMAP_L2_SIZE` -/
def bitmapL2Size : Nat := bitmapL1Size / 64 + 1

structure Bitmap where
  l1 : Nat → BitVec 64
  l2 : Nat → BitVec 64
  l3 : BitVec 64

namespace Bitmap

/-- All words zero. -/
def zero : Bitmap := ⟨fun _ => 0#64, fun _ => 0#64, 0#64⟩

/-- Reading a word of the `l1` array; undefined outside its bounds. -/
def readL1 (m : Bitmap) (i : Nat) : Option (BitVec 64) :=
  if i < bitmapL1Size then some (m.l1 i) else none

/-- Reading a word of the `l2` array; undefined outside its bounds. -/
def readL2 (m : Bitmap) (i : Nat) : Option (BitVec 64) :=
  if i < bitmapL2Size then some (m.l2 i) else none

/-- `63 - __builtin_clzll(x)` when `desc`, else `__builtin_ctzll(x)`; both are undefined at 0. -/
def scanBit (desc : Bool) (x : BitVec 64) : Option Nat :=
  if x = 0#64 then none else some (firstBit desc x)

/-- `set_bids_bit` and `set_asks_bit` -/
def setBit (m : Bitmap) (price : Nat) : Bitmap :=
  let l1Idx := price / 64
  let l2Idx := l1Idx / 64
  { l1 := Function.update m.l1 l1Idx (m.l1 l1Idx ||| 1#64 <<< (price % 64))
    l2 := Function.update m.l2 l2Idx (m.l2 l2Idx ||| 1#64 <<< (l1Idx % 64))
    l3 := m.l3 ||| 1#64 <<< l2Idx }

/-- `clear_bids_bit` and `clear_asks_bit` -/
def clearBit (m : Bitmap) (price : Nat) : Bitmap :=
  let l1Idx := price / 64
  let l2Idx := l1Idx / 64
  let w1 := clear (m.l1 l1Idx) (price % 64)
  let m := { m with l1 := Function.update m.l1 l1Idx w1 }
  if w1 = 0#64 then
    let w2 := clear (m.l2 l2Idx) (l1Idx % 64)
    let m := { m with l2 := Function.update m.l2 l2Idx w2 }
    if w2 = 0#64 then { m with l3 := clear m.l3 l2Idx } else m
  else m

/-- `get_best_bid` (`desc`) and `get_best_ask` -/
def getBest (desc : Bool) (m : Bitmap) : Option Nat :=
  if m.l3 = 0#64 then some nullIdx
  else do
    let l3Bit ← scanBit desc m.l3
    let l2Bit ← scanBit desc (← m.readL2 l3Bit)
    let l1Idx := l3Bit * 64 + l2Bit
    let l1Bit ← scanBit desc (← m.readL1 l1Idx)
    some (l1Idx * 64 + l1Bit)

/-! ### The set of prices a bitmap stands for -/

/-- The `l1` bits are the prices satisfying `P`, all below `MAX_PRICE`, and every summary bit says
whether the word it summarises is non-zero. -/
structure Rep (m : Bitmap) (P : Nat → Prop) : Prop where
  l1 : ∀ p, (m.l1 (p / 64)).getLsbD (p % 64) = true ↔ P p
  l2 : ∀ i, (m.l2 (i / 64)).getLsbD (i % 64) = true ↔ m.l1 i ≠ 0#64
  l3 : ∀ j, m.l3.getLsbD j = true ↔ m.l2 j ≠ 0#64
  lt : ∀ p, P p → p < maxPrice

variable {m : Bitmap} {P Q : Nat → Prop}

lemma rep_zero : Rep zero fun _ => False where
  l1 := by simp [zero]
  l2 := by simp [zero]
  l3 := by simp [zero]
  lt := by simp

lemma Rep.congr (h : Rep m P) (hPQ : ∀ p, P p ↔ Q p) : Rep m Q where
  l1 := fun p => (h.l1 p).trans (hPQ p)
  l2 := h.l2
  l3 := h.l3
  lt := fun p hp => h.lt p ((hPQ p).mpr hp)

/-- A word of a row is non-zero exactly when one of its bits is set in the row. -/
lemma word_ne_zero_iff (x : Nat → BitVec 64) (i : Nat) :
    x i ≠ 0#64 ↔ ∃ p, p / 64 = i ∧ (x (p / 64)).getLsbD (p % 64) = true := by
  rw [ne_zero_iff]
  constructor
  · rintro ⟨k, hk, h⟩
    refine ⟨i * 64 + k, by omega, ?_⟩
    rwa [show (i * 64 + k) / 64 = i by omega, show (i * 64 + k) % 64 = k by omega]
  · rintro ⟨p, rfl, h⟩
    exact ⟨p % 64, by omega, h⟩

lemma Rep.l1_ne_zero (h : Rep m P) (i : Nat) : m.l1 i ≠ 0#64 ↔ ∃ p, p / 64 = i ∧ P p := by
  rw [word_ne_zero_iff]
  exact exists_congr fun p => and_congr_right fun _ => h.l1 p

lemma Rep.l2_ne_zero (h : Rep m P) (j : Nat) : m.l2 j ≠ 0#64 ↔ ∃ i, i / 64 = j ∧ m.l1 i ≠ 0#64 := by
  rw [word_ne_zero_iff]
  exact exists_congr fun i => and_congr_right fun _ => h.l2 i

/-- Only words inside the `l1` array are non-zero. -/
lemma Rep.l1_lt (h : Rep m P) {i : Nat} (hi : m.l1 i ≠ 0#64) : i < bitmapL1Size := by
  obtain ⟨p, rfl, hp⟩ := (h.l1_ne_zero i).mp hi
  have := h.lt p hp
  simp only [bitmapL1Size]
  omega

lemma Rep.l2_lt (h : Rep m P) {j : Nat} (hj : m.l2 j ≠ 0#64) : j < bitmapL2Size := by
  obtain ⟨i, rfl, hi⟩ := (h.l2_ne_zero j).mp hj
  have := h.l1_lt hi
  simp only [bitmapL2Size]
  omega

/-! ### Insertion and removal -/

lemma getLsbD_update_set (x : Nat → BitVec 64) (p q : Nat) :
    (Function.update x (p / 64) (x (p / 64) ||| 1#64 <<< (p % 64)) (q / 64)).getLsbD (q % 64)
      = ((x (q / 64)).getLsbD (q % 64) || decide (q = p)) := by
  by_cases hw : q / 64 = p / 64
  · rw [hw, Function.update_self, getLsbD_set]
    have : (q % 64 = p % 64) ↔ q = p := by omega
    have hlt : q % 64 < 64 := by omega
    simp [this, hlt]
  · have : q ≠ p := by rintro rfl; exact hw rfl
    simp [Function.update_of_ne hw, this]

lemma getLsbD_update_clear (x : Nat → BitVec 64) (p q : Nat) :
    (Function.update x (p / 64) (clear (x (p / 64)) (p % 64)) (q / 64)).getLsbD (q % 64)
      = ((x (q / 64)).getLsbD (q % 64) && decide (q ≠ p)) := by
  by_cases hw : q / 64 = p / 64
  · rw [hw, Function.update_self, getLsbD_clear]
    have : (q % 64 = p % 64) ↔ q = p := by omega
    simp [this]
  · have : q ≠ p := by rintro rfl; exact hw rfl
    simp [Function.update_of_ne hw, this]

/-- A word in which bit `k` was set is non-zero. -/
lemma or_ne_zero (x : BitVec 64) {k : Nat} (hk : k < 64) : x ||| 1#64 <<< k ≠ 0#64 := by
  rw [ne_zero_iff]
  exact ⟨k, hk, by simp [hk]⟩

lemma update_set_ne_zero (x : Nat → BitVec 64) (p i : Nat) :
    Function.update x (p / 64) (x (p / 64) ||| 1#64 <<< (p % 64)) i ≠ 0#64
      ↔ x i ≠ 0#64 ∨ i = p / 64 := by
  by_cases hi : i = p / 64
  · subst hi
    simpa using or_ne_zero _ (Nat.mod_lt _ (by decide))
  · simp [hi]

/-- `set_*_bit` inserts the price. -/
theorem Rep.setBit (h : Rep m P) {price : Nat} (hp : price < maxPrice) :
    Rep (m.setBit price) fun p => P p ∨ p = price where
  l1 p := by
    have := h.l1 p
    simp only [Bitmap.setBit, getLsbD_update_set, Bool.or_eq_true, decide_eq_true_eq, this]
  l2 i := by
    have := h.l2 i
    simp only [Bitmap.setBit, getLsbD_update_set, update_set_ne_zero, Bool.or_eq_true,
      decide_eq_true_eq, this]
  l3 j := by
    have hj := h.l3 j
    have hlt : price / 64 / 64 < 64 := by simp only [maxPrice] at hp; omega
    have h64 : j = price / 64 / 64 → j < 64 := by rintro rfl; exact hlt
    simp only [Bitmap.setBit, getLsbD_set, update_set_ne_zero, Bool.or_eq_true,
      Bool.and_eq_true, decide_eq_true_eq, hj]
    tauto
  lt p hP := by
    rcases hP with hP | rfl
    · exact h.lt p hP
    · exact hp

/-- The emptiness summary of a row after one of its bits is cleared. -/
lemma update_clear_ne_zero (x : Nat → BitVec 64) (p i : Nat) :
    Function.update x (p / 64) (clear (x (p / 64)) (p % 64)) i ≠ 0#64
      ↔ if clear (x (p / 64)) (p % 64) = 0#64 then x i ≠ 0#64 ∧ i ≠ p / 64
        else x i ≠ 0#64 := by
  by_cases hi : i = p / 64
  · subst hi
    rw [Function.update_self]
    split_ifs with hz
    · simp [hz]
    · -- a word that stays non-zero was non-zero before
      have hx : x (p / 64) ≠ 0#64 := fun e => hz (by rw [e]; simp [clear])
      exact iff_of_true hz hx
  · rw [Function.update_of_ne hi]
    split_ifs <;> simp [hi]

/-- `clear_*_bit` removes the price, emptying the summaries only when the last bit goes. -/
theorem Rep.clearBit (h : Rep m P) (price : Nat) :
    Rep (m.clearBit price) fun p => P p ∧ p ≠ price := by
  have hl1 : ∀ p, ((m.clearBit price).l1 (p / 64)).getLsbD (p % 64) = true ↔ P p ∧ p ≠ price := by
    intro p
    have e : (m.clearBit price).l1 = Function.update m.l1 (price / 64)
        (clear (m.l1 (price / 64)) (price % 64)) := by
      simp only [Bitmap.clearBit]
      split_ifs <;> rfl
    rw [e, getLsbD_update_clear, Bool.and_eq_true, decide_eq_true_eq, h.l1]
  refine ⟨hl1, fun i => ?_, fun j => ?_, fun p hp => h.lt p hp.1⟩
  · have hi := h.l2 i
    have hw := update_clear_ne_zero m.l1 price i
    by_cases h1 : clear (m.l1 (price / 64)) (price % 64) = 0#64
    · simp only [h1, if_true] at hw
      by_cases h2 : clear (m.l2 (price / 64 / 64)) (price / 64 % 64) = 0#64 <;>
      · have hc := getLsbD_update_clear m.l2 (price / 64) i
        simp only [Bitmap.clearBit, h1, h2, if_true, if_false] at hc ⊢
        rw [hc, hw, Bool.and_eq_true, decide_eq_true_eq, hi]
    · simp only [h1, if_false] at hw
      simp only [Bitmap.clearBit, h1, if_false]
      exact hi.trans hw.symm
  · have hj := h.l3 j
    have hw := update_clear_ne_zero m.l2 (price / 64) j
    by_cases h1 : clear (m.l1 (price / 64)) (price % 64) = 0#64
    · by_cases h2 : clear (m.l2 (price / 64 / 64)) (price / 64 % 64) = 0#64
      · simp only [h2, if_true] at hw
        simp only [Bitmap.clearBit, h1, h2, if_true, getLsbD_clear, Bool.and_eq_true,
          decide_eq_true_eq, hj, hw]
      · simp only [h2, if_false] at hw
        simp only [Bitmap.clearBit, h1, h2, if_true, if_false]
        exact hj.trans hw.symm
    · simp only [Bitmap.clearBit, h1, if_false]
      exact hj

/-! ### The best price -/

/-- The prices of a bitmap in scanning order. -/
def listing (desc : Bool) (m : Bitmap) : List Nat :=
  (bits desc m.l3).flatMap fun j =>
    (bits desc (m.l2 j)).flatMap fun i =>
      (bits desc (m.l1 (j * 64 + i))).map ((j * 64 + i) * 64 + ·)

/-- A bit that contributes nothing need not be tested. -/
lemma flatMap_bits_eq {α : Type*} (desc : Bool) (x : BitVec 64) (f : Nat → List α)
    (hf : ∀ i < 64, x.getLsbD i = false → f i = []) :
    (bits desc x).flatMap f = (positions desc 64).flatMap f := by
  have hf : ∀ i ∈ positions desc 64, x.getLsbD i = false → f i = [] :=
    fun i hi => hf i (mem_positions.mp hi)
  simp only [bits]
  generalize positions desc 64 = l at hf ⊢
  induction l with
  | nil => rfl
  | cons i l ih =>
    have ih := ih fun k hk => hf k (by simp [hk])
    cases hx : x.getLsbD i with
    | true => simp [hx, ih]
    | false => simp [hx, ih, hf i (by simp) hx]

/-- The three levels list the prices of the set in scanning order. -/
theorem Rep.listing_eq [DecidablePred P] (h : Rep m P) (desc : Bool) :
    m.listing desc = (positions desc maxPrice).filter fun p => decide (P p) := by
  -- an unset `l2` bit summarises a zero word, and so does an unset `l3` bit
  have h1 : ∀ j, ∀ i < 64, (m.l2 j).getLsbD i = false →
      (bits desc (m.l1 (j * 64 + i))).map ((j * 64 + i) * 64 + ·) = [] := by
    intro j i hi hbit
    have hzero : m.l1 (j * 64 + i) = 0#64 := by
      by_contra hne
      have := (h.l2 (j * 64 + i)).mpr hne
      rw [show (j * 64 + i) / 64 = j by omega, show (j * 64 + i) % 64 = i by omega] at this
      simp [this] at hbit
    rw [(bits_eq_nil_iff desc _).mpr hzero, List.map_nil]
  have h2 : ∀ j < 64, m.l3.getLsbD j = false → ((positions desc 64).flatMap fun i =>
      (bits desc (m.l1 (j * 64 + i))).map ((j * 64 + i) * 64 + ·)) = [] := by
    intro j _ hbit
    have hzero : m.l2 j = 0#64 := by
      by_contra hne
      simp [(h.l3 j).mpr hne] at hbit
    refine List.flatMap_eq_nil_iff.mpr fun i hi => h1 j i (mem_positions.mp hi) ?_
    simp [hzero]
  calc m.listing desc
      = (positions desc 64).flatMap fun j => (positions desc 64).flatMap fun i =>
          (bits desc (m.l1 (j * 64 + i))).map ((j * 64 + i) * 64 + ·) := by
        simp only [listing, flatMap_bits_eq desc _ _ (h1 _)]
        exact flatMap_bits_eq desc _ _ h2
    _ = (positions desc (64 * 64)).flatMap fun i => (bits desc (m.l1 i)).map (i * 64 + ·) := by
        simp only [positions_mul, List.flatMap_assoc, List.flatMap_map]
    _ = (positions desc (64 * 64 * 64)).filter fun p => (m.l1 (p / 64)).getLsbD (p % 64) :=
        flatMap_bits_eq_filter desc _ _
    _ = (positions desc (64 * 64 * 64)).filter fun p => decide (P p) :=
        List.filter_congr fun p _ => by rw [Bool.eq_iff_iff, h.l1, decide_eq_true_iff]
    _ = (positions desc maxPrice).filter fun p => decide (P p) :=
        filter_positions_of_lt (by decide) fun p hp => h.lt p (of_decide_eq_true hp)

/-- `get_best_*` never scans a zero word and never leaves the arrays; it returns the first price of
the set in scanning order, or `NULL_IDX` when the set is empty. -/
theorem Rep.getBest_eq [DecidablePred P] (h : Rep m P) (desc : Bool) :
    m.getBest desc
      = some (((positions desc maxPrice).filter fun p => decide (P p)).headD nullIdx) := by
  rw [← h.listing_eq desc, getBest]
  by_cases h3 : m.l3 = 0#64
  · simp [h3, listing, (bits_eq_nil_iff desc _).mpr]
  · -- a set bit of a summary word leads to a non-zero word, so each scan finds a bit
    have hj := (h.l3 _).mp (firstBit_true desc h3)
    have hi := firstBit_true desc hj
    have hlt := firstBit_lt desc hj
    have hi' : m.l1 (firstBit desc m.l3 * 64 + firstBit desc (m.l2 (firstBit desc m.l3)))
        ≠ 0#64 := by
      rw [← h.l2]
      generalize firstBit desc (m.l2 _) = i at hi hlt ⊢
      rwa [show (firstBit desc m.l3 * 64 + i) / 64 = firstBit desc m.l3 by omega,
        show (firstBit desc m.l3 * 64 + i) % 64 = i by omega]
    simp [h3, scanBit, readL2, readL1, h.l2_lt hj, hj, h.l1_lt hi', hi', listing,
      bits_eq_cons desc h3, bits_eq_cons desc hj, bits_eq_cons desc hi']

/-- **The best price** is the one that comes first, and `NULL_IDX` exactly when there is none. -/
theorem Rep.getBest_first (h : Rep m P) (desc : Bool) :
    ∃ best, m.getBest desc = some best ∧ (best = nullIdx ↔ ∀ p, ¬ P p) ∧
      ((∃ p, P p) → P best ∧ ∀ p, P p → p = best ∨ Before desc best p) := by
  classical
  refine ⟨_, h.getBest_eq desc, ?_⟩
  cases hl : (positions desc maxPrice).filter fun p => decide (P p) with
  | nil =>
    have hnone : ∀ p, ¬ P p := by
      intro p hp
      have hmem := List.filter_eq_nil_iff.mp hl p (mem_positions.mpr (h.lt p hp))
      exact hmem (decide_eq_true hp)
    exact ⟨iff_of_true rfl hnone, fun ⟨p, hp⟩ => absurd hp (hnone p)⟩
  | cons best l =>
    obtain ⟨⟨hlt, hbest⟩, hfirst⟩ := before_of_filter_eq_cons hl
    have hbest : P best := of_decide_eq_true hbest
    refine ⟨iff_of_false (ne_nullIdx hlt) fun hnone => hnone best hbest,
      fun _ => ⟨hbest, fun p hp => ?_⟩⟩
    exact hfirst p (h.lt p hp) (decide_eq_true hp)

end Bitmap

end ExchangeEngine
