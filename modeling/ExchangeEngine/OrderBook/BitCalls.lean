import ExchangeEngine.Library.EventLog
import ExchangeEngine.OrderBook.Basic
import Mathlib.Order.Bounds.Basic

/-!
# The bitmaps as ordered sets

The bit helpers of `OrderBook.h`, called in any order, keep two sets of prices, one for the bids and
one for the asks. A set holds the prices that were set and not cleared since, and the two lookups
answer with its greatest or its least element.
-/

namespace ExchangeEngine

namespace OrderBook

open EventLog

/-! ### Calls -/

/-- A call of a bit helper, for the bids (`true`) or the asks. -/
inductive BitCall
  | set (side : Bool) (price : Nat)
  | clear (side : Bool) (price : Nat)
deriving DecidableEq

namespace BitCall

def price : BitCall → Nat
  | .set _ price => price
  | .clear _ price => price

@[simp] lemma price_set (side : Bool) (p : Nat) : (set side p).price = p := rfl

/-- What a call does to the book. -/
def run (b : OrderBook) : BitCall → OrderBook
  | .set true price => setBidsBit b price
  | .set false price => setAsksBit b price
  | .clear true price => clearBidsBit b price
  | .clear false price => clearAsksBit b price

lemma run_set (b : OrderBook) (side : Bool) (price : Nat) :
    run b (.set side price) = setBit side b price := by
  cases side with
  | true => rfl
  | false => rfl

lemma run_clear (b : OrderBook) (side : Bool) (price : Nat) :
    run b (.clear side price) = clearBit side b price := by
  cases side with
  | true => rfl
  | false => rfl

/-- The words that a call touches lie inside the arrays, and its shift inside the `l3` word. -/
lemma inBounds {call : BitCall} (h : call.price < maxPrice) :
    call.price / 64 < bitmapL1Size ∧ call.price / 64 / 64 < bitmapL2Size ∧
      call.price / 64 / 64 < 64 := by
  simp only [maxPrice, bitmapL1Size, bitmapL2Size] at h ⊢
  omega

end BitCall

/-- One call after the other. -/
def runCalls (b : OrderBook) (calls : List BitCall) : OrderBook := calls.foldl BitCall.run b

/-- The prices of a side that were set and not cleared since. -/
def marked (side : Bool) (calls : List BitCall) : Set Nat :=
  {price | Since (· = .set side price) (· = .clear side price) calls}

variable {b : OrderBook} {calls : List BitCall} {call : BitCall} {side : Bool} {price p : Nat}

lemma runCalls_append_singleton (b : OrderBook) (calls : List BitCall) (call : BitCall) :
    runCalls b (calls ++ [call]) = call.run (runCalls b calls) := by
  rw [runCalls, runCalls, List.foldl_append, List.foldl_cons, List.foldl_nil]

/-! ### One call -/

lemma mem_marked_set {s : Bool} :
    p ∈ marked side (calls ++ [.set s price]) ↔
      p ∈ marked side calls ∨ side = s ∧ p = price := by
  rw [marked, Set.mem_ofPred_eq, since_append_singleton, BitCall.set.injEq, or_comm]
  refine or_congr ?_ ?_
  · exact and_iff_left nofun
  · exact and_congr eq_comm eq_comm

lemma mem_marked_clear {s : Bool} :
    p ∈ marked side (calls ++ [.clear s price]) ↔
      p ∈ marked side calls ∧ ¬ (side = s ∧ p = price) := by
  rw [marked, Set.mem_ofPred_eq, since_append_singleton, BitCall.clear.injEq, eq_comm (a := s),
    eq_comm (a := price)]
  exact or_iff_right nofun

/-- **One call** inserts its price into the set of its side, or removes it, and leaves the set of
the other side alone. -/
lemma rep_run (h : (b.half side).bits.Rep (· ∈ marked side calls)) (hprice : call.price < maxPrice) :
    ((call.run b).half side).bits.Rep (· ∈ marked side (calls ++ [call])) := by
  cases call with
  | set s price =>
    rw [BitCall.run_set, setBit, bits_setBits]
    split_ifs with hs
    · subst hs
      rw [BitCall.price_set] at hprice
      apply (h.setBit hprice).congr
      intro p
      rw [mem_marked_set, and_iff_right rfl]
    · apply h.congr
      intro p
      rw [mem_marked_set, or_iff_left fun hsame => hs hsame.1]
  | clear s price =>
    rw [BitCall.run_clear, clearBit, bits_setBits]
    split_ifs with hs
    · subst hs
      apply (h.clearBit price).congr
      intro p
      rw [mem_marked_clear, and_iff_right rfl]
    · apply h.congr
      intro p
      rw [mem_marked_clear, and_iff_left fun hsame => hs hsame.1]

/-! ### A run -/

/-- **The bitmaps** mark the prices that were set and not cleared since. -/
lemma rep_runCalls (hzero : ∀ side, (b.half side).bits = .zero)
    (hcalls : ∀ call ∈ calls, call.price < maxPrice) (side : Bool) :
    ((b.runCalls calls).half side).bits.Rep (· ∈ marked side calls) := by
  induction calls using List.reverseRecOn with
  | nil =>
    rw [runCalls, List.foldl_nil, hzero]
    exact Bitmap.rep_zero.congr fun p => iff_of_false id not_since_nil
  | append_singleton calls call ih =>
    rw [runCalls_append_singleton]
    apply rep_run
    · exact ih fun call hcall => hcalls call (List.mem_append_left _ hcall)
    · exact hcalls call (List.mem_append_right _ (List.mem_singleton_self call))

/-! ### The lookups -/

/-- The bitmaps stand for the sets `S`, and the lookups answer with their best prices; neither scans
a zero word or reads a word outside the arrays. -/
structure OrderedSets (b : OrderBook) (S : Bool → Set Nat) : Prop where
  bits : ∀ side, (b.half side).bits.Rep (· ∈ S side)
  bestBid : ∃ best, getBestBid b = some best ∧ (best = nullIdx ↔ S true = ∅) ∧
    ((S true).Nonempty → IsGreatest (S true) best)
  bestAsk : ∃ best, getBestAsk b = some best ∧ (best = nullIdx ↔ S false = ∅) ∧
    ((S false).Nonempty → IsLeast (S false) best)

lemma orderedSets_of_rep {S : Bool → Set Nat}
    (h : ∀ side, (b.half side).bits.Rep (· ∈ S side)) : OrderedSets b S where
  bits := h
  bestBid := by
    obtain ⟨best, hbest, hnull, hfirst⟩ := (h true).getBest_first true
    rw [← Set.eq_empty_iff_forall_notMem] at hnull
    refine ⟨best, hbest, hnull, fun hne => ?_⟩
    obtain ⟨hmem, hle⟩ := hfirst hne
    refine ⟨hmem, fun p hp => ?_⟩
    rcases hle p hp with rfl | hlt
    · exact le_refl p
    · exact Nat.le_of_lt hlt
  bestAsk := by
    obtain ⟨best, hbest, hnull, hfirst⟩ := (h false).getBest_first false
    rw [← Set.eq_empty_iff_forall_notMem] at hnull
    refine ⟨best, hbest, hnull, fun hne => ?_⟩
    obtain ⟨hmem, hle⟩ := hfirst hne
    refine ⟨hmem, fun p hp => ?_⟩
    rcases hle p hp with rfl | hlt
    · exact le_refl p
    · exact Nat.le_of_lt hlt

/-- **The bitmaps are ordered sets.** After any calls on prices below `MAX_PRICE`, from words that
are all zero, they stand for the prices that were set and not cleared since; the best bid is the
greatest and the best ask the least of these, and `NULL_IDX` exactly when there is none. -/
theorem bitmaps_ordered (hzero : ∀ side, (b.half side).bits = .zero)
    (hcalls : ∀ call ∈ calls, call.price < maxPrice) :
    OrderedSets (b.runCalls calls) (marked · calls) ∧
      ∀ call ∈ calls, call.price / 64 < bitmapL1Size ∧ call.price / 64 / 64 < bitmapL2Size ∧
        call.price / 64 / 64 < 64 :=
  ⟨orderedSets_of_rep (rep_runCalls hzero hcalls),
    fun call hcall => BitCall.inBounds (hcalls call hcall)⟩

/-- Two bids of which the better one is cleared again, and an ask that does not stay. -/
def sampleCalls : List BitCall :=
  [.set true 99999, .set true 64, .set true 64, .clear true 5, .clear true 99999, .set false 4096,
    .clear false 4096]

theorem bitmaps_ordered_sampleCalls :
    getBestBid (new.runCalls sampleCalls) = some 64 ∧ IsGreatest (marked true sampleCalls) 64 ∧
      getBestAsk (new.runCalls sampleCalls) = some nullIdx ∧ marked false sampleCalls = ∅ := by
  have hzero : ∀ side, (new.half side).bits = .zero := by
    intro side
    cases side with
    | true => rfl
    | false => rfl
  have hcalls : ∀ call ∈ sampleCalls, call.price < maxPrice := by decide
  obtain ⟨⟨-, hbid, hask⟩, -⟩ := bitmaps_ordered hzero hcalls
  have hbid' : getBestBid (new.runCalls sampleCalls) = some 64 := by decide +kernel
  have hask' : getBestAsk (new.runCalls sampleCalls) = some nullIdx := by decide +kernel
  obtain ⟨bid, hfound, hnull, hgreatest⟩ := hbid
  obtain rfl : 64 = bid := Option.some.inj (hbid'.symm.trans hfound)
  obtain ⟨ask, hfound, hempty, -⟩ := hask
  obtain rfl : nullIdx = ask := Option.some.inj (hask'.symm.trans hfound)
  have hne : marked true sampleCalls ≠ ∅ := fun h => absurd (hnull.mpr h) (by decide)
  exact ⟨hbid', hgreatest (Set.nonempty_iff_ne_empty.mpr hne), hask', hempty.mp rfl⟩

end OrderBook

end ExchangeEngine
