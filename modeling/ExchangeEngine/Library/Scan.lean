import Mathlib.Data.List.Basic
import Mathlib.Data.BitVec
import Mathlib.Tactic.Common

/-!
# Scanning machine words

The set bits of a word, listed from the top (`desc = true`) or from the bottom
(`desc = false`), and the two ways programs find the first of them: counting leading or
trailing zeros. Clearing the bit that was found leaves the rest of the listing.

The second half is about a loop that takes the first set bit of a word, hands it to a body
that extends an accumulator, clears the bit and stops at a length limit.
-/

namespace Scan

/-! ### Positions in scanning order -/

/-- The positions below `n` in scanning order. -/
def positions (desc : Bool) (n : Nat) : List Nat :=
  if desc then (List.range n).reverse else List.range n

/-- Position `i` is visited before position `k`. -/
def Before (desc : Bool) (i k : Nat) : Prop := if desc then k < i else i < k

instance (desc : Bool) (i k : Nat) : Decidable (Before desc i k) := by
  unfold Before; infer_instance

lemma Before.irrefl (desc : Bool) (i : Nat) : ¬ Before desc i i := by
  cases desc <;> simp [Before]

lemma Before.asymm {desc : Bool} {i k : Nat} (h : Before desc i k) : ¬ Before desc k i := by
  cases desc <;> simp [Before] at h ⊢ <;> omega

lemma Before.trans {desc : Bool} {i k l : Nat} (h : Before desc i k) (h' : Before desc k l) :
    Before desc i l := by
  cases desc <;> simp [Before] at h h' ⊢ <;> omega

lemma Before.of_not {desc : Bool} {i k : Nat} (hne : i ≠ k) (h : ¬ Before desc i k) :
    Before desc k i := by
  cases desc <;> simp [Before] at h ⊢ <;> omega

@[simp] lemma mem_positions {desc : Bool} {n i : Nat} : i ∈ positions desc n ↔ i < n := by
  cases desc <;> simp [positions]

@[simp] lemma length_positions (desc : Bool) (n : Nat) : (positions desc n).length = n := by
  cases desc <;> simp [positions]

lemma nodup_positions (desc : Bool) (n : Nat) : (positions desc n).Nodup := by
  cases desc <;> simp [positions, List.nodup_range]

lemma pairwise_positions (desc : Bool) (n : Nat) :
    (positions desc n).Pairwise (Before desc) := by
  cases desc with
  | false => exact List.pairwise_lt_range
  | true =>
    rw [positions, if_pos rfl, List.pairwise_reverse]
    exact List.pairwise_lt_range

/-- Split the positions at `k`: what is visited before it, `k`, and what is visited after. -/
lemma positions_split (desc : Bool) {n k : Nat} (hk : k < n) :
    ∃ pre post, positions desc n = pre ++ k :: post ∧
      (∀ i ∈ pre, Before desc i k ∧ i < n) ∧ (∀ i ∈ post, Before desc k i ∧ i < n) := by
  obtain ⟨pre, post, h⟩ := List.append_of_mem (mem_positions.mpr hk : k ∈ positions desc n)
  have hp := pairwise_positions desc n
  have hlt : ∀ i ∈ positions desc n, i < n := fun i hi => mem_positions.mp hi
  rw [h] at hp hlt
  obtain ⟨-, hpost, hcross⟩ := List.pairwise_append.mp hp
  refine ⟨pre, post, h, fun i hi => ⟨hcross i hi k (by simp), hlt i (by simp [hi])⟩, ?_⟩
  exact fun i hi => ⟨List.rel_of_pairwise_cons hpost hi, hlt i (by simp [hi])⟩

/-- If `P` holds at `k` and at no earlier position, then `k` heads the listing of `P`, and
dropping `k` from `P` leaves the tail. -/
lemma filter_positions_eq_cons {desc : Bool} {n k : Nat} {P Q : Nat → Bool} (hk : k < n)
    (hP : P k = true) (hfirst : ∀ i, Before desc i k → P i = false)
    (hQ : ∀ i, Q i = (P i && decide (i ≠ k))) :
    (positions desc n).filter P = k :: (positions desc n).filter Q := by
  have hnd := nodup_positions desc n
  obtain ⟨pre, post, h, hpre, -⟩ := positions_split desc hk
  rw [h] at hnd ⊢
  have hkpost : k ∉ post := (List.nodup_cons.mp (List.nodup_append.mp hnd).2.1).1
  have hpreP : pre.filter P = [] := by
    simpa [List.filter_eq_nil_iff] using fun i hi => hfirst i (hpre i hi).1
  have hpreQ : pre.filter Q = [] := by
    simpa [List.filter_eq_nil_iff, hQ] using fun i hi hPi => by
      simp [hfirst i (hpre i hi).1] at hPi
  have hpost : post.filter Q = post.filter P := by
    refine List.filter_congr fun i hi => ?_
    have : i ≠ k := fun e => hkpost (e ▸ hi)
    simp [hQ, this]
  simp [hpreP, hpreQ, hpost, hP, hQ]

/-- What heads a listing comes before everything else in it. -/
lemma before_of_filter_eq_cons {desc : Bool} {n k : Nat} {P : Nat → Bool} {l : List Nat}
    (h : (positions desc n).filter P = k :: l) :
    (k < n ∧ P k = true) ∧ ∀ i < n, P i = true → i = k ∨ Before desc k i := by
  have hmem : ∀ i, i ∈ k :: l ↔ i < n ∧ P i = true := by
    intro i
    rw [← h, List.mem_filter, mem_positions]
  have hp := (pairwise_positions desc n).filter P
  rw [h] at hp
  refine ⟨(hmem k).mp List.mem_cons_self, fun i hi hPi => ?_⟩
  rcases List.mem_cons.mp ((hmem i).mpr ⟨hi, hPi⟩) with rfl | hl
  · exact Or.inl rfl
  · exact Or.inr (List.rel_of_pairwise_cons hp hl)

/-! ### The set bits of a word -/

variable {w : Nat}

/-- The set bits of a word in scanning order. -/
def bits (desc : Bool) (x : BitVec w) : List Nat := (positions desc w).filter x.getLsbD

/-- The first set bit in scanning order, by leading or trailing zeros. -/
def firstBit (desc : Bool) (x : BitVec w) : Nat :=
  if desc then w - 1 - x.clz.toNat else x.ctz.toNat

/-- Clear bit `k`. -/
def clear (x : BitVec w) (k : Nat) : BitVec w := x &&& ~~~(1#w <<< k)

lemma getLsbD_one_shiftLeft (k i : Nat) :
    (1#w <<< k).getLsbD i = (decide (i < w) && decide (i = k)) := by
  simp only [BitVec.getLsbD_shiftLeft, BitVec.getLsbD_one]
  rcases Nat.lt_trichotomy i k with h | rfl | h
  · have : i ≠ k := by omega
    simp [h, this]
  · by_cases hw : i < w <;> simp [hw]
    omega
  · have : i ≠ k := by omega
    have : i - k ≠ 0 := by omega
    simp [*]

@[simp] lemma getLsbD_clear (x : BitVec w) (k i : Nat) :
    (clear x k).getLsbD i = (x.getLsbD i && decide (i ≠ k)) := by
  simp only [clear, BitVec.getLsbD_and, BitVec.getLsbD_not, getLsbD_one_shiftLeft]
  by_cases h : i < w
  · simp [h]
  · simp [BitVec.getLsbD_of_ge x i (by omega)]

lemma getLsbD_set (x : BitVec w) (k i : Nat) :
    (x ||| 1#w <<< k).getLsbD i = (x.getLsbD i || (decide (i < w) && decide (i = k))) := by
  simp only [BitVec.getLsbD_or, getLsbD_one_shiftLeft]

lemma ne_zero_iff (x : BitVec w) : x ≠ 0#w ↔ ∃ i < w, x.getLsbD i = true := by
  constructor
  · intro h
    by_contra hall
    refine h (BitVec.eq_of_getLsbD_eq fun i hi => ?_)
    have : ¬ x.getLsbD i = true := fun hx => hall ⟨i, hi, hx⟩
    simpa using this
  · rintro ⟨i, -, hi⟩ rfl
    simp at hi

@[simp] lemma mem_bits {desc : Bool} {x : BitVec w} {i : Nat} :
    i ∈ bits desc x ↔ i < w ∧ x.getLsbD i = true := by
  simp [bits]

lemma bits_eq_nil_iff (desc : Bool) (x : BitVec w) : bits desc x = [] ↔ x = 0#w := by
  rw [← not_iff_not, ← ne_eq x, ne_zero_iff]
  simp [bits, List.filter_eq_nil_iff]

lemma firstBit_true (desc : Bool) {x : BitVec w} (hx : x ≠ 0#w) :
    x.getLsbD (firstBit desc x) = true := by
  obtain ⟨i, hi, -⟩ := (ne_zero_iff x).mp hx
  cases desc with
  | false => exact BitVec.getLsbD_true_ctz_of_ne_zero hx
  | true => exact BitVec.getLsbD_true_clz_of_ne_zero (by omega) hx

lemma firstBit_lt (desc : Bool) {x : BitVec w} (hx : x ≠ 0#w) : firstBit desc x < w :=
  BitVec.lt_of_getLsbD (firstBit_true desc hx)

lemma false_of_before_firstBit (desc : Bool) {x : BitVec w} {i : Nat}
    (h : Before desc i (firstBit desc x)) : x.getLsbD i = false := by
  cases desc with
  | false => exact BitVec.getLsbD_false_of_lt_ctz h
  | true =>
    -- the value of `x` is below `2 ^ (w - clz x)`, so no bit from there on is set
    have hlt : w - 1 - x.clz.toNat < i := h
    have hle : x.toNat < 2 ^ i :=
      lt_of_lt_of_le BitVec.toNat_lt_two_pow_sub_clz
        (Nat.pow_le_pow_right (by omega) (by omega))
    simpa [BitVec.getLsbD] using Nat.testBit_lt_two_pow hle

/-- The bit found heads the listing; clearing it leaves the tail. -/
theorem bits_eq_cons (desc : Bool) {x : BitVec w} (hx : x ≠ 0#w) :
    bits desc x = firstBit desc x :: bits desc (clear x (firstBit desc x)) :=
  filter_positions_eq_cons (firstBit_lt desc hx) (firstBit_true desc hx)
    (fun _ => false_of_before_firstBit desc) (fun i => by simp)

/-! ### A bit-scanning loop with a length limit -/

variable {α : Type*}

/-- `while (x && acc.size() < limit) { bit = first(x); acc = body(bit, acc); clear bit }`. -/
def loop (desc : Bool) (body : Nat → List α → Option (List α)) (limit : Nat) :
    Nat → BitVec w → List α → Option (List α)
  | 0, _, _ => none
  | fuel + 1, x, acc =>
    if x ≠ 0#w ∧ acc.length < limit then do
      let acc ← body (firstBit desc x) acc
      loop desc body limit fuel (clear x (firstBit desc x)) acc
    else some acc

lemma take_take_append (n : Nat) (l₁ l₂ : List α) :
    (l₁.take n ++ l₂).take n = (l₁ ++ l₂).take n := by
  rcases Nat.le_total l₁.length n with h | h
  · rw [List.take_of_length_le h]
  · rw [List.take_append_of_le_length (by simpa using h), List.take_take, Nat.min_self,
      List.take_append_of_le_length h]

/-- If the body appends the items of each bit, cut at the limit, then the loop appends the
items of all bits, cut at the limit. -/
theorem loop_eq {desc : Bool} {body : Nat → List α → Option (List α)} {limit : Nat}
    {x : BitVec w} {acc : List α} {fuel : Nat} (items : Nat → List α)
    (hbody : ∀ k ∈ bits desc x, ∀ acc : List α, acc.length < limit →
      body k acc = some ((acc ++ items k).take limit))
    (hacc : acc.length ≤ limit) (hfuel : (bits desc x).length < fuel) :
    loop desc body limit fuel x acc
      = some ((acc ++ (bits desc x).flatMap items).take limit) := by
  induction fuel generalizing x acc with
  | zero => omega
  | succ fuel ih =>
    rw [loop]
    split_ifs with h
    · obtain ⟨hx, hlt⟩ := h
      have hcons := bits_eq_cons desc hx
      rw [hcons] at hbody hfuel
      rw [hbody _ (by simp) acc hlt, hcons]
      simp only [Option.bind_eq_bind, Option.bind_some, List.flatMap_cons]
      rw [ih (fun k hk => hbody k (by simp [hk])) (by simp) (by simpa using hfuel),
        ← List.append_assoc, take_take_append]
    · rcases not_and_or.mp h with hx | hlen
      · have hnil : bits desc x = [] := (bits_eq_nil_iff desc x).mpr (not_not.mp hx)
        rw [hnil, List.flatMap_nil, List.append_nil, List.take_of_length_le hacc]
      · have hl : acc.length = limit := by omega
        rw [List.take_append_of_le_length (by omega), ← hl, List.take_length]

lemma length_bits_le (desc : Bool) (x : BitVec w) : (bits desc x).length ≤ w := by
  exact (List.length_filter_le _ _).trans (length_positions desc w).le

/-! ### Words as one long row of bits -/

/-- Splitting positions below `m * n` into `m` blocks of `n` keeps the scanning order. -/
lemma positions_mul (desc : Bool) (m n : Nat) :
    positions desc (m * n)
      = (positions desc m).flatMap fun j => (positions desc n).map (j * n + ·) := by
  have hasc : ∀ m, List.range (m * n)
      = (List.range m).flatMap fun j => (List.range n).map (j * n + ·) := by
    intro m
    induction m with
    | zero => simp
    | succ m ih => rw [Nat.succ_mul, List.range_add, ih, List.range_succ]; simp
  cases desc with
  | false => simpa [positions] using hasc m
  | true =>
    simp only [positions, if_true, hasc m, List.flatMap_def, List.reverse_flatten,
      List.map_map, List.map_reverse]
    rfl

/-- Positions at which `P` cannot hold may be left out of the scan. -/
lemma filter_positions_of_lt {desc : Bool} {n m : Nat} {P : Nat → Bool} (hnm : n ≤ m)
    (hP : ∀ i, P i = true → i < n) :
    (positions desc m).filter P = (positions desc n).filter P := by
  have hasc : (List.range m).filter P = (List.range n).filter P := by
    obtain ⟨d, rfl⟩ := Nat.exists_eq_add_of_le hnm
    rw [List.range_add, List.filter_append, List.append_right_eq_self, List.filter_eq_nil_iff]
    intro i hi hPi
    obtain ⟨j, -, rfl⟩ := List.mem_map.mp hi
    have := hP _ hPi
    omega
  cases desc with
  | false => exact hasc
  | true => simp only [positions, if_true, List.filter_reverse, hasc]

/-- Scanning the set bits of consecutive words is scanning one row of bits. -/
lemma flatMap_bits_eq_filter (desc : Bool) (m : Nat) (x : Nat → BitVec w) :
    ((positions desc m).flatMap fun j => (bits desc (x j)).map (j * w + ·))
      = (positions desc (m * w)).filter fun p => (x (p / w)).getLsbD (p % w) := by
  rw [positions_mul, List.filter_flatMap]
  refine List.flatMap_congr fun j _ => ?_
  rw [List.filter_map, bits]
  refine congrArg _ (List.filter_congr fun i hi => ?_)
  have hi : i < w := mem_positions.mp hi
  simp [Nat.mul_add_div (show 0 < w by omega), Nat.div_eq_of_lt hi, Nat.mod_eq_of_lt hi,
    Nat.mul_comm j w]

end Scan
