import Mathlib.Data.Nat.Dist
import Mathlib.Data.Nat.Log
import Mathlib.Tactic.Common

/-!
# Rounding and shortest numerals

Natural numbers are rounded to a number of significant bits, with ties to even. A rounded number is
written with the shortest numeral that is rounded to it.
-/

namespace Rounding

/-! ### Rounding to a multiple -/

/-- The nearest multiple of `unit`; of two that are equally near, the even one. -/
def toMultiple (unit n : Nat) : Nat :=
  if n % unit * 2 < unit ∨ n % unit * 2 = unit ∧ n / unit % 2 = 0 then n / unit * unit
  else (n / unit + 1) * unit

variable {unit m n p e : Nat}

lemma le_toMultiple : n / unit * unit ≤ toMultiple unit n := by
  simp only [toMultiple]
  split_ifs
  · exact Nat.le_refl _
  · exact Nat.mul_le_mul_right unit (Nat.le_succ _)

lemma toMultiple_le : toMultiple unit n ≤ (n / unit + 1) * unit := by
  simp only [toMultiple]
  split_ifs
  · exact Nat.mul_le_mul_right unit (Nat.le_succ _)
  · exact Nat.le_refl _

lemma dvd_toMultiple : unit ∣ toMultiple unit n := by
  simp only [toMultiple]
  split_ifs
  · exact Nat.dvd_mul_left unit _
  · exact Nat.dvd_mul_left unit _

lemma toMultiple_of_dvd (hu : 0 < unit) (h : unit ∣ n) : toMultiple unit n = n := by
  simp only [toMultiple]
  rw [if_pos, Nat.div_mul_cancel h]
  left
  rw [Nat.mod_eq_zero_of_dvd h]
  exact hu

lemma toMultiple_mono (h : m ≤ n) : toMultiple unit m ≤ toMultiple unit n := by
  rcases (Nat.div_le_div_right (c := unit) h).lt_or_eq with hlt | heq
  · calc toMultiple unit m ≤ (m / unit + 1) * unit := toMultiple_le
      _ ≤ n / unit * unit := Nat.mul_le_mul_right unit hlt
      _ ≤ toMultiple unit n := le_toMultiple
  · have hrest : m % unit ≤ n % unit := by
      have hm := Nat.div_add_mod m unit
      have hn := Nat.div_add_mod n unit
      rw [heq] at hm
      omega
    simp only [toMultiple]
    rw [heq]
    split_ifs with hdown hdown'
    · exact Nat.le_refl _
    · exact Nat.mul_le_mul_right unit (Nat.le_succ _)
    · exfalso
      omega
    · exact Nat.le_refl _

/-! ### Rounding to significant bits -/

/-- The number with `p` significant bits that is nearest. -/
def toBits (p n : Nat) : Nat := toMultiple (2 ^ (n.log2 - (p - 1))) n

lemma toBits_eq_self_iff : toBits p n = n ↔ 2 ^ (n.log2 - (p - 1)) ∣ n := by
  constructor
  · intro h
    have hdvd : 2 ^ (n.log2 - (p - 1)) ∣ toBits p n := dvd_toMultiple
    rw [h] at hdvd
    exact hdvd
  · exact toMultiple_of_dvd (Nat.two_pow_pos _)

/-- A power of two, and what is below it, is rounded to at most it. -/
lemma toBits_le_two_pow (h : n ≤ 2 ^ e) (he : n.log2 ≤ e) : toBits p n ≤ 2 ^ e := by
  have hdvd : 2 ^ (n.log2 - (p - 1)) ∣ 2 ^ e := Nat.pow_dvd_pow 2 (by omega)
  calc toBits p n ≤ toMultiple (2 ^ (n.log2 - (p - 1))) (2 ^ e) :=
      toMultiple_mono h
    _ = 2 ^ e := toMultiple_of_dvd (Nat.two_pow_pos _) hdvd

lemma two_pow_le_toBits (hn : n ≠ 0) : 2 ^ n.log2 ≤ toBits p n := by
  have hdvd : 2 ^ (n.log2 - (p - 1)) ∣ 2 ^ n.log2 := Nat.pow_dvd_pow 2 (Nat.sub_le _ _)
  calc 2 ^ n.log2 = toMultiple (2 ^ (n.log2 - (p - 1))) (2 ^ n.log2) :=
      (toMultiple_of_dvd (Nat.two_pow_pos _) hdvd).symm
    _ ≤ toBits p n := toMultiple_mono (Nat.log2_self_le hn)

lemma toBits_le (p n : Nat) : toBits p n ≤ 2 ^ (n.log2 + 1) :=
  toBits_le_two_pow Nat.lt_log2_self.le (Nat.le_succ _)

@[simp] lemma toBits_zero : toBits p 0 = 0 := by
  rw [toBits_eq_self_iff]
  exact Nat.dvd_zero _

lemma toBits_mono (p : Nat) : Monotone (toBits p) := by
  intro m n h
  rcases Nat.eq_zero_or_pos m with rfl | hm
  · rw [toBits_zero]
    exact Nat.zero_le _
  · have hn : n ≠ 0 := (hm.trans_le h).ne'
    have hlog : m.log2 ≤ n.log2 := by
      rw [Nat.le_log2 hn]
      exact (Nat.log2_self_le hm.ne').trans h
    rcases hlog.lt_or_eq with hlt | heq
    · calc toBits p m ≤ 2 ^ (m.log2 + 1) := toBits_le p m
        _ ≤ 2 ^ n.log2 := Nat.pow_le_pow_right (by decide) hlt
        _ ≤ toBits p n := two_pow_le_toBits hn
    · simp only [toBits]
      rw [heq]
      exact toMultiple_mono h

/-- What is rounded stays. -/
lemma toBits_toBits (p n : Nat) : toBits p (toBits p n) = toBits p n := by
  rcases Nat.eq_zero_or_pos n with rfl | hn
  · rw [toBits_zero, toBits_zero]
  · rw [toBits_eq_self_iff]
    rcases (toBits_le p n).lt_or_eq with hlt | heq
    · have hlog : (toBits p n).log2 = n.log2 :=
        (Nat.log2_eq_iff ((Nat.two_pow_pos _).trans_le (two_pow_le_toBits hn.ne')).ne').mpr
          ⟨two_pow_le_toBits hn.ne', hlt⟩
      rw [hlog]
      exact dvd_toMultiple
    · rw [heq, Nat.log2_two_pow]
      exact Nat.pow_dvd_pow 2 (Nat.sub_le _ _)

/-- What has few enough bits is not changed. -/
lemma toBits_of_lt (h : n < 2 ^ p) : toBits p n = n := by
  rw [toBits_eq_self_iff]
  rcases Nat.eq_zero_or_pos n with rfl | hn
  · exact Nat.dvd_zero _
  · have hlog : n.log2 < p := (Nat.log2_lt hn.ne').mpr h
    rw [Nat.sub_eq_zero_of_le (by omega), Nat.pow_zero]
    exact Nat.one_dvd n

/-! ### Shortest numerals -/

section Numerals

variable (f : Nat → Nat) (base : Nat)

/-- The multiple of `unit` that `f` takes to `x` and that is nearest to `x`; of two the even one. -/
def nearest (unit x : Nat) : Option Nat :=
  let down := x / unit * unit
  let up := x / unit * unit + unit
  if f down = x then
    if f up = x ∧ (up - x < x - down ∨ up - x = x - down ∧ x / unit % 2 = 1) then some up
    else some down
  else if f up = x then some up
  else none

/-- The number with the shortest numeral, of at most `k` zeros at its end, that `f` takes to `x`. -/
def numeral : Nat → Nat → Nat
  | 0, x => x
  | k + 1, x => (nearest f (base ^ (k + 1)) x).getD (numeral k x)

/-- `m` has `j` zeros at the end, and is what is written for `x`: no numeral of the same number is
shorter, and none that is as short is nearer. -/
structure IsNumeral (k j x m : Nat) : Prop where
  le : j ≤ k
  dvd : base ^ j ∣ m
  denotes : f m = x
  shortest : ∀ i n, j < i → i ≤ k → base ^ i ∣ n → f n ≠ x
  nearest : ∀ n, base ^ j ∣ n → f n = x → Nat.dist x m ≤ Nat.dist x n
  even : ∀ n, base ^ j ∣ n → f n = x → Nat.dist x m = Nat.dist x n → n ≠ m → m / base ^ j % 2 = 0

variable {f base} {unit x m n k j : Nat}

/-- Every multiple that `f` takes to `x` lies beyond one next to `x` that it takes there, too. -/
lemma next_of_denotes (hf : Monotone f) (hx : f x = x) (hu : 0 < unit) (hdvd : unit ∣ n)
    (hn : f n = x) : n ≤ x / unit * unit ∧ f (x / unit * unit) = x ∨
      x / unit * unit + unit ≤ n ∧ f (x / unit * unit + unit) = x := by
  obtain ⟨q, rfl⟩ := hdvd
  rcases Nat.lt_or_ge (x / unit) q with hq | hq
  · have hle : x / unit * unit + unit ≤ unit * q := by
      rw [← Nat.succ_mul, Nat.mul_comm unit q]
      exact Nat.mul_le_mul_right unit hq
    refine Or.inr ⟨hle, Nat.le_antisymm ?_ ?_⟩
    · exact (hf hle).trans hn.le
    · exact hx.ge.trans (hf (Nat.lt_div_mul_add hu).le)
  · have hle : unit * q ≤ x / unit * unit := by
      rw [Nat.mul_comm unit q]
      exact Nat.mul_le_mul_right unit hq
    refine Or.inl ⟨hle, Nat.le_antisymm ?_ ?_⟩
    · exact (hf (Nat.div_mul_le_self x unit)).trans hx.le
    · exact hn.ge.trans (hf hle)

lemma ne_of_nearest_eq_none (hf : Monotone f) (hx : f x = x) (hu : 0 < unit)
    (h : nearest f unit x = none) (hdvd : unit ∣ n) : f n ≠ x := by
  intro hn
  simp only [nearest] at h
  rcases next_of_denotes hf hx hu hdvd hn with ⟨-, hdown⟩ | ⟨-, hup⟩
  · simp only [hdown, if_true] at h
    split_ifs at h
  · simp only [hup, if_true, true_and] at h
    split_ifs at h

/-- What `nearest` gives is nearest. -/
structure IsNearest (f : Nat → Nat) (unit x m : Nat) : Prop where
  dvd : unit ∣ m
  denotes : f m = x
  nearest : ∀ n, unit ∣ n → f n = x → Nat.dist x m ≤ Nat.dist x n
  even : ∀ n, unit ∣ n → f n = x → Nat.dist x m = Nat.dist x n → n ≠ m → m / unit % 2 = 0

lemma isNearest_of_nearest_eq_some (hf : Monotone f) (hx : f x = x) (hu : 0 < unit)
    (h : nearest f unit x = some m) : IsNearest f unit x m := by
  have hbelow : x / unit * unit ≤ x := Nat.div_mul_le_self x unit
  have habove : x < x / unit * unit + unit := Nat.lt_div_mul_add hu
  have hdvd : unit ∣ x / unit * unit := Nat.dvd_mul_left unit _
  have hdvd' : unit ∣ x / unit * unit + unit := Nat.dvd_add hdvd (Nat.dvd_refl unit)
  unfold nearest at h
  simp only at h
  split_ifs at h with hdown hup hup
  · obtain rfl := Option.some.inj h
    refine ⟨hdvd', hup.1, fun n hn hfn => ?_, fun n hn hfn hdist hne => ?_⟩
    · rcases next_of_denotes hf hx hu hn hfn with ⟨hle, -⟩ | ⟨hle, -⟩
      · simp only [Nat.dist]
        omega
      · simp only [Nat.dist]
        omega
    · simp only [Nat.dist] at hdist
      rw [← Nat.succ_mul, Nat.mul_div_cancel _ hu]
      rcases next_of_denotes hf hx hu hn hfn with ⟨hle, -⟩ | ⟨hle, -⟩
      · omega
      · omega
  · obtain rfl := Option.some.inj h
    refine ⟨hdvd, hdown, fun n hn hfn => ?_, fun n hn hfn hdist hne => ?_⟩
    · rcases next_of_denotes hf hx hu hn hfn with ⟨hle, -⟩ | ⟨hle, hup'⟩
      · simp only [Nat.dist]
        omega
      · have hnot := not_and.mp hup hup'
        simp only [Nat.dist]
        omega
    · simp only [Nat.dist] at hdist
      rw [Nat.mul_div_cancel _ hu]
      rcases next_of_denotes hf hx hu hn hfn with ⟨hle, -⟩ | ⟨hle, hup'⟩
      · omega
      · have hnot := not_and.mp hup hup'
        omega
  · obtain rfl := Option.some.inj h
    refine ⟨hdvd', hup, fun n hn hfn => ?_, fun n hn hfn hdist hne => ?_⟩
    · rcases next_of_denotes hf hx hu hn hfn with ⟨-, hdown'⟩ | ⟨hle, -⟩
      · exact absurd hdown' hdown
      · simp only [Nat.dist]
        omega
    · simp only [Nat.dist] at hdist
      rcases next_of_denotes hf hx hu hn hfn with ⟨-, hdown'⟩ | ⟨hle, -⟩
      · exact absurd hdown' hdown
      · omega

/-- A number is what it is written as without a shorter numeral. -/
lemma isNearest_one (hx : f x = x) : IsNearest f 1 x x := by
  refine ⟨Nat.one_dvd x, hx, fun n _ _ => ?_, fun n _ _ hdist hne => ?_⟩
  · simp [Nat.dist]
  · simp only [Nat.dist] at hdist
    omega

/-- **`numeral` is a shortest numeral.** -/
theorem isNumeral_numeral (hf : Monotone f) (hx : f x = x) (hb : 0 < base) (k : Nat) :
    ∃ j, IsNumeral f base k j x (numeral f base k x) := by
  induction k with
  | zero =>
    have h := isNearest_one hx
    refine ⟨0, Nat.le_refl 0, h.dvd, h.denotes, fun i n hi hle => absurd hi hle.not_gt, ?_, ?_⟩
    · exact h.nearest
    · exact h.even
  | succ k ih =>
    have hu : 0 < base ^ (k + 1) := Nat.pow_pos hb
    rw [numeral]
    cases hnear : nearest f (base ^ (k + 1)) x with
    | some m =>
      have h := isNearest_of_nearest_eq_some hf hx hu hnear
      exact ⟨k + 1, Nat.le_refl _, h.dvd, h.denotes, fun i n hi hle => absurd hi hle.not_gt,
        h.nearest, h.even⟩
    | none =>
      obtain ⟨j, h⟩ := ih
      refine ⟨j, h.le.trans (Nat.le_succ k), h.dvd, h.denotes, fun i n hi hle hdvd => ?_,
        h.nearest, h.even⟩
      rcases hle.lt_or_eq with hlt | rfl
      · exact h.shortest i n hi (Nat.le_of_lt_succ hlt) hdvd
      · exact ne_of_nearest_eq_none hf hx hu hnear hdvd

/-- There is one shortest numeral. -/
lemma IsNumeral.unique {j' m' : Nat} (hx : f x = x) (hb : 0 < base) (h : IsNumeral f base k j x m)
    (h' : IsNumeral f base k j' x m') : m = m' := by
  obtain rfl : j = j' := by
    rcases Nat.lt_trichotomy j j' with hlt | heq | hlt
    · exact absurd h'.denotes (h.shortest j' m' hlt h'.le h'.dvd)
    · exact heq
    · exact absurd h.denotes (h'.shortest j m hlt h.le h.dvd)
  have hu : 0 < base ^ j := Nat.pow_pos hb
  have hdist := Nat.le_antisymm (h.nearest m' h'.dvd h'.denotes) (h'.nearest m h.dvd h.denotes)
  by_contra hne
  have heven := h.even m' h'.dvd h'.denotes hdist (Ne.symm hne)
  have heven' := h'.even m h.dvd h.denotes hdist.symm hne
  obtain ⟨q, hq⟩ := h.dvd
  obtain ⟨q', hq'⟩ := h'.dvd
  rw [hq, Nat.mul_div_cancel_left _ hu] at heven
  rw [hq', Nat.mul_div_cancel_left _ hu] at heven'
  -- the two lie on both sides of `x`, which is then a multiple itself
  have hdvd : base ^ j ∣ x := by
    refine ⟨q / 2 + q' / 2, ?_⟩
    have hsum : 2 * x = m + m' := by
      simp only [Nat.dist] at hdist
      omega
    have hhalf : q = 2 * (q / 2) := by omega
    have hhalf' : q' = 2 * (q' / 2) := by omega
    rw [hq, hq', hhalf, hhalf', Nat.mul_left_comm, Nat.mul_left_comm (base ^ j) 2, ← Nat.mul_add,
      ← Nat.mul_add] at hsum
    exact Nat.eq_of_mul_eq_mul_left (by decide) hsum
  have hzero := h.nearest x hdvd hx
  have hzero' := h'.nearest x hdvd hx
  simp only [Nat.dist] at hzero hzero'
  omega

lemma numeral_eq_iff (hf : Monotone f) (hx : f x = x) (hb : 0 < base) :
    numeral f base k x = m ↔ ∃ j, IsNumeral f base k j x m := by
  obtain ⟨j, hj⟩ := isNumeral_numeral hf hx hb k
  constructor
  · rintro rfl
    exact ⟨j, hj⟩
  · rintro ⟨j', hj'⟩
    exact hj.unique hx hb hj'

/-- What no other number is taken to is written out. -/
lemma numeral_eq_self (hf : Monotone f) (hx : f x = x) (hb : 0 < base)
    (h : ∀ n, f n = x → n = x) : numeral f base k x = x := by
  obtain ⟨j, hj⟩ := isNumeral_numeral hf hx hb k
  exact h _ hj.denotes

end Numerals

end Rounding
