import Mathlib.Algebra.GroupWithZero.Nat
import Mathlib.Tactic.Common

/-!
# Numbers as bytes

Numbers of a fixed width are laid out with the low bytes first, and read back at an offset.
-/

namespace Bytes

/-- The `w` low bytes of a number, the lowest first. -/
def encode : Nat → Nat → List Nat
  | 0, _ => []
  | w + 1, n => n % 256 :: encode w (n / 256)

/-- The number with these bytes. -/
def decode : List Nat → Nat
  | [] => 0
  | b :: bytes => b + 256 * decode bytes

/-- The number of `w` bytes at an offset; `none` if it goes beyond the end. -/
def read (w offset : Nat) (bytes : List Nat) : Option Nat :=
  if offset + w ≤ bytes.length then some (decode ((bytes.drop offset).take w)) else none

/-- Numbers of the given widths, one after the other. -/
def layout (fields : List (Nat × Nat)) : List Nat := fields.flatMap fun x => encode x.1 x.2

variable {w n offset : Nat} {bytes : List Nat}

@[simp] lemma length_encode (w n : Nat) : (encode w n).length = w := by
  induction w generalizing n with
  | zero => rfl
  | succ w ih => rw [encode, List.length_cons, ih]

lemma decode_encode (w n : Nat) : decode (encode w n) = n % 256 ^ w := by
  induction w generalizing n with
  | zero => rw [encode, decode, Nat.pow_zero, Nat.mod_one]
  | succ w ih => rw [encode, decode, ih, Nat.pow_succ', Nat.mod_mul]

lemma length_layout (fields : List (Nat × Nat)) :
    (layout fields).length = (fields.map Prod.fst).sum := by
  simp [layout, List.length_flatMap]

/-- A field is read back from its offset. -/
lemma read_layout (before after : List (Nat × Nat)) (h : (before.map Prod.fst).sum = offset) :
    read w offset (layout (before ++ (w, n) :: after)) = some (n % 256 ^ w) := by
  rw [← length_layout] at h
  subst h
  have hsplit : layout (before ++ (w, n) :: after)
      = layout before ++ (encode w n ++ layout after) := by
    simp only [layout, List.flatMap_append, List.flatMap_cons]
  have hle : (layout before).length + w ≤ (layout (before ++ (w, n) :: after)).length := by
    rw [hsplit, List.length_append, List.length_append, length_encode]
    omega
  have htake : (encode w n ++ layout after).take w = encode w n := by
    have h : (encode w n ++ layout after).take (encode w n).length = encode w n := List.take_left
    rwa [length_encode] at h
  rw [read, if_pos hle, hsplit, List.drop_left, htake, decode_encode]

end Bytes
