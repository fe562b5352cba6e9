import Mathlib

/-!
# Blocks of a stream

A stream is cut into blocks of one size, with a remainder that is too short for another. What comes
later is cut as if the remainder stood in front of it, so that the blocks do not depend on how the
stream arrives.
-/

namespace NimRtc

namespace Blocks

variable {α : Type*}

/-- The blocks of `n` elements, one after the other. -/
def blocks (n : ℕ) (xs : List α) : List (List α) :=
  (List.range (xs.length / n)).map fun j => (xs.drop (j * n)).take n

/-- What is left behind the last block. -/
def rest (n : ℕ) (xs : List α) : List α := xs.drop (xs.length / n * n)

variable {n : ℕ} {xs ys block : List α}

theorem blocks_of_lt (h : xs.length < n) : blocks n xs = [] := by
  rw [blocks, Nat.div_eq_of_lt h, List.range_zero, List.map_nil]

theorem rest_of_lt (h : xs.length < n) : rest n xs = xs := by
  rw [rest, Nat.div_eq_of_lt h, Nat.zero_mul, List.drop_zero]

theorem length_append_div (hn : 0 < n) (h : block.length = n) :
    (block ++ xs).length / n = xs.length / n + 1 := by
  rw [List.length_append, h, Nat.add_div_left _ hn]

theorem blocks_append_block (hn : 0 < n) (h : block.length = n) :
    blocks n (block ++ xs) = block :: blocks n xs := by
  rw [blocks, length_append_div hn h, List.range_succ_eq_map, List.map_cons, List.map_map, Nat.zero_mul,
    List.drop_zero, List.take_left' h, blocks]
  refine congrArg (block :: ·) (List.map_congr_left fun j _ => ?_)
  rw [Function.comp_apply, Nat.succ_mul, Nat.add_comm, ← h, List.drop_length_add_append, h]

theorem rest_append_block (hn : 0 < n) (h : block.length = n) :
    rest n (block ++ xs) = rest n xs := by
  rw [rest, length_append_div hn h, Nat.succ_mul, Nat.add_comm, ← h, List.drop_length_add_append, h,
    rest]

/-- Something that keeps to itself as blocks are put in front of it keeps in front of any stream. -/
theorem induction_blocks (hn : 0 < n) {P : List α → Prop} (short : ∀ xs, xs.length < n → P xs)
    (block : ∀ b xs, b.length = n → P xs → P (b ++ xs)) (xs : List α) : P xs := by
  induction hlen : xs.length using Nat.strong_induction_on generalizing xs with
  | _ len ih =>
    by_cases hshort : xs.length < n
    · exact short xs hshort
    · have htake : (xs.take n).length = n := List.length_take_of_le (not_lt.1 hshort)
      rw [← List.take_append_drop n xs]
      exact block _ _ htake (ih _ (by rw [List.length_drop]; omega) _ rfl)

/-- The blocks of what comes later. -/
theorem blocks_append (hn : 0 < n) (xs ys : List α) :
    blocks n (xs ++ ys) = blocks n xs ++ blocks n (rest n xs ++ ys) := by
  induction xs using induction_blocks hn with
  | short xs h => rw [blocks_of_lt h, rest_of_lt h, List.nil_append]
  | block b xs h ih =>
    rw [List.append_assoc, blocks_append_block hn h, blocks_append_block hn h, rest_append_block hn h, ih,
      List.cons_append]

theorem rest_append (hn : 0 < n) (xs ys : List α) : rest n (xs ++ ys) = rest n (rest n xs ++ ys) := by
  induction xs using induction_blocks hn with
  | short xs h => rw [rest_of_lt h]
  | block b xs h ih => rw [List.append_assoc, rest_append_block hn h, rest_append_block hn h, ih]

end Blocks

end NimRtc
