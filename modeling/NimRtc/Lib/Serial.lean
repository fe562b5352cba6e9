import Mathlib

/-!
# Serial numbers

A counter that never wraps is seen on the wire modulo `M`. The forward distance between two such
readings is the distance between the counters while they are less than `M` apart, and the
readings are told apart while they are less than `M` apart.
-/

namespace NimRtc

/-- How far forward `i` is from `j`, modulo `M`. -/
def serialDist (M i j : ℕ) : ℕ := (i + (M - j % M)) % M

theorem serialDist_of_le {M i j : ℕ} (hji : j ≤ i) (h : i < j + M) : serialDist M i j = i - j := by
  have hM : 0 < M := by omega
  have hj := Nat.div_add_mod j M
  have hlt := Nat.mod_lt j hM
  have hi : i + (M - j % M) = (i - j) + M * (j / M + 1) := by
    rw [Nat.mul_add]
    omega
  rw [serialDist, hi, Nat.add_mul_mod_self_left, Nat.mod_eq_of_lt (by omega)]

theorem serialDist_of_lt {M i j : ℕ} (hij : i < j) (h : j ≤ i + M) :
    serialDist M i j = i + M - j := by
  have hM : 0 < M := by omega
  have hj := Nat.div_add_mod j M
  have hlt := Nat.mod_lt j hM
  have hi : i + (M - j % M) = (i + M - j) + M * (j / M) := by omega
  rw [serialDist, hi, Nat.add_mul_mod_self_left, Nat.mod_eq_of_lt (by omega)]

theorem serialDist_mod (M i j : ℕ) : serialDist M (i % M) (j % M) = serialDist M i j := by
  simp only [serialDist, Nat.mod_mod, Nat.mod_add_mod]

/-- Two counters less than `M` apart with the same reading are the same. -/
theorem eq_of_mod_eq {M i j : ℕ} (h : i % M = j % M) (hij : i < j + M) (hji : j < i + M) :
    i = j := by
  rcases Nat.lt_or_ge i j with hlt | hle
  · have hd := serialDist_of_lt hlt (Nat.le_of_lt hji)
    rw [← serialDist_mod, h, serialDist_mod, serialDist_of_le (Nat.le_refl _) (by omega)] at hd
    omega
  · have hd := serialDist_of_le hle hij
    rw [← serialDist_mod, h, serialDist_mod, serialDist_of_le (Nat.le_refl _) (by omega)] at hd
    omega

/-- The readings of a 32-bit counter span less than half of its range. -/
def SpanHalf (readings : List UInt32) : Prop :=
  ∃ base : UInt32, ∀ r ∈ readings, (r - base).toNat < 2 ^ 31

end NimRtc
