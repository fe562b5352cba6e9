import Mathlib

/-!
# Rasters

Rows of bytes at a fixed distance in a buffer. If a row fits into the distance, each byte has a place of
its own, between the start of the raster and its end.
-/

namespace NimRtc

structure Raster where
  offset : ℕ
  stride : ℕ
  width : ℕ
  height : ℕ

namespace Raster

variable {r : Raster} {i i' j j' : ℕ}

/-- The place of byte `i` of row `j`. -/
def pos (r : Raster) (j i : ℕ) : ℕ := r.offset + j * r.stride + i

/-- The place behind all of it. -/
def stop (r : Raster) : ℕ := r.offset + r.stride * r.height

theorem offset_le_pos (r : Raster) (j i : ℕ) : r.offset ≤ r.pos j i :=
  (Nat.le_add_right _ _).trans (Nat.le_add_right _ _)

theorem pos_lt_stop (hw : r.width ≤ r.stride) (hj : j < r.height) (hi : i < r.width) :
    r.pos j i < r.stop := by
  have hrow : (j + 1) * r.stride ≤ r.height * r.stride := Nat.mul_le_mul_right _ hj
  calc r.pos j i < r.offset + j * r.stride + r.stride := Nat.add_lt_add_left (hi.trans_le hw) _
    _ = r.offset + (j + 1) * r.stride := by rw [Nat.succ_mul, Nat.add_assoc]
    _ ≤ r.offset + r.height * r.stride := Nat.add_le_add_left hrow _
    _ = r.stop := by rw [stop, Nat.mul_comm]

theorem pos_inj (hw : r.width ≤ r.stride) (hi : i < r.width) (hi' : i' < r.width)
    (h : r.pos j i = r.pos j' i') : j = j' ∧ i = i' := by
  have hpos : 0 < r.stride := (Nat.zero_le i).trans_lt (hi.trans_le hw)
  simp only [pos, Nat.add_assoc, Nat.add_left_cancel_iff] at h
  have hdiv := congrArg (· / r.stride) h
  have hmod := congrArg (· % r.stride) h
  simp only [Nat.mul_comm _ r.stride, Nat.mul_add_div hpos, Nat.div_eq_of_lt (hi.trans_le hw),
    Nat.div_eq_of_lt (hi'.trans_le hw), Nat.add_zero, Nat.mul_add_mod,
    Nat.mod_eq_of_lt (hi.trans_le hw), Nat.mod_eq_of_lt (hi'.trans_le hw)] at hdiv hmod
  exact ⟨hdiv, hmod⟩

/-- One raster ends before the other starts. -/
theorem pos_ne_pos {q : Raster} (hw : r.width ≤ r.stride) (hj : j < r.height) (hi : i < r.width)
    (h : r.stop ≤ q.offset) : r.pos j i ≠ q.pos j' i' :=
  ((pos_lt_stop hw hj hi).trans_le (h.trans (q.offset_le_pos j' i'))).ne

/-- Without a gap between the rows, the places are counted through. -/
theorem range_mul (w : ℕ) : ∀ h : ℕ, List.range (w * h)
    = (List.range h).flatMap fun j => (List.range w).map fun i => j * w + i
  | 0 => rfl
  | h + 1 => by
    rw [List.range_succ, List.flatMap_append, ← range_mul w h, Nat.mul_succ, List.range_add]
    simp [Nat.mul_comm]

end Raster

end NimRtc
