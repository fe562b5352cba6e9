import Mathlib

/-!
# Buffers that are written from the front

A buffer of a fixed size is filled part by part: each part is copied to where the part before it
ended, and what is not written yet stays as it was.
-/

namespace NimRtc

namespace Buffer

variable {α : Type*}

/-- `memcpy` of `data` to position `pos`. -/
def write (buf : List α) (pos : ℕ) (data : List α) : List α :=
  buf.take pos ++ (data ++ buf.drop (pos + data.length))

theorem length_write {buf data : List α} {pos : ℕ} (h : pos + data.length ≤ buf.length) :
    (write buf pos data).length = buf.length := by
  rw [write, List.length_append, List.length_append, List.length_take, List.length_drop]
  omega

/-- The part after those that are written. -/
theorem write_append {pre rest data : List α} {pos : ℕ} (hpos : pre.length = pos) :
    write (pre ++ rest) pos data = pre ++ (data ++ rest.drop data.length) := by
  rw [write, List.take_left' hpos, ← List.drop_drop, List.drop_left' hpos]

theorem getElem?_write {buf data : List α} {pos : ℕ} (h : pos + data.length ≤ buf.length) (i : ℕ) :
    (write buf pos data)[i]?
      = if pos ≤ i ∧ i < pos + data.length then data[i - pos]? else buf[i]? := by
  have hpos : (buf.take pos).length = pos := List.length_take_of_le (by omega)
  rw [write]
  by_cases hlow : i < pos
  · rw [if_neg (by omega), List.getElem?_append_left (by omega), List.getElem?_take_of_lt hlow]
  · rw [List.getElem?_append_right (by omega), hpos]
    by_cases hin : i < pos + data.length
    · rw [if_pos ⟨by omega, hin⟩, List.getElem?_append_left (by omega)]
    · rw [if_neg (by omega), List.getElem?_append_right (by omega), List.getElem?_drop]
      congr 1
      omega

@[simp] theorem write_nil (buf : List α) (pos : ℕ) : write buf pos [] = buf := by
  simp [write]

/-- A buffer of at least `n` elements has a first part of that size. -/
theorem exists_append {buf : List α} {n : ℕ} (h : n ≤ buf.length) :
    ∃ pre rest, buf = pre ++ rest ∧ pre.length = n :=
  ⟨buf.take n, buf.drop n, (List.take_append_drop n buf).symm, List.length_take_of_le h⟩

end Buffer

end NimRtc
