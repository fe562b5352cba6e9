import Mathlib

/-!
# A ring of cells

`N` cells are written one after the other, and the first again after the last. What was written is
`xs`; a cell that was not written yet holds `d`.
-/

namespace NimRtc

structure RingHolds {α : Type*} (N : ℕ) (d : α) (xs cells : List α) (head : ℕ) : Prop where
  length : cells.length = N
  head : head = xs.length % N
  recent : ∀ i x, xs[i]? = some x → xs.length ≤ i + N → cells[i % N]? = some x
  fresh : ∀ j, xs.length ≤ j → j < N → cells[j]? = some d

namespace RingHolds

variable {α : Type*} {N : ℕ} {d : α} {xs cells : List α} {head : ℕ}

theorem nil (N : ℕ) (d : α) : RingHolds N d [] (List.replicate N d) 0 where
  length := List.length_replicate
  head := (Nat.zero_mod N).symm
  recent i x h _ := by simp at h
  fresh j _ hj := by simp [hj]

theorem push (hN : 0 < N) (h : RingHolds N d xs cells head) (x : α) :
    RingHolds N d (xs ++ [x]) (cells.set head x) ((head + 1) % N) where
  length := by rw [List.length_set, h.length]
  head := by rw [h.head, List.length_append, List.length_singleton, Nat.mod_add_mod]
  recent i y hy hi := by
    rw [List.length_append, List.length_singleton] at hi
    rcases Nat.lt_trichotomy i xs.length with hlt | rfl | hgt
    · -- an older entry is in another cell
      have hne : head ≠ i % N := by
        intro heq
        have hmod : xs.length ≡ i [MOD N] := h.head.symm.trans heq
        have hle := Nat.le_of_dvd (by omega) ((Nat.modEq_iff_dvd' (by omega)).1 hmod.symm)
        omega
      rw [List.getElem?_append_left hlt] at hy
      rw [List.getElem?_set_ne hne]
      exact h.recent i y hy (by omega)
    · rw [List.getElem?_append_right (le_refl _), Nat.sub_self] at hy
      obtain rfl := Option.some.inj hy
      have hcell : xs.length % N < cells.length := by
        rw [h.length]
        exact Nat.mod_lt _ hN
      rw [h.head, List.getElem?_set_self hcell]
    · rw [List.getElem?_eq_none (by rw [List.length_append, List.length_singleton]; omega)] at hy
      cases hy
  fresh j hj hjN := by
    rw [List.length_append, List.length_singleton] at hj
    have hne : head ≠ j := by
      rw [h.head, Nat.mod_eq_of_lt (by omega)]
      omega
    rw [List.getElem?_set_ne hne]
    exact h.fresh j (by omega) hjN

/-- What is in a cell is one of the last `N` entries, or the cell was not written. -/
theorem cell_cases (h : RingHolds N d xs cells head) {x : α} (hx : x ∈ cells) :
    x ∈ xs.drop (xs.length - N) ∨ x = d := by
  obtain ⟨j, hj, rfl⟩ := List.mem_iff_getElem.1 hx
  have hjN : j < N := h.length ▸ hj
  rcases Nat.lt_or_ge j xs.length with hlt | hge
  · -- the last index below the length that falls on this cell
    have hi : xs.length - 1 - (xs.length - 1 - j) % N < xs.length := by omega
    have hlow : (xs.length - 1 - j) % N < N := Nat.mod_lt _ (by omega)
    have hle : (xs.length - 1 - j) % N ≤ xs.length - 1 - j := Nat.mod_le _ _
    have hcell : (xs.length - 1 - (xs.length - 1 - j) % N) % N = j := by
      obtain ⟨q, hq⟩ : ∃ q, xs.length - 1 - j = N * q + (xs.length - 1 - j) % N :=
        ⟨_, (Nat.div_add_mod _ _).symm⟩
      rw [show xs.length - 1 - (xs.length - 1 - j) % N = j + N * q by omega,
        Nat.add_mul_mod_self_left, Nat.mod_eq_of_lt hjN]
    have hrecent := h.recent _ _ (List.getElem?_eq_getElem hi) (by omega)
    rw [hcell, List.getElem?_eq_getElem hj] at hrecent
    refine .inl ?_
    rw [Option.some.inj hrecent, List.mem_iff_getElem?]
    refine ⟨xs.length - 1 - (xs.length - 1 - j) % N - (xs.length - N), ?_⟩
    rw [List.getElem?_drop, ← List.getElem?_eq_getElem hi]
    congr 1
    omega
  · have hfresh := h.fresh j hge hjN
    rw [List.getElem?_eq_getElem hj] at hfresh
    exact .inr (Option.some.inj hfresh)

theorem mem_of_recent (h : RingHolds N d xs cells head) {x : α}
    (hx : x ∈ xs.drop (xs.length - N)) : x ∈ cells := by
  obtain ⟨k, hk⟩ := List.mem_iff_getElem?.1 hx
  rw [List.getElem?_drop] at hk
  exact List.mem_of_getElem? (h.recent _ x hk (by omega))

end RingHolds

end NimRtc
