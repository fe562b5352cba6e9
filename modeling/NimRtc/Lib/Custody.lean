import Mathlib

/-!
# Handles that are opened, used and given up

What is done with one handle, in the order in which it is done. A handle that is held was opened and
used since; one that was given up was used until then and not any more, which rules out that it is
closed twice.
-/

namespace NimRtc

namespace Custody

inductive Use
  | opened
  | used
  | closed
  /-- It is forgotten without being closed. -/
  | left
  deriving DecidableEq, Repr

def Held (us : List Use) : Prop := ∃ n, us = .opened :: List.replicate n .used

/-- The handle was given up, closed or not. -/
def GivenUp (last : Use) (us : List Use) : Prop :=
  ∃ n, us = .opened :: (List.replicate n .used ++ [last])

variable {us vs : List Use}

theorem eq_replicate_used (h : ∀ u ∈ vs, u = .used) : vs = List.replicate vs.length .used :=
  List.eq_replicate_length.2 h

theorem held_opened (h : ∀ u ∈ vs, u = .used) : Held (.opened :: vs) :=
  ⟨vs.length, by rw [← eq_replicate_used h]⟩

theorem Held.append (hus : Held us) (h : ∀ u ∈ vs, u = .used) : Held (us ++ vs) := by
  obtain ⟨n, rfl⟩ := hus
  refine ⟨n + vs.length, ?_⟩
  rw [eq_replicate_used h, List.cons_append, List.replicate_append_replicate,
    List.length_replicate]

theorem Held.concat (hus : Held us) (last : Use) : GivenUp last (us ++ [last]) := by
  obtain ⟨n, rfl⟩ := hus
  exact ⟨n, rfl⟩

end Custody

end NimRtc

/-!
## Reference counts

Slots that hold pointers, and a count for each target. When each slot that is filled counts up and each
slot that is cleared counts down, what the count has more than the slots say stays the same.
-/

namespace NimRtc

namespace RefCount

variable {κ R : Type*} [DecidableEq κ] [AddCommGroupWithOne R]

/-- The slots that hold a pointer to the target. -/
def holders (slots : List (Option κ)) (c : κ) : ℕ := slots.count (some c)

/-- What a pointer counts for the target. -/
def weight (R : Type*) [AddCommGroupWithOne R] (p : Option κ) (c : κ) : R := if p = some c then 1 else 0

/-- What the count has more than the slots say. -/
def excess (count : κ → R) (slots : List (Option κ)) (c : κ) : R := count c - holders slots c

variable {count count' : κ → R} {slots : List (Option κ)} {c : κ} {p q : Option κ} {i : ℕ}

@[simp] theorem weight_none : weight R none c = 0 := rfl

theorem holders_concat : (holders (slots ++ [p]) c : R) = holders slots c + weight R p c := by
  unfold holders weight
  rw [List.count_append, List.count_singleton, Nat.cast_add]
  by_cases h : p = some c <;> simp [h]

theorem holders_set (h : slots[i]? = some p) :
    (holders (slots.set i q) c : R) = holders slots c - weight R p c + weight R q c := by
  obtain ⟨hlt, hget⟩ := List.getElem?_eq_some_iff.1 h
  unfold holders weight
  rw [List.count_set hlt, hget, Nat.cast_add]
  by_cases hp : p = some c
  · have hpos : 1 ≤ slots.count (some c) :=
      List.count_pos_iff.2 (hp ▸ hget ▸ List.getElem_mem hlt)
    by_cases hq : q = some c <;> simp [hp, hq, Nat.cast_sub hpos]
  · by_cases hq : q = some c <;> simp [hp, hq]

/-- A new slot that counts. -/
theorem excess_concat (h : count' c = count c + weight R p c) :
    excess count' (slots ++ [p]) c = excess count slots c := by
  unfold excess
  rw [h, holders_concat]
  abel

/-- A slot that counts down for what it held, and up for what it holds. -/
theorem excess_set (hslot : slots[i]? = some p)
    (h : count' c = count c - weight R p c + weight R q c) :
    excess count' (slots.set i q) c = excess count slots c := by
  unfold excess
  rw [h, holders_set hslot]
  abel

/-- A pointer that goes from one slot to a new one. -/
theorem excess_move (hslot : slots[i]? = some p) (h : count' c = count c) :
    excess count' (slots.set i none ++ [p]) c = excess count slots c := by
  unfold excess
  rw [h, holders_concat, holders_set hslot, weight_none]
  abel

/-- A pointer that goes from one slot to another, which counts down for what it held. -/
theorem excess_moveAssign {j : ℕ} (hne : i ≠ j) (hi : slots[i]? = some p) (hj : slots[j]? = some q)
    (h : count' c = count c - weight R p c) :
    excess count' ((slots.set i q).set j none) c = excess count slots c := by
  have hj' : (slots.set i q)[j]? = some q := by rw [List.getElem?_set_ne hne, hj]
  unfold excess
  rw [h, holders_set hj', holders_set hi, weight_none]
  abel

end RefCount

end NimRtc
