import Mathlib

/-!
# Registries that hold the newest keys

A registry records values under keys and holds a bounded number of keys. A key that it does not hold is
admitted when it is recorded, and the key that was admitted first is dropped to make room; a key that
it holds gets the new value and keeps its place. A history lists the records, the newest first.
-/

namespace NimRtc

namespace Registry

variable {κ ν : Type*} [DecidableEq κ] (cap : ℕ)

/-- The keys in the order in which they were admitted, the newest first. -/
def admitted : List (κ × ν) → List κ
  | [] => []
  | (k, _) :: h => if k ∈ (admitted h).take cap then admitted h else k :: admitted h

def held (h : List (κ × ν)) : List κ := (admitted cap h).take cap

/-- The value that was recorded last. -/
def latest (h : List (κ × ν)) (k : κ) : Option ν := (h.find? fun r => r.1 = k).map (·.2)

def value (h : List (κ × ν)) (k : κ) : Option ν := if k ∈ held cap h then latest h k else none

variable {cap} {h : List (κ × ν)} {k k' : κ} {v : ν}

theorem held_nil : held cap ([] : List (κ × ν)) = [] := List.take_nil

theorem length_held_le : (held cap h).length ≤ cap := List.length_take_le _ _

theorem held_cons_of_mem (hk : k ∈ held cap h) : held cap ((k, v) :: h) = held cap h := by
  rw [held, admitted, if_pos (by exact hk), held]

theorem held_cons_of_notMem (hk : k ∉ held cap h) :
    held cap ((k, v) :: h) = (k :: held cap h).take cap := by
  rw [held, admitted, if_neg (by exact hk), held]
  cases cap with
  | zero => rfl
  | succ cap =>
    rw [List.take_succ_cons, List.take_succ_cons, List.take_take, min_eq_left (Nat.le_succ cap)]

theorem nodup_held : ∀ h : List (κ × ν), (held cap h).Nodup
  | [] => by
    rw [held_nil]
    exact List.nodup_nil
  | (k, v) :: h => by
    by_cases hk : k ∈ held cap h
    · rw [held_cons_of_mem hk]
      exact nodup_held h
    · rw [held_cons_of_notMem hk]
      exact (List.nodup_cons.2 ⟨hk, nodup_held h⟩).sublist (List.take_sublist _ _)

theorem latest_cons_self : latest ((k, v) :: h) k = some v := by
  rw [latest, List.find?_cons_of_pos (by simp), Option.map_some]

theorem latest_cons_of_ne (hne : k' ≠ k) : latest ((k, v) :: h) k' = latest h k' := by
  rw [latest, List.find?_cons_of_neg (by simpa using hne.symm), latest]

/-- A key that is held was recorded. -/
theorem latest_of_mem_held : ∀ {h : List (κ × ν)}, k ∈ held cap h → (latest h k).isSome
  | [], hk => by
    rw [held_nil] at hk
    exact absurd hk List.not_mem_nil
  | (k₁, v₁) :: h, hk => by
    by_cases hne : k = k₁
    · rw [hne, latest_cons_self]
      rfl
    · rw [latest_cons_of_ne hne]
      refine latest_of_mem_held ?_
      by_cases hk₁ : k₁ ∈ held cap h
      · rwa [held_cons_of_mem hk₁] at hk
      · rw [held_cons_of_notMem hk₁] at hk
        exact (List.mem_cons.1 (List.mem_of_mem_take hk)).resolve_left hne

theorem isSome_value : (value cap h k).isSome ↔ k ∈ held cap h := by
  rw [value]
  split_ifs with hk
  · exact iff_of_true (latest_of_mem_held hk) hk
  · simp [hk]

/-- A new value for a key that is held. -/
theorem value_cons_of_mem (hk : k ∈ held cap h) (k' : κ) :
    value cap ((k, v) :: h) k' = if k' = k then some v else value cap h k' := by
  rw [value, held_cons_of_mem hk]
  by_cases hne : k' = k
  · rw [if_pos hne, hne, if_pos hk, latest_cons_self]
  · rw [if_neg hne, latest_cons_of_ne hne, value]

/-- A new key; the ones that are not dropped keep their values. -/
theorem value_cons_of_notMem (hk : k ∉ held cap h) (k' : κ) :
    value cap ((k, v) :: h) k'
      = if k' ∈ held cap ((k, v) :: h) then if k' = k then some v else value cap h k' else none := by
  rw [value]
  by_cases hmem : k' ∈ held cap ((k, v) :: h)
  · rw [if_pos hmem, if_pos hmem]
    by_cases hne : k' = k
    · rw [if_pos hne, hne, latest_cons_self]
    · rw [held_cons_of_notMem hk] at hmem
      have hold := (List.mem_cons.1 (List.mem_of_mem_take hmem)).resolve_left hne
      rw [if_neg hne, latest_cons_of_ne hne, value, if_pos hold]
  · rw [if_neg hmem, if_neg hmem]

end Registry

end NimRtc
