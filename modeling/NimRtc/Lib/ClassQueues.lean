import Mathlib

/-!
# Queues of several classes served in a fixed order

There is one first-in first-out queue for each class, and a list of the classes in the order they
are served. `inOrder` lists what waits in that order, and `dropFirst` is what is left once the
first `n` of it have been served.
-/

namespace NimRtc

namespace ClassQueues

variable {κ β : Type*} [DecidableEq κ]

/-- What waits in the queues of the classes `ks`, in the order it is served. -/
def inOrder (ks : List κ) (q : κ → List β) : List β := ks.flatMap q

/-- The queues once the first `n` of what waits have been served. -/
def dropFirst : List κ → (κ → List β) → ℕ → κ → List β
  | [], q, _ => q
  | k :: ks, q, n => dropFirst ks (Function.update q k ((q k).drop n)) (n - (q k).length)

variable {ks : List κ} {q : κ → List β}

omit [DecidableEq κ] in
@[simp] theorem inOrder_nil : inOrder [] q = [] := rfl

omit [DecidableEq κ] in
@[simp] theorem inOrder_cons (k : κ) : inOrder (k :: ks) q = q k ++ inOrder ks q := rfl

omit [DecidableEq κ] in
theorem mem_inOrder {x : β} : x ∈ inOrder ks q ↔ ∃ k ∈ ks, x ∈ q k := List.mem_flatMap

omit [DecidableEq κ] in
/-- What only one class holds is listed in the order of that class. -/
theorem filter_inOrder {p : β → Bool} {k : κ} : ∀ {ks : List κ}, ks.Nodup → k ∈ ks →
    (∀ k' ∈ ks, k' ≠ k → (q k').filter p = []) → (inOrder ks q).filter p = (q k).filter p
  | k' :: ks, hnd, hk, h => by
    obtain ⟨hk', hks⟩ := List.nodup_cons.1 hnd
    obtain ⟨hhead, htail⟩ := List.forall_mem_cons.1 h
    rw [inOrder_cons, List.filter_append]
    rcases List.mem_cons.1 hk with rfl | hmem
    · have hrest : (inOrder ks q).filter p = [] := by
        rw [inOrder, List.filter_flatMap, List.flatMap_eq_nil_iff]
        intro k' hmem
        refine htail k' hmem ?_
        rintro rfl
        exact hk' hmem
      rw [hrest, List.append_nil]
    · have hne : k' ≠ k := by
        rintro rfl
        exact hk' hmem
      rw [hhead hne, List.nil_append, filter_inOrder hks hmem htail]

omit [DecidableEq κ] in
/-- What waits is ordered as the classes are. -/
theorem pairwise_inOrder {cls : β → κ} {R : κ → κ → Prop} (hR : ∀ k, R k k) (hks : ks.Pairwise R)
    (h : ∀ k ∈ ks, ∀ x ∈ q k, cls x = k) :
    (inOrder ks q).Pairwise fun x y => R (cls x) (cls y) := by
  refine List.pairwise_flatMap.2 ⟨fun k hk => ?_, ?_⟩
  · refine List.pairwise_of_forall_mem_list fun x hx y hy => ?_
    rw [h k hk x hx, h k hk y hy]
    exact hR k
  · refine List.Pairwise.imp_of_mem (fun {k k'} hk hk' hr x hx y hy => ?_) hks
    rwa [h k hk x hx, h k' hk' y hy]

theorem inOrder_update_of_notMem {k : κ} (hk : k ∉ ks) (l : List β) :
    inOrder ks (Function.update q k l) = inOrder ks q := by
  refine List.flatMap_congr fun k' hk' => ?_
  rw [Function.update_of_ne]
  rintro rfl
  exact hk hk'

theorem dropFirst_of_notMem : ∀ {ks : List κ} {q : κ → List β} {k : κ}, k ∉ ks → ∀ n,
    dropFirst ks q n k = q k
  | [], _, _, _, _ => rfl
  | k' :: ks, q, k, hk, n => by
    obtain ⟨hne, hks⟩ := not_or.1 (List.mem_cons.not.1 hk)
    rw [dropFirst, dropFirst_of_notMem hks, Function.update_of_ne hne]

/-- Serving `n` leaves the rest in order. -/
theorem inOrder_dropFirst : ∀ {ks : List κ} {q : κ → List β}, ks.Nodup → ∀ n,
    inOrder ks (dropFirst ks q n) = (inOrder ks q).drop n
  | [], _, _, n => by simp
  | k :: ks, q, hnd, n => by
    obtain ⟨hk, hks⟩ := List.nodup_cons.1 hnd
    rw [inOrder_cons, inOrder_cons, dropFirst, dropFirst_of_notMem hk, Function.update_self,
      inOrder_dropFirst hks, inOrder_update_of_notMem hk, List.drop_append]

/-- Each queue keeps its end. -/
theorem dropFirst_isSuffixOf : ∀ {ks : List κ} {q : κ → List β}, ks.Nodup → ∀ n k,
    dropFirst ks q n k <:+ q k
  | [], _, _, _, _ => List.suffix_rfl
  | k' :: ks, q, hnd, n, k => by
    obtain ⟨hk', hks⟩ := List.nodup_cons.1 hnd
    rw [dropFirst]
    refine (dropFirst_isSuffixOf hks _ k).trans ?_
    rcases eq_or_ne k k' with rfl | hne
    · rw [Function.update_self]
      exact List.drop_suffix n _
    · rw [Function.update_of_ne hne]

@[simp] theorem dropFirst_zero : ∀ {ks : List κ} {q : κ → List β}, dropFirst ks q 0 = q
  | [], _ => rfl
  | k :: ks, q => by
    rw [dropFirst, Nat.zero_sub, dropFirst_zero, List.drop_zero, Function.update_eq_self]

/-- How much waits after a queue is replaced by another. -/
theorem length_inOrder_update : ∀ {ks : List κ}, ks.Nodup → ∀ {k : κ}, k ∈ ks → ∀ l,
    (inOrder ks (Function.update q k l)).length + (q k).length
      = (inOrder ks q).length + l.length
  | k' :: ks, hnd, k, hk, l => by
    obtain ⟨hk', hks⟩ := List.nodup_cons.1 hnd
    rw [inOrder_cons, inOrder_cons, List.length_append, List.length_append]
    rcases List.mem_cons.1 hk with rfl | hmem
    · rw [Function.update_self, inOrder_update_of_notMem hk']
      omega
    · have hne : k' ≠ k := by
        rintro rfl
        exact hk' hmem
      have ih := length_inOrder_update hks hmem l
      rw [Function.update_of_ne hne]
      omega

omit [DecidableEq κ] in
/-- What waits shrinks as the queues do. -/
theorem inOrder_sublist {q' : κ → List β} : ∀ {ks : List κ}, (∀ k ∈ ks, (q' k).Sublist (q k)) →
    (inOrder ks q').Sublist (inOrder ks q)
  | [], _ => List.Sublist.refl _
  | _ :: _, h => by
    obtain ⟨hk, hks⟩ := List.forall_mem_cons.1 h
    exact hk.append (inOrder_sublist hks)

/-- What a class holds after a push was there before, or is what was pushed. -/
theorem mem_update_append {k k' : κ} {r x : β}
    (h : x ∈ Function.update q k (q k ++ [r]) k') : x ∈ q k' ∨ k' = k ∧ x = r := by
  rcases eq_or_ne k' k with rfl | hne
  · rw [Function.update_self, List.mem_append, List.mem_singleton] at h
    exact h.imp_right fun hx => ⟨rfl, hx⟩
  · rw [Function.update_of_ne hne] at h
    exact .inl h

/-- What is queued last in its class comes after what waits in that class and the ones before. -/
theorem inOrder_update_append {before after : List κ} {k : κ} (hnd : (before ++ k :: after).Nodup)
    (x : β) : inOrder (before ++ k :: after) (Function.update q k (q k ++ [x]))
      = inOrder before q ++ q k ++ x :: inOrder after q := by
  obtain ⟨-, hcons, hdisj⟩ := List.nodup_append.1 hnd
  have hbefore : k ∉ before := fun hk => hdisj k hk k List.mem_cons_self rfl
  have hafter : k ∉ after := (List.nodup_cons.1 hcons).1
  have hsplit : ∀ q' : κ → List β,
      inOrder (before ++ k :: after) q' = inOrder before q' ++ (q' k ++ inOrder after q') :=
    fun q' => List.flatMap_append
  rw [hsplit, inOrder_update_of_notMem hbefore, inOrder_update_of_notMem hafter,
    Function.update_self, List.append_assoc, List.append_assoc, List.singleton_append]

/-- An order on what was served and what waits is kept when `x` is queued, if all of it may come
before `x` and `x` before the classes after its own. -/
theorem pairwise_append_update {γ : Type*} {R : γ → γ → Prop} {f : β → γ} {served : List γ}
    {before after : List κ} {k : κ} (hnd : (before ++ k :: after).Nodup) {x : β}
    (h : (served ++ (inOrder (before ++ k :: after) q).map f).Pairwise R)
    (hbefore : ∀ y ∈ served ++ (inOrder (before ++ k :: after) q).map f, R y (f x))
    (hafter : ∀ k' ∈ after, ∀ y ∈ q k', R (f x) (f y)) :
    (served ++ (inOrder (before ++ k :: after) (Function.update q k (q k ++ [x]))).map f).Pairwise
      R := by
  have hsplit : inOrder (before ++ k :: after) q = inOrder before q ++ q k ++ inOrder after q :=
    List.flatMap_append.trans (List.append_assoc ..).symm
  rw [hsplit, List.map_append, ← List.append_assoc] at h hbefore
  rw [inOrder_update_append hnd, List.map_append, ← List.append_assoc, List.map_cons]
  obtain ⟨hfront, hback, hcross⟩ := List.pairwise_append.1 h
  refine List.pairwise_append.2 ⟨hfront, List.pairwise_cons.2 ⟨?_, hback⟩, ?_⟩
  · intro y hy
    obtain ⟨z, hz, rfl⟩ := List.mem_map.1 hy
    obtain ⟨k', hk', hz⟩ := mem_inOrder.1 hz
    exact hafter k' hk' z hz
  · intro y hy z hz
    rcases List.mem_cons.1 hz with rfl | hz
    · exact hbefore y (List.mem_append_left _ hy)
    · exact hcross y hy z hz

end ClassQueues

end NimRtc
