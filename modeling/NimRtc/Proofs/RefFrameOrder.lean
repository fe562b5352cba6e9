import NimRtc.Lib.History
import NimRtc.Lib.Registry
import NimRtc.RefFrames

/-!
# The reference frames that are held

The map and the order are the registry of the 1024 ids that were admitted last. It takes the records
as they come: which of the calls recorded an id makes no difference.
-/

namespace NimRtc

namespace OrderedMap

variable {ν : Type*} {m : List (UInt64 × ν)} {k : UInt64}

def keys (m : List (UInt64 × ν)) : List UInt64 := m.map (·.1)

/-- The entries are in the order of the keys. -/
def Sorted (m : List (UInt64 × ν)) : Prop := (keys m).Pairwise (· < ·)

theorem find_isSome : (find m k).isSome ↔ k ∈ keys m := by
  rw [find, Option.isSome_map, List.find?_isSome, keys, List.mem_map]
  simp

theorem find_eq_none : find m k = none ↔ k ∉ keys m := by
  rw [← find_isSome, Option.not_isSome_iff_eq_none]

theorem find_cons (e : UInt64 × ν) (m : List (UInt64 × ν)) (k : UInt64) :
    find (e :: m) k = if e.1 = k then some e.2 else find m k := by
  rw [find, List.find?_cons]
  by_cases h : e.1 = k <;> simp [h, find]

theorem mem_of_find {v : ν} (h : find m k = some v) : (k, v) ∈ m := by
  obtain ⟨e, hfind, rfl⟩ := Option.map_eq_some_iff.1 h
  have hkey : e.1 = k := by simpa using List.find?_some hfind
  rw [← hkey]
  exact List.mem_of_find?_eq_some hfind

theorem find_of_mem {e : UInt64 × ν} : ∀ {m : List (UInt64 × ν)}, Sorted m → e ∈ m →
    find m e.1 = some e.2
  | [], _, h => absurd h List.not_mem_nil
  | e' :: m, hm, h => by
    obtain ⟨hhead, hrest⟩ := List.pairwise_cons.1 hm
    rw [find_cons]
    rcases List.mem_cons.1 h with rfl | h
    · rw [if_pos rfl]
    · have hlt := hhead e.1 (List.mem_map.2 ⟨e, h, rfl⟩)
      rw [if_neg (UInt64.ne_of_lt hlt), find_of_mem hrest h]

theorem find_assign (v : ν) (k k' : UInt64) : ∀ m : List (UInt64 × ν),
    find (assign k v m) k' = if k' = k then (find m k).map (fun _ => v) else find m k'
  | [] => by
    split_ifs <;> rfl
  | e :: m => by
    have hrest : assign k v (e :: m) = (if e.1 = k then (k, v) else e) :: assign k v m := rfl
    rw [hrest, find_cons, find_assign v k k' m, find_cons, find_cons]
    by_cases he : e.1 = k
    · simp only [he, if_true, Option.map_some]
      by_cases hk : k' = k
      · rw [if_pos hk.symm, if_pos hk]
      · rw [if_neg (Ne.symm hk), if_neg hk, if_neg hk, if_neg (Ne.symm hk)]
    · simp only [he, if_false]
      by_cases hk : k' = k
      · rw [if_neg (by rwa [hk]), if_pos hk, if_pos hk]
      · rw [if_neg hk, if_neg hk]

theorem keys_assign (v : ν) (k : UInt64) (m : List (UInt64 × ν)) : keys (assign k v m) = keys m := by
  rw [keys, assign, List.map_map, keys]
  refine List.map_congr_left fun e _ => ?_
  rw [Function.comp_apply]
  split_ifs with h
  · exact h.symm
  · rfl

theorem find_emplace (v : ν) (k k' : UInt64) : ∀ m : List (UInt64 × ν), k ∉ keys m →
    find (emplace k v m) k' = if k' = k then some v else find m k'
  | [], _ => by
    rw [emplace, find_cons]
    simp only [eq_comm]
  | e :: m, h => by
    rw [keys, List.map_cons, List.mem_cons, not_or] at h
    rw [emplace]
    split_ifs with hlt hk hk
    · rw [find_cons, if_pos hk.symm]
    · rw [find_cons, if_neg (Ne.symm hk)]
    · rw [find_cons, if_neg (by rw [hk]; exact Ne.symm h.1), find_emplace v k k' m h.2, if_pos hk]
    · rw [find_cons, find_cons, find_emplace v k k' m h.2, if_neg hk]

theorem mem_keys_emplace (v : ν) (k k' : UInt64) : ∀ m : List (UInt64 × ν),
    k' ∈ keys (emplace k v m) ↔ k' = k ∨ k' ∈ keys m
  | [] => by simp [emplace, keys]
  | e :: m => by
    rw [emplace]
    split_ifs
    · simp [keys]
    · have := mem_keys_emplace v k k' m
      rw [keys, List.map_cons, List.mem_cons] at *
      rw [keys, List.map_cons, List.mem_cons, this]
      tauto

theorem sorted_emplace (v : ν) (k : UInt64) : ∀ m : List (UInt64 × ν), Sorted m → k ∉ keys m →
    Sorted (emplace k v m)
  | [], _, _ => by simp [emplace, Sorted, keys]
  | e :: m, hm, hk => by
    obtain ⟨hhead, hrest⟩ := List.pairwise_cons.1 hm
    rw [keys, List.map_cons, List.mem_cons, not_or] at hk
    rw [emplace]
    split_ifs with hlt
    · refine List.pairwise_cons.2 ⟨fun k' hk' => ?_, hm⟩
      rcases List.mem_cons.1 hk' with rfl | hk'
      · exact hlt
      · exact UInt64.lt_trans hlt (hhead k' hk')
    · refine List.pairwise_cons.2 ⟨fun k' hk' => ?_, sorted_emplace v k m hrest hk.2⟩
      rcases (mem_keys_emplace v k k' m).1 hk' with rfl | hk'
      · exact UInt64.lt_of_le_of_ne (UInt64.not_lt.1 hlt) (Ne.symm hk.1)
      · exact hhead k' hk'

theorem find_filter (p : UInt64 → Bool) (k : UInt64) : ∀ m : List (UInt64 × ν),
    find (m.filter fun e => p e.1) k = if p k then find m k else none
  | [] => by
    split_ifs <;> rfl
  | e :: m => by
    rw [List.filter_cons, find_cons]
    by_cases hk : e.1 = k
    · by_cases hp : p k
      · rw [hk, if_pos hp, find_cons, if_pos hk, if_pos hp, if_pos rfl]
      · rw [hk, if_neg hp, find_filter p k m, if_neg hp, if_neg hp]
    · rw [if_neg hk, ← find_filter p k m]
      by_cases hp : p e.1
      · rw [if_pos hp, find_cons, if_neg hk]
      · rw [if_neg hp]

theorem sorted_filter (p : UInt64 × ν → Bool) (h : Sorted m) : Sorted (m.filter p) :=
  h.sublist (List.filter_sublist.map _)

end OrderedMap

open OrderedMap

namespace RefFrames

/-! ### Eviction -/

theorem evict_eq (cap : ℕ) : ∀ (order : List UInt64) (m : List (UInt64 × ℤ)),
    evict cap order m
      = (m.filter fun e => e.1 ∉ order.take (order.length - cap), order.drop (order.length - cap))
  | [], m => by simp [evict]
  | oldest :: order, m => by
    rw [evict]
    split_ifs with hfull
    · have hlen : (oldest :: order).length - cap = order.length - cap + 1 := by
        rw [List.length_cons] at hfull ⊢
        omega
      rw [evict_eq cap order, hlen, List.take_succ_cons, List.drop_succ_cons, erase, List.filter_filter]
      refine Prod.ext (List.filter_congr fun e _ => ?_) rfl
      simp [not_or, Bool.and_comm]
    · have hlen : (oldest :: order).length - cap = 0 := by omega
      rw [hlen, List.take_zero, List.drop_zero]
      simp

/-- The map after eviction holds the ids that are still in the order. -/
theorem find_evict {cap : ℕ} {order : List UInt64} {m : List (UInt64 × ℤ)} (hnodup : order.Nodup)
    (hkeys : ∀ k, k ∈ keys m ↔ k ∈ order) (k : UInt64) :
    find (evict cap order m).1 k = if k ∈ (evict cap order m).2 then find m k else none := by
  rw [evict_eq]
  have hfilter := find_filter (fun k => k ∉ order.take (order.length - cap)) k m
  simp only [decide_eq_true_eq] at hfilter ⊢
  rw [hfilter]
  have hsplit := List.take_append_drop (order.length - cap) order
  by_cases hk : k ∈ order
  · have hone : k ∉ order.take (order.length - cap) ↔ k ∈ order.drop (order.length - cap) := by
      rw [← hsplit] at hnodup hk
      constructor
      · exact fun hnot => (List.mem_append.1 hk).resolve_left hnot
      · exact fun hdrop htake => (List.nodup_append.1 hnodup).2.2 k htake k hdrop rfl
    simp only [hone]
  · have hnone : find m k = none := find_eq_none.2 fun h => hk ((hkeys k).1 h)
    rw [hnone, ite_self, ite_self]

/-! ### The registry -/

/-- The state is the registry of a history, the newest record first. -/
structure Represents (s : RefFrames) (h : List (UInt64 × ℤ)) : Prop where
  order : s.refFrameOrder.reverse = Registry.held kRefFrameMapCap h
  find : ∀ k, find s.refFrameToTs k = Registry.value kRefFrameMapCap h k
  sorted : Sorted s.refFrameToTs

namespace Represents

variable {s : RefFrames} {h : List (UInt64 × ℤ)}

theorem mem_order (hs : Represents s h) (k : UInt64) :
    k ∈ s.refFrameOrder ↔ k ∈ Registry.held kRefFrameMapCap h := by
  rw [← hs.order, List.mem_reverse]

theorem mem_keys (hs : Represents s h) (k : UInt64) :
    k ∈ keys s.refFrameToTs ↔ k ∈ s.refFrameOrder := by
  rw [← find_isSome, hs.find, Registry.isSome_value, hs.mem_order]

theorem nodup_order (hs : Represents s h) : s.refFrameOrder.Nodup := by
  rw [← List.nodup_reverse, hs.order]
  exact Registry.nodup_held h

theorem recordVideoRefFrame (hs : Represents s h) (id : UInt64) (ts : ℤ) :
    Represents (s.recordVideoRefFrame id ts) ((id, ts) :: h) := by
  unfold RefFrames.recordVideoRefFrame
  cases hfind : OrderedMap.find s.refFrameToTs id with
  | some old =>
    have hheld : id ∈ Registry.held kRefFrameMapCap h := by
      rw [← Registry.isSome_value, ← hs.find, hfind]
      rfl
    refine ⟨?_, fun k => ?_, ?_⟩
    · rw [Registry.held_cons_of_mem hheld]
      exact hs.order
    · rw [find_assign, hfind, Registry.value_cons_of_mem hheld, hs.find, Option.map_some]
    · rw [Sorted, keys_assign]
      exact hs.sorted
  | none =>
    have hkey : id ∉ keys s.refFrameToTs := find_eq_none.1 hfind
    have horder : id ∉ s.refFrameOrder := fun hmem => hkey ((hs.mem_keys id).2 hmem)
    have hheld : id ∉ Registry.held kRefFrameMapCap h := fun hmem => horder ((hs.mem_order id).2 hmem)
    have hnodup : (s.refFrameOrder ++ [id]).Nodup := by
      rw [List.nodup_append]
      refine ⟨hs.nodup_order, List.nodup_singleton id, fun k hk k' hk' heq => horder ?_⟩
      rwa [← List.mem_singleton.1 hk', ← heq]
    have hkeys : ∀ k, k ∈ keys (emplace id ts s.refFrameToTs) ↔ k ∈ s.refFrameOrder ++ [id] := by
      intro k
      rw [mem_keys_emplace, hs.mem_keys, List.mem_append, List.mem_singleton, or_comm]
    have hnew : (evict kRefFrameMapCap (s.refFrameOrder ++ [id])
        (emplace id ts s.refFrameToTs)).2.reverse = Registry.held kRefFrameMapCap ((id, ts) :: h) := by
      rw [evict_eq, ← List.take_reverse, List.reverse_append, hs.order,
        Registry.held_cons_of_notMem hheld]
      rfl
    refine ⟨hnew, fun k => ?_, ?_⟩
    · rw [find_evict hnodup hkeys, find_emplace ts id k _ hkey, hs.find,
        Registry.value_cons_of_notMem hheld, ← hnew]
      simp only [List.mem_reverse]
    · rw [evict_eq]
      exact sorted_filter _ (sorted_emplace ts id _ hs.sorted hkey)

theorem recordAll : ∀ (rs : List (UInt64 × ℤ)) {s : RefFrames} {h : List (UInt64 × ℤ)},
    Represents s h →
      Represents (rs.foldl (fun s r => s.recordVideoRefFrame r.1 r.2) s) (rs.reverse ++ h)
  | [], _, _, hs => hs
  | r :: rs, s, h, hs => by
    rw [List.foldl_cons, List.reverse_cons, List.append_assoc, List.singleton_append]
    exact recordAll rs (hs.recordVideoRefFrame r.1 r.2)

end Represents

theorem represents_nil : Represents {} [] :=
  ⟨Registry.held_nil.symm, fun _ => rfl, List.Pairwise.nil⟩

/-- Along all calls the map is the registry of what they recorded. -/
theorem represents_exec (calls : List Call) :
    Represents (machine.exec {} calls).1 (machine.exec {} calls).2.reverse := by
  have hstep : ∀ s out call, Represents s (List.reverse out) → True →
      Represents (machine.step s call).1 (out ++ (machine.step s call).2).reverse := by
    intro s out call hs _
    rw [List.reverse_append]
    exact hs.recordAll call.recorded
  have hinit : Represents {} (List.reverse []) := represents_nil
  have hrun := Machine.exec_history hstep calls hinit Machine.meets_true
  rwa [List.nil_append] at hrun

/-- The ids that are held are the last ones, 1024 at most, that were recorded while they were not held,
each once, and the lookups give what was recorded last under them, by whichever call. The age of a
data message is counted from there. -/
theorem refFrames_spec (calls : List Call) :
    (machine.exec {} calls).1.refFrameOrder.Nodup
      ∧ (∀ id, id ∈ (machine.exec {} calls).1.refFrameOrder
          ↔ id ∈ keys (machine.exec {} calls).1.refFrameToTs)
      ∧ (keys (machine.exec {} calls).1.refFrameToTs).Nodup
      ∧ (machine.exec {} calls).1.refFrameOrder.length ≤ kRefFrameMapCap
      ∧ (machine.exec {} calls).1.refFrameOrder.reverse
        = (Registry.admitted kRefFrameMapCap (machine.exec {} calls).2.reverse).take kRefFrameMapCap
      ∧ (∀ id, (machine.exec {} calls).1.refFrameToCaptureTs id
        = if id ∈ (machine.exec {} calls).1.refFrameOrder then
            Registry.latest (machine.exec {} calls).2.reverse id
          else none)
      ∧ ∀ id nowUs, (machine.exec {} calls).1.dataMessageFrameAgeUs id nowUs
        = if id ∈ (machine.exec {} calls).1.refFrameOrder then
            (Registry.latest (machine.exec {} calls).2.reverse id).map (nowUs - ·)
          else none := by
  have hs := represents_exec calls
  have hlookup : ∀ id, (machine.exec {} calls).1.refFrameToCaptureTs id
      = if id ∈ (machine.exec {} calls).1.refFrameOrder then
          Registry.latest (machine.exec {} calls).2.reverse id
        else none := by
    intro id
    rw [refFrameToCaptureTs, hs.find, Registry.value]
    simp only [hs.mem_order]
  refine ⟨hs.nodup_order, fun id => (hs.mem_keys id).symm, ?_, ?_, hs.order, hlookup,
    fun id nowUs => ?_⟩
  · exact hs.sorted.imp UInt64.ne_of_lt
  · rw [← List.length_reverse, hs.order]
    exact Registry.length_held_le
  · rw [dataMessageFrameAgeUs, hlookup]
    split_ifs <;> rfl

/-- Frame 1 is sent with the timestamp 10, and the peer's frame 1 arrives with 20. -/
theorem sent_timestamp_replaced : ¬ ∀ (calls : List Call) (id received : UInt32) (ts ts' : ℤ),
    let sent := (machine.exec {} (calls ++ [.sendVideo true id ts])).1
    sent.refFrameToCaptureTs id.toUInt64 = some ts →
      (machine.step sent (.frameReceived received ts')).1.refFrameToCaptureTs id.toUInt64 = some ts := by
  intro hall
  have hsent := hall [] 1 1 10 20 (by decide)
  exact absurd hsent (by decide)

/-- A timestamp is found under an id that has it, the least of these. -/
theorem captureTsToRefFrame_least (calls : List Call) {ts : ℤ} {id : UInt64}
    (h : (machine.exec {} calls).1.captureTsToRefFrame ts = some id) :
    (machine.exec {} calls).1.refFrameToCaptureTs id = some ts
      ∧ ∀ k, (machine.exec {} calls).1.refFrameToCaptureTs k = some ts → id ≤ k := by
  have hsorted := (represents_exec calls).sorted
  unfold captureTsToRefFrame at h
  unfold refFrameToCaptureTs
  generalize (machine.exec {} calls).1.refFrameToTs = m at h hsorted ⊢
  obtain ⟨e, hfind, rfl⟩ := Option.map_eq_some_iff.1 h
  obtain ⟨hts, before, after, rfl, hbefore⟩ := List.find?_eq_some_iff_append.1 hfind
  have hts : e.2 = ts := by simpa using hts
  constructor
  · rw [← hts]
    exact find_of_mem hsorted (by simp)
  · intro k hk
    rcases List.mem_append.1 (mem_of_find hk) with hmem | hmem
    · have hother := hbefore _ hmem
      simp at hother
    · rcases List.mem_cons.1 hmem with rfl | hmem
      · exact UInt64.le_refl _
      · rw [Sorted, keys, List.map_append, List.map_cons] at hsorted
        have hlater := (List.pairwise_cons.1 (List.pairwise_append.1 hsorted).2.1).1
        exact UInt64.le_of_lt (hlater k (List.mem_map.2 ⟨(k, ts), hmem, rfl⟩))

end RefFrames

end NimRtc
