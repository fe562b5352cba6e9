import NimRtc.Qpack

/-!
# The dynamic table keeps its counters

The entries are those that were added less the oldest ones, which were dropped. `size` is the sum of
their sizes, so it never wraps.
-/

namespace NimRtc.Qpack

namespace DynamicTable

/-- The counters of a table to which these entries were added. While entries are evicted, the table
may be too large for its capacity. -/
structure Counts (t : DynamicTable) (added : List DynamicEntry) : Prop where
  size_eq : t.size = (t.entries.map DynamicEntry.size).sum
  size_le_max : t.size ≤ kMaxTableCapacity
  entries_eq : t.entries = added.drop t.droppedCount
  dropped_le : t.droppedCount ≤ added.length
  insertCount_eq : t.insertCount = added.length

/-- What a table keeps between instructions. -/
structure Inv (t : DynamicTable) (added : List DynamicEntry) : Prop where
  counts : t.Counts added
  size_le : t.size ≤ t.capacity
  capacity_le : t.capacity ≤ kMaxTableCapacity

variable {t : DynamicTable} {added : List DynamicEntry}

theorem Counts.evictOldest (h : t.Counts added) : t.evictOldest.Counts added := by
  cases hentries : t.entries with
  | nil =>
    rw [DynamicTable.evictOldest, hentries]
    exact h
  | cons e es =>
    have hsize := h.size_eq
    have hmax := h.size_le_max
    have hdrop := h.entries_eq
    rw [hentries, List.map_cons, List.sum_cons] at hsize
    rw [hentries] at hdrop
    rw [kMaxTableCapacity] at hmax
    have hwrap : (t.size + 2 ^ 64 - e.size) % 2 ^ 64 = t.size - e.size := by omega
    have hlt : t.droppedCount < added.length := by
      have hlen := congrArg List.length hdrop
      rw [List.length_cons, List.length_drop] at hlen
      omega
    rw [DynamicTable.evictOldest, hentries]
    refine ⟨?_, ?_, ?_, hlt, h.insertCount_eq⟩
    · show (t.size + 2 ^ 64 - e.size) % 2 ^ 64 = (es.map DynamicEntry.size).sum
      omega
    · show (t.size + 2 ^ 64 - e.size) % 2 ^ 64 ≤ kMaxTableCapacity
      rw [kMaxTableCapacity]
      omega
    · show es = added.drop (t.droppedCount + 1)
      rw [← List.drop_drop, ← hdrop]
      rfl

theorem evictOldest_capacity (t : DynamicTable) : t.evictOldest.capacity = t.capacity := by
  unfold evictOldest
  split <;> rfl

theorem length_evictOldest (t : DynamicTable) :
    t.evictOldest.entries.length = t.entries.length - 1 := by
  unfold evictOldest
  split
  · rename_i hnil
    rw [hnil]
    rfl
  · rename_i e es hcons
    rw [hcons]
    rfl

/-- Evicting keeps the counters, and makes room unless the table gets empty. -/
theorem Counts.evictFor (incoming : ℕ) : ∀ (n : ℕ) {t : DynamicTable}, t.Counts added →
    t.entries.length ≤ n →
    (t.evictFor incoming n).Counts added ∧ (t.evictFor incoming n).capacity = t.capacity
      ∧ ((t.evictFor incoming n).size + incoming ≤ t.capacity
        ∨ (t.evictFor incoming n).entries = [])
  | 0, t, h, hn => ⟨h, rfl, .inr (List.length_eq_zero_iff.1 (Nat.le_zero.1 hn))⟩
  | n + 1, t, h, hn => by
    rw [DynamicTable.evictFor]
    split_ifs with hfull
    · have ih := Counts.evictFor incoming n h.evictOldest (by rw [length_evictOldest]; omega)
      rwa [evictOldest_capacity] at ih
    · refine ⟨h, rfl, ?_⟩
      by_cases hroom : t.capacity < t.size + incoming
      · exact .inr (not_not.1 fun hsome => hfull ⟨hroom, hsome⟩)
      · exact .inl (not_lt.1 hroom)

theorem Counts.size_eq_zero (h : t.Counts added) (hnil : t.entries = []) : t.size = 0 := by
  rw [h.size_eq, hnil]
  rfl

theorem Inv.setCapacity (h : t.Inv added) {capacity : ℕ} (hmax : capacity ≤ kMaxTableCapacity) :
    (t.setCapacity capacity).Inv added := by
  have hcounts : ({ t with capacity } : DynamicTable).Counts added :=
    ⟨h.counts.size_eq, h.counts.size_le_max, h.counts.entries_eq, h.counts.dropped_le,
      h.counts.insertCount_eq⟩
  obtain ⟨hkeep, hcap, hroom⟩ := hcounts.evictFor 0 t.entries.length (le_refl _)
  refine ⟨hkeep, ?_, hcap.trans_le hmax⟩
  rw [DynamicTable.setCapacity, hcap]
  rcases hroom with hroom | hnil
  · exact hroom
  · rw [hkeep.size_eq_zero hnil]
    exact Nat.zero_le _

theorem Inv.setFailed (h : t.Inv added) (failed : Bool) :
    ({ t with failed } : DynamicTable).Inv added :=
  ⟨⟨h.counts.size_eq, h.counts.size_le_max, h.counts.entries_eq, h.counts.dropped_le,
    h.counts.insertCount_eq⟩, h.size_le, h.capacity_le⟩

theorem Inv.insertEntry (h : t.Inv added) (name value : List UInt8) :
    (t.insertEntry name value).1.Inv (added ++ (t.insertEntry name value).2) := by
  rw [DynamicTable.insertEntry]
  simp only
  split_ifs with hrefused
  · rw [List.append_nil]
    exact h.setFailed true
  · rw [not_or, not_lt] at hrefused
    generalize he : (⟨name, value⟩ : DynamicEntry) = e at hrefused ⊢
    obtain ⟨hkeep, hcap, hroom⟩ := h.counts.evictFor e.size t.entries.length (le_refl _)
    generalize t.evictFor e.size t.entries.length = s at hkeep hcap hroom ⊢
    have hfits : s.size + e.size ≤ t.capacity := by
      rcases hroom with hroom | hnil
      · exact hroom
      · rw [hkeep.size_eq_zero hnil]
        omega
    have hdropped := hkeep.dropped_le
    refine ⟨⟨?_, hfits.trans h.capacity_le, ?_, ?_, ?_⟩, ?_, ?_⟩
    · simp [hkeep.size_eq]
    · show s.entries ++ [e] = (added ++ [e]).drop s.droppedCount
      rw [List.drop_append_of_le_length hdropped, ← hkeep.entries_eq]
    · show s.droppedCount ≤ (added ++ [e]).length
      rw [List.length_append]
      omega
    · show s.insertCount + 1 = (added ++ [e]).length
      rw [hkeep.insertCount_eq, List.length_append, List.length_singleton]
    · show s.size + e.size ≤ s.capacity
      rw [hcap]
      exact hfits
    · show s.capacity ≤ _
      rw [hcap]
      exact h.capacity_le

/-- An entry is found at its own place among all that were added, as long as it is not dropped. -/
theorem Inv.entryByAbsolute (h : t.Inv added) (i : ℕ) : t.entryByAbsolute i
    = if t.droppedCount ≤ i ∧ i < t.insertCount then added[i]? else none := by
  have hdropped := h.counts.dropped_le
  rw [DynamicTable.entryByAbsolute, h.counts.entries_eq, h.counts.insertCount_eq]
  split_ifs with hlow hin hin
  · omega
  · rfl
  · rw [List.getElem?_drop, Nat.add_sub_cancel' hin.1]
  · rw [List.getElem?_eq_none (by rw [List.length_drop]; omega)]

/-- A reference back from the last insertion finds what is in the table, and nothing else. -/
theorem Inv.recentEntry (h : t.Inv added) (index : ℕ) :
    t.recentEntry index = t.entries.reverse[index]? := by
  have hlen : t.entries.length = t.insertCount - t.droppedCount := by
    rw [h.counts.entries_eq, List.length_drop, h.counts.insertCount_eq]
  have hdropped := h.counts.dropped_le
  have hinserted := h.counts.insertCount_eq
  unfold DynamicTable.recentEntry DynamicTable.entryByAbsolute
  split_ifs with hnone hgone
  · rw [List.getElem?_eq_none (by rw [List.length_reverse]; omega)]
  · rw [List.getElem?_eq_none (by rw [List.length_reverse]; omega)]
  · rw [List.getElem?_reverse (by omega)]
    congr 1
    omega

theorem insertEntry_added (t : DynamicTable) (name value : List UInt8) :
    (t.insertEntry name value).2
      = ((some ⟨name, value⟩ : Option DynamicEntry).filter fun e => e.size ≤ t.capacity).toList := by
  have hpos : 0 < (⟨name, value⟩ : DynamicEntry).size := by
    rw [DynamicEntry.size, kEntryOverhead]
    omega
  rw [DynamicTable.insertEntry]
  simp only [Option.filter_some, decide_eq_true_eq]
  split_ifs with hrefused hfits hfits
  · omega
  · rfl
  · rfl
  · omega

/-- What an instruction adds is the entry it asks for, if that fits the capacity. -/
theorem Inv.execute_added (h : t.Inv added) (i : Instruction) :
    ((t.execute i).map (·.2)).getD []
      = ((i.entry t.entries).filter fun e => e.size ≤ t.capacity).toList := by
  cases i with
  | insertNameRef isStatic index value =>
    rw [DynamicTable.execute, DynamicTable.insertName, h.recentEntry]
    cases isStatic with
    | false =>
      rw [Instruction.entry]
      cases t.entries.reverse[index]? with
      | none => rfl
      | some e => exact insertEntry_added t e.name value
    | true =>
      rw [Instruction.entry]
      cases kStaticTable[index]? with
      | none => rfl
      | some e => exact insertEntry_added t (text e.name) value
  | insertLiteral name value => exact insertEntry_added t name value
  | setCapacity capacity =>
    rw [DynamicTable.execute]
    split_ifs <;> rfl
  | duplicate index =>
    rw [DynamicTable.execute, h.recentEntry, Instruction.entry]
    cases t.entries.reverse[index]? with
    | none => rfl
    | some e => exact insertEntry_added t e.name e.value

theorem Inv.execute (h : t.Inv added) {i : Instruction} {r : DynamicTable × List DynamicEntry}
    (hr : t.execute i = some r) : r.1.Inv (added ++ r.2) := by
  cases i with
  | insertNameRef isStatic index value =>
    obtain ⟨name, -, rfl⟩ := Option.map_eq_some_iff.1 hr
    exact h.insertEntry name value
  | insertLiteral name value =>
    rw [← Option.some.inj hr]
    exact h.insertEntry name value
  | setCapacity capacity =>
    rw [DynamicTable.execute] at hr
    split_ifs at hr with hmax
    rw [← Option.some.inj hr, List.append_nil]
    exact h.setCapacity (not_lt.1 hmax)
  | duplicate index =>
    obtain ⟨e, -, rfl⟩ := Option.map_eq_some_iff.1 hr
    exact h.insertEntry e.name e.value

end DynamicTable

namespace QpackDecoder

theorem inv_feedLoop : ∀ (n : ℕ) (d : QpackDecoder) (rem : List UInt8) {added : List DynamicEntry},
    d.table.Inv added → (feedLoop n d rem).1.table.Inv (added ++ (feedLoop n d rem).2)
  | n, d, [], added, h => by
    rw [feedLoop, List.append_nil]
    exact h
  | 0, d, b :: rem, added, h => by
    rw [feedLoop, List.append_nil]
    exact h
  | n + 1, d, b :: rem, added, h => by
    rw [feedLoop]
    cases hparse : parseInstruction (b :: rem) with
    | none =>
      rw [List.append_nil]
      exact h
    | some parsed =>
      obtain ⟨i, next⟩ := parsed
      simp only
      cases hexec : d.table.execute i with
      | none =>
        rw [List.append_nil]
        exact h.setFailed true
      | some r =>
        have ih := inv_feedLoop n { d with table := r.1 } next (h.execute hexec)
        rw [List.append_assoc] at ih
        exact ih

theorem inv_exec : ∀ (chunks : List (List UInt8)) (d : QpackDecoder) {added : List DynamicEntry},
    d.table.Inv added →
    (stream.exec d chunks).1.table.Inv (added ++ (stream.exec d chunks).2)
  | [], d, added, h => by
    rw [Machine.exec_nil, List.append_nil]
    exact h
  | chunk :: chunks, d, added, h => by
    have hstep := inv_feedLoop (d.encoderBuffer ++ chunk).length
      { d with encoderBuffer := d.encoderBuffer ++ chunk } (d.encoderBuffer ++ chunk) h
    have ih := inv_exec chunks (stream.step d chunk).1 hstep
    rw [List.append_assoc] at ih
    exact ih

theorem inv_new : ({} : DynamicTable).Inv [] :=
  ⟨⟨rfl, Nat.zero_le _, rfl, le_refl _, rfl⟩, le_refl _, Nat.zero_le _⟩

/-- Bytes that complete one instruction add the entry it asks for. -/
theorem step_instruction {d : QpackDecoder} {added : List DynamicEntry} (h : d.table.Inv added)
    {bytes : List UInt8} {i : Instruction}
    (hparse : parseInstruction (d.encoderBuffer ++ bytes) = some (i, [])) :
    (stream.step d bytes).2
      = ((i.entry d.table.entries).filter fun e => e.size ≤ d.table.capacity).toList := by
  rw [← h.execute_added i]
  show (feedLoop (d.encoderBuffer ++ bytes).length
    { d with encoderBuffer := d.encoderBuffer ++ bytes } (d.encoderBuffer ++ bytes)).2 = _
  cases hbuffer : d.encoderBuffer ++ bytes with
  | nil =>
    rw [hbuffer] at hparse
    cases hparse
  | cons b rem =>
    rw [hbuffer] at hparse
    rw [List.length_cons, feedLoop, hparse]
    cases hexec : d.table.execute i with
    | none => simp [hexec]
    | some r => simp [hexec, feedLoop]

/-- Whatever the encoder stream brings, the counters of the table agree with its entries, and an
entry is found at its own place among all that were added, as long as it is not dropped. What is
added by a further instruction is the entry it asks for, if that fits the capacity. -/
theorem table_invariant (chunks : List (List UInt8)) :
    match stream.exec {} chunks with
    | (d, added) =>
      d.table.size = (d.table.entries.map fun e => e.name.length + e.value.length + 32).sum
        ∧ d.table.size ≤ d.table.capacity ∧ d.table.capacity ≤ kMaxTableCapacity
        ∧ d.table.insertCount = d.table.droppedCount + d.table.entries.length
        ∧ (∀ i, (d.table.entryByAbsolute i).isSome
          ↔ d.table.droppedCount ≤ i ∧ i < d.table.insertCount)
        ∧ (∀ i, d.table.entryByAbsolute i
          = if d.table.droppedCount ≤ i ∧ i < d.table.insertCount then added[i]? else none)
        ∧ ∀ (bytes : List UInt8) (i : Instruction),
          parseInstruction (d.encoderBuffer ++ bytes) = some (i, []) →
            (stream.step d bytes).2 = ((i.entry (added.drop d.table.droppedCount)).filter fun e =>
              e.size ≤ d.table.capacity).toList := by
  have h := inv_exec chunks {} inv_new
  rw [List.nil_append] at h
  generalize stream.exec {} chunks = r at h ⊢
  obtain ⟨d, added⟩ := r
  simp only [] at h ⊢
  have hentries := h.counts.entries_eq
  have hinserted := h.counts.insertCount_eq
  have hdropped := h.counts.dropped_le
  refine ⟨h.counts.size_eq, h.size_le, h.capacity_le, ?_, fun i => ?_, h.entryByAbsolute,
    fun bytes i hparse => ?_⟩
  · rw [hentries, hinserted, List.length_drop]
    omega
  · rw [h.entryByAbsolute]
    split_ifs with hin
    · rw [List.getElem?_eq_getElem (hin.2.trans_eq hinserted)]
      simp [hin]
    · simp [hin]
  · rw [← hentries]
    exact step_instruction h hparse

end QpackDecoder

end NimRtc.Qpack
