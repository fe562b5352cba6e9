import NimRtc.Proofs.QpackTable

/-!
# Chunks of the encoder stream

A call that stops at an instruction keeps all of its buffer, also what it has carried out. The next
call then carries that out again, which does no harm if it was only changes of the capacity: the table
is small enough for each of them already.
-/

namespace NimRtc.Qpack

/-! ### More bytes -/

theorem decodeRest_append {mask : ℕ} {v : ℕ} {rest : List UInt8} (more : List UInt8) :
    ∀ {data : List UInt8} {extra shift : ℕ}, decodeRest mask extra shift data = some (v, rest) →
      decodeRest mask extra shift (data ++ more) = some (v, rest ++ more)
        ∧ rest.length < data.length
  | [], _, _, h => by cases h
  | b :: data, extra, shift, h => by
    rw [decodeRest] at h
    rw [List.cons_append, decodeRest]
    split_ifs at h ⊢ with hend hlong
    · obtain ⟨rfl, rfl⟩ := Prod.mk.inj (Option.some.inj h)
      exact ⟨rfl, Nat.lt_succ_self _⟩
    · obtain ⟨happ, hlen⟩ := decodeRest_append more h
      exact ⟨happ, hlen.trans (Nat.lt_succ_self _)⟩

theorem decodePrefixedInt_append {bits v : ℕ} {data rest : List UInt8} (more : List UInt8)
    (h : decodePrefixedInt bits data = some (v, rest)) :
    decodePrefixedInt bits (data ++ more) = some (v, rest ++ more)
      ∧ rest.length < data.length := by
  cases data with
  | nil => simp [decodePrefixedInt] at h
  | cons b data =>
    rw [decodePrefixedInt] at h
    rw [List.cons_append, decodePrefixedInt]
    simp only at h ⊢
    split_ifs at h ⊢ with hbits hshort
    · obtain ⟨rfl, rfl⟩ := Prod.mk.inj (Option.some.inj h)
      exact ⟨rfl, Nat.lt_succ_self _⟩
    · obtain ⟨happ, hlen⟩ := decodeRest_append more h
      exact ⟨happ, hlen.trans (Nat.lt_succ_self _)⟩

theorem decodeString_append {bits : ℕ} {s data rest : List UInt8} (more : List UInt8)
    (h : decodeString bits data = some (s, rest)) :
    decodeString bits (data ++ more) = some (s, rest ++ more) ∧ rest.length < data.length := by
  cases data with
  | nil => simp [decodeString] at h
  | cons b data =>
    rw [decodeString] at h
    rw [List.cons_append, decodeString]
    by_cases hbits : bits < 2 ∨ 8 < bits
    · rw [if_pos hbits] at h
      cases h
    rw [if_neg hbits] at h ⊢
    cases hlength : decodePrefixedInt (bits - 1) (b :: data) with
    | none => simp [hlength] at h
    | some r =>
      obtain ⟨length, body⟩ := r
      obtain ⟨happ, hshort⟩ := decodePrefixedInt_append more hlength
      rw [List.cons_append] at happ
      simp only [hlength] at h
      simp only [happ, List.length_append]
      by_cases hfits : body.length < length
      · simp [hfits] at h
      · rw [if_neg hfits] at h
        rw [if_neg (by omega), List.take_append_of_le_length (by omega),
          List.drop_append_of_le_length (by omega)]
        have hrest : (body.drop length).length < (b :: data).length := by
          rw [List.length_drop]
          omega
        split_ifs at h ⊢ with hplain
        · obtain ⟨rfl, rfl⟩ := Prod.mk.inj (Option.some.inj h)
          exact ⟨rfl, hrest⟩
        · obtain ⟨out, hout, heq⟩ := Option.map_eq_some_iff.1 h
          obtain ⟨rfl, rfl⟩ := Prod.mk.inj heq
          exact ⟨by rw [hout, Option.map_some], hrest⟩

/-- A complete instruction stays what it is when more bytes arrive. -/
theorem parseInstruction_append {rem next : List UInt8} {i : Instruction} (more : List UInt8)
    (h : parseInstruction rem = some (i, next)) :
    parseInstruction (rem ++ more) = some (i, next ++ more) ∧ next.length < rem.length := by
  cases rem with
  | nil => cases h
  | cons b rem =>
    rw [parseInstruction] at h
    rw [List.cons_append, parseInstruction]
    simp only at h ⊢
    split_ifs at h ⊢ with hname hliteral hcapacity
    · obtain ⟨⟨index, next₁⟩, hindex, h⟩ := Option.bind_eq_some_iff.1 h
      obtain ⟨⟨value, next₂⟩, hvalue, h⟩ := Option.bind_eq_some_iff.1 h
      obtain ⟨rfl, rfl⟩ := Prod.mk.inj (Option.some.inj h)
      obtain ⟨happ₁, hlen₁⟩ := decodePrefixedInt_append more hindex
      obtain ⟨happ₂, hlen₂⟩ := decodeString_append more hvalue
      rw [List.cons_append] at happ₁
      refine ⟨?_, hlen₂.trans hlen₁⟩
      simp only [happ₁, happ₂, Option.bind_eq_bind, Option.bind_some]
    · obtain ⟨⟨name, next₁⟩, hname, h⟩ := Option.bind_eq_some_iff.1 h
      obtain ⟨⟨value, next₂⟩, hvalue, h⟩ := Option.bind_eq_some_iff.1 h
      obtain ⟨rfl, rfl⟩ := Prod.mk.inj (Option.some.inj h)
      obtain ⟨happ₁, hlen₁⟩ := decodeString_append more hname
      obtain ⟨happ₂, hlen₂⟩ := decodeString_append more hvalue
      rw [List.cons_append] at happ₁
      refine ⟨?_, hlen₂.trans hlen₁⟩
      simp only [happ₁, happ₂, Option.bind_eq_bind, Option.bind_some]
    all_goals
      obtain ⟨⟨n, next₁⟩, hn, h⟩ := Option.bind_eq_some_iff.1 h
      obtain ⟨rfl, rfl⟩ := Prod.mk.inj (Option.some.inj h)
      obtain ⟨happ, hlen⟩ := decodePrefixedInt_append more hn
      rw [List.cons_append] at happ
      exact ⟨by simp only [happ, Option.bind_eq_bind, Option.bind_some], hlen⟩

/-! ### The loop with what it leaves -/

namespace QpackDecoder

/-- The loop from a table over some bytes ends with another table before the bytes that are left. -/
inductive Runs : DynamicTable → List UInt8 → DynamicTable → List UInt8 → Prop
  | stop {t : DynamicTable} {rem : List UInt8} (hparse : parseInstruction rem = none) :
      Runs t rem t rem
  | refused {t : DynamicTable} {rem next : List UInt8} {i : Instruction}
      (hparse : parseInstruction rem = some (i, next)) (hexec : t.execute i = none) :
      Runs t rem { t with failed := true } rem
  | step {t t' : DynamicTable} {rem next rest : List UInt8} {i : Instruction}
      {r : DynamicTable × List DynamicEntry} (hparse : parseInstruction rem = some (i, next))
      (hexec : t.execute i = some r) (hnext : Runs r.1 next t' rest) : Runs t rem t' rest

theorem length_lt_of_parse {rem next : List UInt8} {i : Instruction}
    (h : parseInstruction rem = some (i, next)) : next.length < rem.length :=
  (parseInstruction_append [] h).2

theorem runs_total (t : DynamicTable) (rem : List UInt8) : ∃ t' rest, Runs t rem t' rest := by
  cases hparse : parseInstruction rem with
  | none => exact ⟨t, rem, .stop hparse⟩
  | some parsed =>
    obtain ⟨i, next⟩ := parsed
    cases hexec : t.execute i with
    | none => exact ⟨_, rem, .refused hparse hexec⟩
    | some r =>
      have hlt := length_lt_of_parse hparse
      obtain ⟨t', rest, hnext⟩ := runs_total r.1 next
      exact ⟨t', rest, .step hparse hexec hnext⟩
  termination_by rem.length

theorem feedLoop_of_runs {t t' : DynamicTable} {rem rest : List UInt8} (h : Runs t rem t' rest) :
    ∀ (n : ℕ) (buffer : List UInt8), rem.length ≤ n →
      (feedLoop n ⟨t, buffer⟩ rem).1 = ⟨t', if rest = [] then [] else buffer⟩ := by
  induction h with
  | @stop t rem hparse =>
    intro n buffer hn
    cases rem with
    | nil => simp [feedLoop]
    | cons b rem =>
      obtain _ | n := n
      · simp at hn
      simp [feedLoop, hparse]
  | @refused t rem next i hparse hexec =>
    intro n buffer hn
    cases rem with
    | nil => cases hparse
    | cons b rem =>
      obtain _ | n := n
      · simp at hn
      simp [feedLoop, hparse, hexec]
  | @step t t' rem next rest i r hparse hexec hnext ih =>
    intro n buffer hn
    have hlt := length_lt_of_parse hparse
    cases rem with
    | nil => cases hparse
    | cons b rem =>
      obtain _ | n := n
      · simp at hn
      simp only [feedLoop, hparse, hexec]
      exact ih n buffer (by omega)

/-- A call is the loop over the buffer, which it keeps if anything is left. -/
theorem feed_of_runs {d : QpackDecoder} {chunk rest : List UInt8} {t' : DynamicTable}
    (h : Runs d.table (d.encoderBuffer ++ chunk) t' rest) :
    (d.feedEncoderStream chunk).1 = ⟨t', if rest = [] then [] else d.encoderBuffer ++ chunk⟩ :=
  feedLoop_of_runs h _ _ (le_refl _)

theorem execute_setFailed {t : DynamicTable} {i : Instruction} (h : t.execute i = none) :
    ({ t with failed := true } : DynamicTable).execute i = none := by
  cases i with
  | insertNameRef isStatic index value => exact Option.map_eq_none_iff.2 (Option.map_eq_none_iff.1 h)
  | insertLiteral name value => cases h
  | setCapacity capacity =>
    rw [DynamicTable.execute] at h ⊢
    split_ifs at h ⊢
    rfl
  | duplicate index => exact Option.map_eq_none_iff.2 (Option.map_eq_none_iff.1 h)

/-- The loop goes on with what it left when more bytes arrive. -/
theorem Runs.append {t t' t'' : DynamicTable} {x rest more rest' : List UInt8}
    (h : Runs t x t' rest) (hmore : Runs t' (rest ++ more) t'' rest') :
    Runs t (x ++ more) t'' rest' := by
  induction h with
  | stop hparse => exact hmore
  | @refused t rem next i hparse hexec =>
    -- the refused instruction is refused again
    have hparse' := (parseInstruction_append more hparse).1
    cases hmore with
    | stop hnone =>
      rw [hparse'] at hnone
      cases hnone
    | refused hagain hrefused => exact .refused hparse' hexec
    | step hagain hdone hnext =>
      rw [hparse'] at hagain
      obtain ⟨rfl, rfl⟩ := Prod.mk.inj (Option.some.inj hagain)
      rw [execute_setFailed hexec] at hdone
      cases hdone
  | step hparse hexec hnext ih => exact .step (parseInstruction_append more hparse).1 hexec (ih hmore)

theorem Runs.inv {t t' : DynamicTable} {x rest : List UInt8} (h : Runs t x t' rest)
    (hinv : ∃ added, t.Inv added) : ∃ added, t'.Inv added := by
  induction h with
  | stop hparse => exact hinv
  | refused hparse hexec =>
    obtain ⟨added, hinv⟩ := hinv
    exact ⟨added, hinv.setFailed true⟩
  | step hparse hexec hnext ih =>
    obtain ⟨added, hinv⟩ := hinv
    exact ih ⟨_, hinv.execute hexec⟩

/-! ### Capacities -/

theorem size_evictOldest {t : DynamicTable} {added : List DynamicEntry} (h : t.Counts added) :
    t.evictOldest.size ≤ t.size := by
  have hsize := h.size_eq
  have hmax := h.size_le_max
  rw [kMaxTableCapacity] at hmax
  rw [DynamicTable.evictOldest]
  split
  · exact le_refl _
  · rename_i e es hentries
    rw [hentries, List.map_cons, List.sum_cons] at hsize
    show (t.size + 2 ^ 64 - e.size) % 2 ^ 64 ≤ t.size
    omega

theorem size_evictFor (incoming : ℕ) : ∀ (n : ℕ) {t : DynamicTable} {added : List DynamicEntry},
    t.Counts added → (t.evictFor incoming n).size ≤ t.size
  | 0, t, _, _ => le_refl _
  | n + 1, t, added, h => by
    rw [DynamicTable.evictFor]
    split_ifs
    · exact (size_evictFor incoming n h.evictOldest).trans (size_evictOldest h)
    · exact le_refl _

theorem size_setCapacity {t : DynamicTable} {added : List DynamicEntry} (h : t.Inv added) {n : ℕ}
    (hn : n ≤ kMaxTableCapacity) : (t.setCapacity n).size ≤ t.size ∧ (t.setCapacity n).size ≤ n
      ∧ (t.setCapacity n).capacity = n := by
  have hcounts : ({ t with capacity := n } : DynamicTable).Counts added :=
    ⟨h.counts.size_eq, h.counts.size_le_max, h.counts.entries_eq, h.counts.dropped_le,
      h.counts.insertCount_eq⟩
  have hcap : (t.setCapacity n).capacity = n := (hcounts.evictFor 0 _ (le_refl _)).2.1
  refine ⟨size_evictFor 0 t.entries.length hcounts, ?_, hcap⟩
  exact (h.setCapacity hn).size_le.trans_eq hcap

theorem setCapacity_of_fits {t : DynamicTable} {n : ℕ} (h : t.size ≤ n) :
    t.setCapacity n = { t with capacity := n } := by
  rw [DynamicTable.setCapacity]
  cases t.entries.length with
  | zero => rfl
  | succ k =>
    rw [DynamicTable.evictFor, if_neg]
    intro hfull
    exact absurd hfull.1 (not_lt.2 h)

theorem execute_setCapacity {t : DynamicTable} {n : ℕ} (hn : n ≤ kMaxTableCapacity) :
    t.execute (.setCapacity n) = some (t.setCapacity n, []) := by
  rw [DynamicTable.execute, if_neg (not_lt.2 hn)]

/-- Changes of the capacity can be repeated on the table they lead to, also with the capacity from
before them. -/
theorem OnlyCapacities.repeat {t t' : DynamicTable} {x rest : List UInt8} (h : OnlyCapacities t x)
    (hinv : ∃ added, t.Inv added) (hruns : Runs t x t' rest) :
    t'.size ≤ t.size ∧ ∀ c, c = t.capacity ∨ c = t'.capacity → ∀ more t'' rest',
      Runs t' (rest ++ more) t'' rest' → Runs { t' with capacity := c } (x ++ more) t'' rest' := by
  induction h generalizing t' rest with
  | incomplete hnone =>
    cases hruns with
    | stop _ => exact ⟨le_refl _, by rintro c (rfl | rfl) more t'' rest' h <;> exact h⟩
    | refused hparse _ => rw [hnone] at hparse; cases hparse
    | step hparse _ _ => rw [hnone] at hparse; cases hparse
  | refused hparse hexec =>
    cases hruns with
    | stop hnone => rw [hparse] at hnone; cases hnone
    | refused _ _ => exact ⟨le_refl _, by rintro c (rfl | rfl) more t'' rest' h <;> exact h⟩
    | step hparse' hexec' _ =>
      rw [hparse] at hparse'
      obtain ⟨rfl, rfl⟩ := Prod.mk.inj (Option.some.inj hparse')
      rw [hexec] at hexec'
      cases hexec'
  | @capacity t x next n hparse hn hnext ih =>
    obtain ⟨added, hinv⟩ := hinv
    obtain ⟨hshrink, hfits, hcap⟩ := size_setCapacity hinv hn
    cases hruns with
    | stop hnone => rw [hparse] at hnone; cases hnone
    | refused hparse' hexec' =>
      rw [hparse] at hparse'
      obtain ⟨rfl, rfl⟩ := Prod.mk.inj (Option.some.inj hparse')
      rw [execute_setCapacity hn] at hexec'
      cases hexec'
    | step hparse' hexec' hruns =>
      rw [hparse] at hparse'
      obtain ⟨rfl, rfl⟩ := Prod.mk.inj (Option.some.inj hparse')
      rw [execute_setCapacity hn] at hexec'
      obtain rfl := Option.some.inj hexec'
      obtain ⟨hsize, hagain⟩ := ih ⟨_, hinv.setCapacity hn⟩ hruns
      refine ⟨hsize.trans hshrink, fun c _ more t'' rest' hmore => ?_⟩
      have hnow := hagain n (.inl hcap.symm) more t'' rest' hmore
      have hset : ({ t' with capacity := c } : DynamicTable).setCapacity n
          = { t' with capacity := n } := setCapacity_of_fits (hsize.trans hfits)
      rw [← hset] at hnow
      exact .step (parseInstruction_append more hparse).1 (execute_setCapacity hn) hnow

/-! ### Calls -/

/-- The next call ends as if it began with what is left. -/
def Harmless (d : QpackDecoder) (rest : List UInt8) : Prop :=
  ∀ more t' rest', Runs d.table (rest ++ more) t' rest' →
    Runs d.table (d.encoderBuffer ++ more) t' rest'

theorem AllDone.rest_eq_nil {t t' : DynamicTable} {x rest : List UInt8} (h : AllDone t x)
    (hruns : Runs t x t' rest) : rest = [] := by
  induction h generalizing t' rest with
  | nil t =>
    cases hruns with
    | stop _ => rfl
    | refused hparse _ => cases hparse
    | step hparse _ _ => cases hparse
  | step hparse hexec _ ih =>
    cases hruns with
    | stop hnone => rw [hparse] at hnone; cases hnone
    | refused hparse' hexec' =>
      rw [hparse] at hparse'
      obtain ⟨rfl, rfl⟩ := Prod.mk.inj (Option.some.inj hparse')
      rw [hexec] at hexec'
      cases hexec'
    | step hparse' hexec' hruns =>
      rw [hparse] at hparse'
      obtain ⟨rfl, rfl⟩ := Prod.mk.inj (Option.some.inj hparse')
      rw [hexec] at hexec'
      obtain rfl := Option.some.inj hexec'
      exact ih hruns

theorem RepeatsNothing.harmless {d : QpackDecoder} {chunk rest : List UInt8} {t' : DynamicTable}
    (h : RepeatsNothing d chunk) (hinv : ∃ added, d.table.Inv added)
    (hruns : Runs d.table (d.encoderBuffer ++ chunk) t' rest) :
    Harmless (d.feedEncoderStream chunk).1 rest := by
  intro more t'' rest' hmore
  rw [feed_of_runs hruns] at hmore ⊢
  by_cases hrest : rest = []
  · rw [if_pos hrest]
    rwa [hrest] at hmore
  · rw [if_neg hrest]
    rcases h with h | h
    · exact absurd (h.rest_eq_nil hruns) hrest
    · exact (h.repeat hinv hruns).2 t'.capacity (.inr rfl) more t'' rest' hmore

/-- Calls that repeat nothing run the loop over all the bytes. -/
theorem runs_exec {t₀ : DynamicTable} : ∀ (chunks : List (List UInt8)) {d : QpackDecoder}
    {bytes rest : List UInt8}, (∃ added, d.table.Inv added) → Runs t₀ bytes d.table rest →
    Harmless d rest → stream.Meets RepeatsNothing d chunks.dropLast →
    ∃ rest', Runs t₀ (bytes ++ chunks.flatten) (stream.exec d chunks).1.table rest'
  | [], d, bytes, rest, _, hruns, _, _ => by
    rw [List.flatten_nil, List.append_nil]
    exact ⟨rest, hruns⟩
  | chunk :: chunks, d, bytes, rest, hinv, hruns, hharmless, hmeets => by
    obtain ⟨t', rest', hrest⟩ := runs_total d.table (rest ++ chunk)
    have hcall := hharmless chunk t' rest' hrest
    have hfeed : (stream.step d chunk).1.table = t' := congrArg table (feed_of_runs hcall)
    have hall : Runs t₀ (bytes ++ chunk) (stream.step d chunk).1.table rest' := by
      rw [hfeed]
      exact hruns.append hrest
    rw [Machine.exec_cons]
    cases chunks with
    | nil =>
      rw [List.flatten_singleton]
      exact ⟨rest', hall⟩
    | cons next chunks =>
      rw [List.dropLast_cons_cons, Machine.meets_cons] at hmeets
      obtain ⟨hok, hmeets⟩ := hmeets
      have hinv' : ∃ added, (stream.step d chunk).1.table.Inv added := by
        rw [hfeed]
        exact hcall.inv hinv
      have ih := runs_exec (next :: chunks) hinv' hall (hok.harmless hinv hcall) hmeets
      rwa [List.append_assoc, ← List.flatten_cons] at ih

/-- A stream that is fed in chunks, none of which but the last leaves a finished insertion in the
buffer, leaves the table as one call with all of its bytes does. -/
theorem exec_chunks_eq (earlier : List (List UInt8)) (chunk : List UInt8)
    (chunks : List (List UInt8)) :
    let d := (stream.exec {} earlier).1
    stream.Meets RepeatsNothing d (chunk :: chunks).dropLast →
      (stream.exec d (chunk :: chunks)).1.table
        = (d.feedEncoderStream (chunk :: chunks).flatten).1.table := by
  intro d hmeets
  have hinv : ∃ added, d.table.Inv added := ⟨_, inv_exec earlier {} inv_new⟩
  obtain ⟨t', rest, hfirst⟩ := runs_total d.table (d.encoderBuffer ++ chunk)
  have hfeed : (stream.step d chunk).1.table = t' := congrArg table (feed_of_runs hfirst)
  cases chunks with
  | nil => rw [List.flatten_singleton]; rfl
  | cons next chunks =>
    rw [List.dropLast_cons_cons, Machine.meets_cons] at hmeets
    obtain ⟨hok, hmeets⟩ := hmeets
    have hruns : Runs d.table (d.encoderBuffer ++ chunk) (stream.step d chunk).1.table rest := by
      rw [hfeed]
      exact hfirst
    have hinv' : ∃ added, (stream.step d chunk).1.table.Inv added := by
      rw [hfeed]
      exact hfirst.inv hinv
    obtain ⟨rest', hall⟩ := runs_exec (next :: chunks) hinv' hruns (hok.harmless hinv hfirst) hmeets
    rw [List.append_assoc, ← List.flatten_cons] at hall
    rw [Machine.exec_cons, feed_of_runs hall]

/-- A capacity that is cut in its number, and then kept in the buffer with half an insertion. -/
theorem exec_chunks_eq_capacity :
    (stream.exec {} [[0x3F], [0x21, 0x41, 97], [1, 98]]).1.table
      = (feedEncoderStream {} [0x3F, 0x21, 0x41, 97, 1, 98]).1.table := by
  refine exec_chunks_eq [] [0x3F] [[0x21, 0x41, 97], [1, 98]] ⟨.inr (.incomplete rfl), ?_, trivial⟩
  exact .inr (.capacity rfl (by decide) (.incomplete rfl))

/-- The insertion of the first chunk is carried out again with the second one. -/
theorem insertion_repeated :
    let chunks := [[0x3F, 0x21, 0x41, 97, 1, 98, 0x41], [99, 1, 100]]
    (stream.exec {} chunks).1.table.insertCount = 3
      ∧ (feedEncoderStream {} chunks.flatten).1.table.insertCount = 2 := by
  decide

end QpackDecoder

end NimRtc.Qpack
