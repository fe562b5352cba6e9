import NimRtc.DtlsReassembly

/-!
# What the reassembly shim loses and forges

The shim sees the first record of a datagram and acts on all of it. Passing a datagram on loses
nothing, and dropping one loses nothing exactly when it holds proper fragments only. The number of
a synthesised record is that after the fragment that came first; two messages have different first
fragments, so such a number can only collide with that of a record passed on.
-/

namespace NimRtc

/-! ## Records and their bytes -/

theorem beBytes_two (n : ℕ) : beBytes 2 n = [byteAt n 1, byteAt n 0] := rfl

theorem beBytes_six (n : ℕ) :
    beBytes 6 n = [byteAt n 5, byteAt n 4, byteAt n 3, byteAt n 2, byteAt n 1, byteAt n 0] := rfl

theorem beNat_two (n : ℕ) (h : n < 256 ^ 2) : beNat [byteAt n 1, byteAt n 0] = n := by
  rw [← beBytes_two, beNat_beBytes, Nat.mod_eq_of_lt h]

theorem beNat_six (n : ℕ) (h : n < 256 ^ 6) :
    beNat [byteAt n 5, byteAt n 4, byteAt n 3, byteAt n 2, byteAt n 1, byteAt n 0] = n := by
  rw [← beBytes_six, beNat_beBytes, Nat.mod_eq_of_lt h]

namespace DtlsHandshakeReassembler

variable {s : DtlsHandshakeReassembler} {now : ℕ}

/-- What the reassembler does with a datagram whose first record is `r`. -/
theorem tryReassemble_encode (r : DtlsWireRecord) (rest : List UInt8) :
    s.tryReassemble now (r.encode ++ rest) = if r.contentType ≠ 22 then (s, .passThrough)
      else s.takeRecord r.version r.epoch r.seq r.seq_lt r.payload now := by
  have hlen := beNat_two r.payload.length r.payload_lt
  have hepoch : UInt16.ofNat (beNat [byteAt r.epoch.toNat 1, byteAt r.epoch.toNat 0]) = r.epoch := by
    rw [beNat_two _ r.epoch.toNat_lt, UInt16.ofNat_toNat]
  have hseq := beNat_six r.seq r.seq_lt
  have hcomplete : ¬ (r.payload ++ rest).length < r.payload.length := by simp
  simp only [DtlsWireRecord.encode, beBytes_two, beBytes_six, List.cons_append, List.nil_append,
    tryReassemble, hlen, hepoch, hseq, if_neg hcomplete, List.take_left]

/-- The outcome for a datagram is decided by where the first record would be kept. -/
theorem tryReassemble_records (now : ℕ) (records : List DtlsWireRecord) :
    (∃ k b version, records.head?.bind (s.slot now) = some (k, b) ∧
      s.tryReassemble now (records.flatMap (·.encode)) = if b.complete then
        ({ s with bufs := Function.update s.bufs k none }, .reassembled (b.synthesise version))
      else ({ s with bufs := Function.update s.bufs k (some b) }, .fragmentBuffered))
    ∨ records.head?.bind (s.slot now) = none
      ∧ s.tryReassemble now (records.flatMap (·.encode)) = (s, .passThrough) := by
  cases records with
  | nil => exact .inr ⟨rfl, rfl⟩
  | cons r rs =>
    rw [List.flatMap_cons, tryReassemble_encode, List.head?_cons, Option.bind_some, slot]
    by_cases hct : r.contentType ≠ 22
    · rw [if_pos hct, if_pos hct]
      exact .inr ⟨rfl, rfl⟩
    rw [if_neg hct, if_neg hct, takeRecord]
    cases parseFragment r.payload with
    | none => exact .inr ⟨rfl, rfl⟩
    | some f =>
      simp only
      cases s.bufferFor f r.epoch r.seq r.seq_lt now with
      | none => exact .inr ⟨rfl, rfl⟩
      | some b => exact .inl ⟨f.msgSeq, b.1.copyIn f b.2, r.version, rfl, rfl⟩

/-- A record taken for a fragment is the first of its message, or goes to the message it is of. -/
theorem slot_first {r : DtlsWireRecord} {k : UInt16} {b : FragmentBuf}
    (h : s.slot now r = some (k, b)) :
    b.first = r.number ∨ ∃ b₀, s.bufs k = some b₀ ∧ b.first = b₀.first := by
  unfold slot at h
  split_ifs at h
  cases hf : parseFragment r.payload with
  | none => simp [hf] at h
  | some f =>
    simp only [hf] at h
    cases hb : s.bufferFor f r.epoch r.seq r.seq_lt now with
    | none => simp [hb] at h
    | some b' =>
      rw [hb] at h
      obtain ⟨rfl, rfl⟩ := Prod.mk.inj (Option.some.inj h)
      unfold bufferFor at hb
      cases hk : s.bufs f.msgSeq with
      | none =>
        simp only [hk] at hb
        split_ifs at hb
        rw [← Option.some.inj hb]
        exact .inl rfl
      | some b₀ =>
        simp only [hk] at hb
        split_ifs at hb
        rw [← Option.some.inj hb]
        exact .inr ⟨b₀, rfl, rfl⟩

end DtlsHandshakeReassembler

/-! ## One datagram -/

theorem nextNumber_injective {m n : UInt16 × ℕ} (hm : m.2 < 256 ^ 6) (hn : n.2 < 256 ^ 6)
    (h : nextNumber m = nextNumber n) : m = n := by
  obtain ⟨hepoch, hseq⟩ := Prod.mk.inj h
  refine Prod.ext hepoch ?_
  omega

theorem number_synthesise (b : FragmentBuf) (version : UInt8 × UInt8) :
    (b.synthesise version).number = nextNumber b.first := rfl

namespace ShimRun

open DtlsHandshakeReassembler

variable {s : ShimRun} {records : List DtlsWireRecord} {now : ℕ}

/-- The records of a datagram are numbered apart from each other and from what came before. -/
def Fresh (s : ShimRun) (records : List DtlsWireRecord) : Prop :=
  ((s.received ++ records).map (·.number)).Nodup

/-- A buffer and a synthesised record each go back to a first fragment of their own. -/
structure Inv (s : ShimRun) : Prop where
  passed : ∀ r ∈ s.passedOn, r ∈ s.received
  live : ∀ k b, s.reassembler.bufs k = some b → b.first ∈ s.received.map (·.number)
  live_inj : ∀ k k' b b', s.reassembler.bufs k = some b → s.reassembler.bufs k' = some b' →
    b.first = b'.first → k = k'
  origin : ∀ r ∈ s.synthesised, ∃ m ∈ s.received.map (·.number), m.2 < 256 ^ 6
    ∧ r.number = nextNumber m ∧ ∀ k b, s.reassembler.bufs k = some b → b.first ≠ m

theorem Fresh.notMem (h : s.Fresh records) {r : DtlsWireRecord} (hr : r ∈ records) :
    r.number ∉ s.received.map (·.number) := by
  rw [Fresh, List.map_append, List.nodup_append] at h
  intro hmem
  exact h.2.2 _ hmem _ (List.mem_map_of_mem hr) rfl

/-- The three ways of a datagram. -/
theorem feed_cases (s : ShimRun) (records : List DtlsWireRecord) (now : ℕ) :
    (records.head?.bind (s.reassembler.slot now) = none
      ∧ s.feed records now = { s with
          recvBuf := s.recvBuf ++ records.flatMap (·.encode)
          received := s.received ++ records
          appended := s.appended ++ records.map .received })
    ∨ ∃ k b version, records.head?.bind (s.reassembler.slot now) = some (k, b)
      ∧ (b.complete = false ∧ s.feed records now = { s with
            received := s.received ++ records
            reassembler := { s.reassembler with
              bufs := Function.update s.reassembler.bufs k (some b) } }
        ∨ b.complete = true ∧ s.feed records now = { s with
            received := s.received ++ records
            reassembler := { s.reassembler with
              bufs := Function.update s.reassembler.bufs k none }
            recvBuf := s.recvBuf ++ (b.synthesise version).encode
            appended := s.appended ++ [.synthesised (b.synthesise version)] }) := by
  rcases s.reassembler.tryReassemble_records now records with
    ⟨k, b, version, hslot, heq⟩ | ⟨hslot, heq⟩
  · refine .inr ⟨k, b, version, hslot, ?_⟩
    cases hcomplete : b.complete with
    | false =>
      rw [hcomplete, if_neg Bool.false_ne_true] at heq
      exact .inl ⟨rfl, by simp only [feed, heq]⟩
    | true =>
      rw [hcomplete, if_pos rfl] at heq
      exact .inr ⟨rfl, by simp only [feed, heq]⟩
  · exact .inl ⟨hslot, by simp only [feed, heq]⟩

/-- The first fragment of the message a datagram goes to was received, and it is not that of
another message. -/
theorem first_of_slot (h : s.Inv) (hfresh : s.Fresh records) {k : UInt16} {b : FragmentBuf}
    (hslot : records.head?.bind (s.reassembler.slot now) = some (k, b)) :
    b.first ∈ (s.received ++ records).map (·.number)
      ∧ (∀ k' b', s.reassembler.bufs k' = some b' → k' ≠ k → b'.first ≠ b.first)
      ∧ ∀ r ∈ s.synthesised, r.number ≠ nextNumber b.first := by
  obtain ⟨r, hhead, hr⟩ := Option.bind_eq_some_iff.1 hslot
  have hmem : r ∈ records := List.mem_of_head? hhead
  rcases slot_first hr with hfirst | ⟨b₀, hb₀, hfirst⟩
  · have hnew := hfresh.notMem hmem
    rw [← hfirst] at hnew
    refine ⟨?_, fun k' b' hb' _ heq => hnew (heq ▸ h.live k' b' hb'), fun r' hr' heq => ?_⟩
    · rw [hfirst]
      exact List.mem_map_of_mem (List.mem_append_right _ hmem)
    · obtain ⟨m, hm, hlt, hnum, -⟩ := h.origin r' hr'
      rw [hnum] at heq
      rw [nextNumber_injective hlt b.firstSeq_lt heq] at hm
      exact hnew hm
  · refine ⟨?_, fun k' b' hb' hne heq => ?_, fun r' hr' heq => ?_⟩
    · rw [hfirst, List.map_append]
      exact List.mem_append_left _ (h.live k b₀ hb₀)
    · exact hne (h.live_inj k' k b' b₀ hb' hb₀ (heq.trans hfirst))
    · obtain ⟨m, -, hlt, hnum, hother⟩ := h.origin r' hr'
      rw [hnum] at heq
      exact hother k b₀ hb₀ (hfirst.symm.trans (nextNumber_injective hlt b.firstSeq_lt heq).symm)

theorem passedOn_append_received (records : List DtlsWireRecord) :
    (s.appended ++ records.map AppendedRecord.received).filterMap (·.received?)
      = s.passedOn ++ records := by
  rw [List.filterMap_append, List.filterMap_map]
  congr 1
  exact List.filterMap_some

theorem synthesised_append_received (records : List DtlsWireRecord) :
    (s.appended ++ records.map AppendedRecord.received).filterMap (·.synthesised?)
      = s.synthesised := by
  rw [List.filterMap_append, List.filterMap_map]
  have hnone : records.filterMap ((·.synthesised?) ∘ AppendedRecord.received) = [] :=
    List.filterMap_eq_nil_iff.2 fun _ _ => rfl
  rw [hnone, List.append_nil]
  rfl

/-- What is appended was passed on or synthesised. -/
theorem mem_appended_number (s : ShimRun) (n : UInt16 × ℕ) :
    n ∈ s.appended.map (·.record.number)
      ↔ n ∈ s.passedOn.map (·.number) ∨ n ∈ s.synthesised.map (·.number) := by
  simp only [passedOn, synthesised, List.mem_map, List.mem_filterMap]
  constructor
  · rintro ⟨a, ha, rfl⟩
    cases a with
    | received r => exact .inl ⟨r, ⟨_, ha, rfl⟩, rfl⟩
    | synthesised r => exact .inr ⟨r, ⟨_, ha, rfl⟩, rfl⟩
  · rintro (⟨r, ⟨a, ha, hr⟩, rfl⟩ | ⟨r, ⟨a, ha, hr⟩, rfl⟩)
    · cases a with
      | received r' => exact ⟨_, ha, congrArg _ (Option.some.inj hr)⟩
      | synthesised r' => cases hr
    · cases a with
      | received r' => cases hr
      | synthesised r' => exact ⟨_, ha, congrArg _ (Option.some.inj hr)⟩

/-! ### The invariant -/

/-- Giving buffers up keeps the invariant. -/
theorem Inv.of_bufs (h : s.Inv) {reassembler : DtlsHandshakeReassembler}
    (hbufs : ∀ k b, reassembler.bufs k = some b → s.reassembler.bufs k = some b) :
    { s with reassembler }.Inv where
  passed := h.passed
  live k b hb := h.live k b (hbufs k b hb)
  live_inj k k' b b' hb hb' := h.live_inj k k' b b' (hbufs k b hb) (hbufs k' b' hb')
  origin r hr := by
    obtain ⟨m, hm, hlt, hnum, hother⟩ := h.origin r hr
    exact ⟨m, hm, hlt, hnum, fun k b hb => hother k b (hbufs k b hb)⟩

theorem Inv.receive (h : s.Inv) (records : List DtlsWireRecord) :
    { s with received := s.received ++ records }.Inv := by
  have hsub : s.received.map (·.number) ⊆ (s.received ++ records).map (·.number) := by
    rw [List.map_append]
    exact List.subset_append_left _ _
  refine ⟨fun r hr => List.mem_append_left _ (h.passed r hr), fun k b hb => hsub (h.live k b hb),
    h.live_inj, fun r hr => ?_⟩
  obtain ⟨m, hm, rest⟩ := h.origin r hr
  exact ⟨m, hsub hm, rest⟩

/-- One message apart, the buffers are as they were. -/
theorem bufs_update_cases {bufs : UInt16 → Option FragmentBuf} {k k' : UInt16}
    {o : Option FragmentBuf} {b' : FragmentBuf} (h : Function.update bufs k o k' = some b') :
    k' = k ∧ o = some b' ∨ k' ≠ k ∧ bufs k' = some b' := by
  rcases eq_or_ne k' k with rfl | hne
  · rw [Function.update_self] at h
    exact .inl ⟨rfl, h⟩
  · rw [Function.update_of_ne hne] at h
    exact .inr ⟨hne, h⟩

theorem Inv.passOn (h : s.Inv) (hreceived : ∀ r ∈ records, r ∈ s.received) (recvBuf : List UInt8) :
    { s with recvBuf, appended := s.appended ++ records.map AppendedRecord.received }.Inv := by
  refine ⟨fun r hr => ?_, h.live, h.live_inj, fun r hr => ?_⟩
  · rw [passedOn, passedOn_append_received, List.mem_append] at hr
    rcases hr with hr | hr
    · exact h.passed r hr
    · exact hreceived r hr
  · rw [synthesised, synthesised_append_received] at hr
    exact h.origin r hr

/-- A message is kept whose first fragment no other message has. -/
theorem Inv.buffer (h : s.Inv) {k : UInt16} {b : FragmentBuf}
    (hfirst : b.first ∈ s.received.map (·.number))
    (hothers : ∀ k' b', s.reassembler.bufs k' = some b' → k' ≠ k → b'.first ≠ b.first)
    (hsynth : ∀ r ∈ s.synthesised, r.number ≠ nextNumber b.first) :
    { s with reassembler := { s.reassembler with
      bufs := Function.update s.reassembler.bufs k (some b) } }.Inv := by
  refine ⟨h.passed, fun k' b' hb' => ?_, fun k₁ k₂ b₁ b₂ h₁ h₂ hfirsts => ?_, fun r hr => ?_⟩
  · rcases bufs_update_cases hb' with ⟨-, heq⟩ | ⟨-, hb'⟩
    · rw [← Option.some.inj heq]
      exact hfirst
    · exact h.live k' b' hb'
  · rcases bufs_update_cases h₁ with ⟨hk₁, he₁⟩ | ⟨hne₁, hb₁⟩ <;>
      rcases bufs_update_cases h₂ with ⟨hk₂, he₂⟩ | ⟨hne₂, hb₂⟩
    · rw [hk₁, hk₂]
    · rw [← Option.some.inj he₁] at hfirsts
      exact absurd hfirsts.symm (hothers k₂ b₂ hb₂ hne₂)
    · rw [← Option.some.inj he₂] at hfirsts
      exact absurd hfirsts (hothers k₁ b₁ hb₁ hne₁)
    · exact h.live_inj k₁ k₂ b₁ b₂ hb₁ hb₂ hfirsts
  · obtain ⟨m, hm, hlt, hnum, hother⟩ := h.origin r hr
    refine ⟨m, hm, hlt, hnum, fun k' b' hb' => ?_⟩
    rcases bufs_update_cases hb' with ⟨-, heq⟩ | ⟨-, hb'⟩
    · rw [← Option.some.inj heq]
      rintro rfl
      exact hsynth r hr hnum
    · exact hother k' b' hb'

/-- A message is put together: its buffer goes and its record is numbered after its first
fragment. -/
theorem Inv.finish (h : s.Inv) {k : UInt16} {b : FragmentBuf}
    (hfirst : b.first ∈ s.received.map (·.number))
    (hothers : ∀ k' b', s.reassembler.bufs k' = some b' → k' ≠ k → b'.first ≠ b.first)
    (version : UInt8 × UInt8) (recvBuf : List UInt8) :
    { s with
      reassembler := { s.reassembler with bufs := Function.update s.reassembler.bufs k none }
      recvBuf
      appended := s.appended ++ [AppendedRecord.synthesised (b.synthesise version)] }.Inv := by
  have hgone : { s with reassembler := { s.reassembler with
      bufs := Function.update s.reassembler.bufs k none } }.Inv := by
    refine h.of_bufs fun k' b' hb' => ?_
    rcases bufs_update_cases hb' with ⟨-, heq⟩ | ⟨-, hb'⟩
    · cases heq
    · exact hb'
  refine ⟨fun r hr => ?_, hgone.live, hgone.live_inj, fun r hr => ?_⟩
  · rw [passedOn, List.filterMap_append, List.mem_append] at hr
    rcases hr with hr | hr
    · exact hgone.passed r hr
    · simp [AppendedRecord.received?] at hr
  · rw [synthesised, List.filterMap_append, List.mem_append] at hr
    rcases hr with hr | hr
    · exact hgone.origin r hr
    · simp only [AppendedRecord.synthesised?, List.filterMap_cons, List.filterMap_nil,
        List.mem_singleton] at hr
      subst hr
      refine ⟨b.first, hfirst, b.firstSeq_lt, number_synthesise b version, fun k' b' hb' => ?_⟩
      rcases bufs_update_cases hb' with ⟨-, heq⟩ | ⟨hne, hb'⟩
      · cases heq
      · exact hothers k' b' hb' hne

theorem inv_feed (h : s.Inv) (hfresh : s.Fresh records) : (s.feed records now).Inv := by
  have hrecv := h.receive records
  rcases s.feed_cases records now with ⟨-, heq⟩ | ⟨k, b, version, hslot, hcase⟩
  · rw [heq]
    exact hrecv.passOn (fun r hr => List.mem_append_right _ hr) _
  · obtain ⟨hfirst, hothers, hsynth⟩ := first_of_slot h hfresh hslot
    rcases hcase with ⟨-, heq⟩ | ⟨-, heq⟩
    · rw [heq]
      exact hrecv.buffer hfirst hothers hsynth
    · rw [heq]
      exact hrecv.finish hfirst hothers version _

/-! ### What a datagram keeps -/

/-- Dropping a datagram loses nothing exactly when it holds proper fragments only. -/
theorem kept_drop_iff (h : s.Inv) (hfresh : s.Fresh records)
    (hkept : (s.received.filter fun r => !r.isProperFragment).Sublist s.passedOn) :
    ((s.received ++ records).filter fun r => !r.isProperFragment).Sublist s.passedOn
      ↔ ∀ r ∈ records, r.isProperFragment := by
  rw [List.filter_append]
  constructor
  · intro hsub r hr
    by_contra hnot
    have hmem : r ∈ s.passedOn := by
      refine hsub.subset (List.mem_append_right _ (List.mem_filter.2 ⟨hr, ?_⟩))
      simpa using hnot
    exact hfresh.notMem hr (List.mem_map_of_mem (h.passed r hmem))
  · intro hall
    have hnil : (records.filter fun r => !r.isProperFragment) = [] := by
      refine List.filter_eq_nil_iff.2 fun r hr => ?_
      simp [hall r hr]
    rw [hnil, List.append_nil]
    exact hkept

/-- Passing a datagram on repeats no number exactly when none of its records has a synthesised
one. -/
theorem distinct_pass_iff (h : s.Inv) (hfresh : s.Fresh records)
    (hdistinct : (s.appended.map (·.record.number)).Nodup) :
    ((s.appended ++ records.map AppendedRecord.received).map (·.record.number)).Nodup
      ↔ ∀ r ∈ records, r.number ∉ s.synthesised.map (·.number) := by
  have hnew : (records.map (·.number)).Nodup := by
    rw [Fresh, List.map_append, List.nodup_append] at hfresh
    exact hfresh.2.1
  have hmap : (records.map AppendedRecord.received).map (·.record.number)
      = records.map (·.number) := by
    rw [List.map_map]
    rfl
  rw [List.map_append, hmap, List.nodup_append]
  constructor
  · rintro ⟨-, -, hdisj⟩ r hr hmem
    exact hdisj _ ((s.mem_appended_number _).2 (.inr hmem)) _ (List.mem_map_of_mem hr) rfl
  · refine fun hall => ⟨hdistinct, hnew, ?_⟩
    rintro n hn m hm rfl
    obtain ⟨r, hr, rfl⟩ := List.mem_map.1 hm
    rcases (s.mem_appended_number _).1 hn with hn | hn
    · obtain ⟨r', hr', heq⟩ := List.mem_map.1 hn
      exact hfresh.notMem hr (heq ▸ List.mem_map_of_mem (h.passed r' hr'))
    · exact hall r hr hn

theorem distinct_synthesise_iff {n : UInt16 × ℕ} {r : DtlsWireRecord} (hr : r.number = n)
    (hdistinct : (s.appended.map (·.record.number)).Nodup)
    (hsynth : ∀ r ∈ s.synthesised, r.number ≠ n) :
    ((s.appended ++ [AppendedRecord.synthesised r]).map (·.record.number)).Nodup
      ↔ n ∉ s.passedOn.map (·.number) := by
  have hnot : n ∉ s.synthesised.map (·.number) := by
    intro hmem
    obtain ⟨r', hr', heq⟩ := List.mem_map.1 hmem
    exact hsynth r' hr' heq
  rw [List.map_append, List.map_singleton, AppendedRecord.record, hr, List.nodup_append]
  constructor
  · rintro ⟨-, -, hdisj⟩ hmem
    exact hdisj n ((s.mem_appended_number n).2 (.inl hmem)) n (by simp) rfl
  · refine fun hpassed => ⟨hdistinct, List.nodup_singleton n, ?_⟩
    rintro m hm m' hm' rfl
    rw [List.mem_singleton.1 hm'] at hm
    rcases (s.mem_appended_number n).1 hm with hm | hm
    · exact hpassed hm
    · exact hnot hm

theorem faithful_feed_iff (h : s.Inv) (hfresh : s.Fresh records) (hs : s.Faithful) :
    (s.feed records now).Faithful ↔ s.Separates (.feed records now) := by
  simp only [Separates]
  rcases s.feed_cases records now with ⟨hslot, heq⟩ | ⟨k, b, version, hslot, hcase⟩
  · rw [heq, hslot]
    simp only
    rw [← distinct_pass_iff h hfresh hs.distinct]
    refine ⟨fun hf => hf.distinct, fun hd => ⟨?_, ?_, hd⟩⟩
    · have hrecords : (records.map AppendedRecord.received).map (·.record) = records := by
        rw [List.map_map]
        exact List.map_id records
      rw [List.map_append, hrecords, List.flatMap_append, ← hs.bytes]
    · rw [passedOn, passedOn_append_received, List.filter_append]
      exact hs.kept.append (List.filter_sublist)
  rw [hslot]
  simp only
  rw [← kept_drop_iff h hfresh hs.kept]
  rcases hcase with ⟨hcomplete, heq⟩ | ⟨hcomplete, heq⟩ <;> rw [heq]
  · refine ⟨fun hf => ⟨hf.kept, fun hc => ?_⟩, fun hk => ⟨hs.bytes, hk.1, hs.distinct⟩⟩
    rw [hcomplete] at hc
    cases hc
  · have hsynth := (first_of_slot h hfresh hslot).2.2
    have hpassed : ∀ r, (s.appended ++ [AppendedRecord.synthesised r]).filterMap (·.received?)
        = s.passedOn := by
      intro r
      simp [passedOn, AppendedRecord.received?]
    rw [← distinct_synthesise_iff (number_synthesise b version) hs.distinct hsynth]
    constructor
    · intro hf
      have hkept := hf.kept
      rw [passedOn, hpassed] at hkept
      exact ⟨hkept, fun _ => hf.distinct⟩
    · rintro ⟨hkept, hdistinct⟩
      refine ⟨?_, ?_, hdistinct hcomplete⟩
      · simp only [List.map_append, List.flatMap_append, hs.bytes, List.map_cons, List.map_nil,
          List.flatMap_cons, List.flatMap_nil, List.append_nil, AppendedRecord.record]
      · rw [passedOn, hpassed]
        exact hkept

/-! ## Runs -/

/-- The records of the event are numbered apart from what came before. -/
def FreshEvent (s : ShimRun) (e : ShimEvent) : Prop := s.Fresh e.records

theorem received_step (s : ShimRun) : ∀ e, (s.step e).received = s.received ++ e.records
  | .feed records now => by
    show (s.feed records now).received = s.received ++ records
    rcases s.feed_cases records now with ⟨-, heq⟩ | ⟨k, b, version, -, ⟨-, heq⟩ | ⟨-, heq⟩⟩ <;> rw [heq]
  | .gc _ | .clear => (List.append_nil _).symm

theorem inv_step (h : s.Inv) : ∀ e, s.FreshEvent e → (s.step e).Inv
  | .feed _ _, hfresh => inv_feed h hfresh
  | .gc now, _ => h.of_bufs fun k b hb => (Option.filter_eq_some_iff.1 hb).1
  | .clear, _ => h.of_bufs fun k b hb => by cases hb

theorem faithful_step_iff (h : s.Inv) : ∀ e, s.FreshEvent e → s.Faithful →
    ((s.step e).Faithful ↔ s.Separates e)
  | .feed _ _, hfresh, hs => faithful_feed_iff h hfresh hs
  | .gc _, _, hs => ⟨fun _ => trivial, fun _ => ⟨hs.bytes, hs.kept, hs.distinct⟩⟩
  | .clear, _, hs => ⟨fun _ => trivial, fun _ => ⟨hs.bytes, hs.kept, hs.distinct⟩⟩

/-- Records numbered apart over the whole run are so at every event. -/
theorem meets_fresh : ∀ (es : List ShimEvent) (s : ShimRun),
    ((s.received ++ es.flatMap (·.records)).map (·.number)).Nodup → machine.Meets FreshEvent s es
  | [], _, _ => trivial
  | e :: es, s, h => by
    rw [List.flatMap_cons, ← List.append_assoc] at h
    refine ⟨?_, meets_fresh es (s.step e) ?_⟩
    · rw [List.map_append] at h
      exact (List.nodup_append.1 h).1
    · rw [received_step]
      exact h

/-- The shim loses and forges nothing along a run exactly when every datagram whose first record it
takes for a fragment holds proper fragments only, and no record passed on has the number after
the first fragment of a message that is put together. -/
theorem faithful_iff_separates (es : List ShimEvent)
    (hdistinct : ((es.flatMap (·.records)).map (·.number)).Nodup) :
    machine.Always Faithful {} es ↔ machine.Meets Separates {} es := by
  have hinit : ({} : ShimRun).Inv := by
    refine ⟨fun r hr => ?_, fun k b hb => ?_, fun k k' b b' hb => ?_, fun r hr => ?_⟩
    · cases hr
    · cases hb
    · cases hb
    · cases hr
  have hstart : ({} : ShimRun).Faithful := ⟨rfl, List.Sublist.refl _, List.nodup_nil⟩
  have hmeets : machine.Meets FreshEvent {} es := meets_fresh es {} (by simpa using hdistinct)
  exact Machine.always_iff_meets (M := machine) (I := Inv)
    (fun s e h hfresh => inv_step h e hfresh)
    (fun s e h hfresh hs => faithful_step_iff h e hfresh hs) es hinit hstart hmeets

/-- A handshake message of four bytes in two records, and a record after them. -/
def firstHalf : DtlsWireRecord :=
  { contentType := 22, epoch := 0, seq := 0, payload := [1, 0, 0, 4, 0, 0, 0, 0, 0, 0, 0, 2, 7, 8] }

def secondHalf : DtlsWireRecord :=
  { contentType := 22, epoch := 0, seq := 1, payload := [1, 0, 0, 4, 0, 0, 0, 0, 2, 0, 0, 2, 9, 10] }

def nextRecord : DtlsWireRecord := { contentType := 20, epoch := 0, seq := 2, payload := [1] }

/-- The two halves in order, and then the record. -/
theorem faithful_in_order : machine.Always Faithful {}
    [.feed [firstHalf] 0, .feed [secondHalf] 0, .feed [nextRecord] 0] := by
  refine (faithful_iff_separates _ (by decide)).2 ⟨?_, ?_, ?_, trivial⟩
  · show (∀ r ∈ [firstHalf], r.isProperFragment) ∧ _
    refine ⟨by decide, fun _ => ?_⟩
    decide
  · show (∀ r ∈ [secondHalf], r.isProperFragment) ∧ _
    refine ⟨by decide, fun _ => ?_⟩
    decide
  · show ∀ r ∈ [nextRecord], _
    decide

/-- A record in the datagram of a fragment is lost; and with the halves the other way round, the
message put together takes the number of the record after them. -/
theorem record_lost :
    ((machine.exec {} [.feed [firstHalf, nextRecord] 0]).1.appended = []
      ∧ ¬ (machine.exec {} [.feed [firstHalf, nextRecord] 0]).1.Faithful)
    ∧ (machine.exec {} [.feed [secondHalf] 0, .feed [firstHalf] 0, .feed [nextRecord] 0]).1.appended.map
        (·.record.number) = [(0, 2), (0, 2)]
      ∧ ¬ (machine.exec {} [.feed [secondHalf] 0, .feed [firstHalf] 0, .feed [nextRecord] 0]).1.Faithful := by
  have hlost : (machine.exec {} [.feed [firstHalf, nextRecord] 0]).1.appended = [] := by
    decide
  have hforged : (machine.exec {} [.feed [secondHalf] 0, .feed [firstHalf] 0,
      .feed [nextRecord] 0]).1.appended.map (·.record.number) = [(0, 2), (0, 2)] := by
    decide
  refine ⟨⟨hlost, fun h => ?_⟩, hforged, fun h => ?_⟩
  · have hkept := h.kept.subset (a := nextRecord) (by decide)
    rw [passedOn, hlost] at hkept
    cases hkept
  · have hdistinct := h.distinct
    rw [hforged] at hdistinct
    exact absurd hdistinct (by decide)

end ShimRun

end NimRtc
