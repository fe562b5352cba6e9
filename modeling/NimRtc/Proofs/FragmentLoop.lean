import NimRtc.VideoSenderLoops
import NimRtc.Proofs.FragmentTable

/-!
# When the loops of `emit_h264` end

A fragment takes two bytes of headers, so with an mtu of two it has no room for a byte of the unit:
the size check of `build_fu_a` passes, and the offset stays where it is. With any other mtu the loop
goes on or fails, and the loops end with what the packetizer gives.
-/

namespace NimRtc.H264

open Loop (Ends)

theorem ok_ne_error {ε α : Type*} {a : α} {e : ε} : (Except.ok a : Except ε α) ≠ .error e := nofun

/-! ### The fragment loop -/

/-- The loop ends with what the bounded loop gives, if that does not run out of rounds. -/
theorem ends_fragmentsFrom {mtu : ℕ} {n : List UInt8} : ∀ (fuel offset : ℕ)
    (fragments : List (List UInt8)) {r}, fragmentsFrom mtu n fuel offset = r → r ≠ .error .diverges →
    Ends (fragmentRound mtu n) (offset, fragments) ((fragments ++ ·) <$> r)
  | fuel, offset, fragments, r, h, hr => by
    rw [fragmentsFrom.eq_def] at h
    simp only [] at h
    by_cases hdone : n.length - 1 ≤ offset
    · rw [if_pos hdone] at h
      refine Ends.here ?_
      simp only [fragmentRound, if_pos hdone, ← h]
      show Sum.inr (Except.ok fragments) = Sum.inr (Except.ok (fragments ++ []))
      rw [List.append_nil]
    · rw [if_neg hdone] at h
      cases fuel with
      | zero => exact absurd h.symm hr
      | succ fuel =>
        simp only [] at h
        generalize hlen : (if (if 2 < mtu then mtu - 2 else 0) < n.length - 1 - offset
          then (if 2 < mtu then mtu - 2 else 0) else n.length - 1 - offset) = len at h
        cases hbuild : buildFuA (n.headD 0 &&& kNaluTypeMask) ((n.drop (1 + offset)).take len)
            (offset == 0) (offset + len == n.length - 1) mtu with
        | none =>
          simp only [hbuild] at h
          refine Ends.here ?_
          simp only [fragmentRound, if_neg hdone, hlen, hbuild, ← h]
          rfl
        | some packet =>
          cases packet with
          | nil =>
            simp only [hbuild] at h
            refine Ends.here ?_
            simp only [fragmentRound, if_neg hdone, hlen, hbuild, ← h]
            rfl
          | cons indicator frag =>
            simp only [hbuild] at h
            generalize hpatched : (indicator &&& ~~~kNriMask
              ||| (((n.headD 0 &&& kNriMask) >>> 5) &&& 0x03) <<< 5) :: frag = patched at h
            have hround : fragmentRound mtu n (offset, fragments)
                = .inl (offset + len, fragments ++ [patched]) := by
              simp only [fragmentRound, if_neg hdone, hlen, hbuild, hpatched]
            refine Ends.next hround ?_
            cases hlater : fragmentsFrom mtu n fuel (offset + len) with
            | error e =>
              rw [hlater] at h
              rw [← h] at hr ⊢
              exact ends_fragmentsFrom fuel (offset + len) _ hlater hr
            | ok frags =>
              rw [hlater] at h
              have hends := ends_fragmentsFrom fuel (offset + len) (fragments ++ [patched]) hlater
                ok_ne_error
              rw [← h]
              show Ends _ _ (Except.ok (fragments ++ patched :: frags))
              rw [List.append_cons fragments patched frags]
              exact hends

/-- With an mtu of two the offset stays where it is. -/
theorem not_ends_two {n : List UInt8} (hn : 2 < n.length) (r : Except EmitError (List (List UInt8))) :
    ¬ Ends (fragmentRound 2 n) (0, []) r := by
  refine Loop.not_ends (I := fun s => s.1 = 0) (fun s hs => ?_) rfl r
  obtain ⟨offset, fragments⟩ := s
  obtain rfl : offset = 0 := hs
  have hempty : (if 0 < n.length - 1 - 0 then 0 else n.length - 1 - 0) = 0 := if_pos (by omega)
  simp only [fragmentRound, if_neg (show ¬ n.length - 1 ≤ 0 by omega), if_neg (lt_irrefl 2), hempty,
    buildFuA, List.take_zero, List.length_nil]
  exact ⟨_, rfl, rfl⟩

/-- With any other mtu the bounded loop does not run out of rounds. -/
theorem fragmentsFrom_ends {mtu : ℕ} (hmtu : mtu ≠ 2) (n : List UInt8) :
    (∃ frags, fragmentsFrom mtu n n.length 0 = .ok frags)
      ∨ fragmentsFrom mtu n n.length 0 = .error .buildFuAFailed := by
  match n with
  | [] =>
    left
    rw [fragmentsFrom.eq_def]
    exact ⟨[], rfl⟩
  | first :: body =>
    rcases Nat.lt_or_ge 2 mtu with hlarge | hsmall
    · exact .inl (fragmentsFrom_ok hlarge first body _ 0 (by simp))
    · have hnone : ∀ type frag start «end», buildFuA type frag start «end» mtu = none :=
        fun _ _ _ _ => if_pos (by omega)
      rw [fragmentsFrom.eq_def]
      simp only []
      by_cases hdone : (first :: body).length - 1 ≤ 0
      · rw [if_pos hdone]
        exact .inl ⟨[], rfl⟩
      · rw [if_neg hdone]
        right
        simp only [List.length_cons, hnone]

/-- The loop over the units ends with what the bounded loops give. -/
theorem fragmented_largeFragments {mtu : ℕ} : ∀ {nalus : List (List UInt8)},
    mtu ≠ 2 ∨ (∀ n ∈ nalus, n.length ≤ 2) → Fragmented mtu nalus (largeFragments mtu nalus)
  | [], _ => .nil
  | n :: ns, h => by
    have ih := @fragmented_largeFragments mtu ns (h.imp_right fun hall m hm =>
      hall m (List.mem_cons_of_mem _ hm))
    rw [largeFragments]
    split_ifs with hlong
    · have hmtu : mtu ≠ 2 := by
        rintro rfl
        have := h.resolve_left (by simp) n List.mem_cons_self
        omega
      rcases fragmentsFrom_ends hmtu n with ⟨frags, hfrags⟩ | hfailed
      · have hends := ends_fragmentsFrom n.length 0 [] hfrags ok_ne_error
        have hlater := Fragmented.long hlong hends ih
        rw [hfrags]
        cases hrest : largeFragments mtu ns with
        | error e =>
          rw [hrest] at hlater
          exact hlater
        | ok rest =>
          rw [hrest] at hlater
          exact hlater
      · rw [hfailed]
        exact .failed hlong (ends_fragmentsFrom n.length 0 [] hfailed (by decide))
    · exact .short hlong ih

/-- With an mtu of two a unit longer than that keeps the loop over the units going. -/
theorem not_fragmented_two {nalus : List (List UInt8)} {r} (h : Fragmented 2 nalus r) :
    ∀ n ∈ nalus, n.length ≤ 2 := by
  induction h with
  | nil => exact nofun
  | short hshort _ ih => exact List.forall_mem_cons.2 ⟨not_lt.1 hshort, ih⟩
  | failed hlong hends => exact absurd hends (not_ends_two hlong _)
  | long hlong hends => exact absurd hends (not_ends_two hlong _)

theorem Fragmented.unique {mtu : ℕ} {nalus : List (List UInt8)} {r r'} (h : Fragmented mtu nalus r)
    (h' : Fragmented mtu nalus r') : r = r' := by
  induction h generalizing r' with
  | nil =>
    cases h'
    rfl
  | short hshort _ ih =>
    cases h' with
    | short _ hlater => exact ih hlater
    | failed hlong => exact absurd hlong hshort
    | long hlong => exact absurd hlong hshort
  | failed hlong hends =>
    cases h' with
    | short hshort => exact absurd hlong hshort
    | failed _ hends' => exact congrArg Except.error (Except.error.inj (hends.unique hends'))
    | long _ hends' => cases hends.unique hends'
  | long hlong hends _ ih =>
    cases h' with
    | short hshort => exact absurd hlong hshort
    | failed _ hends' => cases hends.unique hends'
    | long _ hends' hlater => rw [Except.ok.inj (hends.unique hends'), ih hlater]

/-! ### The walk -/

theorem append_map_map {α ε : Type*} (as bs : List α) (r : Except ε (List α)) :
    (as ++ ·) <$> (bs ++ ·) <$> r = ((as ++ bs) ++ ·) <$> r := by
  cases r with
  | error e => rfl
  | ok cs => exact congrArg Except.ok (List.append_assoc as bs cs).symm

/-- The walk ends with what the bounded walk gives. -/
theorem ends_packetsFrom {mtu : ℕ} {large : List (List (List UInt8))} {nalus : List (List UInt8)} :
    ∀ (fuel i : ℕ) (packets : Packets), (nalus.drop i).length ≤ fuel →
    Ends (emitRound mtu large nalus) (i, packets)
      ((packets ++ ·) <$> packetsFrom mtu large fuel i (nalus.drop i)) := by
  intro fuel
  induction fuel with
  | zero =>
    intro i packets hfuel
    have hnil := List.eq_nil_of_length_eq_zero (Nat.le_zero.1 hfuel)
    refine Ends.here ?_
    simp only [emitRound, hnil, packetsFrom]
    exact congrArg (fun ps => Sum.inr (Except.ok ps)) (List.append_nil packets).symm
  | succ fuel ih =>
    intro i packets hfuel
    cases hdrop : nalus.drop i with
    | nil =>
      refine Ends.here ?_
      simp only [emitRound, hdrop, packetsFrom]
      exact congrArg (fun ps => Sum.inr (Except.ok ps)) (List.append_nil packets).symm
    | cons n ns =>
      have hstep : ∀ k, nalus.drop (i + k) = (n :: ns).drop k := fun k => by
        rw [← hdrop, List.drop_drop]
      rw [hdrop, List.length_cons] at hfuel
      rw [packetsFrom]
      by_cases hlong : mtu < n.length
      · rw [if_pos hlong]
        cases hfrags : large[i]? with
        | none =>
          refine Ends.here ?_
          simp only [emitRound, hdrop, if_pos hlong, hfrags]
          rfl
        | some frags =>
          have hround : emitRound mtu large nalus (i, packets)
              = .inl (i + 1,
                packets ++ [(.fua, frags.mapIdx fun k f => ⟨f, k + 1 == frags.length⟩)]) := by
            simp only [emitRound, hdrop, if_pos hlong, hfrags]
          have hlater := ih (i + 1) (packets
            ++ [(.fua, frags.mapIdx fun k f => ⟨f, k + 1 == frags.length⟩)])
            (by rw [hstep, List.drop_one, List.tail_cons]; omega)
          rw [hstep, List.drop_one, List.tail_cons, ← append_map_map] at hlater
          exact Ends.next hround hlater
      · rw [if_neg hlong]
        generalize hgroup : stapAGroup mtu (if 1 < mtu then mtu - 1 else 0) (n :: ns) = group
        by_cases hempty : group = []
        · have hround : emitRound mtu large nalus (i, packets) = .inl (i + 1, packets) := by
            simp only [emitRound, hdrop, if_neg hlong, hgroup, if_pos hempty]
          have hlater := ih (i + 1) packets (by rw [hstep, List.drop_one, List.tail_cons]; omega)
          rw [hstep, List.drop_one, List.tail_cons] at hlater
          simp only [if_pos hempty]
          exact Ends.next hround hlater
        · have hround : emitRound mtu large nalus (i, packets)
              = .inl (i + group.length, packets ++ groupPackets mtu group) := by
            simp only [emitRound, hdrop, if_neg hlong, hgroup, if_neg hempty]
          have hpos := List.length_pos_iff.2 hempty
          have hlater := ih (i + group.length) (packets ++ groupPackets mtu group)
            (by rw [hstep, List.length_drop, List.length_cons]; omega)
          rw [hstep, ← append_map_map] at hlater
          simp only [if_neg hempty]
          exact Ends.next hround hlater

/-- The walk stays inside the table if it has an entry for each long unit at its index. -/
theorem packetsFrom_inside {mtu : ℕ} {large : List (List (List UInt8))} : ∀ (fuel i : ℕ)
    (l : List (List UInt8)), (∀ j n, l[j]? = some n → mtu < n.length → i + j < large.length) →
    ∃ ps, packetsFrom mtu large fuel i l = .ok ps
  | _, _, [], _ => ⟨[], by simp [packetsFrom]⟩
  | 0, _, _ :: _, _ => ⟨[], by simp [packetsFrom]⟩
  | fuel + 1, i, n :: ns, h => by
    have hdrop : ∀ k, ∀ j m, ((n :: ns).drop k)[j]? = some m → mtu < m.length →
        i + k + j < large.length := fun k j m hm hlong => by
      rw [List.getElem?_drop] at hm
      rw [Nat.add_assoc]
      exact h (k + j) m hm hlong
    rw [packetsFrom]
    by_cases hlong : mtu < n.length
    · rw [if_pos hlong]
      have hlt := h 0 n rfl hlong
      rw [Nat.add_zero] at hlt
      obtain ⟨ps, hps⟩ := packetsFrom_inside fuel (i + 1) ns (hdrop 1)
      rw [List.getElem?_eq_getElem hlt]
      simp only [hps]
      exact ⟨_, rfl⟩
    · rw [if_neg hlong]
      generalize stapAGroup mtu (if 1 < mtu then mtu - 1 else 0) (n :: ns) = group
      simp only []
      split_ifs
      · exact packetsFrom_inside fuel (i + 1) ns (hdrop 1)
      · obtain ⟨ps, hps⟩ := packetsFrom_inside fuel (i + group.length) _ (hdrop group.length)
        rw [hps]
        exact ⟨_, rfl⟩

/-! ### Both loops -/

variable {cfg : SenderConfig} {nalus : List (List UInt8)}

theorem EmitEnds.unique {r r'} (h : EmitEnds cfg nalus r) (h' : EmitEnds cfg nalus r') : r = r' := by
  rw [EmitEnds] at h h'
  split_ifs at h h'
  · rw [h, h']
  · obtain ⟨table, htable, hr⟩ := h
    obtain ⟨table', htable', hr'⟩ := h'
    obtain rfl := htable.unique htable'
    cases table with
    | error e => exact hr.trans hr'.symm
    | ok large => exact Loop.Ends.unique hr hr'

/-- The loops end with what the packetizer gives. -/
theorem emitEnds_packetize (h : cfg.packetizationMode = .interleaved ∨ cfg.mtu ≠ 2
    ∨ ∀ n ∈ nalus, n.length ≤ 2) : EmitEnds cfg nalus (packetize cfg nalus) := by
  rw [EmitEnds, packetize]
  split_ifs with hmode
  · rfl
  refine ⟨_, fragmented_largeFragments (h.resolve_left hmode), ?_⟩
  cases largeFragments cfg.mtu nalus with
  | error e => rfl
  | ok large =>
    have hends := @ends_packetsFrom cfg.mtu large nalus nalus.length 0 [] (le_refl _)
    have hmap : ∀ r : Except EmitError Packets, ([] ++ ·) <$> r = r := by
      rintro (e | ps) <;> rfl
    rw [hmap] at hends
    exact hends

/-- The loops end unless a unit is cut with an mtu of two. -/
theorem emitEnds_iff : (∃ r, EmitEnds cfg nalus r) ↔ cfg.packetizationMode = .interleaved
    ∨ cfg.mtu ≠ 2 ∨ ∀ n ∈ nalus, n.length ≤ 2 := by
  refine ⟨?_, fun h => ⟨_, emitEnds_packetize h⟩⟩
  rintro ⟨r, hr⟩
  by_cases hmode : cfg.packetizationMode = .interleaved
  · exact .inl hmode
  by_cases hmtu : cfg.mtu = 2
  · rw [EmitEnds, if_neg hmode, hmtu] at hr
    obtain ⟨table, htable, -⟩ := hr
    exact .inr (.inr (not_fragmented_two htable))
  · exact .inr (.inl hmtu)

theorem largeFragments_ends {mtu : ℕ} : ∀ {nalus : List (List UInt8)},
    mtu ≠ 2 ∨ (∀ n ∈ nalus, n.length ≤ 2) → (∃ large, largeFragments mtu nalus = .ok large)
      ∨ largeFragments mtu nalus = .error .buildFuAFailed
  | [], _ => .inl ⟨[], rfl⟩
  | n :: ns, h => by
    have ih := largeFragments_ends (h.imp_right fun hall m hm => hall m (List.mem_cons_of_mem _ hm))
    rw [largeFragments]
    split_ifs with hlong
    · have hmtu : mtu ≠ 2 := by
        rintro rfl
        have := h.resolve_left (by simp) n List.mem_cons_self
        omega
      rcases fragmentsFrom_ends hmtu n with ⟨frags, hfrags⟩ | hfailed
      · rcases ih with ⟨rest, hrest⟩ | hrest
        · rw [hfrags, hrest]
          exact .inl ⟨_, rfl⟩
        · rw [hfrags, hrest]
          exact .inr rfl
      · rw [hfailed]
        exact .inr rfl
    · exact ih

/-- The packetizer reads past the table exactly where a table is built and not all long units come
first. -/
theorem packetize_outOfRange_iff (hmode : cfg.packetizationMode ≠ .interleaved)
    (h : cfg.mtu ≠ 2 ∨ ∀ n ∈ nalus, n.length ≤ 2) : packetize cfg nalus = .error .outOfRange
      ↔ ¬ Unbuildable cfg.mtu nalus ∧ ¬ LongFirst cfg.mtu nalus := by
  rw [packetize, if_neg hmode]
  by_cases hbuild : Unbuildable cfg.mtu nalus
  · have hnone : ¬ ∃ large, largeFragments cfg.mtu nalus = .ok large := by
      rintro ⟨large, hlarge⟩
      exact largeFragments_unbuildable hbuild large hlarge
    rw [(largeFragments_ends h).resolve_left hnone]
    exact iff_of_false (by simp) fun h => h.1 hbuild
  obtain ⟨large, hlarge⟩ := largeFragments_isOk hbuild
  have hlength : large.length = (nalus.filter fun n => cfg.mtu < n.length).length := by
    rw [(largeFragments_ok hlarge).1, List.length_map]
  simp only [hlarge]
  by_cases hfirst : LongFirst cfg.mtu nalus
  · refine iff_of_false ?_ fun h => h.2 hfirst
    obtain ⟨long, short, rfl, hlong, hshort⟩ := hfirst
    have hinside : ∀ j n, (long ++ short)[j]? = some n → cfg.mtu < n.length → 0 + j < large.length := by
      intro j n hj hn
      rw [hlength, filter_large hlong hshort, Nat.zero_add]
      by_contra hpast
      rw [List.getElem?_append_right (not_lt.1 hpast)] at hj
      have := hshort n (List.mem_of_getElem? hj)
      omega
    obtain ⟨ps, hps⟩ := packetsFrom_inside (long ++ short).length 0 _ hinside
    rw [hps]
    exact ok_ne_error
  · refine iff_of_true ?_ ⟨hbuild, hfirst⟩
    obtain ⟨j, n, hj, hlong, hpast⟩ := (large_first_or cfg.mtu nalus).resolve_left hfirst
    exact packetsFrom_outOfRange _ 0 j nalus n (le_refl _) hj hlong (by omega)

/-- The loops end unless the mtu is two and a unit is longer, and they end with success or an error
unless, besides, a fragment table is built and read past its end. -/
theorem emitH264_ends_iff (cfg : SenderConfig) (nalus : List (List UInt8)) :
    ((∃ r, EmitEnds cfg nalus r) ↔ cfg.packetizationMode = .interleaved ∨ cfg.mtu ≠ 2
        ∨ ∀ n ∈ nalus, n.length ≤ 2)
      ∧ ((∃ r, EmitEnds cfg nalus r ∧ r ≠ .error .outOfRange) ↔ cfg.packetizationMode = .interleaved
        ∨ (cfg.mtu < 2 ∧ ∃ n ∈ nalus, 2 ≤ n.length)
        ∨ ((cfg.mtu ≠ 2 ∨ ∀ n ∈ nalus, n.length ≤ 2) ∧ LongFirst cfg.mtu nalus)) := by
  refine ⟨emitEnds_iff, ?_⟩
  by_cases hmode : cfg.packetizationMode = .interleaved
  · refine iff_of_true ⟨_, emitEnds_packetize (.inl hmode), ?_⟩ (.inl hmode)
    rw [packetize, if_pos hmode]
    simp
  by_cases hends : cfg.mtu ≠ 2 ∨ ∀ n ∈ nalus, n.length ≤ 2
  · have hpacketize := emitEnds_packetize (.inr hends)
    have hrange := packetize_outOfRange_iff hmode hends
    have hbuild : Unbuildable cfg.mtu nalus ↔ cfg.mtu < 2 ∧ ∃ n ∈ nalus, 2 ≤ n.length := by
      constructor
      · rintro ⟨hmtu, n, hn, hlong, htwo⟩
        rcases hends with hne | hall
        · exact ⟨by omega, n, hn, htwo⟩
        · have := hall n hn
          exact ⟨by omega, n, hn, htwo⟩
      · rintro ⟨hmtu, n, hn, htwo⟩
        exact ⟨by omega, n, hn, by omega, htwo⟩
    have hresult : (∃ r, EmitEnds cfg nalus r ∧ r ≠ .error .outOfRange)
        ↔ packetize cfg nalus ≠ .error .outOfRange := by
      refine ⟨?_, fun hne => ⟨_, hpacketize, hne⟩⟩
      rintro ⟨r, hr, hne⟩
      exact hr.unique hpacketize ▸ hne
    rw [hresult, ne_eq, hrange, ← hbuild]
    tauto
  · refine iff_of_false ?_ ?_
    · rintro ⟨r, hr, -⟩
      exact (emitEnds_iff.1 ⟨r, hr⟩).elim hmode hends
    · rintro (h | ⟨hmtu, -⟩ | ⟨h, -⟩)
      · exact hmode h
      · exact hends (.inl (by omega))
      · exact hends h

/-- With an mtu of two a slice of three bytes is cut for ever. -/
theorem slice_cut_for_ever :
    ¬ ∀ (cfg : SenderConfig) (nalus : List (List UInt8)),
      ∃ r, EmitEnds cfg nalus r ∧ r ≠ .error .outOfRange := by
  intro h
  obtain ⟨r, hr, -⟩ := h { mtu := 2 } [[0x65, 1, 2]]
  have hend := emitEnds_iff.1 ⟨r, hr⟩
  exact absurd hend (by decide)

end NimRtc.H264
