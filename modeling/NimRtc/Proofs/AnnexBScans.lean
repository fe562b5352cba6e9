import NimRtc.Proofs.StartCodes

/-!
# What the scanners make of a stream

In front of whatever follows it, a NAL unit has no start code inside it. So all scanners go from unit to
unit. Only the walks end their last unit two bytes early, and only `contains_idr_slice` looks at the byte
behind a start code without asking whether there is one.
-/

namespace NimRtc.AnnexB

open H264

variable {bs : List UInt8} {target : UInt8}

/-! ### The parser on any bytes -/

namespace BitstreamParser

theorem naluAt_spec (bs : List UInt8) (start : ℕ) {scLen : ℕ} (hsc : 0 < scLen) :
    ∃ r, naluAt bs start scLen = .ok r
      ∧ ∀ nalu naluEnd, r = some (nalu, naluEnd) → start < naluEnd ∧ naluEnd ≤ bs.length := by
  unfold naluAt
  simp only
  by_cases hend : bs.length ≤ start + scLen
  · rw [if_pos hend]
    exact ⟨none, rfl, fun _ _ h => by cases h⟩
  · obtain ⟨next, hnext, hle⟩ : ∃ next, findStartCodeAtOrAfter bs (start + scLen + 1) = .ok next
        ∧ start + scLen + 1 ≤ next.getD bs.length ∧ next.getD bs.length ≤ bs.length := by
      rcases findStartCodeAtOrAfter_spec bs (start + scLen + 1) with ⟨k, hk, heq⟩ | ⟨-, heq⟩
      · have := hk.end_le
        exact ⟨_, heq, hk.1, by simp only [Option.getD_some]; omega⟩
      · exact ⟨_, heq, by simp only [Option.getD_none]; omega, le_refl _⟩
    rw [if_neg hend, hnext, Checked.ok_bind, byteAt_of_lt (by omega), Checked.ok_bind,
      Checked.readRange_of_le (by omega), Checked.ok_bind]
    refine ⟨_, rfl, fun nalu naluEnd h => ?_⟩
    cases h
    exact ⟨by omega, hle.2⟩

theorem nextNalu_spec (bs : List UInt8) (cursor : ℕ) :
    ∃ r, nextNalu bs cursor = .ok r
      ∧ ∀ nalu naluEnd, r = some (nalu, naluEnd) → cursor < naluEnd ∧ naluEnd ≤ bs.length := by
  unfold nextNalu
  rcases findStartCodeAtOrAfter_spec bs cursor with ⟨k, hk, heq⟩ | ⟨-, heq⟩
  · rw [heq, Checked.ok_bind]
    simp only
    rw [startCodeLenAt_eq, Checked.ok_bind]
    cases hlen : startCodeLen (bs.drop k) with
    | none => exact ⟨none, rfl, fun _ _ h => by cases h⟩
    | some scLen =>
      have hlow := (length_of_startCodeLen hlen).1
      obtain ⟨r, hr, hends⟩ := naluAt_spec bs k (show 0 < scLen by omega)
      exact ⟨r, hr, fun nalu naluEnd h => ⟨hk.1.trans_lt (hends nalu naluEnd h).1, (hends nalu naluEnd h).2⟩⟩
  · rw [heq, Checked.ok_bind]
    exact ⟨none, rfl, fun _ _ h => by cases h⟩

/-- A call of `next` reads inside the stream, and gets on if it gives a NAL unit. -/
theorem next_spec (p : BitstreamParser) :
    ∃ p' r, p.next = .ok (p', r) ∧ p'.bitstream = p.bitstream
      ∧ (r ≠ none → p.cursor < p'.cursor ∧ p'.cursor ≤ p.bitstream.length) := by
  unfold next
  by_cases hend : p.finished ∨ p.bitstream.length ≤ p.cursor
  · exact ⟨p, none, if_pos hend, rfl, fun h => absurd rfl h⟩
  · obtain ⟨r, hr, hends⟩ := nextNalu_spec p.bitstream p.cursor
    rw [if_neg hend, hr, Checked.ok_bind]
    rcases r with _ | ⟨nalu, naluEnd⟩
    · exact ⟨_, none, rfl, rfl, fun h => absurd rfl h⟩
    · exact ⟨_, some nalu, rfl, rfl, fun _ => hends nalu naluEnd rfl⟩

theorem pullAll_total : ∀ (rounds : ℕ) {p : BitstreamParser}, p.bitstream.length - p.cursor < rounds →
    ∃ nalus, pullAll rounds p = .ok nalus
  | 0, _, h => absurd h (Nat.not_lt_zero _)
  | rounds + 1, p, h => by
    obtain ⟨p', r, hnext, hbs, hgo⟩ := next_spec p
    rw [pullAll, hnext, Checked.ok_bind]
    cases r with
    | none => exact ⟨[], rfl⟩
    | some nalu =>
      obtain ⟨hlt, hle⟩ := hgo (Option.some_ne_none nalu)
      obtain ⟨nalus, hrest⟩ := pullAll_total rounds (p := p') (by rw [hbs]; omega)
      exact ⟨nalu :: nalus, by simp only [hrest]; rfl⟩

theorem findFirst_of_pullAll : ∀ {rounds : ℕ} {p : BitstreamParser} {nalus : List ParsedNalu},
    pullAll rounds p = .ok nalus →
      findFirst target rounds p = .ok (nalus.find? fun nalu => nalu.type = target)
  | 0, _, _, h => by cases h
  | rounds + 1, p, nalus, h => by
    obtain ⟨p', r, hnext, -, -⟩ := next_spec p
    rw [pullAll, hnext, Checked.ok_bind] at h
    rw [findFirst, hnext, Checked.ok_bind]
    cases r with
    | none =>
      cases h
      rfl
    | some nalu =>
      simp only at h ⊢
      cases hrest : pullAll rounds p' with
      | error e =>
        rw [hrest] at h
        cases h
      | ok rest =>
        rw [hrest] at h
        cases h
        by_cases htype : nalu.type = target
        · rw [if_pos htype, List.find?_cons_of_pos (by simpa using htype)]
          rfl
        · rw [if_neg htype, List.find?_cons_of_neg (by simpa using htype)]
          exact findFirst_of_pullAll hrest

end BitstreamParser

theorem parseAll_total (bs : List UInt8) : ∃ nalus, BitstreamParser.parseAll bs = .ok nalus :=
  BitstreamParser.pullAll_total _ (Nat.lt_succ_of_le (Nat.sub_le _ _))

/-- `find_nalu` is the first of those that `parse_all` gives. -/
theorem findNalu_of_parseAll {nalus : List ParsedNalu} (h : BitstreamParser.parseAll bs = .ok nalus)
    (target : UInt8) : findNalu bs target = .ok (nalus.find? fun nalu => nalu.type = target) :=
  BitstreamParser.findFirst_of_pullAll h

/-! ### NAL units in a stream -/

theorem stream_cons (u : NalUnit) (us : List NalUnit) :
    stream (u :: us) = u.code ++ (u.data ++ stream us) := by
  rw [stream, List.flatMap_cons, List.append_assoc, stream]

theorem startCodeLen_stream (u : NalUnit) (us : List NalUnit) :
    startCodeLen (stream (u :: us)) = some u.code.length := by
  rw [stream_cons, NalUnit.code]
  cases u.longCode <;> simp [startCodeLen, List.cons_prefix_cons]

theorem startCode_stream {us : List NalUnit} (h : us ≠ []) : StartCode (stream us) := by
  obtain ⟨u, us, rfl⟩ := List.exists_cons_of_ne_nil h
  have hlen := startCodeLen_stream u us
  by_contra hnot
  rw [startCodeLen_eq_none.2 hnot] at hlen
  cases hlen

/-- From inside of a NAL unit, the bytes do not go on with a start code. -/
theorem NalUnit.not_startCode_drop (u : NalUnit) {k : ℕ} (hk : k < u.data.length) (rest : List UInt8) :
    ¬ StartCode (u.data.drop k ++ rest) := by
  have hinfix : u.data.drop k <:+: u.data := (List.drop_suffix k u.data).isInfix
  have hne : u.data.drop k ≠ [] := List.ne_nil_of_length_pos (by rw [List.length_drop]; omega)
  have hlast : (u.data.drop k).getLast hne ≠ 0 := by
    rw [List.getLast_drop]
    exact u.last_ne
  rcases hdrop : u.data.drop k with _ | ⟨a, _ | ⟨b, _ | ⟨c, t⟩⟩⟩
  · exact absurd hdrop hne
  · simp only [hdrop, List.getLast_singleton] at hlast
    rintro (h | h) <;>
    · simp only [List.cons_append, List.cons_prefix_cons] at h
      exact hlast h.1.symm
  · simp only [hdrop, List.getLast_cons_cons, List.getLast_singleton] at hlast
    rintro (h | h) <;>
    · simp only [List.cons_append, List.cons_prefix_cons] at h
      exact hlast h.2.1.symm
  · rw [hdrop] at hinfix
    rintro (h | h)
    · simp only [List.cons_append, List.cons_prefix_cons] at h
      obtain ⟨rfl, rfl, rfl, -⟩ := h
      exact u.no_code (List.IsInfix.trans ⟨[], t, by simp⟩ hinfix)
    · simp only [List.cons_append, List.cons_prefix_cons] at h
      obtain ⟨rfl, rfl, rfl, -⟩ := h
      exact u.no_zeros (List.IsInfix.trans ⟨[], t, by simp⟩ hinfix)

/-- A scan from inside of a NAL unit finds its end if another one follows, and nothing otherwise. -/
theorem scan_unit (pre : List UInt8) (u : NalUnit) (us : List NalUnit) {j : ℕ} (hlow : pre.length ≤ j)
    (hhigh : j ≤ pre.length + u.data.length) :
    if us = [] then NoCode (pre ++ (u.data ++ stream us)) j
    else FirstCode (pre ++ (u.data ++ stream us)) j (pre.length + u.data.length) := by
  have hinside : ∀ i, pre.length ≤ i → i < pre.length + u.data.length →
      ¬ StartCode ((pre ++ (u.data ++ stream us)).drop i) := fun i hi hlt => by
    obtain ⟨k, rfl⟩ := Nat.exists_eq_add_of_le hi
    rw [List.drop_length_add_append, List.drop_append_of_le_length (by omega)]
    exact u.not_startCode_drop (by omega) _
  split_ifs with hus
  · intro i hi
    by_cases hlt : i < pre.length + u.data.length
    · exact hinside i (hlow.trans hi) hlt
    · subst hus
      refine noCode_of_le ?_ i (le_refl i)
      simp only [stream, List.flatMap_nil, List.append_nil, List.length_append]
      omega
  · refine ⟨hhigh, ?_, fun i hi hlt => hinside i (hlow.trans hi) hlt⟩
    rw [List.drop_length_add_append, List.drop_left]
    exact startCode_stream hus

/-! ### The parser on a stream -/

namespace BitstreamParser

theorem drop_pre_stream (pre : List UInt8) (us : List NalUnit) :
    (pre ++ stream us).drop pre.length = stream us := List.drop_left

theorem nextNalu_stream (pre : List UInt8) (u : NalUnit) (us : List NalUnit) :
    nextNalu (pre ++ stream (u :: us)) pre.length
      = .ok (some (u.parsed, pre.length + u.code.length + u.data.length)) := by
  have hstart : FirstCode (pre ++ stream (u :: us)) pre.length pre.length :=
    .here (by rw [drop_pre_stream]; exact startCode_stream (List.cons_ne_nil u us))
  have hfind : findStartCodeAtOrAfter (pre ++ stream (u :: us)) pre.length = .ok (some pre.length) := by
    rcases findStartCodeAtOrAfter_spec (pre ++ stream (u :: us)) pre.length with
      ⟨k, hk, heq⟩ | ⟨hno, -⟩
    · rw [heq, hstart.unique hk]
    · exact absurd hno hstart.not_noCode
  have hsplit : pre ++ stream (u :: us) = (pre ++ u.code) ++ (u.data ++ stream us) := by
    rw [stream_cons, List.append_assoc]
  have hpre : (pre ++ u.code).length = pre.length + u.code.length := List.length_append
  have hpos : 0 < u.data.length := List.length_pos_of_ne_nil u.data_ne
  have hlen : (pre ++ stream (u :: us)).length
      = pre.length + u.code.length + u.data.length + (stream us).length := by
    rw [hsplit, List.length_append, hpre, List.length_append, Nat.add_assoc _ u.data.length]
  have hbytes : ((pre ++ stream (u :: us)).drop (pre.length + u.code.length)) = u.data ++ stream us := by
    rw [hsplit, ← hpre, List.drop_left]
  have hend : ∃ next, findStartCodeAtOrAfter (pre ++ stream (u :: us))
        (pre.length + u.code.length + 1) = .ok next
      ∧ next.getD (pre ++ stream (u :: us)).length = pre.length + u.code.length + u.data.length := by
    have hscan := scan_unit (pre ++ u.code) u us (j := pre.length + u.code.length + 1) (by omega)
      (by omega)
    rw [← hsplit, hpre] at hscan
    rcases findStartCodeAtOrAfter_spec (pre ++ stream (u :: us)) (pre.length + u.code.length + 1) with
      ⟨k, hk, heq⟩ | ⟨hno, heq⟩
    · split_ifs at hscan with hus
      · exact absurd hscan hk.not_noCode
      · exact ⟨_, heq, by rw [Option.getD_some, hk.unique hscan]⟩
    · split_ifs at hscan with hus
      · subst hus
        exact ⟨_, heq, by rw [Option.getD_none, hlen]; rfl⟩
      · exact absurd hno hscan.not_noCode
  obtain ⟨next, hnext, hnaluEnd⟩ := hend
  have hheader : byteAt (pre ++ stream (u :: us)) (pre.length + u.code.length) = .ok u.header := by
    refine Checked.get_of_getElem? ?_
    rw [← Nat.add_zero (pre.length + u.code.length), ← List.getElem?_drop, hbytes,
      List.getElem?_append_left hpos, NalUnit.header, List.head_eq_getElem, List.getElem?_eq_getElem]
  rw [nextNalu, hfind, Checked.ok_bind]
  simp only
  rw [startCodeLenAt_eq, drop_pre_stream, startCodeLen_stream, Checked.ok_bind]
  simp only [naluAt]
  rw [if_neg (by omega), hnext, Checked.ok_bind, hheader, Checked.ok_bind,
    Checked.readRange_of_le (by omega), Checked.ok_bind, hnaluEnd, hbytes, Nat.add_sub_cancel_left,
    List.take_left]
  rfl

theorem pullAll_stream : ∀ (us : List NalUnit) (pre : List UInt8) {rounds : ℕ} {finished : Bool},
    us.length < rounds → (finished = true → us = []) →
      pullAll rounds ⟨pre ++ stream us, pre.length, finished⟩ = .ok (us.map (·.parsed))
  | _, _, 0, _, h, _ => absurd h (Nat.not_lt_zero _)
  | [], pre, rounds + 1, finished, _, _ => by
    have hend : (BitstreamParser.mk (pre ++ stream []) pre.length finished).next
        = .ok (⟨pre ++ stream [], pre.length, finished⟩, none) := if_pos (.inr (by simp [stream]))
    rw [pullAll, hend, Checked.ok_bind]
    rfl
  | u :: us, pre, rounds + 1, finished, h, hfinished => by
    have hsplit : pre ++ stream (u :: us) = (pre ++ u.code ++ u.data) ++ stream us := by
      rw [stream_cons, List.append_assoc, List.append_assoc]
    have hpre : (pre ++ u.code ++ u.data).length = pre.length + u.code.length + u.data.length := by
      rw [List.length_append, List.length_append]
    have hmore : 0 < u.data.length := List.length_pos_of_ne_nil u.data_ne
    have hnext : (BitstreamParser.mk (pre ++ stream (u :: us)) pre.length finished).next
        = .ok (⟨(pre ++ u.code ++ u.data) ++ stream us, (pre ++ u.code ++ u.data).length,
            decide ((pre ++ u.code ++ u.data ++ stream us).length
              ≤ (pre ++ u.code ++ u.data).length)⟩, some u.parsed) := by
      rw [next, if_neg]
      · rw [nextNalu_stream, Checked.ok_bind, hpre, ← hsplit]
        rfl
      · rintro (hend | hend)
        · cases hfinished hend
        · rw [hsplit, List.length_append, hpre] at hend
          simp only at hend
          omega
    rw [pullAll, hnext, Checked.ok_bind]
    simp only
    rw [pullAll_stream us (pre ++ u.code ++ u.data) (by simpa using h) (fun hend => ?_), Checked.ok_bind,
      List.map_cons]
    · rfl
    · by_contra hus
      have hlen := (startCode_stream hus).length_le
      rw [decide_eq_true_eq, @List.length_append _ (pre ++ u.code ++ u.data)] at hend
      omega

end BitstreamParser

theorem length_le_stream : ∀ us : List NalUnit, us.length ≤ (stream us).length
  | [] => Nat.zero_le _
  | u :: us => by
    have hpos : 0 < u.data.length := List.length_pos_of_ne_nil u.data_ne
    have hrest := length_le_stream us
    rw [stream_cons, List.length_append, List.length_append, List.length_cons]
    omega

/-- `parse_all` gives the NAL units back. -/
theorem parseAll_stream (us : List NalUnit) :
    BitstreamParser.parseAll (stream us) = .ok (us.map (·.parsed)) :=
  BitstreamParser.pullAll_stream us [] (Nat.lt_succ_of_le (length_le_stream us)) (by simp)

/-! ### The builder -/

theorem appendNalus_eq (outputCapacity : ℕ) : ∀ {us : List NalUnit} (output : List UInt8),
    (∀ u ∈ us, u.longCode = true) →
      appendNalus outputCapacity (us.map (·.data)) output
        = if us ≠ [] ∧ outputCapacity < output.length + (stream us).length then none
          else some (output ++ stream us)
  | [], output, _ => by simp [appendNalus, stream]
  | u :: us, output, h => by
    have hcode : u.code = [0, 0, 0, 1] := if_pos (h u List.mem_cons_self)
    have hlen : (stream (u :: us)).length = 4 + u.data.length + (stream us).length := by
      rw [stream_cons, hcode, List.length_append, List.length_append, Nat.add_assoc]
      rfl
    have hrest := appendNalus_eq outputCapacity (output ++ ([0, 0, 0, 1] ++ u.data)) fun v hv => h v (List.mem_cons_of_mem _ hv)
    have hsize : (output ++ ([0, 0, 0, 1] ++ u.data)).length = output.length + (4 + u.data.length) := by
      rw [List.length_append, List.length_append]
      rfl
    rw [hsize] at hrest
    rw [List.map_cons, appendNalus, if_neg u.data_ne, hrest, hlen]
    by_cases hfirst : outputCapacity < output.length + 4 + u.data.length
    · rw [if_pos hfirst, if_pos ⟨List.cons_ne_nil u us, by omega⟩]
    · rw [if_neg hfirst, stream_cons, hcode, List.append_assoc, List.append_assoc]
      by_cases hus : us = []
      · subst hus
        have hempty : (stream []).length = 0 := rfl
        rw [if_neg (fun hand => hand.1 rfl), if_neg (fun hand => hfirst (by have := hand.2; omega))]
      · simp only [ne_eq, hus, not_false_iff, true_and, List.cons_ne_nil, Nat.add_assoc]

/-- What was built is parsed. -/
theorem parseAll_buildAnnexB {us : List NalUnit} {outputCapacity : ℕ} {bs : List UInt8}
    (hlong : ∀ u ∈ us, u.longCode = true) (h : buildAnnexB (us.map (·.data)) outputCapacity = some bs) :
    BitstreamParser.parseAll bs = .ok (us.map (·.parsed)) := by
  rw [buildAnnexB, appendNalus_eq _ _ hlong] at h
  split_ifs at h
  cases h
  rw [List.nil_append, parseAll_stream]

end NimRtc.AnnexB
