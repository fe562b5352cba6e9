import NimRtc.Proofs.AnnexBScans

/-!
# The walks of the hardware backends

A walk goes from start code to start code. It takes the last NAL unit to end two bytes before the end of
the bytes, so that the unit that is looked for is cut if it is the last; and for an IDR slice it reads
the byte behind each start code, also if there is none.
-/

namespace NimRtc.AnnexB

open H264

namespace HwBackend

variable {bs : List UInt8} {target : UInt8} {i j n : ℕ}

/-! ### One round -/

/-- The place where a walk goes on. Another scan from there stays. -/
theorem nextStartCode_bounds (h : i ≤ bs.length) :
    ∃ j, nextStartCode bs (bs.length + 1) i = .ok j ∧ i ≤ j ∧ j ≤ bs.length
      ∧ nextStartCode bs (bs.length + 1) j = .ok j := by
  rcases nextStartCode_spec bs (bs.length + 1) (j := i) (by omega) with
    ⟨k, hk, heq⟩ | ⟨hno, heq⟩
  · have hend := hk.end_le
    refine ⟨k, heq, hk.1, by omega, ?_⟩
    have hhere := FirstCode.here hk.2.1
    rcases nextStartCode_spec bs (bs.length + 1) (j := k) (by omega) with
      ⟨k', hk', heq'⟩ | ⟨hno', -⟩
    · rw [heq', hhere.unique hk']
    · exact absurd hno' hhere.not_noCode
  · refine ⟨_, heq, Nat.le_max_left _ _, by omega, ?_⟩
    have hno' : NoCode bs (max i (bs.length - 2)) := fun k hk => hno k ((Nat.le_max_left _ _).trans hk)
    rcases nextStartCode_spec bs (bs.length + 1) (j := max i (bs.length - 2))
      (by omega) with ⟨k', hk', -⟩ | ⟨-, heq'⟩
    · exact absurd hno' hk'.not_noCode
    · rw [heq', Nat.max_assoc, Nat.max_self]

theorem startCodeLen_third (h : startCodeLen bs = some n) (hlen : 2 < bs.length) :
    (if (1 : UInt8) = bs[2] then 3 else 4) = n := by
  unfold startCodeLen at h
  split_ifs at h with hlong hshort
  · obtain ⟨t, rfl⟩ := hlong
    cases h
    rfl
  · obtain ⟨t, rfl⟩ := hshort
    cases h
    rfl

theorem isByte_of_lt {k : ℕ} {v : UInt8} (h : k < bs.length) :
    isByte bs k v = .ok (decide (v = bs[k])) := by
  have hdrop := isByte_of_drop (i := 0) (k := k) (v := v) (rfl : bs.drop 0 = bs) (List.getElem?_eq_getElem h)
  rwa [Nat.zero_add] at hdrop

/-- The bytes up to `j` are taken if they are of the type. -/
theorem takeIf_of_lt (hcode : startCodeLen bs = some i) (h : i < j) (hj : j ≤ bs.length) :
    takeIf target bs i j
      = .ok (if bs[i] &&& kNaluTypeMask = target then
          some ⟨bs[i] &&& kNaluTypeMask, (bs.drop i).take (j - i), i⟩ else none) := by
  have hlow := (length_of_startCodeLen hcode).1
  rw [takeIf, if_neg (not_le.2 h), byteAt_of_lt (by omega), Checked.ok_bind]
  by_cases htype : bs[i] &&& kNaluTypeMask = target
  · rw [if_neg (not_not.2 htype), if_pos htype, Checked.readRange_of_le (by omega), Checked.ok_bind,
      isByte_of_lt (by omega), Checked.ok_bind]
    simp only [decide_eq_true_eq]
    rw [startCodeLen_third hcode (by omega)]
    rfl
  · rw [if_pos htype, if_neg htype]
    rfl

theorem takeIf_total (target : UInt8) (hcode : startCodeLen bs = some i) (hj : j ≤ bs.length) :
    ∃ r, takeIf target bs i j = .ok r := by
  by_cases h : j ≤ i
  · exact ⟨none, if_pos h⟩
  · exact ⟨_, takeIf_of_lt hcode (not_le.1 h) hj⟩

/-! ### Any bytes -/

theorem findIn_total : ∀ {rounds : ℕ} {bs : List UInt8}, bs.length < rounds →
    ∃ r, findIn target rounds bs = .ok r
  | 0, _, h => absurd h (Nat.not_lt_zero _)
  | rounds + 1, bs, h => by
    rw [findIn]
    by_cases hnil : bs = []
    · exact ⟨none, if_pos hnil⟩
    · rw [if_neg hnil, skipStartCode_eq, Checked.ok_bind]
      cases hcode : startCodeLen bs with
      | none => exact ⟨none, rfl⟩
      | some i =>
        have hlow := length_of_startCodeLen hcode
        obtain ⟨j, hnext, hij, hj, -⟩ := nextStartCode_bounds hlow.2
        obtain ⟨r, hr⟩ := takeIf_total target hcode hj
        simp only
        rw [hnext, Checked.ok_bind, hr, Checked.ok_bind]
        cases r with
        | some out => exact ⟨_, rfl⟩
        | none => exact findIn_total (by rw [List.length_drop]; omega)

/-- The second look for the end of a NAL unit changes nothing. -/
theorem findPpsIn_eq : ∀ {rounds : ℕ} {bs : List UInt8}, bs.length < rounds →
    findPpsIn rounds bs = findIn kPPS rounds bs
  | 0, _, h => absurd h (Nat.not_lt_zero _)
  | rounds + 1, bs, h => by
    rw [findPpsIn, findIn]
    by_cases hnil : bs = []
    · rw [if_pos hnil, if_pos hnil]
    · rw [if_neg hnil, if_neg hnil, skipStartCode_eq, Checked.ok_bind, Checked.ok_bind]
      cases hcode : startCodeLen bs with
      | none => rfl
      | some i =>
        have hlow := length_of_startCodeLen hcode
        obtain ⟨j, hnext, hij, hj, hagain⟩ := nextStartCode_bounds hlow.2
        obtain ⟨r, hr⟩ := takeIf_total kPPS hcode hj
        simp only
        rw [hnext, Checked.ok_bind, Checked.ok_bind, hagain, Checked.ok_bind, hr, Checked.ok_bind,
          Checked.ok_bind]
        cases r with
        | some out => rfl
        | none =>
          simp only
          by_cases hend : bs.length ≤ j
          · have hempty : bs.drop j = [] := List.drop_eq_nil_of_le hend
            obtain ⟨rounds, rfl⟩ : ∃ m, rounds = m + 1 := ⟨rounds - 1, by omega⟩
            rw [if_pos hend, hempty, findIn, if_pos rfl]
            rfl
          · rw [if_neg hend]
            exact findPpsIn_eq (by rw [List.length_drop]; omega)

theorem startCodeLen_short (h : bs.length ≤ 2) : startCodeLen bs = none :=
  startCodeLen_eq_none.2 fun hcode => by
    have := hcode.length_le
    omega

theorem findIn_short {rounds : ℕ} (h : bs.length ≤ 2) : findIn target (rounds + 1) bs = .ok none := by
  rw [findIn]
  by_cases hnil : bs = []
  · rw [if_pos hnil]
  · rw [if_neg hnil, skipStartCode_eq, Checked.ok_bind, startCodeLen_short h]
    rfl

theorem containsIdrSlice_short {rounds : ℕ} (h : bs.length ≤ 2) :
    containsIdrSlice (rounds + 1) bs = .ok false := by
  rw [containsIdrSlice]
  by_cases hnil : bs = []
  · rw [if_pos hnil]
  · rw [if_neg hnil, skipStartCode_eq, Checked.ok_bind, startCodeLen_short h]
    rfl

/-- Each start code has a NAL unit behind it that is no IDR slice, up to one with nothing behind it. -/
inductive EndsBare : List UInt8 → Prop
  | bare {bs : List UInt8} {n : ℕ} : startCodeLen bs = some n → bs.length = n → EndsBare bs
  | skip {bs : List UInt8} {n j : ℕ} (hcode : startCodeLen bs = some n) (h : n < bs.length) :
      bs[n] &&& kNaluTypeMask ≠ kSliceIDR → FirstCode bs (n + 1) j → EndsBare (bs.drop j) →
        EndsBare bs

theorem EndsBare.startCode (h : EndsBare bs) : StartCode bs := by
  by_contra hnot
  rw [← startCodeLen_eq_none] at hnot
  cases h with
  | bare hcode => rw [hnot] at hcode; cases hcode
  | skip hcode => rw [hnot] at hcode; cases hcode

theorem EndsBare.iff_of_code (hcode : startCodeLen bs = some n) (h : n < bs.length) :
    EndsBare bs ↔ bs[n] &&& kNaluTypeMask ≠ kSliceIDR
      ∧ ∃ j, FirstCode bs (n + 1) j ∧ EndsBare (bs.drop j) := by
  constructor
  · rintro (⟨hcode', hend⟩ | ⟨hcode', h', htype, hfirst, hrest⟩)
    · cases hcode.symm.trans hcode'
      omega
    · cases hcode.symm.trans hcode'
      exact ⟨htype, _, hfirst, hrest⟩
  · rintro ⟨htype, j, hfirst, hrest⟩
    exact .skip hcode h htype hfirst hrest

/-- `contains_idr_slice` reads outside of its bytes exactly if it comes to a bare start code. -/
theorem containsIdrSlice_ok_iff : ∀ {rounds : ℕ} {bs : List UInt8}, bs.length < rounds →
    ((∃ b, containsIdrSlice rounds bs = .ok b) ↔ ¬ EndsBare bs)
  | 0, _, h => absurd h (Nat.not_lt_zero _)
  | rounds + 1, bs, h => by
    rw [containsIdrSlice]
    by_cases hnil : bs = []
    · subst hnil
      exact iff_of_true ⟨false, if_pos rfl⟩ fun hbare => absurd hbare.startCode (by decide)
    · rw [if_neg hnil, skipStartCode_eq, Checked.ok_bind]
      cases hcode : startCodeLen bs with
      | none =>
        exact iff_of_true ⟨false, rfl⟩ fun hbare => startCodeLen_eq_none.1 hcode hbare.startCode
      | some n =>
        have hlow := length_of_startCodeLen hcode
        simp only
        rcases hlow.2.eq_or_lt with hbare | hlt
        · have hfault : byteAt bs n = .error (.byte n) := by
            rw [byteAt, Checked.get, List.getElem?_eq_none hbare.ge]
          rw [hfault]
          refine iff_of_false ?_ (not_not.2 (.bare hcode hbare.symm))
          rintro ⟨b, hb⟩
          cases hb
        · rw [byteAt_of_lt hlt, Checked.ok_bind, EndsBare.iff_of_code hcode hlt]
          by_cases htype : bs[n] &&& kNaluTypeMask = kSliceIDR
          · rw [if_pos htype]
            exact iff_of_true ⟨true, rfl⟩ fun hbare => hbare.1 htype
          · rw [if_neg htype]
            rcases nextStartCode_spec bs (bs.length + 1) (j := n + 1) (by omega) with
              ⟨k, hk, heq⟩ | ⟨hno, heq⟩
            · have hend := hk.end_le
              rw [heq, Checked.ok_bind, if_neg (by omega),
                containsIdrSlice_ok_iff (by rw [List.length_drop]; have := hk.1; omega), not_iff_not]
              refine ⟨fun hbare => ⟨htype, k, hk, hbare⟩, ?_⟩
              rintro ⟨-, k', hk', hbare⟩
              rwa [hk.unique hk']
            · rw [heq, Checked.ok_bind]
              refine iff_of_true ?_ ?_
              · by_cases hall : bs.length ≤ max (n + 1) (bs.length - 2)
                · exact ⟨false, if_pos hall⟩
                · obtain ⟨rounds, rfl⟩ : ∃ m, rounds = m + 1 := ⟨rounds - 1, by omega⟩
                  rw [if_neg hall, containsIdrSlice_short (by rw [List.length_drop]; omega)]
                  exact ⟨false, rfl⟩
              · rintro ⟨-, k', hk', -⟩
                exact hk'.not_noCode hno

/-! ### Streams -/

theorem byteAt_stream (u : NalUnit) (us : List NalUnit) :
    byteAt (stream (u :: us)) u.code.length = .ok u.header := by
  have hpos : 0 < u.data.length := List.length_pos_of_ne_nil u.data_ne
  refine Checked.get_of_getElem? ?_
  rw [stream_cons, List.getElem?_append_right (le_refl _), Nat.sub_self,
    List.getElem?_append_left hpos, NalUnit.header, List.head_eq_getElem, List.getElem?_eq_getElem]

theorem length_stream (u : NalUnit) (us : List NalUnit) :
    (stream (u :: us)).length = u.code.length + u.data.length + (stream us).length := by
  rw [stream_cons, List.length_append, List.length_append, Nat.add_assoc]

/-- Where a walk over a stream goes on from. -/
theorem nextStartCode_stream (u : NalUnit) (us : List NalUnit) {j : ℕ} (hlow : u.code.length ≤ j)
    (hhigh : j ≤ u.code.length + u.data.length) :
    nextStartCode (stream (u :: us)) ((stream (u :: us)).length + 1) j
      = .ok (if us = [] then max j (u.code.length + u.data.length - 2)
          else u.code.length + u.data.length) := by
  have hscan := scan_unit u.code u us hlow hhigh
  rw [← stream_cons] at hscan
  have hlen := length_stream u us
  rcases nextStartCode_spec (stream (u :: us)) ((stream (u :: us)).length + 1) (j := j)
    (by omega) with ⟨k, hk, heq⟩ | ⟨hno, heq⟩
  · split_ifs at hscan ⊢ with hus
    · exact absurd hscan hk.not_noCode
    · rw [heq, hk.unique hscan]
  · split_ifs at hscan ⊢ with hus
    · subst hus
      have hempty : (stream []).length = 0 := rfl
      rw [heq, hlen, hempty, Nat.add_zero]
    · exact absurd hno hscan.not_noCode

theorem drop_stream (u : NalUnit) (us : List NalUnit) :
    (stream (u :: us)).drop (u.code.length + u.data.length) = stream us := by
  rw [stream_cons, ← List.drop_drop, List.drop_left, List.drop_left]

/-- What a walk finds: the last unit without its last two bytes, if that leaves any. -/
def foundIn (target : UInt8) : List NalUnit → Option ParsedNalu
  | [] => none
  | [u] =>
    if u.type = target ∧ 2 < u.data.length then
      some { u.parsed with data := u.data.take (u.data.length - 2) }
    else none
  | u :: us => if u.type = target then some u.parsed else foundIn target us

theorem drop_code_stream (u : NalUnit) (us : List NalUnit) :
    (stream (u :: us)).drop u.code.length = u.data ++ stream us := by
  rw [stream_cons, List.drop_left]

/-- A part of the first unit is taken if it is of the type. -/
theorem takeIf_stream (u : NalUnit) (us : List NalUnit) {n : ℕ} (hpos : 0 < n) (hn : n ≤ u.data.length) :
    takeIf target (stream (u :: us)) u.code.length (u.code.length + n)
      = .ok (if u.type = target then some { u.parsed with data := u.data.take n } else none) := by
  have hlen := length_stream u us
  have hheader := byteAt_stream u us
  rw [byteAt_of_lt (by omega)] at hheader
  rw [takeIf_of_lt (startCodeLen_stream u us) (by omega) (by omega), Except.ok.inj hheader,
    drop_code_stream, Nat.add_sub_cancel_left, List.take_append_of_le_length hn]
  rfl

theorem foundIn_cons (u : NalUnit) {us : List NalUnit} (h : us ≠ []) :
    foundIn target (u :: us) = if u.type = target then some u.parsed else foundIn target us := by
  rcases us with _ | ⟨v, us⟩
  · exact absurd rfl h
  · rfl

theorem findIn_stream : ∀ {rounds : ℕ} (us : List NalUnit), (stream us).length < rounds →
    findIn target rounds (stream us) = .ok (foundIn target us)
  | 0, _, h => absurd h (Nat.not_lt_zero _)
  | rounds + 1, [], _ => findIn_short (Nat.zero_le _)
  | rounds + 1, [u], h => by
    have hlen := length_stream u []
    have hempty : (stream []).length = 0 := rfl
    have hlow := (length_of_startCodeLen (startCodeLen_stream u [])).1
    have hpos : 0 < u.data.length := List.length_pos_of_ne_nil u.data_ne
    have hne : stream [u] ≠ [] := List.ne_nil_of_length_pos (by omega)
    obtain ⟨rounds, rfl⟩ : ∃ m, rounds = m + 1 := ⟨rounds - 1, by omega⟩
    rw [findIn, if_neg hne, skipStartCode_eq, Checked.ok_bind, startCodeLen_stream]
    simp only
    rw [nextStartCode_stream u [] (le_refl _) (by omega), Checked.ok_bind, if_pos rfl, foundIn]
    by_cases hlong : 2 < u.data.length
    · rw [Nat.max_eq_right (by omega), Nat.add_sub_assoc (by omega),
        takeIf_stream u [] (by omega) (by omega), Checked.ok_bind]
      by_cases htype : u.type = target
      · rw [if_pos htype, if_pos ⟨htype, hlong⟩]
        rfl
      · rw [if_neg htype, if_neg (fun hand => htype hand.1)]
        exact findIn_short (by rw [List.length_drop]; omega)
    · rw [Nat.max_eq_left (by omega), takeIf, if_pos (le_refl _), Checked.ok_bind,
        if_neg (fun hand => hlong hand.2)]
      exact findIn_short (by rw [List.length_drop]; omega)
  | rounds + 1, u :: v :: us, h => by
    have hlen := length_stream u (v :: us)
    have hlow := (length_of_startCodeLen (startCodeLen_stream u (v :: us))).1
    have hpos : 0 < u.data.length := List.length_pos_of_ne_nil u.data_ne
    have hne : stream (u :: v :: us) ≠ [] := List.ne_nil_of_length_pos (by omega)
    rw [findIn, if_neg hne, skipStartCode_eq, Checked.ok_bind, startCodeLen_stream]
    simp only
    rw [nextStartCode_stream u (v :: us) (le_refl _) (by omega), Checked.ok_bind,
      if_neg (List.cons_ne_nil v us), takeIf_stream u (v :: us) hpos (le_refl _), Checked.ok_bind,
      foundIn_cons u (List.cons_ne_nil v us), List.take_length]
    by_cases htype : u.type = target
    · rw [if_pos htype, if_pos htype]
      rfl
    · rw [if_neg htype, if_neg htype, drop_stream]
      exact findIn_stream (v :: us) (by omega)

theorem containsIdrSlice_stream : ∀ {rounds : ℕ} (us : List NalUnit), (stream us).length < rounds →
    containsIdrSlice rounds (stream us) = .ok (us.any fun u => u.type = kSliceIDR)
  | 0, _, h => absurd h (Nat.not_lt_zero _)
  | rounds + 1, [], _ => containsIdrSlice_short (Nat.zero_le _)
  | rounds + 1, u :: us, h => by
    have hlen := length_stream u us
    have hlow := (length_of_startCodeLen (startCodeLen_stream u us)).1
    have hpos : 0 < u.data.length := List.length_pos_of_ne_nil u.data_ne
    have hne : stream (u :: us) ≠ [] := List.ne_nil_of_length_pos (by omega)
    rw [containsIdrSlice, if_neg hne, skipStartCode_eq, Checked.ok_bind, startCodeLen_stream]
    simp only
    rw [byteAt_stream, Checked.ok_bind, List.any_cons,
      show u.header &&& kNaluTypeMask = u.type from rfl]
    by_cases htype : u.type = kSliceIDR
    · rw [if_pos htype, decide_eq_true htype, Bool.true_or]
      rfl
    · rw [if_neg htype, decide_eq_false htype, Bool.false_or,
        nextStartCode_stream u us (Nat.le_succ _) (by omega), Checked.ok_bind]
      rcases us with _ | ⟨v, us⟩
      · rw [if_pos rfl]
        by_cases hall : (stream [u]).length ≤ max (u.code.length + 1) (u.code.length + u.data.length - 2)
        · rw [if_pos hall]
          rfl
        · have hempty : (stream []).length = 0 := rfl
          obtain ⟨rounds, rfl⟩ : ∃ m, rounds = m + 1 := ⟨rounds - 1, by omega⟩
          rw [if_neg hall, containsIdrSlice_short (by rw [List.length_drop]; omega)]
          rfl
      · have hmore := (startCode_stream (List.cons_ne_nil v us)).length_le
        rw [if_neg (List.cons_ne_nil v us), if_neg (by omega), drop_stream]
        exact containsIdrSlice_stream (v :: us) (by omega)

end HwBackend

/-! ### All scanners -/

/-- The first unit of a type is the last unit of all. -/
def SoughtLast (target : UInt8) (us : List NalUnit) : Prop :=
  ∃ pre u, us = pre ++ [u] ∧ u.type = target ∧ ∀ v ∈ pre, v.type ≠ target

theorem soughtLast_cons {target : UInt8} {u v : NalUnit} {us : List NalUnit} :
    SoughtLast target (u :: v :: us) ↔ u.type ≠ target ∧ SoughtLast target (v :: us) := by
  constructor
  · rintro ⟨pre, w, heq, hw, hpre⟩
    rcases pre with _ | ⟨x, pre⟩
    · cases heq
    · rw [List.cons_append, List.cons.injEq] at heq
      obtain ⟨rfl, heq⟩ := heq
      exact ⟨hpre u List.mem_cons_self, pre, w, heq, hw, fun y hy => hpre y (List.mem_cons_of_mem _ hy)⟩
  · rintro ⟨hu, pre, w, heq, hw, hpre⟩
    refine ⟨u :: pre, w, by rw [List.cons_append, heq], hw, fun y hy => ?_⟩
    rcases List.mem_cons.1 hy with rfl | hy
    · exact hu
    · exact hpre y hy

theorem find_parsed_cons (target : UInt8) (u : NalUnit) (us : List NalUnit) :
    ((u :: us).map (·.parsed)).find? (fun nalu => nalu.type = target)
      = if u.type = target then some u.parsed
        else (us.map (·.parsed)).find? fun nalu => nalu.type = target := by
  rw [List.map_cons, List.find?_cons]
  by_cases htype : u.type = target
  · rw [if_pos htype, decide_eq_true (show u.parsed.type = target from htype)]
  · rw [if_neg htype, decide_eq_false (show ¬ u.parsed.type = target from htype)]

/-- A walk finds the same bytes as the parser unless the unit is the last one. -/
theorem foundIn_eq_iff (target : UInt8) : ∀ us : List NalUnit,
    (HwBackend.foundIn target us).map (·.data)
        = ((us.map (·.parsed)).find? fun nalu => nalu.type = target).map (·.data)
      ↔ ¬ SoughtLast target us
  | [] => by
    refine iff_of_true rfl ?_
    rintro ⟨pre, u, heq, -⟩
    simp at heq
  | [u] => by
    rw [HwBackend.foundIn, find_parsed_cons]
    by_cases htype : u.type = target
    · have hpos : 0 < u.data.length := List.length_pos_of_ne_nil u.data_ne
      rw [if_pos htype]
      refine iff_of_false (fun heq => ?_) (not_not.2 ⟨[], u, rfl, htype, fun v hv => by cases hv⟩)
      split_ifs at heq with hlong
      · have hlen := congrArg List.length (Option.some.inj heq)
        simp only [List.length_take, NalUnit.parsed] at hlen
        omega
      · cases heq
    · rw [if_neg (fun hand => htype hand.1), if_neg htype]
      refine iff_of_true rfl ?_
      rintro ⟨pre, w, heq, hw, -⟩
      rcases pre with _ | ⟨x, pre⟩
      · cases heq
        exact htype hw
      · simp at heq
  | u :: v :: us => by
    rw [HwBackend.foundIn_cons u (List.cons_ne_nil v us), find_parsed_cons, soughtLast_cons]
    by_cases htype : u.type = target
    · rw [if_pos htype, if_pos htype]
      exact iff_of_true rfl fun hand => hand.1 htype
    · rw [if_neg htype, if_neg htype, foundIn_eq_iff target (v :: us), not_iff_not]
      exact (and_iff_right htype).symm

/-- On a stream, the parser gives the NAL units back, `contains_idr_slice` agrees with it, and the walks
for an SPS or a PPS agree with it exactly if the first one of the type is not the last unit. On any bytes
all of them end, and only `contains_idr_slice` reads outside, exactly if it comes to a bare start code. -/
theorem scanners_agree_iff (us : List NalUnit) (bs : List UInt8) :
    (BitstreamParser.parseAll (stream us) = .ok (us.map (·.parsed))
        ∧ (∃ found sps, findSpsIn (stream us) = .ok found ∧ findSps (stream us) = .ok sps
          ∧ (found.map (·.data) = sps.map (·.data) ↔ ¬ SoughtLast kSPS us))
        ∧ (∃ found pps, findPpsIn (stream us) = .ok found ∧ findPps (stream us) = .ok pps
          ∧ (found.map (·.data) = pps.map (·.data) ↔ ¬ SoughtLast kPPS us))
        ∧ ∃ contained idr, containsIdrSlice (stream us) = .ok contained
          ∧ findIdrSlice (stream us) = .ok idr ∧ contained = idr.isSome)
      ∧ (∃ nalus, BitstreamParser.parseAll bs = .ok nalus)
        ∧ (∀ target, ∃ found, findNalu bs target = .ok found)
        ∧ (∃ found, findSpsIn bs = .ok found) ∧ (∃ found, findPpsIn bs = .ok found)
        ∧ ((∃ contained, containsIdrSlice bs = .ok contained) ↔ ¬ HwBackend.EndsBare bs) := by
  constructor
  · have hparse := parseAll_stream us
    have henough := Nat.lt_succ_self (stream us).length
    refine ⟨hparse, ?_, ?_, ?_⟩
    · exact ⟨_, _, HwBackend.findIn_stream us henough, findNalu_of_parseAll hparse kSPS,
        foundIn_eq_iff kSPS us⟩
    · refine ⟨_, _, ?_, findNalu_of_parseAll hparse kPPS, foundIn_eq_iff kPPS us⟩
      rw [findPpsIn, HwBackend.findPpsIn_eq henough, HwBackend.findIn_stream us henough]
    · refine ⟨_, _, HwBackend.containsIdrSlice_stream us henough,
        findNalu_of_parseAll hparse kSliceIDR, ?_⟩
      rw [List.isSome_find?, List.any_map]
      rfl
  · obtain ⟨nalus, hparse⟩ := parseAll_total bs
    have henough := Nat.lt_succ_self bs.length
    refine ⟨⟨nalus, hparse⟩, fun target => ⟨_, findNalu_of_parseAll hparse target⟩,
      HwBackend.findIn_total henough, ?_, HwBackend.containsIdrSlice_ok_iff henough⟩
    rw [findPpsIn, HwBackend.findPpsIn_eq henough]
    exact HwBackend.findIn_total henough

/-- An SPS behind a long start code. -/
def lastSps : NalUnit :=
  ⟨true, [0x67, 0x42, 0xE0, 0x1F], by decide, by decide, by decide, by decide⟩

example : stream [lastSps] = [0, 0, 0, 1, 0x67, 0x42, 0xE0, 0x1F] := rfl

/-- An SPS that is the last unit is cut, and a start code at the end is read over. -/
theorem last_sps_and_bare_code :
    (¬ ∀ us : List NalUnit, ∃ found sps, findSpsIn (stream us) = .ok found
        ∧ findSps (stream us) = .ok sps ∧ found.map (·.data) = sps.map (·.data))
      ∧ ¬ ∀ bs, ∃ contained, containsIdrSlice bs = .ok contained := by
  constructor
  · intro hall
    obtain ⟨found, sps, hfound, hsps, hdata⟩ := hall [lastSps]
    have hcut : findSpsIn (stream [lastSps]) = .ok (some ⟨kSPS, [0x67, 0x42], 4⟩) := by decide +kernel
    have hwhole : findSps (stream [lastSps]) = .ok (some ⟨kSPS, [0x67, 0x42, 0xE0, 0x1F], 4⟩) := by
      decide +kernel
    obtain rfl := Except.ok.inj (hfound.symm.trans hcut)
    obtain rfl := Except.ok.inj (hsps.symm.trans hwhole)
    exact absurd hdata (by decide)
  · intro hall
    obtain ⟨contained, hcontained⟩ := hall [0, 0, 1]
    have hover : containsIdrSlice [0, 0, 1] = .error (.byte 3) := by decide +kernel
    rw [hover] at hcontained
    cases hcontained

end NimRtc.AnnexB
