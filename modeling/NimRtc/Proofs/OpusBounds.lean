import NimRtc.Lib.Bytes
import NimRtc.OpusMemory

/-!
# Which payloads overrun the table of lengths

With each access checked, `depacketise` comes to what it does to the views alone: every read of the
payload is behind a comparison with its length, no subtraction wraps around, and the views fit those
of the caller. Only the writes to the table are not behind a comparison, and the one after its last
place is reached by a payload with more lengths than that.
-/

namespace NimRtc

namespace Opus

/-! ### Views -/

/-- The views of a payload say where they are. -/
structure Places (view : ℕ → ℕ → PacketView) : Prop where
  offset : ∀ offset size, (view offset size).offset = offset
  size : ∀ offset size, (view offset size).size = size

section Views

variable {view : ℕ → ℕ → PacketView}

theorem length_viewsFrom : ∀ (cursor : ℕ) (sizes : List ℕ),
    (viewsFrom view cursor sizes).length = sizes.length
  | _, [] => rfl
  | cursor, n :: sizes => congrArg (· + 1) (length_viewsFrom (cursor + n) sizes)

theorem viewsFrom_append : ∀ (cursor : ℕ) (sizes sizes' : List ℕ),
    viewsFrom view cursor (sizes ++ sizes')
      = viewsFrom view cursor sizes ++ viewsFrom view (cursor + sizes.sum) sizes'
  | _, [], _ => rfl
  | cursor, n :: sizes, sizes' => by
    rw [List.cons_append, viewsFrom, viewsFrom, viewsFrom_append, List.sum_cons, Nat.add_assoc,
      List.cons_append]

theorem mem_viewsFrom_bounds (hview : Places view) {v : PacketView} :
    ∀ {cursor : ℕ} {sizes : List ℕ}, v ∈ viewsFrom view cursor sizes →
      cursor ≤ v.offset ∧ v.offset + v.size ≤ cursor + sizes.sum
  | _, [], h => absurd h List.not_mem_nil
  | cursor, n :: sizes, h => by
    rw [List.sum_cons]
    rcases List.mem_cons.1 h with rfl | h
    · rw [hview.offset, hview.size]
      omega
    · have := mem_viewsFrom_bounds hview h
      omega

theorem consecutive_viewsFrom (hview : Places view) : ∀ (cursor : ℕ) (sizes : List ℕ),
    Memory.Consecutive (viewsFrom view cursor sizes)
  | _, [] => .nil
  | _, [_] => .singleton _
  | cursor, n :: k :: sizes => by
    refine .cons_cons ?_ (consecutive_viewsFrom hview (cursor + n) (k :: sizes))
    rw [hview.offset, hview.offset, hview.size]

theorem nonOverlapping_viewsFrom (hview : Places view) : ∀ (cursor : ℕ) (sizes : List ℕ),
    Memory.NonOverlapping (viewsFrom view cursor sizes)
  | _, [] => .nil
  | cursor, n :: sizes => by
    refine .cons (fun w hw => ?_) (nonOverlapping_viewsFrom hview (cursor + n) sizes)
    rw [hview.offset, hview.size]
    exact (mem_viewsFrom_bounds hview hw).1

end Views

namespace Memory

open Checked

variable {payload : List UInt8} {view : ℕ → ℕ → PacketView} {views : List PacketView}

/-! ### The steps -/

theorem readByte_of_lt {i : ℕ} (h : i < payload.length) : readByte payload i = .ok payload[i] :=
  get_of_lt h

theorem sub_of_le {a b : ℕ} (h : b ≤ a) : sub a b = .ok (a - b) := Checked.sub_of_le h

def ofOption {α : Type} : Option α → Except Halt α
  | none => .error .rejected
  | some x => .ok x

theorem decodeFrameLength_eq {len : ℕ} (hlen : len ≤ payload.length) (pos : ℕ) :
    decodeFrameLength payload len pos = ofOption (Opus.decodeFrameLength (payload.take len) pos) := by
  have hbytes : (payload.take len).length = len := List.length_take_of_le hlen
  unfold decodeFrameLength Opus.decodeFrameLength
  by_cases hend : len ≤ pos
  · rw [if_pos hend, List.drop_eq_nil_of_le (hbytes.le.trans hend)]
    rfl
  rw [if_neg hend, List.drop_eq_getElem_cons (by omega), List.getElem_take,
    readByte_of_lt (by omega), ok_bind]
  simp only
  split_ifs with hshort hend'
  · rfl
  · rw [List.drop_eq_nil_of_le (by omega)]
    rfl
  · rw [List.drop_eq_getElem_cons (by omega), List.getElem_take, readByte_of_lt (by omega), ok_bind]
    simp only
    split_ifs <;> rfl

/-- The table takes lengths up to its last place. -/
theorem readLengths_eq {dataEnd : ℕ} (hend : dataEnd ≤ payload.length) :
    ∀ (rounds pos : ℕ) (done old : List ℕ), rounds ≤ old.length →
      readLengths payload dataEnd rounds done.length pos (done ++ old)
        = (ofOption (decodeLengths (payload.take dataEnd) rounds pos)).map fun r =>
            (r.2, done ++ r.1 ++ old.drop rounds)
  | 0, pos, done, old, _ => by
    simp [readLengths, decodeLengths, ofOption, Except.map, pure_eq_ok]
  | rounds + 1, pos, done, [], h => absurd h (Nat.not_succ_le_zero _)
  | rounds + 1, pos, done, x :: old, h => by
    rw [readLengths, decodeLengths, decodeFrameLength_eq hend]
    cases Opus.decodeFrameLength (payload.take dataEnd) pos with
    | none => rfl
    | some r =>
      obtain ⟨n, pos⟩ := r
      have hstep := readLengths_eq hend rounds pos (done ++ [n]) old (Nat.le_of_succ_le_succ h)
      rw [List.length_append, List.length_singleton, List.append_assoc,
        List.singleton_append] at hstep
      simp only [ofOption, ok_bind]
      rw [setLength, set_append rfl, ok_bind, hstep]
      cases decodeLengths (payload.take dataEnd) rounds pos with
      | none => rfl
      | some r => simp [ofOption, Except.map]

/-- One more length than there are places is written after the last. -/
theorem readLengths_full {dataEnd : ℕ} (hend : dataEnd ≤ payload.length) :
    ∀ (rounds pos : ℕ) (done old : List ℕ), old.length < rounds →
      readLengths payload dataEnd rounds done.length pos (done ++ old)
        = .error (if (decodeLengths (payload.take dataEnd) (old.length + 1) pos).isSome then
            .outside (.lengths (done.length + old.length)) else .rejected)
  | rounds + 1, pos, done, [], _ => by
    rw [readLengths, decodeFrameLength_eq hend]
    simp only [List.length_nil, decodeLengths]
    cases Opus.decodeFrameLength (payload.take dataEnd) pos with
    | none => rfl
    | some r =>
      simp only [ofOption, ok_bind]
      rw [setLength, set_of_le (by simp)]
      rfl
  | rounds + 1, pos, done, x :: old, h => by
    rw [readLengths, List.length_cons, decodeLengths, decodeFrameLength_eq hend]
    cases Opus.decodeFrameLength (payload.take dataEnd) pos with
    | none => rfl
    | some r =>
      obtain ⟨n, pos⟩ := r
      have hstep := readLengths_full hend rounds pos (done ++ [n]) old (Nat.lt_of_succ_lt_succ h)
      rw [List.length_append, List.length_singleton, List.append_assoc,
        List.singleton_append] at hstep
      simp only [ofOption, ok_bind, Option.isSome_map]
      rw [setLength, set_append rfl, ok_bind, hstep, Nat.add_assoc, Nat.add_comm 1]

theorem lengthAt_append {done : List ℕ} {n : ℕ} {rest : List ℕ} :
    lengthAt (done ++ n :: rest) done.length = .ok n :=
  get_of_getElem? (by simp)

theorem sumLengths_eq : ∀ (done ns rest : List ℕ) (total : ℕ),
    sumLengths (done ++ ns ++ rest) ns.length done.length total = .ok (total + ns.sum)
  | _, [], _, _ => rfl
  | done, n :: ns, rest, total => by
    have hstep := sumLengths_eq (done ++ [n]) ns rest (total + n)
    simp only [List.length_append, List.length_singleton, List.append_assoc, List.cons_append,
      List.nil_append] at hstep
    rw [List.length_cons, sumLengths, List.append_assoc, List.cons_append, lengthAt_append, ok_bind,
      hstep, List.sum_cons, Nat.add_assoc]

theorem setView_append (done old : List PacketView) {v w : PacketView} :
    setView (done ++ v :: old) done.length w = .ok (done ++ w :: old) := set_append rfl

variable (view) in
theorem sliceFrames_eq : ∀ (ldone ns lrest : List ℕ) (done old : List PacketView) (cursor : ℕ),
    ldone.length = done.length → ns.length ≤ old.length →
      sliceFrames view (ldone ++ ns ++ lrest) ns.length done.length cursor (done ++ old)
        = .ok (cursor + ns.sum, done ++ viewsFrom view cursor ns ++ old.drop ns.length)
  | _, [], _, done, old, cursor, _, _ => by simp [sliceFrames, viewsFrom, pure_eq_ok]
  | ldone, n :: ns, lrest, done, [], cursor, _, h => absurd h (Nat.not_succ_le_zero _)
  | ldone, n :: ns, lrest, done, v :: old, cursor, hdone, h => by
    have hstep := sliceFrames_eq (ldone ++ [n]) ns lrest (done ++ [view cursor n]) old (cursor + n)
      (by rw [List.length_append, List.length_append, hdone]; rfl) (Nat.le_of_succ_le_succ h)
    simp only [List.length_append, List.length_singleton, List.append_assoc, List.cons_append,
      List.nil_append] at hstep
    rw [List.length_cons, sliceFrames, List.append_assoc, List.cons_append, ← hdone,
      lengthAt_append, ok_bind, hdone, setView_append, ok_bind, hstep, List.sum_cons,
      Nat.add_assoc]
    simp [viewsFrom]

variable (view) in
theorem equalFrames_eq (pos per : ℕ) : ∀ (rounds : ℕ) (done old : List PacketView),
    rounds ≤ old.length →
      equalFrames view pos per rounds done.length (done ++ old)
        = .ok (done ++ viewsFrom view (pos + done.length * per) (List.replicate rounds per)
            ++ old.drop rounds)
  | 0, done, old, _ => by simp [equalFrames, viewsFrom, pure_eq_ok]
  | rounds + 1, done, [], h => absurd h (Nat.not_succ_le_zero _)
  | rounds + 1, done, v :: old, h => by
    have hstep := equalFrames_eq pos per rounds (done ++ [view (pos + done.length * per) per]) old
      (Nat.le_of_succ_le_succ h)
    simp only [List.length_append, List.length_singleton, List.append_assoc,
      List.singleton_append] at hstep
    rw [equalFrames, setView_append, ok_bind, hstep, List.replicate_succ, viewsFrom]
    simp [Nat.add_mul, Nat.add_assoc]

/-! ### The whole -/

/-- What becomes of the views of the caller. -/
def ofOutcome (views : List PacketView) : Outcome → Except Halt Result
  | .rejected => .error .rejected
  | .views out => .ok (out.length, out ++ views.drop out.length)
  | .overflow => .error (.outside (.lengths kMaxFramesPerPacket))

theorem setView_first {v : PacketView} (h : 1 ≤ views.length) :
    setView views 0 v = .ok (v :: views.drop 1) := by
  rcases views with _ | ⟨w, views⟩
  · exact absurd h (Nat.not_succ_le_zero _)
  · exact setView_append [] views

theorem setView_second {v w : PacketView} (h : 2 ≤ views.length) :
    setView (v :: views.drop 1) 1 w = .ok (v :: w :: views.drop 2) := by
  rcases views with _ | ⟨x, _ | ⟨y, views⟩⟩
  · exact absurd h (by simp)
  · exact absurd h (by simp)
  · exact setView_append [v] views

theorem decodeFrameLength_le {bytes : List UInt8} {pos n pos' : ℕ}
    (h : Opus.decodeFrameLength bytes pos = some (n, pos')) : pos' ≤ bytes.length := by
  have hlen : (bytes.drop pos).length = bytes.length - pos := List.length_drop
  unfold Opus.decodeFrameLength at h
  rcases hdrop : bytes.drop pos with _ | ⟨b, _ | ⟨c, rest⟩⟩ <;>
    rw [hdrop] at h hlen <;> simp only [List.length_cons, List.length_nil] at h hlen
  · cases h
  · split_ifs at h
    obtain ⟨-, rfl⟩ := Prod.mk.inj (Option.some.inj h)
    omega
  · split_ifs at h
    all_goals
      obtain ⟨-, rfl⟩ := Prod.mk.inj (Option.some.inj h)
      omega

theorem decodeLengths_spec {bytes : List UInt8} : ∀ {count pos pos' : ℕ} {ns : List ℕ},
    pos ≤ bytes.length → decodeLengths bytes count pos = some (ns, pos') →
      ns.length = count ∧ pos' ≤ bytes.length
  | 0, pos, pos', ns, hpos, h => by
    obtain ⟨rfl, rfl⟩ := Prod.mk.inj (Option.some.inj h)
    exact ⟨rfl, hpos⟩
  | count + 1, pos, pos', ns, hpos, h => by
    rw [decodeLengths] at h
    split at h
    · cases h
    · rename_i n mid hfirst
      obtain ⟨⟨tail, last⟩, htail, heq⟩ := Option.map_eq_some_iff.1 h
      obtain ⟨rfl, rfl⟩ := Prod.mk.inj heq
      obtain ⟨hcount, hle⟩ := decodeLengths_spec (decodeFrameLength_le hfirst) htail
      exact ⟨congrArg (· + 1) hcount, hle⟩

theorem depacketiseVbr_eq {m pos dataEnd : ℕ} (hpos : pos ≤ dataEnd)
    (hend : dataEnd ≤ payload.length) :
    depacketiseVbr payload view (m + 1) pos dataEnd views
      = if views.length < m + 1 then .error .rejected
        else ofOutcome views (Opus.depacketiseVbr payload view (m + 1) pos dataEnd) := by
  have htable : (List.replicate kMaxFramesPerPacket 0).length = kMaxFramesPerPacket :=
    List.length_replicate
  unfold depacketiseVbr Opus.depacketiseVbr
  rw [Nat.add_sub_cancel]
  by_cases hroom : views.length < m + 1
  · rw [if_pos hroom, if_pos hroom]
  rw [if_neg hroom, if_neg hroom]
  by_cases hmany : kMaxFramesPerPacket < m
  · have hfull := readLengths_full hend m pos [] _ (htable.trans_lt hmany)
    rw [htable, List.nil_append, List.length_nil, Nat.zero_add] at hfull
    rw [if_pos hmany, hfull, error_bind]
    split_ifs <;> rfl
  have hread := readLengths_eq hend m pos [] (List.replicate kMaxFramesPerPacket 0)
    ((Nat.le_of_not_lt hmany).trans htable.ge)
  rw [List.nil_append, List.length_nil] at hread
  rw [if_neg hmany, hread]
  cases hdecode : decodeLengths (payload.take dataEnd) m pos with
  | none => rfl
  | some r =>
    obtain ⟨ns, start⟩ := r
    have hwindow : (payload.take dataEnd).length = dataEnd := List.length_take_of_le hend
    obtain ⟨rfl, hstart⟩ := decodeLengths_spec (hpos.trans hwindow.ge) hdecode
    rw [hwindow] at hstart
    have hsum := sumLengths_eq [] ns ((List.replicate kMaxFramesPerPacket 0).drop ns.length) 0
    have hslice := sliceFrames_eq view [] ns
      ((List.replicate kMaxFramesPerPacket 0).drop ns.length) [] views start rfl (by omega)
    simp only [List.nil_append, List.length_nil, Nat.zero_add] at hsum hslice
    simp only [ofOption, Except.map, ok_bind, List.nil_append, hsum, sub_of_le hstart]
    by_cases hfits : dataEnd - start < ns.sum
    · rw [if_pos hfits, if_pos hfits]
      rfl
    · rw [if_neg hfits, if_neg hfits, sub_of_le (Nat.le_of_not_lt hfits), ok_bind, hslice, ok_bind]
      have hplace : ns.length = (viewsFrom view start ns).length := (length_viewsFrom _ _).symm
      have hlast : views.drop ns.length ≠ [] := by
        rw [ne_eq, List.drop_eq_nil_iff]
        omega
      obtain ⟨w, rest, hcons⟩ := List.exists_cons_of_ne_nil hlast
      have hrest : views.drop (ns.length + 1) = rest := by
        rw [← List.drop_drop, hcons, List.drop_one, List.tail_cons]
      simp only [hcons, ofOutcome, viewsFrom_append, List.length_append, length_viewsFrom,
        List.length_singleton, hrest]
      conv_lhs => rw [hplace, setView_append]
      simp [ok_bind, pure_eq_ok, viewsFrom, length_viewsFrom]

theorem depacketiseCbr_eq {m pos dataEnd : ℕ} (hpos : pos ≤ dataEnd) :
    depacketiseCbr view m pos dataEnd views
      = if views.length < m then .error .rejected
        else ofOutcome views (Opus.depacketiseCbr view m pos dataEnd) := by
  unfold depacketiseCbr Opus.depacketiseCbr
  rw [sub_of_le hpos, ok_bind]
  simp only
  by_cases hrest : (dataEnd - pos) % m ≠ 0
  · rw [if_pos hrest, if_pos hrest]
    split_ifs <;> rfl
  rw [if_neg hrest, if_neg hrest]
  split_ifs with hroom
  · rfl
  · have hequal := equalFrames_eq view pos ((dataEnd - pos) / m) m [] views
      (Nat.le_of_not_lt hroom)
    simp only [List.nil_append, List.length_nil, Nat.zero_mul, Nat.add_zero] at hequal
    rw [hequal, ok_bind, ofOutcome, length_viewsFrom, List.length_replicate, pure_eq_ok]

theorem paddingHeader_eq {toc fc : UInt8} {rest : List UInt8} (p : Bool) :
    paddingHeader (toc :: fc :: rest) p = ofOption (Opus.paddingHeader (toc :: fc :: rest) p) := by
  unfold paddingHeader Opus.paddingHeader
  rcases rest with _ | ⟨b0, rest⟩
  · cases p <;> rfl
  rcases p with _ | _
  · rfl
  rw [if_neg (by simp), readByte_of_lt (by simp), ok_bind]
  simp only [List.drop_succ_cons, List.drop_zero, List.getElem_cons_succ, List.getElem_cons_zero]
  by_cases hlong : b0 = 255
  · rcases rest with _ | ⟨b1, rest⟩
    · simp [hlong, ofOption]
    · simp [hlong, ofOption, readByte_of_lt, ok_bind, pure_eq_ok]
  · simp [hlong, ofOption, pure_eq_ok]

theorem depacketiseCounted_eq {toc fc : UInt8} {rest : List UInt8} :
    depacketiseCounted (toc :: fc :: rest) view views
      = ofOutcome views (Opus.depacketiseCounted (toc :: fc :: rest) views.length view fc) := by
  unfold depacketiseCounted Opus.depacketiseCounted
  rw [if_neg (by simp), readByte_of_lt (by simp), ok_bind]
  simp only [List.getElem_cons_succ, List.getElem_cons_zero, paddingHeader_eq]
  by_cases hm : (fc >>> 2 &&& 0x3F).toNat = 0
  · rw [if_pos hm, if_pos hm]
    rfl
  rw [if_neg hm, if_neg hm]
  cases Opus.paddingHeader (toc :: fc :: rest) (decide (fc >>> 1 &&& 0x01 ≠ 0)) with
  | none => rfl
  | some r =>
    obtain ⟨header, padding⟩ := r
    simp only [ofOption, ok_bind]
    by_cases hfits : (toc :: fc :: rest).length < 2 + header + padding
    · rw [if_pos hfits, if_pos hfits]
      rfl
    rw [if_neg hfits, if_neg hfits, sub_of_le (by omega), ok_bind]
    obtain ⟨m, hm⟩ := Nat.exists_eq_succ_of_ne_zero hm
    rw [hm, Nat.succ_eq_add_one, depacketiseVbr_eq (by omega) (by omega),
      depacketiseCbr_eq (by omega)]
    by_cases hroom : views.length < m + 1
    · simp [hroom, ofOutcome]
    · simp only [if_neg hroom, decide_eq_true_eq]
      split_ifs <;> rfl

theorem depacketiseSingle_eq {toc : UInt8} {rest : List UInt8} (hroom : 1 ≤ views.length) :
    depacketiseSingle (toc :: rest) view views
      = ofOutcome views (.views [view 1 rest.length]) := by
  rw [depacketiseSingle, if_neg (by omega), sub_of_le (by simp), ok_bind, setView_first hroom,
    ok_bind]
  rfl

theorem depacketiseTwoEqual_eq {toc : UInt8} {rest : List UInt8} :
    depacketiseTwoEqual (toc :: rest) view views
      = ofOutcome views (if rest.length % 2 ≠ 0 then .rejected
          else if views.length < 2 then .rejected
          else .views [view 1 (rest.length / 2),
            view (1 + rest.length / 2) (rest.length / 2)]) := by
  rw [depacketiseTwoEqual, sub_of_le (by simp), ok_bind]
  simp only [List.length_cons, Nat.add_sub_cancel]
  by_cases hodd : rest.length % 2 ≠ 0
  · rw [if_pos hodd, if_pos hodd]
    rfl
  rw [if_neg hodd, if_neg hodd]
  by_cases hroom : views.length < 2
  · rw [if_pos hroom, if_pos hroom]
    rfl
  rw [if_neg hroom, if_neg hroom, setView_first (by omega), ok_bind, setView_second (by omega),
    ok_bind]
  rfl

theorem depacketiseTwoUnequal_eq {toc : UInt8} {rest : List UInt8} :
    depacketiseTwoUnequal (toc :: rest) view views
      = ofOutcome views (if views.length < 2 then .rejected
          else match Opus.decodeFrameLength (toc :: rest) 1 with
          | none => .rejected
          | some (n1, pos) =>
            if (toc :: rest).length - pos < n1 then .rejected
            else .views [view pos n1, view (pos + n1) ((toc :: rest).length - (pos + n1))]) := by
  unfold depacketiseTwoUnequal
  by_cases hroom : views.length < 2
  · rw [if_pos hroom, if_pos hroom]
    split_ifs <;> rfl
  rw [if_neg hroom, if_neg hroom]
  by_cases hshort : (toc :: rest).length < 2
  · obtain rfl : rest = [] := List.eq_nil_of_length_eq_zero (by rw [List.length_cons] at hshort; omega)
    rfl
  rw [if_neg hshort, decodeFrameLength_eq le_rfl, List.take_length]
  cases hdecode : Opus.decodeFrameLength (toc :: rest) 1 with
  | none => rfl
  | some r =>
    obtain ⟨n1, pos⟩ := r
    have hpos := decodeFrameLength_le hdecode
    simp only [ofOption, ok_bind, sub_of_le hpos]
    by_cases hfits : (toc :: rest).length - pos < n1
    · rw [if_pos hfits, if_pos hfits]
      rfl
    · rw [if_neg hfits, if_neg hfits, setView_first (by omega), ok_bind, if_neg (by omega),
        sub_of_le (by omega), ok_bind, setView_second (by omega), ok_bind]
      rfl

/-- With its accesses checked, `depacketise` is what it does to the views. -/
theorem depacketise_eq :
    depacketise payload views = ofOutcome views (Opus.depacketise payload views.length) := by
  unfold depacketise
  rcases payload with _ | ⟨toc, rest⟩
  · rfl
  rw [Opus.depacketise, if_neg (by simp)]
  by_cases hnone : views.length = 0
  · rw [if_pos hnone, if_pos hnone]
    rfl
  rw [if_neg hnone, if_neg hnone, readByte_of_lt (by simp), ok_bind]
  simp only [List.getElem_cons_zero]
  by_cases h0 : toc &&& 0x03 = kCode0SingleFrame
  · rw [if_pos h0, if_pos h0]
    exact depacketiseSingle_eq (by omega)
  rw [if_neg h0, if_neg h0]
  by_cases h1 : toc &&& 0x03 = kCode1TwoEqualFrames
  · rw [if_pos h1, if_pos h1]
    exact depacketiseTwoEqual_eq
  rw [if_neg h1, if_neg h1]
  by_cases h2 : toc &&& 0x03 = kCode2TwoUnequalFrames
  · rw [if_pos h2, if_pos h2]
    exact depacketiseTwoUnequal_eq
  rw [if_neg h2, if_neg h2]
  rcases rest with _ | ⟨fc, rest⟩
  · rfl
  · exact depacketiseCounted_eq

/-! ### What is returned -/

/-- Views are consecutive, in the payload, and no more than the caller has room for. -/
def OutcomeFits (payload : List UInt8) (cap : ℕ) : Outcome → Prop
  | .views out => ∃ view cursor sizes, Places view ∧ out = viewsFrom view cursor sizes
      ∧ sizes.length ≤ cap ∧ cursor + sizes.sum ≤ payload.length
  | _ => True

theorem vbr_fits (hview : Places view) {m pos dataEnd cap : ℕ} (hm : m ≠ 0) (hroom : m ≤ cap)
    (hpos : pos ≤ dataEnd) (hend : dataEnd ≤ payload.length) :
    OutcomeFits payload cap (Opus.depacketiseVbr payload view m pos dataEnd) := by
  have hwindow : (payload.take dataEnd).length = dataEnd := List.length_take_of_le hend
  unfold Opus.depacketiseVbr
  simp only
  split_ifs
  · trivial
  · trivial
  cases hdecode : decodeLengths (payload.take dataEnd) (m - 1) pos with
  | none => trivial
  | some r =>
    obtain ⟨ns, start⟩ := r
    obtain ⟨hcount, hstart⟩ := decodeLengths_spec (hpos.trans hwindow.ge) hdecode
    simp only
    split_ifs with hfits
    · trivial
    · refine ⟨view, start, _, hview, rfl, ?_, ?_⟩
      · rw [List.length_append, List.length_singleton, hcount]
        omega
      · rw [List.sum_append, List.sum_singleton]
        omega

theorem cbr_fits (hview : Places view) {m pos dataEnd cap : ℕ} (hroom : m ≤ cap)
    (hpos : pos ≤ dataEnd) (hend : dataEnd ≤ payload.length) :
    OutcomeFits payload cap (Opus.depacketiseCbr view m pos dataEnd) := by
  unfold Opus.depacketiseCbr
  simp only
  split_ifs
  · trivial
  · have hmul := Nat.mul_div_le (dataEnd - pos) m
    refine ⟨view, pos, _, hview, rfl, ?_, ?_⟩
    · rwa [List.length_replicate]
    · rw [List.sum_replicate, smul_eq_mul]
      omega

theorem counted_fits (hview : Places view) {fc : UInt8} {cap : ℕ} :
    OutcomeFits payload cap (Opus.depacketiseCounted payload cap view fc) := by
  unfold Opus.depacketiseCounted
  simp only
  cases Opus.paddingHeader payload (decide (fc >>> 1 &&& 0x01 ≠ 0)) with
  | none => split_ifs <;> trivial
  | some r =>
    obtain ⟨header, padding⟩ := r
    simp only
    split_ifs with hm hfits hroom hv
    · trivial
    · trivial
    · trivial
    · exact vbr_fits hview hm (by omega) (by omega) (by omega)
    · exact cbr_fits hview (by omega) (by omega) (by omega)

theorem outcome_fits (payload : List UInt8) (cap : ℕ) :
    OutcomeFits payload cap (Opus.depacketise payload cap) := by
  rcases payload with _ | ⟨toc, rest⟩
  · trivial
  have hview : Places fun offset size => PacketView.mk offset size (toc >>> 3 &&& 0x1F)
      (toc >>> 2 &&& 0x01) (toc &&& 0x03) (frameSizeMsForConfig (toc >>> 3 &&& 0x1F)) :=
    ⟨fun _ _ => rfl, fun _ _ => rfl⟩
  rw [Opus.depacketise]
  simp only
  split_ifs with hnone h0 h1 hodd hroom h2 hroom
  · trivial
  · exact ⟨_, 1, [rest.length], hview, rfl, by simp; omega, by simp; omega⟩
  · trivial
  · trivial
  · exact ⟨_, 1, [rest.length / 2, rest.length / 2], hview, rfl, by simp; omega, by simp; omega⟩
  · trivial
  · cases hdecode : Opus.decodeFrameLength (toc :: rest) 1 with
    | none => trivial
    | some r =>
      obtain ⟨n1, pos⟩ := r
      have hpos := decodeFrameLength_le hdecode
      simp only
      split_ifs with hfits
      · trivial
      · exact ⟨_, pos, [n1, _], hview, rfl, by simp; omega, by simp at hpos hfits ⊢; omega⟩
  · rcases rest with _ | ⟨fc, rest⟩
    · trivial
    · exact counted_fits hview

/-! ### When the table is overrun -/

theorem vbr_overflow {m pos dataEnd : ℕ} :
    Opus.depacketiseVbr payload view m pos dataEnd = .overflow
      ↔ kMaxFramesPerPacket < m - 1
        ∧ (decodeLengths (payload.take dataEnd) (kMaxFramesPerPacket + 1) pos).isSome := by
  unfold Opus.depacketiseVbr
  simp only
  split_ifs with hmany hlengths
  · exact iff_of_true rfl ⟨hmany, hlengths⟩
  · exact iff_of_false (by simp) fun h => hlengths h.2
  · refine iff_of_false ?_ fun h => hmany h.1
    cases decodeLengths (payload.take dataEnd) (m - 1) pos with
    | none => simp
    | some r =>
      simp only
      split_ifs <;> simp

theorem cbr_ne_overflow {m pos dataEnd : ℕ} :
    Opus.depacketiseCbr view m pos dataEnd ≠ .overflow := by
  unfold Opus.depacketiseCbr
  simp only
  split_ifs <;> simp

theorem counted_overflow {fc : UInt8} {cap : ℕ} :
    Opus.depacketiseCounted payload cap view fc = .overflow
      ↔ fc &&& 0x01 ≠ 0 ∧ kMaxFramesPerPacket + 1 < (fc >>> 2 &&& 0x3F).toNat
        ∧ (fc >>> 2 &&& 0x3F).toNat ≤ cap
        ∧ ∃ header padding,
          Opus.paddingHeader payload (fc >>> 1 &&& 0x01 ≠ 0) = some (header, padding)
            ∧ 2 + header + padding ≤ payload.length
            ∧ (decodeLengths (payload.take (payload.length - padding)) (kMaxFramesPerPacket + 1)
                (2 + header)).isSome := by
  unfold Opus.depacketiseCounted
  simp only
  cases Opus.paddingHeader payload (decide (fc >>> 1 &&& 0x01 ≠ 0)) with
  | none =>
    refine iff_of_false (by split_ifs <;> simp) ?_
    rintro ⟨-, -, -, header, padding, hnone, -⟩
    cases hnone
  | some r =>
    obtain ⟨header, padding⟩ := r
    simp only
    split_ifs with hm hfits hroom hv
    · exact iff_of_false (by simp) fun h => by omega
    · refine iff_of_false (by simp) ?_
      rintro ⟨-, -, -, header', padding', heq, hle, -⟩
      obtain ⟨rfl, rfl⟩ := Prod.mk.inj (Option.some.inj heq)
      omega
    · exact iff_of_false (by simp) fun h => by omega
    · rw [vbr_overflow]
      constructor
      · rintro ⟨hmany, hlengths⟩
        exact ⟨by simpa using hv, by omega, by omega, header, padding, rfl, by omega, hlengths⟩
      · rintro ⟨-, hmany, -, header', padding', heq, -, hlengths⟩
        obtain ⟨rfl, rfl⟩ := Prod.mk.inj (Option.some.inj heq)
        exact ⟨by omega, hlengths⟩
    · refine iff_of_false cbr_ne_overflow fun h => hv ?_
      simpa using h.1

theorem code_three (toc : UInt8) : toc &&& 0x03 ≠ kCode0SingleFrame →
    toc &&& 0x03 ≠ kCode1TwoEqualFrames → toc &&& 0x03 ≠ kCode2TwoUnequalFrames →
      toc &&& 0x03 = kCode3NFrames := by
  revert toc
  exact forall_uint8 (by decide)

theorem overflow_code {toc : UInt8} {rest : List UInt8} {cap : ℕ}
    (h : Opus.depacketise (toc :: rest) cap = .overflow) :
    toc &&& 0x03 = kCode3NFrames ∧ ∃ fc tail view, rest = fc :: tail
      ∧ Opus.depacketiseCounted (toc :: rest) cap view fc = .overflow := by
  rw [Opus.depacketise] at h
  simp only at h
  by_cases hnone : cap = 0
  · rw [if_pos hnone] at h
    cases h
  rw [if_neg hnone] at h
  by_cases h0 : toc &&& 0x03 = kCode0SingleFrame
  · rw [if_pos h0] at h
    cases h
  rw [if_neg h0] at h
  by_cases h1 : toc &&& 0x03 = kCode1TwoEqualFrames
  · rw [if_pos h1] at h
    split_ifs at h
  rw [if_neg h1] at h
  by_cases h2 : toc &&& 0x03 = kCode2TwoUnequalFrames
  · rw [if_pos h2] at h
    cases hdecode : Opus.decodeFrameLength (toc :: rest) 1 with
    | none =>
      rw [hdecode] at h
      split_ifs at h
    | some r =>
      rw [hdecode] at h
      simp only at h
      split_ifs at h
  rw [if_neg h2] at h
  rcases rest with _ | ⟨fc, rest⟩
  · cases h
  · exact ⟨code_three toc h0 h1 h2, fc, rest, _, rfl, h⟩

theorem overflow_iff (payload : List UInt8) (cap : ℕ) :
    Opus.depacketise payload cap = .overflow ↔ OverrunsTable payload cap := by
  constructor
  · intro h
    rcases payload with _ | ⟨toc, rest⟩
    · cases h
    obtain ⟨hcode, fc, rest, view, rfl, hcounted⟩ := overflow_code h
    obtain ⟨hv, hmany, hroom, header, padding, hpadding, hfits, hlengths⟩ :=
      counted_overflow.1 hcounted
    exact ⟨toc, fc, rest, header, padding, rfl, hcode, hv, hmany, hroom, hpadding, hfits, hlengths⟩
  · rintro ⟨toc, fc, rest, header, padding, rfl, hcode, hv, hmany, hroom, hpadding, hfits, hlengths⟩
    have h0 : kCode3NFrames ≠ kCode0SingleFrame := by decide
    have h1 : kCode3NFrames ≠ kCode1TwoEqualFrames := by decide
    have h2 : kCode3NFrames ≠ kCode2TwoUnequalFrames := by decide
    rw [Opus.depacketise]
    simp only [hcode]
    rw [if_neg (by omega), if_neg h0, if_neg h1, if_neg h2, counted_overflow]
    exact ⟨hv, hmany, hroom, header, padding, hpadding, hfits, hlengths⟩

theorem safe_iff_outcome (payload : List UInt8) (views : List PacketView) :
    Safe payload views ↔ Opus.depacketise payload views.length ≠ .overflow := by
  have hfits := outcome_fits payload views.length
  rw [Safe, depacketise_eq]
  cases hout : Opus.depacketise payload views.length with
  | rejected => simp [ofOutcome]
  | overflow => simp [ofOutcome]
  | views out =>
    rw [hout] at hfits
    obtain ⟨view, cursor, sizes, hview, rfl, hroom, hend⟩ := hfits
    have hlength : (viewsFrom view cursor sizes).length = sizes.length := length_viewsFrom _ _
    rw [← hlength] at hroom
    refine iff_of_true ⟨hroom, ?_, List.drop_left, ?_⟩ (by simp)
    · rw [List.length_append, List.length_drop]
      omega
    · rw [List.take_left]
      refine ⟨fun v hv => ?_, consecutive_viewsFrom hview _ _, nonOverlapping_viewsFrom hview _ _⟩
      exact (mem_viewsFrom_bounds hview hv).2.trans hend

theorem safe_iff (payload : List UInt8) (views : List PacketView) :
    Safe payload views ↔ ¬ OverrunsTable payload views.length := by
  rw [safe_iff_outcome, ne_eq, overflow_iff]

/-- The lengths of fifty frames are one more than the table takes. -/
theorem fifty_frames_overrun : ¬ ∀ payload views, Safe payload views := by
  intro hall
  refine (safe_iff_outcome _ _).1 (hall (0x03 :: 0xC9 :: List.replicate 49 0)
    (List.replicate 50 ⟨0, 0, 0, 0, 0, 0⟩)) ((overflow_iff _ _).2 ?_)
  refine ⟨0x03, 0xC9, List.replicate 49 0, 0, 0, rfl, by decide, by decide, by decide, ?_, by decide,
    by decide, by decide⟩
  rw [List.length_replicate]
  decide

end Memory

end Opus

end NimRtc
