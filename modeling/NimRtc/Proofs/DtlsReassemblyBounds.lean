import NimRtc.DtlsReassemblyMemory

/-!
# The reassembler stays inside its vectors

With each access checked, `try_reassemble` comes to what it reads of the record and to the buffers it
keeps. A fragment that passed the checks ends inside the payload and inside the message, and a buffer
is as long as its message.
-/

namespace NimRtc.ReassemblyMemory

open Checked

/-! ### Headers -/

theorem byteAt_of_getElem? {bytes : List UInt8} {fault : ℕ → Access} {i : ℕ} {b : UInt8}
    (h : bytes[i]? = some b) : byteAt bytes fault i = .ok b :=
  get_of_getElem? h

theorem exists_header {payload : List UInt8} (h : 12 ≤ payload.length) :
    ∃ t l0 l1 l2 q0 q1 o0 o1 o2 f0 f1 f2 data,
      payload = t :: l0 :: l1 :: l2 :: q0 :: q1 :: o0 :: o1 :: o2 :: f0 :: f1 :: f2 :: data := by
  rcases payload with _ | ⟨t, _ | ⟨l0, _ | ⟨l1, _ | ⟨l2, _ | ⟨q0, _ | ⟨q1, _ | ⟨o0, _ | ⟨o1, _ | ⟨o2,
    _ | ⟨f0, _ | ⟨f1, _ | ⟨f2, data⟩⟩⟩⟩⟩⟩⟩⟩⟩⟩⟩⟩ <;>
    first
    | exact ⟨_, _, _, _, _, _, _, _, _, _, _, _, _, rfl⟩
    | (simp only [List.length_cons, List.length_nil] at h
       omega)

theorem parseHandshake_of_short {payload : List UInt8} (h : payload.length < 12) :
    parseHandshake payload = none := by
  unfold parseHandshake
  split
  · simp only [List.length_cons] at h
    omega
  · rfl

/-- The header of a payload that is long enough. -/
theorem parseHeader_eq {payload : List UInt8} (h : 12 ≤ payload.length) :
    ∃ header, parseHandshake payload = some (header, payload.drop 12)
      ∧ parseHeader payload = .ok header := by
  obtain ⟨t, l0, l1, l2, q0, q1, o0, o1, o2, f0, f1, f2, data, rfl⟩ := exists_header h
  simp only [List.length_cons] at h
  refine ⟨_, rfl, ?_⟩
  rw [parseHeader, byteAt_of_getElem? (b := t) rfl, ok_bind,
    readBe_field (by simp only [List.length_cons]; omega), ok_bind,
    readBe_field (by simp only [List.length_cons]; omega), ok_bind,
    readBe_field (by simp only [List.length_cons]; omega), ok_bind,
    readBe_field (by simp only [List.length_cons]; omega), ok_bind]
  rfl

/-- The checks of the header are those that make a fragment. -/
theorem parseFragment_eq {payload : List UInt8} {header : HandshakeHeader}
    (hlen : 12 ≤ payload.length)
    (h : parseHandshake payload = some (header, payload.drop 12)) :
    if passesThrough payload header then parseFragment payload = none
    else ∃ f, parseFragment payload = some f ∧ f.toHandshakeHeader = header
      ∧ f.data = payload.drop 12 := by
  have hdrop : (payload.drop 12).length = payload.length - 12 := List.length_drop
  unfold parseFragment
  rw [h]
  simp only [hdrop, passesThrough, Bool.or_eq_true, Bool.and_eq_true, decide_eq_true_eq]
  by_cases hwhole : header.fragOff = 0 ∧ header.fragLen = header.msgLen
      ∧ payload.length - 12 = header.msgLen
  · rw [if_pos hwhole, if_pos (by omega)]
  · rw [if_neg hwhole]
    by_cases hok : header.msgLen ≠ 0 ∧ header.msgLen ≤ 16384 ∧ header.fragOff < header.msgLen
        ∧ header.fragLen ≤ header.msgLen ∧ header.fragOff + header.fragLen ≤ header.msgLen
        ∧ header.fragLen ≤ payload.length - 12
    · rw [dif_pos hok, if_neg (by omega)]
      exact ⟨_, rfl, rfl, rfl⟩
    · rw [dif_neg hok, if_pos (by omega)]

/-! ### Buffers -/

theorem bufsOf_update (s : DtlsHandshakeReassembler) (k : UInt16) (b : Option FragmentBuf) :
    bufsOf { s with bufs := Function.update s.bufs k b }
      = Function.update (bufsOf s) k (b.map .of) := by
  funext k'
  by_cases hk : k' = k
  · simp only [hk, bufsOf, Function.update_self]
  · simp only [bufsOf, Function.update_of_ne hk]

/-- The buffer is found or made as long as the message. -/
theorem bufferFor_eq (s : DtlsHandshakeReassembler) {payload : List UInt8} {f : HandshakeFragment}
    (hlen : 12 ≤ payload.length) (hdata : f.data = payload.drop 12) (epoch : UInt16) (seq : ℕ)
    (hseq : seq < 256 ^ 6) (now : ℕ) :
    bufferFor payload (bufsOf s) f.toHandshakeHeader epoch seq now
      = (s.bufferFor f epoch seq hseq now).map fun b => .of b.1 := by
  unfold bufferFor DtlsHandshakeReassembler.bufferFor bufsOf
  cases s.bufs f.msgSeq with
  | none =>
    have hfirst : (f.data.length ≠ f.fragLen) = (payload.length ≠ 12 + f.fragLen) := by
      rw [hdata, List.length_drop]
      exact propext ⟨fun h => by omega, fun h => by omega⟩
    simp only [Option.map_none, hfirst]
    split_ifs <;> rfl
  | some b =>
    simp only [Option.map_some, RawBuf.of]
    by_cases hb : b.accepts f epoch = true
    · rw [dif_pos hb, if_neg]
      · rfl
      · simp only [FragmentBuf.accepts, Bool.and_eq_true, decide_eq_true_eq] at hb
        rintro (h | h | h)
        · exact h hb.1.1
        · exact h hb.1.2
        · exact h hb.2
    · rw [dif_neg hb, if_pos]
      · rfl
      · simp only [FragmentBuf.accepts, Bool.and_eq_true, decide_eq_true_eq, not_and_or, and_assoc]
          at hb
        exact hb

/-- The fragment is copied into the range that its header gives. -/
theorem copyIn_eq {payload : List UInt8} {f : HandshakeFragment} (hlen : 12 ≤ payload.length)
    (hdata : f.data = payload.drop 12) (b : FragmentBuf) (hb : b.totalLength = f.msgLen) :
    copyIn payload (.of b) f.toHandshakeHeader = .ok (.of (b.copyIn f hb)) := by
  have hfits := f.fits
  have hle := f.len_le
  rw [hdata, List.length_drop] at hle
  have hfrag : ((payload.drop 12).take f.fragLen).length = f.fragLen :=
    List.length_take_of_le (by rwa [List.length_drop])
  have hbody : f.fragOff + ((payload.drop 12).take f.fragLen).length ≤ b.body.length := by
    rwa [hfrag, b.body_length, hb]
  have hreceived : f.fragOff + (List.replicate f.fragLen true).length ≤ b.received.length := by
    rwa [List.length_replicate, b.received_length, hb]
  unfold copyIn
  rw [readRange_of_le (by omega), ok_bind]
  simp only [RawBuf.of]
  rw [writeRange_of_le hbody, ok_bind, writeAll_of_le _ _ _ hreceived, ok_bind, pure_eq_ok]
  simp only [FragmentBuf.copyIn, FragmentBuf.overwrite, Buffer.write, hdata, List.append_assoc]

/-! ### The record that is put together -/

theorem length_headerBytes (b : RawBuf) (v0 v1 : UInt8) : (headerBytes b v0 v1).length = 25 := by
  simp only [headerBytes, List.length_append, length_beBytes, List.length_cons, List.length_nil]

theorem encode_synthesise (b : FragmentBuf) (v0 v1 : UInt8) :
    (b.synthesise (v0, v1)).encode = headerBytes (.of b) v0 v1 ++ b.body := by
  have hseq : beBytes 6 ((b.firstSeq + 1) % 256 ^ 6) = beBytes 6 (b.firstSeq + 1) :=
    beBytes_mod _ 6 (le_refl 6)
  have hlen : (b.synthesise (v0, v1)).payload.length = 12 + b.totalLength := by
    simp only [FragmentBuf.synthesise, List.length_cons, List.length_append, length_beBytes,
      List.length_nil, b.body_length]
    omega
  rw [DtlsWireRecord.encode, hlen]
  simp only [FragmentBuf.synthesise, hseq, headerBytes, RawBuf.of, List.cons_append, List.nil_append,
    List.append_assoc]

/-- The record is as long as the header and the body that are written to it. -/
theorem synthesise_eq {record : List UInt8} {v0 v1 : UInt8} (h0 : record[1]? = some v0)
    (h1 : record[2]? = some v1) (b : FragmentBuf) :
    synthesise record (.of b) = .ok (b.synthesise (v0, v1)).encode := by
  have hheader := length_headerBytes (.of b) v0 v1
  have hbody : (RawBuf.of b).body.length = (RawBuf.of b).totalLength := b.body_length
  generalize hn : 13 + 12 + (RawBuf.of b).totalLength = n
  have hsize : (List.replicate n (0 : UInt8)).length = n := List.length_replicate
  have hfront : Buffer.write (List.replicate n 0) 0 (headerBytes (.of b) v0 v1)
      = headerBytes (.of b) v0 v1 ++ (List.replicate n 0).drop 25 := by
    rw [Buffer.write, List.take_zero, List.nil_append, Nat.zero_add, hheader]
  have hrest : ((List.replicate n (0 : UInt8)).drop 25).drop (RawBuf.of b).body.length = [] := by
    rw [List.drop_drop]
    exact List.drop_eq_nil_of_le (by omega)
  have hroom : 25 + (RawBuf.of b).body.length
      ≤ (headerBytes (.of b) v0 v1 ++ (List.replicate n 0).drop 25).length := by
    rw [List.length_append, List.length_drop]
    omega
  rw [synthesise, hn, byteAt_of_getElem? h0, ok_bind, byteAt_of_getElem? h1, ok_bind,
    writeAll_of_le _ _ _ (by omega), ok_bind, hfront, readRange_of_le (by omega), ok_bind,
    List.drop_zero, ← hbody, List.take_length, writeRange_of_le hroom, encode_synthesise,
    Buffer.write_append hheader, hrest, List.append_nil]
  rfl

/-! ### Records -/

theorem takeRecord_eq (s : DtlsHandshakeReassembler) {record : List UInt8} {v0 v1 : UInt8}
    (h0 : record[1]? = some v0) (h1 : record[2]? = some v1) (payload : List UInt8) (epoch : UInt16)
    (seq : ℕ) (hseq : seq < 256 ^ 6) (now : ℕ) :
    takeRecord (bufsOf s) record payload epoch seq now
      = .ok (bufsOf (s.takeRecord (v0, v1) epoch seq hseq payload now).1,
          .of (s.takeRecord (v0, v1) epoch seq hseq payload now).2) := by
  unfold takeRecord DtlsHandshakeReassembler.takeRecord
  by_cases hlen : payload.length < 12
  · have hnone : parseFragment payload = none := by
      rw [parseFragment, parseHandshake_of_short hlen]
    rw [if_pos hlen, hnone]
    rfl
  · obtain ⟨header, hparse, hheader⟩ := parseHeader_eq (not_lt.1 hlen)
    have hfragment := parseFragment_eq (not_lt.1 hlen) hparse
    rw [if_neg hlen, hheader, ok_bind]
    split_ifs at hfragment ⊢ with hpass
    · rw [hfragment]
      rfl
    · obtain ⟨f, hf, rfl, hdata⟩ := hfragment
      rw [bufferFor_eq s (not_lt.1 hlen) hdata epoch seq hseq now]
      cases hbuffer : s.bufferFor f epoch seq hseq now with
      | none => simp only [hf, hbuffer, Option.map_none, Result.of]
      | some b =>
        have hreceived : (RawBuf.of (b.1.copyIn f b.2)).received.all id
            = (b.1.copyIn f b.2).complete := rfl
        simp only [hf, hbuffer, Option.map_some]
        rw [copyIn_eq (not_lt.1 hlen) hdata b.1 b.2, ok_bind, hreceived]
        cases (b.1.copyIn f b.2).complete with
        | false =>
          simp only [Bool.not_false, if_true, Bool.false_eq_true, if_false, bufsOf_update,
            Option.map_some, Result.of]
        | true =>
          simp only [Bool.not_true, Bool.false_eq_true, if_false, if_true]
          rw [synthesise_eq h0 h1, ok_bind, bufsOf_update]
          rfl

theorem exists_recordHeader {record : List UInt8} (h : 13 ≤ record.length) :
    ∃ ct v0 v1 e0 e1 s0 s1 s2 s3 s4 s5 l0 l1 rest,
      record = ct :: v0 :: v1 :: e0 :: e1 :: s0 :: s1 :: s2 :: s3 :: s4 :: s5 :: l0 :: l1 :: rest := by
  obtain ⟨ct, rest, rfl⟩ := List.exists_cons_of_length_pos (show 0 < record.length by omega)
  obtain ⟨v0, v1, e0, e1, s0, s1, s2, s3, s4, s5, l0, l1, rest, rfl⟩ :=
    exists_header (show 12 ≤ rest.length by simpa using h)
  exact ⟨_, _, _, _, _, _, _, _, _, _, _, _, _, _, rfl⟩

theorem tryReassemble_of_short (s : DtlsHandshakeReassembler) (now : ℕ) {record : List UInt8}
    (h : record.length < 13) : s.tryReassemble now record = (s, .passThrough) := by
  unfold DtlsHandshakeReassembler.tryReassemble
  split
  · simp only [List.length_cons] at h
    omega
  · rfl

/-- Whatever the bytes are, no access is outside its vector. -/
theorem tryReassemble_eq (s : DtlsHandshakeReassembler) (now : ℕ) (record : List UInt8) :
    tryReassemble (bufsOf s) now record
      = .ok (bufsOf (s.tryReassemble now record).1, .of (s.tryReassemble now record).2) := by
  by_cases hlen : record.length < 13
  · rw [tryReassemble, if_pos hlen, tryReassemble_of_short s now hlen]
    rfl
  · obtain ⟨ct, v0, v1, e0, e1, s0, s1, s2, s3, s4, s5, l0, l1, rest, rfl⟩ :=
      exists_recordHeader (not_lt.1 hlen)
    rw [tryReassemble, if_neg hlen, byteAt_of_getElem? (b := ct) rfl, ok_bind,
      readBe_field (by simp only [List.length_cons]; omega), ok_bind,
      readBe_field (by simp only [List.length_cons]; omega), ok_bind,
      readBe_field (by simp only [List.length_cons]; omega), ok_bind]
    simp only [List.drop_succ_cons, List.drop_zero, List.take_succ_cons, List.take_zero,
      DtlsHandshakeReassembler.tryReassemble]
    have hshort : ((ct :: v0 :: v1 :: e0 :: e1 :: s0 :: s1 :: s2 :: s3 :: s4 :: s5 :: l0 :: l1
        :: rest).length < 13 + beNat [l0, l1]) = (rest.length < beNat [l0, l1]) := by
      simp only [List.length_cons]
      exact propext ⟨fun h => by omega, fun h => by omega⟩
    simp only [hshort]
    split_ifs with hct hrest
    · rfl
    · rfl
    · rw [readRange_of_le (by simp only [List.length_cons]; omega), ok_bind]
      exact takeRecord_eq s rfl rfl _ _ _ _ now

end NimRtc.ReassemblyMemory
