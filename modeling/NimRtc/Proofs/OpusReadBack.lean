import NimRtc.Proofs.OpusGrammar

/-!
# What the grammar reads of packets with a count byte

`packetise` writes the count byte the other way round. The grammar reads as many frames from it only
for 21 frames, with the first length entry as the amount of padding. The frames then begin nineteen
bytes too early, so they come back only if all of them are these nineteen bytes.
-/

namespace NimRtc.Opus

open Rfc6716

/-- Pieces that lie one after the other are what their places hold. -/
theorem cut_spansFrom {bytes rest : List UInt8} : ∀ {pieces : List (List UInt8)} {start : ℕ},
    bytes.drop start = pieces.flatten ++ rest →
    (spansFrom start (pieces.map List.length)).map
      (fun span => (bytes.drop span.1).take span.2) = pieces
  | [], _, _ => rfl
  | piece :: pieces, start, h => by
    rw [List.flatten_cons, List.append_assoc] at h
    have hnext : bytes.drop (start + piece.length) = pieces.flatten ++ rest := by
      rw [← List.drop_drop, h, List.drop_left]
    have hfirst : (bytes.drop start).take piece.length = piece := by rw [h, List.take_left]
    rw [List.map_cons, spansFrom, List.map_cons, hfirst, cut_spansFrom hnext]

theorem length_cut_spansFrom {bytes : List UInt8} : ∀ {sizes : List ℕ} {start : ℕ},
    start + sizes.sum ≤ bytes.length →
    ((spansFrom start sizes).map fun span => (bytes.drop span.1).take span.2).map List.length
      = sizes
  | [], _, _ => rfl
  | n :: sizes, start, h => by
    rw [List.sum_cons] at h
    have hfirst : ((bytes.drop start).take n).length = n := by
      rw [List.length_take, List.length_drop]
      omega
    rw [spansFrom, List.map_cons, List.map_cons, hfirst, length_cut_spansFrom (by omega)]

theorem eq_replicate_of_shift {α : Type*} {x : α} : ∀ {l : List α}, x :: l.dropLast = l →
    l = List.replicate l.length x
  | [], h => by cases h
  | [y], h => by
    rw [List.dropLast_singleton] at h
    rw [← h]
    rfl
  | y :: z :: l, h => by
    rw [List.dropLast_cons_cons, List.cons.injEq] at h
    obtain ⟨rfl, h⟩ := h
    exact congrArg (x :: ·) (eq_replicate_of_shift h)

/-- The one count that both ends of the count byte hold. -/
theorem frameCountByte_eq {m : ℕ} {cbr : Bool} (hm : m ≤ 48) (hpos : m ≠ 0)
    (h : (frameCountByte cbr m &&& 0x3F).toNat = m) : cbr = false ∧ m = 21 := by
  have hall : ∀ m ≤ 48, m ≠ 0 → ∀ cbr, (frameCountByte cbr m &&& 0x3F).toNat = m →
      cbr = false ∧ m = 21 := by decide
  exact hall m hm hpos cbr h

/-- The packets that `packetise` writes for three frames or more. -/
theorem packetise_counted {frames : List CodecFrame} {cbr : Bool} {output : List UInt8}
    (h : 3 ≤ frames.length) (hwritten : 0 < (packetise frames cbr output).1) :
    ∃ config s body, frames.length ≤ 48 ∧ tocFields frames = some (config, s)
      ∧ countedBody frames cbr = some body
      ∧ (packetise frames cbr output).2.take (packetise frames cbr output).1
        = makeTocByte config s kCode3NFrames :: body := by
  cases hpayload : payloadOf frames cbr with
  | none =>
    simp only [packetise, hpayload] at hwritten
    exact absurd hwritten (lt_irrefl 0)
  | some payload =>
    obtain ⟨hcount, config, s, htoc, hshape⟩ := payloadOf_cases hpayload
    have hbytes : (packetise frames cbr output).2.take (packetise frames cbr output).1
        = payload := by
      simp only [packetise, hpayload] at hwritten ⊢
      split at hwritten
      · exact absurd hwritten (lt_irrefl 0)
      · rename_i hroom
        rw [if_neg hroom, List.take_left]
    rcases hshape with ⟨_, rfl, -⟩ | ⟨_, _, rfl, -⟩ | ⟨_, _, _, rfl, -⟩ | ⟨-, body, hbody, rfl⟩
    · exact absurd h (by simp)
    · exact absurd h (by simp)
    · exact absurd h (by simp)
    · exact ⟨config, s, body, hcount, htoc, hbody, hbytes⟩

/-- The bytes of a table of equal lengths. -/
theorem lengthTable_replicate {frames : List CodecFrame} {table : List UInt8} {n : ℕ}
    (h : lengthTable frames = some table) (hsizes : frames.map (·.size) = List.replicate 21 n) :
    ∃ entry, encodeFrameLength n = some entry ∧ table = (List.replicate 20 entry).flatten := by
  have hlast : frames.dropLast.map (·.size) = List.replicate 20 n := by
    rw [List.map_dropLast, hsizes]
    rfl
  rw [lengthTable_eq, hlast] at h
  cases hentry : encodeFrameLength n with
  | none =>
    rw [List.replicate_succ, List.mapM_cons, hentry] at h
    cases h
  | some entry =>
    have hmap : (List.replicate 20 n).mapM encodeFrameLength = some (List.replicate 20 entry) := by
      simp [List.replicate, List.mapM_cons, hentry]
    rw [hmap, Option.map_some] at h
    exact ⟨entry, rfl, (Option.some.inj h).symm⟩

theorem counted_cbr_padded {m : ℕ} {rest : List UInt8} {sizes : List ℕ} {padding : ℕ}
    (h : counted false true m rest = some (sizes, padding)) :
    (∃ n, sizes = List.replicate m n)
      ∧ ∃ tail, paddingLength rest = some (padding, tail) ∧ sizes.sum + padding = tail.length := by
  simp only [counted, if_true] at h
  split at h
  · cases h
  split at h
  · cases h
  rename_i padding' tail hpadding
  split at h
  · cases h
  rename_i hfits
  obtain ⟨sizes', hdivision, heq⟩ := Option.map_eq_some_iff.1 h
  simp only [Prod.mk.injEq] at heq
  obtain ⟨rfl, rfl⟩ := heq
  have hsum := (division_spec hdivision).2.2.1 rfl
  rw [division, if_neg Bool.false_ne_true] at hdivision
  split at hdivision
  · refine ⟨⟨_, (Option.some.inj hdivision).symm⟩, tail, hpadding, ?_⟩
    rw [hsum, List.length_take]
    omega
  · cases hdivision

theorem paddingLength_cons {b : UInt8} {rest tail : List UInt8} {n : ℕ}
    (h : paddingLength (b :: rest) = some (n, tail)) :
    (b ≠ 255 → n = b.toNat ∧ tail = rest) ∧ (b = 255 → 254 ≤ n) := by
  rw [paddingLength] at h
  split at h
  · rename_i hb
    obtain ⟨r, -, heq⟩ := Option.map_eq_some_iff.1 h
    obtain ⟨rfl, -⟩ := Prod.mk.inj heq
    exact ⟨fun hne => absurd hb hne, fun _ => Nat.le_add_right _ _⟩
  · rename_i hb
    obtain ⟨rfl, rfl⟩ := Prod.mk.inj (Option.some.inj h)
    exact ⟨fun _ => ⟨rfl, rfl⟩, fun heq => absurd heq hb⟩

theorem length_flatten_replicate (k : ℕ) (entry : List UInt8) :
    (List.replicate k entry).flatten.length = k * entry.length := by
  rw [List.length_flatten, List.map_replicate, List.sum_replicate, smul_eq_mul]

/-- A table of equal lengths is read as a padding length and frames only if the lengths are 19. -/
theorem size_of_counted {entry data : List UInt8} {n padding : ℕ}
    (hentry : encodeFrameLength n = some entry) (hdata : data.length = 21 * n)
    (h : counted false true 21 ((List.replicate 20 entry).flatten ++ data)
      = some (List.replicate 21 n, padding)) :
    n = 19 ∧ padding = 19 ∧ entry = [19] := by
  obtain ⟨-, tail, hpadding, hsum⟩ := counted_cbr_padded h
  rw [List.sum_replicate, smul_eq_mul] at hsum
  have hshort := (paddingLength_suffix hpadding).1
  have hlen : ((List.replicate 20 entry).flatten ++ data).length = 20 * entry.length + 21 * n := by
    rw [List.length_append, length_flatten_replicate, hdata]
  rw [hlen, length_encodeFrameLength hentry] at hshort
  simp only [encodeFrameLength] at hentry
  split_ifs at hentry with h1 h2
  · obtain rfl := Option.some.inj hentry
    have hn : (UInt8.ofNat n).toNat = n := UInt8.toNat_ofNat_of_lt' (by simp [UInt8.size]; omega)
    have hne : UInt8.ofNat n ≠ 255 := by
      rw [ne_eq, ← UInt8.toNat_inj, hn]
      show ¬ n = 255
      omega
    rw [List.replicate_succ, List.flatten_cons, List.append_assoc, List.singleton_append]
      at hpadding
    obtain ⟨rfl, rfl⟩ := (paddingLength_cons hpadding).1 hne
    have h19 : n = 19 := by
      rw [List.length_append, length_flatten_replicate, hdata, hn, List.length_singleton] at hsum
      omega
    exact ⟨h19, by rw [hn, h19], by rw [h19]; rfl⟩
  · obtain rfl := Option.some.inj hentry
    have hb0 : (UInt8.ofNat (252 + (n - 252) % 4)).toNat = 252 + (n - 252) % 4 :=
      UInt8.toNat_ofNat_of_lt' (by simp [UInt8.size]; omega)
    rw [List.replicate_succ, List.flatten_cons] at hpadding
    obtain ⟨hsmall, hlarge⟩ := paddingLength_cons hpadding
    rw [if_neg h2] at hshort
    by_cases hb : UInt8.ofNat (252 + (n - 252) % 4) = 255
    · have := hlarge hb
      omega
    · have := (hsmall hb).1
      omega

/-- Frames that are read one place before where they are, after a piece of their size. -/
theorem frames_of_shifted {bytes piece : List UInt8} {frames : List (List UInt8)} {start m n : ℕ}
    (hne : frames ≠ []) (hdrop : bytes.drop start = piece ++ frames.flatten)
    (hpiece : piece.length = n) (hsizes : frames.map List.length = List.replicate (m + 1) n)
    (hcut : (spansFrom start (List.replicate (m + 1) n)).map
      (fun span => (bytes.drop span.1).take span.2) = frames) :
    frames = List.replicate (m + 1) piece := by
  have hlast : piece ++ frames.flatten
      = (piece :: frames.dropLast).flatten ++ frames.getLast hne := by
    conv_lhs => rw [← List.dropLast_append_getLast hne]
    rw [List.flatten_append, List.flatten_singleton, List.flatten_cons, List.append_assoc]
  have hlengths : (piece :: frames.dropLast).map List.length = List.replicate (m + 1) n := by
    rw [List.map_cons, List.map_dropLast, hsizes, hpiece, List.dropLast_replicate]
    rfl
  have hpieces := cut_spansFrom (hdrop.trans hlast)
  rw [hlengths, hcut] at hpieces
  have hcount : frames.length = m + 1 := by
    rw [← List.length_map List.length, hsizes, List.length_replicate]
  rw [← hcount]
  exact eq_replicate_of_shift hpieces.symm

theorem readsBack_only {frames : List CodecFrame} {cbr : Bool} {output : List UInt8}
    (h : Packable frames cbr output) (hreads : ReadsBack frames cbr output) :
    cbr = false ∧ frames.map (·.data) = List.replicate 21 (List.replicate 19 0x13) := by
  obtain ⟨hwritten, packet, hparse, hframes, -⟩ := hreads
  obtain ⟨config, s, body, hcount, htoc, hbody, hbytes⟩ := packetise_counted h.three hwritten
  rw [hbytes] at hparse hframes
  have hne : frames ≠ [] := fun heq => by
    have := h.three
    rw [heq] at this
    cases this
  have hcode : (makeTocByte config s kCode3NFrames).toNat % 4 = 3 := by
    rw [← toc_code,
      (tocFields_reads htoc h.stereo (by decide : kCode3NFrames ∈ _) (List.head_mem hne)).1.code]
    rfl
  obtain ⟨tail, rfl⟩ : ∃ tail, body = frameCountByte cbr frames.length :: tail := by
    rcases countedBody_cases hbody with ⟨-, -, rfl⟩ | ⟨-, table, -, rfl⟩ <;> exact ⟨_, rfl⟩
  obtain ⟨sizes, padding, hspans, -, hcounted⟩ := parse_counted hcode hparse
  obtain ⟨hm, hlength, hsum, -⟩ := counted_spec hcounted
  -- The bytes of the frames have the sizes that were read.
  rw [Packet.frames, hspans] at hframes
  have hsizes : frames.map (·.size) = sizes := by
    rw [← @length_cut_spansFrom (makeTocByte config s kCode3NFrames
      :: frameCountByte cbr frames.length :: tail) sizes (2 + tail.length - padding - sizes.sum)
      (by simp only [List.length_cons]; omega), hframes, List.map_map]
    rfl
  have hsame : sizes.length = frames.length := by rw [← hsizes, List.length_map]
  obtain ⟨rfl, h21⟩ := frameCountByte_eq hcount (by have := h.three; omega) (hlength.symm.trans hsame)
  refine ⟨rfl, ?_⟩
  obtain ⟨table, htable, htail⟩ : ∃ table, lengthTable frames = some table
      ∧ tail = table ++ frames.flatMap (·.data) := by
    rcases countedBody_cases hbody with ⟨hcbr, -⟩ | ⟨-, table, htable, heq⟩
    · cases hcbr
    · exact ⟨table, htable, (List.cons.inj heq).2⟩
  rw [h21] at hcounted
  have hread : counted false true 21 tail = some (sizes, padding) := hcounted
  obtain ⟨⟨n, rfl⟩, -⟩ := counted_cbr_padded hread
  obtain ⟨entry, hentry, rfl⟩ := lengthTable_replicate htable hsizes
  have hdata : (frames.flatMap (·.data)).length = 21 * n := by
    rw [length_flatMap_data, hsizes, List.sum_replicate, smul_eq_mul]
  rw [htail] at hread
  obtain ⟨rfl, rfl, rfl⟩ := size_of_counted hentry hdata hread
  have hstart : 2 + tail.length - 19 - (List.replicate 21 19).sum = 3 := by
    rw [htail, List.length_append, length_flatten_replicate, hdata]
    rfl
  rw [hstart] at hframes
  refine frames_of_shifted (by simpa using hne) ?_ rfl ?_ hframes
  · rw [htail]
    exact congrArg (_ ++ ·) List.flatMap_def
  · rw [List.map_map]
    exact hsizes

/-- The payload of 21 frames of nineteen bytes with the value 19. -/
def shiftedPayload (toc : UInt8) : List UInt8 :=
  toc :: 0x55 :: (List.replicate 20 0x13 ++ List.replicate 399 0x13)

theorem length_shiftedPayload (toc : UInt8) : (shiftedPayload toc).length = 421 := by
  rw [shiftedPayload, List.length_cons, List.length_cons, List.length_append, List.length_replicate,
    List.length_replicate]

/-- Its table and its frames are the same bytes, so that it does not matter where they begin. -/
theorem parse_shiftedPayload {config s : UInt8} (hconfig : config = 28 ∨ config = 29)
    (hs : s = 0 ∨ s = 1) :
    (parse (shiftedPayload (makeTocByte config s kCode3NFrames))).map (fun packet =>
        (packet.config, packet.stereo,
          packet.frames (shiftedPayload (makeTocByte config s kCode3NFrames))))
      = some (config.toNat, decide (s = 1), List.replicate 21 (List.replicate 19 0x13)) := by
  rcases hconfig with rfl | rfl <;> rcases hs with rfl | rfl <;> decide +kernel

theorem tenths_of_config {frame : CodecFrame} {config : UInt8}
    (h : tocConfigForFrameSizeMs frame.frameSizeMs = some config) :
    frame.tenths = Rfc6716.duration config.toNat
      ∧ (Rfc6716.duration config.toNat * 21 ≤ 1200 →
        (config = 28 ∨ config = 29) ∧ frame.frameSizeMs.toNat * 21 ≤ 120) := by
  obtain ⟨hmem, hms⟩ := tocConfig_cases h
  rw [CodecFrame.tenths, ← hms]
  have hall : ∀ config ∈ [(28 : UInt8), 29, 30, 31, 10, 11],
      (if frameSizeMsForConfig config = 3 then 25 else (frameSizeMsForConfig config).toNat * 10)
          = Rfc6716.duration config.toNat
        ∧ (Rfc6716.duration config.toNat * 21 ≤ 1200 →
          (config = 28 ∨ config = 29) ∧ (frameSizeMsForConfig config).toNat * 21 ≤ 120) := by
    decide +kernel
  exact hall config hmem

theorem payloadOf_shifted {frames : List CodecFrame} {config s : UInt8}
    (htoc : tocFields frames = some (config, s))
    (hdata : frames.map (·.data) = List.replicate 21 (List.replicate 19 0x13))
    (hms : (frames.map (·.frameSizeMs.toNat)).sum ≤ 120) :
    payloadOf frames false = some (shiftedPayload (makeTocByte config s kCode3NFrames)) := by
  have hcount : frames.length = 21 := by
    rw [← List.length_map (·.data), hdata, List.length_replicate]
  have hsizes : frames.map (·.size) = List.replicate 21 19 := by
    rw [show frames.map (·.size) = (frames.map (·.data)).map List.length by
      rw [List.map_map]; rfl, hdata]
    rfl
  have hsmall : ¬ ∃ frame ∈ frames, kMaxOpusFrameBytes < frame.size := by
    rintro ⟨frame, hframe, hlong⟩
    have hmem : frame.size ∈ List.replicate 21 19 := hsizes ▸ List.mem_map_of_mem hframe
    rw [List.eq_of_mem_replicate hmem] at hlong
    exact absurd hlong (by decide)
  have htable : lengthTable frames = some (List.replicate 20 0x13) := by
    rw [lengthTable_eq, List.map_dropLast, hsizes]
    rfl
  have hbytes : frames.flatMap (·.data) = List.replicate 399 0x13 := by
    rw [List.flatMap_def, hdata, List.flatten_replicate_replicate]
  have hbody : countedBody frames false
      = some (0x55 :: (List.replicate 20 0x13 ++ List.replicate 399 0x13)) := by
    rw [countedBody, if_neg (Nat.not_lt.2 hms), if_neg Bool.false_ne_true, htable, hbytes, hcount]
    rfl
  have hfew : ¬ kMaxFramesPerPacket < frames.length := by
    rw [hcount]
    decide
  rw [payloadOf, if_neg hfew, if_neg hsmall, htoc]
  rcases frames with _ | ⟨first, _ | ⟨second, _ | ⟨third, rest⟩⟩⟩
  · cases hcount
  · cases hcount
  · cases hcount
  · simp only [hbody]
    rfl

theorem readsBack_shifted {frames : List CodecFrame} {output : List UInt8}
    (h : Packable frames false output)
    (hdata : frames.map (·.data) = List.replicate 21 (List.replicate 19 0x13)) :
    ReadsBack frames false output := by
  obtain ⟨⟨config, s⟩, htoc⟩ := Option.isSome_iff_exists.1 h.alike
  have hcount : frames.length = 21 := by
    rw [← List.length_map (·.data), hdata, List.length_replicate]
  have hmem : ∀ frame ∈ frames, frame.tenths = Rfc6716.duration config.toNat
      ∧ s = frame.isStereo := by
    intro frame hframe
    obtain ⟨hconfig, hs⟩ := tocFields_mem htoc hframe
    exact ⟨(tenths_of_config hconfig).1, hs.symm.trans (stereo_field (h.stereo frame hframe))⟩
  have hne : frames ≠ [] := fun heq => by
    rw [heq] at hcount
    cases hcount
  obtain ⟨first, hfirst⟩ := List.exists_mem_of_ne_nil frames hne
  have hconfig := (tocFields_mem htoc hfirst).1
  -- Only the two shortest durations leave room for 21 frames.
  have hshort : Rfc6716.duration config.toNat * 21 ≤ 1200 := by
    have hall : frames.map (·.tenths) = List.replicate 21 (Rfc6716.duration config.toNat) :=
      List.eq_replicate_iff.2 ⟨by rw [List.length_map, hcount],
        List.forall_mem_map.2 fun frame hframe => (hmem frame hframe).1⟩
    have hsum := h.duration
    rw [hall, List.sum_replicate, smul_eq_mul, Nat.mul_comm] at hsum
    exact hsum
  have hconfig2 := ((tenths_of_config hconfig).2 hshort).1
  have hms : (frames.map (·.frameSizeMs.toNat)).sum ≤ 120 := by
    have hall : frames.map (·.frameSizeMs.toNat) = List.replicate 21 first.frameSizeMs.toNat := by
      refine List.eq_replicate_iff.2 ⟨by rw [List.length_map, hcount], List.forall_mem_map.2 ?_⟩
      intro frame hframe
      rw [← (tocConfig_cases (tocFields_mem htoc hframe).1).2, ← (tocConfig_cases hconfig).2]
    rw [hall, List.sum_replicate, smul_eq_mul, Nat.mul_comm]
    exact ((tenths_of_config hconfig).2 hshort).2
  have hstereo : s = 0 ∨ s = 1 := (hmem first hfirst).2 ▸ h.stereo first hfirst
  have hpayload := payloadOf_shifted htoc hdata hms
  have hroom : ¬ output.length
      < (shiftedPayload (makeTocByte config s kCode3NFrames)).length := by
    have hroom := h.room
    rw [hcount, List.flatMap_def, hdata, List.flatten_replicate_replicate,
      List.length_replicate] at hroom
    rw [length_shiftedPayload]
    omega
  have hrun : packetise frames false output
      = ((shiftedPayload (makeTocByte config s kCode3NFrames)).length,
        shiftedPayload (makeTocByte config s kCode3NFrames)
          ++ output.drop (shiftedPayload (makeTocByte config s kCode3NFrames)).length) := by
    simp only [packetise, hpayload, if_neg hroom]
  obtain ⟨packet, hparse, heq⟩ :=
    Option.map_eq_some_iff.1 (parse_shiftedPayload hconfig2 hstereo)
  obtain ⟨hpc, hps, hpf⟩ : packet.config = config.toNat ∧ packet.stereo = decide (s = 1)
      ∧ packet.frames (shiftedPayload (makeTocByte config s kCode3NFrames))
        = List.replicate 21 (List.replicate 19 0x13) := by
    simpa only [Prod.mk.injEq] using heq
  rw [ReadsBack, hrun, List.take_left]
  have hsome : 0 < (shiftedPayload (makeTocByte config s kCode3NFrames)).length := by
    rw [length_shiftedPayload]
    decide
  refine ⟨hsome, packet, hparse, hpf.trans hdata.symm, fun frame hframe => ?_⟩
  rw [hpc, hps, (hmem frame hframe).1, decide_eq_true_eq, (hmem frame hframe).2]
  exact ⟨rfl, Iff.rfl⟩

/-- The framing is that of the RFC exactly for these payloads and, with three frames or more, for
the frames that look the same wherever they begin. -/
theorem framing_conforms_iff (payload : List UInt8) (cap : ℕ) (frames : List CodecFrame) (cbr : Bool)
    (output : List UInt8) :
    (63 ≤ cap → ((depacketise payload cap).Agrees (parse payload) ↔ Legible payload))
      ∧ (Packable frames cbr output → (ReadsBack frames cbr output ↔
          cbr = false ∧ frames.map (·.data) = List.replicate 21 (List.replicate 19 0x13))) := by
  refine ⟨agrees_iff, fun h => ?_⟩
  constructor
  · exact readsBack_only h
  · rintro ⟨rfl, hdata⟩
    exact readsBack_shifted h hdata

/-- A single frame of two bytes, and three frames of one byte each in a buffer of twelve. -/
theorem framing_conforms_single :
    (depacketise [0xF8, 1, 2] 63).Agrees (parse [0xF8, 1, 2])
      ∧ ¬ ReadsBack [⟨[1], 20, 0⟩, ⟨[2], 20, 0⟩, ⟨[3], 20, 0⟩] false (List.replicate 12 0) := by
  obtain ⟨hread, hwrite⟩ := framing_conforms_iff [0xF8, 1, 2] 63
    [⟨[1], 20, 0⟩, ⟨[2], 20, 0⟩, ⟨[3], 20, 0⟩] false (List.replicate 12 0)
  refine ⟨(hread (le_refl _)).2 ⟨by decide, by decide, by decide⟩, ?_⟩
  intro h
  have hpack : Packable [⟨[1], 20, 0⟩, ⟨[2], 20, 0⟩, ⟨[3], 20, 0⟩] false (List.replicate 12 0) :=
    ⟨by decide, by decide, by decide, by decide, by decide, nofun, by decide⟩
  have hlen := congrArg List.length ((hwrite hpack).1 h).2
  cases hlen

/-- Two frames in the order of the bits of the RFC are rejected, and three frames are written with a
count byte that says thirteen. -/
theorem countByte_reversed :
    (depacketise [0xFB, 0x02, 7, 8] 63 = .rejected
        ∧ parse [0xFB, 0x02, 7, 8] = some ⟨31, false, [(2, 1), (3, 1)]⟩
        ∧ ¬ (depacketise [0xFB, 0x02, 7, 8] 63).Agrees (parse [0xFB, 0x02, 7, 8]))
      ∧ packetise [⟨[1], 20, 0⟩, ⟨[2], 20, 0⟩, ⟨[3], 20, 0⟩] false [0, 0, 0, 0, 0, 0, 0]
        = (7, [0xFB, 0x0D, 1, 1, 1, 2, 3])
      ∧ parse [0xFB, 0x0D, 1, 1, 1, 2, 3] = none := by
  have hout : depacketise [0xFB, 0x02, 7, 8] 63 = .rejected := by decide
  have hparse : parse [0xFB, 0x02, 7, 8] = some ⟨31, false, [(2, 1), (3, 1)]⟩ := by decide
  refine ⟨⟨hout, hparse, fun h => ?_⟩, by decide, by decide⟩
  rw [hout, hparse] at h
  exact h

end NimRtc.Opus
