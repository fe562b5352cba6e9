import NimRtc.OpusPayload

/-!
# Opus frames come back

All four codes give their frames as consecutive views, so it is enough to find where the first frame
begins and what the sizes are. For each code these are what `packetise` wrote.
-/

namespace NimRtc.Opus

/-! ### The TOC byte -/

theorem tocConfig_cases {ms : UInt16} {config : UInt8}
    (h : tocConfigForFrameSizeMs ms = some config) :
    config ∈ [(28 : UInt8), 29, 30, 31, 10, 11] ∧ frameSizeMsForConfig config = ms := by
  simp only [tocConfigForFrameSizeMs] at h
  split_ifs at h with h3 h5 h10 h20 h40 h60
  all_goals
    obtain rfl := Option.some.inj h
    subst ms
    decide

/-- What a reader finds in the TOC byte. -/
structure TocReads (toc : UInt8) (config s code : UInt8) : Prop where
  config : toc >>> 3 &&& 0x1F = config
  s : toc >>> 2 &&& 0x01 = s
  code : toc &&& 0x03 = code

theorem toc_reads {ms : UInt16} {config s code : UInt8}
    (hconfig : tocConfigForFrameSizeMs ms = some config) (hs : s = 0 ∨ s = 1)
    (hcode : code ∈ [(0 : UInt8), 1, 2, 3]) :
    TocReads (makeTocByte config s code) config s code ∧ frameSizeMsForConfig config = ms := by
  have hall : ∀ config ∈ [(28 : UInt8), 29, 30, 31, 10, 11], ∀ s ∈ [(0 : UInt8), 1],
      ∀ code ∈ [(0 : UInt8), 1, 2, 3], makeTocByte config s code >>> 3 &&& 0x1F = config
        ∧ makeTocByte config s code >>> 2 &&& 0x01 = s
        ∧ makeTocByte config s code &&& 0x03 = code := by decide +kernel
  obtain ⟨hmem, hms⟩ := tocConfig_cases hconfig
  obtain ⟨h1, h2, h3⟩ := hall config hmem s (by simpa using hs) code hcode
  exact ⟨⟨h1, h2, h3⟩, hms⟩

/-- The frames of a packet agree on what the TOC byte says. -/
theorem tocFields_mem {frames : List CodecFrame} {config s : UInt8}
    (h : tocFields frames = some (config, s)) {frame : CodecFrame} (hframe : frame ∈ frames) :
    tocConfigForFrameSizeMs frame.frameSizeMs = some config ∧ frame.isStereo &&& 0x03 = s := by
  rcases frames with _ | ⟨first, rest⟩
  · cases hframe
  · simp only [tocFields] at h
    split at h
    · cases h
    · rename_i config' hconfig
      split at h
      · rename_i hall
        obtain ⟨rfl, rfl⟩ := Prod.mk.inj (Option.some.inj h)
        rcases List.mem_cons.1 hframe with rfl | hframe
        · exact ⟨hconfig, rfl⟩
        · exact hall frame hframe
      · cases h

theorem stereo_field {s : UInt8} (h : s = 0 ∨ s = 1) : s &&& 0x03 = s := by
  rcases h with rfl | rfl <;> rfl

theorem tocFields_reads {frames : List CodecFrame} {config s code : UInt8}
    (h : tocFields frames = some (config, s))
    (hstereo : ∀ frame ∈ frames, frame.isStereo = 0 ∨ frame.isStereo = 1)
    (hcode : code ∈ [(0 : UInt8), 1, 2, 3]) {frame : CodecFrame} (hframe : frame ∈ frames) :
    TocReads (makeTocByte config s code) config s code
      ∧ s = frame.isStereo ∧ frameSizeMsForConfig config = frame.frameSizeMs := by
  obtain ⟨hconfig, hs⟩ := tocFields_mem h hframe
  rw [stereo_field (hstereo frame hframe)] at hs
  subst hs
  obtain ⟨hreads, hms⟩ := toc_reads hconfig (hstereo frame hframe) hcode
  exact ⟨hreads, rfl, hms⟩

/-! ### Frame lengths -/

theorem length_encodeFrameLength {n : ℕ} {l : List UInt8} (h : encodeFrameLength n = some l) :
    l.length = if n ≤ 251 then 1 else 2 := by
  simp only [encodeFrameLength] at h
  split_ifs at h with h1 h2
  · rw [if_pos h2, ← Option.some.inj h]
    rfl
  · rw [if_neg h2, ← Option.some.inj h]
    rfl

theorem decodeFrameLength_encode {n pos : ℕ} {l bytes rest : List UInt8}
    (h : encodeFrameLength n = some l) (hdrop : bytes.drop pos = l ++ rest) :
    decodeFrameLength bytes pos = some (n, pos + l.length) := by
  simp only [encodeFrameLength] at h
  split_ifs at h with h1 h2
  · obtain rfl := Option.some.inj h
    have hn : (UInt8.ofNat n).toNat = n := UInt8.toNat_ofNat_of_lt' (by simp [UInt8.size]; omega)
    have hle : UInt8.ofNat n ≤ 251 := by
      rw [UInt8.le_iff_toNat_le, hn]
      exact h2
    simp only [decodeFrameLength, hdrop, List.cons_append, List.nil_append, if_pos hle, hn,
      List.length_singleton]
  · obtain rfl := Option.some.inj h
    have hb0 : (UInt8.ofNat (252 + (n - 252) % 4)).toNat = 252 + (n - 252) % 4 :=
      UInt8.toNat_ofNat_of_lt' (by simp [UInt8.size]; omega)
    have hb1 : (UInt8.ofNat ((n - 252) / 4)).toNat = (n - 252) / 4 :=
      UInt8.toNat_ofNat_of_lt' (by simp [UInt8.size]; omega)
    have hgt : ¬ UInt8.ofNat (252 + (n - 252) % 4) ≤ 251 := by
      rw [UInt8.le_iff_toNat_le, hb0]
      show ¬ 252 + (n - 252) % 4 ≤ 251
      omega
    have htotal : 252 + (n - 252) % 4 + (n - 252) / 4 * 4 = n := by omega
    simp only [decodeFrameLength, hdrop, List.cons_append, List.nil_append, if_neg hgt, hb0, hb1,
      htotal, if_neg h1, List.length_cons, List.length_nil]

theorem decodeLengths_encode {bytes rest : List UInt8} : ∀ {sizes : List ℕ}
    {entries : List (List UInt8)} {pos : ℕ}, sizes.mapM encodeFrameLength = some entries →
    bytes.drop pos = entries.flatten ++ rest →
    decodeLengths bytes sizes.length pos = some (sizes, pos + entries.flatten.length)
  | [], entries, pos, h, _ => by
    obtain rfl : [] = entries := by simpa using h
    rfl
  | n :: sizes, entries, pos, h, hdrop => by
    rw [List.mapM_cons] at h
    obtain ⟨l, hl, h⟩ := Option.bind_eq_some_iff.1 h
    obtain ⟨tail, htail, h⟩ := Option.bind_eq_some_iff.1 h
    obtain rfl := Option.some.inj h
    rw [List.flatten_cons, List.append_assoc] at hdrop
    have hnext : bytes.drop (pos + l.length) = tail.flatten ++ rest := by
      rw [← List.drop_drop, hdrop, List.drop_left]
    have ih := decodeLengths_encode htail hnext
    simp only [List.length_cons, decodeLengths, decodeFrameLength_encode hl hdrop, ih,
      Option.map_some, List.flatten_cons, List.length_append, Nat.add_assoc]

/-! ### Views -/

theorem shows_viewsFrom {payload rest : List UInt8} {config s code : UInt8} {ms : UInt16} :
    ∀ {frames : List CodecFrame} {cursor : ℕ},
    payload.drop cursor = frames.flatMap (·.data) ++ rest →
    (∀ frame ∈ frames, s = frame.isStereo ∧ ms = frame.frameSizeMs) →
    List.Forall₂ (PacketView.Shows payload) frames
      (viewsFrom (fun offset size => PacketView.mk offset size config s code ms) cursor
        (frames.map (·.size)))
  | [], _, _, _ => .nil
  | frame :: frames, cursor, hdrop, hfields => by
    rw [List.flatMap_cons, List.append_assoc] at hdrop
    have hnext : payload.drop (cursor + frame.size) = frames.flatMap (·.data) ++ rest := by
      rw [← List.drop_drop, hdrop, CodecFrame.size, List.drop_left]
    have hbytes : (payload.drop cursor).take frame.size = frame.data := by
      rw [hdrop, CodecFrame.size, List.take_left]
    obtain ⟨hs, hms⟩ := hfields frame List.mem_cons_self
    exact .cons ⟨hbytes, rfl, hs, hms⟩
      (shows_viewsFrom hnext fun f hf => hfields f (List.mem_cons_of_mem _ hf))

/-! ### The frame count byte -/

theorem frameCountByte_reads {m : ℕ} (hm : m ≤ kMaxFramesPerPacket) (cbr : Bool) :
    (frameCountByte cbr m &&& 0x01 ≠ 0 ↔ cbr = false) ∧ frameCountByte cbr m >>> 1 &&& 0x01 = 0
      ∧ (frameCountByte cbr m >>> 2 &&& 0x3F).toNat = m := by
  have hall : ∀ m ≤ 48, ∀ cbr, (frameCountByte cbr m &&& 0x01 ≠ 0 ↔ cbr = false)
      ∧ frameCountByte cbr m >>> 1 &&& 0x01 = 0
      ∧ (frameCountByte cbr m >>> 2 &&& 0x3F).toNat = m := by decide
  exact hall m hm cbr

theorem depacketiseCounted_frameCountByte {payload : List UInt8} {cap m : ℕ}
    (view : ℕ → ℕ → PacketView) (cbr : Bool) (hm : m ≤ kMaxFramesPerPacket) (hpos : m ≠ 0)
    (hcap : m ≤ cap) (hlen : 2 ≤ payload.length) :
    depacketiseCounted payload cap view (frameCountByte cbr m)
      = if cbr then depacketiseCbr view m 2 payload.length
        else depacketiseVbr payload view m 2 payload.length := by
  obtain ⟨hv, hp, hcount⟩ := frameCountByte_reads hm cbr
  simp only [depacketiseCounted, hcount, hp, if_neg hpos, ne_eq, not_true_eq_false, decide_false,
    paddingHeader, Bool.not_false, if_true, Nat.add_zero, Nat.sub_zero, if_neg hlen.not_gt,
    if_neg hcap.not_gt]
  cases cbr with
  | true =>
    have hzero : ¬ (decide ¬ frameCountByte true m &&& 0x01 = 0) = true := by
      rw [decide_eq_true_eq]
      exact fun h => Bool.noConfusion (hv.1 h)
    rw [if_neg hzero, if_pos rfl]
  | false =>
    have hone : (decide ¬ frameCountByte false m &&& 0x01 = 0) = true := by
      rw [decide_eq_true_eq]
      exact hv.2 rfl
    rw [if_pos hone, if_neg Bool.false_ne_true]

theorem length_flatMap_data (frames : List CodecFrame) :
    (frames.flatMap (·.data)).length = (frames.map (·.size)).sum :=
  List.length_flatMap

theorem depacketiseCbr_frames {frames : List CodecFrame} {view : ℕ → ℕ → PacketView} {pos : ℕ}
    (hne : frames ≠ []) (hsame : ∀ frame ∈ frames, frame.size = (frames.headD {}).size) :
    depacketiseCbr view frames.length pos (pos + (frames.flatMap (·.data)).length)
      = .views (viewsFrom view pos (frames.map (·.size))) := by
  have hsizes : frames.map (·.size) = List.replicate frames.length (frames.headD {}).size :=
    List.eq_replicate_iff.2 ⟨List.length_map _, List.forall_mem_map.2 hsame⟩
  have hpos : 0 < frames.length := List.length_pos_iff.2 hne
  rw [length_flatMap_data, hsizes, List.sum_replicate, smul_eq_mul]
  simp only [depacketiseCbr, Nat.add_sub_cancel_left, Nat.mul_mod_right, ne_eq,
    not_true_eq_false, if_false, Nat.mul_div_cancel_left _ hpos]

theorem lengthTable_eq (frames : List CodecFrame) :
    lengthTable frames
      = ((frames.dropLast.map (·.size)).mapM encodeFrameLength).map List.flatten := by
  rw [lengthTable, List.mapM_map]
  rfl

theorem depacketiseVbr_frames {frames : List CodecFrame} {table : List UInt8}
    {payload : List UInt8} {view : ℕ → ℕ → PacketView} {pos : ℕ} (hne : frames ≠ [])
    (hcount : frames.length ≤ kMaxFramesPerPacket) (htable : lengthTable frames = some table)
    (hpos : pos ≤ payload.length) (hdrop : payload.drop pos = table ++ frames.flatMap (·.data)) :
    depacketiseVbr payload view frames.length pos payload.length
      = .views (viewsFrom view (pos + table.length) (frames.map (·.size))) := by
  rw [lengthTable_eq] at htable
  obtain ⟨entries, hentries, rfl⟩ := Option.map_eq_some_iff.1 htable
  have hdecode := decodeLengths_encode hentries hdrop
  rw [List.length_map, List.length_dropLast] at hdecode
  have hlast : frames.map (·.size)
      = frames.dropLast.map (·.size) ++ [(frames.getLast hne).size] := by
    rw [← List.map_singleton, ← List.map_append, List.dropLast_append_getLast]
  have hlen : payload.length - (pos + entries.flatten.length)
      = (frames.dropLast.map (·.size)).sum + (frames.getLast hne).size := by
    have h := congrArg List.length hdrop
    rw [List.length_drop, List.length_append, length_flatMap_data, hlast, List.sum_append,
      List.sum_singleton] at h
    omega
  have hfew : ¬ kMaxFramesPerPacket < frames.length - 1 := by omega
  simp only [depacketiseVbr, List.take_length, if_neg hfew, hdecode, hlen]
  rw [if_neg (by omega), Nat.add_sub_cancel_left, ← hlast]

/-! ### Whole payloads -/

/-- The frames are found as consecutive views from some position on. -/
theorem shown_of_views {frames : List CodecFrame} {payload : List UInt8} {cap : ℕ}
    {s : UInt8} {ms : UInt16} (config code : UInt8) (cursor : ℕ)
    (h : depacketise payload cap
      = .views (viewsFrom (fun offset size => PacketView.mk offset size config s code ms) cursor
          (frames.map (·.size))))
    (hdrop : payload.drop cursor = frames.flatMap (·.data))
    (hfields : ∀ frame ∈ frames, s = frame.isStereo ∧ ms = frame.frameSizeMs) :
    ∃ views, depacketise payload cap = .views views
      ∧ List.Forall₂ (PacketView.Shows payload) frames views :=
  ⟨_, h, shows_viewsFrom (hdrop.trans (List.append_nil _).symm) hfields⟩

/-- The four shapes of a payload. -/
theorem payloadOf_cases {frames : List CodecFrame} {cbr : Bool} {payload : List UInt8}
    (h : payloadOf frames cbr = some payload) :
    frames.length ≤ kMaxFramesPerPacket ∧ ∃ config s, tocFields frames = some (config, s)
      ∧ ((∃ frame, frames = [frame]
          ∧ payload = makeTocByte config s kCode0SingleFrame :: frame.data)
        ∨ (∃ first second, frames = [first, second] ∧ first.size = second.size
          ∧ payload = makeTocByte config s kCode1TwoEqualFrames :: (first.data ++ second.data))
        ∨ (∃ first second len, frames = [first, second] ∧ encodeFrameLength first.size = some len
          ∧ payload
            = makeTocByte config s kCode2TwoUnequalFrames :: (len ++ (first.data ++ second.data)))
        ∨ (frames ≠ [] ∧ ∃ body, countedBody frames cbr = some body
          ∧ payload = makeTocByte config s kCode3NFrames :: body)) := by
  simp only [payloadOf] at h
  split at h
  · cases h
  rename_i hcount
  split at h
  · cases h
  split at h
  · cases h
  rename_i config s htoc
  refine ⟨Nat.le_of_not_lt hcount, config, s, htoc, ?_⟩
  rcases frames with _ | ⟨first, _ | ⟨second, _ | ⟨third, rest⟩⟩⟩
  · cases h
  · exact .inl ⟨first, rfl, (Option.some.inj h).symm⟩
  · simp only at h
    split at h
    · rename_i hsize
      exact .inr (.inl ⟨first, second, rfl, hsize, (Option.some.inj h).symm⟩)
    · obtain ⟨len, hlen, rfl⟩ := Option.map_eq_some_iff.1 h
      exact .inr (.inr (.inl ⟨first, second, len, rfl, hlen, rfl⟩))
  · obtain ⟨body, hbody, rfl⟩ := Option.map_eq_some_iff.1 h
    exact .inr (.inr (.inr ⟨by simp, body, hbody, rfl⟩))

/-- The two shapes of what follows the TOC byte. -/
theorem countedBody_cases {frames : List CodecFrame} {cbr : Bool} {body : List UInt8}
    (h : countedBody frames cbr = some body) :
    (cbr = true ∧ (∀ frame ∈ frames, frame.size = (frames.headD {}).size)
        ∧ body = frameCountByte cbr frames.length :: frames.flatMap (·.data))
      ∨ (cbr = false ∧ ∃ table, lengthTable frames = some table
        ∧ body = frameCountByte cbr frames.length :: (table ++ frames.flatMap (·.data))) := by
  simp only [countedBody] at h
  split at h
  · cases h
  cases cbr with
  | true =>
    rw [if_pos rfl] at h
    split at h
    · rename_i hsame
      exact .inl ⟨rfl, hsame, (Option.some.inj h).symm⟩
    · cases h
  | false =>
    rw [if_neg Bool.false_ne_true] at h
    obtain ⟨table, htable, rfl⟩ := Option.map_eq_some_iff.1 h
    exact .inr ⟨rfl, table, htable, rfl⟩

theorem depacketise_counted {toc fc config s : UInt8} {rest : List UInt8} {cap : ℕ}
    (h : TocReads toc config s kCode3NFrames) (hcap : cap ≠ 0) :
    depacketise (toc :: fc :: rest) cap
      = depacketiseCounted (toc :: fc :: rest) cap (fun offset size =>
          PacketView.mk offset size config s kCode3NFrames (frameSizeMsForConfig config)) fc := by
  obtain ⟨hconfig, hs, hcode⟩ := h
  simp only [depacketise, if_neg hcap, hconfig, hs, hcode]
  rfl

theorem depacketise_payloadOf {frames : List CodecFrame} {cbr : Bool} {payload : List UInt8}
    {cap : ℕ} (h : payloadOf frames cbr = some payload)
    (hstereo : ∀ frame ∈ frames, frame.isStereo = 0 ∨ frame.isStereo = 1)
    (hcap : frames.length ≤ cap) :
    ∃ views, depacketise payload cap = .views views
      ∧ List.Forall₂ (PacketView.Shows payload) frames views := by
  obtain ⟨hcount, config, s, htoc, hshape⟩ := payloadOf_cases h
  have hfields : ∀ frame ∈ frames, s = frame.isStereo
      ∧ frameSizeMsForConfig config = frame.frameSizeMs := fun frame hframe =>
    (tocFields_reads htoc hstereo List.mem_cons_self hframe).2
  have hreads : ∀ code ∈ [(0 : UInt8), 1, 2, 3], ∀ frame ∈ frames,
      TocReads (makeTocByte config s code) config s code := fun code hcode frame hframe =>
    (tocFields_reads htoc hstereo hcode hframe).1
  rcases hshape with ⟨frame, rfl, rfl⟩ | ⟨first, second, rfl, hsize, rfl⟩
    | ⟨first, second, len, rfl, hlen, rfl⟩ | ⟨hne, body, hbody, rfl⟩
  · obtain ⟨hc, hs, hcode⟩ := hreads kCode0SingleFrame (by decide) frame (by simp)
    have hcap : cap ≠ 0 := Nat.ne_of_gt hcap
    refine shown_of_views config kCode0SingleFrame 1 ?_ (by simp) hfields
    simp only [depacketise, if_neg hcap, hc, hs, hcode, if_true]
    rfl
  · obtain ⟨hc, hs, hcode⟩ := hreads kCode1TwoEqualFrames (by decide) first (by simp)
    have hcap2 : ¬ cap < 2 := Nat.not_lt.2 hcap
    have hhalf : (first.data ++ second.data).length = first.size * 2 := by
      rw [List.length_append, ← CodecFrame.size, ← CodecFrame.size, ← hsize, Nat.mul_two]
    refine shown_of_views config kCode1TwoEqualFrames 1 ?_ (by simp) hfields
    simp only [depacketise, if_neg (by omega : ¬ cap = 0), hc, hs, hcode, hhalf, Nat.mul_mod_left,
      Nat.mul_div_cancel _ Nat.two_pos, if_neg hcap2, List.map_cons, ← hsize]
    rfl
  · obtain ⟨hc, hs, hcode⟩ := hreads kCode2TwoUnequalFrames (by decide) first (by simp)
    have hcap2 : ¬ cap < 2 := Nat.not_lt.2 hcap
    have hdrop : (makeTocByte config s kCode2TwoUnequalFrames
        :: (len ++ (first.data ++ second.data))).drop 1 = len ++ (first.data ++ second.data) := rfl
    have hlast : (makeTocByte config s kCode2TwoUnequalFrames
        :: (len ++ (first.data ++ second.data))).length - (1 + len.length + first.size)
          = second.size := by
      simp only [List.length_cons, List.length_append, CodecFrame.size]
      omega
    have hfits : ¬ (makeTocByte config s kCode2TwoUnequalFrames
        :: (len ++ (first.data ++ second.data))).length - (1 + len.length) < first.size := by
      simp only [List.length_cons, List.length_append, CodecFrame.size]
      omega
    refine shown_of_views config kCode2TwoUnequalFrames (1 + len.length) ?_ ?_ hfields
    · simp only [depacketise, if_neg (by omega : ¬ cap = 0), hc, hs, hcode, if_neg hcap2,
        decodeFrameLength_encode hlen hdrop, if_neg hfits, hlast]
      rfl
    · rw [← List.drop_drop, hdrop, List.drop_left]
      simp
  · have htocReads := hreads kCode3NFrames (by decide) _ (List.head_mem hne)
    have hpos := List.length_pos_iff.2 hne
    rcases countedBody_cases hbody with ⟨rfl, hsame, rfl⟩ | ⟨rfl, table, htable, rfl⟩
    · refine shown_of_views config kCode3NFrames 2 ?_ rfl hfields
      rw [depacketise_counted htocReads (by omega), depacketiseCounted_frameCountByte _ true hcount
        (by omega) hcap (by simp), if_pos rfl, List.length_cons, List.length_cons,
        Nat.add_assoc, Nat.add_comm _ (1 + 1)]
      exact depacketiseCbr_frames hne hsame
    · refine shown_of_views config kCode3NFrames (2 + table.length) ?_ ?_ hfields
      · rw [depacketise_counted htocReads (by omega), depacketiseCounted_frameCountByte _ false
          hcount (by omega) hcap (by simp), if_neg Bool.false_ne_true]
        exact depacketiseVbr_frames hne hcount htable (by simp) rfl
      · rw [← List.drop_drop]
        exact List.drop_left

theorem packetise_shown {frames : List CodecFrame} {cap : ℕ}
    (hstereo : ∀ frame ∈ frames, frame.isStereo = 0 ∨ frame.isStereo = 1)
    (hcap : frames.length ≤ cap) (cbr : Bool) (output : List UInt8) :
    (0 < (packetise frames cbr output).1 → ∃ views,
        depacketise ((packetise frames cbr output).2.take (packetise frames cbr output).1) cap
            = .views views
          ∧ List.Forall₂ (PacketView.Shows
              ((packetise frames cbr output).2.take (packetise frames cbr output).1)) frames views)
      ∧ ((packetise frames cbr output).1 = 0 → (packetise frames cbr output).2 = output) := by
  cases hpayload : payloadOf frames cbr with
  | none =>
    simp only [packetise, hpayload]
    exact ⟨fun h => absurd h (lt_irrefl 0), fun _ => trivial⟩
  | some payload =>
    simp only [packetise, hpayload]
    split
    · exact ⟨fun h => absurd h (lt_irrefl 0), fun _ => rfl⟩
    · refine ⟨fun _ => ?_, fun hzero => ?_⟩
      · rw [List.take_left]
        exact depacketise_payloadOf hpayload hstereo hcap
      · -- A payload has its TOC byte at least.
        obtain ⟨-, config, s, -, hshape⟩ := payloadOf_cases hpayload
        rcases hshape with ⟨_, _, rfl⟩ | ⟨_, _, _, _, rfl⟩ | ⟨_, _, _, _, _, rfl⟩ | ⟨_, _, _, rfl⟩ <;>
          cases hzero

/-- Three frames, one of them empty, in a buffer with a byte to spare. -/
theorem packetise_shown_three :
    packetise [⟨[7, 8], 20, 1⟩, ⟨[], 20, 1⟩, ⟨[9], 20, 1⟩] false [0, 0, 0, 0, 0, 0, 0, 0]
        = (7, [0xFF, 0x0D, 2, 0, 7, 8, 9, 0])
      ∧ ∃ views, depacketise [0xFF, 0x0D, 2, 0, 7, 8, 9] 3 = .views views
        ∧ List.Forall₂ (PacketView.Shows [0xFF, 0x0D, 2, 0, 7, 8, 9])
          [⟨[7, 8], 20, 1⟩, ⟨[], 20, 1⟩, ⟨[9], 20, 1⟩] views := by
  have hrun : packetise [⟨[7, 8], 20, 1⟩, ⟨[], 20, 1⟩, ⟨[9], 20, 1⟩] false [0, 0, 0, 0, 0, 0, 0, 0]
      = (7, [0xFF, 0x0D, 2, 0, 7, 8, 9, 0]) := by decide
  have hshown := (@packetise_shown [⟨[7, 8], 20, 1⟩, ⟨[], 20, 1⟩, ⟨[9], 20, 1⟩] 3 (by decide)
    (by decide) false [0, 0, 0, 0, 0, 0, 0, 0]).1
  rw [hrun] at hshown
  exact ⟨hrun, hshown (by decide)⟩

end NimRtc.Opus
