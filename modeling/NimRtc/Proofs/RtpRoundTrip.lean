import NimRtc.Proofs.WireReads

/-!
# What is built is parsed back

A built packet is its header, its CSRC list, its extension, its payload and its padding one after
the other, and each part is read back where the ones before it end.
-/

namespace NimRtc.Rtp

/-! ### Reading back -/

theorem length_csrcBytes (csrc : List UInt32) :
    (PacketBuilder.csrcBytes csrc).length = csrc.length * 4 :=
  length_flatMap_of_length (fun _ => length_beBytes _ _) csrc

theorem csrc_append (post : List UInt8) (csrc : List UInt32) (pre : List UInt8) :
    (List.range csrc.length).map
        (fun i => readBe32 (pre ++ (PacketBuilder.csrcBytes csrc ++ post)) (pre.length + i * 4))
      = csrc := by
  have hread := decode_flatMap (w := 4) (g := id) (P := fun _ : UInt32 => True)
    (fun c => length_beBytes 4 c.toNat) (fun pre c post _ => readBe32_append c post rfl) post csrc
    pre (fun _ _ => trivial)
  rwa [List.map_id] at hread

/-! ### The first two bytes -/

namespace PacketBuilder

variable (b : PacketBuilder)

theorem byte0_fields (h : b.csrc.length ≤ 15) :
    (b.byte0 >>> 6) &&& 0x03 = kVersion
      ∧ decide ((b.byte0 >>> 5) &&& 0x01 ≠ 0) = decide (0 < b.paddingBytes)
      ∧ decide ((b.byte0 >>> 4) &&& 0x01 ≠ 0) = b.hasExtension
      ∧ (b.byte0 &&& 0x0F).toNat = b.csrc.length := by
  have hbits : ∀ pad ext : Bool, ∀ n < 16,
      let byte := kVersion <<< 6 ||| (if pad then 0x20 else 0) ||| (if ext then 0x10 else 0)
        ||| (UInt8.ofNat n &&& 0x0F)
      (byte >>> 6) &&& 0x03 = kVersion ∧ decide ((byte >>> 5) &&& 0x01 ≠ 0) = pad
        ∧ decide ((byte >>> 4) &&& 0x01 ≠ 0) = ext ∧ (byte &&& 0x0F).toNat = n := by
    decide
  have hbyte : b.byte0 = kVersion <<< 6 ||| (if decide (0 < b.paddingBytes) then 0x20 else 0)
      ||| (if b.hasExtension then 0x10 else 0) ||| (UInt8.ofNat b.csrc.length &&& 0x0F) := by
    simp only [byte0, decide_eq_true_eq]
  rw [hbyte]
  exact hbits (decide (0 < b.paddingBytes)) b.hasExtension b.csrc.length (by omega)

theorem byte1_fields (h : b.payloadType < 128) :
    b.byte1 &&& 0x7F = b.payloadType ∧ decide ((b.byte1 >>> 7) &&& 0x01 ≠ 0) = b.marker := by
  have hbits : ∀ marker : Bool, ∀ pt : UInt8, pt < 128 →
      let byte := (if marker then 0x80 else 0x00) ||| (pt &&& 0x7F)
      byte &&& 0x7F = pt ∧ decide ((byte >>> 7) &&& 0x01 ≠ 0) = marker := by
    intro marker
    cases marker <;> exact forall_uint8 (by decide)
  exact hbits b.marker b.payloadType h

theorem length_headerBytes : b.headerBytes.length = kFixedHeaderSize := by
  simp [headerBytes, kFixedHeaderSize]

/-! ### The extension -/

/-- The extension as it is sent. -/
def sentExtension : Option Extension :=
  match b.absSendTime, b.extension with
  | some t, _ =>
    let ts24 := (t &&& 0x00FFFFFF).toNat
    if b.absSendTimeId ≤ kExtProfileOneByteMaxId then
      some
        { type := kExtProfileOneByte
          data := UInt8.ofNat (b.absSendTimeId.toUInt32 <<< 4 ||| 0x02).toNat :: beBytes 3 ts24 }
    else
      some
        { type := kExtProfileTwoByte
          data := (b.absSendTimeId.toUInt8 :: 3 :: beBytes 3 ts24) ++ [0, 0, 0] }
  | none, some ext =>
    some
      { type := ext.type
        data := ext.data
          ++ List.replicate ((ext.data.length + 3) / 4 * 4 - ext.data.length) 0 }
  | none, none => none

end PacketBuilder

def Extension.wire (ext : Extension) : List UInt8 :=
  beBytes 2 ext.type.toNat ++ (beBytes 2 (ext.data.length / 4) ++ ext.data)

/-- The block is a number of words that the length field can hold. -/
def Extension.Aligned (ext : Extension) : Prop :=
  ext.data.length % 4 = 0 ∧ ext.data.length / 4 < 2 ^ 16

namespace PacketBuilder

variable {b : PacketBuilder}

theorem sentExtension_aligned (hwords : ∀ ext ∈ b.extension, (ext.data.length + 3) / 4 ≤ 65535) :
    ∀ ext ∈ b.sentExtension, ext.Aligned := by
  intro ext hext
  rcases ht : b.absSendTime with _ | t
  · rcases he : b.extension with _ | e
    · simp [sentExtension, ht, he] at hext
    · simp only [sentExtension, ht, he, Option.mem_def, Option.some.injEq] at hext
      subst hext
      have hlen := hwords e he
      simp only [Extension.Aligned, List.length_append, List.length_replicate]
      omega
  · simp only [sentExtension, ht] at hext
    split at hext <;> simp only [Option.mem_def, Option.some.injEq] at hext <;> subst hext
    · simp [Extension.Aligned]
    · simp [Extension.Aligned]

theorem extensionBytes_eq (hwords : ∀ ext ∈ b.extension, (ext.data.length + 3) / 4 ≤ 65535) :
    b.extensionBytes = (b.sentExtension.map Extension.wire).getD [] := by
  rcases ht : b.absSendTime with _ | t
  · rcases he : b.extension with _ | e
    · simp [extensionBytes, sentExtension, ht, he]
    · have hlen := hwords e he
      have hmod : (e.data.length + 3) / 4 % 2 ^ 16 = (e.data.length + 3) / 4 :=
        Nat.mod_eq_of_lt (by omega)
      have hdiv : (e.data.length + ((e.data.length + 3) / 4 * 4 - e.data.length)) / 4
          = (e.data.length + 3) / 4 := by omega
      simp only [extensionBytes, sentExtension, ht, he, Option.map_some, Option.getD_some,
        Extension.wire, List.length_append, List.length_replicate, hmod, hdiv, List.append_assoc]
  · simp only [extensionBytes, sentExtension, ht]
    split <;> simp [Extension.wire]

theorem hasExtension_eq : b.hasExtension = b.sentExtension.isSome := by
  rcases ht : b.absSendTime with _ | t
  · rcases he : b.extension with _ | e <;> simp [hasExtension, sentExtension, ht, he]
  · simp only [hasExtension, sentExtension, ht]
    split <;> simp

theorem length_written : b.written.length = b.computeSize := by
  have hpad : b.paddingRegion.length = if 0 < b.paddingBytes then b.paddingBytes + 1 else 0 := by
    simp only [paddingRegion]
    split <;> simp
  have hparts : b.written.length = kFixedHeaderSize + b.csrc.length * 4 + b.extensionBytes.length
      + b.payload.length + if 0 < b.paddingBytes then b.paddingBytes + 1 else 0 := by
    simp only [written, List.length_append, length_headerBytes, length_csrcBytes, hpad]
  rw [hparts]
  rcases ht : b.absSendTime with _ | t
  · rcases he : b.extension with _ | e
    · simp [computeSize, extensionBytes, hasExtension, ht, he]
    · simp only [computeSize, extensionBytes, hasExtension, ht, he, List.length_append,
        length_beBytes, List.length_replicate, Option.isSome_some, Bool.true_or, if_true]
      omega
  · have he : b.extension = none := by
      rcases b.one_extension with he | ht'
      · exact he
      · rw [ht] at ht'
        simp at ht'
    simp only [computeSize, extensionBytes, hasExtension, ht, he]
    split <;> simp

theorem build_eq : b.build = some b.written := by
  have hlen : b.written.length = b.computeSize := length_written
  rw [build, if_pos (by omega), hlen, Nat.sub_self, List.replicate_zero, List.append_nil]

end PacketBuilder

theorem parseExtension_wire {ext : Extension} {pre : List UInt8} {n : ℕ} (post : List UInt8)
    (hext : ext.Aligned) (hn : pre.length = n) :
    parseExtension (pre ++ (ext.wire ++ post)) true n = .ok (some ext, ext.wire.length) := by
  obtain ⟨haligned, hwords⟩ := hext
  have hwire : ext.wire.length = 4 + ext.data.length := by
    simp only [Extension.wire, List.length_append, length_beBytes]
    omega
  have htype : readBe16 (pre ++ (ext.wire ++ post)) n = ext.type := by
    rw [Extension.wire, List.append_assoc, readBe16_append _ hn ext.type.toNat_lt,
      UInt16.ofNat_toNat]
  have hlength : (readBe16 (pre ++ (ext.wire ++ post)) (n + 2)).toNat = ext.data.length / 4 := by
    have hsplit : pre ++ (ext.wire ++ post)
        = (pre ++ beBytes 2 ext.type.toNat)
          ++ (beBytes 2 (ext.data.length / 4) ++ (ext.data ++ post)) := by
      simp only [Extension.wire, List.append_assoc]
    rw [hsplit, readBe16_append _ (by rw [List.length_append, length_beBytes, hn]) hwords,
      UInt16.toNat_ofNat_of_lt' hwords]
  have hdata : ((pre ++ (ext.wire ++ post)).drop (n + 4)).take ext.data.length = ext.data := by
    have hsplit : pre ++ (ext.wire ++ post)
        = (pre ++ (beBytes 2 ext.type.toNat ++ beBytes 2 (ext.data.length / 4)))
          ++ (ext.data ++ post) := by
      simp only [Extension.wire, List.append_assoc]
    rw [hsplit]
    refine take_drop_append post ?_ rfl
    simp only [List.length_append, length_beBytes, hn]
  have hraw : (pre ++ (ext.wire ++ post)).length = n + (4 + ext.data.length + post.length) := by
    rw [List.length_append, List.length_append, hwire, hn]
  have hbytes : ext.data.length / 4 * 4 = ext.data.length := by omega
  simp only [parseExtension, Bool.not_true, Bool.false_eq_true, if_false, hlength, htype, hbytes,
    hdata, hraw]
  rw [if_neg (by omega), if_neg (by omega), hwire]

theorem paddingTrailer_region {b : PacketBuilder} {pre : List UInt8} {n : ℕ}
    (hpad : b.paddingBytes ≤ 255) (hn : pre.length = n) :
    paddingTrailer (pre ++ (b.payload ++ b.paddingRegion)) (decide (0 < b.paddingBytes)) n
      = .ok b.paddingRegion.length := by
  by_cases hpos : 0 < b.paddingBytes
  · have hregion : b.paddingRegion
        = List.replicate b.paddingBytes 0 ++ [UInt8.ofNat b.paddingBytes] := by
      rw [PacketBuilder.paddingRegion, if_pos hpos]
    have hlen : b.paddingRegion.length = b.paddingBytes + 1 := by simp [hregion]
    have hraw : (pre ++ (b.payload ++ b.paddingRegion)).length
        = n + b.payload.length + b.paddingBytes + 1 := by
      rw [List.length_append, List.length_append, hlen, hn]
      omega
    -- the last byte of the packet is the count
    have hlast : (pre ++ (b.payload ++ b.paddingRegion)).getD
        ((pre ++ (b.payload ++ b.paddingRegion)).length - 1) 0 = UInt8.ofNat b.paddingBytes := by
      have hsplit : pre ++ (b.payload ++ b.paddingRegion)
          = (pre ++ (b.payload ++ List.replicate b.paddingBytes 0))
            ++ [UInt8.ofNat b.paddingBytes] := by
        simp only [hregion, List.append_assoc]
      rw [hsplit, List.length_append, List.length_singleton, Nat.add_sub_cancel,
        List.getD_append_right _ _ _ _ (le_refl _), Nat.sub_self]
      rfl
    have hcount : (UInt8.ofNat b.paddingBytes).toNat = b.paddingBytes :=
      UInt8.toNat_ofNat_of_lt' (show b.paddingBytes < 256 by omega)
    have hroom : ¬ (b.paddingBytes = 0
        ∨ (pre ++ (b.payload ++ b.paddingRegion)).length - n < b.paddingBytes + 1) := by
      omega
    simp only [paddingTrailer, hlast, hcount]
    rw [if_pos ⟨decide_eq_true hpos, by omega⟩, if_neg hroom, hlen]
  · have hregion : b.paddingRegion = [] := by rw [PacketBuilder.paddingRegion, if_neg hpos]
    simp [paddingTrailer, hpos, hregion]

namespace PacketBuilder

variable {b : PacketBuilder}

/-! ### The packet -/

theorem written_bytes : b.written.getD 0 0 = b.byte0 ∧ b.written.getD 1 0 = b.byte1 := by
  simp [written, headerBytes]

theorem written_numbers : readBe16 b.written 2 = b.seq ∧ readBe32 b.written 4 = b.timestamp
    ∧ readBe32 b.written 8 = b.ssrc := by
  let rest := csrcBytes b.csrc ++ (b.extensionBytes ++ (b.payload ++ b.paddingRegion))
  have hseq : b.written = [b.byte0, b.byte1] ++ (beBytes 2 b.seq.toNat
      ++ (beBytes 4 b.timestamp.toNat ++ (beBytes 4 b.ssrc.toNat ++ rest))) := by
    simp [written, headerBytes, rest]
  have hts : b.written = ([b.byte0, b.byte1] ++ beBytes 2 b.seq.toNat)
      ++ (beBytes 4 b.timestamp.toNat ++ (beBytes 4 b.ssrc.toNat ++ rest)) := by
    simp [written, headerBytes, rest]
  have hssrc : b.written = ([b.byte0, b.byte1] ++ beBytes 2 b.seq.toNat
      ++ beBytes 4 b.timestamp.toNat) ++ (beBytes 4 b.ssrc.toNat ++ rest) := by
    simp [written, headerBytes, rest]
  refine ⟨?_, ?_, ?_⟩
  · rw [hseq, readBe16_append _ (by simp) b.seq.toNat_lt, UInt16.ofNat_toNat]
  · rw [hts, readBe32_append _ _ (by simp)]
  · rw [hssrc, readBe32_append _ _ (by simp)]

theorem written_csrc : (List.range b.csrc.length).map
    (fun i => readBe32 b.written (kFixedHeaderSize + i * 4)) = b.csrc := by
  have hsplit : b.written
      = b.headerBytes ++ (csrcBytes b.csrc ++ (b.extensionBytes ++ (b.payload ++ b.paddingRegion))) := by
    simp [written]
  have hread := csrc_append (b.extensionBytes ++ (b.payload ++ b.paddingRegion)) b.csrc b.headerBytes
  rwa [← hsplit, length_headerBytes] at hread

/-- Where the payload starts. -/
def payloadStart (b : PacketBuilder) : ℕ :=
  kFixedHeaderSize + b.csrc.length * 4 + b.extensionBytes.length

theorem length_beforePayload :
    (b.headerBytes ++ csrcBytes b.csrc ++ b.extensionBytes).length = b.payloadStart := by
  rw [List.length_append, List.length_append, length_headerBytes, length_csrcBytes, payloadStart]

theorem written_extension
    (hwords : ∀ ext ∈ b.extension, (ext.data.length + 3) / 4 ≤ 65535) :
    parseExtension b.written b.hasExtension (kFixedHeaderSize + b.csrc.length * 4)
      = .ok (b.sentExtension, b.extensionBytes.length) := by
  have hbytes := extensionBytes_eq hwords
  have haligned := sentExtension_aligned hwords
  rw [hasExtension_eq]
  rcases hsent : b.sentExtension with _ | ext
  · rw [hsent] at hbytes
    simp [parseExtension, hbytes]
  · rw [hsent] at hbytes haligned
    simp only [Option.map_some, Option.getD_some] at hbytes
    have hsplit : b.written
        = (b.headerBytes ++ csrcBytes b.csrc) ++ (ext.wire ++ (b.payload ++ b.paddingRegion)) := by
      simp [written, hbytes]
    rw [hsplit, hbytes]
    refine parseExtension_wire _ (haligned ext rfl) ?_
    rw [List.length_append, length_headerBytes, length_csrcBytes]

theorem written_padding (hpad : b.paddingBytes ≤ 255) :
    paddingTrailer b.written (decide (0 < b.paddingBytes)) b.payloadStart
      = .ok b.paddingRegion.length := by
  have hsplit : b.written = (b.headerBytes ++ csrcBytes b.csrc ++ b.extensionBytes)
      ++ (b.payload ++ b.paddingRegion) := by
    simp [written]
  rw [hsplit]
  exact paddingTrailer_region hpad length_beforePayload

theorem written_payload :
    (b.written.drop b.payloadStart).take
      (b.written.length - b.payloadStart - b.paddingRegion.length) = b.payload := by
  have hsplit : b.written = (b.headerBytes ++ csrcBytes b.csrc ++ b.extensionBytes)
      ++ (b.payload ++ b.paddingRegion) := by
    simp [written]
  have hlen : b.written.length - b.payloadStart - b.paddingRegion.length = b.payload.length := by
    rw [hsplit, List.length_append, length_beforePayload, List.length_append]
    omega
  rw [hlen, hsplit]
  exact take_drop_append _ length_beforePayload rfl

/-- The view of a packet that was built. -/
def view (b : PacketBuilder) (p : Parser) (past : UInt8) : PacketView where
  payload := b.payload
  ssrc := b.ssrc
  seq := b.seq
  timestamp := b.timestamp
  payloadType := b.payloadType
  marker := b.marker
  csrc := b.csrc
  extension := b.sentExtension
  extmapUri :=
    match b.sentExtension with
    | some ext => (p.walk ((b.written.drop b.payloadStart).headD past) ext).uris
    | none => fun _ => none

theorem parse_written (p : Parser) (past : UInt8) (hcsrc : b.csrc.length ≤ 15)
    (hpad : b.paddingBytes ≤ 255) (hpt : b.payloadType < 128)
    (hwords : ∀ ext ∈ b.extension, (ext.data.length + 3) / 4 ≤ 65535) :
    p.parse past b.written = .ok (b.view p past) := by
  obtain ⟨hfirst, hsecond⟩ := written_bytes (b := b)
  obtain ⟨hversion, hpadding, hextension, hcount⟩ := b.byte0_fields hcsrc
  obtain ⟨hseq, hts, hssrc⟩ := written_numbers (b := b)
  obtain ⟨htype, hmarker⟩ := b.byte1_fields hpt
  have hlen : b.payloadStart ≤ b.written.length := by
    have hbefore := length_beforePayload (b := b)
    simp only [written, List.length_append] at hbefore ⊢
    omega
  have hstart : kFixedHeaderSize + b.csrc.length * 4 + b.extensionBytes.length = b.payloadStart :=
    rfl
  have hpadded := written_padding hpad
  simp only [Parser.parse, hfirst, hsecond, hversion, hpadding, hextension, hcount, ne_eq,
    not_true_eq_false, if_false]
  rw [if_neg (by omega), if_neg (by omega), written_extension hwords]
  simp only [bind, Except.bind, hstart]
  rw [hpadded]
  simp only [hseq, hts, hssrc, htype, hmarker, written_csrc, written_payload]
  rfl

/-! ### The abs-send-time element -/

theorem low24 (t : UInt32) : (t &&& 0x00FFFFFF).toNat = t.toNat % 2 ^ 24 := by
  rw [UInt32.toNat_and]
  exact Nat.and_two_pow_sub_one_eq_mod t.toNat 24

theorem oneByteHeader {id : UInt16} (h : id ≤ kExtProfileOneByteMaxId) :
    (UInt8.ofNat (id.toUInt32 <<< 4 ||| 0x02).toNat >>> 4).toUInt16 = id
      ∧ (UInt8.ofNat (id.toUInt32 <<< 4 ||| 0x02).toNat &&& 0x0F).toNat = 2 := by
  have hall : ∀ n < 15, ((UInt8.ofNat ((UInt16.ofNat n).toUInt32 <<< 4 ||| 0x02).toNat) >>> 4).toUInt16
        = UInt16.ofNat n
      ∧ (UInt8.ofNat ((UInt16.ofNat n).toUInt32 <<< 4 ||| 0x02).toNat &&& 0x0F).toNat = 2 := by
    decide
  have hlt : id.toNat < 15 := Nat.lt_succ_of_le (UInt16.le_iff_toNat_le.1 h)
  have hid := hall id.toNat hlt
  rwa [UInt16.ofNat_toNat] at hid

theorem twoByteId {id : UInt16} (h : id ≤ 255) : id.toUInt8.toUInt16 = id := by
  have hle : id.toNat ≤ 255 := UInt16.le_iff_toNat_le.1 h
  rw [← UInt16.toNat_inj]
  simp
  omega

/-- The element is found under its id. -/
theorem find_absSendTime {t : UInt32} (ht : b.absSendTime = some t) (hid : 1 ≤ b.absSendTimeId)
    (hid' : b.absSendTimeId ≤ 255) : ∃ ext ∈ b.sentExtension,
      findExtensionElement ext.data ext.type b.absSendTimeId
        = .ok (beBytes 3 (t.toNat % 2 ^ 24)) := by
  have hne : b.absSendTimeId ≠ 0 := by
    intro h
    rw [h] at hid
    simp at hid
  by_cases hform : b.absSendTimeId ≤ kExtProfileOneByteMaxId
  · obtain ⟨helem, hlen⟩ := oneByteHeader hform
    refine ⟨_, by simp only [sentExtension, ht, if_pos hform]; rfl, ?_⟩
    simp only [findExtensionElement, locateExtensionElement, low24]
    generalize UInt8.ofNat (b.absSendTimeId.toUInt32 <<< 4 ||| 0x02).toNat = hdr at helem hlen
    rw [if_neg (by simp), if_pos trivial, List.length_cons, length_beBytes, findOneByte]
    simp [helem, hlen, hne, List.take_of_length_le]
  · refine ⟨_, by simp only [sentExtension, ht, if_neg hform]; rfl, ?_⟩
    simp only [findExtensionElement, locateExtensionElement, low24]
    rw [if_neg (by simp), if_neg (by decide), if_pos trivial]
    simp [findTwoByte, twoByteId hid', hne, List.take_left']

/-- A packet that was built is parsed back, with its extension padded to words. -/
theorem parse_build (b : PacketBuilder) (p : Parser) (past : UInt8)
    (hcsrc : b.csrc.length ≤ 15) (hpad : b.paddingBytes ≤ 255) (hpt : b.payloadType < 128)
    (hwords : ∀ ext ∈ b.extension, (ext.data.length + 3) / 4 ≤ 65535)
    (hid : b.absSendTime.isSome → 1 ≤ b.absSendTimeId ∧ b.absSendTimeId ≤ 255) :
    ∃ raw pv, b.build = some raw ∧ raw.length = b.computeSize ∧ p.parse past raw = .ok pv
      ∧ pv.ssrc = b.ssrc ∧ pv.seq = b.seq ∧ pv.timestamp = b.timestamp ∧ pv.marker = b.marker
      ∧ pv.payloadType = b.payloadType ∧ pv.csrc = b.csrc ∧ pv.payload = b.payload
      ∧ (∀ ext ∈ b.extension, pv.extension = some
          { type := ext.type
            data := ext.data
              ++ List.replicate ((ext.data.length + 3) / 4 * 4 - ext.data.length) 0 })
      ∧ (∀ t ∈ b.absSendTime, ∃ ext ∈ pv.extension, ∃ bytes,
          findExtensionElement ext.data ext.type b.absSendTimeId = .ok bytes
            ∧ bytes.length = 3 ∧ beNat bytes = t.toNat % 2 ^ 24)
      ∧ (b.extension = none → b.absSendTime = none → pv.extension = none) := by
  refine ⟨b.written, b.view p past, build_eq, length_written,
    parse_written p past hcsrc hpad hpt hwords, rfl, rfl, rfl, rfl, rfl, rfl, rfl,
    fun ext hext => ?_, fun t ht => ?_, fun he ht => ?_⟩
  · have ht : b.absSendTime = none := by
      rcases b.one_extension with he | ht
      · rw [he] at hext
        simp at hext
      · exact ht
    simp only [view, sentExtension, ht, Option.mem_def.1 hext]
  · obtain ⟨hlow, hhigh⟩ := hid (Option.isSome_of_mem ht)
    obtain ⟨ext, hext, hfind⟩ := find_absSendTime ht hlow hhigh
    refine ⟨ext, hext, _, hfind, length_beBytes _ _, ?_⟩
    rw [beNat_beBytes]
    omega
  · simp only [view, sentExtension, he, ht]

/-- The calls for the extension leave the other fields alone. -/
theorem extend_fields (b : PacketBuilder) (c : ExtensionCall) :
    (b.extend c).ssrc = b.ssrc ∧ (b.extend c).seq = b.seq ∧ (b.extend c).timestamp = b.timestamp
      ∧ (b.extend c).marker = b.marker ∧ (b.extend c).payloadType = b.payloadType
      ∧ (b.extend c).csrc = b.csrc ∧ (b.extend c).payload = b.payload
      ∧ (b.extend c).paddingBytes = b.paddingBytes := by
  cases c <;> exact ⟨rfl, rfl, rfl, rfl, rfl, rfl, rfl, rfl⟩

/-- The id of a pending stamp is never 0. -/
theorem absSendTimeId_extend (b : PacketBuilder) (c : ExtensionCall)
    (hid : ∀ t id, c = .setAbsSendTime t id → id ≤ 255) (hsome : (b.extend c).absSendTime.isSome) :
    1 ≤ (b.extend c).absSendTimeId ∧ (b.extend c).absSendTimeId ≤ 255 := by
  cases c with
  | setExtension type data => cases hsome
  | setAbsSendTime t id =>
    show 1 ≤ (if id = 0 then 1 else id) ∧ (if id = 0 then 1 else id) ≤ 255
    split_ifs with hzero
    · decide
    · refine ⟨UInt16.le_iff_toNat_le.2 ?_, hid t id rfl⟩
      exact Nat.one_le_iff_ne_zero.2 fun h => hzero (UInt16.toNat.inj h)
  | clearExtension => cases hsome

/-- Whatever extension a builder had, a packet carries the one of the last call. -/
theorem parse_build_extend (b : PacketBuilder) (c : ExtensionCall) (p : Parser) (past : UInt8)
    (hcsrc : b.csrc.length ≤ 15) (hpad : b.paddingBytes ≤ 255) (hpt : b.payloadType < 128)
    (hwords : ∀ type data, c = .setExtension type data → (data.length + 3) / 4 ≤ 65535)
    (hid : ∀ t id, c = .setAbsSendTime t id → id ≤ 255) :
    ∃ raw pv, (b.extend c).build = some raw ∧ p.parse past raw = .ok pv ∧ pv.ssrc = b.ssrc
      ∧ pv.payload = b.payload
      ∧ match c with
        | .setExtension type data => pv.extension = some
            { type, data := data ++ List.replicate ((data.length + 3) / 4 * 4 - data.length) 0 }
        | .setAbsSendTime t id => ∃ ext ∈ pv.extension, ∃ bytes,
            findExtensionElement ext.data ext.type (if id = 0 then 1 else id) = .ok bytes
              ∧ bytes.length = 3 ∧ beNat bytes = t.toNat % 2 ^ 24
        | .clearExtension => pv.extension = none := by
  obtain ⟨hssrc, -, -, -, hptEq, hcsrcEq, hpayload, hpadEq⟩ := extend_fields b c
  have hwords' : ∀ ext ∈ (b.extend c).extension, (ext.data.length + 3) / 4 ≤ 65535 := by
    intro ext hext
    cases c with
    | setExtension type data =>
      obtain rfl := Option.some.inj hext
      exact hwords type data rfl
    | setAbsSendTime t id => cases hext
    | clearExtension => cases hext
  obtain ⟨raw, pv, hbuild, -, hparse, hssrc', -, -, -, -, -, hpayload', hext, htime, hnone⟩ :=
    parse_build (b.extend c) p past (by rwa [hcsrcEq]) (by rwa [hpadEq]) (by rwa [hptEq]) hwords'
      (absSendTimeId_extend b c hid)
  refine ⟨raw, pv, hbuild, hparse, hssrc'.trans hssrc, hpayload'.trans hpayload, ?_⟩
  cases c with
  | setExtension type data => exact hext _ rfl
  | setAbsSendTime t id => exact htime t rfl
  | clearExtension => exact hnone rfl rfl

/-- Two CSRCs, an element in the two-byte form, three bytes of padding. -/
def sampleBuilder : PacketBuilder :=
  PacketBuilder.setAbsSendTime
    { ssrc := 0xCAFEBABE, seq := 65535, timestamp := 0xFFFFFFFF, payloadType := 96, marker := true,
      csrc := [1, 2], payload := [9, 8, 7], paddingBytes := 3, one_extension := noExtension }
    0x12345678 200

theorem parse_build_sample :
    sampleBuilder.csrc.length ≤ 15 ∧ sampleBuilder.paddingBytes ≤ 255
      ∧ ∃ raw pv, sampleBuilder.build = some raw ∧ raw.length = 39
        ∧ ({} : Parser).parse 0 raw = .ok pv ∧ pv.payload = [9, 8, 7] ∧ pv.csrc = [1, 2] := by
  obtain ⟨raw, pv, hbuild, hlen, hparse, -, -, -, -, -, hcsrc, hpayload, -, -, -⟩ :=
    parse_build sampleBuilder {} 0 (by decide) (by decide) (by decide)
      (by simp [sampleBuilder, setAbsSendTime]) (fun _ => ⟨by decide, by decide⟩)
  exact ⟨by decide, by decide, raw, pv, hbuild, hlen, hparse, hpayload, hcsrc⟩

end PacketBuilder

end NimRtc.Rtp
