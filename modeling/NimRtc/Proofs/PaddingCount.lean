import NimRtc.RtpPacket

/-!
# The padding count

By RFC 3550 the last octet of the padding counts itself. The parser takes it for the number of octets
before it, so it strips one octet more than the sender added, and refuses a packet that is all padding.
-/

namespace NimRtc.Rtp

/-- Where the payload begins: after the header, the contributing sources and the extension. -/
def bodyStart (raw : List UInt8) : ℕ :=
  let headerSize := kFixedHeaderSize + (raw.getD 0 0 &&& 0x0F).toNat * 4
  if (raw.getD 0 0 >>> 4) &&& 0x01 ≠ 0 then
    headerSize + (4 + (readBe16 raw (headerSize + 2)).toNat * 4)
  else headerSize

/-- A packet whose padding has `count` octets, the last of which says so. -/
structure Padded (raw : List UInt8) (count : ℕ) : Prop where
  version : (raw.getD 0 0 >>> 6) &&& 0x03 = kVersion
  padding : (raw.getD 0 0 >>> 5) &&& 0x01 ≠ 0
  last : (raw.getD (raw.length - 1) 0).toNat = count
  pos : 1 ≤ count
  fits : bodyStart raw + count ≤ raw.length

variable {raw : List UInt8} {count : ℕ}

/-- The payload after `count` octets of padding are stripped. -/
def strippedPayload (raw : List UInt8) (count : ℕ) : List UInt8 :=
  (raw.drop (bodyStart raw)).take (raw.length - bodyStart raw - count)

theorem parseExtension_bodyStart (h : bodyStart raw ≤ raw.length) :
    let headerSize := kFixedHeaderSize + (raw.getD 0 0 &&& 0x0F).toNat * 4
    headerSize ≤ raw.length
      ∧ ∃ ext size, parseExtension raw (decide ((raw.getD 0 0 >>> 4) &&& 0x01 ≠ 0)) headerSize
          = .ok (ext, size) ∧ headerSize + size = bodyStart raw := by
  rw [bodyStart] at h ⊢
  simp only at h ⊢
  generalize kFixedHeaderSize + (raw.getD 0 0 &&& 0x0F).toNat * 4 = headerSize at h ⊢
  by_cases hext : (raw.getD 0 0 >>> 4) &&& 0x01 = 0
  · rw [if_neg (not_not.2 hext)] at h ⊢
    refine ⟨h, none, 0, ?_, rfl⟩
    rw [decide_eq_false (not_not.2 hext)]
    rfl
  · rw [if_pos hext] at h ⊢
    have hext' : ∃ ext, parseExtension raw true headerSize
        = .ok (ext, 4 + (readBe16 raw (headerSize + 2)).toNat * 4) := by
      simp only [parseExtension, Bool.not_true, Bool.false_eq_true, if_false]
      rw [if_neg (by omega), if_neg (by omega)]
      exact ⟨_, rfl⟩
    obtain ⟨ext, hparse⟩ := hext'
    rw [decide_eq_true hext]
    exact ⟨by omega, ext, _, hparse, rfl⟩

theorem paddingTrailer_padded (h : Padded raw count) :
    paddingTrailer raw true (bodyStart raw)
      = if bodyStart raw + count = raw.length then
          .error (protocolError ("RTP padding count invalid: " ++ toString count))
        else .ok (count + 1) := by
  have hpos := h.pos
  have hfits := h.fits
  simp only [paddingTrailer, h.last]
  rw [if_pos ⟨trivial, by omega⟩]
  split_ifs <;> first | rfl | omega

/-- What the parser makes of a padded packet. -/
theorem parse_padded (p : Parser) (past : UInt8) (h : Padded raw count) :
    (bodyStart raw + count = raw.length →
        p.parse past raw = .error (protocolError ("RTP padding count invalid: " ++ toString count)))
      ∧ (bodyStart raw + count ≠ raw.length →
        ∃ pv, p.parse past raw = .ok pv ∧ pv.payload = strippedPayload raw (count + 1)) := by
  have hfits := h.fits
  obtain ⟨hheader, ext, size, hext, hstart⟩ := @parseExtension_bodyStart raw (by omega)
  have hfixed : ¬ raw.length < kFixedHeaderSize := by omega
  have hpad := paddingTrailer_padded h
  simp only [Parser.parse, if_neg hfixed, h.version, ne_eq, not_true_eq_false, if_false,
    if_neg (not_lt.2 hheader), hext, bind, Except.bind, pure, Except.pure, hstart]
  have hset : decide (¬ (raw.getD 0 0 >>> 5) &&& 0x01 = 0) = true := decide_eq_true h.padding
  rw [hset, hpad]
  constructor
  · intro hall
    simp only [if_pos hall]
  · intro hsome
    simp only [if_neg hsome]
    exact ⟨_, rfl, rfl⟩

/-- No padded packet is parsed to what RFC 3550 makes of it. -/
theorem parse_padded_never (p : Parser) (past : UInt8) (h : Padded raw count) :
    ¬ ∃ pv, p.parse past raw = .ok pv ∧ pv.payload = strippedPayload raw count := by
  rintro ⟨pv, hparse, hpayload⟩
  obtain ⟨hall, hsome⟩ := parse_padded p past h
  have hpos := h.pos
  have hfits := h.fits
  by_cases hend : bodyStart raw + count = raw.length
  · rw [hall hend] at hparse
    cases hparse
  · obtain ⟨pv', hparse', hpayload'⟩ := hsome hend
    rw [hparse] at hparse'
    obtain rfl := Except.ok.inj hparse'
    -- one octet is missing
    have hlength := congrArg List.length (hpayload.symm.trans hpayload')
    simp only [strippedPayload, List.length_take, List.length_drop] at hlength
    omega

/-- A packet of four octets of payload and two of padding. -/
def paddedPacket : List UInt8 :=
  [0xA0, 0x60, 0, 1, 0, 0, 0, 0x0A, 0x12, 0x34, 0x56, 0x78, 0xDE, 0xAD, 0xBE, 0xEF, 0, 2]

theorem padded_paddedPacket : Padded paddedPacket 2 :=
  ⟨by decide, by decide, by decide, by decide, by decide⟩

theorem parse_padded_never_two :
    ¬ ∃ pv, ({} : Parser).parse 0 paddedPacket = .ok pv ∧ pv.payload = [0xDE, 0xAD, 0xBE, 0xEF] :=
  parse_padded_never {} 0 padded_paddedPacket

/-- A packet that is all padding, as it is sent to probe the bandwidth, is refused. -/
theorem padding_only_refused :
    ¬ ∀ (p : Parser) (past : UInt8) (raw : List UInt8) (count : ℕ), Padded raw count →
      ∃ pv, p.parse past raw = .ok pv ∧ pv.payload = strippedPayload raw count := by
  intro h
  obtain ⟨pv, hparse, -⟩ := h {} 0 [0xA0, 0x60, 0, 1, 0, 0, 0, 0x0A, 0x12, 0x34, 0x56, 0x78, 0, 0, 3] 3
    ⟨by decide, by decide, by decide, by decide, by decide⟩
  cases hparse

end NimRtc.Rtp
