import NimRtc.VideoRtcpFeedback
import NimRtc.Proofs.RtcpRoundTrip

/-!
# Video feedback is parsed back, and written back

The four packets share a header, two SSRCs and a list of entries of one size, so the entries of each
are read back where the ones before them end, and are written to the bytes they were read from.
-/

namespace NimRtc.VideoRtcpFeedback

open Rtp (RtpError readBe16 readBe32 readBe16_append readBe32_append readBe16_between
  readBe32_between beBytes_readBe16 beBytes_readBe32)

/-! ### The header -/

theorem length_header (fmt pt : UInt8) (total : ℕ) :
    (header fmt pt total).length = kRtcpHeaderSize := by
  simp [header, kRtcpHeaderSize]

theorem rtcpByte0_fields (fmt : UInt8) (h : fmt < 32) :
    (rtcpByte0 fmt >>> 6) &&& 0x03 = 2 ∧ (rtcpByte0 fmt >>> 5) &&& 0x01 = 0
      ∧ rtcpByte0 fmt &&& 0x1F = fmt := by
  revert fmt
  exact forall_uint8 (by decide)

theorem eq_rtcpByte0 (b : UInt8) (hversion : (b >>> 6) &&& 0x03 = 2)
    (hpadding : (b >>> 5) &&& 0x01 = 0) : b = rtcpByte0 (b &&& 0x1F) := by
  revert b
  exact forall_uint8 (by decide)

/-- The header of a packet of whole words is accepted in front of anything. -/
theorem parseHeader_header {input rest : List UInt8} {fmt pt : UInt8} {total : ℕ} (minFci : ℕ)
    (hinput : input = header fmt pt total ++ rest) (hfmt : fmt < 32) (hwords : total % 4 = 0)
    (hmin : kPliPacketSize + minFci ≤ total) (hlength : total ≤ 4 * 2 ^ 16)
    (hfits : total ≤ input.length) :
    ∃ hc, parseHeader pt fmt input minFci = .ok hc ∧ hc.totalBytes = total := by
  obtain ⟨hversion, hpadding, hkind⟩ := rtcpByte0_fields fmt hfmt
  have hsize : 12 ≤ total := by
    rw [kPliPacketSize, kRtcpHeaderSize, kSsrcBlockSize] at hmin
    omega
  have hmod : lengthFromBytes total = total / 4 - 1 := Nat.mod_eq_of_lt (by omega)
  have hfield : readBe16 input 2 = UInt16.ofNat (total / 4 - 1) := by
    rw [hinput, header, List.append_assoc, hmod, readBe16_append _ (by simp) (by omega)]
  have htotal : HeaderCheck.totalBytes ⟨fmt, UInt16.ofNat (total / 4 - 1)⟩ = total := by
    rw [HeaderCheck.totalBytes, UInt16.toNat_ofNat_of_lt' (show total / 4 - 1 < 2 ^ 16 by omega)]
    omega
  have hfirst : input.getD 0 0 = rtcpByte0 fmt := by simp [hinput, header]
  have hsecond : input.getD 1 0 = pt := by simp [hinput, header]
  refine ⟨_, ?_, htotal⟩
  simp only [parseHeader, hfirst, hsecond, hversion, hpadding, hkind, hfield, htotal, ne_eq,
    not_true_eq_false, if_false]
  rw [if_neg (by rw [kRtcpHeaderSize]; omega), if_neg (by omega), if_neg (by omega),
    if_neg (by omega)]

/-- An accepted packet starts with the header for its own length. -/
theorem take_of_parseHeader {input : List UInt8} {fmt pt : UInt8} {minFci : ℕ} {hc : HeaderCheck}
    (h : parseHeader pt fmt input minFci = .ok hc) :
    input.take kRtcpHeaderSize = header fmt pt hc.totalBytes
      ∧ hc.lengthWords = readBe16 input 2 ∧ kPliPacketSize ≤ hc.totalBytes
      ∧ hc.totalBytes ≤ input.length := by
  simp only [parseHeader] at h
  split_ifs at h with hshort hversion hpadding hpt hfmt hlow hfits hmin
  obtain rfl := Except.ok.inj h
  simp only [not_not] at hversion hpadding hpt hfmt
  refine ⟨?_, rfl, not_lt.1 hlow, not_lt.1 hfits⟩
  have hfirst : input.getD 0 0 = rtcpByte0 fmt := by
    rw [← hfmt]
    exact eq_rtcpByte0 _ hversion hpadding
  have hfield : lengthFromBytes (HeaderCheck.totalBytes ⟨input.getD 0 0 &&& 0x1F, readBe16 input 2⟩)
      = (readBe16 input 2).toNat := by
    have hlt := (readBe16 input 2).toNat_lt
    rw [lengthFromBytes, HeaderCheck.totalBytes]
    show (((readBe16 input 2).toNat + 1) * 4 / 4 - 1) % 2 ^ 16 = _
    omega
  have hbytes : beBytes 2 (readBe16 input 2).toNat = (input.drop 2).take 2 := by
    rw [kRtcpHeaderSize] at hshort
    exact beBytes_readBe16 input 2 (by omega)
  rw [header, hfield, hbytes, ← hfirst, ← hpt]
  obtain _ | ⟨b₀, _ | ⟨b₁, rest⟩⟩ := input
  · simp [kRtcpHeaderSize] at hshort
  · simp [kRtcpHeaderSize] at hshort
  · simp [kRtcpHeaderSize]

/-! ### Entries -/

theorem length_firEntryBytes (e : FirEntry) : (firEntryBytes e).length = kFirEntrySize := by
  simp [firEntryBytes, kFirEntrySize]

theorem length_sliEntryBytes (e : SliEntry) : (sliEntryBytes e).length = kSliEntrySize := by
  simp [sliEntryBytes, kSliEntrySize]

theorem length_nackEntryBytes (e : NackEntry) : (nackEntryBytes e).length = kNackEntrySize := by
  simp [nackEntryBytes, kNackEntrySize]

theorem firEntryAt_bytes (pre : List UInt8) (e : FirEntry) (post : List UInt8) :
    firEntryAt (pre ++ (firEntryBytes e ++ post)) pre.length = e := by
  have hssrc : pre ++ (firEntryBytes e ++ post)
      = pre ++ (beBytes 4 e.ssrc.toNat ++ ([0, e.seqNr, 0, 0] ++ post)) := by
    rw [firEntryBytes, List.append_assoc]
  have hseq : pre ++ (firEntryBytes e ++ post)
      = (pre ++ beBytes 4 e.ssrc.toNat ++ [0]) ++ e.seqNr :: (0 :: 0 :: post) := by
    simp [firEntryBytes]
  rw [firEntryAt, readBe32_between pre hssrc rfl, Rtp.getD_between _ hseq (by simp)]

theorem sliEntryAt_bytes (pre : List UInt8) (e : SliEntry) (post : List UInt8) :
    sliEntryAt (pre ++ (sliEntryBytes e ++ post)) pre.length = e := by
  let number := pre ++ beBytes 2 e.first.toNat
  let picture := number ++ beBytes 2 e.number.toNat
  have hpicture : pre ++ (sliEntryBytes e ++ post)
      = picture ++ (beBytes 4 e.pictureId.toNat ++ post) := by
    simp only [sliEntryBytes, picture, number, List.append_assoc]
  have hnumber := hpicture.trans (List.append_assoc number (beBytes 2 e.number.toNat) _)
  have hfirst := hnumber.trans (List.append_assoc pre (beBytes 2 e.first.toNat) _)
  rw [sliEntryAt, readBe16_between pre hfirst rfl, readBe16_between number hnumber (by simp [number]),
    readBe32_between picture hpicture (by simp [picture, number])]

theorem nackEntryAt_bytes (pre : List UInt8) (e : NackEntry) (post : List UInt8) :
    nackEntryAt (pre ++ (nackEntryBytes e ++ post)) pre.length = e := by
  let blp := pre ++ beBytes 2 e.pid.toNat
  have hblp : pre ++ (nackEntryBytes e ++ post) = blp ++ (beBytes 2 e.blp.toNat ++ post) := by
    simp only [nackEntryBytes, blp, List.append_assoc]
  have hpid := hblp.trans (List.append_assoc pre (beBytes 2 e.pid.toNat) _)
  rw [nackEntryAt, readBe16_between pre hpid rfl, readBe16_between blp hblp (by simp [blp])]

theorem sliEntryBytes_at {input : List UInt8} (off : ℕ) (h : off + kSliEntrySize ≤ input.length) :
    sliEntryBytes (sliEntryAt input off) = (input.drop off).take kSliEntrySize := by
  rw [kSliEntrySize] at h
  rw [sliEntryBytes, sliEntryAt, beBytes_readBe16 _ _ (by omega), beBytes_readBe16 _ _ (by omega),
    beBytes_readBe32 _ _ (by omega), ← take_drop_add, ← take_drop_add, kSliEntrySize]

theorem nackEntryBytes_at {input : List UInt8} (off : ℕ)
    (h : off + kNackEntrySize ≤ input.length) :
    nackEntryBytes (nackEntryAt input off) = (input.drop off).take kNackEntrySize := by
  rw [kNackEntrySize] at h
  rw [nackEntryBytes, nackEntryAt, beBytes_readBe16 _ _ (by omega), beBytes_readBe16 _ _ (by omega),
    ← take_drop_add, kNackEntrySize]

section Entries

variable {α : Type} {size : ℕ} {enc : α → List UInt8} {entryAt : List UInt8 → ℕ → α}
  {input : List UInt8} {hc : HeaderCheck} {entries : List α}

/-- Entries are read back after a fixed part of the size of a PLI. -/
theorem parseEntries_flatMap {fixed trailing : List UInt8} (name : String)
    (hsize : 0 < size) (henc : ∀ e, (enc e).length = size)
    (hdec : ∀ pre e post, entryAt (pre ++ (enc e ++ post)) pre.length = e)
    (hinput : input = fixed ++ (entries.flatMap enc ++ trailing))
    (hfixed : fixed.length = kPliPacketSize)
    (htotal : hc.totalBytes = kPliPacketSize + entries.length * size) :
    parseEntries name size entryAt input hc = .ok entries := by
  have hread := decode_flatMap (g := id) (P := fun _ => True) henc
    (fun pre e post _ => hdec pre e post) trailing entries fixed (fun _ _ => trivial)
  rw [List.map_id, ← hinput, hfixed] at hread
  rw [parseEntries, htotal, Nat.add_sub_cancel_left, Nat.mul_div_cancel _ hsize, if_neg (by simp)]
  exact congrArg Except.ok hread

/-- Entries that were read are the bytes of the packet after that part. -/
theorem flatMap_of_parseEntries {name : String}
    (henc : ∀ off, off + size ≤ input.length →
      enc (entryAt input off) = (input.drop off).take size)
    (h : parseEntries name size entryAt input hc = .ok entries)
    (hlow : kPliPacketSize ≤ hc.totalBytes) (hfits : hc.totalBytes ≤ input.length) :
    hc.totalBytes = kPliPacketSize + entries.length * size
      ∧ entries.flatMap enc = (input.drop kPliPacketSize).take (entries.length * size) := by
  rw [parseEntries] at h
  split_ifs at h with hwhole
  rw [not_not] at hwhole
  obtain rfl := Except.ok.inj h
  have hcount : (hc.totalBytes - kPliPacketSize) / size * size = hc.totalBytes - kPliPacketSize :=
    Nat.div_mul_cancel (Nat.dvd_of_mod_eq_zero hwhole)
  rw [List.length_map, List.length_range]
  refine ⟨by omega, encode_range henc kFciOffset _ ?_⟩
  rw [hcount]
  show kPliPacketSize + _ ≤ _
  omega

end Entries

/-! ### Packets -/

theorem written_writeTo {output bytes : List UInt8} (h : bytes.length ≤ output.length) :
    written (writeTo output bytes) = bytes := by
  rw [writeTo, if_neg (not_lt.2 h), written, List.take_left]

def pliBytes (p : PliPacket) : List UInt8 :=
  header kFmtPli kPsfbPt kPliPacketSize ++ beBytes 4 p.senderSsrc.toNat
    ++ beBytes 4 p.mediaSsrc.toNat

theorem length_pliBytes (p : PliPacket) : (pliBytes p).length = kPliPacketSize := by
  simp [pliBytes, length_header, kPliPacketSize, kSsrcBlockSize]

theorem parsePli_pliBytes (p : PliPacket) (trailing : List UInt8) :
    parsePli (pliBytes p ++ trailing) = .ok p := by
  let head := header kFmtPli kPsfbPt kPliPacketSize
  let media := head ++ beBytes 4 p.senderSsrc.toNat
  have hhead : head.length = kRtcpHeaderSize := length_header _ _ _
  generalize hinput : pliBytes p ++ trailing = input
  have hmedia : input = media ++ (beBytes 4 p.mediaSsrc.toNat ++ trailing) := by
    rw [← hinput, pliBytes, List.append_assoc]
  have hsender := hmedia.trans (List.append_assoc head (beBytes 4 p.senderSsrc.toNat) _)
  have hfits : kPliPacketSize ≤ input.length := by
    rw [← hinput, List.length_append, length_pliBytes]
    omega
  obtain ⟨hc, hparsed, htotal⟩ := parseHeader_header 0 hsender (by decide) (by decide)
    (le_refl _) (by decide) hfits
  have hwords : hc.lengthWords = 2 := by
    apply UInt16.toNat_inj.1
    rw [HeaderCheck.totalBytes, kPliPacketSize, kRtcpHeaderSize, kSsrcBlockSize] at htotal
    show _ = 2
    omega
  simp only [parsePli, bind, Except.bind, pure, Except.pure, hparsed, hwords, ne_eq,
    not_true_eq_false, if_false, readBe32_between head hsender hhead,
    readBe32_between media hmedia (show _ = kRtcpHeaderSize + 4 by simp [media, hhead])]

/-- The length of a packet, as its header has it. -/
def declaredBytes (input : List UInt8) : ℕ := ((readBe16 input 2).toNat + 1) * 4

section Fci

variable {α : Type} {size : ℕ} {enc : α → List UInt8} {entryAt : List UInt8 → ℕ → α}

/-- What the packets with entries share: their header is accepted, and their SSRCs and entries are
read back. -/
theorem fci_readBack {input media : List UInt8} {entries : List α} (name : String) (fmt pt : UInt8)
    (ssrc : UInt32) (trailing : List UInt8) (hfmt : fmt < 32)
    (hsize : 0 < size ∧ size % 4 = 0 ∧ size ≤ 8)
    (henc : ∀ e, (enc e).length = size)
    (hdec : ∀ pre e post, entryAt (pre ++ (enc e ++ post)) pre.length = e)
    (hmedia : media.length = 4) (hsome : 1 ≤ entries.length) (hmany : entries.length ≤ 8190)
    (hinput : input = header fmt pt (kPliPacketSize + entries.length * size)
      ++ beBytes 4 ssrc.toNat ++ media ++ entries.flatMap enc ++ trailing) :
    ∃ hc, parseHeader pt fmt input size = .ok hc
      ∧ parseEntries name size entryAt input hc = .ok entries
      ∧ readBe32 input kRtcpHeaderSize = ssrc
      ∧ ∀ v : UInt32, media = beBytes 4 v.toNat → readBe32 input (kRtcpHeaderSize + 4) = v := by
  obtain ⟨hpos, hwords, hsmall⟩ := hsize
  let head := header fmt pt (kPliPacketSize + entries.length * size)
  let fixed := head ++ beBytes 4 ssrc.toNat ++ media
  have hhead : head.length = kRtcpHeaderSize := length_header _ _ _
  have hfixed : fixed.length = kPliPacketSize := by
    simp [fixed, hhead, hmedia, kPliPacketSize, kSsrcBlockSize]
  have hcut : input = fixed ++ (entries.flatMap enc ++ trailing) := by
    rw [hinput, List.append_assoc]
  have hsender : input = head ++ (beBytes 4 ssrc.toNat
      ++ (media ++ (entries.flatMap enc ++ trailing))) := by
    simp only [hcut, fixed, List.append_assoc]
  have hlength : kPliPacketSize + entries.length * size ≤ input.length := by
    rw [hcut, List.length_append, hfixed, List.length_append, length_flatMap_of_length henc]
    omega
  have hone : 1 * size ≤ entries.length * size := Nat.mul_le_mul_right size hsome
  have hall : entries.length * size ≤ 8190 * 8 := Nat.mul_le_mul hmany hsmall
  have hmod : (kPliPacketSize + entries.length * size) % 4 = 0 := by
    rw [Nat.add_mod, Nat.mul_mod, hwords]
    simp [kPliPacketSize, kRtcpHeaderSize, kSsrcBlockSize]
  obtain ⟨hc, hparsed, htotal⟩ := parseHeader_header size hsender hfmt hmod
    (by omega) (by rw [kPliPacketSize, kRtcpHeaderSize, kSsrcBlockSize]; omega) hlength
  refine ⟨hc, hparsed, parseEntries_flatMap name hpos henc hdec hcut hfixed htotal,
    readBe32_between head hsender hhead, fun v hv => ?_⟩
  rw [hv, ← List.append_assoc] at hsender
  exact readBe32_between _ hsender (by simp [hhead])

/-- An accepted packet is its header, its two SSRCs and its entries. -/
theorem take_eq_fci {fmt pt : UInt8} {input : List UInt8} {minFci : ℕ} {hc : HeaderCheck}
    {name : String} {entries : List α}
    (henc : ∀ off, off + size ≤ input.length →
      enc (entryAt input off) = (input.drop off).take size)
    (hparsed : parseHeader pt fmt input minFci = .ok hc)
    (hentries : parseEntries name size entryAt input hc = .ok entries) :
    declaredBytes input = kPliPacketSize + entries.length * size
      ∧ declaredBytes input ≤ input.length
      ∧ input.take (declaredBytes input)
        = header fmt pt (kPliPacketSize + entries.length * size)
          ++ beBytes 4 (readBe32 input kRtcpHeaderSize).toNat
          ++ beBytes 4 (readBe32 input (kRtcpHeaderSize + 4)).toNat ++ entries.flatMap enc := by
  obtain ⟨hheader, hfield, hlow, hfits⟩ := take_of_parseHeader hparsed
  obtain ⟨htotal, hbytes⟩ := flatMap_of_parseEntries henc hentries hlow hfits
  have hdeclared : declaredBytes input = hc.totalBytes := by
    rw [declaredBytes, HeaderCheck.totalBytes, hfield]
  have hfour : kRtcpHeaderSize = 4 := rfl
  have htwelve : kPliPacketSize = 4 + 4 + 4 := rfl
  rw [hdeclared]
  refine ⟨htotal, hfits, ?_⟩
  rw [← htotal, ← hheader, beBytes_readBe32 _ _ (by omega), beBytes_readBe32 _ _ (by omega), hbytes,
    htotal, htwelve, hfour, List.take_add, List.take_add, List.take_add]

end Fci

/-- A FIR, with what stands in place of its media SSRC. -/
def firBytes (media : List UInt8) (p : FirPacket) : List UInt8 :=
  header kFmtFir kPsfbPt (kPliPacketSize + p.entries.length * kFirEntrySize)
    ++ beBytes 4 p.senderSsrc.toNat ++ media ++ p.entries.flatMap firEntryBytes

theorem length_firBytes {media : List UInt8} (hmedia : media.length = 4) (p : FirPacket) :
    (firBytes media p).length = kPliPacketSize + p.entries.length * kFirEntrySize := by
  simp only [firBytes, List.length_append, length_header, length_beBytes, hmedia,
    length_flatMap_of_length length_firEntryBytes]
  rfl

theorem parseFir_firBytes {media : List UInt8} (hmedia : media.length = 4) (p : FirPacket)
    (trailing : List UInt8) (hsome : 1 ≤ p.entries.length) (hmany : p.entries.length ≤ 8190) :
    parseFir (firBytes media p ++ trailing) = .ok p := by
  obtain ⟨hc, hparsed, hentries, hsender, -⟩ := fci_readBack "FIR" kFmtFir kPsfbPt
    p.senderSsrc trailing (by decide) (by decide) length_firEntryBytes firEntryAt_bytes hmedia hsome
    hmany rfl
  simp only [parseFir, firBytes, bind, Except.bind, pure, Except.pure, hparsed, hentries, hsender]

def sliBytes (p : SliPacket) : List UInt8 :=
  header kFmtSli kPsfbPt (kPliPacketSize + p.entries.length * kSliEntrySize)
    ++ beBytes 4 p.senderSsrc.toNat ++ beBytes 4 p.mediaSsrc.toNat ++ p.entries.flatMap sliEntryBytes

theorem length_sliBytes (p : SliPacket) :
    (sliBytes p).length = kPliPacketSize + p.entries.length * kSliEntrySize := by
  simp only [sliBytes, List.length_append, length_header, length_beBytes,
    length_flatMap_of_length length_sliEntryBytes]
  rfl

theorem parseSli_sliBytes (p : SliPacket) (trailing : List UInt8) (hsome : 1 ≤ p.entries.length)
    (hmany : p.entries.length ≤ 8190) : parseSli (sliBytes p ++ trailing) = .ok p := by
  obtain ⟨hc, hparsed, hentries, hsender, hmedia⟩ := fci_readBack "SLI" kFmtSli kPsfbPt
    p.senderSsrc trailing (by decide) (by decide) length_sliEntryBytes sliEntryAt_bytes
    (length_beBytes 4 p.mediaSsrc.toNat) hsome hmany rfl
  simp only [parseSli, sliBytes, bind, Except.bind, pure, Except.pure, hparsed, hentries, hsender,
    hmedia p.mediaSsrc rfl]

def nackBytes (p : NackPacket) : List UInt8 :=
  header kFmtNack kRtpfbPt (kPliPacketSize + p.entries.length * kNackEntrySize)
    ++ beBytes 4 p.senderSsrc.toNat ++ beBytes 4 p.mediaSsrc.toNat
    ++ p.entries.flatMap nackEntryBytes

theorem length_nackBytes (p : NackPacket) :
    (nackBytes p).length = kPliPacketSize + p.entries.length * kNackEntrySize := by
  simp only [nackBytes, List.length_append, length_header, length_beBytes,
    length_flatMap_of_length length_nackEntryBytes]
  rfl

theorem parseNack_nackBytes (p : NackPacket) (trailing : List UInt8) (hsome : 1 ≤ p.entries.length)
    (hmany : p.entries.length ≤ 8190) : parseNack (nackBytes p ++ trailing) = .ok p := by
  obtain ⟨hc, hparsed, hentries, hsender, hmedia⟩ := fci_readBack "NACK" kFmtNack kRtpfbPt
    p.senderSsrc trailing (by decide) (by decide) length_nackEntryBytes nackEntryAt_bytes
    (length_beBytes 4 p.mediaSsrc.toNat) hsome hmany rfl
  simp only [parseNack, nackBytes, bind, Except.bind, pure, Except.pure, hparsed, hentries, hsender,
    hmedia p.mediaSsrc rfl]

theorem sliBytes_of_parseSli {input : List UInt8} {p : SliPacket} (hp : parseSli input = .ok p) :
    declaredBytes input = kPliPacketSize + p.entries.length * kSliEntrySize
      ∧ declaredBytes input ≤ input.length ∧ input.take (declaredBytes input) = sliBytes p := by
  simp only [parseSli, bind, Except.bind, pure, Except.pure] at hp
  cases hparsed : parseHeader kPsfbPt kFmtSli input kSliEntrySize with
  | error e => simp [hparsed] at hp
  | ok hc =>
    simp only [hparsed] at hp
    cases hentries : parseEntries "SLI" kSliEntrySize sliEntryAt input hc with
    | error e => simp [hentries] at hp
    | ok entries =>
      simp only [hentries] at hp
      obtain rfl := Except.ok.inj hp
      exact take_eq_fci sliEntryBytes_at hparsed hentries

theorem nackBytes_of_parseNack {input : List UInt8} {p : NackPacket} (hp : parseNack input = .ok p) :
    declaredBytes input = kPliPacketSize + p.entries.length * kNackEntrySize
      ∧ declaredBytes input ≤ input.length ∧ input.take (declaredBytes input) = nackBytes p := by
  simp only [parseNack, bind, Except.bind, pure, Except.pure] at hp
  cases hparsed : parseHeader kRtpfbPt kFmtNack input kNackEntrySize with
  | error e => simp [hparsed] at hp
  | ok hc =>
    simp only [hparsed] at hp
    cases hentries : parseEntries "NACK" kNackEntrySize nackEntryAt input hc with
    | error e => simp [hentries] at hp
    | ok entries =>
      simp only [hentries] at hp
      obtain rfl := Except.ok.inj hp
      exact take_eq_fci nackEntryBytes_at hparsed hentries

/-! ### Both directions -/

/-- What a builder has written is parsed back in front of any bytes, and a SLI or NACK that was
parsed is written to the bytes it was parsed from. -/
theorem feedback_roundTrip :
    (∀ (p : PliPacket) (output trailing : List UInt8), kPliPacketSize ≤ output.length →
      parsePli (written (buildPli output p) ++ trailing) = .ok p)
    ∧ (∀ (p : FirPacket) (output trailing : List UInt8),
      1 ≤ p.entries.length → p.entries.length ≤ 8190 →
      kPliPacketSize + p.entries.length * kFirEntrySize ≤ output.length →
      parseFir (written (buildFir output p) ++ trailing) = .ok p)
    ∧ (∀ (p : SliPacket) (output trailing : List UInt8),
      1 ≤ p.entries.length → p.entries.length ≤ 8190 →
      kPliPacketSize + p.entries.length * kSliEntrySize ≤ output.length →
      parseSli (written (buildSli output p) ++ trailing) = .ok p)
    ∧ (∀ (p : NackPacket) (output trailing : List UInt8),
      1 ≤ p.entries.length → p.entries.length ≤ 8190 →
      kPliPacketSize + p.entries.length * kNackEntrySize ≤ output.length →
      parseNack (written (buildNack output p) ++ trailing) = .ok p)
    ∧ (∀ (input output : List UInt8) (p : NackPacket), parseNack input = .ok p →
      declaredBytes input ≤ output.length →
      declaredBytes input ≤ input.length
        ∧ written (buildNack output p) = input.take (declaredBytes input))
    ∧ ∀ (input output : List UInt8) (p : SliPacket), parseSli input = .ok p →
      declaredBytes input ≤ output.length →
      declaredBytes input ≤ input.length
        ∧ written (buildSli output p) = input.take (declaredBytes input) := by
  refine ⟨fun p output trailing h => ?_, fun p output trailing hsome hmany h => ?_,
    fun p output trailing hsome hmany h => ?_, fun p output trailing hsome hmany h => ?_,
    fun input output p hp h => ?_, fun input output p hp h => ?_⟩
  · have hwritten : written (buildPli output p) = pliBytes p :=
      written_writeTo ((length_pliBytes p).trans_le h)
    rw [hwritten, parsePli_pliBytes]
  · have hkeep : ((output.drop (kRtcpHeaderSize + 4)).take 4).length = 4 := by
      rw [kPliPacketSize, kRtcpHeaderSize, kSsrcBlockSize] at h
      rw [kRtcpHeaderSize, List.length_take, List.length_drop]
      omega
    have hwritten : written (buildFir output p)
        = firBytes ((output.drop (kRtcpHeaderSize + 4)).take 4) p :=
      written_writeTo ((length_firBytes hkeep p).trans_le h)
    rw [hwritten, parseFir_firBytes hkeep p trailing hsome hmany]
  · have hwritten : written (buildSli output p) = sliBytes p :=
      written_writeTo ((length_sliBytes p).trans_le h)
    rw [hwritten, parseSli_sliBytes p trailing hsome hmany]
  · have hwritten : written (buildNack output p) = nackBytes p :=
      written_writeTo ((length_nackBytes p).trans_le h)
    rw [hwritten, parseNack_nackBytes p trailing hsome hmany]
  · obtain ⟨hlength, hfits, hbytes⟩ := nackBytes_of_parseNack hp
    refine ⟨hfits, ?_⟩
    rw [hlength, ← length_nackBytes p] at h
    exact (written_writeTo h).trans hbytes.symm
  · obtain ⟨hlength, hfits, hbytes⟩ := sliBytes_of_parseSli hp
    refine ⟨hfits, ?_⟩
    rw [hlength, ← length_sliBytes p] at h
    exact (written_writeTo h).trans hbytes.symm

theorem feedback_roundTrip_sample :
    parsePli (written (buildPli (List.replicate 20 9) ⟨1, 2⟩) ++ [7, 7]) = .ok ⟨1, 2⟩
    ∧ parseFir (written (buildFir (List.replicate 20 9) ⟨1, [⟨5, 6⟩]⟩) ++ [7]) = .ok ⟨1, [⟨5, 6⟩]⟩
    ∧ parseSli (written (buildSli (List.replicate 20 9) ⟨1, 2, [⟨3, 4, 5⟩]⟩) ++ [])
      = .ok ⟨1, 2, [⟨3, 4, 5⟩]⟩
    ∧ parseNack (written (buildNack (List.replicate 20 9) ⟨1, 2, [⟨65535, 3⟩]⟩) ++ [7])
      = .ok ⟨1, 2, [⟨65535, 3⟩]⟩
    ∧ written (buildNack (List.replicate 20 9) ⟨1, 2, [⟨65535, 3⟩]⟩)
      = [0x81, 205, 0, 3, 0, 0, 0, 1, 0, 0, 0, 2, 255, 255, 0, 3]
    ∧ written (buildSli (List.replicate 20 9) ⟨1, 2, [⟨3, 4, 5⟩]⟩)
      = [0x82, 206, 0, 4, 0, 0, 0, 1, 0, 0, 0, 2, 0, 3, 0, 4, 0, 0, 0, 5] := by
  obtain ⟨hpli, hfir, hsli, hnack, hnackBack, hsliBack⟩ := feedback_roundTrip
  refine ⟨hpli _ _ _ (by decide), hfir _ _ _ (by decide) (by decide) (by decide),
    hsli _ _ _ (by decide) (by decide) (by decide), hnack _ _ _ (by decide) (by decide) (by decide),
    ?_, ?_⟩
  · exact (hnackBack [0x81, 205, 0, 3, 0, 0, 0, 1, 0, 0, 0, 2, 255, 255, 0, 3, 7] _ _ (by rfl)
      (by decide)).2
  · exact (hsliBack [0x82, 206, 0, 4, 0, 0, 0, 1, 0, 0, 0, 2, 0, 3, 0, 4, 0, 0, 0, 5] _ _ (by rfl)
      (by decide)).2

/-! ### What is left of the buffer -/

inductive FeedbackPacket
  | pli (p : PliPacket)
  | fir (p : FirPacket)
  | sli (p : SliPacket)
  | nack (p : NackPacket)

def FeedbackPacket.size : FeedbackPacket → ℕ
  | .pli _ => kPliPacketSize
  | .fir p => kPliPacketSize + p.entries.length * kFirEntrySize
  | .sli p => kPliPacketSize + p.entries.length * kSliEntrySize
  | .nack p => kPliPacketSize + p.entries.length * kNackEntrySize

def FeedbackPacket.build (output : List UInt8) : FeedbackPacket → ℕ × List UInt8
  | .pli p => buildPli output p
  | .fir p => buildFir output p
  | .sli p => buildSli output p
  | .nack p => buildNack output p

/-- The bytes of a buffer where the media SSRC of a packet goes. -/
def mediaField (output : List UInt8) : List UInt8 := (output.drop (kRtcpHeaderSize + 4)).take 4

theorem length_mediaField {output : List UInt8} (h : kPliPacketSize ≤ output.length) :
    (mediaField output).length = 4 := by
  rw [kPliPacketSize, kRtcpHeaderSize, kSsrcBlockSize] at h
  rw [mediaField, kRtcpHeaderSize, List.length_take, List.length_drop]
  omega

/-- The bytes of a packet, in a buffer with `media` at its media SSRC. -/
def FeedbackPacket.bytes (media : List UInt8) : FeedbackPacket → List UInt8
  | .pli p => pliBytes p
  | .fir p => firBytes media p
  | .sli p => sliBytes p
  | .nack p => nackBytes p

theorem FeedbackPacket.build_eq (packet : FeedbackPacket) (output : List UInt8) :
    packet.build output = writeTo output (packet.bytes (mediaField output)) := by
  cases packet <;> rfl

theorem FeedbackPacket.length_bytes {media : List UInt8} (hmedia : media.length = 4)
    (packet : FeedbackPacket) : (packet.bytes media).length = packet.size := by
  cases packet with
  | pli p => exact length_pliBytes p
  | fir p => exact length_firBytes hmedia p
  | sli p => exact length_sliBytes p
  | nack p => exact length_nackBytes p

theorem FeedbackPacket.kPliPacketSize_le_size (packet : FeedbackPacket) :
    kPliPacketSize ≤ packet.size := by
  cases packet <;> simp [FeedbackPacket.size]

theorem firBytes_inj {media media' : List UInt8} (p : FirPacket) :
    firBytes media p = firBytes media' p ↔ media = media' := by
  rw [firBytes, firBytes, List.append_left_inj, List.append_right_inj]

/-- Two buffers of one size come out the same, unless the packet is a FIR and they differ where its
media SSRC would be. -/
theorem FeedbackPacket.build_eq_iff (packet : FeedbackPacket) (output output' : List UInt8)
    (hsize : output.length = output'.length) (hfits : packet.size ≤ output.length) :
    ((packet.build output).1 = (packet.build output').1
        ∧ written (packet.build output) = written (packet.build output'))
      ↔ ((∃ p, packet = .fir p) → mediaField output = mediaField output') := by
  have hlow := packet.kPliPacketSize_le_size
  have hmedia := packet.length_bytes (length_mediaField (hlow.trans hfits))
  have hmedia' := packet.length_bytes (length_mediaField (hlow.trans (hfits.trans hsize.le)))
  have hwritten := written_writeTo (hmedia.trans_le hfits)
  have hwritten' := written_writeTo (hmedia'.trans_le (hfits.trans hsize.le))
  have hcount : (packet.build output).1 = (packet.build output').1 := by
    rw [build_eq, build_eq, writeTo, writeTo, hmedia, hmedia', if_neg (not_lt.2 hfits),
      if_neg (not_lt.2 (hfits.trans hsize.le))]
  rw [← build_eq] at hwritten hwritten'
  rw [and_iff_right hcount, hwritten, hwritten']
  cases packet with
  | fir p => exact (firBytes_inj p).trans ⟨fun h _ => h, fun h => h ⟨p, rfl⟩⟩
  | pli p => exact iff_of_true rfl fun ⟨_, h⟩ => nomatch h
  | sli p => exact iff_of_true rfl fun ⟨_, h⟩ => nomatch h
  | nack p => exact iff_of_true rfl fun ⟨_, h⟩ => nomatch h

theorem FeedbackPacket.build_eq_iff_fir :
    ¬ ((FeedbackPacket.fir ⟨1, []⟩).build (List.replicate 12 0)).2.take 12
      = ((FeedbackPacket.fir ⟨1, []⟩).build (List.replicate 12 9)).2.take 12 := by
  have h := FeedbackPacket.build_eq_iff (.fir ⟨1, []⟩) (List.replicate 12 0) (List.replicate 12 9)
    rfl (by decide)
  exact fun heq => absurd (h.1 ⟨rfl, heq⟩ ⟨_, rfl⟩) (by decide)

/-- A FIR sends what was in the buffer before it. -/
theorem FeedbackPacket.not_build_eq :
    ¬ ∀ (packet : FeedbackPacket) (output output' : List UInt8), output.length = output'.length →
      packet.size ≤ output.length →
      (packet.build output).1 = (packet.build output').1
        ∧ written (packet.build output) = written (packet.build output') := by
  intro h
  exact absurd (h (.fir ⟨1, [⟨5, 6⟩]⟩) (List.replicate 20 0) (List.replicate 20 9) rfl (by decide)).2
    (by decide)

end NimRtc.VideoRtcpFeedback
