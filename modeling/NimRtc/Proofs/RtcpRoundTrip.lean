import NimRtc.RtcpPacket
import NimRtc.Proofs.RtpRoundTrip

/-!
# Reports and NACKs are parsed back

The bytes after the common header are fields of a fixed width, so each is read back where the ones
before it end. At most 31 report blocks are kept, so their count fits in the header.
-/

namespace NimRtc.Rtp

/-! ### The header -/

theorem length_rtcpHeader (rcOrFmt : UInt8) (type : RtcpType) (size : ℕ) :
    (rtcpHeader rcOrFmt type size).length = kRtcpHeaderSize := by
  simp [rtcpHeader, kRtcpHeaderSize]

theorem rtcpByte0_fields (rcOrFmt : UInt8) (h : rcOrFmt < 32) :
    (rtcpByte0 0 rcOrFmt >>> 6) &&& 0x03 = 2 ∧ rtcpByte0 0 rcOrFmt &&& 0x1F = rcOrFmt := by
  revert rcOrFmt
  exact forall_uint8 (by decide)

/-- The header of a packet of whole words is read back. -/
theorem parseRtcpHeader_build {raw : List UInt8} {rcOrFmt : UInt8} {type : RtcpType}
    {body : List UInt8} {size minBody : ℕ} (hraw : raw = rtcpHeader rcOrFmt type size ++ body)
    (hlen : raw.length = size) (hrc : rcOrFmt < 32) (hwords : size % 4 = 0)
    (hlength : size / 4 ≤ 2 ^ 16) (hmin : minBody ≤ size) :
    parseRtcpHeader raw type minBody
      = .ok { rcOrFmt, lengthWords := UInt16.ofNat (size / 4 - 1) } := by
  obtain ⟨hversion, hfmt⟩ := rtcpByte0_fields rcOrFmt hrc
  have hsize : 4 ≤ size := by
    rw [← hlen, hraw, List.length_append, length_rtcpHeader, kRtcpHeaderSize]
    omega
  have hmod : (size / 4 - 1) % 2 ^ 16 = size / 4 - 1 := Nat.mod_eq_of_lt (by omega)
  have hfield : readBe16 raw 2 = UInt16.ofNat (size / 4 - 1) := by
    rw [hraw, rtcpHeader, List.append_assoc, hmod, readBe16_append _ (by simp) (by omega)]
  have htotal : RtcpHeaderInfo.totalBytes
      { rcOrFmt, lengthWords := UInt16.ofNat (size / 4 - 1) } = size := by
    rw [RtcpHeaderInfo.totalBytes, UInt16.toNat_ofNat_of_lt' (show size / 4 - 1 < 2 ^ 16 by omega)]
    omega
  have hfirst : raw.getD 0 0 = rtcpByte0 0 rcOrFmt := by
    simp [hraw, rtcpHeader]
  have hsecond : raw.getD 1 0 = type.code := by
    simp [hraw, rtcpHeader]
  simp only [parseRtcpHeader, hfirst, hsecond, hversion, hfmt, hfield, htotal, hlen, ne_eq,
    not_true_eq_false, if_false]
  rw [if_neg (by rw [kRtcpHeaderSize]; omega), if_neg (by omega), if_neg (by omega)]

/-! ### Report blocks -/

theorem length_serialiseReportBlock (rb : ReportBlock) :
    (serialiseReportBlock rb).length = kReportBlockSize := by
  simp [serialiseReportBlock, kReportBlockSize]

/-- The count of lost packets fits in 24 bits. -/
def ReportBlock.LostFits (rb : ReportBlock) : Prop :=
  -2 ^ 23 ≤ rb.cumulativePacketsLost ∧ rb.cumulativePacketsLost < 2 ^ 23

theorem signExtend_emod {x : ℤ} (hlow : -2 ^ 23 ≤ x) (hhigh : x < 2 ^ 23) :
    signExtend 24 (x % 2 ^ 24).toNat = x := by
  rw [signExtend]
  split <;> omega

/-- A report block is read back where it starts. -/
theorem parseReportBlock_serialise (pre : List UInt8) (rb : ReportBlock) (post : List UInt8)
    (h : rb.LostFits) :
    parseReportBlock (pre ++ (serialiseReportBlock rb ++ post)) pre.length = rb := by
  let head := pre ++ beBytes 4 rb.ssrc.toNat
  let lost := beBytes 3 (rb.cumulativePacketsLost % 2 ^ 24).toNat
  let seqs := head ++ [rb.fractionLost] ++ lost
  let jitter := seqs ++ beBytes 4 rb.extendedHighestSeq.toNat
  let ntp := jitter ++ beBytes 4 rb.interarrivalJitter.toNat
  let delay := ntp ++ beBytes 4 rb.lastSrNtp.toNat
  let last := beBytes 4 rb.delaySinceLastSr.toNat ++ post
  -- the packet, cut before each of its fields
  generalize hraw : pre ++ (serialiseReportBlock rb ++ post) = raw
  have hdelay : raw = delay ++ last := by
    rw [← hraw]
    simp only [serialiseReportBlock, delay, ntp, jitter, seqs, lost, head, last, List.append_assoc]
  have hntp : raw = ntp ++ (beBytes 4 rb.lastSrNtp.toNat ++ last) := by
    rw [hdelay, List.append_assoc]
  have hjitter : raw = jitter ++ (beBytes 4 rb.interarrivalJitter.toNat
      ++ (beBytes 4 rb.lastSrNtp.toNat ++ last)) := by
    rw [hntp, List.append_assoc]
  have hseqs : raw = seqs ++ (beBytes 4 rb.extendedHighestSeq.toNat
      ++ (beBytes 4 rb.interarrivalJitter.toNat ++ (beBytes 4 rb.lastSrNtp.toNat ++ last))) := by
    rw [hjitter, List.append_assoc]
  have hlost := hseqs.trans (List.append_assoc (head ++ [rb.fractionLost]) lost _)
  have hfraction := hlost.trans (List.append_assoc head [rb.fractionLost] _)
  have hssrc := hfraction.trans (List.append_assoc pre (beBytes 4 rb.ssrc.toNat) _)
  have hcount : beNat ((raw.drop (pre.length + 5)).take 3)
      = (rb.cumulativePacketsLost % 2 ^ 24).toNat := by
    rw [hlost, take_drop_append _ (by simp [head]) (by simp [lost]), beNat_beBytes]
    omega
  rw [parseReportBlock, readBe32_between pre hssrc rfl,
    getD_between head hfraction (by simp [head]), hcount, signExtend_emod h.1 h.2,
    readBe32_between seqs hseqs (by simp [seqs, lost, head]),
    readBe32_between jitter hjitter (by simp [jitter, seqs, lost, head]),
    readBe32_between ntp hntp (by simp [ntp, jitter, seqs, lost, head]),
    readBe32_between delay hdelay (by simp [delay, ntp, jitter, seqs, lost, head])]

theorem parseReportBlocks_serialise (pre : List UInt8) {blocks : List ReportBlock}
    (h : ∀ rb ∈ blocks, rb.LostFits) :
    parseReportBlocks (pre ++ blocks.flatMap serialiseReportBlock) pre.length blocks.length
      = blocks := by
  have hread := decode_flatMap (g := id) length_serialiseReportBlock parseReportBlock_serialise []
    blocks pre h
  rwa [List.append_nil, List.map_id] at hread

theorem addReportBlock_eq {blocks : List ReportBlock} (rb : ReportBlock)
    (h : blocks.length ≤ 31) : addReportBlock blocks rb = (blocks ++ [rb]).take 31 := by
  rw [addReportBlock]
  split
  · rw [List.take_append_of_le_length (by omega), List.take_of_length_le h]
  · rw [List.take_of_length_le (by simp; omega)]

theorem take_append_take {α : Type*} (n : ℕ) (as bs : List α) :
    (as.take n ++ bs).take n = (as ++ bs).take n := by
  rw [List.take_append, List.take_append, List.take_take, min_self, List.length_take,
    show n - min n as.length = n - as.length by omega]

/-- Calls keep the first 31 of the blocks that they offer. -/
theorem blocks_kept {σ ι : Type} (step : σ → ι → σ) (blocks : σ → List ReportBlock)
    (offer : ι → Option ReportBlock)
    (hstep : ∀ s op, blocks (step s op) = (offer op).elim (blocks s) (addReportBlock (blocks s)))
    (ops : List ι) (s : σ) (h : (blocks s).length ≤ 31) :
    blocks (ops.foldl step s) = (blocks s ++ ops.filterMap offer).take 31 := by
  induction ops generalizing s with
  | nil => simp [List.take_of_length_le h]
  | cons op ops ih =>
    rw [List.foldl_cons]
    cases hop : offer op with
    | none =>
      have hsame : blocks (step s op) = blocks s := by rw [hstep, hop, Option.elim_none]
      rw [ih _ (by rw [hsame]; exact h), hsame, List.filterMap_cons_none hop]
    | some rb =>
      have hadd : blocks (step s op) = (blocks s ++ [rb]).take 31 := by
        rw [hstep, hop, Option.elim_some, addReportBlock_eq rb h]
      have hshort : (blocks (step s op)).length ≤ 31 := by
        rw [hadd, List.length_take]
        exact min_le_left _ _
      rw [ih _ hshort, hadd, List.filterMap_cons_some hop, take_append_take, ← List.append_cons]

/-- A field that only its own setters write is what the last of them set it to. -/
theorem foldl_lastSet {σ ι α : Type} (step : σ → ι → σ) (read : σ → α) (field : ι → Option α)
    (hstep : ∀ s op, read (step s op) = (field op).getD (read s)) (ops : List ι) (s : σ) :
    read (ops.foldl step s) = lastSet field (read s) ops := by
  induction ops generalizing s with
  | nil => rfl
  | cons op ops ih =>
    rw [List.foldl_cons, ih, hstep, lastSet, lastSet]
    cases hop : field op with
    | none => rw [List.filterMap_cons_none hop, Option.getD_none]
    | some v =>
      rw [List.filterMap_cons_some hop, List.getLast?_cons, Option.getD_some, Option.getD_some]

/-- A count of report blocks in the five bits of the header. -/
theorem count_fits {n : ℕ} (h : n ≤ 31) :
    UInt8.ofNat n < 32 ∧ (UInt8.ofNat n).toNat = n := by
  have hcount : (UInt8.ofNat n).toNat = n := UInt8.toNat_ofNat_of_lt' (show n < 2 ^ 8 by omega)
  refine ⟨UInt8.lt_iff_toNat_lt.2 ?_, hcount⟩
  rw [hcount]
  show n < 32
  omega

/-- The header of a report is accepted together with its count of blocks. -/
theorem reports_accepted {raw : List UInt8} {type : RtcpType} {body : List UInt8} {n : ℕ}
    (name : String) (minBody : ℕ)
    (hraw : raw = rtcpHeader (UInt8.ofNat n) type (minBody + n * kReportBlockSize) ++ body)
    (hlen : raw.length = minBody + n * kReportBlockSize) (hcount : n ≤ 31)
    (hwords : minBody % 4 = 0) (hmin : minBody ≤ 2 ^ 16) :
    ∃ h : RtcpHeaderInfo, parseRtcpHeader raw type minBody = .ok h
      ∧ checkReports name raw minBody h = .ok () ∧ h.rcOrFmt.toNat = n := by
  obtain ⟨hrc, hrcNat⟩ := count_fits hcount
  have hblocks : n * kReportBlockSize = 4 * (n * 6) := by
    rw [kReportBlockSize]
    omega
  refine ⟨_, parseRtcpHeader_build hraw hlen hrc (by omega) (by omega) (Nat.le_add_right _ _), ?_,
    hrcNat⟩
  rw [checkReports, reportsNeed, hrcNat, if_neg, if_neg (by omega), if_neg (by omega)]
  rw [UInt8.lt_iff_toNat_lt, hrcNat]
  show ¬ 31 < n
  omega

/-! ### Sender reports -/

theorem beBytes_ntp (v : UInt64) :
    beBytes 8 v.toNat = beBytes 4 (v >>> 32).toUInt32.toNat ++ beBytes 4 v.toUInt32.toNat := by
  have hhigh : (v >>> 32).toUInt32.toNat = v.toNat / 256 ^ 4 % 256 ^ 4 := by
    simp [Nat.shiftRight_eq_div_pow]
  have hlow : v.toUInt32.toNat = v.toNat % 256 ^ 4 := by simp
  rw [hhigh, hlow, beBytes_mod _ 4 (le_refl _), beBytes_mod _ 4 (le_refl _),
    ← beBytes_add 4 v.toNat 4]

theorem ntp_halves (v : UInt64) :
    (v >>> 32).toUInt32.toUInt64 <<< 32 ||| v.toUInt32.toUInt64 = v := by
  apply UInt64.toNat_inj.1
  have hv := v.toNat_lt
  have hhigh : ((v >>> 32).toUInt32.toUInt64 <<< 32).toNat = (v.toNat / 2 ^ 32) <<< 32 := by
    simp [Nat.shiftRight_eq_div_pow, Nat.shiftLeft_eq]
    omega
  have hlow : v.toUInt32.toUInt64.toNat = v.toNat % 2 ^ 32 := by simp
  rw [UInt64.toNat_or, hhigh, hlow, ← Nat.shiftLeft_add_eq_or_of_lt (by omega), Nat.shiftLeft_eq]
  omega

namespace SrBuilder

theorem parse_report (b : SrBuilder) (hcount : b.reportBlocks.length ≤ 31)
    (hlost : ∀ rb ∈ b.reportBlocks, rb.LostFits) : parseSr b.build = .ok b.toSenderReport := by
  let header := rtcpHeader (UInt8.ofNat b.reportBlocks.length) .sr b.computeSize
  let ntp := header ++ beBytes 4 b.ssrc.toNat
  let low := ntp ++ beBytes 4 (b.ntpTimestamp >>> 32).toUInt32.toNat
  let rtp := low ++ beBytes 4 b.ntpTimestamp.toUInt32.toNat
  let packets := rtp ++ beBytes 4 b.rtpTimestamp.toNat
  let octets := packets ++ beBytes 4 b.senderPacketCount.toNat
  let fixed := octets ++ beBytes 4 b.senderOctetCount.toNat
  let blocks := b.reportBlocks.flatMap serialiseReportBlock
  have hheader : header.length = kRtcpHeaderSize := length_rtcpHeader _ _ _
  have hfixed : fixed.length = kSrBody := by
    simp [fixed, octets, packets, rtp, low, ntp, hheader, kSrBody]
  have hbuild : b.build = fixed ++ blocks := by
    rw [build, beBytes_ntp]
    simp only [fixed, octets, packets, rtp, low, ntp, header, blocks, List.append_assoc]
  have hblocks : blocks.length = b.reportBlocks.length * kReportBlockSize :=
    length_flatMap_of_length length_serialiseReportBlock _
  have hlength : b.build.length = b.computeSize := by
    rw [hbuild, List.length_append, hfixed, hblocks]
    rfl
  -- the report, cut before each of its numbers
  have hoctets : b.build = octets ++ (beBytes 4 b.senderOctetCount.toNat ++ blocks) := by
    rw [hbuild, List.append_assoc]
  have hpackets := hoctets.trans
    (List.append_assoc packets (beBytes 4 b.senderPacketCount.toNat) _)
  have hrtp := hpackets.trans (List.append_assoc rtp (beBytes 4 b.rtpTimestamp.toNat) _)
  have hlow := hrtp.trans (List.append_assoc low (beBytes 4 b.ntpTimestamp.toUInt32.toNat) _)
  have hntp := hlow.trans
    (List.append_assoc ntp (beBytes 4 (b.ntpTimestamp >>> 32).toUInt32.toNat) _)
  have hssrc := hntp.trans (List.append_assoc header (beBytes 4 b.ssrc.toNat) _)
  obtain ⟨h, hparsed, hcheck, hrc⟩ := reports_accepted "SR" kSrBody hssrc hlength hcount
    (by simp [kSrBody, kRtcpHeaderSize]) (by simp [kSrBody, kRtcpHeaderSize])
  have hread : parseReportBlocks b.build kSrBody b.reportBlocks.length = b.reportBlocks := by
    rw [hbuild, ← hfixed]
    exact parseReportBlocks_serialise fixed hlost
  simp only [parseSr, bind, Except.bind, pure, Except.pure, hparsed, hcheck, hrc, hread]
  rw [readBe32_between header hssrc hheader,
    readBe32_between ntp hntp (by simp [ntp, hheader]),
    readBe32_between low hlow (by simp [low, ntp, hheader]),
    readBe32_between rtp hrtp (by simp [rtp, low, ntp, hheader]),
    readBe32_between packets hpackets (by simp [packets, rtp, low, ntp, hheader]),
    readBe32_between octets hoctets
      (by simp [octets, packets, rtp, low, ntp, hheader]),
    ntp_halves]

theorem reportBlocks_foldl (ops : List SrSetter) :
    (ops.foldl apply {}).reportBlocks = (ops.filterMap SrSetter.block).take 31 :=
  blocks_kept apply (·.reportBlocks) SrSetter.block (fun b op => by cases op <;> rfl) ops {} (Nat.zero_le _)

theorem toSenderReport_foldl (ops : List SrSetter) :
    (ops.foldl apply {}).toSenderReport = .ofCalls ops := by
  ext1
  · exact foldl_lastSet apply (·.ssrc) SrSetter.ssrc (fun b op => by cases op <;> rfl) ops {}
  · exact foldl_lastSet apply (·.ntpTimestamp) SrSetter.ntpTimestamp
      (fun b op => by cases op <;> rfl) ops {}
  · exact foldl_lastSet apply (·.rtpTimestamp) SrSetter.rtpTimestamp
      (fun b op => by cases op <;> rfl) ops {}
  · exact foldl_lastSet apply (·.senderPacketCount) SrSetter.senderPacketCount
      (fun b op => by cases op <;> rfl) ops {}
  · exact foldl_lastSet apply (·.senderOctetCount) SrSetter.senderOctetCount
      (fun b op => by cases op <;> rfl) ops {}
  · exact reportBlocks_foldl ops

end SrBuilder

/-! ### Receiver reports -/

namespace RrBuilder

theorem parse_report (b : RrBuilder) (hcount : b.reportBlocks.length ≤ 31)
    (hlost : ∀ rb ∈ b.reportBlocks, rb.LostFits) : parseRr b.build = .ok b.toReceiverReport := by
  let header := rtcpHeader (UInt8.ofNat b.reportBlocks.length) .rr b.computeSize
  let fixed := header ++ beBytes 4 b.ssrc.toNat
  let blocks := b.reportBlocks.flatMap serialiseReportBlock
  have hheader : header.length = kRtcpHeaderSize := length_rtcpHeader _ _ _
  have hfixed : fixed.length = kRrBody := by
    simp [fixed, hheader, kRrBody]
  have hbuild : b.build = fixed ++ blocks := rfl
  have hssrc : b.build = header ++ (beBytes 4 b.ssrc.toNat ++ blocks) := by
    rw [hbuild, List.append_assoc]
  have hblocks : blocks.length = b.reportBlocks.length * kReportBlockSize :=
    length_flatMap_of_length length_serialiseReportBlock _
  have hlength : b.build.length = b.computeSize := by
    rw [hbuild, List.length_append, hfixed, hblocks]
    rfl
  obtain ⟨h, hparsed, hcheck, hrc⟩ := reports_accepted "RR" kRrBody hssrc hlength hcount
    (by simp [kRrBody, kRtcpHeaderSize]) (by simp [kRrBody, kRtcpHeaderSize])
  have hread : parseReportBlocks b.build kRrBody b.reportBlocks.length = b.reportBlocks := by
    rw [hbuild, ← hfixed]
    exact parseReportBlocks_serialise fixed hlost
  simp only [parseRr, bind, Except.bind, pure, Except.pure, hparsed, hcheck, hrc, hread]
  rw [readBe32_between header hssrc hheader]

theorem reportBlocks_foldl (ops : List RrSetter) :
    (ops.foldl apply {}).reportBlocks = (ops.filterMap RrSetter.block).take 31 :=
  blocks_kept apply (·.reportBlocks) RrSetter.block (fun b op => by cases op <;> rfl) ops {} (Nat.zero_le _)

theorem toReceiverReport_foldl (ops : List RrSetter) :
    (ops.foldl apply {}).toReceiverReport = .ofCalls ops := by
  ext1
  · exact foldl_lastSet apply (·.ssrc) RrSetter.ssrc (fun b op => by cases op <;> rfl) ops {}
  · exact reportBlocks_foldl ops

end RrBuilder

/-! ### NACKs -/

namespace NackBuilder

def entryBytes (e : NackEntry) : List UInt8 := beBytes 2 e.packetId.toNat ++ beBytes 2 e.blp.toNat

theorem length_entryBytes (e : NackEntry) : (entryBytes e).length = kNackFciSize := by
  simp [entryBytes, kNackFciSize]

def entryAt (raw : List UInt8) (off : ℕ) : NackEntry := ⟨readBe16 raw off, readBe16 raw (off + 2)⟩

theorem entryAt_entryBytes (pre : List UInt8) (e : NackEntry) (post : List UInt8) :
    entryAt (pre ++ (entryBytes e ++ post)) pre.length = e := by
  have hid : pre ++ (entryBytes e ++ post)
      = pre ++ (beBytes 2 e.packetId.toNat ++ (beBytes 2 e.blp.toNat ++ post)) := by
    rw [entryBytes, List.append_assoc]
  have hblp : pre ++ (entryBytes e ++ post)
      = (pre ++ beBytes 2 e.packetId.toNat) ++ (beBytes 2 e.blp.toNat ++ post) := by
    rw [hid, List.append_assoc]
  have hreadId : readBe16 (pre ++ (entryBytes e ++ post)) pre.length = e.packetId := by
    rw [hid, readBe16_append _ rfl e.packetId.toNat_lt, UInt16.ofNat_toNat]
  have hreadBlp : readBe16 (pre ++ (entryBytes e ++ post)) (pre.length + 2) = e.blp := by
    rw [hblp, readBe16_append _ (by simp) e.blp.toNat_lt, UInt16.ofNat_toNat]
  rw [entryAt, hreadId, hreadBlp]

theorem parse_report (b : NackBuilder) (hcount : b.entries.length ≤ 65532) :
    parseNack b.build = .ok b.toNackPacket := by
  let header := rtcpHeader kGenericNack .rtpfb b.computeSize
  let media := header ++ beBytes 4 b.senderSsrc.toNat
  let fixed := media ++ beBytes 4 b.mediaSsrc.toNat
  let fci := b.entries.flatMap entryBytes
  have hheader : header.length = kRtcpHeaderSize := length_rtcpHeader _ _ _
  have hfixed : fixed.length = kNackBody := by
    simp [fixed, media, hheader, kNackBody]
  have hfci : fci.length = b.entries.length * kNackFciSize :=
    length_flatMap_of_length length_entryBytes _
  have hbuild : b.build = fixed ++ fci := rfl
  have hmedia : b.build = media ++ (beBytes 4 b.mediaSsrc.toNat ++ fci) := by
    rw [hbuild, List.append_assoc]
  have hsender := hmedia.trans (List.append_assoc header (beBytes 4 b.senderSsrc.toNat) _)
  have hlength : b.build.length = b.computeSize := by
    rw [hbuild, List.length_append, hfixed, hfci]
    rfl
  have hsize : b.computeSize = kNackBody + b.entries.length * kNackFciSize := rfl
  have hparsed : parseRtcpHeader b.build .rtpfb kNackBody = .ok {
      rcOrFmt := kGenericNack
      lengthWords := UInt16.ofNat (b.computeSize / 4 - 1) } := by
    refine parseRtcpHeader_build hsender hlength (by decide) ?_ ?_ ?_ <;>
      rw [hsize, kNackBody, kRtcpHeaderSize, kNackFciSize] <;> omega
  have hread : (List.range b.entries.length).map
      (fun i => entryAt b.build (kNackBody + i * kNackFciSize)) = b.entries := by
    have hentries := decode_flatMap (g := id) (P := fun _ => True) length_entryBytes
      (fun pre e post _ => entryAt_entryBytes pre e post) [] b.entries fixed (fun _ _ => trivial)
    rwa [List.append_nil, List.map_id, hfixed] at hentries
  have hbytes : b.build.length - kNackBody = b.entries.length * kNackFciSize := by
    rw [hlength, hsize, Nat.add_sub_cancel_left]
  simp only [entryAt] at hread
  simp only [parseNack, bind, Except.bind, pure, Except.pure, hparsed, hbytes, Nat.mul_mod_left,
    ne_eq, not_true_eq_false, if_false, Nat.mul_div_cancel _ (show 0 < kNackFciSize by decide),
    hread, readBe32_between header hsender hheader,
    readBe32_between media hmedia (show _ = kRtcpHeaderSize + 4 by simp [media, hheader])]
  rw [if_neg]
  rw [hlength, hsize]
  omega

theorem entries_foldl (ops : List NackSetter) (b : NackBuilder) :
    (ops.foldl apply b).entries = b.entries ++ ops.filterMap NackSetter.entry := by
  induction ops generalizing b with
  | nil => simp
  | cons op ops ih =>
    rw [List.foldl_cons, ih]
    cases op <;> simp [apply, NackSetter.entry, List.filterMap_cons]

theorem toNackPacket_foldl (ops : List NackSetter) :
    (ops.foldl apply {}).toNackPacket = .ofCalls ops := by
  ext1
  · exact foldl_lastSet apply (·.senderSsrc) NackSetter.senderSsrc
      (fun b op => by cases op <;> rfl) ops {}
  · exact foldl_lastSet apply (·.mediaSsrc) NackSetter.mediaSsrc
      (fun b op => by cases op <;> rfl) ops {}
  · exact (entries_foldl ops {}).trans (List.nil_append _)

end NackBuilder

/-! ### The round trip -/

/-- Whatever calls made a report or a NACK, it is parsed back with the values that were set last: a
report with the first 31 of its blocks, a NACK with all its entries. -/
theorem parse_build_reports :
    (∀ ops : List SrSetter, (∀ rb ∈ ops.filterMap SrSetter.block, rb.LostFits) →
      parseSr (ops.foldl SrBuilder.apply {}).build = .ok (.ofCalls ops))
    ∧ (∀ ops : List RrSetter, (∀ rb ∈ ops.filterMap RrSetter.block, rb.LostFits) →
      parseRr (ops.foldl RrBuilder.apply {}).build = .ok (.ofCalls ops))
    ∧ ∀ ops : List NackSetter, (ops.filterMap NackSetter.entry).length ≤ 65532 →
      parseNack (ops.foldl NackBuilder.apply {}).build = .ok (.ofCalls ops) := by
  refine ⟨fun ops hlost => ?_, fun ops hlost => ?_, fun ops hcount => ?_⟩
  · have hblocks := SrBuilder.reportBlocks_foldl ops
    rw [← SrBuilder.toSenderReport_foldl]
    refine SrBuilder.parse_report _ ?_ fun rb hrb => hlost rb ?_
    · rw [hblocks, List.length_take]
      exact min_le_left _ _
    · rw [hblocks] at hrb
      exact List.mem_of_mem_take hrb
  · have hblocks := RrBuilder.reportBlocks_foldl ops
    rw [← RrBuilder.toReceiverReport_foldl]
    refine RrBuilder.parse_report _ ?_ fun rb hrb => hlost rb ?_
    · rw [hblocks, List.length_take]
      exact min_le_left _ _
    · rw [hblocks] at hrb
      exact List.mem_of_mem_take hrb
  · have hentries := (NackBuilder.entries_foldl ops {}).trans (List.nil_append _)
    rw [← NackBuilder.toNackPacket_foldl]
    refine NackBuilder.parse_report _ ?_
    rw [hentries]
    exact hcount

theorem parse_build_reports_sample :
    parseSr ([SrSetter.setNtpTimestamp 5, .setNtpTimestamp 0x0123456789ABCDEF,
        .addReportBlock { ssrc := 7, cumulativePacketsLost := -3 }].foldl SrBuilder.apply {}).build
      = .ok {
          ntpTimestamp := 0x0123456789ABCDEF
          reportBlocks := [{ ssrc := 7, cumulativePacketsLost := -3 }] }
    ∧ parseRr ([RrSetter.setSsrc 9, .addReportBlock { fractionLost := 255 }].foldl
        RrBuilder.apply {}).build
      = .ok { ssrc := 9, reportBlocks := [{ fractionLost := 255 }] }
    ∧ parseNack ([NackSetter.addEntry 65535 3].foldl NackBuilder.apply {}).build
      = .ok { entries := [⟨65535, 3⟩] } := by
  refine ⟨parse_build_reports.1 _ ?_, parse_build_reports.2.1 _ ?_, parse_build_reports.2.2 _ ?_⟩ <;>
    simp [SrSetter.block, RrSetter.block, NackSetter.entry, ReportBlock.LostFits]

end NimRtc.Rtp
