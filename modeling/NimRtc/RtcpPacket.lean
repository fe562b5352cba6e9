import NimRtc.RtpPacket

/-!
# RTCP packets

`SrBuilder`, `RrBuilder` and `NackBuilder` of `builder.cpp`, and `parse_sr`, `parse_rr`, `parse_nack`
and `parse_transport_cc` of `parser.cpp`. The parsers are given the bytes from the start of a packet
on. The length field counts the words of the packet without the first one.
-/

namespace NimRtc.Rtp

/-- The packet types read here. -/
inductive RtcpType
  | sr
  | rr
  | rtpfb
  deriving DecidableEq, Repr

/-- The payload type a kind of packet is sent under. -/
def RtcpType.code : RtcpType → UInt8
  | .sr => 200
  | .rr => 201
  | .rtpfb => 205

def kRtcpHeaderSize : ℕ := 4

def kReportBlockSize : ℕ := 24

def kNackFciSize : ℕ := 4

def kGenericNack : UInt8 := 1

/-- `cumulativePacketsLost` is sent in 24 bits. -/
structure ReportBlock where
  ssrc : UInt32 := 0
  fractionLost : UInt8 := 0
  cumulativePacketsLost : ℤ := 0
  extendedHighestSeq : UInt32 := 0
  interarrivalJitter : UInt32 := 0
  lastSrNtp : UInt32 := 0
  delaySinceLastSr : UInt32 := 0
  deriving DecidableEq, Repr

/-- What `parse_sr` reads of an SR. -/
@[ext]
structure SenderReport where
  ssrc : UInt32 := 0
  ntpTimestamp : UInt64 := 0
  rtpTimestamp : UInt32 := 0
  senderPacketCount : UInt32 := 0
  senderOctetCount : UInt32 := 0
  reportBlocks : List ReportBlock := []
  deriving DecidableEq, Repr

/-- What `parse_rr` reads of an RR. -/
@[ext]
structure ReceiverReport where
  ssrc : UInt32 := 0
  reportBlocks : List ReportBlock := []
  deriving DecidableEq, Repr

/-- One generic NACK entry: a packet id and the bitmask of the 16 ids after it. -/
structure NackEntry where
  packetId : UInt16
  blp : UInt16
  deriving DecidableEq, Repr

/-- What `parse_nack` reads of a NACK. -/
@[ext]
structure NackPacket where
  senderSsrc : UInt32 := 0
  mediaSsrc : UInt32 := 0
  entries : List NackEntry := []
  deriving DecidableEq, Repr

/-! ### Building -/

/-- Version 2, the padding bit and the count or format. -/
def rtcpByte0 (padding rcOrFmt : UInt8) : UInt8 :=
  (2 : UInt8) <<< 6 ||| (padding &&& 1) <<< 5 ||| (rcOrFmt &&& 0x1F)

/-- The common header; its length field counts 32-bit words less one. -/
def rtcpHeader (rcOrFmt : UInt8) (type : RtcpType) (size : ℕ) : List UInt8 :=
  [rtcpByte0 0 rcOrFmt, type.code] ++ beBytes 2 ((size / 4 - 1) % 2 ^ 16)

/-- The 24 bytes of one report block; the cumulative loss is cut to 24 bits. -/
def serialiseReportBlock (rb : ReportBlock) : List UInt8 :=
  beBytes 4 rb.ssrc.toNat ++ [rb.fractionLost]
    ++ beBytes 3 (rb.cumulativePacketsLost % 2 ^ 24).toNat
    ++ beBytes 4 rb.extendedHighestSeq.toNat ++ beBytes 4 rb.interarrivalJitter.toNat
    ++ beBytes 4 rb.lastSrNtp.toNat ++ beBytes 4 rb.delaySinceLastSr.toNat

/-- `add_report_block`: there are at most 31. -/
def addReportBlock (blocks : List ReportBlock) (rb : ReportBlock) : List ReportBlock :=
  if 31 ≤ blocks.length then blocks else blocks ++ [rb]

/-- What the last of the calls that set a field sets it to, `d` if none does. -/
def lastSet {σ α : Type*} (field : σ → Option α) (d : α) (ops : List σ) : α :=
  (ops.filterMap field).getLast?.getD d

/-- The fields of a builder are those of the packet it builds. -/
structure SrBuilder extends SenderReport

/-- A scalar setter of `SrBuilder`, with its argument. -/
inductive SrSetter
  | setSsrc (v : UInt32)
  | setNtpTimestamp (v : UInt64)
  | setRtpTimestamp (v : UInt32)
  | setSenderPacketCount (v : UInt32)
  | setSenderOctetCount (v : UInt32)
  | addReportBlock (rb : ReportBlock)

namespace SrSetter

/-- The report block that a call offers. -/
def block : SrSetter → Option ReportBlock
  | .addReportBlock rb => some rb
  | _ => none

/-- The argument of a `set_ssrc` call. -/
def ssrc : SrSetter → Option UInt32
  | .setSsrc v => some v
  | _ => none

/-- The argument of a `set_ntp_timestamp` call. -/
def ntpTimestamp : SrSetter → Option UInt64
  | .setNtpTimestamp v => some v
  | _ => none

/-- The argument of a `set_rtp_timestamp` call. -/
def rtpTimestamp : SrSetter → Option UInt32
  | .setRtpTimestamp v => some v
  | _ => none

/-- The argument of a `set_sender_packet_count` call. -/
def senderPacketCount : SrSetter → Option UInt32
  | .setSenderPacketCount v => some v
  | _ => none

/-- The argument of a `set_sender_octet_count` call. -/
def senderOctetCount : SrSetter → Option UInt32
  | .setSenderOctetCount v => some v
  | _ => none

end SrSetter

/-- What a list of calls describes: the values that were set last, and the first 31 blocks. -/
def SenderReport.ofCalls (ops : List SrSetter) : SenderReport where
  ssrc := lastSet SrSetter.ssrc 0 ops
  ntpTimestamp := lastSet SrSetter.ntpTimestamp 0 ops
  rtpTimestamp := lastSet SrSetter.rtpTimestamp 0 ops
  senderPacketCount := lastSet SrSetter.senderPacketCount 0 ops
  senderOctetCount := lastSet SrSetter.senderOctetCount 0 ops
  reportBlocks := (ops.filterMap SrSetter.block).take 31

namespace SrBuilder

/-- What one setter does to the builder. -/
def apply (b : SrBuilder) : SrSetter → SrBuilder
  | .setSsrc v => { b with ssrc := v }
  | .setNtpTimestamp v => { b with ntpTimestamp := v }
  | .setRtpTimestamp v => { b with rtpTimestamp := v }
  | .setSenderPacketCount v => { b with senderPacketCount := v }
  | .setSenderOctetCount v => { b with senderOctetCount := v }
  | .addReportBlock rb => { b with reportBlocks := Rtp.addReportBlock b.reportBlocks rb }

/-- `SrBuilder::compute_size` -/
def computeSize (b : SrBuilder) : ℕ :=
  kRtcpHeaderSize + 4 + 20 + b.reportBlocks.length * kReportBlockSize

/-- `SrBuilder::build` -/
def build (b : SrBuilder) : List UInt8 :=
  rtcpHeader (UInt8.ofNat b.reportBlocks.length) .sr b.computeSize
    ++ beBytes 4 b.ssrc.toNat ++ beBytes 8 b.ntpTimestamp.toNat ++ beBytes 4 b.rtpTimestamp.toNat
    ++ beBytes 4 b.senderPacketCount.toNat ++ beBytes 4 b.senderOctetCount.toNat
    ++ b.reportBlocks.flatMap serialiseReportBlock

end SrBuilder

/-- `RrBuilder`: the report it is given so far. -/
structure RrBuilder extends ReceiverReport

/-- A call on `RrBuilder`, with its arguments. -/
inductive RrSetter
  | setSsrc (v : UInt32)
  | addReportBlock (rb : ReportBlock)

namespace RrSetter

/-- The report block of an `add_report_block` call. -/
def block : RrSetter → Option ReportBlock
  | .addReportBlock rb => some rb
  | .setSsrc _ => none

/-- The argument of a `set_ssrc` call. -/
def ssrc : RrSetter → Option UInt32
  | .setSsrc v => some v
  | .addReportBlock _ => none

end RrSetter

/-- The report the calls describe: the last SSRC and the first 31 blocks. -/
def ReceiverReport.ofCalls (ops : List RrSetter) : ReceiverReport where
  ssrc := lastSet RrSetter.ssrc 0 ops
  reportBlocks := (ops.filterMap RrSetter.block).take 31

namespace RrBuilder

/-- What one call does to the builder. -/
def apply (b : RrBuilder) : RrSetter → RrBuilder
  | .setSsrc v => { b with ssrc := v }
  | .addReportBlock rb => { b with reportBlocks := Rtp.addReportBlock b.reportBlocks rb }

/-- `RrBuilder::compute_size` -/
def computeSize (b : RrBuilder) : ℕ :=
  kRtcpHeaderSize + 4 + b.reportBlocks.length * kReportBlockSize

/-- `RrBuilder::build` -/
def build (b : RrBuilder) : List UInt8 :=
  rtcpHeader (UInt8.ofNat b.reportBlocks.length) .rr b.computeSize ++ beBytes 4 b.ssrc.toNat
    ++ b.reportBlocks.flatMap serialiseReportBlock

end RrBuilder

/-- `NackBuilder`: the packet it is given so far. -/
structure NackBuilder extends NackPacket

/-- A call on `NackBuilder`, with its arguments. -/
inductive NackSetter
  | setSenderSsrc (v : UInt32)
  | setMediaSsrc (v : UInt32)
  | addEntry (pid blp : UInt16)

namespace NackSetter

/-- The entry of an `add_entry` call. -/
def entry : NackSetter → Option NackEntry
  | .addEntry pid blp => some ⟨pid, blp⟩
  | _ => none

/-- The argument of a `set_sender_ssrc` call. -/
def senderSsrc : NackSetter → Option UInt32
  | .setSenderSsrc v => some v
  | _ => none

/-- The argument of a `set_media_ssrc` call. -/
def mediaSsrc : NackSetter → Option UInt32
  | .setMediaSsrc v => some v
  | _ => none

end NackSetter

/-- The NACK the calls describe: the last SSRCs and every entry. -/
def NackPacket.ofCalls (ops : List NackSetter) : NackPacket where
  senderSsrc := lastSet NackSetter.senderSsrc 0 ops
  mediaSsrc := lastSet NackSetter.mediaSsrc 0 ops
  entries := ops.filterMap NackSetter.entry

namespace NackBuilder

/-- What one call does to the builder. -/
def apply (b : NackBuilder) : NackSetter → NackBuilder
  | .setSenderSsrc v => { b with senderSsrc := v }
  | .setMediaSsrc v => { b with mediaSsrc := v }
  | .addEntry pid blp => { b with entries := b.entries ++ [⟨pid, blp⟩] }

/-- `NackBuilder::compute_size` -/
def computeSize (b : NackBuilder) : ℕ := kRtcpHeaderSize + 8 + b.entries.length * kNackFciSize

/-- `NackBuilder::build` -/
def build (b : NackBuilder) : List UInt8 :=
  rtcpHeader kGenericNack .rtpfb b.computeSize ++ beBytes 4 b.senderSsrc.toNat
    ++ beBytes 4 b.mediaSsrc.toNat
    ++ b.entries.flatMap fun e => beBytes 2 e.packetId.toNat ++ beBytes 2 e.blp.toNat

end NackBuilder

/-! ### Parsing -/

/-- What the sub-parsers keep of the common header. -/
structure RtcpHeaderInfo where
  rcOrFmt : UInt8
  lengthWords : UInt16
  deriving DecidableEq, Repr

/-- The bytes that the length field declares. -/
def RtcpHeaderInfo.totalBytes (h : RtcpHeaderInfo) : ℕ := (h.lengthWords.toNat + 1) * 4

/-- `parse_rtcp_header` -/
def parseRtcpHeader (raw : List UInt8) (expectedPt : RtcpType) (minBody : ℕ) :
    Except RtpError RtcpHeaderInfo :=
  if raw.length < kRtcpHeaderSize then
    .error (protocolError ("RTCP packet too small: " ++ toString raw.length ++ " < 4 bytes header"))
  else
    let b0 := raw.getD 0 0
    let version := (b0 >>> 6) &&& 0x03
    let payloadType := raw.getD 1 0
    let h : RtcpHeaderInfo := { rcOrFmt := b0 &&& 0x1F, lengthWords := readBe16 raw 2 }
    if version ≠ 2 then
      .error (protocolError ("RTCP version != 2: got " ++ toString version))
    else if payloadType ≠ expectedPt.code then
      .error (protocolError ("RTCP payload type mismatch: expected " ++ toString expectedPt.code
        ++ ", got " ++ toString payloadType))
    else if raw.length < h.totalBytes then
      .error (protocolError ("RTCP length field exceeds packet size: length_words="
        ++ toString h.lengthWords ++ " (=" ++ toString h.totalBytes ++ "B), packet="
        ++ toString raw.length ++ "B"))
    else if h.totalBytes < minBody then
      .error (protocolError ("RTCP length field shorter than minimum body: length_bytes="
        ++ toString h.totalBytes ++ ", min=" ++ toString minBody))
    else .ok h

/-- The two's complement reading of a `bits`-bit number. -/
def signExtend (bits x : ℕ) : ℤ := if 2 ^ (bits - 1) ≤ x then (x : ℤ) - 2 ^ bits else x

/-- One report block at `off`. -/
def parseReportBlock (raw : List UInt8) (off : ℕ) : ReportBlock where
  ssrc := readBe32 raw off
  fractionLost := raw.getD (off + 4) 0
  cumulativePacketsLost := signExtend 24 (beNat ((raw.drop (off + 5)).take 3))
  extendedHighestSeq := readBe32 raw (off + 8)
  interarrivalJitter := readBe32 raw (off + 12)
  lastSrNtp := readBe32 raw (off + 16)
  delaySinceLastSr := readBe32 raw (off + 20)

/-- The `rc` report blocks from `off` on. -/
def parseReportBlocks (raw : List UInt8) (off rc : ℕ) : List ReportBlock :=
  (List.range rc).map fun i => parseReportBlock raw (off + i * kReportBlockSize)

/-- Bytes of an SR before its report blocks. -/
def kSrBody : ℕ := kRtcpHeaderSize + 4 + 20

/-- Bytes of an RR before its report blocks. -/
def kRrBody : ℕ := kRtcpHeaderSize + 4

/-- Bytes of a NACK before its entries. -/
def kNackBody : ℕ := kRtcpHeaderSize + 8

/-- Bytes of a transport-cc feedback before its chunks. -/
def kTransportCcBody : ℕ := kRtcpHeaderSize + 16

/-- The bytes that the report blocks go up to. -/
def reportsNeed (body : ℕ) (h : RtcpHeaderInfo) : ℕ := body + h.rcOrFmt.toNat * kReportBlockSize

/-- The checks that `parse_sr` and `parse_rr` make after the header, under their own names. -/
def checkReports (name : String) (raw : List UInt8) (body : ℕ) (h : RtcpHeaderInfo) :
    Except RtpError Unit :=
  if 31 < h.rcOrFmt then
    .error (protocolError ("RTCP " ++ name ++ " RC out of range: " ++ toString h.rcOrFmt))
  else if raw.length < body then
    .error (protocolError ("RTCP " ++ name ++ " body truncated: " ++ toString raw.length))
  else if raw.length < reportsNeed body h then
    .error (protocolError ("RTCP " ++ name ++ " report-blocks truncated: need "
      ++ toString (reportsNeed body h) ++ "B, got " ++ toString raw.length ++ "B"))
  else .ok ()

/-- `parse_sr` -/
def parseSr (raw : List UInt8) : Except RtpError SenderReport := do
  let h ← parseRtcpHeader raw .sr kSrBody
  checkReports "SR" raw kSrBody h
  return {
    ssrc := readBe32 raw kRtcpHeaderSize
    ntpTimestamp :=
      (readBe32 raw (kRtcpHeaderSize + 4)).toUInt64 <<< 32
        ||| (readBe32 raw (kRtcpHeaderSize + 8)).toUInt64
    rtpTimestamp := readBe32 raw (kRtcpHeaderSize + 12)
    senderPacketCount := readBe32 raw (kRtcpHeaderSize + 16)
    senderOctetCount := readBe32 raw (kRtcpHeaderSize + 20)
    reportBlocks := parseReportBlocks raw kSrBody h.rcOrFmt.toNat }

/-- `parse_rr` -/
def parseRr (raw : List UInt8) : Except RtpError ReceiverReport := do
  let h ← parseRtcpHeader raw .rr kRrBody
  checkReports "RR" raw kRrBody h
  return {
    ssrc := readBe32 raw kRtcpHeaderSize
    reportBlocks := parseReportBlocks raw kRrBody h.rcOrFmt.toNat }

/-- `parse_nack` -/
def parseNack (raw : List UInt8) : Except RtpError NackPacket := do
  let h ← parseRtcpHeader raw .rtpfb kNackBody
  if h.rcOrFmt ≠ kGenericNack then
    .error (protocolError ("RTCP RTPFB FMT != 1 (GenericNACK): got " ++ toString h.rcOrFmt))
  else if raw.length < kNackBody then
    .error (protocolError ("RTCP NACK body truncated: " ++ toString raw.length))
  else
    let fciBytes := raw.length - kNackBody
    if fciBytes % kNackFciSize ≠ 0 then
      .error (protocolError ("RTCP NACK FCI not 4-byte aligned: " ++ toString fciBytes ++ " bytes"))
    else
      return {
        senderSsrc := readBe32 raw kRtcpHeaderSize
        mediaSsrc := readBe32 raw (kRtcpHeaderSize + 4)
        entries := (List.range (fciBytes / kNackFciSize)).map fun i =>
          ⟨readBe16 raw (kNackBody + i * kNackFciSize),
            readBe16 raw (kNackBody + i * kNackFciSize + 2)⟩ }

/-! ### Transport-wide feedback -/

/-- `reserved` is the value 3 of two bits, which the source leaves unnamed. -/
inductive PacketStatus
  | notReceived
  | received
  | receivedSmall
  | reserved
  deriving DecidableEq, Repr

/-- The status a two-bit symbol stands for. -/
def PacketStatus.ofBits : ℕ → PacketStatus
  | 0 => .notReceived
  | 1 => .received
  | 2 => .receivedSmall
  | _ => .reserved

/-- Status of one packet, with its delta in units of 250 µs. -/
structure TransportCcPacketStatus where
  status : PacketStatus
  delta250us : ℤ
  deriving DecidableEq, Repr

/-- What `parse_transport_cc` reads. -/
structure TransportCcFeedback where
  senderSsrc : UInt32
  mediaSsrc : UInt32
  baseSeq : UInt16
  packetStatusCount : UInt16
  referenceTime24mhz : ℕ
  packets : List TransportCcPacketStatus
  deriving DecidableEq, Repr

/-- The symbols of `symBits` bits in a byte, from the most significant on. -/
def symbolsIn (symBits : ℕ) (byte : UInt8) : List PacketStatus :=
  (List.range (8 / symBits)).map fun i =>
    .ofBits (byte.toNat / 2 ^ (8 - symBits * (i + 1)) % 2 ^ symBits)

/-- The next symbols and the bytes after them. -/
def readSymbols (symBits : ℕ) : ℕ → List UInt8 → List PacketStatus × List UInt8
  | 0, bytes => ([], bytes)
  | _ + 1, [] => ([], [])
  | n + 1, byte :: bytes =>
    let later := readSymbols symBits (n + 1 - 8 / symBits) bytes
    ((symbolsIn symBits byte).take (n + 1) ++ later.1, later.2)

/-- The inner loop over `bits_left` and `acc`: at least 14 bits, where there are as many. -/
def fillBits : List UInt8 → ℕ → ℕ → ℕ × ℕ × List UInt8
  | [], acc, bitsLeft => (acc, bitsLeft, [])
  | byte :: bytes, acc, bitsLeft =>
    if bitsLeft < 14 then fillBits bytes (acc * 256 + byte.toNat) (bitsLeft + 8)
    else (acc, bitsLeft, byte :: bytes)

/-- A delta of 14 bits for each symbol, and the bytes after them. Symbols that the packet was too short
for have none: there is no byte left then, and the source does not use theirs. -/
def readDeltas : List PacketStatus → ℕ → ℕ → List UInt8 → List ℤ × List UInt8
  | [], _, _, bytes => ([], bytes)
  | symbol :: symbols, acc, bitsLeft, bytes =>
    let (acc, bitsLeft, bytes) := fillBits bytes acc bitsLeft
    if bitsLeft < 14 then
      let later := readDeltas symbols acc bitsLeft bytes
      (0 :: later.1, later.2)
    else
      let delta14 := acc / 2 ^ (bitsLeft - 14) % 2 ^ 14
      let later := readDeltas symbols (acc % 2 ^ (bitsLeft - 14)) (bitsLeft - 14) bytes
      ((if symbol = .notReceived then 0 else signExtend 14 delta14) :: later.1, later.2)

/-- What a chunk says of up to `n` packets, and the bytes after it. The run of a run length chunk is
in its low 13 bits. -/
def parseChunk (n word : ℕ) (bytes : List UInt8) :
    List TransportCcPacketStatus × List UInt8 :=
  if word < 2 ^ 15 then
    (List.replicate (min (word % 2 ^ 13) n) ⟨.ofBits (word / 2 ^ 13 % 4), 0⟩, bytes)
  else
    let symbolCount := word % 2 ^ 14
    if word / 2 ^ 14 % 2 = 1 then
      let symbols := readSymbols 2 symbolCount bytes
      let deltas := readDeltas symbols.1 0 0 symbols.2
      ((List.zipWith (⟨·, ·⟩) symbols.1 deltas.1).take n, deltas.2)
    else
      let symbols := readSymbols 1 symbolCount bytes
      ((symbols.1.map (⟨·, 0⟩)).take n, symbols.2)

/-- The loop over the chunks, of which each takes two bytes or more: what they say of up to `n`
packets. -/
def parseChunks : ℕ → ℕ → List UInt8 → List TransportCcPacketStatus
  | fuel + 1, n + 1, hi :: lo :: bytes =>
    let chunk := parseChunk (n + 1) (hi.toNat * 256 + lo.toNat) bytes
    chunk.1 ++ parseChunks fuel (n + 1 - chunk.1.length) chunk.2
  | _, _, _ => []

def kTransportCc : UInt8 := 15

/-- `parse_transport_cc` -/
def parseTransportCc (raw : List UInt8) : Except RtpError TransportCcFeedback := do
  let h ← parseRtcpHeader raw .rtpfb kTransportCcBody
  if h.rcOrFmt ≠ kTransportCc then
    .error (protocolError ("RTCP RTPFB FMT != 15 (transport-cc): got " ++ toString h.rcOrFmt))
  else if raw.length < kTransportCcBody then
    .error (protocolError ("RTCP transport-cc body truncated: " ++ toString raw.length))
  else
    let packetStatusCount := readBe16 raw (kRtcpHeaderSize + 10)
    let chunks := raw.drop kTransportCcBody
    return {
      senderSsrc := readBe32 raw kRtcpHeaderSize
      mediaSsrc := readBe32 raw (kRtcpHeaderSize + 4)
      baseSeq := readBe16 raw (kRtcpHeaderSize + 8)
      packetStatusCount
      referenceTime24mhz := beNat ((raw.drop (kRtcpHeaderSize + 12)).take 3)
      packets := parseChunks chunks.length packetStatusCount.toNat chunks }

/-! ### Packets that are read by themselves -/

/-- The length field counts exactly these bytes. -/
def LengthCovers (raw : List UInt8) : Prop :=
  kRtcpHeaderSize ≤ raw.length ∧ ((readBe16 raw 2).toNat + 1) * 4 = raw.length

/-- The header checks pass. -/
def IsPacket (type : RtcpType) (minBody : ℕ) (raw : List UInt8) : Prop :=
  (raw.getD 0 0 >>> 6) &&& 0x03 = 2 ∧ raw.getD 1 0 = type.code ∧ minBody ≤ raw.length

/-- The low five bits of the first byte: report count or format. -/
def countField (raw : List UInt8) : ℕ := (raw.getD 0 0 &&& 0x1F).toNat

/-- The deltas of received packets are among the first `bits` bits. -/
def DeltasInside : List PacketStatus → ℕ → Prop
  | [], _ => True
  | symbol :: symbols, bits =>
    (symbol ≠ .notReceived → 14 ≤ bits) ∧ DeltasInside symbols (bits - 14)

/-- Bits a symbol takes in the vector chunk `word`. -/
def symBitsOf (word : ℕ) : ℕ := if word / 2 ^ 14 % 2 = 1 then 2 else 1

/-- Bytes `symbolCount` symbols fill. -/
def symbolBytes (symBits symbolCount : ℕ) : ℕ := (symbolCount * symBits + 7) / 8

/-- Bytes the packed 14-bit deltas fill. -/
def deltaBytes (symbolCount : ℕ) : ℕ := (symbolCount * 14 + 7) / 8

/-- The bytes that the symbols and deltas of a chunk take. -/
def chunkEnd (word : ℕ) : ℕ :=
  symbolBytes (symBitsOf word) (word % 2 ^ 14)
    + if symBitsOf word = 2 then deltaBytes (word % 2 ^ 14) else 0

/-- The chunks describe `n` packets within these bytes. Only of the last chunk that is used a part may be
missing: symbols past the `n` packets, and deltas that belong to no received one of them. -/
def ChunksCover : ℕ → ℕ → List UInt8 → Prop
  | _, 0, _ => True
  | fuel + 1, n + 1, hi :: lo :: bytes =>
    let word := hi.toNat * 256 + lo.toNat
    let symbolCount := word % 2 ^ 14
    if word < 2 ^ 15 then ChunksCover fuel (n + 1 - word % 2 ^ 13) bytes
    else if symbolCount < n + 1 then
      chunkEnd word ≤ bytes.length
        ∧ ChunksCover fuel (n + 1 - symbolCount) (bytes.drop (chunkEnd word))
    else
      (n + 1) * symBitsOf word ≤ 8 * bytes.length ∧ (symBitsOf word = 2 →
        DeltasInside ((readSymbols 2 symbolCount bytes).1.take (n + 1))
          (8 * (bytes.length - symbolBytes 2 symbolCount)))
  | _, _ + 1, _ => False

/-- No parser has to look past the packet: the reports fit, it is no NACK, and the chunks describe all
packets. -/
def StaysInside (raw : List UInt8) : Prop :=
  (IsPacket .sr kSrBody raw → kSrBody + countField raw * kReportBlockSize ≤ raw.length)
    ∧ (IsPacket .rr kRrBody raw → kRrBody + countField raw * kReportBlockSize ≤ raw.length)
    ∧ (IsPacket .rtpfb kNackBody raw → countField raw ≠ kGenericNack.toNat)
    ∧ (IsPacket .rtpfb kTransportCcBody raw → countField raw = kTransportCc.toNat →
      ChunksCover (raw.length - kTransportCcBody) (readBe16 raw (kRtcpHeaderSize + 10)).toNat
        (raw.drop kTransportCcBody))

/-- The parsers give for the packet what they give when other bytes follow it, and reports that do not
fit in it are rejected. -/
def ReadAlone (raw : List UInt8) : Prop :=
  (∀ suffix, parseSr (raw ++ suffix) = parseSr raw ∧ parseRr (raw ++ suffix) = parseRr raw
      ∧ parseNack (raw ++ suffix) = parseNack raw
      ∧ parseTransportCc (raw ++ suffix) = parseTransportCc raw)
    ∧ ∀ suffix,
      (raw.length < kSrBody + countField raw * kReportBlockSize →
        ∃ e, parseSr (raw ++ suffix) = .error e)
      ∧ (raw.length < kRrBody + countField raw * kReportBlockSize →
        ∃ e, parseRr (raw ++ suffix) = .error e)

end NimRtc.Rtp
