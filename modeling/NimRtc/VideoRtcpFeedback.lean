import NimRtc.RtcpPacket

/-!
# Video feedback over RTCP

`video_rtcp_feedback.cpp`: the builders and parsers of PLI, FIR, SLI and NACK packets, and the packing
of lost sequence numbers into NACK entries. A builder is given the buffer to write to, and gives the
number of bytes written and the buffer after that.
-/

namespace NimRtc.VideoRtcpFeedback

open Rtp (RtpError protocolError readBe16 readBe32)

def kRtcpHeaderSize : ℕ := 4

def kSsrcBlockSize : ℕ := 8

def kPliPacketSize : ℕ := kRtcpHeaderSize + kSsrcBlockSize

def kNackMinSize : ℕ := kPliPacketSize

/-- Where the entries of a feedback start. -/
def kFciOffset : ℕ := kRtcpHeaderSize + kSsrcBlockSize

def kFirEntrySize : ℕ := 8

def kSliEntrySize : ℕ := 8

def kNackEntrySize : ℕ := 4

def kPsfbPt : UInt8 := 206

def kRtpfbPt : UInt8 := 205

def kFmtPli : UInt8 := 1

def kFmtFir : UInt8 := 4

def kFmtSli : UInt8 := 2

def kFmtNack : UInt8 := 1

/-- `PliPacket` -/
structure PliPacket where
  senderSsrc : UInt32
  mediaSsrc : UInt32
  deriving DecidableEq, Repr

/-- `FirEntry` -/
structure FirEntry where
  ssrc : UInt32
  seqNr : UInt8
  deriving DecidableEq, Repr

/-- `FirPacket` -/
structure FirPacket where
  senderSsrc : UInt32
  entries : List FirEntry
  deriving DecidableEq, Repr

/-- `SliEntry` -/
structure SliEntry where
  first : UInt16
  number : UInt16
  pictureId : UInt32
  deriving DecidableEq, Repr

/-- `SliPacket` -/
structure SliPacket where
  senderSsrc : UInt32
  mediaSsrc : UInt32
  entries : List SliEntry
  deriving DecidableEq, Repr

/-- `NackEntry`: a packet id and the bitmask of the 16 ids after it. -/
structure NackEntry where
  pid : UInt16
  blp : UInt16
  deriving DecidableEq, Repr

/-- `NackPacket` -/
structure NackPacket where
  senderSsrc : UInt32
  mediaSsrc : UInt32
  entries : List NackEntry
  deriving DecidableEq, Repr

/-! ### Headers -/

/-- Version 2 and the format. -/
def rtcpByte0 (fmt : UInt8) : UInt8 := (2 : UInt8) <<< 6 ||| (fmt &&& 0x1F)

/-- The length field: 32-bit words less one. -/
def lengthFromBytes (bytes : ℕ) : ℕ := (bytes / 4 - 1) % 2 ^ 16

/-- The four bytes before the SSRCs. -/
def header (fmt pt : UInt8) (total : ℕ) : List UInt8 :=
  [rtcpByte0 fmt, pt] ++ beBytes 2 (lengthFromBytes total)

/-- What the parsers keep of the header. -/
structure HeaderCheck where
  fmt : UInt8
  lengthWords : UInt16
  deriving DecidableEq, Repr

/-- The bytes the length field stands for. -/
def HeaderCheck.totalBytes (hc : HeaderCheck) : ℕ := (hc.lengthWords.toNat + 1) * 4

/-- The checks all four parsers start with. -/
def parseHeader (expectedPt expectedFmt : UInt8) (input : List UInt8) (minFciBytes : ℕ) :
    Except RtpError HeaderCheck :=
  if input.length < kRtcpHeaderSize then
    .error (protocolError ("video_rtcp_feedback: input smaller than RTCP header ("
      ++ toString input.length ++ " < 4)"))
  else
    let b0 := input.getD 0 0
    let version := (b0 >>> 6) &&& 0x03
    let padding := (b0 >>> 5) &&& 0x01
    let pt := input.getD 1 0
    let hc : HeaderCheck := { fmt := b0 &&& 0x1F, lengthWords := readBe16 input 2 }
    if version ≠ 2 then
      .error (protocolError ("video_rtcp_feedback: RTCP version != 2 (got " ++ toString version
        ++ ")"))
    else if padding ≠ 0 then
      .error (protocolError "video_rtcp_feedback: padded feedback packets not supported")
    else if pt ≠ expectedPt then
      .error (protocolError ("video_rtcp_feedback: wrong RTCP PT (expected " ++ toString expectedPt
        ++ ", got " ++ toString pt ++ ")"))
    else if hc.fmt ≠ expectedFmt then
      .error (protocolError ("video_rtcp_feedback: wrong FMT (expected " ++ toString expectedFmt
        ++ ", got " ++ toString hc.fmt ++ ")"))
    else if hc.totalBytes < kPliPacketSize then
      .error (protocolError ("video_rtcp_feedback: length field shorter than 12 bytes (length_words="
        ++ toString hc.lengthWords ++ ")"))
    else if input.length < hc.totalBytes then
      .error (protocolError ("video_rtcp_feedback: input truncated — declared "
        ++ toString hc.totalBytes ++ "B, got " ++ toString input.length ++ "B"))
    else if hc.totalBytes - kPliPacketSize < minFciBytes then
      .error (protocolError ("video_rtcp_feedback: FCI too small (have "
        ++ toString (hc.totalBytes - kPliPacketSize) ++ "B, need at least " ++ toString minFciBytes
        ++ "B)"))
    else .ok hc

/-! ### Entries -/

/-- The eight bytes of a FIR entry. -/
def firEntryBytes (e : FirEntry) : List UInt8 := beBytes 4 e.ssrc.toNat ++ [0, e.seqNr, 0, 0]

/-- The eight bytes of an SLI entry. -/
def sliEntryBytes (e : SliEntry) : List UInt8 :=
  beBytes 2 e.first.toNat ++ beBytes 2 e.number.toNat ++ beBytes 4 e.pictureId.toNat

/-- The four bytes of a NACK entry. -/
def nackEntryBytes (e : NackEntry) : List UInt8 := beBytes 2 e.pid.toNat ++ beBytes 2 e.blp.toNat

/-- The FIR entry at `off`. -/
def firEntryAt (input : List UInt8) (off : ℕ) : FirEntry :=
  ⟨readBe32 input off, input.getD (off + 5) 0⟩

/-- The SLI entry at `off`. -/
def sliEntryAt (input : List UInt8) (off : ℕ) : SliEntry :=
  ⟨readBe16 input off, readBe16 input (off + 2), readBe32 input (off + 4)⟩

/-- The NACK entry at `off`. -/
def nackEntryAt (input : List UInt8) (off : ℕ) : NackEntry :=
  ⟨readBe16 input off, readBe16 input (off + 2)⟩

/-- The FCI of a packet as entries of `size` bytes, under the name of the packet. -/
def parseEntries {α : Type} (name : String) (size : ℕ) (entryAt : List UInt8 → ℕ → α)
    (input : List UInt8) (hc : HeaderCheck) : Except RtpError (List α) :=
  let fciBytes := hc.totalBytes - kPliPacketSize
  if fciBytes % size ≠ 0 then
    .error (protocolError ("video_rtcp_feedback: " ++ name ++ " FCI not " ++ toString size
      ++ "-byte aligned (" ++ toString fciBytes ++ "B)"))
  else .ok ((List.range (fciBytes / size)).map fun i => entryAt input (kFciOffset + i * size))

/-! ### Packets -/

/-- Writes `bytes` at the start of the buffer, if there is room. -/
def writeTo (output bytes : List UInt8) : ℕ × List UInt8 :=
  if output.length < bytes.length then (0, output)
  else (bytes.length, bytes ++ output.drop bytes.length)

/-- The bytes that a builder has written. -/
def written (r : ℕ × List UInt8) : List UInt8 := r.2.take r.1

/-- `build_pli` -/
def buildPli (output : List UInt8) (p : PliPacket) : ℕ × List UInt8 :=
  writeTo output (header kFmtPli kPsfbPt kPliPacketSize ++ beBytes 4 p.senderSsrc.toNat
    ++ beBytes 4 p.mediaSsrc.toNat)

/-- `parse_pli` -/
def parsePli (input : List UInt8) : Except RtpError PliPacket := do
  let hc ← parseHeader kPsfbPt kFmtPli input 0
  if hc.lengthWords ≠ 2 then
    .error (protocolError ("video_rtcp_feedback: PLI length != 2 (got " ++ toString hc.lengthWords
      ++ ")"))
  else
    return {
      senderSsrc := readBe32 input kRtcpHeaderSize
      mediaSsrc := readBe32 input (kRtcpHeaderSize + 4) }

/-- The media SSRC is not written, so the buffer's own bytes stay there. -/
def buildFir (output : List UInt8) (p : FirPacket) : ℕ × List UInt8 :=
  let total := kPliPacketSize + p.entries.length * kFirEntrySize
  writeTo output (header kFmtFir kPsfbPt total ++ beBytes 4 p.senderSsrc.toNat
    ++ (output.drop (kRtcpHeaderSize + 4)).take 4 ++ p.entries.flatMap firEntryBytes)

/-- `parse_fir` -/
def parseFir (input : List UInt8) : Except RtpError FirPacket := do
  let hc ← parseHeader kPsfbPt kFmtFir input kFirEntrySize
  let entries ← parseEntries "FIR" kFirEntrySize firEntryAt input hc
  return { senderSsrc := readBe32 input kRtcpHeaderSize, entries }

/-- `build_sli` -/
def buildSli (output : List UInt8) (p : SliPacket) : ℕ × List UInt8 :=
  let total := kPliPacketSize + p.entries.length * kSliEntrySize
  writeTo output (header kFmtSli kPsfbPt total ++ beBytes 4 p.senderSsrc.toNat
    ++ beBytes 4 p.mediaSsrc.toNat ++ p.entries.flatMap sliEntryBytes)

/-- `parse_sli` -/
def parseSli (input : List UInt8) : Except RtpError SliPacket := do
  let hc ← parseHeader kPsfbPt kFmtSli input kSliEntrySize
  let entries ← parseEntries "SLI" kSliEntrySize sliEntryAt input hc
  return {
    senderSsrc := readBe32 input kRtcpHeaderSize
    mediaSsrc := readBe32 input (kRtcpHeaderSize + 4)
    entries }

/-- `build_nack` -/
def buildNack (output : List UInt8) (p : NackPacket) : ℕ × List UInt8 :=
  let total := kPliPacketSize + p.entries.length * kNackEntrySize
  writeTo output (header kFmtNack kRtpfbPt total ++ beBytes 4 p.senderSsrc.toNat
    ++ beBytes 4 p.mediaSsrc.toNat ++ p.entries.flatMap nackEntryBytes)

/-- `parse_nack` -/
def parseNack (input : List UInt8) : Except RtpError NackPacket := do
  let hc ← parseHeader kRtpfbPt kFmtNack input kNackEntrySize
  let entries ← parseEntries "NACK" kNackEntrySize nackEntryAt input hc
  return {
    senderSsrc := readBe32 input kRtcpHeaderSize
    mediaSsrc := readBe32 input (kRtcpHeaderSize + 4)
    entries }

/-! ### Lost sequence numbers -/

/-- The distance from the first number of the list, brought below `2^15`. -/
def seqDelta (anchor s : UInt16) : ℤ :=
  let raw : ℤ := (s.toNat : ℤ) - anchor.toNat
  if 32767 < raw then raw - 65536 else raw

/-- `std::unique`. -/
def unique : List ℤ → List ℤ
  | a :: b :: ds => if a = b then unique (b :: ds) else a :: unique (b :: ds)
  | ds => ds

/-- The sequence number at distance `d` from the anchor. -/
def numberAt (anchor : UInt16) (d : ℤ) : UInt16 := UInt16.ofNat ((anchor.toNat + d) % 65536).toNat

/-- The loops over the distances: the entry that starts at `pid` has `blp` so far. -/
def packFrom (anchor : UInt16) (pid : ℤ) (blp : UInt16) : List ℤ → List NackEntry
  | [] => [⟨numberAt anchor pid, blp⟩]
  | d :: ds =>
    let off := d - pid
    if off < 1 ∨ 16 < off then ⟨numberAt anchor pid, blp⟩ :: packFrom anchor d 0 ds
    else packFrom anchor pid (blp ||| (1 : UInt16) <<< UInt16.ofNat (off - 1).toNat) ds

/-- `pack_nack_entries` -/
def packNackEntries (seqs : List UInt16) : List NackEntry :=
  match seqs with
  | [] => []
  | anchor :: _ =>
    match unique ((seqs.map (seqDelta anchor)).insertionSort (· ≤ ·)) with
    | [] => []
    | d :: ds => packFrom anchor d 0 ds

/-- The sequence numbers one entry asks for. -/
def unpackEntry (e : NackEntry) : List UInt16 :=
  e.pid :: ((List.range 16).filter fun bit => e.blp &&& (1 : UInt16) <<< UInt16.ofNat bit ≠ 0).map
    fun bit => e.pid + UInt16.ofNat bit + 1

/-- `unpack_nack_entries` -/
def unpackNackEntries (p : NackPacket) : List UInt16 := p.entries.flatMap unpackEntry

end NimRtc.VideoRtcpFeedback
