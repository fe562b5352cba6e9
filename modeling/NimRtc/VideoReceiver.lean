import NimRtc.FeedbackBridge
import NimRtc.VideoJitterBuffer

/-!
# The video receiver

`VideoReceiver` of `video_pipeline.cpp`: it follows the sequence numbers, puts FU-A fragments
together, takes STAP-A packets apart, and hands what it gets to its jitter buffer. The frames that
the jitter buffer returns go to the frame callback, and what was lost to the feedback callback. Both
callbacks are set here.

Of a packet view `push_rtp` reads the sequence number, the timestamp, the marker and the payload.
`target` is the delay that `jb_strategy` asks for.
-/

namespace NimRtc

/-! ### Annex B -/

/-- The index of the next start code that is `code`, else the size. -/
def findStart (code bs : List UInt8) (pos : ℕ) : ℕ :=
  ((List.range' pos (bs.length - pos)).find? fun j =>
    (bs.drop j).take code.length = code).getD bs.length

/-- The next start code of three bytes. -/
def findNextStart : List UInt8 → ℕ → ℕ := findStart [0, 0, 1]

/-- The next start code of four bytes. -/
def findNextStart4 : List UInt8 → ℕ → ℕ := findStart [0, 0, 0, 1]

/-- Bytes of the start code at `start`. -/
def startPrefixLen (bs : List UInt8) (start : ℕ) : ℕ := if bs[start + 3]? = some 1 then 4 else 3

/-- The loop of `parse_annex_b` from `cursor` on. Each round passes a start code, so the number of
bytes is fuel enough. -/
def annexBFrom (bs : List UInt8) : ℕ → ℕ → List (List UInt8)
  | 0, _ => []
  | fuel + 1, cursor =>
    if bs.length ≤ cursor then []
    else
      let next := min (findNextStart4 bs cursor) (findNextStart bs cursor)
      let nalu := if cursor < next then [(bs.drop cursor).take (next - cursor)] else []
      if next = bs.length then nalu
      else nalu ++ annexBFrom bs fuel (next + startPrefixLen bs next)

/-- `parse_annex_b`: the units between the start codes. -/
def parseAnnexB (bs : List UInt8) : List (List UInt8) :=
  let start := findNextStart4 bs 0
  let start := if start = bs.length then findNextStart bs 0 else start
  if start = bs.length then []
  else annexBFrom bs bs.length (start + startPrefixLen bs start)

/-! ### The receiver -/

/-- `ReceiverConfig` -/
structure ReceiverConfig where
  codec : CodecKind := .h264
  ssrc : UInt32 := 0
  payloadType : UInt8 := 0
  jitterBufferConfig : JitterConfig := {}
  expectFuA : Bool := true

/-- `ReceiverStats` -/
structure ReceiverStats where
  packetsPushed : ℕ := 0
  framesEmitted : ℕ := 0
  framesIncomplete : ℕ := 0
  fuaFragmentsSeen : ℕ := 0
  stapAPacketsSeen : ℕ := 0
  nackEntriesEmitted : ℕ := 0
  sequenceGapsSeen : ℕ := 0
  keyframeRequestsEmitted : ℕ := 0
  deriving DecidableEq, Repr

/-- `NaluFormat` -/
inductive NaluFormat
  | unknown
  | annexBStartCode
  | lengthPrefixed
  deriving DecidableEq, Repr

/-- `EncodedVideoFrame` -/
structure EncodedVideoFrame where
  codec : CodecKind
  naluFormat : NaluFormat
  payload : List UInt8
  isKeyframe : Bool
  payloadType : UInt8
  captureTsUs : ℤ
  rtpTimestamp : UInt32
  frameSeq : UInt32
  deriving DecidableEq, Repr

/-- The calls of the callbacks, and the NAL units that `flush_fua` inserts. -/
inductive ReceiverReport
  | frame (out : EncodedVideoFrame)
  | feedback (fb : ReceiverFeedback)
  | flushed (nalu : List UInt8)
  deriving DecidableEq

/-- The receiver: its jitter buffer, the sequence it follows and the fragmented unit in progress. -/
structure VideoReceiver where
  cfg : ReceiverConfig
  stats : ReceiverStats := {}
  jb : VideoJitterBuffer := .create cfg.jitterBufferConfig
  seqInitialised : Bool := false
  highestSeq : UInt16 := 0
  expectedNext : UInt16 := 0
  pendingNacks : List UInt16 := []
  fuaInProgress : Bool := false
  fuaNaluType : UInt8 := 0
  fuaNri : UInt8 := 0
  fuaRtpTs : UInt32 := 0
  fuaStartSeq : UInt16 := 0
  fuaBuf : List UInt8 := []
  fuaEndMarker : Bool := false

namespace VideoReceiver

/-- The lost numbers go into one feedback, when there are any. -/
def reportMissing (lost : List UInt16) : List ReceiverReport :=
  if lost = [] then [] else [.feedback { missingPackets := lost }]

/-- The numbers between the newest packet and one that is `d` ahead of it. -/
def lostNumbers (r : VideoReceiver) (d : ℤ) : List UInt16 :=
  (List.range (d - 1).toNat).map fun k => r.expectedNext + UInt16.ofNat k

/-- `track_seq`: a jump forward marks what it skipped as lost. -/
def trackSeq (r : VideoReceiver) (seq : UInt16) : VideoReceiver × List ReceiverReport :=
  if !r.seqInitialised then
    ({ r with highestSeq := seq, expectedNext := seq + 1, seqInitialised := true }, [])
  else
    let d := seqDelta seq r.highestSeq
    if d ≤ 0 then (r, [])
    else
      let lost := r.lostNumbers d
      ({ r with
          stats := { r.stats with sequenceGapsSeen := r.stats.sequenceGapsSeen + lost.length }
          pendingNacks := r.pendingNacks ++ lost
          highestSeq := seq
          expectedNext := seq + 1 }, reportMissing lost)

/-- A packet for the jitter buffer. It stands for no more of its frame than itself. -/
def inbound (r : VideoReceiver) (seq : UInt16) (rtpTs : UInt32) (codec : CodecKind)
    (payload : List UInt8) (marker : Bool) (arrivalUs : ℤ) : InboundPacket where
  frame :=
    { ssrc := r.cfg.ssrc
      rtpTimestamp := rtpTs
      firstSeq := seq
      codec
      payloads := payload :: if marker then [] else [[]]
      payloads_ne := by simp }
  index := 0
  arrivalUs
  index_lt := by simp

/-- The packet goes into the jitter buffer. -/
def insertPacket (r : VideoReceiver) (pkt : InboundPacket) : VideoReceiver :=
  { r with jb := (r.jb.insert pkt).1 }

/-- `flush_fua` of what is in `fua_buf`. -/
def flushFua (r : VideoReceiver) (marker : Bool) (arrivalUs : ℤ) :
    VideoReceiver × List ReceiverReport :=
  if r.fuaBuf = [] then (r, [])
  else
    let nalu := ((r.fuaNri &&& 0x03) <<< 5 ||| (r.fuaNaluType &&& H264.kNaluTypeMask)) :: r.fuaBuf
    (r.insertPacket (r.inbound r.fuaStartSeq r.fuaRtpTs .h264 nalu marker arrivalUs),
      [.flushed nalu])

/-- What a fragment with the start bit does to the reassembly. -/
def startFua (r : VideoReceiver) (h : H264.FuAHeader) (rtpTs : UInt32) (marker : Bool) :
    VideoReceiver :=
  { r with
    fuaInProgress := true
    fuaNaluType := h.fuHeader &&& H264.kNaluTypeMask
    fuaNri := (h.fuIndicator &&& H264.kNriMask) >>> 5
    fuaRtpTs := rtpTs
    fuaStartSeq := r.highestSeq
    fuaBuf := []
    fuaEndMarker := marker }

/-- A fragment: the unit in progress grows, and is flushed with its last one. -/
def handleFuA (r : VideoReceiver) (h : H264.FuAHeader) (marker : Bool) (rtpTs : UInt32)
    (arrivalUs : ℤ) : VideoReceiver × List ReceiverReport :=
  let r := { r with stats := { r.stats with fuaFragmentsSeen := r.stats.fuaFragmentsSeen + 1 } }
  let r := if h.fuHeader &&& 0x80 ≠ 0 then r.startFua h rtpTs marker else r
  if !r.fuaInProgress then (r, [])
  else
    let r := { r with fuaBuf := r.fuaBuf ++ h.fragment }
    if h.fuHeader &&& 0x40 ≠ 0 then
      let (r, out) := r.flushFua marker arrivalUs
      ({ r with fuaInProgress := false, fuaBuf := [], fuaEndMarker := false }, out)
    else (r, [])

/-- The units of a STAP-A go into the jitter buffer as one packet. -/
def handleStapA (r : VideoReceiver) (payload : List UInt8) (marker : Bool) (rtpTs : UInt32)
    (arrivalUs : ℤ) : VideoReceiver :=
  let r := { r with stats := { r.stats with stapAPacketsSeen := r.stats.stapAPacketsSeen + 1 } }
  let stap := H264.parseStapA payload
  if !stap.parsedOk ∨ stap.nalus = [] then r
  else
    let concat := stap.nalus.flatMap (·.data)
    r.insertPacket (r.inbound r.highestSeq rtpTs .h264 concat marker arrivalUs)

/-- The unit type in the first byte. -/
def peekNaluType (payload : List UInt8) : UInt8 := payload.headD 0 &&& H264.kNaluTypeMask

/-- A payload goes by its unit type. -/
def handlePayload (r : VideoReceiver) (payload : List UInt8) (marker : Bool) (rtpTs : UInt32)
    (arrivalUs : ℤ) : VideoReceiver × List ReceiverReport :=
  if r.cfg.codec = .h264 ∧ peekNaluType payload = H264.kFuAType ∧ r.cfg.expectFuA then
    match H264.parseFuAHeader payload with
    | none => (r, [])
    | some h => r.handleFuA h marker rtpTs arrivalUs
  else if r.cfg.codec = .h264 ∧ peekNaluType payload = H264.kStapAType then
    (r.handleStapA payload marker rtpTs arrivalUs, [])
  else (r.insertPacket (r.inbound r.highestSeq rtpTs r.cfg.codec payload marker arrivalUs), [])

/-! ### Frames -/

/-- The frame handed out; it is always labelled Annex B. -/
def encoded (r : VideoReceiver) (f : AssembledFrame) : EncodedVideoFrame where
  codec := f.codec
  naluFormat := .annexBStartCode
  payload := f.bitstream
  isKeyframe := f.isKeyframe
  payloadType := r.cfg.payloadType
  captureTsUs := (BitVec.ofNat 64 f.captureTsUs).toInt
  rtpTimestamp := f.rtpTimestamp
  frameSeq := f.frameSeq

/-- A frame is handed out; an incomplete one asks for a key frame first. -/
def emitFrame (r : VideoReceiver) (f : AssembledFrame) : VideoReceiver × List ReceiverReport :=
  let r := { r with stats := { r.stats with framesEmitted := r.stats.framesEmitted + 1 } }
  if f.complete then (r, [.frame (r.encoded f)])
  else
    ({ r with
        stats :=
          { r.stats with
            framesIncomplete := r.stats.framesIncomplete + 1
            keyframeRequestsEmitted := r.stats.keyframeRequestsEmitted + 1 } },
      [.feedback { keyframeRequested := true }, .frame (r.encoded f)])

/-- The rounds of `drain_frames`. -/
def drainRounds (nowUs target : ℤ) : ℕ → VideoReceiver → VideoReceiver × List ReceiverReport
  | 0, r => (r, [])
  | fuel + 1, r =>
    match r.jb.popReady nowUs target with
    | (_, none) => (r, [])
    | (jb, some f) =>
      let (r, out) := emitFrame { r with jb } f
      let (r, rest) := drainRounds nowUs target fuel r
      (r, out ++ rest)

/-- Each round takes a pending frame or hands out a bucket, so there are no more rounds than there
are of both. -/
def drainFrames (r : VideoReceiver) (nowUs target : ℤ) : VideoReceiver × List ReceiverReport :=
  drainRounds nowUs target (r.jb.pendingIncomplete.length + r.jb.buckets.length) r

/-! ### The interface -/

/-- `push_rtp` -/
def pushRtp (r : VideoReceiver) (packet : CachedPacket) (nowUs target : ℤ) :
    VideoReceiver × List ReceiverReport × Bool :=
  let r := { r with stats := { r.stats with packetsPushed := r.stats.packetsPushed + 1 } }
  if packet.payload = [] ∧ !packet.marker then (r, [], false)
  else
    let (r, missing) := r.trackSeq packet.seq
    let (r, flushed) := r.handlePayload packet.payload packet.marker packet.rtpTs nowUs
    let (r, frames) := r.drainFrames nowUs target
    (r, missing ++ flushed ++ frames, true)

/-- `pop_nack_entries` -/
def popNackEntries (r : VideoReceiver) : VideoReceiver × List UInt16 :=
  let (jb, fromJb) := r.jb.popNackEntries
  let out := r.pendingNacks ++ fromJb
  ({ r with
      pendingNacks := []
      jb
      stats := { r.stats with nackEntriesEmitted := r.stats.nackEntriesEmitted + out.length } }, out)

/-- `tick` -/
def tick (r : VideoReceiver) (nowUs target : ℤ) : VideoReceiver × List ReceiverReport :=
  drainFrames { r with jb := r.jb.tick nowUs } nowUs target

/-- `reset` -/
def reset (r : VideoReceiver) : VideoReceiver :=
  { r with
    stats := {}
    pendingNacks := []
    seqInitialised := false
    highestSeq := 0
    expectedNext := 0
    fuaInProgress := false
    fuaBuf := []
    fuaEndMarker := false
    jb := r.jb.reset }

end VideoReceiver

end NimRtc
