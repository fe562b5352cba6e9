import NimRtc.H264Payload

/-!
# The video jitter buffer

`VideoJitterBuffer` of `video_jitter_buffer.cpp`. The packets of a frame share its RTP timestamp
and go to one bucket, in the order they arrive in. A packet carries the frame it was sent for, and
a bucket the packets it was given, so that what comes out can be compared with what was sent.

The delay that `jb_strategy` asks for is an argument of `pop_ready`. Times are in microseconds
where the name says so, and delays in milliseconds.
-/

namespace NimRtc

/-- `CodecKind` -/
inductive CodecKind
  | unknown
  | h264
  | h265
  | vp8
  | vp9
  | av1
  deriving DecidableEq, Repr

/-- `JitterMode` -/
inductive JitterMode
  | lowLatency
  | live
  | interactive
  deriving DecidableEq, Repr

/-- A `maxDelay` of zero stands for the mode's own. -/
structure JitterConfig where
  mode : JitterMode := .lowLatency
  maxInflightFrames : ℕ := 8
  maxWaitMs : ℕ := 200
  emitNacks : Bool := true
  maxDelay : ℤ := 0
  adaptive : Bool := false

/-- A frame as it was packetized. The packets are numbered on from `firstSeq`, and the last one has
the marker. -/
structure SentFrame where
  ssrc : UInt32
  rtpTimestamp : UInt32
  firstSeq : UInt16
  codec : CodecKind
  payloads : List (List UInt8)
  payloads_ne : payloads ≠ [] := by decide
  deriving DecidableEq

/-- `InboundPacket`: the packet with the given index of a sent frame. -/
structure InboundPacket where
  frame : SentFrame
  index : ℕ
  arrivalUs : ℤ
  index_lt : index < frame.payloads.length := by decide
  deriving DecidableEq

namespace InboundPacket

/-- The SSRC of its frame. -/
def ssrc (pkt : InboundPacket) : UInt32 := pkt.frame.ssrc

/-- The sequence number, counted on from the first of its frame. -/
def seq (pkt : InboundPacket) : UInt16 := pkt.frame.firstSeq + UInt16.ofNat pkt.index

/-- The timestamp of its frame. -/
def rtpTimestamp (pkt : InboundPacket) : UInt32 := pkt.frame.rtpTimestamp

/-- The last packet of a frame is marked. -/
def marker (pkt : InboundPacket) : Bool := pkt.index + 1 = pkt.frame.payloads.length

/-- The codec of its frame. -/
def codec (pkt : InboundPacket) : CodecKind := pkt.frame.codec

/-- Its part of the frame. -/
def payload (pkt : InboundPacket) : List UInt8 := pkt.frame.payloads.get ⟨pkt.index, pkt.index_lt⟩

end InboundPacket

/-- `FrameBucket`: what has come of one frame. -/
structure FrameBucket where
  ssrc : UInt32
  rtpTimestamp : UInt32
  firstSeq : UInt16
  lastSeq : UInt16
  firstArrivalUs : ℤ
  lastArrivalUs : ℤ
  codec : CodecKind
  bitstream : List UInt8 := []
  receivedSeqs : List UInt16 := []
  markerSeen : Bool := false
  emitted : Bool := false
  fuAInProgress : Bool := false
  fuANaluType : UInt8 := 0
  fuANri : UInt8 := 0
  fuABuf : List UInt8 := []
  /-- The packets it was given. -/
  packets : List InboundPacket := []
  /-- Those of them that `append_fu_a_fragment` did not drop. -/
  taken : List InboundPacket := []

/-- `AssembledFrame` -/
structure AssembledFrame where
  ssrc : UInt32
  rtpTimestamp : UInt32
  frameSeq : UInt32
  captureTsUs : ℕ
  isKeyframe : Bool
  codec : CodecKind
  bitstream : List UInt8
  complete : Bool
  /-- The bucket it was assembled from. -/
  bucket : FrameBucket

/-- `JitterStats` -/
structure JitterStats where
  packetsInserted : ℕ := 0
  packetsReordered : ℕ := 0
  packetsDropped : ℕ := 0
  framesEmitted : ℕ := 0
  framesIncomplete : ℕ := 0
  nacksEmitted : ℕ := 0
  deriving DecidableEq, Repr

/-- The buckets are in the order of their timestamps. -/
structure VideoJitterBuffer where
  cfg : JitterConfig
  buckets : List FrameBucket := []
  pendingIncomplete : List AssembledFrame := []
  frameSeqCounter : UInt32 := 0
  stats : JitterStats := {}
  lastRtpTs : Option UInt32 := none
  prevMediaUs : Option ℤ := none
  frameIntervalUs : ℤ := 0

def kVideoClockRateHz : ℤ := 90000

/-- The `max_delay` of `mode_defaults`. -/
def JitterMode.maxDelay : JitterMode → ℤ
  | .live => 400
  | .interactive => 800
  | .lowLatency => 200

/-- `ts_delta` -/
def tsDelta (newer older : UInt32) : ℤ := (newer - older).toInt32.toInt

/-- `seq_delta` -/
def seqDelta (newer older : UInt16) : ℤ :=
  let d : ℤ := (newer.toNat : ℤ) - older.toNat
  let d := if 32767 < d then d - 65536 else d
  if d < -32768 then d + 65536 else d

/-- The payload is an FU-A fragment. -/
def isFuA : List UInt8 → Bool
  | [] => false
  | first :: _ => first &&& 0x1F = 28

/-- `is_keyframe_payload` -/
def isKeyframePayload (codec : CodecKind) (payload : List UInt8) : Bool :=
  match codec, payload with
  | .h264, first :: _ =>
    let type := first &&& 0x1F
    type = 5 || type = 7 || type = 8
  | .vp8, first :: _ => first &&& 0x01 = 0
  | _, _ => false

namespace FrameBucket

/-- A fragment without a start while none is being put together, or one too short for its
headers. -/
def dropsFragment (b : FrameBucket) (payload : List UInt8) : Bool :=
  match H264.parseFuAHeader payload with
  | none => true
  | some h => h.fuHeader &&& 0x80 = 0 && !b.fuAInProgress

/-- `append_fu_a_fragment` -/
def appendFuAFragment (b : FrameBucket) (payload : List UInt8) : FrameBucket :=
  match H264.parseFuAHeader payload with
  | none => b
  | some h =>
    let b :=
      if h.fuHeader &&& 0x80 ≠ 0 then
        { b with
          fuAInProgress := true
          fuANaluType := h.fuHeader &&& 0x1F
          fuANri := (h.fuIndicator &&& 0x60) >>> 5
          fuABuf := [] }
      else b
    if !b.fuAInProgress then b
    else
      let b := { b with fuABuf := b.fuABuf ++ h.fragment }
      if h.fuHeader &&& 0x40 ≠ 0 then
        let naluHdr := b.fuANri <<< (5 : UInt8) ||| b.fuANaluType &&& 0x1F
        { b with bitstream := b.bitstream ++ naluHdr :: b.fuABuf, fuAInProgress := false }
      else b

/-- The payload joins the frame, a fragment by way of `append_fu_a_fragment`. -/
def appendPayload (b : FrameBucket) (codec : CodecKind) (payload : List UInt8) : FrameBucket :=
  if codec = .h264 ∧ isFuA payload then b.appendFuAFragment payload
  else { b with bitstream := b.bitstream ++ payload }

/-- The packet is a fragment the bucket leaves out. -/
def drops (b : FrameBucket) (pkt : InboundPacket) : Bool :=
  pkt.codec = .h264 && isFuA pkt.payload && b.dropsFragment pkt.payload

/-- The packet is the newest of its frame. -/
def advances (b : FrameBucket) (pkt : InboundPacket) : Bool :=
  b.receivedSeqs.isEmpty || 0 < seqDelta pkt.seq b.lastSeq

/-- What `insert` notes of a packet before it appends the payload. -/
def note (b : FrameBucket) (pkt : InboundPacket) : FrameBucket :=
  { b with
    receivedSeqs := b.receivedSeqs ++ [pkt.seq]
    lastSeq := pkt.seq
    lastArrivalUs := pkt.arrivalUs
    markerSeen := b.markerSeen || pkt.marker
    packets := b.packets ++ [pkt]
    taken := if b.drops pkt then b.taken else b.taken ++ [pkt] }

/-- The packet is noted and its payload appended. -/
def receive (b : FrameBucket) (pkt : InboundPacket) : FrameBucket :=
  (b.note pkt).appendPayload pkt.codec pkt.payload

/-- The bucket that `find_or_create_bucket` makes for a packet. -/
def create (pkt : InboundPacket) : FrameBucket where
  ssrc := pkt.ssrc
  rtpTimestamp := pkt.rtpTimestamp
  firstSeq := pkt.seq
  lastSeq := pkt.seq
  firstArrivalUs := pkt.arrivalUs
  lastArrivalUs := pkt.arrivalUs
  codec := pkt.codec
  markerSeen := pkt.marker

/-- What the buffer takes for a complete frame. -/
def complete (b : FrameBucket) : Bool := b.markerSeen && !b.fuAInProgress

/-- The bucket after its frame is handed out, with the bitstream moved out of it. -/
def handedOut (b : FrameBucket) : FrameBucket := { b with emitted := true, bitstream := [] }

end FrameBucket

namespace VideoJitterBuffer

/-- A new buffer; a zero delay takes the one of its mode. -/
def create (cfg : JitterConfig) : VideoJitterBuffer where
  cfg := { cfg with maxDelay := if cfg.maxDelay = 0 then cfg.mode.maxDelay else cfg.maxDelay }

/-! ### In-flight frames -/

/-- `effective_inflight_cap` -/
def effectiveInflightCap (s : VideoJitterBuffer) : ℕ :=
  if !s.cfg.adaptive || s.frameIntervalUs ≤ 0 then s.cfg.maxInflightFrames
  else
    let needed := (s.cfg.maxDelay * 1000).tdiv s.frameIntervalUs + 2
    if (s.cfg.maxInflightFrames : ℤ) < needed then needed.toNat else s.cfg.maxInflightFrames

/-- The first bucket that is not complete, else the first that is. -/
def victim (s : VideoJitterBuffer) : Option FrameBucket :=
  (s.buckets.find? fun b => !b.emitted && !b.complete).or (s.buckets.find? fun b => !b.emitted)

/-- A bucket goes, and counts as incomplete when it was. -/
def evict (s : VideoJitterBuffer) (v : FrameBucket) : VideoJitterBuffer :=
  { s with
    buckets := s.buckets.filter fun b => b.rtpTimestamp ≠ v.rtpTimestamp
    stats :=
      { s.stats with
        framesIncomplete := s.stats.framesIncomplete + if v.complete then 0 else 1
        packetsDropped := s.stats.packetsDropped + 1 } }

/-- The rounds of `enforce_inflight_cap`. Each erases a bucket, so there are no more of them than
there are buckets. -/
def evictRounds (incoming cap : ℕ) : ℕ → VideoJitterBuffer → VideoJitterBuffer
  | 0, s => s
  | fuel + 1, s =>
    if s.buckets.countP (fun b => !b.emitted) + incoming ≤ cap then s
    else
      match s.victim with
      | none => s
      | some v => evictRounds incoming cap fuel (s.evict v)

/-- `enforce_inflight_cap` -/
def enforceInflightCap (s : VideoJitterBuffer) (incoming : ℕ) : VideoJitterBuffer :=
  evictRounds incoming s.effectiveInflightCap s.buckets.length s

/-! ### Inserting -/

/-- The frame interval part of `observe_frame`. -/
def observeFrame (s : VideoJitterBuffer) (pkt : InboundPacket) : VideoJitterBuffer :=
  let rtpTicks : ℤ :=
    match s.lastRtpTs with
    | some last => last.toNat + tsDelta pkt.rtpTimestamp last
    | none => pkt.rtpTimestamp.toNat
  let mediaClockUs := (rtpTicks * 1000000).tdiv kVideoClockRateHz
  let frameIntervalUs :=
    match s.prevMediaUs with
    | none => s.frameIntervalUs
    | some prev =>
      let delta := mediaClockUs - prev
      if delta ≤ 0 then s.frameIntervalUs
      else if 0 < s.frameIntervalUs then (s.frameIntervalUs * 3 + delta).tdiv 4
      else delta
  { s with lastRtpTs := some pkt.rtpTimestamp, prevMediaUs := some mediaClockUs, frameIntervalUs }

/-- The bucket of a timestamp. -/
def findBucket (s : VideoJitterBuffer) (ts : UInt32) : Option FrameBucket :=
  s.buckets.find? fun b => b.rtpTimestamp = ts

/-- `find_or_create_bucket` -/
def findOrCreateBucket (s : VideoJitterBuffer) (pkt : InboundPacket) :
    VideoJitterBuffer × FrameBucket :=
  match s.findBucket pkt.rtpTimestamp with
  | some b => (s, b)
  | none =>
    let s := s.enforceInflightCap 1
    let b := FrameBucket.create pkt
    let s :=
      { s with
        buckets := s.buckets.orderedInsert (fun a b => a.rtpTimestamp ≤ b.rtpTimestamp) b }
    (s.observeFrame pkt, b)

/-- The bucket of its timestamp is replaced. -/
def setBucket (s : VideoJitterBuffer) (b : FrameBucket) : VideoJitterBuffer :=
  { s with buckets := s.buckets.map fun c => if c.rtpTimestamp = b.rtpTimestamp then b else c }

/-- `insert` -/
def insert (s : VideoJitterBuffer) (pkt : InboundPacket) : VideoJitterBuffer × Bool :=
  if pkt.payload = [] ∧ !pkt.marker then (s, false)
  else
    let s := { s with stats := { s.stats with packetsInserted := s.stats.packetsInserted + 1 } }
    let (s, b) := s.findOrCreateBucket pkt
    let s :=
      { s with
        stats :=
          { s.stats with
            packetsReordered := s.stats.packetsReordered + if b.advances pkt then 0 else 1 } }
    (s.setBucket (b.receive pkt), true)

/-! ### Emitting -/

/-- `make_assembled`: the frame takes the next number. -/
def makeAssembled (s : VideoJitterBuffer) (b : FrameBucket) : VideoJitterBuffer × AssembledFrame :=
  let frameSeq := s.frameSeqCounter + 1
  ({ s with frameSeqCounter := frameSeq },
    { ssrc := b.ssrc
      rtpTimestamp := b.rtpTimestamp
      frameSeq
      captureTsUs := (b.firstArrivalUs % 2 ^ 64).toNat
      isKeyframe := isKeyframePayload b.codec b.bitstream
      codec := b.codec
      bitstream := b.bitstream
      complete := b.markerSeen
      bucket := b })

/-- The one whose first packet came earlier. -/
def earlier : Option FrameBucket → FrameBucket → Option FrameBucket
  | none, b => some b
  | some best, b => if b.firstArrivalUs < best.firstArrivalUs then some b else some best

/-- The bucket that `pop_ready` takes, `target` being the delay that is asked for. -/
def nextReady (s : VideoJitterBuffer) (gateUs target : ℤ) : Option FrameBucket :=
  if gateUs < 0 ∨ !s.cfg.adaptive then s.buckets.find? fun b => !b.emitted && b.complete
  else
    (s.buckets.filter fun b =>
      !b.emitted && b.complete && b.firstArrivalUs + target * 1000 ≤ gateUs).foldl earlier none

/-- `pop_ready`: a frame that was cut off first, then the next one that the gate lets out. -/
def popReady (s : VideoJitterBuffer) (gateUs target : ℤ) :
    VideoJitterBuffer × Option AssembledFrame :=
  match s.pendingIncomplete with
  | out :: rest => ({ s with pendingIncomplete := rest }, some out)
  | [] =>
    match s.nextReady gateUs target with
    | none => (s, none)
    | some b =>
      let s := { s with stats := { s.stats with framesEmitted := s.stats.framesEmitted + 1 } }
      let (s, out) := s.makeAssembled b
      (s.setBucket b.handedOut, some out)

/-- One round of the loop of `tick`, which leaves the buckets it has passed in `s`. -/
def tickBucket (nowUs : ℤ) (s : VideoJitterBuffer) (b : FrameBucket) : VideoJitterBuffer :=
  if b.emitted then s
  else if !b.complete ∧ (s.cfg.maxWaitMs : ℤ) ≤ (nowUs - b.firstArrivalUs).tdiv 1000 then
    let s :=
      { s with
        stats :=
          { s.stats with
            framesIncomplete := s.stats.framesIncomplete + 1
            framesEmitted := s.stats.framesEmitted + 1
            packetsDropped := s.stats.packetsDropped + 1 } }
    let (s, out) := s.makeAssembled b
    { s with
      pendingIncomplete := s.pendingIncomplete ++ [out]
      buckets := s.buckets ++ [b.handedOut] }
  else { s with buckets := s.buckets ++ [b] }

/-- `tick` -/
def tick (s : VideoJitterBuffer) (nowUs : ℤ) : VideoJitterBuffer :=
  (s.buckets.foldl (tickBucket nowUs) { s with buckets := [] }).enforceInflightCap 0

/-! ### Lost packets -/

/-- One round of the loop over the sorted numbers: the next number that is expected and the
missing ones so far. -/
def nackStep (acc : UInt16 × List UInt16) (got : UInt16) : UInt16 × List UInt16 :=
  let gap := (seqDelta got acc.1).toNat
  let expected := acc.1 + UInt16.ofNat gap
  (if seqDelta got expected = 0 then expected + 1 else expected,
    acc.2 ++ (List.range gap).map fun k => acc.1 + UInt16.ofNat k)

/-- The bucket is one whose numbers `pop_nack_entries` looks at. -/
def nackable (b : FrameBucket) : Bool := !b.emitted && 2 ≤ b.receivedSeqs.length

/-- Asking for NACKs sorts the received numbers in place. -/
def sortSeqs (b : FrameBucket) : FrameBucket :=
  if nackable b then { b with receivedSeqs := b.receivedSeqs.mergeSort } else b

/-- `pop_nack_entries` -/
def popNackEntries (s : VideoJitterBuffer) : VideoJitterBuffer × List UInt16 :=
  if !s.cfg.emitNacks then (s, [])
  else
    let buckets := s.buckets.map sortSeqs
    let nacks := (buckets.filter nackable).flatMap fun b =>
      (b.receivedSeqs.foldl nackStep (b.firstSeq, [])).2
    ({ s with
        buckets
        stats := { s.stats with nacksEmitted := s.stats.nacksEmitted + nacks.length } }, nacks)

/-- `reset` -/
def reset (s : VideoJitterBuffer) : VideoJitterBuffer := { cfg := s.cfg }

end VideoJitterBuffer

end NimRtc
