import Mathlib

/-!
# Statistics of a video stream

`VideoStatsSink` of `video_stats.cpp`: the counters, the freeze detector and the window of the bitrate
estimate, without what is computed from them in floating point. Times are in microseconds.
-/

namespace NimRtc

/-- `StatsConfig` -/
structure StatsConfig where
  freezeThresholdMs : ℕ := 150
  bitrateWindowMs : ℕ := 1000

/-- `DropReason` -/
inductive DropReason
  | jitterBufferTimeout
  | decoderError
  | dependencyLost

/-- The size of a frame and when it was captured. -/
structure BitrateSample where
  captureTsUs : ℤ
  bytes : ℕ

/-- `VideoStatsSink`: the counters, the window of the bitrate and the freezes. -/
structure VideoStatsSink where
  cfg : StatsConfig
  framesReceived : ℕ := 0
  framesDecoded : ℕ := 0
  framesRendered : ℕ := 0
  framesDroppedJb : ℕ := 0
  framesDroppedDecoder : ℕ := 0
  keyframesReceived : ℕ := 0
  bytesReceived : ℕ := 0
  qpSum : ℕ := 0
  qpCount : ℕ := 0
  freezeCount : ℕ := 0
  freezeTotalMs : ℕ := 0
  lastFreezeMs : ℕ := 0
  firstFrameTsUs : ℤ := -1
  lastFrameTsUs : ℤ := -1
  lastRenderedTsUs : ℤ := -1
  lastKeyframeTsUs : ℤ := -1
  lastTickUs : ℤ := -1
  renderedAtLastTick : ℕ := 0
  bitrateWindow : List BitrateSample := []

namespace VideoStatsSink

/-- A key frame is counted. -/
def handleKeyframe (s : VideoStatsSink) (captureTsUs : ℤ) : VideoStatsSink :=
  { s with
    keyframesReceived := s.keyframesReceived + 1
    lastKeyframeTsUs := if captureTsUs < 0 then s.lastKeyframeTsUs else captureTsUs }

/-- `on_qp_sample`: a value out of range is ignored. -/
def onQpSample (s : VideoStatsSink) (qp : ℤ) : VideoStatsSink :=
  if qp < 0 ∨ 63 < qp then s
  else { s with qpSum := s.qpSum + qp.toNat, qpCount := s.qpCount + 1 }

/-- `on_frame_received` -/
def onFrameReceived (s : VideoStatsSink) (captureTsUs : ℤ) (frameSizeBytes : ℕ) (isKeyframe : Bool)
    (qp : ℤ) : VideoStatsSink :=
  let s :=
    { s with
      framesReceived := s.framesReceived + 1
      bytesReceived := s.bytesReceived + frameSizeBytes }
  let s :=
    if captureTsUs < 0 then s
    else
      { s with
        firstFrameTsUs := if s.firstFrameTsUs = -1 then captureTsUs else s.firstFrameTsUs
        lastFrameTsUs := captureTsUs
        bitrateWindow :=
          if frameSizeBytes = 0 then s.bitrateWindow
          else s.bitrateWindow ++ [⟨captureTsUs, frameSizeBytes⟩] }
  let s := s.onQpSample qp
  if isKeyframe then s.handleKeyframe captureTsUs else s

/-- `on_frame_decoded` -/
def onFrameDecoded (s : VideoStatsSink) : VideoStatsSink :=
  { s with framesDecoded := s.framesDecoded + 1 }

/-- A freeze of `gapUs`, if that is long enough. -/
def noteFreeze (s : VideoStatsSink) (gapUs : ℤ) : VideoStatsSink :=
  if 0 ≤ gapUs ∧ s.cfg.freezeThresholdMs * 1000 ≤ gapUs then
    let gapMs := (gapUs / 1000).toNat
    { s with
      freezeCount := s.freezeCount + 1
      freezeTotalMs := s.freezeTotalMs + gapMs
      lastFreezeMs := gapMs }
  else s

/-- `on_frame_rendered` -/
def onFrameRendered (s : VideoStatsSink) (captureTsUs : ℤ) : VideoStatsSink :=
  let s := { s with framesRendered := s.framesRendered + 1 }
  if captureTsUs < 0 then s
  else
    let s := if s.lastRenderedTsUs = -1 then s else s.noteFreeze (captureTsUs - s.lastRenderedTsUs)
    { s with lastRenderedTsUs := captureTsUs }

/-- `on_frame_dropped` -/
def onFrameDropped (s : VideoStatsSink) : DropReason → VideoStatsSink
  | .jitterBufferTimeout => { s with framesDroppedJb := s.framesDroppedJb + 1 }
  | .decoderError | .dependencyLost => { s with framesDroppedDecoder := s.framesDroppedDecoder + 1 }

/-- The first part of `tick`: no frame was rendered since the last one. -/
def detectFreeze (s : VideoStatsSink) (nowUs : ℤ) : VideoStatsSink :=
  if s.framesRendered = s.renderedAtLastTick ∧ 0 ≤ s.lastRenderedTsUs ∧ s.lastRenderedTsUs < nowUs
      ∧ s.cfg.freezeThresholdMs * 1000 ≤ nowUs - s.lastRenderedTsUs then
    -- the idle time up to now is not to be counted again
    { s.noteFreeze (nowUs - s.lastRenderedTsUs) with lastRenderedTsUs := nowUs }
  else s

/-- Samples before this instant are out of the window. -/
def cutoff (cfg : StatsConfig) (nowUs : ℤ) : ℤ := nowUs - cfg.bitrateWindowMs * 1000

/-- `tick` -/
def tick (s : VideoStatsSink) (nowUs : ℤ) : VideoStatsSink :=
  if nowUs < 0 then s
  else
    { s.detectFreeze nowUs with
      renderedAtLastTick := s.framesRendered
      lastTickUs := nowUs
      bitrateWindow := s.bitrateWindow.dropWhile (·.captureTsUs < cutoff s.cfg nowUs) }

/-- The bytes that `tick` takes its sample of the bitrate from. -/
def bytesInWindow (s : VideoStatsSink) : ℕ := (s.bitrateWindow.map (·.bytes)).sum

/-- A call on the sink. -/
inductive Event
  | frameReceived (captureTsUs : ℤ) (frameSizeBytes : ℕ) (isKeyframe : Bool) (qp : ℤ)
  | frameDecoded
  | frameRendered (captureTsUs : ℤ)
  | frameDropped (reason : DropReason)
  | qpSample (qp : ℤ)
  | tick (nowUs : ℤ)

/-- One call. -/
def step (s : VideoStatsSink) : Event → VideoStatsSink
  | .frameReceived captureTsUs frameSizeBytes isKeyframe qp =>
    s.onFrameReceived captureTsUs frameSizeBytes isKeyframe qp
  | .frameDecoded => s.onFrameDecoded
  | .frameRendered captureTsUs => s.onFrameRendered captureTsUs
  | .frameDropped reason => s.onFrameDropped reason
  | .qpSample qp => s.onQpSample qp
  | .tick nowUs => s.tick nowUs

/-- A sink after the events since it was created, or reset. -/
def run (cfg : StatsConfig) (es : List Event) : VideoStatsSink := es.foldl step { cfg }

namespace Event

/-- The time of a frame that is rendered, or of a tick. -/
def time : Event → Option ℤ
  | frameRendered captureTsUs => if captureTsUs < 0 then none else some captureTsUs
  | tick nowUs => if nowUs < 0 then none else some nowUs
  | _ => none

/-- When the frame was captured that a call renders. -/
def rendered : Event → Option ℤ
  | frameRendered captureTsUs => if captureTsUs < 0 then none else some captureTsUs
  | _ => none

/-- What an event adds to the window. -/
def sample : Event → Option BitrateSample
  | frameReceived captureTsUs frameSizeBytes _ _ =>
    if captureTsUs < 0 ∨ frameSizeBytes = 0 then none else some ⟨captureTsUs, frameSizeBytes⟩
  | _ => none

/-- An event that is not a tick to which a frame is too old. -/
def keeps (cfg : StatsConfig) (x : BitrateSample) : Event → Bool
  | tick nowUs => nowUs < 0 || cutoff cfg nowUs ≤ x.captureTsUs
  | _ => true

end Event

/-- The frames that no later tick found too old. -/
def recent (cfg : StatsConfig) : List Event → List BitrateSample
  | [] => []
  | e :: es => e.sample.toList.filter (fun x => es.all (Event.keeps cfg x)) ++ recent cfg es

end VideoStatsSink

end NimRtc
