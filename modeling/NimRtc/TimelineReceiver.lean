import NimRtc.EngineRuns
import NimRtc.RtpPacket
import NimRtc.Timeline

/-!
# The engine's timeline of its peer

The part of `handle_rtp` that pins clock rates and `observe_timeline`, beside the engine whose remote
descriptions they read. A stream is looked up in the table of clock rates by its first packet that
has a rate, and never again.
-/

namespace NimRtc

namespace Rtp.SenderReportTracker

/-- The clock rate that was set for an SSRC, or the default of a stream. -/
def clockRateFor (t : SenderReportTracker) (ssrc : UInt32) : UInt32 :=
  ((t.streams ssrc).state.getD {}).clockRateHz

end Rtp.SenderReportTracker

namespace Engine

/-- The clock rate of a payload type: what the peer declared, else what the engine is set up for. -/
def mediaClockRate (e : Engine) (payloadType : UInt8) : UInt32 :=
  match e.remoteClockRateHz.lookup payloadType with
  | some rate => rate
  | none =>
    if payloadType = e.cfg.videoReceiverPayloadType then 90000 else e.cfg.audioCodec.clockRate

/-- The abs-send-time of a packet, under the id that the peer declared. -/
def absSendTimeOf (e : Engine) (pv : Rtp.PacketView) : Option UInt32 :=
  match pv.extension with
  | none => none
  | some ext =>
    if e.remoteAbsSendTimeId = 0 then none
    else
      match Rtp.findExtensionElement ext.data ext.type e.remoteAbsSendTimeId with
      | .error _ => none
      | .ok element =>
        if element.length < 3 then none else some (UInt32.ofNat (beNat (element.take 3)))

end Engine

/-- The engine with its tracker and the SSRCs whose clock rate it has pinned. -/
structure TimelineReceiver where
  engine : Engine
  srTracker : Rtp.SenderReportTracker := {}
  clockRatePinnedSsrcs : Finset UInt32 := ∅

/-- A capture instant that is published for a stream. -/
structure Captured where
  ssrc : UInt32
  captureUs : ℤ
  skewUs : ℤ
  deriving DecidableEq

/-- An inbound packet is an event of the engine for what the send side does about it, and one of the
timeline for what it is observed for. -/
inductive TimelineEvent
  | engine (ev : EngineEvent)
  | setMonotonicOrigin (origin : UInt64)
  | handleRtp (pv : Rtp.PacketView) (steadyUs : ℤ)
  | handleRtcp (sr : Rtp.SenderReport) (steadyUs : ℤ)

namespace TimelineReceiver

/-- An engine with nothing received. -/
def fresh (cfg : EngineConfig) (sender : Option VideoSender) (fingerprint : String) :
    TimelineReceiver :=
  { engine := Engine.fresh cfg sender fingerprint }

/-- The first packet of an SSRC sets its clock rate, if the description gives one. -/
def pinClockRate (r : TimelineReceiver) (pv : Rtp.PacketView) : TimelineReceiver :=
  let clockRate := r.engine.mediaClockRate pv.payloadType
  if clockRate ≠ 0 ∧ pv.ssrc ∉ r.clockRatePinnedSsrcs then
    { r with
      srTracker := r.srTracker.update pv.ssrc (·.setSsrcClockRate clockRate)
      clockRatePinnedSsrcs := insert pv.ssrc r.clockRatePinnedSsrcs }
  else r

/-- What `observe_timeline` asks the tracker, which takes the clock rate that was set. -/
def captureQuery (pv : Rtp.PacketView) (ast : UInt32) (steadyUs : ℤ) : Rtp.CaptureQuery where
  ssrc := pv.ssrc
  rtpTs := pv.timestamp
  ast := ast
  hasAst := true
  clockRateHz := 0
  localRecvUs := steadyUs

/-- A packet with an abs-send-time is given its capture time. -/
def observeTimeline (r : TimelineReceiver) (pv : Rtp.PacketView) (steadyUs : ℤ) :
    TimelineReceiver × List Captured :=
  match r.engine.absSendTimeOf pv with
  | none => (r, [])
  | some ast =>
    let (srTracker, captureUs, skewUs) :=
      r.srTracker.captureTsUsFor (captureQuery pv ast steadyUs)
    ({ r with srTracker }, captureUs.toList.map fun us => ⟨pv.ssrc, us, skewUs⟩)

/-- `handle_rtp`, as far as the timeline goes. -/
def handleRtp (r : TimelineReceiver) (pv : Rtp.PacketView) (steadyUs : ℤ) :
    TimelineReceiver × List Captured :=
  if r.engine.cfg.timelineEnabled then (r.pinClockRate pv).observeTimeline pv steadyUs else (r, [])

variable (fitSlope : List (ℤ × ℤ) → ℤ)

/-- A Sender Report of a compound packet. -/
def handleRtcp (r : TimelineReceiver) (sr : Rtp.SenderReport) (steadyUs : ℤ) : TimelineReceiver :=
  if r.engine.cfg.timelineEnabled then
    { r with
      srTracker := r.srTracker.update sr.ssrc
        (·.onSenderReport fitSlope r.srTracker.slopeCfg sr steadyUs) }
  else r

/-- One event. -/
def step (r : TimelineReceiver) : TimelineEvent → TimelineReceiver × List Captured
  | .engine ev => ({ r with engine := (r.engine.step ev).1 }, [])
  | .setMonotonicOrigin origin => ({ r with srTracker := { r.srTracker with origin } }, [])
  | .handleRtp pv steadyUs => r.handleRtp pv steadyUs
  | .handleRtcp sr steadyUs => (r.handleRtcp fitSlope sr steadyUs, [])

/-- The receiver under a list of events. -/
def machine : Machine TimelineReceiver TimelineEvent Captured := ⟨step fitSlope⟩

end TimelineReceiver

end NimRtc
