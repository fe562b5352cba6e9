import NimRtc.FeedbackBridge
import NimRtc.RtpPlugin
import NimRtc.Timeline
import NimRtc.Lib.Framing

/-!
# Walks over RTCP compounds

`handle_rtcp` of `engine_media.cpp` gives a datagram to the video sender's adapter, and then walks
it once more for Sender Reports. Its walk, the loop of `apply_feedback_rtcp` and the scan of the RTP
plugin are written apart from each other. What each of them goes over is a list of sub-packets.
-/

namespace NimRtc

open Rtp (readBe16 SenderReportTracker)
open VideoRtcpFeedback (kRtcpHeaderSize)

/-! ### The sender's adapter -/

/-- `SenderAdapter`: the sender, and the key frames that were asked for. -/
structure SenderAdapter where
  concrete : Option VideoSender
  keyframeRequests : UInt32 := 0

namespace SenderAdapter

/-- The number of actions is 0 after an error, whatever was done before it. -/
def applyFeedbackRtcp (a : SenderAdapter) (rtcp : List UInt8) : SenderAdapter × ℕ :=
  match a.concrete with
  | none => (a, 0)
  | some sender =>
    let before := sender.stats.forceKeyframeCalls
    let (run, r) := NimRtc.applyFeedbackRtcp sender rtcp
    let after := run.sender.stats.forceKeyframeCalls
    let requests :=
      if before < after then a.keyframeRequests + UInt32.ofNat (after - before)
      else a.keyframeRequests
    (⟨some run.sender, requests⟩, r.toOption.getD 0)

/-- `take_keyframe_requests` -/
def takeKeyframeRequests (a : SenderAdapter) : SenderAdapter × UInt32 :=
  ({ a with keyframeRequests := 0 }, a.keyframeRequests)

end SenderAdapter

/-! ### The engine -/

/-- What `handle_rtcp` reads and writes of the engine. `keyframesForced` counts the calls of the
codec, which there need not be. -/
structure RtcpHandler where
  timelineEnabled : Bool
  videoSender : Option SenderAdapter := none
  hasVideoCodec : Bool := false
  srTracker : SenderReportTracker := {}
  videoFeedbackApplied : ℕ := 0
  videoKeyframesApplied : ℕ := 0
  keyframesForced : ℕ := 0

namespace RtcpHandler

/-- The feedback in a compound goes to the video sender. -/
def applyFeedback (h : RtcpHandler) (view : List UInt8) : RtcpHandler :=
  match h.videoSender with
  | none => h
  | some sender =>
    let (sender, actions) := sender.applyFeedbackRtcp view
    let (sender, keyframeRequests) := sender.takeKeyframeRequests
    { h with
      videoSender := some sender
      videoFeedbackApplied := h.videoFeedbackApplied + actions
      videoKeyframesApplied := h.videoKeyframesApplied + keyframeRequests.toNat
      keyframesForced :=
        if 0 < keyframeRequests ∧ h.hasVideoCodec then h.keyframesForced + 1
        else h.keyframesForced }

section Walk

variable (fitSlope : List (ℤ × ℤ) → ℤ) (steadyNowUs : ℕ → ℤ)

/-- A Sender Report is observed, at the reading of the clock there. -/
def onPacket (tracker : SenderReportTracker) (packet : List UInt8) (localRecvUs : ℤ) :
    SenderReportTracker :=
  if packet.getD 1 0 = 200 then
    match Rtp.parseSr packet with
    | .error _ => tracker
    | .ok sr =>
      tracker.update sr.ssrc (·.onSenderReport fitSlope tracker.slopeCfg sr localRecvUs)
  else tracker

/-- The loop of `handle_rtcp` from `off` on: the tracker, and the sub-packets it goes over. The
clock is read anew at each offset. -/
def walkFrom (view : List UInt8) (tracker : SenderReportTracker) (off : ℕ) :
    SenderReportTracker × List (List UInt8) :=
  if off + 4 ≤ view.length then
    let subLen := ((readBe16 view (off + 2)).toNat + 1) * 4
    if subLen < 4 ∨ view.length < off + subLen then (tracker, [])
    else
      let packet := (view.drop off).take subLen
      let r := walkFrom view (onPacket fitSlope tracker packet (steadyNowUs off)) (off + subLen)
      (r.1, packet :: r.2)
  else (tracker, [])
termination_by view.length - off

/-- `handle_rtcp`: the feedback, and the Sender Reports for the timeline. -/
def handleRtcp (h : RtcpHandler) (view : List UInt8) : RtcpHandler × List (List UInt8) :=
  let h := h.applyFeedback view
  if !h.timelineEnabled then (h, [])
  else
    let r := walkFrom fitSlope steadyNowUs view h.srTracker 0
    ({ h with srTracker := r.1 }, r.2)

end Walk

end RtcpHandler

/-! ### The other walks -/

/-- What the loop of `apply_feedback_rtcp` goes over, up to a sub-packet that ends it. -/
def feedbackVisits (rtcp : List UInt8) : List (List UInt8) :=
  if _hsome : rtcp.length = 0 then []
  else if rtcp.length < kRtcpHeaderSize then []
  else
    let packetSize := ((readBe16 rtcp 2).toNat + 1) * 4
    if packetSize < kRtcpHeaderSize ∨ rtcp.length < packetSize then []
    else
      match feedbackCalls (rtcp.take packetSize) with
      | .error _ => [rtcp.take packetSize]
      | .ok _ => rtcp.take packetSize :: feedbackVisits (rtcp.drop packetSize)
  termination_by rtcp.length
  decreasing_by
    rw [List.length_drop]
    omega

/-- What `scan_rtcp_compound` cuts a buffer into. -/
def scanVisits (raw : Plugins.BufferView) : List (List UInt8) :=
  (Rtp.scanRtcpCompound raw).map (·.raw.bytes)

/-! ### Sub-packets -/

namespace Rtcp

/-- A sub-packet is as long as its length field says. -/
def nextSubPacket (rtcp : List UInt8) : Option (List UInt8 × List UInt8) :=
  let size := ((readBe16 rtcp 2).toNat + 1) * 4
  if rtcp.length < 4 ∨ rtcp.length < size then none else some (rtcp.take size, rtcp.drop size)

/-- Records what it is given. -/
def recorder : Machine Unit (List UInt8) (List UInt8) := ⟨fun _ packet => ((), [packet])⟩

/-- The sub-packets of a datagram, and what is left of it. -/
def subPackets (rtcp : List UInt8) : List (List UInt8) × List UInt8 :=
  let r := Framing.loop nextSubPacket recorder rtcp.length () rtcp
  (r.1.2, r.2)

/-- The compound is made of whole packets. -/
def Complete (rtcp : List UInt8) : Prop := (subPackets rtcp).2 = []

/-- The sender has an answer for the sub-packet, if only to skip it. -/
def accepted (packet : List UInt8) : Bool := (feedbackCalls packet).isOk

/-- The calls that a packet asks for. -/
def callsOf (packet : List UInt8) : List FeedbackCall := (feedbackCalls packet).toOption.getD []

/-- The calls for the sub-packets up to one that is not accepted. -/
def callsBefore (packets : List (List UInt8)) : List FeedbackCall :=
  (packets.takeWhile accepted).flatMap callsOf

/-- Something is left of the datagram, or a sub-packet is not accepted. -/
def Malformed (rtcp : List UInt8) : Prop :=
  (subPackets rtcp).2 ≠ [] ∨ ∃ packet ∈ (subPackets rtcp).1, accepted packet = false

end Rtcp

/-- A call that does nothing: the packet is not held any more. -/
def FeedbackCall.Idle (sender : VideoSender) : FeedbackCall → Prop
  | .retransmit seq => sender.findCached seq = none
  | .forceKeyframe => False

/-- Nothing was retransmitted, and no key frame requested. -/
def VideoSender.Untouched (before after : VideoSender) : Prop :=
  after.stats.packetsRetransmitted = before.stats.packetsRetransmitted
    ∧ after.stats.forceKeyframeCalls = before.stats.forceKeyframeCalls

end NimRtc
