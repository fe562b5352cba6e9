import NimRtc.VideoRtcpFeedback
import NimRtc.VideoSender

/-!
# The feedback bridge

`video_pipeline.cpp`: a receiver's feedback is written as a NACK and a PLI, and a sender answers the
packets of a compound with calls of `retransmit` and `force_keyframe`.
-/

namespace NimRtc

open Rtp (RtpError protocolError readBe16)
open VideoRtcpFeedback

/-- What the receiver asks the sender for. -/
structure ReceiverFeedback where
  missingPackets : List UInt16 := []
  keyframeRequested : Bool := false
  deriving DecidableEq, Repr

/-- What feedback makes of the sender. -/
inductive FeedbackCall
  | retransmit (seq : UInt16)
  | forceKeyframe
  deriving DecidableEq, Repr

/-- The sender after a call, and whether the call counts as an action. -/
def FeedbackCall.run (s : VideoSender) : FeedbackCall → VideoSender × Bool
  | .retransmit seq => ((s.retransmit seq).1, (s.retransmit seq).2.isSome)
  | .forceKeyframe => (s.forceKeyframe, true)

/-- The loop over a compound: the sender, the calls made so far, and `actions`. -/
structure FeedbackRun where
  sender : VideoSender
  calls : List FeedbackCall := []
  actions : ℕ := 0

/-- A call on the sender, noted and counted. -/
def FeedbackRun.call (r : FeedbackRun) (c : FeedbackCall) : FeedbackRun where
  sender := (c.run r.sender).1
  calls := r.calls ++ [c]
  actions := if (c.run r.sender).2 then r.actions + 1 else r.actions

/-- The calls for one packet: packets of other kinds are skipped. -/
def feedbackCalls (packet : List UInt8) : Except RtpError (List FeedbackCall) :=
  let fmt := packet.getD 0 0 &&& 0x1F
  let pt := packet.getD 1 0
  if pt = kRtpfbPt ∧ fmt = kFmtNack then
    if packet.length < kNackMinSize then
      .error (protocolError "video_pipeline: RTCP NACK too short")
    else do
      let p ← parseNack packet
      return (unpackNackEntries p).map .retransmit
  else if pt = kPsfbPt ∧ fmt = kFmtPli then
    if packet.length < kPliPacketSize then
      .error (protocolError "video_pipeline: RTCP PLI too short")
    else do
      let _ ← parsePli packet
      return [.forceKeyframe]
  else if pt = kPsfbPt ∧ fmt = kFmtFir then
    if packet.length < kPliPacketSize then
      .error (protocolError "video_pipeline: RTCP FIR too short")
    else do
      let _ ← parseFir packet
      return [.forceKeyframe]
  else .ok []

/-- The loop of `apply_feedback_rtcp` over the bytes that are left. -/
def applyFrom (r : FeedbackRun) (rtcp : List UInt8) : FeedbackRun × Except RtpError ℕ :=
  if _hsome : rtcp.length = 0 then (r, .ok r.actions)
  else if rtcp.length < kRtcpHeaderSize then
    (r, .error (protocolError "video_pipeline: RTCP feedback truncated (header)"))
  else
    let packetSize := ((readBe16 rtcp 2).toNat + 1) * 4
    if packetSize < kRtcpHeaderSize ∨ rtcp.length < packetSize then
      (r, .error (protocolError "video_pipeline: RTCP feedback length field invalid"))
    else
      match feedbackCalls (rtcp.take packetSize) with
      | .error e => (r, .error e)
      | .ok calls => applyFrom (calls.foldl FeedbackRun.call r) (rtcp.drop packetSize)
  termination_by rtcp.length
  decreasing_by
    rw [List.length_drop]
    omega

/-- `apply_feedback_rtcp`, packet after packet. -/
def applyFeedbackRtcp (sender : VideoSender) (rtcp : List UInt8) :
    FeedbackRun × Except RtpError ℕ :=
  applyFrom { sender } rtcp

end NimRtc
