import NimRtc.Engine
import NimRtc.EngineSignaling

/-!
# The media paths of the engine

`send_audio`, `send_video` with the video packet callback, the Sender Reports and the video
feedback of `engine_media.cpp` and `engine_timeline.cpp`, and what an inbound RTP or RTCP packet
does to the send side. What codecs, packet builders and libsrtp give is the environment's choice.
-/

namespace NimRtc

/-- libsrtp's answers on one packet: whether it creates the session if there is none, and what it
makes of the packet. -/
structure LibSrtpCall where
  create : Bool := true
  out : Option (List UInt8) := some []
  deriving DecidableEq

/-- One call of `send_audio`. -/
structure AudioFrame where
  /-- The samples are there. -/
  pcm : Bool := true
  /-- `wolfSSL_is_init_finished` of the DTLS session. -/
  initFinished : Bool := true
  encoded : List UInt8
  /-- What the packet builder makes of it. -/
  packet : List UInt8
  rtpTs : UInt32 := 0
  sendUnixUs : Int := 0
  lib : LibSrtpCall := {}

/-- One call of `send_video`: the frame as the codec encodes it, if it does. -/
structure VideoFrame where
  encoded : Option (List (List UInt8) × Bool)
  rtpTs : UInt32 := 0
  /-- The answers of libsrtp, packet by packet. -/
  lib : ℕ → LibSrtpCall := fun _ => {}

/-- What `apply_feedback_rtcp` reads from an RTCP packet. -/
inductive FeedbackAction
  | nack (seq : UInt16)
  | keyframe
  deriving DecidableEq, Repr

/-- The bytes of an RTCP packet of the engine's own and libsrtp's answers on it. -/
structure RtcpBuild where
  bytes : List UInt8
  lib : LibSrtpCall := {}

def beBytes16 (n : UInt16) : List UInt8 := [(n >>> 8).toUInt8, n.toUInt8]

def beBytes32 (n : UInt32) : List UInt8 :=
  [(n >>> 24).toUInt8, (n >>> 16).toUInt8, (n >>> 8).toUInt8, n.toUInt8]

/-- The RTP header the video packet callback writes. -/
def videoRtpHeader (cfg : EngineConfig) (p : CachedPacket) : List UInt8 :=
  [0x80, (if p.marker then 0x80 else 0) ||| (cfg.videoSenderPayloadType &&& 0x7F)]
    ++ beBytes16 p.seq ++ beBytes32 p.rtpTs ++ beBytes32 cfg.videoSenderSsrc

/-- What each feedback action does to the sender, and the packet it hands to the callback. -/
def VideoSender.applyFeedback (s : VideoSender) : List FeedbackAction →
    VideoSender × List CachedPacket
  | [] => (s, [])
  | .nack seq :: rest =>
    let (s, p) := s.retransmit seq
    let (s, ps) := s.applyFeedback rest
    (s, p.toList ++ ps)
  | .keyframe :: rest => s.forceKeyframe.applyFeedback rest

namespace Engine

/-- What every send path does with a packet before it sends it: protected with the session of its
SSRC once keys are installed, dropped if that fails, and as it is before. -/
def protectOrPass (e : Engine) (rtcp : Bool) (ssrc : UInt32) (packet : List UInt8)
    (lib : LibSrtpCall) : Engine × Option (List UInt8 × Option PacketCall) :=
  if e.srtpInstalled then
    let (sess, srtp) := e.srtp.getSession ssrc true lib.create
    match sess with
    | none => ({ e with srtp }, none)
    | some s =>
      let call : PacketCall := ⟨s, rtcp, packet, lib.out⟩
      match call.protect with
      | .error _ => ({ e with srtp }, none)
      | .ok out => ({ e with srtp }, some (out, some call))
  else (e, some (packet, none))

/-- Where a media packet goes: to the scheduler if there is one, else to ICE. -/
def sendPath (e : Engine) (p : Priority) : SendPath :=
  if e.cfg.scheduler then .scheduler p else .ice

/-- The video packet callback. -/
def videoPacket (e : Engine) (p : CachedPacket) (lib : LibSrtpCall) :
    Engine × List EngineReport :=
  match e.protectOrPass false e.cfg.videoSenderSsrc (videoRtpHeader e.cfg p ++ p.payload) lib with
  | (e, none) => (e, [])
  | (e, some (bytes, call)) =>
    let keyframe := p.marker && e.videoKeyframePending
    ({ e with
        videoKeyframePending := e.videoKeyframePending && !keyframe
        videoPacketsSent := e.videoPacketsSent + 1
        videoBytesSent := e.videoBytesSent + bytes.length },
      [.emitted ⟨.video, e.sendPath (if keyframe then .videoKeyframe else .video), bytes, call⟩])

/-- The packets of a frame, one after the other. -/
def videoPackets (e : Engine) : List CachedPacket → (ℕ → LibSrtpCall) → Engine × List EngineReport
  | [], _ => (e, [])
  | p :: ps, lib => andThen (e.videoPacket p (lib 0)) fun e => e.videoPackets ps fun n => lib (n + 1)

/-- The packets `send_video` hands to the callback, with the sender after them. -/
def videoToSend (e : Engine) (f : VideoFrame) : Option (VideoSender × List CachedPacket) :=
  if e.isOpen && e.cfg.videoCodec then
    match e.videoSender, f.encoded with
    | some s, some (nalus, _) => (s.emitH264 nalus f.rtpTs).toOption
    | _, _ => none
  else none

/-- `send_video` -/
def sendVideo (e : Engine) (f : VideoFrame) : Engine × List EngineReport :=
  let keyframe := e.isOpen && e.cfg.videoCodec && e.videoSender.isSome
    && (f.encoded.map (·.2)).getD false
  match e.videoToSend f with
  | none => ({ e with videoKeyframePending := e.videoKeyframePending || keyframe }, [])
  | some (s, packets) =>
    andThen ({ e with
        videoKeyframePending := e.videoKeyframePending || keyframe
        videoSender := some s }.videoPackets packets f.lib)
      fun e => ({ e with videoFramesSent := e.videoFramesSent + 1 }, [])

/-- The engine is open, the samples are there, and the DTLS session is connected. -/
def audioReady (e : Engine) (f : AudioFrame) : Bool :=
  e.isOpen && f.pcm && e.dtls.isConnected f.initFinished && f.encoded ≠ []

/-- The state in which `send_audio` protects its packet. -/
def countAudio (e : Engine) (f : AudioFrame) : Engine :=
  { e with
    audioPacketCount := e.audioPacketCount + 1
    audioOctetCount := e.audioOctetCount + UInt32.ofNat f.encoded.length
    audioRtpTimestamp := f.rtpTs
    audioSsrc := audioSsrcOnWire }

/-- `send_audio` -/
def sendAudio (e : Engine) (f : AudioFrame) : Engine × List EngineReport :=
  if !e.audioReady f then (e, [])
  else
    let e := if e.cfg.timelineEnabled then { e with audioLastSendUnixUs := f.sendUnixUs } else e
    if f.packet = [] then (e, [])
    else
      match (e.countAudio f).protectOrPass false audioSsrcOnWire f.packet f.lib with
      | (e, none) => (e, [])
      | (e, some (bytes, call)) => (e, [.emitted ⟨.audio, e.sendPath .audio, bytes, call⟩])

/-- A Sender Report goes out: the seam is on, ICE is connected, the period is over, and audio was
sent. -/
def senderReportDue (e : Engine) (iceUp elapsed : Bool) (r : RtcpBuild) : Bool :=
  e.cfg.timelineEnabled && e.cfg.srPeriodMs ≠ 0 && iceUp && elapsed && e.audioPacketCount ≠ 0
    && 0 < e.audioLastSendUnixUs && r.bytes ≠ []

/-- An RTCP packet of the engine's own, protected and sent through ICE. -/
def sendRtcp (e : Engine) (kind : MediaKind) (ssrc : UInt32) (r : RtcpBuild) :
    Engine × List EngineReport :=
  match e.protectOrPass true ssrc r.bytes r.lib with
  | (e, none) => (e, [])
  | (e, some (bytes, call)) => (e, [.emitted ⟨kind, .ice, bytes, call⟩])

/-- `maybe_send_sender_report` -/
def maybeSendSenderReport (e : Engine) (iceUp elapsed : Bool) (r : RtcpBuild) :
    Engine × List EngineReport :=
  if e.senderReportDue iceUp elapsed r then e.sendRtcp .senderReport e.audioSsrc r else (e, [])

/-- There is feedback to send, and a way to send it. -/
def feedbackDue (e : Engine) (iceUp : Bool) (r : RtcpBuild) : Bool :=
  e.pendingVideoFeedback.isSome && e.cfg.videoReceiver && iceUp && r.bytes ≠ []

/-- `flush_video_feedback`: what was queued goes out as one compound. -/
def flushVideoFeedback (e : Engine) (iceUp : Bool) (r : RtcpBuild) : Engine × List EngineReport :=
  let taken := { e with pendingVideoFeedback := none }
  if e.feedbackDue iceUp r then taken.sendRtcp .feedback e.cfg.videoSenderSsrc r else (taken, [])

/-- `queue_video_feedback`, which merges it with what waits. -/
def queueVideoFeedback (e : Engine) (r : VideoFeedbackReport) : Engine :=
  if r.missingSeqs = [] ∧ !r.wantKeyframe then e
  else
    match e.pendingVideoFeedback with
    | none => { e with pendingVideoFeedback := some r }
    | some p => { e with
        pendingVideoFeedback := some
          ⟨p.missingSeqs ++ r.missingSeqs, p.wantKeyframe || r.wantKeyframe⟩ }

/-- `handle_rtp`, as far as the send side goes: the feedback the video receiver asks for. -/
def handleRtp (e : Engine) (feedback : Option VideoFeedbackReport) : Engine :=
  if e.cfg.videoReceiver then (feedback.map e.queueVideoFeedback).getD e else e

/-- The packets that the feedback of an RTCP packet has sent again. -/
def retransmissions (e : Engine) (actions : List FeedbackAction) : List CachedPacket :=
  (e.videoSender.map fun s => (s.applyFeedback actions).2).getD []

/-- `handle_rtcp`: the sender is told, and what was asked for is sent again. -/
def handleRtcp (e : Engine) (actions : List FeedbackAction) (lib : ℕ → LibSrtpCall) :
    Engine × List EngineReport :=
  let sender := e.videoSender.map fun s => (s.applyFeedback actions).1
  { e with videoSender := sender }.videoPackets (e.retransmissions actions) lib

end Engine

end NimRtc
