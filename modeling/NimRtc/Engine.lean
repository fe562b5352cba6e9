import NimRtc.DtlsRuns
import NimRtc.Scheduler
import NimRtc.Sdp
import NimRtc.Srtp
import NimRtc.VideoSender

/-!
# The state of the engine

`NimRTCEngine` and its `Impl` on the webrtc-classic media stack, with the fields that signalling,
the media paths and the transport share. Beside its state the engine of the model keeps a history,
which the code does not have and no operation reads, so that a report can say what happened before.
-/

namespace NimRtc

/-- The states of ICE. -/
inductive IceState
  | disconnected
  | gathering
  | connecting
  | connected
  | completed
  | failed
  deriving DecidableEq, Repr

/-- Media can be sent. -/
def IceState.up (s : IceState) : Bool := s = .connected || s = .completed

/-- How the audio codec is described. -/
structure AudioCodecConfig where
  payloadType : UInt8 := 111
  encoding : String := "opus"
  clockRate : UInt32 := 48000
  channels : UInt8 := 2
  fmtp : String := ""
  deriving DecidableEq, Repr

/-- What an engine is configured with, as far as the modelled functions read it. -/
structure EngineConfig where
  audioCodec : AudioCodecConfig := {}
  timelineEnabled : Bool := false
  srPeriodMs : ℕ := 1000
  videoSenderSsrc : UInt32 := 0xCAFEBABE
  videoSenderPayloadType : UInt8 := 102
  videoReceiverPayloadType : UInt8 := 102
  datachannelName : String := "sctp"
  datachannelBackend : String := "web_transport"
  sctpPort : UInt16 := 5000
  /-- Which of the plugins were resolved. -/
  scheduler : Bool := true
  videoReceiver : Bool := true
  videoCodec : Bool := true
  deriving DecidableEq, Repr

/-- The feedback that the video receiver asks for. -/
structure VideoFeedbackReport where
  missingSeqs : List UInt16 := []
  wantKeyframe : Bool := false
  deriving DecidableEq, Repr

/-- The states of an engine. -/
inductive EngineState
  | constructed
  | «open»
  | closed
  deriving DecidableEq, Repr

/-- What has happened to the engine, which nothing reads. -/
structure History where
  /-- The handshake the DTLS session completed last. -/
  lastHandshake : Option Handshake := none
  /-- The algorithm and the value of the fingerprint that a description carried last. -/
  signalled : Option (String × String) := none
  /-- SRTP keys were installed before. -/
  keyedOnce : Bool := false

/-- An engine: its session, its SRTP context, what was negotiated, and its counters. -/
structure Engine where
  cfg : EngineConfig := {}
  state : EngineState := .constructed
  /-- `ice_t_` is set, and with it the media stack and its DTLS session. -/
  modules : Bool := false
  resolvedDcFactoryId : String := ""
  dtls : DtlsSession := {}
  /-- `local_fingerprint().hex_colon` of the DTLS session. -/
  localFingerprint : String := ""
  srtp : SrtpContext := {}
  srtpInstalled : Bool := false
  srtpStatsDrop : ℕ := 0
  dtlsIsClient : Bool := false
  dtlsLocalSetup : String := ""
  localSessionId : String := ""
  localSdp : Option SessionDescription := none
  /-- What ICE was given as the remote description last. -/
  iceRemoteDescription : Option String := none
  localAbsSendTimeId : UInt16 := 0
  remoteAbsSendTimeId : UInt16 := 0
  remoteClockRateHz : List (UInt8 × UInt32) := []
  lastIceState : IceState := .disconnected
  iceConnectedOnce : Bool := false
  iceRehandshakeArmed : Bool := false
  videoSender : Option VideoSender := none
  videoKeyframePending : Bool := false
  videoPacketsSent : ℕ := 0
  videoBytesSent : ℕ := 0
  videoFramesSent : ℕ := 0
  pendingVideoFeedback : Option VideoFeedbackReport := none
  audioPacketCount : UInt32 := 0
  audioOctetCount : UInt32 := 0
  audioRtpTimestamp : UInt32 := 0
  audioSsrc : UInt32 := 0
  audioLastSendUnixUs : Int := 0
  history : History := {}

/-- Where a packet goes: into the scheduler, or straight to ICE. -/
inductive SendPath
  | scheduler (p : Priority)
  | ice
  deriving DecidableEq, Repr

/-- What a packet of the engine is. -/
inductive MediaKind
  | audio
  | video
  | senderReport
  | feedback
  deriving DecidableEq, Repr

/-- A media or RTCP packet that leaves the engine, with the call that protected it. -/
structure Emitted where
  kind : MediaKind
  path : SendPath
  bytes : List UInt8
  protectedBy : Option PacketCall
  deriving DecidableEq

/-- An RTP or RTCP packet handed to `handle_rtp` or `handle_rtcp`. -/
structure Handed where
  datagram : List UInt8
  packet : List UInt8
  /-- The call that unprotected it. -/
  unprotectedBy : Option PacketCall
  deriving DecidableEq

/-- What an engine does that is seen from outside. -/
inductive EngineReport
  | emitted (m : Emitted)
  | dtlsRecord (bytes : List UInt8)
  /-- What the DTLS session did. -/
  | dtls (r : DtlsReport)
  /-- SRTP keys were installed, by the engine's role; the handshake they come from. -/
  | installed (isClient : Bool) (last : Option Handshake)
  | handed (h : Handed)
  deriving DecidableEq

namespace Engine

/-- `is_open` -/
def isOpen (e : Engine) : Bool := e.state = .open

/-- The first operation and then the second, on the engine the first leaves. -/
def andThen (r : Engine × List EngineReport) (f : Engine → Engine × List EngineReport) :
    Engine × List EngineReport :=
  ((f r.1).1, r.2 ++ (f r.1).2)

/-- An operation of the DTLS session, as the engine sees it. -/
def onDtls (e : Engine) (r : DtlsSession × List DtlsReport) : Engine × List EngineReport :=
  ({ e with
      dtls := r.1
      history := { e.history with lastHandshake := lastCompleted e.history.lastHandshake r.2 } },
    r.2.map .dtls)

/-- `open`, on the default role of the DTLS factory. When a part of it fails the engine stays
constructed; the modules are created anew only if the transport is not there. -/
def «open» (e : Engine) (setup : WolfSetup) (iceOk : Bool) : Engine × List EngineReport :=
  if e.state ≠ .constructed then (e, [])
  else
    let (ok, e, reports) :=
      if e.modules then (true, e, [])
      else
        let (ok, d) := DtlsSession.open {} setup
        (ok, { e with modules := true, dtls := d, srtp := {} },
          [.dtls (.opened ok d.ssl)])
    if !ok then (e, reports)
    else if iceOk then ({ e with state := .open }, reports)
    else ({ e with modules := false }, reports)

end Engine

end NimRtc
