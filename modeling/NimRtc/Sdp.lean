import Mathlib

/-!
# Session descriptions

The data of `modules/sdp`: what `sdp::Parser::parse` gives and `sdp::Munger::to_sdp` takes, with
the fields the engine reads and writes. A `std::map` is the list of its entries in key order.
-/

namespace NimRtc

/-- `MediaType` -/
inductive MediaType
  | audio
  | video
  | application
  | data
  | other
  deriving DecidableEq, Repr

/-- `Direction` -/
inductive Direction
  | sendRecv
  | sendOnly
  | recvOnly
  | inactive
  deriving DecidableEq, Repr

/-- `RtpMap`: one a=rtpmap. -/
structure RtpMap where
  encoding : String
  clockRate : UInt32 := 0
  channels : UInt32 := 1
  deriving DecidableEq, Repr

/-- `ExtMap`: one a=extmap. -/
structure ExtMap where
  id : Int
  direction : Direction := .sendRecv
  uri : String
  deriving DecidableEq, Repr

/-- `MediaDescription`: one m= section. -/
structure MediaDescription where
  type : MediaType := .audio
  port : ℕ := 0
  protocol : String := ""
  formats : List String := []
  direction : Direction := .sendRecv
  mid : String := ""
  iceUfrag : String := ""
  icePwd : String := ""
  iceOptions : String := ""
  dtlsFingerprintAlgo : String := ""
  dtlsFingerprintValue : String := ""
  dtlsSetup : String := ""
  rtcpMuxValue : String := ""
  rtpmap : List (String × RtpMap) := []
  fmtp : List (String × String) := []
  rtcpFb : List String := []
  extmap : List ExtMap := []
  candidates : List String := []
  extraAttrs : List (String × String) := []
  deriving DecidableEq, Repr

/-- `SessionDescription` -/
structure SessionDescription where
  version : Int := 0
  sessionName : String := "-"
  originUsername : String := "-"
  originSessionId : String := ""
  originSessionVersion : String := ""
  originAddress : String := "0.0.0.0"
  bundleMids : List String := []
  msidSemanticToken : String := "WMS"
  extraAttrs : List (String × String) := []
  media : List MediaDescription := []
  deriving DecidableEq, Repr

namespace MediaDescription

/-- The sections the engine negotiates: audio, video and application. -/
def recognised (m : MediaDescription) : Bool :=
  m.type = .audio || m.type = .video || m.type = .application

/-- The section has an `a=fingerprint` line of its own or of the session. -/
def carriesFingerprint (m : MediaDescription) : Bool :=
  m.dtlsFingerprintAlgo ≠ "" || m.dtlsFingerprintValue ≠ ""

end MediaDescription

end NimRtc
