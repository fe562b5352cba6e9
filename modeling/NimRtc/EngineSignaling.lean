import NimRtc.Engine
import NimRtc.Fingerprint

/-!
# Offers and answers

`create_offer` and `process_remote_sdp` of `engine_signaling.cpp`. A description is what the
parser reads from its text and the munger writes; whether the munger succeeds, the identifier of
a new session, and what ICE has gathered are the environment's choice.
-/

namespace NimRtc

/-- What ICE answers when it is asked for its own side. -/
structure IceLocal where
  ufrag : String := ""
  password : String := ""
  candidates : List String := []
  deriving DecidableEq, Repr

/-- What `process_remote_sdp` returns: `std::nullopt`, the empty text, or an answer. -/
inductive SdpResult
  | failed
  | empty
  | answer (d : SessionDescription)
  deriving DecidableEq, Repr

/-- The header extension of the send time, its id where none was negotiated, and the SSRC of audio.
-/
def absSendTimeUri : String := "http://www.webrtc.org/experiments/rtp-hdrext/abs-send-time"

def absSendTimeDefaultLocalId : UInt16 := 4

def audioSsrcOnWire : UInt32 := 0xDEADBEEF

/-- A candidate without the label that libjuice puts before it. -/
def stripCandidate (c : String) : String :=
  if c.toList.take 12 = "a=candidate:".toList then String.ofList (c.toList.drop 12)
  else if c.toList.take 10 = "candidate:".toList then String.ofList (c.toList.drop 10)
  else c

/-- `parse_payload_type` -/
def parsePayloadType (fmt : String) : Option UInt8 :=
  if fmt = "" ∨ 3 < fmt.length then none
  else if ¬ fmt.toList.all Char.isDigit then none
  else
    let v := fmt.toList.foldl (fun v c => v * 10 + (c.toNat - '0'.toNat)) 0
    if 127 < v then none else some (UInt8.ofNat v)

/-- `emplace`: the first entry of a key stays. -/
def emplaceRate (rates : List (UInt8 × UInt32)) (pt : UInt8) (rate : UInt32) :
    List (UInt8 × UInt32) :=
  if rates.any fun p => p.1 = pt then rates else rates ++ [(pt, rate)]

/-- The clock rates a description declares, with those of the static payload types. -/
def remoteClockRates (media : List MediaDescription) : List (UInt8 × UInt32) :=
  let declared := (media.flatMap (·.rtpmap)).foldl (fun rates (fmt, map) =>
    match parsePayloadType fmt with
    | none => rates
    | some pt => if map.clockRate = 0 then rates else emplaceRate rates pt map.clockRate) []
  [(0, 8000), (8, 8000), (9, 8000)].foldl (fun rates p => emplaceRate rates p.1 p.2) declared

/-- The credentials and candidates of a description as ICE takes them, if it has credentials:
those of the session or else of the first section that has them. -/
def iceBlock (remote : SessionDescription) : Option String :=
  let last (key : String) : String := remote.extraAttrs.foldl (fun v p =>
    if p.1 = key ∧ p.2 ≠ "" then p.2 else v) ""
  let creds (u p : String) : Option String :=
    if u = "" ∨ p = "" then none else some ("a=ice-ufrag:" ++ u ++ "\n" ++ "a=ice-pwd:" ++ p ++ "\n")
  let (wrote, block) := remote.media.foldl (fun (wrote, block) (m : MediaDescription) =>
      let own := if wrote then none else creds m.iceUfrag m.icePwd
      (wrote || own.isSome, block ++ own.getD "" ++
        String.join (m.candidates.map fun c => "a=candidate:" ++ c ++ "\n")))
    (let session := creds (last "ice-ufrag") (last "ice-pwd")
     (session.isSome, session.getD ""))
  if wrote && block ≠ "" then some block else none

/-- The version of an answer: the offer's plus one if it is a number. -/
def answerVersion (v : String) : String :=
  if v = "" then "1"
  else if v.length ≤ 9 ∧ v.toList.all Char.isDigit then
    toString (v.toList.foldl (fun n c => n * 10 + (c.toNat - '0'.toNat)) 0 + 1)
  else v

/-- The direction of an answer to a direction. -/
def answerDirection : Direction → Direction
  | .sendRecv => .sendRecv
  | .sendOnly => .recvOnly
  | .recvOnly => .sendOnly
  | .inactive => .inactive

/-- The role and the `a=setup` value that `process_remote_sdp` settles on. An offer is always
answered as the server. -/
def resolveRole (remoteIsAnswer : Bool) (peerSetup : String) : DtlsRole × String :=
  if remoteIsAnswer then
    if peerSetup = "passive" then (.client, "active")
    else if peerSetup = "active" then (.server, "passive")
    else (.server, "passive")
  else (.server, "passive")

namespace Engine

/-- The fingerprint that a description carries, once there are modules. -/
def fingerprintAlgo (e : Engine) : String := if e.modules then "sha-256" else ""

def fingerprintValue (e : Engine) : String := if e.modules then e.localFingerprint else ""

/-- The line for the send time. -/
def absSendTimeMap (id : UInt16) : ExtMap := { id := id.toNat, uri := absSendTimeUri }

/-- What the sections of an offer have in common. -/
def offerSection (e : Engine) (ice : IceLocal) (type : MediaType) (mid : String) :
    MediaDescription where
  type := type
  port := 9
  mid := mid
  iceUfrag := ice.ufrag
  icePwd := ice.password
  iceOptions := "trickle"
  dtlsSetup := "actpass"
  dtlsFingerprintAlgo := e.fingerprintAlgo
  dtlsFingerprintValue := e.fingerprintValue
  candidates := ice.candidates.map stripCandidate

/-- The audio section of an offer. -/
def offerAudio (e : Engine) (ice : IceLocal) : MediaDescription :=
  let pt := toString e.cfg.audioCodec.payloadType
  { e.offerSection ice .audio "0" with
    protocol := "UDP/TLS/RTP/SAVPF"
    formats := [pt]
    rtcpMuxValue := "rtcp-mux"
    rtpmap := [(pt, {
      encoding := e.cfg.audioCodec.encoding
      clockRate := e.cfg.audioCodec.clockRate
      channels := e.cfg.audioCodec.channels.toUInt32 })]
    fmtp := if e.cfg.audioCodec.fmtp = "" then [] else [(pt, e.cfg.audioCodec.fmtp)]
    extraAttrs := [("ssrc", toString audioSsrcOnWire ++ " cname:nimrtc-audio")]
    extmap := if e.cfg.timelineEnabled then [absSendTimeMap absSendTimeDefaultLocalId] else [] }

/-- The video section of an offer. -/
def offerVideo (e : Engine) (ice : IceLocal) : MediaDescription :=
  let pt := toString e.cfg.videoReceiverPayloadType
  { e.offerSection ice .video "1" with
    protocol := "UDP/TLS/RTP/SAVPF"
    formats := [pt]
    rtcpMuxValue := "rtcp-mux"
    rtpmap := [(pt, { encoding := "H264", clockRate := 90000, channels := 1 })]
    fmtp := [(pt, if e.cfg.videoCodec then
        "profile-level-id=42E01F;packetization-mode=1;level-asymmetry-allowed=1;"
          ++ "sprop-parameter-sets=Z0LAHtkA,aM4G4g=="
      else "profile-level-id=42E01F;packetization-mode=1")]
    rtcpFb := [pt ++ " nack", pt ++ " nack pli", pt ++ " goog-remb"]
    extraAttrs := [("ssrc", toString e.cfg.videoSenderSsrc ++ " cname:nimrtc-video")]
    extmap := if e.cfg.timelineEnabled then [absSendTimeMap absSendTimeDefaultLocalId] else [] }

/-- The section of the data channels. -/
def offerApplication (e : Engine) (ice : IceLocal) : MediaDescription :=
  { e.offerSection ice .application "2" with
    protocol := "UDP/DTLS/SCTP"
    extraAttrs := [("sctp-port", toString e.cfg.sctpPort), ("max-message-size", "6556")] }

/-- The data channels go over WebTransport. -/
def webTransport (e : Engine) : Bool :=
  if e.resolvedDcFactoryId ≠ "" then e.resolvedDcFactoryId = "web_transport"
  else e.cfg.datachannelBackend = "web_transport"

/-- The sections of an offer. -/
def offerMedia (e : Engine) (ice : IceLocal) : List MediaDescription :=
  [e.offerAudio ice]
    ++ (if e.cfg.videoReceiver || e.videoSender.isSome then [e.offerVideo ice] else [])
    ++ (if !e.webTransport && e.cfg.datachannelName ≠ "" then [e.offerApplication ice] else [])

/-- `create_offer` -/
def createOffer (e : Engine) (sessionId : String) (ice : IceLocal) (mungerOk : Bool) :
    Engine × Option SessionDescription :=
  let media := e.offerMedia ice
  let sdp : SessionDescription := {
    originSessionId := sessionId
    originSessionVersion := "1"
    bundleMids := media.map (·.mid)
    media }
  let e := { e with
    localSessionId := sessionId
    localAbsSendTimeId :=
      if e.cfg.timelineEnabled then absSendTimeDefaultLocalId else e.localAbsSendTimeId }
  if mungerOk then ({ e with localSdp := some sdp }, some sdp) else (e, none)

/-- The description has the session id of the engine's own offer. -/
def remoteIsAnswer (e : Engine) (remote : SessionDescription) : Bool :=
  e.localSessionId ≠ "" && remote.originSessionId = e.localSessionId

/-- The role and the fingerprint of the first section that is recognised. -/
def applyDtlsSection (e : Engine) (isAnswer : Bool) (m : MediaDescription) : Engine :=
  let (role, setup) := resolveRole isAnswer (if m.dtlsSetup = "" then "actpass" else m.dtlsSetup)
  let d := e.dtls.setRole role
  { e with
    dtls := if m.dtlsFingerprintAlgo ≠ "" ∧ m.dtlsFingerprintValue ≠ "" then
        d.setPeerFingerprint m.dtlsFingerprintAlgo (Fingerprint.decode m.dtlsFingerprintValue)
      else d
    dtlsIsClient := role = .client
    dtlsLocalSetup := setup
    history := { e.history with
      signalled := if m.carriesFingerprint then
          some (m.dtlsFingerprintAlgo, m.dtlsFingerprintValue)
        else e.history.signalled } }

/-- The extension id the peer sends its abs-send-time under, the first time one is read. -/
def peerAbsSendTimeId (media : List MediaDescription) : Option UInt16 :=
  let maps := (media.filter fun m => m.type ≠ .application).flatMap (·.extmap)
  (maps.find? fun x => x.uri = absSendTimeUri
      && (x.direction = .sendRecv || x.direction = .sendOnly) && 0 < x.id && x.id ≤ 255).map
    fun x => UInt16.ofNat x.id.toNat

/-- The values of an attribute of an application section, or the default if it has none. -/
def echoAttr (m : MediaDescription) (key value : String) : List (String × String) :=
  let found := m.extraAttrs.filter fun p => p.1 = key && p.2 ≠ ""
  if found = [] then [(key, value)] else found

/-- The section that answers one of the offer. -/
def answerSection (e : Engine) (ice : IceLocal) (sections : ℕ) (absSendTimeId : UInt16)
    (m : MediaDescription) : MediaDescription where
  type := m.type
  port := 9
  protocol := if m.protocol = "" then "UDP/TLS/RTP/SAVPF" else m.protocol
  formats := m.formats
  direction := answerDirection m.direction
  mid := if m.mid = "" then toString sections else m.mid
  rtcpMuxValue := if m.type = .application then "" else "rtcp-mux"
  iceUfrag := ice.ufrag
  icePwd := ice.password
  dtlsSetup := if e.dtlsLocalSetup = "" then "active" else e.dtlsLocalSetup
  dtlsFingerprintAlgo := e.fingerprintAlgo
  dtlsFingerprintValue := e.fingerprintValue
  rtpmap := if m.type = .application then [] else m.rtpmap
  fmtp := m.fmtp
  rtcpFb := if m.type = .video then m.rtcpFb else []
  extraAttrs :=
    match m.type with
    | .video => [("ssrc", toString e.cfg.videoSenderSsrc ++ " cname:nimrtc-video")]
    | .application =>
      echoAttr m "sctp-port" (toString e.cfg.sctpPort) ++ echoAttr m "max-message-size" "6556"
    | _ => []
  extmap := if e.cfg.timelineEnabled && m.type ≠ .application then [absSendTimeMap absSendTimeId]
    else []
  candidates := ice.candidates.map stripCandidate

/-- The clock rates and the ICE side of a remote description. -/
def applyIce (e : Engine) (remote : SessionDescription) : Engine :=
  { e with
    remoteClockRateHz := remoteClockRates remote.media
    iceRemoteDescription :=
      match iceBlock remote with
      | some block => some block
      | none => e.iceRemoteDescription }

/-- The first section that is recognised decides on DTLS. -/
def applyDtls (e : Engine) (isAnswer : Bool) (remote : SessionDescription) : Engine :=
  match remote.media.find? (·.recognised) with
  | none => e
  | some m => e.applyDtlsSection isAnswer m

/-- The peer's id for the send time is kept from the first description that has one. -/
def learnAbsSendTimeId (e : Engine) (remote : SessionDescription) : Engine :=
  { e with
    remoteAbsSendTimeId := if e.cfg.timelineEnabled && e.remoteAbsSendTimeId = 0 then
        (peerAbsSendTimeId remote.media).getD 0
      else e.remoteAbsSendTimeId }

/-- A remote description as far as it is applied, whether it is an offer or an answer. -/
def applyRemote (e : Engine) (remote : SessionDescription) : Engine :=
  ((e.applyIce remote).applyDtls (e.remoteIsAnswer remote) remote).learnAbsSendTimeId remote

/-- The extension id an answer declares for the engine's own abs-send-time. -/
def answerAbsSendTimeId (e : Engine) : UInt16 :=
  if e.localAbsSendTimeId ≠ 0 then e.localAbsSendTimeId else absSendTimeDefaultLocalId

/-- The answer to an offer. -/
def answerTo (e : Engine) (remote : SessionDescription) (ice : IceLocal) : SessionDescription :=
  let media := (remote.media.filter (·.recognised)).map
    (e.answerSection ice remote.media.length e.answerAbsSendTimeId)
  let mids := (media.map (·.mid)).filter (· ≠ "")
  { originSessionId := remote.originSessionId
    originSessionVersion := answerVersion remote.originSessionVersion
    bundleMids := if media = [] then remote.bundleMids else if mids = [] then ["0"] else mids
    media }

/-- The id that an answer declares is the engine's own from then on. -/
def declareAbsSendTimeId (e : Engine) (remote : SessionDescription) : Engine :=
  { e with
    localAbsSendTimeId :=
      if e.cfg.timelineEnabled
          && remote.media.any fun m => m.recognised && m.type ≠ .application then
        e.answerAbsSendTimeId
      else e.localAbsSendTimeId }

/-- `process_remote_sdp` -/
def processRemoteSdp (e : Engine) (parsed : Option SessionDescription) (ice : IceLocal)
    (mungerOk : Bool) : Engine × SdpResult :=
  if e.state ≠ .open then (e, .failed)
  else
    match parsed with
    | none => (e, .failed)
    | some remote =>
      if e.remoteIsAnswer remote then (e.applyRemote remote, .empty)
      else
        ((e.applyRemote remote).declareAbsSendTimeId remote,
          if mungerOk then .answer ((e.applyRemote remote).answerTo remote ice) else .failed)

end Engine

end NimRtc
