import NimRtc.EngineMedia

/-!
# The transport side of the engine

`tick` with the DTLS drain, the installation of the SRTP keys and the watch on ICE flaps, and the
receive path `on_transport_recv` of `engine_transport.cpp`. The state of ICE is read anew wherever
the code reads it, so that it may change in between.
-/

namespace NimRtc

/-- wolfSSL's answers while the DTLS session is drained. -/
structure DrainEnv where
  resent : Option (List UInt8) := none
  pump : WolfPump := ⟨.wantIo, []⟩

/-- What a rehandshake meets. -/
structure RehandshakeEnv where
  renegotiated : Bool := false
  setup : WolfSetup := {}
  pump : WolfPump := ⟨.wantIo, []⟩

/-- A datagram, with the answers of the environment on the way of it. -/
structure Inbound where
  bytes : List UInt8
  reassembly : Reassembly := .passed
  pump : WolfPump := ⟨.wantIo, []⟩
  iceUp : Bool := true
  drain : DrainEnv := {}
  /-- libsrtp creates the inbound session if there is none. -/
  create : Bool := true
  rtpOut : Option (List UInt8) := none
  rtcpOut : Option (List UInt8) := none
  /-- `rtp::Parser` accepts the packet. -/
  rtpParses : Bool := true
  /-- What the video receiver asks for, and what an RTCP packet asks for. -/
  feedback : Option VideoFeedbackReport := none
  actions : List FeedbackAction := []
  lib : ℕ → LibSrtpCall := fun _ => {}

/-- What a tick meets. -/
structure TickEnv where
  ice : IceState
  rehandshake : RehandshakeEnv := {}
  iceUp : Bool
  drain : DrainEnv := {}
  srIceUp : Bool := true
  srElapsed : Bool := false
  sr : RtcpBuild := ⟨[], {}⟩
  feedbackIceUp : Bool := true
  feedback : RtcpBuild := ⟨[], {}⟩
  datagrams : List Inbound := []

/-- The content types of DTLS, ChangeCipherSpec being checked for apart. -/
def isDtls (b : UInt8) : Bool := b = 21 || b = 22 || b = 23 || b = 20

/-- The RTCP payload types, which the second octet of a packet tells apart from RTP. -/
def looksLikeRtcp (packet : List UInt8) : Prop :=
  2 ≤ packet.length ∧ 192 ≤ packet.getD 1 0 ∧ packet.getD 1 0 ≤ 223

instance (packet : List UInt8) : Decidable (looksLikeRtcp packet) :=
  inferInstanceAs (Decidable (_ ∧ _))

namespace Engine

/-- The halves of the keying material that are the engine's own and the peer's. -/
def ownKeys (e : Engine) (km : SrtpKeyingMaterial) : List UInt8 × List UInt8 :=
  if e.dtlsIsClient then (km.clientMasterKey, km.clientMasterSalt)
  else (km.serverMasterKey, km.serverMasterSalt)

/-- The keys that the peer sends with. -/
def peerKeys (e : Engine) (km : SrtpKeyingMaterial) : List UInt8 × List UInt8 :=
  if e.dtlsIsClient then (km.serverMasterKey, km.serverMasterSalt)
  else (km.clientMasterKey, km.clientMasterSalt)

/-- The SRTP context with the peer's keys inbound and the engine's own outbound. -/
def installKeys (e : Engine) (km : SrtpKeyingMaterial) : SrtpContext :=
  let own := e.ownKeys km
  let peer := e.peerKeys km
  let remote := e.srtp.deriveKeysForRemote peer.1 peer.2 .aes128CmSha1_80
  if own.1 ≠ [] ∧ own.2 ≠ [] then remote.deriveKeysForLocal own.1 own.2 .aes128CmSha1_80
  else remote

/-- `maybe_install_srtp_keys`, which does so once. -/
def maybeInstallSrtpKeys (e : Engine) : Engine × List EngineReport :=
  if e.srtpInstalled then (e, [])
  else if e.dtls.state ≠ .connected then (e, [])
  else
    match e.dtls.srtpKeyingMaterial with
    | none => (e, [])
    | some km =>
      ({ e with
          srtp := e.installKeys km
          srtpInstalled := true
          history := { e.history with keyedOnce := true } },
        [.installed e.dtlsIsClient e.history.lastHandshake])

/-- `drain_dtls`: the timer, what is to be sent, and the keys once connected. -/
def drainDtls (e : Engine) (d : DrainEnv) : Engine × List EngineReport :=
  let taken := (e.dtls.tick d.resent).takeOutbound d.pump
  andThen (e.onDtls taken.2) fun e =>
    andThen (e, taken.1.map .dtlsRecord) fun e =>
      if e.dtls.state = .connected then e.maybeInstallSrtpKeys else (e, [])

/-- A rehandshake is due: ICE is up again after it was down, and the DTLS session is connected. -/
def rehandshakeDue (e : Engine) (cur : IceState) : Bool :=
  cur ≠ e.lastIceState && cur.up && !e.lastIceState.up && e.iceConnectedOnce
    && e.iceRehandshakeArmed && e.dtls.state = .connected

/-- `poll_ice_flap_for_rehandshake` -/
def pollIceFlapForRehandshake (e : Engine) (cur : IceState) (r : RehandshakeEnv) :
    Engine × List EngineReport :=
  if cur = e.lastIceState then (e, [])
  else
    let prev := e.lastIceState
    let due := e.rehandshakeDue cur
    let e := { e with lastIceState := cur }
    if cur.up && !prev.up then
      if !e.iceConnectedOnce then ({ e with iceConnectedOnce := true }, [])
      else if e.iceRehandshakeArmed then
        let e := { e with iceRehandshakeArmed := false }
        if due then
          let (status, d) := e.dtls.rehandshake r.renegotiated r.setup r.pump
          andThen (e.onDtls d) fun e =>
            (if status = .ok then { e with srtpInstalled := false } else e, [])
        else (e, [])
      else (e, [])
    else if !cur.up && e.iceConnectedOnce then ({ e with iceRehandshakeArmed := true }, [])
    else (e, [])

/-- `dispatch_media_inbound` on a packet of the datagram, unprotected by `call` if by any. -/
def dispatchMediaInbound (e : Engine) (d : Inbound) (packet : List UInt8)
    (call : Option PacketCall) : Engine × List EngineReport :=
  let handed := EngineReport.handed ⟨d.bytes, packet, call⟩
  if looksLikeRtcp packet then
    andThen (e, [handed]) fun e => e.handleRtcp d.actions d.lib
  else if d.rtpParses then (e.handleRtp d.feedback, [handed])
  else (e, [])

/-- The part of `on_transport_recv` after the DTLS records are sorted out. -/
def recvMedia (e : Engine) (d : Inbound) : Engine × List EngineReport :=
  if e.srtpInstalled then
    let (sess, srtp) := e.srtp.getSession 0 false d.create
    let e := { e with srtp }
    match sess with
    | none => e.dispatchMediaInbound d d.bytes none
    | some s =>
      let rtp : PacketCall := ⟨s, false, d.bytes, d.rtpOut⟩
      let rtcp : PacketCall := ⟨s, true, d.bytes, d.rtcpOut⟩
      match rtp.unprotect with
      | .ok packet => e.dispatchMediaInbound d packet (some rtp)
      | .error _ =>
        match rtcp.unprotect with
        | .ok packet =>
          andThen (e, [.handed ⟨d.bytes, packet, some rtcp⟩]) fun e =>
            e.handleRtcp d.actions d.lib
        | .error _ => ({ e with srtpStatsDrop := e.srtpStatsDrop + 1 }, [])
  else e.dispatchMediaInbound d d.bytes none

/-- `on_transport_recv`: a datagram goes by its first byte. -/
def onTransportRecv (e : Engine) (d : Inbound) : Engine × List EngineReport :=
  if !e.isOpen then (e, [])
  else
    match d.bytes with
    | [] => (e, [])
    | b0 :: _ =>
      if isDtls b0 then
        andThen (e.onDtls (e.dtls.feedInbound d.bytes d.reassembly d.pump)) fun e =>
          if d.iceUp then e.drainDtls d.drain else (e, [])
      else e.recvMedia d

/-- The datagrams that wait, one after the other. -/
def recvAll (e : Engine) : List Inbound → Engine × List EngineReport
  | [] => (e, [])
  | d :: ds => andThen (e.onTransportRecv d) fun e => e.recvAll ds

/-- `tick`, without the drain of the scheduler. -/
def tick (e : Engine) (t : TickEnv) : Engine × List EngineReport :=
  if !e.isOpen then (e, [])
  else
    andThen (e.pollIceFlapForRehandshake t.ice t.rehandshake) fun e =>
      andThen
        (if t.iceUp then
          andThen (e.drainDtls t.drain) fun e =>
            andThen (e.maybeSendSenderReport t.srIceUp t.srElapsed t.sr) fun e =>
              e.flushVideoFeedback t.feedbackIceUp t.feedback
        else (e, []))
        fun e => e.recvAll t.datagrams

end Engine

end NimRtc
