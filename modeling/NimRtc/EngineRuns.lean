import NimRtc.EngineTransport
import NimRtc.Lib.Machine

/-!
# Runs of the engine

The calls on an engine and on its DTLS session in any order, and the properties of what they
report. `tick` runs `poll_ice_flap_for_rehandshake`, `drain_dtls`, the Sender Report, the video
feedback and the receive path one after the other, and each of these is an event of its own.
-/

namespace NimRtc

/-- What happens to an engine: its calls and what a tick does, each with the environment's part. -/
inductive EngineEvent
  | «open» (setup : WolfSetup) (iceOk : Bool)
  | createOffer (sessionId : String) (ice : IceLocal) (mungerOk : Bool)
  | processRemoteSdp (parsed : Option SessionDescription) (ice : IceLocal) (mungerOk : Bool)
  | sendAudio (f : AudioFrame)
  | sendVideo (f : VideoFrame)
  | pollIceFlap (cur : IceState) (r : RehandshakeEnv)
  | drainDtls (d : DrainEnv)
  | senderReport (iceUp elapsed : Bool) (r : RtcpBuild)
  | flushVideoFeedback (iceUp : Bool) (r : RtcpBuild)
  | recv (d : Inbound)
  | dtls (c : DtlsCall)

/-- The events of one `tick` on an open engine. -/
def TickEnv.events (t : TickEnv) : List EngineEvent :=
  [.pollIceFlap t.ice t.rehandshake]
    ++ (if t.iceUp then
      [.drainDtls t.drain, .senderReport t.srIceUp t.srElapsed t.sr,
        .flushVideoFeedback t.feedbackIceUp t.feedback]
    else [])
    ++ t.datagrams.map .recv

namespace Engine

/-- One event, with what is seen of it. -/
def step (e : Engine) : EngineEvent → Engine × List EngineReport
  | .open setup iceOk => e.open setup iceOk
  | .createOffer sessionId ice mungerOk => ((e.createOffer sessionId ice mungerOk).1, [])
  | .processRemoteSdp parsed ice mungerOk => ((e.processRemoteSdp parsed ice mungerOk).1, [])
  | .sendAudio f => e.sendAudio f
  | .sendVideo f => e.sendVideo f
  | .pollIceFlap cur r => if e.isOpen then e.pollIceFlapForRehandshake cur r else (e, [])
  | .drainDtls d => if e.isOpen then e.drainDtls d else (e, [])
  | .senderReport iceUp elapsed r =>
    if e.isOpen then e.maybeSendSenderReport iceUp elapsed r else (e, [])
  | .flushVideoFeedback iceUp r => if e.isOpen then e.flushVideoFeedback iceUp r else (e, [])
  | .recv d => e.onTransportRecv d
  | .dtls c => e.onDtls (e.dtls.call c)

def machine : Machine Engine EngineEvent EngineReport := ⟨step⟩

/-- An engine before it is opened. -/
def fresh (cfg : EngineConfig) (sender : Option VideoSender) (fingerprint : String) : Engine :=
  { cfg, videoSender := sender, localFingerprint := fingerprint }

end Engine

/-! ### Media leaves protected -/

/-- A datagram that is neither empty nor a DTLS record. -/
def Inbound.isMedia (d : Inbound) : Bool := (d.bytes.head?.map fun b => !isDtls b).getD false

namespace Engine

/-- The call is made on one of these packets of the video sender, with its RTP header and the answer
there is for it. -/
def AsksVideo (e : Engine) (packets : List CachedPacket) (lib : ℕ → LibSrtpCall)
    (call : PacketCall) : Prop :=
  call.rtcp = false ∧ ∃ n p, packets[n]? = some p
    ∧ call.packet = videoRtpHeader e.cfg p ++ p.payload ∧ call.answer = (lib n).out

/-- The call is made on a packet that the event has to send, with libsrtp's answer on it. -/
def Asks (e : Engine) (call : PacketCall) : EngineEvent → Prop
  | .sendAudio f => call.rtcp = false ∧ call.packet = f.packet ∧ call.answer = f.lib.out
  | .sendVideo f => ∃ s packets, e.videoToSend f = some (s, packets) ∧ e.AsksVideo packets f.lib call
  | .senderReport _ _ r | .flushVideoFeedback _ r =>
    call.rtcp = true ∧ call.packet = r.bytes ∧ call.answer = r.lib.out
  | .recv d => e.AsksVideo (e.retransmissions d.actions) d.lib call
  | _ => False

/-- A packet that the event emits is the output of a protect call, on a packet of the event and of a
session that has keys. -/
def MediaProtected (e : Engine) (ev : EngineEvent) : EngineReport → Prop
  | .emitted m => ∃ call ∈ m.protectedBy, call.session.session.isSome ∧ e.Asks call ev
    ∧ call.protect = .ok m.bytes
  | _ => True

/-- Everything that the event emits is protected. -/
def ProtectsMedia (e : Engine) (ev : EngineEvent) : Prop :=
  ∀ o ∈ (e.step ev).2, e.MediaProtected ev o

/-- The event sends no media or RTCP packet, or SRTP keys are installed. -/
def SendsKeyed (e : Engine) : EngineEvent → Prop
  | .sendAudio f => e.audioReady f → f.packet ≠ [] → e.srtpInstalled
  | .sendVideo f => (∃ s packets, e.videoToSend f = some (s, packets) ∧ packets ≠ []) →
    e.srtpInstalled
  | .senderReport iceUp elapsed r => e.isOpen → e.senderReportDue iceUp elapsed r → e.srtpInstalled
  | .flushVideoFeedback iceUp r => e.isOpen → e.feedbackDue iceUp r → e.srtpInstalled
  | .recv d => e.isOpen → d.isMedia → looksLikeRtcp d.bytes → e.retransmissions d.actions ≠ [] →
    e.srtpInstalled
  | _ => True

end Engine

/-! ### Only authentic media is taken in -/

/-- What `unprotect_rtp` or `unprotect_rtcp` is given of a datagram, and libsrtp's answer. -/
def Inbound.Asks (d : Inbound) (call : PacketCall) : Prop :=
  call.packet = d.bytes ∧ call.answer = if call.rtcp then d.rtcpOut else d.rtpOut

namespace Engine

/-- Once there were keys, a packet that is handed on is what a session with keys made of the
datagram. -/
def MediaAuthentic (e : Engine) (ev : EngineEvent) : EngineReport → Prop
  | .handed h => e.history.keyedOnce → ∃ d call, ev = .recv d ∧ h.unprotectedBy = some call
    ∧ call.session.session.isSome ∧ d.Asks call ∧ call.unprotect = .ok h.packet
  | _ => True

/-- Everything that the event hands on is authentic. -/
def TakesAuthentic (e : Engine) (ev : EngineEvent) : Prop :=
  ∀ o ∈ (e.step ev).2, e.MediaAuthentic ev o

/-- The engine has an inbound session, or libsrtp creates it. -/
def InboundSession (e : Engine) (d : Inbound) : Prop :=
  (∃ s, e.srtp.inboundSessions.lookup 0 = some (some s)) ∨ d.create

/-- A datagram that would be handed on as it is comes before the first keys, or while keys are
installed and there is a session to unprotect it. -/
def ReceivesKeyed (e : Engine) : EngineEvent → Prop
  | .recv d => e.isOpen → d.isMedia → looksLikeRtcp d.bytes ∨ d.rtpParses → e.history.keyedOnce →
    e.srtpInstalled ∧ e.InboundSession d
  | _ => True

end Engine

/-! ### The DTLS roles agree -/

/-- A handshake call is on a context of its own method, keys are installed by the role the last
handshake was completed in, and `open` succeeds only with an SSL object. -/
def EngineReport.RoleCoherent : EngineReport → Prop
  | .dtls (.handshakeCall role ctx) => ctx = some role
  | .dtls (.opened ok ssl) => ok → ssl
  | .installed isClient last => ∃ h ∈ last, h.role = .client ↔ isClient
  | _ => True

namespace Engine

/-- `set_role` is not refused. -/
def TakesRole (d : DtlsSession) : Prop := d.state = .closed ∨ d.state = .initial

instance (d : DtlsSession) : Decidable (TakesRole d) := inferInstanceAs (Decidable (_ ∨ _))

/-- The role a description has the engine take. -/
def resolvedRole (e : Engine) (remote : SessionDescription) : Option DtlsRole :=
  (remote.media.find? (·.recognised)).map fun m =>
    (resolveRole (e.remoteIsAnswer remote)
      (if m.dtlsSetup = "" then "actpass" else m.dtlsSetup)).1

/-- A role that is taken is the role of the context there is, and the role of a description that
is refused is the session's; a role set on the session itself is the engine's; and the session is
not opened again without an SSL object. -/
def KeepsRoles (e : Engine) : EngineEvent → Prop
  | .processRemoteSdp (some remote) _ _ => e.isOpen → ∀ role ∈ e.resolvedRole remote,
    if TakesRole e.dtls then e.dtls.ssl → e.dtls.ctx = some role else e.dtls.role = role
  | .dtls (.setRole role) => TakesRole e.dtls →
    (e.dtls.ssl → e.dtls.ctx = some role) ∧ (role = .client ↔ e.dtlsIsClient)
  | .dtls (.open _) => e.dtls.openCalled → e.dtls.ssl
  | _ => True

end Engine

/-! ### The signalled fingerprint is enforced -/

/-- wolfSSL's answers in an event. -/
def EngineEvent.pumps : EngineEvent → List WolfPump
  | .pollIceFlap _ r => [r.pump]
  | .drainDtls d => [d.pump]
  | .recv d => [d.pump, d.drain.pump]
  | .dtls c => c.pumps
  | _ => []

namespace Engine

/-- The fingerprint of a description that is applied, if it carries one. -/
def signals (e : Engine) : EngineEvent → Option (String × String)
  | .processRemoteSdp (some remote) _ _ =>
    if e.isOpen then
      ((remote.media.find? (·.recognised)).filter (·.carriesFingerprint)).map fun m =>
        (m.dtlsFingerprintAlgo, m.dtlsFingerprintValue)
    else none
  | _ => none

/-- The event restarts the handshake of a session that is connected. -/
def RehandshakesIn (e : Engine) : EngineEvent → Prop
  | .pollIceFlap cur _ => e.isOpen ∧ e.rehandshakeDue cur ∧ e.dtls.Rehandshakes
  | .dtls c => e.dtls.RehandshakesIn c
  | _ => False

/-- The DTLS session is connected after the event by a handshake that the event completes. -/
def EntersConnected (e : Engine) (ev : EngineEvent) : Prop :=
  (e.step ev).1.dtls.state = .connected ∧ (e.dtls.state = .connected → e.RehandshakesIn ev)

/-- The fingerprint on record is the one that was signalled last. When the session enters Connected
wolfSSL completed a handshake with the peer of that fingerprint, and SRTP keys are installed only
on a session that is connected. -/
structure PinEnforced (e : Engine) (ev : EngineEvent) : Prop where
  signalled : (e.step ev).1.history.signalled = (e.signals ev).or e.history.signalled
  pinned : e.EntersConnected ev → ∀ algo value, e.history.signalled = some (algo, value) →
    algo.toLower = "sha-256" ∧ ∃ w ∈ ev.pumps, w.PeerIs (Fingerprint.decode value)
  installed : (e.step ev).1.srtpInstalled = true → e.srtpInstalled = false →
    (e.step ev).1.dtls.state = .connected

/-- A fingerprint that a description carries is one that `set_peer_fingerprint` takes, which
nothing else calls. -/
def SignalsPin (e : Engine) : EngineEvent → Prop
  | .processRemoteSdp (some remote) _ _ => e.isOpen → ∀ m ∈ remote.media.find? (·.recognised),
    m.carriesFingerprint → m.dtlsFingerprintAlgo = "sha-256"
      ∧ (Fingerprint.decode m.dtlsFingerprintValue).length = 32
  | .dtls (.setPeerFingerprint _ _) => False
  | _ => True

end Engine

end NimRtc
