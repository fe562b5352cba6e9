import NimRtc.Lib.Machine
import NimRtc.Dtls

/-!
# Runs of a DTLS session

The calls on a `DtlsSessionWolfSSL` in any order. A run keeps the handshake completed last and
whether a rehandshake went ahead, which the session itself forgets.
-/

namespace NimRtc

/-- The calls on a session, each with what wolfSSL answers. -/
inductive DtlsCall
  | «open» (setup : WolfSetup)
  | close
  | feedInbound (bytes : List UInt8) (r : Reassembly) (w : WolfPump)
  | takeOutbound (w : WolfPump)
  | tick (resent : Option (List UInt8))
  | setPeerFingerprint (algo : String) (value : List UInt8)
  | setRole (r : DtlsRole)
  | rehandshake (renegotiated : Bool) (setup : WolfSetup) (w : WolfPump)
  deriving DecidableEq

/-- One call, with what it reports. -/
def DtlsSession.call (s : DtlsSession) : DtlsCall → DtlsSession × List DtlsReport
  | .open setup =>
    let (ok, s) := s.open setup
    (s, [.opened ok s.ssl])
  | .close => (s.close, [])
  | .feedInbound bytes r w => s.feedInbound bytes r w
  | .takeOutbound w => (s.takeOutbound w).2
  | .tick resent => (s.tick resent, [])
  | .setPeerFingerprint algo value => (s.setPeerFingerprint algo value, [])
  | .setRole r => (s.setRole r, [])
  | .rehandshake renegotiated setup w => (s.rehandshake renegotiated setup w).2

/-- The exporter succeeds, with fields of the lengths of the profile. -/
def WolfPump.Exports (w : WolfPump) (p : SrtpProfile) : Prop :=
  match w.outcome with
  | .success _ exported _ => ∃ x ∈ exported, x.Fits p
  | _ => True

/-- An export of the call is one of the profile. -/
def DtlsCall.Exports (p : SrtpProfile) : DtlsCall → Prop
  | .feedInbound _ _ w | .takeOutbound w | .rehandshake _ _ w => w.Exports p
  | _ => True

/-- wolfSSL's answers in a call. -/
def DtlsCall.pumps : DtlsCall → List WolfPump
  | .feedInbound _ _ w | .takeOutbound w | .rehandshake _ _ w => [w]
  | _ => []

/-- wolfSSL completed a handshake, and the digest of the peer's certificate is this. -/
def WolfPump.PeerIs (w : WolfPump) (digest : List UInt8) : Prop :=
  match w.outcome with
  | .success (some peer) _ _ => peer.bytes = digest
  | _ => False

/-- The handshake that was completed last, `prev` if the reports have none. -/
def lastCompleted (prev : Option Handshake) (reports : List DtlsReport) : Option Handshake :=
  reports.foldl (fun last r => match r with | .completed h => some h | _ => last) prev

namespace DtlsSession

/-- The call succeeds and the peer's certificate passes the check of the pin. -/
def verifies (s : DtlsSession) (w : WolfPump) : Bool :=
  match w.outcome with
  | .success peer _ _ => s.verifyPeerSpki peer
  | _ => false

/-- A pump with this outcome completes a handshake. -/
def Completes (s : DtlsSession) (w : WolfPump) : Prop :=
  s.ssl ∧ s.state ≠ .connected ∧ s.state ≠ .failed ∧ s.verifies w

instance (s : DtlsSession) (w : WolfPump) : Decidable (s.Completes w) :=
  inferInstanceAs (Decidable (_ ∧ _))

/-- A rehandshake starts a handshake, by renegotiation or with a new context and SSL object. -/
def StartsAnew (renegotiated : Bool) (setup : WolfSetup) : Prop :=
  renegotiated ∨ setup.ctxNew ∧ setup.configured ∧ setup.sslNew

instance (renegotiated : Bool) (setup : WolfSetup) : Decidable (StartsAnew renegotiated setup) :=
  inferInstanceAs (Decidable (_ ∨ _))

/-- A handshake is completed in the call. -/
def CompletesIn (s : DtlsSession) : DtlsCall → Prop
  | .feedInbound bytes r w => bytes ≠ [] ∧ r = .passed ∧ s.Completes w
  | .takeOutbound w => s.outbound = [] ∧ s.state ≠ .closed ∧ s.Completes w
  | .rehandshake renegotiated setup w =>
    s.Rehandshakes ∧ StartsAnew renegotiated setup ∧ s.verifies w
  | _ => False

instance (s : DtlsSession) : ∀ c, Decidable (s.CompletesIn c)
  | .feedInbound _ _ _ | .takeOutbound _ | .rehandshake _ _ _ =>
    inferInstanceAs (Decidable (_ ∧ _))
  | .open _ | .close | .tick _ | .setPeerFingerprint _ _ | .setRole _ =>
    inferInstanceAs (Decidable False)

/-- The call is a rehandshake that goes ahead. -/
def RehandshakesIn (s : DtlsSession) : DtlsCall → Prop
  | .rehandshake _ _ _ => s.Rehandshakes
  | _ => False

end DtlsSession

/-- A session, with the handshake it completed last. -/
structure DtlsRun where
  session : DtlsSession
  lastHandshake : Option Handshake := none
  /-- A rehandshake went ahead. -/
  rehandshook : Bool := false

namespace DtlsRun

/-- One call, noted. -/
def step (r : DtlsRun) (c : DtlsCall) : DtlsRun × List DtlsReport :=
  let (s, reports) := r.session.call c
  ({ session := s
     lastHandshake := lastCompleted r.lastHandshake reports
     rehandshook := r.rehandshook || match c with
       | .rehandshake _ _ _ => r.session.Rehandshakes
       | _ => false }, reports)

def machine : Machine DtlsRun DtlsCall DtlsReport := ⟨step⟩

/-- Connected with the keys and salts of the handshake completed last. -/
def Keyed (r : DtlsRun) : Prop :=
  r.session.state = .connected →
    ∃ h ∈ r.lastHandshake, ∃ x ∈ h.exported, r.session.srtpKeyingMaterial = some x.keyingMaterial

/-- No handshake is completed once a rehandshake went ahead, and none with a profile that the
fixed offsets do not fit. -/
def KeepsKeys (r : DtlsRun) (c : DtlsCall) : Prop :=
  r.session.CompletesIn c →
    r.rehandshook = false ∧ (∀ renegotiated setup w, c ≠ .rehandshake renegotiated setup w)
      ∧ r.session.srtpProfile.keyLen = 16 ∧ r.session.srtpProfile.saltLen = 14

end DtlsRun

end NimRtc
