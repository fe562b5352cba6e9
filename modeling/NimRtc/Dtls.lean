import Mathlib

/-!
# The DTLS session over wolfSSL

`DtlsSessionWolfSSL` of `modules/dtls/src/dtls_wolfssl_session.cpp`: its handshake pump, the pin
of the peer's certificate, the SRTP keying material and the rehandshake. What wolfSSL answers is
the environment's choice and an argument of the operations that call it. Application data, the
statistics and the peer's address are left out.
-/

namespace NimRtc

/-- The side of a handshake. -/
inductive DtlsRole
  | server
  | client
  deriving DecidableEq, Repr

/-- The states of a session. -/
inductive DtlsState
  | closed
  | initial
  | helloVerify
  | helloSent
  | helloReceived
  | certificateReceived
  | keyExchange
  | changeCipherSpec
  | finished
  | connected
  | failed
  deriving DecidableEq, Repr

/-- The profiles that `use_srtp` may agree on. -/
inductive SrtpProfile
  | aes128CmSha1_80
  | aes128CmSha1_32
  | aes128Gcm
  | aes256CmSha1_80
  deriving DecidableEq, Repr

namespace SrtpProfile

/-- The length of a key, in bytes. -/
def keyLen : SrtpProfile → ℕ
  | aes256CmSha1_80 => 32
  | _ => 16

/-- The length of a salt, in bytes. -/
def saltLen : SrtpProfile → ℕ
  | aes128Gcm => 12
  | _ => 14

end SrtpProfile

/-- A SHA-256 digest. -/
structure Sha256 where
  bytes : List UInt8
  size : bytes.length = 32
  deriving DecidableEq

/-- What a completed handshake exports for SRTP, in the order wolfSSL writes it. -/
structure SrtpExport where
  clientKey : List UInt8
  serverKey : List UInt8
  clientSalt : List UInt8
  serverSalt : List UInt8
  deriving DecidableEq, Repr

namespace SrtpExport

/-- The exported block: the two keys and the two salts. -/
def bytes (x : SrtpExport) : List UInt8 :=
  x.clientKey ++ x.serverKey ++ x.clientSalt ++ x.serverSalt

/-- The fields have the lengths of the profile. -/
def Fits (x : SrtpExport) (p : SrtpProfile) : Prop :=
  x.clientKey.length = p.keyLen ∧ x.serverKey.length = p.keyLen
    ∧ x.clientSalt.length = p.saltLen ∧ x.serverSalt.length = p.saltLen

instance (x : SrtpExport) (p : SrtpProfile) : Decidable (x.Fits p) :=
  inferInstanceAs (Decidable (_ ∧ _))

end SrtpExport

/-- What is kept of an export, by direction. -/
structure SrtpKeyingMaterial where
  clientMasterKey : List UInt8 := List.replicate 16 0
  serverMasterKey : List UInt8 := List.replicate 16 0
  clientMasterSalt : List UInt8 := List.replicate 14 0
  serverMasterSalt : List UInt8 := List.replicate 14 0
  deriving DecidableEq, Repr

/-- The spans of the export, by direction. -/
def SrtpExport.keyingMaterial (x : SrtpExport) : SrtpKeyingMaterial where
  clientMasterKey := x.clientKey
  serverMasterKey := x.serverKey
  clientMasterSalt := x.clientSalt
  serverMasterSalt := x.serverSalt

/-- The offset and the length of each `memcpy` of `export_srtp_keys`. -/
structure Span where
  offset : ℕ
  size : ℕ

namespace Span

/-- The places of the four parts in an export of the profile that is offered. -/
def clientKey : Span := ⟨0, 16⟩

def serverKey : Span := ⟨16, 16⟩

def clientSalt : Span := ⟨32, 14⟩

def serverSalt : Span := ⟨46, 14⟩

def all : List Span := [clientKey, serverKey, clientSalt, serverSalt]

/-- The bytes of a span. -/
def read (s : Span) (memory : List UInt8) : List UInt8 :=
  (List.range s.size).map fun i => memory.getD (s.offset + i) 0

/-- The span lies in a buffer of `n` bytes. -/
def Inside (s : Span) (n : ℕ) : Prop := s.offset + s.size ≤ n

instance (s : Span) (n : ℕ) : Decidable (s.Inside n) := inferInstanceAs (Decidable (_ ≤ _))

end Span

/-- The split of the exported bytes, `beyond` being what lies after them in memory. -/
def SrtpKeyingMaterial.split (exported beyond : List UInt8) : SrtpKeyingMaterial where
  clientMasterKey := Span.clientKey.read (exported ++ beyond)
  serverMasterKey := Span.serverKey.read (exported ++ beyond)
  clientMasterSalt := Span.clientSalt.read (exported ++ beyond)
  serverMasterSalt := Span.serverSalt.read (exported ++ beyond)

/-- What `wolfSSL_accept` or `wolfSSL_connect` comes to. -/
inductive HandshakeOutcome
  /-- The peer's certificate, if wolfSSL exposes it, by its digest; what the exporter gives, if
  it succeeds; and the memory after the export buffer. -/
  | success (peer : Option Sha256) (exported : Option SrtpExport) (beyond : List UInt8)
  | wantIo
  | failed
  deriving DecidableEq

/-- The outcome of the call and the bytes it gave to `io_send`. -/
structure WolfPump where
  outcome : HandshakeOutcome
  sent : List UInt8 := []
  deriving DecidableEq

/-- Which of the steps of setting up a context and an SSL object succeed. -/
structure WolfSetup where
  init : Bool := true
  ctxNew : Bool := true
  configured : Bool := true
  sslNew : Bool := true
  deriving DecidableEq

/-- What the reassembly shim makes of a record: it is passed on, as it is or reassembled, or it
is a fragment that waits for the others. -/
inductive Reassembly
  | passed
  | fragmentBuffered
  deriving DecidableEq

/-- A session, with the wolfSSL object behind it. -/
structure DtlsSession where
  role : DtlsRole := .server
  srtpProfile : SrtpProfile := .aes128CmSha1_80
  state : DtlsState := .initial
  openCalled : Bool := false
  /-- The method the context was created with. -/
  ctx : Option DtlsRole := none
  ssl : Bool := false
  sendBuf : List UInt8 := []
  outbound : List (List UInt8) := []
  expectedPeerFp : List UInt8 := []
  expectedPeerFpSet : Bool := false
  srtpKeys : Option SrtpKeyingMaterial := some {}
  deriving DecidableEq

/-- A completed handshake, with the role it was completed in. -/
structure Handshake where
  role : DtlsRole
  peer : Option Sha256
  exported : Option SrtpExport
  deriving DecidableEq

/-- What an operation does that a caller could see. -/
inductive DtlsReport
  /-- A call of `wolfSSL_accept` (server) or `wolfSSL_connect` (client), on this context. -/
  | handshakeCall (role : DtlsRole) (ctx : Option DtlsRole)
  | completed (h : Handshake)
  | opened (ok ssl : Bool)
  deriving DecidableEq

namespace DtlsSession

/-- What wolfSSL has written becomes a datagram. -/
def flushSendBuf (s : DtlsSession) : DtlsSession :=
  if s.sendBuf = [] then s
  else { s with outbound := s.outbound ++ [s.sendBuf], sendBuf := [] }

/-- The accumulated difference of the two digests. -/
def fpDiff (got expected : List UInt8) : UInt8 :=
  (got.zip expected).foldl (fun diff p => diff ||| (p.1 ^^^ p.2)) 0

/-- `verify_peer_spki`: without an expected fingerprint any peer will do. -/
def verifyPeerSpki (s : DtlsSession) (peer : Option Sha256) : Bool :=
  if !s.ssl then false
  else if !s.expectedPeerFpSet then true
  else if s.expectedPeerFp.length ≠ 32 then false
  else
    match peer with
    | none => false
    | some got => fpDiff got.bytes s.expectedPeerFp = 0

/-- `export_srtp_keys`; `beyond` is what lies in memory behind the export. -/
def exportSrtpKeys (s : DtlsSession) (exported : Option SrtpExport) (beyond : List UInt8) :
    DtlsSession :=
  if !s.ssl || s.srtpKeys.isNone then s
  else
    match exported with
    | none => { s with srtpKeys := none }
    | some x => { s with srtpKeys := some (.split x.bytes beyond) }

/-- The session is connected, and its keys are exported. -/
def onHandshakeComplete (s : DtlsSession) (exported : Option SrtpExport) (beyond : List UInt8) :
    DtlsSession :=
  { s with state := .connected }.exportSrtpKeys exported beyond

/-- `pump_handshake`: one round of wolfSSL, and what follows from its answer. -/
def pumpHandshake (s : DtlsSession) (w : WolfPump) : DtlsSession × List DtlsReport :=
  if !s.ssl ∨ s.state = .connected ∨ s.state = .failed then (s, [])
  else
    let started := { s with
      state := if s.state = DtlsState.initial then .helloSent else s.state
      sendBuf := s.sendBuf ++ w.sent }
    let call := DtlsReport.handshakeCall s.role s.ctx
    match w.outcome with
    | .success peer exported beyond =>
      if started.verifyPeerSpki peer then
        ((started.onHandshakeComplete exported beyond).flushSendBuf,
          [call, .completed ⟨s.role, peer, exported⟩])
      else ({ started with state := .failed }.flushSendBuf, [call])
    | .wantIo => (started.flushSendBuf, [call])
    | .failed => ({ started with state := .failed }.flushSendBuf, [call])

/-- `setup_context` -/
def setupContext (s : DtlsSession) (w : WolfSetup) : Bool × DtlsSession :=
  (w.ctxNew && w.configured, { s with ctx := if w.ctxNew then some s.role else none })

/-- `create_ssl_object` -/
def createSslObject (s : DtlsSession) (w : WolfSetup) : Bool × DtlsSession :=
  if s.ctx.isNone then (false, s) else (w.sslNew, { s with ssl := w.sslNew })

/-- The wolfSSL objects are freed. -/
def teardown (s : DtlsSession) : DtlsSession :=
  { s with ssl := false, ctx := none, state := .closed }

/-- `open` -/
def «open» (s : DtlsSession) (w : WolfSetup) : Bool × DtlsSession :=
  if s.openCalled then (true, s)
  else
    let s := { s with openCalled := true }
    if !w.init then (false, s)
    else
      match s.setupContext w with
      | (false, s) => (false, s)
      | (true, s) => s.createSslObject w

/-- `close` -/
def close (s : DtlsSession) : DtlsSession := s.teardown

/-- `feed_inbound`: a datagram through the reassembler to wolfSSL. -/
def feedInbound (s : DtlsSession) (bytes : List UInt8) (r : Reassembly) (w : WolfPump) :
    DtlsSession × List DtlsReport :=
  if bytes = [] then (s, [])
  else
    match r with
    | .fragmentBuffered => (s, [])
    | .passed => s.pumpHandshake w

/-- `take_outbound`, which pumps the handshake when there is nothing to send. -/
def takeOutbound (s : DtlsSession) (w : WolfPump) :
    List (List UInt8) × DtlsSession × List DtlsReport :=
  let taken := { s with outbound := [] }
  if s.outbound = [] ∧ s.ssl ∧ s.state ≠ .connected ∧ s.state ≠ .failed ∧ s.state ≠ .closed then
    let (pumped, reports) := taken.pumpHandshake w
    (pumped.outbound, { pumped with outbound := [] }, reports)
  else (s.outbound, taken, [])

/-- `tick`, where `resent` is what wolfSSL sends again if the retransmission timer is due. -/
def tick (s : DtlsSession) (resent : Option (List UInt8)) : DtlsSession :=
  if !s.ssl ∨ s.state = .connected ∨ s.state = .failed ∨ s.state = .closed then s
  else
    match resent with
    | none => s
    | some bytes => { s with sendBuf := s.sendBuf ++ bytes }.flushSendBuf

/-- `set_peer_fingerprint` -/
def setPeerFingerprint (s : DtlsSession) (algo : String) (value : List UInt8) : DtlsSession :=
  if algo ≠ "sha-256" then { s with expectedPeerFp := [], expectedPeerFpSet := false }
  else if value.length ≠ 32 then { s with expectedPeerFp := [], expectedPeerFpSet := false }
  else { s with expectedPeerFp := value, expectedPeerFpSet := true }

/-- `set_role`, which a session that has started ignores. -/
def setRole (s : DtlsSession) (r : DtlsRole) : DtlsSession :=
  if s.state ≠ .closed ∧ s.state ≠ .initial then s else { s with role := r }

/-- `srtp_keying_material`, once connected. -/
def srtpKeyingMaterial (s : DtlsSession) : Option SrtpKeyingMaterial :=
  if s.state ≠ .connected then none else s.srtpKeys

/-- Whether `rehandshake` goes ahead. -/
def Rehandshakes (s : DtlsSession) : Prop := s.ssl ∧ s.state = .connected

instance (s : DtlsSession) : Decidable s.Rehandshakes := inferInstanceAs (Decidable (_ ∧ _))

/-- How `rehandshake` ends. -/
inductive RehandshakeStatus
  | ok
  | errNotReady
  | errInternal
  deriving DecidableEq, Repr

/-- `renegotiated` says that wolfSSL has secure renegotiation and took it up; the session is torn
down and set up again otherwise. -/
def rehandshake (s : DtlsSession) (renegotiated : Bool) (setup : WolfSetup) (w : WolfPump) :
    RehandshakeStatus × DtlsSession × List DtlsReport :=
  if ¬ s.Rehandshakes then (.errNotReady, s, [])
  else if renegotiated then
    (.ok, { s with state := .helloSent, srtpKeys := none }.pumpHandshake w)
  else
    let cleared := { s.teardown with
      sendBuf := []
      outbound := []
      srtpKeys := none
      openCalled := true }
    match cleared.setupContext setup with
    | (false, s) => (.errInternal, { s with state := .failed }, [])
    | (true, s) =>
      match s.createSslObject setup with
      | (false, s) => (.errInternal, { s with state := .failed }, [])
      | (true, s) => (.ok, { s with state := .initial }.pumpHandshake w)

/-- `is_connected` -/
def isConnected (s : DtlsSession) (initFinished : Bool) : Bool :=
  s.state = .connected && s.ssl && initFinished

end DtlsSession

end NimRtc
