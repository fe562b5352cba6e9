import NimRtc.Lib.Machine
import NimRtc.Srtp

/-!
# Runs of SRTP sessions that may fail

The calls on one `SrtpSession`, each initialisation of which may fail, and the calls on an
`SrtpContext` with the statistics over its sessions. What libsrtp answers is part of each call.
-/

namespace NimRtc

def kAuthTagLenSha1_80 : ℕ := 10

def kAuthTagLenSha1_32 : ℕ := 4

/-- `auth_tag_len_for` -/
def authTagLenFor : CryptoSuite → ℕ
  | .aes128CmSha1_80 | .aes256CmSha1_80 => kAuthTagLenSha1_80
  | .aes128CmSha1_32 => kAuthTagLenSha1_32
  | .aes128Gcm_128 => 16

/-- The tag of an SRTCP packet, which is the long one for both SHA-1 suites. -/
def srtcpTagLen : CryptoSuite → ℕ
  | .aes128CmSha1_80 | .aes256CmSha1_80 | .aes128CmSha1_32 => 10
  | .aes128Gcm_128 => 16

/-- What `srtp_protect_rtcp` needs room for: the packet, an index of 4 bytes and the tag. -/
def LibSrtp.rtcpSpaceNeeded (lib : LibSrtp) (packet : List UInt8) : ℕ :=
  packet.length + 4 + srtcpTagLen lib.suite

namespace SrtpSession

/-- `init_from_session_keys`, with the two fields of the configuration that only it reads. -/
def initFromSessionKeys (config : SrtpConfig) (sessionKeyRtp sessionSaltRtp : List UInt8)
    (libOk : Bool) (s : SrtpSession) : Except SrtpError Unit × SrtpSession :=
  initFromMasterKeyDir true config sessionKeyRtp sessionSaltRtp libOk s

/-- The room for the output that `protect_rtcp` passes to libsrtp. -/
def rtcpSpace (s : SrtpSession) (packet : List UInt8) : ℕ :=
  packet.length + authTagLenFor s.config.suite

end SrtpSession

/-! ### One session -/

/-- A call on a session, with libsrtp's answer. -/
inductive SessionCall
  | initFromMasterKey (config : SrtpConfig) (key salt : List UInt8) (libOk : Bool)
  | initFromMasterKeyInbound (config : SrtpConfig) (key salt : List UInt8) (libOk : Bool)
  | initFromSessionKeys (config : SrtpConfig) (key salt : List UInt8) (libOk : Bool)
  | protectRtp (libOut : Option (List UInt8))
  | unprotectRtp (packet : List UInt8) (libOut : Option (List UInt8))
  | protectRtcp (packet : List UInt8) (libOut : Option (List UInt8))
  | unprotectRtcp (packet : List UInt8) (libOut : Option (List UInt8))

/-- What a call returned for a packet, with the libsrtp session there was and what libsrtp makes of
the packet. -/
structure SrtpAnswer where
  session : Option LibSrtp
  libOut : Option (List UInt8)
  result : Except SrtpError (List UInt8)

/-- Success is what libsrtp made of the packet with an installed session. -/
def SrtpAnswer.FromLibsrtp (a : SrtpAnswer) : Prop :=
  ∀ out, a.result = .ok out → a.session ≠ none ∧ a.libOut = some out

namespace SrtpSession

/-- One call, and what it returns. -/
def step (s : SrtpSession) : SessionCall → SrtpSession × List SrtpAnswer
  | .initFromMasterKey config key salt libOk => ((s.initFromMasterKey config key salt libOk).2, [])
  | .initFromMasterKeyInbound config key salt libOk =>
    ((s.initFromMasterKeyInbound config key salt libOk).2, [])
  | .initFromSessionKeys config key salt libOk =>
    ((s.initFromSessionKeys config key salt libOk).2, [])
  | .protectRtp libOut => (s, [⟨s.session, libOut, s.protectRtp libOut⟩])
  | .unprotectRtp packet libOut => (s, [⟨s.session, libOut, s.unprotectRtp packet libOut⟩])
  | .protectRtcp packet libOut => (s, [⟨s.session, libOut, s.protectRtcp packet libOut⟩])
  | .unprotectRtcp packet libOut => (s, [⟨s.session, libOut, s.unprotectRtcp packet libOut⟩])

/-- A session under a list of calls. -/
def machine : Machine SrtpSession SessionCall SrtpAnswer := ⟨step⟩

/-- A call for an RTCP packet finds an installed session. -/
def RtcpInstalled (s : SrtpSession) : SessionCall → Prop
  | .protectRtcp _ _ | .unprotectRtcp _ _ => s.session ≠ none
  | _ => True

end SrtpSession

/-! ### A context -/

/-- `SrtpStats` -/
structure SrtpStats where
  rtpPacketsEncrypted : UInt64 := 0
  rtpPacketsDecrypted : UInt64 := 0
  rtcpPacketsEncrypted : UInt64 := 0
  rtcpPacketsDecrypted : UInt64 := 0
  decryptionFailures : UInt64 := 0
  replayAttacksDropped : UInt64 := 0
  deriving DecidableEq, Repr

/-- The sums of two sessions' counters. -/
def SrtpStats.add (a b : SrtpStats) : SrtpStats where
  rtpPacketsEncrypted := a.rtpPacketsEncrypted + b.rtpPacketsEncrypted
  rtpPacketsDecrypted := a.rtpPacketsDecrypted + b.rtpPacketsDecrypted
  rtcpPacketsEncrypted := a.rtcpPacketsEncrypted + b.rtcpPacketsEncrypted
  rtcpPacketsDecrypted := a.rtcpPacketsDecrypted + b.rtcpPacketsDecrypted
  decryptionFailures := a.decryptionFailures + b.decryptionFailures
  replayAttacksDropped := a.replayAttacksDropped + b.replayAttacksDropped

/-- A call on the context. -/
inductive ContextCall
  | deriveKeysForLocal (key salt : List UInt8) (suite : CryptoSuite)
  | deriveKeysForRemote (key salt : List UInt8) (suite : CryptoSuite)
  | getSession (ssrc : UInt32) (outgoing libOk : Bool)
  | removeSession (ssrc : UInt32)
  | totalStats

/-- What a call on the context returned. -/
inductive ContextAnswer
  /-- What `get_session` returned, with the context before and after. -/
  | session (before after : SrtpContext) (s : Option SrtpSession)
  /-- What `total_stats` returned; `none` is the dereference of a null session. -/
  | stats (total : Option SrtpStats)

namespace SrtpContext

variable (statsOf : SrtpSession → SrtpStats)

/-- The statistics of a slot are those of its session, and a null session has none. -/
def accumulate (total : SrtpStats) (map : AList fun _ : UInt32 => Option SrtpSession) :
    Option SrtpStats :=
  map.entries.foldlM (fun total slot => slot.2.map fun s => total.add (statsOf s)) total

/-- `total_stats`, over the sessions of both directions. -/
def totalStats (c : SrtpContext) : Option SrtpStats := do
  let total ← accumulate statsOf {} c.outboundSessions
  accumulate statsOf total c.inboundSessions

/-- One call, and what it returns. -/
def step (c : SrtpContext) : ContextCall → SrtpContext × List ContextAnswer
  | .deriveKeysForLocal key salt suite => (c.deriveKeysForLocal key salt suite, [])
  | .deriveKeysForRemote key salt suite => (c.deriveKeysForRemote key salt suite, [])
  | .getSession ssrc outgoing libOk =>
    let (s, next) := c.getSession ssrc outgoing libOk
    (next, [.session c next s])
  | .removeSession ssrc => (c.removeSession ssrc, [])
  | .totalStats => (c, [.stats (c.totalStats statsOf)])

/-- The context under a list of calls. -/
def machine : Machine SrtpContext ContextCall ContextAnswer := ⟨step statsOf⟩

/-- No slot holds a null session. -/
def NoNull (c : SrtpContext) : Prop :=
  ∀ outgoing ssrc, (c.sessions outgoing).lookup ssrc ≠ some none

/-- A `get_session` that returned null left the maps as they were, and `total_stats` dereferenced no
null session. -/
def Sound : ContextAnswer → Prop
  | .session before after s => s = none → after.sessions = before.sessions
  | .stats total => total ≠ none

/-- `get_session` finds a session, or keys to make one with. -/
def Keyed (c : SrtpContext) : ContextCall → Prop
  | .getSession ssrc outgoing _ =>
    (∃ s, (c.sessions outgoing).lookup ssrc = some (some s))
      ∨ c.key outgoing ≠ [] ∧ c.salt outgoing ≠ []
  | _ => True

end SrtpContext

end NimRtc
