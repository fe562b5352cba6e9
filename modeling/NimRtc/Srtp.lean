import Mathlib

/-!
# SRTP sessions and their context

`SrtpSession` and `SrtpContext` of `modules/srtp/src/srtp.cpp`. The context keeps the master key
and salt of each direction and creates a session for an SSRC the first time it is asked for one.
Whether libsrtp accepts a policy and what it makes of a packet is the environment's choice and
an argument of the operations that call it.
-/

namespace NimRtc

/-- `CryptoSuite` -/
inductive CryptoSuite
  | aes128CmSha1_80
  | aes128CmSha1_32
  | aes128Gcm_128
  | aes256CmSha1_80
  deriving DecidableEq, Repr

/-- The error codes of this part of the code. -/
inductive SrtpError
  | invalidArgument
  | invalidState
  | protocolError
  deriving DecidableEq, Repr

/-- `SrtpConfig` -/
structure SrtpConfig where
  suite : CryptoSuite := .aes128CmSha1_80
  enableAuth : Bool := true
  enableEncryption : Bool := true
  deriving DecidableEq, Repr

/-- What a libsrtp session was created with: the master key and salt, the profile, and the
direction of its wildcard SSRC. -/
structure LibSrtp where
  key : List UInt8
  salt : List UInt8
  suite : CryptoSuite
  outbound : Bool
  confidential : Bool
  deriving DecidableEq, Repr

/-- `SrtpSession`: its configuration and what libsrtp created for it. -/
structure SrtpSession where
  config : SrtpConfig := {}
  session : Option LibSrtp := none
  deriving DecidableEq, Repr

namespace SrtpSession

/-- `init_from_master_key` and `init_from_master_key_inbound`, which differ in the direction. -/
def initFromMasterKeyDir (outbound : Bool) (config : SrtpConfig) (key salt : List UInt8)
    (libOk : Bool) (s : SrtpSession) : Except SrtpError Unit × SrtpSession :=
  if key = [] ∨ salt = [] then (.error .invalidArgument, { s with config })
  else if libOk then
    let lib : LibSrtp :=
      { key, salt, suite := config.suite, outbound, confidential := config.enableEncryption }
    (.ok (), { config, session := some lib })
  else (.error .invalidArgument, { config, session := none })

/-- `init_from_master_key` -/
def initFromMasterKey := initFromMasterKeyDir true

/-- `init_from_master_key_inbound` -/
def initFromMasterKeyInbound := initFromMasterKeyDir false

/-- `protect_rtp`, `libOut` being what libsrtp makes of the packet. -/
def protectRtp (s : SrtpSession) (libOut : Option (List UInt8)) : Except SrtpError (List UInt8) :=
  match s.session, libOut with
  | none, _ => .error .invalidState
  | some _, none => .error .protocolError
  | some _, some out => .ok out

/-- `unprotect_rtp` -/
def unprotectRtp (s : SrtpSession) (packet : List UInt8) (libOut : Option (List UInt8)) :
    Except SrtpError (List UInt8) :=
  match s.session with
  | none => .error .invalidState
  | some _ =>
    if packet.length < 12 then .error .protocolError
    else match libOut with
      | none => .error .protocolError
      | some out => .ok out

/-- `protect_rtcp` and `unprotect_rtcp`: without a session the packet is handed back. -/
def protectRtcp (s : SrtpSession) (packet : List UInt8) (libOut : Option (List UInt8)) :
    Except SrtpError (List UInt8) :=
  match s.session, libOut with
  | none, _ => .ok packet
  | some _, none => .error .protocolError
  | some _, some out => .ok out

/-- `unprotect_rtcp` -/
def unprotectRtcp := protectRtcp

end SrtpSession

/-- A packet that a session is given, and libsrtp's answer on it. -/
structure PacketCall where
  session : SrtpSession
  rtcp : Bool
  packet : List UInt8
  answer : Option (List UInt8)
  deriving DecidableEq, Repr

namespace PacketCall

/-- What `protect_rtp` or `protect_rtcp` returns. -/
def protect (c : PacketCall) : Except SrtpError (List UInt8) :=
  if c.rtcp then c.session.protectRtcp c.packet c.answer else c.session.protectRtp c.answer

/-- What `unprotect_rtp` or `unprotect_rtcp` returns. -/
def unprotect (c : PacketCall) : Except SrtpError (List UInt8) :=
  if c.rtcp then c.session.unprotectRtcp c.packet c.answer
  else c.session.unprotectRtp c.packet c.answer

end PacketCall

/-- `SrtpContext`: a session for each SSRC and direction, and the keys for new ones. -/
structure SrtpContext where
  defaultSuite : CryptoSuite := .aes128CmSha1_80
  /-- A slot may be null: `operator[]` makes one before a session exists. -/
  outboundSessions : AList (fun _ : UInt32 => Option SrtpSession) := ∅
  inboundSessions : AList (fun _ : UInt32 => Option SrtpSession) := ∅
  outboundKey : List UInt8 := []
  outboundSalt : List UInt8 := []
  inboundKey : List UInt8 := []
  inboundSalt : List UInt8 := []

namespace SrtpContext

/-- The sessions of one direction. -/
def sessions (c : SrtpContext) (outgoing : Bool) : AList (fun _ : UInt32 => Option SrtpSession) :=
  if outgoing then c.outboundSessions else c.inboundSessions

/-- The sessions of one direction are replaced. -/
def setSessions (c : SrtpContext) (outgoing : Bool)
    (m : AList (fun _ : UInt32 => Option SrtpSession)) : SrtpContext :=
  if outgoing then { c with outboundSessions := m } else { c with inboundSessions := m }

/-- The master key of one direction. -/
def key (c : SrtpContext) (outgoing : Bool) : List UInt8 :=
  if outgoing then c.outboundKey else c.inboundKey

/-- The master salt of one direction. -/
def salt (c : SrtpContext) (outgoing : Bool) : List UInt8 :=
  if outgoing then c.outboundSalt else c.inboundSalt

/-- `Impl::install`, which `get_session` returns the outcome of. -/
def install (c : SrtpContext) (ssrc : UInt32) (outgoing libOk : Bool) :
    Option SrtpSession × SrtpContext :=
  match (c.sessions outgoing).lookup ssrc with
  | some (some s) => (some s, c)
  | _ =>
    let null := c.setSessions outgoing ((c.sessions outgoing).insert ssrc none)
    if c.key outgoing = [] ∨ c.salt outgoing = [] then (none, null)
    else
      match SrtpSession.initFromMasterKeyDir outgoing { suite := c.defaultSuite } (c.key outgoing)
          (c.salt outgoing) libOk {} with
      | (.ok (), s) => (some s, c.setSessions outgoing ((c.sessions outgoing).insert ssrc (some s)))
      | (.error _, _) => (none, c.setSessions outgoing ((c.sessions outgoing).erase ssrc))

/-- `get_session` -/
def getSession := install

/-- `derive_keys_for_remote` -/
def deriveKeysForRemote (c : SrtpContext) (key salt : List UInt8) (suite : CryptoSuite) :
    SrtpContext :=
  { c with defaultSuite := suite, inboundKey := key, inboundSalt := salt }

/-- `derive_keys_for_local` -/
def deriveKeysForLocal (c : SrtpContext) (key salt : List UInt8) (suite : CryptoSuite) :
    SrtpContext :=
  { c with defaultSuite := suite, outboundKey := key, outboundSalt := salt }

/-- `remove_session` -/
def removeSession (c : SrtpContext) (ssrc : UInt32) : SrtpContext :=
  { c with
    outboundSessions := c.outboundSessions.erase ssrc
    inboundSessions := c.inboundSessions.erase ssrc }

end SrtpContext

end NimRtc
