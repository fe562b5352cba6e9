import Mathlib

/-!
# Data channels

The configuration that both data channel backends take and the DCEP messages of `dcep.cpp` that
carry it to the peer. Labels are the bytes of the source's strings.
-/

namespace NimRtc

/-- What a channel promises about delivery. -/
inductive DataChannelReliability
  | reliableOrdered
  | unreliable
  | partialReliableTtl
  | partialReliableCount
  deriving DecidableEq, Repr

/-- The configuration of a channel. -/
structure DataChannelConfig where
  label : List UInt8 := []
  reliability : DataChannelReliability := .reliableOrdered
  maxRetransmits : UInt16 := 0
  maxPacketLifetimeMs : UInt16 := 0
  priority : UInt8 := 128
  ordered : Bool := true
  deriving DecidableEq, Repr

/-- The send methods of the SCTP socket. -/
inductive SctpSendMode
  | stream
  | datagram
  | partialReliable (ttlMs : ℕ) (unordered : Bool)
  deriving DecidableEq, Repr

/-- What a channel does that is seen from outside. -/
inductive ChannelReport
  /-- The message callback is invoked. -/
  | message (data : List UInt8)
  /-- The state callback is invoked. -/
  | state (s : String)
  /-- A message is handed to the SCTP socket. -/
  | sent (mode : SctpSendMode) (stream : UInt16) (ppid : UInt32) (data : List UInt8)
  deriving DecidableEq, Repr

namespace ChannelReport

/-- The messages among what a channel reports. -/
def messages : List ChannelReport → List (List UInt8) := List.filterMap fun
  | .message data => some data
  | _ => none

end ChannelReport

/-! ### DCEP -/

/-- The payload protocol ids: DCEP, and the two of user messages. -/
def kPpidDcep : UInt32 := 50
def kPpidString : UInt32 := 51
def kPpidBinary : UInt32 := 53

/-- The types of a DCEP message. -/
def kDcepAck : UInt8 := 0x02
def kDcepOpen : UInt8 := 0x03

/-- The channel types that the encoder writes and the decoder knows. -/
def kDcepReliable : UInt8 := 0x00
def kDcepPartialReliableRexmit : UInt8 := 0x01
def kDcepPartialReliableTimed : UInt8 := 0x02

/-- What an OPEN says of the channel. -/
structure DcepOpenParams where
  reliability : DataChannelReliability := .reliableOrdered
  ordered : Bool := true
  maxRetransmits : UInt16 := 0
  maxPacketLifetimeMs : UInt16 := 0
  label : List UInt8 := []
  deriving DecidableEq, Repr

/-- The decoded parameters say of a channel what its configuration says: the label, the mode, and
the parameter of a partially reliable mode. -/
structure DcepOpenParams.Describes (p : DcepOpenParams) (cfg : DataChannelConfig) : Prop where
  label : p.label = cfg.label
  reliability : p.reliability = cfg.reliability
  lifetime : cfg.reliability = .partialReliableTtl →
    p.maxPacketLifetimeMs = cfg.maxPacketLifetimeMs
  retransmits : cfg.reliability = .partialReliableCount → p.maxRetransmits = cfg.maxRetransmits

/-- `dcep_encode_ack` -/
def dcepEncodeAck : List UInt8 := [kDcepAck]

/-- The channel type and the reliability parameter of an OPEN. -/
def DataChannelConfig.dcepType (cfg : DataChannelConfig) : UInt8 × UInt16 :=
  match cfg.reliability with
  | .reliableOrdered | .unreliable => (kDcepReliable, 0)
  | .partialReliableTtl => (kDcepPartialReliableTimed, cfg.maxPacketLifetimeMs)
  | .partialReliableCount => (kDcepPartialReliableRexmit, cfg.maxRetransmits)

/-- `dcep_encode_open`. The reliability parameter has 16 bits, so its upper half is zero. -/
def dcepEncodeOpen (cfg : DataChannelConfig) : List UInt8 :=
  let label := cfg.label.take 65535
  let len := UInt16.ofNat label.length
  let (channelType, param) := cfg.dcepType
  [kDcepOpen, channelType, 0, cfg.priority, 0, 0, (param >>> 8).toUInt8, param.toUInt8,
    (len >>> 8).toUInt8, len.toUInt8, 0, 0] ++ label

/-- Two bytes as a number, the high one first. -/
def be16 (hi lo : UInt8) : ℕ := hi.toNat * 256 + lo.toNat

/-- A reliability parameter cut to 16 bits. -/
def dcepParam (n : ℕ) : UInt16 := UInt16.ofNat (min n 65535)

/-- `dcep_decode_open`: the lengths must fit the message, and the channel type must be known. -/
def dcepDecodeOpen : List UInt8 → Option DcepOpenParams
  | b0 :: channelType :: _ :: _ :: r0 :: r1 :: r2 :: r3 :: l0 :: l1 :: p0 :: p1 :: body =>
    if b0 ≠ kDcepOpen then none
    else if be16 l0 l1 + be16 p0 p1 ≠ body.length then none
    else
      let param := be16 r0 r1 * 65536 + be16 r2 r3
      let label := body.take (be16 l0 l1)
      if channelType = kDcepReliable then some { label }
      else if channelType = kDcepPartialReliableTimed then
        some { reliability := .partialReliableTtl, maxPacketLifetimeMs := dcepParam param, label }
      else if channelType = kDcepPartialReliableRexmit then
        some { reliability := .partialReliableCount, maxRetransmits := dcepParam param, label }
      else none
  | _ => none

/-- `dcep_ppid_for_config`. -/
def dcepPpidForConfig (_ : DataChannelConfig) : UInt32 := kPpidBinary

end NimRtc
