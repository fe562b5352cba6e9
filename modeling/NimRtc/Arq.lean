import NimRtc.Lib.Bytes
import NimRtc.Lib.Serial

/-!
# The raw-UDP ARQ transport

`ArqRawUdp` (`src/raw_udp/`): selective-repeat ARQ over a UDP socket. An endpoint numbers the
payloads it sends with a 16-bit counter, keeps each until it is acknowledged, and retransmits
what has timed out. As a receiver it delivers in order, keeps what is ahead of order in a map,
and acknowledges the last number delivered with a bitmap of what the map holds past it.

One iteration of `recv_main` and one of `retransmit_main` are single steps here: the receive
state is only written by the receive thread, and the send state only under `tx_mu_`. The DTLS-PSK
wrappers are the identity in the source and are left out, as are the slice-6 test hooks.
-/

namespace NimRtc

/-- `plugins::Status`, the values this transport returns. -/
inductive Status
  | ok
  | errNotReady
  | errBufferTooSmall
  | errInternal
  deriving DecidableEq, Repr

/-- `plugins::Endpoint`: the encoded address, empty when unset. -/
abbrev Endpoint := List UInt8

/-- A datagram and where it goes. -/
abbrev Datagram := Endpoint × List UInt8

/-- What an endpoint is configured with. -/
structure RawUdpConfig where
  peerEndpoint : Endpoint := []
  rxWindowPackets : UInt16 := 32
  maxRetransmits : ℕ := 5
  rtoBaseMs : ℤ := 50
  rtoMaxMs : ℤ := 1000
  enableRealSocket : Bool := false
  deriving DecidableEq, Repr

/-- The counters of an endpoint. -/
structure RawUdpStats where
  packetsSent : ℕ := 0
  packetsRecv : ℕ := 0
  packetsRetransmit : ℕ := 0
  packetsDropped : ℕ := 0
  acksSent : ℕ := 0
  acksRecv : ℕ := 0
  deriving DecidableEq, Repr

/-- One DATA packet on the sending side that is not acknowledged yet. -/
structure PendingPacket where
  seq : UInt16
  framed : List UInt8
  sentAt : ℤ
  rto : ℤ
  retransmitCount : ℕ := 0
  inFlight : Bool
  deriving DecidableEq, Repr

/-- An endpoint: what it has sent and is not yet acknowledged, and what it has received out of
order. -/
structure ArqRawUdp where
  cfg : RawUdpConfig
  opened : Bool := false
  /-- Whether `socket_` is set. -/
  socket : Bool := false
  peerEndpoint : Endpoint := []
  rxDelivered : List (List UInt8) := []
  rxBuffer : AList (fun _ : UInt16 => List UInt8) := ∅
  rxBaseSeq : UInt16 := 0
  rxInitialized : Bool := false
  txPending : List PendingPacket := []
  txSeq : UInt16 := 0
  stats : RawUdpStats := {}

/-! ## Frames -/

/-- The two types of a frame. -/
def kFrameData : UInt8 := 1
def kFrameAck : UInt8 := 2
def kMaxDatagramBytes : ℕ := 1500
def kDataHeaderBytes : ℕ := 4
def kSelectiveAckBits : ℕ := 32

/-- A DATA frame: type, sequence number low byte first, a reserved byte, the payload. -/
def buildDataFrame (seq : UInt16) (data : List UInt8) : List UInt8 :=
  kFrameData :: byteAt seq.toNat 0 :: byteAt seq.toNat 1 :: 0 :: data

/-- An ACK frame, twelve bytes: type, the acknowledged number and the bitmap as 32-bit
little-endian, three reserved bytes. -/
def buildAckFrame (cumulativeAck bitmap : ℕ) : List UInt8 :=
  [kFrameAck, byteAt cumulativeAck 0, byteAt cumulativeAck 1, byteAt cumulativeAck 2,
    byteAt cumulativeAck 3, byteAt bitmap 0, byteAt bitmap 1, byteAt bitmap 2, byteAt bitmap 3,
    0, 0, 0]

/-! ## Sequence numbers -/

/-- The 16-bit difference `a - b`. -/
def seqDiff (a b : UInt16) : ℕ := (a - b).toNat

/-- `a` is `b` or comes after it, in the order modulo `2 ^ 16`. -/
def seqAfter (a b : UInt16) : Bool := decide (seqDiff a b < 0x8000)

/-- `seq` is in `[base, base + window)`. -/
def seqInWindow (seq base window : UInt16) : Bool := decide (seqDiff seq base < window.toNat)

namespace ArqRawUdp

/-! ## Sending -/

/-- `open`; `socketOk` tells whether the real socket is made. -/
def «open» (a : ArqRawUdp) (socketOk : Bool) : Status × ArqRawUdp :=
  if a.opened then (.ok, a)
  else if a.cfg.enableRealSocket then
    if socketOk then (.ok, { a with opened := true, socket := true })
    else (.errInternal, { a with socket := false })
  else (.ok, { a with opened := true })

/-- The socket's `send_to` to the configured peer, nothing without a socket or a peer. -/
def sendToPeer (a : ArqRawUdp) (frames : List (List UInt8)) : List Datagram :=
  if a.socket ∧ a.peerEndpoint ≠ [] then frames.map (a.peerEndpoint, ·) else []

/-- `send`: the status, the endpoint after it, and what it put on the wire. A full window is
noticed only after the sequence number is taken. -/
def send (a : ArqRawUdp) (dst : Endpoint) (data : List UInt8) (now : ℤ) :
    Status × ArqRawUdp × List Datagram :=
  if !a.opened then (.errNotReady, a, [])
  else if kMaxDatagramBytes < data.length + kDataHeaderBytes then (.errBufferTooSmall, a, [])
  else if dst = [] ∧ a.peerEndpoint = [] ∧ a.cfg.enableRealSocket then (.errNotReady, a, [])
  else
    let peer := if dst ≠ [] then dst else a.peerEndpoint
    let seq := a.txSeq
    let framed := buildDataFrame seq data
    let a := { a with
      peerEndpoint := peer
      cfg := { a.cfg with peerEndpoint := peer }
      txSeq := seq + 1 }
    if a.cfg.rxWindowPackets.toNat ≤ a.txPending.length then
      (.errBufferTooSmall,
        { a with stats := { a.stats with packetsDropped := a.stats.packetsDropped + 1 } }, [])
    else
      let p : PendingPacket :=
        { seq, framed, sentAt := now, rto := a.cfg.rtoBaseMs, inFlight := true }
      (.ok,
        { a with
          txPending := a.txPending ++ [p]
          stats := { a.stats with packetsSent := a.stats.packetsSent + 1 } },
        a.sendToPeer [framed])

/-- Whether an acknowledgement covers `seq`: at it, before it in the same half of the number
space, or at a set bit past it. -/
def acked (cumulativeAck bitmap : ℕ) (seq : UInt16) : Bool :=
  let cum := UInt16.ofNat cumulativeAck
  if seq.toNat = cumulativeAck then true
  else if seqAfter seq cum then
    let diff := seqDiff seq cum
    decide (0 < diff ∧ diff ≤ kSelectiveAckBits) && bitmap.testBit (diff - 1)
  else decide (seqDiff cum seq ≠ 0)

/-- Drops what an ACK covers: what is below the cumulative number and what its bitmap has. -/
def applyAckFrame (a : ArqRawUdp) (cumulativeAck bitmap : ℕ) : ArqRawUdp :=
  { a with
    txPending := a.txPending.filter fun p => !acked cumulativeAck bitmap p.seq
    stats := { a.stats with
      acksRecv := a.stats.acksRecv
        + (a.txPending.filter fun p => acked cumulativeAck bitmap p.seq).length } }

/-- The packet's retransmission timeout has elapsed. -/
def PendingPacket.due (p : PendingPacket) (now : ℤ) : Bool :=
  p.inFlight && decide (p.rto ≤ now - p.sentAt)

/-- A due packet is sent again with its timeout doubled up to the cap, unless it has been sent
again often enough. -/
def PendingPacket.retransmit (cfg : RawUdpConfig) (now : ℤ) (p : PendingPacket) : PendingPacket :=
  if due p now ∧ p.retransmitCount < cfg.maxRetransmits then
    { p with
      retransmitCount := p.retransmitCount + 1
      sentAt := now
      rto := min (p.rto * 2) cfg.rtoMaxMs }
  else p

/-- One round of `retransmit_main`. -/
def retransmitTick (a : ArqRawUdp) (now : ℤ) : ArqRawUdp × List Datagram :=
  let resent := a.txPending.filter fun p =>
    PendingPacket.due p now && decide (p.retransmitCount < a.cfg.maxRetransmits)
  let toDrop := (a.txPending.filter fun p =>
    PendingPacket.due p now && !decide (p.retransmitCount < a.cfg.maxRetransmits)).map (·.seq)
  let kept := toDrop.foldl (fun l s => l.eraseP fun p => p.seq == s)
    (a.txPending.map (PendingPacket.retransmit a.cfg now))
  ({ a with
      txPending := kept
      stats := { a.stats with
        packetsRetransmit := a.stats.packetsRetransmit + resent.length
        packetsDropped := a.stats.packetsDropped + toDrop.length } },
    a.sendToPeer (resent.map (·.framed)))

/-! ## Receiving -/

/-- The selective bits: bit `d - 1` for each buffered number `d` past the base, up to 32. -/
def ackBitmap (base : UInt16) (rxBuffer : AList (fun _ : UInt16 => List UInt8)) : ℕ :=
  rxBuffer.foldl (fun bitmap seq _ =>
    let diff := seqDiff seq base
    if 0 < diff ∧ diff ≤ kSelectiveAckBits then bitmap ||| 1 <<< (diff - 1) else bitmap) 0

/-- The ACK for what was received so far, over a real socket only. -/
def sendAckTo (a : ArqRawUdp) (peer : Endpoint) : ArqRawUdp × List Datagram :=
  if !a.socket || peer.isEmpty then (a, [])
  else
    ({ a with stats := { a.stats with acksSent := a.stats.acksSent + 1 } },
      [(peer, buildAckFrame a.rxBaseSeq.toNat (ackBitmap a.rxBaseSeq a.rxBuffer))])

/-- A datagram is dropped, and counted. -/
def countDropped (a : ArqRawUdp) : ArqRawUdp :=
  { a with stats := { a.stats with packetsDropped := a.stats.packetsDropped + 1 } }

/-- Push a payload to `rx_delivered_`. -/
def deliver (a : ArqRawUdp) (payload : List UInt8) : ArqRawUdp :=
  { a with
    rxDelivered := a.rxDelivered ++ [payload]
    stats := { a.stats with packetsRecv := a.stats.packetsRecv + 1 } }

/-- The loop after an in-order delivery: while the map holds `newBase`, deliver what it holds,
drop it from the map, and move the base past it. Each round shortens the map, whose length is the
fuel. -/
def drainBuffer : ℕ → UInt16 → ArqRawUdp → ArqRawUdp
  | 0, _, a => a
  | fuel + 1, newBase, a =>
    match a.rxBuffer.lookup newBase with
    | none => a
    | some v =>
      drainBuffer fuel (newBase + 1)
        { a.deliver v with rxBuffer := a.rxBuffer.erase newBase, rxBaseSeq := newBase + 1 }

/-- The in-order branch: deliver, move the base to the number just delivered, and drain the map
from that number on. -/
def deliverInOrder (a : ArqRawUdp) (payload : List UInt8) : ArqRawUdp :=
  let newBase := a.rxBaseSeq + 1
  drainBuffer a.rxBuffer.keys.length newBase { a.deliver payload with rxBaseSeq := newBase }

/-- The DATA branch of `recv_main`. -/
def recvData (a : ArqRawUdp) (peer : Endpoint) (seq : UInt16) (payload : List UInt8) :
    ArqRawUdp × List Datagram :=
  if !a.rxInitialized then
    sendAckTo { a.deliver payload with rxInitialized := true, rxBaseSeq := seq } peer
  else if seq = a.rxBaseSeq then
    let (a, out) := a.sendAckTo peer
    (a.countDropped, out)
  else if !seqInWindow seq a.rxBaseSeq a.cfg.rxWindowPackets then a.countDropped.sendAckTo peer
  else if seqAfter seq a.rxBaseSeq then
    if seqDiff seq a.rxBaseSeq = 1 then (a.deliverInOrder payload).sendAckTo peer
    else sendAckTo { a with rxBuffer := a.rxBuffer.insert seq payload } peer
  else a.countDropped.sendAckTo peer

/-- One iteration of `recv_main` on a received datagram. -/
def recvMain (a : ArqRawUdp) (peer : Endpoint) : List UInt8 → ArqRawUdp × List Datagram
  | [] => (a, [])
  | t :: b₁ :: b₂ :: b₃ :: rest =>
    if t = kFrameAck then
      match rest with
      | b₄ :: b₅ :: b₆ :: b₇ :: b₈ :: _ :: _ :: _ :: _ =>
        (a.applyAckFrame (fromBytes [b₁, b₂, b₃, b₄]) (fromBytes [b₅, b₆, b₇, b₈]), [])
      | _ => (a.countDropped, [])
    else if t ≠ kFrameData then (a.countDropped, [])
    else a.recvData peer (UInt16.ofNat (fromBytes [b₁, b₂])) rest
  | _ => (a.countDropped, [])

/-- `recv` hands out what has been delivered. -/
def recv (a : ArqRawUdp) : List (List UInt8) × ArqRawUdp :=
  (a.rxDelivered, { a with rxDelivered := [] })

end ArqRawUdp

end NimRtc
