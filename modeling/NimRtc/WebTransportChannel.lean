import NimRtc.DataChannel
import NimRtc.Lib.Varint

/-!
# The WebTransport data channel

The inbound side of `WebTransportDataChannel`, from `web_transport_data_channel.cpp`. Before its
payload a stream of the peer carries the signal 0x41 and a session id, each an integer of variable
width, in chunks that may be cut anywhere.
-/

namespace NimRtc

/-- The inbound side of a channel: its own stream, the one adopted from the peer, and the callbacks.
-/
structure WebTransportDataChannel where
  cfg : DataChannelConfig := {}
  opened : Bool := false
  /-- The stream of the channel's own is open. -/
  streamReady : Bool := false
  peerStream : Bool := false
  peerHeaderDone : Bool := false
  peerHeaderPending : List UInt8 := []
  /-- The message and the state callback are set. -/
  onMsg : Bool := true
  onState : Bool := true
  deriving DecidableEq, Repr

/-- `try_decode_varint` at `pos`: the value and the position after it. -/
def tryDecodeVarint (buf : List UInt8) (pos : ℕ) : Option (ℕ × ℕ) :=
  match buf[pos]? with
  | none => none
  | some lead =>
    let width := 1 <<< (lead >>> 6).toNat
    if buf.length - pos < width then none
    else
      let v := ((buf.drop (pos + 1)).take (width - 1)).foldl (fun v b => v <<< 8 ||| b.toNat)
        (lead &&& 0x3F).toNat
      some (v, pos + width)

/-- The signal that a stream of WebTransport data starts with. -/
def webTransportSignal : ℕ := 0x41

namespace WebTransportDataChannel

/-- The state callback, when one is set. -/
def reportState (c : WebTransportDataChannel) (s : String) : List ChannelReport :=
  if c.onState then [.state s] else []

/-- `reliability_to_state_string` -/
def reliabilityToStateString (r : DataChannelReliability) (streamExists : Bool) : String :=
  match r with
  | .unreliable => "open"
  | .reliableOrdered | .partialReliableTtl | .partialReliableCount =>
    if streamExists then "open" else "connecting"

/-- The adopted stream is let go. -/
def detachPeerStream (c : WebTransportDataChannel) : WebTransportDataChannel :=
  { c with peerStream := false, peerHeaderDone := false, peerHeaderPending := [] }

/-- `close` -/
def close (c : WebTransportDataChannel) : WebTransportDataChannel × List ChannelReport :=
  ({ c with opened := false, streamReady := false }.detachPeerStream,
    if c.opened then c.reportState "closed" else [])

/-- The message callback, when one is set. -/
def onStreamData (c : WebTransportDataChannel) (data : List UInt8) : List ChannelReport :=
  if c.onMsg then [.message data] else []

/-- `on_peer_stream`: the stream of the peer is adopted in place of the one before. -/
def onPeerStream (c : WebTransportDataChannel) : WebTransportDataChannel :=
  if !c.opened || c.cfg.reliability = .unreliable then c
  else { c.detachPeerStream with peerStream := true }

/-- `on_session_datagram` -/
def onSessionDatagram (c : WebTransportDataChannel) (bytes : List UInt8) : List ChannelReport :=
  if !c.opened || bytes = [] || c.cfg.reliability ≠ .unreliable then [] else c.onStreamData bytes

/-- The end of the header: what is left of the bytes that were held back is payload. -/
def headerDone (c : WebTransportDataChannel) (pending : List UInt8) (pos : ℕ) :
    WebTransportDataChannel × List ChannelReport :=
  let c := { c with peerHeaderDone := true, peerHeaderPending := [] }
  if pending.length ≤ pos then (c, []) else (c, c.onStreamData (pending.drop pos))

/-- `on_peer_stream_data` -/
def onPeerStreamData (c : WebTransportDataChannel) (data : List UInt8) :
    WebTransportDataChannel × List ChannelReport :=
  if !c.opened || data = [] then (c, [])
  else if !c.peerHeaderDone then
    let pending := c.peerHeaderPending ++ data
    match tryDecodeVarint pending 0 with
    | none => ({ c with peerHeaderPending := pending }, [])
    | some (signal, pos) =>
      -- a stream of another kind; nothing says so to the next chunk
      if signal ≠ webTransportSignal then
        ({ c with peerHeaderDone := true, peerHeaderPending := [] }, [])
      else
        match tryDecodeVarint pending pos with
        | none => ({ c with peerHeaderPending := pending }, [])
        | some (_, pos) => c.headerDone pending pos
  else (c, c.onStreamData data)

/-- The chunks of the peer's stream, one after the other. -/
def feedChunks (c : WebTransportDataChannel) : List (List UInt8) →
    WebTransportDataChannel × List ChannelReport
  | [] => (c, [])
  | data :: chunks =>
    let (c, reports) := c.onPeerStreamData data
    let (c, rest) := c.feedChunks chunks
    (c, reports ++ rest)

/-- The bytes that the chunks of a stream adopted now deliver. -/
def delivered (c : WebTransportDataChannel) (chunks : List (List UInt8)) : List UInt8 :=
  (ChannelReport.messages (c.onPeerStream.feedChunks chunks).2).flatten

/-- What a stream of the bytes `w` delivers: its payload if it is one of WebTransport data, and
nothing if it starts with another signal. -/
def FramesStream (w payload : List UInt8) : Prop :=
  (∀ signal sessionId p v, Varint.Encodes signal webTransportSignal → Varint.Encodes sessionId v →
      w = signal ++ sessionId ++ p → payload = p)
    ∧ ∀ signal v p, Varint.Encodes signal v → v ≠ webTransportSignal → w = signal ++ p → payload = []

/-- The bytes start with a signal of another kind. -/
def OtherSignal (bytes : List UInt8) : Prop :=
  ∃ signal pos, tryDecodeVarint bytes 0 = some (signal, pos) ∧ signal ≠ webTransportSignal

/-- Once the chunks so far start with another signal, no bytes follow. -/
def EndsAtOtherSignal (chunks : List (List UInt8)) : Prop :=
  ∀ before after, chunks = before ++ after → OtherSignal before.flatten → after.flatten = []

end WebTransportDataChannel

end NimRtc
