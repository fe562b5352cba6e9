import NimRtc.Lib.Framing
import NimRtc.Lib.Varint
import NimRtc.Qpack

/-!
# HTTP/3 streams

The receiving side of `Http3Handler` of `web_transport_msquic_listener.cpp`. The bytes of a peer's
stream are kept until there is a whole frame of them, in a buffer for each stream. Whether the answer
to a request goes out, and finds a listener, is up to the transport.
-/

namespace NimRtc.Http3

open Qpack (QpackHeaderField QpackDecoder text)

/-- The handle of a stream. -/
abbrev HQUIC := ℕ

/-- The types of the frames and of the unidirectional streams that the handler knows. -/
def kFrameHeaders : ℕ := 0x01

def kFrameSettings : ℕ := 0x04

def kUniControlStream : UInt8 := 0x00

def kUniQpackEncoder : UInt8 := 0x02

/-- `quic_varint_decode`: the value and what follows it. -/
def quicVarintDecode (data : List UInt8) : Option (ℕ × List UInt8) :=
  match data with
  | [] => none
  | lead :: rest =>
    let width := 1 <<< (lead >>> 6).toNat
    if data.length < width then none
    else
      some ((rest.take (width - 1)).foldl (fun v b => v <<< 8 ||| b.toNat) (lead &&& 0x3F).toNat,
        data.drop width)

/-- A frame of HTTP/3. -/
structure Frame where
  frameType : ℕ
  payload : List UInt8
  deriving DecidableEq, Repr

/-- The first frame of some bytes, if it is complete. -/
def nextFrame (rem : List UInt8) : Option (Frame × List UInt8) := do
  let (frameType, cursor) ← quicVarintDecode rem
  let (frameLen, cursor) ← quicVarintDecode cursor
  if cursor.length < frameLen then none
  else some (⟨frameType, cursor.take frameLen⟩, cursor.drop frameLen)

/-- What a stream is for. -/
inductive StreamRole
  | unknown
  | request
  | control
  | encoder
  | push
  | decoder
  deriving DecidableEq, Repr

/-- What the handler keeps of a stream. -/
structure StreamState where
  role : StreamRole := .unknown
  buf : List UInt8 := []
  finSeen : Bool := false
  webtransportSent : Bool := false
  deriving DecidableEq, Repr

/-- The handler: its streams by handle, and the QPACK decoder that they share. -/
structure Http3Handler where
  streamStates : HQUIC → Option StreamState := fun _ => none
  qpack : QpackDecoder := {}
  settingsReceived : Bool := false

/-- What the handler does with the bytes of a stream. -/
inductive Report
  | parseHeaders (payload : List UInt8)
  | feedEncoderStream (bytes : List UInt8)
  | webtransportRequest (fields : List QpackHeaderField)
  deriving DecidableEq, Repr

namespace Http3Handler

/-- `on_peer_stream_started` -/
def onPeerStreamStarted (h : Http3Handler) (stream : HQUIC) (unidirectional : Bool) : Http3Handler :=
  let state := (h.streamStates stream).getD {}
  let role := if unidirectional then .unknown else .request
  { h with streamStates := Function.update h.streamStates stream (some { state with role }) }

/-- The first field of a name. -/
def headerValue (fields : List QpackHeaderField) (name : String) : Option (List UInt8) :=
  (fields.find? (·.name = text name)).map (·.value)

/-- The fields ask for a WebTransport session. -/
def isConnect (fields : List QpackHeaderField) : Bool :=
  headerValue fields ":method" = some (text "CONNECT")
    && headerValue fields ":protocol" = some (text "webtransport")

/-- `parse_headers`, with the `webtransport_sent` of the stream. -/
def parseHeaders (qpack : QpackDecoder) (answered webtransportSent : Bool) (payload : List UInt8) :
    Bool × List Report :=
  let (ok, fields) := qpack.decode payload
  if !ok || !isConnect fields || webtransportSent then (webtransportSent, [])
  else (true, if answered then [.webtransportRequest fields] else [])

/-- A frame of a request stream; its HEADERS are read until one was a request. -/
def requestFrame (qpack : QpackDecoder) (answered webtransportSent : Bool) (f : Frame) :
    Bool × List Report :=
  if f.frameType = kFrameHeaders ∧ !webtransportSent then
    let (sent, out) := parseHeaders qpack answered webtransportSent f.payload
    (sent, .parseHeaders f.payload :: out)
  else (webtransportSent, [])

/-- The frames of a request stream, one after the other. -/
def requestFrames (qpack : QpackDecoder) (answered : Bool) : Machine Bool Frame Report :=
  ⟨requestFrame qpack answered⟩

/-- `process_control_frames`, with `settings_received_`. -/
def controlFrames : Machine Bool Frame Report :=
  ⟨fun settingsReceived f => (settingsReceived || f.frameType = kFrameSettings, [])⟩

/-- The role of a stream and what its buffer holds besides the type. -/
def resolveRole (role : StreamRole) (buf : List UInt8) : StreamRole × List UInt8 :=
  match role, buf with
  | .unknown, type :: buf =>
    (if type = kUniControlStream then .control
      else if type = kUniQpackEncoder then .encoder else .push, buf)
  | role, buf => (role, buf)

/-- The state of a stream is replaced. -/
def put (h : Http3Handler) (stream : HQUIC) (state : StreamState) : Http3Handler :=
  { h with streamStates := Function.update h.streamStates stream (some state) }

/-- `on_stream_data` for a stream with a state. `answered` says whether a request on a stream is
answered. -/
def receive (answered : HQUIC → Bool) (h : Http3Handler) (stream : HQUIC) (state : StreamState)
    (data : List UInt8) (fin : Bool) : Http3Handler × List Report :=
  let (role, buf) := resolveRole state.role (state.buf ++ data)
  let state := { state with role, finSeen := state.finSeen || fin, buf := state.buf ++ data }
  match role with
  | .request =>
    let ((webtransportSent, out), rem) := Framing.loop nextFrame
      (requestFrames h.qpack (answered stream)) buf.length state.webtransportSent buf
    (h.put stream { state with webtransportSent, buf := rem }, out)
  | .control =>
    let ((settingsReceived, out), rem) :=
      Framing.loop nextFrame controlFrames buf.length h.settingsReceived buf
    ({ h.put stream { state with buf := rem } with settingsReceived }, out)
  | .encoder =>
    ({ h.put stream { state with buf := [] } with qpack := (h.qpack.feedEncoderStream buf).1 },
      [.feedEncoderStream buf])
  | .unknown | .push | .decoder => (h.put stream state, [])

/-- `on_stream_data` -/
def onStreamData (answered : HQUIC → Bool) (h : Http3Handler) (stream : HQUIC) (data : List UInt8)
    (fin : Bool) : Http3Handler × List Report :=
  match h.streamStates stream with
  | none => (h, [])
  | some state => h.receive answered stream state data fin

/-- `on_stream_closed` -/
def onStreamClosed (h : Http3Handler) (stream : HQUIC) : Http3Handler :=
  { h with streamStates := Function.update h.streamStates stream none }

/-- The calls with the data of one stream. -/
def chunks (answered : HQUIC → Bool) (stream : HQUIC) :
    Machine Http3Handler (List UInt8 × Bool) Report :=
  ⟨fun h chunk => h.onStreamData answered stream chunk.1 chunk.2⟩

/-- The calls of the connection. -/
inductive Call
  | peerStreamStarted (stream : HQUIC) (unidirectional : Bool)
  | streamData (stream : HQUIC) (data : List UInt8) (fin : Bool)
  | streamClosed (stream : HQUIC)
  deriving DecidableEq, Repr

/-- The calls for all streams, in any order. What is reported comes with its stream. -/
def calls (answered : HQUIC → Bool) : Machine Http3Handler Call (HQUIC × Report) where
  step h
    | .peerStreamStarted stream unidirectional => (h.onPeerStreamStarted stream unidirectional, [])
    | .streamData stream data fin =>
      let (h, out) := h.onStreamData answered stream data fin
      (h, out.map (stream, ·))
    | .streamClosed stream => (h.onStreamClosed stream, [])

/-! ### What does not depend on the chunks -/

/-- The handlers are the same, but for the QPACK decoder if the stream is an encoder stream. -/
def Agree (stream : HQUIC) (h h' : Http3Handler) : Prop :=
  h = h' ∨ { h with qpack := h'.qpack } = h'
    ∧ (h.streamStates stream).map (·.role) = some .encoder

end Http3Handler

namespace Report

/-- What the QPACK decoder is fed, call by call. -/
def fed (out : List Report) : List (List UInt8) :=
  out.filterMap fun
    | .feedEncoderStream bytes => some bytes
    | _ => none

/-- The field sections that were parsed. -/
def parsed (out : List Report) : List (List UInt8) :=
  out.filterMap fun
    | .parseHeaders payload => some payload
    | _ => none

/-- The requests that were reported. -/
def requests (out : List Report) : List (List QpackHeaderField) :=
  out.filterMap fun
    | .webtransportRequest fields => some fields
    | _ => none

/-- What is reported of one stream. -/
def ofStream (stream : HQUIC) (out : List (HQUIC × Report)) : List Report :=
  (out.filter (·.1 = stream)).map (·.2)

end Report

/-- The bytes of some frames, their types and lengths as integers of any width. -/
inductive Encoded : List Frame → List UInt8 → Prop
  | nil : Encoded [] []
  | frame {f : Frame} {fs : List Frame} {type length rest : List UInt8}
      (htype : Varint.Encodes type f.frameType) (hlength : Varint.Encodes length f.payload.length)
      (hrest : Encoded fs rest) : Encoded (f :: fs) (type ++ length ++ f.payload ++ rest)

/-- The payloads of the HEADERS frames. -/
def headers (fs : List Frame) : List (List UInt8) :=
  (fs.filter (·.frameType = kFrameHeaders)).map (·.payload)

/-- The payloads up to the first one that asks for a session. -/
def untilConnect (qpack : QpackDecoder) : List (List UInt8) → List (List UInt8)
  | [] => []
  | payload :: payloads =>
    let (ok, fields) := qpack.decode payload
    if ok && Http3Handler.isConnect fields then [payload]
    else payload :: untilConnect qpack payloads

end NimRtc.Http3
