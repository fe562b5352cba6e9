import Mathlib

/-!
# Opus payloads

`packetise` and `depacketise` of `opus.cpp`. A frame is its bytes, and an output buffer is the bytes
it holds, its length being the capacity. `packetise` returns how many bytes it wrote and the buffer
after it. A view is a place in the payload that was given.
-/

namespace NimRtc

namespace Opus

/-- A frame of the encoder, with what it says of its length and channels. -/
structure CodecFrame where
  data : List UInt8 := []
  frameSizeMs : UInt16 := 20
  isStereo : UInt8 := 0
  deriving DecidableEq, Repr

/-- The bytes of a frame. -/
def CodecFrame.size (frame : CodecFrame) : ℕ := frame.data.length

/-- `data` of the source is `payload + offset`. -/
structure PacketView where
  offset : ℕ
  size : ℕ
  config : UInt8
  s : UInt8
  code : UInt8
  frameSizeMs : UInt16
  deriving DecidableEq, Repr

/-- The bytes that a view shows. -/
def PacketView.bytes (payload : List UInt8) (view : PacketView) : List UInt8 :=
  (payload.drop view.offset).take view.size

/-- The view is one of the frame: its bytes, their number, the stereo bit and the duration. -/
def PacketView.Shows (payload : List UInt8) (frame : CodecFrame) (view : PacketView) : Prop :=
  view.bytes payload = frame.data ∧ view.size = frame.size ∧ view.s = frame.isStereo
    ∧ view.frameSizeMs = frame.frameSizeMs

/-- The most frames in a packet, and bytes in a frame. -/
def kMaxFramesPerPacket : ℕ := 48
def kMaxOpusFrameBytes : ℕ := 1275

/-- The codes of the TOC byte. -/
def kCode0SingleFrame : UInt8 := 0
def kCode1TwoEqualFrames : UInt8 := 1
def kCode2TwoUnequalFrames : UInt8 := 2
def kCode3NFrames : UInt8 := 3

/-- `encode_frame_length`: one byte up to 251, else two. -/
def encodeFrameLength (len : ℕ) : Option (List UInt8) :=
  if 1275 < len then none
  else if len ≤ 251 then some [UInt8.ofNat len]
  else
    let offset := len - 252
    some [UInt8.ofNat (252 + offset % 4), UInt8.ofNat (offset / 4)]

/-- The length at a position and the position after it, or `none` for `0xFFFF`. -/
def decodeFrameLength (bytes : List UInt8) (pos : ℕ) : Option (ℕ × ℕ) :=
  match bytes.drop pos with
  | [] => none
  | b0 :: rest =>
    if b0 ≤ 251 then some (b0.toNat, pos + 1)
    else match rest with
      | [] => none
      | b1 :: _ =>
        let total := b0.toNat + b1.toNat * 4
        if 1275 < total then none else some (total, pos + 2)

/-- `toc_config_for_frame_size_ms` -/
def tocConfigForFrameSizeMs (frameSizeMs : UInt16) : Option UInt8 :=
  if frameSizeMs = 3 then some 28
  else if frameSizeMs = 5 then some 29
  else if frameSizeMs = 10 then some 30
  else if frameSizeMs = 20 then some 31
  else if frameSizeMs = 40 then some 10
  else if frameSizeMs = 60 then some 11
  else none

/-- The durations of each range of CELT-only configurations. -/
def celtMs (i : UInt8) : UInt16 :=
  if i = 0 then 3 else if i = 1 then 5 else if i = 2 then 10 else 20

/-- The length of a frame of SILK. -/
def silkMs (i : UInt8) : UInt16 :=
  if i = 0 then 10 else if i = 1 then 20 else if i = 2 then 40 else 60

/-- `frame_size_ms_for_config` -/
def frameSizeMsForConfig (config : UInt8) : UInt16 :=
  let config := config &&& 0x1F
  if 28 ≤ config then celtMs (config - 28)
  else if 24 ≤ config then celtMs (config - 24)
  else if 20 ≤ config then celtMs (config - 20)
  else if 16 ≤ config then celtMs (config - 16)
  else if 12 ≤ config then if config = 12 ∨ config = 13 then 10 else 20
  else silkMs (config &&& 0x03)

/-- `make_toc_byte` -/
def makeTocByte (config s code : UInt8) : UInt8 :=
  (config &&& 0x1F) <<< 3 ||| (s &&& 0x01) <<< 2 ||| code &&& 0x03

/-! ### Writing -/

/-- The configuration and the stereo field that the frames have in common. -/
def tocFields : List CodecFrame → Option (UInt8 × UInt8)
  | [] => none
  | frame :: rest =>
    match tocConfigForFrameSizeMs frame.frameSizeMs with
    | none => none
    | some config =>
      if ∀ other ∈ rest, tocConfigForFrameSizeMs other.frameSizeMs = some config
          ∧ other.isStereo &&& 0x03 = frame.isStereo &&& 0x03 then
        some (config, frame.isStereo &&& 0x03)
      else none

/-- The length entries of all frames but the last. -/
def lengthTable (frames : List CodecFrame) : Option (List UInt8) :=
  (frames.dropLast.mapM fun frame => encodeFrameLength frame.size).map List.flatten

/-- The frame count byte, with the count above the two flags. -/
def frameCountByte (cbr : Bool) (m : ℕ) : UInt8 :=
  (if cbr then (0 : UInt8) else 1) ||| UInt8.ofNat (m % 64) <<< 2

/-- What follows the TOC byte for three frames or more. -/
def countedBody (frames : List CodecFrame) (cbr : Bool) : Option (List UInt8) :=
  if 120 < (frames.map (·.frameSizeMs.toNat)).sum then none
  else
    let data := frames.flatMap (·.data)
    if cbr then
      if ∀ frame ∈ frames, frame.size = (frames.headD {}).size then
        some (frameCountByte cbr frames.length :: data)
      else none
    else (lengthTable frames).map fun table =>
      frameCountByte cbr frames.length :: (table ++ data)

/-- The payload for some frames: the code is chosen by their number and sizes. -/
def payloadOf (frames : List CodecFrame) (cbr : Bool) : Option (List UInt8) :=
  if kMaxFramesPerPacket < frames.length then none
  else if ∃ frame ∈ frames, kMaxOpusFrameBytes < frame.size then none
  else match tocFields frames with
    | none => none
    | some (config, s) =>
      match frames with
      | [] => none
      | [frame] => some (makeTocByte config s kCode0SingleFrame :: frame.data)
      | [first, second] =>
        if first.size = second.size then
          some (makeTocByte config s kCode1TwoEqualFrames :: (first.data ++ second.data))
        else (encodeFrameLength first.size).map fun len =>
          makeTocByte config s kCode2TwoUnequalFrames :: (len ++ (first.data ++ second.data))
      | _ => (countedBody frames cbr).map (makeTocByte config s kCode3NFrames :: ·)

/-- Nothing is written unless all of the payload fits. -/
def packetise (frames : List CodecFrame) (cbr : Bool) (output : List UInt8) : ℕ × List UInt8 :=
  match payloadOf frames cbr with
  | none => (0, output)
  | some payload =>
    if output.length < payload.length then (0, output)
    else (payload.length, payload ++ output.drop payload.length)

/-! ### Reading -/

/-- How `depacketise` ends. -/
inductive Outcome
  | rejected
  | views (views : List PacketView)
  /-- A frame length is stored past the end of the array on the stack. -/
  | overflow
  deriving DecidableEq, Repr

/-- The next `count` length entries and the position after them. -/
def decodeLengths (bytes : List UInt8) : ℕ → ℕ → Option (List ℕ × ℕ)
  | 0, pos => some ([], pos)
  | count + 1, pos =>
    match decodeFrameLength bytes pos with
    | none => none
    | some (n, pos) => (decodeLengths bytes count pos).map fun r => (n :: r.1, r.2)

/-- Consecutive views of some sizes. -/
def viewsFrom (view : ℕ → ℕ → PacketView) : ℕ → List ℕ → List PacketView
  | _, [] => []
  | cursor, n :: sizes => view cursor n :: viewsFrom view (cursor + n) sizes

/-- How many bytes say the padding and how much padding there is. -/
def paddingHeader (payload : List UInt8) (p : Bool) : Option (ℕ × ℕ) :=
  if !p then some (0, 0)
  else match payload.drop 2 with
    | [] => none
    | b0 :: rest =>
      if b0 = 255 then
        match rest with
        | [] => none
        | b1 :: _ => some (2, 254 + b1.toNat)
      else some (1, b0.toNat)

/-- The variable size branch for `m` frames between two positions. There is room for
`kMaxFramesPerPacket` lengths. -/
def depacketiseVbr (payload : List UInt8) (view : ℕ → ℕ → PacketView) (m pos dataEnd : ℕ) :
    Outcome :=
  let bytes := payload.take dataEnd
  if kMaxFramesPerPacket < m - 1 then
    if (decodeLengths bytes (kMaxFramesPerPacket + 1) pos).isSome then .overflow else .rejected
  else match decodeLengths bytes (m - 1) pos with
    | none => .rejected
    | some (lengths, dataStart) =>
      if dataEnd - dataStart < lengths.sum then .rejected
      else .views (viewsFrom view dataStart (lengths ++ [dataEnd - dataStart - lengths.sum]))

/-- Code 3 with frames of one size. -/
def depacketiseCbr (view : ℕ → ℕ → PacketView) (m pos dataEnd : ℕ) : Outcome :=
  let r := dataEnd - pos
  if r % m ≠ 0 then .rejected else .views (viewsFrom view pos (List.replicate m (r / m)))

/-- The payloads with a frame count byte. -/
def depacketiseCounted (payload : List UInt8) (viewsCapacity : ℕ)
    (view : ℕ → ℕ → PacketView) (fc : UInt8) : Outcome :=
  let v : Bool := fc &&& 0x01 ≠ 0
  let p : Bool := fc >>> 1 &&& 0x01 ≠ 0
  let m := (fc >>> 2 &&& 0x3F).toNat
  if m = 0 then .rejected
  else match paddingHeader payload p with
    | none => .rejected
    | some (header, padding) =>
      let pos := 2 + header
      if payload.length < pos + padding then .rejected
      else
        let dataEnd := payload.length - padding
        if viewsCapacity < m then .rejected
        else if v then depacketiseVbr payload view m pos dataEnd
        else depacketiseCbr view m pos dataEnd

/-- `depacketise` -/
def depacketise (payload : List UInt8) (viewsCapacity : ℕ) : Outcome :=
  match payload with
  | [] => .rejected
  | toc :: rest =>
    if viewsCapacity = 0 then .rejected
    else
      let config := toc >>> 3 &&& 0x1F
      let code := toc &&& 0x03
      let view := fun offset size =>
        PacketView.mk offset size config (toc >>> 2 &&& 0x01) code (frameSizeMsForConfig config)
      if code = kCode0SingleFrame then .views [view 1 rest.length]
      else if code = kCode1TwoEqualFrames then
        if rest.length % 2 ≠ 0 then .rejected
        else if viewsCapacity < 2 then .rejected
        else .views [view 1 (rest.length / 2), view (1 + rest.length / 2) (rest.length / 2)]
      else if code = kCode2TwoUnequalFrames then
        if viewsCapacity < 2 then .rejected
        else match decodeFrameLength payload 1 with
          | none => .rejected
          | some (n1, pos) =>
            if payload.length - pos < n1 then .rejected
            else .views [view pos n1, view (pos + n1) (payload.length - (pos + n1))]
      else match rest with
        | [] => .rejected
        | fc :: _ => depacketiseCounted payload viewsCapacity view fc

end Opus

end NimRtc
