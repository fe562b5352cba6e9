import NimRtc.OpusPayload

/-!
# The packet grammar of RFC 6716

Section 3 of the RFC, read from the bytes alone. The frames of a packet end where its padding
begins, so their sizes and the amount of padding say where each of them is. Durations are in tenths
of a millisecond, so that those of table 2 are whole numbers.
-/

namespace NimRtc

namespace Rfc6716

/-- Table 2. -/
def duration (config : ℕ) : ℕ :=
  if config < 12 then [100, 200, 400, 600].getD (config % 4) 0
  else if config < 16 then [100, 200].getD (config % 2) 0
  else [25, 50, 100, 200].getD (config % 4) 0

/-- A packet taken apart. -/
structure Packet where
  config : ℕ
  stereo : Bool
  /-- Where each frame begins, and its size. -/
  spans : List (ℕ × ℕ)
  deriving DecidableEq, Repr

/-- The length of a frame, in one byte or two. -/
def frameLength : List UInt8 → Option (ℕ × List UInt8)
  | [] => none
  | b :: rest =>
    if b.toNat < 252 then some (b.toNat, rest)
    else match rest with
      | [] => none
      | c :: rest => some (4 * c.toNat + b.toNat, rest)

/-- Some lengths, one after the other. -/
def frameLengths : ℕ → List UInt8 → Option (List ℕ × List UInt8)
  | 0, bytes => some ([], bytes)
  | count + 1, bytes =>
    match frameLength bytes with
    | none => none
    | some (n, bytes) => (frameLengths count bytes).map fun r => (n :: r.1, r.2)

/-- A length byte of 255 stands for 254 bytes and what the next length byte says. -/
def paddingLength : List UInt8 → Option (ℕ × List UInt8)
  | [] => none
  | b :: rest =>
    if b = 255 then (paddingLength rest).map fun r => (254 + r.1, r.2) else some (b.toNat, rest)

/-- The sizes of `m` frames that fill the data. -/
def division (v : Bool) (m : ℕ) (data : List UInt8) : Option (List ℕ) :=
  if v then
    match frameLengths (m - 1) data with
    | none => none
    | some (sizes, rest) =>
      if rest.length < sizes.sum then none else some (sizes ++ [rest.length - sizes.sum])
  else if data.length % m = 0 then some (List.replicate m (data.length / m)) else none

/-- The sizes of the frames and the amount of padding, from the bytes after the count byte. -/
def counted (v p : Bool) (m : ℕ) (rest : List UInt8) : Option (List ℕ × ℕ) :=
  if m = 0 then none
  else match if p then paddingLength rest else some (0, rest) with
    | none => none
    | some (padding, rest) =>
      if rest.length < padding then none
      else (division v m (rest.take (rest.length - padding))).map (·, padding)

/-- The sizes of the frames and the amount of padding, from the bytes after the TOC byte. -/
def sizes (code : ℕ) (rest : List UInt8) : Option (List ℕ × ℕ) :=
  if code = 0 then some ([rest.length], 0)
  else if code = 1 then
    if rest.length % 2 = 0 then some ([rest.length / 2, rest.length / 2], 0) else none
  else if code = 2 then
    match frameLength rest with
    | none => none
    | some (n, rest) => if rest.length < n then none else some ([n, rest.length - n], 0)
  else match rest with
    | [] => none
    | fc :: rest => counted (fc &&& 0x80 ≠ 0) (fc &&& 0x40 ≠ 0) (fc &&& 0x3F).toNat rest

/-- Frames of these sizes, one after the other. -/
def spansFrom : ℕ → List ℕ → List (ℕ × ℕ)
  | _, [] => []
  | start, n :: sizes => (start, n) :: spansFrom (start + n) sizes

/-- What a packet is by the standard. -/
def parse : List UInt8 → Option Packet
  | [] => none
  | toc :: rest =>
    match sizes (toc.toNat % 4) rest with
    | none => none
    | some (sizes, padding) =>
      let config := toc.toNat / 8
      if (∃ n ∈ sizes, 1275 < n) ∨ 1200 < sizes.length * duration config then none
      else some {
        config
        stereo := toc.toNat / 4 % 2 = 1
        spans := spansFrom (1 + rest.length - padding - sizes.sum) sizes }

/-- The frames that a packet has. -/
def Packet.frames (packet : Packet) (bytes : List UInt8) : List (List UInt8) :=
  packet.spans.map fun span => (bytes.drop span.1).take span.2

end Rfc6716

namespace Opus

open Rfc6716

/-- What `depacketise` returns is what the grammar assigns. Its durations are rounded up to a
millisecond. -/
def Outcome.Agrees : Outcome → Option Packet → Prop
  | .rejected, none => True
  | .views found, some packet =>
    found.map (fun view => (view.offset, view.size)) = packet.spans ∧ ∀ view ∈ found,
      view.config.toNat = packet.config ∧ (view.s = 1 ↔ packet.stereo = true)
        ∧ view.frameSizeMs.toNat = (duration packet.config + 9) / 10
  | _, _ => False

/-- The configurations whose duration the source has as table 2 has it. -/
def DurationRead (config : ℕ) : Prop := config ≠ 13 ∧ config ≠ 14

/-- The padding that the source finds, in one or two bytes. -/
def shortPadding (p : Bool) (rest : List UInt8) : Option (ℕ × List UInt8) :=
  if !p then some (0, rest)
  else match rest with
    | [] => none
    | b0 :: rest =>
      if b0 = 255 then
        match rest with
        | [] => none
        | b1 :: rest => some (254 + b1.toNat, rest)
      else some (b0.toNat, rest)

/-- Frames can be cut from the data, as far as the source looks: it stops at the end of its array. -/
def Divides (v : Bool) (m : ℕ) (data : List UInt8) : Prop :=
  if v then ∃ sizes rest, frameLengths (min (m - 1) (kMaxFramesPerPacket + 1)) data
      = some (sizes, rest) ∧ (kMaxFramesPerPacket < m - 1 ∨ sizes.sum ≤ rest.length)
  else data.length % m = 0

/-- The flags of the count byte in its low bits, and the count above them, give frames. -/
def ReadsFromLow (fc : UInt8) (rest : List UInt8) : Prop :=
  fc.toNat / 4 ≠ 0 ∧ ∃ padding data, shortPadding (fc.toNat / 2 % 2 = 1) rest = some (padding, data)
    ∧ padding ≤ data.length
    ∧ Divides (fc.toNat % 2 = 1) (fc.toNat / 4) (data.take (data.length - padding))

/-- The payloads that `depacketise` reads as the grammar does. With a count byte these are the ones
in which there are frames neither in the order of the bits that the source has nor in that of the
grammar. -/
def Legible : List UInt8 → Prop
  | [] => True
  | toc :: rest =>
    if toc.toNat % 4 = 0 then rest.length ≤ 1275 ∧ DurationRead (toc.toNat / 8)
    else if toc.toNat % 4 = 1 then
      rest.length % 2 = 1 ∨ rest.length ≤ 2550 ∧ DurationRead (toc.toNat / 8)
    else if toc.toNat % 4 = 2 then ∀ n tail, frameLength rest = some (n, tail) →
      tail.length < n ∨ tail.length - n ≤ 1275 ∧ DurationRead (toc.toNat / 8)
    else parse (toc :: rest) = none ∧ ∀ fc tail, rest = fc :: tail → ¬ ReadsFromLow fc tail

/-! ### Three frames or more -/

/-- The duration of a frame: the source has three milliseconds for two and a half. -/
def CodecFrame.tenths (frame : CodecFrame) : ℕ :=
  if frame.frameSizeMs = 3 then 25 else frame.frameSizeMs.toNat * 10

/-- Frames that make up one packet, and a buffer that has room for it. -/
structure Packable (frames : List CodecFrame) (cbr : Bool) (output : List UInt8) : Prop where
  three : 3 ≤ frames.length
  alike : (tocFields frames).isSome
  stereo : ∀ frame ∈ frames, frame.isStereo = 0 ∨ frame.isStereo = 1
  size : ∀ frame ∈ frames, frame.size ≤ 1275
  duration : (frames.map (·.tenths)).sum ≤ 1200
  equal : cbr = true → ∀ frame ∈ frames, frame.size = (frames.headD {}).size
  room : 2 + 2 * frames.length + (frames.flatMap (·.data)).length ≤ output.length

/-- `packetise` writes a packet that the grammar reads back as the frames. -/
def ReadsBack (frames : List CodecFrame) (cbr : Bool) (output : List UInt8) : Prop :=
  0 < (packetise frames cbr output).1 ∧ ∃ packet,
    parse ((packetise frames cbr output).2.take (packetise frames cbr output).1) = some packet
      ∧ packet.frames ((packetise frames cbr output).2.take (packetise frames cbr output).1)
        = frames.map (·.data)
      ∧ ∀ frame ∈ frames, Rfc6716.duration packet.config = frame.tenths
        ∧ (packet.stereo = true ↔ frame.isStereo = 1)

end Opus

end NimRtc
