import NimRtc.H264Payload
import NimRtc.Lib.Buffer

/-!
# RTP payloads in the caller's buffer

`build_stap_a` of `video_payload/h264.cpp`, and `video_payload/vp8.cpp` and `video_payload/vp9.cpp`:
a descriptor of one to four bytes in front of the bitstream. The builders write to a buffer that the
caller gives and return how much of it they used, `0` when it is too small. The `int32_t` picture ID
is an integer, its low bits the residue.
-/

namespace NimRtc

namespace H264

/-- The loop of `build_stap_a` on the buffer, of which `pos` bytes are used. -/
def buildStapALoop (output : List UInt8) (pos : ℕ) : List (List UInt8) → ℕ × List UInt8
  | [] => (pos, output)
  | [] :: ns => buildStapALoop output pos ns
  | (first :: body) :: ns =>
    let n := first :: body
    let nri := (first &&& kNriMask) >>> 5
    let output := if pos = 1 then output.set 0 (makeIndicator nri kStapAType) else output
    if output.length < pos + 2 + n.length then (0, output)
    else
      let output := output.set pos (byteAt n.length 1)
      let output := output.set (pos + 1) (byteAt n.length 0)
      buildStapALoop (Buffer.write output (pos + 2) n) (pos + 2 + n.length) ns

/-- `build_stap_a`: 0 where there is nothing to put in, or no room. -/
def buildStapAInto (nalus : List (List UInt8)) (output : List UInt8) : ℕ × List UInt8 :=
  if nalus = [] ∨ output.length < 1 then (0, output) else buildStapALoop output 1 nalus

end H264

/-- `static_cast<std::uint16_t>(id) & 0x7FFF`. -/
def pictureId15 (id : ℤ) : ℕ := (id % 2 ^ 16).toNat &&& 0x7FFF

/-- `id & 0x7F`. -/
def pictureId7 (id : ℤ) : UInt8 := UInt8.ofNat (id % 2 ^ 7).toNat

namespace Vp8

def kDescByteBitX : UInt8 := 0x80
def kDescByteBitN : UInt8 := 0x20
def kDescByteBitS : UInt8 := 0x10
def kPidMask : UInt8 := 0x07
def kExtBitI : UInt8 := 0x80

/-- The VP8 payload descriptor. -/
structure Descriptor where
  partitionIndex : UInt8 := 0
  startOfPartition : Bool := false
  nonReference : Bool := false
  hasPictureId : Bool := false
  pictureId : ℤ := 0
  pictureId16bit : Bool := false
  deriving DecidableEq, Repr

/-- What the VP8 parser returns. -/
structure ParseResult where
  parsedOk : Bool := false
  desc : Descriptor := {}
  bitstream : List UInt8 := []
  deriving DecidableEq, Repr

/-- `descriptor_size` -/
def descriptorSize (d : Descriptor) : ℕ :=
  if !d.hasPictureId then 1 else 2 + if d.pictureId16bit then 2 else 1

/-- What is left after each byte that is taken stands for `payload` from `pos` on. -/
def parse : List UInt8 → ParseResult
  | [] => {}
  | b0 :: payload =>
    let desc : Descriptor :=
      { partitionIndex := b0 &&& kPidMask
        startOfPartition := b0 &&& kDescByteBitS ≠ 0
        nonReference := b0 &&& kDescByteBitN ≠ 0 }
    if b0 &&& kDescByteBitX = 0 then { parsedOk := true, desc, bitstream := payload }
    else
      match payload with
      | [] => { desc }
      | ext :: payload =>
        if ext &&& kExtBitI = 0 then { parsedOk := true, desc, bitstream := payload }
        else
          let desc := { desc with hasPictureId := true }
          match payload with
          | [] => { desc }
          | pic :: payload =>
            if pic &&& 0x80 = 0 then
              { parsedOk := true, desc := { desc with pictureId := (pic &&& 0x7F).toNat }
                bitstream := payload }
            -- `pos + 1 >= payload.size()`, although one byte is read
            else if payload.length ≤ 1 then { desc }
            else
              let pic16 := (pic &&& 0x7F).toNat <<< 8 ||| (payload.headD 0).toNat
              { parsedOk := true
                desc := { desc with pictureId16bit := true, pictureId := pic16 }
                bitstream := payload.drop 1 }

/-- `build_descriptor` -/
def buildDescriptor (d : Descriptor) (output : List UInt8) : ℕ × List UInt8 :=
  if output.length < descriptorSize d then (0, output)
  else
    let b0 := d.partitionIndex &&& kPidMask
    let b0 := if d.startOfPartition then b0 ||| kDescByteBitS else b0
    let b0 := if d.nonReference then b0 ||| kDescByteBitN else b0
    let b0 := if d.hasPictureId then b0 ||| kDescByteBitX else b0
    let output := output.set 0 b0
    if !d.hasPictureId then (1, output)
    else
      let output := output.set 1 kExtBitI
      if d.pictureId16bit then
        let pid16 := pictureId15 d.pictureId
        let output := output.set 2 (UInt8.ofNat (0x80 ||| pid16 >>> 8))
        let output := output.set 3 (UInt8.ofNat (pid16 &&& 0xFF))
        (4, output)
      else (3, output.set 2 (pictureId7 d.pictureId))

/-- `build`: the descriptor and the bitstream, or 0 where they do not fit. -/
def build (d : Descriptor) (bitstream output : List UInt8) : ℕ × List UInt8 :=
  let (descBytes, output) := buildDescriptor d output
  if descBytes = 0 then (0, output)
  else if output.length < descBytes + bitstream.length then (0, output)
  else (descBytes + bitstream.length, Buffer.write output descBytes bitstream)

end Vp8

namespace Vp9

def kBitZ : UInt8 := 0x80
def kBitY : UInt8 := 0x40
def kBitF : UInt8 := 0x20
def kBitN : UInt8 := 0x02
def kBitD : UInt8 := 0x01

/-- The VP9 payload descriptor. -/
structure Descriptor where
  hasPictureId : Bool := false
  pictureId16bit : Bool := false
  pictureId : ℤ := 0
  hasLayerInfo : Bool := false
  temporalId : UInt8 := 0
  spatialId : UInt8 := 0
  flexibleMode : Bool := false
  nonReference : Bool := false
  interPredicted : Bool := false
  deriving DecidableEq, Repr

/-- What the VP9 parser returns. -/
structure ParseResult where
  parsedOk : Bool := false
  desc : Descriptor := {}
  bitstream : List UInt8 := []
  deriving DecidableEq, Repr

/-- `descriptor_size` -/
def descriptorSize (d : Descriptor) : ℕ :=
  1 + (if d.hasPictureId then if d.pictureId16bit then 2 else 1 else 0)
    + if d.hasLayerInfo then 1 else 0

/-- The picture ID, and whether its bytes are there. -/
def parsePictureId (desc : Descriptor) : List UInt8 → Descriptor × Option (List UInt8)
  | [] => (desc, none)
  | pic :: payload =>
    if pic &&& 0x80 = 0 then ({ desc with pictureId := (pic &&& 0x7F).toNat }, some payload)
    else
      match payload with
      | [] => (desc, none)
      | low :: payload =>
        ({ desc with
            pictureId16bit := true
            pictureId := ((pic &&& 0x7F).toNat <<< 8 ||| low.toNat : ℕ) }, some payload)

/-- The layer byte, when there is one. -/
def parseLayerInfo (desc : Descriptor) : List UInt8 → Descriptor × Option (List UInt8)
  | [] => (desc, none)
  | layer :: payload =>
    ({ desc with temporalId := (layer >>> 5) &&& 0x07, spatialId := (layer >>> 3) &&& 0x03 },
      some payload)

/-- `parse` -/
def parse : List UInt8 → ParseResult
  | [] => {}
  | b0 :: payload =>
    let desc : Descriptor :=
      { hasPictureId := b0 &&& kBitZ ≠ 0
        hasLayerInfo := b0 &&& kBitY ≠ 0
        flexibleMode := b0 &&& kBitF ≠ 0
        nonReference := b0 &&& kBitN ≠ 0
        interPredicted := b0 &&& kBitD ≠ 0 }
    match if desc.hasPictureId then parsePictureId desc payload else (desc, some payload) with
    | (desc, none) => { desc }
    | (desc, some payload) =>
      match if desc.hasLayerInfo then parseLayerInfo desc payload else (desc, some payload) with
      | (desc, none) => { desc }
      | (desc, some payload) => { parsedOk := true, desc, bitstream := payload }

/-- `build_descriptor` -/
def buildDescriptor (d : Descriptor) (output : List UInt8) : ℕ × List UInt8 :=
  if output.length < descriptorSize d then (0, output)
  else
    let b0 : UInt8 := 0
    let b0 := if d.hasPictureId then b0 ||| kBitZ else b0
    let b0 := if d.hasLayerInfo then b0 ||| kBitY else b0
    let b0 := if d.flexibleMode then b0 ||| kBitF else b0
    let b0 := if d.nonReference then b0 ||| kBitN else b0
    let b0 := if d.interPredicted then b0 ||| kBitD else b0
    let output := output.set 0 b0
    let (pos, output) :=
      if d.hasPictureId then
        if d.pictureId16bit then
          let pid16 := pictureId15 d.pictureId
          (3, (output.set 1 (UInt8.ofNat (0x80 ||| pid16 >>> 8))).set 2
            (UInt8.ofNat (pid16 &&& 0xFF)))
        else (2, output.set 1 (pictureId7 d.pictureId))
      else (1, output)
    if d.hasLayerInfo then
      (pos + 1, output.set pos ((d.temporalId &&& 0x07) <<< 5 ||| (d.spatialId &&& 0x03) <<< 3))
    else (pos, output)

/-- `build`: the descriptor and the bitstream, or 0 where they do not fit. -/
def build (d : Descriptor) (bitstream output : List UInt8) : ℕ × List UInt8 :=
  let (descBytes, output) := buildDescriptor d output
  if descBytes = 0 then (0, output)
  else if output.length < descBytes + bitstream.length then (0, output)
  else (descBytes + bitstream.length, Buffer.write output descBytes bitstream)

end Vp9

end NimRtc
