import NimRtc.Lib.Bytes

/-!
# The H.264 RTP payload

`video_payload/h264.cpp`: the three payload forms of RFC 6184 that NimRTC builds and parses. The
builders write to a buffer of a given size and report `0` when it is too small, here `none`.
-/

namespace NimRtc

namespace H264

/-- The types of an FU-A and of a STAP-A, and the masks of the first byte. -/
def kFuAType : UInt8 := 28
def kStapAType : UInt8 := 24
def kNaluTypeMask : UInt8 := 0x1F
def kNriMask : UInt8 := 0x60

/-- The first byte of a NAL unit. -/
def makeIndicator (nri type : UInt8) : UInt8 := (nri &&& 0x03) <<< 5 ||| (type &&& kNaluTypeMask)

/-- A NAL unit, with its header. -/
structure Nalu where
  type : UInt8
  data : List UInt8
  deriving DecidableEq, Repr

/-! ## Single NAL unit packets -/

/-- `parse_single` -/
def parseSingle : List UInt8 → Option Nalu
  | [] => none
  | first :: body =>
    let type := first &&& kNaluTypeMask
    if 1 ≤ type ∧ type ≤ 23 then some { type, data := first :: body } else none

/-! ## STAP-A -/

/-- What `parse_stap_a` returns. -/
structure StapAResult where
  nalus : List Nalu := []
  parsedOk : Bool := false
  deriving DecidableEq, Repr

/-- The units after the indicator byte, until a length is zero or runs past the end. Each round
takes at least three bytes, so the number of bytes is fuel enough. -/
def stapAUnits : ℕ → List UInt8 → List Nalu
  | fuel + 1, hi :: lo :: rest =>
    let naluLen := fromBytes [lo, hi]
    if naluLen = 0 ∨ rest.length < naluLen then []
    else
      { type := rest.headD 0 &&& kNaluTypeMask, data := rest.take naluLen }
        :: stapAUnits fuel (rest.drop naluLen)
  | _, _ => []

/-- `parse_stap_a` -/
def parseStapA : List UInt8 → StapAResult
  | [] => {}
  | first :: rest =>
    if first &&& kNaluTypeMask ≠ kStapAType then {}
    else
      let nalus := stapAUnits rest.length rest
      { nalus, parsedOk := !nalus.isEmpty }

/-- The loop of `build_stap_a`: `out` is what is written so far, one byte before the first unit,
and `cap` the size of the buffer. -/
def appendUnits (cap : ℕ) : List UInt8 → List (List UInt8) → Option (List UInt8)
  | out, [] => some out
  | out, [] :: ns => appendUnits cap out ns
  | out, (first :: body) :: ns =>
    let size := (first :: body).length
    let out := if out.length = 1 then [makeIndicator ((first &&& kNriMask) >>> 5) kStapAType] else out
    if cap < out.length + 2 + size then none
    else appendUnits cap (out ++ byteAt size 1 :: byteAt size 0 :: first :: body) ns

/-- `build_stap_a`, which gives nothing if the buffer is too small. -/
def buildStapA (nalus : List (List UInt8)) (cap : ℕ) : Option (List UInt8) :=
  if nalus = [] ∨ cap < 1 then none else appendUnits cap [0] nalus

/-! ## FU-A -/

/-- An FU-A taken apart. -/
structure FuAHeader where
  fuIndicator : UInt8
  fuHeader : UInt8
  fragment : List UInt8
  deriving DecidableEq, Repr

/-- `parse_fu_a_header` -/
def parseFuAHeader : List UInt8 → Option FuAHeader
  | indicator :: headerByte :: fragment =>
    if indicator &&& kNaluTypeMask ≠ kFuAType then none
    else some { fuIndicator := indicator, fuHeader := headerByte, fragment }
  | _ => none

/-- `build_fu_a`, which gives nothing if the buffer is too small. -/
def buildFuA (originalNaluType : UInt8) (fragment : List UInt8) (start «end» : Bool) (cap : ℕ) :
    Option (List UInt8) :=
  if cap < fragment.length + 2 then none
  else
    let header := originalNaluType &&& kNaluTypeMask
    let header := if start then header ||| 0x80 else header
    let header := if «end» then header ||| 0x40 else header
    some (makeIndicator 0 kFuAType :: header :: fragment)

end H264

end NimRtc
