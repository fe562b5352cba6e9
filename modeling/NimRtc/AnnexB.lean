import NimRtc.H264Payload
import NimRtc.Lib.Checked

/-!
# Annex B streams

The scanners of H.264 byte streams: `BitstreamParser` and `find_nalu` of `bitstream.hpp` and
`bitstream.cpp`, and `find_sps_in`, `find_pps_in` and `contains_idr_slice` of `hw_backend_base.hpp`,
which walk over the start codes on their own. Each byte that they read is checked, and so is that their
loops end.
-/

namespace NimRtc

namespace AnnexB

open H264

/-- The NAL unit types that the scanners look for: SPS, PPS and an IDR slice. -/
def kSPS : UInt8 := 7
def kPPS : UInt8 := 8
def kSliceIDR : UInt8 := 5

/-- A read outside the buffer, or a loop that does not end. -/
inductive Access
  | byte (i : ℕ)
  | endless
  deriving DecidableEq, Repr

/-- A NAL unit as a scanner gives it: its type, its bytes and the length of its start code. -/
structure ParsedNalu where
  type : UInt8
  data : List UInt8
  startCodeLen : ℕ
  deriving DecidableEq, Repr

/-- A byte of the buffer, which must be in it. -/
def byteAt (bs : List UInt8) (i : ℕ) : Except Access UInt8 := Checked.get (.byte i) bs i

/-- `p[i] == b` -/
def isByte (bs : List UInt8) (i : ℕ) (b : UInt8) : Except Access Bool := do
  let p ← byteAt bs i
  return p == b

def test (p : Prop) [Decidable p] : Except Access Bool := .ok (decide p)

/-- `p[i..i + 4]` is the long start code. The condition before it is that these bytes are there. -/
def isLongCode (bs : List UInt8) (i : ℕ) : Except Access Bool :=
  isByte bs i 0 <&&> isByte bs (i + 1) 0 <&&> isByte bs (i + 2) 0 <&&> isByte bs (i + 3) 1

/-- `00 00 01` at `i`. -/
def isShortCode (bs : List UInt8) (i : ℕ) : Except Access Bool :=
  isByte bs i 0 <&&> isByte bs (i + 1) 0 <&&> isByte bs (i + 2) 1

/-! ### The parser -/

/-- `BitstreamParser`: the buffer and the place that the next search starts from. -/
structure BitstreamParser where
  bitstream : List UInt8
  cursor : ℕ := 0
  finished : Bool := false

namespace BitstreamParser

variable (bs : List UInt8)

/-- What the loop of `find_start_code_at_or_after` looks for at `i`. -/
def startsAt (i : ℕ) : Except Access Bool :=
  (isByte bs i 0 <&&> isByte bs (i + 1) 0)
    <&&> ((test (i + 2 < bs.length) <&&> isByte bs (i + 2) 1)
      <||> (test (i + 3 < bs.length) <&&> isByte bs (i + 2) 0 <&&> isByte bs (i + 3) 1))

/-- The loop over the places where a start code may be. -/
def findLoop : ℕ → ℕ → Except Access (Option ℕ)
  | 0, _ => .error .endless
  | rounds + 1, i =>
    if i + 2 < bs.length then do
      let found ← startsAt bs i
      if found then return some i
      else findLoop rounds (i + 1)
    else .ok none

/-- `find_start_code_at_or_after` -/
def findStartCodeAtOrAfter («from» : ℕ) : Except Access (Option ℕ) :=
  if bs.length ≤ «from» then .ok none else findLoop bs (bs.length + 1) «from»

/-- The length of the start code at a place, if there is one. -/
def startCodeLenAt (naluStart : ℕ) : Except Access (Option ℕ) := do
  let long ← test (4 ≤ bs.length - naluStart) <&&> isLongCode bs naluStart
  if long then return some 4
  else do
    let short ← test (3 ≤ bs.length - naluStart) <&&> isShortCode bs naluStart
    return if short then some 3 else none

/-- The NAL unit behind a start code, and where it ends. -/
def naluAt (naluStart scLen : ℕ) : Except Access (Option (ParsedNalu × ℕ)) := do
  let naluHdr := naluStart + scLen
  if bs.length ≤ naluHdr then return none
  else do
    let nextSc ← findStartCodeAtOrAfter bs (naluHdr + 1)
    let naluEnd := nextSc.getD bs.length
    let header ← byteAt bs naluHdr
    let data ← Checked.readRange (.byte naluEnd) bs naluHdr (naluEnd - naluHdr)
    return some (⟨header &&& kNaluTypeMask, data, scLen⟩, naluEnd)

/-- The next NAL unit, if there is one before the end. -/
def nextNalu (cursor : ℕ) : Except Access (Option (ParsedNalu × ℕ)) := do
  match ← findStartCodeAtOrAfter bs cursor with
  | none => return none
  | some naluStart =>
    match ← startCodeLenAt bs naluStart with
    | none => return none
    | some scLen => naluAt bs naluStart scLen

end BitstreamParser

/-- `next`, with the NAL unit if it returns true. -/
def BitstreamParser.next (p : BitstreamParser) :
    Except Access (BitstreamParser × Option ParsedNalu) :=
  if p.finished ∨ p.bitstream.length ≤ p.cursor then .ok (p, none)
  else do
    match ← nextNalu p.bitstream p.cursor with
    | none => return ({ p with finished := true }, none)
    | some (nalu, naluEnd) =>
      return ({ p with cursor := naluEnd, finished := p.bitstream.length ≤ naluEnd }, some nalu)

/-- The NAL units one after the other, until there is none. -/
def BitstreamParser.pullAll : ℕ → BitstreamParser → Except Access (List ParsedNalu)
  | 0, _ => .error .endless
  | rounds + 1, p => do
    match ← p.next with
    | (_, none) => return []
    | (p, some nalu) =>
      let nalus ← pullAll rounds p
      return nalu :: nalus

/-- `parse_all` -/
def BitstreamParser.parseAll (bitstream : List UInt8) : Except Access (List ParsedNalu) :=
  pullAll (bitstream.length + 1) { bitstream }

/-- The first NAL unit of a type. -/
def findFirst (target : UInt8) : ℕ → BitstreamParser → Except Access (Option ParsedNalu)
  | 0, _ => .error .endless
  | rounds + 1, p => do
    match ← p.next with
    | (_, none) => return none
    | (p, some nalu) => if nalu.type = target then return some nalu else findFirst target rounds p

/-- A new parser that looks for a type. -/
def findNalu (bitstream : List UInt8) (target : UInt8) : Except Access (Option ParsedNalu) :=
  findFirst target (bitstream.length + 1) { bitstream }

def findSps (bitstream : List UInt8) : Except Access (Option ParsedNalu) := findNalu bitstream kSPS

def findPps (bitstream : List UInt8) : Except Access (Option ParsedNalu) := findNalu bitstream kPPS

def findIdrSlice (bitstream : List UInt8) : Except Access (Option ParsedNalu) :=
  findNalu bitstream kSliceIDR

/-! ### The walks of the hardware backends -/

namespace HwBackend

/-- The length of the start code at the front. -/
def skipStartCode (bs : List UInt8) : Except Access (Option ℕ) := do
  let long ← test (3 < bs.length) <&&> isLongCode bs 0
  if long then return some 4
  else do
    let short ← test (2 < bs.length) <&&> isShortCode bs 0
    return if short then some 3 else none

/-- What the inner loops look for at `j`. -/
def startsAt (bs : List UInt8) (j : ℕ) : Except Access Bool :=
  isByte bs j 0 <&&> isByte bs (j + 1) 0
    <&&> (isByte bs (j + 2) 1
      <||> (test (j + 3 < bs.length) <&&> isByte bs (j + 2) 0 <&&> isByte bs (j + 3) 1))

/-- The next start code from `j` on. Without one, the loop ends two bytes before the end. -/
def nextStartCode (bs : List UInt8) : ℕ → ℕ → Except Access ℕ
  | 0, _ => .error .endless
  | rounds + 1, j =>
    if j + 2 < bs.length then do
      let found ← startsAt bs j
      if found then return j
      else nextStartCode bs rounds (j + 1)
    else .ok j

/-- The bytes from `i` to `j`, if they are a NAL unit of the type. -/
def takeIf (target : UInt8) (bs : List UInt8) (i j : ℕ) : Except Access (Option ParsedNalu) :=
  if j ≤ i then .ok none
  else do
    let header ← byteAt bs i
    if header &&& kNaluTypeMask ≠ target then return none
    else do
      let data ← Checked.readRange (.byte j) bs i (j - i)
      let short ← isByte bs 2 1
      return some ⟨header &&& kNaluTypeMask, data, if short then 3 else 4⟩

/-- The walk to the first NAL unit of a type. -/
def findIn (target : UInt8) : ℕ → List UInt8 → Except Access (Option ParsedNalu)
  | 0, _ => .error .endless
  | rounds + 1, bs =>
    if bs = [] then .ok none
    else do
      match ← skipStartCode bs with
      | none => return none
      | some i =>
        let j ← nextStartCode bs (bs.length + 1) i
        match ← takeIf target bs i j with
        | some out => return some out
        | none => findIn target rounds (bs.drop j)

/-- `find_pps_in` looks for the end of the NAL unit twice. -/
def findPpsIn : ℕ → List UInt8 → Except Access (Option ParsedNalu)
  | 0, _ => .error .endless
  | rounds + 1, bs =>
    if bs = [] then .ok none
    else do
      match ← skipStartCode bs with
      | none => return none
      | some i =>
        let j ← nextStartCode bs (bs.length + 1) i
        let jEnd ← nextStartCode bs (bs.length + 1) j
        match ← takeIf kPPS bs i jEnd with
        | some out => return some out
        | none => if bs.length ≤ j then return none else findPpsIn rounds (bs.drop j)

/-- The loop of `contains_idr_slice`, over what is left. -/
def containsIdrSlice : ℕ → List UInt8 → Except Access Bool
  | 0, _ => .error .endless
  | rounds + 1, bs =>
    if bs = [] then .ok false
    else do
      match ← skipStartCode bs with
      | none => return false
      | some i =>
        let header ← byteAt bs i
        if header &&& kNaluTypeMask = kSliceIDR then return true
        else do
          let j ← nextStartCode bs (bs.length + 1) (i + 1)
          if bs.length ≤ j then return false else containsIdrSlice rounds (bs.drop j)

end HwBackend

def findSpsIn (bs : List UInt8) : Except Access (Option ParsedNalu) :=
  HwBackend.findIn kSPS (bs.length + 1) bs

def findPpsIn (bs : List UInt8) : Except Access (Option ParsedNalu) :=
  HwBackend.findPpsIn (bs.length + 1) bs

def containsIdrSlice (bs : List UInt8) : Except Access Bool :=
  HwBackend.containsIdrSlice (bs.length + 1) bs

/-! ### Streams -/

/-- A NAL unit in which no start code can be mistaken, with the one that it is sent with. -/
structure NalUnit where
  longCode : Bool
  data : List UInt8
  data_ne : data ≠ []
  no_zeros : ¬ [0, 0, 0] <:+: data
  no_code : ¬ [0, 0, 1] <:+: data
  last_ne : data.getLast data_ne ≠ 0

namespace NalUnit

/-- The start code of a unit. -/
def code (u : NalUnit) : List UInt8 := if u.longCode then [0, 0, 0, 1] else [0, 0, 1]

/-- The first byte of a unit. -/
def header (u : NalUnit) : UInt8 := u.data.head u.data_ne

def type (u : NalUnit) : UInt8 := u.header &&& kNaluTypeMask

/-- What a scanner is to make of a unit. -/
def parsed (u : NalUnit) : ParsedNalu := ⟨u.type, u.data, u.code.length⟩

end NalUnit

/-- The units one after the other, each behind its start code. -/
def stream (us : List NalUnit) : List UInt8 := us.flatMap fun u => u.code ++ u.data

/-- The loop of `build_annex_b`, which writes long start codes and leaves empty units out. -/
def appendNalus (outputCapacity : ℕ) : List (List UInt8) → List UInt8 → Option (List UInt8)
  | [], output => some output
  | n :: ns, output =>
    if n = [] then appendNalus outputCapacity ns output
    else if outputCapacity < output.length + 4 + n.length then none
    else appendNalus outputCapacity ns (output ++ ([0, 0, 0, 1] ++ n))

/-- `build_annex_b`, which gives nothing if the output is too small. -/
def buildAnnexB (naluDatas : List (List UInt8)) (outputCapacity : ℕ) : Option (List UInt8) :=
  if naluDatas = [] then none else appendNalus outputCapacity naluDatas []

end AnnexB

end NimRtc
