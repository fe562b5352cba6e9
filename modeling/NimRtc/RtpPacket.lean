import NimRtc.Lib.Bytes

/-!
# RTP packets

`PacketBuilder` of `builder.cpp`, `Parser::parse` of `parser.cpp` and the two ways in which
`parser.cpp` reads the elements of a header extension: `find_extension_element`, and the walkers that
`parse` uses for the declared URIs. The readers note the indices of the block they read, and `past`
is the byte that happens to be in memory after the packet.
-/

namespace NimRtc.Rtp

/-- The error codes this part of the code returns. -/
inductive ErrorCode
  | invalidArgument
  | notFound
  | protocolError
  deriving DecidableEq, Repr

/-- `nimrtc::Error`: a code and its text. -/
structure RtpError where
  code : ErrorCode
  message : String
  deriving DecidableEq, Repr

def kVersion : UInt8 := 2

def kFixedHeaderSize : ℕ := 12

def kExtProfileOneByte : UInt16 := 0xBEDE

def kExtProfileTwoByte : UInt16 := 0x1000

def kExtProfileOneByteMaxId : UInt16 := 14

/-- `Extension`: the profile and the bytes of its block. -/
structure Extension where
  type : UInt16
  data : List UInt8
  deriving DecidableEq, Repr

/-- What `Parser::parse` returns of a packet. -/
structure PacketView where
  payload : List UInt8
  ssrc : UInt32
  seq : UInt16
  timestamp : UInt32
  payloadType : UInt8
  marker : Bool
  csrc : List UInt32
  extension : Option Extension
  extmapUri : UInt16 → Option String

/-! ### Building -/

/-- The setters of one kind of extension clear the other. -/
structure PacketBuilder where
  ssrc : UInt32 := 0
  seq : UInt16 := 0
  timestamp : UInt32 := 0
  payloadType : UInt8 := 0
  marker : Bool := false
  csrc : List UInt32 := []
  extension : Option Extension := none
  absSendTime : Option UInt32 := none
  absSendTimeId : UInt16 := 1
  payload : List UInt8 := []
  paddingBytes : ℕ := 0
  one_extension : extension = none ∨ absSendTime = none := by decide

namespace PacketBuilder

theorem noExtension : (none : Option Extension) = none ∨ (none : Option UInt32) = none := .inl rfl

/-- `set_extension`: the explicit block replaces a pending abs-send-time. -/
def setExtension (b : PacketBuilder) (type : UInt16) (data : List UInt8) : PacketBuilder :=
  { b with
    extension := some { type, data }
    absSendTime := none
    absSendTimeId := 1
    one_extension := .inr rfl }

/-- `set_abs_send_time`: id 0 is taken as 1, and an explicit block is dropped. -/
def setAbsSendTime (b : PacketBuilder) (t : UInt32) (id : UInt16 := 1) : PacketBuilder :=
  { b with
    absSendTime := some t
    absSendTimeId := if id = 0 then 1 else id
    extension := none
    one_extension := .inl rfl }

/-- `clear_extension` -/
def clearExtension (b : PacketBuilder) : PacketBuilder :=
  { b with
    extension := none
    absSendTime := none
    absSendTimeId := 1
    one_extension := .inl rfl }

/-- The calls that say which extension a packet has. -/
inductive ExtensionCall
  | setExtension (type : UInt16) (data : List UInt8)
  | setAbsSendTime (t : UInt32) (id : UInt16)
  | clearExtension
  deriving DecidableEq, Repr

/-- What one extension call does to the builder. -/
def extend (b : PacketBuilder) : ExtensionCall → PacketBuilder
  | .setExtension type data => b.setExtension type data
  | .setAbsSendTime t id => b.setAbsSendTime t id
  | .clearExtension => b.clearExtension

/-- Whether the X bit is set. -/
def hasExtension (b : PacketBuilder) : Bool := b.extension.isSome || b.absSendTime.isSome

/-- `PacketBuilder::compute_size` -/
def computeSize (b : PacketBuilder) : ℕ :=
  let ext :=
    if b.hasExtension then
      let dataBytes :=
        match b.extension with
        | some ext => ext.data.length
        | none => if b.absSendTimeId ≤ kExtProfileOneByteMaxId then 4 else 5
      4 + (dataBytes + 3) / 4 * 4
    else 0
  kFixedHeaderSize + b.csrc.length * 4 + ext + b.payload.length
    + if 0 < b.paddingBytes then b.paddingBytes + 1 else 0

/-- Version, P bit, X bit and CSRC count. -/
def byte0 (b : PacketBuilder) : UInt8 :=
  kVersion <<< 6 ||| (if 0 < b.paddingBytes then 0x20 else 0)
    ||| (if b.hasExtension then 0x10 else 0) ||| (UInt8.ofNat b.csrc.length &&& 0x0F)

/-- Marker and payload type. -/
def byte1 (b : PacketBuilder) : UInt8 :=
  (if b.marker then 0x80 else 0x00) ||| (b.payloadType &&& 0x7F)

/-- The fixed header of 12 bytes. -/
def headerBytes (b : PacketBuilder) : List UInt8 :=
  [b.byte0, b.byte1] ++ beBytes 2 b.seq.toNat ++ beBytes 4 b.timestamp.toNat
    ++ beBytes 4 b.ssrc.toNat

/-- The CSRC list, four bytes each. -/
def csrcBytes (csrc : List UInt32) : List UInt8 := csrc.flatMap fun c => beBytes 4 c.toNat

/-- The extension header and block; abs-send-time takes the form its id fits. -/
def extensionBytes (b : PacketBuilder) : List UInt8 :=
  match b.absSendTime, b.extension with
  | some t, _ =>
    let ts24 := (t &&& 0x00FFFFFF).toNat
    if b.absSendTimeId ≤ kExtProfileOneByteMaxId then
      beBytes 2 kExtProfileOneByte.toNat ++ beBytes 2 1
        ++ (UInt8.ofNat (b.absSendTimeId.toUInt32 <<< 4 ||| 0x02).toNat :: beBytes 3 ts24)
    else
      beBytes 2 kExtProfileTwoByte.toNat ++ beBytes 2 2
        ++ (b.absSendTimeId.toUInt8 :: 3 :: beBytes 3 ts24) ++ [0, 0, 0]
  | none, some ext =>
    -- the buffer is zero where nothing is copied
    let extWords := (ext.data.length + 3) / 4
    beBytes 2 ext.type.toNat ++ beBytes 2 (extWords % 2 ^ 16) ++ ext.data
      ++ List.replicate (extWords * 4 - ext.data.length) 0
  | none, none => []

/-- Zeros and then the count byte, one byte more than `padding_bytes_`. -/
def paddingRegion (b : PacketBuilder) : List UInt8 :=
  if 0 < b.paddingBytes then List.replicate b.paddingBytes 0 ++ [UInt8.ofNat b.paddingBytes] else []

/-- All the bytes `build` writes. -/
def written (b : PacketBuilder) : List UInt8 :=
  b.headerBytes ++ csrcBytes b.csrc ++ b.extensionBytes ++ b.payload ++ b.paddingRegion

/-- The buffer has `compute_size()` bytes, and there is none when more than that is written. -/
def build (b : PacketBuilder) : Option (List UInt8) :=
  if b.written.length ≤ b.computeSize then
    some (b.written ++ List.replicate (b.computeSize - b.written.length) 0)
  else none

end PacketBuilder

/-! ### Extension elements -/

/-- What a reader found, and the indices it read. -/
structure Found where
  result : Except RtpError (List UInt8)
  reads : List ℕ := []

/-- The error of an element that runs past its block. -/
def elementTruncated (form : String) (off : ℕ) : RtpError :=
  ⟨.protocolError, form ++ " extension element truncated at offset " ++ toString off⟩

/-- The error of an id that no element carries. -/
def elementNotPresent (id : UInt16) : RtpError :=
  ⟨.notFound, "extension id " ++ toString id ++ " not present in block"⟩

/-- The walk over one-byte elements, with the positions it read. -/
def findOneByte (block : List UInt8) (id : UInt16) : ℕ → ℕ → List ℕ → Found
  | 0, _, reads => ⟨.error (elementNotPresent id), reads⟩
  | fuel + 1, off, reads =>
    if off < block.length then
      let hdr := block.getD off 0
      let elemId := (hdr >>> 4).toUInt16
      let len := (hdr &&& 0x0F).toNat + 1
      let reads := reads ++ [off]
      if block.length < off + 1 + len then ⟨.error (elementTruncated "one-byte" off), reads⟩
      else if elemId = id ∧ id ≠ 0 then ⟨.ok ((block.drop (off + 1)).take len), reads⟩
      else findOneByte block id fuel (off + 1 + len) reads
    else ⟨.error (elementNotPresent id), reads⟩

/-- The walk over two-byte elements, with the positions it read. -/
def findTwoByte (block : List UInt8) (id : UInt16) : ℕ → ℕ → List ℕ → Found
  | 0, _, reads => ⟨.error (elementNotPresent id), reads⟩
  | fuel + 1, off, reads =>
    if off + 1 < block.length then
      let elemId := (block.getD off 0).toUInt16
      let len := (block.getD (off + 1) 0).toNat
      let reads := reads ++ [off, off + 1]
      if block.length < off + 2 + len then ⟨.error (elementTruncated "two-byte" off), reads⟩
      else if elemId = id ∧ id ≠ 0 then ⟨.ok ((block.drop (off + 2)).take len), reads⟩
      else findTwoByte block id fuel (off + 2 + len) reads
    else ⟨.error (elementNotPresent id), reads⟩

/-- `find_extension_element`. An element has at least one byte. -/
def locateExtensionElement (extBlock : List UInt8) (profile id : UInt16) : Found :=
  if extBlock = [] then ⟨.error ⟨.invalidArgument, "extension block is empty"⟩, []⟩
  else if profile = kExtProfileOneByte then findOneByte extBlock id extBlock.length 0 []
  else if profile = kExtProfileTwoByte then findTwoByte extBlock id extBlock.length 0 []
  else
    ⟨.error ⟨.protocolError, "unknown header-extension profile 0x" ++ toString profile⟩, []⟩

/-- `find_extension_element` -/
def findExtensionElement (extBlock : List UInt8) (profile id : UInt16) :
    Except RtpError (List UInt8) := (locateExtensionElement extBlock profile id).result

/-- An RFC 8285 block in the one-byte form: elements of one to sixteen bytes, with padding bytes
before, between and after them. -/
inductive OneByteBlock : List UInt8 → Prop
  | nil : OneByteBlock []
  | padding {rest : List UInt8} : OneByteBlock rest → OneByteBlock (0 :: rest)
  | element {hdr : UInt8} {data rest : List UInt8} : (1 : UInt8) ≤ hdr >>> 4 →
      hdr >>> 4 ≤ (14 : UInt8) → data.length = (hdr &&& 0x0F).toNat + 1 → OneByteBlock rest →
      OneByteBlock (hdr :: (data ++ rest))

/-- An RFC 8285 block in the two-byte form. -/
inductive TwoByteBlock : List UInt8 → Prop
  | nil : TwoByteBlock []
  | padding {rest : List UInt8} : TwoByteBlock rest → TwoByteBlock (0 :: rest)
  | element {id len : UInt8} {data rest : List UInt8} : id ≠ 0 → data.length = len.toNat →
      TwoByteBlock rest → TwoByteBlock (id :: len :: (data ++ rest))

/-- The block is a list of elements and padding in the form its profile names. -/
def Extension.WellFormed (ext : Extension) : Prop :=
  (ext.type = kExtProfileOneByte ∧ OneByteBlock ext.data)
    ∨ (ext.type = kExtProfileTwoByte ∧ TwoByteBlock ext.data)

/-! ### Parsing -/

/-- `Parser`: the URIs declared for extension ids, latest first. -/
structure Parser where
  extensionUris : List (UInt16 × String) := []

/-- The URIs that a walker has set, and the indices it read. -/
structure Walk where
  uris : UInt16 → Option String := fun _ => none
  reads : List ℕ := []

namespace Parser

/-- `declare_extension_uri` -/
def declareExtensionUri (p : Parser) (type : UInt16) (uri : String) : Parser :=
  { p with extensionUris := (type, uri) :: p.extensionUris.filter fun e => e.1 ≠ type }

/-- `declared_extension_uri` -/
def declaredExtensionUri (p : Parser) (type : UInt16) : Option String :=
  p.extensionUris.lookup type

/-- The walk's note of the URI declared for `id`, if there is one. -/
def setUri (p : Parser) (w : Walk) (id : UInt16) : Walk :=
  match p.declaredExtensionUri id with
  | some uri => { w with uris := Function.update w.uris id (some uri) }
  | none => w

/-- The one-byte walk of `Parser::parse` from position `i`. -/
def walkOneByteFrom (p : Parser) (block : List UInt8) : ℕ → ℕ → Walk → Walk
  | 0, _, w => w
  | fuel + 1, i, w =>
    if block.length < i + 1 then w
    else
      let hdr := block.getD i 0
      let w := { w with reads := w.reads ++ [i] }
      if hdr = 0x00 then w
      else
        let id := (hdr >>> 4) &&& 0x0F
        let len := (hdr &&& 0x0F).toNat
        let i := i + 1
        if id < 1 ∨ 14 < id then w
        else if block.length < i + len then w
        else walkOneByteFrom p block fuel (i + len) (p.setUri w id.toUInt16)

/-- The one-byte walk over the whole block. -/
def walkOneByte (p : Parser) (block : List UInt8) : Walk :=
  p.walkOneByteFrom block block.length 0 {}

/-- The loop looks at two bytes of the block and reads a third. -/
def walkTwoByteFrom (p : Parser) (past : UInt8) (block : List UInt8) : ℕ → ℕ → Walk → Walk
  | 0, _, w => w
  | fuel + 1, i, w =>
    if block.length < i + 2 then w
    else
      let id := block.getD (i + 1) 0
      let w := { w with reads := w.reads ++ [i + 1] }
      if id = 0 then w
      else
        let len := (block.getD (i + 2) past).toNat
        let w := { w with reads := w.reads ++ [i + 2] }
        if block.length < i + 3 + len then w
        else walkTwoByteFrom p past block fuel (i + 3 + len) (p.setUri w id.toUInt16)

/-- The two-byte walk over the whole block. -/
def walkTwoByte (p : Parser) (past : UInt8) (block : List UInt8) : Walk :=
  p.walkTwoByteFrom past block block.length 0 {}

/-- The walk that `parse` makes over an extension. -/
def walk (p : Parser) (past : UInt8) (ext : Extension) : Walk :=
  if p.extensionUris = [] then {}
  else if ext.type = kExtProfileOneByte then p.walkOneByte ext.data
  else if ext.type = kExtProfileTwoByte then p.walkTwoByte past ext.data
  else {}

/-- No byte can be taken for the header of a declared element. In the one-byte form these are the
bytes from the last one of the first element on, which may have the id of that element again. In the
two-byte form no byte is a declared id, and the last one is zero. -/
def Unmistakable (p : Parser) (ext : Extension) : Prop :=
  if ext.type = kExtProfileOneByte then
    ∀ b ∈ ext.data.drop (1 + (ext.data.headD 0 &&& 0x0F).toNat),
      (p.declaredExtensionUri (b >>> 4).toUInt16).isSome → b >>> 4 = ext.data.headD 0 >>> 4
  else
    (∀ b ∈ ext.data, p.declaredExtensionUri b.toUInt16 = none) ∧ ext.data.getLastD 0 = 0

end Parser

/-- Two bytes at `off`, big-endian. -/
def readBe16 (raw : List UInt8) (off : ℕ) : UInt16 :=
  UInt16.ofNat (beNat ((raw.drop off).take 2))

/-- Four bytes at `off`, big-endian. -/
def readBe32 (raw : List UInt8) (off : ℕ) : UInt32 :=
  UInt32.ofNat (beNat ((raw.drop off).take 4))

/-- A parse error with its text. -/
def protocolError (message : String) : RtpError := ⟨.protocolError, message⟩

/-- The extension of a packet and the bytes it takes. -/
def parseExtension (raw : List UInt8) (hasExtension : Bool) (headerSize : ℕ) :
    Except RtpError (Option Extension × ℕ) :=
  if !hasExtension then .ok (none, 0)
  else if raw.length < headerSize + 4 then
    .error (protocolError "RTP packet too small for extension header")
  else
    let extLength := (readBe16 raw (headerSize + 2)).toNat
    let extTotal := 4 + extLength * 4
    if raw.length < headerSize + extTotal then
      .error (protocolError "RTP extension data truncated")
    else
      let type := readBe16 raw headerSize
      .ok (some { type, data := (raw.drop (headerSize + 4)).take (extLength * 4) }, extTotal)

/-- The bytes that padding takes at the end. -/
def paddingTrailer (raw : List UInt8) (hasPadding : Bool) (payloadStart : ℕ) : Except RtpError ℕ :=
  if hasPadding ∧ payloadStart < raw.length then
    let paddingCount := (raw.getD (raw.length - 1) 0).toNat
    if paddingCount = 0 ∨ raw.length - payloadStart < paddingCount + 1 then
      .error (protocolError ("RTP padding count invalid: " ++ toString paddingCount))
    else .ok (paddingCount + 1)
  else .ok 0

/-- `Parser::parse`; `past` is the byte after the buffer that an overlong walk reads. -/
def Parser.parse (p : Parser) (past : UInt8) (raw : List UInt8) : Except RtpError PacketView :=
  if raw.length < kFixedHeaderSize then
    .error (protocolError ("RTP packet too small: " ++ toString raw.length ++ " < 12 bytes"))
  else
    let first := raw.getD 0 0
    let version := (first >>> 6) &&& 0x03
    let hasPadding : Bool := (first >>> 5) &&& 0x01 ≠ 0
    let hasExtension : Bool := (first >>> 4) &&& 0x01 ≠ 0
    let csrcCount := (first &&& 0x0F).toNat
    if version ≠ kVersion then
      .error (protocolError ("RTP version mismatch: expected 2, got " ++ toString version))
    else
      let second := raw.getD 1 0
      let headerSize := kFixedHeaderSize + csrcCount * 4
      if raw.length < headerSize then
        .error (protocolError ("RTP packet too small for CSRC count " ++ toString csrcCount))
      else do
        let (extension, extSize) ← parseExtension raw hasExtension headerSize
        let payloadStart := headerSize + extSize
        let trailer ← paddingTrailer raw hasPadding payloadStart
        return {
          payload := (raw.drop payloadStart).take (raw.length - payloadStart - trailer)
          ssrc := readBe32 raw 8
          seq := readBe16 raw 2
          timestamp := readBe32 raw 4
          payloadType := second &&& 0x7F
          marker := (second >>> 7) &&& 0x01 ≠ 0
          csrc := (List.range csrcCount).map fun i => readBe32 raw (kFixedHeaderSize + i * 4)
          extension
          extmapUri :=
            match extension with
            | some ext => (p.walk ((raw.drop payloadStart).headD past) ext).uris
            | none => fun _ => none }

end NimRtc.Rtp
