import NimRtc.Lib.InputStream

/-!
# Codec parameters of session descriptions

The parsers and builders of `video_sdp_attributes.cpp` for H.264, VP8 and VP9. A character stands
for a byte. Letters are compared in the C locale.
-/

namespace NimRtc

namespace VideoSdp

/-- A text, one character after the other. -/
abbrev Text := List Char

def nul : Char := Char.ofNat 0

/-- `iequals` -/
def iequals (a : Text) (b : String) : Bool := a.map Char.toLower = b.toList.map Char.toLower

/-- `strip` -/
def strip (s : Text) : Text :=
  (s.dropWhile InputStream.isSpace).rdropWhile InputStream.isSpace

/-- A hexadecimal digit. -/
def isHexChar (c : Char) : Bool :=
  ('0' ≤ c && c ≤ '9') || ('a' ≤ c && c ≤ 'f') || ('A' ≤ c && c ≤ 'F')

/-- A character of Base64, the padding included. -/
def isBase64Char (c : Char) : Bool :=
  ('A' ≤ c && c ≤ 'Z') || ('a' ≤ c && c ≤ 'z') || ('0' ≤ c && c ≤ '9') || c == '+' || c == '/'
    || c == '='

/-- The value of a hexadecimal digit. -/
def hexv (c : Char) : Option ℕ :=
  if '0' ≤ c && c ≤ '9' then some (c.toNat - '0'.toNat)
  else if 'a' ≤ c && c ≤ 'f' then some (10 + (c.toNat - 'a'.toNat))
  else if 'A' ≤ c && c ≤ 'F' then some (10 + (c.toNat - 'A'.toNat))
  else none

/-- `url_decode` -/
def urlDecode : Text → Text
  | [] => []
  | [c] => [c]
  | [c, d] => [c, d]
  | c :: hi :: lo :: rest =>
    match (if c = '%' then (hexv hi).bind fun h => (hexv lo).map fun l => h * 16 + l else none) with
    | some code => Char.ofNat code :: urlDecode rest
    | none => c :: urlDecode (hi :: lo :: rest)

/-- One pair, unless there is nothing in it. Without `=` the value is empty. -/
def fmtpPair (pair : Text) : Option (Text × Text) :=
  let pair := strip pair
  if pair = [] then none
  else if '=' ∈ pair then
    some (urlDecode (strip (pair.takeWhile (· ≠ '='))),
      urlDecode (strip (pair.dropWhile (· ≠ '=')).tail))
  else some (urlDecode pair, [])

/-- `split_fmtp_pairs` -/
def splitFmtpPairs (body : Text) : List (Text × Text) := (body.splitOn ';').filterMap fmtpPair

/-- `strtoll` of a buffer that is ended by a NUL, which the value may have as well. -/
def parseIntValue (value : Text) : Option ℤ :=
  if value = [] then none
  else if 32 ≤ value.length then none
  else
    match InputStream.integer value with
    | none => none
    | some (v, rest) =>
      if v < -2 ^ 63 ∨ 2 ^ 63 ≤ v then none
      else if rest.headD nul ≠ nul then none
      else some v

/-- The error of a parser, with its text. -/
structure FmtpError where
  message : String
  deriving DecidableEq, Repr

/-- `PacketizationMode` -/
inductive PacketizationMode
  | singleNal
  | nonInterleaved
  | interleaved
  deriving DecidableEq, Repr

/-- The number a mode is written as. -/
def PacketizationMode.code : PacketizationMode → ℕ
  | .singleNal => 0
  | .nonInterleaved => 1
  | .interleaved => 2

/-- `H264Fmtp` -/
structure H264Fmtp where
  packetizationMode : Option PacketizationMode := none
  profileLevelId : Option Text := none
  spropSps : Option Text := none
  spropPps : Option Text := none
  maxMbps : Option UInt32 := none
  maxFs : Option UInt32 := none
  maxSmbps : Option UInt32 := none
  maxBr : Option UInt32 := none
  maxDpb : Option UInt32 := none
  levelAsymmetryAllowed : Option Bool := none
  deriving DecidableEq, Repr

/-- `Vp8Fmtp` -/
structure Vp8Fmtp where
  maxFr : Option UInt32 := none
  maxFs : Option UInt32 := none
  deriving DecidableEq, Repr

/-- `Vp9Fmtp` -/
structure Vp9Fmtp where
  profileId : Option UInt32 := none
  profileMapping : Option Text := none
  maxFr : Option UInt32 := none
  maxFs : Option UInt32 := none
  maxBr : Option UInt32 := none
  deriving DecidableEq, Repr

/-- `static_cast<std::uint32_t>`. -/
def toUint32 (n : ℤ) : UInt32 := UInt32.ofNat (n % 2 ^ 32).toNat

/-- A parameter that may be any number from 0 on. -/
def parseCount (v : Text) (message : String) : Except FmtpError UInt32 :=
  match parseIntValue v with
  | none => .error ⟨message⟩
  | some n => if n < 0 then .error ⟨message⟩ else .ok (toUint32 n)

/-! ### H.264 -/

/-- The value of packetization-mode. -/
def parsePacketizationMode (v : Text) : Except FmtpError PacketizationMode :=
  match parseIntValue v with
  | none => .error ⟨"h264 packetization-mode: not an integer"⟩
  | some n =>
    if n = 0 then .ok .singleNal
    else if n = 1 then .ok .nonInterleaved
    else if n = 2 then .ok .interleaved
    else .error ⟨"h264 packetization-mode: out of range"⟩

/-- The value of profile-level-id. -/
def parseProfileLevelId (v : Text) : Except FmtpError Text :=
  if v.length ≠ 6 then .error ⟨"h264 profile-level-id: must be 6 hex chars"⟩
  else if v.all isHexChar = false then .error ⟨"h264 profile-level-id: non-hex char"⟩
  else .ok v

/-- A character that the parameter sets may have. -/
def isSpropChar (c : Char) : Bool := isBase64Char c || c = nul

/-- The value of sprop-parameter-sets: what stands before and after the comma. -/
def parseSpropParameterSets (v : Text) : Except FmtpError (Text × Text) :=
  if ',' ∉ v then .error ⟨"h264 sprop-parameter-sets: missing comma"⟩
  else
    let sps := v.takeWhile (· ≠ ',')
    let pps := (v.dropWhile (· ≠ ',')).tail
    if sps.all isSpropChar = false then .error ⟨"h264 sprop-sps: non-base64 char"⟩
    else if pps.all isSpropChar = false then .error ⟨"h264 sprop-pps: non-base64 char"⟩
    else .ok (sps, pps)

/-- The value of level-asymmetry-allowed. -/
def parseLevelAsymmetryAllowed (v : Text) : Except FmtpError Bool :=
  if v = [] || iequals v "1" || iequals v "true" then .ok true
  else if iequals v "0" || iequals v "false" then .ok false
  else .error ⟨"h264 level-asymmetry-allowed: bad value"⟩

/-- One parameter of H.264; a key it does not know is passed over. -/
def parseH264Pair (out : H264Fmtp) (p : Text × Text) : Except FmtpError H264Fmtp :=
  if iequals p.1 "packetization-mode" then do
    return { out with packetizationMode := some (← parsePacketizationMode p.2) }
  else if iequals p.1 "profile-level-id" then do
    return { out with profileLevelId := some (← parseProfileLevelId p.2) }
  else if iequals p.1 "sprop-parameter-sets" then do
    let (sps, pps) ← parseSpropParameterSets p.2
    return { out with spropSps := some sps, spropPps := some pps }
  else if iequals p.1 "max-mbps" then do
    return { out with maxMbps := some (← parseCount p.2 "h264 max-mbps") }
  else if iequals p.1 "max-fs" then do
    return { out with maxFs := some (← parseCount p.2 "h264 max-fs") }
  else if iequals p.1 "max-smbps" then do
    return { out with maxSmbps := some (← parseCount p.2 "h264 max-smbps") }
  else if iequals p.1 "max-br" then do
    return { out with maxBr := some (← parseCount p.2 "h264 max-br") }
  else if iequals p.1 "max-dpb" then do
    return { out with maxDpb := some (← parseCount p.2 "h264 max-dpb") }
  else if iequals p.1 "level-asymmetry-allowed" then do
    return { out with levelAsymmetryAllowed := some (← parseLevelAsymmetryAllowed p.2) }
  else return out

/-- The parameters of H.264, one after the other. -/
def parseH264 (fmtpRaw : Text) : Except FmtpError H264Fmtp :=
  (splitFmtpPairs fmtpRaw).foldlM parseH264Pair {}

/-! ### VP8 and VP9 -/

/-- One parameter of VP8. -/
def parseVp8Pair (out : Vp8Fmtp) (p : Text × Text) : Except FmtpError Vp8Fmtp :=
  if iequals p.1 "max-fr" then do
    return { out with maxFr := some (← parseCount p.2 "vp8 max-fr") }
  else if iequals p.1 "max-fs" then do
    return { out with maxFs := some (← parseCount p.2 "vp8 max-fs") }
  else return out

/-- The parameters of VP8, one after the other. -/
def parseVp8 (fmtpRaw : Text) : Except FmtpError Vp8Fmtp :=
  (splitFmtpPairs fmtpRaw).foldlM parseVp8Pair {}

/-- The value of profile-id. -/
def parseProfileId (v : Text) : Except FmtpError UInt32 :=
  match parseIntValue v with
  | none => .error ⟨"vp9 profile-id"⟩
  | some n => if n < 0 ∨ 3 < n then .error ⟨"vp9 profile-id"⟩ else .ok (toUint32 n)

/-- One parameter of VP9. -/
def parseVp9Pair (out : Vp9Fmtp) (p : Text × Text) : Except FmtpError Vp9Fmtp :=
  if iequals p.1 "profile-id" then do
    return { out with profileId := some (← parseProfileId p.2) }
  else if iequals p.1 "profile-mapping" then return { out with profileMapping := some p.2 }
  else if iequals p.1 "max-fr" then do
    return { out with maxFr := some (← parseCount p.2 "vp9 max-fr") }
  else if iequals p.1 "max-fs" then do
    return { out with maxFs := some (← parseCount p.2 "vp9 max-fs") }
  else if iequals p.1 "max-br" then do
    return { out with maxBr := some (← parseCount p.2 "vp9 max-br") }
  else return out

/-- The parameters of VP9, one after the other. -/
def parseVp9 (fmtpRaw : Text) : Except FmtpError Vp9Fmtp :=
  (splitFmtpPairs fmtpRaw).foldlM parseVp9Pair {}

/-! ### Building -/

/-- A number in decimal. -/
def number (n : ℕ) : Text := Nat.toDigits 10 n

/-- `append_kv` -/
def appendKv (out : Text) (k : String) (v : Text) : Text :=
  (if out ≠ [] ∧ out.getLast? ≠ some ';' then out ++ [';'] else out) ++ k.toList ++ '=' :: v

/-- Appends a parameter that is there. -/
def appendSome (out : Text) (k : String) (v : Option Text) : Text :=
  match v with
  | none => out
  | some v => appendKv out k v

/-- A number that may be there, in decimal. -/
def countText (n : Option UInt32) : Option Text := n.map fun n => number n.toNat

/-- The value of `sprop-parameter-sets`. -/
def spropText (cfg : H264Fmtp) : Option Text :=
  match cfg.spropSps, cfg.spropPps with
  | some sps, some pps => some (sps ++ ',' :: pps)
  | some sps, none => some sps
  | none, _ => none

/-- The a=fmtp value of an H.264 configuration. -/
def buildH264Fmtp (cfg : H264Fmtp) : Text :=
  let out := appendSome [] "packetization-mode" (cfg.packetizationMode.map fun m => number m.code)
  let out := appendSome out "profile-level-id" cfg.profileLevelId
  let out := appendSome out "sprop-parameter-sets" (spropText cfg)
  let out := appendSome out "max-mbps" (countText cfg.maxMbps)
  let out := appendSome out "max-fs" (countText cfg.maxFs)
  let out := appendSome out "max-smbps" (countText cfg.maxSmbps)
  let out := appendSome out "max-br" (countText cfg.maxBr)
  let out := appendSome out "max-dpb" (countText cfg.maxDpb)
  appendSome out "level-asymmetry-allowed" (cfg.levelAsymmetryAllowed.map fun _ => ['1'])

/-- The a=fmtp value of a VP8 configuration. -/
def buildVp8Fmtp (cfg : Vp8Fmtp) : Text :=
  let out := appendSome [] "max-fr" (countText cfg.maxFr)
  appendSome out "max-fs" (countText cfg.maxFs)

/-- The a=fmtp value of a VP9 configuration. -/
def buildVp9Fmtp (cfg : Vp9Fmtp) : Text :=
  let out := appendSome [] "profile-id" (countText cfg.profileId)
  let out := appendSome out "profile-mapping" cfg.profileMapping
  let out := appendSome out "max-fr" (countText cfg.maxFr)
  let out := appendSome out "max-fs" (countText cfg.maxFs)
  appendSome out "max-br" (countText cfg.maxBr)

/-! ### The numbers of a text -/

/-- The value that the last parameter of a name has. -/
def lastValue (key : String) (pairs : List (Text × Text)) : Option Text :=
  (pairs.filter fun p => iequals p.1 key).getLast?.map (·.2)

/-- The number that a whole text is. -/
def decimal (v : Text) : Option ℤ :=
  match InputStream.integer v with
  | some (n, []) => some n
  | _ => none

/-- The numeric parameters, each with the field that it sets. -/
def h264Numbers : List (String × (H264Fmtp → Option ℕ)) :=
  [("packetization-mode", fun cfg => cfg.packetizationMode.map (·.code)),
    ("max-mbps", fun cfg => cfg.maxMbps.map (·.toNat)),
    ("max-fs", fun cfg => cfg.maxFs.map (·.toNat)),
    ("max-smbps", fun cfg => cfg.maxSmbps.map (·.toNat)),
    ("max-br", fun cfg => cfg.maxBr.map (·.toNat)),
    ("max-dpb", fun cfg => cfg.maxDpb.map (·.toNat))]

/-- The keys of VP8 that have a number, with the field each is for. -/
def vp8Numbers : List (String × (Vp8Fmtp → Option ℕ)) :=
  [("max-fr", fun cfg => cfg.maxFr.map (·.toNat)), ("max-fs", fun cfg => cfg.maxFs.map (·.toNat))]

/-- The keys of VP9 that have a number, with the field each is for. -/
def vp9Numbers : List (String × (Vp9Fmtp → Option ℕ)) :=
  [("profile-id", fun cfg => cfg.profileId.map (·.toNat)),
    ("max-fr", fun cfg => cfg.maxFr.map (·.toNat)), ("max-fs", fun cfg => cfg.maxFs.map (·.toNat)),
    ("max-br", fun cfg => cfg.maxBr.map (·.toNat))]

/-- The numeric parameters of a configuration, by name. -/
def H264Fmtp.numbers (cfg : H264Fmtp) : List (String × Option ℕ) :=
  h264Numbers.map fun q => (q.1, q.2 cfg)

/-- The numbers of a VP8 configuration, by key. -/
def Vp8Fmtp.numbers (cfg : Vp8Fmtp) : List (String × Option ℕ) :=
  vp8Numbers.map fun q => (q.1, q.2 cfg)

/-- The numbers of a VP9 configuration, by key. -/
def Vp9Fmtp.numbers (cfg : Vp9Fmtp) : List (String × Option ℕ) :=
  vp9Numbers.map fun q => (q.1, q.2 cfg)

/-- The numbers are those of the text. -/
def ReadsDecimals (fmtpRaw : Text) (numbers : List (String × Option ℕ)) : Prop :=
  ∀ p ∈ numbers, ∀ n, p.2 = some n →
    ∃ v, lastValue p.1 (splitFmtpPairs fmtpRaw) = some v ∧ decimal v = some (n : ℤ)

/-- The values with one of some names have no NUL in them and are below `2 ^ 32`. -/
def Fits (fmtpRaw : Text) (numbers : List (String × Option ℕ)) : Prop :=
  ∀ p ∈ numbers, ∀ v, lastValue p.1 (splitFmtpPairs fmtpRaw) = some v →
    nul ∉ v ∧ ∀ n, parseIntValue v = some n → n < 2 ^ 32

/-- The mapping is read as it is written. -/
def Vp9Fmtp.MappingPlain (cfg : Vp9Fmtp) : Prop :=
  ∀ mapping, cfg.profileMapping = some mapping →
    ';' ∉ mapping ∧ urlDecode (strip mapping) = mapping

end VideoSdp

end NimRtc
