import NimRtc.Lib.InputStream

/-!
# ICE candidates

`parse_candidate` and `Candidate::to_sdp` of `ice.cpp`. A character stands for a byte. The numbers are
read by a stream, which stops at the first one that it cannot read.
-/

namespace NimRtc

namespace Ice

/-- The characters of a string. -/
abbrev Text := List Char

/-- The types of a candidate. -/
inductive CandidateType
  | host
  | srflx
  | prflx
  | relay
  deriving DecidableEq, Repr

/-- The name of a type. -/
def CandidateType.text : CandidateType → Text
  | .host => "host".toList
  | .srflx => "srflx".toList
  | .prflx => "prflx".toList
  | .relay => "relay".toList

/-- A candidate, as `parse_candidate` fills it in. -/
structure Candidate where
  type : CandidateType := .host
  foundation : Text := []
  componentId : UInt8 := 0
  transport : Text := []
  priority : UInt32 := 0
  host : Text := []
  port : UInt16 := 0
  relatedAddress : Text := []
  relatedPort : UInt16 := 0
  deriving DecidableEq, Repr

/-- The two ways a candidate may begin. -/
def kPrefixA : Text := "a=candidate:".toList

def kPrefix : Text := "candidate:".toList

/-- What follows the prefix of a candidate line. -/
def afterPrefix (sdp : Text) : Option Text :=
  if kPrefixA.isPrefixOf sdp then some (sdp.drop kPrefixA.length)
  else if kPrefix.isPrefixOf sdp then some (sdp.drop kPrefix.length)
  else none

/-- The type with a name. -/
def typeOf (typeStr : Text) : Option CandidateType :=
  [CandidateType.host, .srflx, .prflx, .relay].find? fun type => type.text = typeStr

/-- The related address and port, if the next word announces them. -/
def readRelated (c : Candidate) (iss : InputStream) (tok : Text) : Candidate :=
  let (iss, tok) := iss.readWord tok
  if !iss.failed && tok = "raddr".toList then
    let (iss, relatedAddress) := iss.readWord c.relatedAddress
    let (iss, _) := iss.readWord tok
    let (_, relatedPort) := iss.readUnsigned 16 c.relatedPort.toNat
    { c with relatedAddress, relatedPort := UInt16.ofNat relatedPort }
  else c

/-- `parse_candidate` -/
def parseCandidate (sdp : Text) : Option Candidate :=
  match afterPrefix sdp with
  | none => none
  | some sdp =>
    let iss : InputStream := { rest := sdp }
    let (iss, foundation) := iss.readWord []
    let (iss, tmpComponentId) := iss.readUnsigned 32 0
    let (iss, transport) := iss.readWord []
    let (iss, priority) := iss.readUnsigned 32 0
    let (iss, host) := iss.readWord []
    let (iss, port) := iss.readUnsigned 16 0
    let (iss, tok) := iss.readWord []
    let (iss, typeStr) := iss.readWord []
    match typeOf typeStr with
    | none => none
    | some type =>
      some (readRelated
        { type, foundation, componentId := UInt8.ofNat tmpComponentId, transport,
          priority := UInt32.ofNat priority, host, port := UInt16.ofNat port } iss tok)

/-- A number in decimal digits. -/
def number (n : ℕ) : Text := Nat.toDigits 10 n

namespace Candidate

/-- `Candidate::to_sdp` -/
def toSdp (c : Candidate) : Text :=
  kPrefix ++ c.foundation ++ ' ' :: number c.componentId.toNat ++ ' ' :: c.transport
    ++ ' ' :: number c.priority.toNat ++ ' ' :: c.host ++ ' ' :: number c.port.toNat
    ++ " typ ".toList ++ c.type.text
    ++ if c.relatedAddress = [] then []
      else " raddr ".toList ++ c.relatedAddress ++ " rport ".toList ++ number c.relatedPort.toNat

/-- The words are words, and there is no related port without an address. -/
structure WellFormed (c : Candidate) : Prop where
  foundation : InputStream.IsWord c.foundation
  transport : InputStream.IsWord c.transport
  host : InputStream.IsWord c.host
  related : c.relatedAddress = [] ∧ c.relatedPort = 0 ∨ InputStream.IsWord c.relatedAddress

end Candidate

/-! ### The numbers of a candidate line -/

/-- The numbers in the text of a candidate. -/
structure Numbers where
  componentId : ℤ
  priority : ℤ
  port : ℤ
  relatedPort : Option ℤ
  deriving DecidableEq, Repr

open InputStream (word integer)

/-- The number that is given as the related port. -/
def relatedPortIn (s : Text) : Option ℤ := do
  let (tok, s) ← word s
  if tok = "raddr".toList then
    let (_, s) ← word s
    let (_, s) ← word s
    let (n, _) ← integer s
    return n
  else none

/-- The decimal numbers of a candidate line, of any size. -/
def numbersIn (sdp : Text) : Option Numbers := do
  let s ← afterPrefix sdp
  let (_, s) ← word s
  let (componentId, s) ← integer s
  let (_, s) ← word s
  let (priority, s) ← integer s
  let (_, s) ← word s
  let (port, s) ← integer s
  let (_, s) ← word s
  let (_, s) ← word s
  return { componentId, priority, port, relatedPort := relatedPortIn s }

/-- The fields are the numbers of the text, and a related port that is not there is zero. -/
structure Candidate.Exact (c : Candidate) (n : Numbers) : Prop where
  componentId : (c.componentId.toNat : ℤ) = n.componentId
  priority : (c.priority.toNat : ℤ) = n.priority
  port : (c.port.toNat : ℤ) = n.port
  relatedPort : (c.relatedPort.toNat : ℤ) = n.relatedPort.getD 0

/-- The numbers are of the size that their fields have. -/
structure Numbers.Fit (n : Numbers) : Prop where
  componentId : 0 ≤ n.componentId ∧ n.componentId < 2 ^ 8
  priority : 0 ≤ n.priority ∧ n.priority < 2 ^ 32
  port : 0 ≤ n.port ∧ n.port < 2 ^ 16
  relatedPort : ∀ p, n.relatedPort = some p → 0 ≤ p ∧ p < 2 ^ 16

/-- A line that is accepted gives its numbers, and the candidate is read back from its own line. -/
def ReadRight (sdp : Text) : Prop :=
  ∀ c, parseCandidate sdp = some c →
    (∃ n, numbersIn sdp = some n ∧ c.Exact n) ∧ parseCandidate c.toSdp = some c

/-- If the line is accepted, its numbers are of the size that their fields have. -/
def Sized (sdp : Text) : Prop :=
  (parseCandidate sdp).isSome → ∀ n, numbersIn sdp = some n → n.Fit

end Ice

end NimRtc
