import NimRtc.DtlsReassembly
import NimRtc.Lib.Checked

/-!
# The accesses of the reassembler

`try_reassemble` with its reads of the record and of the handshake payload, and with its copies into
the body, the bitmap and the record that is put together. The vectors are only as long as they were
made, so what a buffer carries of its sizes is not used here. Sums of 24-bit numbers do not wrap around
in 32 bits.
-/

namespace NimRtc

namespace ReassemblyMemory

/-- A read or a write outside the record, the payload, the buffer or the record that is made. -/
inductive Access
  | record (i : ℕ)
  | payload (i : ℕ)
  | body (off len : ℕ)
  | received (i : ℕ)
  | out (i : ℕ)
  deriving DecidableEq, Repr

/-- `FragmentBuf` without what is known of its lengths. -/
structure RawBuf where
  msgType : UInt8
  msgSeq : UInt16
  totalLength : ℕ
  body : List UInt8
  received : List Bool
  epoch : UInt16
  firstSeq : ℕ
  lastSeen : ℕ
  deriving DecidableEq, Repr

/-- The buffers, by the number of their message. -/
abbrev Bufs := UInt16 → Option RawBuf

/-- What a datagram is to the reassembler, the record that is made being bytes. -/
inductive Result
  | passThrough
  | fragmentBuffered
  | reassembled (out : List UInt8)
  deriving DecidableEq, Repr

/-- A byte that must be there. -/
def byteAt (bytes : List UInt8) (fault : ℕ → Access) (i : ℕ) : Except Access UInt8 :=
  Checked.get (fault i) bytes i

section Payload

variable (payload : List UInt8)

/-- The header of a handshake fragment, byte by byte. -/
def parseHeader : Except Access HandshakeHeader := do
  let msgType ← byteAt payload .payload 0
  let msgLen ← Checked.readBe .payload payload 3 1 0
  let msgSeq ← Checked.readBe .payload payload 2 4 0
  let fragOff ← Checked.readBe .payload payload 3 6 0
  let fragLen ← Checked.readBe .payload payload 3 9 0
  return { msgType, msgLen, msgSeq := UInt16.ofNat msgSeq, fragOff, fragLen }

/-- The message is not fragmented, or a check of its header fails. -/
def passesThrough (h : HandshakeHeader) : Bool :=
  (h.fragOff = 0 && h.fragLen = h.msgLen && payload.length = 12 + h.msgLen)
    || h.msgLen = 0 || 16384 < h.msgLen || h.msgLen ≤ h.fragOff || h.msgLen < h.fragLen
    || h.msgLen < h.fragOff + h.fragLen || payload.length < 12 + h.fragLen

/-- The buffer that the fragment goes to, if it is taken. -/
def bufferFor (bufs : Bufs) (h : HandshakeHeader) (epoch : UInt16) (seq now : ℕ) : Option RawBuf :=
  match bufs h.msgSeq with
  | none =>
    if payload.length ≠ 12 + h.fragLen then none
    else
      some {
        msgType := h.msgType
        msgSeq := h.msgSeq
        totalLength := h.msgLen
        body := List.replicate h.msgLen 0
        received := List.replicate h.msgLen false
        epoch
        firstSeq := seq
        lastSeen := now }
  | some buf =>
    if buf.msgType ≠ h.msgType ∨ buf.totalLength ≠ h.msgLen ∨ buf.epoch ≠ epoch then none
    else some { buf with lastSeen := now }

/-- The bytes of a fragment go to their place, and are marked. -/
def copyIn (buf : RawBuf) (h : HandshakeHeader) : Except Access RawBuf := do
  let data ← Checked.readRange (.payload (12 + h.fragLen)) payload 12 h.fragLen
  let body ← Checked.writeRange (.body h.fragOff h.fragLen) buf.body h.fragOff data
  let received ←
    Checked.writeAll .received (List.replicate h.fragLen true) h.fragOff buf.received
  return { buf with body, received }

end Payload

/-- The 25 bytes in front of the body. -/
def headerBytes (buf : RawBuf) (v0 v1 : UInt8) : List UInt8 :=
  [22, v0, v1] ++ beBytes 2 buf.epoch.toNat ++ beBytes 6 (buf.firstSeq + 1)
    ++ beBytes 2 (12 + buf.totalLength) ++ [buf.msgType] ++ beBytes 3 buf.totalLength
    ++ beBytes 2 buf.msgSeq.toNat ++ [0, 0, 0] ++ beBytes 3 buf.totalLength

/-- The record that is made of a whole message. -/
def synthesise (record : List UInt8) (buf : RawBuf) : Except Access (List UInt8) := do
  let out := List.replicate (13 + 12 + buf.totalLength) 0
  let v0 ← byteAt record .record 1
  let v1 ← byteAt record .record 2
  let out ← Checked.writeAll .out (headerBytes buf v0 v1) 0 out
  let body ← Checked.readRange (.body 0 buf.totalLength) buf.body 0 buf.totalLength
  Checked.writeRange (.out 25) out 25 body

/-- A record whose header is parsed. -/
def takeRecord (bufs : Bufs) (record payload : List UInt8) (epoch : UInt16) (seq now : ℕ) :
    Except Access (Bufs × Result) :=
  if payload.length < 12 then .ok (bufs, .passThrough)
  else do
    let h ← parseHeader payload
    if passesThrough payload h then .ok (bufs, .passThrough)
    else
      match bufferFor payload bufs h epoch seq now with
      | none => .ok (bufs, .passThrough)
      | some buf => do
        let buf ← copyIn payload buf h
        if !buf.received.all id then
          .ok (Function.update bufs h.msgSeq (some buf), .fragmentBuffered)
        else do
          let out ← synthesise record buf
          .ok (Function.update bufs h.msgSeq none, .reassembled out)

/-- `try_reassemble`, with each access checked. -/
def tryReassemble (bufs : Bufs) (now : ℕ) (record : List UInt8) : Except Access (Bufs × Result) :=
  if record.length < 13 then .ok (bufs, .passThrough)
  else do
    let contentType ← byteAt record .record 0
    if contentType ≠ 22 then .ok (bufs, .passThrough)
    else do
      let epoch ← Checked.readBe .record record 2 3 0
      let seq ← Checked.readBe .record record 6 5 0
      let recLen ← Checked.readBe .record record 2 11 0
      if record.length < 13 + recLen then .ok (bufs, .passThrough)
      else do
        let payload ← Checked.readRange (.record (13 + recLen)) record 13 recLen
        takeRecord bufs record payload (UInt16.ofNat epoch) seq now

/-! ### What is kept of the sizes -/

/-- A buffer of the other model. -/
def RawBuf.of (b : FragmentBuf) : RawBuf where
  msgType := b.msgType
  msgSeq := b.msgSeq
  totalLength := b.totalLength
  body := b.body
  received := b.received
  epoch := b.epoch
  firstSeq := b.firstSeq
  lastSeen := b.lastSeen

/-- The buffers of the other model. -/
def bufsOf (s : DtlsHandshakeReassembler) : Bufs := fun k => (s.bufs k).map .of

/-- The result of the other model. -/
def Result.of : ReassemblyResult → Result
  | .passThrough => .passThrough
  | .fragmentBuffered => .fragmentBuffered
  | .reassembled out => .reassembled out.encode

end ReassemblyMemory

end NimRtc
