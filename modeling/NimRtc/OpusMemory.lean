import NimRtc.Lib.Checked
import NimRtc.OpusPayload

/-!
# The accesses of `depacketise`

`depacketise` of `opus.cpp` with its reads of the payload, its writes to the views of the caller and
to the table of lengths on the stack, and its subtractions of sizes. A loop takes the number of rounds
it has left, besides the variables of the source.
-/

namespace NimRtc

namespace Opus

namespace Memory

/-- A read or a write outside the payload or one of the arrays. -/
inductive Access
  | payload (i : ℕ)
  | lengths (i : ℕ)
  | views (i : ℕ)
  deriving DecidableEq, Repr

/-- How a call ends without packets. -/
inductive Halt
  /-- 0 is returned. -/
  | rejected
  | outside (a : Access)
  /-- A subtraction wraps around. -/
  | underflow
  deriving DecidableEq, Repr

/-- What is returned, and the views. -/
abbrev Result := ℕ × List PacketView

/-- A byte of the payload. -/
def readByte (payload : List UInt8) (i : ℕ) : Except Halt UInt8 :=
  Checked.get (.outside (.payload i)) payload i

/-- A read of the array of lengths. -/
def lengthAt (lengths : List ℕ) (i : ℕ) : Except Halt ℕ :=
  Checked.get (.outside (.lengths i)) lengths i

/-- A write to the array of lengths. -/
def setLength (lengths : List ℕ) (i n : ℕ) : Except Halt (List ℕ) :=
  Checked.set (.outside (.lengths i)) lengths i n

/-- A write to the array of views. -/
def setView (views : List PacketView) (i : ℕ) (view : PacketView) : Except Halt (List PacketView) :=
  Checked.set (.outside (.views i)) views i view

/-- A subtraction that must not wrap around. -/
def sub (a b : ℕ) : Except Halt ℕ := Checked.sub .underflow a b

/-- `decode_frame_length`: the length, and the position after it. -/
def decodeFrameLength (payload : List UInt8) (len pos : ℕ) : Except Halt (ℕ × ℕ) :=
  if len ≤ pos then .error .rejected
  else do
    let b0 ← readByte payload pos
    if b0 ≤ 251 then return (b0.toNat, pos + 1)
    else if len ≤ pos + 1 then .error .rejected
    else
      let b1 ← readByte payload (pos + 1)
      let total := b0.toNat + b1.toNat * 4
      if 1275 < total then .error .rejected else return (total, pos + 2)

section Frames

variable (payload : List UInt8) (view : ℕ → ℕ → PacketView)

/-- Code 0: one frame. -/
def depacketiseSingle (views : List PacketView) : Except Halt Result :=
  if views.length < 1 then .error .rejected
  else do
    let size ← sub payload.length 1
    let views ← setView views 0 (view 1 size)
    return (1, views)

/-- Code 1: two frames of one size. -/
def depacketiseTwoEqual (views : List PacketView) : Except Halt Result := do
  let afterToc ← sub payload.length 1
  if afterToc % 2 ≠ 0 then .error .rejected
  else
    let per := afterToc / 2
    if views.length < 2 then .error .rejected
    else
      let views ← setView views 0 (view 1 per)
      let views ← setView views 1 (view (1 + per) per)
      return (2, views)

/-- Code 2: two frames, the size of the first before them. -/
def depacketiseTwoUnequal (views : List PacketView) : Except Halt Result :=
  if payload.length < 2 then .error .rejected
  else if views.length < 2 then .error .rejected
  else do
    let (n1, pos) ← decodeFrameLength payload payload.length 1
    let room ← sub payload.length pos
    if room < n1 then .error .rejected
    else
      let views ← setView views 0 (view pos n1)
      let off2 := pos + n1
      if payload.length < off2 then .error .rejected
      else
        let size ← sub payload.length off2
        let views ← setView views 1 (view off2 size)
        return (2, views)

/-- The bytes of the padding's length, and the padding they announce. -/
def paddingHeader (p : Bool) : Except Halt (ℕ × ℕ) :=
  if !p then return (0, 0)
  else if payload.length ≤ 2 then .error .rejected
  else do
    let b0 ← readByte payload 2
    if b0 = 255 then
      if payload.length ≤ 3 then .error .rejected
      else
        let b1 ← readByte payload 3
        return (2, 254 + b1.toNat)
    else return (1, b0.toNat)

/-- The loop that fills the table; the position after it, and the table. -/
def readLengths (dataEnd : ℕ) : ℕ → ℕ → ℕ → List ℕ → Except Halt (ℕ × List ℕ)
  | 0, _, pos, lengths => return (pos, lengths)
  | rounds + 1, i, pos, lengths => do
    let (n, pos) ← decodeFrameLength payload dataEnd pos
    let lengths ← setLength lengths i n
    readLengths dataEnd rounds (i + 1) pos lengths

/-- The sum of the lengths that were read. -/
def sumLengths (lengths : List ℕ) : ℕ → ℕ → ℕ → Except Halt ℕ
  | 0, _, total => return total
  | rounds + 1, i, total => do
    let n ← lengthAt lengths i
    sumLengths lengths rounds (i + 1) (total + n)

/-- The loop that writes all views but the last; the cursor after it, and the views. -/
def sliceFrames (lengths : List ℕ) : ℕ → ℕ → ℕ → List PacketView → Except Halt Result
  | 0, _, cursor, views => return (cursor, views)
  | rounds + 1, i, cursor, views => do
    let n ← lengthAt lengths i
    let views ← setView views i (view cursor n)
    sliceFrames lengths rounds (i + 1) (cursor + n) views

/-- The table is not initialised. -/
def depacketiseVbr (m pos dataEnd : ℕ) (views : List PacketView) : Except Halt Result :=
  if views.length < m then .error .rejected
  else do
    let (dataStart, lengths) ←
      readLengths payload dataEnd (m - 1) 0 pos (List.replicate kMaxFramesPerPacket 0)
    let total ← sumLengths lengths (m - 1) 0 0
    let room ← sub dataEnd dataStart
    if room < total then .error .rejected
    else
      let last ← sub room total
      let (cursor, views) ← sliceFrames view lengths (m - 1) 0 dataStart views
      let views ← setView views (m - 1) (view cursor last)
      return (m, views)

/-- The views of frames of one size. -/
def equalFrames (pos per : ℕ) : ℕ → ℕ → List PacketView → Except Halt (List PacketView)
  | 0, _, views => return views
  | rounds + 1, i, views => do
    let views ← setView views i (view (pos + i * per) per)
    equalFrames pos per rounds (i + 1) views

/-- Code 3 with frames of one size. -/
def depacketiseCbr (m pos dataEnd : ℕ) (views : List PacketView) : Except Halt Result := do
  let r ← sub dataEnd pos
  if r % m ≠ 0 then .error .rejected
  else if views.length < m then .error .rejected
  else
    let views ← equalFrames view pos (r / m) m 0 views
    return (m, views)

/-- Code 3: the frames are counted, and there may be padding. -/
def depacketiseCounted (views : List PacketView) : Except Halt Result :=
  if payload.length < 2 then .error .rejected
  else do
    let fc ← readByte payload 1
    let m := (fc >>> 2 &&& 0x3F).toNat
    if m = 0 then .error .rejected
    else
      let (header, padding) ← paddingHeader payload (fc >>> 1 &&& 0x01 ≠ 0)
      let pos := 2 + header
      if payload.length < pos + padding then .error .rejected
      else
        let dataEnd ← sub payload.length padding
        if fc &&& 0x01 ≠ 0 then depacketiseVbr payload view m pos dataEnd views
        else depacketiseCbr view m pos dataEnd views

end Frames

/-- The number of views that are returned, and the views of the caller. -/
def depacketise (payload : List UInt8) (views : List PacketView) : Except Halt Result :=
  if payload.length < 1 then .error .rejected
  else if views.length = 0 then .error .rejected
  else do
    let toc ← readByte payload 0
    let config := toc >>> 3 &&& 0x1F
    let code := toc &&& 0x03
    let view := fun offset size =>
      PacketView.mk offset size config (toc >>> 2 &&& 0x01) code (frameSizeMsForConfig config)
    if code = kCode0SingleFrame then depacketiseSingle payload view views
    else if code = kCode1TwoEqualFrames then depacketiseTwoEqual payload view views
    else if code = kCode2TwoUnequalFrames then depacketiseTwoUnequal payload view views
    else depacketiseCounted payload view views

/-- Each view begins where the one before it ends. -/
def Consecutive (views : List PacketView) : Prop :=
  views.IsChain fun v w => w.offset = v.offset + v.size

/-- No view begins before the one before it ends. -/
def NonOverlapping (views : List PacketView) : Prop :=
  views.Pairwise fun v w => v.offset + v.size ≤ w.offset

/-- No access is out of range, and what is returned are consecutive views of the payload, in the
places of the first views of the caller. -/
def Safe (payload : List UInt8) (views : List PacketView) : Prop :=
  match depacketise payload views with
  | .error halt => halt = .rejected
  | .ok (count, out) =>
    count ≤ views.length ∧ out.length = views.length ∧ out.drop count = views.drop count
      ∧ (∀ v ∈ out.take count, v.offset + v.size ≤ payload.length)
      ∧ Consecutive (out.take count) ∧ NonOverlapping (out.take count)

/-- More frames of variable size are announced than the table has room for lengths, the caller has
room for them, and the lengths are there. -/
def OverrunsTable (payload : List UInt8) (viewsCapacity : ℕ) : Prop :=
  ∃ toc fc rest header padding, payload = toc :: fc :: rest
    ∧ toc &&& 0x03 = kCode3NFrames ∧ fc &&& 0x01 ≠ 0
    ∧ kMaxFramesPerPacket + 1 < (fc >>> 2 &&& 0x3F).toNat
    ∧ (fc >>> 2 &&& 0x3F).toNat ≤ viewsCapacity
    ∧ Opus.paddingHeader payload (fc >>> 1 &&& 0x01 ≠ 0) = some (header, padding)
    ∧ 2 + header + padding ≤ payload.length
    ∧ (decodeLengths (payload.take (payload.length - padding)) (kMaxFramesPerPacket + 1)
        (2 + header)).isSome

end Memory

end Opus

end NimRtc
