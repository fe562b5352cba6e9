import NimRtc.Lib.Machine
import NimRtc.VideoJitterBuffer

/-!
# Runs of the video jitter buffer

The calls on a jitter buffer in any order, with the frames they hand out. A frame that is handed
out as complete should be intact: every packet of it was received, and its bitstream is the
payloads in the order they were sent in, with the FU-A fragments of a NAL unit merged under its
header. Fragments that do not go from a start to an end, or are mixed with other payloads, cannot be
merged.
-/

namespace NimRtc

/-! ### Merging payloads -/

/-- The payloads merged so far and the unit whose fragments have begun. -/
structure Merging where
  out : List UInt8 := []
  unit : Option (List UInt8) := none
  deriving DecidableEq

namespace Merging

/-- The unit with one more fragment. The header's forbidden bit has to be clear. -/
def fragment (unit : Option (List UInt8)) (fu : H264.FuAHeader) : Option (List UInt8) :=
  if fu.fuHeader &&& 0x80 ≠ 0 then
    if unit = none ∧ fu.fuIndicator &&& 0x80 = 0 then
      some ((fu.fuIndicator &&& 0xE0 ||| fu.fuHeader &&& H264.kNaluTypeMask) :: fu.fragment)
    else none
  else unit.map (· ++ fu.fragment)

/-- One payload of a frame joins what was merged so far. -/
def step (codec : CodecKind) (m : Merging) (payload : List UInt8) : Option Merging :=
  if codec = .h264 ∧ isFuA payload then
    (H264.parseFuAHeader payload).bind fun fu =>
      (fragment m.unit fu).map fun unit =>
        if fu.fuHeader &&& 0x40 ≠ 0 then { out := m.out ++ unit } else { m with unit := some unit }
  else if m.unit = none then some { out := m.out ++ payload }
  else none

end Merging

/-- The bitstream of the frame. -/
def SentFrame.merged (F : SentFrame) : Option (List UInt8) :=
  (F.payloads.foldlM (Merging.step F.codec) {}).bind fun m =>
    if m.unit = none then some m.out else none

/-- The frame is what was sent. -/
def AssembledFrame.Intact (out : AssembledFrame) : Prop :=
  ∃ F : SentFrame, F.rtpTimestamp = out.rtpTimestamp
    ∧ (∀ i < F.payloads.length, ∃ pkt ∈ out.bucket.packets, pkt.frame = F ∧ pkt.index = i)
    ∧ out.bucket.fuAInProgress = false ∧ F.merged = some out.bitstream

/-! ### Runs -/

/-- A call on the buffer. -/
inductive JitterCall
  | insert (pkt : InboundPacket)
  | popFrame
  | popFrameAt (nowUs target : ℤ)
  | popNackEntries
  | tick (nowUs : ℤ)
  | reset

namespace VideoJitterBuffer

/-- One call, and the frames it returns. -/
def step (s : VideoJitterBuffer) : JitterCall → VideoJitterBuffer × List AssembledFrame
  | .insert pkt => ((s.insert pkt).1, [])
  | .popFrame =>
    let (s, out) := s.popReady (-1) 0
    (s, out.toList)
  | .popFrameAt nowUs target =>
    let (s, out) := s.popReady nowUs target
    (s, out.toList)
  | .popNackEntries => (s.popNackEntries.1, [])
  | .tick nowUs => (s.tick nowUs, [])
  | .reset => (s.reset, [])

/-- The buffer under a list of calls. -/
def machine : Machine VideoJitterBuffer JitterCall AssembledFrame := ⟨step⟩

/-- The frames a list of calls on a new buffer returns. -/
def frames (cfg : JitterConfig) (calls : List JitterCall) : List AssembledFrame :=
  (machine.exec (create cfg) calls).2

end VideoJitterBuffer

/-! ### Arrival in sequence -/

/-- The packets are those before `pkt` of its frame, in order and each once. -/
def InboundPacket.Follows (pkt : InboundPacket) (taken : List InboundPacket) : Prop :=
  taken.map (fun p => (p.frame, p.index)) = (List.range pkt.index).map fun i => (pkt.frame, i)

instance (pkt : InboundPacket) (taken : List InboundPacket) : Decidable (pkt.Follows taken) :=
  inferInstanceAs (Decidable (_ = _))

/-- The packet ends its frame: the ones before it were taken in sequence, and the frame's fragments
can be merged. -/
def InboundPacket.Ends (pkt : InboundPacket) (taken : List InboundPacket) : Prop :=
  pkt.Follows taken ∧ pkt.frame.merged ≠ none

instance (pkt : InboundPacket) (taken : List InboundPacket) : Decidable (pkt.Ends taken) :=
  inferInstanceAs (Decidable (_ ∧ _))

/-- As long as its frame is not handed out, a packet with the marker ends the frame, and nothing
but an empty payload or a fragment that is dropped comes after it. -/
def FrameBucket.Expects (b : FrameBucket) (pkt : InboundPacket) : Prop :=
  b.emitted = true ∨ (b.markerSeen = true ∧ (pkt.payload = [] ∨ b.drops pkt = true))
    ∨ (b.markerSeen = false ∧ (pkt.marker = true → pkt.Ends b.taken))

instance (b : FrameBucket) (pkt : InboundPacket) : Decidable (b.Expects pkt) :=
  inferInstanceAs (Decidable (_ ∨ (_ ∧ (_ ∨ _)) ∨ (_ ∧ (_ → _))))

/-- The bucket of the packet expects it. In a new bucket only a frame of one packet ends. -/
def VideoJitterBuffer.InSequence (s : VideoJitterBuffer) (pkt : InboundPacket) : Prop :=
  match s.findBucket pkt.rtpTimestamp with
  | none => pkt.marker = true → pkt.Ends []
  | some b => b.Expects pkt

instance (s : VideoJitterBuffer) (pkt : InboundPacket) : Decidable (s.InSequence pkt) :=
  match h : s.findBucket pkt.rtpTimestamp with
  | none => decidable_of_iff (pkt.marker = true → pkt.Ends []) (by simp [VideoJitterBuffer.InSequence, h])
  | some b => decidable_of_iff (b.Expects pkt) (by simp [VideoJitterBuffer.InSequence, h])

/-- A packet that is inserted comes in sequence. -/
def JitterCall.InSequence (s : VideoJitterBuffer) : JitterCall → Prop
  | .insert pkt => s.InSequence pkt
  | _ => True

instance (s : VideoJitterBuffer) : ∀ call : JitterCall, Decidable (call.InSequence s)
  | .insert pkt => inferInstanceAs (Decidable (s.InSequence pkt))
  | .popFrame | .popFrameAt _ _ | .popNackEntries | .tick _ | .reset => .isTrue trivial

end NimRtc
