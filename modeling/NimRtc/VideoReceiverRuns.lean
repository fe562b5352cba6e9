import NimRtc.Rfc6184
import NimRtc.VideoReceiver

/-!
# Runs of the video receiver

The calls on a receiver in any order, with what it reports. A packet is given as it was sent: one of
the packets that carry some NAL units of a frame, alone, aggregated or in fragments. Besides the
receiver a run keeps what it was given, to say what should have come out of it.
-/

namespace NimRtc

/-! ### What is sent -/

/-- How some NAL units of a frame are sent. -/
inductive Parcel
  | single (nalu : List UInt8)
  | stapA (indicator : UInt8) (nalus : List (List UInt8))
  | fuA (first : UInt8) (slices : List (List UInt8))
  deriving DecidableEq

namespace Parcel

/-- The fragment at index `k` of `count`, of a unit that starts with `first`. -/
def fragment (first : UInt8) (count k : ℕ) (slice : List UInt8) : List UInt8 :=
  (first &&& 0xE0 ||| H264.kFuAType)
    :: ((first &&& H264.kNaluTypeMask) ||| (if k = 0 then 0x80 else 0)
      ||| (if k + 1 = count then 0x40 else 0))
    :: slice

/-- The payloads a parcel is sent in. -/
def payloads : Parcel → List (List UInt8)
  | .single nalu => [nalu]
  | .stapA indicator nalus =>
    [indicator :: nalus.flatMap fun n => byteAt n.length 1 :: byteAt n.length 0 :: n]
  | .fuA first slices => slices.mapIdx (fragment first slices.length)

/-- The units a parcel carries. -/
def units : Parcel → List (List UInt8)
  | .single nalu => [nalu]
  | .stapA _ nalus => nalus
  | .fuA first slices => [first :: slices.flatten]

/-- The units are those of RFC 6184: of a single type, with a 16-bit length where they are
aggregated, and with the forbidden bit clear and at least two slices where they are fragmented. -/
def WellFormed : Parcel → Prop
  | .single nalu => H264.SingleType nalu
  | .stapA indicator nalus =>
    indicator &&& H264.kNaluTypeMask = H264.kStapAType ∧ nalus ≠ []
      ∧ ∀ n ∈ nalus, H264.SingleType n ∧ n.length < 2 ^ 16
  | .fuA first slices =>
    H264.SingleType [first] ∧ H264.ForbiddenZero [first] ∧ 2 ≤ slices.length ∧ slices.flatten ≠ []

instance decidableWellFormed : ∀ p : Parcel, Decidable p.WellFormed
  | .single _ => inferInstanceAs (Decidable (H264.SingleType _))
  | .stapA _ _ => inferInstanceAs (Decidable (_ ∧ _ ∧ _))
  | .fuA _ _ => inferInstanceAs (Decidable (_ ∧ _ ∧ _ ∧ _))

/-- The parcel is sent in fragments. -/
def isFragments : Parcel → Bool
  | .fuA _ _ => true
  | _ => false

end Parcel

/-- The packets of a parcel are numbered on from `firstSeq`. -/
structure SentParcel where
  parcel : Parcel
  firstSeq : UInt16
  rtpTs : UInt32
  marker : Bool
  wellFormed : parcel.WellFormed := by decide
  deriving DecidableEq

/-- One packet of a sent parcel. -/
structure SentPacket where
  sent : SentParcel
  index : ℕ
  index_lt : index < sent.parcel.payloads.length := by decide
  deriving DecidableEq

/-- The marker is on the last packet of the parcel or on none. -/
def SentPacket.packet (p : SentPacket) : CachedPacket where
  seq := p.sent.firstSeq + UInt16.ofNat p.index
  rtpTs := p.sent.rtpTs
  marker := p.sent.marker && p.index + 1 = p.sent.parcel.payloads.length
  payload := p.sent.parcel.payloads.get ⟨p.index, p.index_lt⟩

/-! ### Calls -/

/-- The packets are of the type `π`. -/
inductive ReceiverCall (π : Type)
  | pushRtp (packet : π) (nowUs target : ℤ)
  | popNackEntries
  | tick (nowUs target : ℤ)
  | reset
  deriving DecidableEq

namespace VideoReceiver

/-- One call, and what it reports. -/
def step {π : Type} (packetOf : π → CachedPacket) (r : VideoReceiver) :
    ReceiverCall π → VideoReceiver × List ReceiverReport
  | .pushRtp packet nowUs target =>
    let (r, out, _) := r.pushRtp (packetOf packet) nowUs target
    (r, out)
  | .popNackEntries => (r.popNackEntries.1, [])
  | .tick nowUs target => r.tick nowUs target
  | .reset => (r.reset, [])

/-- The receiver under a list of calls. -/
def machine : Machine VideoReceiver (ReceiverCall CachedPacket) ReceiverReport := ⟨step id⟩

end VideoReceiver

/-! ### Frames -/

/-- The packets of a frame, with the marker on the last one. -/
def framePackets (parcels : List Parcel) (firstSeq : UInt16) (rtpTs : UInt32) :
    List CachedPacket :=
  let payloads := parcels.flatMap Parcel.payloads
  payloads.mapIdx fun k payload =>
    ⟨firstSeq + UInt16.ofNat k, rtpTs, k + 1 = payloads.length, payload⟩

/-- The frame callback's calls with frames of the timestamp. -/
def framesOf (rtpTs : UInt32) (reports : List ReceiverReport) : List EncodedVideoFrame :=
  reports.filterMap fun
    | .frame out => if out.rtpTimestamp = rtpTs then some out else none
    | _ => none

/-- The frame's packets in order and without loss, at the times of `clock`. -/
def frameCalls (parcels : List Parcel) (firstSeq : UInt16) (rtpTs : UInt32) (clock : ℕ → ℤ × ℤ) :
    List (ReceiverCall CachedPacket) :=
  (framePackets parcels firstSeq rtpTs).mapIdx fun k packet =>
    .pushRtp packet (clock k).1 (clock k).2

/-- The frame is given to the callback once, as Annex B. -/
def VideoReceiver.DeliversAnnexB (r : VideoReceiver) (parcels : List Parcel) (firstSeq : UInt16)
    (rtpTs : UInt32) (clock : ℕ → ℤ × ℤ) : Prop :=
  ∃ out, framesOf rtpTs (VideoReceiver.machine.exec r (frameCalls parcels firstSeq rtpTs clock)).2
      = [out] ∧ parseAnnexB out.payload = parcels.flatMap Parcel.units

/-! ### Fragments -/

/-- A receiver, the packets that it was given, and the last fragment among them. -/
structure FragmentLog where
  rx : VideoReceiver
  given : List SentPacket := []
  last : Option SentPacket := none

namespace FragmentLog

/-- The packet a call hands over is noted. -/
def note (g : FragmentLog) : ReceiverCall SentPacket → FragmentLog
  | .pushRtp p _ _ =>
    { g with
      given := g.given ++ [p]
      last := if p.sent.parcel.isFragments then some p else g.last }
  | _ => g

/-- A report goes with the packets that were given up to then. -/
def step (g : FragmentLog) (call : ReceiverCall SentPacket) :
    FragmentLog × List (List SentPacket × ReceiverReport) :=
  let (rx, out) := g.rx.step SentPacket.packet call
  let g := { g.note call with rx }
  (g, out.map (g.given, ·))

/-- The log under a list of calls. -/
def machine : Machine FragmentLog (ReceiverCall SentPacket) (List SentPacket × ReceiverReport) :=
  ⟨step⟩

end FragmentLog

/-- The packet comes after `q` in the same unit. -/
def SentPacket.Follows (p q : SentPacket) : Prop := p.sent = q.sent ∧ p.index = q.index + 1

instance decidableSentPacketFollows (p q : SentPacket) : Decidable (p.Follows q) :=
  inferInstanceAs (Decidable (_ ∧ _))

/-- While a unit is put together, a fragment that does not start one comes after the last. -/
def ReceiverCall.InTurn (g : FragmentLog) : ReceiverCall SentPacket → Prop
  | .pushRtp p _ _ =>
    p.sent.parcel.isFragments = true → p.index ≠ 0 → g.rx.fuaInProgress = true →
      ∃ q ∈ g.last, p.Follows q
  | _ => True

instance ReceiverCall.decidableInTurn (g : FragmentLog) :
    ∀ call : ReceiverCall SentPacket, Decidable (call.InTurn g)
  | .pushRtp _ _ _ => inferInstanceAs (Decidable (_ → _ → _ → _))
  | .popNackEntries | .tick _ _ | .reset => .isTrue trivial

/-- A unit that is inserted is one that was fragmented, with all of its fragments among the packets
that were given. -/
def FragmentedBefore : List SentPacket × ReceiverReport → Prop
  | (given, .flushed nalu) =>
    ∃ sent : SentParcel, sent.parcel.isFragments = true ∧ sent.parcel.units = [nalu]
      ∧ ∀ k < sent.parcel.payloads.length, ∃ p ∈ given, p.sent = sent ∧ p.index = k
  | _ => True

/-! ### Sequence numbers -/

/-- A receiver and the numbers of the packets that it accepted, counted on where the sequence
numbers wrap. A number is the one nearest to the newest. -/
structure SeqLog where
  rx : VideoReceiver
  newest : ℤ := 0
  received : List ℤ := []
  /-- The numbers that `pending_nacks` stands for. -/
  missing : List ℤ := []

namespace SeqLog

/-- The number a packet is counted as. -/
def number (g : SeqLog) (seq : UInt16) : ℤ :=
  if g.rx.seqInitialised then g.newest + seqDelta seq g.rx.highestSeq else seq.toNat

/-- The numbers after the newest and before `n`. -/
def gap (g : SeqLog) (n : ℤ) : List ℤ :=
  if g.rx.seqInitialised then
    (List.range (n - g.newest - 1).toNat).map fun k : ℕ => g.newest + 1 + k
  else []

/-- A packet is accepted, and the gap before it is missing. -/
def accept (g : SeqLog) (n : ℤ) : SeqLog :=
  { g with
    newest := if g.rx.seqInitialised then max g.newest n else n
    received := g.received ++ [n]
    missing := g.missing ++ g.gap n }

/-- The numbers that are returned go with the log they are returned from. -/
def step (g : SeqLog) : ReceiverCall CachedPacket → SeqLog × List (SeqLog × List UInt16)
  | .pushRtp packet nowUs target =>
    let (rx, _, accepted) := g.rx.pushRtp packet nowUs target
    ({ (if accepted then g.accept (g.number packet.seq) else g) with rx }, [])
  | .popNackEntries =>
    let (rx, out) := g.rx.popNackEntries
    ({ g with rx, missing := [] }, [(g, out)])
  | .tick nowUs target => ({ g with rx := (g.rx.tick nowUs target).1 }, [])
  | .reset => ({ rx := g.rx.reset }, [])

/-- The log under a list of calls. -/
def machine : Machine SeqLog (ReceiverCall CachedPacket) (SeqLog × List UInt16) := ⟨step⟩

/-- The number is one that was passed over and has not come since. -/
def Lacks (g : SeqLog) (n : ℤ) : Prop :=
  n < g.newest ∧ (∃ m ∈ g.received, m < n) ∧ n ∉ g.received

end SeqLog

/-- Each number that is returned stands for one that the receiver lacks, and none for the same as
another. -/
def AsksOnce (reports : List (SeqLog × List UInt16)) : Prop :=
  ∃ asked : List (List ℤ),
    List.Forall₂ (fun report ns => ns.map UInt16.ofInt = report.2 ∧ ∀ n ∈ ns, report.1.Lacks n)
      reports asked ∧ asked.flatten.Nodup

/-- The numbers go on from `expected`, one by one or again. -/
def Gapless : UInt16 → List UInt16 → Prop
  | _, [] => True
  | expected, got :: rest =>
    seqDelta got expected ≤ 0
      ∧ Gapless (if seqDelta got expected = 0 then expected + 1 else expected) rest

instance decidableGapless : ∀ (expected : UInt16) (seqs : List UInt16),
    Decidable (Gapless expected seqs)
  | _, [] => .isTrue trivial
  | expected, got :: rest =>
    have := decidableGapless (if seqDelta got expected = 0 then expected + 1 else expected) rest
    inferInstanceAs (Decidable (_ ∧ _))

/-- No frame that waits in the jitter buffer has a gap in the numbers noted for it. -/
def VideoJitterBuffer.NoGaps (s : VideoJitterBuffer) : Prop :=
  s.cfg.emitNacks = true → ∀ b ∈ s.buckets, nackable b = true →
    Gapless b.firstSeq b.receivedSeqs.mergeSort

instance VideoJitterBuffer.decidableNoGaps (s : VideoJitterBuffer) : Decidable s.NoGaps :=
  inferInstanceAs (Decidable (_ → ∀ b ∈ _, _ → _))

/-- A packet does not come late for a number that is waiting to be returned, and when the numbers
are returned the jitter buffer has none of its own. -/
def ReceiverCall.Reconciled (g : SeqLog) : ReceiverCall CachedPacket → Prop
  | .pushRtp packet _ _ =>
    ¬ (packet.payload = [] ∧ !packet.marker) → g.number packet.seq ∉ g.missing
  | .popNackEntries => g.rx.jb.NoGaps
  | _ => True

instance ReceiverCall.decidableReconciled (g : SeqLog) :
    ∀ call : ReceiverCall CachedPacket, Decidable (call.Reconciled g)
  | .pushRtp _ _ _ => inferInstanceAs (Decidable (_ → _))
  | .popNackEntries => inferInstanceAs (Decidable g.rx.jb.NoGaps)
  | .tick _ _ | .reset => .isTrue trivial

end NimRtc
