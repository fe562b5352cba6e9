import NimRtc.Lib.Serial
import NimRtc.VideoJitterRuns

/-!
# What a video jitter buffer plays

The calls on a jitter buffer with the frames it has returned. A frame is assembled at most once:
its bucket stays as a tombstone for the packets that are late, until `tick` reaps it. A packet that
is later than that opens a new bucket.
-/

namespace NimRtc

/-- A jitter buffer and the frames it has returned. -/
structure Playout where
  jb : VideoJitterBuffer
  returned : List AssembledFrame := []

/-- `insert` takes the packet. -/
def InboundPacket.Accepted (pkt : InboundPacket) : Prop := ¬ (pkt.payload = [] ∧ !pkt.marker)

instance (pkt : InboundPacket) : Decidable pkt.Accepted := inferInstanceAs (Decidable (¬ _))

namespace Playout

/-- The timestamps of the frames that were returned or wait in `pending_incomplete_`. -/
def assembled (p : Playout) : List UInt32 :=
  (p.returned ++ p.jb.pendingIncomplete).map (·.rtpTimestamp)

/-- One call, with the frames that were returned so far. -/
def step (p : Playout) (call : JitterCall) : Playout × List AssembledFrame :=
  let (jb, out) := p.jb.step call
  ({ jb, returned := p.returned ++ out }, out)

def machine : Machine Playout JitterCall AssembledFrame := ⟨step⟩

end Playout

/-- A packet of a frame that was assembled finds the frame's bucket. -/
def JitterCall.FindsTombstone (p : Playout) : JitterCall → Prop
  | .insert pkt =>
    pkt.Accepted → pkt.rtpTimestamp ∈ p.assembled →
      (p.jb.findBucket pkt.rtpTimestamp).isSome
  | _ => True

instance (p : Playout) : ∀ call : JitterCall, Decidable (call.FindsTombstone p)
  | .insert _ => inferInstanceAs (Decidable (_ → _ → _))
  | .popFrame | .popFrameAt _ _ | .popNackEntries | .tick _ | .reset => .isTrue trivial

/-! ### Evicted frames -/

namespace VideoJitterBuffer

/-- The buckets that the rounds of `enforce_inflight_cap` erase. -/
def evictedRounds (incoming cap : ℕ) : ℕ → VideoJitterBuffer → List FrameBucket
  | 0, _ => []
  | fuel + 1, s =>
    if s.buckets.countP (fun b => !b.emitted) + incoming ≤ cap then []
    else
      match s.victim with
      | none => []
      | some v => v :: evictedRounds incoming cap fuel (s.evict v)

/-- The buckets that the cap on frames in flight evicts. -/
def evictedByCap (s : VideoJitterBuffer) (incoming : ℕ) : List FrameBucket :=
  evictedRounds incoming s.effectiveInflightCap s.buckets.length s

/-- The buckets after the loop of `tick`. -/
def swept (s : VideoJitterBuffer) (nowUs : ℤ) : VideoJitterBuffer :=
  s.buckets.foldl (tickBucket nowUs) { s with buckets := [] }

/-- The buckets that a call evicts. -/
def evicted (s : VideoJitterBuffer) : JitterCall → List FrameBucket
  | .insert pkt =>
    if pkt.Accepted ∧ s.findBucket pkt.rtpTimestamp = none then s.evictedByCap 1 else []
  | .tick nowUs => (s.swept nowUs).evictedByCap 0
  | _ => []

end VideoJitterBuffer

/-- How a frame leaves the buffer. -/
inductive Played
  | returned (out : AssembledFrame)
  | evicted (b : FrameBucket)

namespace VideoJitterBuffer

/-- One call, with the frames that leave. -/
def play (s : VideoJitterBuffer) (call : JitterCall) : VideoJitterBuffer × List Played :=
  ((s.step call).1, (s.evicted call).map .evicted ++ (s.step call).2.map .returned)

/-- The buffer along its calls; reported are the frames that leave. -/
def player : Machine VideoJitterBuffer JitterCall Played := ⟨play⟩

/-- The frames that leave in a run. -/
def played (cfg : JitterConfig) (calls : List JitterCall) : List Played :=
  (player.exec (create cfg) calls).2

end VideoJitterBuffer

/-! ### Moving the timestamps -/

/-- The same with the timestamps moved by `k`. -/
def SentFrame.shift (k : UInt32) (F : SentFrame) : SentFrame :=
  { F with rtpTimestamp := F.rtpTimestamp + k }

def InboundPacket.shift (k : UInt32) (pkt : InboundPacket) : InboundPacket :=
  ⟨pkt.frame.shift k, pkt.index, pkt.arrivalUs, pkt.index_lt⟩

def FrameBucket.shift (k : UInt32) (b : FrameBucket) : FrameBucket :=
  { b with
    rtpTimestamp := b.rtpTimestamp + k
    packets := b.packets.map (.shift k)
    taken := b.taken.map (.shift k) }

def AssembledFrame.shift (k : UInt32) (out : AssembledFrame) : AssembledFrame :=
  { out with rtpTimestamp := out.rtpTimestamp + k, bucket := out.bucket.shift k }

/-- The call with the timestamps moved by `k`. -/
def JitterCall.shift (k : UInt32) : JitterCall → JitterCall
  | .insert pkt => .insert (pkt.shift k)
  | call => call

def Played.shift (k : UInt32) : Played → Played
  | .returned out => .returned (out.shift k)
  | .evicted b => .evicted (b.shift k)

/-- The timestamp of the frame. -/
def Played.timestamp : Played → UInt32
  | .returned out => out.rtpTimestamp
  | .evicted b => b.rtpTimestamp

def JitterCall.timestamps : JitterCall → List UInt32
  | .insert pkt => [pkt.rtpTimestamp]
  | _ => []

/-- A packet that opens a bucket is on the same side of every frame that is left to hand out, as a
number, after the timestamps are moved. -/
def JitterCall.KeepsOrder (k : UInt32) (s : VideoJitterBuffer) : JitterCall → Prop
  | .insert pkt =>
    pkt.Accepted → s.findBucket pkt.rtpTimestamp = none →
      ∀ b ∈ (s.enforceInflightCap 1).buckets, b.emitted = false →
        (pkt.rtpTimestamp < b.rtpTimestamp ↔ pkt.rtpTimestamp + k < b.rtpTimestamp + k)
  | _ => True

instance JitterCall.decidableKeepsOrder (k : UInt32) (s : VideoJitterBuffer) :
    ∀ call : JitterCall, Decidable (call.KeepsOrder k s)
  | .insert _ => inferInstanceAs (Decidable (_ → _ → _))
  | .popFrame | .popFrameAt _ _ | .popNackEntries | .tick _ | .reset => .isTrue trivial

end NimRtc
