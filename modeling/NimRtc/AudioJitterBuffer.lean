import NimRtc.Lib.Machine
import NimRtc.Lib.Serial
import NimRtc.RtpPacket

/-!
# The audio jitter buffer

`jb::JitterBuffer` of `jitter_buffer.cpp`. The packets with one RTP timestamp are a frame, and the
frames are in the order of their timestamps as numbers. A frame is due when the target delay has
passed since its first packet. The delay that `jb_strategy` asks for in adaptive mode is an argument
of `pop`, if the estimator has seen jitter. Times are in nanoseconds and delays in milliseconds.
-/

namespace NimRtc

/-- The packet with its timestamp moved by `k`. -/
def Rtp.PacketView.shift (k : UInt32) (packet : Rtp.PacketView) : Rtp.PacketView :=
  { packet with timestamp := packet.timestamp + k }

namespace Jb

open Rtp (PacketView)

/-- What the buffer is configured with. -/
structure Config where
  initialDelay : ℤ := 50
  maxPackets : ℕ := 512
  adaptive : Bool := true

/-- The packets of one timestamp. -/
structure Frame where
  packets : List PacketView := []
  frameTimestamp : UInt32 := 0
  captureLatency : ℤ := 0
  firstArrival : Option ℤ := none
  refFrame : Option UInt64 := none

/-- The buffer: its frames by timestamp, and the counters. -/
structure JitterBuffer where
  config : Config
  frameBuffer : List (UInt32 × Frame) := []
  frameArrivalTimes : List (UInt32 × ℤ) := []
  lastSeq : Option UInt16 := none
  packetsReceived : ℕ := 0
  framesEmitted : ℕ := 0
  targetDelay : ℤ := 0
  bufferedPackets : ℕ := 0

/-- `base_delay_for_pt`, in milliseconds. -/
def baseDelayForPt (pt : UInt8) : ℤ :=
  if pt ≤ 23 ∨ (32 ≤ pt ∧ pt ≤ 35) ∨ (64 ≤ pt ∧ pt ≤ 76) ∨ pt = 0 then 60 else 100

/-- What `push` does to the frame of a packet. -/
def Frame.add (frame : Frame) (packet : PacketView) (arrival : ℤ)
    (refFrame : Option UInt64) : Frame where
  packets := frame.packets ++ [packet]
  frameTimestamp := packet.timestamp
  captureLatency :=
    match frame.firstArrival with
    | some first => arrival - first
    | none => frame.captureLatency
  firstArrival := some (frame.firstArrival.getD arrival)
  refFrame := refFrame.or frame.refFrame

namespace JitterBuffer

/-- The frame of a timestamp is changed, or made in its place. -/
def updateFrame (buffer : List (UInt32 × Frame)) (ts : UInt32)
    (f : Frame → Frame) : List (UInt32 × Frame) :=
  if buffer.any fun e => e.1 = ts then
    buffer.map fun e => if e.1 = ts then (e.1, f e.2) else e
  else buffer.orderedInsert (fun a b => a.1 ≤ b.1) (ts, f {})

/-- `push`: the packet joins the frame of its timestamp. -/
def push (s : JitterBuffer) (packet : PacketView) (arrival : ℤ) (refFrame : Option UInt64) :
    JitterBuffer :=
  { s with
    packetsReceived := s.packetsReceived + 1
    lastSeq := some packet.seq
    targetDelay :=
      if s.targetDelay = 0 then
        if 0 < s.config.initialDelay then s.config.initialDelay
        else baseDelayForPt packet.payloadType
      else s.targetDelay
    frameBuffer :=
      updateFrame s.frameBuffer packet.timestamp fun frame => frame.add packet arrival refFrame
    frameArrivalTimes :=
      if (s.frameArrivalTimes.lookup packet.timestamp).isSome then s.frameArrivalTimes
      else (packet.timestamp, arrival) :: s.frameArrivalTimes
    bufferedPackets := s.bufferedPackets + 1 }

/-- The first frame with an arrival time, with the time. -/
def firstFrame (s : JitterBuffer) : Option (UInt32 × Frame × ℤ) :=
  s.frameBuffer.findSome? fun e =>
    (s.frameArrivalTimes.lookup e.1).map fun arrival => (e.1, e.2, arrival)

/-- `pop`: the first frame, when its delay is over. -/
def pop (s : JitterBuffer) (now : ℤ) (tracked : Option ℤ) :
    JitterBuffer × Option Frame :=
  let targetDelay :=
    if s.config.adaptive then tracked.getD s.targetDelay else s.config.initialDelay
  let s := { s with targetDelay }
  match s.firstFrame with
  | none => (s, none)
  | some (ts, frame, arrival) =>
    if arrival + targetDelay * 1000000 ≤ now then
      ({ s with
          frameArrivalTimes := s.frameArrivalTimes.filter fun e => e.1 ≠ ts
          frameBuffer := s.frameBuffer.filter fun e => e.1 ≠ ts
          bufferedPackets := s.bufferedPackets - frame.packets.length
          framesEmitted := s.framesEmitted + 1 },
        some frame)
    else (s, none)

/-- `flush`: all frames, in their order. -/
def flush (s : JitterBuffer) : JitterBuffer × List Frame :=
  ({ s with frameBuffer := [], frameArrivalTimes := [], bufferedPackets := 0 },
    s.frameBuffer.map (·.2))

structure Stats where
  bufferedPackets : ℕ := 0
  framesEmitted : ℕ := 0
  packetsDropped : ℕ := 0
  currentDelay : ℤ := 0
  currentJitter : ℤ := 0

/-- The jitter is that of the estimator. No packet is ever counted as dropped. -/
def stats (s : JitterBuffer) (jitter : ℤ) : Stats where
  bufferedPackets := s.bufferedPackets
  framesEmitted := s.framesEmitted
  currentDelay := s.targetDelay
  currentJitter := jitter

/-- `update_config` -/
def updateConfig (s : JitterBuffer) (config : Config) : JitterBuffer :=
  { s with
    config
    targetDelay := if config.adaptive then s.targetDelay else config.initialDelay }

end JitterBuffer

/-! ### Runs -/

/-- The calls on a buffer, each with the clock. -/
inductive Call
  | push (packet : PacketView) (arrival : ℤ) (refFrame : Option UInt64)
  | pop (now : ℤ) (tracked : Option ℤ)
  | flush

/-- What `pop` or `flush` returned, and the timestamps of the frames that are left. -/
structure Report where
  frames : List Frame
  left : List UInt32

namespace JitterBuffer

/-- The timestamps of the frames that wait. -/
def timestamps (s : JitterBuffer) : List UInt32 := s.frameBuffer.map (·.1)

/-- One call, with what it reports. -/
def step (s : JitterBuffer) : Call → JitterBuffer × List Report
  | .push packet arrival refFrame => (s.push packet arrival refFrame, [])
  | .pop now tracked =>
    let (s, frame) := s.pop now tracked
    (s, [{ frames := frame.toList, left := s.timestamps }])
  | .flush =>
    let (s, frames) := s.flush
    (s, [{ frames, left := s.timestamps }])

def machine : Machine JitterBuffer Call Report := ⟨step⟩

/-- What a run reports. -/
def played (config : Config) (calls : List Call) : List Report :=
  (machine.exec { config } calls).2

end JitterBuffer

/-! ### Moving the timestamps -/

def Frame.shift (k : UInt32) (frame : Frame) : Frame :=
  { frame with packets := frame.packets.map (.shift k), frameTimestamp := frame.frameTimestamp + k }

def Call.shift (k : UInt32) : Call → Call
  | .push packet arrival refFrame => .push (packet.shift k) arrival refFrame
  | call => call

def Report.shift (k : UInt32) (r : Report) : Report :=
  { frames := r.frames.map (.shift k), left := r.left.map (· + k) }

/-- What is returned comes before what is left, in the order of the moved timestamps. -/
def Report.InOrder (k : UInt32) (r : Report) : Prop :=
  (r.frames.map (·.frameTimestamp) ++ r.left).Pairwise fun a b => a + k < b + k

/-- A packet with a new timestamp is on the same side of every frame in the buffer, as a number,
after the timestamps are moved. -/
def Call.KeepsOrder (k : UInt32) (s : JitterBuffer) : Call → Prop
  | .push packet _ _ =>
    packet.timestamp ∉ s.timestamps → ∀ e ∈ s.frameBuffer,
      (packet.timestamp < e.1 ↔ packet.timestamp + k < e.1 + k)
  | _ => True

instance Call.decidableKeepsOrder (k : UInt32) (s : JitterBuffer) :
    ∀ call : Call, Decidable (call.KeepsOrder k s)
  | .push _ _ _ => inferInstanceAs (Decidable (_ → _))
  | .pop _ _ | .flush => .isTrue trivial

def Call.timestamps : Call → List UInt32
  | .push packet _ _ => [packet.timestamp]
  | _ => []

/-! ### Runs with live reconfiguration -/

/-- The calls of a run in which the configuration may change. -/
inductive LiveCall
  | media (call : Call)
  | updateConfig (config : Config)

def LiveCall.pushed : LiveCall → List PacketView
  | .media (.push packet _ _) => [packet]
  | _ => []

namespace JitterBuffer

/-- The frames that wait. -/
def frames (s : JitterBuffer) : List Frame := s.frameBuffer.map (·.2)

/-- What is seen of a run is the frames it returns. -/
def liveStep (s : JitterBuffer) : LiveCall → JitterBuffer × List Frame
  | .media call =>
    let r := s.step call
    (r.1, r.2.flatMap (·.frames))
  | .updateConfig config => (s.updateConfig config, [])

/-- A run in which the configuration may change; reported are the frames that are popped. -/
def live : Machine JitterBuffer LiveCall Frame := ⟨liveStep⟩

/-- No packet is lost or made up between `push` and the frames, returned or in the buffer. -/
structure Conserves (pushed : List PacketView) (returned : List Frame) (s : JitterBuffer) :
    Prop where
  distinct : s.timestamps.Nodup
  keys : (s.frameArrivalTimes.map (·.1)).Perm s.timestamps
  counted : ∀ jitter, (s.stats jitter).bufferedPackets = (s.frames.map (·.packets.length)).sum
  own : ∀ frame ∈ returned ++ s.frames, ∀ packet ∈ frame.packets,
    packet.timestamp = frame.frameTimestamp
  once : ((returned ++ s.frames).flatMap (·.packets)).Perm pushed
  /-- The frames of a timestamp hold the packets with it, in the order in which they came. -/
  inOrder : ∀ ts, ((returned ++ s.frames).filter (·.frameTimestamp = ts)).flatMap (·.packets)
    = pushed.filter (·.timestamp = ts)

end JitterBuffer

end Jb

end NimRtc
