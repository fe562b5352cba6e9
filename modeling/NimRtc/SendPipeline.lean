import NimRtc.EngineRuns
import NimRtc.SchedulerRuns

/-!
# From the send paths to ICE

What `send_video` and `send_audio` emit waits in the scheduler until `tick` drains it into ICE, or
goes straight to ICE where there is no scheduler. Beside its bytes a packet carries which packet
of the video sender it was made from and its number among them, which no operation reads.
-/

namespace NimRtc

/-- A packet of the video sender, numbered in the order they were emitted. -/
structure NumberedPacket where
  number : ℕ
  packet : CachedPacket
  deriving DecidableEq, Repr

/-- Bytes on their way to ICE, with the video packet they carry if they carry one. -/
structure Outgoing where
  bytes : List UInt8
  video : Option NumberedPacket := none
  deriving DecidableEq, Repr

/-- The engine, the scheduler under it, and what ICE was handed. -/
structure SendPipeline where
  engine : Engine
  sched : Scheduler Outgoing
  /-- How many packets the video sender has emitted. -/
  numbered : ℕ := 0
  /-- What was handed to ICE, with the priority it waited with if it waited. -/
  handed : List (Option Priority × Outgoing) := []

/-- No packet of the video sender is emitted: no frame is sent, and a datagram that arrives asks for
no packet again. -/
def EngineEvent.withoutVideo : EngineEvent → Bool
  | .sendVideo _ => false
  | .recv d => d.actions.all (· = .keyframe)
  | _ => true

/-- The calls on the way to ICE. `tick` pushes the bandwidth estimate, if there is one, and drains
the scheduler; its other parts are events of the engine. -/
inductive SendEvent
  | sendVideo (f : VideoFrame)
  | tick (targetBps : UInt32)
  | engine (ev : EngineEvent) (h : ev.withoutVideo = true)

/-- The event as the engine sees it. -/
def SendEvent.ofEngine : SendEvent → Option EngineEvent
  | .sendVideo f => some (.sendVideo f)
  | .tick _ => none
  | .engine ev _ => some ev

namespace SendPipeline

/-- One datagram of the engine, into the scheduler or straight to ICE. -/
def send (p : SendPipeline) (path : SendPath) (o : Outgoing) : SendPipeline :=
  match path with
  | .scheduler prio => { p with sched := (p.sched.enqueueOwned prio o []).1 }
  | .ice => { p with handed := p.handed ++ [(none, o)] }

/-- The media packets of what the engine reports, made from `video` if from any. -/
def sendReports (p : SendPipeline) (video : Option NumberedPacket) : List EngineReport → SendPipeline
  | [] => p
  | .emitted m :: rs => (p.send m.path ⟨m.bytes, video⟩).sendReports video rs
  | _ :: rs => p.sendReports video rs

/-- A packet of the video sender, with its number, goes through the engine. -/
def videoPacket (p : SendPipeline) (c : CachedPacket) (lib : LibSrtpCall) : SendPipeline :=
  let (engine, reports) := p.engine.videoPacket c lib
  { p with engine, numbered := p.numbered + 1 }.sendReports (some ⟨p.numbered, c⟩) reports

/-- The packets of one frame, each with its own answer of the library. -/
def videoPackets (p : SendPipeline) : List CachedPacket → (ℕ → LibSrtpCall) → SendPipeline
  | [], _ => p
  | c :: cs, lib => (p.videoPacket c (lib 0)).videoPackets cs fun n => lib (n + 1)

/-- `send_video`, with the packets of its reports numbered. -/
def sendVideo (p : SendPipeline) (f : VideoFrame) : SendPipeline :=
  let keyframe := p.engine.isOpen && p.engine.cfg.videoCodec && p.engine.videoSender.isSome
    && (f.encoded.map (·.2)).getD false
  let pending := p.engine.videoKeyframePending || keyframe
  match p.engine.videoToSend f with
  | none => { p with engine := { p.engine with videoKeyframePending := pending } }
  | some (s, packets) =>
    let start := { p.engine with videoKeyframePending := pending, videoSender := some s }
    let p := { p with engine := start }.videoPackets packets f.lib
    { p with engine := { p.engine with videoFramesSent := p.engine.videoFramesSent + 1 } }

/-- An event of the engine, with the packets that it emits. -/
def onEngine (p : SendPipeline) (ev : EngineEvent) : SendPipeline :=
  let (engine, reports) := p.engine.step ev
  { p with engine }.sendReports none reports

/-- The part of `tick` on an open engine that drains the scheduler. -/
def drainScheduler (p : SendPipeline) (targetBps : UInt32) : SendPipeline :=
  if p.engine.isOpen && p.engine.cfg.scheduler then
    let sched := if 0 < targetBps then p.sched.onBweUpdate targetBps else p.sched
    let (sched, d) := sched.drainWith 64 (some fun _ _ _ => p.engine.modules)
    { p with sched, handed := p.handed ++ d.accepted.map fun r => (some r.priority, r.ownedData) }
  else p

/-- One call. -/
def step (p : SendPipeline) : SendEvent → SendPipeline
  | .sendVideo f => p.sendVideo f
  | .tick targetBps => p.drainScheduler targetBps
  | .engine ev _ => p.onEngine ev

/-- The pipeline under a list of calls. -/
def machine : Machine SendPipeline SendEvent Empty := ⟨fun p ev => (p.step ev, [])⟩

/-- The run of a list of calls on an engine with a scheduler as it is constructed. -/
def run (e : Engine) (config : SchedulerConfig) (evs : List SendEvent) : SendPipeline :=
  (machine.exec { engine := e, sched := .create config } evs).1

/-- The video packets were handed to ICE in the order they were numbered. -/
def InOrder (p : SendPipeline) : Prop :=
  p.handed.Pairwise fun a b => ∀ x ∈ a.2.video, ∀ y ∈ b.2.video, x.number < y.number

/-- The first of two packets may be handed over before the second: if these are video packets, by
their numbers, or because the first is a marker packet with the priority of a key frame and the
second has the priority of other video. -/
def MayPrecede (a b : Option Priority × Outgoing) : Prop :=
  ∀ x ∈ a.2.video, ∀ y ∈ b.2.video, x.number < y.number
    ∨ a.1 = some .videoKeyframe ∧ x.packet.marker ∧ b.1 = some .video

end SendPipeline

end NimRtc
