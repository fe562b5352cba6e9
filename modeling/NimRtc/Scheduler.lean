import NimRtc.Lib.ClassQueues

/-!
# The sending scheduler

`Scheduler` of `scheduler.cpp`: five queues of packets by priority, drained from the highest, and
beside them the three buckets of the stream layer. The bytes of a packet are only copied, so they
are a type variable here. Queue sizes are computed in 32 and 64 bits in the source; no queue grows
past `max_queue_depth`, so the sums below do not wrap. `packets_sent_this_cycle_` is reset and
counted together with the drain's `sent`, and is the same number here.
-/

namespace NimRtc

/-- `plugins::Addr`: the address bytes, empty when unset. -/
abbrev Addr := List UInt8

/-- `Priority`: the classes, most urgent first. -/
inductive Priority
  | control
  | audio
  | videoKeyframe
  | video
  | bestEffort
  deriving DecidableEq, Repr

namespace Priority

/-- `priority_rank`: a lower rank is a higher priority. -/
def rank : Priority → ℕ
  | control => 0
  | audio => 1
  | videoKeyframe => 2
  | video => 3
  | bestEffort => 4

/-- The indices of `queues_`, from rank 0 up. -/
def all : List Priority := [control, audio, videoKeyframe, video, bestEffort]

/-- The indices of `queues_` from 1 up, the queues a sender pause drops. -/
def nonControl : List Priority := [audio, videoKeyframe, video, bestEffort]

end Priority

/-- `StreamPriority`: the level of one stream. -/
inductive StreamPriority
  | high
  | normal
  | low
  deriving DecidableEq, Repr

namespace StreamPriority

/-- Where a level stands in the order of draining. -/
def rank : StreamPriority → ℕ
  | high => 0
  | normal => 1
  | low => 2

/-- The indices of `stream_buckets_`, from rank 0 up. -/
def all : List StreamPriority := [high, normal, low]

end StreamPriority

/-- `SchedulerConfig` -/
structure SchedulerConfig where
  avgPacketSizeBytes : UInt32 := 1200
  maxQueueDepth : UInt32 := 8192
  deriving DecidableEq, Repr

/-- A packet in a queue. `stream_id` is zero for a packet queued by its own priority. -/
structure PacketRecord (α : Type*) where
  priority : Priority := .bestEffort
  streamId : UInt32 := 0
  ownedData : α
  dstAddr : Addr
  estimatedSizeBytes : UInt32 := 0
  deriving DecidableEq, Repr

/-- `DrainCallback`: the answer for a packet, given what the same drain has offered before. -/
abbrev DrainCallback (α : Type*) := List (Priority × α) → Priority → α → Bool

/-- `bits_to_packets_per_second` -/
def bitsToPacketsPerSecond (targetBps avgPacketSizeBytes : UInt32) : UInt32 :=
  if targetBps = 0 ∨ avgPacketSizeBytes = 0 then 0
  else
    let bitsPerPacket := avgPacketSizeBytes.toNat * 8
    UInt32.ofNat (min (targetBps.toNat / bitsPerPacket) 0xFFFFFFFF)

/-- `estimated_packet_bytes`: the packet's own estimate, else the average. -/
def PacketRecord.estimatedPacketBytes {α : Type*} (r : PacketRecord α) (avgSize : UInt32) : UInt32 :=
  if r.estimatedSizeBytes ≠ 0 then r.estimatedSizeBytes else avgSize

/-- `SchedulerStats` -/
structure SchedulerStats where
  queuedPackets : UInt32
  droppedPackets : UInt32
  sentPackets : UInt32
  sentBytes : UInt64
  targetBitrateBps : UInt32
  deriving DecidableEq, Repr

/-- `Scheduler`: one queue for each class, one bucket for each stream level, and the counters. -/
structure Scheduler (α : Type*) where
  config : SchedulerConfig
  queues : Priority → List (PacketRecord α) := fun _ => []
  targetBps : UInt32 := 0
  /-- The packets a drain may emit, without a limit when zero. -/
  allowedPerDrain : UInt32 := 0
  streamPriority : AList fun _ : UInt32 => StreamPriority := ∅
  streamBuckets : StreamPriority → List (PacketRecord α) := fun _ => []
  lastDstAddr : Addr := []
  droppedTotal : UInt32 := 0
  sentTotal : UInt32 := 0
  sentBytesTotal : UInt64 := 0
  streamSentTotal : UInt32 := 0

/-- What the scheduler discards to keep within `max_queue_depth`. -/
inductive Overflow (α : Type*)
  | evicted (p : Priority) (r : PacketRecord α)
  | refused
  deriving DecidableEq, Repr

/-- What a drain counts. `offers` lists the packets it took from a queue, each with the answer of
the callback. -/
structure Drain (α : Type*) where
  sent : ℕ := 0
  sentTotal : UInt32
  sentBytesTotal : UInt64
  offers : List (PacketRecord α × Bool) := []

namespace Scheduler

variable {α : Type*}

/-- `Scheduler::create`: a zero average packet size brings back the default configuration. -/
def create (config : SchedulerConfig) : Scheduler α :=
  { config := if config.avgPacketSizeBytes = 0 then {} else config }

/-- What waits in the queues, from the highest priority on. -/
def waiting (s : Scheduler α) : List (PacketRecord α) := ClassQueues.inOrder Priority.all s.queues

/-- `total_queued`, without the stream buckets. -/
def totalQueued (s : Scheduler α) : UInt32 := UInt32.ofNat s.waiting.length

/-- The eviction loop: the front of the lowest queue that is not empty. -/
def evict (s : Scheduler α) : List Priority → Scheduler α × List (Overflow α)
  | [] => (s, [])
  | p :: ps =>
    match s.queues p with
    | [] => s.evict ps
    | r :: q =>
      ({ s with
        queues := Function.update s.queues p q
        droppedTotal := s.droppedTotal + 1 }, [.evicted p r])

/-- The last destination that is not empty. -/
def rememberDst (s : Scheduler α) (dst : Addr) : Scheduler α :=
  if dst ≠ [] then { s with lastDstAddr := dst } else s

/-- A packet goes to the back of its class. -/
def push (s : Scheduler α) (p : Priority) (ownedData : α) : Scheduler α :=
  let pkt : PacketRecord α := { priority := p, ownedData, dstAddr := s.lastDstAddr }
  { s with queues := Function.update s.queues p (s.queues p ++ [pkt]) }

/-- `enqueue_locked`, with what it discards. -/
def enqueueLocked (s : Scheduler α) (p : Priority) (ownedData : α) (dst : Addr) :
    Scheduler α × List (Overflow α) :=
  let s := s.rememberDst dst
  if s.config.maxQueueDepth ≤ s.totalQueued then
    let (s, out) := s.evict Priority.all.reverse
    if s.config.maxQueueDepth ≤ s.totalQueued then
      ({ s with droppedTotal := s.droppedTotal + 1 }, out ++ [.refused])
    else (s.push p ownedData, out)
  else (s.push p ownedData, [])

/-- `enqueue` copies the bytes where `enqueue_owned` moves them. -/
def enqueue (s : Scheduler α) (p : Priority) (data : α) (dst : Addr) :
    Scheduler α × List (Overflow α) :=
  s.enqueueLocked p data dst

/-- `enqueue_owned` -/
def enqueueOwned (s : Scheduler α) (p : Priority) (ownedData : α) (dst : Addr) :
    Scheduler α × List (Overflow α) :=
  s.enqueueLocked p ownedData dst

/-- The answer of the callback; without one every packet is accepted. -/
def answer (cb : Option (DrainCallback α)) (offers : List (PacketRecord α × Bool))
    (r : PacketRecord α) : Bool :=
  match cb with
  | none => true
  | some cb => cb (offers.map fun o => (o.1.priority, o.1.ownedData)) r.priority r.ownedData

/-- The loop both drains run over one queue, until `stops` holds of the packets sent so far. A packet
that is vetoed has left the queue. -/
def drainLoop (avgSize : UInt32) (cb : Option (DrainCallback α)) (stops : ℕ → Bool) :
    List (PacketRecord α) → Drain α → List (PacketRecord α) × Drain α
  | [], d => ([], d)
  | r :: q, d =>
    if stops d.sent then (r :: q, d)
    else if answer cb d.offers r then
      drainLoop avgSize cb stops q
        { sent := d.sent + 1
          sentTotal := d.sentTotal + 1
          sentBytesTotal := d.sentBytesTotal + (r.estimatedPacketBytes avgSize).toUInt64
          offers := d.offers ++ [(r, true)] }
    else (q, { d with offers := d.offers ++ [(r, false)] })

/-- The limit of one drain is reached. -/
def limited (s : Scheduler α) (sent : ℕ) : Bool :=
  0 < s.allowedPerDrain && s.allowedPerDrain.toNat ≤ sent

/-- The loop of `drain_with` over one class. -/
def drainQueue (s : Scheduler α) (maxPackets : ℤ) (cb : Option (DrainCallback α)) :
    List (PacketRecord α) → Drain α → List (PacketRecord α) × Drain α :=
  drainLoop s.config.avgPacketSizeBytes cb fun sent => ¬ (sent : ℤ) < maxPackets || s.limited sent

/-- The classes in turn, until the drain is full or stopped. -/
def drainQueues (s : Scheduler α) (maxPackets : ℤ) (cb : Option (DrainCallback α)) :
    List Priority → (Priority → List (PacketRecord α)) → Drain α →
      (Priority → List (PacketRecord α)) × Drain α
  | [], queues, d => (queues, d)
  | p :: ps, queues, d =>
    if d.sent < maxPackets then
      let (q, d) := s.drainQueue maxPackets cb (queues p) d
      let queues := Function.update queues p q
      if s.limited d.sent then (queues, d) else s.drainQueues maxPackets cb ps queues d
    else (queues, d)

/-- `drain_with`: the scheduler after it, and what it counted; it returns `sent`. -/
def drainWith (s : Scheduler α) (maxPackets : ℤ) (cb : Option (DrainCallback α)) :
    Scheduler α × Drain α :=
  let d : Drain α := { sentTotal := s.sentTotal, sentBytesTotal := s.sentBytesTotal }
  if maxPackets ≤ 0 then (s, d)
  else
    let (queues, d) := s.drainQueues maxPackets cb Priority.all s.queues d
    ({ s with queues, sentTotal := d.sentTotal, sentBytesTotal := d.sentBytesTotal }, d)

/-- `drain` -/
def drain (s : Scheduler α) (maxPackets : ℤ) : Scheduler α × Drain α := s.drainWith maxPackets none

/-- A class loses all it holds. -/
def dropQueue (s : Scheduler α) (p : Priority) : Scheduler α :=
  { s with
    droppedTotal := s.droppedTotal + UInt32.ofNat (s.queues p).length
    queues := Function.update s.queues p [] }

/-- The bytes a queue is taken to hold. -/
def queueBytes (s : Scheduler α) (p : Priority) : ℕ :=
  (s.queues p).length * s.config.avgPacketSizeBytes.toNat

def kDrainsPerSecond : ℕ := 8

/-- The bytes one drain may send at the target. -/
def budgetBytes (targetBps : UInt32) : ℕ := targetBps.toNat / 8 / kDrainsPerSecond

/-- Estimated bytes that wait outside the control class. -/
def totalNoncontrolBytes (s : Scheduler α) : ℕ := (Priority.nonControl.map s.queueBytes).sum

/-- The trim loop of `on_bwe_update`: each queue is kept whole or dropped whole. -/
def trim (s : Scheduler α) : List Priority → ℕ → Scheduler α
  | [], _ => s
  | p :: ps, remainingBudget =>
    if p = .control then s.trim ps remainingBudget
    else if s.queueBytes p ≤ remainingBudget then s.trim ps (remainingBudget - s.queueBytes p)
    else (s.dropQueue p).trim ps remainingBudget

/-- The target that `on_bwe_update` takes over before it drops anything. -/
def retarget (s : Scheduler α) (targetBps : UInt32) : Scheduler α :=
  { s with
    targetBps
    allowedPerDrain := bitsToPacketsPerSecond targetBps s.config.avgPacketSizeBytes }

/-- `on_bwe_update` -/
def onBweUpdate (s : Scheduler α) (targetBps : UInt32) : Scheduler α :=
  if targetBps = 0 then Priority.nonControl.foldl dropQueue (s.retarget targetBps)
  else if s.totalNoncontrolBytes ≤ budgetBytes targetBps then s.retarget targetBps
  else (s.retarget targetBps).trim Priority.all.reverse (budgetBytes targetBps)

/-- `reset` -/
def reset (s : Scheduler α) : Scheduler α := { config := s.config }

/-- `stats` -/
def stats (s : Scheduler α) : SchedulerStats where
  queuedPackets := UInt32.ofNat s.waiting.length
  droppedPackets := s.droppedTotal
  sentPackets := s.sentTotal
  sentBytes := s.sentBytesTotal
  targetBitrateBps := s.targetBps

/-! ### The stream layer -/

/-- `get_stream_priority`: normal for a stream never set. -/
def getStreamPriority (s : Scheduler α) (streamId : UInt32) : StreamPriority :=
  (s.streamPriority.lookup streamId).getD .normal

/-- `set_stream_priority`: the queued packets of the stream go behind those of its new bucket. -/
def setStreamPriority (s : Scheduler α) (streamId : UInt32) (level : StreamPriority) : Scheduler α :=
  let prev := s.getStreamPriority streamId
  let streamPriority := s.streamPriority.insert streamId level
  if prev = level then { s with streamPriority }
  else
    let moved := (s.streamBuckets prev).filter fun r => r.streamId = streamId
    let retained := (s.streamBuckets prev).filter fun r => r.streamId ≠ streamId
    let buckets := Function.update s.streamBuckets prev retained
    { s with
      streamPriority
      streamBuckets := Function.update buckets level (buckets level ++ moved) }

/-- `enqueue_for_stream_owned` -/
def enqueueForStreamOwned (s : Scheduler α) (streamId : UInt32) (ownedData : α) (dst : Addr) :
    Scheduler α :=
  let level := s.getStreamPriority streamId
  let streamPriority :=
    if streamId ∈ s.streamPriority then s.streamPriority
    else s.streamPriority.insert streamId .normal
  let lastDstAddr := if dst ≠ [] then dst else s.lastDstAddr
  let pkt : PacketRecord α := { streamId, ownedData, dstAddr := lastDstAddr }
  { s with
    streamPriority
    lastDstAddr
    streamBuckets := Function.update s.streamBuckets level (s.streamBuckets level ++ [pkt]) }

/-- `enqueue_for_stream` -/
def enqueueForStream (s : Scheduler α) (streamId : UInt32) (data : α) (dst : Addr) : Scheduler α :=
  s.enqueueForStreamOwned streamId data dst

/-- The loop of `drain` over one stream bucket. -/
def drainStreamBucket (s : Scheduler α) (maxPackets : ℤ) (cb : Option (DrainCallback α)) :
    List (PacketRecord α) → Drain α → List (PacketRecord α) × Drain α :=
  drainLoop s.config.avgPacketSizeBytes cb fun sent => ¬ (sent : ℤ) < maxPackets

/-- The loop of `select_next_packet` over the buckets. The drain counts over all of them, so that
`max_packets - sent` more from a bucket are `max_packets` in all. -/
def selectBuckets (s : Scheduler α) (maxPackets : ℤ) (cb : Option (DrainCallback α)) :
    List StreamPriority → (StreamPriority → List (PacketRecord α)) → Drain α →
      (StreamPriority → List (PacketRecord α)) × Drain α
  | [], buckets, d => (buckets, d)
  | b :: bs, buckets, d =>
    if d.sent < maxPackets then
      if buckets b = [] then s.selectBuckets maxPackets cb bs buckets d
      else
        let (q, d') := s.drainStreamBucket maxPackets cb (buckets b) d
        let buckets := Function.update buckets b q
        if d'.sent = d.sent then (buckets, d') else s.selectBuckets maxPackets cb bs buckets d'
    else (buckets, d)

/-- `select_next_packet`: the scheduler after it, and what it counted; it returns `sent`. -/
def selectNextPacket (s : Scheduler α) (maxPackets : ℤ) (cb : Option (DrainCallback α)) :
    Scheduler α × Drain α :=
  let d : Drain α := { sentTotal := s.streamSentTotal, sentBytesTotal := s.sentBytesTotal }
  if maxPackets ≤ 0 then (s, d)
  else
    let (streamBuckets, d) := s.selectBuckets maxPackets cb StreamPriority.all s.streamBuckets d
    ({ s with streamBuckets, streamSentTotal := d.sentTotal, sentBytesTotal := d.sentBytesTotal }, d)

end Scheduler

end NimRtc
