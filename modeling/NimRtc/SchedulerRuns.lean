import NimRtc.Lib.Machine
import NimRtc.Scheduler

/-!
# Runs of the scheduler

The calls on a `Scheduler` in any order. Beside the scheduler a run keeps, since its construction
or the last `reset`, how many packets were queued by priority, and which were queued for and
emitted from the streams.
-/

namespace NimRtc

/-- A call on the scheduler. -/
inductive SchedulerCall (α : Type*)
  | enqueue (p : Priority) (data : α) (dst : Addr)
  | enqueueOwned (p : Priority) (data : α) (dst : Addr)
  | drain (maxPackets : ℤ)
  | drainWith (maxPackets : ℤ) (cb : DrainCallback α)
  | onBweUpdate (targetBps : UInt32)
  | reset
  | setStreamPriority (streamId : UInt32) (level : StreamPriority)
  | enqueueForStream (streamId : UInt32) (data : α) (dst : Addr)
  | enqueueForStreamOwned (streamId : UInt32) (data : α) (dst : Addr)
  | selectNextPacket (maxPackets : ℤ) (cb : DrainCallback α)

/-- A callback of the call takes every packet it is offered. -/
def SchedulerCall.Accepts {α : Type*} : SchedulerCall α → Prop
  | .drainWith _ cb | .selectNextPacket _ cb => ∀ history p data, cb history p data = true
  | _ => True

/-- The priorities of the streams after a call that may set one. -/
def SchedulerCall.setLevel {α : Type*} (levels : UInt32 → StreamPriority) :
    SchedulerCall α → UInt32 → StreamPriority
  | .setStreamPriority streamId level => Function.update levels streamId level
  | .reset => fun _ => .normal
  | _ => levels

/-- The scheduler, with what was put into it and what came out of it. -/
structure SchedulerRun (α : Type*) where
  sched : Scheduler α
  /-- How many packets `enqueue` and `enqueue_owned` were given. -/
  enqueued : ℕ := 0
  streamed : List (PacketRecord α) := []
  emitted : List (PacketRecord α) := []

namespace Drain

variable {α : Type*}

/-- The packets of a drain that its callback took. -/
def accepted (d : Drain α) : List (PacketRecord α) := (d.offers.filter (·.2)).map (·.1)

end Drain

namespace Scheduler

variable {α : Type*}

/-- The packet `enqueue_for_stream_owned` queues. -/
def streamRecord (s : Scheduler α) (streamId : UInt32) (data : α) (dst : Addr) : PacketRecord α :=
  { streamId, ownedData := data, dstAddr := if dst ≠ [] then dst else s.lastDstAddr }

end Scheduler

namespace SchedulerRun

variable {α : Type*}

/-- One call, and what it adds to the history. -/
def step (r : SchedulerRun α) : SchedulerCall α → SchedulerRun α
  | .enqueue p data dst =>
    { r with sched := (r.sched.enqueue p data dst).1, enqueued := r.enqueued + 1 }
  | .enqueueOwned p data dst =>
    { r with sched := (r.sched.enqueueOwned p data dst).1, enqueued := r.enqueued + 1 }
  | .drain maxPackets => { r with sched := (r.sched.drain maxPackets).1 }
  | .drainWith maxPackets cb => { r with sched := (r.sched.drainWith maxPackets (some cb)).1 }
  | .onBweUpdate targetBps => { r with sched := r.sched.onBweUpdate targetBps }
  | .reset => { sched := r.sched.reset }
  | .setStreamPriority streamId level =>
    { r with sched := r.sched.setStreamPriority streamId level }
  | .enqueueForStream streamId data dst =>
    { r with
      sched := r.sched.enqueueForStream streamId data dst
      streamed := r.streamed ++ [r.sched.streamRecord streamId data dst] }
  | .enqueueForStreamOwned streamId data dst =>
    { r with
      sched := r.sched.enqueueForStreamOwned streamId data dst
      streamed := r.streamed ++ [r.sched.streamRecord streamId data dst] }
  | .selectNextPacket maxPackets cb =>
    let (sched, d) := r.sched.selectNextPacket maxPackets (some cb)
    { r with sched, emitted := r.emitted ++ d.accepted }

/-- The scheduler under a list of calls. -/
def machine : Machine (SchedulerRun α) (SchedulerCall α) Empty := ⟨fun r c => (r.step c, [])⟩

/-- A run that starts from `create`. -/
def fresh (config : SchedulerConfig) : SchedulerRun α := { sched := .create config }

/-- Where a list of calls on a new scheduler ends. -/
def run (config : SchedulerConfig) (calls : List (SchedulerCall α)) : SchedulerRun α :=
  (machine.exec (fresh config) calls).1

end SchedulerRun

namespace Scheduler

variable {α : Type*}

/-! ### Congestion -/

/-- Where a queue lost a packet every queue of a lower priority is empty, and the control queue is
as it was. -/
def DropsLowestFirst (s s' : Scheduler α) : Prop :=
  (∀ p, s'.queues p ≠ s.queues p → ∀ q : Priority, p.rank < q.rank → s'.queues q = [])
    ∧ s'.queues .control = s.queues .control

/-- From the lowest priority up, each queue that is not empty is past the budget by itself, until
the rest fit it together. -/
def SplitsAtBudget (s : Scheduler α) (budget : ℕ) (ps : List Priority) : Prop :=
  ∃ below above, ps = below ++ above ∧ (∀ p ∈ below, s.queues p = [] ∨ budget < s.queueBytes p)
    ∧ (above.map s.queueBytes).sum ≤ budget

/-! ### Overflow -/

/-- `total_queued` has reached `max_queue_depth`. -/
def Full (s : Scheduler α) : Prop := s.config.maxQueueDepth ≤ s.totalQueued

instance (s : Scheduler α) : Decidable s.Full := inferInstanceAs (Decidable (_ ≤ _))

/-- There is a packet that may be evicted for one of priority `p`. -/
def Evictable (s : Scheduler α) (p : Priority) : Prop :=
  ∃ q, s.queues q ≠ [] ∧ q ≠ .control ∧ p.rank ≤ q.rank

/-- No packet of `out` is evicted for one of priority `p` that is a control packet or more
important, and where there are only such packets the incoming one is discarded. -/
def SparesImportant (s : Scheduler α) (p : Priority) (out : List (Overflow α)) : Prop :=
  (∀ q r, .evicted q r ∈ out → q ≠ .control ∧ p.rank ≤ q.rank)
    ∧ (s.Full → ¬ s.Evictable p → out = [.refused])

/-! ### Draining -/

/-- The most packets one drain may emit from the classes. -/
def drainLimit (s : Scheduler α) (maxPackets : ℤ) : ℕ :=
  if 0 < s.allowedPerDrain then min maxPackets.toNat s.allowedPerDrain.toNat else maxPackets.toNat

/-- The callback accepts each of the packets a drain may send when the ones before it have been
accepted. -/
def NoVeto (s : Scheduler α) (maxPackets : ℤ) (cb : DrainCallback α) : Prop :=
  ∀ j r, j < s.drainLimit maxPackets → s.waiting[j]? = some r →
    cb ((s.waiting.take j).map fun r => (r.priority, r.ownedData)) r.priority r.ownedData = true

/-- What `drain_with` does when it follows its contract. -/
structure KeepsVetoed (s s' : Scheduler α) (d : Drain α) : Prop where
  /-- The packets are offered in the order they wait in. -/
  inOrder : d.offers.map (·.1) <+: s.waiting
  /-- Nothing is offered after a veto. -/
  stops : ∀ o ∈ d.offers.dropLast, o.2 = true
  /-- What is not accepted stays. -/
  stays : s'.waiting = s.waiting.drop d.accepted.length
  suffix : ∀ p, s'.queues p <:+ s.queues p
  /-- The return value, the count of packets sent and what has left are the accepted packets. -/
  returned : d.sent = d.accepted.length
  sentPackets : s'.stats.sentPackets = s.stats.sentPackets + UInt32.ofNat d.accepted.length
  removed : s'.waiting.length + d.accepted.length = s.waiting.length

end Scheduler

end NimRtc
