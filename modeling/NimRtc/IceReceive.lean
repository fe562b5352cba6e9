import NimRtc.Lib.History

/-!
# The receive queue of the ICE transport

`juice_recv_cb`, `set_callbacks`, `recv` and `last_recv_packet` of `ice.cpp`. A call of `recv` takes the
whole queue in its critical section and passes the packets on after it, so that anything may happen
in between, other calls of `recv` among it. The calls are told apart by numbers, and a callback stands
for the function that was registered.
-/

namespace NimRtc

namespace Ice

/-- The bytes of a datagram. -/
abbrev Datagram := List UInt8

/-- A call of `recv` after its critical section. -/
structure RecvCall where
  cb : Option ℕ
  /-- What it has not passed on of `drained`. -/
  drained : List Datagram
  dispatched : ℕ := 0
  deriving DecidableEq, Repr

/-- The queue of received datagrams, the callback, and the calls of `recv` that are under way. -/
structure ReceiveQueue where
  rxQueue : List Datagram := []
  recvCb : Option ℕ := none
  calls : ℕ → Option RecvCall := fun _ => none
  nextCall : ℕ := 0

/-- What happens to the queue, each critical section by itself. -/
inductive ReceiveEvent
  /-- `juice_recv_cb`. -/
  | arrives (data : Datagram)
  | setCallbacks (onRecv : Option ℕ)
  /-- The critical section of `recv`. -/
  | recv
  /-- A call passes on the next packet. -/
  | dispatch (call : ℕ)
  | recvReturns (call : ℕ)
  | lastRecvPacket
  deriving DecidableEq, Repr

/-- The datagram that arrives with an event. -/
def ReceiveEvent.datagram : ReceiveEvent → Option Datagram
  | .arrives data => some data
  | _ => none

/-- What comes in and what is passed on. -/
inductive ReceiveReport
  | arrived (data : Datagram)
  | took (call : ℕ) (cb : Option ℕ) (data : List Datagram)
  | passed (call cb : ℕ) (data : Datagram)
  | recvReturned (call n : ℕ)
  | returned (data : Datagram)
  deriving DecidableEq, Repr

namespace ReceiveQueue

/-- `juice_recv_cb`: the datagram is queued. -/
def juiceRecvCb (s : ReceiveQueue) (data : Datagram) : ReceiveQueue × List ReceiveReport :=
  ({ s with rxQueue := s.rxQueue ++ [data] }, [.arrived data])

/-- The critical section of `recv`: the queue is taken, with the callback of that time. -/
def recv (s : ReceiveQueue) : ReceiveQueue × List ReceiveReport :=
  let s' := { s with nextCall := s.nextCall + 1 }
  if s.rxQueue = [] then (s', [.recvReturned s.nextCall 0])
  else
    ({ s' with
        rxQueue := []
        calls := Function.update s.calls s.nextCall (some ⟨s.recvCb, s.rxQueue, 0⟩) },
      [.took s.nextCall s.recvCb s.rxQueue])

/-- A call of `recv` passes its next datagram on. -/
def dispatch (s : ReceiveQueue) (call : ℕ) : ReceiveQueue × List ReceiveReport :=
  match s.calls call with
  | some ⟨some cb, data :: drained, dispatched⟩ =>
    ({ s with calls := Function.update s.calls call (some ⟨some cb, drained, dispatched + 1⟩) },
      [.passed call cb data])
  | _ => (s, [])

/-- A call returns when it has passed on what it took, or has no callback to pass it to. -/
def recvReturns (s : ReceiveQueue) (call : ℕ) : ReceiveQueue × List ReceiveReport :=
  match s.calls call with
  | some c =>
    if c.cb.isSome && c.drained ≠ [] then (s, [])
    else
      ({ s with calls := Function.update s.calls call none }, [.recvReturned call c.dispatched])
  | none => (s, [])

/-- `last_recv_packet` -/
def lastRecvPacket (s : ReceiveQueue) : ReceiveQueue × List ReceiveReport :=
  match s.rxQueue with
  | [] => (s, [])
  | data :: rest => ({ s with rxQueue := rest }, [.returned data])

/-- One event. -/
def step (s : ReceiveQueue) : ReceiveEvent → ReceiveQueue × List ReceiveReport
  | .arrives data => s.juiceRecvCb data
  | .setCallbacks onRecv => ({ s with recvCb := onRecv }, [])
  | .recv => s.recv
  | .dispatch call => s.dispatch call
  | .recvReturns call => s.recvReturns call
  | .lastRecvPacket => s.lastRecvPacket

/-- The queue along the events. -/
def receiving : Machine ReceiveQueue ReceiveEvent ReceiveReport := ⟨step⟩

/-- What a call that has found a callback still has to pass on. -/
def toPass (s : ReceiveQueue) (call : ℕ) : List Datagram :=
  match s.calls call with
  | some ⟨some _, drained, _⟩ => drained
  | _ => []

end ReceiveQueue

namespace ReceiveReport

/-- The datagrams that came in. -/
def arrivals : List ReceiveReport → List Datagram := List.filterMap fun
  | .arrived data => some data
  | _ => none

/-- What has left the queue, by `recv` or by `last_recv_packet`. -/
def departures : List ReceiveReport → List Datagram := List.flatMap fun
  | .took _ _ data => data
  | .returned data => [data]
  | _ => []

/-- What a call took while a callback was registered. -/
def takenBy (call : ℕ) : List ReceiveReport → List Datagram := List.flatMap fun
  | .took call' (some _) data => if call' = call then data else []
  | _ => []

/-- The datagrams that a call of `recv` has passed on. -/
def passedBy (call : ℕ) : List ReceiveReport → List Datagram := List.filterMap fun
  | .passed call' _ data => if call' = call then some data else none
  | _ => none

end ReceiveReport

open ReceiveReport in
/-- The datagrams leave the queue in the order of their arrival, each once. A call passes on what it
took while a callback was registered, each datagram once and in order, to that callback; when it has
returned it has passed on all of it, and said how many there were. -/
structure Conserved (s : ReceiveQueue) (out : List ReceiveReport) : Prop where
  queue : departures out ++ s.rxQueue = arrivals out
  passes : ∀ call, passedBy call out ++ s.toPass call = takenBy call out
  callback : ∀ call cb data, .passed call cb data ∈ out → ∃ taken, .took call (some cb) taken ∈ out
  counts : ∀ call n, .recvReturned call n ∈ out →
    n = (passedBy call out).length ∧ passedBy call out = takenBy call out

end Ice

end NimRtc
