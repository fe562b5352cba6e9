import NimRtc.Lib.Machine

/-!
# The state of an SCTP socket

`UsrsctpSocket` of `usrsctp_socket.cpp` as a state machine of its critical sections. A call of
`listen()` or `connect()` has two of them, one that checks the state and one that stores the next, and
usrsctp's worker thread may deliver a notification in between. What usrsctp answers to the calls
between the two is the environment's.
-/

namespace NimRtc

/-- `UsrsctpSocketState` -/
inductive UsrsctpSocketState
  | unbound
  | listening
  | connecting
  | established
  | closed
  deriving DecidableEq, Repr

/-- The calls that start an association. -/
inductive StartCall
  | listen
  | connect
  deriving DecidableEq, Repr

/-- The state a start call stores when it succeeds. -/
def StartCall.next : StartCall → UsrsctpSocketState
  | .listen => .listening
  | .connect => .connecting

namespace Usrsctp

def SCTP_ASSOC_CHANGE : UInt16 := 0x0001

def SCTP_COMM_UP : UInt16 := 0x0001
def SCTP_COMM_LOST : UInt16 := 0x0002
def SCTP_RESTART : UInt16 := 0x0003
def SCTP_SHUTDOWN_COMP : UInt16 := 0x0004
def SCTP_CANT_STR_ASSOC : UInt16 := 0x0005

/-- `sizeof(struct sctp_tlv)`. -/
def sizeofTlv : ℕ := 8

/-- `sizeof(struct sctp_assoc_change)`. -/
def sizeofAssocChange : ℕ := 20

/-- A notification: how long it is, and the fields that are read if it is long enough. -/
structure Notification where
  datalen : ℕ
  snType : UInt16
  sacState : UInt16
  deriving DecidableEq, Repr

end Usrsctp

open Usrsctp

/-- The socket, the calls that are between their two sections, and what has happened to it. -/
structure SocketRun where
  /-- `sock_` is there. -/
  sock : Bool := true
  state : UsrsctpSocketState := .unbound
  starting : List StartCall := []
  commUp : Bool := false
  wasClosed : Bool := false
  deriving DecidableEq, Repr

/-- What may happen next: a locked section of a start call, or a notification. -/
inductive SocketEvent
  /-- The first section of a call. -/
  | check (c : StartCall)
  /-- A call returns an error after its first section. -/
  | fail (c : StartCall)
  /-- The second section of a call. -/
  | store (c : StartCall)
  | notification (n : Notification)
  | close
  deriving DecidableEq, Repr

namespace SocketRun

/-- The new state is stored; a closed socket is remembered. -/
def transitionTo (s : SocketRun) (next : UsrsctpSocketState) : SocketRun :=
  { s with state := next, wasClosed := s.wasClosed || next = .closed }

/-- `handle_notification` -/
def handleNotification (s : SocketRun) (n : Notification) : SocketRun :=
  if n.datalen < sizeofTlv then s
  else if n.snType ≠ SCTP_ASSOC_CHANGE then s
  else if n.datalen < sizeofAssocChange then s
  else if n.sacState = SCTP_COMM_UP then { s.transitionTo .established with commUp := true }
  else if n.sacState = SCTP_COMM_LOST ∨ n.sacState = SCTP_CANT_STR_ASSOC then s.transitionTo .closed
  else if n.sacState = SCTP_SHUTDOWN_COMP then s.transitionTo .closed
  else s

/-- `wait_for_established` does not wait any longer. -/
def Awaited (s : SocketRun) : Prop := s.state = .established ∨ s.state = .closed

/-- One locked section. -/
def step (s : SocketRun) : SocketEvent → SocketRun
  | .check c =>
    if s.state ≠ .unbound ∨ s.sock = false then s else { s with starting := c :: s.starting }
  | .fail c => { s with starting := s.starting.erase c }
  | .store c =>
    if c ∈ s.starting then
      { s with state := c.next, starting := s.starting.erase c }
    else s
  | .notification n => s.handleNotification n
  | .close => if s.state = .closed then s else s.transitionTo .closed

/-- The socket under any interleaving of its locked sections. -/
def sections : Machine SocketRun SocketEvent Empty := ⟨fun s e => (s.step e, [])⟩

/-- An association that is up is not waited for, and a socket that is closed stays closed. -/
structure Monotone (s : SocketRun) : Prop where
  up : s.commUp = true → s.state ≠ .listening ∧ s.state ≠ .connecting ∧ s.Awaited
  closed : s.wasClosed = true → s.state = .closed

/-- The notification says that the association is up. -/
def Notification.IsUp (n : Notification) : Prop :=
  sizeofAssocChange ≤ n.datalen ∧ n.snType = SCTP_ASSOC_CHANGE ∧ n.sacState = SCTP_COMM_UP

/-- No call stores its state over one that was reached after its check, and no association comes up
on a socket that is closed. -/
def Undisturbed (s : SocketRun) : SocketEvent → Prop
  | .store c => c ∈ s.starting → s.state ≠ .established ∧ s.state ≠ .closed
  | .notification n => Notification.IsUp n → s.state ≠ .closed
  | .check _ | .fail _ | .close => True

end SocketRun

end NimRtc
