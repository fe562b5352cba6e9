import NimRtc.Lib.Machine

/-!
# Reading a WebTransport stream

The inbound queue of `MsQuicBidiStream`, from `web_transport_msquic_session.cpp`: msquic puts in what
it received, and `recv` takes it out. A call returns one number, which is a count of bytes or one of
the codes of `plugins/base.hpp`.
-/

namespace NimRtc

/-- The status codes of the plugins. -/
def kOk : UInt32 := 0x0000

def kErrInvalidParam : UInt32 := 0x1001

def kErrNotReady : UInt32 := 0x1002

def kErrBufferTooSmall : UInt32 := 0x1003

def kErrCorrupt : UInt32 := 0x1004

def kErrUnsupported : UInt32 := 0x1005

def kErrHardwareError : UInt32 := 0x1006

def kErrClosed : UInt32 := 0x1007

def kErrInternal : UInt32 := 0x1FFF

/-- All of the codes that say what went wrong. -/
def kErrCodes : List UInt32 :=
  [kErrInvalidParam, kErrNotReady, kErrBufferTooSmall, kErrCorrupt, kErrUnsupported,
    kErrHardwareError, kErrClosed, kErrInternal]

/-- The receiving side of a bidirectional stream. -/
structure MsQuicBidiStream where
  isOpen : Bool := true
  recvQueue : List (List UInt8) := []
  recvFinSeen : Bool := false
  deriving DecidableEq

namespace MsQuicBidiStream

/-- The status, and the bytes at the front of `out`, of which there are `outSize`. -/
def recv (s : MsQuicBidiStream) (outSize : ℕ) : MsQuicBidiStream × UInt32 × List UInt8 :=
  if ¬ s.isOpen then (s, kErrNotReady, [])
  else
    match s.recvQueue with
    | [] => (s, if s.recvFinSeen then kErrClosed else kOk, [])
    | front :: rest =>
      let n := min outSize front.length
      let recvQueue := if n < front.length then front.drop n :: rest else rest
      ({ s with recvQueue },
        if 2 ^ 32 - 1 < n then kErrBufferTooSmall else UInt32.ofNat n, front.take n)

/-- The bytes of a RECEIVE event go to the buffer. -/
def onReceive (s : MsQuicBidiStream) (bytes : List UInt8) (fin : Bool) : MsQuicBidiStream :=
  if ¬ s.isOpen then s
  else { s with recvQueue := s.recvQueue ++ [bytes], recvFinSeen := s.recvFinSeen || fin }

/-- The peer has sent all it has. -/
def onPeerSendShutdown (s : MsQuicBidiStream) : MsQuicBidiStream := { s with recvFinSeen := true }

end MsQuicBidiStream

/-! ### A caller -/

/-- A caller that takes the codes for what they stand for and every other number for a count, with
what it has put together. What has arrived is kept for comparison only. -/
structure StreamReader where
  stream : MsQuicBidiStream := {}
  got : List UInt8 := []
  arrived : List UInt8 := []
  finArrived : Bool := false
  deriving DecidableEq

/-- What happens to the stream between two reads, and a read. -/
inductive StreamEvent
  | onReceive (chunk : List UInt8) (fin : Bool)
  | onPeerSendShutdown
  | recv (outSize : ℕ)

namespace StreamReader

/-- The caller reads with room for `outSize` bytes, and keeps what it gets. -/
def readInto (r : StreamReader) (outSize : ℕ) : StreamReader × UInt32 :=
  let (stream, status, out) := r.stream.recv outSize
  ({ r with
      stream
      got := if status ∈ kErrCodes then r.got else r.got ++ out.take status.toNat }, status)

/-- A read reports its status and the state it was made in. -/
def step (r : StreamReader) : StreamEvent → StreamReader × List (UInt32 × StreamReader)
  | .onReceive chunk fin =>
    ({ r with
        stream := r.stream.onReceive chunk fin
        arrived := r.arrived ++ chunk
        finArrived := r.finArrived || fin }, [])
  | .onPeerSendShutdown =>
    ({ r with stream := r.stream.onPeerSendShutdown, finArrived := true }, [])
  | .recv outSize =>
    let (next, status) := r.readInto outSize
    (next, [(status, r)])

def machine : Machine StreamReader StreamEvent (UInt32 × StreamReader) := ⟨step⟩

/-- What the caller has is how the data begins, and the rest is in the queue. -/
def NoByteLost (r : StreamReader) : Prop := r.got ++ r.stream.recvQueue.flatten = r.arrived

/-- The caller is told of the end when it is there. -/
def ClosesAtEnd (read : UInt32 × StreamReader) : Prop :=
  read.1 = kErrClosed → read.2.finArrived = true ∧ read.2.got = read.2.arrived

/-- What a read is about to copy is not as many bytes as a code, and the count fits the status. -/
def Unambiguous (r : StreamReader) : StreamEvent → Prop
  | .recv outSize =>
    ∀ front ∈ r.stream.recvQueue.head?,
      min outSize front.length < 2 ^ 32 ∧ min outSize front.length ∉ kErrCodes.map UInt32.toNat
  | _ => True

end StreamReader

end NimRtc
