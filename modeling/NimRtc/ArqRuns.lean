import NimRtc.Arq
import NimRtc.Lib.Machine

/-!
# Runs of one ARQ endpoint

What is seen of a run is the sequence numbers of the packets that `send` accepts, as they are put into
`tx_pending_`.
-/

namespace NimRtc.ArqRawUdp

/-- `close`: the windows are emptied. -/
def close (a : ArqRawUdp) : ArqRawUdp :=
  if a.opened then
    { a with
      opened := false, socket := false, rxDelivered := [], rxBuffer := ∅, txPending := [] }
  else a

/-- The calls on an endpoint, and the turns of its two threads. -/
inductive Op
  | «open» (socketOk : Bool)
  | close
  | send (dst : Endpoint) (data : List UInt8) (now : ℤ)
  /-- `recv_main` reads a datagram. -/
  | datagram (peer : Endpoint) (frame : List UInt8)
  /-- `retransmit_main` wakes up. -/
  | tick (now : ℤ)
  | recv

/-- One call; reported are the numbers of the frames that are queued. -/
def opStep (a : ArqRawUdp) : Op → ArqRawUdp × List UInt16
  | .open socketOk => ((a.open socketOk).2, [])
  | .close => (a.close, [])
  | .send dst data now =>
    let after := (a.send dst data now).2.1
    (after, (after.txPending.drop a.txPending.length).map (·.seq))
  | .datagram peer frame => ((a.recvMain peer frame).1, [])
  | .tick now => ((a.retransmitTick now).1, [])
  | .recv => (a.recv.2, [])

def machine : Machine ArqRawUdp Op UInt16 := ⟨opStep⟩

/-- A `send` that fails takes no sequence number, keeps no packet and puts nothing on the wire. -/
def Atomic (a : ArqRawUdp) (dst : Endpoint) (data : List UInt8) (now : ℤ) : Prop :=
  (a.send dst data now).1 ≠ .ok →
    (a.send dst data now).2.1.txSeq = a.txSeq
      ∧ (a.send dst data now).2.1.txPending = a.txPending ∧ (a.send dst data now).2.2 = []

/-- As many packets as the window allows are not acknowledged, and `send` gets as far as that. -/
def WindowFull (a : ArqRawUdp) (dst : Endpoint) (data : List UInt8) : Prop :=
  a.opened = true ∧ data.length + kDataHeaderBytes ≤ kMaxDatagramBytes
    ∧ (dst ≠ [] ∨ a.peerEndpoint ≠ [] ∨ a.cfg.enableRealSocket = false)
    ∧ a.cfg.rxWindowPackets.toNat ≤ a.txPending.length

instance decidableWindowFull (a : ArqRawUdp) (dst : Endpoint) (data : List UInt8) :
    Decidable (a.WindowFull dst data) :=
  inferInstanceAs (Decidable (_ ∧ _))

/-- A `send` does not meet a full window. -/
def Op.FindsRoom (a : ArqRawUdp) : Op → Prop
  | .send dst data _ => ¬ a.WindowFull dst data
  | _ => True

instance Op.decidableFindsRoom (a : ArqRawUdp) : ∀ op : Op, Decidable (op.FindsRoom a)
  | .send _ _ _ => inferInstanceAs (Decidable (¬ _))
  | .open _ | .close | .datagram _ _ | .tick _ | .recv => .isTrue trivial

/-- Each number is the one after the one before it. -/
def Consecutive : UInt16 → List UInt16 → Prop
  | _, [] => True
  | next, seq :: seqs => seq = next ∧ Consecutive (next + 1) seqs

end NimRtc.ArqRawUdp
