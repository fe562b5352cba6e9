import NimRtc.Arq
import NimRtc.Lib.Machine

/-!
# Two ARQ endpoints and the network between them

One endpoint sends, the other receives, and the network holds the datagrams on their way in each
direction. It may lose a datagram, duplicate it, and hand over any of those it holds, so every
loss, duplication and reordering of DATA and ACK frames is some run.

The endpoints only ever see 16-bit numbers. Beside them the model keeps the history a statement
about whole runs needs: the payload each number was handed out for, what has been pushed to
`rx_delivered_`, the numbers received, and the numbers an ACK took out of `tx_pending_`.
-/

namespace NimRtc

/-- The 16-bit reading of a count. -/
def seqOf (i : ℕ) : UInt16 := UInt16.ofNat i

/-- The latest of the first `n` numbers that reads `seq`. -/
def latestIndex (n : ℕ) (seq : UInt16) : ℕ := n - 1 - seqDiff (seqOf (n - 1)) seq

/-- The sequence number of a DATA frame. -/
def frameSeq : List UInt8 → Option UInt16
  | t :: b₁ :: b₂ :: _ :: _ =>
    if t = kFrameData then some (UInt16.ofNat (fromBytes [b₁, b₂])) else none
  | _ => none

/-- The receiver delivers or keeps a DATA frame of this number: it is the first, or it is past
the base and the window does not turn it away. -/
def ArqRawUdp.accepts (a : ArqRawUdp) (seq : UInt16) : Bool :=
  !a.rxInitialized ||
    (decide (seq ≠ a.rxBaseSeq) && seqInWindow seq a.rxBaseSeq a.cfg.rxWindowPackets
      && seqAfter seq a.rxBaseSeq)

/-- Two endpoints, with the datagrams in flight between them and the payloads that were handed over.
-/
structure Net where
  sender : ArqRawUdp
  receiver : ArqRawUdp
  senderAddr : Endpoint
  receiverAddr : Endpoint
  toReceiver : List (List UInt8) := []
  toSender : List (List UInt8) := []
  /-- For each number taken from the counter, the payload of the `send` that took it, or `none`
  where that `send` failed. -/
  handed : List (Option (List UInt8)) := []
  /-- Everything pushed to the receiver's `rx_delivered_`, also what `recv` has handed out. -/
  pushed : List (List UInt8) := []
  /-- The number of the first DATA frame received. -/
  first : ℕ := 0
  /-- The numbers of the DATA frames the receiver accepted. -/
  received : List ℕ := []
  /-- The numbers of the packets an ACK removed from `tx_pending_`. -/
  acked : List ℕ := []

/-- What may happen next: a call of the sender, a round of its retransmission, or what the network
does. -/
inductive NetEvent
  | send (dst : Endpoint) (data : List UInt8) (now : ℤ)
  | tick (now : ℤ)
  | loseData (k : ℕ)
  | loseAck (k : ℕ)
  | dupData (k : ℕ)
  | dupAck (k : ℕ)
  | deliverData (k : ℕ)
  | deliverAck (k : ℕ)
  | recv
  deriving DecidableEq, Repr

namespace Net

/-- The two endpoints opened, with any configurations, and nothing sent. -/
def init (cs cr : RawUdpConfig) (senderAddr receiverAddr : Endpoint) : Net where
  sender := (ArqRawUdp.open { cfg := cs } true).2
  receiver := (ArqRawUdp.open { cfg := cr } true).2
  senderAddr := senderAddr
  receiverAddr := receiverAddr

/-- What of some datagrams goes to `addr`. -/
def route (addr : Endpoint) (out : List Datagram) : List (List UInt8) :=
  (out.filter fun d => d.1 = addr).map (·.2)

/-- The sender is given a payload. -/
def send (n : Net) (dst : Endpoint) (data : List UInt8) (now : ℤ) : Net :=
  let (st, a, out) := n.sender.send dst data now
  { n with
    sender := a
    toReceiver := n.toReceiver ++ route n.receiverAddr out
    handed := n.handed ++
      (if st = .ok then [some data] else if a.txSeq = n.sender.txSeq then [] else [none]) }

/-- A round of the retransmission. -/
def tick (n : Net) (now : ℤ) : Net :=
  let (a, out) := n.sender.retransmitTick now
  { n with sender := a, toReceiver := n.toReceiver ++ route n.receiverAddr out }

/-- The receiver takes the `k`-th datagram on its way to it. -/
def deliverData (n : Net) (k : ℕ) : Net :=
  match n.toReceiver[k]? with
  | none => n
  | some f =>
    let (a, out) := n.receiver.recvMain n.senderAddr f
    let taken := ((frameSeq f).filter n.receiver.accepts).map (latestIndex n.handed.length)
    { n with
      receiver := a
      toReceiver := n.toReceiver.eraseIdx k
      toSender := n.toSender ++ route n.senderAddr out
      pushed := n.pushed ++ a.rxDelivered.drop n.receiver.rxDelivered.length
      first := if n.receiver.rxInitialized then n.first else taken.getD n.first
      received := n.received ++ taken.toList }

/-- The sender takes the `k`-th datagram on its way to it. -/
def deliverAck (n : Net) (k : ℕ) : Net :=
  match n.toSender[k]? with
  | none => n
  | some f =>
    let (a, out) := n.sender.recvMain n.receiverAddr f
    { n with
      sender := a
      toSender := n.toSender.eraseIdx k
      toReceiver := n.toReceiver ++ route n.receiverAddr out
      acked := n.acked ++ (n.sender.txPending.filter (· ∉ a.txPending)).map
        (latestIndex n.handed.length ·.seq) }

/-- One event of the network. -/
def step (n : Net) : NetEvent → Net
  | .send dst data now => n.send dst data now
  | .tick now => n.tick now
  | .loseData k => { n with toReceiver := n.toReceiver.eraseIdx k }
  | .loseAck k => { n with toSender := n.toSender.eraseIdx k }
  | .dupData k => { n with toReceiver := n.toReceiver ++ n.toReceiver[k]?.toList }
  | .dupAck k => { n with toSender := n.toSender ++ n.toSender[k]?.toList }
  | .deliverData k => n.deliverData k
  | .deliverAck k => n.deliverAck k
  | .recv => { n with receiver := n.receiver.recv.2 }

def machine : Machine Net NetEvent Empty := ⟨fun n e => (n.step e, [])⟩

/-- The state a run from `n` ends in. -/
def run (n : Net) (es : List NetEvent) : Net := (machine.exec n es).1

/-- The payloads of the successful `send` calls, in order. -/
def sent (n : Net) : List (List UInt8) := n.handed.reduceOption

/-- `f` is the DATA frame of the `i`-th number. -/
def Names (n : Net) (i : ℕ) (f : List UInt8) : Prop :=
  ∃ p, n.handed[i]? = some (some p) ∧ f = buildDataFrame (seqOf i) p

/-- The `i`-th number is one of the last `2^15 - 1` handed out. -/
def Recent (n : Net) (i : ℕ) : Prop := i < n.handed.length ∧ n.handed.length < i + 2 ^ 15

/-- Fewer than `2^15` packets are in flight. A packet is in flight while a DATA frame of it is on
its way, while it is in `tx_pending_`, or while it is not delivered, and the packets between two
in flight count with them: from the oldest to the newest there are fewer than `2^15` numbers. -/
def FewInFlight (n : Net) : Prop :=
  (∀ f ∈ n.toReceiver, ∃ i, n.Recent i ∧ n.Names i f)
    ∧ (∀ q ∈ n.sender.txPending, ∃ i, n.Recent i ∧ n.Names i q.framed)
    ∧ n.handed.length < n.first + n.pushed.length + 2 ^ 15

/-- The first DATA frame the receiver takes is the sender's first. -/
def FirstIsFirst (n : Net) : NetEvent → Prop
  | .deliverData k =>
    ∀ f, n.toReceiver[k]? = some f → n.receiver.rxInitialized = false → n.Names 0 f
  | _ => True

/-- `rx_buffer_` does not hold the numbers `seq, ..., seq + m` when the frame numbered `seq`
arrives in order. -/
def InOrderUnbuffered (m : ℕ) (n : Net) : NetEvent → Prop
  | .deliverData k =>
    ∀ seq, n.toReceiver[k]?.bind frameSeq = some seq → n.receiver.rxInitialized = true →
      seq = n.receiver.rxBaseSeq + 1 → ∀ d ≤ m, seq + seqOf d ∉ n.receiver.rxBuffer
  | _ => True

instance (n : Net) (i : ℕ) (f : List UInt8) : Decidable (n.Names i f) :=
  match h : n.handed[i]? with
  | some (some p) =>
    decidable_of_iff (f = buildDataFrame (seqOf i) p) (by simp [Names, h])
  | some none => .isFalse (by simp [Names, h])
  | none => .isFalse (by simp [Names, h])

instance (n : Net) (f : List UInt8) : Decidable (∃ i, n.Recent i ∧ n.Names i f) :=
  decidable_of_iff (∃ i < n.handed.length, n.handed.length < i + 2 ^ 15 ∧ n.Names i f)
    (by simp [Recent, and_assoc])

instance (n : Net) : Decidable n.FewInFlight := inferInstanceAs (Decidable (_ ∧ _ ∧ _))

instance (n : Net) : (e : NetEvent) → Decidable (n.FirstIsFirst e)
  | .deliverData k => Option.decidableForallMem n.toReceiver[k]?
  | .send .. | .tick _ | .loseData _ | .loseAck _ | .dupData _ | .dupAck _ | .deliverAck _
  | .recv => .isTrue trivial

instance (m : ℕ) (n : Net) : (e : NetEvent) → Decidable (n.InOrderUnbuffered m e)
  | .deliverData k => Option.decidableForallMem (n.toReceiver[k]?.bind frameSeq)
  | .send .. | .tick _ | .loseData _ | .loseAck _ | .dupData _ | .dupAck _ | .deliverAck _
  | .recv => .isTrue trivial

/-- The payload of the `i`-th number stands at its place among those pushed. -/
def Pushed (n : Net) (i : ℕ) : Prop :=
  ∃ p, n.handed[i]? = some (some p) ∧ n.pushed[i - n.first]? = some p

/-- Once the numbers from the first received to `s` are received, those up to `s` that an ACK took
out of `tx_pending_` are pushed. -/
def AcksTruthful (n : Net) : Prop :=
  ∀ s, (∀ i, n.first ≤ i → i ≤ s → i ∈ n.received) →
    ∀ i ∈ n.acked, n.first ≤ i → i ≤ s → n.Pushed i

end Net

end NimRtc
