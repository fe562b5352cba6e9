import NimRtc.ArqRuns
import NimRtc.Proofs.ArqStep

/-!
# A send that fails

Of the ways in which `send` can fail only the last one, the full window, comes after the sequence
number is taken. The number is then missing in the stream, and the receiver waits for it.
-/

namespace NimRtc.ArqRawUdp

variable {a : ArqRawUdp} {dst : Endpoint} {data : List UInt8} {now : ℤ}

/-! ### One send -/

/-- A full window is noticed when the number is gone. -/
theorem send_of_full (h : a.WindowFull dst data) :
    (a.send dst data now).1 = .errBufferTooSmall
      ∧ (a.send dst data now).2.1.txSeq = a.txSeq + 1 := by
  obtain ⟨hopen, hsize, hpeer, hfull⟩ := h
  have hsize' : ¬ kMaxDatagramBytes < data.length + kDataHeaderBytes := not_lt.2 hsize
  have hpeer' : ¬ (dst = [] ∧ a.peerEndpoint = [] ∧ a.cfg.enableRealSocket = true) := by
    rintro ⟨hdst, hend, hreal⟩
    rcases hpeer with h | h | h
    · exact h hdst
    · exact h hend
    · rw [hreal] at h
      cases h
  unfold send
  simp only [hopen, Bool.not_true, Bool.false_eq_true, if_false, if_neg hsize', if_neg hpeer',
    if_pos hfull, and_self]

/-- Otherwise a send is refused with nothing changed, or it takes its number for the packet it
keeps. -/
theorem send_of_room (h : ¬ a.WindowFull dst data) :
    (∃ st, st ≠ .ok ∧ a.send dst data now = (st, a, []))
      ∨ (a.send dst data now).1 = .ok ∧ (a.send dst data now).2.1.txSeq = a.txSeq + 1
        ∧ ∃ q, q.seq = a.txSeq ∧ (a.send dst data now).2.1.txPending = a.txPending ++ [q] := by
  unfold send
  by_cases hopen : a.opened = true
  swap
  · exact .inl ⟨.errNotReady, by simp, by simp [hopen]⟩
  by_cases hsize : kMaxDatagramBytes < data.length + kDataHeaderBytes
  · exact .inl ⟨.errBufferTooSmall, by simp, by simp [hopen, hsize]⟩
  by_cases hpeer : dst = [] ∧ a.peerEndpoint = [] ∧ a.cfg.enableRealSocket = true
  · exact .inl ⟨.errNotReady, by simp, by simp [hopen, hsize, hpeer]⟩
  have hroom : ¬ a.cfg.rxWindowPackets.toNat ≤ a.txPending.length := by
    intro hfull
    refine h ⟨hopen, not_lt.1 hsize, ?_, hfull⟩
    rw [not_and_or, not_and_or, Bool.not_eq_true] at hpeer
    exact hpeer
  refine .inr ?_
  simp only [hopen, Bool.not_true, Bool.false_eq_true, if_false, if_neg hsize, if_neg hpeer,
    if_neg hroom]
  exact ⟨trivial, trivial, _, rfl, rfl⟩

theorem atomic_iff (a : ArqRawUdp) (dst : Endpoint) (data : List UInt8) (now : ℤ) :
    a.Atomic dst data now ↔ ¬ a.WindowFull dst data := by
  constructor
  · intro hatomic hfull
    obtain ⟨hstatus, hseq⟩ := @send_of_full a dst data now hfull
    obtain ⟨hkept, -, -⟩ := hatomic (by rw [hstatus]; decide)
    rw [hseq] at hkept
    exact absurd hkept (by simp)
  · intro hroom hfailed
    rcases @send_of_room a dst data now hroom with ⟨st, -, h⟩ | ⟨hok, -, -⟩
    · rw [h]
      exact ⟨rfl, rfl, rfl⟩
    · exact absurd hok hfailed

/-! ### Runs -/

theorem drainBuffer_txSeq : ∀ (fuel : ℕ) (newBase : UInt16) (a : ArqRawUdp),
    (drainBuffer fuel newBase a).txSeq = a.txSeq
  | 0, _, _ => rfl
  | fuel + 1, newBase, a => by
    rw [drainBuffer]
    cases a.rxBuffer.lookup newBase with
    | none => rfl
    | some v => exact drainBuffer_txSeq fuel (newBase + 1) _

theorem sendAckTo_txSeq (a : ArqRawUdp) (peer : Endpoint) :
    (a.sendAckTo peer).1.txSeq = a.txSeq := by
  unfold sendAckTo
  split <;> rfl

theorem recvData_txSeq (a : ArqRawUdp) (peer : Endpoint) (seq : UInt16) (payload : List UInt8) :
    (a.recvData peer seq payload).1.txSeq = a.txSeq := by
  have horder : (a.deliverInOrder payload).txSeq = a.txSeq := drainBuffer_txSeq _ _ _
  unfold recvData
  split_ifs
  · exact sendAckTo_txSeq _ _
  · exact sendAckTo_txSeq _ _
  · exact sendAckTo_txSeq _ _
  · exact (sendAckTo_txSeq _ _).trans horder
  · exact sendAckTo_txSeq _ _
  · exact sendAckTo_txSeq _ _

theorem recvMain_txSeq (a : ArqRawUdp) (peer : Endpoint) (frame : List UInt8) :
    (a.recvMain peer frame).1.txSeq = a.txSeq := by
  unfold recvMain
  split
  · rfl
  · split_ifs
    · split <;> rfl
    · rfl
    · exact recvData_txSeq _ _ _ _
  · rfl

/-- A step takes no number, or takes the next one for the packet that it accepts. -/
theorem step_seq (op : Op) (h : op.FindsRoom a) :
    (machine.step a op).2 = [] ∧ (machine.step a op).1.txSeq = a.txSeq
      ∨ (machine.step a op).2 = [a.txSeq] ∧ (machine.step a op).1.txSeq = a.txSeq + 1 := by
  cases op with
  | «open» socketOk =>
    refine .inl ⟨rfl, ?_⟩
    show (a.open socketOk).2.txSeq = a.txSeq
    unfold ArqRawUdp.open
    split_ifs <;> rfl
  | close =>
    refine .inl ⟨rfl, ?_⟩
    show a.close.txSeq = a.txSeq
    unfold ArqRawUdp.close
    split_ifs <;> rfl
  | send dst data now =>
    rcases @send_of_room a dst data now h with ⟨st, -, hsend⟩ | ⟨-, hseq, q, hq, hpending⟩
    · refine .inl ⟨?_, ?_⟩
      · show ((a.send dst data now).2.1.txPending.drop a.txPending.length).map (·.seq) = []
        rw [hsend, List.drop_length]
        rfl
      · show (a.send dst data now).2.1.txSeq = a.txSeq
        rw [hsend]
    · refine .inr ⟨?_, hseq⟩
      show ((a.send dst data now).2.1.txPending.drop a.txPending.length).map (·.seq) = [a.txSeq]
      rw [hpending, List.drop_left, List.map_singleton, hq]
  | datagram peer frame => exact .inl ⟨rfl, recvMain_txSeq a peer frame⟩
  | tick now => exact .inl ⟨rfl, rfl⟩
  | recv => exact .inl ⟨rfl, rfl⟩

theorem accepted_consecutive : ∀ (ops : List Op) {a : ArqRawUdp},
    machine.Meets (fun a op => op.FindsRoom a) a ops →
      Consecutive a.txSeq (machine.exec a ops).2
  | [], _, _ => trivial
  | op :: ops, a, hmeets => by
    have hrest := accepted_consecutive ops hmeets.2
    rw [Machine.exec_cons]
    rcases step_seq op hmeets.1 with ⟨hnone, hseq⟩ | ⟨hone, hseq⟩
    · rw [hnone, List.nil_append]
      rwa [hseq] at hrest
    · rw [hone, List.singleton_append]
      rw [hseq] at hrest
      exact ⟨rfl, hrest⟩

/-- A failing send leaves the sender as it was just when the window is not full, and the accepted
packets of a run in which it never is are numbered consecutively. -/
theorem send_atomic_iff (a : ArqRawUdp) (dst : Endpoint) (data : List UInt8) (now : ℤ)
    (ops : List Op) :
    (a.Atomic dst data now ↔ ¬ a.WindowFull dst data)
      ∧ (machine.Meets (fun a op => op.FindsRoom a) a ops →
        Consecutive a.txSeq (machine.exec a ops).2) :=
  ⟨atomic_iff a dst data now, accepted_consecutive ops⟩

/-- A send, its acknowledgement, and another send, with a window of one packet. -/
def acknowledged : List Op :=
  [.open true, .send [1] [7] 0, .datagram [1] (buildAckFrame 0 0), .send [] [8] 1]

def narrow : ArqRawUdp := { cfg := { rxWindowPackets := 1 } }

theorem send_atomic_iff_acknowledged :
    Consecutive 0 (machine.exec narrow acknowledged).2 :=
  (send_atomic_iff narrow [1] [7] 0 acknowledged).2 (by decide)

/-- A send more, while the first packet is not acknowledged. -/
def crowded : List Op :=
  [.open true, .send [1] [7] 0, .send [] [8] 1, .datagram [1] (buildAckFrame 0 0), .send [] [8] 2]

theorem number_lost :
    (machine.exec narrow crowded).2 = [0, 2]
      ∧ ((machine.exec narrow (crowded.take 2)).1.send [] [8] 1).1 = .errBufferTooSmall := by
  decide

end NimRtc.ArqRawUdp
