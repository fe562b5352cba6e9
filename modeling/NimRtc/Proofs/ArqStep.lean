import NimRtc.ArqNet

/-!
# What one step of an ARQ endpoint does

Sequence numbers as readings of counts, the DATA frame read back, and for `send`,
`retransmit_main` and the DATA branch of `recv_main` what each can do.
-/

namespace NimRtc

/-! ## Numbers -/

theorem seqOf_toNat (i : ℕ) : (seqOf i).toNat = i % 2 ^ 16 := by
  simp [seqOf]

theorem seqOf_add (i j : ℕ) : seqOf i + seqOf j = seqOf (i + j) := by
  apply UInt16.toNat_inj.1
  simp [seqOf]

theorem seqOf_add_one (i : ℕ) : seqOf i + 1 = seqOf (i + 1) := seqOf_add i 1

theorem seqOf_inj {i j : ℕ} (h : seqOf i = seqOf j) (hij : i < j + 2 ^ 16) (hji : j < i + 2 ^ 16) :
    i = j := by
  have hmod : i % 2 ^ 16 = j % 2 ^ 16 := by rw [← seqOf_toNat, ← seqOf_toNat, h]
  exact eq_of_mod_eq hmod hij hji

theorem seqDiff_seqOf (i j : ℕ) : seqDiff (seqOf i) (seqOf j) = serialDist (2 ^ 16) i j := by
  rw [seqDiff, UInt16.toNat_sub, seqOf_toNat, seqOf_toNat, ← serialDist_mod, serialDist,
    Nat.mod_mod, Nat.add_comm]

theorem seqDiff_seqOf_of_le {i j : ℕ} (hji : j ≤ i) (h : i < j + 2 ^ 16) :
    seqDiff (seqOf i) (seqOf j) = i - j := by
  rw [seqDiff_seqOf, serialDist_of_le hji h]

theorem seqDiff_seqOf_of_lt {i j : ℕ} (hij : i < j) (h : j ≤ i + 2 ^ 16) :
    seqDiff (seqOf i) (seqOf j) = i + 2 ^ 16 - j := by
  rw [seqDiff_seqOf, serialDist_of_lt hij h]

theorem seqAfter_seqOf {i j : ℕ} (hij : i < j + 2 ^ 15) (hji : j < i + 2 ^ 15) :
    seqAfter (seqOf i) (seqOf j) = true ↔ j ≤ i := by
  rw [seqAfter, decide_eq_true_iff]
  rcases Nat.lt_or_ge i j with hlt | hle
  · rw [seqDiff_seqOf_of_lt hlt (by omega)]
    omega
  · rw [seqDiff_seqOf_of_le hle (by omega)]
    omega

/-- Among the last `2^16` numbers a reading names one. -/
theorem latestIndex_seqOf {n i : ℕ} (hi : i < n) (hn : n ≤ i + 2 ^ 16) :
    latestIndex n (seqOf i) = i := by
  rw [latestIndex, seqDiff_seqOf_of_le (by omega) (by omega)]
  omega

/-! ## Frames -/

theorem fromBytes_seq (s : UInt16) :
    UInt16.ofNat (fromBytes [byteAt s.toNat 0, byteAt s.toNat 1]) = s := by
  rw [fromBytes_two_mod, Nat.mod_eq_of_lt s.toNat_lt, UInt16.ofNat_toNat]

theorem frameSeq_buildDataFrame (s : UInt16) (p : List UInt8) :
    frameSeq (buildDataFrame s p) = some s := by
  simp [frameSeq, buildDataFrame, fromBytes_seq]

theorem recvMain_buildDataFrame (a : ArqRawUdp) (peer : Endpoint) (s : UInt16) (p : List UInt8) :
    a.recvMain peer (buildDataFrame s p) = a.recvData peer s p := by
  have hne : kFrameData ≠ kFrameAck := by decide
  simp [ArqRawUdp.recvMain, buildDataFrame, fromBytes_seq, hne]

/-! ## The receiver -/

namespace ArqRawUdp

/-- The receive state. -/
def rx (a : ArqRawUdp) :
    List (List UInt8) × AList (fun _ : UInt16 => List UInt8) × UInt16 × Bool :=
  (a.rxDelivered, a.rxBuffer, a.rxBaseSeq, a.rxInitialized)

@[simp] theorem sendAckTo_rx (a : ArqRawUdp) (peer : Endpoint) : (a.sendAckTo peer).1.rx = a.rx := by
  unfold sendAckTo
  split <;> rfl

@[simp] theorem countDropped_rx (a : ArqRawUdp) : a.countDropped.rx = a.rx := rfl

theorem sendAckTo_frames (a : ArqRawUdp) (peer : Endpoint) :
    ∀ d ∈ (a.sendAckTo peer).2, ∃ r, d.2 = kFrameAck :: r := by
  unfold sendAckTo
  split
  · simp
  · simp [buildAckFrame]

theorem drainBuffer_of_notMem {a : ArqRawUdp} {newBase : UInt16} (h : newBase ∉ a.rxBuffer)
    (fuel : ℕ) : drainBuffer fuel newBase a = a := by
  cases fuel with
  | zero => rfl
  | succ fuel => simp only [drainBuffer, AList.lookup_eq_none.2 h]

/-- Delivery in order while the map does not hold the number delivered. -/
theorem deliverInOrder_rx {a : ArqRawUdp} (p : List UInt8) (h : a.rxBaseSeq + 1 ∉ a.rxBuffer) :
    (a.deliverInOrder p).rx
      = (a.rxDelivered ++ [p], a.rxBuffer, a.rxBaseSeq + 1, a.rxInitialized) := by
  rw [deliverInOrder, drainBuffer_of_notMem (by exact h)]
  rfl

theorem seqDiff_eq_one {s b : UInt16} : seqDiff s b = 1 ↔ s = b + 1 := by
  constructor
  · intro h
    have hd : s - b = 1 := UInt16.toNat_inj.1 h
    rw [← hd, UInt16.add_comm, UInt16.sub_add_cancel]
  · rintro rfl
    rw [seqDiff, UInt16.add_comm, UInt16.add_sub_cancel]
    rfl

/-- What the DATA branch can do: start, turn the frame away, deliver in order, or keep the
payload. -/
theorem recvData_cases (a : ArqRawUdp) (peer : Endpoint) (seq : UInt16) (p : List UInt8) :
    (a.rxInitialized = false
        ∧ (a.recvData peer seq p).1.rx = (a.rxDelivered ++ [p], a.rxBuffer, seq, true))
      ∨ (a.rxInitialized = true ∧ a.accepts seq = false ∧ (a.recvData peer seq p).1.rx = a.rx)
      ∨ (a.rxInitialized = true ∧ a.accepts seq = true ∧ seq = a.rxBaseSeq + 1
        ∧ (a.recvData peer seq p).1.rx = (a.deliverInOrder p).rx)
      ∨ (a.rxInitialized = true ∧ a.accepts seq = true ∧ seq ≠ a.rxBaseSeq + 1
        ∧ (a.recvData peer seq p).1.rx
          = (a.rxDelivered, a.rxBuffer.insert seq p, a.rxBaseSeq, a.rxInitialized)) := by
  cases hinit : a.rxInitialized with
  | false =>
    refine .inl ⟨rfl, ?_⟩
    simp only [recvData, hinit, Bool.not_false, if_true, sendAckTo_rx]
    rfl
  | true =>
    refine .inr ?_
    by_cases hbase : seq = a.rxBaseSeq
    · exact .inl ⟨rfl, by simp [accepts, hinit, hbase], by simp [recvData, hinit, hbase]⟩
    by_cases hwin : seqInWindow seq a.rxBaseSeq a.cfg.rxWindowPackets = true
    swap
    · exact .inl ⟨rfl, by simp [accepts, hinit, hwin], by simp [recvData, hinit, hbase, hwin]⟩
    by_cases haft : seqAfter seq a.rxBaseSeq = true
    swap
    · exact .inl ⟨rfl, by simp [accepts, hinit, haft],
        by simp [recvData, hinit, hbase, hwin, haft]⟩
    have hacc : a.accepts seq = true := by simp [accepts, hbase, hwin, haft]
    by_cases hone : seqDiff seq a.rxBaseSeq = 1
    · refine .inr (.inl ⟨rfl, hacc, seqDiff_eq_one.1 hone, ?_⟩)
      simp [recvData, hinit, hbase, hwin, haft, hone]
    · refine .inr (.inr ⟨rfl, hacc, fun h => hone (seqDiff_eq_one.2 h), ?_⟩)
      simp only [recvData, hinit, hbase, hwin, haft, hone, Bool.not_true, if_false,
        Bool.false_eq_true, if_true, sendAckTo_rx]
      rfl

theorem recvData_frames (a : ArqRawUdp) (peer : Endpoint) (seq : UInt16) (p : List UInt8) :
    ∀ d ∈ (a.recvData peer seq p).2, ∃ r, d.2 = kFrameAck :: r := by
  unfold recvData
  split_ifs <;> exact sendAckTo_frames _ _

end ArqRawUdp

/-! ## The sender -/

namespace ArqRawUdp

theorem sendToPeer_frames (a : ArqRawUdp) (frames : List (List UInt8)) :
    ∀ d ∈ a.sendToPeer frames, d.2 ∈ frames := by
  unfold sendToPeer
  split_ifs <;> simp

/-- A `send` is refused, or takes a number and finds the window full, or takes a number and keeps
the packet. -/
theorem send_cases (a : ArqRawUdp) (dst : Endpoint) (data : List UInt8) (now : ℤ) :
    (∃ st, st ≠ .ok ∧ a.send dst data now = (st, a, []))
      ∨ (∃ st a', st ≠ .ok ∧ a'.txSeq = a.txSeq + 1 ∧ a'.txPending = a.txPending
        ∧ a.send dst data now = (st, a', []))
      ∨ ∃ a' q out, a'.txSeq = a.txSeq + 1 ∧ a'.txPending = a.txPending ++ [q]
        ∧ q.seq = a.txSeq ∧ q.framed = buildDataFrame a.txSeq data
        ∧ (∀ d ∈ out, d.2 = q.framed) ∧ a.send dst data now = (.ok, a', out) := by
  unfold send
  by_cases hopen : a.opened = true
  swap
  · exact .inl ⟨.errNotReady, by simp, by simp [hopen]⟩
  by_cases hsize : kMaxDatagramBytes < data.length + kDataHeaderBytes
  · exact .inl ⟨.errBufferTooSmall, by simp, by simp [hopen, hsize]⟩
  by_cases hpeer : dst = [] ∧ a.peerEndpoint = [] ∧ a.cfg.enableRealSocket = true
  · exact .inl ⟨.errNotReady, by simp, by simp [hopen, hsize, hpeer]⟩
  simp only [hopen, hsize, hpeer, Bool.not_true, Bool.false_eq_true, if_false]
  refine .inr ?_
  by_cases hfull : a.cfg.rxWindowPackets.toNat ≤ a.txPending.length
  · rw [if_pos hfull]
    refine .inl ⟨_, _, ?_, ?_, ?_, rfl⟩ <;> simp
  · rw [if_neg hfull]
    refine .inr ⟨_, ⟨a.txSeq, buildDataFrame a.txSeq data, now, a.cfg.rtoBaseMs, 0, true⟩, _,
      ?_, ?_, ?_, ?_, ?_, rfl⟩
    · rfl
    · rfl
    · rfl
    · rfl
    · intro d hd
      simpa using sendToPeer_frames _ _ d hd

end ArqRawUdp

namespace Net

theorem route_frames {P : List UInt8 → Prop} {addr : Endpoint} {out : List Datagram}
    (h : ∀ d ∈ out, P d.2) : ∀ f ∈ route addr out, P f := by
  intro f hf
  obtain ⟨d, hd, rfl⟩ := List.mem_map.1 hf
  exact h d (List.mem_filter.1 hd).1

theorem send_cases (n : Net) (dst : Endpoint) (data : List UInt8) (now : ℤ) :
    n.send dst data now = n
      ∨ (∃ a, a.txSeq = n.sender.txSeq + 1 ∧ a.txPending = n.sender.txPending
        ∧ n.send dst data now = { n with sender := a, handed := n.handed ++ [none] })
      ∨ ∃ a q fs, a.txSeq = n.sender.txSeq + 1 ∧ a.txPending = n.sender.txPending ++ [q]
        ∧ q.seq = n.sender.txSeq ∧ q.framed = buildDataFrame n.sender.txSeq data
        ∧ (∀ f ∈ fs, f = q.framed)
        ∧ n.send dst data now = { n with
          sender := a
          toReceiver := n.toReceiver ++ fs
          handed := n.handed ++ [some data] } := by
  unfold send
  rcases n.sender.send_cases dst data now with
      ⟨st, hst, h⟩ | ⟨st, a, hst, hseq, hpend, h⟩ | ⟨a, q, out, hseq, hpend, hq, hf, hout, h⟩
  · exact .inl (by simp [h, hst, route])
  · refine .inr (.inl ⟨a, hseq, hpend, ?_⟩)
    simp [h, hst, hseq, route]
  · exact .inr (.inr ⟨a, q, route n.receiverAddr out, hseq, hpend, hq, hf, route_frames hout,
      by simp [h]⟩)

theorem retransmit_frame (cfg : RawUdpConfig) (now : ℤ) (q : PendingPacket) :
    (ArqRawUdp.PendingPacket.retransmit cfg now q).seq = q.seq
      ∧ (ArqRawUdp.PendingPacket.retransmit cfg now q).framed = q.framed := by
  unfold ArqRawUdp.PendingPacket.retransmit
  split <;> exact ⟨rfl, rfl⟩

theorem mem_of_mem_foldl_eraseP {q : PendingPacket} :
    ∀ {seqs : List UInt16} {l : List PendingPacket},
      q ∈ seqs.foldl (fun l s => l.eraseP fun p => p.seq == s) l → q ∈ l
  | [], _, h => h
  | _ :: _, _, h => List.mem_of_mem_eraseP (mem_of_mem_foldl_eraseP h)

/-- A round of the retransmit thread sends and keeps only frames that were pending. -/
theorem tick_cases (n : Net) (now : ℤ) :
    ∃ a fs, a.txSeq = n.sender.txSeq
      ∧ (∀ q ∈ a.txPending, ∃ q' ∈ n.sender.txPending, q.seq = q'.seq ∧ q.framed = q'.framed)
      ∧ (∀ f ∈ fs, ∃ q ∈ n.sender.txPending, f = q.framed)
      ∧ n.tick now = { n with sender := a, toReceiver := n.toReceiver ++ fs } := by
  refine ⟨(n.sender.retransmitTick now).1,
    route n.receiverAddr (n.sender.retransmitTick now).2, rfl, ?_, ?_, rfl⟩
  · intro q hq
    obtain ⟨q', hq', rfl⟩ := List.mem_map.1 (mem_of_mem_foldl_eraseP hq)
    exact ⟨q', hq', retransmit_frame _ _ _⟩
  · refine route_frames fun d hd => ?_
    obtain ⟨q, hq, hqd⟩ := List.mem_map.1 (ArqRawUdp.sendToPeer_frames _ _ d hd)
    exact ⟨q, (List.mem_filter.1 hq).1, hqd.symm⟩

/-- An ACK frame only takes packets out of `tx_pending_`. -/
theorem recvMain_ack (a : ArqRawUdp) (peer : Endpoint) (r : List UInt8) :
    ((a.recvMain peer (kFrameAck :: r)).1.txSeq = a.txSeq
      ∧ ∀ q ∈ (a.recvMain peer (kFrameAck :: r)).1.txPending, q ∈ a.txPending)
      ∧ (a.recvMain peer (kFrameAck :: r)).2 = [] := by
  unfold ArqRawUdp.recvMain
  split
  · simp
  · rename_i h
    simp only [List.cons.injEq] at h
    rw [if_pos h.1.symm]
    split
    · exact ⟨⟨rfl, fun q hq => (List.mem_filter.1 hq).1⟩, rfl⟩
    · exact ⟨⟨rfl, fun q hq => hq⟩, rfl⟩
  · exact ⟨⟨rfl, fun q hq => hq⟩, rfl⟩

theorem deliverAck_cases (n : Net) (k : ℕ) (h : ∀ f ∈ n.toSender, ∃ r, f = kFrameAck :: r) :
    n.deliverAck k = n
      ∨ ∃ a l, a.txSeq = n.sender.txSeq ∧ (∀ q ∈ a.txPending, q ∈ n.sender.txPending)
        ∧ n.deliverAck k = { n with
          sender := a
          toSender := n.toSender.eraseIdx k
          acked := n.acked ++ l } := by
  unfold deliverAck
  split
  · exact .inl rfl
  · rename_i f hf
    obtain ⟨r, rfl⟩ := h f (List.mem_of_getElem? hf)
    obtain ⟨⟨hseq, hpend⟩, hout⟩ := recvMain_ack n.sender n.receiverAddr r
    refine .inr ⟨(n.sender.recvMain n.receiverAddr (kFrameAck :: r)).1,
      (n.sender.txPending.filter
        (· ∉ (n.sender.recvMain n.receiverAddr (kFrameAck :: r)).1.txPending)).map
          (latestIndex n.handed.length ·.seq), hseq, hpend, ?_⟩
    simp only [hout, route, List.filter_nil, List.map_nil, List.append_nil]

end Net

end NimRtc
