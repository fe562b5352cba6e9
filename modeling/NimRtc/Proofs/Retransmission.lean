import NimRtc.VideoSender
import NimRtc.Lib.Ring

/-!
# What can be repeated

The ring holds the last packets that were emitted. Their numbers are consecutive, so up to `2^16` of
them are told apart by 16 bits.
-/

namespace NimRtc

namespace VideoSender

/-- What a sender holds that has emitted these packets. -/
structure Holds (cfg : SenderConfig) (s : VideoSender) (ps : List CachedPacket) : Prop where
  cfg_eq : s.cfg = cfg
  ring : RingHolds cfg.retransmitCachePackets ⟨0, 0, false, []⟩ ps s.rtxCache s.rtxHead
  next : s.nextSeq = cfg.initialSeq + UInt16.ofNat ps.length
  numbers : ∀ i p, ps[i]? = some p → p.seq = cfg.initialSeq + UInt16.ofNat i

section Steps

variable {cfg : SenderConfig} (hN : 1 ≤ cfg.retransmitCachePackets) {s : VideoSender}
  {ps : List CachedPacket}

include hN

theorem Holds.emit (h : Holds cfg s ps) (rtpTs : UInt32) (e : Emission) :
    Holds cfg (s.emit rtpTs e).1 (ps ++ [(s.emit rtpTs e).2]) := by
  have hcache : s.cfg.retransmitCachePackets ≠ 0 := by
    rw [h.cfg_eq]
    omega
  rw [VideoSender.emit, cachePacket]
  simp only [if_neg hcache]
  refine ⟨h.cfg_eq, ?_, ?_, fun i p hp => ?_⟩
  · rw [h.cfg_eq]
    exact h.ring.push hN _
  · rw [h.next, List.length_append, List.length_singleton, UInt16.ofNat_add, UInt16.add_assoc]
    rfl
  · rcases Nat.lt_trichotomy i ps.length with hlt | rfl | hgt
    · rw [List.getElem?_append_left hlt] at hp
      exact h.numbers i p hp
    · rw [List.getElem?_append_right (le_refl _), Nat.sub_self] at hp
      rw [← Option.some.inj hp]
      exact h.next
    · rw [List.getElem?_eq_none (by rw [List.length_append, List.length_singleton]; omega)] at hp
      cases hp

theorem Holds.emitAll (rtpTs : UInt32) : ∀ (es : List Emission) {s : VideoSender}
    {ps : List CachedPacket}, Holds cfg s ps →
      Holds cfg (s.emitAll rtpTs es).1 (ps ++ (s.emitAll rtpTs es).2)
  | [], s, ps, h => by
    rw [VideoSender.emitAll, List.append_nil]
    exact h
  | e :: es, s, ps, h => by
    have hrest := Holds.emitAll rtpTs es (h.emit hN rtpTs e)
    rw [List.append_assoc] at hrest
    exact hrest

theorem Holds.emitPackets (rtpTs : UInt32) : ∀ (qs : List (PacketKind × List Emission))
    {s : VideoSender} {ps : List CachedPacket}, Holds cfg s ps →
      Holds cfg (s.emitPackets rtpTs qs).1 (ps ++ (s.emitPackets rtpTs qs).2)
  | [], s, ps, h => by
    rw [VideoSender.emitPackets, List.append_nil]
    exact h
  | (kind, es) :: qs, s, ps, h => by
    have hes := h.emitAll hN rtpTs es
    have hcount : Holds cfg ((s.emitAll rtpTs es).1.count kind) (ps ++ (s.emitAll rtpTs es).2) := by
      cases kind <;> exact ⟨hes.cfg_eq, hes.ring, hes.next, hes.numbers⟩
    have hrest := Holds.emitPackets rtpTs qs hcount
    rw [List.append_assoc] at hrest
    exact hrest

omit hN in
theorem Holds.retransmit (h : Holds cfg s ps) (seq : UInt16) :
    Holds cfg (s.retransmit seq).1 ps := by
  rw [VideoSender.retransmit]
  split <;> exact ⟨h.cfg_eq, h.ring, h.next, h.numbers⟩

theorem Holds.step (h : Holds cfg s ps) (call : SenderCall) :
    Holds cfg (sender.step s call).1 (ps ++ (sender.step s call).2) := by
  cases call with
  | emitH264 nalus rtpTs =>
    simp only [sender, VideoSender.emitH264]
    cases H264.packetize s.cfg nalus with
    | ok qs => exact h.emitPackets hN rtpTs qs
    | error e =>
      show Holds cfg s (ps ++ [])
      rw [List.append_nil]
      exact h
  | emitSimple bitstream rtpTs => exact h.emitAll hN rtpTs _
  | retransmit seq =>
    show Holds cfg (s.retransmit seq).1 (ps ++ [])
    rw [List.append_nil]
    exact h.retransmit seq
  | forceKeyframe =>
    show Holds cfg s.forceKeyframe (ps ++ [])
    rw [List.append_nil]
    exact ⟨h.cfg_eq, h.ring, h.next, h.numbers⟩

theorem Holds.exec : ∀ (calls : List SenderCall) {s : VideoSender} {ps : List CachedPacket},
    Holds cfg s ps → Holds cfg (sender.exec s calls).1 (ps ++ (sender.exec s calls).2)
  | [], s, ps, h => by
    rw [Machine.exec_nil, List.append_nil]
    exact h
  | call :: calls, s, ps, h => by
    have hrest := Holds.exec calls (h.step hN call)
    rw [List.append_assoc] at hrest
    exact hrest

end Steps

/-- Up to `2^16` consecutive packets have different numbers. -/
theorem Holds.seq_injective {cfg : SenderConfig} {s : VideoSender} {ps : List CachedPacket}
    (h : Holds cfg s ps) (hN : cfg.retransmitCachePackets ≤ 2 ^ 16) {p q : CachedPacket}
    (hp : p ∈ ps.drop (ps.length - cfg.retransmitCachePackets))
    (hq : q ∈ ps.drop (ps.length - cfg.retransmitCachePackets)) (hseq : p.seq = q.seq) : p = q := by
  obtain ⟨i, hi⟩ := List.mem_iff_getElem?.1 hp
  obtain ⟨j, hj⟩ := List.mem_iff_getElem?.1 hq
  rw [List.getElem?_drop] at hi hj
  obtain ⟨hilt, -⟩ := List.getElem?_eq_some_iff.1 hi
  obtain ⟨hjlt, -⟩ := List.getElem?_eq_some_iff.1 hj
  rw [h.numbers _ p hi, h.numbers _ q hj] at hseq
  have hmod := congrArg UInt16.toNat (add_left_cancel hseq)
  rw [UInt16.toNat_ofNat', UInt16.toNat_ofNat'] at hmod
  have hij : i = j := by omega
  subst hij
  exact Option.some.inj (hi.symm.trans hj)

theorem Holds.findCached_iff {cfg : SenderConfig} {s : VideoSender} {ps : List CachedPacket}
    (h : Holds cfg s ps) (hN : cfg.retransmitCachePackets ≤ 2 ^ 16) (hne : ∀ p ∈ ps, p.payload ≠ [])
    (seq : UInt16) (p : CachedPacket) :
    s.findCached seq = some p
      ↔ p ∈ ps.drop (ps.length - cfg.retransmitCachePackets) ∧ p.seq = seq := by
  have hheld : ∀ q, s.findCached seq = some q →
      q ∈ ps.drop (ps.length - cfg.retransmitCachePackets) ∧ q.seq = seq := by
    intro q hq
    have hfound := List.find?_some hq
    simp only [Bool.and_eq_true, beq_iff_eq, Bool.not_eq_true'] at hfound
    refine ⟨?_, hfound.2⟩
    rcases h.ring.cell_cases (List.mem_of_find?_eq_some hq) with hrecent | rfl
    · exact hrecent
    · simp at hfound
  constructor
  · exact hheld p
  · rintro ⟨hp, hseq⟩
    have hisSome : (s.findCached seq).isSome := by
      rw [findCached, List.find?_isSome]
      refine ⟨p, h.ring.mem_of_recent hp, ?_⟩
      simp [hseq, hne p (List.mem_of_mem_drop hp)]
    obtain ⟨q, hq⟩ := Option.isSome_iff_exists.1 hisSome
    obtain ⟨hrecent, hqseq⟩ := hheld q hq
    rw [hq, h.seq_injective hN hp hrecent (hseq.trans hqseq.symm)]

/-- A packet is repeated exactly when it is one of the last that the ring has room for, and it is
repeated as it was. -/
theorem retransmit_iff (cfg : SenderConfig) (hpos : 1 ≤ cfg.retransmitCachePackets)
    (hN : cfg.retransmitCachePackets ≤ 2 ^ 16) (calls : List SenderCall)
    (hne : ∀ p ∈ (sender.exec { cfg } calls).2, p.payload ≠ []) (seq : UInt16) :
    let s := (sender.exec { cfg } calls).1
    let sent := (sender.exec { cfg } calls).2
    let recent := sent.drop (sent.length - cfg.retransmitCachePackets)
    ((s.retransmit seq).2.isSome ↔ ∃ p ∈ recent, p.seq = seq)
      ∧ (∀ p ∈ (s.retransmit seq).2, p ∈ recent ∧ p.seq = seq)
      ∧ (s.retransmit seq).1.nextSeq = s.nextSeq := by
  intro s sent recent
  have hstart : Holds cfg { cfg } [] := ⟨rfl, RingHolds.nil _ _, by simp, by simp⟩
  have hholds := hstart.exec hpos calls
  rw [List.nil_append] at hholds
  have hfound := hholds.findCached_iff hN hne seq
  have hrepeat : (s.retransmit seq).2 = s.findCached seq := by
    rw [retransmit]
    split <;> simp_all
  have hnext : (s.retransmit seq).1.nextSeq = s.nextSeq := by
    rw [retransmit]
    split <;> rfl
  rw [hrepeat]
  refine ⟨?_, fun p hp => (hfound p).1 hp, hnext⟩
  rw [Option.isSome_iff_exists]
  exact exists_congr hfound

/-- A ring of two after three packets. -/
theorem retransmit_sample :
    let calls := [SenderCall.emitSimple [1] 10, .emitSimple [2] 20, .emitSimple [3] 30]
    let s := (sender.exec { cfg := { retransmitCachePackets := 2, initialSeq := 65535 } } calls).1
    (s.retransmit 1).2 = some ⟨1, 30, true, [3]⟩
      ∧ ¬ (s.retransmit 65535).2.isSome := by
  intro calls s
  have hlaw := retransmit_iff { retransmitCachePackets := 2, initialSeq := 65535 } (by decide)
    (by decide) calls (by decide)
  refine ⟨by decide, fun h => ?_⟩
  obtain ⟨p, hp, hseq⟩ := (hlaw 65535).1.1 h
  revert p
  decide

end VideoSender

end NimRtc
