import NimRtc.Proofs.AudioShift

/-!
# Every audio packet is kept until its frame is returned

The frames with one timestamp, returned and buffered, hold the pushed packets with it in the order
they came. This alone is carried through the run. It says where each packet is, so that nothing is
held twice, and with the counter of the packets it gives the statistics.
-/

namespace NimRtc.Jb.JitterBuffer

open Rtp (PacketView)

/-- The packets in the frames of a timestamp. -/
def packetsAt (frames : List Frame) (ts : UInt32) : List PacketView :=
  (frames.filter (·.frameTimestamp = ts)).flatMap (·.packets)

theorem packetsAt_append (fs gs : List Frame) (ts : UInt32) :
    packetsAt (fs ++ gs) ts = packetsAt fs ts ++ packetsAt gs ts := by
  rw [packetsAt, List.filter_append, List.flatMap_append]
  rfl

structure Holds (pushed : List PacketView) (returned : List Frame) (s : JitterBuffer) : Prop where
  ordered : Ordered 0 s
  keys : (s.frameArrivalTimes.map (·.1)).Perm s.timestamps
  counted : s.bufferedPackets + (returned.flatMap (·.packets)).length = pushed.length
  inOrder : ∀ ts, packetsAt (returned ++ s.frames) ts = pushed.filter (·.timestamp = ts)

variable {pushed : List PacketView} {returned : List Frame} {s : JitterBuffer}

/-! ### What the packets of each timestamp say of all packets -/

theorem own_of_inOrder {frames : List Frame}
    (h : ∀ ts, packetsAt frames ts = pushed.filter (·.timestamp = ts)) {frame : Frame}
    (hframe : frame ∈ frames) {packet : PacketView} (hpacket : packet ∈ frame.packets) :
    packet.timestamp = frame.frameTimestamp := by
  have hmem : packet ∈ packetsAt frames frame.frameTimestamp :=
    List.mem_flatMap.2 ⟨frame, List.mem_filter.2 ⟨hframe, by simp⟩, hpacket⟩
  rw [h, List.mem_filter] at hmem
  simpa using hmem.2

open scoped Classical in
/-- A packet is found only in the frames with its own timestamp. -/
theorem count_packetsAt (packet : PacketView) : ∀ {frames : List Frame},
    (∀ frame ∈ frames, ∀ p ∈ frame.packets, p.timestamp = frame.frameTimestamp) →
    (packetsAt frames packet.timestamp).count packet
      = (frames.flatMap (·.packets)).count packet
  | [], _ => rfl
  | frame :: frames, hown => by
    have ih := @count_packetsAt packet frames fun f hf => hown f (List.mem_cons_of_mem _ hf)
    rw [packetsAt] at ih ⊢
    rw [List.flatMap_cons, List.count_append, ← ih]
    by_cases hts : frame.frameTimestamp = packet.timestamp
    · rw [List.filter_cons_of_pos (by simpa using hts), List.flatMap_cons, List.count_append]
    · have hnot : packet ∉ frame.packets := fun hmem =>
        hts (hown frame List.mem_cons_self packet hmem).symm
      rw [List.filter_cons_of_neg (by simpa using hts), List.count_eq_zero_of_not_mem hnot,
        Nat.zero_add]

theorem perm_of_inOrder {frames : List Frame}
    (h : ∀ ts, packetsAt frames ts = pushed.filter (·.timestamp = ts)) :
    (frames.flatMap (·.packets)).Perm pushed := by
  classical
  refine List.perm_iff_count.2 fun packet => ?_
  rw [← count_packetsAt packet fun frame hframe p hp => own_of_inOrder h hframe hp, h,
    List.count_filter (by simp)]

theorem Holds.conserves (h : Holds pushed returned s) : Conserves pushed returned s where
  distinct := h.ordered.sorted.imp UInt32.ne_of_lt
  keys := h.keys
  counted := by
    intro jitter
    have hlen := (perm_of_inOrder h.inOrder).length_eq
    rw [List.flatMap_append, List.length_append, ← h.counted, Nat.add_comm] at hlen
    rw [stats, ← Nat.add_right_cancel hlen, List.length_flatMap]
  own := fun frame hframe packet => own_of_inOrder h.inOrder hframe
  once := perm_of_inOrder h.inOrder
  inOrder := h.inOrder

/-! ### Pushing -/

theorem lookup_eq_none_of_notMem {β : Type*} {ts : UInt32} {l : List (UInt32 × β)}
    (h : ts ∉ l.map (·.1)) : l.lookup ts = none := by
  rw [List.lookup_eq_none_iff]
  intro e he
  simpa using fun heq : ts = e.1 => h (heq ▸ List.mem_map_of_mem he)

theorem lookup_cons_ite {β : Type*} (ts key : UInt32) (b : β) (l : List (UInt32 × β)) :
    ((key, b) :: l).lookup ts = if ts = key then some b else l.lookup ts := by
  split
  · rename_i hts
    rw [hts, List.lookup_cons_self]
  · rename_i hts
    have hmiss : (ts == key) = false := by simpa using hts
    rw [List.lookup_cons, hmiss]

/-- With one frame for each timestamp, the packets of a timestamp are those of its frame. -/
theorem packetsAt_eq_lookup (ts : UInt32) : ∀ {buffer : List (UInt32 × Frame)},
    (buffer.map (·.1)).Nodup → (∀ e ∈ buffer, e.2.frameTimestamp = e.1) →
    packetsAt (buffer.map (·.2)) ts = ((buffer.lookup ts).getD {}).packets
  | [], _, _ => rfl
  | (key, frame) :: rest, hnodup, hstamped => by
    rw [List.map_cons, List.nodup_cons] at hnodup
    have hkey : frame.frameTimestamp = key := hstamped (key, frame) List.mem_cons_self
    have ih := packetsAt_eq_lookup ts hnodup.2 fun e he => hstamped e (List.mem_cons_of_mem _ he)
    rw [packetsAt] at ih ⊢
    by_cases hts : key = ts
    · subst hts
      rw [lookup_eq_none_of_notMem hnodup.1] at ih
      rw [List.map_cons, List.filter_cons_of_pos (by simpa using hkey), List.flatMap_cons, ih,
        List.lookup_cons_self]
      exact List.append_nil _
    · rw [List.map_cons, List.filter_cons_of_neg (by simpa [hkey] using hts), ih,
        lookup_cons_ite, if_neg (Ne.symm hts)]

theorem lookup_map_update (ts ts' : UInt32) (f : Frame → Frame) :
    ∀ buffer : List (UInt32 × Frame),
    (buffer.map fun e => if e.1 = ts then (e.1, f e.2) else e).lookup ts'
      = if ts' = ts then (buffer.lookup ts).map f else buffer.lookup ts'
  | [] => by simp
  | (key, frame) :: rest => by
    have ih := lookup_map_update ts ts' f rest
    rw [List.map_cons, lookup_cons_ite, lookup_cons_ite]
    by_cases hkey : key = ts
    · rw [if_pos hkey, lookup_cons_ite, ih, hkey]
      split
      · rw [if_pos rfl]
        rfl
      · rfl
    · rw [if_neg hkey, lookup_cons_ite, ih, if_neg (Ne.symm hkey)]
      by_cases hts : ts' = key
      · rw [if_pos hts, if_neg fun heq => hkey (hts ▸ heq), if_pos hts]
      · rw [if_neg hts, if_neg hts]

theorem lookup_orderedInsert_new {ts : UInt32} (ts' : UInt32) (frame : Frame) :
    ∀ {buffer : List (UInt32 × Frame)}, ts ∉ buffer.map (·.1) →
    (buffer.orderedInsert (fun a b => a.1 ≤ b.1) (ts, frame)).lookup ts'
      = if ts' = ts then some frame else buffer.lookup ts'
  | [], _ => lookup_cons_ite ts' ts frame []
  | (key, other) :: rest, hnew => by
    rw [List.map_cons, List.mem_cons, not_or] at hnew
    have ih := lookup_orderedInsert_new ts' frame hnew.2
    rw [List.orderedInsert_cons]
    split
    · exact lookup_cons_ite ts' ts frame _
    · rw [lookup_cons_ite, lookup_cons_ite, ih]
      by_cases hts : ts' = key
      · rw [if_pos hts, if_neg fun heq => hnew.1 (heq.symm.trans hts), if_pos hts]
      · rw [if_neg hts, if_neg hts]

/-- The frame of a timestamp after an update, which starts from an empty frame if there was none. -/
theorem lookup_updateFrame (buffer : List (UInt32 × Frame)) (ts ts' : UInt32) (f : Frame → Frame) :
    (updateFrame buffer ts f).lookup ts'
      = if ts' = ts then some (f ((buffer.lookup ts).getD {})) else buffer.lookup ts' := by
  rw [updateFrame]
  split
  · rename_i hany
    rw [any_timestamp] at hany
    rw [lookup_map_update]
    cases hlookup : buffer.lookup ts with
    | some frame => rfl
    | none =>
      obtain ⟨e, he, rfl⟩ := List.mem_map.1 hany
      have hmiss := List.lookup_eq_none_iff.1 hlookup e he
      simp at hmiss
  · rename_i hany
    rw [any_timestamp] at hany
    rw [lookup_orderedInsert_new ts' _ hany, lookup_eq_none_of_notMem hany]
    rfl

theorem keepsOrder_zero (call : Call) : call.KeepsOrder 0 s := by
  cases call with
  | push packet arrival refFrame => exact fun _ e _ => by rw [add_zero, add_zero]
  | pop now tracked => trivial
  | flush => trivial

theorem isSome_lookup_iff {β : Type*} (ts : UInt32) (l : List (UInt32 × β)) :
    (l.lookup ts).isSome ↔ ts ∈ l.map (·.1) := by
  rw [← not_iff_not, Bool.not_eq_true, Option.isSome_eq_false_iff, Option.isNone_iff_eq_none,
    List.lookup_eq_none_iff, List.mem_map]
  constructor
  · rintro h ⟨e, he, rfl⟩
    simpa using h e he
  · intro h e he
    simpa using fun heq : ts = e.1 => h ⟨e, he, heq.symm⟩

theorem Holds.push (h : Holds pushed returned s) (packet : PacketView) (arrival : ℤ)
    (refFrame : Option UInt64) :
    Holds (pushed ++ [packet]) returned (s.push packet arrival refFrame) := by
  have hordered := h.ordered.push (keepsOrder_zero (.push packet arrival refFrame))
  have hkeys : (s.push packet arrival refFrame).timestamps
      = if packet.timestamp ∈ s.timestamps then s.timestamps
        else s.timestamps.orderedInsert (· ≤ ·) packet.timestamp :=
    keys_updateFrame s.frameBuffer packet.timestamp fun frame => frame.add packet arrival refFrame
  refine ⟨hordered, ?_, ?_, fun ts => ?_⟩
  · -- The arrival is recorded exactly when the frame is new.
    have hsome : (s.frameArrivalTimes.lookup packet.timestamp).isSome
        ↔ packet.timestamp ∈ s.timestamps := by rw [isSome_lookup_iff, h.keys.mem_iff]
    rw [hkeys]
    simp only [JitterBuffer.push, hsome]
    split
    · exact h.keys
    · exact (h.keys.cons _).trans (List.perm_orderedInsert _ _ _).symm
  · rw [List.length_append, List.length_singleton, ← h.counted]
    simp only [JitterBuffer.push]
    omega
  · have hbefore := h.inOrder ts
    rw [packetsAt_append, frames, packetsAt_eq_lookup ts (h.ordered.sorted.imp UInt32.ne_of_lt)
      h.ordered.stamped] at hbefore
    rw [packetsAt_append, frames, packetsAt_eq_lookup ts (hordered.sorted.imp UInt32.ne_of_lt)
      hordered.stamped, List.filter_append, ← hbefore]
    simp only [JitterBuffer.push, lookup_updateFrame]
    by_cases hts : ts = packet.timestamp
    · rw [if_pos hts, List.filter_cons_of_pos (by simpa using hts.symm), hts]
      simp only [Option.getD_some, Frame.add, List.append_assoc, List.filter_nil]
    · rw [if_neg hts, List.filter_cons_of_neg (by simpa using Ne.symm hts), List.filter_nil,
        List.append_nil]

/-! ### Returning frames -/

/-- The frames that are taken out of the buffer, with their arrival times. -/
theorem Holds.moved (h : Holds pushed returned s) {s' : JitterBuffer} {out : List Frame}
    (hordered : Ordered 0 s') (hkeys : (s'.frameArrivalTimes.map (·.1)).Perm s'.timestamps)
    (hframes : s.frames = out ++ s'.frames)
    (hcount : s'.bufferedPackets = s.bufferedPackets - (out.flatMap (·.packets)).length) :
    Holds pushed (returned ++ out) s' := by
  refine ⟨hordered, hkeys, ?_, fun ts => ?_⟩
  · have hall := (perm_of_inOrder h.inOrder).length_eq
    have hbefore := h.counted
    rw [hframes, List.flatMap_append, List.flatMap_append, List.length_append,
      List.length_append] at hall
    rw [List.flatMap_append, List.length_append, hcount]
    omega
  · rw [List.append_assoc, ← hframes]
    exact h.inOrder ts

theorem pop_bufferedPackets (s : JitterBuffer) (now : ℤ) (tracked : Option ℤ) :
    (s.pop now tracked).1.bufferedPackets
      = s.bufferedPackets - ((s.pop now tracked).2.toList.flatMap (·.packets)).length := by
  simp only [JitterBuffer.pop]
  generalize (if s.config.adaptive then tracked.getD s.targetDelay else s.config.initialDelay)
    = target
  split
  · rfl
  · split
    · simp
    · rfl

theorem filter_keys_ne {l : List (UInt32 × ℤ)} {ts : UInt32} {rest : List UInt32}
    (h : (l.map (·.1)).Perm (ts :: rest)) (hnodup : (ts :: rest).Nodup) :
    ((l.filter fun e => e.1 ≠ ts).map (·.1)).Perm rest := by
  have hfilter : (l.filter fun e => e.1 ≠ ts).map (·.1)
      = (l.map (·.1)).filter fun key => key ≠ ts := by
    rw [List.filter_map]
    rfl
  have hrest : (ts :: rest).filter (fun key => key ≠ ts) = rest := by
    rw [List.filter_cons_of_neg (by simp), List.filter_eq_self]
    intro key hkey
    simpa using fun heq : key = ts => (List.nodup_cons.1 hnodup).1 (heq ▸ hkey)
  rw [hfilter]
  exact hrest ▸ h.filter _

theorem Holds.pop (h : Holds pushed returned s) (now : ℤ) (tracked : Option ℤ) :
    Holds pushed (returned ++ (s.pop now tracked).2.toList) (s.pop now tracked).1 := by
  have hordered := (h.ordered.pop now tracked).1
  have hnodup : s.timestamps.Nodup := h.ordered.sorted.imp UInt32.ne_of_lt
  have hcount := pop_bufferedPackets s now tracked
  rcases h.ordered.pop_cases now tracked with
    ⟨hout, hbuffer, harrivals⟩ | ⟨ts, frame, rest, hfront, hout, hbuffer, harrivals⟩
  · refine h.moved hordered ?_ ?_ hcount
    · rw [harrivals, JitterBuffer.timestamps, hbuffer]
      exact h.keys
    · rw [hout, frames, frames, hbuffer]
      rfl
  · have hts : s.timestamps = ts :: (s.pop now tracked).1.timestamps := by
      rw [JitterBuffer.timestamps, JitterBuffer.timestamps, hfront, hbuffer]
      rfl
    refine h.moved hordered ?_ ?_ hcount
    · rw [harrivals]
      exact filter_keys_ne (hts ▸ h.keys) (hts ▸ hnodup)
    · rw [hout, frames, frames, hfront, hbuffer]
      rfl

theorem ordered_empty {s : JitterBuffer} (h : s.frameBuffer = []) : Ordered 0 s := by
  have hts : s.timestamps = [] := by rw [JitterBuffer.timestamps, h, List.map_nil]
  refine ⟨?_, ?_, ?_, ?_⟩
  · rw [hts]
    exact .nil
  · rw [hts]
    exact .nil
  · simp [hts]
  · simp [h]

theorem Holds.flush (h : Holds pushed returned s) :
    Holds pushed (returned ++ s.flush.2) s.flush.1 := by
  refine h.moved (ordered_empty rfl) .nil (List.append_nil _).symm ?_
  -- What the counter held is what the buffer held, so that it goes to zero.
  have hall := h.conserves.counted 0
  have hlen : (s.flush.2.flatMap (·.packets)).length = (s.frames.map (·.packets.length)).sum :=
    List.length_flatMap
  rw [hlen, ← hall]
  exact (Nat.sub_self _).symm

/-! ### Runs -/

theorem holds_init (config : Config) : Holds [] [] { config } :=
  ⟨ordered_empty rfl, .nil, rfl, fun _ => rfl⟩

theorem Holds.liveStep (h : Holds pushed returned s) (call : LiveCall) :
    Holds (pushed ++ call.pushed) (returned ++ (live.step s call).2) (live.step s call).1 := by
  rcases call with (⟨packet, arrival, refFrame⟩ | ⟨now, tracked⟩ | _) | config
  · have hpush := h.push packet arrival refFrame
    rw [← List.append_nil returned] at hpush
    exact hpush
  · have hpop := h.pop now tracked
    rw [← List.append_nil pushed, ← List.append_nil (s.pop now tracked).2.toList] at hpop
    exact hpop
  · have hflush := h.flush
    rw [← List.append_nil pushed, ← List.append_nil s.flush.2] at hflush
    exact hflush
  · refine ⟨⟨h.ordered.sorted, h.ordered.moved, h.ordered.arrived, h.ordered.stamped⟩, h.keys, ?_, ?_⟩
    · rw [show LiveCall.pushed (.updateConfig config) = [] from rfl, List.append_nil]
      exact (List.append_nil returned).symm ▸ h.counted
    · rw [show LiveCall.pushed (.updateConfig config) = [] from rfl, List.append_nil]
      exact (List.append_nil returned).symm ▸ h.inOrder

theorem Holds.live : ∀ {calls : List LiveCall} {pushed : List PacketView} {returned : List Frame}
    {s : JitterBuffer}, Holds pushed returned s →
    Holds (pushed ++ calls.flatMap (·.pushed)) (returned ++ (live.exec s calls).2)
      (live.exec s calls).1
  | [], pushed, returned, s, h => by
    rw [List.flatMap_nil, List.append_nil, Machine.exec_nil, List.append_nil]
    exact h
  | call :: calls, pushed, returned, s, h => by
    have hrest := @Holds.live calls _ _ _ (h.liveStep call)
    rw [List.append_assoc, List.append_assoc] at hrest
    exact hrest

theorem conserves_live (config : Config) (calls : List LiveCall) :
    Conserves (calls.flatMap (·.pushed)) (live.exec { config } calls).2
      (live.exec { config } calls).1 :=
  (holds_init config).live.conserves

end NimRtc.Jb.JitterBuffer

/-!
## The size of the audio jitter buffer

Nothing reads the cap on the buffered packets. Each push adds a packet, so the cap is kept only by a
caller who pushes while there is room.
-/

namespace NimRtc.Jb

namespace JitterBuffer

def buffered (s : JitterBuffer) : ℕ := (s.frames.map (·.packets.length)).sum

def Bounded (s : JitterBuffer) : Prop := s.buffered ≤ s.config.maxPackets

end JitterBuffer

/-- There is room for what is pushed, and a new cap is not below what is in the buffer. -/
def LiveCall.Fits (s : JitterBuffer) : LiveCall → Prop
  | .media (.push _ _ _) => s.buffered < s.config.maxPackets
  | .media _ => True
  | .updateConfig config => s.buffered ≤ config.maxPackets

instance LiveCall.decidableFits (s : JitterBuffer) : ∀ call : LiveCall, Decidable (call.Fits s)
  | .media (.push _ _ _) => inferInstanceAs (Decidable (_ < _))
  | .media (.pop _ _) | .media .flush => .isTrue trivial
  | .updateConfig _ => inferInstanceAs (Decidable (_ ≤ _))

namespace JitterBuffer

open Rtp (PacketView)

variable {pushed : List PacketView} {returned : List Frame} {s : JitterBuffer}

theorem Holds.buffered_eq (h : Holds pushed returned s) : s.buffered = s.bufferedPackets :=
  (h.conserves.counted 0).symm

theorem Holds.buffered_push (h : Holds pushed returned s) (packet : PacketView) (arrival : ℤ)
    (refFrame : Option UInt64) :
    (s.push packet arrival refFrame).buffered = s.buffered + 1 := by
  rw [(h.push packet arrival refFrame).buffered_eq, h.buffered_eq]
  rfl

theorem Holds.buffered_pop (h : Holds pushed returned s) (now : ℤ) (tracked : Option ℤ) :
    (s.pop now tracked).1.buffered ≤ s.buffered := by
  rw [(h.pop now tracked).buffered_eq, h.buffered_eq, pop_bufferedPackets]
  exact Nat.sub_le _ _

theorem pop_config (s : JitterBuffer) (now : ℤ) (tracked : Option ℤ) :
    (s.pop now tracked).1.config = s.config := by
  simp only [JitterBuffer.pop]
  generalize (if s.config.adaptive then tracked.getD s.targetDelay else s.config.initialDelay)
    = target
  split
  · rfl
  · split
    · rfl
    · rfl

/-- A step keeps the cap just when there is room for it. -/
theorem Holds.bounded_step (h : Holds pushed returned s) (hs : s.Bounded) (call : LiveCall) :
    (JitterBuffer.live.step s call).1.Bounded ↔ call.Fits s := by
  rcases call with (⟨packet, arrival, refFrame⟩ | ⟨now, tracked⟩ | _) | config
  · have hpush := h.buffered_push packet arrival refFrame
    have hconfig : (s.push packet arrival refFrame).config = s.config := rfl
    rw [show (JitterBuffer.live.step s (.media (.push packet arrival refFrame))).1
      = s.push packet arrival refFrame from rfl, Bounded, hpush, hconfig]
    exact Nat.succ_le_iff
  · refine iff_of_true ?_ trivial
    have hpop := h.buffered_pop now tracked
    rw [show (JitterBuffer.live.step s (.media (.pop now tracked))).1
      = (s.pop now tracked).1 from rfl, Bounded, pop_config]
    exact hpop.trans hs
  · exact iff_of_true (Nat.zero_le _) trivial
  · exact Iff.rfl

/-- The cap is kept throughout just when every call fits. -/
theorem bounded_iff_fits (config : Config) (calls : List LiveCall) :
    live.Always Bounded { config } calls
      ↔ live.Meets (fun s call => call.Fits s) { config } calls := by
  refine Machine.always_iff_meets (I := fun s => ∃ pushed returned, Holds pushed returned s)
    (fun s call h _ => ?_) (fun s call h _ hs => ?_) calls ⟨[], [], holds_init config⟩
    (Nat.zero_le _) Machine.meets_true
  · obtain ⟨pushed, returned, h⟩ := h
    exact ⟨_, _, h.liveStep call⟩
  · obtain ⟨pushed, returned, h⟩ := h
    exact h.bounded_step hs call

/-- Two packets with their own timestamps, and nobody who pops. -/
def stalledRun : List LiveCall :=
  [.media (.push (audioPacket 0) 0 none), .media (.push (audioPacket 960) 20000000 none)]

/-- The second packet of the run is one too many, and none is dropped for it. -/
theorem cap_exceeded :
    (¬ ∀ (config : Config) (calls : List LiveCall), live.Always Bounded { config } calls)
      ∧ (live.exec { config := { maxPackets := 1 } } stalledRun).1.buffered = 2
      ∧ ((live.exec { config := { maxPackets := 1 } } stalledRun).1.stats 0).packetsDropped = 0 := by
  refine ⟨fun hall => ?_, by decide, by decide⟩
  obtain ⟨-, -, hsecond⟩ := hall { maxPackets := 1 } stalledRun
  exact absurd (show (live.exec { config := { maxPackets := 1 } } stalledRun).1.buffered ≤ 1
    from hsecond) (by decide)

end JitterBuffer

end NimRtc.Jb
