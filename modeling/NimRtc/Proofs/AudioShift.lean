import NimRtc.AudioJitterBuffer

/-!
# Moving the timestamps of an audio run

The buffer of the moved run is the moved buffer, frame by frame, as long as no new timestamp changes
sides. `pop` and `flush` take the frames from the front, so they return the moved frames.
-/

namespace NimRtc.Jb

variable {k : UInt32}

theorem Frame.add_shift (frame : Frame) (packet : Rtp.PacketView) (arrival : ℤ)
    (refFrame : Option UInt64) :
    (frame.shift k).add (packet.shift k) arrival refFrame
      = (frame.add packet arrival refFrame).shift k := by
  simp only [add, shift, List.map_append]
  rfl

namespace JitterBuffer

def shiftEntry (k : UInt32) (e : UInt32 × Frame) : UInt32 × Frame :=
  (e.1 + k, e.2.shift k)

structure Mirrors (k : UInt32) (s t : JitterBuffer) : Prop where
  fixed : s.config.adaptive = false
  config : t.config = s.config
  buffer : t.frameBuffer = s.frameBuffer.map (shiftEntry k)
  arrivals : t.frameArrivalTimes = s.frameArrivalTimes.map fun e => (e.1 + k, e.2)
  target : t.targetDelay = s.targetDelay

/-- What holds of a buffer by itself: the frames are in the order of the timestamps, moved or not,
and each has an arrival time and its own timestamp. -/
structure Ordered (k : UInt32) (s : JitterBuffer) : Prop where
  sorted : s.timestamps.Pairwise (· < ·)
  moved : s.timestamps.Pairwise fun a b => a + k < b + k
  arrived : ∀ ts ∈ s.timestamps, (s.frameArrivalTimes.lookup ts).isSome
  stamped : ∀ e ∈ s.frameBuffer, e.2.frameTimestamp = e.1

variable {s t : JitterBuffer}

theorem Mirrors.timestamps (h : Mirrors k s t) : t.timestamps = s.timestamps.map (· + k) := by
  rw [JitterBuffer.timestamps, h.buffer, JitterBuffer.timestamps, List.map_map,
    List.map_map]
  rfl

theorem lookup_shift {β : Type*} (k ts : UInt32) : ∀ l : List (UInt32 × β),
    (l.map fun e => (e.1 + k, e.2)).lookup (ts + k) = l.lookup ts
  | [] => rfl
  | e :: l => by
    have hkey : (ts + k == e.1 + k) = (ts == e.1) := by
      rw [Bool.eq_iff_iff, beq_iff_eq, beq_iff_eq, add_left_inj]
    rw [List.map_cons, List.lookup_cons, List.lookup_cons, hkey, lookup_shift k ts l]

theorem lookup_filter_ne {β : Type*} {ts ts' : UInt32} (hne : ts' ≠ ts) :
    ∀ l : List (UInt32 × β), (l.filter fun e => e.1 ≠ ts).lookup ts' = l.lookup ts'
  | [] => rfl
  | e :: l => by
    by_cases he : e.1 = ts
    · have hmiss : (ts' == e.1) = false := by simpa [he] using hne
      rw [List.filter_cons_of_neg (by simpa using he), List.lookup_cons, hmiss,
        lookup_filter_ne hne l]
    · rw [List.filter_cons_of_pos (by simpa using he), List.lookup_cons, List.lookup_cons,
        lookup_filter_ne hne l]

/-! ### Pushing -/

theorem any_timestamp (buffer : List (UInt32 × Frame)) (ts : UInt32) :
    (buffer.any fun e => e.1 = ts) = true ↔ ts ∈ buffer.map (·.1) := by
  rw [List.any_eq_true, List.mem_map]
  simp only [decide_eq_true_eq]

theorem le_iff_of_lt_iff {a b c d : UInt32} (hne : a ≠ b) (hne' : c ≠ d) (h : a < b ↔ c < d) :
    (a ≤ b ↔ c ≤ d) ∧ (b ≤ a ↔ d ≤ c) := by
  rw [ne_eq, ← UInt32.toNat_inj] at hne hne'
  rw [UInt32.lt_iff_toNat_lt, UInt32.lt_iff_toNat_lt] at h
  simp only [UInt32.le_iff_toNat_le]
  omega

/-- A frame is put at the same place among the moved frames. -/
theorem updateFrame_shift {buffer : List (UInt32 × Frame)} {ts : UInt32}
    {f g : Frame → Frame} (hf : ∀ frame : Frame, g (frame.shift k) = (f frame).shift k)
    (hg : g {} = (f {}).shift k)
    (hside : ts ∉ buffer.map (·.1) → ∀ e ∈ buffer, (ts < e.1 ↔ ts + k < e.1 + k)) :
    updateFrame (buffer.map (shiftEntry k)) (ts + k) g = (updateFrame buffer ts f).map (shiftEntry k) := by
  have hany : ((buffer.map (shiftEntry k)).any fun e => e.1 = ts + k)
      = buffer.any fun e => e.1 = ts := by
    rw [List.any_map]
    congr 1
    funext e
    simp [shiftEntry]
  simp only [updateFrame, hany]
  split
  · rw [List.map_map, List.map_map]
    refine List.map_congr_left fun e _ => ?_
    simp only [Function.comp_apply, shiftEntry, add_left_inj]
    split
    · rw [hf]
    · rfl
  · rename_i hnew
    rw [any_timestamp] at hnew
    have hle : ∀ e ∈ buffer, (ts ≤ e.1 ↔ ts + k ≤ e.1 + k) ∧ (e.1 ≤ ts ↔ e.1 + k ≤ ts + k) := by
      intro e he
      have hmem : e.1 ∈ buffer.map (·.1) := List.mem_map_of_mem he
      have hne : ts ≠ e.1 := fun heq => hnew (heq ▸ hmem)
      exact le_iff_of_lt_iff hne (fun heq => hne (add_right_cancel heq)) (hside hnew e he)
    rw [hg]
    exact (List.map_orderedInsert _ _ (shiftEntry k) buffer (ts, f {})
      (fun e he => (hle e he).2) fun e he => (hle e he).1).symm

theorem mem_updateFrame {buffer : List (UInt32 × Frame)} {ts : UInt32}
    {f : Frame → Frame} {e : UInt32 × Frame} (h : e ∈ updateFrame buffer ts f) :
    e ∈ buffer ∨ e.1 = ts ∧ ∃ frame, e.2 = f frame := by
  simp only [updateFrame] at h
  split at h
  · obtain ⟨d, hd, rfl⟩ := List.mem_map.1 h
    split
    · rename_i hts
      exact .inr ⟨hts, _, rfl⟩
    · exact .inl hd
  · rcases (List.mem_orderedInsert _).1 h with rfl | h
    · exact .inr ⟨rfl, _, rfl⟩
    · exact .inl h

/-- The timestamps with a new one in its place. -/
theorem keys_updateFrame (buffer : List (UInt32 × Frame)) (ts : UInt32)
    (f : Frame → Frame) :
    (updateFrame buffer ts f).map (·.1)
      = if ts ∈ buffer.map (·.1) then buffer.map (·.1)
        else (buffer.map (·.1)).orderedInsert (· ≤ ·) ts := by
  simp only [updateFrame, any_timestamp]
  split
  · rw [List.map_map]
    refine List.map_congr_left fun e _ => ?_
    simp only [Function.comp_apply]
    split <;> rfl
  · exact List.map_orderedInsert _ _ (fun e : UInt32 × Frame => e.1) buffer (ts, f {})
      (fun _ _ => Iff.rfl) (fun _ _ => Iff.rfl)

theorem pairwise_orderedInsert_lt {l : List UInt32} {ts : UInt32} (h : l.Pairwise (· < ·))
    (hnew : ts ∉ l) : (l.orderedInsert (· ≤ ·) ts).Pairwise (· < ·) := by
  have htrans : IsTrans UInt32 (· ≤ ·) := ⟨fun _ _ _ => UInt32.le_trans⟩
  have htotal : Std.Total (α := UInt32) (· ≤ ·) := ⟨fun _ _ => UInt32.le_total _ _⟩
  have hle : (l.orderedInsert (· ≤ ·) ts).Pairwise (· ≤ ·) :=
    List.Pairwise.orderedInsert ts l (h.imp UInt32.le_of_lt)
  have hne : (l.orderedInsert (· ≤ ·) ts).Nodup := by
    rw [(List.perm_orderedInsert (· ≤ ·) ts l).nodup_iff, List.nodup_cons]
    exact ⟨hnew, h.imp UInt32.ne_of_lt⟩
  exact (hle.and hne).imp fun h => UInt32.lt_of_le_of_ne h.1 h.2

theorem Mirrors.push (h : Mirrors k s t) {packet : Rtp.PacketView} {arrival : ℤ}
    {refFrame : Option UInt64} (hok : Call.KeepsOrder k s (.push packet arrival refFrame)) :
    Mirrors k (s.push packet arrival refFrame) (t.push (packet.shift k) arrival refFrame) where
  fixed := h.fixed
  config := h.config
  buffer := by
    simp only [JitterBuffer.push, h.buffer]
    exact updateFrame_shift (fun frame => frame.add_shift packet arrival refFrame)
      (Frame.add_shift {} packet arrival refFrame) hok
  arrivals := by
    have hcur : t.frameArrivalTimes.lookup (packet.shift k).timestamp
        = s.frameArrivalTimes.lookup packet.timestamp := by
      rw [h.arrivals]
      exact lookup_shift k packet.timestamp _
    simp only [JitterBuffer.push, hcur]
    split
    · exact h.arrivals
    · rw [List.map_cons, h.arrivals]
      rfl
  target := by
    simp only [JitterBuffer.push, h.target, h.config]
    rfl

/-- A new timestamp stays on its side of the others, so the moved ones are in order too. -/
theorem pairwise_moved_insert {l : List UInt32} {ts : UInt32}
    (hmoved : l.Pairwise fun a b => a + k < b + k) (hnew : ts ∉ l)
    (hside : ∀ ts' ∈ l, (ts < ts' ↔ ts + k < ts' + k)) :
    (l.orderedInsert (· ≤ ·) ts).Pairwise fun a b => a + k < b + k := by
  have hle : ∀ a ∈ l, (ts ≤ a ↔ ts + k ≤ a + k) ∧ (a ≤ ts ↔ a + k ≤ ts + k) := by
    intro a ha
    have hne : ts ≠ a := fun heq => hnew (heq ▸ ha)
    exact le_iff_of_lt_iff hne (fun heq => hne (add_right_cancel heq)) (hside a ha)
  have hmap : (l.orderedInsert (· ≤ ·) ts).map (· + k)
      = (l.map (· + k)).orderedInsert (· ≤ ·) (ts + k) :=
    List.map_orderedInsert _ _ (· + k) l ts (fun a ha => (hle a ha).2) fun a ha => (hle a ha).1
  have hsorted : ((l.map (· + k)).orderedInsert (· ≤ ·) (ts + k)).Pairwise (· < ·) := by
    refine pairwise_orderedInsert_lt (List.pairwise_map.2 hmoved) fun hmem => ?_
    obtain ⟨a, ha, heq⟩ := List.mem_map.1 hmem
    exact hnew (add_right_cancel heq ▸ ha)
  rw [← hmap, List.pairwise_map] at hsorted
  exact hsorted

theorem Ordered.push (h : Ordered k s) {packet : Rtp.PacketView} {arrival : ℤ}
    {refFrame : Option UInt64} (hok : Call.KeepsOrder k s (.push packet arrival refFrame)) :
    Ordered k (s.push packet arrival refFrame) := by
  have hkeys : (s.push packet arrival refFrame).timestamps
      = if packet.timestamp ∈ s.timestamps then s.timestamps
        else s.timestamps.orderedInsert (· ≤ ·) packet.timestamp :=
    keys_updateFrame s.frameBuffer packet.timestamp fun frame => frame.add packet arrival refFrame
  refine ⟨?_, ?_, fun ts hts => ?_, fun e he => ?_⟩
  · rw [hkeys]
    split
    · exact h.sorted
    · rename_i hnew
      exact pairwise_orderedInsert_lt h.sorted hnew
  · rw [hkeys]
    split
    · exact h.moved
    · rename_i hnew
      exact pairwise_moved_insert h.moved hnew (List.forall_mem_map.2 (hok hnew))
  · have hcases : ts = packet.timestamp ∨ ts ∈ s.timestamps := by
      rw [hkeys] at hts
      split at hts
      · exact .inr hts
      · exact (List.mem_orderedInsert _).1 hts
    simp only [JitterBuffer.push]
    split
    · rename_i hsome
      rcases hcases with rfl | hts
      · exact hsome
      · exact h.arrived ts hts
    · rw [List.lookup_cons]
      split
      · rfl
      · rename_i hne
        exact h.arrived ts (hcases.resolve_left (by simpa using hne))
  · have hmem : e ∈ updateFrame s.frameBuffer packet.timestamp
        fun frame => frame.add packet arrival refFrame := he
    rcases mem_updateFrame hmem with he | ⟨hts, frame, hframe⟩
    · exact h.stamped e he
    · rw [hframe, hts]
      rfl

/-! ### Popping -/

theorem Mirrors.firstFrame (h : Mirrors k s t) : t.firstFrame
    = s.firstFrame.map fun e => (e.1 + k, e.2.1.shift k, e.2.2) := by
  rw [JitterBuffer.firstFrame, JitterBuffer.firstFrame, h.buffer, List.findSome?_map,
    List.map_findSome?]
  congr 1
  funext e
  simp only [Function.comp_apply, shiftEntry, h.arrivals, lookup_shift, Option.map_map]
  rfl

theorem Mirrors.pop (h : Mirrors k s t) (now : ℤ) (tracked : Option ℤ) :
    Mirrors k (s.pop now tracked).1 (t.pop now tracked).1
      ∧ (t.pop now tracked).2 = (s.pop now tracked).2.map (.shift k) := by
  let s₁ := { s with targetDelay := s.config.initialDelay }
  let t₁ := { t with targetDelay := t.config.initialDelay }
  have h₁ : Mirrors k s₁ t₁ := ⟨h.fixed, h.config, h.buffer, h.arrivals, by simp [s₁, t₁, h.config]⟩
  have hfixed' : t.config.adaptive = false := h.config ▸ h.fixed
  simp only [JitterBuffer.pop, h.fixed, hfixed', Bool.false_eq_true, if_false]
  have hfirst := h₁.firstFrame
  simp only [s₁, t₁] at hfirst
  rw [hfirst]
  rcases JitterBuffer.firstFrame { s with targetDelay := s.config.initialDelay } with
    _ | ⟨ts, frame, arrival⟩
  · exact ⟨h₁, rfl⟩
  · simp only [Option.map_some, h.config]
    split
    · refine ⟨⟨h.fixed, rfl, ?_, ?_, rfl⟩, rfl⟩
      · simp only [h.buffer, List.filter_map]
        congr 1
        refine List.filter_congr fun e _ => ?_
        simp [shiftEntry]
      · simp only [h.arrivals, List.filter_map]
        congr 1
        refine List.filter_congr fun e _ => ?_
        simp
    · exact ⟨⟨h.fixed, rfl, h.buffer, h.arrivals, rfl⟩, rfl⟩

/-- `pop` returns the frame at the front or none. -/
theorem Ordered.pop_cases (h : Ordered k s) (now : ℤ) (tracked : Option ℤ) :
    ((s.pop now tracked).2 = none ∧ (s.pop now tracked).1.frameBuffer = s.frameBuffer
        ∧ (s.pop now tracked).1.frameArrivalTimes = s.frameArrivalTimes)
      ∨ ∃ ts frame rest, s.frameBuffer = (ts, frame) :: rest
        ∧ (s.pop now tracked).2 = some frame ∧ (s.pop now tracked).1.frameBuffer = rest
        ∧ (s.pop now tracked).1.frameArrivalTimes
          = s.frameArrivalTimes.filter fun e => e.1 ≠ ts := by
  rcases hbuffer : s.frameBuffer with _ | ⟨⟨ts, frame⟩, rest⟩
  · simp [JitterBuffer.pop, firstFrame, hbuffer]
  · obtain ⟨arrival, harrival⟩ := Option.isSome_iff_exists.1
      (h.arrived ts (by simp [JitterBuffer.timestamps, hbuffer]))
    have hrest : ((ts, frame) :: rest).filter (fun e => e.1 ≠ ts) = rest := by
      have hsorted := h.sorted
      simp only [JitterBuffer.timestamps, hbuffer, List.map_cons, List.pairwise_cons] at hsorted
      rw [List.filter_cons_of_neg (by simp), List.filter_eq_self]
      intro e he
      have hlt := hsorted.1 e.1 (List.mem_map_of_mem he)
      simpa using (UInt32.ne_of_lt hlt).symm
    simp only [JitterBuffer.pop]
    generalize (if s.config.adaptive then tracked.getD s.targetDelay else s.config.initialDelay)
      = target
    simp only [firstFrame, hbuffer, List.findSome?_cons, harrival, Option.map_some]
    split
    · exact .inr ⟨ts, frame, rest, rfl, rfl, hrest, rfl⟩
    · exact .inl ⟨rfl, rfl, rfl⟩

theorem Ordered.pop (h : Ordered k s) (now : ℤ) (tracked : Option ℤ) :
    Ordered k (s.pop now tracked).1
      ∧ Report.InOrder k
        { frames := (s.pop now tracked).2.toList, left := (s.pop now tracked).1.timestamps } := by
  rcases h.pop_cases now tracked with
    ⟨hout, hbuffer, harrivals⟩ | ⟨ts, frame, rest, hfront, hout, hbuffer, harrivals⟩
  · have hts : (s.pop now tracked).1.timestamps = s.timestamps := by
      rw [JitterBuffer.timestamps, hbuffer]
      rfl
    refine ⟨⟨?_, ?_, ?_, ?_⟩, ?_⟩
    · rw [hts]
      exact h.sorted
    · rw [hts]
      exact h.moved
    · rw [hts, harrivals]
      exact h.arrived
    · rw [hbuffer]
      exact h.stamped
    · rw [Report.InOrder, hout, hts]
      exact h.moved
  · have hts : s.timestamps = ts :: (s.pop now tracked).1.timestamps := by
      rw [JitterBuffer.timestamps, JitterBuffer.timestamps, hfront, hbuffer]
      rfl
    have hsorted := h.sorted
    have hmoved := h.moved
    rw [hts] at hsorted hmoved
    obtain ⟨hfirst, hsorted'⟩ := List.pairwise_cons.1 hsorted
    have hstamp : frame.frameTimestamp = ts := h.stamped (ts, frame) (by simp [hfront])
    refine ⟨⟨hsorted', (List.pairwise_cons.1 hmoved).2, fun ts' hts' => ?_, fun e he => ?_⟩, ?_⟩
    · rw [harrivals, lookup_filter_ne (UInt32.ne_of_lt (hfirst ts' hts')).symm]
      exact h.arrived ts' (hts ▸ List.mem_cons_of_mem _ hts')
    · rw [hbuffer] at he
      exact h.stamped e (hfront ▸ List.mem_cons_of_mem _ he)
    · rw [Report.InOrder, hout, Option.toList_some, List.map_singleton, hstamp]
      exact hmoved

/-! ### Runs -/

theorem Ordered.flush (h : Ordered k s) :
    Ordered k s.flush.1 ∧ Report.InOrder k { frames := s.flush.2, left := s.flush.1.timestamps } := by
  refine ⟨⟨List.Pairwise.nil, List.Pairwise.nil, ?_, ?_⟩, ?_⟩
  · intro ts hts
    simp [JitterBuffer.flush, JitterBuffer.timestamps] at hts
  · intro e he
    simp [JitterBuffer.flush] at he
  · have hframes : s.flush.2.map (·.frameTimestamp) = s.timestamps := by
      rw [JitterBuffer.flush, List.map_map]
      exact List.map_congr_left fun e he => h.stamped e he
    rw [Report.InOrder, hframes]
    simpa [JitterBuffer.flush, JitterBuffer.timestamps] using h.moved

theorem Mirrors.flush (h : Mirrors k s t) :
    Mirrors k s.flush.1 t.flush.1 ∧ t.flush.2 = s.flush.2.map (.shift k) := by
  refine ⟨⟨h.fixed, h.config, rfl, rfl, h.target⟩, ?_⟩
  simp only [JitterBuffer.flush, h.buffer, List.map_map]
  rfl

theorem Mirrors.step (h : Mirrors k s t) (call : Call) (hok : call.KeepsOrder k s) :
    Mirrors k (s.step call).1 (t.step (call.shift k)).1
      ∧ (t.step (call.shift k)).2 = (s.step call).2.map (.shift k) := by
  cases call with
  | push packet arrival refFrame => exact ⟨h.push hok, rfl⟩
  | pop now tracked =>
    obtain ⟨hnext, hout⟩ := h.pop now tracked
    refine ⟨hnext, ?_⟩
    simp only [JitterBuffer.step, Call.shift, hout, hnext.timestamps, List.map_singleton,
      Report.shift, Option.toList_map]
  | flush =>
    obtain ⟨hnext, hout⟩ := h.flush
    refine ⟨hnext, ?_⟩
    simp only [JitterBuffer.step, Call.shift, hout, hnext.timestamps, List.map_singleton,
      Report.shift]

theorem Ordered.step (h : Ordered k s) (call : Call) (hok : call.KeepsOrder k s) :
    Ordered k (s.step call).1 ∧ ∀ r ∈ (s.step call).2, r.InOrder k := by
  cases call with
  | push packet arrival refFrame => exact ⟨h.push hok, by simp [JitterBuffer.step]⟩
  | pop now tracked =>
    obtain ⟨hnext, hout⟩ := h.pop now tracked
    exact ⟨hnext, fun r hr => List.mem_singleton.1 hr ▸ hout⟩
  | flush =>
    obtain ⟨hnext, hout⟩ := h.flush
    exact ⟨hnext, fun r hr => List.mem_singleton.1 hr ▸ hout⟩

/-- With a fixed delay, moving every timestamp of a run moves the frames that each call returns and
changes nothing else, as long as no new timestamp changes sides. The frames are then played in the
order of the moved timestamps. -/
theorem played_moved (k : UInt32) (config : Config) (hfixed : config.adaptive = false)
    (calls : List Call)
    (hside : machine.Meets (fun s call => call.KeepsOrder k s) { config } calls) :
    played config (calls.map (.shift k)) = (played config calls).map (.shift k)
      ∧ ∀ r ∈ played config calls, r.InOrder k := by
  have hstart : Mirrors k { config } { config } := ⟨hfixed, rfl, rfl, rfl, rfl⟩
  have hordered : Ordered k { config } :=
    ⟨List.Pairwise.nil, List.Pairwise.nil, by simp [JitterBuffer.timestamps], by simp⟩
  refine ⟨?_, ?_⟩
  · exact (Machine.exec_sim (R := Mirrors k) (fun _ _ call h hok => h.step call hok) calls hstart
      hside).2
  · exact (Machine.exec_inv (I := Ordered k) (fun _ call h hok => h.step call hok) calls hordered
      hside).2

def audioPacket (ts : UInt32) : Rtp.PacketView where
  payload := [1]
  ssrc := 7
  seq := 10
  timestamp := ts
  payloadType := 111
  marker := false
  csrc := []
  extension := none
  extmapUri := fun _ => none

/-- Two frames that are in the buffer one after the other. -/
def talkRun : List Call :=
  [.push (audioPacket 10) 0 none, .pop 60000000 none, .push (audioPacket 11) 60000000 none,
    .push (audioPacket 12) 61000000 none, .pop 120000000 none, .flush]

/-- The wrap falls after the first frame. -/
theorem played_moved_talk :
    (played { adaptive := false } (talkRun.map (.shift (-11)))).map
        (fun r => r.frames.map (·.frameTimestamp)) = [[0xFFFFFFFF], [0], [1]]
      ∧ (played { adaptive := false } (talkRun.map (.shift (-11)))
          = (played { adaptive := false } talkRun).map (.shift (-11))
        ∧ ∀ r ∈ played { adaptive := false } talkRun, r.InOrder (-11)) :=
  ⟨by decide, played_moved (-11) { adaptive := false } rfl talkRun (by decide)⟩

/-- Two frames that are in the buffer together. -/
def wrappedRun : List Call :=
  [.push (audioPacket 10) 0 none, .push (audioPacket 11) 1000000 none, .pop 60000000 none]

theorem wrap_reorders_frames :
    ¬ ∀ k config calls, config.adaptive = false → SpanHalf (calls.flatMap Call.timestamps) →
      played config (calls.map (.shift k)) = (played config calls).map (.shift k) := by
  intro h
  have hspan : SpanHalf (wrappedRun.flatMap Call.timestamps) := by
    refine ⟨0, fun ts hts => ?_⟩
    have hts : ts = 10 ∨ ts = 11 := by
      simpa [wrappedRun, Call.timestamps, audioPacket] using hts
    rcases hts with rfl | rfl <;> simp
  have hmoved := congrArg (List.map fun r => r.frames.map (·.frameTimestamp))
    (h (-11) { adaptive := false } wrappedRun rfl hspan)
  have hout : (played { adaptive := false } (wrappedRun.map (.shift (-11)))).map
      (fun r => r.frames.map (·.frameTimestamp)) = [[0]] := by decide
  have hout' : ((played { adaptive := false } wrappedRun).map (Report.shift (-11))).map
      (fun r => r.frames.map (·.frameTimestamp)) = [[0xFFFFFFFF]] := by decide
  rw [hout, hout'] at hmoved
  simp at hmoved

end JitterBuffer

end NimRtc.Jb
