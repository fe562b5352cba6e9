import NimRtc.Proofs.SchedulerDrops

/-!
# The streams of the scheduler

Every queued packet of a stream sits in the bucket of the stream's priority, so a change of the
priority moves all of them, and what is queued for a stream waits in one first-in first-out queue
whichever bucket that is. A drain whose callback accepts takes the first packets of what waits.
-/

namespace NimRtc

open ClassQueues

namespace Scheduler

variable {α : Type*} {s : Scheduler α}

/-- What waits in the buckets, from the highest stream priority on. -/
def streamWaiting (s : Scheduler α) : List (PacketRecord α) :=
  inOrder StreamPriority.all s.streamBuckets

/-- Each packet sits in the bucket of the priority of its stream. -/
def Bucketed (s : Scheduler α) : Prop :=
  ∀ level, ∀ r ∈ s.streamBuckets level, s.getStreamPriority r.streamId = level

/-- The packets of one stream. -/
def ofStream (streamId : UInt32) (l : List (PacketRecord α)) : List (PacketRecord α) :=
  l.filter fun r => r.streamId = streamId

@[simp] theorem ofStream_append (streamId : UInt32) (l l' : List (PacketRecord α)) :
    ofStream streamId (l ++ l') = ofStream streamId l ++ ofStream streamId l' :=
  List.filter_append ..

theorem nodup_streamAll : StreamPriority.all.Nodup := by decide

theorem mem_streamAll (level : StreamPriority) : level ∈ StreamPriority.all := by
  cases level <;> decide

/-- What waits for a stream waits in one bucket. -/
theorem Bucketed.ofStream_streamWaiting (h : s.Bucketed) (streamId : UInt32) :
    ofStream streamId s.streamWaiting
      = ofStream streamId (s.streamBuckets (s.getStreamPriority streamId)) := by
  refine filter_inOrder nodup_streamAll (mem_streamAll _) fun level _ hne => ?_
  refine List.filter_eq_nil_iff.2 fun r hr hid => hne ?_
  rw [← h level r hr, of_decide_eq_true hid]

/-- Only the buckets and the priorities of the streams matter. -/
theorem Bucketed.congr {s' : Scheduler α} (h : s.Bucketed)
    (hbuckets : s'.streamBuckets = s.streamBuckets)
    (hpriority : s'.streamPriority = s.streamPriority) : s'.Bucketed := by
  intro level r hr
  rw [hbuckets] at hr
  unfold getStreamPriority
  rw [hpriority]
  exact h level r hr

/-! ## A change of the priority -/

theorem getStreamPriority_insert {s' : Scheduler α} {streamId : UInt32} {level : StreamPriority}
    (h : s'.streamPriority = s.streamPriority.insert streamId level) (id : UInt32) :
    s'.getStreamPriority id = if id = streamId then level else s.getStreamPriority id := by
  unfold getStreamPriority
  rw [h]
  split_ifs with hid
  · rw [hid, AList.lookup_insert, Option.getD_some]
  · rw [AList.lookup_insert_ne hid]

theorem getStreamPriority_setStreamPriority (streamId : UInt32) (level : StreamPriority)
    (id : UInt32) : (s.setStreamPriority streamId level).getStreamPriority id
      = if id = streamId then level else s.getStreamPriority id := by
  refine getStreamPriority_insert ?_ id
  unfold setStreamPriority
  simp only
  split_ifs <;> rfl

/-- Setting the priority a stream has leaves the buckets as they are. -/
theorem streamBuckets_setStreamPriority_self (streamId : UInt32) :
    (s.setStreamPriority streamId (s.getStreamPriority streamId)).streamBuckets
      = s.streamBuckets := by
  simp [setStreamPriority]

/-- The old bucket keeps the other streams, and the packets of the stream go behind the new one. -/
theorem streamBuckets_setStreamPriority {streamId : UInt32} {level : StreamPriority}
    (hne : s.getStreamPriority streamId ≠ level) (b : StreamPriority) :
    (s.setStreamPriority streamId level).streamBuckets b
      = if b = level then
          s.streamBuckets b ++ ofStream streamId (s.streamBuckets (s.getStreamPriority streamId))
        else if b = s.getStreamPriority streamId then
          (s.streamBuckets b).filter fun r => r.streamId ≠ streamId
        else s.streamBuckets b := by
  simp only [setStreamPriority, if_neg hne, Function.update_apply, ofStream, if_neg hne.symm]
  split_ifs with hlevel hold
  · rw [hlevel]
  · rw [hold]
  · rfl

theorem bucketed_setStreamPriority (h : s.Bucketed) (streamId : UInt32) (level : StreamPriority) :
    (s.setStreamPriority streamId level).Bucketed := by
  by_cases heq : s.getStreamPriority streamId = level
  · subst heq
    intro b r hr
    rw [streamBuckets_setStreamPriority_self] at hr
    rw [getStreamPriority_setStreamPriority]
    split_ifs with hid
    · rw [← hid]
      exact h b r hr
    · exact h b r hr
  intro b r hr
  rw [streamBuckets_setStreamPriority heq] at hr
  rw [getStreamPriority_setStreamPriority]
  split_ifs at hr with hlevel hold
  · rcases List.mem_append.1 hr with hr | hr
    · split_ifs
      · exact hlevel.symm
      · exact h b r hr
    · have hid : r.streamId = streamId := of_decide_eq_true (List.mem_filter.1 hr).2
      rw [if_pos hid, hlevel]
  · obtain ⟨hr, hid⟩ := List.mem_filter.1 hr
    rw [if_neg (of_decide_eq_true hid)]
    exact h b r hr
  · -- a packet of the stream would sit in its old bucket
    have hid : r.streamId ≠ streamId := by
      rintro rfl
      exact hold (h b r hr).symm
    rw [if_neg hid]
    exact h b r hr

theorem ofStream_setStreamPriority (h : s.Bucketed) (streamId : UInt32) (level : StreamPriority)
    (id : UInt32) : ofStream id (s.setStreamPriority streamId level).streamWaiting
      = ofStream id s.streamWaiting := by
  rw [(bucketed_setStreamPriority h streamId level).ofStream_streamWaiting,
    h.ofStream_streamWaiting, getStreamPriority_setStreamPriority]
  by_cases heq : s.getStreamPriority streamId = level
  · subst heq
    rw [streamBuckets_setStreamPriority_self]
    split_ifs with hid
    · rw [hid]
    · rfl
  rw [streamBuckets_setStreamPriority heq]
  by_cases hid : id = streamId
  · subst hid
    -- the new bucket held no packet of the stream
    have hnil : ofStream id (s.streamBuckets level) = [] := by
      refine List.filter_eq_nil_iff.2 fun r hr hid => heq ?_
      rw [← h level r hr, of_decide_eq_true hid]
    rw [if_pos rfl, if_pos rfl, ofStream_append, hnil, List.nil_append]
    exact List.filter_filter.trans (by simp [ofStream])
  · rw [if_neg hid]
    have hother : ofStream id (ofStream streamId
        (s.streamBuckets (s.getStreamPriority streamId))) = [] := by
      refine List.filter_eq_nil_iff.2 fun r hr hid' => hid ?_
      rw [← of_decide_eq_true hid', of_decide_eq_true (List.mem_filter.1 hr).2]
    split_ifs
    · rw [ofStream_append, hother, List.append_nil]
    · refine List.filter_filter.trans (List.filter_congr fun r _ => ?_)
      by_cases hr : r.streamId = id <;> simp [hr, hid]
    · rfl

/-! ## A packet for a stream -/

theorem getStreamPriority_enqueueForStreamOwned (streamId : UInt32) (data : α) (dst : Addr)
    (id : UInt32) :
    (s.enqueueForStreamOwned streamId data dst).getStreamPriority id = s.getStreamPriority id := by
  by_cases hmem : streamId ∈ s.streamPriority
  · simp [getStreamPriority, enqueueForStreamOwned, hmem]
  · have hinsert : (s.enqueueForStreamOwned streamId data dst).streamPriority
        = s.streamPriority.insert streamId .normal := by
      simp [enqueueForStreamOwned, hmem]
    rw [getStreamPriority_insert hinsert]
    split_ifs with hid
    · rw [getStreamPriority, hid, AList.lookup_eq_none.2 hmem]
      rfl
    · rfl

theorem streamBuckets_enqueueForStreamOwned (streamId : UInt32) (data : α) (dst : Addr)
    (b : StreamPriority) : (s.enqueueForStreamOwned streamId data dst).streamBuckets b
      = s.streamBuckets b
        ++ if b = s.getStreamPriority streamId then [s.streamRecord streamId data dst] else [] := by
  simp only [enqueueForStreamOwned, Function.update_apply]
  split_ifs with hb hdst
  · simp [hb, streamRecord, hdst]
  · simp [hb, streamRecord, hdst]
  · rw [List.append_nil]

theorem bucketed_enqueueForStreamOwned (h : s.Bucketed) (streamId : UInt32) (data : α)
    (dst : Addr) : (s.enqueueForStreamOwned streamId data dst).Bucketed := by
  intro b r hr
  rw [streamBuckets_enqueueForStreamOwned, List.mem_append] at hr
  rw [getStreamPriority_enqueueForStreamOwned]
  rcases hr with hr | hr
  · exact h b r hr
  · split_ifs at hr with hb
    · rw [List.mem_singleton.1 hr, hb]
      rfl
    · simp at hr

theorem ofStream_enqueueForStreamOwned (h : s.Bucketed) (streamId : UInt32) (data : α) (dst : Addr)
    (id : UInt32) : ofStream id (s.enqueueForStreamOwned streamId data dst).streamWaiting
      = ofStream id s.streamWaiting ++ ofStream id [s.streamRecord streamId data dst] := by
  rw [(bucketed_enqueueForStreamOwned h streamId data dst).ofStream_streamWaiting,
    h.ofStream_streamWaiting, getStreamPriority_enqueueForStreamOwned,
    streamBuckets_enqueueForStreamOwned, ofStream_append]
  congr 1
  by_cases hid : streamId = id
  · subst hid
    rw [if_pos rfl]
  · have hother : ofStream id [s.streamRecord streamId data dst] = [] := by
      simp [ofStream, streamRecord, hid]
    split_ifs
    · rfl
    · exact hother.symm

/-! ## A drain of the streams -/

section Select

variable {maxPackets : ℤ} {cb : Option (DrainCallback α)}
  (hcb : ∀ offers r, answer cb offers r = true)

theorem selectStops_iff (n : ℕ) :
    (decide ¬ (n : ℤ) < maxPackets) = true ↔ maxPackets.toNat ≤ n := by
  rw [decide_eq_true_eq]
  omega

theorem streamPriority_selectNextPacket :
    (s.selectNextPacket maxPackets cb).1.streamPriority = s.streamPriority := by
  unfold selectNextPacket
  simp only
  split_ifs <;> rfl

include hcb

/-- While the callback accepts, the drain passes over no bucket and leaves none early. -/
theorem selectBuckets_eq : ∀ (bs : List StreamPriority)
    (buckets : StreamPriority → List (PacketRecord α)) (d : Drain α),
    s.selectBuckets maxPackets cb bs buckets d
      = drainEach (s.drainStreamBucket maxPackets cb) bs buckets d
  | [], _, _ => rfl
  | b :: bs, buckets, d => by
    simp only [selectBuckets, drainEach, selectBuckets_eq bs]
    have hloop : s.drainStreamBucket maxPackets cb (buckets b) d
        = ((buckets b).drop (maxPackets.toNat - d.sent), d.advance s.config.avgPacketSizeBytes
          ((buckets b).take (maxPackets.toNat - d.sent))) :=
      drainLoop_accepted selectStops_iff fun _ _ _ _ => hcb _ _
    split_ifs with hmax hnil hnone
    · have hkeep : s.drainStreamBucket maxPackets cb (buckets b) d = (buckets b, d) := by
        rw [hnil]
        rfl
      rw [hkeep, Function.update_eq_self]
    · -- something is sent from a bucket that is not empty
      have hlen := List.length_pos_of_ne_nil hnil
      rw [hloop, Drain.advance_sent, List.length_take] at hnone
      omega
    · rfl
    · have hge : maxPackets.toNat ≤ d.sent := by omega
      have hdone : drainEach (s.drainStreamBucket maxPackets cb) (b :: bs) buckets d = (buckets, d) :=
        drainEach_done selectStops_iff hge
      exact hdone.symm

/-- The packets emitted are the first that wait. -/
theorem selectNextPacket_accepted :
    (s.selectNextPacket maxPackets cb).1.streamBuckets
        = dropFirst StreamPriority.all s.streamBuckets maxPackets.toNat
      ∧ (s.selectNextPacket maxPackets cb).2.accepted = s.streamWaiting.take maxPackets.toNat := by
  unfold selectNextPacket
  simp only
  split_ifs with hmax
  · have hzero : maxPackets.toNat = 0 := by omega
    rw [hzero, dropFirst_zero, List.take_zero]
    exact ⟨rfl, rfl⟩
  · rw [selectBuckets_eq hcb]
    unfold drainStreamBucket
    rw [drainEach_accepted selectStops_iff nodup_streamAll fun _ _ _ _ => hcb _ _]
    exact ⟨rfl, Drain.accepted_advance _⟩

theorem streamWaiting_selectNextPacket :
    (s.selectNextPacket maxPackets cb).1.streamWaiting = s.streamWaiting.drop maxPackets.toNat := by
  rw [streamWaiting, (selectNextPacket_accepted hcb).1, inOrder_dropFirst nodup_streamAll]
  rfl

theorem bucketed_selectNextPacket (h : s.Bucketed) :
    (s.selectNextPacket maxPackets cb).1.Bucketed := by
  intro b r hr
  rw [(selectNextPacket_accepted hcb).1] at hr
  unfold getStreamPriority
  rw [streamPriority_selectNextPacket]
  exact h b r ((dropFirst_isSuffixOf nodup_streamAll _ b).subset hr)

end Select

/-- What waits is ordered by the priorities of the streams. -/
theorem Bucketed.pairwise_streamWaiting (h : s.Bucketed) : s.streamWaiting.Pairwise fun r r' =>
    (s.getStreamPriority r.streamId).rank ≤ (s.getStreamPriority r'.streamId).rank :=
  pairwise_inOrder (R := fun b b' : StreamPriority => b.rank ≤ b'.rank) (fun _ => le_rfl) (by decide)
    fun level _ => h level

theorem Frame.bucketed {s' : Scheduler α} (hframe : s.Frame s') (h : s.Bucketed) : s'.Bucketed :=
  h.congr hframe.streamBuckets hframe.streamPriority

theorem Frame.getStreamPriority {s' : Scheduler α} (hframe : s.Frame s') :
    s'.getStreamPriority = s.getStreamPriority := by
  funext id
  unfold Scheduler.getStreamPriority
  rw [hframe.streamPriority]

theorem Frame.streamWaiting {s' : Scheduler α} (hframe : s.Frame s') :
    s'.streamWaiting = s.streamWaiting := by
  unfold Scheduler.streamWaiting
  rw [hframe.streamBuckets]

end Scheduler

namespace SchedulerRun

open Scheduler

variable {α : Type*} {r : SchedulerRun α}

/-- Each packet waits in the bucket of its stream, and each stream has emitted the first of its
packets in order while the others wait. -/
structure StreamInv (r : SchedulerRun α) : Prop where
  bucketed : r.sched.Bucketed
  inOrder : ∀ streamId, ofStream streamId r.streamed
    = ofStream streamId r.emitted ++ ofStream streamId r.sched.streamWaiting

theorem streamInv_of_empty (hbuckets : ∀ level, r.sched.streamBuckets level = [])
    (hstreamed : r.streamed = []) (hemitted : r.emitted = []) : r.StreamInv := by
  have hwaiting : r.sched.streamWaiting = [] := List.flatMap_eq_nil_iff.2 fun level _ => hbuckets level
  refine ⟨fun level pkt hpkt => ?_, fun streamId => ?_⟩
  · rw [hbuckets level] at hpkt
    cases hpkt
  · rw [hstreamed, hemitted, hwaiting]
    rfl

theorem StreamInv.of_frame (h : r.StreamInv) {r' : SchedulerRun α} (hframe : r.sched.Frame r'.sched)
    (hstreamed : r'.streamed = r.streamed) (hemitted : r'.emitted = r.emitted) : r'.StreamInv := by
  refine ⟨hframe.bucketed h.bucketed, fun streamId => ?_⟩
  rw [hstreamed, hemitted, hframe.streamWaiting]
  exact h.inOrder streamId

theorem streamInv_enqueueForStream (h : r.StreamInv) (streamId : UInt32) (data : α) (dst : Addr) :
    StreamInv { r with
      sched := r.sched.enqueueForStreamOwned streamId data dst
      streamed := r.streamed ++ [r.sched.streamRecord streamId data dst] } := by
  refine ⟨bucketed_enqueueForStreamOwned h.bucketed streamId data dst, fun id => ?_⟩
  rw [ofStream_append, h.inOrder id, ofStream_enqueueForStreamOwned h.bucketed,
    List.append_assoc]

theorem streamInv_step (h : r.StreamInv) :
    ∀ c : SchedulerCall α, c.Accepts → (r.step c).StreamInv
  | .enqueue p data dst, _ => h.of_frame (frame_enqueueLocked p data dst) rfl rfl
  | .enqueueOwned p data dst, _ => h.of_frame (frame_enqueueLocked p data dst) rfl rfl
  | .drain _, _ => h.of_frame frame_drainWith rfl rfl
  | .drainWith _ _, _ => h.of_frame frame_drainWith rfl rfl
  | .onBweUpdate targetBps, _ => h.of_frame (frame_onBweUpdate targetBps) rfl rfl
  | .reset, _ => streamInv_of_empty (fun _ => rfl) rfl rfl
  | .setStreamPriority streamId level, _ => by
    refine ⟨bucketed_setStreamPriority h.bucketed streamId level, fun id => ?_⟩
    have hsame := ofStream_setStreamPriority h.bucketed streamId level id
    exact (h.inOrder id).trans (congrArg _ hsame.symm)
  | .enqueueForStream streamId data dst, _ => streamInv_enqueueForStream h streamId data dst
  | .enqueueForStreamOwned streamId data dst, _ => streamInv_enqueueForStream h streamId data dst
  | .selectNextPacket maxPackets cb, hcb => by
    have hanswer := answer_of_accepts hcb
    refine ⟨bucketed_selectNextPacket hanswer h.bucketed, fun id => ?_⟩
    have hemitted : (r.step (.selectNextPacket maxPackets cb)).emitted
        = r.emitted ++ r.sched.streamWaiting.take maxPackets.toNat :=
      congrArg _ (selectNextPacket_accepted hanswer).2
    have hwaiting : (r.step (.selectNextPacket maxPackets cb)).sched.streamWaiting
        = r.sched.streamWaiting.drop maxPackets.toNat := streamWaiting_selectNextPacket hanswer
    rw [hemitted, hwaiting, ofStream_append, List.append_assoc, ← ofStream_append,
      List.take_append_drop]
    exact h.inOrder id

/-- Only `set_stream_priority` and `reset` change what a stream's priority is. -/
theorem getStreamPriority_step (r : SchedulerRun α) :
    ∀ c : SchedulerCall α,
      (r.step c).sched.getStreamPriority = c.setLevel r.sched.getStreamPriority
  | .enqueue p data dst => (frame_enqueueLocked p data dst).getStreamPriority
  | .enqueueOwned p data dst => (frame_enqueueLocked p data dst).getStreamPriority
  | .drain _ => frame_drainWith.getStreamPriority
  | .drainWith _ _ => frame_drainWith.getStreamPriority
  | .onBweUpdate targetBps => (frame_onBweUpdate targetBps).getStreamPriority
  | .reset => rfl
  | .setStreamPriority streamId level => by
    funext id
    rw [SchedulerCall.setLevel, Function.update_apply]
    exact getStreamPriority_setStreamPriority streamId level id
  | .enqueueForStream streamId data dst =>
    funext (getStreamPriority_enqueueForStreamOwned streamId data dst)
  | .enqueueForStreamOwned streamId data dst =>
    funext (getStreamPriority_enqueueForStreamOwned streamId data dst)
  | .selectNextPacket _ _ => by
    funext id
    exact congrArg (fun priorities => (AList.lookup id priorities).getD .normal)
      streamPriority_selectNextPacket

/-- The current priority of a stream is the last one that was set. -/
theorem getStreamPriority_run (config : SchedulerConfig) (calls : List (SchedulerCall α)) :
    (run config calls).sched.getStreamPriority
      = calls.foldl SchedulerCall.setLevel fun _ => .normal :=
  Machine.exec_foldl (M := machine) (f := fun r => r.sched.getStreamPriority)
    getStreamPriority_step calls (fresh config)

/-- While every callback accepts, all queued packets of a stream sit in the bucket of its priority,
which is the last one set, each stream has emitted its packets in the order they were queued, and a
drain of the streams emits the first packets of what waits from the highest bucket down. -/
theorem streams_in_order (config : SchedulerConfig) (calls : List (SchedulerCall α))
    (haccepts : ∀ c ∈ calls, c.Accepts) :
    let r := run config calls
    (∀ level, ∀ pkt ∈ r.sched.streamBuckets level, r.sched.getStreamPriority pkt.streamId = level)
      ∧ (r.sched.getStreamPriority = calls.foldl SchedulerCall.setLevel fun _ => .normal)
      ∧ (∀ streamId, ofStream streamId r.streamed
        = ofStream streamId r.emitted ++ ofStream streamId r.sched.streamWaiting)
      ∧ ∀ (maxPackets : ℤ) (cb : DrainCallback α), (∀ history p data, cb history p data = true) →
        let emits := (r.sched.selectNextPacket maxPackets (some cb)).2.accepted
        emits = r.sched.streamWaiting.take maxPackets.toNat
          ∧ emits.Pairwise fun pkt pkt' => (r.sched.getStreamPriority pkt.streamId).rank
            ≤ (r.sched.getStreamPriority pkt'.streamId).rank := by
  intro r
  have hinit : (fresh (α := α) config).StreamInv := streamInv_of_empty (fun _ => rfl) rfl rfl
  have hinv : r.StreamInv := Machine.exec_keeps (M := machine) (I := StreamInv)
    (fun r c h hc => streamInv_step h c hc) calls hinit (Machine.meets_of_forall_mem haccepts)
  refine ⟨hinv.bucketed, getStreamPriority_run config calls, hinv.inOrder,
    fun maxPackets cb hcb => ?_⟩
  have hemits : (r.sched.selectNextPacket maxPackets (some cb)).2.accepted
      = r.sched.streamWaiting.take maxPackets.toNat :=
    (selectNextPacket_accepted (answer_of_accepts hcb)).2
  refine ⟨hemits, ?_⟩
  rw [hemits]
  exact hinv.bucketed.pairwise_streamWaiting.sublist (List.take_sublist _ _)

/-- Stream 1 moves up between its two packets and is emitted before stream 2. -/
theorem streams_in_order_moved :
    let calls : List (SchedulerCall (List UInt8)) := [.enqueueForStream 2 [20] [],
      .enqueueForStream 1 [10] [], .setStreamPriority 1 .high, .enqueueForStreamOwned 1 [11] [],
      .selectNextPacket 2 fun _ _ _ => true]
    (run {} calls).emitted.map (·.ownedData) = [[10], [11]]
      ∧ ofStream 2 (run {} calls).streamed
        = ofStream 2 (run {} calls).emitted ++ ofStream 2 (run {} calls).sched.streamWaiting := by
  intro calls
  refine ⟨by decide, (streams_in_order _ _ ?_).2.2.1 2⟩
  simp [calls, SchedulerCall.Accepts]

end SchedulerRun

end NimRtc
