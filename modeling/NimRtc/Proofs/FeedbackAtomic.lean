import NimRtc.Proofs.CompoundScan
import NimRtc.Proofs.FeedbackLoop
import NimRtc.RtcpWalks

/-!
# What an error leaves done

Each walk takes the same sub-packet off the bytes that are left, so over a complete datagram they
go over its sub-packets, but for the sender's, which one that it does not accept ends. The calls
before that one have been made by then. What a call does is counted by one of two counters, neither
of which goes down, so nothing was done if no call did anything.
-/

namespace NimRtc

open Framing (Splits)
open Rtp (RtpError SenderReportTracker readBe16 readBe16_drop readBe16_inside scanFrom)
open VideoRtcpFeedback (kRtcpHeaderSize)

namespace Rtcp

/-! ### Sub-packets -/

theorem nextSubPacket_none {x : List UInt8} (h : nextSubPacket x = none) :
    x.length < 4 ∨ x.length < ((readBe16 x 2).toNat + 1) * 4 := by
  unfold nextSubPacket at h
  simp only at h
  split_ifs at h with hshort
  exact hshort

theorem nextSubPacket_some {x packet rest : List UInt8}
    (h : nextSubPacket x = some (packet, rest)) :
    ∃ size, size = ((readBe16 x 2).toNat + 1) * 4 ∧ 4 ≤ size ∧ size ≤ x.length
      ∧ packet = x.take size ∧ rest = x.drop size := by
  unfold nextSubPacket at h
  simp only at h
  split_ifs at h with hshort
  obtain ⟨rfl, rfl⟩ := Prod.mk.inj (Option.some.inj h)
  exact ⟨_, rfl, by omega, by omega, rfl, rfl⟩

theorem incremental_nextSubPacket : Framing.Incremental nextSubPacket where
  shorter h := by
    obtain ⟨size, -, hfour, hle, -, rfl⟩ := nextSubPacket_some h
    rw [List.length_drop]
    omega
  append h more := by
    obtain ⟨size, hsize, hfour, hle, rfl, rfl⟩ := nextSubPacket_some h
    rw [nextSubPacket, readBe16_inside more (by omega), ← hsize, List.length_append,
      if_neg (by omega), List.take_append_of_le_length hle, List.drop_append_of_le_length hle]

theorem exec_recorder : ∀ packets : List (List UInt8), recorder.exec () packets = ((), packets)
  | [] => rfl
  | packet :: packets => by
    rw [Machine.exec_cons]
    simp only [recorder]
    rw [← recorder, exec_recorder packets]
    rfl

theorem splits_subPackets (x : List UInt8) :
    Splits nextSubPacket x (subPackets x).1 (subPackets x).2 := by
  obtain ⟨packets, left, h⟩ := Framing.splits_total incremental_nextSubPacket x
  have hloop := Framing.loop_of_splits incremental_nextSubPacket recorder h () le_rfl
  rw [exec_recorder] at hloop
  rw [subPackets, hloop]
  exact h

/-! ### The walks -/

section Walks

variable {x : List UInt8} {packets : List (List UInt8)} {left : List UInt8}

theorem accepted_of_ok {packet : List UInt8} {calls : List FeedbackCall}
    (h : feedbackCalls packet = .ok calls) : accepted packet = true ∧ callsOf packet = calls := by
  rw [accepted, callsOf, h]
  exact ⟨rfl, rfl⟩

theorem not_accepted_of_error {packet : List UInt8} {e : RtpError}
    (h : feedbackCalls packet = .error e) : accepted packet = false := by
  rw [accepted, h]
  rfl

section Frame

variable {packet rest : List UInt8} (h : nextSubPacket x = some (packet, rest)) (r : FeedbackRun)
include h

/-- A sub-packet that is not accepted ends the loop. -/
theorem applyFrom_error {e : RtpError} (hcalls : feedbackCalls packet = .error e) :
    applyFrom r x = (r, .error e) := by
  obtain ⟨size, hsize, hfour, hle, rfl, rfl⟩ := nextSubPacket_some h
  have hheader : kRtcpHeaderSize = 4 := rfl
  rw [applyFrom]
  simp only [← hsize, hcalls]
  rw [dif_neg (by omega), if_neg (by omega), if_neg (by omega)]

theorem applyFrom_ok {calls : List FeedbackCall} (hcalls : feedbackCalls packet = .ok calls) :
    applyFrom r x = applyFrom (calls.foldl FeedbackRun.call r) rest := by
  obtain ⟨size, hsize, hfour, hle, rfl, rfl⟩ := nextSubPacket_some h
  have hheader : kRtcpHeaderSize = 4 := rfl
  rw [applyFrom]
  simp only [← hsize, hcalls]
  rw [dif_neg (by omega), if_neg (by omega), if_neg (by omega)]

end Frame

/-- Without a whole sub-packet the loop ends, and it is an error unless nothing is left. -/
theorem applyFrom_stop (h : nextSubPacket x = none) (r : FeedbackRun) :
    (applyFrom r x).1 = r ∧ ((∃ e, (applyFrom r x).2 = .error e) ↔ x ≠ []) := by
  have hshort := nextSubPacket_none h
  have hheader : kRtcpHeaderSize = 4 := rfl
  rw [applyFrom]
  simp only
  split_ifs with hnil hfour hsize
  · simp [List.length_eq_zero_iff.1 hnil]
  · exact ⟨rfl, iff_of_true ⟨_, rfl⟩ (by rintro rfl; exact hnil rfl)⟩
  · exact ⟨rfl, iff_of_true ⟨_, rfl⟩ (by rintro rfl; exact hnil rfl)⟩
  · omega

/-- The sender makes the calls up to a sub-packet that it does not accept. -/
theorem applyFrom_of_splits (h : Splits nextSubPacket x packets left) :
    ∀ r, (applyFrom r x).1 = (callsBefore packets).foldl FeedbackRun.call r
      ∧ ((∃ e, (applyFrom r x).2 = .error e)
        ↔ left ≠ [] ∨ ∃ packet ∈ packets, accepted packet = false) := by
  induction h with
  | stop h =>
    intro r
    obtain ⟨hrun, herror⟩ := applyFrom_stop h r
    exact ⟨hrun, by simpa using herror⟩
  | @frame x rest left packet packets h hrest ih =>
    intro r
    rcases hcalls : feedbackCalls packet with e | calls
    · have hnot := not_accepted_of_error hcalls
      rw [applyFrom_error h r hcalls]
      refine ⟨?_, iff_of_true ⟨e, rfl⟩ (.inr ⟨packet, List.mem_cons_self, hnot⟩)⟩
      simp [callsBefore, hnot]
    · obtain ⟨hacc, hof⟩ := accepted_of_ok hcalls
      obtain ⟨hrun, herror⟩ := ih (calls.foldl FeedbackRun.call r)
      rw [applyFrom_ok h r hcalls]
      refine ⟨?_, ?_⟩
      · simp only [hrun, callsBefore, List.takeWhile_cons, hacc, if_true, List.flatMap_cons, hof,
          List.foldl_append]
      · rw [herror]
        simp [hacc]

theorem feedbackVisits_of_splits (h : Splits nextSubPacket x packets left) :
    feedbackVisits x = packets.takeWhile accepted ++ (packets.dropWhile accepted).take 1 := by
  have hheader : kRtcpHeaderSize = 4 := rfl
  induction h with
  | stop h =>
    have hshort := nextSubPacket_none h
    rw [feedbackVisits]
    simp only
    split_ifs with hnil hfour hsize
    · rfl
    · rfl
    · rfl
    · omega
  | @frame x rest left packet packets h hrest ih =>
    obtain ⟨size, hsize, hfour, hle, rfl, rfl⟩ := nextSubPacket_some h
    rw [feedbackVisits]
    simp only [← hsize]
    rw [dif_neg (by omega), if_neg (by omega), if_neg (by omega)]
    rcases hcalls : feedbackCalls (x.take size) with e | calls
    · simp [not_accepted_of_error hcalls]
    · simp [(accepted_of_ok hcalls).1, ih]

/-- The walk of the engine goes over all of them. -/
theorem walkFrom_of_splits (fitSlope : List (ℤ × ℤ) → ℤ) (steadyNowUs : ℕ → ℤ) (view : List UInt8)
    (h : Splits nextSubPacket x packets left) : ∀ (tracker : SenderReportTracker) (off : ℕ),
      view.drop off = x →
      (RtcpHandler.walkFrom fitSlope steadyNowUs view tracker off).2 = packets := by
  induction h with
  | stop h =>
    rintro tracker off rfl
    have hshort := nextSubPacket_none h
    rw [← readBe16_drop, List.length_drop] at hshort
    rw [RtcpHandler.walkFrom]
    simp only
    split_ifs with hfour hsize
    · rfl
    · omega
    · rfl
  | frame h hrest ih =>
    rintro tracker off rfl
    obtain ⟨size, hsize, hfour, hle, rfl, rfl⟩ := nextSubPacket_some h
    rw [← readBe16_drop] at hsize
    rw [List.length_drop] at hle
    rw [RtcpHandler.walkFrom]
    simp only [← hsize]
    rw [if_pos (by omega), if_neg (by omega)]
    simp only [ih _ (off + size) (by rw [List.drop_drop])]

/-- So does the scan. -/
theorem scanFrom_of_splits (raw : Plugins.BufferView) (h : Splits nextSubPacket x packets left) :
    ∀ off : ℕ, raw.bytes.drop off = x → (scanFrom raw off).map (·.raw.bytes) = packets := by
  induction h with
  | stop h =>
    rintro off rfl
    have hshort := nextSubPacket_none h
    rw [← readBe16_drop, List.length_drop] at hshort
    have hlength : raw.size = raw.bytes.length := rfl
    rw [scanFrom]
    by_cases hfour : off + 4 ≤ raw.size
    · simp only
      rw [if_pos hfour, if_pos (by omega)]
      rfl
    · rw [if_neg hfour]
      rfl
  | frame h hrest ih =>
    rintro off rfl
    obtain ⟨size, hsize, hfour, hle, rfl, rfl⟩ := nextSubPacket_some h
    rw [← readBe16_drop] at hsize
    rw [List.length_drop] at hle
    have hlength : raw.size = raw.bytes.length := rfl
    rw [scanFrom]
    simp only [← hsize]
    rw [if_pos (by omega), if_neg (by omega), List.map_cons,
      ih (off + size) (by rw [List.drop_drop])]

end Walks

/-- The list ends at the first that fails, so all of it is there if none but the last fails. -/
theorem takeWhile_append_dropWhile_take_one_iff {α : Type} (p : α → Bool) : ∀ l : List α,
    l.takeWhile p ++ (l.dropWhile p).take 1 = l ↔ ∀ a ∈ l.dropLast, p a = true
  | [] => by simp
  | [a] => by by_cases ha : p a <;> simp [ha]
  | a :: b :: l => by
    by_cases ha : p a
    · have ih := takeWhile_append_dropWhile_take_one_iff p (b :: l)
      rw [List.takeWhile_cons_of_pos ha, List.dropWhile_cons_of_pos ha, List.cons_append,
        List.cons_inj_right, ih, List.dropLast_cons_cons, List.forall_mem_cons]
      exact (and_iff_right ha).symm
    · simp [ha]

end Rtcp

/-! ### What the calls do -/

section Calls

/-- The packets retransmitted and the key frames requested. -/
def VideoSender.work (s : VideoSender) : ℕ :=
  s.stats.packetsRetransmitted + s.stats.forceKeyframeCalls

variable (s : VideoSender) (c : FeedbackCall)

/-- A call does its work, or nothing, and the packets that are held stay. -/
theorem run_work :
    (c.run s).1.work = s.work + (if (c.run s).2 then 1 else 0)
      ∧ s.stats.packetsRetransmitted ≤ (c.run s).1.stats.packetsRetransmitted
      ∧ s.stats.forceKeyframeCalls ≤ (c.run s).1.stats.forceKeyframeCalls
      ∧ (c.run s).1.rtxCache = s.rtxCache := by
  cases c with
  | retransmit seq =>
    rcases hcached : s.findCached seq with _ | p
    · simp [FeedbackCall.run, VideoSender.retransmit, hcached, VideoSender.work]
    · simp [FeedbackCall.run, VideoSender.retransmit, hcached, VideoSender.work]
      omega
  | forceKeyframe =>
    simp [FeedbackCall.run, VideoSender.forceKeyframe, VideoSender.work, Nat.add_assoc]

theorem idle_iff : c.Idle s ↔ (c.run s).2 = false := by
  cases c with
  | retransmit seq =>
    rcases hcached : s.findCached seq with _ | p
    · simp [FeedbackCall.Idle, FeedbackCall.run, VideoSender.retransmit, hcached]
    · simp [FeedbackCall.Idle, FeedbackCall.run, VideoSender.retransmit, hcached]
  | forceKeyframe => simp [FeedbackCall.Idle, FeedbackCall.run]

theorem idle_congr {s s' : VideoSender} (h : s'.rtxCache = s.rtxCache) : c.Idle s' ↔ c.Idle s := by
  cases c with
  | retransmit seq => simp only [FeedbackCall.Idle, VideoSender.findCached, h]
  | forceKeyframe => rfl

/-- The counters stay where they are exactly if no call does anything. -/
theorem foldl_call_work : ∀ (calls : List FeedbackCall) (r : FeedbackRun),
    r.sender.stats.packetsRetransmitted
        ≤ (calls.foldl FeedbackRun.call r).sender.stats.packetsRetransmitted
      ∧ r.sender.stats.forceKeyframeCalls
        ≤ (calls.foldl FeedbackRun.call r).sender.stats.forceKeyframeCalls
      ∧ ((calls.foldl FeedbackRun.call r).sender.work ≤ r.sender.work
        ↔ ∀ c ∈ calls, c.Idle r.sender)
  | [], r => by simp
  | c :: calls, r => by
    obtain ⟨hwork, hretransmitted, hkeyframes, hcache⟩ := run_work r.sender c
    obtain ⟨ihretransmitted, ihkeyframes, ihidle⟩ := foldl_call_work calls (r.call c)
    have hmore : (r.call c).sender.work ≤ (calls.foldl FeedbackRun.call (r.call c)).sender.work :=
      Nat.add_le_add ihretransmitted ihkeyframes
    rw [List.foldl_cons]
    refine ⟨hretransmitted.trans ihretransmitted, hkeyframes.trans ihkeyframes, ?_⟩
    rw [List.forall_mem_cons, idle_iff]
    have hsame : (∀ d ∈ calls, d.Idle (r.call c).sender) ↔ ∀ d ∈ calls, d.Idle r.sender :=
      forall₂_congr fun d _ => idle_congr d hcache
    rw [← hsame, ← ihidle]
    have hcall : (r.call c).sender.work
        = r.sender.work + (if (c.run r.sender).2 then 1 else 0) := hwork
    cases hdone : (c.run r.sender).2 with
    | true =>
      rw [hdone, if_pos rfl] at hcall
      exact iff_of_false (by omega) (by simp)
    | false =>
      rw [hdone, if_neg Bool.false_ne_true, Nat.add_zero] at hcall
      rw [hcall]
      exact (and_iff_right rfl).symm

/-- Nothing was done exactly if no call did anything. -/
theorem untouched_foldl_iff (calls : List FeedbackCall) (sender : VideoSender) :
    sender.Untouched (calls.foldl FeedbackRun.call { sender }).sender
      ↔ ∀ c ∈ calls, c.Idle sender := by
  obtain ⟨hretransmitted, hkeyframes, hidle⟩ := foldl_call_work calls { sender }
  rw [← hidle, VideoSender.Untouched, VideoSender.work, VideoSender.work]
  simp only at hretransmitted hkeyframes ⊢
  omega

end Calls

/-! ### A datagram -/

open Rtcp

theorem untouched_iff (sender : VideoSender) (rtcp : List UInt8) :
    ((∃ e, (applyFeedbackRtcp sender rtcp).2 = .error e) →
        sender.Untouched (applyFeedbackRtcp sender rtcp).1.sender)
      ↔ (Malformed rtcp → ∀ c ∈ callsBefore (subPackets rtcp).1, c.Idle sender) := by
  obtain ⟨hrun, herror⟩ := applyFrom_of_splits (splits_subPackets rtcp) { sender }
  rw [applyFeedbackRtcp, herror, hrun, untouched_foldl_iff, Malformed]

theorem complete_nil_iff {rtcp : List UInt8} (h : Complete rtcp) :
    (subPackets rtcp).1 = [] ↔ rtcp = [] := by
  have hsplits := splits_subPackets rtcp
  rw [h] at hsplits
  constructor
  · intro hnone
    rw [hnone] at hsplits
    cases hsplits
    rfl
  · rintro rfl
    rfl

theorem scanVisits_of_complete {raw : Plugins.BufferView} (h : Complete raw.bytes) :
    scanVisits raw = (subPackets raw.bytes).1 := by
  have hscan := scanFrom_of_splits raw (splits_subPackets raw.bytes) 0 rfl
  rw [scanVisits, Rtp.scanRtcpCompound]
  split_ifs with hfallback
  · rw [hfallback.1, List.map_nil] at hscan
    exact absurd ((complete_nil_iff h).1 hscan.symm) hfallback.2
  · exact hscan

theorem applyFeedback_timelineEnabled (handler : RtcpHandler) (view : List UInt8) :
    (handler.applyFeedback view).timelineEnabled = handler.timelineEnabled := by
  unfold RtcpHandler.applyFeedback
  rcases handler.videoSender with _ | sender <;> rfl

theorem handleRtcp_visits (fitSlope : List (ℤ × ℤ) → ℤ) (steadyNowUs : ℕ → ℤ)
    (handler : RtcpHandler) (view : List UInt8) :
    (handler.handleRtcp fitSlope steadyNowUs view).2
      = if handler.timelineEnabled then (subPackets view).1 else [] := by
  rw [RtcpHandler.handleRtcp]
  simp only [applyFeedback_timelineEnabled]
  cases handler.timelineEnabled with
  | false => rfl
  | true =>
    exact walkFrom_of_splits fitSlope steadyNowUs view (splits_subPackets view) _ 0 rfl

theorem visits_iff (fitSlope : List (ℤ × ℤ) → ℤ) (steadyNowUs : ℕ → ℤ) (handler : RtcpHandler)
    (raw : Plugins.BufferView) (h : Complete raw.bytes) :
    (handler.handleRtcp fitSlope steadyNowUs raw.bytes).2 = feedbackVisits raw.bytes
        ∧ scanVisits raw = feedbackVisits raw.bytes
      ↔ (handler.timelineEnabled = true ∨ raw.bytes = [])
        ∧ ∀ packet ∈ (subPackets raw.bytes).1.dropLast, accepted packet = true := by
  rw [handleRtcp_visits, scanVisits_of_complete h,
    feedbackVisits_of_splits (splits_subPackets raw.bytes),
    ← takeWhile_append_dropWhile_take_one_iff, ← complete_nil_iff h]
  cases handler.timelineEnabled with
  | false =>
    rw [if_neg Bool.false_ne_true]
    constructor
    · rintro ⟨hnone, hall⟩
      exact ⟨.inr (hall.trans hnone.symm), hall.symm⟩
    · rintro ⟨hnone, hall⟩
      have hnil := hnone.resolve_left Bool.false_ne_true
      exact ⟨by rw [hall, hnil], hall.symm⟩
  | true =>
    rw [if_pos rfl]
    exact ⟨fun h => ⟨.inl rfl, h.1.symm⟩, fun h => ⟨h.2.symm, h.2.symm⟩⟩

/-- After an error nothing was done exactly if the calls up to there did nothing. Over a complete
datagram the walks agree exactly if the sender accepts each sub-packet but the last, and the
timeline is on. -/
theorem all_or_nothing_iff (fitSlope : List (ℤ × ℤ) → ℤ) (steadyNowUs : ℕ → ℤ)
    (handler : RtcpHandler) (sender : VideoSender) (raw : Plugins.BufferView) :
    (((∃ e, (applyFeedbackRtcp sender raw.bytes).2 = .error e) →
        sender.Untouched (applyFeedbackRtcp sender raw.bytes).1.sender)
      ↔ (Malformed raw.bytes → ∀ c ∈ callsBefore (subPackets raw.bytes).1, c.Idle sender))
    ∧ ((Complete raw.bytes →
        (handler.handleRtcp fitSlope steadyNowUs raw.bytes).2 = feedbackVisits raw.bytes
          ∧ scanVisits raw = feedbackVisits raw.bytes)
      ↔ (Complete raw.bytes →
        (handler.timelineEnabled = true ∨ raw.bytes = [])
          ∧ ∀ packet ∈ (subPackets raw.bytes).1.dropLast, accepted packet = true)) :=
  ⟨untouched_iff sender raw.bytes,
    imp_congr_right fun h => visits_iff fitSlope steadyNowUs handler raw h⟩

/-- A request for a key frame and a byte more. -/
def pliAndByte : List UInt8 := [0x81, 206, 0, 2, 0, 0, 0, 1, 0, 0, 0, 2, 0]

/-- A NACK without entries, and a goodbye. -/
def shortNackAndBye : List UInt8 := [0x81, 205, 0, 1, 0, 0, 0, 0, 0x80, 203, 0, 0]

/-- A key frame is requested before the error, and reported as no action. A NACK that is too short
hides what follows it from the sender alone. -/
theorem error_after_keyframe :
    ((∃ e, (applyFeedbackRtcp { cfg := {} } pliAndByte).2 = .error e)
      ∧ (applyFeedbackRtcp { cfg := {} } pliAndByte).1.sender.stats.forceKeyframeCalls = 1
      ∧ (SenderAdapter.applyFeedbackRtcp ⟨some { cfg := {} }, 0⟩ pliAndByte).2 = 0)
    ∧ Complete shortNackAndBye
    ∧ scanVisits ⟨0, shortNackAndBye⟩ ≠ feedbackVisits shortNackAndBye := by
  have hleft : (subPackets pliAndByte).2 = [0] := by decide +kernel
  have hcalls : callsBefore (subPackets pliAndByte).1 = [.forceKeyframe] := by decide +kernel
  have hcomplete : Complete shortNackAndBye := by
    have hnil : (subPackets shortNackAndBye).2 = [] := by decide +kernel
    exact hnil
  obtain ⟨hrun, herror⟩ :=
    applyFrom_of_splits (splits_subPackets pliAndByte) { sender := { cfg := {} } }
  rw [hcalls] at hrun
  obtain ⟨e, he⟩ := herror.2 (.inl (by rw [hleft]; exact List.cons_ne_nil _ _))
  have happly : (applyFeedbackRtcp { cfg := {} } pliAndByte).2 = .error e := he
  refine ⟨⟨⟨e, happly⟩, ?_, ?_⟩, hcomplete, ?_⟩
  · rw [applyFeedbackRtcp, hrun]
    rfl
  · simp only [SenderAdapter.applyFeedbackRtcp, happly]
    rfl
  · rw [scanVisits_of_complete hcomplete,
      feedbackVisits_of_splits (splits_subPackets shortNackAndBye)]
    decide +kernel

end NimRtc
