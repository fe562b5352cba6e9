import NimRtc.Proofs.EngineStep
import NimRtc.Proofs.SchedulerDrops
import NimRtc.SendPipeline

/-!
# The order video packets leave in

What was handed to ICE followed by what waits is one line, in the order it leaves in. Draining the
scheduler moves the boundary between the two, dropping takes packets out, and a new packet has the
largest number of all and goes behind everything but the queues of a lower priority. So only a
packet with the priority of a key frame gets in front of one with a smaller number.
-/

namespace NimRtc

open ClassQueues

/-! ## The numbers of the video sender -/

namespace VideoSender

/-- The packets carry the sequence numbers from `n` on. -/
def Consecutive : UInt16 → List CachedPacket → Prop
  | _, [] => True
  | n, p :: ps => p.seq = n ∧ Consecutive (n + 1) ps

theorem Consecutive.append : ∀ {ps qs : List CachedPacket} {n : UInt16}, Consecutive n ps →
    Consecutive (n + UInt16.ofNat ps.length) qs → Consecutive n (ps ++ qs)
  | [], _, n, _, h => by simpa using h
  | p :: ps, qs, n, ⟨hp, hps⟩, h => by
    refine ⟨hp, hps.append ?_⟩
    have hlen : n + UInt16.ofNat (p :: ps).length = n + 1 + UInt16.ofNat ps.length := by
      rw [List.length_cons, UInt16.ofNat_add, UInt16.add_assoc, UInt16.add_comm (UInt16.ofNat _)]
      rfl
    rwa [← hlen]

@[simp] theorem nextSeq_cachePacket (s : VideoSender) (p : CachedPacket) :
    (s.cachePacket p).nextSeq = s.nextSeq := by
  unfold cachePacket
  split_ifs <;> rfl

@[simp] theorem nextSeq_count (s : VideoSender) (kind : PacketKind) :
    (s.count kind).nextSeq = s.nextSeq := by
  cases kind <;> rfl

/-- The packets are numbered from the next number on, and the sender goes on after them. -/
structure Numbers (s : VideoSender) (r : VideoSender × List CachedPacket) : Prop where
  consecutive : Consecutive s.nextSeq r.2
  next : r.1.nextSeq = s.nextSeq + UInt16.ofNat r.2.length

theorem numbers_emitAll (rtpTs : UInt32) : ∀ (es : List Emission) (s : VideoSender),
    Numbers s (s.emitAll rtpTs es)
  | [], s => ⟨trivial, by simp [emitAll]⟩
  | e :: es, s => by
    have ih := numbers_emitAll rtpTs es (s.emit rtpTs e).1
    have hnext : (s.emit rtpTs e).1.nextSeq = s.nextSeq + 1 := nextSeq_cachePacket _ _
    refine ⟨⟨rfl, ?_⟩, ?_⟩
    · have hrest := ih.consecutive
      rwa [hnext] at hrest
    · refine ih.next.trans ?_
      rw [hnext, emitAll, List.length_cons, UInt16.ofNat_add, UInt16.add_assoc,
        UInt16.add_comm 1]
      rfl

theorem numbers_emitPackets (rtpTs : UInt32) : ∀ (gs : List (PacketKind × List Emission))
    (s : VideoSender), Numbers s (s.emitPackets rtpTs gs)
  | [], s => ⟨trivial, by simp [emitPackets]⟩
  | (kind, es) :: gs, s => by
    have hes := numbers_emitAll rtpTs es s
    have ih := numbers_emitPackets rtpTs gs ((s.emitAll rtpTs es).1.count kind)
    have hnext := (nextSeq_count (s.emitAll rtpTs es).1 kind).trans hes.next
    refine ⟨hes.consecutive.append ?_, ih.next.trans ?_⟩
    · rw [← hnext]
      exact ih.consecutive
    · rw [hnext, UInt16.add_assoc, ← UInt16.ofNat_add, emitPackets, List.length_append]

theorem numbers_emitH264 {s s' : VideoSender} {nalus : List (List UInt8)} {rtpTs : UInt32}
    {packets : List CachedPacket} (h : s.emitH264 nalus rtpTs = .ok (s', packets)) :
    Numbers s (s', packets) := by
  unfold emitH264 at h
  cases hpack : H264.packetize s.cfg nalus with
  | error err => simp [hpack, Functor.map, Except.map] at h
  | ok gs =>
    rw [hpack] at h
    have heq : s.emitPackets rtpTs gs = (s', packets) := by
      simpa [Functor.map, Except.map] using h
    exact heq ▸ numbers_emitPackets rtpTs gs s

end VideoSender

/-! ## What the scheduler drops and drains -/

namespace Scheduler

variable {α : Type*} {s : Scheduler α}

/-- Every queue of `s'` is what is left of the same queue of `s`. -/
def Shrinks (s s' : Scheduler α) : Prop := ∀ p, (s'.queues p).Sublist (s.queues p)

theorem Shrinks.trans {s' s'' : Scheduler α} (h : s.Shrinks s') (h' : s'.Shrinks s'') :
    s.Shrinks s'' := fun p => (h' p).trans (h p)

theorem Shrinks.waiting {s' : Scheduler α} (h : s.Shrinks s') : s'.waiting.Sublist s.waiting :=
  inOrder_sublist fun p _ => h p

theorem shrinks_of_queues {s' : Scheduler α} (h : s'.queues = s.queues) : s.Shrinks s' :=
  fun p => by rw [h]

theorem shrinks_evict (ps : List Priority) : s.Shrinks (s.evict ps).1 := by
  rcases evict_cases ps s with ⟨heq, -⟩ | ⟨-, p, -, r, q, -, -, hp, heq⟩ <;> rw [heq]
  · exact shrinks_of_queues rfl
  · intro p'
    show (Function.update s.queues p q p').Sublist (s.queues p')
    rcases eq_or_ne p' p with rfl | hne
    · rw [Function.update_self, hp]
      exact List.sublist_cons_self r q
    · rw [Function.update_of_ne hne]

theorem shrinks_dropQueue (p : Priority) : s.Shrinks (s.dropQueue p) := by
  intro p'
  rcases eq_or_ne p' p with rfl | hne
  · rw [queues_dropQueue_self]
    exact List.nil_sublist _
  · rw [queues_dropQueue_of_ne hne]

theorem shrinks_trim : ∀ {ps : List Priority} {s : Scheduler α} {budget : ℕ},
    s.Shrinks (s.trim ps budget)
  | [], _, _ => shrinks_of_queues rfl
  | p :: ps, s, budget => by
    rw [trim]
    split_ifs
    · exact shrinks_trim
    · exact shrinks_trim
    · exact (shrinks_dropQueue p).trans shrinks_trim

theorem shrinks_onBweUpdate (targetBps : UInt32) : s.Shrinks (s.onBweUpdate targetBps) := by
  have hretarget : s.Shrinks (s.retarget targetBps) := shrinks_of_queues rfl
  unfold onBweUpdate
  split_ifs
  · intro p
    rw [queues_foldl_dropQueue]
    split_ifs
    · exact List.nil_sublist _
    · exact List.Sublist.refl _
  · exact hretarget
  · exact hretarget.trans shrinks_trim

/-- What queueing a packet does: the queues shrink, and the packet goes behind its own unless it is
refused. -/
theorem enqueueOwned_cases (s : Scheduler α) (p : Priority) (data : α) (dst : Addr) :
    ∃ s', s.Shrinks s' ∧ ((s.enqueueOwned p data dst).1.queues = s'.queues
      ∨ (s.enqueueOwned p data dst).1 = s'.push p data) := by
  have hdst : s.Shrinks (s.rememberDst dst) := shrinks_of_queues (queues_rememberDst dst)
  rcases s.enqueueLocked_cases p data dst with ⟨-, heq⟩ | ⟨-, e, out, hevict, hcase⟩
  · exact ⟨_, hdst, .inr (congrArg Prod.fst heq)⟩
  have he : s.Shrinks e := by
    have := hdst.trans (shrinks_evict Priority.all.reverse)
    rwa [hevict] at this
  rcases hcase with ⟨-, heq⟩ | ⟨-, heq⟩
  · exact ⟨e, he, .inl (congrArg (fun r => r.1.queues) heq)⟩
  · exact ⟨e, he, .inr (congrArg Prod.fst heq)⟩

section Refused

variable {avgSize : UInt32} {cb : Option (DrainCallback α)} {stops : ℕ → Bool}

/-- A loop only takes packets from the front. -/
theorem drainLoop_suffix : ∀ {q : List (PacketRecord α)} {d : Drain α},
    (drainLoop avgSize cb stops q d).1 <:+ q
  | [], _ => List.suffix_rfl
  | r :: q, d => by
    rw [drainLoop]
    split_ifs
    · exact List.suffix_rfl
    · exact drainLoop_suffix.trans (List.suffix_cons r q)
    · exact List.suffix_cons r q

theorem drainEach_suffix : ∀ {ks : List Priority} {queues : Priority → List (PacketRecord α)}
    {d : Drain α}, ks.Nodup → ∀ p,
    (drainEach (drainLoop avgSize cb stops) ks queues d).1 p <:+ queues p
  | [], _, _, _, _ => List.suffix_rfl
  | k :: ks, queues, d, hnd, p => by
    obtain ⟨hk, hks⟩ := List.nodup_cons.1 hnd
    rw [drainEach]
    refine (drainEach_suffix hks p).trans ?_
    rcases eq_or_ne p k with rfl | hne
    · rw [Function.update_self]
      exact drainLoop_suffix
    · rw [Function.update_of_ne hne]

variable (hcb : ∀ offers r, answer cb offers r = false)

include hcb

/-- A callback that refuses everything is handed nothing that counts. -/
theorem drainLoop_refused : ∀ {q : List (PacketRecord α)} {d : Drain α},
    (drainLoop avgSize cb stops q d).2.accepted = d.accepted
  | [], _ => rfl
  | r :: q, d => by
    rw [drainLoop, hcb, if_neg Bool.false_ne_true]
    split_ifs
    · rfl
    · simp [Drain.accepted]

theorem drainEach_refused : ∀ {ks : List Priority} {queues : Priority → List (PacketRecord α)}
    {d : Drain α}, (drainEach (drainLoop avgSize cb stops) ks queues d).2.accepted = d.accepted
  | [], _, _ => rfl
  | _ :: _, _, _ => (drainEach_refused (d := (drainLoop ..).2)).trans (drainLoop_refused hcb)

end Refused

theorem shrinks_drainWith (maxPackets : ℤ) (cb : Option (DrainCallback α)) :
    s.Shrinks (s.drainWith maxPackets cb).1 := by
  intro p
  rw [drainWith_eq]
  exact (drainEach_suffix nodup_all p).sublist

/-- A callback that answers always the same takes what it accepts from the front of what waits. -/
theorem drainWith_const (maxPackets : ℤ) (b : Bool) :
    ((s.drainWith maxPackets (some fun _ _ _ => b)).2.accepted
        ++ (s.drainWith maxPackets (some fun _ _ _ => b)).1.waiting).Sublist s.waiting := by
  cases b
  · have hnone : (s.drainWith maxPackets (some fun _ _ _ => false)).2.accepted = [] := by
      rw [drainWith_eq]
      exact drainEach_refused fun _ _ => rfl
    rw [hnone]
    exact (shrinks_drainWith maxPackets _).waiting
  · have hacc : AcceptsFrom (some fun _ _ _ => true) (s.drainLimit maxPackets) s.waiting
        s.drainStart := fun _ _ _ _ => rfl
    rw [accepted_drainWith hacc, waiting_drainWith hacc, List.take_append_drop]

end Scheduler

/-! ## What the send paths emit -/

namespace Engine

/-- One packet at most, on the path of its priority, while the configuration and the sender stay. -/
structure SendsOne (e : Engine) (ok : Priority → Prop) (r : Engine × List EngineReport) : Prop where
  cfg : r.1.cfg = e.cfg
  videoSender : r.1.videoSender = e.videoSender
  reports : r.2 = [] ∨ ∃ kind prio bytes sess, ok prio
    ∧ r.2 = [.emitted ⟨kind, e.sendPath prio, bytes, sess⟩]

/-- A video packet has the priority of a key frame only if it is a marker packet. -/
theorem sendsOne_videoPacket (e : Engine) (c : CachedPacket) (lib : LibSrtpCall) :
    SendsOne e (fun prio => prio = .video ∨ prio = .videoKeyframe ∧ c.marker)
      (e.videoPacket c lib) := by
  have hprio : (if c.marker && e.videoKeyframePending then Priority.videoKeyframe else .video)
        = .video
      ∨ (if c.marker && e.videoKeyframePending then Priority.videoKeyframe else .video)
        = .videoKeyframe ∧ c.marker := by
    split_ifs with hkey
    · exact .inr ⟨rfl, (Bool.and_eq_true_iff.1 hkey).1⟩
    · exact .inl rfl
  unfold videoPacket
  rcases e.protectOrPass_cases false e.cfg.videoSenderSsrc (videoRtpHeader e.cfg c ++ c.payload)
    lib with ⟨-, h⟩ | ⟨-, srtp, -, h | ⟨s, out, -, -, h⟩⟩ <;> rw [h]
  · exact ⟨rfl, rfl, .inr ⟨_, _, _, _, hprio, rfl⟩⟩
  · exact ⟨rfl, rfl, .inl rfl⟩
  · exact ⟨rfl, rfl, .inr ⟨_, _, _, _, hprio, rfl⟩⟩

theorem scheduler_of_sendPath {e : Engine} {prio prio' : Priority}
    (h : e.sendPath prio = .scheduler prio') : e.cfg.scheduler = true := by
  unfold sendPath at h
  split_ifs at h with hsched
  exact hsched

/-- Nothing goes to the scheduler if there is none. -/
def Sends (e : Engine) (rs : List EngineReport) : Prop :=
  ∀ m, .emitted m ∈ rs → ∀ prio, m.path = .scheduler prio → e.cfg.scheduler = true

theorem sends_sendAudio (e : Engine) (f : AudioFrame) : e.Sends (e.sendAudio f).2 := by
  rw [sendAudio_eq]
  split_ifs
  · exact fun m hm => by simp at hm
  · exact fun m hm => by simp at hm
  · have hcfg : ((e.stamped f).countAudio f).cfg = e.cfg := by
      unfold stamped countAudio
      split_ifs <;> rfl
    intro m hm prio hprio
    rcases ((e.stamped f).countAudio f).protectOrPass_cases false audioSsrcOnWire f.packet f.lib with
        ⟨-, h⟩ | ⟨-, srtp, -, h | ⟨s, out, -, -, h⟩⟩ <;>
      rw [h] at hm <;>
      simp only [handAudio, List.mem_singleton, List.not_mem_nil, EngineReport.emitted.injEq] at hm
    · rw [hm] at hprio
      exact hcfg ▸ scheduler_of_sendPath hprio
    · rw [hm] at hprio
      exact hcfg ▸ scheduler_of_sendPath hprio

theorem sends_sendRtcp (e e' : Engine) (kind : MediaKind) (ssrc : UInt32) (r : RtcpBuild) :
    e.Sends (e'.sendRtcp kind ssrc r).2 := by
  intro m hm prio hprio
  unfold sendRtcp at hm
  split at hm
  · cases hm
  · simp only [List.mem_singleton, EngineReport.emitted.injEq] at hm
    rw [hm] at hprio
    cases hprio

/-- Key frames that are asked for have no packet sent again. -/
theorem applyFeedback_keyframes : ∀ {actions : List FeedbackAction} (s : VideoSender),
    actions.all (· = .keyframe) = true →
      (s.applyFeedback actions).2 = [] ∧ (s.applyFeedback actions).1.nextSeq = s.nextSeq
  | [], s, _ => ⟨rfl, rfl⟩
  | .nack seq :: _, _, h => by simp at h
  | .keyframe :: _, s, h =>
    applyFeedback_keyframes s.forceKeyframe (by simpa using h)

def nextSeq (e : Engine) : Option UInt16 := e.videoSender.map (·.nextSeq)

theorem nextSeq_of_sender {e e' : Engine} (h : e'.videoSender = e.videoSender) :
    e'.nextSeq = e.nextSeq := by
  rw [nextSeq, h, nextSeq]

theorem handleRtcp_keyframes (e : Engine) {actions : List FeedbackAction}
    (h : actions.all (· = .keyframe) = true) (lib : ℕ → LibSrtpCall) :
    (e.handleRtcp actions lib).2 = [] ∧ (e.handleRtcp actions lib).1.nextSeq = e.nextSeq := by
  have hnone : e.retransmissions actions = [] := by
    unfold retransmissions
    cases e.videoSender with
    | none => rfl
    | some s => exact (applyFeedback_keyframes s h).1
  unfold handleRtcp
  rw [hnone]
  refine ⟨rfl, ?_⟩
  unfold nextSeq
  cases hs : e.videoSender with
  | none => simp [videoPackets]
  | some s => simp [videoPackets, (applyFeedback_keyframes s h).2]

theorem videoSender_handleRtp (e : Engine) (feedback : Option VideoFeedbackReport) :
    (e.handleRtp feedback).videoSender = e.videoSender := by
  unfold handleRtp
  split_ifs
  · cases feedback with
    | none => rfl
    | some r =>
      simp only [Option.map_some, Option.getD_some, queueVideoFeedback]
      split_ifs
      · rfl
      · split <;> rfl
  · rfl

/-- An operation that emits nothing and leaves the next sequence number. -/
structure Silent (e : Engine) (r : Engine × List EngineReport) : Prop where
  nextSeq : r.1.nextSeq = e.nextSeq
  reports : ∀ m, .emitted m ∉ r.2

theorem silent_handleRtcp (e : Engine) (h : Handed) {actions : List FeedbackAction}
    (hactions : actions.all (· = .keyframe) = true) (lib : ℕ → LibSrtpCall) :
    e.Silent (andThen (e, [.handed h]) fun e => e.handleRtcp actions lib) := by
  obtain ⟨hnil, hseq⟩ := e.handleRtcp_keyframes hactions lib
  refine ⟨hseq, fun m hm => ?_⟩
  simp [andThen, hnil] at hm

theorem silent_dispatchMediaInbound (e : Engine) {d : Inbound}
    (hactions : d.actions.all (· = .keyframe) = true) (packet : List UInt8)
    (call : Option PacketCall) : e.Silent (e.dispatchMediaInbound d packet call) := by
  unfold dispatchMediaInbound
  split_ifs
  · exact silent_handleRtcp e _ hactions d.lib
  · exact ⟨nextSeq_of_sender (videoSender_handleRtp e d.feedback), fun m hm => by simp at hm⟩
  · exact ⟨rfl, fun m hm => by simp at hm⟩

theorem silent_recvMedia (e : Engine) {d : Inbound}
    (hactions : d.actions.all (· = .keyframe) = true) : e.Silent (e.recvMedia d) := by
  unfold recvMedia
  split_ifs
  · simp only []
    -- the session that is looked up is nothing to the sender
    generalize (e.srtp.getSession 0 false d.create).2 = srtp
    have hsame : ∀ {r}, ({ e with srtp } : Engine).Silent r → e.Silent r :=
      fun h => ⟨h.nextSeq, h.reports⟩
    split
    · exact hsame (silent_dispatchMediaInbound _ hactions _ _)
    · split
      · exact hsame (silent_dispatchMediaInbound _ hactions _ _)
      · split
        · exact hsame (silent_handleRtcp _ _ hactions d.lib)
        · exact ⟨rfl, fun m hm => by simp at hm⟩
  · exact silent_dispatchMediaInbound e hactions d.bytes none

theorem sends_of_silent {e : Engine} {r : Engine × List EngineReport} (h : e.Silent r) :
    e.Sends r.2 := fun m hm => absurd hm (h.reports m)

theorem videoSender_protectOrPass (e : Engine) (rtcp : Bool) (ssrc : UInt32)
    (packet : List UInt8) (lib : LibSrtpCall) :
    (e.protectOrPass rtcp ssrc packet lib).1.videoSender = e.videoSender := by
  rcases e.protectOrPass_cases rtcp ssrc packet lib with
      ⟨-, h⟩ | ⟨-, srtp, -, h | ⟨s, out, -, -, h⟩⟩ <;> rw [h]

theorem videoSender_sendRtcp (e : Engine) (kind : MediaKind) (ssrc : UInt32) (r : RtcpBuild) :
    (e.sendRtcp kind ssrc r).1.videoSender = e.videoSender := by
  have h := e.videoSender_protectOrPass true ssrc r.bytes r.lib
  unfold sendRtcp
  split <;> rename_i heq <;> rwa [heq] at h

theorem videoSender_sendAudio (e : Engine) (f : AudioFrame) :
    (e.sendAudio f).1.videoSender = e.videoSender := by
  have hstamped : (e.stamped f).videoSender = e.videoSender := by
    unfold stamped
    split_ifs <;> rfl
  rw [sendAudio_eq]
  split_ifs
  · rfl
  · exact hstamped
  · rw [handAudio_fst, videoSender_protectOrPass]
    exact hstamped

/-- An event without packets of the video sender leaves the next sequence number, and goes to the
scheduler only if there is one. -/
theorem withoutVideo_step (e : Engine) {ev : EngineEvent} (h : ev.withoutVideo = true) :
    (e.step ev).1.nextSeq = e.nextSeq ∧ e.Sends (e.step ev).2 := by
  cases hmedia : ev.ofMedia with
  | false =>
    exact ⟨nextSeq_of_sender (sameVideo_step e hmedia).videoSender,
      fun m hm => absurd trivial (control_step e hmedia _ hm)⟩
  | true =>
    cases ev with
    | sendVideo f => cases h
    | sendAudio f => exact ⟨nextSeq_of_sender (videoSender_sendAudio e f), sends_sendAudio e f⟩
    | senderReport iceUp elapsed r =>
      simp only [step, maybeSendSenderReport]
      split_ifs
      · exact ⟨nextSeq_of_sender (videoSender_sendRtcp ..), sends_sendRtcp _ _ _ _ _⟩
      · exact ⟨rfl, fun m hm => by simp at hm⟩
      · exact ⟨rfl, fun m hm => by simp at hm⟩
    | flushVideoFeedback iceUp r =>
      simp only [step, flushVideoFeedback]
      split_ifs
      · exact ⟨nextSeq_of_sender (videoSender_sendRtcp ..), sends_sendRtcp _ _ _ _ _⟩
      · exact ⟨rfl, fun m hm => by simp at hm⟩
      · exact ⟨rfl, fun m hm => by simp at hm⟩
    | recv d =>
      simp only [step]
      rcases e.onTransportRecv_cases d with ⟨-, heq⟩ | ⟨-, hm, -⟩ | ⟨-, -, heq⟩
      · rw [heq]
        exact ⟨rfl, fun m hm => by simp at hm⟩
      · exact absurd (hm.symm.trans hmedia) (by simp)
      · rw [heq]
        have hsilent := silent_recvMedia e h
        exact ⟨hsilent.nextSeq, sends_of_silent hsilent⟩
    | _ => cases hmedia

end Engine

/-! ## The line -/

namespace SendPipeline

open Scheduler VideoSender

variable {p : SendPipeline} {first : UInt16}

/-- A waiting packet as it is handed over. -/
def entry (r : PacketRecord Outgoing) : Option Priority × Outgoing := (some r.priority, r.ownedData)

/-- What was handed over and what waits, in the order it leaves in. -/
def line (p : SendPipeline) : List (Option Priority × Outgoing) :=
  p.handed ++ p.sched.waiting.map entry

/-- The line is in order, and what is in it was numbered from `first` on. -/
structure LineInv (first : UInt16) (p : SendPipeline) : Prop where
  ordered : p.line.Pairwise MayPrecede
  numbers : ∀ a ∈ p.line, ∀ x ∈ a.2.video,
    x.number < p.numbered ∧ x.packet.seq = first + UInt16.ofNat x.number
  ranked : ∀ prio, ∀ r ∈ p.sched.queues prio, r.priority = prio
  video : ∀ r ∈ p.sched.waiting, r.ownedData.video.isSome →
    r.priority = .video ∨ r.priority = .videoKeyframe
  direct : p.engine.cfg.scheduler = false → p.sched.waiting = []

/-- What shortens the line keeps it. -/
theorem LineInv.of_sublist (h : p.LineInv first) {p' : SendPipeline}
    (hline : p'.line.Sublist p.line) (hsched : p.sched.Shrinks p'.sched)
    (hcfg : p'.engine.cfg = p.engine.cfg) (hnumbered : p.numbered ≤ p'.numbered) :
    p'.LineInv first where
  ordered := h.ordered.sublist hline
  numbers a ha x hx := by
    obtain ⟨hlt, hseq⟩ := h.numbers a (hline.subset ha) x hx
    exact ⟨hlt.trans_le hnumbered, hseq⟩
  ranked prio r hr := h.ranked prio r ((hsched prio).subset hr)
  video r hr := h.video r (hsched.waiting.subset hr)
  direct hnone := by
    rw [hcfg] at hnone
    have := hsched.waiting
    rwa [h.direct hnone, List.sublist_nil] at this

theorem LineInv.of_engine (h : p.LineInv first) {p' : SendPipeline} (hhanded : p'.handed = p.handed)
    (hsched : p'.sched = p.sched) (hcfg : p'.engine.cfg = p.engine.cfg)
    (hnumbered : p.numbered ≤ p'.numbered) : p'.LineInv first := by
  refine h.of_sublist ?_ (shrinks_of_queues (congrArg _ hsched)) hcfg hnumbered
  unfold line
  rw [hhanded, hsched]

/-- The queues after that of `prio` have a lower priority. -/
theorem rank_lt_of_after {before after : List Priority} {prio prio' : Priority}
    (h : Priority.all = before ++ prio :: after) (hmem : prio' ∈ after) : prio.rank < prio'.rank := by
  have hranks : Priority.all.Pairwise fun p q => p.rank < q.rank := by decide
  rw [h] at hranks
  exact (List.pairwise_cons.1 (List.pairwise_append.1 hranks).2.1).1 prio' hmem

/-- What a packet that is sent must be: the last of the numbered ones, if it is a video packet. -/
structure Last (first : UInt16) (p : SendPipeline) (prio : Priority) (x : NumberedPacket) : Prop where
  after : ∀ a ∈ p.line, ∀ y ∈ a.2.video, y.number < x.number
  numbered : x.number < p.numbered
  seq : x.packet.seq = first + UInt16.ofNat x.number
  prio : prio = .video ∨ prio = .videoKeyframe ∧ x.packet.marker

/-- The packet that `push` makes. -/
def pushed (s : Scheduler Outgoing) (prio : Priority) (o : Outgoing) : PacketRecord Outgoing :=
  { priority := prio, ownedData := o, dstAddr := s.lastDstAddr }

theorem mem_queues_push {s : Scheduler Outgoing} {prio prio' : Priority} {o : Outgoing}
    {r : PacketRecord Outgoing} (h : r ∈ (s.push prio o).queues prio') :
    r ∈ s.queues prio' ∨ prio' = prio ∧ r = pushed s prio o :=
  mem_update_append h

theorem mem_waiting_push {s : Scheduler Outgoing} {prio : Priority} {o : Outgoing}
    {r : PacketRecord Outgoing} (h : r ∈ (s.push prio o).waiting) :
    r ∈ s.waiting ∨ r = pushed s prio o := by
  obtain ⟨prio', hprio', hr⟩ := mem_inOrder.1 h
  rcases mem_queues_push hr with hr | ⟨-, rfl⟩
  · exact .inl (mem_inOrder.2 ⟨prio', hprio', hr⟩)
  · exact .inr rfl

theorem ordered_push (h : p.LineInv first) {prio : Priority} {o : Outgoing}
    (hlast : ∀ x ∈ o.video, p.Last first prio x) :
    { p with sched := p.sched.push prio o }.line.Pairwise MayPrecede := by
  obtain ⟨before, after, hall⟩ := List.append_of_mem (mem_all prio)
  have hnd := nodup_all
  rw [hall] at hnd
  have hline := h.ordered
  unfold line waiting at hline ⊢
  rw [hall] at hline ⊢
  refine pairwise_append_update hnd hline ?_ ?_
  · -- everything else has a smaller number
    intro a ha y hy x hx
    refine .inl ((hlast x hx).after a ?_ y hy)
    unfold line waiting
    rwa [hall]
  · -- only video packets without key-frame priority come later
    intro prio' hprio' r' hr' x hx y hy
    have hrank := rank_lt_of_after hall hprio'
    have hwait : r' ∈ p.sched.waiting :=
      mem_inOrder.2 ⟨prio', mem_all prio', hr'⟩
    have hkind := h.video r' hwait (Option.isSome_iff_exists.2 ⟨y, hy⟩)
    rw [h.ranked prio' r' hr'] at hkind
    rcases (hlast x hx).prio with rfl | ⟨rfl, hmarker⟩
    · rcases hkind with rfl | rfl <;> exact absurd hrank (by decide)
    · rcases hkind with rfl | rfl
      · exact .inr ⟨rfl, hmarker, congrArg some (h.ranked _ r' hr')⟩
      · exact absurd hrank (by decide)

theorem lineInv_push (h : p.LineInv first) (hsched : p.engine.cfg.scheduler = true)
    {prio : Priority} {o : Outgoing} (hlast : ∀ x ∈ o.video, p.Last first prio x) :
    { p with sched := p.sched.push prio o }.LineInv first := by
  refine ⟨ordered_push h hlast, fun a ha x hx => ?_, fun prio' r hr => ?_, fun r hr hvideo => ?_,
    fun hnone => absurd (hnone.symm.trans hsched) (by decide)⟩
  · rcases List.mem_append.1 ha with ha | ha
    · exact h.numbers a (List.mem_append_left _ ha) x hx
    · obtain ⟨r, hr, rfl⟩ := List.mem_map.1 ha
      rcases mem_waiting_push hr with hr | rfl
      · exact h.numbers _ (List.mem_append_right _ (List.mem_map_of_mem hr)) x hx
      · exact ⟨(hlast x hx).numbered, (hlast x hx).seq⟩
  · rcases mem_queues_push hr with hr | ⟨rfl, rfl⟩
    · exact h.ranked prio' r hr
    · rfl
  · rcases mem_waiting_push hr with hr | rfl
    · exact h.video r hr hvideo
    · obtain ⟨x, hx⟩ := Option.isSome_iff_exists.1 hvideo
      exact (hlast x hx).prio.imp id And.left

theorem lineInv_send (h : p.LineInv first) {prio : Priority} {o : Outgoing}
    (hlast : ∀ x ∈ o.video, p.Last first prio x) :
    (p.send (p.engine.sendPath prio) o).LineInv first := by
  unfold Engine.sendPath
  split_ifs with hsched
  · obtain ⟨s', hshrinks, hcase⟩ := p.sched.enqueueOwned_cases prio o []
    have hline : ({ p with sched := s' } : SendPipeline).line.Sublist p.line :=
      (List.Sublist.refl _).append (hshrinks.waiting.map entry)
    have h' : ({ p with sched := s' } : SendPipeline).LineInv first :=
      h.of_sublist hline hshrinks rfl le_rfl
    rcases hcase with heq | heq
    · refine h'.of_sublist ?_ (shrinks_of_queues heq) rfl le_rfl
      unfold line waiting
      rw [← heq]
      exact List.Sublist.refl _
    · show LineInv first { p with sched := (p.sched.enqueueOwned prio o []).1 }
      rw [heq]
      refine lineInv_push h' hsched fun x hx => ?_
      obtain ⟨hafter, hnumbered, hseq, hprio⟩ := hlast x hx
      exact ⟨fun a ha => hafter a (hline.subset ha), hnumbered, hseq, hprio⟩
  · -- without a scheduler nothing waits
    have hnil := h.direct (Bool.eq_false_iff.2 hsched)
    have hline : (p.send .ice o).line = p.line ++ [(none, o)] := by
      simp [send, line, hnil]
    refine ⟨?_, ?_, h.ranked, h.video, h.direct⟩
    · rw [hline, List.pairwise_append]
      refine ⟨h.ordered, List.pairwise_singleton _ _, fun a ha b hb y hy x hx => ?_⟩
      rw [List.mem_singleton.1 hb] at hx
      exact .inl ((hlast x hx).after a ha y hy)
    · intro a ha x hx
      rw [hline, List.mem_append, List.mem_singleton] at ha
      rcases ha with ha | rfl
      · exact h.numbers a ha x hx
      · exact ⟨(hlast x hx).numbered, (hlast x hx).seq⟩

theorem engine_send (p : SendPipeline) (path : SendPath) (o : Outgoing) :
    (p.send path o).engine = p.engine := by
  cases path <;> rfl

theorem numbered_send (p : SendPipeline) (path : SendPath) (o : Outgoing) :
    (p.send path o).numbered = p.numbered := by
  cases path <;> rfl

theorem engine_sendReports (video : Option NumberedPacket) :
    ∀ (rs : List EngineReport) (p : SendPipeline), (p.sendReports video rs).engine = p.engine
  | [], _ => rfl
  | .emitted _ :: rs, _ => (engine_sendReports video rs _).trans (engine_send ..)
  | .dtlsRecord _ :: rs, p | .dtls _ :: rs, p | .installed _ _ :: rs, p | .handed _ :: rs, p =>
    engine_sendReports video rs p

theorem numbered_sendReports (video : Option NumberedPacket) :
    ∀ (rs : List EngineReport) (p : SendPipeline), (p.sendReports video rs).numbered = p.numbered
  | [], _ => rfl
  | .emitted _ :: rs, _ => (numbered_sendReports video rs _).trans (numbered_send ..)
  | .dtlsRecord _ :: rs, p | .dtls _ :: rs, p | .installed _ _ :: rs, p | .handed _ :: rs, p =>
    numbered_sendReports video rs p

/-- An operation that emits one packet at most keeps the line, if that packet may come last. -/
theorem lineInv_sendsOne (h : p.LineInv first) {ok : Priority → Prop}
    {r : Engine × List EngineReport} (hone : p.engine.SendsOne ok r) {video : Option NumberedPacket}
    {n : ℕ} (hn : p.numbered ≤ n)
    (hlast : ∀ prio, ok prio → ∀ x ∈ video, { p with engine := r.1, numbered := n }.Last first prio x) :
    ({ p with engine := r.1, numbered := n }.sendReports video r.2).LineInv first := by
  have h' : ({ p with engine := r.1, numbered := n } : SendPipeline).LineInv first :=
    h.of_engine rfl rfl hone.cfg hn
  rcases hone.reports with hnil | ⟨kind, prio, bytes, sess, hok, hreports⟩
  · rw [hnil]
    exact h'
  · rw [hreports]
    have hpath : p.engine.sendPath prio = r.1.sendPath prio := by
      unfold Engine.sendPath
      rw [hone.cfg]
    rw [hpath]
    exact lineInv_send h' (hlast prio hok)

theorem lineInv_videoPacket (h : p.LineInv first) {c : CachedPacket}
    (hseq : c.seq = first + UInt16.ofNat p.numbered) (lib : LibSrtpCall) :
    (p.videoPacket c lib).LineInv first := by
  refine lineInv_sendsOne h (p.engine.sendsOne_videoPacket c lib) (Nat.le_succ _) ?_
  rintro prio hprio x hx
  obtain rfl := Option.some.inj hx
  exact ⟨fun a ha y hy => (h.numbers a ha y hy).1, Nat.lt_succ_self _, hseq, hprio⟩

theorem numbered_videoPacket (c : CachedPacket) (lib : LibSrtpCall) :
    (p.videoPacket c lib).numbered = p.numbered + 1 := numbered_sendReports ..

theorem engine_videoPacket (c : CachedPacket) (lib : LibSrtpCall) :
    (p.videoPacket c lib).engine = (p.engine.videoPacket c lib).1 := engine_sendReports ..

theorem lineInv_videoPackets : ∀ {cs : List CachedPacket} {p : SendPipeline}
    (lib : ℕ → LibSrtpCall), p.LineInv first →
    Consecutive (first + UInt16.ofNat p.numbered) cs →
    (p.videoPackets cs lib).LineInv first
      ∧ (p.videoPackets cs lib).numbered = p.numbered + cs.length
  | [], _, _, h, _ => ⟨h, rfl⟩
  | c :: cs, p, lib, h, ⟨hseq, hcs⟩ => by
    have hnext : first + UInt16.ofNat p.numbered + 1
        = first + UInt16.ofNat (p.videoPacket c (lib 0)).numbered := by
      rw [numbered_videoPacket, UInt16.ofNat_add, UInt16.add_assoc]
      rfl
    rw [hnext] at hcs
    obtain ⟨hline, hnumbered⟩ := lineInv_videoPackets (fun n => lib (n + 1))
      (lineInv_videoPacket h hseq (lib 0)) hcs
    refine ⟨hline, hnumbered.trans ?_⟩
    rw [numbered_videoPacket, List.length_cons]
    omega

/-- The pipeline does to the engine what the engine does. -/
theorem engine_videoPackets : ∀ (cs : List CachedPacket) (p : SendPipeline) (lib : ℕ → LibSrtpCall),
    (p.videoPackets cs lib).engine = (p.engine.videoPackets cs lib).1
  | [], _, _ => rfl
  | c :: cs, p, lib => by
    rw [videoPackets, engine_videoPackets, engine_videoPacket]
    rfl

theorem engine_sendVideo (p : SendPipeline) (f : VideoFrame) :
    (p.sendVideo f).engine = (p.engine.sendVideo f).1 := by
  unfold sendVideo Engine.sendVideo
  cases hsend : p.engine.videoToSend f with
  | none => rfl
  | some r =>
    simp only [engine_videoPackets]
    rfl

theorem videoSender_videoPackets : ∀ (cs : List CachedPacket) (e : Engine) (lib : ℕ → LibSrtpCall),
    (e.videoPackets cs lib).1.videoSender = e.videoSender
  | [], _, _ => rfl
  | c :: cs, e, lib =>
    (videoSender_videoPackets cs _ _).trans (e.sendsOne_videoPacket c (lib 0)).videoSender

/-- The line is in order, and the next packet is numbered as the sender numbers it. -/
structure Inv (first : UInt16) (p : SendPipeline) : Prop where
  line : p.LineInv first
  next : ∀ n ∈ p.engine.nextSeq, n = first + UInt16.ofNat p.numbered

theorem Inv.of_nextSeq (h : p.Inv first) {p' : SendPipeline} (hline : p'.LineInv first)
    (hnext : p'.engine.nextSeq = p.engine.nextSeq) (hnumbered : p'.numbered = p.numbered) :
    p'.Inv first := by
  refine ⟨hline, fun n hn => ?_⟩
  rw [hnext] at hn
  rw [hnumbered]
  exact h.next n hn

theorem videoToSend_eq_some {e : Engine} {f : VideoFrame} {s : VideoSender}
    {packets : List CachedPacket} (h : e.videoToSend f = some (s, packets)) :
    ∃ s₀ nalus, e.videoSender = some s₀ ∧ s₀.emitH264 nalus f.rtpTs = .ok (s, packets) := by
  unfold Engine.videoToSend at h
  split_ifs at h
  cases hs : e.videoSender with
  | none => simp [hs] at h
  | some s₀ =>
    cases hf : f.encoded with
    | none => simp [hs, hf] at h
    | some enc =>
      simp only [hs, hf] at h
      cases hemit : s₀.emitH264 enc.1 f.rtpTs with
      | error err => simp [hemit, Except.toOption] at h
      | ok r =>
        simp only [hemit, Except.toOption, Option.some.injEq] at h
        exact ⟨s₀, enc.1, rfl, h ▸ hemit⟩

theorem inv_sendVideo (h : p.Inv first) (f : VideoFrame) : (p.sendVideo f).Inv first := by
  unfold sendVideo
  cases hsend : p.engine.videoToSend f with
  | none => exact h.of_nextSeq (h.line.of_engine rfl rfl rfl le_rfl) rfl rfl
  | some r =>
    obtain ⟨s, packets⟩ := r
    obtain ⟨s₀, nalus, hs₀, hemit⟩ := videoToSend_eq_some hsend
    have hnumbers := numbers_emitH264 hemit
    have hs : s₀.nextSeq = first + UInt16.ofNat p.numbered :=
      h.next _ (by rw [Engine.nextSeq, hs₀]; rfl)
    -- the packets carry on where the sender was
    let start : SendPipeline := { p with
      engine := { p.engine with
        videoKeyframePending := p.engine.videoKeyframePending
          || (p.engine.isOpen && p.engine.cfg.videoCodec && p.engine.videoSender.isSome
            && (f.encoded.map (·.2)).getD false)
        videoSender := some s } }
    have hstart : start.LineInv first := h.line.of_engine rfl rfl rfl le_rfl
    obtain ⟨hline, hnumbered⟩ := lineInv_videoPackets f.lib hstart
      (hs ▸ hnumbers.consecutive)
    refine ⟨hline.of_engine rfl rfl rfl le_rfl, fun n hn => ?_⟩
    have hsender : (start.videoPackets packets f.lib).engine.videoSender = some s := by
      rw [engine_videoPackets, videoSender_videoPackets]
    have hnext : n = s.nextSeq := by
      have : some s.nextSeq = some n := by
        rw [← hn]
        exact (congrArg (Option.map (·.nextSeq)) hsender).symm
      exact (Option.some.inj this).symm
    show n = first + UInt16.ofNat (start.videoPackets packets f.lib).numbered
    rw [hnext, hnumbered, hnumbers.next, hs, UInt16.add_assoc, ← UInt16.ofNat_add]

/-- A packet that is not of the video sender may go anywhere. -/
theorem lineInv_sendOther (h : p.LineInv first) {path : SendPath}
    (hpath : ∀ prio, path = .scheduler prio → p.engine.cfg.scheduler = true) (bytes : List UInt8) :
    (p.send path ⟨bytes, none⟩).LineInv first := by
  cases path with
  | scheduler prio =>
    have hsend : p.engine.sendPath prio = .scheduler prio := if_pos (hpath prio rfl)
    rw [← hsend]
    exact lineInv_send h fun x hx => by cases hx
  | ice =>
    have hline : (p.send .ice ⟨bytes, none⟩).line
        = p.handed ++ (none, ⟨bytes, none⟩) :: p.sched.waiting.map entry := by
      simp [send, line]
    refine ⟨?_, fun a ha x hx => ?_, h.ranked, h.video, h.direct⟩
    · obtain ⟨hhanded, hwaiting, hacross⟩ := List.pairwise_append.1 h.ordered
      rw [hline, List.pairwise_append]
      refine ⟨hhanded, List.pairwise_cons.2 ⟨fun b _ x hx => (by cases hx), hwaiting⟩, ?_⟩
      intro a ha b hb
      rcases List.mem_cons.1 hb with rfl | hb
      · exact fun x _ y hy => by cases hy
      · exact hacross a ha b hb
    · rw [hline] at ha
      rcases List.mem_append.1 ha with ha | ha
      · exact h.numbers a (List.mem_append_left _ ha) x hx
      · rcases List.mem_cons.1 ha with rfl | ha
        · cases hx
        · exact h.numbers a (List.mem_append_right _ ha) x hx

theorem lineInv_sendReports : ∀ (rs : List EngineReport) {p : SendPipeline}, p.LineInv first →
    p.engine.Sends rs → (p.sendReports none rs).LineInv first
  | [], _, h, _ => h
  | .emitted m :: rs, p, h, hsends => by
    have hsend := lineInv_sendOther h (hsends m List.mem_cons_self) m.bytes
    refine lineInv_sendReports rs hsend fun m' hm' => ?_
    rw [engine_send]
    exact hsends m' (List.mem_cons_of_mem _ hm')
  | .dtlsRecord _ :: rs, p, h, hsends | .dtls _ :: rs, p, h, hsends
  | .installed _ _ :: rs, p, h, hsends | .handed _ :: rs, p, h, hsends =>
    lineInv_sendReports rs h fun m hm => hsends m (List.mem_cons_of_mem _ hm)

theorem inv_onEngine (h : p.Inv first) {ev : EngineEvent} (hev : ev.withoutVideo = true) :
    (p.onEngine ev).Inv first := by
  obtain ⟨hnext, hsends⟩ := p.engine.withoutVideo_step hev
  have hcfg := p.engine.cfg_step ev
  have hline : (p.onEngine ev).LineInv first := by
    refine lineInv_sendReports _ (h.line.of_engine rfl rfl hcfg le_rfl) fun m hm prio hprio => ?_
    exact (congrArg EngineConfig.scheduler hcfg).trans (hsends m hm prio hprio)
  refine h.of_nextSeq hline ?_ (numbered_sendReports ..)
  unfold onEngine
  rw [engine_sendReports]
  exact hnext

theorem inv_drainScheduler (h : p.Inv first) (targetBps : UInt32) :
    (p.drainScheduler targetBps).Inv first := by
  have hbwe : p.sched.Shrinks (if 0 < targetBps then p.sched.onBweUpdate targetBps else p.sched) := by
    split_ifs
    · exact shrinks_onBweUpdate targetBps
    · exact shrinks_of_queues rfl
  unfold drainScheduler
  by_cases hopen : (p.engine.isOpen && p.engine.cfg.scheduler) = true
  · rw [if_pos hopen]
    generalize (if 0 < targetBps then p.sched.onBweUpdate targetBps else p.sched) = s at hbwe
    have hdrain := (s.drainWith_const 64 p.engine.modules).trans hbwe.waiting
    refine h.of_nextSeq (h.line.of_sublist ?_ (hbwe.trans (shrinks_drainWith _ _)) rfl le_rfl) rfl rfl
    have hmapped := (List.Sublist.refl p.handed).append (hdrain.map entry)
    rw [List.map_append, ← List.append_assoc] at hmapped
    exact hmapped
  · rw [if_neg hopen]
    exact h

theorem inv_step (h : p.Inv first) : ∀ ev : SendEvent, (p.step ev).Inv first
  | .sendVideo f => inv_sendVideo h f
  | .tick targetBps => inv_drainScheduler h targetBps
  | .engine _ hev => inv_onEngine h hev

/-- The engine behind the pipeline runs as the engine does by itself. -/
theorem engine_exec : ∀ (evs : List SendEvent) (p : SendPipeline),
    (machine.exec p evs).1.engine
      = (Engine.machine.exec p.engine (evs.filterMap (·.ofEngine))).1
  | [], _ => rfl
  | .sendVideo f :: evs, p => by
    have h := engine_exec evs (p.sendVideo f)
    rw [engine_sendVideo] at h
    exact h
  | .tick bps :: evs, p => by
    have h : (p.drainScheduler bps).engine = p.engine := by
      unfold drainScheduler
      split_ifs <;> rfl
    exact (engine_exec evs (p.drainScheduler bps)).trans (by rw [h]; rfl)
  | .engine ev _ :: evs, p => by
    have h := engine_exec evs (p.onEngine ev)
    rw [onEngine, engine_sendReports] at h
    exact h

/-- A video packet is handed to ICE before one with a smaller number only if it is a marker packet
with the priority of a key frame and the other has the priority of other video. The numbers are
those of the sequence, from the sender's next one on, and the engine runs as it does by itself. -/
theorem video_leaves_in_order (e : Engine) (config : SchedulerConfig) (evs : List SendEvent) :
    (run e config evs).handed.Pairwise MayPrecede
      ∧ (∀ a ∈ (run e config evs).handed, ∀ x ∈ a.2.video, ∀ s ∈ e.videoSender,
        x.packet.seq = s.nextSeq + UInt16.ofNat x.number)
      ∧ (run e config evs).engine
        = (Engine.machine.exec e (evs.filterMap (·.ofEngine))).1 := by
  have hinv : ∀ first, (∀ n ∈ e.nextSeq, n = first) → (run e config evs).Inv first := by
    intro first hfirst
    have hinit : ({ engine := e, sched := .create config } : SendPipeline).Inv first := by
      refine ⟨⟨List.Pairwise.nil, ?_, ?_, ?_, fun _ => rfl⟩, ?_⟩
      · intro a ha
        cases ha
      · intro prio r hr
        cases hr
      · intro r hr
        cases hr
      · simpa using hfirst
    exact Machine.exec_preserves (M := machine) (I := Inv first) (fun p ev h => inv_step h ev) evs
      hinit
  constructor
  · have hfirst : ∀ n ∈ e.nextSeq, n = e.nextSeq.getD 0 := by
      intro n hn
      rw [hn]
      rfl
    exact (List.pairwise_append.1 (hinv _ hfirst).line.ordered).1
  refine ⟨fun a ha x hx s hs => ?_, engine_exec evs _⟩
  · have hfirst : ∀ n ∈ e.nextSeq, n = s.nextSeq := by
      intro n hn
      rw [Engine.nextSeq, hs] at hn
      exact (Option.some.inj hn).symm
    exact ((hinv _ hfirst).line.numbers a (List.mem_append_left _ ha) x hx).2

/-- A frame of one NAL unit, and then a key frame of one. -/
def twoFrames : List SendEvent :=
  [.sendVideo { encoded := some ([[0x41, 1]], false) },
    .sendVideo { encoded := some ([[0x65, 2]], true) }, .tick 0]

/-- Nothing is dropped, and the key frame leaves before the frame sent before it. -/
theorem keyframe_overtakes :
    let p := run { state := .open, modules := true, videoSender := some { cfg := {} } } {} twoFrames
    p.sched.stats.droppedPackets = 0 ∧ p.sched.waiting = []
      ∧ p.handed.filterMap (fun a => a.2.video.map (·.packet.seq)) = [1, 0] ∧ ¬ p.InOrder := by
  intro p
  have hnumbers : p.handed.map (fun a => a.2.video.map (·.number)) = [some 1, some 0] := by
    decide
  refine ⟨by decide, by decide, by decide, fun h => ?_⟩
  have hpairs : (p.handed.map fun a => a.2.video.map (·.number)).Pairwise
      fun m n => ∀ i ∈ m, ∀ j ∈ n, i < j := by
    refine List.pairwise_map.2 (h.imp fun {a b} hab i hi j hj => ?_)
    obtain ⟨x, hx, rfl⟩ := Option.mem_map.1 hi
    obtain ⟨y, hy, rfl⟩ := Option.mem_map.1 hj
    exact hab x hx y hy
  rw [hnumbers] at hpairs
  have := (List.pairwise_cons.1 hpairs).1 (some 0) (by simp) 1 rfl 0 rfl
  omega

end SendPipeline

end NimRtc
