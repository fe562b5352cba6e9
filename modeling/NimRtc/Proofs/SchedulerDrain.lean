import NimRtc.SchedulerRuns

/-!
# What a drain takes

Both drains of the scheduler run one loop over their queues in turn. While the callback accepts,
the loop takes the first packets of what waits, as many as the drain may send, and leaves the
rest. A vetoed packet has left its queue, and the loop goes on with the next queue, so that a
veto always loses a packet.
-/

namespace NimRtc

open ClassQueues

variable {α : Type*}

namespace Drain

/-- The drain after the packets `l` have been sent. -/
def advance (d : Drain α) (avgSize : UInt32) (l : List (PacketRecord α)) : Drain α where
  sent := d.sent + l.length
  sentTotal := d.sentTotal + UInt32.ofNat l.length
  sentBytesTotal :=
    l.foldl (fun n r => n + (r.estimatedPacketBytes avgSize).toUInt64) d.sentBytesTotal
  offers := d.offers ++ l.map fun r => (r, true)

variable {d : Drain α} {avgSize : UInt32}

@[simp] theorem advance_nil : d.advance avgSize [] = d := by simp [advance]

@[simp] theorem advance_sent (l : List (PacketRecord α)) :
    (d.advance avgSize l).sent = d.sent + l.length := rfl

@[simp] theorem advance_offers (l : List (PacketRecord α)) :
    (d.advance avgSize l).offers = d.offers ++ l.map fun r => (r, true) := rfl

theorem advance_append (l l' : List (PacketRecord α)) :
    d.advance avgSize (l ++ l') = (d.advance avgSize l).advance avgSize l' := by
  simp [advance, Nat.add_assoc, UInt32.add_assoc]

@[simp] theorem accepted_advance (l : List (PacketRecord α)) :
    (d.advance avgSize l).accepted = d.accepted ++ l := by
  simp [accepted, List.filter_map, Function.comp_def]

end Drain

namespace Scheduler

/-! ## The loop over one queue -/

section Loop

variable {avgSize : UInt32} {cb : Option (DrainCallback α)} {stops : ℕ → Bool} {limit : ℕ}
  (hstops : ∀ n, stops n = true ↔ limit ≤ n)

/-- The callback accepts each packet of `q` that the drain may still send when the ones before it
have been accepted. -/
def AcceptsFrom (cb : Option (DrainCallback α)) (limit : ℕ) (q : List (PacketRecord α))
    (d : Drain α) : Prop :=
  ∀ j r, d.sent + j < limit → q[j]? = some r →
    answer cb (d.offers ++ (q.take j).map fun r => (r, true)) r = true

variable {r : PacketRecord α} {q : List (PacketRecord α)} {d : Drain α}

theorem acceptsFrom_of_done (h : limit ≤ d.sent) : AcceptsFrom cb limit q d := by
  intro j r hj
  omega

variable (avgSize) in
theorem acceptsFrom_cons (h : d.sent < limit) : AcceptsFrom cb limit (r :: q) d ↔
    answer cb d.offers r = true ∧ AcceptsFrom cb limit q (d.advance avgSize [r]) := by
  constructor
  · intro hacc
    refine ⟨?_, fun j r' hj hr' => ?_⟩
    · simpa using hacc 0 r (by omega) rfl
    · have := hacc (j + 1) r' (by simpa [Nat.add_assoc, Nat.add_comm 1] using hj) hr'
      simpa using this
  · rintro ⟨hr, hacc⟩ j r' hj hr'
    cases j with
    | zero =>
      cases hr'
      simpa using hr
    | succ j =>
      have := hacc j r' (by simpa [Nat.add_assoc, Nat.add_comm 1] using hj) hr'
      simpa using this

include hstops

theorem drainLoop_done (h : limit ≤ d.sent) : drainLoop avgSize cb stops q d = (q, d) := by
  cases q with
  | nil => rfl
  | cons r q => rw [drainLoop, if_pos ((hstops _).2 h)]

theorem drainLoop_cons (h : d.sent < limit) : drainLoop avgSize cb stops (r :: q) d =
    if answer cb d.offers r = true then drainLoop avgSize cb stops q (d.advance avgSize [r])
    else (q, { d with offers := d.offers ++ [(r, false)] }) := by
  rw [drainLoop, if_neg ((hstops _).not.2 (by omega))]
  rfl

/-- What is accepted is taken from the front. -/
theorem drainLoop_accepted : ∀ {q : List (PacketRecord α)} {d : Drain α}, AcceptsFrom cb limit q d →
    drainLoop avgSize cb stops q d
      = (q.drop (limit - d.sent), d.advance avgSize (q.take (limit - d.sent)))
  | [], d, _ => by simp [drainLoop]
  | r :: q, d, hacc => by
    rcases Nat.lt_or_ge d.sent limit with hlt | hge
    · obtain ⟨hr, hrest⟩ := (acceptsFrom_cons avgSize hlt).1 hacc
      have hsucc : limit - d.sent = limit - (d.advance avgSize [r]).sent + 1 := by
        simp only [Drain.advance_sent, List.length_singleton]
        omega
      rw [drainLoop_cons hstops hlt, if_pos hr, drainLoop_accepted hrest, hsucc, List.drop_succ_cons,
        List.take_succ_cons, ← Drain.advance_append, List.singleton_append]
    · rw [drainLoop_done hstops hge, Nat.sub_eq_zero_of_le hge, List.drop_zero, List.take_zero,
        Drain.advance_nil]

/-- The offers of a drain only grow. -/
theorem offers_drainLoop : ∀ {q : List (PacketRecord α)} {d : Drain α},
    d.offers <+: (drainLoop avgSize cb stops q d).2.offers
  | [], _ => List.prefix_rfl
  | r :: q, d => by
    rcases Nat.lt_or_ge d.sent limit with hlt | hge
    · rw [drainLoop_cons hstops hlt]
      split_ifs
      · exact (List.prefix_append _ [(r, true)]).trans
          (offers_drainLoop (d := d.advance avgSize [r]))
      · exact List.prefix_append _ _
    · rw [drainLoop_done hstops hge]

theorem drainLoop_vetoed : ∀ {q : List (PacketRecord α)} {d : Drain α},
    ¬ AcceptsFrom cb limit q d → ∃ o ∈ (drainLoop avgSize cb stops q d).2.offers, o.2 = false
  | [], d, hacc => by
    refine absurd (fun j r _ hr => ?_) hacc
    simp at hr
  | r :: q, d, hacc => by
    rcases Nat.lt_or_ge d.sent limit with hlt | hge
    · rw [acceptsFrom_cons avgSize hlt, not_and] at hacc
      rw [drainLoop_cons hstops hlt]
      split_ifs with hr
      · exact drainLoop_vetoed (hacc hr)
      · exact ⟨(r, false), by simp, rfl⟩
    · exact absurd (acceptsFrom_of_done hge) hacc

variable (avgSize cb) in
/-- Each packet offered has left its queue. -/
theorem length_drainLoop : ∀ (q : List (PacketRecord α)) (d : Drain α),
    (drainLoop avgSize cb stops q d).1.length + (drainLoop avgSize cb stops q d).2.offers.length
      = q.length + d.offers.length
  | [], _ => rfl
  | r :: q, d => by
    rcases Nat.lt_or_ge d.sent limit with hlt | hge
    · rw [drainLoop_cons hstops hlt]
      split_ifs
      · rw [length_drainLoop]
        simp only [Drain.advance_offers, List.length_append, List.length_map, List.length_cons,
          List.length_nil]
        omega
      · simp only [List.length_append, List.length_cons, List.length_nil]
        omega
    · rw [drainLoop_done hstops hge]

end Loop

/-! ## The queues in turn -/

section Each

variable {κ : Type*} [DecidableEq κ]

/-- A loop over the queues of the classes `ks`, one after the other. -/
def drainEach (loop : List (PacketRecord α) → Drain α → List (PacketRecord α) × Drain α) :
    List κ → (κ → List (PacketRecord α)) → Drain α → (κ → List (PacketRecord α)) × Drain α
  | [], queues, d => (queues, d)
  | k :: ks, queues, d =>
    drainEach loop ks (Function.update queues k (loop (queues k) d).1) (loop (queues k) d).2

theorem drainEach_of_notMem
    {loop : List (PacketRecord α) → Drain α → List (PacketRecord α) × Drain α} :
    ∀ {ks : List κ} {queues : κ → List (PacketRecord α)} {d : Drain α} {k : κ}, k ∉ ks →
      (drainEach loop ks queues d).1 k = queues k
  | [], _, _, _, _ => rfl
  | k' :: ks, queues, d, k, hk => by
    obtain ⟨hne, hks⟩ := not_or.1 (List.mem_cons.not.1 hk)
    rw [drainEach, drainEach_of_notMem hks, Function.update_of_ne hne]

variable {avgSize : UInt32} {cb : Option (DrainCallback α)} {stops : ℕ → Bool} {limit : ℕ}
  (hstops : ∀ n, stops n = true ↔ limit ≤ n)

variable (avgSize) in
theorem acceptsFrom_append {q q' : List (PacketRecord α)} {d : Drain α} :
    AcceptsFrom cb limit (q ++ q') d ↔ AcceptsFrom cb limit q d
      ∧ AcceptsFrom cb limit q' (d.advance avgSize (q.take (limit - d.sent))) := by
  -- past the queue the drain goes on only if it could send all of it
  have hall : ∀ j, (d.advance avgSize (q.take (limit - d.sent))).sent + j < limit →
      q.take (limit - d.sent) = q := by
    intro j hj
    rw [List.take_eq_self_iff]
    simp only [Drain.advance_sent, List.length_take] at hj
    omega
  constructor
  · intro hacc
    refine ⟨fun j r hj hr => ?_, fun j r hj hr => ?_⟩
    · have hlt := (List.getElem?_eq_some_iff.1 hr).1
      have := hacc j r hj (by rw [List.getElem?_append_left hlt, hr])
      rwa [List.take_append_of_le_length hlt.le] at this
    · have htake := hall j hj
      rw [htake] at hj ⊢
      have := hacc (q.length + j) r (by simpa [Nat.add_assoc] using hj)
        (by rw [List.getElem?_append_right (Nat.le_add_right _ _), Nat.add_sub_cancel_left, hr])
      simpa [List.take_length_add_append] using this
  · rintro ⟨hq, hq'⟩ j r hj hr
    rcases Nat.lt_or_ge j q.length with hlt | hge
    · rw [List.getElem?_append_left hlt] at hr
      rw [List.take_append_of_le_length hlt.le]
      exact hq j r hj hr
    · obtain ⟨i, rfl⟩ := Nat.exists_eq_add_of_le hge
      rw [List.getElem?_append_right hge, Nat.add_sub_cancel_left] at hr
      have htake : q.take (limit - d.sent) = q := List.take_of_length_le (by omega)
      have := hq' i r (by rw [htake, Drain.advance_sent]; omega) hr
      simpa [htake, List.take_length_add_append] using this

include hstops

/-- What is accepted is taken from the front of what waits. -/
theorem drainEach_accepted : ∀ {ks : List κ} {queues : κ → List (PacketRecord α)} {d : Drain α},
    ks.Nodup → AcceptsFrom cb limit (inOrder ks queues) d →
    drainEach (drainLoop avgSize cb stops) ks queues d
      = (dropFirst ks queues (limit - d.sent),
        d.advance avgSize ((inOrder ks queues).take (limit - d.sent)))
  | [], queues, d, _, _ => by simp [drainEach, dropFirst]
  | k :: ks, queues, d, hnd, hacc => by
    obtain ⟨hk, hks⟩ := List.nodup_cons.1 hnd
    rw [inOrder_cons, acceptsFrom_append avgSize] at hacc
    obtain ⟨hq, hrest⟩ := hacc
    rw [← inOrder_update_of_notMem hk] at hrest
    have hsent : limit - (d.advance avgSize ((queues k).take (limit - d.sent))).sent
        = limit - d.sent - (queues k).length := by
      simp only [Drain.advance_sent, List.length_take]
      omega
    rw [drainEach, drainLoop_accepted hstops hq, drainEach_accepted hks hrest, hsent, dropFirst,
      inOrder_update_of_notMem hk, inOrder_cons, List.take_append, Drain.advance_append]

theorem offers_drainEach : ∀ {ks : List κ} {queues : κ → List (PacketRecord α)} {d : Drain α},
    d.offers <+: (drainEach (drainLoop avgSize cb stops) ks queues d).2.offers
  | [], _, _ => List.prefix_rfl
  | _ :: _, _, _ => (offers_drainLoop hstops).trans offers_drainEach

theorem drainEach_vetoed : ∀ {ks : List κ} {queues : κ → List (PacketRecord α)} {d : Drain α},
    ks.Nodup → ¬ AcceptsFrom cb limit (inOrder ks queues) d →
    ∃ o ∈ (drainEach (drainLoop avgSize cb stops) ks queues d).2.offers, o.2 = false
  | [], queues, d, _, hacc => by
    refine absurd (fun j r _ hr => ?_) hacc
    simp at hr
  | k :: ks, queues, d, hnd, hacc => by
    obtain ⟨hk, hks⟩ := List.nodup_cons.1 hnd
    rw [inOrder_cons, acceptsFrom_append avgSize, not_and] at hacc
    rw [drainEach]
    by_cases hq : AcceptsFrom cb limit (queues k) d
    · have hrest := hacc hq
      rw [← inOrder_update_of_notMem hk] at hrest
      rw [drainLoop_accepted hstops hq]
      exact drainEach_vetoed hks hrest
    · obtain ⟨o, ho, hveto⟩ : ∃ o ∈ (drainLoop avgSize cb stops (queues k) d).2.offers, o.2 = false :=
        drainLoop_vetoed hstops hq
      exact ⟨o, (offers_drainEach hstops).subset ho, hveto⟩

variable (avgSize cb) in
theorem length_drainEach : ∀ {ks : List κ}, ks.Nodup →
    ∀ (queues : κ → List (PacketRecord α)) (d : Drain α),
    (inOrder ks (drainEach (drainLoop avgSize cb stops) ks queues d).1).length
        + (drainEach (drainLoop avgSize cb stops) ks queues d).2.offers.length
      = (inOrder ks queues).length + d.offers.length
  | [], _, _, _ => rfl
  | k :: ks, hnd, queues, d => by
    obtain ⟨hk, hks⟩ := List.nodup_cons.1 hnd
    have hloop := length_drainLoop avgSize cb hstops (queues k) d
    have hrest := length_drainEach hks
      (Function.update queues k (drainLoop avgSize cb stops (queues k) d).1)
      (drainLoop avgSize cb stops (queues k) d).2
    rw [inOrder_update_of_notMem hk] at hrest
    rw [drainEach, inOrder_cons, inOrder_cons, drainEach_of_notMem hk, Function.update_self,
      List.length_append, List.length_append]
    omega

theorem drainEach_done : ∀ {ks : List κ} {queues : κ → List (PacketRecord α)} {d : Drain α},
    limit ≤ d.sent → drainEach (drainLoop avgSize cb stops) ks queues d = (queues, d)
  | [], _, _, _ => rfl
  | k :: ks, queues, d, hge => by
    rw [drainEach, drainLoop_done hstops hge, Function.update_eq_self, drainEach_done hge]

end Each

/-! ## `drain_with` -/

theorem nodup_all : Priority.all.Nodup := by decide

section DrainWith

variable (s : Scheduler α) (maxPackets : ℤ) (cb : Option (DrainCallback α))

theorem stops_iff (n : ℕ) : (decide ¬ (n : ℤ) < maxPackets || s.limited n) = true
    ↔ s.drainLimit maxPackets ≤ n := by
  unfold limited drainLimit
  simp only [Bool.or_eq_true, Bool.and_eq_true, decide_eq_true_eq]
  split_ifs with hallowed <;> simp only [hallowed, true_and, false_and, or_false] <;> omega

/-- Leaving the loop early leaves out only queues that nothing more is taken from. -/
theorem drainQueues_eq : ∀ (ps : List Priority) (queues : Priority → List (PacketRecord α))
    (d : Drain α), s.drainQueues maxPackets cb ps queues d
      = drainEach (s.drainQueue maxPackets cb) ps queues d
  | [], _, _ => rfl
  | p :: ps, queues, d => by
    simp only [drainQueues, drainEach, drainQueues_eq ps]
    split_ifs with hmax hlim
    · refine (drainEach_done (s.stops_iff maxPackets) ?_).symm
      rw [← s.stops_iff, hlim, Bool.or_true]
    · rfl
    · have hge : s.drainLimit maxPackets ≤ d.sent := by simp [← s.stops_iff, hmax]
      have hdone : drainEach (s.drainQueue maxPackets cb) (p :: ps) queues d = (queues, d) :=
        drainEach_done (s.stops_iff maxPackets) hge
      exact hdone.symm

/-- What a drain has counted before it takes a packet. -/
def drainStart : Drain α := { sentTotal := s.sentTotal, sentBytesTotal := s.sentBytesTotal }

/-- The scheduler after a drain that left `queues` and counted `d`. -/
def drained (r : (Priority → List (PacketRecord α)) × Drain α) : Scheduler α × Drain α :=
  ({ s with queues := r.1, sentTotal := r.2.sentTotal, sentBytesTotal := r.2.sentBytesTotal }, r.2)

theorem drainWith_eq : s.drainWith maxPackets cb
    = s.drained (drainEach (s.drainQueue maxPackets cb) Priority.all s.queues s.drainStart) := by
  unfold drainWith
  split_ifs with hmax
  · have hge : s.drainLimit maxPackets ≤ s.drainStart.sent := by
      rw [← s.stops_iff]
      simp [drainStart, hmax]
    unfold drainQueue
    rw [drainEach_done (s.stops_iff maxPackets) hge]
    rfl
  · simp only [drainQueues_eq]
    rfl

variable {s maxPackets cb}

theorem drainWith_accepted
    (h : AcceptsFrom cb (s.drainLimit maxPackets) s.waiting s.drainStart) :
    s.drainWith maxPackets cb = s.drained (dropFirst Priority.all s.queues (s.drainLimit maxPackets),
      s.drainStart.advance s.config.avgPacketSizeBytes
        (s.waiting.take (s.drainLimit maxPackets))) := by
  rw [drainWith_eq, drainQueue, drainEach_accepted (s.stops_iff maxPackets) nodup_all h]
  rfl

theorem noVeto_iff {cb : DrainCallback α} : s.NoVeto maxPackets cb
    ↔ AcceptsFrom (some cb) (s.drainLimit maxPackets) s.waiting s.drainStart := by
  simp only [NoVeto, AcceptsFrom, answer, drainStart, List.nil_append, List.map_map, Nat.zero_add]
  rfl

theorem waiting_of_dropFirst {s' : Scheduler α} {n : ℕ}
    (h : s'.queues = dropFirst Priority.all s.queues n) : s'.waiting = s.waiting.drop n := by
  rw [waiting, h, inOrder_dropFirst nodup_all]
  rfl

end DrainWith

theorem accepted_drainStart_advance (s : Scheduler α) (l : List (PacketRecord α)) :
    (s.drainStart.advance s.config.avgPacketSizeBytes l).accepted = l := by
  rw [Drain.accepted_advance]
  rfl

theorem waiting_drainWith {maxPackets : ℤ} {cb : Option (DrainCallback α)} {s : Scheduler α}
    (h : AcceptsFrom cb (s.drainLimit maxPackets) s.waiting s.drainStart) :
    (s.drainWith maxPackets cb).1.waiting = s.waiting.drop (s.drainLimit maxPackets) := by
  rw [drainWith_accepted h]
  exact waiting_of_dropFirst rfl

theorem accepted_drainWith {maxPackets : ℤ} {cb : Option (DrainCallback α)} {s : Scheduler α}
    (h : AcceptsFrom cb (s.drainLimit maxPackets) s.waiting s.drainStart) :
    (s.drainWith maxPackets cb).2.accepted = s.waiting.take (s.drainLimit maxPackets) := by
  rw [drainWith_accepted h]
  exact accepted_drainStart_advance s _

/-- A vetoed packet is offered and not accepted. -/
theorem accepted_lt {d : Drain α} {o : PacketRecord α × Bool} (ho : o ∈ d.offers)
    (hveto : o.2 = false) : d.accepted.length < d.offers.length := by
  rw [Drain.accepted, List.length_map]
  refine List.length_filter_lt_length_iff_exists.2 ⟨o, ho, ?_⟩
  simp [hveto]

/-- `drain_with` follows its contract exactly when the callback vetoes none of the packets the drain
may send. -/
theorem keepsVetoed_iff (s : Scheduler α) (maxPackets : ℤ) (cb : DrainCallback α) :
    s.KeepsVetoed (s.drainWith maxPackets (some cb)).1 (s.drainWith maxPackets (some cb)).2
      ↔ s.NoVeto maxPackets cb := by
  rw [noVeto_iff]
  constructor
  · intro h
    by_contra hveto
    -- a vetoed packet has left the queues and is not counted
    obtain ⟨o, ho, hfalse⟩ : ∃ o ∈ (drainEach (s.drainQueue maxPackets (some cb)) Priority.all
        s.queues s.drainStart).2.offers, o.2 = false :=
      drainEach_vetoed (s.stops_iff maxPackets) nodup_all hveto
    have hlen := length_drainEach s.config.avgPacketSizeBytes (some cb) (s.stops_iff maxPackets)
      nodup_all s.queues s.drainStart
    have hremoved := h.removed
    rw [drainWith_eq] at hremoved
    have hcount := accepted_lt ho hfalse
    simp only [drainStart, drainQueue, List.length_nil, Nat.add_zero] at hlen hcount
    simp only [drained, drainStart, drainQueue, waiting] at hremoved
    omega
  · intro hacc
    rw [drainWith_accepted hacc]
    have hdrop : s.waiting.drop (s.drainLimit maxPackets)
        = s.waiting.drop (s.waiting.take (s.drainLimit maxPackets)).length := by
      rw [List.length_take]
      rcases Nat.le_total (s.drainLimit maxPackets) s.waiting.length with hle | hle
      · rw [Nat.min_eq_left hle]
      · rw [Nat.min_eq_right hle, List.drop_of_length_le hle, List.drop_length]
    have haccepted := accepted_drainStart_advance s (s.waiting.take (s.drainLimit maxPackets))
    refine ⟨?_, ?_, ?_, dropFirst_isSuffixOf nodup_all _, ?_, ?_, ?_⟩ <;>
      simp only [drained, haccepted]
    · simpa [drainStart, Function.comp_def] using List.take_prefix _ s.waiting
    · intro o ho
      have hmem := List.mem_of_mem_dropLast ho
      simp only [Drain.advance_offers, drainStart, List.nil_append, List.mem_map] at hmem
      obtain ⟨r, -, rfl⟩ := hmem
      rfl
    · rw [← hdrop]
      exact waiting_of_dropFirst rfl
    · exact Nat.zero_add _
    · rfl
    · rw [waiting_of_dropFirst (s := s) rfl, List.length_drop, List.length_take]
      omega

/-- An audio packet and a video packet wait, and the callback vetoes the audio packet. -/
def vetoed : Scheduler (List UInt8) × Drain (List UInt8) :=
  (SchedulerRun.run {} [.enqueue .audio [1] [], .enqueue .video [2] []]).sched.drainWith 64
    (some fun _ p _ => p ≠ .audio)

/-- The video packet is offered after the veto, and the audio packet is lost. -/
theorem vetoed_lost :
    vetoed.2.offers.map (fun o => (o.1.ownedData, o.2)) = [([1], false), ([2], true)]
      ∧ vetoed.1.waiting = []
      ∧ ¬ (SchedulerRun.run {} [.enqueue .audio [1] [], .enqueue .video [2] []]).sched.KeepsVetoed
        vetoed.1 vetoed.2 := by
  refine ⟨by decide, by decide, fun h => ?_⟩
  have hstops := h.stops
  revert hstops
  decide

end Scheduler

end NimRtc
