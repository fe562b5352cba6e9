import NimRtc.Proofs.SchedulerDrain

/-!
# What the scheduler drops

`on_bwe_update` walks the queues from the lowest priority up and keeps each queue that still fits
the budget, so a small queue of a low priority survives where a large one above it is dropped.
`enqueue_locked` evicts from the lowest queue that is not empty, whatever is to be queued. Whatever
is dropped is counted.
-/

namespace NimRtc

open ClassQueues

namespace Scheduler

variable {α : Type*} {s : Scheduler α}

/-! ## Congestion -/

@[simp] theorem queues_dropQueue_self (p : Priority) : (s.dropQueue p).queues p = [] := by
  simp [dropQueue]

theorem queues_dropQueue_of_ne {p q : Priority} (h : q ≠ p) :
    (s.dropQueue p).queues q = s.queues q := by
  simp [dropQueue, h]

theorem queueBytes_dropQueue_of_ne {p q : Priority} (h : q ≠ p) :
    (s.dropQueue p).queueBytes q = s.queueBytes q := by
  unfold queueBytes
  rw [queues_dropQueue_of_ne h]
  rfl

theorem queues_ne_of_lt {p : Priority} {budget : ℕ} (h : budget < s.queueBytes p) :
    s.queues p ≠ [] := by
  intro hnil
  simp [queueBytes, hnil] at h

theorem queueBytes_of_nil {p : Priority} (h : s.queues p = []) : s.queueBytes p = 0 := by
  simp [queueBytes, h]

theorem map_queueBytes_dropQueue {p : Priority} {ps : List Priority} (hp : p ∉ ps) :
    ps.map (s.dropQueue p).queueBytes = ps.map s.queueBytes := by
  refine List.map_congr_left fun q hq => queueBytes_dropQueue_of_ne ?_
  rintro rfl
  exact hp hq

theorem queues_trim_of_notMem : ∀ {ps : List Priority} {s : Scheduler α} {budget : ℕ} {q : Priority},
    q ∉ ps → (s.trim ps budget).queues q = s.queues q
  | [], _, _, _, _ => rfl
  | p :: ps, s, budget, q, hq => by
    obtain ⟨hne, hps⟩ := not_or.1 (List.mem_cons.not.1 hq)
    rw [trim]
    split_ifs
    · exact queues_trim_of_notMem hps
    · exact queues_trim_of_notMem hps
    · rw [queues_trim_of_notMem hps, queues_dropQueue_of_ne hne]

/-- The walk keeps every queue exactly when they fit the budget together. -/
theorem trim_keeps_iff : ∀ {ps : List Priority} {s : Scheduler α} (budget : ℕ), ps.Nodup →
    Priority.control ∉ ps →
    ((∀ p ∈ ps, (s.trim ps budget).queues p = s.queues p)
      ↔ (ps.map s.queueBytes).sum ≤ budget)
  | [], _, _, _, _ => by simp
  | p :: ps, s, budget, hnd, hctl => by
    obtain ⟨hp, hps⟩ := List.nodup_cons.1 hnd
    obtain ⟨hne, hctl'⟩ := not_or.1 (List.mem_cons.not.1 hctl)
    rw [trim, if_neg (Ne.symm hne), List.forall_mem_cons, List.map_cons, List.sum_cons]
    split_ifs with hfits
    · rw [queues_trim_of_notMem hp, trim_keeps_iff _ hps hctl']
      constructor
      · rintro ⟨-, hsum⟩
        omega
      · intro hsum
        exact ⟨rfl, by omega⟩
    · rw [queues_trim_of_notMem hp, queues_dropQueue_self]
      constructor
      · rintro ⟨hnil, -⟩
        exact absurd hnil.symm (queues_ne_of_lt (not_le.1 hfits))
      · intro hsum
        omega

/-- A queue that is empty or past the budget by itself is below any split. -/
theorem splitsAtBudget_cons_of_below {p : Priority} {ps : List Priority} {budget : ℕ}
    (h : s.queues p = [] ∨ budget < s.queueBytes p) :
    s.SplitsAtBudget budget (p :: ps) ↔ s.SplitsAtBudget budget ps := by
  constructor
  · rintro ⟨below, above, heq, hbelow, habove⟩
    cases below with
    | nil =>
      rw [List.nil_append] at heq
      rw [← heq, List.map_cons, List.sum_cons] at habove
      exact ⟨[], ps, rfl, by simp, by omega⟩
    | cons q below =>
      obtain ⟨rfl, rfl⟩ := List.cons_eq_cons.1 heq
      exact ⟨below, above, rfl, fun r hr => hbelow r (List.mem_cons_of_mem _ hr), habove⟩
  · rintro ⟨below, above, rfl, hbelow, habove⟩
    exact ⟨p :: below, above, rfl, List.forall_mem_cons.2 ⟨h, hbelow⟩, habove⟩

/-- Above a queue that is kept and not empty nothing may be dropped. -/
theorem splitsAtBudget_cons_of_kept {p : Priority} {ps : List Priority} {budget : ℕ}
    (hfits : s.queueBytes p ≤ budget) (h : s.queues p ≠ []) :
    s.SplitsAtBudget budget (p :: ps) ↔ ((p :: ps).map s.queueBytes).sum ≤ budget := by
  constructor
  · rintro ⟨below, above, heq, hbelow, habove⟩
    cases below with
    | nil =>
      rw [List.nil_append] at heq
      rwa [heq]
    | cons q below =>
      obtain ⟨rfl, rfl⟩ := List.cons_eq_cons.1 heq
      rcases hbelow _ List.mem_cons_self with hnil | hlt
      · exact absurd hnil h
      · omega
  · exact fun hsum => ⟨[], p :: ps, rfl, by simp, hsum⟩

theorem splitsAtBudget_dropQueue {p : Priority} {ps : List Priority} {budget : ℕ} (hp : p ∉ ps) :
    (s.dropQueue p).SplitsAtBudget budget ps ↔ s.SplitsAtBudget budget ps := by
  have hne : ∀ q ∈ ps, q ≠ p := by
    rintro q hq rfl
    exact hp hq
  refine exists_congr fun below => exists_congr fun above => and_congr_right ?_
  rintro rfl
  obtain ⟨hbelow, habove⟩ := not_or.1 (List.mem_append.not.1 hp)
  rw [map_queueBytes_dropQueue habove]
  refine and_congr_left fun _ => forall₂_congr fun q hq => ?_
  have hq' := hne q (List.mem_append_left _ hq)
  rw [queues_dropQueue_of_ne hq', queueBytes_dropQueue_of_ne hq']

/-- In the list `ps`, where a queue changed those before it are empty. -/
def EmptyBelow (s s' : Scheduler α) (ps : List Priority) : Prop :=
  ps.Pairwise fun q p => s'.queues p ≠ s.queues p → s'.queues q = []

theorem emptyBelow_cons_of_nil {s' : Scheduler α} {p : Priority} {ps : List Priority}
    (h : s'.queues p = []) : s.EmptyBelow s' (p :: ps) ↔ s.EmptyBelow s' ps := by
  unfold EmptyBelow
  rw [List.pairwise_cons]
  exact and_iff_right fun _ _ _ => h

theorem emptyBelow_dropQueue {s' : Scheduler α} {p : Priority} {ps : List Priority} (hp : p ∉ ps) :
    (s.dropQueue p).EmptyBelow s' ps ↔ s.EmptyBelow s' ps := by
  refine List.Pairwise.iff_of_mem fun {q r} _ hr => ?_
  rw [queues_dropQueue_of_ne]
  rintro rfl
  exact hp hr

theorem emptyBelow_trim : ∀ {ps : List Priority} {s : Scheduler α} {budget : ℕ}, ps.Nodup →
    Priority.control ∉ ps →
    (s.EmptyBelow (s.trim ps budget) ps ↔ s.SplitsAtBudget budget ps)
  | [], s, budget, _, _ => ⟨fun _ => ⟨[], [], rfl, by simp, by simp⟩, fun _ => List.Pairwise.nil⟩
  | p :: ps, s, budget, hnd, hctl => by
    obtain ⟨hp, hps⟩ := List.nodup_cons.1 hnd
    obtain ⟨hne, hctl'⟩ := not_or.1 (List.mem_cons.not.1 hctl)
    rw [trim, if_neg (Ne.symm hne)]
    split_ifs with hfits
    · by_cases hnil : s.queues p = []
      · -- an empty queue costs nothing
        rw [queueBytes_of_nil hnil, Nat.sub_zero, splitsAtBudget_cons_of_below (.inl hnil),
          ← emptyBelow_trim hps hctl']
        exact emptyBelow_cons_of_nil ((queues_trim_of_notMem hp).trans hnil)
      · rw [splitsAtBudget_cons_of_kept hfits hnil, List.map_cons, List.sum_cons]
        have hkeeps := trim_keeps_iff (s := s) (budget - s.queueBytes p) hps hctl'
        unfold EmptyBelow
        rw [List.pairwise_cons, queues_trim_of_notMem hp]
        constructor
        · rintro ⟨hall, -⟩
          have := hkeeps.1 fun q hq => by
            by_contra hchanged
            exact hnil (hall q hq hchanged)
          omega
        · intro hsum
          have hsame := hkeeps.2 (by omega)
          exact ⟨fun q hq hchanged => absurd (hsame q hq) hchanged,
            List.pairwise_of_forall_mem_list fun _ _ q hq hchanged => absurd (hsame q hq) hchanged⟩
    · rw [splitsAtBudget_cons_of_below (.inr (not_le.1 hfits)),
        emptyBelow_cons_of_nil ((queues_trim_of_notMem hp).trans (queues_dropQueue_self p)),
        ← emptyBelow_dropQueue hp, emptyBelow_trim hps hctl', splitsAtBudget_dropQueue hp]

theorem dropsLowestFirst_iff_emptyBelow {s' : Scheduler α}
    (hctl : s'.queues .control = s.queues .control) :
    s.DropsLowestFirst s' ↔ s.EmptyBelow s' Priority.nonControl.reverse := by
  constructor
  · intro h
    have hranks : Priority.nonControl.reverse.Pairwise fun q p => p.rank < q.rank := by decide
    exact hranks.imp fun {q p} hlt hchanged => h.1 p hchanged q hlt
  · intro h
    refine ⟨fun p hchanged q hlt => ?_, hctl⟩
    simp only [EmptyBelow, Priority.nonControl, List.reverse_cons, List.reverse_nil, List.nil_append,
      List.cons_append, List.pairwise_cons, List.mem_cons, List.not_mem_nil, or_false,
      forall_eq_or_imp, forall_eq] at h
    cases p <;> cases q <;> simp_all [Priority.rank]

/-- The control queue comes last in the walk and is passed over. -/
theorem trim_append_control : ∀ {ps : List Priority} {s : Scheduler α} {budget : ℕ},
    s.trim (ps ++ [.control]) budget = s.trim ps budget
  | [], _, _ => rfl
  | p :: ps, s, budget => by
    rw [List.cons_append, trim, trim, trim_append_control, trim_append_control, trim_append_control]

theorem queues_foldl_dropQueue : ∀ {ps : List Priority} {s : Scheduler α} {q : Priority},
    (ps.foldl dropQueue s).queues q = if q ∈ ps then [] else s.queues q
  | [], _, _ => by simp
  | p :: ps, s, q => by
    rw [List.foldl_cons, queues_foldl_dropQueue]
    by_cases hq : q = p
    · simp [hq]
    · simp [queues_dropQueue_of_ne hq, hq]

/-- A sender pause takes every queue below control. -/
theorem splitsAtBudget_zero (s : Scheduler α) (ps : List Priority) : s.SplitsAtBudget 0 ps := by
  by_cases havg : s.config.avgPacketSizeBytes = 0
  · have hzero : ∀ p ∈ ps, s.queueBytes p = 0 := by simp [queueBytes, havg]
    exact ⟨[], ps, rfl, by simp, (List.sum_eq_zero (by simpa using hzero)).le⟩
  · refine ⟨ps, [], by simp, fun p _ => ?_, by simp⟩
    have hpos : 0 < s.config.avgPacketSizeBytes.toNat :=
      Nat.pos_of_ne_zero fun h => havg (UInt32.toNat_inj.1 h)
    rcases Nat.eq_zero_or_pos (s.queues p).length with hnil | hlen
    · exact .inl (List.length_eq_zero_iff.1 hnil)
    · exact .inr (Nat.mul_pos hlen hpos)

/-- `on_bwe_update` drops the lowest priorities first exactly when, from the lowest priority up,
each queue that is not empty is past the budget by itself until the rest fit it together. -/
theorem dropsLowestFirst_iff (s : Scheduler α) (targetBps : UInt32) :
    s.DropsLowestFirst (s.onBweUpdate targetBps)
      ↔ s.SplitsAtBudget (budgetBytes targetBps) Priority.nonControl.reverse := by
  unfold onBweUpdate
  split_ifs with hzero hfits
  · subst hzero
    refine iff_of_true ⟨fun p _ q hlt => ?_, ?_⟩ (s.splitsAtBudget_zero _)
    · rw [queues_foldl_dropQueue, if_pos]
      cases q <;> simp_all [Priority.rank, Priority.nonControl]
    · rw [queues_foldl_dropQueue, if_neg (by decide)]
      rfl
  · refine iff_of_true ⟨fun p hchanged => absurd rfl hchanged, rfl⟩ 
      ⟨[], Priority.nonControl.reverse, rfl, by simp, ?_⟩
    rwa [List.map_reverse, List.sum_reverse]
  · have hwalk : Priority.all.reverse = Priority.nonControl.reverse ++ [.control] := rfl
    rw [hwalk, trim_append_control]
    have hctl : ((s.retarget targetBps).trim Priority.nonControl.reverse
        (budgetBytes targetBps)).queues .control = s.queues .control :=
      queues_trim_of_notMem (by decide)
    rw [dropsLowestFirst_iff_emptyBelow hctl]
    exact emptyBelow_trim (s := s.retarget targetBps) (by decide) (by decide)

/-- Five best-effort packets fit the budget of 600 kbit/s; the ten video packets above them do not
and are dropped. -/
theorem video_dropped_first :
    let s : Scheduler (List UInt8) := (SchedulerRun.run {} (List.replicate 5
      (.enqueue .bestEffort [1] []) ++ List.replicate 10 (.enqueue .video [2] []))).sched
    ((s.onBweUpdate 600000).queues .video).length = 0
      ∧ ((s.onBweUpdate 600000).queues .bestEffort).length = 5
      ∧ ¬ s.DropsLowestFirst (s.onBweUpdate 600000) := by
  intro s
  have hvideo : ((s.onBweUpdate 600000).queues .video).length = 0 := by decide +kernel
  have hbest : ((s.onBweUpdate 600000).queues .bestEffort).length = 5 := by decide +kernel
  refine ⟨hvideo, hbest, fun h => ?_⟩
  have hchanged : (s.onBweUpdate 600000).queues .video ≠ s.queues .video := by decide +kernel
  rw [h.1 .video hchanged .bestEffort (by decide)] at hbest
  cases hbest

/-! ## Overflow -/

/-- The eviction takes the front of the first queue of the walk that is not empty. -/
theorem evict_cases : ∀ (ps : List Priority) (s : Scheduler α),
    (s.evict ps = (s, []) ∧ ∀ p ∈ ps, s.queues p = [])
      ∨ ∃ before p after r q, ps = before ++ p :: after ∧ (∀ p' ∈ before, s.queues p' = [])
        ∧ s.queues p = r :: q
        ∧ s.evict ps = ({ s with
          queues := Function.update s.queues p q
          droppedTotal := s.droppedTotal + 1 }, [.evicted p r])
  | [], s => .inl ⟨rfl, by simp⟩
  | p :: ps, s => by
    cases hp : s.queues p with
    | cons r q =>
      refine .inr ⟨[], p, ps, r, q, rfl, by simp, hp, ?_⟩
      simp [evict, hp]
    | nil =>
      have hevict : s.evict (p :: ps) = s.evict ps := by simp [evict, hp]
      rcases evict_cases ps s with ⟨heq, hall⟩ | ⟨before, p', after, r, q, rfl, hall, hp', heq⟩
      · exact .inl ⟨hevict.trans heq, List.forall_mem_cons.2 ⟨hp, hall⟩⟩
      · exact .inr ⟨p :: before, p', after, r, q, rfl, List.forall_mem_cons.2 ⟨hp, hall⟩, hp',
          hevict.trans heq⟩

@[simp] theorem queues_rememberDst (dst : Addr) : (s.rememberDst dst).queues = s.queues := by
  unfold rememberDst
  split_ifs <;> rfl

theorem full_rememberDst (dst : Addr) : (s.rememberDst dst).Full ↔ s.Full := by
  unfold rememberDst
  split_ifs <;> exact Iff.rfl

/-- What is discarded for a packet: nothing while there is room, else what the eviction takes, and
the packet itself if there is still no room. -/
theorem enqueueLocked_cases (s : Scheduler α) (p : Priority) (data : α) (dst : Addr) :
    (¬ s.Full ∧ s.enqueueLocked p data dst = ((s.rememberDst dst).push p data, []))
      ∨ s.Full ∧ ∃ e out, (s.rememberDst dst).evict Priority.all.reverse = (e, out)
        ∧ (e.Full ∧ s.enqueueLocked p data dst
              = ({ e with droppedTotal := e.droppedTotal + 1 }, out ++ [.refused])
          ∨ ¬ e.Full ∧ s.enqueueLocked p data dst = (e.push p data, out)) := by
  by_cases hfull : s.Full
  · refine .inr ⟨hfull, _, _, rfl, ?_⟩
    have hfull' : (s.rememberDst dst).config.maxQueueDepth ≤ (s.rememberDst dst).totalQueued :=
      (full_rememberDst dst).2 hfull
    simp only [enqueueLocked, if_pos hfull']
    split_ifs with hstill
    · exact .inl ⟨hstill, rfl⟩
    · exact .inr ⟨hstill, rfl⟩
  · refine .inl ⟨hfull, ?_⟩
    have hroom : ¬ (s.rememberDst dst).config.maxQueueDepth ≤ (s.rememberDst dst).totalQueued :=
      (full_rememberDst dst).not.2 hfull
    simp only [enqueueLocked, if_neg hroom]

theorem mem_all (p : Priority) : p ∈ Priority.all := by cases p <;> decide

theorem waiting_eq_nil_iff : s.waiting = [] ↔ ∀ p, s.queues p = [] := by
  simp only [waiting, inOrder, List.flatMap_eq_nil_iff]
  exact ⟨fun h p => h p (mem_all p), fun h p _ => h p⟩

/-- A full scheduler that may hold a packet holds one. -/
theorem exists_of_full (hdepth : 1 ≤ s.config.maxQueueDepth) (hfull : s.Full) :
    ∃ p, s.queues p ≠ [] := by
  by_contra hnone
  simp only [not_exists, not_not] at hnone
  have hle : s.config.maxQueueDepth ≤ 0 := by
    simpa [Full, totalQueued, waiting_eq_nil_iff.2 hnone] using hfull
  rw [UInt32.le_iff_toNat_le] at hdepth hle
  simp at hdepth hle
  omega

/-- The queue that the eviction takes from is the lowest that is not empty. -/
theorem rank_le_of_evicted {before after : List Priority} {q₀ : Priority}
    (hwalk : Priority.all.reverse = before ++ q₀ :: after) (hbefore : ∀ q ∈ before, s.queues q = [])
    {q : Priority} (hq : s.queues q ≠ []) : q.rank ≤ q₀.rank := by
  have hranks : Priority.all.reverse.Pairwise fun q p => p.rank < q.rank := by decide
  have hmem : q ∈ Priority.all.reverse := List.mem_reverse.2 (mem_all q)
  rw [hwalk] at hranks hmem
  rcases List.mem_append.1 hmem with hmem | hmem
  · exact absurd (hbefore q hmem) hq
  · rcases List.mem_cons.1 hmem with rfl | hmem
    · exact le_rfl
    · have htail := (List.pairwise_append.1 hranks).2.1
      exact ((List.pairwise_cons.1 htail).1 q hmem).le

/-- `enqueue_locked` spares what is more important exactly when, at an overflow, some packet that is
not is waiting. -/
theorem sparesImportant_iff (s : Scheduler α) (hdepth : 1 ≤ s.config.maxQueueDepth) (p : Priority)
    (data : α) (dst : Addr) : s.SparesImportant p (s.enqueueLocked p data dst).2
      ↔ (s.Full → s.Evictable p) := by
  rcases s.enqueueLocked_cases p data dst with ⟨hroom, heq⟩ | ⟨hfull, e, out, hevict, hcase⟩
  · rw [heq]
    exact iff_of_true ⟨by simp, fun hfull => absurd hfull hroom⟩ fun hfull => absurd hfull hroom
  rcases evict_cases Priority.all.reverse (s.rememberDst dst) with
    ⟨-, hnone⟩ | ⟨before, q₀, after, r₀, q, hwalk, hbefore, hq₀, heq⟩
  · obtain ⟨p', hp'⟩ := exists_of_full hdepth hfull
    have := hnone p' (List.mem_reverse.2 (mem_all p'))
    rw [queues_rememberDst] at this
    exact absurd this hp'
  obtain rfl : out = [.evicted q₀ r₀] := (Prod.mk.inj (hevict.symm.trans heq)).2
  rw [queues_rememberDst] at hq₀
  simp only [queues_rememberDst] at hbefore
  -- whether the packet is refused on top or not, one packet is evicted
  have hout : ∀ q' r', .evicted q' r' ∈ (s.enqueueLocked p data dst).2 ↔ q' = q₀ ∧ r' = r₀ := by
    intro q' r'
    rcases hcase with ⟨-, hcase⟩ | ⟨-, hcase⟩ <;> simp [hcase]
  constructor
  · intro h _
    exact ⟨q₀, by simp [hq₀], h.1 q₀ r₀ ((hout q₀ r₀).2 ⟨rfl, rfl⟩)⟩
  · intro h
    obtain ⟨q₁, hq₁, hctl, hrank⟩ := h hfull
    have hle := rank_le_of_evicted hwalk hbefore hq₁
    refine ⟨fun q' r' hmem => ?_, fun _ hnot => absurd ⟨q₁, hq₁, hctl, hrank⟩ hnot⟩
    obtain ⟨rfl, -⟩ := (hout q' r').1 hmem
    refine ⟨?_, hrank.trans hle⟩
    rintro rfl
    cases q₁ <;> simp_all [Priority.rank]

/-- A scheduler for one packet, that holds one of priority `p`. -/
def holdsOne (p : Priority) : Scheduler (List UInt8) :=
  (SchedulerRun.run { maxQueueDepth := 1 } [.enqueue p [1] []]).sched

theorem sparesImportant_video : (holdsOne .video).Full
    ∧ (holdsOne .video).SparesImportant .audio ((holdsOne .video).enqueueLocked .audio [2] []).2 := by
  refine ⟨by decide, (sparesImportant_iff _ (by decide) _ _ _).2 fun _ => ?_⟩
  exact ⟨.video, by decide, by decide, by decide⟩

/-- A control packet is evicted for a best-effort one. -/
theorem control_evicted :
    (∃ r, ((holdsOne .control).enqueueLocked .bestEffort [2] []).2 = [.evicted .control r])
      ∧ ¬ (holdsOne .control).SparesImportant .bestEffort
        ((holdsOne .control).enqueueLocked .bestEffort [2] []).2 := by
  have hevicted : ((holdsOne .control).enqueueLocked .bestEffort [2] []).2
      = [.evicted .control { priority := .control, ownedData := [1], dstAddr := [] }] := by
    decide
  rw [hevicted]
  refine ⟨⟨_, rfl⟩, fun h => ?_⟩
  exact (h.1 .control _ List.mem_cons_self).1 rfl

/-! ## Every packet is accounted for -/

/-- Of `n` packets queued each has been sent or dropped or waits, and no more wait than may. -/
def Accounts (s : Scheduler α) (n : ℕ) : Prop :=
  (∃ sent dropped, s.sentTotal = UInt32.ofNat sent ∧ s.droppedTotal = UInt32.ofNat dropped
      ∧ n = sent + dropped + s.waiting.length)
    ∧ s.waiting.length ≤ s.config.maxQueueDepth.toNat

theorem full_iff (h : s.waiting.length ≤ s.config.maxQueueDepth.toNat) :
    s.Full ↔ s.config.maxQueueDepth.toNat ≤ s.waiting.length := by
  have hlt : s.waiting.length < UInt32.size := lt_of_le_of_lt h s.config.maxQueueDepth.toNat_lt_size
  rw [Full, totalQueued, UInt32.le_iff_toNat_le, UInt32.toNat_ofNat_of_lt' hlt]

theorem length_waiting_push (p : Priority) (data : α) :
    (s.push p data).waiting.length = s.waiting.length + 1 := by
  have h := length_inOrder_update (q := s.queues) nodup_all (mem_all p)
    (s.queues p ++ [{ priority := p, ownedData := data, dstAddr := s.lastDstAddr }])
  rw [List.length_append, List.length_singleton] at h
  simp only [push, waiting]
  omega

theorem accounts_push {n : ℕ} (h : s.Accounts n) (hroom : ¬ s.Full) (p : Priority) (data : α) :
    (s.push p data).Accounts (n + 1) := by
  obtain ⟨⟨sent, dropped, hsent, hdropped, rfl⟩, hle⟩ := h
  rw [full_iff hle] at hroom
  refine ⟨⟨sent, dropped, hsent, hdropped, ?_⟩, ?_⟩
  · rw [length_waiting_push]
    omega
  · rw [length_waiting_push]
    exact not_le.1 hroom

theorem accounts_evict {n : ℕ} (h : s.Accounts n) (ps : List Priority) :
    (s.evict ps).1.Accounts n := by
  rcases evict_cases ps s with ⟨heq, -⟩ | ⟨-, p, -, r, q, -, -, hp, heq⟩
  · rw [heq]
    exact h
  · rw [heq]
    obtain ⟨⟨sent, dropped, hsent, hdropped, rfl⟩, hle⟩ := h
    have hlen := length_inOrder_update (q := s.queues) nodup_all (mem_all p) q
    rw [hp, List.length_cons] at hlen
    refine ⟨⟨sent, dropped + 1, hsent, by simp [hdropped], ?_⟩, ?_⟩
    · simp only [waiting]
      omega
    · simp only [waiting] at hle ⊢
      omega

theorem accounts_enqueueLocked {n : ℕ} (h : s.Accounts n) (p : Priority) (data : α) (dst : Addr) :
    (s.enqueueLocked p data dst).1.Accounts (n + 1) := by
  have h' : (s.rememberDst dst).Accounts n := by
    unfold rememberDst
    split_ifs <;> exact h
  rcases s.enqueueLocked_cases p data dst with ⟨hroom, heq⟩ | ⟨-, e, out, hevict, hcase⟩
  · rw [heq]
    exact accounts_push h' ((full_rememberDst dst).not.2 hroom) p data
  have he : e.Accounts n := by
    have := accounts_evict h' Priority.all.reverse
    rwa [hevict] at this
  rcases hcase with ⟨-, heq⟩ | ⟨hroom, heq⟩ <;> rw [heq]
  · obtain ⟨⟨sent, dropped, hsent, hdropped, rfl⟩, hle⟩ := he
    exact ⟨⟨sent, dropped + 1, hsent, by simp [hdropped], by simp only [waiting]; omega⟩, hle⟩
  · exact accounts_push he hroom p data

theorem accounts_dropQueue {n : ℕ} (h : s.Accounts n) (p : Priority) :
    (s.dropQueue p).Accounts n := by
  obtain ⟨⟨sent, dropped, hsent, hdropped, rfl⟩, hle⟩ := h
  have hlen := length_inOrder_update (q := s.queues) nodup_all (mem_all p) []
  rw [List.length_nil, Nat.add_zero] at hlen
  refine ⟨⟨sent, dropped + (s.queues p).length, hsent, ?_, ?_⟩, ?_⟩
  · simp [dropQueue, hdropped]
  · simp only [dropQueue, waiting]
    omega
  · simp only [dropQueue, waiting] at hle ⊢
    omega

theorem accounts_trim : ∀ {ps : List Priority} {s : Scheduler α} {budget n : ℕ}, s.Accounts n →
    (s.trim ps budget).Accounts n
  | [], _, _, _, h => h
  | p :: ps, s, budget, n, h => by
    rw [trim]
    split_ifs
    · exact accounts_trim h
    · exact accounts_trim h
    · exact accounts_trim (accounts_dropQueue h p)

theorem accounts_foldl_dropQueue : ∀ (ps : List Priority) {s : Scheduler α} {n : ℕ}, s.Accounts n →
    (ps.foldl dropQueue s).Accounts n
  | [], _, _, h => h
  | p :: ps, _, _, h => accounts_foldl_dropQueue ps (accounts_dropQueue h p)

theorem accounts_onBweUpdate {n : ℕ} (h : s.Accounts n) (targetBps : UInt32) :
    (s.onBweUpdate targetBps).Accounts n := by
  have hretarget : (s.retarget targetBps).Accounts n := h
  unfold onBweUpdate
  split_ifs
  · exact accounts_foldl_dropQueue _ hretarget
  · exact hretarget
  · exact accounts_trim hretarget

theorem accounts_drainWith {n : ℕ} (h : s.Accounts n) (maxPackets : ℤ)
    {cb : Option (DrainCallback α)} (hcb : ∀ offers r, answer cb offers r = true) :
    (s.drainWith maxPackets cb).1.Accounts n := by
  obtain ⟨⟨sent, dropped, hsent, hdropped, rfl⟩, hle⟩ := h
  have hacc : AcceptsFrom cb (s.drainLimit maxPackets) s.waiting s.drainStart :=
    fun _ _ _ _ => hcb _ _
  unfold Accounts
  rw [waiting_drainWith hacc, drainWith_accepted hacc, List.length_drop]
  refine ⟨⟨sent + (s.waiting.take (s.drainLimit maxPackets)).length, dropped, ?_, hdropped, ?_⟩, ?_⟩
  · simp only [drained, Drain.advance, drainStart, hsent, UInt32.ofNat_add]
  · rw [List.length_take]
    omega
  · exact (Nat.sub_le _ _).trans hle

/-- What the calls on the queues leave as it is. -/
structure Frame (s s' : Scheduler α) : Prop where
  config : s'.config = s.config
  streamPriority : s'.streamPriority = s.streamPriority
  streamBuckets : s'.streamBuckets = s.streamBuckets

theorem Frame.trans {s' s'' : Scheduler α} (h : s.Frame s') (h' : s'.Frame s'') : s.Frame s'' :=
  ⟨h'.config.trans h.config, h'.streamPriority.trans h.streamPriority,
    h'.streamBuckets.trans h.streamBuckets⟩

theorem frame_rememberDst (dst : Addr) : s.Frame (s.rememberDst dst) := by
  unfold rememberDst
  split_ifs <;> exact ⟨rfl, rfl, rfl⟩

theorem frame_evict (ps : List Priority) : s.Frame (s.evict ps).1 := by
  rcases evict_cases ps s with ⟨heq, -⟩ | ⟨-, p, -, r, q, -, -, -, heq⟩ <;> rw [heq] <;>
    exact ⟨rfl, rfl, rfl⟩

theorem frame_enqueueLocked (p : Priority) (data : α) (dst : Addr) :
    s.Frame (s.enqueueLocked p data dst).1 := by
  have hdst := frame_rememberDst (s := s) dst
  rcases s.enqueueLocked_cases p data dst with ⟨-, heq⟩ | ⟨-, e, out, hevict, hcase⟩
  · rw [heq]
    exact hdst.trans ⟨rfl, rfl, rfl⟩
  have he : s.Frame e := by
    have := hdst.trans (frame_evict Priority.all.reverse)
    rwa [hevict] at this
  rcases hcase with ⟨-, heq⟩ | ⟨-, heq⟩ <;> rw [heq] <;> exact he.trans ⟨rfl, rfl, rfl⟩

theorem frame_trim : ∀ {ps : List Priority} {s : Scheduler α} {budget : ℕ},
    s.Frame (s.trim ps budget)
  | [], _, _ => ⟨rfl, rfl, rfl⟩
  | p :: ps, s, budget => by
    rw [trim]
    split_ifs
    · exact frame_trim
    · exact frame_trim
    · have hdrop : s.Frame (s.dropQueue p) := ⟨rfl, rfl, rfl⟩
      exact hdrop.trans frame_trim

theorem frame_onBweUpdate (targetBps : UInt32) : s.Frame (s.onBweUpdate targetBps) := by
  have hretarget : s.Frame (s.retarget targetBps) := ⟨rfl, rfl, rfl⟩
  unfold onBweUpdate
  split_ifs
  · exact ⟨rfl, rfl, rfl⟩
  · exact hretarget
  · exact hretarget.trans frame_trim

theorem frame_drainWith {maxPackets : ℤ} {cb : Option (DrainCallback α)} :
    s.Frame (s.drainWith maxPackets cb).1 := by
  rw [drainWith_eq]
  exact ⟨rfl, rfl, rfl⟩

end Scheduler

namespace SchedulerRun

open Scheduler

variable {α : Type*} {r : SchedulerRun α}

theorem answer_of_accepts {cb : DrainCallback α} (h : ∀ history p data, cb history p data = true)
    (offers : List (PacketRecord α × Bool)) (r : PacketRecord α) :
    answer (some cb) offers r = true := h _ _ _

theorem accounts_step (h : r.sched.Accounts r.enqueued) :
    ∀ c : SchedulerCall α, c.Accepts → (r.step c).sched.Accounts (r.step c).enqueued
  | .enqueue p data dst, _ => accounts_enqueueLocked h p data dst
  | .enqueueOwned p data dst, _ => accounts_enqueueLocked h p data dst
  | .drain maxPackets, _ => accounts_drainWith h maxPackets fun _ _ => rfl
  | .drainWith maxPackets _, hcb => accounts_drainWith h maxPackets (answer_of_accepts hcb)
  | .onBweUpdate targetBps, _ => accounts_onBweUpdate h targetBps
  | .reset, _ => ⟨⟨0, 0, rfl, rfl, rfl⟩, Nat.zero_le _⟩
  | .setStreamPriority streamId level, _ => by
    unfold step setStreamPriority
    simp only
    split_ifs <;> exact h
  | .enqueueForStream _ _ _, _ => h
  | .enqueueForStreamOwned _ _ _, _ => h
  | .selectNextPacket maxPackets cb, _ => by
    unfold step selectNextPacket
    simp only
    split_ifs <;> exact h

theorem config_step (r : SchedulerRun α) :
    ∀ c : SchedulerCall α, (r.step c).sched.config = r.sched.config
  | .enqueue p data dst => (frame_enqueueLocked p data dst).config
  | .enqueueOwned p data dst => (frame_enqueueLocked p data dst).config
  | .drain _ => frame_drainWith.config
  | .drainWith _ _ => frame_drainWith.config
  | .onBweUpdate targetBps => (frame_onBweUpdate targetBps).config
  | .reset => rfl
  | .setStreamPriority streamId level => by
    unfold step setStreamPriority
    simp only
    split_ifs <;> rfl
  | .enqueueForStream _ _ _ => rfl
  | .enqueueForStreamOwned _ _ _ => rfl
  | .selectNextPacket maxPackets cb => by
    unfold step selectNextPacket
    simp only
    split_ifs <;> rfl

/-- While every callback accepts, each packet queued since the construction or the last `reset` has
been sent or dropped or waits, and no more wait than the scheduler's configuration allows. -/
theorem packets_conserved (config : SchedulerConfig) (calls : List (SchedulerCall α))
    (haccepts : ∀ c ∈ calls, c.Accepts) :
    let r := run config calls
    (r.enqueued < 2 ^ 32 → r.enqueued = r.sched.stats.sentPackets.toNat
        + r.sched.stats.droppedPackets.toNat + r.sched.stats.queuedPackets.toNat)
      ∧ r.sched.stats.queuedPackets ≤ r.sched.config.maxQueueDepth
      ∧ r.sched.config = if config.avgPacketSizeBytes = 0 then {} else config := by
  intro r
  have hinit : (fresh (α := α) config).sched.Accounts (fresh (α := α) config).enqueued :=
    ⟨⟨0, 0, rfl, rfl, rfl⟩, Nat.zero_le _⟩
  have hrun := Machine.exec_keeps (M := machine)
    (I := fun r : SchedulerRun α => r.sched.Accounts r.enqueued
      ∧ r.sched.config = (Scheduler.create (α := α) config).config)
    (fun r c h hc => ⟨accounts_step h.1 c hc, (config_step r c).trans h.2⟩)
    calls ⟨hinit, rfl⟩ (Machine.meets_of_forall_mem haccepts)
  obtain ⟨⟨⟨sent, dropped, hsent, hdropped, hsum⟩, hle⟩, hconfig⟩ := hrun
  have hqueued : r.sched.stats.queuedPackets.toNat = r.sched.waiting.length :=
    UInt32.toNat_ofNat_of_lt' (lt_of_le_of_lt hle r.sched.config.maxQueueDepth.toNat_lt_size)
  refine ⟨fun hlt => ?_, ?_, hconfig⟩
  · have hsize : UInt32.size = 2 ^ 32 := rfl
    change r.enqueued = sent + dropped + r.sched.waiting.length at hsum
    rw [hqueued, show r.sched.stats.sentPackets = UInt32.ofNat sent from hsent,
      show r.sched.stats.droppedPackets = UInt32.ofNat dropped from hdropped,
      UInt32.toNat_ofNat_of_lt' (by omega), UInt32.toNat_ofNat_of_lt' (by omega)]
    exact hsum
  · rw [UInt32.le_iff_toNat_le, hqueued]
    exact hle

/-- Three packets for a scheduler that holds two, one of them drained. -/
theorem packets_conserved_three :
    (run (α := List UInt8) { maxQueueDepth := 2 } [.enqueue .video [1] [], .enqueue .audio [2] [],
        .enqueueOwned .audio [3] [], .drainWith 1 fun _ _ _ => true]).enqueued = 3
      ∧ (run (α := List UInt8) { maxQueueDepth := 2 } [.enqueue .video [1] [], .enqueue .audio [2] [],
        .enqueueOwned .audio [3] [], .drainWith 1 fun _ _ _ => true]).sched.stats.queuedPackets ≤ 2 := by
  refine ⟨by decide, (packets_conserved _ _ ?_).2.1⟩
  simp [SchedulerCall.Accepts]

end SchedulerRun

end NimRtc
