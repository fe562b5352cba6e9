import NimRtc.Proofs.SchedulerDrops

/-!
# A higher target does not send less

What a target keeps of the queues grows with it, and so does what a drain may send, but for one
place: a target below one average packet a second allows zero packets for each drain, which stands
for no limit. It keeps the control packets only, and these and all that is queued later are sent at
once.
-/

namespace NimRtc

open ClassQueues

namespace Scheduler

variable {α : Type*} {s : Scheduler α}

/-- The scheduler once the packets `later` are queued. -/
def enqueueAll (s : Scheduler α) (later : List (Priority × α × Addr)) : Scheduler α :=
  later.foldl (fun s pkt => (s.enqueue pkt.1 pkt.2.1 pkt.2.2).1) s

/-- How many packets a drain sends after `on_bwe_update`, with `later` queued in between. -/
def sentAfter (s : Scheduler α) (targetBps : UInt32) (later : List (Priority × α × Addr))
    (maxPackets : ℤ) : ℕ :=
  (((s.onBweUpdate targetBps).enqueueAll later).drain maxPackets).2.sent

/-- The bits of one average packet. -/
def packetBits (s : Scheduler α) : ℕ := s.config.avgPacketSizeBytes.toNat * 8

def BelowOnePacket (s : Scheduler α) (targetBps : UInt32) : Prop :=
  targetBps.toNat < s.packetBits ∨ targetBps = 0

/-- After a target, and packets below control queued since, every drain sends all that waits, up to
the number it is asked for. -/
def Unlimited (s : Scheduler α) (targetBps : UInt32) : Prop :=
  ∀ later : List (Priority × α × Addr), (∀ pkt ∈ later, pkt.1 ≠ .control) → ∀ maxPackets : ℤ,
    s.sentAfter targetBps later maxPackets
      = min maxPackets.toNat ((s.onBweUpdate targetBps).enqueueAll later).waiting.length

/-- A lower target does not send more than a higher one, and one below a packet a second, or none at
all, does not take the limit away. -/
structure BudgetMonotone (s : Scheduler α) (b b' : UInt32) : Prop where
  mono : ∀ later maxPackets, s.sentAfter b later maxPackets ≤ s.sentAfter b' later maxPackets
  limited : s.BelowOnePacket b → ¬ s.Unlimited b

/-! ### What waits -/

theorem accounts_of_bounded (h : s.waiting.length ≤ s.config.maxQueueDepth.toNat) :
    s.Accounts (s.sentTotal.toNat + s.droppedTotal.toNat + s.waiting.length) :=
  ⟨⟨_, _, UInt32.ofNat_toNat.symm, UInt32.ofNat_toNat.symm, rfl⟩, h⟩

theorem length_evict (hne : s.waiting ≠ []) :
    (s.evict Priority.all.reverse).1.waiting.length + 1 = s.waiting.length := by
  rcases evict_cases Priority.all.reverse s with ⟨-, hall⟩ | ⟨-, p, -, r, q, -, -, hp, heq⟩
  · refine absurd (waiting_eq_nil_iff.2 fun p => hall p ?_) hne
    rw [List.mem_reverse]
    exact mem_all p
  · rw [heq]
    have hlen := length_inOrder_update (q := s.queues) nodup_all (mem_all p) q
    rw [hp, List.length_cons] at hlen
    simp only [waiting]
    omega

/-- One more packet waits, as far as there is room. -/
theorem length_enqueue (h : s.waiting.length ≤ s.config.maxQueueDepth.toNat) (p : Priority)
    (data : α) (dst : Addr) :
    (s.enqueue p data dst).1.waiting.length
      = min (s.waiting.length + 1) s.config.maxQueueDepth.toNat := by
  have hdst : (s.rememberDst dst).waiting = s.waiting := by rw [waiting, queues_rememberDst]; rfl
  rw [enqueue]
  rcases s.enqueueLocked_cases p data dst with ⟨hroom, heq⟩ | ⟨hfull, e, out, hevict, hcase⟩
  · rw [full_iff h] at hroom
    rw [heq, length_waiting_push, hdst]
    omega
  · rw [full_iff h] at hfull
    have hconfig : e.config = s.config := by
      have hframe := (frame_rememberDst (s := s) dst).trans (frame_evict Priority.all.reverse)
      rw [hevict] at hframe
      exact hframe.config
    by_cases hnil : s.waiting = []
    · -- no packet may wait
      have hzero : s.config.maxQueueDepth.toNat = 0 := by simpa [hnil] using hfull
      have hle : (s.enqueueLocked p data dst).1.waiting.length ≤ 0 := by
        have hbound := (accounts_enqueueLocked (accounts_of_bounded h) p data dst).2
        rwa [(frame_enqueueLocked p data dst).config, hzero] at hbound
      omega
    · have hlen : e.waiting.length + 1 = s.waiting.length := by
        have hevicted := length_evict (s := s.rememberDst dst) (by rwa [hdst])
        rwa [hevict, hdst] at hevicted
      have hroom : ¬ e.Full := by
        rw [full_iff (by rw [hconfig]; omega), hconfig]
        omega
      rcases hcase with ⟨hstill, -⟩ | ⟨-, heq⟩
      · exact absurd hstill hroom
      · rw [heq, length_waiting_push]
        omega

theorem allowedPerDrain_evict : ∀ (ps : List Priority) (s : Scheduler α),
    (s.evict ps).1.allowedPerDrain = s.allowedPerDrain
  | ps, s => by
    rcases evict_cases ps s with ⟨heq, -⟩ | ⟨-, p, -, r, q, -, -, -, heq⟩
    · rw [heq]
    · rw [heq]

theorem allowedPerDrain_enqueue (s : Scheduler α) (p : Priority) (data : α) (dst : Addr) :
    (s.enqueue p data dst).1.allowedPerDrain = s.allowedPerDrain := by
  have hdst : (s.rememberDst dst).allowedPerDrain = s.allowedPerDrain := by
    unfold rememberDst
    split_ifs <;> rfl
  rw [enqueue]
  rcases s.enqueueLocked_cases p data dst with ⟨-, heq⟩ | ⟨-, e, out, hevict, hcase⟩
  · rw [heq]
    exact hdst
  · have he := allowedPerDrain_evict Priority.all.reverse (s.rememberDst dst)
    rw [hevict, hdst] at he
    rcases hcase with ⟨-, heq⟩ | ⟨-, heq⟩ <;> rw [heq] <;> exact he

theorem enqueueAll_spec : ∀ (later : List (Priority × α × Addr)) {s : Scheduler α},
    s.waiting.length ≤ s.config.maxQueueDepth.toNat →
      (s.enqueueAll later).waiting.length
          = min (s.waiting.length + later.length) s.config.maxQueueDepth.toNat
        ∧ (s.enqueueAll later).allowedPerDrain = s.allowedPerDrain
  | [], s, h => ⟨by simpa [enqueueAll] using h, rfl⟩
  | (p, data, dst) :: later, s, h => by
    have hconfig : (s.enqueue p data dst).1.config = s.config := (frame_enqueueLocked p data dst).config
    have hlen := length_enqueue h p data dst
    obtain ⟨hrest, hallowed⟩ := enqueueAll_spec later (s := (s.enqueue p data dst).1)
      (by rw [hlen, hconfig]; exact min_le_right _ _)
    refine ⟨?_, hallowed.trans (allowedPerDrain_enqueue s p data dst)⟩
    rw [hconfig] at hrest
    rw [enqueueAll, List.foldl_cons]
    rw [enqueueAll] at hrest
    rw [hrest, hlen, List.length_cons]
    omega

theorem sent_drain (s : Scheduler α) (maxPackets : ℤ) :
    (s.drain maxPackets).2.sent = min (s.drainLimit maxPackets) s.waiting.length := by
  rw [drain, drainWith_accepted fun _ _ _ _ => rfl]
  simp [drained, drainStart]

/-! ### What a target keeps -/

/-- How many packets of queues of the given lengths a budget keeps, from the first one on. -/
def keptCount (avg : ℕ) : List ℕ → ℕ → ℕ
  | [], _ => 0
  | n :: ns, budget =>
    if n * avg ≤ budget then n + keptCount avg ns (budget - n * avg) else keptCount avg ns budget

theorem keptCount_mul_le (avg : ℕ) : ∀ (ns : List ℕ) (budget : ℕ),
    keptCount avg ns budget * avg ≤ budget
  | [], _ => by simp [keptCount]
  | n :: ns, budget => by
    rw [keptCount]
    split_ifs with hfits
    · have hrest := keptCount_mul_le avg ns (budget - n * avg)
      rw [Nat.add_mul]
      omega
    · exact keptCount_mul_le avg ns budget

/-- A higher budget keeps at least as many packets: a queue that only it keeps has more packets than
fit the lower one. -/
theorem keptCount_mono (avg : ℕ) : ∀ (ns : List ℕ) {budget budget' : ℕ}, budget ≤ budget' →
    keptCount avg ns budget ≤ keptCount avg ns budget'
  | [], _, _, _ => le_rfl
  | n :: ns, budget, budget', hle => by
    rw [keptCount, keptCount]
    split_ifs with hfits hfits' hfits'
    · have hrest : keptCount avg ns (budget - n * avg) ≤ keptCount avg ns (budget' - n * avg) :=
        keptCount_mono avg ns (by omega)
      omega
    · exact absurd (hfits.trans hle) hfits'
    · have hlt : keptCount avg ns budget * avg < n * avg :=
        lt_of_le_of_lt (keptCount_mul_le avg ns budget) (not_le.1 hfits)
      have := Nat.lt_of_mul_lt_mul_right hlt
      omega
    · exact keptCount_mono avg ns hle

theorem keptCount_all (avg : ℕ) : ∀ (ns : List ℕ) {budget : ℕ}, (ns.map (· * avg)).sum ≤ budget →
    keptCount avg ns budget = ns.sum
  | [], _, _ => rfl
  | n :: ns, budget, h => by
    rw [List.map_cons, List.sum_cons] at h
    rw [keptCount, if_pos (by omega), keptCount_all avg ns (by omega), List.sum_cons]

def queueLength (s : Scheduler α) (p : Priority) : ℕ := (s.queues p).length

theorem length_trim : ∀ {ps : List Priority} {s : Scheduler α} {budget : ℕ}, ps.Nodup →
    Priority.control ∉ ps → (ps.map (s.trim ps budget).queueLength).sum
      = keptCount s.config.avgPacketSizeBytes.toNat (ps.map s.queueLength) budget
  | [], _, _, _, _ => rfl
  | p :: ps, s, budget, hnd, hctl => by
    obtain ⟨hp, hps⟩ := List.nodup_cons.1 hnd
    obtain ⟨hne, hctl'⟩ := not_or.1 (List.mem_cons.not.1 hctl)
    rw [trim, if_neg (Ne.symm hne), List.map_cons, List.sum_cons, List.map_cons, keptCount]
    by_cases hfits : s.queueBytes p ≤ budget
    · have hfits' : s.queueLength p * s.config.avgPacketSizeBytes.toNat ≤ budget := hfits
      rw [if_pos hfits, if_pos hfits', queueLength, queues_trim_of_notMem hp]
      congr 1
      exact length_trim hps hctl'
    · have hfits' : ¬ s.queueLength p * s.config.avgPacketSizeBytes.toNat ≤ budget := hfits
      rw [if_neg hfits, if_neg hfits', queueLength, queues_trim_of_notMem hp, queues_dropQueue_self,
        List.length_nil, Nat.zero_add]
      have hrest : (ps.map ((s.dropQueue p).trim ps budget).queueLength).sum
          = keptCount (s.dropQueue p).config.avgPacketSizeBytes.toNat
            (ps.map (s.dropQueue p).queueLength) budget := length_trim hps hctl'
      have hsame : ps.map (s.dropQueue p).queueLength = ps.map s.queueLength := by
        refine List.map_congr_left fun q hq => ?_
        rw [queueLength, queues_dropQueue_of_ne (by rintro rfl; exact hp hq)]
        rfl
      rw [hsame] at hrest
      exact hrest

theorem length_waiting (s : Scheduler α) :
    s.waiting.length
      = s.queueLength .control + (Priority.nonControl.reverse.map s.queueLength).sum := by
  simp only [waiting, inOrder, Priority.all, Priority.nonControl, queueLength, List.flatMap_cons,
    List.flatMap_nil, List.length_append, List.length_nil, List.reverse_cons, List.reverse_nil,
    List.nil_append, List.cons_append, List.map_cons, List.map_nil, List.sum_cons, List.sum_nil]
  omega

/-- How many packets below control a target keeps. -/
def keptBy (s : Scheduler α) (targetBps : UInt32) : ℕ :=
  if targetBps = 0 then 0
  else keptCount s.config.avgPacketSizeBytes.toNat (Priority.nonControl.reverse.map s.queueLength)
    (budgetBytes targetBps)

theorem length_onBweUpdate (s : Scheduler α) (targetBps : UInt32) :
    (s.onBweUpdate targetBps).waiting.length = s.queueLength .control + s.keptBy targetBps := by
  rw [length_waiting, onBweUpdate, keptBy]
  split_ifs with hzero hfits
  · have hqueue : ∀ p, (Priority.nonControl.foldl dropQueue (s.retarget targetBps)).queueLength p
        = if p ∈ Priority.nonControl then 0 else s.queueLength p := by
      intro p
      rw [queueLength, queues_foldl_dropQueue]
      split_ifs <;> rfl
    simp only [hqueue]
    rfl
  · rw [keptCount_all]
    · rfl
    · rw [totalNoncontrolBytes] at hfits
      rw [List.map_map, List.map_reverse, List.sum_reverse]
      exact hfits
  · have hwalk : Priority.all.reverse = Priority.nonControl.reverse ++ [.control] := rfl
    rw [hwalk, trim_append_control, length_trim (by decide) (by decide)]
    congr 1
    rw [queueLength, queues_trim_of_notMem (by decide)]
    rfl

theorem budgetBytes_mono {b b' : UInt32} (h : b ≤ b') : budgetBytes b ≤ budgetBytes b' := by
  have hle := UInt32.le_iff_toNat_le.1 h
  exact Nat.div_le_div_right (Nat.div_le_div_right hle)

theorem keptBy_mono (s : Scheduler α) {b b' : UInt32} (h : b ≤ b') : s.keptBy b ≤ s.keptBy b' := by
  rw [keptBy, keptBy]
  split_ifs with hzero hzero'
  · exact le_rfl
  · exact Nat.zero_le _
  · rename_i hzero'
    subst hzero'
    exact absurd (UInt32.le_antisymm h (UInt32.zero_le)) hzero
  · exact keptCount_mono _ _ (budgetBytes_mono h)

/-- A target below one packet a second keeps no packet below control. -/
theorem keptBy_low {b : UInt32} (h : b.toNat < s.packetBits) : s.keptBy b = 0 := by
  rw [keptBy]
  split_ifs
  · rfl
  · have hle := keptCount_mul_le s.config.avgPacketSizeBytes.toNat
      (Priority.nonControl.reverse.map s.queueLength) (budgetBytes b)
    have hbudget : budgetBytes b < s.config.avgPacketSizeBytes.toNat := by
      rw [packetBits] at h
      rw [budgetBytes, kDrainsPerSecond]
      omega
    by_contra hne
    have := Nat.le_mul_of_pos_left s.config.avgPacketSizeBytes.toNat (Nat.pos_of_ne_zero hne)
    omega

/-! ### What a drain may send -/

theorem allowedPerDrain_trim : ∀ (ps : List Priority) (s : Scheduler α) (budget : ℕ),
    (s.trim ps budget).allowedPerDrain = s.allowedPerDrain
  | [], _, _ => rfl
  | p :: ps, s, budget => by
    rw [trim]
    split_ifs
    · exact allowedPerDrain_trim ps s _
    · exact allowedPerDrain_trim ps s _
    · exact allowedPerDrain_trim ps (s.dropQueue p) _

theorem allowedPerDrain_foldl : ∀ (ps : List Priority) (s : Scheduler α),
    (ps.foldl dropQueue s).allowedPerDrain = s.allowedPerDrain
  | [], _ => rfl
  | p :: ps, s => allowedPerDrain_foldl ps (s.dropQueue p)

theorem allowedPerDrain_onBweUpdate (s : Scheduler α) (b : UInt32) :
    (s.onBweUpdate b).allowedPerDrain = bitsToPacketsPerSecond b s.config.avgPacketSizeBytes := by
  rw [onBweUpdate]
  split_ifs
  · rw [allowedPerDrain_foldl]
    rfl
  · rfl
  · rw [allowedPerDrain_trim]
    rfl

theorem bitsToPacketsPerSecond_toNat (s : Scheduler α) (b : UInt32) :
    (bitsToPacketsPerSecond b s.config.avgPacketSizeBytes).toNat = b.toNat / s.packetBits := by
  rw [bitsToPacketsPerSecond]
  split_ifs with hzero
  · rcases hzero with rfl | hzero
    · simp
    · simp [packetBits, hzero]
  · have hle : b.toNat / (s.config.avgPacketSizeBytes.toNat * 8) ≤ b.toNat := Nat.div_le_self _ _
    have hlt := b.toNat_lt
    have hsize : UInt32.size = 2 ^ 32 := rfl
    simp only []
    rw [UInt32.toNat_ofNat_of_lt' (by omega), packetBits]
    omega

/-- How many packets are sent: without a limit below one packet a second. -/
theorem sentAfter_eq (h : s.waiting.length ≤ s.config.maxQueueDepth.toNat) (b : UInt32)
    (later : List (Priority × α × Addr)) (maxPackets : ℤ) :
    s.sentAfter b later maxPackets
      = min (if 0 < b.toNat / s.packetBits then min maxPackets.toNat (b.toNat / s.packetBits)
          else maxPackets.toNat)
        (min (s.queueLength .control + s.keptBy b + later.length) s.config.maxQueueDepth.toNat) := by
  have hbound := (accounts_onBweUpdate (accounts_of_bounded h) b).2
  obtain ⟨hlen, hallowed⟩ := enqueueAll_spec later hbound
  rw [allowedPerDrain_onBweUpdate] at hallowed
  rw [(frame_onBweUpdate b).config, length_onBweUpdate] at hlen
  have hpos : 0 < bitsToPacketsPerSecond b s.config.avgPacketSizeBytes
      ↔ 0 < b.toNat / s.packetBits := by
    rw [UInt32.lt_iff_toNat_lt, bitsToPacketsPerSecond_toNat]
    rfl
  rw [sentAfter, sent_drain, hlen, drainLimit, hallowed, bitsToPacketsPerSecond_toNat]
  simp only [hpos]

theorem sentAfter_le_iff (h : s.waiting.length ≤ s.config.maxQueueDepth.toNat) {b b' : UInt32}
    (hle : b ≤ b') (later : List (Priority × α × Addr)) (maxPackets : ℤ) :
    s.sentAfter b later maxPackets ≤ s.sentAfter b' later maxPackets
      ↔ s.packetBits ≤ b.toNat ∨ b'.toNat < s.packetBits
        ∨ min maxPackets.toNat
            (min (s.queueLength .control + later.length) s.config.maxQueueDepth.toNat)
          ≤ b'.toNat / s.packetBits := by
  have hnat := UInt32.le_iff_toNat_le.1 hle
  have hkept := s.keptBy_mono hle
  have hdiv : b.toNat / s.packetBits ≤ b'.toNat / s.packetBits := Nat.div_le_div_right hnat
  rw [sentAfter_eq h, sentAfter_eq h]
  by_cases hhigh : s.packetBits ≤ b.toNat
  · refine iff_of_true ?_ (.inl hhigh)
    by_cases hbits : s.packetBits = 0
    · simp only [hbits, Nat.div_zero, lt_irrefl, if_false]
      omega
    · have hpos : 0 < b.toNat / s.packetBits := Nat.div_pos hhigh (Nat.pos_of_ne_zero hbits)
      rw [if_pos hpos, if_pos (lt_of_lt_of_le hpos hdiv)]
      omega
  · have hlow := not_le.1 hhigh
    rw [keptBy_low hlow, Nat.div_eq_of_lt hlow, if_neg (lt_irrefl 0)]
    by_cases hlow' : b'.toNat < s.packetBits
    · refine iff_of_true ?_ (.inr (.inl hlow'))
      rw [Nat.div_eq_of_lt hlow', if_neg (lt_irrefl 0)]
      omega
    · have hpos : 0 < b'.toNat / s.packetBits :=
        Nat.div_pos (not_lt.1 hlow') (by omega)
      rw [if_pos hpos]
      constructor
      · intro hmono
        refine .inr (.inr ?_)
        omega
      · rintro (hno | hno | hroom)
        · exact absurd hno hhigh
        · exact absurd hno hlow'
        · omega

/-- Such a target allows zero packets for each drain, which is read as no limit. -/
theorem unlimited_of_below (h : s.waiting.length ≤ s.config.maxQueueDepth.toNat) {b : UInt32}
    (hbelow : s.BelowOnePacket b) : s.Unlimited b := by
  intro later _ maxPackets
  have hdiv : b.toNat / s.packetBits = 0 := by
    rcases hbelow with hlow | rfl
    · exact Nat.div_eq_of_lt hlow
    · exact Nat.zero_div _
  obtain ⟨hlen, -⟩ := enqueueAll_spec later (accounts_onBweUpdate (accounts_of_bounded h) b).2
  rw [sentAfter_eq h, hdiv, if_neg (lt_irrefl 0), hlen, (frame_onBweUpdate b).config,
    length_onBweUpdate]

theorem budgetMonotone_iff (h : s.waiting.length ≤ s.config.maxQueueDepth.toNat) {b b' : UInt32}
    (hle : b ≤ b') : s.BudgetMonotone b b' ↔ s.packetBits ≤ b.toNat ∧ b ≠ 0 := by
  have hcondition : s.packetBits ≤ b.toNat ∧ b ≠ 0 ↔ ¬ s.BelowOnePacket b := by
    rw [BelowOnePacket, not_or, not_lt]
  rw [hcondition]
  constructor
  · intro hmono hbelow
    exact hmono.limited hbelow (unlimited_of_below h hbelow)
  · intro habove
    exact ⟨fun later maxPackets => (sentAfter_le_iff h hle later maxPackets).2
      (.inl (hcondition.2 habove).1), fun hbelow => absurd hbelow habove⟩

theorem length_drainWith (s : Scheduler α) (maxPackets : ℤ) (cb : Option (DrainCallback α)) :
    (s.drainWith maxPackets cb).1.waiting.length ≤ s.waiting.length := by
  have hlen := length_drainEach s.config.avgPacketSizeBytes cb (s.stops_iff maxPackets) nodup_all
    s.queues s.drainStart
  rw [drainWith_eq]
  simp only [drained, waiting, drainQueue]
  simp only [drainStart, List.length_nil] at hlen ⊢
  omega

end Scheduler

namespace SchedulerRun

open Scheduler

variable {α : Type*}

def Bounded (r : SchedulerRun α) : Prop :=
  r.sched.waiting.length ≤ r.sched.config.maxQueueDepth.toNat

theorem bounded_step {r : SchedulerRun α} (h : r.Bounded) :
    ∀ c : SchedulerCall α, (r.step c).Bounded
  | .enqueue p data dst => (accounts_enqueueLocked (accounts_of_bounded h) p data dst).2
  | .enqueueOwned p data dst => (accounts_enqueueLocked (accounts_of_bounded h) p data dst).2
  | .drain maxPackets => by
    have hlen := r.sched.length_drainWith maxPackets none
    rw [Bounded, config_step]
    exact hlen.trans h
  | .drainWith maxPackets cb => by
    have hlen := r.sched.length_drainWith maxPackets (some cb)
    rw [Bounded, config_step]
    exact hlen.trans h
  | .onBweUpdate targetBps => (accounts_onBweUpdate (accounts_of_bounded h) targetBps).2
  | .reset => Nat.zero_le _
  | .setStreamPriority streamId level => by
    unfold step setStreamPriority
    simp only
    split_ifs <;> exact h
  | .enqueueForStream _ _ _ => h
  | .enqueueForStreamOwned _ _ _ => h
  | .selectNextPacket maxPackets cb => by
    unfold step selectNextPacket
    simp only
    split_ifs <;> exact h

theorem bounded_run (config : SchedulerConfig) (calls : List (SchedulerCall α)) :
    (run config calls).Bounded :=
  Machine.exec_preserves (M := machine) (I := SchedulerRun.Bounded) (fun _ c h => bounded_step h c)
    calls (Nat.zero_le _)

/-- In every state, the budget is monotone and never lifted exactly from one packet a second on. One
drain alone sends at least as many packets for the higher target exactly when the lower one is no
less than one packet a second, or the higher one is less, or it allows all that the drain can send of
the control packets and those that were queued since. -/
theorem budget_monotone_iff (config : SchedulerConfig) (calls : List (SchedulerCall α))
    {b b' : UInt32} (hle : b ≤ b') (later : List (Priority × α × Addr)) (maxPackets : ℤ) :
    let s := (run config calls).sched
    (s.BudgetMonotone b b' ↔ s.packetBits ≤ b.toNat ∧ b ≠ 0)
      ∧ (s.sentAfter b later maxPackets ≤ s.sentAfter b' later maxPackets
        ↔ s.packetBits ≤ b.toNat ∨ b'.toNat < s.packetBits
          ∨ min maxPackets.toNat
              (min (s.queueLength .control + later.length) s.config.maxQueueDepth.toNat)
            ≤ b'.toNat / s.packetBits) :=
  ⟨budgetMonotone_iff (bounded_run config calls) hle,
    sentAfter_le_iff (bounded_run config calls) hle later maxPackets⟩

/-- From 9600 to 19200 bits a second, one packet more of three is sent. -/
theorem budget_monotone_twice :
    let s := (run (α := List UInt8) {} []).sched
    let later : List (Priority × List UInt8 × Addr) := List.replicate 3 (.video, [1], [])
    s.sentAfter 9600 later 10 = 1 ∧ s.sentAfter 19200 later 10 = 2 ∧ s.BudgetMonotone 9600 19200 :=
  ⟨by decide, by decide,
    (budget_monotone_iff {} [] (by decide) [] 10).1.2 ⟨by decide, by decide⟩⟩

/-- With no bitrate at all three video packets that are queued later are sent at once, and with 9600
bits a second one. -/
theorem pause_sends_all :
    ¬ ∀ (config : SchedulerConfig) (calls : List (SchedulerCall (List UInt8))) (b b' : UInt32),
      b ≤ b' → (run config calls).sched.BudgetMonotone b b' := by
  intro h
  have hless := (h {} [] 0 9600 (by decide)).mono (List.replicate 3 (.video, [1], [])) 10
  exact absurd hless (by decide)

end SchedulerRun

end NimRtc
