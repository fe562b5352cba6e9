import NimRtc.Lib.Loop
import NimRtc.Proofs.FrameShift

/-!
# The cap on in-flight frames

Each round of `enforce_inflight_cap` erases a frame that was not handed out, an incomplete one if
there is one, so the loop ends with room for what comes, or with nothing left to erase. With a cap of
at least one both leave room for the frame that `insert` makes it for.
-/

namespace NimRtc.VideoJitterBuffer

/-- A round of the loop. -/
def capRound (incoming cap : ℕ) (s : VideoJitterBuffer) : VideoJitterBuffer ⊕ VideoJitterBuffer :=
  if s.buckets.countP (fun b => !b.emitted) + incoming ≤ cap then .inr s
  else
    match s.victim with
    | none => .inr s
    | some v => .inl (s.evict v)

variable {s s' r : VideoJitterBuffer} {incoming cap : ℕ}

theorem live_length (s : VideoJitterBuffer) :
    s.live.length = s.buckets.countP fun b => !b.emitted :=
  List.countP_eq_length_filter.symm

/-! ### The victim -/

/-- A complete frame is only chosen if there is no other. -/
theorem victim_spec {v : FrameBucket} (h : s.victim = some v) :
    v ∈ s.live ∧ (v.complete = true → ∀ b ∈ s.live, b.complete = true) := by
  rw [victim_eq] at h
  rcases hfind : s.live.find? fun b => !b.complete with _ | b
  · rw [hfind, Option.none_or] at h
    refine ⟨List.mem_of_mem_head? h, fun _ b hb => ?_⟩
    simpa using List.find?_eq_none.1 hfind b hb
  · rw [hfind, Option.some_or] at h
    obtain rfl := Option.some.inj h
    refine ⟨List.mem_of_find?_eq_some hfind, fun hcomplete => ?_⟩
    have hincomplete := List.find?_some hfind
    simp [hcomplete] at hincomplete

theorem live_of_victim_none (h : s.victim = none) : s.live = [] := by
  rw [victim_eq, Option.or_eq_none_iff] at h
  exact List.head?_eq_none_iff.1 h.2

/-! ### The loop -/

theorem capRound_next (h : capRound incoming cap s = .inl s') :
    ∃ v ∈ s.live, s' = s.evict v ∧ (v.complete = true → ∀ b ∈ s.live, b.complete = true) := by
  rw [capRound] at h
  split_ifs at h
  rcases hvictim : s.victim with _ | v
  · rw [hvictim] at h
    cases h
  · rw [hvictim] at h
    obtain ⟨hlive, hcomplete⟩ := victim_spec hvictim
    exact ⟨v, hlive, (Sum.inl.inj h).symm, hcomplete⟩

theorem capRound_last (h : capRound incoming cap s = .inr r) :
    r = s ∧ (s.live.length + incoming ≤ cap ∨ s.live = []) := by
  rw [capRound] at h
  split_ifs at h with hroom
  · rw [← live_length] at hroom
    exact ⟨(Sum.inr.inj h).symm, .inl hroom⟩
  · rcases hvictim : s.victim with _ | v
    · rw [hvictim] at h
      exact ⟨(Sum.inr.inj h).symm, .inr (live_of_victim_none hvictim)⟩
    · rw [hvictim] at h
      cases h

theorem length_evict_lt {v : FrameBucket} (h : v ∈ s.buckets) :
    (s.evict v).buckets.length < s.buckets.length :=
  List.length_filter_lt_length_iff_exists.2 ⟨v, h, by simp⟩

/-- The loop ends after as many rounds as there are buckets, or before. -/
theorem ends_evictRounds (incoming cap : ℕ) : ∀ (fuel : ℕ) (s : VideoJitterBuffer),
    s.buckets.length ≤ fuel →
      Loop.Ends (capRound incoming cap) s (evictRounds incoming cap fuel s)
  | 0, s, hfuel => by
    have hempty : s.buckets = [] := List.eq_nil_of_length_eq_zero (Nat.le_zero.1 hfuel)
    have hvictim : s.victim = none := by simp [victim, hempty]
    refine .here ?_
    rw [capRound, hvictim, evictRounds]
    exact ite_self _
  | fuel + 1, s, hfuel => by
    rw [evictRounds]
    split_ifs with hroom
    · exact .here (by rw [capRound, if_pos hroom])
    · rcases hvictim : s.victim with _ | v
      · exact .here (by rw [capRound, if_neg hroom, hvictim])
      · have hlt := length_evict_lt (mem_live.1 (victim_spec hvictim).1).1
        have hrest := ends_evictRounds incoming cap fuel (s.evict v) (by omega)
        exact .next (by rw [capRound, if_neg hroom, hvictim]) hrest

theorem ends_enforceInflightCap (s : VideoJitterBuffer) (incoming : ℕ) :
    Loop.Ends (capRound incoming s.effectiveInflightCap) s (s.enforceInflightCap incoming) :=
  ends_evictRounds _ _ _ s (le_refl _)

theorem enforceInflightCap_spec (s : VideoJitterBuffer) (incoming : ℕ) :
    ((s.enforceInflightCap incoming).live.length + incoming ≤ s.effectiveInflightCap
        ∨ (s.enforceInflightCap incoming).live = [])
      ∧ (s.enforceInflightCap incoming).cfg = s.cfg
      ∧ (s.Sorted → (s.enforceInflightCap incoming).Sorted) := by
  have hkeeps : ∀ t t', (t.cfg = s.cfg ∧ (s.Sorted → t.Sorted)) →
      capRound incoming s.effectiveInflightCap t = .inl t' →
      t'.cfg = s.cfg ∧ (s.Sorted → t'.Sorted) := by
    rintro t t' ⟨hcfg, hsorted⟩ hround
    obtain ⟨v, -, rfl, -⟩ := capRound_next hround
    exact ⟨hcfg, fun hs => (hsorted hs).sublist List.filter_sublist⟩
  obtain ⟨t, ⟨hcfg, hsorted⟩, hlast⟩ :=
    (ends_enforceInflightCap s incoming).inv hkeeps ⟨rfl, id⟩
  obtain ⟨hr, hroom⟩ := capRound_last hlast
  rw [hr]
  exact ⟨hroom, hcfg, hsorted⟩

/-! ### What the calls keep -/

/-- At most `n` frames are not handed out, which is what the configuration says. -/
structure Capped (n : ℕ) (s : VideoJitterBuffer) : Prop where
  fixed : s.cfg.adaptive = false
  cap : s.cfg.maxInflightFrames = n
  sorted : s.Sorted
  count : s.live.length ≤ n

variable {n : ℕ}

/-- There is room after the loop, as there is if no frame is left. -/
theorem room_of_enforced (hfixed : s.cfg.adaptive = false) (hcap : s.cfg.maxInflightFrames = n)
    (hincoming : incoming ≤ n) : (s.enforceInflightCap incoming).live.length + incoming ≤ n := by
  obtain ⟨hroom | hempty, -, -⟩ := s.enforceInflightCap_spec incoming
  · rwa [effectiveInflightCap_of_fixed hfixed, hcap] at hroom
  · rw [hempty, List.length_nil, Nat.zero_add]
    exact hincoming

theorem Capped.addBucket (hsorted : s.Sorted) (b : FrameBucket) (hroom : s.live.length + 1 ≤ n)
    (hkey : ∀ c ∈ s.buckets, c.rtpTimestamp ≠ b.rtpTimestamp) (hfixed : s.cfg.adaptive = false)
    (hcap : s.cfg.maxInflightFrames = n) :
    Capped n
      { s with buckets := s.buckets.orderedInsert (fun a b => a.rtpTimestamp ≤ b.rtpTimestamp) b } := by
  refine ⟨hfixed, hcap, pairwise_orderedInsert hsorted hkey, ?_⟩
  rw [live_length] at hroom ⊢
  have hperm := List.perm_orderedInsert
    (fun a b : FrameBucket => a.rtpTimestamp ≤ b.rtpTimestamp) b s.buckets
  rw [hperm.countP_eq, List.countP_cons]
  split <;> omega

/-- A bucket that takes the place of another one is not handed out later than it. -/
theorem Capped.setBucket (h : Capped n s) {b c : FrameBucket} (hc : c ∈ s.buckets)
    (hkey : b.rtpTimestamp = c.rtpTimestamp) (hemitted : c.emitted = true → b.emitted = true) :
    Capped n (s.setBucket b) := by
  refine ⟨h.fixed, h.cap, sorted_setBucket h.sorted b, ?_⟩
  have hcount := h.count
  rw [live_length] at hcount ⊢
  refine le_trans ?_ hcount
  show List.countP _ (List.map _ _) ≤ _
  rw [List.countP_map]
  refine List.countP_mono_left fun d hd hlive => ?_
  simp only [Function.comp_apply] at hlive
  split_ifs at hlive with hts
  · -- the keys are distinct, so it is the bucket that is replaced
    have hfind := h.sorted.findBucket hd
    rw [hts, hkey, h.sorted.findBucket hc] at hfind
    obtain rfl := Option.some.inj hfind
    cases hd' : c.emitted
    · rfl
    · rw [hemitted hd'] at hlive
      cases hlive
  · exact hlive

theorem Capped.findOrCreateBucket (h : Capped n s) (hn : 1 ≤ n) (pkt : InboundPacket) :
    Capped n (s.findOrCreateBucket pkt).1 := by
  rcases hfind : s.findBucket pkt.rtpTimestamp with _ | b
  · obtain ⟨-, hcfg, hsorted⟩ := s.enforceInflightCap_spec 1
    have hroom := room_of_enforced h.fixed h.cap hn
    have hkey : ∀ c ∈ (s.enforceInflightCap 1).buckets,
        c.rtpTimestamp ≠ (FrameBucket.create pkt).rtpTimestamp := fun c hc =>
      findBucket_none_iff.1 hfind c ((s.enforceInflightCap_frame 1).1.subset hc)
    obtain ⟨hfixed, hcap, hadd, hcount⟩ := Capped.addBucket (hsorted h.sorted)
      (FrameBucket.create pkt) hroom hkey (hcfg ▸ h.fixed) (hcfg ▸ h.cap)
    simp only [VideoJitterBuffer.findOrCreateBucket, hfind]
    exact ⟨hfixed, hcap, hadd, hcount⟩
  · simp only [VideoJitterBuffer.findOrCreateBucket, hfind]
    exact h

theorem Capped.insert (h : Capped n s) (hn : 1 ≤ n) (pkt : InboundPacket) :
    Capped n (s.insert pkt).1 := by
  by_cases hpkt : pkt.Accepted
  · rw [insert_of_accepted hpkt]
    have hcounted : Capped n
        { s with stats := { s.stats with packetsInserted := s.stats.packetsInserted + 1 } } :=
      ⟨h.fixed, h.cap, h.sorted, h.count⟩
    have hfound := hcounted.findOrCreateBucket hn pkt
    have hmem := findOrCreateBucket_mem
      { s with stats := { s.stats with packetsInserted := s.stats.packetsInserted + 1 } } pkt
    generalize VideoJitterBuffer.findOrCreateBucket _ pkt = found at hfound hmem ⊢
    have hnoted : Capped n
        { found.1 with
          stats :=
            { found.1.stats with
              packetsReordered :=
                found.1.stats.packetsReordered + if found.2.advances pkt then 0 else 1 } } :=
      ⟨hfound.fixed, hfound.cap, hfound.sorted, hfound.count⟩
    exact hnoted.setBucket hmem (FrameBucket.receive_rtpTimestamp _ _)
      fun hemitted => (FrameBucket.receive_emitted _ _).trans hemitted
  · rw [insert_of_rejected hpkt]
    exact h

theorem Capped.popReady (h : Capped n s) (gateUs target : ℤ) :
    Capped n (s.popReady gateUs target).1 := by
  rcases hpending : s.pendingIncomplete with _ | ⟨out, rest⟩
  · rw [popReady_of_nextReady hpending]
    rcases hready : s.nextReady gateUs target with _ | b
    · exact h
    · have hcounted : Capped n
          { s with
            stats := { s.stats with framesEmitted := s.stats.framesEmitted + 1 }
            frameSeqCounter := s.frameSeqCounter + 1 } :=
        ⟨h.fixed, h.cap, h.sorted, h.count⟩
      exact hcounted.setBucket (b := b.handedOut) (nextReady_spec hready).1 rfl fun _ => rfl
  · rw [popReady_of_pending hpending]
    exact ⟨h.fixed, h.cap, h.sorted, h.count⟩

theorem Capped.tick (h : Capped n s) (nowUs : ℤ) : Capped n (s.tick nowUs) := by
  have hswept : (s.swept nowUs).cfg = s.cfg := foldl_tickBucket_cfg nowUs _ _
  obtain ⟨-, hcfg, hsorted⟩ := (s.swept nowUs).enforceInflightCap_spec 0
  have hroom := room_of_enforced (hswept ▸ h.fixed) (hswept ▸ h.cap) (Nat.zero_le n)
  have hcfg' : (s.tick nowUs).cfg = s.cfg := hcfg.trans hswept
  exact ⟨hcfg' ▸ h.fixed, hcfg' ▸ h.cap, hsorted (h.sorted.swept nowUs), hroom⟩

theorem Capped.popNackEntries (h : Capped n s) : Capped n s.popNackEntries.1 := by
  rw [VideoJitterBuffer.popNackEntries]
  split
  · exact h
  · refine ⟨h.fixed, h.cap, sorted_map_sortSeqs h.sorted, ?_⟩
    have hcount := h.count
    rw [live_length] at hcount ⊢
    rw [List.countP_map]
    refine le_trans (List.countP_mono_left fun b _ hlive => ?_) hcount
    rwa [Function.comp_apply, (sortSeqs_live b).2] at hlive

theorem Capped.step (h : Capped n s) (hn : 1 ≤ n) (call : JitterCall) :
    Capped n (s.step call).1 := by
  cases call with
  | insert pkt => exact h.insert hn pkt
  | popFrame => exact h.popReady (-1) 0
  | popFrameAt nowUs target => exact h.popReady nowUs target
  | popNackEntries => exact h.popNackEntries
  | tick nowUs => exact h.tick nowUs
  | reset => exact ⟨h.fixed, h.cap, List.Pairwise.nil, Nat.zero_le n⟩

/-! ### The frame that is inserted -/

theorem inserted_mem (s : VideoJitterBuffer) {pkt : InboundPacket} (hpkt : pkt.Accepted) :
    ∃ b ∈ (s.insert pkt).1.buckets, b.rtpTimestamp = pkt.rtpTimestamp ∧ pkt ∈ b.packets := by
  rw [insert_of_accepted hpkt]
  obtain ⟨hfound, -, -⟩ := findOrCreateBucket_spec
    { s with stats := { s.stats with packetsInserted := s.stats.packetsInserted + 1 } } pkt
  have hmem := findOrCreateBucket_mem
    { s with stats := { s.stats with packetsInserted := s.stats.packetsInserted + 1 } } pkt
  generalize VideoJitterBuffer.findOrCreateBucket _ pkt = found at hfound hmem ⊢
  have hkey : found.2.rtpTimestamp = pkt.rtpTimestamp := by
    rcases hfound with hfind | ⟨-, hnew⟩
    · simpa using List.find?_some hfind
    · rw [hnew]
      rfl
  refine ⟨found.2.receive pkt, List.mem_map.2 ⟨found.2, hmem, if_pos ?_⟩, ?_, ?_⟩
  · exact (FrameBucket.receive_rtpTimestamp _ _).symm
  · rw [FrameBucket.receive_rtpTimestamp, hkey]
  · rw [FrameBucket.receive_packets]
    exact List.mem_append_right _ List.mem_cons_self

theorem mem_of_evictedRounds (incoming cap : ℕ) : ∀ (fuel : ℕ) {s : VideoJitterBuffer}
    {v : FrameBucket}, v ∈ evictedRounds incoming cap fuel s → v ∈ s.buckets
  | 0, _, _, h => by cases h
  | fuel + 1, s, v, h => by
    rw [evictedRounds] at h
    split_ifs at h
    · cases h
    · rcases hvictim : s.victim with _ | w
      · rw [hvictim] at h
        cases h
      · rw [hvictim] at h
        rcases List.mem_cons.1 h with rfl | h
        · exact (mem_live.1 (victim_spec hvictim).1).1
        · exact (List.mem_filter.1 (mem_of_evictedRounds incoming cap fuel h)).1

/-- The frames that make room for a packet are not its own. -/
theorem evicted_ne_inserted {pkt : InboundPacket} {v : FrameBucket}
    (hv : v ∈ s.evicted (.insert pkt)) : v.rtpTimestamp ≠ pkt.rtpTimestamp := by
  rw [evicted] at hv
  split_ifs at hv with hnew
  · exact findBucket_none_iff.1 hnew.2 v (mem_of_evictedRounds _ _ _ hv)
  · cases hv

/-- In fixed-window mode no more frames than the cap are waiting. The frame of an inserted packet is
in the buffer and not among those that were evicted, a complete frame is only evicted if no other
one is waiting, and the loop that evicts ends. -/
theorem inflight_capped (cfg : JitterConfig) (hfixed : cfg.adaptive = false)
    (hcap : 1 ≤ cfg.maxInflightFrames) (calls : List JitterCall) :
    machine.Always (fun s => s.live.length ≤ cfg.maxInflightFrames) (create cfg) calls
      ∧ (∀ (s : VideoJitterBuffer) (pkt : InboundPacket), pkt.Accepted →
        (∃ b ∈ (s.insert pkt).1.buckets, b.rtpTimestamp = pkt.rtpTimestamp ∧ pkt ∈ b.packets)
          ∧ ∀ v ∈ s.evicted (.insert pkt), v.rtpTimestamp ≠ pkt.rtpTimestamp)
      ∧ (∀ (s s' : VideoJitterBuffer) (incoming cap : ℕ), capRound incoming cap s = .inl s' →
        ∃ v ∈ s.live, s' = s.evict v
          ∧ (v.complete = true → ∀ b ∈ s.live, b.complete = true))
      ∧ ∀ (s : VideoJitterBuffer) (incoming : ℕ),
        Loop.Ends (capRound incoming s.effectiveInflightCap) s (s.enforceInflightCap incoming) := by
  refine ⟨?_, fun s pkt hpkt => ⟨inserted_mem s hpkt, fun v hv => evicted_ne_inserted hv⟩,
    fun s s' incoming cap hround => capRound_next hround, ends_enforceInflightCap⟩
  have hstart : Capped cfg.maxInflightFrames (create cfg) :=
    ⟨hfixed, rfl, List.Pairwise.nil, Nat.zero_le _⟩
  exact Machine.always_of_meets (M := machine) (I := Capped cfg.maxInflightFrames)
    (fun s call h _ => h.step hcap call) (fun s h => h.count) calls hstart
    Machine.meets_true

/-- Two frames of which only one fits. -/
def crowdedRun : List JitterCall :=
  [.insert ⟨shortFrame 10, 0, 0, Nat.one_pos⟩, .insert ⟨shortFrame 20, 0, 0, Nat.one_pos⟩]

theorem inflight_capped_crowded :
    machine.Always (fun s => s.live.length ≤ 1) (create { maxInflightFrames := 1 }) crowdedRun :=
  (inflight_capped { maxInflightFrames := 1 } rfl (le_refl 1) crowdedRun).1

end NimRtc.VideoJitterBuffer
