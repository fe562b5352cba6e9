import NimRtc.Proofs.FrameIntegrity
import NimRtc.Proofs.NackPacking

/-!
# The scan for missing numbers

The scan goes through the numbers of a frame from low to high, and on from the number that arrived
first. What it passes over is missing as long as the numbers behind the first one come in the order
they were sent in. So a number that was sent before the first one is never asked for, and where the
wrap lies behind the first one the scan asks for that one itself (`scan_exact_iff`).
-/

namespace NimRtc

open VideoRtcpFeedback (WrapsPast wrapsPast_iff)

/-! ### What is missing -/

/-- `low` is the lowest of the numbers, which span less than half of all. -/
def Spans (low : UInt16) (received : List UInt16) : Prop :=
  low ∈ received ∧ ∀ s ∈ received, (s - low).toNat < 2 ^ 15

/-- The number lies below the highest one that was received, and was not. -/
def Missing (low : UInt16) (received : List UInt16) (s : UInt16) : Prop :=
  s ∉ received ∧ ∃ high ∈ received, (s - low).toNat < (high - low).toNat

/-- The numbers up to `first` were received, and none that was lies behind it over the wrap. -/
def Scannable (low first : UInt16) (received : List UInt16) : Prop :=
  (∀ s, (s - low).toNat < (first - low).toNat → s ∈ received)
    ∧ ∀ s ∈ received, ¬ WrapsPast first s

/-! ### The scan -/

theorem ofNat_sub_toNat (low s : UInt16) : low + UInt16.ofNat (s - low).toNat = s := by
  rw [UInt16.ofNat_toNat, add_sub_cancel]

theorem toNat_add_ofNat_sub (low : UInt16) {n : ℕ} (hn : n < 2 ^ 16) :
    (low + UInt16.ofNat n - low).toNat = n := by
  rw [add_sub_cancel_left, UInt16.toNat_ofNat', Nat.mod_eq_of_lt hn]

/-- The distance of two numbers is that of their distances from `low`. -/
theorem seqDelta_ofNat (low : UInt16) {g e : ℕ} (hg : g < 2 ^ 15) (he : e ≤ 2 ^ 15) :
    seqDelta (low + UInt16.ofNat g) (low + UInt16.ofNat e) = (g : ℤ) - e := by
  have hlow := low.toNat_lt
  simp only [seqDelta, UInt16.toNat_add, UInt16.toNat_ofNat']
  split_ifs <;> omega

theorem nackStep_ofNat (low : UInt16) {g e : ℕ} (hg : g < 2 ^ 15) (he : e ≤ 2 ^ 15)
    (lost : List UInt16) :
    VideoJitterBuffer.nackStep (low + UInt16.ofNat e, lost) (low + UInt16.ofNat g)
      = (low + UInt16.ofNat (max e (g + 1)),
        lost ++ (List.range (g - e)).map fun k => low + UInt16.ofNat (e + k)) := by
  have hgap : (seqDelta (low + UInt16.ofNat g) (low + UInt16.ofNat e)).toNat = g - e := by
    rw [seqDelta_ofNat low hg he]
    omega
  have hexpected : low + UInt16.ofNat e + UInt16.ofNat (g - e) = low + UInt16.ofNat (max e g) := by
    rw [add_assoc, ← UInt16.ofNat_add]
    congr 2
    omega
  have hlost : (fun k => low + UInt16.ofNat e + UInt16.ofNat k)
      = fun k => low + UInt16.ofNat (e + k) := by
    funext k
    rw [add_assoc, ← UInt16.ofNat_add]
  simp only [VideoJitterBuffer.nackStep, hgap, hexpected, hlost,
    seqDelta_ofNat low hg (show max e g ≤ 2 ^ 15 by omega)]
  split
  · rename_i hnext
    rw [add_assoc, show (1 : UInt16) = UInt16.ofNat 1 from rfl, ← UInt16.ofNat_add]
    have hmax : max e g + 1 = max e (g + 1) := by omega
    rw [hmax]
  · rename_i hnext
    have hmax : max e g = max e (g + 1) := by omega
    rw [hmax]

/-- Distances that come in order from `first` on: the scan that expects `e` next reports what lies
between it and the highest one, unless it is one of them. -/
theorem mem_foldl_nackStep (low s : UInt16) (first : ℕ) : ∀ (gs : List ℕ) (e : ℕ)
    (lost : List UInt16), first ≤ e → e ≤ 2 ^ 15 → (∀ g ∈ gs, g < 2 ^ 15) →
    gs.Pairwise (fun a b => first ≤ a → first ≤ b → a ≤ b) →
      (s ∈ ((gs.map fun g => low + UInt16.ofNat g).foldl VideoJitterBuffer.nackStep
          (low + UInt16.ofNat e, lost)).2
        ↔ s ∈ lost ∨ e ≤ (s - low).toNat ∧ (s - low).toNat ∉ gs
          ∧ ∃ h ∈ gs, (s - low).toNat < h)
  | [], e, lost, _, _, _, _ => by simp
  | g :: gs, e, lost, hfirst, he, hgs, horder => by
    have hg := hgs g List.mem_cons_self
    obtain ⟨hhead, htail⟩ := List.pairwise_cons.1 horder
    have hpassed : s ∈ (List.range (g - e)).map (fun k => low + UInt16.ofNat (e + k))
        ↔ e ≤ (s - low).toNat ∧ (s - low).toNat < g := by
      constructor
      · intro h
        obtain ⟨k, hk, rfl⟩ := List.mem_map.1 h
        have hk := List.mem_range.1 hk
        rw [toNat_add_ofNat_sub low (by omega)]
        omega
      · rintro ⟨hle, hlt⟩
        refine List.mem_map.2 ⟨(s - low).toNat - e, List.mem_range.2 (by omega), ?_⟩
        rw [Nat.add_sub_cancel' hle, ofNat_sub_toNat]
    rw [List.map_cons, List.foldl_cons, nackStep_ofNat low hg he,
      mem_foldl_nackStep low s first gs _ _ (by omega) (by omega)
        (fun h hh => hgs h (List.mem_cons_of_mem _ hh)) htail,
      List.mem_append, hpassed, or_assoc]
    refine or_congr_right ?_
    generalize (s - low).toNat = n
    constructor
    · rintro (⟨hle, hlt⟩ | ⟨hle, hnot, h, hh, hlt⟩)
      · -- what comes behind `g` is not below it
        refine ⟨hle, fun hmem => ?_, g, List.mem_cons_self, hlt⟩
        rcases List.mem_cons.1 hmem with heq | hmem
        · omega
        · have := hhead n hmem (by omega) (by omega)
          omega
      · refine ⟨by omega, fun hmem => ?_, h, List.mem_cons_of_mem _ hh, hlt⟩
        rcases List.mem_cons.1 hmem with heq | hmem
        · omega
        · exact hnot hmem
    · rintro ⟨hle, hnot, h, hh, hlt⟩
      have hne : n ≠ g := fun heq => hnot (heq ▸ List.mem_cons_self)
      by_cases hng : n < g
      · exact .inl ⟨hle, hng⟩
      · rcases List.mem_cons.1 hh with rfl | hh
        · exact absurd hlt hng
        · exact .inr ⟨by omega, fun hmem => hnot (List.mem_cons_of_mem _ hmem), h, hh, hlt⟩

section sorted

variable {low first : UInt16} {received : List UInt16}

/-- Behind `first`, and without a wrap between, the order is that of the distances. -/
theorem toNat_behind {s : UInt16} (hlow : (s - low).toNat < 2 ^ 15)
    (hle : (first - low).toNat ≤ (s - low).toNat) (hwrap : ¬ WrapsPast first s) :
    s.toNat + (first - low).toNat = first.toNat + (s - low).toNat := by
  have h₁ := low.toNat_lt
  have h₂ := first.toNat_lt
  have h₃ := s.toNat_lt
  rw [wrapsPast_iff] at hwrap
  simp only [UInt16.toNat_sub] at hlow hle hwrap ⊢
  omega

/-- What lies below a number over the wrap from `first` is over the wrap, too. -/
theorem behind_of_le {s h : UInt16} (hs : WrapsPast first s) (hle : h ≤ s)
    (hfirst : (first - low).toNat < 2 ^ 15) (hlow : (h - low).toNat < 2 ^ 15) : (first - low).toNat < (h - low).toNat := by
  have h₁ := low.toNat_lt
  have h₂ := first.toNat_lt
  have h₃ := s.toNat_lt
  have h₄ := h.toNat_lt
  rw [wrapsPast_iff] at hs
  rw [UInt16.le_iff_toNat_le] at hle
  simp only [UInt16.toNat_sub] at hs hfirst hlow ⊢
  omega

theorem subset_foldl_nackStep : ∀ (seqs : List UInt16) (expected : UInt16) (lost : List UInt16),
    lost ⊆ (seqs.foldl VideoJitterBuffer.nackStep (expected, lost)).2
  | [], _, _ => List.Subset.refl _
  | _ :: seqs, _, _ =>
    List.Subset.trans (List.subset_append_left _ _) (subset_foldl_nackStep seqs _ _)

theorem pairwise_sorted (seqs : List UInt16) : seqs.mergeSort.Pairwise (· ≤ ·) := by
  refine (List.pairwise_mergeSort (fun a b c hab hbc => ?_) (fun a b => ?_) seqs).imp
    fun h => of_decide_eq_true h
  · simp only [decide_eq_true_eq] at hab hbc ⊢
    exact UInt16.le_trans hab hbc
  · simpa using UInt16.le_total a b

/-- Without a wrap behind the first number, the scan reports the missing ones behind it. -/
theorem mem_scan (hspan : Spans low received) (hfirst : first ∈ received)
    (hwrap : ∀ s ∈ received, ¬ WrapsPast first s) (s : UInt16) :
    s ∈ (received.mergeSort.foldl VideoJitterBuffer.nackStep (first, [])).2
      ↔ (first - low).toNat ≤ (s - low).toNat ∧ Missing low received s := by
  have hgs : ∀ g ∈ received.mergeSort.map (fun r => (r - low).toNat), g < 2 ^ 15 := by
    intro g hg
    obtain ⟨r, hr, rfl⟩ := List.mem_map.1 hg
    exact hspan.2 r (List.mem_mergeSort.1 hr)
  have horder : (received.mergeSort.map fun r => (r - low).toNat).Pairwise
      fun a b => (first - low).toNat ≤ a → (first - low).toNat ≤ b → a ≤ b := by
    refine List.pairwise_map.2 ((pairwise_sorted received).imp_of_mem ?_)
    intro a b ha hb hab hfa hfb
    have ha := List.mem_mergeSort.1 ha
    have hb := List.mem_mergeSort.1 hb
    have hanum := toNat_behind (hspan.2 a ha) hfa (hwrap a ha)
    have hbnum := toNat_behind (hspan.2 b hb) hfb (hwrap b hb)
    rw [UInt16.le_iff_toNat_le] at hab
    omega
  have hscan := mem_foldl_nackStep low s (first - low).toNat _ (first - low).toNat [] le_rfl
    (hspan.2 first hfirst).le hgs horder
  simp only [List.map_map, Function.comp_def, ofNat_sub_toNat, List.map_id_fun', id_eq] at hscan
  rw [hscan]
  have hmem : (s - low).toNat ∈ received.mergeSort.map (fun r => (r - low).toNat) ↔ s ∈ received := by
    constructor
    · intro h
      obtain ⟨r, hr, heq⟩ := List.mem_map.1 h
      rw [← sub_left_inj.1 (UInt16.toNat_inj.1 heq)]
      exact List.mem_mergeSort.1 hr
    · exact fun h => List.mem_map_of_mem (List.mem_mergeSort.2 h)
  simp [hmem, Missing]

/-- With a wrap behind it, the first number itself is reported. -/
theorem first_mem_scan (hspan : Spans low received) (hfirst : first ∈ received) {s : UInt16}
    (hs : s ∈ received) (hwrap : WrapsPast first s) :
    first ∈ (received.mergeSort.foldl VideoJitterBuffer.nackStep (first, [])).2 := by
  have hsorted := pairwise_sorted received
  have hs' : s ∈ received.mergeSort := List.mem_mergeSort.2 hs
  rcases hseqs : received.mergeSort with _ | ⟨head, rest⟩
  · simp [hseqs] at hs'
  rw [hseqs] at hsorted hs'
  have hle : head ≤ s := by
    rcases List.mem_cons.1 hs' with rfl | hmem
    · exact UInt16.le_refl _
    · exact (List.pairwise_cons.1 hsorted).1 s hmem
  have hhead : head ∈ received :=
    List.mem_mergeSort.1 (hseqs ▸ List.mem_cons_self)
  have hlt := behind_of_le hwrap hle (hspan.2 first hfirst) (hspan.2 head hhead)
  have hstep := nackStep_ofNat low (hspan.2 head hhead) (hspan.2 first hfirst).le []
  rw [ofNat_sub_toNat, ofNat_sub_toNat] at hstep
  rw [hseqs, List.foldl_cons, hstep]
  refine subset_foldl_nackStep _ _ _ (List.mem_append_right _ (List.mem_map.2 ⟨0, ?_, ?_⟩))
  · exact List.mem_range.2 (by omega)
  · rw [Nat.add_zero, ofNat_sub_toNat]

/-- The scan reports exactly the missing numbers of a frame that is scannable. -/
theorem scan_iff_scannable (hspan : Spans low received) (hfirst : first ∈ received) :
    (∀ s, s ∈ (received.mergeSort.foldl VideoJitterBuffer.nackStep (first, [])).2
        ↔ Missing low received s) ↔ Scannable low first received := by
  constructor
  · intro h
    have hwrap : ∀ s ∈ received, ¬ WrapsPast first s := fun s hs hpast =>
      ((h first).1 (first_mem_scan hspan hfirst hs hpast)).1 hfirst
    refine ⟨fun s hbefore => ?_, hwrap⟩
    by_contra hno
    have hle := ((mem_scan hspan hfirst hwrap s).1 ((h s).2 ⟨hno, first, hfirst, hbefore⟩)).1
    omega
  · rintro ⟨hbefore, hwrap⟩ s
    rw [mem_scan hspan hfirst hwrap]
    refine ⟨And.right, fun hmissing => ⟨?_, hmissing⟩⟩
    by_contra hlt
    exact hmissing.1 (hbefore s (by omega))

end sorted

/-! ### The buckets of a run -/

/-- What every bucket is whose packets were received into it. -/
structure FrameBucket.Kept (P : FrameBucket → Prop) : Prop where
  create : ∀ pkt, P ((FrameBucket.create pkt).receive pkt)
  receive : ∀ b pkt, P b → P (b.receive pkt)
  handedOut : ∀ b, P b → P b.handedOut
  sortSeqs : ∀ b, P b → P (VideoJitterBuffer.sortSeqs b)

namespace VideoJitterBuffer

variable {P : FrameBucket → Prop} {s : VideoJitterBuffer}

theorem kept_insert (hP : FrameBucket.Kept P) (h : ∀ b ∈ s.buckets, P b) (pkt : InboundPacket) :
    ∀ b ∈ (s.insert pkt).1.buckets, P b := by
  rw [insert]
  split
  · exact h
  · let s₁ : VideoJitterBuffer :=
      { s with stats := { s.stats with packetsInserted := s.stats.packetsInserted + 1 } }
    obtain ⟨hfind, hbuckets, -⟩ := s₁.findOrCreateBucket_spec pkt
    intro c hc
    rcases mem_setBucket hc with rfl | ⟨hc, hne⟩
    · rcases hfind with hfind | ⟨-, hnew⟩
      · exact hP.receive _ _ (h _ (List.mem_of_find?_eq_some hfind))
      · show P ((s₁.findOrCreateBucket pkt).2.receive pkt)
        rw [hnew]
        exact hP.create pkt
    · rcases hbuckets c hc with hc | rfl
      · exact h c hc
      · exact absurd (FrameBucket.receive_rtpTimestamp _ _).symm hne

theorem kept_popReady (hP : FrameBucket.Kept P) (h : ∀ b ∈ s.buckets, P b) (gateUs target : ℤ) :
    ∀ b ∈ (s.popReady gateUs target).1.buckets, P b := by
  simp only [popReady]
  split
  · exact h
  · split
    · exact h
    · rename_i b hready
      intro c hc
      rcases mem_setBucket hc with rfl | ⟨hc, -⟩
      · exact hP.handedOut b (h b (nextReady_spec hready).1)
      · exact h c hc

theorem kept_tickBucket (hP : FrameBucket.Kept P) (nowUs : ℤ) : ∀ (bs : List FrameBucket)
    {s : VideoJitterBuffer}, (∀ b ∈ s.buckets, P b) → (∀ b ∈ bs, P b) →
      ∀ b ∈ (bs.foldl (tickBucket nowUs) s).buckets, P b
  | [], _, h, _ => h
  | b :: bs, s, h, hbs => by
    refine kept_tickBucket hP nowUs bs ?_ fun c hc => hbs c (List.mem_cons_of_mem _ hc)
    have hb := hbs b List.mem_cons_self
    intro c hc
    simp only [tickBucket, makeAssembled] at hc
    split_ifs at hc
    · exact h c hc
    · rcases List.mem_append.1 hc with hc | hc
      · exact h c hc
      · exact List.mem_singleton.1 hc ▸ hP.handedOut b hb
    · rcases List.mem_append.1 hc with hc | hc
      · exact h c hc
      · exact List.mem_singleton.1 hc ▸ hb

theorem kept_step (hP : FrameBucket.Kept P) (h : ∀ b ∈ s.buckets, P b) (call : JitterCall) :
    ∀ b ∈ (s.step call).1.buckets, P b := by
  cases call with
  | insert pkt => exact kept_insert hP h pkt
  | popFrame => exact kept_popReady hP h (-1) 0
  | popFrameAt nowUs target => exact kept_popReady hP h nowUs target
  | popNackEntries =>
    intro c hc
    simp only [step, popNackEntries] at hc
    split_ifs at hc
    · exact h c hc
    · obtain ⟨b, hb, rfl⟩ := List.mem_map.1 hc
      exact hP.sortSeqs b (h b hb)
  | tick nowUs =>
    intro c hc
    have hfold := kept_tickBucket hP nowUs s.buckets (s := { s with buckets := [] }) (by simp) h
    exact hfold c ((enforceInflightCap_frame _ _).1.subset hc)
  | reset => simp [step, reset]

/-- What is kept of a bucket holds of all the buckets of a run. -/
theorem kept_run (hP : FrameBucket.Kept P) (cfg : JitterConfig) (calls : List JitterCall) :
    ∀ b ∈ (machine.exec (create cfg) calls).1.buckets, P b :=
  Machine.exec_preserves (M := machine) (I := fun s => ∀ b ∈ s.buckets, P b)
    (fun _ call h => kept_step hP h call) calls (by simp [create])

end VideoJitterBuffer

theorem FrameBucket.receive_seqs (b : FrameBucket) (pkt : InboundPacket) :
    (b.receive pkt).firstSeq = b.firstSeq
      ∧ (b.receive pkt).receivedSeqs = b.receivedSeqs ++ [pkt.seq] := by
  obtain ⟨_, _, _, _, _, h⟩ := (b.note pkt).appendPayload_frame pkt.codec pkt.payload
  rw [receive, h]
  exact ⟨rfl, rfl⟩

/-- The number that a bucket was opened for is one that it received. -/
theorem FrameBucket.kept_firstSeq : FrameBucket.Kept fun b => b.firstSeq ∈ b.receivedSeqs where
  create pkt := by
    obtain ⟨hfirst, hseqs⟩ := (FrameBucket.create pkt).receive_seqs pkt
    rw [hfirst, hseqs]
    exact List.mem_append_right _ List.mem_cons_self
  receive b pkt h := by
    obtain ⟨hfirst, hseqs⟩ := b.receive_seqs pkt
    rw [hfirst, hseqs]
    exact List.mem_append_left _ h
  handedOut _ h := h
  sortSeqs b h := by
    rw [VideoJitterBuffer.sortSeqs]
    split
    · exact List.mem_mergeSort.2 h
    · exact h

/-! ### The report -/

namespace VideoJitterBuffer

def after (cfg : JitterConfig) (calls : List JitterCall) : VideoJitterBuffer :=
  (machine.exec (create cfg) calls).1

/-- What `pop_nack_entries` reports for a bucket. -/
def nacksOf (s : VideoJitterBuffer) (b : FrameBucket) : List UInt16 :=
  if s.cfg.emitNacks ∧ nackable b then (b.receivedSeqs.mergeSort.foldl nackStep (b.firstSeq, [])).2
  else []

theorem nackable_sortSeqs (b : FrameBucket) : nackable (sortSeqs b) = nackable b := by
  rw [sortSeqs]
  split
  · simp only [nackable, List.length_mergeSort]
  · rfl

theorem popNackEntries_eq (s : VideoJitterBuffer) :
    s.popNackEntries.2 = s.buckets.flatMap s.nacksOf := by
  rw [popNackEntries]
  split
  · rename_i hoff
    have hnone : ∀ b ∈ s.buckets, s.nacksOf b = [] := by
      intro b _
      rw [nacksOf, if_neg]
      rintro ⟨hon, -⟩
      simp [hon] at hoff
    exact (List.flatMap_eq_nil_iff.2 hnone).symm
  · rename_i hon
    have hon : s.cfg.emitNacks = true := by simpa using hon
    show ((s.buckets.map sortSeqs).filter nackable).flatMap _ = _
    induction s.buckets with
    | nil => rfl
    | cons b bs ih =>
      rw [List.map_cons, List.flatMap_cons, List.filter_cons, nackable_sortSeqs, ← ih]
      by_cases hb : nackable b = true
      · rw [if_pos hb, List.flatMap_cons, nacksOf, if_pos ⟨hon, hb⟩, sortSeqs, if_pos hb]
      · rw [if_neg hb, nacksOf, if_neg fun h => hb h.2, List.nil_append]

theorem nacksOf_of_short {s : VideoJitterBuffer} {b : FrameBucket} {low : UInt16}
    (h : b.receivedSeqs.length < 2) (hfirst : b.firstSeq ∈ b.receivedSeqs) (hspan : Spans low b.receivedSeqs) :
    s.nacksOf b = [] ∧ (∀ x, ¬ Missing low b.receivedSeqs x)
      ∧ Scannable low b.firstSeq b.receivedSeqs := by
  rcases hseqs : b.receivedSeqs with _ | ⟨only, _ | ⟨_, _⟩⟩
  · simp [hseqs] at hfirst
  · have hlow : low = only := by simpa [hseqs] using hspan.1
    have hfirst : b.firstSeq = only := by simpa [hseqs] using hfirst
    refine ⟨by simp [nacksOf, nackable, hseqs], fun x hx => ?_, fun s hs => ?_, fun s hs => ?_⟩
    · simp [Missing, hlow] at hx
    · simp [hlow, hfirst] at hs
    · rw [List.mem_singleton.1 hs, hfirst, WrapsPast]
      exact fun hpast => absurd hpast.1 (UInt16.lt_irrefl _)
  · simp [hseqs] at h

/-- In every state of a run, what `pop_nack_entries` returns is the reports for the frames in turn,
and a frame that waits has exactly its missing numbers reported when it is scannable. -/
theorem scan_exact_iff (cfg : JitterConfig) (calls : List JitterCall) (b : FrameBucket)
    (low : UInt16) (hb : b ∈ (after cfg calls).buckets) (hlive : b.emitted = false)
    (hspan : Spans low b.receivedSeqs) :
    (after cfg calls).popNackEntries.2 = (after cfg calls).buckets.flatMap (after cfg calls).nacksOf
      ∧ ((∀ x, x ∈ (after cfg calls).nacksOf b ↔ Missing low b.receivedSeqs x)
        ↔ if (after cfg calls).cfg.emitNacks then Scannable low b.firstSeq b.receivedSeqs
          else ∀ x, ¬ Missing low b.receivedSeqs x) := by
  refine ⟨popNackEntries_eq _, ?_⟩
  have hfirst : b.firstSeq ∈ b.receivedSeqs := kept_run FrameBucket.kept_firstSeq cfg calls b hb
  split
  · rename_i hon
    by_cases hlength : 2 ≤ b.receivedSeqs.length
    · rw [nacksOf, if_pos ⟨hon, by simp [nackable, hlive, hlength]⟩]
      exact scan_iff_scannable hspan hfirst
    · obtain ⟨hnone, hmissing, hscan⟩ :=
        nacksOf_of_short (s := after cfg calls) (by omega) hfirst hspan
      exact iff_of_true (fun x => by simp [hnone, hmissing x]) hscan
  · rename_i hoff
    rw [nacksOf, if_neg fun h => hoff h.1]
    simp

theorem threePartitions : ([[1], [2], [3]] : List (List UInt8)) ≠ [] := by decide

def partitions (firstSeq : UInt16) : SentFrame where
  ssrc := 7
  rtpTimestamp := 3000
  firstSeq
  codec := .vp8
  payloads := [[1], [2], [3]]
  payloads_ne := threePartitions

/-- The first packet and the last one. -/
def gapRun : List JitterCall :=
  [.insert ⟨partitions 7, 0, 0, by decide⟩, .insert ⟨partitions 7, 2, 10, by decide⟩]

theorem scan_exact_iff_gap :
    ∃ b ∈ (after {} gapRun).buckets, b.receivedSeqs = [7, 9]
      ∧ ∀ x, x ∈ (after {} gapRun).nacksOf b ↔ Missing 7 b.receivedSeqs x := by
  have hrun : ∃ b ∈ (after {} gapRun).buckets, b.emitted = false ∧ b.firstSeq = 7
      ∧ b.receivedSeqs = [7, 9] := by decide
  obtain ⟨b, hb, hlive, hfirst, hseqs⟩ := hrun
  have hspan : Spans 7 b.receivedSeqs := by
    rw [hseqs]
    exact ⟨by decide, by simp⟩
  refine ⟨b, hb, hseqs, ((scan_exact_iff {} gapRun b 7 hb hlive hspan).2).2 ?_⟩
  rw [if_pos (by decide), hfirst, hseqs]
  refine ⟨fun s hs => ?_, by simp [WrapsPast]⟩
  simp at hs

/-- The packets with the numbers 65535 and 0. -/
def wrapRun : List JitterCall :=
  [.insert ⟨partitions 65535, 0, 0, by decide⟩, .insert ⟨partitions 65535, 1, 10, by decide⟩]

theorem received_number_reported :
    ¬ ∀ (cfg : JitterConfig) (calls : List JitterCall), ∀ b ∈ (after cfg calls).buckets,
      b.emitted = false → ∀ low, Spans low b.receivedSeqs →
        ∀ x, x ∈ (after cfg calls).nacksOf b ↔ Missing low b.receivedSeqs x := by
  intro h
  have hrun : ∃ b ∈ (after {} wrapRun).buckets, b.emitted = false ∧ b.firstSeq = 65535
      ∧ b.receivedSeqs = [65535, 0] ∧ (after {} wrapRun).cfg.emitNacks = true := by decide
  obtain ⟨b, hb, hlive, hfirst, hseqs, hon⟩ := hrun
  have hspan : Spans 65535 b.receivedSeqs := by
    rw [hseqs]
    exact ⟨by decide, by simp [UInt16.size]⟩
  have hreported : 65535 ∈ (after {} wrapRun).nacksOf b := by
    rw [nacksOf, if_pos ⟨hon, by simp [nackable, hlive, hseqs]⟩, hfirst]
    exact first_mem_scan hspan hspan.1 (s := 0) (by simp [hseqs]) (by decide)
  have hmissing := ((h {} wrapRun b hb hlive 65535 hspan 65535).1 hreported).1
  exact hmissing hspan.1

end VideoJitterBuffer

end NimRtc
