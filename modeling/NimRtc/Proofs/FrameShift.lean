import NimRtc.FramePlayout
import NimRtc.Proofs.FrameIntegrity

/-!
# Moving the timestamps of a run

Two buffers mirror each other (`Mirrors`) when their buckets are the same up to the moved
timestamps, each in the order of its own timestamps, and the two orders agree on the buckets that are
still to be handed out. Everything a buffer returns or evicts is chosen among those, so it is chosen
alike. Only a packet that opens a bucket can break the agreement of the orders.
-/

namespace NimRtc

/-! ## Buckets -/

namespace InboundPacket

variable (k : UInt32) (pkt : InboundPacket)

@[simp] theorem shift_rtpTimestamp : (pkt.shift k).rtpTimestamp = pkt.rtpTimestamp + k := rfl

@[simp] theorem shift_seq : (pkt.shift k).seq = pkt.seq := rfl

@[simp] theorem shift_codec : (pkt.shift k).codec = pkt.codec := rfl

@[simp] theorem shift_payload : (pkt.shift k).payload = pkt.payload := rfl

@[simp] theorem shift_marker : (pkt.shift k).marker = pkt.marker := rfl

theorem accepted_shift : (pkt.shift k).Accepted ↔ pkt.Accepted := Iff.rfl

end InboundPacket

namespace FrameBucket

variable (k : UInt32) (b : FrameBucket) (pkt : InboundPacket)

@[simp] theorem shift_rtpTimestamp : (b.shift k).rtpTimestamp = b.rtpTimestamp + k := rfl

@[simp] theorem shift_emitted : (b.shift k).emitted = b.emitted := rfl

@[simp] theorem shift_complete : (b.shift k).complete = b.complete := rfl

theorem drops_shift : (b.shift k).drops (pkt.shift k) = b.drops pkt := rfl

theorem note_shift : (b.shift k).note (pkt.shift k) = (b.note pkt).shift k := by
  have htaken : (if (b.shift k).drops (pkt.shift k) then (b.shift k).taken
      else (b.shift k).taken ++ [pkt.shift k])
        = (if b.drops pkt then b.taken else b.taken ++ [pkt]).map (.shift k) := by
    rw [drops_shift]
    split
    · rfl
    · rw [List.map_append]
      rfl
  have hpackets : (b.shift k).packets ++ [pkt.shift k] = (b.packets ++ [pkt]).map (.shift k) := by
    rw [List.map_append]
    rfl
  rw [note, htaken, hpackets]
  rfl

theorem appendFuAFragment_shift (payload : List UInt8) :
    (b.shift k).appendFuAFragment payload = (b.appendFuAFragment payload).shift k := by
  simp only [appendFuAFragment]
  split
  · rfl
  · simp only [shift]
    split_ifs <;> rfl

theorem appendPayload_shift (codec : CodecKind) (payload : List UInt8) :
    (b.shift k).appendPayload codec payload = (b.appendPayload codec payload).shift k := by
  simp only [appendPayload]
  split
  · exact b.appendFuAFragment_shift k payload
  · rfl

theorem receive_shift : (b.shift k).receive (pkt.shift k) = (b.receive pkt).shift k := by
  rw [receive, note_shift, appendPayload_shift]
  rfl

theorem handedOut_shift : (b.shift k).handedOut = b.handedOut.shift k := rfl

end FrameBucket

namespace VideoJitterBuffer

/-! ## Buffers that mirror each other -/

/-- The buckets that are still to be handed out. -/
def live (s : VideoJitterBuffer) : List FrameBucket := s.buckets.filter fun b => !b.emitted

def Sorted (s : VideoJitterBuffer) : Prop :=
  s.buckets.Pairwise fun b c => b.rtpTimestamp < c.rtpTimestamp

structure Mirrors (k : UInt32) (s t : VideoJitterBuffer) : Prop where
  fixed : s.cfg.adaptive = false
  cfg : t.cfg = s.cfg
  sorted : s.Sorted
  sorted' : t.Sorted
  buckets : t.buckets.Perm (s.buckets.map (.shift k))
  order : ∀ b ∈ s.live, ∀ c ∈ s.live, b.rtpTimestamp < c.rtpTimestamp →
    b.rtpTimestamp + k < c.rtpTimestamp + k
  pending : t.pendingIncomplete = s.pendingIncomplete.map (.shift k)
  counter : t.frameSeqCounter = s.frameSeqCounter
  stats : t.stats = s.stats

variable {k : UInt32} {s t : VideoJitterBuffer}

theorem mem_live {b : FrameBucket} : b ∈ s.live ↔ b ∈ s.buckets ∧ b.emitted = false := by
  simp [live]

/-- The two orders agree on what is still to be handed out, so it is the same list. -/
theorem Mirrors.live (h : Mirrors k s t) : t.live = s.live.map (.shift k) := by
  have hsub : s.live.Pairwise fun b c => b.rtpTimestamp < c.rtpTimestamp :=
    List.Pairwise.sublist List.filter_sublist h.sorted
  have hsorted : (s.live.map (.shift k)).Pairwise
      fun b c : FrameBucket => b.rtpTimestamp < c.rtpTimestamp := by
    rw [List.pairwise_map]
    exact hsub.imp_of_mem fun hb hc hlt => h.order _ hb _ hc hlt
  have hsorted' : t.live.Pairwise fun b c => b.rtpTimestamp < c.rtpTimestamp :=
    List.Pairwise.sublist List.filter_sublist h.sorted'
  have hperm : t.live.Perm (s.live.map (.shift k)) := by
    have hfilter := h.buckets.filter fun b => !b.emitted
    rwa [List.filter_map] at hfilter
  refine hperm.eq_of_pairwise (fun b c _ _ hbc hcb => ?_) hsorted' hsorted
  exact absurd hbc (UInt32.lt_asymm hcb)

theorem Sorted.keys (h : s.Sorted) : (s.buckets.map (·.rtpTimestamp)).Nodup := by
  rw [List.Nodup, List.pairwise_map]
  exact List.Pairwise.imp UInt32.ne_of_lt h

theorem Sorted.findBucket (h : s.Sorted) {b : FrameBucket} (hb : b ∈ s.buckets) :
    s.findBucket b.rtpTimestamp = some b := by
  have hsome : (s.findBucket b.rtpTimestamp).isSome := by
    rw [VideoJitterBuffer.findBucket, List.find?_isSome]
    exact ⟨b, hb, by simp⟩
  obtain ⟨c, hc⟩ := Option.isSome_iff_exists.1 hsome
  have hts : c.rtpTimestamp = b.rtpTimestamp := by simpa using List.find?_some hc
  rw [hc, List.inj_on_of_nodup_map h.keys (List.mem_of_find?_eq_some hc) hb hts]

theorem findBucket_none_iff {ts : UInt32} :
    s.findBucket ts = none ↔ ∀ b ∈ s.buckets, b.rtpTimestamp ≠ ts := by
  simp [findBucket, List.find?_eq_none]

theorem Mirrors.findBucket (h : Mirrors k s t) (ts : UInt32) :
    t.findBucket (ts + k) = (s.findBucket ts).map (.shift k) := by
  rcases hfind : s.findBucket ts with _ | b
  · rw [Option.map_none, findBucket_none_iff]
    intro c hc heq
    obtain ⟨b, hb, rfl⟩ := List.mem_map.1 (h.buckets.subset hc)
    exact findBucket_none_iff.1 hfind b hb (add_right_cancel heq)
  · have hts : b.rtpTimestamp = ts := by simpa using List.find?_some hfind
    have hb : b.shift k ∈ t.buckets :=
      h.buckets.symm.subset (List.mem_map_of_mem (List.mem_of_find?_eq_some hfind))
    rw [← hts]
    exact h.sorted'.findBucket hb

/-- Buckets that are changed or dropped alike on both sides. -/
theorem Mirrors.of_buckets {s' t' : VideoJitterBuffer} (h : Mirrors k s t) (hcfg : s'.cfg = s.cfg)
    (hcfg' : t'.cfg = s'.cfg) (hsorted : s'.Sorted) (hsorted' : t'.Sorted)
    (hbuckets : t'.buckets.Perm (s'.buckets.map (.shift k)))
    (hlive : ∀ b ∈ s'.live, ∃ c ∈ s.live, c.rtpTimestamp = b.rtpTimestamp)
    (hpending : t'.pendingIncomplete = s'.pendingIncomplete.map (.shift k))
    (hcounter : t'.frameSeqCounter = s'.frameSeqCounter) (hstats : t'.stats = s'.stats) :
    Mirrors k s' t' where
  fixed := hcfg ▸ h.fixed
  cfg := hcfg'
  sorted := hsorted
  sorted' := hsorted'
  buckets := hbuckets
  order b hb c hc hlt := by
    obtain ⟨b₀, hb₀, hbts⟩ := hlive b hb
    obtain ⟨c₀, hc₀, hcts⟩ := hlive c hc
    rw [← hbts, ← hcts] at hlt ⊢
    exact h.order b₀ hb₀ c₀ hc₀ hlt
  pending := hpending
  counter := hcounter
  stats := hstats

/-! ### The in-flight cap -/

theorem victim_eq (s : VideoJitterBuffer) :
    s.victim = (s.live.find? fun b => !b.complete).or s.live.head? := by
  simp [victim, VideoJitterBuffer.live, List.find?_filter, List.head?_filter]

theorem Mirrors.victim (h : Mirrors k s t) : t.victim = s.victim.map (.shift k) := by
  have hcomplete : ((fun b : FrameBucket => !b.complete) ∘ FrameBucket.shift k)
      = fun b => !b.complete := rfl
  rw [victim_eq, victim_eq, h.live, List.find?_map, hcomplete, List.head?_map, Option.map_or]

theorem Mirrors.countP (h : Mirrors k s t) :
    t.buckets.countP (fun b => !b.emitted) = s.buckets.countP fun b => !b.emitted := by
  rw [h.buckets.countP_eq, List.countP_map]
  rfl

theorem Mirrors.evict (h : Mirrors k s t) (v : FrameBucket) :
    Mirrors k (s.evict v) (t.evict (v.shift k)) := by
  refine h.of_buckets rfl h.cfg (h.sorted.sublist List.filter_sublist)
    (h.sorted'.sublist List.filter_sublist) ?_ (fun b hb => ⟨b, ?_, rfl⟩) h.pending h.counter ?_
  · have hkeep : ((fun b : FrameBucket => decide (b.rtpTimestamp ≠ (v.shift k).rtpTimestamp))
        ∘ FrameBucket.shift k) = fun b => decide (b.rtpTimestamp ≠ v.rtpTimestamp) := by
      funext b
      simp
    have hfilter := h.buckets.filter
      fun b => decide (b.rtpTimestamp ≠ (v.shift k).rtpTimestamp)
    rw [List.filter_map, hkeep] at hfilter
    exact hfilter
  · obtain ⟨hmem, hlive⟩ := mem_live.1 hb
    exact mem_live.2 ⟨(List.mem_filter.1 hmem).1, hlive⟩
  · simp only [VideoJitterBuffer.evict, h.stats]
    rfl

theorem Mirrors.evictRounds (incoming cap : ℕ) : ∀ (fuel : ℕ) {s t : VideoJitterBuffer},
    Mirrors k s t →
      Mirrors k (evictRounds incoming cap fuel s) (evictRounds incoming cap fuel t)
        ∧ evictedRounds incoming cap fuel t = (evictedRounds incoming cap fuel s).map (.shift k)
  | 0, _, _, h => ⟨h, rfl⟩
  | fuel + 1, s, t, h => by
    simp only [VideoJitterBuffer.evictRounds, evictedRounds, h.countP, h.victim]
    split
    · exact ⟨h, rfl⟩
    · rcases s.victim with _ | v
      · exact ⟨h, rfl⟩
      · obtain ⟨hnext, hevicted⟩ := Mirrors.evictRounds incoming cap fuel (h.evict v)
        exact ⟨hnext, by simp [hevicted]⟩

/-- What the rounds erase are the buckets that are evicted. -/
theorem evictRounds_buckets (incoming cap : ℕ) : ∀ (fuel : ℕ) (s : VideoJitterBuffer),
    (VideoJitterBuffer.evictRounds incoming cap fuel s).buckets = s.buckets.filter fun b =>
      b.rtpTimestamp ∉ (evictedRounds incoming cap fuel s).map (·.rtpTimestamp)
  | 0, s => by simp [VideoJitterBuffer.evictRounds, evictedRounds]
  | fuel + 1, s => by
    simp only [VideoJitterBuffer.evictRounds, evictedRounds]
    split
    · simp
    · rcases s.victim with _ | v
      · simp
      · have hrest := evictRounds_buckets incoming cap fuel (s.evict v)
        rw [show (s.evict v).buckets
            = s.buckets.filter fun b => b.rtpTimestamp ≠ v.rtpTimestamp from rfl,
          List.filter_filter] at hrest
        refine hrest.trans (List.filter_congr fun b _ => ?_)
        rw [List.map_cons, ← Bool.decide_and, decide_eq_decide, List.mem_cons, not_or]
        exact and_comm

theorem effectiveInflightCap_of_fixed (h : s.cfg.adaptive = false) :
    s.effectiveInflightCap = s.cfg.maxInflightFrames := by
  simp [effectiveInflightCap, h]

theorem Mirrors.enforceInflightCap (h : Mirrors k s t) (incoming : ℕ) :
    Mirrors k (s.enforceInflightCap incoming) (t.enforceInflightCap incoming)
      ∧ t.evictedByCap incoming = (s.evictedByCap incoming).map (.shift k) := by
  have hlen : t.buckets.length = s.buckets.length := by simpa using h.buckets.length_eq
  have hcap : t.effectiveInflightCap = s.effectiveInflightCap := by
    rw [effectiveInflightCap_of_fixed h.fixed,
      effectiveInflightCap_of_fixed (h.cfg ▸ h.fixed), h.cfg]
  simp only [VideoJitterBuffer.enforceInflightCap, evictedByCap, hcap, hlen]
  exact h.evictRounds _ _ _

/-! ### Inserting -/

theorem Mirrors.withStats (h : Mirrors k s t) (f : JitterStats → JitterStats) :
    Mirrors k { s with stats := f s.stats } { t with stats := f t.stats } :=
  h.of_buckets rfl h.cfg h.sorted h.sorted' h.buckets (fun b hb => ⟨b, hb, rfl⟩) h.pending
    h.counter (congrArg f h.stats)

theorem pairwise_orderedInsert {b : FrameBucket} {bs : List FrameBucket}
    (h : bs.Pairwise fun b c => b.rtpTimestamp < c.rtpTimestamp)
    (hkey : ∀ c ∈ bs, c.rtpTimestamp ≠ b.rtpTimestamp) :
    (bs.orderedInsert (fun a b => a.rtpTimestamp ≤ b.rtpTimestamp) b).Pairwise
      fun b c => b.rtpTimestamp < c.rtpTimestamp := by
  let r : FrameBucket → FrameBucket → Prop := fun a b => a.rtpTimestamp ≤ b.rtpTimestamp
  have htrans : IsTrans FrameBucket r := ⟨fun _ _ _ => UInt32.le_trans⟩
  have htotal : Std.Total r := ⟨fun _ _ => UInt32.le_total _ _⟩
  have hle : (bs.orderedInsert r b).Pairwise r :=
    List.Pairwise.orderedInsert b bs (h.imp UInt32.le_of_lt)
  have hne : (bs.orderedInsert r b).Pairwise fun b c => b.rtpTimestamp ≠ c.rtpTimestamp := by
    refine ((List.perm_orderedInsert r b bs).pairwise_iff fun h => h.symm).2 ?_
    exact List.pairwise_cons.2 ⟨fun c hc => (hkey c hc).symm, h.imp UInt32.ne_of_lt⟩
  exact (hle.and hne).imp fun h => UInt32.lt_of_le_of_ne h.1 h.2

/-- A bucket that is put between the same buckets on both sides. -/
theorem Mirrors.addBucket (h : Mirrors k s t) {b : FrameBucket}
    (hkey : ∀ c ∈ s.buckets, c.rtpTimestamp ≠ b.rtpTimestamp)
    (hside : ∀ c ∈ s.live,
      (b.rtpTimestamp < c.rtpTimestamp ↔ b.rtpTimestamp + k < c.rtpTimestamp + k)) :
    Mirrors k
      { s with buckets := s.buckets.orderedInsert (fun a b => a.rtpTimestamp ≤ b.rtpTimestamp) b }
      { t with
        buckets :=
          t.buckets.orderedInsert (fun a b => a.rtpTimestamp ≤ b.rtpTimestamp) (b.shift k) } where
  fixed := h.fixed
  cfg := h.cfg
  sorted := pairwise_orderedInsert h.sorted hkey
  sorted' := by
    refine pairwise_orderedInsert h.sorted' fun c hc heq => ?_
    obtain ⟨d, hd, rfl⟩ := List.mem_map.1 (h.buckets.subset hc)
    exact hkey d hd (add_right_cancel heq)
  buckets := (List.perm_orderedInsert _ _ _).trans
    ((h.buckets.cons _).trans ((List.perm_orderedInsert _ _ _).map _).symm)
  order c hc d hd hlt := by
    have hcases : ∀ e ∈ VideoJitterBuffer.live { s with
        buckets := s.buckets.orderedInsert (fun a b => a.rtpTimestamp ≤ b.rtpTimestamp) b },
        e = b ∨ e ∈ s.live := by
      intro e he
      obtain ⟨hmem, hlive⟩ := mem_live.1 he
      rcases (List.mem_orderedInsert _).1 hmem with rfl | hmem
      · exact .inl rfl
      · exact .inr (mem_live.2 ⟨hmem, hlive⟩)
    rcases hcases c hc with rfl | hc' <;> rcases hcases d hd with rfl | hd'
    · exact absurd hlt (UInt32.lt_irrefl _)
    · exact (hside d hd').1 hlt
    · -- not before the new bucket and not at its timestamp
      have hnot : ¬ d.rtpTimestamp + k < c.rtpTimestamp + k :=
        fun h' => UInt32.lt_asymm hlt ((hside c hc').2 h')
      have hne : c.rtpTimestamp + k ≠ d.rtpTimestamp + k :=
        fun heq => hkey c (mem_live.1 hc').1 (add_right_cancel heq)
      exact UInt32.lt_of_le_of_ne (UInt32.not_lt.1 hnot) hne
    · exact h.order c hc' d hd' hlt
  pending := h.pending
  counter := h.counter
  stats := h.stats

theorem Mirrors.observeFrame (h : Mirrors k s t) (pkt : InboundPacket) :
    Mirrors k (s.observeFrame pkt) (t.observeFrame (pkt.shift k)) :=
  h.of_buckets rfl h.cfg h.sorted h.sorted' h.buckets (fun b hb => ⟨b, hb, rfl⟩) h.pending
    h.counter h.stats

theorem Mirrors.findOrCreateBucket (h : Mirrors k s t) {pkt : InboundPacket}
    (hside : s.findBucket pkt.rtpTimestamp = none →
      ∀ b ∈ (s.enforceInflightCap 1).buckets, b.emitted = false →
        (pkt.rtpTimestamp < b.rtpTimestamp ↔ pkt.rtpTimestamp + k < b.rtpTimestamp + k)) :
    Mirrors k (s.findOrCreateBucket pkt).1 (t.findOrCreateBucket (pkt.shift k)).1
      ∧ (t.findOrCreateBucket (pkt.shift k)).2 = (s.findOrCreateBucket pkt).2.shift k := by
  have hfind' := h.findBucket pkt.rtpTimestamp
  rcases hfind : s.findBucket pkt.rtpTimestamp with _ | b
  · rw [hfind, Option.map_none] at hfind'
    simp only [VideoJitterBuffer.findOrCreateBucket, InboundPacket.shift_rtpTimestamp, hfind, hfind']
    have hkey : ∀ c ∈ (s.enforceInflightCap 1).buckets, c.rtpTimestamp ≠ pkt.rtpTimestamp :=
      fun c hc => findBucket_none_iff.1 hfind c ((s.enforceInflightCap_frame 1).1.subset hc)
    have hadd := (h.enforceInflightCap 1).1.addBucket (b := FrameBucket.create pkt) hkey
      fun c hc => hside hfind c (mem_live.1 hc).1 (mem_live.1 hc).2
    exact ⟨hadd.observeFrame pkt, rfl⟩
  · rw [hfind, Option.map_some] at hfind'
    simp only [VideoJitterBuffer.findOrCreateBucket, InboundPacket.shift_rtpTimestamp, hfind, hfind']
    exact ⟨h, trivial⟩

theorem sorted_setBucket (h : s.Sorted) (b : FrameBucket) : (s.setBucket b).Sorted := by
  have hts : ∀ c : FrameBucket,
      (if c.rtpTimestamp = b.rtpTimestamp then b else c).rtpTimestamp = c.rtpTimestamp := by
    intro c
    split
    · rename_i heq
      exact heq.symm
    · rfl
  show List.Pairwise _ (List.map _ _)
  rw [List.pairwise_map]
  simp only [hts]
  exact h

theorem Mirrors.setBucket (h : Mirrors k s t) {b : FrameBucket}
    (hb : b.emitted = false → ∃ c ∈ s.live, c.rtpTimestamp = b.rtpTimestamp) :
    Mirrors k (s.setBucket b) (t.setBucket (b.shift k)) := by
  refine h.of_buckets rfl h.cfg (sorted_setBucket h.sorted b)
    (sorted_setBucket h.sorted' (b.shift k)) ?_ (fun c hc => ?_) h.pending h.counter h.stats
  · have hmap := h.buckets.map
      fun c => if c.rtpTimestamp = (b.shift k).rtpTimestamp then b.shift k else c
    have hcomm : (s.buckets.map (.shift k)).map
        (fun c => if c.rtpTimestamp = (b.shift k).rtpTimestamp then b.shift k else c)
          = (s.setBucket b).buckets.map (.shift k) := by
      simp only [VideoJitterBuffer.setBucket, List.map_map]
      refine List.map_congr_left fun c _ => ?_
      simp only [Function.comp_apply, FrameBucket.shift_rtpTimestamp, add_left_inj]
      split <;> rfl
    rw [hcomm] at hmap
    exact hmap
  · obtain ⟨hmem, hlive⟩ := mem_live.1 hc
    rcases mem_setBucket hmem with rfl | ⟨hmem, -⟩
    · exact hb hlive
    · exact ⟨c, mem_live.2 ⟨hmem, hlive⟩, rfl⟩

theorem evictRounds_stats (incoming cap : ℕ) : ∀ (fuel : ℕ) (s : VideoJitterBuffer)
    (stats : JitterStats), (evictRounds incoming cap fuel { s with stats }).buckets
      = (evictRounds incoming cap fuel s).buckets
  | 0, _, _ => rfl
  | fuel + 1, s, stats => by
    have hvictim : victim { s with stats } = s.victim := rfl
    simp only [VideoJitterBuffer.evictRounds, hvictim]
    split
    · rfl
    · rcases s.victim with _ | v
      · rfl
      · exact evictRounds_stats incoming cap fuel (s.evict v) _

theorem insert_of_accepted {pkt : InboundPacket} (h : pkt.Accepted) :
    (s.insert pkt).1
      = let r := findOrCreateBucket
          { s with stats := { s.stats with packetsInserted := s.stats.packetsInserted + 1 } } pkt
        let stats := r.1.stats
        setBucket
          { r.1 with
            stats :=
              { stats with
                packetsReordered :=
                  stats.packetsReordered + if r.2.advances pkt then 0 else 1 } }
          (r.2.receive pkt) := by
  rw [VideoJitterBuffer.insert, if_neg h]

theorem insert_of_rejected {pkt : InboundPacket} (h : ¬ pkt.Accepted) : (s.insert pkt).1 = s := by
  rw [VideoJitterBuffer.insert, if_pos (not_not.1 h)]

theorem Mirrors.insert (h : Mirrors k s t) {pkt : InboundPacket}
    (hok : JitterCall.KeepsOrder k s (.insert pkt)) :
    Mirrors k (s.insert pkt).1 (t.insert (pkt.shift k)).1 := by
  by_cases hpkt : pkt.Accepted
  · rw [insert_of_accepted hpkt, insert_of_accepted ((pkt.accepted_shift k).2 hpkt)]
    have hcount := h.withStats fun stats =>
      { stats with packetsInserted := stats.packetsInserted + 1 }
    have hroom := evictRounds_stats 1 s.effectiveInflightCap s.buckets.length s
      { s.stats with packetsInserted := s.stats.packetsInserted + 1 }
    obtain ⟨hfound, hbucket⟩ := hcount.findOrCreateBucket fun hnone b hb hlive =>
      hok hpkt hnone b (hroom ▸ hb) hlive
    generalize hr : VideoJitterBuffer.findOrCreateBucket _ pkt = r at hfound hbucket ⊢
    generalize VideoJitterBuffer.findOrCreateBucket _ (pkt.shift k) = r' at hfound hbucket ⊢
    have hmem : r.2 ∈ r.1.buckets := hr ▸ findOrCreateBucket_mem _ pkt
    have hnote := hfound.withStats fun stats =>
      { stats with
        packetsReordered := stats.packetsReordered + if r.2.advances pkt then 0 else 1 }
    simp only [hbucket, FrameBucket.receive_shift]
    refine hnote.setBucket fun hlive => ⟨r.2, mem_live.2 ⟨hmem, ?_⟩, ?_⟩
    · rwa [FrameBucket.receive_emitted] at hlive
    · rw [FrameBucket.receive_rtpTimestamp]
  · rw [insert_of_rejected hpkt, insert_of_rejected ((pkt.accepted_shift k).not.2 hpkt)]
    exact h

/-! ### Emitting -/

theorem makeAssembled_shift (hcounter : t.frameSeqCounter = s.frameSeqCounter) (b : FrameBucket) :
    (t.makeAssembled (b.shift k)).2 = (s.makeAssembled b).2.shift k := by
  simp only [makeAssembled, hcounter]
  rfl

theorem Mirrors.nextReady (h : Mirrors k s t) (gateUs target : ℤ) :
    t.nextReady gateUs target = (s.nextReady gateUs target).map (.shift k) := by
  have hlive : ∀ u : VideoJitterBuffer, u.cfg.adaptive = false →
      u.nextReady gateUs target = u.live.find? fun b => b.complete := by
    intro u hu
    simp [VideoJitterBuffer.nextReady, hu, VideoJitterBuffer.live, List.find?_filter]
  rw [hlive s h.fixed, hlive t (h.cfg ▸ h.fixed), h.live, List.find?_map]
  rfl

theorem Mirrors.handOut (h : Mirrors k s t) (b : FrameBucket) (f : JitterStats → JitterStats) :
    Mirrors k
      (VideoJitterBuffer.setBucket
        { s with stats := f s.stats, frameSeqCounter := s.frameSeqCounter + 1 } b.handedOut)
      (VideoJitterBuffer.setBucket
        { t with stats := f t.stats, frameSeqCounter := t.frameSeqCounter + 1 }
        (b.shift k).handedOut) := by
  have hcount : Mirrors k { s with stats := f s.stats, frameSeqCounter := s.frameSeqCounter + 1 }
      { t with stats := f t.stats, frameSeqCounter := t.frameSeqCounter + 1 } :=
    h.of_buckets rfl h.cfg h.sorted h.sorted' h.buckets (fun b hb => ⟨b, hb, rfl⟩) h.pending
      (by rw [h.counter]) (congrArg f h.stats)
  refine hcount.setBucket fun hlive => ?_
  simp [FrameBucket.handedOut] at hlive

theorem popReady_of_pending {out : AssembledFrame} {rest : List AssembledFrame}
    (h : s.pendingIncomplete = out :: rest) (gateUs target : ℤ) :
    s.popReady gateUs target = ({ s with pendingIncomplete := rest }, some out) := by
  unfold VideoJitterBuffer.popReady
  split
  · rename_i h'
    rw [h] at h'
    cases h'
    rfl
  · rename_i h'
    rw [h] at h'
    cases h'

theorem popReady_of_nextReady {gateUs target : ℤ} (h : s.pendingIncomplete = []) :
    s.popReady gateUs target = match s.nextReady gateUs target with
      | none => (s, none)
      | some b =>
        (VideoJitterBuffer.setBucket
          { s with
            stats := { s.stats with framesEmitted := s.stats.framesEmitted + 1 }
            frameSeqCounter := s.frameSeqCounter + 1 } b.handedOut,
          some (s.makeAssembled b).2) := by
  unfold VideoJitterBuffer.popReady
  split
  · rename_i h'
    rw [h] at h'
    cases h'
  · rfl

theorem Mirrors.popReady (h : Mirrors k s t) (gateUs target : ℤ) :
    Mirrors k (s.popReady gateUs target).1 (t.popReady gateUs target).1
      ∧ (t.popReady gateUs target).2 = (s.popReady gateUs target).2.map (.shift k) := by
  have hpending' := h.pending
  rcases hpending : s.pendingIncomplete with _ | ⟨out, rest⟩
  · rw [hpending] at hpending'
    rw [popReady_of_nextReady hpending, popReady_of_nextReady hpending', h.nextReady]
    rcases s.nextReady gateUs target with _ | b
    · exact ⟨h, rfl⟩
    · refine ⟨h.handOut b fun stats => { stats with framesEmitted := stats.framesEmitted + 1 }, ?_⟩
      exact congrArg some (makeAssembled_shift h.counter b)
  · rw [hpending] at hpending'
    rw [popReady_of_pending hpending, popReady_of_pending hpending']
    exact ⟨h.of_buckets rfl h.cfg h.sorted h.sorted' h.buckets (fun b hb => ⟨b, hb, rfl⟩) rfl
      h.counter h.stats, rfl⟩

/-- The part of a mirror that the loop of `tick` keeps, with the buckets in the same places. -/
structure Sweeps (k : UInt32) (s t : VideoJitterBuffer) : Prop where
  cfg : t.cfg = s.cfg
  buckets : t.buckets = s.buckets.map (.shift k)
  pending : t.pendingIncomplete = s.pendingIncomplete.map (.shift k)
  counter : t.frameSeqCounter = s.frameSeqCounter
  stats : t.stats = s.stats

theorem Sweeps.tickBucket (h : Sweeps k s t) (nowUs : ℤ) (b : FrameBucket) :
    Sweeps k (s.tickBucket nowUs b) (t.tickBucket nowUs (b.shift k)) := by
  have hstale : (!(b.shift k).complete ∧ (t.cfg.maxWaitMs : ℤ)
        ≤ (nowUs - (b.shift k).firstArrivalUs).tdiv 1000)
      ↔ (!b.complete ∧ (s.cfg.maxWaitMs : ℤ) ≤ (nowUs - b.firstArrivalUs).tdiv 1000) := by
    rw [h.cfg]
    exact Iff.rfl
  simp only [VideoJitterBuffer.tickBucket, FrameBucket.shift_emitted, hstale]
  split
  · exact h
  · split
    · refine ⟨h.cfg, ?_, ?_, ?_, ?_⟩
      · simp [makeAssembled, h.buckets, FrameBucket.handedOut_shift]
      · simp only [makeAssembled, h.pending, h.counter, List.map_append]
        rfl
      · simp [makeAssembled, h.counter]
      · simp [makeAssembled, h.stats]
    · exact ⟨h.cfg, by simp [h.buckets], h.pending, h.counter, h.stats⟩

theorem Sweeps.foldl_tickBucket (nowUs : ℤ) : ∀ (bs : List FrameBucket) {s t : VideoJitterBuffer},
    Sweeps k s t →
      Sweeps k (bs.foldl (VideoJitterBuffer.tickBucket nowUs) s)
        ((bs.map (.shift k)).foldl (VideoJitterBuffer.tickBucket nowUs) t)
  | [], _, _, h => h
  | b :: bs, _, _, h => Sweeps.foldl_tickBucket nowUs bs (h.tickBucket nowUs b)

/-- The loop of `tick` reaps the tombstones and keeps the other buckets in their places. -/
theorem foldl_tickBucket_live (nowUs : ℤ) : ∀ (bs : List FrameBucket) (s : VideoJitterBuffer),
    bs.foldl (tickBucket nowUs) s = (bs.filter fun b => !b.emitted).foldl (tickBucket nowUs) s
      ∧ (bs.foldl (tickBucket nowUs) s).buckets.map (·.rtpTimestamp)
        = s.buckets.map (·.rtpTimestamp)
          ++ (bs.filter fun b => !b.emitted).map (·.rtpTimestamp)
  | [], s => by simp
  | b :: bs, s => by
    obtain ⟨hfold, hkeys⟩ := foldl_tickBucket_live nowUs bs (s.tickBucket nowUs b)
    rw [List.foldl_cons, hkeys]
    cases hb : b.emitted
    · rw [List.filter_cons_of_pos (by simp [hb]), List.foldl_cons]
      refine ⟨hfold, ?_⟩
      have hkey : (s.tickBucket nowUs b).buckets.map (·.rtpTimestamp)
          = s.buckets.map (·.rtpTimestamp) ++ [b.rtpTimestamp] := by
        simp only [tickBucket, hb]
        split
        · simp at *
        · split <;> simp [makeAssembled, FrameBucket.handedOut]
      rw [hkey]
      simp
    · rw [List.filter_cons_of_neg (by simp [hb])]
      have hskip : s.tickBucket nowUs b = s := by simp [tickBucket, hb]
      rw [hskip] at hfold ⊢
      exact ⟨hfold, rfl⟩

theorem foldl_tickBucket_cfg (nowUs : ℤ) : ∀ (bs : List FrameBucket) (s : VideoJitterBuffer),
    (bs.foldl (tickBucket nowUs) s).cfg = s.cfg
  | [], _ => rfl
  | b :: bs, s => by
    rw [List.foldl_cons, foldl_tickBucket_cfg nowUs bs, tickBucket]
    split
    · rfl
    · split <;> rfl

theorem swept_keys (s : VideoJitterBuffer) (nowUs : ℤ) :
    (s.swept nowUs).buckets.map (·.rtpTimestamp) = s.live.map (·.rtpTimestamp) := by
  exact (foldl_tickBucket_live nowUs s.buckets { s with buckets := [] }).2

theorem Sorted.swept (h : s.Sorted) (nowUs : ℤ) : (s.swept nowUs).Sorted := by
  have hlive : (s.live.map (·.rtpTimestamp)).Pairwise (· < ·) := by
    rw [List.pairwise_map]
    exact List.Pairwise.sublist List.filter_sublist h
  rw [← swept_keys s nowUs, List.pairwise_map] at hlive
  exact hlive

theorem Mirrors.swept (h : Mirrors k s t) (nowUs : ℤ) :
    Mirrors k (s.swept nowUs) (t.swept nowUs) := by
  have hstart : Sweeps k { s with buckets := [] } { t with buckets := [] } :=
    ⟨h.cfg, rfl, h.pending, h.counter, h.stats⟩
  have hsweeps : Sweeps k (s.swept nowUs) (t.swept nowUs) := by
    have hfold := hstart.foldl_tickBucket nowUs s.live
    rw [← h.live] at hfold
    rw [VideoJitterBuffer.swept, VideoJitterBuffer.swept,
      (foldl_tickBucket_live nowUs s.buckets _).1, (foldl_tickBucket_live nowUs t.buckets _).1]
    exact hfold
  refine h.of_buckets (foldl_tickBucket_cfg nowUs _ _) hsweeps.cfg (h.sorted.swept nowUs)
    (h.sorted'.swept nowUs) (List.Perm.of_eq hsweeps.buckets) (fun b hb => ?_) hsweeps.pending
    hsweeps.counter hsweeps.stats
  have hkey : b.rtpTimestamp ∈ s.live.map (·.rtpTimestamp) := by
    rw [← swept_keys s nowUs]
    exact List.mem_map_of_mem (mem_live.1 hb).1
  exact List.mem_map.1 hkey

theorem Mirrors.tick (h : Mirrors k s t) (nowUs : ℤ) : Mirrors k (s.tick nowUs) (t.tick nowUs) :=
  ((h.swept nowUs).enforceInflightCap 0).1

theorem sortSeqs_shift (b : FrameBucket) : sortSeqs (b.shift k) = (sortSeqs b).shift k := by
  have hnackable : nackable (b.shift k) = nackable b := rfl
  simp only [sortSeqs, hnackable]
  split <;> rfl

theorem sortSeqs_live (b : FrameBucket) :
    (sortSeqs b).rtpTimestamp = b.rtpTimestamp ∧ (sortSeqs b).emitted = b.emitted := by
  rw [sortSeqs]
  split <;> exact ⟨rfl, rfl⟩

theorem sorted_map_sortSeqs (h : s.Sorted) :
    (s.buckets.map sortSeqs).Pairwise fun b c => b.rtpTimestamp < c.rtpTimestamp := by
  rw [List.pairwise_map]
  refine List.Pairwise.imp (fun hlt => ?_) h
  rwa [(sortSeqs_live _).1, (sortSeqs_live _).1]

theorem Mirrors.popNackEntries (h : Mirrors k s t) :
    Mirrors k s.popNackEntries.1 t.popNackEntries.1 := by
  have hsort : (t.buckets.map sortSeqs).Perm ((s.buckets.map sortSeqs).map (.shift k)) := by
    have hmap := h.buckets.map sortSeqs
    rw [List.map_map] at hmap ⊢
    exact hmap.trans (List.Perm.of_eq (List.map_congr_left fun b _ => sortSeqs_shift b))
  -- as many numbers are missing on both sides, in whichever order
  have hnacks : (((t.buckets.map sortSeqs).filter nackable).flatMap fun b =>
        (b.receivedSeqs.foldl nackStep (b.firstSeq, [])).2).length
      = (((s.buckets.map sortSeqs).filter nackable).flatMap fun b =>
        (b.receivedSeqs.foldl nackStep (b.firstSeq, [])).2).length := by
    have hperm := (hsort.filter nackable).flatMap_right
      fun b => (b.receivedSeqs.foldl nackStep (b.firstSeq, [])).2
    rw [hperm.length_eq, List.filter_map, List.flatMap_map]
    rfl
  simp only [VideoJitterBuffer.popNackEntries, h.cfg]
  split
  · exact h
  · refine h.of_buckets rfl rfl (sorted_map_sortSeqs h.sorted) (sorted_map_sortSeqs h.sorted')
      hsort (fun c hc => ?_) h.pending h.counter (by simp only [h.stats, hnacks])
    obtain ⟨hmem, hlive⟩ := mem_live.1 hc
    obtain ⟨b, hb, rfl⟩ := List.mem_map.1 hmem
    rw [(sortSeqs_live b).2] at hlive
    exact ⟨b, mem_live.2 ⟨hb, hlive⟩, (sortSeqs_live b).1.symm⟩

/-! ### Runs -/

theorem mirrors_empty (k : UInt32) {cfg : JitterConfig} (hfixed : cfg.adaptive = false) :
    Mirrors k { cfg } { cfg } where
  fixed := hfixed
  cfg := rfl
  sorted := List.Pairwise.nil
  sorted' := List.Pairwise.nil
  buckets := List.Perm.nil
  order := by simp [live]
  pending := rfl
  counter := rfl
  stats := rfl

theorem Mirrors.evicted (h : Mirrors k s t) (call : JitterCall) :
    t.evicted (call.shift k) = (s.evicted call).map (.shift k) := by
  cases call with
  | insert pkt =>
    simp only [VideoJitterBuffer.evicted, JitterCall.shift, InboundPacket.accepted_shift,
      InboundPacket.shift_rtpTimestamp, h.findBucket, Option.map_eq_none_iff]
    split
    · exact (h.enforceInflightCap 1).2
    · rfl
  | tick nowUs => exact ((h.swept nowUs).enforceInflightCap 0).2
  | popFrame | popFrameAt nowUs target | popNackEntries | reset => rfl

theorem Mirrors.step (h : Mirrors k s t) (call : JitterCall) (hok : call.KeepsOrder k s) :
    Mirrors k (s.step call).1 (t.step (call.shift k)).1
      ∧ (t.step (call.shift k)).2 = (s.step call).2.map (.shift k) := by
  have hpop : ∀ gateUs target, (t.popReady gateUs target).2.toList
      = (s.popReady gateUs target).2.toList.map (.shift k) := by
    intro gateUs target
    rw [(h.popReady gateUs target).2, Option.toList_map]
  cases call with
  | insert pkt => exact ⟨h.insert hok, rfl⟩
  | popFrame => exact ⟨(h.popReady _ _).1, hpop _ _⟩
  | popFrameAt nowUs target => exact ⟨(h.popReady _ _).1, hpop _ _⟩
  | popNackEntries => exact ⟨h.popNackEntries, rfl⟩
  | tick nowUs => exact ⟨h.tick nowUs, rfl⟩
  | reset =>
    refine ⟨?_, rfl⟩
    show Mirrors k s.reset t.reset
    rw [reset, reset, h.cfg]
    exact mirrors_empty k h.fixed

theorem Mirrors.play (h : Mirrors k s t) (call : JitterCall) (hok : call.KeepsOrder k s) :
    Mirrors k (s.play call).1 (t.play (call.shift k)).1
      ∧ (t.play (call.shift k)).2 = (s.play call).2.map (.shift k) := by
  obtain ⟨hnext, hout⟩ := h.step call hok
  refine ⟨hnext, ?_⟩
  simp only [VideoJitterBuffer.play, h.evicted, hout, List.map_append, List.map_map]
  rfl

/-- In fixed-window mode, moving every timestamp of a run moves the frames that are returned and
evicted and changes nothing else, as long as no packet that opens a bucket changes sides. -/
theorem played_shift (k : UInt32) (cfg : JitterConfig) (hfixed : cfg.adaptive = false)
    (calls : List JitterCall)
    (hside : player.Meets (fun s call => call.KeepsOrder k s) (create cfg) calls) :
    played cfg (calls.map (.shift k)) = (played cfg calls).map (.shift k) := by
  have hstart : Mirrors k (create cfg) (create cfg) := mirrors_empty k hfixed
  exact (Machine.exec_sim (R := Mirrors k) (fun _ _ call h hok => h.play call hok) calls hstart
    hside).2

def shortFrame (ts : UInt32) : SentFrame where
  ssrc := 7
  rtpTimestamp := ts
  firstSeq := 10
  codec := .vp8
  payloads := [[1]]

/-- Two frames that are in the buffer one after the other, the second one twice. -/
def alternatingRun : List JitterCall :=
  [.insert ⟨shortFrame 10, 0, 0, by decide⟩, .popFrame, .insert ⟨shortFrame 11, 0, 10, by decide⟩,
    .tick 20, .insert ⟨shortFrame 11, 0, 30, by decide⟩, .popFrameAt 40 0]

/-- The wrap falls between the two frames. -/
theorem played_shift_alternating :
    (frames {} (alternatingRun.map (.shift (-11)))).map (·.rtpTimestamp) = [0xFFFFFFFF, 0]
      ∧ played {} (alternatingRun.map (.shift (-11)))
        = (played {} alternatingRun).map (.shift (-11)) :=
  ⟨by decide, played_shift (-11) {} rfl alternatingRun (by decide)⟩

/-- Two frames that are in the buffer together. -/
def togetherRun : List JitterCall :=
  [.insert ⟨shortFrame 10, 0, 0, by decide⟩, .insert ⟨shortFrame 11, 0, 10, by decide⟩, .popFrame]

theorem wrap_changes_played :
    ¬ ∀ k cfg calls, cfg.adaptive = false → SpanHalf (calls.flatMap JitterCall.timestamps) →
      played cfg (calls.map (.shift k)) = (played cfg calls).map (.shift k) := by
  intro h
  have hspan : SpanHalf (togetherRun.flatMap JitterCall.timestamps) := by
    refine ⟨0, fun ts hts => ?_⟩
    have hts : ts = 10 ∨ ts = 11 := by
      simpa [togetherRun, JitterCall.timestamps, InboundPacket.rtpTimestamp, shortFrame] using hts
    rcases hts with rfl | rfl <;> simp
  have hmoved := congrArg (List.map Played.timestamp) (h (-11) {} togetherRun rfl hspan)
  have hout : (played {} (togetherRun.map (.shift (-11)))).map Played.timestamp = [0] := by
    decide
  have hout' : ((played {} togetherRun).map (.shift (-11))).map Played.timestamp
      = [0xFFFFFFFF] := by decide
  rw [hout, hout'] at hmoved
  simp at hmoved

end VideoJitterBuffer

end NimRtc
