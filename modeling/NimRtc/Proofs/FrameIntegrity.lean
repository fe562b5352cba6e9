import NimRtc.VideoJitterRuns
import NimRtc.Proofs.H264Units

/-!
# Frames handed out as complete

The bytes of a bucket are the merged payloads of the packets it took, as long as these can be merged
(`Tracks`). So a bucket whose marker came in sequence holds its frame, and nothing that comes later
in sequence changes it (`Whole`). Along a run in sequence every bucket with a marker is one of
these, and only buckets without a marker are given up as incomplete.
-/

namespace NimRtc

/-! ## Merging payloads -/

namespace FrameBucket

def naluHdr (b : FrameBucket) : UInt8 := b.fuANri <<< (5 : UInt8) ||| b.fuANaluType &&& 0x1F

/-- The bucket's buffers are what is merged so far. -/
structure Shows (b : FrameBucket) (m : Merging) : Prop where
  bitstream : b.bitstream = m.out
  inProgress : b.fuAInProgress = m.unit.isSome
  unit : ∀ u ∈ m.unit, u = b.naluHdr :: b.fuABuf

end FrameBucket

theorem nri_shift (indicator : UInt8) (h : indicator &&& 0x80 = 0) :
    ((indicator &&& 0x60) >>> 5) <<< (5 : UInt8) = indicator &&& 0xE0 := by
  revert indicator
  exact forall_uint8 (by decide)

theorem type_mask (header : UInt8) : header &&& 0x1F &&& 0x1F = header &&& 0x1F := by
  revert header
  exact forall_uint8 (by decide)

theorem Merging.step_cases {codec : CodecKind} {m m' : Merging} {payload : List UInt8}
    (h : Merging.step codec m payload = some m') :
    (∃ fu unit, codec = .h264 ∧ isFuA payload = true ∧ H264.parseFuAHeader payload = some fu
        ∧ fragment m.unit fu = some unit
        ∧ m' = if fu.fuHeader &&& 0x40 ≠ 0 then { out := m.out ++ unit }
          else { m with unit := some unit })
      ∨ ¬ (codec = .h264 ∧ isFuA payload) ∧ m.unit = none ∧ m' = { out := m.out ++ payload } := by
  simp only [step] at h
  split at h
  · rename_i hfu
    obtain ⟨fu, hparse, h⟩ := Option.bind_eq_some_iff.1 h
    obtain ⟨unit, hunit, h⟩ := Option.map_eq_some_iff.1 h
    exact .inl ⟨fu, unit, hfu.1, hfu.2, hparse, hunit, h.symm⟩
  · rename_i hfu
    split at h
    · rename_i hunit
      simp only [Option.some.injEq] at h
      exact .inr ⟨hfu, hunit, h.symm⟩
    · simp at h

/-- A start opens a unit where there is none, and any other fragment goes on with one. -/
theorem Merging.fragment_cases {unit : Option (List UInt8)} {fu : H264.FuAHeader}
    {unit' : List UInt8} (h : fragment unit fu = some unit') :
    (fu.fuHeader &&& 0x80 ≠ 0 ∧ fu.fuIndicator &&& 0x80 = 0
        ∧ unit' = (fu.fuIndicator &&& 0xE0 ||| fu.fuHeader &&& 0x1F) :: fu.fragment)
      ∨ fu.fuHeader &&& 0x80 = 0 ∧ ∃ u, unit = some u ∧ unit' = u ++ fu.fragment := by
  simp only [fragment] at h
  split at h
  · rename_i hstart
    split at h
    · rename_i hclear
      simp only [Option.some.injEq] at h
      exact .inl ⟨hstart, hclear.2, h.symm⟩
    · simp at h
  · rename_i hstart
    obtain ⟨u, hu, h⟩ := Option.map_eq_some_iff.1 h
    exact .inr ⟨not_not.1 hstart, u, hu, h.symm⟩

namespace FrameBucket

/-- A bucket with one more fragment of the unit in `fu_a_buf`. -/
def withFragment (b : FrameBucket) (fu : H264.FuAHeader) : FrameBucket :=
  if fu.fuHeader &&& 0x40 ≠ 0 then
    { b with
      fuABuf := b.fuABuf ++ fu.fragment
      bitstream := b.bitstream ++ b.naluHdr :: (b.fuABuf ++ fu.fragment)
      fuAInProgress := false }
  else { b with fuABuf := b.fuABuf ++ fu.fragment }

def withUnit (b : FrameBucket) (fu : H264.FuAHeader) : FrameBucket :=
  { b with
    fuAInProgress := true
    fuANaluType := fu.fuHeader &&& 0x1F
    fuANri := (fu.fuIndicator &&& 0x60) >>> 5
    fuABuf := [] }

theorem appendFuAFragment_start {b : FrameBucket} {payload : List UInt8} {fu : H264.FuAHeader}
    (hparse : H264.parseFuAHeader payload = some fu) (hstart : fu.fuHeader &&& 0x80 ≠ 0) :
    b.appendFuAFragment payload = (b.withUnit fu).withFragment fu := by
  simp [appendFuAFragment, withFragment, withUnit, naluHdr, hparse, hstart]

theorem appendFuAFragment_next {b : FrameBucket} {payload : List UInt8} {fu : H264.FuAHeader}
    (hparse : H264.parseFuAHeader payload = some fu) (hstart : fu.fuHeader &&& 0x80 = 0)
    (hopen : b.fuAInProgress = true) : b.appendFuAFragment payload = b.withFragment fu := by
  simp [appendFuAFragment, withFragment, naluHdr, hparse, hstart, hopen]

theorem appendFuAFragment_of_dropsFragment {b : FrameBucket} {payload : List UInt8}
    (h : b.dropsFragment payload = true) : b.appendFuAFragment payload = b := by
  rcases hparse : H264.parseFuAHeader payload with _ | fu
  · simp [appendFuAFragment, hparse]
  · simp only [dropsFragment, hparse, Bool.and_eq_true, decide_eq_true_eq, Bool.not_eq_true'] at h
    simp [appendFuAFragment, hparse, h.1, h.2]

theorem shows_withFragment {b : FrameBucket} {m : Merging} (fu : H264.FuAHeader)
    (hout : b.bitstream = m.out) (hopen : b.fuAInProgress = true) :
    (b.withFragment fu).Shows
      (if fu.fuHeader &&& 0x40 ≠ 0 then
        { out := m.out ++ b.naluHdr :: (b.fuABuf ++ fu.fragment) }
      else { m with unit := some (b.naluHdr :: (b.fuABuf ++ fu.fragment)) }) := by
  by_cases hend : fu.fuHeader &&& 0x40 ≠ 0
  · simp only [withFragment, if_pos hend]
    exact ⟨by rw [hout], rfl, by simp⟩
  · simp only [withFragment, if_neg hend]
    exact ⟨hout, hopen, by simp [naluHdr]⟩

/-- What can be merged is merged by the bucket. -/
theorem shows_appendPayload {b : FrameBucket} {m m' : Merging} {codec : CodecKind}
    {payload : List UInt8} (hb : b.Shows m) (h : Merging.step codec m payload = some m') :
    (b.appendPayload codec payload).Shows m' := by
  rcases Merging.step_cases h with ⟨fu, unit, hcodec, hfu, hparse, hunit, rfl⟩ | ⟨hfu, hnone, rfl⟩
  · rw [appendPayload, if_pos ⟨hcodec, hfu⟩]
    rcases Merging.fragment_cases hunit with ⟨hstart, hclear, rfl⟩ | ⟨hstart, u, hu, rfl⟩
    · rw [appendFuAFragment_start hparse hstart]
      have hhdr : (b.withUnit fu).naluHdr = fu.fuIndicator &&& 0xE0 ||| fu.fuHeader &&& 0x1F := by
        simp only [naluHdr, withUnit, nri_shift _ hclear, type_mask]
      have hshows := shows_withFragment (b := b.withUnit fu) fu hb.bitstream rfl
      rwa [hhdr] at hshows
    · have hopen : b.fuAInProgress = true := by rw [hb.inProgress, hu]; rfl
      rw [appendFuAFragment_next hparse hstart hopen, hb.unit u hu]
      exact shows_withFragment fu hb.bitstream hopen
  · rw [appendPayload, if_neg hfu]
    refine ⟨by rw [hb.bitstream], ?_, by simp⟩
    rw [hb.inProgress, hnone]

theorem not_drops_of_step {b : FrameBucket} {m m' : Merging} {pkt : InboundPacket} (hb : b.Shows m)
    (h : Merging.step pkt.codec m pkt.payload = some m') : b.drops pkt = false := by
  rcases Merging.step_cases h with ⟨fu, unit, -, -, hparse, hunit, -⟩ | ⟨hfu, -, -⟩
  · rcases Merging.fragment_cases hunit with ⟨hstart, -, -⟩ | ⟨-, u, hu, -⟩
    · simp [drops, dropsFragment, hparse, hstart]
    · simp [drops, dropsFragment, hparse, hb.inProgress, hu]
  · simp only [drops, Bool.and_eq_false_iff, decide_eq_false_iff_not]
    refine .inl ?_
    rcases not_and_or.1 hfu with hcodec | hfu
    · exact .inl hcodec
    · exact .inr (by simpa using hfu)

end FrameBucket

/-! ## Packets in sequence -/

def mergeAll (pkts : List InboundPacket) : Option Merging :=
  pkts.foldlM (fun m pkt => Merging.step pkt.codec m pkt.payload) {}

theorem mergeAll_snoc (pkts : List InboundPacket) (pkt : InboundPacket) :
    mergeAll (pkts ++ [pkt])
      = (mergeAll pkts).bind fun m => Merging.step pkt.codec m pkt.payload := by
  simp [mergeAll, List.foldlM_append]

namespace InboundPacket

variable {pkt : InboundPacket} {taken : List InboundPacket}

/-- A packet with the marker and the ones before it are the frame. -/
theorem Follows.frame (h : pkt.Follows taken) (hm : pkt.marker = true) :
    (taken ++ [pkt]).map (fun p => (p.frame, p.index))
      = (List.range pkt.frame.payloads.length).map fun i => (pkt.frame, i) := by
  have hlen : pkt.frame.payloads.length = pkt.index + 1 := by
    simpa [marker] using (of_decide_eq_true hm).symm
  rw [hlen, List.range_succ, List.map_append, List.map_append, h]
  rfl

theorem Follows.payloads (h : pkt.Follows taken) (hm : pkt.marker = true) :
    (taken ++ [pkt]).map (fun p => (p.codec, p.payload))
      = pkt.frame.payloads.map fun payload => (pkt.frame.codec, payload) := by
  have hread : ∀ p : InboundPacket,
      (p.codec, p.payload) = (p.frame.codec, p.frame.payloads.getD p.index []) := by
    intro p
    rw [List.getD_eq_getElem _ _ p.index_lt]
    rfl
  calc (taken ++ [pkt]).map (fun p => (p.codec, p.payload))
      = ((taken ++ [pkt]).map fun p => (p.frame, p.index)).map
          fun q => (q.1.codec, q.1.payloads.getD q.2 []) := by
        rw [List.map_map]
        exact List.map_congr_left fun p _ => hread p
    _ = pkt.frame.payloads.map fun payload => (pkt.frame.codec, payload) := by
        rw [h.frame hm, List.map_map]
        refine List.ext_getElem (by simp) fun i hi hi' => ?_
        simp only [List.length_map, List.length_range] at hi
        simp [hi]

/-- The frame that a packet ends is merged to what the packets are. -/
theorem Ends.mergeAll (h : pkt.Ends taken) (hm : pkt.marker = true) :
    ∃ out, NimRtc.mergeAll (taken ++ [pkt]) = some { out } ∧ pkt.frame.merged = some out := by
  have hall : NimRtc.mergeAll (taken ++ [pkt])
      = pkt.frame.payloads.foldlM (Merging.step pkt.frame.codec) {} := by
    have hpairs : NimRtc.mergeAll (taken ++ [pkt])
        = ((taken ++ [pkt]).map fun p => (p.codec, p.payload)).foldlM
            (fun m q => Merging.step q.1 m q.2) {} := by
      rw [List.foldlM_map]
      rfl
    rw [hpairs, h.1.payloads hm, List.foldlM_map]
  obtain ⟨out, hout⟩ := Option.ne_none_iff_exists'.1 h.2
  obtain ⟨m, hfold, hclosed⟩ := Option.bind_eq_some_iff.1 hout
  split at hclosed
  · rename_i hunit
    simp only [Option.some.injEq] at hclosed
    subst hclosed
    refine ⟨m.out, ?_, hout⟩
    rw [hall, hfold, ← hunit]
  · simp at hclosed

end InboundPacket

/-! ## Buckets -/

namespace FrameBucket

def Whole (b : FrameBucket) : Prop :=
  ∃ F : SentFrame, F.rtpTimestamp = b.rtpTimestamp
    ∧ (∀ i < F.payloads.length, ∃ pkt ∈ b.packets, pkt.frame = F ∧ pkt.index = i)
    ∧ b.fuAInProgress = false ∧ F.merged = some b.bitstream

/-- The buffers follow the packets that were taken. -/
structure Tracks (b : FrameBucket) : Prop where
  taken : b.taken ⊆ b.packets
  shows : ∀ m, mergeAll b.taken = some m → b.Shows m

/-- What a bucket is along a run in sequence, until its frame is handed out. -/
structure Sound (b : FrameBucket) : Prop extends b.Tracks where
  whole : b.markerSeen = true → b.Whole

theorem appendPayload_frame (b : FrameBucket) (codec : CodecKind) (payload : List UInt8) :
    ∃ bitstream fuAInProgress fuANaluType fuANri fuABuf, b.appendPayload codec payload
      = { b with bitstream, fuAInProgress, fuANaluType, fuANri, fuABuf } := by
  simp only [appendPayload, appendFuAFragment]
  split
  · split
    · exact ⟨_, _, _, _, _, rfl⟩
    · split_ifs <;> exact ⟨_, _, _, _, _, rfl⟩
  · exact ⟨_, _, _, _, _, rfl⟩

section receive

variable (b : FrameBucket) (pkt : InboundPacket)

@[simp] theorem receive_rtpTimestamp : (b.receive pkt).rtpTimestamp = b.rtpTimestamp := by
  obtain ⟨_, _, _, _, _, h⟩ := (b.note pkt).appendPayload_frame pkt.codec pkt.payload
  rw [receive, h]
  rfl

@[simp] theorem receive_emitted : (b.receive pkt).emitted = b.emitted := by
  obtain ⟨_, _, _, _, _, h⟩ := (b.note pkt).appendPayload_frame pkt.codec pkt.payload
  rw [receive, h]
  rfl

@[simp] theorem receive_markerSeen :
    (b.receive pkt).markerSeen = (b.markerSeen || pkt.marker) := by
  obtain ⟨_, _, _, _, _, h⟩ := (b.note pkt).appendPayload_frame pkt.codec pkt.payload
  rw [receive, h]
  rfl

@[simp] theorem receive_packets : (b.receive pkt).packets = b.packets ++ [pkt] := by
  obtain ⟨_, _, _, _, _, h⟩ := (b.note pkt).appendPayload_frame pkt.codec pkt.payload
  rw [receive, h]
  rfl

theorem receive_taken :
    (b.receive pkt).taken = if b.drops pkt then b.taken else b.taken ++ [pkt] := by
  obtain ⟨_, _, _, _, _, h⟩ := (b.note pkt).appendPayload_frame pkt.codec pkt.payload
  rw [receive, h]
  rfl

variable {b pkt}

theorem receive_of_drops (h : b.drops pkt = true) : b.receive pkt = b.note pkt := by
  simp only [drops, Bool.and_eq_true, decide_eq_true_eq] at h
  rw [receive, appendPayload, if_pos h.1]
  exact appendFuAFragment_of_dropsFragment (b := b.note pkt) h.2

theorem receive_of_empty (h : pkt.payload = []) : b.receive pkt = b.note pkt := by
  rw [receive, appendPayload, h, if_neg (by simp [isFuA]), List.append_nil]

end receive

variable {b : FrameBucket} {pkt : InboundPacket}

theorem Tracks.receive (hb : b.Tracks) (pkt : InboundPacket) : (b.receive pkt).Tracks := by
  by_cases hdrop : b.drops pkt = true
  · refine ⟨?_, fun m hm => ?_⟩
    · rw [receive_taken, if_pos hdrop, receive_packets]
      exact List.Subset.trans hb.taken (List.subset_append_left _ _)
    · rw [receive_taken, if_pos hdrop] at hm
      rw [receive_of_drops hdrop]
      obtain ⟨hout, hopen, hunit⟩ := hb.shows m hm
      exact ⟨hout, hopen, hunit⟩
  · refine ⟨?_, fun m' hm' => ?_⟩
    · rw [receive_taken, if_neg hdrop, receive_packets]
      exact List.append_subset.2 ⟨List.Subset.trans hb.taken (List.subset_append_left _ _),
        List.subset_append_right _ _⟩
    · rw [receive_taken, if_neg hdrop, mergeAll_snoc] at hm'
      obtain ⟨m, hm, hstep⟩ := Option.bind_eq_some_iff.1 hm'
      obtain ⟨hout, hopen, hunit⟩ := hb.shows m hm
      exact shows_appendPayload (b := b.note pkt) ⟨hout, hopen, hunit⟩ hstep

theorem Whole.receive (hb : b.Whole) (h : pkt.payload = [] ∨ b.drops pkt = true) :
    (b.receive pkt).Whole := by
  have hnote : b.receive pkt = b.note pkt := by
    rcases h with h | h
    · exact receive_of_empty h
    · exact receive_of_drops h
  obtain ⟨F, hts, hall, hopen, hout⟩ := hb
  rw [hnote]
  refine ⟨F, hts, fun i hi => ?_, hopen, hout⟩
  obtain ⟨p, hp, hframe⟩ := hall i hi
  exact ⟨p, List.mem_append_left _ hp, hframe⟩

/-- A packet that ends its frame makes the bucket whole. -/
theorem Tracks.whole_of_ends (hb : b.Tracks) (hts : b.rtpTimestamp = pkt.rtpTimestamp)
    (hm : pkt.marker = true) (h : pkt.Ends b.taken) : (b.receive pkt).Whole := by
  obtain ⟨out, hall, hmerged⟩ := h.mergeAll hm
  -- the last packet is merged onto the earlier ones, so it is not one that is dropped
  obtain ⟨m, hm₀, hstep⟩ := Option.bind_eq_some_iff.1 ((mergeAll_snoc _ _).symm.trans hall)
  have htaken : (b.receive pkt).taken = b.taken ++ [pkt] := by
    rw [receive_taken, not_drops_of_step (hb.shows m hm₀) hstep]
    rfl
  have hshows := (hb.receive pkt).shows _ (by rw [htaken, hall])
  refine ⟨pkt.frame, by rw [receive_rtpTimestamp, hts]; rfl, fun i hi => ?_, hshows.inProgress, ?_⟩
  · have hmem : (pkt.frame, i) ∈ (b.taken ++ [pkt]).map fun p => (p.frame, p.index) := by
      rw [h.1.frame hm]
      exact List.mem_map_of_mem (List.mem_range.2 hi)
    obtain ⟨p, hp, hpi⟩ := List.mem_map.1 hmem
    rw [← htaken] at hp
    exact ⟨p, (hb.receive pkt).taken hp, congrArg Prod.fst hpi, congrArg Prod.snd hpi⟩
  · rw [hshows.bitstream, hmerged]

theorem tracks_create (pkt : InboundPacket) : (create pkt).Tracks := by
  refine ⟨List.Subset.refl _, fun m hm => ?_⟩
  have hm : m = {} := by simpa [mergeAll, create] using hm.symm
  subst hm
  exact ⟨rfl, rfl, by simp⟩

theorem Sound.sortSeqs (hb : b.Sound) : (VideoJitterBuffer.sortSeqs b).Sound := by
  rw [VideoJitterBuffer.sortSeqs]
  split
  · refine ⟨⟨hb.taken, fun m hm => ?_⟩, hb.whole⟩
    obtain ⟨hout, hopen, hunit⟩ := hb.shows m hm
    exact ⟨hout, hopen, hunit⟩
  · exact hb

end FrameBucket

/-! ## The buffer -/

namespace VideoJitterBuffer

/-- The buckets whose frames are not handed out are sound, and the frames given up are marked as
incomplete. -/
structure Inv (s : VideoJitterBuffer) : Prop where
  buckets : ∀ b ∈ s.buckets, b.emitted = false → b.Sound
  pending : ∀ out ∈ s.pendingIncomplete, out.complete = false

variable {s s' : VideoJitterBuffer} {pkt : InboundPacket}

theorem Inv.mono (h : s.Inv) (hbuckets : s'.buckets ⊆ s.buckets)
    (hpending : s'.pendingIncomplete = s.pendingIncomplete) : s'.Inv := by
  refine ⟨fun b hb => h.buckets b (hbuckets hb), ?_⟩
  rw [hpending]
  exact h.pending

theorem mem_setBucket {b c : FrameBucket} (h : c ∈ (s.setBucket b).buckets) :
    c = b ∨ c ∈ s.buckets ∧ c.rtpTimestamp ≠ b.rtpTimestamp := by
  obtain ⟨d, hd, rfl⟩ := List.mem_map.1 h
  split
  · exact .inl rfl
  · rename_i hne
    exact .inr ⟨hd, hne⟩

theorem evictRounds_frame (incoming cap : ℕ) : ∀ (fuel : ℕ) (s : VideoJitterBuffer),
    (evictRounds incoming cap fuel s).buckets.Sublist s.buckets
      ∧ (evictRounds incoming cap fuel s).pendingIncomplete = s.pendingIncomplete
  | 0, s => ⟨List.Sublist.refl _, rfl⟩
  | fuel + 1, s => by
    simp only [evictRounds]
    split
    · exact ⟨List.Sublist.refl _, rfl⟩
    · split
      · exact ⟨List.Sublist.refl _, rfl⟩
      · rename_i v _
        obtain ⟨hbuckets, hpending⟩ := evictRounds_frame incoming cap fuel (s.evict v)
        exact ⟨hbuckets.trans List.filter_sublist, hpending⟩

theorem enforceInflightCap_frame (s : VideoJitterBuffer) (incoming : ℕ) :
    (s.enforceInflightCap incoming).buckets.Sublist s.buckets
      ∧ (s.enforceInflightCap incoming).pendingIncomplete = s.pendingIncomplete :=
  evictRounds_frame _ _ _ _

/-! ### Inserting -/

/-- The bucket is the one with the timestamp or a new one, and there is no other new one. -/
theorem findOrCreateBucket_spec (s : VideoJitterBuffer) (pkt : InboundPacket) :
    (s.findBucket pkt.rtpTimestamp = some (s.findOrCreateBucket pkt).2
        ∨ s.findBucket pkt.rtpTimestamp = none
          ∧ (s.findOrCreateBucket pkt).2 = FrameBucket.create pkt)
      ∧ (∀ c ∈ (s.findOrCreateBucket pkt).1.buckets,
          c ∈ s.buckets ∨ c = (s.findOrCreateBucket pkt).2)
      ∧ (s.findOrCreateBucket pkt).1.pendingIncomplete = s.pendingIncomplete := by
  obtain ⟨hbuckets, hpending⟩ := s.enforceInflightCap_frame 1
  rcases hfind : s.findBucket pkt.rtpTimestamp with _ | b
  · simp only [findOrCreateBucket, hfind, observeFrame]
    refine ⟨by simp, fun c hc => ?_, hpending⟩
    rcases (List.mem_orderedInsert _).1 hc with rfl | hc
    · exact .inr rfl
    · exact .inl (hbuckets.subset hc)
  · simp only [findOrCreateBucket, hfind]
    exact ⟨.inl trivial, fun c hc => .inl hc, trivial⟩

/-- The bucket of a packet is in the buffer. -/
theorem findOrCreateBucket_mem (s : VideoJitterBuffer) (pkt : InboundPacket) :
    (s.findOrCreateBucket pkt).2 ∈ (s.findOrCreateBucket pkt).1.buckets := by
  rcases hfind : s.findBucket pkt.rtpTimestamp with _ | b
  · simp only [findOrCreateBucket, hfind, observeFrame]
    exact (List.mem_orderedInsert _).2 (.inl rfl)
  · simp only [findOrCreateBucket, hfind]
    exact List.mem_of_find?_eq_some hfind

theorem Inv.receive (h : s.Inv) (hseq : s.InSequence pkt)
    (hlive : (s.findOrCreateBucket pkt).2.emitted = false) :
    ((s.findOrCreateBucket pkt).2.receive pkt).Sound := by
  obtain ⟨hfind | ⟨hfind, hnew⟩, -, -⟩ := s.findOrCreateBucket_spec pkt
  · generalize (s.findOrCreateBucket pkt).2 = b at hfind hlive
    have hts : b.rtpTimestamp = pkt.rtpTimestamp := by simpa using List.find?_some hfind
    have hb := h.buckets b (List.mem_of_find?_eq_some hfind) hlive
    refine ⟨hb.toTracks.receive pkt, fun hmarker => ?_⟩
    simp only [InSequence, hfind] at hseq
    rcases hseq with hemitted | ⟨hseen, hadds⟩ | ⟨hseen, hends⟩
    · rw [hlive] at hemitted
      simp at hemitted
    · exact (hb.whole hseen).receive hadds
    · have hm : pkt.marker = true := by simpa [hseen] using hmarker
      exact hb.toTracks.whole_of_ends hts hm (hends hm)
  · rw [hnew]
    refine ⟨(FrameBucket.tracks_create pkt).receive pkt, fun hmarker => ?_⟩
    have hm : pkt.marker = true := by
      simpa [FrameBucket.create] using hmarker
    simp only [InSequence, hfind] at hseq
    exact (FrameBucket.tracks_create pkt).whole_of_ends rfl hm (hseq hm)

theorem Inv.insert (h : s.Inv) (hseq : s.InSequence pkt) : (s.insert pkt).1.Inv := by
  rw [VideoJitterBuffer.insert]
  split
  · exact h
  · let s₁ : VideoJitterBuffer :=
      { s with stats := { s.stats with packetsInserted := s.stats.packetsInserted + 1 } }
    have h₁ : s₁.Inv := h.mono (List.Subset.refl _) rfl
    obtain ⟨-, hbuckets, hpending⟩ := s₁.findOrCreateBucket_spec pkt
    refine ⟨fun c hc hlive => ?_, fun out hout => h.pending out (hpending ▸ hout)⟩
    rcases mem_setBucket hc with rfl | ⟨hc, hne⟩
    · rw [FrameBucket.receive_emitted] at hlive
      exact h₁.receive hseq hlive
    · rcases hbuckets c hc with hc | rfl
      · exact h.buckets c hc hlive
      · exact absurd (FrameBucket.receive_rtpTimestamp _ _).symm hne

/-! ### Emitting -/

theorem foldl_earlier_mem : ∀ (l : List FrameBucket) {best : Option FrameBucket} {b : FrameBucket},
    l.foldl earlier best = some b → b ∈ l ∨ best = some b
  | [], _, _, h => .inr h
  | c :: l, best, b, h => by
    rcases foldl_earlier_mem l h with hb | hb
    · exact .inl (List.mem_cons_of_mem _ hb)
    · cases best with
      | none =>
        simp only [earlier, Option.some.injEq] at hb
        exact .inl (hb ▸ List.mem_cons_self)
      | some best =>
        simp only [earlier] at hb
        split at hb
        · simp only [Option.some.injEq] at hb
          exact .inl (hb ▸ List.mem_cons_self)
        · exact .inr hb

theorem nextReady_spec {gateUs target : ℤ} {b : FrameBucket} (h : s.nextReady gateUs target = some b) :
    b ∈ s.buckets ∧ b.emitted = false ∧ b.markerSeen = true := by
  simp only [nextReady] at h
  split at h
  · have hready := List.find?_some h
    simp only [FrameBucket.complete, Bool.and_eq_true, Bool.not_eq_true'] at hready
    exact ⟨List.mem_of_find?_eq_some h, hready.1, hready.2.1⟩
  · rcases foldl_earlier_mem _ h with hb | hb
    · obtain ⟨hb, hready⟩ := List.mem_filter.1 hb
      simp only [FrameBucket.complete, Bool.and_eq_true, Bool.not_eq_true'] at hready
      exact ⟨hb, hready.1.1, hready.1.2.1⟩
    · simp at hb

theorem Inv.popReady (h : s.Inv) (gateUs target : ℤ) :
    (s.popReady gateUs target).1.Inv
      ∧ ∀ out ∈ (s.popReady gateUs target).2, out.complete = true → out.Intact := by
  simp only [VideoJitterBuffer.popReady]
  split
  · rename_i out rest hpending
    have hincomplete : ∀ o ∈ out :: rest, o.complete = false := hpending ▸ h.pending
    refine ⟨⟨h.buckets, fun o ho => hincomplete o (List.mem_cons_of_mem _ ho)⟩, fun o ho hc => ?_⟩
    simp only [Option.mem_def, Option.some.injEq] at ho
    subst ho
    rw [hincomplete out List.mem_cons_self] at hc
    simp at hc
  · split
    · exact ⟨h, by simp⟩
    · rename_i b hready
      obtain ⟨hb, hlive, hmarker⟩ := nextReady_spec hready
      refine ⟨⟨fun c hc hlive' => ?_, h.pending⟩, fun o ho _ => ?_⟩
      · rcases mem_setBucket hc with rfl | ⟨hc, -⟩
        · simp [FrameBucket.handedOut] at hlive'
        · exact h.buckets c hc hlive'
      · simp only [Option.mem_def, Option.some.injEq] at ho
        subst ho
        exact (h.buckets b hb hlive).whole hmarker

/-- A bucket that is given up has no marker: one with a marker is whole, and so complete. -/
theorem Inv.tickBucket (h : s.Inv) {nowUs : ℤ} {b : FrameBucket}
    (hb : b.emitted = false → b.Sound) : (s.tickBucket nowUs b).Inv := by
  simp only [VideoJitterBuffer.tickBucket]
  split
  · exact h
  · rename_i hlive
    have hsound := hb (Bool.not_eq_true _ ▸ hlive)
    split
    · rename_i hstale
      refine ⟨fun c hc hlive' => ?_, fun out hout => ?_⟩
      · rcases List.mem_append.1 hc with hc | hc
        · exact h.buckets c hc hlive'
        · rw [List.mem_singleton.1 hc] at hlive'
          simp [FrameBucket.handedOut] at hlive'
      · rcases List.mem_append.1 hout with hout | hout
        · exact h.pending out hout
        · rw [List.mem_singleton.1 hout]
          by_contra hmarker
          rw [Bool.not_eq_false] at hmarker
          obtain ⟨F, -, -, hclosed, -⟩ := hsound.whole hmarker
          have hseen : b.markerSeen = true := hmarker
          simp [FrameBucket.complete, hseen, hclosed] at hstale
    · refine ⟨fun c hc hlive' => ?_, h.pending⟩
      rcases List.mem_append.1 hc with hc | hc
      · exact h.buckets c hc hlive'
      · rw [List.mem_singleton.1 hc]
        exact hsound

theorem Inv.foldl_tickBucket (nowUs : ℤ) : ∀ (bs : List FrameBucket) {s : VideoJitterBuffer},
    s.Inv → (∀ b ∈ bs, b.emitted = false → b.Sound) →
      (bs.foldl (VideoJitterBuffer.tickBucket nowUs) s).Inv
  | [], _, h, _ => h
  | b :: bs, _, h, hbs =>
    Inv.foldl_tickBucket nowUs bs (h.tickBucket (hbs b List.mem_cons_self))
      fun c hc => hbs c (List.mem_cons_of_mem _ hc)

theorem Inv.tick (h : s.Inv) (nowUs : ℤ) : (s.tick nowUs).Inv := by
  have hempty : ({ s with buckets := [] } : VideoJitterBuffer).Inv := ⟨by simp, h.pending⟩
  have hfold := Inv.foldl_tickBucket nowUs s.buckets hempty h.buckets
  obtain ⟨hbuckets, hpending⟩ := enforceInflightCap_frame
    (s.buckets.foldl (VideoJitterBuffer.tickBucket nowUs) { s with buckets := [] }) 0
  exact hfold.mono hbuckets.subset hpending

theorem Inv.popNackEntries (h : s.Inv) : s.popNackEntries.1.Inv := by
  rw [VideoJitterBuffer.popNackEntries]
  split
  · exact h
  · refine ⟨fun c hc hlive => ?_, h.pending⟩
    obtain ⟨b, hb, rfl⟩ := List.mem_map.1 hc
    have hemitted : (sortSeqs b).emitted = b.emitted := by
      rw [sortSeqs]
      split <;> rfl
    exact (h.buckets b hb (hemitted ▸ hlive)).sortSeqs

/-! ### Runs -/

theorem inv_create (cfg : JitterConfig) : (create cfg).Inv := ⟨by simp [create], by simp [create]⟩

theorem Inv.step (h : s.Inv) (call : JitterCall) (hok : call.InSequence s) :
    (s.step call).1.Inv ∧ ∀ out ∈ (s.step call).2, out.complete = true → out.Intact := by
  cases call with
  | insert pkt => exact ⟨h.insert hok, by simp [VideoJitterBuffer.step]⟩
  | popFrame =>
    obtain ⟨hinv, hout⟩ := h.popReady (-1) 0
    exact ⟨hinv, fun out ho => hout out (Option.mem_toList.1 ho)⟩
  | popFrameAt nowUs target =>
    obtain ⟨hinv, hout⟩ := h.popReady nowUs target
    exact ⟨hinv, fun out ho => hout out (Option.mem_toList.1 ho)⟩
  | popNackEntries => exact ⟨h.popNackEntries, by simp [VideoJitterBuffer.step]⟩
  | tick nowUs => exact ⟨h.tick nowUs, by simp [VideoJitterBuffer.step]⟩
  | reset =>
    exact ⟨⟨by simp [VideoJitterBuffer.step, reset], by simp [VideoJitterBuffer.step, reset]⟩,
      by simp [VideoJitterBuffer.step]⟩

/-- Along a run in sequence, every frame that is handed out as complete is intact. -/
theorem complete_frames_intact (cfg : JitterConfig) (calls : List JitterCall)
    (hseq : machine.Meets (fun s call => call.InSequence s) (create cfg) calls) :
    ∀ out ∈ frames cfg calls, out.complete = true → out.Intact :=
  (Machine.exec_inv (M := machine) (fun _ call h hok => h.step call hok) calls (inv_create cfg)
    hseq).2

/-- A unit in three fragments, across the wrap of the sequence numbers. -/
def fragmentedFrame : SentFrame where
  ssrc := 7
  rtpTimestamp := 3000
  firstSeq := 65534
  codec := .h264
  payloads := [[0x7C, 0x85, 1], [0x7C, 0x05, 2], [0x7C, 0x45, 3]]

/-- The fragments in order, and the second one again. -/
def fragmentedRun : List JitterCall :=
  [.insert ⟨fragmentedFrame, 0, 0, by decide⟩, .insert ⟨fragmentedFrame, 1, 10, by decide⟩,
    .insert ⟨fragmentedFrame, 2, 20, by decide⟩, .insert ⟨fragmentedFrame, 1, 30, by decide⟩,
    .tick 40, .popFrame]

theorem complete_frames_intact_fragmented :
    (frames {} fragmentedRun).map (fun out => (out.complete, out.bitstream))
        = [(true, [0x65, 1, 2, 3])]
      ∧ ∀ out ∈ frames {} fragmentedRun, out.complete = true → out.Intact :=
  ⟨by decide, complete_frames_intact {} fragmentedRun (by decide)⟩

def partitionedFrame : SentFrame where
  ssrc := 7
  rtpTimestamp := 3000
  firstSeq := 0
  codec := .vp8
  payloads := [[1], [2], [3]]

/-- The second packet is lost. -/
def lossyRun : List JitterCall :=
  [.insert ⟨partitionedFrame, 0, 0, by decide⟩, .insert ⟨partitionedFrame, 2, 10, by decide⟩,
    .popFrame]

theorem lost_packet_complete :
    ¬ ∀ cfg calls, ∀ out ∈ frames cfg calls, out.complete = true → out.Intact := by
  intro h
  have hrun : ∃ out ∈ frames {} lossyRun, out.complete = true
      ∧ out.bucket.packets.map (fun p => (p.frame, p.index))
        = [(partitionedFrame, 0), (partitionedFrame, 2)] := by decide
  obtain ⟨out, hout, hcomplete, hpackets⟩ := hrun
  obtain ⟨F, -, hall, -, -⟩ := h {} lossyRun out hout hcomplete
  have hmem : ∀ i < F.payloads.length,
      (F, i) ∈ [(partitionedFrame, 0), (partitionedFrame, 2)] := by
    intro i hi
    obtain ⟨p, hp, rfl, rfl⟩ := hall i hi
    exact hpackets ▸ List.mem_map_of_mem hp
  have hF : F = partitionedFrame := by
    have hfirst := hmem 0 (List.length_pos_iff.2 F.payloads_ne)
    simpa using hfirst
  subst hF
  have hsecond := hmem 1 (by decide)
  simp at hsecond

end VideoJitterBuffer

end NimRtc
