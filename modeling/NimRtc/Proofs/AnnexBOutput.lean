import NimRtc.Proofs.FragmentSplice
import NimRtc.Proofs.FrameIntegrity

/-!
# What the receiver labels as Annex B

The payload that goes to the frame callback is the NAL units of the frame one after the other, without
start codes. `parse_annex_b` gives back less than it is given, since it passes a start code at least,
so it never gives back the units.
-/

namespace NimRtc

/-! ### Reading Annex B -/

theorem le_findStart (code bs : List UInt8) {pos : ℕ} (h : pos ≤ bs.length) :
    pos ≤ findStart code bs pos := by
  rw [findStart]
  rcases hfind : (List.range' pos (bs.length - pos)).find? fun j =>
      (bs.drop j).take code.length = code with _ | j
  · simpa using h
  · have hj := List.mem_of_find?_eq_some hfind
    simp only [List.mem_range'_1] at hj
    exact hj.1

theorem three_le_startPrefixLen (bs : List UInt8) (start : ℕ) : 3 ≤ startPrefixLen bs start := by
  rw [startPrefixLen]
  split <;> omega

theorem length_annexBFrom (bs : List UInt8) : ∀ (fuel cursor : ℕ),
    (annexBFrom bs fuel cursor).flatten.length ≤ bs.length - cursor
  | 0, _ => by simp [annexBFrom]
  | fuel + 1, cursor => by
    simp only [annexBFrom]
    split
    · simp
    · rename_i hcursor
      have hle4 : cursor ≤ findNextStart4 bs cursor := le_findStart _ bs (by omega)
      have hle3 : cursor ≤ findNextStart bs cursor := le_findStart _ bs (by omega)
      generalize hnext : min (findNextStart4 bs cursor) (findNextStart bs cursor) = next
      have hnalu : (if cursor < next then [(bs.drop cursor).take (next - cursor)]
          else []).flatten.length ≤ min (next - cursor) (bs.length - cursor) := by
        split
        · simp
        · simp
      split
      · omega
      · have hrest := length_annexBFrom bs fuel (next + startPrefixLen bs next)
        have hprefix := three_le_startPrefixLen bs next
        rw [List.flatten_append, List.length_append]
        omega

/-- No byte string reads as units that are all of it. -/
theorem parseAnnexB_ne {bs : List UInt8} {units : List (List UInt8)} (h : bs = units.flatten)
    (hne : bs ≠ []) : parseAnnexB bs ≠ units := by
  intro heq
  have hlen : (parseAnnexB bs).flatten.length = bs.length := by rw [heq, h]
  have hpos := List.length_pos_of_ne_nil hne
  simp only [parseAnnexB] at hlen
  generalize (if findNextStart4 bs 0 = bs.length then findNextStart bs 0
    else findNextStart4 bs 0) = start at hlen
  split at hlen
  · simp at hlen
    omega
  · have hall := length_annexBFrom bs bs.length (start + startPrefixLen bs start)
    have hprefix := three_le_startPrefixLen bs start
    omega

/-! ### The jitter buffer -/

namespace VideoJitterBuffer

/-- The packets of the frame with timestamp `ts` were merged to `m`, without or with the marker. -/
structure Shown (s : VideoJitterBuffer) (ts : UInt32) (m : Merging) (seen : Bool) : Prop where
  pending : ∀ out ∈ s.pendingIncomplete, out.rtpTimestamp ≠ ts
  buckets : ∀ b ∈ s.buckets, b.rtpTimestamp = ts →
    b.Shows m ∧ b.emitted = false ∧ b.markerSeen = seen
  fresh : s.findBucket ts = none → m = {}

/-- What is left of the frame is all of it. -/
structure Whole (s : VideoJitterBuffer) (ts : UInt32) (out : List UInt8) : Prop where
  pending : ∀ f ∈ s.pendingIncomplete, f.rtpTimestamp ≠ ts
  buckets : ∀ b ∈ s.buckets, b.rtpTimestamp = ts → b.emitted = false → b.bitstream = out

variable {s : VideoJitterBuffer} {ts : UInt32} {m m' : Merging}

theorem Shown.receive (h : s.Shown ts m false) {pkt : InboundPacket} (hts : pkt.rtpTimestamp = ts)
    (hstep : Merging.step pkt.codec m pkt.payload = some m') :
    ((s.findOrCreateBucket pkt).2.receive pkt).Shows m'
      ∧ ((s.findOrCreateBucket pkt).2.receive pkt).emitted = false
      ∧ ((s.findOrCreateBucket pkt).2.receive pkt).markerSeen = pkt.marker := by
  have hbefore : ∃ b, (s.findOrCreateBucket pkt).2 = b ∧ b.Shows m ∧ b.emitted = false
      ∧ (b.markerSeen || pkt.marker) = pkt.marker := by
    obtain ⟨hfind | ⟨hfind, hnew⟩, -, -⟩ := s.findOrCreateBucket_spec pkt
    · have hb := List.mem_of_find?_eq_some hfind
      have hbts : (s.findOrCreateBucket pkt).2.rtpTimestamp = ts := by simpa [hts] using List.find?_some hfind
      obtain ⟨hshows, hlive, hseen⟩ := h.buckets _ hb hbts
      exact ⟨_, rfl, hshows, hlive, by rw [hseen]; rfl⟩
    · have hm : m = {} := h.fresh (hts ▸ hfind)
      subst hm
      exact ⟨_, hnew, ⟨rfl, rfl, by simp⟩, rfl, by simp [FrameBucket.create]⟩
  obtain ⟨b, hb, hshows, hlive, hseen⟩ := hbefore
  rw [hb]
  refine ⟨?_, by rw [FrameBucket.receive_emitted, hlive], by rw [FrameBucket.receive_markerSeen, hseen]⟩
  obtain ⟨hout, hopen, hunit⟩ := hshows
  exact FrameBucket.shows_appendPayload (b := b.note pkt) ⟨hout, hopen, hunit⟩ hstep

theorem findOrCreateBucket_key (s : VideoJitterBuffer) (pkt : InboundPacket) :
    (s.findOrCreateBucket pkt).2.rtpTimestamp = pkt.rtpTimestamp := by
  obtain ⟨hfind | ⟨-, hnew⟩, -, -⟩ := s.findOrCreateBucket_spec pkt
  · simpa using List.find?_some hfind
  · rw [hnew]
    rfl

/-- A packet of the frame is merged. -/
theorem Shown.insert (h : s.Shown ts m false) (pkt : InboundPacket) (hts : pkt.rtpTimestamp = ts)
    (haccepted : ¬ (pkt.payload = [] ∧ !pkt.marker))
    (hstep : Merging.step pkt.codec m pkt.payload = some m') :
    (s.insert pkt).1.Shown ts m' pkt.marker := by
  let s₁ : VideoJitterBuffer :=
    { s with stats := { s.stats with packetsInserted := s.stats.packetsInserted + 1 } }
  have h₁ : s₁.Shown ts m false := ⟨h.pending, h.buckets, h.fresh⟩
  obtain ⟨-, hbuckets, hpending⟩ := s₁.findOrCreateBucket_spec pkt
  have hmem := s₁.findOrCreateBucket_mem pkt
  have hkey := s₁.findOrCreateBucket_key pkt
  rw [VideoJitterBuffer.insert, if_neg haccepted]
  refine ⟨?_, fun c hc hcts => ?_, fun hnone => ?_⟩
  · intro out hout
    exact h.pending out (hpending ▸ hout)
  · rcases mem_setBucket hc with rfl | ⟨hc, hne⟩
    · exact h₁.receive hts hstep
    · rw [FrameBucket.receive_rtpTimestamp, hkey, hts] at hne
      exact absurd hcts hne
  · -- the bucket of the packet is there
    have hmem' : (s₁.findOrCreateBucket pkt).2.receive pkt
        ∈ ((s₁.findOrCreateBucket pkt).1.setBucket ((s₁.findOrCreateBucket pkt).2.receive pkt)).buckets :=
      List.mem_map.2 ⟨_, hmem, by simp⟩
    have hno := List.find?_eq_none.1 hnone _ hmem'
    rw [FrameBucket.receive_rtpTimestamp, hkey, hts] at hno
    simp at hno

/-- No frame of the timestamp is returned before its marker. -/
theorem Shown.popReady (h : s.Shown ts m false) (gateUs target : ℤ) :
    (s.popReady gateUs target).1.Shown ts m false
      ∧ ∀ f ∈ (s.popReady gateUs target).2, f.rtpTimestamp ≠ ts := by
  simp only [VideoJitterBuffer.popReady]
  split
  · rename_i out rest hpending
    refine ⟨⟨fun f hf => h.pending f (by rw [hpending]; exact List.mem_cons_of_mem _ hf), h.buckets,
      h.fresh⟩, fun f hf => ?_⟩
    obtain rfl := Option.mem_some.1 hf
    exact h.pending _ (by rw [hpending]; exact List.mem_cons_self)
  · split
    · exact ⟨h, by simp⟩
    · rename_i b hready
      obtain ⟨hb, hlive, hcomplete⟩ := nextReady_spec hready
      have hne : b.rtpTimestamp ≠ ts := by
        intro hbts
        obtain ⟨-, -, hseen⟩ := h.buckets b hb hbts
        simp [hseen] at hcomplete
      refine ⟨⟨h.pending, fun c hc hcts => ?_, fun hnone => ?_⟩, fun f hf => ?_⟩
      · rcases mem_setBucket hc with rfl | ⟨hc, -⟩
        · exact absurd hcts hne
        · exact h.buckets c hc hcts
      · refine h.fresh (List.find?_eq_none.2 fun c hc hcts => ?_)
        have hcts : c.rtpTimestamp = ts := by simpa using hcts
        have hkeep : (if c.rtpTimestamp = b.handedOut.rtpTimestamp then b.handedOut else c) = c :=
          if_neg fun heq => hne (heq.symm.trans hcts)
        have hmem : c ∈ (s.setBucket b.handedOut).buckets := List.mem_map.2 ⟨c, hc, hkeep⟩
        have hno := List.find?_eq_none.1 hnone c hmem
        simp [hcts] at hno
      · obtain rfl := Option.mem_some.1 hf
        exact hne

theorem Shown.whole (h : s.Shown ts m true) : s.Whole ts m.out :=
  ⟨h.pending, fun b hb hts _ => (h.buckets b hb hts).1.bitstream⟩

theorem Whole.popReady {out : List UInt8} (h : s.Whole ts out) (gateUs target : ℤ) :
    (s.popReady gateUs target).1.Whole ts out
      ∧ ∀ f ∈ (s.popReady gateUs target).2, f.rtpTimestamp = ts → f.bitstream = out := by
  simp only [VideoJitterBuffer.popReady]
  split
  · rename_i f rest hpending
    refine ⟨⟨fun f hf => h.pending f (by rw [hpending]; exact List.mem_cons_of_mem _ hf), h.buckets⟩,
      fun f hf hts => ?_⟩
    obtain rfl := Option.mem_some.1 hf
    exact absurd hts (h.pending _ (by rw [hpending]; exact List.mem_cons_self))
  · split
    · exact ⟨h, by simp⟩
    · rename_i b hready
      obtain ⟨hb, hlive, -⟩ := nextReady_spec hready
      refine ⟨⟨h.pending, fun c hc hcts hclive => ?_⟩, fun f hf hts => ?_⟩
      · rcases mem_setBucket hc with rfl | ⟨hc, -⟩
        · simp [FrameBucket.handedOut] at hclive
        · exact h.buckets c hc hcts hclive
      · obtain rfl := Option.mem_some.1 hf
        exact h.buckets b hb hts hlive

end VideoJitterBuffer

/-! ### The receiver -/

/-- What a payload of a frame adds to what is merged. -/
inductive Absorbs : Merging → List UInt8 → Merging → Prop
  | whole {out payload : List UInt8} (hsingle : H264.SingleType payload) :
    Absorbs { out } payload { out := out ++ payload }
  | stapA {out payload : List UInt8} {nalus : List (List UInt8)}
      (htype : VideoReceiver.peekNaluType payload = H264.kStapAType)
      (hparse : (H264.parseStapA payload).nalus.map (·.data) = nalus) (hne : nalus ≠ [])
      (hsingle : ∀ n ∈ nalus, H264.SingleType n) :
    Absorbs { out } payload { out := out ++ nalus.flatten }
  | fragment {m m' : Merging} {payload : List UInt8} (hfua : isFuA payload = true)
      (hstep : Merging.step .h264 m payload = some m')
      (hunit : ∀ unit, m'.out = m.out ++ unit → m'.unit = none →
        H264.SingleType unit ∧ unit.tail ≠ []) :
    Absorbs m payload m'

namespace VideoReceiver

variable {r : VideoReceiver} {ts : UInt32} {m m' : Merging}

def naluHdr (r : VideoReceiver) : UInt8 :=
  (r.fuaNri &&& 0x03) <<< 5 ||| (r.fuaNaluType &&& H264.kNaluTypeMask)

/-- The frame with timestamp `ts` is merged to `m`: a unit in parts is in the receiver or, where that
does not put units together, in the jitter buffer. -/
structure Merged (r : VideoReceiver) (ts : UInt32) (m : Merging) (seen : Bool) : Prop where
  codec : r.cfg.codec = .h264
  shown : r.jb.Shown ts (if r.cfg.expectFuA then { m with unit := none } else m) seen
  unit : r.cfg.expectFuA = true → ∀ u ∈ m.unit, r.fuaInProgress = true ∧ r.fuaRtpTs = ts
    ∧ u = r.naluHdr :: r.fuaBuf

theorem naluHdr_of_sameFua {r' : VideoReceiver} (h : r.SameFua r') : r'.naluHdr = r.naluHdr := by
  rw [naluHdr, naluHdr, h.fuaNri, h.fuaNaluType]

theorem step_of_single {m : Merging} {payload : List UInt8} (h : H264.SingleType payload)
    (hm : m.unit = none) : Merging.step .h264 m payload = some { out := m.out ++ payload } := by
  have hfua : isFuA payload = false := by
    cases payload with
    | nil => rfl
    | cons first body => exact decide_eq_false (H264.singleType_ne h)
  simp [Merging.step, hfua, hm]

theorem singleType_ne_nil {payload : List UInt8} (h : H264.SingleType payload) : payload ≠ [] := by
  rintro rfl
  simp [H264.SingleType, H264.parseSingle] at h

/-- A payload of single type is inserted into what is shown. -/
theorem shown_insertPacket {m : Merging} (h : r.jb.Shown ts m false) (hm : m.unit = none)
    {payload : List UInt8} (hsingle : H264.SingleType payload) (seq : UInt16) (marker : Bool)
    (arrivalUs : ℤ) :
    (r.insertPacket (r.inbound seq ts .h264 payload marker arrivalUs)).jb.Shown ts
      { out := m.out ++ payload } marker := by
  have hmarker : (r.inbound seq ts .h264 payload marker arrivalUs).marker = marker := by
    cases marker <;> rfl
  have hinsert := h.insert (r.inbound seq ts .h264 payload marker arrivalUs) rfl
    (fun hno => singleType_ne_nil hsingle hno.1) (step_of_single hsingle hm)
  rwa [hmarker] at hinsert

theorem peekNaluType_of_isFuA {payload : List UInt8} (h : isFuA payload = true) :
    peekNaluType payload = H264.kFuAType := by
  cases payload with
  | nil => simp [isFuA] at h
  | cons first body => exact of_decide_eq_true h

/-- A receiver that has taken a fragment holds the unit up to it. -/
structure Begun (r q : VideoReceiver) (ts : UInt32) (unit : List UInt8) : Prop where
  cfg : q.cfg = r.cfg
  jb : q.jb = r.jb
  inProgress : q.fuaInProgress = true
  rtpTs : q.fuaRtpTs = ts
  unit : q.naluHdr :: q.fuaBuf = unit

theorem begun_fragment (h : r.Merged ts m false) (hfua : r.cfg.expectFuA = true)
    {fu : H264.FuAHeader} {unit : List UInt8} (hunit : Merging.fragment m.unit fu = some unit)
    (marker : Bool) :
    Begun r { r.begun fu marker ts with fuaBuf := (r.begun fu marker ts).fuaBuf ++ fu.fragment } ts
      unit := by
  rcases Merging.fragment_cases hunit with ⟨hstart, hclear, rfl⟩ | ⟨hstart, u, hu, rfl⟩
  · rw [begun, if_pos hstart]
    refine ⟨rfl, rfl, rfl, rfl, ?_⟩
    have hnri : ((fu.fuIndicator &&& H264.kNriMask) >>> 5 &&& 0x03) <<< 5
        = fu.fuIndicator &&& 0xE0 := by
      revert hclear
      generalize fu.fuIndicator = indicator
      revert indicator
      exact forall_uint8 (by decide)
    show (((fu.fuIndicator &&& H264.kNriMask) >>> 5 &&& 0x03) <<< 5
      ||| (fu.fuHeader &&& 0x1F &&& 0x1F)) :: ([] ++ fu.fragment) = _
    rw [hnri, type_mask, List.nil_append]
  · obtain ⟨hopen, hts, heq⟩ := h.unit hfua u hu
    rw [begun, if_neg (not_not.2 hstart)]
    refine ⟨rfl, rfl, hopen, hts, ?_⟩
    rw [heq]
    rfl

/-- The receiver puts a fragment to its unit. -/
theorem merged_takeFragment (h : r.Merged ts m false) (hfua : r.cfg.expectFuA = true)
    {fu : H264.FuAHeader} {unit : List UInt8} (hunit : Merging.fragment m.unit fu = some unit)
    (hsingle : fu.fuHeader &&& 0x40 ≠ 0 → H264.SingleType unit ∧ unit.tail ≠ []) {marker : Bool}
    (hmarker : marker = true → fu.fuHeader &&& 0x40 ≠ 0) (arrivalUs : ℤ) :
    ((r.begun fu marker ts).takeFragment fu marker arrivalUs).1.Merged ts
      (if fu.fuHeader &&& 0x40 ≠ 0 then { out := m.out ++ unit } else { m with unit := some unit })
      marker := by
  have hbegun := begun_fragment h hfua hunit marker
  have hopen : (r.begun fu marker ts).fuaInProgress = true := hbegun.inProgress
  have hshown := h.shown
  rw [if_pos hfua] at hshown
  rw [takeFragment, if_neg (by simp [hopen])]
  generalize { r.begun fu marker ts with
    fuaBuf := (r.begun fu marker ts).fuaBuf ++ fu.fragment } = q at hbegun
  have hqfua : q.cfg.expectFuA = true := by rw [hbegun.cfg]; exact hfua
  have hcodec : q.cfg.codec = .h264 := by rw [hbegun.cfg]; exact h.codec
  by_cases hend : fu.fuHeader &&& 0x40 ≠ 0
  · obtain ⟨htype, htail⟩ := hsingle hend
    have hbuf : q.fuaBuf ≠ [] := by
      rw [← hbegun.unit] at htail
      exact htail
    rw [if_pos hend, if_pos hend]
    have hflush : q.flushFua marker arrivalUs
        = (q.insertPacket (q.inbound q.fuaStartSeq ts .h264 unit marker arrivalUs), [.flushed unit]) := by
      rw [flushFua, if_neg hbuf, ← hbegun.unit, hbegun.rtpTs]
      rfl
    simp only [hflush]
    rw [← hbegun.jb] at hshown
    refine ⟨hcodec, ?_, fun _ u hu => by simp at hu⟩
    show VideoJitterBuffer.Shown _ ts (if q.cfg.expectFuA then _ else _) marker
    rw [if_pos hqfua]
    exact shown_insertPacket hshown rfl htype _ _ _
  · rw [if_neg hend, if_neg hend]
    have hfalse : marker = false := by
      by_contra hno
      exact hend (hmarker (by simpa using hno))
    refine ⟨hcodec, ?_, fun _ u hu => ?_⟩
    · rw [if_pos hqfua, hbegun.jb, hfalse]
      exact hshown
    · obtain rfl := Option.mem_some.1 hu
      exact ⟨hbegun.inProgress, hbegun.rtpTs, hbegun.unit.symm⟩

theorem singleType_flatten {nalus : List (List UInt8)} (hne : nalus ≠ [])
    (h : ∀ n ∈ nalus, H264.SingleType n) : H264.SingleType nalus.flatten := by
  obtain ⟨n, ns, rfl⟩ := List.exists_cons_of_ne_nil hne
  have hn := h n List.mem_cons_self
  cases n with
  | nil => simp [H264.SingleType, H264.parseSingle] at hn
  | cons first body =>
    simp only [H264.SingleType, H264.parseSingle, List.flatten_cons, List.cons_append] at hn ⊢
    split at hn
    · rename_i htype
      rw [if_pos htype]
      rfl
    · simp at hn

/-- What is whole goes to the jitter buffer at once. -/
theorem merged_insertPacket (h : r.Merged ts { out := m.out } false) {payload : List UInt8}
    (hsingle : H264.SingleType payload) (seq : UInt16) (marker : Bool) (arrivalUs : ℤ) :
    (r.insertPacket (r.inbound seq ts .h264 payload marker arrivalUs)).Merged ts
      { out := m.out ++ payload } marker := by
  have hshown := h.shown
  have hsame : (if r.cfg.expectFuA then ({ out := m.out, unit := none } : Merging) else { out := m.out })
      = { out := m.out } := by split <;> rfl
  rw [hsame] at hshown
  refine ⟨h.codec, ?_, fun _ u hu => by simp at hu⟩
  have hsame' : (if r.cfg.expectFuA then ({ out := m.out ++ payload, unit := none } : Merging)
      else { out := m.out ++ payload }) = { out := m.out ++ payload } := by split <;> rfl
  show VideoJitterBuffer.Shown _ ts (if r.cfg.expectFuA then _ else _) marker
  rw [hsame']
  exact shown_insertPacket hshown rfl hsingle _ _ _

/-- A payload of the frame is merged. -/
theorem merged_handlePayload (h : r.Merged ts m false) {payload : List UInt8}
    (ha : Absorbs m payload m') (marker : Bool) (hmarker : marker = true → m'.unit = none)
    (arrivalUs : ℤ) : (r.handlePayload payload marker ts arrivalUs).1.Merged ts m' marker := by
  cases ha with
  | @whole out _ hsingle =>
    have hne : ∀ type : UInt8, ¬ (1 ≤ type ∧ type ≤ 23) → peekNaluType payload ≠ type := by
      rintro type hno rfl
      cases payload with
      | nil => simp [H264.SingleType, H264.parseSingle] at hsingle
      | cons first body =>
        have htype : ¬ (1 ≤ first &&& H264.kNaluTypeMask ∧ first &&& H264.kNaluTypeMask ≤ 23) := hno
        simp [H264.SingleType, H264.parseSingle, htype] at hsingle
    rw [handlePayload, if_neg (fun hno => hne _ (by decide) hno.2.1),
      if_neg (fun hno => hne _ (by decide) hno.2), h.codec]
    exact merged_insertPacket (m := { out }) h hsingle _ _ _
  | @stapA out _ nalus htype hparse hne hsingle =>
    have hnot : ¬ (r.cfg.codec = .h264 ∧ peekNaluType payload = H264.kFuAType ∧ r.cfg.expectFuA) := by
      rw [htype]
      rintro ⟨-, hno, -⟩
      exact absurd hno (by decide)
    have hconcat : (H264.parseStapA payload).nalus.flatMap (·.data) = nalus.flatten := by
      rw [← hparse, List.flatMap_def]
    have hsome : (H264.parseStapA payload).nalus ≠ [] := by
      intro hnil
      rw [hnil] at hparse
      exact hne hparse.symm
    have hok : (H264.parseStapA payload).parsedOk = true := by
      cases payload with
      | nil => simp [H264.parseStapA] at hsome
      | cons first rest =>
        simp only [H264.parseStapA] at hsome ⊢
        split at hsome
        · simp at hsome
        · rename_i hmask
          rw [if_neg hmask]
          simpa using hsome
    rw [handlePayload, if_neg hnot, if_pos ⟨h.codec, htype⟩]
    simp only [handleStapA]
    rw [if_neg (by simp [hok, hsome]), hconcat]
    have h' : Merged { r with stats :=
        { r.stats with stapAPacketsSeen := r.stats.stapAPacketsSeen + 1 } } ts { out } false :=
      ⟨h.codec, h.shown, h.unit⟩
    exact merged_insertPacket (m := { out }) h' (singleType_flatten hne hsingle) _ _ _
  | fragment hfua hstep hunit =>
    have htype := peekNaluType_of_isFuA hfua
    rcases Merging.step_cases hstep with ⟨fu, unit, -, -, hparse, hfrag, hm'⟩ | ⟨hno, -, -⟩
    · by_cases hexpect : r.cfg.expectFuA = true
      · have hreassembles : r.Reassembles payload := ⟨h.codec, htype, hexpect⟩
        rw [handlePayload_fragment hreassembles hparse, hm']
        refine merged_takeFragment h hexpect hfrag (fun hend => hunit unit ?_ ?_) (fun hm => ?_) _
        · rw [hm', if_pos hend]
        · rw [hm', if_pos hend]
        · by_contra hend
          have hnone := hmarker hm
          rw [hm', if_neg (not_not.2 hend)] at hnone
          simp at hnone
      · have hnot : ¬ (r.cfg.codec = .h264 ∧ peekNaluType payload = H264.kFuAType
            ∧ r.cfg.expectFuA) := fun hyes => hexpect hyes.2.2
        have hstap : ¬ (r.cfg.codec = .h264 ∧ peekNaluType payload = H264.kStapAType) := by
          rw [htype]
          rintro ⟨-, hno⟩
          exact absurd hno (by decide)
        have hshown := h.shown
        rw [if_neg hexpect] at hshown
        rw [handlePayload, if_neg hnot, if_neg hstap, h.codec]
        have hne : payload ≠ [] := by
          rintro rfl
          simp [isFuA] at hfua
        refine ⟨h.codec, ?_, fun hyes => absurd hyes hexpect⟩
        show VideoJitterBuffer.Shown _ ts (if r.cfg.expectFuA then _ else _) marker
        rw [if_neg hexpect]
        have hmark : (r.inbound r.highestSeq ts .h264 payload marker arrivalUs).marker = marker := by
          cases marker <;> rfl
        have hinsert := hshown.insert
          (r.inbound r.highestSeq ts .h264 payload marker arrivalUs) rfl
          (fun hno => hne hno.1) hstep
        rwa [hmark] at hinsert
    · exact absurd ⟨rfl, hfua⟩ hno

/-- What `drain_frames` keeps, and what the frames are that it gives to the callback. -/
theorem drainRounds_inv {I : VideoJitterBuffer → Prop} {good : AssembledFrame → Prop}
    (nowUs target : ℤ)
    (hpop : ∀ s, I s → I (s.popReady nowUs target).1 ∧ ∀ f ∈ (s.popReady nowUs target).2, good f) :
    ∀ (fuel : ℕ) (r : VideoReceiver), I r.jb →
      I (drainRounds nowUs target fuel r).1.jb
        ∧ ∀ out, .frame out ∈ (drainRounds nowUs target fuel r).2 →
          ∃ f, good f ∧ out.rtpTimestamp = f.rtpTimestamp ∧ out.payload = f.bitstream
  | 0, r, h => ⟨h, by simp [drainRounds]⟩
  | fuel + 1, r, h => by
    obtain ⟨hnext, hgood⟩ := hpop r.jb h
    simp only [drainRounds]
    split
    · exact ⟨h, by simp⟩
    · rename_i jb f heq
      rw [heq] at hnext hgood
      obtain ⟨stats, hemit⟩ := emitFrame_frame { r with jb } f
      have hjb : I (emitFrame { r with jb } f).1.jb := by
        rw [hemit]
        exact hnext
      obtain ⟨hfin, hrest⟩ := drainRounds_inv nowUs target hpop fuel _ hjb
      refine ⟨hfin, fun out hout => ?_⟩
      rcases List.mem_append.1 hout with hout | hout
      · refine ⟨f, hgood f rfl, ?_⟩
        rw [emitFrame] at hout
        split at hout
        · simp only [List.mem_singleton, ReceiverReport.frame.injEq] at hout
          rw [hout]
          exact ⟨rfl, rfl⟩
        · simp only [List.mem_cons, reduceCtorEq, ReceiverReport.frame.injEq, List.not_mem_nil,
            or_false, false_or] at hout
          rw [hout]
          exact ⟨rfl, rfl⟩
      · exact hrest out hout

theorem mem_framesOf {reports : List ReceiverReport} {out : EncodedVideoFrame} :
    out ∈ framesOf ts reports ↔ .frame out ∈ reports ∧ out.rtpTimestamp = ts := by
  rw [framesOf, List.mem_filterMap]
  constructor
  · rintro ⟨report, hmem, hout⟩
    cases report with
    | frame out' =>
      simp only [Option.ite_none_right_eq_some, Option.some.injEq] at hout
      obtain ⟨hts, rfl⟩ := hout
      exact ⟨hmem, hts⟩
    | feedback fb => simp at hout
    | flushed nalu => simp at hout
  · rintro ⟨hmem, hts⟩
    exact ⟨_, hmem, by simp [hts]⟩

theorem handlePayload_noFrame (r : VideoReceiver) (payload : List UInt8) (marker : Bool)
    (rtpTs : UInt32) (arrivalUs : ℤ) (out : EncodedVideoFrame) :
    .frame out ∉ (r.handlePayload payload marker rtpTs arrivalUs).2 := by
  rw [handlePayload]
  split
  · split
    · simp
    · rw [handleFuA_eq, takeFragment]
      split
      · simp
      · split
        · simp only [flushFua]
          split <;> simp
        · simp
  · split
    · simp
    · simp

/-- Of a packet's reports only those of `drain_frames` are frames. -/
theorem pushRtp_frames (packet : CachedPacket) (h : packet.payload ≠ []) (r : VideoReceiver)
    (nowUs target : ℤ) :
    ∃ r₁, r.SameFua r₁ ∧ r₁.jb = r.jb ∧ r₁.fuaRtpTs = r.fuaRtpTs
      ∧ (r.pushRtp packet nowUs target).1
          = ((r₁.handlePayload packet.payload packet.marker packet.rtpTs nowUs).1.drainFrames
              nowUs target).1
      ∧ ∀ out, .frame out ∈ (r.pushRtp packet nowUs target).2.1 → .frame out
          ∈ ((r₁.handlePayload packet.payload packet.marker packet.rtpTs nowUs).1.drainFrames
              nowUs target).2 := by
  let r₀ := { r with stats := { r.stats with packetsPushed := r.stats.packetsPushed + 1 } }
  have hr₀ : r.SameFua r₀ := ⟨rfl, rfl, rfl, rfl, rfl⟩
  have htrack : (r₀.trackSeq packet.seq).1.jb = r.jb
      ∧ (r₀.trackSeq packet.seq).1.fuaRtpTs = r.fuaRtpTs := by
    simp only [trackSeq]
    split
    · exact ⟨rfl, rfl⟩
    · split
      · exact ⟨rfl, rfl⟩
      · exact ⟨rfl, rfl⟩
  rw [pushRtp, if_neg fun hno => h hno.1]
  refine ⟨(r₀.trackSeq packet.seq).1, hr₀.trans (trackSeq_sameFua _ _), htrack.1, htrack.2, rfl,
    fun out hmem => ?_⟩
  rcases List.mem_append.1 hmem with hmem | hmem
  · rcases List.mem_append.1 hmem with hmem | hmem
    · simp only [trackSeq, reportMissing] at hmem
      split at hmem
      · simp at hmem
      · split at hmem
        · simp at hmem
        · split at hmem
          · simp at hmem
          · simp at hmem
    · exact absurd hmem (handlePayload_noFrame _ _ _ _ _ _)
  · exact hmem

theorem Merged.sameFua (h : r.Merged ts m false) {r₁ : VideoReceiver} (hsame : r.SameFua r₁)
    (hjb : r₁.jb = r.jb) (hts : r₁.fuaRtpTs = r.fuaRtpTs) : r₁.Merged ts m false := by
  refine ⟨by rw [hsame.cfg]; exact h.codec, ?_, fun hfua u hu => ?_⟩
  · rw [hjb, hsame.cfg]
    exact h.shown
  · rw [hsame.cfg] at hfua
    rw [hsame.fuaInProgress, hts, naluHdr_of_sameFua hsame, hsame.fuaBuf]
    exact h.unit hfua u hu

theorem payload_ne_nil {payload : List UInt8} (h : Absorbs m payload m') : payload ≠ [] := by
  cases h with
  | whole hsingle => exact singleType_ne_nil hsingle
  | stapA htype hparse hne hsingle =>
    rintro rfl
    exact hne hparse.symm
  | fragment hfua hstep hunit =>
    rintro rfl
    simp [isFuA] at hfua

/-- A packet that is not the last of its frame. -/
theorem merged_pushRtp (h : r.Merged ts m false) {payload : List UInt8} (ha : Absorbs m payload m')
    (seq : UInt16) (nowUs target : ℤ) :
    (r.pushRtp ⟨seq, ts, false, payload⟩ nowUs target).1.Merged ts m' false
      ∧ framesOf ts (r.pushRtp ⟨seq, ts, false, payload⟩ nowUs target).2.1 = [] := by
  obtain ⟨r₁, hsame, hjb, hts, hr, hframes⟩ := pushRtp_frames
    ⟨seq, ts, false, payload⟩ (payload_ne_nil ha) r nowUs target
  have hmerged := merged_handlePayload (h.sameFua hsame hjb hts) ha false (by simp) nowUs
  generalize (r₁.handlePayload payload false ts nowUs).1 = q at hr hframes hmerged
  have hpop := fun (s : VideoJitterBuffer)
    (hs : s.Shown ts (if q.cfg.expectFuA then { m' with unit := none } else m') false) =>
      hs.popReady nowUs target
  obtain ⟨hshown, hother⟩ := drainRounds_inv nowUs target hpop
    (q.jb.pendingIncomplete.length + q.jb.buckets.length) q hmerged.shown
  have hq := drainFrames_sameFua q nowUs target
  obtain ⟨_, _, hdrain⟩ := drainRounds_frame nowUs target
    (q.jb.pendingIncomplete.length + q.jb.buckets.length) q
  rw [hr]
  refine ⟨⟨by rw [hq.cfg]; exact hmerged.codec, ?_, fun hfua u hu => ?_⟩, ?_⟩
  · rw [hq.cfg]
    exact hshown
  · rw [hq.cfg] at hfua
    rw [hq.fuaInProgress, naluHdr_of_sameFua hq, hq.fuaBuf]
    obtain ⟨hopen, hrtp, heq⟩ := hmerged.unit hfua u hu
    exact ⟨hopen, by rw [drainFrames, hdrain]; exact hrtp, heq⟩
  · refine List.eq_nil_iff_forall_not_mem.2 fun out hout => ?_
    obtain ⟨hmem, hts⟩ := mem_framesOf.1 hout
    obtain ⟨f, hf, hfts, -⟩ := hother out (hframes out hmem)
    exact hf (hfts.symm.trans hts)

/-- The last packet of the frame: the frame that goes to the callback is what was merged. -/
theorem pushRtp_last (h : r.Merged ts m false) {payload : List UInt8} (ha : Absorbs m payload m')
    (hm' : m'.unit = none) (seq : UInt16) (nowUs target : ℤ) :
    ∀ out ∈ framesOf ts (r.pushRtp ⟨seq, ts, true, payload⟩ nowUs target).2.1,
      out.payload = m'.out := by
  intro out hout
  obtain ⟨r₁, hsame, hjb, hts, -, hframes⟩ := pushRtp_frames
    ⟨seq, ts, true, payload⟩ (payload_ne_nil ha) r nowUs target
  have hmerged := merged_handlePayload (h.sameFua hsame hjb hts) ha true (fun _ => hm') nowUs
  have hshown := hmerged.shown.whole
  have hsame' : (if (r₁.handlePayload payload true ts nowUs).1.cfg.expectFuA
      then ({ m' with unit := none } : Merging) else m').out = m'.out := by split <;> rfl
  rw [hsame'] at hshown
  have hpop := fun (s : VideoJitterBuffer) (hs : s.Whole ts m'.out) => hs.popReady nowUs target
  obtain ⟨-, hall⟩ := drainRounds_inv nowUs target hpop _ _ hshown
  obtain ⟨hmem, hts⟩ := mem_framesOf.1 hout
  obtain ⟨f, hf, hfts, hpayload⟩ := hall out (hframes out hmem)
  rw [hpayload, hf (hfts.symm.trans hts)]

end VideoReceiver

/-! ### Frames -/

def AbsorbsAll : Merging → List (List UInt8) → Merging → Prop
  | m, [], m' => m = m'
  | m, p :: ps, m' => ∃ m₁, Absorbs m p m₁ ∧ AbsorbsAll m₁ ps m'

theorem AbsorbsAll.append : ∀ {ps qs : List (List UInt8)} {m m₁ m' : Merging},
    AbsorbsAll m ps m₁ → AbsorbsAll m₁ qs m' → AbsorbsAll m (ps ++ qs) m'
  | [], _, _, _, _, rfl, h => h
  | _ :: _, _, _, _, _, ⟨m₂, hp, hps⟩, h => ⟨m₂, hp, hps.append h⟩

theorem absorbsAll_of_forall : ∀ {ps : List (List UInt8)} {P : ℕ → Merging},
    (∀ k (hk : k < ps.length), Absorbs (P k) (ps.get ⟨k, hk⟩) (P (k + 1))) →
      AbsorbsAll (P 0) ps (P ps.length)
  | [], _, _ => rfl
  | _ :: ps, P, h => ⟨P 1, h 0 (by simp),
      absorbsAll_of_forall (P := fun k => P (k + 1)) fun k hk => h (k + 1) (by simpa using hk)⟩

namespace VideoReceiver

/-- The frames that a run of packets with the payloads in order gives to the callback. -/
theorem exec_payloads {ts : UInt32} : ∀ (payloads : List (List UInt8))
    (call : ℕ → List UInt8 → ReceiverCall CachedPacket) {r : VideoReceiver} {m m' : Merging},
    payloads ≠ [] →
    (∀ k p, ∃ seq nowUs target,
      call k p = .pushRtp ⟨seq, ts, decide (k + 1 = payloads.length), p⟩ nowUs target) →
    r.Merged ts m false → AbsorbsAll m payloads m' → m'.unit = none →
      ∀ out ∈ framesOf ts (machine.exec r (payloads.mapIdx call)).2, out.payload = m'.out
  | [], _, _, _, _, hne, _, _, _, _ => absurd rfl hne
  | [p], call, r, m, m', _, hcall, h, ⟨_, ha, rfl⟩, hm' => by
    obtain ⟨seq, nowUs, target, hp⟩ := hcall 0 p
    intro out hout
    rw [List.mapIdx_cons, hp, List.mapIdx_nil, Machine.exec_cons, Machine.exec_nil,
      List.append_nil] at hout
    exact pushRtp_last h ha hm' seq nowUs target out hout
  | p :: q :: ps, call, r, m, m', _, hcall, h, ⟨m₁, ha, hps⟩, hm' => by
    obtain ⟨seq, nowUs, target, hp⟩ := hcall 0 p
    have hfirst : decide (0 + 1 = (p :: q :: ps).length) = false := by simp
    rw [hfirst] at hp
    obtain ⟨hnext, hnone⟩ := merged_pushRtp h ha seq nowUs target
    intro out hout
    rw [List.mapIdx_cons, hp, Machine.exec_cons, framesOf, List.filterMap_append] at hout
    rcases List.mem_append.1 hout with hout | hout
    · have hout : out ∈ framesOf ts (r.pushRtp ⟨seq, ts, false, p⟩ nowUs target).2.1 := hout
      rw [hnone] at hout
      simp at hout
    · refine exec_payloads (q :: ps) (fun k => call (k + 1)) (by simp) (fun k p' => ?_) hnext hps hm'
        out hout
      obtain ⟨seq', nowUs', target', hp'⟩ := hcall (k + 1) p'
      refine ⟨seq', nowUs', target', ?_⟩
      rw [hp']
      simp

end VideoReceiver

namespace Parcel

theorem indicator_forbidden (first : UInt8) : first &&& 0x80 = 0 →
    (first &&& 0xE0 ||| H264.kFuAType) &&& 0x80 = 0 := by
  revert first
  exact forall_uint8 (by decide)

theorem header_merged (first : UInt8) :
    (first &&& 0xE0 ||| H264.kFuAType) &&& 0xE0 ||| (first &&& H264.kNaluTypeMask) = first := by
  revert first
  exact forall_uint8 (by decide)

/-- What is merged after `k` fragments of a unit. -/
def partly (out : List UInt8) (first : UInt8) (slices : List (List UInt8)) (k : ℕ) : Merging :=
  if k = slices.length then { out := out ++ first :: slices.flatten }
  else { out, unit := if k = 0 then none else some (first :: (slices.take k).flatten) }

theorem absorbs_fragment {first : UInt8} {slices : List (List UInt8)}
    (hwf : (fuA first slices).WellFormed) (out : List UInt8) {k : ℕ} (hk : k < slices.length) :
    Absorbs (partly out first slices k)
      (fragment first slices.length k (slices.get ⟨k, hk⟩)) (partly out first slices (k + 1)) := by
  obtain ⟨hsingle, hzero, -, hne⟩ := hwf
  obtain ⟨fu, hparse, hslice, hindicator, htype, hstart, hend⟩ :=
    parse_fragment first slices.length k (slices.get ⟨k, hk⟩)
  have hget : slices[k]? = some fu.fragment := by
    rw [hslice]
    exact List.getElem?_eq_getElem hk
  have htake := FragmentLog.flatten_take_succ hget
  have hfua : isFuA (fragment first slices.length k (slices.get ⟨k, hk⟩)) = true :=
    decide_eq_true (indicator_type first)
  have hbefore : partly out first slices k
      = { out, unit := if k = 0 then none else some (first :: (slices.take k).flatten) } :=
    if_neg (by omega)
  have hunit : Merging.fragment (partly out first slices k).unit fu
      = some (first :: (slices.take (k + 1)).flatten) := by
    rw [hbefore, htake, Merging.fragment]
    by_cases hk0 : k = 0
    · have hclear : fu.fuIndicator &&& 0x80 = 0 := by
        rw [hindicator]
        exact indicator_forbidden first hzero
      rw [if_pos (hstart.2 hk0), if_pos ⟨if_pos hk0, hclear⟩, hindicator, htype, header_merged, hk0]
      rfl
    · rw [if_neg (fun hbit => hk0 (hstart.1 hbit)), if_neg hk0]
      rfl
  refine .fragment hfua ?_ fun unit hout _ => ?_
  · rw [Merging.step, if_pos ⟨rfl, hfua⟩, hparse, Option.bind_some, hunit, Option.map_some]
    rw [hbefore]
    by_cases hlast : k + 1 = slices.length
    · rw [if_pos (hend.2 hlast), partly, if_pos hlast, hlast, List.take_length]
    · rw [if_neg (fun hbit => hlast (hend.1 hbit)), partly, if_neg hlast]
      rfl
  · -- only the last fragment adds to the bitstream, and what it adds is the unit
    rename_i hnone
    have hlast : k + 1 = slices.length := by
      by_contra hlast
      rw [partly, if_neg hlast] at hnone
      simp at hnone
    rw [partly, if_pos hlast, hbefore] at hout
    have hunit : unit = first :: slices.flatten := (List.append_cancel_left hout).symm
    rw [hunit]
    refine ⟨?_, hne⟩
    simp only [H264.SingleType, H264.parseSingle] at hsingle ⊢
    split at hsingle
    · rename_i hrange
      rw [if_pos hrange]
      rfl
    · simp at hsingle

/-- The payloads of a parcel are merged to its units. -/
theorem absorbsAll_payloads {p : Parcel} (hwf : p.WellFormed) (out : List UInt8) :
    AbsorbsAll { out } p.payloads { out := out ++ p.units.flatten } := by
  cases p with
  | single nalu => exact ⟨_, .whole hwf, by simp [units, AbsorbsAll]⟩
  | stapA indicator nalus =>
    obtain ⟨htype, hne, hall⟩ := hwf
    refine ⟨_, .stapA htype ?_ hne fun n hn => (hall n hn).1, rfl⟩
    have hshort : ∀ n ∈ nalus, n ≠ [] ∧ n.length < 2 ^ 16 := fun n hn =>
      ⟨VideoReceiver.singleType_ne_nil (hall n hn).1, (hall n hn).2⟩
    obtain ⟨fuel, -, hread⟩ := H264.stapAUnits_bytes hshort []
    simp only [List.append_nil] at hread
    rw [H264.parseStapA, if_neg (not_not.2 htype)]
    refine hread.trans ?_
    cases fuel <;> simp [H264.stapAUnits]
  | fuA first slices =>
    obtain ⟨-, -, htwo, -⟩ := id hwf
    have hall : ∀ k (hk : k < (slices.mapIdx (fragment first slices.length)).length),
        Absorbs (partly out first slices k)
          ((slices.mapIdx (fragment first slices.length)).get ⟨k, hk⟩)
          (partly out first slices (k + 1)) := by
      intro k hk
      have hk' : k < slices.length := by simpa using hk
      have hget : (slices.mapIdx (fragment first slices.length)).get ⟨k, hk⟩
          = fragment first slices.length k (slices.get ⟨k, hk'⟩) := by simp
      rw [hget]
      exact absorbs_fragment hwf out hk'
    have hrun := absorbsAll_of_forall hall
    have hzero : partly out first slices 0 = { out } := by
      rw [partly, if_neg (by omega), if_pos rfl]
    have hdone : partly out first slices (slices.mapIdx (fragment first slices.length)).length
        = { out := out ++ first :: slices.flatten } := by
      rw [List.length_mapIdx, partly, if_pos rfl]
    rw [hzero, hdone] at hrun
    simpa [units, payloads] using hrun

theorem absorbsAll_frame : ∀ {parcels : List Parcel}, (∀ p ∈ parcels, p.WellFormed) →
    ∀ out, AbsorbsAll { out } (parcels.flatMap payloads)
      { out := out ++ (parcels.flatMap units).flatten }
  | [], _, out => by simp [AbsorbsAll]
  | p :: parcels, hwf, out => by
    have hfirst := absorbsAll_payloads (hwf p List.mem_cons_self) out
    have hrest := absorbsAll_frame (fun q hq => hwf q (List.mem_cons_of_mem _ hq))
      (out ++ p.units.flatten)
    rw [List.flatMap_cons, List.flatMap_cons, List.flatten_append, ← List.append_assoc]
    exact hfirst.append hrest

theorem payloads_ne_nil {p : Parcel} (hwf : p.WellFormed) : p.payloads ≠ [] := by
  cases p with
  | single nalu => simp [payloads]
  | stapA indicator nalus => simp [payloads]
  | fuA first slices =>
    have := hwf.2.2.1
    intro hnil
    have hlen := congrArg List.length hnil
    rw [payloads, List.length_mapIdx] at hlen
    simp at hlen
    simp [hlen] at this

theorem units_flatten_ne_nil {p : Parcel} (hwf : p.WellFormed) : p.units.flatten ≠ [] := by
  cases p with
  | single nalu => simpa [units] using VideoReceiver.singleType_ne_nil hwf
  | stapA indicator nalus =>
    obtain ⟨-, hne, hall⟩ := hwf
    exact VideoReceiver.singleType_ne_nil
      (VideoReceiver.singleType_flatten hne fun n hn => (hall n hn).1)
  | fuA first slices => simp [units]

end Parcel

namespace VideoReceiver

/-- The frame that goes to the callback is the units one after the other. -/
theorem delivered_payload {r : VideoReceiver} {parcels : List Parcel} {ts : UInt32}
    (hne : parcels ≠ []) (hwf : ∀ p ∈ parcels, p.WellFormed) (hcodec : r.cfg.codec = .h264)
    (hnew : r.jb.findBucket ts = none)
    (hpending : ∀ out ∈ r.jb.pendingIncomplete, out.rtpTimestamp ≠ ts) (firstSeq : UInt16)
    (clock : ℕ → ℤ × ℤ) :
    ∀ out ∈ framesOf ts (machine.exec r (frameCalls parcels firstSeq ts clock)).2,
      out.payload = (parcels.flatMap Parcel.units).flatten := by
  have hbuckets : ∀ b ∈ r.jb.buckets, b.rtpTimestamp ≠ ts := by
    intro b hb hts
    have hno := List.find?_eq_none.1 hnew b hb
    simp [hts] at hno
  have hshown : r.jb.Shown ts {} false :=
    ⟨hpending, fun b hb hts => absurd hts (hbuckets b hb), fun _ => rfl⟩
  have hmerged : r.Merged ts {} false := by
    refine ⟨hcodec, ?_, fun _ u hu => by simp at hu⟩
    split
    · exact hshown
    · exact hshown
  have hall := Parcel.absorbsAll_frame hwf []
  have hpayloads : parcels.flatMap Parcel.payloads ≠ [] := by
    obtain ⟨p, ps, rfl⟩ := List.exists_cons_of_ne_nil hne
    rw [List.flatMap_cons]
    exact List.append_ne_nil_of_left_ne_nil (Parcel.payloads_ne_nil (hwf p List.mem_cons_self)) _
  rw [frameCalls, framePackets, List.mapIdx_mapIdx]
  exact exec_payloads (parcels.flatMap Parcel.payloads) _ hpayloads
    (fun k p => ⟨_, _, _, rfl⟩) hmerged hall rfl

/-- No frame reaches the callback as Annex B. -/
theorem frame_not_annexB (r : VideoReceiver) (parcels : List Parcel) (firstSeq : UInt16)
    (ts : UInt32) (clock : ℕ → ℤ × ℤ) (hne : parcels ≠ [])
    (hwf : ∀ p ∈ parcels, p.WellFormed) (hcodec : r.cfg.codec = .h264)
    (hnew : r.jb.findBucket ts = none)
    (hpending : ∀ out ∈ r.jb.pendingIncomplete, out.rtpTimestamp ≠ ts) :
    ¬ r.DeliversAnnexB parcels firstSeq ts clock := by
  rintro ⟨out, hout, hparse⟩
  have hpayload := delivered_payload hne hwf hcodec hnew hpending firstSeq clock out
    (by rw [hout]; exact List.mem_singleton.2 rfl)
  refine parseAnnexB_ne hpayload ?_ hparse
  obtain ⟨p, ps, rfl⟩ := List.exists_cons_of_ne_nil hne
  rw [hpayload, List.flatMap_cons, List.flatten_append]
  exact List.append_ne_nil_of_left_ne_nil
    (Parcel.units_flatten_ne_nil (hwf p List.mem_cons_self)) _

/-- A frame of two parameter sets in one packet and a slice in two. -/
def keyFrame : List Parcel := [.stapA 0x78 [[0x67, 1], [0x68, 2]], .fuA 0x65 [[3], [4]]]

theorem keyFrame_payload :
    framesOf 3000 (machine.exec { cfg := {} } (frameCalls keyFrame 10 3000 fun _ => (0, 0))).2
        = [⟨.h264, .annexBStartCode, [0x67, 1, 0x68, 2, 0x65, 3, 4], true, 0, 0, 3000, 1⟩]
      ∧ ¬ DeliversAnnexB { cfg := {} } keyFrame 10 3000 fun _ => (0, 0) :=
  ⟨by decide, frame_not_annexB _ keyFrame 10 3000 _ (by decide) (by decide) rfl rfl
    (by decide)⟩

theorem annexB_not_delivered :
    ¬ ∀ (cfg : ReceiverConfig) (parcels : List Parcel) (firstSeq : UInt16) (ts : UInt32)
      (clock : ℕ → ℤ × ℤ), cfg.codec = .h264 → parcels ≠ [] → (∀ p ∈ parcels, p.WellFormed) →
        DeliversAnnexB { cfg } parcels firstSeq ts clock := by
  intro h
  obtain ⟨out, hout, hparse⟩ :=
    h {} keyFrame 10 3000 (fun _ => (0, 0)) rfl (by decide) (by decide)
  have hone : framesOf 3000
      (machine.exec { cfg := {} } (frameCalls keyFrame 10 3000 fun _ => (0, 0))).2
        = [⟨.h264, .annexBStartCode, [0x67, 1, 0x68, 2, 0x65, 3, 4], true, 0, 0, 3000, 1⟩] := by
    decide
  rw [hone] at hout
  obtain rfl := List.singleton_inj.1 hout
  exact absurd hparse (by decide)

end VideoReceiver

end NimRtc
