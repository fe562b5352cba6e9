import NimRtc.Proofs.H264Units
import NimRtc.Proofs.ReceiverStep

/-!
# Units that are put together from fragments

While a unit is in parts, the buffer holds the slices of it up to the last fragment that was given, as
long as every fragment comes after the last one. So what is inserted at the end is the unit.
-/

namespace NimRtc

/-! ### Header bytes -/

namespace Parcel

theorem fragment_start (first : UInt8) : ∀ (start «end» : Bool),
    ((first &&& H264.kNaluTypeMask) ||| (if start then 0x80 else 0) ||| (if «end» then 0x40 else 0))
        &&& 0x80 ≠ 0 ↔ start = true := by
  revert first
  exact forall_uint8 (by decide)

theorem fragment_end (first : UInt8) : ∀ (start «end» : Bool),
    ((first &&& H264.kNaluTypeMask) ||| (if start then 0x80 else 0) ||| (if «end» then 0x40 else 0))
        &&& 0x40 ≠ 0 ↔ «end» = true := by
  revert first
  exact forall_uint8 (by decide)

theorem fragment_type (first : UInt8) : ∀ (start «end» : Bool),
    ((first &&& H264.kNaluTypeMask) ||| (if start then 0x80 else 0) ||| (if «end» then 0x40 else 0))
        &&& H264.kNaluTypeMask = first &&& H264.kNaluTypeMask := by
  revert first
  exact forall_uint8 (by decide)

theorem indicator_type (first : UInt8) :
    (first &&& 0xE0 ||| H264.kFuAType) &&& H264.kNaluTypeMask = H264.kFuAType := by
  revert first
  exact forall_uint8 (by decide)

theorem indicator_nri (first : UInt8) :
    (first &&& 0xE0 ||| H264.kFuAType) &&& H264.kNriMask = first &&& H264.kNriMask := by
  revert first
  exact forall_uint8 (by decide)

/-- The header that `flush_fua` puts before the slices is the one that was sent. -/
theorem header_restored (first : UInt8) : first &&& 0x80 = 0 →
    (((first &&& H264.kNriMask) >>> 5) &&& 0x03) <<< 5
      ||| ((first &&& H264.kNaluTypeMask) &&& H264.kNaluTypeMask) = first := by
  revert first
  exact forall_uint8 (by decide)

/-- What the headers of a fragment say. -/
theorem parse_fragment (first : UInt8) (count k : ℕ) (slice : List UInt8) :
    ∃ h, H264.parseFuAHeader (fragment first count k slice) = some h ∧ h.fragment = slice
      ∧ h.fuIndicator = first &&& 0xE0 ||| H264.kFuAType
      ∧ h.fuHeader &&& H264.kNaluTypeMask = first &&& H264.kNaluTypeMask
      ∧ (h.fuHeader &&& 0x80 ≠ 0 ↔ k = 0) ∧ (h.fuHeader &&& 0x40 ≠ 0 ↔ k + 1 = count) := by
  have hparse : H264.parseFuAHeader (fragment first count k slice)
      = some ⟨first &&& 0xE0 ||| H264.kFuAType, (first &&& H264.kNaluTypeMask)
        ||| (if k = 0 then 0x80 else 0) ||| (if k + 1 = count then 0x40 else 0), slice⟩ :=
    if_neg (not_not.2 (indicator_type first))
  refine ⟨_, hparse, rfl, rfl, ?_, ?_, ?_⟩
  · simpa using fragment_type first (decide (k = 0)) (decide (k + 1 = count))
  · simpa using fragment_start first (decide (k = 0)) (decide (k + 1 = count))
  · simpa using fragment_end first (decide (k = 0)) (decide (k + 1 = count))

theorem not_fragment {p : Parcel} (hwf : p.WellFormed) (hp : p.isFragments = false)
    {payload : List UInt8} (hmem : payload ∈ p.payloads) :
    VideoReceiver.peekNaluType payload ≠ H264.kFuAType := by
  cases p with
  | single nalu =>
    obtain rfl := List.mem_singleton.1 hmem
    cases payload with
    | nil => decide
    | cons first body => exact H264.singleType_ne hwf
  | stapA indicator nalus =>
    obtain rfl := List.mem_singleton.1 hmem
    simp only [VideoReceiver.peekNaluType, List.headD_cons, hwf.1]
    decide
  | fuA first slices => simp [isFragments] at hp

end Parcel

/-! ### Steps of the receiver -/

namespace VideoReceiver

variable {r : VideoReceiver}

/-- `handle_payload` hands the payload to the FU-A path. -/
def Reassembles (r : VideoReceiver) (payload : List UInt8) : Prop :=
  r.cfg.codec = .h264 ∧ peekNaluType payload = H264.kFuAType ∧ r.cfg.expectFuA = true

theorem handlePayload_other {payload : List UInt8} (h : ¬ r.Reassembles payload) (marker : Bool)
    (rtpTs : UInt32) (arrivalUs : ℤ) :
    r.SameFua (r.handlePayload payload marker rtpTs arrivalUs).1
      ∧ (r.handlePayload payload marker rtpTs arrivalUs).2 = [] := by
  rw [Reassembles] at h
  rw [handlePayload, if_neg h]
  split
  · refine ⟨?_, rfl⟩
    simp only [handleStapA]
    split
    · exact ⟨rfl, rfl, rfl, rfl, rfl⟩
    · exact ⟨rfl, rfl, rfl, rfl, rfl⟩
  · exact ⟨⟨rfl, rfl, rfl, rfl, rfl⟩, rfl⟩

theorem handlePayload_fragment {payload : List UInt8} {h : H264.FuAHeader}
    (hr : r.Reassembles payload) (hparse : H264.parseFuAHeader payload = some h) (marker : Bool)
    (rtpTs : UInt32) (arrivalUs : ℤ) :
    r.handlePayload payload marker rtpTs arrivalUs
      = (r.begun h marker rtpTs).takeFragment h marker arrivalUs := by
  rw [Reassembles] at hr
  rw [handlePayload, if_pos hr, hparse]
  exact handleFuA_eq _ _ _ _ _

theorem emitFrame_quiet (r : VideoReceiver) (f : AssembledFrame) (nalu : List UInt8) :
    .flushed nalu ∉ (r.emitFrame f).2 := by
  rw [emitFrame]
  split
  · simp
  · simp

theorem drainRounds_quiet (nowUs target : ℤ) (nalu : List UInt8) :
    ∀ (fuel : ℕ) (r : VideoReceiver), .flushed nalu ∉ (drainRounds nowUs target fuel r).2
  | 0, _ => by simp [drainRounds]
  | fuel + 1, r => by
    simp only [drainRounds]
    split
    · simp
    · intro hmem
      rcases List.mem_append.1 hmem with hmem | hmem
      · exact emitFrame_quiet _ _ _ hmem
      · exact drainRounds_quiet nowUs target nalu fuel _ hmem

theorem trackSeq_sameFua (r : VideoReceiver) (seq : UInt16) : r.SameFua (r.trackSeq seq).1 := by
  simp only [trackSeq]
  split
  · exact ⟨rfl, rfl, rfl, rfl, rfl⟩
  · split
    · exact ⟨rfl, rfl, rfl, rfl, rfl⟩
    · exact ⟨rfl, rfl, rfl, rfl, rfl⟩

theorem trackSeq_quiet (r : VideoReceiver) (seq : UInt16) (nalu : List UInt8) :
    .flushed nalu ∉ (r.trackSeq seq).2 := by
  simp only [trackSeq, reportMissing]
  split
  · simp
  · split
    · simp
    · split
      · simp
      · simp

/-- A packet changes the unit in parts as `handle_payload` does. -/
theorem pushRtp_fua {packet : CachedPacket} (h : ¬ (packet.payload = [] ∧ !packet.marker))
    (r : VideoReceiver) (nowUs target : ℤ) :
    ∃ r₁, r.SameFua r₁
      ∧ (r₁.handlePayload packet.payload packet.marker packet.rtpTs nowUs).1.SameFua
          (r.pushRtp packet nowUs target).1
      ∧ ∀ nalu, .flushed nalu ∈ (r.pushRtp packet nowUs target).2.1 →
          .flushed nalu
            ∈ (r₁.handlePayload packet.payload packet.marker packet.rtpTs nowUs).2 := by
  let r₀ := { r with stats := { r.stats with packetsPushed := r.stats.packetsPushed + 1 } }
  have hr₀ : r.SameFua r₀ := ⟨rfl, rfl, rfl, rfl, rfl⟩
  rw [pushRtp, if_neg h]
  refine ⟨(r₀.trackSeq packet.seq).1, hr₀.trans (trackSeq_sameFua _ _),
    drainFrames_sameFua _ nowUs target, fun nalu hmem => ?_⟩
  rcases List.mem_append.1 hmem with hmem | hmem
  · rcases List.mem_append.1 hmem with hmem | hmem
    · exact absurd hmem (trackSeq_quiet _ _ _)
    · exact hmem
  · exact absurd hmem (drainRounds_quiet _ _ _ _ _)

end VideoReceiver

/-! ### The log -/

namespace FragmentLog

variable {g : FragmentLog}

/-- The unit in parts of `rx` is the one of `q`, up to `q`. -/
structure Holds (rx : VideoReceiver) (given : List SentPacket) (q : SentPacket) (first : UInt8)
    (slices : List (List UInt8)) : Prop where
  parcel : q.sent.parcel = .fuA first slices
  more : q.index + 1 < slices.length
  buf : rx.fuaBuf = (slices.take (q.index + 1)).flatten
  naluType : rx.fuaNaluType = first &&& H264.kNaluTypeMask
  nri : rx.fuaNri = (first &&& H264.kNriMask) >>> 5
  given : ∀ k ≤ q.index, ∃ p ∈ given, p.sent = q.sent ∧ p.index = k

/-- A unit in parts is that of the last fragment. -/
def Inv (g : FragmentLog) : Prop :=
  g.rx.fuaInProgress = true → g.rx.cfg.codec = .h264 ∧ g.rx.cfg.expectFuA = true
    ∧ ∃ q first slices, g.last = some q ∧ Holds g.rx g.given q first slices

theorem Holds.mono {rx rx' : VideoReceiver} {given given' : List SentPacket} {q : SentPacket}
    {first : UInt8} {slices : List (List UInt8)} (h : Holds rx given q first slices)
    (hrx : rx.SameFua rx') (hgiven : given ⊆ given') : Holds rx' given' q first slices := by
  refine ⟨h.parcel, h.more, hrx.fuaBuf.trans h.buf, hrx.fuaNaluType.trans h.naluType,
    hrx.fuaNri.trans h.nri, fun k hk => ?_⟩
  obtain ⟨p, hp, hpk⟩ := h.given k hk
  exact ⟨p, hgiven hp, hpk⟩

/-- A step that leaves the unit in parts alone. -/
theorem Inv.mono (h : g.Inv) {rx : VideoReceiver} {given : List SentPacket}
    (hrx : g.rx.SameFua rx) (hgiven : g.given ⊆ given) :
    Inv { rx, given, last := g.last } := by
  intro hopen
  have hopen : g.rx.fuaInProgress = true := hrx.fuaInProgress ▸ hopen
  obtain ⟨hcodec, hfua, q, first, slices, hlast, hq⟩ := h hopen
  refine ⟨?_, ?_, q, first, slices, hlast, hq.mono hrx hgiven⟩
  · rw [hrx.cfg]
    exact hcodec
  · rw [hrx.cfg]
    exact hfua

/-- What a receiver holds after the fragment `p`, before it looks at the end bit. -/
structure Extended (rx : VideoReceiver) (given : List SentPacket) (p : SentPacket) (first : UInt8)
    (slices : List (List UInt8)) : Prop where
  buf : rx.fuaBuf = (slices.take (p.index + 1)).flatten
  naluType : rx.fuaNaluType = first &&& H264.kNaluTypeMask
  nri : rx.fuaNri = (first &&& H264.kNriMask) >>> 5
  given : ∀ k ≤ p.index, ∃ p' ∈ given, p'.sent = p.sent ∧ p'.index = k

theorem flatten_take_succ {slices : List (List UInt8)} {slice : List UInt8} {k : ℕ}
    (hk : slices[k]? = some slice) :
    (slices.take (k + 1)).flatten = (slices.take k).flatten ++ slice := by
  rw [List.take_add_one, hk, List.flatten_append]
  simp

/-- A fragment in turn extends the unit. -/
theorem extended (rx : VideoReceiver) {h : H264.FuAHeader} {p : SentPacket} {first : UInt8}
    {slices : List (List UInt8)} (hparcel : p.sent.parcel = .fuA first slices)
    (hslice : slices[p.index]? = some h.fragment)
    (hnri : h.fuIndicator &&& H264.kNriMask = first &&& H264.kNriMask)
    (htype : h.fuHeader &&& H264.kNaluTypeMask = first &&& H264.kNaluTypeMask)
    (hstart : h.fuHeader &&& 0x80 ≠ 0 ↔ p.index = 0) (marker : Bool) (rtpTs : UInt32)
    (hinv : g.Inv) (hrx : g.rx.SameFua rx)
    (hturn : p.index ≠ 0 → g.rx.fuaInProgress = true → ∃ q ∈ g.last, p.Follows q)
    (hopen : (rx.begun h marker rtpTs).fuaInProgress = true) :
    Extended { rx.begun h marker rtpTs with
      fuaBuf := (rx.begun h marker rtpTs).fuaBuf ++ h.fragment } (g.given ++ [p]) p first slices := by
  have hself : p ∈ g.given ++ [p] := List.mem_append_right _ (List.mem_singleton.2 rfl)
  by_cases hzero : p.index = 0
  · obtain ⟨hbuf, hty, hn, -⟩ := VideoReceiver.begun_start (hstart.2 hzero) rx marker rtpTs
    refine ⟨?_, hty.trans htype, by rw [hn, hnri], fun k hk => ⟨p, hself, rfl, by omega⟩⟩
    rw [flatten_take_succ hslice, hbuf, hzero]
    rfl
  · have hbegun := VideoReceiver.begun_next (fun hbit => hzero (hstart.1 hbit)) rx marker rtpTs
    have hsame := hrx.trans hbegun
    obtain ⟨-, -, q, first', slices', hlast, hq⟩ := hinv (hsame.fuaInProgress ▸ hopen)
    obtain ⟨q', hq', hsent, hindex⟩ := hturn hzero (hsame.fuaInProgress ▸ hopen)
    obtain rfl : q' = q := by
      rw [hlast] at hq'
      exact (Option.mem_some.1 hq').symm
    have hunit := hq.parcel
    rw [← hsent, hparcel] at hunit
    obtain ⟨rfl, rfl⟩ : first = first' ∧ slices = slices' := by simpa using hunit
    refine ⟨?_, hsame.fuaNaluType.trans hq.naluType, hsame.fuaNri.trans hq.nri, fun k hk => ?_⟩
    · show (rx.begun h marker rtpTs).fuaBuf ++ h.fragment = _
      rw [flatten_take_succ hslice, hsame.fuaBuf, hq.buf, hindex]
    · rcases Nat.lt_or_ge q'.index k with hlt | hle
      · exact ⟨p, hself, rfl, by omega⟩
      · obtain ⟨p', hp', hp'sent, hp'k⟩ := hq.given k hle
        exact ⟨p', List.mem_append_left _ hp', hp'sent.trans hsent.symm, hp'k⟩

/-- What `flush_fua` inserts after the last fragment is the unit. -/
theorem Extended.flushed {rx : VideoReceiver} {given : List SentPacket} {p : SentPacket}
    {first : UInt8} {slices : List (List UInt8)} (h : Extended rx given p first slices)
    (hparcel : p.sent.parcel = .fuA first slices) (hend : p.index + 1 = slices.length)
    (marker : Bool) (arrivalUs : ℤ) {nalu : List UInt8}
    (hmem : .flushed nalu ∈ (rx.flushFua marker arrivalUs).2) :
    FragmentedBefore (given, .flushed nalu) := by
  have hwf := p.sent.wellFormed
  rw [hparcel] at hwf
  obtain ⟨-, hzero, -, -⟩ := hwf
  rw [VideoReceiver.flushFua] at hmem
  split at hmem
  · simp at hmem
  · have hnalu := List.mem_singleton.1 hmem
    have hbuf : rx.fuaBuf = slices.flatten := by rw [h.buf, hend, List.take_length]
    rw [h.nri, h.naluType, Parcel.header_restored first hzero, hbuf] at hnalu
    have hnalu : nalu = first :: slices.flatten := by simpa using hnalu
    refine ⟨p.sent, by rw [hparcel]; rfl, by rw [hparcel, hnalu]; rfl, fun k hk => h.given k ?_⟩
    rw [hparcel, Parcel.payloads, List.length_mapIdx] at hk
    omega

/-- The fragment path, on a fragment in turn. -/
theorem inv_takeFragment {rx : VideoReceiver} {h : H264.FuAHeader} {p : SentPacket} {first : UInt8}
    {slices : List (List UInt8)} (hparcel : p.sent.parcel = .fuA first slices)
    (hslice : slices[p.index]? = some h.fragment)
    (hnri : h.fuIndicator &&& H264.kNriMask = first &&& H264.kNriMask)
    (htype : h.fuHeader &&& H264.kNaluTypeMask = first &&& H264.kNaluTypeMask)
    (hstart : h.fuHeader &&& 0x80 ≠ 0 ↔ p.index = 0)
    (hend : h.fuHeader &&& 0x40 ≠ 0 ↔ p.index + 1 = slices.length) (marker : Bool) (rtpTs : UInt32)
    (arrivalUs : ℤ) (hinv : g.Inv) (hrx : g.rx.SameFua rx)
    (hcfg : rx.cfg.codec = .h264 ∧ rx.cfg.expectFuA = true)
    (hturn : p.index ≠ 0 → g.rx.fuaInProgress = true → ∃ q ∈ g.last, p.Follows q) :
    Inv ⟨((rx.begun h marker rtpTs).takeFragment h marker arrivalUs).1, g.given ++ [p], some p⟩
      ∧ ∀ nalu, .flushed nalu ∈ ((rx.begun h marker rtpTs).takeFragment h marker arrivalUs).2 →
          FragmentedBefore (g.given ++ [p], .flushed nalu) := by
  have hcfg' : (rx.begun h marker rtpTs).cfg = rx.cfg := by
    by_cases hbit : h.fuHeader &&& 0x80 ≠ 0
    · exact (VideoReceiver.begun_start hbit rx marker rtpTs).2.2.2
    · exact (VideoReceiver.begun_next hbit rx marker rtpTs).cfg
  have hext := extended rx hparcel hslice hnri htype hstart marker rtpTs hinv hrx hturn
  rw [VideoReceiver.takeFragment]
  generalize hr : rx.begun h marker rtpTs = r at hext hcfg'
  split
  · rename_i hclosed
    refine ⟨fun hopen => ?_, by simp⟩
    have hopen : r.fuaInProgress = true := hopen
    rw [hopen] at hclosed
    simp at hclosed
  · rename_i hopen
    have hopen : r.fuaInProgress = true := by simpa using hopen
    have hext := hext hopen
    split
    · rename_i hbit
      exact ⟨fun hopen => absurd hopen Bool.false_ne_true,
        fun nalu hmem => hext.flushed hparcel (hend.1 hbit) marker arrivalUs hmem⟩
    · rename_i hbit
      obtain ⟨hlt, -⟩ := List.getElem?_eq_some_iff.1 hslice
      have hmore : p.index + 1 < slices.length := by
        have := mt hend.2 hbit
        omega
      refine ⟨fun _ => ⟨?_, ?_, p, first, slices, rfl, hparcel, hmore, hext.buf, hext.naluType,
        hext.nri, hext.given⟩, by simp⟩
      · rw [hcfg']
        exact hcfg.1
      · rw [hcfg']
        exact hcfg.2

theorem packet_accepted (p : SentPacket) : ¬ (p.packet.payload = [] ∧ !p.packet.marker) := by
  rintro ⟨hnil, -⟩
  have hmem : p.packet.payload ∈ p.sent.parcel.payloads := List.get_mem _ _
  have hwf := p.sent.wellFormed
  rw [hnil] at hmem
  cases hparcel : p.sent.parcel with
  | single nalu =>
    rw [hparcel] at hmem hwf
    obtain rfl := List.mem_singleton.1 hmem
    simp [Parcel.WellFormed, H264.SingleType, H264.parseSingle] at hwf
  | stapA indicator nalus =>
    rw [hparcel] at hmem
    simp [Parcel.payloads] at hmem
  | fuA first slices =>
    rw [hparcel] at hmem
    obtain ⟨k, hk, heq⟩ := List.mem_mapIdx.1 hmem
    simp [Parcel.fragment] at heq

theorem inv_pushRtp (h : g.Inv) {p : SentPacket} {nowUs target : ℤ}
    (hok : ReceiverCall.InTurn g (.pushRtp p nowUs target)) :
    (g.step (.pushRtp p nowUs target)).1.Inv
      ∧ ∀ report ∈ (g.step (.pushRtp p nowUs target)).2, FragmentedBefore report := by
  obtain ⟨rx, hrx, hpush, hquiet⟩ :=
    VideoReceiver.pushRtp_fua (packet_accepted p) g.rx nowUs target
  have hgiven : g.given ⊆ g.given ++ [p] := List.subset_append_left _ _
  have hmem : p.packet.payload ∈ p.sent.parcel.payloads := List.get_mem _ _
  -- enough: what `handle_payload` does to the unit in parts, and what it inserts
  suffices hpayload : Inv ⟨(rx.handlePayload p.packet.payload p.packet.marker p.packet.rtpTs nowUs).1,
        g.given ++ [p], (g.note (.pushRtp p nowUs target)).last⟩
      ∧ ∀ nalu, .flushed nalu
          ∈ (rx.handlePayload p.packet.payload p.packet.marker p.packet.rtpTs nowUs).2 →
        FragmentedBefore (g.given ++ [p], .flushed nalu) by
    refine ⟨hpayload.1.mono hpush (List.Subset.refl _), fun report hreport => ?_⟩
    obtain ⟨out, hout, rfl⟩ := List.mem_map.1 hreport
    cases out with
    | flushed nalu => exact hpayload.2 nalu (hquiet nalu hout)
    | frame out => trivial
    | feedback fb => trivial
  by_cases hfua : rx.Reassembles p.packet.payload
  · have hcfg : rx.cfg.codec = .h264 ∧ rx.cfg.expectFuA = true := ⟨hfua.1, hfua.2.2⟩
    cases hparcel : p.sent.parcel with
    | fuA first slices =>
      have hlen : p.index < slices.length := by
        have := p.index_lt
        simpa [hparcel, Parcel.payloads] using this
      have hpayload : p.packet.payload
          = Parcel.fragment first slices.length p.index (slices.get ⟨p.index, hlen⟩) := by
        simp [SentPacket.packet, hparcel, Parcel.payloads]
      obtain ⟨fu, hparse, hslice, hindicator, htype, hstart, hend⟩ :=
        Parcel.parse_fragment first slices.length p.index (slices.get ⟨p.index, hlen⟩)
      rw [← hpayload] at hparse
      have hfragments : p.sent.parcel.isFragments = true := by rw [hparcel]; rfl
      have hlast : (g.note (.pushRtp p nowUs target)).last = some p := if_pos hfragments
      rw [VideoReceiver.handlePayload_fragment hfua hparse, hlast]
      have hnri : fu.fuIndicator &&& H264.kNriMask = first &&& H264.kNriMask := by
        rw [hindicator, Parcel.indicator_nri]
      refine inv_takeFragment hparcel ?_ hnri htype hstart hend _ _ _ h hrx hcfg (hok hfragments)
      rw [hslice]
      exact List.getElem?_eq_getElem hlen
    | single nalu =>
      have hno := Parcel.not_fragment p.sent.wellFormed (by rw [hparcel]; rfl) hmem
      exact absurd hfua.2.1 hno
    | stapA indicator nalus =>
      have hno := Parcel.not_fragment p.sent.wellFormed (by rw [hparcel]; rfl) hmem
      exact absurd hfua.2.1 hno
  · obtain ⟨hsame, hnone⟩ := VideoReceiver.handlePayload_other hfua p.packet.marker p.packet.rtpTs nowUs
    rw [hnone]
    refine ⟨fun hopen => ?_, by simp⟩
    have hprev := h (((hrx.trans hsame).fuaInProgress) ▸ hopen)
    by_cases hfragments : p.sent.parcel.isFragments = true
    · -- a fragment is passed by only where the receiver does not put units together
      refine absurd ?_ hfua
      refine ⟨by rw [hrx.cfg]; exact hprev.1, ?_, by rw [hrx.cfg]; exact hprev.2.1⟩
      cases hparcel : p.sent.parcel with
      | fuA first slices =>
        rw [hparcel] at hmem
        obtain ⟨k, hk, heq⟩ := List.mem_mapIdx.1 hmem
        rw [← heq]
        exact Parcel.indicator_type first
      | single nalu => rw [hparcel] at hfragments; simp [Parcel.isFragments] at hfragments
      | stapA indicator nalus => rw [hparcel] at hfragments; simp [Parcel.isFragments] at hfragments
    · have hlast : (g.note (.pushRtp p nowUs target)).last = g.last := if_neg hfragments
      rw [hlast]
      exact h.mono (hrx.trans hsame) hgiven hopen

theorem inv_step (h : g.Inv) (call : ReceiverCall SentPacket) (hok : call.InTurn g) :
    (g.step call).1.Inv ∧ ∀ report ∈ (g.step call).2, FragmentedBefore report := by
  cases call with
  | pushRtp p nowUs target => exact inv_pushRtp h hok
  | popNackEntries =>
    exact ⟨h.mono ⟨rfl, rfl, rfl, rfl, rfl⟩ (List.Subset.refl _), by simp [step, VideoReceiver.step]⟩
  | tick nowUs target =>
    have hsame : g.rx.SameFua (g.rx.tick nowUs target).1 := by
      refine VideoReceiver.SameFua.trans ?_ (VideoReceiver.drainFrames_sameFua _ _ _)
      exact ⟨rfl, rfl, rfl, rfl, rfl⟩
    refine ⟨h.mono hsame (List.Subset.refl _), fun report hreport => ?_⟩
    obtain ⟨out, hout, rfl⟩ := List.mem_map.1 hreport
    cases out with
    | flushed nalu => exact absurd hout (VideoReceiver.drainRounds_quiet _ _ _ _ _)
    | frame out => trivial
    | feedback fb => trivial
  | reset => exact ⟨fun hopen => absurd hopen Bool.false_ne_true, by simp [step, VideoReceiver.step]⟩

/-- Along a run whose fragments come in turn, every unit that is inserted is one that was sent in
fragments, all of which were given before. -/
theorem flushed_units_sent (cfg : ReceiverConfig) (calls : List (ReceiverCall SentPacket))
    (hturn : machine.Meets (fun g call => call.InTurn g) { rx := { cfg } } calls) :
    ∀ report ∈ (machine.exec { rx := { cfg } } calls).2, FragmentedBefore report := by
  have hstart : Inv { rx := { cfg } } := fun hopen => absurd hopen Bool.false_ne_true
  have hstep : ∀ (g : FragmentLog) (call : ReceiverCall SentPacket), g.Inv → call.InTurn g →
      (machine.step g call).1.Inv ∧ ∀ report ∈ (machine.step g call).2, FragmentedBefore report :=
    fun g call h hok => inv_step h call hok
  exact (Machine.exec_inv hstep calls hstart hturn).2

/-- A key frame's slice in three fragments. -/
def slicedUnit : SentParcel where
  parcel := .fuA 0x65 [[1], [2], [3]]
  firstSeq := 10
  rtpTs := 3000
  marker := true

def pushSlice (k : Fin 3) : ReceiverCall SentPacket :=
  .pushRtp ⟨slicedUnit, k, k.isLt⟩ 0 0

/-- The first fragment comes twice and the unit is put together anew. -/
theorem flushed_units_sent_again :
    ((machine.exec { rx := { cfg := {} } } [pushSlice 0, pushSlice 0, pushSlice 1, pushSlice 2]).2.map
        (·.2)).head? = some (.flushed [0x65, 1, 2, 3])
      ∧ ∀ report ∈ (machine.exec { rx := { cfg := {} } }
          [pushSlice 0, pushSlice 0, pushSlice 1, pushSlice 2]).2, FragmentedBefore report :=
  ⟨by decide, flushed_units_sent {} _ (by decide)⟩

theorem lost_fragment_spliced :
    ¬ ∀ cfg calls, ∀ report ∈ (machine.exec { rx := { cfg } } calls).2, FragmentedBefore report := by
  intro h
  have hout : ((machine.exec { rx := { cfg := {} } } [pushSlice 0, pushSlice 2]).2.map fun report =>
      (report.1.map (·.sent), report.2)).any
        (· = ([slicedUnit, slicedUnit], .flushed [0x65, 1, 3])) = true := by decide
  obtain ⟨_, hin, hout⟩ := List.any_eq_true.1 hout
  obtain ⟨report, hreport, rfl⟩ := List.mem_map.1 hin
  obtain ⟨given, out⟩ := report
  simp only [decide_eq_true_eq, Prod.mk.injEq] at hout
  obtain ⟨hgiven, rfl⟩ := hout
  obtain ⟨sent, hfragments, hunits, hall⟩ := h {} _ _ hreport
  -- the unit was given, so it is the one that was sent
  have hne : 0 < sent.parcel.payloads.length := by
    have hwf := sent.wellFormed
    cases hparcel : sent.parcel with
    | fuA first slices =>
      rw [hparcel] at hwf
      rw [Parcel.payloads, List.length_mapIdx]
      have := hwf.2.2.1
      omega
    | single nalu => rw [hparcel] at hfragments; simp [Parcel.isFragments] at hfragments
    | stapA indicator nalus => rw [hparcel] at hfragments; simp [Parcel.isFragments] at hfragments
  obtain ⟨p, hp, hsent, -⟩ := hall 0 hne
  have hmem' : p.sent ∈ given.map (·.sent) := List.mem_map_of_mem hp
  rw [hgiven] at hmem'
  have hsliced : sent = slicedUnit := by simpa [hsent] using hmem'
  rw [hsliced] at hunits
  exact absurd hunits (by decide)

end FragmentLog

end NimRtc
