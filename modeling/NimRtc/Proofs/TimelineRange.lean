import NimRtc.Proofs.TimelineSlope

/-!
# The range of the timeline's arithmetic

The operations of `capture_ts_us_for` and `on_sender_report` are on signed 64-bit integers. Two of
their values can leave the range. A fitted slope is in picoseconds, so that below 245 Hz its product
with a distance of `2 ^ 31` ticks does; and the position of the media clock grows with every report of a
window, which is cut at its front without moving it back.
-/

namespace NimRtc.Rtp

def InRange (v : ℤ) : Prop := -2 ^ 63 ≤ v ∧ v < 2 ^ 63

/-! ### The values -/

/-- On the way to a time since the Unix epoch. Before the epoch there are no seconds. -/
def unixValues (ntp : UInt64) : List ℤ :=
  let (ntpSeconds, fracUs) := ntp64Parts ntp
  let unixSeconds := max (ntpSeconds - kNtpEpochOffset) 0
  [(ntp &&& 0xFFFFFFFF).toNat * 1000000, ntpSeconds - kNtpEpochOffset, unixSeconds * 1000000,
    unixSeconds * 1000000 + fracUs]

namespace CaptureQuery

variable (q : CaptureQuery)

def deltaValues (st : SsrcTimelineState) (ticks : ℤ) : List ℤ :=
  [if st.slopeFitted ∧ 0 < st.slopePsecPerRtpTs then ticks * st.slopePsecPerRtpTs
    else ticks * 1000000, st.srUnixUs + q.deltaUs st ticks]

def refineValues (toleranceUs : ℤ) (st : SsrcTimelineState) (anchor : AstAnchor) (captureUs : ℤ) :
    List ℤ :=
  if q.hasAst ∧ 0 < toleranceUs ∧ q.ast ≤ kAbsSendTimeMask ∧ st.srAbsSendAnchored
      ∧ anchor.valid then
    let elapsedTicks := ast24SignedDiff q.ast anchor.ticks
    let refinedUs := st.srUnixUs + astTicksToUs elapsedTicks
    [elapsedTicks, elapsedTicks * 1000000, |elapsedTicks * 1000000| + 32768,
      astTicksToUs elapsedTicks, refinedUs, refinedUs - captureUs, |refinedUs - captureUs|]
  else []

def skewValues (origin : UInt64) (st : SsrcTimelineState) (captureUs : ℤ) : List ℤ :=
  if origin = 0 then []
  else
    let originUs := unixUsFromNtp64 origin
    unixValues origin ++
      [originUs + q.localRecvUs, originUs + st.srLocalRecvUs, originUs + q.localRecvUs - captureUs,
        originUs + st.srLocalRecvUs - st.srUnixUs, q.skewUs origin st captureUs]

end CaptureQuery

namespace SenderReportTracker

/-- The values of `capture_ts_us_for`. -/
def captureValues (t : SenderReportTracker) (q : CaptureQuery) : List ℤ :=
  let t := (t.captureTsUsFor q).1
  match (t.streams q.ssrc).state with
  | none => []
  | some st =>
    if st.srCount = 0 then []
    else
      let rtpDiff := rtpTsSignedDiff q.rtpTs st.srRtpTs
      unixValues st.srNtp64 ++ [rtpDiff, |rtpDiff|] ++
        match q.forwardTicks st with
        | none => []
        | some ticks =>
          let anchor := (t.streams q.ssrc).astAnchor
          let baseUs := st.srUnixUs + q.deltaUs st ticks
          q.deltaValues st ticks ++ q.refineValues t.astToleranceUs st anchor baseUs
            ++ q.skewValues t.origin st (q.refine t.astToleranceUs st anchor baseUs)

/-- The clock rate that a report is taken with. -/
def reportRate (t : SenderReportTracker) (ssrc : UInt32) : ℤ :=
  let st := (t.streams ssrc).state.getD {}
  (if st.clockRateHz = 0 then kDefaultClockRateHz else st.clockRateHz).toNat

/-- The values of `on_sender_report`. -/
def reportValues (t : SenderReportTracker) (sr : SenderReport) : List ℤ :=
  unixValues sr.ntpTimestamp ++
    match ((t.streams sr.ssrc).fit.getD {}).samples.getLast? with
    | none => []
    | some last =>
      let delta := rtpTsSignedDiff sr.rtpTimestamp last.rtpTs
      let limit := t.reportRate sr.ssrc * 3600
      [delta, limit] ++ if delta < 0 ∨ limit < delta then [] else [last.tickPos + delta]

/-- With a fitted slope, the packet is not so far past the last report that the product with the slope
is out of range. -/
def CaptureFits (t : SenderReportTracker) (q : CaptureQuery) : Prop :=
  ∀ st ∈ (t.streams q.ssrc).state, st.srCount ≠ 0 →
    st.slopeFitted = true ∧ 0 < st.slopePsecPerRtpTs →
      ∀ ticks ∈ q.forwardTicks st, ticks ≤ (2 ^ 63 - 1) / st.slopePsecPerRtpTs

/-- A report that goes on with the window finds the media clock less than `2 ^ 63` ticks from where
it began. -/
def ReportFits (t : SenderReportTracker) (sr : SenderReport) : Prop :=
  ∀ last ∈ ((t.streams sr.ssrc).fit.getD {}).samples.getLast?,
    0 ≤ rtpTsSignedDiff sr.rtpTimestamp last.rtpTs →
      rtpTsSignedDiff sr.rtpTimestamp last.rtpTs ≤ t.reportRate sr.ssrc * 3600 →
        last.tickPos < 2 ^ 63 - rtpTsSignedDiff sr.rtpTimestamp last.rtpTs

end SenderReportTracker

/-! ### Bounds -/

theorem ntp64Parts_bounds (ntp : UInt64) :
    0 ≤ (ntp64Parts ntp).1 ∧ (ntp64Parts ntp).1 < 2 ^ 32
      ∧ 0 ≤ (ntp64Parts ntp).2 ∧ (ntp64Parts ntp).2 < 1000000 := by
  have hntp := ntp.toNat_lt
  have hfrac : (ntp &&& 0xFFFFFFFF).toNat = ntp.toNat % 2 ^ 32 := by
    rw [UInt64.toNat_and]
    exact Nat.and_two_pow_sub_one_eq_mod _ 32
  have hseconds : (ntp >>> 32).toNat = ntp.toNat / 2 ^ 32 := by
    rw [UInt64.toNat_shiftRight]
    exact Nat.shiftRight_eq_div_pow _ 32
  simp only [ntp64Parts, hfrac, hseconds]
  omega

theorem unixUsFromNtp64_eq (ntp : UInt64) :
    unixUsFromNtp64 ntp
      = max ((ntp64Parts ntp).1 - kNtpEpochOffset) 0 * 1000000 + (ntp64Parts ntp).2 := by
  simp only [unixUsFromNtp64]
  split
  · rename_i hbefore
    rw [max_eq_right (le_of_lt hbefore)]
    ring
  · rename_i hafter
    rw [max_eq_left (not_lt.1 hafter)]

theorem unixUsFromNtp64_bounds (ntp : UInt64) :
    0 ≤ unixUsFromNtp64 ntp ∧ unixUsFromNtp64 ntp < 2 ^ 53 := by
  have hparts := ntp64Parts_bounds ntp
  rw [unixUsFromNtp64_eq, kNtpEpochOffset]
  omega

theorem srUnixUs_bounds (st : SsrcTimelineState) : 0 ≤ st.srUnixUs ∧ st.srUnixUs < 2 ^ 53 := by
  have heq : st.srUnixUs = unixUsFromNtp64 st.srNtp64 := (unixUsFromNtp64_eq _).symm
  rw [heq]
  exact unixUsFromNtp64_bounds _

theorem inRange_unixValues (ntp : UInt64) : ∀ v ∈ unixValues ntp, InRange v := by
  have hparts := ntp64Parts_bounds ntp
  have hfrac : (ntp &&& 0xFFFFFFFF).toNat < 2 ^ 32 := by
    rw [UInt64.toNat_and]
    exact lt_of_le_of_lt Nat.and_le_right (by decide)
  simp only [unixValues, List.forall_mem_cons, InRange, kNtpEpochOffset]
  refine ⟨?_, ?_, ?_, ?_, by simp⟩ <;> omega

theorem rtpTsSignedDiff_bounds (a b : UInt32) :
    -2 ^ 31 ≤ rtpTsSignedDiff a b ∧ rtpTsSignedDiff a b < 2 ^ 31 := by
  have hd := (a - b).toNat_lt
  simp only [rtpTsSignedDiff, UInt32.le_iff_toNat_le, kRtpTsModulus]
  split
  · rename_i hle
    have hle : (a - b).toNat ≤ 0x7FFFFFFF := hle
    omega
  · rename_i hlt
    have hlt : ¬ (a - b).toNat ≤ 0x7FFFFFFF := hlt
    omega

theorem ast24SignedDiff_bounds (a b : UInt32) :
    -2 ^ 23 ≤ ast24SignedDiff a b ∧ ast24SignedDiff a b < 2 ^ 23 := by
  have hd : ((a - b) &&& kAbsSendTimeMask).toNat < 2 ^ 24 := by
    rw [UInt32.toNat_and]
    exact lt_of_le_of_lt Nat.and_le_right (by decide)
  simp only [ast24SignedDiff, UInt32.le_iff_toNat_le]
  split
  · rename_i hle
    have hle : ((a - b) &&& kAbsSendTimeMask).toNat ≤ 0x7FFFFF := hle
    omega
  · rename_i hlt
    have hlt : ¬ ((a - b) &&& kAbsSendTimeMask).toNat ≤ 0x7FFFFF := hlt
    omega

theorem astTicksToUs_bounds {ticks : ℤ} (hlow : -2 ^ 23 ≤ ticks) (hhigh : ticks < 2 ^ 23) :
    -2 ^ 28 ≤ astTicksToUs ticks ∧ astTicksToUs ticks < 2 ^ 28 := by
  simp only [astTicksToUs]
  split <;> omega

namespace CaptureQuery

variable {q : CaptureQuery} {st : SsrcTimelineState} {ticks : ℤ}

theorem forwardTicks_bounds (h : q.forwardTicks st = some ticks) :
    0 < q.rateHz st ∧ 0 ≤ ticks ∧ ticks < 2 ^ 31 := by
  have hdiff := rtpTsSignedDiff_bounds q.rtpTs st.srRtpTs
  simp only [forwardTicks] at h
  split at h
  · simp at h
  · split at h
    · split at h
      · simp at h
      · obtain rfl := Option.some.inj h
        omega
    · obtain rfl := Option.some.inj h
      omega

/-- The product with a fitted slope is in range up to the distance that `CaptureFits` allows. -/
theorem deltaProduct_lt_iff (hslope : 0 < st.slopePsecPerRtpTs) :
    ticks * st.slopePsecPerRtpTs < 2 ^ 63 ↔ ticks ≤ (2 ^ 63 - 1) / st.slopePsecPerRtpTs := by
  rw [Int.le_ediv_iff_mul_le hslope]
  omega

theorem deltaUs_bounds (hforward : q.forwardTicks st = some ticks)
    (hfits : st.slopeFitted = true ∧ 0 < st.slopePsecPerRtpTs →
      ticks ≤ (2 ^ 63 - 1) / st.slopePsecPerRtpTs) :
    0 ≤ q.deltaUs st ticks ∧ q.deltaUs st ticks < 2 ^ 53 := by
  obtain ⟨hrate, hpos, hlt⟩ := forwardTicks_bounds hforward
  rw [deltaUs]
  split
  · rename_i hfitted
    have hproduct := (deltaProduct_lt_iff hfitted.2).2 (hfits hfitted)
    have hnonneg : 0 ≤ ticks * st.slopePsecPerRtpTs := mul_nonneg hpos hfitted.2.le
    omega
  · have hnonneg : 0 ≤ ticks * 1000000 / q.rateHz st := Int.ediv_nonneg (by omega) hrate.le
    have hle : ticks * 1000000 / q.rateHz st ≤ ticks * 1000000 :=
      Int.ediv_le_self _ (by omega)
    omega

theorem inRange_deltaValues (hforward : q.forwardTicks st = some ticks)
    (hfits : st.slopeFitted = true ∧ 0 < st.slopePsecPerRtpTs →
      ticks ≤ (2 ^ 63 - 1) / st.slopePsecPerRtpTs) :
    ∀ v ∈ q.deltaValues st ticks, InRange v := by
  obtain ⟨hrate, hpos, hlt⟩ := forwardTicks_bounds hforward
  have hdelta := deltaUs_bounds hforward hfits
  have hunix := srUnixUs_bounds st
  simp only [deltaValues, List.forall_mem_cons, InRange]
  refine ⟨?_, ?_, by simp⟩
  · split
    · rename_i hfitted
      have hproduct := (deltaProduct_lt_iff hfitted.2).2 (hfits hfitted)
      have hnonneg : 0 ≤ ticks * st.slopePsecPerRtpTs := mul_nonneg hpos hfitted.2.le
      omega
    · omega
  · omega

/-- The refined instant is near the report's. -/
theorem refine_bounds (toleranceUs : ℤ) (anchor : AstAnchor) {captureUs : ℤ} (hlow : 0 ≤ captureUs)
    (hhigh : captureUs < 2 ^ 54) :
    -2 ^ 28 ≤ q.refine toleranceUs st anchor captureUs
      ∧ q.refine toleranceUs st anchor captureUs < 2 ^ 54 := by
  have helapsed := ast24SignedDiff_bounds q.ast anchor.ticks
  have hus := astTicksToUs_bounds helapsed.1 helapsed.2
  have hunix := srUnixUs_bounds st
  simp only [refine]
  split_ifs <;> omega

theorem inRange_refineValues (toleranceUs : ℤ) (anchor : AstAnchor) {captureUs : ℤ}
    (hlow : 0 ≤ captureUs) (hhigh : captureUs < 2 ^ 54) :
    ∀ v ∈ q.refineValues toleranceUs st anchor captureUs, InRange v := by
  have helapsed := ast24SignedDiff_bounds q.ast anchor.ticks
  have hus := astTicksToUs_bounds helapsed.1 helapsed.2
  have hunix := srUnixUs_bounds st
  simp only [refineValues]
  generalize ast24SignedDiff q.ast anchor.ticks = elapsed at helapsed hus ⊢
  split
  · simp only [List.forall_mem_cons, InRange]
    refine ⟨?_, ?_, ?_, ?_, ?_, ?_, ?_, by simp⟩ <;> grind
  · simp

theorem inRange_skewValues (origin : UInt64) {captureUs : ℤ} (hlocal : |q.localRecvUs| ≤ 2 ^ 60)
    (hsr : |st.srLocalRecvUs| ≤ 2 ^ 60) (hlow : -2 ^ 28 ≤ captureUs) (hhigh : captureUs < 2 ^ 54) :
    ∀ v ∈ q.skewValues origin st captureUs, InRange v := by
  have horigin := unixUsFromNtp64_bounds origin
  have hunix := srUnixUs_bounds st
  have hlocal := abs_le.1 hlocal
  have hsr := abs_le.1 hsr
  rw [skewValues]
  split
  · simp
  · rename_i hset
    refine List.forall_mem_append.2 ⟨inRange_unixValues origin, ?_⟩
    simp only [List.forall_mem_cons, InRange, skewUs, if_neg hset]
    refine ⟨?_, ?_, ?_, ?_, ?_, by simp⟩ <;> omega

end CaptureQuery

/-! ### Runs -/

/-- What the values depend on: our clock at the last report, and where the samples are. -/
structure Stream.Ranged (s : Stream) : Prop where
  local_le : ∀ st ∈ s.state, |st.srLocalRecvUs| ≤ 2 ^ 60
  nonneg : ∀ sample ∈ (s.fit.getD {}).samples, 0 ≤ sample.tickPos

/-- Our clock is within `2 ^ 60` microseconds of its origin. -/
def TrackerCall.LocalBounded : TrackerCall → Prop
  | .onSenderReport _ localRecvUs => |localRecvUs| ≤ 2 ^ 60
  | .captureTsUsFor q => |q.localRecvUs| ≤ 2 ^ 60
  | _ => True

namespace Stream

variable {s : Stream} {fitSlope : List (ℤ × ℤ) → ℤ} {cfg : SlopeFilterConfig}

/-- An observation leaves of the state what is not the anchor's. -/
theorem observeAbsSendTime_state (s : Stream) (rtpTs ast : UInt32) :
    ∃ f : SsrcTimelineState → SsrcTimelineState,
      (s.observeAbsSendTime rtpTs ast).state = s.state.map f
        ∧ ∀ st, ∃ srAbsSendAnchored srAbsSendUs, f st = { st with srAbsSendAnchored, srAbsSendUs } := by
  rw [observeAbsSendTime]
  split
  · exact ⟨id, by simp, fun st => ⟨st.srAbsSendAnchored, st.srAbsSendUs, rfl⟩⟩
  · obtain ⟨-, -, anchored, us, hstate⟩ := tryAnchorAst_frame { s with astObs := _ }
    exact ⟨_, hstate, fun st => ⟨anchored, us, rfl⟩⟩

theorem ranged_tryAnchorAst (h : s.Ranged) : s.tryAnchorAst.Ranged := by
  obtain ⟨hfit, -, anchored, us, hstate⟩ := s.tryAnchorAst_frame
  refine ⟨fun st hst => ?_, by rw [hfit]; exact h.nonneg⟩
  rw [hstate] at hst
  obtain ⟨st₀, hst₀, rfl⟩ := Option.mem_map.1 hst
  exact h.local_le st₀ hst₀

theorem Ranged.refitSsrc (h : s.Ranged) : (s.refitSsrc fitSlope cfg).Ranged := by
  obtain ⟨hsamples, -⟩ := refitSsrc_frame fitSlope cfg s
  refine ⟨?_, by rw [hsamples]; exact h.nonneg⟩
  obtain ⟨state, fit, astObs, astAnchor⟩ := s
  rcases fit with _ | fit
  · exact h.local_le
  rcases state with _ | st
  · exact h.local_le
  have hlocal := h.local_le st rfl
  simp only [Stream.refitSsrc]
  split_ifs <;>
  · rintro _ ⟨⟩
    exact hlocal

theorem Ranged.setSsrcClockRate (h : s.Ranged) (clockRateHz : UInt32) :
    (s.setSsrcClockRate clockRateHz).Ranged := by
  refine ⟨?_, nofun⟩
  rintro _ ⟨⟩
  rcases hstate : s.state with _ | st
  · simp
  · exact h.local_le st hstate

theorem Ranged.observeAbsSendTime (h : s.Ranged) (rtpTs ast : UInt32) :
    (s.observeAbsSendTime rtpTs ast).Ranged := by
  rw [Stream.observeAbsSendTime]
  split
  · exact h
  · exact ranged_tryAnchorAst ⟨h.local_le, h.nonneg⟩

theorem nonneg_retain {fit : SsrcFit} (h : ∀ sample ∈ fit.samples, 0 ≤ sample.tickPos) (rate : ℤ)
    (maxSamples : ℕ) (sample : SrSample) :
    ∀ sample' ∈ (fit.retain rate maxSamples sample).samples, 0 ≤ sample'.tickPos := by
  rw [SsrcFit.retain]
  intro sample' hmem
  replace hmem := List.mem_of_mem_drop hmem
  split at hmem
  · rw [List.mem_singleton.1 hmem]
  · rename_i last hlast
    have hpos := h last (List.mem_of_getLast? hlast)
    dsimp only at hmem
    split at hmem
    · rw [List.mem_singleton.1 hmem]
    · rcases List.mem_append.1 hmem with hmem | hmem
      · exact h sample' hmem
      · rw [List.mem_singleton.1 hmem]
        dsimp only
        omega

theorem Ranged.onSenderReport (h : s.Ranged) (sr : SenderReport) {localRecvUs : ℤ}
    (hlocal : |localRecvUs| ≤ 2 ^ 60) :
    (s.onSenderReport fitSlope cfg sr localRecvUs).Ranged := by
  refine ranged_tryAnchorAst (Ranged.refitSsrc ⟨?_, nonneg_retain h.nonneg _ _ _⟩)
  rintro _ ⟨⟩
  exact hlocal

end Stream

namespace SenderReportTracker

variable {t : SenderReportTracker} {fitSlope : List (ℤ × ℤ) → ℤ}

theorem ranged_step (h : ∀ ssrc, (t.streams ssrc).Ranged) {call : TrackerCall}
    (hlocal : call.LocalBounded) : ∀ ssrc, ((t.step fitSlope call).1.streams ssrc).Ranged := by
  cases call with
  | setMonotonicOrigin origin => exact h
  | setAstAgreementToleranceUs toleranceUs => exact h
  | setSsrcClockRate ssrc clockRateHz =>
    simp only [step]
    split
    · exact h
    · exact forall_update h ((h ssrc).setSsrcClockRate clockRateHz)
  | setSlopeFilterConfig config => exact fun ssrc => (h ssrc).refitSsrc
  | onSenderReport sr localRecvUs => exact forall_update h ((h sr.ssrc).onSenderReport sr hlocal)
  | observeAbsSendTime ssrc rtpTs ast =>
    exact forall_update h ((h ssrc).observeAbsSendTime rtpTs ast)
  | captureTsUsFor q =>
    show ∀ ssrc, ((if q.hasAst then _ else t : SenderReportTracker).streams ssrc).Ranged
    split
    · exact forall_update h ((h q.ssrc).observeAbsSendTime q.rtpTs q.ast)
    · exact h

theorem ranged_after {calls : List TrackerCall} (hcalls : ∀ call ∈ calls, call.LocalBounded) :
    ∀ ssrc, ((after fitSlope calls).streams ssrc).Ranged := by
  have hnew : ∀ ssrc, (({} : SenderReportTracker).streams ssrc).Ranged :=
    fun _ => ⟨nofun, nofun⟩
  exact Machine.exec_keeps (M := machine fitSlope) (I := fun t => ∀ ssrc, (t.streams ssrc).Ranged)
    (fun _ _ h hlocal => ranged_step h hlocal) calls hnew (Machine.meets_of_forall_mem hcalls)

theorem captureTsUsFor_state (t : SenderReportTracker) (q : CaptureQuery) :
    ∃ f : SsrcTimelineState → SsrcTimelineState,
      ((t.captureTsUsFor q).1.streams q.ssrc).state = (t.streams q.ssrc).state.map f
        ∧ ∀ st, ∃ srAbsSendAnchored srAbsSendUs, f st = { st with srAbsSendAnchored, srAbsSendUs } := by
  simp only [captureTsUsFor]
  split
  · simp only [update, Function.update_self]
    exact (t.streams q.ssrc).observeAbsSendTime_state q.rtpTs q.ast
  · exact ⟨id, by simp, fun st => ⟨st.srAbsSendAnchored, st.srAbsSendUs, rfl⟩⟩

theorem captureValues_iff (h : ∀ ssrc, (t.streams ssrc).Ranged) {q : CaptureQuery}
    (hlocal : |q.localRecvUs| ≤ 2 ^ 60) :
    (∀ v ∈ t.captureValues q, InRange v) ↔ t.CaptureFits q := by
  have hstep : ∀ ssrc, ((t.step (fun _ => 0) (.captureTsUsFor q)).1.streams ssrc).Ranged :=
    ranged_step h hlocal
  have hranged : ((t.captureTsUsFor q).1.streams q.ssrc).Ranged := hstep q.ssrc
  obtain ⟨f, hstate, hf⟩ := t.captureTsUsFor_state q
  rcases hst : (t.streams q.ssrc).state with _ | st
  · rw [hst] at hstate
    simp [captureValues, CaptureFits, hstate, hst]
  rw [hst, Option.map_some] at hstate
  have hsr := hranged.local_le (f st) hstate
  obtain ⟨anchored, us, heq⟩ := hf st
  have hfits : t.CaptureFits q ↔ (f st).srCount ≠ 0 →
      (f st).slopeFitted = true ∧ 0 < (f st).slopePsecPerRtpTs →
        ∀ ticks ∈ q.forwardTicks (f st), ticks ≤ (2 ^ 63 - 1) / (f st).slopePsecPerRtpTs := by
    have hticks : q.forwardTicks (f st) = q.forwardTicks st := by rw [heq]; rfl
    rw [hticks, heq, CaptureFits, hst]
    simp only [Option.mem_some_iff, forall_eq']
  rw [hfits]
  generalize f st = st' at hstate hsr
  simp only [captureValues, hstate]
  split
  · rename_i hcount
    simp [hcount]
  rename_i hcount
  have hdiff := rtpTsSignedDiff_bounds q.rtpTs st'.srRtpTs
  constructor
  · intro hvalues _ hfitted ticks hticks
    -- the product is one of the values
    have hmem := hvalues (ticks * st'.slopePsecPerRtpTs) (by
      rw [hticks]
      simp [CaptureQuery.deltaValues, hfitted])
    exact (CaptureQuery.deltaProduct_lt_iff hfitted.2).1 hmem.2
  · intro hticks
    refine List.forall_mem_append.2 ⟨List.forall_mem_append.2 ⟨inRange_unixValues _, ?_⟩, ?_⟩
    · simp only [List.forall_mem_cons, InRange]
      refine ⟨?_, ?_, by simp⟩ <;> grind
    · rcases hforward : q.forwardTicks st' with _ | ticks
      · simp
      · have hfit := fun hfitted => hticks hcount hfitted ticks hforward
        have hdelta := CaptureQuery.deltaUs_bounds hforward hfit
        have hunix := srUnixUs_bounds st'
        have hrefine := @CaptureQuery.refine_bounds q st' (t.captureTsUsFor q).1.astToleranceUs
          ((t.captureTsUsFor q).1.streams q.ssrc).astAnchor (st'.srUnixUs + q.deltaUs st' ticks)
          (by omega) (by omega)
        refine List.forall_mem_append.2 ⟨List.forall_mem_append.2 ⟨?_, ?_⟩, ?_⟩
        · exact CaptureQuery.inRange_deltaValues hforward hfit
        · exact CaptureQuery.inRange_refineValues _ _ (by omega) (by omega)
        · exact CaptureQuery.inRange_skewValues _ hlocal hsr hrefine.1 hrefine.2

theorem reportValues_iff (h : ∀ ssrc, (t.streams ssrc).Ranged) (sr : SenderReport) :
    (∀ v ∈ t.reportValues sr, InRange v) ↔ t.ReportFits sr := by
  rw [reportValues, List.forall_mem_append, and_iff_right (inRange_unixValues _), ReportFits]
  rcases hlast : ((t.streams sr.ssrc).fit.getD {}).samples.getLast? with _ | last
  · simp
  have hpos := (h sr.ssrc).nonneg last (List.mem_of_getLast? hlast)
  have hdiff := rtpTsSignedDiff_bounds sr.rtpTimestamp last.rtpTs
  have hrate : 0 ≤ t.reportRate sr.ssrc ∧ t.reportRate sr.ssrc < 2 ^ 32 := by
    rw [reportRate]
    exact ⟨Int.natCast_nonneg _, by exact_mod_cast UInt32.toNat_lt _⟩
  simp only [Option.mem_some_iff, forall_eq', List.forall_mem_append, List.forall_mem_cons, InRange]
  split
  · rename_i hjumps
    simp only [List.not_mem_nil, false_implies, implies_true, and_true]
    omega
  · rename_i hgoes
    simp only [List.mem_singleton, forall_eq, List.not_mem_nil, false_implies, implies_true, and_true]
    omega

/-- From 245 Hz on, a slope within five percent of the nominal one is small enough for every
distance. -/
theorem captureFits_of_rate (h : t.Sloped) {q : CaptureQuery}
    (hrate : ∀ st ∈ (t.streams q.ssrc).state, 245 ≤ st.clockRateHz.toNat) : t.CaptureFits q := by
  intro st hst _ hfitted ticks hticks
  obtain ⟨-, hpos, hlt⟩ := CaptureQuery.forwardTicks_bounds hticks
  have hnear := ((h.streams q.ssrc).near hst hfitted.1).1
  have hnominal : nominalSlopePsec st.clockRateHz ≤ 4081632653 := by
    rw [nominalSlopePsec]
    split
    · decide
    · have hle := hrate st hst
      have hlt : (1000000000000 : ℤ) / st.clockRateHz.toNat < 4081632654 :=
        Int.ediv_lt_of_lt_mul (by omega) (by omega)
      omega
  have hslope : st.slopePsecPerRtpTs ≤ 2 ^ 32 := by
    rw [Near] at hnear
    grind
  refine (CaptureQuery.deltaProduct_lt_iff hfitted.2).1 ?_
  calc ticks * st.slopePsecPerRtpTs ≤ (2 ^ 31 - 1) * 2 ^ 32 :=
        mul_le_mul (by omega) hslope hfitted.2.le (by decide)
    _ < 2 ^ 63 := by decide

/-- In every state of a run whose clock readings are bounded, the values of a capture query and of a
report are in range exactly as `CaptureFits` and `ReportFits` say, the former whenever the clock rate
is 245 Hz or more. -/
theorem arithmetic_in_range_iff (fitSlope : List (ℤ × ℤ) → ℤ) (calls : List TrackerCall)
    (hcalls : ∀ call ∈ calls, call.LocalBounded) :
    (∀ q : CaptureQuery, |q.localRecvUs| ≤ 2 ^ 60 →
        ((∀ v ∈ (after fitSlope calls).captureValues q, InRange v)
          ↔ (after fitSlope calls).CaptureFits q))
      ∧ (∀ sr : SenderReport, (∀ v ∈ (after fitSlope calls).reportValues sr, InRange v)
          ↔ (after fitSlope calls).ReportFits sr)
      ∧ ∀ q : CaptureQuery,
        (∀ st ∈ ((after fitSlope calls).streams q.ssrc).state, 245 ≤ st.clockRateHz.toNat) →
          (after fitSlope calls).CaptureFits q :=
  ⟨fun _ hlocal => captureValues_iff (ranged_after hcalls) hlocal,
    reportValues_iff (ranged_after hcalls),
    fun _ hrate => captureFits_of_rate (sloped_after fitSlope calls) hrate⟩

/-- A packet one hour behind the two reports. -/
def hourQuery : CaptureQuery := ⟨7, 324091000, 0, false, 0, 0⟩

theorem arithmetic_in_range_hour :
    (after (fun _ => 11111200) fittedRun).captureValues hourQuery ≠ []
      ∧ ∀ v ∈ (after (fun _ => 11111200) fittedRun).captureValues hourQuery, InRange v := by
  have hbounded : ∀ call ∈ fittedRun, call.LocalBounded := by
    simp [fittedRun, TrackerCall.LocalBounded]
  obtain ⟨hcapture, -, hrate⟩ := arithmetic_in_range_iff (fun _ => 11111200) fittedRun hbounded
  refine ⟨by decide, (hcapture hourQuery (by decide)).2 (hrate hourQuery ?_)⟩
  rintro _ ⟨⟩
  decide

/-- Two reports of a clock of 200 Hz, a second apart. -/
def slowRun : List TrackerCall :=
  [.setSsrcClockRate 7 200,
    .onSenderReport { ssrc := 7, ntpTimestamp := 0xE000000000000000, rtpTimestamp := 0 } 0,
    .onSenderReport { ssrc := 7, ntpTimestamp := 0xE000000100000000, rtpTimestamp := 200 } 1000000]

/-- A packet `2 ^ 31 - 1` ticks behind them. -/
def farQuery : CaptureQuery := ⟨7, 2147483847, 0, false, 0, 1000000⟩

theorem slow_clock_overflows :
    ¬ ∀ (fitSlope : List (ℤ × ℤ) → ℤ) (calls : List TrackerCall),
      (∀ call ∈ calls, call.LocalBounded) → ∀ q : CaptureQuery, |q.localRecvUs| ≤ 2 ^ 60 →
        ∀ v ∈ (after fitSlope calls).captureValues q, InRange v := by
  intro h
  have hbounded : ∀ call ∈ slowRun, call.LocalBounded := by
    simp [slowRun, TrackerCall.LocalBounded]
  have hmem : 2147483647 * 5000000000
      ∈ (after (fun _ => 5000000000) slowRun).captureValues farQuery := by decide
  have hrange := h (fun _ => 5000000000) slowRun hbounded farQuery (by decide) _ hmem
  exact absurd hrange.2 (by decide)

end SenderReportTracker

end NimRtc.Rtp
