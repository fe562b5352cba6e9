import NimRtc.Proofs.TimelineWindow

/-!
# The slope of a timeline

A fit is taken up only near the nominal slope, and the average over the fits lies between two of
them: the division by 1000 rounds it to a number that is not past either. A new rate, and a jump of
the media clock, begin a new average.
-/

namespace NimRtc.Rtp

/-- Within five percent. -/
def Near (nominal slope : ℤ) : Prop := 20 * |slope - nominal| ≤ nominal

/-- Not below the smallest nor above the largest. -/
def Between (xs : List ℤ) (x : ℤ) : Prop := (∃ lo ∈ xs, lo ≤ x) ∧ ∃ hi ∈ xs, x ≤ hi

theorem Between.near {xs : List ℤ} {nominal x : ℤ} (h : Between xs x)
    (hnear : ∀ y ∈ xs, Near nominal y) : Near nominal x := by
  obtain ⟨⟨lo, hlo, hle⟩, hi, hhi, hge⟩ := h
  have hlow := hnear lo hlo
  have hhigh := hnear hi hhi
  rw [Near] at hlow hhigh ⊢
  grind

theorem between_singleton (x : ℤ) : Between [x] x :=
  ⟨⟨x, List.mem_cons_self, le_rfl⟩, x, List.mem_cons_self, le_rfl⟩

/-- The average with one more fit is between the fits. -/
theorem Between.average {xs : List ℤ} {e x alpha : ℤ} (h : Between xs e) (hlow : 0 ≤ alpha)
    (hhigh : alpha ≤ 1000) :
    Between (xs ++ [x]) ((e * (1000 - alpha) + x * alpha).tdiv 1000) := by
  obtain ⟨⟨lo, hlo, hle⟩, hi, hhi, hge⟩ := h
  have hx : x ∈ xs ++ [x] := List.mem_append_right _ List.mem_cons_self
  have hbelow : ∀ m, m ≤ e → m ≤ x → m ≤ (e * (1000 - alpha) + x * alpha).tdiv 1000 := by
    intro m hme hmx
    have hsum : m * 1000 ≤ e * (1000 - alpha) + x * alpha := by
      calc m * 1000 = m * (1000 - alpha) + m * alpha := by ring
        _ ≤ e * (1000 - alpha) + x * alpha :=
          add_le_add (mul_le_mul_of_nonneg_right hme (by omega))
            (mul_le_mul_of_nonneg_right hmx hlow)
    calc m = (m * 1000).tdiv 1000 := (Int.mul_tdiv_cancel m (by decide)).symm
      _ ≤ _ := Int.tdiv_le_tdiv (by decide) hsum
  have habove : ∀ m, e ≤ m → x ≤ m → (e * (1000 - alpha) + x * alpha).tdiv 1000 ≤ m := by
    intro m hem hxm
    have hsum : e * (1000 - alpha) + x * alpha ≤ m * 1000 := by
      calc e * (1000 - alpha) + x * alpha ≤ m * (1000 - alpha) + m * alpha :=
          add_le_add (mul_le_mul_of_nonneg_right hem (by omega))
            (mul_le_mul_of_nonneg_right hxm hlow)
        _ = m * 1000 := by ring
    calc (e * (1000 - alpha) + x * alpha).tdiv 1000 ≤ (m * 1000).tdiv 1000 :=
          Int.tdiv_le_tdiv (by decide) hsum
      _ = m := Int.mul_tdiv_cancel m (by decide)
  constructor
  · rcases le_total lo x with hmin | hmin
    · exact ⟨lo, List.mem_append_left _ hlo, hbelow lo hle hmin⟩
    · exact ⟨x, hx, hbelow x (le_trans hmin hle) le_rfl⟩
  · rcases le_total hi x with hmax | hmax
    · exact ⟨x, hx, habove x (le_trans hge hmax) le_rfl⟩
    · exact ⟨hi, List.mem_append_left _ hhi, habove hi hge hmax⟩

/-! ### Streams -/

namespace Stream

/-- The fits that were taken up are near the nominal slope, and the average between them. -/
structure Averages (s : Stream) : Prop where
  rate : ∀ st ∈ s.state, st.clockRateHz ≠ 0
  near : ∀ fit ∈ s.fit, fit.seeded = true → ∀ st ∈ s.state, ∀ x ∈ fit.accepted,
    Near (nominalSlopePsec st.clockRateHz) x
  between : ∀ fit ∈ s.fit, fit.seeded = true → Between fit.accepted fit.ewmaPsec

/-- The slope in force is the average, unless the window has just begun. -/
def Fits (s : Stream) : Prop :=
  ∀ st ∈ s.state, st.slopeFitted = true → ∃ fit ∈ s.fit,
    fit.seeded = true ∧ st.slopePsecPerRtpTs = fit.ewmaPsec

variable {s : Stream} {fitSlope : List (ℤ × ℤ) → ℤ} {cfg : SlopeFilterConfig}

theorem near_of_accepted {nominal fitted : ℤ}
    (h : ¬ (fitted ≤ 0 ∨ nominal < |fitted - nominal| * 20)) : Near nominal fitted := by
  rw [Near]
  omega

/-- A new fit, taken up or not, keeps the average between near fits. -/
theorem averages_refitSsrc (h : s.Averages) (hfits : s.Fits ∨ s.fit ≠ none ∧ s.retained ≤ 1)
    (halpha : cfg.ewmaAlphaPermille ≤ 1000) :
    (s.refitSsrc fitSlope cfg).Averages ∧ (s.refitSsrc fitSlope cfg).Fits := by
  obtain ⟨state, fit, astObs, astAnchor⟩ := s
  rcases fit with _ | fit
  · rcases hfits with hfits | ⟨hsome, -⟩
    · exact ⟨h, hfits⟩
    · exact absurd rfl hsome
  rcases state with _ | st
  · exact ⟨h, fun st hst => by simp [refitSsrc] at hst⟩
  have hrate := h.rate st rfl
  have hnear := fun hseeded => h.near fit rfl hseeded st rfl
  have hbetween := h.between fit rfl
  simp only [refitSsrc]
  split_ifs with hshort hrejected
  · -- too few samples: the nominal slope
    refine ⟨⟨?_, ?_, ?_⟩, ?_⟩
    · rintro _ ⟨⟩
      exact hrate
    · rintro _ ⟨⟩ hseeded _ ⟨⟩
      exact hnear hseeded
    · rintro _ ⟨⟩
      exact hbetween
    · rintro _ ⟨⟩ hfitted
      simp at hfitted
  · -- rejected: the window is long enough to have been there before
    have hfits : Fits ⟨some st, some fit, astObs, astAnchor⟩ := by
      refine hfits.resolve_right fun hbegun => hshort ?_
      have hlength : fit.samples.length ≤ 1 := hbegun.2
      omega
    refine ⟨⟨?_, ?_, ?_⟩, ?_⟩
    · rintro _ ⟨⟩
      exact hrate
    · rintro _ ⟨⟩ hseeded _ ⟨⟩
      exact hnear hseeded
    · rintro _ ⟨⟩
      exact hbetween
    · rintro _ ⟨⟩ hfitted
      exact hfits st rfl hfitted
  all_goals
    generalize fitSlope _ = fitted at hrejected ⊢
    have hfitted := near_of_accepted hrejected
  · rename_i hseeded
    refine ⟨⟨?_, ?_, ?_⟩, ?_⟩
    · rintro _ ⟨⟩
      exact hrate
    · rintro _ ⟨⟩ - _ ⟨⟩ x hx
      rcases List.mem_append.1 hx with hx | hx
      · exact hnear hseeded x hx
      · exact List.mem_singleton.1 hx ▸ hfitted
    · rintro _ ⟨⟩ -
      exact (hbetween hseeded).average (by omega) (by omega)
    · rintro _ ⟨⟩ -
      exact ⟨_, rfl, rfl, rfl⟩
  · refine ⟨⟨?_, ?_, ?_⟩, ?_⟩
    · rintro _ ⟨⟩
      exact hrate
    · rintro _ ⟨⟩ - _ ⟨⟩ x hx
      exact List.mem_singleton.1 hx ▸ hfitted
    · rintro _ ⟨⟩ -
      exact between_singleton fitted
    · rintro _ ⟨⟩ -
      exact ⟨_, rfl, rfl, rfl⟩

/-- A new sample goes on with the average, unless the window begins with it. -/
theorem retain_spec (fit : SsrcFit) (rate : ℤ) (maxSamples : ℕ) (sample : SrSample) :
    (fit.retain rate maxSamples sample).accepted = fit.accepted
      ∧ (fit.retain rate maxSamples sample).ewmaPsec = fit.ewmaPsec
      ∧ ((fit.retain rate maxSamples sample).seeded = fit.seeded
        ∨ (fit.retain rate maxSamples sample).seeded = false
          ∧ (fit.retain rate maxSamples sample).samples.length ≤ 1) := by
  rw [SsrcFit.retain]
  split
  · exact ⟨rfl, rfl, .inl rfl⟩
  · dsimp only
    split
    · exact ⟨rfl, rfl, .inr ⟨rfl, by simp⟩⟩
    · exact ⟨rfl, rfl, .inl rfl⟩

/-- What holds of the slope of a stream. -/
structure Sloped (s : Stream) : Prop where
  averages : s.Averages
  fits : s.Fits
  known : s.fit ≠ none → s.state ≠ none

theorem Sloped.near (h : s.Sloped) {st : SsrcTimelineState} (hst : s.state = some st)
    (hfitted : st.slopeFitted = true) :
    Near (nominalSlopePsec st.clockRateHz) st.slopePsecPerRtpTs
      ∧ ∃ fit, s.fit = some fit ∧ Between fit.accepted st.slopePsecPerRtpTs := by
  obtain ⟨haverages, hfits, -⟩ := h
  obtain ⟨fit, hfit, hseeded, hslope⟩ := hfits st hst hfitted
  have hbetween := haverages.between fit hfit hseeded
  rw [hslope]
  exact ⟨hbetween.near (haverages.near fit hfit hseeded st hst), fit, hfit, hbetween⟩

theorem sloped_tryAnchorAst (h : s.Sloped) : s.tryAnchorAst.Sloped := by
  obtain ⟨hfit, -, anchored, us, hstate⟩ := s.tryAnchorAst_frame
  have hmem : ∀ st ∈ s.tryAnchorAst.state, ∃ st₀ ∈ s.state,
      { st₀ with srAbsSendAnchored := anchored, srAbsSendUs := us } = st := by
    intro st hst
    rw [hstate] at hst
    exact Option.mem_map.1 hst
  refine ⟨⟨fun st hst => ?_, ?_, ?_⟩, fun st hst hfitted => ?_, ?_⟩
  · obtain ⟨st₀, hst₀, rfl⟩ := hmem st hst
    exact h.averages.rate st₀ hst₀
  · rw [hfit]
    intro fit hf hseeded st hst
    obtain ⟨st₀, hst₀, rfl⟩ := hmem st hst
    exact h.averages.near fit hf hseeded st₀ hst₀
  · rw [hfit]
    exact h.averages.between
  · obtain ⟨st₀, hst₀, rfl⟩ := hmem st hst
    rw [hfit]
    exact h.fits st₀ hst₀ hfitted
  · rw [hfit, hstate, ne_eq, ne_eq, Option.map_eq_none_iff]
    exact h.known

theorem sloped_refitSsrc (h : s.Averages) (hfits : s.Fits ∨ s.fit ≠ none ∧ s.retained ≤ 1)
    (hknown : s.fit ≠ none → s.state ≠ none) (halpha : cfg.ewmaAlphaPermille ≤ 1000) :
    (s.refitSsrc fitSlope cfg).Sloped := by
  obtain ⟨-, hfit, hnone, -, -, -⟩ := refitSsrc_frame fitSlope cfg s
  obtain ⟨haverages, hfits⟩ := @averages_refitSsrc s fitSlope cfg h hfits halpha
  refine ⟨haverages, hfits, ?_⟩
  rw [ne_eq, ne_eq, hfit, hnone]
  exact hknown

theorem Sloped.setSsrcClockRate {clockRateHz : UInt32} (hrate : clockRateHz ≠ 0) :
    (s.setSsrcClockRate clockRateHz).Sloped := by
  refine ⟨⟨?_, nofun, nofun⟩, ?_, fun hfit => absurd rfl hfit⟩
  · rintro _ ⟨⟩
    exact hrate
  · rintro _ ⟨⟩ hfitted
    simp at hfitted

theorem Sloped.observeAbsSendTime (h : s.Sloped) (rtpTs ast : UInt32) :
    (s.observeAbsSendTime rtpTs ast).Sloped := by
  rw [Stream.observeAbsSendTime]
  split
  · exact h
  · exact sloped_tryAnchorAst ⟨⟨h.averages.rate, h.averages.near, h.averages.between⟩, h.fits,
      h.known⟩

/-- What holds of the state and the fit that a report goes on with. -/
theorem Sloped.getD (h : s.Sloped) :
    (s.state.getD {}).clockRateHz ≠ 0
      ∧ ((s.fit.getD {}).seeded = true →
        (∀ x ∈ (s.fit.getD {}).accepted, Near (nominalSlopePsec (s.state.getD {}).clockRateHz) x)
          ∧ Between (s.fit.getD {}).accepted (s.fit.getD {}).ewmaPsec)
      ∧ ((s.state.getD {}).slopeFitted = true → (s.fit.getD {}).seeded = true
        ∧ (s.state.getD {}).slopePsecPerRtpTs = (s.fit.getD {}).ewmaPsec) := by
  obtain ⟨⟨hrate, hnear, hbetween⟩, hfits, hknown⟩ := h
  rcases hfit : s.fit with _ | fit
  · rcases hstate : s.state with _ | st
    · exact ⟨by decide, nofun, nofun⟩
    · refine ⟨hrate st hstate, nofun, fun hfitted => ?_⟩
      obtain ⟨fit, hf, -⟩ := hfits st hstate hfitted
      simp [hfit] at hf
  · obtain ⟨st, hstate⟩ := Option.ne_none_iff_exists'.1 (hknown (by simp [hfit]))
    rw [hstate]
    refine ⟨hrate st hstate, fun hseeded => ⟨hnear fit hfit hseeded st hstate, hbetween fit hfit hseeded⟩,
      fun hfitted => ?_⟩
    obtain ⟨fit', hf', hseeded, hslope⟩ := hfits st hstate hfitted
    obtain rfl : fit' = fit := Option.mem_unique hf' hfit
    exact ⟨hseeded, hslope⟩

theorem Sloped.onSenderReport (h : s.Sloped) (halpha : cfg.ewmaAlphaPermille ≤ 1000)
    (sr : SenderReport) (localRecvUs : ℤ) :
    (s.onSenderReport fitSlope cfg sr localRecvUs).Sloped := by
  obtain ⟨hrate, hseed, hfitted⟩ := h.getD
  rw [Stream.onSenderReport]
  dsimp only
  rw [if_neg hrate]
  obtain ⟨haccepted, hewma, hgoes⟩ := retain_spec (s.fit.getD {})
    (s.state.getD {}).clockRateHz.toNat cfg.maxSamples
    ⟨unixUsFromNtp64 sr.ntpTimestamp, sr.rtpTimestamp, localRecvUs, 0⟩
  generalize (s.fit.getD {}).retain _ _ _ = fit at haccepted hewma hgoes ⊢
  have hsame : fit.seeded = true → (s.fit.getD {}).seeded = true := by
    intro hseeded
    rcases hgoes with hgoes | ⟨hgoes, -⟩
    · rw [← hgoes, hseeded]
    · simp [hseeded] at hgoes
  refine sloped_tryAnchorAst (sloped_refitSsrc ⟨?_, ?_, ?_⟩ ?_
    (fun _ => Option.some_ne_none _) halpha)
  · rintro _ ⟨⟩
    exact hrate
  · rintro _ ⟨⟩ hseeded _ ⟨⟩
    rw [haccepted]
    exact (hseed (hsame hseeded)).1
  · rintro _ ⟨⟩ hseeded
    rw [haccepted, hewma]
    exact (hseed (hsame hseeded)).2
  · rcases hgoes with hgoes | ⟨-, hshort⟩
    · left
      rintro _ ⟨⟩ hf
      refine ⟨fit, rfl, hgoes.trans (hfitted hf).1, ?_⟩
      rw [hewma]
      exact (hfitted hf).2
    · exact .inr ⟨Option.some_ne_none _, hshort⟩

end Stream

/-! ### The tracker -/

namespace SenderReportTracker

variable {t : SenderReportTracker} {fitSlope : List (ℤ × ℤ) → ℤ}

structure Sloped (t : SenderReportTracker) : Prop where
  streams : ∀ ssrc, (t.streams ssrc).Sloped
  alpha : t.slopeCfg.ewmaAlphaPermille ≤ 1000

theorem sloped_step (h : t.Sloped) (call : TrackerCall) : (t.step fitSlope call).1.Sloped := by
  cases call with
  | setMonotonicOrigin origin => exact ⟨h.streams, h.alpha⟩
  | setAstAgreementToleranceUs toleranceUs => exact ⟨h.streams, h.alpha⟩
  | setSsrcClockRate ssrc clockRateHz =>
    simp only [step]
    split
    · exact h
    · rename_i hrate
      exact ⟨forall_update h.streams (Stream.Sloped.setSsrcClockRate hrate), h.alpha⟩
  | setSlopeFilterConfig config =>
    refine ⟨fun ssrc => ?_, min_le_right _ _⟩
    obtain ⟨haverages, hfits, hknown⟩ := h.streams ssrc
    exact Stream.sloped_refitSsrc haverages (.inl hfits) hknown (min_le_right _ _)
  | onSenderReport sr localRecvUs =>
    exact ⟨forall_update h.streams ((h.streams sr.ssrc).onSenderReport h.alpha sr localRecvUs), h.alpha⟩
  | observeAbsSendTime ssrc rtpTs ast =>
    exact ⟨forall_update h.streams ((h.streams ssrc).observeAbsSendTime rtpTs ast), h.alpha⟩
  | captureTsUsFor q =>
    show (if q.hasAst then _ else t : SenderReportTracker).Sloped
    split
    · exact ⟨forall_update h.streams ((h.streams q.ssrc).observeAbsSendTime q.rtpTs q.ast), h.alpha⟩
    · exact h

def after (fitSlope : List (ℤ × ℤ) → ℤ) (calls : List TrackerCall) : SenderReportTracker :=
  ((machine fitSlope).exec {} calls).1

theorem sloped_after (fitSlope : List (ℤ × ℤ) → ℤ) (calls : List TrackerCall) :
    (after fitSlope calls).Sloped := by
  have hnew : ({} : SenderReportTracker).Sloped :=
    ⟨fun _ => ⟨⟨by simp, by simp, by simp⟩, nofun, fun hfit => absurd rfl hfit⟩,
      by decide⟩
  exact Machine.exec_preserves (M := machine fitSlope) (I := Sloped)
    (fun _ call h => sloped_step h call) calls hnew

/-- A fitted slope is within five percent of the nominal one, and between the fits that were taken up
since the window was last seeded. -/
theorem fitted_near_nominal (fitSlope : List (ℤ × ℤ) → ℤ) (calls : List TrackerCall) (ssrc : UInt32)
    (st : SsrcTimelineState) (hst : ((after fitSlope calls).streams ssrc).state = some st)
    (hfitted : st.slopeFitted = true) :
    Near (nominalSlopePsec st.clockRateHz) st.slopePsecPerRtpTs
      ∧ ∃ fit, ((after fitSlope calls).streams ssrc).fit = some fit
        ∧ Between fit.accepted st.slopePsecPerRtpTs :=
  ((sloped_after fitSlope calls).streams ssrc).near hst hfitted

/-- Two reports a second apart. -/
def fittedRun : List TrackerCall :=
  [.onSenderReport { ssrc := 7, rtpTimestamp := 1000 } 0,
    .onSenderReport { ssrc := 7, rtpTimestamp := 91000 } 1000000]

theorem fitted_near_nominal_two :
    ∃ st fit, ((after (fun _ => 11111200) fittedRun).streams 7).state = some st
      ∧ ((after (fun _ => 11111200) fittedRun).streams 7).fit = some fit
      ∧ st.slopeFitted = true ∧ Near (nominalSlopePsec st.clockRateHz) st.slopePsecPerRtpTs
      ∧ Between fit.accepted st.slopePsecPerRtpTs := by
  have hrun : ∃ st, ((after (fun _ => 11111200) fittedRun).streams 7).state = some st
      ∧ st.slopeFitted = true := ⟨_, rfl, by decide⟩
  obtain ⟨st, hst, hfitted⟩ := hrun
  obtain ⟨hnear, fit, hfit, hbetween⟩ :=
    fitted_near_nominal (fun _ => 11111200) fittedRun 7 st hst hfitted
  exact ⟨st, fit, hst, hfit, hfitted, hnear, hbetween⟩

end SenderReportTracker

end NimRtc.Rtp
