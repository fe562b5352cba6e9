import NimRtc.Timeline

/-!
# The window of sender reports

A report adds one sample, and a new configuration none. So the window fits the configuration as long
as no new one is smaller than what is retained (`window_iff`). The average over the fits is
between the fits it was taken over, and a fit is only taken up near the nominal slope, so the
average stays near it, too (`fitted_near_nominal`).
-/

namespace NimRtc.Rtp

/-! ### The window -/

/-- Consecutive samples are as far apart as their timestamps, and in order. -/
def Consecutive (a b : SrSample) : Prop :=
  0 ≤ rtpTsSignedDiff b.rtpTs a.rtpTs ∧ b.tickPos = a.tickPos + rtpTsSignedDiff b.rtpTs a.rtpTs

def Stream.retained (s : Stream) : ℕ := (s.fit.getD {}).samples.length

/-- What holds of a stream whatever the configuration. -/
structure Stream.Consistent (s : Stream) : Prop where
  consecutive : (s.fit.getD {}).samples.IsChain Consecutive
  count : ∀ st ∈ s.state, st.slopeSampleCount = s.retained
  observations : s.astObs.length ≤ kMaxAstObservations
  anchored : (∃ st ∈ s.state, st.srAbsSendAnchored = true) ↔ s.astAnchor.valid = true
  known : s.fit ≠ none → s.state ≠ none

namespace SsrcFit

theorem isChain_retain {fit : SsrcFit} (h : fit.samples.IsChain Consecutive) (rate : ℤ)
    (maxSamples : ℕ) (sample : SrSample) :
    (fit.retain rate maxSamples sample).samples.IsChain Consecutive := by
  rw [retain]
  refine List.IsChain.drop ?_ _
  split
  · exact .singleton _
  · rename_i last hlast
    dsimp only
    split
    · exact .singleton _
    · rename_i hgoes
      refine List.isChain_append.2 ⟨h, .singleton _, fun a ha b hb => ?_⟩
      obtain rfl : last = a := by simpa [hlast] using ha
      obtain rfl := List.mem_singleton.1 (List.mem_of_mem_head? hb)
      have hforward : 0 ≤ rtpTsSignedDiff sample.rtpTs last.rtpTs := by omega
      exact ⟨hforward, rfl⟩

theorem length_retain_le (fit : SsrcFit) (rate : ℤ) (maxSamples : ℕ) (sample : SrSample) :
    (fit.retain rate maxSamples sample).samples.length ≤ maxSamples := by
  rw [retain, List.length_drop]
  omega

end SsrcFit

namespace Stream

variable {s : Stream}

/-- Choosing an anchor changes nothing else. -/
theorem tryAnchorAst_frame (s : Stream) :
    s.tryAnchorAst.fit = s.fit ∧ s.tryAnchorAst.astObs = s.astObs
      ∧ ∃ srAbsSendAnchored srAbsSendUs, s.tryAnchorAst.state
        = s.state.map fun st => { st with srAbsSendAnchored, srAbsSendUs } := by
  rw [tryAnchorAst]
  split
  · rename_i hstate
    exact ⟨rfl, rfl, false, 0, by simp [hstate]⟩
  · rename_i st hstate
    split
    · exact ⟨rfl, rfl, false, 0, by simp [hstate]⟩
    · rename_i ticks _
      exact ⟨rfl, rfl, true, decodeAbsSendTime24 ticks, by simp [hstate]⟩

theorem tryAnchorAst_anchored (s : Stream) :
    (∃ st ∈ s.tryAnchorAst.state, st.srAbsSendAnchored = true)
      ↔ s.tryAnchorAst.astAnchor.valid = true := by
  rw [tryAnchorAst]
  split
  · rename_i hstate
    simp [hstate]
  · split <;> simp

/-- Choosing an anchor makes the two flags agree. -/
theorem consistent_tryAnchorAst (hconsecutive : (s.fit.getD {}).samples.IsChain Consecutive)
    (hcount : ∀ st ∈ s.state, st.slopeSampleCount = s.retained)
    (hobs : s.astObs.length ≤ kMaxAstObservations) (hknown : s.fit ≠ none → s.state ≠ none) :
    s.tryAnchorAst.Consistent := by
  obtain ⟨hfit, hring, anchored, us, hstate⟩ := s.tryAnchorAst_frame
  refine ⟨by rwa [hfit], fun st hst => ?_, by rwa [hring], s.tryAnchorAst_anchored, ?_⟩
  · rw [hstate] at hst
    obtain ⟨st₀, hst₀, rfl⟩ := Option.mem_map.1 hst
    rw [retained, hfit]
    exact hcount st₀ hst₀
  · rw [hfit, hstate, ne_eq, ne_eq, Option.map_eq_none_iff]
    exact hknown

/-- A new fit changes neither the samples nor the anchor, and the count is the samples'. -/
theorem refitSsrc_frame (fitSlope : List (ℤ × ℤ) → ℤ) (cfg : SlopeFilterConfig) (s : Stream) :
    ((s.refitSsrc fitSlope cfg).fit.getD {}).samples = (s.fit.getD {}).samples
      ∧ ((s.refitSsrc fitSlope cfg).fit = none ↔ s.fit = none)
      ∧ ((s.refitSsrc fitSlope cfg).state = none ↔ s.state = none)
      ∧ (s.refitSsrc fitSlope cfg).astObs = s.astObs
      ∧ (s.refitSsrc fitSlope cfg).astAnchor = s.astAnchor
      ∧ ∀ st ∈ (s.refitSsrc fitSlope cfg).state, ∃ st₀ ∈ s.state,
        st.srAbsSendAnchored = st₀.srAbsSendAnchored ∧ st.clockRateHz = st₀.clockRateHz
          ∧ (s.fit = none → st.slopeSampleCount = st₀.slopeSampleCount)
          ∧ (s.fit ≠ none → st.slopeSampleCount = s.retained) := by
  obtain ⟨state, fit, astObs, astAnchor⟩ := s
  rcases fit with _ | fit
  · exact ⟨rfl, Iff.rfl, Iff.rfl, rfl, rfl, fun st hst =>
      ⟨st, hst, rfl, rfl, fun _ => rfl, fun hsome => absurd rfl hsome⟩⟩
  · rcases state with _ | st₀
    · exact ⟨rfl, Iff.rfl, Iff.rfl, rfl, rfl, fun st hst => by simp [refitSsrc] at hst⟩
    · simp only [refitSsrc]
      split_ifs <;>
      · refine ⟨rfl, by simp, by simp, rfl, rfl, fun st hst => ⟨st₀, rfl, ?_⟩⟩
        obtain rfl := Option.mem_some.1 hst
        exact ⟨rfl, rfl, nofun, fun _ => rfl⟩

theorem Consistent.refitSsrc (h : s.Consistent) (fitSlope : List (ℤ × ℤ) → ℤ)
    (cfg : SlopeFilterConfig) : (s.refitSsrc fitSlope cfg).Consistent := by
  obtain ⟨hsamples, hfit, hnone, hobs, hanchor, hstate⟩ := refitSsrc_frame fitSlope cfg s
  refine ⟨by rw [hsamples]; exact h.consecutive, fun st hst => ?_, by rw [hobs]; exact h.observations,
    ?_, ?_⟩
  · obtain ⟨st₀, hst₀, -, -, hkeeps, hcounts⟩ := hstate st hst
    rw [retained, hsamples]
    by_cases hfit : s.fit = none
    · rw [hkeeps hfit]
      exact h.count st₀ hst₀
    · exact hcounts hfit
  · rw [hanchor, ← h.anchored]
    constructor
    · rintro ⟨st, hst, hanchored⟩
      obtain ⟨st₀, hst₀, heq, -⟩ := hstate st hst
      exact ⟨st₀, hst₀, heq ▸ hanchored⟩
    · rintro ⟨st₀, hst₀, hanchored⟩
      have hsome : (s.refitSsrc fitSlope cfg).state ≠ none := by
        rw [ne_eq, hnone]
        intro heq
        simp [heq] at hst₀
      obtain ⟨st, hst⟩ := Option.ne_none_iff_exists'.1 hsome
      obtain ⟨st₁, hst₁, heq, -⟩ := hstate st hst
      obtain rfl : st₁ = st₀ := Option.mem_unique hst₁ hst₀
      exact ⟨st, hst, heq.trans hanchored⟩
  · rw [ne_eq, ne_eq, hfit, hnone]
    exact h.known

theorem Consistent.setSsrcClockRate (h : s.Consistent) (clockRateHz : UInt32) :
    (s.setSsrcClockRate clockRateHz).Consistent := by
  refine ⟨.nil, fun st hst => ?_, h.observations, ?_, fun hfit => absurd rfl hfit⟩
  · obtain rfl := Option.mem_some.1 hst
    rfl
  · refine Iff.trans ?_ h.anchored
    rcases hstate : s.state with _ | st <;> simp [Stream.setSsrcClockRate, hstate]

theorem Consistent.onSenderReport (h : s.Consistent) (fitSlope : List (ℤ × ℤ) → ℤ)
    (cfg : SlopeFilterConfig) (sr : SenderReport) (localRecvUs : ℤ) :
    (s.onSenderReport fitSlope cfg sr localRecvUs).Consistent := by
  rw [Stream.onSenderReport]
  dsimp only
  generalize hgiven : ({ s with state := _, fit := _ } : Stream) = given
  obtain ⟨hsamples, hfit, hnone, hobs, -, hstate⟩ := refitSsrc_frame fitSlope cfg given
  have hnew : given.fit ≠ none ∧ given.state ≠ none := by
    subst hgiven
    exact ⟨nofun, nofun⟩
  refine consistent_tryAnchorAst ?_ (fun st hst => ?_) ?_ fun _ => ?_
  · rw [hsamples]
    subst hgiven
    exact SsrcFit.isChain_retain h.consecutive _ _ _
  · obtain ⟨st₀, -, -, -, -, hcounts⟩ := hstate st hst
    rw [hcounts hnew.1, retained, retained, hsamples]
  · rw [hobs]
    subst hgiven
    exact h.observations
  · rw [ne_eq, hnone]
    exact hnew.2

theorem Consistent.observeAbsSendTime (h : s.Consistent) (rtpTs ast : UInt32) :
    (s.observeAbsSendTime rtpTs ast).Consistent := by
  rw [Stream.observeAbsSendTime]
  split
  · exact h
  · refine consistent_tryAnchorAst h.consecutive h.count ?_ h.known
    have hring := h.observations
    dsimp only
    split
    · simpa using hring
    · omega

end Stream

/-- A configuration's window is not smaller than what is retained of any stream. -/
def TrackerCall.KeepsWindow (t : SenderReportTracker) : TrackerCall → Prop
  | .setSlopeFilterConfig config =>
    ∀ ssrc, (t.streams ssrc).retained ≤ max config.maxSamples (max config.minSamples 1)
  | _ => True

namespace SenderReportTracker

variable {t : SenderReportTracker} {fitSlope : List (ℤ × ℤ) → ℤ}

structure Windowed (t : SenderReportTracker) : Prop where
  consistent : ∀ ssrc, (t.streams ssrc).Consistent
  bounded : ∀ ssrc, (t.streams ssrc).retained ≤ t.slopeCfg.maxSamples

@[simp] theorem update_slopeCfg (t : SenderReportTracker) (ssrc : UInt32) (f : Stream → Stream) :
    (t.update ssrc f).slopeCfg = t.slopeCfg := rfl

/-- What an update keeps of its stream, it keeps of all. -/
theorem forall_update {P : Stream → Prop} {ssrc : UInt32} {f : Stream → Stream}
    (h : ∀ ssrc, P (t.streams ssrc)) (hf : P (f (t.streams ssrc))) :
    ∀ ssrc', P ((t.update ssrc f).streams ssrc') := by
  intro ssrc'
  simp only [update, Function.update_apply]
  split
  · exact hf
  · exact h ssrc'

theorem retained_tryAnchorAst (s : Stream) : s.tryAnchorAst.retained = s.retained := by
  rw [Stream.retained, s.tryAnchorAst_frame.1, Stream.retained]

theorem retained_refitSsrc (cfg : SlopeFilterConfig) (s : Stream) :
    (s.refitSsrc fitSlope cfg).retained = s.retained := by
  rw [Stream.retained, (Stream.refitSsrc_frame fitSlope cfg s).1, Stream.retained]

theorem retained_observeAbsSendTime (rtpTs ast : UInt32) (s : Stream) :
    (s.observeAbsSendTime rtpTs ast).retained = s.retained := by
  rw [Stream.observeAbsSendTime]
  split
  · rfl
  · exact retained_tryAnchorAst _

theorem retained_onSenderReport_le (cfg : SlopeFilterConfig) (sr : SenderReport) (localRecvUs : ℤ)
    (s : Stream) : (s.onSenderReport fitSlope cfg sr localRecvUs).retained ≤ cfg.maxSamples := by
  rw [Stream.onSenderReport, retained_tryAnchorAst, retained_refitSsrc]
  exact SsrcFit.length_retain_le _ _ _ _

theorem consistent_step (h : ∀ ssrc, (t.streams ssrc).Consistent) (call : TrackerCall) :
    ∀ ssrc, ((t.step fitSlope call).1.streams ssrc).Consistent := by
  cases call with
  | setMonotonicOrigin origin => exact h
  | setAstAgreementToleranceUs toleranceUs => exact h
  | setSsrcClockRate ssrc clockRateHz =>
    simp only [step]
    split
    · exact h
    · exact forall_update h ((h ssrc).setSsrcClockRate clockRateHz)
  | setSlopeFilterConfig config => exact fun ssrc => (h ssrc).refitSsrc fitSlope _
  | onSenderReport sr localRecvUs =>
    exact forall_update h ((h sr.ssrc).onSenderReport fitSlope _ sr localRecvUs)
  | observeAbsSendTime ssrc rtpTs ast =>
    exact forall_update h ((h ssrc).observeAbsSendTime rtpTs ast)
  | captureTsUsFor q =>
    show ∀ ssrc, ((if q.hasAst then _ else t : SenderReportTracker).streams ssrc).Consistent
    split
    · exact forall_update h ((h q.ssrc).observeAbsSendTime q.rtpTs q.ast)
    · exact h

/-- Where the windows fit, they do after a call that keeps them. -/
theorem bounded_step_iff (h : ∀ ssrc, (t.streams ssrc).retained ≤ t.slopeCfg.maxSamples)
    (call : TrackerCall) :
    (∀ ssrc, ((t.step fitSlope call).1.streams ssrc).retained
        ≤ (t.step fitSlope call).1.slopeCfg.maxSamples) ↔ call.KeepsWindow t := by
  cases call with
  | setMonotonicOrigin origin => exact iff_of_true h trivial
  | setAstAgreementToleranceUs toleranceUs => exact iff_of_true h trivial
  | setSsrcClockRate ssrc clockRateHz =>
    refine iff_of_true ?_ trivial
    simp only [step]
    split
    · exact h
    · exact forall_update (P := fun s => s.retained ≤ t.slopeCfg.maxSamples) h (Nat.zero_le _)
  | setSlopeFilterConfig config =>
    refine forall_congr' fun ssrc => ?_
    show (Stream.refitSsrc fitSlope _ _).retained ≤ _ ↔ _
    rw [retained_refitSsrc]
    exact Iff.rfl
  | onSenderReport sr localRecvUs =>
    exact iff_of_true (forall_update (P := fun s => s.retained ≤ t.slopeCfg.maxSamples) h
      (retained_onSenderReport_le _ _ _ _)) trivial
  | observeAbsSendTime ssrc rtpTs ast =>
    refine iff_of_true (forall_update (P := fun s => s.retained ≤ t.slopeCfg.maxSamples) h ?_)
      trivial
    rw [retained_observeAbsSendTime]
    exact h ssrc
  | captureTsUsFor q =>
    refine iff_of_true ?_ trivial
    show ∀ ssrc, ((if q.hasAst then _ else t : SenderReportTracker).streams ssrc).retained
      ≤ (if q.hasAst then _ else t : SenderReportTracker).slopeCfg.maxSamples
    split
    · refine forall_update (P := fun s => s.retained ≤ t.slopeCfg.maxSamples) h ?_
      rw [retained_observeAbsSendTime]
      exact h q.ssrc
    · exact h

/-- Along a run the windows fit exactly as long as no new configuration's is too small. -/
theorem window_iff (fitSlope : List (ℤ × ℤ) → ℤ) (calls : List TrackerCall) :
    (machine fitSlope).Always Windowed {} calls
      ↔ (machine fitSlope).Meets (fun t call => call.KeepsWindow t) {} calls := by
  have hnew : ∀ ssrc, (({} : SenderReportTracker).streams ssrc).Consistent :=
    fun _ => ⟨.nil, by simp, Nat.zero_le _, by simp, fun hfit => absurd rfl hfit⟩
  refine Machine.always_iff_meets (I := fun t => ∀ ssrc, (t.streams ssrc).Consistent)
    (fun t call h _ => consistent_step h call) (fun t call h _ hwindowed => ?_) calls hnew
    ⟨hnew, fun _ => Nat.zero_le _⟩ Machine.meets_true
  have hbounded := @bounded_step_iff t fitSlope hwindowed.bounded call
  exact ⟨fun hnext => hbounded.1 hnext.bounded,
    fun hkeeps => ⟨consistent_step h call, hbounded.2 hkeeps⟩⟩

/-- Two reports, then a window of one. -/
def shrinkingRun : List TrackerCall :=
  [.onSenderReport { ssrc := 7, rtpTimestamp := 1000 } 0,
    .onSenderReport { ssrc := 7, rtpTimestamp := 91000 } 1000000,
    .setSlopeFilterConfig { minSamples := 1, maxSamples := 1 }]

theorem shrunk_window_exceeded :
    ¬ ∀ (fitSlope : List (ℤ × ℤ) → ℤ) (calls : List TrackerCall),
      (machine fitSlope).Always Windowed {} calls := by
  intro h
  have hlast := (h (fun _ => 0) shrinkingRun).2.2.2.bounded 7
  exact absurd hlast (by decide)

end SenderReportTracker

end NimRtc.Rtp
