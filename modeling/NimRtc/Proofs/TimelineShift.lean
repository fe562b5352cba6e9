import NimRtc.Timeline

/-!
# Moving the counters of a timeline

The RTP timestamps and the abs-send-time values of each SSRC are moved by constants of its own.
Differences of two readings stay as they are, so the tracker of the moved run keeps the same window,
the same fit and the moved anchor (`Stream.Moved`), and returns the same.
-/

namespace NimRtc.Rtp

/-- A value of more than 24 bits is none of the counter's. -/
def shiftAst (j ast : UInt32) : UInt32 :=
  if ast ≤ kAbsSendTimeMask then (ast + j) &&& kAbsSendTimeMask else ast

def CaptureQuery.shift (k j : UInt32 → UInt32) (q : CaptureQuery) : CaptureQuery :=
  { q with rtpTs := q.rtpTs + k q.ssrc, ast := shiftAst (j q.ssrc) q.ast }

/-- The call with the RTP timestamps of each SSRC moved by `k` and its abs-send-times by `j`. -/
def TrackerCall.shift (k j : UInt32 → UInt32) : TrackerCall → TrackerCall
  | .onSenderReport sr localRecvUs =>
    .onSenderReport { sr with rtpTimestamp := sr.rtpTimestamp + k sr.ssrc } localRecvUs
  | .observeAbsSendTime ssrc rtpTs ast =>
    .observeAbsSendTime ssrc (rtpTs + k ssrc) (shiftAst (j ssrc) ast)
  | .captureTsUsFor q => .captureTsUsFor (q.shift k j)
  | call => call

/-! ### Readings -/

section readings

variable (a b k j : UInt32)

theorem rtpTsSignedDiff_shift : rtpTsSignedDiff (a + k) (b + k) = rtpTsSignedDiff a b := by
  simp only [rtpTsSignedDiff, add_sub_add_right_eq_sub]

theorem toNat_and_mask : (a &&& kAbsSendTimeMask).toNat = a.toNat % 2 ^ 24 := by
  rw [UInt32.toNat_and]
  exact Nat.and_two_pow_sub_one_eq_mod _ 24

theorem ast24SignedDiff_shift :
    ast24SignedDiff ((a + j) &&& kAbsSendTimeMask) ((b + j) &&& kAbsSendTimeMask)
      = ast24SignedDiff a b := by
  have hdiff : ((a + j) &&& kAbsSendTimeMask) - ((b + j) &&& kAbsSendTimeMask) &&& kAbsSendTimeMask
      = (a - b) &&& kAbsSendTimeMask := by
    have ha := a.toNat_lt
    have hb := b.toNat_lt
    have hj := j.toNat_lt
    rw [← UInt32.toNat_inj]
    simp only [toNat_and_mask, UInt32.toNat_sub, UInt32.toNat_add]
    omega
  simp only [ast24SignedDiff, hdiff]

variable {a}

theorem shiftAst_of_le (h : a ≤ kAbsSendTimeMask) :
    shiftAst j a = (a + j) &&& kAbsSendTimeMask := if_pos h

theorem shiftAst_le_iff : shiftAst j a ≤ kAbsSendTimeMask ↔ a ≤ kAbsSendTimeMask := by
  by_cases h : a ≤ kAbsSendTimeMask
  · rw [shiftAst, if_pos h]
    refine iff_of_true ?_ h
    rw [UInt32.le_iff_toNat_le, toNat_and_mask]
    exact Nat.le_of_lt_succ (Nat.mod_lt _ (by decide))
  · rw [shiftAst, if_neg h]

end readings

/-! ### Streams -/

def SrSample.shift (k : UInt32) (sample : SrSample) : SrSample :=
  { sample with rtpTs := sample.rtpTs + k }

def SsrcFit.shift (k : UInt32) (fit : SsrcFit) : SsrcFit :=
  { fit with samples := fit.samples.map (·.shift k) }

@[simp] theorem SsrcFit.shift_samples (k : UInt32) (fit : SsrcFit) :
    (fit.shift k).samples = fit.samples.map (·.shift k) := rfl

@[simp] theorem SsrcFit.shift_seeded (k : UInt32) (fit : SsrcFit) :
    (fit.shift k).seeded = fit.seeded := rfl

@[simp] theorem SsrcFit.shift_ewmaPsec (k : UInt32) (fit : SsrcFit) :
    (fit.shift k).ewmaPsec = fit.ewmaPsec := rfl

def AstObservation.shift (k j : UInt32) (o : AstObservation) : AstObservation :=
  ⟨o.rtpTs + k, (o.ast + j) &&& kAbsSendTimeMask⟩

/-- The state with another timestamp, and a position in the counter's cycle that no estimate reads.
Before the first report the timestamp is none of the peer's. -/
def SsrcTimelineState.Moved (k : UInt32) (st st' : SsrcTimelineState) : Prop :=
  ∃ srRtpTs srAbsSendUs, st' = { st with srRtpTs, srAbsSendUs }
    ∧ (st.srCount ≠ 0 → srRtpTs = st.srRtpTs + k)

structure Stream.Moved (k j : UInt32) (s s' : Stream) : Prop where
  state : Option.Rel (SsrcTimelineState.Moved k) s.state s'.state
  fit : s'.fit = s.fit.map (·.shift k)
  astObs : s'.astObs = s.astObs.map (·.shift k j)
  valid : s'.astAnchor.valid = s.astAnchor.valid
  ticks : s.astAnchor.valid = true →
    s'.astAnchor.ticks = (s.astAnchor.ticks + j) &&& kAbsSendTimeMask

section streams

variable {k j : UInt32} {s s' : Stream}

theorem SsrcFit.retain_shift (fit : SsrcFit) (rate : ℤ) (maxSamples : ℕ) (sample : SrSample) :
    (fit.shift k).retain rate maxSamples (sample.shift k)
      = (fit.retain rate maxSamples sample).shift k := by
  simp only [retain, shift, List.getLast?_map]
  rcases fit.samples.getLast? with _ | last
  · simp [SrSample.shift]
  · simp only [Option.map_some, SrSample.shift, rtpTsSignedDiff_shift]
    split <;> simp

def shiftNearest (k j : UInt32) (best : AstObservation × ℤ) : AstObservation × ℤ :=
  (best.1.shift k j, best.2)

theorem nearer_shift (windowTicks : ℤ) (srRtpTs : UInt32) (best : Option (AstObservation × ℤ))
    (o : AstObservation) :
    nearer windowTicks (srRtpTs + k) (best.map (shiftNearest k j)) (o.shift k j)
      = (nearer windowTicks srRtpTs best o).map (shiftNearest k j) := by
  simp only [nearer, AstObservation.shift, rtpTsSignedDiff_shift]
  split
  · rfl
  · rcases best with _ | ⟨o', bestDist⟩
    · rfl
    · simp only [Option.map_some, shiftNearest]
      split <;> rfl

theorem foldl_nearer_shift (windowTicks : ℤ) (srRtpTs : UInt32) :
    ∀ (obs : List AstObservation) (best : Option (AstObservation × ℤ)),
      (obs.map (·.shift k j)).foldl (nearer windowTicks (srRtpTs + k)) (best.map (shiftNearest k j))
        = (obs.foldl (nearer windowTicks srRtpTs) best).map (shiftNearest k j)
  | [], _ => rfl
  | o :: obs, best => by
    rw [List.map_cons, List.foldl_cons, List.foldl_cons, nearer_shift,
      foldl_nearer_shift windowTicks srRtpTs obs]

/-- The anchor is moved with the counter. -/
theorem anchorTicks_shift {st st' : SsrcTimelineState} (h : st.Moved k st') (hcount : st.srCount ≠ 0)
    (obs : List AstObservation) :
    anchorTicks st' (obs.map (·.shift k j))
      = (anchorTicks st obs).map fun ticks => (ticks + j) &&& kAbsSendTimeMask := by
  obtain ⟨srRtpTs, srAbsSendUs, rfl, hts⟩ := h
  have hts := hts hcount
  subst hts
  have hfind : (obs.map (·.shift k j)).reverse.find? (fun o => o.rtpTs = st.srRtpTs + k)
      = (obs.reverse.find? fun o => o.rtpTs = st.srRtpTs).map (·.shift k j) := by
    rw [← List.map_reverse, List.find?_map]
    congr 2
    funext o
    simp [AstObservation.shift]
  simp only [anchorTicks, hfind]
  generalize List.find? _ obs.reverse = found
  rcases found with _ | o
  · have hnearest := foldl_nearer_shift (k := k) (j := j)
      ((if st.clockRateHz ≠ 0 then st.clockRateHz else kDefaultClockRateHz).toNat
        * kAstAnchorWindowMs / 1000) st.srRtpTs obs none
    rw [Option.map_none] at hnearest
    simp only [Option.map_none, hnearest, Option.map_map]
    congr 1
    funext best
    simp only [Function.comp_apply, shiftNearest, AstObservation.shift, rtpTsSignedDiff_shift]
    generalize (rtpTsSignedDiff st.srRtpTs best.1.rtpTs * kAbsSendTimeClockRateHz).tdiv _ = delta
    have hast := best.1.ast.toNat_lt
    have hj := j.toNat_lt
    rw [← UInt32.toNat_inj]
    simp only [toNat_and_mask, UInt32.toNat_add, UInt32.toNat_ofNat', kAbsSendTimeModulus]
    omega
  · rfl

theorem Stream.Moved.tryAnchorAst (h : s.Moved k j s') : s.tryAnchorAst.Moved k j s'.tryAnchorAst := by
  obtain ⟨state, fit, astObs, astAnchor⟩ := s
  obtain ⟨state', fit', astObs', astAnchor'⟩ := s'
  obtain ⟨hstate, hfit, hobs, -, -⟩ := h
  dsimp only at hstate hfit hobs
  subst hfit hobs
  rcases hstate with ⟨hmoved⟩ | _
  · rename_i st st'
    have hcount : st'.srCount = st.srCount := by
      obtain ⟨_, _, rfl, -⟩ := hmoved
      rfl
    have hticks : (if st'.srCount = 0 then none else anchorTicks st' (astObs.map (·.shift k j)))
        = (if st.srCount = 0 then none else anchorTicks st astObs).map
            fun ticks => (ticks + j) &&& kAbsSendTimeMask := by
      rw [hcount]
      split
      · rfl
      · rename_i hne
        exact anchorTicks_shift hmoved hne astObs
    simp only [Stream.tryAnchorAst, hticks]
    obtain ⟨_, _, rfl, hts⟩ := hmoved
    rcases (if st.srCount = 0 then none else anchorTicks st astObs) with _ | ticks
    · exact ⟨.some ⟨_, _, rfl, hts⟩, rfl, rfl, rfl, by simp⟩
    · exact ⟨.some ⟨_, _, rfl, hts⟩, rfl, rfl, rfl, fun _ => rfl⟩
  · exact ⟨.none, rfl, rfl, rfl, by simp [Stream.tryAnchorAst]⟩

theorem Stream.Moved.refitSsrc (h : s.Moved k j s') (fitSlope : List (ℤ × ℤ) → ℤ)
    (cfg : SlopeFilterConfig) : (s.refitSsrc fitSlope cfg).Moved k j (s'.refitSsrc fitSlope cfg) := by
  obtain ⟨state, fit, astObs, astAnchor⟩ := s
  obtain ⟨state', fit', astObs', astAnchor'⟩ := s'
  obtain ⟨hstate, hfit, hobs, hvalid, hticks⟩ := h
  dsimp only at hstate hfit hobs hvalid hticks
  subst hfit
  rcases hstate with ⟨_, _, rfl, hts⟩ | _
  · rcases fit with _ | fit
    · exact ⟨.some ⟨_, _, rfl, hts⟩, rfl, hobs, hvalid, hticks⟩
    · have hwindow : (fit.shift k).samples.map (fun sample => (sample.tickPos, sample.ntpUnixUs))
          = fit.samples.map fun sample => (sample.tickPos, sample.ntpUnixUs) := by
        rw [SsrcFit.shift_samples, List.map_map]
        rfl
      have hlength : (fit.shift k).samples.length = fit.samples.length := by simp
      simp only [Stream.refitSsrc, Option.map_some, hwindow, hlength, SsrcFit.shift_seeded,
        SsrcFit.shift_ewmaPsec]
      split_ifs <;> exact ⟨.some ⟨_, _, rfl, hts⟩, rfl, hobs, hvalid, hticks⟩
  · rcases fit with _ | fit <;> exact ⟨.none, rfl, hobs, hvalid, hticks⟩

theorem Stream.Moved.setSsrcClockRate (h : s.Moved k j s') (clockRateHz : UInt32) :
    (s.setSsrcClockRate clockRateHz).Moved k j (s'.setSsrcClockRate clockRateHz) := by
  obtain ⟨state, fit, astObs, astAnchor⟩ := s
  obtain ⟨state', fit', astObs', astAnchor'⟩ := s'
  obtain ⟨hstate, -, hobs, hvalid, hticks⟩ := h
  rcases hstate with ⟨_, _, rfl, hts⟩ | _
  · exact ⟨.some ⟨_, _, rfl, hts⟩, rfl, hobs, hvalid, hticks⟩
  · exact ⟨.some ⟨_, _, rfl, fun hne => absurd rfl hne⟩, rfl, hobs, hvalid, hticks⟩

theorem Stream.Moved.onSenderReport (h : s.Moved k j s') (fitSlope : List (ℤ × ℤ) → ℤ)
    (cfg : SlopeFilterConfig) (sr : SenderReport) (localRecvUs : ℤ) :
    (s.onSenderReport fitSlope cfg sr localRecvUs).Moved k j
      (s'.onSenderReport fitSlope cfg { sr with rtpTimestamp := sr.rtpTimestamp + k }
        localRecvUs) := by
  obtain ⟨state, fit, astObs, astAnchor⟩ := s
  obtain ⟨state', fit', astObs', astAnchor'⟩ := s'
  obtain ⟨hstate, hfit, hobs, hvalid, hticks⟩ := h
  dsimp only at hstate hfit hobs hvalid hticks
  subst hfit
  have hwindow : ∀ rate : ℤ, ((fit.map (SsrcFit.shift k)).getD {}).retain rate cfg.maxSamples
        ⟨unixUsFromNtp64 sr.ntpTimestamp, sr.rtpTimestamp + k, localRecvUs, 0⟩
      = ((fit.getD {}).retain rate cfg.maxSamples
        ⟨unixUsFromNtp64 sr.ntpTimestamp, sr.rtpTimestamp, localRecvUs, 0⟩).shift k := by
    intro rate
    rw [← SsrcFit.retain_shift]
    rcases fit with _ | fit <;> rfl
  refine Stream.Moved.tryAnchorAst (Stream.Moved.refitSsrc ?_ fitSlope cfg)
  rcases hstate with ⟨_, _, rfl, -⟩ | _
  · exact ⟨.some ⟨_, _, rfl, fun _ => rfl⟩, congrArg some (hwindow _), hobs, hvalid, hticks⟩
  · exact ⟨.some ⟨_, _, rfl, fun _ => rfl⟩, congrArg some (hwindow _), hobs, hvalid, hticks⟩

theorem Stream.Moved.observeAbsSendTime (h : s.Moved k j s') (rtpTs ast : UInt32) :
    (s.observeAbsSendTime rtpTs ast).Moved k j
      (s'.observeAbsSendTime (rtpTs + k) (shiftAst j ast)) := by
  by_cases hlegal : ast ≤ kAbsSendTimeMask
  · have hring : s'.astObs ++ [AstObservation.mk (rtpTs + k) (shiftAst j ast)]
        = (s.astObs ++ [AstObservation.mk rtpTs ast]).map (AstObservation.shift k j) := by
      rw [List.map_append, ← h.astObs, shiftAst_of_le j hlegal]
      rfl
    rw [Stream.observeAbsSendTime, Stream.observeAbsSendTime, if_neg (UInt32.not_lt.2 hlegal),
      if_neg (UInt32.not_lt.2 ((shiftAst_le_iff j).2 hlegal)), hring]
    apply Stream.Moved.tryAnchorAst
    refine ⟨h.state, h.fit, ?_, h.valid, h.ticks⟩
    simp only [List.length_map]
    split
    · exact List.map_tail.symm
    · rfl
  · have hillegal : ¬ shiftAst j ast ≤ kAbsSendTimeMask := fun hle =>
      hlegal ((shiftAst_le_iff j).1 hle)
    rw [Stream.observeAbsSendTime, Stream.observeAbsSendTime, if_pos (UInt32.not_le.1 hlegal),
      if_pos (UInt32.not_le.1 hillegal)]
    exact h

end streams

/-! ### The tracker -/

namespace SenderReportTracker

structure Moved (k j : UInt32 → UInt32) (t t' : SenderReportTracker) : Prop where
  origin : t'.origin = t.origin
  astToleranceUs : t'.astToleranceUs = t.astToleranceUs
  slopeCfg : t'.slopeCfg = t.slopeCfg
  streams : ∀ ssrc, (t.streams ssrc).Moved (k ssrc) (j ssrc) (t'.streams ssrc)

variable {k j : UInt32 → UInt32} {t t' : SenderReportTracker}

theorem Moved.update (h : t.Moved k j t') {ssrc : UInt32} {f g : Stream → Stream}
    (hfg : (f (t.streams ssrc)).Moved (k ssrc) (j ssrc) (g (t'.streams ssrc))) :
    (t.update ssrc f).Moved k j (t'.update ssrc g) := by
  refine ⟨h.origin, h.astToleranceUs, h.slopeCfg, fun ssrc' => ?_⟩
  simp only [SenderReportTracker.update, Function.update_apply]
  split
  · rename_i heq
    rw [heq]
    exact hfg
  · exact h.streams ssrc'

theorem forwardTicks_shift {st st' : SsrcTimelineState} (q : CaptureQuery)
    (hst : st.Moved (k q.ssrc) st') (hcount : st.srCount ≠ 0) :
    (q.shift k j).forwardTicks st' = q.forwardTicks st := by
  obtain ⟨srRtpTs, srAbsSendUs, rfl, hts⟩ := hst
  have hdiff : rtpTsSignedDiff (q.rtpTs + k q.ssrc) srRtpTs = rtpTsSignedDiff q.rtpTs st.srRtpTs := by
    rw [hts hcount, rtpTsSignedDiff_shift]
  simp only [CaptureQuery.forwardTicks, CaptureQuery.shift, hdiff]
  rfl

theorem refine_shift {s s' : Stream} (q : CaptureQuery) (h : s.Moved (k q.ssrc) (j q.ssrc) s')
    (toleranceUs : ℤ) (st : SsrcTimelineState) (captureUs : ℤ) :
    (q.shift k j).refine toleranceUs st s'.astAnchor captureUs
      = q.refine toleranceUs st s.astAnchor captureUs := by
  simp only [CaptureQuery.refine, CaptureQuery.shift, shiftAst_le_iff, h.valid]
  split
  · rename_i hrefines
    obtain ⟨-, -, hlegal, -, hvalid⟩ := hrefines
    have helapsed : ast24SignedDiff (shiftAst (j q.ssrc) q.ast) s'.astAnchor.ticks
        = ast24SignedDiff q.ast s.astAnchor.ticks := by
      rw [shiftAst_of_le _ hlegal, h.ticks hvalid, ast24SignedDiff_shift]
    simp only [helapsed]
  · rfl

/-- The timestamp of the report plays no part in the rest of an estimate. -/
theorem rest_shift {st st' : SsrcTimelineState} {k₀ : UInt32} (q : CaptureQuery)
    (hst : st.Moved k₀ st') :
    st'.srUnixUs = st.srUnixUs ∧ (q.shift k j).deltaUs st' = q.deltaUs st
      ∧ (∀ origin, (q.shift k j).skewUs origin st' = q.skewUs origin st)
      ∧ ∀ toleranceUs anchor captureUs, q.refine toleranceUs st' anchor captureUs
        = q.refine toleranceUs st anchor captureUs := by
  obtain ⟨srRtpTs, srAbsSendUs, rfl, -⟩ := hst
  exact ⟨rfl, rfl, fun _ => rfl, fun _ _ _ => rfl⟩

/-- An estimate reads differences only. -/
theorem Moved.estimate (h : t.Moved k j t') (q : CaptureQuery) :
    t'.estimate (q.shift k j) = t.estimate q := by
  have hstate := (h.streams q.ssrc).state
  generalize hst : (t.streams q.ssrc).state = state at hstate
  generalize hst' : (t'.streams q.ssrc).state = state' at hstate
  have hssrc : (q.shift k j).ssrc = q.ssrc := rfl
  simp only [SenderReportTracker.estimate, hssrc, hst, hst', h.origin, h.astToleranceUs]
  rcases hstate with hmoved | _
  · rename_i st st'
    have hcount : st'.srCount = st.srCount := by
      obtain ⟨_, _, rfl, -⟩ := hmoved
      rfl
    obtain ⟨hunix, hdelta, hskew, hrefine⟩ := rest_shift (k := k) (j := j) q hmoved
    dsimp only
    rw [hcount]
    split
    · rfl
    · rename_i hne
      rw [forwardTicks_shift q hmoved hne]
      rcases q.forwardTicks st with _ | ticks
      · rfl
      · simp only [hunix, hdelta, hskew, hrefine, refine_shift q (h.streams q.ssrc)]
  · rfl

theorem Moved.step (h : t.Moved k j t') (fitSlope : List (ℤ × ℤ) → ℤ) (call : TrackerCall) :
    (t.step fitSlope call).1.Moved k j (t'.step fitSlope (call.shift k j)).1
      ∧ (t'.step fitSlope (call.shift k j)).2 = (t.step fitSlope call).2.map id := by
  cases call with
  | setMonotonicOrigin origin => exact ⟨⟨rfl, h.astToleranceUs, h.slopeCfg, h.streams⟩, rfl⟩
  | setAstAgreementToleranceUs toleranceUs => exact ⟨⟨h.origin, rfl, h.slopeCfg, h.streams⟩, rfl⟩
  | setSsrcClockRate ssrc clockRateHz =>
    refine ⟨?_, rfl⟩
    simp only [SenderReportTracker.step, TrackerCall.shift]
    split
    · exact h
    · exact h.update ((h.streams ssrc).setSsrcClockRate clockRateHz)
  | setSlopeFilterConfig config =>
    exact ⟨⟨h.origin, h.astToleranceUs, rfl, fun ssrc => (h.streams ssrc).refitSsrc fitSlope _⟩, rfl⟩
  | onSenderReport sr localRecvUs =>
    refine ⟨?_, rfl⟩
    simp only [SenderReportTracker.step, TrackerCall.shift, h.slopeCfg]
    exact h.update ((h.streams sr.ssrc).onSenderReport fitSlope _ sr localRecvUs)
  | observeAbsSendTime ssrc rtpTs ast =>
    exact ⟨h.update ((h.streams ssrc).observeAbsSendTime rtpTs ast), rfl⟩
  | captureTsUsFor q =>
    have hrecorded : (t.captureTsUsFor q).1.Moved k j (t'.captureTsUsFor (q.shift k j)).1 := by
      show Moved k j (if q.hasAst then _ else t) (if q.hasAst then _ else t')
      split
      · exact h.update ((h.streams q.ssrc).observeAbsSendTime q.rtpTs q.ast)
      · exact h
    exact ⟨hrecorded, congrArg (fun out => [out]) (hrecorded.estimate q)⟩

/-- What the calls return does not change when the RTP timestamps of each SSRC are moved by a constant
modulo `2 ^ 32`, and its abs-send-times by one modulo `2 ^ 24`. -/
theorem captures_shift (fitSlope : List (ℤ × ℤ) → ℤ) (calls : List TrackerCall)
    (k j : UInt32 → UInt32) :
    captures fitSlope (calls.map (·.shift k j)) = captures fitSlope calls := by
  have hnew : Moved k j {} {} := ⟨rfl, rfl, rfl, fun _ => ⟨.none, rfl, rfl, rfl, by simp⟩⟩
  have hsim := (Machine.exec_sim (M := machine fitSlope) (N := machine fitSlope)
    (R := Moved k j) (f := TrackerCall.shift k j) (g := id)
    (fun _ _ call h _ => h.step fitSlope call) calls hnew Machine.meets_true).2
  rwa [List.map_id] at hsim

end SenderReportTracker

end NimRtc.Rtp
