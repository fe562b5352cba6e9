import NimRtc.Lib.Machine
import NimRtc.RtcpPacket

/-!
# The sender's timeline

`SenderReportTracker` of `timeline.cpp`. The maps are one function from SSRCs to streams: an SSRC
that is in none of them has an empty stream. The least-squares fit is a function `fitSlope` of the
tick positions and NTP times that are retained, oldest first. Times are in microseconds, counted from
the Unix epoch where the name says so.
-/

namespace NimRtc.Rtp

def kRtpTsModulus : ℤ := 2 ^ 32

def kDefaultClockRateHz : UInt32 := 90000

def kAbsSendTimeMask : UInt32 := 0x00FFFFFF

def kAbsSendTimeModulus : ℤ := 2 ^ 24

def kAbsSendTimeClockRateHz : ℤ := 65536

def kMaxAstObservations : ℕ := 64

/-- How far from a sender report an observation may be to anchor it. -/
def kAstAnchorWindowMs : ℤ := 250

def kNtpEpochOffset : ℤ := 2208988800

/-- `rtp_ts_signed_diff` -/
def rtpTsSignedDiff (a b : UInt32) : ℤ :=
  let d := a - b
  if d ≤ 0x7FFFFFFF then d.toNat else d.toNat - kRtpTsModulus

/-- Ticks of 2^-16 s in microseconds, rounded away from zero at a half. -/
def astTicksToUs (ticks : ℤ) : ℤ :=
  let num := ticks * 1000000
  if 0 ≤ num then (num + 32768) / 65536 else -((-num + 32768) / 65536)

/-- `ast24_signed_diff` -/
def ast24SignedDiff (a b : UInt32) : ℤ :=
  let d := (a - b) &&& kAbsSendTimeMask
  if d ≤ 0x7FFFFF then d.toNat else d.toNat - 2 ^ 24

/-- The seconds of an NTP timestamp since 1900, and its fraction in microseconds. -/
def ntp64Parts (ntp : UInt64) : ℤ × ℤ :=
  ((ntp >>> 32).toNat, (ntp &&& 0xFFFFFFFF).toNat * 1000000 / 4294967296)

/-- An NTP instant in Unix microseconds; before 1970 only the fraction is left. -/
def unixUsFromNtp64 (ntp : UInt64) : ℤ :=
  let (ntpSeconds, fracUs) := ntp64Parts ntp
  let unixSeconds := ntpSeconds - kNtpEpochOffset
  if unixSeconds < 0 then fracUs else unixSeconds * 1000000 + fracUs

/-- `system_clock_from_ntp64` -/
def systemClockFromNtp64 (ntp : UInt64) : ℤ :=
  let (ntpSeconds, fracUs) := ntp64Parts ntp
  max (ntpSeconds - kNtpEpochOffset) 0 * 1000000 + fracUs

/-- `encode_abs_send_time_24` -/
def encodeAbsSendTime24 (monotonicUs : ℤ) (origin : UInt64) : UInt32 :=
  let unixUs := unixUsFromNtp64 origin + monotonicUs
  let usInt := if unixUs < 0 then 0 else unixUs / 1000000
  let usRem := if unixUs < 0 then 0 else unixUs % 1000000
  let ticks := UInt64.ofInt usInt * UInt64.ofInt kAbsSendTimeClockRateHz
    + UInt64.ofInt usRem * UInt64.ofInt kAbsSendTimeClockRateHz / 1000000
  (ticks &&& 0xFFFFFF).toUInt32

/-- `decode_abs_send_time_24` -/
def decodeAbsSendTime24 (raw : UInt32) : ℤ :=
  (raw &&& 0xFFFFFF).toNat * 1000000 / kAbsSendTimeClockRateHz

/-- Picoseconds per tick of the nominal clock. -/
def nominalSlopePsec (clockRateHz : UInt32) : ℤ :=
  if clockRateHz = 0 then 0 else 1000000000000 / clockRateHz.toNat

/-! ### Streams -/

/-- One point of the clock fit: a sender report and when it came. -/
structure SrSample where
  ntpUnixUs : ℤ
  rtpTs : UInt32
  localRecvUs : ℤ
  tickPos : ℤ
  deriving DecidableEq, Repr

/-- `SlopeFilterConfig` -/
structure SlopeFilterConfig where
  minSamples : ℕ := 2
  maxSamples : ℕ := 16
  ewmaAlphaPermille : ℕ := 250
  deriving DecidableEq, Repr

/-- `SsrcTimelineState`: the last sender report of an SSRC and the fitted slope. -/
structure SsrcTimelineState where
  srNtp64 : UInt64 := 0
  srRtpTs : UInt32 := 0
  srLocalRecvUs : ℤ := 0
  slopeNsecPerRtpTs : ℤ := 0
  slopePsecPerRtpTs : ℤ := 0
  clockRateHz : UInt32 := 90000
  srCount : UInt32 := 0
  slopeSampleCount : ℕ := 0
  slopeFitted : Bool := false
  srAbsSendUs : ℤ := 0
  srAbsSendAnchored : Bool := false
  deriving DecidableEq, Repr

/-- An abs-send-time seen beside an RTP timestamp. -/
structure AstObservation where
  rtpTs : UInt32
  ast : UInt32
  deriving DecidableEq, Repr

/-- The abs-send-time that belongs to the last sender report, once it is known. -/
structure AstAnchor where
  valid : Bool := false
  ticks : UInt32 := 0
  deriving DecidableEq, Repr

/-- The samples of one SSRC and the average of its fits. -/
structure SsrcFit where
  samples : List SrSample := []
  ewmaPsec : ℤ := 0
  seeded : Bool := false
  /-- The fits that went into the average since it was last seeded. -/
  accepted : List ℤ := []
  deriving DecidableEq, Repr

/-- All that is kept for one SSRC. -/
structure Stream where
  state : Option SsrcTimelineState := none
  fit : Option SsrcFit := none
  astObs : List AstObservation := []
  astAnchor : AstAnchor := {}
  deriving DecidableEq, Repr

/-- The window with one more sample, whose `tickPos` is still to be found. -/
def SsrcFit.retain (fit : SsrcFit) (rate : ℤ) (maxSamples : ℕ) (sample : SrSample) : SsrcFit :=
  let fit :=
    match fit.samples.getLast? with
    | none => { fit with samples := [{ sample with tickPos := 0 }] }
    | some last =>
      let delta := rtpTsSignedDiff sample.rtpTs last.rtpTs
      if delta < 0 ∨ rate * 3600 < delta then
        { fit with samples := [{ sample with tickPos := 0 }], seeded := false }
      else { fit with samples := fit.samples ++ [{ sample with tickPos := last.tickPos + delta }] }
  { fit with samples := fit.samples.drop (fit.samples.length - maxSamples) }

/-- The nearest observation so far, with its distance. -/
def nearer (windowTicks : ℤ) (srRtpTs : UInt32) (best : Option (AstObservation × ℤ))
    (o : AstObservation) : Option (AstObservation × ℤ) :=
  let ad := |rtpTsSignedDiff o.rtpTs srRtpTs|
  if windowTicks < ad then best
  else
    match best with
    | none => some (o, ad)
    | some (_, bestDist) => if ad < bestDist then some (o, ad) else best

/-- The counter value at the instant of the report. -/
def anchorTicks (st : SsrcTimelineState) (obs : List AstObservation) : Option UInt32 :=
  let rate : ℤ := (if st.clockRateHz ≠ 0 then st.clockRateHz else kDefaultClockRateHz).toNat
  match obs.reverse.find? fun o => o.rtpTs = st.srRtpTs with
  | some o => some o.ast
  | none =>
    (obs.foldl (nearer (rate * kAstAnchorWindowMs / 1000) st.srRtpTs) none).map fun (best, _) =>
      let mediaTicks := rtpTsSignedDiff st.srRtpTs best.rtpTs
      let astTicksDelta := (mediaTicks * kAbsSendTimeClockRateHz).tdiv rate
      UInt32.ofNat ((best.ast.toNat + astTicksDelta) % kAbsSendTimeModulus).toNat

namespace Stream

/-- `try_anchor_ast` -/
def tryAnchorAst (s : Stream) : Stream :=
  match s.state with
  | none => { s with astAnchor := {} }
  | some st =>
    match if st.srCount = 0 then none else anchorTicks st s.astObs with
    | none =>
      { s with
        astAnchor := {}
        state := some { st with srAbsSendAnchored := false, srAbsSendUs := 0 } }
    | some ticks =>
      { s with
        astAnchor := ⟨true, ticks⟩
        state :=
          some { st with srAbsSendAnchored := true, srAbsSendUs := decodeAbsSendTime24 ticks } }

/-- A fit is rejected where it deviates by more than a twentieth from the nominal slope. The source
compares doubles, but a twentieth of a nominal slope is exact enough there. -/
def refitSsrc (fitSlope : List (ℤ × ℤ) → ℤ) (cfg : SlopeFilterConfig) (s : Stream) : Stream :=
  match s.fit, s.state with
  | some fit, some st =>
    let nominal := nominalSlopePsec st.clockRateHz
    let st := { st with slopeSampleCount := fit.samples.length }
    if cfg.minSamples < 2 ∨ fit.samples.length < cfg.minSamples then
      { s with
        state :=
          some
            { st with
              slopeFitted := false
              slopePsecPerRtpTs := nominal
              slopeNsecPerRtpTs := (nominal + 500) / 1000 } }
    else
      let fitted := fitSlope (fit.samples.map fun sample => (sample.tickPos, sample.ntpUnixUs))
      if fitted ≤ 0 ∨ nominal < |fitted - nominal| * 20 then { s with state := some st }
      else
        let alpha : ℤ := cfg.ewmaAlphaPermille
        let ewmaPsec :=
          if fit.seeded then (fit.ewmaPsec * (1000 - alpha) + fitted * alpha).tdiv 1000 else fitted
        { s with
          fit :=
            some
              { fit with
                ewmaPsec
                seeded := true
                accepted := if fit.seeded then fit.accepted ++ [fitted] else [fitted] }
          state :=
            some
              { st with
                slopeFitted := true
                slopePsecPerRtpTs := ewmaPsec
                slopeNsecPerRtpTs := (ewmaPsec + 500).tdiv 1000 } }
  | _, _ => s

/-- `set_ssrc_clock_rate`: the fit starts anew at the nominal slope. -/
def setSsrcClockRate (clockRateHz : UInt32) (s : Stream) : Stream :=
  let nominal := nominalSlopePsec clockRateHz
  { s with
    fit := none
    state :=
      some
        { s.state.getD {} with
          clockRateHz
          slopeFitted := false
          slopeSampleCount := 0
          slopePsecPerRtpTs := nominal
          slopeNsecPerRtpTs := (nominal + 500) / 1000 } }

/-- `on_sender_report`, for the SSRC it names. -/
def onSenderReport (fitSlope : List (ℤ × ℤ) → ℤ) (cfg : SlopeFilterConfig) (sr : SenderReport)
    (localRecvUs : ℤ) (s : Stream) : Stream :=
  let st := s.state.getD {}
  let st :=
    { st with
      srNtp64 := sr.ntpTimestamp
      srRtpTs := sr.rtpTimestamp
      srLocalRecvUs := localRecvUs
      srAbsSendUs := 0
      clockRateHz := if st.clockRateHz = 0 then kDefaultClockRateHz else st.clockRateHz
      srCount := st.srCount + 1 }
  let sample : SrSample := ⟨unixUsFromNtp64 sr.ntpTimestamp, sr.rtpTimestamp, localRecvUs, 0⟩
  let fit := (s.fit.getD {}).retain st.clockRateHz.toNat cfg.maxSamples sample
  ({ s with state := some st, fit := some fit }.refitSsrc fitSlope cfg).tryAnchorAst

/-- `observe_abs_send_time`: the ring keeps the last 64. -/
def observeAbsSendTime (rtpTs ast : UInt32) (s : Stream) : Stream :=
  if kAbsSendTimeMask < ast then s
  else
    let ring := s.astObs ++ [⟨rtpTs, ast⟩]
    { s with astObs := if kMaxAstObservations < ring.length then ring.tail else ring }.tryAnchorAst

end Stream

/-! ### The tracker -/

/-- The arguments of `capture_ts_us_for`. -/
structure CaptureQuery where
  ssrc : UInt32
  rtpTs : UInt32
  ast : UInt32
  hasAst : Bool
  clockRateHz : UInt32
  localRecvUs : ℤ
  deriving DecidableEq, Repr

/-- The instant of the last sender report. -/
def SsrcTimelineState.srUnixUs (st : SsrcTimelineState) : ℤ :=
  let (ntpSeconds, fracUs) := ntp64Parts st.srNtp64
  max (ntpSeconds - kNtpEpochOffset) 0 * 1000000 + fracUs

namespace CaptureQuery

variable (q : CaptureQuery)

/-- The rate of the call, else the one that was set. -/
def rateHz (st : SsrcTimelineState) : ℤ :=
  if q.clockRateHz ≠ 0 then q.clockRateHz.toNat else st.clockRateHz.toNat

/-- How far the packet is past the report. One of up to a second before it counts as sent with it,
and an earlier one has no estimate. -/
def forwardTicks (st : SsrcTimelineState) : Option ℤ :=
  let rtpDiff := rtpTsSignedDiff q.rtpTs st.srRtpTs
  if q.rateHz st ≤ 0 then none
  else if rtpDiff < 0 then
    if q.rateHz st < -rtpDiff then none else some 0
  else some rtpDiff

/-- Microseconds that `ticks` last, by the fitted slope or the nominal clock. -/
def deltaUs (st : SsrcTimelineState) (ticks : ℤ) : ℤ :=
  if st.slopeFitted ∧ 0 < st.slopePsecPerRtpTs then ticks * st.slopePsecPerRtpTs / 1000000
  else ticks * 1000000 / q.rateHz st

/-- The capture instant by the abs-send-time, where it agrees with the one by the RTP timestamp. -/
def refine (toleranceUs : ℤ) (st : SsrcTimelineState) (anchor : AstAnchor) (captureUs : ℤ) : ℤ :=
  if q.hasAst ∧ 0 < toleranceUs ∧ q.ast ≤ kAbsSendTimeMask ∧ st.srAbsSendAnchored
      ∧ anchor.valid then
    let refinedUs := st.srUnixUs + astTicksToUs (ast24SignedDiff q.ast anchor.ticks)
    if |refinedUs - captureUs| ≤ toleranceUs then refinedUs else captureUs
  else captureUs

/-- How far the arrival is off the one the last sender report predicts. -/
def skewUs (origin : UInt64) (st : SsrcTimelineState) (captureUs : ℤ) : ℤ :=
  if origin = 0 then 0
  else
    (unixUsFromNtp64 origin + q.localRecvUs - captureUs)
      - (unixUsFromNtp64 origin + st.srLocalRecvUs - st.srUnixUs)

end CaptureQuery

/-- `SenderReportTracker`: the origin, the tolerance and a stream for each SSRC. -/
structure SenderReportTracker where
  origin : UInt64 := 0
  astToleranceUs : ℤ := 1000000
  streams : UInt32 → Stream := fun _ => {}
  slopeCfg : SlopeFilterConfig := {}

namespace SenderReportTracker

/-- The stream of one SSRC changes. -/
def update (t : SenderReportTracker) (ssrc : UInt32) (f : Stream → Stream) : SenderReportTracker :=
  { t with streams := Function.update t.streams ssrc (f (t.streams ssrc)) }

/-- `set_slope_filter_config` -/
def setSlopeFilterConfig (fitSlope : List (ℤ × ℤ) → ℤ) (config : SlopeFilterConfig)
    (t : SenderReportTracker) : SenderReportTracker :=
  let minSamples := max config.minSamples 1
  let cfg : SlopeFilterConfig :=
    { minSamples
      maxSamples := max config.maxSamples minSamples
      ewmaAlphaPermille := min (max config.ewmaAlphaPermille 1) 1000 }
  { t with slopeCfg := cfg, streams := fun ssrc => (t.streams ssrc).refitSsrc fitSlope cfg }

/-- What `capture_ts_us_for` returns once the observation is recorded: the capture instant and the
skew. -/
def estimate (t : SenderReportTracker) (q : CaptureQuery) : Option ℤ × ℤ :=
  match (t.streams q.ssrc).state with
  | none => (none, 0)
  | some st =>
    if st.srCount = 0 then (none, 0)
    else
      match q.forwardTicks st with
      | none => (none, 0)
      | some ticks =>
        let captureUs := q.refine t.astToleranceUs st (t.streams q.ssrc).astAnchor
          (st.srUnixUs + q.deltaUs st ticks)
        (some captureUs, q.skewUs t.origin st captureUs)

/-- `capture_ts_us_for` -/
def captureTsUsFor (t : SenderReportTracker) (q : CaptureQuery) :
    SenderReportTracker × (Option ℤ × ℤ) :=
  let t := if q.hasAst then t.update q.ssrc (·.observeAbsSendTime q.rtpTs q.ast) else t
  (t, t.estimate q)

end SenderReportTracker

/-! ### Runs -/

/-- A call on the tracker. -/
inductive TrackerCall
  | setMonotonicOrigin (origin : UInt64)
  | setAstAgreementToleranceUs (toleranceUs : ℤ)
  | setSsrcClockRate (ssrc clockRateHz : UInt32)
  | setSlopeFilterConfig (config : SlopeFilterConfig)
  | onSenderReport (sr : SenderReport) (localRecvUs : ℤ)
  | observeAbsSendTime (ssrc rtpTs ast : UInt32)
  | captureTsUsFor (q : CaptureQuery)

namespace SenderReportTracker

variable (fitSlope : List (ℤ × ℤ) → ℤ)

/-- One call, and the capture times it returns. -/
def step (t : SenderReportTracker) : TrackerCall → SenderReportTracker × List (Option ℤ × ℤ)
  | .setMonotonicOrigin origin => ({ t with origin }, [])
  | .setAstAgreementToleranceUs toleranceUs => ({ t with astToleranceUs := max toleranceUs 0 }, [])
  | .setSsrcClockRate ssrc clockRateHz =>
    (if clockRateHz = 0 then t else t.update ssrc (·.setSsrcClockRate clockRateHz), [])
  | .setSlopeFilterConfig config => (t.setSlopeFilterConfig fitSlope config, [])
  | .onSenderReport sr localRecvUs =>
    (t.update sr.ssrc (·.onSenderReport fitSlope t.slopeCfg sr localRecvUs), [])
  | .observeAbsSendTime ssrc rtpTs ast => (t.update ssrc (·.observeAbsSendTime rtpTs ast), [])
  | .captureTsUsFor q =>
    let (t, out) := t.captureTsUsFor q
    (t, [out])

/-- The tracker under a list of calls. -/
def machine : Machine SenderReportTracker TrackerCall (Option ℤ × ℤ) := ⟨step fitSlope⟩

/-- The capture instants and skews that the calls on a new tracker return. -/
def captures (calls : List TrackerCall) : List (Option ℤ × ℤ) :=
  ((machine fitSlope).exec {} calls).2

end SenderReportTracker

end NimRtc.Rtp
