import NimRtc.Lib.Machine

/-!
# Bandwidth estimators

`Bwe` of `bwe.cpp` and `GoogCcBwe` of `goog_cc_bwe.cpp`, behind the calls of `IBwe`. Rates are in
bits per second, instants in nanoseconds and intervals in milliseconds. The doubles of the source
are rationals.
-/

namespace NimRtc

/-- A double as a `uint32_t`. Where the truncated value does not fit, C++ leaves the result
undefined; here it is the low 32 bits, as x86-64 has it. -/
def toUInt32 (x : ℚ) : UInt32 := UInt32.ofInt (if 0 ≤ x then ⌊x⌋ else ⌈x⌉)

/-- `std::clamp`. -/
def clamp (v lo hi : UInt32) : UInt32 := if v < lo then lo else if hi < v then hi else v

/-- The bounds that the rates are kept in. -/
structure BweConfig where
  initialBitrateBps : UInt32 := 1000000
  maxBitrateBps : UInt32 := 10000000
  minBitrateBps : UInt32 := 30000
  increaseBps : UInt32 := 50000
  decreaseFactor : ℚ := 1 / 2
  changeInterval : ℤ := 200
  smoothingAlpha : ℚ := 1 / 10
  deriving DecidableEq, Repr

/-- The bounds are in order. -/
structure BweConfig.Valid (c : BweConfig) : Prop where
  min_le_initial : c.minBitrateBps ≤ c.initialBitrateBps
  initial_le_max : c.initialBitrateBps ≤ c.maxBitrateBps
  factor_nonneg : 0 ≤ c.decreaseFactor
  factor_le_one : c.decreaseFactor ≤ 1
  alpha_nonneg : 0 ≤ c.smoothingAlpha
  alpha_le_one : c.smoothingAlpha ≤ 1

/-- What the receiver reports. -/
structure BweFeedback where
  lossRate : ℚ := 0
  rtt : ℤ := 0
  rembBps : Option UInt32 := none
  timestamp : ℤ := 0
  deriving DecidableEq, Repr

/-- Why the estimate is what it is. -/
inductive BweReason
  | initial
  | aimdIncrease
  | aimdDecrease
  | rembOverride
  | rttIncrease
  deriving DecidableEq, Repr

/-- What an estimator reports. -/
structure BweEstimate where
  targetBitrateBps : UInt32
  pacingBitrateBps : UInt32
  timestamp : ℤ
  reason : BweReason
  deriving DecidableEq, Repr

/-- How much of the REMB is taken. -/
def kRembTrustFactor : ℚ := 8 / 10

/-- The share of packets from which on a feedback counts as lossy. -/
def kLossEventThreshold : ℚ := 2 / 100

/-- The milliseconds that a decrease holds. -/
def kDecreaseCooldown : ℤ := 500

def kNanosecondsPerMillisecond : ℤ := 1000000

/-- The feedback reports a loss. -/
def BweFeedback.isLossy (f : BweFeedback) : Prop := kLossEventThreshold ≤ f.lossRate

instance decidableIsLossy (f : BweFeedback) : Decidable f.isLossy :=
  inferInstanceAs (Decidable (_ ≤ _))

/-- `duration_cast` to milliseconds. -/
def elapsedMs (now since : ℤ) : ℤ := (now - since).tdiv kNanosecondsPerMillisecond

/-! ### What the estimators have in common -/

/-- What the two estimators have in common. -/
structure BweCore where
  config : BweConfig
  currentBps : UInt32
  smoothedBps : UInt32
  lastUpdateTime : Option ℤ := none
  lastChangeTime : Option ℤ := none
  decreaseStart : Option ℤ := none
  lastReason : BweReason := .initial
  lastLossRate : ℚ := 0
  lossEventPending : Bool := false
  deriving DecidableEq, Repr

namespace BweCore

/-- A new estimator starts at the configured rate. -/
def create (config : BweConfig) : BweCore where
  config
  currentBps := config.initialBitrateBps
  smoothedBps := config.initialBitrateBps

variable (b : BweCore)

/-- The latch of a loss event. -/
def latch (f : BweFeedback) : BweCore :=
  let wasNoLoss := b.lastLossRate < kLossEventThreshold
  let pending := if wasNoLoss ∧ f.isLossy then true else b.lossEventPending
  { b with
    lossEventPending :=
      if ¬ f.isLossy ∧ kLossEventThreshold ≤ b.lastLossRate then false else pending }

/-- The smoothed rate follows the current one, and the feedback is noted. -/
def smooth (f : BweFeedback) : BweCore :=
  { b with
    smoothedBps := toUInt32 (b.config.smoothingAlpha * b.currentBps.toNat
      + (1 - b.config.smoothingAlpha) * b.smoothedBps.toNat)
    lastUpdateTime := some f.timestamp
    lastLossRate := f.lossRate }

/-- The rate for the pacer: a tenth above the smoothed rate, within the bound. -/
def pacingBps : UInt32 :=
  let pacing := toUInt32 (b.smoothedBps.toNat * (11 / 10))
  if b.config.maxBitrateBps < pacing then b.config.maxBitrateBps else pacing

/-- What is reported now. -/
def estimate (now : ℤ) : BweEstimate where
  targetBitrateBps := b.smoothedBps
  pacingBitrateBps := b.pacingBps
  timestamp := b.lastUpdateTime.getD now
  reason := b.lastReason

/-- The rates are brought into the new bounds. -/
def updateConfig (config : BweConfig) : BweCore :=
  { b with
    config
    currentBps := clamp b.currentBps config.minBitrateBps config.maxBitrateBps
    smoothedBps := clamp b.smoothedBps config.minBitrateBps config.maxBitrateBps }

end BweCore

/-! ### AIMD -/

/-- The states of the loss-based estimator. -/
inductive BwePhase
  | kIncrease
  | kDecrease
  deriving DecidableEq, Repr

/-- The loss-based estimator. -/
structure Bwe extends BweCore where
  state : BwePhase := .kIncrease
  deriving DecidableEq, Repr

namespace Bwe

def create (config : BweConfig) : Bwe := { BweCore.create config with }

variable (b : Bwe) (f : BweFeedback)

def withCore (core : BweCore) : Bwe := ⟨core, b.state⟩

/-- A REMB above the smoothed rate takes the place of the rate, unless a loss event is on. -/
def rembOverride : Bwe :=
  match f.rembBps with
  | none => b
  | some remb =>
    if b.lossEventPending then b
    else
      let remb := toUInt32 (remb.toNat * kRembTrustFactor)
      let remb := if b.config.maxBitrateBps < remb then b.config.maxBitrateBps else remb
      let remb := if remb < b.config.minBitrateBps then b.config.minBitrateBps else remb
      if b.smoothedBps < remb then { b with currentBps := remb, lastReason := .rembOverride } else b

/-- The decrease of a loss event. It clears the latch also where the rate stays what it is. -/
def lossDecrease : Bwe :=
  let newRate := toUInt32 (b.currentBps.toNat * b.config.decreaseFactor)
  let newRate := min (max newRate b.config.minBitrateBps) b.config.maxBitrateBps
  let b :=
    if newRate ≠ b.currentBps then
      { b with
        currentBps := newRate
        lastReason := .aimdDecrease
        decreaseStart := some f.timestamp
        state := .kDecrease }
    else b
  { b with lossEventPending := false }

/-- The cooldown of a decrease may be over. -/
def resume : Bwe :=
  let cooledDown := ∃ start ∈ b.decreaseStart,
    kDecreaseCooldown * kNanosecondsPerMillisecond ≤ f.timestamp - start
  if b.state = .kDecrease ∧ cooledDown then { b with state := .kIncrease } else b

/-- The rate `elapsed` milliseconds after the last change. Both sums wrap at 2^32. -/
def increasedBps (elapsed : ℤ) : UInt32 :=
  let newRate := b.currentBps + toUInt32 (elapsed / 1000 * b.config.increaseBps.toNat)
  let newRate :=
    if 0 < f.rtt then newRate + toUInt32 (b.currentBps.toNat * (5 / 100) * (f.rtt / 1000))
    else newRate
  min newRate b.config.maxBitrateBps

/-- The rate grows if the last change is long enough ago. -/
def increase : Bwe :=
  match b.lastChangeTime with
  | none => { b with lastChangeTime := some f.timestamp }
  | some changed =>
    let elapsed := elapsedMs f.timestamp changed
    let newRate := b.increasedBps f elapsed
    if b.config.changeInterval ≤ elapsed ∧ b.currentBps < newRate then
      { b with
        currentBps := newRate
        lastReason := .aimdIncrease
        lastChangeTime := some f.timestamp }
    else b

/-- With whether the decrease of a loss event was applied. -/
def onFeedback : Bwe × Bool :=
  let b := (b.withCore (b.latch f)).rembOverride f
  let (b, decreased) :=
    if b.lossEventPending then (b.lossDecrease f, true)
    else
      let b := b.resume f
      (if b.state = .kIncrease then b.increase f else b, false)
  (b.withCore (b.smooth f), decreased)

end Bwe

/-! ### Goog-CC -/

/-- The delay-based estimator, with the least round trip that it has seen. -/
structure GoogCcBwe extends BweCore where
  minRtt : Option ℤ := none
  deriving DecidableEq, Repr

namespace GoogCcBwe

def create (config : BweConfig) : GoogCcBwe := { BweCore.create config with }

/-- How many milliseconds above the least round trip one must be to count as overuse. -/
def kOveruseAbsoluteMs : ℤ := 25

def kOveruseRelativeRatio : ℚ := 12 / 10

def kDelayBackoffFactor : ℚ := 85 / 100

def kProbePerSecond : ℚ := 5 / 100

variable (b : GoogCcBwe) (f : BweFeedback)

def withCore (core : BweCore) : GoogCcBwe := ⟨core, b.minRtt⟩

/-- The last decrease is too recent for another. -/
def inCooldown (now : ℤ) : Prop :=
  ∃ start ∈ b.decreaseStart, now - start < kDecreaseCooldown * kNanosecondsPerMillisecond

instance decidableInCooldown (now : ℤ) : Decidable (b.inCooldown now) := by
  unfold inCooldown
  infer_instance

/-- The round trip is far above the least one. -/
def isOveruse (rtt : ℤ) : Bool :=
  match b.minRtt with
  | none => false
  | some baseline =>
    decide (0 < rtt ∧ kOveruseAbsoluteMs < rtt - baseline
      ∧ kOveruseRelativeRatio < (rtt : ℚ) / (if 0 < baseline then baseline else 1))

/-- The least round trip so far. -/
def trackRtt : GoogCcBwe :=
  if 0 < f.rtt ∧ ∀ least ∈ b.minRtt, f.rtt < least then { b with minRtt := some f.rtt } else b

/-- The rate goes down, and the cooldown starts. -/
def applyDecrease (next : UInt32) (now : ℤ) (reason : BweReason) : GoogCcBwe :=
  let next := clamp next b.config.minBitrateBps b.config.maxBitrateBps
  if next ≠ b.currentBps then
    { b with
      currentBps := next
      lastReason := reason
      decreaseStart := some now
      lastChangeTime := some now }
  else b

def rembOverride : GoogCcBwe :=
  match f.rembBps with
  | none => b
  | some remb =>
    if b.lossEventPending then b
    else
      let remb := clamp (toUInt32 (remb.toNat * kRembTrustFactor)) b.config.minBitrateBps
        b.config.maxBitrateBps
      if b.smoothedBps < remb then
        { b with
          currentBps := remb
          lastReason := .rembOverride
          lastChangeTime := some f.timestamp }
      else b

/-- A loss event takes its share off the rate. -/
def lossDecrease : GoogCcBwe :=
  { b.applyDecrease (toUInt32 (b.currentBps.toNat * b.config.decreaseFactor)) f.timestamp
      .aimdDecrease with lossEventPending := false }

/-- The sum wraps at 2^32. -/
def probedBps (elapsed : ℤ) : UInt32 :=
  let elapsedS : ℚ := elapsed / 1000
  let additive := b.config.increaseBps.toNat * elapsedS
  let multiplicative := b.currentBps.toNat * kProbePerSecond * elapsedS
  min (b.currentBps + toUInt32 (max additive multiplicative)) b.config.maxBitrateBps

/-- The rate grows with the time since the last change. -/
def probe : GoogCcBwe :=
  match b.lastChangeTime with
  | none => { b with lastChangeTime := some f.timestamp }
  | some changed =>
    let elapsed := elapsedMs f.timestamp changed
    let next := b.probedBps elapsed
    if b.config.changeInterval ≤ elapsed ∧ b.currentBps < next then
      { b with
        currentBps := next
        lastReason := .aimdIncrease
        lastChangeTime := some f.timestamp }
    else b

/-- With whether the decrease of a loss event was applied. -/
def onFeedback : GoogCcBwe × Bool :=
  let b := b.trackRtt f
  let b := (b.withCore (b.latch f)).rembOverride f
  let (b, decreased) :=
    if b.lossEventPending then (b.lossDecrease f, true)
    else if b.isOveruse f.rtt then
      (b.applyDecrease (toUInt32 (b.currentBps.toNat * kDelayBackoffFactor)) f.timestamp
        .rttIncrease, false)
    else if ¬ f.isLossy ∧ ¬ b.inCooldown f.timestamp then (b.probe f, false)
    else (b, false)
  (b.withCore (b.smooth f), decreased)

end GoogCcBwe

/-! ### Runs -/

/-- An estimator behind the plugin interface: `"aimd"` or `"goog-cc"`. -/
inductive IBwe
  | aimd (b : Bwe)
  | googCc (b : GoogCcBwe)
  deriving DecidableEq, Repr

/-- The calls on an estimator. -/
inductive BweCall
  | onFeedback (f : BweFeedback)
  | estimate (now : ℤ)
  | updateConfig (config : BweConfig)
  | reset

inductive BweNote
  /-- The decrease of a loss event. -/
  | lossDecrease
  | estimated (e : BweEstimate)
  deriving DecidableEq

namespace IBwe

/-- What the two have in common. -/
def core : IBwe → BweCore
  | aimd b => b.toBweCore
  | googCc b => b.toBweCore

/-- `on_feedback` -/
def onFeedback (f : BweFeedback) : IBwe → IBwe × Bool
  | aimd b => (aimd (b.onFeedback f).1, (b.onFeedback f).2)
  | googCc b => (googCc (b.onFeedback f).1, (b.onFeedback f).2)

def updateConfig (config : BweConfig) : IBwe → IBwe
  | aimd b => aimd (b.withCore (b.toBweCore.updateConfig config))
  | googCc b => googCc (b.withCore (b.toBweCore.updateConfig config))

/-- Every member but the configuration is as in a new estimator. -/
def reset : IBwe → IBwe
  | aimd b => aimd (Bwe.create b.config)
  | googCc b => googCc (GoogCcBwe.create b.config)

/-- One call, with what it shows of the rates. -/
def step (b : IBwe) : BweCall → IBwe × List BweNote
  | .onFeedback f =>
    let (b, decreased) := b.onFeedback f
    (b, if decreased then [.lossDecrease] else [])
  | .estimate now => (b, [.estimated (b.core.estimate now)])
  | .updateConfig config => (b.updateConfig config, [])
  | .reset => (b.reset, [])

def machine : Machine IBwe BweCall BweNote := ⟨step⟩

/-- An estimator that was just made, of either kind. -/
def New (config : BweConfig) (b : IBwe) : Prop :=
  b = aimd (Bwe.create config) ∨ b = googCc (GoogCcBwe.create config)

/-- The configurations that the calls set are valid. -/
def ValidCall : BweCall → Prop
  | .updateConfig config => config.Valid
  | _ => True

end IBwe

end NimRtc
