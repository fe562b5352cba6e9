import NimRtc.Engine
import NimRtc.Lib.History

/-!
# ICE consent freshness

The consent tracker of `ice.cpp`. Its thread reads the clock outside of the section in which it checks
for expiry, fires and arms itself again, and runs the callback outside of it, so that anything may
happen in between. A reading of the clock is part of the event that takes it, in microseconds.
-/

namespace NimRtc

namespace Ice

/-- The fields of `IceConfig` that the tracker reads. -/
structure ConsentConfig where
  consentIntervalMs : Int64 := 5000
  consentTimeoutMs : Int64 := 30000
  enableConsentFreshness : Bool := true
  deriving DecidableEq, Repr

/-- The effective timeout, in microseconds. -/
def ConsentConfig.timeoutUs (cfg : ConsentConfig) : ℤ :=
  let intervalMs := min (max cfg.consentIntervalMs 100) 1000
  let timeoutMs := max cfg.consentTimeoutMs intervalMs
  (timeoutMs * 1000).toInt

/-- Where the tracker thread is in its loop. -/
inductive TickPhase
  | sleeping
  /-- It has found the tracker armed. -/
  | armed
  /-- It has read the clock. -/
  | read (now : ℤ)
  /-- It has fired, and has a callback to run. -/
  | calling (now : ℤ)
  deriving DecidableEq, Repr

/-- What becomes of the agent in `open()`. -/
inductive OpenOutcome
  | noAgent
  | gatherFails
  | opens
  deriving DecidableEq, Repr

/-- The agent as far as its consent goes: when a binding came last, and the thread that looks after
it. -/
structure ConsentTracker where
  config : ConsentConfig := {}
  agent : Bool := false
  state : IceState := .disconnected
  /-- `consent_thread_running_`, and the timeout of the thread. -/
  running : Bool := false
  timeoutUs : ℤ := 0
  phase : TickPhase := .sleeping
  consentForceArmed : Bool := false
  lastBindingReceivedUs : ℤ := 0
  consentLostFired : Bool := false
  onConsentLost : Bool := false
  deriving DecidableEq, Repr

/-- `force_consent_armed_for_testing()` is its event and then a binding. -/
inductive ConsentEvent
  | setConfig (cfg : ConsentConfig)
  | «open» (outcome : OpenOutcome) (now : ℤ)
  | close
  | state (s : IceState)
  | setOnConsentLost (callback : Bool)
  | notifyBindingReceived (now : ℤ)
  | forceConsentArmed
  /-- The parts of a tick. -/
  | tickArmed
  | tickReads (now : ℤ)
  | tickChecks
  | tickCalls
  deriving DecidableEq, Repr

/-- What happens to the consent. -/
inductive ConsentReport
  | opened (now : ℤ)
  | closed
  | binding (now : ℤ)
  /-- A tick has found the consent expired. -/
  | fired (now timeoutUs : ℤ)
  /-- `on_consent_lost` is run. -/
  | called (now : ℤ)
  deriving DecidableEq, Repr

namespace ConsentTracker

/-- `record_binding_received` -/
def recordBindingReceived (c : ConsentTracker) (now : ℤ) : ConsentTracker :=
  { c with lastBindingReceivedUs := now, consentLostFired := false }

/-- `start_consent_tracker_if_needed` -/
def startConsentTrackerIfNeeded (c : ConsentTracker) : ConsentTracker :=
  if !c.config.enableConsentFreshness || c.running then c
  else { c with running := true, timeoutUs := c.config.timeoutUs, phase := .sleeping }

/-- `open`, which starts the thread when the agent could be made. -/
def «open» (c : ConsentTracker) (outcome : OpenOutcome) (now : ℤ) :
    ConsentTracker × List ConsentReport :=
  if c.agent then (c, [])
  else match outcome with
    | .noAgent => (c, [])
    | .gatherFails => ({ c with agent := true }, [])
    | .opens =>
      (({ c with agent := true }.recordBindingReceived now).startConsentTrackerIfNeeded,
        [.opened now])

/-- The thread is joined, so closing waits for a tick to end. -/
def close (c : ConsentTracker) : ConsentTracker × List ConsentReport :=
  if c.phase ≠ .sleeping then (c, [])
  else
    ({ c with
        running := false
        agent := false
        consentLostFired := false
        lastBindingReceivedUs := 0
        state := .disconnected },
      [.closed])

/-- The thread looks at the consent. -/
def isArmed (c : ConsentTracker) : Bool := c.consentForceArmed || c.state.up

/-- The check, and the state that is published with it. -/
def check (c : ConsentTracker) (now : ℤ) : ConsentTracker × List ConsentReport :=
  if c.lastBindingReceivedUs = 0 then ({ c with phase := .sleeping }, [])
  else if now - c.lastBindingReceivedUs < c.timeoutUs then ({ c with phase := .sleeping }, [])
  else
    ({ c with
        phase := if c.onConsentLost then .calling now else .sleeping
        consentLostFired := true
        lastBindingReceivedUs := now },
      [.fired now c.timeoutUs])

/-- `consent_lost_pending` -/
def consentLostPending (c : ConsentTracker) : Bool := c.consentLostFired

/-- One event: a call, or a part of a tick of the thread. -/
def step (c : ConsentTracker) : ConsentEvent → ConsentTracker × List ConsentReport
  | .setConfig cfg => (if c.agent then c else { c with config := cfg }, [])
  | .open outcome now => c.open outcome now
  | .close => c.close
  | .state s => ({ c with state := s }, [])
  | .setOnConsentLost callback => ({ c with onConsentLost := callback }, [])
  | .notifyBindingReceived now => (c.recordBindingReceived now, [.binding now])
  | .forceConsentArmed => ({ c with consentForceArmed := true }, [])
  | .tickArmed =>
    (if c.running && c.phase = .sleeping && c.isArmed then { c with phase := .armed } else c, [])
  | .tickReads now => (if c.phase = .armed then { c with phase := .read now } else c, [])
  | .tickChecks =>
    match c.phase with
    | .read now => c.check now
    | .sleeping | .armed | .calling _ => (c, [])
  | .tickCalls =>
    match c.phase with
    | .calling now => ({ c with phase := .sleeping }, [.called now])
    | .sleeping | .armed | .read _ => (c, [])

end ConsentTracker

/-- The reading that an event takes from the clock. -/
def ConsentEvent.reading : ConsentEvent → Option ℤ
  | .open _ now | .notifyBindingReceived now | .tickReads now => some now
  | .setConfig _ | .close | .state _ | .setOnConsentLost _ | .forceConsentArmed | .tickArmed
  | .tickChecks | .tickCalls => none

/-- A tracker in a run, with the last reading of the clock. -/
structure ConsentRun where
  tracker : ConsentTracker
  clock : ℤ
  deriving DecidableEq, Repr

namespace ConsentRun

/-- The tracker along the events, with the last reading of the clock. -/
def run : Machine ConsentRun ConsentEvent ConsentReport :=
  ⟨fun r e => (⟨(r.tracker.step e).1, e.reading.getD r.clock⟩, (r.tracker.step e).2)⟩

/-- The readings of the clock do not decrease. -/
def Ordered (r : ConsentRun) (e : ConsentEvent) : Prop := ∀ now ∈ e.reading, r.clock ≤ now

end ConsentRun

/-! ### What should have happened -/

/-- The reading of a binding; the clock is primed by one when the transport is opened. -/
def ConsentReport.reading : ConsentReport → Option ℤ
  | .opened now | .binding now => some now
  | .closed | .fired _ _ | .called _ => none

/-- The tick that has fired, or whose callback is run, by its reading. -/
def ConsentReport.firedAt : ConsentReport → Option ℤ
  | .fired now _ => some now
  | .opened _ | .closed | .binding _ | .called _ => none

/-- When `on_consent_lost` was run. -/
def ConsentReport.calledAt : ConsentReport → Option ℤ
  | .called now => some now
  | .opened _ | .closed | .binding _ | .fired _ _ => none

/-- The report is of a binding, of opening or of closing. -/
def ConsentReport.Clears : ConsentReport → Prop
  | .opened _ | .closed | .binding _ => True
  | .fired _ _ | .called _ => False

/-- The tracker has fired after the last binding, opening or closing. -/
def LostPending (out : List ConsentReport) : Prop :=
  ∃ before now timeoutUs after, out = before ++ .fired now timeoutUs :: after
    ∧ ∀ r ∈ after, ¬ r.Clears

/-- The reading that the next expiry counts from. -/
def armedAt (out : List ConsentReport) : Option ℤ :=
  out.foldl (fun last r => match r with
    | .opened now | .binding now | .fired now _ => some now
    | .closed => none
    | .called _ => last) none

/-- At a firing: no binding before it is less than a timeout old and none after it is older, the
firings before it are a timeout older, and expiry was reached. -/
structure FiresOnExpiry (before : List ConsentReport) (t timeoutUs : ℤ)
    (after : List ConsentReport) : Prop where
  noneBefore : ∀ r ∈ before, ∀ b ∈ r.reading, ¬ (t - timeoutUs < b ∧ b ≤ t)
  noneAfter : ∀ r ∈ after, ∀ b ∈ r.reading, t ≤ b
  apart : ∀ t' timeoutUs', .fired t' timeoutUs' ∈ before → t' + timeoutUs ≤ t
  expired : ∃ last ∈ armedAt before, last ≠ 0 ∧ last + timeoutUs ≤ t

/-- What the tracker has done up to a state. -/
structure TracksConsent (c : ConsentTracker) (out : List ConsentReport) : Prop where
  fires : ∀ before t timeoutUs after, out = before ++ .fired t timeoutUs :: after →
    FiresOnExpiry before t timeoutUs after
  /-- The callback runs for firings only, once for each at most. -/
  calls : List.Sublist (out.filterMap (·.calledAt)) (out.filterMap (·.firedAt))
  pending : c.consentLostPending = true ↔ LostPending out
  /-- A check fires whenever expiry is reached. -/
  checks : ∀ now, c.phase = .read now →
    ((.fired now c.timeoutUs ∈ (c.step .tickChecks).2)
      ↔ ∃ last ∈ armedAt out, last ≠ 0 ∧ last + c.timeoutUs ≤ now)

end Ice

end NimRtc
