import NimRtc.Bwe

/-!
# Loss events

Between two calls the latch is down, and the loss rate that is remembered is that of the last feedback.
So the latch goes up at a lossy feedback after a clean one, and the same call takes it down again. With
the latch up the rate is decreased by the factor of the configuration. With the latch down it falls
below what the receiver's limit leaves of it only where the delay takes it there.
-/

namespace NimRtc

open BweCore

theorem BweCore.pending_latch {b : BweCore} (h : b.lossEventPending = false) (f : BweFeedback) :
    (b.latch f).lossEventPending = true ↔ f.isLossy ∧ b.lastLossRate < kLossEventThreshold := by
  unfold latch
  dsimp only
  split_ifs with hdown hup
  · exact ⟨False.elim, fun hup => absurd hup.1 hdown.1⟩
  · exact ⟨fun _ => ⟨hup.2, hup.1⟩, fun _ => rfl⟩
  · exact ⟨fun hc => absurd (h.symm.trans hc) Bool.false_ne_true, fun hc => absurd ⟨hc.2, hc.1⟩ hup⟩

/-- Where no loss event begins, the latch stays down. -/
theorem BweCore.latch_eq_self {b : BweCore} (h : b.lossEventPending = false) {f : BweFeedback}
    (hno : (b.latch f).lossEventPending = false) : b.latch f = b := by
  have hset : b.latch f = { b with lossEventPending := (b.latch f).lossEventPending } := rfl
  rw [hset, hno, ← h]

namespace Bwe

variable {b : Bwe} (f : BweFeedback)

theorem pending_rembOverride : (b.rembOverride f).lossEventPending = b.lossEventPending := by
  unfold rembOverride
  split
  · rfl
  · dsimp only
    split_ifs <;> rfl

theorem pending_resume : (b.resume f).lossEventPending = b.lossEventPending := by
  unfold resume
  dsimp only
  split_ifs <;> rfl

theorem pending_increase : (b.increase f).lossEventPending = b.lossEventPending := by
  unfold increase
  split
  · rfl
  · dsimp only
    split_ifs <;> rfl

theorem onFeedback_spec :
    ((b.onFeedback f).2 = (b.latch f).lossEventPending)
      ∧ (b.onFeedback f).1.lossEventPending = false
      ∧ (b.onFeedback f).1.lastLossRate = f.lossRate := by
  have hremb := pending_rembOverride (b := b.withCore (b.latch f)) f
  unfold onFeedback
  generalize (b.withCore (b.latch f)).rembOverride f = r at hremb
  dsimp only
  split_ifs with hpending hphase
  · exact ⟨hpending.symm.trans hremb, rfl, rfl⟩
  · have hdown := eq_false_of_ne_true hpending
    exact ⟨hdown.symm.trans hremb,
      ((pending_increase f).trans (pending_resume f)).trans hdown, rfl⟩
  · have hdown := eq_false_of_ne_true hpending
    exact ⟨hdown.symm.trans hremb, (pending_resume f).trans hdown, rfl⟩

theorem rembOverride_of_pending (h : b.lossEventPending = true) : b.rembOverride f = b := by
  unfold rembOverride
  split
  · rfl
  · rw [if_pos h]

/-- Smoothing leaves the rate itself alone. -/
theorem currentBps_smoothed : (b.withCore (b.smooth f)).currentBps = b.currentBps := rfl

/-- The rate after the decrease of a loss event. -/
def decreasedBps (b : Bwe) : UInt32 :=
  min (max (toUInt32 (b.currentBps.toNat * b.config.decreaseFactor)) b.config.minBitrateBps)
    b.config.maxBitrateBps

theorem currentBps_lossDecrease : (b.lossDecrease f).currentBps = b.decreasedBps := by
  unfold lossDecrease
  dsimp only
  split_ifs with hsame
  · rfl
  · exact (not_not.1 hsame).symm

theorem currentBps_resume : (b.resume f).currentBps = b.currentBps := by
  unfold resume
  dsimp only
  split_ifs <;> rfl

theorem currentBps_le_increase : b.currentBps ≤ (b.increase f).currentBps := by
  unfold increase
  split
  · exact UInt32.le_refl _
  · dsimp only
    split_ifs with hmore
    · exact UInt32.le_of_lt hmore.2
    · exact UInt32.le_refl _

theorem currentBps_onFeedback_decreased (h : (b.latch f).lossEventPending = true) :
    (b.onFeedback f).1.currentBps = b.decreasedBps := by
  have hremb := rembOverride_of_pending (b := b.withCore (b.latch f)) f h
  rw [onFeedback, hremb, if_pos (show (b.withCore (b.latch f)).lossEventPending = true from h)]
  exact (currentBps_smoothed f).trans (currentBps_lossDecrease (b := b.withCore (b.latch f)) f)

theorem currentBps_onFeedback_le (hdown : b.lossEventPending = false)
    (h : (b.latch f).lossEventPending = false) :
    (b.rembOverride f).currentBps ≤ (b.onFeedback f).1.currentBps := by
  have hlatch : b.withCore (b.latch f) = b := by
    rw [latch_eq_self hdown h]
    rfl
  have hpending : (b.rembOverride f).lossEventPending = false := (pending_rembOverride f).trans hdown
  rw [onFeedback, hlatch, if_neg (by rw [hpending]; exact Bool.false_ne_true)]
  generalize b.rembOverride f = r
  show r.currentBps ≤ (if (r.resume f).state = .kIncrease then (r.resume f).increase f
    else r.resume f).currentBps
  rw [← currentBps_resume (b := r) f]
  split_ifs
  · exact currentBps_le_increase f
  · exact UInt32.le_refl _

end Bwe

namespace GoogCcBwe

variable {b : GoogCcBwe} (f : BweFeedback)

theorem pending_rembOverride : (b.rembOverride f).lossEventPending = b.lossEventPending := by
  unfold rembOverride
  split
  · rfl
  · dsimp only
    split_ifs <;> rfl

theorem pending_applyDecrease (next : UInt32) (now : ℤ) (reason : BweReason) :
    (b.applyDecrease next now reason).lossEventPending = b.lossEventPending := by
  unfold applyDecrease
  dsimp only
  split_ifs <;> rfl

theorem pending_probe : (b.probe f).lossEventPending = b.lossEventPending := by
  unfold probe
  split
  · rfl
  · dsimp only
    split_ifs <;> rfl

theorem core_trackRtt : (b.trackRtt f).toBweCore = b.toBweCore := by
  unfold trackRtt
  split_ifs <;> rfl

theorem onFeedback_spec :
    ((b.onFeedback f).2 = (b.latch f).lossEventPending)
      ∧ (b.onFeedback f).1.lossEventPending = false
      ∧ (b.onFeedback f).1.lastLossRate = f.lossRate := by
  have hremb := pending_rembOverride (b := (b.trackRtt f).withCore ((b.trackRtt f).latch f)) f
  have hlatch : ((b.trackRtt f).withCore ((b.trackRtt f).latch f)).lossEventPending
      = (b.latch f).lossEventPending := by
    show ((b.trackRtt f).latch f).lossEventPending = _
    rw [core_trackRtt]
  rw [hlatch] at hremb
  unfold onFeedback
  dsimp only
  generalize ((b.trackRtt f).withCore ((b.trackRtt f).latch f)).rembOverride f = r at hremb
  split_ifs with hpending hover hclean
  · exact ⟨hpending.symm.trans hremb, rfl, rfl⟩
  all_goals
    have hdown := eq_false_of_ne_true hpending
    refine ⟨hdown.symm.trans hremb, ?_, rfl⟩
  · exact (pending_applyDecrease _ _ _).trans hdown
  · exact (pending_probe f).trans hdown
  · exact hdown

theorem rembOverride_of_pending (h : b.lossEventPending = true) : b.rembOverride f = b := by
  unfold rembOverride
  split
  · rfl
  · rw [if_pos h]

/-- Smoothing leaves the rate itself alone. -/
theorem currentBps_smoothed : (b.withCore (b.smooth f)).currentBps = b.currentBps := rfl

/-- The rate after the decrease of a loss event. -/
def decreasedBps (b : GoogCcBwe) : UInt32 :=
  clamp (toUInt32 (b.currentBps.toNat * b.config.decreaseFactor)) b.config.minBitrateBps
    b.config.maxBitrateBps

/-- The rate after the decrease for an overused path. -/
def backedOffBps (b : GoogCcBwe) : UInt32 :=
  clamp (toUInt32 (b.currentBps.toNat * kDelayBackoffFactor)) b.config.minBitrateBps
    b.config.maxBitrateBps

theorem currentBps_applyDecrease (next : UInt32) (now : ℤ) (reason : BweReason) :
    (b.applyDecrease next now reason).currentBps
      = clamp next b.config.minBitrateBps b.config.maxBitrateBps := by
  unfold applyDecrease
  dsimp only
  split_ifs with hsame
  · rfl
  · exact (not_not.1 hsame).symm

theorem currentBps_lossDecrease : (b.lossDecrease f).currentBps = b.decreasedBps :=
  currentBps_applyDecrease _ _ _

theorem currentBps_le_probe : b.currentBps ≤ (b.probe f).currentBps := by
  unfold probe
  split
  · exact UInt32.le_refl _
  · dsimp only
    split_ifs with hmore
    · exact UInt32.le_of_lt hmore.2
    · exact UInt32.le_refl _

theorem minRtt_rembOverride : (b.rembOverride f).minRtt = b.minRtt := by
  unfold rembOverride
  split
  · rfl
  · dsimp only
    split_ifs <;> rfl

/-- The shortest round trip plays no part in the receiver's limit. -/
theorem core_rembOverride_trackRtt :
    ((b.trackRtt f).rembOverride f).toBweCore = (b.rembOverride f).toBweCore := by
  unfold trackRtt
  split_ifs
  · unfold rembOverride
    split
    · rfl
    · dsimp only
      split_ifs <;> rfl
  · rfl

theorem currentBps_onFeedback_decreased (h : (b.latch f).lossEventPending = true) :
    (b.onFeedback f).1.currentBps = b.decreasedBps := by
  have hcore := core_trackRtt (b := b) f
  rw [← hcore] at h
  have hup : ((b.trackRtt f).withCore ((b.trackRtt f).latch f)).lossEventPending = true := h
  have hremb := rembOverride_of_pending f hup
  rw [onFeedback]
  dsimp only
  rw [hremb, if_pos hup]
  have hdecreased : ((b.trackRtt f).withCore ((b.trackRtt f).latch f)).decreasedBps
      = (b.trackRtt f).decreasedBps := rfl
  refine (currentBps_smoothed f).trans ((currentBps_lossDecrease f).trans (hdecreased.trans ?_))
  simp only [decreasedBps, hcore]

theorem currentBps_onFeedback_of_down (hdown : b.lossEventPending = false)
    (h : (b.latch f).lossEventPending = false) :
    if (b.trackRtt f).isOveruse f.rtt then
      (b.onFeedback f).1.currentBps = (b.rembOverride f).backedOffBps
    else (b.rembOverride f).currentBps ≤ (b.onFeedback f).1.currentBps := by
  have hcore := core_trackRtt (b := b) f
  have hlatch : (b.trackRtt f).withCore ((b.trackRtt f).latch f) = b.trackRtt f := by
    rw [hcore, latch_eq_self hdown h, ← hcore]
    rfl
  have hpending : ((b.trackRtt f).rembOverride f).lossEventPending = false := by
    rw [core_rembOverride_trackRtt, pending_rembOverride, hdown]
  have hover : ((b.trackRtt f).rembOverride f).isOveruse f.rtt = (b.trackRtt f).isOveruse f.rtt := by
    rw [isOveruse, minRtt_rembOverride, isOveruse]
  have hsame := core_rembOverride_trackRtt (b := b) f
  have hbacked : ((b.trackRtt f).rembOverride f).backedOffBps = (b.rembOverride f).backedOffBps := by
    simp only [backedOffBps, hsame]
  rw [onFeedback]
  dsimp only
  rw [hlatch, hover, ← hbacked, ← hsame]
  generalize (b.trackRtt f).rembOverride f = r at hpending
  simp only [hpending, Bool.false_eq_true, if_false]
  split_ifs
  · exact currentBps_applyDecrease _ _ _
  · exact currentBps_le_probe f
  · exact UInt32.le_refl _

end GoogCcBwe

namespace IBwe

/-- The rate that the decrease of a loss event gives. -/
def lossDecreasedBps : IBwe → UInt32
  | aimd b => b.decreasedBps
  | googCc b => b.decreasedBps

/-- The rate once the limit the receiver sent is taken over. -/
def rembBps (f : BweFeedback) : IBwe → UInt32
  | aimd b => (b.rembOverride f).currentBps
  | googCc b => (b.rembOverride f).currentBps

/-- Whether the round trip has the rate decreased: it does so in `GoogCcBwe` only. -/
def overuses (f : BweFeedback) : IBwe → Bool
  | aimd _ => false
  | googCc b => (b.trackRtt f).isOveruse f.rtt

/-- The rate that the decrease for an overused path gives. -/
def backedOffBps (f : BweFeedback) : IBwe → UInt32
  | aimd b => b.currentBps
  | googCc b => (b.rembOverride f).backedOffBps

theorem onFeedback_spec (b : IBwe) (f : BweFeedback) :
    ((b.onFeedback f).2 = (b.core.latch f).lossEventPending)
      ∧ (b.onFeedback f).1.core.lossEventPending = false
      ∧ (b.onFeedback f).1.core.lastLossRate = f.lossRate := by
  cases b with
  | aimd b => exact Bwe.onFeedback_spec f
  | googCc b => exact GoogCcBwe.onFeedback_spec f

theorem currentBps_decreased (b : IBwe) (f : BweFeedback)
    (h : (b.core.latch f).lossEventPending = true) :
    (b.onFeedback f).1.core.currentBps = b.lossDecreasedBps := by
  cases b with
  | aimd b => exact Bwe.currentBps_onFeedback_decreased f h
  | googCc b => exact GoogCcBwe.currentBps_onFeedback_decreased f h

theorem currentBps_of_down (b : IBwe) (f : BweFeedback) (hdown : b.core.lossEventPending = false)
    (h : (b.core.latch f).lossEventPending = false) :
    if b.overuses f then (b.onFeedback f).1.core.currentBps = b.backedOffBps f
    else b.rembBps f ≤ (b.onFeedback f).1.core.currentBps := by
  cases b with
  | aimd b => exact Bwe.currentBps_onFeedback_le f hdown h
  | googCc b => exact GoogCcBwe.currentBps_onFeedback_of_down f hdown h

/-- The last feedback after one more call. -/
def heard (last : Option BweFeedback) : BweCall → Option BweFeedback
  | .onFeedback f => some f
  | .reset => none
  | _ => last

/-- The last feedback of the calls, since the estimator was made or reset. -/
def lastFeedback (calls : List BweCall) : Option BweFeedback := calls.foldl heard none

/-- What holds between the calls: the latch is down, and the loss rate is that of the last
feedback. -/
structure Settled (last : Option BweFeedback) (core : BweCore) : Prop where
  down : core.lossEventPending = false
  rate : core.lastLossRate = (last.map BweFeedback.lossRate).getD 0

theorem Settled.clean_iff {last : Option BweFeedback} {core : BweCore} (h : Settled last core) :
    core.lastLossRate < kLossEventThreshold ↔ ∀ f ∈ last, ¬ f.isLossy := by
  rw [h.rate]
  cases last with
  | none => exact ⟨fun _ _ hf => absurd hf (Option.not_mem_none _), fun _ => by decide +kernel⟩
  | some f => simp [BweFeedback.isLossy]

theorem settled_step {last : Option BweFeedback} {b : IBwe} (h : Settled last b.core)
    (call : BweCall) : Settled (heard last call) (machine.step b call).1.core := by
  cases call with
  | onFeedback f => exact ⟨(onFeedback_spec b f).2.1, (onFeedback_spec b f).2.2⟩
  | estimate now => exact h
  | updateConfig config => cases b <;> exact ⟨h.down, h.rate⟩
  | reset => cases b <;> exact ⟨rfl, rfl⟩

theorem settled_run : ∀ (calls : List BweCall) {last : Option BweFeedback} {b : IBwe},
    Settled last b.core → Settled (calls.foldl heard last) (machine.exec b calls).1.core
  | [], _, _, h => h
  | call :: calls, _, _, h => settled_run calls (settled_step h call)

/-- The feedback begins a loss event after the calls. -/
def BeginsLoss (calls : List BweCall) (f : BweFeedback) : Prop :=
  f.isLossy ∧ ∀ last ∈ lastFeedback calls, ¬ last.isLossy

/-- After any calls on a new estimator, a feedback that begins a loss event, and no other, has the
decrease of a loss event applied. It takes the rate to the decreased one, whatever limit the receiver
sent with it. Every other feedback, lossy or not, leaves at
least the rate that this limit gives, but where the round trip has it decreased. -/
theorem one_decrease_per_loss_event {config : BweConfig} {b : IBwe} (hb : New config b)
    (calls : List BweCall) (f : BweFeedback) :
    let before := (machine.exec b calls).1
    let rate := (machine.step before (.onFeedback f)).1.core.currentBps
    (BweNote.lossDecrease ∈ (machine.step before (.onFeedback f)).2 ↔ BeginsLoss calls f)
      ∧ (BeginsLoss calls f → rate = before.lossDecreasedBps)
      ∧ (¬ BeginsLoss calls f →
        if before.overuses f then rate = before.backedOffBps f else before.rembBps f ≤ rate) := by
  have hnew : Settled none b.core := by rcases hb with rfl | rfl <;> exact ⟨rfl, rfl⟩
  have hsettled : Settled (lastFeedback calls) _ := settled_run calls hnew
  dsimp only
  generalize (machine.exec b calls).1 = s at hsettled
  have hlatch : (s.core.latch f).lossEventPending = true ↔ BeginsLoss calls f := by
    rw [pending_latch hsettled.down f, hsettled.clean_iff, BeginsLoss]
  refine ⟨?_, ?_, ?_⟩
  · rw [← hlatch, ← (onFeedback_spec s f).1]
    show _ ∈ (if (s.onFeedback f).2 = true then [BweNote.lossDecrease] else []) ↔ _
    split_ifs with hdecreased <;> simp [hdecreased]
  · intro hbegins
    exact currentBps_decreased s f (hlatch.2 hbegins)
  · intro hbegins
    exact currentBps_of_down s f hsettled.down (Bool.eq_false_iff.2 (hlatch.not.2 hbegins))

/-- The first of two lossy feedbacks halves a rate of a million bits per second, and the second leaves
it there. -/
theorem one_decrease_per_loss_event_run :
    let lossy : BweFeedback := { lossRate := 1 / 10, rtt := 40 }
    let start := googCc (GoogCcBwe.create {})
    let second := (machine.step (machine.exec start [.onFeedback lossy]).1 (.onFeedback lossy)).1
    (machine.step start (.onFeedback lossy)).1.core.currentBps = 500000
      ∧ (500000 : UInt32) ≤ second.core.currentBps := by
  have hlossy : BweFeedback.isLossy { lossRate := 1 / 10, rtt := 40 } := by decide +kernel
  have hagain : ¬ BeginsLoss [.onFeedback { lossRate := 1 / 10, rtt := 40 }]
      { lossRate := 1 / 10, rtt := 40 } := fun hbegins => hbegins.2 _ rfl hlossy
  have hnew : New {} (googCc (GoogCcBwe.create {})) := .inr rfl
  have hfirst := (one_decrease_per_loss_event hnew [] _).2.1 ⟨hlossy, by simp [lastFeedback]⟩
  have hsecond := (one_decrease_per_loss_event hnew _ _).2.2 hagain
  refine ⟨hfirst.trans (by decide +kernel), ?_⟩
  rw [if_neg (by decide +kernel)] at hsecond
  exact UInt32.le_trans (by decide +kernel) hsecond

end IBwe

end NimRtc
