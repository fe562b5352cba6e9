import NimRtc.IceConsent

/-!
# Consent is lost on expiry

While the timeout is positive, the reading that expiry counts from is the latest of all bindings and
firings: a binding takes its reading in the section that stores it, and a tick that fires has found
every reading a timeout before its own. What a tick has read may be older than the clock by the time
of its check, but every firing is before it, since no other tick comes in between.
-/

namespace NimRtc

namespace Ice

open ConsentReport

/-! ### One more report -/

theorem snoc_split {α : Type} {out before after : List α} {o x : α}
    (h : out ++ [o] = before ++ x :: after) :
    (out = before ∧ o = x ∧ after = []) ∨ ∃ rest, after = rest ++ [o] ∧ out = before ++ x :: rest := by
  rcases List.eq_nil_or_concat after with rfl | ⟨rest, last, rfl⟩
  · obtain ⟨hout, ho⟩ := List.append_inj' h rfl
    exact .inl ⟨hout, List.head_eq_of_cons_eq ho, rfl⟩
  · rw [List.concat_eq_append, ← List.cons_append, ← List.append_assoc] at h
    obtain ⟨hout, ho⟩ := List.append_inj' h rfl
    obtain rfl := List.head_eq_of_cons_eq ho
    exact .inr ⟨rest, List.concat_eq_append, hout⟩

theorem lostPending_snoc {out : List ConsentReport} {o : ConsentReport} :
    LostPending (out ++ [o]) ↔ (∃ t T, o = .fired t T) ∨ ¬ o.Clears ∧ LostPending out := by
  constructor
  · rintro ⟨before, t, T, after, heq, hafter⟩
    rcases snoc_split heq with ⟨-, rfl, -⟩ | ⟨rest, rfl, hout⟩
    · exact .inl ⟨t, T, rfl⟩
    · refine .inr ⟨hafter o (by simp), before, t, T, rest, hout, fun r hr => ?_⟩
      exact hafter r (List.mem_append_left _ hr)
  · rintro (⟨t, T, rfl⟩ | ⟨hclears, before, t, T, after, rfl, hafter⟩)
    · exact ⟨out, t, T, [], rfl, fun r hr => absurd hr List.not_mem_nil⟩
    · refine ⟨before, t, T, after ++ [o], by simp, fun r hr => ?_⟩
      rcases List.mem_append.1 hr with hr | hr
      · exact hafter r hr
      · rwa [List.mem_singleton.1 hr]

theorem armedAt_snoc {out : List ConsentReport} {o : ConsentReport} :
    armedAt (out ++ [o]) = match o with
      | .opened now | .binding now | .fired now _ => some now
      | .closed => none
      | .called _ => armedAt out := by
  rw [armedAt, List.foldl_append]
  rfl

/-- A firing is looked at again when more is reported. -/
theorem fires_snoc {out : List ConsentReport} {o : ConsentReport}
    (h : ∀ before t T after, out = before ++ .fired t T :: after → FiresOnExpiry before t T after)
    (hreading : ∀ b ∈ o.reading, ∀ t T, .fired t T ∈ out → t ≤ b)
    (hfired : ∀ t T, o = .fired t T → FiresOnExpiry out t T []) :
    ∀ before t T after, out ++ [o] = before ++ .fired t T :: after →
      FiresOnExpiry before t T after := by
  intro before t T after heq
  rcases snoc_split heq with ⟨rfl, ho, rfl⟩ | ⟨rest, rfl, hout⟩
  · exact hfired t T ho
  · have hf := h before t T rest hout
    refine ⟨hf.noneBefore, fun r hr b hb => ?_, hf.apart, hf.expired⟩
    rcases List.mem_append.1 hr with hr | hr
    · exact hf.noneAfter r hr b hb
    · obtain rfl := List.mem_singleton.1 hr
      exact hreading b hb t T (by rw [hout]; simp)

/-! ### The invariant -/

/-- The call of the callback that is to come. -/
def callOf : TickPhase → List ℤ
  | .calling now => [now]
  | .sleeping | .armed | .read _ => []

/-- No reading and no firing is later than a time. -/
def UpTo (out : List ConsentReport) (time : ℤ) : Prop :=
  (∀ r ∈ out, ∀ b ∈ r.reading, b ≤ time) ∧ ∀ t T, .fired t T ∈ out → t ≤ time

theorem UpTo.mono {out : List ConsentReport} {time time' : ℤ} (h : UpTo out time)
    (hle : time ≤ time') : UpTo out time' :=
  ⟨fun r hr b hb => (h.1 r hr b hb).trans hle, fun t T ht => (h.2 t T ht).trans hle⟩

theorem UpTo.snoc {out : List ConsentReport} {o : ConsentReport} {time : ℤ} (h : UpTo out time)
    (hreading : ∀ b ∈ o.reading, b ≤ time) (hfired : ∀ t T, o = .fired t T → t ≤ time) :
    UpTo (out ++ [o]) time := by
  constructor
  · intro r hr
    rcases List.mem_append.1 hr with hr | hr
    · exact h.1 r hr
    · rwa [List.mem_singleton.1 hr]
  · intro t T ht
    rcases List.mem_append.1 ht with ht | ht
    · exact h.2 t T ht
    · exact hfired t T (List.mem_singleton.1 ht).symm

structure ConsentInv (r : ConsentRun) (out : List ConsentReport) : Prop where
  fires : ∀ before t T after, out = before ++ .fired t T :: after →
    FiresOnExpiry before t T after
  calls : (out.filterMap (·.calledAt) ++ callOf r.tracker.phase).Sublist
    (out.filterMap (·.firedAt))
  pending : r.tracker.consentLostFired = true ↔ LostPending out
  clock : UpTo out r.clock
  phase : ∀ now, r.tracker.phase = .read now →
    now ≤ r.clock ∧ ∀ t T, .fired t T ∈ out → t ≤ now
  last : r.tracker.lastBindingReceivedUs = (armedAt out).getD 0
  covered : 0 < r.tracker.timeoutUs → r.tracker.lastBindingReceivedUs ≠ 0 →
    UpTo out r.tracker.lastBindingReceivedUs

namespace ConsentInv

variable {r : ConsentRun} {out : List ConsentReport} {c : ConsentTracker} {clock : ℤ}

/-- A step that reports nothing leaves the timer alone. -/
theorem silent (h : ConsentInv r out) (hclock : r.clock ≤ clock)
    (hlast : c.lastBindingReceivedUs = r.tracker.lastBindingReceivedUs)
    (hfired : c.consentLostFired = r.tracker.consentLostFired)
    (htimeout : c.timeoutUs = r.tracker.timeoutUs)
    (hcall : (callOf c.phase).Sublist (callOf r.tracker.phase))
    (hphase : ∀ now, c.phase = .read now → r.tracker.phase = .read now ∨ r.clock ≤ now ∧ now ≤ clock) :
    ConsentInv ⟨c, clock⟩ out where
  fires := h.fires
  calls := ((List.Sublist.refl _).append hcall).trans h.calls
  pending := by rw [hfired, h.pending]
  clock := h.clock.mono hclock
  phase now hnow := by
    rcases hphase now hnow with hread | ⟨hle, hle'⟩
    · obtain ⟨hnow', hall⟩ := h.phase now hread
      exact ⟨hnow'.trans hclock, hall⟩
    · exact ⟨hle', fun t T ht => (h.clock.2 t T ht).trans hle⟩
  last := by rw [hlast, h.last]
  covered := by
    rw [htimeout, hlast]
    exact h.covered

/-- A reading that is stored as it is taken. -/
theorem reads (h : ConsentInv r out) {now : ℤ} {o : ConsentReport} (hnow : r.clock ≤ now)
    (ho : o = .opened now ∨ o = .binding now) (hlast : c.lastBindingReceivedUs = now)
    (hfired : c.consentLostFired = false)
    (hcall : (callOf c.phase).Sublist (callOf r.tracker.phase))
    (hphase : ∀ now', c.phase = .read now' → r.tracker.phase = .read now') :
    ConsentInv ⟨c, now⟩ (out ++ [o]) := by
  have hreading : ∀ b ∈ o.reading, b = now := by
    rcases ho with rfl | rfl <;> exact fun b hb => (Option.some.inj hb).symm
  have hnot : ∀ t T, o ≠ .fired t T := by
    rcases ho with rfl | rfl <;> exact fun t T heq => by cases heq
  have hall : UpTo (out ++ [o]) now :=
    (h.clock.mono hnow).snoc (fun b hb => (hreading b hb).le) fun t T heq => absurd heq (hnot t T)
  have hmem : ∀ t T, ConsentReport.fired t T ∈ out ++ [o] → .fired t T ∈ out := by
    intro t T ht
    rcases List.mem_append.1 ht with ht | ht
    · exact ht
    · exact absurd (List.mem_singleton.1 ht).symm (hnot t T)
  constructor
  case fires =>
    refine fires_snoc h.fires (fun b hb t T ht => ?_) fun t T heq => absurd heq (hnot t T)
    rw [hreading b hb]
    exact (h.clock.2 t T ht).trans hnow
  case calls =>
    have hsame : (out ++ [o]).filterMap (·.calledAt) = out.filterMap (·.calledAt)
        ∧ (out ++ [o]).filterMap (·.firedAt) = out.filterMap (·.firedAt) := by
      rcases ho with rfl | rfl <;>
        exact ⟨by rw [List.filterMap_append]; exact List.append_nil _,
          by rw [List.filterMap_append]; exact List.append_nil _⟩
    rw [hsame.1, hsame.2]
    exact ((List.Sublist.refl _).append hcall).trans h.calls
  case pending =>
    rw [hfired, lostPending_snoc]
    refine iff_of_false Bool.false_ne_true ?_
    rintro (⟨t, T, heq⟩ | ⟨hclears, -⟩)
    · exact hnot t T heq
    · rcases ho with rfl | rfl <;> exact hclears trivial
  case clock => exact hall
  case phase =>
    intro now' hread
    obtain ⟨hle, hfires⟩ := h.phase now' (hphase now' hread)
    exact ⟨hle.trans hnow, fun t T ht => hfires t T (hmem t T ht)⟩
  case last =>
    rw [hlast, armedAt_snoc]
    rcases ho with rfl | rfl <;> rfl
  case covered =>
    intro _ _
    rw [hlast]
    exact hall

/-- Closing takes back what is stored. -/
theorem closes (h : ConsentInv r out) (hlast : c.lastBindingReceivedUs = 0)
    (hfired : c.consentLostFired = false) (hphase : c.phase = .sleeping) :
    ConsentInv ⟨c, r.clock⟩ (out ++ [.closed]) where
  fires := fires_snoc h.fires (fun b hb => by cases hb) fun t T heq => by cases heq
  calls := by
    rw [List.filterMap_append, List.filterMap_append, hphase]
    have hcalled := (List.sublist_append_left _ _).trans h.calls
    simpa [callOf, calledAt, firedAt] using hcalled
  pending := by
    rw [hfired, lostPending_snoc]
    refine iff_of_false Bool.false_ne_true ?_
    rintro (⟨t, T, heq⟩ | ⟨hclears, -⟩)
    · cases heq
    · exact hclears trivial
  clock := h.clock.snoc (fun b hb => by cases hb) fun t T heq => by cases heq
  phase now hread := by
    rw [hphase] at hread
    cases hread
  last := by
    rw [hlast, armedAt_snoc]
    rfl
  covered _ hne := absurd hlast hne

theorem callsBack (h : ConsentInv r out) {now : ℤ} (hcalling : r.tracker.phase = .calling now) :
    ConsentInv ⟨{ r.tracker with phase := .sleeping }, r.clock⟩ (out ++ [.called now]) where
  fires := fires_snoc h.fires (fun b hb => by cases hb) fun t T heq => by cases heq
  calls := by
    have hcalls := h.calls
    rw [hcalling] at hcalls
    rw [List.filterMap_append, List.filterMap_append]
    simpa [callOf, calledAt, firedAt] using hcalls
  pending := by
    rw [lostPending_snoc, ← h.pending]
    constructor
    · exact fun hfired => .inr ⟨id, hfired⟩
    · rintro (⟨t, T, heq⟩ | ⟨-, hfired⟩)
      · cases heq
      · exact hfired
  clock := h.clock.snoc (fun b hb => by cases hb) fun t T heq => by cases heq
  phase now' hread := by cases hread
  last := by
    rw [armedAt_snoc]
    exact h.last
  covered hpos hne :=
    (h.covered hpos hne).snoc (fun b hb => by cases hb) fun t T heq => by cases heq

theorem last_of_ne (h : ConsentInv r out) (hne : r.tracker.lastBindingReceivedUs ≠ 0) :
    armedAt out = some r.tracker.lastBindingReceivedUs := by
  have hlast := h.last
  rcases harmed : armedAt out with _ | last
  · rw [harmed] at hlast
    exact absurd hlast hne
  · rw [harmed] at hlast
    rw [hlast, Option.getD_some]

/-- A tick that finds the timeout over fires on expiry. -/
theorem firesOnExpiry (h : ConsentInv r out) {now : ℤ} (hread : r.tracker.phase = .read now)
    (hne : r.tracker.lastBindingReceivedUs ≠ 0)
    (hage : ¬ now - r.tracker.lastBindingReceivedUs < r.tracker.timeoutUs) :
    FiresOnExpiry out now r.tracker.timeoutUs [] where
  noneBefore o ho b hb := by
    rintro ⟨hyoung, hle⟩
    by_cases hpos : 0 < r.tracker.timeoutUs
    · have := (h.covered hpos hne).1 o ho b hb
      omega
    · omega
  noneAfter o ho := absurd ho List.not_mem_nil
  apart t' T' ht' := by
    by_cases hpos : 0 < r.tracker.timeoutUs
    · have := (h.covered hpos hne).2 t' T' ht'
      omega
    · have := (h.phase now hread).2 t' T' ht'
      omega
  expired := ⟨_, h.last_of_ne hne, hne, by omega⟩

theorem firesNow (h : ConsentInv r out) {now : ℤ} {phase : TickPhase}
    (hread : r.tracker.phase = .read now) (hne : r.tracker.lastBindingReceivedUs ≠ 0)
    (hage : ¬ now - r.tracker.lastBindingReceivedUs < r.tracker.timeoutUs)
    (hphase : phase = .calling now ∨ phase = .sleeping) :
    ConsentInv ⟨{ r.tracker with
        phase, consentLostFired := true, lastBindingReceivedUs := now }, r.clock⟩
      (out ++ [.fired now r.tracker.timeoutUs]) := by
  have hfires := h.firesOnExpiry hread hne hage
  obtain ⟨hnow, hbefore⟩ := h.phase now hread
  constructor
  case fires =>
    refine fires_snoc h.fires (fun b hb => by cases hb) fun t T heq => ?_
    cases heq
    exact hfires
  case calls =>
    have hcalls := (List.sublist_append_left _ _).trans h.calls
    have hcall : (callOf phase).Sublist [now] := by
      rcases hphase with rfl | rfl
      · exact List.Sublist.refl _
      · exact List.nil_sublist _
    rw [List.filterMap_append, List.filterMap_append]
    simpa [calledAt, firedAt] using hcalls.append hcall
  case pending =>
    rw [lostPending_snoc]
    exact iff_of_true rfl (.inl ⟨now, _, rfl⟩)
  case clock =>
    refine h.clock.snoc (fun b hb => by cases hb) fun t T heq => ?_
    cases heq
    exact hnow
  case phase =>
    intro now' hread'
    rcases hphase with rfl | rfl <;> cases hread'
  case last =>
    rw [armedAt_snoc]
    rfl
  case covered =>
    intro hpos _
    have hpos' : 0 < r.tracker.timeoutUs := hpos
    have hcovered : UpTo out now := (h.covered hpos hne).mono (by omega)
    refine hcovered.snoc (fun b hb => by cases hb) fun t T heq => ?_
    cases heq
    exact le_rfl

theorem checks (h : ConsentInv r out) {now : ℤ} (hread : r.tracker.phase = .read now) :
    ConsentInv ⟨(r.tracker.check now).1, r.clock⟩ (out ++ (r.tracker.check now).2) := by
  have hsleeps : ConsentInv ⟨{ r.tracker with phase := .sleeping }, r.clock⟩ (out ++ []) := by
    rw [List.append_nil]
    exact h.silent le_rfl rfl rfl rfl (List.nil_sublist _) fun now' hnow' => by cases hnow'
  unfold ConsentTracker.check
  by_cases hnone : r.tracker.lastBindingReceivedUs = 0
  · rw [if_pos hnone]
    exact hsleeps
  rw [if_neg hnone]
  by_cases hage : now - r.tracker.lastBindingReceivedUs < r.tracker.timeoutUs
  · rw [if_pos hage]
    exact hsleeps
  rw [if_neg hage]
  refine h.firesNow hread hnone hage ?_
  split_ifs
  · exact .inl rfl
  · exact .inr rfl

/-! ### Steps -/

theorem started (c : ConsentTracker) :
    c.startConsentTrackerIfNeeded.lastBindingReceivedUs = c.lastBindingReceivedUs
      ∧ c.startConsentTrackerIfNeeded.consentLostFired = c.consentLostFired
      ∧ (c.startConsentTrackerIfNeeded.phase = c.phase
        ∨ c.startConsentTrackerIfNeeded.phase = .sleeping) := by
  unfold ConsentTracker.startConsentTrackerIfNeeded
  split_ifs
  · exact ⟨rfl, rfl, .inl rfl⟩
  · exact ⟨rfl, rfl, .inr rfl⟩

theorem opens (h : ConsentInv r out) (outcome : OpenOutcome) {now : ℤ} (hnow : r.clock ≤ now) :
    ConsentInv ⟨(r.tracker.open outcome now).1, now⟩ (out ++ (r.tracker.open outcome now).2) := by
  have hsame : ∀ agent, ConsentInv ⟨{ r.tracker with agent }, now⟩ (out ++ []) := by
    intro agent
    rw [List.append_nil]
    exact h.silent hnow rfl rfl rfl (List.Sublist.refl _) fun now' hread => .inl hread
  unfold ConsentTracker.open
  by_cases hagent : r.tracker.agent = true
  · rw [if_pos hagent]
    exact hsame r.tracker.agent
  rw [if_neg hagent]
  cases outcome with
  | noAgent => exact hsame r.tracker.agent
  | gatherFails => exact hsame true
  | opens =>
    obtain ⟨hlast, hfired, hphase⟩ := started ({ r.tracker with agent := true }.recordBindingReceived now)
    refine h.reads hnow (.inl rfl) hlast hfired ?_ fun now' hread => ?_
    · rcases hphase with heq | heq
      · rw [heq]
        exact List.Sublist.refl _
      · rw [heq]
        exact List.nil_sublist _
    · rcases hphase with heq | heq
      · exact heq.symm.trans hread
      · rw [heq] at hread
        cases hread

theorem step (h : ConsentInv r out) {e : ConsentEvent} (hordered : ConsentRun.Ordered r e) :
    ConsentInv (ConsentRun.run.step r e).1 (out ++ (ConsentRun.run.step r e).2) := by
  have hsame : ∀ {c : ConsentTracker}, c.lastBindingReceivedUs = r.tracker.lastBindingReceivedUs →
      c.consentLostFired = r.tracker.consentLostFired → c.timeoutUs = r.tracker.timeoutUs →
      (c.phase = r.tracker.phase ∨ c.phase = .armed) → ConsentInv ⟨c, r.clock⟩ (out ++ []) := by
    intro c hlast hfired htimeout hphase
    rw [List.append_nil]
    refine h.silent le_rfl hlast hfired htimeout ?_ fun now hread => .inl ?_
    · rcases hphase with heq | heq
      · rw [heq]
      · rw [heq]
        exact List.nil_sublist _
    · rcases hphase with heq | heq
      · exact heq.symm.trans hread
      · rw [heq] at hread
        cases hread
  cases e with
  | setConfig cfg =>
    simp only [ConsentRun.run, ConsentTracker.step]
    split_ifs <;> exact hsame rfl rfl rfl (.inl rfl)
  | «open» outcome now => exact h.opens outcome (hordered now rfl)
  | close =>
    simp only [ConsentRun.run, ConsentTracker.step, ConsentTracker.close]
    split_ifs with hphase
    · exact hsame rfl rfl rfl (.inl rfl)
    · exact h.closes rfl rfl (not_not.1 hphase)
  | state s => exact hsame rfl rfl rfl (.inl rfl)
  | setOnConsentLost callback => exact hsame rfl rfl rfl (.inl rfl)
  | notifyBindingReceived now =>
    exact h.reads (hordered now rfl) (.inr rfl) rfl rfl (List.Sublist.refl _) fun _ hread => hread
  | forceConsentArmed => exact hsame rfl rfl rfl (.inl rfl)
  | tickArmed =>
    simp only [ConsentRun.run, ConsentTracker.step]
    split_ifs
    · exact hsame rfl rfl rfl (.inr rfl)
    · exact hsame rfl rfl rfl (.inl rfl)
  | tickReads now =>
    have hnow : r.clock ≤ now := hordered now rfl
    simp only [ConsentRun.run, ConsentTracker.step, List.append_nil]
    split_ifs with harmed
    · refine h.silent hnow rfl rfl rfl (List.nil_sublist _) fun now' hread => .inr ?_
      cases hread
      exact ⟨hnow, le_rfl⟩
    · exact h.silent hnow rfl rfl rfl (List.Sublist.refl _) fun now' hread => .inl hread
  | tickChecks =>
    simp only [ConsentRun.run, ConsentTracker.step]
    cases hphase : r.tracker.phase with
    | read now => exact h.checks hphase
    | sleeping | armed | calling _ => exact hsame rfl rfl rfl (.inl rfl)
  | tickCalls =>
    simp only [ConsentRun.run, ConsentTracker.step]
    cases hphase : r.tracker.phase with
    | calling now => exact h.callsBack hphase
    | sleeping | armed | read _ => exact hsame rfl rfl rfl (.inl rfl)

theorem tracks (h : ConsentInv r out) : TracksConsent r.tracker out where
  fires := h.fires
  calls := (List.sublist_append_left _ _).trans h.calls
  pending := h.pending
  checks now hread := by
    rw [ConsentTracker.step, hread]
    simp only [ConsentTracker.check]
    by_cases hne : r.tracker.lastBindingReceivedUs = 0
    · rw [if_pos hne]
      refine iff_of_false List.not_mem_nil ?_
      rintro ⟨last, hlast, hlast', -⟩
      have heq := h.last
      rw [Option.mem_def.1 hlast, hne, Option.getD_some] at heq
      exact hlast' heq.symm
    rw [if_neg hne]
    have harmed := h.last_of_ne hne
    by_cases hage : now - r.tracker.lastBindingReceivedUs < r.tracker.timeoutUs
    · rw [if_pos hage]
      refine iff_of_false List.not_mem_nil ?_
      rintro ⟨last, hlast, -, hle⟩
      obtain rfl := Option.some.inj (harmed.symm.trans hlast)
      omega
    · rw [if_neg hage]
      exact iff_of_true List.mem_cons_self ⟨_, harmed, hne, by omega⟩

theorem start (config : ConsentConfig) (clock : ℤ) : ConsentInv ⟨{ config }, clock⟩ [] where
  fires before t T after heq := by simp at heq
  calls := List.Sublist.refl _
  pending := by
    refine iff_of_false Bool.false_ne_true ?_
    rintro ⟨before, t, T, after, heq, -⟩
    simp at heq
  clock := ⟨fun o ho => absurd ho List.not_mem_nil, fun t T ht => absurd ht List.not_mem_nil⟩
  phase now hread := by cases hread
  last := rfl
  covered _ hne := absurd rfl hne

end ConsentInv

/-- In any interleaving with ordered readings of the clock, the tracker fires on expiry and its
pending flag says what has happened last. -/
theorem consent_tracked (config : ConsentConfig) (clock : ℤ) (es : List ConsentEvent)
    (h : ConsentRun.run.Meets ConsentRun.Ordered ⟨{ config }, clock⟩ es) :
    TracksConsent (ConsentRun.run.exec ⟨{ config }, clock⟩ es).1.tracker
      (ConsentRun.run.exec ⟨{ config }, clock⟩ es).2 :=
  (Machine.exec_history (fun _ _ _ hinv hordered => hinv.step hordered) es
    (ConsentInv.start config clock) h).tracks

/-- A tick that fires as a binding comes in with the same reading. -/
def tiedRun : List ConsentEvent :=
  [.setOnConsentLost true, .open .opens 1, .state .connected, .tickArmed, .tickReads 30000001,
    .tickChecks, .notifyBindingReceived 30000001, .tickCalls]

theorem tiedRun_ordered : ConsentRun.run.Meets ConsentRun.Ordered ⟨{}, 0⟩ tiedRun := by
  simp [tiedRun, ConsentRun.run, ConsentRun.Ordered, ConsentEvent.reading]

theorem consent_tracked_tied :
    TracksConsent (ConsentRun.run.exec ⟨{}, 0⟩ tiedRun).1.tracker
      (ConsentRun.run.exec ⟨{}, 0⟩ tiedRun).2 :=
  consent_tracked {} 0 tiedRun tiedRun_ordered

/-- A binding that comes right after the firing can have its reading. -/
theorem tied_binding : ¬ ∀ (config : ConsentConfig) (clock : ℤ) (es : List ConsentEvent),
    ConsentRun.run.Meets ConsentRun.Ordered ⟨{ config }, clock⟩ es →
      ∀ t T, .fired t T ∈ (ConsentRun.run.exec ⟨{ config }, clock⟩ es).2 →
        ∀ r ∈ (ConsentRun.run.exec ⟨{ config }, clock⟩ es).2, ∀ b ∈ r.reading,
          ¬ (t - T < b ∧ b ≤ t) := by
  intro hall
  have hout : (ConsentRun.run.exec ⟨{}, 0⟩ tiedRun).2 = [.opened 1, .fired 30000001 30000000,
      .binding 30000001, .called 30000001] := by
    decide +kernel
  have h := hall {} 0 tiedRun tiedRun_ordered 30000001 30000000
  rw [hout] at h
  exact h (by simp) (.binding 30000001) (by simp) 30000001 rfl (by omega)

end Ice

end NimRtc
