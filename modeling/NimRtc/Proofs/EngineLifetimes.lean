import NimRtc.EngineLifecycle

/-!
# Lifetimes in the engine

`ice_t_` never points into a stack that is gone unless the modules are made anew and there is no stack
then (`ice_lives`). An engine that is open has an open DTLS session and gets what its ICE receives,
unless it was opened again after a part of `init_modules_once` failed (`open_ready`). And each plugin is
closed before it is freed, unless the modules are made anew or an engine that was never opened is
destroyed (`plugins_closed`).
-/

namespace NimRtc

/-- A call through `ice_t_` goes to an ICE that is there. -/
def LifecycleReport.Live : LifecycleReport → Prop
  | .ice _ live => live = true
  | .nullIce => False
  | .closed _ | .dropped _ => True

/-- No plugin is freed while it is open. -/
def LifecycleReport.Kept : LifecycleReport → Prop
  | .dropped _ => False
  | .ice .. | .nullIce | .closed _ => True

namespace EngineLifecycle

variable {m : Modules} {s : EngineLifecycle} {slot : Slot}

/-! ### Plugins -/

def OnlySlots (s s' : EngineLifecycle) : Prop := ∃ slots, s' = { s with slots }

theorem OnlySlots.refl (s : EngineLifecycle) : OnlySlots s s := ⟨s.slots, rfl⟩

theorem OnlySlots.trans {s₁ s₂ s₃ : EngineLifecycle} (h : OnlySlots s₁ s₂) (h' : OnlySlots s₂ s₃) :
    OnlySlots s₁ s₃ := by
  obtain ⟨slots, rfl⟩ := h
  obtain ⟨slots', rfl⟩ := h'
  exact ⟨slots', rfl⟩

theorem makePlugin_reports :
    (s.makePlugin m slot).2 = if s.slots slot then [.dropped slot] else [] := rfl

theorem makePlugin_onlySlots : OnlySlots s (s.makePlugin m slot).1 := ⟨_, rfl⟩

theorem fillSlot_onlySlots : OnlySlots s (s.fillSlot m slot).1 := by
  unfold fillSlot
  split_ifs
  · exact .refl s
  · exact makePlugin_onlySlots

theorem forSlots_onlySlots {f : EngineLifecycle → Slot → Step}
    (hf : ∀ s slot, OnlySlots s (f s slot).1) :
    ∀ (l : List Slot) {s : EngineLifecycle}, OnlySlots s (forSlots f l s).1
  | [], s => .refl s
  | slot :: l, s => (hf s slot).trans (forSlots_onlySlots hf l)

theorem fillSlot_reports : (s.fillSlot m slot).2 = [] := by
  unfold fillSlot
  split_ifs with h
  · rfl
  · unfold makePlugin
    rw [if_neg h]

theorem fillSlots_reports : ∀ (l : List Slot) {s : EngineLifecycle}, (forSlots (fillSlot m) l s).2 = []
  | [], _ => rfl
  | slot :: l, s => by
    have hrest := fillSlots_reports l (s := (s.fillSlot m slot).1)
    rw [forSlots, andThen, fillSlot_reports, hrest]
    rfl

/-- The slots that are not filled stay as they are. -/
theorem fillSlots_slots : ∀ (l : List Slot) {s : EngineLifecycle}, slot ∉ l →
    (forSlots (fillSlot m) l s).1.slots slot = s.slots slot
  | [], _, _ => rfl
  | other :: l, s, h => by
    rw [List.mem_cons, not_or] at h
    have hrest := fillSlots_slots l (s := (s.fillSlot m other).1) h.2
    refine hrest.trans ?_
    unfold fillSlot makePlugin
    split_ifs
    · rfl
    · exact Function.update_of_ne h.1 _ _

theorem initVideoPlugins_onlySlots : OnlySlots s (s.initVideoPlugins m).1 :=
  forSlots_onlySlots (fun _ _ => fillSlot_onlySlots) _

theorem initVideoPlugins_reports : (s.initVideoPlugins m).2 = [] := fillSlots_reports _

theorem initBweScheduler_spec :
    OnlySlots s (s.initBweScheduler m).1 ∧ (s.initBweScheduler m).2 = (s.initBweScheduler m).1.ifIce
      ∧ (s.initBweScheduler m).1.slots .audio3a = s.slots .audio3a
      ∧ (s.initBweScheduler m).1.slots .codec = s.slots .codec := by
  unfold initBweScheduler andThen
  dsimp only
  refine ⟨forSlots_onlySlots (fun _ _ => fillSlot_onlySlots) _, ?_, ?_, ?_⟩
  · rw [fillSlots_reports, List.nil_append]
  · refine fillSlots_slots _ ?_
    split_ifs <;> simp
  · refine fillSlots_slots _ ?_
    split_ifs <;> simp

theorem initAudioModules_spec :
    OnlySlots s (s.initAudioModules m).1
      ∧ (s.initAudioModules m).2 = (if s.slots .audio3a then [.dropped .audio3a] else [])
        ++ if s.slots .codec then [.dropped .codec] else [] := by
  refine ⟨forSlots_onlySlots (fun _ _ => makePlugin_onlySlots) _, ?_⟩
  have hslot : (s.makePlugin m .audio3a).1.slots .codec = s.slots .codec := by
    unfold makePlugin
    dsimp only
    rw [Function.update_of_ne (by decide)]
  have hsplit : (s.initAudioModules m).2 = (s.makePlugin m .audio3a).2
      ++ (((s.makePlugin m .audio3a).1.makePlugin m .codec).2 ++ []) := rfl
  rw [hsplit, List.append_nil, makePlugin_reports, makePlugin_reports, hslot]

/-! ### The modules -/

/-- The state with a new stack. -/
def withStack (s : EngineLifecycle) : EngineLifecycle :=
  { s with
    mediaStack := some s.stacksMade
    stacksMade := s.stacksMade + 1
    iceT := some s.stacksMade }

/-- What one call of `init_modules_once` can do. -/
inductive InitCase (m : Modules) (s : EngineLifecycle) : Bool × Step → Prop
  | unknown : m.strategyKnown = false → InitCase m s (false, s, [])
  | noStack : m.strategyKnown = true → m.mediaStack = none →
    InitCase m s (false, { s with mediaStack := none }, [])
  | noIce (stack : MediaStack) : m.strategyKnown = true → m.mediaStack = some stack →
    stack.hasIce = false →
    InitCase m s (false,
      { s with
        mediaStack := some s.stacksMade
        stacksMade := s.stacksMade + 1
        iceT := none
        crashed := true }, [.nullIce])
  | made (stack : MediaStack) (ok : Bool) (slots : Slot → Bool) (reports : List LifecycleReport) :
    m.strategyKnown = true → m.mediaStack = some stack → stack.hasIce = true →
    (∀ o ∈ reports, o.Live) →
    ((∀ o ∈ reports, o.Kept) ↔ s.slots .audio3a = false ∧ s.slots .codec = false) →
    InitCase m s (ok,
      { s.withStack with slots, ready := if ok then some s.stacksMade else s.ready }, reports)

theorem ifIce_live (h : s.iceT = s.mediaStack) : ∀ o ∈ s.ifIce, o.Live ∧ o.Kept := by
  unfold ifIce
  split
  · intro o ho
    cases ho
  · rename_i n hn
    rintro o ho
    rw [List.mem_singleton] at ho
    subst ho
    exact ⟨decide_eq_true (h ▸ hn), trivial⟩

theorem onIce_live (h : s.iceT = s.mediaStack) (hsome : s.iceT ≠ none) :
    ∀ o ∈ s.onIce, o.Live ∧ o.Kept := by
  have heq : s.onIce = s.ifIce := by
    unfold onIce ifIce
    split
    · contradiction
    · rfl
  rw [heq]
  exact ifIce_live h

theorem audio_reports {a c : Bool} :
    (∀ o ∈ (if a then [LifecycleReport.dropped .audio3a] else [])
      ++ (if c then [LifecycleReport.dropped .codec] else []), o.Live)
    ∧ ((∀ o ∈ (if a then [LifecycleReport.dropped .audio3a] else [])
      ++ (if c then [LifecycleReport.dropped .codec] else []), o.Kept) ↔ a = false ∧ c = false) := by
  cases a <;> cases c <;> simp [LifecycleReport.Live, LifecycleReport.Kept]

theorem plugins_spec (m : Modules) (s : EngineLifecycle) :
    ∃ slots reports,
      andThen (andThen (s.withStack, s.withStack.onIce) (initBweScheduler m)) (initAudioModules m)
        = ({ s.withStack with slots }, reports)
      ∧ (∀ o ∈ reports, o.Live)
      ∧ ((∀ o ∈ reports, o.Kept) ↔ s.slots .audio3a = false ∧ s.slots .codec = false) := by
  obtain ⟨⟨bweSlots, hbwe⟩, hbweReports, hbweAudio, hbweCodec⟩ :=
    initBweScheduler_spec (m := m) (s := s.withStack)
  obtain ⟨⟨slots, hslots⟩, haudioReports⟩ :=
    initAudioModules_spec (m := m) (s := (s.withStack.initBweScheduler m).1)
  have hfirst := onIce_live (s := s.withStack) rfl (Option.some_ne_none _)
  have hbweLive := ifIce_live (s := (s.withStack.initBweScheduler m).1) (by rw [hbwe]; rfl)
  obtain ⟨hdropLive, hdropKept⟩ := audio_reports (a := s.slots .audio3a) (c := s.slots .codec)
  refine ⟨slots, _, Prod.ext (hslots.trans ?_) rfl, ?_, ?_⟩
  · rw [hbwe]
  · unfold andThen
    dsimp only
    rw [haudioReports, hbweAudio, hbweCodec, hbweReports, List.forall_mem_append,
      List.forall_mem_append]
    exact ⟨⟨fun o ho => (hfirst o ho).1, fun o ho => (hbweLive o ho).1⟩, hdropLive⟩
  · unfold andThen
    dsimp only
    rw [haudioReports, hbweAudio, hbweCodec, hbweReports, List.forall_mem_append,
      List.forall_mem_append]
    refine Iff.trans (and_iff_right ⟨fun o ho => (hfirst o ho).2, fun o ho => (hbweLive o ho).2⟩) ?_
    exact hdropKept

theorem initDtlsHandshake_spec (hice : s.iceT = s.mediaStack) (hsome : s.iceT ≠ none) :
    ∃ ok reports, s.initDtlsHandshake m
        = (ok, { s with ready := if ok then s.iceT else s.ready }, reports)
      ∧ ∀ o ∈ reports, o.Live ∧ o.Kept := by
  unfold initDtlsHandshake
  dsimp only
  split_ifs
  · exact ⟨true, _, rfl, onIce_live hice hsome⟩
  · exact ⟨false, _, rfl, fun o ho => by cases ho⟩

theorem initModulesOnce_case (m : Modules) (s : EngineLifecycle) :
    InitCase m s (s.initModulesOnce m) := by
  unfold initModulesOnce
  cases hstrategy : m.strategyKnown with
  | false => exact .unknown hstrategy
  | true =>
    cases hstack : m.mediaStack with
    | none =>
      simp only [initTransportSession, hstack]
      exact .noStack hstrategy hstack
    | some stack =>
      cases hice : stack.hasIce with
      | false =>
        simp only [initTransportSession, hstack, hice]
        exact .noIce stack hstrategy hstack hice
      | true =>
        have hsession : s.initTransportSession m
            = (true, s.withStack, s.withStack.onIce) := by
          simp only [initTransportSession, hstack, hice]
          rfl
        obtain ⟨slots, reports, hplugins, hlive, hkept⟩ := plugins_spec m s
        simp only [hsession, hplugins]
        cases hdc : m.datachannelKnown with
        | false => exact .made stack false slots reports hstrategy hstack hice hlive hkept
        | true =>
          obtain ⟨ok, more, hdtls, hmore⟩ := initDtlsHandshake_spec (m := m)
            (s := { s.withStack with slots }) rfl (Option.some_ne_none _)
          unfold andThen
          simp only [hdtls]
          refine .made stack ok slots (reports ++ more) hstrategy hstack hice ?_ ?_
          · rw [List.forall_mem_append]
            exact ⟨hlive, fun o ho => (hmore o ho).1⟩
          · rw [List.forall_mem_append, ← hkept]
            exact and_iff_left fun o ho => (hmore o ho).2

/-! ### The ICE pointer -/

/-- It is null, or it points into the stack of the session. -/
def IceLives (s : EngineLifecycle) : Prop :=
  s.crashed = false ∧ (s.iceT = none ∨ s.iceT = s.mediaStack)

/-- A call of `init_modules_once` gets a stack with ICE, or none while there is no pointer. -/
def GetsStack (m : Modules) (s : EngineLifecycle) : Prop :=
  m.strategyKnown = true → match m.mediaStack with
    | none => s.iceT = none
    | some stack => stack.hasIce = true

/-- The answers with which an event makes the modules. -/
def inits (s : EngineLifecycle) : Event → Option Modules
  | .preOpen m => if s.state = .constructed then some m else none
  | .open m _ => if s.state = .constructed ∧ s.iceT = none then some m else none
  | _ => none

def Running (s : EngineLifecycle) : Prop := s.crashed = false ∧ s.destroyed = false

theorem step_of_running (h : s.Running) (e : Event) : s.step e = s.call e := by
  unfold step
  rw [if_neg (by rw [h.1, h.2]; decide)]

theorem step_of_not_running (h : ¬s.Running) (e : Event) : s.step e = (s, []) := by
  unfold step
  refine if_pos ?_
  unfold Running at h
  cases hcrashed : s.crashed with
  | true => exact .inl rfl
  | false =>
    cases hdestroyed : s.destroyed with
    | true => exact .inr rfl
    | false => exact absurd ⟨hcrashed, hdestroyed⟩ h

theorem openTransport_spec (m : Modules) (iceOk : Bool) (s : EngineLifecycle) :
    ∃ slots, s.openTransport m iceOk
      = ({ s with
            slots
            state := if iceOk then .open else s.state
            iceT := if iceOk then s.iceT else none }, s.onIce) := by
  obtain ⟨slots, hslots⟩ := initVideoPlugins_onlySlots (m := m) (s := s)
  unfold openTransport
  cases iceOk with
  | false =>
    refine ⟨s.slots, ?_⟩
    unfold andThen
    dsimp only
    rw [if_pos (by decide), List.append_nil]
    rfl
  | true =>
    refine ⟨slots, ?_⟩
    unfold andThen
    dsimp only
    rw [if_neg (by decide), hslots, initVideoPlugins_reports]
    simp

/-- What `open` does to an engine that is constructed, by what `init_modules_once` did. -/
inductive OpenCase (m : Modules) (iceOk : Bool) (s : EngineLifecycle) : Step → Prop
  | there (h : s.iceT ≠ none) : OpenCase m iceOk s (s.openTransport m iceOk)
  | failed (r : Step) (h : s.iceT = none) : InitCase m s (false, r) → OpenCase m iceOk s r
  | made (r : Step) (h : s.iceT = none) : InitCase m s (true, r) →
    OpenCase m iceOk s (andThen r (openTransport m iceOk))

theorem open_case (m : Modules) (iceOk : Bool) (h : s.state = .constructed) :
    OpenCase m iceOk s (s.open m iceOk) := by
  unfold «open»
  rw [if_neg (not_not.2 h)]
  by_cases hice : s.iceT = none
  · rw [if_pos hice]
    have hcase := initModulesOnce_case m s
    generalize s.initModulesOnce m = r at hcase
    obtain ⟨ok, r⟩ := r
    cases ok with
    | false => exact .failed r hice hcase
    | true => exact .made r hice hcase
  · rw [if_neg hice]
    exact .there hice

/-- `InitCase` with success. -/
theorem InitCase.success {r : Step} (h : InitCase m s (true, r)) :
    ∃ slots reports, r = ({ s.withStack with slots, ready := some s.stacksMade }, reports)
      ∧ (∀ o ∈ reports, o.Live)
      ∧ ((∀ o ∈ reports, o.Kept) ↔ s.slots .audio3a = false ∧ s.slots .codec = false)
      ∧ m.strategyKnown = true ∧ ∃ stack, m.mediaStack = some stack ∧ stack.hasIce = true := by
  cases h with
  | made stack ok slots reports hstrategy hstack hice hlive hkept =>
    exact ⟨slots, reports, rfl, hlive, hkept, hstrategy, stack, hstack, hice⟩

/-- An engine that is open has its ICE. -/
def OpenHasIce (s : EngineLifecycle) : Prop := s.state = .open → s.iceT ≠ none

theorem init_openHasIce {r : Bool × Step} (h : InitCase m s r) (hs : s.state = .constructed) :
    OpenHasIce r.2.1 := by
  have hnot : s.state ≠ .open := by
    rw [hs]
    decide
  cases h <;> exact fun hopen => absurd hopen hnot

theorem openTransport_openHasIce (hs : s.state = .constructed) (hice : s.iceT ≠ none) (iceOk : Bool) :
    OpenHasIce (s.openTransport m iceOk).1 := by
  obtain ⟨slots, heq⟩ := openTransport_spec m iceOk s
  rw [heq]
  cases iceOk with
  | false =>
    intro hopen
    simp [hs] at hopen
  | true => exact fun _ => hice

theorem close_not_open : s.close.1.state ≠ .open := by
  unfold close
  split_ifs with h
  · exact h
  · exact fun hopen => by cases hopen

theorem call_openHasIce (hs : OpenHasIce s) (e : Event) : OpenHasIce (s.call e).1 := by
  cases e with
  | preOpen m =>
    change OpenHasIce (s.preOpen m).1
    unfold preOpen
    by_cases h : s.state = .constructed
    · rw [if_neg (not_not.2 h)]
      exact init_openHasIce (initModulesOnce_case m s) h
    · rw [if_pos h]
      exact hs
  | «open» m iceOk =>
    change OpenHasIce (s.open m iceOk).1
    by_cases h : s.state = .constructed
    · have hcase := open_case m iceOk h
      generalize s.open m iceOk = r at hcase ⊢
      cases hcase with
      | there hice => exact openTransport_openHasIce h hice iceOk
      | failed r hice hcase => exact init_openHasIce hcase h
      | made r hice hcase =>
        obtain ⟨slots, reports, rfl, -⟩ := hcase.success
        exact openTransport_openHasIce (s := { s.withStack with slots, ready := some s.stacksMade }) h
          (Option.some_ne_none _) iceOk
    · unfold «open»
      rw [if_pos h]
      exact hs
  | close => exact fun hopen => absurd hopen close_not_open
  | destroy => exact fun hopen => absurd hopen close_not_open
  | setVideoSink opens => exact hs
  | setVideoSource opens => exact hs
  | useIce => exact hs
  | tick => exact hs

theorem step_openHasIce (s : EngineLifecycle) (e : Event) (hs : OpenHasIce s) :
    OpenHasIce (machine.step s e).1 := by
  by_cases hrun : s.Running
  · have heq : machine.step s e = s.call e := step_of_running hrun e
    rw [heq]
    exact call_openHasIce hs e
  · have heq : machine.step s e = (s, []) := step_of_not_running hrun e
    rw [heq]
    exact hs

/-- The modules are only made with a stack that has ICE, or with none while there is no pointer. -/
def MakesStack (s : EngineLifecycle) (e : Event) : Prop :=
  s.Running → ∀ m, s.inits e = some m → GetsStack m s

theorem init_iceLives {r : Bool × Step} (h : InitCase m s r) (hs : IceLives s) :
    (IceLives r.2.1 ↔ GetsStack m s) ∧ (GetsStack m s → ∀ o ∈ r.2.2, o.Live) := by
  unfold GetsStack
  cases h with
  | unknown hstrategy =>
    rw [hstrategy]
    exact ⟨iff_of_true hs fun h => (by cases h), fun _ o ho => (by cases ho)⟩
  | noStack hstrategy hstack =>
    rw [hstrategy, hstack]
    refine ⟨⟨fun h _ => ?_, fun h => ⟨hs.1, .inl (h rfl)⟩⟩, fun _ o ho => by cases ho⟩
    rcases h.2 with h | h
    · exact h
    · exact h
  | noIce stack hstrategy hstack hice =>
    rw [hstrategy, hstack]
    dsimp only
    rw [hice]
    exact ⟨iff_of_false (fun h => by cases h.1) (by decide), fun h => absurd (h rfl) (by decide)⟩
  | made stack ok slots reports hstrategy hstack hice hlive hkept =>
    rw [hstrategy, hstack]
    exact ⟨iff_of_true ⟨hs.1, .inr rfl⟩ fun _ => hice, fun _ => hlive⟩

theorem openTransport_iceLives (hs : IceLives s) (hice : s.iceT ≠ none) (iceOk : Bool) :
    IceLives (s.openTransport m iceOk).1 ∧ ∀ o ∈ (s.openTransport m iceOk).2, o.Live := by
  obtain ⟨slots, heq⟩ := openTransport_spec m iceOk s
  have hlive := hs.2.resolve_left hice
  rw [heq]
  refine ⟨⟨hs.1, ?_⟩, fun o ho => (onIce_live hlive hice o ho).1⟩
  cases iceOk with
  | false => exact .inl rfl
  | true => exact .inr hlive

theorem setVideo_live (slot : Slot) (opens : Option Bool) :
    ∀ o ∈ (s.setVideo slot opens).2, o.Live := by
  unfold setVideo
  split_ifs <;> simp [LifecycleReport.Live]

theorem call_iceLives (hi : OpenHasIce s) (hs : IceLives s) (e : Event) :
    (IceLives (s.call e).1 ↔ ∀ m, s.inits e = some m → GetsStack m s)
      ∧ ((∀ m, s.inits e = some m → GetsStack m s) → ∀ o ∈ (s.call e).2, o.Live) := by
  have hif : ∀ o ∈ s.ifIce, o.Live := by
    rcases hs.2 with hnone | hlive
    · unfold ifIce
      rw [hnone]
      exact fun o ho => by cases ho
    · exact fun o ho => (ifIce_live hlive o ho).1
  have hclosed : ∀ o ∈ (Slot.all.filter (s.slots ·)).map LifecycleReport.closed, o.Live := by
    intro o ho
    obtain ⟨slot, -, rfl⟩ := List.mem_map.1 ho
    trivial
  have hclose : IceLives s.close.1 ∧ ∀ o ∈ s.close.2, o.Live := by
    unfold close
    split_ifs with h
    · exact ⟨hs, fun o ho => by cases ho⟩
    · refine ⟨⟨hs.1, .inl rfl⟩, ?_⟩
      rw [List.forall_mem_append, List.forall_mem_append]
      exact ⟨⟨hif, hclosed⟩, hif⟩
  have hother : s.inits e = none → IceLives (s.call e).1 → (∀ o ∈ (s.call e).2, o.Live) →
      (IceLives (s.call e).1 ↔ ∀ m, s.inits e = some m → GetsStack m s)
        ∧ ((∀ m, s.inits e = some m → GetsStack m s) → ∀ o ∈ (s.call e).2, o.Live) := by
    intro hnone hlives hreports
    rw [hnone]
    exact ⟨iff_of_true hlives fun m hm => (by cases hm), fun _ => hreports⟩
  cases e with
  | preOpen m =>
    by_cases h : s.state = .constructed
    · have hinits : s.inits (.preOpen m) = some m := if_pos h
      obtain ⟨hiff, hlive⟩ := init_iceLives (initModulesOnce_case m s) hs
      have hcall : s.call (.preOpen m) = (s.initModulesOnce m).2 := if_neg (not_not.2 h)
      rw [hcall, hinits]
      simp only [Option.some.injEq, forall_eq']
      exact ⟨hiff, hlive⟩
    · have hcall : s.call (.preOpen m) = (s, []) := if_pos h
      refine hother (if_neg h) ?_ ?_
      · rwa [hcall]
      · rw [hcall]
        exact fun o ho => by cases ho
  | «open» m iceOk =>
    by_cases h : s.state = .constructed
    · have hcase := open_case m iceOk h
      change (IceLives (s.open m iceOk).1 ↔ _) ∧ (_ → ∀ o ∈ (s.open m iceOk).2, o.Live)
      generalize s.open m iceOk = r at hcase ⊢
      cases hcase with
      | there hice =>
        have hinits : s.inits (.open m iceOk) = none := if_neg fun hand => hice hand.2
        obtain ⟨hlives, hreports⟩ := openTransport_iceLives (m := m) hs hice iceOk
        rw [hinits]
        exact ⟨iff_of_true hlives fun m hm => (by cases hm), fun _ => hreports⟩
      | failed r hice hcase =>
        have hinits : s.inits (.open m iceOk) = some m := if_pos ⟨h, hice⟩
        rw [hinits]
        simp only [Option.some.injEq, forall_eq']
        exact init_iceLives hcase hs
      | made r hice hcase =>
        have hinits : s.inits (.open m iceOk) = some m := if_pos ⟨h, hice⟩
        obtain ⟨hiff, hlive⟩ := init_iceLives hcase hs
        obtain ⟨slots, reports, rfl, -⟩ := hcase.success
        obtain ⟨hlives, hreports⟩ := openTransport_iceLives (m := m)
          (s := { s.withStack with slots, ready := some s.stacksMade }) ⟨hs.1, .inr rfl⟩
          (Option.some_ne_none _) iceOk
        rw [hinits]
        simp only [Option.some.injEq, forall_eq']
        refine ⟨iff_of_true hlives (hiff.1 ⟨hs.1, .inr rfl⟩), fun hgets => ?_⟩
        unfold andThen
        rw [List.forall_mem_append]
        exact ⟨hlive hgets, hreports⟩
    · have hcall : s.call (.open m iceOk) = (s, []) := if_pos h
      refine hother (if_neg fun hand => h hand.1) ?_ ?_
      · rwa [hcall]
      · rw [hcall]
        exact fun o ho => by cases ho
  | close => exact hother rfl hclose.1 hclose.2
  | destroy =>
    refine hother rfl ⟨hclose.1.1, .inl rfl⟩ ?_
    change ∀ o ∈ s.destroy.2, o.Live
    unfold destroy andThen
    rw [List.forall_mem_append]
    refine ⟨hclose.2, fun o ho => ?_⟩
    obtain ⟨slot, -, rfl⟩ := List.mem_map.1 ho
    trivial
  | setVideoSink opens => exact hother rfl hs (setVideo_live .videoSink opens)
  | setVideoSource opens => exact hother rfl hs (setVideo_live .videoSource opens)
  | useIce => exact hother rfl hs hif
  | tick =>
    refine hother rfl hs ?_
    change ∀ o ∈ (if s.state = .open then s.onIce else []), o.Live
    split_ifs with hopen
    · have hsome := hi hopen
      exact fun o ho => (onIce_live (hs.2.resolve_left hsome) hsome o ho).1
    · exact fun o ho => by cases ho

/-- In a run, `ice_t_` is null or points into the stack of the session, and each call through it goes
there, exactly if the modules are never made without a stack while there is a pointer, and never with a
stack that has no ICE. -/
theorem ice_lives (cfg : LifecycleConfig) (es : List Event) :
    (machine.Always IceLives { cfg } es ∧ ∀ o ∈ (machine.exec { cfg } es).2, o.Live)
      ↔ machine.Meets MakesStack { cfg } es := by
  refine Machine.always_and_reports_iff_meets (I := OpenHasIce) step_openHasIce
    (fun s e hi hs => ?_) (fun s e hi hs hok => ?_) es (fun h => by cases h) ⟨rfl, .inl rfl⟩
  · by_cases hrun : s.Running
    · have heq : machine.step s e = s.call e := step_of_running hrun e
      rw [heq, (call_iceLives hi hs e).1]
      exact ⟨fun h _ => h, fun h => h hrun⟩
    · have heq : machine.step s e = (s, []) := step_of_not_running hrun e
      rw [heq]
      exact iff_of_true hs fun h => absurd h hrun
  · by_cases hrun : s.Running
    · have heq : machine.step s e = s.call e := step_of_running hrun e
      rw [heq]
      exact (call_iceLives hi hs e).2 (hok hrun)
    · have heq : machine.step s e = (s, []) := step_of_not_running hrun e
      rw [heq]
      exact fun o ho => by cases ho

/-! ### An open engine -/

/-- An engine that is open has its ICE, whose stack `init_modules_once` was done with. -/
def OpenReady (s : EngineLifecycle) : Prop := s.state = .open → s.iceT ≠ none ∧ s.ready = s.iceT

/-- If `open` finds the modules there and succeeds, they were made to the end. -/
def OpensReady (s : EngineLifecycle) (e : Event) : Prop :=
  s.Running → ∀ m, e = .open m true → s.state = .constructed → s.iceT ≠ none → s.ready = s.iceT

theorem init_openReady {r : Bool × Step} (h : InitCase m s r) (hs : s.state = .constructed) :
    OpenReady r.2.1 := by
  have hnot : s.state ≠ .open := by
    rw [hs]
    decide
  cases h <;> exact fun hopen => absurd hopen hnot

theorem openTransport_openReady (hs : s.state = .constructed) (hice : s.iceT ≠ none) (iceOk : Bool) :
    OpenReady (s.openTransport m iceOk).1 ↔ (iceOk = true → s.ready = s.iceT) := by
  obtain ⟨slots, heq⟩ := openTransport_spec m iceOk s
  rw [heq]
  unfold OpenReady
  cases iceOk with
  | false => simp [hs]
  | true => simp [hice]

theorem open_openReady (hs : s.state = .constructed) (iceOk : Bool) :
    OpenReady (s.open m iceOk).1 ↔ (iceOk = true → s.iceT ≠ none → s.ready = s.iceT) := by
  have hcase := open_case m iceOk hs
  generalize s.open m iceOk = r at hcase ⊢
  cases hcase with
  | there hice =>
    rw [openTransport_openReady hs hice]
    exact forall_congr' fun _ => ⟨fun h _ => h, fun h => h hice⟩
  | failed r hice hcase =>
    exact iff_of_true (init_openReady hcase hs) fun _ hsome => absurd hice hsome
  | made r hice hcase =>
    obtain ⟨slots, reports, rfl, -⟩ := hcase.success
    refine iff_of_true ?_ fun _ hsome => absurd hice hsome
    exact (openTransport_openReady (s := { s.withStack with slots, ready := some s.stacksMade }) hs
      (Option.some_ne_none _) iceOk).2 fun _ => rfl

theorem call_openReady (hs : OpenReady s) (e : Event) :
    OpenReady (s.call e).1
      ↔ ∀ m, e = .open m true → s.state = .constructed → s.iceT ≠ none → s.ready = s.iceT := by
  cases e with
  | preOpen m =>
    refine iff_of_true ?_ fun m hm => by cases hm
    change OpenReady (s.preOpen m).1
    unfold preOpen
    by_cases h : s.state = .constructed
    · rw [if_neg (not_not.2 h)]
      exact init_openReady (initModulesOnce_case m s) h
    · rw [if_pos h]
      exact hs
  | «open» m iceOk =>
    by_cases h : s.state = .constructed
    · refine (open_openReady h iceOk).trans ⟨?_, ?_⟩
      · rintro himp m' heq - hice
        cases heq
        exact himp rfl hice
      · rintro himp rfl hice
        exact himp m rfl h hice
    · have hcall : s.call (.open m iceOk) = (s, []) := if_pos h
      rw [hcall]
      exact iff_of_true hs fun _ _ hconstructed => absurd hconstructed h
  | close => exact iff_of_true (fun hopen => absurd hopen close_not_open) fun m hm => by cases hm
  | destroy => exact iff_of_true (fun hopen => absurd hopen close_not_open) fun m hm => by cases hm
  | setVideoSink opens => exact iff_of_true hs fun m hm => by cases hm
  | setVideoSource opens => exact iff_of_true hs fun m hm => by cases hm
  | useIce => exact iff_of_true hs fun m hm => by cases hm
  | tick => exact iff_of_true hs fun m hm => by cases hm

/-- In a run, an engine that is open always has the callbacks of its ICE and an open DTLS session,
exactly if `open` never succeeds where an earlier `pre_open` or `open` failed behind `ice_t_`. -/
theorem open_ready (cfg : LifecycleConfig) (es : List Event) :
    machine.Always OpenReady { cfg } es ↔ machine.Meets OpensReady { cfg } es := by
  refine Machine.always_iff_meets (I := fun _ => True) (fun _ _ _ _ => trivial)
    (fun s e _ _ hs => ?_) es trivial (fun h => by cases h) Machine.meets_true
  by_cases hrun : s.Running
  · have heq : machine.step s e = s.call e := step_of_running hrun e
    rw [heq, call_openReady hs]
    exact ⟨fun h _ => h, fun h => h hrun⟩
  · have heq : machine.step s e = (s, []) := step_of_not_running hrun e
    rw [heq]
    exact iff_of_true hs fun h => absurd h hrun

/-- The DTLS session does not open. The second `open` succeeds without it. -/
example : (machine.exec ({} : EngineLifecycle)
    [.open { mediaStack := some { dtls := some false } } true, .open {} true]).1.state = .open
    ∧ (machine.exec ({} : EngineLifecycle)
      [.open { mediaStack := some { dtls := some false } } true, .open {} true]).1.ready = none := by
  decide

/-! ### Plugins that are freed -/

/-- The plugins that `init_modules_once` makes each time are not there yet, and a constructed or a
closed engine is destroyed without plugins. -/
def KeepsPlugins (s : EngineLifecycle) (e : Event) : Prop :=
  s.Running →
    (∀ m, s.inits e = some m → m.strategyKnown = true →
        (∃ stack, m.mediaStack = some stack ∧ stack.hasIce = true) →
        s.slots .audio3a = false ∧ s.slots .codec = false)
      ∧ (e = .destroy → s.state = .open ∨ ∀ slot, s.slots slot = false)

theorem init_kept {r : Bool × Step} (h : InitCase m s r) :
    (∀ o ∈ r.2.2, o.Kept) ↔ (m.strategyKnown = true →
      (∃ stack, m.mediaStack = some stack ∧ stack.hasIce = true) →
        s.slots .audio3a = false ∧ s.slots .codec = false) := by
  cases h with
  | unknown hstrategy =>
    rw [hstrategy]
    exact iff_of_true (fun o ho => by cases ho) fun h => by cases h
  | noStack hstrategy hstack =>
    refine iff_of_true (fun o ho => by cases ho) ?_
    rintro - ⟨stack, hsome, -⟩
    rw [hstack] at hsome
    cases hsome
  | noIce stack hstrategy hstack hice =>
    refine iff_of_true ?_ ?_
    · intro o ho
      rw [List.mem_singleton] at ho
      subst ho
      trivial
    · rintro - ⟨stack', hsome, hhas⟩
      rw [hstack] at hsome
      cases hsome
      rw [hice] at hhas
      cases hhas
  | made stack ok slots reports hstrategy hstack hice hlive hkept =>
    rw [hkept]
    exact ⟨fun h _ _ => h, fun h => h hstrategy ⟨stack, hstack, hice⟩⟩

theorem onIce_kept : ∀ o ∈ s.onIce, o.Kept := by
  unfold onIce
  split <;> simp [LifecycleReport.Kept]

theorem ifIce_kept : ∀ o ∈ s.ifIce, o.Kept := by
  unfold ifIce
  split <;> simp [LifecycleReport.Kept]

theorem openTransport_kept (iceOk : Bool) : ∀ o ∈ (s.openTransport m iceOk).2, o.Kept := by
  obtain ⟨slots, heq⟩ := openTransport_spec m iceOk s
  rw [heq]
  exact onIce_kept

theorem close_kept : ∀ o ∈ s.close.2, o.Kept := by
  unfold close
  split_ifs
  · exact fun o ho => by cases ho
  · rw [List.forall_mem_append, List.forall_mem_append]
    refine ⟨⟨ifIce_kept, fun o ho => ?_⟩, ifIce_kept⟩
    obtain ⟨slot, -, rfl⟩ := List.mem_map.1 ho
    trivial

theorem destroy_kept :
    (∀ o ∈ s.destroy.2, o.Kept) ↔ s.state = .open ∨ ∀ slot, s.slots slot = false := by
  have hdropped (slots : Slot → Bool) :
      (∀ o ∈ (Slot.all.filter (slots ·)).map LifecycleReport.dropped, o.Kept)
        ↔ ∀ slot, slots slot = false := by
    constructor
    · intro h slot
      by_contra hslot
      rw [Bool.not_eq_false] at hslot
      have hall : slot ∈ Slot.all := by cases slot <;> decide
      exact h _ (List.mem_map_of_mem (List.mem_filter.2 ⟨hall, hslot⟩))
    · intro h o ho
      obtain ⟨slot, hmem, -⟩ := List.mem_map.1 ho
      have hslot := (List.mem_filter.1 hmem).2
      rw [h slot] at hslot
      cases hslot
  unfold destroy andThen
  rw [List.forall_mem_append, and_iff_right close_kept, hdropped]
  unfold close
  split_ifs with h
  · exact (or_iff_right h).symm
  · exact iff_of_true (fun _ => rfl) (.inl (not_not.1 h))

theorem call_kept (s : EngineLifecycle) (e : Event) :
    (∀ o ∈ (s.call e).2, o.Kept)
      ↔ (∀ m, s.inits e = some m → m.strategyKnown = true →
          (∃ stack, m.mediaStack = some stack ∧ stack.hasIce = true) →
          s.slots .audio3a = false ∧ s.slots .codec = false)
        ∧ (e = .destroy → s.state = .open ∨ ∀ slot, s.slots slot = false) := by
  have hsetVideo (slot : Slot) (opens : Option Bool) : ∀ o ∈ (s.setVideo slot opens).2, o.Kept := by
    unfold setVideo
    split_ifs <;> simp [LifecycleReport.Kept]
  have hother : s.inits e = none → e ≠ .destroy → (∀ o ∈ (s.call e).2, o.Kept) →
      ((∀ o ∈ (s.call e).2, o.Kept)
        ↔ (∀ m, s.inits e = some m → m.strategyKnown = true →
            (∃ stack, m.mediaStack = some stack ∧ stack.hasIce = true) →
            s.slots .audio3a = false ∧ s.slots .codec = false)
          ∧ (e = .destroy → s.state = .open ∨ ∀ slot, s.slots slot = false)) := by
    intro hnone hne hkept
    rw [hnone]
    exact iff_of_true hkept ⟨fun m hm => (by cases hm), fun heq => absurd heq hne⟩
  cases e with
  | preOpen m =>
    by_cases h : s.state = .constructed
    · have hinits : s.inits (.preOpen m) = some m := if_pos h
      have hcall : s.call (.preOpen m) = (s.initModulesOnce m).2 := if_neg (not_not.2 h)
      rw [hcall, hinits, init_kept (initModulesOnce_case m s)]
      simp
    · have hcall : s.call (.preOpen m) = (s, []) := if_pos h
      refine hother (if_neg h) (fun heq => by cases heq) ?_
      rw [hcall]
      exact fun o ho => by cases ho
  | «open» m iceOk =>
    by_cases h : s.state = .constructed
    · have hcase := open_case m iceOk h
      change (∀ o ∈ (s.open m iceOk).2, o.Kept) ↔ _
      generalize s.open m iceOk = r at hcase ⊢
      cases hcase with
      | there hice =>
        have hinits : s.inits (.open m iceOk) = none := if_neg fun hand => hice hand.2
        rw [hinits]
        refine iff_of_true (openTransport_kept iceOk) ⟨fun m hm => (by cases hm), fun heq => ?_⟩
        cases heq
      | failed r hice hcase =>
        have hinits : s.inits (.open m iceOk) = some m := if_pos ⟨h, hice⟩
        rw [hinits, init_kept hcase]
        simp
      | made r hice hcase =>
        have hinits : s.inits (.open m iceOk) = some m := if_pos ⟨h, hice⟩
        unfold andThen
        rw [hinits, List.forall_mem_append, and_iff_left (openTransport_kept iceOk),
          init_kept hcase]
        simp
    · have hcall : s.call (.open m iceOk) = (s, []) := if_pos h
      refine hother (if_neg fun hand => h hand.1) (fun heq => by cases heq) ?_
      rw [hcall]
      exact fun o ho => by cases ho
  | close => exact hother rfl (fun heq => by cases heq) close_kept
  | destroy =>
    refine destroy_kept.trans ⟨fun h => ⟨fun m hm => (by cases hm), fun _ => h⟩, fun h => h.2 rfl⟩
  | setVideoSink opens => exact hother rfl (fun heq => by cases heq) (hsetVideo _ opens)
  | setVideoSource opens => exact hother rfl (fun heq => by cases heq) (hsetVideo _ opens)
  | useIce => exact hother rfl (fun heq => by cases heq) ifIce_kept
  | tick =>
    refine hother rfl (fun heq => by cases heq) ?_
    change ∀ o ∈ (if s.state = .open then s.onIce else []), o.Kept
    split_ifs
    · exact onIce_kept
    · exact fun o ho => by cases ho

/-- In a run, no plugin is freed while it is open, exactly if the modules are not made a second time
with the audio plugins there, and an engine that is not open is not destroyed with plugins. -/
theorem plugins_closed (cfg : LifecycleConfig) (es : List Event) :
    (∀ o ∈ (machine.exec { cfg } es).2, o.Kept) ↔ machine.Meets KeepsPlugins { cfg } es := by
  refine Machine.reports_iff_meets (I := fun _ => True) (fun _ _ _ => trivial) (fun s e _ => ?_) es
    trivial
  by_cases hrun : s.Running
  · have heq : machine.step s e = s.call e := step_of_running hrun e
    rw [heq, call_kept]
    exact ⟨fun h _ => h, fun h => h hrun⟩
  · have heq : machine.step s e = (s, []) := step_of_not_running hrun e
    rw [heq]
    exact iff_of_true (fun o ho => by cases ho) fun h => absurd h hrun

end EngineLifecycle

end NimRtc
