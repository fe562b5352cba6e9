import Mathlib

/-!
# Machines that report what they do

A machine takes a step on each event and reports observations. A run is the list of its events,
the choices of the environment being part of the event. A guarded run is one whose every event
meets a condition in the state it is taken from, and `exec_inv` is the rule the safety results
use: what one guarded step keeps and reports well, every guarded run keeps and reports well. For two
runs side by side the rule is `exec_sim`.
-/

namespace NimRtc

structure Machine (σ ε ω : Type*) where
  step : σ → ε → σ × List ω

namespace Machine

variable {σ ε ω : Type*} (M : Machine σ ε ω)

/-- The state a run ends in and what it reported on the way. -/
def exec : σ → List ε → σ × List ω
  | s, [] => (s, [])
  | s, e :: es =>
    let r := M.step s e
    let q := exec r.1 es
    (q.1, r.2 ++ q.2)

/-- Every event of the run meets `ok` in the state it is taken from. -/
def Meets (ok : σ → ε → Prop) : σ → List ε → Prop
  | _, [] => True
  | s, e :: es => ok s e ∧ Meets ok (M.step s e).1 es

instance decidableMeets (ok : σ → ε → Prop) [∀ s e, Decidable (ok s e)] :
    ∀ s es, Decidable (M.Meets ok s es)
  | _, [] => .isTrue trivial
  | s, e :: es =>
    have := decidableMeets ok (M.step s e).1 es
    inferInstanceAs (Decidable (_ ∧ _))

/-- `P` holds in every state the run passes through. -/
def Always (P : σ → Prop) : σ → List ε → Prop
  | s, [] => P s
  | s, e :: es => P s ∧ Always P (M.step s e).1 es

@[simp] theorem exec_nil (s : σ) : M.exec s [] = (s, []) := rfl

@[simp] theorem exec_cons (s : σ) (e : ε) (es : List ε) :
    M.exec s (e :: es)
      = ((M.exec (M.step s e).1 es).1, (M.step s e).2 ++ (M.exec (M.step s e).1 es).2) := rfl

theorem exec_append : ∀ (es fs : List ε) (s : σ),
    M.exec s (es ++ fs)
      = ((M.exec (M.exec s es).1 fs).1, (M.exec s es).2 ++ (M.exec (M.exec s es).1 fs).2)
  | [], fs, s => rfl
  | e :: es, fs, s => by
    rw [List.cons_append, exec_cons, exec_cons, exec_append es fs, List.append_assoc]

@[simp] theorem meets_nil (ok : σ → ε → Prop) (s : σ) : M.Meets ok s [] := trivial

@[simp] theorem meets_cons (ok : σ → ε → Prop) (s : σ) (e : ε) (es : List ε) :
    M.Meets ok s (e :: es) ↔ ok s e ∧ M.Meets ok (M.step s e).1 es := Iff.rfl

variable {M}

theorem Meets.mono {ok ok' : σ → ε → Prop} (h : ∀ s e, ok s e → ok' s e) :
    ∀ {es : List ε} {s : σ}, M.Meets ok s es → M.Meets ok' s es
  | [], _, _ => trivial
  | _ :: _, _, hm => ⟨h _ _ hm.1, Meets.mono h hm.2⟩

theorem meets_of_forall_mem {ok : ε → Prop} :
    ∀ {es : List ε} {s : σ}, (∀ e ∈ es, ok e) → M.Meets (fun _ e => ok e) s es
  | [], _, _ => trivial
  | _ :: _, _, h =>
    ⟨h _ List.mem_cons_self, meets_of_forall_mem fun e he => h e (List.mem_cons_of_mem _ he)⟩

theorem meets_true {es : List ε} {s : σ} : M.Meets (fun _ _ => True) s es :=
  meets_of_forall_mem fun _ _ => trivial

theorem Meets.and {ok ok' : σ → ε → Prop} :
    ∀ {es : List ε} {s : σ}, M.Meets ok s es → M.Meets ok' s es →
      M.Meets (fun s e => ok s e ∧ ok' s e) s es
  | [], _, _, _ => trivial
  | _ :: _, _, h, h' => ⟨⟨h.1, h'.1⟩, Meets.and h.2 h'.2⟩

/-- What a guarded step keeps, and reports only well, a guarded run does. -/
theorem exec_inv {I : σ → Prop} {ok : σ → ε → Prop} {good : ω → Prop}
    (hstep : ∀ s e, I s → ok s e → I (M.step s e).1 ∧ ∀ o ∈ (M.step s e).2, good o) :
    ∀ (es : List ε) {s : σ}, I s → M.Meets ok s es →
      I (M.exec s es).1 ∧ ∀ o ∈ (M.exec s es).2, good o
  | [], s, hI, _ => ⟨hI, by simp⟩
  | e :: es, s, hI, hm => by
    obtain ⟨hI', hgood⟩ := hstep s e hI hm.1
    obtain ⟨hfin, hrest⟩ := exec_inv hstep es hI' hm.2
    refine ⟨hfin, fun o ho => ?_⟩
    rcases List.mem_append.1 ho with ho | ho
    · exact hgood o ho
    · exact hrest o ho

theorem exec_keeps {I : σ → Prop} {ok : σ → ε → Prop}
    (hstep : ∀ s e, I s → ok s e → I (M.step s e).1) (es : List ε) {s : σ} (hI : I s)
    (hm : M.Meets ok s es) : I (M.exec s es).1 := by
  have hstep' : ∀ s e, I s → ok s e → I (M.step s e).1 ∧ ∀ o ∈ (M.step s e).2, True :=
    fun s e hI hok => ⟨hstep s e hI hok, fun _ _ => trivial⟩
  exact (exec_inv hstep' es hI hm).1

/-- What every step keeps, every run does. -/
theorem exec_preserves {I : σ → Prop} (hstep : ∀ s e, I s → I (M.step s e).1) (es : List ε) {s : σ}
    (hI : I s) : I (M.exec s es).1 :=
  exec_keeps (fun s e h _ => hstep s e h) es hI meets_true

/-- What a step does to `f` by `g`, a run does to it by the fold of `g` over its events. -/
theorem exec_foldl {τ : Type*} {f : σ → τ} {g : τ → ε → τ}
    (hstep : ∀ s e, f (M.step s e).1 = g (f s) e) :
    ∀ (es : List ε) (s : σ), f (M.exec s es).1 = es.foldl g (f s)
  | [], _ => rfl
  | e :: es, s => by
    rw [exec_cons, List.foldl_cons, ← hstep s e]
    exact exec_foldl hstep es (M.step s e).1

/-- What follows from an invariant of the guarded steps holds along a guarded run. -/
theorem always_of_meets {I P : σ → Prop} {ok : σ → ε → Prop}
    (hstep : ∀ s e, I s → ok s e → I (M.step s e).1) (hP : ∀ s, I s → P s) :
    ∀ (es : List ε) {s : σ}, I s → M.Meets ok s es → M.Always P s es
  | [], s, hI, _ => hP s hI
  | e :: es, s, hI, hm => ⟨hP s hI, always_of_meets hstep hP es (hstep s e hI hm.1) hm.2⟩

/-- What holds after a step exactly when the step meets `ok`, holds along a run exactly when the
run meets `ok`. -/
theorem always_iff_meets {I P : σ → Prop} {assumed ok : σ → ε → Prop}
    (hI : ∀ s e, I s → assumed s e → I (M.step s e).1)
    (hP : ∀ s e, I s → assumed s e → P s → (P (M.step s e).1 ↔ ok s e)) :
    ∀ (es : List ε) {s : σ}, I s → P s → M.Meets assumed s es →
      (M.Always P s es ↔ M.Meets ok s es)
  | [], _, _, hs, _ => by simp [Always, hs]
  | e :: es, s, hinv, hs, hm => by
    have hnext := hI s e hinv hm.1
    constructor
    · intro ⟨_, hrest⟩
      have hP' : P (M.step s e).1 := by
        cases es with
        | nil => exact hrest
        | cons => exact hrest.1
      exact ⟨(hP s e hinv hm.1 hs).1 hP', (always_iff_meets hI hP es hnext hP' hm.2).1 hrest⟩
    · intro ⟨hok, hrest⟩
      have hP' := (hP s e hinv hm.1 hs).2 hok
      exact ⟨hs, (always_iff_meets hI hP es hnext hP' hm.2).2 hrest⟩

/-- Steps that meet `ok` keep `I`, `I` gives `P`, and `P` after a step from `I` takes `ok`: then `P`
holds along a run exactly when the run meets `ok`. -/
theorem always_iff_meets_of_inv {I P : σ → Prop} {ok : σ → ε → Prop}
    (hI : ∀ s e, I s → ok s e → I (M.step s e).1) (hP : ∀ s, I s → P s)
    (hok : ∀ s e, I s → P (M.step s e).1 → ok s e) :
    ∀ (es : List ε) {s : σ}, I s → (M.Always P s es ↔ M.Meets ok s es)
  | [], s, hs => by simp [Always, hP s hs]
  | e :: es, s, hs => by
    constructor
    · intro ⟨_, hrest⟩
      have hP' : P (M.step s e).1 := by
        cases es with
        | nil => exact hrest
        | cons => exact hrest.1
      have hmeets := hok s e hs hP'
      exact ⟨hmeets, (always_iff_meets_of_inv hI hP hok es (hI s e hs hmeets)).1 hrest⟩
    · exact always_of_meets hI hP (e :: es) hs

/-- What holds after a step exactly when the step meets `ok`, and makes such a step report well,
holds along a run that reports well exactly when the run meets `ok`. -/
theorem always_and_reports_iff_meets {I P : σ → Prop} {ok : σ → ε → Prop} {good : ω → Prop}
    (hI : ∀ s e, I s → I (M.step s e).1)
    (hP : ∀ s e, I s → P s → (P (M.step s e).1 ↔ ok s e))
    (hgood : ∀ s e, I s → P s → ok s e → ∀ o ∈ (M.step s e).2, good o) (es : List ε) {s : σ}
    (hs : I s) (hp : P s) :
    (M.Always P s es ∧ ∀ o ∈ (M.exec s es).2, good o) ↔ M.Meets ok s es := by
  have hiff := always_iff_meets (fun s e h _ => hI s e h) (fun s e h _ => hP s e h) es hs hp
    meets_true
  refine ⟨fun h => hiff.1 h.1, fun hmeets => ⟨hiff.2 hmeets, ?_⟩⟩
  have hstep : ∀ s e, I s ∧ P s → ok s e →
      (I (M.step s e).1 ∧ P (M.step s e).1) ∧ ∀ o ∈ (M.step s e).2, good o :=
    fun s e h hok => ⟨⟨hI s e h.1, (hP s e h.1 h.2).2 hok⟩, hgood s e h.1 h.2 hok⟩
  exact (exec_inv hstep es ⟨hs, hp⟩ hmeets).2

/-- What follows in every state of a guarded run is met by the run. -/
theorem meets_of_meets {I : σ → Prop} {ok ok' : σ → ε → Prop}
    (hstep : ∀ s e, I s → ok s e → I (M.step s e).1) (hok : ∀ s e, I s → ok s e → ok' s e) :
    ∀ (es : List ε) {s : σ}, I s → M.Meets ok s es → M.Meets ok' s es
  | [], _, _, _ => trivial
  | e :: es, s, hI, hm =>
    ⟨hok s e hI hm.1, meets_of_meets hstep hok es (hstep s e hI hm.1) hm.2⟩

/-- Two conditions that agree in every state the machine can be in are met by the same runs. -/
theorem meets_congr {I : σ → Prop} {ok ok' : σ → ε → Prop}
    (hI : ∀ s e, I s → I (M.step s e).1) (hok : ∀ s e, I s → (ok s e ↔ ok' s e)) :
    ∀ (es : List ε) {s : σ}, I s → (M.Meets ok s es ↔ M.Meets ok' s es)
  | [], _, _ => Iff.rfl
  | e :: es, s, hs => and_congr (hok s e hs) (meets_congr hI hok es (hI s e hs))

/-- What is reported well by a step exactly when the step meets `ok`, is reported well by a run
exactly when the run meets `ok`. -/
theorem reports_iff_meets {I : σ → Prop} {ok : σ → ε → Prop} {good : ω → Prop}
    (hI : ∀ s e, I s → I (M.step s e).1)
    (hgood : ∀ s e, I s → ((∀ o ∈ (M.step s e).2, good o) ↔ ok s e)) :
    ∀ (es : List ε) {s : σ}, I s → ((∀ o ∈ (M.exec s es).2, good o) ↔ M.Meets ok s es)
  | [], _, _ => by simp
  | e :: es, s, hs => by
    rw [exec_cons, meets_cons, List.forall_mem_append, hgood s e hs,
      reports_iff_meets hI hgood es (hI s e hs)]

/-- Where a guarded step of one machine is mirrored by another, so is a guarded run: `f` renames its
events and `g` its observations. -/
theorem exec_sim {τ ε' ω' : Type*} {N : Machine τ ε' ω'} {R : σ → τ → Prop} {ok : σ → ε → Prop}
    {f : ε → ε'} {g : ω → ω'}
    (hstep : ∀ s t e, R s t → ok s e →
      R (M.step s e).1 (N.step t (f e)).1 ∧ (N.step t (f e)).2 = (M.step s e).2.map g) :
    ∀ (es : List ε) {s : σ} {t : τ}, R s t → M.Meets ok s es →
      R (M.exec s es).1 (N.exec t (es.map f)).1
        ∧ (N.exec t (es.map f)).2 = (M.exec s es).2.map g
  | [], _, _, hR, _ => ⟨hR, rfl⟩
  | e :: es, s, t, hR, hm => by
    obtain ⟨hR', hout⟩ := hstep s t e hR hm.1
    obtain ⟨hfin, hrest⟩ := exec_sim hstep es hR' hm.2
    refine ⟨hfin, ?_⟩
    rw [List.map_cons, exec_cons, exec_cons, List.map_append, hout, hrest]

end Machine

end NimRtc
