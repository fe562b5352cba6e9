import NimRtc.VideoStats

/-!
# Freezes and the bitrate window over a run

When the times of rendered frames and ticks do not go back, no time is counted as frozen twice. When the
frames come in order, the window is the frames that no later tick found too old.
-/

namespace NimRtc

namespace VideoStatsSink

variable {cfg : StatsConfig} {s : VideoStatsSink} {es : List Event}

theorem run_concat (e : Event) : run cfg (es ++ [e]) = (run cfg es).step e := by
  rw [run, List.foldl_append]
  rfl

theorem step_frameRendered (captureTsUs : ℤ) :
    s.step (.frameRendered captureTsUs) = s.onFrameRendered captureTsUs := rfl

theorem step_tick (nowUs : ℤ) : s.step (.tick nowUs) = s.tick nowUs := rfl

theorem time_frameRendered (captureTsUs : ℤ) :
    (Event.frameRendered captureTsUs).time
      = if captureTsUs < 0 then none else some captureTsUs := rfl

theorem time_tick (nowUs : ℤ) :
    (Event.tick nowUs).time = if nowUs < 0 then none else some nowUs := rfl

theorem rendered_frameRendered (captureTsUs : ℤ) :
    (Event.frameRendered captureTsUs).rendered
      = if captureTsUs < 0 then none else some captureTsUs := rfl

/-! ### Freezes -/

theorem noteFreeze_total (gapUs : ℤ) :
    s.freezeTotalMs ≤ (s.noteFreeze gapUs).freezeTotalMs
      ∧ (0 ≤ gapUs → ((s.noteFreeze gapUs).freezeTotalMs : ℤ) * 1000
        ≤ s.freezeTotalMs * 1000 + gapUs) := by
  unfold noteFreeze
  split_ifs with hfreeze
  · refine ⟨Nat.le_add_right _ _, fun hgap => ?_⟩
    have hdiv := Int.ediv_mul_le gapUs (show (1000 : ℤ) ≠ 0 by decide)
    have hnonneg := Int.ediv_nonneg hgap (show (0 : ℤ) ≤ 1000 by decide)
    push_cast
    rw [Int.toNat_of_nonneg hnonneg]
    linarith
  · exact ⟨le_rfl, fun hgap => by linarith⟩

/-- The freezes so far are as long as the threshold says. -/
def LongFreezes (s : VideoStatsSink) : Prop :=
  s.cfg.freezeThresholdMs * s.freezeCount ≤ s.freezeTotalMs

theorem LongFreezes.noteFreeze (h : s.LongFreezes) (gapUs : ℤ) : (s.noteFreeze gapUs).LongFreezes := by
  unfold LongFreezes VideoStatsSink.noteFreeze at *
  split_ifs with hfreeze
  · have hgap : s.cfg.freezeThresholdMs ≤ (gapUs / 1000).toNat := by omega
    dsimp only
    rw [Nat.mul_add_one]
    exact Nat.add_le_add h hgap
  · exact h

@[simp] theorem noteFreeze_lastRenderedTsUs (gapUs : ℤ) :
    (s.noteFreeze gapUs).lastRenderedTsUs = s.lastRenderedTsUs := by
  unfold noteFreeze
  split_ifs <;> rfl

@[simp] theorem noteFreeze_cfg (gapUs : ℤ) : (s.noteFreeze gapUs).cfg = s.cfg := by
  unfold noteFreeze
  split_ifs <;> rfl

theorem onFrameReceived_freeze (captureTsUs : ℤ) (frameSizeBytes : ℕ) (isKeyframe : Bool) (qp : ℤ) :
    let s' := s.onFrameReceived captureTsUs frameSizeBytes isKeyframe qp
    s'.cfg = s.cfg ∧ s'.lastRenderedTsUs = s.lastRenderedTsUs ∧ s'.freezeTotalMs = s.freezeTotalMs
      ∧ s'.freezeCount = s.freezeCount := by
  unfold onFrameReceived onQpSample handleKeyframe
  split_ifs <;> exact ⟨rfl, rfl, rfl, rfl⟩

theorem onFrameDropped_freeze (reason : DropReason) :
    (s.onFrameDropped reason).cfg = s.cfg
      ∧ (s.onFrameDropped reason).lastRenderedTsUs = s.lastRenderedTsUs
      ∧ (s.onFrameDropped reason).freezeTotalMs = s.freezeTotalMs
      ∧ (s.onFrameDropped reason).freezeCount = s.freezeCount := by
  cases reason <;> exact ⟨rfl, rfl, rfl, rfl⟩

theorem onQpSample_freeze (qp : ℤ) :
    (s.onQpSample qp).cfg = s.cfg ∧ (s.onQpSample qp).lastRenderedTsUs = s.lastRenderedTsUs
      ∧ (s.onQpSample qp).freezeTotalMs = s.freezeTotalMs
      ∧ (s.onQpSample qp).freezeCount = s.freezeCount := by
  unfold onQpSample
  split_ifs <;> exact ⟨rfl, rfl, rfl, rfl⟩

/-- What a step does to the freezes: nothing, or it notes one that ends at the time of the event, or
it is the first frame that is rendered. -/
theorem step_freeze (s : VideoStatsSink) (e : Event) :
    ((s.step e).freezeTotalMs = s.freezeTotalMs ∧ (s.step e).freezeCount = s.freezeCount
        ∧ (s.step e).lastRenderedTsUs = s.lastRenderedTsUs
        ∧ (s.lastRenderedTsUs = -1 → e.rendered = none))
      ∨ (∃ t, e.time = some t ∧ s.lastRenderedTsUs ≠ -1
        ∧ (s.step e).freezeTotalMs = (s.noteFreeze (t - s.lastRenderedTsUs)).freezeTotalMs
        ∧ (s.step e).freezeCount = (s.noteFreeze (t - s.lastRenderedTsUs)).freezeCount
        ∧ (s.step e).lastRenderedTsUs = t)
      ∨ (∃ t, e.time = some t ∧ e.rendered = some t ∧ s.lastRenderedTsUs = -1
        ∧ (s.step e).freezeTotalMs = s.freezeTotalMs ∧ (s.step e).freezeCount = s.freezeCount
        ∧ (s.step e).lastRenderedTsUs = t) := by
  cases e with
  | frameReceived captureTsUs frameSizeBytes isKeyframe qp =>
    obtain ⟨-, hlast, htotal, hcount⟩ :=
      onFrameReceived_freeze (s := s) captureTsUs frameSizeBytes isKeyframe qp
    exact Or.inl ⟨htotal, hcount, hlast, fun _ => rfl⟩
  | frameDecoded => exact Or.inl ⟨rfl, rfl, rfl, fun _ => rfl⟩
  | frameRendered captureTsUs =>
    simp only [step_frameRendered, time_frameRendered, rendered_frameRendered]
    unfold onFrameRendered
    dsimp only
    split_ifs with hneg hfirst
    · exact Or.inl ⟨rfl, rfl, rfl, fun _ => rfl⟩
    · exact Or.inr (Or.inr ⟨_, rfl, rfl, hfirst, rfl, rfl, rfl⟩)
    · refine Or.inr (Or.inl ⟨_, rfl, hfirst, ?_, ?_, rfl⟩) <;> unfold noteFreeze <;> split_ifs <;> rfl
  | frameDropped reason =>
    obtain ⟨-, hlast, htotal, hcount⟩ := onFrameDropped_freeze (s := s) reason
    exact Or.inl ⟨htotal, hcount, hlast, fun _ => rfl⟩
  | qpSample qp =>
    obtain ⟨-, hlast, htotal, hcount⟩ := onQpSample_freeze (s := s) qp
    exact Or.inl ⟨htotal, hcount, hlast, fun _ => rfl⟩
  | tick nowUs =>
    simp only [step_tick, time_tick]
    unfold VideoStatsSink.tick detectFreeze
    split_ifs with hneg hidle
    · exact Or.inl ⟨rfl, rfl, rfl, fun _ => rfl⟩
    · exact Or.inr (Or.inl ⟨_, rfl, by omega, rfl, rfl, rfl⟩)
    · exact Or.inl ⟨rfl, rfl, rfl, fun _ => rfl⟩

theorem step_cfg (s : VideoStatsSink) (e : Event) : (s.step e).cfg = s.cfg := by
  cases e with
  | frameReceived captureTsUs frameSizeBytes isKeyframe qp =>
    exact (onFrameReceived_freeze captureTsUs frameSizeBytes isKeyframe qp).1
  | frameDecoded => rfl
  | frameRendered captureTsUs =>
    rw [step_frameRendered]
    unfold onFrameRendered
    dsimp only
    split_ifs <;> simp
  | frameDropped reason => exact (onFrameDropped_freeze reason).1
  | qpSample qp => exact (onQpSample_freeze qp).1
  | tick nowUs =>
    rw [step_tick]
    unfold VideoStatsSink.tick detectFreeze
    split_ifs <;> simp

theorem run_cfg : (run cfg es).cfg = cfg := by
  induction es using List.reverseRecOn with
  | nil => rfl
  | append_singleton es e ih => rw [run_concat, step_cfg, ih]

theorem run_longFreezes : (run cfg es).LongFreezes := by
  induction es using List.reverseRecOn with
  | nil => exact Nat.zero_le _
  | append_singleton es e ih =>
    rw [run_concat]
    unfold LongFreezes
    rw [step_cfg]
    rcases step_freeze (run cfg es) e with
      ⟨htotal, hcount, -, -⟩ | ⟨t, -, -, htotal, hcount, -⟩ | ⟨t, -, -, -, htotal, hcount, -⟩
    · rw [htotal, hcount]
      exact ih
    · rw [htotal, hcount]
      simpa [LongFreezes] using ih.noteFreeze (t - (run cfg es).lastRenderedTsUs)
    · rw [htotal, hcount]
      exact ih

/-- Before a frame is rendered there are no freezes. From then on they fit between that frame and the
last one that ended a freeze or could. -/
def FreezesFit (es : List Event) (s : VideoStatsSink) : Prop :=
  match (es.filterMap Event.rendered).head? with
  | none => s.lastRenderedTsUs = -1 ∧ s.freezeTotalMs = 0
  | some first =>
    0 ≤ first ∧ (s.freezeTotalMs : ℤ) * 1000 ≤ s.lastRenderedTsUs - first
      ∧ s.lastRenderedTsUs ∈ es.filterMap Event.time

theorem rendered_nonneg {e : Event} {t : ℤ} (h : e.rendered = some t) : 0 ≤ t := by
  cases e with
  | frameRendered captureTsUs =>
    rw [rendered_frameRendered] at h
    split_ifs at h with hneg
    cases h
    exact not_lt.mp hneg
  | _ => cases h

theorem run_freezesFit (horder : (es.filterMap Event.time).Pairwise (· ≤ ·)) :
    FreezesFit es (run cfg es) := by
  induction es using List.reverseRecOn with
  | nil => exact ⟨rfl, rfl⟩
  | append_singleton es e ih =>
    rw [List.filterMap_append, List.pairwise_append] at horder
    obtain ⟨hbefore, -, hlater⟩ := horder
    specialize ih hbefore
    unfold FreezesFit at ih ⊢
    rw [run_concat, List.filterMap_append, List.head?_append, List.filterMap_append]
    cases hfirst : (es.filterMap Event.rendered).head? with
    | none =>
      rw [hfirst] at ih
      obtain ⟨hnone, hzero⟩ := ih
      rcases step_freeze (run cfg es) e with
        ⟨htotal, -, hlast, hrendered⟩ | ⟨t, -, hstarted, -⟩ | ⟨t, htime, hrendered, -, htotal, -, hlast⟩
      · simp [hrendered hnone, htotal, hlast, hnone, hzero]
      · exact absurd hnone hstarted
      · simp [hrendered, htotal, hlast, hzero, htime, rendered_nonneg hrendered]
    | some first =>
      rw [hfirst] at ih
      obtain ⟨hnonneg, htotalBefore, hmem⟩ := ih
      rw [Option.some_or]
      have hlate : (run cfg es).lastRenderedTsUs ≠ -1 := by omega
      rcases step_freeze (run cfg es) e with
        ⟨htotal, -, hlast, -⟩ | ⟨t, htime, -, htotal, -, hlast⟩ | ⟨t, -, -, hnone, -⟩
      · rw [htotal, hlast]
        exact ⟨hnonneg, htotalBefore, List.mem_append_left _ hmem⟩
      · have hgap : (run cfg es).lastRenderedTsUs ≤ t :=
          hlater _ hmem _ (by simp [htime])
        have hfreeze := (noteFreeze_total (s := run cfg es) (t - (run cfg es).lastRenderedTsUs)).2
          (by linarith)
        rw [htotal, hlast]
        refine ⟨hnonneg, by linarith, List.mem_append_right _ ?_⟩
        simp [htime]
      · exact absurd hnone hlate

theorem le_last_time {ts : List ℤ} {t last : ℤ} (horder : ts.Pairwise (· ≤ ·)) (hmem : t ∈ ts)
    (hlast : ts.getLast? = some last) : t ≤ last := by
  rcases List.eq_nil_or_concat ts with rfl | ⟨init, final, rfl⟩
  · cases hmem
  · rw [List.concat_eq_append, List.getLast?_concat] at hlast
    cases hlast
    rw [List.concat_eq_append] at horder hmem
    rcases List.mem_append.mp hmem with hinit | hfinal
    · exact (List.pairwise_append.mp horder).2.2 _ hinit _ (List.mem_singleton_self _)
    · exact (List.mem_singleton.mp hfinal).le

/-- When the times of the rendered frames and the ticks do not go back, the freezes do not overlap:
their total is at most the time since the first frame that was rendered. -/
theorem freeze_time (cfg : StatsConfig) (es : List Event) (first last : ℤ)
    (horder : (es.filterMap Event.time).Pairwise (· ≤ ·))
    (hfirst : (es.filterMap Event.rendered).head? = some first)
    (hlast : (es.filterMap Event.time).getLast? = some last) :
    ((run cfg es).freezeTotalMs : ℤ) * 1000 ≤ last - first
      ∧ cfg.freezeThresholdMs * (run cfg es).freezeCount ≤ (run cfg es).freezeTotalMs := by
  have hfit : FreezesFit es (run cfg es) := run_freezesFit horder
  unfold FreezesFit at hfit
  rw [hfirst] at hfit
  obtain ⟨-, htotal, hmem⟩ := hfit
  have hle := le_last_time horder hmem hlast
  have hlong : (run cfg es).LongFreezes := run_longFreezes
  rw [LongFreezes, run_cfg] at hlong
  exact ⟨by linarith, hlong⟩

/-- A run of 350 ms with two freezes of 150 ms, the second one ended by a tick. -/
theorem freeze_time_two :
    ((run {} [.frameRendered 0, .frameRendered 150000, .tick 200000, .tick 350000]).freezeTotalMs
        : ℤ) * 1000 ≤ 350000 - 0
      ∧ 150 * (run {} [.frameRendered 0, .frameRendered 150000, .tick 200000,
          .tick 350000]).freezeCount
        ≤ (run {} [.frameRendered 0, .frameRendered 150000, .tick 200000,
          .tick 350000]).freezeTotalMs :=
  freeze_time {} _ 0 350000 (by simp [Event.time]) rfl rfl

/-! ### The bitrate window -/

theorem sample_frameReceived (captureTsUs : ℤ) (frameSizeBytes : ℕ) (isKeyframe : Bool) (qp : ℤ) :
    (Event.frameReceived captureTsUs frameSizeBytes isKeyframe qp).sample
      = if captureTsUs < 0 ∨ frameSizeBytes = 0 then none
        else some ⟨captureTsUs, frameSizeBytes⟩ := rfl

theorem onFrameReceived_bitrateWindow (captureTsUs : ℤ) (frameSizeBytes : ℕ) (isKeyframe : Bool)
    (qp : ℤ) :
    (s.onFrameReceived captureTsUs frameSizeBytes isKeyframe qp).bitrateWindow
      = s.bitrateWindow
        ++ (Event.frameReceived captureTsUs frameSizeBytes isKeyframe qp).sample.toList := by
  rw [sample_frameReceived]
  unfold onFrameReceived onQpSample handleKeyframe
  dsimp only
  split_ifs <;> first | omega | simp

/-- In an ordered window the frames that are too old are those in front. -/
theorem dropWhile_eq_filter {xs : List BitrateSample} (c : ℤ)
    (horder : (xs.map (·.captureTsUs)).Pairwise (· ≤ ·)) :
    xs.dropWhile (·.captureTsUs < c) = xs.filter (c ≤ ·.captureTsUs) := by
  induction xs with
  | nil => rfl
  | cons x xs ih =>
    rw [List.map_cons, List.pairwise_cons] at horder
    rw [List.dropWhile_cons]
    split_ifs with hold
    · rw [decide_eq_true_eq] at hold
      rw [ih horder.2, List.filter_cons_of_neg (by simpa using hold)]
    · rw [decide_eq_true_eq, not_lt] at hold
      refine (List.filter_eq_self.mpr fun y hy => ?_).symm
      rcases List.mem_cons.mp hy with rfl | hy
      · simpa using hold
      · simpa using hold.trans (horder.1 _ (List.mem_map_of_mem hy))

theorem step_bitrateWindow (e : Event)
    (horder : (s.bitrateWindow.map (·.captureTsUs)).Pairwise (· ≤ ·)) :
    (s.step e).bitrateWindow = s.bitrateWindow.filter (Event.keeps s.cfg · e) ++ e.sample.toList := by
  have hall (xs : List BitrateSample) : xs.filter (fun _ => true) = xs := List.filter_true xs
  cases e with
  | frameReceived captureTsUs frameSizeBytes isKeyframe qp =>
    exact (onFrameReceived_bitrateWindow captureTsUs frameSizeBytes isKeyframe qp).trans
      (congrArg (· ++ _) (hall _).symm)
  | frameDecoded => exact ((List.append_nil _).trans (hall _)).symm
  | frameRendered captureTsUs =>
    refine Eq.trans ?_ ((List.append_nil _).trans (hall _)).symm
    rw [step_frameRendered]
    unfold onFrameRendered noteFreeze
    dsimp only
    split_ifs <;> rfl
  | frameDropped reason =>
    refine Eq.trans ?_ ((List.append_nil _).trans (hall _)).symm
    cases reason <;> rfl
  | qpSample qp =>
    refine Eq.trans ?_ ((List.append_nil _).trans (hall _)).symm
    change (s.onQpSample qp).bitrateWindow = _
    unfold onQpSample
    split_ifs <;> rfl
  | tick nowUs =>
    refine Eq.trans ?_ (List.append_nil _).symm
    rw [step_tick]
    unfold VideoStatsSink.tick
    split_ifs with hneg
    · rw [List.filter_eq_self.mpr fun x _ => by simp [Event.keeps, hneg]]
    · refine (dropWhile_eq_filter _ horder).trans (List.filter_congr fun x _ => ?_)
      simp [Event.keeps, hneg]

theorem recent_concat (e : Event) :
    recent cfg (es ++ [e]) = (recent cfg es).filter (Event.keeps cfg · e) ++ e.sample.toList := by
  induction es with
  | nil => simp [recent]
  | cons e' es ih =>
    rw [List.cons_append, recent, ih, recent, List.filter_append, List.filter_filter,
      List.append_assoc]
    congr 1
    refine List.filter_congr fun x _ => ?_
    rw [List.all_append, List.all_cons, List.all_nil, Bool.and_true, Bool.and_comm]

theorem recent_sublist : (recent cfg es).Sublist (es.filterMap Event.sample) := by
  induction es with
  | nil => exact List.Sublist.slnil
  | cons e es ih =>
    rw [recent]
    cases hsample : e.sample with
    | none =>
      rw [List.filterMap_cons_none hsample]
      exact ih
    | some x =>
      rw [List.filterMap_cons_some hsample]
      exact List.filter_sublist.append ih

/-- The window of the bitrate estimate holds the frames received in order of their capture that no
later tick found too old, whatever else happened in between. -/
theorem run_window
    (horder : ((es.filterMap Event.sample).map (·.captureTsUs)).Pairwise (· ≤ ·)) :
    (run cfg es).bitrateWindow = recent cfg es := by
  induction es using List.reverseRecOn with
  | nil => rfl
  | append_singleton es e ih =>
    rw [List.filterMap_append, List.map_append] at horder
    have hbefore := (List.pairwise_append.mp horder).1
    specialize ih hbefore
    have hwindow := step_bitrateWindow (s := run cfg es) e
      (by rw [ih]; exact hbefore.sublist (recent_sublist.map _))
    rw [run_concat, recent_concat, hwindow, ih, run_cfg]

theorem keeps_of_cutoff {x : BitrateSample} {nowUs : ℤ} (h : cutoff cfg nowUs ≤ x.captureTsUs)
    (hticks : ∀ t, Event.tick t ∈ es → t ≤ nowUs) : es.all (Event.keeps cfg x) = true := by
  rw [List.all_eq_true]
  intro e he
  cases e with
  | tick t =>
    have hle := hticks t he
    unfold cutoff at h
    rw [Event.keeps, Bool.or_eq_true]
    exact Or.inr (decide_eq_true (by unfold cutoff; linarith))
  | _ => rfl

theorem filter_recent {nowUs : ℤ} (hticks : ∀ t, Event.tick t ∈ es → t ≤ nowUs) :
    (recent cfg es).filter (cutoff cfg nowUs ≤ ·.captureTsUs)
      = (es.filterMap Event.sample).filter (cutoff cfg nowUs ≤ ·.captureTsUs) := by
  induction es with
  | nil => rfl
  | cons e es ih =>
    have hlater : ∀ t, Event.tick t ∈ es → t ≤ nowUs :=
      fun t ht => hticks t (List.mem_cons_of_mem _ ht)
    rw [recent, List.filter_append, ih hlater, List.filter_filter]
    cases hsample : e.sample with
    | none =>
      rw [List.filterMap_cons_none hsample]
      rfl
    | some x =>
      rw [List.filterMap_cons_some hsample, ← List.singleton_append, List.filter_append]
      congr 1
      refine List.filter_congr fun y _ => ?_
      rw [Bool.and_eq_left_iff_imp, decide_eq_true_eq]
      exact fun hy => keeps_of_cutoff hy hlater

/-- A tick that is not before the ones so far takes its sample of the bitrate from exactly the frames
received in the window before it. -/
theorem tick_bytes (cfg : StatsConfig) (es : List Event) (nowUs : ℤ) (hnow : 0 ≤ nowUs)
    (horder : ((es.filterMap Event.sample).map (·.captureTsUs)).Pairwise (· ≤ ·))
    (hticks : ∀ t, Event.tick t ∈ es → t ≤ nowUs) :
    (run cfg (es ++ [Event.tick nowUs])).bytesInWindow
      = (((es.filterMap Event.sample).filter (cutoff cfg nowUs ≤ ·.captureTsUs)).map
          (·.bytes)).sum := by
  have hnone : [Event.tick nowUs].filterMap Event.sample = [] := rfl
  have hwindow : (run cfg (es ++ [Event.tick nowUs])).bitrateWindow
      = recent cfg (es ++ [Event.tick nowUs]) := by
    refine run_window ?_
    rw [List.filterMap_append, hnone, List.append_nil]
    exact horder
  have hkeeps (x : BitrateSample) :
      Event.keeps cfg x (.tick nowUs) = decide (cutoff cfg nowUs ≤ x.captureTsUs) := by
    simp [Event.keeps, hnow.not_gt]
  have hlast : recent cfg (es ++ [Event.tick nowUs])
      = (recent cfg es).filter (cutoff cfg nowUs ≤ ·.captureTsUs) := by
    rw [recent_concat]
    exact (List.append_nil _).trans (List.filter_congr fun x _ => hkeeps x)
  rw [bytesInWindow, hwindow, hlast, filter_recent hticks]

/-- Three frames, the first of which is too old at the second tick. -/
theorem tick_bytes_three :
    (run {} ([.frameReceived 0 100 true 20, .tick 500000, .frameReceived 400000 200 false 20,
        .frameReceived 1200000 300 false 20] ++ [Event.tick 1300000])).bytesInWindow
      = ((([.frameReceived 0 100 true 20, .tick 500000, .frameReceived 400000 200 false 20,
          .frameReceived 1200000 300 false 20].filterMap Event.sample).filter
            (cutoff {} 1300000 ≤ ·.captureTsUs)).map (·.bytes)).sum :=
  tick_bytes {} _ 1300000 (by omega) (by decide) (by simp)

end VideoStatsSink

end NimRtc
