import NimRtc.Bwe

/-!
# The bounds of the estimate

Every rule that moves the rate ends in a clamp or moves it up to the maximum at most, whatever the
sums before that wrap to, and the average of two rates within bounds is within them. So the current
and the smoothed rate keep to the configuration along every run. The pacing rate is a tenth more than
the smoothed one, and from 2^32 on that is cut off.
-/

namespace NimRtc

/-! ### Conversions -/

theorem toNat_toUInt32 {x : ℚ} (hpos : 0 ≤ x) : (toUInt32 x).toNat = ⌊x⌋.toNat % 2 ^ 32 := by
  have hfloor : 0 ≤ ⌊x⌋ := Int.floor_nonneg.2 hpos
  rw [toUInt32, if_pos hpos, UInt32.ofInt, UInt32.toNat_ofNat']
  omega

/-- What lies between two rates is converted to something between them. -/
theorem toUInt32_between {x : ℚ} {lo hi : UInt32} (hlo : lo.toNat ≤ x) (hhi : x ≤ hi.toNat) :
    lo ≤ toUInt32 x ∧ toUInt32 x ≤ hi := by
  have hnat := toNat_toUInt32 (le_trans (Nat.cast_nonneg _) hlo)
  have hfloor : (lo.toNat : ℤ) ≤ ⌊x⌋ := Int.le_floor.2 (by exact_mod_cast hlo)
  have hceil : ⌊x⌋ ≤ (hi.toNat : ℤ) := by
    have hle := (Int.floor_le x).trans hhi
    exact_mod_cast hle
  have hlt := hi.toNat_lt
  rw [UInt32.le_iff_toNat_le, UInt32.le_iff_toNat_le, hnat]
  omega

theorem clamp_bounds {v lo hi : UInt32} (h : lo ≤ hi) : lo ≤ clamp v lo hi ∧ clamp v lo hi ≤ hi := by
  unfold clamp
  grind

theorem min_eq_ite (a b : UInt32) : min a b = if a ≤ b then a else b := rfl

theorem max_eq_ite (a b : UInt32) : max a b = if a ≤ b then b else a := rfl

/-! ### One call -/

theorem BweConfig.Valid.min_le_max {c : BweConfig} (h : c.Valid) :
    c.minBitrateBps ≤ c.maxBitrateBps :=
  UInt32.le_trans h.min_le_initial h.initial_le_max

def BweConfig.Within (c : BweConfig) (rate : UInt32) : Prop :=
  c.minBitrateBps ≤ rate ∧ rate ≤ c.maxBitrateBps

namespace BweCore

variable {b b' : BweCore}

structure InBounds (b : BweCore) : Prop where
  valid : b.config.Valid
  current : b.config.Within b.currentBps
  smoothed : b.config.Within b.smoothedBps

/-- A rule that leaves the configuration and the smoothed rate alone, and moves the current rate
within the bounds only. -/
structure Adjusts (b b' : BweCore) : Prop where
  config : b'.config = b.config
  smoothed : b'.smoothedBps = b.smoothedBps
  current : b'.currentBps = b.currentBps ∨ b.config.Within b'.currentBps

theorem InBounds.adjust (h : b.InBounds) (ha : Adjusts b b') : b'.InBounds := by
  obtain ⟨hconfig, hsmoothed, hcurrent⟩ := ha
  refine ⟨?_, ?_, ?_⟩
  · rw [hconfig]
    exact h.valid
  · rw [hconfig]
    rcases hcurrent with hsame | hwithin
    · rw [hsame]
      exact h.current
    · exact hwithin
  · rw [hconfig, hsmoothed]
    exact h.smoothed

theorem inBounds_create {config : BweConfig} (h : config.Valid) : (create config).InBounds :=
  ⟨h, ⟨h.min_le_initial, h.initial_le_max⟩, ⟨h.min_le_initial, h.initial_le_max⟩⟩

theorem inBounds_updateConfig {config : BweConfig} (h : config.Valid) :
    (b.updateConfig config).InBounds :=
  ⟨h, clamp_bounds h.min_le_max, clamp_bounds h.min_le_max⟩

theorem adjusts_latch (f : BweFeedback) : Adjusts b (b.latch f) := ⟨rfl, rfl, .inl rfl⟩

/-- The smoothed rate is an average. -/
theorem InBounds.smooth (h : b.InBounds) (f : BweFeedback) : (b.smooth f).InBounds := by
  obtain ⟨hvalid, hcurrent, hsmoothed⟩ := h
  refine ⟨hvalid, hcurrent, toUInt32_between ?_ ?_⟩
  all_goals
    have hnonneg := hvalid.alpha_nonneg
    have hrest := sub_nonneg.2 hvalid.alpha_le_one
    generalize b.config.smoothingAlpha = alpha at hnonneg hrest ⊢
  · have hc : (b.config.minBitrateBps.toNat : ℚ) ≤ b.currentBps.toNat := by
      exact_mod_cast UInt32.le_iff_toNat_le.1 hcurrent.1
    have hs : (b.config.minBitrateBps.toNat : ℚ) ≤ b.smoothedBps.toNat := by
      exact_mod_cast UInt32.le_iff_toNat_le.1 hsmoothed.1
    calc (b.config.minBitrateBps.toNat : ℚ)
        = alpha * b.config.minBitrateBps.toNat + (1 - alpha) * b.config.minBitrateBps.toNat := by
          ring
      _ ≤ alpha * b.currentBps.toNat + (1 - alpha) * b.smoothedBps.toNat := by gcongr
  · have hc : (b.currentBps.toNat : ℚ) ≤ b.config.maxBitrateBps.toNat := by
      exact_mod_cast UInt32.le_iff_toNat_le.1 hcurrent.2
    have hs : (b.smoothedBps.toNat : ℚ) ≤ b.config.maxBitrateBps.toNat := by
      exact_mod_cast UInt32.le_iff_toNat_le.1 hsmoothed.2
    calc alpha * b.currentBps.toNat + (1 - alpha) * b.smoothedBps.toNat
        ≤ alpha * b.config.maxBitrateBps.toNat + (1 - alpha) * b.config.maxBitrateBps.toNat := by
          gcongr
      _ = (b.config.maxBitrateBps.toNat : ℚ) := by ring

end BweCore

open BweCore

namespace Bwe

variable {b : Bwe}

theorem adjusts_rembOverride (h : b.InBounds) (f : BweFeedback) :
    Adjusts b.toBweCore (b.rembOverride f).toBweCore := by
  have hle := h.valid.min_le_max
  unfold rembOverride
  split
  · exact ⟨rfl, rfl, .inl rfl⟩
  · dsimp only
    split_ifs
    · exact ⟨rfl, rfl, .inl rfl⟩
    all_goals
      first
        | exact ⟨rfl, rfl, .inl rfl⟩
        | exact ⟨rfl, rfl, .inr ⟨by grind, by grind⟩⟩

theorem adjusts_lossDecrease (h : b.InBounds) (f : BweFeedback) :
    Adjusts b.toBweCore (b.lossDecrease f).toBweCore := by
  have hle := h.valid.min_le_max
  unfold lossDecrease
  dsimp only
  split_ifs
  · refine ⟨rfl, rfl, .inr ⟨?_, ?_⟩⟩ <;> dsimp only <;> grind [min_eq_ite, max_eq_ite]
  · exact ⟨rfl, rfl, .inl rfl⟩

theorem adjusts_resume (f : BweFeedback) : Adjusts b.toBweCore (b.resume f).toBweCore := by
  unfold resume
  dsimp only
  split_ifs <;> exact ⟨rfl, rfl, .inl rfl⟩

theorem increasedBps_le (f : BweFeedback) (elapsed : ℤ) :
    b.increasedBps f elapsed ≤ b.config.maxBitrateBps := by
  unfold increasedBps
  grind [min_eq_ite]

/-- The rate only goes up here, so that the minimum is not in question. -/
theorem adjusts_increase (h : b.InBounds) (f : BweFeedback) :
    Adjusts b.toBweCore (b.increase f).toBweCore := by
  have hcurrent := h.current.1
  unfold increase
  split
  · exact ⟨rfl, rfl, .inl rfl⟩
  · dsimp only
    split_ifs with hmore
    · exact ⟨rfl, rfl, .inr ⟨by grind, increasedBps_le f _⟩⟩
    · exact ⟨rfl, rfl, .inl rfl⟩

theorem inBounds_onFeedback (h : b.InBounds) (f : BweFeedback) : (b.onFeedback f).1.InBounds := by
  have hlatch : (b.withCore (b.latch f)).InBounds := h.adjust (adjusts_latch f)
  have hremb := hlatch.adjust (adjusts_rembOverride hlatch f)
  unfold onFeedback
  generalize (b.withCore (b.latch f)).rembOverride f = r at hremb
  dsimp only
  split_ifs
  · exact (hremb.adjust (adjusts_lossDecrease hremb f)).smooth f
  · have hresume := hremb.adjust (adjusts_resume f)
    exact (hresume.adjust (adjusts_increase hresume f)).smooth f
  · exact (hremb.adjust (adjusts_resume f)).smooth f

end Bwe

namespace GoogCcBwe

variable {b : GoogCcBwe}

theorem adjusts_trackRtt (f : BweFeedback) : Adjusts b.toBweCore (b.trackRtt f).toBweCore := by
  unfold trackRtt
  split_ifs <;> exact ⟨rfl, rfl, .inl rfl⟩

theorem adjusts_rembOverride (h : b.InBounds) (f : BweFeedback) :
    Adjusts b.toBweCore (b.rembOverride f).toBweCore := by
  unfold rembOverride
  split
  · exact ⟨rfl, rfl, .inl rfl⟩
  · dsimp only
    split_ifs
    · exact ⟨rfl, rfl, .inl rfl⟩
    · exact ⟨rfl, rfl, .inr (clamp_bounds h.valid.min_le_max)⟩
    · exact ⟨rfl, rfl, .inl rfl⟩

theorem adjusts_applyDecrease (h : b.InBounds) (next : UInt32) (now : ℤ) (reason : BweReason) :
    Adjusts b.toBweCore (b.applyDecrease next now reason).toBweCore := by
  unfold applyDecrease
  dsimp only
  split_ifs
  · exact ⟨rfl, rfl, .inr (clamp_bounds h.valid.min_le_max)⟩
  · exact ⟨rfl, rfl, .inl rfl⟩

theorem adjusts_lossDecrease (h : b.InBounds) (f : BweFeedback) :
    Adjusts b.toBweCore (b.lossDecrease f).toBweCore := by
  obtain ⟨hconfig, hsmoothed, hcurrent⟩ := adjusts_applyDecrease h
    (toUInt32 (b.currentBps.toNat * b.config.decreaseFactor)) f.timestamp .aimdDecrease
  exact ⟨hconfig, hsmoothed, hcurrent⟩

theorem probedBps_le (elapsed : ℤ) : b.probedBps elapsed ≤ b.config.maxBitrateBps := by
  unfold probedBps
  grind [min_eq_ite]

theorem adjusts_probe (h : b.InBounds) (f : BweFeedback) :
    Adjusts b.toBweCore (b.probe f).toBweCore := by
  have hcurrent := h.current.1
  unfold probe
  split
  · exact ⟨rfl, rfl, .inl rfl⟩
  · dsimp only
    split_ifs with hmore
    · exact ⟨rfl, rfl, .inr ⟨by grind, probedBps_le _⟩⟩
    · exact ⟨rfl, rfl, .inl rfl⟩

theorem inBounds_onFeedback (h : b.InBounds) (f : BweFeedback) : (b.onFeedback f).1.InBounds := by
  have hlatch : ((b.trackRtt f).withCore ((b.trackRtt f).latch f)).InBounds :=
    (h.adjust (adjusts_trackRtt f)).adjust (adjusts_latch f)
  have hremb := hlatch.adjust (adjusts_rembOverride hlatch f)
  unfold onFeedback
  dsimp only
  generalize ((b.trackRtt f).withCore ((b.trackRtt f).latch f)).rembOverride f = r at hremb
  split_ifs
  · exact (hremb.adjust (adjusts_lossDecrease hremb f)).smooth f
  · exact (hremb.adjust (adjusts_applyDecrease hremb _ _ _)).smooth f
  · exact (hremb.adjust (adjusts_probe hremb f)).smooth f
  · exact hremb.smooth f

end GoogCcBwe

/-! ### Runs -/

namespace BweCore

variable {b : BweCore}

theorem pacingBps_le_max : b.pacingBps ≤ b.config.maxBitrateBps := by
  unfold pacingBps
  grind

/-- The pacing rate is not below the target as long as 1.1 times the target fits 32 bits. -/
theorem InBounds.smoothed_le_pacing_iff (h : b.InBounds) :
    b.smoothedBps ≤ b.pacingBps ↔ b.smoothedBps.toNat * 11 < 2 ^ 32 * 10 := by
  have hfloor : ⌊(b.smoothedBps.toNat * (11 / 10) : ℚ)⌋ = (b.smoothedBps.toNat * 11 / 10 : ℕ) := by
    have hdiv := Rat.floor_intCast_div_natCast (b.smoothedBps.toNat * 11) 10
    push_cast at hdiv ⊢
    rw [← hdiv, mul_div_assoc]
  have hpacing := toNat_toUInt32 (x := b.smoothedBps.toNat * (11 / 10)) (by positivity)
  rw [hfloor, Int.toNat_natCast] at hpacing
  have hmax := UInt32.le_iff_toNat_le.1 h.smoothed.2
  have hlt := b.smoothedBps.toNat_lt
  unfold pacingBps
  rcases Nat.lt_or_ge (b.smoothedBps.toNat * 11) (2 ^ 32 * 10) with hfits | hcut
  · rw [Nat.mod_eq_of_lt (by omega)] at hpacing
    dsimp only
    split_ifs <;> simp only [UInt32.le_iff_toNat_le] <;> omega
  · rw [Nat.mod_eq_sub_mod (by omega), Nat.mod_eq_of_lt (by omega)] at hpacing
    dsimp only
    split_ifs with hover
    · rw [UInt32.lt_iff_toNat_lt] at hover
      omega
    · rw [UInt32.le_iff_toNat_le]
      omega

end BweCore

namespace IBwe

theorem inBounds_new {config : BweConfig} {b : IBwe} (h : config.Valid) (hb : New config b) :
    b.core.InBounds := by
  rcases hb with rfl | rfl
  · exact inBounds_create h
  · exact inBounds_create h

theorem inBounds_step (b : IBwe) (call : BweCall) (h : b.core.InBounds) (hcall : ValidCall call) :
    (machine.step b call).1.core.InBounds := by
  cases call with
  | onFeedback f =>
    cases b with
    | aimd b => exact Bwe.inBounds_onFeedback h f
    | googCc b => exact GoogCcBwe.inBounds_onFeedback h f
  | estimate now => exact h
  | updateConfig config =>
    cases b with
    | aimd b => exact inBounds_updateConfig hcall
    | googCc b => exact inBounds_updateConfig hcall
  | reset =>
    cases b with
    | aimd b => exact inBounds_create h.valid
    | googCc b => exact inBounds_create h.valid

theorem inBounds_run {config : BweConfig} {b : IBwe} (h : config.Valid) (hb : New config b)
    (calls : List BweCall) (hcalls : ∀ call ∈ calls, ValidCall call) :
    (machine.exec b calls).1.core.InBounds :=
  Machine.exec_keeps inBounds_step calls (inBounds_new h hb) (Machine.meets_of_forall_mem hcalls)

/-- In every state that valid configurations lead to, the current and the smoothed rate are within
the bounds that are in force, and the pacing rate is at most the maximum. It is at least the target
exactly when 1.1 times the smoothed rate is below 2^32, which a maximum of at most 3904515723
ensures. -/
theorem rates_in_bounds {config : BweConfig} {b : IBwe} (h : config.Valid) (hb : New config b)
    (calls : List BweCall) (hcalls : ∀ call ∈ calls, ValidCall call) (now : ℤ) :
    let core := (machine.exec b calls).1.core
    let e := core.estimate now
    core.config.Within core.currentBps ∧ core.config.Within core.smoothedBps
      ∧ e.pacingBitrateBps ≤ core.config.maxBitrateBps
      ∧ (e.targetBitrateBps ≤ e.pacingBitrateBps ↔ core.smoothedBps.toNat * 11 < 2 ^ 32 * 10)
      ∧ (core.config.maxBitrateBps ≤ 3904515723 → e.targetBitrateBps ≤ e.pacingBitrateBps) := by
  intro core e
  have hbounds : core.InBounds := inBounds_run h hb calls hcalls
  have hiff := hbounds.smoothed_le_pacing_iff
  refine ⟨hbounds.current, hbounds.smoothed, pacingBps_le_max, hiff, fun hmax => hiff.2 ?_⟩
  have hsmoothed := UInt32.le_iff_toNat_le.1 (UInt32.le_trans hbounds.smoothed.2 hmax)
  have hbound : (3904515723 : UInt32).toNat = 3904515723 := rfl
  omega

/-- A goog-cc estimator loses half its packets, is given narrower bounds, and then overuses its path. -/
theorem rates_in_bounds_narrowed :
    let config : BweConfig :=
      { initialBitrateBps := 500000, maxBitrateBps := 600000, minBitrateBps := 100000 }
    let core := (machine.exec (.googCc (GoogCcBwe.create {}))
      [.onFeedback { lossRate := 1 / 2, rtt := 40 }, .updateConfig config,
        .onFeedback { rtt := 90, rembBps := some 900000, timestamp := 600000000 }]).1.core
    core.config.Within core.smoothedBps ∧ core.smoothedBps = 582500 := by
  have hvalid : BweConfig.Valid {} := by constructor <;> decide +kernel
  have hcalls : ∀ call ∈ [BweCall.onFeedback { lossRate := 1 / 2, rtt := 40 },
      .updateConfig { initialBitrateBps := 500000, maxBitrateBps := 600000, minBitrateBps := 100000 },
      .onFeedback { rtt := 90, rembBps := some 900000, timestamp := 600000000 }],
      ValidCall call := by
    intro call hcall
    simp only [List.mem_cons, List.not_mem_nil, or_false] at hcall
    rcases hcall with rfl | rfl | rfl
    · trivial
    · constructor <;> decide +kernel
    · trivial
  exact ⟨(rates_in_bounds hvalid (.inr rfl) _ hcalls 0).2.1, by decide +kernel⟩

/-- With a maximum of 4 Gbit/s, 1.1 times the initial rate is cut off at 2^32. -/
theorem pacing_below_target :
    let config : BweConfig := { initialBitrateBps := 4000000000, maxBitrateBps := 4000000000 }
    let e := (aimd (Bwe.create config)).core.estimate 0
    config.Valid ∧ e.targetBitrateBps = 4000000000 ∧ e.pacingBitrateBps = 105032704
      ∧ ¬ e.targetBitrateBps ≤ e.pacingBitrateBps := by
  refine ⟨?_, rfl, ?_, ?_⟩
  · constructor <;> decide +kernel
  · decide +kernel
  · decide +kernel

end IBwe

end NimRtc
