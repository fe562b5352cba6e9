import NimRtc.Proofs.FrameLayouts
import NimRtc.VideoSource

/-!
# What the patterns write

A pattern takes the rows of each plane to stand without a gap, so what it writes stays inside a sound
layout of any format (`render_pattern_inside`). A reader goes by the strides, and sees the bars only if
the rows really have no gap, the places fit in 32 bits and no other plane lies over the first
(`bars_shown_iff`).
-/

namespace NimRtc

namespace VideoSource

open VideoFrame Checked

attribute [local instance] planes_neZero

/-! ### Places -/

section Places

variable {w h : UInt32} {i j k pos : ℕ} {value : ℕ → ℕ → UInt8} {p : Put UInt8}

theorem toNat_index (w : UInt32) (j i : ℕ) : index w j i = (j * w.toNat + i) % 2 ^ 32 := by
  unfold index
  rw [UInt32.toNat_add, UInt32.toNat_mul, UInt32.toNat_ofNat', UInt32.toNat_ofNat', Nat.mod_mul_mod,
    ← Nat.add_mod]

theorem tight_lt (hj : j < h.toNat) (hi : i < w.toNat) : j * w.toNat + i < w.toNat * h.toNat := by
  calc j * w.toNat + i < (j + 1) * w.toNat := by rw [Nat.succ_mul]; omega
    _ ≤ h.toNat * w.toNat := Nat.mul_le_mul_right _ hj
    _ = w.toNat * h.toNat := Nat.mul_comm _ _

theorem index_lt (hj : j < h.toNat) (hi : i < w.toNat) : index w j i < w.toNat * h.toNat := by
  rw [toNat_index]
  exact (Nat.mod_le _ _).trans_lt (tight_lt hj hi)

theorem mem_fill : p ∈ fill pos w h value ↔
    ∃ j < h.toNat, ∃ i < w.toNat, p = ⟨pos + index w j i, value j i⟩ := by
  unfold fill
  simp only [List.mem_flatMap, List.mem_map, List.mem_range, eq_comm]

theorem mem_memset {v : UInt8} {n : UInt32} :
    p ∈ memset pos v n ↔ ∃ k < n.toNat, p = ⟨pos + k, v⟩ := by
  unfold memset
  simp only [List.mem_map, List.mem_range, eq_comm]

/-- Without a gap between the rows, each place is filled once. -/
theorem lastPut_fill (hsize : w.toNat * h.toNat ≤ 2 ^ 32) (hj : j < h.toNat) (hi : i < w.toNat) :
    lastPut (pos + (j * w.toNat + i)) (fill pos w h value) = some (value j i) := by
  have hindex : ∀ {j i}, j < h.toNat → i < w.toNat → index w j i = j * w.toNat + i := fun hj hi => by
    rw [toNat_index, Nat.mod_eq_of_lt ((tight_lt hj hi).trans_le hsize)]
  refine lastPut_eq_some ⟨_, mem_fill.2 ⟨j, hj, i, hi, rfl⟩, by rw [hindex hj hi]⟩ fun p hp heq => ?_
  obtain ⟨j', hj', i', hi', rfl⟩ := mem_fill.1 hp
  have hplace : j' * w.toNat + i' = j * w.toNat + i := by
    rw [← hindex hj' hi']
    exact Nat.add_left_cancel heq
  have hpos : (Raster.mk 0 w.toNat w.toNat h.toNat).pos j' i'
      = (Raster.mk 0 w.toNat w.toNat h.toNat).pos j i := by
    unfold Raster.pos
    rw [Nat.zero_add, Nat.zero_add, hplace]
  obtain ⟨rfl, rfl⟩ := Raster.pos_inj le_rfl hi' hi hpos
  rfl

/-- Behind the last place that is filled. -/
theorem lastPut_fill_none (hk : w.toNat * h.toNat ≤ k ∨ 2 ^ 32 ≤ k) :
    lastPut (pos + k) (fill pos w h value) = none := by
  refine lastPut_eq_none fun p hp heq => ?_
  obtain ⟨j, hj, i, hi, rfl⟩ := mem_fill.1 hp
  have hlt := index_lt hj hi
  have hmod : index w j i < 2 ^ 32 := by
    rw [toNat_index]
    exact Nat.mod_lt _ (by norm_num)
  have hplace : index w j i = k := Nat.add_left_cancel heq
  omega

end Places

/-! ### Inside the planes -/

/-- A place among the first `n` of a plane. -/
def Among (pos n k : ℕ) : Prop := pos ≤ k ∧ k < pos + n

section Planes

variable (cfg : SourceConfig) {y u v : ℕ}

/-- The places of one of three planes, the rows without a gap. -/
def InPlanes (w h : UInt32) (y u v k : ℕ) : Prop :=
  Among y (w.toNat * h.toNat) k ∨ Among u ((w / 2).toNat * (h / 2).toNat) k
    ∨ Among v ((w / 2).toNat * (h / 2).toNat) k

theorem mem_halves {w h : UInt32} {f g : ℕ → ℕ → UInt8} {p : Put UInt8}
    (hp : p ∈ (List.range h.toNat).flatMap fun j => (List.range w.toNat).flatMap fun i =>
      [⟨u + index w j i, f j i⟩, ⟨v + index w j i, g j i⟩]) :
    Among u (w.toNat * h.toNat) p.pos ∨ Among v (w.toNat * h.toNat) p.pos := by
  simp only [List.mem_flatMap, List.mem_range] at hp
  obtain ⟨j, hj, i, hi, hp⟩ := hp
  have hlt := index_lt hj hi
  rcases List.mem_cons.1 hp with rfl | hp
  · exact .inl ⟨Nat.le_add_right _ _, Nat.add_lt_add_left hlt _⟩
  · rw [List.mem_singleton] at hp
    subst hp
    exact .inr ⟨Nat.le_add_right _ _, Nat.add_lt_add_left hlt _⟩

theorem fill_among {w h : UInt32} {value : ℕ → ℕ → UInt8} {p : Put UInt8}
    (hp : p ∈ fill y w h value) : Among y (w.toNat * h.toNat) p.pos := by
  obtain ⟨j, hj, i, hi, rfl⟩ := mem_fill.1 hp
  exact ⟨Nat.le_add_right _ _, Nat.add_lt_add_left (index_lt hj hi) _⟩

theorem memset_among {a b : UInt32} {value : UInt8} {p : Put UInt8} (hp : p ∈ memset y value (a * b)) :
    Among y (a.toNat * b.toNat) p.pos := by
  obtain ⟨k, hk, rfl⟩ := mem_memset.1 hp
  rw [UInt32.toNat_mul] at hk
  exact ⟨Nat.le_add_right _ _, Nat.add_lt_add_left (hk.trans_le (Nat.mod_le _ _)) _⟩

theorem overlayDigit_among {d : Fin 10} {x0 : ℕ} {w h : UInt32} {p : Put UInt8}
    (hp : p ∈ overlayDigit y d x0 w h) : Among y (w.toNat * h.toNat) p.pos := by
  unfold overlayDigit at hp
  simp only [List.mem_flatMap] at hp
  obtain ⟨row, -, x, -, hp⟩ := hp
  split_ifs at hp with hbit
  · cases hp
  · simp only [List.mem_flatMap] at hp
    obtain ⟨yy, -, xx, -, hp⟩ := hp
    split_ifs at hp with hin
    · rw [List.mem_singleton] at hp
      subst hp
      exact ⟨Nat.le_add_right _ _, Nat.add_lt_add_left (index_lt hin.2 hin.1) _⟩
    · cases hp

theorem overlayDigits_among {w h : UInt32} {p : Put UInt8} :
    ∀ {digit : ℕ} {frameSeq : UInt32}, p ∈ overlayDigits y w h digit frameSeq →
      Among y (w.toNat * h.toNat) p.pos
  | 0, _, hp => by cases hp
  | digit + 1, frameSeq, hp => by
    unfold overlayDigits at hp
    rcases List.mem_append.1 hp with hp | hp
    · exact overlayDigit_among hp
    · exact overlayDigits_among hp

theorem gradient_within {p : Put UInt8} (hp : p ∈ renderGradient cfg y u v) :
    InPlanes cfg.width cfg.height y u v p.pos := by
  unfold renderGradient at hp
  rcases List.mem_append.1 hp with hp | hp
  · exact .inl (fill_among hp)
  · exact .inr (mem_halves hp)

/-- A pattern writes into its three planes only. -/
theorem patternPuts_within {p : Put UInt8} (hp : p ∈ patternPuts cfg y u v) :
    InPlanes cfg.width cfg.height y u v p.pos := by
  unfold patternPuts at hp
  split at hp
  · unfold renderSolid at hp
    rcases List.mem_append.1 hp with hp | hp
    · rcases List.mem_append.1 hp with hp | hp
      · exact .inl (memset_among hp)
      · exact .inr (.inl (memset_among hp))
    · exact .inr (.inr (memset_among hp))
  · rcases List.mem_append.1 hp with hp | hp
    · exact .inl (fill_among hp)
    · exact .inr (mem_halves hp)
  · exact gradient_within cfg hp
  · rcases List.mem_append.1 hp with hp | hp
    · exact gradient_within cfg hp
    · unfold overlayFrameCount at hp
      split_ifs at hp
      · cases hp
      · exact .inl (overlayDigits_among hp)

end Planes

/-! ### Inside the buffer -/

/-- The layout that a source of this format, or a caller with an alignment of its own, renders to. -/
def targetLayout (cfg : SourceConfig) (strideAlign : UInt32) : VideoFrameLayout :=
  computeLayoutAligned cfg.format cfg.width cfg.height strideAlign

/-- The first plane starts the buffer, and the three planes that a pattern writes are in it. -/
structure Roomy (w h : UInt32) (format : PixelFormat) (l : VideoFrameLayout) : Prop where
  size_pos : 0 < l.bufferSize
  format_eq : l.format = format
  width_eq : l.width = w
  height_eq : l.height = h
  offset_zero : l.planeOffsets 0 = 0
  inside : ∀ k, InPlanes w h (l.planeOffsets 0) (l.planeOffsets 1) (l.planeOffsets 2) k →
    k < l.bufferSize

section Roomy

variable (out : VideoFrameLayout) {w h a : UInt32}

theorem half_le (w h : UInt32) {s1 : ℕ} (hge : (w.toNat + 1) / 2 ≤ s1) :
    (w / 2).toNat * (h / 2).toNat ≤ s1 * ((h.toNat + 1) / 2) := by
  have htwo : (2 : UInt32).toNat = 2 := rfl
  rw [UInt32.toNat_div, UInt32.toNat_div, htwo]
  exact Nat.mul_le_mul (by omega) (by omega)

theorem half_le_whole (w h : UInt32) : (w / 2).toNat * (h / 2).toNat ≤ w.toNat * h.toNat := by
  rw [UInt32.toNat_div, UInt32.toNat_div]
  exact Nat.mul_le_mul (Nat.div_le_self _ _) (Nat.div_le_self _ _)

theorem planar_roomy (ha : a ≠ 0) (hw : 0 < w.toNat) (hh : 0 < h.toNat)
    (hfit : Aligns a.toNat w.toNat ∧ Aligns a.toNat ((w.toNat + 1) / 2) ∧ h.toNat + 1 < 2 ^ 32) :
    Roomy w h out.format (fillPlanarYuv420Layout out w h a) := by
  obtain ⟨s0, s1, hge0, hge1, -, -, -, heq⟩ := planar_layout out ha hw hfit.1 hfit.2.1 hfit.2.2
  have hy : w.toNat * h.toNat ≤ s0 * h.toNat := Nat.mul_le_mul_right _ hge0
  have hc := half_le w h hge1
  have hpos : 0 < w.toNat * h.toNat := Nat.mul_pos hw hh
  rw [heq]
  refine ⟨?_, rfl, rfl, rfl, rfl, fun k hk => ?_⟩
  · dsimp only
    omega
  · unfold InPlanes Among at hk
    simp only [Matrix.cons_val_zero, Matrix.cons_val_one, Matrix.cons_val] at hk
    dsimp only
    omega

theorem nv12_roomy (ha : a ≠ 0) (hw : 0 < w.toNat) (hh : 0 < h.toNat)
    (hfit : Aligns a.toNat w.toNat ∧ Aligns a.toNat ((w.toNat + 1) / 2 * 2)
      ∧ h.toNat + 1 < 2 ^ 32) :
    Roomy w h out.format (fillNv12Layout out w h a) := by
  obtain ⟨s0, s1, hge0, hge1, -, -, -, heq⟩ := nv12_layout out ha hw hfit.1 hfit.2.1 hfit.2.2
  have hy : w.toNat * h.toNat ≤ s0 * h.toNat := Nat.mul_le_mul_right _ hge0
  have hc := half_le w h (show (w.toNat + 1) / 2 ≤ s1 by omega)
  have hwhole := half_le_whole w h
  have hpos : 0 < w.toNat * h.toNat := Nat.mul_pos hw hh
  rw [heq]
  refine ⟨?_, rfl, rfl, rfl, rfl, fun k hk => ?_⟩
  · dsimp only
    omega
  · unfold InPlanes Among at hk
    simp only [Matrix.cons_val_zero, Matrix.cons_val_one, Matrix.cons_val] at hk
    dsimp only
    omega

theorem packed_roomy (bpp : UInt32) {bytes : ℕ} (hbytes : (bpp / 8).toNat = bytes) (hone : 1 ≤ bytes)
    (ha : a ≠ 0) (hw : 0 < w.toNat) (hh : 0 < h.toNat) (hrow : Aligns a.toNat (w.toNat * bytes)) :
    Roomy w h out.format (fillPackedLayout out w h bpp a) := by
  have hrowPos : 0 < w.toNat * bytes := Nat.mul_pos hw hone
  obtain ⟨s0, hge0, -, heq⟩ := packed_layout out (h := h) ha hbytes hrowPos hrow
  have hge : w.toNat ≤ s0 := (Nat.le_mul_of_pos_right _ hone).trans hge0
  have hy : w.toNat * h.toNat ≤ s0 * h.toNat := Nat.mul_le_mul_right _ hge
  have hwhole := half_le_whole w h
  have hpos : 0 < w.toNat * h.toNat := Nat.mul_pos hw hh
  rw [heq]
  refine ⟨?_, rfl, rfl, rfl, rfl, fun k hk => ?_⟩
  · dsimp only
    omega
  · unfold InPlanes Among at hk
    simp only [Matrix.cons_val_zero, Matrix.cons_val_one, Matrix.cons_val] at hk
    dsimp only
    omega

end Roomy

section Target

variable (cfg : SourceConfig) (strideAlign : UInt32)

/-- A picture of no bytes. -/
def NoPicture : Prop := cfg.width = 0 ∨ cfg.height = 0 ∨ cfg.format = .unknown

instance : Decidable (NoPicture cfg) := inferInstanceAs (Decidable (_ ∨ _ ∨ _))

/-- The condition on its size that a sound layout needs. -/
def Fits : Prop :=
  LayoutFits cfg.width.toNat cfg.height.toNat (max strideAlign.toNat 1) cfg.format

instance : Decidable (Fits cfg strideAlign) := inferInstanceAs (Decidable (LayoutFits _ _ _ _))

theorem target_empty (h : NoPicture cfg) : (targetLayout cfg strideAlign).bufferSize = 0 := by
  unfold targetLayout computeLayoutAligned
  by_cases hzero : cfg.width = 0 ∨ cfg.height = 0
  · rw [if_pos hzero]
  · rw [if_neg hzero]
    rcases h with h | h | h
    · exact absurd (.inl h) hzero
    · exact absurd (.inr h) hzero
    · simp only [h]

theorem target_roomy (h : ¬NoPicture cfg) (hfit : Fits cfg strideAlign) :
    Roomy cfg.width cfg.height cfg.format (targetLayout cfg strideAlign) := by
  unfold NoPicture at h
  simp only [not_or] at h
  obtain ⟨hwidth, hheight, hformat⟩ := h
  have hw := toNat_pos_of_ne_zero hwidth
  have hh := toNat_pos_of_ne_zero hheight
  unfold Fits at hfit
  unfold targetLayout computeLayoutAligned
  obtain ⟨a, hdef, ha, hmax⟩ := exists_alignment strideAlign
  rw [if_neg (not_or.2 ⟨hwidth, hheight⟩)]
  simp only [hdef]
  rw [hmax] at hfit
  generalize hf : cfg.format = format at hfit hformat
  cases format with
  | unknown => exact absurd rfl hformat
  | i420 => exact planar_roomy { format := .i420 } ha hw hh hfit
  | yv12 => exact planar_roomy { format := .yv12 } ha hw hh hfit
  | nv12 => exact nv12_roomy { format := .nv12 } ha hw hh hfit
  | bgra =>
    exact packed_roomy { format := .bgra } 32 rfl (by decide) ha hw hh hfit
  | rgba =>
    exact packed_roomy { format := .rgba } 32 rfl (by decide) ha hw hh hfit
  | rgb24 =>
    exact packed_roomy { format := .rgb24 } 24 rfl (by decide) ha hw hh hfit

/-- What `render_pattern` says about the frame. -/
def frameInfo : VideoFrameInfo where
  captureTsUs := cfg.startCaptureTsUs
  frameSeq := cfg.startFrameSeq
  rtpTimestamp := cfg.startFrameSeq * (90000 / max 1 cfg.fps)

/-- What a pattern writes into a layout. -/
def targetPuts : List (Put UInt8) :=
  let offset := (targetLayout cfg strideAlign).planeOffsets
  patternPuts cfg (offset 0) (offset 1) (offset 2)

theorem renderPattern_empty (h : NoPicture cfg) :
    renderPattern cfg (newBuffer (targetLayout cfg strideAlign))
      = .error (.invalidArgument "render_pattern: buffer is empty") := by
  unfold newBuffer
  rw [if_pos (target_empty cfg strideAlign h)]
  rfl

/-- A buffer that passes the checks. -/
theorem renderPattern_checked {b : VideoFrameBuffer} (hvalid : b.valid = true)
    (hformat : b.layout.format = cfg.format) (hwidth : b.layout.width = cfg.width)
    (hheight : b.layout.height = cfg.height) (hstorage : b.storage ≠ []) {storage : List UInt8}
    (hput : putAll (fun i => RenderError.access (.write i)) (patternPuts cfg (b.layout.planeOffsets 0)
      (b.layout.planeOffsets 1) (b.layout.planeOffsets 2)) b.storage = .ok storage) :
    renderPattern cfg b = .ok ({ b with storage }, frameInfo cfg) := by
  unfold renderPattern
  rw [hvalid, if_neg (by decide), if_neg (not_not.2 hformat),
    if_neg (not_or.2 ⟨not_not.2 hwidth, not_not.2 hheight⟩), if_neg (mt And.left hstorage)]
  dsimp only
  rw [hput]
  rfl

/-- A new buffer is rendered. Each byte is what was written to it last, or zero. -/
theorem renderPattern_new (h : ¬NoPicture cfg) (hfit : Fits cfg strideAlign) :
    ∃ storage, renderPattern cfg (newBuffer (targetLayout cfg strideAlign))
        = .ok ({ layout := targetLayout cfg strideAlign, storage, ctrl := some 0 }, frameInfo cfg)
      ∧ storage.length = (targetLayout cfg strideAlign).bufferSize
      ∧ ∀ k < storage.length, storage[k]? = some ((lastPut k (targetPuts cfg strideAlign)).getD 0) := by
  have hroomy := target_roomy cfg strideAlign h hfit
  have hsize := hroomy.size_pos
  obtain ⟨storage, hput, hlength, hplace⟩ := putAll_spec (fun i => RenderError.access (.write i))
    (targetPuts cfg strideAlign)
    (List.replicate (targetLayout cfg strideAlign).bufferSize (0 : UInt8)) fun p hp => by
      rw [List.length_replicate]
      exact hroomy.inside _ (patternPuts_within cfg hp)
  rw [List.length_replicate] at hlength
  refine ⟨storage, ?_, hlength, fun k hk => ?_⟩
  · unfold newBuffer
    rw [if_neg hsize.ne']
    exact renderPattern_checked cfg rfl hroomy.format_eq hroomy.width_eq hroomy.height_eq
      (fun hnil => hsize.ne' ((List.replicate_eq_nil_iff _).1 hnil)) hput
  · rw [hplace, List.getElem?_replicate, if_pos (hlength ▸ hk)]
    cases lastPut k (targetPuts cfg strideAlign) <;> rfl

/-- A pattern never writes outside a buffer of a sound layout: it fills the buffer, or there is no
picture. -/
theorem render_pattern_inside (hfit : NoPicture cfg ∨ Fits cfg strideAlign) :
    (NoPicture cfg → renderPattern cfg (newBuffer (targetLayout cfg strideAlign))
        = .error (.invalidArgument "render_pattern: buffer is empty"))
      ∧ (¬NoPicture cfg → ∃ storage,
        renderPattern cfg (newBuffer (targetLayout cfg strideAlign))
            = .ok ({ layout := targetLayout cfg strideAlign, storage, ctrl := some 0 },
              frameInfo cfg)
          ∧ storage.length = (targetLayout cfg strideAlign).bufferSize
          ∧ ∀ k < storage.length, ¬InPlanes cfg.width cfg.height
              ((targetLayout cfg strideAlign).planeOffsets 0)
              ((targetLayout cfg strideAlign).planeOffsets 1)
              ((targetLayout cfg strideAlign).planeOffsets 2) k → storage[k]? = some 0) := by
  refine ⟨renderPattern_empty cfg strideAlign, fun h => ?_⟩
  obtain ⟨storage, hrender, hlength, hplace⟩ :=
    renderPattern_new cfg strideAlign h (hfit.resolve_left h)
  refine ⟨storage, hrender, hlength, fun k hk hout => ?_⟩
  rw [hplace k hk, lastPut_eq_none]
  · rfl
  · rintro p hp rfl
    exact hout (patternPuts_within cfg hp)

theorem render_pattern_inside_nv12 :
    ∃ frame, renderPattern { width := 5, height := 3, format := .nv12 }
      (newBuffer (targetLayout { width := 5, height := 3, format := .nv12 } 16)) = .ok frame := by
  obtain ⟨-, hok⟩ := render_pattern_inside { width := 5, height := 3, format := .nv12 } 16
    (.inr (by decide))
  obtain ⟨storage, hrender, -⟩ := hok (by decide)
  exact ⟨_, hrender⟩

end Target

/-! ### The bars -/

/-- The first plane shows the bars, to a reader that goes by the stride. -/
def ShowsBars (cfg : SourceConfig) (b : VideoFrameBuffer) : Prop :=
  ∀ j < cfg.height.toNat, ∀ i < cfg.width.toNat,
    b.storage[(b.layout.plane 0).pos j i]? = some (barsY cfg i)

/-- A layout with a plane of luma in front, of rows `s` apart. -/
structure LumaFirst (w h a : ℕ) (format : PixelFormat) (s : ℕ) (l : VideoFrameLayout) : Prop where
  stride_eq : l.strides 0 = s
  width_le : w ≤ s
  tight_iff : s = w ↔ a ∣ w
  size_le : s * h ≤ l.bufferSize
  size_lt : l.bufferSize < 2 ^ 64
  offset_one : s * h ≤ l.planeOffsets 1
  /-- The second chroma plane of NV12, which it does not have, is at the start. -/
  offset_two : format ≠ .nv12 ∧ s * h ≤ l.planeOffsets 2 ∨ format = .nv12 ∧ l.planeOffsets 2 = 0

section LumaFirst

variable (out : VideoFrameLayout) {w h a : UInt32}

theorem stride_tight_iff {s : ℕ} (ha : a ≠ 0) (hw : 0 < w.toNat) (hy : Aligns a.toNat w.toNat)
    (heq : alignUp w a = s) (hdvd : a.toNat ∣ s) : s = w.toNat ↔ a.toNat ∣ w.toNat := by
  constructor
  · intro h
    exact h ▸ hdvd
  · intro hw'
    have hpos := toNat_pos_of_ne_zero ha
    have hup := eq_roundUp le_rfl (by omega) hw' hw
    rw [alignUp_eq ha hw (Nat.mod_eq_of_lt w.toNat_lt).symm hy, ← hup] at heq
    exact_mod_cast heq.symm

theorem planar_lumaFirst (hformat : out.format ≠ .nv12) (ha : a ≠ 0) (hw : 0 < w.toNat)
    (hfit : Aligns a.toNat w.toNat ∧ Aligns a.toNat ((w.toNat + 1) / 2) ∧ h.toNat + 1 < 2 ^ 32) :
    ∃ s, LumaFirst w.toNat h.toNat a.toNat out.format s (fillPlanarYuv420Layout out w h a) := by
  obtain ⟨s0, s1, hge0, -, hdvd0, -, hlt, heq⟩ := planar_layout out ha hw hfit.1 hfit.2.1 hfit.2.2
  have hstride : alignUp w a = s0 := congrArg (fun l : VideoFrameLayout => l.strides 0) heq
  have htight := stride_tight_iff ha hw hfit.1 hstride hdvd0
  rw [heq]
  refine ⟨s0, rfl, hge0, htight, ?_, hlt, le_rfl, .inl ⟨hformat, Nat.le_add_right _ _⟩⟩
  dsimp only
  omega

theorem nv12_lumaFirst (hformat : out.format = .nv12) (ha : a ≠ 0) (hw : 0 < w.toNat)
    (hfit : Aligns a.toNat w.toNat ∧ Aligns a.toNat ((w.toNat + 1) / 2 * 2)
      ∧ h.toNat + 1 < 2 ^ 32) :
    ∃ s, LumaFirst w.toNat h.toNat a.toNat out.format s (fillNv12Layout out w h a) := by
  obtain ⟨s0, s1, hge0, -, hdvd0, -, hlt, heq⟩ := nv12_layout out ha hw hfit.1 hfit.2.1 hfit.2.2
  have hstride : alignUp w a = s0 := congrArg (fun l : VideoFrameLayout => l.strides 0) heq
  have htight := stride_tight_iff ha hw hfit.1 hstride hdvd0
  rw [heq]
  exact ⟨s0, rfl, hge0, htight, Nat.le_add_right _ _, hlt, le_rfl, .inr ⟨hformat, rfl⟩⟩

end LumaFirst

section Bars

variable (cfg : SourceConfig) (strideAlign : UInt32)

/-- A format with its luma in a plane of its own. -/
def IsYuv420 : PixelFormat → Prop
  | .i420 | .yv12 | .nv12 => True
  | _ => False

theorem target_lumaFirst (hyuv : IsYuv420 cfg.format) (h : ¬NoPicture cfg)
    (hfit : Fits cfg strideAlign) :
    ∃ s, LumaFirst cfg.width.toNat cfg.height.toNat (max strideAlign.toNat 1) cfg.format s
      (targetLayout cfg strideAlign) := by
  unfold NoPicture at h
  simp only [not_or] at h
  obtain ⟨hwidth, hheight, -⟩ := h
  have hw := toNat_pos_of_ne_zero hwidth
  unfold Fits at hfit
  unfold targetLayout computeLayoutAligned
  obtain ⟨a, hdef, ha, hmax⟩ := exists_alignment strideAlign
  rw [if_neg (not_or.2 ⟨hwidth, hheight⟩)]
  simp only [hdef]
  rw [hmax] at hfit ⊢
  generalize hf : cfg.format = format at hfit hyuv
  cases format with
  | unknown | bgra | rgba | rgb24 => exact hyuv.elim
  | i420 => exact planar_lumaFirst { format := .i420 } (by decide) ha hw hfit
  | yv12 => exact planar_lumaFirst { format := .yv12 } (by decide) ha hw hfit
  | nv12 => exact nv12_lumaFirst { format := .nv12 } rfl ha hw hfit

variable {cfg}

theorem barsY_ne_zero (i : ℕ) : barsY cfg i ≠ 0 := by
  have hall : ∀ n : Fin 7, kY n ≠ 0 := by decide
  exact hall _

theorem barsY_ne_kV (n : Fin 7) : kV n ≠ barsY cfg 0 := by
  have hzero : bar cfg.width 0 = 0 := by
    unfold bar
    simp
  unfold barsY
  rw [hzero]
  revert n
  decide

variable {s : ℕ} {l : VideoFrameLayout}

/-- The chroma does not touch the luma, unless NV12 has both. -/
theorem barsUv_none {w h k : ℕ} (hw : w = cfg.width.toNat) (hh : h = cfg.height.toNat) {a : ℕ}
    (hl : LumaFirst w h a cfg.format s l) (hk : k < s * h)
    (hclear : cfg.format = .nv12 → w < 2 ∨ h < 2) :
    lastPut k (renderBarsUv cfg (l.planeOffsets 1) (l.planeOffsets 2)) = none := by
  refine lastPut_eq_none fun p hp heq => ?_
  have hone := hl.offset_one
  unfold renderBarsUv at hp
  dsimp only at hp
  rcases mem_halves hp with ⟨hge, -⟩ | ⟨hge, hlt⟩
  · omega
  · rcases hl.offset_two with ⟨-, htwo⟩ | ⟨hnv12, htwo⟩
    · omega
    · have hempty : (cfg.width / 2).toNat * (cfg.height / 2).toNat = 0 := by
        have hdiv : (2 : UInt32).toNat = 2 := rfl
        rw [UInt32.toNat_div, UInt32.toNat_div, hdiv, ← hw, ← hh, Nat.mul_eq_zero]
        have hsmall := hclear hnv12
        omega
      omega

/-- The first byte of an NV12 frame that has chroma is a chroma byte. -/
theorem barsUv_first {a : ℕ} (hl : LumaFirst cfg.width.toNat cfg.height.toNat a cfg.format s l)
    (hnv12 : cfg.format = .nv12) (hw : 2 ≤ cfg.width.toNat) (hh : 2 ≤ cfg.height.toNat) :
    ∃ n, lastPut 0 (renderBarsUv cfg (l.planeOffsets 1) (l.planeOffsets 2)) = some (kV n) := by
  have htwo : l.planeOffsets 2 = 0 := by
    rcases hl.offset_two with ⟨hne, -⟩ | ⟨-, htwo⟩
    · exact absurd hnv12 hne
    · exact htwo
  have hone : 0 < l.planeOffsets 1 := by
    have hwidth := hl.width_le
    exact (Nat.mul_pos (show 0 < s by omega) (show 0 < cfg.height.toNat by omega)).trans_le
      hl.offset_one
  have hdiv : (2 : UInt32).toNat = 2 := rfl
  have hfirst : ∃ p ∈ renderBarsUv cfg (l.planeOffsets 1) (l.planeOffsets 2), p.pos = 0 := by
    refine ⟨⟨l.planeOffsets 2 + index (cfg.width / 2) 0 0, kV (bar (cfg.width / 2) 0)⟩, ?_, ?_⟩
    · unfold renderBarsUv
      simp only [List.mem_flatMap, List.mem_range]
      refine ⟨0, ?_, 0, ?_, List.mem_cons_of_mem _ List.mem_cons_self⟩
      · rw [UInt32.toNat_div, hdiv]
        omega
      · rw [UInt32.toNat_div, hdiv]
        omega
    · rw [htwo, toNat_index]
      norm_num
  obtain ⟨p, hp, heq, hlast⟩ := exists_lastPut hfirst
  unfold renderBarsUv at hp
  simp only [List.mem_flatMap, List.mem_range] at hp
  obtain ⟨j, -, i, -, hp⟩ := hp
  rcases List.mem_cons.1 hp with rfl | hp
  · dsimp only at heq
    omega
  · rw [List.mem_singleton] at hp
    subst hp
    exact ⟨bar (cfg.width / 2) i, hlast⟩

/-- The chroma of the bars, where the layout has its chroma planes. -/
def chromaPuts (cfg : SourceConfig) (l : VideoFrameLayout) : List (Put UInt8) :=
  renderBarsUv cfg (l.planeOffsets 1) (l.planeOffsets 2)

/-- What a reader sees: a chroma byte that lies over the luma, else the luma, else zero. -/
theorem bars_pixel (hpattern : cfg.pattern = .colorBars) (hyuv : IsYuv420 cfg.format)
    (h : ¬NoPicture cfg) (hfit : Fits cfg strideAlign) :
    ∃ b info s, renderPattern cfg (newBuffer (targetLayout cfg strideAlign)) = .ok (b, info)
      ∧ LumaFirst cfg.width.toNat cfg.height.toNat (max strideAlign.toNat 1) cfg.format s
        (targetLayout cfg strideAlign)
      ∧ ∀ j < cfg.height.toNat, ∀ i < cfg.width.toNat, j * s + i < s * cfg.height.toNat
        ∧ b.storage[(b.layout.plane 0).pos j i]?
          = some (((lastPut (j * s + i) (chromaPuts cfg (targetLayout cfg strideAlign))).or
            (lastPut (0 + (j * s + i))
              (fill 0 cfg.width cfg.height (fun _ i => barsY cfg i)))).getD 0) := by
  obtain ⟨storage, hrender, hlength, hplace⟩ := renderPattern_new cfg strideAlign h hfit
  obtain ⟨s, hl⟩ := target_lumaFirst cfg strideAlign hyuv h hfit
  have hoffset := (target_roomy cfg strideAlign h hfit).offset_zero
  have hwidth := hl.width_le
  have hsize_le := hl.size_le
  have hsize_lt := hl.size_lt
  have hputs : targetPuts cfg strideAlign
      = fill 0 cfg.width cfg.height (fun _ i => barsY cfg i)
        ++ chromaPuts cfg (targetLayout cfg strideAlign) := by
    unfold targetPuts patternPuts renderBarsY chromaPuts
    simp only [hpattern, hoffset]
  refine ⟨_, _, s, hrender, hl, fun j hj i hi => ?_⟩
  have hin : j * s + i < s * cfg.height.toNat := by
    calc j * s + i < (j + 1) * s := by rw [Nat.succ_mul]; omega
      _ ≤ cfg.height.toNat * s := Nat.mul_le_mul_right _ hj
      _ = s * cfg.height.toNat := Nat.mul_comm _ _
  have hpos : ((targetLayout cfg strideAlign).plane 0).pos j i = j * s + i := by
    unfold VideoFrameLayout.plane Plane.pos
    rw [hoffset, hl.stride_eq, Nat.cast_zero, zero_add, ← Nat.cast_mul, ← Nat.cast_add,
      size_natCast (by omega)]
  refine ⟨hin, ?_⟩
  dsimp only
  rw [hpos, hplace _ (by omega), hputs, lastPut_append, Nat.zero_add]

/-- If the last pixel is written, the rows are tight. -/
theorem tight_of_last {w h s : ℕ} (hh : 0 < h) (hge : w ≤ s)
    (hlt : (h - 1) * s + (w - 1) < w * h) (hw : 0 < w) : s = w ∨ h = 1 := by
  obtain ⟨n, rfl⟩ : ∃ n, h = n + 1 := ⟨_, (Nat.succ_pred_eq_of_pos hh).symm⟩
  by_contra hgap
  have hmore : n * (w + 1) ≤ n * s := Nat.mul_le_mul_left _ (by omega)
  rw [Nat.mul_succ] at hmore
  rw [Nat.add_sub_cancel, Nat.mul_succ, Nat.mul_comm w] at hlt
  omega

/-- The color bars are seen exactly if the rows stand without a gap, or there is only one, every place
is a 32-bit number, and the second chroma plane does not lie over the luma. -/
theorem bars_shown_iff (cfg : SourceConfig) (strideAlign : UInt32)
    (hpattern : cfg.pattern = .colorBars) (hyuv : IsYuv420 cfg.format) (h : ¬NoPicture cfg)
    (hfit : Fits cfg strideAlign) :
    ∃ b info, renderPattern cfg (newBuffer (targetLayout cfg strideAlign)) = .ok (b, info)
      ∧ (ShowsBars cfg b ↔
        (max strideAlign.toNat 1 ∣ cfg.width.toNat ∨ cfg.height.toNat = 1)
          ∧ cfg.width.toNat * cfg.height.toNat ≤ 2 ^ 32
          ∧ (cfg.format = .nv12 → cfg.width.toNat < 2 ∨ cfg.height.toNat < 2)) := by
  obtain ⟨b, info, s, hrender, hl, hpixel⟩ := bars_pixel strideAlign hpattern hyuv h hfit
  unfold NoPicture at h
  simp only [not_or] at h
  have hw := toNat_pos_of_ne_zero h.1
  have hh := toNat_pos_of_ne_zero h.2.1
  refine ⟨b, info, hrender, ?_⟩
  constructor
  · intro hall
    have hclear : cfg.format = .nv12 → cfg.width.toNat < 2 ∨ cfg.height.toNat < 2 := by
      intro hnv12
      by_contra hbig
      obtain ⟨n, hn⟩ := barsUv_first hl hnv12 (by omega) (by omega)
      have hfirst := (hpixel 0 hh 0 hw).2.symm.trans (hall 0 hh 0 hw)
      rw [Nat.zero_mul, chromaPuts, hn, Option.some_or] at hfirst
      exact barsY_ne_kV n (Option.some.inj hfirst)
    have hj : cfg.height.toNat - 1 < cfg.height.toNat := by omega
    have hi : cfg.width.toNat - 1 < cfg.width.toNat := by omega
    obtain ⟨hin, heq⟩ := hpixel _ hj _ hi
    have hlast := heq.symm.trans (hall _ hj _ hi)
    rw [chromaPuts, barsUv_none rfl rfl hl hin hclear, Option.none_or] at hlast
    have hwritten : ¬(cfg.width.toNat * cfg.height.toNat
          ≤ (cfg.height.toNat - 1) * s + (cfg.width.toNat - 1)
        ∨ 2 ^ 32 ≤ (cfg.height.toNat - 1) * s + (cfg.width.toNat - 1)) := fun hbehind => by
      rw [lastPut_fill_none hbehind] at hlast
      exact barsY_ne_zero _ (Option.some.inj hlast).symm
    have htight := tight_of_last hh hl.width_le (by omega) hw
    refine ⟨?_, ?_, hclear⟩
    · rwa [← hl.tight_iff]
    · have hrows := Nat.mul_le_mul_left (cfg.height.toNat - 1) hl.width_le
      have hall' : cfg.width.toNat * cfg.height.toNat
          = (cfg.height.toNat - 1) * cfg.width.toNat + cfg.width.toNat := by
        rw [← Nat.succ_mul, Nat.succ_eq_add_one, Nat.sub_add_cancel hh, Nat.mul_comm]
      omega
  · rintro ⟨htight, hsmall, hclear⟩ j hj i hi
    obtain ⟨hin, heq⟩ := hpixel j hj i hi
    have hplace : j * s + i = j * cfg.width.toNat + i := by
      rcases htight with hdvd | hone
      · rw [hl.tight_iff.2 hdvd]
      · rw [show j = 0 by omega, Nat.zero_mul, Nat.zero_mul]
    rw [heq, chromaPuts, barsUv_none rfl rfl hl hin hclear, Option.none_or, hplace,
      lastPut_fill hsmall hj hi]
    rfl

/-- Rows of eight pixels stand sixteen bytes apart. -/
theorem bars_shown_iff_eight : ∃ b info,
    renderPattern { width := 8, height := 2 } (newBuffer (targetLayout { width := 8, height := 2 } 16))
        = .ok (b, info)
      ∧ ¬ShowsBars { width := 8, height := 2 } b := by
  obtain ⟨b, info, hrender, hiff⟩ := bars_shown_iff { width := 8, height := 2 } 16 rfl
    trivial (by decide) (by decide)
  exact ⟨b, info, hrender, fun hshows => absurd (hiff.1 hshows) (by decide)⟩

end Bars

end VideoSource

end NimRtc
