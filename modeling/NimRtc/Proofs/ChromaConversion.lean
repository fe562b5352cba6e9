import NimRtc.Proofs.FrameLayouts

/-!
# Chroma conversion

A picture is its samples, and a frame gives each of them a place. The conversions copy sample by sample,
so there and back is the identity if no two samples share a place. `nv12_to_i420` copies the samples of
a smaller picture if a dimension is odd.
-/

namespace NimRtc

namespace VideoFrame

/-! ### Samples and their places -/

/-- A sample: its row and its column. -/
inductive Sample
  | y (j i : ℕ)
  | u (j i : ℕ)
  | v (j i : ℕ)

def Sample.Visible (w h cw ch : ℕ) : Sample → Prop
  | .y j i => j < h ∧ i < w
  | .u j i | .v j i => j < ch ∧ i < cw

/-- The samples in the order in which the conversions copy them. -/
def samples (w h cw ch : ℕ) : List Sample :=
  ((List.range h).flatMap fun j => (List.range w).map fun i => .y j i)
    ++ (List.range ch).flatMap fun j => (List.range cw).flatMap fun i => [.u j i, .v j i]

def nv12Place (y uv : ℕ → ℕ → ℕ) : Sample → ℕ
  | .y j i => y j i
  | .u j i => uv j (i * 2)
  | .v j i => uv j (i * 2 + 1)

def i420Place (y u v : ℕ → ℕ → ℕ) : Sample → ℕ
  | .y j i => y j i
  | .u j i => u j i
  | .v j i => v j i

/-- Each sample has a place of its own in the buffer. -/
structure Placed (place : Sample → ℕ) (ts : List Sample) (bytes : ℕ) : Prop where
  lt : ∀ t ∈ ts, place t < bytes
  inj : ∀ t ∈ ts, ∀ t' ∈ ts, place t = place t' → t = t'

section Places

variable {w h cw ch bytes : ℕ}

theorem mem_samples {t : Sample} : t ∈ samples w h cw ch ↔ t.Visible w h cw ch := by
  cases t <;> simp [samples, Sample.Visible]

theorem Placed.congr {place place' : Sample → ℕ} {ts : List Sample} (h : Placed place ts bytes)
    (heq : ∀ t ∈ ts, place' t = place t) : Placed place' ts bytes where
  lt t ht := by
    rw [heq t ht]
    exact h.lt t ht
  inj t ht t' ht' hsame := by
    rw [heq t ht, heq t' ht'] at hsame
    exact h.inj t ht t' ht' hsame

theorem Plane.pos_eq {r : Raster} {j i : ℕ} (h : r.pos j i < 2 ^ 64) :
    Plane.pos ⟨r.offset, r.stride⟩ j i = r.pos j i := by
  rw [Plane.pos, ← Nat.cast_mul, ← Nat.cast_add, ← Nat.cast_add]
  exact size_natCast h

theorem placed_nv12 {o0 s0 o1 s1 : ℕ} (h0 : w ≤ s0) (h1 : cw * 2 ≤ s1) (hy : o0 + s0 * h ≤ o1)
    (huv : o1 + s1 * ch ≤ bytes) :
    Placed (nv12Place (Raster.pos ⟨o0, s0, w, h⟩) (Raster.pos ⟨o1, s1, cw * 2, ch⟩))
      (samples w h cw ch) bytes := by
  set y : Raster := ⟨o0, s0, w, h⟩
  set uv : Raster := ⟨o1, s1, cw * 2, ch⟩
  have hstop : y.stop ≤ uv.offset := hy
  refine ⟨fun t ht => ?_, fun t ht t' ht' hsame => ?_⟩
  · rw [mem_samples] at ht
    cases t with
    | y j i => exact (Raster.pos_lt_stop h0 ht.1 ht.2).trans_le (hstop.trans (show o1 ≤ bytes by omega))
    | u j i =>
      exact (Raster.pos_lt_stop h1 ht.1 (show i * 2 < cw * 2 by have := ht.2; omega)).trans_le huv
    | v j i =>
      exact (Raster.pos_lt_stop h1 ht.1 (show i * 2 + 1 < cw * 2 by have := ht.2; omega)).trans_le huv
  · rw [mem_samples] at ht ht'
    cases t with
    | y j i =>
      cases t' with
      | y j' i' =>
        obtain ⟨rfl, rfl⟩ := Raster.pos_inj h0 ht.2 ht'.2 hsame
        rfl
      | u j' i' | v j' i' => exact absurd hsame (Raster.pos_ne_pos h0 ht.1 ht.2 hstop)
    | u j i =>
      have hi := ht.2
      cases t' with
      | y j' i' => exact absurd hsame.symm (Raster.pos_ne_pos h0 ht'.1 ht'.2 hstop)
      | u j' i' =>
        have hi' := ht'.2
        obtain ⟨rfl, hii⟩ := Raster.pos_inj h1 (show i * 2 < cw * 2 by omega)
          (show i' * 2 < cw * 2 by omega) hsame
        rw [Nat.mul_right_cancel two_pos hii]
      | v j' i' =>
        have hi' := ht'.2
        have hii := (Raster.pos_inj h1 (show i * 2 < cw * 2 by omega)
          (show i' * 2 + 1 < cw * 2 by omega) hsame).2
        omega
    | v j i =>
      have hi := ht.2
      cases t' with
      | y j' i' => exact absurd hsame.symm (Raster.pos_ne_pos h0 ht'.1 ht'.2 hstop)
      | u j' i' =>
        have hi' := ht'.2
        have hii := (Raster.pos_inj h1 (show i * 2 + 1 < cw * 2 by omega)
          (show i' * 2 < cw * 2 by omega) hsame).2
        omega
      | v j' i' =>
        have hi' := ht'.2
        obtain ⟨rfl, hii⟩ := Raster.pos_inj h1 (show i * 2 + 1 < cw * 2 by omega)
          (show i' * 2 + 1 < cw * 2 by omega) hsame
        rw [show i = i' by omega]

theorem placed_i420 {o0 s0 o1 s1 o2 s2 : ℕ} (h0 : w ≤ s0) (h1 : cw ≤ s1) (h2 : cw ≤ s2)
    (hy : o0 + s0 * h ≤ o1) (hu : o1 + s1 * ch ≤ o2) (hv : o2 + s2 * ch ≤ bytes) :
    Placed (i420Place (Raster.pos ⟨o0, s0, w, h⟩) (Raster.pos ⟨o1, s1, cw, ch⟩)
      (Raster.pos ⟨o2, s2, cw, ch⟩)) (samples w h cw ch) bytes := by
  set y : Raster := ⟨o0, s0, w, h⟩
  set u : Raster := ⟨o1, s1, cw, ch⟩
  set v : Raster := ⟨o2, s2, cw, ch⟩
  have hyu : y.stop ≤ u.offset := hy
  have huv : u.stop ≤ v.offset := hu
  have hyv : y.stop ≤ v.offset := hyu.trans (show o1 ≤ o2 by omega)
  refine ⟨fun t ht => ?_, fun t ht t' ht' hsame => ?_⟩
  · rw [mem_samples] at ht
    cases t with
    | y j i => exact (Raster.pos_lt_stop h0 ht.1 ht.2).trans_le (hyv.trans (show o2 ≤ bytes by omega))
    | u j i => exact (Raster.pos_lt_stop h1 ht.1 ht.2).trans_le (huv.trans (show o2 ≤ bytes by omega))
    | v j i => exact (Raster.pos_lt_stop h2 ht.1 ht.2).trans_le hv
  · rw [mem_samples] at ht ht'
    cases t with
    | y j i =>
      cases t' with
      | y j' i' =>
        obtain ⟨rfl, rfl⟩ := Raster.pos_inj h0 ht.2 ht'.2 hsame
        rfl
      | u j' i' => exact absurd hsame (Raster.pos_ne_pos h0 ht.1 ht.2 hyu)
      | v j' i' => exact absurd hsame (Raster.pos_ne_pos h0 ht.1 ht.2 hyv)
    | u j i =>
      cases t' with
      | y j' i' => exact absurd hsame.symm (Raster.pos_ne_pos h0 ht'.1 ht'.2 hyu)
      | u j' i' =>
        obtain ⟨rfl, rfl⟩ := Raster.pos_inj h1 ht.2 ht'.2 hsame
        rfl
      | v j' i' => exact absurd hsame (Raster.pos_ne_pos h1 ht.1 ht.2 huv)
    | v j i =>
      cases t' with
      | y j' i' => exact absurd hsame.symm (Raster.pos_ne_pos h0 ht'.1 ht'.2 hyv)
      | u j' i' => exact absurd hsame.symm (Raster.pos_ne_pos h1 ht'.1 ht'.2 huv)
      | v j' i' =>
        obtain ⟨rfl, rfl⟩ := Raster.pos_inj h2 ht.2 ht'.2 hsame
        rfl

/-- The places that the pointers of a plane lead to. -/
theorem nv12Place_planes {y uv : Raster} {t : Sample} (h : nv12Place y.pos uv.pos t < 2 ^ 64) :
    nv12Place (Plane.pos ⟨y.offset, y.stride⟩) (Plane.pos ⟨uv.offset, uv.stride⟩) t
      = nv12Place y.pos uv.pos t := by
  cases t <;> exact Plane.pos_eq h

theorem i420Place_planes {y u v : Raster} {t : Sample} (h : i420Place y.pos u.pos v.pos t < 2 ^ 64) :
    i420Place (Plane.pos ⟨y.offset, y.stride⟩) (Plane.pos ⟨u.offset, u.stride⟩)
        (Plane.pos ⟨v.offset, v.stride⟩) t
      = i420Place y.pos u.pos v.pos t := by
  cases t <;> exact Plane.pos_eq h

end Places

/-! ### The conversions -/

section Convert

variable {width height : UInt32} {frame out : List UInt8} {y uv yOut uOut vOut : Plane}

/-- The samples that the conversions copy. -/
def copied (width height : UInt32) : List Sample :=
  samples width.toNat height.toNat ((width + 1) / 2).toNat ((height + 1) / 2).toNat

theorem convertNv12ToI420_eq (h : ¬ (width = 0 ∨ height = 0)) :
    convertNv12ToI420 width height frame y uv out yOut uOut vOut
      = Checked.copyAll .read .write frame ((copied width height).map fun t =>
          ⟨nv12Place y.pos uv.pos t, i420Place yOut.pos uOut.pos vOut.pos t⟩) out := by
  rw [convertNv12ToI420, if_neg h]
  simp only [copied, samples, yMoves, List.map_append, List.map_flatMap, List.map_map, List.map_cons,
    List.map_nil]
  rfl

theorem convertI420ToNv12_eq (h : ¬ (width = 0 ∨ height = 0)) :
    convertI420ToNv12 width height frame yOut uOut vOut out y uv
      = Checked.copyAll .read .write frame ((copied width height).map fun t =>
          ⟨i420Place yOut.pos uOut.pos vOut.pos t, nv12Place y.pos uv.pos t⟩) out := by
  rw [convertI420ToNv12, if_neg h]
  simp only [copied, samples, yMoves, List.map_append, List.map_flatMap, List.map_map, List.map_cons,
    List.map_nil]
  rfl

end Convert

/-! ### There and back -/

section RoundTrip

variable {w h : UInt32}

theorem copied_eq (hw : w.toNat + 1 < 2 ^ 32) (hh : h.toNat + 1 < 2 ^ 32) :
    copied w h = samples w.toNat h.toNat ((w.toNat + 1) / 2) ((h.toNat + 1) / 2) := by
  rw [copied, toNat_half, toNat_half, if_pos hw, if_pos hh]

theorem roundTrips_of_placed {nv12 i420 : VideoFrameLayout} (hempty : ¬ (w = 0 ∨ h = 0))
    (hcopied : copied w h = samples w.toNat h.toNat ((w.toNat + 1) / 2) ((h.toNat + 1) / 2))
    (hhere : Placed (nv12Place (nv12.plane 0).pos (nv12.plane 1).pos) (copied w h) nv12.bufferSize)
    (hthere : Placed (i420Place (i420.plane 0).pos (i420.plane 1).pos (i420.plane 2).pos)
      (copied w h) i420.bufferSize) :
    RoundTrips w h nv12 i420 := by
  intro frame mid out hframe hmid hout
  obtain ⟨mid', out', hforth, hback, hsame⟩ := Checked.copyAll_back Access.read
    Access.write (hframe ▸ hhere.lt) (hmid ▸ hthere.lt) (hout ▸ hhere.lt) hhere.inj hthere.inj
  refine ⟨mid', out', by rw [convertNv12ToI420_eq hempty, hforth],
    by rw [convertI420ToNv12_eq hempty, hback], ?_⟩
  have hvisible : ∀ t ∈ copied w h, ∃ b,
      frame[nv12Place (nv12.plane 0).pos (nv12.plane 1).pos t]? = some b
        ∧ out'[nv12Place (nv12.plane 0).pos (nv12.plane 1).pos t]? = some b := fun t ht => by
    have hb := List.getElem?_eq_getElem (hframe ▸ hhere.lt t ht)
    exact ⟨_, hb, (hsame t ht).trans hb⟩
  intro n j hj i hi
  fin_cases n
  · exact hvisible (.y j i) (by rw [hcopied, mem_samples]; exact ⟨hj, hi⟩)
  · have hi' : i < (w.toNat + 1) / 2 * 2 := hi
    rcases Nat.even_or_odd' i with ⟨k, rfl | rfl⟩
    · rw [Nat.mul_comm 2 k]
      exact hvisible (.u j k) (by rw [hcopied, mem_samples]; exact ⟨hj, by omega⟩)
    · rw [Nat.mul_comm 2 k]
      exact hvisible (.v j k) (by rw [hcopied, mem_samples]; exact ⟨hj, by omega⟩)
  · exact absurd hj (Nat.not_lt_zero j)

theorem layout_placed_nv12 {strideAlign : UInt32} (hempty : ¬ (w = 0 ∨ h = 0))
    (hfits : LayoutFits w.toNat h.toNat (max strideAlign.toNat 1) .nv12) :
    w.toNat < 2 ^ 31
      ∧ Placed (nv12Place ((computeLayoutAligned .nv12 w h strideAlign).plane 0).pos
          ((computeLayoutAligned .nv12 w h strideAlign).plane 1).pos)
        (samples w.toNat h.toNat ((w.toNat + 1) / 2) ((h.toNat + 1) / 2))
        (computeLayoutAligned .nv12 w h strideAlign).bufferSize := by
  obtain ⟨a, hdef, ha, hmax⟩ := exists_alignment strideAlign
  rw [hmax] at hfits
  obtain ⟨hy, hc, hh⟩ := hfits
  have hw := toNat_pos_of_ne_zero fun hzero => hempty (.inl hzero)
  obtain ⟨s0, s1, hge0, hge1, -, -, hlt, heq⟩ := nv12_layout { format := .nv12 } ha hw hy hc hh
  refine ⟨width_lt ha hw hy, ?_⟩
  rw [computeLayoutAligned, if_neg hempty]
  simp only [hdef, heq]
  have hplaced := placed_nv12 hge0 hge1 (Nat.zero_add (s0 * h.toNat)).le
    (le_refl (s0 * h.toNat + s1 * ((h.toNat + 1) / 2)))
  exact hplaced.congr fun t ht => nv12Place_planes ((hplaced.lt t ht).trans hlt)

theorem layout_placed_i420 {strideAlign : UInt32} (hempty : ¬ (w = 0 ∨ h = 0))
    (hfits : LayoutFits w.toNat h.toNat (max strideAlign.toNat 1) .i420) :
    Placed (i420Place ((computeLayoutAligned .i420 w h strideAlign).plane 0).pos
        ((computeLayoutAligned .i420 w h strideAlign).plane 1).pos
        ((computeLayoutAligned .i420 w h strideAlign).plane 2).pos)
      (samples w.toNat h.toNat ((w.toNat + 1) / 2) ((h.toNat + 1) / 2))
      (computeLayoutAligned .i420 w h strideAlign).bufferSize := by
  obtain ⟨a, hdef, ha, hmax⟩ := exists_alignment strideAlign
  rw [hmax] at hfits
  obtain ⟨hy, hc, hh⟩ := hfits
  have hw := toNat_pos_of_ne_zero fun hzero => hempty (.inl hzero)
  obtain ⟨s0, s1, hge0, hge1, -, -, hlt, heq⟩ :=
    planar_layout { format := .i420 } ha hw hy hc hh
  rw [computeLayoutAligned, if_neg hempty]
  simp only [hdef, heq]
  have hplaced := placed_i420 hge0 hge1 hge1 (Nat.zero_add (s0 * h.toNat)).le
    (le_refl (s0 * h.toNat + s1 * ((h.toNat + 1) / 2))) le_rfl
  exact hplaced.congr fun t ht => i420Place_planes ((hplaced.lt t ht).trans hlt)

theorem roundTrips_of_empty {nv12 i420 : VideoFrameLayout} (hempty : w = 0 ∨ h = 0) :
    RoundTrips w h nv12 i420 := by
  intro frame mid out hframe hmid hout
  refine ⟨mid, out, if_pos hempty, if_pos hempty, fun n j hj i hi => ?_⟩
  rcases hempty with rfl | rfl <;> fin_cases n <;> simp [rowBytes, planeHeight] at hi hj

theorem roundTrips_of_fits {strideAlign strideAlign' : UInt32}
    (hfits : w = 0 ∨ h = 0 ∨ LayoutFits w.toNat h.toNat (max strideAlign.toNat 1) .nv12)
    (hfits' : w = 0 ∨ h = 0 ∨ LayoutFits w.toNat h.toNat (max strideAlign'.toNat 1) .i420) :
    RoundTrips w h (computeLayoutAligned .nv12 w h strideAlign)
      (computeLayoutAligned .i420 w h strideAlign') := by
  by_cases hempty : w = 0 ∨ h = 0
  · exact roundTrips_of_empty hempty
  · have hempty' := hempty
    rw [not_or] at hempty
    simp only [hempty.1, hempty.2, false_or] at hfits hfits'
    obtain ⟨hwlt, hhere⟩ := layout_placed_nv12 hempty' hfits
    have hcopied := copied_eq (w := w) (by omega) hfits.2.2
    refine roundTrips_of_placed hempty' hcopied ?_ ?_
    · rw [hcopied]
      exact hhere
    · rw [hcopied]
      exact layout_placed_i420 hempty' hfits'

end RoundTrip

/-! ### The other conversion -/

section Tight

variable {w h cw ch uvStride : ℕ}

/-- The moves for a part of the chroma samples of a frame without padding. -/
def tightMoves (w h cw ch uvStride : ℕ) : List Move :=
  (samples w h cw ch).map fun t =>
    ⟨nv12Place (Raster.pos ⟨0, w, w, h⟩) (Raster.pos ⟨w * h, uvStride, cw * 2, ch⟩) t,
      i420Place (Raster.pos ⟨0, w, w, h⟩) (Raster.pos ⟨w * h, cw, cw, ch⟩)
        (Raster.pos ⟨w * h + (w + 1) / 2 * ((h + 1) / 2), cw, cw, ch⟩) t⟩

theorem tight_nv12 (hcw : cw * 2 ≤ uvStride) (hch : uvStride * ch ≤ (w + 1) / 2 * ((h + 1) / 2) * 2) :
    Placed (nv12Place (Raster.pos ⟨0, w, w, h⟩) (Raster.pos ⟨w * h, uvStride, cw * 2, ch⟩))
      (samples w h cw ch) (tightSize w h) :=
  placed_nv12 le_rfl hcw (Nat.zero_add _).le (Nat.add_le_add_left hch _)

theorem tight_i420 (hch : cw * ch ≤ (w + 1) / 2 * ((h + 1) / 2)) :
    Placed (i420Place (Raster.pos ⟨0, w, w, h⟩) (Raster.pos ⟨w * h, cw, cw, ch⟩)
      (Raster.pos ⟨w * h + (w + 1) / 2 * ((h + 1) / 2), cw, cw, ch⟩)) (samples w h cw ch)
      (tightSize w h) := by
  refine placed_i420 le_rfl le_rfl le_rfl (Nat.zero_add _).le (Nat.add_le_add_left hch _) ?_
  rw [tightSize]
  omega

/-- The part of the chroma samples fits into the frames. -/
structure Part (w h cw ch uvStride : ℕ) : Prop where
  width_le : cw * 2 ≤ uvStride
  uv_le : uvStride * ch ≤ (w + 1) / 2 * ((h + 1) / 2) * 2
  chroma_le : cw * ch ≤ (w + 1) / 2 * ((h + 1) / 2)

theorem part_rounded_down : Part w h (w / 2) (h / 2) w where
  width_le := Nat.div_mul_le_self w 2
  uv_le := by
    calc w * (h / 2) ≤ (w + 1) / 2 * 2 * ((h + 1) / 2) := Nat.mul_le_mul (by omega) (by omega)
      _ = (w + 1) / 2 * ((h + 1) / 2) * 2 := Nat.mul_right_comm _ _ _
  chroma_le := Nat.mul_le_mul (by omega) (by omega)

theorem part_rounded_up (hch : ch ≤ (h + 1) / 2) : Part w h ((w + 1) / 2) ch ((w + 1) / 2 * 2) where
  width_le := le_rfl
  uv_le := by
    calc (w + 1) / 2 * 2 * ch ≤ (w + 1) / 2 * 2 * ((h + 1) / 2) := Nat.mul_le_mul_left _ hch
      _ = (w + 1) / 2 * ((h + 1) / 2) * 2 := Nat.mul_right_comm _ _ _
  chroma_le := Nat.mul_le_mul_left _ hch

theorem mem_tightMoves_lt (hpart : Part w h cw ch uvStride) {m : Move}
    (hm : m ∈ tightMoves w h cw ch uvStride) : m.src < tightSize w h ∧ m.dst < tightSize w h := by
  obtain ⟨t, ht, rfl⟩ := List.mem_map.1 hm
  exact ⟨(tight_nv12 hpart.width_le hpart.uv_le).lt t ht, (tight_i420 hpart.chroma_le).lt t ht⟩

theorem tightMoves_copied {frame out : List UInt8} (hpart : Part w h cw ch uvStride)
    (hframe : frame.length = tightSize w h) (hout : out.length = tightSize w h) :
    ∃ out', Checked.copyAll Access.read .write frame (tightMoves w h cw ch uvStride) out = .ok out'
      ∧ Checked.Copied frame (tightMoves w h cw ch uvStride) out out' := by
  refine Checked.copyAll_spec _ _ _ _ _ (fun m hm => ?_) (fun m hm => ?_) fun m hm m' hm' heq => ?_
  · rw [hframe]
    exact (mem_tightMoves_lt hpart hm).1
  · rw [hout]
    exact (mem_tightMoves_lt hpart hm).2
  · obtain ⟨t, ht, rfl⟩ := List.mem_map.1 hm
    obtain ⟨t', ht', rfl⟩ := List.mem_map.1 hm'
    rw [(tight_i420 hpart.chroma_le).inj t ht t' ht' heq]

/-- The V samples that are not copied leave a gap behind the U samples that are. -/
theorem dst_tightMoves {m : Move} (hm : m ∈ tightMoves w h cw ch uvStride) :
    m.dst < w * h + cw * ch ∨ w * h + (w + 1) / 2 * ((h + 1) / 2) ≤ m.dst := by
  obtain ⟨t, ht, rfl⟩ := List.mem_map.1 hm
  rw [mem_samples] at ht
  cases t with
  | y j i =>
    have hlt := Raster.pos_lt_stop (r := ⟨0, w, w, h⟩) le_rfl ht.1 ht.2
    rw [Raster.stop, Nat.zero_add] at hlt
    exact .inl (hlt.trans_le (Nat.le_add_right _ _))
  | u j i => exact .inl (Raster.pos_lt_stop (r := ⟨w * h, cw, cw, ch⟩) le_rfl ht.1 ht.2)
  | v j i =>
    exact .inr (Raster.offset_le_pos ⟨w * h + (w + 1) / 2 * ((h + 1) / 2), cw, cw, ch⟩ j i)

theorem nv12ToI420_eq {w h : UInt32} {frame out : List UInt8} :
    nv12ToI420 frame w h out 0 (w.toNat * h.toNat)
        (w.toNat * h.toNat + (w.toNat + 1) / 2 * ((h.toNat + 1) / 2))
      = Checked.copyAll .read .write frame
        (tightMoves w.toNat h.toNat (w.toNat / 2) (h.toNat / 2) w.toNat) out := by
  have hy : (List.range (w.toNat * h.toNat)).map (fun k => Move.mk k (0 + k))
      = (List.range h.toNat).flatMap fun j => (List.range w.toNat).map fun i =>
        ⟨0 + j * w.toNat + i, 0 + j * w.toNat + i⟩ := by
    rw [Raster.range_mul, List.map_flatMap]
    simp only [List.map_map, Nat.zero_add]
    rfl
  rw [nv12ToI420, hy]
  simp only [tightMoves, samples, List.map_append, List.map_flatMap, List.map_map, List.map_cons,
    List.map_nil, ← Nat.add_assoc]
  rfl

/-- Without chroma samples, only the Y plane is copied. -/
theorem tightMoves_luma (h : cw = 0 ∨ ch = 0) (n : ℕ) :
    tightMoves w n cw ch uvStride = (List.range n).flatMap fun j => (List.range w).map fun i =>
      ⟨Raster.pos ⟨0, w, w, n⟩ j i, Raster.pos ⟨0, w, w, n⟩ j i⟩ := by
  have hchroma : ((List.range ch).flatMap fun j => (List.range cw).flatMap fun i =>
      [Sample.u j i, .v j i]) = [] := by
    rcases h with rfl | rfl <;> simp
  rw [tightMoves, samples, hchroma, List.append_nil, List.map_flatMap]
  simp only [List.map_map]
  rfl

/-- Moves that copy to a place and moves that do not are told apart by a frame of ones. -/
theorem copyAll_ne {cw' ch' uvStride' : ℕ} (hpart : Part w h cw ch uvStride)
    (hpart' : Part w h cw' ch' uvStride') {m : Move} (hm : m ∈ tightMoves w h cw ch uvStride)
    (hnot : ∀ m' ∈ tightMoves w h cw' ch' uvStride', m'.dst ≠ m.dst) :
    Checked.copyAll Access.read .write (List.replicate (tightSize w h) (1 : UInt8))
        (tightMoves w h cw ch uvStride) (List.replicate (tightSize w h) 0)
      ≠ Checked.copyAll .read .write (List.replicate (tightSize w h) 1)
        (tightMoves w h cw' ch' uvStride') (List.replicate (tightSize w h) 0) := by
  have hlen : ∀ b : UInt8, (List.replicate (tightSize w h) b).length = tightSize w h := fun b =>
    List.length_replicate
  obtain ⟨out, hout, hcopied⟩ := tightMoves_copied hpart (hlen 1) (hlen 0)
  obtain ⟨out', hout', hcopied'⟩ := tightMoves_copied hpart' (hlen 1) (hlen 0)
  rw [hout, hout']
  intro heq
  obtain rfl := Except.ok.inj heq
  have hone := hcopied.moved m hm
  obtain ⟨hsrc, hdst⟩ := mem_tightMoves_lt hpart hm
  rw [hcopied'.kept m.dst hnot, List.getElem?_replicate, List.getElem?_replicate, if_pos hsrc,
    if_pos hdst] at hone
  exact absurd hone (by decide)

/-- With an odd dimension, the halves rounded down hold fewer samples. -/
theorem halves_lt (hw : 0 < w) (hh : 0 < h) (hodd : ¬ (w % 2 = 0 ∧ h % 2 = 0)) :
    w / 2 * (h / 2) < (w + 1) / 2 * ((h + 1) / 2) := by
  by_cases hwodd : w % 2 = 0
  · have hlt : h / 2 < (h + 1) / 2 := by omega
    calc w / 2 * (h / 2) ≤ (w + 1) / 2 * (h / 2) := Nat.mul_le_mul_right _ (by omega)
      _ < (w + 1) / 2 * ((h + 1) / 2) := Nat.mul_lt_mul_of_pos_left hlt (by omega)
  · have hlt : w / 2 < (w + 1) / 2 := by omega
    calc w / 2 * (h / 2) ≤ w / 2 * ((h + 1) / 2) := Nat.mul_le_mul_left _ (by omega)
      _ < (w + 1) / 2 * ((h + 1) / 2) := Nat.mul_lt_mul_of_pos_right hlt (by omega)

theorem tightSize_lt (hw : w < 2 ^ 31) (hh : h < 2 ^ 32) : tightSize w h < 2 ^ 64 := by
  have hy : w * h ≤ (2 ^ 31 - 1) * (2 ^ 32 - 1) := Nat.mul_le_mul (by omega) (by omega)
  have hc : (w + 1) / 2 * ((h + 1) / 2) ≤ 2 ^ 30 * 2 ^ 31 := Nat.mul_le_mul (by omega) (by omega)
  rw [tightSize]
  omega

end Tight

section Agree

variable {w h : UInt32} {frame out : List UInt8}

theorem toNat_half_le (n : UInt32) : ((n + 1) / 2).toNat ≤ (n.toNat + 1) / 2 := by
  rw [toNat_half]
  split_ifs <;> omega

theorem convert_tight (hempty : ¬ (w = 0 ∨ h = 0)) (hw : w.toNat < 2 ^ 31) :
    convertNv12ToI420 w h frame (tightNv12 w.toNat h.toNat).1 (tightNv12 w.toNat h.toNat).2 out
        (tightI420 w.toNat h.toNat).1 (tightI420 w.toNat h.toNat).2.1 (tightI420 w.toNat h.toNat).2.2
      = Checked.copyAll .read .write frame (tightMoves w.toNat h.toNat ((w.toNat + 1) / 2)
        ((h + 1) / 2).toNat ((w.toNat + 1) / 2 * 2)) out := by
  have hhalfW : ((w + 1) / 2).toNat = (w.toNat + 1) / 2 := by rw [toNat_half, if_pos (by omega)]
  have hbytes := tightSize_lt hw h.toNat_lt
  have hpart := part_rounded_up (w := w.toNat) (toNat_half_le h)
  have hhere := tight_nv12 hpart.width_le hpart.uv_le
  have hthere := tight_i420 hpart.chroma_le
  rw [convertNv12ToI420_eq hempty, tightMoves, copied, hhalfW]
  congr 1
  refine List.map_congr_left fun t ht => ?_
  rw [← nv12Place_planes ((hhere.lt t ht).trans hbytes),
    ← i420Place_planes ((hthere.lt t ht).trans hbytes)]
  rfl

theorem agree_iff_copyAll (hempty : ¬ (w = 0 ∨ h = 0)) (hw : w.toNat < 2 ^ 31) :
    ConversionsAgree w h ↔ ∀ frame out : List UInt8, frame.length = tightSize w.toNat h.toNat →
      out.length = tightSize w.toNat h.toNat →
        Checked.copyAll Access.read .write frame
            (tightMoves w.toNat h.toNat (w.toNat / 2) (h.toNat / 2) w.toNat) out
          = Checked.copyAll .read .write frame (tightMoves w.toNat h.toNat ((w.toNat + 1) / 2)
            ((h + 1) / 2).toNat ((w.toNat + 1) / 2 * 2)) out := by
  refine forall₄_congr fun frame out _ _ => ?_
  rw [convert_tight hempty hw]
  exact Eq.congr_left nv12ToI420_eq

theorem agree_of_even (hempty : ¬ (w = 0 ∨ h = 0)) (hw : w.toNat < 2 ^ 31)
    (hweven : w.toNat % 2 = 0) (hheven : h.toNat % 2 = 0) : ConversionsAgree w h := by
  have hlt := h.toNat_lt
  have hhalfH : ((h + 1) / 2).toNat = h.toNat / 2 := by
    rw [toNat_half, if_pos (by omega)]
    omega
  rw [agree_iff_copyAll hempty hw, hhalfH, show (w.toNat + 1) / 2 = w.toNat / 2 by omega,
    show w.toNat / 2 * 2 = w.toNat by omega]
  exact fun _ _ _ _ => rfl

/-- One column of the greatest height: no chroma sample is copied by either. -/
theorem agree_of_column (hmax : h.toNat + 1 = 2 ^ 32) : ConversionsAgree 1 h := by
  have hhalfH : ((h + 1) / 2).toNat = 0 := by rw [toNat_half, if_neg (by omega)]
  have hh : h ≠ 0 := by
    rintro rfl
    exact absurd hmax (by decide)
  rw [agree_iff_copyAll (not_or.2 ⟨by decide, hh⟩) (by decide), hhalfH]
  intro frame out _ _
  rw [tightMoves_luma (.inl (show UInt32.toNat 1 / 2 = 0 from rfl)), tightMoves_luma (.inr rfl)]

theorem not_agree_of_odd (hempty : ¬ (w = 0 ∨ h = 0)) (hw : w.toNat < 2 ^ 31)
    (hh : h.toNat + 1 < 2 ^ 32) (hodd : ¬ (w.toNat % 2 = 0 ∧ h.toNat % 2 = 0)) :
    ¬ ConversionsAgree w h := by
  have hw0 : 0 < w.toNat := toNat_pos_of_ne_zero fun hzero => hempty (.inl hzero)
  have hh0 : 0 < h.toNat := toNat_pos_of_ne_zero fun hzero => hempty (.inr hzero)
  have hhalfH : ((h + 1) / 2).toNat = (h.toNat + 1) / 2 := by rw [toNat_half, if_pos hh]
  -- the last U sample is one that the halves rounded down leave out
  have hlast : Sample.u ((h.toNat + 1) / 2 - 1) ((w.toNat + 1) / 2 - 1)
      ∈ samples w.toNat h.toNat ((w.toNat + 1) / 2) ((h.toNat + 1) / 2) :=
    mem_samples.2 ⟨by omega, by omega⟩
  rw [agree_iff_copyAll hempty hw, hhalfH]
  intro hagree
  refine copyAll_ne (part_rounded_up le_rfl) part_rounded_down (List.mem_map.2 ⟨_, hlast, rfl⟩)
    (fun m' hm' heq => ?_) (hagree _ _ List.length_replicate List.length_replicate).symm
  have hfew := halves_lt hw0 hh0 hodd
  have hplace : i420Place (Raster.pos ⟨0, w.toNat, w.toNat, h.toNat⟩)
        (Raster.pos ⟨w.toNat * h.toNat, (w.toNat + 1) / 2, (w.toNat + 1) / 2, (h.toNat + 1) / 2⟩)
        (Raster.pos ⟨w.toNat * h.toNat + (w.toNat + 1) / 2 * ((h.toNat + 1) / 2), (w.toNat + 1) / 2,
          (w.toNat + 1) / 2, (h.toNat + 1) / 2⟩)
        (.u ((h.toNat + 1) / 2 - 1) ((w.toNat + 1) / 2 - 1)) + 1
      = w.toNat * h.toNat + (w.toNat + 1) / 2 * ((h.toNat + 1) / 2) := by
    obtain ⟨a, ha⟩ : ∃ a, (w.toNat + 1) / 2 = a + 1 := ⟨(w.toNat + 1) / 2 - 1, by omega⟩
    obtain ⟨b, hb⟩ : ∃ b, (h.toNat + 1) / 2 = b + 1 := ⟨(h.toNat + 1) / 2 - 1, by omega⟩
    rw [ha, hb]
    simp only [i420Place, Raster.pos, Nat.add_sub_cancel]
    ring
  simp only at heq
  rcases dst_tightMoves hm' with hlow | hhigh <;> omega

theorem not_agree_of_max (hw2 : 2 ≤ w.toNat) (hw : w.toNat < 2 ^ 31) (hmax : h.toNat + 1 = 2 ^ 32) :
    ¬ ConversionsAgree w h := by
  have hempty : ¬ (w = 0 ∨ h = 0) := by
    rintro (rfl | rfl)
    · exact absurd hw2 (by decide)
    · exact absurd hmax (by decide)
  have hhalfH : ((h + 1) / 2).toNat = 0 := by rw [toNat_half, if_neg (by omega)]
  have hfirst : Sample.u 0 0 ∈ samples w.toNat h.toNat (w.toNat / 2) (h.toNat / 2) :=
    mem_samples.2 ⟨by omega, by omega⟩
  rw [agree_iff_copyAll hempty hw, hhalfH]
  intro hagree
  refine copyAll_ne part_rounded_down (part_rounded_up (Nat.zero_le _))
    (List.mem_map.2 ⟨_, hfirst, rfl⟩) (fun m' hm' heq => ?_)
    (hagree _ _ List.length_replicate List.length_replicate)
  have hroom : 0 < (w.toNat + 1) / 2 * ((h.toNat + 1) / 2) := Nat.mul_pos (by omega) (by omega)
  simp only [i420Place, Raster.pos, Nat.zero_mul, Nat.add_zero] at heq
  rcases dst_tightMoves hm' with hlow | hhigh <;> omega

theorem conversionsAgree_iff (hw : (w.toNat + 1) / 2 * 2 < 2 ^ 31) :
    ConversionsAgree w h ↔ (w.toNat % 2 = 0 ∧ h.toNat % 2 = 0) ∨ w = 0 ∨ h = 0
      ∨ (w = 1 ∧ h.toNat + 1 = 2 ^ 32) := by
  have hwlt : w.toNat < 2 ^ 31 := by omega
  by_cases hempty : w = 0 ∨ h = 0
  · refine iff_of_true (fun frame out _ _ => ?_) (.inr (hempty.imp id .inl))
    have hnone : tightMoves w.toNat h.toNat (w.toNat / 2) (h.toNat / 2) w.toNat = [] := by
      rcases hempty with rfl | rfl <;> simp [tightMoves, samples]
    rw [convertNv12ToI420, if_pos hempty]
    exact nv12ToI420_eq.trans (by rw [hnone]; rfl)
  · have hlt := h.toNat_lt
    constructor
    · intro hagree
      by_contra hnone
      simp only [not_or] at hnone
      obtain ⟨hodd, hw0, hh0, hcolumn⟩ := hnone
      have hpos := toNat_pos_of_ne_zero hw0
      by_cases hmax : h.toNat + 1 = 2 ^ 32
      · have hone : w.toNat ≠ 1 := fun hone => hcolumn ⟨UInt32.toNat_inj.1 hone, hmax⟩
        exact not_agree_of_max (by omega) hwlt hmax hagree
      · exact not_agree_of_odd hempty hwlt (by omega) hodd hagree
    · rintro (⟨hweven, hheven⟩ | hzero | hzero | ⟨rfl, hmax⟩)
      · exact agree_of_even hempty hwlt hweven hheven
      · exact absurd (.inl hzero) hempty
      · exact absurd (.inr hzero) hempty
      · exact agree_of_column hmax

end Agree

/-! ### Both -/

/-- A layout is empty or sound exactly if the rounded rows of each plane are 32-bit signed numbers, the
alignment mask computes the remainder for them, and the height of a 4:2:0 format is not the greatest one.
In such layouts the conversions are inverse on the visible samples. On frames without padding
`nv12_to_i420` does what `convert_nv12_to_i420` does exactly if both dimensions are even, or nothing of
the chroma planes is copied by either. -/
theorem layouts_and_conversions_iff (format : PixelFormat) (w h a b : UInt32) :
    ((computeLayoutAligned format w h a).numPlanes = 0
        ∨ (computeLayoutAligned format w h a).Sound (max a.toNat 1)
      ↔ w = 0 ∨ h = 0 ∨ LayoutFits w.toNat h.toNat (max a.toNat 1) format)
    ∧ (((computeLayoutAligned .nv12 w h a).numPlanes = 0
          ∨ (computeLayoutAligned .nv12 w h a).Sound (max a.toNat 1))
        ∧ ((computeLayoutAligned .i420 w h b).numPlanes = 0
          ∨ (computeLayoutAligned .i420 w h b).Sound (max b.toNat 1))
        ∧ RoundTrips w h (computeLayoutAligned .nv12 w h a) (computeLayoutAligned .i420 w h b)
      ↔ w = 0 ∨ h = 0 ∨ (LayoutFits w.toNat h.toNat (max a.toNat 1) .nv12
        ∧ LayoutFits w.toNat h.toNat (max b.toNat 1) .i420))
    ∧ ((w.toNat + 1) / 2 * 2 < 2 ^ 31 →
      (ConversionsAgree w h ↔ (w.toNat % 2 = 0 ∧ h.toNat % 2 = 0) ∨ w = 0 ∨ h = 0
        ∨ (w = 1 ∧ h.toNat + 1 = 2 ^ 32))) := by
  refine ⟨layout_sound_iff format w h a, ?_, conversionsAgree_iff⟩
  rw [layout_sound_iff, layout_sound_iff, or_and_left, or_and_left, ← and_assoc]
  exact and_iff_left_of_imp fun hfits => roundTrips_of_fits hfits.1 hfits.2

/-- A frame of 5 times 3 pixels in the default layouts, and the conversions of a frame of 4 times 2. -/
theorem layouts_and_conversions_small :
    RoundTrips 5 3 (computeLayoutAligned .nv12 5 3 16) (computeLayoutAligned .i420 5 3 16)
      ∧ ConversionsAgree 4 2 :=
  ⟨((layouts_and_conversions_iff .nv12 5 3 16 16).2.1.2
      (.inr (.inr ⟨by decide, by decide⟩))).2.2,
    ((layouts_and_conversions_iff .nv12 4 2 16 16).2.2 (by decide)).2 (.inl ⟨rfl, rfl⟩)⟩

/-- The row bytes of a wide packed frame wrap to 0, an alignment that is no power of two leaves the
stride off it, and one column of a frame of 3 times 1 loses its chroma sample. -/
theorem layouts_and_conversions_wrong :
    ¬ ((computeLayoutAligned .bgra (2 ^ 30) 1 16).numPlanes = 0
        ∨ (computeLayoutAligned .bgra (2 ^ 30) 1 16).Sound (max 16 1))
      ∧ ¬ ((computeLayoutAligned .i420 100 1 3).numPlanes = 0
        ∨ (computeLayoutAligned .i420 100 1 3).Sound (max 3 1))
      ∧ ¬ ConversionsAgree 3 1 := by
  refine ⟨?_, ?_, fun hagree => ?_⟩
  · rintro (hnone | hsound)
    · exact absurd hnone (by decide)
    · exact absurd (hsound.stride_ge 0 (by decide)) (by decide)
  · rintro (hnone | hsound)
    · exact absurd hnone (by decide)
    · exact absurd (hsound.stride_dvd 0 (by decide)) (by decide)
  · exact absurd ((conversionsAgree_iff (by decide)).1 hagree) (by decide)

end VideoFrame

end NimRtc
