import NimRtc.Lib.Raster
import NimRtc.VideoFrame

/-!
# Sound layouts

`align_up` gives the next multiple of the alignment if the bits that it masks are the remainder, which
for a power of two they are, and if that is a 32-bit signed number. With such strides the sizes fit in
64 bits and the planes stand one after the other.
-/

namespace NimRtc

namespace VideoFrame

/-! ### Rounding with a mask -/

theorem toNat_and_not (x m : UInt32) : (x &&& ~~~m).toNat = x.toNat - (x.toNat &&& m.toNat) := by
  have hdisjoint : (x.toBitVec &&& m.toBitVec) &&& (x.toBitVec &&& ~~~m.toBitVec) = 0#32 := by
    ext i hi
    simp only [BitVec.getElem_and, BitVec.getElem_not, BitVec.getElem_zero]
    cases x.toBitVec[i] <;> cases m.toBitVec[i] <;> rfl
  have hsum : (x.toBitVec &&& m.toBitVec) + (x.toBitVec &&& ~~~m.toBitVec) = x.toBitVec := by
    rw [BitVec.add_eq_or_of_and_eq_zero _ _ hdisjoint]
    ext i hi
    simp only [BitVec.getElem_or, BitVec.getElem_and, BitVec.getElem_not]
    cases x.toBitVec[i] <;> cases m.toBitVec[i] <;> rfl
  have hnat := BitVec.toNat_add_of_and_eq_zero hdisjoint
  rw [hsum, BitVec.toNat_and] at hnat
  have hleft : (x &&& ~~~m).toNat = (x.toBitVec &&& ~~~m.toBitVec).toNat := rfl
  have hx : x.toBitVec.toNat = x.toNat := rfl
  have hm : m.toBitVec.toNat = m.toNat := rfl
  rw [hx, hm] at hnat
  omega

/-- The next multiple of `a` is a 32-bit signed number, and the bits that the mask clears are the
remainder. -/
def Aligns (a r : ℕ) : Prop :=
  (r + a - 1) / a * a < 2 ^ 31 ∧ (r + a - 1) &&& (a - 1) = (r + a - 1) % a

instance (a r : ℕ) : Decidable (Aligns a r) := inferInstanceAs (Decidable (_ ∧ _))

/-- For a power of two, they always are. -/
theorem aligns_two_pow {k r : ℕ} : Aligns (2 ^ k) r ↔ (r + 2 ^ k - 1) / 2 ^ k * 2 ^ k < 2 ^ 31 :=
  and_iff_left (Nat.and_two_pow_sub_one_eq_mod _ k)

theorem eq_roundUp {a r x : ℕ} (hr : r ≤ x) (hx : x ≤ r + a - 1) (hdvd : a ∣ x) (hpos : 0 < r) :
    x = (r + a - 1) / a * a := by
  obtain ⟨q, rfl⟩ := hdvd
  have ha : 0 < a := by
    rcases Nat.eq_zero_or_pos a with rfl | ha
    · omega
    · exact ha
  have hq : (r + a - 1) / a = q := by
    refine Nat.div_eq_of_lt_le ?_ ?_
    · rwa [Nat.mul_comm]
    · rw [Nat.succ_mul, Nat.mul_comm]
      omega
  rw [hq, Nat.mul_comm]

theorem toInt_toInt32 (x : UInt32) :
    x.toInt32.toInt = if x.toNat < 2 ^ 31 then (x.toNat : ℤ) else x.toNat - 2 ^ 32 := by
  have h : x.toInt32.toInt = x.toBitVec.toInt := rfl
  have hx : x.toBitVec.toNat = x.toNat := rfl
  rw [h, BitVec.toInt_eq_toNat_cond, hx]
  split_ifs with h1 h2 h2
  · rfl
  · omega
  · omega
  · rfl

section AlignUp

variable {v a : UInt32} {r : ℕ}

theorem toNat_pos_of_ne_zero (ha : a ≠ 0) : 0 < a.toNat := by
  rw [Nat.pos_iff_ne_zero]
  exact fun hzero => ha (UInt32.toNat_inj.1 hzero)

/-- `align_up` before its result is taken for a signed number. -/
theorem toNat_masked (ha : a ≠ 0) :
    ((v + a - 1) &&& ~~~(a - 1)).toNat
      = (v.toNat + a.toNat - 1) % 2 ^ 32
        - ((v.toNat + a.toNat - 1) % 2 ^ 32 &&& (a.toNat - 1)) := by
  have hpos := toNat_pos_of_ne_zero ha
  have hlt := a.toNat_lt
  have hmask : (a - 1).toNat = a.toNat - 1 := UInt32.toNat_sub_of_le _ _ hpos
  have hsum : (v + a - 1).toNat = (v.toNat + a.toNat - 1) % 2 ^ 32 := by
    rw [UInt32.toNat_sub, UInt32.toNat_add]
    simp only [UInt32.toNat_one]
    omega
  rw [toNat_and_not, hmask, hsum]

theorem alignUp_eq (ha : a ≠ 0) (hr : 0 < r) (hv : v.toNat = r % 2 ^ 32) (h : Aligns a.toNat r) :
    alignUp v a = ((r + a.toNat - 1) / a.toNat * a.toNat : ℕ) := by
  obtain ⟨hsmall, hlow⟩ := h
  have hpos := toNat_pos_of_ne_zero ha
  have hmod := Nat.mod_add_div' (r + a.toNat - 1) a.toNat
  have hrem := Nat.mod_lt (r + a.toNat - 1) hpos
  have hone : a.toNat ≤ (r + a.toNat - 1) / a.toNat * a.toNat :=
    Nat.le_mul_of_pos_left _ (Nat.div_pos (by omega) hpos)
  have hfits : r + a.toNat - 1 < 2 ^ 32 := by omega
  have hr' : v.toNat = r := by rw [hv, Nat.mod_eq_of_lt (by omega)]
  have heq : r + a.toNat - 1 - (r + a.toNat - 1 &&& a.toNat - 1)
      = (r + a.toNat - 1) / a.toNat * a.toNat := by
    rw [hlow]
    omega
  rw [alignUp, toInt_toInt32, toNat_masked ha, hr', Nat.mod_eq_of_lt hfits, heq, if_pos hsmall]

/-- `align_up` gives a stride for rows of `r` bytes exactly if the alignment works for `r`. -/
theorem alignUp_iff (ha : a ≠ 0) (hr : 0 < r) (hv : v.toNat = r % 2 ^ 32) :
    (r : ℤ) ≤ alignUp v a ∧ (a.toNat : ℤ) ∣ alignUp v a ↔ Aligns a.toNat r := by
  have hpos := toNat_pos_of_ne_zero ha
  constructor
  · rw [alignUp, toInt_toInt32, toNat_masked ha]
    rintro ⟨hge, hdvd⟩
    have hlt := a.toNat_lt
    have hclear : (v.toNat + a.toNat - 1) % 2 ^ 32 &&& (a.toNat - 1)
        ≤ (v.toNat + a.toNat - 1) % 2 ^ 32 := Nat.and_le_left
    split_ifs at hge hdvd with hsmall
    · have hr' : v.toNat = r := by rw [hv, Nat.mod_eq_of_lt (by omega)]
      have hfits : r + a.toNat - 1 < 2 ^ 32 := by omega
      rw [hr', Nat.mod_eq_of_lt hfits] at hge hdvd hsmall hclear
      have heq := eq_roundUp (by omega) (Nat.sub_le _ _) (Int.natCast_dvd_natCast.1 hdvd) hr
      have hmod := Nat.mod_add_div' (r + a.toNat - 1) a.toNat
      exact ⟨heq ▸ hsmall, by omega⟩
    · omega
  · intro h
    have hmod := Nat.mod_add_div' (r + a.toNat - 1) a.toNat
    have hrem := Nat.mod_lt (r + a.toNat - 1) hpos
    rw [alignUp_eq ha hr hv h]
    exact ⟨by omega, Int.natCast_dvd_natCast.2 (Nat.dvd_mul_left _ _)⟩

/-- The stride that an alignment gives. -/
theorem exists_stride (ha : a ≠ 0) (hr : 0 < r) (hv : v.toNat = r % 2 ^ 32) (h : Aligns a.toNat r) :
    ∃ stride : ℕ, alignUp v a = stride ∧ r ≤ stride ∧ a.toNat ∣ stride ∧ stride < 2 ^ 31 := by
  have heq := alignUp_eq ha hr hv h
  obtain ⟨hge, hdvd⟩ := (alignUp_iff ha hr hv).2 h
  rw [heq] at hge hdvd
  exact ⟨_, heq, Int.ofNat_le.1 hge, Int.natCast_dvd_natCast.1 hdvd, h.1⟩

end AlignUp

/-! ### Sizes -/

theorem size_natCast {n : ℕ} (h : n < 2 ^ 64) : size n = n := by
  rw [size, Int.emod_eq_of_lt (by omega) (by exact_mod_cast h), Int.toNat_natCast]

theorem size_lt (z : ℤ) : size z < 2 ^ 64 := by
  unfold size
  omega

/-- Half of a 32-bit size, rounded up. The last number wraps around. -/
theorem toNat_half (n : UInt32) :
    ((n + 1) / 2).toNat = if n.toNat + 1 < 2 ^ 32 then (n.toNat + 1) / 2 else 0 := by
  have htwo : (2 : UInt32).toNat = 2 := rfl
  have hlt := n.toNat_lt
  rw [UInt32.toNat_div, UInt32.toNat_add, UInt32.toNat_one, htwo]
  split_ifs <;> omega

/-- Planes of such strides fit in 64 bits. -/
theorem planes_lt {s0 s1 h halfH : ℕ} (hs0 : s0 < 2 ^ 31) (hs1 : s1 < 2 ^ 31) (hh : h < 2 ^ 32)
    (hhalf : halfH < 2 ^ 31) : s0 * h + s1 * halfH + s1 * halfH < 2 ^ 64 := by
  have hy : s0 * h ≤ (2 ^ 31 - 1) * (2 ^ 32 - 1) := Nat.mul_le_mul (by omega) (by omega)
  have hc : s1 * halfH ≤ (2 ^ 31 - 1) * (2 ^ 31 - 1) := Nat.mul_le_mul (by omega) (by omega)
  omega

/-! ### Layouts of each kind -/

/-- When the layout of a format is sound. -/
def LayoutFits (w h a : ℕ) : PixelFormat → Prop
  | .unknown => True
  | .i420 | .yv12 => Aligns a w ∧ Aligns a ((w + 1) / 2) ∧ h + 1 < 2 ^ 32
  | .nv12 => Aligns a w ∧ Aligns a ((w + 1) / 2 * 2) ∧ h + 1 < 2 ^ 32
  | .bgra | .rgba => Aligns a (w * 4)
  | .rgb24 => Aligns a (w * 3)

instance (w h a : ℕ) : ∀ format, Decidable (LayoutFits w h a format)
  | .unknown => inferInstanceAs (Decidable True)
  | .i420 | .yv12 | .nv12 => inferInstanceAs (Decidable (_ ∧ _ ∧ _))
  | .bgra | .rgba | .rgb24 => inferInstanceAs (Decidable (Aligns _ _))

section Layouts

variable (out : VideoFrameLayout) {w h a : UInt32}

theorem width_lt (ha : a ≠ 0) (hw : 0 < w.toNat) (hy : Aligns a.toNat w.toNat) :
    w.toNat < 2 ^ 31 := by
  have hge := ((alignUp_iff ha hw (Nat.mod_eq_of_lt w.toNat_lt).symm).2 hy).1
  rw [alignUp_eq ha hw (Nat.mod_eq_of_lt w.toNat_lt).symm hy] at hge
  have hlt := hy.1
  omega

/-- The numbers of a planar layout. -/
theorem planar_layout (ha : a ≠ 0) (hw : 0 < w.toNat) (hy : Aligns a.toNat w.toNat)
    (hc : Aligns a.toNat ((w.toNat + 1) / 2)) (hh : h.toNat + 1 < 2 ^ 32) :
    ∃ s0 s1 : ℕ, w.toNat ≤ s0 ∧ (w.toNat + 1) / 2 ≤ s1 ∧ a.toNat ∣ s0 ∧ a.toNat ∣ s1
      ∧ s0 * h.toNat + s1 * ((h.toNat + 1) / 2) + s1 * ((h.toNat + 1) / 2) < 2 ^ 64
      ∧ fillPlanarYuv420Layout out w h a
        = { out with
            width := w
            height := h
            strides := ![(s0 : ℤ), s1, s1]
            planeOffsets := ![0, s0 * h.toNat, s0 * h.toNat + s1 * ((h.toNat + 1) / 2)]
            bufferSize := s0 * h.toNat + s1 * ((h.toNat + 1) / 2) + s1 * ((h.toNat + 1) / 2)
            numPlanes := 3 } := by
  have hwlt := width_lt ha hw hy
  have hhalfW : ((w + 1) / 2).toNat = (w.toNat + 1) / 2 := by rw [toNat_half, if_pos (by omega)]
  have hhalfH : ((h + 1) / 2).toNat = (h.toNat + 1) / 2 := by rw [toNat_half, if_pos hh]
  obtain ⟨s0, heq0, hge0, hdvd0, hlt0⟩ :=
    exists_stride ha hw (Nat.mod_eq_of_lt w.toNat_lt).symm hy
  obtain ⟨s1, heq1, hge1, hdvd1, hlt1⟩ := exists_stride (v := (w + 1) / 2) ha
    (show 0 < (w.toNat + 1) / 2 by omega) (by rw [hhalfW, Nat.mod_eq_of_lt (by omega)]) hc
  have hfits := planes_lt hlt0 hlt1 h.toNat_lt (show (h.toNat + 1) / 2 < 2 ^ 31 by omega)
  refine ⟨s0, s1, hge0, hge1, hdvd0, hdvd1, hfits, ?_⟩
  unfold fillPlanarYuv420Layout
  simp only [heq0, heq1, hhalfH, ← Nat.cast_mul]
  rw [size_natCast (show s0 * h.toNat < 2 ^ 64 by omega), ← Nat.cast_add,
    size_natCast (show s0 * h.toNat + s1 * ((h.toNat + 1) / 2) < 2 ^ 64 by omega), ← Nat.cast_add,
    size_natCast hfits]

theorem nv12_layout (ha : a ≠ 0) (hw : 0 < w.toNat) (hy : Aligns a.toNat w.toNat)
    (hc : Aligns a.toNat ((w.toNat + 1) / 2 * 2)) (hh : h.toNat + 1 < 2 ^ 32) :
    ∃ s0 s1 : ℕ, w.toNat ≤ s0 ∧ (w.toNat + 1) / 2 * 2 ≤ s1 ∧ a.toNat ∣ s0 ∧ a.toNat ∣ s1
      ∧ s0 * h.toNat + s1 * ((h.toNat + 1) / 2) < 2 ^ 64
      ∧ fillNv12Layout out w h a
        = { out with
            width := w
            height := h
            strides := ![(s0 : ℤ), s1, 0]
            planeOffsets := ![0, s0 * h.toNat, 0]
            bufferSize := s0 * h.toNat + s1 * ((h.toNat + 1) / 2)
            numPlanes := 2 } := by
  have hwlt := width_lt ha hw hy
  have hhalfW : ((w + 1) / 2).toNat = (w.toNat + 1) / 2 := by rw [toNat_half, if_pos (by omega)]
  have hhalfH : ((h + 1) / 2).toNat = (h.toNat + 1) / 2 := by rw [toNat_half, if_pos hh]
  have htwo : (2 : UInt32).toNat = 2 := rfl
  obtain ⟨s0, heq0, hge0, hdvd0, hlt0⟩ :=
    exists_stride ha hw (Nat.mod_eq_of_lt w.toNat_lt).symm hy
  obtain ⟨s1, heq1, hge1, hdvd1, hlt1⟩ := exists_stride (v := (w + 1) / 2 * 2) ha
    (show 0 < (w.toNat + 1) / 2 * 2 by omega) (by rw [UInt32.toNat_mul, hhalfW, htwo]) hc
  have hfits := planes_lt hlt0 hlt1 h.toNat_lt (show (h.toNat + 1) / 2 < 2 ^ 31 by omega)
  refine ⟨s0, s1, hge0, hge1, hdvd0, hdvd1, by omega, ?_⟩
  unfold fillNv12Layout
  simp only [heq0, heq1, hhalfH, ← Nat.cast_mul]
  rw [size_natCast (show s0 * h.toNat < 2 ^ 64 by omega), ← Nat.cast_add,
    size_natCast (show s0 * h.toNat + s1 * ((h.toNat + 1) / 2) < 2 ^ 64 by omega)]

theorem packed_layout {bpp : UInt32} (ha : a ≠ 0) {bytes : ℕ} (hbytes : (bpp / 8).toNat = bytes)
    (hpos : 0 < w.toNat * bytes) (hrow : Aligns a.toNat (w.toNat * bytes)) :
    ∃ s0 : ℕ, w.toNat * bytes ≤ s0 ∧ a.toNat ∣ s0
      ∧ fillPackedLayout out w h bpp a
        = { out with
            width := w
            height := h
            strides := ![(s0 : ℤ), 0, 0]
            planeOffsets := ![0, 0, 0]
            bufferSize := s0 * h.toNat
            numPlanes := 1 } := by
  obtain ⟨s0, heq0, hge0, hdvd0, hlt0⟩ := exists_stride (v := w * (bpp / 8)) ha hpos
    (by rw [UInt32.toNat_mul, hbytes]) hrow
  have hfits := planes_lt hlt0 hlt0 h.toNat_lt (show 0 < 2 ^ 31 by omega)
  refine ⟨s0, hge0, hdvd0, ?_⟩
  unfold fillPackedLayout
  simp only [heq0, ← Nat.cast_mul]
  rw [size_natCast (show s0 * h.toNat < 2 ^ 64 by omega)]

/-! ### Soundness of each kind -/

/-- Planes that stand one after the other. -/
theorem sound_of_order {l : VideoFrameLayout} {strideAlign : ℕ} {s : Fin 3 → ℕ}
    (hstrides : ∀ n, l.strides n = s n)
    (hge : ∀ n : Fin 3, n < l.numPlanes → rowBytes l.format l.width.toNat n ≤ s n)
    (hdvd : ∀ n : Fin 3, n < l.numPlanes → strideAlign ∣ s n)
    (horder : ∀ m n : Fin 3, m < n → n < l.numPlanes →
      l.planeOffsets m + s m * planeHeight l.format l.height.toNat m ≤ l.planeOffsets n)
    (hend : ∀ n : Fin 3, n < l.numPlanes →
      l.planeOffsets n + s n * planeHeight l.format l.height.toNat n ≤ l.bufferSize) :
    l.Sound strideAlign := by
  have hsize : ∀ n, l.planeSize n = (s n * planeHeight l.format l.height.toNat n : ℕ) := fun n => by
    rw [VideoFrameLayout.planeSize, hstrides, Nat.cast_mul]
  refine ⟨fun n hn => ?_, fun n hn => ?_, fun m n hm hn hne => ?_, fun n hn => ?_⟩
  · rw [hstrides]
    exact_mod_cast hge n hn
  · rw [hstrides]
    exact_mod_cast hdvd n hn
  · rw [hsize, hsize]
    rcases lt_or_gt_of_ne hne with hlt | hlt
    · exact .inl (by exact_mod_cast horder m n hlt hn)
    · exact .inr (by exact_mod_cast horder n m hlt hm)
  · rw [hsize]
    exact_mod_cast hend n hn

/-- The height `2 ^ 32 - 1` has no chroma rows in the buffer. -/
theorem half_height_ne {s : ℤ} {chromaWidth offset : ℕ} (hw : 0 < chromaWidth)
    (hge : (chromaWidth : ℤ) ≤ s)
    (hinside : (offset : ℤ) + s * ((h.toNat + 1) / 2 : ℕ)
      ≤ size (offset + s * (((h + 1) / 2).toNat : ℕ))) (hoffset : offset < 2 ^ 64) :
    h.toNat + 1 < 2 ^ 32 := by
  by_contra hmax
  have hlt := h.toNat_lt
  have hrows : 0 < s * ((h.toNat + 1) / 2 : ℕ) := Int.mul_pos (by omega) (by omega)
  rw [show ((h + 1) / 2).toNat = 0 by rw [toNat_half, if_neg hmax], Nat.cast_zero, Int.mul_zero,
    Int.add_zero, size_natCast hoffset] at hinside
  omega

theorem sound_planar_iff (hrows : ∀ w, rowBytes out.format w = ![w, (w + 1) / 2, (w + 1) / 2])
    (hheights : ∀ h, planeHeight out.format h = ![h, (h + 1) / 2, (h + 1) / 2]) (ha : a ≠ 0)
    (hw : 0 < w.toNat) :
    (fillPlanarYuv420Layout out w h a).Sound a.toNat
      ↔ Aligns a.toNat w.toNat ∧ Aligns a.toNat ((w.toNat + 1) / 2) ∧ h.toNat + 1 < 2 ^ 32 := by
  constructor
  · intro hs
    have hge0 : (w.toNat : ℤ) ≤ alignUp w a := by
      simpa [fillPlanarYuv420Layout, hrows] using hs.stride_ge 0 (show 0 < 3 by decide)
    have hge2 : ((w.toNat + 1) / 2 : ℕ) ≤ alignUp ((w + 1) / 2) a := by
      simpa [fillPlanarYuv420Layout, hrows] using hs.stride_ge 2 (show 2 < 3 by decide)
    have hy := (alignUp_iff ha hw (Nat.mod_eq_of_lt w.toNat_lt).symm).1
      ⟨hge0, hs.stride_dvd 0 (show 0 < 3 by decide)⟩
    have hwlt := width_lt ha hw hy
    have hhalfW : ((w + 1) / 2).toNat = (w.toNat + 1) / 2 := by rw [toNat_half, if_pos (by omega)]
    refine ⟨hy, ?_, ?_⟩
    · exact (alignUp_iff (v := (w + 1) / 2) ha (by omega)
        (by rw [hhalfW, Nat.mod_eq_of_lt (by omega)])).1 ⟨hge2, hs.stride_dvd 2 (show 2 < 3 by decide)⟩
    · have hinside := hs.inside 2 (show 2 < 3 by decide)
      rw [VideoFrameLayout.planeSize,
        show (fillPlanarYuv420Layout out w h a).format = out.format from rfl, hheights] at hinside
      exact half_height_ne (show 0 < (w.toNat + 1) / 2 by omega) hge2 hinside (size_lt _)
  · rintro ⟨hy, hc, hh⟩
    obtain ⟨s0, s1, hge0, hge1, hdvd0, hdvd1, -, heq⟩ := planar_layout out ha hw hy hc hh
    rw [heq]
    refine sound_of_order (s := ![s0, s1, s1]) (fun n => ?_) (fun n _ => ?_) (fun n _ => ?_)
      (fun m n hmn _ => ?_) fun n _ => ?_
    · fin_cases n <;> rfl
    · fin_cases n <;> simp [hrows] <;> omega
    · fin_cases n <;> simp [hdvd0, hdvd1]
    · fin_cases m <;> fin_cases n <;> simp [hheights] at hmn ⊢
    · fin_cases n <;> simp [hheights]
      omega

theorem sound_nv12_iff (hrows : ∀ w, rowBytes out.format w = ![w, (w + 1) / 2 * 2, 0])
    (hheights : ∀ h, planeHeight out.format h = ![h, (h + 1) / 2, 0]) (ha : a ≠ 0)
    (hw : 0 < w.toNat) :
    (fillNv12Layout out w h a).Sound a.toNat
      ↔ Aligns a.toNat w.toNat ∧ Aligns a.toNat ((w.toNat + 1) / 2 * 2) ∧ h.toNat + 1 < 2 ^ 32 := by
  constructor
  · intro hs
    have hge0 : (w.toNat : ℤ) ≤ alignUp w a := by
      simpa [fillNv12Layout, hrows] using hs.stride_ge 0 (show 0 < 2 by decide)
    have hge1 : ((w.toNat + 1) / 2 * 2 : ℕ) ≤ alignUp ((w + 1) / 2 * 2) a := by
      simpa [fillNv12Layout, hrows] using hs.stride_ge 1 (show 1 < 2 by decide)
    have hy := (alignUp_iff ha hw (Nat.mod_eq_of_lt w.toNat_lt).symm).1
      ⟨hge0, hs.stride_dvd 0 (show 0 < 2 by decide)⟩
    have hwlt := width_lt ha hw hy
    have hhalfW : ((w + 1) / 2).toNat = (w.toNat + 1) / 2 := by rw [toNat_half, if_pos (by omega)]
    refine ⟨hy, ?_, ?_⟩
    · exact (alignUp_iff (v := (w + 1) / 2 * 2) ha (by omega) (by rw [UInt32.toNat_mul, hhalfW]; rfl)).1
        ⟨hge1, hs.stride_dvd 1 (show 1 < 2 by decide)⟩
    · have hinside := hs.inside 1 (show 1 < 2 by decide)
      rw [VideoFrameLayout.planeSize,
        show (fillNv12Layout out w h a).format = out.format from rfl, hheights] at hinside
      exact half_height_ne (show 0 < (w.toNat + 1) / 2 * 2 by omega) hge1 hinside (size_lt _)
  · rintro ⟨hy, hc, hh⟩
    obtain ⟨s0, s1, hge0, hge1, hdvd0, hdvd1, -, heq⟩ := nv12_layout out ha hw hy hc hh
    rw [heq]
    refine sound_of_order (s := ![s0, s1, 0]) (fun n => ?_) (fun n hn => ?_) (fun n hn => ?_)
      (fun m n hmn hn => ?_) fun n hn => ?_
    · fin_cases n <;> rfl
    · fin_cases n <;> simp [hrows] <;> omega
    · fin_cases n <;> simp [hdvd0, hdvd1]
    · fin_cases m <;> fin_cases n <;> simp [hheights] at hmn hn ⊢
    · fin_cases n <;> simp [hheights] at hn ⊢

theorem sound_packed_iff {bpp : UInt32} {bytes : ℕ} (hbytes : (bpp / 8).toNat = bytes)
    (hrows : ∀ w, rowBytes out.format w = ![w * bytes, 0, 0])
    (hheights : ∀ h, planeHeight out.format h = ![h, 0, 0]) (ha : a ≠ 0)
    (hpos : 0 < w.toNat * bytes) :
    (fillPackedLayout out w h bpp a).Sound a.toNat ↔ Aligns a.toNat (w.toNat * bytes) := by
  constructor
  · intro hs
    have hge0 : (w.toNat * bytes : ℕ) ≤ alignUp (w * (bpp / 8)) a := by
      simpa [fillPackedLayout, hrows] using hs.stride_ge 0 (show 0 < 1 by decide)
    exact (alignUp_iff (v := w * (bpp / 8)) ha hpos (by rw [UInt32.toNat_mul, hbytes])).1
      ⟨hge0, hs.stride_dvd 0 (show 0 < 1 by decide)⟩
  · intro hrow
    obtain ⟨s0, hge0, hdvd0, heq⟩ := packed_layout out (h := h) ha hbytes hpos hrow
    rw [heq]
    refine sound_of_order (s := ![s0, 0, 0]) (fun n => ?_) (fun n hn => ?_) (fun n hn => ?_)
      (fun m n hmn hn => ?_) fun n hn => ?_
    · fin_cases n <;> rfl
    · fin_cases n <;> simp [hrows, hge0]
    · fin_cases n <;> simp [hdvd0]
    · fin_cases m <;> fin_cases n <;> simp at hmn hn
    · fin_cases n <;> simp [hheights] at hn ⊢

/-- `std::max(stride_align, 1)`. -/
theorem exists_alignment (strideAlign : UInt32) :
    ∃ a : UInt32, (if strideAlign = 0 then 1 else strideAlign) = a ∧ a ≠ 0
      ∧ max strideAlign.toNat 1 = a.toNat := by
  by_cases hzero : strideAlign = 0
  · subst hzero
    exact ⟨1, rfl, by decide, rfl⟩
  · exact ⟨strideAlign, if_neg hzero, hzero, max_eq_left (toNat_pos_of_ne_zero hzero)⟩

/-- The layouts that are empty or sound. -/
theorem layout_sound_iff (format : PixelFormat) (w h strideAlign : UInt32) :
    (computeLayoutAligned format w h strideAlign).numPlanes = 0
        ∨ (computeLayoutAligned format w h strideAlign).Sound (max strideAlign.toNat 1)
      ↔ w = 0 ∨ h = 0 ∨ LayoutFits w.toNat h.toNat (max strideAlign.toNat 1) format := by
  unfold computeLayoutAligned
  by_cases hempty : w = 0 ∨ h = 0
  · rw [if_pos hempty]
    exact iff_of_true (.inl rfl) (hempty.imp id .inl)
  · rw [if_neg hempty]
    rw [not_or] at hempty
    have hw := toNat_pos_of_ne_zero hempty.1
    obtain ⟨a, hdef, ha, hmax⟩ := exists_alignment strideAlign
    simp only [hempty.1, hempty.2, false_or, hdef, hmax]
    cases format with
    | unknown => exact iff_of_true (.inl rfl) trivial
    | i420 | yv12 =>
      refine (or_iff_right ?_).trans (sound_planar_iff _ ?_ ?_ ha hw)
      exacts [three_ne_zero, fun _ => rfl, fun _ => rfl]
    | nv12 =>
      refine (or_iff_right ?_).trans (sound_nv12_iff _ ?_ ?_ ha hw)
      exacts [two_ne_zero, fun _ => rfl, fun _ => rfl]
    | bgra | rgba =>
      refine (or_iff_right ?_).trans (sound_packed_iff _ (show (32 / 8 : UInt32).toNat = 4 from rfl)
        ?_ ?_ ha (by omega))
      exacts [one_ne_zero, fun _ => rfl, fun _ => rfl]
    | rgb24 =>
      refine (or_iff_right ?_).trans (sound_packed_iff _ (show (24 / 8 : UInt32).toNat = 3 from rfl)
        ?_ ?_ ha (by omega))
      exacts [one_ne_zero, fun _ => rfl, fun _ => rfl]

end Layouts

end VideoFrame

end NimRtc
