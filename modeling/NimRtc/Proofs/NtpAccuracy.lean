import NimRtc.AudioSend
import NimRtc.Proofs.TimelineRange

/-!
# Conversions of wall-clock time

Microseconds go into an NTP timestamp with a fraction in 2^32ths of a second, and into
abs-send-time as ticks of 2^16 a second. Both fractions are rounded down on the way there and on the
way back.
-/

namespace NimRtc.Rtp

/-! ### NTP timestamps -/

/-- The instants from 1970 on that an NTP timestamp has seconds for. -/
structure NtpInstant (t : ℤ) : Prop where
  since1970 : 0 ≤ t
  inEra : t / 1000000 + kNtpEpochOffset < 2 ^ 32

theorem toNat_shiftLeft_or {n f : ℕ} (hn : n < 2 ^ 32) (hf : f < 2 ^ 32) :
    (UInt64.ofNat n <<< 32 ||| UInt64.ofNat f).toNat = n * 2 ^ 32 + f := by
  have hhigh : (UInt64.ofNat n <<< 32).toNat = n <<< 32 := by
    simp [Nat.shiftLeft_eq]
    omega
  have hlow : (UInt64.ofNat f).toNat = f := by
    simp
    omega
  rw [UInt64.toNat_or, hhigh, hlow, ← Nat.shiftLeft_add_eq_or_of_lt hf, Nat.shiftLeft_eq]

namespace NtpInstant

variable {t : ℤ}

/-- The timestamp as a number: the seconds since 1900, and the fraction below them. -/
theorem toNat_ntp64From (h : NtpInstant t) :
    (ntp64From t).toNat
      = (t.toNat / 1000000 + 2208988800) * 2 ^ 32 + t.toNat % 1000000 * 2 ^ 32 / 1000000 := by
  obtain ⟨hpos, hera⟩ := h
  rw [kNtpEpochOffset] at hera
  have hmin : min (t.toNat % 1000000 * 2 ^ 32 / 1000000) (2 ^ 32 - 1)
      = t.toNat % 1000000 * 2 ^ 32 / 1000000 := by omega
  have hsec : UInt64.ofNat (t.toNat / 1000000) + NimRtc.kNtpEpochOffset
      = UInt64.ofNat (t.toNat / 1000000 + 2208988800) := by
    rw [UInt64.ofNat_add]
    rfl
  simp only [ntp64From, if_neg (not_lt.2 hpos), hmin, hsec]
  exact toNat_shiftLeft_or (by omega) (by omega)

theorem ntp64Parts_ntp64From (h : NtpInstant t) :
    ntp64Parts (ntp64From t)
      = (t / 1000000 + kNtpEpochOffset,
        ((t.toNat % 1000000 * 2 ^ 32 / 1000000 : ℕ) : ℤ) * 1000000 / 4294967296) := by
  have hnat := h.toNat_ntp64From
  obtain ⟨hpos, hera⟩ := h
  have hseconds : (ntp64From t >>> 32).toNat = t.toNat / 1000000 + 2208988800 := by
    rw [UInt64.toNat_shiftRight, hnat]
    show (_ : ℕ) >>> 32 = _
    rw [Nat.shiftRight_eq_div_pow]
    omega
  have hfrac : (ntp64From t &&& 0xFFFFFFFF).toNat = t.toNat % 1000000 * 2 ^ 32 / 1000000 := by
    rw [UInt64.toNat_and, hnat]
    refine (Nat.and_two_pow_sub_one_eq_mod _ 32).trans ?_
    omega
  rw [ntp64Parts, hseconds, hfrac, kNtpEpochOffset]
  refine Prod.ext ?_ rfl
  push_cast
  omega

/-- A microsecond is worth more than 4294 of the 2^32ths, so that its fraction read back is lacking
at most one microsecond. -/
theorem fraction_bounds {micros : ℕ} {back : ℤ}
    (hback : ((micros * 2 ^ 32 / 1000000 : ℕ) : ℤ) * 1000000 / 4294967296 = back) :
    back = micros ∨ back = micros - 1 := by
  omega

theorem systemClock_cases (h : NtpInstant t) :
    systemClockFromNtp64 (ntp64From t) = t ∨ systemClockFromNtp64 (ntp64From t) = t - 1 := by
  have hpos := h.since1970
  have hseconds : max (t / 1000000 + kNtpEpochOffset - kNtpEpochOffset) 0 = t / 1000000 := by
    rw [add_sub_cancel_right, max_eq_left (by omega)]
  simp only [systemClockFromNtp64, h.ntp64Parts_ntp64From, hseconds]
  generalize hback : ((t.toNat % 1000000 * 2 ^ 32 / 1000000 : ℕ) : ℤ) * 1000000 / 4294967296 = back
  have hcases := fraction_bounds hback
  clear hback hseconds h
  omega

end NtpInstant

theorem unixUsFromNtp64_eq_systemClock (ntp : UInt64) :
    unixUsFromNtp64 ntp = systemClockFromNtp64 ntp := unixUsFromNtp64_eq ntp

theorem ntp64From_lt {s t : ℤ} (hs : NtpInstant s) (ht : NtpInstant t) (h : s < t) :
    ntp64From s < ntp64From t := by
  have hpos := hs.since1970
  have hpos' := ht.since1970
  rw [UInt64.lt_iff_toNat_lt, hs.toNat_ntp64From, ht.toNat_ntp64From]
  have hfrac : ∀ a b : ℕ, a < b → b < 1000000 →
      a * 2 ^ 32 / 1000000 < b * 2 ^ 32 / 1000000 := fun a b hab hb => by omega
  rcases Nat.lt_or_ge (s.toNat / 1000000) (t.toNat / 1000000) with hsec | hsec
  · omega
  · have hmicros := hfrac (s.toNat % 1000000) (t.toNat % 1000000) (by omega) (by omega)
    omega

/-- An instant survives the way into an NTP timestamp and back but for a microsecond, by both of the
conversions back, and a later instant has a greater timestamp. -/
theorem ntp64From_accurate {t : ℤ} (ht : NtpInstant t) :
    (systemClockFromNtp64 (ntp64From t) = t ∨ systemClockFromNtp64 (ntp64From t) = t - 1)
      ∧ unixUsFromNtp64 (ntp64From t) = systemClockFromNtp64 (ntp64From t)
      ∧ ∀ s, NtpInstant s → s < t → ntp64From s < ntp64From t :=
  ⟨ht.systemClock_cases, unixUsFromNtp64_eq_systemClock _, fun _ hs h => ntp64From_lt hs ht h⟩

theorem ntp64From_accurate_micros :
    NtpInstant 1000001 ∧ systemClockFromNtp64 (ntp64From 1000001) = 1000000
      ∧ ntp64From 1000000 < ntp64From 1000001 := by
  have h : NtpInstant 1000001 := ⟨by decide, by decide⟩
  have h' : NtpInstant 1000000 := ⟨by decide, by decide⟩
  exact ⟨h, by decide +kernel, (ntp64From_accurate h).2.2 _ h' (by decide)⟩

/-! ### abs-send-time -/

/-- The period of the 24-bit counter. -/
def absSendTimeCycleUs : ℤ := 256000000

theorem toNat_ofInt {x : ℤ} (hpos : 0 ≤ x) (hlt : x < 2 ^ 64) :
    (UInt64.ofInt x).toNat = x.toNat := by
  rw [UInt64.ofInt, UInt64.toNat_ofNat']
  omega

/-- The counter: the seconds of the cycle, and the ticks of what is left of them. -/
theorem encodeAbsSendTime24_toNat {monotonicUs : ℤ} {origin : UInt64} {u : ℤ}
    (hu : unixUsFromNtp64 origin + monotonicUs = u) (hpos : 0 ≤ u) (hlt : u < 2 ^ 63) :
    ((encodeAbsSendTime24 monotonicUs origin).toNat : ℤ)
      = u / 1000000 % 256 * 65536 + u % 1000000 * 65536 / 1000000 := by
  obtain ⟨q, hq⟩ := Int.eq_ofNat_of_zero_le (show 0 ≤ u / 1000000 by omega)
  obtain ⟨r, hr⟩ := Int.eq_ofNat_of_zero_le (show 0 ≤ u % 1000000 by omega)
  have hqlt : q < 2 ^ 44 := by omega
  have hrlt : r < 1000000 := by omega
  obtain ⟨k, hk⟩ : ∃ k, r * 65536 / 1000000 = k := ⟨_, rfl⟩
  have hklt : k < 65536 := by omega
  have hrate : (UInt64.ofInt kAbsSendTimeClockRateHz).toNat = 65536 := by decide
  have hticks : (UInt64.ofInt q * UInt64.ofInt kAbsSendTimeClockRateHz
      + UInt64.ofInt r * UInt64.ofInt kAbsSendTimeClockRateHz / 1000000).toNat = q * 65536 + k := by
    have hqnat := toNat_ofInt (x := q) (by omega) (by omega)
    have hrnat := toNat_ofInt (x := r) (by omega) (by omega)
    have hmillion : (1000000 : UInt64).toNat = 1000000 := rfl
    rw [UInt64.toNat_add, UInt64.toNat_mul, UInt64.toNat_div, UInt64.toNat_mul, hqnat, hrnat, hrate,
      hmillion, Int.toNat_natCast, Int.toNat_natCast,
      Nat.mod_eq_of_lt (show q * 65536 < 2 ^ 64 by omega),
      Nat.mod_eq_of_lt (show r * 65536 < 2 ^ 64 by omega), hk]
    exact Nat.mod_eq_of_lt (by omega)
  have hmask : ((q * 65536 + k) &&& (2 ^ 24 - 1)) % 2 ^ 32 = q % 256 * 65536 + k := by
    clear hticks hq hr hk
    rw [Nat.and_two_pow_sub_one_eq_mod]
    omega
  simp only [encodeAbsSendTime24, hu, if_neg (not_lt.2 hpos), hq, hr]
  rw [UInt64.toNat_toUInt32, UInt64.toNat_and, hticks]
  refine (congrArg Nat.cast hmask).trans ?_
  rw [← hk]
  push_cast
  rfl

theorem decodeAbsSendTime24_of_lt {raw : UInt32} (h : raw.toNat < 2 ^ 24) :
    decodeAbsSendTime24 raw = raw.toNat * 1000000 / 65536 := by
  have hmask : (raw &&& 0xFFFFFF).toNat = raw.toNat := by
    rw [UInt32.toNat_and]
    exact (Nat.and_two_pow_sub_one_eq_mod _ 24).trans (Nat.mod_eq_of_lt h)
  rw [decodeAbsSendTime24, hmask, kAbsSendTimeClockRateHz]

/-- An instant survives the way into abs-send-time and back within its cycle but for 16
microseconds, and one that is a cycle later has the same abs-send-time. -/
theorem absSendTime_accurate {monotonicUs : ℤ} {origin : UInt64} {u : ℤ}
    (hu : unixUsFromNtp64 origin + monotonicUs = u) (hpos : 0 ≤ u) (hlt : u < 2 ^ 62) :
    let back := decodeAbsSendTime24 (encodeAbsSendTime24 monotonicUs origin)
    (u % absSendTimeCycleUs - 16 ≤ back ∧ back ≤ u % absSendTimeCycleUs)
      ∧ ∀ monotonicUs' origin', unixUsFromNtp64 origin' + monotonicUs' = u + absSendTimeCycleUs →
        encodeAbsSendTime24 monotonicUs' origin' = encodeAbsSendTime24 monotonicUs origin := by
  intro back
  have hraw := encodeAbsSendTime24_toNat hu hpos (by omega)
  have hticks : 0 ≤ u % 1000000 * 65536 / 1000000 ∧ u % 1000000 * 65536 / 1000000 < 65536 := by
    omega
  constructor
  · have hback : back = _ := decodeAbsSendTime24_of_lt (by omega)
    have hcycle : u % absSendTimeCycleUs = u / 1000000 % 256 * 1000000 + u % 1000000 := by
      rw [absSendTimeCycleUs]
      omega
    have hround : ∀ k : ℤ, k = u % 1000000 * 65536 / 1000000 →
        u % 1000000 - 16 ≤ k * 1000000 / 65536 ∧ k * 1000000 / 65536 ≤ u % 1000000 := by
      rintro k rfl
      omega
    have hsplit : ∀ m k : ℤ,
        (m * 65536 + k) * 1000000 / 65536 = m * 1000000 + k * 1000000 / 65536 := fun m k => by omega
    rw [hback, hraw, hsplit, hcycle]
    have := hround _ rfl
    omega
  · intro monotonicUs' origin' hu'
    rw [absSendTimeCycleUs] at hu'
    have hraw' := encodeAbsSendTime24_toNat hu' (by omega) (by omega)
    have hnext : (u + 256000000) / 1000000 = u / 1000000 + 256 := by omega
    have hseconds : (u + 256000000) / 1000000 % 256 = u / 1000000 % 256 := by
      rw [hnext, Int.add_emod_right]
    have hrest : (u + 256000000) % 1000000 = u % 1000000 := by omega
    rw [hseconds, hrest, ← hraw] at hraw'
    exact UInt32.toNat_inj.1 (Int.ofNat_inj.1 hraw')

theorem absSendTime_accurate_wrap :
    decodeAbsSendTime24 (encodeAbsSendTime24 300000015 0) = 44000000
      ∧ encodeAbsSendTime24 556000015 0 = encodeAbsSendTime24 300000015 0 :=
  ⟨by decide +kernel,
    (absSendTime_accurate (u := 300000015) (by decide) (by decide) (by decide)).2 556000015 0
      (by decide)⟩

end NimRtc.Rtp
