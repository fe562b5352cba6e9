import NimRtc.Proofs.QpackFields

/-!
# The prefix of a field section

The Required Insert Count is sent modulo twice the number of entries that the table can hold, so it is
found again in a window around the decoder's own count. The Base is sent as its distance from it, with
a sign in the top bit of the byte that the distance starts in: the decoder takes the next bit for the
sign, which the distance itself sets from 64 on.
-/

namespace NimRtc.Qpack

/-! ### The Required Insert Count -/

/-- How many entries the largest table can hold. -/
def maxEntries : ℕ := kMaxTableCapacity / kEntryOverhead

/-- The Required Insert Count on the wire. -/
def encodedInsertCount (requiredInsertCount : ℕ) : ℕ :=
  if requiredInsertCount = 0 then 0 else requiredInsertCount % (2 * maxEntries) + 1

theorem maxEntries_eq : maxEntries = 128 := rfl

theorem encodedInsertCount_le (r : ℕ) : encodedInsertCount r ≤ 256 := by
  rw [encodedInsertCount, maxEntries_eq]
  split <;> omega

/-- A count in the window is found again. -/
theorem requiredInsertCount_encoded {t : DynamicTable} {r : ℕ}
    (hcount : t.insertCount + maxEntries < 2 ^ 64) (hr : 1 ≤ r)
    (hlow : t.insertCount < r + maxEntries) (hhigh : r ≤ t.insertCount + maxEntries) :
    t.requiredInsertCount (encodedInsertCount r) = some r := by
  rw [maxEntries_eq] at hcount hlow hhigh
  have hM : kMaxTableCapacity / kEntryOverhead = 128 := rfl
  simp only [encodedInsertCount, DynamicTable.requiredInsertCount, maxEntries_eq, hM,
    if_neg (show ¬ r = 0 by omega), Nat.mod_eq_of_lt hcount]
  rw [if_neg (by omega), if_neg (by omega)]
  split_ifs with hwrapped hfirst hzero hzero
  · omega
  · omega
  · exact congrArg some (by omega)
  · omega
  · exact congrArg some (by omega)

/-- What is not refused lies in the window, and is what was sent modulo twice the entries. -/
theorem requiredInsertCount_window {t : DynamicTable} {enc r : ℕ}
    (hcount : t.insertCount + maxEntries < 2 ^ 64) (henc : enc ≠ 0)
    (h : t.requiredInsertCount enc = some r) :
    t.insertCount < r + maxEntries ∧ r ≤ t.insertCount + maxEntries
      ∧ r % (2 * maxEntries) = enc - 1 := by
  have hM : kMaxTableCapacity / kEntryOverhead = 128 := rfl
  rw [maxEntries_eq] at hcount ⊢
  simp only [DynamicTable.requiredInsertCount, hM, if_neg henc, Nat.mod_eq_of_lt hcount] at h
  split_ifs at h with hlarge hwrapped hfirst hzero hzero <;>
    obtain rfl := Option.some.inj h <;> omega

/-- Within the window the count is found again, and nothing but 0 is decoded to a count outside. -/
theorem requiredInsertCount_exact (t : DynamicTable)
    (hcount : t.insertCount + maxEntries < 2 ^ 64) :
    (∀ r, 1 ≤ r → t.insertCount < r + maxEntries → r ≤ t.insertCount + maxEntries →
        t.requiredInsertCount (r % (2 * maxEntries) + 1) = some r)
      ∧ t.requiredInsertCount 0 = some 0
      ∧ ∀ enc r, enc ≠ 0 → t.requiredInsertCount enc = some r →
        t.insertCount < r + maxEntries ∧ r ≤ t.insertCount + maxEntries := by
  refine ⟨fun r hr hlow hhigh => ?_, rfl, fun enc r henc h => ?_⟩
  · have hexact := requiredInsertCount_encoded hcount hr hlow hhigh
    rwa [encodedInsertCount, if_neg (by omega)] at hexact
  · obtain ⟨hlow, hhigh, -⟩ := requiredInsertCount_window hcount henc h
    exact ⟨hlow, hhigh⟩

-- the count has just passed a multiple of 256, and the one that is sent has not
theorem requiredInsertCount_exact_wrapped :
    ({ insertCount := 257 } : DynamicTable).requiredInsertCount (250 % (2 * maxEntries) + 1)
      = some 250 :=
  (requiredInsertCount_exact { insertCount := 257 } (by decide)).1 250 (by decide) (by decide) (by decide)

-- a table that has seen 128 insertions: 0 is decoded to 0, which is not in the window
theorem zero_outside_window :
    ({ insertCount := 128 } : DynamicTable).requiredInsertCount 0 = some 0
      ∧ ¬ 128 < 0 + maxEntries := by
  decide

/-! ### The Base -/

/-- The prefix of a section: the sign is set if the Base is below the Required Insert Count. -/
def encodeSectionPrefix (requiredInsertCount base : ℕ) : List UInt8 :=
  encodePrefixedInt 8 0 (encodedInsertCount requiredInsertCount)
    ++ if requiredInsertCount ≤ base then encodePrefixedInt 7 0 (base - requiredInsertCount)
      else encodePrefixedInt 7 0x80 (requiredInsertCount - base - 1)

/-- Ten bytes of seven bits each are too many. -/
theorem decodeRest_encodeRest_of_large (mask : ℕ) (data : List UInt8) :
    ∀ (rest extra shift : ℕ), 7 ∣ shift → shift ≤ 56 → 2 ^ (63 - shift) ≤ rest →
      decodeRest mask extra shift (encodeRest rest ++ data) = none
  | rest, extra, shift, hgroup, hshift, hrest => by
    have hlast : ¬ rest < 128 := by
      have : 2 ^ 7 ≤ 2 ^ (63 - shift) := Nat.pow_le_pow_right (by omega) (by omega)
      omega
    have hmore : ∀ r < 128, UInt8.ofNat (r + 128) &&& 0x80 ≠ 0 := by decide
    rw [encodeRest, if_neg hlast, List.cons_append, decodeRest]
    simp only [if_neg (hmore (rest % 128) (Nat.mod_lt _ (by omega)))]
    split_ifs with hlong
    · rfl
    · have hpow : 2 ^ (63 - shift) = 2 ^ (63 - (shift + 7)) * 128 := by
        rw [← Nat.pow_add 2 _ 7]
        congr 1
        omega
      exact decodeRest_encodeRest_of_large mask data (rest / 128) _ (shift + 7) (by omega) (by omega)
        ((Nat.le_div_iff_mul_le (by omega)).2 (hpow ▸ hrest))

theorem decodePrefixedInt_encode_of_large {bits flags : ℕ} (h : Flags bits flags) {value : ℕ}
    (hvalue : 2 ^ 63 + (2 ^ bits - 1) ≤ value) (data : List UInt8) :
    decodePrefixedInt bits (encodePrefixedInt bits flags value ++ data) = none := by
  have hpos : 0 < 2 ^ bits := Nat.two_pow_pos bits
  have hbits : ¬ (bits = 0 ∨ 8 < bits) := by
    have := h.bits_pos
    have := h.bits_le
    omega
  rw [encodePrefixedInt, if_neg (by omega), List.cons_append, decodePrefixedInt, if_neg hbits]
  simp only [or_and_mask h (show 2 ^ bits - 1 < 2 ^ bits by omega), lt_irrefl, if_false]
  exact decodeRest_encodeRest_of_large _ _ _ 0 0 (dvd_zero 7) (by omega) (by simpa using by omega)

/-- The bit that is taken for the sign is set by a distance from 64 on, and by no sign. -/
theorem sign_eq {flags : ℕ} (hflags : flags = 0 ∨ flags = 0x80) (deltaBase : ℕ) :
    UInt8.ofNat (flags ||| min deltaBase (2 ^ 7 - 1)) &&& 0x40 ≠ 0 ↔ 64 ≤ deltaBase := by
  have hbit : ∀ v < 128, (UInt8.ofNat (0 ||| v) &&& 0x40 ≠ 0 ↔ 64 ≤ v)
      ∧ (UInt8.ofNat (0x80 ||| v) &&& 0x40 ≠ 0 ↔ 64 ≤ v) := by
    decide
  obtain ⟨hclear, hset⟩ := hbit (min deltaBase (2 ^ 7 - 1)) (by omega)
  rcases hflags with rfl | rfl
  · rw [hclear]
    omega
  · rw [hset]
    omega

/-- The decoder on a count and a distance, whatever its sign. -/
theorem decodeSectionPrefix_eq (t : DynamicTable) {enc flags : ℕ} (henc : enc ≤ 256)
    (hflags : flags = 0 ∨ flags = 0x80) (deltaBase : ℕ) (rest : List UInt8) :
    t.decodeSectionPrefix
        (encodePrefixedInt 8 0 enc ++ (encodePrefixedInt 7 flags deltaBase ++ rest))
      = (decodePrefixedInt 7 (encodePrefixedInt 7 flags deltaBase ++ rest)).bind fun p =>
        (t.requiredInsertCount enc).bind fun r =>
          if 64 ≤ deltaBase then if r ≤ p.1 then none else some (r - p.1 - 1, p.2)
          else some ((r + p.1) % 2 ^ 64, p.2) := by
  obtain ⟨tail, hhead⟩ := encodePrefixedInt_eq_cons 7 flags deltaBase
  rw [DynamicTable.decodeSectionPrefix,
    decodePrefixedInt_encode (show Flags 8 0 by decide) (by omega : enc < 2 ^ 63 + (2 ^ 8 - 1))]
  rw [hhead, List.cons_append]
  simp only [Option.bind_eq_bind, Option.bind_some, sign_eq hflags]

theorem flags_sign {flags : ℕ} (hflags : flags = 0 ∨ flags = 0x80) : Flags 7 flags := by
  rcases hflags with rfl | rfl <;> decide

/-- What the decoder makes of a distance that it can read. -/
theorem decodeSectionPrefix_encode (t : DynamicTable) {enc flags : ℕ} (henc : enc ≤ 256)
    (hflags : flags = 0 ∨ flags = 0x80) {deltaBase : ℕ} (hdelta : deltaBase < 2 ^ 63 + 127)
    (rest : List UInt8) :
    t.decodeSectionPrefix
        (encodePrefixedInt 8 0 enc ++ (encodePrefixedInt 7 flags deltaBase ++ rest))
      = (t.requiredInsertCount enc).bind fun r =>
        if 64 ≤ deltaBase then if r ≤ deltaBase then none else some (r - deltaBase - 1, rest)
        else some ((r + deltaBase) % 2 ^ 64, rest) := by
  rw [decodeSectionPrefix_eq t henc hflags,
    decodePrefixedInt_encode (flags_sign hflags) hdelta rest, Option.bind_some]

theorem decodeSectionPrefix_of_large (t : DynamicTable) {enc flags : ℕ} (henc : enc ≤ 256)
    (hflags : flags = 0 ∨ flags = 0x80) {deltaBase : ℕ} (hdelta : 2 ^ 63 + 127 ≤ deltaBase)
    (rest : List UInt8) :
    t.decodeSectionPrefix
      (encodePrefixedInt 8 0 enc ++ (encodePrefixedInt 7 flags deltaBase ++ rest)) = none := by
  rw [decodeSectionPrefix_eq t henc hflags,
    decodePrefixedInt_encode_of_large (flags_sign hflags) hdelta rest, Option.bind_none]

/-- Whatever count the decoder takes, it is what was sent modulo 256, and if it is what was sent then
that is 0 or in the window. -/
theorem decoded_count {t : DynamicTable} {r r' : ℕ}
    (hcount : t.insertCount + maxEntries < 2 ^ 64)
    (h : t.requiredInsertCount (encodedInsertCount r) = some r') :
    r' % 256 = r % 256 ∧ r' ≤ t.insertCount + maxEntries
      ∧ (r' = r → r = 0 ∨ t.insertCount < r + maxEntries ∧ r ≤ t.insertCount + maxEntries) := by
  rw [encodedInsertCount] at h
  split_ifs at h with hzero
  · obtain rfl : 0 = r' := Option.some.inj h
    exact ⟨by omega, Nat.zero_le _, fun _ => .inl hzero⟩
  · obtain ⟨hlow, hhigh, hmod⟩ := requiredInsertCount_window hcount (Nat.succ_ne_zero _) h
    rw [maxEntries_eq] at hmod
    refine ⟨by omega, hhigh, ?_⟩
    rintro rfl
    exact .inr ⟨hlow, hhigh⟩

theorem requiredInsertCount_of_window {t : DynamicTable} {r : ℕ}
    (hcount : t.insertCount + maxEntries < 2 ^ 64)
    (h : r = 0 ∨ t.insertCount < r + maxEntries ∧ r ≤ t.insertCount + maxEntries) :
    t.requiredInsertCount (encodedInsertCount r) = some r := by
  rcases Nat.eq_zero_or_pos r with rfl | hr
  · rfl
  · rcases h with rfl | ⟨hlow, hhigh⟩
    · rfl
    · exact requiredInsertCount_encoded hcount hr hlow hhigh

/-- The Base is decoded if the count is, and if the distance sets the bit that is taken for the sign
just when the sign is set. -/
theorem base_exact_iff (t : DynamicTable) (r base : ℕ) (rest : List UInt8)
    (hcount : t.insertCount + maxEntries < 2 ^ 64) (hbase : base < 2 ^ 64) :
    t.decodeSectionPrefix (encodeSectionPrefix r base ++ rest) = some (base, rest) ↔
      (r = 0 ∨ t.insertCount < r + maxEntries ∧ r ≤ t.insertCount + maxEntries)
        ∧ (r ≤ base ∧ base - r < 64
          ∨ base < r ∧ 64 ≤ r - base - 1 ∧ r - base - 1 < 2 ^ 63 + 127) := by
  have henc := encodedInsertCount_le r
  rw [encodeSectionPrefix, List.append_assoc]
  constructor
  · intro h
    split_ifs at h with hsign
    · rcases Nat.lt_or_ge (base - r) (2 ^ 63 + 127) with hsmall | hlarge
      · rw [decodeSectionPrefix_encode t henc (.inl rfl) hsmall] at h
        obtain ⟨r', hr', h⟩ := Option.bind_eq_some_iff.1 h
        obtain ⟨hmod, hle, hwindow⟩ := decoded_count hcount hr'
        split_ifs at h with hbit hneg
        -- the distance is taken for a negative one, which differs from it by an odd number
        · obtain ⟨heq, -⟩ := Prod.mk.inj (Option.some.inj h)
          omega
        · obtain ⟨heq, -⟩ := Prod.mk.inj (Option.some.inj h)
          exact ⟨hwindow (by omega), by omega⟩
      · rw [decodeSectionPrefix_of_large t henc (.inl rfl) hlarge] at h
        cases h
    · rcases Nat.lt_or_ge (r - base - 1) (2 ^ 63 + 127) with hsmall | hlarge
      · rw [decodeSectionPrefix_encode t henc (.inr rfl) hsmall] at h
        obtain ⟨r', hr', h⟩ := Option.bind_eq_some_iff.1 h
        obtain ⟨hmod, hle, hwindow⟩ := decoded_count hcount hr'
        split_ifs at h with hbit hneg
        · obtain ⟨heq, -⟩ := Prod.mk.inj (Option.some.inj h)
          exact ⟨hwindow (by omega), by omega⟩
        · obtain ⟨heq, -⟩ := Prod.mk.inj (Option.some.inj h)
          omega
      · rw [decodeSectionPrefix_of_large t henc (.inr rfl) hlarge] at h
        cases h
  · rintro ⟨hwindow, ⟨hsign, hdelta⟩ | ⟨hsign, hdelta, hsmall⟩⟩
    · rw [if_pos hsign, decodeSectionPrefix_encode t henc (.inl rfl) (by omega),
        requiredInsertCount_of_window hcount hwindow, Option.bind_some, if_neg (by omega),
        Nat.mod_eq_of_lt (by omega)]
      exact congrArg (fun b => some (b, rest)) (by omega)
    · rw [if_neg (by omega), decodeSectionPrefix_encode t henc (.inr rfl) hsmall,
        requiredInsertCount_of_window hcount hwindow, Option.bind_some, if_pos hdelta, if_neg (by omega)]
      exact congrArg (fun b => some (b, rest)) (by omega)

-- five insertions, all of them required, and the Base two above them
theorem base_exact_iff_five :
    ({ insertCount := 5 } : DynamicTable).decodeSectionPrefix (encodeSectionPrefix 5 7 ++ [])
      = some (7, []) :=
  (base_exact_iff { insertCount := 5 } 5 7 [] (by decide) (by decide)).2 (by decide)

-- three below them: the sign is not seen, and the distance is added
theorem negative_base_added :
    ({ insertCount := 5 } : DynamicTable).decodeSectionPrefix (encodeSectionPrefix 5 2 ++ [])
      = some (7, []) := by
  decide

end NimRtc.Qpack
