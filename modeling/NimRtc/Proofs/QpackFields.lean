import NimRtc.Qpack

/-!
# Field sections are decoded back

A field line starts with flags that tell the representations apart, and the low bits of its first
byte hold the start of a number. The number and the strings are read back in front of any bytes, so
the lines are decoded one after the other.
-/

namespace NimRtc.Qpack

/-! ### Numbers -/

/-- The groups of seven bits that follow are added above the ones that were read. -/
theorem decodeRest_encodeRest (mask : ℕ) (data : List UInt8) : ∀ (rest extra shift : ℕ),
    extra < 2 ^ shift → 7 ∣ shift → rest * 2 ^ shift < 2 ^ 63 →
    decodeRest mask extra shift (encodeRest rest ++ data)
      = some (mask + (extra + rest * 2 ^ shift), data)
  | rest, extra, shift, hextra, hgroup, hrest => by
    rw [encodeRest]
    split_ifs with hlast
    · have hbyte : ∀ r < 128, UInt8.ofNat r &&& 0x80 = 0 ∧ (UInt8.ofNat r &&& 0x7F).toNat = r := by
        decide
      obtain ⟨hend, hvalue⟩ := hbyte rest hlast
      rw [List.singleton_append, decodeRest, if_pos hend, hvalue, Nat.or_comm,
        ← Nat.shiftLeft_add_eq_or_of_lt hextra, Nat.shiftLeft_eq, Nat.add_comm extra]
    · have hbyte : ∀ r < 128, UInt8.ofNat (r + 128) &&& 0x80 ≠ 0
          ∧ (UInt8.ofNat (r + 128) &&& 0x7F).toNat = r := by
        decide
      obtain ⟨hmore, hvalue⟩ := hbyte (rest % 128) (Nat.mod_lt _ (by omega))
      have hpow : 2 ^ (shift + 7) = 2 ^ shift * 128 := Nat.pow_add 2 shift 7
      have hshift : shift + 7 < 63 := by
        refine (Nat.pow_lt_pow_iff_right (by omega : 1 < 2)).1 ?_
        rw [hpow, Nat.mul_comm]
        exact (Nat.mul_le_mul_right _ (not_lt.1 hlast)).trans_lt hrest
      have hsum : extra ||| (rest % 128) <<< shift = extra + rest % 128 * 2 ^ shift := by
        rw [Nat.or_comm, ← Nat.shiftLeft_add_eq_or_of_lt hextra, Nat.shiftLeft_eq, Nat.add_comm]
      have hsplit : rest / 128 * 2 ^ (shift + 7) + rest % 128 * 2 ^ shift = rest * 2 ^ shift := by
        rw [hpow, Nat.mul_comm (2 ^ shift), ← Nat.mul_assoc, ← Nat.add_mul, Nat.div_add_mod']
      have hlow : extra + rest % 128 * 2 ^ shift < 2 ^ (shift + 7) := by
        have hle : rest % 128 * 2 ^ shift ≤ 127 * 2 ^ shift :=
          Nat.mul_le_mul_right _ (by omega)
        rw [hpow]
        omega
      rw [List.cons_append, decodeRest]
      simp only [hvalue, hsum]
      rw [if_neg hmore, if_neg (by omega),
        decodeRest_encodeRest mask data (rest / 128) _ (shift + 7) hlow (by omega) (by omega),
        ← hsplit]
      congr 2
      omega

/-- What an encoded number starts with: its flags stay above the prefix. -/
structure Flags (bits flags : ℕ) : Prop where
  bits_pos : bits ≠ 0
  bits_le : bits ≤ 8
  flags_lt : flags < 256
  low : flags % 2 ^ bits = 0

instance decidableFlags (bits flags : ℕ) : Decidable (Flags bits flags) :=
  decidable_of_iff (bits ≠ 0 ∧ bits ≤ 8 ∧ flags < 256 ∧ flags % 2 ^ bits = 0)
    ⟨fun ⟨hpos, hle, hlt, hlow⟩ => ⟨hpos, hle, hlt, hlow⟩,
      fun h => ⟨h.bits_pos, h.bits_le, h.flags_lt, h.low⟩⟩

theorem or_and_mask {bits flags value : ℕ} (h : Flags bits flags) (hvalue : value < 2 ^ bits) :
    (UInt8.ofNat (flags ||| value)).toNat &&& (2 ^ bits - 1) = value := by
  have hfull : 2 ^ bits ≤ 2 ^ 8 := Nat.pow_le_pow_right (by omega) h.bits_le
  have hbyte : flags ||| value < 2 ^ 8 := Nat.or_lt_two_pow h.flags_lt (hvalue.trans_le hfull)
  rw [UInt8.toNat_ofNat_of_lt' hbyte, Nat.and_two_pow_sub_one_eq_mod, Nat.or_mod_two_pow, h.low,
    Nat.zero_or, Nat.mod_eq_of_lt hvalue]

theorem decodePrefixedInt_encode {bits flags : ℕ} (h : Flags bits flags) {value : ℕ}
    (hvalue : value < 2 ^ 63 + (2 ^ bits - 1)) (data : List UInt8) :
    decodePrefixedInt bits (encodePrefixedInt bits flags value ++ data) = some (value, data) := by
  have hpos : 0 < 2 ^ bits := Nat.two_pow_pos bits
  have hbits : ¬ (bits = 0 ∨ 8 < bits) := by
    have := h.bits_pos
    have := h.bits_le
    omega
  rw [encodePrefixedInt]
  split_ifs with hshort
  · rw [List.singleton_append, decodePrefixedInt, if_neg hbits]
    simp only [or_and_mask h (show value < 2 ^ bits by omega), if_pos hshort]
  · rw [List.cons_append, decodePrefixedInt, if_neg hbits]
    simp only [or_and_mask h (show 2 ^ bits - 1 < 2 ^ bits by omega), lt_irrefl, if_false]
    rw [decodeRest_encodeRest _ _ _ 0 0 (by simp) (dvd_zero 7) (by omega)]
    congr 2
    omega

/-! ### Strings -/

theorem encodePrefixedInt_eq_cons (bits flags value : ℕ) :
    ∃ tail, encodePrefixedInt bits flags value
      = UInt8.ofNat (flags ||| min value (2 ^ bits - 1)) :: tail := by
  rw [encodePrefixedInt]
  split_ifs with hshort
  · exact ⟨[], by rw [min_eq_left hshort.le]⟩
  · exact ⟨encodeRest (value - (2 ^ bits - 1)), by rw [min_eq_right (not_lt.1 hshort)]⟩

theorem head_encodePrefixedInt (bits flags value : ℕ) :
    ∃ v ≤ 2 ^ bits - 1, ∃ tail, encodePrefixedInt bits flags value
      = UInt8.ofNat (flags ||| v) :: tail :=
  ⟨_, min_le_right _ _, encodePrefixedInt_eq_cons bits flags value⟩

/-- A plain string is read back: its Huffman flag is clear. -/
theorem decodeString_plain {bits flags : ℕ} (hbits : bits = 3 ∨ bits = 7)
    (h : Flags bits flags)
    (hclear : ∀ v < 2 ^ bits, (UInt8.ofNat (flags ||| v)).toNat &&& 2 ^ bits = 0)
    {value : List UInt8} (hvalue : value.length < 2 ^ 56) (data : List UInt8) :
    decodeString (bits + 1) (encodePrefixedInt bits flags value.length ++ (value ++ data))
      = some (value, data) := by
  have hread := decodePrefixedInt_encode h (show value.length < _ by omega) (value ++ data)
  obtain ⟨v, hv, tail, hhead⟩ := head_encodePrefixedInt bits flags value.length
  have hpos : 0 < 2 ^ bits := Nat.two_pow_pos bits
  rw [hhead, List.cons_append] at hread ⊢
  rw [decodeString, if_neg (by omega)]
  simp only [Nat.add_sub_cancel, hread, hclear v (by omega), if_true, List.take_left, List.drop_left]
  rw [if_neg (by rw [List.length_append]; omega)]

theorem decodeString_literal {value : List UInt8} (hvalue : value.length < 2 ^ 56)
    (data : List UInt8) : decodeString 8 (encodeStringLiteral value ++ data) = some (value, data) := by
  rw [encodeStringLiteral, List.append_assoc]
  exact decodeString_plain (.inr rfl) (by decide) (by decide) hvalue data

/-! ### Field lines -/

theorem kStaticTable_of_findIdx {p : StaticEntry → Bool} {i : ℕ}
    (h : kStaticTable.findIdx? p = some i) :
    ∃ e, kStaticTable[i]? = some e ∧ p e = true ∧ i < 2 ^ 56 := by
  obtain ⟨hlt, hp, -⟩ := List.findIdx?_eq_some_iff_getElem.1 h
  have hsize : kStaticTable.length = 99 := rfl
  exact ⟨_, List.getElem?_eq_getElem hlt, hp, by omega⟩

/-- A field line is decoded back in front of any bytes. -/
theorem decodeFieldLine_encodeField (t : DynamicTable) (base : ℕ) {field : QpackHeaderField}
    (hname : field.name.length < 2 ^ 56) (hvalue : field.value.length < 2 ^ 56)
    (data : List UInt8) :
    t.decodeFieldLine base (encodeField field ++ data) = some (field, data) := by
  rw [encodeField]
  cases hexact : findStaticEntry field.name field.value with
  | some i =>
    obtain ⟨e, he, hp, hi⟩ := kStaticTable_of_findIdx hexact
    obtain ⟨hn, hv⟩ := of_decide_eq_true hp
    have hread := decodePrefixedInt_encode (show Flags 6 0xC0 by decide) (hi.trans (by decide)) data
    obtain ⟨v, hlt, tail, hhead⟩ := head_encodePrefixedInt 6 0xC0 i
    have hflags : ∀ v < 64, UInt8.ofNat (0xC0 ||| v) &&& 0x80 ≠ 0
        ∧ UInt8.ofNat (0xC0 ||| v) &&& 0x40 ≠ 0 := by
      decide
    obtain ⟨hline, hstatic⟩ := hflags v (by omega)
    simp only [hhead, List.cons_append] at hread ⊢
    rw [DynamicTable.decodeFieldLine, if_pos hline, hread]
    simp only [Option.bind_eq_bind, Option.bind_some, if_pos hstatic, he, ← hn, ← hv]
  | none =>
    cases hnameOnly : findStaticName field.name with
    | some i =>
      obtain ⟨e, he, hp, hi⟩ := kStaticTable_of_findIdx hnameOnly
      have hn := of_decide_eq_true hp
      have hread := decodePrefixedInt_encode (show Flags 4 0x50 by decide) (hi.trans (by decide))
        (encodeStringLiteral field.value ++ data)
      obtain ⟨v, hlt, tail, hhead⟩ := head_encodePrefixedInt 4 0x50 i
      have hflags : ∀ v < 16, ¬ UInt8.ofNat (0x50 ||| v) &&& 0x80 ≠ 0
          ∧ UInt8.ofNat (0x50 ||| v) &&& 0xC0 = 0x40 ∧ UInt8.ofNat (0x50 ||| v) &&& 0x10 ≠ 0 := by
        decide
      obtain ⟨hline, hkind, hstatic⟩ := hflags v (by omega)
      simp only [hhead, List.cons_append, List.append_assoc] at hread ⊢
      rw [DynamicTable.decodeFieldLine, if_neg hline, if_pos hkind, hread]
      simp only [Option.bind_eq_bind, Option.bind_some, DynamicTable.lineName, decide_eq_true hstatic,
        if_true, he, Option.map_some, ← hn, decodeString_literal hvalue]
    | none =>
      have hread := decodeString_plain (.inl rfl) (show Flags 3 0x20 by decide) (by decide) hname
        (encodeStringLiteral field.value ++ data)
      obtain ⟨v, hlt, tail, hhead⟩ := head_encodePrefixedInt 3 0x20 field.name.length
      have hflags : ∀ v < 8, ¬ UInt8.ofNat (0x20 ||| v) &&& 0x80 ≠ 0
          ∧ ¬ UInt8.ofNat (0x20 ||| v) &&& 0xC0 = 0x40 ∧ UInt8.ofNat (0x20 ||| v) &&& 0xE0 = 0x20 := by
        decide
      obtain ⟨hline, hkind, hliteral⟩ := hflags v (by omega)
      simp only [hhead, List.cons_append, List.append_assoc] at hread ⊢
      rw [DynamicTable.decodeFieldLine, if_neg hline, if_neg hkind, if_pos hliteral, hread]
      simp only [Option.bind_eq_bind, Option.bind_some, decodeString_literal hvalue]

theorem encodeField_ne_nil (field : QpackHeaderField) : encodeField field ≠ [] := by
  have hsome : ∀ bits flags value, encodePrefixedInt bits flags value ≠ [] := by
    intro bits flags value
    obtain ⟨v, -, tail, hhead⟩ := head_encodePrefixedInt bits flags value
    rw [hhead]
    exact List.cons_ne_nil _ _
  rw [encodeField]
  split
  · exact hsome _ _ _
  · split <;> simp [hsome]

theorem decodeFieldLines_flatMap (t : DynamicTable) (base : ℕ) :
    ∀ (fields out : List QpackHeaderField) (n : ℕ),
      (∀ f ∈ fields, f.name.length < 2 ^ 56 ∧ f.value.length < 2 ^ 56) →
      (fields.flatMap encodeField).length ≤ n →
      t.decodeFieldLines base n out (fields.flatMap encodeField) = (true, out ++ fields)
  | [], out, n, _, _ => by
    rw [List.flatMap_nil, DynamicTable.decodeFieldLines, List.append_nil]
  | field :: fields, out, n, hshort, hn => by
    obtain ⟨hname, hvalue⟩ := hshort field List.mem_cons_self
    have hline := decodeFieldLine_encodeField t base hname hvalue (fields.flatMap encodeField)
    obtain ⟨b, tail, hb⟩ := List.exists_cons_of_ne_nil (encodeField_ne_nil field)
    rw [List.flatMap_cons] at hn ⊢
    rw [hb, List.cons_append] at hn hline ⊢
    cases n with
    | zero => simp at hn
    | succ n =>
      have ih := decodeFieldLines_flatMap t base fields (out ++ [field]) n
        (fun f hf => hshort f (List.mem_cons_of_mem _ hf)) (by simp at hn ⊢; omega)
      rw [DynamicTable.decodeFieldLines, hline]
      simp only [ih, List.append_assoc, List.singleton_append]

/-- Encoding succeeds, and a decoder in any state decodes the same fields, in order. -/
theorem decode_encodeFieldSection (fields : List QpackHeaderField) (d : QpackDecoder)
    (hshort : ∀ f ∈ fields, f.name.length < 2 ^ 56 ∧ f.value.length < 2 ^ 56) :
    (encodeFieldSection fields).1 = true
      ∧ d.decode (encodeFieldSection fields).2 = (true, fields) := by
  refine ⟨rfl, ?_⟩
  have hsection : d.table.decodeSectionPrefix (encodeFieldSection fields).2
      = some (0, fields.flatMap encodeField) := rfl
  rw [QpackDecoder.decode, hsection]
  simp only [decodeFieldLines_flatMap d.table 0 fields [] _ hshort (le_refl _), List.nil_append]

-- `:method` with `CONNECT`, and a field that is not in the static table
theorem decode_encodeFieldSection_method :
    QpackDecoder.decode {} (encodeFieldSection
      [⟨[58, 109, 101, 116, 104, 111, 100], [67, 79, 78, 78, 69, 67, 84]⟩, ⟨[1, 2], [3]⟩]).2
      = (true, [⟨[58, 109, 101, 116, 104, 111, 100], [67, 79, 78, 78, 69, 67, 84]⟩,
        ⟨[1, 2], [3]⟩]) :=
  (decode_encodeFieldSection _ {} (by decide)).2

end NimRtc.Qpack
