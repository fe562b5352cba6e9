import NimRtc.Proofs.QpackChunks
import NimRtc.Proofs.QpackFields

/-!
# Numbers at a cursor

`decode_prefixed_int` takes the bytes that are left and the value by reference and writes them only
where it returns true. So a call that meets the end inside a number leaves the cursor in front of
it, and can be made again once more bytes have arrived.
-/

namespace NimRtc.Qpack

/-- What a call returns and what its two references hold after it. -/
structure PrefixedInt where
  ok : Bool
  data : List UInt8
  value : ℕ
  deriving DecidableEq, Repr

/-- The loop of `decode_prefixed_int` from byte `i` on, in 64 bits. -/
def decodePrefixedIntLoop (data : List UInt8) (value mask extra shift i : ℕ) : PrefixedInt :=
  if h : i < data.length then
    let b := data[i]
    let extra := extra ||| (b &&& 0x7F).toNat <<< shift % 2 ^ 64
    if b &&& 0x80 = 0 then
      { ok := true, data := data.drop (i + 1), value := (mask + extra) % 2 ^ 64 }
    else if 56 < shift + 7 then { ok := false, data, value }
    else decodePrefixedIntLoop data value mask extra (shift + 7) (i + 1)
  else { ok := false, data, value }
termination_by data.length - i

def decodePrefixedIntAt (data : List UInt8) (bits value : ℕ) : PrefixedInt :=
  if bits = 0 ∨ 8 < bits then { ok := false, data, value }
  else
    match data with
    | [] => { ok := false, data, value }
    | first :: _ =>
      let mask := 2 ^ bits - 1
      let val := first.toNat &&& mask
      if val < mask then { ok := true, data := data.drop 1, value := val }
      else decodePrefixedIntLoop data value mask 0 0 1

/-! ### What it decodes -/

/-- The references as they are after a number, or as they were before the call. -/
def PrefixedInt.ofDecoded (data : List UInt8) (value : ℕ) :
    Option (ℕ × List UInt8) → PrefixedInt
  | some (v, rest) => { ok := true, data := rest, value := v }
  | none => { ok := false, data, value }

/-- Nine groups of seven bits do not reach the 64th bit. -/
theorem group_lt {extra shift : ℕ} (hextra : extra < 2 ^ shift) (hshift : shift ≤ 56) (b : UInt8) :
    (b &&& 0x7F).toNat <<< shift % 2 ^ 64 = (b &&& 0x7F).toNat <<< shift
      ∧ extra ||| (b &&& 0x7F).toNat <<< shift < 2 ^ (shift + 7) := by
  have hseven : (b &&& 0x7F).toNat < 2 ^ 7 := by
    rw [UInt8.toNat_and]
    exact Nat.and_lt_two_pow _ (by decide)
  have hgroup : (b &&& 0x7F).toNat <<< shift < 2 ^ (shift + 7) := by
    rw [Nat.shiftLeft_eq, Nat.add_comm, Nat.pow_add]
    exact Nat.mul_lt_mul_of_pos_right hseven (Nat.two_pow_pos shift)
  have hfull : 2 ^ (shift + 7) ≤ 2 ^ 64 := Nat.pow_le_pow_right (by omega) (by omega)
  have hlow : extra < 2 ^ (shift + 7) :=
    hextra.trans_le (Nat.pow_le_pow_right (by omega) (by omega))
  exact ⟨Nat.mod_eq_of_lt (hgroup.trans_le hfull), Nat.or_lt_two_pow hlow hgroup⟩

theorem decodePrefixedIntLoop_eq {mask : ℕ} (hmask : mask < 2 ^ 8) (data : List UInt8) (value : ℕ)
    (extra shift i : ℕ) (hextra : extra < 2 ^ shift) (hshift : shift ≤ 56) :
    decodePrefixedIntLoop data value mask extra shift i
      = .ofDecoded data value (decodeRest mask extra shift (data.drop i)) := by
  rw [decodePrefixedIntLoop]
  by_cases hi : i < data.length
  · obtain ⟨hwrap, hlt⟩ := group_lt hextra hshift data[i]
    have hsum : 2 ^ (shift + 7) ≤ 2 ^ 63 := Nat.pow_le_pow_right (by omega) (by omega)
    rw [dif_pos hi, List.drop_eq_getElem_cons hi, decodeRest]
    simp only [hwrap]
    split_ifs with hend hlong
    · rw [Nat.mod_eq_of_lt (by omega)]
      rfl
    · rfl
    · exact decodePrefixedIntLoop_eq hmask data value _ _ _ hlt (by omega)
  · rw [dif_neg hi, List.drop_eq_nil_iff.2 (not_lt.1 hi), decodeRest]
    rfl
termination_by data.length - i

theorem decodePrefixedIntAt_eq (data : List UInt8) (bits value : ℕ) :
    decodePrefixedIntAt data bits value = .ofDecoded data value (decodePrefixedInt bits data) := by
  unfold decodePrefixedIntAt decodePrefixedInt
  split_ifs with hbits
  · rfl
  · cases data with
    | nil => rfl
    | cons first rest =>
      have hpow : 2 ^ bits ≤ 2 ^ 8 := Nat.pow_le_pow_right (by omega) (by omega)
      have hpos := Nat.two_pow_pos bits
      simp only
      split_ifs with hshort
      · rfl
      · exact decodePrefixedIntLoop_eq (by omega) _ value 0 0 1 (by simp) (by omega)

/-- A number that ends inside some bytes does not take any after them, so one that was cut off is
none. -/
theorem decodePrefixedInt_cut {bits value : ℕ} {encoded data : List UInt8}
    (h : decodePrefixedInt bits encoded = some (value, [])) (hcut : data <+: encoded)
    (hproper : data ≠ encoded) : decodePrefixedInt bits data = none := by
  obtain ⟨more, rfl⟩ := hcut
  cases hdata : decodePrefixedInt bits data with
  | none => rfl
  | some r =>
    obtain ⟨v, rest⟩ := r
    rw [(decodePrefixedInt_append more hdata).1] at h
    obtain ⟨-, hnil⟩ := Prod.mk.inj (Option.some.inj h)
    rw [(List.append_eq_nil_iff.1 hnil).2, List.append_nil] at hproper
    exact absurd rfl hproper

/-- An encoded number is read off the front of the bytes at the cursor; cut off anywhere, it leaves
the cursor and the value as they were. -/
theorem decodePrefixedIntAt_encodePrefixedInt {bits flags value : ℕ} (hflags : Flags bits flags)
    (hvalue : value < 2 ^ 62) (before : ℕ) :
    (∀ data, decodePrefixedIntAt (encodePrefixedInt bits flags value ++ data) bits before
        = { ok := true, data, value })
      ∧ ∀ data, data <+: encodePrefixedInt bits flags value →
          data ≠ encodePrefixedInt bits flags value →
          decodePrefixedIntAt data bits before = { ok := false, data, value := before } := by
  have hread := decodePrefixedInt_encode hflags (show value < 2 ^ 63 + (2 ^ bits - 1) by omega)
  constructor
  · intro data
    rw [decodePrefixedIntAt_eq, hread data]
    rfl
  · intro data hcut hproper
    have hwhole : decodePrefixedInt bits (encodePrefixedInt bits flags value) = some (value, []) := by
      rw [← hread [], List.append_nil]
    rw [decodePrefixedIntAt_eq, decodePrefixedInt_cut hwhole hcut hproper]
    rfl

theorem decodePrefixedIntAt_1337 :
    decodePrefixedIntAt (encodePrefixedInt 5 0x40 1337 ++ [7]) 5 0
        = { ok := true, data := [7], value := 1337 }
      ∧ decodePrefixedIntAt [0x5F, 0x9A] 5 3 = { ok := false, data := [0x5F, 0x9A], value := 3 } := by
  have hflags : Flags 5 0x40 := by decide
  have hbytes : encodePrefixedInt 5 0x40 1337 = [0x5F, 0x9A, 0x0A] := by
    simp [encodePrefixedInt, encodeRest]
  have hvalue : 1337 < 2 ^ 62 := by decide
  constructor
  · exact (decodePrefixedIntAt_encodePrefixedInt hflags hvalue 0).1 [7]
  · refine (decodePrefixedIntAt_encodePrefixedInt hflags hvalue 3).2 _ ?_ ?_
    · exact ⟨[0x0A], hbytes.symm⟩
    · rw [hbytes]
      decide

end NimRtc.Qpack

/-!
## Field sections that are refused

A field line is added to the output before the next one is looked at, and stays there when that one is
refused. So a refused section leaves the output empty only if it is refused before the second line.
-/

namespace NimRtc.Qpack

/-- All of `rem` is field lines, and none is refused. -/
inductive AllLines (t : DynamicTable) (base : ℕ) : List UInt8 → Prop
  | nil : AllLines t base []
  | line {rem next : List UInt8} {field : QpackHeaderField}
      (hline : t.decodeFieldLine base rem = some (field, next)) (hnext : AllLines t base next) :
      AllLines t base rem

/-- A line takes at least one byte. -/
theorem length_lt_of_line {t : DynamicTable} {base : ℕ} {rem next : List UInt8}
    {field : QpackHeaderField} (h : t.decodeFieldLine base rem = some (field, next)) :
    next.length < rem.length := by
  cases rem with
  | nil => cases h
  | cons b rem =>
    simp only [DynamicTable.decodeFieldLine, Option.bind_eq_bind] at h
    split_ifs at h with hindexed hstatic hname hliteral hpost
    · obtain ⟨⟨index, next₁⟩, hindex, h⟩ := Option.bind_eq_some_iff.1 h
      obtain ⟨e, -, h⟩ := Option.bind_eq_some_iff.1 h
      obtain ⟨-, rfl⟩ := Prod.mk.inj (Option.some.inj h)
      exact (decodePrefixedInt_append [] hindex).2
    · obtain ⟨⟨index, next₁⟩, hindex, h⟩ := Option.bind_eq_some_iff.1 h
      obtain ⟨e, -, h⟩ := Option.bind_eq_some_iff.1 h
      obtain ⟨-, rfl⟩ := Prod.mk.inj (Option.some.inj h)
      exact (decodePrefixedInt_append [] hindex).2
    · obtain ⟨⟨index, next₁⟩, hindex, h⟩ := Option.bind_eq_some_iff.1 h
      obtain ⟨name, -, h⟩ := Option.bind_eq_some_iff.1 h
      obtain ⟨⟨value, next₂⟩, hvalue, h⟩ := Option.bind_eq_some_iff.1 h
      obtain ⟨-, rfl⟩ := Prod.mk.inj (Option.some.inj h)
      exact (decodeString_append [] hvalue).2.trans (decodePrefixedInt_append [] hindex).2
    · obtain ⟨⟨name, next₁⟩, hname, h⟩ := Option.bind_eq_some_iff.1 h
      obtain ⟨⟨value, next₂⟩, hvalue, h⟩ := Option.bind_eq_some_iff.1 h
      obtain ⟨-, rfl⟩ := Prod.mk.inj (Option.some.inj h)
      exact (decodeString_append [] hvalue).2.trans (decodeString_append [] hname).2
    · obtain ⟨⟨index, next₁⟩, hindex, h⟩ := Option.bind_eq_some_iff.1 h
      obtain ⟨e, -, h⟩ := Option.bind_eq_some_iff.1 h
      obtain ⟨-, rfl⟩ := Prod.mk.inj (Option.some.inj h)
      exact (decodePrefixedInt_append [] hindex).2
    · obtain ⟨⟨index, next₁⟩, hindex, h⟩ := Option.bind_eq_some_iff.1 h
      obtain ⟨e, -, h⟩ := Option.bind_eq_some_iff.1 h
      obtain ⟨⟨value, next₂⟩, hvalue, h⟩ := Option.bind_eq_some_iff.1 h
      obtain ⟨-, rfl⟩ := Prod.mk.inj (Option.some.inj h)
      exact (decodeString_append [] hvalue).2.trans (decodePrefixedInt_append [] hindex).2

/-- The lines are read to their end just when none is refused, and the output only grows. -/
theorem decodeFieldLines_spec (t : DynamicTable) (base : ℕ) :
    ∀ (n : ℕ) (out : List QpackHeaderField) (rem : List UInt8), rem.length ≤ n →
      ((t.decodeFieldLines base n out rem).1 = true ↔ AllLines t base rem)
        ∧ ∃ more, (t.decodeFieldLines base n out rem).2 = out ++ more
  | n, out, [], _ => by
    rw [DynamicTable.decodeFieldLines]
    exact ⟨⟨fun _ => .nil, fun _ => rfl⟩, [], (List.append_nil _).symm⟩
  | 0, out, b :: rem, hn => by simp at hn
  | n + 1, out, b :: rem, hn => by
    rw [DynamicTable.decodeFieldLines]
    rcases hline : t.decodeFieldLine base (b :: rem) with _ | ⟨field, next⟩
    · refine ⟨⟨fun h => absurd h Bool.false_ne_true, fun h => ?_⟩, [], (List.append_nil _).symm⟩
      cases h with
      | line hdone hnext =>
        rw [hline] at hdone
        cases hdone
    · have hlt := length_lt_of_line hline
      have hfuel : next.length ≤ n := by
        simp only [List.length_cons] at hn hlt
        omega
      obtain ⟨hall, more, hmore⟩ := decodeFieldLines_spec t base n (out ++ [field]) next hfuel
      refine ⟨hall.trans ⟨fun h => .line hline h, fun h => ?_⟩, field :: more, ?_⟩
      · cases h with
        | line hdone hnext =>
          rw [hline] at hdone
          obtain ⟨-, rfl⟩ := Prod.mk.inj (Option.some.inj hdone)
          exact hnext
      · simp only [hmore, List.append_assoc, List.singleton_append]

/-- A section that is refused leaves nothing in the output just when it is its prefix or its first
line that is refused. -/
theorem refused_empty_iff (d : QpackDecoder) (block : List UInt8) :
    ((d.decode block).1 = false → (d.decode block).2 = []) ↔
      d.table.decodeSectionPrefix block = none
        ∨ ∃ base rem, d.table.decodeSectionPrefix block = some (base, rem)
          ∧ (d.table.decodeFieldLine base rem = none ∨ AllLines d.table base rem) := by
  rw [QpackDecoder.decode]
  rcases hprefix : d.table.decodeSectionPrefix block with _ | ⟨base, rem⟩
  · exact ⟨fun _ => .inl rfl, fun _ _ => rfl⟩
  · have hread : (∃ base' rem', some (base, rem) = some (base', rem')
        ∧ (d.table.decodeFieldLine base' rem' = none ∨ AllLines d.table base' rem'))
        ↔ d.table.decodeFieldLine base rem = none ∨ AllLines d.table base rem := by
      constructor
      · rintro ⟨base', rem', heq, h⟩
        obtain ⟨rfl, rfl⟩ := Prod.mk.inj (Option.some.inj heq)
        exact h
      · exact fun h => ⟨base, rem, rfl, h⟩
    rw [hread]
    simp only [reduceCtorEq, false_or]
    obtain ⟨hall, -⟩ := decodeFieldLines_spec d.table base rem.length [] rem (le_refl _)
    constructor
    · intro hempty
      rcases hline : d.table.decodeFieldLine base rem with _ | ⟨field, next⟩
      · exact .inl rfl
      · -- the first line is in the output, so the section is not refused
        refine .inr (hall.1 ?_)
        by_contra hrefused
        have hout := hempty (Bool.eq_false_iff.2 hrefused)
        have hlt := length_lt_of_line hline
        cases rem with
        | nil => cases hline
        | cons b rem =>
          simp only [List.length_cons, DynamicTable.decodeFieldLines, hline] at hout hlt
          obtain ⟨-, more, hmore⟩ :=
            decodeFieldLines_spec d.table base rem.length ([] ++ [field]) next (by omega)
          rw [hmore] at hout
          simp at hout
    · rintro (hline | hlines) hrefused
      · cases rem with
        | nil => rfl
        | cons b rem =>
          simp only [List.length_cons, DynamicTable.decodeFieldLines, hline]
      · rw [hall.2 hlines] at hrefused
        cases hrefused

-- a literal field line, and one that refers to the empty table
theorem refused_keeps_line :
    QpackDecoder.decode {} [0x00, 0x00, 0x21, 0x61, 0x01, 0x62, 0x80]
      = (false, [⟨[0x61], [0x62]⟩]) := by
  decide

end NimRtc.Qpack
