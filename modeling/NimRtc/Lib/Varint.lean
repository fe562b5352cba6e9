import Mathlib

/-!
# Integers of variable width

The two top bits of the first byte give the width of an integer, one, two, four or eight bytes, and
the other bits its value from the most significant on. The encodings are prefix free, so `decode`
finds one at the front of any bytes that follow it.
-/

namespace NimRtc

namespace Varint

/-- The width that a first byte announces. -/
def width (lead : UInt8) : ℕ := 2 ^ (lead.toNat / 64)

/-- The value of the bytes of one integer. -/
def value : List UInt8 → ℕ
  | [] => 0
  | lead :: rest => rest.foldl (fun v b => v * 256 + b.toNat) (lead.toNat % 64)

/-- `bytes` is an encoding of `v`, of any width. -/
def Encodes (bytes : List UInt8) (v : ℕ) : Prop :=
  ∃ lead rest, bytes = lead :: rest ∧ bytes.length = width lead ∧ value bytes = v

/-- The first integer of some bytes, and what follows it; nothing if they end before it does. -/
def decode : List UInt8 → Option (ℕ × List UInt8)
  | [] => none
  | lead :: rest =>
    if (lead :: rest).length < width lead then none
    else some (value ((lead :: rest).take (width lead)), (lead :: rest).drop (width lead))

theorem width_pos (lead : UInt8) : 0 < width lead := Nat.two_pow_pos _

theorem decode_append_of_encodes {bytes rest : List UInt8} {v : ℕ} (h : Encodes bytes v) :
    decode (bytes ++ rest) = some (v, rest) := by
  obtain ⟨lead, tail, rfl, hlen, rfl⟩ := h
  have hwide : ¬ (lead :: (tail ++ rest)).length < width lead := by
    rw [← hlen, List.length_cons, List.length_append, List.length_cons]
    omega
  rw [List.cons_append, decode, if_neg hwide, ← List.cons_append, ← hlen, List.take_left,
    List.drop_left]

theorem encodes_of_decode {bytes rest : List UInt8} {v : ℕ} (h : decode bytes = some (v, rest)) :
    ∃ enc, Encodes enc v ∧ bytes = enc ++ rest := by
  cases bytes with
  | nil => cases h
  | cons lead tail =>
    rw [decode] at h
    split_ifs at h with hwide
    obtain ⟨rfl, rfl⟩ := Prod.mk.inj (Option.some.inj h)
    refine ⟨(lead :: tail).take (width lead), ⟨lead, tail.take (width lead - 1), ?_, ?_, rfl⟩,
      (List.take_append_drop _ _).symm⟩
    · obtain ⟨n, hn⟩ := Nat.exists_eq_succ_of_ne_zero (width_pos lead).ne'
      rw [hn, List.take_succ_cons, Nat.succ_sub_one]
    · rw [List.length_take]
      omega

/-- What follows an integer does not change it. -/
theorem decode_append {bytes rest : List UInt8} {v : ℕ} (h : decode bytes = some (v, rest))
    (more : List UInt8) : decode (bytes ++ more) = some (v, rest ++ more) := by
  obtain ⟨enc, henc, rfl⟩ := encodes_of_decode h
  rw [List.append_assoc]
  exact decode_append_of_encodes henc

theorem length_lt_of_decode {bytes rest : List UInt8} {v : ℕ} (h : decode bytes = some (v, rest)) :
    rest.length < bytes.length := by
  obtain ⟨enc, ⟨lead, tail, rfl, -, -⟩, rfl⟩ := encodes_of_decode h
  rw [List.length_append, List.length_cons]
  omega

end Varint

end NimRtc
