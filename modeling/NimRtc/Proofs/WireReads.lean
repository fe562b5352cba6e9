import NimRtc.RtpPacket
import NimRtc.Proofs.H264Units

/-!
# Fields at an offset

What is read of a packet at an offset: where a part that was written begins, in front of other bytes,
and in a part that was cut out.
-/

namespace NimRtc.Rtp

/-! ### Where a part begins -/

theorem readBe16_append {pre : List UInt8} {n v : ℕ} (post : List UInt8) (hn : pre.length = n)
    (hv : v < 2 ^ 16) : readBe16 (pre ++ (beBytes 2 v ++ post)) n = UInt16.ofNat v := by
  rw [readBe16, take_drop_append post hn (length_beBytes 2 v), beNat_beBytes,
    Nat.mod_eq_of_lt (show v < 256 ^ 2 by omega)]

theorem readBe32_append {pre : List UInt8} {n : ℕ} (v : UInt32) (post : List UInt8)
    (hn : pre.length = n) : readBe32 (pre ++ (beBytes 4 v.toNat ++ post)) n = v := by
  rw [readBe32, take_drop_append post hn (length_beBytes 4 _), beNat_beBytes,
    Nat.mod_eq_of_lt (show v.toNat < 256 ^ 4 from v.toNat_lt), UInt32.ofNat_toNat]

theorem readBe16_between {raw : List UInt8} (pre : List UInt8) {v : UInt16} {n : ℕ}
    {post : List UInt8} (hraw : raw = pre ++ (beBytes 2 v.toNat ++ post)) (hn : pre.length = n) :
    readBe16 raw n = v := by
  rw [hraw, readBe16_append post hn v.toNat_lt, UInt16.ofNat_toNat]

theorem readBe32_between {raw : List UInt8} (pre : List UInt8) {v : UInt32} {n : ℕ}
    {post : List UInt8} (hraw : raw = pre ++ (beBytes 4 v.toNat ++ post)) (hn : pre.length = n) :
    readBe32 raw n = v := by
  rw [hraw]
  exact readBe32_append v post hn

/-- The byte that follows a part is read where the part ends. -/
theorem getD_between {raw : List UInt8} (pre : List UInt8) {b : UInt8} {n : ℕ} {post : List UInt8}
    (hraw : raw = pre ++ b :: post) (hn : pre.length = n) : raw.getD n 0 = b := by
  rw [hraw, ← hn, List.getD_append_right _ _ _ _ (le_refl _), Nat.sub_self, List.getD_cons_zero]

/-! ### In front of other bytes -/

section Inside

variable {raw : List UInt8} (suffix : List UInt8) {off : ℕ}

theorem take_drop_inside {k : ℕ} (h : off + k ≤ raw.length) :
    ((raw ++ suffix).drop off).take k = (raw.drop off).take k := by
  rw [List.drop_append_of_le_length (by omega), List.take_append_of_le_length]
  rw [List.length_drop]
  omega

theorem readBe16_inside (h : off + 2 ≤ raw.length) : readBe16 (raw ++ suffix) off = readBe16 raw off := by
  rw [readBe16, readBe16, take_drop_inside suffix h]

theorem readBe32_inside (h : off + 4 ≤ raw.length) : readBe32 (raw ++ suffix) off = readBe32 raw off := by
  rw [readBe32, readBe32, take_drop_inside suffix h]

theorem getD_inside (h : off < raw.length) : (raw ++ suffix).getD off 0 = raw.getD off 0 :=
  List.getD_append _ _ _ _ h

end Inside

/-! ### In a part -/

theorem readBe16_drop (raw : List UInt8) (off n : ℕ) :
    readBe16 raw (off + n) = readBe16 (raw.drop off) n := by
  rw [readBe16, readBe16, List.drop_drop]

theorem getD_drop (raw : List UInt8) (off n : ℕ) :
    raw.getD (off + n) 0 = (raw.drop off).getD n 0 := by
  rw [List.getD_eq_getElem?_getD, List.getD_eq_getElem?_getD, List.getElem?_drop]

theorem readBe16_take {raw : List UInt8} {n : ℕ} (h : 4 ≤ n) :
    readBe16 (raw.take n) 2 = readBe16 raw 2 := by
  rw [readBe16, readBe16, List.drop_take, List.take_take, min_eq_left (by omega)]

theorem getD_take {raw : List UInt8} {n : ℕ} (h : 2 ≤ n) : (raw.take n).getD 1 0 = raw.getD 1 0 := by
  rw [List.getD_eq_getElem?_getD, List.getD_eq_getElem?_getD, List.getElem?_take_of_lt (by omega)]

/-! ### Written back -/

theorem beBytes_part {input : List UInt8} {off w : ℕ} (h : off + w ≤ input.length) :
    beNat ((input.drop off).take w) < 256 ^ w
      ∧ beBytes w (beNat ((input.drop off).take w)) = (input.drop off).take w := by
  have hlen : ((input.drop off).take w).length = w := by
    rw [List.length_take, List.length_drop]
    omega
  have hlt := beNat_lt ((input.drop off).take w)
  have hback := beBytes_beNat ((input.drop off).take w)
  rw [hlen] at hlt hback
  exact ⟨hlt, hback⟩

theorem beBytes_readBe16 (input : List UInt8) (off : ℕ) (h : off + 2 ≤ input.length) :
    beBytes 2 (readBe16 input off).toNat = (input.drop off).take 2 := by
  obtain ⟨hlt, hback⟩ := beBytes_part h
  rwa [readBe16, UInt16.toNat_ofNat_of_lt' hlt]

theorem beBytes_readBe32 (input : List UInt8) (off : ℕ) (h : off + 4 ≤ input.length) :
    beBytes 4 (readBe32 input off).toNat = (input.drop off).take 4 := by
  obtain ⟨hlt, hback⟩ := beBytes_part h
  rwa [readBe32, UInt32.toNat_ofNat_of_lt' hlt]

end NimRtc.Rtp
