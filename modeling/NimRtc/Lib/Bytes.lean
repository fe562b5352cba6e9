import Mathlib

/-!
# Bytes of numbers
-/

namespace NimRtc

/-- Bytes can be checked one by one. -/
theorem forall_uint8 {P : UInt8 → Prop}
    (h : ∀ hi < 16, ∀ lo < 16, P (UInt8.ofNat (16 * hi + lo))) (b : UInt8) : P b := by
  have hlt := b.toNat_lt
  have hb := h (b.toNat / 16) (by omega) (b.toNat % 16) (by omega)
  rwa [Nat.div_add_mod, UInt8.ofNat_toNat] at hb

/-- The byte of `n` at little-endian position `k`. -/
def byteAt (n k : ℕ) : UInt8 := UInt8.ofNat (n / 256 ^ k % 256)

/-- The little-endian number of some bytes. -/
def fromBytes : List UInt8 → ℕ
  | [] => 0
  | b :: bs => b.toNat + 256 * fromBytes bs

/-- Two bytes hold a number modulo `2^16`. -/
theorem fromBytes_two_mod (n : ℕ) : fromBytes [byteAt n 0, byteAt n 1] = n % 2 ^ 16 := by
  simp only [fromBytes, byteAt, UInt8.toNat_ofNat']
  omega

/-! ### Big-endian numbers -/

/-- The low `w` bytes of a number, from the most significant on. -/
def beBytes : ℕ → ℕ → List UInt8
  | 0, _ => []
  | w + 1, n => byteAt n w :: beBytes w n

/-- The number whose bytes these are, from the most significant on. -/
def beNat : List UInt8 → ℕ
  | [] => 0
  | b :: bs => b.toNat * 256 ^ bs.length + beNat bs

@[simp] theorem length_beBytes : ∀ w n, (beBytes w n).length = w
  | 0, _ => rfl
  | w + 1, n => by rw [beBytes, List.length_cons, length_beBytes]

/-- The bytes hold a number modulo a power of 256. -/
theorem beNat_beBytes : ∀ w n, beNat (beBytes w n) = n % 256 ^ w
  | 0, n => by rw [beBytes, beNat, Nat.pow_zero, Nat.mod_one]
  | w + 1, n => by
    have hbyte : (byteAt n w).toNat = n / 256 ^ w % 256 := by
      simp only [byteAt, UInt8.toNat_ofNat']
      omega
    rw [beBytes, beNat, length_beBytes, beNat_beBytes, hbyte, Nat.pow_succ, Nat.mod_mul,
      Nat.mul_comm, Nat.add_comm]

theorem byteAt_mod {n k w : ℕ} (h : k < w) : byteAt (n % 256 ^ w) k = byteAt n k := by
  have hpow : 256 ^ w = 256 ^ k * (256 * 256 ^ (w - k - 1)) := by
    rw [← Nat.pow_succ', ← Nat.pow_add]
    congr 1
    omega
  rw [byteAt, byteAt, hpow, Nat.mod_mul_right_div_self, Nat.mod_mul_right_mod]

theorem beBytes_mod {w : ℕ} (n : ℕ) : ∀ k ≤ w, beBytes k (n % 256 ^ w) = beBytes k n
  | 0, _ => rfl
  | k + 1, h => by rw [beBytes, beBytes, byteAt_mod (by omega), beBytes_mod n k (by omega)]

/-- The bytes of a number are those of its high part and then those of its low part. -/
theorem beBytes_add (m n : ℕ) : ∀ k, beBytes (k + m) n = beBytes k (n / 256 ^ m) ++ beBytes m n
  | 0 => by simp [beBytes]
  | k + 1 => by
    have hbyte : byteAt n (k + m) = byteAt (n / 256 ^ m) k := by
      rw [byteAt, byteAt, Nat.div_div_eq_div_mul, ← Nat.pow_add, Nat.add_comm m k]
    rw [Nat.add_right_comm, beBytes, beBytes, hbyte, beBytes_add m n k, List.cons_append]

theorem beNat_lt : ∀ bs : List UInt8, beNat bs < 256 ^ bs.length
  | [] => by simp [beNat]
  | b :: bs => by
    have hlow := beNat_lt bs
    have hbyte : b.toNat < 256 := b.toNat_lt
    have hhigh := Nat.mul_le_mul_right (256 ^ bs.length) (Nat.le_of_lt_succ hbyte)
    rw [beNat, List.length_cons, Nat.pow_succ]
    omega

/-- A number has the bytes it was read from. -/
theorem beBytes_beNat : ∀ bs : List UInt8, beBytes bs.length (beNat bs) = bs
  | [] => rfl
  | b :: bs => by
    have hlow := beNat_lt bs
    have hpos : 0 < 256 ^ bs.length := Nat.pow_pos (by omega)
    have hdiv : beNat (b :: bs) / 256 ^ bs.length = b.toNat := by
      rw [beNat, Nat.mul_comm, Nat.mul_add_div hpos, Nat.div_eq_of_lt hlow, Nat.add_zero]
    have hmod : beNat (b :: bs) % 256 ^ bs.length = beNat bs := by
      rw [beNat, Nat.mul_comm, Nat.mul_add_mod, Nat.mod_eq_of_lt hlow]
    have hbyte : byteAt (beNat (b :: bs)) bs.length = b := by
      rw [byteAt, hdiv, Nat.mod_eq_of_lt b.toNat_lt, UInt8.ofNat_toNat]
    rw [List.length_cons, beBytes, hbyte, ← beBytes_mod (beNat (b :: bs)) bs.length (le_refl _), hmod,
      beBytes_beNat]

/-- What stands between two parts is read at the place where the first one ends. -/
theorem take_drop_append {α : Type*} {pre mid : List α} {n w : ℕ} (post : List α)
    (hn : pre.length = n) (hw : mid.length = w) :
    ((pre ++ (mid ++ post)).drop n).take w = mid := by
  rw [List.drop_left' hn, List.take_left' hw]

/-- Items that take `w` bytes each are read back one by one. -/
theorem decode_flatMap {α β : Type*} {w : ℕ} {enc : α → List UInt8} {dec : List UInt8 → ℕ → β}
    {g : α → β} {P : α → Prop} (henc : ∀ a, (enc a).length = w)
    (hdec : ∀ pre a post, P a → dec (pre ++ (enc a ++ post)) pre.length = g a)
    (post : List UInt8) : ∀ (as : List α) (pre : List UInt8), (∀ a ∈ as, P a) →
      (List.range as.length).map
          (fun i => dec (pre ++ (as.flatMap enc ++ post)) (pre.length + i * w)) = as.map g
  | [], _, _ => rfl
  | a :: as, pre, hok => by
    have hbytes : pre ++ ((a :: as).flatMap enc ++ post)
        = (pre ++ enc a) ++ (as.flatMap enc ++ post) := by
      rw [List.flatMap_cons, List.append_assoc, List.append_assoc]
    have hfirst := hdec pre a (as.flatMap enc ++ post) (hok a List.mem_cons_self)
    have hrest := decode_flatMap henc hdec post as (pre ++ enc a)
      fun a ha => hok a (List.mem_cons_of_mem _ ha)
    rw [hbytes, List.length_cons, List.range_succ_eq_map, List.map_cons, List.map_map,
      List.map_cons]
    congr 1
    · rw [Nat.zero_mul, Nat.add_zero, List.append_assoc]
      exact hfirst
    · refine Eq.trans (List.map_congr_left fun i _ => ?_) hrest
      rw [Function.comp_apply, List.length_append, henc]
      congr 1
      rw [Nat.succ_mul]
      omega

theorem length_flatMap_of_length {α : Type*} {w : ℕ} {enc : α → List UInt8}
    (henc : ∀ a, (enc a).length = w) (as : List α) : (as.flatMap enc).length = as.length * w := by
  induction as with
  | nil => simp
  | cons a as ih => rw [List.flatMap_cons, List.length_append, henc, ih, List.length_cons, Nat.succ_mul,
      Nat.add_comm]

theorem take_drop_add {α : Type*} (l : List α) (i m n : ℕ) :
    (l.drop i).take (m + n) = (l.drop i).take m ++ (l.drop (i + m)).take n := by
  rw [List.take_add, List.drop_drop]

/-- Items of `w` bytes that are written as they were read give the bytes back. -/
theorem encode_range {β : Type*} {w : ℕ} {enc : β → List UInt8} {dec : List UInt8 → ℕ → β}
    {bytes : List UInt8}
    (henc : ∀ off, off + w ≤ bytes.length → enc (dec bytes off) = (bytes.drop off).take w) (off : ℕ) :
    ∀ n, off + n * w ≤ bytes.length →
      ((List.range n).map fun i => dec bytes (off + i * w)).flatMap enc
        = (bytes.drop off).take (n * w)
  | 0, _ => by simp
  | n + 1, h => by
    rw [Nat.succ_mul] at h
    rw [List.range_succ, List.map_append, List.flatMap_append, encode_range henc off n (by omega),
      List.map_singleton, List.flatMap_singleton, henc _ (by omega), Nat.succ_mul, take_drop_add]

end NimRtc
