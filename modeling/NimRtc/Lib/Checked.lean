import NimRtc.Lib.Buffer
import NimRtc.Lib.Bytes

/-!
# Arrays with bounds

Programs over arrays that stop at an access outside of them, and over sizes that stop at a
subtraction that would wrap around. What stopped a program is what it fails with, so a program that
does not fail stays inside its arrays.
-/

namespace NimRtc

namespace Checked

universe u v

variable {ε : Type u} {α β : Type v}

theorem ok_bind (x : α) (f : α → Except ε β) : (Except.ok x >>= f) = f x := rfl

theorem error_bind (fault : ε) (f : α → Except ε β) :
    (Except.error fault >>= f) = .error fault := rfl

theorem pure_eq_ok (x : α) : (pure x : Except ε α) = .ok x := rfl

def get (fault : ε) (xs : List α) (i : ℕ) : Except ε α :=
  match xs[i]? with
  | none => .error fault
  | some x => .ok x

def set (fault : ε) (xs : List α) (i : ℕ) (x : α) : Except ε (List α) :=
  if i < xs.length then .ok (xs.set i x) else .error fault

def sub (fault : ε) (a b : ℕ) : Except ε ℕ := if b ≤ a then .ok (a - b) else .error fault

variable {fault : ε} {xs ys : List α} {i : ℕ} {x y : α}

theorem get_of_getElem? (h : xs[i]? = some x) : get fault xs i = .ok x := by
  rw [get, h]

theorem get_of_lt (h : i < xs.length) : get fault xs i = .ok xs[i] :=
  get_of_getElem? (List.getElem?_eq_getElem h)

/-- The first element that is not written yet. -/
theorem set_append (h : xs.length = i) : set fault (xs ++ x :: ys) i y = .ok (xs ++ y :: ys) := by
  rw [set, if_pos (by rw [List.length_append, List.length_cons]; omega),
    List.set_append_right _ _ h.le, h, Nat.sub_self, List.set_cons_zero]

theorem set_of_le (h : xs.length ≤ i) : set fault xs i x = .error fault := if_neg (by omega)

/-! ### Ranges -/

/-- `n` elements from `off` on are read. -/
def readRange (fault : ε) (xs : List α) (off n : ℕ) : Except ε (List α) :=
  if off + n ≤ xs.length then .ok ((xs.drop off).take n) else .error fault

/-- `data` is written from `off` on. -/
def writeRange (fault : ε) (xs : List α) (off : ℕ) (data : List α) : Except ε (List α) :=
  if off + data.length ≤ xs.length then .ok (Buffer.write xs off data) else .error fault

theorem readRange_of_le {off n : ℕ} (h : off + n ≤ xs.length) :
    readRange fault xs off n = .ok ((xs.drop off).take n) := if_pos h

theorem writeRange_of_le {off : ℕ} (h : off + ys.length ≤ xs.length) :
    writeRange fault xs off ys = .ok (Buffer.write xs off ys) := if_pos h

/-- The elements are written one after the other. -/
def writeAll (fault : ℕ → ε) : List α → ℕ → List α → Except ε (List α)
  | [], _, xs => .ok xs
  | y :: ys, i, xs => do
    let xs ← set (fault i) xs i y
    writeAll fault ys (i + 1) xs

theorem writeAll_of_le {fault : ℕ → ε} : ∀ (ys : List α) (i : ℕ) (xs : List α),
    i + ys.length ≤ xs.length → writeAll fault ys i xs = .ok (Buffer.write xs i ys)
  | [], i, xs, _ => by rw [writeAll, Buffer.write_nil]
  | y :: ys, i, xs, h => by
    rw [List.length_cons] at h
    obtain ⟨pre, x, rest, rfl, rfl⟩ : ∃ pre x rest, xs = pre ++ x :: rest ∧ pre.length = i :=
      ⟨xs.take i, xs[i], xs.drop (i + 1),
        by rw [← List.drop_eq_getElem_cons (show i < xs.length by omega), List.take_append_drop],
        List.length_take_of_le (by omega)⟩
    have hwritten : pre ++ y :: rest = (pre ++ [y]) ++ rest := by simp
    have hnext : (pre ++ [y]).length = pre.length + 1 := by simp
    have hroom : pre.length + 1 + ys.length ≤ (pre ++ y :: rest).length := by
      simp only [List.length_append, List.length_cons] at h ⊢
      omega
    rw [writeAll, set_append rfl, ok_bind, writeAll_of_le ys (pre.length + 1) _ hroom, hwritten,
      Buffer.write_append hnext, Buffer.write_append rfl]
    simp

/-- The number of `n` bytes from `off` on, behind those that were read. -/
def readBe (fault : ℕ → ε) (bytes : List UInt8) : ℕ → ℕ → ℕ → Except ε ℕ
  | 0, _, acc => .ok acc
  | n + 1, off, acc =>
    match get (fault off) bytes off with
    | .error e => .error e
    | .ok b => readBe fault bytes n (off + 1) (acc <<< 8 ||| b.toNat)

theorem shiftLeft_or_byte (acc : ℕ) (b : UInt8) : acc <<< 8 ||| b.toNat = acc * 256 + b.toNat := by
  rw [← Nat.shiftLeft_add_eq_or_of_lt b.toNat_lt, Nat.shiftLeft_eq]

theorem readBe_eq {fault : ℕ → ε} {bytes : List UInt8} : ∀ (n off acc : ℕ), off + n ≤ bytes.length →
    readBe fault bytes n off acc = .ok (acc * 256 ^ n + beNat ((bytes.drop off).take n))
  | 0, off, acc, _ => by simp [readBe, beNat]
  | n + 1, off, acc, h => by
    have hlt : off < bytes.length := by omega
    have hlen : ((bytes.drop (off + 1)).take n).length = n := by
      rw [List.length_take, List.length_drop]
      omega
    rw [readBe, get_of_lt hlt]
    simp only
    rw [readBe_eq n (off + 1) _ (by omega), List.drop_eq_getElem_cons hlt, List.take_succ_cons, beNat,
      hlen, shiftLeft_or_byte, Nat.pow_succ, Nat.add_mul, Nat.mul_assoc, Nat.mul_comm 256,
      Nat.add_assoc]

theorem readBe_field {fault : ℕ → ε} {bytes : List UInt8} {n off : ℕ} (h : off + n ≤ bytes.length) :
    readBe fault bytes n off 0 = .ok (beNat ((bytes.drop off).take n)) := by
  rw [readBe_eq n off 0 h, Nat.zero_mul, Nat.zero_add]

theorem sub_of_le {a b : ℕ} (h : b ≤ a) : sub fault a b = .ok (a - b) := if_pos h

end Checked

end NimRtc
