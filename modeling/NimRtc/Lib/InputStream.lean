import Mathlib

/-!
# Words and numbers of a text

What a formatted reader takes off a text: after white space, a word or the digits of a number. A
stream of the standard library stops reading at the first failure, and what it then reads is left as
it was.
-/

namespace NimRtc

namespace InputStream

def isSpace (c : Char) : Bool :=
  c == ' ' || c == '\t' || c == '\n' || c == '\r' || c.toNat == 11 || c.toNat == 12

/-- The first word, and what follows it. -/
def word (s : List Char) : Option (List Char × List Char) :=
  match s.dropWhile isSpace with
  | [] => none
  | c :: rest =>
    some (c :: rest.takeWhile (!isSpace ·), rest.dropWhile (!isSpace ·))

/-- The digits at the front, and what follows them. -/
def digits (s : List Char) : Option (ℕ × List Char) :=
  if s.takeWhile Char.isDigit = [] then none
  else some (Nat.ofDigitChars 10 (s.takeWhile Char.isDigit) 0, s.dropWhile Char.isDigit)

/-- The first number, which may have a sign, and what follows it. -/
def integer (s : List Char) : Option (ℤ × List Char) :=
  match s.dropWhile isSpace with
  | '-' :: rest => (digits rest).map fun r => (-(r.1 : ℤ), r.2)
  | '+' :: rest => (digits rest).map fun r => ((r.1 : ℤ), r.2)
  | rest => (digits rest).map fun r => ((r.1 : ℤ), r.2)

end InputStream

open InputStream

/-- What is left of a text, and whether an extraction has failed. -/
structure InputStream where
  rest : List Char
  failed : Bool := false
  deriving DecidableEq, Repr

namespace InputStream

/-- `>>` to a string, given what the string was. -/
def readWord (s : InputStream) (old : List Char) : InputStream × List Char :=
  if s.failed then (s, old)
  else
    match word s.rest with
    | none => ({ s with failed := true }, old)
    | some (w, rest) => ({ s with rest }, w)

/-- `>>` to an unsigned integer of some bits. A negative number is that modulo the power of two, a
number with too many digits the largest one, and it is zero if there are no digits. -/
def readUnsigned (s : InputStream) (bits old : ℕ) : InputStream × ℕ :=
  if s.failed then (s, old)
  else if s.rest.dropWhile isSpace = [] then ({ s with failed := true }, old)
  else
    match integer s.rest with
    | none => ({ s with failed := true }, 0)
    | some (n, rest) =>
      if 2 ^ bits ≤ n.natAbs then ({ rest, failed := true }, 2 ^ bits - 1)
      else ({ s with rest }, (n % 2 ^ bits).toNat)

/-- The number that such an extraction gives, if it does not fail. -/
def unsigned (bits : ℕ) (s : List Char) : Option (ℕ × List Char) :=
  (integer s).bind fun r =>
    if 2 ^ bits ≤ r.1.natAbs then none else some ((r.1 % 2 ^ bits).toNat, r.2)

/-- A word as a reader takes it: it is not empty and has no white space. -/
def IsWord (w : List Char) : Prop := w ≠ [] ∧ ∀ c ∈ w, isSpace c = false

variable {w s rest : List Char}

theorem isWord_of_all (hne : w ≠ []) (h : (w.all fun c => !isSpace c) = true) : IsWord w :=
  ⟨hne, fun c hc => by simpa using List.all_eq_true.1 h c hc⟩

theorem isWord_of_word (h : word s = some (w, rest)) : IsWord w := by
  rw [word] at h
  rcases hdrop : s.dropWhile isSpace with _ | ⟨c, tail⟩
  · rw [hdrop] at h
    cases h
  · rw [hdrop] at h
    obtain ⟨rfl, -⟩ := Prod.mk.inj (Option.some.inj h)
    refine ⟨List.cons_ne_nil _ _, fun d hd => ?_⟩
    rcases List.mem_cons.1 hd with rfl | hd
    · have hhead := List.head?_dropWhile_not isSpace s
      rw [hdrop] at hhead
      exact hhead
    · simpa using List.mem_takeWhile_imp hd

/-- A word is read up to a space or the end. -/
theorem word_append (hw : IsWord w) (hrest : rest = [] ∨ ∃ tail, rest = ' ' :: tail) :
    word (w ++ rest) = some (w, rest) := by
  obtain ⟨c, tail, rfl⟩ := List.exists_cons_of_ne_nil hw.1
  have hc : isSpace c = false := hw.2 c List.mem_cons_self
  have htail : ∀ d ∈ tail, (!isSpace d) = true := fun d hd => by
    rw [hw.2 d (List.mem_cons_of_mem _ hd)]
    rfl
  have hstop : rest.takeWhile (!isSpace ·) = [] ∧ rest.dropWhile (!isSpace ·) = rest := by
    rcases hrest with rfl | ⟨tail, rfl⟩
    · exact ⟨rfl, rfl⟩
    · exact ⟨rfl, rfl⟩
  rw [List.cons_append, word, List.dropWhile_cons_of_neg (by simp [hc])]
  simp only
  rw [List.takeWhile_append_of_pos htail, List.dropWhile_append_of_pos htail, hstop.1, hstop.2,
    List.append_nil]

theorem word_space : word (' ' :: s) = word s := rfl

theorem isSpace_of_isDigit {c : Char} (h : c.isDigit = true) : isSpace c = false := by
  have hrange : 48 ≤ c.toNat ∧ c.toNat ≤ 57 := Char.isDigit_iff_toNat.1 h
  have hne : ∀ d : Char, d.toNat < 48 → (c == d) = false := by
    intro d hd
    rw [beq_eq_false_iff_ne]
    rintro rfl
    omega
  have hvt : (c.toNat == 11) = false := beq_eq_false_iff_ne.2 (by omega)
  have hff : (c.toNat == 12) = false := beq_eq_false_iff_ne.2 (by omega)
  rw [isSpace, hne _ (by decide), hne _ (by decide), hne _ (by decide), hne _ (by decide), hvt, hff]
  rfl

theorem digits_append {n : ℕ} (hrest : ∀ c tail, rest = c :: tail → c.isDigit = false) :
    digits (Nat.toDigits 10 n ++ rest) = some (n, rest) := by
  have hall : ∀ c ∈ Nat.toDigits 10 n, c.isDigit = true := fun c hc =>
    Nat.isDigit_of_mem_toDigits (by decide) (by decide) hc
  have hstop : rest.takeWhile Char.isDigit = [] ∧ rest.dropWhile Char.isDigit = rest := by
    rcases rest with _ | ⟨c, tail⟩
    · exact ⟨rfl, rfl⟩
    · have hc := hrest c tail rfl
      exact ⟨List.takeWhile_cons_of_neg (by simp [hc]), List.dropWhile_cons_of_neg (by simp [hc])⟩
  rw [digits, List.takeWhile_append_of_pos hall, List.dropWhile_append_of_pos hall, hstop.1, hstop.2,
    List.append_nil, if_neg Nat.toDigits_ne_nil, Nat.ofDigitChars_ten_toDigits]

/-- A number that was written is read up to what is not a digit. -/
theorem integer_append {n : ℕ} (hrest : ∀ c tail, rest = c :: tail → c.isDigit = false) :
    integer (Nat.toDigits 10 n ++ rest) = some ((n : ℤ), rest) := by
  obtain ⟨c, tail, hcons⟩ := List.exists_cons_of_ne_nil (Nat.toDigits_ne_nil (n := n) (b := 10))
  have hc : c.isDigit = true :=
    Nat.isDigit_of_mem_toDigits (b := 10) (by decide) (by decide)
      (hcons ▸ List.mem_cons_self : c ∈ Nat.toDigits 10 n)
  have hdigits := digits_append (n := n) hrest
  rw [hcons, List.cons_append] at hdigits ⊢
  have hspace : isSpace c = false := isSpace_of_isDigit hc
  rw [integer, List.dropWhile_cons_of_neg (by simp [hspace])]
  split
  · rename_i heq
    obtain ⟨rfl, -⟩ := List.cons.inj heq
    cases hc
  · rename_i heq
    obtain ⟨rfl, -⟩ := List.cons.inj heq
    cases hc
  · rw [hdigits]
    rfl

section Unsigned

variable {bits n : ℕ}

theorem unsigned_space : unsigned bits (' ' :: s) = unsigned bits s := rfl

theorem unsigned_append (h : n < 2 ^ bits)
    (hrest : ∀ c tail, rest = c :: tail → c.isDigit = false) :
    unsigned bits (Nat.toDigits 10 n ++ rest) = some (n, rest) := by
  have hfits : ¬ 2 ^ bits ≤ (n : ℤ).natAbs := Nat.not_le.2 h
  have hmod : ((n : ℤ) % 2 ^ bits).toNat = n := by
    have hcast : ((2 : ℤ) ^ bits) = ((2 ^ bits : ℕ) : ℤ) := by norm_cast
    rw [hcast, ← Int.natCast_mod, Int.toNat_natCast, Nat.mod_eq_of_lt h]
  rw [unsigned, integer_append hrest, Option.bind_some]
  simp only [if_neg hfits, hmod]

theorem of_unsigned (h : unsigned bits s = some (n, rest)) :
    ∃ m, integer s = some (m, rest) ∧ m.natAbs < 2 ^ bits ∧ n = (m % 2 ^ bits).toNat := by
  obtain ⟨⟨m, rest'⟩, hinteger, heq⟩ := Option.bind_eq_some_iff.1 h
  simp only at heq
  split_ifs at heq with hlarge
  obtain ⟨rfl, rfl⟩ := Prod.mk.inj (Option.some.inj heq)
  exact ⟨m, hinteger, Nat.lt_of_not_le hlarge, rfl⟩

end Unsigned

/-! ### The stream -/

section Stream

variable {old : List Char} {bits n : ℕ}

theorem readWord_failed {iss : InputStream} (h : iss.failed = true) :
    iss.readWord old = (iss, old) := if_pos h

theorem readUnsigned_failed {iss : InputStream} (h : iss.failed = true) :
    iss.readUnsigned bits n = (iss, n) := if_pos h

theorem readWord_of_some (h : word s = some (w, rest)) :
    readWord { rest := s } old = ({ rest }, w) := by
  simp only [readWord, h, Bool.false_eq_true, if_false]

theorem readWord_of_none (h : word s = none) :
    readWord { rest := s } old = ({ rest := s, failed := true }, old) := by
  simp only [readWord, h, Bool.false_eq_true, if_false]

theorem integer_of_dropWhile (h : s.dropWhile isSpace = []) : integer s = none := by
  rw [integer, h]
  rfl

theorem readUnsigned_of_some {v : ℕ} (h : unsigned bits s = some (v, rest)) :
    readUnsigned { rest := s } bits n = ({ rest }, v) := by
  obtain ⟨m, hinteger, hfits, rfl⟩ := of_unsigned h
  have hne : s.dropWhile isSpace ≠ [] := by
    intro hnil
    rw [integer_of_dropWhile hnil] at hinteger
    cases hinteger
  simp only [readUnsigned, Bool.false_eq_true, if_false, if_neg hne, hinteger,
    if_neg (Nat.not_le.2 hfits)]

theorem readUnsigned_of_none (h : unsigned bits s = none) :
    (readUnsigned { rest := s } bits n).1.failed = true := by
  unfold readUnsigned
  rw [if_neg Bool.false_ne_true]
  by_cases hnil : s.dropWhile isSpace = []
  · rw [if_pos hnil]
  rw [if_neg hnil]
  rcases hinteger : integer s with _ | ⟨m, rest⟩
  · rfl
  · simp only
    by_cases hlarge : 2 ^ bits ≤ m.natAbs
    · rw [if_pos hlarge]
    · rw [unsigned, hinteger, Option.bind_some] at h
      simp only [if_neg hlarge] at h
      cases h

/-- Into a zero, an extraction gives a number or zero. -/
theorem readUnsigned_zero :
    (readUnsigned { rest := s } bits 0).2 = match integer s with
      | none => 0
      | some (m, _) => if 2 ^ bits ≤ m.natAbs then 2 ^ bits - 1 else (m % 2 ^ bits).toNat := by
  unfold readUnsigned
  rw [if_neg Bool.false_ne_true]
  by_cases hnil : s.dropWhile isSpace = []
  · rw [if_pos hnil, integer_of_dropWhile hnil]
  rw [if_neg hnil]
  rcases integer s with _ | ⟨m, rest⟩
  · rfl
  · simp only
    split_ifs <;> rfl

end Stream

end InputStream

end NimRtc
