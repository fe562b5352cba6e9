import NimRtc.AnnexB

/-!
# Where start codes are

What the loops of the scanners find: the first place from which the bytes go on with a start code. The
parser and the walks look for it in the same way, and differ in what they do without one.
-/

namespace NimRtc.AnnexB

open H264

variable {bs : List UInt8} {i j k : ℕ}

def StartCode (l : List UInt8) : Prop := [0, 0, 1] <+: l ∨ [0, 0, 0, 1] <+: l

instance (l : List UInt8) : Decidable (StartCode l) := inferInstanceAs (Decidable (_ ∨ _))

/-- The length of the start code at the front. -/
def startCodeLen (l : List UInt8) : Option ℕ :=
  if [0, 0, 0, 1] <+: l then some 4 else if [0, 0, 1] <+: l then some 3 else none

theorem startCodeLen_eq_none {l : List UInt8} : startCodeLen l = none ↔ ¬ StartCode l := by
  unfold startCodeLen StartCode
  split_ifs with hlong hshort <;> simp [*]

theorem StartCode.length_le {l : List UInt8} (h : StartCode l) : 3 ≤ l.length := by
  rcases h with h | h
  · exact h.length_le
  · exact (Nat.le_succ 3).trans h.length_le

theorem length_of_startCodeLen {l : List UInt8} {n : ℕ} (h : startCodeLen l = some n) :
    3 ≤ n ∧ n ≤ l.length := by
  unfold startCodeLen at h
  split_ifs at h with hlong hshort
  · cases h
    exact ⟨by omega, hlong.length_le⟩
  · cases h
    exact ⟨le_refl 3, hshort.length_le⟩

/-! ### The tests -/

theorem ok_and {b c : Bool} : (Except.ok b <&&> Except.ok c : Except Access Bool) = .ok (b && c) := by
  cases b <;> rfl

theorem ok_or {b c : Bool} : (Except.ok b <||> Except.ok c : Except Access Bool) = .ok (b || c) := by
  cases b <;> rfl

theorem false_and {y : Except Access Bool} : (Except.ok false <&&> y) = .ok false := rfl

theorem byteAt_of_lt (h : i < bs.length) : byteAt bs i = .ok bs[i] := Checked.get_of_lt h

theorem isByte_of_drop {l : List UInt8} {b v : UInt8} (h : bs.drop i = l) (hb : l[k]? = some b) :
    isByte bs (i + k) v = .ok (decide (v = b)) := by
  have hget : bs[i + k]? = some b := by rw [← List.getElem?_drop, h, hb]
  have hbeq : (b == v) = decide (v = b) := by
    rw [← Bool.beq_eq_decide_eq, Bool.beq_comm]
  rw [isByte, byteAt, Checked.get_of_getElem? hget, ← hbeq]
  rfl

theorem exists_drop_three (h : i + 2 < bs.length) : ∃ a b c t, bs.drop i = a :: b :: c :: t := by
  have hlen : (bs.drop i).length = bs.length - i := List.length_drop
  rcases hdrop : bs.drop i with _ | ⟨a, _ | ⟨b, _ | ⟨c, t⟩⟩⟩ <;> rw [hdrop] at hlen <;>
    simp only [List.length_nil, List.length_cons] at hlen
  · omega
  · omega
  · omega
  · exact ⟨a, b, c, t, rfl⟩

theorem isShortCode_eq (h : i + 2 < bs.length) :
    isShortCode bs i = .ok (decide ([0, 0, 1] <+: bs.drop i)) := by
  obtain ⟨a, b, c, t, hdrop⟩ := exists_drop_three h
  have h0 := isByte_of_drop (k := 0) (v := 0) hdrop rfl
  have h1 := isByte_of_drop (k := 1) (v := 0) hdrop rfl
  have h2 := isByte_of_drop (k := 2) (v := 1) hdrop rfl
  rw [Nat.add_zero] at h0
  rw [isShortCode, hdrop, h0, h1, h2]
  simp only [ok_and, List.cons_prefix_cons, List.nil_prefix, and_true, Bool.decide_and]

theorem isLongCode_eq (h : i + 3 < bs.length) :
    isLongCode bs i = .ok (decide ([0, 0, 0, 1] <+: bs.drop i)) := by
  obtain ⟨a, b, c, t, hdrop⟩ := exists_drop_three (Nat.lt_of_succ_lt h)
  have hlen : (bs.drop i).length = bs.length - i := List.length_drop
  rcases t with _ | ⟨d, t⟩
  · rw [hdrop] at hlen
    simp only [List.length_nil, List.length_cons] at hlen
    omega
  have h0 := isByte_of_drop (k := 0) (v := 0) hdrop rfl
  have h1 := isByte_of_drop (k := 1) (v := 0) hdrop rfl
  have h2 := isByte_of_drop (k := 2) (v := 0) hdrop rfl
  have h3 := isByte_of_drop (k := 3) (v := 1) hdrop rfl
  rw [Nat.add_zero] at h0
  rw [isLongCode, hdrop, h0, h1, h2, h3]
  simp only [ok_and, List.cons_prefix_cons, List.nil_prefix, and_true, Bool.decide_and]

/-- Both loops look for a start code, each in its own order. -/
theorem startsAt_eq (h : i + 2 < bs.length) :
    HwBackend.startsAt bs i = .ok (decide (StartCode (bs.drop i)))
      ∧ BitstreamParser.startsAt bs i = .ok (decide (StartCode (bs.drop i))) := by
  obtain ⟨a, b, c, t, hdrop⟩ := exists_drop_three h
  have hlen : (bs.drop i).length = bs.length - i := List.length_drop
  have h0 := isByte_of_drop (k := 0) (v := 0) hdrop rfl
  have h1 := isByte_of_drop (k := 1) (v := 0) hdrop rfl
  have h2 := isByte_of_drop (k := 2) (v := 0) hdrop rfl
  have h2' := isByte_of_drop (k := 2) (v := 1) hdrop rfl
  rw [Nat.add_zero] at h0
  rw [hdrop] at hlen
  rcases t with _ | ⟨d, t⟩
  · have hend : ¬ i + 3 < bs.length := by
      simp only [List.length_nil, List.length_cons] at hlen
      omega
    have hnil : ¬ [(1 : UInt8)] <+: [] := by decide
    simp only [HwBackend.startsAt, BitstreamParser.startsAt, test, h0, h1, h2', h, hend, hdrop, StartCode,
      decide_false, decide_true, false_and, ok_and, ok_or, List.cons_prefix_cons, List.nil_prefix, hnil,
      and_true, and_false, or_false, Bool.or_false, Bool.true_and, Bool.decide_and, Bool.and_assoc]
  · have hmore : i + 3 < bs.length := by
      simp only [List.length_cons] at hlen
      omega
    have h3 := isByte_of_drop (k := 3) (v := 1) hdrop rfl
    simp only [HwBackend.startsAt, BitstreamParser.startsAt, test, h0, h1, h2, h2', h3, h, hmore, hdrop,
      StartCode, decide_true, ok_and, ok_or, List.cons_prefix_cons, List.nil_prefix, and_true,
      Bool.true_and, Bool.decide_and, Bool.decide_or, Bool.and_or_distrib_left, Bool.and_assoc]

theorem startCodeLenAt_eq (bs : List UInt8) (i : ℕ) :
    BitstreamParser.startCodeLenAt bs i = .ok (startCodeLen (bs.drop i)) := by
  have hlen : (bs.drop i).length = bs.length - i := List.length_drop
  have hlong : (test (4 ≤ bs.length - i) <&&> isLongCode bs i)
      = .ok (decide ([0, 0, 0, 1] <+: bs.drop i)) := by
    by_cases h : 4 ≤ bs.length - i
    · rw [isLongCode_eq (by omega), test, ok_and, decide_eq_true h, Bool.true_and]
    · have hnot : ¬ [0, 0, 0, 1] <+: bs.drop i := fun hp => h (hlen ▸ hp.length_le)
      rw [test, decide_eq_false h, false_and, decide_eq_false hnot]
  have hshort : (test (3 ≤ bs.length - i) <&&> isShortCode bs i)
      = .ok (decide ([0, 0, 1] <+: bs.drop i)) := by
    by_cases h : 3 ≤ bs.length - i
    · rw [isShortCode_eq (by omega), test, ok_and, decide_eq_true h, Bool.true_and]
    · have hnot : ¬ [0, 0, 1] <+: bs.drop i := fun hp => h (hlen ▸ hp.length_le)
      rw [test, decide_eq_false h, false_and, decide_eq_false hnot]
  rw [BitstreamParser.startCodeLenAt, hlong, hshort, Checked.ok_bind, startCodeLen]
  simp only [decide_eq_true_eq]
  split_ifs with h1 h2
  · rfl
  · rw [Checked.ok_bind, if_pos (decide_eq_true h2)]
    rfl
  · rw [Checked.ok_bind, if_neg (by simpa using h2)]
    rfl

theorem skipStartCode_eq (bs : List UInt8) :
    HwBackend.skipStartCode bs = .ok (startCodeLen bs) :=
  startCodeLenAt_eq bs 0

/-! ### The loops -/

/-- The first start code from `j` on is at `k`. -/
def FirstCode (bs : List UInt8) (j k : ℕ) : Prop :=
  j ≤ k ∧ StartCode (bs.drop k) ∧ ∀ i, j ≤ i → i < k → ¬ StartCode (bs.drop i)

def NoCode (bs : List UInt8) (j : ℕ) : Prop := ∀ i, j ≤ i → ¬ StartCode (bs.drop i)

theorem FirstCode.unique {k' : ℕ} (h : FirstCode bs j k) (h' : FirstCode bs j k') : k = k' := by
  rcases lt_trichotomy k k' with hlt | rfl | hlt
  · exact absurd h.2.1 (h'.2.2 k h.1 hlt)
  · rfl
  · exact absurd h'.2.1 (h.2.2 k' h'.1 hlt)

theorem FirstCode.not_noCode (h : FirstCode bs j k) : ¬ NoCode bs j := fun hno => hno k h.1 h.2.1

theorem FirstCode.end_le (h : FirstCode bs j k) : k + 3 ≤ bs.length := by
  have hlen := h.2.1.length_le
  rw [List.length_drop] at hlen
  omega

theorem FirstCode.here (h : StartCode (bs.drop j)) : FirstCode bs j j :=
  ⟨le_refl j, h, fun _ hle hlt => absurd hlt (not_lt.2 hle)⟩

theorem FirstCode.next (hj : ¬ StartCode (bs.drop j)) (h : FirstCode bs (j + 1) k) : FirstCode bs j k := by
  refine ⟨(Nat.le_succ j).trans h.1, h.2.1, fun i hle hlt => ?_⟩
  rcases hle.eq_or_lt with rfl | hgt
  · exact hj
  · exact h.2.2 i hgt hlt

theorem NoCode.next (hj : ¬ StartCode (bs.drop j)) (h : NoCode bs (j + 1)) : NoCode bs j := by
  intro i hle
  rcases hle.eq_or_lt with rfl | hgt
  · exact hj
  · exact h i hgt

theorem noCode_of_le (h : bs.length ≤ j + 2) : NoCode bs j := fun i hle hcode => by
  have hlen := hcode.length_le
  rw [List.length_drop] at hlen
  omega

/-- What `find_start_code_at_or_after` finds. -/
theorem findLoop_spec : ∀ (rounds : ℕ) {j : ℕ}, bs.length - j < rounds →
    (∃ k, FirstCode bs j k ∧ BitstreamParser.findLoop bs rounds j = .ok (some k))
      ∨ (NoCode bs j ∧ BitstreamParser.findLoop bs rounds j = .ok none)
  | 0, _, h => absurd h (Nat.not_lt_zero _)
  | rounds + 1, j, h => by
    rw [BitstreamParser.findLoop]
    by_cases hmore : j + 2 < bs.length
    · rw [if_pos hmore, (startsAt_eq hmore).2, Checked.ok_bind]
      by_cases hcode : StartCode (bs.drop j)
      · exact .inl ⟨j, .here hcode, if_pos (decide_eq_true hcode)⟩
      · rw [if_neg (by simpa using hcode)]
        rcases findLoop_spec rounds (j := j + 1) (by omega) with ⟨k, hk, heq⟩ | ⟨hno, heq⟩
        · exact .inl ⟨k, hk.next hcode, heq⟩
        · exact .inr ⟨hno.next hcode, heq⟩
    · exact .inr ⟨noCode_of_le (by omega), if_neg hmore⟩

theorem findStartCodeAtOrAfter_spec (bs : List UInt8) (j : ℕ) :
    (∃ k, FirstCode bs j k ∧ BitstreamParser.findStartCodeAtOrAfter bs j = .ok (some k))
      ∨ (NoCode bs j ∧ BitstreamParser.findStartCodeAtOrAfter bs j = .ok none) := by
  rw [BitstreamParser.findStartCodeAtOrAfter]
  by_cases h : bs.length ≤ j
  · exact .inr ⟨noCode_of_le (by omega), if_pos h⟩
  · rw [if_neg h]
    exact findLoop_spec _ (by omega)

/-- What the loops of the walks find. -/
theorem nextStartCode_spec (bs : List UInt8) : ∀ (rounds : ℕ) {j : ℕ}, bs.length - j < rounds →
    (∃ k, FirstCode bs j k ∧ HwBackend.nextStartCode bs rounds j = .ok k)
      ∨ (NoCode bs j ∧ HwBackend.nextStartCode bs rounds j = .ok (max j (bs.length - 2)))
  | 0, _, h => absurd h (Nat.not_lt_zero _)
  | rounds + 1, j, h => by
    rw [HwBackend.nextStartCode]
    by_cases hmore : j + 2 < bs.length
    · rw [if_pos hmore, (startsAt_eq hmore).1, Checked.ok_bind]
      by_cases hcode : StartCode (bs.drop j)
      · exact .inl ⟨j, .here hcode, if_pos (decide_eq_true hcode)⟩
      · rw [if_neg (by simpa using hcode)]
        rcases nextStartCode_spec bs rounds (j := j + 1) (by omega) with
          ⟨k, hk, heq⟩ | ⟨hno, heq⟩
        · exact .inl ⟨k, hk.next hcode, heq⟩
        · rw [heq, Nat.max_eq_right (show j + 1 ≤ bs.length - 2 by omega),
            Nat.max_eq_right (show j ≤ bs.length - 2 by omega)]
          exact .inr ⟨hno.next hcode, rfl⟩
    · rw [if_neg hmore, Nat.max_eq_left (by omega)]
      exact .inr ⟨noCode_of_le (by omega), rfl⟩

end NimRtc.AnnexB
