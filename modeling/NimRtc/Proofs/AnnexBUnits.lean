import NimRtc.Proofs.AnnexBOutput

/-!
# Reading framed units back

Units that hold no start code, framed with start codes of three or four bytes. Each round of the
parser finds the next start code where it is, but takes a code of three bytes for one of four if the
unit behind it begins with 1. And it begins at the first code of four bytes, if there is one.
-/

namespace NimRtc

inductive StartCode
  | three
  | four
  deriving DecidableEq, Repr

def StartCode.bytes : StartCode → List UInt8
  | three => [0, 0, 1]
  | four => [0, 0, 0, 1]

/-- Units with a start code before each. -/
def annexB (items : List (StartCode × List UInt8)) : List UInt8 :=
  items.flatMap fun x => x.1.bytes ++ x.2

/-- No start code lies in the unit, nor across its end. -/
structure Clean (unit : List UInt8) : Prop where
  zeros : ¬ [0, 0, 0] <:+: unit
  code : ¬ [0, 0, 1] <:+: unit
  last : unit.getLast? ≠ some 0

theorem annexB_cons (c : StartCode) (unit : List UInt8) (items : List (StartCode × List UInt8)) :
    annexB ((c, unit) :: items) = c.bytes ++ (unit ++ annexB items) := by
  rw [annexB, List.flatMap_cons, List.append_assoc]
  rfl

/-! ### The next start code -/

section FindStart

variable {code bs : List UInt8} {pos j : ℕ}

theorem findStart_here (hj : j < bs.length) (h : (bs.drop j).take code.length = code) :
    findStart code bs j = j := by
  obtain ⟨n, hn⟩ : ∃ n, bs.length - j = n + 1 := ⟨bs.length - j - 1, by omega⟩
  rw [findStart, hn, List.range'_succ, List.find?_cons, decide_eq_true h]
  rfl

theorem findStart_end : findStart code bs bs.length = bs.length := by
  rw [findStart, Nat.sub_self]
  rfl

theorem findStart_skip (hpos : pos ≤ j) (hj : j ≤ bs.length)
    (hnone : ∀ i, pos ≤ i → i < j → (bs.drop i).take code.length ≠ code) :
    findStart code bs pos = findStart code bs j := by
  have hrange : List.range' pos (bs.length - pos)
      = List.range' pos (j - pos) ++ List.range' j (bs.length - j) := by
    have happend := @List.range'_append pos (j - pos) (bs.length - j) 1
    rw [Nat.one_mul, Nat.add_sub_cancel' hpos] at happend
    rw [happend]
    congr 1
    omega
  rw [findStart, findStart, hrange, List.find?_append, List.find?_eq_none.2, Option.none_or]
  intro i hi
  rw [List.mem_range'_1] at hi
  rw [decide_eq_true_eq]
  exact hnone i hi.1 (by omega)

/-- Bytes where no code begins are passed over. -/
theorem findStart_append {pre v w : List UInt8}
    (hnone : ∀ v₁ v₂, v = v₁ ++ v₂ → v₂ ≠ [] → (v₂ ++ w).take code.length ≠ code) :
    findStart code (pre ++ (v ++ w)) pre.length
      = findStart code (pre ++ (v ++ w)) (pre ++ v).length := by
  refine findStart_skip (by simp) (by simp) fun i hlow hhigh => ?_
  rw [List.length_append] at hhigh
  have hdrop : (pre ++ (v ++ w)).drop i = v.drop (i - pre.length) ++ w := by
    rw [List.drop_append, List.drop_eq_nil_of_le hlow, List.nil_append,
      List.drop_append_of_le_length (by omega)]
  rw [hdrop]
  refine hnone (v.take (i - pre.length)) _ (List.take_append_drop _ _).symm fun hnil => ?_
  have := List.drop_eq_nil_iff.1 hnil
  omega

end FindStart

namespace Clean

variable {unit : List UInt8}

theorem last_ne_zero (h : Clean unit) {front : List UInt8} {b : UInt8} (hunit : unit = front ++ [b]) :
    b ≠ 0 := by
  rintro rfl
  exact h.last (by rw [hunit, List.getLast?_concat])

theorem inside (h : Clean unit) {front rest : List UInt8} {a b c : UInt8}
    (hunit : unit = front ++ a :: b :: c :: rest) : ¬ (a = 0 ∧ b = 0 ∧ (c = 0 ∨ c = 1)) := by
  have hinfix : [a, b, c] <:+: unit := ⟨front, rest, by rw [hunit]; simp⟩
  rintro ⟨rfl, rfl, rfl | rfl⟩
  · exact h.zeros hinfix
  · exact h.code hinfix

/-- Nowhere in the unit a start code begins, whatever follows it. -/
theorem no_code (h : Clean unit) (w : List UInt8) : ∀ v₁ v₂, unit = v₁ ++ v₂ → v₂ ≠ [] →
    (v₂ ++ w).take 3 ≠ [0, 0, 1] ∧ (v₂ ++ w).take 4 ≠ [0, 0, 0, 1]
  | _, [], _, hsome => absurd rfl hsome
  | v₁, [a], hunit, _ => by
    have ha := h.last_ne_zero hunit
    constructor <;> · intro heq; simp [ha] at heq
  | v₁, [a, b], hunit, _ => by
    have hsplit : unit = (v₁ ++ [a]) ++ [b] := by simp [hunit]
    have hb := h.last_ne_zero hsplit
    constructor <;> · intro heq; simp [hb] at heq
  | v₁, a :: b :: c :: rest, hunit, _ => by
    have hinside := h.inside hunit
    constructor
    · intro heq
      simp only [List.cons_append, List.take_succ_cons, List.take_zero, List.cons.injEq] at heq
      exact hinside ⟨heq.1, heq.2.1, .inr heq.2.2.1⟩
    · intro heq
      simp only [List.cons_append, List.take_succ_cons, List.cons.injEq] at heq
      exact hinside ⟨heq.1, heq.2.1, .inl heq.2.2.1⟩

theorem of_cons {a : UInt8} (h : Clean (a :: unit)) : Clean unit := by
  refine ⟨fun hz => h.zeros (List.infix_cons hz), fun hc => h.code (List.infix_cons hc), ?_⟩
  cases unit with
  | nil => simp
  | cons b rest => simpa using h.last

end Clean

/-! ### A round -/

/-- What is left of a unit when the length of the code before it is taken from the byte after it. -/
def StartCode.kept : StartCode → List UInt8 → List UInt8
  | four, unit => unit
  | three, unit => if unit.head? = some 1 then unit.tail else unit

theorem clean_kept {unit : List UInt8} (h : Clean unit) (c : StartCode) : Clean (c.kept unit) := by
  cases c with
  | four => exact h
  | three =>
    rw [StartCode.kept]
    split_ifs
    · cases unit with
      | nil => exact h
      | cons a rest => exact h.of_cons
    · exact h

/-- The cursor behind a start code. -/
theorem cursor_after (c : StartCode) {pre unit rest bs : List UInt8} (hsome : unit ≠ [])
    (hbs : bs = pre ++ (c.bytes ++ (unit ++ rest))) :
    ∃ skipped, bs = skipped ++ (c.kept unit ++ rest)
      ∧ skipped.length = pre.length + startPrefixLen bs pre.length := by
  obtain ⟨a, body, rfl⟩ := List.exists_cons_of_ne_nil hsome
  have hfourth : bs[pre.length + 3]? = (c.bytes ++ (a :: body ++ rest))[3]? := by
    rw [hbs, List.getElem?_append_right (by omega)]
    congr 1
    omega
  cases c with
  | four =>
    refine ⟨pre ++ [0, 0, 0, 1], by rw [hbs, List.append_assoc]; rfl, ?_⟩
    rw [startPrefixLen, hfourth, if_pos (by rfl), List.length_append]
    rfl
  | three =>
    have hbyte : (StartCode.three.bytes ++ (a :: body ++ rest))[3]? = some a := rfl
    rw [startPrefixLen, hfourth, hbyte, StartCode.kept, List.head?_cons]
    split_ifs with hone
    · refine ⟨pre ++ [0, 0, 1, a], by rw [hbs, List.append_assoc]; rfl, ?_⟩
      rw [List.length_append]
      rfl
    · refine ⟨pre ++ [0, 0, 1], by rw [hbs, List.append_assoc]; rfl, ?_⟩
      rw [List.length_append]
      rfl

section Round

variable {pre unit bs : List UInt8} {later : List (StartCode × List UInt8)}

theorem findNext_clean (h : Clean unit) (hbs : bs = pre ++ (unit ++ annexB later)) :
    findNextStart bs pre.length = findNextStart bs (pre ++ unit).length
      ∧ findNextStart4 bs pre.length = findNextStart4 bs (pre ++ unit).length := by
  rw [hbs]
  exact ⟨findStart_append fun v₁ v₂ hv hsome => (h.no_code _ v₁ v₂ hv hsome).1,
    findStart_append fun v₁ v₂ hv hsome => (h.no_code _ v₁ v₂ hv hsome).2⟩

/-- The next start code is the one behind the unit. -/
theorem next_clean (h : Clean unit) (hbs : bs = pre ++ (unit ++ annexB later)) :
    min (findNextStart4 bs pre.length) (findNextStart bs pre.length) = (pre ++ unit).length := by
  obtain ⟨hthree, hfour⟩ := findNext_clean h hbs
  rw [hthree, hfour]
  rw [← List.append_assoc] at hbs
  generalize pre ++ unit = pre at hbs
  cases later with
  | nil =>
    have hlength : pre.length = bs.length := by rw [hbs, annexB, List.flatMap_nil, List.append_nil]
    rw [hlength, findNextStart4, findNextStart, findStart_end, findStart_end, min_self]
  | cons x later =>
    obtain ⟨c, next⟩ := x
    rw [annexB_cons] at hbs
    have hdrop : bs.drop pre.length = c.bytes ++ (next ++ annexB later) := by
      rw [hbs, List.drop_left]
    have hlength := congrArg List.length hbs
    simp only [List.length_append] at hlength
    have hinside : pre.length ≤ bs.length := by omega
    cases c with
    | four =>
      have hhere : findNextStart4 bs pre.length = pre.length :=
        findStart_here (by simp [StartCode.bytes] at hlength; omega) (by rw [hdrop]; rfl)
      rw [hhere]
      exact min_eq_left (le_findStart _ _ hinside)
    | three =>
      have hhere : findNextStart bs pre.length = pre.length :=
        findStart_here (by simp [StartCode.bytes] at hlength; omega) (by rw [hdrop]; rfl)
      rw [hhere]
      exact min_eq_right (le_findStart _ _ hinside)

end Round

/-! ### All rounds -/

/-- A unit that is left empty is not listed. -/
def listed (unit : List UInt8) : List (List UInt8) := if unit = [] then [] else [unit]

def readUnits (items : List (StartCode × List UInt8)) : List (List UInt8) :=
  items.flatMap fun x => listed (x.1.kept x.2)

theorem readUnits_cons (c : StartCode) (unit : List UInt8) (items : List (StartCode × List UInt8)) :
    readUnits ((c, unit) :: items) = listed (c.kept unit) ++ readUnits items := by
  rw [readUnits, List.flatMap_cons]
  rfl

theorem three_le_bytes (c : StartCode) : 3 ≤ c.bytes.length := by
  cases c <;> decide

theorem annexBFrom_eq {bs : List UInt8} : ∀ (later : List (StartCode × List UInt8))
    {pre unit : List UInt8} {fuel : ℕ}, Clean unit → (∀ x ∈ later, x.2 ≠ [] ∧ Clean x.2) →
    bs = pre ++ (unit ++ annexB later) → bs.length ≤ pre.length + fuel →
    annexBFrom bs fuel pre.length = listed unit ++ readUnits later := by
  intro later
  induction later with
  | nil =>
    intro pre unit fuel h _ hbs hfuel
    have hnext := next_clean h hbs
    have hlength : (pre ++ unit).length = bs.length := by
      rw [hbs, annexB, List.flatMap_nil, List.append_nil]
    have hcut : (bs.drop pre.length).take ((pre ++ unit).length - pre.length) = unit := by
      rw [hbs, List.drop_left, List.length_append, Nat.add_sub_cancel_left, List.take_left]
    rw [List.length_append] at hlength
    rw [readUnits, List.flatMap_nil, List.append_nil, listed]
    cases fuel with
    | zero =>
      rw [annexBFrom, if_pos (List.eq_nil_of_length_eq_zero (by omega))]
    | succ fuel =>
      simp only [annexBFrom, hnext, hcut]
      rw [List.length_append] at hnext ⊢
      by_cases hsome : unit = []
      · rw [if_pos hsome, if_pos (by simp [hsome] at hlength; omega)]
      · have hpos := List.length_pos_iff.2 hsome
        rw [if_neg (by omega), if_pos (by omega), if_pos (by omega), if_neg hsome]
  | cons x later ih =>
    intro pre unit fuel h hlater hbs hfuel
    obtain ⟨c, next⟩ := x
    obtain ⟨hsome, hclean⟩ : next ≠ [] ∧ Clean next := hlater _ List.mem_cons_self
    have hnext := next_clean h hbs
    have hlength := congrArg List.length hbs
    have hthree := three_le_bytes c
    rw [annexB_cons] at hbs hlength
    simp only [List.length_append] at hlength
    have hcut : (bs.drop pre.length).take ((pre ++ unit).length - pre.length) = unit := by
      rw [hbs, List.drop_left, List.length_append, Nat.add_sub_cancel_left, List.take_left]
    rw [← List.append_assoc] at hbs
    obtain ⟨skipped, hrest, hcursor⟩ := cursor_after c hsome hbs
    have hprefix := three_le_startPrefixLen bs (pre ++ unit).length
    rw [List.length_append] at hcursor hprefix hnext
    obtain ⟨fuel, rfl⟩ : ∃ m, fuel = m + 1 := ⟨fuel - 1, by omega⟩
    have hround := ih (clean_kept hclean c) (fun y hy => hlater y (List.mem_cons_of_mem _ hy)) hrest
      (show bs.length ≤ skipped.length + fuel by omega)
    simp only [annexBFrom, hnext]
    rw [List.length_append] at hcut
    rw [if_neg (by omega), if_neg (show ¬ pre.length + unit.length = bs.length by omega), ← hcursor,
      hround, hcut, readUnits_cons]
    congr 1
    rw [listed]
    by_cases hempty : unit = []
    · rw [if_pos hempty, if_neg (by simp [hempty])]
    · have hpos := List.length_pos_iff.2 hempty
      rw [if_neg hempty, if_pos (by omega)]

/-! ### The first start code -/

/-- The items from the first code of four bytes on. -/
def fromFour (items : List (StartCode × List UInt8)) : List (StartCode × List UInt8) :=
  items.dropWhile fun x => x.1 = .three

/-- The items that are read: those from the first code of four bytes on, or all if there is none. -/
def readItems (items : List (StartCode × List UInt8)) : List (StartCode × List UInt8) :=
  if fromFour items = [] then items else fromFour items

/-- In a unit behind a code of three bytes no code of four bytes begins. -/
theorem three_no_four {unit : List UInt8} (h : Clean unit) (w : List UInt8) : ∀ v₁ v₂,
    StartCode.three.bytes ++ unit = v₁ ++ v₂ → v₂ ≠ [] → (v₂ ++ w).take 4 ≠ [0, 0, 0, 1]
  | [], v₂, hv, _ => by
    rw [List.nil_append] at hv
    rw [← hv]
    simp [StartCode.bytes]
  | [a], v₂, hv, _ => by
    obtain ⟨-, rfl⟩ := List.cons.inj hv
    simp
  | [a, b], v₂, hv, _ => by
    obtain ⟨-, hv⟩ := List.cons.inj hv
    obtain ⟨-, rfl⟩ := List.cons.inj hv
    simp
  | a :: b :: c :: v₁, v₂, hv, hsome => by
    obtain ⟨-, hv⟩ := List.cons.inj hv
    obtain ⟨-, hv⟩ := List.cons.inj hv
    obtain ⟨-, hv⟩ := List.cons.inj hv
    exact (h.no_code w v₁ v₂ hv hsome).2

theorem findNextStart4_first {bs : List UInt8} : ∀ (items : List (StartCode × List UInt8))
    {pre : List UInt8}, (∀ x ∈ items, Clean x.2) → bs = pre ++ annexB items →
    ∃ before, bs = before ++ annexB (fromFour items)
      ∧ findNextStart4 bs pre.length = before.length
  | [], pre, _, hbs => by
    refine ⟨pre, hbs, ?_⟩
    have hlength : pre.length = bs.length := by rw [hbs, annexB, List.flatMap_nil, List.append_nil]
    rw [hlength]
    exact findStart_end
  | (.four, unit) :: items, pre, _, hbs => by
    refine ⟨pre, hbs, ?_⟩
    have hdrop : bs.drop pre.length = StartCode.four.bytes ++ (unit ++ annexB items) := by
      rw [hbs, annexB_cons, List.drop_left]
    have hlength := congrArg List.length hdrop
    rw [List.length_drop, List.length_append] at hlength
    have hfour := three_le_bytes .four
    exact findStart_here (by omega) (by rw [hdrop]; rfl)
  | (.three, unit) :: items, pre, h, hbs => by
    have hclean : Clean unit := h _ List.mem_cons_self
    rw [annexB_cons, ← List.append_assoc StartCode.three.bytes] at hbs
    have hskip : findNextStart4 bs pre.length
        = findNextStart4 bs (pre ++ (StartCode.three.bytes ++ unit)).length := by
      rw [hbs]
      exact findStart_append (three_no_four hclean _)
    rw [← List.append_assoc] at hbs
    obtain ⟨before, hbefore, hfind⟩ :=
      findNextStart4_first items (fun x hx => h x (List.mem_cons_of_mem _ hx)) hbs
    exact ⟨before, hbefore, hskip.trans hfind⟩

theorem annexBFrom_start {bs before : List UInt8} {c : StartCode} {unit : List UInt8}
    {items : List (StartCode × List UInt8)} (h : ∀ x ∈ (c, unit) :: items, x.2 ≠ [] ∧ Clean x.2)
    (hbs : bs = before ++ annexB ((c, unit) :: items)) :
    before.length < bs.length
      ∧ annexBFrom bs bs.length (before.length + startPrefixLen bs before.length)
        = readUnits ((c, unit) :: items) := by
  obtain ⟨hsome, hclean⟩ : unit ≠ [] ∧ Clean unit := h _ List.mem_cons_self
  have hlength := congrArg List.length hbs
  have hthree := three_le_bytes c
  rw [annexB_cons] at hbs hlength
  simp only [List.length_append] at hlength
  obtain ⟨skipped, hrest, hcursor⟩ := cursor_after c hsome hbs
  refine ⟨by omega, ?_⟩
  rw [← hcursor, annexBFrom_eq items (clean_kept hclean c)
    (fun x hx => h x (List.mem_cons_of_mem _ hx)) hrest (by omega), readUnits_cons]

/-- What the parser makes of framed units. -/
theorem parseAnnexB_eq {items : List (StartCode × List UInt8)}
    (h : ∀ x ∈ items, x.2 ≠ [] ∧ Clean x.2) :
    parseAnnexB (annexB items) = readUnits (readItems items) := by
  generalize hbs : annexB items = bs
  obtain ⟨before, hbefore, hfour⟩ :=
    findNextStart4_first items (fun x hx => (h x hx).2) (hbs.symm.trans (List.nil_append _).symm)
  have hzero : ([] : List UInt8).length = 0 := rfl
  rw [hzero] at hfour
  simp only [parseAnnexB, hfour, readItems]
  cases hfrom : fromFour items with
  | cons x rest =>
    have hrest : ∀ y ∈ x :: rest, y.2 ≠ [] ∧ Clean y.2 := fun y hy =>
      h y ((List.dropWhile_sublist _).mem (hfrom ▸ hy))
    rw [hfrom] at hbefore
    obtain ⟨hlt, hread⟩ := annexBFrom_start hrest hbefore
    simp only [if_neg hlt.ne, if_neg (List.cons_ne_nil _ _), hread]
  | nil =>
    have hend : before.length = bs.length := by
      rw [hbefore, hfrom, annexB, List.flatMap_nil, List.append_nil]
    rw [if_pos hend, if_pos rfl]
    rcases items with _ | ⟨⟨code, unit⟩, items⟩
    · rw [← hbs]
      rfl
    cases code with
    | four =>
      -- the first code has four bytes, so it is one to begin at
      cases hfrom
    | three =>
      obtain ⟨hlt, hread⟩ := annexBFrom_start h (hbs.symm.trans (List.nil_append _).symm)
      rw [hzero] at hlt hread
      have hhere : findNextStart bs 0 = 0 :=
        findStart_here hlt (by rw [← hbs, annexB_cons]; rfl)
      rw [hhere, if_neg (by omega), hread]

/-! ### What comes back -/

theorem kept_length_le (c : StartCode) (unit : List UInt8) : (c.kept unit).length ≤ unit.length := by
  cases c with
  | four => exact le_refl _
  | three =>
    rw [StartCode.kept]
    split_ifs
    · rw [List.length_tail]
      omega
    · exact le_refl _

theorem length_listed (unit : List UInt8) : (listed unit).flatten.length = unit.length := by
  rw [listed]
  split_ifs with hempty
  · rw [hempty]
    rfl
  · simp

/-- The number of bytes in the units. -/
def unitBytes (items : List (StartCode × List UInt8)) : ℕ := (items.map Prod.snd).flatten.length

theorem length_readUnits_le : ∀ items : List (StartCode × List UInt8),
    (readUnits items).flatten.length ≤ unitBytes items
  | [] => le_refl _
  | (c, unit) :: items => by
    have hlater := length_readUnits_le items
    have hkept := kept_length_le c unit
    rw [unitBytes] at hlater
    simp only [unitBytes, readUnits_cons, List.flatten_append, List.length_append, length_listed,
      List.map_cons, List.flatten_cons]
    omega

/-- No unit behind a code of three bytes begins with 1. -/
def Unguessed (items : List (StartCode × List UInt8)) : Prop :=
  ∀ x ∈ items, x.1 = .three → x.2.head? ≠ some 1

theorem readUnits_eq_iff : ∀ {items : List (StartCode × List UInt8)}, (∀ x ∈ items, x.2 ≠ []) →
    (readUnits items = items.map Prod.snd ↔ Unguessed items)
  | [], _ => iff_of_true rfl nofun
  | (c, unit) :: items, h => by
    have hsome : unit ≠ [] := h _ List.mem_cons_self
    have ih := readUnits_eq_iff fun x hx => h x (List.mem_cons_of_mem _ hx)
    rw [readUnits_cons, Unguessed, List.forall_mem_cons, List.map_cons]
    by_cases hguess : c = .three ∧ unit.head? = some 1
    · -- the unit has lost its first byte
      obtain ⟨rfl, hone⟩ := hguess
      refine iff_of_false (fun heq => ?_) fun hall => hall.1 rfl hone
      have hlength := congrArg (fun units => units.flatten.length) heq
      have hlater := length_readUnits_le items
      have hpos := List.length_pos_iff.2 hsome
      rw [unitBytes] at hlater
      simp only [List.flatten_append, List.flatten_cons, List.length_append, length_listed,
        StartCode.kept, if_pos hone, List.length_tail] at hlength
      omega
    · have hkept : c.kept unit = unit := by
        cases c with
        | four => rfl
        | three => exact if_neg fun hone => hguess ⟨rfl, hone⟩
      have hfirst : c = .three → unit.head? ≠ some 1 := fun hc hone => hguess ⟨hc, hone⟩
      rw [hkept, listed, if_neg hsome, List.singleton_append, List.cons.injEq,
        and_iff_right rfl, and_iff_right hfirst]
      exact ih

/-- The first code has four bytes, or none has. -/
def BeginsAtFirst (items : List (StartCode × List UInt8)) : Prop :=
  (∃ x ∈ items.head?, x.1 = .four) ∨ ∀ x ∈ items, x.1 = .three

theorem unitBytes_fromFour (items : List (StartCode × List UInt8)) :
    unitBytes (fromFour items) ≤ unitBytes items := by
  obtain ⟨before, hbefore⟩ : fromFour items <:+ items := List.dropWhile_suffix _
  have hlength := congrArg unitBytes hbefore
  simp only [unitBytes, List.map_append, List.flatten_append, List.length_append] at hlength ⊢
  omega

theorem readItems_of_beginsAtFirst {items : List (StartCode × List UInt8)}
    (h : BeginsAtFirst items) : readItems items = items := by
  rw [readItems]
  split_ifs with hnone
  · rfl
  rcases h with ⟨x, hx, hfour⟩ | hthree
  · obtain ⟨rest, rfl⟩ := List.head?_eq_some_iff.1 hx
    rw [fromFour, List.dropWhile_cons_of_neg (by simp [hfour])]
  · refine absurd (List.dropWhile_eq_nil_iff.2 fun x hx => ?_) hnone
    exact decide_eq_true (hthree x hx)

/-- The units in front of the first code of four bytes are lost. -/
theorem unitBytes_readItems_lt {items : List (StartCode × List UInt8)} (h : ∀ x ∈ items, x.2 ≠ [])
    (hfirst : ¬ BeginsAtFirst items) : unitBytes (readItems items) < unitBytes items := by
  rw [BeginsAtFirst, not_or] at hfirst
  obtain ⟨hhead, hall⟩ := hfirst
  match items, h, hhead, hall with
  | [], _, _, hall => exact absurd (fun x hx => nomatch hx) hall
  | (.four, unit) :: items, _, hhead, _ => exact absurd ⟨_, rfl, rfl⟩ hhead
  | (.three, unit) :: items, h, _, hall =>
    have hsome : fromFour ((.three, unit) :: items) ≠ [] := by
      intro hnil
      exact hall fun x hx => of_decide_eq_true (List.dropWhile_eq_nil_iff.1 hnil x hx)
    have hunit : unit ≠ [] := h _ List.mem_cons_self
    have hpos := List.length_pos_iff.2 hunit
    have hle := unitBytes_fromFour items
    have hdrop : fromFour ((.three, unit) :: items) = fromFour items := rfl
    rw [readItems, if_neg hsome, hdrop]
    simp only [unitBytes, List.map_cons, List.flatten_cons, List.length_append] at hle ⊢
    omega

/-- Framed units are read back if and only if the first code has four bytes or none has, and no unit
behind a code of three bytes begins with 1. -/
theorem parseAnnexB_annexB_iff (items : List (StartCode × List UInt8))
    (hsome : ∀ x ∈ items, x.2 ≠ []) (hclean : ∀ x ∈ items, Clean x.2) :
    parseAnnexB (annexB items) = items.map Prod.snd ↔ BeginsAtFirst items ∧ Unguessed items := by
  rw [parseAnnexB_eq fun x hx => ⟨hsome x hx, hclean x hx⟩]
  by_cases hfirst : BeginsAtFirst items
  · rw [readItems_of_beginsAtFirst hfirst, and_iff_right hfirst]
    exact readUnits_eq_iff hsome
  · refine iff_of_false (fun heq => ?_) fun h => hfirst h.1
    have hlength := congrArg (fun units => units.flatten.length) heq
    have hle := length_readUnits_le (readItems items)
    have hlt := unitBytes_readItems_lt hsome hfirst
    simp only [unitBytes] at hlength hle hlt
    omega

/-- A parameter set behind a code of four bytes and a slice behind one of three. -/
theorem parseAnnexB_annexB_mixed :
    parseAnnexB [0, 0, 0, 1, 0x67, 5, 0, 0, 1, 0x65, 7] = [[0x67, 5], [0x65, 7]] := by
  refine (parseAnnexB_annexB_iff [(.four, [0x67, 5]), (.three, [0x65, 7])] ?_ ?_).2 ⟨?_, ?_⟩
  · simp
  · intro x hx
    simp only [List.mem_cons, List.not_mem_nil, or_false] at hx
    rcases hx with rfl | rfl <;> exact ⟨by decide, by decide, by decide⟩
  · exact .inl ⟨_, rfl, rfl⟩
  · simp [Unguessed]

/-- The unit in front of the first code of four bytes is lost. -/
theorem unit_before_four_lost :
    ¬ ∀ items : List (StartCode × List UInt8), (∀ x ∈ items, x.2 ≠ []) → (∀ x ∈ items, Clean x.2) →
      parseAnnexB (annexB items) = items.map Prod.snd := by
  intro h
  have hread := h [(.three, [0x67, 5]), (.four, [0x65, 7])] (by simp) (by
    intro x hx
    simp only [List.mem_cons, List.not_mem_nil, or_false] at hx
    rcases hx with rfl | rfl <;> exact ⟨by decide, by decide, by decide⟩)
  exact absurd hread (by decide)

end NimRtc
