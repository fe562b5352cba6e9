import NimRtc.Rfc6184

/-!
# Building and reading H.264 payloads

A FU-A fragmented unit reads back, a STAP-A packet reads back when its lengths fit 16 bits, and
no reading weighs more than the payloads it is of, each unit weighing two more than its length.
-/

namespace NimRtc

namespace H264

/-! ## Header bytes -/

/-- The indicator of the fragments of a unit that starts with `first`. -/
def fuIndicatorOf (first : UInt8) : UInt8 :=
  makeIndicator 0 kFuAType &&& ~~~kNriMask ||| ((first &&& kNriMask) >>> 5 &&& 0x03) <<< 5

theorem fuIndicatorOf_type (first : UInt8) : fuIndicatorOf first &&& kNaluTypeMask = kFuAType := by
  revert first
  exact forall_uint8 (by decide)

theorem fuHeader_start (first : UInt8) (hF : first &&& 0x80 = 0) :
    ((first &&& kNaluTypeMask &&& kNaluTypeMask ||| 0x80) &&& 0x80 ≠ 0
      ∧ (first &&& kNaluTypeMask &&& kNaluTypeMask ||| 0x80) &&& 0x40 = 0)
      ∧ fuIndicatorOf first &&& 0xE0
        ||| (first &&& kNaluTypeMask &&& kNaluTypeMask ||| 0x80) &&& kNaluTypeMask = first := by
  revert first
  exact forall_uint8 (by decide)

theorem fuHeader_middle (first : UInt8) :
    (first &&& kNaluTypeMask &&& kNaluTypeMask) &&& 0x80 = 0
      ∧ (first &&& kNaluTypeMask &&& kNaluTypeMask) &&& 0x40 = 0 := by
  revert first
  exact forall_uint8 (by decide)

theorem fuHeader_end (first : UInt8) :
    (first &&& kNaluTypeMask &&& kNaluTypeMask ||| 0x40) &&& 0x80 = 0
      ∧ (first &&& kNaluTypeMask &&& kNaluTypeMask ||| 0x40) &&& 0x40 ≠ 0 := by
  revert first
  exact forall_uint8 (by decide)

theorem stapAIndicator_type (first : UInt8) :
    makeIndicator ((first &&& kNriMask) >>> 5) kStapAType &&& kNaluTypeMask = kStapAType := by
  revert first
  exact forall_uint8 (by decide)

/-! ## FU-A -/

/-- One fragment of a unit that starts with `first`. -/
def fuFragment (first : UInt8) (start «end» : Bool) (slice : List UInt8) : List UInt8 :=
  let header := first &&& kNaluTypeMask &&& kNaluTypeMask
  let header := if start then header ||| 0x80 else header
  let header := if «end» then header ||| 0x40 else header
  fuIndicatorOf first :: header :: slice

theorem parseFuAHeader_fuFragment (first : UInt8) (start «end» : Bool) (slice : List UInt8) :
    parseFuAHeader (fuFragment first start «end» slice)
      = some ⟨fuIndicatorOf first, (fuFragment first start «end» slice).tail.headD 0, slice⟩ := by
  simp [parseFuAHeader, fuFragment, fuIndicatorOf_type]

theorem depacketize_start {first : UInt8} (hF : first &&& 0x80 = 0) (slice : List UInt8)
    (ps : List (List UInt8)) :
    depacketize none (fuFragment first true false slice :: ps)
      = depacketize (some (first :: slice)) ps := by
  obtain ⟨⟨hs, he⟩, hhdr⟩ := fuHeader_start first hF
  rw [depacketize, parseFuAHeader_fuFragment]
  simp only [fuFragment, if_true, Bool.false_eq_true, if_false, List.tail_cons, List.headD_cons,
    hs, he, hhdr, ne_eq, not_true, not_false_eq_true, decide_true, decide_false]

theorem depacketize_middle (first : UInt8) (acc slice : List UInt8) (ps : List (List UInt8)) :
    depacketize (some acc) (fuFragment first false false slice :: ps)
      = depacketize (some (acc ++ slice)) ps := by
  obtain ⟨hs, he⟩ := fuHeader_middle first
  rw [depacketize, parseFuAHeader_fuFragment]
  simp only [fuFragment, Bool.false_eq_true, if_false, List.tail_cons, List.headD_cons,
    hs, he, ne_eq, not_true, decide_false]

theorem depacketize_end (first : UInt8) (acc slice : List UInt8) (ps : List (List UInt8)) :
    depacketize (some acc) (fuFragment first false true slice :: ps)
      = ((acc ++ slice) :: ·) <$> depacketize none ps := by
  obtain ⟨hs, he⟩ := fuHeader_end first
  rw [depacketize, parseFuAHeader_fuFragment]
  simp only [fuFragment, if_true, Bool.false_eq_true, if_false, List.tail_cons, List.headD_cons,
    hs, he, ne_eq, not_true, not_false_eq_true, decide_true, decide_false]

/-- One round of the fragment loop. -/
theorem fragmentsFrom_succ {mtu : ℕ} (hmtu : 3 ≤ mtu) (first : UInt8) (body : List UInt8)
    {offset len : ℕ} (hlt : offset < body.length) (hlen : len = min (mtu - 2) (body.length - offset))
    (fuel : ℕ) {frags : List (List UInt8)}
    (h : fragmentsFrom mtu (first :: body) fuel (offset + len) = .ok frags) :
    fragmentsFrom mtu (first :: body) (fuel + 1) offset
      = .ok (fuFragment first (offset == 0) (offset + len == body.length)
        ((body.drop offset).take len) :: frags) := by
  have hthis : (if mtu - 2 < body.length - offset then mtu - 2 else body.length - offset) = len := by
    split <;> omega
  have hdrop : (first :: body).drop (1 + offset) = body.drop offset := by
    rw [Nat.add_comm, List.drop_succ_cons]
  have hfits : ¬ mtu < ((body.drop offset).take len).length + 2 := by
    simp only [List.length_take, List.length_drop]
    omega
  rw [fragmentsFrom]
  simp only [List.length_cons, Nat.add_sub_cancel, if_neg (Nat.not_le.2 hlt),
    if_pos (show 2 < mtu by omega), hthis, hdrop, buildFuA, if_neg hfits, h, List.headD_cons]
  rfl

/-- What has been put together when the fragments up to `offset` are read. -/
def assembled (n : List UInt8) (offset : ℕ) : Option (List UInt8) :=
  if offset = 0 then none else some (n.take (1 + offset))

/-- The fragments from `offset` on complete the unit. -/
theorem fragmentsFrom_spec {mtu : ℕ} (hmtu : 3 ≤ mtu) {first : UInt8} {body : List UInt8}
    (hF : first &&& 0x80 = 0) (hlong : mtu ≤ body.length) :
    ∀ (fuel offset : ℕ), offset < body.length → body.length ≤ offset + fuel →
      ∃ frags, fragmentsFrom mtu (first :: body) fuel offset = .ok frags
        ∧ (∀ f ∈ frags, f.length ≤ mtu)
        ∧ ∀ ps, depacketize (assembled (first :: body) offset) (frags ++ ps)
          = ((first :: body) :: ·) <$> depacketize none ps := by
  intro fuel
  induction fuel with
  | zero =>
    intro offset hlt hle
    omega
  | succ fuel ih =>
    intro offset hlt hle
    obtain ⟨len, hlen⟩ : ∃ len, len = min (mtu - 2) (body.length - offset) := ⟨_, rfl⟩
    have hsize : (fuFragment first (offset == 0) (offset + len == body.length)
        ((body.drop offset).take len)).length ≤ mtu := by
      simp only [fuFragment, List.length_cons, List.length_take, List.length_drop]
      omega
    have htake : ∀ o, (first :: body).take (1 + o) = first :: body.take o := by
      intro o
      rw [Nat.add_comm, List.take_succ_cons]
    have hnext : (first :: body.take offset) ++ (body.drop offset).take len
        = (first :: body).take (1 + (offset + len)) := by
      rw [htake, List.take_add, List.cons_append]
    by_cases hlast : offset + len = body.length
    · have hoff : offset ≠ 0 := by omega
      have hdone : fragmentsFrom mtu (first :: body) fuel (offset + len) = .ok [] := by
        rw [fragmentsFrom.eq_def, hlast]
        simp
      refine ⟨_, fragmentsFrom_succ hmtu first body hlt hlen fuel hdone, by simpa using hsize, ?_⟩
      intro ps
      rw [assembled, if_neg hoff, htake, List.singleton_append, beq_eq_false_iff_ne.2 hoff,
        beq_iff_eq.2 hlast, depacketize_end, hnext, hlast, htake, List.take_length]
    · obtain ⟨frags, hok, hle', hread⟩ := ih (offset + len) (by omega) (by omega)
      refine ⟨_, fragmentsFrom_succ hmtu first body hlt hlen fuel hok, ?_, ?_⟩
      · intro f hf
        rcases List.mem_cons.1 hf with rfl | hf
        · exact hsize
        · exact hle' f hf
      · intro ps
        have hpos : offset + len ≠ 0 := by omega
        have hr := hread ps
        rw [assembled, if_neg hpos] at hr
        rw [List.cons_append, beq_eq_false_iff_ne.2 hlast, ← hr]
        by_cases hoff : offset = 0
        · subst hoff
          rw [assembled, if_pos rfl, beq_self_eq_true, depacketize_start hF, ← hnext]
          simp
        · rw [assembled, if_neg hoff, beq_eq_false_iff_ne.2 hoff, depacketize_middle, htake, hnext]

/-! ## STAP-A -/

/-- One unit of a STAP-A packet: its length in 16 bits and its bytes. -/
def stapAUnit (n : List UInt8) : List UInt8 := byteAt n.length 1 :: byteAt n.length 0 :: n

theorem length_flatMap_stapAUnit (g : List (List UInt8)) :
    (g.flatMap stapAUnit).length + 1 = stapASize g := by
  rw [List.length_flatMap, stapASize, Nat.add_comm]
  congr 2
  refine List.map_congr_left fun n _ => ?_
  simp only [stapAUnit, List.length_cons]
  omega

@[simp] theorem stapASize_nil : stapASize [] = 1 := rfl

@[simp] theorem stapASize_cons (n : List UInt8) (g : List (List UInt8)) :
    stapASize (n :: g) = stapASize g + (n.length + 2) := by
  simp only [stapASize, List.map_cons, List.sum_cons]
  omega

@[simp] theorem stapASize_append (g g' : List (List UInt8)) :
    stapASize (g ++ g') = stapASize g + stapASize g' - 1 := by
  simp only [stapASize, List.map_append, List.sum_append]
  omega

theorem appendUnits_eq {cap : ℕ} : ∀ {g : List (List UInt8)} {out : List UInt8},
    (∀ n ∈ g, n ≠ []) → out.length ≠ 1 → out.length + stapASize g ≤ cap + 1 →
      appendUnits cap out g = some (out ++ g.flatMap stapAUnit)
  | [], out, _, _, _ => by simp [appendUnits]
  | [] :: _, _, hne, _, _ => absurd rfl (hne [] (by simp))
  | (first :: body) :: g, out, hne, hout, hcap => by
    rw [stapASize_cons] at hcap
    have hpos : 1 ≤ stapASize g := by
      unfold stapASize
      omega
    rw [appendUnits]
    simp only [if_neg hout]
    rw [if_neg (by omega), appendUnits_eq (fun n hn => hne n (List.mem_cons_of_mem _ hn))]
    · simp [stapAUnit]
    · simp only [List.length_append, List.length_cons]
      omega
    · simp only [List.length_append, List.length_cons] at hcap ⊢
      omega

/-- A packet of units that fit is the indicator and the units. -/
theorem buildStapA_eq {cap : ℕ} {g : List (List UInt8)} (hg : g ≠ []) (hne : ∀ n ∈ g, n ≠ [])
    (hcap : stapASize g ≤ cap) :
    ∃ indicator, indicator &&& kNaluTypeMask = kStapAType
      ∧ buildStapA g cap = some (indicator :: g.flatMap stapAUnit) := by
  match g, hg with
  | [] :: _, _ => exact absurd rfl (hne [] (by simp))
  | (first :: body) :: g, _ =>
    refine ⟨_, stapAIndicator_type first, ?_⟩
    rw [stapASize_cons] at hcap
    have hpos : 1 ≤ stapASize g := by
      unfold stapASize
      omega
    rw [buildStapA, if_neg (by simp; omega), appendUnits]
    simp only [List.length_singleton, if_true]
    rw [if_neg (by omega), appendUnits_eq (fun n hn => hne n (List.mem_cons_of_mem _ hn))]
    · simp [stapAUnit]
    · simp
    · simp only [List.length_append, List.length_cons, List.length_nil] at hcap ⊢
      omega

theorem stapAUnits_stapAUnit {n rest : List UInt8} (hn : n ≠ []) (hlt : n.length < 2 ^ 16)
    (fuel : ℕ) :
    stapAUnits (fuel + 1) (stapAUnit n ++ rest)
      = ⟨n.headD 0 &&& kNaluTypeMask, n⟩ :: stapAUnits fuel rest := by
  have hlen : fromBytes [byteAt n.length 0, byteAt n.length 1] = n.length := by
    rw [fromBytes_two_mod, Nat.mod_eq_of_lt hlt]
  have hpos : n.length ≠ 0 := fun h => hn (List.eq_nil_of_length_eq_zero h)
  have hhead : (n ++ rest).headD 0 = n.headD 0 := by
    cases n with
    | nil => exact absurd rfl hn
    | cons a l => rfl
  rw [stapAUnit, List.cons_append, List.cons_append, stapAUnits, hlen, if_neg (by simp [hpos]),
    List.take_left, List.drop_left, hhead]

/-- The units before a length that does not fit 16 bits are read as they are. -/
theorem stapAUnits_flatMap {rest : List UInt8} : ∀ {g : List (List UInt8)} (fuel : ℕ),
    (∀ n ∈ g, n ≠ [] ∧ n.length < 2 ^ 16) →
      (stapAUnits (fuel + g.length) (g.flatMap stapAUnit ++ rest)).map (·.data)
        = g ++ (stapAUnits fuel rest).map (·.data)
  | [], _, _ => by simp
  | n :: g, fuel, h => by
    obtain ⟨hn, hlt⟩ := h n (by simp)
    rw [List.length_cons, ← Nat.add_assoc, List.flatMap_cons, List.append_assoc,
      stapAUnits_stapAUnit hn hlt, List.map_cons,
      stapAUnits_flatMap fuel fun m hm => h m (List.mem_cons_of_mem _ hm), List.cons_append]

theorem length_le_flatMap_stapAUnit (g : List (List UInt8)) :
    g.length ≤ (g.flatMap stapAUnit).length := by
  induction g with
  | nil => simp
  | cons n g ih =>
    rw [List.flatMap_cons, List.length_append, List.length_cons]
    simp only [stapAUnit, List.length_cons]
    omega

/-- `stapAUnits_flatMap` with the number of bytes as fuel. -/
theorem stapAUnits_bytes {g : List (List UInt8)} (h : ∀ n ∈ g, n ≠ [] ∧ n.length < 2 ^ 16)
    (rest : List UInt8) :
    ∃ fuel, rest.length ≤ fuel
      ∧ (stapAUnits (g.flatMap stapAUnit ++ rest).length (g.flatMap stapAUnit ++ rest)).map (·.data)
        = g ++ (stapAUnits fuel rest).map (·.data) := by
  have hle := length_le_flatMap_stapAUnit g
  refine ⟨(g.flatMap stapAUnit).length - g.length + rest.length, by omega, ?_⟩
  rw [← stapAUnits_flatMap _ h, List.length_append]
  congr 2
  omega

/-- What is read weighs no more than the bytes it is read from. -/
theorem stapASize_stapAUnits : ∀ (fuel : ℕ) (l : List UInt8),
    stapASize ((stapAUnits fuel l).map (·.data)) ≤ l.length + 1
  | 0, l => by simp [stapAUnits]
  | fuel + 1, [] => by simp [stapAUnits]
  | fuel + 1, [_] => by simp [stapAUnits]
  | fuel + 1, hi :: lo :: rest => by
    rw [stapAUnits]
    split_ifs with hlen
    · simp
    · have hrest := stapASize_stapAUnits fuel (rest.drop (fromBytes [lo, hi]))
      simp only [List.length_drop] at hrest
      simp only [List.map_cons, stapASize_cons, List.length_take, List.length_cons]
      omega

/-! ## Reading -/

theorem parseFuAHeader_eq_none {p : List UInt8} (h : p.headD 0 &&& kNaluTypeMask ≠ kFuAType) :
    parseFuAHeader p = none := by
  unfold parseFuAHeader
  split
  · exact if_pos h
  · rfl

theorem singleType_ne {first : UInt8} {body : List UInt8} (h : SingleType (first :: body)) :
    first &&& kNaluTypeMask ≠ kFuAType := by
  intro hfu
  have hnot : ¬ (1 ≤ kFuAType ∧ kFuAType ≤ 23) := by decide
  simp [SingleType, parseSingle, hfu, hnot] at h

theorem depacketize_single {n : List UInt8} (h : SingleType n) (ps : List (List UInt8)) :
    depacketize none (n :: ps) = (n :: ·) <$> depacketize none ps := by
  match n, h with
  | first :: body, h =>
    have hfu : parseFuAHeader (first :: body) = none := parseFuAHeader_eq_none (singleType_ne h)
    have hdata : parseSingle (first :: body)
        = some ⟨first &&& kNaluTypeMask, first :: body⟩ := by
      rw [SingleType, parseSingle] at h
      rw [parseSingle]
      split_ifs at h ⊢
      · rfl
      · cases h
    rw [depacketize, hfu, hdata]
    rfl

theorem depacketize_stapA {indicator : UInt8} (h : indicator &&& kNaluTypeMask = kStapAType)
    {bytes : List UInt8} {units : List (List UInt8)}
    (hunits : (stapAUnits bytes.length bytes).map (·.data) = units) (ps : List (List UInt8)) :
    depacketize none ((indicator :: bytes) :: ps)
      = if units = [] then none else (units ++ ·) <$> depacketize none ps := by
  have hfu : parseFuAHeader (indicator :: bytes) = none :=
    parseFuAHeader_eq_none (by simp only [List.headD_cons, h]; decide)
  have hone : parseSingle (indicator :: bytes) = none := by
    have hnot : ¬ (1 ≤ kStapAType ∧ kStapAType ≤ 23) := by decide
    simp only [parseSingle, h, if_neg hnot]
  have hempty : (stapAUnits bytes.length bytes).isEmpty = true ↔ units = [] := by
    rw [← hunits, List.isEmpty_iff, List.map_eq_nil_iff]
  rw [depacketize, hfu]
  simp only [Option.isSome_none, Bool.false_eq_true, if_false, hone, parseStapA, h, ne_eq,
    not_true, hunits, Bool.not_eq_true', ← Bool.not_eq_true, hempty]
  by_cases hnil : units = [] <;> simp [hnil]

/-- The most a payload can add to the weight of what is read. -/
def payloadWeight (p : List UInt8) : ℕ :=
  if SingleType p then p.length + 2
  else if p.headD 0 &&& kNaluTypeMask = kStapAType then p.length - 1
  else p.length + 1

def accWeight : Option (List UInt8) → ℕ
  | none => 0
  | some acc => acc.length + 2

/-- A fragment adds at most its own bytes and the two of a new unit. -/
theorem payloadWeight_fu {p : List UInt8} {fu : FuAHeader} (h : parseFuAHeader p = some fu) :
    payloadWeight p = fu.fragment.length + 3 := by
  unfold parseFuAHeader at h
  split at h
  · rename_i indicator headerByte fragment
    split_ifs at h with htype
    simp only [Option.some.injEq] at h
    subst h
    rw [not_not] at htype
    have hsingle : ¬ SingleType (indicator :: headerByte :: fragment) :=
      fun hs => singleType_ne hs htype
    have hstap : (kFuAType : UInt8) ≠ kStapAType := by decide
    simp [payloadWeight, hsingle, htype, hstap]
  · cases h

theorem parseSingle_data {p : List UInt8} {n : Nalu} (h : parseSingle p = some n) :
    n.data = p ∧ SingleType p := by
  refine ⟨?_, by simp [SingleType, h]⟩
  match p, h with
  | first :: body, h =>
    rw [parseSingle] at h
    split_ifs at h
    cases h
    rfl

theorem stapASize_parseStapA {p : List UInt8} (hn : parseSingle p = none)
    (hok : (parseStapA p).parsedOk = true) :
    stapASize ((parseStapA p).nalus.map (·.data)) ≤ 1 + payloadWeight p := by
  match p, hok with
  | first :: rest, hok =>
    have hsingle : ¬ SingleType (first :: rest) := by simp [SingleType, hn]
    rw [parseStapA] at hok ⊢
    split_ifs at hok ⊢ with htype
    · rw [not_not] at htype
      have := stapASize_stapAUnits rest.length rest
      simp only [payloadWeight, if_neg hsingle, List.headD_cons, htype, if_true, List.length_cons]
      omega

theorem append_map_eq_some (pre : List (List UInt8)) {o : Option (List (List UInt8))}
    {out : List (List UInt8)} (h : (pre ++ ·) <$> o = some out) : ∃ rest, o = some rest ∧ out = pre ++ rest := by
  cases o with
  | none => cases h
  | some rest => exact ⟨rest, rfl, (Option.some.inj h).symm⟩

theorem stapASize_depacketize : ∀ (ps : List (List UInt8)) (acc : Option (List UInt8))
    (out : List (List UInt8)), depacketize acc ps = some out →
      stapASize out ≤ 1 + accWeight acc + (ps.map payloadWeight).sum
  | [], none, out, h => by
    rw [depacketize, Option.some.injEq] at h
    simp [← h, accWeight]
  | [], some _, _, h => by
    rw [depacketize] at h
    cases h
  | p :: ps, acc, out, h => by
    rw [depacketize] at h
    simp only [List.map_cons, List.sum_cons]
    split at h
    · rename_i fu hfu
      have hw := payloadWeight_fu hfu
      split at h
      · have := stapASize_depacketize ps _ _ h
        simp only [accWeight, List.length_cons] at this ⊢
        omega
      · have := stapASize_depacketize ps _ _ h
        simp only [accWeight, List.length_append] at this ⊢
        omega
      · rename_i acc _ _
        obtain ⟨rest, hrest, rfl⟩ := append_map_eq_some [acc ++ fu.fragment] h
        have := stapASize_depacketize ps _ _ hrest
        simp only [List.singleton_append, stapASize_cons, List.length_append, accWeight] at this ⊢
        omega
      · cases h
    · cases acc with
      | some acc => cases h
      | none =>
        simp only [Option.isSome_none, Bool.false_eq_true, if_false] at h
        split at h
        · rename_i n hn
          obtain ⟨hdata, hsingle⟩ := parseSingle_data hn
          obtain ⟨rest, hrest, rfl⟩ := append_map_eq_some [n.data] h
          have := stapASize_depacketize ps _ _ hrest
          rw [payloadWeight, if_pos hsingle]
          simp only [List.singleton_append, stapASize_cons, hdata] at this ⊢
          omega
        · rename_i hn
          split at h
          · rename_i hok
            obtain ⟨rest, hrest, rfl⟩ := append_map_eq_some _ h
            have := stapASize_depacketize ps _ _ hrest
            have hstap := stapASize_parseStapA hn hok
            rw [stapASize_append]
            omega
          · cases h

end H264

end NimRtc
