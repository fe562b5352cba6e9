import NimRtc.Proofs.H264Units

/-!
# What the H.264 packetizer carries

`emit_h264` reads its fragment table at the index of the NAL unit, and the table has an entry for
the long units only; it drops a unit of `mtu - 2` to `mtu` bytes, which is not long and fits no
STAP-A packet; it sends a unit that no neighbour joins by its own type; and it writes 16 bits of
a length. The frames it carries whole are those that meet none of this.
-/

namespace NimRtc

/-- The payloads of some packets, in order. -/
def payloads (ps : List (PacketKind × List Emission)) : List (List UInt8) :=
  ps.flatMap fun p => p.2.map (·.payload)

@[simp] theorem payloads_nil : payloads [] = [] := rfl

@[simp] theorem payloads_cons (p : PacketKind × List Emission)
    (ps : List (PacketKind × List Emission)) :
    payloads (p :: ps) = p.2.map (·.payload) ++ payloads ps := rfl

@[simp] theorem payloads_append (ps qs : List (PacketKind × List Emission)) :
    payloads (ps ++ qs) = payloads ps ++ payloads qs := by
  simp [payloads]

namespace VideoSender

theorem emitAll_payloads (rtpTs : UInt32) : ∀ (es : List Emission) (s : VideoSender),
    (s.emitAll rtpTs es).2.map (·.payload) = es.map (·.payload)
  | [], _ => rfl
  | e :: es, s => by
    simp only [emitAll, List.map_cons, emitAll_payloads rtpTs es]
    rfl

theorem emitPackets_payloads (rtpTs : UInt32) :
    ∀ (ps : List (PacketKind × List Emission)) (s : VideoSender),
      (s.emitPackets rtpTs ps).2.map (·.payload) = payloads ps
  | [], _ => rfl
  | (kind, es) :: ps, s => by
    simp only [emitPackets, List.map_append, emitAll_payloads, emitPackets_payloads rtpTs ps,
      payloads_cons]

end VideoSender

namespace H264

/-! ## The fragment table -/

/-- The fragments of one unit. -/
def fragmentsOf (mtu : ℕ) (n : List UInt8) : List (List UInt8) :=
  match fragmentsFrom mtu n n.length 0 with
  | .ok frags => frags
  | .error _ => []

theorem fragmentsOf_spec {mtu : ℕ} (hmtu : 3 ≤ mtu) {n : List UInt8} (hF : ForbiddenZero n)
    (hlong : mtu < n.length) :
    fragmentsFrom mtu n n.length 0 = .ok (fragmentsOf mtu n)
      ∧ (∀ f ∈ fragmentsOf mtu n, f.length ≤ mtu)
      ∧ ∀ ps, depacketize none (fragmentsOf mtu n ++ ps) = (n :: ·) <$> depacketize none ps := by
  match n, hlong with
  | first :: body, hlong =>
    rw [List.length_cons] at hlong
    have hF' : first &&& 0x80 = 0 := hF
    obtain ⟨frags, hok, hle, hread⟩ := fragmentsFrom_spec hmtu hF' (Nat.le_of_lt_succ hlong)
      (body.length + 1) 0 (by omega) (by omega)
    have hof : fragmentsOf mtu (first :: body) = frags := by
      rw [fragmentsOf, List.length_cons, hok]
    rw [hof, List.length_cons]
    exact ⟨hok, hle, hread⟩

theorem largeFragments_eq {mtu : ℕ} (hmtu : 3 ≤ mtu) : ∀ {nalus : List (List UInt8)},
    (∀ n ∈ nalus, ForbiddenZero n) →
      largeFragments mtu nalus
        = .ok ((nalus.filter fun n => mtu < n.length).map (fragmentsOf mtu))
  | [], _ => rfl
  | n :: ns, hF => by
    have hrest := largeFragments_eq hmtu fun m hm => hF m (List.mem_cons_of_mem _ hm)
    rw [largeFragments]
    split_ifs with hlong
    · rw [(fragmentsOf_spec hmtu (hF n (by simp)) hlong).1]
      simp only [hrest]
      rw [List.filter_cons_of_pos (by simpa using hlong), List.map_cons]
    · rw [hrest, List.filter_cons_of_neg (by simpa using hlong)]

theorem depacketize_fragments {mtu : ℕ} (hmtu : 3 ≤ mtu) : ∀ {large : List (List UInt8)},
    (∀ n ∈ large, ForbiddenZero n) → (∀ n ∈ large, mtu < n.length) → ∀ ps,
      depacketize none (large.flatMap (fragmentsOf mtu) ++ ps) = (large ++ ·) <$> depacketize none ps
  | [], _, _, ps => by simp
  | n :: ns, hF, hlong, ps => by
    obtain ⟨-, -, hread⟩ := fragmentsOf_spec hmtu (hF n (by simp)) (hlong n (by simp))
    rw [List.flatMap_cons, List.append_assoc, hread,
      depacketize_fragments hmtu (fun m hm => hF m (List.mem_cons_of_mem _ hm))
        fun m hm => hlong m (List.mem_cons_of_mem _ hm)]
    cases depacketize none ps <;> rfl

/-! ## The aggregation loop -/

theorem stapAGroup_isPrefixOf (mtu : ℕ) : ∀ (budget : ℕ) (l : List (List UInt8)),
    stapAGroup mtu budget l ++ l.drop (stapAGroup mtu budget l).length = l
  | _, [] => rfl
  | budget, n :: ns => by
    rw [stapAGroup]
    split_ifs
    · rfl
    · rfl
    · rw [List.length_cons, List.drop_succ_cons, List.cons_append,
        stapAGroup_isPrefixOf mtu (budget - (2 + n.length)) ns]

theorem stapASize_stapAGroup (mtu : ℕ) : ∀ (budget : ℕ) (l : List (List UInt8)),
    stapASize (stapAGroup mtu budget l) ≤ budget + 1
  | _, [] => by simp [stapAGroup]
  | budget, n :: ns => by
    rw [stapAGroup]
    split_ifs with hlong hfit
    · simp
    · simp
    · have := stapASize_stapAGroup mtu (budget - (2 + n.length)) ns
      rw [stapASize_cons]
      omega

/-- The group stops at a unit that it cannot take. -/
theorem stapAGroup_stops {mtu : ℕ} : ∀ (budget : ℕ) (l : List (List UInt8)), budget < mtu →
    ∀ n ∈ (l.drop (stapAGroup mtu budget l).length).head?,
      budget + 1 < stapASize (stapAGroup mtu budget l ++ [n])
  | _, [], _, n, hn => by simp [stapAGroup] at hn
  | budget, m :: ms, hbudget, n, hn => by
    rw [stapAGroup] at hn ⊢
    split_ifs at hn ⊢ with hlong hfit
    · simp only [List.length_nil, List.drop_zero, List.head?_cons, Option.mem_some_iff] at hn
      subst hn
      simp only [List.nil_append, stapASize_cons, stapASize_nil]
      omega
    · simp only [List.length_nil, List.drop_zero, List.head?_cons, Option.mem_some_iff] at hn
      subst hn
      simp only [List.nil_append, stapASize_cons, stapASize_nil]
      omega
    · rw [List.length_cons, List.drop_succ_cons] at hn
      have hrest := stapAGroup_stops (budget - (2 + m.length)) ms (by omega) n hn
      rw [List.cons_append, stapASize_cons]
      omega

/-- A maximal run at the front of the list is what the loop groups. -/
theorem stapAGroup_eq {mtu : ℕ} : ∀ {budget : ℕ} {g rest : List (List UInt8)},
    budget < mtu → stapASize g ≤ budget + 1 →
      (∀ n ∈ rest.head?, budget + 1 < stapASize (g ++ [n])) → stapAGroup mtu budget (g ++ rest) = g
  | _, [], [], _, _, _ => rfl
  | budget, [], n :: rest, _, _, hmax => by
    have := hmax n (by simp)
    simp only [List.nil_append, stapASize_cons, stapASize_nil] at this
    rw [List.nil_append, stapAGroup]
    split_ifs
    · rfl
    · rfl
    · omega
  | budget, m :: g, rest, hb, hfit, hmax => by
    rw [stapASize_cons] at hfit
    have hpos : 1 ≤ stapASize g := by
      unfold stapASize
      omega
    rw [List.cons_append, stapAGroup, if_neg (by omega), if_neg (by omega),
      stapAGroup_eq (by omega) (by omega)]
    intro n hn
    have := hmax n hn
    rw [List.cons_append, stapASize_cons] at this
    omega

theorem groupPackets_cases {mtu : ℕ} {g : List (List UInt8)} (hg : g ≠ []) (hne : ∀ n ∈ g, n ≠ [])
    (hfit : stapASize g ≤ mtu) :
    (∃ n, g = [n] ∧ payloads (groupPackets mtu g) = [n])
      ∨ (2 ≤ g.length ∧ ∃ indicator, indicator &&& kNaluTypeMask = kStapAType
        ∧ payloads (groupPackets mtu g) = [indicator :: g.flatMap stapAUnit]) := by
  match g, hg with
  | [n], _ => exact .inl ⟨n, rfl, rfl⟩
  | n :: m :: g, hg =>
    obtain ⟨indicator, htype, hbuild⟩ := buildStapA_eq hg hne hfit
    refine .inr ⟨by simp, indicator, htype, ?_⟩
    simp [groupPackets, hbuild]

/-! ## The walk -/

/-- The payloads of units that are not longer than the mtu. -/
def shortPayloads (mtu : ℕ) : ℕ → List (List UInt8) → List (List UInt8)
  | _, [] => []
  | 0, _ :: _ => []
  | fuel + 1, n :: ns =>
    let group := stapAGroup mtu (mtu - 1) (n :: ns)
    if group = [] then shortPayloads mtu fuel ns
    else
      payloads (groupPackets mtu group) ++ shortPayloads mtu fuel ((n :: ns).drop group.length)

variable {mtu : ℕ} {table : List (List (List UInt8))}

theorem packetsFrom_short (hmtu : 3 ≤ mtu) : ∀ (fuel i : ℕ) (l : List (List UInt8)),
    (∀ n ∈ l, n.length ≤ mtu) →
      ∃ ps, packetsFrom mtu table fuel i l = .ok ps ∧ payloads ps = shortPayloads mtu fuel l
  | 0, _, [], _ => ⟨[], rfl, rfl⟩
  | _ + 1, _, [], _ => ⟨[], rfl, rfl⟩
  | 0, _, _ :: _, _ => ⟨[], rfl, rfl⟩
  | fuel + 1, i, n :: ns, hle => by
    have hshort : ¬ mtu < n.length := Nat.not_lt.2 (hle n (by simp))
    rw [packetsFrom, shortPayloads, if_neg hshort, if_pos (show 1 < mtu by omega)]
    by_cases hg : stapAGroup mtu (mtu - 1) (n :: ns) = []
    · simp only [if_pos hg]
      exact packetsFrom_short hmtu fuel (i + 1) ns fun m hm => hle m (List.mem_cons_of_mem _ hm)
    · simp only [if_neg hg]
      obtain ⟨ps, hps, hpay⟩ := packetsFrom_short hmtu fuel
        (i + (stapAGroup mtu (mtu - 1) (n :: ns)).length) _
        fun m hm => hle m (List.mem_of_mem_drop hm)
      refine ⟨_, by rw [hps]; rfl, ?_⟩
      rw [payloads_append, hpay]

/-- Where the long units come first, each finds its own fragments in the table. -/
theorem packetsFrom_prefix (hmtu : 3 ≤ mtu) {short : List (List UInt8)}
    (hshort : ∀ n ∈ short, n.length ≤ mtu) : ∀ (large : List (List UInt8)) (fuel i : ℕ),
      (∀ n ∈ large, mtu < n.length) → table.drop i = large.map (fragmentsOf mtu) →
      ∃ ps, packetsFrom mtu table (fuel + large.length) i (large ++ short) = .ok ps
        ∧ payloads ps = large.flatMap (fragmentsOf mtu) ++ shortPayloads mtu fuel short
  | [], fuel, i, _, _ => packetsFrom_short hmtu fuel i short hshort
  | n :: ns, fuel, i, hlong, htable => by
    have hi : table[i]? = some (fragmentsOf mtu n) := by
      rw [← List.head?_drop, htable, List.map_cons, List.head?_cons]
    have hnext : table.drop (i + 1) = ns.map (fragmentsOf mtu) := by
      rw [← List.tail_drop, htable, List.map_cons, List.tail_cons]
    obtain ⟨ps, hps, hpay⟩ := packetsFrom_prefix hmtu hshort ns fuel (i + 1)
      (fun m hm => hlong m (List.mem_cons_of_mem _ hm)) hnext
    rw [List.length_cons, ← Nat.add_assoc, List.cons_append, packetsFrom,
      if_pos (hlong n (by simp)), hi]
    refine ⟨_, by rw [hps]; rfl, ?_⟩
    rw [payloads_cons, hpay, List.flatMap_cons, List.append_assoc]
    congr 1
    exact List.ext_getElem? fun j => by simp [Function.comp_def]

theorem stapAGroup_short {budget : ℕ} {l : List (List UInt8)} :
    ∀ n ∈ stapAGroup mtu budget l, n.length ≤ mtu := by
  induction l generalizing budget with
  | nil => simp [stapAGroup]
  | cons m ms ih =>
    rw [stapAGroup]
    split_ifs with hlong hfit
    · simp
    · simp
    · intro n hn
      rcases List.mem_cons.1 hn with rfl | hn
      · exact Nat.not_lt.1 hlong
      · exact ih n hn

/-- A long unit at an index past the table is reached, unless the table has been left before. -/
theorem packetsFrom_outOfRange : ∀ (fuel i j : ℕ) (l : List (List UInt8)) (n : List UInt8),
    l.length ≤ fuel → l[j]? = some n → mtu < n.length → table.length ≤ i + j →
      packetsFrom mtu table fuel i l = .error .outOfRange
  | _, _, _, [], _, _, hj, _, _ => by simp at hj
  | 0, _, _, _ :: _, _, hfuel, _, _, _ => by simp at hfuel
  | fuel + 1, i, j, m :: ms, n, hfuel, hj, hlong, hpast => by
    rw [List.length_cons] at hfuel
    rw [packetsFrom]
    by_cases hm : mtu < m.length
    · rw [if_pos hm]
      cases hi : table[i]? with
      | none => rfl
      | some frags =>
        have hlt := (List.getElem?_eq_some_iff.1 hi).1
        match j, hj with
        | 0, _ => omega
        | j + 1, hj =>
          rw [List.getElem?_cons_succ] at hj
          simp only [packetsFrom_outOfRange fuel (i + 1) j ms n (by omega) hj hlong (by omega)]
          rfl
    · rw [if_neg hm]
      by_cases hg : stapAGroup mtu (if 1 < mtu then mtu - 1 else 0) (m :: ms) = []
      · simp only [if_pos hg]
        match j, hj with
        | 0, hj =>
          rw [List.getElem?_cons_zero, Option.some.injEq] at hj
          exact absurd (hj ▸ hlong) hm
        | j + 1, hj =>
          rw [List.getElem?_cons_succ] at hj
          exact packetsFrom_outOfRange fuel (i + 1) j ms n (by omega) hj hlong (by omega)
      · simp only [if_neg hg]
        obtain ⟨group, hgroup⟩ : ∃ group,
            stapAGroup mtu (if 1 < mtu then mtu - 1 else 0) (m :: ms) = group := ⟨_, rfl⟩
        have happ := stapAGroup_isPrefixOf mtu (if 1 < mtu then mtu - 1 else 0) (m :: ms)
        rw [hgroup] at hg happ ⊢
        have hjg : group.length ≤ j := by
          by_contra hlt
          rw [← happ, List.getElem?_append_left (by omega)] at hj
          have hmem := List.mem_of_getElem? hj
          rw [← hgroup] at hmem
          exact absurd (stapAGroup_short n hmem) (by omega)
        have hpos : 0 < group.length := List.length_pos_iff.2 hg
        have hrest : ((m :: ms).drop group.length)[j - group.length]? = some n := by
          rw [List.getElem?_drop, Nat.add_sub_cancel' hjg, hj]
        rw [packetsFrom_outOfRange fuel (i + group.length) (j - group.length) _ n _ hrest hlong]
        · rfl
        · omega
        · rw [List.length_drop, List.length_cons]
          omega

/-! ## Short units -/

/-- The short units that are carried read back. -/
theorem depacketize_runs : ∀ (runs : List (List (List UInt8))) (fuel : ℕ),
    runs.flatten.length ≤ fuel → (∀ n ∈ runs.flatten, n ≠ []) → MaximalRuns mtu runs →
      (∀ g ∈ runs, RunReads g) →
      depacketize none (shortPayloads mtu fuel runs.flatten) = some runs.flatten
  | [], fuel, _, _, _, _ => by cases fuel <;> rfl
  | g :: gs, fuel, hfuel, hne, ⟨hg, hfit, hmax, hruns⟩, hreads => by
    have hgroup : stapAGroup mtu (mtu - 1) (g ++ gs.flatten) = g := by
      have hpos : 1 ≤ stapASize g := by
        unfold stapASize
        omega
      exact stapAGroup_eq (by omega) (by omega) fun n hn => by
        have := hmax n hn
        omega
    have hdrop : (g ++ gs.flatten).drop g.length = gs.flatten := List.drop_left
    have hpos := List.length_pos_iff.2 hg
    rw [List.flatten_cons] at hfuel hne ⊢
    rw [List.length_append] at hfuel
    have hgne : ∀ n ∈ g, n ≠ [] := fun n hn => hne n (List.mem_append_left _ hn)
    match fuel, hfuel with
    | 0, hfuel => omega
    | fuel + 1, hfuel =>
      have hrest := depacketize_runs gs fuel (by omega)
        (fun n hn => hne n (List.mem_append_right _ hn)) hruns
        fun g' hg' => hreads g' (List.mem_cons_of_mem _ hg')
      have hwalk : shortPayloads mtu (fuel + 1) (g ++ gs.flatten)
          = payloads (groupPackets mtu g) ++ shortPayloads mtu fuel gs.flatten := by
        match g, hg with
        | n :: ns, hg =>
          rw [List.cons_append, shortPayloads, ← List.cons_append]
          simp only [hgroup, if_neg hg, hdrop]
      rw [hwalk]
      rcases groupPackets_cases hg hgne hfit with ⟨n, rfl, hpay⟩ | ⟨htwo, indicator, htype, hpay⟩
      · rw [hpay, List.singleton_append, depacketize_single (hreads [n] (by simp)), hrest]
        rfl
      · have hsmall : ∀ n ∈ g, n ≠ [] ∧ n.length < 2 ^ 16 := by
          intro n hn
          have hr := hreads g (by simp)
          match g, htwo with
          | a :: b :: g, _ => exact ⟨hgne n hn, hr n hn⟩
        obtain ⟨k, -, hunits⟩ := stapAUnits_bytes hsmall []
        have hnil : stapAUnits k [] = [] := by cases k <;> rfl
        rw [List.append_nil, hnil, List.map_nil, List.append_nil] at hunits
        rw [hpay, List.singleton_append, depacketize_stapA htype hunits, if_neg hg, hrest]
        rfl

theorem payloadWeight_le (p : List UInt8) : payloadWeight p ≤ p.length + 2 := by
  unfold payloadWeight
  split_ifs <;> omega

theorem payloadWeight_stapA {indicator : UInt8} (h : indicator &&& kNaluTypeMask = kStapAType)
    (bytes : List UInt8) : payloadWeight (indicator :: bytes) = bytes.length := by
  have hsingle : ¬ SingleType (indicator :: bytes) := by
    have hnot : ¬ (1 ≤ kStapAType ∧ kStapAType ≤ 23) := by decide
    simp [SingleType, parseSingle, h, hnot]
  simp [payloadWeight, hsingle, h]

/-- No packet of short units can be read as more than the units it is of. -/
theorem shortPayloads_weight (hmtu : 3 ≤ mtu) : ∀ (fuel : ℕ) (l : List (List UInt8)),
    (∀ n ∈ l, n ≠ []) → 1 + ((shortPayloads mtu fuel l).map payloadWeight).sum ≤ stapASize l
  | _, [], _ => by simp [shortPayloads]
  | 0, n :: ns, _ => by
    simp only [shortPayloads, List.map_nil, List.sum_nil, stapASize]
    omega
  | fuel + 1, n :: ns, hne => by
    rw [shortPayloads]
    by_cases hg : stapAGroup mtu (mtu - 1) (n :: ns) = []
    · simp only [if_pos hg, stapASize_cons]
      have := shortPayloads_weight hmtu fuel ns fun m hm => hne m (List.mem_cons_of_mem _ hm)
      omega
    · simp only [if_neg hg]
      obtain ⟨g, hgroup⟩ : ∃ g, stapAGroup mtu (mtu - 1) (n :: ns) = g := ⟨_, rfl⟩
      have happ := stapAGroup_isPrefixOf mtu (mtu - 1) (n :: ns)
      have hfit := stapASize_stapAGroup mtu (mtu - 1) (n :: ns)
      rw [hgroup] at hg happ hfit ⊢
      rw [Nat.sub_add_cancel (by omega)] at hfit
      have hgne : ∀ m ∈ g, m ≠ [] := by
        intro m hm
        refine hne m ?_
        rw [← happ]
        exact List.mem_append_left _ hm
      have hrest := shortPayloads_weight hmtu fuel ((n :: ns).drop g.length)
        fun m hm => hne m (List.mem_of_mem_drop hm)
      have hpay : 1 + ((payloads (groupPackets mtu g)).map payloadWeight).sum ≤ stapASize g := by
        rcases groupPackets_cases hg hgne hfit with ⟨m, rfl, hpay⟩ | ⟨-, indicator, htype, hpay⟩
        · have := payloadWeight_le m
          simp only [hpay, List.map_cons, List.map_nil, List.sum_cons, List.sum_nil, stapASize_cons,
            stapASize_nil]
          omega
        · have := length_flatMap_stapAUnit g
          simp only [hpay, List.map_cons, List.map_nil, List.sum_cons, List.sum_nil,
            payloadWeight_stapA htype]
          omega
      rw [← happ, stapASize_append, happ, List.map_append, List.sum_append]
      omega

theorem exists_first {P : List UInt8 → Prop} [DecidablePred P] : ∀ {g : List (List UInt8)},
    ¬ (∀ n ∈ g, P n) → ∃ a m b, g = a ++ m :: b ∧ (∀ n ∈ a, P n) ∧ ¬ P m
  | [], h => absurd (by simp) h
  | n :: g, h => by
    by_cases hn : P n
    · have hg : ¬ ∀ m ∈ g, P m := fun hg => h (List.forall_mem_cons.2 ⟨hn, hg⟩)
      obtain ⟨a, m, b, rfl, ha, hm⟩ := exists_first hg
      exact ⟨n :: a, m, b, rfl, List.forall_mem_cons.2 ⟨hn, ha⟩, hm⟩
    · exact ⟨[], n, g, rfl, by simp, hn⟩

/-- A length past 16 bits is read as nothing or as a shorter unit. -/
theorem stapAUnits_long {n rest : List UInt8} (hlong : ¬ n.length < 2 ^ 16) {fuel : ℕ}
    (hfuel : (stapAUnit n ++ rest).length ≤ fuel) :
    stapAUnits fuel (stapAUnit n ++ rest) = []
      ∨ ∃ u us, (stapAUnits fuel (stapAUnit n ++ rest)).map (·.data) = u :: us
        ∧ u.length < n.length := by
  simp only [stapAUnit, List.cons_append, List.length_cons] at hfuel ⊢
  obtain ⟨fuel, rfl⟩ := Nat.exists_eq_add_of_le' (Nat.le_of_add_left_le hfuel)
  rw [stapAUnits, fromBytes_two_mod]
  split_ifs with hlen
  · exact .inl rfl
  · refine .inr ⟨_, _, List.map_cons, ?_⟩
    simp only [List.length_take, List.length_append] at hlen ⊢
    omega

section Groups

variable {g rest ps : List (List UInt8)} (hps : 1 + (ps.map payloadWeight).sum ≤ stapASize rest)

include hps

/-- A unit alone in its packet reads back only if it is a single NAL unit packet. -/
theorem singleType_of_depacketize {m : List UInt8}
    (hread : depacketize none (m :: ps) = some (m :: rest)) : SingleType m := by
  by_contra hsingle
  have hweight := stapASize_depacketize _ _ _ hread
  have hm : payloadWeight m ≤ m.length + 1 := by
    rw [payloadWeight, if_neg hsingle]
    split_ifs <;> omega
  simp only [accWeight, List.map_cons, List.sum_cons, stapASize_cons] at hweight
  omega

/-- The units of a STAP-A packet that read back have lengths of 16 bits. -/
theorem short_of_depacketize {indicator : UInt8}
    (htype : indicator &&& kNaluTypeMask = kStapAType) (hgne : ∀ m ∈ g, m ≠ [])
    (hread : depacketize none ((indicator :: g.flatMap stapAUnit) :: ps) = some (g ++ rest)) :
    ∀ m ∈ g, m.length < 2 ^ 16 := by
  by_contra hsmall
  -- the first unit that is too long is read as something shorter, and the rest cannot make up
  obtain ⟨a, m, b, rfl, ha, hm⟩ := exists_first hsmall
  obtain ⟨k, hk, hunits⟩ := stapAUnits_bytes (fun m hm => ⟨hgne m (by simp [hm]), ha m hm⟩)
    (stapAUnit m ++ b.flatMap stapAUnit)
  rw [← List.flatMap_cons, ← List.flatMap_append] at hunits
  rw [depacketize_stapA htype hunits] at hread
  split_ifs at hread
  obtain ⟨out, hout, heq⟩ := append_map_eq_some _ hread
  rw [List.flatMap_cons] at heq
  have hweight := stapASize_depacketize _ _ _ hout
  rcases stapAUnits_long hm hk with hnone | ⟨u, us, hu, hshorter⟩
  · rw [hnone, List.map_nil, List.append_nil] at heq
    have hsize := congrArg stapASize heq
    simp only [stapASize_append, stapASize_cons, accWeight] at hsize hweight
    have hpos : ∀ l, 1 ≤ stapASize l := fun l => by
      unfold stapASize
      omega
    have hb := hpos b
    have ha' := hpos a
    have hr' := hpos rest
    omega
  · rw [hu, List.append_assoc, List.append_assoc] at heq
    have hhead := List.append_cancel_left heq
    simp only [List.cons_append, List.cons.injEq] at hhead
    rw [hhead.1] at hshorter
    exact absurd hshorter (lt_irrefl _)

/-- A group that reads back before the rest does so by itself, and so does the rest. -/
theorem runReads_of_depacketize (hg : g ≠ []) (hgne : ∀ m ∈ g, m ≠ []) (hfit : stapASize g ≤ mtu)
    (hread : depacketize none (payloads (groupPackets mtu g) ++ ps) = some (g ++ rest)) :
    RunReads g ∧ depacketize none ps = some rest := by
  rcases groupPackets_cases hg hgne hfit with ⟨m, rfl, hpay⟩ | ⟨htwo, indicator, htype, hpay⟩
  · rw [hpay, List.singleton_append] at hread
    have hsingle := singleType_of_depacketize hps hread
    rw [depacketize_single hsingle] at hread
    obtain ⟨out, hout, heq⟩ := append_map_eq_some [m] hread
    rw [← List.append_cancel_left heq] at hout
    exact ⟨hsingle, hout⟩
  · rw [hpay, List.singleton_append] at hread
    have hsmall := short_of_depacketize hps htype hgne hread
    obtain ⟨k, -, hunits⟩ := stapAUnits_bytes (fun m hm => ⟨hgne m hm, hsmall m hm⟩) []
    have hnil : stapAUnits k [] = [] := by cases k <;> rfl
    rw [List.append_nil, hnil, List.map_nil, List.append_nil] at hunits
    rw [depacketize_stapA htype hunits, if_neg hg] at hread
    obtain ⟨out, hout, heq⟩ := append_map_eq_some g hread
    rw [← List.append_cancel_left heq] at hout
    refine ⟨?_, hout⟩
    match g, htwo, hsmall with
    | a :: b :: g, _, hsmall => exact hsmall

end Groups

/-- Where the short units read back, they split into runs that read back. -/
theorem runs_of_depacketize (hmtu : 3 ≤ mtu) : ∀ (fuel : ℕ) (l : List (List UInt8)),
    l.length ≤ fuel → (∀ n ∈ l, n ≠ []) → (∀ n ∈ l, n.length ≤ mtu) →
      depacketize none (shortPayloads mtu fuel l) = some l →
      ∃ runs, l = runs.flatten ∧ MaximalRuns mtu runs ∧ ∀ g ∈ runs, RunReads g
  | _, [], _, _, _, _ => ⟨[], rfl, trivial, by simp⟩
  | 0, _ :: _, hfuel, _, _, _ => by simp at hfuel
  | fuel + 1, n :: ns, hfuel, hne, hle, hread => by
    rw [List.length_cons] at hfuel
    rw [shortPayloads] at hread
    by_cases hg : stapAGroup mtu (mtu - 1) (n :: ns) = []
    · -- the unit is dropped, and the rest weighs too little
      simp only [if_pos hg] at hread
      have hweight := stapASize_depacketize _ _ _ hread
      have := shortPayloads_weight hmtu fuel ns fun m hm => hne m (List.mem_cons_of_mem _ hm)
      rw [stapASize_cons] at hweight
      simp only [accWeight] at hweight
      omega
    · simp only [if_neg hg] at hread
      obtain ⟨g, hgroup⟩ : ∃ g, stapAGroup mtu (mtu - 1) (n :: ns) = g := ⟨_, rfl⟩
      obtain ⟨rest, hdrop⟩ : ∃ rest, (n :: ns).drop g.length = rest := ⟨_, rfl⟩
      have happ := stapAGroup_isPrefixOf mtu (mtu - 1) (n :: ns)
      have hfit := stapASize_stapAGroup mtu (mtu - 1) (n :: ns)
      have hmax := stapAGroup_stops (mtu - 1) (n :: ns) (show mtu - 1 < mtu by omega)
      rw [hgroup] at hg happ hfit hmax hread
      rw [Nat.sub_add_cancel (by omega)] at hfit hmax
      rw [hdrop] at happ hmax hread
      rw [← happ] at hne hle hread ⊢
      have hlen : rest.length ≤ fuel := by
        have hpos := List.length_pos_iff.2 hg
        rw [← hdrop, List.length_drop, List.length_cons]
        omega
      have hgne : ∀ m ∈ g, m ≠ [] := fun m hm => hne m (List.mem_append_left _ hm)
      have hrne : ∀ m ∈ rest, m ≠ [] := fun m hm => hne m (List.mem_append_right _ hm)
      have hrle : ∀ m ∈ rest, m.length ≤ mtu := fun m hm => hle m (List.mem_append_right _ hm)
      obtain ⟨hreads, hrest⟩ :=
        runReads_of_depacketize (shortPayloads_weight hmtu fuel rest hrne) hg hgne hfit hread
      obtain ⟨runs, rfl, hruns, hall⟩ := runs_of_depacketize hmtu fuel rest hlen hrne hrle hrest
      exact ⟨g :: runs, rfl, ⟨hg, hfit, hmax, hruns⟩, List.forall_mem_cons.2 ⟨hreads, hall⟩⟩

/-! ## Whole frames -/

theorem shortPayloads_length (hmtu : 3 ≤ mtu) : ∀ (fuel : ℕ) (l : List (List UInt8)),
    (∀ n ∈ l, n ≠ []) → ∀ p ∈ shortPayloads mtu fuel l, p.length ≤ mtu
  | _, [], _ => by simp [shortPayloads]
  | 0, _ :: _, _ => by simp [shortPayloads]
  | fuel + 1, n :: ns, hne => by
    rw [shortPayloads]
    by_cases hg : stapAGroup mtu (mtu - 1) (n :: ns) = []
    · simp only [if_pos hg]
      exact shortPayloads_length hmtu fuel ns fun m hm => hne m (List.mem_cons_of_mem _ hm)
    · simp only [if_neg hg]
      have happ := stapAGroup_isPrefixOf mtu (mtu - 1) (n :: ns)
      have hfit := stapASize_stapAGroup mtu (mtu - 1) (n :: ns)
      rw [Nat.sub_add_cancel (by omega)] at hfit
      have hgne : ∀ m ∈ stapAGroup mtu (mtu - 1) (n :: ns), m ≠ [] := by
        intro m hm
        refine hne m ?_
        rw [← happ]
        exact List.mem_append_left _ hm
      intro p hp
      rcases List.mem_append.1 hp with hp | hp
      · rcases groupPackets_cases hg hgne hfit with ⟨m, hone, hpay⟩ | ⟨-, indicator, -, hpay⟩
        · rw [hone, stapASize_cons] at hfit
          rw [hpay, List.mem_singleton] at hp
          rw [hp]
          omega
        · have := length_flatMap_stapAUnit (stapAGroup mtu (mtu - 1) (n :: ns))
          rw [hpay, List.mem_singleton] at hp
          rw [hp, List.length_cons]
          omega
      · exact shortPayloads_length hmtu fuel _ (fun m hm => hne m (List.mem_of_mem_drop hm)) p hp

/-- The long units come first, or one of them stands at an index past the table. -/
theorem large_first_or (mtu : ℕ) (nalus : List (List UInt8)) :
    (∃ large short, nalus = large ++ short ∧ (∀ n ∈ large, mtu < n.length)
        ∧ ∀ n ∈ short, n.length ≤ mtu)
      ∨ ∃ j n, nalus[j]? = some n ∧ mtu < n.length
        ∧ (nalus.filter fun n => mtu < n.length).length ≤ j := by
  obtain ⟨c, hc⟩ : ∃ c, (nalus.filter fun n => mtu < n.length).length = c := ⟨_, rfl⟩
  rw [hc]
  by_cases hpast : ∃ j n, nalus[j]? = some n ∧ mtu < n.length ∧ c ≤ j
  · exact .inr hpast
  · have hshort : ∀ n ∈ nalus.drop c, n.length ≤ mtu := by
      intro n hn
      obtain ⟨j, hj⟩ := List.mem_iff_getElem?.1 hn
      rw [List.getElem?_drop] at hj
      by_contra hlong
      exact hpast ⟨c + j, n, hj, by omega, by omega⟩
    have hnone : (nalus.drop c).filter (fun n => mtu < n.length) = [] := by
      rw [List.filter_eq_nil_iff]
      intro n hn
      simpa using hshort n hn
    have hall : ((nalus.take c).filter fun n => mtu < n.length).length = (nalus.take c).length := by
      have hle := List.length_filter_le (fun n : List UInt8 => decide (mtu < n.length)) nalus
      have hsplit := congrArg (fun l => (l.filter fun n => mtu < n.length).length)
        (List.take_append_drop c nalus)
      simp only [List.filter_append, hnone, List.append_nil, hc] at hsplit
      rw [hsplit, List.length_take]
      omega
    refine .inl ⟨nalus.take c, nalus.drop c, (List.take_append_drop c nalus).symm, ?_, hshort⟩
    intro n hn
    simpa using List.length_filter_eq_length_iff.1 hall n hn

theorem filter_large {large short : List (List UInt8)} (hlarge : ∀ n ∈ large, mtu < n.length)
    (hshort : ∀ n ∈ short, n.length ≤ mtu) :
    ((large ++ short).filter fun n => mtu < n.length) = large := by
  rw [List.filter_append, List.filter_eq_self.2 fun n hn => by simpa using hlarge n hn,
    List.filter_eq_nil_iff.2 fun n hn => by simpa using hshort n hn, List.append_nil]

/-- What `emit_h264` emits when the long units come first. -/
theorem packetize_eq {cfg : SenderConfig} (hmtu : 3 ≤ cfg.mtu)
    (hmode : cfg.packetizationMode ≠ .interleaved) {large short : List (List UInt8)}
    (hF : ∀ n ∈ large ++ short, ForbiddenZero n) (hlarge : ∀ n ∈ large, cfg.mtu < n.length)
    (hshort : ∀ n ∈ short, n.length ≤ cfg.mtu) :
    ∃ ps, packetize cfg (large ++ short) = .ok ps
      ∧ payloads ps = large.flatMap (fragmentsOf cfg.mtu)
        ++ shortPayloads cfg.mtu short.length short := by
  rw [packetize, if_neg hmode, largeFragments_eq hmtu hF, filter_large hlarge hshort]
  have := packetsFrom_prefix hmtu hshort large short.length 0 hlarge
    (List.drop_zero (l := large.map (fragmentsOf cfg.mtu)))
  rwa [Nat.add_comm, ← List.length_append] at this

theorem packetize_outOfRange {cfg : SenderConfig} (hmtu : 3 ≤ cfg.mtu)
    (hmode : cfg.packetizationMode ≠ .interleaved) {nalus : List (List UInt8)}
    (hF : ∀ n ∈ nalus, ForbiddenZero n) {j : ℕ} {n : List UInt8} (hj : nalus[j]? = some n)
    (hlong : cfg.mtu < n.length)
    (hpast : (nalus.filter fun n => cfg.mtu < n.length).length ≤ j) :
    packetize cfg nalus = .error .outOfRange := by
  rw [packetize, if_neg hmode, largeFragments_eq hmtu hF]
  refine packetsFrom_outOfRange _ 0 j nalus n le_rfl hj hlong ?_
  rw [List.length_map, Nat.zero_add]
  exact hpast

theorem short_of_runs : ∀ {runs : List (List (List UInt8))}, MaximalRuns mtu runs →
    ∀ n ∈ runs.flatten, n.length ≤ mtu
  | [], _ => by simp
  | g :: gs, ⟨_, hfit, _, hruns⟩ => by
    intro n hn
    rw [List.flatten_cons] at hn
    rcases List.mem_append.1 hn with hn | hn
    · obtain ⟨a, b, rfl⟩ := List.append_of_mem hn
      rw [stapASize_append, stapASize_cons] at hfit
      have ha : 1 ≤ stapASize a := by
        unfold stapASize
        omega
      omega
    · exact short_of_runs hruns n hn

theorem not_carried_of_outOfRange {nalus : List (List UInt8)} {j : ℕ} {n : List UInt8}
    (hj : nalus[j]? = some n) (hlong : mtu < n.length)
    (hpast : (nalus.filter fun n => mtu < n.length).length ≤ j) : ¬ Carried mtu nalus := by
  rintro ⟨large, runs, rfl, hlarge, hruns, -⟩
  have hle : large.length ≤ j := by
    rw [List.filter_append, List.length_append,
      List.filter_eq_self.2 fun n hn => by simpa using hlarge n hn] at hpast
    omega
  rw [List.getElem?_append_right hle] at hj
  exact absurd (short_of_runs hruns n (List.mem_of_getElem? hj)) (by omega)

/-- `emit_h264` loses nothing exactly when it refuses the mode, or the units longer than the mtu
come first and the others split into maximal runs of one STAP-A packet each, where a run of one
has a type of its own and a longer run only lengths of 16 bits. -/
theorem losesNothing_iff (s : VideoSender) (nalus : List (List UInt8)) (rtpTs : UInt32)
    (hmtu : 3 ≤ s.cfg.mtu) (hne : ∀ n ∈ nalus, n ≠ []) (hF : ∀ n ∈ nalus, ForbiddenZero n) :
    LosesNothing s nalus rtpTs
      ↔ s.cfg.packetizationMode = .interleaved ∨ Carried s.cfg.mtu nalus := by
  by_cases hmode : s.cfg.packetizationMode = .interleaved
  · have hrefused : s.emitH264 nalus rtpTs = .error .notImplemented := by
      simp [VideoSender.emitH264, packetize, hmode]
    simp [LosesNothing, hrefused, hmode]
  simp only [hmode, false_or]
  rcases large_first_or s.cfg.mtu nalus with
      ⟨large, short, rfl, hlarge, hshort⟩ | ⟨j, n, hj, hlong, hpast⟩
  · obtain ⟨ps, hps, hpay⟩ := packetize_eq hmtu hmode hF hlarge hshort
    have hlF : ∀ n ∈ large, ForbiddenZero n := fun n hn => hF n (List.mem_append_left _ hn)
    have hsne : ∀ n ∈ short, n ≠ [] := fun n hn => hne n (List.mem_append_right _ hn)
    have hok : s.emitH264 (large ++ short) rtpTs = .ok (s.emitPackets rtpTs ps) := by
      rw [VideoSender.emitH264, hps]
      rfl
    have hlen : ∀ p ∈ (s.emitPackets rtpTs ps).2, p.payload.length ≤ s.cfg.mtu := by
      intro p hp
      have hmem := List.mem_map_of_mem (f := CachedPacket.payload) hp
      rw [VideoSender.emitPackets_payloads, hpay] at hmem
      rcases List.mem_append.1 hmem with hmem | hmem
      · obtain ⟨n, hn, hf⟩ := List.mem_flatMap.1 hmem
        exact (fragmentsOf_spec hmtu (hlF n hn) (hlarge n hn)).2.1 _ hf
      · exact shortPayloads_length hmtu _ _ hsne _ hmem
    have hiff : LosesNothing s (large ++ short) rtpTs
        ↔ depacketize none (shortPayloads s.cfg.mtu short.length short) = some short := by
      simp only [LosesNothing, hok, VideoSender.emitPackets_payloads, hpay,
        depacketize_fragments hmtu hlF hlarge]
      cases depacketize none (shortPayloads s.cfg.mtu short.length short) with
      | none => simp
      | some out => simpa using fun _ => hlen
    rw [hiff]
    constructor
    · intro hread
      obtain ⟨runs, hruns, hmax, hreads⟩ :=
        runs_of_depacketize hmtu short.length short le_rfl hsne hshort hread
      exact ⟨large, runs, by rw [hruns], hlarge, hmax, hreads⟩
    · rintro ⟨large', runs, hsplit, hlarge', hmax, hreads⟩
      have hlens : large = large' := by
        rw [← filter_large hlarge hshort, hsplit, filter_large hlarge' (short_of_runs hmax)]
      obtain ⟨rfl, rfl⟩ := List.append_inj hsplit (congrArg List.length hlens)
      exact depacketize_runs runs _ le_rfl hsne hmax hreads
  · have hbad : s.emitH264 nalus rtpTs = .error .outOfRange := by
      rw [VideoSender.emitH264, packetize_outOfRange hmtu hmode hF hj hlong hpast]
      rfl
    simp [LosesNothing, hbad, not_carried_of_outOfRange hj hlong hpast]

/-- A long unit, two short ones that share a packet, and a short one that goes alone. -/
def carriedFrame : List (List UInt8) :=
  [[0x65, 1, 2, 3, 4, 5, 6, 7, 8, 9, 10, 11], [0x67, 1], [0x68, 2], [0x41, 3, 4, 5, 6]]

theorem losesNothing_carriedFrame :
    LosesNothing { cfg := { mtu := 10 } } carriedFrame 0 := by
  refine (losesNothing_iff _ _ _ (by decide) (by decide) (by decide)).2 (.inr ?_)
  refine ⟨[[0x65, 1, 2, 3, 4, 5, 6, 7, 8, 9, 10, 11]], [[[0x67, 1], [0x68, 2]],
    [[0x41, 3, 4, 5, 6]]], rfl, by decide, by simp [MaximalRuns, stapASize], ?_⟩
  simp only [List.mem_cons, List.not_mem_nil, or_false, forall_eq_or_imp, forall_eq]
  exact ⟨by simp [RunReads], show SingleType _ by decide⟩

/-- A unit of three bytes under an mtu of three is neither long nor fits a STAP-A packet: success
is reported and nothing is sent. -/
theorem unit_dropped :
    (VideoSender.emitH264 { cfg := { mtu := 3 } } [[0x65, 1, 2]] 0).map (·.2) = .ok []
      ∧ ¬ LosesNothing { cfg := { mtu := 3 } } [[0x65, 1, 2]] 0 := by
  decide

end H264

end NimRtc
