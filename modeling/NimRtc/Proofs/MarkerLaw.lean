import NimRtc.Proofs.H264RoundTrip

/-!
# Where the marker is

Each long unit and each group of short ones ends with a packet that has the marker, whatever follows.
So the marker is on the last packet alone when all that is sent is one such piece.
-/

namespace NimRtc

/-- One marker, at the end. -/
def MarkedLast (markers : List Bool) : Prop := ∃ k, markers = List.replicate k false ++ [true]

theorem count_of_markedLast {markers : List Bool} (h : MarkedLast markers) :
    markers.count true = 1 := by
  obtain ⟨k, rfl⟩ := h
  rw [List.count_append, List.count_replicate]
  rfl

theorem markedLast_append {pre : List Bool} (hpre : ∀ m ∈ pre, m = false) :
    MarkedLast (pre ++ [true]) := by
  refine ⟨pre.length, ?_⟩
  rw [List.eq_replicate_of_mem hpre, List.length_replicate]

theorem count_flatten {pieces : List (List Bool)} (h : ∀ p ∈ pieces, MarkedLast p) :
    pieces.flatten.count true = pieces.length := by
  induction pieces with
  | nil => rfl
  | cons p pieces ih =>
    have hlater := ih fun q hq => h q (List.mem_cons_of_mem _ hq)
    rw [List.flatten_cons, List.count_append, count_of_markedLast (h p List.mem_cons_self), hlater,
      List.length_cons, Nat.add_comm]

/-- Pieces that each end with a marker have it at the end alone when there is one of them. -/
theorem markedLast_flatten_iff {pieces : List (List Bool)} (h : ∀ p ∈ pieces, MarkedLast p) :
    MarkedLast pieces.flatten ↔ pieces.length = 1 := by
  constructor
  · intro hlast
    rw [← count_flatten h, count_of_markedLast hlast]
  · intro hone
    obtain ⟨p, rfl⟩ := List.length_eq_one_iff.1 hone
    rw [List.flatten_singleton]
    exact h p List.mem_cons_self

namespace H264

theorem marksEnd_iff {sent : List CachedPacket} :
    MarksEnd sent ↔ MarkedLast (sent.map (·.marker)) := by
  constructor
  · rintro ⟨pre, last, rfl, hlast, hpre⟩
    rw [List.map_append, List.map_singleton, hlast]
    refine markedLast_append fun m hm => ?_
    obtain ⟨p, hp, rfl⟩ := List.mem_map.1 hm
    exact hpre p hp
  · rintro ⟨k, hk⟩
    obtain ⟨pre, rest, rfl, hpre, hrest⟩ := List.map_eq_append_iff.1 hk
    obtain ⟨last, rfl, hlast⟩ := List.map_eq_singleton_iff.1 hrest
    refine ⟨pre, last, rfl, hlast, fun p hp => ?_⟩
    have hmem : p.marker ∈ List.replicate k false := hpre ▸ List.mem_map_of_mem hp
    exact List.eq_of_mem_replicate hmem

end H264

namespace VideoSender

theorem emitAll_markers (rtpTs : UInt32) : ∀ (es : List Emission) (s : VideoSender),
    (s.emitAll rtpTs es).2.map (·.marker) = es.map (·.marker)
  | [], _ => rfl
  | e :: es, s => by
    simp only [emitAll, List.map_cons, emitAll_markers rtpTs es]
    rfl

theorem emitPackets_markers (rtpTs : UInt32) :
    ∀ (ps : List (PacketKind × List Emission)) (s : VideoSender),
      (s.emitPackets rtpTs ps).2.map (·.marker) = (ps.flatMap (·.2)).map (·.marker)
  | [], _ => rfl
  | (kind, es) :: ps, s => by
    simp only [emitPackets, List.map_append, emitAll_markers, emitPackets_markers rtpTs ps,
      List.flatMap_cons]

end VideoSender

namespace H264

/-! ### Pieces -/

theorem appendUnits_isSome {cap : ℕ} : ∀ {ns : List (List UInt8)} {out : List UInt8},
    out.length + (ns.map fun n => 2 + n.length).sum ≤ cap → (appendUnits cap out ns).isSome
  | [], out, _ => rfl
  | [] :: ns, out, h => by
    rw [appendUnits]
    refine appendUnits_isSome ?_
    simp only [List.map_cons, List.sum_cons] at h
    omega
  | (first :: body) :: ns, out, h => by
    simp only [List.map_cons, List.sum_cons] at h
    rw [appendUnits]
    split_ifs with hone hcap hcap
    · simp only [List.length_cons, List.length_nil] at hcap h
      omega
    · refine appendUnits_isSome ?_
      simp only [List.length_append, List.length_cons, List.length_nil] at hcap h ⊢
      omega
    · omega
    · refine appendUnits_isSome ?_
      simp only [List.length_append, List.length_cons] at hcap h ⊢
      omega

/-- A group that fits is one packet, and it has the marker. -/
theorem groupPackets_piece {mtu : ℕ} {g : List (List UInt8)} (hg : g ≠ []) (hfit : stapASize g ≤ mtu) :
    ∃ kind out, groupPackets mtu g = [(kind, [⟨out, true⟩])] := by
  match g, hg with
  | [n], _ => exact ⟨_, _, rfl⟩
  | n :: m :: g, hg =>
    have hbuild : (buildStapA (n :: m :: g) mtu).isSome := by
      rw [stapASize] at hfit
      rw [buildStapA, if_neg (by simp only [reduceCtorEq, false_or]; omega)]
      exact appendUnits_isSome hfit
    obtain ⟨out, hout⟩ := Option.isSome_iff_exists.1 hbuild
    exact ⟨.stapa, out, by simp only [groupPackets, hout]⟩

theorem markedLast_fragments {frags : List (List UInt8)} (h : frags ≠ []) :
    MarkedLast ((frags.mapIdx fun k f => (⟨f, k + 1 == frags.length⟩ : Emission)).map (·.marker)) := by
  rw [← List.dropLast_append_getLast h, List.mapIdx_concat, List.map_append, List.map_singleton]
  simp only [List.length_append, List.length_singleton, beq_self_eq_true]
  refine markedLast_append fun m hm => ?_
  obtain ⟨e, he, rfl⟩ := List.mem_map.1 hm
  obtain ⟨k, hk, rfl⟩ := List.mem_mapIdx.1 he
  simp only [beq_eq_false_iff_ne]
  omega

theorem fragmentsFrom_ne_nil {mtu fuel : ℕ} {n : List UInt8} {frags : List (List UInt8)}
    (hlong : 2 ≤ n.length) (h : fragmentsFrom mtu n fuel 0 = .ok frags) : frags ≠ [] := by
  rintro rfl
  rw [fragmentsFrom.eq_def] at h
  simp only [] at h
  rw [if_neg (by omega)] at h
  split at h
  · exact absurd h (by simp)
  · split at h
    · exact absurd h (by simp)
    · exact absurd h (by simp)
    · split at h <;> exact absurd h (by simp)

theorem largeFragments_ne_nil {mtu : ℕ} (hmtu : 1 ≤ mtu) : ∀ {nalus : List (List UInt8)}
    {large : List (List (List UInt8))}, largeFragments mtu nalus = .ok large →
      ∀ frags ∈ large, frags ≠ []
  | [], large, h, frags, hf => by
    rw [largeFragments] at h
    cases h
    exact absurd hf List.not_mem_nil
  | n :: ns, large, h, frags, hf => by
    rw [largeFragments] at h
    split at h
    · rename_i hlong
      split at h
      · cases h
      · rename_i first hfirst
        split at h
        · cases h
        · rename_i rest hrest
          cases h
          rcases List.mem_cons.1 hf with rfl | hf
          · exact fragmentsFrom_ne_nil (by omega) hfirst
          · exact largeFragments_ne_nil hmtu hrest frags hf
    · exact largeFragments_ne_nil hmtu h frags hf

/-! ### The walk -/

section Walk

variable {mtu : ℕ}

theorem one_le_stapASize (g : List (List UInt8)) : 1 ≤ stapASize g := Nat.le_add_right _ _

theorem not_passedOver {n : List UInt8} (h : n.length + 3 ≤ mtu) : ¬ PassedOver mtu n := by
  rintro ⟨-, hover⟩
  omega

theorem onePiece_long {n : List UInt8} {ns : List (List UInt8)} (hlong : mtu < n.length) :
    OnePiece mtu (n :: ns) ↔ ∀ m ∈ ns, PassedOver mtu m := by
  constructor
  · rintro ⟨pre, piece, post, hl, hpre, hpost, hpiece⟩
    cases pre with
    | cons m pre =>
      obtain ⟨rfl, -⟩ := List.cons.inj hl
      have hover := hpre n List.mem_cons_self
      rw [PassedOver] at hover
      omega
    | nil =>
      rw [List.nil_append] at hl
      rcases hpiece with ⟨m, rfl, -⟩ | ⟨hne, hfit⟩
      · obtain ⟨-, rfl⟩ := List.cons.inj hl
        exact hpost
      · obtain ⟨m, piece, rfl⟩ := List.exists_cons_of_ne_nil hne
        obtain ⟨rfl, -⟩ := List.cons.inj hl
        rw [stapASize_cons] at hfit
        omega
  · intro hover
    exact ⟨[], [n], ns, rfl, by simp, hover, .inl ⟨n, rfl, hlong⟩⟩

theorem onePiece_passedOver {n : List UInt8} {ns : List (List UInt8)} (hover : PassedOver mtu n) :
    OnePiece mtu (n :: ns) ↔ OnePiece mtu ns := by
  have hover' := hover
  rw [PassedOver] at hover'
  constructor
  · rintro ⟨pre, piece, post, hl, hpre, hpost, hpiece⟩
    cases pre with
    | cons m pre =>
      obtain ⟨rfl, hns⟩ := List.cons.inj hl
      exact ⟨pre, piece, post, hns, fun m hm => hpre m (List.mem_cons_of_mem _ hm), hpost, hpiece⟩
    | nil =>
      rw [List.nil_append] at hl
      rcases hpiece with ⟨m, rfl, hlong⟩ | ⟨hne, hfit⟩
      · obtain ⟨rfl, -⟩ := List.cons.inj hl
        omega
      · obtain ⟨m, piece, rfl⟩ := List.exists_cons_of_ne_nil hne
        obtain ⟨rfl, -⟩ := List.cons.inj hl
        have hpos := one_le_stapASize piece
        rw [stapASize_cons] at hfit
        omega
  · rintro ⟨pre, piece, post, rfl, hpre, hpost, hpiece⟩
    refine ⟨n :: pre, piece, post, rfl, fun m hm => ?_, hpost, hpiece⟩
    rcases List.mem_cons.1 hm with rfl | hm
    · exact hover
    · exact hpre m hm

theorem onePiece_group {g rest : List (List UInt8)} (hg : g ≠ []) (hfit : stapASize g ≤ mtu)
    (hstop : ∀ n ∈ rest.head?, mtu < stapASize (g ++ [n])) :
    OnePiece mtu (g ++ rest) ↔ ∀ m ∈ rest, PassedOver mtu m := by
  obtain ⟨a, g, rfl⟩ := List.exists_cons_of_ne_nil hg
  have hshort : a.length + 3 ≤ mtu := by
    have hpos := one_le_stapASize g
    rw [stapASize_cons] at hfit
    omega
  constructor
  · rintro ⟨pre, piece, post, hl, hpre, hpost, hpiece⟩
    cases pre with
    | cons m pre =>
      obtain ⟨rfl, -⟩ := List.cons.inj hl
      exact absurd (hpre a List.mem_cons_self) (not_passedOver hshort)
    | nil =>
      rw [List.nil_append] at hl
      rcases hpiece with ⟨m, rfl, hlong⟩ | ⟨-, hfits⟩
      · obtain ⟨rfl, -⟩ := List.cons.inj hl
        omega
      · rcases List.append_eq_append_iff.1 hl with ⟨more, rfl, rfl⟩ | ⟨more, -, rfl⟩
        · cases more with
          | nil => exact hpost
          | cons m more =>
            -- the piece would take a unit more than the group
            have hover := hstop m rfl
            have hpos := one_le_stapASize more
            simp only [stapASize_append, stapASize_cons, stapASize_nil] at hover hfits
            omega
        · exact fun m hm => hpost m (List.mem_append_right _ hm)
  · intro hover
    exact ⟨[], a :: g, rest, rfl, by simp, hover, .inr ⟨by simp, hfit⟩⟩

/-- What the walk does with the first unit. -/
theorem packetsFrom_cases {large : List (List (List UInt8))} {fuel i : ℕ} {n : List UInt8}
    {ns : List (List UInt8)} {ps : List (PacketKind × List Emission)}
    (h : packetsFrom mtu large (fuel + 1) i (n :: ns) = .ok ps) :
    (mtu < n.length ∧ ∃ frags ∈ large, ∃ qs, packetsFrom mtu large fuel (i + 1) ns = .ok qs
        ∧ ps = (.fua, frags.mapIdx fun k f => ⟨f, k + 1 == frags.length⟩) :: qs)
      ∨ (PassedOver mtu n ∧ packetsFrom mtu large fuel (i + 1) ns = .ok ps)
      ∨ ∃ g rest kind out qs, n :: ns = g ++ rest ∧ g ≠ [] ∧ stapASize g ≤ mtu
        ∧ (∀ m ∈ rest.head?, mtu < stapASize (g ++ [m]))
        ∧ packetsFrom mtu large fuel (i + g.length) rest = .ok qs
        ∧ ps = (kind, [⟨out, true⟩]) :: qs := by
  simp only [packetsFrom] at h
  by_cases hlong : mtu < n.length
  · rw [if_pos hlong] at h
    split at h
    · cases h
    · rename_i frags hfrags
      cases hns : packetsFrom mtu large fuel (i + 1) ns with
      | error e =>
        rw [hns] at h
        cases h
      | ok qs =>
        rw [hns] at h
        cases h
        exact .inl ⟨hlong, frags, List.mem_of_getElem? hfrags, qs, rfl, rfl⟩
  rw [if_neg hlong] at h
  generalize hbudget : (if 1 < mtu then mtu - 1 else 0) = budget at h
  generalize hg : stapAGroup mtu budget (n :: ns) = g at h
  have hfirst := hg
  rw [stapAGroup, if_neg hlong] at hfirst
  by_cases hover : budget < 2 + n.length
  · rw [if_pos hover] at hfirst
    rw [if_pos hfirst.symm] at h
    refine .inr (.inl ⟨⟨by omega, ?_⟩, h⟩)
    split_ifs at hbudget <;> omega
  · rw [if_neg hover] at hfirst
    have hne : g ≠ [] := hfirst ▸ List.cons_ne_nil _ _
    have hmtu : budget + 1 = mtu := by
      split_ifs at hbudget <;> omega
    have hfit : stapASize g ≤ mtu := hmtu ▸ hg ▸ stapASize_stapAGroup mtu budget (n :: ns)
    have hsplit := stapAGroup_isPrefixOf mtu budget (n :: ns)
    have hstop := stapAGroup_stops budget (n :: ns) (show budget < mtu by omega)
    rw [hg] at hsplit hstop
    rw [hmtu] at hstop
    obtain ⟨kind, out, hpacket⟩ := groupPackets_piece hne hfit
    rw [if_neg hne, hpacket] at h
    cases hrest : packetsFrom mtu large fuel (i + g.length) ((n :: ns).drop g.length) with
    | error e =>
      rw [hrest] at h
      cases h
    | ok qs =>
      rw [hrest] at h
      cases h
      exact .inr (.inr ⟨g, _, kind, out, qs, hsplit.symm, hne, hfit, hstop, hrest, rfl⟩)

theorem not_onePiece_nil : ¬ OnePiece mtu [] := by
  rintro ⟨pre, piece, post, hl, -, -, hpiece⟩
  obtain ⟨rfl, hrest⟩ := List.append_eq_nil_iff.1 hl.symm
  obtain ⟨rfl, rfl⟩ := List.append_eq_nil_iff.1 hrest
  rcases hpiece with ⟨n, hn, -⟩ | ⟨hne, -⟩
  · cases hn
  · exact hne rfl

/-- Every piece ends with the marker, and there is one for each long unit and each group. -/
theorem packetsFrom_pieces {large : List (List (List UInt8))} (hlarge : ∀ frags ∈ large, frags ≠ [])
    (fuel : ℕ) : ∀ (i : ℕ) (l : List (List UInt8)) (ps : List (PacketKind × List Emission)),
      l.length ≤ fuel → packetsFrom mtu large fuel i l = .ok ps →
        (∀ p ∈ ps, MarkedLast (p.2.map (·.marker))) ∧ (ps = [] ↔ ∀ n ∈ l, PassedOver mtu n)
          ∧ (ps.length = 1 ↔ OnePiece mtu l) := by
  have hnil : ∀ fuel i ps, packetsFrom mtu large fuel i [] = .ok ps →
      (∀ p ∈ ps, MarkedLast (p.2.map (·.marker))) ∧ (ps = [] ↔ ∀ n ∈ [], PassedOver mtu n)
        ∧ (ps.length = 1 ↔ OnePiece mtu []) := by
    intro fuel i ps h
    rw [packetsFrom] at h
    cases h
    simp [not_onePiece_nil]
  induction fuel with
  | zero =>
    intro i l ps hfuel h
    obtain rfl := List.length_eq_zero_iff.1 (Nat.le_zero.1 hfuel)
    exact hnil _ _ _ h
  | succ fuel ih =>
    intro i l ps hfuel h
    cases l with
    | nil => exact hnil _ _ _ h
    | cons n ns =>
      rw [List.length_cons] at hfuel
      rcases packetsFrom_cases h with ⟨hlong, frags, hfrags, qs, hqs, rfl⟩ | ⟨hover, hps⟩
        | ⟨g, rest, kind, out, qs, hsplit, hne, hfit, hstop, hqs, rfl⟩
      · obtain ⟨hpieces, hnone, -⟩ := ih _ ns qs (by omega) hqs
        refine ⟨fun p hp => ?_, ⟨fun hps => absurd hps (List.cons_ne_nil _ _), fun hall => ?_⟩, ?_⟩
        · rcases List.mem_cons.1 hp with rfl | hp
          · exact markedLast_fragments (hlarge frags hfrags)
          · exact hpieces p hp
        · have hover := hall n List.mem_cons_self
          rw [PassedOver] at hover
          omega
        · rw [onePiece_long hlong, ← hnone, List.length_cons, Nat.add_eq_right,
            List.length_eq_zero_iff]
      · obtain ⟨hpieces, hnone, hone⟩ := ih _ ns ps (by omega) hps
        refine ⟨hpieces, ?_, ?_⟩
        · rw [hnone, List.forall_mem_cons, and_iff_right hover]
        · rw [hone, onePiece_passedOver hover]
      · have hlength : g.length + rest.length = ns.length + 1 := by
          rw [← List.length_append, ← hsplit, List.length_cons]
        have hpos : 0 < g.length := List.length_pos_iff.2 hne
        obtain ⟨hpieces, hnone, -⟩ := ih _ rest qs (by omega) hqs
        refine ⟨fun p hp => ?_, ⟨fun hps => absurd hps (List.cons_ne_nil _ _), fun hall => ?_⟩, ?_⟩
        · rcases List.mem_cons.1 hp with rfl | hp
          · exact ⟨0, rfl⟩
          · exact hpieces p hp
        · obtain ⟨a, g, rfl⟩ := List.exists_cons_of_ne_nil hne
          have hsize := one_le_stapASize g
          rw [stapASize_cons] at hfit
          refine absurd (hall a ?_) (not_passedOver (by omega))
          rw [hsplit]
          exact List.mem_append_left _ List.mem_cons_self
        · rw [hsplit, onePiece_group hne hfit hstop, ← hnone, List.length_cons, Nat.add_eq_right,
            List.length_eq_zero_iff]

end Walk

/-! ### Frames -/

theorem fragmentsFrom_zero {n : List UInt8} {fuel : ℕ} {frags : List (List UInt8)}
    (h : fragmentsFrom 0 n fuel 0 = .ok frags) : frags = [] := by
  have hbuild : ∀ type fragment start final, buildFuA type fragment start final 0 = none := by
    intro type fragment start final
    rw [buildFuA, if_pos (by omega)]
  rw [fragmentsFrom.eq_def] at h
  simp only [hbuild] at h
  by_cases hbody : n.length - 1 ≤ 0
  · rw [if_pos hbody] at h
    cases h
    rfl
  · rw [if_neg hbody] at h
    cases fuel <;> cases h

theorem largeFragments_zero : ∀ {nalus : List (List UInt8)} {large : List (List (List UInt8))},
    largeFragments 0 nalus = .ok large → ∀ frags ∈ large, frags = []
  | [], large, h, frags, hf => by
    rw [largeFragments] at h
    cases h
    exact absurd hf List.not_mem_nil
  | n :: ns, large, h, frags, hf => by
    rw [largeFragments] at h
    split at h
    · split at h
      · cases h
      · rename_i first hfirst
        split at h
        · cases h
        · rename_i rest hrest
          cases h
          rcases List.mem_cons.1 hf with rfl | hf
          · exact fragmentsFrom_zero hfirst
          · exact largeFragments_zero hrest frags hf
    · exact largeFragments_zero h frags hf

/-- With an mtu of zero nothing is sent. -/
theorem packetsFrom_zero {large : List (List (List UInt8))} (hlarge : ∀ frags ∈ large, frags = [])
    (fuel : ℕ) : ∀ (i : ℕ) (l : List (List UInt8)) (ps : List (PacketKind × List Emission)),
      packetsFrom 0 large fuel i l = .ok ps → ps.flatMap (·.2) = [] := by
  induction fuel with
  | zero =>
    intro i l ps h
    cases l <;> cases h <;> rfl
  | succ fuel ih =>
    intro i l ps h
    cases l with
    | nil =>
      cases h
      rfl
    | cons n ns =>
      rcases packetsFrom_cases h with ⟨-, frags, hfrags, qs, hqs, rfl⟩ | ⟨-, hps⟩
        | ⟨g, rest, kind, out, qs, -, -, hfit, -⟩
      · rw [List.flatMap_cons, hlarge frags hfrags, ih _ _ _ hqs]
        rfl
      · exact ih _ _ _ hps
      · have hpos := one_le_stapASize g
        omega

/-- The marker is on the last packet alone exactly when what is sent is one piece. -/
theorem marksEnd_iff_onePiece {s s' : VideoSender} {nalus : List (List UInt8)} {rtpTs : UInt32}
    {sent : List CachedPacket} (h : s.emitH264 nalus rtpTs = .ok (s', sent)) (hsent : sent ≠ []) :
    MarksEnd sent ↔ OnePiece s.cfg.mtu nalus := by
  obtain ⟨ps, hps, hemit⟩ : ∃ ps, packetize s.cfg nalus = .ok ps
      ∧ s.emitPackets rtpTs ps = (s', sent) := by
    rw [VideoSender.emitH264] at h
    cases hps : packetize s.cfg nalus with
    | error e =>
      rw [hps] at h
      cases h
    | ok ps =>
      rw [hps] at h
      exact ⟨ps, rfl, Except.ok.inj h⟩
  have hmarkers := VideoSender.emitPackets_markers rtpTs ps s
  rw [hemit] at hmarkers
  obtain ⟨large, hlarge, hwalk⟩ : ∃ large, largeFragments s.cfg.mtu nalus = .ok large
      ∧ packetsFrom s.cfg.mtu large nalus.length 0 nalus = .ok ps := by
    rw [packetize] at hps
    split_ifs at hps
    split at hps
    · cases hps
    · exact ⟨_, ‹_›, hps⟩
  have hmtu : 1 ≤ s.cfg.mtu := by
    by_contra hzero
    have hmtu : s.cfg.mtu = 0 := by omega
    rw [hmtu] at hlarge hwalk
    rw [packetsFrom_zero (largeFragments_zero hlarge) _ _ _ _ hwalk] at hmarkers
    exact hsent (List.map_eq_nil_iff.1 hmarkers)
  obtain ⟨hpieces, -, hone⟩ := packetsFrom_pieces (largeFragments_ne_nil hmtu hlarge) _ 0 nalus ps
    (le_refl _) hwalk
  have hflat : (ps.flatMap (·.2)).map (·.marker) = (ps.map fun p => p.2.map (·.marker)).flatten := by
    rw [List.map_flatMap, List.flatMap_def]
  have hall : ∀ ms ∈ ps.map fun p => p.2.map (·.marker), MarkedLast ms := by
    intro ms hms
    obtain ⟨p, hp, rfl⟩ := List.mem_map.1 hms
    exact hpieces p hp
  rw [marksEnd_iff, hmarkers, hflat, markedLast_flatten_iff hall, List.length_map, hone]

/-- Parameter sets and a slice that share one packet. -/
def sharedFrame : List (List UInt8) := [[0x67, 1], [0x68, 2], [0x65, 3]]

theorem marksEnd_sharedFrame :
    ∃ s' sent, VideoSender.emitH264 { cfg := { mtu := 20 } } sharedFrame 0 = .ok (s', sent)
      ∧ MarksEnd sent := by
  obtain ⟨⟨s', sent⟩, h⟩ : ∃ r, VideoSender.emitH264 { cfg := { mtu := 20 } } sharedFrame 0 = .ok r :=
    ⟨_, rfl⟩
  have hmarkers : (VideoSender.emitH264 { cfg := { mtu := 20 } } sharedFrame 0).map
      (fun r => r.2.map (·.marker)) = .ok [true] := by decide
  rw [h] at hmarkers
  have hsent : sent ≠ [] := by
    rintro rfl
    cases hmarkers
  exact ⟨s', sent, h, (marksEnd_iff_onePiece h hsent).2
    ⟨[], sharedFrame, [], rfl, by simp, by simp, .inr ⟨by decide, by decide⟩⟩⟩

/-- With an mtu of nine the slice goes after a packet that has the marker already. -/
theorem marker_before_end : ¬ ∀ (s s' : VideoSender) (nalus : List (List UInt8)) (rtpTs : UInt32)
    (sent : List CachedPacket), s.emitH264 nalus rtpTs = .ok (s', sent) → sent ≠ [] →
      MarksEnd sent := by
  intro hlaw
  obtain ⟨⟨s', sent⟩, h⟩ : ∃ r, VideoSender.emitH264 { cfg := { mtu := 9 } } sharedFrame 0 = .ok r :=
    ⟨_, rfl⟩
  have hmarkers : (VideoSender.emitH264 { cfg := { mtu := 9 } } sharedFrame 0).map
      (fun r => r.2.map (·.marker)) = .ok [true, true] := by decide
  rw [h] at hmarkers
  have hsent : sent ≠ [] := by
    rintro rfl
    cases hmarkers
  have hcount := count_of_markedLast (marksEnd_iff.1 (hlaw _ s' sharedFrame 0 sent h hsent))
  have htwo : sent.map (·.marker) = [true, true] := Except.ok.inj hmarkers
  rw [htwo] at hcount
  exact absurd hcount (by decide)

end H264

end NimRtc
