import NimRtc.Proofs.H264RoundTrip

/-!
# The index of the fragment table

`large_fragments` has an entry for each NAL unit longer than the mtu, in order, and is read at the
unit's place in the whole list. The two agree exactly when the long units come first.
-/

namespace NimRtc

namespace H264

/-- The table that `emit_h264` builds has at the place of every long unit the fragments of that
unit. Nothing is looked up when there is no table. -/
def LookupsAgree (cfg : SenderConfig) (nalus : List (List UInt8)) : Prop :=
  cfg.packetizationMode ≠ .interleaved → ∀ large, largeFragments cfg.mtu nalus = .ok large →
    ∀ (i : ℕ) n, nalus[i]? = some n → cfg.mtu < n.length →
      ∃ frags, large[i]? = some frags ∧ fragmentsFrom cfg.mtu n n.length 0 = .ok frags

/-- The fragments of some long unit cannot be built, since an mtu of at most two bytes has no room
for a byte of it. -/
def Unbuildable (mtu : ℕ) (nalus : List (List UInt8)) : Prop :=
  mtu ≤ 2 ∧ ∃ n ∈ nalus, mtu < n.length ∧ 2 ≤ n.length

/-- The units longer than the mtu come before the others. -/
def LongFirst (mtu : ℕ) (nalus : List (List UInt8)) : Prop :=
  ∃ large short, nalus = large ++ short ∧ (∀ n ∈ large, mtu < n.length)
    ∧ ∀ n ∈ short, n.length ≤ mtu

/-! ### Building the table -/

theorem fragmentsFrom_ok {mtu : ℕ} (hmtu : 3 ≤ mtu) (first : UInt8) (body : List UInt8) :
    ∀ (fuel offset : ℕ), body.length ≤ offset + fuel →
      ∃ frags, fragmentsFrom mtu (first :: body) fuel offset = .ok frags
  | fuel, offset, hle => by
    by_cases hdone : body.length ≤ offset
    · refine ⟨[], ?_⟩
      rw [fragmentsFrom.eq_def]
      simp [hdone]
    · cases fuel with
      | zero => omega
      | succ fuel =>
        obtain ⟨len, hlen⟩ : ∃ len, len = min (mtu - 2) (body.length - offset) := ⟨_, rfl⟩
        obtain ⟨frags, hfrags⟩ := fragmentsFrom_ok hmtu first body fuel (offset + len) (by omega)
        exact ⟨_, fragmentsFrom_succ hmtu first body (by omega) hlen fuel hfrags⟩

/-- An mtu of at most two bytes has room for the headers of a fragment at most. -/
theorem fragmentsFrom_small {mtu : ℕ} (hmtu : mtu ≤ 2) {n : List UInt8} (hn : 2 ≤ n.length) :
    ∀ (fuel : ℕ), ∃ e, fragmentsFrom mtu n fuel 0 = .error e
  | 0 => by
    refine ⟨.diverges, ?_⟩
    rw [fragmentsFrom.eq_def]
    simp only []
    rw [if_neg (by omega)]
  | fuel + 1 => by
    obtain ⟨e, he⟩ := fragmentsFrom_small hmtu hn fuel
    have hempty : (if (if 2 < mtu then mtu - 2 else 0) < n.length - 1 - 0
        then (if 2 < mtu then mtu - 2 else 0) else n.length - 1 - 0) = 0 := by
      rw [if_neg (by omega : ¬ 2 < mtu), if_pos (by omega)]
    rw [fragmentsFrom.eq_def]
    simp only [hempty, Nat.add_zero, he]
    rw [if_neg (by omega)]
    split
    · exact ⟨_, rfl⟩
    · exact ⟨_, rfl⟩
    · exact ⟨_, rfl⟩

/-- The table holds the fragments of the long units in order. -/
theorem largeFragments_ok {mtu : ℕ} : ∀ {nalus : List (List UInt8)}
    {large : List (List (List UInt8))}, largeFragments mtu nalus = .ok large →
      large = (nalus.filter fun n => mtu < n.length).map (fragmentsOf mtu)
        ∧ ∀ n ∈ nalus, mtu < n.length → fragmentsFrom mtu n n.length 0 = .ok (fragmentsOf mtu n)
  | [], large, h => by
    cases h
    exact ⟨rfl, by simp⟩
  | n :: ns, large, h => by
    rw [largeFragments] at h
    split at h
    · rename_i hlong
      split at h
      · cases h
      · rename_i frags hfrags
        have hof : fragmentsOf mtu n = frags := by rw [fragmentsOf, hfrags]
        split at h
        · cases h
        · rename_i rest hrest
          cases h
          obtain ⟨hlarge, hall⟩ := largeFragments_ok hrest
          refine ⟨?_, fun m hm hm' => ?_⟩
          · rw [List.filter_cons_of_pos (by simpa using hlong), List.map_cons, hof, ← hlarge]
          · rcases List.mem_cons.1 hm with rfl | hm
            · rw [hof, hfrags]
            · exact hall m hm hm'
    · rename_i hshort
      obtain ⟨hlarge, hall⟩ := largeFragments_ok h
      refine ⟨?_, fun m hm hm' => ?_⟩
      · rw [List.filter_cons_of_neg (by simpa using hshort), ← hlarge]
      · rcases List.mem_cons.1 hm with rfl | hm
        · exact absurd hm' hshort
        · exact hall m hm hm'

theorem largeFragments_isOk {mtu : ℕ} : ∀ {nalus : List (List UInt8)},
    ¬ Unbuildable mtu nalus → ∃ large, largeFragments mtu nalus = .ok large
  | [], _ => ⟨[], rfl⟩
  | n :: ns, h => by
    have hrest : ¬ Unbuildable mtu ns := by
      rintro ⟨hmtu, m, hm, hbad⟩
      exact h ⟨hmtu, m, List.mem_cons_of_mem _ hm, hbad⟩
    obtain ⟨rest, hrest⟩ := largeFragments_isOk hrest
    rw [largeFragments]
    split
    · rename_i hlong
      have hfrags : ∃ frags, fragmentsFrom mtu n n.length 0 = .ok frags := by
        cases n with
        | nil => exact absurd hlong (Nat.not_lt_zero _)
        | cons first body =>
          rcases Nat.lt_or_ge 2 mtu with hmtu | hmtu
          · exact fragmentsFrom_ok hmtu first body _ 0 (by simp)
          · have hone : ¬ 2 ≤ (first :: body).length :=
              fun htwo => h ⟨hmtu, _, List.mem_cons_self, hlong, htwo⟩
            refine ⟨[], ?_⟩
            rw [fragmentsFrom.eq_def]
            simp only []
            rw [if_pos (by omega)]
      obtain ⟨frags, hfrags⟩ := hfrags
      rw [hfrags, hrest]
      exact ⟨_, rfl⟩
    · exact ⟨rest, hrest⟩

theorem largeFragments_unbuildable {mtu : ℕ} {nalus : List (List UInt8)}
    (h : Unbuildable mtu nalus) (large : List (List (List UInt8))) :
    largeFragments mtu nalus ≠ .ok large := by
  intro hok
  obtain ⟨hmtu, n, hn, hlong, htwo⟩ := h
  obtain ⟨e, he⟩ := fragmentsFrom_small hmtu htwo n.length
  rw [(largeFragments_ok hok).2 n hn hlong] at he
  cases he

/-! ### Looking it up -/

/-- The lookups agree exactly in interleaved mode, which is refused, where there is no table, and
where the long units come first. -/
theorem lookupsAgree_iff (cfg : SenderConfig) (nalus : List (List UInt8)) :
    LookupsAgree cfg nalus ↔ cfg.packetizationMode = .interleaved ∨ Unbuildable cfg.mtu nalus
      ∨ LongFirst cfg.mtu nalus := by
  constructor
  · intro h
    by_cases hmode : cfg.packetizationMode = .interleaved
    · exact .inl hmode
    by_cases hbuild : Unbuildable cfg.mtu nalus
    · exact .inr (.inl hbuild)
    refine .inr (.inr ?_)
    obtain ⟨large, hlarge⟩ := largeFragments_isOk hbuild
    rcases large_first_or cfg.mtu nalus with hfirst | ⟨j, n, hj, hlong, hpast⟩
    · exact hfirst
    · obtain ⟨frags, hfrags, -⟩ := h hmode large hlarge j n hj hlong
      obtain ⟨hlt, -⟩ := List.getElem?_eq_some_iff.1 hfrags
      rw [(largeFragments_ok hlarge).1, List.length_map] at hlt
      omega
  · rintro (hmode | hbuild | ⟨large, short, rfl, hlong, hshort⟩)
    · exact fun hno => absurd hmode hno
    · exact fun _ large hlarge => absurd hlarge (largeFragments_unbuildable hbuild large)
    · intro _ table htable i n hn hn'
      obtain ⟨hall, hfrags⟩ := largeFragments_ok htable
      rw [filter_large hlong hshort] at hall
      have hi : i < large.length := by
        by_contra hpast
        rw [List.getElem?_append_right (by omega)] at hn
        have := hshort n (List.mem_of_getElem? hn)
        omega
      refine ⟨fragmentsOf cfg.mtu n, ?_, hfrags n (List.mem_of_getElem? hn) hn'⟩
      rw [List.getElem?_append_left hi] at hn
      rw [hall, List.getElem?_map, hn]
      rfl

/-- A parameter set before a long slice: the slice is looked up past the end of the table. -/
theorem parameterSet_before_slice : ¬ ∀ cfg nalus, LookupsAgree cfg nalus := by
  intro h
  have hslice := h { mtu := 3 } [[0x67], [0x65, 1, 2, 3]] (by decide)
    [fragmentsOf 3 [0x65, 1, 2, 3]] (by decide) 1 [0x65, 1, 2, 3] rfl (by decide)
  obtain ⟨frags, hfrags, -⟩ := hslice
  simp at hfrags

end H264

end NimRtc
