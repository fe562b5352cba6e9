import NimRtc.Proofs.FmtpText

/-!
# Codec parameters read back

Each parameter that is built sets the field it was built from. The switch for level asymmetry is
built as on whenever it is there, and a profile mapping is built as it is, without its encoding.
-/

namespace NimRtc

namespace VideoSdp

/-! ### One parameter -/

theorem bind_ok {α β : Type} {x : Except FmtpError α} {f : α → β} {y : β}
    (h : (do return f (← x)) = Except.ok y) : ∃ a, x = .ok a ∧ y = f a := by
  cases x with
  | error e => cases h
  | ok a => exact ⟨a, rfl, (Except.ok.inj h).symm⟩

section Parameter

variable {σ : Type} {f : σ → Text × Text → Except FmtpError σ} {s s' : σ} {p : Text × Text}
  {key : String} {g : σ → Option ℕ}

theorem reads_own (hk : iequals p.1 key = true)
    (h : ∃ n, parseIntValue p.2 = some n ∧ 0 ≤ n ∧ g s' = some (n % 2 ^ 32).toNat) :
    if iequals p.1 key then
      ∃ n, parseIntValue p.2 = some n ∧ 0 ≤ n ∧ g s' = some (n % 2 ^ 32).toNat
    else g s' = g s := by
  rwa [if_pos hk]

theorem reads_not (hk : iequals p.1 key = false) (h : g s' = g s) :
    if iequals p.1 key then
      ∃ n, parseIntValue p.2 = some n ∧ 0 ≤ n ∧ g s' = some (n % 2 ^ 32).toNat
    else g s' = g s := by
  rwa [hk, if_neg Bool.false_ne_true]

/-- A table of numeric parameters, each with the field that it sets. -/
theorem numbers_iff {table : List (String × (σ → Option ℕ))} {fmtpRaw : Text}
    (htable : ∀ q ∈ table, ReadsNumber f q.1 q.2) (hstart : ∀ q ∈ table, q.2 s = none)
    (hfold : (splitFmtpPairs fmtpRaw).foldlM f s = .ok s') :
    ReadsDecimals fmtpRaw (table.map fun q => (q.1, q.2 s'))
      ↔ Fits fmtpRaw (table.map fun q => (q.1, q.2 s')) := by
  unfold ReadsDecimals Fits
  rw [List.forall_mem_map, List.forall_mem_map]
  refine forall₂_congr fun q hq => ?_
  have hnumber := number_iff (htable q hq) (hstart q hq) hfold
  exact hnumber

/-- A value that is built sets its field. -/
theorem foldlM_pairOf {α : Type} {parse : Text → Except FmtpError α}
    (f : σ → Text × Text → Except FmtpError σ) (k : String) (text : α → Text)
    (set : Option α → σ) (x : Option α)
    (hstep : ∀ v, f (set none) (k.toList, v) = (do return set (some (← parse v))))
    (hparse : ∀ a, x = some a → parse (text a) = .ok a) :
    (pairOf k (x.map text)).foldlM f (set none) = .ok (set x) := by
  cases x with
  | none => rfl
  | some a =>
    rw [pairOf, Option.map_some, Option.map_some, Option.toList_some, List.foldlM_cons, hstep,
      hparse a rfl]
    rfl

theorem foldlM_count {message : String} (f : σ → Text × Text → Except FmtpError σ) (k : String)
    (set : Option UInt32 → σ) (n : Option UInt32)
    (hstep : ∀ v, f (set none) (k.toList, v) = (do return set (some (← parseCount v message)))) :
    (pairOf k (countText n)).foldlM f (set none) = .ok (set n) :=
  foldlM_pairOf f k _ set n hstep fun m _ => parseCount_number m message

theorem foldlM_append_ok {l l' : List (Text × Text)} {s₀ : σ} (h : l.foldlM f s₀ = .ok s) :
    (l ++ l').foldlM f s₀ = l'.foldlM f s := by
  rw [List.foldlM_append, h]
  rfl

/-- What each parameter that is accepted keeps, all of them keep. -/
theorem foldlM_invariant {P : σ → Prop} (hstep : ∀ s p s', P s → f s p = .ok s' → P s') :
    ∀ {pairs : List (Text × Text)} {s s' : σ}, P s → pairs.foldlM f s = .ok s' → P s'
  | [], s, s', hs, hfold => by
    obtain rfl := Except.ok.inj hfold
    exact hs
  | p :: pairs, s, s', hs, hfold => by
    rw [List.foldlM_cons] at hfold
    rcases hmid : f s p with _ | mid
    · rw [hmid] at hfold
      cases hfold
    · rw [hmid] at hfold
      exact foldlM_invariant hstep (hstep s p mid hs hmid) hfold

end Parameter

theorem parseCount_ok {v : Text} {message : String} {n : UInt32}
    (h : parseCount v message = .ok n) :
    ∃ m, parseIntValue v = some m ∧ 0 ≤ m ∧ some n.toNat = some (m % 2 ^ 32).toNat := by
  unfold parseCount at h
  rcases hm : parseIntValue v with _ | m
  · rw [hm] at h
    cases h
  · rw [hm] at h
    simp only at h
    split_ifs at h with hneg
    obtain rfl := Except.ok.inj h
    refine ⟨m, rfl, not_lt.1 hneg, ?_⟩
    rw [toUint32, UInt32.toNat_ofNat_of_lt' (by rw [UInt32.size]; omega)]

/-! ### The text that is built -/

theorem splitFmtpPairs_appendSome_out {out : Text} {k : String} {v : Option Text} :
    splitFmtpPairs (appendSome out k v)
      = splitFmtpPairs out ++ splitFmtpPairs (appendSome [] k v) := by
  cases v with
  | none => rw [appendSome, appendSome, splitFmtpPairs_nil, List.append_nil]
  | some v =>
    rw [appendSome, appendSome, splitFmtpPairs_appendKv, splitFmtpPairs_appendKv k,
      splitFmtpPairs_nil, List.nil_append]

theorem lastValue_append (key : String) (l l' : List (Text × Text)) :
    lastValue key (l ++ l') = (lastValue key l').or (lastValue key l) := by
  unfold lastValue
  rw [List.filter_append, List.getLast?_append, Option.map_or]

theorem lastValue_pairOf {key k : String} (h : iequals k.toList key = false) (v : Option Text) :
    lastValue key (pairOf k v) = none := by
  cases v with
  | none => rfl
  | some v => simp [lastValue, pairOf, h]

theorem exists_mem_of_lastValue {key : String} {pairs : List (Text × Text)} {v : Text}
    (h : lastValue key pairs = some v) : ∃ p ∈ pairs, p.2 = v := by
  obtain ⟨p, hp, rfl⟩ := Option.map_eq_some_iff.1 h
  exact ⟨p, List.mem_of_mem_filter (List.mem_of_getLast? hp), rfl⟩

theorem fmtpPair_length_le {s : Text} {p : Text × Text} (h : fmtpPair s = some p) :
    p.2.length ≤ s.length := by
  unfold fmtpPair at h
  simp only at h
  split_ifs at h
  · obtain rfl := Option.some.inj h
    calc (urlDecode (strip ((strip s).dropWhile (· ≠ '=')).tail)).length
        ≤ (strip ((strip s).dropWhile (· ≠ '=')).tail).length := urlDecode_length_le _
      _ ≤ ((strip s).dropWhile (· ≠ '=')).tail.length := strip_length_le _
      _ ≤ ((strip s).dropWhile (· ≠ '=')).length := (List.tail_suffix _).length_le
      _ ≤ (strip s).length := (List.dropWhile_suffix _).length_le
      _ ≤ s.length := strip_length_le s
  · obtain rfl := Option.some.inj h
    exact Nat.zero_le _

/-- No value is longer than the text that it is read from. -/
theorem value_length_le {s : Text} {p : Text × Text} (h : p ∈ splitFmtpPairs s) :
    p.2.length ≤ s.length := by
  by_cases hsemi : ';' ∈ s
  · obtain ⟨front, rest, rfl⟩ := List.append_of_mem hsemi
    rw [splitFmtpPairs_append_semicolon, List.mem_append] at h
    rw [List.length_append, List.length_cons]
    rcases h with h | h
    · have := value_length_le h
      omega
    · have := value_length_le h
      omega
  · rw [splitFmtpPairs, List.splitOn_eq_singleton hsemi] at h
    obtain ⟨pair, hpair, hp⟩ := List.mem_filterMap.1 h
    obtain rfl := List.mem_singleton.1 hpair
    exact fmtpPair_length_le hp
termination_by s.length

/-- White space, the semicolon and the percent sign. -/
def notPlain : Text := [' ', '\t', '\n', '\r', Char.ofNat 11, Char.ofNat 12, ';', '%']

theorem plain_of_all {q : Char → Bool} {v : Text} (h : v.all q = true)
    (hq : (notPlain.all fun c => !q c) = true) : Plain v := by
  refine plain_of_chars fun c hc => ?_
  have hnot : c ∉ notPlain := by
    intro hmem
    have hfalse := List.all_eq_true.1 hq c hmem
    rw [List.all_eq_true.1 h c hc] at hfalse
    cases hfalse
  have htab : c.toNat = 11 → c = Char.ofNat 11 := fun h => by rw [← h, Char.ofNat_toNat]
  have hfeed : c.toNat = 12 → c = Char.ofNat 12 := fun h => by rw [← h, Char.ofNat_toNat]
  simp only [notPlain, List.mem_cons, List.not_mem_nil, or_false, not_or] at hnot
  refine ⟨?_, hnot.2.2.2.2.2.2.1, hnot.2.2.2.2.2.2.2⟩
  simp only [InputStream.isSpace, Bool.or_eq_false_iff, beq_eq_false_iff_ne]
  exact ⟨⟨⟨⟨⟨hnot.1, hnot.2.1⟩, hnot.2.2.1⟩, hnot.2.2.2.1⟩, mt htab hnot.2.2.2.2.1⟩,
    mt hfeed hnot.2.2.2.2.2.1⟩

/-! ### VP8 -/

section Vp8

variable {out out' : Vp8Fmtp} {p : Text × Text}

theorem parseVp8Pair_cases (h : parseVp8Pair out p = .ok out') :
    (iequals p.1 "max-fr" = true ∧ ∃ n, parseCount p.2 "vp8 max-fr" = .ok n
        ∧ out' = { out with maxFr := some n })
      ∨ (iequals p.1 "max-fs" = true ∧ ∃ n, parseCount p.2 "vp8 max-fs" = .ok n
        ∧ out' = { out with maxFs := some n })
      ∨ ((∀ k ∈ ["max-fr", "max-fs"], iequals p.1 k = false) ∧ out' = out) := by
  unfold parseVp8Pair at h
  split_ifs at h with h1 h2
  · exact .inl ⟨h1, bind_ok h⟩
  · exact .inr (.inl ⟨h2, bind_ok h⟩)
  · exact .inr (.inr ⟨by simp [h1, h2], (Except.ok.inj h).symm⟩)

theorem readsNumber_vp8 : ∀ q ∈ vp8Numbers, ReadsNumber parseVp8Pair q.1 q.2 := by
  intro q hq out p out' h
  simp only [vp8Numbers, List.mem_cons, List.not_mem_nil, or_false] at hq
  rcases parseVp8Pair_cases h with ⟨hk, n, hn, rfl⟩ | ⟨hk, n, hn, rfl⟩ | ⟨hk, rfl⟩
  · rcases hq with rfl | rfl
    · exact reads_own hk (parseCount_ok hn)
    · exact reads_not (iequals_unique hk (by decide)) rfl
  · rcases hq with rfl | rfl
    · exact reads_not (iequals_unique hk (by decide)) rfl
    · exact reads_own hk (parseCount_ok hn)
  · rcases hq with rfl | rfl
    · exact reads_not (hk _ (by simp)) rfl
    · exact reads_not (hk _ (by simp)) rfl

theorem vp8_numbers_iff {s : Text} {cfg : Vp8Fmtp} (h : parseVp8 s = .ok cfg) :
    ReadsDecimals s cfg.numbers ↔ Fits s cfg.numbers :=
  numbers_iff readsNumber_vp8 (by simp [vp8Numbers]) h

theorem splitFmtpPairs_buildVp8Fmtp (cfg : Vp8Fmtp) :
    splitFmtpPairs (buildVp8Fmtp cfg)
      = pairOf "max-fr" (countText cfg.maxFr) ++ pairOf "max-fs" (countText cfg.maxFs) := by
  rw [buildVp8Fmtp, splitFmtpPairs_appendSome ⟨by decide, by decide⟩ (plain_countText _),
    splitFmtpPairs_appendSome ⟨by decide, by decide⟩ (plain_countText _), splitFmtpPairs_nil,
    List.nil_append]

theorem parseVp8_buildVp8Fmtp (cfg : Vp8Fmtp) : parseVp8 (buildVp8Fmtp cfg) = .ok cfg := by
  have hfr : (pairOf "max-fr" (countText cfg.maxFr)).foldlM parseVp8Pair {}
      = .ok { maxFr := cfg.maxFr } :=
    foldlM_count parseVp8Pair "max-fr" (fun n => { maxFr := n }) cfg.maxFr fun _ => rfl
  have hfs : (pairOf "max-fs" (countText cfg.maxFs)).foldlM parseVp8Pair { maxFr := cfg.maxFr }
      = .ok cfg :=
    foldlM_count parseVp8Pair "max-fs" (fun n => { cfg with maxFs := n }) cfg.maxFs fun _ => rfl
  rw [parseVp8, splitFmtpPairs_buildVp8Fmtp, foldlM_append_ok hfr, hfs]

end Vp8

/-! ### VP9 -/

section Vp9

variable {out out' : Vp9Fmtp} {p : Text × Text}

theorem parseProfileId_ok {v : Text} {n : UInt32} (h : parseProfileId v = .ok n) :
    n.toNat ≤ 3
      ∧ ∃ m, parseIntValue v = some m ∧ 0 ≤ m ∧ some n.toNat = some (m % 2 ^ 32).toNat := by
  unfold parseProfileId at h
  rcases hm : parseIntValue v with _ | m
  · rw [hm] at h
    cases h
  · rw [hm] at h
    simp only at h
    split_ifs at h with hrange
    obtain rfl := Except.ok.inj h
    have hvalue : (toUint32 m).toNat = (m % 2 ^ 32).toNat := by
      rw [toUint32, UInt32.toNat_ofNat_of_lt' (by rw [UInt32.size]; omega)]
    refine ⟨by omega, m, rfl, by omega, ?_⟩
    rw [hvalue]

theorem parseProfileId_number {n : UInt32} (h : n.toNat ≤ 3) :
    parseProfileId (number n.toNat) = .ok n := by
  have hcount := parseCount_number n "vp9 profile-id"
  rw [parseCount, parseIntValue_number n.toNat_lt] at hcount
  rw [parseProfileId, parseIntValue_number n.toNat_lt]
  simp only at hcount ⊢
  rw [if_neg (by omega)] at hcount ⊢
  exact hcount

theorem parseVp9Pair_cases (h : parseVp9Pair out p = .ok out') :
    (iequals p.1 "profile-id" = true ∧ ∃ n, parseProfileId p.2 = .ok n
        ∧ out' = { out with profileId := some n })
      ∨ (iequals p.1 "profile-mapping" = true ∧ out' = { out with profileMapping := some p.2 })
      ∨ (iequals p.1 "max-fr" = true ∧ ∃ n, parseCount p.2 "vp9 max-fr" = .ok n
        ∧ out' = { out with maxFr := some n })
      ∨ (iequals p.1 "max-fs" = true ∧ ∃ n, parseCount p.2 "vp9 max-fs" = .ok n
        ∧ out' = { out with maxFs := some n })
      ∨ (iequals p.1 "max-br" = true ∧ ∃ n, parseCount p.2 "vp9 max-br" = .ok n
        ∧ out' = { out with maxBr := some n })
      ∨ ((∀ k ∈ ["profile-id", "profile-mapping", "max-fr", "max-fs", "max-br"],
          iequals p.1 k = false) ∧ out' = out) := by
  unfold parseVp9Pair at h
  split_ifs at h with h1 h2 h3 h4 h5
  · exact .inl ⟨h1, bind_ok h⟩
  · exact .inr (.inl ⟨h2, (Except.ok.inj h).symm⟩)
  · exact .inr (.inr (.inl ⟨h3, bind_ok h⟩))
  · exact .inr (.inr (.inr (.inl ⟨h4, bind_ok h⟩)))
  · exact .inr (.inr (.inr (.inr (.inl ⟨h5, bind_ok h⟩))))
  · exact .inr (.inr (.inr (.inr (.inr ⟨by simp [h1, h2, h3, h4, h5], (Except.ok.inj h).symm⟩))))

theorem readsNumber_vp9 : ∀ q ∈ vp9Numbers, ReadsNumber parseVp9Pair q.1 q.2 := by
  intro q hq out p out' h
  simp only [vp9Numbers, List.mem_cons, List.not_mem_nil, or_false] at hq
  rcases parseVp9Pair_cases h with
    ⟨hk, n, hn, rfl⟩ | ⟨hk, rfl⟩ | ⟨hk, n, hn, rfl⟩ | ⟨hk, n, hn, rfl⟩ | ⟨hk, n, hn, rfl⟩
    | ⟨hk, rfl⟩
  all_goals rcases hq with rfl | rfl | rfl | rfl
  all_goals
    first
    | exact reads_not (iequals_unique hk (by decide)) rfl
    | exact reads_not (hk _ (by simp)) rfl
    | exact reads_own hk (parseCount_ok hn)
    | exact reads_own hk (parseProfileId_ok hn).2

theorem vp9_numbers_iff {s : Text} {cfg : Vp9Fmtp} (h : parseVp9 s = .ok cfg) :
    ReadsDecimals s cfg.numbers ↔ Fits s cfg.numbers :=
  numbers_iff readsNumber_vp9 (by simp [vp9Numbers]) h

theorem profileId_le {s : Text} {cfg : Vp9Fmtp} (h : parseVp9 s = .ok cfg) :
    ∀ n, cfg.profileId = some n → n.toNat ≤ 3 := by
  refine foldlM_invariant (P := fun cfg : Vp9Fmtp => ∀ n, cfg.profileId = some n → n.toNat ≤ 3)
    (fun out p out' hout hstep => ?_) (fun n hn => by cases hn) h
  rcases parseVp9Pair_cases hstep with
    ⟨-, n, hn, rfl⟩ | ⟨-, rfl⟩ | ⟨-, n, -, rfl⟩ | ⟨-, n, -, rfl⟩ | ⟨-, n, -, rfl⟩ | ⟨-, rfl⟩
  · rintro m hm
    obtain rfl := Option.some.inj hm
    exact (parseProfileId_ok hn).1
  all_goals exact hout

/-- The mapping is the last that the text has. -/
theorem profileMapping_eq :
    ∀ {pairs : List (Text × Text)} {s s' : Vp9Fmtp}, pairs.foldlM parseVp9Pair s = .ok s' →
      s'.profileMapping = (lastValue "profile-mapping" pairs).or s.profileMapping
  | [], s, s', hfold => by
    obtain rfl := Except.ok.inj hfold
    rfl
  | p :: pairs, s, s', hfold => by
    rw [List.foldlM_cons] at hfold
    rcases hmid : parseVp9Pair s p with _ | mid
    · rw [hmid] at hfold
      cases hfold
    · rw [hmid] at hfold
      rw [profileMapping_eq hfold, lastValue_cons, Option.or_assoc]
      congr 1
      rcases parseVp9Pair_cases hmid with
        ⟨hk, n, -, rfl⟩ | ⟨hk, rfl⟩ | ⟨hk, n, -, rfl⟩ | ⟨hk, n, -, rfl⟩ | ⟨hk, n, -, rfl⟩
        | ⟨hk, rfl⟩
      · rw [iequals_unique hk (by decide)]
        rfl
      · rw [hk]
        rfl
      · rw [iequals_unique hk (by decide)]
        rfl
      · rw [iequals_unique hk (by decide)]
        rfl
      · rw [iequals_unique hk (by decide)]
        rfl
      · rw [hk _ (by simp)]
        rfl

theorem splitFmtpPairs_buildVp9Fmtp (cfg : Vp9Fmtp) :
    splitFmtpPairs (buildVp9Fmtp cfg)
      = pairOf "profile-id" (countText cfg.profileId)
        ++ (splitFmtpPairs (appendSome [] "profile-mapping" cfg.profileMapping)
          ++ (pairOf "max-fr" (countText cfg.maxFr)
            ++ (pairOf "max-fs" (countText cfg.maxFs)
              ++ pairOf "max-br" (countText cfg.maxBr)))) := by
  unfold buildVp9Fmtp
  rw [splitFmtpPairs_appendSome ⟨by decide, by decide⟩ (plain_countText _),
    splitFmtpPairs_appendSome ⟨by decide, by decide⟩ (plain_countText _),
    splitFmtpPairs_appendSome ⟨by decide, by decide⟩ (plain_countText _),
    splitFmtpPairs_appendSome_out,
    splitFmtpPairs_appendSome ⟨by decide, by decide⟩ (plain_countText _), splitFmtpPairs_nil,
    List.nil_append]
  simp only [List.append_assoc]

theorem parseVp9_of_mappingPlain {cfg : Vp9Fmtp} (hid : ∀ n, cfg.profileId = some n → n.toNat ≤ 3)
    (hplain : cfg.MappingPlain) : parseVp9 (buildVp9Fmtp cfg) = .ok cfg := by
  have hprofile : (pairOf "profile-id" (countText cfg.profileId)).foldlM parseVp9Pair {}
      = .ok { profileId := cfg.profileId } :=
    foldlM_pairOf parseVp9Pair "profile-id" _ (fun n => { profileId := n }) cfg.profileId
      (fun _ => rfl) fun n hn => parseProfileId_number (hid n hn)
  have hmapping : (pairOf "profile-mapping" cfg.profileMapping).foldlM parseVp9Pair
        { profileId := cfg.profileId }
      = .ok { profileId := cfg.profileId, profileMapping := cfg.profileMapping } := by
    cases cfg.profileMapping with
    | none => rfl
    | some mapping => rfl
  have hfr : (pairOf "max-fr" (countText cfg.maxFr)).foldlM parseVp9Pair
        { profileId := cfg.profileId, profileMapping := cfg.profileMapping }
      = .ok { cfg with maxFs := none, maxBr := none } :=
    foldlM_count parseVp9Pair "max-fr"
      (fun n => { cfg with maxFr := n, maxFs := none, maxBr := none }) cfg.maxFr fun _ => rfl
  have hfs : (pairOf "max-fs" (countText cfg.maxFs)).foldlM parseVp9Pair
        { cfg with maxFs := none, maxBr := none }
      = .ok { cfg with maxBr := none } :=
    foldlM_count parseVp9Pair "max-fs" (fun n => { cfg with maxFs := n, maxBr := none }) cfg.maxFs
      fun _ => rfl
  have hbr : (pairOf "max-br" (countText cfg.maxBr)).foldlM parseVp9Pair { cfg with maxBr := none }
      = .ok cfg :=
    foldlM_count parseVp9Pair "max-br" (fun n => { cfg with maxBr := n }) cfg.maxBr fun _ => rfl
  rw [parseVp9, splitFmtpPairs_buildVp9Fmtp,
    splitFmtpPairs_appendSome ⟨by decide, by decide⟩ hplain, splitFmtpPairs_nil,
    List.nil_append, foldlM_append_ok hprofile, foldlM_append_ok hmapping,
    foldlM_append_ok hfr, foldlM_append_ok hfs, hbr]

/-- A mapping with a semicolon in it is cut there. -/
theorem mapping_of_lastValue {mapping : Text}
    (h : lastValue "profile-mapping" (splitFmtpPairs ("profile-mapping".toList ++ '=' :: mapping))
      = some mapping) : ';' ∉ mapping ∧ urlDecode (strip mapping) = mapping := by
  have hkey : IsKey "profile-mapping".toList := ⟨by decide, by decide⟩
  by_cases hsemi : ';' ∈ mapping
  · obtain ⟨front, rest, rfl, hfront⟩ := List.eq_append_cons_of_mem hsemi
    obtain ⟨p, hp, hvalue⟩ := exists_mem_of_lastValue h
    rw [← List.cons_append, ← List.append_assoc, splitFmtpPairs_append_semicolon,
      splitFmtpPairs_kv hkey hfront, List.mem_append, List.mem_singleton] at hp
    have hlength : p.2.length = (front ++ ';' :: rest).length := by rw [hvalue]
    rw [List.length_append, List.length_cons] at hlength
    rcases hp with rfl | hp
    · have hdecode := (urlDecode_length_le (strip front)).trans (strip_length_le front)
      simp only at hlength
      omega
    · have hle := value_length_le hp
      omega
  · rw [splitFmtpPairs_kv hkey hsemi] at h
    exact ⟨hsemi, Option.some.inj h⟩

theorem mappingPlain_of_parseVp9 {cfg : Vp9Fmtp} (h : parseVp9 (buildVp9Fmtp cfg) = .ok cfg) :
    cfg.MappingPlain := by
  intro mapping hmapping
  have hlast := profileMapping_eq h
  rw [splitFmtpPairs_buildVp9Fmtp, lastValue_append, lastValue_append, lastValue_append,
    lastValue_append, lastValue_pairOf (by decide), lastValue_pairOf (by decide),
    lastValue_pairOf (by decide), lastValue_pairOf (by decide), hmapping] at hlast
  refine mapping_of_lastValue ?_
  simpa [appendSome, appendKv] using hlast.symm

theorem vp9_round_trip_iff {s : Text} {cfg : Vp9Fmtp} (h : parseVp9 s = .ok cfg) :
    parseVp9 (buildVp9Fmtp cfg) = .ok cfg ↔ cfg.MappingPlain :=
  ⟨mappingPlain_of_parseVp9, parseVp9_of_mappingPlain (profileId_le h)⟩

end Vp9

/-! ### H.264 -/

section H264

variable {out out' : H264Fmtp} {p : Text × Text} {v : Text}

theorem parsePacketizationMode_ok {mode : PacketizationMode}
    (h : parsePacketizationMode v = .ok mode) :
    ∃ m, parseIntValue v = some m ∧ 0 ≤ m ∧ some mode.code = some (m % 2 ^ 32).toNat := by
  unfold parsePacketizationMode at h
  rcases hm : parseIntValue v with _ | m
  · rw [hm] at h
    cases h
  · rw [hm] at h
    simp only at h
    split_ifs at h with h0 h1 h2
    · obtain rfl := Except.ok.inj h
      exact ⟨m, rfl, h0.ge, by rw [h0]; rfl⟩
    · obtain rfl := Except.ok.inj h
      exact ⟨m, rfl, by omega, by rw [h1]; rfl⟩
    · obtain rfl := Except.ok.inj h
      exact ⟨m, rfl, by omega, by rw [h2]; rfl⟩

theorem parsePacketizationMode_number (mode : PacketizationMode) :
    parsePacketizationMode (number mode.code) = .ok mode := by
  cases mode <;> decide

theorem parseProfileLevelId_ok {id : Text} (h : parseProfileLevelId v = .ok id) :
    id = v ∧ v.all isHexChar = true := by
  unfold parseProfileLevelId at h
  split_ifs at h with hlength hhex
  exact ⟨(Except.ok.inj h).symm, by simpa using hhex⟩

theorem parseSpropParameterSets_ok {sps pps : Text}
    (h : parseSpropParameterSets v = .ok (sps, pps)) :
    v = sps ++ ',' :: pps ∧ sps.all isSpropChar = true ∧ pps.all isSpropChar = true := by
  unfold parseSpropParameterSets at h
  split_ifs at h with hcomma
  simp only at h
  split_ifs at h with hsps hpps
  obtain ⟨rfl, rfl⟩ := Prod.mk.inj (Except.ok.inj h)
  refine ⟨?_, by simpa using hsps, by simpa using hpps⟩
  obtain ⟨front, rest, rfl, hfront⟩ := List.eq_append_cons_of_mem hcomma
  have hbefore : ∀ c ∈ front, (decide (c ≠ ',')) = true := fun c hc => by
    rw [decide_eq_true_eq]
    rintro rfl
    exact hfront hc
  rw [List.takeWhile_append_of_pos hbefore, List.dropWhile_append_of_pos hbefore]
  simp

/-- What the parser makes keeps the two sets together, as one value that it reads. -/
structure H264Fmtp.Parsed (cfg : H264Fmtp) : Prop where
  profileLevelId : ∀ id, cfg.profileLevelId = some id → parseProfileLevelId id = .ok id
  sprop : ∃ sets : Option (Text × Text), cfg.spropSps = sets.map (·.1)
    ∧ cfg.spropPps = sets.map (·.2)
    ∧ ∀ q, sets = some q → parseSpropParameterSets (q.1 ++ ',' :: q.2) = .ok q

theorem parseH264Pair_cases (h : parseH264Pair out p = .ok out') :
    (iequals p.1 "packetization-mode" = true ∧ ∃ n, parsePacketizationMode p.2 = .ok n
        ∧ out' = { out with packetizationMode := some n })
      ∨ (iequals p.1 "profile-level-id" = true ∧ ∃ id, parseProfileLevelId p.2 = .ok id
        ∧ out' = { out with profileLevelId := some id })
      ∨ (iequals p.1 "sprop-parameter-sets" = true ∧ ∃ q, parseSpropParameterSets p.2 = .ok q
        ∧ out' = { out with spropSps := some q.1, spropPps := some q.2 })
      ∨ (iequals p.1 "max-mbps" = true ∧ ∃ n, parseCount p.2 "h264 max-mbps" = .ok n
        ∧ out' = { out with maxMbps := some n })
      ∨ (iequals p.1 "max-fs" = true ∧ ∃ n, parseCount p.2 "h264 max-fs" = .ok n
        ∧ out' = { out with maxFs := some n })
      ∨ (iequals p.1 "max-smbps" = true ∧ ∃ n, parseCount p.2 "h264 max-smbps" = .ok n
        ∧ out' = { out with maxSmbps := some n })
      ∨ (iequals p.1 "max-br" = true ∧ ∃ n, parseCount p.2 "h264 max-br" = .ok n
        ∧ out' = { out with maxBr := some n })
      ∨ (iequals p.1 "max-dpb" = true ∧ ∃ n, parseCount p.2 "h264 max-dpb" = .ok n
        ∧ out' = { out with maxDpb := some n })
      ∨ (iequals p.1 "level-asymmetry-allowed" = true ∧ ∃ b, parseLevelAsymmetryAllowed p.2 = .ok b
        ∧ out' = { out with levelAsymmetryAllowed := some b })
      ∨ ((∀ k ∈ ["packetization-mode", "max-mbps", "max-fs", "max-smbps", "max-br", "max-dpb"],
          iequals p.1 k = false) ∧ out' = out) := by
  unfold parseH264Pair at h
  split_ifs at h with h1 h2 h3 h4 h5 h6 h7 h8 h9
  · exact .inl ⟨h1, bind_ok h⟩
  · exact .inr (.inl ⟨h2, bind_ok h⟩)
  · exact .inr (.inr (.inl ⟨h3, bind_ok h⟩))
  · exact .inr (.inr (.inr (.inl ⟨h4, bind_ok h⟩)))
  · exact .inr (.inr (.inr (.inr (.inl ⟨h5, bind_ok h⟩))))
  · exact .inr (.inr (.inr (.inr (.inr (.inl ⟨h6, bind_ok h⟩)))))
  · exact .inr (.inr (.inr (.inr (.inr (.inr (.inl ⟨h7, bind_ok h⟩))))))
  · exact .inr (.inr (.inr (.inr (.inr (.inr (.inr (.inl ⟨h8, bind_ok h⟩)))))))
  · exact .inr (.inr (.inr (.inr (.inr (.inr (.inr (.inr (.inl ⟨h9, bind_ok h⟩))))))))
  · exact .inr (.inr (.inr (.inr (.inr (.inr (.inr (.inr (.inr
      ⟨by simp [h1, h4, h5, h6, h7, h8], (Except.ok.inj h).symm⟩))))))))

theorem readsNumber_h264 : ∀ q ∈ h264Numbers, ReadsNumber parseH264Pair q.1 q.2 := by
  intro q hq out p out' h
  simp only [h264Numbers, List.mem_cons, List.not_mem_nil, or_false] at hq
  rcases parseH264Pair_cases h with
    ⟨hk, n, hn, rfl⟩ | ⟨hk, n, hn, rfl⟩ | ⟨hk, n, hn, rfl⟩ | ⟨hk, n, hn, rfl⟩ | ⟨hk, n, hn, rfl⟩
    | ⟨hk, n, hn, rfl⟩ | ⟨hk, n, hn, rfl⟩ | ⟨hk, n, hn, rfl⟩ | ⟨hk, n, hn, rfl⟩ | ⟨hk, rfl⟩
  all_goals rcases hq with rfl | rfl | rfl | rfl | rfl | rfl
  all_goals
    first
    | exact reads_not (iequals_unique hk (by decide)) rfl
    | exact reads_not (hk _ (by simp)) rfl
    | exact reads_own hk (parseCount_ok hn)
    | exact reads_own hk (parsePacketizationMode_ok hn)

theorem h264_numbers_iff {s : Text} {cfg : H264Fmtp} (h : parseH264 s = .ok cfg) :
    ReadsDecimals s cfg.numbers ↔ Fits s cfg.numbers :=
  numbers_iff readsNumber_h264 (by simp [h264Numbers]) h

theorem parsed_parseH264 {s : Text} {cfg : H264Fmtp} (h : parseH264 s = .ok cfg) : cfg.Parsed := by
  have hstart : ({} : H264Fmtp).Parsed := by
    refine ⟨fun id hid => ?_, none, rfl, rfl, fun q hq => ?_⟩
    · cases hid
    · cases hq
  refine foldlM_invariant (fun out p out' hout hstep => ?_) hstart h
  obtain ⟨hprofile, hsprop⟩ := hout
  rcases parseH264Pair_cases hstep with
    ⟨-, n, -, rfl⟩ | ⟨-, id, hid, rfl⟩ | ⟨-, q, hq, rfl⟩ | ⟨-, n, -, rfl⟩ | ⟨-, n, -, rfl⟩
    | ⟨-, n, -, rfl⟩ | ⟨-, n, -, rfl⟩ | ⟨-, n, -, rfl⟩ | ⟨-, b, -, rfl⟩ | ⟨-, rfl⟩
  case inr.inl =>
    refine ⟨fun id' hid' => ?_, hsprop⟩
    obtain rfl := Option.some.inj hid'
    obtain ⟨rfl, -⟩ := parseProfileLevelId_ok hid
    exact hid
  case inr.inr.inl =>
    refine ⟨hprofile, some q, rfl, rfl, fun q' hq' => ?_⟩
    obtain rfl := Option.some.inj hq'
    rw [← (parseSpropParameterSets_ok hq).1]
    exact hq
  all_goals exact ⟨hprofile, hsprop⟩

theorem plain_spropText {cfg : H264Fmtp} (hcfg : cfg.Parsed) :
    ∀ x, spropText cfg = some x → Plain x := by
  obtain ⟨sets, hsps, hpps, hsets⟩ := hcfg.sprop
  intro x hx
  rw [spropText, hsps, hpps] at hx
  rcases sets with _ | ⟨sps, pps⟩
  · cases hx
  · obtain rfl := Option.some.inj hx
    obtain ⟨-, hspsChars, hppsChars⟩ := parseSpropParameterSets_ok (hsets _ rfl)
    refine plain_of_all (q := fun c => isSpropChar c || c == ',') ?_ (by decide)
    rw [List.all_eq_true] at hspsChars hppsChars ⊢
    intro c hc
    rcases List.mem_append.1 hc with hc | hc
    · rw [hspsChars c hc, Bool.true_or]
    · rcases List.mem_cons.1 hc with rfl | hc
      · rfl
      · rw [hppsChars c hc, Bool.true_or]

theorem plain_profileLevelId {cfg : H264Fmtp} (hcfg : cfg.Parsed) :
    ∀ x, cfg.profileLevelId = some x → Plain x := fun x hx =>
  plain_of_all (parseProfileLevelId_ok (hcfg.profileLevelId x hx)).2 (by decide)

theorem splitFmtpPairs_buildH264Fmtp {cfg : H264Fmtp} (hcfg : cfg.Parsed) :
    splitFmtpPairs (buildH264Fmtp cfg)
      = pairOf "packetization-mode" (cfg.packetizationMode.map fun m => number m.code)
        ++ (pairOf "profile-level-id" cfg.profileLevelId
          ++ (pairOf "sprop-parameter-sets" (spropText cfg)
            ++ (pairOf "max-mbps" (countText cfg.maxMbps)
              ++ (pairOf "max-fs" (countText cfg.maxFs)
                ++ (pairOf "max-smbps" (countText cfg.maxSmbps)
                  ++ (pairOf "max-br" (countText cfg.maxBr)
                    ++ (pairOf "max-dpb" (countText cfg.maxDpb)
                      ++ pairOf "level-asymmetry-allowed"
                        (cfg.levelAsymmetryAllowed.map fun _ => ['1'])))))))) := by
  have hmode : ∀ x, (cfg.packetizationMode.map fun m => number m.code) = some x → Plain x := by
    intro x hx
    obtain ⟨m, -, rfl⟩ := Option.map_eq_some_iff.1 hx
    exact plain_number _
  have hlevel : ∀ x, (cfg.levelAsymmetryAllowed.map fun _ => ['1']) = some x → Plain x := by
    intro x hx
    obtain ⟨b, -, rfl⟩ := Option.map_eq_some_iff.1 hx
    exact plain_of_chars (by simp; decide)
  unfold buildH264Fmtp
  rw [splitFmtpPairs_appendSome ⟨by decide, by decide⟩ hlevel,
    splitFmtpPairs_appendSome ⟨by decide, by decide⟩ (plain_countText _),
    splitFmtpPairs_appendSome ⟨by decide, by decide⟩ (plain_countText _),
    splitFmtpPairs_appendSome ⟨by decide, by decide⟩ (plain_countText _),
    splitFmtpPairs_appendSome ⟨by decide, by decide⟩ (plain_countText _),
    splitFmtpPairs_appendSome ⟨by decide, by decide⟩ (plain_countText _),
    splitFmtpPairs_appendSome ⟨by decide, by decide⟩ (plain_spropText hcfg),
    splitFmtpPairs_appendSome ⟨by decide, by decide⟩ (plain_profileLevelId hcfg),
    splitFmtpPairs_appendSome ⟨by decide, by decide⟩ hmode, splitFmtpPairs_nil, List.nil_append]
  simp only [List.append_assoc]

/-- The switch for level asymmetry comes back on. -/
theorem parseH264_buildH264Fmtp {cfg : H264Fmtp} (hcfg : cfg.Parsed) :
    parseH264 (buildH264Fmtp cfg)
      = .ok { cfg with levelAsymmetryAllowed := cfg.levelAsymmetryAllowed.map fun _ => true } := by
  obtain ⟨sets, hsps, hpps, hsets⟩ := hcfg.sprop
  have hsprop : spropText cfg = sets.map fun q => q.1 ++ ',' :: q.2 := by
    rw [spropText, hsps, hpps]
    cases sets <;> rfl
  rw [parseH264, splitFmtpPairs_buildH264Fmtp hcfg, hsprop]
  rcases cfg with ⟨mode, level, sps, pps, mbps, fs, smbps, br, dpb, asym⟩
  simp only at hsps hpps ⊢
  subst hsps hpps
  have hmode := foldlM_pairOf parseH264Pair "packetization-mode" (fun m => number m.code)
    (fun m => { packetizationMode := m }) mode (fun _ => rfl)
    fun m _ => parsePacketizationMode_number m
  have hlevel := foldlM_pairOf parseH264Pair "profile-level-id" (fun id => id)
    (fun id => { packetizationMode := mode, profileLevelId := id }) level (fun _ => rfl)
    hcfg.profileLevelId
  rw [Option.map_id'] at hlevel
  have hsprop := foldlM_pairOf parseH264Pair "sprop-parameter-sets" (fun q => q.1 ++ ',' :: q.2)
    (fun q => { packetizationMode := mode, profileLevelId := level, spropSps := q.map (·.1),
                spropPps := q.map (·.2) }) sets (fun _ => rfl) hsets
  simp only [Option.map_none] at hsprop
  have hmbps := foldlM_count parseH264Pair "max-mbps"
    (fun n => { packetizationMode := mode, profileLevelId := level, spropSps := sets.map (·.1),
                spropPps := sets.map (·.2), maxMbps := n }) mbps fun _ => rfl
  have hfs := foldlM_count parseH264Pair "max-fs"
    (fun n => { packetizationMode := mode, profileLevelId := level, spropSps := sets.map (·.1),
                spropPps := sets.map (·.2), maxMbps := mbps, maxFs := n }) fs fun _ => rfl
  have hsmbps := foldlM_count parseH264Pair "max-smbps"
    (fun n => { packetizationMode := mode, profileLevelId := level, spropSps := sets.map (·.1),
                spropPps := sets.map (·.2), maxMbps := mbps, maxFs := fs, maxSmbps := n }) smbps
    fun _ => rfl
  have hbr := foldlM_count parseH264Pair "max-br"
    (fun n => { packetizationMode := mode, profileLevelId := level, spropSps := sets.map (·.1),
                spropPps := sets.map (·.2), maxMbps := mbps, maxFs := fs, maxSmbps := smbps,
                maxBr := n }) br fun _ => rfl
  have hdpb := foldlM_count parseH264Pair "max-dpb"
    (fun n => { packetizationMode := mode, profileLevelId := level, spropSps := sets.map (·.1),
                spropPps := sets.map (·.2), maxMbps := mbps, maxFs := fs, maxSmbps := smbps,
                maxBr := br, maxDpb := n }) dpb fun _ => rfl
  rw [foldlM_append_ok hmode, foldlM_append_ok hlevel, foldlM_append_ok hsprop,
    foldlM_append_ok hmbps, foldlM_append_ok hfs, foldlM_append_ok hsmbps, foldlM_append_ok hbr,
    foldlM_append_ok hdpb]
  cases asym <;> rfl

theorem h264_round_trip_iff {s : Text} {cfg : H264Fmtp} (h : parseH264 s = .ok cfg) :
    parseH264 (buildH264Fmtp cfg) = .ok cfg ↔ cfg.levelAsymmetryAllowed ≠ some false := by
  rw [parseH264_buildH264Fmtp (parsed_parseH264 h)]
  rcases cfg with ⟨mode, level, sps, pps, mbps, fs, smbps, br, dpb, _ | _ | _⟩ <;> simp

end H264

/-! ### The codecs together -/

/-- A configuration that was read is built and read again as it was, but for level asymmetry that
is off and a mapping that needs its encoding. Its numbers are those of the text while they fit. -/
theorem fmtp_round_trip_iff (s : Text) :
    (∀ cfg, parseH264 s = .ok cfg →
      (parseH264 (buildH264Fmtp cfg) = .ok cfg ↔ cfg.levelAsymmetryAllowed ≠ some false)
      ∧ (ReadsDecimals s cfg.numbers ↔ Fits s cfg.numbers))
    ∧ (∀ cfg, parseVp8 s = .ok cfg →
      parseVp8 (buildVp8Fmtp cfg) = .ok cfg ∧ (ReadsDecimals s cfg.numbers ↔ Fits s cfg.numbers))
    ∧ ∀ cfg, parseVp9 s = .ok cfg →
      (parseVp9 (buildVp9Fmtp cfg) = .ok cfg ↔ cfg.MappingPlain)
      ∧ (ReadsDecimals s cfg.numbers ↔ Fits s cfg.numbers) :=
  ⟨fun _ h => ⟨h264_round_trip_iff h, h264_numbers_iff h⟩,
    fun cfg h => ⟨parseVp8_buildVp8Fmtp cfg, vp8_numbers_iff h⟩,
    fun _ h => ⟨vp9_round_trip_iff h, vp9_numbers_iff h⟩⟩

theorem fmtp_round_trip_iff_texts :
    (parseH264 (buildH264Fmtp { maxBr := some 900, levelAsymmetryAllowed := some false })
        = .ok { maxBr := some 900, levelAsymmetryAllowed := some false }
      ↔ some false ≠ some false)
    ∧ parseVp8 (buildVp8Fmtp { maxFr := some 30 }) = .ok { maxFr := some 30 }
    ∧ (parseVp9 (buildVp9Fmtp { profileId := some 2, profileMapping := some "a;b".toList })
        = .ok { profileId := some 2, profileMapping := some "a;b".toList }
      ↔ Vp9Fmtp.MappingPlain { profileId := some 2, profileMapping := some "a;b".toList }) := by
  have hh264 : parseH264 "max-br=900; Level-Asymmetry-Allowed=0".toList
      = .ok { maxBr := some 900, levelAsymmetryAllowed := some false } := by
    decide +kernel
  have hvp8 : parseVp8 "max-fr=30".toList = .ok { maxFr := some 30 } := by decide +kernel
  have hvp9 : parseVp9 "profile-id=2;profile-mapping=a%3Bb".toList
      = .ok { profileId := some 2, profileMapping := some "a;b".toList } := by
    decide +kernel
  exact ⟨((fmtp_round_trip_iff _).1 _ hh264).1, ((fmtp_round_trip_iff _).2.1 _ hvp8).1,
    ((fmtp_round_trip_iff _).2.2 _ hvp9).1⟩

/-- The switch that is off is built as on. A mapping with an escaped semicolon is cut, and a number
of `2 ^ 32` is read as 0. -/
theorem asymmetry_lost :
    (∃ cfg, parseH264 "level-asymmetry-allowed=0".toList = .ok cfg
      ∧ buildH264Fmtp cfg = "level-asymmetry-allowed=1".toList
      ∧ parseH264 (buildH264Fmtp cfg) ≠ .ok cfg)
    ∧ (∃ cfg, parseVp9 "profile-mapping=0%3B1".toList = .ok cfg
      ∧ parseVp9 (buildVp9Fmtp cfg) ≠ .ok cfg)
    ∧ ∃ cfg, parseVp8 "max-fs=4294967296".toList = .ok cfg ∧ cfg.maxFs = some 0
      ∧ ¬ReadsDecimals "max-fs=4294967296".toList cfg.numbers := by
  refine ⟨⟨{ levelAsymmetryAllowed := some false }, ?_, ?_, ?_⟩,
    ⟨{ profileMapping := some "0;1".toList }, ?_, ?_⟩, { maxFs := some 0 }, ?_, rfl, ?_⟩
  · decide +kernel
  · decide +kernel
  · decide +kernel
  · decide +kernel
  · decide +kernel
  · decide +kernel
  · intro h
    obtain ⟨v, hv, hdecimal⟩ := h ("max-fs", some 0) (by decide) 0 rfl
    have hvalue : lastValue "max-fs" (splitFmtpPairs "max-fs=4294967296".toList)
        = some "4294967296".toList := by
      decide +kernel
    obtain rfl := Option.some.inj (hv.symm.trans hvalue)
    revert hdecimal
    decide +kernel

end VideoSdp

end NimRtc
