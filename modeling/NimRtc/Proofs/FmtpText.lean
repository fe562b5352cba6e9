import NimRtc.VideoSdpAttributes

/-!
# Parameters and their text

What a builder appends is one more pair for the splitter, whatever was there before. A value comes
back as it was if it has no semicolon and is left alone by stripping and decoding, which all the
values but a profile mapping are: numbers, hexadecimal digits and base64.
-/

namespace NimRtc

namespace VideoSdp

open InputStream (isSpace)

/-! ### Stripping and decoding -/

theorem rdropWhile_append_of_all {p : Char → Bool} {s t : Text} (ht : ∀ c ∈ t, p c = true) :
    (s ++ t).rdropWhile p = s.rdropWhile p := by
  rw [List.rdropWhile, List.reverse_append, List.dropWhile_append_of_pos fun c hc =>
    ht c (List.mem_reverse.1 hc), List.rdropWhile]

theorem rdropWhile_append_cons {p : Char → Bool} {s t : Text} {c : Char} (hc : p c = false) :
    (s ++ c :: t).rdropWhile p = s ++ c :: t.rdropWhile p := by
  have hsplit : t.rdropWhile p ++ t.rtakeWhile p = t := List.rdropWhile_append_rtakeWhile
  conv_lhs => rw [← hsplit, ← List.cons_append, ← List.append_assoc]
  rw [rdropWhile_append_of_all fun c hc => List.mem_rtakeWhile_imp hc, List.rdropWhile_eq_self_iff]
  intro hne
  rw [List.getLast_append_of_right_ne_nil _ _ (List.cons_ne_nil _ _)]
  rcases hrest : t.rdropWhile p with _ | ⟨d, rest⟩
  · simp [hc]
  · have hne' : t.rdropWhile p ≠ [] := by
      rw [hrest]
      exact List.cons_ne_nil _ _
    have hlast := List.rdropWhile_last_not p t hne'
    simp only [hrest] at hlast
    simpa using hlast

theorem strip_eq_self {s : Text} (h : ∀ c ∈ s, isSpace c = false) : strip s = s := by
  have hfront : s.dropWhile isSpace = s := by
    rcases s with _ | ⟨c, s⟩
    · rfl
    · exact List.dropWhile_cons_of_neg (by simp [h c List.mem_cons_self])
  rw [strip, hfront, List.rdropWhile_eq_self_iff]
  intro hne
  simp [h _ (List.getLast_mem hne)]

/-- White space at the end does not count. -/
theorem strip_rdropWhile (s : Text) : strip (s.rdropWhile isSpace) = strip s := by
  have hsplit : s.rdropWhile isSpace ++ s.rtakeWhile isSpace = s := List.rdropWhile_append_rtakeWhile
  have hspace : ∀ c ∈ s.rtakeWhile isSpace, isSpace c = true := fun c hc =>
    List.mem_rtakeWhile_imp hc
  conv_rhs => rw [← hsplit]
  unfold strip
  rw [List.dropWhile_append]
  split_ifs with hall
  · rw [List.isEmpty_iff.1 hall]
    rw [List.dropWhile_eq_nil_iff.2 hspace]
  · rw [rdropWhile_append_of_all hspace]

theorem strip_length_le (s : Text) : (strip s).length ≤ s.length :=
  (List.rdropWhile_prefix _ _).length_le.trans (List.dropWhile_suffix _).length_le

theorem urlDecode_of_not_mem {s : Text} (h : '%' ∉ s) : urlDecode s = s := by
  fun_induction urlDecode s with
  | case1 => rfl
  | case2 => rfl
  | case3 => rfl
  | case4 c hi lo rest code hcode ih =>
    have hc : c ≠ '%' := by
      rintro rfl
      exact h List.mem_cons_self
    simp [hc] at hcode
  | case5 c hi lo rest hnone ih =>
    rw [ih fun hmem => h (List.mem_cons_of_mem _ hmem)]

theorem urlDecode_length_le (s : Text) : (urlDecode s).length ≤ s.length := by
  fun_induction urlDecode s with
  | case1 => exact le_rfl
  | case2 => exact le_rfl
  | case3 => exact le_rfl
  | case4 c hi lo rest code hcode ih =>
    simp only [List.length_cons]
    omega
  | case5 c hi lo rest hnone ih =>
    simp only [List.length_cons] at ih ⊢
    omega

/-! ### Pairs -/

/-- The name of a parameter as the builders write it. -/
def IsKey (k : Text) : Prop :=
  k ≠ [] ∧ (k.all fun c => !isSpace c && c ≠ '=' && c ≠ ';' && c ≠ '%') = true

variable {k v out : Text}

theorem IsKey.mem (h : IsKey k) {c : Char} (hc : c ∈ k) :
    isSpace c = false ∧ c ≠ '=' ∧ c ≠ ';' ∧ c ≠ '%' := by
  have hall := List.all_eq_true.1 h.2 c hc
  simpa [and_assoc] using hall

theorem strip_kv (hk : IsKey k) : strip (k ++ '=' :: v) = k ++ '=' :: v.rdropWhile isSpace := by
  have hfront : (k ++ '=' :: v).dropWhile isSpace = k ++ '=' :: v := by
    obtain ⟨c, rest, rfl⟩ := List.exists_cons_of_ne_nil hk.1
    exact List.dropWhile_cons_of_neg (by simp [(hk.mem List.mem_cons_self).1])
  rw [strip, hfront, rdropWhile_append_cons (by rfl)]

theorem fmtpPair_kv (hk : IsKey k) : fmtpPair (k ++ '=' :: v) = some (k, urlDecode (strip v)) := by
  have hstrip := strip_kv (v := v) hk
  have hne : k ++ '=' :: v.rdropWhile isSpace ≠ [] := by simp
  have hkey : (k ++ '=' :: v.rdropWhile isSpace).takeWhile (· ≠ '=') = k := by
    rw [List.takeWhile_append_of_pos fun c hc => by simp [(hk.mem hc).2.1]]
    simp
  have hvalue : (k ++ '=' :: v.rdropWhile isSpace).dropWhile (· ≠ '=')
      = '=' :: v.rdropWhile isSpace := by
    rw [List.dropWhile_append_of_pos fun c hc => by simp [(hk.mem hc).2.1]]
    simp
  unfold fmtpPair
  simp only [hstrip]
  rw [if_neg hne, if_pos (by simp), hkey, hvalue, List.tail_cons, strip_rdropWhile,
    strip_eq_self fun c hc => (hk.mem hc).1,
    urlDecode_of_not_mem fun hc => (hk.mem hc).2.2.2 rfl]

theorem splitFmtpPairs_nil : splitFmtpPairs [] = [] := by
  rw [splitFmtpPairs, List.splitOn_nil]
  rfl

theorem splitFmtpPairs_append_semicolon (s t : Text) :
    splitFmtpPairs (s ++ ';' :: t) = splitFmtpPairs s ++ splitFmtpPairs t := by
  rw [splitFmtpPairs, List.splitOn_append_cons_self, List.filterMap_append]
  rfl

/-- What is appended is one more parameter. -/
theorem splitFmtpPairs_appendKv (k : String) :
    splitFmtpPairs (appendKv out k v) = splitFmtpPairs out ++ splitFmtpPairs (k.toList ++ '=' :: v) := by
  unfold appendKv
  split_ifs with h
  · rw [List.append_assoc, List.append_assoc, List.singleton_append,
      splitFmtpPairs_append_semicolon]
  · rcases List.eq_nil_or_concat out with rfl | ⟨front, last, rfl⟩
    · rw [splitFmtpPairs_nil, List.nil_append, List.nil_append]
    · rw [List.concat_eq_append] at h ⊢
      have hlast : last = ';' := by
        by_contra hne
        exact h ⟨by simp, by simpa using hne⟩
      rw [hlast, List.append_assoc, List.append_assoc, List.singleton_append,
        splitFmtpPairs_append_semicolon, splitFmtpPairs_append_semicolon, splitFmtpPairs_nil,
        List.append_nil]

theorem splitFmtpPairs_kv (hk : IsKey k) (hv : ';' ∉ v) :
    splitFmtpPairs (k ++ '=' :: v) = [(k, urlDecode (strip v))] := by
  have hnone : ';' ∉ k ++ '=' :: v := by
    simp only [List.mem_append, List.mem_cons, not_or]
    exact ⟨fun hc => (hk.mem hc).2.2.1 rfl, by decide, hv⟩
  rw [splitFmtpPairs, List.splitOn_eq_singleton hnone]
  simp [fmtpPair_kv hk]

/-- The value is read as it is written. -/
def Plain (v : Text) : Prop := ';' ∉ v ∧ urlDecode (strip v) = v

theorem plain_of_chars (h : ∀ c ∈ v, isSpace c = false ∧ c ≠ ';' ∧ c ≠ '%') : Plain v := by
  refine ⟨fun hc => (h _ hc).2.1 rfl, ?_⟩
  rw [strip_eq_self fun c hc => (h c hc).1, urlDecode_of_not_mem fun hc => (h _ hc).2.2 rfl]

/-- The parameter of a value that is there. -/
def pairOf (k : String) (v : Option Text) : List (Text × Text) := (v.map fun v => (k.toList, v)).toList

theorem splitFmtpPairs_appendSome {k : String} {v : Option Text} (hk : IsKey k.toList)
    (hv : ∀ x, v = some x → Plain x) :
    splitFmtpPairs (appendSome out k v) = splitFmtpPairs out ++ pairOf k v := by
  cases v with
  | none => exact (List.append_nil _).symm
  | some v =>
    obtain ⟨hsemi, hread⟩ := hv v rfl
    rw [appendSome, splitFmtpPairs_appendKv, splitFmtpPairs_kv hk hsemi, hread]
    rfl

/-! ### Numbers -/

theorem isDigit_number {n : ℕ} {c : Char} (hc : c ∈ number n) : c.isDigit = true :=
  Nat.isDigit_of_mem_toDigits (by decide) (by decide) hc

theorem plain_number (n : ℕ) : Plain (number n) := by
  refine plain_of_chars fun c hc => ?_
  have hdigit := isDigit_number hc
  refine ⟨InputStream.isSpace_of_isDigit hdigit, ?_, ?_⟩
  · rintro rfl
    cases hdigit
  · rintro rfl
    cases hdigit

theorem parseIntValue_number {n : ℕ} (h : n < 2 ^ 32) : parseIntValue (number n) = some (n : ℤ) := by
  have hlength : (number n).length ≤ 10 :=
    (Nat.length_toDigits_le_iff (by decide) (by decide)).2 (h.trans (by decide))
  have hinteger : InputStream.integer (Nat.toDigits 10 n ++ []) = some ((n : ℤ), []) :=
    InputStream.integer_append fun c tail heq => by cases heq
  rw [List.append_nil] at hinteger
  have hne : number n ≠ [] := Nat.toDigits_ne_nil
  rw [parseIntValue, if_neg hne, if_neg (by omega), number, hinteger]
  simp only
  rw [if_neg (by omega), if_neg (by simp)]

theorem parseCount_number (n : UInt32) (message : String) :
    parseCount (number n.toNat) message = .ok n := by
  have hmod : ((n.toNat : ℤ) % 2 ^ 32).toNat = n.toNat := by
    have := n.toNat_lt
    omega
  rw [parseCount, parseIntValue_number n.toNat_lt]
  simp only
  rw [if_neg (by omega), toUint32, hmod, UInt32.ofNat_toNat]

theorem plain_countText (n : Option UInt32) : ∀ x, countText n = some x → Plain x := by
  intro x hx
  obtain ⟨m, -, rfl⟩ := Option.map_eq_some_iff.1 hx
  exact plain_number _

/-! ### The last value of a name -/

theorem lastValue_cons (key : String) (p : Text × Text) (pairs : List (Text × Text)) :
    lastValue key (p :: pairs)
      = (lastValue key pairs).or (if iequals p.1 key then some p.2 else none) := by
  unfold lastValue
  rw [List.filter_cons]
  split_ifs with hp
  · rw [List.getLast?_cons]
    cases (pairs.filter fun p => iequals p.1 key).getLast? <;> rfl
  · rw [Option.or_none]

theorem iequals_unique {a : Text} {k k' : String} (h : iequals a k = true)
    (hne : iequals k.toList k' = false) : iequals a k' = false := by
  unfold iequals at h hne ⊢
  rw [decide_eq_true_eq] at h
  rw [h]
  exact hne

/-- A parser of parameters takes a number from those of a name, and no others change it. -/
def ReadsNumber {σ : Type} (f : σ → Text × Text → Except FmtpError σ) (key : String)
    (g : σ → Option ℕ) : Prop :=
  ∀ s p s', f s p = .ok s' →
    if iequals p.1 key then
      ∃ n, parseIntValue p.2 = some n ∧ 0 ≤ n ∧ g s' = some (n % 2 ^ 32).toNat
    else g s' = g s

/-- It is the last of them that counts. -/
theorem readsNumber_foldlM {σ : Type} {f : σ → Text × Text → Except FmtpError σ} {key : String}
    {g : σ → Option ℕ} (h : ReadsNumber f key g) :
    ∀ {pairs : List (Text × Text)} {s s' : σ}, pairs.foldlM f s = .ok s' →
      match lastValue key pairs with
      | none => g s' = g s
      | some v => ∃ n, parseIntValue v = some n ∧ 0 ≤ n ∧ g s' = some (n % 2 ^ 32).toNat
  | [], s, s', hfold => by
    obtain rfl := Except.ok.inj hfold
    rfl
  | p :: pairs, s, s', hfold => by
    rw [List.foldlM_cons] at hfold
    rcases hmid : f s p with _ | mid
    · rw [hmid] at hfold
      cases hfold
    · rw [hmid] at hfold
      have hrest := readsNumber_foldlM h hfold
      have hstep := h s p mid hmid
      rw [lastValue_cons]
      rcases hlast : lastValue key pairs with _ | v
      · rw [hlast] at hrest
        simp only [Option.none_or] at hrest ⊢
        split_ifs at hstep ⊢
        · rwa [hrest]
        · rwa [hrest]
      · rw [hlast] at hrest
        exact hrest

/-- What is taken for a number is white space, a sign and digits. -/
theorem nul_not_mem_integer {v rest : Text} {n : ℤ} (h : InputStream.integer v = some (n, rest)) :
    ∃ front, v = front ++ rest ∧ nul ∉ front := by
  have hdigits : ∀ {s rest : Text} {m : ℕ}, InputStream.digits s = some (m, rest) →
      ∃ front, s = front ++ rest ∧ nul ∉ front := by
    intro s rest m hs
    rw [InputStream.digits] at hs
    split_ifs at hs
    obtain ⟨-, rfl⟩ := Prod.mk.inj (Option.some.inj hs)
    refine ⟨s.takeWhile Char.isDigit, List.takeWhile_append_dropWhile.symm, fun hmem => ?_⟩
    have hnul := List.mem_takeWhile_imp hmem
    revert hnul
    decide
  have hspace : nul ∉ v.takeWhile isSpace := fun hmem => by
    have hnul := List.mem_takeWhile_imp hmem
    revert hnul
    decide
  have hsplit : v.takeWhile isSpace ++ v.dropWhile isSpace = v := List.takeWhile_append_dropWhile
  have hsigned : ∀ sign s, nul ≠ sign → v.dropWhile isSpace = sign :: s →
      (∃ m, InputStream.digits s = some (m, rest)) → ∃ front, v = front ++ rest ∧ nul ∉ front := by
    rintro sign s hsign hdrop ⟨m, hm⟩
    obtain ⟨front, rfl, hfront⟩ := hdigits hm
    refine ⟨v.takeWhile isSpace ++ sign :: front, ?_, ?_⟩
    · rw [List.append_assoc, List.cons_append, ← hdrop, hsplit]
    · simp only [List.mem_append, List.mem_cons, not_or]
      exact ⟨hspace, hsign, hfront⟩
  unfold InputStream.integer at h
  split at h
  · rename_i s hdrop
    obtain ⟨⟨m, rest'⟩, hm, heq⟩ := Option.map_eq_some_iff.1 h
    obtain ⟨-, rfl⟩ := Prod.mk.inj heq
    exact hsigned '-' s (by decide) hdrop ⟨m, hm⟩
  · rename_i s hdrop
    obtain ⟨⟨m, rest'⟩, hm, heq⟩ := Option.map_eq_some_iff.1 h
    obtain ⟨-, rfl⟩ := Prod.mk.inj heq
    exact hsigned '+' s (by decide) hdrop ⟨m, hm⟩
  · obtain ⟨⟨m, rest'⟩, hm, heq⟩ := Option.map_eq_some_iff.1 h
    obtain ⟨-, rfl⟩ := Prod.mk.inj heq
    obtain ⟨front, hdrop, hfront⟩ := hdigits hm
    refine ⟨v.takeWhile isSpace ++ front, ?_, ?_⟩
    · rw [List.append_assoc, ← hdrop, hsplit]
    · simp only [List.mem_append, not_or]
      exact ⟨hspace, hfront⟩

/-- A number that is accepted is that of the text unless a NUL hides what follows, or it does not
fit. -/
theorem decimal_iff {v : Text} {n : ℤ} (h : parseIntValue v = some n) (hn : 0 ≤ n) :
    decimal v = some ((n % 2 ^ 32).toNat : ℤ)
      ↔ nul ∉ v ∧ ∀ m, parseIntValue v = some m → m < 2 ^ 32 := by
  have hall : (∀ m, parseIntValue v = some m → m < 2 ^ 32) ↔ n < 2 ^ 32 := by
    rw [h]
    simp
  rw [hall]
  unfold parseIntValue at h
  split_ifs at h
  rcases hinteger : InputStream.integer v with _ | ⟨m, rest⟩
  · rw [hinteger] at h
    cases h
  rw [hinteger] at h
  simp only at h
  split_ifs at h with hrange hend
  obtain rfl := Option.some.inj h
  obtain ⟨front, rfl, hfront⟩ := nul_not_mem_integer hinteger
  rw [decimal, hinteger]
  rcases rest with _ | ⟨c, rest⟩
  · have hfree : nul ∉ front ++ [] := by simpa using hfront
    simp only [Option.some.injEq, hfree, not_false_eq_true, true_and]
    omega
  · have hc : c = nul := not_not.1 hend
    refine iff_of_false (by simp) fun hfree => hfree.1 ?_
    rw [hc]
    exact List.mem_append_right _ List.mem_cons_self

/-- Of one name, the number is that of the text exactly when the value fits. -/
theorem number_iff {σ : Type} {f : σ → Text × Text → Except FmtpError σ} {key : String}
    {g : σ → Option ℕ} {pairs : List (Text × Text)} {s s' : σ} (h : ReadsNumber f key g)
    (hstart : g s = none) (hfold : pairs.foldlM f s = .ok s') :
    (∀ n, g s' = some n → ∃ v, lastValue key pairs = some v ∧ decimal v = some (n : ℤ))
      ↔ ∀ v, lastValue key pairs = some v →
        nul ∉ v ∧ ∀ n, parseIntValue v = some n → n < 2 ^ 32 := by
  have hread := readsNumber_foldlM h hfold
  rcases hlast : lastValue key pairs with _ | v
  · rw [hlast] at hread
    simp only at hread
    rw [hread, hstart]
    exact iff_of_true (fun n hn => by cases hn) fun v hv => by cases hv
  · rw [hlast] at hread
    obtain ⟨n, hn, hpos, hg⟩ := hread
    rw [hg]
    simp only [Option.some.injEq, forall_eq', exists_eq_left']
    exact decimal_iff hn hpos

end VideoSdp

end NimRtc
