import NimRtc.SdpText

/-!
# Where parsing throws

`substr` stays in range wherever its offset was found in the text, or is not longer than the name it
skips. Two of the names are shorter than the offset, by one, so an attribute that is only the name is
out of range.
-/

namespace NimRtc.SdpText

/-! ### In range -/

theorem substr_eq_ok {s : Text} {pos : ℕ} (h : pos ≤ s.length) : substr s pos = .ok (s.drop pos) :=
  if_neg (not_lt.2 h)

theorem find_lt {s : Text} {delim : Char} {pos : ℕ} (h : find s delim = some pos) :
    pos < s.length :=
  (List.findIdx?_eq_some_iff_getElem.1 h).1

theorem trim_subset (s : Text) : trim s ⊆ s := fun _ hc =>
  (List.dropWhile_suffix _).subset ((List.rdropWhile_prefix _ _).subset hc)

theorem splitAt_spec (s : Text) (delim : Char) :
    ∃ first second, splitAt s delim = .ok (first, second) ∧ first ⊆ s ∧ second ⊆ s := by
  rw [splitAt]
  cases hfind : find s delim with
  | none => exact ⟨s, [], rfl, List.Subset.refl s, List.nil_subset s⟩
  | some pos =>
    refine ⟨s.take pos, s.drop (pos + 1), ?_, List.take_subset _ _, List.drop_subset _ _⟩
    simp only [substr_eq_ok (Nat.succ_le_of_lt (find_lt hfind))]
    rfl

theorem nextToken_spec (s : Text) :
    ∃ token rest, nextToken s = .ok (token, rest) ∧ token ⊆ s ∧ rest ⊆ s := by
  have htrim := trim_subset s
  simp only [nextToken]
  split_ifs with hnil
  · exact ⟨[], [], rfl, List.nil_subset s, List.nil_subset s⟩
  · cases hfind : find (trim s) ' ' with
    | none => exact ⟨trim s, [], rfl, htrim, List.nil_subset s⟩
    | some pos =>
      refine ⟨(trim s).take pos, (trim s).drop (pos + 1), ?_,
        List.Subset.trans (List.take_subset _ _) htrim, List.Subset.trans (List.drop_subset _ _) htrim⟩
      simp only [substr_eq_ok (Nat.succ_le_of_lt (find_lt hfind))]
      rfl

theorem tokens_spec (s : Text) : ∃ found, tokens s = .ok found ∧ ∀ t ∈ found, t ⊆ s := by
  obtain ⟨token, rest, hnext, htoken, hrest⟩ := nextToken_spec s
  rw [tokens]
  split
  · rename_i e herror
    rw [hnext] at herror
    cases herror
  · rename_i token' rest' hok
    rw [hnext] at hok
    obtain ⟨rfl, rfl⟩ := Prod.mk.inj (Except.ok.inj hok)
    split_ifs with hnil
    · exact ⟨[], rfl, by simp⟩
    · have hlt := length_nextToken hnext hnil
      obtain ⟨found, hfound, hsub⟩ := tokens_spec rest
      refine ⟨token :: found, by rw [hfound]; rfl, ?_⟩
      intro t ht
      rcases List.mem_cons.1 ht with rfl | ht
      · exact htoken
      · exact List.Subset.trans (hsub t ht) hrest
  termination_by s.length

/-! ### Lines -/

/-- The texts of a session that are written outside of its media descriptions. -/
def sessionTexts (s : SessionDescription) : List Text :=
  [s.sessionName, s.sessionInfo, s.uri, s.originUsername, s.originSessionId, s.originSessionVersion,
    s.originAddress, s.iceOptions, s.msidSemanticToken, s.dtlsFingerprintAlgo,
    s.dtlsFingerprintValue, s.dtlsSetup, s.sessionConnectionAddress]
  ++ s.bundleMids ++ s.msidSemanticStreams ++ s.extraAttrs.flatMap fun kv => [kv.1, kv.2]

/-- A text whose characters stand in the line, or do not end lines. -/
def FromLine (line t : Text) : Prop := ∀ c ∈ t, c ∈ line ∨ isEol c = false

theorem FromLine.of_subset {line t : Text} (h : t ⊆ line) : FromLine line t := fun _ hc => .inl (h hc)

theorem FromLine.of_clean {t : Text} (line : Text) (h : t.all (fun c => !isEol c) = true) :
    FromLine line t := fun c hc => .inr (by simpa using List.all_eq_true.1 h c hc)

/-- What a line does to a session: it adds attributes, and all new texts come from it. -/
structure Extends (line : Text) (s s' : SessionDescription) : Prop where
  extras : ∃ added, s'.extraAttrs = s.extraAttrs ++ added
  texts : ∀ t ∈ sessionTexts s', t ∈ sessionTexts s ∨ FromLine line t

theorem Extends.refl (line : Text) (s : SessionDescription) : Extends line s s :=
  ⟨⟨[], (List.append_nil _).symm⟩, fun _ ht => .inl ht⟩

/-- An attribute that is kept as it is. -/
theorem Extends.extra {line key value : Text} (s : SessionDescription) (hkey : FromLine line key)
    (hvalue : FromLine line value) :
    Extends line s { s with extraAttrs := s.extraAttrs ++ [(key, value)] } := by
  refine ⟨⟨_, rfl⟩, fun t ht => ?_⟩
  simp only [sessionTexts, List.flatMap_append, List.flatMap_singleton, ← List.append_assoc] at ht ⊢
  rcases List.mem_append.1 ht with ht | ht
  · exact .inl ht
  · simp only [List.mem_cons, List.not_mem_nil, or_false] at ht
    rcases ht with rfl | rfl
    · exact .inr hkey
    · exact .inr hvalue

/-- What a line does to the state: it stays in the session, or in the media block. -/
structure Follows (line : Text) (st st' : ParseState) : Prop where
  session : Extends line st.session st'.session
  inMedia : st'.curMedia.isSome = st.curMedia.isSome

theorem Follows.refl (line : Text) (st : ParseState) : Follows line st st :=
  ⟨Extends.refl line st.session, rfl⟩

theorem Follows.update {line : Text} (st : ParseState)
    {onSession : SessionDescription → SessionDescription}
    (onMedia : MediaDescription → MediaDescription)
    (h : Extends line st.session (onSession st.session)) :
    Follows line st (st.update onSession onMedia) := by
  obtain ⟨session, curMedia⟩ := st
  cases curMedia with
  | none => exact ⟨h, rfl⟩
  | some m => exact ⟨Extends.refl line session, rfl⟩

theorem Follows.media {line : Text} (st : ParseState)
    (onMedia : MediaDescription → MediaDescription) : Follows line st (st.update id onMedia) :=
  Follows.update st onMedia (Extends.refl line st.session)

/-- A line is read, and does that. -/
def Reads (line : Text) (st : ParseState) (r : Except ParseStop ParseState) : Prop :=
  ∃ st', r = .ok st' ∧ Follows line st st'

theorem Reads.ok {line : Text} {st st' : ParseState} (h : Follows line st st') :
    Reads line st (.ok st') :=
  ⟨st', rfl, h⟩

theorem parseOrigin_spec (value : Text) (s : SessionDescription) :
    ∃ s', parseOrigin value s = .ok s' ∧ Extends value s s' := by
  obtain ⟨username, sv₁, h₁, husername, hsv₁⟩ := nextToken_spec value
  obtain ⟨sessionId, sv₂, h₂, hid, hsv₂⟩ := nextToken_spec sv₁
  obtain ⟨sessionVersion, sv₃, h₃, hversion, hsv₃⟩ := nextToken_spec sv₂
  obtain ⟨_, sv₄, h₄, -, hsv₄⟩ := nextToken_spec sv₃
  obtain ⟨_, sv₅, h₅, -, hsv₅⟩ := nextToken_spec sv₄
  have hall₂ := List.Subset.trans hsv₂ hsv₁
  have hall₅ := List.Subset.trans hsv₅ (List.Subset.trans hsv₄ (List.Subset.trans hsv₃ hall₂))
  refine ⟨{ s with
    originUsername := username
    originSessionId := sessionId
    originSessionVersion := sessionVersion
    originAddress := trim sv₅ }, ?_, ⟨[], (List.append_nil _).symm⟩, ?_⟩
  · simp only [parseOrigin, h₁, h₂, h₃, h₄, h₅, bind, Except.bind, pure, Except.pure]
  · have h₁ := FromLine.of_subset husername
    have h₂ := FromLine.of_subset (List.Subset.trans hid hsv₁)
    have h₃ := FromLine.of_subset (List.Subset.trans hversion hall₂)
    have h₅ := FromLine.of_subset (List.Subset.trans (trim_subset sv₅) hall₅)
    intro t ht
    simp only [sessionTexts, List.mem_append, List.mem_cons, List.not_mem_nil, or_false] at ht ⊢
    grind

theorem parseConnection_spec (value : Text) :
    ∃ c, parseConnection value = .ok c ∧ c.address ⊆ value := by
  obtain ⟨_, sv₁, h₁, -, hsv₁⟩ := nextToken_spec value
  obtain ⟨addrtype, sv₂, h₂, -, hsv₂⟩ := nextToken_spec sv₁
  have hsub : trim sv₂ ⊆ value :=
    List.Subset.trans (trim_subset sv₂) (List.Subset.trans hsv₂ hsv₁)
  cases hfind : find (trim sv₂) '/' with
  | none =>
    refine ⟨⟨trim sv₂, 0, if addrtype = "IP6".toList then 6 else 4⟩, ?_, hsub⟩
    simp only [parseConnection, h₁, h₂, hfind, bind, Except.bind, pure, Except.pure]
  | some slash =>
    refine ⟨⟨(trim sv₂).take slash, (parseUint16 ((trim sv₂).drop (slash + 1))).getD 0,
      if addrtype = "IP6".toList then 6 else 4⟩, ?_,
      List.Subset.trans (List.take_subset _ _) hsub⟩
    simp only [parseConnection, h₁, h₂, hfind, bind, Except.bind, pure, Except.pure,
      substr_eq_ok (Nat.succ_le_of_lt (find_lt hfind))]

theorem parseMediaDesc_ok (value : Text) : ∃ m, parseMediaDesc value = .ok m := by
  obtain ⟨media, sv₁, h₁, -, -⟩ := nextToken_spec value
  obtain ⟨port, sv₂, h₂, -, -⟩ := nextToken_spec sv₁
  obtain ⟨protocol, sv₃, h₃, -, -⟩ := nextToken_spec sv₂
  obtain ⟨formats, h₄, -⟩ := tokens_spec sv₃
  simp only [parseMediaDesc, h₁, h₂, h₃, h₄, bind, Except.bind, pure, Except.pure]
  exact ⟨_, rfl⟩

theorem parseRtpmap_ok (value : Text) : ∃ r, parseRtpmap value = .ok r := by
  obtain ⟨fmt, sv, h₁, -, -⟩ := nextToken_spec value
  obtain ⟨encodingStr, _, h₂, -, -⟩ := nextToken_spec sv
  obtain ⟨encoding, remainder, h₃, -, -⟩ := splitAt_spec encodingStr '/'
  cases hfind : find remainder '/' with
  | none =>
    simp only [parseRtpmap, h₁, h₂, h₃, hfind, bind, Except.bind, pure, Except.pure]
    exact ⟨_, rfl⟩
  | some slash2 =>
    simp only [parseRtpmap, h₁, h₂, h₃, hfind, bind, Except.bind, pure, Except.pure,
      substr_eq_ok (Nat.succ_le_of_lt (find_lt hfind))]
    exact ⟨_, rfl⟩

theorem parseExtmapParam_ok (params : List (Text × Text)) (token : Text) :
    ∃ params', parseExtmapParam params token = .ok params' := by
  cases hfind : find token '=' with
  | none => exact ⟨_, by simp only [parseExtmapParam, hfind]; rfl⟩
  | some eq =>
    simp only [parseExtmapParam, hfind, bind, Except.bind, pure, Except.pure,
      substr_eq_ok (Nat.succ_le_of_lt (find_lt hfind))]
    exact ⟨_, rfl⟩

/-- A loop whose every turn succeeds. -/
theorem foldlM_ok {σ ι : Type} {f : σ → ι → Except ParseStop σ} (h : ∀ s i, ∃ s', f s i = .ok s') :
    ∀ (is : List ι) (s : σ), ∃ s', is.foldlM f s = .ok s'
  | [], s => ⟨s, rfl⟩
  | i :: is, s => by
    obtain ⟨s₁, h₁⟩ := h s i
    obtain ⟨s₂, h₂⟩ := foldlM_ok h is s₁
    exact ⟨s₂, by rw [List.foldlM_cons, h₁]; exact h₂⟩

theorem parseExtmap_ok (value : Text) : ∃ em, parseExtmap value = .ok em := by
  obtain ⟨idStr, sv₁, h₁, -, -⟩ := nextToken_spec value
  obtain ⟨idPart, dirPart, h₂, -, -⟩ := splitAt_spec idStr '/'
  obtain ⟨uri, sv₂, h₃, -, -⟩ := nextToken_spec sv₁
  obtain ⟨paramTokens, h₄, -⟩ := tokens_spec sv₂
  obtain ⟨params, h₅⟩ := foldlM_ok parseExtmapParam_ok paramTokens []
  simp only [parseExtmap, h₁, h₂, h₃, h₄, h₅, bind, Except.bind, pure, Except.pure]
  exact ⟨_, rfl⟩

/-! ### Attributes -/

theorem length_le_of_startsWith {s : Text} {start : String} (h : startsWith s start = true) :
    start.toList.length ≤ s.length :=
  (List.isPrefixOf_iff_prefix.1 h).length_le

theorem substr_of_startsWith {s : Text} {start : String} {pos : ℕ} (h : startsWith s start = true)
    (hpos : pos ≤ start.toList.length) : substr s pos = .ok (s.drop pos) :=
  substr_eq_ok (hpos.trans (length_le_of_startsWith h))

/-- The attributes that are only a name, one character short of the offset. -/
def bareName (av : Text) : Bool := av = "ice-options:".toList || av = "msid-semantic:".toList

theorem length_lt_of_startsWith {s : Text} {start : String} (h : startsWith s start = true)
    (hne : s ≠ start.toList) : start.toList.length < s.length := by
  obtain ⟨rest, rfl⟩ := List.isPrefixOf_iff_prefix.1 h
  rw [List.length_append]
  refine Nat.lt_add_of_pos_right (List.length_pos_iff.2 fun hnil => hne ?_)
  rw [hnil, List.append_nil]

theorem parseAttribute_bareName (st : ParseState) {av : Text} (h : bareName av = true) :
    parseAttribute st av = .error .outOfRange := by
  simp only [bareName, Bool.or_eq_true, decide_eq_true_eq] at h
  rcases h with rfl | rfl <;> rfl

/-- Every other attribute is read. -/
theorem parseAttribute_reads (st : ParseState) {av : Text} (h : bareName av = false) :
    Reads av st (parseAttribute st av) := by
  simp only [bareName, Bool.or_eq_false_iff, decide_eq_false_iff_not] at h
  obtain ⟨hoptions, hsemantic⟩ := h
  have hdrop : ∀ n, FromLine av (av.drop n) := fun n => .of_subset (List.drop_subset n av)
  rw [parseAttribute]
  refine iteInduction (fun hmux => ?_) fun _ => ?_
  · exact .ok (.update st _ (.extra st.session (.of_clean _ rfl) (.of_clean _ rfl)))
  refine iteInduction (fun hdir => ?_) fun _ => ?_
  · split
    · exact .ok (.refl av st)
    · exact .ok (.update st _
        (.extra st.session (.of_clean _ rfl) (.of_subset (List.Subset.refl av))))
  refine iteInduction (fun hufrag => ?_) fun _ => ?_
  · rw [substr_of_startsWith hufrag (by decide)]
    exact .ok (.update st _ (.extra st.session (.of_clean _ rfl) (hdrop 10)))
  refine iteInduction (fun hpwd => ?_) fun _ => ?_
  · rw [substr_of_startsWith hpwd (by decide)]
    exact .ok (.update st _ (.extra st.session (.of_clean _ rfl) (hdrop 8)))
  refine iteInduction (fun hopts => ?_) fun _ => ?_
  · rw [substr_eq_ok (show 13 ≤ av.length from length_lt_of_startsWith hopts hoptions)]
    refine .ok (.update st _ ⟨⟨[], (List.append_nil _).symm⟩, fun t ht => ?_⟩)
    have := hdrop 13
    simp only [sessionTexts, List.mem_append, List.mem_cons, List.not_mem_nil, or_false] at ht ⊢
    grind
  refine iteInduction (fun hfp => ?_) fun _ => ?_
  · rw [substr_of_startsWith hfp (by decide)]
    obtain ⟨algo, hash, hsplit, halgo, hhash⟩ := splitAt_spec (av.drop 12) ' '
    simp only [hsplit, bind, Except.bind, pure, Except.pure]
    refine .ok (.update st _ ⟨⟨[], (List.append_nil _).symm⟩, fun t ht => ?_⟩)
    have halgo : FromLine av algo := .of_subset (List.Subset.trans halgo (List.drop_subset 12 av))
    have hhash : FromLine av hash := .of_subset (List.Subset.trans hhash (List.drop_subset 12 av))
    simp only [sessionTexts, List.mem_append, List.mem_cons, List.not_mem_nil, or_false] at ht ⊢
    grind
  refine iteInduction (fun hsetup => ?_) fun _ => ?_
  · rw [substr_of_startsWith hsetup (by decide)]
    refine .ok (.update st _ ⟨⟨[], (List.append_nil _).symm⟩, fun t ht => ?_⟩)
    have := hdrop 6
    simp only [sessionTexts, List.mem_append, List.mem_cons, List.not_mem_nil, or_false] at ht ⊢
    grind
  refine iteInduction (fun hconn => ?_) fun _ => ?_
  · rw [substr_of_startsWith hconn (by decide)]
    exact .ok (.media st _)
  refine iteInduction (fun hmid => ?_) fun _ => ?_
  · rw [substr_of_startsWith hmid (by decide)]
    exact .ok (.media st _)
  refine iteInduction (fun hrtpmap => ?_) fun _ => ?_
  · rw [substr_of_startsWith hrtpmap (by decide)]
    obtain ⟨⟨fmt, map⟩, hparse⟩ := parseRtpmap_ok (av.drop 7)
    simp only [hparse, bind, Except.bind, pure, Except.pure]
    exact .ok (.media st _)
  refine iteInduction (fun hfmtp => ?_) fun _ => ?_
  · rw [substr_of_startsWith hfmtp (by decide)]
    obtain ⟨fmtKey, params, hsplit, -, -⟩ := splitAt_spec (av.drop 5) ' '
    simp only [hsplit, bind, Except.bind, pure, Except.pure]
    exact .ok (.media st _)
  refine iteInduction (fun hfb => ?_) fun _ => ?_
  · rw [substr_of_startsWith hfb (by decide)]
    exact .ok (.media st _)
  refine iteInduction (fun hext => ?_) fun _ => ?_
  · rw [substr_of_startsWith hext (by decide)]
    obtain ⟨em, hparse⟩ := parseExtmap_ok (av.drop 7)
    simp only [hparse, bind, Except.bind, pure, Except.pure]
    exact .ok (.media st _)
  refine iteInduction (fun hcand => ?_) fun _ => ?_
  · rw [substr_of_startsWith hcand (by decide)]
    exact .ok (.media st _)
  refine iteInduction (fun hgroup => ?_) fun _ => ?_
  · rw [substr_of_startsWith hgroup (by decide)]
    simp only [bind, Except.bind, pure, Except.pure]
    split_ifs with hbundle
    · rw [substr_of_startsWith hbundle (by decide)]
      obtain ⟨found, hfound, hsub⟩ := tokens_spec ((av.drop 6).drop 6)
      simp only [hfound]
      refine .ok ⟨⟨⟨[], (List.append_nil _).symm⟩, fun t ht => ?_⟩, rfl⟩
      have hnew : ∀ t ∈ found, FromLine av t := fun t ht => .of_subset (List.Subset.trans (hsub t ht)
        (List.Subset.trans (List.drop_subset 6 _) (List.drop_subset 6 av)))
      simp only [sessionTexts, List.mem_append, List.mem_cons, List.not_mem_nil, or_false] at ht ⊢
      grind
    · exact .ok (.refl av st)
  refine iteInduction (fun hsem => ?_) fun _ => ?_
  · rw [substr_eq_ok (show 15 ≤ av.length from length_lt_of_startsWith hsem hsemantic)]
    obtain ⟨token, streams, hsplit, htoken, hstreams⟩ := splitAt_spec (av.drop 15) ' '
    simp only [hsplit, bind, Except.bind, pure, Except.pure]
    have htoken : FromLine av (trim token) := .of_subset (List.Subset.trans (trim_subset token)
      (List.Subset.trans htoken (List.drop_subset 15 av)))
    have hstreams : FromLine av (trim streams) := .of_subset (List.Subset.trans (trim_subset streams)
      (List.Subset.trans hstreams (List.drop_subset 15 av)))
    refine .ok ⟨⟨⟨[], (List.append_nil _).symm⟩, fun t ht => ?_⟩, rfl⟩
    simp only [sessionTexts, List.mem_append, List.mem_cons, List.not_mem_nil, or_false] at ht ⊢
    grind
  refine iteInduction (fun hmsid => ?_) fun _ => ?_
  · rw [substr_of_startsWith hmsid (by decide)]
    obtain ⟨streamId, trackId, hsplit, -, -⟩ := splitAt_spec (av.drop 5) ' '
    simp only [hsplit, bind, Except.bind, pure, Except.pure]
    exact .ok (.media st _)
  have hrange : (find av ' ').getD av.length ≤ av.length := by
    cases hfind : find av ' ' with
    | none => exact le_refl _
    | some pos => exact (find_lt hfind).le
  simp only [substr_eq_ok hrange, bind, Except.bind, pure, Except.pure]
  exact .ok (.update st _ (.extra st.session (.of_subset (List.take_subset _ _))
    (.of_subset (List.Subset.trans (trim_subset _) (List.drop_subset _ _)))))

/-! ### The loop -/

/-- A line that throws: an attribute that is only such a name. -/
def throwing (line : Text) : Bool := line.headD ' ' = 'a' && bareName (trim (line.drop 2))

theorem Extends.of_subset {line line' : Text} {s s' : SessionDescription} (h : Extends line s s')
    (hsub : line ⊆ line') : Extends line' s s' :=
  ⟨h.extras, fun t ht => (h.texts t ht).imp_right fun hfrom c hc => (hfrom c hc).imp_left (hsub ·)⟩

theorem Extends.finishMedia (line : Text) (st : ParseState) :
    Extends line st.session st.finishMedia := by
  obtain ⟨session, curMedia⟩ := st
  cases curMedia with
  | none => exact Extends.refl line session
  | some m => exact ⟨⟨[], (List.append_nil _).symm⟩, fun t ht => .inl ht⟩

theorem parseLine_malformed (st : ParseState) {line : Text} (hsome : line ≠ [])
    (h : malformed line = true) : ∃ message, parseLine st line = .error (.protocolError message) := by
  rw [parseLine, if_neg hsome, if_pos h]
  exact ⟨_, rfl⟩

theorem substr_two {line : Text} (h : malformed line = false) : substr line 2 = .ok (line.drop 2) := by
  simp only [malformed, Bool.or_eq_false_iff, decide_eq_false_iff_not] at h
  exact substr_eq_ok (not_lt.1 h.1)

theorem parseLine_throwing (st : ParseState) {line : Text} (hline : malformed line = false)
    (h : throwing line = true) : parseLine st line = .error .outOfRange := by
  simp only [throwing, Bool.and_eq_true, decide_eq_true_eq] at h
  have hsome : line ≠ [] := by
    rintro rfl
    cases hline
  rw [parseLine, if_neg hsome, hline, if_neg Bool.false_ne_true, substr_two hline]
  simp only [bind, Except.bind, h.1]
  exact parseAttribute_bareName st h.2

/-- What any other line does: an `m=` line starts a media block, and the others stay where they are. -/
structure ReadsLine (line : Text) (st : ParseState) (r : Except ParseStop ParseState) : Prop where
  reads : ∃ st', r = .ok st' ∧ Extends line st.session st'.session
    ∧ (st'.curMedia.isSome = st.curMedia.isSome ∨ line.headD ' ' = 'm' ∧ st'.curMedia.isSome = true)

theorem Reads.line {line part : Text} {st : ParseState} {r : Except ParseStop ParseState}
    (h : Reads part st r) (hsub : part ⊆ line) : ReadsLine line st r := by
  obtain ⟨st', hok, hfollows⟩ := h
  exact ⟨st', hok, hfollows.session.of_subset hsub, .inl hfollows.inMedia⟩

theorem ReadsLine.session {line : Text} {st : ParseState} {session : SessionDescription}
    (h : Extends (line.drop 2) st.session session) :
    ReadsLine line st (.ok ⟨session, st.curMedia⟩) :=
  ⟨_, rfl, h.of_subset (List.drop_subset 2 line), .inl rfl⟩

theorem parseLine_reads (st : ParseState) {line : Text} (hline : line = [] ∨ malformed line = false)
    (h : throwing line = false) : ReadsLine line st (parseLine st line) := by
  have hrefl := List.Subset.refl line
  rw [parseLine]
  refine iteInduction (fun _ => (Reads.ok (.refl line st)).line hrefl) fun hsome => ?_
  have hline := hline.resolve_left hsome
  rw [hline, if_neg Bool.false_ne_true, substr_two hline]
  simp only [bind, Except.bind, pure, Except.pure]
  have hvalue : line.drop 2 ⊆ line := List.drop_subset 2 line
  have htrim : FromLine (line.drop 2) (trim (line.drop 2)) := .of_subset (trim_subset _)
  refine iteInduction (fun _ => ?_) fun _ => ?_
  · split
    · exact (Reads.ok (.refl line st)).line hrefl
    · exact .session ⟨⟨[], (List.append_nil _).symm⟩, fun t ht => .inl ht⟩
  refine iteInduction (fun _ => ?_) fun _ => ?_
  · obtain ⟨session, hparse, hextends⟩ := parseOrigin_spec (line.drop 2) st.session
    rw [hparse]
    exact .session hextends
  refine iteInduction (fun _ => ?_) fun _ => ?_
  · refine .session ⟨⟨[], (List.append_nil _).symm⟩, fun t ht => ?_⟩
    simp only [sessionTexts, List.mem_append, List.mem_cons, List.not_mem_nil, or_false] at ht ⊢
    grind
  refine iteInduction (fun _ => ?_) fun _ => ?_
  · refine (Reads.ok (.update st _ ⟨⟨[], (List.append_nil _).symm⟩, fun t ht => ?_⟩)).line hvalue
    simp only [sessionTexts, List.mem_append, List.mem_cons, List.not_mem_nil, or_false] at ht ⊢
    grind
  refine iteInduction (fun _ => ?_) fun _ => ?_
  · refine .session ⟨⟨[], (List.append_nil _).symm⟩, fun t ht => ?_⟩
    simp only [sessionTexts, List.mem_append, List.mem_cons, List.not_mem_nil, or_false] at ht ⊢
    grind
  refine iteInduction (fun _ => ?_) fun _ => ?_
  · obtain ⟨c, hparse, haddress⟩ := parseConnection_spec (line.drop 2)
    rw [hparse]
    have haddress : FromLine (line.drop 2) c.address := .of_subset haddress
    refine (Reads.ok (.update st _ ⟨⟨[], (List.append_nil _).symm⟩, fun t ht => ?_⟩)).line hvalue
    simp only [sessionTexts, List.mem_append, List.mem_cons, List.not_mem_nil, or_false] at ht ⊢
    grind
  refine iteInduction (fun _ => ?_) fun _ => ?_
  · obtain ⟨token, rest, hnext, -, -⟩ := nextToken_spec (line.drop 2)
    rw [hnext]
    exact (Reads.ok (.refl line st)).line hrefl
  refine iteInduction (fun htype => ?_) fun _ => ?_
  · have hkey : FromLine (line.drop 2) [line.headD ' '] := by
      rcases htype with htype | htype | htype | htype <;> rw [htype] <;> exact .of_clean _ rfl
    exact (Reads.ok (.update st _ (.extra st.session hkey htrim))).line hvalue
  refine iteInduction (fun htype => ?_) fun _ => ?_
  · have hname : bareName (trim (line.drop 2)) = false := by
      rw [throwing, htype] at h
      simpa using h
    exact (parseAttribute_reads st hname).line (List.Subset.trans (trim_subset _) hvalue)
  refine iteInduction (fun htype => ?_) fun _ => ?_
  · obtain ⟨m, hparse⟩ := parseMediaDesc_ok (line.drop 2)
    rw [hparse]
    exact ⟨_, rfl, Extends.finishMedia line st, .inr ⟨htype, rfl⟩⟩
  exact (Reads.ok (.refl line st)).line hrefl

/-- A line after which `parse` goes on: empty lines are skipped. -/
def wellFormed (line : Text) : Bool := line = [] || !malformed line

/-- The lines that `parse` gets to: it returns at the first malformed one. -/
def wellFormedLines (sdpText : Text) : List Text := (lines sdpText).takeWhile wellFormed

theorem foldlM_parseLine : ∀ (ls : List Text) (st : ParseState),
    ls.foldlM parseLine st ≠ .error .outOfRange
      ↔ ∀ line ∈ ls.takeWhile wellFormed, throwing line = false
  | [], st => by simp [pure, Except.pure]
  | line :: ls, st => by
    rw [List.foldlM_cons]
    by_cases hline : wellFormed line = true
    · have hline' : line = [] ∨ malformed line = false := by simpa [wellFormed] using hline
      rw [List.takeWhile_cons_of_pos hline, List.forall_mem_cons]
      cases hthrow : throwing line with
      | true =>
        have hsome : malformed line = false := by
          refine hline'.resolve_left fun hnil => ?_
          rw [hnil] at hthrow
          cases hthrow
        rw [parseLine_throwing st hsome hthrow]
        simp [bind, Except.bind]
      | false =>
        obtain ⟨st', hok, -⟩ := (parseLine_reads st hline' hthrow).reads
        rw [hok]
        simpa [bind, Except.bind] using foldlM_parseLine ls st'
    · have hbad : line ≠ [] ∧ malformed line = true := by simpa [wellFormed] using hline
      obtain ⟨message, herror⟩ := parseLine_malformed st hbad.1 hbad.2
      rw [List.takeWhile_cons_of_neg hline, herror]
      simp [bind, Except.bind]

/-- Parsing ends with a result exactly if no line before the first malformed one is an attribute
`ice-options:` or `msid-semantic:` without a value. -/
theorem parse_returns_iff (sdpText : Text) :
    parse sdpText ≠ .error .outOfRange
      ↔ ∀ line ∈ wellFormedLines sdpText, throwing line = false := by
  rw [wellFormedLines, ← foldlM_parseLine _ {}, parse]
  cases (lines sdpText).foldlM parseLine {} with
  | error e => simp [bind, Except.bind]
  | ok st => simp [bind, Except.bind, pure, Except.pure]

/-- An empty list of ICE options ends the process. -/
theorem bare_options_throw : parse "v=0\r\na=ice-options:\r\n".toList = .error .outOfRange := by
  have hlines : lines "v=0\r\na=ice-options:\r\n".toList
      = ["v=0".toList, "a=ice-options:".toList] := by
    simp [lines, nextLine, skipEol, isEol]
  rw [parse, hlines]
  rfl

end NimRtc.SdpText

/-!
## The numbers of session descriptions

Both readers add up the digits of a text. The one for 32 bits stops when the sum gets too large. The
one for 16 bits, which reads ports, TTLs and the ids of header extensions, cuts the sum off instead.
-/

namespace NimRtc.SdpText

def digit (c : Char) : ℕ := c.toNat - '0'.toNat

/-- The number that digits stand for, the first of them the most significant. -/
def decimal (s : Text) : ℕ := Nat.ofDigits 10 (s.reverse.map digit)

theorem foldl_eq_decimal (s : Text) :
    s.foldl (fun result c => result * 10 + digit c) 0 = decimal s := by
  rw [decimal, Nat.ofDigits_eq_foldr, List.foldr_map, List.foldr_reverse]
  congr 1
  funext result c
  rw [Nat.cast_id, Nat.mul_comm, Nat.add_comm]

/-! ### 16 bits -/

theorem foldl_mod (n : ℕ) (s : Text) : ∀ result : ℕ,
    s.foldl (fun result c => (result * 10 + digit c) % n) (result % n)
      = s.foldl (fun result c => result * 10 + digit c) result % n := by
  induction s with
  | nil => exact fun _ => rfl
  | cons c s ih =>
    intro result
    rw [List.foldl_cons, List.foldl_cons, ← ih, Nat.add_mod, Nat.mod_mul_mod, ← Nat.add_mod]

theorem parseUint16_eq {s : Text} (hne : s ≠ []) (hdigits : s.all isDigit = true) :
    parseUint16 s = some (decimal s % 2 ^ 16) := by
  have hcut := foldl_mod (2 ^ 16) s 0
  rw [foldl_eq_decimal] at hcut
  rw [parseUint16, if_neg (by simp [hne, hdigits])]
  exact congrArg some hcut

/-! ### 32 bits -/

theorem foldlM_eq {s : Text} : ∀ {result v : ℕ}, s.foldlM (fun result c =>
      if isDigit c then
        let result := result * 10 + (c.toNat - '0'.toNat)
        if 0xFFFFFFFF < result then none else some result
      else none) result = some v →
    s.foldl (fun result c => result * 10 + digit c) result = v := by
  induction s with
  | nil => exact fun h => Option.some.inj h
  | cons c s ih =>
    intro result v h
    rw [List.foldlM_cons] at h
    obtain ⟨next, hnext, h⟩ := Option.bind_eq_some_iff.1 h
    simp only at hnext
    split_ifs at hnext with hdigit hlarge
    obtain rfl := Option.some.inj hnext
    exact ih h

theorem parseUint32_eq {s : Text} {v : ℕ} (h : parseUint32 s = some v) : decimal s = v := by
  rw [parseUint32] at h
  split_ifs at h with hempty
  rw [← foldl_eq_decimal]
  exact foldlM_eq h

/-- What the readers return is what the digits stand for just when that fits 16 bits, and the reader
for 32 bits returns nothing else in any case. -/
theorem numbers_exact_iff (s : Text) (hdigits : s.all isDigit = true) :
    (((∀ v, parseUint16 s = some v → v = decimal s)
          ∧ ∀ v, parseUint32 s = some v → v = decimal s) ↔ decimal s < 2 ^ 16)
      ∧ ∀ v, parseUint32 s = some v → v = decimal s := by
  have hexact : ∀ v, parseUint32 s = some v → v = decimal s := fun v h => (parseUint32_eq h).symm
  refine ⟨⟨fun ⟨hshort, _⟩ => ?_, fun hfits => ⟨fun v h => ?_, hexact⟩⟩, hexact⟩
  · rcases eq_or_ne s [] with rfl | hne
    · decide
    · have hcut := hshort _ (parseUint16_eq hne hdigits)
      rw [← hcut]
      exact Nat.mod_lt _ (by decide)
  · rcases eq_or_ne s [] with rfl | hne
    · cases h
    · rw [parseUint16_eq hne hdigits, Nat.mod_eq_of_lt hfits] at h
      exact (Option.some.inj h).symm

-- the largest port
theorem numbers_exact_iff_port :
    decimal ['6', '5', '5', '3', '5'] = 65535
      ∧ ∀ v, parseUint16 ['6', '5', '5', '3', '5'] = some v → v = decimal ['6', '5', '5', '3', '5'] :=
  ⟨by decide, ((numbers_exact_iff ['6', '5', '5', '3', '5'] (by decide)).1.2 (by decide)).1⟩

-- a port that is ten above it is read as 9
theorem port_cut_off : ¬ ∀ s : Text, s.all isDigit = true →
    (∀ v, parseUint16 s = some v → v = decimal s) ∧ ∀ v, parseUint32 s = some v → v = decimal s := by
  intro hall
  have hport := (hall ['6', '5', '5', '4', '5'] (by decide)).1 9 (by decide)
  exact absurd hport (by decide)

end NimRtc.SdpText
