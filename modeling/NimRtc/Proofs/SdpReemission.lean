import NimRtc.Proofs.SdpTotal

/-!
# A description that is written gains attributes

`to_sdp` writes a timing line, which `parse` keeps as the attribute `t`, and `to_sdp` writes an
attribute `t` as an `a=` line, which `parse` keeps under another name. So each time a description is
written and parsed it has one attribute more of the timing lines before.
-/

namespace NimRtc.SdpText

/-! ### The lines of what is written -/

/-- A text within a line. -/
def Clean (t : Text) : Prop := ∀ c ∈ t, isEol c = false

theorem lines_crlf {line : Text} (h : Clean line) (rest : Text) :
    lines (crlf line ++ rest) = line :: lines rest := by
  have hbytes : crlf line ++ rest = line ++ '\r' :: '\n' :: rest := by
    rw [crlf, List.append_assoc]
    rfl
  have hsome : line ++ '\r' :: '\n' :: rest ≠ [] := by simp
  have hnot : ∀ c ∈ line, (!isEol c) = true := fun c hc => by simp [h c hc]
  have htake : (line ++ '\r' :: '\n' :: rest).takeWhile (fun c => !isEol c) = line := by
    rw [List.takeWhile_append_of_pos hnot, List.takeWhile_cons_of_neg (by simp [isEol]),
      List.append_nil]
  have hdrop : (line ++ '\r' :: '\n' :: rest).dropWhile (fun c => !isEol c)
      = '\r' :: '\n' :: rest := by
    rw [List.dropWhile_append_of_pos hnot, List.dropWhile_cons_of_neg (by simp [isEol])]
  have hnext : nextLine (line ++ '\r' :: '\n' :: rest) = (line, rest) := by
    rw [nextLine, htake, hdrop]
    rfl
  rw [hbytes, lines, dif_neg hsome]
  simp only [hnext]

theorem lines_nil : lines [] = [] := by rw [lines, dif_pos rfl]

theorem lines_flatMap_crlf (rest : Text) : ∀ {ls : List Text}, (∀ l ∈ ls, Clean l) →
    lines (ls.flatMap crlf ++ rest) = ls ++ lines rest
  | [], _ => rfl
  | l :: ls, h => by
    rw [List.flatMap_cons, List.append_assoc, lines_crlf (h l List.mem_cons_self),
      lines_flatMap_crlf rest fun l hl => h l (List.mem_cons_of_mem _ hl), List.cons_append]

theorem clean_lines (text : Text) : ∀ l ∈ lines text, Clean l := by
  intro l hl
  rw [lines] at hl
  split_ifs at hl with hnil
  · cases hl
  · have hlt := length_nextLine hnil
    rcases List.mem_cons.1 hl with rfl | hl
    · intro c hc
      simpa using List.mem_takeWhile_imp hc
    · exact clean_lines (nextLine text).2 l hl
  termination_by text.length

/-! ### What is parsed is clean -/

theorem parseLine_ok {st st' : ParseState} {line : Text} (h : parseLine st line = .ok st') :
    Extends line st.session st'.session
      ∧ (st'.curMedia.isSome = st.curMedia.isSome ∨ line.headD ' ' = 'm') := by
  have hline : line = [] ∨ malformed line = false := by
    by_contra hbad
    rw [not_or, Bool.not_eq_false] at hbad
    obtain ⟨message, herror⟩ := parseLine_malformed st hbad.1 hbad.2
    rw [h] at herror
    cases herror
  have hthrow : throwing line = false := by
    by_contra hbad
    rw [Bool.not_eq_false] at hbad
    rcases hline with rfl | hline
    · cases hbad
    · have herror := parseLine_throwing st hline hbad
      rw [h] at herror
      cases herror
  obtain ⟨st'', hok, hextends, hmedia⟩ := (parseLine_reads st hline hthrow).reads
  rw [h] at hok
  obtain rfl := Except.ok.inj hok
  exact ⟨hextends, hmedia.imp_right And.left⟩

/-- The turns of the loop, one by one. -/
theorem foldlM_cons_ok {st st' : ParseState} {line : Text} {ls : List Text}
    (h : (line :: ls).foldlM parseLine st = .ok st') :
    ∃ st₁, parseLine st line = .ok st₁ ∧ ls.foldlM parseLine st₁ = .ok st' := by
  rw [List.foldlM_cons] at h
  cases hline : parseLine st line with
  | error e =>
    rw [hline] at h
    cases h
  | ok st₁ =>
    rw [hline] at h
    exact ⟨st₁, rfl, h⟩

theorem clean_foldlM : ∀ {ls : List Text} {st st' : ParseState}, (∀ l ∈ ls, Clean l) →
    ls.foldlM parseLine st = .ok st' → (∀ t ∈ sessionTexts st.session, Clean t) →
    ∀ t ∈ sessionTexts st'.session, Clean t
  | [], st, st', _, h, hst => by
    obtain rfl := Except.ok.inj h
    exact hst
  | l :: ls, st, st', hls, h, hst => by
    obtain ⟨st₁, hline, hrest⟩ := foldlM_cons_ok h
    refine clean_foldlM (fun l hl => hls l (List.mem_cons_of_mem _ hl)) hrest fun t ht => ?_
    rcases (parseLine_ok hline).1.texts t ht with ht | hfrom
    · exact hst t ht
    · intro c hc
      rcases hfrom c hc with hc | hc
      · exact hls l List.mem_cons_self c hc
      · exact hc

theorem clean_new : ∀ t ∈ sessionTexts {}, Clean t := by
  have hall : ∀ t ∈ sessionTexts {}, t.all (fun c => !isEol c) = true := by decide
  exact fun t ht c hc => by simpa using List.all_eq_true.1 (hall t ht) c hc

theorem clean_parse {text : Text} {sd : SessionDescription} (h : parse text = .ok sd) :
    ∀ t ∈ sessionTexts sd, Clean t := by
  rw [parse] at h
  cases hfold : (lines text).foldlM parseLine {} with
  | error e =>
    rw [hfold] at h
    cases h
  | ok st =>
    rw [hfold] at h
    obtain rfl := Except.ok.inj h
    have hst := clean_foldlM (clean_lines text) hfold clean_new
    intro t ht
    rcases (Extends.finishMedia [] st).texts t ht with ht | hfrom
    · exact hst t ht
    · exact fun c hc => (hfrom c hc).resolve_left (by simp)

/-! ### Timing lines as attributes -/

/-- The attributes that a timing line becomes: as it is parsed, and as it is parsed again. -/
def timing (kv : Text × Text) : Bool :=
  kv = (['t'], "0 0".toList) || kv = ("t:0".toList, ['0']) || kv = ("t:0:0".toList, [])

/-- The lines that are parsed to one of them. -/
def timingLine (line : Text) : Bool :=
  line = "t=0 0".toList || line = "a=t:0 0".toList || line = "a=t:0:0".toList

theorem timingLine_extraLine {kv : Text × Text} (h : timing kv = true) :
    timingLine (extraLine kv) = true := by
  simp only [timing, Bool.or_eq_true, decide_eq_true_eq] at h
  rcases h with (rfl | rfl) | rfl <;> rfl

theorem parseLine_timingLine {st st' : ParseState} {line : Text} (hline : timingLine line = true)
    (hst : st.curMedia = none) (h : parseLine st line = .ok st') :
    st'.session.extraAttrs.countP timing = st.session.extraAttrs.countP timing + 1 := by
  obtain ⟨session, curMedia⟩ := st
  obtain rfl : curMedia = none := hst
  have hadd : ∃ kv, timing kv = true ∧ parseLine ⟨session, none⟩ line
      = .ok ⟨{ session with extraAttrs := session.extraAttrs ++ [kv] }, none⟩ := by
    simp only [timingLine, Bool.or_eq_true, decide_eq_true_eq] at hline
    rcases hline with (rfl | rfl) | rfl
    · exact ⟨(['t'], "0 0".toList), rfl, rfl⟩
    · exact ⟨("t:0".toList, ['0']), rfl, rfl⟩
    · exact ⟨("t:0:0".toList, []), rfl, rfl⟩
  obtain ⟨kv, hkv, hok⟩ := hadd
  rw [h] at hok
  obtain rfl := Except.ok.inj hok
  simp [hkv]

theorem countP_le_of_extends {line : Text} {s s' : SessionDescription} (h : Extends line s s') :
    s.extraAttrs.countP timing ≤ s'.extraAttrs.countP timing := by
  obtain ⟨added, hadded⟩ := h.extras
  rw [hadded, List.countP_append]
  exact Nat.le_add_right _ _

/-- Before the first media description, each of these lines adds one of these attributes. -/
theorem countP_session : ∀ {ls : List Text} {st st' : ParseState},
    (∀ l ∈ ls, l.headD ' ' ≠ 'm') → st.curMedia = none → ls.foldlM parseLine st = .ok st' →
    st.session.extraAttrs.countP timing + ls.countP timingLine ≤ st'.session.extraAttrs.countP timing
  | [], st, st', _, _, h => by
    obtain rfl := Except.ok.inj h
    exact le_refl _
  | l :: ls, st, st', hls, hst, h => by
    obtain ⟨st₁, hline, hrest⟩ := foldlM_cons_ok h
    obtain ⟨hextends, hmedia⟩ := parseLine_ok hline
    have hst₁ : st₁.curMedia = none := by
      have hsame := hmedia.resolve_right (hls l List.mem_cons_self)
      rwa [hst, Option.isSome_none, Option.isSome_eq_false_iff, Option.isNone_iff_eq_none] at hsame
    have ih := countP_session (fun l hl => hls l (List.mem_cons_of_mem _ hl)) hst₁ hrest
    by_cases htiming : timingLine l = true
    · have hone := parseLine_timingLine htiming hst hline
      rw [List.countP_cons_of_pos htiming]
      omega
    · have hle := countP_le_of_extends hextends
      rw [List.countP_cons_of_neg htiming]
      omega

theorem countP_foldlM : ∀ {ls : List Text} {st st' : ParseState},
    ls.foldlM parseLine st = .ok st' →
    st.session.extraAttrs.countP timing ≤ st'.session.extraAttrs.countP timing
  | [], st, st', h => by
    obtain rfl := Except.ok.inj h
    exact le_refl _
  | l :: ls, st, st', h => by
    obtain ⟨st₁, hline, hrest⟩ := foldlM_cons_ok h
    exact (countP_le_of_extends (parseLine_ok hline).1).trans (countP_foldlM hrest)

/-! ### The session part -/

theorem countP_sessionLines (sd : SessionDescription) :
    sd.extraAttrs.countP timing + 1 ≤ (sessionLines sd).countP timingLine := by
  have hextra : sd.extraAttrs.countP timing ≤ (sd.extraAttrs.map extraLine).countP timingLine := by
    rw [List.countP_map]
    exact List.countP_mono_left fun kv _ hkv => timingLine_extraLine hkv
  have htime : ["t=0 0".toList].countP timingLine = 1 := rfl
  simp only [sessionLines, List.countP_append, htime]
  omega

theorem headD_attr {key : String} {value : Text} {c : Char} (hkey : key.toList.head? = some c)
    (hc : c ≠ 'm') : ∀ l ∈ attr key value, l.headD ' ' ≠ 'm' := by
  intro l hl
  rw [attr] at hl
  split_ifs at hl
  · cases hl
  · rw [List.mem_singleton.1 hl, List.headD_eq_head?_getD, List.head?_append, hkey]
    exact hc

theorem headD_sessionLines (sd : SessionDescription) : ∀ l ∈ sessionLines sd, l.headD ' ' ≠ 'm' := by
  have ha : 'a' ≠ 'm' := by decide
  simp only [sessionLines, List.forall_mem_append, List.forall_mem_cons]
  refine ⟨⟨⟨⟨⟨⟨⟨⟨⟨⟨?_, ?_⟩, ?_⟩, ?_⟩, ?_⟩, ?_⟩, ?_⟩, ?_⟩, ?_⟩, ?_⟩, ?_⟩
  · exact ⟨show 'v' ≠ 'm' by decide, show 'o' ≠ 'm' by decide, show 's' ≠ 'm' by decide,
      fun l hl => by cases hl⟩
  · exact headD_attr rfl (by decide)
  · exact headD_attr rfl (by decide)
  · intro l hl
    rw [connectionLine] at hl
    split_ifs at hl
    · cases hl
    all_goals
      rw [List.mem_singleton.1 hl]
      exact show 'c' ≠ 'm' by decide
  · exact ⟨show 't' ≠ 'm' by decide, fun l hl => by cases hl⟩
  · split_ifs
    · exact fun l hl => by cases hl
    · exact fun l hl => by rw [List.mem_singleton.1 hl]; exact ha
  · exact headD_attr rfl ha
  · split_ifs
    · exact fun l hl => by cases hl
    · exact fun l hl => by rw [List.mem_singleton.1 hl]; exact ha
  · intro l hl
    rw [fingerprintLine] at hl
    split_ifs at hl
    · rw [List.mem_singleton.1 hl]
      exact ha
    · cases hl
  · exact headD_attr rfl ha
  · intro l hl
    obtain ⟨kv, -, rfl⟩ := List.mem_map.1 hl
    exact ha

theorem clean_nil : Clean [] := fun _ hc => by cases hc

@[simp] theorem clean_cons {c : Char} {t : Text} : Clean (c :: t) ↔ isEol c = false ∧ Clean t :=
  List.forall_mem_cons

@[simp] theorem clean_append {s t : Text} : Clean (s ++ t) ↔ Clean s ∧ Clean t :=
  List.forall_mem_append

theorem clean_number (v : ℕ) : Clean (number v) := by
  intro c hc
  have hdigit := Nat.isDigit_of_mem_toDigits (by omega) (by omega) hc
  by_contra heol
  simp only [isEol, Bool.not_eq_false, Bool.or_eq_true, beq_iff_eq] at heol
  rcases heol with rfl | rfl <;> cases hdigit

theorem clean_orElse {s : Text} {default : String} (hs : Clean s) (hdefault : Clean default.toList) :
    Clean (orElse s default) := by
  rw [orElse]
  split_ifs
  · exact hdefault
  · exact hs

theorem clean_words {ts : List Text} (h : ∀ t ∈ ts, Clean t) : Clean (ts.flatMap (' ' :: ·)) := by
  intro c hc
  obtain ⟨t, ht, hc⟩ := List.mem_flatMap.1 hc
  rcases List.mem_cons.1 hc with rfl | hc
  · rfl
  · exact h t ht c hc

theorem clean_attr {key : String} {value : Text} (hkey : Clean key.toList) (hvalue : Clean value) :
    ∀ l ∈ attr key value, Clean l := by
  rw [attr]
  split_ifs
  · simp
  · simpa using ⟨hkey, hvalue⟩

theorem clean_sessionLines {sd : SessionDescription} (h : ∀ t ∈ sessionTexts sd, Clean t) :
    ∀ l ∈ sessionLines sd, Clean l := by
  have hconst : ∀ {s : String}, s.toList.all (fun c => !isEol c) = true → Clean s.toList :=
    fun hall c hc => by simpa using List.all_eq_true.1 hall c hc
  have hspace : Clean [' '] := by simp [isEol, clean_nil]
  simp only [sessionTexts, List.forall_mem_append, List.forall_mem_cons] at h
  obtain ⟨⟨⟨⟨hname, hinfo, huri, huser, hid, hversion, haddress, hoptions, htoken, halgo, hvalue,
    hsetup, hconnection, -⟩, hmids⟩, hstreams⟩, hextras⟩ := h
  simp only [sessionLines, List.forall_mem_append, List.forall_mem_cons]
  refine ⟨⟨⟨⟨⟨⟨⟨⟨⟨⟨?_, ?_⟩, ?_⟩, ?_⟩, ?_⟩, ?_⟩, ?_⟩, ?_⟩, ?_⟩, ?_⟩, ?_⟩
  · refine ⟨?_, ?_, ?_, fun l hl => by cases hl⟩
    · exact clean_append.2 ⟨hconst rfl, clean_number _⟩
    · simp only [clean_append]
      exact ⟨⟨⟨⟨⟨⟨⟨hconst rfl, clean_orElse huser (hconst rfl)⟩, hspace⟩,
        clean_orElse hid (hconst rfl)⟩, hspace⟩, clean_orElse hversion (hconst rfl)⟩, hconst rfl⟩,
        clean_orElse haddress (hconst rfl)⟩
    · exact clean_append.2 ⟨hconst rfl, clean_orElse hname (hconst rfl)⟩
  · exact clean_attr (hconst rfl) hinfo
  · exact clean_attr (hconst rfl) huri
  · intro l hl
    simp only [connectionLine, lt_irrefl, if_false, List.append_nil] at hl
    split_ifs at hl with hnil hfamily
    · cases hl
    all_goals
      rw [List.mem_singleton.1 hl]
      simp only [clean_append]
      exact ⟨⟨⟨hconst rfl, by simp [isEol, clean_nil]⟩, hspace⟩, hconnection⟩
  · exact ⟨hconst rfl, fun l hl => by cases hl⟩
  · split_ifs
    · exact fun l hl => by cases hl
    · intro l hl
      rw [List.mem_singleton.1 hl]
      exact clean_append.2 ⟨hconst rfl, clean_words hmids⟩
  · exact clean_attr (hconst rfl) hoptions
  · split_ifs
    · exact fun l hl => by cases hl
    · intro l hl
      rw [List.mem_singleton.1 hl]
      exact clean_append.2 ⟨clean_append.2 ⟨hconst rfl, htoken⟩, clean_words hstreams⟩
  · intro l hl
    rw [fingerprintLine] at hl
    split_ifs at hl
    · rw [List.mem_singleton.1 hl]
      simp only [clean_append]
      exact ⟨⟨⟨hconst rfl, halgo⟩, hspace⟩, hvalue⟩
    · cases hl
  · exact clean_attr (hconst rfl) hsetup
  · intro l hl
    obtain ⟨kv, hkv, rfl⟩ := List.mem_map.1 hl
    have hkey := hextras kv.1 (List.mem_flatMap.2 ⟨kv, hkv, by simp⟩)
    have hval := hextras kv.2 (List.mem_flatMap.2 ⟨kv, hkv, by simp⟩)
    rw [extraLine]
    refine clean_append.2 ⟨clean_append.2 ⟨hconst rfl, hkey⟩, ?_⟩
    split_ifs
    · exact clean_nil
    · exact clean_cons.2 ⟨rfl, hval⟩

/-! ### Writing and parsing -/

/-- Media descriptions that differ in the order of their extension maps at most. -/
def SameMedia (m m' : MediaDescription) : Prop :=
  { m with extmap := [] } = { m' with extmap := [] } ∧ m.extmap.Perm m'.extmap

def SameDescription (sd sd' : SessionDescription) : Prop :=
  { sd with media := [] } = { sd' with media := [] } ∧ List.Forall₂ SameMedia sd.media sd'.media

/-- What is written has one more attribute of a timing line than what was parsed. -/
theorem countP_reemitted {text : Text} {sd sd' : SessionDescription} (h : parse text = .ok sd)
    (h' : parse (toSdp sd) = .ok sd') :
    sd.extraAttrs.countP timing < sd'.extraAttrs.countP timing := by
  have hlines := lines_flatMap_crlf ((sd.media.flatMap mediaLines).flatMap crlf)
    (clean_sessionLines (clean_parse h))
  rw [parse, toSdp, hlines, List.foldlM_append] at h'
  cases hsession : (sessionLines sd).foldlM parseLine {} with
  | error e =>
    rw [hsession] at h'
    cases h'
  | ok st =>
    simp only [hsession, bind, Except.bind, pure, Except.pure] at h'
    cases hmedia : (lines ((sd.media.flatMap mediaLines).flatMap crlf)).foldlM parseLine st with
    | error e =>
      rw [hmedia] at h'
      cases h'
    | ok st' =>
      rw [hmedia] at h'
      obtain rfl := Except.ok.inj h'
      have hwritten := countP_sessionLines sd
      have hfirst := countP_session (headD_sessionLines sd) rfl hsession
      have hrest := countP_foldlM hmedia
      have hfinish := countP_le_of_extends (Extends.finishMedia [] st')
      omega

/-- No description is parsed back from what is written for it. -/
theorem reemission_differs {text : Text} {sd : SessionDescription} (h : parse text = .ok sd) :
    ¬ ∃ sd', parse (toSdp sd) = .ok sd' ∧ SameDescription sd sd' := by
  rintro ⟨sd', h', hsame, -⟩
  have hmore := countP_reemitted h h'
  have hextras : sd.extraAttrs = sd'.extraAttrs := congrArg (·.extraAttrs) hsame
  rw [hextras] at hmore
  exact lt_irrefl _ hmore

theorem parse_version : parse "v=0\r\n".toList = .ok {} := by
  have hclean : Clean "v=0".toList := by simp [Clean, isEol]
  have hlines : lines "v=0\r\n".toList = ["v=0".toList] :=
    (lines_crlf hclean []).trans (by rw [lines_nil])
  rw [parse, hlines]
  rfl

/-- The lines of an offer of audio, without an address. -/
def audioLines : List Text :=
  ["v=0".toList, "m=audio 9 UDP/TLS/RTP/SAVPF 111".toList, "a=mid:0".toList,
    "a=rtpmap:111 opus/48000/2".toList, "a=sendrecv".toList]

def audioDescription : SessionDescription := {
  msids := [{}]
  media := [{
    type := .audio
    port := 9
    protocol := "UDP/TLS/RTP/SAVPF".toList
    formats := ["111".toList]
    mid := ['0']
    rtpmap := [("111".toList, { encoding := "opus".toList, clockRate := 48000, channels := 2 })] }] }

theorem parse_audio : parse (audioLines.flatMap crlf) = .ok audioDescription := by
  have hclean : ∀ l ∈ audioLines, Clean l := by simp [audioLines, Clean, isEol]
  have hlines := lines_flatMap_crlf [] hclean
  rw [List.append_nil, lines_nil, List.append_nil] at hlines
  rw [parse, hlines]
  decide +kernel

theorem reemission_differs_audio : ¬ ∃ sd', parse (toSdp audioDescription) = .ok sd'
    ∧ SameDescription audioDescription sd' :=
  reemission_differs parse_audio

/-- The timing line that is written comes back as an attribute. -/
theorem timing_added : parse "v=0\r\n".toList = .ok {}
    ∧ ∃ sd', parse (toSdp {}) = .ok sd' ∧ sd'.extraAttrs = [(['t'], "0 0".toList)]
      ∧ ¬ SameDescription {} sd' := by
  refine ⟨parse_version, ?_⟩
  have hlines : lines (toSdp {}) = sessionLines {} := by
    rw [toSdp, lines_flatMap_crlf _ (clean_sessionLines clean_new)]
    show _ ++ lines [] = _
    rw [lines_nil, List.append_nil]
  rw [parse, hlines]
  refine ⟨_, rfl, rfl, fun hsame => ?_⟩
  have hextras := congrArg (·.extraAttrs) hsame.1
  cases hextras

end NimRtc.SdpText
