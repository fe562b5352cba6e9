import NimRtc.IceCandidate

/-!
# Candidates and their text

A failure before the type leaves the word of the type empty, so that the line is rejected: what is
accepted has words and numbers in their places. The checks of a stream are on the size of the number
as it is stored first, so that a negative number or a component that takes more than a byte comes out
as another, and after the type a failure is not looked for.
-/

namespace NimRtc

namespace Ice

open InputStream

/-! ### A line that is accepted -/

/-- The fields before the related address, and the text after them. -/
def fieldsIn (sdp : Text) : Option (Candidate × Text) := do
  let s ← afterPrefix sdp
  let (foundation, s) ← word s
  let (componentId, s) ← unsigned 32 s
  let (transport, s) ← word s
  let (priority, s) ← unsigned 32 s
  let (host, s) ← word s
  let (port, s) ← unsigned 16 s
  let (_, s) ← word s
  let (typeStr, s) ← word s
  let type ← typeOf typeStr
  let c : Candidate :=
    { type, foundation, componentId := UInt8.ofNat componentId, transport,
      priority := UInt32.ofNat priority, host, port := UInt16.ofNat port }
  return (c, s)

theorem readRelated_tok (c : Candidate) (s tok : Text) :
    readRelated c { rest := s } tok = readRelated c { rest := s } [] := by
  unfold readRelated
  rcases hword : word s with _ | ⟨t, s1⟩
  · rw [readWord_of_none hword, readWord_of_none hword]
    rfl
  · rw [readWord_of_some hword, readWord_of_some hword]

theorem typeOf_nil : typeOf [] = none := by decide

theorem parseCandidate_eq (sdp : Text) :
    parseCandidate sdp = (fieldsIn sdp).map fun r => readRelated r.1 { rest := r.2 } [] := by
  unfold parseCandidate fieldsIn
  rcases afterPrefix sdp with _ | s
  · rfl
  simp only [Option.bind_eq_bind, Option.bind_some]
  rcases hfoundation : word s with _ | ⟨foundation, s1⟩
  · simp only [readWord_of_none hfoundation, readWord_failed, readUnsigned_failed, typeOf_nil]
    rfl
  simp only [readWord_of_some hfoundation, Option.bind_some]
  rcases hid : unsigned 32 s1 with _ | ⟨id, s2⟩
  · have hfailed := readUnsigned_of_none (n := 0) hid
    generalize readUnsigned { rest := s1 } 32 0 = r at hfailed ⊢
    simp only [readWord_failed hfailed, readUnsigned_failed hfailed, typeOf_nil]
    rfl
  simp only [readUnsigned_of_some hid, Option.bind_some]
  rcases htransport : word s2 with _ | ⟨transport, s3⟩
  · simp only [readWord_of_none htransport, readWord_failed, readUnsigned_failed, typeOf_nil]
    rfl
  simp only [readWord_of_some htransport, Option.bind_some]
  rcases hpriority : unsigned 32 s3 with _ | ⟨priority, s4⟩
  · have hfailed := readUnsigned_of_none (n := 0) hpriority
    generalize readUnsigned { rest := s3 } 32 0 = r at hfailed ⊢
    simp only [readWord_failed hfailed, readUnsigned_failed hfailed, typeOf_nil]
    rfl
  simp only [readUnsigned_of_some hpriority, Option.bind_some]
  rcases hhost : word s4 with _ | ⟨host, s5⟩
  · simp only [readWord_of_none hhost, readWord_failed, readUnsigned_failed, typeOf_nil]
    rfl
  simp only [readWord_of_some hhost, Option.bind_some]
  rcases hport : unsigned 16 s5 with _ | ⟨port, s6⟩
  · have hfailed := readUnsigned_of_none (n := 0) hport
    generalize readUnsigned { rest := s5 } 16 0 = r at hfailed ⊢
    simp only [readWord_failed hfailed, typeOf_nil]
    rfl
  simp only [readUnsigned_of_some hport, Option.bind_some]
  rcases htyp : word s6 with _ | ⟨typ, s7⟩
  · simp only [readWord_of_none htyp, readWord_failed, typeOf_nil]
    rfl
  simp only [readWord_of_some htyp, Option.bind_some]
  rcases htype : word s7 with _ | ⟨typeStr, s8⟩
  · simp only [readWord_of_none htype, typeOf_nil]
    rfl
  simp only [readWord_of_some htype, Option.bind_some]
  rcases typeOf typeStr with _ | type
  · rfl
  · exact congrArg some (readRelated_tok _ _ _)

/-! ### The line of a candidate -/

theorem isWord_type (type : CandidateType) : IsWord type.text := by
  cases type <;> exact isWord_of_all (by decide) (by decide)

theorem typeOf_text (type : CandidateType) : typeOf type.text = some type := by
  cases type <;> decide

/-- What follows the type. -/
def Candidate.relatedText (c : Candidate) : Text :=
  if c.relatedAddress = [] then []
  else ' ' :: ("raddr".toList ++ ' ' :: (c.relatedAddress
    ++ ' ' :: ("rport".toList ++ ' ' :: (number c.relatedPort.toNat ++ []))))

theorem toSdp_eq (c : Candidate) :
    c.toSdp = kPrefix ++ (c.foundation ++ ' ' :: (number c.componentId.toNat
      ++ ' ' :: (c.transport ++ ' ' :: (number c.priority.toNat ++ ' ' :: (c.host
      ++ ' ' :: (number c.port.toNat ++ ' ' :: ("typ".toList ++ ' ' :: (c.type.text
      ++ c.relatedText)))))))) := by
  have htyp : " typ ".toList = ' ' :: ("typ".toList ++ [' ']) := rfl
  have hraddr : " raddr ".toList = ' ' :: ("raddr".toList ++ [' ']) := rfl
  have hrport : " rport ".toList = ' ' :: ("rport".toList ++ [' ']) := rfl
  unfold Candidate.toSdp Candidate.relatedText
  rw [htyp, hraddr, hrport]
  split_ifs <;> simp only [List.append_assoc, List.cons_append, List.nil_append, List.append_nil]

theorem afterPrefix_kPrefix (s : Text) : afterPrefix (kPrefix ++ s) = some s := by
  have hother : kPrefixA.isPrefixOf (kPrefix ++ s) = false := rfl
  have hprefix : kPrefix.isPrefixOf (kPrefix ++ s) = true :=
    List.isPrefixOf_iff_prefix.2 (List.prefix_append _ _)
  rw [afterPrefix, hother, hprefix]
  simp

theorem number_append {bits n : ℕ} {s : Text} (h : n < 2 ^ bits) :
    unsigned bits (number n ++ ' ' :: s) = some (n, ' ' :: s) := by
  refine unsigned_append h fun c tail heq => ?_
  rw [← (List.cons.inj heq).1]
  rfl

theorem relatedText_cases (c : Candidate) :
    c.relatedText = [] ∨ ∃ tail, c.relatedText = ' ' :: tail := by
  unfold Candidate.relatedText
  split_ifs
  · exact .inl rfl
  · exact .inr ⟨_, rfl⟩

theorem fieldsIn_toSdp {c : Candidate} (h : c.WellFormed) :
    fieldsIn c.toSdp = some ({ c with relatedAddress := [], relatedPort := 0 }, c.relatedText) := by
  have hid : c.componentId.toNat < 2 ^ 32 := c.componentId.toNat_lt.trans (by decide)
  have htyp : IsWord "typ".toList := isWord_of_all (by decide) (by decide)
  rw [fieldsIn, toSdp_eq, afterPrefix_kPrefix]
  simp only [Option.bind_eq_bind, Option.bind_some]
  rw [word_append h.foundation (.inr ⟨_, rfl⟩), Option.bind_some, unsigned_space,
    number_append hid, Option.bind_some, word_space, word_append h.transport (.inr ⟨_, rfl⟩),
    Option.bind_some, unsigned_space, number_append c.priority.toNat_lt, Option.bind_some,
    word_space, word_append h.host (.inr ⟨_, rfl⟩), Option.bind_some, unsigned_space,
    number_append c.port.toNat_lt, Option.bind_some, word_space,
    word_append htyp (.inr ⟨_, rfl⟩), Option.bind_some, word_space,
    word_append (isWord_type c.type) (relatedText_cases c), Option.bind_some, typeOf_text,
    Option.bind_some, UInt8.ofNat_toNat, UInt32.ofNat_toNat, UInt16.ofNat_toNat]
  rfl

theorem readRelated_relatedText {c : Candidate} (h : c.WellFormed) :
    readRelated { c with relatedAddress := [], relatedPort := 0 } { rest := c.relatedText } [] = c := by
  unfold Candidate.relatedText
  split_ifs with hnone
  · rcases h.related with ⟨haddress, hport⟩ | hword
    · rw [readRelated, readWord_of_none rfl, ← haddress, ← hport]
      rfl
    · exact absurd hnone hword.1
  · rcases h.related with ⟨haddress, -⟩ | hword
    · exact absurd haddress hnone
    have hraddr : IsWord "raddr".toList := isWord_of_all (by decide) (by decide)
    have hrport : IsWord "rport".toList := isWord_of_all (by decide) (by decide)
    have hnumber : InputStream.unsigned 16 (Nat.toDigits 10 c.relatedPort.toNat ++ [])
        = some (c.relatedPort.toNat, []) :=
      unsigned_append c.relatedPort.toNat_lt fun c tail heq => by cases heq
    rw [readRelated, readWord_of_some (word_space.trans (word_append hraddr (.inr ⟨_, rfl⟩)))]
    simp only [Bool.not_false, Bool.true_and, decide_true, if_true]
    rw [readWord_of_some (word_space.trans (word_append hword (.inr ⟨_, rfl⟩)))]
    simp only
    rw [readWord_of_some (word_space.trans (word_append hrport (.inr ⟨_, rfl⟩)))]
    simp only
    rw [number, readUnsigned_of_some (unsigned_space.trans hnumber)]
    simp only [UInt16.ofNat_toNat]

/-- A candidate is read back from its own line. -/
theorem parseCandidate_toSdp {c : Candidate} (h : c.WellFormed) :
    parseCandidate c.toSdp = some c := by
  rw [parseCandidate_eq, fieldsIn_toSdp h, Option.map_some, readRelated_relatedText h]

/-! ### The numbers of a line -/

/-- The related port for a number, which is the largest port if the number does not fit. -/
def portOf : Option ℤ → UInt16
  | none => 0
  | some n => if 2 ^ 16 ≤ n.natAbs then 65535 else UInt16.ofNat (n % 2 ^ 16).toNat

theorem readRelated_spec {c : Candidate} {s : Text} (haddress : c.relatedAddress = [])
    (hport : c.relatedPort = 0) :
    ∃ relatedAddress, readRelated c { rest := s } []
        = { c with relatedAddress, relatedPort := portOf (relatedPortIn s) }
      ∧ (relatedAddress = [] ∧ portOf (relatedPortIn s) = 0 ∨ IsWord relatedAddress) := by
  have hsame : c = { c with relatedAddress := [], relatedPort := portOf none } := by
    rw [← haddress, portOf, ← hport]
  unfold readRelated relatedPortIn
  simp only [Option.bind_eq_bind]
  rcases hword : word s with _ | ⟨t, s1⟩
  · rw [readWord_of_none hword]
    exact ⟨[], hsame, .inl ⟨rfl, rfl⟩⟩
  rw [readWord_of_some hword]
  simp only [Bool.not_false, Bool.true_and, Option.bind_some, decide_eq_true_eq]
  by_cases ht : t = "raddr".toList
  swap
  · rw [if_neg ht, if_neg ht]
    exact ⟨[], hsame, .inl ⟨rfl, rfl⟩⟩
  rw [if_pos ht, if_pos ht]
  rcases haddr : word s1 with _ | ⟨address, s2⟩
  · simp only [readWord_of_none haddr, readWord_failed, readUnsigned_failed, haddress, hport]
    exact ⟨[], rfl, .inl ⟨rfl, rfl⟩⟩
  simp only [readWord_of_some haddr, Option.bind_some]
  rcases hrport : word s2 with _ | ⟨rport, s3⟩
  · simp only [readWord_of_none hrport, readUnsigned_failed, hport]
    exact ⟨address, rfl, .inr (isWord_of_word haddr)⟩
  simp only [readWord_of_some hrport, Option.bind_some]
  refine ⟨address, ?_, .inr (isWord_of_word haddr)⟩
  rw [hport, UInt16.toNat_zero, readUnsigned_zero]
  rcases integer s3 with _ | ⟨m, s4⟩
  · rfl
  · simp only [Option.bind_some, Option.pure_def, portOf]
    split_ifs <;> rfl

/-- What the numbers of an accepted line are. -/
structure Reads (c : Candidate) (n : Numbers) (s : Text) : Prop where
  foundation : IsWord c.foundation
  transport : IsWord c.transport
  host : IsWord c.host
  relatedAddress : c.relatedAddress = []
  relatedPort : c.relatedPort = 0
  componentId : c.componentId = UInt8.ofNat (n.componentId % 2 ^ 32).toNat
  priority : c.priority = UInt32.ofNat (n.priority % 2 ^ 32).toNat
  port : c.port = UInt16.ofNat (n.port % 2 ^ 16).toNat
  relatedIn : n.relatedPort = relatedPortIn s

theorem fieldsIn_spec {sdp s : Text} {c : Candidate} (h : fieldsIn sdp = some (c, s)) :
    ∃ n, numbersIn sdp = some n ∧ Reads c n s := by
  unfold fieldsIn at h
  simp only [Option.bind_eq_bind, Option.bind_eq_some_iff] at h
  obtain ⟨s0, hprefix, ⟨foundation, s1⟩, hfoundation, ⟨id, s2⟩, hid, ⟨transport, s3⟩, htransport,
    ⟨priority, s4⟩, hpriority, ⟨host, s5⟩, hhost, ⟨port, s6⟩, hport, ⟨typ, s7⟩, htyp,
    ⟨typeStr, s8⟩, htypeStr, type, -, heq⟩ := h
  obtain ⟨rfl, rfl⟩ := Prod.mk.inj (Option.some.inj heq)
  obtain ⟨m, hm, -, rfl⟩ := of_unsigned hid
  obtain ⟨p, hp, -, rfl⟩ := of_unsigned hpriority
  obtain ⟨q, hq, -, rfl⟩ := of_unsigned hport
  refine ⟨⟨m, p, q, relatedPortIn s8⟩, ?_, isWord_of_word hfoundation, isWord_of_word htransport,
    isWord_of_word hhost, rfl, rfl, rfl, rfl, rfl, rfl⟩
  simp only [numbersIn, Option.bind_eq_bind, Option.bind_some, hprefix, hfoundation, hm, htransport,
    hp, hhost, hq, htyp, htypeStr]
  rfl

theorem narrowed_eq_iff (m : ℤ) :
    ((UInt8.ofNat (m % 2 ^ 32).toNat).toNat : ℤ) = m ↔ 0 ≤ m ∧ m < 2 ^ 8 := by
  rw [UInt8.toNat_ofNat']
  omega

theorem stored32_eq_iff (m : ℤ) :
    ((UInt32.ofNat (m % 2 ^ 32).toNat).toNat : ℤ) = m ↔ 0 ≤ m ∧ m < 2 ^ 32 := by
  rw [UInt32.toNat_ofNat']
  omega

theorem stored16_eq_iff (m : ℤ) :
    ((UInt16.ofNat (m % 2 ^ 16).toNat).toNat : ℤ) = m ↔ 0 ≤ m ∧ m < 2 ^ 16 := by
  rw [UInt16.toNat_ofNat']
  omega

/-- The related port is not looked at once it is read. -/
theorem portOf_eq_iff (n : Option ℤ) :
    ((portOf n).toNat : ℤ) = n.getD 0 ↔ ∀ p, n = some p → 0 ≤ p ∧ p < 2 ^ 16 := by
  rcases n with _ | m
  · exact iff_of_true rfl fun p hp => by cases hp
  have hall : (∀ p, some m = some p → 0 ≤ p ∧ p < 2 ^ 16) ↔ 0 ≤ m ∧ m < 2 ^ 16 := by
    simp only [Option.some.injEq, forall_eq']
  rw [hall, Option.getD_some, portOf]
  split_ifs with hlarge
  · have hmax : ((65535 : UInt16).toNat : ℤ) = 65535 := rfl
    rw [hmax]
    omega
  · exact stored16_eq_iff m

theorem exact_iff {c : Candidate} {n : Numbers} {s relatedAddress : Text} (h : Reads c n s) :
    ({ c with relatedAddress, relatedPort := portOf (relatedPortIn s) } : Candidate).Exact n
      ↔ n.Fit := by
  have hid := narrowed_eq_iff n.componentId
  have hpriority := stored32_eq_iff n.priority
  have hport := stored16_eq_iff n.port
  have hrelated := portOf_eq_iff n.relatedPort
  rw [← h.componentId] at hid
  rw [← h.priority] at hpriority
  rw [← h.port] at hport
  rw [h.relatedIn] at hrelated
  constructor
  · rintro ⟨he, he', he'', hrel⟩
    rw [h.relatedIn] at hrel
    refine ⟨hid.1 he, hpriority.1 he', hport.1 he'', ?_⟩
    rw [h.relatedIn]
    exact hrelated.1 hrel
  · rintro ⟨he, he', he'', hrel⟩
    rw [h.relatedIn] at hrel
    refine ⟨hid.2 he, hpriority.2 he', hport.2 he'', ?_⟩
    rw [h.relatedIn]
    exact hrelated.2 hrel

theorem wellFormed_of_reads {c : Candidate} {n : Numbers} {s relatedAddress : Text} {port : UInt16}
    (h : Reads c n s) (hrelated : relatedAddress = [] ∧ port = 0 ∨ IsWord relatedAddress) :
    ({ c with relatedAddress, relatedPort := port } : Candidate).WellFormed :=
  ⟨h.foundation, h.transport, h.host, hrelated⟩

theorem readRight_iff (sdp : Text) : ReadRight sdp ↔ Sized sdp := by
  unfold ReadRight Sized
  rw [parseCandidate_eq]
  rcases hfields : fieldsIn sdp with _ | ⟨c, s⟩
  · exact iff_of_true (fun c hc => by cases hc) fun hsome => by cases hsome
  obtain ⟨n, hn, hreads⟩ := fieldsIn_spec hfields
  obtain ⟨relatedAddress, heq, hrelated⟩ :=
    readRelated_spec (s := s) hreads.relatedAddress hreads.relatedPort
  have hback := parseCandidate_toSdp (wellFormed_of_reads hreads hrelated)
  rw [Option.map_some, heq]
  constructor
  · intro hright _ n' hn'
    obtain ⟨⟨n'', hn'', hexact⟩, -⟩ := hright _ rfl
    obtain rfl := Option.some.inj (hn''.symm.trans hn')
    obtain rfl := Option.some.inj (hn.symm.trans hn')
    exact (exact_iff hreads).1 hexact
  · intro hsized c' hc'
    obtain rfl := Option.some.inj hc'
    exact ⟨⟨n, hn, (exact_iff hreads).2 (hsized rfl n hn)⟩, hback⟩

/-- A candidate is read back from its line, and an accepted line gives the candidate that it says
exactly when its numbers have the size of their fields. -/
theorem candidate_text_iff (c : Candidate) (sdp : List Char) :
    (c.WellFormed → parseCandidate c.toSdp = some c) ∧ (ReadRight sdp ↔ Sized sdp) :=
  ⟨fun h => parseCandidate_toSdp h, readRight_iff sdp⟩

theorem candidate_text_iff_host :
    parseCandidate (Candidate.toSdp { foundation := ['1'], transport := "udp".toList, host := ['h'] })
      = some { foundation := ['1'], transport := "udp".toList, host := ['h'] } :=
  (candidate_text_iff _ []).1 ⟨isWord_of_all (by decide) (by decide),
    isWord_of_all (by decide) (by decide), isWord_of_all (by decide) (by decide), .inl ⟨rfl, rfl⟩⟩

/-- A component of more than a byte is read as another. -/
theorem component_narrowed : ¬ ∀ sdp, ReadRight sdp := by
  intro hall
  have hparse : parseCandidate "candidate:1 257 udp 1 h 2 typ host".toList
      = some { foundation := ['1'], componentId := 1, transport := "udp".toList, priority := 1,
               host := ['h'], port := 2 } := by
    decide +kernel
  have hnumbers : numbersIn "candidate:1 257 udp 1 h 2 typ host".toList
      = some ⟨257, 1, 2, none⟩ := by
    decide +kernel
  obtain ⟨⟨n, hn, hexact⟩, -⟩ := hall _ _ hparse
  obtain rfl := Option.some.inj (hnumbers.symm.trans hn)
  exact absurd hexact.componentId (by decide)

end Ice

end NimRtc
