import NimRtc.RtpPacket
import NimRtc.Proofs.H264Units

/-!
# The two readings of a header extension

Both readers take an id from a byte of the block, at indices of their own. So an id that both or
neither can take is one on which they agree: in the one-byte form the id of the first element, in
the two-byte form no id at all.
-/

namespace NimRtc.Rtp

/-! ### Finding an element -/

theorem findOneByte_ok {block : List UInt8} {id : UInt16} : ∀ (fuel off : ℕ) (reads : List ℕ),
    (findOneByte block id fuel off reads).result.isOk →
      id ≠ 0 ∧ ∃ j, off ≤ j ∧ ∃ h : j < block.length, (block[j] >>> 4).toUInt16 = id
  | 0, _, _, h => by simp [findOneByte, Except.isOk, Except.toBool] at h
  | fuel + 1, off, reads, h => by
    simp only [findOneByte] at h
    split at h
    · rename_i hoff
      split at h
      · simp [Except.isOk, Except.toBool] at h
      · split at h
        · rename_i hid
          rw [List.getD_eq_getElem _ _ hoff] at hid
          exact ⟨hid.2, off, le_refl _, hoff, hid.1⟩
        · obtain ⟨hne, j, hj, hlt, hid⟩ := findOneByte_ok fuel _ _ h
          exact ⟨hne, j, by omega, hlt, hid⟩
    · simp [Except.isOk, Except.toBool] at h

theorem findTwoByte_ok {block : List UInt8} {id : UInt16} : ∀ (fuel off : ℕ) (reads : List ℕ),
    (findTwoByte block id fuel off reads).result.isOk → ∃ b ∈ block, b.toUInt16 = id
  | 0, _, _, h => by simp [findTwoByte, Except.isOk, Except.toBool] at h
  | fuel + 1, off, reads, h => by
    simp only [findTwoByte] at h
    split at h
    · rename_i hoff
      split at h
      · simp [Except.isOk, Except.toBool] at h
      · split at h
        · rename_i hid
          rw [List.getD_eq_getElem _ _ (by omega)] at hid
          exact ⟨_, List.getElem_mem _, hid.1⟩
        · exact findTwoByte_ok fuel _ _ h
    · simp [Except.isOk, Except.toBool] at h

theorem findOneByte_reads {block : List UInt8} {id : UInt16} : ∀ (fuel off : ℕ) (reads : List ℕ),
    (∀ i ∈ reads, i < block.length) →
      ∀ i ∈ (findOneByte block id fuel off reads).reads, i < block.length
  | 0, _, _, h => h
  | fuel + 1, off, reads, h => by
    simp only [findOneByte]
    split
    · rename_i hoff
      have hnext : ∀ i ∈ reads ++ [off], i < block.length := by
        intro i hi
        rcases List.mem_append.1 hi with hi | hi
        · exact h i hi
        · exact List.mem_singleton.1 hi ▸ hoff
      split
      · exact hnext
      · split
        · exact hnext
        · exact findOneByte_reads fuel _ _ hnext
    · exact h

theorem findTwoByte_reads {block : List UInt8} {id : UInt16} : ∀ (fuel off : ℕ) (reads : List ℕ),
    (∀ i ∈ reads, i < block.length) →
      ∀ i ∈ (findTwoByte block id fuel off reads).reads, i < block.length
  | 0, _, _, h => h
  | fuel + 1, off, reads, h => by
    simp only [findTwoByte]
    split
    · rename_i hoff
      have hnext : ∀ i ∈ reads ++ [off, off + 1], i < block.length := by
        intro i hi
        simp only [List.mem_append, List.mem_cons, List.not_mem_nil, or_false] at hi
        rcases hi with hi | rfl | rfl
        · exact h i hi
        · omega
        · exact hoff
      split
      · exact hnext
      · split
        · exact hnext
        · exact findTwoByte_reads fuel _ _ hnext
    · exact h

theorem locateExtensionElement_reads (block : List UInt8) (profile id : UInt16) :
    ∀ i ∈ (locateExtensionElement block profile id).reads, i < block.length := by
  simp only [locateExtensionElement]
  split
  · simp
  · split
    · exact findOneByte_reads _ _ _ (by simp)
    · split
      · exact findTwoByte_reads _ _ _ (by simp)
      · simp

/-! ### Walking -/

namespace Parser

variable {p : Parser} {block : List UInt8}

instance (ext : Extension) : Decidable (p.Unmistakable ext) :=
  inferInstanceAs (Decidable (ite _ _ _))

theorem setUri_isSome {w : Walk} {id id' : UInt16} :
    ((p.setUri w id).uris id').isSome
      ↔ (w.uris id').isSome ∨ (id' = id ∧ (p.declaredExtensionUri id).isSome) := by
  rw [setUri]
  split
  · rename_i uri huri
    by_cases hid : id' = id
    · subst hid
      simp [huri]
    · simp [hid]
  · rename_i huri
    simp [huri]

theorem setUri_reads (w : Walk) (id : UInt16) : (p.setUri w id).reads = w.reads := by
  rw [setUri]
  split <;> rfl

theorem nibble_and (b : UInt8) : (b >>> 4) &&& (0x0F : UInt8) = b >>> (4 : UInt8) := by
  revert b
  exact forall_uint8 (by decide)

theorem walkOneByteFrom_isSome {id : UInt16} : ∀ (fuel i : ℕ) (w : Walk),
    ((p.walkOneByteFrom block fuel i w).uris id).isSome →
      (w.uris id).isSome ∨ ((p.declaredExtensionUri id).isSome
        ∧ ∃ j, i ≤ j ∧ ∃ h : j < block.length, (block[j] >>> 4).toUInt16 = id)
  | 0, _, _, h => .inl h
  | fuel + 1, i, w, h => by
    simp only [walkOneByteFrom] at h
    split at h
    · exact .inl h
    · rename_i hi
      split at h
      · exact .inl h
      · split at h
        · exact .inl h
        · split at h
          · exact .inl h
          · rcases walkOneByteFrom_isSome fuel _ _ h with h | ⟨hdecl, j, hj, hlt, hid⟩
            · rcases setUri_isSome.1 h with h | ⟨rfl, hdecl⟩
              · exact .inl h
              · refine .inr ⟨hdecl, i, le_refl _, by omega, ?_⟩
                rw [nibble_and, List.getD_eq_getElem _ _ (by omega)]
            · exact .inr ⟨hdecl, j, by omega, hlt, hid⟩

theorem isSome_walkOneByteFrom {id : UInt16} : ∀ (fuel i : ℕ) (w : Walk), (w.uris id).isSome →
    ((p.walkOneByteFrom block fuel i w).uris id).isSome
  | 0, _, _, h => h
  | fuel + 1, i, w, h => by
    simp only [walkOneByteFrom]
    split
    · exact h
    · split
      · exact h
      · split
        · exact h
        · split
          · exact h
          · exact isSome_walkOneByteFrom fuel _ _ (setUri_isSome.2 (.inl h))

theorem walkOneByteFrom_reads : ∀ (fuel i : ℕ) (w : Walk), (∀ j ∈ w.reads, j < block.length) →
    ∀ j ∈ (p.walkOneByteFrom block fuel i w).reads, j < block.length
  | 0, _, _, h => h
  | fuel + 1, i, w, h => by
    simp only [walkOneByteFrom]
    split
    · exact h
    · rename_i hi
      have hnext : ∀ j ∈ w.reads ++ [i], j < block.length := by
        intro j hj
        rcases List.mem_append.1 hj with hj | hj
        · exact h j hj
        · have hji := List.mem_singleton.1 hj
          omega
      split
      · exact hnext
      · split
        · exact hnext
        · split
          · exact hnext
          · refine walkOneByteFrom_reads fuel _ _ ?_
            rw [setUri_reads]
            exact hnext

theorem walkTwoByteFrom_isSome {past : UInt8} {id : UInt16} : ∀ (fuel i : ℕ) (w : Walk),
    ((p.walkTwoByteFrom past block fuel i w).uris id).isSome →
      (w.uris id).isSome ∨ ((p.declaredExtensionUri id).isSome ∧ ∃ b ∈ block, b.toUInt16 = id)
  | 0, _, _, h => .inl h
  | fuel + 1, i, w, h => by
    simp only [walkTwoByteFrom] at h
    split at h
    · exact .inl h
    · rename_i hi
      split at h
      · exact .inl h
      · split at h
        · exact .inl h
        · rcases walkTwoByteFrom_isSome fuel _ _ h with h | hlater
          · rcases setUri_isSome.1 h with h | ⟨rfl, hdecl⟩
            · exact .inl h
            · refine .inr ⟨hdecl, _, ?_, rfl⟩
              rw [List.getD_eq_getElem _ _ (by omega)]
              exact List.getElem_mem _
          · exact .inr hlater

/-- The walk ends at a last byte of zero, before it reads the one after it. -/
theorem walkTwoByteFrom_reads {past : UInt8} (hlast : block.getLastD 0 = 0) :
    ∀ (fuel i : ℕ) (w : Walk), (∀ j ∈ w.reads, j < block.length) →
      ∀ j ∈ (p.walkTwoByteFrom past block fuel i w).reads, j < block.length
  | 0, _, _, h => h
  | fuel + 1, i, w, h => by
    simp only [walkTwoByteFrom]
    split
    · exact h
    · rename_i hi
      have hnext : ∀ j ∈ w.reads ++ [i + 1], j < block.length := by
        intro j hj
        rcases List.mem_append.1 hj with hj | hj
        · exact h j hj
        · have hji := List.mem_singleton.1 hj
          omega
      split
      · exact hnext
      · rename_i hid
        have hroom : i + 2 < block.length := by
          by_contra hend
          have hlen : i + 1 = block.length - 1 := by omega
          have hne : block ≠ [] := by
            rintro rfl
            simp at hi
          refine hid ?_
          rw [hlen, List.getD_eq_getElem _ _ (by omega), ← List.getLast_eq_getElem hne,
            ← hlast, List.getLastD_eq_getLast?, List.getLast?_eq_some_getLast hne]
          rfl
        have hnext' : ∀ j ∈ (w.reads ++ [i + 1]) ++ [i + 2], j < block.length := by
          intro j hj
          rcases List.mem_append.1 hj with hj | hj
          · exact hnext j hj
          · exact List.mem_singleton.1 hj ▸ hroom
        split
        · exact hnext'
        · refine walkTwoByteFrom_reads hlast fuel _ _ ?_
          rw [setUri_reads]
          exact hnext'

/-! ### Agreement -/

/-- The id of the first element is taken by both readers, if it is declared. -/
theorem first_element {hdr : UInt8} {data : List UInt8} (rest : List UInt8)
    (hlow : (1 : UInt8) ≤ hdr >>> 4)
    (hhigh : hdr >>> 4 ≤ (14 : UInt8)) (hlen : data.length = (hdr &&& 0x0F).toNat + 1) :
    (((p.walkOneByte (hdr :: (data ++ rest))).uris (hdr >>> 4).toUInt16).isSome
        ↔ (p.declaredExtensionUri (hdr >>> 4).toUInt16).isSome)
      ∧ (findExtensionElement (hdr :: (data ++ rest)) kExtProfileOneByte
          (hdr >>> 4).toUInt16).isOk := by
  have hne : hdr ≠ 0 := by
    rintro rfl
    simp at hlow
  have hid : (hdr >>> 4).toUInt16 ≠ 0 := by
    intro h
    have hzero : hdr >>> 4 = 0 := by simpa [← UInt16.toNat_inj, ← UInt8.toNat_inj] using h
    rw [hzero] at hlow
    simp at hlow
  have hinside : ¬ (hdr >>> 4 < 1 ∨ (14 : UInt8) < hdr >>> 4) := by
    rw [not_or, UInt8.not_lt, UInt8.not_lt]
    exact ⟨hlow, hhigh⟩
  constructor
  · constructor
    · intro h
      rcases walkOneByteFrom_isSome _ _ _ h with h | ⟨hdecl, -⟩
      · simp at h
      · exact hdecl
    · intro hdecl
      rw [walkOneByte, List.length_cons, walkOneByteFrom]
      simp only [List.getD_cons_zero, nibble_and, if_neg hne, if_neg hinside]
      rw [if_neg (by simp), if_neg (by simp only [List.length_cons, List.length_append]; omega)]
      exact isSome_walkOneByteFrom _ _ _ (setUri_isSome.2 (.inr ⟨rfl, hdecl⟩))
  · rw [findExtensionElement, locateExtensionElement, if_neg (by simp), if_pos rfl,
      List.length_cons, findOneByte]
    simp only [List.getD_cons_zero]
    rw [if_pos (by simp), if_neg (by simp only [List.length_cons, List.length_append]; omega),
      if_pos ⟨trivial, hid⟩]
    rfl

/-- A byte from the last one of the first element on has the id. -/
def LaterId (first : UInt8) (tail : List UInt8) (id : UInt16) : Prop :=
  ∃ b ∈ (first :: tail).drop (1 + (first &&& 0x0F).toNat), (b >>> 4).toUInt16 = id

theorem laterId_of_index {first : UInt8} {tail : List UInt8} {id : UInt16} {j : ℕ}
    (hj : 1 + (first &&& 0x0F).toNat ≤ j) (hlt : j < (first :: tail).length)
    (hid : ((first :: tail)[j] >>> 4).toUInt16 = id) : LaterId first tail id := by
  refine ⟨_, ?_, hid⟩
  rw [List.mem_iff_getElem]
  refine ⟨j - (1 + (first &&& 0x0F).toNat), by rw [List.length_drop]; omega, ?_⟩
  rw [List.getElem_drop]
  congr 1
  omega

theorem walkOneByte_later {first : UInt8} {tail : List UInt8} {id : UInt16}
    (hid : id ≠ (first >>> 4).toUInt16)
    (h : ((p.walkOneByte (first :: tail)).uris id).isSome) : LaterId first tail id := by
  rw [walkOneByte, List.length_cons, walkOneByteFrom] at h
  simp only [List.getD_cons_zero, nibble_and] at h
  split at h
  · simp at h
  · split at h
    · simp at h
    · split at h
      · simp at h
      · split at h
        · simp at h
        · rcases walkOneByteFrom_isSome _ _ _ h with h | ⟨-, j, hj, hlt, hnib⟩
          · rcases setUri_isSome.1 h with h | ⟨rfl, -⟩
            · simp at h
            · exact absurd rfl hid
          · exact laterId_of_index (by omega) hlt hnib

theorem findOneByte_later {first : UInt8} {tail : List UInt8} {id : UInt16}
    (hid : id ≠ (first >>> 4).toUInt16)
    (h : (findExtensionElement (first :: tail) kExtProfileOneByte id).isOk) :
    LaterId first tail id := by
  rw [findExtensionElement, locateExtensionElement, if_neg (by simp), if_pos rfl, List.length_cons,
    findOneByte] at h
  simp only [List.getD_cons_zero] at h
  split at h
  · split at h
    · simp [Except.isOk, Except.toBool] at h
    · split at h
      · rename_i hfirst
        exact absurd hfirst.1.symm hid
      · obtain ⟨-, j, hj, hlt, hnib⟩ := findOneByte_ok _ _ _ h
        exact laterId_of_index (by omega) hlt hnib
  · simp [Except.isOk, Except.toBool] at h

/-- An id that is not the one of the first byte is taken by neither reader. -/
theorem other_element (first : UInt8) (tail : List UInt8) {id : UInt16}
    (hapart : ∀ b ∈ (first :: tail).drop (1 + (first &&& 0x0F).toNat),
      (p.declaredExtensionUri (b >>> 4).toUInt16).isSome → b >>> 4 = first >>> (4 : UInt8))
    (hid : id ≠ (first >>> 4).toUInt16) (hdecl : (p.declaredExtensionUri id).isSome) :
    ((p.walkOneByte (first :: tail)).uris id).isSome = false
      ∧ (findExtensionElement (first :: tail) kExtProfileOneByte id).isOk = false := by
  have hnone : ¬ LaterId first tail id := by
    rintro ⟨b, hb, rfl⟩
    exact hid (congrArg UInt8.toUInt16 (hapart b hb hdecl))
  rw [Bool.eq_false_iff, Bool.eq_false_iff]
  exact ⟨fun h => hnone (walkOneByte_later hid h), fun h => hnone (findOneByte_later hid h)⟩

theorem agree_oneByte {block : List UInt8} (hwf : OneByteBlock block)
    (hapart : ∀ b ∈ block.drop (1 + (block.headD 0 &&& 0x0F).toNat),
      (p.declaredExtensionUri (b >>> 4).toUInt16).isSome → b >>> 4 = block.headD 0 >>> (4 : UInt8))
    (id : UInt16) :
    ((p.walkOneByte block).uris id).isSome
      ↔ (p.declaredExtensionUri id).isSome
        ∧ (findExtensionElement block kExtProfileOneByte id).isOk := by
  have hdeclared : ((p.walkOneByte block).uris id).isSome → (p.declaredExtensionUri id).isSome := by
    intro h
    rcases walkOneByteFrom_isSome _ _ _ h with h | ⟨hdecl, -⟩
    · simp at h
    · exact hdecl
  by_cases hdecl : (p.declaredExtensionUri id).isSome = true
  · simp only [hdecl, true_and]
    cases hwf with
    | nil => simp [walkOneByte, walkOneByteFrom, findExtensionElement, locateExtensionElement,
        Except.isOk, Except.toBool]
    | @padding rest _ =>
      by_cases hid : id = 0
      · subst hid
        have hstop : p.walkOneByte (0 :: rest) = { reads := [0] } := by
          simp [walkOneByte, walkOneByteFrom]
        rw [hstop, findExtensionElement, locateExtensionElement, if_neg (by simp), if_pos rfl]
        constructor
        · intro h
          simp at h
        · intro h
          exact absurd rfl (findOneByte_ok _ _ _ h).1
      · obtain ⟨hwalk, hfind⟩ := other_element 0 rest hapart hid hdecl
        rw [hwalk, hfind]
    | @element hdr data rest hlow hhigh hlen _ =>
      by_cases hid : id = (hdr >>> 4).toUInt16
      · subst hid
        obtain ⟨hwalk, hfind⟩ := first_element (p := p) rest hlow hhigh hlen
        rw [hwalk, hfind]
        simpa using hdecl
      · obtain ⟨hwalk, hfind⟩ := other_element hdr (data ++ rest) hapart hid hdecl
        rw [hwalk, hfind]
  · constructor
    · intro h
      exact absurd (hdeclared h) hdecl
    · intro h
      exact absurd h.1 hdecl

theorem agree_twoByte {past : UInt8} {block : List UInt8}
    (hapart : ∀ b ∈ block, p.declaredExtensionUri b.toUInt16 = none) (id : UInt16) :
    ((p.walkTwoByte past block).uris id).isSome
      ↔ (p.declaredExtensionUri id).isSome
        ∧ (findExtensionElement block kExtProfileTwoByte id).isOk := by
  have hno : (p.declaredExtensionUri id).isSome → ¬ ∃ b ∈ block, b.toUInt16 = id := by
    rintro hdecl ⟨b, hb, rfl⟩
    rw [hapart b hb] at hdecl
    simp at hdecl
  constructor
  · intro h
    rcases walkTwoByteFrom_isSome _ _ _ h with h | ⟨hdecl, hb⟩
    · simp at h
    · exact absurd hb (hno hdecl)
  · rintro ⟨hdecl, hfind⟩
    refine absurd ?_ (hno hdecl)
    rw [findExtensionElement, locateExtensionElement] at hfind
    split at hfind
    · simp [Except.isOk, Except.toBool] at hfind
    · rw [if_neg (by decide), if_pos rfl] at hfind
      exact findTwoByte_ok _ _ _ hfind

theorem walk_agrees {past : UInt8} {ext : Extension} (hapart : p.Unmistakable ext)
    (hwf : ext.WellFormed) (id : UInt16) :
    ((p.walk past ext).uris id).isSome
      ↔ (p.declaredExtensionUri id).isSome ∧ (findExtensionElement ext.data ext.type id).isOk := by
  rw [walk]
  split
  · rename_i hempty
    simp [declaredExtensionUri, hempty]
  · rcases hwf with ⟨htype, hwf⟩ | ⟨htype, -⟩
    · rw [Unmistakable, if_pos htype] at hapart
      rw [if_pos htype, htype]
      exact agree_oneByte hwf hapart id
    · have hne : ext.type ≠ kExtProfileOneByte := by
        rw [htype]
        decide
      rw [Unmistakable, if_neg hne] at hapart
      rw [if_neg hne, if_pos htype, htype]
      exact agree_twoByte hapart.1 id

theorem walk_reads {past : UInt8} {ext : Extension} (hapart : p.Unmistakable ext) :
    ∀ i ∈ (p.walk past ext).reads, i < ext.data.length := by
  rw [walk]
  split
  · simp
  · split
    · exact walkOneByteFrom_reads _ _ _ (by simp)
    · rename_i hne
      rw [Unmistakable, if_neg hne] at hapart
      split
      · exact walkTwoByteFrom_reads hapart.2 _ _ _ (by simp)
      · simp

/-! ### Parsed packets -/

/-- The URIs of a parsed packet are the ones of the walk over its extension. -/
theorem parse_extmapUri {past : UInt8} {raw : List UInt8} {pv : PacketView} {ext : Extension}
    (hparse : p.parse past raw = .ok pv) (hext : pv.extension = some ext) :
    ∃ past', pv.extmapUri = (p.walk past' ext).uris := by
  simp only [parse] at hparse
  split at hparse
  · simp at hparse
  · split at hparse
    · simp at hparse
    · split at hparse
      · simp at hparse
      · simp only [bind, Except.bind] at hparse
        split at hparse
        · simp at hparse
        · split at hparse
          · simp at hparse
          · simp only [pure, Except.pure, Except.ok.injEq] at hparse
            subst hparse
            simp only at hext
            rw [hext]
            exact ⟨_, rfl⟩

/-- The URIs of a packet are those of the declared elements that are found, if its block is well
formed, and the readers stay inside the block whatever it holds. -/
def WalkersAgree (p : Parser) (pv : PacketView) (ext : Extension) : Prop :=
  (ext.WellFormed → ∀ id, (pv.extmapUri id).isSome
      ↔ (p.declaredExtensionUri id).isSome ∧ (findExtensionElement ext.data ext.type id).isOk)
    ∧ (∀ past, ∀ i ∈ (p.walk past ext).reads, i < ext.data.length)
    ∧ ∀ id, ∀ i ∈ (locateExtensionElement ext.data ext.type id).reads, i < ext.data.length

theorem walkersAgree_of_unmistakable {past : UInt8} {raw : List UInt8} {pv : PacketView}
    {ext : Extension} (hparse : p.parse past raw = .ok pv) (hext : pv.extension = some ext)
    (hapart : p.Unmistakable ext) : p.WalkersAgree pv ext := by
  obtain ⟨past', huris⟩ := parse_extmapUri hparse hext
  refine ⟨fun hwf id => ?_, fun past => walk_reads hapart,
    locateExtensionElement_reads ext.data ext.type⟩
  rw [huris]
  exact walk_agrees hapart hwf id

/-- A packet without payload around an extension block of one word. -/
def extendedPacket (type : UInt16) (block : List UInt8) : List UInt8 :=
  [0x90, 96, 0, 1, 0, 0, 0, 1, 0, 0, 0, 2] ++ beBytes 2 type.toNat ++ [0, 1] ++ block

def midParser : Parser := { extensionUris := [(1, "urn:abs-send-time"), (2, "urn:mid")] }

/-- One element of three bytes, the last of which does not begin as a declared element would. -/
theorem walkersAgree_single :
    ∃ pv ext, midParser.parse 0 (extendedPacket kExtProfileOneByte [0x12, 0x25, 6, 7]) = .ok pv
      ∧ pv.extension = some ext ∧ ext.WellFormed ∧ pv.extmapUri 1 = some "urn:abs-send-time"
      ∧ midParser.WalkersAgree pv ext := by
  have hparse : ∃ pv, midParser.parse 0 (extendedPacket kExtProfileOneByte [0x12, 0x25, 6, 7]) = .ok pv
      ∧ pv.extension = some ⟨kExtProfileOneByte, [0x12, 0x25, 6, 7]⟩
      ∧ pv.extmapUri 1 = some "urn:abs-send-time" := ⟨_, rfl, by decide, by decide⟩
  obtain ⟨pv, hpv, hext, huri⟩ := hparse
  refine ⟨pv, _, hpv, hext, .inl ⟨rfl, ?_⟩, huri,
    walkersAgree_of_unmistakable hpv hext (by decide +kernel)⟩
  exact @OneByteBlock.element 0x12 [0x25, 6, 7] [] (by decide) (by decide) rfl OneByteBlock.nil

/-- The second of two elements is missed, since the data of the first one is taken for the end. -/
theorem second_element_missed :
    ¬ ∀ (p : Parser) (past : UInt8) (raw : List UInt8) (pv : PacketView) (ext : Extension),
      p.parse past raw = .ok pv → pv.extension = some ext →
        ext.type = kExtProfileOneByte ∨ ext.type = kExtProfileTwoByte → p.extensionUris ≠ [] →
        p.WalkersAgree pv ext := by
  intro h
  have hparse : ∃ pv, midParser.parse 0 (extendedPacket kExtProfileOneByte [0x10, 0, 0x20, 5]) = .ok pv
      ∧ pv.extension = some ⟨kExtProfileOneByte, [0x10, 0, 0x20, 5]⟩
      ∧ (pv.extmapUri 2).isSome = false := ⟨_, rfl, by decide, by decide⟩
  obtain ⟨pv, hpv, hext, huri⟩ := hparse
  have hwf : Extension.WellFormed ⟨kExtProfileOneByte, [0x10, 0, 0x20, 5]⟩ := by
    have hsecond : OneByteBlock [0x20, 5] :=
      @OneByteBlock.element 0x20 [5] [] (by decide) (by decide) rfl OneByteBlock.nil
    exact .inl ⟨rfl, @OneByteBlock.element 0x10 [0] _ (by decide) (by decide) rfl hsecond⟩
  have hagree := (h midParser 0 _ pv _ hpv hext (.inl rfl) (by decide)).1 hwf 2
  rw [huri] at hagree
  have hfound := hagree.2 ⟨by decide, by decide⟩
  simp at hfound

end Parser

end NimRtc.Rtp
