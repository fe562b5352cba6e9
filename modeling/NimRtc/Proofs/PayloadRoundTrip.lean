import NimRtc.VideoPayload
import NimRtc.Proofs.H264Units

/-!
# Payloads read back

The builders of the three codecs write to a buffer of the caller, and the parsers read what they
wrote. A VP8 payload that ends with a 16-bit picture ID is the exception: the parser asks for one
byte more than the ID has.
-/

namespace NimRtc

/-! ## STAP-A -/

namespace H264

/-- The bytes of a unit that fits are written behind those that are there. -/
theorem write_unit (out : List UInt8) {rest n : List UInt8} (hn : n.length + 2 ≤ rest.length) (hi lo : UInt8) :
    Buffer.write (((out ++ rest).set out.length hi).set (out.length + 1) lo) (out.length + 2) n
      = (out ++ hi :: lo :: n) ++ rest.drop (n.length + 2) := by
  match rest, hn with
  | a :: b :: rest, hn =>
    have hset : ((out ++ a :: b :: rest).set out.length hi).set (out.length + 1) lo
        = (out ++ [hi, lo]) ++ rest := by
      simp
    rw [hset, Buffer.write_append (by simp)]
    simp

theorem buildStapALoop_eq : ∀ (ns : List (List UInt8)) (out rest : List UInt8), out ≠ [] →
    match appendUnits (out ++ rest).length out ns with
    | none => (buildStapALoop (out ++ rest) out.length ns).1 = 0
    | some w => ∃ rest', buildStapALoop (out ++ rest) out.length ns = (w.length, w ++ rest')
  | [], out, rest, _ => ⟨rest, rfl⟩
  | [] :: ns, out, rest, hout => by
    rw [appendUnits, buildStapALoop]
    exact buildStapALoop_eq ns out rest hout
  | (first :: body) :: ns, out, rest, hout => by
    obtain ⟨b, tail, rfl⟩ := List.exists_cons_of_ne_nil hout
    generalize hind : makeIndicator ((first &&& kNriMask) >>> 5) kStapAType = indicator
    -- the first byte is the indicator from the first unit on
    obtain ⟨b', hfirst, hset⟩ : ∃ b', (if (b :: tail).length = 1 then [indicator] else b :: tail)
          = b' :: tail ∧ (if (b :: tail).length = 1 then (b :: tail ++ rest).set 0 indicator
            else b :: tail ++ rest) = b' :: tail ++ rest := by
      by_cases hone : (b :: tail).length = 1
      · have htail : tail = [] := List.eq_nil_of_length_eq_zero (by simpa using hone)
        exact ⟨indicator, by rw [if_pos hone, htail], by rw [if_pos hone]; rfl⟩
      · exact ⟨b, if_neg hone, if_neg hone⟩
    have hlen : (b' :: tail).length = (b :: tail).length := rfl
    rw [appendUnits, buildStapALoop]
    simp only [hind, hfirst, hset]
    have hsize : (b' :: tail ++ rest).length = (b :: tail ++ rest).length := rfl
    rw [hsize, hlen]
    split_ifs with hcap
    · rfl
    · have hfit : (first :: body).length + 2 ≤ rest.length := by
        rw [List.length_append] at hcap
        omega
      have hwrite := write_unit (b' :: tail) hfit (byteAt (first :: body).length 1)
        (byteAt (first :: body).length 0)
      rw [hlen] at hwrite
      rw [hwrite]
      have hrest := buildStapALoop_eq ns ((b' :: tail) ++ byteAt (first :: body).length 1
        :: byteAt (first :: body).length 0 :: first :: body)
        (rest.drop ((first :: body).length + 2)) (by simp)
      have hcaps : (((b' :: tail) ++ byteAt (first :: body).length 1
          :: byteAt (first :: body).length 0 :: first :: body)
          ++ rest.drop ((first :: body).length + 2)).length = (b :: tail ++ rest).length := by
        simp only [List.length_append, List.length_cons, List.length_drop] at hfit ⊢
        omega
      have hpos : ((b' :: tail) ++ byteAt (first :: body).length 1
          :: byteAt (first :: body).length 0 :: first :: body).length
          = (b :: tail).length + 2 + (first :: body).length := by
        simp only [List.length_append, List.length_cons]
        omega
      rwa [hcaps, hpos] at hrest

/-- Units that do not fit all are not written all. -/
theorem appendUnits_eq_none {cap : ℕ} : ∀ {ns : List (List UInt8)} {out : List UInt8},
    ns ≠ [] → (∀ n ∈ ns, n ≠ []) → cap < out.length + (ns.map fun n => 2 + n.length).sum →
      appendUnits cap out ns = none
  | [] :: _, _, _, hunits, _ => absurd rfl (hunits [] (by simp))
  | (first :: body) :: ns, out, _, hunits, hcap => by
    rw [List.map_cons, List.sum_cons] at hcap
    rw [appendUnits]
    generalize hout : (if out.length = 1 then
      [makeIndicator ((first &&& kNriMask) >>> 5) kStapAType] else out) = out'
    have hlen : out'.length = out.length := by
      rw [← hout]
      split_ifs with hone
      · exact hone.symm
      · rfl
    split_ifs with hfit
    · rfl
    · refine appendUnits_eq_none ?_ (fun n hn => hunits n (List.mem_cons_of_mem _ hn)) ?_
      · rintro rfl
        rw [List.map_nil, List.sum_nil] at hcap
        omega
      · simp only [List.length_append, List.length_cons] at hcap hfit ⊢
        omega

/-- The first unit writes the indicator over what was there. -/
theorem appendUnits_first {cap : ℕ} {ns : List (List UInt8)} (hne : ns ≠ [])
    (hunits : ∀ n ∈ ns, n ≠ []) (b : UInt8) : appendUnits cap [b] ns = appendUnits cap [0] ns := by
  match ns, hne with
  | [] :: _, _ => exact absurd rfl (hunits [] (by simp))
  | (first :: body) :: ns, _ => rfl

theorem stapAUnits_units : ∀ {g : List (List UInt8)} {fuel : ℕ},
    (∀ n ∈ g, n ≠ [] ∧ n.length < 2 ^ 16) → g.length ≤ fuel →
      stapAUnits fuel (g.flatMap stapAUnit) = g.map fun n => ⟨n.headD 0 &&& kNaluTypeMask, n⟩
  | [], fuel, _, _ => by
    rw [List.flatMap_nil, List.map_nil]
    cases fuel <;> rfl
  | n :: g, fuel + 1, h, hfuel => by
    obtain ⟨hn, hlt⟩ := h n (by simp)
    rw [List.flatMap_cons, stapAUnits_stapAUnit hn hlt, List.map_cons,
      stapAUnits_units (fun m hm => h m (List.mem_cons_of_mem _ hm)) (by simpa using hfuel)]

/-- Units of up to 65535 bytes are read back from the buffer that they were written to, if it has
room for them. -/
theorem parseStapA_buildStapAInto {nalus : List (List UInt8)} (hne : nalus ≠ [])
    (hsize : ∀ n ∈ nalus, 1 ≤ n.length ∧ n.length ≤ 65535) (output : List UInt8) :
    (stapASize nalus ≤ output.length →
      (buildStapAInto nalus output).1 = stapASize nalus
        ∧ parseStapA ((buildStapAInto nalus output).2.take (stapASize nalus))
          = { nalus := nalus.map fun n => ⟨n.headD 0 &&& kNaluTypeMask, n⟩, parsedOk := true })
      ∧ (output.length < stapASize nalus → (buildStapAInto nalus output).1 = 0) := by
  have hunits : ∀ n ∈ nalus, n ≠ [] := fun n hn h => by
    have := (hsize n hn).1
    simp [h] at this
  have hread : ∀ n ∈ nalus, n ≠ [] ∧ n.length < 2 ^ 16 := fun n hn =>
    ⟨hunits n hn, Nat.lt_succ_of_le (hsize n hn).2⟩
  constructor
  · intro hcap
    obtain ⟨b, rest, rfl⟩ : ∃ b rest, output = b :: rest := by
      refine List.exists_cons_of_ne_nil ?_
      rintro rfl
      simp [stapASize] at hcap
    obtain ⟨indicator, htype, hbuild⟩ := buildStapA_eq hne hunits hcap
    have hroom : ¬ (nalus = [] ∨ (b :: rest).length < 1) := by simp [hne]
    rw [buildStapA, if_neg hroom, ← appendUnits_first hne hunits b] at hbuild
    have hwritten := buildStapALoop_eq nalus [b] rest (by simp)
    rw [List.singleton_append, hbuild] at hwritten
    obtain ⟨rest', hwritten⟩ := hwritten
    have hlen : (indicator :: nalus.flatMap stapAUnit).length = stapASize nalus :=
      length_flatMap_stapAUnit nalus
    rw [List.length_singleton, hlen] at hwritten
    rw [buildStapAInto, if_neg hroom, hwritten]
    refine ⟨rfl, ?_⟩
    have hok : nalus.isEmpty = false := List.isEmpty_eq_false_iff.2 hne
    simp only [List.take_left' hlen, parseStapA, htype, ne_eq, not_true_eq_false, if_false,
      stapAUnits_units hread (length_le_flatMap_stapAUnit nalus), List.isEmpty_map, hok, Bool.not_false]
  · intro hcap
    rw [buildStapAInto]
    split_ifs with hempty
    · rfl
    · obtain ⟨b, rest, rfl⟩ : ∃ b rest, output = b :: rest := by
        refine List.exists_cons_of_ne_nil ?_
        rintro rfl
        simp at hempty
      have hwritten := buildStapALoop_eq nalus [b] rest (by simp)
      rw [List.singleton_append, appendUnits_eq_none hne hunits hcap] at hwritten
      exact hwritten

theorem parseStapA_two_units :
    (buildStapAInto [[0x67, 0x42], [0x68]] (List.replicate 9 0xFF)).1 = 8
      ∧ (parseStapA ((buildStapAInto [[0x67, 0x42], [0x68]] (List.replicate 9 0xFF)).2.take 8)).nalus
        = [⟨7, [0x67, 0x42]⟩, ⟨8, [0x68]⟩]
      ∧ (buildStapAInto [[0x67, 0x42], [0x68]] (List.replicate 7 0xFF)).1 = 0 := by
  have hsize : ∀ n ∈ [[0x67, 0x42], [(0x68 : UInt8)]], 1 ≤ n.length ∧ n.length ≤ 65535 := by decide
  obtain ⟨hcount, hread⟩ := (parseStapA_buildStapAInto (by decide) hsize
    (List.replicate 9 0xFF)).1 (by decide)
  refine ⟨hcount, congrArg (·.nalus) hread, ?_⟩
  exact (parseStapA_buildStapAInto (by decide) hsize (List.replicate 7 0xFF)).2 (by decide)

end H264

/-! ## Picture IDs -/

theorem pictureId15_eq (id : ℤ) : pictureId15 id = (id % 2 ^ 15).toNat := by
  have hmask := Nat.and_two_pow_sub_one_eq_mod (id % 2 ^ 16).toNat 15
  rw [pictureId15, hmask]
  omega

/-- The bytes of a picture ID in its 15-bit and in its 7-bit form. -/
def pictureIdBytes (wide : Bool) (id : ℤ) : List UInt8 :=
  if wide then
    [UInt8.ofNat (0x80 ||| pictureId15 id >>> 8), UInt8.ofNat (pictureId15 id &&& 0xFF)]
  else [pictureId7 id]

def pictureIdBound (wide : Bool) : ℤ := if wide then 2 ^ 15 else 2 ^ 7

theorem pictureId7_read (id : ℤ) :
    pictureId7 id &&& 0x80 = 0 ∧ ((pictureId7 id &&& 0x7F).toNat : ℤ) = id % 2 ^ 7 := by
  have hbyte : ∀ n < 128, UInt8.ofNat n &&& 0x80 = 0 ∧ (UInt8.ofNat n &&& 0x7F).toNat = n := by
    decide
  obtain ⟨hclear, hvalue⟩ := hbyte (id % 2 ^ 7).toNat (by omega)
  refine ⟨hclear, ?_⟩
  rw [pictureId7, hvalue]
  omega

theorem pictureId15_read (id : ℤ) :
    UInt8.ofNat (0x80 ||| pictureId15 id >>> 8) &&& 0x80 ≠ 0
      ∧ (((UInt8.ofNat (0x80 ||| pictureId15 id >>> 8) &&& 0x7F).toNat <<< 8
        ||| (UInt8.ofNat (pictureId15 id &&& 0xFF)).toNat : ℕ) : ℤ) = id % 2 ^ 15 := by
  have hbyte : ∀ n < 128, UInt8.ofNat (0x80 ||| n) &&& 0x80 ≠ 0
      ∧ (UInt8.ofNat (0x80 ||| n) &&& 0x7F).toNat = n := by
    decide
  have hlow : ∀ n, (UInt8.ofNat (n &&& 0xFF)).toNat = n % 256 := fun n => by
    rw [Nat.and_two_pow_sub_one_eq_mod n 8, UInt8.toNat_ofNat']
    omega
  have hid := pictureId15_eq id
  have hhigh : pictureId15 id >>> 8 < 128 := by
    rw [Nat.shiftRight_eq_div_pow]
    omega
  obtain ⟨hset, hvalue⟩ := hbyte _ hhigh
  refine ⟨hset, ?_⟩
  rw [hvalue, hlow, ← Nat.shiftLeft_add_eq_or_of_lt (by omega), Nat.shiftLeft_eq,
    Nat.shiftRight_eq_div_pow]
  omega

/-! ## VP8 -/

namespace Vp8

def descriptorByte (partition : UInt8) (start nonRef hasId : Bool) : UInt8 :=
  let b0 := partition &&& kPidMask
  let b0 := if start then b0 ||| kDescByteBitS else b0
  let b0 := if nonRef then b0 ||| kDescByteBitN else b0
  if hasId then b0 ||| kDescByteBitX else b0

def descriptorBytes (d : Descriptor) : List UInt8 :=
  descriptorByte d.partitionIndex d.startOfPartition d.nonReference d.hasPictureId
    :: if d.hasPictureId then kExtBitI :: pictureIdBytes d.pictureId16bit d.pictureId else []

theorem length_descriptorBytes (d : Descriptor) : (descriptorBytes d).length = descriptorSize d := by
  unfold descriptorBytes descriptorSize pictureIdBytes
  rcases d with ⟨_, _, _, _ | _, _, _ | _⟩ <;> rfl

theorem buildDescriptor_eq (d : Descriptor) (pre rest : List UInt8)
    (h : pre.length = descriptorSize d) :
    buildDescriptor d (pre ++ rest) = (descriptorSize d, descriptorBytes d ++ rest) := by
  have hroom : ¬ (pre ++ rest).length < descriptorSize d := by
    rw [List.length_append]
    omega
  rw [buildDescriptor, if_neg hroom]
  rcases d with ⟨partition, start, nonRef, _ | _, id, _ | _⟩
  · obtain ⟨a, rfl⟩ := List.length_eq_one_iff.1 h
    rfl
  · obtain ⟨a, rfl⟩ := List.length_eq_one_iff.1 h
    rfl
  · obtain ⟨a, b, c, rfl⟩ := List.length_eq_three.1 h
    rfl
  · obtain ⟨a, pre, rfl⟩ := List.exists_cons_of_length_eq_add_one h
    obtain ⟨b, c, e, rfl⟩ := List.length_eq_three.1 (Nat.succ.inj h)
    rfl

theorem build_eq (d : Descriptor) (bitstream output : List UInt8)
    (h : descriptorSize d + bitstream.length ≤ output.length) :
    ∃ rest, build d bitstream output = (descriptorSize d + bitstream.length,
      descriptorBytes d ++ bitstream ++ rest) := by
  obtain ⟨pre, rest, rfl, hpre⟩ := Buffer.exists_append (show descriptorSize d ≤ output.length by omega)
  have hsize : descriptorSize d ≠ 0 := by
    unfold descriptorSize
    split_ifs <;> omega
  have hlen := length_descriptorBytes d
  have hroom : ¬ (descriptorBytes d ++ rest).length < descriptorSize d + bitstream.length := by
    rw [List.length_append] at h ⊢
    omega
  refine ⟨rest.drop bitstream.length, ?_⟩
  simp only [build, buildDescriptor_eq d pre rest hpre, if_neg hsize, if_neg hroom,
    Buffer.write_append hlen, List.append_assoc]

/-- What the payload says of a descriptor. -/
def Descriptor.wire (d : Descriptor) : Descriptor :=
  { d with
    partitionIndex := d.partitionIndex &&& kPidMask
    pictureId := if d.hasPictureId then d.pictureId % pictureIdBound d.pictureId16bit else 0
    pictureId16bit := d.hasPictureId && d.pictureId16bit }

theorem descriptorByte_read (partition : UInt8) (start nonRef hasId : Bool) :
    descriptorByte partition start nonRef hasId &&& kPidMask = partition &&& kPidMask
      ∧ decide (descriptorByte partition start nonRef hasId &&& kDescByteBitS ≠ 0) = start
      ∧ decide (descriptorByte partition start nonRef hasId &&& kDescByteBitN ≠ 0) = nonRef
      ∧ (descriptorByte partition start nonRef hasId &&& kDescByteBitX = 0 ↔ hasId = false) := by
  revert partition
  cases start <;> cases nonRef <;> cases hasId <;> exact forall_uint8 (by decide)

/-- A payload that ends with a 16-bit picture ID is refused. -/
theorem parse_descriptorBytes (d : Descriptor) (bitstream : List UInt8) :
    if d.hasPictureId ∧ d.pictureId16bit ∧ bitstream = [] then
      (parse (descriptorBytes d ++ bitstream)).parsedOk = false
    else parse (descriptorBytes d ++ bitstream) = { parsedOk := true, desc := d.wire, bitstream } := by
  rcases d with ⟨partition, start, nonRef, hasId, id, wide⟩
  obtain ⟨hpid, hstart, hnonRef, hext⟩ := descriptorByte_read partition start nonRef hasId
  have hI : ¬ kExtBitI &&& kExtBitI = 0 := by decide
  cases hasId with
  | false =>
    simp only [descriptorBytes, Bool.false_eq_true, if_false, false_and, List.singleton_append, parse,
      hpid, hstart, hnonRef, hext, if_true, Descriptor.wire, Bool.false_and]
  | true =>
    simp only [Bool.true_eq_false, iff_false] at hext
    cases wide with
    | false =>
      obtain ⟨hclear, hvalue⟩ := pictureId7_read id
      simp only [descriptorBytes, pictureIdBytes, pictureIdBound, Bool.false_eq_true, if_false, if_true,
        false_and, and_false, List.cons_append, List.nil_append, parse, hpid, hstart, hnonRef, hext,
        hI, hclear, hvalue, Descriptor.wire, Bool.and_false]
    | true =>
      obtain ⟨hset, hvalue⟩ := pictureId15_read id
      cases bitstream with
      | nil =>
        simp only [descriptorBytes, pictureIdBytes, if_false, if_true, and_self, List.append_nil, parse,
          hext, hI, hset, List.length_singleton, le_refl]
      | cons b body =>
        have hmore : ¬ (UInt8.ofNat (pictureId15 id &&& 0xFF) :: b :: body).length ≤ 1 := by simp
        simp only [descriptorBytes, pictureIdBytes, pictureIdBound, if_false, if_true, reduceCtorEq,
          and_false, List.cons_append, List.nil_append, parse, hpid, hstart, hnonRef, hext, hI, hset,
          hmore, List.headD_cons, hvalue, List.drop_succ_cons, List.drop_zero, Descriptor.wire,
          Bool.and_self]

/-- The fields of a descriptor fit the payload. -/
structure Descriptor.InRange (d : Descriptor) : Prop where
  partitionIndex : d.partitionIndex < 8
  pictureId : d.hasPictureId → 0 ≤ d.pictureId ∧ d.pictureId < pictureIdBound d.pictureId16bit

/-- The fields that count: without `has_picture_id` the value of the picture ID is unspecified. -/
def Descriptor.present (d : Descriptor) : Descriptor :=
  { d with
    pictureId := if d.hasPictureId then d.pictureId else 0
    pictureId16bit := d.hasPictureId && d.pictureId16bit }

theorem Descriptor.wire_eq_present {d : Descriptor} (h : d.InRange) : d.wire = d.present := by
  have hmask : ∀ p : UInt8, p < 8 → p &&& kPidMask = p := forall_uint8 (by decide)
  obtain ⟨hpartition, hid⟩ := h
  rcases d with ⟨partition, start, nonRef, _ | _, id, wide⟩
  · simp only [wire, present, hmask partition hpartition, Bool.false_eq_true, if_false]
  · obtain ⟨hnonneg, hlt⟩ := hid rfl
    simp only [wire, present, hmask partition hpartition, if_true, Int.emod_eq_of_lt hnonneg hlt]

theorem Descriptor.present_present (d : Descriptor) : d.present.present = d.present := by
  rcases d with ⟨_, _, _, _ | _, _, _⟩ <;> rfl

theorem Descriptor.present_eq_self {d : Descriptor} :
    d.present = d ↔ (d.hasPictureId = false → d.pictureId = 0 ∧ d.pictureId16bit = false) := by
  rcases d with ⟨_, _, _, _ | _, id, wide⟩
  · simp [present, eq_comm]
  · simp [present]

/-- The bytes that `build` says it has written. -/
def written (d : Descriptor) (bitstream output : List UInt8) : List UInt8 :=
  (build d bitstream output).2.take (build d bitstream output).1

theorem written_eq {d : Descriptor} {bitstream output : List UInt8}
    (h : descriptorSize d + bitstream.length ≤ output.length) :
    written d bitstream output = descriptorBytes d ++ bitstream := by
  obtain ⟨rest, hbuild⟩ := build_eq d bitstream output h
  rw [written, hbuild]
  refine List.take_left' ?_
  rw [List.length_append, length_descriptorBytes]

/-- A payload is read back unless it ends with a 16-bit picture ID; all fields are as they were if
those that are not there had their defaults. -/
theorem parse_written_iff {d : Descriptor} (hd : d.InRange) {bitstream output : List UInt8}
    (hcap : descriptorSize d + bitstream.length ≤ output.length) :
    ((parse (written d bitstream output)).parsedOk
        ∧ (parse (written d bitstream output)).desc.present = d.present
        ∧ (parse (written d bitstream output)).bitstream = bitstream
      ↔ ¬ (d.hasPictureId ∧ d.pictureId16bit ∧ bitstream = []))
    ∧ (parse (written d bitstream output) = { parsedOk := true, desc := d, bitstream }
      ↔ ¬ (d.hasPictureId ∧ d.pictureId16bit ∧ bitstream = [])
        ∧ (d.hasPictureId = false → d.pictureId = 0 ∧ d.pictureId16bit = false)) := by
  have hread := parse_descriptorBytes d bitstream
  rw [written_eq hcap]
  by_cases hend : d.hasPictureId ∧ d.pictureId16bit ∧ bitstream = []
  · rw [if_pos hend] at hread
    constructor
    · refine iff_of_false (fun h => ?_) (fun h => h hend)
      exact absurd (hread.symm.trans h.1) (by decide)
    · refine iff_of_false (fun h => ?_) (fun h => h.1 hend)
      rw [h] at hread
      cases hread
  · rw [if_neg hend] at hread
    rw [hread, Descriptor.wire_eq_present hd]
    constructor
    · simp [hend, Descriptor.present_present]
    · rw [← Descriptor.present_eq_self]
      simp [hend]

def keyFrameStart : Descriptor :=
  { startOfPartition := true, hasPictureId := true, pictureId := 300, pictureId16bit := true }

theorem parse_written_key_frame :
    (parse (written keyFrameStart [0x9D] (List.replicate 8 0))).desc.present = keyFrameStart.present := by
  have hd : keyFrameStart.InRange := ⟨by decide, by decide⟩
  have hcap : descriptorSize keyFrameStart + [(0x9D : UInt8)].length
      ≤ (List.replicate 8 (0 : UInt8)).length := by
    decide
  exact ((parse_written_iff hd hcap).1.2 (by decide)).2.1

/-- The descriptor alone is four bytes, and its last one is taken for missing. -/
theorem parse_written_no_bitstream :
    ¬ ∀ (d : Descriptor) (bitstream output : List UInt8), d.InRange →
      descriptorSize d + bitstream.length ≤ output.length →
        (parse (written d bitstream output)).parsedOk
          ∧ (parse (written d bitstream output)).desc.present = d.present
          ∧ (parse (written d bitstream output)).bitstream = bitstream := by
  intro h
  have hd : keyFrameStart.InRange := ⟨by decide, by decide⟩
  have hok := (h keyFrameStart [] [0, 0, 0, 0] hd (by decide)).1
  exact absurd hok (by decide)

end Vp8

/-! ## VP9 -/

namespace Vp9

def descriptorByte (hasId hasLayer flexible nonRef inter : Bool) : UInt8 :=
  let b0 : UInt8 := 0
  let b0 := if hasId then b0 ||| kBitZ else b0
  let b0 := if hasLayer then b0 ||| kBitY else b0
  let b0 := if flexible then b0 ||| kBitF else b0
  let b0 := if nonRef then b0 ||| kBitN else b0
  if inter then b0 ||| kBitD else b0

def layerByte (temporalId spatialId : UInt8) : UInt8 :=
  (temporalId &&& 0x07) <<< 5 ||| (spatialId &&& 0x03) <<< 3

def descriptorBytes (d : Descriptor) : List UInt8 :=
  descriptorByte d.hasPictureId d.hasLayerInfo d.flexibleMode d.nonReference d.interPredicted
    :: ((if d.hasPictureId then pictureIdBytes d.pictureId16bit d.pictureId else [])
      ++ if d.hasLayerInfo then [layerByte d.temporalId d.spatialId] else [])

theorem length_descriptorBytes (d : Descriptor) : (descriptorBytes d).length = descriptorSize d := by
  unfold descriptorBytes descriptorSize pictureIdBytes
  rcases d with ⟨_ | _, _ | _, _, _ | _, _, _, _, _, _⟩ <;> rfl

theorem buildDescriptor_eq (d : Descriptor) (pre rest : List UInt8)
    (h : pre.length = descriptorSize d) :
    buildDescriptor d (pre ++ rest) = (descriptorSize d, descriptorBytes d ++ rest) := by
  have hroom : ¬ (pre ++ rest).length < descriptorSize d := by
    rw [List.length_append]
    omega
  rw [buildDescriptor, if_neg hroom]
  rcases d with ⟨_ | _, _ | _, id, _ | _, tid, sid, flexible, nonRef, inter⟩
  · obtain ⟨a, rfl⟩ := List.length_eq_one_iff.1 h
    rfl
  · obtain ⟨a, b, rfl⟩ := List.length_eq_two.1 h
    rfl
  · obtain ⟨a, rfl⟩ := List.length_eq_one_iff.1 h
    rfl
  · obtain ⟨a, b, rfl⟩ := List.length_eq_two.1 h
    rfl
  · obtain ⟨a, b, rfl⟩ := List.length_eq_two.1 h
    rfl
  · obtain ⟨a, b, c, rfl⟩ := List.length_eq_three.1 h
    rfl
  · obtain ⟨a, b, c, rfl⟩ := List.length_eq_three.1 h
    rfl
  · obtain ⟨a, pre, rfl⟩ := List.exists_cons_of_length_eq_add_one h
    obtain ⟨b, c, e, rfl⟩ := List.length_eq_three.1 (Nat.succ.inj h)
    rfl

theorem build_eq (d : Descriptor) (bitstream output : List UInt8)
    (h : descriptorSize d + bitstream.length ≤ output.length) :
    ∃ rest, build d bitstream output = (descriptorSize d + bitstream.length,
      descriptorBytes d ++ bitstream ++ rest) := by
  obtain ⟨pre, rest, rfl, hpre⟩ := Buffer.exists_append (show descriptorSize d ≤ output.length by omega)
  have hsize : descriptorSize d ≠ 0 := by
    unfold descriptorSize
    omega
  have hlen := length_descriptorBytes d
  have hroom : ¬ (descriptorBytes d ++ rest).length < descriptorSize d + bitstream.length := by
    rw [List.length_append] at h ⊢
    omega
  refine ⟨rest.drop bitstream.length, ?_⟩
  simp only [build, buildDescriptor_eq d pre rest hpre, if_neg hsize, if_neg hroom,
    Buffer.write_append hlen, List.append_assoc]

theorem descriptorByte_read (hasId hasLayer flexible nonRef inter : Bool) :
    decide (descriptorByte hasId hasLayer flexible nonRef inter &&& kBitZ ≠ 0) = hasId
      ∧ decide (descriptorByte hasId hasLayer flexible nonRef inter &&& kBitY ≠ 0) = hasLayer
      ∧ decide (descriptorByte hasId hasLayer flexible nonRef inter &&& kBitF ≠ 0) = flexible
      ∧ decide (descriptorByte hasId hasLayer flexible nonRef inter &&& kBitN ≠ 0) = nonRef
      ∧ decide (descriptorByte hasId hasLayer flexible nonRef inter &&& kBitD ≠ 0) = inter := by
  revert hasId hasLayer flexible nonRef inter
  decide

theorem layerByte_read (temporalId spatialId : UInt8) :
    (layerByte temporalId spatialId >>> 5) &&& 0x07 = temporalId &&& 0x07
      ∧ (layerByte temporalId spatialId >>> 3) &&& 0x03 = spatialId &&& 0x03 := by
  have htid : ∀ t : UInt8, ∃ n < 8, t &&& 0x07 = UInt8.ofNat n := forall_uint8 (by decide)
  have hsid : ∀ s : UInt8, ∃ n < 4, s &&& 0x03 = UInt8.ofNat n := forall_uint8 (by decide)
  have hbyte : ∀ t < 8, ∀ s < 4,
      ((UInt8.ofNat t <<< 5 ||| UInt8.ofNat s <<< 3) >>> 5) &&& 0x07 = UInt8.ofNat t
        ∧ ((UInt8.ofNat t <<< 5 ||| UInt8.ofNat s <<< 3) >>> 3) &&& 0x03 = UInt8.ofNat s := by
    decide
  obtain ⟨t, ht, htemporal⟩ := htid temporalId
  obtain ⟨s, hs, hspatial⟩ := hsid spatialId
  rw [layerByte, htemporal, hspatial]
  exact hbyte t ht s hs

/-- What the payload says of a descriptor. -/
def Descriptor.wire (d : Descriptor) : Descriptor :=
  { d with
    pictureId16bit := d.hasPictureId && d.pictureId16bit
    pictureId := if d.hasPictureId then d.pictureId % pictureIdBound d.pictureId16bit else 0
    temporalId := if d.hasLayerInfo then d.temporalId &&& 0x07 else 0
    spatialId := if d.hasLayerInfo then d.spatialId &&& 0x03 else 0 }

theorem parsePictureId_bytes (desc : Descriptor) (hnarrow : desc.pictureId16bit = false) (wide : Bool)
    (id : ℤ) (rest : List UInt8) :
    parsePictureId desc (pictureIdBytes wide id ++ rest)
      = ({ desc with pictureId16bit := wide, pictureId := id % pictureIdBound wide }, some rest) := by
  rcases desc with ⟨hasId, wide₀, id₀, hasLayer, tid, sid, flexible, nonRef, inter⟩
  subst hnarrow
  cases wide with
  | false =>
    obtain ⟨hclear, hvalue⟩ := pictureId7_read id
    simp only [pictureIdBytes, Bool.false_eq_true, if_false, List.singleton_append, parsePictureId,
      hclear, if_true, hvalue, pictureIdBound]
  | true =>
    obtain ⟨hset, hvalue⟩ := pictureId15_read id
    simp only [pictureIdBytes, if_true, List.cons_append, List.nil_append, parsePictureId, hset,
      if_false, hvalue, pictureIdBound]

theorem parse_descriptorBytes (d : Descriptor) (bitstream : List UInt8) :
    parse (descriptorBytes d ++ bitstream) = { parsedOk := true, desc := d.wire, bitstream } := by
  rcases d with ⟨hasId, wide, id, hasLayer, tid, sid, flexible, nonRef, inter⟩
  obtain ⟨hZ, hY, hF, hN, hD⟩ := descriptorByte_read hasId hasLayer flexible nonRef inter
  obtain ⟨htid, hsid⟩ := layerByte_read tid sid
  rw [descriptorBytes, List.cons_append, List.append_assoc, parse]
  simp only [hZ, hY, hF, hN, hD]
  cases hasId <;> cases hasLayer <;>
    simp only [Bool.false_eq_true, if_false, if_true, List.nil_append, List.singleton_append,
      parsePictureId_bytes, parseLayerInfo, htid, hsid, Descriptor.wire, Bool.false_and, Bool.true_and]

/-- The fields of a descriptor fit the payload. -/
structure Descriptor.InRange (d : Descriptor) : Prop where
  pictureId : d.hasPictureId → 0 ≤ d.pictureId ∧ d.pictureId < pictureIdBound d.pictureId16bit
  temporalId : d.temporalId < 8
  spatialId : d.spatialId < 4

/-- The fields that are there; the others have their defaults. -/
def Descriptor.present (d : Descriptor) : Descriptor :=
  { d with
    pictureId16bit := d.hasPictureId && d.pictureId16bit
    pictureId := if d.hasPictureId then d.pictureId else 0
    temporalId := if d.hasLayerInfo then d.temporalId else 0
    spatialId := if d.hasLayerInfo then d.spatialId else 0 }

theorem Descriptor.wire_eq_present {d : Descriptor} (h : d.InRange) : d.wire = d.present := by
  have htid : ∀ t : UInt8, t < 8 → t &&& 0x07 = t := forall_uint8 (by decide)
  have hsid : ∀ s : UInt8, s < 4 → s &&& 0x03 = s := forall_uint8 (by decide)
  obtain ⟨hid, htemporal, hspatial⟩ := h
  rcases d with ⟨_ | _, wide, id, hasLayer, tid, sid, flexible, nonRef, inter⟩
  · simp only [wire, present, htid tid htemporal, hsid sid hspatial, Bool.false_eq_true, if_false]
  · obtain ⟨hnonneg, hlt⟩ := hid rfl
    simp only [wire, present, htid tid htemporal, hsid sid hspatial, if_true,
      Int.emod_eq_of_lt hnonneg hlt]

/-- Whatever the fields that are there, the payload is read back from the bytes that `build` says it
has written. -/
theorem parse_built {d : Descriptor} (hd : d.InRange) {bitstream output : List UInt8}
    (hcap : descriptorSize d + bitstream.length ≤ output.length) :
    parse ((build d bitstream output).2.take (build d bitstream output).1)
      = { parsedOk := true, desc := d.present, bitstream } := by
  obtain ⟨rest, hbuild⟩ := build_eq d bitstream output hcap
  have hlen : (descriptorBytes d ++ bitstream).length = descriptorSize d + bitstream.length := by
    rw [List.length_append, length_descriptorBytes]
  rw [hbuild, List.take_left' hlen, parse_descriptorBytes, Descriptor.wire_eq_present hd]

def layeredFrame : Descriptor :=
  { hasPictureId := true, pictureId := 77, hasLayerInfo := true, temporalId := 5, spatialId := 2 }

theorem parse_built_layers :
    parse ((build layeredFrame [] [0, 0, 0]).2.take (build layeredFrame [] [0, 0, 0]).1)
      = { parsedOk := true, desc := layeredFrame.present, bitstream := [] } := by
  have hd : layeredFrame.InRange := ⟨by decide, by decide, by decide⟩
  have hcap : descriptorSize layeredFrame + ([] : List UInt8).length
      ≤ ([0, 0, 0] : List UInt8).length := by
    decide
  exact parse_built hd hcap

end Vp9

end NimRtc
