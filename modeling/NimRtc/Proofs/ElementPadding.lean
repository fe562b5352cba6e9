import NimRtc.Proofs.RtcpRoundTrip

/-!
# Padding between extension elements

A padding byte is a single zero, but the search takes it for the first byte of an element without an
id, and skips the byte after it too. So padding is passed over in pairs: a padding byte that is left
over takes the first byte of the element behind it, and the search goes on inside that element.
-/

namespace NimRtc.Rtp

structure Element where
  id : UInt8
  data : List UInt8
  deriving DecidableEq, Repr

/-- The two forms of RFC 8285. -/
inductive ElementForm
  | oneByte
  | twoByte
  deriving DecidableEq, Repr

namespace ElementForm

def profile : ElementForm → UInt16
  | oneByte => kExtProfileOneByte
  | twoByte => kExtProfileTwoByte

def Valid : ElementForm → Element → Prop
  | oneByte, e => (1 ≤ e.id.toNat ∧ e.id.toNat ≤ 14) ∧ 1 ≤ e.data.length ∧ e.data.length ≤ 16
  | twoByte, e => 1 ≤ e.id.toNat ∧ e.data.length ≤ 255

def encode : ElementForm → Element → List UInt8
  | oneByte, e => (e.id <<< 4 ||| UInt8.ofNat (e.data.length - 1)) :: e.data
  | twoByte, e => e.id :: UInt8.ofNat e.data.length :: e.data

/-- Elements with padding bytes in front of each of them and behind the last. -/
def block (form : ElementForm) : List (ℕ × Element) → ℕ → List UInt8
  | [], last => List.replicate last 0
  | (pad, e) :: later, last => List.replicate pad 0 ++ (form.encode e ++ form.block later last)

/-- Every run of padding that a search for `id` passes is of pairs. In the two-byte form a single byte
at the end is no element any more. -/
def PairedUpTo (form : ElementForm) (id : UInt16) : List (ℕ × Element) → ℕ → Prop
  | [], last => form = oneByte → last % 2 = 0
  | (pad, e) :: later, last => pad % 2 = 0 ∧ (e.id.toUInt16 ≠ id → form.PairedUpTo id later last)

def search : ElementForm → List UInt8 → UInt16 → ℕ → ℕ → List ℕ → Found
  | oneByte => findOneByte
  | twoByte => findTwoByte

/-- What the loop finds from `off` on. -/
def found (form : ElementForm) (block : List UInt8) (id : UInt16) (fuel off : ℕ) :
    Except RtpError (List UInt8) := (form.search block id fuel off []).result

end ElementForm

/-- What RFC 8285 makes of the elements: the data of the first one with the id. -/
def firstWithId (elems : List Element) (id : UInt16) : Except RtpError (List UInt8) :=
  match elems.find? fun e => e.id.toUInt16 = id with
  | some e => .ok e.data
  | none => .error (elementNotPresent id)

theorem firstWithId_cons (e : Element) (elems : List Element) (id : UInt16) :
    firstWithId (e :: elems) id = if e.id.toUInt16 = id then .ok e.data else firstWithId elems id := by
  rw [firstWithId, List.find?_cons]
  split_ifs with hid
  · rw [decide_eq_true hid]
  · rw [decide_eq_false hid]
    rfl

/-! ### One round -/

theorem findOneByte_reads_irrelevant {block : List UInt8} {id : UInt16} :
    ∀ (fuel off : ℕ) (reads reads' : List ℕ),
      (findOneByte block id fuel off reads).result = (findOneByte block id fuel off reads').result
  | 0, _, _, _ => rfl
  | fuel + 1, off, reads, reads' => by
    simp only [findOneByte]
    split_ifs
    · rfl
    · rfl
    · exact findOneByte_reads_irrelevant fuel _ _ _
    · rfl

theorem findTwoByte_reads_irrelevant {block : List UInt8} {id : UInt16} :
    ∀ (fuel off : ℕ) (reads reads' : List ℕ),
      (findTwoByte block id fuel off reads).result = (findTwoByte block id fuel off reads').result
  | 0, _, _, _ => rfl
  | fuel + 1, off, reads, reads' => by
    simp only [findTwoByte]
    split_ifs
    · rfl
    · rfl
    · exact findTwoByte_reads_irrelevant fuel _ _ _
    · rfl

namespace ElementForm

/-- A round of the one-byte loop. -/
theorem found_oneByte {block pre post : List UInt8} {hdr : UInt8} (id : UInt16) (fuel : ℕ)
    (hblock : block = pre ++ hdr :: post) :
    oneByte.found block id (fuel + 1) pre.length
      = if post.length < (hdr &&& 0x0F).toNat + 1 then
          .error (elementTruncated "one-byte" pre.length)
        else if (hdr >>> 4).toUInt16 = id ∧ id ≠ 0 then .ok (post.take ((hdr &&& 0x0F).toNat + 1))
        else oneByte.found block id fuel (pre.length + 1 + ((hdr &&& 0x0F).toNat + 1)) := by
  have hhdr : block.getD pre.length 0 = hdr := getD_between pre hblock rfl
  have hlength : block.length = pre.length + 1 + post.length := by
    rw [hblock, List.length_append, List.length_cons]
    omega
  have hpost : block.drop (pre.length + 1) = post := by
    rw [hblock, ← List.drop_drop, List.drop_left]
    rfl
  simp only [found, search, findOneByte, hhdr, hpost, hlength]
  rw [if_pos (by omega)]
  split_ifs <;> first | rfl | omega | exact findOneByte_reads_irrelevant _ _ _ _

/-- A round of the two-byte loop. -/
theorem found_twoByte {block pre post : List UInt8} {elemId len : UInt8} (id : UInt16) (fuel : ℕ)
    (hblock : block = pre ++ elemId :: len :: post) :
    twoByte.found block id (fuel + 1) pre.length
      = if post.length < len.toNat then .error (elementTruncated "two-byte" pre.length)
        else if elemId.toUInt16 = id ∧ id ≠ 0 then .ok (post.take len.toNat)
        else twoByte.found block id fuel (pre.length + 2 + len.toNat) := by
  have hid : block.getD pre.length 0 = elemId := getD_between pre hblock rfl
  have hlen : block.getD (pre.length + 1) 0 = len :=
    getD_between (pre ++ [elemId]) (by rw [hblock, List.append_assoc]; rfl) (by simp)
  have hlength : block.length = pre.length + 2 + post.length := by
    rw [hblock, List.length_append, List.length_cons, List.length_cons]
    omega
  have hpost : block.drop (pre.length + 2) = post := by
    rw [hblock, ← List.drop_drop, List.drop_left]
    rfl
  simp only [found, search, findTwoByte, hid, hlen, hpost, hlength]
  rw [if_pos (by omega)]
  split_ifs <;> first | rfl | omega | exact findTwoByte_reads_irrelevant _ _ _ _

theorem oneByte_header {e : Element} (h : oneByte.Valid e) :
    (e.id <<< 4 ||| UInt8.ofNat (e.data.length - 1)) >>> 4 = e.id
      ∧ ((e.id <<< 4 ||| UInt8.ofNat (e.data.length - 1)) &&& 0x0F).toNat + 1 = e.data.length := by
  obtain ⟨⟨-, hid⟩, hsome, hlen⟩ := h
  have hall : ∀ i < 15, ∀ l < 16,
      (UInt8.ofNat i <<< 4 ||| UInt8.ofNat l) >>> 4 = UInt8.ofNat i
        ∧ ((UInt8.ofNat i <<< 4 ||| UInt8.ofNat l) &&& 0x0F).toNat = l := by decide
  have hhdr := hall e.id.toNat (by omega) (e.data.length - 1) (by omega)
  rw [UInt8.ofNat_toNat] at hhdr
  refine ⟨hhdr.1, ?_⟩
  rw [hhdr.2]
  omega

theorem Valid.id_ne_zero {form : ElementForm} {e : Element} (h : form.Valid e) :
    e.id.toUInt16 ≠ 0 := by
  have hpos : 1 ≤ e.id.toNat := by
    cases form with
    | oneByte => exact h.1.1
    | twoByte => exact h.1
  intro hzero
  have := congrArg UInt16.toNat hzero
  simp at this
  omega

variable (form : ElementForm) {blk pre rest : List UInt8} (id : UInt16) (fuel : ℕ)

/-- An element is found by its id, or passed over. -/
theorem found_element {e : Element} (hvalid : form.Valid e)
    (hblock : blk = pre ++ (form.encode e ++ rest)) :
    form.found blk id (fuel + 1) pre.length
      = if e.id.toUInt16 = id then .ok e.data
        else form.found blk id fuel (pre ++ form.encode e).length := by
  have hid : e.id.toUInt16 = id ∧ id ≠ 0 ↔ e.id.toUInt16 = id :=
    ⟨fun h => h.1, fun h => ⟨h, h ▸ hvalid.id_ne_zero⟩⟩
  have hdata : (e.data ++ rest).take e.data.length = e.data := List.take_left
  cases form with
  | oneByte =>
    obtain ⟨helem, hlen⟩ := oneByte_header hvalid
    have hcut : blk = pre ++ _ :: (e.data ++ rest) := hblock
    have hround := found_oneByte id fuel hcut
    simp only [helem, hlen, hid, hdata] at hround
    rw [hround, if_neg (by rw [List.length_append]; omega)]
    simp only [encode, List.length_append, List.length_cons, Nat.add_assoc, Nat.add_comm 1]
  | twoByte =>
    have hlen : (UInt8.ofNat e.data.length).toNat = e.data.length :=
      UInt8.toNat_ofNat_of_lt' (Nat.lt_succ_of_le hvalid.2)
    have hcut : blk = pre ++ e.id :: _ :: (e.data ++ rest) := hblock
    have hround := found_twoByte id fuel hcut
    simp only [hlen, hid, hdata] at hround
    rw [hround, if_neg (by rw [List.length_append]; omega)]
    simp only [encode, List.length_append, List.length_cons, Nat.add_assoc, Nat.add_comm 2]

theorem found_pair (hblock : blk = pre ++ 0 :: 0 :: rest) :
    form.found blk id (fuel + 1) pre.length = form.found blk id fuel (pre.length + 2) := by
  have hid : ¬ ((0 : UInt16) = id ∧ id ≠ 0) := fun h => h.2 h.1.symm
  cases form with
  | oneByte =>
    rw [found_oneByte id fuel hblock, if_neg (by simp)]
    exact if_neg hid
  | twoByte =>
    rw [found_twoByte id fuel hblock, if_neg (by simp)]
    exact if_neg hid

/-- Padding of pairs is passed over. -/
theorem found_pairs (k : ℕ) {fuel : ℕ} (hblock : blk = pre ++ (List.replicate (2 * k) 0 ++ rest))
    (hfuel : blk.length ≤ pre.length + fuel) :
    ∃ fuel', blk.length ≤ pre.length + 2 * k + fuel'
      ∧ form.found blk id fuel pre.length = form.found blk id fuel' (pre.length + 2 * k) := by
  induction k generalizing pre fuel with
  | zero => exact ⟨fuel, hfuel, rfl⟩
  | succ k ih =>
    have hcut : blk = pre ++ 0 :: 0 :: (List.replicate (2 * k) 0 ++ rest) := hblock
    have hlength := congrArg List.length hcut
    simp only [List.length_append, List.length_cons] at hlength
    obtain ⟨fuel, rfl⟩ : ∃ m, fuel = m + 1 := ⟨fuel - 1, by omega⟩
    have hnext : blk = (pre ++ [0, 0]) ++ (List.replicate (2 * k) 0 ++ rest) := by
      rw [hcut, List.append_assoc]
      rfl
    have hleft : blk.length ≤ (pre ++ [0, 0]).length + fuel := by
      simp only [List.length_append, List.length_cons, List.length_nil]
      omega
    obtain ⟨fuel', hfuel', hfound⟩ := ih hnext hleft
    simp only [List.length_append, List.length_cons, List.length_nil] at hfuel' hfound
    refine ⟨fuel', by omega, ?_⟩
    rw [found_pair form id fuel hcut, hfound, Nat.mul_succ]
    congr 1
    omega

theorem found_end {off : ℕ} (hend : blk.length ≤ off) :
    form.found blk id fuel off = .error (elementNotPresent id) := by
  cases form <;> cases fuel <;>
    simp [found, search, findOneByte, findTwoByte, not_lt.2 hend,
      not_lt.2 (hend.trans (Nat.le_succ off))]

theorem found_twoByte_end {off : ℕ} (hend : blk.length ≤ off + 1) :
    twoByte.found blk id fuel off = .error (elementNotPresent id) := by
  cases fuel <;> simp [found, search, findTwoByte, not_lt.2 hend]

/-! ### A block -/

/-- The search finds the first element with the id if the padding that it passes is of pairs. -/
theorem found_block (last : ℕ) : ∀ (layout : List (ℕ × Element)) {pre : List UInt8} {fuel : ℕ},
    (∀ x ∈ layout, form.Valid x.2) → form.PairedUpTo id layout last →
    blk = pre ++ form.block layout last → blk.length ≤ pre.length + fuel →
    form.found blk id fuel pre.length = firstWithId (layout.map Prod.snd) id
  | [], pre, fuel, _, hpairs, hblock, hfuel => by
    have hlength := congrArg List.length hblock
    simp only [block, List.length_append, List.length_replicate] at hlength
    have hsplit : blk = pre ++ (List.replicate (2 * (last / 2)) 0 ++ List.replicate (last % 2) 0) := by
      rw [← List.replicate_add, Nat.div_add_mod]
      exact hblock
    obtain ⟨fuel', -, hfound⟩ := found_pairs form id _ hsplit hfuel
    rw [hfound]
    cases form with
    | oneByte =>
      have heven := hpairs rfl
      exact found_end _ _ _ (by omega)
    | twoByte => exact found_twoByte_end _ _ (by omega)
  | (pad, e) :: later, pre, fuel, hvalid, hpairs, hblock, hfuel => by
    obtain ⟨hpad, hlater⟩ := hpairs
    obtain ⟨k, rfl⟩ : ∃ k, pad = 2 * k := ⟨pad / 2, by omega⟩
    obtain ⟨fuel', hfuel', hfound⟩ := found_pairs form id k hblock hfuel
    have hstart : pre.length + 2 * k = (pre ++ List.replicate (2 * k) 0).length := by simp
    have hcut : blk = (pre ++ List.replicate (2 * k) 0)
        ++ (form.encode e ++ form.block later last) := by
      rw [hblock, block, List.append_assoc]
    rw [hstart] at hfuel' hfound
    generalize pre ++ List.replicate (2 * k) 0 = pre at hcut hfuel' hfound
    have hlength := congrArg List.length hcut
    have hsome : 1 ≤ (form.encode e).length := by cases form <;> simp [encode]
    rw [List.length_append, List.length_append] at hlength
    obtain ⟨fuel', rfl⟩ : ∃ m, fuel' = m + 1 := ⟨fuel' - 1, by omega⟩
    have he : form.Valid e := hvalid _ List.mem_cons_self
    rw [hfound, found_element form id fuel' he hcut, List.map_cons, firstWithId_cons]
    split_ifs with hid
    · rfl
    · refine found_block last later (fun x hx => hvalid x (List.mem_cons_of_mem _ hx)) (hlater hid)
        ?_ ?_
      · rw [hcut, List.append_assoc]
      · rw [List.length_append]
        omega

/-! ### A byte of padding left over -/

/-- An element that is misread behind a single byte of padding: its data look like the element with
one byte of data, or with none. -/
def misread : ElementForm → Element
  | oneByte => ⟨1, [0x10, 0]⟩
  | twoByte => ⟨1, [1, 0]⟩

def filler : Element := ⟨3, [0]⟩

theorem valid_filler : form.Valid filler := by
  cases form
  · exact ⟨by decide, by decide, by decide⟩
  · exact ⟨by decide, by decide⟩

theorem valid_misread : form.Valid form.misread := by
  cases form
  · exact ⟨by decide, by decide, by decide⟩
  · exact ⟨by decide, by decide⟩

theorem found_misread {fuel : ℕ} (hblock : blk = pre ++ 0 :: (form.encode form.misread ++ rest))
    (hfuel : blk.length ≤ pre.length + fuel) :
    ∃ data, form.found blk 1 fuel pre.length = .ok data ∧ data.length < 2 := by
  have hlength := congrArg List.length hblock
  cases form with
  | oneByte =>
    have hcut : blk = pre ++ 0 :: 0x11 :: 0x10 :: 0 :: rest := hblock
    have hcut' : blk = (pre ++ [0, 0x11]) ++ 0x10 :: 0 :: rest := by
      rw [hcut, List.append_assoc]
      rfl
    simp only [encode, misread, List.length_append, List.length_cons] at hlength
    obtain ⟨fuel, rfl⟩ : ∃ m, fuel = m + 2 := ⟨fuel - 2, by omega⟩
    refine ⟨[0], ?_, by decide⟩
    have hsecond := found_oneByte 1 fuel hcut'
    rw [if_neg (by simp), if_pos (by decide)] at hsecond
    rw [found_oneByte 1 (fuel + 1) hcut, if_neg (by simp), if_neg (by decide)]
    simpa using hsecond
  | twoByte =>
    have hcut : blk = pre ++ 0 :: 1 :: 2 :: 1 :: 0 :: rest := hblock
    have hcut' : blk = (pre ++ [0, 1, 2]) ++ 1 :: 0 :: rest := by
      rw [hcut, List.append_assoc]
      rfl
    simp only [encode, misread, List.length_append, List.length_cons] at hlength
    obtain ⟨fuel, rfl⟩ : ∃ m, fuel = m + 2 := ⟨fuel - 2, by omega⟩
    refine ⟨[], ?_, by decide⟩
    have hsecond := found_twoByte 1 fuel hcut'
    rw [if_neg (by simp), if_pos (by decide)] at hsecond
    rw [found_twoByte 1 (fuel + 1) hcut, if_neg (by simp), if_neg (by decide)]
    simpa using hsecond

/-- Elements for the runs of padding, with the misread one behind the first odd run. -/
def misreadIn (form : ElementForm) : List ℕ → List Element
  | [] => []
  | pad :: pads =>
    if pad % 2 = 0 then filler :: form.misreadIn pads else form.misread :: pads.map fun _ => filler

theorem length_misreadIn : ∀ pads : List ℕ, (form.misreadIn pads).length = pads.length
  | [] => rfl
  | pad :: pads => by
    rw [misreadIn]
    split_ifs
    · rw [List.length_cons, List.length_cons, length_misreadIn pads]
    · rw [List.length_cons, List.length_cons, List.length_map]

theorem valid_misreadIn : ∀ (pads : List ℕ), ∀ e ∈ form.misreadIn pads, form.Valid e
  | [], e, he => nomatch he
  | pad :: pads, e, he => by
    rw [misreadIn] at he
    split_ifs at he
    · rcases List.mem_cons.1 he with rfl | he
      · exact form.valid_filler
      · exact valid_misreadIn pads e he
    · rcases List.mem_cons.1 he with rfl | he
      · exact form.valid_misread
      · obtain ⟨-, -, rfl⟩ := List.mem_map.1 he
        exact form.valid_filler

theorem filler_id : filler.id.toUInt16 ≠ 1 := by decide

theorem misread_id : form.misread.id.toUInt16 = 1 := by
  cases form <;> rfl

theorem length_misread : form.misread.data.length = 2 := by
  cases form <;> rfl

/-- A last padding byte by itself is an element that is cut off, in the one-byte form. -/
theorem found_oneByte_single {fuel : ℕ} (hblock : blk = pre ++ [0]) :
    oneByte.found blk id (fuel + 1) pre.length = .error (elementTruncated "one-byte" pre.length) := by
  rw [found_oneByte id fuel hblock, if_pos (by simp)]

/-- With a run that is not of pairs, the misread element is not found as it is, or an id that no
element has is not reported as such. -/
theorem found_misreadIn (last : ℕ) : ∀ (pads : List ℕ) {pre : List UInt8} {fuel : ℕ},
    (∃ pad ∈ pads, pad % 2 = 1) ∨ (form = oneByte ∧ last % 2 = 1) → blk = pre ++ form.block (pads.zip (form.misreadIn pads)) last →
    blk.length ≤ pre.length + fuel →
    form.found blk 1 fuel pre.length ≠ firstWithId (form.misreadIn pads) 1
  | [], pre, fuel, hodd, hblock, hfuel => by
    obtain ⟨rfl, hlast⟩ : form = oneByte ∧ last % 2 = 1 := hodd.resolve_left (by simp)
    obtain ⟨k, rfl⟩ : ∃ k, last = 2 * k + 1 := ⟨last / 2, by omega⟩
    rw [List.zip_nil_left, block, List.replicate_succ'] at hblock
    obtain ⟨fuel', hfuel', hfound⟩ := found_pairs oneByte 1 k hblock hfuel
    have hstart : pre.length + 2 * k = (pre ++ List.replicate (2 * k) 0).length := by simp
    rw [← List.append_assoc] at hblock
    rw [hstart] at hfuel' hfound
    have hlength := congrArg List.length hblock
    rw [List.length_append, List.length_singleton] at hlength
    obtain ⟨fuel', rfl⟩ : ∃ m, fuel' = m + 1 := ⟨fuel' - 1, by omega⟩
    rw [hfound, found_oneByte_single 1 hblock]
    intro heq
    cases congrArg RtpError.code (Except.error.inj heq)
  | pad :: pads, pre, fuel, hodd, hblock, hfuel => by
    rw [misreadIn] at hblock ⊢
    split_ifs at hblock ⊢ with heven
    · -- the run is of pairs, so the element behind it is passed over
      obtain ⟨k, rfl⟩ : ∃ k, pad = 2 * k := ⟨pad / 2, by omega⟩
      have hlater : (∃ pad ∈ pads, pad % 2 = 1) ∨ (form = oneByte ∧ last % 2 = 1) := by
        refine hodd.imp_left fun ⟨pad, hpad, hone⟩ => ?_
        rcases List.mem_cons.1 hpad with rfl | hpad
        · omega
        · exact ⟨pad, hpad, hone⟩
      rw [List.zip_cons_cons, block] at hblock
      obtain ⟨fuel', hfuel', hfound⟩ := found_pairs form 1 k hblock hfuel
      have hstart : pre.length + 2 * k = (pre ++ List.replicate (2 * k) 0).length := by simp
      rw [← List.append_assoc] at hblock
      rw [hstart] at hfuel' hfound
      generalize pre ++ List.replicate (2 * k) 0 = pre at hblock hfuel' hfound
      have hlength := congrArg List.length hblock
      have hsome : 1 ≤ (form.encode filler).length := by cases form <;> simp [encode]
      rw [List.length_append, List.length_append] at hlength
      obtain ⟨fuel', rfl⟩ : ∃ m, fuel' = m + 1 := ⟨fuel' - 1, by omega⟩
      rw [hfound, found_element form 1 fuel' form.valid_filler hblock, firstWithId_cons,
        if_neg filler_id, if_neg filler_id]
      refine found_misreadIn last pads hlater ?_ ?_
      · rw [hblock, List.append_assoc]
      · rw [List.length_append]
        omega
    · -- the last byte of the run takes the first one of the element
      obtain ⟨k, rfl⟩ : ∃ k, pad = 2 * k + 1 := ⟨pad / 2, by omega⟩
      rw [List.zip_cons_cons, block, List.replicate_succ', List.append_assoc] at hblock
      obtain ⟨fuel', hfuel', hfound⟩ := found_pairs form 1 k hblock hfuel
      have hstart : pre.length + 2 * k = (pre ++ List.replicate (2 * k) 0).length := by simp
      rw [← List.append_assoc] at hblock
      rw [hstart] at hfuel' hfound
      obtain ⟨data, hdata, hshort⟩ := found_misread form hblock hfuel'
      rw [hfound, hdata, firstWithId_cons, if_pos form.misread_id]
      intro heq
      rw [Except.ok.inj heq, length_misread] at hshort
      omega

theorem block_ne_nil {layout : List (ℕ × Element)} {last : ℕ} :
    form.block layout last ≠ [] ↔ layout ≠ [] ∨ last ≠ 0 := by
  cases layout with
  | nil => simp [block]
  | cons x later =>
    obtain ⟨pad, e⟩ := x
    cases form <;> simp [block, encode]

theorem findExtensionElement_eq {blk : List UInt8} (hsome : blk ≠ []) (id : UInt16) :
    findExtensionElement blk form.profile id = form.found blk id blk.length 0 := by
  rw [findExtensionElement, locateExtensionElement, if_neg hsome]
  cases form <;> rfl

/-- Padding in front of every element that is searched past is of pairs. -/
theorem pairedUpTo_of_even (id : UInt16) {last : ℕ} (hlast : form = oneByte → last % 2 = 0) :
    ∀ {layout : List (ℕ × Element)}, (∀ x ∈ layout, x.1 % 2 = 0) → form.PairedUpTo id layout last
  | [], _ => hlast
  | _ :: _, h => ⟨h _ List.mem_cons_self, fun _ =>
      pairedUpTo_of_even id hlast fun x hx => h x (List.mem_cons_of_mem _ hx)⟩

theorem find_of_pairedUpTo {layout : List (ℕ × Element)} {last : ℕ} {id : UInt16}
    (hvalid : ∀ x ∈ layout, form.Valid x.2) (hsome : layout ≠ [] ∨ last ≠ 0)
    (hpairs : form.PairedUpTo id layout last) :
    findExtensionElement (form.block layout last) form.profile id
      = firstWithId (layout.map Prod.snd) id := by
  rw [findExtensionElement_eq form (form.block_ne_nil.2 hsome)]
  exact found_block form id last layout hvalid hpairs (List.nil_append _).symm (Nat.zero_add _).ge

/-- Some elements laid out with a run that is not of pairs are not found as they are. -/
theorem find_misreadIn {pads : List ℕ} {last : ℕ}
    (hodd : (∃ pad ∈ pads, pad % 2 = 1) ∨ (form = oneByte ∧ last % 2 = 1)) :
    findExtensionElement (form.block (pads.zip (form.misreadIn pads)) last) form.profile 1
      ≠ firstWithId (form.misreadIn pads) 1 := by
  have hsome : form.block (pads.zip (form.misreadIn pads)) last ≠ [] := by
    refine form.block_ne_nil.2 ?_
    rcases hodd with ⟨pad, hpad, -⟩ | ⟨-, hlast⟩
    · refine .inl fun hnil => ?_
      have hlength := congrArg List.length hnil
      rw [List.length_zip, length_misreadIn, min_self, List.length_nil] at hlength
      rw [List.eq_nil_of_length_eq_zero hlength] at hpad
      cases hpad
    · exact .inr (by omega)
  rw [findExtensionElement_eq form hsome]
  exact found_misreadIn form last pads hodd (List.nil_append _).symm (Nat.zero_add _).ge

theorem find_empty (id : UInt16) :
    findExtensionElement (form.block [] 0) form.profile id ≠ firstWithId [] id := by
  intro heq
  cases congrArg RtpError.code (Except.error.inj heq)

/-- However elements are padded, they are all found as they are if and only if every run of padding
that has something to be read behind it is of pairs, and there is a block at all. For a given search
only the runs that it passes matter. -/
theorem find_padded (pads : List ℕ) (last : ℕ) :
    ((∀ elems : List Element, elems.length = pads.length → (∀ e ∈ elems, form.Valid e) → ∀ id,
        findExtensionElement (form.block (pads.zip elems) last) form.profile id = firstWithId elems id)
      ↔ (∀ pad ∈ pads, pad % 2 = 0) ∧ (form = oneByte → last % 2 = 0) ∧ (pads ≠ [] ∨ last ≠ 0))
    ∧ ∀ (elems : List Element) (id : UInt16), elems.length = pads.length →
      (∀ e ∈ elems, form.Valid e) → pads ≠ [] ∨ last ≠ 0 → form.PairedUpTo id (pads.zip elems) last →
      findExtensionElement (form.block (pads.zip elems) last) form.profile id
        = firstWithId elems id := by
  have hpaired : ∀ (elems : List Element) (id : UInt16), elems.length = pads.length →
      (∀ e ∈ elems, form.Valid e) → pads ≠ [] ∨ last ≠ 0 → form.PairedUpTo id (pads.zip elems) last →
      findExtensionElement (form.block (pads.zip elems) last) form.profile id
        = firstWithId elems id := by
    intro elems id hlength hvalid hsome hpairs
    have helems : (pads.zip elems).map Prod.snd = elems := List.map_snd_zip hlength.le
    have hfind := @find_of_pairedUpTo form (pads.zip elems) last id
      (fun x hx => hvalid x.2 (List.of_mem_zip hx).2) ?_ hpairs
    · rwa [helems] at hfind
    · refine hsome.imp_left fun hpads hzip => hpads (List.eq_nil_of_length_eq_zero ?_)
      have hzero := congrArg List.length hzip
      rw [List.length_zip, hlength, min_self, List.length_nil] at hzero
      exact hzero
  refine ⟨⟨fun hall => ?_, fun ⟨heven, hlast, hsome⟩ elems hlength hvalid id => ?_⟩, hpaired⟩
  · have hmisread := hall (form.misreadIn pads) (form.length_misreadIn pads)
      (form.valid_misreadIn pads) 1
    refine ⟨fun pad hpad => ?_, fun hform => ?_, ?_⟩
    · by_contra hodd
      exact form.find_misreadIn (.inl ⟨pad, hpad, by omega⟩) hmisread
    · by_contra hodd
      exact form.find_misreadIn (.inr ⟨hform, by omega⟩) hmisread
    · by_contra hnone
      rw [not_or, not_not, not_not] at hnone
      obtain ⟨rfl, rfl⟩ := hnone
      exact form.find_empty 1 hmisread
  · refine hpaired elems id hlength hvalid hsome (form.pairedUpTo_of_even id hlast fun x hx => ?_)
    exact heven x.1 (List.of_mem_zip hx).1

/-- Two elements with a pair of padding bytes between them, and a third one that is not reached. -/
theorem find_padded_two :
    findExtensionElement [0x20, 9, 0, 0, 0x11, 7, 8, 0] kExtProfileOneByte 1 = .ok [7, 8] :=
  (find_padded oneByte [0, 2] 1).2 [⟨2, [9]⟩, ⟨1, [7, 8]⟩] 1 rfl
    (by
      intro e he
      simp only [List.mem_cons, List.not_mem_nil, or_false] at he
      rcases he with rfl | rfl <;> exact ⟨by decide, by decide, by decide⟩)
    (.inl (by decide)) ⟨rfl, fun _ => ⟨rfl, fun hne => absurd rfl hne⟩⟩

/-- A single padding byte between two elements hides the second. -/
theorem single_padding_misread :
    ¬ ∀ (form : ElementForm) (layout : List (ℕ × Element)) (last : ℕ) (id : UInt16),
      (∀ x ∈ layout, form.Valid x.2) →
        findExtensionElement (form.block layout last) form.profile id
          = firstWithId (layout.map Prod.snd) id := by
  intro h
  have hfind := h oneByte [(0, ⟨2, [9]⟩), (1, ⟨1, [0x10, 0]⟩)] 0 1 (by
    intro x hx
    simp only [List.mem_cons, List.not_mem_nil, or_false] at hx
    rcases hx with rfl | rfl <;> exact ⟨by decide, by decide, by decide⟩)
  have hleft : findExtensionElement [0x20, 9, 0, 0x11, 0x10, 0] kExtProfileOneByte 1 = .ok [0] := by
    decide
  rw [show oneByte.block [(0, ⟨2, [9]⟩), (1, ⟨1, [0x10, 0]⟩)] 0 = [0x20, 9, 0, 0x11, 0x10, 0] from by
    decide] at hfind
  cases Except.ok.inj (hleft.symm.trans hfind)

end ElementForm

end NimRtc.Rtp
