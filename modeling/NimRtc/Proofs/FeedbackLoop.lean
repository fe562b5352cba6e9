import NimRtc.FeedbackBridge
import NimRtc.Proofs.VideoFeedback

/-!
# Feedback reaches the sender

The distances from the first lost number are sorted and cut into runs of at most 17, so unpacking
lists the lost numbers once each, in that order. A new entry starts at least 17 after the one before
it, so there are fewer entries than the length field can count.
-/

namespace NimRtc

namespace VideoRtcpFeedback

/-! ### Distances -/

section Distances

variable (anchor : UInt16)

theorem numberAt_seqDelta (s : UInt16) : numberAt anchor (seqDelta anchor s) = s := by
  have ha := anchor.toNat_lt
  have hs := s.toNat_lt
  have hmod : ((anchor.toNat + seqDelta anchor s) % 65536).toNat = s.toNat := by
    simp only [seqDelta]
    split <;> omega
  rw [numberAt, hmod, UInt16.ofNat_toNat]

theorem numberAt_add (d : ℤ) (n : ℕ) :
    numberAt anchor (d + n) = numberAt anchor d + UInt16.ofNat n := by
  rw [numberAt, numberAt, ← UInt16.ofNat_add]
  apply UInt16.toNat_inj.1
  simp only [UInt16.toNat_ofNat']
  omega

theorem seqDelta_bounds (s : UInt16) : -65535 ≤ seqDelta anchor s ∧ seqDelta anchor s ≤ 32767 := by
  have ha := anchor.toNat_lt
  have hs := s.toNat_lt
  simp only [seqDelta]
  split <;> omega

end Distances

theorem mem_unique : ∀ (ds : List ℤ) (d : ℤ), d ∈ unique ds ↔ d ∈ ds
  | [], d => Iff.rfl
  | [a], d => Iff.rfl
  | a :: b :: ds, d => by
    rw [unique]
    split_ifs with hab
    · rw [mem_unique, hab]
      simp
    · simp only [List.mem_cons, mem_unique]

/-- `std::unique` leaves a sorted list without repetitions. -/
theorem pairwise_unique : ∀ ds : List ℤ, ds.Pairwise (· ≤ ·) → (unique ds).Pairwise (· < ·)
  | [], _ => List.Pairwise.nil
  | [a], _ => List.pairwise_singleton _ _
  | a :: b :: ds, h => by
    obtain ⟨ha, hrest⟩ := List.pairwise_cons.1 h
    have ih := pairwise_unique (b :: ds) hrest
    rw [unique]
    split_ifs with hab
    · exact ih
    · refine List.pairwise_cons.2 ⟨fun d hd => ?_, ih⟩
      have hab' : a < b := lt_of_le_of_ne (ha b List.mem_cons_self) hab
      rcases List.mem_cons.1 ((mem_unique _ _).1 hd) with rfl | hd
      · exact hab'
      · exact hab'.trans_le ((List.pairwise_cons.1 hrest).1 d hd)

/-! ### The bit mask -/

/-- The bits of a mask. -/
def bits (blp : UInt16) : List ℕ :=
  (List.range 16).filter fun bit => blp &&& (1 : UInt16) <<< UInt16.ofNat bit ≠ 0

theorem toNat_one_shiftLeft {k : ℕ} (h : k < 16) :
    ((1 : UInt16) <<< UInt16.ofNat k).toNat = 2 ^ k := by
  revert k
  decide

theorem and_shift_ne_zero {blp : UInt16} {k : ℕ} (h : k < 16) :
    blp &&& (1 : UInt16) <<< UInt16.ofNat k ≠ 0 ↔ blp.toNat.testBit k = true := by
  rw [ne_eq, ← UInt16.toNat_inj, UInt16.toNat_and, toNat_one_shiftLeft h, Nat.and_two_pow]
  cases blp.toNat.testBit k <;> simp

theorem bits_eq (blp : UInt16) : bits blp = (List.range 16).filter blp.toNat.testBit := by
  refine List.filter_congr fun k hk => ?_
  rw [Bool.eq_iff_iff, decide_eq_true_iff]
  exact and_shift_ne_zero (List.mem_range.1 hk)

theorem bits_zero : bits 0 = [] := by decide

/-- A number above the others comes last. -/
theorem filter_range_or {p : ℕ → Bool} {n k : ℕ} (hk : k < n) (hbelow : ∀ j < n, p j → j < k) :
    (List.range n).filter (fun j => p j || k == j) = (List.range n).filter p ++ [k] := by
  have hcut : List.range n = List.range k ++ k :: (List.range (n - (k + 1))).map (k + 1 + ·) := by
    rw [← List.singleton_append, ← List.append_assoc, ← List.range_succ, ← List.range_add]
    congr 1
    omega
  have hlow : (List.range k).filter (fun j => p j || k == j) = (List.range k).filter p := by
    refine List.filter_congr fun j hj => ?_
    rw [beq_false_of_ne (List.mem_range.1 hj).ne', Bool.or_false]
  have hhigh : ∀ j ∈ (List.range (n - (k + 1))).map (k + 1 + ·), p j = false ∧ (k == j) = false := by
    intro j hj
    obtain ⟨i, hi, rfl⟩ := List.mem_map.1 hj
    have hi := List.mem_range.1 hi
    refine ⟨Bool.eq_false_iff.2 fun hp => ?_, beq_false_of_ne (by omega)⟩
    have := hbelow _ (by omega) hp
    omega
  have hk' : p k = false := Bool.eq_false_iff.2 fun hp => lt_irrefl k (hbelow k hk hp)
  have hnone : ((List.range (n - (k + 1))).map (k + 1 + ·)).filter p = [] :=
    List.filter_eq_nil_iff.2 fun j hj => by simp [hhigh j hj]
  have hnone' : ((List.range (n - (k + 1))).map (k + 1 + ·)).filter (fun j => p j || k == j) = [] :=
    List.filter_eq_nil_iff.2 fun j hj => by simp [hhigh j hj]
  rw [hcut, List.filter_append, List.filter_append, hlow, List.filter_cons_of_pos (by simp),
    List.filter_cons_of_neg (by simp [hk']), hnone, hnone', List.append_nil]

theorem bits_or (blp : UInt16) {k : ℕ} (hk : k < 16) (hbelow : ∀ j ∈ bits blp, j < k) :
    bits (blp ||| (1 : UInt16) <<< UInt16.ofNat k) = bits blp ++ [k] := by
  rw [bits_eq] at hbelow
  have hor : (blp ||| (1 : UInt16) <<< UInt16.ofNat k).toNat.testBit
      = fun j => blp.toNat.testBit j || k == j := by
    funext j
    rw [UInt16.toNat_or, toNat_one_shiftLeft hk, Nat.testBit_or, Nat.testBit_two_pow]
    rfl
  rw [bits_eq, bits_eq, hor]
  refine filter_range_or hk fun j hj hbit => hbelow j (List.mem_filter.2 ⟨List.mem_range.2 hj, hbit⟩)

/-! ### Packing and unpacking -/

section Packing

variable (anchor : UInt16)

theorem unpackEntry_eq (pid : ℤ) (blp : UInt16) :
    unpackEntry ⟨numberAt anchor pid, blp⟩
      = numberAt anchor pid :: (bits blp).map fun bit : ℕ => numberAt anchor (pid + bit + 1) := by
  rw [unpackEntry]
  congr 1
  refine List.map_congr_left fun bit _ => ?_
  rw [← numberAt_add]
  exact (numberAt_add anchor (pid + bit) 1).symm

/-- Unpacking lists the numbers of the entry in progress, and then the others in order. -/
theorem unpack_packFrom : ∀ (ds : List ℤ) (pid : ℤ) (blp : UInt16), ds.Pairwise (· < ·) →
    (∀ d ∈ ds, pid < d) → (∀ d ∈ ds, ∀ j ∈ bits blp, pid + j + 1 < d) →
    (packFrom anchor pid blp ds).flatMap unpackEntry
      = unpackEntry ⟨numberAt anchor pid, blp⟩ ++ ds.map (numberAt anchor)
  | [], pid, blp, _, _, _ => by
    rw [packFrom, List.flatMap_singleton, List.map_nil, List.append_nil]
  | d :: ds, pid, blp, hsorted, habove, hbits => by
    obtain ⟨hd, hrest⟩ := List.pairwise_cons.1 hsorted
    have hpid := habove d List.mem_cons_self
    rw [packFrom]
    split_ifs with hfar
    · -- a new entry
      have ih := unpack_packFrom ds d 0 hrest hd (by simp [bits_zero])
      rw [List.flatMap_cons, ih, unpackEntry_eq anchor d, bits_zero, List.map_nil, List.map_cons,
        List.singleton_append]
    · -- a bit of the entry in progress
      obtain ⟨k, hk⟩ : ∃ k : ℕ, d = pid + k + 1 := ⟨(d - pid - 1).toNat, by omega⟩
      have hoff : (d - pid - 1).toNat = k := by omega
      have hnew := bits_or blp (k := k) (by omega) fun j hj => by
        have := hbits d List.mem_cons_self j hj
        omega
      have ih := unpack_packFrom ds pid (blp ||| (1 : UInt16) <<< UInt16.ofNat k) hrest
        (fun e he => hpid.trans (hd e he)) fun e he j hj => by
          rw [hnew, List.mem_append, List.mem_singleton] at hj
          rcases hj with hj | rfl
          · exact hbits e (List.mem_cons_of_mem _ he) j hj
          · rw [← hk]
            exact hd e he
      rw [hoff, ih, unpackEntry_eq, unpackEntry_eq, hnew, List.map_append, List.map_cons, hk]
      simp

/-- Entries start at least 17 apart. -/
theorem length_packFrom (hi : ℤ) : ∀ (ds : List ℤ) (pid : ℤ) (blp : UInt16),
    ds.Pairwise (· < ·) → (∀ d ∈ ds, pid < d ∧ d ≤ hi) → pid ≤ hi →
    17 * ((packFrom anchor pid blp ds).length : ℤ) ≤ hi - pid + 17
  | [], pid, blp, _, _, hpid => by
    rw [packFrom, List.length_singleton]
    omega
  | d :: ds, pid, blp, hsorted, habove, hpid => by
    obtain ⟨hd, hrest⟩ := List.pairwise_cons.1 hsorted
    obtain ⟨hlow, hhigh⟩ := habove d List.mem_cons_self
    have hle : ∀ e ∈ ds, e ≤ hi := fun e he => (habove e (List.mem_cons_of_mem _ he)).2
    rw [packFrom]
    split_ifs with hfar
    · have ih := length_packFrom hi ds d 0 hrest (fun e he => ⟨hd e he, hle e he⟩) hhigh
      rw [List.length_cons]
      omega
    · exact length_packFrom hi ds pid _ hrest (fun e he => ⟨hlow.trans (hd e he), hle e he⟩) hpid

end Packing

/-- The distances that are packed. -/
def distances (anchor : UInt16) (seqs : List UInt16) : List ℤ :=
  unique ((seqs.map (seqDelta anchor)).insertionSort (· ≤ ·))

theorem mem_distances {anchor : UInt16} {seqs : List UInt16} {d : ℤ} :
    d ∈ distances anchor seqs ↔ ∃ s ∈ seqs, seqDelta anchor s = d := by
  rw [distances, mem_unique, List.mem_insertionSort, List.mem_map]

theorem pairwise_distances (anchor : UInt16) (seqs : List UInt16) :
    (distances anchor seqs).Pairwise (· < ·) := by
  exact pairwise_unique _ (List.pairwise_insertionSort _ _)

/-- A list that is not empty is packed from the least distance on. -/
theorem packNackEntries_cons (anchor : UInt16) (rest : List UInt16) :
    ∃ d ds, distances anchor (anchor :: rest) = d :: ds
      ∧ packNackEntries (anchor :: rest) = packFrom anchor d 0 ds := by
  cases hds : distances anchor (anchor :: rest) with
  | nil =>
    have hmem := (@mem_distances anchor (anchor :: rest) _).2 ⟨anchor, List.mem_cons_self, rfl⟩
    rw [hds] at hmem
    cases hmem
  | cons d ds =>
    rw [distances] at hds
    exact ⟨d, ds, rfl, by simp only [packNackEntries, hds]⟩

/-- Unpacking gives the numbers at the distances. -/
theorem unpack_packNackEntries (anchor : UInt16) (rest : List UInt16) :
    (packNackEntries (anchor :: rest)).flatMap unpackEntry
      = (distances anchor (anchor :: rest)).map (numberAt anchor) := by
  obtain ⟨d, ds, hds, hpack⟩ := packNackEntries_cons anchor rest
  have hsorted := pairwise_distances anchor (anchor :: rest)
  rw [hds] at hsorted
  obtain ⟨hd, hrest⟩ := List.pairwise_cons.1 hsorted
  rw [hpack, hds, unpack_packFrom anchor ds d 0 hrest hd (by simp [bits_zero]), unpackEntry_eq,
    bits_zero, List.map_nil, List.map_cons, List.singleton_append]

/-- The lost numbers are unpacked once each, and there are few entries. -/
theorem packNackEntries_spec (seqs : List UInt16) (hsome : seqs ≠ []) :
    let entries := packNackEntries seqs
    1 ≤ entries.length ∧ entries.length ≤ 8190 ∧ (entries.flatMap unpackEntry).Nodup
      ∧ ∀ s, s ∈ entries.flatMap unpackEntry ↔ s ∈ seqs := by
  obtain ⟨anchor, rest, rfl⟩ := List.exists_cons_of_ne_nil hsome
  have hmem := @mem_distances anchor (anchor :: rest)
  have hsorted := pairwise_distances anchor (anchor :: rest)
  have hlist := unpack_packNackEntries anchor rest
  obtain ⟨d, ds, hds, hpack⟩ := packNackEntries_cons anchor rest
  have hbounds : ∀ e ∈ d :: ds, -65535 ≤ e ∧ e ≤ 32767 := fun e he => by
    obtain ⟨s, -, rfl⟩ := hmem.1 (hds ▸ he)
    exact seqDelta_bounds anchor s
  have hcount : (packNackEntries (anchor :: rest)).length ≤ 8190 := by
    rw [hds] at hsorted
    obtain ⟨hd, hrest⟩ := List.pairwise_cons.1 hsorted
    have hlength := length_packFrom anchor 32767 ds d 0 hrest
      (fun e he => ⟨hd e he, (hbounds e (List.mem_cons_of_mem _ he)).2⟩)
      (hbounds d List.mem_cons_self).2
    have hlow := (hbounds d List.mem_cons_self).1
    rw [hpack]
    omega
  simp only [hlist]
  refine ⟨?_, hcount, ?_, fun s => ?_⟩
  · refine List.length_pos_iff.2 fun hnil => ?_
    rw [hnil, hds] at hlist
    cases hlist
  · -- a number determines its distance, so the numbers are distinct as the distances are
    refine List.Nodup.map_on (fun a ha b hb hab => ?_) (hsorted.imp fun h => h.ne)
    obtain ⟨s, -, rfl⟩ := hmem.1 ha
    obtain ⟨t, -, rfl⟩ := hmem.1 hb
    rw [numberAt_seqDelta, numberAt_seqDelta] at hab
    rw [hab]
  · rw [List.mem_map]
    constructor
    · rintro ⟨e, he, rfl⟩
      obtain ⟨t, ht, rfl⟩ := hmem.1 he
      rwa [numberAt_seqDelta]
    · intro hs
      exact ⟨seqDelta anchor s, hmem.2 ⟨s, hs, rfl⟩, numberAt_seqDelta anchor s⟩

end VideoRtcpFeedback

open VideoRtcpFeedback

/-! ### Writing -/

section Writing

variable (feedback : ReceiverFeedback) (senderSsrc mediaSsrc : UInt32)

end Writing

/-! ### Answering -/

/-- What the loop takes off the compound at once. -/
structure IsPacket (packet : List UInt8) (calls : List FeedbackCall) : Prop where
  header_le : kRtcpHeaderSize ≤ packet.length
  length_eq : ∀ rest, declaredBytes (packet ++ rest) = packet.length
  calls_eq : feedbackCalls packet = .ok calls

end NimRtc
