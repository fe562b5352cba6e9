import NimRtc.Proofs.FeedbackLoop

/-!
# NACK packing

What is packed is unpacked. The distances are corrected for the wrap on one side of the first number
only: a number that comes after it but lies below it, as 65535 was passed on the way, gets a distance
that is 65536 too low, and is packed in front of the others. Which number the packing starts with
shows where this happens.
-/

namespace NimRtc.VideoRtcpFeedback

/-- Unpacking gives every number that was packed, and nothing else, and each once. -/
theorem unpack_pack (seqs : List UInt16) (senderSsrc mediaSsrc : UInt32) :
    (∀ s, s ∈ unpackNackEntries ⟨senderSsrc, mediaSsrc, packNackEntries seqs⟩ ↔ s ∈ seqs)
      ∧ (unpackNackEntries ⟨senderSsrc, mediaSsrc, packNackEntries seqs⟩).Nodup := by
  cases seqs with
  | nil => exact ⟨fun s => Iff.rfl, List.nodup_nil⟩
  | cons anchor rest =>
    obtain ⟨-, -, hnodup, hmem⟩ := packNackEntries_spec (anchor :: rest) (List.cons_ne_nil _ _)
    exact ⟨hmem, hnodup⟩

/-! ### The wrap -/

/-- `s` comes after `anchor` modulo `2^16`, but lies below it. -/
def WrapsPast (anchor s : UInt16) : Prop := s < anchor ∧ (s - anchor).toNat < 2 ^ 15

instance (anchor s : UInt16) : Decidable (WrapsPast anchor s) :=
  inferInstanceAs (Decidable (_ ∧ _))

theorem wrapsPast_iff {anchor s : UInt16} :
    WrapsPast anchor s
      ↔ (s - anchor).toNat < 2 ^ 15 ∧ 2 ^ 16 ≤ anchor.toNat + (s - anchor).toNat := by
  have ha := anchor.toNat_lt
  have hs := s.toNat_lt
  rw [WrapsPast, UInt16.lt_iff_toNat_lt, UInt16.toNat_sub]
  omega

/-- A distance below `2^15` is kept unless the wrap lies between. -/
theorem seqDelta_eq (anchor s : UInt16) :
    seqDelta anchor s
      = if (s - anchor).toNat < 2 ^ 15 ∧ ¬ WrapsPast anchor s then ((s - anchor).toNat : ℤ)
        else (s - anchor).toNat - 2 ^ 16 := by
  have ha := anchor.toNat_lt
  have hs := s.toNat_lt
  simp only [seqDelta, wrapsPast_iff, UInt16.toNat_sub]
  split_ifs <;> omega

theorem add_sub_add_right (anchor s k : UInt16) : (s + k) - (anchor + k) = s - anchor := by
  rw [add_sub_add_right_eq_sub]

/-! ### Shifting -/

def NackEntry.shift (k : UInt16) (e : NackEntry) : NackEntry := { e with pid := e.pid + k }

theorem numberAt_shift (anchor k : UInt16) (d : ℤ) :
    numberAt (anchor + k) d = numberAt anchor d + k := by
  have ha := anchor.toNat_lt
  have hk := k.toNat_lt
  apply UInt16.toNat_inj.1
  simp only [numberAt, UInt16.toNat_add, UInt16.toNat_ofNat']
  omega

theorem packFrom_shift (anchor k : UInt16) : ∀ (ds : List ℤ) (pid : ℤ) (blp : UInt16),
    packFrom (anchor + k) pid blp ds = (packFrom anchor pid blp ds).map (NackEntry.shift k)
  | [], pid, blp => by simp [packFrom, NackEntry.shift, numberAt_shift]
  | d :: ds, pid, blp => by
    rw [packFrom, packFrom]
    split_ifs
    · rw [List.map_cons, packFrom_shift anchor k ds, NackEntry.shift, numberAt_shift]
    · exact packFrom_shift anchor k ds pid _

theorem packFrom_head (anchor : UInt16) : ∀ (ds : List ℤ) (pid : ℤ) (blp : UInt16),
    ∃ e es, packFrom anchor pid blp ds = e :: es ∧ e.pid = numberAt anchor pid
  | [], pid, blp => ⟨_, [], rfl, rfl⟩
  | d :: ds, pid, blp => by
    rw [packFrom]
    split_ifs
    · exact ⟨_, _, rfl, rfl⟩
    · exact packFrom_head anchor ds pid _

/-- The first entry starts with a number of the least distance. -/
theorem packNackEntries_head (anchor : UInt16) (rest : List UInt16) :
    ∃ e es, packNackEntries (anchor :: rest) = e :: es ∧ e.pid ∈ anchor :: rest
      ∧ ∀ s ∈ anchor :: rest, seqDelta anchor e.pid ≤ seqDelta anchor s := by
  have hmem := @mem_distances anchor (anchor :: rest)
  have hsorted := pairwise_distances anchor (anchor :: rest)
  obtain ⟨d, ds, hds, hcons⟩ := packNackEntries_cons anchor rest
  rw [hds] at hmem hsorted
  obtain ⟨e, es, hpack, hpid⟩ := packFrom_head anchor ds d 0
  obtain ⟨t, ht, rfl⟩ := hmem.1 List.mem_cons_self
  rw [numberAt_seqDelta] at hpid
  refine ⟨e, es, hcons.trans hpack, by rwa [hpid], fun s hs => ?_⟩
  rw [hpid]
  rcases List.mem_cons.1 (hmem.2 ⟨s, hs, rfl⟩) with heq | hlater
  · exact heq.ge
  · exact ((List.pairwise_cons.1 hsorted).1 _ hlater).le

theorem seqDelta_self (anchor : UInt16) : seqDelta anchor anchor = 0 := by
  simp [seqDelta]

/-- If the same number of a list has the least distance before and after shifting, then the wrap lies
before the same numbers. -/
theorem wrapsPast_shift_of_least {anchor k x : UInt16} {seqs : List UInt16} (ha : anchor ∈ seqs)
    (hleast : ∀ s ∈ seqs, seqDelta anchor x ≤ seqDelta anchor s)
    (hleast' : ∀ s ∈ seqs, seqDelta (anchor + k) (x + k) ≤ seqDelta (anchor + k) (s + k))
    {s : UInt16} (hs : s ∈ seqs) :
    WrapsPast anchor s ↔ WrapsPast (anchor + k) (s + k) := by
  have hx₀ := hleast anchor ha
  have hx₀' := hleast' anchor ha
  have hxs := hleast s hs
  have hxs' := hleast' s hs
  have hlow : (x - anchor).toNat < 2 ^ 16 := (x - anchor).toNat_lt
  have hlow' : (s - anchor).toNat < 2 ^ 16 := (s - anchor).toNat_lt
  have hanchor := anchor.toNat_lt
  have hanchor' := (anchor + k).toNat_lt
  rw [seqDelta_self] at hx₀ hx₀'
  simp only [seqDelta_eq, wrapsPast_iff, add_sub_add_right] at hx₀ hx₀' hxs hxs' ⊢
  split_ifs at hx₀ hx₀' hxs hxs' <;> omega

/-- Packing moves with the numbers if and only if the wrap stays in front of the same ones. -/
theorem packNackEntries_shift_iff (seqs : List UInt16) (k : UInt16) :
    packNackEntries (seqs.map (· + k)) = (packNackEntries seqs).map (NackEntry.shift k)
      ↔ ∀ anchor ∈ seqs.head?, ∀ s ∈ seqs,
        (WrapsPast anchor s ↔ WrapsPast (anchor + k) (s + k)) := by
  cases seqs with
  | nil => simp [packNackEntries]
  | cons anchor rest =>
    simp only [List.head?_cons, Option.mem_some, forall_eq']
    constructor
    · intro h s hs
      obtain ⟨e, es, hpack, hpid, hleast⟩ := packNackEntries_head anchor rest
      obtain ⟨e', es', hpack', -, hleast'⟩ := packNackEntries_head (anchor + k) (rest.map (· + k))
      rw [List.map_cons, hpack', hpack, List.map_cons] at h
      have hpid' : e'.pid = e.pid + k := congrArg NackEntry.pid (List.cons.inj h).1
      rw [hpid'] at hleast'
      refine wrapsPast_shift_of_least List.mem_cons_self hleast (fun t ht => hleast' _ ?_) hs
      exact List.mem_map_of_mem (f := (· + k)) ht
    · intro h
      have hdeltas : (((anchor :: rest).map (· + k)).map (seqDelta (anchor + k)))
          = (anchor :: rest).map (seqDelta anchor) := by
        rw [List.map_map]
        refine List.map_congr_left fun s hs => ?_
        simp only [Function.comp_apply, seqDelta_eq, add_sub_add_right, h s hs]
      have hdistances : distances (anchor + k) ((anchor :: rest).map (· + k))
          = distances anchor (anchor :: rest) := by
        rw [distances, hdeltas, distances]
      rw [List.map_cons] at hdistances
      obtain ⟨d, ds, hds, hpack⟩ := packNackEntries_cons anchor rest
      obtain ⟨d', ds', hds', hpack'⟩ := packNackEntries_cons (anchor + k) (rest.map (· + k))
      obtain ⟨rfl, rfl⟩ := List.cons.inj (hds'.symm.trans (hdistances.trans hds))
      rw [hpack, List.map_cons, hpack']
      exact packFrom_shift anchor k _ _ 0

/-- A burst across the wrap takes an entry more than the same burst after it. -/
theorem not_packNackEntries_shift :
    ¬ ∀ (seqs : List UInt16) (k : UInt16), (∃ low, ∀ s ∈ seqs, (s - low).toNat < 2 ^ 15) →
      packNackEntries (seqs.map (· + k)) = (packNackEntries seqs).map (NackEntry.shift k) := by
  intro h
  exact absurd (h [65535, 0] 1 ⟨65535, by simp [UInt16.size]⟩) (by decide)

end NimRtc.VideoRtcpFeedback
