import NimRtc.Lib.Bytes
import NimRtc.Rfc6716
import NimRtc.Proofs.OpusRoundTrip

/-!
# Where the framing is that of the RFC

With one or two frames, `depacketise` differs from the grammar in two durations of table 2 and in
not limiting the sizes. A count byte has its flags and its count at opposite ends, so that there
the two agree only on payloads in which neither finds frames: equal counts leave four values of the
byte, and in each of them the frames begin at different places.
-/

namespace NimRtc.Opus

open Rfc6716

/-! ### The TOC byte -/

theorem toc_config (toc : UInt8) : (toc >>> 3 &&& 0x1F).toNat = toc.toNat / 8 := by
  revert toc
  exact forall_uint8 (by decide)

theorem toc_stereo (toc : UInt8) : toc >>> 2 &&& 0x01 = 1 ↔ decide (toc.toNat / 4 % 2 = 1) = true := by
  revert toc
  exact forall_uint8 (by decide)

theorem toc_code (toc : UInt8) : (toc &&& 0x03).toNat = toc.toNat % 4 := by
  revert toc
  exact forall_uint8 (by decide)

theorem toc_duration (toc : UInt8) :
    (frameSizeMsForConfig (toc >>> 3 &&& 0x1F)).toNat = (duration (toc.toNat / 8) + 9) / 10
      ↔ toc.toNat / 8 ≠ 13 ∧ toc.toNat / 8 ≠ 14 := by
  revert toc
  exact forall_uint8 (by decide)

theorem duration_le (toc : UInt8) : 25 ≤ duration (toc.toNat / 8) ∧ duration (toc.toNat / 8) ≤ 600 := by
  revert toc
  exact forall_uint8 (by decide)

/-- The view of a place in a payload with this TOC byte. -/
def viewAt (toc : UInt8) (offset size : ℕ) : PacketView :=
  PacketView.mk offset size (toc >>> 3 &&& 0x1F) (toc >>> 2 &&& 0x01) (toc &&& 0x03)
    (frameSizeMsForConfig (toc >>> 3 &&& 0x1F))

theorem spans_viewsFrom (toc : UInt8) : ∀ (cursor : ℕ) (sizes : List ℕ),
    (viewsFrom (viewAt toc) cursor sizes).map (fun view => (view.offset, view.size))
      = spansFrom cursor sizes
  | _, [] => rfl
  | cursor, n :: sizes => by
    rw [viewsFrom, List.map_cons, spans_viewsFrom toc (cursor + n) sizes]
    rfl

theorem mem_viewsFrom {toc : UInt8} {view : PacketView} : ∀ {cursor : ℕ} {sizes : List ℕ},
    view ∈ viewsFrom (viewAt toc) cursor sizes → ∃ offset size, view = viewAt toc offset size
  | _, [], h => absurd h List.not_mem_nil
  | cursor, n :: sizes, h => by
    rcases List.mem_cons.1 h with rfl | h
    · exact ⟨cursor, n, rfl⟩
    · exact mem_viewsFrom h

theorem spansFrom_inj : ∀ {a b : ℕ} {l m : List ℕ}, l ≠ [] → spansFrom a l = spansFrom b m →
    a = b ∧ l = m
  | _, _, [], _, hne, _ => absurd rfl hne
  | _, _, _ :: _, [], _, h => by cases h
  | a, b, n :: l, k :: m, _, h => by
    rw [spansFrom, spansFrom, List.cons.injEq, Prod.mk.injEq] at h
    obtain ⟨⟨rfl, rfl⟩, h⟩ := h
    refine ⟨rfl, ?_⟩
    rcases l with _ | ⟨x, l⟩
    · rcases m with _ | ⟨y, m⟩
      · rfl
      · cases h
    · rw [(spansFrom_inj (List.cons_ne_nil _ _) h).2]

/-- With frames at the same places, the grammar's limits and the durations are left. -/
theorem agrees_views {toc : UInt8} {rest : List UInt8} {sizes : List ℕ} {padding cursor : ℕ}
    (hsizes : Rfc6716.sizes (toc.toNat % 4) rest = some (sizes, padding)) (hne : sizes ≠ [])
    (hcursor : 1 + rest.length - padding - sizes.sum = cursor) :
    (Outcome.views (viewsFrom (viewAt toc) cursor sizes)).Agrees (parse (toc :: rest))
      ↔ (∀ n ∈ sizes, n ≤ 1275) ∧ sizes.length * duration (toc.toNat / 8) ≤ 1200
        ∧ DurationRead (toc.toNat / 8) := by
  simp only [parse, hsizes, hcursor]
  split
  · rename_i hlimit
    refine iff_of_false id ?_
    rintro ⟨hsize, hduration, -⟩
    rcases hlimit with ⟨n, hn, hlong⟩ | hlong
    · exact absurd (hsize n hn) (Nat.not_le.2 hlong)
    · exact absurd hduration (Nat.not_le.2 hlong)
  · rename_i hlimit
    rw [not_or, not_exists] at hlimit
    have hsize : ∀ n ∈ sizes, n ≤ 1275 := fun n hn =>
      Nat.le_of_not_lt fun hlong => hlimit.1 n ⟨hn, hlong⟩
    constructor
    · rintro ⟨-, hall⟩
      rcases sizes with _ | ⟨n, tail⟩
      · exact absurd rfl hne
      · exact ⟨hsize, Nat.le_of_not_lt hlimit.2,
          (toc_duration toc).1 (hall _ List.mem_cons_self).2.2⟩
    · rintro ⟨-, -, hread⟩
      refine ⟨spans_viewsFrom toc cursor sizes, fun view hview => ?_⟩
      obtain ⟨offset, size, rfl⟩ := mem_viewsFrom hview
      exact ⟨toc_config toc, toc_stereo toc, (toc_duration toc).2 hread⟩

/-! ### Frame lengths -/

theorem frameLength_suffix {l rest : List UInt8} {n : ℕ} (h : frameLength l = some (n, rest)) :
    rest <:+ l ∧ rest.length < l.length ∧ n ≤ 1275 := by
  rcases l with _ | ⟨b, l⟩
  · cases h
  simp only [frameLength] at h
  split at h
  · obtain ⟨rfl, rfl⟩ := Prod.mk.inj (Option.some.inj h)
    exact ⟨List.suffix_cons b l, Nat.lt_succ_self _, by omega⟩
  · rcases l with _ | ⟨c, l⟩
    · cases h
    · obtain ⟨rfl, rfl⟩ := Prod.mk.inj (Option.some.inj h)
      have hb := b.toNat_lt
      have hc := c.toNat_lt
      refine ⟨(List.suffix_cons c l).trans (List.suffix_cons b _), ?_, by omega⟩
      rw [List.length_cons, List.length_cons]
      omega

theorem frameLengths_suffix : ∀ {count : ℕ} {l rest : List UInt8} {sizes : List ℕ},
    frameLengths count l = some (sizes, rest) →
    rest <:+ l ∧ rest.length + count ≤ l.length ∧ sizes.length = count
  | 0, l, rest, sizes, h => by
    obtain ⟨rfl, rfl⟩ := Prod.mk.inj (Option.some.inj h)
    exact ⟨List.suffix_refl l, le_refl _, rfl⟩
  | count + 1, l, rest, sizes, h => by
    simp only [frameLengths] at h
    split at h
    · cases h
    · rename_i n mid hfirst
      obtain ⟨⟨tail, rest'⟩, htail, heq⟩ := Option.map_eq_some_iff.1 h
      simp only [Prod.mk.injEq] at heq
      obtain ⟨rfl, rfl⟩ := heq
      obtain ⟨hsuffix, hshort, -⟩ := frameLength_suffix hfirst
      obtain ⟨hsuffix', hshort', hcount⟩ := frameLengths_suffix htail
      exact ⟨hsuffix'.trans hsuffix, by omega, by rw [List.length_cons, hcount]⟩

theorem drop_of_suffix {l rest : List UInt8} (h : rest <:+ l) :
    l.drop (l.length - rest.length) = rest :=
  (List.suffix_iff_eq_drop.1 h).symm

/-- A position stands for the bytes from there on. -/
theorem decodeFrameLength_eq {bytes : List UInt8} {pos : ℕ} (hpos : pos ≤ bytes.length) :
    decodeFrameLength bytes pos
      = (frameLength (bytes.drop pos)).map fun r => (r.1, bytes.length - r.2.length) := by
  have hlen : (bytes.drop pos).length = bytes.length - pos := List.length_drop
  simp only [decodeFrameLength]
  rcases hdrop : bytes.drop pos with _ | ⟨b, _ | ⟨c, l⟩⟩
  · rfl
  · rw [hdrop, List.length_singleton] at hlen
    simp only [frameLength, UInt8.le_iff_toNat_le]
    split
    · rename_i hb
      have hb' : b.toNat < 252 := Nat.lt_succ_of_le hb
      rw [if_pos hb', Option.map_some, List.length_nil]
      congr 2
      omega
    · rename_i hb
      have hb' : ¬ b.toNat < 252 := fun h => hb (Nat.le_of_lt_succ h)
      rw [if_neg hb', Option.map_none]
  · rw [hdrop, List.length_cons, List.length_cons] at hlen
    simp only [frameLength, UInt8.le_iff_toNat_le]
    split
    · rename_i hb
      have hb' : b.toNat < 252 := Nat.lt_succ_of_le hb
      rw [if_pos hb', Option.map_some, List.length_cons]
      congr 2
      omega
    · rename_i hb
      have hb' : ¬ b.toNat < 252 := fun h => hb (Nat.le_of_lt_succ h)
      have hfits : ¬ 1275 < b.toNat + c.toNat * 4 := by
        have := b.toNat_lt
        have := c.toNat_lt
        omega
      rw [if_neg hfits, if_neg hb', Option.map_some, Option.some.injEq, Prod.mk.injEq]
      exact ⟨by omega, by dsimp only; omega⟩

theorem decodeLengths_eq {bytes : List UInt8} : ∀ {count pos : ℕ}, pos ≤ bytes.length →
    decodeLengths bytes count pos
      = (frameLengths count (bytes.drop pos)).map fun r => (r.1, bytes.length - r.2.length)
  | 0, pos, hpos => by
    rw [decodeLengths, frameLengths, Option.map_some, List.length_drop]
    congr 2
    omega
  | count + 1, pos, hpos => by
    rw [decodeLengths, frameLengths, decodeFrameLength_eq hpos]
    rcases hfirst : frameLength (bytes.drop pos) with _ | ⟨n, rest⟩
    · rfl
    · obtain ⟨hsuffix, -, -⟩ := frameLength_suffix hfirst
      have hrest : rest <:+ bytes := hsuffix.trans (List.drop_suffix _ _)
      simp only [Option.map_some]
      rw [decodeLengths_eq (Nat.sub_le _ _), drop_of_suffix hrest]
      rcases frameLengths count rest with _ | r <;> rfl

/-! ### One or two frames -/

theorem depacketise_cons (toc : UInt8) (rest : List UInt8) {cap : ℕ} (hcap : 2 ≤ cap) :
    depacketise (toc :: rest) cap
      = if toc.toNat % 4 = 0 then .views (viewsFrom (viewAt toc) 1 [rest.length])
        else if toc.toNat % 4 = 1 then
          if rest.length % 2 ≠ 0 then .rejected
          else .views (viewsFrom (viewAt toc) 1 [rest.length / 2, rest.length / 2])
        else if toc.toNat % 4 = 2 then
          match frameLength rest with
          | none => .rejected
          | some (n, tail) =>
            if tail.length < n then .rejected
            else .views (viewsFrom (viewAt toc) (1 + rest.length - tail.length)
              [n, tail.length - n])
        else match rest with
          | [] => .rejected
          | fc :: _ => depacketiseCounted (toc :: rest) cap (viewAt toc) fc := by
  have hcode : ∀ code : UInt8, toc &&& 0x03 = code ↔ toc.toNat % 4 = code.toNat := by
    intro code
    rw [← toc_code, UInt8.toNat_inj]
  have hcap0 : ¬ cap = 0 := by omega
  have hcap2 : ¬ cap < 2 := by omega
  simp only [depacketise, if_neg hcap0, if_neg hcap2]
  refine if_congr (hcode _) rfl (if_congr (hcode _) rfl (if_congr (hcode _) ?_ rfl))
  rw [decodeFrameLength_eq (by simp), List.drop_succ_cons, List.drop_zero]
  rcases hlen : frameLength rest with _ | ⟨n, tail⟩
  · rfl
  · obtain ⟨-, hshort, -⟩ := frameLength_suffix hlen
    have hlength : (toc :: rest).length = 1 + rest.length := Nat.add_comm _ _
    have htail : 1 + rest.length - (1 + rest.length - tail.length) = tail.length := by omega
    have hend : 1 + rest.length - (1 + rest.length - tail.length + n) = tail.length - n := by omega
    simp only [Option.map_some, hlength, htail, hend]
    rfl

theorem agrees_rejected (packet : Option Packet) :
    Outcome.rejected.Agrees packet ↔ packet = none := by
  cases packet with
  | none => exact iff_of_true trivial rfl
  | some packet => exact iff_of_false id (Option.some_ne_none packet)

theorem agrees_iff_legible {toc : UInt8} {rest : List UInt8} {cap : ℕ} (hcap : 2 ≤ cap)
    (hcode : toc.toNat % 4 ≠ 3) :
    (depacketise (toc :: rest) cap).Agrees (parse (toc :: rest)) ↔ Legible (toc :: rest) := by
  have hduration := (duration_le toc).2
  rw [depacketise_cons toc rest hcap, Legible]
  by_cases h0 : toc.toNat % 4 = 0
  · rw [if_pos h0, if_pos h0, agrees_views (by rw [h0]; rfl) (List.cons_ne_nil _ _) (by simp)]
    simp only [List.forall_mem_singleton, List.length_singleton]
    constructor
    · exact fun h => ⟨h.1, h.2.2⟩
    · exact fun h => ⟨h.1, by omega, h.2⟩
  rw [if_neg h0, if_neg h0]
  by_cases h1 : toc.toNat % 4 = 1
  · rw [if_pos h1, if_pos h1]
    by_cases hodd : rest.length % 2 = 0
    · have hsizes : Rfc6716.sizes (toc.toNat % 4) rest
          = some ([rest.length / 2, rest.length / 2], 0) := by
        simp [Rfc6716.sizes, h1, hodd]
      rw [if_neg (not_not.2 hodd), agrees_views hsizes (List.cons_ne_nil _ _) (by simp; omega)]
      simp only [List.mem_cons, List.not_mem_nil, or_false, or_self, forall_eq, List.length_cons,
        List.length_nil]
      constructor
      · exact fun h => .inr ⟨by omega, h.2.2⟩
      · rintro (h | h)
        · omega
        · exact ⟨by omega, by omega, h.2⟩
    · have hparse : parse (toc :: rest) = none := by
        simp [parse, Rfc6716.sizes, h1, hodd]
      rw [if_pos hodd, agrees_rejected, hparse]
      exact iff_of_true rfl (.inl (by omega))
  rw [if_neg h1, if_neg h1]
  have h2 : toc.toNat % 4 = 2 := by omega
  rw [if_pos h2, if_pos h2]
  rcases hlen : frameLength rest with _ | ⟨n, tail⟩
  · have hparse : parse (toc :: rest) = none := by
      simp only [parse, h2, Rfc6716.sizes, hlen]
      rfl
    rw [agrees_rejected, hparse]
    exact iff_of_true rfl fun n tail h => by cases h
  · obtain ⟨-, hshort, hn⟩ := frameLength_suffix hlen
    have hcases : (∀ k l, some (n, tail) = some (k, l) →
          l.length < k ∨ l.length - k ≤ 1275 ∧ DurationRead (toc.toNat / 8))
        ↔ tail.length < n ∨ tail.length - n ≤ 1275 ∧ DurationRead (toc.toNat / 8) := by
      constructor
      · exact fun h => h n tail rfl
      · rintro h k l heq
        obtain ⟨rfl, rfl⟩ := Prod.mk.inj (Option.some.inj heq)
        exact h
    rw [hcases]
    simp only
    by_cases hfits : tail.length < n
    · have hparse : parse (toc :: rest) = none := by
        simp [parse, Rfc6716.sizes, h2, hlen, hfits]
      rw [if_pos hfits, agrees_rejected, hparse]
      exact iff_of_true rfl (.inl hfits)
    · have hsizes : Rfc6716.sizes (toc.toNat % 4) rest = some ([n, tail.length - n], 0) := by
        simp [Rfc6716.sizes, h2, hlen, hfits]
      rw [if_neg hfits, agrees_views hsizes (List.cons_ne_nil _ _) (by simp; omega)]
      simp only [List.forall_mem_cons, List.not_mem_nil, false_imp_iff, implies_true, and_true,
        List.length_cons, List.length_nil]
      constructor
      · exact fun h => .inr ⟨h.1.2, h.2.2⟩
      · rintro (h | h)
        · exact absurd h hfits
        · exact ⟨⟨hn, h.1⟩, by omega, h.2⟩

/-! ### The count byte -/

/-- The views of frames that end at a position. -/
def viewsUpTo (view : ℕ → ℕ → PacketView) (dataEnd : ℕ) : Option (List ℕ) → Outcome
  | none => .rejected
  | some sizes => .views (viewsFrom view (dataEnd - sizes.sum) sizes)

theorem depacketiseVbr_eq {payload : List UInt8} {view : ℕ → ℕ → PacketView} {m pos dataEnd : ℕ}
    (hpos : pos ≤ dataEnd) (hend : dataEnd ≤ payload.length) :
    depacketiseVbr payload view m pos dataEnd
      = if kMaxFramesPerPacket < m - 1 then
          if (frameLengths (kMaxFramesPerPacket + 1) ((payload.take dataEnd).drop pos)).isSome then
            .overflow
          else .rejected
        else viewsUpTo view dataEnd (division true m ((payload.take dataEnd).drop pos)) := by
  have hlen : (payload.take dataEnd).length = dataEnd := by
    rw [List.length_take, Nat.min_eq_left hend]
  have hstart : pos ≤ (payload.take dataEnd).length := hlen.symm ▸ hpos
  simp only [depacketiseVbr, decodeLengths_eq hstart, Option.isSome_map]
  refine if_congr Iff.rfl rfl ?_
  rw [division, if_pos rfl]
  rcases hlengths : frameLengths (m - 1) ((payload.take dataEnd).drop pos) with _ | ⟨sizes, rest⟩
  · rfl
  · obtain ⟨hsuffix, -, -⟩ := frameLengths_suffix hlengths
    have hle : rest.length ≤ dataEnd :=
      hlen ▸ (hsuffix.trans (List.drop_suffix _ _)).length_le
    have hrest : dataEnd - (dataEnd - rest.length) = rest.length := by omega
    simp only [Option.map_some, hlen, hrest]
    split
    · rfl
    · rename_i hfits
      have hsum : (sizes ++ [rest.length - sizes.sum]).sum = rest.length := by
        rw [List.sum_append, List.sum_singleton]
        omega
      simp only [viewsUpTo, hsum]

theorem depacketiseCbr_eq {view : ℕ → ℕ → PacketView} {m pos dataEnd : ℕ} {data : List UInt8}
    (hdata : data.length = dataEnd - pos) (hpos : pos ≤ dataEnd) :
    depacketiseCbr view m pos dataEnd = viewsUpTo view dataEnd (division false m data) := by
  simp only [depacketiseCbr, division, hdata, if_neg Bool.false_ne_true, ne_eq, ite_not]
  split
  · rename_i hmod
    have hsum : (List.replicate m ((dataEnd - pos) / m)).sum = dataEnd - pos := by
      rw [List.sum_replicate, smul_eq_mul]
      exact Nat.mul_div_cancel' (Nat.dvd_of_mod_eq_zero hmod)
    rw [viewsUpTo, hsum, Nat.sub_sub_self hpos]
  · rfl

theorem shortPadding_suffix {p : Bool} {rest data : List UInt8} {padding : ℕ}
    (h : shortPadding p rest = some (padding, data)) :
    data <:+ rest ∧ rest.length ≤ data.length + 2 ∧ (p = false → padding = 0) := by
  simp only [shortPadding] at h
  split at h
  · obtain ⟨rfl, rfl⟩ := Prod.mk.inj (Option.some.inj h)
    exact ⟨List.suffix_refl _, by omega, fun _ => rfl⟩
  · rename_i hp
    have hp' : p ≠ false := by simpa using hp
    rcases rest with _ | ⟨b0, _ | ⟨b1, rest⟩⟩
    · cases h
    · simp only at h
      split at h
      · cases h
      · obtain ⟨rfl, rfl⟩ := Prod.mk.inj (Option.some.inj h)
        exact ⟨List.suffix_cons _ _, by simp, fun hp => absurd hp hp'⟩
    · simp only at h
      split at h
      · obtain ⟨rfl, rfl⟩ := Prod.mk.inj (Option.some.inj h)
        exact ⟨(List.suffix_cons _ _).trans (List.suffix_cons _ _), by simp,
          fun hp => absurd hp hp'⟩
      · obtain ⟨rfl, rfl⟩ := Prod.mk.inj (Option.some.inj h)
        exact ⟨List.suffix_cons _ _, by simp, fun hp => absurd hp hp'⟩

theorem paddingHeader_eq (toc fc : UInt8) (p : Bool) (rest : List UInt8) :
    paddingHeader (toc :: fc :: rest) p
      = (shortPadding p rest).map fun r => (rest.length - r.2.length, r.1) := by
  simp only [paddingHeader, shortPadding, List.drop_succ_cons, List.drop_zero]
  split
  · simp
  · rcases rest with _ | ⟨b0, _ | ⟨b1, rest⟩⟩
    · rfl
    · simp only
      split <;> simp
    · simp only
      split
      · simp only [Option.map_some, List.length_cons, Option.some.injEq, Prod.mk.injEq, and_true]
        omega
      · simp

theorem count_bits (fc : UInt8) :
    decide (fc &&& 0x01 ≠ 0) = decide (fc.toNat % 2 = 1)
      ∧ decide (fc >>> 1 &&& 0x01 ≠ 0) = decide (fc.toNat / 2 % 2 = 1)
      ∧ (fc >>> 2 &&& 0x3F).toNat = fc.toNat / 4 := by
  revert fc
  exact forall_uint8 (by decide)

/-- `depacketise` reads the bytes after the count byte as the grammar does, but for the order of the
bits, the chain of padding lengths and its array. -/
theorem depacketiseCounted_eq (toc fc : UInt8) (rest : List UInt8) {cap : ℕ} (hcap : 63 ≤ cap) :
    depacketiseCounted (toc :: fc :: rest) cap (viewAt toc) fc
      = if fc.toNat / 4 = 0 then .rejected
        else match shortPadding (fc.toNat / 2 % 2 = 1) rest with
          | none => .rejected
          | some (padding, data) =>
            if data.length < padding then .rejected
            else if fc.toNat % 2 = 1 ∧ kMaxFramesPerPacket < fc.toNat / 4 - 1 then
              if (frameLengths (kMaxFramesPerPacket + 1)
                  (data.take (data.length - padding))).isSome then .overflow
              else .rejected
            else viewsUpTo (viewAt toc) (2 + rest.length - padding)
              (division (fc.toNat % 2 = 1) (fc.toNat / 4) (data.take (data.length - padding))) := by
  obtain ⟨hv, hp, hm⟩ := count_bits fc
  simp only [depacketiseCounted, hv, hp, hm, paddingHeader_eq]
  refine if_congr Iff.rfl rfl ?_
  rcases hpadding : shortPadding (fc.toNat / 2 % 2 = 1) rest with _ | ⟨padding, data⟩
  · rfl
  obtain ⟨hsuffix, -, -⟩ := shortPadding_suffix hpadding
  have hle := hsuffix.length_le
  have hlength : (toc :: fc :: rest).length = 2 + rest.length := by
    rw [List.length_cons, List.length_cons]
    omega
  have hsmall : ¬ cap < fc.toNat / 4 := by
    have := fc.toNat_lt
    omega
  simp only [Option.map_some, hlength, if_neg hsmall]
  by_cases hfits : data.length < padding
  · rw [if_pos hfits, if_pos (by omega)]
  rw [if_neg hfits, if_neg (by omega)]
  have hpos : 2 + (rest.length - data.length) ≤ 2 + rest.length - padding := by omega
  have hwindow : ((toc :: fc :: rest).take (2 + rest.length - padding)).drop
      (2 + (rest.length - data.length)) = data.take (data.length - padding) := by
    have hdrop : (toc :: fc :: rest).drop (2 + (rest.length - data.length)) = data := by
      rw [← List.drop_drop]
      exact drop_of_suffix hsuffix
    rw [List.drop_take, hdrop]
    congr 1
    omega
  by_cases hvbr : fc.toNat % 2 = 1
  · rw [if_pos (decide_eq_true hvbr), depacketiseVbr_eq hpos (by omega), hwindow]
    by_cases hmany : kMaxFramesPerPacket < fc.toNat / 4 - 1
    · rw [if_pos hmany, if_pos (And.intro hvbr hmany)]
    · rw [if_neg hmany, if_neg fun h => hmany h.2, decide_eq_true hvbr]
  · rw [if_neg (by simpa using hvbr), if_neg fun h => hvbr h.1, decide_eq_false hvbr]
    refine depacketiseCbr_eq ?_ hpos
    rw [List.length_take]
    omega

theorem division_spec {v : Bool} {m : ℕ} {data : List UInt8} {sizes : List ℕ}
    (h : division v m data = some sizes) :
    sizes.sum ≤ data.length ∧ (m ≠ 0 → sizes.length = m)
      ∧ (v = false → sizes.sum = data.length) ∧ (v = true → sizes.sum + (m - 1) ≤ data.length) := by
  cases v with
  | true =>
    rw [division, if_pos rfl] at h
    split at h
    · cases h
    · rename_i lengths rest hlengths
      obtain ⟨-, hle, hcount⟩ := frameLengths_suffix hlengths
      split at h
      · cases h
      · obtain rfl := Option.some.inj h
        have hsum : (lengths ++ [rest.length - lengths.sum]).sum = rest.length := by
          rw [List.sum_append, List.sum_singleton]
          omega
        rw [hsum, List.length_append, hcount, List.length_singleton]
        exact ⟨by omega, fun _ => by omega, nofun, fun _ => hle⟩
  | false =>
    rw [division, if_neg Bool.false_ne_true] at h
    split at h
    · rename_i hmod
      obtain rfl := Option.some.inj h
      have hsum : (List.replicate m (data.length / m)).sum = data.length := by
        rw [List.sum_replicate, smul_eq_mul]
        exact Nat.mul_div_cancel' (Nat.dvd_of_mod_eq_zero hmod)
      rw [hsum, List.length_replicate]
      exact ⟨le_refl _, fun _ => rfl, fun _ => rfl, nofun⟩
    · cases h

/-- As long as its array is not full, the source looks at the whole table. -/
theorem divides_iff {v : Bool} {m : ℕ} {data : List UInt8}
    (h : ¬ (v = true ∧ kMaxFramesPerPacket < m - 1)) :
    Divides v m data ↔ (division v m data).isSome := by
  cases v with
  | true =>
    have hfew : ¬ kMaxFramesPerPacket < m - 1 := fun hmany => h ⟨rfl, hmany⟩
    have hmin : min (m - 1) (kMaxFramesPerPacket + 1) = m - 1 := Nat.min_eq_left (by omega)
    rw [Divides, division, if_pos rfl, if_pos rfl, hmin]
    rcases hlengths : frameLengths (m - 1) data with _ | ⟨sizes, rest⟩
    · exact iff_of_false (fun ⟨_, _, h, _⟩ => by cases h) Bool.false_ne_true
    · dsimp only
      split
      · rename_i hshort
        refine iff_of_false ?_ Bool.false_ne_true
        rintro ⟨sizes', rest', heq, hmany | hle⟩
        · exact hfew hmany
        · obtain ⟨rfl, rfl⟩ := Prod.mk.inj (Option.some.inj heq)
          exact absurd hle (Nat.not_le.2 hshort)
      · rename_i hshort
        exact iff_of_true ⟨sizes, rest, rfl, .inr (Nat.le_of_not_lt hshort)⟩ rfl
  | false =>
    rw [Divides, division, if_neg Bool.false_ne_true, if_neg Bool.false_ne_true]
    split
    · rename_i hmod
      exact iff_of_true hmod rfl
    · rename_i hmod
      exact iff_of_false hmod Bool.false_ne_true

/-- What is known when the source finds frames after a count byte. -/
theorem counted_outcome (toc fc : UInt8) (rest : List UInt8) {cap : ℕ} (hcap : 63 ≤ cap) :
    (depacketiseCounted (toc :: fc :: rest) cap (viewAt toc) fc = .rejected
        ∧ ¬ ReadsFromLow fc rest)
      ∨ (depacketiseCounted (toc :: fc :: rest) cap (viewAt toc) fc = .overflow
        ∧ ReadsFromLow fc rest)
      ∨ ∃ pos sizes padding, depacketiseCounted (toc :: fc :: rest) cap (viewAt toc) fc
          = .views (viewsFrom (viewAt toc) pos sizes) ∧ ReadsFromLow fc rest
        ∧ fc.toNat / 4 ≠ 0 ∧ sizes.length = fc.toNat / 4
        ∧ pos + sizes.sum + padding = 2 + rest.length
        ∧ (fc.toNat / 2 % 2 = 0 → padding = 0)
        ∧ (fc.toNat % 2 = 1 → 2 + (fc.toNat / 4 - 1) ≤ pos) ∧ (fc.toNat % 2 = 0 → pos ≤ 4) := by
  rw [depacketiseCounted_eq toc fc rest hcap]
  by_cases hm : fc.toNat / 4 = 0
  · rw [if_pos hm]
    exact .inl ⟨rfl, fun h => h.1 hm⟩
  rw [if_neg hm]
  rcases hpadding : shortPadding (fc.toNat / 2 % 2 = 1) rest with _ | ⟨padding, data⟩
  · refine .inl ⟨rfl, ?_⟩
    rintro ⟨-, padding, data, hsome, -⟩
    rw [hpadding] at hsome
    cases hsome
  have hreads : ReadsFromLow fc rest ↔ padding ≤ data.length
      ∧ Divides (fc.toNat % 2 = 1) (fc.toNat / 4) (data.take (data.length - padding)) := by
    rw [ReadsFromLow, hpadding]
    constructor
    · rintro ⟨-, padding', data', heq, h⟩
      obtain ⟨rfl, rfl⟩ := Prod.mk.inj (Option.some.inj heq)
      exact h
    · exact fun h => ⟨hm, padding, data, rfl, h⟩
  rw [hreads]
  dsimp only
  by_cases hfits : data.length < padding
  · rw [if_pos hfits]
    exact .inl ⟨rfl, fun h => absurd h.1 (Nat.not_le.2 hfits)⟩
  rw [if_neg hfits]
  have hle : padding ≤ data.length := Nat.le_of_not_lt hfits
  by_cases hmany : fc.toNat % 2 = 1 ∧ kMaxFramesPerPacket < fc.toNat / 4 - 1
  · -- The array is full before the table ends.
    have hmin : min (fc.toNat / 4 - 1) (kMaxFramesPerPacket + 1) = kMaxFramesPerPacket + 1 :=
      Nat.min_eq_right hmany.2
    rw [if_pos hmany, decide_eq_true hmany.1, Divides, if_pos rfl, hmin]
    rcases hlengths : frameLengths (kMaxFramesPerPacket + 1)
      (data.take (data.length - padding)) with _ | ⟨sizes, tail⟩
    · exact .inl ⟨rfl, fun ⟨_, _, _, h, _⟩ => by cases h⟩
    · exact .inr (.inl ⟨rfl, hle, sizes, tail, rfl, .inl hmany.2⟩)
  rw [if_neg hmany]
  have hfew : ¬ (decide (fc.toNat % 2 = 1) = true ∧ kMaxFramesPerPacket < fc.toNat / 4 - 1) := by
    rw [decide_eq_true_eq]
    exact hmany
  rw [divides_iff hfew]
  rcases hdivision : division (fc.toNat % 2 = 1) (fc.toNat / 4) (data.take (data.length - padding))
    with _ | sizes
  · exact .inl ⟨rfl, fun h => Bool.noConfusion h.2⟩
  · obtain ⟨hsuffix, hshort, hzero⟩ := shortPadding_suffix hpadding
    obtain ⟨hsum, hcount, hcbr, hvbr⟩ := division_spec hdivision
    have hlen : (data.take (data.length - padding)).length = data.length - padding := by
      rw [List.length_take]
      omega
    have hrest := hsuffix.length_le
    rw [hlen] at hsum hcbr hvbr
    refine .inr (.inr ⟨_, sizes, padding, rfl, ⟨hle, rfl⟩, hm, hcount hm, by omega, fun hp => ?_,
      fun hv => ?_, fun hv => ?_⟩)
    · exact hzero (decide_eq_false (by omega))
    · have := hvbr (decide_eq_true hv)
      omega
    · have := hcbr (decide_eq_false (by omega))
      omega

theorem paddingLength_suffix : ∀ {rest tail : List UInt8} {n : ℕ},
    paddingLength rest = some (n, tail) →
    tail.length < rest.length ∧ (n = 0 → rest.length = tail.length + 1)
  | [], _, _, h => by cases h
  | b :: rest, tail, n, h => by
    rw [paddingLength] at h
    split at h
    · obtain ⟨⟨k, tail'⟩, hrest, heq⟩ := Option.map_eq_some_iff.1 h
      simp only [Prod.mk.injEq] at heq
      obtain ⟨rfl, rfl⟩ := heq
      obtain ⟨hlt, -⟩ := paddingLength_suffix hrest
      exact ⟨Nat.lt_succ_of_lt hlt, fun hzero => by omega⟩
    · obtain ⟨rfl, rfl⟩ := Prod.mk.inj (Option.some.inj h)
      exact ⟨Nat.lt_succ_self _, fun _ => rfl⟩

theorem counted_spec {v p : Bool} {m : ℕ} {rest : List UInt8} {sizes : List ℕ} {padding : ℕ}
    (h : counted v p m rest = some (sizes, padding)) :
    m ≠ 0 ∧ sizes.length = m ∧ padding + sizes.sum ≤ rest.length ∧ (p = false → padding = 0)
      ∧ (v = true → padding + sizes.sum + (m - 1) ≤ rest.length)
      ∧ (v = false → p = true → padding = 0 → sizes.sum + 1 = rest.length) := by
  simp only [counted] at h
  split at h
  · cases h
  rename_i hm
  split at h
  · cases h
  rename_i padding' tail hpadding
  split at h
  · cases h
  rename_i hfits
  obtain ⟨sizes', hdivision, heq⟩ := Option.map_eq_some_iff.1 h
  simp only [Prod.mk.injEq] at heq
  obtain ⟨rfl, rfl⟩ := heq
  obtain ⟨hsum, hcount, hcbr, hvbr⟩ := division_spec hdivision
  have hlen : (tail.take (tail.length - padding')).length = tail.length - padding' := by
    rw [List.length_take]
    omega
  rw [hlen] at hsum hcbr hvbr
  cases p with
  | false =>
    obtain ⟨rfl, rfl⟩ := Prod.mk.inj (Option.some.inj hpadding)
    refine ⟨hm, hcount hm, by omega, fun _ => rfl, fun hv => ?_, nofun⟩
    have := hvbr hv
    omega
  | true =>
    obtain ⟨hshort, hone⟩ := paddingLength_suffix hpadding
    refine ⟨hm, hcount hm, by omega, nofun, fun hv => ?_, fun hv _ hzero => ?_⟩
    · have := hvbr hv
      omega
    · have := hcbr hv
      have := hone hzero
      omega

theorem parse_counted {toc fc : UInt8} {rest : List UInt8} {packet : Packet}
    (hcode : toc.toNat % 4 = 3) (h : parse (toc :: fc :: rest) = some packet) :
    ∃ sizes padding, packet.spans = spansFrom (2 + rest.length - padding - sizes.sum) sizes
      ∧ sizes.length * 25 ≤ 1200
      ∧ counted (fc &&& 0x80 ≠ 0) (fc &&& 0x40 ≠ 0) (fc &&& 0x3F).toNat rest
        = some (sizes, padding) := by
  simp only [parse, hcode, Rfc6716.sizes] at h
  split at h
  · cases h
  rename_i sizes padding hcounted
  split at h
  · cases h
  rename_i hlimit
  obtain rfl := Option.some.inj h
  have hduration := (duration_le toc).1
  rw [not_or, Nat.not_lt] at hlimit
  refine ⟨sizes, padding, ?_, ?_, hcounted⟩
  · have hlength : 1 + (fc :: rest).length = 2 + rest.length := by
      rw [List.length_cons]
      omega
    rw [hlength]
  · exact (Nat.mul_le_mul_left _ hduration).trans hlimit.2

/-- The counts of the two readings are the same for four count bytes only. -/
theorem count_eq (fc : UInt8) (h : fc.toNat / 4 = (fc &&& 0x3F).toNat) :
    fc = 0x00 ∨ fc = 0x55 ∨ fc = 0xAA ∨ fc = 0xFF := by
  revert fc
  exact forall_uint8 (by decide)

theorem counted_not_agree {toc fc : UInt8} {rest : List UInt8} {packet : Packet} {pos padding : ℕ}
    {sizes : List ℕ} (hcode : toc.toNat % 4 = 3) (hparse : parse (toc :: fc :: rest) = some packet)
    (hm : fc.toNat / 4 ≠ 0) (hcount : sizes.length = fc.toNat / 4)
    (hend : pos + sizes.sum + padding = 2 + rest.length)
    (hpadding : fc.toNat / 2 % 2 = 0 → padding = 0)
    (hvbr : fc.toNat % 2 = 1 → 2 + (fc.toNat / 4 - 1) ≤ pos) (hcbr : fc.toNat % 2 = 0 → pos ≤ 4) :
    spansFrom pos sizes ≠ packet.spans := by
  intro hspans
  obtain ⟨sizes', padding', hpacket, hfew, hcounted⟩ := parse_counted hcode hparse
  have hne : sizes ≠ [] := fun h => hm (by rw [← hcount, h, List.length_nil])
  obtain ⟨hpos, rfl⟩ := spansFrom_inj hne (hspans.trans hpacket)
  obtain ⟨-, hcount', hsum, hzero, hv, hp⟩ := counted_spec hcounted
  -- The frames end at the same place, so that there is as much padding.
  have hsame : padding' = padding := by omega
  rcases count_eq fc (hcount.symm.trans hcount') with rfl | rfl | rfl | rfl
  · exact hm rfl
  · have hpad := hpadding rfl
    have hstart := hvbr rfl
    have hlen := hp rfl rfl (hsame.trans hpad)
    have : (0x55 : UInt8).toNat / 4 = 21 := rfl
    omega
  · have hpad := hzero rfl
    have hstart := hcbr rfl
    have hlen := hv rfl
    have : (0xAA &&& 0x3F : UInt8).toNat = 42 := rfl
    omega
  · have : (0xFF : UInt8).toNat / 4 = 63 := rfl
    omega

theorem agrees_counted_iff {toc : UInt8} {rest : List UInt8} {cap : ℕ} (hcap : 63 ≤ cap)
    (hcode : toc.toNat % 4 = 3) :
    (depacketise (toc :: rest) cap).Agrees (parse (toc :: rest)) ↔ Legible (toc :: rest) := by
  have h0 : ¬ toc.toNat % 4 = 0 := by omega
  have h1 : ¬ toc.toNat % 4 = 1 := by omega
  have h2 : ¬ toc.toNat % 4 = 2 := by omega
  rw [depacketise_cons toc rest (by omega), Legible, if_neg h0, if_neg h0, if_neg h1, if_neg h1,
    if_neg h2, if_neg h2]
  rcases rest with _ | ⟨fc, rest⟩
  · have hparse : parse [toc] = none := by
      simp only [parse, hcode, Rfc6716.sizes]
      rfl
    rw [hparse]
    exact iff_of_true trivial ⟨rfl, fun _ _ h => by cases h⟩
  have hreads : (∀ b tail, fc :: rest = b :: tail → ¬ ReadsFromLow b tail)
      ↔ ¬ ReadsFromLow fc rest := by
    constructor
    · exact fun h => h fc rest rfl
    · rintro h b tail heq
      obtain ⟨rfl, rfl⟩ := List.cons.inj heq
      exact h
  rw [hreads]
  dsimp only
  rcases counted_outcome toc fc rest hcap with ⟨hout, hlow⟩ | ⟨hout, hlow⟩
    | ⟨pos, sizes, padding, hout, hlow, hm, hcount, hend, hpadding, hvbr, hcbr⟩
  · rw [hout, agrees_rejected]
    exact ⟨fun h => ⟨h, hlow⟩, fun h => h.1⟩
  · rw [hout]
    refine iff_of_false ?_ fun h => h.2 hlow
    cases parse (toc :: fc :: rest) <;> exact id
  · rw [hout]
    refine iff_of_false (fun hagrees => ?_) fun h => h.2 hlow
    cases hparse : parse (toc :: fc :: rest) with
    | none =>
      rw [hparse] at hagrees
      exact hagrees
    | some packet =>
      rw [hparse] at hagrees
      have hspans := hagrees.1
      rw [spans_viewsFrom] at hspans
      exact counted_not_agree hcode hparse hm hcount hend hpadding hvbr hcbr hspans

theorem agrees_iff {payload : List UInt8} {cap : ℕ} (hcap : 63 ≤ cap) :
    (depacketise payload cap).Agrees (parse payload) ↔ Legible payload := by
  rcases payload with _ | ⟨toc, rest⟩
  · exact iff_of_true trivial trivial
  · by_cases hcode : toc.toNat % 4 = 3
    · exact agrees_counted_iff hcap hcode
    · exact agrees_iff_legible (by omega) hcode

end NimRtc.Opus
