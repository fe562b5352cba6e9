import NimRtc.RtcpPacket
import NimRtc.Proofs.WireReads

/-!
# Packets that stand before others

The header checks look at the declared length, the parsers behind them at all bytes they are given. So
what follows a packet is taken for a part of it as soon as the packet itself does not hold all that it
announces. For the chunks of a feedback packet the bytes that tell are a run of `0xFF`: they add
packets, and they make a missing delta odd.
-/

namespace NimRtc.Rtp

/-! ### Symbols -/

/-- Symbols have one bit or two. -/
def SymBits (symBits : ℕ) : Prop := symBits = 1 ∨ symBits = 2

section Symbols

variable {symBits : ℕ}

@[simp] theorem length_symbolsIn (byte : UInt8) : (symbolsIn symBits byte).length = 8 / symBits := by
  simp [symbolsIn]

theorem length_readSymbols : ∀ (n : ℕ) (bytes : List UInt8),
    (readSymbols symBits n bytes).1.length = min n (8 / symBits * bytes.length)
  | 0, bytes => by simp [readSymbols]
  | n + 1, [] => by simp [readSymbols]
  | n + 1, byte :: bytes => by
    rw [readSymbols, List.length_append, length_readSymbols, List.length_take, length_symbolsIn, List.length_cons,
      Nat.mul_succ]
    omega

theorem readSymbols_rest (h : SymBits symBits) : ∀ (n : ℕ) (bytes : List UInt8),
    (readSymbols symBits n bytes).2 = bytes.drop (symbolBytes symBits n)
  | 0, bytes => by simp [readSymbols, symbolBytes]
  | n + 1, [] => by simp [readSymbols]
  | n + 1, byte :: bytes => by
    have hbytes : symbolBytes symBits (n + 1) = symbolBytes symBits (n + 1 - 8 / symBits) + 1 := by
      rcases h with rfl | rfl <;> simp only [symbolBytes] <;> omega
    rw [readSymbols, readSymbols_rest h, hbytes, List.drop_succ_cons]

/-- What follows gives the symbols that are missing. -/
theorem readSymbols_append (suffix : List UInt8) : ∀ (n : ℕ) (bytes : List UInt8),
    (readSymbols symBits n (bytes ++ suffix)).1 = (readSymbols symBits n bytes).1
      ++ (readSymbols symBits (n - 8 / symBits * bytes.length) suffix).1
  | 0, bytes => by simp [readSymbols]
  | n + 1, [] => by simp [readSymbols]
  | n + 1, byte :: bytes => by
    have hleft : n + 1 - 8 / symBits * (bytes.length + 1)
        = n + 1 - 8 / symBits - 8 / symBits * bytes.length := by
      rw [Nat.mul_succ]
      omega
    rw [List.cons_append, readSymbols, readSymbols, readSymbols_append suffix, List.length_cons,
      hleft, List.append_assoc]

theorem take_readSymbols_append (suffix : List UInt8) {k n : ℕ} {bytes : List UInt8} (hk : k ≤ n)
    (h : k ≤ 8 / symBits * bytes.length) :
    (readSymbols symBits n (bytes ++ suffix)).1.take k = (readSymbols symBits n bytes).1.take k := by
  rw [readSymbols_append, List.take_append_of_le_length]
  rw [length_readSymbols]
  omega

end Symbols

/-! ### Deltas -/

section Fill

variable (acc bitsLeft : ℕ) (bytes : List UInt8)

theorem fillBits_rest : (fillBits bytes acc bitsLeft).2.2 = bytes.drop ((21 - bitsLeft) / 8) := by
  induction bytes generalizing acc bitsLeft with
  | nil => simp [fillBits]
  | cons byte bytes ih =>
    rw [fillBits]
    split
    · rw [ih, show (21 - bitsLeft) / 8 = (21 - (bitsLeft + 8)) / 8 + 1 by omega,
        List.drop_succ_cons]
    · rw [show (21 - bitsLeft) / 8 = 0 by omega, List.drop_zero]

theorem fillBits_bits :
    (fillBits bytes acc bitsLeft).2.1 = bitsLeft + 8 * min bytes.length ((21 - bitsLeft) / 8) := by
  induction bytes generalizing acc bitsLeft with
  | nil => simp [fillBits]
  | cons byte bytes ih =>
    rw [fillBits, List.length_cons]
    split
    · rw [ih]
      omega
    · show bitsLeft = _
      omega

theorem fillBits_full (h : 14 ≤ bitsLeft) : fillBits bytes acc bitsLeft = (acc, bitsLeft, bytes) := by
  cases bytes with
  | nil => rfl
  | cons byte bytes => rw [fillBits, if_neg (by omega)]

theorem fillBits_append (suffix : List UInt8) (h : 14 ≤ bitsLeft + 8 * bytes.length) :
    (fillBits (bytes ++ suffix) acc bitsLeft).1 = (fillBits bytes acc bitsLeft).1 := by
  induction bytes generalizing acc bitsLeft with
  | nil =>
    have hfull : 14 ≤ bitsLeft := h
    rw [List.nil_append, fillBits_full _ _ _ hfull, fillBits_full _ _ _ hfull]
  | cons byte bytes ih =>
    rw [List.cons_append, fillBits, fillBits]
    split
    · refine ih _ _ ?_
      rw [List.length_cons] at h
      omega
    · rfl

end Fill

/-- The bits there are after a fill that finds enough. -/
def filled (bitsLeft : ℕ) : ℕ := bitsLeft + 8 * ((21 - bitsLeft) / 8)

section Step

variable (symbol : PacketStatus) (symbols : List PacketStatus) (acc : ℕ) {bitsLeft : ℕ}
  {bytes : List UInt8}

theorem readDeltas_short (h : bitsLeft + 8 * bytes.length < 14) :
    ∃ acc', readDeltas (symbol :: symbols) acc bitsLeft bytes
      = (0 :: (readDeltas symbols acc' (bitsLeft + 8 * bytes.length) []).1,
          (readDeltas symbols acc' (bitsLeft + 8 * bytes.length) []).2) := by
  have hfill : (fillBits bytes acc bitsLeft).2 = (bitsLeft + 8 * bytes.length, []) := by
    refine Prod.ext ?_ ?_
    · rw [fillBits_bits]
      show _ = bitsLeft + 8 * bytes.length
      omega
    · rw [fillBits_rest, List.drop_eq_nil_of_le]
      omega
  refine ⟨(fillBits bytes acc bitsLeft).1, ?_⟩
  simp only [readDeltas, hfill, if_pos h]

theorem readDeltas_long (h : 14 ≤ bitsLeft + 8 * bytes.length) :
    readDeltas (symbol :: symbols) acc bitsLeft bytes
      = ((if symbol = .notReceived then 0 else signExtend 14
            ((fillBits bytes acc bitsLeft).1 / 2 ^ (filled bitsLeft - 14) % 2 ^ 14))
          :: (readDeltas symbols ((fillBits bytes acc bitsLeft).1 % 2 ^ (filled bitsLeft - 14))
            (filled bitsLeft - 14) (bytes.drop ((21 - bitsLeft) / 8))).1,
          (readDeltas symbols ((fillBits bytes acc bitsLeft).1 % 2 ^ (filled bitsLeft - 14))
            (filled bitsLeft - 14) (bytes.drop ((21 - bitsLeft) / 8))).2) := by
  have hfill : (fillBits bytes acc bitsLeft).2
      = (filled bitsLeft, bytes.drop ((21 - bitsLeft) / 8)) := by
    refine Prod.ext ?_ (fillBits_rest acc bitsLeft bytes)
    rw [fillBits_bits]
    show _ = bitsLeft + 8 * ((21 - bitsLeft) / 8)
    omega
  have henough : ¬ filled bitsLeft < 14 := by
    rw [filled]
    omega
  simp only [readDeltas, hfill, if_neg henough]

/-- The bytes that are left after a delta. -/
theorem drop_delta_append (suffix : List UInt8) (h : 14 ≤ bitsLeft + 8 * bytes.length) :
    (bytes ++ suffix).drop ((21 - bitsLeft) / 8) = bytes.drop ((21 - bitsLeft) / 8) ++ suffix :=
  List.drop_append_of_le_length (by omega)

/-- The bits that are left after a delta. -/
theorem bits_after_delta (h : 14 ≤ bitsLeft + 8 * bytes.length) :
    filled bitsLeft - 14 + 8 * (bytes.drop ((21 - bitsLeft) / 8)).length
      = bitsLeft + 8 * bytes.length - 14 := by
  rw [List.length_drop, filled]
  omega

end Step

/-- Past the end every delta is zero. -/
theorem readDeltas_nil (symbols : List PacketStatus) (acc : ℕ) {bitsLeft : ℕ} (h : bitsLeft < 14) :
    readDeltas symbols acc bitsLeft [] = (List.replicate symbols.length 0, []) := by
  induction symbols generalizing acc with
  | nil => rfl
  | cons symbol symbols ih =>
    obtain ⟨acc', hstep⟩ := readDeltas_short symbol symbols acc (show bitsLeft + 8 * ([] : List UInt8).length < 14 from h)
    rw [List.length_nil, Nat.mul_zero, Nat.add_zero, ih acc'] at hstep
    rw [hstep, List.length_cons, List.replicate_succ]

theorem readDeltas_outside (symbols : List PacketStatus) (acc : ℕ) {bitsLeft : ℕ}
    {bytes : List UInt8} (h : bitsLeft + 8 * bytes.length < 14) :
    (readDeltas symbols acc bitsLeft bytes).1 = List.replicate symbols.length 0 := by
  cases symbols with
  | nil => rfl
  | cons symbol symbols =>
    obtain ⟨acc', hstep⟩ := readDeltas_short symbol symbols acc h
    rw [hstep, readDeltas_nil symbols acc' h, List.length_cons, List.replicate_succ]

theorem readDeltas_notReceived {symbols : List PacketStatus}
    (h : ∀ symbol ∈ symbols, symbol = .notReceived) (acc bitsLeft : ℕ) (bytes : List UInt8) :
    (readDeltas symbols acc bitsLeft bytes).1 = List.replicate symbols.length 0 := by
  induction symbols generalizing acc bitsLeft bytes with
  | nil => rfl
  | cons symbol symbols ih =>
    have hlater := ih fun symbol hs => h symbol (List.mem_cons_of_mem _ hs)
    rw [List.length_cons, List.replicate_succ]
    rcases Nat.lt_or_ge (bitsLeft + 8 * bytes.length) 14 with hbits | hbits
    · obtain ⟨acc', hstep⟩ := readDeltas_short symbol symbols acc hbits
      rw [hstep, hlater]
    · rw [readDeltas_long symbol symbols acc hbits, hlater, if_pos (h symbol List.mem_cons_self)]

theorem length_readDeltas (symbols : List PacketStatus) (acc bitsLeft : ℕ) (bytes : List UInt8) :
    (readDeltas symbols acc bitsLeft bytes).1.length = symbols.length := by
  induction symbols generalizing acc bitsLeft bytes with
  | nil => rfl
  | cons symbol symbols ih =>
    rcases Nat.lt_or_ge (bitsLeft + 8 * bytes.length) 14 with hbits | hbits
    · obtain ⟨acc', hstep⟩ := readDeltas_short symbol symbols acc hbits
      rw [hstep, List.length_cons, ih, List.length_cons]
    · rw [readDeltas_long symbol symbols acc hbits, List.length_cons, ih, List.length_cons]

theorem take_readDeltas (symbols : List PacketStatus) (acc bitsLeft : ℕ) (bytes : List UInt8)
    (k : ℕ) : (readDeltas symbols acc bitsLeft bytes).1.take k
      = (readDeltas (symbols.take k) acc bitsLeft bytes).1 := by
  induction symbols generalizing acc bitsLeft bytes k with
  | nil => simp [readDeltas]
  | cons symbol symbols ih =>
    cases k with
    | zero => simp [readDeltas]
    | succ k =>
      rw [List.take_succ_cons]
      rcases Nat.lt_or_ge (bitsLeft + 8 * bytes.length) 14 with hbits | hbits
      · rw [readDeltas_outside _ _ hbits, readDeltas_outside _ _ hbits, List.take_replicate,
          List.length_cons, List.length_cons, List.length_take]
        congr 1
        omega
      · rw [readDeltas_long symbol symbols acc hbits, readDeltas_long symbol _ acc hbits,
          List.take_succ_cons, ih]

theorem readDeltas_rest (symbols : List PacketStatus) (acc : ℕ) {bitsLeft : ℕ} (bytes : List UInt8)
    (h : bitsLeft < 8) : (readDeltas symbols acc bitsLeft bytes).2
      = bytes.drop ((symbols.length * 14 + 7 - bitsLeft) / 8) := by
  induction symbols generalizing acc bitsLeft bytes with
  | nil =>
    rw [readDeltas, List.length_nil, show (0 * 14 + 7 - bitsLeft) / 8 = 0 by omega, List.drop_zero]
  | cons symbol symbols ih =>
    rw [List.length_cons]
    rcases Nat.lt_or_ge (bitsLeft + 8 * bytes.length) 14 with hbits | hbits
    · obtain ⟨acc', hstep⟩ := readDeltas_short symbol symbols acc hbits
      rw [hstep, readDeltas_nil symbols acc' hbits, List.drop_eq_nil_of_le (by omega)]
    · have hfilled : filled bitsLeft - 14 < 8 := by
        rw [filled]
        omega
      rw [readDeltas_long symbol symbols acc hbits, ih _ _ hfilled, List.drop_drop, filled]
      congr 1
      omega

/-! ### Deltas with other bytes behind them -/

theorem notReceived_of_deltasInside {bits : ℕ} (hbits : bits < 14) :
    ∀ {symbols : List PacketStatus}, DeltasInside symbols bits →
      ∀ symbol ∈ symbols, symbol = .notReceived
  | [], _, _, hs => absurd hs (List.not_mem_nil)
  | symbol :: symbols, h, s, hs => by
    rcases List.mem_cons.1 hs with rfl | hs
    · by_contra hne
      have := h.1 hne
      omega
    · exact notReceived_of_deltasInside (by omega) h.2 s hs

theorem deltasInside_of_notReceived {symbols : List PacketStatus} (bits : ℕ)
    (h : ∀ symbol ∈ symbols, symbol = .notReceived) : DeltasInside symbols bits := by
  induction symbols generalizing bits with
  | nil => trivial
  | cons symbol symbols ih =>
    exact ⟨fun hne => absurd (h symbol List.mem_cons_self) hne,
      ih _ fun s hs => h s (List.mem_cons_of_mem _ hs)⟩

theorem readDeltas_append (suffix : List UInt8) {symbols : List PacketStatus} (acc : ℕ) {bitsLeft : ℕ}
    {bytes : List UInt8} (h : DeltasInside symbols (bitsLeft + 8 * bytes.length)) :
    (readDeltas symbols acc bitsLeft (bytes ++ suffix)).1
      = (readDeltas symbols acc bitsLeft bytes).1 := by
  induction symbols generalizing acc bitsLeft bytes with
  | nil => rfl
  | cons symbol symbols ih =>
    rcases Nat.lt_or_ge (bitsLeft + 8 * bytes.length) 14 with hbits | hbits
    · have hnone := notReceived_of_deltasInside hbits h
      rw [readDeltas_notReceived hnone, readDeltas_notReceived hnone]
    · have hmore : 14 ≤ bitsLeft + 8 * (bytes ++ suffix).length := by
        rw [List.length_append]
        omega
      have hleft : DeltasInside symbols
          (filled bitsLeft - 14 + 8 * (bytes.drop ((21 - bitsLeft) / 8)).length) := by
        rw [bits_after_delta hbits]
        exact h.2
      rw [readDeltas_long symbol symbols acc hmore, readDeltas_long symbol symbols acc hbits,
        fillBits_append _ _ _ _ hbits, drop_delta_append suffix hbits, ih _ hleft]

/-! ### Deltas with a run of `0xFF` behind them -/

theorem fillBits_ends (N : ℕ) : ∀ (bytes : List UInt8) (acc bitsLeft : ℕ),
    bitsLeft + 8 * bytes.length < 14 → 14 ≤ bitsLeft + 8 * (bytes.length + N) →
      ∃ x, (fillBits (bytes ++ List.replicate N 0xFF) acc bitsLeft).1 = x * 256 + 255
  | byte :: bytes, acc, bitsLeft, hshort, hlong => by
    rw [List.length_cons] at hshort hlong
    rw [List.cons_append, fillBits, if_pos (by omega)]
    exact fillBits_ends N bytes _ _ (by omega) (by omega)
  | [], acc, bitsLeft, hshort, hlong => by
    induction N generalizing acc bitsLeft with
    | zero =>
      rw [List.length_nil] at hshort hlong
      omega
    | succ N ih =>
      rw [List.length_nil] at hshort hlong
      rw [List.nil_append, List.replicate_succ, fillBits, if_pos (by omega)]
      rcases Nat.lt_or_ge (bitsLeft + 8) 14 with hbits | hbits
      · exact ih _ _ (by rw [List.length_nil]; omega) (by rw [List.length_nil]; omega)
      · rw [fillBits_full _ _ _ hbits]
        exact ⟨acc, rfl⟩

theorem fillBits_allOnes (N bitsLeft : ℕ) :
    (fillBits (List.replicate N 0xFF) (2 ^ bitsLeft - 1) bitsLeft).1
      = 2 ^ (fillBits (List.replicate N 0xFF) (2 ^ bitsLeft - 1) bitsLeft).2.1 - 1 := by
  induction N generalizing bitsLeft with
  | zero => rfl
  | succ N ih =>
    rw [List.replicate_succ, fillBits]
    split
    · have hacc : (2 ^ bitsLeft - 1) * 256 + (0xFF : UInt8).toNat = 2 ^ (bitsLeft + 8) - 1 := by
        have hpos : 1 ≤ 2 ^ bitsLeft := Nat.one_le_two_pow
        rw [Nat.pow_add]
        show (2 ^ bitsLeft - 1) * 256 + 255 = 2 ^ bitsLeft * 256 - 1
        omega
      rw [hacc]
      exact ih (bitsLeft + 8)
    · rfl

/-- Of ones alone every delta of a received packet is `-1`. -/
theorem readDeltas_allOnes (symbols : List PacketStatus) {bitsLeft N : ℕ} (h : bitsLeft < 8)
    (hlong : symbols.length * 14 ≤ bitsLeft + 8 * N) :
    (readDeltas symbols (2 ^ bitsLeft - 1) bitsLeft (List.replicate N 0xFF)).1
      = symbols.map fun symbol => if symbol = .notReceived then 0 else -1 := by
  induction symbols generalizing bitsLeft N with
  | nil => rfl
  | cons symbol symbols ih =>
    rw [List.length_cons] at hlong
    have hbits : 14 ≤ bitsLeft + 8 * (List.replicate N (0xFF : UInt8)).length := by
      rw [List.length_replicate]
      omega
    have hfilled : (fillBits (List.replicate N 0xFF) (2 ^ bitsLeft - 1) bitsLeft).2.1
        = filled bitsLeft := by
      rw [fillBits_bits, List.length_replicate, filled]
      omega
    have hacc := fillBits_allOnes N bitsLeft
    rw [hfilled] at hacc
    have hlow : 14 ≤ filled bitsLeft := by
      rw [filled]
      omega
    have hhigh : filled bitsLeft < 22 := by
      rw [filled]
      omega
    have hcut : ∀ b, 14 ≤ b → b < 22 →
        signExtend 14 ((2 ^ b - 1) / 2 ^ (b - 14) % 2 ^ 14) = -1
          ∧ (2 ^ b - 1) % 2 ^ (b - 14) = 2 ^ (b - 14) - 1 := by
      intro b hb hb'
      interval_cases b <;> decide
    obtain ⟨hdelta, hleft⟩ := hcut _ hlow hhigh
    rw [readDeltas_long symbol symbols _ hbits, hacc, hdelta, hleft, List.drop_replicate,
      ih (by omega) (by rw [filled]; omega), List.map_cons]

/-- Where the bytes behind make no difference, the deltas of received packets are inside. -/
theorem deltasInside_of_eq {symbols : List PacketStatus} {acc bitsLeft : ℕ} {bytes : List UInt8}
    {N : ℕ} (hlong : symbols.length * 14 ≤ bitsLeft + 8 * (bytes.length + N)) (h : (readDeltas symbols acc bitsLeft (bytes ++ List.replicate N 0xFF)).1
      = (readDeltas symbols acc bitsLeft bytes).1) :
    DeltasInside symbols (bitsLeft + 8 * bytes.length) := by
  induction symbols generalizing acc bitsLeft bytes with
  | nil => trivial
  | cons symbol symbols ih =>
    rw [List.length_cons] at hlong
    have hmore : 14 ≤ bitsLeft + 8 * (bytes ++ List.replicate N 0xFF).length := by
      rw [List.length_append, List.length_replicate]
      omega
    rcases Nat.lt_or_ge (bitsLeft + 8 * bytes.length) 14 with hbits | hbits
    · -- the first delta takes bits of the run, and all later ones are of the run alone
      obtain ⟨x, hx⟩ := fillBits_ends N bytes acc bitsLeft hbits (by omega)
      have hdrop : (bytes ++ List.replicate N (0xFF : UInt8)).drop ((21 - bitsLeft) / 8)
          = List.replicate (N - ((21 - bitsLeft) / 8 - bytes.length)) 0xFF := by
        rw [List.drop_append, List.drop_eq_nil_of_le (by omega), List.nil_append,
          List.drop_replicate]
      have hlow : filled bitsLeft - 14 < 8 := by
        rw [filled]
        omega
      have hcut : ∀ k < 8, signExtend 14 ((x * 256 + 255) / 2 ^ k % 2 ^ 14) ≠ 0
          ∧ (x * 256 + 255) % 2 ^ k = 2 ^ k - 1 := by
        intro k hk
        rw [signExtend]
        interval_cases k <;> split <;> omega
      obtain ⟨hodd, hleft⟩ := hcut _ hlow
      rw [readDeltas_long symbol symbols acc hmore, readDeltas_outside _ _ hbits, List.length_cons,
        List.replicate_succ, hx, hleft, hdrop, readDeltas_allOnes symbols hlow (by rw [filled]; omega),
        List.cons.injEq] at h
      obtain ⟨hhead, htail⟩ := h
      have hsymbol : symbol = .notReceived := by
        by_contra hne
        rw [if_neg hne] at hhead
        exact hodd hhead
      refine deltasInside_of_notReceived _ fun s hs => ?_
      rcases List.mem_cons.1 hs with rfl | hs
      · exact hsymbol
      · have hzero := List.eq_of_mem_replicate (htail ▸ List.mem_map_of_mem hs)
        by_contra hne
        rw [if_neg hne] at hzero
        omega
    · rw [readDeltas_long symbol symbols acc hmore, readDeltas_long symbol symbols acc hbits,
        fillBits_append _ _ _ _ hbits, drop_delta_append _ hbits, List.cons.injEq] at h
      refine ⟨fun _ => hbits, ?_⟩
      have hlater := ih (by rw [List.length_drop, filled]; omega) h.2
      rwa [bits_after_delta hbits] at hlater

/-! ### Chunks -/

section Chunk

variable (n : ℕ) {word : ℕ} (bytes : List UInt8)

theorem symBits_symBitsOf (word : ℕ) : SymBits (symBitsOf word) := by
  rw [symBitsOf]
  split
  · exact .inr rfl
  · exact .inl rfl

theorem parseChunk_two (hword : 2 ^ 15 ≤ word) (hbits : symBitsOf word = 2) :
    parseChunk n word bytes
      = ((List.zipWith (⟨·, ·⟩) (readSymbols 2 (word % 2 ^ 14) bytes).1
          (readDeltas (readSymbols 2 (word % 2 ^ 14) bytes).1 0 0
            (bytes.drop (symbolBytes 2 (word % 2 ^ 14)))).1).take n,
        bytes.drop (chunkEnd word)) := by
  have hbit : word / 2 ^ 14 % 2 = 1 := by
    by_contra hbit
    rw [symBitsOf, if_neg hbit] at hbits
    omega
  have hend : chunkEnd word = symbolBytes 2 (word % 2 ^ 14) + deltaBytes (word % 2 ^ 14) := by
    rw [chunkEnd, hbits, if_pos rfl]
  have hrest : (bytes.drop (symbolBytes 2 (word % 2 ^ 14))).drop
      ((min (word % 2 ^ 14) (4 * bytes.length) * 14 + 7) / 8) = bytes.drop (chunkEnd word) := by
    rw [hend]
    rcases Nat.lt_or_ge (4 * bytes.length) (word % 2 ^ 14) with hshort | hfull
    · rw [symbolBytes, List.drop_eq_nil_of_le (show bytes.length ≤ (_ * 2 + 7) / 8 by omega),
        List.drop_nil, List.drop_eq_nil_of_le (by omega)]
    · rw [min_eq_left hfull, List.drop_drop, deltaBytes]
  rw [parseChunk, if_neg (by omega)]
  simp only [if_pos hbit, readSymbols_rest (.inr rfl),
    readDeltas_rest _ _ _ (show 0 < 8 by omega), length_readSymbols, Nat.sub_zero,
    show 8 / 2 = 4 from rfl, hrest]

theorem parseChunk_one (hword : 2 ^ 15 ≤ word) (hbits : symBitsOf word = 1) :
    parseChunk n word bytes
      = (((readSymbols 1 (word % 2 ^ 14) bytes).1.map (⟨·, 0⟩)).take n,
        bytes.drop (chunkEnd word)) := by
  have hbit : ¬ word / 2 ^ 14 % 2 = 1 := by
    intro hbit
    rw [symBitsOf, if_pos hbit] at hbits
    omega
  rw [parseChunk, if_neg (by omega)]
  simp only [if_neg hbit, readSymbols_rest (.inl rfl), chunkEnd, hbits]
  rfl

theorem parseChunk_rest (hword : 2 ^ 15 ≤ word) :
    (parseChunk n word bytes).2 = bytes.drop (chunkEnd word) := by
  rcases symBits_symBitsOf word with hbits | hbits
  · rw [parseChunk_one n bytes hword hbits]
  · rw [parseChunk_two n bytes hword hbits]

theorem length_parseChunk (hword : 2 ^ 15 ≤ word) : (parseChunk n word bytes).1.length
    = min (min (word % 2 ^ 14) (8 / symBitsOf word * bytes.length)) n := by
  rcases symBits_symBitsOf word with hbits | hbits
  · rw [parseChunk_one n bytes hword hbits, List.length_take, List.length_map, length_readSymbols,
      hbits, min_comm]
  · rw [parseChunk_two n bytes hword hbits, List.length_take, List.length_zipWith,
      length_readDeltas, min_self, length_readSymbols, hbits, min_comm]

/-- A chunk says the same whatever follows it, when all that it says is there. -/
theorem parseChunk_append (suffix : List UInt8) (hword : 2 ^ 15 ≤ word)
    (hsymbols : min (word % 2 ^ 14) n ≤ 8 / symBitsOf word * bytes.length)
    (hdeltas : symBitsOf word = 2 →
      DeltasInside ((readSymbols 2 (word % 2 ^ 14) bytes).1.take n)
        (8 * (bytes.length - symbolBytes 2 (word % 2 ^ 14)))) :
    (parseChunk n word (bytes ++ suffix)).1 = (parseChunk n word bytes).1 := by
  have hcut : ∀ symBits, min (word % 2 ^ 14) n ≤ 8 / symBits * bytes.length →
      (readSymbols symBits (word % 2 ^ 14) (bytes ++ suffix)).1.take n
        = (readSymbols symBits (word % 2 ^ 14) bytes).1.take n := by
    intro symBits h
    have hmin : ∀ bytes, (readSymbols symBits (word % 2 ^ 14) bytes).1.take n
        = (readSymbols symBits (word % 2 ^ 14) bytes).1.take (min (word % 2 ^ 14) n) := by
      intro bytes
      rw [List.take_eq_take_iff, length_readSymbols]
      omega
    rw [hmin, hmin, take_readSymbols_append suffix (min_le_left _ _) h]
  rcases symBits_symBitsOf word with hbits | hbits
  · rw [hbits] at hsymbols
    rw [parseChunk_one n _ hword hbits, parseChunk_one n _ hword hbits, ← List.map_take,
      ← List.map_take, hcut 1 hsymbols]
  · rw [hbits] at hsymbols
    have hinside : DeltasInside ((readSymbols 2 (word % 2 ^ 14) bytes).1.take n)
        (0 + 8 * (bytes.drop (symbolBytes 2 (word % 2 ^ 14))).length) := by
      rw [Nat.zero_add, List.length_drop]
      exact hdeltas hbits
    rw [parseChunk_two n _ hword hbits, parseChunk_two n _ hword hbits, List.take_zipWith,
      List.take_zipWith, take_readDeltas, take_readDeltas, hcut 2 hsymbols, List.drop_append,
      readDeltas_append _ _ hinside]

theorem map_delta_zipWith {symbols : List PacketStatus} {deltas : List ℤ}
    (h : deltas.length ≤ symbols.length) :
    (List.zipWith TransportCcPacketStatus.mk symbols deltas).map (·.delta250us) = deltas := by
  rw [List.map_zipWith]
  have hsnd := List.map_snd_zip h
  rwa [List.zip, List.map_zipWith] at hsnd

/-- A chunk of two-bit symbols that says the same with `0xFF` behind it has all its deltas. -/
theorem deltasInside_of_parseChunk {N : ℕ} (hword : 2 ^ 15 ≤ word) (hbits : symBitsOf word = 2)
    (hn : n ≤ word % 2 ^ 14) (hsymbols : n ≤ 4 * bytes.length) (hN : 2 ^ 15 ≤ N)
    (h : (parseChunk n word (bytes ++ List.replicate N 0xFF)).1 = (parseChunk n word bytes).1) :
    DeltasInside ((readSymbols 2 (word % 2 ^ 14) bytes).1.take n)
      (8 * (bytes.length - symbolBytes 2 (word % 2 ^ 14))) := by
  rw [parseChunk_two n _ hword hbits, parseChunk_two n _ hword hbits, List.take_zipWith,
    List.take_zipWith, take_readDeltas, take_readDeltas, take_readSymbols_append _ hn hsymbols,
    List.drop_append, List.drop_replicate] at h
  have hdeltas := congrArg (List.map (·.delta250us)) h
  rw [map_delta_zipWith (length_readDeltas _ _ _ _).le,
    map_delta_zipWith (length_readDeltas _ _ _ _).le] at hdeltas
  have hinside := deltasInside_of_eq ?_ hdeltas
  · rwa [Nat.zero_add, List.length_drop] at hinside
  · rw [List.length_take, List.length_drop, symbolBytes]
    omega

end Chunk

theorem deltasInside_of_length {symbols : List PacketStatus} {bits : ℕ}
    (h : symbols.length * 14 ≤ bits) : DeltasInside symbols bits := by
  induction symbols generalizing bits with
  | nil => trivial
  | cons symbol symbols ih =>
    rw [List.length_cons] at h
    exact ⟨fun _ => by omega, ih (by omega)⟩

theorem parseChunk_run (n : ℕ) {word : ℕ} (bytes : List UInt8) (hrun : word < 2 ^ 15) :
    parseChunk n word bytes
      = (List.replicate (min (word % 2 ^ 13) n) ⟨.ofBits (word / 2 ^ 13 % 4), 0⟩, bytes) := by
  rw [parseChunk, if_pos hrun]

/-- What is there of the symbols, in bytes and in symbols. -/
theorem symbols_there {word : ℕ} {bytes : List UInt8} {k : ℕ} :
    k ≤ 8 / symBitsOf word * bytes.length ↔ k * symBitsOf word ≤ 8 * bytes.length := by
  rcases symBits_symBitsOf word with hbits | hbits <;> rw [hbits] <;> omega

theorem symbols_of_chunkEnd {word k : ℕ} (h : chunkEnd word ≤ k) :
    word % 2 ^ 14 * symBitsOf word ≤ 8 * k := by
  rw [chunkEnd, symbolBytes] at h
  omega

/-- A chunk that ends inside is read with all its symbols and deltas. -/
theorem parseChunk_whole (n : ℕ) {word : ℕ} {bytes : List UInt8} (suffix : List UInt8)
    (hword : 2 ^ 15 ≤ word) (hend : chunkEnd word ≤ bytes.length) :
    parseChunk n word (bytes ++ suffix)
      = ((parseChunk n word bytes).1, (parseChunk n word bytes).2 ++ suffix) := by
  have hsymbols := symbols_there.2 (symbols_of_chunkEnd hend)
  refine Prod.ext (parseChunk_append n bytes suffix hword (by omega) fun hbits => ?_) ?_
  · rw [chunkEnd, hbits, if_pos rfl, deltaBytes] at hend
    refine deltasInside_of_length ?_
    rw [List.length_take, length_readSymbols]
    omega
  · rw [parseChunk_rest n _ hword, parseChunk_rest n _ hword, List.drop_append_of_le_length hend]

theorem parseChunks_nil (fuel n : ℕ) : parseChunks fuel n [] = [] := by
  simp [parseChunks]

/-- Chunks that describe all packets say the same whatever follows them. -/
theorem parseChunks_append (suffix : List UInt8) (fuel : ℕ) {fuel' n : ℕ} {bytes : List UInt8}
    (hfuel : fuel ≤ fuel') (h : ChunksCover fuel n bytes) :
    parseChunks fuel' n (bytes ++ suffix) = parseChunks fuel n bytes := by
  induction fuel generalizing fuel' n bytes with
  | zero =>
    cases n with
    | zero => simp [parseChunks]
    | succ n => exact absurd h (by simp [ChunksCover])
  | succ fuel ih =>
    obtain ⟨fuel', rfl⟩ : ∃ k, fuel' = k + 1 := ⟨fuel' - 1, by omega⟩
    match n, bytes, h with
    | 0, _, _ => simp [parseChunks]
    | n + 1, [], h => exact absurd h (by simp [ChunksCover])
    | n + 1, [_], h => exact absurd h (by simp [ChunksCover])
    | n + 1, hi :: lo :: bytes, h =>
      simp only [ChunksCover] at h
      simp only [List.cons_append, parseChunks]
      generalize hi.toNat * 256 + lo.toNat = word at h ⊢
      split_ifs at h with hrun hcount
      · have hleft : n + 1 - min (word % 2 ^ 13) (n + 1) = n + 1 - word % 2 ^ 13 := by omega
        rw [parseChunk_run _ _ hrun, parseChunk_run _ _ hrun, List.length_replicate, hleft,
          ih (by omega) h]
      · -- a chunk before the last one
        obtain ⟨hend, hcover⟩ := h
        have hlength : (parseChunk (n + 1) word bytes).1.length = word % 2 ^ 14 := by
          have hthere := symbols_there.2 (symbols_of_chunkEnd hend)
          rw [length_parseChunk _ _ (by omega)]
          omega
        rw [parseChunk_whole _ suffix (by omega) hend, hlength, parseChunk_rest _ _ (by omega),
          ih (by omega) hcover]
      · -- the last chunk
        obtain ⟨hthere, hdeltas⟩ := h
        have hsymbols := symbols_there.2 hthere
        have hlength : (parseChunk (n + 1) word bytes).1.length = n + 1 := by
          rw [length_parseChunk _ _ (by omega)]
          omega
        rw [parseChunk_append _ _ suffix (by omega) (by omega) hdeltas, hlength, Nat.sub_self]
        simp [parseChunks]

/-! ### Chunks with a run of `0xFF` behind them -/

/-- A chunk whose second byte is `0xFF` says something, if a byte follows. -/
theorem parseChunk_pos (n : ℕ) {word : ℕ} {bytes : List UInt8} (hword : word % 256 = 255)
    (hbytes : 0 < bytes.length) : 0 < (parseChunk (n + 1) word bytes).1.length := by
  rcases Nat.lt_or_ge word (2 ^ 15) with hrun | hsymbols
  · rw [parseChunk_run _ _ hrun, List.length_replicate]
    omega
  · have hone : 1 ≤ 8 / symBitsOf word * bytes.length := by
      rw [symbols_there]
      rcases symBits_symBitsOf word with hbits | hbits <;> omega
    rw [length_parseChunk _ _ hsymbols]
    omega

/-- The run adds packets to what is cut short before a chunk. -/
theorem parseChunks_ones_pos {fuel : ℕ} (n : ℕ) {N : ℕ} {bytes : List UInt8}
    (hbytes : bytes.length ≤ 1) (hN : 3 ≤ N) (hfuel : 0 < fuel) :
    0 < (parseChunks fuel (n + 1) (bytes ++ List.replicate N 0xFF)).length := by
  obtain ⟨fuel, rfl⟩ : ∃ k, fuel = k + 1 := ⟨fuel - 1, by omega⟩
  obtain ⟨M, rfl⟩ : ∃ M, N = M + 3 := ⟨N - 3, by omega⟩
  match bytes, hbytes with
  | [], _ =>
    simp only [List.nil_append, List.replicate_succ, parseChunks, List.length_append]
    refine Nat.add_pos_left (parseChunk_pos n ?_ ?_) _
    · decide
    · simp
  | [byte], _ =>
    simp only [List.cons_append, List.nil_append, List.replicate_succ, parseChunks,
      List.length_append]
    refine Nat.add_pos_left (parseChunk_pos n ?_ ?_) _
    · show (byte.toNat * 256 + 255) % 256 = 255
      omega
    · simp

/-- Where the run makes no difference from a chunk on, the symbols of the chunk are there. -/
theorem symbols_of_eq {n word N : ℕ} {bytes : List UInt8} {later later' : List TransportCcPacketStatus}
    (hword : 2 ^ 15 ≤ word) (hN : 0 < N) (hnil : (parseChunk n word bytes).2 = [] → later = [])
    (h : (parseChunk n word (bytes ++ List.replicate N 0xFF)).1 ++ later'
      = (parseChunk n word bytes).1 ++ later) :
    min (word % 2 ^ 14) n ≤ 8 / symBitsOf word * bytes.length
      ∧ (parseChunk n word (bytes ++ List.replicate N 0xFF)).1 = (parseChunk n word bytes).1
      ∧ later' = later := by
  have hlength := length_parseChunk n bytes hword
  have hlength' := length_parseChunk n (bytes ++ List.replicate N 0xFF) hword
  have hper : 8 / symBitsOf word * bytes.length
      < 8 / symBitsOf word * (bytes ++ List.replicate N 0xFF).length := by
    rw [List.length_append, List.length_replicate]
    rcases symBits_symBitsOf word with hbits | hbits <;> rw [hbits] <;> omega
  have hthere : min (word % 2 ^ 14) n ≤ 8 / symBitsOf word * bytes.length := by
    by_contra hshort
    have hrest : (parseChunk n word bytes).2 = [] := by
      have hmore : 8 * bytes.length < word % 2 ^ 14 * symBitsOf word := by
        by_contra hle
        have := symbols_there.2 (Nat.le_of_not_lt hle)
        omega
      rw [parseChunk_rest _ _ hword, List.drop_eq_nil_of_le]
      rw [chunkEnd, symbolBytes]
      omega
    have hlen := congrArg List.length h
    rw [hnil hrest, List.append_nil, List.length_append, hlength, hlength'] at hlen
    omega
  have hsame : (parseChunk n word (bytes ++ List.replicate N 0xFF)).1.length
      = (parseChunk n word bytes).1.length := by
    rw [hlength, hlength']
    omega
  exact ⟨hthere, List.append_inj h hsame⟩

/-- Chunks that say the same with a run of `0xFF` behind them describe all packets. -/
theorem chunksCover_of_eq (fuel : ℕ) {fuel' n N : ℕ} {bytes : List UInt8} (hN : 2 ^ 16 ≤ N)
    (hfuel : bytes.length ≤ fuel) (hfuel' : bytes.length + N ≤ fuel')
    (h : parseChunks fuel' n (bytes ++ List.replicate N 0xFF) = parseChunks fuel n bytes) :
    ChunksCover fuel n bytes := by
  have hcut : ∀ {bytes : List UInt8}, bytes.length ≤ 1 → ∀ n fuel' fuel, 0 < fuel' →
      parseChunks fuel' (n + 1) (bytes ++ List.replicate N 0xFF)
        ≠ parseChunks fuel (n + 1) bytes := by
    intro bytes hbytes n fuel' fuel hpos heq
    have hmore := parseChunks_ones_pos n hbytes (show 3 ≤ N by omega) hpos
    have hnone : parseChunks fuel (n + 1) bytes = [] := by
      match bytes, hbytes with
      | [], _ => simp [parseChunks]
      | [_], _ => simp [parseChunks]
    rw [heq, hnone] at hmore
    simp at hmore
  have hnil : ∀ fuel n {bytes : List UInt8}, bytes = [] → parseChunks fuel n bytes = [] := by
    rintro fuel n _ rfl
    exact parseChunks_nil fuel n
  induction fuel generalizing fuel' n bytes with
  | zero =>
    cases n with
    | zero => simp [ChunksCover]
    | succ n => exact absurd h (hcut (by omega) n fuel' 0 (by omega))
  | succ fuel ih =>
    match n, bytes, h with
    | 0, _, _ => simp [ChunksCover]
    | n + 1, [], h => exact absurd h (hcut (by simp) n fuel' _ (by omega))
    | n + 1, [_], h => exact absurd h (hcut (by simp) n fuel' _ (by omega))
    | n + 1, hi :: lo :: bytes, h =>
      rw [List.length_cons, List.length_cons] at hfuel hfuel'
      obtain ⟨fuel', rfl⟩ : ∃ k, fuel' = k + 1 := ⟨fuel' - 1, by omega⟩
      simp only [ChunksCover]
      simp only [List.cons_append, parseChunks] at h
      generalize hi.toNat * 256 + lo.toNat = word at h ⊢
      split_ifs with hrun hcount
      · have hleft : n + 1 - min (word % 2 ^ 13) (n + 1) = n + 1 - word % 2 ^ 13 := by omega
        rw [parseChunk_run _ _ hrun, parseChunk_run _ _ hrun, List.length_replicate, hleft] at h
        exact ih (by omega) (by omega) (List.append_cancel_left h)
      · -- a chunk before the last one
        have hword : 2 ^ 15 ≤ word := by omega
        obtain ⟨hthere, hchunk, hlater⟩ := symbols_of_eq hword (by omega) (hnil _ _) h
        have hlength : (parseChunk (n + 1) word bytes).1.length = word % 2 ^ 14 := by
          rw [length_parseChunk _ _ hword]
          omega
        rw [hchunk, hlength, parseChunk_rest _ _ hword, parseChunk_rest _ _ hword] at hlater
        rcases Nat.lt_or_ge bytes.length (chunkEnd word) with hend | hend
        · -- the run completes the deltas, and what is left of it describes more packets
          have hsize : chunkEnd word < 2 ^ 15 + 2 := by
            rw [chunkEnd, symbolBytes, deltaBytes]
            rcases symBits_symBitsOf word with hbits | hbits <;> rw [hbits] <;> split <;> omega
          obtain ⟨k, hk⟩ : ∃ k, n + 1 - word % 2 ^ 14 = k + 1 := ⟨n - word % 2 ^ 14, by omega⟩
          rw [List.drop_append, List.drop_eq_nil_of_le hend.le, List.drop_replicate, hk,
            hnil fuel (k + 1) rfl] at hlater
          have hmore := parseChunks_ones_pos k (show ([] : List UInt8).length ≤ 1 by simp)
            (show 3 ≤ N - (chunkEnd word - bytes.length) by omega) (show 0 < fuel' by omega)
          rw [hlater] at hmore
          simp at hmore
        · rw [List.drop_append_of_le_length hend] at hlater
          refine ⟨hend, ih ?_ ?_ hlater⟩ <;> rw [List.length_drop] <;> omega
      · -- the last chunk
        have hword : 2 ^ 15 ≤ word := by omega
        obtain ⟨hthere, hchunk, -⟩ := symbols_of_eq hword (by omega) (hnil _ _) h
        refine ⟨symbols_there.1 (by omega), fun hbits => ?_⟩
        rw [hbits] at hthere
        exact deltasInside_of_parseChunk _ _ hword hbits (by omega) (by omega) (by omega) hchunk

/-! ### Reading inside -/

section Reading

variable {raw : List UInt8} (suffix : List UInt8) {off : ℕ}

theorem parseReportBlock_inside (h : off + kReportBlockSize ≤ raw.length) :
    parseReportBlock (raw ++ suffix) off = parseReportBlock raw off := by
  rw [kReportBlockSize] at h
  simp (disch := omega) only [parseReportBlock, readBe32_inside, getD_inside, take_drop_inside]

theorem parseReportBlocks_inside {rc : ℕ} (h : off + rc * kReportBlockSize ≤ raw.length) :
    parseReportBlocks (raw ++ suffix) off rc = parseReportBlocks raw off rc := by
  refine List.map_congr_left fun i hi => parseReportBlock_inside suffix ?_
  have hblock := Nat.mul_le_mul_right kReportBlockSize (List.mem_range.1 hi)
  rw [Nat.succ_mul] at hblock
  omega

end Reading

/-! ### Headers -/

section Header

variable {raw : List UInt8} (hcover : LengthCovers raw) (suffix : List UInt8) (type : RtcpType)
  (minBody : ℕ)

/-- What the header of an accepted packet says. -/
def headerOf (raw : List UInt8) : RtcpHeaderInfo where
  rcOrFmt := raw.getD 0 0 &&& 0x1F
  lengthWords := readBe16 raw 2

theorem toNat_rcOrFmt (raw : List UInt8) : (headerOf raw).rcOrFmt.toNat = countField raw := rfl

theorem rcOrFmt_le (raw : List UInt8) : ¬ 31 < (headerOf raw).rcOrFmt := by
  show ¬ 31 < raw.getD 0 0 &&& 0x1F
  generalize raw.getD 0 0 = b
  revert b
  exact forall_uint8 (by decide)

include hcover

theorem parseRtcpHeader_eq : parseRtcpHeader (raw ++ suffix) type minBody
    = if (raw.getD 0 0 >>> 6) &&& 0x03 ≠ 2 then
        .error (protocolError ("RTCP version != 2: got "
          ++ toString ((raw.getD 0 0 >>> 6) &&& 0x03)))
      else if raw.getD 1 0 ≠ type.code then
        .error (protocolError ("RTCP payload type mismatch: expected " ++ toString type.code
          ++ ", got " ++ toString (raw.getD 1 0)))
      else if raw.length < minBody then
        .error (protocolError ("RTCP length field shorter than minimum body: length_bytes="
          ++ toString raw.length ++ ", min=" ++ toString minBody))
      else .ok (headerOf raw) := by
  obtain ⟨hheader, htotal⟩ := hcover
  rw [kRtcpHeaderSize] at hheader
  have hbytes : (headerOf raw).totalBytes = raw.length := htotal
  simp only [headerOf] at hbytes
  simp (disch := omega) only [parseRtcpHeader, getD_inside, readBe16_inside, hbytes, headerOf]
  rw [if_neg (by rw [List.length_append, kRtcpHeaderSize]; omega),
    if_neg (show ¬ (raw ++ suffix).length < raw.length by rw [List.length_append]; omega)]

theorem parseRtcpHeader_append :
    parseRtcpHeader (raw ++ suffix) type minBody = parseRtcpHeader raw type minBody := by
  have hself := parseRtcpHeader_eq hcover [] type minBody
  rw [List.append_nil] at hself
  rw [parseRtcpHeader_eq hcover, hself]

theorem parseRtcpHeader_ok {type minBody} (h : IsPacket type minBody raw) :
    parseRtcpHeader raw type minBody = .ok (headerOf raw) := by
  obtain ⟨hversion, htype, hmin⟩ := h
  have hself := parseRtcpHeader_eq hcover [] type minBody
  rw [List.append_nil] at hself
  rw [hself, if_neg (not_not.2 hversion), if_neg (not_not.2 htype), if_neg (by omega)]

theorem parseRtcpHeader_error {type minBody} (h : ¬ IsPacket type minBody raw) :
    ∃ e, parseRtcpHeader raw type minBody = .error e := by
  have hself := parseRtcpHeader_eq hcover [] type minBody
  rw [List.append_nil] at hself
  rw [hself]
  split_ifs with hversion htype hmin
  · exact ⟨_, rfl⟩
  · exact ⟨_, rfl⟩
  · exact ⟨_, rfl⟩
  · exact absurd ⟨not_not.1 hversion, not_not.1 htype, Nat.le_of_not_lt hmin⟩ h

end Header

/-! ### Reports -/

theorem checkReports_ok (name : String) {raw : List UInt8} {body : ℕ} {h : RtcpHeaderInfo}
    (hrc : ¬ 31 < h.rcOrFmt) (hneed : reportsNeed body h ≤ raw.length) :
    checkReports name raw body h = .ok () := by
  have hbody : body ≤ reportsNeed body h := Nat.le_add_right _ _
  rw [checkReports, if_neg hrc, if_neg (by omega), if_neg (by omega)]

theorem checkReports_error (name : String) {raw : List UInt8} {body : ℕ} {h : RtcpHeaderInfo}
    (hneed : raw.length < reportsNeed body h) : ∃ e, checkReports name raw body h = .error e := by
  rw [checkReports]
  split_ifs
  · exact ⟨_, rfl⟩
  · exact ⟨_, rfl⟩
  · exact ⟨_, rfl⟩

/-- What the report parsers do after the header: `check` and then `read`. -/
theorem reports_alone {α : Type} {raw : List UInt8} (hcover : LengthCovers raw) {type : RtcpType}
    {body : ℕ} {name : String} {read : List UInt8 → RtcpHeaderInfo → α}
    {parse : List UInt8 → Except RtpError α}
    (hparse : ∀ raw, parse raw = do
      let h ← parseRtcpHeader raw type body
      checkReports name raw body h
      return read raw h)
    (hread : ∀ suffix, body + countField raw * kReportBlockSize ≤ raw.length →
      read (raw ++ suffix) (headerOf raw) = read raw (headerOf raw)) :
    ((∀ suffix, parse (raw ++ suffix) = parse raw)
        ↔ (IsPacket type body raw → body + countField raw * kReportBlockSize ≤ raw.length))
      ∧ (¬ IsPacket type body raw → ∀ suffix, ∃ e, parse (raw ++ suffix) = .error e) := by
  by_cases hpacket : IsPacket type body raw
  · have hheader := parseRtcpHeader_ok hcover hpacket
    have happend : ∀ suffix, parse (raw ++ suffix)
        = (checkReports name (raw ++ suffix) body (headerOf raw) >>= fun _ =>
          pure (read (raw ++ suffix) (headerOf raw))) := by
      intro suffix
      rw [hparse, parseRtcpHeader_append hcover, hheader]
      rfl
    have hfits : ∀ suffix, body + countField raw * kReportBlockSize ≤ (raw ++ suffix).length →
        parse (raw ++ suffix) = .ok (read (raw ++ suffix) (headerOf raw)) := by
      intro suffix hneed
      rw [happend, checkReports_ok name (rcOrFmt_le raw) hneed]
      rfl
    refine ⟨⟨fun hsame _ => ?_, fun hneed suffix => ?_⟩, fun h => absurd hpacket h⟩
    · by_contra hshort
      -- enough bytes behind the packet make the report complete
      have hok := hfits (List.replicate (body + countField raw * kReportBlockSize) 0)
        (by rw [List.length_append, List.length_replicate]; omega)
      obtain ⟨e, herror⟩ := checkReports_error name
        (show raw.length < reportsNeed body (headerOf raw) from Nat.lt_of_not_le hshort)
      have hself := happend []
      rw [List.append_nil, herror] at hself
      rw [hsame, hself] at hok
      simp [bind, Except.bind] at hok
    · have hself := hfits []
      rw [List.append_nil] at hself
      rw [hself (hneed hpacket), hfits suffix (by rw [List.length_append]; have := hneed hpacket; omega),
        hread suffix (hneed hpacket)]
  · obtain ⟨e, herror⟩ := parseRtcpHeader_error hcover hpacket
    have hall : ∀ suffix, parse (raw ++ suffix) = .error e := by
      intro suffix
      rw [hparse, parseRtcpHeader_append hcover, herror]
      rfl
    have hself : parse raw = .error e := by
      rw [hparse, herror]
      rfl
    refine ⟨⟨fun _ h => absurd h hpacket, fun _ suffix => ?_⟩, fun _ suffix => ⟨e, hall suffix⟩⟩
    rw [hall, hself]

theorem parseSr_alone {raw : List UInt8} (hcover : LengthCovers raw) :
    ((∀ suffix, parseSr (raw ++ suffix) = parseSr raw) ↔ (IsPacket .sr kSrBody raw →
        kSrBody + countField raw * kReportBlockSize ≤ raw.length))
      ∧ (¬ IsPacket .sr kSrBody raw → ∀ suffix, ∃ e, parseSr (raw ++ suffix) = .error e) := by
  refine reports_alone hcover (fun _ => rfl) fun suffix hneed => ?_
  have hbody : kRtcpHeaderSize + 24 ≤ raw.length := by
    rw [kSrBody] at hneed
    omega
  simp (disch := omega) only [readBe32_inside]
  rw [toNat_rcOrFmt, parseReportBlocks_inside suffix hneed]

theorem parseRr_alone {raw : List UInt8} (hcover : LengthCovers raw) :
    ((∀ suffix, parseRr (raw ++ suffix) = parseRr raw) ↔ (IsPacket .rr kRrBody raw →
        kRrBody + countField raw * kReportBlockSize ≤ raw.length))
      ∧ (¬ IsPacket .rr kRrBody raw → ∀ suffix, ∃ e, parseRr (raw ++ suffix) = .error e) := by
  refine reports_alone hcover (fun _ => rfl) fun suffix hneed => ?_
  have hbody : kRtcpHeaderSize + 4 ≤ raw.length := by
    rw [kRrBody] at hneed
    omega
  rw [readBe32_inside suffix hbody, toNat_rcOrFmt, parseReportBlocks_inside suffix hneed]

/-! ### Feedback -/

theorem countField_eq {raw : List UInt8} {fmt : UInt8} :
    countField raw = fmt.toNat ↔ (headerOf raw).rcOrFmt = fmt := UInt8.toNat_inj

/-- A NACK takes what follows for more entries. -/
theorem parseNack_alone {raw : List UInt8} (hcover : LengthCovers raw) :
    (∀ suffix, parseNack (raw ++ suffix) = parseNack raw)
      ↔ (IsPacket .rtpfb kNackBody raw → countField raw ≠ kGenericNack.toNat) := by
  by_cases hpacket : IsPacket .rtpfb kNackBody raw
  · have hheader := parseRtcpHeader_ok hcover hpacket
    by_cases hfmt : (headerOf raw).rcOrFmt = kGenericNack
    · have hwords : raw.length % 4 = 0 := by
        rw [← hcover.2]
        omega
      have hbody : 12 ≤ raw.length := hpacket.2.2
      have hentries : ∀ k, ∃ nack, parseNack (raw ++ List.replicate (4 * k) 0) = .ok nack
          ∧ nack.entries.length = (raw.length - 12) / 4 + k := by
        intro k
        simp only [parseNack, parseRtcpHeader_append hcover, hheader, bind, Except.bind, pure,
          Except.pure, hfmt, ne_eq, not_true_eq_false, if_false]
        rw [if_neg, if_neg]
        · refine ⟨_, rfl, ?_⟩
          simp only [List.length_map, List.length_range, List.length_append, List.length_replicate,
            kNackBody, kRtcpHeaderSize, kNackFciSize]
          omega
        · simp only [List.length_append, List.length_replicate, kNackBody, kRtcpHeaderSize,
            kNackFciSize]
          omega
        · simp only [List.length_append, List.length_replicate, kNackBody, kRtcpHeaderSize]
          omega
      obtain ⟨nack, hnack, hlength⟩ := hentries 0
      obtain ⟨longer, hlonger, hlength'⟩ := hentries 1
      refine ⟨fun hsame => ?_, fun h => absurd (countField_eq.2 hfmt) (h hpacket)⟩
      rw [Nat.mul_zero, List.replicate_zero, List.append_nil] at hnack
      rw [hsame, hnack] at hlonger
      rw [← Except.ok.inj hlonger, hlength] at hlength'
      omega
    · refine ⟨fun _ _ h => hfmt (countField_eq.1 h), fun _ suffix => ?_⟩
      simp only [parseNack, parseRtcpHeader_append hcover, hheader, bind, Except.bind, ne_eq, hfmt,
        not_false_eq_true, if_true]
  · obtain ⟨e, herror⟩ := parseRtcpHeader_error hcover hpacket
    refine ⟨fun _ h => absurd h hpacket, fun _ suffix => ?_⟩
    rw [parseNack, parseNack, parseRtcpHeader_append hcover, herror]
    rfl

theorem parseTransportCc_alone {raw : List UInt8} (hcover : LengthCovers raw) :
    (∀ suffix, parseTransportCc (raw ++ suffix) = parseTransportCc raw)
      ↔ (IsPacket .rtpfb kTransportCcBody raw → countField raw = kTransportCc.toNat →
        ChunksCover (raw.length - kTransportCcBody) (readBe16 raw (kRtcpHeaderSize + 10)).toNat
          (raw.drop kTransportCcBody)) := by
  by_cases hpacket : IsPacket .rtpfb kTransportCcBody raw
  · have hheader := parseRtcpHeader_ok hcover hpacket
    have hbody : kTransportCcBody ≤ raw.length := hpacket.2.2
    by_cases hfmt : (headerOf raw).rcOrFmt = kTransportCc
    · let count := (readBe16 raw (kRtcpHeaderSize + 10)).toNat
      let chunks := raw.drop kTransportCcBody
      have hsize : kRtcpHeaderSize + 16 ≤ raw.length := hbody
      have hparse : ∀ suffix, parseTransportCc (raw ++ suffix) = .ok {
          senderSsrc := readBe32 raw kRtcpHeaderSize
          mediaSsrc := readBe32 raw (kRtcpHeaderSize + 4)
          baseSeq := readBe16 raw (kRtcpHeaderSize + 8)
          packetStatusCount := readBe16 raw (kRtcpHeaderSize + 10)
          referenceTime24mhz := beNat ((raw.drop (kRtcpHeaderSize + 12)).take 3)
          packets := parseChunks (chunks ++ suffix).length count (chunks ++ suffix) } := by
        intro suffix
        simp (disch := omega) only [parseTransportCc, parseRtcpHeader_append hcover, hheader, bind,
          Except.bind, pure, Except.pure, hfmt, ne_eq, not_true_eq_false, if_false, readBe32_inside,
          readBe16_inside]
        rw [if_neg (by rw [List.length_append]; omega),
          take_drop_inside suffix (show kRtcpHeaderSize + 12 + 3 ≤ raw.length by omega),
          List.drop_append_of_le_length hbody]
      have hself := hparse []
      rw [List.append_nil, List.append_nil] at hself
      have hlength : chunks.length = raw.length - kTransportCcBody := List.length_drop
      rw [← hlength]
      refine ⟨fun hsame _ _ => ?_, fun hchunks suffix => ?_⟩
      · have hones := hsame (List.replicate (2 ^ 16) 0xFF)
        rw [hparse, hself, Except.ok.injEq, TransportCcFeedback.mk.injEq] at hones
        refine chunksCover_of_eq chunks.length (le_refl _) (le_refl _) ?_ hones.2.2.2.2.2
        rw [List.length_append, List.length_replicate]
      · have hcovers := hchunks hpacket (countField_eq.2 hfmt)
        have hpackets := parseChunks_append suffix chunks.length
          (show chunks.length ≤ (chunks ++ suffix).length by rw [List.length_append]; omega) hcovers
        rw [hparse, hself, hpackets]
    · refine ⟨fun _ _ h => absurd (countField_eq.1 h) hfmt, fun _ suffix => ?_⟩
      simp only [parseTransportCc, parseRtcpHeader_append hcover, hheader, bind, Except.bind, ne_eq,
        hfmt, not_false_eq_true, if_true]
  · obtain ⟨e, herror⟩ := parseRtcpHeader_error hcover hpacket
    refine ⟨fun _ h => absurd h hpacket, fun _ suffix => ?_⟩
    rw [parseTransportCc, parseTransportCc, parseRtcpHeader_append hcover, herror]
    rfl

/-! ### Packets alone -/

/-- A packet is read the same with and without others behind it exactly when it holds all that it
announces, and is no NACK. -/
theorem readAlone_iff {raw : List UInt8} (hcover : LengthCovers raw) :
    ReadAlone raw ↔ StaysInside raw := by
  obtain ⟨hsr, hsrError⟩ := parseSr_alone hcover
  obtain ⟨hrr, hrrError⟩ := parseRr_alone hcover
  have hnack := parseNack_alone hcover
  have htcc := parseTransportCc_alone hcover
  constructor
  · rintro ⟨hsame, -⟩
    exact ⟨hsr.1 fun suffix => (hsame suffix).1, hrr.1 fun suffix => (hsame suffix).2.1,
      hnack.1 fun suffix => (hsame suffix).2.2.1, htcc.1 fun suffix => (hsame suffix).2.2.2⟩
  · rintro ⟨hin, hin', hfmt, hchunks⟩
    refine ⟨fun suffix => ⟨hsr.2 hin suffix, hrr.2 hin' suffix, hnack.2 hfmt suffix,
      htcc.2 hchunks suffix⟩, fun suffix => ⟨fun hlong => ?_, fun hlong => ?_⟩⟩
    · exact hsrError (fun hpacket => absurd (hin hpacket) (by omega)) suffix
    · exact hrrError (fun hpacket => absurd (hin' hpacket) (by omega)) suffix

/-- Feedback on one packet, received. -/
def singleFeedback : List UInt8 :=
  [0x8F, 205, 0, 5, 0, 0, 0, 1, 0, 0, 0, 2, 0, 9, 0, 1, 0, 0, 0, 0, 0x20, 0x01, 0, 0]

theorem readAlone_singleFeedback : LengthCovers singleFeedback ∧ ReadAlone singleFeedback := by
  have hcover : LengthCovers singleFeedback := ⟨by decide, by decide⟩
  refine ⟨hcover, (readAlone_iff hcover).2 ⟨fun h => absurd h.2.1 (by decide),
    fun h => absurd h.2.1 (by decide), fun _ => by decide, fun _ _ => ?_⟩⟩
  have hcount : (readBe16 singleFeedback (kRtcpHeaderSize + 10)).toNat = 1 := by decide
  have hchunks : singleFeedback.drop kTransportCcBody = [0x20, 0x01, 0, 0] := rfl
  rw [hcount, hchunks]
  simp [singleFeedback, kTransportCcBody, kRtcpHeaderSize, ChunksCover]

/-- A sender report that announces a block which is not there. -/
def shortReport : List UInt8 := [0x81, 200, 0, 6] ++ List.replicate 24 0

theorem block_read_from_next_packet : ¬ ∀ raw, LengthCovers raw → ReadAlone raw := by
  intro h
  have hcover : LengthCovers shortReport := ⟨by decide, by decide⟩
  have hsame := (h shortReport hcover).1
  have hfits := (parseSr_alone hcover).1.1 (fun suffix => (hsame suffix).1)
    ⟨by decide, by decide, by decide⟩
  revert hfits
  decide

end NimRtc.Rtp
