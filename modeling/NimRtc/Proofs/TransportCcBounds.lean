import NimRtc.Proofs.RtcpCompound
import NimRtc.TransportCcMemory

/-!
# The chunk loop stays inside its arrays

With each access checked, `parse_transport_cc` comes to what it reads of the chunks. A chunk whose
symbols were cut short has used up the bytes, so that no delta is read for it and no symbol is looked
up; otherwise there is a symbol for each delta. `acc` holds the unread bits and no others: fewer than
14 before a byte is added.
-/

namespace NimRtc.Rtp.TransportCcMemory

open Checked

variable {raw : List UInt8} {rounds : ℕ}

theorem readByte_of_lt {off : ℕ} (h : off < raw.length) : readByte raw off = .ok raw[off] :=
  get_of_lt h

theorem drop_of_lt {off : ℕ} (h : off < raw.length) : raw.drop off = raw[off] :: raw.drop (off + 1) :=
  List.drop_eq_getElem_cons h

/-! ### Fields -/

theorem readBe_field {n off : ℕ} (h : off + n ≤ raw.length) :
    readBe raw n off = .ok (beNat ((raw.drop off).take n)) :=
  Checked.readBe_field h

theorem readBe_word {off : ℕ} (h : off + 2 ≤ raw.length) :
    readBe raw 2 off = .ok (raw[off].toNat * 256 + raw[off + 1].toNat) := by
  have hlo : off + 1 < raw.length := by omega
  rw [readBe_field h, drop_of_lt (Nat.lt_of_succ_lt hlo), drop_of_lt hlo,
    List.take_succ_cons, List.take_succ_cons, List.take_zero]
  simp only [beNat, List.length_cons, List.length_nil, Nat.zero_add, Nat.pow_one, Nat.pow_zero,
    Nat.mul_one, Nat.add_zero]

/-! ### Symbols -/

theorem unpacked_bits {symBits : ℕ} (h : SymBits symBits) (byte : UInt8) {k : ℕ}
    (hk : k < 8 / symBits) :
    (if symBits = 1 then byte.toNat >>> (7 - symBits * k) &&& 0x1
        else byte.toNat >>> (6 - symBits * k) &&& 0x3)
      = byte.toNat / 2 ^ (8 - symBits * (k + 1)) % 2 ^ symBits := by
  rcases h with rfl | rfl
  · rw [if_pos rfl, Nat.and_two_pow_sub_one_eq_mod _ 1, Nat.shiftRight_eq_div_pow,
      show 7 - 1 * k = 8 - 1 * (k + 1) by omega]
  · rw [if_neg (by decide), Nat.and_two_pow_sub_one_eq_mod _ 2, Nat.shiftRight_eq_div_pow,
      show 6 - 2 * k = 8 - 2 * (k + 1) by omega]

/-- Of a byte the symbols from the `k`-th on are added, up to the `n` that are missing. -/
theorem unpackByte_eq {symBits : ℕ} (h : SymBits symBits) (total : ℕ) (byte : UInt8) :
    ∀ (left k n : ℕ) (symbols : List PacketStatus), 8 / symBits < left + k → k ≤ 8 / symBits →
      n * symBits ≤ total →
      unpackByte byte symBits total left (symBits * k) (total - n * symBits) symbols
        = .ok (symbols ++ ((symbolsIn symBits byte).drop k).take n,
            total - (n - (8 / symBits - k)) * symBits)
  | 0, k, n, symbols, hleft, hk, _ => absurd hleft (by omega)
  | left + 1, k, n, symbols, hleft, hk, htotal => by
    have hpos : 0 < symBits := by rcases h with rfl | rfl <;> omega
    have hdvd : 8 / symBits * symBits = 8 := by rcases h with rfl | rfl <;> rfl
    rw [unpackByte]
    by_cases hfull : k = 8 / symBits
    · have hm : ¬ (symBits * k < 8 ∧ total - n * symBits < total) := by
        rw [hfull, Nat.mul_comm, hdvd]
        omega
      rw [if_neg hm, List.drop_eq_nil_of_le (by rw [length_symbolsIn, hfull]), hfull, Nat.sub_self,
        Nat.sub_zero, List.take_nil, List.append_nil]
      rfl
    · have hk' : k < 8 / symBits := by omega
      have hm : symBits * k < 8 := by
        calc symBits * k < symBits * (8 / symBits) := Nat.mul_lt_mul_of_pos_left hk' hpos
          _ = 8 := by rw [Nat.mul_comm, hdvd]
      cases n with
      | zero =>
        rw [if_neg (by omega), List.take_zero, List.append_nil, Nat.zero_sub]
        rfl
      | succ n =>
        have hstep : (n + 1) * symBits = n * symBits + symBits := Nat.succ_mul n symBits
        have hget : (symbolsIn symBits byte).drop k
            = .ofBits (byte.toNat / 2 ^ (8 - symBits * (k + 1)) % 2 ^ symBits)
              :: (symbolsIn symBits byte).drop (k + 1) := by
          rw [List.drop_eq_getElem_cons (by rwa [length_symbolsIn])]
          simp [symbolsIn]
        rw [if_pos (by omega), unpacked_bits h byte hk', hget, List.take_succ_cons,
          show symBits * k + symBits = symBits * (k + 1) from rfl,
          show total - (n + 1) * symBits + symBits = total - n * symBits by omega,
          unpackByte_eq h total byte left (k + 1) n _ (by omega) hk' (by omega), List.append_assoc,
          List.singleton_append, show n + 1 - (8 / symBits - k) = n - (8 / symBits - (k + 1)) by omega]

/-- The status list is read to its end or to the end of the packet. -/
theorem readStatuses_eq {symBits total : ℕ} (h : SymBits symBits) (hrounds : 8 < rounds) :
    ∀ (left off n : ℕ) (symbols : List PacketStatus), raw.length - off < left →
      off ≤ raw.length → n * symBits ≤ total →
      ∃ off', readStatuses raw rounds symBits total left off (total - n * symBits) symbols
          = .ok (symbols ++ (readSymbols symBits n (raw.drop off)).1, off')
        ∧ off' ≤ raw.length ∧ raw.drop off' = (readSymbols symBits n (raw.drop off)).2
  | 0, off, n, symbols, hleft, _, _ => absurd hleft (Nat.not_lt_zero _)
  | left + 1, off, n, symbols, hleft, hoff, htotal => by
    have hpos : 0 < symBits := by rcases h with rfl | rfl <;> omega
    rw [readStatuses]
    cases n with
    | zero =>
      rw [if_neg (by omega)]
      exact ⟨off, by rw [readSymbols, List.append_nil]; rfl, hoff, by rw [readSymbols]⟩
    | succ n =>
      have hmore : total - (n + 1) * symBits < total := by
        have := Nat.mul_pos (show 0 < n + 1 by omega) hpos
        omega
      rw [if_pos hmore]
      by_cases hend : raw.length ≤ off
      · rw [if_pos hend, List.drop_eq_nil_of_le hend, readSymbols]
        exact ⟨off, by rw [List.append_nil]; rfl, hoff, List.drop_eq_nil_of_le hend⟩
      · have hlt : off < raw.length := not_le.1 hend
        have hbyte := unpackByte_eq h total raw[off] rounds 0 (n + 1) symbols
          (by rcases h with rfl | rfl <;> omega) (Nat.zero_le _) htotal
        rw [Nat.mul_zero, List.drop_zero, Nat.sub_zero] at hbyte
        have hle : (n + 1 - 8 / symBits) * symBits ≤ total :=
          (Nat.mul_le_mul_right _ (Nat.sub_le _ _)).trans htotal
        obtain ⟨off', hread, hoff', hrest⟩ := readStatuses_eq h hrounds left (off + 1)
          (n + 1 - 8 / symBits) (symbols ++ (symbolsIn symBits raw[off]).take (n + 1)) (by omega) hlt hle
        refine ⟨off', ?_, hoff', ?_⟩
        · rw [if_neg hend, readByte_of_lt hlt, ok_bind, hbyte, ok_bind]
          simp only
          rw [hread, drop_of_lt hlt, readSymbols, List.append_assoc]
        · rw [hrest, drop_of_lt hlt, readSymbols]

/-! ### Deltas -/

/-- Fewer than 14 bits are unread before a byte is added, so 32 bits hold them all. -/
theorem fill_eq : ∀ (left off acc bitsLeft : ℕ), 22 < 8 * left + bitsLeft → bitsLeft < 22 →
    off ≤ raw.length → acc < 2 ^ bitsLeft →
    ∃ off', fill raw left off acc bitsLeft = .ok (off', (fillBits (raw.drop off) acc bitsLeft).1,
        (fillBits (raw.drop off) acc bitsLeft).2.1)
      ∧ off' ≤ raw.length ∧ raw.drop off' = (fillBits (raw.drop off) acc bitsLeft).2.2
      ∧ (fillBits (raw.drop off) acc bitsLeft).1 < 2 ^ (fillBits (raw.drop off) acc bitsLeft).2.1
      ∧ (fillBits (raw.drop off) acc bitsLeft).2.1 < 22
  | 0, off, acc, bitsLeft, hleft, hbits, _, _ => absurd hleft (by omega)
  | left + 1, off, acc, bitsLeft, hleft, hbits, hoff, hacc => by
    rw [fill]
    by_cases hfull : bitsLeft < 14
    · rw [if_pos hfull]
      by_cases hend : raw.length ≤ off
      · rw [if_pos hend, List.drop_eq_nil_of_le hend]
        exact ⟨raw.length, rfl, le_refl _, List.drop_length, hacc, hbits⟩
      · have hlt : off < raw.length := not_le.1 hend
        have hwide : acc * 256 + raw[off].toNat < 2 ^ (bitsLeft + 8) := by
          have hbyte : raw[off].toNat < 256 := raw[off].toNat_lt
          have hpow : 2 ^ (bitsLeft + 8) = 2 ^ bitsLeft * 256 := Nat.pow_add 2 bitsLeft 8
          have := Nat.mul_le_mul_right 256 (Nat.le_of_lt_succ (Nat.lt_succ_of_lt hacc))
          omega
        have hkeep : acc <<< 8 % 2 ^ 32 = acc <<< 8 := by
          refine Nat.mod_eq_of_lt ?_
          have hpow : 2 ^ (bitsLeft + 8) ≤ 2 ^ 32 := Nat.pow_le_pow_right (by omega) (by omega)
          have hle : acc * 256 ≤ acc * 256 + raw[off].toNat := Nat.le_add_right _ _
          rw [Nat.shiftLeft_eq]
          exact (hle.trans_lt hwide).trans_le hpow
        have hnext := fill_eq left (off + 1) (acc * 256 + raw[off].toNat) (bitsLeft + 8) (by omega)
          (by omega) hlt hwide
        rw [if_neg hend, readByte_of_lt hlt, ok_bind, if_neg (by omega), hkeep, shiftLeft_or_byte,
          drop_of_lt hlt, fillBits, if_pos hfull]
        exact hnext
    · rw [if_neg hfull, fillBits_full _ _ _ (not_lt.1 hfull)]
      exact ⟨off, rfl, hoff, rfl, hacc, hbits⟩

theorem keep_unread (acc bitsLeft : ℕ) :
    (acc &&& if bitsLeft = 0 then 0 else 1 <<< bitsLeft - 1) = acc % 2 ^ bitsLeft := by
  split_ifs with hzero
  · rw [hzero, Nat.and_zero, Nat.pow_zero, Nat.mod_one]
  · rw [Nat.one_shiftLeft, Nat.and_two_pow_sub_one_eq_mod]

theorem top_bits (acc k : ℕ) : acc >>> k &&& 0x3FFF = acc / 2 ^ k % 2 ^ 14 := by
  rw [Nat.and_two_pow_sub_one_eq_mod _ 14, Nat.shiftRight_eq_div_pow]

/-- Where there is a symbol for each delta, the one it looks up is there. -/
theorem readDeltasAt_eq {symbols : List PacketStatus} (hrounds : 8 < rounds) :
    ∀ (n i off acc bitsLeft : ℕ) (deltas : List ℤ), i + n = symbols.length → bitsLeft < 22 →
      off ≤ raw.length → acc < 2 ^ bitsLeft →
      ∃ off', readDeltasAt raw rounds symbols n i off acc bitsLeft deltas
          = .ok (deltas ++ (readDeltas (symbols.drop i) acc bitsLeft (raw.drop off)).1, off')
        ∧ off' ≤ raw.length
        ∧ raw.drop off' = (readDeltas (symbols.drop i) acc bitsLeft (raw.drop off)).2
  | 0, i, off, acc, bitsLeft, deltas, hi, _, hoff, _ => by
    rw [List.drop_eq_nil_of_le (show symbols.length ≤ i by omega), readDeltas, readDeltasAt,
      List.append_nil]
    exact ⟨off, rfl, hoff, rfl⟩
  | n + 1, i, off, acc, bitsLeft, deltas, hi, hbits, hoff, hacc => by
    have hlt : i < symbols.length := by omega
    have hnext : i + 1 + n = symbols.length := by omega
    obtain ⟨off₁, hfill, hoff₁, hrest, hacc₁, hbits₁⟩ :=
      fill_eq rounds off acc bitsLeft (by omega) hbits hoff hacc
    rw [readDeltasAt, hfill, ok_bind, List.drop_eq_getElem_cons hlt, readDeltas]
    simp only
    rw [← hrest]
    generalize (fillBits (raw.drop off) acc bitsLeft).1 = acc₁ at hacc₁ ⊢
    generalize (fillBits (raw.drop off) acc bitsLeft).2.1 = bits₁ at hacc₁ hbits₁ ⊢
    by_cases hshort : bits₁ < 14
    · rw [if_pos hshort, if_pos hshort]
      obtain ⟨off', hlater, hoff', hrest'⟩ := readDeltasAt_eq hrounds n (i + 1) off₁ acc₁ bits₁
        (deltas ++ [0]) hnext hbits₁ hoff₁ hacc₁
      exact ⟨off', by rw [hlater, List.append_assoc]; rfl, hoff', hrest'⟩
    · rw [if_neg hshort, if_neg hshort, symbolAt, get_of_lt hlt, ok_bind, keep_unread, top_bits]
      obtain ⟨off', hlater, hoff', hrest'⟩ := readDeltasAt_eq hrounds n (i + 1) off₁
        (acc₁ % 2 ^ (bits₁ - 14)) (bits₁ - 14)
        (deltas ++ [if symbols[i] = .notReceived then 0
          else signExtend 14 (acc₁ / 2 ^ (bits₁ - 14) % 2 ^ 14)])
        hnext (by omega) hoff₁ (Nat.mod_lt _ (Nat.two_pow_pos _))
      exact ⟨off', by rw [hlater, List.append_assoc]; rfl, hoff', hrest'⟩

/-- At the end of the packet no symbol is looked up. -/
theorem readDeltasAt_end (hrounds : 8 < rounds) (symbols : List PacketStatus) :
    ∀ (n i : ℕ) (deltas : List ℤ),
      readDeltasAt raw rounds symbols n i raw.length 0 0 deltas
        = .ok (deltas ++ List.replicate n 0, raw.length)
  | 0, i, deltas => by
    rw [readDeltasAt, List.replicate_zero, List.append_nil]
    rfl
  | n + 1, i, deltas => by
    obtain ⟨off₁, hfill, hoff₁, hrest, -, -⟩ :=
      fill_eq rounds raw.length 0 0 (by omega) (by omega) (le_refl _) (by simp)
    rw [List.drop_length] at hfill hrest
    have hend : off₁ = raw.length := le_antisymm hoff₁ (List.drop_eq_nil_iff.1 hrest)
    rw [readDeltasAt, hfill, ok_bind, hend]
    simp only [fillBits]
    rw [if_pos (by omega), readDeltasAt_end hrounds symbols n, List.append_assoc, List.replicate_succ]
    rfl

/-! ### Unread bits -/

/-- The bits that are in `acc` and in the bytes, as a number. -/
def unread (acc : ℕ) (bytes : List UInt8) : ℕ := acc * 256 ^ bytes.length + beNat bytes

theorem unread_fillBits (acc bitsLeft : ℕ) (bytes : List UInt8) :
    unread (fillBits bytes acc bitsLeft).1 (fillBits bytes acc bitsLeft).2.2 = unread acc bytes
      ∧ (fillBits bytes acc bitsLeft).2.1 + 8 * (fillBits bytes acc bitsLeft).2.2.length
        = bitsLeft + 8 * bytes.length
      ∧ ((fillBits bytes acc bitsLeft).2.1 < 14 → (fillBits bytes acc bitsLeft).2.2 = []) := by
  induction bytes generalizing acc bitsLeft with
  | nil => exact ⟨rfl, rfl, fun _ => rfl⟩
  | cons byte bytes ih =>
    rw [fillBits]
    split_ifs with hmore
    · obtain ⟨hbits, hcount, hend⟩ := ih (acc * 256 + byte.toNat) (bitsLeft + 8)
      refine ⟨?_, by rw [hcount, List.length_cons]; omega, hend⟩
      rw [hbits, unread, unread, beNat, List.length_cons, Nat.pow_succ, Nat.add_mul, Nat.mul_assoc,
        Nat.mul_comm 256, Nat.add_assoc]
    · exact ⟨rfl, rfl, fun hshort => absurd hshort hmore⟩

theorem pow_bytes (n : ℕ) : 256 ^ n = 2 ^ (8 * n) := by
  rw [Nat.pow_mul]

/-- The top of the unread bits is the top of `acc`, and what is left of `acc` keeps the others. -/
theorem unread_split (acc : ℕ) {bitsLeft : ℕ} (h : 14 ≤ bitsLeft) (bytes : List UInt8) :
    acc / 2 ^ (bitsLeft - 14) = unread acc bytes / 2 ^ (bitsLeft + 8 * bytes.length - 14)
      ∧ unread (acc % 2 ^ (bitsLeft - 14)) bytes
        = unread acc bytes % 2 ^ (bitsLeft + 8 * bytes.length - 14) := by
  have hlow := beNat_lt bytes
  have hpow : 2 ^ (bitsLeft + 8 * bytes.length - 14) = 256 ^ bytes.length * 2 ^ (bitsLeft - 14) := by
    rw [pow_bytes, ← Nat.pow_add]
    congr 1
    omega
  have hpos : 0 < 256 ^ bytes.length := Nat.pow_pos (by omega)
  have hdiv : unread acc bytes / 256 ^ bytes.length = acc := by
    rw [unread, Nat.mul_comm, Nat.mul_add_div hpos, Nat.div_eq_of_lt hlow, Nat.add_zero]
  have hmod : unread acc bytes % 256 ^ bytes.length = beNat bytes := by
    rw [unread, Nat.mul_comm, Nat.mul_add_mod, Nat.mod_eq_of_lt hlow]
  constructor
  · rw [hpow, ← Nat.div_div_eq_div_mul, hdiv]
  · rw [hpow, Nat.mod_mul, hdiv, hmod, unread, Nat.mul_comm, Nat.add_comm]

/-- The `i`-th group of 14 of `n` bits. -/
def delta14 (bits n i : ℕ) : ℕ := bits / 2 ^ (n - 14 * (i + 1)) % 2 ^ 14

theorem delta14_succ {bits n i : ℕ} (h : 14 * (i + 2) ≤ n) :
    delta14 (bits % 2 ^ (n - 14)) (n - 14) i = delta14 bits n (i + 1) := by
  have hpow : 2 ^ (n - 14) = 2 ^ (n - 14 - 14 * (i + 1)) * (2 ^ 14 * 2 ^ (14 * i)) := by
    rw [← Nat.pow_add, ← Nat.pow_add]
    congr 1
    omega
  rw [delta14, delta14, show n - 14 * (i + 1 + 1) = n - 14 - 14 * (i + 1) by omega, hpow,
    Nat.mod_mul_right_div_self, Nat.mod_mul_right_mod]

/-- What the source makes of the `i`-th group for a symbol. -/
def deltaFor (bits n i : ℕ) (symbol : PacketStatus) : ℤ :=
  if 14 * (i + 1) ≤ n ∧ symbol ≠ .notReceived then signExtend 14 (delta14 bits n i) else 0

/-- Each delta is its own group of the bits that were unread at the start. -/
theorem readDeltas_getElem? : ∀ (symbols : List PacketStatus) (acc bitsLeft : ℕ) (bytes : List UInt8)
    (i : ℕ), (readDeltas symbols acc bitsLeft bytes).1[i]?
      = symbols[i]?.map (deltaFor (unread acc bytes) (bitsLeft + 8 * bytes.length) i)
  | [], acc, bitsLeft, bytes, i => rfl
  | symbol :: symbols, acc, bitsLeft, bytes, i => by
    obtain ⟨hbits, hcount, hend⟩ := unread_fillBits acc bitsLeft bytes
    rw [readDeltas, ← hbits, ← hcount]
    simp only
    generalize (fillBits bytes acc bitsLeft).1 = acc₁
    generalize (fillBits bytes acc bitsLeft).2.1 = bits₁ at hend ⊢
    generalize (fillBits bytes acc bitsLeft).2.2 = bytes₁ at hend ⊢
    by_cases hshort : bits₁ < 14
    · have hzero : ∀ i, deltaFor (unread acc₁ bytes₁) (bits₁ + 8 * bytes₁.length) i = fun _ => 0 := by
        intro i
        funext s
        refine if_neg fun h => ?_
        rw [hend hshort, List.length_nil] at h
        omega
      rw [if_pos hshort, hzero]
      cases i with
      | zero => rfl
      | succ i => rw [List.getElem?_cons_succ, List.getElem?_cons_succ, readDeltas_getElem?, hzero]
    · obtain ⟨htop, hrest⟩ := unread_split acc₁ (not_lt.1 hshort) bytes₁
      have hleft : bits₁ - 14 + 8 * bytes₁.length = bits₁ + 8 * bytes₁.length - 14 := by omega
      rw [if_neg hshort]
      cases i with
      | zero =>
        rw [List.getElem?_cons_zero, List.getElem?_cons_zero, Option.map_some, deltaFor, delta14, htop]
        by_cases hs : symbol = .notReceived
        · rw [if_pos hs, if_neg (fun h => h.2 hs)]
        · rw [if_neg hs, if_pos ⟨by omega, hs⟩]
      | succ i =>
        rw [List.getElem?_cons_succ, List.getElem?_cons_succ, readDeltas_getElem?, hrest, hleft]
        congr 1
        funext s
        unfold deltaFor
        by_cases hn : 14 * (i + 1 + 1) ≤ bits₁ + 8 * bytes₁.length
        · have hn' : 14 * (i + 1) ≤ bits₁ + 8 * bytes₁.length - 14 := by omega
          simp only [hn, hn', true_and, delta14_succ hn]
        · have hn' : ¬ 14 * (i + 1) ≤ bits₁ + 8 * bytes₁.length - 14 := by omega
          simp only [hn, hn', false_and, if_false]

/-! ### Packets -/

theorem pushRun_eq (count : ℕ) (s : PacketStatus) :
    ∀ (n : ℕ) (packets : List TransportCcPacketStatus),
      pushRun count s n packets
        = packets ++ List.replicate (min n (count - packets.length)) ⟨s, 0⟩
  | 0, packets => by simp [pushRun]
  | n + 1, packets => by
    rw [pushRun]
    split_ifs with hroom
    · have hmin : min (n + 1) (count - packets.length)
          = min n (count - (packets.length + 1)) + 1 := by
        omega
      rw [pushRun_eq count s n, List.length_append, List.length_singleton, hmin,
        List.replicate_succ, List.append_assoc]
      rfl
    · rw [show min (n + 1) (count - packets.length) = 0 by omega, List.replicate_zero,
        List.append_nil]

/-- The packets of the symbols, each with its delta. -/
theorem pushSymbols_eq {count : ℕ} {sBit : Bool} {symbols : List PacketStatus} {deltas : List ℤ}
    {f : List TransportCcPacketStatus} (hlen : f.length = symbols.length)
    (hget : ∀ (i : ℕ) (h : i < symbols.length), ∃ delta,
      deltaAt sBit deltas i = .ok delta ∧ f[i] = ⟨symbols[i], delta⟩) :
    ∀ (n i : ℕ) (packets : List TransportCcPacketStatus), i + n = symbols.length →
      pushSymbols count sBit symbols deltas n i packets
        = .ok (packets ++ (f.drop i).take (count - packets.length))
  | 0, i, packets, hi => by
    rw [pushSymbols, List.drop_eq_nil_of_le (by omega), List.take_nil, List.append_nil]
    rfl
  | n + 1, i, packets, hi => by
    have hlt : i < symbols.length := by omega
    obtain ⟨delta, hdelta, hf⟩ := hget i hlt
    rw [pushSymbols]
    split_ifs with hroom
    · rw [symbolAt, get_of_lt hlt, ok_bind, hdelta, ok_bind,
        pushSymbols_eq hlen hget n (i + 1) _ (by omega), List.append_assoc, ← hf,
        List.drop_eq_getElem_cons (show i < f.length by omega), List.length_append, List.length_singleton,
        show count - packets.length = count - (packets.length + 1) + 1 by omega,
        List.take_succ_cons]
      rfl
    · rw [show count - packets.length = 0 by omega, List.take_zero, List.append_nil]
      rfl

/-! ### Chunks -/

theorem and_bit (word i : ℕ) : word &&& 2 ^ i = 0 ↔ ¬ word / 2 ^ i % 2 = 1 := by
  rw [Nat.and_two_pow, Nat.testBit_eq_decide_div_mod_eq]
  by_cases h : word / 2 ^ i % 2 = 1 <;> simp [h]

theorem statuses_of_chunk {symBits : ℕ} (h : SymBits symBits) (hrounds : 8 < rounds)
    (hraw : raw.length < rounds) {off : ℕ} (hoff : off ≤ raw.length) (symbolCount : ℕ) :
    ∃ off', readStatuses raw rounds symBits (symbolCount * symBits) rounds off 0 []
        = .ok ((readSymbols symBits symbolCount (raw.drop off)).1, off')
      ∧ off' ≤ raw.length ∧ raw.drop off' = (readSymbols symBits symbolCount (raw.drop off)).2 := by
  have hread := readStatuses_eq h hrounds rounds off symbolCount [] (by omega) hoff
    (le_refl (symbolCount * symBits))
  rwa [Nat.sub_self] at hread

/-- A status list that was cut short has used up the packet. -/
theorem readSymbols_cut {symBits : ℕ} (h : SymBits symBits) {symbolCount : ℕ} {bytes : List UInt8}
    (hcut : (readSymbols symBits symbolCount bytes).1.length < symbolCount) :
    (readSymbols symBits symbolCount bytes).2 = [] := by
  rw [length_readSymbols] at hcut
  rw [readSymbols_rest h]
  refine List.drop_eq_nil_of_le ?_
  rcases h with rfl | rfl <;> simp only [symbolBytes] <;> omega

/-- There are deltas for the symbols, and none is left of them to be looked up where it is not. -/
theorem deltas_of_chunk (hrounds : 8 < rounds) {symbolCount off : ℕ} {bytes : List UInt8}
    (hoff : off ≤ raw.length) (hrest : raw.drop off = (readSymbols 2 symbolCount bytes).2) :
    ∃ deltas off', readDeltasAt raw rounds (readSymbols 2 symbolCount bytes).1 symbolCount 0 off 0 0 []
        = .ok (deltas, off')
      ∧ deltas.take (readSymbols 2 symbolCount bytes).1.length
        = (readDeltas (readSymbols 2 symbolCount bytes).1 0 0 (readSymbols 2 symbolCount bytes).2).1
      ∧ off' ≤ raw.length
      ∧ raw.drop off'
        = (readDeltas (readSymbols 2 symbolCount bytes).1 0 0 (readSymbols 2 symbolCount bytes).2).2 := by
  have hle : (readSymbols 2 symbolCount bytes).1.length ≤ symbolCount := by
    rw [length_readSymbols]
    exact min_le_left _ _
  rcases hle.lt_or_eq with hcut | hfull
  · have hnil := readSymbols_cut (.inr rfl) hcut
    rw [hnil] at hrest ⊢
    have hend : off = raw.length := le_antisymm hoff (List.drop_eq_nil_iff.1 hrest)
    rw [hend, readDeltasAt_end hrounds, List.nil_append, readDeltas_nil _ _ (by omega)]
    exact ⟨_, _, rfl, by rw [List.take_replicate, min_eq_left hle], le_refl _, List.drop_length⟩
  · generalize (readSymbols 2 symbolCount bytes).1 = symbols at hfull hrest ⊢
    obtain ⟨off', hdeltas, hoff', hrest'⟩ := readDeltasAt_eq hrounds symbolCount 0 off 0 0 []
      (show 0 + symbolCount = symbols.length by omega) (by omega) hoff (by simp)
    rw [List.drop_zero, List.nil_append, hrest] at hdeltas
    rw [List.drop_zero, hrest] at hrest'
    refine ⟨_, off', hdeltas, List.take_of_length_le ?_, hoff', hrest'⟩
    rw [length_readDeltas]

theorem deltaAt_of_take {deltas ds : List ℤ} {n i : ℕ} (htake : deltas.take n = ds) (hi : i < n)
    (hds : i < ds.length) : deltaAt true deltas i = .ok ds[i] := by
  refine get_of_getElem? ?_
  rw [← List.getElem?_take_of_lt hi, htake, List.getElem?_eq_getElem hds]

theorem readChunk_eq (hrounds : 8 < rounds) (hraw : raw.length < rounds) (count : ℕ) {word off : ℕ}
    (hword : word < 2 ^ 16) (hoff : off ≤ raw.length) (packets : List TransportCcPacketStatus) :
    ∃ off', readChunk raw rounds count word off packets
        = .ok (packets ++ (parseChunk (count - packets.length) word (raw.drop off)).1, off')
      ∧ off' ≤ raw.length
      ∧ raw.drop off' = (parseChunk (count - packets.length) word (raw.drop off)).2 := by
  have hrun : word &&& 0x8000 = 0 ↔ word < 2 ^ 15 := by
    rw [show (0x8000 : ℕ) = 2 ^ 15 from rfl, and_bit]
    omega
  have hwide : word &&& 0x4000 = 0 ↔ ¬ word / 2 ^ 14 % 2 = 1 := and_bit word 14
  have hcount : word &&& 0x3FFF = word % 2 ^ 14 := Nat.and_two_pow_sub_one_eq_mod word 14
  unfold readChunk parseChunk
  by_cases hT : word < 2 ^ 15
  · rw [if_pos (hrun.2 hT), if_pos hT, pushRun_eq, Nat.and_two_pow_sub_one_eq_mod word 13,
      Nat.and_two_pow_sub_one_eq_mod _ 2, Nat.shiftRight_eq_div_pow]
    exact ⟨off, rfl, hoff, rfl⟩
  · rw [if_neg (fun h => hT (hrun.1 h)), if_neg hT, hcount]
    by_cases hS : word / 2 ^ 14 % 2 = 1
    · have hbit : decide (word &&& 0x4000 ≠ 0) = true := decide_eq_true (fun h => hwide.1 h hS)
      obtain ⟨off₁, hread, hoff₁, hrest₁⟩ :=
        statuses_of_chunk (.inr rfl) hrounds hraw hoff (word % 2 ^ 14)
      obtain ⟨deltas, off', hdeltas, htake, hoff', hrest'⟩ := deltas_of_chunk hrounds hoff₁ hrest₁
      rw [if_pos hS]
      simp only [hbit, if_true]
      rw [hread, ok_bind]
      simp only
      rw [hdeltas, ok_bind]
      simp only
      generalize (readSymbols 2 (word % 2 ^ 14) (raw.drop off)).1 = symbols at htake hrest' ⊢
      have hds := length_readDeltas symbols 0 0 (readSymbols 2 (word % 2 ^ 14) (raw.drop off)).2
      generalize (readDeltas symbols 0 0 (readSymbols 2 (word % 2 ^ 14) (raw.drop off)).2).1 = ds
        at htake hds ⊢
      have hlen : (List.zipWith TransportCcPacketStatus.mk symbols ds).length = symbols.length := by
        rw [List.length_zipWith, hds, min_self]
      rw [pushSymbols_eq hlen (fun i hi => ⟨ds[i], deltaAt_of_take htake hi (by omega),
        List.getElem_zipWith⟩) _ 0 packets (by omega), ok_bind, List.drop_zero]
      exact ⟨off', rfl, hoff', hrest'⟩
    · have hbit : decide (word &&& 0x4000 ≠ 0) = false := decide_eq_false (not_not.2 (hwide.2 hS))
      obtain ⟨off', hread, hoff', hrest'⟩ :=
        statuses_of_chunk (.inl rfl) hrounds hraw hoff (word % 2 ^ 14)
      rw [if_neg hS]
      simp only [hbit, Bool.false_eq_true, if_false]
      rw [hread, ok_bind]
      simp only
      rw [ok_bind]
      simp only
      generalize (readSymbols 1 (word % 2 ^ 14) (raw.drop off)).1 = symbols
      have hlen : (symbols.map fun s => (⟨s, 0⟩ : TransportCcPacketStatus)).length = symbols.length :=
        List.length_map _
      rw [pushSymbols_eq hlen (fun i h => ⟨0, rfl, by rw [List.getElem_map]⟩) _ 0 packets (by omega),
        ok_bind, List.drop_zero]
      exact ⟨off', rfl, hoff', hrest'⟩

/-! ### The packet -/

theorem length_parseChunk_le (n word : ℕ) (bytes : List UInt8) : (parseChunk n word bytes).1.length ≤ n := by
  unfold parseChunk
  split_ifs
  · rw [List.length_replicate]
    exact min_le_right _ _
  · exact List.length_take_le _ _
  · exact List.length_take_le _ _

theorem length_parseChunk_rest_le (n word : ℕ) (bytes : List UInt8) :
    (parseChunk n word bytes).2.length ≤ bytes.length := by
  by_cases hrun : word < 2 ^ 15
  · rw [parseChunk, if_pos hrun]
  · rw [parseChunk_rest n bytes (not_lt.1 hrun)]
    rw [List.length_drop]
    exact Nat.sub_le _ _

/-- A single byte is no chunk. -/
theorem parseChunks_short (fuel n : ℕ) {bytes : List UInt8} (h : bytes.length < 2) :
    parseChunks fuel n bytes = [] := by
  rcases fuel with _ | fuel
  · rfl
  rcases n with _ | n
  · rfl
  rcases bytes with _ | ⟨hi, _ | ⟨lo, bytes⟩⟩
  · rfl
  · rfl
  · simp at h

theorem length_parseChunks_le : ∀ (fuel n : ℕ) (bytes : List UInt8),
    (parseChunks fuel n bytes).length ≤ n
  | 0, n, bytes => by simp [parseChunks]
  | fuel + 1, 0, bytes => by simp [parseChunks]
  | fuel + 1, n + 1, [] => by simp [parseChunks]
  | fuel + 1, n + 1, [_] => by simp [parseChunks]
  | fuel + 1, n + 1, hi :: lo :: bytes => by
    have hchunk := length_parseChunk_le (n + 1) (hi.toNat * 256 + lo.toNat) bytes
    have hlater := length_parseChunks_le fuel
      (n + 1 - (parseChunk (n + 1) (hi.toNat * 256 + lo.toNat) bytes).1.length)
      (parseChunk (n + 1) (hi.toNat * 256 + lo.toNat) bytes).2
    rw [parseChunks, List.length_append]
    omega

theorem readChunks_eq (hrounds : 8 < rounds) (hraw : raw.length < rounds) (count : ℕ) :
    ∀ (fuel left off : ℕ) (packets : List TransportCcPacketStatus), off ≤ raw.length →
      raw.length - off ≤ fuel → fuel < left →
      readChunks raw rounds count left off packets
        = .ok (packets ++ parseChunks fuel (count - packets.length) (raw.drop off))
  | fuel, 0, off, packets, _, _, hleft => absurd hleft (Nat.not_lt_zero _)
  | fuel, left + 1, off, packets, hoff, hfuel, hleft => by
    rw [readChunks]
    by_cases hmore : packets.length < count ∧ off + 2 ≤ raw.length
    · obtain ⟨hroom, hbytes⟩ := hmore
      have hlo : off + 1 < raw.length := by omega
      have hword : raw[off].toNat * 256 + raw[off + 1].toNat < 2 ^ 16 := by
        have hhigh := raw[off].toNat_lt
        have hlow := raw[off + 1].toNat_lt
        omega
      obtain ⟨off', hchunk, hoff', hrest⟩ := readChunk_eq hrounds hraw count hword hbytes packets
      obtain ⟨fuel, rfl⟩ : ∃ k, fuel = k + 1 := ⟨fuel - 1, by omega⟩
      obtain ⟨n, hn⟩ : ∃ n, count - packets.length = n + 1 := ⟨count - packets.length - 1, by omega⟩
      rw [if_pos ⟨hroom, hbytes⟩, readBe_word hbytes, ok_bind, hchunk, ok_bind]
      simp only
      have hshort : raw.length - off' ≤ raw.length - (off + 2) := by
        rw [← List.length_drop, ← List.length_drop, hrest]
        exact length_parseChunk_rest_le _ _ _
      rw [readChunks_eq hrounds hraw count fuel left off' _ hoff' (by omega) (by omega), hrest,
        drop_of_lt (Nat.lt_of_succ_lt hlo), drop_of_lt hlo, hn, parseChunks, List.length_append,
        ← Nat.sub_sub, hn, List.append_assoc]
    · rw [if_neg hmore]
      have hnone : parseChunks fuel (count - packets.length) (raw.drop off) = [] := by
        rcases not_and_or.1 hmore with hroom | hbytes
        · rw [Nat.sub_eq_zero_of_le (not_lt.1 hroom)]
          cases fuel <;> rfl
        · exact parseChunks_short _ _ (by rw [List.length_drop]; omega)
      rw [hnone, List.append_nil]
      rfl

theorem parseTransportCc_eq (raw : List UInt8) (hrounds : 8 < rounds) (hraw : raw.length < rounds) :
    parseTransportCc raw rounds = ofResult (Rtp.parseTransportCc raw)
      ∧ ∀ f, Rtp.parseTransportCc raw = .ok f → f.packets.length ≤ f.packetStatusCount.toNat := by
  unfold parseTransportCc Rtp.parseTransportCc
  cases parseRtcpHeader raw .rtpfb kTransportCcBody with
  | error e => exact ⟨rfl, fun f h => by cases h⟩
  | ok h =>
    simp only [ofResult, ok_bind]
    split_ifs with hfmt hbody
    · exact ⟨rfl, fun f h => by cases h⟩
    · exact ⟨rfl, fun f h => by cases h⟩
    · have hlen : kRtcpHeaderSize + 16 ≤ raw.length := not_lt.1 hbody
      have hheader : kRtcpHeaderSize = 4 := rfl
      have hcount : (readBe16 raw (kRtcpHeaderSize + 10)).toNat
          = beNat ((raw.drop (kRtcpHeaderSize + 10)).take 2) := by
        have hlt := beNat_lt ((raw.drop (kRtcpHeaderSize + 10)).take 2)
        rw [List.length_take_of_le (by rw [List.length_drop]; omega)] at hlt
        rw [readBe16, UInt16.toNat_ofNat_of_lt' hlt]
      have hchunks := readChunks_eq hrounds hraw (readBe16 raw (kRtcpHeaderSize + 10)).toNat
        (raw.length - kTransportCcBody) rounds kTransportCcBody [] hlen (le_refl _) (by omega)
      rw [List.nil_append, List.length_nil, Nat.sub_zero, hcount] at hchunks
      rw [readBe_field (by omega), ok_bind, readBe_field (by omega), ok_bind, readBe_field (by omega),
        ok_bind, readBe_field (by omega), ok_bind, readBe_field (by omega), ok_bind, hchunks, ok_bind,
        hcount, List.length_drop]
      refine ⟨rfl, fun f hf => ?_⟩
      obtain rfl := Except.ok.inj hf
      simp only [hcount]
      exact length_parseChunks_le _ _ _

/-- Whatever the bytes, `parse_transport_cc` ends with what it reads of them or with its error: it stays
inside the packet and inside the vectors, and there are no more packets than it is told. No unread bit
is lost, so each delta is its own 14 bits of what follows the symbols. -/
theorem parseTransportCc_safe (raw : List UInt8) (hrounds : max 8 raw.length < rounds) :
    parseTransportCc raw rounds = ofResult (Rtp.parseTransportCc raw)
      ∧ (∀ f, Rtp.parseTransportCc raw = .ok f → f.packets.length ≤ f.packetStatusCount.toNat)
      ∧ ∀ symbols bytes i, (readDeltas symbols 0 0 bytes).1[i]?
          = symbols[i]?.map (deltaFor (beNat bytes) (8 * bytes.length) i) := by
  obtain ⟨hrounds, hraw⟩ := max_lt_iff.1 hrounds
  obtain ⟨heq, hcount⟩ := parseTransportCc_eq raw hrounds hraw
  refine ⟨heq, hcount, fun symbols bytes i => ?_⟩
  have hunread : unread 0 bytes = beNat bytes := by rw [unread, Nat.zero_mul, Nat.zero_add]
  rw [readDeltas_getElem?, hunread, Nat.zero_add]

/-- A chunk of 16383 symbols in two bytes. -/
def cutChunk : List UInt8 :=
  [0x8F, 205, 0, 5, 0, 0, 0, 1, 0, 0, 0, 2, 0, 5, 0, 3, 1, 2, 3, 7, 0xFF, 0xFF, 0x1B, 0xC5]

theorem parseTransportCc_safe_cut :
    parseTransportCc cutChunk 25 = ofResult (Rtp.parseTransportCc cutChunk) :=
  (parseTransportCc_safe cutChunk (by decide)).1

end NimRtc.Rtp.TransportCcMemory
