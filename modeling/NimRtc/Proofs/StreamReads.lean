import NimRtc.BidiStream

/-!
# Counts and codes

A read takes bytes from the front of the queue whatever it returns. So the caller has all of them
unless their count is one of the codes, and the codes lie between 4097 and 8191.
-/

namespace NimRtc.StreamReader

/-- What holds of an open stream, whatever is read. -/
structure Tracked (r : StreamReader) : Prop where
  isOpen : r.stream.isOpen = true
  fin : r.stream.recvFinSeen = r.finArrived

theorem kErrCodes_ge {n : ℕ} (h : n ∈ kErrCodes.map UInt32.toNat) : 4097 ≤ n := by
  have hall : ∀ code ∈ kErrCodes.map UInt32.toNat, 4097 ≤ code := by decide
  exact hall n h

theorem mem_kErrCodes_iff {n : ℕ} (h : n < 2 ^ 32) :
    UInt32.ofNat n ∈ kErrCodes ↔ n ∈ kErrCodes.map UInt32.toNat := by
  have hnat : (UInt32.ofNat n).toNat = n := by
    rw [UInt32.toNat_ofNat']
    exact Nat.mod_eq_of_lt h
  constructor
  · intro hmem
    exact List.mem_map.2 ⟨_, hmem, hnat⟩
  · intro hmem
    obtain ⟨code, hcode, rfl⟩ := List.mem_map.1 hmem
    rwa [UInt32.ofNat_toNat]

variable {r : StreamReader}

theorem readInto_nil (h : Tracked r) (hqueue : r.stream.recvQueue = []) (outSize : ℕ) :
    r.readInto outSize = (r, if r.finArrived then kErrClosed else kOk) := by
  unfold readInto MsQuicBidiStream.recv
  rw [if_neg (not_not.2 h.isOpen), hqueue, h.fin]
  dsimp only
  split_ifs <;> simp

/-- What a read of `n` bytes from the front leaves in the queue, and what the caller has then. -/
theorem readInto_cons (h : Tracked r) {front : List UInt8} {rest : List (List UInt8)}
    (hqueue : r.stream.recvQueue = front :: rest) (outSize : ℕ) :
    let n := min outSize front.length
    let next := (r.readInto outSize).1
    Tracked next ∧ next.arrived = r.arrived
      ∧ next.stream.recvQueue.flatten = front.drop n ++ rest.flatten
      ∧ next.got = (if n < 2 ^ 32 ∧ n ∉ kErrCodes.map UInt32.toNat then r.got ++ front.take n
          else r.got) := by
  intro n next
  have hnext : next = (r.readInto outSize).1 := rfl
  unfold readInto MsQuicBidiStream.recv at hnext
  rw [if_neg (not_not.2 h.isOpen), hqueue] at hnext
  dsimp only at hnext
  have hdrop : (if n < front.length then front.drop n :: rest else rest).flatten
      = front.drop n ++ rest.flatten := by
    split_ifs with hpart
    · rfl
    · rw [List.drop_of_length_le (not_lt.1 hpart), List.nil_append]
  rw [hnext]
  refine ⟨⟨h.isOpen, h.fin⟩, rfl, hdrop, ?_⟩
  dsimp only
  by_cases hfits : n < 2 ^ 32
  · have hcount : (UInt32.ofNat n).toNat = n := by
      rw [UInt32.toNat_ofNat']
      exact Nat.mod_eq_of_lt hfits
    have htake : (front.take n).take n = front.take n := by rw [List.take_take, min_self]
    simp only [show ¬ 2 ^ 32 - 1 < min outSize front.length by omega, if_false]
    by_cases hcode : n ∈ kErrCodes.map UInt32.toNat
    · rw [if_pos ((mem_kErrCodes_iff hfits).2 hcode), if_neg fun hc => hc.2 hcode]
    · rw [if_neg fun hc => hcode ((mem_kErrCodes_iff hfits).1 hc), if_pos ⟨hfits, hcode⟩, hcount,
        htake]
  · simp only [show 2 ^ 32 - 1 < min outSize front.length by omega, if_true]
    rw [if_pos (by decide), if_neg fun hc => hfits hc.1]

theorem tracked_step (r : StreamReader) (ev : StreamEvent) (h : Tracked r) :
    Tracked (machine.step r ev).1 := by
  cases ev with
  | onReceive chunk fin =>
    show Tracked ⟨r.stream.onReceive chunk fin, r.got, r.arrived ++ chunk, r.finArrived || fin⟩
    rw [MsQuicBidiStream.onReceive, if_neg (not_not.2 h.isOpen)]
    exact ⟨h.isOpen, by rw [h.fin]⟩
  | onPeerSendShutdown => exact ⟨h.isOpen, rfl⟩
  | recv outSize =>
    show Tracked (r.readInto outSize).1
    cases hqueue : r.stream.recvQueue with
    | nil =>
      rw [readInto_nil h hqueue]
      exact h
    | cons front rest => exact (readInto_cons h hqueue outSize).1

/-- A step from where no byte is lost loses one exactly when the count of a read is ambiguous. -/
theorem noByteLost_step_iff (r : StreamReader) (ev : StreamEvent) (h : Tracked r)
    (hkept : NoByteLost r) : NoByteLost (machine.step r ev).1 ↔ Unambiguous r ev := by
  cases ev with
  | onReceive chunk fin =>
    refine iff_of_true ?_ trivial
    show r.got ++ (r.stream.onReceive chunk fin).recvQueue.flatten = r.arrived ++ chunk
    rw [MsQuicBidiStream.onReceive, if_neg (not_not.2 h.isOpen), ← hkept, List.flatten_append,
      List.flatten_singleton, List.append_assoc]
  | onPeerSendShutdown => exact iff_of_true hkept trivial
  | recv outSize =>
    show NoByteLost (r.readInto outSize).1 ↔ _
    cases hqueue : r.stream.recvQueue with
    | nil =>
      rw [readInto_nil h hqueue]
      exact iff_of_true hkept (by simp [Unambiguous, hqueue])
    | cons front rest =>
      obtain ⟨-, harrived, hrest, hgot⟩ := readInto_cons h hqueue outSize
      have hbefore : r.got ++ (front ++ rest.flatten) = r.arrived := by
        rw [← hkept, hqueue, List.flatten_cons]
      have hok : Unambiguous r (.recv outSize) ↔ min outSize front.length < 2 ^ 32
          ∧ min outSize front.length ∉ kErrCodes.map UInt32.toNat := by
        simp only [Unambiguous, hqueue, List.head?_cons, Option.mem_some_iff, forall_eq']
      rw [NoByteLost, harrived, hrest, hgot, hok, ← hbefore]
      split_ifs with hplain
      · refine iff_of_true ?_ hplain
        rw [List.append_assoc, ← List.append_assoc (front.take _), List.take_append_drop]
      · refine iff_of_false (fun hsame => ?_) hplain
        -- The bytes are gone from the queue, and there are some.
        have hsome : 0 < min outSize front.length := by
          by_contra hnone
          refine hplain ⟨by omega, fun hcode => ?_⟩
          have := kErrCodes_ge hcode
          omega
        have hlen := congrArg List.length hsame
        simp only [List.length_append, List.length_drop] at hlen
        omega

theorem closesAtEnd_step (r : StreamReader) (ev : StreamEvent) (h : Tracked r)
    (hkept : NoByteLost r) (hok : Unambiguous r ev) :
    ∀ read ∈ (machine.step r ev).2, ClosesAtEnd read := by
  cases ev with
  | onReceive chunk fin => exact fun read hread => absurd hread List.not_mem_nil
  | onPeerSendShutdown => exact fun read hread => absurd hread List.not_mem_nil
  | recv outSize =>
    intro read hread
    obtain rfl : read = ((r.readInto outSize).2, r) := List.mem_singleton.1 hread
    intro hclosed
    cases hqueue : r.stream.recvQueue with
    | nil =>
      simp only [readInto_nil h hqueue] at hclosed
      have hfin : r.finArrived = true := by
        by_contra hopen
        rw [if_neg hopen] at hclosed
        exact absurd hclosed (by decide)
      rw [NoByteLost, hqueue, List.flatten_nil, List.append_nil] at hkept
      exact ⟨hfin, hkept⟩
    | cons front rest =>
      obtain ⟨hfits, hcode⟩ := hok front (by rw [hqueue]; rfl)
      exfalso
      simp only [readInto, MsQuicBidiStream.recv, h.isOpen, hqueue, not_true_eq_false, if_false,
        show ¬ 2 ^ 32 - 1 < min outSize front.length by omega] at hclosed
      exact hcode ((mem_kErrCodes_iff hfits).1 (by rw [hclosed]; decide))

/-- The caller puts together what arrived, and is told of the end when it is there, exactly when no
read copies as many bytes as a code stands for. -/
theorem reads_exact_iff (events : List StreamEvent) :
    (machine.Always NoByteLost {} events ∧ ∀ read ∈ (machine.exec {} events).2, ClosesAtEnd read)
      ↔ machine.Meets Unambiguous {} events := by
  have hinit : Tracked {} := ⟨rfl, rfl⟩
  exact Machine.always_and_reports_iff_meets tracked_step noByteLost_step_iff
    (fun r ev h hkept hok => closesAtEnd_step r ev h hkept hok) events hinit rfl

/-- Buffers of up to 4 KiB are read into without a doubt. -/
theorem unambiguous_of_small (r : StreamReader) {outSize : ℕ} (h : outSize ≤ 4096) :
    Unambiguous r (.recv outSize) := by
  intro front _
  refine ⟨by omega, fun hcode => ?_⟩
  have := kErrCodes_ge hcode
  omega

/-- A read of 4097 bytes returns the code of an invalid parameter, and the bytes are lost. -/
theorem count_read_as_code :
    let r := (machine.exec {} [.onReceive (List.replicate 4097 0) false, .recv 8192]).1
    ¬ NoByteLost r := by
  intro r hkept
  have hinit : Tracked {} := ⟨rfl, rfl⟩
  have hopen := tracked_step {} (.onReceive (List.replicate 4097 0) false) hinit
  have hall := (noByteLost_step_iff {} (.onReceive (List.replicate 4097 0) false) hinit rfl).2 trivial
  have hread := (noByteLost_step_iff _ (.recv 8192) hopen hall).1 hkept
  have hcode := (hread (List.replicate 4097 0) rfl).2
  rw [List.length_replicate] at hcode
  exact hcode (by decide)

end NimRtc.StreamReader
