import NimRtc.Proofs.RtcpCompound

/-!
# How many packets a feedback describes

The loop over the chunks stops at the end of the packet as it does at the last status, so it gives as
many statuses as the chunks carry, or as many as the count field asks for if they carry more.
-/

namespace NimRtc.Rtp

/-- How many statuses the chunk `word` carries in front of `bytes`. -/
def chunkStatuses (word : ℕ) (bytes : List UInt8) : ℕ :=
  if word < 2 ^ 15 then word % 2 ^ 13 else min (word % 2 ^ 14) (8 / symBitsOf word * bytes.length)

/-- The bytes that follow the chunk. -/
def afterChunk (word : ℕ) (bytes : List UInt8) : List UInt8 :=
  if word < 2 ^ 15 then bytes else bytes.drop (chunkEnd word)

theorem length_afterChunk_le (word : ℕ) (bytes : List UInt8) :
    (afterChunk word bytes).length ≤ bytes.length := by
  rw [afterChunk]
  split_ifs
  · exact le_refl _
  · rw [List.length_drop]
    omega

/-- How many statuses the chunks in `bytes` carry. -/
def statusesIn : List UInt8 → ℕ
  | hi :: lo :: bytes =>
    let word := hi.toNat * 256 + lo.toNat
    chunkStatuses word bytes + statusesIn (afterChunk word bytes)
  | _ => 0
termination_by bytes => bytes.length
decreasing_by
  have := length_afterChunk_le (hi.toNat * 256 + lo.toNat) bytes
  simp only [List.length_cons]
  omega

theorem parseChunk_statuses (n word : ℕ) (bytes : List UInt8) :
    (parseChunk n word bytes).1.length = min (chunkStatuses word bytes) n
      ∧ (parseChunk n word bytes).2 = afterChunk word bytes := by
  rw [chunkStatuses, afterChunk]
  split_ifs with hrun
  · rw [parseChunk_run n bytes hrun]
    exact ⟨List.length_replicate .., rfl⟩
  · exact ⟨length_parseChunk n bytes (not_lt.1 hrun), parseChunk_rest n bytes (not_lt.1 hrun)⟩

/-- The loop gives the statuses that the chunks carry, up to the count. -/
theorem length_parseChunks (fuel : ℕ) {n : ℕ} {bytes : List UInt8} (hfuel : bytes.length ≤ fuel) :
    (parseChunks fuel n bytes).length = min n (statusesIn bytes) := by
  induction fuel generalizing n bytes with
  | zero =>
    obtain rfl := List.eq_nil_of_length_eq_zero (Nat.le_zero.1 hfuel)
    rw [parseChunks_nil]
    simp [statusesIn]
  | succ fuel ih =>
    match n, bytes, hfuel with
    | 0, _, _ => simp [parseChunks]
    | n + 1, [], _ => simp [parseChunks, statusesIn]
    | n + 1, [_], _ => simp [parseChunks, statusesIn]
    | n + 1, hi :: lo :: bytes, hfuel =>
      rw [parseChunks, statusesIn]
      generalize hi.toNat * 256 + lo.toNat = word
      obtain ⟨hlength, hrest⟩ := parseChunk_statuses (n + 1) word bytes
      have hshorter := length_afterChunk_le word bytes
      simp only [List.length_cons] at hfuel
      simp only [List.length_append, hlength, hrest]
      rw [ih (by omega)]
      omega

/-- A feedback that is accepted describes as many packets as it says if and only if its chunks carry
as many statuses. -/
theorem length_packets_iff {raw : List UInt8} {f : TransportCcFeedback}
    (h : parseTransportCc raw = .ok f) :
    f.packets.length = f.packetStatusCount.toNat
      ↔ (readBe16 raw (kRtcpHeaderSize + 10)).toNat ≤ statusesIn (raw.drop kTransportCcBody) := by
  simp only [parseTransportCc, bind, Except.bind, pure, Except.pure] at h
  cases hheader : parseRtcpHeader raw .rtpfb kTransportCcBody with
  | error e => simp [hheader] at h
  | ok info =>
    simp only [hheader] at h
    split_ifs at h
    obtain rfl := Except.ok.inj h
    rw [length_parseChunks _ (le_refl _)]
    exact min_eq_left_iff

/-- A feedback for two packets with a run of two. -/
def runFeedback : List UInt8 :=
  [0x8F, 205, 0, 5, 0, 0, 0, 1, 0, 0, 0, 2, 0, 7, 0, 2, 0, 0, 1, 0, 0x20, 2, 0, 0]

theorem length_packets_runFeedback :
    ∃ f, parseTransportCc runFeedback = .ok f ∧ f.packets.length = f.packetStatusCount.toNat := by
  have hparse : ∃ f, parseTransportCc runFeedback = .ok f := ⟨_, rfl⟩
  obtain ⟨f, hf⟩ := hparse
  refine ⟨f, hf, (length_packets_iff hf).2 ?_⟩
  have hchunks : runFeedback.drop kTransportCcBody = [0x20, 2, 0, 0] := rfl
  rw [hchunks]
  simp [statusesIn, chunkStatuses, afterChunk, runFeedback]
  decide

/-- A feedback that says it describes a packet is accepted without chunks. -/
theorem accepted_without_chunks :
    ¬ ∀ raw f, parseTransportCc raw = .ok f → f.packets.length = f.packetStatusCount.toNat := by
  intro h
  have hparse : parseTransportCc [0x8F, 205, 0, 4, 0, 0, 0, 1, 0, 0, 0, 2, 0, 7, 0, 1, 0, 0, 1, 0]
      = .ok ⟨1, 2, 7, 1, 1, []⟩ := rfl
  exact absurd (h _ _ hparse) (by decide)

end NimRtc.Rtp
