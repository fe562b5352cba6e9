import NimRtc.RtpPlugin
import NimRtc.Proofs.RtcpCompound

/-!
# Compounds are cut where they were put together

Each round of the scan takes a packet off the bytes from the running offset on, as long as its own
length field has it. What is cut off lies end to end from the start of the buffer, and packets that
were put together with the right length fields come apart again. The type of a packet is its second
byte, whatever it was given as.
-/

namespace NimRtc.Rtp

open Plugins (BufferView)

/-- Views that lie one after the other from `data` on, each as long as its length field says. -/
def Tiles : ℕ → List BufferView → Prop
  | _, [] => True
  | data, v :: vs =>
    v.data = data ∧ v.size = 4 * ((readBe16 v.bytes 2).toNat + 1) ∧ Tiles (data + v.size) vs

/-- The packet with the type that its second byte names. -/
def namedPacket (v : BufferView) : Plugins.RtcpPacket := ⟨⟨v.bytes.getD 1 0⟩, v⟩

/-- One round: the scan ends, or takes a packet that is there and goes on after it. -/
theorem scanFrom_cases (raw : BufferView) (off : ℕ) :
    scanFrom raw off = []
      ∨ ∃ size, size = 4 * ((readBe16 (raw.bytes.drop off) 2).toNat + 1) ∧ off + size ≤ raw.size
        ∧ scanFrom raw off
          = namedPacket ⟨raw.data + off, (raw.bytes.drop off).take size⟩
            :: scanFrom raw (off + size) := by
  rw [scanFrom]
  split_ifs with hheader
  · simp only [readBe16_drop, getD_drop]
    split_ifs with hend
    · exact .inl rfl
    · rw [not_or, not_lt, not_lt] at hend
      refine .inr ⟨_, Nat.mul_comm _ _, hend.2, ?_⟩
      rw [namedPacket, getD_take (by omega)]
  · exact .inl rfl

/-- What the scan has taken lies end to end, and is what the buffer holds there. -/
theorem scanFrom_tiles (raw : BufferView) (off : ℕ) (hoff : off ≤ raw.size) :
    Tiles (raw.data + off) ((scanFrom raw off).map (·.raw))
      ∧ (scanFrom raw off).flatMap (·.raw.bytes) <+: raw.bytes.drop off := by
  induction hleft : raw.size - off using Nat.strong_induction_on generalizing off with
  | _ left ih =>
    rcases scanFrom_cases raw off with hend | ⟨size, hsize, hroom, hscan⟩
    · rw [hend]
      exact ⟨trivial, List.nil_prefix⟩
    · obtain ⟨htiles, hprefix⟩ := ih _ (by omega) (off + size) hroom rfl
      have hlength : ((raw.bytes.drop off).take size).length = size := by
        rw [BufferView.size] at hroom
        rw [List.length_take, List.length_drop]
        omega
      rw [hscan]
      refine ⟨⟨rfl, ?_, ?_⟩, ?_⟩
      · rw [BufferView.size, namedPacket, hlength, readBe16_take (by omega)]
        exact hsize
      · rw [BufferView.size, namedPacket, hlength, Nat.add_assoc]
        exact htiles
      · obtain ⟨rest, hrest⟩ := hprefix
        refine ⟨rest, ?_⟩
        rw [List.flatMap_cons, List.append_assoc, hrest, ← List.drop_drop]
        exact List.take_append_drop size _

theorem buildRtcpCompound_eq (pkts : List Plugins.RtcpPacket) :
    buildRtcpCompound pkts = pkts.flatMap (·.raw.bytes) := by
  have htotal : (pkts.map (·.raw.size)).sum = (pkts.flatMap (·.raw.bytes)).length :=
    List.length_flatMap.symm
  simp only [buildRtcpCompound, htotal, Nat.sub_self, List.replicate_zero, List.append_nil]

/-- A packet whose length field covers it is taken off the front. -/
theorem scanFrom_packet {raw : BufferView} {off : ℕ} {packet rest : List UInt8}
    (hcover : LengthCovers packet) (hhere : raw.bytes.drop off = packet ++ rest) :
    scanFrom raw off
      = namedPacket ⟨raw.data + off, packet⟩ :: scanFrom raw (off + packet.length) := by
  obtain ⟨hfour, hlength⟩ := hcover
  rw [kRtcpHeaderSize] at hfour
  have hfield : readBe16 (packet ++ rest) 2 = readBe16 packet 2 :=
    readBe16_inside _ (by omega)
  have hroom := congrArg List.length hhere
  rw [List.length_drop, List.length_append] at hroom
  rcases scanFrom_cases raw off with hend | ⟨size, hsize, -, hscan⟩
  · rw [scanFrom] at hend
    simp only [readBe16_drop, hhere, hfield, hlength, BufferView.size] at hend
    rw [if_pos (by omega), if_neg (by omega)] at hend
    cases hend
  · rw [hhere, hfield, Nat.mul_comm, hlength] at hsize
    rw [hscan, hhere, hsize, List.take_left]

theorem scanFrom_packets (raw : BufferView) : ∀ (pkts : List Plugins.RtcpPacket) (off : ℕ),
    (∀ p ∈ pkts, LengthCovers p.raw.bytes) →
    raw.bytes.drop off = pkts.flatMap (·.raw.bytes) →
    (scanFrom raw off).map (fun p => (p.type, p.raw.bytes))
      = pkts.map fun p => (⟨p.raw.bytes.getD 1 0⟩, p.raw.bytes)
  | [], off, _, hhere => by
    have hshort : raw.bytes.length ≤ off := List.drop_eq_nil_iff.1 hhere
    rw [scanFrom, if_neg (by rw [BufferView.size]; omega)]
    rfl
  | p :: pkts, off, hcover, hhere => by
    rw [List.flatMap_cons] at hhere
    have hrest : raw.bytes.drop (off + p.raw.bytes.length) = pkts.flatMap (·.raw.bytes) := by
      rw [← List.drop_drop, hhere, List.drop_left]
    rw [scanFrom_packet (hcover p List.mem_cons_self) hhere, List.map_cons, List.map_cons,
      scanFrom_packets raw pkts _ (fun q hq => hcover q (List.mem_cons_of_mem _ hq)) hrest]
    rfl

/-- Packets that were put together come apart again. -/
theorem scan_build {pkts : List Plugins.RtcpPacket} (data : ℕ)
    (hcover : ∀ p ∈ pkts, LengthCovers p.raw.bytes) :
    (scanRtcpCompound ⟨data, buildRtcpCompound pkts⟩).map (fun p => (p.type, p.raw.bytes))
      = pkts.map fun p => (⟨p.raw.bytes.getD 1 0⟩, p.raw.bytes) := by
  rw [buildRtcpCompound_eq]
  have hscan := scanFrom_packets ⟨data, pkts.flatMap (·.raw.bytes)⟩ pkts 0 hcover rfl
  simp only [scanRtcpCompound]
  split_ifs with hfallback
  · -- nothing is scanned only if there are no packets
    rw [hfallback.1, List.map_nil] at hscan
    rw [List.map_eq_nil_iff.1 hscan.symm] at hfallback
    exact absurd rfl hfallback.2
  · exact hscan

/-- The scan gives the whole buffer as one packet, or packets end to end from its start on. Packets
that were put together come apart again, with the types that their bytes name. -/
theorem scanRtcpCompound_tiles (raw : BufferView) (pkts : List Plugins.RtcpPacket) (data : ℕ) :
    ((raw.bytes ≠ [] ∧ scanRtcpCompound raw = [⟨.app, raw⟩])
        ∨ Tiles raw.data ((scanRtcpCompound raw).map (·.raw))
          ∧ (scanRtcpCompound raw).flatMap (·.raw.bytes) <+: raw.bytes)
      ∧ ((∀ p ∈ pkts, LengthCovers p.raw.bytes) →
        (scanRtcpCompound ⟨data, buildRtcpCompound pkts⟩).map (fun p => (p.type, p.raw.bytes))
          = pkts.map fun p => (⟨p.raw.bytes.getD 1 0⟩, p.raw.bytes)) := by
  refine ⟨?_, scan_build data⟩
  simp only [scanRtcpCompound]
  split_ifs with hfallback
  · exact .inl ⟨hfallback.2, rfl⟩
  · obtain ⟨htiles, hprefix⟩ := scanFrom_tiles raw 0 (Nat.zero_le _)
    exact .inr ⟨htiles, hprefix⟩

/-- A receiver report of one word in front of a goodbye. -/
theorem scanRtcpCompound_two :
    (scanRtcpCompound ⟨16, buildRtcpCompound
        [⟨⟨201⟩, ⟨0, [0x80, 201, 0, 1, 0, 0, 0, 9]⟩⟩, ⟨⟨203⟩, ⟨8, [0x80, 203, 0, 0]⟩⟩]⟩).map
          (fun p => (p.type, p.raw.bytes))
      = [(⟨201⟩, [0x80, 201, 0, 1, 0, 0, 0, 9]), (⟨203⟩, [0x80, 203, 0, 0])] := by
  refine (scanRtcpCompound_tiles ⟨0, []⟩ _ 16).2 fun p hp => ?_
  simp only [List.mem_cons, List.not_mem_nil, or_false] at hp
  rcases hp with rfl | rfl
  · exact ⟨by decide, by decide⟩
  · exact ⟨by decide, by decide⟩

/-- A type that is not the second byte is not kept. -/
theorem type_not_kept :
    ¬ ∀ (pkts : List Plugins.RtcpPacket) (data : ℕ), (∀ p ∈ pkts, LengthCovers p.raw.bytes) →
      (scanRtcpCompound ⟨data, buildRtcpCompound pkts⟩).map (fun p => (p.type, p.raw.bytes))
        = pkts.map fun p => (p.type, p.raw.bytes) := by
  intro h
  let pkt : Plugins.RtcpPacket := ⟨⟨200⟩, ⟨0, [0x80, 201, 0, 0]⟩⟩
  have hcover : ∀ p ∈ [pkt], LengthCovers p.raw.bytes := by
    intro p hp
    rw [List.mem_singleton.1 hp]
    exact ⟨by decide, by decide⟩
  have hscan := scan_build 0 hcover
  rw [h [pkt] 0 hcover] at hscan
  exact absurd hscan (by decide)

end NimRtc.Rtp
