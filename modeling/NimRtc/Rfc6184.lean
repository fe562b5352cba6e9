import NimRtc.VideoSender

/-!
# Reading an H.264 payload stream back

The receiver of RFC 6184 in packetization mode 1, over the payloads of one frame in order: single
NAL unit packets, STAP-A packets and FU-A fragments, with the NAL header of a fragmented unit put
together from the FU indicator and the FU header. A stream that is none of these has no reading.
-/

namespace NimRtc

namespace H264

/-- `acc` is the unit being put together from fragments. -/
def depacketize : Option (List UInt8) → List (List UInt8) → Option (List (List UInt8))
  | none, [] => some []
  | some _, [] => none
  | acc, p :: ps =>
    match parseFuAHeader p with
    | some fu =>
      match acc, decide (fu.fuHeader &&& 0x80 ≠ 0), decide (fu.fuHeader &&& 0x40 ≠ 0) with
      | none, true, false =>
        depacketize
          (some ((fu.fuIndicator &&& 0xE0 ||| fu.fuHeader &&& kNaluTypeMask) :: fu.fragment)) ps
      | some acc, false, false => depacketize (some (acc ++ fu.fragment)) ps
      | some acc, false, true => ((acc ++ fu.fragment) :: ·) <$> depacketize none ps
      | _, _, _ => none
    | none =>
      if acc.isSome then none
      else match parseSingle p with
        | some n => (n.data :: ·) <$> depacketize none ps
        | none =>
          if (parseStapA p).parsedOk then
            ((parseStapA p).nalus.map (·.data) ++ ·) <$> depacketize none ps
          else none

/-- The NAL header's forbidden bit is clear. -/
def ForbiddenZero (n : List UInt8) : Prop := n.headD 0 &&& 0x80 = 0

instance (n : List UInt8) : Decidable (ForbiddenZero n) := inferInstanceAs (Decidable (_ = _))

/-- The size of a STAP-A packet of some units. -/
def stapASize (group : List (List UInt8)) : ℕ := 1 + (group.map fun n => 2 + n.length).sum

/-- Consecutive runs that each fit one STAP-A packet, and that cannot take the unit after. -/
def MaximalRuns (mtu : ℕ) : List (List (List UInt8)) → Prop
  | [] => True
  | g :: gs => g ≠ [] ∧ stapASize g ≤ mtu ∧ (∀ n ∈ gs.flatten.head?, mtu < stapASize (g ++ [n]))
    ∧ MaximalRuns mtu gs

/-- The NAL unit's type is that of a single NAL unit packet. -/
def SingleType (n : List UInt8) : Prop := (parseSingle n).isSome = true

instance (n : List UInt8) : Decidable (SingleType n) := inferInstanceAs (Decidable (_ = _))

/-- A run of one unit goes alone and is read by its type; the units of a longer run share a
packet and are read by a 16-bit length. -/
def RunReads : List (List UInt8) → Prop
  | [n] => SingleType n
  | g => ∀ n ∈ g, n.length < 2 ^ 16

/-- The units longer than the mtu come first, and the others split into maximal runs that read
back. -/
def Carried (mtu : ℕ) (nalus : List (List UInt8)) : Prop :=
  ∃ large runs, nalus = large ++ runs.flatten ∧ (∀ n ∈ large, mtu < n.length)
    ∧ MaximalRuns mtu runs ∧ ∀ g ∈ runs, RunReads g

/-- `emit_h264` loses nothing: it reports an error, or what it hands to the callback reads back
as the units it was given and no payload is longer than the mtu. Reading a table past its end
is neither. -/
def LosesNothing (s : VideoSender) (nalus : List (List UInt8)) (rtpTs : UInt32) : Prop :=
  match s.emitH264 nalus rtpTs with
  | .ok (_, sent) =>
    depacketize none (sent.map (·.payload)) = some nalus ∧ ∀ p ∈ sent, p.payload.length ≤ s.cfg.mtu
  | .error e => e = .notImplemented ∨ e = .buildFuAFailed

instance (s : VideoSender) (nalus : List (List UInt8)) (rtpTs : UInt32) :
    Decidable (LosesNothing s nalus rtpTs) :=
  match h : s.emitH264 nalus rtpTs with
  | .ok r =>
    decidable_of_iff (depacketize none (r.2.map (·.payload)) = some nalus
      ∧ ∀ p ∈ r.2, p.payload.length ≤ s.cfg.mtu) (by simp [LosesNothing, h])
  | .error e =>
    decidable_of_iff (e = .notImplemented ∨ e = .buildFuAFailed) (by simp [LosesNothing, h])

/-! ### The marker -/

/-- The marker is on the last packet and on no other. -/
def MarksEnd (sent : List CachedPacket) : Prop :=
  ∃ pre last, sent = pre ++ [last] ∧ last.marker = true ∧ ∀ p ∈ pre, p.marker = false

/-- A unit that is not long and fits no STAP-A packet. The walk passes over it. -/
def PassedOver (mtu : ℕ) (n : List UInt8) : Prop := n.length ≤ mtu ∧ mtu < n.length + 3

/-- What is sent of the frame is one long unit, or units that share one packet. -/
def OnePiece (mtu : ℕ) (nalus : List (List UInt8)) : Prop :=
  ∃ pre piece post, nalus = pre ++ (piece ++ post) ∧ (∀ n ∈ pre, PassedOver mtu n)
    ∧ (∀ n ∈ post, PassedOver mtu n)
    ∧ ((∃ n, piece = [n] ∧ mtu < n.length) ∨ (piece ≠ [] ∧ stapASize piece ≤ mtu))

end H264

end NimRtc
