import NimRtc.VideoSender
import NimRtc.Lib.Loop

/-!
# The loops of `emit_h264`

The two `while` loops of the packetizer, round by round and without a bound on their number: the one
that cuts a long NAL unit into fragments, and the one that walks the list.
-/

namespace NimRtc.H264

/-- A round of the fragment loop: the offset and the fragments so far. -/
def fragmentRound (mtu : ℕ) (n : List UInt8) :
    ℕ × List (List UInt8) → (ℕ × List (List UInt8)) ⊕ Except EmitError (List (List UInt8))
  | (offset, fragments) =>
    let naluType := n.headD 0 &&& kNaluTypeMask
    let nri := (n.headD 0 &&& kNriMask) >>> 5
    let bodySize := n.length - 1
    let maxBodyPerFrag := if 2 < mtu then mtu - 2 else 0
    if bodySize ≤ offset then .inr (.ok fragments)
    else
      let remaining := bodySize - offset
      let thisLen := if maxBodyPerFrag < remaining then maxBodyPerFrag else remaining
      match buildFuA naluType ((n.drop (1 + offset)).take thisLen) (offset == 0)
          (offset + thisLen == bodySize) mtu with
      | none => .inr (.error .buildFuAFailed)
      | some [] => .inr (.error .buildFuAFailed)
      | some (indicator :: frag) =>
        .inl (offset + thisLen,
          fragments ++ [(indicator &&& ~~~kNriMask ||| (nri &&& 0x03) <<< 5) :: frag])

/-- What the loop over the units makes of them, if the fragment loop ends for each. -/
inductive Fragmented (mtu : ℕ) :
    List (List UInt8) → Except EmitError (List (List (List UInt8))) → Prop
  | nil : Fragmented mtu [] (.ok [])
  | short {n ns r} : ¬ mtu < n.length → Fragmented mtu ns r → Fragmented mtu (n :: ns) r
  | failed {n ns e} : mtu < n.length → Loop.Ends (fragmentRound mtu n) (0, []) (.error e) →
      Fragmented mtu (n :: ns) (.error e)
  | long {n ns frags r} : mtu < n.length → Loop.Ends (fragmentRound mtu n) (0, []) (.ok frags) →
      Fragmented mtu ns r → Fragmented mtu (n :: ns) ((frags :: ·) <$> r)

/-- What the loop has emitted so far, with the kind of each packet. -/
abbrev Packets := List (PacketKind × List Emission)

/-- A round of the walk: the index and the packets so far. -/
def emitRound (mtu : ℕ) (large : List (List (List UInt8))) (nalus : List (List UInt8)) :
    ℕ × Packets → (ℕ × Packets) ⊕ Except EmitError Packets
  | (i, packets) =>
    match nalus.drop i with
    | [] => .inr (.ok packets)
    | n :: ns =>
      if mtu < n.length then
        match large[i]? with
        | none => .inr (.error .outOfRange)
        | some frags =>
          .inl (i + 1, packets ++ [(.fua, frags.mapIdx fun k f => ⟨f, k + 1 == frags.length⟩)])
      else
        let group := stapAGroup mtu (if 1 < mtu then mtu - 1 else 0) (n :: ns)
        if group = [] then .inl (i + 1, packets)
        else .inl (i + group.length, packets ++ groupPackets mtu group)

/-- `emit_h264` ends with `r`. -/
def EmitEnds (cfg : SenderConfig) (nalus : List (List UInt8)) (r : Except EmitError Packets) : Prop :=
  if cfg.packetizationMode = .interleaved then r = .error .notImplemented
  else
    ∃ table, Fragmented cfg.mtu nalus table ∧
      match table with
      | .error e => r = .error e
      | .ok large => Loop.Ends (emitRound cfg.mtu large nalus) (0, []) r

end NimRtc.H264
