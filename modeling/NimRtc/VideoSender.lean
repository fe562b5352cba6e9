import NimRtc.H264Payload
import NimRtc.Lib.Machine

/-!
# The video sender

`VideoSender` of `video_pipeline.cpp`: the H.264 packetizer `emit_h264`, the packets it hands to
the packet callback, and the ring of sent packets that answers a NACK.

`emit_h264` first cuts every NAL unit longer than the mtu into FU-A fragments, and then walks the
list: the fragments of a long unit, a STAP-A packet of as many short units as fit, or one short
unit alone. Nothing it decides depends on what it has emitted, so the packets are listed first
and then emitted. An index past the end of `large_fragments` is an outcome of its own.
-/

namespace NimRtc

/-- `PacketizationMode` -/
inductive PacketizationMode
  | singleNal
  | nonInterleaved
  | interleaved
  deriving DecidableEq, Repr

/-- `SenderConfig` -/
structure SenderConfig where
  mtu : ℕ := 1200
  packetizationMode : PacketizationMode := .nonInterleaved
  initialSeq : UInt16 := 0
  retransmitCachePackets : ℕ := 256
  deriving DecidableEq, Repr

/-- `SenderStats` -/
structure SenderStats where
  packetsEmitted : ℕ := 0
  fuaFramesPacketized : ℕ := 0
  stapaFramesPacketized : ℕ := 0
  singleNalFramesPacketized : ℕ := 0
  forceKeyframeCalls : ℕ := 0
  packetsRetransmitted : ℕ := 0
  packetsRetransmitMissed : ℕ := 0
  deriving DecidableEq, Repr

/-- How `emit_h264` ends without success. -/
inductive EmitError
  | notImplemented
  | buildFuAFailed
  /-- The fragment loop makes no progress. -/
  | diverges
  /-- `large_fragments` is read past its end. -/
  | outOfRange
  deriving DecidableEq, Repr

/-- One call of `emit`: the payload and the marker bit. -/
structure Emission where
  payload : List UInt8
  marker : Bool
  deriving DecidableEq, Repr

/-- What `emit_h264` counts a packet as. -/
inductive PacketKind
  | fua
  | stapa
  | single
  deriving DecidableEq, Repr

namespace H264

/-- The fragment loop from `offset` on. -/
def fragmentsFrom (mtu : ℕ) (n : List UInt8) : ℕ → ℕ → Except EmitError (List (List UInt8))
  | fuel, offset =>
    let naluType := n.headD 0 &&& kNaluTypeMask
    let nri := (n.headD 0 &&& kNriMask) >>> 5
    let bodySize := n.length - 1
    let maxBodyPerFrag := if 2 < mtu then mtu - 2 else 0
    if bodySize ≤ offset then .ok []
    else match fuel with
      | 0 => .error .diverges
      | fuel + 1 =>
        let remaining := bodySize - offset
        let thisLen := if maxBodyPerFrag < remaining then maxBodyPerFrag else remaining
        match buildFuA naluType ((n.drop (1 + offset)).take thisLen) (offset == 0)
            (offset + thisLen == bodySize) mtu with
        | none => .error .buildFuAFailed
        | some [] => .error .buildFuAFailed
        | some (indicator :: frag) =>
          match fragmentsFrom mtu n fuel (offset + thisLen) with
          | .error e => .error e
          | .ok frags =>
            .ok (((indicator &&& ~~~kNriMask ||| (nri &&& 0x03) <<< 5) :: frag) :: frags)

/-- `large_fragments`: one entry for each NAL unit longer than the mtu, in order. -/
def largeFragments (mtu : ℕ) : List (List UInt8) → Except EmitError (List (List (List UInt8)))
  | [] => .ok []
  | n :: ns =>
    if mtu < n.length then
      match fragmentsFrom mtu n n.length 0 with
      | .error e => .error e
      | .ok frags =>
        match largeFragments mtu ns with
        | .error e => .error e
        | .ok rest => .ok (frags :: rest)
    else largeFragments mtu ns

/-- The aggregation loop: the leading units not longer than the mtu that fit the budget. -/
def stapAGroup (mtu : ℕ) : ℕ → List (List UInt8) → List (List UInt8)
  | _, [] => []
  | budget, n :: ns =>
    if mtu < n.length then []
    else if budget < 2 + n.length then []
    else n :: stapAGroup mtu (budget - (2 + n.length)) ns

/-- The packets of one group: nothing for an empty one. -/
def groupPackets (mtu : ℕ) (group : List (List UInt8)) : List (PacketKind × List Emission) :=
  match group with
  | [] => []
  | [n] => [(.single, [⟨n, true⟩])]
  | _ =>
    match buildStapA group mtu with
    | none => group.map fun n => (.single, [⟨n, false⟩])
    | some out => [(.stapa, [⟨out, true⟩])]

/-- The walk over the list from index `i`, `large` being the fragment table. Each round takes at
least one unit, so the length of the list is fuel enough. -/
def packetsFrom (mtu : ℕ) (large : List (List (List UInt8))) :
    ℕ → ℕ → List (List UInt8) → Except EmitError (List (PacketKind × List Emission))
  | _, _, [] => .ok []
  | 0, _, _ :: _ => .ok []
  | fuel + 1, i, n :: ns =>
    if mtu < n.length then
      match large[i]? with
      | none => .error .outOfRange
      | some frags =>
        let packets := frags.mapIdx fun k f => ⟨f, k + 1 == frags.length⟩
        ((.fua, packets) :: ·) <$> packetsFrom mtu large fuel (i + 1) ns
    else
      let group := stapAGroup mtu (if 1 < mtu then mtu - 1 else 0) (n :: ns)
      if group = [] then packetsFrom mtu large fuel (i + 1) ns
      else
        (groupPackets mtu group ++ ·)
          <$> packetsFrom mtu large fuel (i + group.length) ((n :: ns).drop group.length)

/-- The packets `emit_h264` emits for one frame's NAL units. -/
def packetize (cfg : SenderConfig) (nalus : List (List UInt8)) :
    Except EmitError (List (PacketKind × List Emission)) :=
  if cfg.packetizationMode = .interleaved then .error .notImplemented
  else
    match largeFragments cfg.mtu nalus with
    | .error e => .error e
    | .ok large => packetsFrom cfg.mtu large nalus.length 0 nalus

end H264

/-- A packet as it is emitted, and as the cache keeps it. -/
structure CachedPacket where
  seq : UInt16
  rtpTs : UInt32
  marker : Bool
  payload : List UInt8
  deriving DecidableEq, Repr

/-- The sender. A slot of the ring that was never filled has an empty payload. -/
structure VideoSender where
  cfg : SenderConfig
  stats : SenderStats := {}
  nextSeq : UInt16 := cfg.initialSeq
  keyframePending : Bool := false
  rtxCache : List CachedPacket := List.replicate cfg.retransmitCachePackets ⟨0, 0, false, []⟩
  rtxHead : ℕ := 0
  deriving DecidableEq, Repr

namespace VideoSender

/-- `cache_packet`: the ring is written at its head. -/
def cachePacket (s : VideoSender) (p : CachedPacket) : VideoSender :=
  if s.cfg.retransmitCachePackets = 0 then s
  else
    { s with
      rtxCache := s.rtxCache.set s.rtxHead p
      rtxHead := (s.rtxHead + 1) % s.cfg.retransmitCachePackets }

/-- `emit`: the sender after it and the packet handed to the callback. -/
def emit (s : VideoSender) (rtpTs : UInt32) (e : Emission) : VideoSender × CachedPacket :=
  let p : CachedPacket := { seq := s.nextSeq, rtpTs, marker := e.marker, payload := e.payload }
  let s := { s with
    nextSeq := s.nextSeq + 1
    stats := { s.stats with packetsEmitted := s.stats.packetsEmitted + 1 } }
  (s.cachePacket p, p)

/-- Payloads are emitted one after the other. -/
def emitAll (s : VideoSender) (rtpTs : UInt32) : List Emission → VideoSender × List CachedPacket
  | [] => (s, [])
  | e :: es =>
    let (s, p) := s.emit rtpTs e
    let (s, ps) := s.emitAll rtpTs es
    (s, p :: ps)

/-- The counter of one kind of packet goes up. -/
def count (s : VideoSender) : PacketKind → VideoSender
  | .fua => { s with
      stats := { s.stats with fuaFramesPacketized := s.stats.fuaFramesPacketized + 1 } }
  | .stapa => { s with
      stats := { s.stats with stapaFramesPacketized := s.stats.stapaFramesPacketized + 1 } }
  | .single => { s with
      stats := { s.stats with
        singleNalFramesPacketized := s.stats.singleNalFramesPacketized + 1 } }

/-- The packets of a frame, each counted by its kind. -/
def emitPackets (s : VideoSender) (rtpTs : UInt32) :
    List (PacketKind × List Emission) → VideoSender × List CachedPacket
  | [] => (s, [])
  | (kind, es) :: rest =>
    let (s, ps) := s.emitAll rtpTs es
    let (s, qs) := (s.count kind).emitPackets rtpTs rest
    (s, ps ++ qs)

/-- `emit_h264`: the sender after it and the packets handed to the callback. -/
def emitH264 (s : VideoSender) (nalus : List (List UInt8)) (rtpTs : UInt32) :
    Except EmitError (VideoSender × List CachedPacket) :=
  s.emitPackets rtpTs <$> H264.packetize s.cfg nalus

/-- `emit_simple` -/
def emitSimple (s : VideoSender) (bitstream : List UInt8) (rtpTs : UInt32) :
    VideoSender × List CachedPacket :=
  s.emitAll rtpTs [⟨bitstream, true⟩]

/-- The first slot with that number and a payload. -/
def findCached (s : VideoSender) (seq : UInt16) : Option CachedPacket :=
  s.rtxCache.find? fun p => !p.payload.isEmpty && p.seq == seq

/-- `retransmit`: whether the packet is still held, and the packet handed to the callback. -/
def retransmit (s : VideoSender) (seq : UInt16) : VideoSender × Option CachedPacket :=
  match s.findCached seq with
  | none => ({ s with
      stats := { s.stats with
        packetsRetransmitMissed := s.stats.packetsRetransmitMissed + 1 } }, none)
  | some p => ({ s with
      stats := { s.stats with packetsRetransmitted := s.stats.packetsRetransmitted + 1 } }, some p)

/-- `force_keyframe` -/
def forceKeyframe (s : VideoSender) : VideoSender :=
  { s with
    keyframePending := true
    stats := { s.stats with forceKeyframeCalls := s.stats.forceKeyframeCalls + 1 } }

end VideoSender

/-! ### Runs -/

/-- A call on the sender. -/
inductive SenderCall
  | emitH264 (nalus : List (List UInt8)) (rtpTs : UInt32)
  | emitSimple (bitstream : List UInt8) (rtpTs : UInt32)
  | retransmit (seq : UInt16)
  | forceKeyframe

/-- The sender reports the packets it emits. A frame that is refused changes nothing, and a repeated
packet is not emitted anew. -/
def VideoSender.sender : Machine VideoSender SenderCall CachedPacket where
  step s
    | .emitH264 nalus rtpTs =>
      match s.emitH264 nalus rtpTs with
      | .ok r => r
      | .error _ => (s, [])
    | .emitSimple bitstream rtpTs => s.emitSimple bitstream rtpTs
    | .retransmit seq => ((s.retransmit seq).1, [])
    | .forceKeyframe => (s.forceKeyframe, [])

end NimRtc
