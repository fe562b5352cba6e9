import NimRtc.RtcpPacket

/-!
# The RTP plugin

`rtp_plugin.cpp`: how a received RTCP compound is cut into packets, and how a compound is put together
from them. A view is the address it starts at and the bytes that are there.
-/

namespace NimRtc

namespace Plugins

/-- A view: where it points, and the bytes there. -/
structure BufferView where
  data : ℕ
  bytes : List UInt8
  deriving DecidableEq, Repr

/-- The bytes of a view. -/
def BufferView.size (v : BufferView) : ℕ := v.bytes.length

/-- `RtcpType`, into which any byte can be cast. -/
structure RtcpType where
  code : UInt8
  deriving DecidableEq, Repr

/-- The type of what is not recognised. -/
def RtcpType.app : RtcpType := ⟨204⟩

/-- A packet of a compound. -/
structure RtcpPacket where
  type : RtcpType
  raw : BufferView
  deriving DecidableEq, Repr

end Plugins

namespace Rtp

open Plugins (BufferView)

/-- The loop of `scan_rtcp_compound` from `off` on. -/
def scanFrom (raw : BufferView) (off : ℕ) : List Plugins.RtcpPacket :=
  if off + 4 ≤ raw.size then
    let pt := raw.bytes.getD (off + 1) 0
    let lengthWords := readBe16 raw.bytes (off + 2)
    let pktSize := (lengthWords.toNat + 1) * 4
    if pktSize < 4 ∨ raw.size < off + pktSize then []
    else
      ⟨⟨pt⟩, ⟨raw.data + off, (raw.bytes.drop off).take pktSize⟩⟩ :: scanFrom raw (off + pktSize)
  else []
termination_by raw.size - off

/-- `scan_rtcp_compound` -/
def scanRtcpCompound (raw : BufferView) : List Plugins.RtcpPacket :=
  let out := scanFrom raw 0
  if out = [] ∧ raw.bytes ≠ [] then [⟨.app, raw⟩] else out

/-- The buffer has room for all packets, and is zero where nothing is copied. -/
def buildRtcpCompound (pkts : List Plugins.RtcpPacket) : List UInt8 :=
  let total := (pkts.map (·.raw.size)).sum
  let copied := pkts.flatMap (·.raw.bytes)
  copied ++ List.replicate (total - copied.length) 0

end Rtp

end NimRtc
