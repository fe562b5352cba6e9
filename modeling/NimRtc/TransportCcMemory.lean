import NimRtc.Lib.Checked
import NimRtc.RtcpPacket

/-!
# The accesses of `parse_transport_cc`

`parse_transport_cc` of `parser.cpp` with its reads of the packet and of the two vectors of a chunk,
and with its accumulator of 32 bits. A loop that goes round under a condition takes a number of rounds,
and does not end if it needs more.
-/

namespace NimRtc

namespace Rtp

namespace TransportCcMemory

/-- A read: a byte of the packet, a symbol of the status list, or a delta. -/
inductive Access
  | byte (i : ℕ)
  | symbol (i : ℕ)
  | delta (i : ℕ)
  deriving DecidableEq, Repr

/-- How the parser can end other than with a feedback. -/
inductive Halt
  /-- An error is returned. -/
  | rejected (e : RtpError)
  | outside (a : Access)
  /-- An unread bit is shifted out of `acc`. -/
  | lostBits
  | endless
  deriving DecidableEq, Repr

/-- A checked read of the packet. -/
def readByte (raw : List UInt8) (i : ℕ) : Except Halt UInt8 := Checked.get (.outside (.byte i)) raw i

/-- A checked read of the status list. -/
def symbolAt (symbols : List PacketStatus) (i : ℕ) : Except Halt PacketStatus :=
  Checked.get (.outside (.symbol i)) symbols i

/-- Only chunks of two-bit symbols have deltas. -/
def deltaAt (sBit : Bool) (deltas : List ℤ) (i : ℕ) : Except Halt ℤ :=
  if sBit then Checked.get (.outside (.delta i)) deltas i else .ok 0

/-- `read_be16_at` and `read_be32_at`. -/
def readBe (raw : List UInt8) (n off : ℕ) : Except Halt ℕ :=
  Checked.readBe (fun i => .outside (.byte i)) raw n off 0

/-- The symbols of one byte, `m` of whose bits are used. -/
def unpackByte (byte : UInt8) (symBits total : ℕ) :
    ℕ → ℕ → ℕ → List PacketStatus → Except Halt (List PacketStatus × ℕ)
  | 0, _, _, _ => .error .endless
  | rounds + 1, m, bitsRead, symbols =>
    if m < 8 ∧ bitsRead < total then
      let bits :=
        if symBits = 1 then byte.toNat >>> (7 - m) &&& 0x1 else byte.toNat >>> (6 - m) &&& 0x3
      unpackByte byte symBits total rounds (m + symBits) (bitsRead + symBits)
        (symbols ++ [.ofBits bits])
    else return (symbols, bitsRead)

section Loops

variable (raw : List UInt8) (rounds : ℕ)

/-- The packed status list; the symbols, and the offset after them. -/
def readStatuses (symBits total : ℕ) :
    ℕ → ℕ → ℕ → List PacketStatus → Except Halt (List PacketStatus × ℕ)
  | 0, _, _, _ => .error .endless
  | left + 1, off, bitsRead, symbols =>
    if bitsRead < total then
      if raw.length ≤ off then return (symbols, off)
      else do
        let byte ← readByte raw off
        let (symbols, bitsRead) ← unpackByte byte symBits total rounds 0 bitsRead symbols
        readStatuses symBits total left (off + 1) bitsRead symbols
    else return (symbols, off)

/-- The loop over `bits_left`; the offset, `acc` and `bits_left` after it. -/
def fill : ℕ → ℕ → ℕ → ℕ → Except Halt (ℕ × ℕ × ℕ)
  | 0, _, _, _ => .error .endless
  | left + 1, off, acc, bitsLeft =>
    if bitsLeft < 14 then
      if raw.length ≤ off then return (raw.length, acc, bitsLeft)
      else do
        let byte ← readByte raw off
        if 32 < bitsLeft + 8 then .error .lostBits
        else fill left (off + 1) (acc <<< 8 % 2 ^ 32 ||| byte.toNat) (bitsLeft + 8)
    else return (off, acc, bitsLeft)

/-- The deltas of the symbols from `i` on; the deltas, and the offset after them. -/
def readDeltasAt (symbols : List PacketStatus) :
    ℕ → ℕ → ℕ → ℕ → ℕ → List ℤ → Except Halt (List ℤ × ℕ)
  | 0, _, off, _, _, deltas => return (deltas, off)
  | n + 1, i, off, acc, bitsLeft, deltas => do
    let (off, acc, bitsLeft) ← fill raw rounds off acc bitsLeft
    if bitsLeft < 14 then readDeltasAt symbols n (i + 1) off acc bitsLeft (deltas ++ [0])
    else
      let delta14 := acc >>> (bitsLeft - 14) &&& 0x3FFF
      let bitsLeft := bitsLeft - 14
      let acc := acc &&& if bitsLeft = 0 then 0 else 1 <<< bitsLeft - 1
      let symbol ← symbolAt symbols i
      let delta := if symbol = .notReceived then 0 else signExtend 14 delta14
      readDeltasAt symbols n (i + 1) off acc bitsLeft (deltas ++ [delta])

/-- The run of a run length chunk. -/
def pushRun (count : ℕ) (s : PacketStatus) :
    ℕ → List TransportCcPacketStatus → List TransportCcPacketStatus
  | 0, packets => packets
  | n + 1, packets =>
    if packets.length < count then pushRun count s n (packets ++ [⟨s, 0⟩]) else packets

/-- The symbols from `i` on. -/
def pushSymbols (count : ℕ) (sBit : Bool) (symbols : List PacketStatus) (deltas : List ℤ) :
    ℕ → ℕ → List TransportCcPacketStatus → Except Halt (List TransportCcPacketStatus)
  | 0, _, packets => return packets
  | n + 1, i, packets =>
    if packets.length < count then do
      let symbol ← symbolAt symbols i
      let delta ← deltaAt sBit deltas i
      pushSymbols count sBit symbols deltas n (i + 1) (packets ++ [⟨symbol, delta⟩])
    else return packets

/-- One chunk, whose first two bytes are `word`; the packets, and the offset after it. -/
def readChunk (count word off : ℕ) (packets : List TransportCcPacketStatus) :
    Except Halt (List TransportCcPacketStatus × ℕ) :=
  if word &&& 0x8000 = 0 then
    return (pushRun count (.ofBits (word >>> 13 &&& 0x3)) (word &&& 0x1FFF) packets, off)
  else do
    let sBit : Bool := word &&& 0x4000 ≠ 0
    let symbolCount := word &&& 0x3FFF
    let symBits := if sBit then 2 else 1
    let (symbols, off) ←
      readStatuses raw rounds symBits (symbolCount * symBits) rounds off 0 []
    let (deltas, off) ←
      (if sBit then readDeltasAt raw rounds symbols symbolCount 0 off 0 0 [] else .ok ([], off) :
        Except Halt (List ℤ × ℕ))
    let packets ← pushSymbols count sBit symbols deltas symbols.length 0 packets
    return (packets, off)

/-- The chunk loop of `parse_transport_cc`, on checked reads. -/
def readChunks (count : ℕ) :
    ℕ → ℕ → List TransportCcPacketStatus → Except Halt (List TransportCcPacketStatus)
  | 0, _, _ => .error .endless
  | left + 1, off, packets =>
    if packets.length < count ∧ off + 2 ≤ raw.length then do
      let word ← readBe raw 2 off
      let (packets, off) ← readChunk raw rounds count word (off + 2) packets
      readChunks count left off packets
    else return packets

/-- A step of the plain parser. -/
def ofResult {α : Type} : Except RtpError α → Except Halt α
  | .ok x => .ok x
  | .error e => .error (.rejected e)

/-- `parse_transport_cc`, on checked reads. -/
def parseTransportCc : Except Halt TransportCcFeedback := do
  let h ← ofResult (parseRtcpHeader raw .rtpfb kTransportCcBody)
  if h.rcOrFmt ≠ kTransportCc then
    .error (.rejected
      (protocolError ("RTCP RTPFB FMT != 15 (transport-cc): got " ++ toString h.rcOrFmt)))
  else if raw.length < kTransportCcBody then
    .error (.rejected
      (protocolError ("RTCP transport-cc body truncated: " ++ toString raw.length)))
  else do
    let senderSsrc ← readBe raw 4 kRtcpHeaderSize
    let mediaSsrc ← readBe raw 4 (kRtcpHeaderSize + 4)
    let baseSeq ← readBe raw 2 (kRtcpHeaderSize + 8)
    let packetStatusCount ← readBe raw 2 (kRtcpHeaderSize + 10)
    let referenceTime24mhz ← readBe raw 3 (kRtcpHeaderSize + 12)
    let packets ← readChunks raw rounds packetStatusCount rounds kTransportCcBody []
    return {
      senderSsrc := UInt32.ofNat senderSsrc
      mediaSsrc := UInt32.ofNat mediaSsrc
      baseSeq := UInt16.ofNat baseSeq
      packetStatusCount := UInt16.ofNat packetStatusCount
      referenceTime24mhz
      packets }

end Loops

end TransportCcMemory

end Rtp

end NimRtc
