import NimRtc.AudioJitterBuffer
import NimRtc.EngineRuns
import NimRtc.RtcpPacket

/-!
# Audio from one engine to another

`send_audio` with the packet it builds: the sequence numbers and timestamps come from counters that
are local to the function, and so there is one of each in the process. The Sender Reports are made of
what `send_audio` left in the engine. At the other end is the audio path of `handle_rtp`.
-/

namespace NimRtc

/-! ### Packets -/

/-- The function-local statics of `send_audio`. -/
structure AudioCounters where
  seq : UInt32 := 0
  ts : UInt32 := 0
  deriving DecidableEq

/-- What one adds to the counters. -/
def AudioCounters.add (c d : AudioCounters) : AudioCounters := ⟨c.seq + d.seq, c.ts + d.ts⟩

/-- One call of `send_audio`, before its packet is built: the samples per channel, what the codec
makes of them, and the clock. -/
structure AudioCall where
  numSamples : ℕ
  encoded : List UInt8
  pcm : Bool := true
  initFinished : Bool := true
  absSendTime : UInt32 := 0
  sendUnixUs : Int := 0
  lib : LibSrtpCall := {}

namespace AudioCall

/-- What an encoded frame adds to the counters. -/
def count (call : AudioCall) : AudioCounters := ⟨1, UInt32.ofNat call.numSamples⟩

/-- The packet that is built for a frame. -/
def builder (call : AudioCall) (e : Engine) (c : AudioCounters) : Rtp.PacketBuilder :=
  let b : Rtp.PacketBuilder := {
    ssrc := audioSsrcOnWire
    seq := c.seq.toUInt16
    timestamp := c.ts
    payloadType := e.cfg.audioCodec.payloadType
    payload := call.encoded
    one_extension := Rtp.PacketBuilder.noExtension }
  if e.cfg.timelineEnabled ∧ e.localAbsSendTimeId ≠ 0 then
    b.setAbsSendTime call.absSendTime e.localAbsSendTimeId
  else b

/-- The call with its packet. -/
def frame (call : AudioCall) (e : Engine) (c : AudioCounters) : AudioFrame where
  pcm := call.pcm && call.numSamples ≠ 0
  initFinished := call.initFinished
  encoded := call.encoded
  packet := (call.builder e c).build.getD []
  rtpTs := c.ts
  sendUnixUs := call.sendUnixUs
  lib := call.lib

end AudioCall

namespace Engine

/-- The call gets as far as to take numbers from the counters. -/
def encodes (e : Engine) (call : AudioCall) : Bool := e.audioReady (call.frame e {})

/-- `send_audio`, with the counters it takes its numbers from. -/
def sendAudioFrom (e : Engine) (c : AudioCounters) (call : AudioCall) :
    AudioCounters × Engine × List EngineReport :=
  (if e.encodes call then c.add call.count else c, e.sendAudio (call.frame e c))

end Engine

/-! ### Two engines in one process -/

/-- An audio packet that an engine emits. -/
structure AudioSent where
  engine : Bool
  seq : UInt16
  timestamp : UInt32
  deriving DecidableEq

/-- The counters of the process, its two engines, and what each of them has added to the counters,
which nothing reads. -/
structure Process where
  counters : AudioCounters := {}
  engines : Bool → Engine
  added : Bool → AudioCounters := fun _ => {}

namespace Process

/-- Engine `i` hands a packet over. -/
def emits (p : Process) (i : Bool) (call : AudioCall) : Prop :=
  ((p.engines i).sendAudioFrom p.counters call).2.2 ≠ []

instance decidableEmits (p : Process) (i : Bool) (call : AudioCall) : Decidable (p.emits i call) :=
  inferInstanceAs (Decidable (_ ≠ _))

/-- A call on one of the engines, with the packet that it emits. -/
def step (p : Process) (ev : Bool × AudioCall) : Process × List AudioSent :=
  let e := p.engines ev.1
  let r := e.sendAudioFrom p.counters ev.2
  ({ counters := r.1
     engines := Function.update p.engines ev.1 r.2.1
     added := Function.update p.added ev.1
      (if e.encodes ev.2 then (p.added ev.1).add ev.2.count else p.added ev.1) },
    if p.emits ev.1 ev.2 then [⟨ev.1, p.counters.seq.toUInt16, p.counters.ts⟩] else [])

def machine : Machine Process (Bool × AudioCall) AudioSent := ⟨step⟩

/-- The packets that engine `i` emits in a run. -/
def heard (engines : Bool → Engine) (i : Bool) (calls : List (Bool × AudioCall)) : List AudioSent :=
  (machine.exec { engines } calls).2.filter (·.engine = i)

/-- Each engine emits the packets that it emits when the other makes no call. -/
def Isolated (engines : Bool → Engine) (calls : List (Bool × AudioCall)) : Prop :=
  ∀ i, heard engines i calls = heard engines i (calls.filter (·.1 = i))

/-- The packets of an engine alone: consecutive sequence numbers, and timestamps that advance by the
samples of each frame. -/
def consecutive (i : Bool) : AudioCounters → List AudioCounters → List AudioSent
  | _, [] => []
  | c, d :: ds => ⟨i, c.seq.toUInt16, c.ts⟩ :: consecutive i (c.add d) ds

/-- When an engine emits a packet, what the other engine added to the counters is lost in their
width: a multiple of 2^16 frames, with a multiple of 2^32 samples. -/
def Undisturbed (p : Process) (ev : Bool × AudioCall) : Prop :=
  p.emits ev.1 ev.2 → (p.added !ev.1).seq.toUInt16 = 0 ∧ (p.added !ev.1).ts = 0

end Process

/-! ### Sender Reports -/

/-- The seconds between 1900 and 1970. -/
def kNtpEpochOffset : UInt64 := 2208988800

/-- `ntp64_from`, of the microseconds since the Unix epoch. -/
def ntp64From (sinceEpochUs : Int) : UInt64 :=
  if sinceEpochUs < 0 then 0
  else
    let unixSeconds := sinceEpochUs.toNat / 1000000
    let unixMicros := sinceEpochUs.toNat % 1000000
    (UInt64.ofNat unixSeconds + kNtpEpochOffset) <<< 32
      ||| UInt64.ofNat (min (unixMicros * 2 ^ 32 / 1000000) (2 ^ 32 - 1))

/-- What is seen of the audio an engine sends. -/
inductive AudioNote
  /-- A packet is handed to the scheduler or to ICE. -/
  | handed (timestamp : UInt32) (sendUnixUs : Int) (octets : ℕ)
  /-- A Sender Report is built. -/
  | report (sr : Rtp.SenderReport)

namespace AudioNote

/-- The packets handed over: timestamp, instant and payload bytes of each. -/
def packets : List AudioNote → List (UInt32 × Int × ℕ) := List.filterMap fun
  | .handed timestamp sendUnixUs octets => some (timestamp, sendUnixUs, octets)
  | .report _ => none

/-- The report is about the packets handed over: its instant and its timestamp are those of one of
them, and its counts are theirs. -/
def Describes (sr : Rtp.SenderReport) (sent : List (UInt32 × Int × ℕ)) : Prop :=
  (∃ p ∈ sent, sr.ntpTimestamp = ntp64From p.2.1 ∧ sr.rtpTimestamp = p.1)
    ∧ sr.senderPacketCount = UInt32.ofNat sent.length
    ∧ sr.senderOctetCount = UInt32.ofNat (sent.map (·.2.2)).sum

/-- Every report describes the packets handed over before it. -/
def Truthful (notes : List AudioNote) : Prop :=
  ∀ before sr after, notes = before ++ .report sr :: after → Describes sr (packets before)

end AudioNote

namespace Engine

/-- The report that `maybe_send_sender_report` builds. -/
def senderReport (e : Engine) : Rtp.SenderReport where
  ssrc := e.audioSsrc
  ntpTimestamp := ntp64From e.audioLastSendUnixUs
  rtpTimestamp := e.audioRtpTimestamp
  senderPacketCount := e.audioPacketCount
  senderOctetCount := e.audioOctetCount

/-- The event with the report that the engine builds for it. -/
def withReport (e : Engine) : EngineEvent → EngineEvent
  | .senderReport iceUp elapsed r =>
    .senderReport iceUp elapsed { r with bytes := (Rtp.SrBuilder.mk e.senderReport).build }
  | ev => ev

/-- What an event shows of the audio that is sent. -/
def notes (e : Engine) : EngineEvent → List AudioNote
  | .sendAudio f =>
    if (e.sendAudio f).2 ≠ [] then [.handed f.rtpTs f.sendUnixUs f.encoded.length] else []
  | .senderReport iceUp elapsed r =>
    if e.isOpen && e.senderReportDue iceUp elapsed r then [.report e.senderReport] else []
  | _ => []

/-- An engine with the reports it builds itself, observed. -/
def noting : Machine Engine EngineEvent AudioNote :=
  ⟨fun e ev => ((e.step (e.withReport ev)).1, e.notes (e.withReport ev))⟩

/-- An audio frame that was encoded is not lost: the builder has a packet for it, and when keys are
installed there is a session that protects it. -/
def HandsOver (e : Engine) : EngineEvent → Prop
  | .sendAudio f =>
    e.audioReady f → f.packet ≠ [] ∧ (e.srtpInstalled →
      ∃ s, (e.srtp.getSession audioSsrcOnWire true f.lib.create).1 = some s
        ∧ s.session.isSome ∧ f.lib.out.isSome)
  | _ => True

end Engine

/-! ### Playing out -/

/-- A codec plugin, on the bit patterns of the floats. -/
structure Codec where
  encode : List UInt32 → List UInt8
  decode : List UInt8 → List UInt32
  lossless : ∀ pcm, decode (encode pcm) = pcm

/-- Bytes in memory read as floats, with the bytes that are left over dropped. -/
def floatsOf : List UInt8 → List UInt32
  | a :: b :: c :: d :: rest => UInt32.ofNat (fromBytes [a, b, c, d]) :: floatsOf rest
  | _ => []

/-- A datagram on its way: the two readings of the clock, for `push` and for `pop`, and what is in
the memory that held earlier datagrams. -/
structure Arrival where
  pushAt : ℤ
  popAt : ℤ
  memory : ℕ → UInt8

/-- The audio side of `handle_rtp`: a jitter buffer for each SSRC. -/
structure AudioReceiver where
  jbConfig : Jb.Config := {}
  /-- The payload type of the video receiver, if there is one. -/
  videoPayloadType : Option UInt8 := some 102
  jitterBuffers : UInt32 → Option Jb.JitterBuffer := fun _ => none

namespace AudioReceiver

/-- The bytes that are found where a view points. The views in the buffer point into the datagram
they were parsed from, which is gone when the next one is handled. -/
def bytesAt (frame : Jb.Frame) (front packet : Rtp.PacketView) (memory : ℕ → UInt8) : List UInt8 :=
  if frame.frameTimestamp = packet.timestamp ∧ frame.packets.length = 1 then front.payload
  else (List.range front.payload.length).map memory

/-- The jitter buffer of an SSRC, which the first packet makes. -/
def buffer (r : AudioReceiver) (ssrc : UInt32) : Jb.JitterBuffer :=
  (r.jitterBuffers ssrc).getD { config := r.jbConfig }

/-- The frame that is passed to `on_audio_frame`. Jitter does not move the delay. -/
def handleRtp (r : AudioReceiver) (packet : Rtp.PacketView) (a : Arrival) :
    AudioReceiver × Option (List UInt32) :=
  let (jb, frame) := ((r.buffer packet.ssrc).push packet a.pushAt none).pop a.popAt none
  let played :=
    match frame with
    | none => none
    | some frame =>
      match frame.packets with
      | [] => none
      | front :: _ =>
        if front.payload.length = 0 then none
        else some (floatsOf (bytesAt frame front packet a.memory))
  ({ r with jitterBuffers := Function.update r.jitterBuffers packet.ssrc (some jb) }, played)

/-- `dispatch_media_inbound`, as far as audio goes. -/
def recv (r : AudioReceiver) (datagram : List UInt8) (a : Arrival) :
    AudioReceiver × Option (List UInt32) :=
  if looksLikeRtcp datagram then (r, none)
  else match ({} : Rtp.Parser).parse 0 datagram with
    | .error _ => (r, none)
    | .ok packet =>
      if r.videoPayloadType = some packet.payloadType then (r, none) else r.handleRtp packet a

end AudioReceiver

/-- A frame of PCM for `send_audio`, and how its packet fares. -/
structure PcmFrame where
  samples : List UInt32
  numSamples : ℕ
  arrival : Arrival
  numSamples_ne_zero : numSamples ≠ 0
  samples_ne_nil : samples ≠ []

/-- One engine sends and the other receives. -/
structure AudioLink where
  sender : Engine
  counters : AudioCounters := {}
  receiver : AudioReceiver

namespace AudioLink

/-- `send_audio`, and what becomes of the packet, which SRTP leaves as it is. -/
def step (codec : Codec) (l : AudioLink) (f : PcmFrame) : AudioLink × List (List UInt32) :=
  let call : AudioCall := { numSamples := f.numSamples, encoded := codec.encode f.samples }
  let (counters, sender, reports) := l.sender.sendAudioFrom l.counters call
  match reports with
  | [.emitted m] =>
    let (receiver, played) := l.receiver.recv m.bytes f.arrival
    ({ sender, counters, receiver }, played.toList)
  | _ => ({ l with sender, counters }, [])

def machine (codec : Codec) : Machine AudioLink PcmFrame (List UInt32) := ⟨step codec⟩

/-- The codec leaves the floats of the frame as they are in memory. Its timestamp comes after those
that wait in the jitter buffer, as a number, and what is found where the first of these points is
still its payload. -/
structure Sound (codec : Codec) (l : AudioLink) (f : PcmFrame) : Prop where
  plain : floatsOf (codec.encode f.samples) = f.samples
  later : ∀ ts ∈ (l.receiver.buffer audioSsrcOnWire).timestamps, ts < l.counters.ts
  intact : ∀ e ∈ (l.receiver.buffer audioSsrcOnWire).frameBuffer.head?, ∀ front ∈ e.2.packets.head?,
    (List.range front.payload.length).map f.arrival.memory = front.payload

end AudioLink

end NimRtc
