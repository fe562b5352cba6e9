import NimRtc.Bwe
import NimRtc.Lib.Json

/-!
# Profiles

Profiles and their JSON form, from `assembly.hpp` and `assembly.cpp`. The JSON library is a parameter.
An `int` of the source is an `Int32`.
-/

namespace NimRtc

/-- `plugins::SchedulerConfig`. -/
structure Plugins.SchedulerConfig where
  avgPacketSizeBytes : UInt32 := 1200
  maxQueueDepth : UInt32 := 8192
  protectKeyframes : Bool := true
  enabled : Bool := false
  deriving DecidableEq, Repr

namespace Assembly

/-- The strategies a scheduler can have by name. -/
inductive Strategy
  | strictPriority
  | weightedFair
  | fixedRate
  deriving DecidableEq, Repr

/-- The section `scheduler` of a profile. -/
structure SchedulerConfig where
  enabled : Bool := true
  strategy : Strategy := .strictPriority
  controlWeight : UInt8 := 10
  audioWeight : UInt8 := 8
  videoWeight : UInt8 := 4
  bestEffortWeight : UInt8 := 1
  impl : String := "strict_priority"
  params : Plugins.SchedulerConfig := {}
  deriving DecidableEq, Repr

/-- The section `bwe` of a profile. -/
structure BweConfig where
  impl : String := "aimd"
  params : NimRtc.BweConfig := {}
  deriving DecidableEq, Repr

/-- The modes of the jitter buffer by name. -/
inductive JitterBufferMode
  | lowLatency
  | live
  | interactive
  deriving DecidableEq, Repr

/-- The section `jitter_buffer` of a profile. -/
structure JitterBufferConfig where
  impl : String := "adaptive"
  mode : JitterBufferMode := .lowLatency
  initialDelayMs : Int32 := 40
  minDelayMs : Int32 := 10
  maxDelayMs : Int32 := 200
  deriving DecidableEq, Repr

/-- The block `media` of the section `transport`. -/
structure TransportStackConfig where
  stack : String := ""
  maxP99Ms : Option Int32 := none
  deriving DecidableEq, Repr

/-- The block `control` of the section `transport`. -/
structure TransportControlConfig where
  enabled : Bool := false
  stack : String := ""
  maxP99Ms : Option Int32 := none
  freqHz : Option Int32 := none
  reliability : String := ""
  ttlMs : Option Int32 := none
  deriving DecidableEq, Repr

/-- The section `transport` of a profile. -/
structure TransportSection where
  strategy : String := ""
  media : TransportStackConfig := {}
  control : TransportControlConfig := {}
  deriving DecidableEq, Repr

/-- A profile: what `load` reads and `to_json` writes. -/
structure Profile where
  name : String := ""
  transportName : String := "ice"
  sdpName : String := "webrtc"
  rtpName : String := "webrtc"
  jbName : String := "adaptive"
  audio3aName : String := "webrtc_apm"
  codecName : String := "opus"
  bweName : String := "aimd"
  schedulerName : String := "default"
  timelineEnabled : Bool := false
  datachannelEnabled : Bool := false
  scheduler : SchedulerConfig := {}
  bwe : BweConfig := {}
  jitterBuffer : JitterBufferConfig := {}
  audioSampleRateHz : UInt32 := 48000
  audioChannels : UInt8 := 1
  audioPayloadType : UInt8 := 111
  transport : TransportSection := {}
  deriving DecidableEq, Repr

/-- The plugin that a strategy stands for. -/
def defaultImplFor : Strategy → String
  | .strictPriority => "strict_priority"
  | .weightedFair => "weighted_fair"
  | .fixedRate => "fixed_rate"

/-- `resolve_scheduler_impl` -/
def resolveSchedulerImpl (sc : SchedulerConfig) : String :=
  if sc.impl ≠ "" then sc.impl else defaultImplFor sc.strategy

def jitterBufferModeToString : JitterBufferMode → String
  | .lowLatency => "low_latency"
  | .live => "live"
  | .interactive => "interactive"

def stringToJitterBufferMode (s : String) : JitterBufferMode :=
  if s = "live" then .live else if s = "interactive" then .interactive else .lowLatency

def schedulerStrategyToString : Strategy → String
  | .strictPriority => "strict_priority"
  | .weightedFair => "weighted_fair"
  | .fixedRate => "fixed_rate"

def stringToSchedulerStrategy (s : String) : Strategy :=
  if s = "weighted_fair" then .weightedFair
  else if s = "fixed_rate" then .fixedRate
  else .strictPriority

/-! ### Reading -/

/-- How a profile is refused, with the text of the error. -/
inductive ProfileError
  | runtimeError (message : String)
  /-- What the JSON library throws when a value is not of the type that is asked for. -/
  | typeError
  deriving DecidableEq, Repr

section Reading

variable (lib : JsonLibrary ProfileError)

/-- `json_to_string`. -/
def jsonToString (j : lib.Value) : Except ProfileError String :=
  if lib.isNull j then .ok "" else lib.get .string j

/-- `json_to_string` of `value`: the text is made a JSON value in between. -/
def stringValue (j : lib.Value) (key default : String) : Except ProfileError String := do
  let text ← lib.value .string j key default
  jsonToString lib (lib.ofEl .string text)

/-- A member that may be missing. -/
def optional (j : lib.Value) (key : String) : Except ProfileError (Option Int32) :=
  match lib.find j key with
  | none => .ok none
  | some v => some <$> lib.get .int v

/-- The member with a key, if it is an object. -/
def findObject (j : lib.Value) (key : String) : Option lib.Value :=
  (lib.find j key).filter lib.isObject

/-- The block `media` as it is read. -/
def mediaFromJson (m : lib.Value) : Except ProfileError TransportStackConfig := do
  return { stack := ← stringValue lib m "stack" "", maxP99Ms := ← optional lib m "max_p99_ms" }

/-- The block `control` as it is read. -/
def controlFromJson (c : lib.Value) : Except ProfileError TransportControlConfig := do
  let enabled ← lib.value .bool c "enabled" false
  let stack ← stringValue lib c "stack" ""
  let maxP99Ms ← optional lib c "max_p99_ms"
  let freqHz ← optional lib c "freq_hz"
  let reliability ← stringValue lib c "reliability" ""
  let ttlMs ← optional lib c "ttl_ms"
  return { enabled, stack, maxP99Ms, freqHz, reliability, ttlMs }

/-- Reads a part that is an object, and leaves it as it is by default if there is none. -/
def readPart {α : Type} (read : lib.Value → Except ProfileError α) (j : lib.Value) (key : String)
    (default : α) : Except ProfileError α :=
  match findObject lib j key with
  | none => .ok default
  | some part => read part

/-- The section `transport` as it is read, with its two blocks. -/
def transportFromJson (root : lib.Value) : Except ProfileError TransportSection :=
  readPart lib (fun t => do
    return {
      strategy := ← stringValue lib t "strategy" ""
      media := ← readPart lib (mediaFromJson lib) t "media" {}
      control := ← readPart lib (controlFromJson lib) t "control" {} }) root "transport" {}

/-- The section `bwe` as it is read. -/
def bweFromJson (bwe : lib.Value) : Except ProfileError BweConfig := do
  let impl ← stringValue lib bwe "impl" "aimd"
  let initialBitrateBps ← lib.value .uint32 bwe "initial_bitrate_bps" 1000000
  let maxBitrateBps ← lib.value .uint32 bwe "max_bitrate_bps" 10000000
  return { impl, params := { initialBitrateBps, maxBitrateBps } }

/-- The section `jitter_buffer` as it is read. -/
def jitterBufferFromJson (jb : lib.Value) : Except ProfileError JitterBufferConfig := do
  let impl ← stringValue lib jb "impl" "adaptive"
  let mode ← stringValue lib jb "mode" "low_latency"
  let initialDelayMs ← lib.value .int jb "initial_delay_ms" 40
  let minDelayMs ← lib.value .int jb "min_delay_ms" 10
  let maxDelayMs ← lib.value .int jb "max_delay_ms" 200
  return { impl, mode := stringToJitterBufferMode mode, initialDelayMs, minDelayMs, maxDelayMs }

/-- The parameters of the scheduler as they are read. -/
def paramsFromJson (ps : lib.Value) : Except ProfileError Plugins.SchedulerConfig := do
  let avgPacketSizeBytes ← lib.value .uint32 ps "avg_packet_size_bytes" 1200
  let maxQueueDepth ← lib.value .uint32 ps "max_queue_depth" 8192
  let protectKeyframes ← lib.value .bool ps "protect_keyframes" true
  return { avgPacketSizeBytes, maxQueueDepth, protectKeyframes }

/-- `static_cast<std::uint8_t>` of an `int`. -/
def toUint8 (n : Int32) : UInt8 := UInt8.ofNat (n.toInt % 2 ^ 8).toNat

/-- The section `scheduler` as it is read. -/
def schedulerFromJson (sc : lib.Value) : Except ProfileError SchedulerConfig := do
  let enabled ← lib.value .bool sc "enabled" true
  let strategy := stringToSchedulerStrategy (← stringValue lib sc "strategy" "strict_priority")
  let controlWeight ← lib.value .int sc "control_weight" 10
  let audioWeight ← lib.value .int sc "audio_weight" 8
  let videoWeight ← lib.value .int sc "video_weight" 4
  let bestEffortWeight ← lib.value .int sc "best_effort_weight" 1
  let implExplicit ← stringValue lib sc "impl" ""
  let params ← readPart lib (paramsFromJson lib) sc "params" {}
  return {
    enabled
    strategy
    controlWeight := toUint8 controlWeight
    audioWeight := toUint8 audioWeight
    videoWeight := toUint8 videoWeight
    bestEffortWeight := toUint8 bestEffortWeight
    impl := if implExplicit = "" then defaultImplFor strategy else implExplicit
    params }

/-- The profile of a JSON value. -/
def profileFromJson (root : lib.Value) : Except ProfileError Profile := do
  let name ← stringValue lib root "name" ""
  let transportName ← stringValue lib root "transport_name" "ice"
  let sdpName ← stringValue lib root "sdp_name" "webrtc"
  let rtpName ← stringValue lib root "rtp_name" "webrtc"
  let jbName ← stringValue lib root "jb_name" "adaptive"
  let audio3aName ← stringValue lib root "audio3a_name" "webrtc_apm"
  let codecName ← stringValue lib root "codec_name" "opus"
  let bweName ← stringValue lib root "bwe_name" "aimd"
  let schedulerName ← stringValue lib root "scheduler_name" "default"
  let timelineEnabled ← lib.value .bool root "timeline_enabled" false
  let datachannelEnabled ← lib.value .bool root "datachannel_enabled" false
  let audioSampleRateHz ← lib.value .uint32 root "audio_sample_rate_hz" 48000
  let audioChannels ← lib.value .int root "audio_channels" 1
  let audioPayloadType ← lib.value .int root "audio_payload_type" 111
  let bwe ← readPart lib (bweFromJson lib) root "bwe" {}
  let jitterBuffer ← readPart lib (jitterBufferFromJson lib) root "jitter_buffer" {}
  let scheduler ← readPart lib (schedulerFromJson lib) root "scheduler" {}
  let transport ← transportFromJson lib root
  return {
    name, transportName, sdpName, rtpName, jbName, audio3aName, codecName, bweName, schedulerName,
    timelineEnabled, datachannelEnabled, audioSampleRateHz
    audioChannels := toUint8 audioChannels
    audioPayloadType := toUint8 audioPayloadType
    bwe, jitterBuffer, scheduler, transport }

/-- `profile_from_json_file`, given what the file holds if it can be opened. -/
def profileFromJsonFile (filePath : String) (file : Option String) : Except ProfileError Profile :=
  match file with
  | none => .error (.runtimeError ("assembly: cannot open profile JSON file: " ++ filePath))
  | some text =>
    match lib.parse text with
    | .error what =>
      .error (.runtimeError ("assembly: JSON parse error in " ++ filePath ++ ": " ++ what))
    | .ok root => profileFromJson lib root

end Reading

/-! ### Writing -/

/-- The transport block is written. -/
def TransportSection.Emitted (t : TransportSection) : Prop :=
  t.strategy ≠ "" ∨ t.media.stack ≠ "" ∨ t.control.enabled = true

instance (t : TransportSection) : Decidable t.Emitted := inferInstanceAs (Decidable (_ ∨ _))

section Writing

variable (lib : JsonLibrary ProfileError)

/-- A member that is put in if it has a value. -/
def ofOptional (key : String) (n : Option Int32) : List (String × lib.Value) :=
  match n with
  | none => []
  | some n => [(key, lib.ofEl .int n)]

/-- A text that is put in if it is not empty. -/
def ofNonempty (key s : String) : List (String × lib.Value) :=
  if s = "" then [] else [(key, lib.ofEl .string s)]

/-- The block `media` as it is written. -/
def mediaToJson (m : TransportStackConfig) : lib.Value :=
  lib.objectOf ([("stack", lib.ofEl .string m.stack)] ++ ofOptional lib "max_p99_ms" m.maxP99Ms)

/-- The block `control` as it is written. -/
def controlToJson (c : TransportControlConfig) : lib.Value :=
  lib.objectOf ([("enabled", lib.ofEl .bool c.enabled), ("stack", lib.ofEl .string c.stack)]
    ++ ofOptional lib "max_p99_ms" c.maxP99Ms ++ ofOptional lib "freq_hz" c.freqHz
    ++ ofNonempty lib "reliability" c.reliability ++ ofOptional lib "ttl_ms" c.ttlMs)

/-- The section `transport` as it is written. -/
def transportToJson (t : TransportSection) : lib.Value :=
  lib.objectOf (ofNonempty lib "strategy" t.strategy
    ++ [("media", mediaToJson lib t.media), ("control", controlToJson lib t.control)])

/-- The section `bwe` as it is written. -/
def bweToJson (bwe : BweConfig) : lib.Value :=
  lib.objectOf [("impl", lib.ofEl .string bwe.impl),
    ("initial_bitrate_bps", lib.ofEl .uint32 bwe.params.initialBitrateBps),
    ("max_bitrate_bps", lib.ofEl .uint32 bwe.params.maxBitrateBps)]

/-- The section `jitter_buffer` as it is written. -/
def jitterBufferToJson (jb : JitterBufferConfig) : lib.Value :=
  lib.objectOf [("impl", lib.ofEl .string jb.impl),
    ("mode", lib.ofEl .string (jitterBufferModeToString jb.mode)),
    ("initial_delay_ms", lib.ofEl .int jb.initialDelayMs),
    ("min_delay_ms", lib.ofEl .int jb.minDelayMs), ("max_delay_ms", lib.ofEl .int jb.maxDelayMs)]

/-- The parameters of the scheduler as they are written. -/
def paramsToJson (ps : Plugins.SchedulerConfig) : lib.Value :=
  lib.objectOf [("avg_packet_size_bytes", lib.ofEl .uint32 ps.avgPacketSizeBytes),
    ("max_queue_depth", lib.ofEl .uint32 ps.maxQueueDepth),
    ("protect_keyframes", lib.ofEl .bool ps.protectKeyframes)]

/-- The section `scheduler` as it is written. -/
def schedulerToJson (sc : SchedulerConfig) : lib.Value :=
  lib.objectOf [("enabled", lib.ofEl .bool sc.enabled),
    ("strategy", lib.ofEl .string (schedulerStrategyToString sc.strategy)),
    ("control_weight", lib.ofEl .uint8 sc.controlWeight),
    ("audio_weight", lib.ofEl .uint8 sc.audioWeight),
    ("video_weight", lib.ofEl .uint8 sc.videoWeight),
    ("best_effort_weight", lib.ofEl .uint8 sc.bestEffortWeight),
    ("impl", lib.ofEl .string (resolveSchedulerImpl sc)), ("params", paramsToJson lib sc.params)]

/-- The members are put into a value that is null at first. -/
def profileToJson (p : Profile) : lib.Value :=
  lib.setAll lib.null ([("name", lib.ofEl .string p.name),
      ("transport_name", lib.ofEl .string p.transportName),
      ("sdp_name", lib.ofEl .string p.sdpName), ("rtp_name", lib.ofEl .string p.rtpName),
      ("jb_name", lib.ofEl .string p.jbName), ("audio3a_name", lib.ofEl .string p.audio3aName),
      ("codec_name", lib.ofEl .string p.codecName), ("bwe_name", lib.ofEl .string p.bweName),
      ("scheduler_name", lib.ofEl .string p.schedulerName),
      ("timeline_enabled", lib.ofEl .bool p.timelineEnabled),
      ("datachannel_enabled", lib.ofEl .bool p.datachannelEnabled),
      ("audio_sample_rate_hz", lib.ofEl .uint32 p.audioSampleRateHz),
      ("audio_channels", lib.ofEl .uint8 p.audioChannels),
      ("audio_payload_type", lib.ofEl .uint8 p.audioPayloadType),
      ("bwe", bweToJson lib p.bwe), ("jitter_buffer", jitterBufferToJson lib p.jitterBuffer),
      ("scheduler", schedulerToJson lib p.scheduler)]
    ++ if p.transport.Emitted then [("transport", transportToJson lib p.transport)] else [])

/-- `root.dump(2)`. -/
def profileToJsonString (p : Profile) : String := lib.dump 2 (profileToJson lib p)

end Writing

/-- The scheduler's plugin is resolved. -/
def Profile.resolved (p : Profile) : Profile :=
  { p with scheduler := { p.scheduler with impl := resolveSchedulerImpl p.scheduler } }

/-- The parameters of the estimator other than the initial and the maximum bitrate. -/
def Profile.DefaultBwe (p : Profile) : Prop :=
  p.bwe.params = { initialBitrateBps := p.bwe.params.initialBitrateBps,
                   maxBitrateBps := p.bwe.params.maxBitrateBps }

/-- The transport block is written if it says anything, and the switch of the scheduler's parameters,
which is not written, is off. -/
def Profile.Kept (p : Profile) : Prop :=
  (p.transport = {} ∨ p.transport.Emitted) ∧ p.scheduler.params.enabled = false

end Assembly

end NimRtc
