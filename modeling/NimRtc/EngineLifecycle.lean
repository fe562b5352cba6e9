import NimRtc.Engine

/-!
# The life of an engine

`pre_open`, `open`, `close` and the destructor of `engine.cpp`, the phases of `init_modules_once` and the
slots that `make_plugin` fills. The media stacks are numbered in the order in which they are made, and
`ice_t_` points into one of them. What the registry, the factories and the plugins answer comes with
the call. Logs, callbacks, the timeline and the data channels are left out.
-/

namespace NimRtc

/-- A plugin that the engine owns. -/
inductive Slot
  | bwe
  | scheduler
  | audio3a
  | codec
  | videoSink
  | videoSource
  | videoReceiver
  | videoSender
  | videoCodec
  deriving DecidableEq, Repr

/-- All slots. -/
def Slot.all : List Slot :=
  [.bwe, .scheduler, .audio3a, .codec, .videoSink, .videoSource, .videoReceiver, .videoSender,
    .videoCodec]

/-- How `make_plugin` goes. -/
inductive PluginAnswer
  /-- There is no factory, or it gives no plugin. -/
  | missing
  | openFailed
  | ok
  deriving DecidableEq, Repr

/-- A media stack that a factory gives. -/
structure MediaStack where
  hasIce : Bool := true
  /-- Whether its DTLS session opens, if it has one. -/
  dtls : Option Bool := some true
  deriving DecidableEq, Repr

/-- What a call of `init_modules_once` meets. -/
structure Modules where
  strategyKnown : Bool := true
  mediaStack : Option MediaStack := some {}
  datachannelKnown : Bool := true
  plugin : Slot → PluginAnswer := fun _ => .ok

/-- What the life of an engine depends on of its configuration. -/
structure LifecycleConfig where
  /-- `bwe_name` is not empty. -/
  bwe : Bool := true
  schedulerEnabled : Bool := true
  /-- `video_codec_name` is not empty. -/
  videoCodec : Bool := true
  /-- The media stack is one that has no DTLS by design. -/
  noDtlsByDesign : Bool := false
  deriving DecidableEq, Repr

/-- What is done to ICE and to the plugins. -/
inductive LifecycleReport
  /-- A call through `ice_t_`, which points into a stack that is there. -/
  | ice (stack : ℕ) (live : Bool)
  | nullIce
  /-- A plugin was closed, and freed. -/
  | closed (slot : Slot)
  /-- A plugin that was open was freed without being closed. -/
  | dropped (slot : Slot)
  deriving DecidableEq, Repr

/-- An engine as far as its life goes: its pointers, and the plugins that it has. -/
structure EngineLifecycle where
  cfg : LifecycleConfig := {}
  state : EngineState := .constructed
  iceT : Option ℕ := none
  /-- `session.media_stack` -/
  mediaStack : Option ℕ := none
  stacksMade : ℕ := 0
  /-- The stack that `init_dtls_handshake` was done with: its DTLS session is open, or left out by
  design, and its ICE has the callbacks of the engine. -/
  ready : Option ℕ := none
  /-- The plugins that are there, all of them open. -/
  slots : Slot → Bool := fun _ => false
  /-- `ice()` of a stack without ICE dereferences a null pointer. -/
  crashed : Bool := false
  destroyed : Bool := false

namespace EngineLifecycle

/-- The engine after a step, and what was done. -/
abbrev Step := EngineLifecycle × List LifecycleReport

/-- One step after another. -/
def andThen (r : Step) (f : EngineLifecycle → Step) : Step := ((f r.1).1, r.2 ++ (f r.1).2)

/-- A call through `ice_t_`, which is not asked first. -/
def onIce (s : EngineLifecycle) : List LifecycleReport :=
  match s.iceT with
  | none => [.nullIce]
  | some n => [.ice n (s.mediaStack = some n)]

/-- `if (ice_t_)` -/
def ifIce (s : EngineLifecycle) : List LifecycleReport :=
  match s.iceT with
  | none => []
  | some n => [.ice n (s.mediaStack = some n)]

/-! ### Plugins -/

/-- `make_plugin`, which resets the slot. -/
def makePlugin (m : Modules) (s : EngineLifecycle) (slot : Slot) : Step :=
  ({ s with slots := Function.update s.slots slot (m.plugin slot = .ok) },
    if s.slots slot then [.dropped slot] else [])

/-- `if (!plugin_)` -/
def fillSlot (m : Modules) (s : EngineLifecycle) (slot : Slot) : Step :=
  if s.slots slot then (s, []) else s.makePlugin m slot

/-- A step for each of some slots. -/
def forSlots (f : EngineLifecycle → Slot → Step) : List Slot → EngineLifecycle → Step
  | [], s => (s, [])
  | slot :: slots, s => andThen (f s slot) (forSlots f slots)

/-- `init_bwe_scheduler` -/
def initBweScheduler (m : Modules) (s : EngineLifecycle) : Step :=
  andThen
    (forSlots (fillSlot m)
      ((if s.cfg.bwe then [.bwe] else []) ++ if s.cfg.schedulerEnabled then [.scheduler] else []) s)
    fun s => (s, s.ifIce)

/-- `init_audio_modules`, which does not ask what is there. -/
def initAudioModules (m : Modules) (s : EngineLifecycle) : Step :=
  forSlots (makePlugin m) [.audio3a, .codec] s

/-- `init_video_plugins` -/
def initVideoPlugins (m : Modules) (s : EngineLifecycle) : Step :=
  forSlots (fillSlot m)
    ([.videoSink, .videoSource, .videoReceiver, .videoSender]
      ++ if s.cfg.videoCodec then [.videoCodec] else []) s

/-! ### Phases -/

/-- The new session takes the place of the old one. -/
def initTransportSession (m : Modules) (s : EngineLifecycle) : Bool × Step :=
  match m.mediaStack with
  | none => (false, { s with mediaStack := none }, [])
  | some stack =>
    let s := { s with mediaStack := some s.stacksMade, stacksMade := s.stacksMade + 1 }
    if stack.hasIce then
      let s := { s with iceT := s.mediaStack }
      (true, s, s.onIce)
    else (false, { s with iceT := none, crashed := true }, [.nullIce])

/-- `init_dtls_handshake` -/
def initDtlsHandshake (m : Modules) (s : EngineLifecycle) : Bool × Step :=
  let opened : Bool := match m.mediaStack.bind (·.dtls) with
    | some ok => ok
    | none => s.cfg.noDtlsByDesign
  if opened then (true, { s with ready := s.iceT }, s.onIce) else (false, s, [])

/-- `init_modules_once`: the phases, up to the first that fails. -/
def initModulesOnce (m : Modules) (s : EngineLifecycle) : Bool × Step :=
  if !m.strategyKnown then (false, s, [])
  else
    let (ok, session) := s.initTransportSession m
    if !ok then (false, session)
    else
      let plugins := andThen (andThen session (initBweScheduler m)) (initAudioModules m)
      if !m.datachannelKnown then (false, plugins)
      else ((plugins.1.initDtlsHandshake m).1, andThen plugins fun s => (s.initDtlsHandshake m).2)

/-! ### The calls -/

/-- `pre_open` -/
def preOpen (m : Modules) (s : EngineLifecycle) : Step :=
  if s.state ≠ .constructed then (s, []) else (s.initModulesOnce m).2

/-- What `open` does when the modules are there. -/
def openTransport (m : Modules) (iceOk : Bool) (s : EngineLifecycle) : Step :=
  andThen (s, s.onIce) fun s =>
    if !iceOk then ({ s with iceT := none }, [])
    else andThen (s.initVideoPlugins m) fun s => ({ s with state := .open }, [])

/-- `open`, which makes the modules if `ice_t_` is not there. -/
def «open» (m : Modules) (iceOk : Bool) (s : EngineLifecycle) : Step :=
  if s.state ≠ .constructed then (s, [])
  else if s.iceT = none then
    let (ok, modules) := s.initModulesOnce m
    if !ok then modules else andThen modules (openTransport m iceOk)
  else s.openTransport m iceOk

/-- All that is left of the stack is its shell, whose components are freed. -/
def close (s : EngineLifecycle) : Step :=
  if s.state ≠ .open then (s, [])
  else
    ({ s with state := .closed, iceT := none, mediaStack := none, slots := fun _ => false },
      s.ifIce ++ (Slot.all.filter (s.slots ·)).map .closed ++ s.ifIce)

/-- The destructor: what `close` has not closed is dropped. -/
def destroy (s : EngineLifecycle) : Step :=
  andThen s.close fun s =>
    ({ s with destroyed := true, mediaStack := none, iceT := none, slots := fun _ => false },
      (Slot.all.filter (s.slots ·)).map .dropped)

/-- `set_video_sink` and `set_video_source`. The new one is dropped again if it does not open. -/
def setVideo (slot : Slot) (opens : Option Bool) (s : EngineLifecycle) : Step :=
  ({ s with slots := Function.update s.slots slot (opens = some true) },
    if s.slots slot then [.closed slot] else [])

/-- The calls on an engine, each with what it meets. -/
inductive Event
  | preOpen (m : Modules)
  | «open» (m : Modules) (iceOk : Bool)
  | close
  | destroy
  | setVideoSink (opens : Option Bool)
  | setVideoSource (opens : Option Bool)
  /-- A call that asks `ice_t_` if it is there. -/
  | useIce
  | tick

/-- One call. -/
def call (s : EngineLifecycle) : Event → Step
  | .preOpen m => s.preOpen m
  | .open m iceOk => s.open m iceOk
  | .close => s.close
  | .destroy => s.destroy
  | .setVideoSink opens => s.setVideo .videoSink opens
  | .setVideoSource opens => s.setVideo .videoSource opens
  | .useIce => (s, s.ifIce)
  | .tick => (s, if s.state = .open then s.onIce else [])

/-- A call on an engine that is still there. -/
def step (s : EngineLifecycle) (e : Event) : Step :=
  if s.crashed ∨ s.destroyed then (s, []) else s.call e

def machine : Machine EngineLifecycle Event LifecycleReport := ⟨step⟩

end EngineLifecycle

end NimRtc
