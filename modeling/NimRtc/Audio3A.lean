import NimRtc.Lib.Blocks
import NimRtc.Lib.Interleave
import NimRtc.Lib.Machine

/-!
# The framing of the echo canceller

`process_capture` and `process_render` of `webrtc_audio3a.cpp`, which cut what they are given into
frames of 10 ms for the audio processing module and carry over what is left. The module is any function
of the frames that it is given, with a state of its own; each of its calls succeeds. Levels, voice
detection and the warnings about alignment are left out.
-/

namespace NimRtc

open Interleave

namespace Audio3A

/-- What a call may do wrong. -/
inductive Access
  | samples (i : ℕ)
  | residual (ch i : ℕ)
  | scratch (ch i : ℕ)
  | outScratch (ch i : ℕ)
  | need
  | endless
  deriving DecidableEq, Repr

/-- Interleaved audio, with `numSamples` samples for each channel. -/
structure Frame (channels : ℕ) (α : Type) where
  numSamples : ℕ
  samples : List α
  length_samples : samples.length = numSamples * channels

/-- The audio processing module. Its output has the size that it was told at the start. -/
structure Apm (σ α : Type) (captureChannels renderChannels frameSize : ℕ) where
  processStream : σ → Planar captureChannels α → σ × Planar captureChannels α
  processReverseStream : σ → Planar renderChannels α → σ
  length_out : ∀ apm frame ch, ((processStream apm frame).2 ch).length = frameSize

/-- A call of the module. -/
inductive ApmCall (captureChannels renderChannels : ℕ) (α : Type)
  | processStream (frame : Planar captureChannels α)
  | processReverseStream (frame : Planar renderChannels α)

/-- The module as a machine: it reports what it gives for the frames that are captured. -/
def Apm.machine {σ α : Type} {captureChannels renderChannels frameSize : ℕ}
    (x : Apm σ α captureChannels renderChannels frameSize) :
    Machine σ (ApmCall captureChannels renderChannels α) (Planar captureChannels α) where
  step apm
    | .processStream frame => ((x.processStream apm frame).1, [(x.processStream apm frame).2])
    | .processReverseStream frame => (x.processReverseStream apm frame, [])

/-- The buffers of one direction. -/
structure Carry (channels : ℕ) (α : Type) where
  residual : Planar channels α
  residualFill : ℕ
  scratch : Planar channels α

/-- Buffers for one frame a channel. -/
def Carry.alloc (channels frameSize : ℕ) {α : Type} (zero : α) : Carry channels α where
  residual _ := List.replicate frameSize zero
  residualFill := 0
  scratch _ := List.replicate frameSize zero

/-- A frame that the module was given, and what it gave for the caller. -/
abbrev Given (channels : ℕ) (α : Type) := Planar channels α × Option (Planar channels α)

/-! ### One call -/

/-- In what the directions differ: in the call of the module, and in how a remainder counts. -/
structure Direction (σ α : Type) (channels : ℕ) where
  process : σ → Planar channels α → σ × Option (Planar channels α)
  stashFill : ℕ → ℕ → ℕ

/-- What a call has done so far: the APM, what is carried, the samples, how far it is in them, and
the frames that were given to the APM. -/
structure Progress (σ α : Type) (channels : ℕ) where
  apm : σ
  carry : Carry channels α
  samples : List α
  cursor : ℕ := 0
  given : List (Given channels α) := []

section Call

variable {σ α : Type} {channels : ℕ} (d : Direction σ α channels) (frameSize total : ℕ)

/-- A processed frame goes back into the samples, if there is one. -/
def writeBack (off n start : ℕ) (samples : List α) :
    Option (Planar channels α) → Except Access (List α)
  | none => .ok samples
  | some out => toInterleaved (fun ch => .outScratch ch) .samples out off n start samples

/-- A frame goes to the APM, and what comes back into the samples. -/
def giveFrame (p : Progress σ α channels) (frame : Planar channels α) (off n start : ℕ) :
    Except Access (Progress σ α channels) := do
  let r := d.process p.apm frame
  let samples ← writeBack off n start p.samples r.2
  return { p with apm := r.1, samples, given := p.given ++ [(frame, r.2)] }

/-- 1) The residual of the last call is topped up. Of a frame that becomes full, only the part of this
call is written back. -/
def topUp (p : Progress σ α channels) : Except Access (Progress σ α channels) :=
  if p.carry.residualFill = 0 then .ok p
  else do
    let oldFill := p.carry.residualFill
    let need ← Checked.sub .need frameSize oldFill
    let take := min need total
    let residual ←
      toPlanar .samples (fun ch => .residual ch) p.samples 0 take oldFill p.carry.residual
    let p := {
      p with
      cursor := take
      carry := { p.carry with residual, residualFill := oldFill + take } }
    if oldFill + take ≠ frameSize then .ok p
    else do
      let p ← giveFrame d p residual oldFill take 0
      return { p with carry := { p.carry with residualFill := 0 } }

/-- 2) Full frames. There is one round for each at most. -/
def fullFrames : ℕ → Progress σ α channels → Except Access (Progress σ α channels)
  | 0, _ => .error .endless
  | rounds + 1, p =>
    if total < p.cursor + frameSize then .ok p
    else do
      let scratch ←
        toPlanar .samples (fun ch => .scratch ch) p.samples p.cursor frameSize 0 p.carry.scratch
      let p ← giveFrame d { p with carry := { p.carry with scratch } } scratch 0 frameSize p.cursor
      fullFrames rounds { p with cursor := p.cursor + frameSize }

/-- 3) What is left goes to the residual. -/
def stash (p : Progress σ α channels) : Except Access (Progress σ α channels) :=
  if total ≤ p.cursor then .ok p
  else do
    let leftover := total - p.cursor
    let residual ←
      toPlanar .samples (fun ch => .residual ch) p.samples p.cursor leftover 0 p.carry.residual
    return {
      p with
      carry := {
        p.carry with
        residual
        residualFill := d.stashFill p.carry.residualFill leftover } }

/-- A call: what is carried is topped up, whole frames go through, and the rest is carried on. -/
def processFrame (apm : σ) (carry : Carry channels α) (frame : Frame channels α) :
    Except Access (Progress σ α channels) :=
  if frame.numSamples = 0 then .ok { apm, carry, samples := frame.samples }
  else do
    let p ← topUp d frameSize frame.numSamples { apm, carry, samples := frame.samples }
    let p ← fullFrames d frameSize frame.numSamples (frame.numSamples + 1) p
    stash d frame.numSamples p

end Call

end Audio3A

/-! ### Runs -/

/-- The plugin: the APM and the carry of each direction. -/
structure WebRtcAudio3A (σ α : Type) (captureChannels renderChannels : ℕ) where
  apm : σ
  capture : Audio3A.Carry captureChannels α
  render : Audio3A.Carry renderChannels α

/-- The two calls of the plugin, each with a frame. -/
inductive Audio3ACall (α : Type) (captureChannels renderChannels : ℕ)
  | capture (frame : Audio3A.Frame captureChannels α)
  | render (frame : Audio3A.Frame renderChannels α)

/-- What a call did: the frames for the module, and for capture the buffer of the caller after it. -/
inductive Audio3AOutput (α : Type) (captureChannels renderChannels : ℕ)
  | captured (samples : List α) (given : List (Audio3A.Given captureChannels α))
  | rendered (given : List (Audio3A.Given renderChannels α))

namespace WebRtcAudio3A

open Audio3A

variable {σ α : Type} {captureChannels renderChannels frameSize : ℕ}

/-- The state after `init`. -/
def init (apm : σ) (frameSize : ℕ) (zero : α) : WebRtcAudio3A σ α captureChannels renderChannels where
  apm
  capture := .alloc captureChannels frameSize zero
  render := .alloc renderChannels frameSize zero

variable (x : Apm σ α captureChannels renderChannels frameSize)

/-- The APM as the capture path calls it. -/
def captureDirection : Direction σ α captureChannels where
  process apm frame :=
    let r := x.processStream apm frame
    (r.1, some r.2)
  stashFill _ leftover := leftover

/-- The APM as the render path calls it. -/
def renderDirection : Direction σ α renderChannels where
  process apm frame := (x.processReverseStream apm frame, none)
  stashFill fill leftover := fill + leftover

/-- `process_capture` -/
def processCapture (s : WebRtcAudio3A σ α captureChannels renderChannels)
    (frame : Frame captureChannels α) :
    Except Access (WebRtcAudio3A σ α captureChannels renderChannels
      × Audio3AOutput α captureChannels renderChannels) := do
  let p ← processFrame (captureDirection x) frameSize s.apm s.capture frame
  return ({ s with apm := p.apm, capture := p.carry }, .captured p.samples p.given)

/-- `process_render` -/
def processRender (s : WebRtcAudio3A σ α captureChannels renderChannels)
    (frame : Frame renderChannels α) :
    Except Access (WebRtcAudio3A σ α captureChannels renderChannels
      × Audio3AOutput α captureChannels renderChannels) := do
  let p ← processFrame (renderDirection x) frameSize s.apm s.render frame
  return ({ s with apm := p.apm, render := p.carry }, .rendered p.given)

/-- One call, with the frame that is given back. -/
def step (s : WebRtcAudio3A σ α captureChannels renderChannels) :
    Audio3ACall α captureChannels renderChannels →
      Except Access (WebRtcAudio3A σ α captureChannels renderChannels
        × Audio3AOutput α captureChannels renderChannels)
  | .capture frame => s.processCapture x frame
  | .render frame => s.processRender x frame

/-- The calls one after the other. -/
def run (s : WebRtcAudio3A σ α captureChannels renderChannels) :
    List (Audio3ACall α captureChannels renderChannels) →
      Except Access (WebRtcAudio3A σ α captureChannels renderChannels
        × List (Audio3AOutput α captureChannels renderChannels))
  | [] => .ok (s, [])
  | call :: calls => do
    let (s, output) ← s.step x call
    let (s, outputs) ← run s calls
    return (s, output :: outputs)

end WebRtcAudio3A

/-! ### Channels of a run -/

section Channels

variable {α : Type} {captureChannels renderChannels : ℕ}

namespace Audio3ACall

/-- The samples of a capture channel. -/
def captured (ch : Fin captureChannels) : Audio3ACall α captureChannels renderChannels → List α
  | .capture frame => channel frame.samples ch
  | .render _ => []

def rendered (ch : Fin renderChannels) : Audio3ACall α captureChannels renderChannels → List α
  | .capture _ => []
  | .render frame => channel frame.samples ch

/-- The number of samples is a multiple of the frame size, if it is a capture call. -/
def Aligned (frameSize : ℕ) : Audio3ACall α captureChannels renderChannels → Prop
  | .capture frame => frameSize ∣ frame.numSamples
  | .render _ => True

end Audio3ACall

namespace Audio3AOutput

/-- The frames passed to `ProcessStream`. -/
def streamed : Audio3AOutput α captureChannels renderChannels → List (Planar captureChannels α)
  | .captured _ given => given.map (·.1)
  | .rendered _ => []

/-- The frames passed to `ProcessReverseStream`. -/
def reversed : Audio3AOutput α captureChannels renderChannels → List (Planar renderChannels α)
  | .captured _ _ => []
  | .rendered given => given.map (·.1)

/-- The calls of the module. -/
def apmCalls : Audio3AOutput α captureChannels renderChannels →
    List (Audio3A.ApmCall captureChannels renderChannels α)
  | .captured _ given => given.map fun g => .processStream g.1
  | .rendered given => given.map fun g => .processReverseStream g.1

/-- What `ProcessStream` gave. -/
def processed : Audio3AOutput α captureChannels renderChannels → List (Planar captureChannels α)
  | .captured _ given => given.filterMap (·.2)
  | .rendered _ => []

/-- A channel of the caller's buffer after a capture call. -/
def returned (ch : Fin captureChannels) : Audio3AOutput α captureChannels renderChannels → List α
  | .captured samples _ => channel samples ch
  | .rendered _ => []

end Audio3AOutput

end Channels

end NimRtc
