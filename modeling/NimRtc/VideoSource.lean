import NimRtc.BidiStream
import NimRtc.FrameBuffers
import NimRtc.Lib.Machine
import NimRtc.Lib.Moves

/-!
# A source of test pictures, and a sink

`render_pattern` and `MemoryVideoSource` of `video_source.cpp`, without its thread and the log, and
`PinnedSink` of `video_sink.cpp`. Each byte that a pattern writes is checked. Places in a plane are
32-bit numbers, as in the source.
-/

namespace NimRtc

namespace VideoSource

open VideoFrame

/-- A layout has three planes, numbered from zero. -/
theorem planes_neZero : NeZero 3 := ⟨three_ne_zero⟩

attribute [local instance] planes_neZero

/-- `Pattern` -/
inductive Pattern
  | solidColor
  | colorBars
  | gradient
  | frameCount

/-- `SourceConfig` -/
structure SourceConfig where
  width : UInt32 := 640
  height : UInt32 := 480
  format : PixelFormat := .i420
  fps : UInt32 := 30
  pattern : Pattern := .colorBars
  solidY : UInt8 := 128
  solidU : UInt8 := 128
  solidV : UInt8 := 128
  startCaptureTsUs : ℤ := 0
  startFrameSeq : UInt32 := 0

/-- `VideoFrameInfo` -/
structure VideoFrameInfo where
  captureTsUs : ℤ := 0
  frameSeq : UInt32 := 0
  rtpTimestamp : UInt32 := 0
  deriving DecidableEq, Repr

/-! ### Patterns -/

/-- The same value `n` times, from `pos` on. -/
def memset (pos : ℕ) (value : UInt8) (n : UInt32) : List (Put UInt8) :=
  (List.range n.toNat).map fun k => ⟨pos + k, value⟩

/-- `j * w + i` -/
def index (w : UInt32) (j i : ℕ) : ℕ := (UInt32.ofNat j * w + UInt32.ofNat i).toNat

/-- `p[j * w + i] = value`, row by row. -/
def fill (pos : ℕ) (w h : UInt32) (value : ℕ → ℕ → UInt8) : List (Put UInt8) :=
  (List.range h.toNat).flatMap fun j =>
    (List.range w.toNat).map fun i => ⟨pos + index w j i, value j i⟩

section Render

variable (cfg : SourceConfig) (y u v : ℕ)

/-- `render_solid` -/
def renderSolid : List (Put UInt8) :=
  memset y cfg.solidY (cfg.width * cfg.height)
    ++ memset u cfg.solidU (cfg.width / 2 * (cfg.height / 2))
    ++ memset v cfg.solidV (cfg.width / 2 * (cfg.height / 2))

def kY : Fin 7 → UInt8 := ![235, 219, 188, 173, 145, 113, 16]

def kU : Fin 7 → UInt8 := ![128, 0, 0, 0, 255, 255, 128]

def kV : Fin 7 → UInt8 := ![128, 0, 255, 0, 255, 0, 128]

/-- The bar of a column, in a plane of this width. -/
def bar (w : UInt32) (i : ℕ) : Fin 7 := ⟨min 6 (i / max 1 (w.toNat / 7)), by omega⟩

/-- The two chroma planes of the bars. -/
def renderBarsUv : List (Put UInt8) :=
  let halfW := cfg.width / 2
  (List.range (cfg.height / 2).toNat).flatMap fun j =>
    (List.range halfW.toNat).flatMap fun i =>
      [⟨u + index halfW j i, kU (bar halfW i)⟩, ⟨v + index halfW j i, kV (bar halfW i)⟩]

/-- The luma of column `i` of the bars. -/
def barsY (i : ℕ) : UInt8 := kY (bar cfg.width i)

/-- The luma plane of the bars. -/
def renderBarsY : List (Put UInt8) := fill y cfg.width cfg.height fun _ i => barsY cfg i

/-- `(i * 255) / std::max(1, n - 1)` -/
def ramp (n : UInt32) (i : ℕ) : UInt8 := (UInt32.ofNat i * 255 / max 1 (n - 1)).toUInt8

/-- `render_gradient` -/
def renderGradient : List (Put UInt8) :=
  let halfW := cfg.width / 2
  let halfH := cfg.height / 2
  fill y cfg.width cfg.height (fun _ i => ramp cfg.width i)
    ++ (List.range halfH.toNat).flatMap fun j =>
      (List.range halfW.toNat).flatMap fun i =>
        [⟨u + index halfW j i, ramp halfW i⟩, ⟨v + index halfW j i, ramp halfH j⟩]

/-- The digits, eight rows of eight pixels. -/
def kGlyph : Fin 10 → List UInt8 :=
  ![[0x3E, 0x63, 0x73, 0x7B, 0x6F, 0x67, 0x3E, 0x00],
    [0x18, 0x38, 0x18, 0x18, 0x18, 0x18, 0x7E, 0x00],
    [0x3E, 0x63, 0x03, 0x0E, 0x1C, 0x38, 0x7F, 0x00],
    [0x3E, 0x63, 0x03, 0x1C, 0x03, 0x63, 0x3E, 0x00],
    [0x06, 0x0E, 0x1E, 0x36, 0x66, 0x7F, 0x06, 0x00],
    [0x7F, 0x7F, 0x60, 0x7E, 0x03, 0x63, 0x3E, 0x00],
    [0x1C, 0x30, 0x60, 0x7E, 0x63, 0x63, 0x3E, 0x00],
    [0x7F, 0x63, 0x03, 0x06, 0x0C, 0x18, 0x18, 0x00],
    [0x3E, 0x63, 0x63, 0x3E, 0x63, 0x63, 0x3E, 0x00],
    [0x3E, 0x63, 0x63, 0x3F, 0x03, 0x06, 0x38, 0x00]]

/-- One digit. Each of its pixels is a block of two rows and two columns. -/
def overlayDigit (d : Fin 10) (x0 : ℕ) (w h : UInt32) : List (Put UInt8) :=
  (kGlyph d).zipIdx.flatMap fun row =>
    (List.range 8).flatMap fun x =>
      if row.1 &&& (0x80 >>> UInt8.ofNat x) = 0 then []
      else
        (List.range 2).flatMap fun yy =>
          (List.range 2).flatMap fun xx =>
            let px := x0 + x * 2 + xx
            let py := row.2 * 2 + yy
            if px < w.toNat ∧ py < h.toNat then [⟨y + index w py px, 235⟩] else []

/-- The digits from this one on, the last one of the number first. -/
def overlayDigits (w h : UInt32) : ℕ → UInt32 → List (Put UInt8)
  | 0, _ => []
  | digit + 1, frameSeq =>
    overlayDigit y ⟨frameSeq.toNat % 10, Nat.mod_lt _ (by decide)⟩ ((3 - digit) * 8) w h
      ++ overlayDigits w h digit (frameSeq / 10)

/-- `overlay_frame_count`: nothing where the digits have no room. -/
def overlayFrameCount (frameSeq w h : UInt32) : List (Put UInt8) :=
  if w.toNat < 8 * 4 ∨ h.toNat < 8 then [] else overlayDigits y w h 4 frameSeq

/-- What a pattern writes. -/
def patternPuts : List (Put UInt8) :=
  match cfg.pattern with
  | .solidColor => renderSolid cfg y u v
  | .colorBars => renderBarsY cfg y ++ renderBarsUv cfg u v
  | .gradient => renderGradient cfg y u v
  | .frameCount =>
    renderGradient cfg y u v ++ overlayFrameCount y cfg.startFrameSeq cfg.width cfg.height

end Render

/-- What goes wrong with a frame. -/
inductive RenderError
  | invalidArgument (what : String)
  | access (a : Access)
  deriving DecidableEq, Repr

/-- `render_pattern` -/
def renderPattern (cfg : SourceConfig) (buffer : VideoFrameBuffer) :
    Except RenderError (VideoFrameBuffer × VideoFrameInfo) :=
  if !buffer.valid then .error (.invalidArgument "render_pattern: buffer is empty")
  else if buffer.layout.format ≠ cfg.format then
    .error (.invalidArgument "render_pattern: buffer format mismatch")
  else if buffer.layout.width ≠ cfg.width ∨ buffer.layout.height ≠ cfg.height then
    .error (.invalidArgument "render_pattern: buffer dimensions mismatch")
  else if buffer.storage = [] ∧ ∃ n, buffer.layout.planeOffsets n = 0 then
    .error (.invalidArgument "render_pattern: plane pointers null")
  else do
    let offset := buffer.layout.planeOffsets
    let storage ← Checked.putAll (fun i => .access (.write i))
      (patternPuts cfg (offset 0) (offset 1) (offset 2)) buffer.storage
    return ({ buffer with storage },
      { captureTsUs := cfg.startCaptureTsUs
        frameSeq := cfg.startFrameSeq
        rtpTimestamp := cfg.startFrameSeq * (90000 / max 1 cfg.fps) })

/-! ### The source -/

/-- The constructor for a layout, with a control block for the buffer alone. -/
def newBuffer (layout : VideoFrameLayout) : VideoFrameBuffer :=
  if layout.bufferSize = 0 then { layout }
  else { layout, storage := List.replicate layout.bufferSize 0, ctrl := some 0 }

/-- `MemoryVideoSource` -/
structure MemoryVideoSource where
  cfg : SourceConfig
  layout : VideoFrameLayout
  framesProduced : ℕ := 0
  framesDropped : ℕ := 0

/-- A frame and what is said about it. -/
abbrev Frame := VideoFrameBuffer × VideoFrameInfo

namespace MemoryVideoSource

/-- A source with nothing produced. -/
def create (cfg : SourceConfig) : MemoryVideoSource :=
  { cfg, layout := computeLayout cfg.format cfg.width cfg.height }

/-- `do_produce`, with the frame that it hands to the callback. -/
def doProduce (s : MemoryVideoSource) : MemoryVideoSource × List Frame :=
  match renderPattern s.cfg (newBuffer s.layout) with
  | .error _ => ({ s with framesDropped := s.framesDropped + 1 }, [])
  | .ok frame =>
    ({ s with
        framesProduced := s.framesProduced + 1
        cfg := { s.cfg with startFrameSeq := s.cfg.startFrameSeq + 1 } }, [frame])

/-- `set_pattern` -/
def setPattern (s : MemoryVideoSource) (p : Pattern) : MemoryVideoSource :=
  { s with cfg := { s.cfg with pattern := p } }

/-- What can happen to a source. -/
inductive Event
  | produce
  | setPattern (p : Pattern)

/-- One event, and the frame it produces. -/
def step (s : MemoryVideoSource) : Event → MemoryVideoSource × List Frame
  | .produce => s.doProduce
  | .setPattern p => (s.setPattern p, [])

/-- The source under a list of events. -/
def machine : Machine MemoryVideoSource Event Frame := ⟨step⟩

end MemoryVideoSource

/-! ### The sink -/

/-- The sink of the pinned pair: it accepts a frame that was captured after the last one. -/
structure PinnedSink where
  opened : Bool := false
  lastCaptureTsUs : ℤ := -1
  framesRendered : ℕ := 0
  renderErrors : ℕ := 0
  deriving DecidableEq, Repr

namespace PinnedSink

/-- `open`: the sink forgets the last frame. -/
def «open» (s : PinnedSink) : PinnedSink := { s with opened := true, lastCaptureTsUs := -1 }

/-- `render` -/
def render (s : PinnedSink) (captureTsUs : ℤ) : PinnedSink × UInt32 :=
  if !s.opened then (s, kErrNotReady)
  else if 0 ≤ s.lastCaptureTsUs ∧ captureTsUs ≤ s.lastCaptureTsUs then
    ({ s with renderErrors := s.renderErrors + 1 }, kErrCorrupt)
  else
    ({ s with lastCaptureTsUs := captureTsUs, framesRendered := s.framesRendered + 1 }, kOk)

/-- The frames that it renders, one after the other. -/
def renderAll (s : PinnedSink) (frames : List Frame) : PinnedSink :=
  frames.foldl (fun s frame => (s.render frame.2.captureTsUs).1) s

end PinnedSink

end VideoSource

end NimRtc
