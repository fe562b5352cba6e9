import NimRtc.VideoFrame

/-!
# Frame buffers

`VideoFrameBuffer` of `frame.hpp` and `frame.cpp`, whose control block counts the buffers that share it.
The buffers of a program are numbered in the order in which they are made, and so are the blocks. That a
block is freed when nothing points to it is left to the shared pointer.
-/

namespace NimRtc.VideoFrame

/-- The control block that buffers share. -/
structure FrameBufferControl where
  refCount : UInt32 := 1
  capacity : ℕ := 0
  width : UInt32 := 0
  height : UInt32 := 0
  format : PixelFormat := .unknown
  captureTsUs : ℤ := 0
  frameSeq : UInt32 := 0
  /-- It is an `OwnedFrameControl`, and not one that the program brings along. -/
  owned : Bool := false

/-- A buffer: its layout, its bytes, and its control block if it has one. -/
structure VideoFrameBuffer where
  layout : VideoFrameLayout := {}
  storage : List UInt8 := []
  ctrl : Option ℕ := none

/-- `valid` -/
def VideoFrameBuffer.valid (b : VideoFrameBuffer) : Bool := b.ctrl.isSome

/-- The buffers, without those that are destroyed, and the control blocks. -/
structure Frames where
  buffers : List (Option VideoFrameBuffer) := []
  controls : List FrameBufferControl := []
  /-- The blocks that the constructor for external data took. -/
  taken : List ℕ := []

/-- What a program does with its buffers, each named by its place. -/
inductive BufferEvent
  | empty
  | allocate (layout : VideoFrameLayout)
  /-- The program makes a control block of its own. -/
  | control (ctrl : FrameBufferControl)
  | wrap (external : List UInt8) (layout : VideoFrameLayout) (ctrl : Option ℕ)
  | copy (other : ℕ)
  | copyAssign (this other : ℕ)
  | move (other : ℕ)
  | moveAssign (this other : ℕ)
  | reset (this : ℕ)
  | destroy (this : ℕ)
  | setCaptureTsUs (this : ℕ) (v : ℤ)
  | setFrameSeq (this : ℕ) (v : UInt32)

namespace Frames

/-- The buffer of a place, if it is there. -/
def buffer? (s : Frames) (i : ℕ) : Option VideoFrameBuffer := s.buffers[i]?.join

/-- A new buffer. -/
def push (s : Frames) (b : VideoFrameBuffer) : Frames := { s with buffers := s.buffers ++ [some b] }

/-- A place gets a buffer, or loses the one it has. -/
def setBuffer (s : Frames) (i : ℕ) (b : Option VideoFrameBuffer) : Frames :=
  { s with buffers := s.buffers.set i b }

/-- A change of a control block, if there is one. -/
def onControl (s : Frames) (ctrl : Option ℕ) (f : FrameBufferControl → FrameBufferControl) : Frames :=
  match ctrl with
  | none => s
  | some c => { s with controls := s.controls.modify c f }

/-- `ref_count.fetch_add(1)` -/
def fetchAdd (s : Frames) (ctrl : Option ℕ) : Frames :=
  s.onControl ctrl fun c => { c with refCount := c.refCount + 1 }

/-- `ref_count.fetch_sub(1)` -/
def fetchSub (s : Frames) (ctrl : Option ℕ) : Frames :=
  s.onControl ctrl fun c => { c with refCount := c.refCount - 1 }

/-- `allocate` -/
def allocate (s : Frames) (layout : VideoFrameLayout) : Frames :=
  if layout.bufferSize = 0 then s.push { layout }
  else
    let ctrl : FrameBufferControl :=
      { capacity := layout.bufferSize
        width := layout.width
        height := layout.height
        format := layout.format
        owned := true }
    { s with controls := s.controls ++ [ctrl] }.push
      { layout, storage := List.replicate layout.bufferSize 0, ctrl := some s.controls.length }

/-- The bytes are copied. The block is taken as it is. -/
def wrap (s : Frames) (external : List UInt8) (layout : VideoFrameLayout) (ctrl : Option ℕ) : Frames :=
  if external = [] then s.push { layout }
  else
    match ctrl with
    | none => s.push { layout, storage := external }
    | some c =>
      if c < s.controls.length then
        { s with taken := s.taken ++ [c] }.push { layout, storage := external, ctrl := some c }
      else s

/-- The copy constructor. -/
def copy (s : Frames) (other : ℕ) : Frames :=
  match s.buffer? other with
  | none => s
  | some b => (s.push b).fetchAdd b.ctrl

/-- The copy assignment. -/
def copyAssign (s : Frames) (this other : ℕ) : Frames :=
  if this = other then s
  else
    match s.buffer? this, s.buffer? other with
    | some b, some b' => ((s.fetchSub b.ctrl).setBuffer this (some b')).fetchAdd b'.ctrl
    | _, _ => s

/-- The move constructor. -/
def move (s : Frames) (other : ℕ) : Frames :=
  match s.buffer? other with
  | none => s
  | some b => (s.setBuffer other (some {})).push b

/-- The move assignment. -/
def moveAssign (s : Frames) (this other : ℕ) : Frames :=
  if this = other then s
  else
    match s.buffer? this, s.buffer? other with
    | some b, some b' =>
      ((s.fetchSub b.ctrl).setBuffer this (some b')).setBuffer other (some {})
    | _, _ => s

/-- What is put in the place of a buffer that drops its reference. -/
def drop (s : Frames) (this : ℕ) (b' : Option VideoFrameBuffer) : Frames :=
  match s.buffer? this with
  | none => s
  | some b => (s.fetchSub b.ctrl).setBuffer this b'

/-- `reset` -/
def reset (s : Frames) (this : ℕ) : Frames := s.drop this (some {})

/-- The destructor. -/
def destroy (s : Frames) (this : ℕ) : Frames := s.drop this none

def setCaptureTsUs (s : Frames) (this : ℕ) (v : ℤ) : Frames :=
  s.onControl ((s.buffer? this).bind (·.ctrl)) fun c => { c with captureTsUs := v }

def setFrameSeq (s : Frames) (this : ℕ) (v : UInt32) : Frames :=
  s.onControl ((s.buffer? this).bind (·.ctrl)) fun c => { c with frameSeq := v }

/-- A block that a program brings along counts from one, like every other. -/
def control (s : Frames) (ctrl : FrameBufferControl) : Frames :=
  { s with controls := s.controls ++ [{ ctrl with refCount := 1, owned := false }] }

/-- One event. -/
def step (s : Frames) : BufferEvent → Frames
  | .empty => s.push {}
  | .allocate layout => s.allocate layout
  | .control ctrl => s.control ctrl
  | .wrap external layout ctrl => s.wrap external layout ctrl
  | .copy other => s.copy other
  | .copyAssign this other => s.copyAssign this other
  | .move other => s.move other
  | .moveAssign this other => s.moveAssign this other
  | .reset this => s.reset this
  | .destroy this => s.destroy this
  | .setCaptureTsUs this v => s.setCaptureTsUs this v
  | .setFrameSeq this v => s.setFrameSeq this v

/-- The buffers after some events. -/
def run (es : List BufferEvent) : Frames := es.foldl step {}

/-- The blocks that the buffers point to. -/
def pointers (s : Frames) : List (Option ℕ) := s.buffers.map (·.bind (·.ctrl))

/-- How many buffers share a block. -/
def holders (s : Frames) (c : ℕ) : ℕ := s.pointers.count (some c)

end Frames

end NimRtc.VideoFrame
