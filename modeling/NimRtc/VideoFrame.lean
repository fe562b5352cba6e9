import NimRtc.Lib.Moves

/-!
# Video frames

The layouts of `frame.cpp` and its conversions between NV12 and I420, and `nv12_to_i420` of
`hw_backend_base.hpp`. Strides are 32-bit signed and sizes 64-bit numbers. The planes of a frame are in
one buffer, and each byte that a conversion reads or writes is checked. Null pointers are left out.
-/

namespace NimRtc

namespace VideoFrame

/-- `PixelFormat` -/
inductive PixelFormat
  | unknown
  | i420
  | nv12
  | yv12
  | bgra
  | rgba
  | rgb24
  deriving DecidableEq, Repr

/-- `VideoFrameLayout`: stride and offset of each plane. -/
structure VideoFrameLayout where
  format : PixelFormat := .unknown
  width : UInt32 := 0
  height : UInt32 := 0
  strides : Fin 3 → ℤ := fun _ => 0
  planeOffsets : Fin 3 → ℕ := fun _ => 0
  bufferSize : ℕ := 0
  numPlanes : ℕ := 0

/-! ### Layouts -/

/-- What `std::size_t` makes of a number. -/
def size (z : ℤ) : ℕ := (z % 2 ^ 64).toNat

/-- `align_up`: the result is read as a signed 32-bit number. -/
def alignUp (v a : UInt32) : ℤ := ((v + a - 1) &&& ~~~(a - 1)).toInt32.toInt

section Fill

variable (out : VideoFrameLayout) (w h : UInt32)

/-- `fill_planar_yuv_420_layout` -/
def fillPlanarYuv420Layout (align : UInt32) : VideoFrameLayout :=
  let halfW := (w + 1) / 2
  let halfH := (h + 1) / 2
  let stride0 := alignUp w align
  let stride1 := alignUp halfW align
  let offset1 := size (stride0 * h.toNat)
  let offset2 := size (offset1 + stride1 * halfH.toNat)
  { out with
    width := w
    height := h
    strides := ![stride0, stride1, stride1]
    planeOffsets := ![0, offset1, offset2]
    bufferSize := size (offset2 + stride1 * halfH.toNat)
    numPlanes := 3 }

/-- `fill_nv12_layout` -/
def fillNv12Layout (align : UInt32) : VideoFrameLayout :=
  let halfW := (w + 1) / 2
  let halfH := (h + 1) / 2
  let stride0 := alignUp w align
  let stride1 := alignUp (halfW * 2) align
  let offset1 := size (stride0 * h.toNat)
  { out with
    width := w
    height := h
    strides := ![stride0, stride1, 0]
    planeOffsets := ![0, offset1, 0]
    bufferSize := size (offset1 + stride1 * halfH.toNat)
    numPlanes := 2 }

/-- `fill_packed_layout` -/
def fillPackedLayout (bpp align : UInt32) : VideoFrameLayout :=
  let rowBytes := alignUp (w * (bpp / 8)) align
  { out with
    width := w
    height := h
    strides := ![rowBytes, 0, 0]
    planeOffsets := ![0, 0, 0]
    bufferSize := size (rowBytes * h.toNat)
    numPlanes := 1 }

end Fill

/-- `compute_layout_aligned` -/
def computeLayoutAligned (format : PixelFormat) (width height strideAlign : UInt32) :
    VideoFrameLayout :=
  let out : VideoFrameLayout := { format }
  if width = 0 ∨ height = 0 then out
  else
    let strideAlign := if strideAlign = 0 then 1 else strideAlign
    match format with
    | .i420 | .yv12 => fillPlanarYuv420Layout out width height strideAlign
    | .nv12 => fillNv12Layout out width height strideAlign
    | .bgra | .rgba => fillPackedLayout out width height 32 strideAlign
    | .rgb24 => fillPackedLayout out width height 24 strideAlign
    | .unknown => {}

def kDefaultStrideAlign : UInt32 := 16

/-- `compute_layout` -/
def computeLayout (format : PixelFormat) (width height : UInt32) : VideoFrameLayout :=
  computeLayoutAligned format width height kDefaultStrideAlign

/-! ### Conversions -/

/-- A pointer into a buffer, and the distance of its rows. -/
structure Plane where
  offset : ℕ
  stride : ℤ
  deriving DecidableEq, Repr

/-- `(p + j * stride)[i]`. Pointers wrap around. -/
def Plane.pos (p : Plane) (j i : ℕ) : ℕ := size (p.offset + j * p.stride + i)

/-- The `n`-th plane of the layout. -/
def VideoFrameLayout.plane (l : VideoFrameLayout) (n : Fin 3) : Plane :=
  ⟨l.planeOffsets n, l.strides n⟩

/-- A read or a write outside its buffer. -/
inductive Access
  | read (i : ℕ)
  | write (i : ℕ)
  deriving DecidableEq, Repr

section Convert

variable (width height : UInt32)

/-- The rows of the Y plane are copied. -/
def yMoves (y yOut : Plane) : List Move :=
  (List.range height.toNat).flatMap fun j =>
    (List.range width.toNat).map fun i => ⟨y.pos j i, yOut.pos j i⟩

/-- `convert_nv12_to_i420` -/
def convertNv12ToI420 (frame : List UInt8) (y uv : Plane) (out : List UInt8)
    (yOut uOut vOut : Plane) : Except Access (List UInt8) :=
  if width = 0 ∨ height = 0 then .ok out
  else
    let halfH := (height + 1) / 2
    let halfW := (width + 1) / 2
    Checked.copyAll .read .write frame
      (yMoves width height y yOut
        ++ (List.range halfH.toNat).flatMap fun j =>
          (List.range halfW.toNat).flatMap fun i =>
            [⟨uv.pos j (i * 2), uOut.pos j i⟩, ⟨uv.pos j (i * 2 + 1), vOut.pos j i⟩]) out

/-- `convert_i420_to_nv12` -/
def convertI420ToNv12 (frame : List UInt8) (y u v : Plane) (out : List UInt8) (yOut uvOut : Plane) :
    Except Access (List UInt8) :=
  if width = 0 ∨ height = 0 then .ok out
  else
    let halfH := (height + 1) / 2
    let halfW := (width + 1) / 2
    Checked.copyAll .read .write frame
      (yMoves width height y yOut
        ++ (List.range halfH.toNat).flatMap fun j =>
          (List.range halfW.toNat).flatMap fun i =>
            [⟨u.pos j i, uvOut.pos j (i * 2)⟩, ⟨v.pos j i, uvOut.pos j (i * 2 + 1)⟩]) out

/-- `hw_backend::nv12_to_i420`, with the places of the three planes in the output. -/
def nv12ToI420 (nv12 : List UInt8) (w h : UInt32) (out : List UInt8) (yOut uOut vOut : ℕ) :
    Except Access (List UInt8) :=
  let ySize := w.toNat * h.toNat
  let uvW := w.toNat / 2
  let uvH := h.toNat / 2
  Checked.copyAll .read .write nv12
    ((List.range ySize).map (fun k => ⟨k, yOut + k⟩)
      ++ (List.range uvH).flatMap fun row =>
        (List.range uvW).flatMap fun col =>
          [⟨ySize + (row * w.toNat + col * 2), uOut + (row * uvW + col)⟩,
            ⟨ySize + (row * w.toNat + col * 2 + 1), vOut + (row * uvW + col)⟩]) out

end Convert

/-! ### Sound layouts -/

/-- The bytes of a row. -/
def rowBytes (format : PixelFormat) (width : ℕ) : Fin 3 → ℕ :=
  match format with
  | .unknown => ![0, 0, 0]
  | .i420 | .yv12 => ![width, (width + 1) / 2, (width + 1) / 2]
  | .nv12 => ![width, (width + 1) / 2 * 2, 0]
  | .bgra | .rgba => ![width * 4, 0, 0]
  | .rgb24 => ![width * 3, 0, 0]

/-- Rows of each plane. -/
def planeHeight (format : PixelFormat) (height : ℕ) : Fin 3 → ℕ :=
  match format with
  | .unknown => ![0, 0, 0]
  | .i420 | .yv12 => ![height, (height + 1) / 2, (height + 1) / 2]
  | .nv12 => ![height, (height + 1) / 2, 0]
  | .bgra | .rgba | .rgb24 => ![height, 0, 0]

namespace VideoFrameLayout

/-- Bytes of the `n`-th plane. -/
def planeSize (l : VideoFrameLayout) (n : Fin 3) : ℤ :=
  l.strides n * planeHeight l.format l.height.toNat n

/-- Rows fit into the strides, the strides are aligned, and the planes have their places in the
buffer. -/
structure Sound (l : VideoFrameLayout) (strideAlign : ℕ) : Prop where
  stride_ge : ∀ n : Fin 3, n < l.numPlanes → (rowBytes l.format l.width.toNat n : ℤ) ≤ l.strides n
  stride_dvd : ∀ n : Fin 3, n < l.numPlanes → (strideAlign : ℤ) ∣ l.strides n
  disjoint : ∀ m n : Fin 3, m < l.numPlanes → n < l.numPlanes → m ≠ n →
    l.planeOffsets m + l.planeSize m ≤ l.planeOffsets n
      ∨ l.planeOffsets n + l.planeSize n ≤ l.planeOffsets m
  inside : ∀ n : Fin 3, n < l.numPlanes → l.planeOffsets n + l.planeSize n ≤ l.bufferSize

end VideoFrameLayout

/-- From NV12 to I420 and back, the visible samples are what they were. -/
def RoundTrips (width height : UInt32) (nv12 i420 : VideoFrameLayout) : Prop :=
  ∀ frame mid out : List UInt8, frame.length = nv12.bufferSize → mid.length = i420.bufferSize →
    out.length = nv12.bufferSize →
      ∃ mid' out',
        convertNv12ToI420 width height frame (nv12.plane 0) (nv12.plane 1) mid (i420.plane 0)
            (i420.plane 1) (i420.plane 2) = .ok mid'
          ∧ convertI420ToNv12 width height mid' (i420.plane 0) (i420.plane 1) (i420.plane 2) out
            (nv12.plane 0) (nv12.plane 1) = .ok out'
          ∧ ∀ n : Fin 3, ∀ j < planeHeight .nv12 height.toNat n,
            ∀ i < rowBytes .nv12 width.toNat n,
              ∃ b, frame[(nv12.plane n).pos j i]? = some b ∧ out'[(nv12.plane n).pos j i]? = some b

/-- The planes of a frame without padding, one after the other. -/
def tightNv12 (w h : ℕ) : Plane × Plane := (⟨0, w⟩, ⟨w * h, ((w + 1) / 2 * 2 : ℕ)⟩)

/-- The planes of an I420 buffer without padding. -/
def tightI420 (w h : ℕ) : Plane × Plane × Plane :=
  (⟨0, w⟩, ⟨w * h, ((w + 1) / 2 : ℕ)⟩, ⟨w * h + (w + 1) / 2 * ((h + 1) / 2), ((w + 1) / 2 : ℕ)⟩)

/-- The bytes of such a frame, in both formats. -/
def tightSize (w h : ℕ) : ℕ := w * h + (w + 1) / 2 * ((h + 1) / 2) * 2

/-- The conversions make the same of a frame without padding. -/
def ConversionsAgree (w h : UInt32) : Prop :=
  ∀ frame out : List UInt8, frame.length = tightSize w.toNat h.toNat →
    out.length = tightSize w.toNat h.toNat →
      nv12ToI420 frame w h out (tightI420 w.toNat h.toNat).1.offset
          (tightI420 w.toNat h.toNat).2.1.offset (tightI420 w.toNat h.toNat).2.2.offset
        = convertNv12ToI420 w h frame (tightNv12 w.toNat h.toNat).1 (tightNv12 w.toNat h.toNat).2 out
          (tightI420 w.toNat h.toNat).1 (tightI420 w.toNat h.toNat).2.1
          (tightI420 w.toNat h.toNat).2.2

end VideoFrame

end NimRtc
