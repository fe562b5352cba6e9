import NimRtc.Lib.Machine

/-!
# The map of reference frames

`engine_timeline.cpp`: the capture timestamps of the most recent video frames by their ids, with the
calls that record them. `send_video` records a frame that the sender accepts, and the frame callback of
the receiver one that arrives. A `std::map` is the list of its entries, in the order of the keys.
-/

namespace NimRtc

/-- How many frames are kept. -/
def kRefFrameMapCap : ℕ := 1024

namespace OrderedMap

variable {ν : Type*}

/-- `find` -/
def find (m : List (UInt64 × ν)) (k : UInt64) : Option ν := (m.find? fun e => e.1 = k).map (·.2)

/-- Of a key that is not there. -/
def emplace (k : UInt64) (v : ν) : List (UInt64 × ν) → List (UInt64 × ν)
  | [] => [(k, v)]
  | e :: m => if k < e.1 then (k, v) :: e :: m else e :: emplace k v m

/-- `it->second = v`. -/
def assign (k : UInt64) (v : ν) (m : List (UInt64 × ν)) : List (UInt64 × ν) :=
  m.map fun e => if e.1 = k then (k, v) else e

/-- `erase` -/
def erase (k : UInt64) (m : List (UInt64 × ν)) : List (UInt64 × ν) := m.filter fun e => e.1 ≠ k

end OrderedMap

open OrderedMap

/-- The map, and its ids in the order in which they came. -/
structure RefFrames where
  refFrameToTs : List (UInt64 × ℤ) := []
  refFrameOrder : List UInt64 := []
  deriving DecidableEq, Repr

namespace RefFrames

/-- The loop that evicts; the map and the order. -/
def evict (cap : ℕ) : List UInt64 → List (UInt64 × ℤ) → List (UInt64 × ℤ) × List UInt64
  | [], m => (m, [])
  | oldest :: order, m =>
    if cap < (oldest :: order).length then evict cap order (erase oldest m)
    else (m, oldest :: order)

/-- `record_video_ref_frame`: a new id may evict the oldest. -/
def recordVideoRefFrame (s : RefFrames) (refFrameId : UInt64) (captureTsUs : ℤ) : RefFrames :=
  match find s.refFrameToTs refFrameId with
  | some _ => { s with refFrameToTs := assign refFrameId captureTsUs s.refFrameToTs }
  | none =>
    let evicted := evict kRefFrameMapCap (s.refFrameOrder ++ [refFrameId])
      (emplace refFrameId captureTsUs s.refFrameToTs)
    { refFrameToTs := evicted.1, refFrameOrder := evicted.2 }

/-- `ref_frame_to_capture_ts` -/
def refFrameToCaptureTs (s : RefFrames) (refFrameId : UInt64) : Option ℤ :=
  find s.refFrameToTs refFrameId

/-- `capture_ts_to_ref_frame` -/
def captureTsToRefFrame (s : RefFrames) (captureTsUs : ℤ) : Option UInt64 :=
  (s.refFrameToTs.find? fun e => e.2 = captureTsUs).map (·.1)

/-- `data_message_frame_age_us` -/
def dataMessageFrameAgeUs (s : RefFrames) (refFrameId : UInt64) (nowUs : ℤ) : Option ℤ :=
  (s.refFrameToCaptureTs refFrameId).map (nowUs - ·)

/-! ### Calls -/

/-- The calls that record a frame. -/
inductive Call
  /-- `pushed` tells whether the sender accepts the frame. -/
  | sendVideo (pushed : Bool) (frameSeq : UInt32) (captureTsUs : ℤ)
  | frameReceived (frameSeq : UInt32) (captureTsUs : ℤ)
  | recordVideoRefFrame (refFrameId : UInt64) (captureTsUs : ℤ)
  deriving DecidableEq, Repr

/-- What a call records. -/
def Call.recorded : Call → List (UInt64 × ℤ)
  | .sendVideo pushed frameSeq captureTsUs =>
    if pushed then [(frameSeq.toUInt64, captureTsUs)] else []
  | .frameReceived frameSeq captureTsUs => [(frameSeq.toUInt64, captureTsUs)]
  | .recordVideoRefFrame refFrameId captureTsUs => [(refFrameId, captureTsUs)]

/-- The map along the calls; reported is what they record. -/
def machine : Machine RefFrames Call (UInt64 × ℤ) where
  step s call :=
    (call.recorded.foldl (fun s r => s.recordVideoRefFrame r.1 r.2) s, call.recorded)

end RefFrames

end NimRtc
