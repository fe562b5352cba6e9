import NimRtc.Lib.Moves

/-!
# Interleaved channels

A buffer in which the samples of all channels at one time stand together, and the loops that copy a
range of times to and from buffers with one channel each. Over the channels such a loop is a copy of a
range in each.
-/

namespace NimRtc

namespace Interleave

universe u v

variable {ε : Type u} {α : Type v} {channels : ℕ}

/-- One buffer per channel. -/
abbrev Planar (channels : ℕ) (α : Type v) := Fin channels → List α

theorem index_lt {total i : ℕ} (h : i < total) (ch : Fin channels) :
    i * channels + ch < total * channels := by
  calc i * channels + ch < i * channels + channels := Nat.add_lt_add_left ch.isLt _
    _ = (i + 1) * channels := (Nat.succ_mul i channels).symm
    _ ≤ total * channels := Nat.mul_le_mul_right _ h

/-- The samples of a channel. -/
def channel (samples : List α) (ch : Fin channels) : List α :=
  List.ofFn fun i : Fin (samples.length / channels) =>
    samples.get ⟨i * channels + ch, (index_lt i.isLt ch).trans_le (Nat.div_mul_le_self _ _)⟩

variable {samples : List α} {total : ℕ}

/-- The body is done for each channel in turn. -/
def forChannels (f : Fin channels → List α → Except ε (List α)) (dst : Planar channels α) :
    Except ε (Planar channels α) :=
  (List.finRange channels).foldlM (fun dst ch => do
    let d ← f ch (dst ch)
    return Function.update dst ch d) dst

/-- `dst[ch][off + i] = src[(start + i) * channels + ch]` -/
def toPlanar (readFault : ℕ → ε) (writeFault : Fin channels → ℕ → ε) (src : List α)
    (start n off : ℕ) (dst : Planar channels α) : Except ε (Planar channels α) :=
  forChannels (fun ch d => Checked.copyAll readFault (writeFault ch) src
    ((List.range n).map fun i => ⟨(start + i) * channels + ch, off + i⟩) d) dst

/-- `dst[(start + i) * channels + ch] = src[ch][off + i]` -/
def toInterleaved (readFault : Fin channels → ℕ → ε) (writeFault : ℕ → ε) (src : Planar channels α)
    (off n start : ℕ) (dst : List α) : Except ε (List α) :=
  (List.finRange channels).foldlM (fun dst ch => Checked.copyAll (readFault ch) writeFault (src ch)
    ((List.range n).map fun i => ⟨off + i, (start + i) * channels + ch⟩) dst) dst

end Interleave

end NimRtc
