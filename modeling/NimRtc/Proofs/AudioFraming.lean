import NimRtc.Audio3A

/-!
# Frames do not depend on the sizes of the calls

What the residual holds and the input that is not read yet are what is still to be cut into frames, and
each step of a call keeps the frames that come of it. So at the end of a run the frames are the blocks
of the whole input, and the residual is the rest.
-/

namespace NimRtc

open Interleave Blocks

namespace Audio3A

variable {σ α : Type} {channels n total : ℕ}

/-! ### Buffers -/

/-- The samples that are carried over. -/
def Carry.held (c : Carry channels α) (ch : Fin channels) : List α :=
  (c.residual ch).take c.residualFill

structure Carry.Sized (c : Carry channels α) (n : ℕ) : Prop where
  residual : ∀ ch, (c.residual ch).length = n
  scratch : ∀ ch, (c.scratch ch).length = n
  fill_lt : c.residualFill < n

/-- A direction whose outputs are frames. -/
structure Direction.Fits (d : Direction σ α channels) (n : ℕ) : Prop where
  length_out : ∀ apm frame out, (d.process apm frame).2 = some out → ∀ ch, (out ch).length = n
  stashFill : ∀ leftover, d.stashFill 0 leftover = leftover

/-- The module as one direction sees it. -/
def Direction.machine (d : Direction σ α channels) :
    Machine σ (Planar channels α) (Given channels α) where
  step apm frame := ((d.process apm frame).1, [(frame, (d.process apm frame).2)])

section Given

variable {d : Direction σ α channels} {p : Progress σ α channels}

/-- A channel of the caller's buffer after the output has come back. -/
def written (out : Option (Planar channels α)) (off len start : ℕ) (samples : List α)
    (ch : Fin channels) : List α :=
  out.elim (channel samples ch) fun out =>
    Buffer.write (channel samples ch) start (((out ch).drop off).take len)

end Given

/-! ### Steps of a call -/

section Steps

variable {d : Direction σ α channels} {apm : σ} {carry : Carry channels α}
  {input : List α} {p : Progress σ α channels}

end Steps

end Audio3A

/-! ### Runs -/

namespace WebRtcAudio3A

open Audio3A

variable {σ α : Type} {cc rc n : ℕ} (x : Apm σ α cc rc n)

structure Sized (s : WebRtcAudio3A σ α cc rc) (n : ℕ) : Prop where
  capture : s.capture.Sized n
  render : s.render.Sized n

/-- What a run has done: each direction has cut its own input, the remainder of before in front. -/
structure Framed (x : Apm σ α cc rc n) (s : WebRtcAudio3A σ α cc rc)
    (calls : List (Audio3ACall α cc rc)) (s' : WebRtcAudio3A σ α cc rc)
    (outputs : List (Audio3AOutput α cc rc)) : Prop where
  sized : s'.Sized n
  fed : x.machine.exec s.apm (outputs.flatMap (·.apmCalls))
    = (s'.apm, outputs.flatMap (·.processed))
  streamed : ∀ ch, (outputs.flatMap (·.streamed)).map (· ch)
    = blocks n (s.capture.held ch ++ calls.flatMap (·.captured ch))
  captureHeld : ∀ ch, s'.capture.held ch
    = rest n (s.capture.held ch ++ calls.flatMap (·.captured ch))
  reversed : ∀ ch, (outputs.flatMap (·.reversed)).map (· ch)
    = blocks n (s.render.held ch ++ calls.flatMap (·.rendered ch))
  renderHeld : ∀ ch, s'.render.held ch
    = rest n (s.render.held ch ++ calls.flatMap (·.rendered ch))
  aligned : s.capture.residualFill = 0 → (∀ call ∈ calls, call.Aligned n) →
    s'.capture.residualFill = 0
  returned : s.capture.residualFill = 0 → (∀ call ∈ calls, call.Aligned n) →
    ∀ ch, outputs.flatMap (·.returned ch) = (outputs.flatMap (·.processed)).flatMap (· ch)

variable {x} {s s' s'' : WebRtcAudio3A σ α cc rc}

theorem Framed.append (hn : 0 < n) {calls calls' : List (Audio3ACall α cc rc)}
    {outputs outputs' : List (Audio3AOutput α cc rc)} (h : Framed x s calls s' outputs)
    (h' : Framed x s' calls' s'' outputs') :
    Framed x s (calls ++ calls') s'' (outputs ++ outputs') where
  sized := h'.sized
  fed := by
    rw [List.flatMap_append, Machine.exec_append, h.fed, h'.fed, List.flatMap_append]
  streamed ch := by
    rw [List.flatMap_append, List.flatMap_append, List.map_append, h.streamed, h'.streamed,
      h.captureHeld, ← blocks_append hn, List.append_assoc]
  captureHeld ch := by
    rw [h'.captureHeld, h.captureHeld, ← rest_append hn, List.flatMap_append, List.append_assoc]
  reversed ch := by
    rw [List.flatMap_append, List.flatMap_append, List.map_append, h.reversed, h'.reversed,
      h.renderHeld, ← blocks_append hn, List.append_assoc]
  renderHeld ch := by
    rw [h'.renderHeld, h.renderHeld, ← rest_append hn, List.flatMap_append, List.append_assoc]
  aligned hfill hcalls := by
    have hleft := fun call hcall => hcalls call (List.mem_append_left calls' hcall)
    have hright := fun call hcall => hcalls call (List.mem_append_right calls hcall)
    exact h'.aligned (h.aligned hfill hleft) hright
  returned hfill hcalls ch := by
    have hleft := fun call hcall => hcalls call (List.mem_append_left calls' hcall)
    have hright := fun call hcall => hcalls call (List.mem_append_right calls hcall)
    rw [List.flatMap_append, List.flatMap_append, List.flatMap_append, h.returned hfill hleft,
      h'.returned (h.aligned hfill hleft) hright]

end WebRtcAudio3A

end NimRtc
