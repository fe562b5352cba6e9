import NimRtc.Lib.Machine

/-!
# Frames in a stream of bytes

A stream is cut into pieces that have nothing to do with its frames. What is read of it is its frames
in order, each handed to a machine, and the rest is kept for the next piece. If reading a frame does
not depend on what follows it, then neither does the result depend on the pieces.
-/

namespace NimRtc

namespace Framing

variable {α φ σ ω : Type*} (next : List α → Option (φ × List α))

/-- A frame takes something, and is the same whatever follows it. -/
structure Incremental : Prop where
  shorter : ∀ {x rest : List α} {f : φ}, next x = some (f, rest) → rest.length < x.length
  append : ∀ {x rest : List α} {f : φ}, next x = some (f, rest) →
    ∀ more, next (x ++ more) = some (f, rest ++ more)

/-- Reads frames as long as there is a whole one, and hands each to the machine. -/
def loop (M : Machine σ φ ω) : ℕ → σ → List α → (σ × List ω) × List α
  | 0, s, x => ((s, []), x)
  | n + 1, s, x =>
    match next x with
    | none => ((s, []), x)
    | some (f, rest) =>
      let r := M.step s f
      let q := loop M n r.1 rest
      ((q.1.1, r.2 ++ q.1.2), q.2)

/-- `x` is the frames and what is left. -/
inductive Splits : List α → List φ → List α → Prop
  | stop {x : List α} (h : next x = none) : Splits x [] x
  | frame {x rest left : List α} {f : φ} {fs : List φ} (h : next x = some (f, rest))
      (hrest : Splits rest fs left) : Splits x (f :: fs) left

variable {next} {x rest left more : List α} {f : φ} {fs gs : List φ}

theorem splits_total (hnext : Incremental next) (x : List α) : ∃ fs left, Splits next x fs left := by
  rcases h : next x with _ | ⟨f, rest⟩
  · exact ⟨[], x, .stop h⟩
  · have hlt := hnext.shorter h
    obtain ⟨fs, left, hrest⟩ := splits_total hnext rest
    exact ⟨f :: fs, left, .frame h hrest⟩
  termination_by x.length

/-- The loop runs the machine over the frames. -/
theorem loop_of_splits (hnext : Incremental next) (M : Machine σ φ ω) (h : Splits next x fs left) :
    ∀ {n : ℕ} (s : σ), x.length ≤ n → loop next M n s x = (M.exec s fs, left) := by
  induction h with
  | stop h =>
    intro n s _
    cases n with
    | zero => rfl
    | succ n => rw [loop, h, Machine.exec_nil]
  | frame h hrest ih =>
    intro n s hn
    have hlt := hnext.shorter h
    cases n with
    | zero => omega
    | succ n =>
      rw [loop, h]
      simp only [ih _ (show _ ≤ n by omega), Machine.exec_cons]

/-- More bytes only add to what is left. -/
theorem Splits.append (hnext : Incremental next) (h : Splits next x fs left)
    (hmore : Splits next (left ++ more) gs rest) : Splits next (x ++ more) (fs ++ gs) rest := by
  induction h with
  | stop h => exact hmore
  | frame h hrest ih => exact .frame (hnext.append h more) (ih hmore)

end Framing

end NimRtc
