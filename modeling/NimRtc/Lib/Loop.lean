import Mathlib

/-!
# Loops

A loop goes round its body, which gives the next state or the result. It ends with a result if some
number of rounds gives it. To show that a loop does not end, give a condition that keeps it going.
-/

namespace NimRtc

namespace Loop

variable {σ ρ : Type*} (body : σ → σ ⊕ ρ)

/-- What a number of rounds gives. -/
def run : ℕ → σ → σ ⊕ ρ
  | 0, s => .inl s
  | n + 1, s =>
    match body s with
    | .inl s' => run n s'
    | .inr r => .inr r

def Ends (s : σ) (r : ρ) : Prop := ∃ n, run body n s = .inr r

variable {body} {s s' : σ} {r r' : ρ}

theorem Ends.here (h : body s = .inr r) : Ends body s r := ⟨1, by rw [run, h]⟩

theorem Ends.next (h : body s = .inl s') : Ends body s' r → Ends body s r
  | ⟨n, hn⟩ => by
    refine ⟨n + 1, ?_⟩
    rw [run, h]
    exact hn

theorem run_unique : ∀ {n m : ℕ} {s : σ}, run body n s = .inr r → run body m s = .inr r' → r = r'
  | n + 1, m + 1, s, h, h' => by
    rw [run] at h h'
    cases hbody : body s with
    | inl s' =>
      rw [hbody] at h h'
      exact run_unique h h'
    | inr r'' =>
      rw [hbody] at h h'
      exact (Sum.inr.inj h).symm.trans (Sum.inr.inj h')

/-- A loop ends with one result at most. -/
theorem Ends.unique : Ends body s r → Ends body s r' → r = r'
  | ⟨_, h⟩, ⟨_, h'⟩ => run_unique h h'

/-- A condition that each round keeps holds before the last one. -/
theorem Ends.inv {I : σ → Prop} (hI : ∀ s s', I s → body s = .inl s' → I s') (hs : I s) :
    Ends body s r → ∃ s', I s' ∧ body s' = .inr r := by
  rintro ⟨n, hn⟩
  induction n generalizing s with
  | zero => cases hn
  | succ n ih =>
    rw [run] at hn
    cases hbody : body s with
    | inl s' =>
      rw [hbody] at hn
      exact ih (hI s s' hs hbody) hn
    | inr r' =>
      rw [hbody] at hn
      exact ⟨s, hs, hbody.trans hn⟩

/-- A condition that each round keeps, and under which no round is the last, keeps the loop going. -/
theorem not_ends {I : σ → Prop} (hI : ∀ s, I s → ∃ s', body s = .inl s' ∧ I s') (hs : I s) (r : ρ) :
    ¬ Ends body s r := by
  rintro ⟨n, hn⟩
  induction n generalizing s with
  | zero => cases hn
  | succ n ih =>
    obtain ⟨s', hbody, hs'⟩ := hI s hs
    rw [run, hbody] at hn
    exact ih hs' hn

end Loop

end NimRtc
