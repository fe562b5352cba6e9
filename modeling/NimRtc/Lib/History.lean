import NimRtc.Lib.Machine

/-!
# What a machine has reported so far

Results that relate the state to all that was reported on the way to it.
-/

namespace NimRtc

namespace Machine

variable {σ ε ω : Type*} {M : Machine σ ε ω}

/-- What a guarded step keeps of the state and the reports so far, a guarded run keeps. -/
theorem exec_history {I : σ → List ω → Prop} {ok : σ → ε → Prop}
    (hstep : ∀ s out e, I s out → ok s e → I (M.step s e).1 (out ++ (M.step s e).2)) :
    ∀ (es : List ε) {s : σ} {out : List ω}, I s out → M.Meets ok s es →
      I (M.exec s es).1 (out ++ (M.exec s es).2)
  | [], s, out, hI, _ => by
    rw [exec_nil, List.append_nil]
    exact hI
  | e :: es, s, out, hI, hm => by
    rw [exec_cons, ← List.append_assoc]
    exact exec_history hstep es (hstep s out e hI hm.1) hm.2

end Machine

end NimRtc
