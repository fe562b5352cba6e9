import NimRtc.Proofs.PatternWrites

/-!
# Frames of a source, into a sink

The frames of a run carry consecutive sequence numbers, and all of them the capture time that the source
started with. `PinnedSink` wants that time to grow, so it renders the first frame and counts the others
as errors, unless the time is before zero (`source_frames_pinned`).
-/

namespace NimRtc

namespace VideoSource

open VideoFrame

/-! ### A run of the source -/

namespace MemoryVideoSource

/-- The number of frames that a run asks for. -/
def produces : List Event → ℕ
  | [] => 0
  | .produce :: es => produces es + 1
  | .setPattern _ :: es => produces es

/-- What comes with the frame `k` of a run. -/
def infoAt (cfg : SourceConfig) (k : ℕ) : VideoFrameInfo where
  captureTsUs := cfg.startCaptureTsUs
  frameSeq := cfg.startFrameSeq + UInt32.ofNat k
  rtpTimestamp := (cfg.startFrameSeq + UInt32.ofNat k) * (90000 / max 1 cfg.fps)

theorem infoAt_zero (cfg : SourceConfig) : infoAt cfg 0 = frameInfo cfg := by
  unfold infoAt frameInfo
  rw [show UInt32.ofNat 0 = 0 from rfl, UInt32.add_zero]

theorem infoAt_succ (cfg : SourceConfig) (k : ℕ) :
    infoAt { cfg with startFrameSeq := cfg.startFrameSeq + 1 } k = infoAt cfg (k + 1) := by
  have hseq : cfg.startFrameSeq + 1 + UInt32.ofNat k = cfg.startFrameSeq + UInt32.ofNat (k + 1) := by
    rw [UInt32.ofNat_add, UInt32.add_assoc, UInt32.add_comm 1]
    rfl
  unfold infoAt
  simp only [hseq]

variable {s : MemoryVideoSource}

theorem doProduce_ok (hlayout : s.layout = targetLayout s.cfg kDefaultStrideAlign)
    (h : ¬NoPicture s.cfg) (hfit : Fits s.cfg kDefaultStrideAlign) :
    ∃ b, s.doProduce
      = ({ s with
            framesProduced := s.framesProduced + 1
            cfg := { s.cfg with startFrameSeq := s.cfg.startFrameSeq + 1 } },
          [(b, frameInfo s.cfg)]) := by
  obtain ⟨storage, hrender, -⟩ := renderPattern_new s.cfg kDefaultStrideAlign h hfit
  refine ⟨{ layout := targetLayout s.cfg kDefaultStrideAlign, storage, ctrl := some 0 }, ?_⟩
  unfold doProduce
  rw [hlayout, hrender]

theorem doProduce_dropped (hlayout : s.layout = targetLayout s.cfg kDefaultStrideAlign)
    (h : NoPicture s.cfg) :
    s.doProduce = ({ s with framesDropped := s.framesDropped + 1 }, []) := by
  unfold doProduce
  rw [hlayout, renderPattern_empty s.cfg kDefaultStrideAlign h]

theorem run_frames : ∀ (es : List Event) {s : MemoryVideoSource},
    s.layout = targetLayout s.cfg kDefaultStrideAlign → ¬NoPicture s.cfg →
    Fits s.cfg kDefaultStrideAlign →
    (machine.exec s es).2.map (·.2) = (List.range (produces es)).map (infoAt s.cfg)
      ∧ (machine.exec s es).1.framesProduced = s.framesProduced + produces es
      ∧ (machine.exec s es).1.framesDropped = s.framesDropped
  | [], s, _, _, _ => ⟨rfl, rfl, rfl⟩
  | .produce :: es, s, hlayout, h, hfit => by
    obtain ⟨b, hstep⟩ := doProduce_ok hlayout h hfit
    have hmachine : machine.step s .produce = s.doProduce := rfl
    obtain ⟨hframes, hproduced, hdropped⟩ := run_frames es
      (s := { s with
        framesProduced := s.framesProduced + 1
        cfg := { s.cfg with startFrameSeq := s.cfg.startFrameSeq + 1 } }) hlayout h hfit
    rw [Machine.exec_cons, hmachine, hstep, produces]
    refine ⟨?_, ?_, hdropped⟩
    · rw [List.range_succ_eq_map, List.map_cons, List.map_map, infoAt_zero, List.map_append,
        hframes]
      exact congrArg (frameInfo s.cfg :: ·) (List.map_congr_left fun k _ => infoAt_succ s.cfg k)
    · rw [hproduced]
      dsimp only
      omega
  | .setPattern p :: es, s, hlayout, h, hfit => by
    obtain ⟨hframes, hproduced, hdropped⟩ := run_frames es (s := s.setPattern p) hlayout h hfit
    exact ⟨hframes, hproduced, hdropped⟩

theorem run_dropped : ∀ (es : List Event) {s : MemoryVideoSource},
    s.layout = targetLayout s.cfg kDefaultStrideAlign → NoPicture s.cfg →
    (machine.exec s es).2 = []
      ∧ (machine.exec s es).1.framesProduced = s.framesProduced
      ∧ (machine.exec s es).1.framesDropped = s.framesDropped + produces es
  | [], s, _, _ => ⟨rfl, rfl, rfl⟩
  | .produce :: es, s, hlayout, h => by
    have hmachine : machine.step s .produce = s.doProduce := rfl
    obtain ⟨hframes, hproduced, hdropped⟩ := run_dropped es
      (s := { s with framesDropped := s.framesDropped + 1 }) hlayout h
    rw [Machine.exec_cons, hmachine, doProduce_dropped hlayout h, produces]
    refine ⟨hframes, hproduced, ?_⟩
    rw [hdropped]
    dsimp only
    omega
  | .setPattern p :: es, s, hlayout, h => run_dropped es (s := s.setPattern p) hlayout h

end MemoryVideoSource

/-! ### Frames of one time -/

namespace PinnedSink

variable {s : PinnedSink} {t : ℤ}

theorem render_repeated (hopened : s.opened = true) (hlast : s.lastCaptureTsUs = t) (ht : 0 ≤ t) :
    (s.render t).1 = { s with renderErrors := s.renderErrors + 1 } := by
  unfold render
  rw [hopened, if_neg (by decide), if_pos ⟨hlast ▸ ht, hlast.ge⟩]

theorem render_early (hopened : s.opened = true) (hlast : s.lastCaptureTsUs < 0) :
    (s.render t).1 = { s with lastCaptureTsUs := t, framesRendered := s.framesRendered + 1 } := by
  unfold render
  rw [hopened, if_neg (by decide), if_neg fun h => absurd h.1 hlast.not_ge]

theorem renderAll_repeated (ht : 0 ≤ t) : ∀ (frames : List Frame) {s : PinnedSink},
    s.opened = true → s.lastCaptureTsUs = t → (∀ f ∈ frames, f.2.captureTsUs = t) →
    s.renderAll frames = { s with renderErrors := s.renderErrors + frames.length }
  | [], s, _, _, _ => rfl
  | f :: frames, s, hopened, hlast, hall => by
    rw [List.forall_mem_cons] at hall
    have hrest := renderAll_repeated ht frames
      (s := { s with renderErrors := s.renderErrors + 1 }) hopened hlast hall.2
    unfold renderAll at hrest ⊢
    rw [List.foldl_cons, hall.1, render_repeated hopened hlast ht, hrest, List.length_cons,
      Nat.add_right_comm, ← Nat.add_assoc]

theorem renderAll_early (ht : t < 0) : ∀ (frames : List Frame) {s : PinnedSink},
    s.opened = true → s.lastCaptureTsUs < 0 → (∀ f ∈ frames, f.2.captureTsUs = t) →
    (s.renderAll frames).framesRendered = s.framesRendered + frames.length
      ∧ (s.renderAll frames).renderErrors = s.renderErrors
  | [], s, _, _, _ => ⟨rfl, rfl⟩
  | f :: frames, s, hopened, hlast, hall => by
    rw [List.forall_mem_cons] at hall
    obtain ⟨hrendered, herrors⟩ := renderAll_early ht frames
      (s := { s with lastCaptureTsUs := t, framesRendered := s.framesRendered + 1 })
      hopened ht hall.2
    unfold renderAll at hrendered herrors ⊢
    rw [List.foldl_cons, hall.1, render_early hopened hlast, hrendered, herrors, List.length_cons]
    exact ⟨by dsimp only; omega, rfl⟩

/-- After `open`, the first frame is rendered. -/
theorem renderAll_open (s : PinnedSink) {frames : List Frame}
    (hall : ∀ f ∈ frames, f.2.captureTsUs = t) :
    (s.open.renderAll frames).framesRendered
        = s.framesRendered + (if t < 0 then frames.length else min 1 frames.length)
      ∧ (s.open.renderAll frames).renderErrors
        = s.renderErrors + (if t < 0 then 0 else frames.length - 1) := by
  by_cases ht : t < 0
  · rw [if_pos ht, if_pos ht]
    exact renderAll_early ht frames (s := s.open) rfl (show (-1 : ℤ) < 0 by decide) hall
  · rw [if_neg ht, if_neg ht]
    cases frames with
    | nil => exact ⟨rfl, rfl⟩
    | cons f frames =>
      rw [List.forall_mem_cons] at hall
      have hfirst : (s.open.render t).1
          = { s.open with lastCaptureTsUs := t, framesRendered := s.open.framesRendered + 1 } :=
        render_early rfl (show (-1 : ℤ) < 0 by decide)
      have hrest := renderAll_repeated (not_lt.1 ht) frames
        (s := { s.open with lastCaptureTsUs := t, framesRendered := s.open.framesRendered + 1 })
        rfl rfl hall.2
      unfold renderAll at hrest ⊢
      rw [List.foldl_cons, hall.1, hfirst, hrest, List.length_cons]
      refine ⟨?_, rfl⟩
      dsimp only
      rw [min_eq_left (by omega)]
      rfl

end PinnedSink

open MemoryVideoSource

/-- A run of the source, and a sink that is opened and gets its frames. -/
theorem source_frames_pinned (cfg : SourceConfig) (es : List Event) (sink : PinnedSink)
    (hfit : NoPicture cfg ∨ Fits cfg kDefaultStrideAlign) :
    let frames := (machine.exec (create cfg) es).2
    let n := if NoPicture cfg then 0 else produces es
    frames.map (·.2) = (List.range n).map (infoAt cfg)
      ∧ (machine.exec (create cfg) es).1.framesProduced = n
      ∧ (machine.exec (create cfg) es).1.framesDropped = produces es - n
      ∧ (sink.open.renderAll frames).framesRendered
        = sink.framesRendered + (if cfg.startCaptureTsUs < 0 then n else min 1 n)
      ∧ (sink.open.renderAll frames).renderErrors
        = sink.renderErrors + (if cfg.startCaptureTsUs < 0 then 0 else n - 1) := by
  dsimp only
  by_cases h : NoPicture cfg
  · obtain ⟨hframes, hproduced, hdropped⟩ := run_dropped es (s := create cfg) rfl h
    rw [if_pos h, hframes, hproduced, hdropped]
    refine ⟨rfl, rfl, Nat.zero_add _, ?_, ?_⟩
    · split_ifs <;> rfl
    · split_ifs <;> rfl
  · obtain ⟨hframes, hproduced, hdropped⟩ :=
      run_frames es (s := create cfg) rfl h (hfit.resolve_left h)
    rw [if_neg h, hproduced, hdropped]
    have hlength : (machine.exec (create cfg) es).2.length = produces es := by
      rw [← List.length_map (f := (·.2)), hframes, List.length_map, List.length_range]
    have htime : ∀ f ∈ (machine.exec (create cfg) es).2,
        f.2.captureTsUs = cfg.startCaptureTsUs := fun f hf => by
      have hinfo := List.mem_map_of_mem (f := (·.2)) hf
      rw [hframes, List.mem_map] at hinfo
      obtain ⟨k, -, heq⟩ := hinfo
      rw [← heq]
      rfl
    obtain ⟨hrendered, herrors⟩ := PinnedSink.renderAll_open sink htime
    rw [hlength] at hrendered herrors
    exact ⟨hframes, Nat.zero_add _, (Nat.sub_self _).symm, hrendered, herrors⟩

/-- Of three frames, two are errors. -/
theorem source_frames_pinned_three :
    ((PinnedSink.open {}).renderAll
      (machine.exec (create {}) [.produce, .setPattern .gradient, .produce, .produce]).2).renderErrors
      = 2 := by
  obtain ⟨-, -, -, -, herrors⟩ := source_frames_pinned {}
    [.produce, .setPattern .gradient, .produce, .produce] {} (.inr (by decide))
  rw [herrors]
  decide

end VideoSource

end NimRtc
