import NimRtc.AudioSend
import NimRtc.Proofs.EngineStep
import NimRtc.Proofs.RtpRoundTrip

/-!
# Two engines share the audio counters

What an engine emits does not depend on the numbers its packets get, so that it does the same alone
as beside the other engine. The counters of the process are what the two have added to them, and a
packet has the numbers it would have alone exactly if the other's part is zero in their width.
-/

namespace NimRtc

/-- The engines differ at most in the timestamp of the last audio packet. -/
def Engine.SameAudio (e e' : Engine) : Prop := ∃ ts, e' = { e with audioRtpTimestamp := ts }

theorem Engine.SameAudio.refl (e : Engine) : e.SameAudio e := ⟨e.audioRtpTimestamp, rfl⟩

/-- The frames differ at most in the numbers of their packets. -/
structure AudioFrame.SameSound (f f' : AudioFrame) : Prop where
  pcm : f'.pcm = f.pcm
  initFinished : f'.initFinished = f.initFinished
  encoded : f'.encoded = f.encoded
  packet : f'.packet = [] ↔ f.packet = []
  sendUnixUs : f'.sendUnixUs = f.sendUnixUs
  lib : f'.lib = f.lib

namespace Engine

variable {e e' : Engine}

theorem audioReady_same (h : e.SameAudio e') {f f' : AudioFrame} (hf : f.SameSound f') :
    e'.audioReady f' = e.audioReady f := by
  obtain ⟨ts, rfl⟩ := h
  simp only [audioReady, hf.pcm, hf.initFinished, hf.encoded]
  rfl

/-- Whether a packet is protected does not depend on the packet. -/
theorem protectOrPass_same (h : e.SameAudio e') (ssrc : UInt32) (packet packet' : List UInt8)
    (lib : LibSrtpCall) :
    (e.protectOrPass false ssrc packet lib).1.SameAudio
        (e'.protectOrPass false ssrc packet' lib).1
      ∧ ((e'.protectOrPass false ssrc packet' lib).2 = none
        ↔ (e.protectOrPass false ssrc packet lib).2 = none) := by
  obtain ⟨ts, rfl⟩ := h
  simp only [protectOrPass]
  split
  · rcases e.srtp.getSession ssrc true lib.create with ⟨_ | sess, srtp⟩
    · exact ⟨⟨ts, rfl⟩, Iff.rfl⟩
    · simp only [PacketCall.protect, Bool.false_eq_true, if_false]
      cases sess.protectRtp lib.out with
      | error err => exact ⟨⟨ts, rfl⟩, Iff.rfl⟩
      | ok out => exact ⟨⟨ts, rfl⟩, by simp⟩
  · exact ⟨⟨ts, rfl⟩, iff_of_false (by simp) (by simp)⟩

theorem stamped_same (h : e.SameAudio e') {f f' : AudioFrame} (hf : f.SameSound f') :
    ((e.stamped f).countAudio f).SameAudio ((e'.stamped f').countAudio f')
      ∧ (e.stamped f).SameAudio (e'.stamped f') := by
  obtain ⟨ts, rfl⟩ := h
  simp only [stamped, countAudio, hf.sendUnixUs, hf.encoded]
  split
  · exact ⟨⟨f'.rtpTs, rfl⟩, ts, rfl⟩
  · exact ⟨⟨f'.rtpTs, rfl⟩, ts, rfl⟩

theorem sendAudio_same (h : e.SameAudio e') {f f' : AudioFrame} (hf : f.SameSound f') :
    (e.sendAudio f).1.SameAudio (e'.sendAudio f').1
      ∧ ((e'.sendAudio f').2 = [] ↔ (e.sendAudio f).2 = []) := by
  rw [sendAudio_eq, sendAudio_eq, audioReady_same h hf, hf.lib]
  obtain ⟨hcounted, hstamped⟩ := stamped_same h hf
  split
  · exact ⟨h, Iff.rfl⟩
  by_cases hpacket : f.packet = []
  · rw [if_pos hpacket, if_pos (hf.packet.2 hpacket)]
    exact ⟨hstamped, Iff.rfl⟩
  · rw [if_neg hpacket, if_neg fun h => hpacket (hf.packet.1 h)]
    rw [handAudio_fst, handAudio_fst, handAudio_eq_nil, handAudio_eq_nil]
    exact protectOrPass_same hcounted audioSsrcOnWire f.packet f'.packet f.lib

/-! ### Calls -/

theorem build_ne_nil (b : Rtp.PacketBuilder) : b.build.getD [] ≠ [] := by
  rw [Rtp.PacketBuilder.build_eq, Option.getD_some]
  intro h
  have hlen := congrArg List.length h
  rw [Rtp.PacketBuilder.written, Rtp.PacketBuilder.headerBytes] at hlen
  simp at hlen

theorem frame_same (e e' : Engine) (c c' : AudioCounters) (call : AudioCall) :
    (call.frame e c).SameSound (call.frame e' c') where
  pcm := rfl
  initFinished := rfl
  encoded := rfl
  packet := iff_of_false (build_ne_nil _) (build_ne_nil _)
  sendUnixUs := rfl
  lib := rfl

theorem encodes_same (h : e.SameAudio e') (call : AudioCall) : e'.encodes call = e.encodes call :=
  audioReady_same h (frame_same e e' {} {} call)

end Engine

/-! ### Runs -/

namespace Process

/-- The counters hold what the two engines have added to them. -/
def Summed (p : Process) : Prop := p.counters = (p.added false).add (p.added true)

/-- A process in which engine `i` alone has made its calls. -/
structure Alone (i : Bool) (p q : Process) : Prop where
  engine : (p.engines i).SameAudio (q.engines i)
  counters : q.counters = p.added i
  summed : p.Summed

/-- A packet of engine `i` has the numbers it has alone if the other's part is zero. -/
theorem Summed.numbers {p : Process} (h : p.Summed) (i : Bool) :
    (p.counters.seq.toUInt16 = (p.added i).seq.toUInt16 ∧ p.counters.ts = (p.added i).ts)
      ↔ (p.added !i).seq.toUInt16 = 0 ∧ (p.added !i).ts = 0 := by
  rw [show p.counters = (p.added false).add (p.added true) from h]
  cases i with
  | false => simp only [AudioCounters.add, Bool.not_false, UInt32.toUInt16_add, add_eq_left]
  | true => simp only [AudioCounters.add, Bool.not_true, UInt32.toUInt16_add, add_eq_right]

theorem Summed.step {p : Process} (h : p.Summed) (ev : Bool × AudioCall) :
    (machine.step p ev).1.Summed := by
  have hcounters : p.counters = (p.added false).add (p.added true) := h
  obtain ⟨j, call⟩ := ev
  simp only [Summed, machine, Process.step, Engine.sendAudioFrom, hcounters]
  cases j with
  | false =>
    rw [Function.update_self, Function.update_of_ne (by decide)]
    split
    · simp only [AudioCounters.add, add_right_comm]
    · rfl
  | true =>
    rw [Function.update_self, Function.update_of_ne (by decide)]
    split
    · simp only [AudioCounters.add, add_assoc]
    · rfl

/-- A call on the other engine. -/
theorem Alone.other {i : Bool} {p q : Process} (h : Alone i p q) {ev : Bool × AudioCall}
    (hev : ev.1 ≠ i) : Alone i (machine.step p ev).1 q where
  engine := by
    show ((Function.update p.engines ev.1 _) i).SameAudio _
    rw [Function.update_of_ne hev.symm]
    exact h.engine
  counters := by
    show _ = (Function.update p.added ev.1 _) i
    rw [Function.update_of_ne hev.symm]
    exact h.counters
  summed := h.summed.step ev

/-- A call on the engine itself, in both processes. -/
theorem Alone.self {i : Bool} {p q : Process} (h : Alone i p q) (call : AudioCall) :
    Alone i (machine.step p (i, call)).1 (machine.step q (i, call)).1
      ∧ (q.emits i call ↔ p.emits i call) := by
  obtain ⟨hengine, hnil⟩ := Engine.sendAudio_same h.engine
    (Engine.frame_same (p.engines i) (q.engines i) p.counters q.counters call)
  refine ⟨⟨?_, ?_, h.summed.step (i, call)⟩, not_congr hnil⟩
  · show (Function.update p.engines i _ i).SameAudio (Function.update q.engines i _ i)
    rw [Function.update_self, Function.update_self]
    exact hengine
  · show (if (q.engines i).encodes call then q.counters.add call.count else q.counters)
      = Function.update p.added i _ i
    rw [Function.update_self, Engine.encodes_same h.engine, h.counters]

theorem step_reports (p : Process) (i : Bool) (call : AudioCall) :
    (machine.step p (i, call)).2
      = if p.emits i call then [⟨i, p.counters.seq.toUInt16, p.counters.ts⟩] else [] := rfl

/-- Along a run, engine `i` emits what it emits alone if each of its packets is undisturbed. -/
theorem heard_alone_iff {i : Bool} : ∀ {calls : List (Bool × AudioCall)} {p q : Process},
    Alone i p q →
    ((machine.exec p calls).2.filter (·.engine = i)
        = (machine.exec q (calls.filter (·.1 = i))).2.filter (·.engine = i)
      ↔ machine.Meets (fun p ev => ev.1 = i → p.Undisturbed ev) p calls)
  | [], _, _, _ => iff_of_true rfl trivial
  | (j, call) :: calls, p, q, h => by
    rw [Machine.exec_cons, Machine.meets_cons, List.filter_append, step_reports]
    by_cases hj : j = i
    · subst hj
      obtain ⟨hnext, hemits⟩ := h.self call
      have ih := @heard_alone_iff j calls _ _ hnext
      rw [List.filter_cons_of_pos (by simp), Machine.exec_cons, List.filter_append, step_reports,
        ← ih]
      by_cases hsent : p.emits j call
      · have hfields := h.summed.numbers j
        rw [if_pos hsent, if_pos (hemits.2 hsent), List.filter_cons_of_pos (by simp),
          List.filter_cons_of_pos (by simp), List.filter_nil, List.cons_append, List.cons_append,
          List.nil_append, List.nil_append, List.cons.injEq, AudioSent.mk.injEq, h.counters]
        simp only [true_and, hfields, Undisturbed, hsent, true_imp_iff]
      · rw [if_neg hsent, if_neg fun h => hsent (hemits.1 h), List.filter_nil, List.nil_append,
          List.nil_append]
        simp only [Undisturbed, hsent, false_imp_iff, implies_true, true_and]
    · have hnext : Alone i (machine.step p (j, call)).1 q := h.other hj
      have ih := @heard_alone_iff i calls _ _ hnext
      have hnone : (if p.emits j call then [AudioSent.mk j p.counters.seq.toUInt16 p.counters.ts]
          else []).filter (·.engine = i) = [] := by
        split
        · exact List.filter_cons_of_neg (by simpa using hj)
        · rfl
      rw [hnone, List.nil_append, List.filter_cons_of_neg (by simpa using hj), ih]
      simp only [hj, false_imp_iff, true_and]

theorem isolated_iff (engines : Bool → Engine) (calls : List (Bool × AudioCall)) :
    Isolated engines calls ↔ machine.Meets Undisturbed { engines } calls := by
  have hstart : ∀ i, Alone i { engines } { engines } := fun i =>
    ⟨.refl (engines i), rfl, rfl⟩
  constructor
  · intro h
    have hboth := (heard_alone_iff (hstart false)).1 (h false) |>.and
      ((heard_alone_iff (hstart true)).1 (h true))
    refine hboth.mono fun p ev hev => ?_
    obtain ⟨j, call⟩ := ev
    cases j with
    | false => exact hev.1 rfl
    | true => exact hev.2 rfl
  · intro h i
    have hown : machine.Meets (fun p ev => ev.1 = i → p.Undisturbed ev) { engines } calls := by
      refine h.mono ?_
      intro p ev hev _
      exact hev
    exact (heard_alone_iff (hstart i)).2 hown

theorem encodes_of_emits {p : Process} {i : Bool} {call : AudioCall} (h : p.emits i call) :
    (p.engines i).encodes call = true := by
  by_contra hnot
  refine h ?_
  show ((p.engines i).sendAudio (call.frame (p.engines i) p.counters)).2 = []
  have hready : (p.engines i).audioReady (call.frame (p.engines i) p.counters) = false :=
    Bool.eq_false_iff.2 hnot
  rw [Engine.sendAudio_eq, hready]
  rfl

/-- An engine alone numbers its packets one after the other. -/
theorem exec_consecutive {i : Bool} : ∀ {calls : List (Bool × AudioCall)} {p : Process},
    (∀ ev ∈ calls, ev.1 = i) → machine.Meets (fun p ev => p.emits ev.1 ev.2) p calls →
    (machine.exec p calls).2.filter (·.engine = i)
      = consecutive i p.counters (calls.map (·.2.count))
  | [], _, _, _ => rfl
  | (j, call) :: calls, p, hi, hm => by
    obtain rfl : j = i := hi _ List.mem_cons_self
    obtain ⟨hsent, hm⟩ := hm
    have hcounters : (machine.step p (j, call)).1.counters = p.counters.add call.count :=
      if_pos (encodes_of_emits hsent)
    rw [Machine.exec_cons, List.filter_append, step_reports, if_pos hsent,
      List.filter_cons_of_pos (by simp), List.filter_nil,
      exec_consecutive (fun ev hev => hi ev (List.mem_cons_of_mem _ hev)) hm, hcounters]
    rfl

/-- The engines are isolated in the runs in which no packet is disturbed, and in no others. -/
theorem isolated_iff_undisturbed (engines : Bool → Engine) (calls : List (Bool × AudioCall)) :
    (Isolated engines calls ↔ machine.Meets Undisturbed { engines } calls)
      ∧ ∀ i, (∀ ev ∈ calls, ev.1 = i) →
        machine.Meets (fun p ev => p.emits ev.1 ev.2) { engines } calls →
        heard engines i calls = consecutive i {} (calls.map (·.2.count)) :=
  ⟨isolated_iff engines calls, fun _ hi hm => exec_consecutive hi hm⟩

/-- An engine that is ready to send. -/
def readyEngine : Engine := { state := .open, dtls := { state := .connected, ssl := true } }

/-- Frames on both engines, of which the codec makes nothing of those of the first. -/
def oneAudible : List (Bool × AudioCall) :=
  [(false, ⟨960, [], true, true, 0, 0, {}⟩), (true, ⟨960, [7], true, true, 0, 0, {}⟩),
    (true, ⟨480, [8], true, true, 0, 0, {}⟩), (false, ⟨960, [], true, true, 0, 0, {}⟩),
    (true, ⟨960, [9], true, true, 0, 0, {}⟩)]

theorem isolated_alone :
    Isolated (fun _ => readyEngine) oneAudible
      ∧ heard (fun _ => readyEngine) true oneAudible
        = [⟨true, 0, 0⟩, ⟨true, 1, 960⟩, ⟨true, 2, 1440⟩] := by
  have hisolated : Isolated (fun _ => readyEngine) oneAudible := by
    refine (isolated_iff_undisturbed _ _).1.2 ⟨fun h => ?_, fun _ => ⟨rfl, rfl⟩,
      fun _ => ⟨rfl, rfl⟩, fun h => ?_, fun _ => ⟨rfl, rfl⟩, trivial⟩
    · exact absurd h (by decide)
    · exact absurd h (by decide)
  refine ⟨hisolated, ?_⟩
  have halone : heard (fun _ => readyEngine) true oneAudible
      = heard (fun _ => readyEngine) true (oneAudible.filter (·.1 = true)) := hisolated true
  rw [halone]
  exact (isolated_iff_undisturbed _ _).2 true (by decide)
    ⟨by decide, by decide, by decide, trivial⟩

/-- One frame on each of two engines: the second engine's first packet is numbered after the first
engine's. -/
theorem second_engine_disturbed :
    heard (fun _ => readyEngine) true
        [(false, ⟨960, [7], true, true, 0, 0, {}⟩), (true, ⟨960, [7], true, true, 0, 0, {}⟩)]
      = [⟨true, 1, 960⟩]
    ∧ ¬ Isolated (fun _ => readyEngine)
        [(false, ⟨960, [7], true, true, 0, 0, {}⟩), (true, ⟨960, [7], true, true, 0, 0, {}⟩)] := by
  have hboth : heard (fun _ => readyEngine) true
      [(false, ⟨960, [7], true, true, 0, 0, {}⟩), (true, ⟨960, [7], true, true, 0, 0, {}⟩)]
      = [⟨true, 1, 960⟩] := by decide
  have halone : heard (fun _ => readyEngine) true [(true, ⟨960, [7], true, true, 0, 0, {}⟩)]
      = [⟨true, 0, 0⟩] := by decide
  refine ⟨hboth, fun h => ?_⟩
  have hsame : heard (fun _ => readyEngine) true _
      = heard (fun _ => readyEngine) true [(true, ⟨960, [7], true, true, 0, 0, {}⟩)] := h true
  rw [hboth, halone] at hsame
  exact absurd hsame (by decide)

end Process

end NimRtc
