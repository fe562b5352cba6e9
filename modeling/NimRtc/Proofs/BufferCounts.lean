import NimRtc.FrameBuffers
import NimRtc.Lib.Custody

/-!
# What the reference count of a frame buffer counts

Every operation on buffers keeps what the count of a block has more than the buffers that share it. So
the count is exact as long as a block that the program brings along is taken once.
-/

namespace NimRtc.VideoFrame

open RefCount (weight)

open scoped UInt32.CommRing

namespace Frames

variable {s s' : Frames} {b : VideoFrameBuffer} {c i : ℕ} {p : Option ℕ}

def count (s : Frames) (c : ℕ) : UInt32 := (s.controls[c]?).elim 0 (·.refCount)

def owned (s : Frames) (c : ℕ) : Bool := (s.controls[c]?).elim false (·.owned)

/-- How often the constructor for external data should take a block. -/
def planned (s : Frames) (c : ℕ) : ℕ := if s.owned c then 0 else 1

/-! ### Pointers and counts -/

@[simp] theorem pointers_push : (s.push b).pointers = s.pointers ++ [b.ctrl] := by
  rw [pointers, pointers, push, List.map_append]
  rfl

@[simp] theorem pointers_setBuffer (b' : Option VideoFrameBuffer) :
    (s.setBuffer i b').pointers = s.pointers.set i (b'.bind (·.ctrl)) := by
  rw [pointers, pointers, setBuffer, List.map_set]

theorem pointers_of_buffer (h : s.buffer? i = some b) : s.pointers[i]? = some b.ctrl := by
  rw [buffer?, Option.join_eq_some_iff] at h
  rw [pointers, List.getElem?_map, h]
  rfl

variable {f : FrameBufferControl → FrameBufferControl}

@[simp] theorem buffers_onControl : (s.onControl p f).buffers = s.buffers := by
  unfold onControl
  split <;> rfl

@[simp] theorem taken_onControl : (s.onControl p f).taken = s.taken := by
  unfold onControl
  split <;> rfl

@[simp] theorem length_onControl : (s.onControl p f).controls.length = s.controls.length := by
  unfold onControl
  split
  · rfl
  · exact List.length_modify ..

@[simp] theorem pointers_onControl : (s.onControl p f).pointers = s.pointers := by
  rw [pointers, buffers_onControl, pointers]

@[simp] theorem buffer?_onControl : (s.onControl p f).buffer? i = s.buffer? i := by
  rw [buffer?, buffers_onControl, buffer?]

theorem getElem?_onControl :
    (s.onControl p f).controls[c]? = (s.controls[c]?).map fun x => if p = some c then f x else x := by
  unfold onControl
  split
  · simp
  · rw [List.getElem?_modify]
    simp

theorem owned_onControl (hf : ∀ x, (f x).owned = x.owned) : (s.onControl p f).owned c = s.owned c := by
  rw [owned, owned, getElem?_onControl]
  rcases s.controls[c]? with _ | x
  · rfl
  · simp only [Option.map_some, Option.elim_some]
    split_ifs
    · exact hf x
    · rfl

theorem count_onControl {r : UInt32} (hc : c < s.controls.length)
    (hf : ∀ x, (f x).refCount = x.refCount + r) :
    (s.onControl p f).count c = s.count c + if p = some c then r else 0 := by
  rw [count, count, getElem?_onControl, List.getElem?_eq_getElem hc]
  simp only [Option.map_some, Option.elim_some]
  split_ifs
  · exact hf _
  · rw [UInt32.add_zero]

theorem count_fetchAdd (hc : c < s.controls.length) :
    (s.fetchAdd p).count c = s.count c + weight UInt32 p c :=
  count_onControl hc fun _ => rfl

theorem count_fetchSub (hc : c < s.controls.length) :
    (s.fetchSub p).count c = s.count c - weight UInt32 p c := by
  rw [fetchSub, count_onControl (r := -1) hc fun x => UInt32.sub_eq_add_neg .., weight]
  split_ifs
  · exact (UInt32.sub_eq_add_neg ..).symm
  · rw [UInt32.add_zero, UInt32.sub_zero]

@[simp] theorem owned_fetchAdd : (s.fetchAdd p).owned c = s.owned c := owned_onControl fun _ => rfl

@[simp] theorem owned_fetchSub : (s.fetchSub p).owned c = s.owned c := owned_onControl fun _ => rfl

/-! ### The invariant -/

structure Balanced (s : Frames) : Prop where
  pointed : ∀ c, some c ∈ s.pointers → c < s.controls.length
  taken : ∀ c ∈ s.taken, c < s.controls.length
  excess : ∀ c < s.controls.length,
    RefCount.excess s.count s.pointers c = (s.planned c : UInt32) - (s.taken.count c : UInt32)

/-- An operation that makes and takes no block. -/
theorem Balanced.keep (h : s.Balanced) (hlength : s'.controls.length = s.controls.length)
    (howned : ∀ c, s'.owned c = s.owned c) (htaken : s'.taken = s.taken)
    (hpointed : ∀ c, some c ∈ s'.pointers → some c ∈ s.pointers)
    (hexcess : ∀ c < s.controls.length, RefCount.excess s'.count s'.pointers c
      = RefCount.excess s.count s.pointers c) : s'.Balanced := by
  refine ⟨fun c hc => ?_, fun c hc => ?_, fun c hc => ?_⟩
  · rw [hlength]
    exact h.pointed c (hpointed c hc)
  · rw [hlength]
    exact h.taken c (htaken ▸ hc)
  · rw [hlength] at hc
    rw [hexcess c hc, h.excess c hc, planned, planned, howned, htaken]

theorem mem_set {slots : List (Option ℕ)} {q : Option ℕ} (h : some c ∈ slots.set i q) :
    some c ∈ slots ∨ q = some c := by
  rcases List.mem_or_eq_of_mem_set h with hmem | heq
  · exact .inl hmem
  · exact .inr heq.symm

/-- A buffer without a block. -/
theorem Balanced.push (h : s.Balanced) (hb : b.ctrl = none) : (s.push b).Balanced := by
  refine h.keep rfl (fun _ => rfl) rfl (fun c hc => ?_) fun c hc => ?_
  · rw [pointers_push, hb] at hc
    simpa using hc
  · rw [pointers_push, hb]
    exact RefCount.excess_concat (by simp [count, Frames.push])

theorem Balanced.copy (h : s.Balanced) (other : ℕ) : (s.copy other).Balanced := by
  unfold Frames.copy
  split
  · exact h
  · rename_i b hb
    have hslot := pointers_of_buffer hb
    refine h.keep length_onControl (fun c => owned_onControl fun _ => rfl) taken_onControl
      (fun c hc => ?_) fun c hc => ?_
    · rw [fetchAdd, pointers_onControl, pointers_push, List.mem_append, List.mem_singleton] at hc
      rcases hc with hc | hc
      · exact hc
      · exact hc ▸ List.mem_of_getElem? hslot
    · rw [fetchAdd, pointers_onControl, pointers_push]
      exact RefCount.excess_concat (count_fetchAdd hc)

theorem Balanced.copyAssign (h : s.Balanced) (this other : ℕ) :
    (s.copyAssign this other).Balanced := by
  unfold Frames.copyAssign
  split_ifs with heq
  · exact h
  · split
    · rename_i b b' hb hb'
      have hslot := pointers_of_buffer hb
      have hpointers : (((s.fetchSub b.ctrl).setBuffer this (some b')).fetchAdd b'.ctrl).pointers
          = s.pointers.set this b'.ctrl := by
        simp [fetchAdd, fetchSub]
      have hlength : ((s.fetchSub b.ctrl).setBuffer this (some b')).controls.length
          = s.controls.length := length_onControl
      refine h.keep (length_onControl.trans hlength)
        (fun c => owned_fetchAdd.trans owned_fetchSub)
        (taken_onControl.trans taken_onControl) (fun c hc => ?_) fun c hc => ?_
      · rw [hpointers] at hc
        rcases mem_set hc with hc | hc
        · exact hc
        · exact hc ▸ List.mem_of_getElem? (pointers_of_buffer hb')
      · rw [hpointers]
        refine RefCount.excess_set hslot ?_
        rw [count_fetchAdd (hlength ▸ hc)]
        exact congrArg (· + _) (count_fetchSub hc)
    · exact h

theorem Balanced.move (h : s.Balanced) (other : ℕ) : (s.move other).Balanced := by
  unfold Frames.move
  split
  · exact h
  · rename_i b hb
    have hslot := pointers_of_buffer hb
    refine h.keep rfl (fun _ => rfl) rfl (fun c hc => ?_) fun c hc => ?_
    · rw [pointers_push, pointers_setBuffer, List.mem_append, List.mem_singleton] at hc
      rcases hc with hc | hc
      · rcases mem_set hc with hc | hc
        · exact hc
        · cases hc
      · exact hc ▸ List.mem_of_getElem? hslot
    · rw [pointers_push, pointers_setBuffer]
      exact RefCount.excess_move hslot rfl

theorem Balanced.moveAssign (h : s.Balanced) (this other : ℕ) :
    (s.moveAssign this other).Balanced := by
  unfold Frames.moveAssign
  split_ifs with heq
  · exact h
  · split
    · rename_i b b' hb hb'
      have hpointers : (((s.fetchSub b.ctrl).setBuffer this (some b')).setBuffer other
          (some {})).pointers = (s.pointers.set this b'.ctrl).set other none := by
        simp [fetchSub]
      refine h.keep length_onControl (fun c => owned_onControl fun _ => rfl) taken_onControl
        (fun c hc => ?_) fun c hc => ?_
      · rw [hpointers] at hc
        rcases mem_set hc with hc | hc
        · rcases mem_set hc with hc | hc
          · exact hc
          · exact hc ▸ List.mem_of_getElem? (pointers_of_buffer hb')
        · cases hc
      · rw [hpointers]
        exact RefCount.excess_moveAssign heq (pointers_of_buffer hb) (pointers_of_buffer hb')
          (count_fetchSub hc)
    · exact h

/-- A buffer that drops its reference and has none after that. -/
theorem Balanced.drop (h : s.Balanced) (this : ℕ) {b' : Option VideoFrameBuffer}
    (hb' : b'.bind (·.ctrl) = none) : (s.drop this b').Balanced := by
  unfold Frames.drop
  split
  · exact h
  · rename_i b hb
    have hpointers : ((s.fetchSub b.ctrl).setBuffer this b').pointers
        = s.pointers.set this none := by
      rw [pointers_setBuffer, hb', fetchSub, pointers_onControl]
    refine h.keep length_onControl (fun c => owned_onControl fun _ => rfl) taken_onControl
      (fun c hc => ?_) fun c hc => ?_
    · rw [hpointers] at hc
      rcases mem_set hc with hc | hc
      · exact hc
      · cases hc
    · rw [hpointers]
      refine RefCount.excess_set (pointers_of_buffer hb) ?_
      rw [RefCount.weight_none, add_zero]
      exact count_fetchSub hc

theorem Balanced.onControl (h : s.Balanced) (howned : ∀ x, (f x).owned = x.owned)
    (hcount : ∀ x, (f x).refCount = x.refCount) : (s.onControl p f).Balanced := by
  refine h.keep length_onControl (fun c => owned_onControl howned) taken_onControl
    (fun c hc => by rwa [pointers_onControl] at hc) fun c hc => ?_
  rw [pointers_onControl, RefCount.excess, RefCount.excess,
    count_onControl hc fun x => (hcount x).trans (UInt32.add_zero _).symm, ite_self, add_zero]

/-! ### New blocks -/

section NewBlock

variable {ctrl : FrameBufferControl} (hcontrols : s'.controls = s.controls ++ [ctrl])

include hcontrols

theorem count_newBlock (hc : c < s.controls.length) : s'.count c = s.count c := by
  rw [count, count, hcontrols, List.getElem?_append_left hc]

theorem owned_newBlock (hc : c < s.controls.length) : s'.owned c = s.owned c := by
  rw [owned, owned, hcontrols, List.getElem?_append_left hc]

theorem newBlock_count : s'.count s.controls.length = ctrl.refCount := by
  rw [count, hcontrols, List.getElem?_concat_length]
  rfl

theorem newBlock_owned : s'.owned s.controls.length = ctrl.owned := by
  rw [owned, hcontrols, List.getElem?_concat_length]
  rfl

/-- A block with a count of one, and a buffer for it if it is an owned one. -/
theorem Balanced.newBlock (h : s.Balanced) (hone : ctrl.refCount = 1) (htaken : s'.taken = s.taken)
    (hpointers : s'.pointers
      = s.pointers ++ if ctrl.owned then [some s.controls.length] else []) : s'.Balanced := by
  have hlength : s'.controls.length = s.controls.length + 1 := by
    rw [hcontrols, List.length_append, List.length_singleton]
  refine ⟨fun c hc => ?_, fun c hc => ?_, fun c hc => ?_⟩
  · rw [hpointers, List.mem_append] at hc
    rw [hlength]
    rcases hc with hc | hc
    · exact (h.pointed c hc).trans (Nat.lt_succ_self _)
    · split_ifs at hc
      · cases List.mem_singleton.1 hc
        exact Nat.lt_succ_self _
      · cases hc
  · rw [hlength]
    exact (h.taken c (htaken ▸ hc)).trans (Nat.lt_succ_self _)
  · rw [hlength, Nat.lt_succ_iff_lt_or_eq] at hc
    rcases hc with hc | rfl
    · have hholders : RefCount.holders s'.pointers c = RefCount.holders s.pointers c := by
        rw [hpointers, RefCount.holders, RefCount.holders, List.count_append, Nat.add_eq_left]
        refine List.count_eq_zero.2 fun hmem => ?_
        split_ifs at hmem
        · cases List.mem_singleton.1 hmem
          exact hc.false
        · cases hmem
      rw [RefCount.excess, count_newBlock hcontrols hc, hholders, planned,
        owned_newBlock hcontrols hc, htaken]
      exact h.excess c hc
    · have hnone : s.pointers.count (some s.controls.length) = 0 :=
        List.count_eq_zero.2 fun hmem => (h.pointed _ hmem).false
      have htakenNone : s.taken.count s.controls.length = 0 :=
        List.count_eq_zero.2 fun hmem => (h.taken _ hmem).false
      rw [RefCount.excess, newBlock_count hcontrols, hone, RefCount.holders, hpointers,
        List.count_append, hnone, planned, newBlock_owned hcontrols, htaken, htakenNone]
      rcases ctrl.owned with _ | _ <;> simp

end NewBlock

/-- The constructor for external data counts nothing when it takes a block. -/
theorem Balanced.take (h : s.Balanced) (hc : c < s.controls.length) (hb : b.ctrl = some c) :
    ({ s with taken := s.taken ++ [c] }.push b).Balanced := by
  refine ⟨fun c' hc' => ?_, fun c' hc' => ?_, fun c' hc' => ?_⟩
  · rw [pointers_push, hb, List.mem_append, List.mem_singleton] at hc'
    rcases hc' with hc' | hc'
    · exact h.pointed c' hc'
    · cases hc'
      exact hc
  · rcases List.mem_append.1 hc' with hc' | hc'
    · exact h.taken c' hc'
    · cases List.mem_singleton.1 hc'
      exact hc
  · have hbefore := h.excess c' hc'
    have htaken : ((s.taken ++ [c]).count c' : UInt32)
        = s.taken.count c' + weight UInt32 (some c) c' := by
      rw [List.count_append, List.count_singleton, Nat.cast_add, weight]
      by_cases heq : c = c' <;> simp [heq]
    have hcount : (({ s with taken := s.taken ++ [c] } : Frames).push b).count c' = s.count c' := rfl
    have hplanned : (({ s with taken := s.taken ++ [c] } : Frames).push b).planned c' = s.planned c' :=
      rfl
    have hpointers : (({ s with taken := s.taken ++ [c] } : Frames).push b).pointers
        = s.pointers ++ [some c] := by rw [pointers_push, hb]; rfl
    rw [RefCount.excess] at hbefore
    rw [RefCount.excess, hcount, hpointers, RefCount.holders_concat, hplanned]
    change _ = _ - ((s.taken ++ [c]).count c' : UInt32)
    rw [htaken]
    linear_combination hbefore

theorem Balanced.allocate (h : s.Balanced) (layout : VideoFrameLayout) :
    (s.allocate layout).Balanced := by
  unfold Frames.allocate
  split_ifs
  · exact h.push rfl
  · refine Balanced.newBlock (s := s) rfl h rfl rfl ?_
    rw [pointers_push]
    rfl

theorem Balanced.wrap (h : s.Balanced) (external : List UInt8) (layout : VideoFrameLayout)
    (ctrl : Option ℕ) : (s.wrap external layout ctrl).Balanced := by
  unfold Frames.wrap
  split_ifs
  · exact h.push rfl
  · split
    · exact h.push rfl
    · split_ifs with hc
      · exact h.take hc rfl
      · exact h

theorem Balanced.control (h : s.Balanced) (ctrl : FrameBufferControl) :
    (s.control ctrl).Balanced :=
  Balanced.newBlock (s := s) rfl h rfl rfl (List.append_nil _).symm

/-! ### A run -/

theorem Balanced.step (h : s.Balanced) (e : BufferEvent) : (s.step e).Balanced := by
  cases e with
  | empty => exact h.push rfl
  | allocate layout => exact h.allocate layout
  | control ctrl => exact h.control ctrl
  | wrap external layout ctrl => exact h.wrap external layout ctrl
  | copy other => exact h.copy other
  | copyAssign this other => exact h.copyAssign this other
  | move other => exact h.move other
  | moveAssign this other => exact h.moveAssign this other
  | reset this => exact h.drop this rfl
  | destroy this => exact h.drop this rfl
  | setCaptureTsUs this v => exact h.onControl (fun _ => rfl) fun _ => rfl
  | setFrameSeq this v => exact h.onControl (fun _ => rfl) fun _ => rfl

theorem run_balanced (es : List BufferEvent) : (run es).Balanced := by
  induction es using List.reverseRecOn with
  | nil => exact ⟨by simp [run, pointers], by simp [run], by simp [run]⟩
  | append_singleton es e ih =>
    rw [run, List.foldl_append]
    exact ih.step e

theorem toNat_cast {n : ℕ} (h : n < 2 ^ 32) : (n : UInt32).toNat = n :=
  (UInt32.toNat_ofNat' ..).trans (Nat.mod_eq_of_lt h)

/-- In every run, the count of a block is the number of buffers that share it exactly if the
constructor for external data took the block as often as it should: never if a buffer allocated it,
and once if the program brought it along. -/
theorem refCount_eq_holders_iff (es : List BufferEvent) (c : ℕ) (ctrl : FrameBufferControl)
    (hctrl : (run es).controls[c]? = some ctrl) (hholders : (run es).holders c < 2 ^ 32)
    (htaken : (run es).taken.count c < 2 ^ 32) :
    ctrl.refCount.toNat = (run es).holders c
      ↔ (run es).taken.count c = if ctrl.owned then 0 else 1 := by
  have hc := (List.getElem?_eq_some_iff.1 hctrl).1
  have hexcess := (run_balanced es).excess c hc
  have hcount : (run es).count c = ctrl.refCount := by rw [count, hctrl]; rfl
  have hplanned : (run es).planned c = if ctrl.owned then 0 else 1 := by
    rw [planned, owned, hctrl]
    rfl
  have hplannedLt : (run es).planned c < 2 ^ 32 := by
    rw [planned]
    split_ifs <;> decide
  rw [← hplanned, ← hcount]
  unfold RefCount.excess at hexcess
  change _ = RefCount.holders (run es).pointers c ↔ _
  change RefCount.holders (run es).pointers c < _ at hholders
  constructor
  · intro heq
    have hcast : ((RefCount.holders (run es).pointers c : ℕ) : UInt32) = (run es).count c :=
      UInt32.toNat_inj.1 ((toNat_cast hholders).trans heq.symm)
    rw [hcast, sub_self, eq_comm, sub_eq_zero] at hexcess
    have hnat := congrArg UInt32.toNat hexcess
    rw [toNat_cast hplannedLt, toNat_cast htaken] at hnat
    exact hnat.symm
  · intro heq
    rw [heq, sub_self, sub_eq_zero] at hexcess
    rw [hexcess, toNat_cast hholders]

/-- A block that is taken twice counts one buffer too few. -/
theorem refCount_eq_holders_iff_twice :
    (1 : UInt32).toNat = (run [.control {}, .wrap [0] {} (some 0), .wrap [0] {} (some 0)]).holders 0
      ↔ (run [.control {}, .wrap [0] {} (some 0), .wrap [0] {} (some 0)]).taken.count 0
        = if false then 0 else 1 :=
  refCount_eq_holders_iff [.control {}, .wrap [0] {} (some 0), .wrap [0] {} (some 0)] 0 {} rfl
    (by decide) (by decide)

end Frames

end NimRtc.VideoFrame
