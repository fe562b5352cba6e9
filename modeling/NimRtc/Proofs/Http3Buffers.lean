import NimRtc.Proofs.Http3Chunks

/-!
# What is kept of HTTP/3 streams

Whole frames are taken off the buffer of a request or control stream, and the buffer of an encoder
stream is fed to the decoder. The bytes of a stream that is ignored are put into its buffer like any
others, and nothing takes them out again.
-/

namespace NimRtc

namespace Varint

/-- An integer that is not whole can be made whole. -/
theorem exists_completion {bytes : List UInt8} (h : decode bytes = none) :
    ∃ more v, more ≠ [] ∧ decode (bytes ++ more) = some (v, []) := by
  cases bytes with
  | nil => exact ⟨[0], 0, by simp, rfl⟩
  | cons lead rest =>
    rw [decode] at h
    split_ifs at h with hshort
    have hlength : (lead :: (rest ++ List.replicate (width lead - (lead :: rest).length) 0)).length
        = width lead := by
      rw [← List.cons_append, List.length_append, List.length_replicate]
      omega
    refine ⟨List.replicate (width lead - (lead :: rest).length) 0,
      value ((lead :: (rest ++ List.replicate (width lead - (lead :: rest).length) 0)).take
        (width lead)), ?_, ?_⟩
    · rw [Ne, List.replicate_eq_nil_iff]
      omega
    · rw [List.cons_append, decode, if_neg (by omega), List.drop_eq_nil_of_le hlength.le]

end Varint

theorem Framing.Splits.next_left {α φ : Type*} {next : List α → Option (φ × List α)}
    {x left : List α} {fs : List φ} (h : Splits next x fs left) : next left = none := by
  induction h with
  | stop h => exact h
  | frame h hrest ih => exact ih

namespace Http3

/-- The bytes are the beginning of one frame, and not all of it. -/
def PartOfFrame (buf : List UInt8) : Prop :=
  ∃ more f, more ≠ [] ∧ nextFrame (buf ++ more) = some (f, [])

theorem nextFrame_eq_none_of_part {buf : List UInt8} (h : PartOfFrame buf) :
    nextFrame buf = none := by
  obtain ⟨more, f, hmore, hwhole⟩ := h
  rcases hnext : nextFrame buf with _ | ⟨f', rest⟩
  · rfl
  · rw [nextFrame_incremental.append hnext more, Option.some.injEq, Prod.mk.injEq] at hwhole
    exact absurd (List.append_eq_nil_iff.1 hwhole.2).2 hmore

/-- Bytes without a whole frame at their front can be made into one. -/
theorem part_of_nextFrame_eq_none {buf : List UInt8} (h : nextFrame buf = none) :
    PartOfFrame buf := by
  rcases htype : Varint.decode buf with _ | ⟨frameType, cursor⟩
  · -- the type is cut off, and an empty payload follows it
    obtain ⟨more, v, hmore, hv⟩ := Varint.exists_completion htype
    refine ⟨more ++ [0], ⟨v, []⟩, by simp, ?_⟩
    have hv := Varint.decode_append hv [0]
    rw [List.append_assoc] at hv
    exact nextFrame_of_decode hv rfl
  rcases hlength : Varint.decode cursor with _ | ⟨frameLen, tail⟩
  · obtain ⟨more, n, hmore, hn⟩ := Varint.exists_completion hlength
    refine ⟨more ++ List.replicate n 0, ⟨frameType, List.replicate n 0⟩, by simp [hmore], ?_⟩
    refine nextFrame_of_decode (Varint.decode_append htype _) ?_
    have hn := Varint.decode_append hn (List.replicate n 0)
    rw [List.append_assoc] at hn
    rw [hn, List.nil_append, List.length_replicate, List.append_nil]
  · -- the payload is cut off
    have hshort : tail.length < frameLen := by
      by_contra hlong
      simp only [nextFrame, quicVarintDecode_eq, Option.bind_eq_bind, htype, Option.bind_some,
        hlength, if_neg hlong] at h
      cases h
    refine ⟨List.replicate (frameLen - tail.length) 0,
      ⟨frameType, tail ++ List.replicate (frameLen - tail.length) 0⟩, ?_, ?_⟩
    · rw [Ne, List.replicate_eq_nil_iff]
      omega
    · refine nextFrame_of_decode (Varint.decode_append htype _) ?_
      rw [Varint.decode_append hlength, List.append_nil, List.length_append, List.length_replicate,
        Nat.add_sub_cancel' hshort.le]

theorem partOfFrame_iff {buf : List UInt8} : PartOfFrame buf ↔ nextFrame buf = none :=
  ⟨nextFrame_eq_none_of_part, part_of_nextFrame_eq_none⟩

namespace Http3Handler

/-- What may be kept of a stream that has a role. -/
def KeepsPart (state : StreamState) : Prop :=
  match state.role with
  | .request | .control => PartOfFrame state.buf
  | .push | .decoder => state.buf = []
  | .unknown | .encoder => True

def KeepsParts (h : Http3Handler) : Prop :=
  ∀ stream state, h.streamStates stream = some state → KeepsPart state

/-- No bytes come for a stream that is ignored, or by its first byte will be. -/
def Heeded (h : Http3Handler) : Call → Prop
  | .streamData stream data _ => ∀ state, h.streamStates stream = some state →
      (resolveRole state.role (state.buf ++ data)).1 = .push
        ∨ (resolveRole state.role (state.buf ++ data)).1 = .decoder → state.buf ++ data = []
  | .peerStreamStarted .. | .streamClosed _ => True

/-- What is kept whatever the role of the stream becomes when it is started again. -/
def Clean (state : StreamState) : Prop :=
  match state.role with
  | .unknown | .request | .control => nextFrame state.buf = none
  | .push | .decoder | .encoder => state.buf = []

def AllClean (h : Http3Handler) : Prop :=
  ∀ stream state, h.streamStates stream = some state → Clean state

theorem Clean.nextFrame {state : StreamState} (h : Clean state) : nextFrame state.buf = none := by
  unfold Clean at h
  split at h
  all_goals first | exact h | (rw [h]; rfl)

theorem Clean.keepsPart {state : StreamState} (h : Clean state) : KeepsPart state := by
  unfold Clean at h
  unfold KeepsPart
  split at h <;> simp_all only [partOfFrame_iff]

theorem AllClean.update {h : Http3Handler} {stream : HQUIC} {state : Option StreamState}
    (hclean : AllClean h) (hstate : ∀ s, state = some s → Clean s) (qpack : Qpack.QpackDecoder)
    (settingsReceived : Bool) :
    AllClean ⟨Function.update h.streamStates stream state, qpack, settingsReceived⟩ := by
  intro other s hs
  simp only [] at hs
  by_cases hother : other = stream
  · rw [hother, Function.update_self] at hs
    exact hstate s hs
  · rw [Function.update_of_ne hother] at hs
    exact hclean other s hs

variable {answered : HQUIC → Bool} {h : Http3Handler}

theorem clean_started (hclean : AllClean h) (stream : HQUIC) (unidirectional : Bool) :
    AllClean (h.onPeerStreamStarted stream unidirectional) := by
  refine hclean.update (fun s hs => ?_) _ _
  have hbuf : nextFrame ((h.streamStates stream).getD {}).buf = none := by
    rcases hstate : h.streamStates stream with _ | state
    · rfl
    · exact (hclean stream state hstate).nextFrame
  rw [← Option.some.inj hs]
  cases unidirectional <;> exact hbuf

/-- A frame is taken off as soon as it is whole, and bytes that are fed on are not kept. -/
theorem clean_receive (hclean : AllClean h) {stream : HQUIC} {state : StreamState}
    (data : List UInt8) (fin : Bool)
    (hheeded : (resolveRole state.role (state.buf ++ data)).1 = .push
        ∨ (resolveRole state.role (state.buf ++ data)).1 = .decoder → state.buf ++ data = []) :
    AllClean (h.receive answered stream state data fin).1 := by
  rcases hrole : resolveRole state.role (state.buf ++ data) with ⟨role, buf⟩
  rw [hrole] at hheeded
  obtain ⟨fs, left, hsplits⟩ := Framing.splits_total nextFrame_incremental buf
  cases role with
  | unknown =>
    rw [receive_other hrole (.inl rfl)]
    refine hclean.update (fun s hs => ?_) _ _
    rw [← Option.some.inj hs]
    exact (congrArg nextFrame (unknown_of_resolveRole hrole).2.1).trans rfl
  | request =>
    rw [receive_request hrole hsplits]
    refine hclean.update (fun s hs => ?_) _ _
    rw [← Option.some.inj hs]
    exact hsplits.next_left
  | control =>
    rw [receive_control hrole hsplits]
    refine hclean.update (fun s hs => ?_) _ _
    rw [← Option.some.inj hs]
    exact hsplits.next_left
  | encoder =>
    rw [receive_encoder hrole]
    refine hclean.update (fun s hs => ?_) _ _
    rw [← Option.some.inj hs]
    rfl
  | push =>
    rw [receive_other hrole (.inr (.inl rfl))]
    refine hclean.update (fun s hs => ?_) _ _
    rw [← Option.some.inj hs]
    exact hheeded (.inl rfl)
  | decoder =>
    rw [receive_other hrole (.inr (.inr rfl))]
    refine hclean.update (fun s hs => ?_) _ _
    rw [← Option.some.inj hs]
    exact hheeded (.inr rfl)

theorem clean_step (hclean : AllClean h) (c : Call) (hok : Heeded h c) :
    AllClean ((calls answered).step h c).1 := by
  cases c with
  | peerStreamStarted stream unidirectional => exact clean_started hclean stream unidirectional
  | streamData stream data fin =>
    rcases hstate : h.streamStates stream with _ | state
    · simp only [calls, onStreamData, hstate]
      exact hclean
    · simp only [calls, onStreamData_of_state hstate]
      exact clean_receive hclean data fin (hok state hstate)
  | streamClosed stream => exact hclean.update (fun s hs => by cases hs) _ _

/-- What has been ignored is still there. -/
theorem heeded_of_keepsParts (c : Call) (h' : KeepsParts ((calls answered).step h c).1) :
    Heeded h c := by
  cases c with
  | peerStreamStarted stream unidirectional => trivial
  | streamClosed stream => trivial
  | streamData stream data fin =>
    intro state hstate hignored
    simp only [calls, onStreamData_of_state hstate] at h'
    rw [receive_other rfl (.inr hignored)] at h'
    have hkept := h' stream _ (put_state _ _ _)
    unfold KeepsPart at hkept
    rcases hignored with hrole | hrole
    · simpa only [noted, hrole] using hkept
    · simpa only [noted, hrole] using hkept

/-- In a run of calls from the start, the buffers hold only parts of frames, and nothing of the
streams that are ignored, exactly when no bytes come for the latter. -/
theorem keeps_only_parts_iff (answered : HQUIC → Bool) (es : List Call) :
    (calls answered).Always KeepsParts {} es ↔ (calls answered).Meets Heeded {} es := by
  refine Machine.always_iff_meets_of_inv (I := AllClean) (fun h c hclean => clean_step hclean c)
    (fun h hclean stream state hstate => (hclean stream state hstate).keepsPart)
    (fun h c _ => heeded_of_keepsParts c) es ?_
  intro stream state hstate
  cases hstate

/-- A push stream is never let go of. -/
theorem push_stream_kept : ¬ (calls fun _ => true).Always KeepsParts {}
    [.peerStreamStarted 1 true, .streamData 1 [0x01, 7, 7] false, .streamData 1 [7] false] := by
  intro h
  have hkept : ([0x01, 7, 7] : List UInt8) = [] := h.2.2.1 1 _ rfl
  cases hkept

end Http3Handler

end Http3

end NimRtc
