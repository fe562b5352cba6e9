import NimRtc.VideoReceiverRuns

/-!
# What a step of the video receiver changes

Only `track_seq` and `pop_nack_entries` touch the sequence numbers, and only `handle_payload` the
fragments. A unit is inserted by nothing but the last fragment of one.
-/

namespace NimRtc

namespace VideoReceiver

variable {r r' r'' : VideoReceiver}

/-- The receivers have seen the same sequence numbers. -/
structure SameSeq (r r' : VideoReceiver) : Prop where
  seqInitialised : r'.seqInitialised = r.seqInitialised
  highestSeq : r'.highestSeq = r.highestSeq
  expectedNext : r'.expectedNext = r.expectedNext
  pendingNacks : r'.pendingNacks = r.pendingNacks

/-- The receivers have the same unit in parts. -/
structure SameFua (r r' : VideoReceiver) : Prop where
  cfg : r'.cfg = r.cfg
  fuaInProgress : r'.fuaInProgress = r.fuaInProgress
  fuaNaluType : r'.fuaNaluType = r.fuaNaluType
  fuaNri : r'.fuaNri = r.fuaNri
  fuaBuf : r'.fuaBuf = r.fuaBuf

theorem SameSeq.trans (h : r.SameSeq r') (h' : r'.SameSeq r'') : r.SameSeq r'' :=
  ⟨h'.1.trans h.1, h'.2.trans h.2, h'.3.trans h.3, h'.4.trans h.4⟩

theorem SameFua.trans (h : r.SameFua r') (h' : r'.SameFua r'') : r.SameFua r'' :=
  ⟨h'.1.trans h.1, h'.2.trans h.2, h'.3.trans h.3, h'.4.trans h.4, h'.5.trans h.5⟩

theorem emitFrame_frame (r : VideoReceiver) (f : AssembledFrame) :
    ∃ stats, (r.emitFrame f).1 = { r with stats } := by
  rw [emitFrame]
  split
  · exact ⟨_, rfl⟩
  · exact ⟨_, rfl⟩

theorem drainRounds_frame (nowUs target : ℤ) : ∀ (fuel : ℕ) (r : VideoReceiver),
    ∃ stats jb, (drainRounds nowUs target fuel r).1 = { r with stats, jb }
  | 0, r => ⟨r.stats, r.jb, rfl⟩
  | fuel + 1, r => by
    simp only [drainRounds]
    split
    · exact ⟨r.stats, r.jb, rfl⟩
    · rename_i jb f _
      obtain ⟨stats, hemit⟩ := emitFrame_frame { r with jb } f
      obtain ⟨stats', jb', hrest⟩ := drainRounds_frame nowUs target fuel (emitFrame { r with jb } f).1
      refine ⟨stats', jb', ?_⟩
      rw [hrest, hemit]

theorem drainFrames_sameSeq (r : VideoReceiver) (nowUs target : ℤ) :
    r.SameSeq (r.drainFrames nowUs target).1 := by
  obtain ⟨_, _, h⟩ := drainRounds_frame nowUs target
    (r.jb.pendingIncomplete.length + r.jb.buckets.length) r
  rw [drainFrames, h]
  exact ⟨rfl, rfl, rfl, rfl⟩

theorem drainFrames_sameFua (r : VideoReceiver) (nowUs target : ℤ) :
    r.SameFua (r.drainFrames nowUs target).1 := by
  obtain ⟨_, _, h⟩ := drainRounds_frame nowUs target
    (r.jb.pendingIncomplete.length + r.jb.buckets.length) r
  rw [drainFrames, h]
  exact ⟨rfl, rfl, rfl, rfl, rfl⟩

theorem flushFua_frame (r : VideoReceiver) (marker : Bool) (arrivalUs : ℤ) :
    ∃ jb, (r.flushFua marker arrivalUs).1 = { r with jb } := by
  rw [flushFua]
  split
  · exact ⟨r.jb, rfl⟩
  · exact ⟨_, rfl⟩

/-- The receiver that takes the bytes of a fragment: the reassembly starts anew where the start bit
is set. -/
def begun (r : VideoReceiver) (h : H264.FuAHeader) (marker : Bool) (rtpTs : UInt32) :
    VideoReceiver :=
  let r := { r with stats := { r.stats with fuaFragmentsSeen := r.stats.fuaFragmentsSeen + 1 } }
  if h.fuHeader &&& 0x80 ≠ 0 then r.startFua h rtpTs marker else r

def takeFragment (r : VideoReceiver) (h : H264.FuAHeader) (marker : Bool) (arrivalUs : ℤ) :
    VideoReceiver × List ReceiverReport :=
  if !r.fuaInProgress then (r, [])
  else
    let r := { r with fuaBuf := r.fuaBuf ++ h.fragment }
    if h.fuHeader &&& 0x40 ≠ 0 then
      let (r, out) := r.flushFua marker arrivalUs
      ({ r with fuaInProgress := false, fuaBuf := [], fuaEndMarker := false }, out)
    else (r, [])

theorem handleFuA_eq (r : VideoReceiver) (h : H264.FuAHeader) (marker : Bool) (rtpTs : UInt32)
    (arrivalUs : ℤ) :
    r.handleFuA h marker rtpTs arrivalUs
      = (r.begun h marker rtpTs).takeFragment h marker arrivalUs := rfl

theorem begun_sameSeq (r : VideoReceiver) (h : H264.FuAHeader) (marker : Bool) (rtpTs : UInt32) :
    r.SameSeq (r.begun h marker rtpTs) := by
  simp only [begun]
  split
  · exact ⟨rfl, rfl, rfl, rfl⟩
  · exact ⟨rfl, rfl, rfl, rfl⟩

theorem begun_start {h : H264.FuAHeader} (hbit : h.fuHeader &&& 0x80 ≠ 0) (r : VideoReceiver)
    (marker : Bool) (rtpTs : UInt32) :
    (r.begun h marker rtpTs).fuaBuf = []
      ∧ (r.begun h marker rtpTs).fuaNaluType = h.fuHeader &&& H264.kNaluTypeMask
      ∧ (r.begun h marker rtpTs).fuaNri = (h.fuIndicator &&& H264.kNriMask) >>> 5
      ∧ (r.begun h marker rtpTs).cfg = r.cfg := by
  rw [begun, if_pos hbit]
  exact ⟨rfl, rfl, rfl, rfl⟩

theorem begun_next {h : H264.FuAHeader} (hbit : ¬ h.fuHeader &&& 0x80 ≠ 0) (r : VideoReceiver)
    (marker : Bool) (rtpTs : UInt32) : r.SameFua (r.begun h marker rtpTs) := by
  rw [begun, if_neg hbit]
  exact ⟨rfl, rfl, rfl, rfl, rfl⟩

theorem takeFragment_sameSeq (r : VideoReceiver) (h : H264.FuAHeader) (marker : Bool)
    (arrivalUs : ℤ) : r.SameSeq (r.takeFragment h marker arrivalUs).1 := by
  simp only [takeFragment]
  split
  · exact ⟨rfl, rfl, rfl, rfl⟩
  · split
    · obtain ⟨jb, hjb⟩ := flushFua_frame { r with fuaBuf := r.fuaBuf ++ h.fragment } marker arrivalUs
      simp only [hjb]
      exact ⟨rfl, rfl, rfl, rfl⟩
    · exact ⟨rfl, rfl, rfl, rfl⟩

theorem handlePayload_sameSeq (r : VideoReceiver) (payload : List UInt8) (marker : Bool)
    (rtpTs : UInt32) (arrivalUs : ℤ) :
    r.SameSeq (r.handlePayload payload marker rtpTs arrivalUs).1 := by
  simp only [handlePayload]
  split
  · split
    · exact ⟨rfl, rfl, rfl, rfl⟩
    · rw [handleFuA_eq]
      exact (begun_sameSeq _ _ _ _).trans (takeFragment_sameSeq _ _ _ _)
  · split
    · simp only [handleStapA]
      split
      · exact ⟨rfl, rfl, rfl, rfl⟩
      · exact ⟨rfl, rfl, rfl, rfl⟩
    · exact ⟨rfl, rfl, rfl, rfl⟩

theorem pushRtp_refused {packet : CachedPacket} (h : packet.payload = [] ∧ !packet.marker)
    (r : VideoReceiver) (nowUs target : ℤ) :
    ∃ stats, r.pushRtp packet nowUs target = ({ r with stats }, [], false) :=
  ⟨_, if_pos h⟩

/-- After a packet that is accepted the sequence numbers are those after `track_seq`. -/
theorem pushRtp_accepted {packet : CachedPacket} (h : ¬ (packet.payload = [] ∧ !packet.marker))
    (r : VideoReceiver) (nowUs target : ℤ) :
    (r.pushRtp packet nowUs target).2.2 = true
      ∧ ((r.trackSeq packet.seq).1).SameSeq (r.pushRtp packet nowUs target).1 := by
  rw [pushRtp, if_neg h]
  refine ⟨rfl, ?_⟩
  refine SameSeq.trans ?_ ((handlePayload_sameSeq _ _ _ _ _).trans (drainFrames_sameSeq _ _ _))
  simp only [trackSeq, lostNumbers]
  split
  · exact ⟨rfl, rfl, rfl, rfl⟩
  · split
    · exact ⟨rfl, rfl, rfl, rfl⟩
    · exact ⟨rfl, rfl, rfl, rfl⟩

theorem tick_sameSeq (r : VideoReceiver) (nowUs target : ℤ) :
    r.SameSeq (r.tick nowUs target).1 := by
  refine SameSeq.trans ?_ (drainFrames_sameSeq _ _ _)
  exact ⟨rfl, rfl, rfl, rfl⟩

end VideoReceiver

end NimRtc
