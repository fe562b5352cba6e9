import NimRtc.FramePlayout
import NimRtc.Proofs.FrameIntegrity

/-!
# A frame is returned at most once

A bucket whose frame is not handed out has a timestamp that was not assembled yet. Assembling the
frame makes the bucket a tombstone, and a new bucket is only opened for a timestamp that was not
assembled.
-/

namespace NimRtc

/-- The buckets have timestamps of their own, no timestamp was assembled twice, and the buckets that
are still to be handed out were not assembled. -/
structure AssembledOnce (buckets : List FrameBucket) (assembled : List UInt32) : Prop where
  keys : (buckets.map (·.rtpTimestamp)).Nodup
  once : assembled.Nodup
  live : ∀ b ∈ buckets, b.emitted = false → b.rtpTimestamp ∉ assembled

theorem ne_of_nodup_keys {done rest : List FrameBucket} {b c : FrameBucket}
    (hkeys : ((done ++ b :: rest).map (·.rtpTimestamp)).Nodup) (hc : c ∈ done ++ rest) :
    c.rtpTimestamp ≠ b.rtpTimestamp := by
  intro heq
  rw [List.map_append, List.map_cons, List.nodup_middle, ← List.map_append] at hkeys
  exact hkeys.notMem (heq ▸ List.mem_map_of_mem hc)

namespace AssembledOnce

variable {buckets buckets' : List FrameBucket} {assembled : List UInt32}

theorem sublist (h : AssembledOnce buckets assembled) (hsub : buckets'.Sublist buckets) :
    AssembledOnce buckets' assembled :=
  ⟨h.keys.sublist (hsub.map _), h.once, fun b hb => h.live b (hsub.subset hb)⟩

/-- Buckets that change in place, with their timestamps and tombstones kept. -/
theorem map (h : AssembledOnce buckets assembled) (f : FrameBucket → FrameBucket)
    (hts : ∀ b, (f b).rtpTimestamp = b.rtpTimestamp)
    (hemitted : ∀ b ∈ buckets, (f b).emitted = b.emitted) :
    AssembledOnce (buckets.map f) assembled := by
  refine ⟨?_, h.once, fun c hc hlive => ?_⟩
  · have hkeys : (buckets.map f).map (·.rtpTimestamp) = buckets.map (·.rtpTimestamp) := by
      rw [List.map_map]
      exact List.map_congr_left fun b _ => hts b
    rw [hkeys]
    exact h.keys
  · obtain ⟨b, hb, rfl⟩ := List.mem_map.1 hc
    rw [hts]
    exact h.live b hb (hemitted b hb ▸ hlive)

theorem insert (h : AssembledOnce buckets assembled) {b : FrameBucket}
    (hkey : b.rtpTimestamp ∉ buckets.map (·.rtpTimestamp)) (hnew : b.rtpTimestamp ∉ assembled) :
    AssembledOnce
      (buckets.orderedInsert (fun a b => a.rtpTimestamp ≤ b.rtpTimestamp) b) assembled := by
  refine ⟨?_, h.once, fun c hc hlive => ?_⟩
  · have hperm := (List.perm_orderedInsert
      (fun a b : FrameBucket => a.rtpTimestamp ≤ b.rtpTimestamp) b buckets).map (·.rtpTimestamp)
    exact hperm.nodup_iff.2 (List.nodup_cons.2 ⟨hkey, h.keys⟩)
  · rcases (List.mem_orderedInsert _).1 hc with rfl | hc
    · exact hnew
    · exact h.live c hc hlive

/-- The frame of a bucket is assembled, and the bucket becomes a tombstone. -/
theorem assemble {done rest : List FrameBucket} {b : FrameBucket}
    (h : AssembledOnce (done ++ b :: rest) assembled) (hlive : b.emitted = false) :
    AssembledOnce (done ++ b.handedOut :: rest) (assembled ++ [b.rtpTimestamp]) := by
  have hb : b.rtpTimestamp ∉ assembled := h.live b (by simp) hlive
  refine ⟨by simpa [FrameBucket.handedOut] using h.keys, ?_, fun c hc hlive' => ?_⟩
  · rw [← List.concat_eq_append, List.nodup_concat]
    exact ⟨hb, h.once⟩
  · -- the tombstone is not one of the buckets to hand out, and no other has its timestamp
    have hc' : c ∈ done ++ rest := by
      rcases List.mem_append.1 hc with hc | hc
      · exact List.mem_append_left _ hc
      · rcases List.mem_cons.1 hc with rfl | hc
        · simp [FrameBucket.handedOut] at hlive'
        · exact List.mem_append_right _ hc
    have hin : c ∈ done ++ b :: rest := by
      rcases List.mem_append.1 hc' with hc | hc
      · exact List.mem_append_left _ hc
      · exact List.mem_append_right _ (List.mem_cons_of_mem _ hc)
    intro hmem
    rcases List.mem_append.1 hmem with hmem | hmem
    · exact h.live c hin hlive' hmem
    · exact ne_of_nodup_keys h.keys hc' (List.mem_singleton.1 hmem)

end AssembledOnce

namespace Playout

/-- What holds along a run whose late packets find their tombstones. -/
def Inv (p : Playout) : Prop := AssembledOnce p.jb.buckets p.assembled

variable {p : Playout}

/-! ### Inserting -/

theorem setBucket_once {s : VideoJitterBuffer} {assembled : List UInt32} {b : FrameBucket}
    (h : AssembledOnce s.buckets assembled)
    (hb : ∀ c ∈ s.buckets, c.rtpTimestamp = b.rtpTimestamp → b.emitted = c.emitted) :
    AssembledOnce (s.setBucket b).buckets assembled := by
  refine h.map _ (fun c => ?_) fun c hc => ?_
  · split
    · rename_i heq
      exact heq.symm
    · rfl
  · split
    · rename_i heq
      exact hb c hc heq
    · rfl

theorem findBucket_eq_none {s : VideoJitterBuffer} {ts : UInt32} (h : s.findBucket ts = none) :
    ts ∉ s.buckets.map (·.rtpTimestamp) := by
  intro hmem
  obtain ⟨b, hb, hts⟩ := List.mem_map.1 hmem
  have hno := List.find?_eq_none.1 h b hb
  simp [hts] at hno

theorem findBucket_unique {s : VideoJitterBuffer} {assembled : List UInt32} {ts : UInt32}
    {b c : FrameBucket} (h : AssembledOnce s.buckets assembled) (hfind : s.findBucket ts = some b)
    (hc : c ∈ s.buckets) (hts : c.rtpTimestamp = ts) : c = b := by
  have hb : b.rtpTimestamp = ts := by simpa using List.find?_some hfind
  exact List.inj_on_of_nodup_map h.keys hc (List.mem_of_find?_eq_some hfind) (hts.trans hb.symm)

/-- The bucket that is found or created is the only one with its timestamp. -/
theorem findOrCreateBucket_once {s : VideoJitterBuffer} {assembled : List UInt32}
    {pkt : InboundPacket} (h : AssembledOnce s.buckets assembled)
    (hnew : pkt.rtpTimestamp ∈ assembled → (s.findBucket pkt.rtpTimestamp).isSome) :
    AssembledOnce (s.findOrCreateBucket pkt).1.buckets assembled
      ∧ (s.findOrCreateBucket pkt).2.rtpTimestamp = pkt.rtpTimestamp
      ∧ ∀ c ∈ (s.findOrCreateBucket pkt).1.buckets, c.rtpTimestamp = pkt.rtpTimestamp →
          c = (s.findOrCreateBucket pkt).2 := by
  rcases hfind : s.findBucket pkt.rtpTimestamp with _ | b
  · have hfresh : pkt.rtpTimestamp ∉ assembled := by
      intro hmem
      have hsome := hnew hmem
      rw [hfind] at hsome
      simp at hsome
    have hsub := (s.enforceInflightCap_frame 1).1
    have hkey : pkt.rtpTimestamp ∉ (s.enforceInflightCap 1).buckets.map (·.rtpTimestamp) :=
      fun hmem => findBucket_eq_none hfind ((hsub.map _).subset hmem)
    simp only [VideoJitterBuffer.findOrCreateBucket, hfind, VideoJitterBuffer.observeFrame]
    refine ⟨(h.sublist hsub).insert hkey hfresh, rfl, fun c hc hts => ?_⟩
    rcases (List.mem_orderedInsert _).1 hc with rfl | hc
    · rfl
    · exact absurd (List.mem_map.2 ⟨c, hc, hts⟩) hkey
  · simp only [VideoJitterBuffer.findOrCreateBucket, hfind]
    exact ⟨h, by simpa using List.find?_some hfind, fun c hc hts => findBucket_unique h hfind hc hts⟩

theorem insert_once {s : VideoJitterBuffer} {assembled : List UInt32} {pkt : InboundPacket}
    (h : AssembledOnce s.buckets assembled)
    (hnew : pkt.Accepted → pkt.rtpTimestamp ∈ assembled →
      (s.findBucket pkt.rtpTimestamp).isSome) :
    AssembledOnce (s.insert pkt).1.buckets assembled := by
  rw [VideoJitterBuffer.insert]
  split
  · exact h
  · rename_i haccepted
    let s₁ : VideoJitterBuffer :=
      { s with stats := { s.stats with packetsInserted := s.stats.packetsInserted + 1 } }
    have h₁ : AssembledOnce s₁.buckets assembled := h
    obtain ⟨honce, hts, huniq⟩ := findOrCreateBucket_once h₁ (hnew haccepted)
    refine setBucket_once honce fun c hc hcts => ?_
    rw [FrameBucket.receive_rtpTimestamp] at hcts
    rw [FrameBucket.receive_emitted, huniq c hc (hcts.trans hts)]

/-! ### Emitting -/

/-- A bucket with a timestamp of its own is replaced in its place. -/
theorem setBucket_split {s : VideoJitterBuffer} {b c : FrameBucket}
    (hkeys : (s.buckets.map (·.rtpTimestamp)).Nodup) (hb : b ∈ s.buckets)
    (hc : c.rtpTimestamp = b.rtpTimestamp) :
    ∃ done rest, s.buckets = done ++ b :: rest ∧ (s.setBucket c).buckets = done ++ c :: rest := by
  obtain ⟨done, rest, hsplit⟩ := List.append_of_mem hb
  refine ⟨done, rest, hsplit, ?_⟩
  have hsame : ∀ l : List FrameBucket, l ⊆ done ++ rest →
      l.map (fun d => if d.rtpTimestamp = c.rtpTimestamp then c else d) = l := by
    intro l hl
    refine (List.map_congr_left fun d hd => ?_).trans (List.map_id l)
    rw [hsplit] at hkeys
    exact if_neg (hc ▸ ne_of_nodup_keys hkeys (hl hd))
  show s.buckets.map _ = _
  rw [hsplit, List.map_append, List.map_cons, if_pos hc.symm,
    hsame done (List.subset_append_left _ _), hsame rest (List.subset_append_right _ _)]

theorem inv_popReady (h : p.Inv) (gateUs target : ℤ) :
    Inv ⟨(p.jb.popReady gateUs target).1,
      p.returned ++ (p.jb.popReady gateUs target).2.toList⟩ := by
  simp only [VideoJitterBuffer.popReady]
  split
  · rename_i out rest hpending
    -- the frame goes from the pending ones to the returned ones
    have hsame : assembled ⟨{ p.jb with pendingIncomplete := rest }, p.returned ++ [out]⟩
        = p.assembled := by
      simp [assembled, hpending]
    show AssembledOnce _ _
    simp only [Option.toList_some, hsame]
    exact h
  · rename_i hpending
    split
    · simpa using h
    · rename_i b hready
      obtain ⟨hb, hlive, -⟩ := VideoJitterBuffer.nextReady_spec hready
      obtain ⟨done, rest, hsplit, hset⟩ := setBucket_split (c := b.handedOut) h.keys hb rfl
      have hassembled : p.assembled = p.returned.map (·.rtpTimestamp) := by
        simp [assembled, hpending]
      have honce : AssembledOnce (done ++ b :: rest) p.assembled := hsplit ▸ h
      have hnext := honce.assemble hlive
      rw [hassembled, ← hset] at hnext
      have hreturned : assembled ⟨p.jb.setBucket b.handedOut,
          p.returned ++ [(p.jb.makeAssembled b).2]⟩
            = p.returned.map (·.rtpTimestamp) ++ [b.rtpTimestamp] := by
        simp [assembled, hpending, VideoJitterBuffer.setBucket, VideoJitterBuffer.makeAssembled]
      rw [← hreturned] at hnext
      exact hnext

/-- One round of the loop of `tick`, with the buckets that it has passed and those to come. -/
theorem tickBucket_once {s : VideoJitterBuffer} {returned : List AssembledFrame} {nowUs : ℤ}
    {b : FrameBucket} {rest : List FrameBucket}
    (h : AssembledOnce (s.buckets ++ b :: rest) (assembled ⟨s, returned⟩)) :
    AssembledOnce ((s.tickBucket nowUs b).buckets ++ rest)
      (assembled ⟨s.tickBucket nowUs b, returned⟩) := by
  simp only [VideoJitterBuffer.tickBucket]
  split
  · exact h.sublist ((List.sublist_cons_self b rest).append_left s.buckets)
  · rename_i hemitted
    split
    · have hnext := h.assemble (Bool.not_eq_true _ ▸ hemitted)
      simpa [assembled, VideoJitterBuffer.makeAssembled] using hnext
    · simpa [assembled] using h

theorem foldl_tickBucket_once {returned : List AssembledFrame} {nowUs : ℤ} :
    ∀ (bs : List FrameBucket) {s : VideoJitterBuffer},
      AssembledOnce (s.buckets ++ bs) (assembled ⟨s, returned⟩) →
        Inv ⟨bs.foldl (VideoJitterBuffer.tickBucket nowUs) s, returned⟩
  | [], s, h => by simpa [Inv] using h
  | _ :: bs, _, h => foldl_tickBucket_once bs (tickBucket_once h)

theorem inv_tick (h : p.Inv) (nowUs : ℤ) : Inv ⟨p.jb.tick nowUs, p.returned⟩ := by
  have hfold : Inv ⟨p.jb.buckets.foldl (VideoJitterBuffer.tickBucket nowUs)
      { p.jb with buckets := [] }, p.returned⟩ := foldl_tickBucket_once p.jb.buckets h
  obtain ⟨hsub, hpending⟩ := VideoJitterBuffer.enforceInflightCap_frame
    (p.jb.buckets.foldl (VideoJitterBuffer.tickBucket nowUs) { p.jb with buckets := [] }) 0
  show AssembledOnce _ _
  rw [assembled, VideoJitterBuffer.tick, hpending]
  exact hfold.sublist hsub

theorem inv_popNackEntries (h : p.Inv) : Inv ⟨p.jb.popNackEntries.1, p.returned⟩ := by
  rw [VideoJitterBuffer.popNackEntries]
  split
  · exact h
  · refine AssembledOnce.map h _ (fun b => ?_) fun b _ => ?_
    · rw [VideoJitterBuffer.sortSeqs]
      split <;> rfl
    · rw [VideoJitterBuffer.sortSeqs]
      split <;> rfl

/-! ### Runs -/

theorem insert_pendingIncomplete (s : VideoJitterBuffer) (pkt : InboundPacket) :
    (s.insert pkt).1.pendingIncomplete = s.pendingIncomplete := by
  rw [VideoJitterBuffer.insert]
  split
  · rfl
  · exact (VideoJitterBuffer.findOrCreateBucket_spec
      { s with stats := { s.stats with packetsInserted := s.stats.packetsInserted + 1 } } pkt).2.2

theorem inv_step (h : p.Inv) {call : JitterCall} (hreset : call ≠ .reset)
    (hok : call.FindsTombstone p) : (p.step call).1.Inv := by
  cases call with
  | insert pkt =>
    have honce := insert_once h hok
    simpa [step, VideoJitterBuffer.step, Inv, assembled, insert_pendingIncomplete] using honce
  | popFrame => exact inv_popReady h (-1) 0
  | popFrameAt nowUs target => exact inv_popReady h nowUs target
  | popNackEntries => simpa [step, VideoJitterBuffer.step] using inv_popNackEntries h
  | tick nowUs => simpa [step, VideoJitterBuffer.step] using inv_tick h nowUs
  | reset => exact absurd rfl hreset

theorem exec_returned : ∀ (calls : List JitterCall) (p : Playout),
    (machine.exec p calls).1.returned
      = p.returned ++ (VideoJitterBuffer.machine.exec p.jb calls).2
  | [], p => by simp
  | call :: calls, p => by
    rw [Machine.exec_cons, Machine.exec_cons]
    show (machine.exec (p.step call).1 calls).1.returned = _
    rw [exec_returned calls]
    simp [step, VideoJitterBuffer.machine]

/-- Along a run without `reset` whose late packets find their tombstones, no two frames that are
returned have the same timestamp. -/
theorem frames_returned_once (cfg : JitterConfig) (calls : List JitterCall)
    (hreset : ∀ call ∈ calls, call ≠ .reset)
    (hlate : machine.Meets (fun p call => call.FindsTombstone p)
      { jb := VideoJitterBuffer.create cfg } calls) :
    ((VideoJitterBuffer.frames cfg calls).map (·.rtpTimestamp)).Nodup := by
  have hstart : Inv { jb := VideoJitterBuffer.create cfg } :=
    ⟨List.nodup_nil, List.nodup_nil, by simp [VideoJitterBuffer.create]⟩
  have hmeets := (Machine.meets_of_forall_mem (M := machine) hreset).and hlate
  have hrun : (machine.exec { jb := VideoJitterBuffer.create cfg } calls).1.Inv :=
    Machine.exec_keeps (I := Inv) (fun _ _ h hok => inv_step h hok.1 hok.2) calls hstart hmeets
  have hreturned := exec_returned calls { jb := VideoJitterBuffer.create cfg }
  have honce := hrun.once
  rw [assembled, List.map_append, hreturned, List.nil_append] at honce
  exact (List.nodup_append.1 honce).1

def stillFrame : SentFrame where
  ssrc := 7
  rtpTimestamp := 3000
  firstSeq := 10
  codec := .vp8
  payloads := [[1], [2]]

/-- The second packet is sent again after the frame was returned. -/
def lateRun (reap : List JitterCall) : List JitterCall :=
  [.insert ⟨stillFrame, 0, 0, by decide⟩, .insert ⟨stillFrame, 1, 10, by decide⟩, .popFrame] ++ reap
    ++ [.insert ⟨stillFrame, 1, 30, by decide⟩, .popFrame, .tick 40, .popFrame]

theorem frames_returned_once_late :
    (VideoJitterBuffer.frames {} (lateRun [])).map (·.rtpTimestamp) = [3000]
      ∧ ((VideoJitterBuffer.frames {} (lateRun [])).map (·.rtpTimestamp)).Nodup :=
  ⟨by decide, frames_returned_once {} (lateRun []) (by simp [lateRun]) (by decide)⟩

theorem reaped_frame_returned_twice :
    ¬ ∀ cfg calls, (∀ call ∈ calls, call ≠ JitterCall.reset) →
      ((VideoJitterBuffer.frames cfg calls).map (·.rtpTimestamp)).Nodup := by
  intro h
  have htwice : (VideoJitterBuffer.frames {} (lateRun [.tick 20])).map (·.rtpTimestamp)
      = [3000, 3000] := by decide
  have hnodup := h {} (lateRun [.tick 20]) (by simp [lateRun])
  rw [htwice] at hnodup
  simp at hnodup

end Playout

end NimRtc
