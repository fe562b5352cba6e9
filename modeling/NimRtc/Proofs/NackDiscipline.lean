import NimRtc.Proofs.ReceiverStep

/-!
# Numbers that are asked for again

`pending_nacks` holds the numbers that were passed over since the last call, so a number is asked for
once, and lacking then, as long as no packet comes late for a number that is waiting there and the
jitter buffer adds none of its own.
-/

namespace NimRtc

/-! ### Sequence numbers -/

theorem ofInt_toNat (x : UInt16) : UInt16.ofInt (x.toNat : ℤ) = x := by
  have hmod : ((x.toNat : ℤ) % 65536).toNat = x.toNat := by
    have := x.toNat_lt
    omega
  simp [UInt16.ofInt, hmod]

theorem ofInt_seqDelta (newer older : UInt16) :
    UInt16.ofInt (seqDelta newer older) = newer - older := by
  have hdiff : UInt16.ofInt ((newer.toNat : ℤ) - older.toNat) = newer - older := by
    rw [Int.sub_eq_add_neg, UInt16.ofInt_add, UInt16.ofInt_neg, ofInt_toNat, ofInt_toNat,
      UInt16.sub_eq_add_neg]
  have hback : ∀ d : ℤ, UInt16.ofInt (d - 65536) = UInt16.ofInt d := by
    intro d
    simp [UInt16.ofInt]
  have hforth : ∀ d : ℤ, UInt16.ofInt (d + 65536) = UInt16.ofInt d := by
    intro d
    simp [UInt16.ofInt]
  simp only [seqDelta]
  split_ifs <;> simp [hback, hforth, hdiff]

/-- The number nearest to `n` with a sequence number has that sequence number. -/
theorem ofInt_add_seqDelta (n : ℤ) (seq : UInt16) :
    UInt16.ofInt (n + seqDelta seq (UInt16.ofInt n)) = seq := by
  rw [UInt16.ofInt_add, ofInt_seqDelta, UInt16.add_comm, UInt16.sub_add_cancel]

/-! ### The jitter buffer -/

theorem foldl_nackStep : ∀ (seqs : List UInt16) (expected : UInt16) (lost : List UInt16),
    Gapless expected seqs →
      (seqs.foldl VideoJitterBuffer.nackStep (expected, lost)).2 = lost
  | [], _, _, _ => rfl
  | got :: seqs, expected, lost, ⟨hgot, hrest⟩ => by
    have hgap : (seqDelta got expected).toNat = 0 := by omega
    have hstep : VideoJitterBuffer.nackStep (expected, lost) got
        = (if seqDelta got expected = 0 then expected + 1 else expected, lost) := by
      simp [VideoJitterBuffer.nackStep, hgap]
    rw [List.foldl_cons, hstep]
    exact foldl_nackStep seqs _ lost hrest

theorem VideoJitterBuffer.popNackEntries_of_noGaps {s : VideoJitterBuffer} (h : s.NoGaps) :
    s.popNackEntries.2 = [] := by
  rw [popNackEntries]
  split
  · rfl
  · rename_i hemit
    have hemit : s.cfg.emitNacks = true := by simpa using hemit
    refine List.flatMap_eq_nil_iff.2 fun c hc => ?_
    obtain ⟨hmem, hnackable⟩ := List.mem_filter.1 hc
    obtain ⟨b, hb, rfl⟩ := List.mem_map.1 hmem
    have hb' : nackable b = true := by
      by_contra hno
      rw [sortSeqs, if_neg hno] at hnackable
      exact hno hnackable
    rw [sortSeqs, if_pos hb']
    exact foldl_nackStep _ _ _ (h hemit b hb hb')

/-! ### The log -/

namespace SeqLog

variable {g : SeqLog} {asked : List ℤ}

/-- `asked` are the numbers that were returned so far. -/
structure Inv (g : SeqLog) (asked : List ℤ) : Prop where
  pending : g.missing.map UInt16.ofInt = g.rx.pendingNacks
  start : g.rx.seqInitialised = false → g.received = [] ∧ g.missing = [] ∧ asked = []
  highest : g.rx.seqInitialised = true → g.rx.highestSeq = UInt16.ofInt g.newest
    ∧ g.rx.expectedNext = UInt16.ofInt (g.newest + 1) ∧ g.newest ∈ g.received
  le : ∀ m ∈ g.received, m ≤ g.newest
  lacks : ∀ n ∈ g.missing, g.Lacks n
  once : (asked ++ g.missing).Nodup
  past : ∀ n ∈ asked, n ≤ g.newest

theorem Inv.sameSeq (h : Inv g asked) {rx : VideoReceiver} (hrx : g.rx.SameSeq rx) :
    Inv { g with rx } asked where
  pending := by rw [hrx.pendingNacks, h.pending]
  start hstart := h.start (hrx.seqInitialised ▸ hstart)
  highest hinit := by
    show rx.highestSeq = _ ∧ rx.expectedNext = _ ∧ _
    rw [hrx.highestSeq, hrx.expectedNext]
    exact h.highest (hrx.seqInitialised ▸ hinit)
  le := h.le
  lacks := h.lacks
  once := h.once
  past := h.past

theorem mem_gap {n m : ℤ} (h : m ∈ g.gap n) : g.newest < m ∧ m < n := by
  rw [gap] at h
  split at h
  · obtain ⟨k, hk, rfl⟩ := List.mem_map.1 h
    have hk := List.mem_range.1 hk
    omega
  · simp at h

theorem nodup_gap (n : ℤ) : (g.gap n).Nodup := by
  rw [gap]
  split
  · refine List.nodup_range.map fun i j hij => ?_
    have hij : g.newest + 1 + (i : ℤ) = g.newest + 1 + (j : ℤ) := hij
    omega
  · exact List.nodup_nil

/-- The numbers in `pending_nacks` after `track_seq` are those of the log. -/
theorem map_gap (hinit : g.rx.seqInitialised = true)
    (hnext : g.rx.expectedNext = UInt16.ofInt (g.newest + 1)) (d : ℤ) :
    (g.gap (g.newest + d)).map UInt16.ofInt = g.rx.lostNumbers d := by
  have hlen : (g.newest + d - g.newest - 1).toNat = (d - 1).toNat := by congr 1; omega
  rw [gap, if_pos hinit, VideoReceiver.lostNumbers, List.map_map, hlen]
  refine List.map_congr_left fun k _ => ?_
  have hk : UInt16.ofInt (k : ℤ) = UInt16.ofNat k := by
    have hmod : ((k : ℤ) % 65536).toNat = k % 65536 := by omega
    simp [UInt16.ofInt, hmod, ← UInt16.toNat_inj]
  rw [hnext, Function.comp, UInt16.ofInt_add (g.newest + 1), hk]

theorem gap_eq_nil {n : ℤ} (h : n ≤ g.newest) : g.gap n = [] := by
  have hzero : (n - g.newest - 1).toNat = 0 := by omega
  simp [gap, hzero]

/-- `track_seq` notes what the log does. -/
theorem trackSeq_spec (h : Inv g asked) (seq : UInt16) :
    (g.rx.trackSeq seq).1.seqInitialised = true
      ∧ (g.rx.trackSeq seq).1.highestSeq = UInt16.ofInt (g.accept (g.number seq)).newest
      ∧ (g.rx.trackSeq seq).1.expectedNext = UInt16.ofInt ((g.accept (g.number seq)).newest + 1)
      ∧ (g.accept (g.number seq)).missing.map UInt16.ofInt
          = (g.rx.trackSeq seq).1.pendingNacks := by
  by_cases hinit : g.rx.seqInitialised = true
  · obtain ⟨hhigh, hnext, -⟩ := h.highest hinit
    have hseq : UInt16.ofInt (g.newest + seqDelta seq g.rx.highestSeq) = seq := by
      rw [hhigh]
      exact ofInt_add_seqDelta _ _
    simp only [VideoReceiver.trackSeq, accept, number, hinit, if_true, Bool.not_true,
      Bool.false_eq_true, if_false]
    by_cases hd : seqDelta seq g.rx.highestSeq ≤ 0
    · have hmax : max g.newest (g.newest + seqDelta seq g.rx.highestSeq) = g.newest := by omega
      rw [if_pos hd, hmax, gap_eq_nil (by omega), List.append_nil]
      exact ⟨hinit, hhigh, hnext, h.pending⟩
    · have hmax : max g.newest (g.newest + seqDelta seq g.rx.highestSeq)
          = g.newest + seqDelta seq g.rx.highestSeq := by omega
      rw [if_neg hd, hmax, List.map_append, map_gap hinit hnext, h.pending, UInt16.ofInt_add _ 1,
        hseq]
      exact ⟨rfl, rfl, rfl, rfl⟩
  · have hinit : g.rx.seqInitialised = false := by simpa using hinit
    obtain ⟨-, hmissing, -⟩ := h.start hinit
    have hpending : g.rx.pendingNacks = [] := by rw [← h.pending, hmissing]; rfl
    simp [VideoReceiver.trackSeq, accept, number, gap, hinit, ofInt_toNat, hmissing, hpending]

theorem newest_le_accept (n : ℤ) (hinit : g.rx.seqInitialised = true) :
    g.newest ≤ (g.accept n).newest := by
  simp only [accept, if_pos hinit]
  exact le_max_left _ _

/-- What is missing after a packet that does not come late for a number that is waiting. -/
theorem accept_lacks (h : Inv g asked) {n : ℤ} (hn : n ∉ g.missing) :
    ∀ m ∈ (g.accept n).missing, (g.accept n).Lacks m := by
  intro m hm
  by_cases hinit : g.rx.seqInitialised = true
  · have hnewest := newest_le_accept n hinit
    rcases List.mem_append.1 hm with hm | hm
    · obtain ⟨hlt, ⟨p, hp, hpm⟩, hnot⟩ := h.lacks m hm
      refine ⟨by omega, ⟨p, List.mem_append_left _ hp, hpm⟩, fun hin => ?_⟩
      rcases List.mem_append.1 hin with hin | hin
      · exact hnot hin
      · exact hn (List.mem_singleton.1 hin ▸ hm)
    · -- a number of the gap is past every number received before it
      obtain ⟨hlow, hhigh⟩ := mem_gap hm
      have hmax : (g.accept n).newest = n := by
        simp only [accept, if_pos hinit]
        omega
      refine ⟨by omega, ⟨g.newest, List.mem_append_left _ (h.highest hinit).2.2, hlow⟩,
        fun hin => ?_⟩
      rcases List.mem_append.1 hin with hin | hin
      · have := h.le m hin
        omega
      · have := List.mem_singleton.1 hin
        omega
  · have hinit : g.rx.seqInitialised = false := by simpa using hinit
    have hnil : (g.accept n).missing = [] := by simp [accept, gap, hinit, (h.start hinit).2.1]
    rw [hnil] at hm
    simp at hm

theorem accept_once (h : Inv g asked) (n : ℤ) : (asked ++ (g.accept n).missing).Nodup := by
  have hnew : ∀ m ∈ asked ++ g.missing, m ≤ g.newest := by
    intro m hm
    rcases List.mem_append.1 hm with hm | hm
    · exact h.past m hm
    · exact le_of_lt (h.lacks m hm).1
  show (asked ++ (g.missing ++ g.gap n)).Nodup
  rw [← List.append_assoc]
  refine List.nodup_append.2 ⟨h.once, nodup_gap n, fun m hm m' hm' heq => ?_⟩
  have hle := hnew m hm
  have hlt := (mem_gap hm').1
  omega

theorem Inv.accept (h : Inv g asked) {packet : CachedPacket} (hn : g.number packet.seq ∉ g.missing)
    {rx : VideoReceiver} (hrx : (g.rx.trackSeq packet.seq).1.SameSeq rx) :
    Inv { g.accept (g.number packet.seq) with rx } asked := by
  obtain ⟨hinit, hhigh, hnext, hpending⟩ := trackSeq_spec h packet.seq
  have hle : ∀ m ∈ (g.accept (g.number packet.seq)).received,
      m ≤ (g.accept (g.number packet.seq)).newest := by
    intro m hm
    by_cases hstarted : g.rx.seqInitialised = true
    · rcases List.mem_append.1 hm with hm | hm
      · exact le_trans (h.le m hm) (newest_le_accept _ hstarted)
      · simp only [SeqLog.accept, if_pos hstarted, List.mem_singleton.1 hm]
        exact le_max_right _ _
    · have hstarted : g.rx.seqInitialised = false := by simpa using hstarted
      simp only [SeqLog.accept, (h.start hstarted).1, List.nil_append, List.mem_singleton] at hm
      simp [SeqLog.accept, hstarted, hm]
  refine ⟨?_, fun hno => ?_, fun _ => ⟨?_, ?_, ?_⟩, hle, accept_lacks h hn, accept_once h _,
    fun m hm => ?_⟩
  · rw [hpending, hrx.pendingNacks]
  · have hno : rx.seqInitialised = false := hno
    rw [hrx.seqInitialised, hinit] at hno
    simp at hno
  · exact hrx.highestSeq.trans hhigh
  · exact hrx.expectedNext.trans hnext
  · show (g.accept (g.number packet.seq)).newest ∈ (g.accept (g.number packet.seq)).received
    simp only [SeqLog.accept]
    split
    · rename_i hstarted
      rcases max_choice g.newest (g.number packet.seq) with hmax | hmax
      · rw [hmax]
        exact List.mem_append_left _ (h.highest hstarted).2.2
      · rw [hmax]
        simp
    · simp
  · by_cases hstarted : g.rx.seqInitialised = true
    · exact le_trans (h.past m hm) (newest_le_accept _ hstarted)
    · have hstarted : g.rx.seqInitialised = false := by simpa using hstarted
      rw [(h.start hstarted).2.2] at hm
      simp at hm

theorem inv_pushRtp (h : Inv g asked) {packet : CachedPacket} {nowUs target : ℤ}
    (hok : ReceiverCall.Reconciled g (.pushRtp packet nowUs target)) :
    Inv (g.step (.pushRtp packet nowUs target)).1 asked := by
  simp only [step]
  by_cases hrefused : packet.payload = [] ∧ !packet.marker
  · obtain ⟨stats, hpush⟩ := VideoReceiver.pushRtp_refused hrefused g.rx nowUs target
    rw [hpush]
    exact h.sameSeq ⟨rfl, rfl, rfl, rfl⟩
  · obtain ⟨haccepted, hseq⟩ := VideoReceiver.pushRtp_accepted hrefused g.rx nowUs target
    rw [haccepted]
    exact h.accept (hok hrefused) hseq

theorem inv_popNackEntries (h : Inv g asked) :
    Inv (g.step .popNackEntries).1 (asked ++ g.missing) := by
  have hpast : ∀ n ∈ asked ++ g.missing, n ≤ g.newest := by
    intro n hn
    rcases List.mem_append.1 hn with hn | hn
    · exact h.past n hn
    · exact le_of_lt (h.lacks n hn).1
  refine ⟨rfl, fun hstart => ?_, h.highest, h.le, ?_, ?_, hpast⟩
  · obtain ⟨hreceived, hmissing, hasked⟩ := h.start hstart
    exact ⟨hreceived, rfl, by rw [hasked, hmissing]; rfl⟩
  · intro n hn
    simp [step] at hn
  · simpa [step] using h.once

theorem inv_create (cfg : ReceiverConfig) : Inv { rx := { cfg } } [] :=
  ⟨rfl, fun _ => ⟨rfl, rfl, rfl⟩, by simp, by simp, by simp, List.nodup_nil, by simp⟩

/-- What is returned along a run, after `asked`. -/
theorem asks_from : ∀ (calls : List (ReceiverCall CachedPacket)) {g : SeqLog} {asked : List ℤ},
    Inv g asked → (∀ call ∈ calls, call ≠ .reset) →
    machine.Meets (fun g call => call.Reconciled g) g calls →
      ∃ later : List (List ℤ),
        List.Forall₂ (fun report ns => ns.map UInt16.ofInt = report.2
          ∧ ∀ n ∈ ns, report.1.Lacks n) (machine.exec g calls).2 later
        ∧ (asked ++ later.flatten).Nodup
  | [], _, _, h, _, _ => ⟨[], .nil, by simpa using (List.nodup_append.1 h.once).1⟩
  | call :: calls, g, asked, h, hreset, hmeets => by
    have hcalls : ∀ c ∈ calls, c ≠ .reset := fun c hc => hreset c (List.mem_cons_of_mem _ hc)
    obtain ⟨hok, hmeets⟩ := (Machine.meets_cons _ _ _ _ _).1 hmeets
    rw [Machine.exec_cons]
    cases call with
    | pushRtp packet nowUs target => exact asks_from calls (inv_pushRtp h hok) hcalls hmeets
    | tick nowUs target =>
      exact asks_from calls (h.sameSeq (g.rx.tick_sameSeq nowUs target)) hcalls hmeets
    | reset => exact absurd rfl (hreset _ List.mem_cons_self)
    | popNackEntries =>
      obtain ⟨later, hlater, hnodup⟩ := asks_from calls (inv_popNackEntries h) hcalls hmeets
      have hnone := VideoJitterBuffer.popNackEntries_of_noGaps hok
      have hout : g.rx.popNackEntries.2 = g.rx.pendingNacks := by
        simp [VideoReceiver.popNackEntries, hnone]
      refine ⟨g.missing :: later, .cons ⟨h.pending.trans hout.symm, h.lacks⟩ hlater, ?_⟩
      simpa using hnodup

/-- Along a run whose packets do not come late for a number that is waiting, and whose jitter buffer
has no gaps when the numbers are returned, each number that is returned is one that the receiver
lacks, and none is returned twice. -/
theorem nacks_asked_once (cfg : ReceiverConfig) (calls : List (ReceiverCall CachedPacket))
    (hreset : ∀ call ∈ calls, call ≠ .reset)
    (hok : machine.Meets (fun g call => call.Reconciled g) { rx := { cfg } } calls) :
    AsksOnce (machine.exec { rx := { cfg } } calls).2 := by
  obtain ⟨asked, hasked, hnodup⟩ := asks_from calls (inv_create cfg) hreset hok
  exact ⟨asked, hasked, by simpa using hnodup⟩

/-- Two packets of two frames, between which two are lost, then what `late` is, and the numbers that
are lost. -/
def lossyRun (late : List (ReceiverCall CachedPacket)) : List (ReceiverCall CachedPacket) :=
  [.pushRtp ⟨10, 3000, true, [0x41]⟩ 0 0, .pushRtp ⟨13, 6000, true, [0x41]⟩ 33000 0] ++ late
    ++ [.popNackEntries]

def latePush : ReceiverCall CachedPacket := .pushRtp ⟨11, 3000, false, [0x41]⟩ 40000 0

theorem nacks_asked_once_late :
    (machine.exec { rx := { cfg := {} } } (lossyRun [.popNackEntries, latePush])).2.map (·.2)
        = [[11, 12], []]
      ∧ AsksOnce (machine.exec { rx := { cfg := {} } } (lossyRun [.popNackEntries, latePush])).2 :=
  ⟨by decide, nacks_asked_once {} (lossyRun [.popNackEntries, latePush])
    (by simp [lossyRun, latePush]) (by decide)⟩

theorem received_number_asked_for :
    ¬ ∀ cfg calls, (∀ call ∈ calls, call ≠ ReceiverCall.reset) →
      AsksOnce (machine.exec { rx := { cfg } } calls).2 := by
  intro h
  obtain ⟨asked, hasked, -⟩ := h {} (lossyRun [latePush]) (by simp [lossyRun, latePush])
  have hout : (machine.exec { rx := { cfg := {} } } (lossyRun [latePush])).2.map
      (fun report => (report.1.newest, report.1.received, report.2))
        = [(13, [10, 13, 11], [11, 12])] := by decide
  obtain ⟨report, hreport, hone⟩ := List.map_eq_singleton_iff.1 hout
  rw [hreport] at hasked
  simp only [Prod.mk.injEq] at hone
  obtain ⟨hnewest, hreceived, hreturned⟩ := hone
  cases hasked with
  | cons hns _ =>
    obtain ⟨hwire, hlacks⟩ := hns
    rw [hreturned] at hwire
    obtain ⟨n, rest, rfl, hn, -⟩ := List.map_eq_cons_iff.1 hwire
    obtain ⟨hlt, ⟨m, hm, hmn⟩, hnot⟩ := hlacks n List.mem_cons_self
    rw [hnewest] at hlt
    rw [hreceived] at hm hnot
    simp only [List.mem_cons, List.not_mem_nil, or_false] at hm hnot
    have hn' : n = 12 := by omega
    rw [hn'] at hn
    exact absurd hn (by decide)

end SeqLog

end NimRtc
