import NimRtc.Proofs.DtlsStep

/-!
# Connected means keyed

A rehandshake drops the key slot and `export_srtp_keys` writes into the slot only if there is
one, so no handshake after a rehandshake leaves keys behind. The exported bytes are split at the
offsets of a 16-byte key and a 14-byte salt whatever the profile is. A session that is connected
has the keys of its last handshake in every state of a run exactly when no handshake completes
after a rehandshake or with another profile's lengths.
-/

namespace NimRtc

namespace SrtpKeyingMaterial

/-- The split reads only exported bytes and gives the fields as they were exported. -/
def SplitsRight (x : SrtpExport) (beyond : List UInt8) : Prop :=
  (∀ s ∈ Span.all, s.Inside x.bytes.length) ∧ split x.bytes beyond = x.keyingMaterial

variable {x : SrtpExport} {p : SrtpProfile}

theorem length_bytes (h : x.Fits p) : x.bytes.length = 2 * p.keyLen + 2 * p.saltLen := by
  obtain ⟨h₁, h₂, h₃, h₄⟩ := h
  simp only [SrtpExport.bytes, List.length_append, h₁, h₂, h₃, h₄]
  omega

/-- A span of the length of `field` that starts where `field` does reads it. -/
theorem read_append (before field after : List UInt8) {s : Span} (hoff : s.offset = before.length)
    (hsize : s.size = field.length) : s.read (before ++ field ++ after) = field := by
  unfold Span.read
  refine List.ext_getElem (by simp [hsize]) fun i h₁ h₂ => ?_
  rw [List.getElem_map, List.getElem_range, hoff, List.append_assoc,
    List.getD_append_right _ _ _ _ (Nat.le_add_right _ _), Nat.add_sub_cancel_left,
    List.getD_append _ _ _ _ h₂, List.getD_eq_getElem _ _ h₂]

theorem split_of_lengths (h : x.Fits p) (hk : p.keyLen = 16) (hs : p.saltLen = 14)
    (beyond : List UInt8) : split x.bytes beyond = x.keyingMaterial := by
  obtain ⟨h₁, h₂, h₃, h₄⟩ := h
  rw [hk] at h₁ h₂
  rw [hs] at h₃ h₄
  -- each span starts where the fields before it end
  have hck : Span.clientKey.read (x.bytes ++ beyond) = x.clientKey := by
    have := read_append [] x.clientKey (x.serverKey ++ x.clientSalt ++ x.serverSalt ++ beyond)
      (s := Span.clientKey) rfl h₁.symm
    simpa [SrtpExport.bytes] using this
  have hsk : Span.serverKey.read (x.bytes ++ beyond) = x.serverKey := by
    have := read_append x.clientKey x.serverKey (x.clientSalt ++ x.serverSalt ++ beyond)
      (s := Span.serverKey) h₁.symm h₂.symm
    simpa [SrtpExport.bytes] using this
  have hcs : Span.clientSalt.read (x.bytes ++ beyond) = x.clientSalt := by
    have := read_append (x.clientKey ++ x.serverKey) x.clientSalt (x.serverSalt ++ beyond)
      (s := Span.clientSalt) (by simp [h₁, h₂, Span.clientSalt]) h₃.symm
    simpa [SrtpExport.bytes] using this
  have hss : Span.serverSalt.read (x.bytes ++ beyond) = x.serverSalt := by
    have := read_append (x.clientKey ++ x.serverKey ++ x.clientSalt) x.serverSalt beyond
      (s := Span.serverSalt) (by simp [h₁, h₂, h₃, Span.serverSalt]) h₄.symm
    simpa [SrtpExport.bytes] using this
  simp only [split, SrtpExport.keyingMaterial, hck, hsk, hcs, hss]

/-- The fields of a split have the lengths of the spans. -/
theorem lengths_of_split (h : x.Fits p) {beyond : List UInt8}
    (hsplit : split x.bytes beyond = x.keyingMaterial) : p.keyLen = 16 ∧ p.saltLen = 14 := by
  obtain ⟨h₁, -, h₃, -⟩ := h
  have hck := congrArg (fun k => k.clientMasterKey.length) hsplit
  have hcs := congrArg (fun k => k.clientMasterSalt.length) hsplit
  simp only [split, Span.read, List.length_map, List.length_range, SrtpExport.keyingMaterial, h₁,
    h₃] at hck hcs
  exact ⟨hck.symm, hcs.symm⟩

theorem splitsRight_iff (h : x.Fits p) (beyond : List UInt8) :
    SplitsRight x beyond ↔ p.keyLen = 16 ∧ p.saltLen = 14 := by
  constructor
  · rintro ⟨-, hsplit⟩
    exact lengths_of_split h hsplit
  · rintro ⟨hk, hs⟩
    refine ⟨?_, split_of_lengths h hk hs beyond⟩
    rw [length_bytes h, hk, hs]
    decide

end SrtpKeyingMaterial

namespace DtlsSession

variable {s : DtlsSession} {c : DtlsCall} {w : WolfPump}

/-- The key slot a handshake completed in the call writes into. -/
def slotIn (s : DtlsSession) : DtlsCall → Option SrtpKeyingMaterial
  | .rehandshake _ _ _ => if s.Rehandshakes then none else s.srtpKeys
  | _ => s.srtpKeys

/-- A handshake was completed in a step to `s'`, and its keys went into the slot if there was
one. -/
structure Completed (s' : DtlsSession) (reports : List DtlsReport)
    (slot : Option SrtpKeyingMaterial) (p : SrtpProfile) (h : Handshake) (beyond : List UInt8) :
    Prop where
  state : s'.state = .connected
  last : ∀ prev, lastCompleted prev reports = some h
  srtpProfile : s'.srtpProfile = p
  srtpKeys : s'.srtpKeys = if slot.isNone then none
    else h.exported.map fun x => SrtpKeyingMaterial.split x.bytes beyond

theorem completed_pump (h : s.Completes w) {q : SrtpProfile} (hw : w.Exports q) :
    ∃ hs beyond, Completed (s.pumpHandshake w).1 (s.pumpHandshake w).2 s.srtpKeys s.srtpProfile hs
      beyond ∧ ∃ x ∈ hs.exported, x.Fits q := by
  obtain ⟨peer, exported, beyond, hout, -, hreports, hsame, hstate, hkeys⟩ :=
    pumpHandshake_of_completes h
  refine ⟨⟨s.role, peer, exported⟩, beyond, ⟨hstate, fun prev => ?_, hsame.srtpProfile, hkeys⟩, ?_⟩
  · rw [hreports]
    rfl
  · unfold WolfPump.Exports at hw
    rw [hout] at hw
    exact hw

theorem call_of_completesIn (h : s.CompletesIn c) {q : SrtpProfile} (hc : c.Exports q) :
    ∃ hs beyond, Completed (s.call c).1 (s.call c).2 (s.slotIn c) s.srtpProfile hs beyond
      ∧ ∃ x ∈ hs.exported, x.Fits q := by
  cases c with
  | feedInbound bytes r w =>
    obtain ⟨hne, rfl, hcomp⟩ := h
    have hcall : s.call (.feedInbound bytes .passed w) = s.pumpHandshake w := by
      simp only [call, feedInbound, if_neg hne]
    rw [hcall]
    exact completed_pump hcomp hc
  | takeOutbound w =>
    obtain ⟨hout, hclosed, hcomp⟩ := h
    have htaken : { s with outbound := [] }.Completes w := hcomp
    obtain ⟨hs, beyond, ⟨h₁, h₂, h₃, h₄⟩, hx⟩ := completed_pump htaken hc
    obtain ⟨hssl, hconn, hfail, -⟩ := hcomp
    refine ⟨hs, beyond, ?_, hx⟩
    simp only [call, takeOutbound]
    rw [if_pos ⟨hout, hssl, hconn, hfail, hclosed⟩]
    exact ⟨h₁, h₂, h₃, h₄⟩
  | rehandshake renegotiated setup w =>
    obtain ⟨hre, hanew, hver⟩ := h
    obtain ⟨fresh, heq, hrest, hssl, hconn, hfail, -⟩ := rehandshake_anew hre hanew w
    have hver' : fresh.verifies w = true := by
      unfold verifies verifyPeerSpki at hver ⊢
      rw [hrest.expectedPeerFp, hrest.expectedPeerFpSet, hssl]
      rwa [hre.1] at hver
    have hcall : s.call (.rehandshake renegotiated setup w) = fresh.pumpHandshake w := by
      simp only [call, heq]
    rw [hcall]
    obtain ⟨hs, beyond, hcompleted, hx⟩ := completed_pump (s := fresh) ⟨hssl, hconn, hfail, hver'⟩ hc
    rw [hrest.srtpKeys, hrest.srtpProfile] at hcompleted
    have hslot : s.slotIn (.rehandshake renegotiated setup w) = none := if_pos hre
    rw [hslot]
    exact ⟨hs, beyond, hcompleted, hx⟩
  | «open» | close | tick | setPeerFingerprint | setRole => cases h

/-- No handshake was completed in a step from `s` to `s'`. -/
structure NotCompleted (s s' : DtlsSession) (reports : List DtlsReport)
    (slot : Option SrtpKeyingMaterial) : Prop where
  state : s'.state = .connected → s.state = .connected ∧ slot = s.srtpKeys
  last : ∀ prev, lastCompleted prev reports = prev
  srtpProfile : s'.srtpProfile = s.srtpProfile
  srtpKeys : s'.srtpKeys = slot

theorem notCompleted_pump (h : ¬ s.Completes w) :
    NotCompleted s (s.pumpHandshake w).1 (s.pumpHandshake w).2 s.srtpKeys := by
  obtain ⟨hsame, hkeys, hstate, -, hreports⟩ := pumpHandshake_of_not_completes h
  refine ⟨fun hc => ⟨hstate.1 hc, rfl⟩, fun prev => ?_, hsame.srtpProfile, hkeys⟩
  rcases hreports with hnil | ⟨-, hcall⟩
  · rw [hnil]
    rfl
  · rw [hcall]
    rfl

theorem notCompleted_rehandshake {renegotiated : Bool} {setup : WolfSetup} {w : WolfPump}
    (h : ¬ s.CompletesIn (.rehandshake renegotiated setup w)) :
    NotCompleted s (s.call (.rehandshake renegotiated setup w)).1
      (s.call (.rehandshake renegotiated setup w)).2
      (s.slotIn (.rehandshake renegotiated setup w)) := by
  by_cases hre : s.Rehandshakes
  · have hslot : s.slotIn (.rehandshake renegotiated setup w) = none := if_pos hre
    rw [hslot]
    by_cases hanew : StartsAnew renegotiated setup
    · obtain ⟨fresh, heq, hrest, hssl, hconn, hfail, -⟩ := rehandshake_anew hre hanew w
      have hnot : ¬ fresh.Completes w := by
        rintro ⟨-, -, -, hver⟩
        refine h ⟨hre, hanew, ?_⟩
        unfold verifies verifyPeerSpki at hver ⊢
        rw [hrest.expectedPeerFp, hrest.expectedPeerFpSet, hssl] at hver
        rwa [hre.1]
      obtain ⟨h₁, h₂, h₃, h₄⟩ := notCompleted_pump hnot
      simp only [call, heq]
      exact ⟨fun hc => absurd (h₁ hc).1 hconn, h₂, h₃.trans hrest.srtpProfile,
        h₄.trans hrest.srtpKeys⟩
    · obtain ⟨torn, heq, hrest, -, hstate⟩ := rehandshake_torn hre hanew w
      simp only [call, heq]
      refine ⟨fun hc => ?_, fun _ => rfl, hrest.srtpProfile, hrest.srtpKeys⟩
      rw [hstate] at hc
      cases hc
  · have hslot : s.slotIn (.rehandshake renegotiated setup w) = s.srtpKeys := if_neg hre
    rw [hslot]
    simp only [call, rehandshake_notReady hre]
    exact ⟨fun hc => ⟨hc, rfl⟩, fun _ => rfl, rfl, rfl⟩

theorem call_of_not_completesIn (h : ¬ s.CompletesIn c) :
    NotCompleted s (s.call c).1 (s.call c).2 (s.slotIn c) := by
  cases c with
  | «open» setup =>
    simp only [call]
    rcases s.open_cases setup with ⟨-, heq⟩ | ⟨ctx, heq, -⟩ | heq <;> rw [heq] <;>
      exact ⟨fun hc => ⟨hc, rfl⟩, fun _ => rfl, rfl, rfl⟩
  | close => exact ⟨fun hc => (by cases hc), fun _ => rfl, rfl, rfl⟩
  | feedInbound bytes r w =>
    simp only [call, feedInbound]
    split_ifs with hne
    · exact ⟨fun hc => ⟨hc, rfl⟩, fun _ => rfl, rfl, rfl⟩
    · cases r with
      | fragmentBuffered => exact ⟨fun hc => ⟨hc, rfl⟩, fun _ => rfl, rfl, rfl⟩
      | passed => exact notCompleted_pump fun hcomp => h ⟨hne, rfl, hcomp⟩
  | takeOutbound w =>
    simp only [call, takeOutbound]
    split_ifs with hg
    · have hnot : ¬ { s with outbound := [] }.Completes w := fun hcomp => h ⟨hg.1, hg.2.2.2.2, hcomp⟩
      obtain ⟨h₁, h₂, h₃, h₄⟩ := notCompleted_pump hnot
      exact ⟨h₁, h₂, h₃, h₄⟩
    · exact ⟨fun hc => ⟨hc, rfl⟩, fun _ => rfl, rfl, rfl⟩
  | tick resent =>
    simp only [call, tick]
    split_ifs
    · exact ⟨fun hc => ⟨hc, rfl⟩, fun _ => rfl, rfl, rfl⟩
    · cases resent with
      | none => exact ⟨fun hc => ⟨hc, rfl⟩, fun _ => rfl, rfl, rfl⟩
      | some bytes =>
        refine ⟨fun hc => ⟨?_, rfl⟩, fun _ => rfl, ?_, ?_⟩
        · simpa using hc
        · exact (sameSetup_flushSendBuf (.refl _)).srtpProfile
        · exact srtpKeys_flushSendBuf _
  | setPeerFingerprint algo value =>
    simp only [call, setPeerFingerprint]
    split_ifs <;> exact ⟨fun hc => ⟨hc, rfl⟩, fun _ => rfl, rfl, rfl⟩
  | setRole r =>
    simp only [call, setRole]
    split_ifs <;> exact ⟨fun hc => ⟨hc, rfl⟩, fun _ => rfl, rfl, rfl⟩
  | rehandshake renegotiated setup w =>
    exact notCompleted_rehandshake h

end DtlsSession

namespace DtlsRun

variable {r : DtlsRun} {c : DtlsCall}

/-- The key slot is gone exactly when a rehandshake went ahead. -/
def SlotInv (r : DtlsRun) : Prop := r.session.srtpKeys = none ↔ r.rehandshook = true

theorem slotIn_eq_none (hI : r.SlotInv) :
    r.session.slotIn c = none ↔ (r.step c).1.rehandshook = true := by
  unfold SlotInv at hI
  cases c with
  | rehandshake renegotiated setup w =>
    simp only [DtlsSession.slotIn, step, Bool.or_eq_true, decide_eq_true_eq]
    split_ifs with hre
    · simp [hre]
    · simpa [hre] using hI
  | _ => simpa [DtlsSession.slotIn, step] using hI

theorem slotInv_step (hI : r.SlotInv) (hc : c.Exports r.session.srtpProfile) :
    (r.step c).1.SlotInv := by
  have hslot := slotIn_eq_none (c := c) hI
  unfold SlotInv
  rw [← hslot]
  show (r.session.call c).1.srtpKeys = none ↔ _
  by_cases hcomp : r.session.CompletesIn c
  · obtain ⟨hs, beyond, hdone, x, hx, -⟩ := DtlsSession.call_of_completesIn hcomp hc
    rw [hdone.srtpKeys, hx]
    cases r.session.slotIn c <;> simp
  · rw [(DtlsSession.call_of_not_completesIn hcomp).srtpKeys]

/-- Where a handshake completes, the keys are kept by a session that has not rehandshaken and whose
profile has the lengths the split assumes. -/
theorem keepsKeys_iff (hcomp : r.session.CompletesIn c) : r.KeepsKeys c ↔
    (r.step c).1.rehandshook = false
      ∧ r.session.srtpProfile.keyLen = 16 ∧ r.session.srtpProfile.saltLen = 14 := by
  constructor
  · intro hk
    obtain ⟨hre, hnot, hlens⟩ := hk hcomp
    refine ⟨?_, hlens⟩
    cases c with
    | rehandshake renegotiated setup w => exact absurd rfl (hnot renegotiated setup w)
    | _ => simpa [step] using hre
  · rintro ⟨hre, hlens⟩ -
    refine ⟨?_, ?_, hlens⟩
    · simp only [step, Bool.or_eq_false_iff] at hre
      exact hre.1
    · -- a rehandshake that completes a handshake went ahead
      rintro renegotiated setup w rfl
      simp [step, hcomp.1] at hre

/-- A step to a connected session leaves it keyed exactly when it meets the condition. -/
theorem keyed_step_iff (hI : r.SlotInv) (hc : c.Exports r.session.srtpProfile) (hr : r.Keyed) :
    (r.step c).1.Keyed ↔ r.KeepsKeys c := by
  by_cases hcomp : r.session.CompletesIn c
  · obtain ⟨hs, beyond, hdone, x, hx, hfits⟩ := DtlsSession.call_of_completesIn hcomp hc
    have hkeys : (r.step c).1.Keyed ↔
        (r.session.call c).1.srtpKeys = some x.keyingMaterial := by
      have hlast : (r.step c).1.lastHandshake = some hs := hdone.last _
      have hmat : (r.step c).1.session.srtpKeyingMaterial = (r.session.call c).1.srtpKeys :=
        if_neg (not_not.2 hdone.state)
      constructor
      · intro hk
        obtain ⟨h, hh, y, hy, heq⟩ := hk hdone.state
        rw [hlast] at hh
        cases hh
        rw [hx] at hy
        cases hy
        rw [← hmat, heq]
      · intro hk _
        exact ⟨hs, hlast, x, hx, hmat.trans hk⟩
    rw [hkeys, keepsKeys_iff hcomp, hdone.srtpKeys, hx]
    have hslot := slotIn_eq_none (c := c) hI
    cases hs' : r.session.slotIn c with
    | none =>
      rw [hs'] at hslot
      simp [hslot.1 rfl]
    | some k =>
      have hre : (r.step c).1.rehandshook = false := by
        rw [hs'] at hslot
        simpa using hslot
      rw [hre]
      simp only [Option.isNone_some, Bool.false_eq_true, if_false, Option.map_some,
        Option.some.injEq, true_and]
      exact ⟨SrtpKeyingMaterial.lengths_of_split hfits,
        fun ⟨hk, hsalt⟩ => SrtpKeyingMaterial.split_of_lengths hfits hk hsalt beyond⟩
  · refine ⟨fun _ h => absurd h hcomp, fun _ hstate => ?_⟩
    have hnot := DtlsSession.call_of_not_completesIn hcomp
    obtain ⟨hconn, hslot⟩ := hnot.state hstate
    obtain ⟨h, hh, x, hx, heq⟩ := hr hconn
    refine ⟨h, (hnot.last _).trans hh, x, hx, ?_⟩
    have hmat : r.session.srtpKeyingMaterial = r.session.srtpKeys := if_neg (not_not.2 hconn)
    have hmat' : (r.step c).1.session.srtpKeyingMaterial = (r.session.call c).1.srtpKeys :=
      if_neg (not_not.2 hstate)
    rw [hmat', hnot.srtpKeys, hslot, ← hmat, heq]

/-- A session as the constructor leaves it. -/
def fresh (role : DtlsRole) (p : SrtpProfile) : DtlsRun :=
  { session := { role, srtpProfile := p } }

theorem srtpProfile_step (hc : c.Exports r.session.srtpProfile) :
    (r.step c).1.session.srtpProfile = r.session.srtpProfile := by
  by_cases hcomp : r.session.CompletesIn c
  · obtain ⟨_, _, hdone, -⟩ := DtlsSession.call_of_completesIn hcomp hc
    exact hdone.srtpProfile
  · exact (DtlsSession.call_of_not_completesIn hcomp).srtpProfile

/-- The split of the exported bytes is right exactly for the profiles with a 16-byte key and a
14-byte salt, and a session is keyed whenever it is connected exactly in the runs that complete
no handshake after a rehandshake and none with another profile. -/
theorem connected_keyed_iff (role : DtlsRole) (p : SrtpProfile) :
    (∀ (x : SrtpExport) (beyond : List UInt8), x.Fits p →
        (SrtpKeyingMaterial.SplitsRight x beyond ↔ p.keyLen = 16 ∧ p.saltLen = 14))
      ∧ ∀ calls : List DtlsCall, (∀ c ∈ calls, c.Exports p) →
        (machine.Always Keyed (fresh role p) calls ↔ machine.Meets KeepsKeys (fresh role p) calls) := by
  refine ⟨fun x beyond h => SrtpKeyingMaterial.splitsRight_iff h beyond, fun calls hcalls => ?_⟩
  have hassumed : machine.Meets (fun _ c => c.Exports p) (fresh role p) calls :=
    Machine.meets_of_forall_mem hcalls
  refine Machine.always_iff_meets (I := fun r => r.SlotInv ∧ r.session.srtpProfile = p)
    ?_ ?_ calls ⟨by simp [SlotInv, fresh], rfl⟩ (fun h => by cases h) hassumed
  · rintro r c ⟨hI, rfl⟩ hc
    exact ⟨slotInv_step hI hc, srtpProfile_step hc⟩
  · rintro r c ⟨hI, rfl⟩ hc hr
    exact keyed_step_iff hI hc hr

def exportOf (b : UInt8) : SrtpExport :=
  ⟨List.replicate 16 b, List.replicate 16 (b + 1), List.replicate 14 (b + 2),
    List.replicate 14 (b + 3)⟩

def completes (b : UInt8) : WolfPump := ⟨.success none (some (exportOf b)) [], []⟩

def handshakeOnce : List DtlsCall :=
  [.open {}, .takeOutbound ⟨.wantIo, [1]⟩, .feedInbound [22] .passed (completes 1)]

theorem connected_keyed_iff_once :
    (machine.exec (fresh .server .aes128CmSha1_80) handshakeOnce).1.session.state = .connected
      ∧ machine.Always Keyed (fresh .server .aes128CmSha1_80) handshakeOnce
      ∧ SrtpKeyingMaterial.SplitsRight (exportOf 1) [] := by
  obtain ⟨hsplit, hruns⟩ := connected_keyed_iff .server .aes128CmSha1_80
  refine ⟨by decide, (hruns handshakeOnce ?_).2 ?_, (hsplit (exportOf 1) [] (by decide)).2 (by decide)⟩
  · simp only [handshakeOnce, List.forall_mem_cons]
    refine ⟨trivial, trivial, ⟨exportOf 1, rfl, by decide⟩, by simp⟩
  · refine ⟨fun h => ?_, fun h => ?_, fun _ => ?_, trivial⟩
    · exact absurd h (by decide)
    · exact absurd h (by decide)
    · exact ⟨by decide, by simp, by decide, by decide⟩

/-- The handshake of a rehandshake is completed, the session is connected, and it has no keys. -/
theorem connected_without_keys :
    ¬ ∀ calls : List DtlsCall, (∀ c ∈ calls, c.Exports .aes128CmSha1_80) →
      machine.Always Keyed (fresh .server .aes128CmSha1_80) calls := by
  intro h
  have hrun := h (handshakeOnce ++ [.rehandshake false {} ⟨.wantIo, [1]⟩,
    .feedInbound [22] .passed (completes 5)]) ?_
  · obtain ⟨x, hx, y, hy, hkeys⟩ := hrun.2.2.2.2.2 (by decide)
    cases hkeys
  · simp only [handshakeOnce, List.cons_append, List.nil_append, List.forall_mem_cons]
    exact ⟨trivial, trivial, ⟨exportOf 1, rfl, by decide⟩, trivial, ⟨exportOf 5, rfl, by decide⟩,
      by simp⟩

end DtlsRun

end NimRtc
