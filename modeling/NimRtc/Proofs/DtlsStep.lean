import NimRtc.DtlsRuns

/-!
# What the operations of a DTLS session do

The handshake pump either completes a handshake, and then the session is connected and has the
exported keys if it had room for them, or it leaves the keys as they were and does not connect.
Every other operation is the pump, at most, and a change of a few fields.
-/

namespace NimRtc

/-- The calls that an engine's transport makes on its DTLS session. -/
def DtlsCall.ofTransport : DtlsCall → Prop
  | .feedInbound _ _ _ | .takeOutbound _ | .tick _ | .rehandshake _ _ _ => True
  | .open _ | .close | .setPeerFingerprint _ _ | .setRole _ => False

namespace DtlsSession

/-- The fields the handshake pump does not write. -/
structure SameSetup (s s' : DtlsSession) : Prop where
  role : s'.role = s.role
  srtpProfile : s'.srtpProfile = s.srtpProfile
  openCalled : s'.openCalled = s.openCalled
  ctx : s'.ctx = s.ctx
  ssl : s'.ssl = s.ssl
  expectedPeerFp : s'.expectedPeerFp = s.expectedPeerFp
  expectedPeerFpSet : s'.expectedPeerFpSet = s.expectedPeerFpSet

variable {s s' : DtlsSession} {w : WolfPump}

theorem SameSetup.refl (s : DtlsSession) : SameSetup s s := ⟨rfl, rfl, rfl, rfl, rfl, rfl, rfl⟩

theorem SameSetup.state (h : SameSetup s s') (st : DtlsState) :
    SameSetup s { s' with state := st } :=
  ⟨h.role, h.srtpProfile, h.openCalled, h.ctx, h.ssl, h.expectedPeerFp, h.expectedPeerFpSet⟩

theorem sameSetup_flushSendBuf (h : SameSetup s s') : SameSetup s s'.flushSendBuf := by
  unfold flushSendBuf
  split_ifs
  · exact h
  · exact ⟨h.role, h.srtpProfile, h.openCalled, h.ctx, h.ssl, h.expectedPeerFp,
      h.expectedPeerFpSet⟩

@[simp] theorem state_flushSendBuf (s : DtlsSession) : s.flushSendBuf.state = s.state := by
  unfold flushSendBuf
  split_ifs <;> rfl

@[simp] theorem srtpKeys_flushSendBuf (s : DtlsSession) :
    s.flushSendBuf.srtpKeys = s.srtpKeys := by
  unfold flushSendBuf
  split_ifs <;> rfl

theorem sameSetup_exportSrtpKeys (h : SameSetup s s') (exported : Option SrtpExport)
    (beyond : List UInt8) : SameSetup s (s'.exportSrtpKeys exported beyond) := by
  unfold exportSrtpKeys
  split_ifs
  · exact h
  · cases exported <;>
      exact ⟨h.role, h.srtpProfile, h.openCalled, h.ctx, h.ssl, h.expectedPeerFp,
        h.expectedPeerFpSet⟩

theorem state_exportSrtpKeys (s : DtlsSession) (exported : Option SrtpExport)
    (beyond : List UInt8) : (s.exportSrtpKeys exported beyond).state = s.state := by
  unfold exportSrtpKeys
  split_ifs
  · rfl
  · cases exported <;> rfl

theorem srtpKeys_exportSrtpKeys (hssl : s.ssl = true) (exported : Option SrtpExport)
    (beyond : List UInt8) :
    (s.exportSrtpKeys exported beyond).srtpKeys
      = if s.srtpKeys.isNone then none
        else exported.map fun x => SrtpKeyingMaterial.split x.bytes beyond := by
  unfold exportSrtpKeys
  rw [hssl]
  by_cases hkeys : s.srtpKeys.isNone
  · rw [if_pos hkeys, if_pos (by simpa using hkeys)]
    exact Option.isNone_iff_eq_none.1 hkeys
  · rw [if_neg hkeys, if_neg (by simpa using hkeys)]
    cases exported <;> rfl

/-- The session `wolfSSL_accept` or `wolfSSL_connect` is called in. -/
def started (s : DtlsSession) (w : WolfPump) : DtlsSession :=
  { s with
    state := if s.state = DtlsState.initial then .helloSent else s.state
    sendBuf := s.sendBuf ++ w.sent }

theorem sameSetup_started (s : DtlsSession) (w : WolfPump) : SameSetup s (s.started w) :=
  ⟨rfl, rfl, rfl, rfl, rfl, rfl, rfl⟩

theorem state_started_ne (s : DtlsSession) (w : WolfPump) : (s.started w).state ≠ .initial := by
  intro h
  simp only [started] at h
  split_ifs at h with hs
  exact hs h

theorem pumpHandshake_blocked (h : ¬ (s.ssl = true ∧ s.state ≠ .connected ∧ s.state ≠ .failed))
    (w : WolfPump) : s.pumpHandshake w = (s, []) := by
  unfold pumpHandshake
  rw [if_pos]
  cases hssl : s.ssl with
  | false => exact .inl rfl
  | true =>
    by_cases hc : s.state = .connected
    · exact .inr (.inl hc)
    · by_cases hf : s.state = .failed
      · exact .inr (.inr hf)
      · exact absurd ⟨hssl, hc, hf⟩ h

theorem pumpHandshake_eq (hssl : s.ssl = true) (hc : s.state ≠ .connected)
    (hf : s.state ≠ .failed) (w : WolfPump) :
    s.pumpHandshake w =
      match w.outcome with
      | .success peer exported beyond =>
        if s.verifyPeerSpki peer then
          (((s.started w).onHandshakeComplete exported beyond).flushSendBuf,
            [.handshakeCall s.role s.ctx, .completed ⟨s.role, peer, exported⟩])
        else ({ s.started w with state := .failed }.flushSendBuf, [.handshakeCall s.role s.ctx])
      | .wantIo => ((s.started w).flushSendBuf, [.handshakeCall s.role s.ctx])
      | .failed =>
        ({ s.started w with state := .failed }.flushSendBuf, [.handshakeCall s.role s.ctx]) := by
  unfold pumpHandshake
  rw [if_neg (by simp [hssl, hc, hf])]
  rfl

theorem pumpHandshake_of_completes (h : s.Completes w) :
    ∃ peer exported beyond, w.outcome = .success peer exported beyond
      ∧ s.verifyPeerSpki peer = true
      ∧ (s.pumpHandshake w).2
        = [.handshakeCall s.role s.ctx, .completed ⟨s.role, peer, exported⟩]
      ∧ SameSetup s (s.pumpHandshake w).1
      ∧ (s.pumpHandshake w).1.state = .connected
      ∧ (s.pumpHandshake w).1.srtpKeys
        = if s.srtpKeys.isNone then none
          else exported.map fun x => SrtpKeyingMaterial.split x.bytes beyond := by
  obtain ⟨hssl, hc, hf, hv⟩ := h
  rw [pumpHandshake_eq hssl hc hf]
  unfold verifies at hv
  split at hv
  · rename_i peer exported beyond hw
    refine ⟨peer, exported, beyond, hw, hv, ?_⟩
    simp only [hw, if_pos hv]
    refine ⟨trivial, ?_, ?_, ?_⟩
    · exact sameSetup_flushSendBuf
        (sameSetup_exportSrtpKeys ((sameSetup_started s w).state .connected) exported beyond)
    · rw [state_flushSendBuf]
      exact state_exportSrtpKeys _ _ _
    · rw [srtpKeys_flushSendBuf]
      exact srtpKeys_exportSrtpKeys (s := { s.started w with state := .connected }) hssl _ _
  · cases hv

/-- What the state may be after a pump that completes no handshake. -/
theorem pumpHandshake_of_not_completes (h : ¬ s.Completes w) :
    SameSetup s (s.pumpHandshake w).1
      ∧ (s.pumpHandshake w).1.srtpKeys = s.srtpKeys
      ∧ ((s.pumpHandshake w).1.state = .connected ↔ s.state = .connected)
      ∧ ((s.pumpHandshake w).1.state = .initial → s.ssl = false)
      ∧ ((s.pumpHandshake w).2 = [] ∨
          s.ssl = true ∧ (s.pumpHandshake w).2 = [.handshakeCall s.role s.ctx]) := by
  by_cases hblocked : s.ssl = true ∧ s.state ≠ .connected ∧ s.state ≠ .failed
  · obtain ⟨hssl, hc, hf⟩ := hblocked
    have hv : ¬ s.verifies w = true := fun hv => h ⟨hssl, hc, hf, hv⟩
    have hstarted : (s.started w).state = .connected ↔ s.state = .connected := by
      simp only [started]
      split_ifs with hi
      · simp [hi]
      · rfl
    rw [pumpHandshake_eq hssl hc hf]
    unfold verifies at hv
    cases hw : w.outcome with
    | success peer exported beyond =>
      rw [hw] at hv
      simp only [if_neg hv]
      refine ⟨sameSetup_flushSendBuf ((sameSetup_started s w).state .failed), ?_, ?_, ?_, ?_⟩
      · rw [srtpKeys_flushSendBuf]
        rfl
      · simp [hc]
      · simp
      · exact .inr ⟨hssl, trivial⟩
    | wantIo =>
      refine ⟨sameSetup_flushSendBuf (sameSetup_started s w), ?_, ?_, ?_, .inr ⟨hssl, rfl⟩⟩
      · simp only [srtpKeys_flushSendBuf]
        rfl
      · simpa using hstarted
      · intro hi
        rw [state_flushSendBuf] at hi
        exact absurd hi (state_started_ne s w)
    | failed =>
      refine ⟨sameSetup_flushSendBuf ((sameSetup_started s w).state .failed), ?_, ?_, ?_,
        .inr ⟨hssl, rfl⟩⟩
      · simp only [srtpKeys_flushSendBuf]
        rfl
      · simp [hc]
      · simp
  · rw [pumpHandshake_blocked hblocked]
    refine ⟨.refl s, rfl, Iff.rfl, fun hi => ?_, .inl rfl⟩
    by_contra hssl
    replace hi : s.state = .initial := hi
    exact hblocked ⟨by simpa using hssl, by simp [hi], by simp [hi]⟩

theorem sameSetup_pumpHandshake (s : DtlsSession) (w : WolfPump) :
    SameSetup s (s.pumpHandshake w).1 := by
  by_cases h : s.Completes w
  · obtain ⟨-, -, -, -, -, -, hsame, -⟩ := pumpHandshake_of_completes h
    exact hsame
  · exact (pumpHandshake_of_not_completes h).1

theorem open_cases (s : DtlsSession) (setup : WolfSetup) :
    (s.openCalled = true ∧ s.open setup = (true, s))
      ∨ (∃ ctx, s.open setup = (false, { s with openCalled := true, ctx })
        ∧ (ctx = s.ctx ∨ ctx = none ∨ ctx = some s.role))
      ∨ s.open setup
        = (setup.sslNew, { s with openCalled := true, ctx := some s.role, ssl := setup.sslNew }) := by
  unfold DtlsSession.open
  cases s.openCalled with
  | true => exact .inl ⟨rfl, rfl⟩
  | false =>
    refine .inr ?_
    rcases setup with ⟨init, ctxNew, configured, sslNew⟩
    cases init with
    | false => exact .inl ⟨s.ctx, rfl, .inl rfl⟩
    | true =>
      cases ctxNew with
      | false => exact .inl ⟨none, rfl, .inr (.inl rfl)⟩
      | true =>
        cases configured with
        | false => exact .inl ⟨some s.role, rfl, .inr (.inr rfl)⟩
        | true => exact .inr rfl

/-- What a rehandshake leaves of a session. -/
structure Restarted (s s' : DtlsSession) : Prop where
  role : s'.role = s.role
  srtpProfile : s'.srtpProfile = s.srtpProfile
  expectedPeerFp : s'.expectedPeerFp = s.expectedPeerFp
  expectedPeerFpSet : s'.expectedPeerFpSet = s.expectedPeerFpSet
  srtpKeys : s'.srtpKeys = none

/-- A session that starts its handshake anew after a rehandshake of `s`. -/
structure Anew (s s' : DtlsSession) : Prop extends Restarted s s' where
  ssl : s'.ssl = true
  not_connected : s'.state ≠ .connected
  not_failed : s'.state ≠ .failed
  ctx : s'.ctx = s.ctx ∧ s'.openCalled = s.openCalled ∨ s'.ctx = some s.role ∧ s'.openCalled = true

theorem rehandshake_notReady (h : ¬ s.Rehandshakes) (renegotiated : Bool) (setup : WolfSetup)
    (w : WolfPump) : s.rehandshake renegotiated setup w = (.errNotReady, s, []) := by
  unfold rehandshake
  rw [if_pos h]

theorem rehandshake_anew (h : s.Rehandshakes) {renegotiated : Bool} {setup : WolfSetup}
    (hanew : StartsAnew renegotiated setup) (w : WolfPump) :
    ∃ fresh : DtlsSession, s.rehandshake renegotiated setup w = (.ok, fresh.pumpHandshake w)
      ∧ Anew s fresh := by
  unfold rehandshake
  rw [if_neg (not_not.2 h)]
  cases renegotiated with
  | true =>
    exact ⟨{ s with state := .helloSent, srtpKeys := none }, rfl, ⟨rfl, rfl, rfl, rfl, rfl⟩, h.1,
      by simp, by simp, .inl ⟨rfl, rfl⟩⟩
  | false =>
    obtain ⟨hctx, hconf, hssl⟩ := hanew.resolve_left (by simp)
    refine ⟨{ s with
      ssl := true, ctx := some s.role, state := .initial, sendBuf := [], outbound := [],
      srtpKeys := none, openCalled := true }, ?_, ⟨rfl, rfl, rfl, rfl, rfl⟩, rfl, by simp, by simp,
      .inr ⟨rfl, rfl⟩⟩
    simp [setupContext, createSslObject, teardown, hctx, hconf, hssl]

theorem rehandshake_torn (h : s.Rehandshakes) {renegotiated : Bool} {setup : WolfSetup}
    (hanew : ¬ StartsAnew renegotiated setup) (w : WolfPump) :
    ∃ torn : DtlsSession, s.rehandshake renegotiated setup w = (.errInternal, torn, [])
      ∧ Restarted s torn ∧ torn.ssl = false ∧ torn.state = .failed := by
  unfold rehandshake
  rw [if_neg (not_not.2 h)]
  cases renegotiated with
  | true => exact absurd (.inl rfl) hanew
  | false =>
    rcases setup with ⟨init, ctxNew, configured, sslNew⟩
    cases ctxNew with
    | false => exact ⟨_, rfl, ⟨rfl, rfl, rfl, rfl, rfl⟩, rfl, rfl⟩
    | true =>
      cases configured with
      | false => exact ⟨_, rfl, ⟨rfl, rfl, rfl, rfl, rfl⟩, rfl, rfl⟩
      | true =>
        cases sslNew with
        | false => exact ⟨_, rfl, ⟨rfl, rfl, rfl, rfl, rfl⟩, rfl, rfl⟩
        | true => exact absurd (.inr ⟨rfl, rfl, rfl⟩) hanew

/-- What the transport makes of a session: it changes what waits to be sent, tears the session
down, or pumps the handshake, of the session or of one that a rehandshake starts anew. -/
theorem call_cases (s : DtlsSession) {c : DtlsCall} (hc : c.ofTransport) :
    (∃ sendBuf outbound, s.call c = ({ s with sendBuf, outbound }, []))
      ∨ (∃ torn, s.call c = (torn, []) ∧ Restarted s torn ∧ torn.ssl = false
        ∧ torn.state = .failed)
      ∨ ∃ (s₀ : DtlsSession) (w : WolfPump) (outbound : List (List UInt8)),
        s.call c = ({ (s₀.pumpHandshake w).1 with outbound }, (s₀.pumpHandshake w).2)
          ∧ ((∃ outbound, s₀ = { s with outbound }) ∨ s.Rehandshakes ∧ Anew s s₀) := by
  cases c with
  | feedInbound bytes r w =>
    simp only [call, feedInbound]
    split_ifs
    · exact .inl ⟨s.sendBuf, s.outbound, rfl⟩
    · cases r with
      | fragmentBuffered => exact .inl ⟨s.sendBuf, s.outbound, rfl⟩
      | passed => exact .inr (.inr ⟨s, w, _, rfl, .inl ⟨s.outbound, rfl⟩⟩)
  | takeOutbound w =>
    simp only [call, takeOutbound]
    split_ifs
    · exact .inr (.inr ⟨{ s with outbound := [] }, w, [], rfl, .inl ⟨[], rfl⟩⟩)
    · exact .inl ⟨s.sendBuf, [], rfl⟩
  | tick resent =>
    simp only [call, tick]
    split_ifs
    · exact .inl ⟨s.sendBuf, s.outbound, rfl⟩
    · cases resent with
      | none => exact .inl ⟨s.sendBuf, s.outbound, rfl⟩
      | some bytes =>
        simp only [flushSendBuf]
        split_ifs
        · exact .inl ⟨_, s.outbound, rfl⟩
        · exact .inl ⟨_, _, rfl⟩
  | rehandshake renegotiated setup w =>
    simp only [call]
    by_cases hre : s.Rehandshakes
    · by_cases hanew : StartsAnew renegotiated setup
      · obtain ⟨s₀, heq, h⟩ := rehandshake_anew hre hanew w
        rw [heq]
        exact .inr (.inr ⟨s₀, w, _, rfl, .inr ⟨hre, h⟩⟩)
      · obtain ⟨torn, heq, h⟩ := rehandshake_torn hre hanew w
        rw [heq]
        exact .inr (.inl ⟨torn, rfl, h⟩)
    · rw [rehandshake_notReady hre]
      exact .inl ⟨s.sendBuf, s.outbound, rfl⟩
  | «open» | close | setPeerFingerprint | setRole => exact hc.elim

end DtlsSession

end NimRtc
