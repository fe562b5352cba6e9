import NimRtc.Proofs.EngineStep

/-!
# The peer's certificate is the one that was signalled

`set_peer_fingerprint` takes a pin only under the name `sha-256` and of 32 bytes, and drops the pin
there was otherwise; a session without a pin accepts every peer. So a fingerprint is enforced in a
run whose descriptions carry only such fingerprints, as those of an engine do.
-/

namespace NimRtc

namespace Fingerprint

theorem hexDigit_hexChar : ∀ {n : ℕ}, n < 16 → hexDigit (hexChar n) = some n := by decide

theorem hexChar_ne_separator : ∀ {n : ℕ}, n < 16 →
    ¬ (hexChar n = ':' ∨ hexChar n = ' ' ∨ hexChar n = '\t') := by decide

theorem hexColonLoop_hexByte (b : UInt8) (cs : List Char) :
    hexColonLoop (hexByte b ++ cs) none = (b :: ·) <$> hexColonLoop cs none := by
  have hhi : b.toNat / 16 < 16 := by
    have := b.toNat_lt
    omega
  have hlo : b.toNat % 16 < 16 := Nat.mod_lt _ (by simp)
  have hbyte : UInt8.ofNat (b.toNat / 16 * 16 + b.toNat % 16) = b := by
    rw [Nat.div_add_mod', UInt8.ofNat_toNat]
  simp only [hexByte, List.cons_append, List.nil_append, hexColonLoop,
    if_neg (hexChar_ne_separator hhi), if_neg (hexChar_ne_separator hlo), hexDigit_hexChar hhi,
    hexDigit_hexChar hlo, hbyte]

theorem hexColonLoop_hexColonChars : ∀ bytes : List UInt8,
    hexColonLoop (hexColonChars bytes) none = some bytes
  | [] => rfl
  | [b] => by
    have h := hexColonLoop_hexByte b []
    rwa [List.append_nil] at h
  | b :: b' :: bs => by
    rw [hexColonChars, hexColonLoop_hexByte, hexColonLoop, if_pos (.inl rfl),
      hexColonLoop_hexColonChars (b' :: bs)]
    · rfl
    · nofun

/-- The text an engine makes of a digest is read back as the digest. -/
theorem decode_hexColon (bytes : List UInt8) : decode (hexColon bytes) = bytes := by
  have h : hexColonDecode (hexColon bytes) = bytes := by
    simp [hexColonDecode, hexColon, hexColonLoop_hexColonChars]
  unfold decode
  rw [h]
  cases bytes with
  | nil => rfl
  | cons b bs => rfl

end Fingerprint

namespace DtlsSession

theorem foldl_diff_eq_zero : ∀ {got expected : List UInt8} (diff : UInt8),
    got.length = expected.length →
      ((got.zip expected).foldl (fun diff p => diff ||| (p.1 ^^^ p.2)) diff = 0
        ↔ diff = 0 ∧ got = expected)
  | [], [], diff, _ => by simp
  | g :: got, x :: expected, diff, hlen => by
    rw [List.zip_cons_cons, List.foldl_cons, foldl_diff_eq_zero _ (by simpa using hlen)]
    simp [and_assoc]

theorem fpDiff_eq_zero {got expected : List UInt8} (hlen : got.length = expected.length) :
    fpDiff got expected = 0 ↔ got = expected := by
  unfold fpDiff
  rw [foldl_diff_eq_zero 0 hlen]
  simp

/-- The session has this pin. -/
structure Pinned (s : DtlsSession) (pin : List UInt8) : Prop where
  isSet : s.expectedPeerFpSet = true
  expected : s.expectedPeerFp = pin

variable {s : DtlsSession} {pin : List UInt8}

theorem verifyPeerSpki_pinned (h : s.Pinned pin) {peer : Option Sha256}
    (hv : s.verifyPeerSpki peer = true) : ∃ d ∈ peer, d.bytes = pin := by
  unfold verifyPeerSpki at hv
  rw [h.isSet, h.expected] at hv
  split_ifs at hv with hssl hset hlen
  · cases hset
  · cases peer with
    | none => cases hv
    | some got =>
      refine ⟨got, rfl, (fpDiff_eq_zero ?_).1 (by simpa using hv)⟩
      rw [got.size, not_not.1 hlen]

theorem Pinned.of_sameSetup {s' : DtlsSession} (h : s.Pinned pin) (hs : SameSetup s s') :
    s'.Pinned pin :=
  ⟨hs.expectedPeerFpSet.trans h.isSet, hs.expectedPeerFp.trans h.expected⟩

theorem Pinned.of_restarted {s' : DtlsSession} (h : s.Pinned pin) (hs : Restarted s s') :
    s'.Pinned pin :=
  ⟨hs.expectedPeerFpSet.trans h.isSet, hs.expectedPeerFp.trans h.expected⟩

/-- Only `set_peer_fingerprint` writes the pin. -/
theorem pinned_call (h : s.Pinned pin) {c : DtlsCall}
    (hc : ∀ algo value, c ≠ .setPeerFingerprint algo value) : (s.call c).1.Pinned pin := by
  have htransport : c.ofTransport → (s.call c).1.Pinned pin := by
    intro hc
    rcases s.call_cases hc with ⟨sendBuf, outbound, heq⟩ | ⟨torn, heq, hrest, -⟩
      | ⟨s₀, w, outbound, heq, hs₀⟩ <;> rw [heq]
    · exact ⟨h.isSet, h.expected⟩
    · exact h.of_restarted hrest
    · have h₀ : s₀.Pinned pin := by
        rcases hs₀ with ⟨out, rfl⟩ | ⟨-, hanew⟩
        · exact ⟨h.isSet, h.expected⟩
        · exact h.of_restarted hanew.toRestarted
      have hp := h₀.of_sameSetup (sameSetup_pumpHandshake s₀ w)
      exact ⟨hp.isSet, hp.expected⟩
  cases c with
  | «open» setup =>
    simp only [call]
    rcases s.open_cases setup with ⟨-, heq⟩ | ⟨ctx, heq, -⟩ | heq <;> rw [heq] <;>
      exact ⟨h.isSet, h.expected⟩
  | close => exact ⟨h.isSet, h.expected⟩
  | setRole role =>
    simp only [call, setRole]
    split_ifs <;> exact ⟨h.isSet, h.expected⟩
  | setPeerFingerprint algo value => exact absurd rfl (hc algo value)
  | _ => exact htransport trivial

/-- A pump that connects a session with a pin completes a handshake with the peer of the pin. -/
theorem connects_pump (h : s.Pinned pin) {w : WolfPump}
    (hconn : (s.pumpHandshake w).1.state = .connected) : s.state = .connected ∨ w.PeerIs pin := by
  by_cases hcomp : s.Completes w
  · obtain ⟨peer, exported, beyond, hw, hv, -⟩ := pumpHandshake_of_completes hcomp
    obtain ⟨d, hd, hbytes⟩ := verifyPeerSpki_pinned h hv
    obtain rfl : peer = some d := hd
    right
    unfold WolfPump.PeerIs
    rw [hw]
    exact hbytes
  · exact .inl ((pumpHandshake_of_not_completes hcomp).2.2.1.1 hconn)

/-- A session with a pin is connected after a call if it was and stayed so, or by a handshake with
the peer of the pin. -/
theorem connects_call (h : s.Pinned pin) (c : DtlsCall)
    (hconn : (s.call c).1.state = .connected) :
    s.state = .connected ∧ ¬ s.RehandshakesIn c ∨ ∃ w ∈ c.pumps, w.PeerIs pin := by
  cases c with
  | «open» setup =>
    left
    simp only [call] at hconn
    rcases s.open_cases setup with ⟨-, heq⟩ | ⟨ctx, heq, -⟩ | heq <;> rw [heq] at hconn <;>
      exact ⟨hconn, id⟩
  | close => cases hconn
  | feedInbound bytes r w =>
    simp only [call, feedInbound] at hconn
    split_ifs at hconn
    · exact .inl ⟨hconn, id⟩
    · cases r with
      | fragmentBuffered => exact .inl ⟨hconn, id⟩
      | passed => exact (connects_pump h hconn).imp (⟨·, id⟩) (⟨w, List.mem_singleton_self w, ·⟩)
  | takeOutbound w =>
    have htaken : ({ s with outbound := [] } : DtlsSession).Pinned pin := ⟨h.isSet, h.expected⟩
    simp only [call, takeOutbound] at hconn
    split_ifs at hconn
    · exact (connects_pump htaken hconn).imp (⟨·, id⟩) (⟨w, List.mem_singleton_self w, ·⟩)
    · exact .inl ⟨hconn, id⟩
  | tick resent =>
    left
    simp only [call, tick] at hconn
    split_ifs at hconn
    · exact ⟨hconn, id⟩
    · cases resent with
      | none => exact ⟨hconn, id⟩
      | some bytes =>
        rw [state_flushSendBuf] at hconn
        exact ⟨hconn, id⟩
  | setPeerFingerprint algo value =>
    left
    simp only [call, setPeerFingerprint] at hconn
    split_ifs at hconn <;> exact ⟨hconn, id⟩
  | setRole role =>
    left
    simp only [call, setRole] at hconn
    split_ifs at hconn <;> exact ⟨hconn, id⟩
  | rehandshake renegotiated setup w =>
    simp only [call] at hconn
    by_cases hre : s.Rehandshakes
    · right
      refine ⟨w, List.mem_singleton_self w, ?_⟩
      by_cases hanew : StartsAnew renegotiated setup
      · obtain ⟨fresh, heq, hfresh⟩ := rehandshake_anew hre hanew w
        rw [heq] at hconn
        have hpin := h.of_restarted hfresh.toRestarted
        exact (connects_pump hpin hconn).resolve_left hfresh.not_connected
      · obtain ⟨torn, heq, -, -, hfailed⟩ := rehandshake_torn hre hanew w
        rw [heq] at hconn
        exact absurd (hfailed.symm.trans hconn) (by simp)
    · rw [rehandshake_notReady hre] at hconn
      exact .inl ⟨hconn, hre⟩

/-- From one session to a later one: it has the pin still, and it is connected if it was, or by a
handshake with the peer of the pin among these. -/
structure Connects (pin : List UInt8) (ws : List WolfPump) (s s' : DtlsSession) : Prop where
  pinned : s'.Pinned pin
  connects : s'.state = .connected → s.state = .connected ∨ ∃ w ∈ ws, w.PeerIs pin

theorem Connects.trans {s' s'' : DtlsSession} {ws ws' : List WolfPump}
    (h : Connects pin ws s s') (h' : Connects pin ws' s' s'') :
    Connects pin (ws ++ ws') s s'' where
  pinned := h'.pinned
  connects hconn := by
    rcases h'.connects hconn with hconn | ⟨w, hw, hpeer⟩
    · exact (h.connects hconn).imp_right fun ⟨w, hw, hpeer⟩ =>
        ⟨w, List.mem_append_left _ hw, hpeer⟩
    · exact .inr ⟨w, List.mem_append_right _ hw, hpeer⟩

theorem Connects.of_call (h : s.Pinned pin) {c : DtlsCall}
    (hc : ∀ algo value, c ≠ .setPeerFingerprint algo value) :
    Connects pin c.pumps s (s.call c).1 where
  pinned := pinned_call h hc
  connects hconn := (connects_call h c hconn).imp_left And.left

theorem pinned_setPeerFingerprint (s : DtlsSession) {algo : String} {value : List UInt8}
    (halgo : algo = "sha-256") (hlen : value.length = 32) :
    (s.setPeerFingerprint algo value).Pinned value := by
  unfold setPeerFingerprint
  rw [if_neg (not_not.2 halgo), if_neg (not_not.2 hlen)]
  exact ⟨rfl, rfl⟩

end DtlsSession

namespace Engine

/-- The fingerprint that was signalled last is the pin of the session. -/
structure PinInv (e : Engine) : Prop where
  constructed : e.state = .constructed → e.history.signalled = none
  pinned : ∀ algo value, e.history.signalled = some (algo, value) →
    algo = "sha-256" ∧ e.dtls.Pinned (Fingerprint.decode value)

variable {e : Engine}

theorem pinInv_fresh (cfg : EngineConfig) (sender : Option VideoSender) (fingerprint : String) :
    (fresh cfg sender fingerprint).PinInv :=
  ⟨fun _ => rfl, nofun⟩

theorem pinInv_onDtls (hI : e.PinInv) {c : DtlsCall}
    (hc : ∀ algo value, c ≠ .setPeerFingerprint algo value) :
    (e.onDtls (e.dtls.call c)).1.PinInv := by
  refine ⟨hI.constructed, fun algo value hs => ?_⟩
  obtain ⟨halgo, hpin⟩ := hI.pinned algo value hs
  exact ⟨halgo, DtlsSession.pinned_call hpin hc⟩

theorem keeps_pinInv : Keeps PinInv fun _ => True where
  media e r hop hI := by
    refine ⟨fun hs => ?_, fun algo value hs => ?_⟩
    · rw [hop.history]
      exact hI.constructed (hop.state ▸ hs)
    · rw [hop.dtls]
      exact hI.pinned algo value (hop.history ▸ hs)
  ofMedia _ _ := trivial
  call e c hc hI := by
    refine ⟨pinInv_onDtls hI fun algo value h => ?_, fun _ _ => trivial⟩
    rw [h] at hc
    exact hc
  install e _ hI := by
    rcases e.maybeInstallSrtpKeys_cases with h | ⟨-, km, -, h⟩ <;> rw [h]
    · exact .refl hI
    · exact ⟨⟨hI.constructed, hI.pinned⟩, fun _ _ => trivial⟩
  ice _ _ _ _ _ hI := ⟨hI.constructed, hI.pinned⟩
  record _ := trivial

theorem PinInv.of_sameSection {e' : Engine} (hI : e.PinInv) (hsec : SameSection e e')
    (hstate : e'.state = e.state) : e'.PinInv where
  constructed hs := by
    rw [hsec.history]
    exact hI.constructed (hstate ▸ hs)
  pinned algo value hs := by
    rw [hsec.dtls]
    exact hI.pinned algo value (hsec.history ▸ hs)

theorem pinInv_applyDtlsSection (hI : e.PinInv) (hopen : e.isOpen = true) (isAnswer : Bool)
    {m : MediaDescription} (hm : m.carriesFingerprint → m.dtlsFingerprintAlgo = "sha-256"
      ∧ (Fingerprint.decode m.dtlsFingerprintValue).length = 32) :
    (e.applyDtlsSection isAnswer m).PinInv := by
  unfold applyDtlsSection
  generalize resolveRole isAnswer (if m.dtlsSetup = "" then "actpass" else m.dtlsSetup) = resolved
  obtain ⟨role, setup⟩ := resolved
  refine ⟨fun hs => ?_, fun algo value hs => ?_⟩
  · rw [isOpen, decide_eq_true_eq] at hopen
    exact absurd (hopen.symm.trans hs) (by simp)
  · change (if m.carriesFingerprint then some (m.dtlsFingerprintAlgo, m.dtlsFingerprintValue)
      else e.history.signalled) = some (algo, value) at hs
    show _ ∧ (if m.dtlsFingerprintAlgo ≠ "" ∧ m.dtlsFingerprintValue ≠ "" then _ else _ :
      DtlsSession).Pinned _
    by_cases hcarries : m.carriesFingerprint = true
    · obtain ⟨halgo, hlen⟩ := hm hcarries
      rw [if_pos hcarries, Option.some.injEq, Prod.mk.injEq] at hs
      obtain ⟨rfl, rfl⟩ := hs
      have hvalue : m.dtlsFingerprintValue ≠ "" := by
        intro hempty
        rw [hempty] at hlen
        cases hlen
      rw [if_pos ⟨by simp [halgo], hvalue⟩]
      exact ⟨halgo, DtlsSession.pinned_setPeerFingerprint _ halgo hlen⟩
    · rw [if_neg hcarries] at hs
      obtain ⟨halgo, hpin⟩ := hI.pinned algo value hs
      have hnone : ¬ (m.dtlsFingerprintAlgo ≠ "" ∧ m.dtlsFingerprintValue ≠ "") := by
        rintro ⟨hne, -⟩
        simp [MediaDescription.carriesFingerprint, hne] at hcarries
      rw [if_neg hnone]
      exact ⟨halgo, DtlsSession.pinned_call (c := .setRole role) hpin (by simp)⟩

theorem pinInv_step (hI : e.PinInv) (ev : EngineEvent) (hok : e.SignalsPin ev) :
    (e.step ev).1.PinInv := by
  cases ev with
  | «open» setup iceOk =>
    simp only [step]
    rcases e.open_cases setup iceOk with h | ⟨hstate, state, modules, h | h⟩ <;> rw [h]
    · exact hI
    · exact ⟨fun _ => hI.constructed hstate, hI.pinned⟩
    · refine ⟨fun _ => hI.constructed hstate, fun algo value hs => ?_⟩
      exact absurd ((hI.constructed hstate).symm.trans hs) (by simp)
  | createOffer sessionId ice mungerOk =>
    obtain ⟨h, hsec⟩ := e.signalled_createOffer sessionId ice mungerOk
    exact hI.of_sameSection hsec h.state
  | processRemoteSdp parsed ice mungerOk =>
    rcases e.signalled_processRemoteSdp parsed ice mungerOk with
      ⟨h, hsec | ⟨hopen, remote, m, rfl, hm, hsec⟩⟩
    · exact hI.of_sameSection hsec h.state
    · exact (pinInv_applyDtlsSection hI hopen _ (hok hopen m hm)).of_sameSection hsec h.state
  | dtls c =>
    refine pinInv_onDtls hI fun algo value h => ?_
    rw [h] at hok
    exact hok
  | _ =>
    refine (keeps_pinInv.step hI ?_).1
    trivial

/-! ### What an event does to the session and to the record -/

theorem maybeInstallSrtpKeys_same (e : Engine) :
    e.maybeInstallSrtpKeys.1.dtls = e.dtls
      ∧ e.maybeInstallSrtpKeys.1.history.signalled = e.history.signalled
      ∧ (e.maybeInstallSrtpKeys.1.srtpInstalled = true →
        e.srtpInstalled = true ∨ e.dtls.state = .connected) := by
  rcases e.maybeInstallSrtpKeys_cases with h | ⟨hconn, km, -, h⟩ <;> rw [h]
  · exact ⟨rfl, rfl, .inl⟩
  · exact ⟨rfl, rfl, fun _ => .inr hconn⟩

/-- The drain is a tick and a `take_outbound` of the session, and keys are installed only on a
session that is connected then. -/
theorem drainDtls_same (e : Engine) (d : DrainEnv) :
    (e.drainDtls d).1.dtls = ((e.dtls.call (.tick d.resent)).1.call (.takeOutbound d.pump)).1
      ∧ (e.drainDtls d).1.history.signalled = e.history.signalled
      ∧ ((e.drainDtls d).1.srtpInstalled = true →
        e.srtpInstalled = true ∨ (e.drainDtls d).1.dtls.state = .connected) := by
  rw [drainDtls_eq]
  simp only [andThen]
  split_ifs with hconn
  · obtain ⟨hdtls, hsignalled, hinstalled⟩ := maybeInstallSrtpKeys_same
      (e.onDtls ((e.dtls.call (.tick d.resent)).1.call (.takeOutbound d.pump))).1
    exact ⟨hdtls, hsignalled, fun h => (hinstalled h).imp_right fun hc => by rwa [hdtls]⟩
  · exact ⟨rfl, rfl, .inl⟩

theorem connects_drainDtls {pin : List UInt8} (h : e.dtls.Pinned pin) (d : DrainEnv) :
    DtlsSession.Connects pin [d.pump] e.dtls (e.drainDtls d).1.dtls := by
  rw [(drainDtls_same e d).1]
  have htick : DtlsSession.Connects pin [] e.dtls (e.dtls.call (.tick d.resent)).1 :=
    .of_call h (c := .tick d.resent) (by simp)
  exact htick.trans (.of_call (c := .takeOutbound d.pump) htick.pinned (by simp))

/-- An event that leaves the session, its record and the keys as they are. -/
theorem pinEnforced_of_same {ev : EngineEvent} (hsignals : e.signals ev = none)
    (hre : ¬ e.RehandshakesIn ev) (hstate : (e.step ev).1.dtls.state = e.dtls.state)
    (hsignalled : (e.step ev).1.history.signalled = e.history.signalled)
    (hinstalled : (e.step ev).1.srtpInstalled = e.srtpInstalled) : e.PinEnforced ev where
  signalled := by rw [hsignals, hsignalled, Option.none_or]
  pinned h := absurd (h.2 (hstate ▸ h.1)) hre
  installed h h' := absurd ((hinstalled.symm.trans h).symm.trans h') (by simp)

theorem pinEnforced_of_media {ev : EngineEvent} (h : ev.ofMedia = true) : e.PinEnforced ev := by
  have hop := mediaOp_step e h
  refine pinEnforced_of_same ?_ (fun hre => ?_) (by rw [hop.dtls]) (by rw [hop.history])
    hop.srtpInstalled
  · cases ev <;> first | rfl | cases h
  · cases ev <;> first | exact hre | cases h

theorem pinEnforced_open (hI : e.PinInv) (setup : WolfSetup) (iceOk : Bool) :
    e.PinEnforced (.open setup iceOk) := by
  rcases e.open_cases setup iceOk with h | ⟨hstate, state, modules, h | h⟩
  · exact pinEnforced_of_same rfl id (by simp only [step, h]) (by simp only [step, h])
      (by simp only [step, h])
  · exact pinEnforced_of_same rfl id (by simp only [step, h]) (by simp only [step, h])
      (by simp only [step, h])
  · have hnone := hI.constructed hstate
    refine ⟨?_, fun _ algo value hs => absurd (hnone.symm.trans hs) (by simp), ?_⟩
    · simp only [step, h]
      rfl
    · simp only [step, h]
      exact fun hins hnot => absurd (hins.symm.trans hnot) (by simp)

theorem signalled_applyDtls (e : Engine) (isAnswer : Bool) (remote : SessionDescription) :
    (e.applyDtls isAnswer remote).history.signalled
      = (((remote.media.find? (·.recognised)).filter (·.carriesFingerprint)).map fun m =>
          (m.dtlsFingerprintAlgo, m.dtlsFingerprintValue)).or e.history.signalled := by
  unfold applyDtls
  cases remote.media.find? (·.recognised) with
  | none => rfl
  | some m =>
    show (if m.carriesFingerprint then _ else _) = _
    by_cases hm : m.carriesFingerprint = true
    · simp [hm, Option.filter]
    · simp [hm, Option.filter]

theorem pinEnforced_processRemoteSdp (parsed : Option SessionDescription) (ice : IceLocal)
    (mungerOk : Bool) : e.PinEnforced (.processRemoteSdp parsed ice mungerOk) := by
  obtain ⟨h, -⟩ := e.signalled_processRemoteSdp parsed ice mungerOk
  have hstate : (e.processRemoteSdp parsed ice mungerOk).1.dtls.state = e.dtls.state := by
    rcases (e.signalled_processRemoteSdp parsed ice mungerOk).2 with
      hsec | ⟨-, remote, m, -, -, hsec⟩
    · rw [hsec.dtls]
    · rw [hsec.dtls]
      unfold applyDtlsSection DtlsSession.setRole DtlsSession.setPeerFingerprint
      simp only []
      split_ifs <;> rfl
  refine ⟨?_, fun hent => absurd (hent.2 (hstate ▸ hent.1)) id, fun hins hnot => ?_⟩
  · simp only [step, signals]
    by_cases hopen : e.state = .open
    · cases parsed with
      | none =>
        unfold processRemoteSdp
        split_ifs <;> rfl
      | some remote =>
        have hisOpen : e.isOpen = true := decide_eq_true hopen
        obtain ⟨id, heq⟩ := processRemoteSdp_eq hisOpen remote ice mungerOk
        rw [heq]
        simp only [hisOpen, if_true]
        exact signalled_applyDtls (e.applyIce remote) _ remote
    · have hclosed : e.processRemoteSdp parsed ice mungerOk = (e, .failed) := by
        unfold processRemoteSdp
        rw [if_pos hopen]
      rw [hclosed]
      cases parsed with
      | none => rfl
      | some remote =>
        simp [isOpen, hopen]
  · exact absurd ((h.srtpInstalled.symm.trans hins).symm.trans hnot) (by simp)

theorem pinEnforced_dtls (hI : e.PinInv) (c : DtlsCall) : e.PinEnforced (.dtls c) where
  signalled := rfl
  pinned h algo value hs := by
    obtain ⟨rfl, hpin⟩ := hI.pinned algo value hs
    refine ⟨by decide +kernel, (DtlsSession.connects_call hpin c h.1).resolve_left fun hno => ?_⟩
    exact hno.2 (h.2 hno.1)
  installed h h' := absurd (h.symm.trans h') (by simp)

theorem pinEnforced_pollIceFlap (hI : e.PinInv) (cur : IceState) (r : RehandshakeEnv) :
    e.PinEnforced (.pollIceFlap cur r) := by
  by_cases hopen : e.isOpen = true
  · have hstep : e.step (.pollIceFlap cur r) = e.pollIceFlapForRehandshake cur r := if_pos hopen
    rcases e.pollIceFlap_cases cur r with ⟨once, armed, ⟨hdue, heq⟩ | ⟨installed, hinst, heq⟩⟩
    · refine pinEnforced_of_same rfl (fun h => ?_) ?_ ?_ ?_
      · exact absurd (hdue.symm.trans h.2.1) (by simp)
      all_goals rw [hstep, heq]
    · refine ⟨?_, fun h algo value hs => ?_, fun hins hnot => ?_⟩
      · rw [hstep, heq]
        rfl
      · obtain ⟨rfl, hpin⟩ := hI.pinned algo value hs
        have hconn := h.1
        rw [hstep, heq] at hconn
        refine ⟨by decide +kernel, (DtlsSession.connects_call hpin
          (.rehandshake r.renegotiated r.setup r.pump) hconn).resolve_left fun hno => ?_⟩
        exact hno.2 (h.2 hno.1).2.2
      · rw [hstep, heq] at hins
        exact absurd ((hinst hins).symm.trans hnot) (by simp)
  · have hstep : e.step (.pollIceFlap cur r) = (e, []) := if_neg hopen
    refine pinEnforced_of_same rfl (fun h => hopen h.1) ?_ ?_ ?_
    all_goals rw [hstep]

theorem pinEnforced_drainDtls (hI : e.PinInv) (d : DrainEnv) : e.PinEnforced (.drainDtls d) := by
  by_cases hopen : e.isOpen = true
  · have hstep : e.step (.drainDtls d) = e.drainDtls d := if_pos hopen
    obtain ⟨-, hsignalled, hinstalled⟩ := drainDtls_same e d
    refine ⟨?_, fun h algo value hs => ?_, fun hins hnot => ?_⟩
    · rw [hstep, hsignalled]
      rfl
    · obtain ⟨rfl, hpin⟩ := hI.pinned algo value hs
      have hconn := h.1
      rw [hstep] at hconn
      exact ⟨by decide +kernel,
        ((connects_drainDtls hpin d).connects hconn).resolve_left fun hc => h.2 hc⟩
    · rw [hstep] at hins ⊢
      exact (hinstalled hins).resolve_left (by simp [hnot])
  · have hstep : e.step (.drainDtls d) = (e, []) := if_neg hopen
    refine pinEnforced_of_same rfl id ?_ ?_ ?_
    all_goals rw [hstep]

theorem pinEnforced_recv (hI : e.PinInv) (d : Inbound) : e.PinEnforced (.recv d) := by
  rcases e.onTransportRecv_cases d with ⟨-, heq⟩ | ⟨-, -, heq⟩ | ⟨-, hmedia, -⟩
  · have hstep : e.step (.recv d) = (e, []) := heq
    refine pinEnforced_of_same rfl id ?_ ?_ ?_
    all_goals rw [hstep]
  · have hstep : e.step (.recv d) = _ := heq
    -- the session is fed and then drained, if ICE is up
    let fed := (e.onDtls (e.dtls.call (.feedInbound d.bytes d.reassembly d.pump))).1
    obtain ⟨-, hsignalled, hinstalled⟩ := drainDtls_same fed d.drain
    have hfst : (e.step (.recv d)).1 = if d.iceUp then (fed.drainDtls d.drain).1 else fed := by
      rw [hstep]
      simp only [andThen]
      split_ifs <;> rfl
    refine ⟨?_, fun h algo value hs => ?_, fun hins hnot => ?_⟩
    · rw [hfst]
      split_ifs
      · exact hsignalled
      · rfl
    · obtain ⟨rfl, hpin⟩ := hI.pinned algo value hs
      have hfed : DtlsSession.Connects (Fingerprint.decode value) [d.pump] e.dtls fed.dtls :=
        .of_call hpin (c := .feedInbound d.bytes d.reassembly d.pump) (by simp)
      have hall : DtlsSession.Connects (Fingerprint.decode value) [d.pump, d.drain.pump] e.dtls
          (e.step (.recv d)).1.dtls := by
        rw [hfst]
        split_ifs
        · exact hfed.trans (connects_drainDtls hfed.pinned d.drain)
        · refine ⟨hfed.pinned, fun hconn => (hfed.connects hconn).imp_right ?_⟩
          rintro ⟨w, hw, hpeer⟩
          exact ⟨w, List.mem_append_left _ hw, hpeer⟩
      exact ⟨by decide +kernel, (hall.connects h.1).resolve_left fun hc => h.2 hc⟩
    · rw [hfst] at hins ⊢
      split_ifs at hins ⊢
      · exact (hinstalled hins).resolve_left fun h => absurd (h.symm.trans hnot) (by simp)
      · exact absurd (hins.symm.trans hnot) (by simp)
  · exact pinEnforced_of_media hmedia

theorem pinEnforced_step (hI : e.PinInv) (ev : EngineEvent) : e.PinEnforced ev := by
  cases ev with
  | «open» setup iceOk => exact pinEnforced_open hI setup iceOk
  | createOffer sessionId ice mungerOk =>
    obtain ⟨h, hsec⟩ := e.signalled_createOffer sessionId ice mungerOk
    exact pinEnforced_of_same rfl id (congrArg DtlsSession.state hsec.dtls)
      (congrArg History.signalled hsec.history) h.srtpInstalled
  | processRemoteSdp parsed ice mungerOk => exact pinEnforced_processRemoteSdp parsed ice mungerOk
  | pollIceFlap cur r => exact pinEnforced_pollIceFlap hI cur r
  | drainDtls d => exact pinEnforced_drainDtls hI d
  | recv d => exact pinEnforced_recv hI d
  | dtls c => exact pinEnforced_dtls hI c
  | sendAudio | sendVideo | senderReport | flushVideoFeedback => exact pinEnforced_of_media rfl

/-- The description carries the fingerprint of `d` and of nothing else. -/
def Carries (d : Sha256) (sdp : SessionDescription) : Prop :=
  ∀ m ∈ sdp.media, m.dtlsFingerprintAlgo = "sha-256"
    ∧ m.dtlsFingerprintValue = Fingerprint.hexColon d.bytes

/-- A description that carries a digest is taken. -/
theorem signalsPin_of_carries {d : Sha256} {sdp : SessionDescription} (h : Carries d sdp)
    (e : Engine) (ice : IceLocal) (mungerOk : Bool) :
    e.SignalsPin (.processRemoteSdp (some sdp) ice mungerOk) := by
  intro _ m hm _
  obtain ⟨halgo, hvalue⟩ := h m (List.mem_of_find?_eq_some hm)
  rw [hvalue, Fingerprint.decode_hexColon]
  exact ⟨halgo, d.size⟩

section Own

variable {d : Sha256} (hmod : e.modules = true)
  (hfp : e.localFingerprint = Fingerprint.hexColon d.bytes)

include hmod hfp

theorem carries_createOffer {sessionId : String} {ice : IceLocal} {mungerOk : Bool}
    {sdp : SessionDescription} (h : (e.createOffer sessionId ice mungerOk).2 = some sdp) :
    Carries d sdp := by
  have hmedia : sdp.media = e.offerMedia ice := by
    cases mungerOk with
    | false => cases h
    | true =>
      cases h
      rfl
  -- the sections of an offer differ in other fields
  have hsection : ∀ m ∈ e.offerMedia ice, m.dtlsFingerprintAlgo = e.fingerprintAlgo
      ∧ m.dtlsFingerprintValue = e.fingerprintValue := by
    intro m hm
    simp only [offerMedia, List.mem_append, List.mem_singleton] at hm
    rcases hm with (rfl | hm) | hm
    · exact ⟨rfl, rfl⟩
    · split_ifs at hm
      · obtain rfl := List.mem_singleton.1 hm
        exact ⟨rfl, rfl⟩
      · cases hm
    · split_ifs at hm
      · obtain rfl := List.mem_singleton.1 hm
        exact ⟨rfl, rfl⟩
      · cases hm
  intro m hm
  rw [hmedia] at hm
  obtain ⟨halgo, hvalue⟩ := hsection m hm
  rw [halgo, hvalue, fingerprintAlgo, fingerprintValue, if_pos hmod, if_pos hmod]
  exact ⟨rfl, hfp⟩

theorem carries_answer {parsed : Option SessionDescription} {ice : IceLocal} {mungerOk : Bool}
    {sdp : SessionDescription}
    (h : (e.processRemoteSdp parsed ice mungerOk).2 = .answer sdp) : Carries d sdp := by
  obtain ⟨remote, -, -, rfl⟩ := processRemoteSdp_eq_answer h
  have hown : (e.applyRemote remote).modules = e.modules
      ∧ (e.applyRemote remote).localFingerprint = e.localFingerprint := by
    unfold applyRemote applyDtls
    split <;> exact ⟨rfl, rfl⟩
  intro a ha
  obtain ⟨m, -, rfl⟩ := List.mem_map.1 ha
  show (e.applyRemote remote).fingerprintAlgo = _ ∧ (e.applyRemote remote).fingerprintValue = _
  rw [fingerprintAlgo, fingerprintValue, hown.1, if_pos hmod, if_pos hmod, hown.2]
  exact ⟨rfl, hfp⟩

end Own

/-- In a run whose descriptions carry only fingerprints that are taken, the session enters Connected
only by a handshake with the peer that was signalled. -/
theorem pins_enforced (cfg : EngineConfig) (sender : Option VideoSender) (fingerprint : String)
    (evs : List EngineEvent)
    (h : machine.Meets SignalsPin (fresh cfg sender fingerprint) evs) :
    machine.Meets PinEnforced (fresh cfg sender fingerprint) evs :=
  Machine.meets_of_meets (I := PinInv) (fun _ ev hI hok => pinInv_step hI ev hok)
    (fun _ ev hI _ => pinEnforced_step hI ev) evs (pinInv_fresh cfg sender fingerprint) h

/-- An offer of one audio section with this fingerprint. -/
def offerPinned (algo : String) (digest : List UInt8) : SessionDescription :=
  { originSessionId := "7"
    media := [{
      dtlsSetup := "actpass"
      dtlsFingerprintAlgo := algo
      dtlsFingerprintValue := Fingerprint.hexColon digest }] }

/-- A record on which the handshake succeeds with the peer whose digest this is. -/
def completedBy (d : Sha256) : Inbound :=
  { bytes := [22, 0xFE, 0xFD]
    pump := ⟨.success (some d) (some ⟨List.replicate 16 1, List.replicate 16 2,
      List.replicate 14 3, List.replicate 14 4⟩) [], []⟩ }

theorem pins_enforced_offer :
    let evs : List EngineEvent := [.open {} true,
      .processRemoteSdp (some (offerPinned "sha-256" (List.replicate 32 5))) {} true,
      .recv (completedBy ⟨List.replicate 32 5, rfl⟩)]
    machine.Meets SignalsPin (fresh {} none "") evs
      ∧ machine.Meets PinEnforced (fresh {} none "") evs := by
  intro evs
  have hcarries : Carries ⟨List.replicate 32 5, rfl⟩
      (offerPinned "sha-256" (List.replicate 32 5)) := by
    intro m hm
    obtain rfl := List.mem_singleton.1 hm
    exact ⟨rfl, rfl⟩
  have h : machine.Meets SignalsPin (fresh {} none "") evs :=
    ⟨trivial, signalsPin_of_carries hcarries _ _ _, trivial, trivial⟩
  exact ⟨h, pins_enforced {} none "" evs h⟩

/-- A fingerprint under the name `SHA-256` is dropped, and any peer is accepted. -/
theorem pin_dropped : ¬ machine.Meets PinEnforced (fresh {} none "")
    [.open {} true,
      .processRemoteSdp (some (offerPinned "SHA-256" (List.replicate 32 5))) {} true,
      .recv (completedBy ⟨List.replicate 32 6, rfl⟩)] := by
  rintro ⟨-, -, h, -⟩
  have hentered := h.pinned ⟨by decide, fun hc => absurd hc (by decide)⟩ "SHA-256"
    (Fingerprint.hexColon (List.replicate 32 5)) (by decide)
  obtain ⟨-, w, hw, hpeer⟩ := hentered
  rw [Fingerprint.decode_hexColon] at hpeer
  rcases List.mem_pair.1 hw with rfl | rfl
  · exact absurd (show List.replicate 32 (6 : UInt8) = List.replicate 32 5 from hpeer) (by decide)
  · exact hpeer

end Engine

end NimRtc
