import NimRtc.Proofs.AnswerSections
import NimRtc.Proofs.TimelineWindow
import NimRtc.TimelineReceiver

/-!
# What a new description leaves of the old ones

The table of clock rates is made anew of each description. What was pinned for a stream stays, as
does the fingerprint of the peer where the description has none. The rate of a stream is the default
until it is pinned, and no call of the tracker but `set_ssrc_clock_rate` changes it.
-/

namespace NimRtc

namespace Rtp

namespace Stream

variable {s : Stream}

/-- The clock rate of a stream, if it has one. -/
def clockRateHz (s : Stream) : UInt32 := (s.state.getD {}).clockRateHz

theorem clockRateHz_tryAnchorAst (s : Stream) : s.tryAnchorAst.clockRateHz = s.clockRateHz := by
  obtain ⟨-, -, anchored, us, hstate⟩ := s.tryAnchorAst_frame
  rw [clockRateHz, hstate, clockRateHz]
  cases s.state <;> rfl

theorem clockRateHz_refitSsrc (fitSlope : List (ℤ × ℤ) → ℤ) (cfg : SlopeFilterConfig)
    (s : Stream) : (s.refitSsrc fitSlope cfg).clockRateHz = s.clockRateHz := by
  obtain ⟨-, -, hnone, -, -, hsome⟩ := refitSsrc_frame fitSlope cfg s
  rw [clockRateHz, clockRateHz]
  cases hst : (s.refitSsrc fitSlope cfg).state with
  | none => rw [hnone.1 hst]
  | some st =>
    obtain ⟨st₀, hst₀, -, hrate, -⟩ := hsome st hst
    rw [Option.mem_def.1 hst₀]
    exact hrate

theorem clockRateHz_observeAbsSendTime (rtpTs ast : UInt32) (s : Stream) :
    (s.observeAbsSendTime rtpTs ast).clockRateHz = s.clockRateHz := by
  unfold observeAbsSendTime
  dsimp only
  split_ifs
  · rfl
  · exact clockRateHz_tryAnchorAst _
  · exact clockRateHz_tryAnchorAst _

theorem clockRateHz_onSenderReport (fitSlope : List (ℤ × ℤ) → ℤ) (cfg : SlopeFilterConfig)
    (sr : SenderReport) (localRecvUs : ℤ) (h : s.clockRateHz ≠ 0) :
    (s.onSenderReport fitSlope cfg sr localRecvUs).clockRateHz = s.clockRateHz := by
  unfold onSenderReport
  dsimp only
  rw [clockRateHz_tryAnchorAst, clockRateHz_refitSsrc]
  exact if_neg h

end Stream

namespace SenderReportTracker

variable {t : SenderReportTracker}

theorem clockRateFor_update (t : SenderReportTracker) (ssrc x : UInt32) (f : Stream → Stream) :
    (t.update ssrc f).clockRateFor x
      = if x = ssrc then (f (t.streams ssrc)).clockRateHz else t.clockRateFor x := by
  show (Function.update t.streams ssrc (f (t.streams ssrc)) x).clockRateHz = _
  split_ifs with hx
  · rw [hx, Function.update_self]
  · rw [Function.update_of_ne hx]
    rfl

/-- What keeps the rate of the stream it changes, keeps those of all. -/
theorem clockRateFor_update_of_keeps {ssrc : UInt32} {f : Stream → Stream}
    (h : (f (t.streams ssrc)).clockRateHz = t.clockRateFor ssrc) (x : UInt32) :
    (t.update ssrc f).clockRateFor x = t.clockRateFor x := by
  rw [clockRateFor_update]
  split_ifs with hx
  · rw [h, hx]
  · rfl

theorem clockRateFor_captureTsUsFor (t : SenderReportTracker) (q : CaptureQuery) (x : UInt32) :
    (t.captureTsUsFor q).1.clockRateFor x = t.clockRateFor x := by
  unfold captureTsUsFor
  dsimp only
  split_ifs
  · exact clockRateFor_update_of_keeps (Stream.clockRateHz_observeAbsSendTime _ _ _) x
  · rfl

end SenderReportTracker

end Rtp

/-! ### Rates that were pinned -/

namespace TimelineReceiver

variable {r : TimelineReceiver} {cfg : EngineConfig} {fitSlope : List (ℤ × ℤ) → ℤ}

/-- Every stream has a rate, which is the default until one is pinned. -/
structure Rated (cfg : EngineConfig) (r : TimelineReceiver) : Prop where
  cfg : r.engine.cfg = cfg
  nonzero : ∀ ssrc, r.srTracker.clockRateFor ssrc ≠ 0
  unpinned : ∀ ssrc ∉ r.clockRatePinnedSsrcs,
    r.srTracker.clockRateFor ssrc = Rtp.kDefaultClockRateHz

/-- The rate of the stream is pinned, and it is this one. -/
structure PinnedAt (ssrc rate : UInt32) (r : TimelineReceiver) : Prop where
  pinned : ssrc ∈ r.clockRatePinnedSsrcs
  rate : r.srTracker.clockRateFor ssrc = rate

theorem rated_fresh (cfg : EngineConfig) (sender : Option VideoSender) (fingerprint : String) :
    Rated cfg (fresh cfg sender fingerprint) :=
  ⟨rfl, fun _ => show Rtp.kDefaultClockRateHz ≠ 0 by decide, fun _ _ => rfl⟩

/-- Two receivers between which no rate changes. -/
structure SameRates (r r' : TimelineReceiver) : Prop where
  cfg : r'.engine.cfg = r.engine.cfg
  rates : ∀ ssrc, r'.srTracker.clockRateFor ssrc = r.srTracker.clockRateFor ssrc
  pinned : r'.clockRatePinnedSsrcs = r.clockRatePinnedSsrcs

theorem SameRates.rated {r' : TimelineReceiver} (h : SameRates r r') (hr : Rated cfg r) :
    Rated cfg r' :=
  ⟨h.cfg.trans hr.cfg, fun ssrc => by rw [h.rates]; exact hr.nonzero ssrc,
    fun ssrc hssrc => by rw [h.rates]; exact hr.unpinned ssrc (h.pinned ▸ hssrc)⟩

theorem SameRates.pinnedAt {r' : TimelineReceiver} (h : SameRates r r') {ssrc rate : UInt32}
    (hr : PinnedAt ssrc rate r) : PinnedAt ssrc rate r' :=
  ⟨h.pinned ▸ hr.pinned, (h.rates ssrc).trans hr.rate⟩

theorem sameRates_observeTimeline (r : TimelineReceiver) (pv : Rtp.PacketView) (steadyUs : ℤ) :
    SameRates r (r.observeTimeline pv steadyUs).1 := by
  unfold observeTimeline
  cases r.engine.absSendTimeOf pv with
  | none => exact ⟨rfl, fun _ => rfl, rfl⟩
  | some ast =>
    have hrates := r.srTracker.clockRateFor_captureTsUsFor (captureQuery pv ast steadyUs)
    exact ⟨rfl, hrates, rfl⟩

theorem sameRates_handleRtcp (h : ∀ ssrc, r.srTracker.clockRateFor ssrc ≠ 0)
    (sr : Rtp.SenderReport) (steadyUs : ℤ) : SameRates r (r.handleRtcp fitSlope sr steadyUs) := by
  unfold handleRtcp
  split_ifs
  · refine ⟨rfl, fun ssrc => ?_, rfl⟩
    refine Rtp.SenderReportTracker.clockRateFor_update_of_keeps ?_ ssrc
    exact Rtp.Stream.clockRateHz_onSenderReport _ _ _ _ (h sr.ssrc)
  · exact ⟨rfl, fun _ => rfl, rfl⟩

/-- A stream is pinned at the rate of its packet's type, if it has one and is not pinned yet. -/
theorem pinClockRate_cases (r : TimelineReceiver) (pv : Rtp.PacketView) :
    r.pinClockRate pv = r ∧ (r.engine.mediaClockRate pv.payloadType = 0
        ∨ pv.ssrc ∈ r.clockRatePinnedSsrcs)
      ∨ pv.ssrc ∉ r.clockRatePinnedSsrcs ∧ r.engine.mediaClockRate pv.payloadType ≠ 0
        ∧ (r.pinClockRate pv).engine = r.engine
        ∧ (r.pinClockRate pv).clockRatePinnedSsrcs = insert pv.ssrc r.clockRatePinnedSsrcs
        ∧ ∀ ssrc, (r.pinClockRate pv).srTracker.clockRateFor ssrc
          = if ssrc = pv.ssrc then r.engine.mediaClockRate pv.payloadType
            else r.srTracker.clockRateFor ssrc := by
  unfold pinClockRate
  dsimp only
  split_ifs with h
  · refine .inr ⟨h.2, h.1, rfl, rfl, fun ssrc => ?_⟩
    exact Rtp.SenderReportTracker.clockRateFor_update _ _ _ _
  · refine .inl ⟨rfl, ?_⟩
    by_contra hneither
    push Not at hneither
    exact h ⟨hneither.1, hneither.2⟩

theorem Rated.pinClockRate (h : Rated cfg r) (pv : Rtp.PacketView) :
    Rated cfg (r.pinClockRate pv) := by
  rcases r.pinClockRate_cases pv with ⟨heq, -⟩ | ⟨-, hrate, hengine, hpinned, hrates⟩
  · rw [heq]
    exact h
  · refine ⟨by rw [hengine, h.cfg], fun ssrc => ?_, fun ssrc hssrc => ?_⟩
    · rw [hrates]
      split_ifs
      · exact hrate
      · exact h.nonzero ssrc
    · rw [hpinned, Finset.mem_insert, not_or] at hssrc
      rw [hrates, if_neg hssrc.1]
      exact h.unpinned ssrc hssrc.2

theorem PinnedAt.pinClockRate {ssrc rate : UInt32} (h : PinnedAt ssrc rate r)
    (pv : Rtp.PacketView) : PinnedAt ssrc rate (r.pinClockRate pv) := by
  rcases r.pinClockRate_cases pv with ⟨heq, -⟩ | ⟨hnew, -, -, hpinned, hrates⟩
  · rw [heq]
    exact h
  · have hne : ssrc ≠ pv.ssrc := fun heq => hnew (heq ▸ h.pinned)
    refine ⟨by rw [hpinned]; exact Finset.mem_insert_of_mem h.pinned, ?_⟩
    rw [hrates, if_neg hne]
    exact h.rate

variable (fitSlope)

/-- A step keeps every rate that is pinned. -/
theorem rates_step (h : Rated cfg r) (ev : TimelineEvent) :
    Rated cfg (r.step fitSlope ev).1
      ∧ ∀ ssrc rate, PinnedAt ssrc rate r → PinnedAt ssrc rate (r.step fitSlope ev).1 := by
  have hsame : ∀ r' : TimelineReceiver, SameRates r r' →
      Rated cfg r' ∧ ∀ ssrc rate, PinnedAt ssrc rate r → PinnedAt ssrc rate r' :=
    fun r' hr' => ⟨hr'.rated h, fun _ _ => hr'.pinnedAt⟩
  cases ev with
  | engine ev => exact hsame _ ⟨Engine.cfg_step _ ev, fun _ => rfl, rfl⟩
  | setMonotonicOrigin origin => exact hsame _ ⟨rfl, fun _ => rfl, rfl⟩
  | handleRtp pv steadyUs =>
    simp only [step, handleRtp]
    split_ifs
    · have hobserved := sameRates_observeTimeline (r.pinClockRate pv) pv steadyUs
      exact ⟨hobserved.rated (h.pinClockRate pv),
        fun _ _ hat => hobserved.pinnedAt (hat.pinClockRate pv)⟩
    · exact ⟨h, fun _ _ => id⟩
  | handleRtcp sr steadyUs => exact hsame _ (sameRates_handleRtcp h.nonzero sr steadyUs)

/-- A run keeps every rate that is pinned. -/
theorem rates_exec (h : Rated cfg r) (events : List TimelineEvent) :
    Rated cfg ((machine fitSlope).exec r events).1
      ∧ ∀ ssrc rate, PinnedAt ssrc rate r →
        PinnedAt ssrc rate ((machine fitSlope).exec r events).1 := by
  have hstep : ∀ r' ev, (Rated cfg r' ∧ ∀ ssrc rate, PinnedAt ssrc rate r → PinnedAt ssrc rate r') →
      Rated cfg ((machine fitSlope).step r' ev).1
        ∧ ∀ ssrc rate, PinnedAt ssrc rate r →
          PinnedAt ssrc rate ((machine fitSlope).step r' ev).1 := by
    intro r' ev hr'
    obtain ⟨hrated, hkeeps⟩ := rates_step fitSlope hr'.1 ev
    exact ⟨hrated, fun ssrc rate hat => hkeeps ssrc rate (hr'.2 ssrc rate hat)⟩
  exact Machine.exec_preserves hstep events ⟨h, fun _ _ => id⟩

end TimelineReceiver

/-! ### A new description -/

/-- The section gives the DTLS session a fingerprint of the peer. -/
def MediaDescription.GivesFingerprint (m : MediaDescription) : Prop :=
  m.dtlsFingerprintAlgo ≠ "" ∧ m.dtlsFingerprintValue ≠ ""

/-- The fingerprint that the session holds its peer to, if to one. -/
def DtlsSession.peerFp (s : DtlsSession) : Option (List UInt8) :=
  if s.expectedPeerFpSet then some s.expectedPeerFp else none

theorem DtlsSession.peerFp_setPeerFingerprint (s s' : DtlsSession) (algo : String)
    (value : List UInt8) :
    (s.setPeerFingerprint algo value).peerFp = (s'.setPeerFingerprint algo value).peerFp := by
  unfold setPeerFingerprint
  split_ifs <;> rfl

theorem DtlsSession.peerFp_setRole (s : DtlsSession) (role : DtlsRole) :
    (s.setRole role).peerFp = s.peerFp := by
  unfold setRole
  split_ifs <;> rfl

namespace Engine

/-- The session after a description has been applied, as far as the peer goes. -/
theorem dtls_applyRemote (e : Engine) (d : SessionDescription) :
    (d.media.find? (·.recognised) = none ∧ (e.applyRemote d).dtls = e.dtls)
      ∨ ∃ m role, d.media.find? (·.recognised) = some m
        ∧ ((m.GivesFingerprint ∧ (e.applyRemote d).dtls = (e.dtls.setRole role).setPeerFingerprint
              m.dtlsFingerprintAlgo (Fingerprint.decode m.dtlsFingerprintValue))
          ∨ ¬ m.GivesFingerprint ∧ (e.applyRemote d).dtls = e.dtls.setRole role) := by
  unfold applyRemote applyDtls
  cases hm : d.media.find? (·.recognised) with
  | none => exact .inl ⟨rfl, rfl⟩
  | some m =>
    refine .inr ⟨m, (resolveRole (e.remoteIsAnswer d)
      (if m.dtlsSetup = "" then "actpass" else m.dtlsSetup)).1, rfl, ?_⟩
    by_cases hgives : m.GivesFingerprint
    · exact .inl ⟨hgives, if_pos hgives⟩
    · exact .inr ⟨hgives, if_neg hgives⟩

theorem remote_applyRemote (e : Engine) (d : SessionDescription) :
    (e.applyRemote d).remoteClockRateHz = remoteClockRates d.media
      ∧ (e.remoteAbsSendTimeId = 0 → (e.applyRemote d).remoteAbsSendTimeId
        = if e.cfg.timelineEnabled then (peerAbsSendTimeId d.media).getD 0 else 0) := by
  unfold applyRemote applyDtls
  cases d.media.find? (·.recognised) with
  | none =>
    refine ⟨rfl, fun h => ?_⟩
    cases htimeline : e.cfg.timelineEnabled <;> simp [learnAbsSendTimeId, applyIce, htimeline, h]
  | some m =>
    refine ⟨rfl, fun h => ?_⟩
    cases htimeline : e.cfg.timelineEnabled <;>
      simp [learnAbsSendTimeId, applyIce, applyDtlsSection, htimeline, h]

end Engine

namespace TimelineReceiver

/-- The receiver after a run from its construction. -/
def after (fitSlope : List (ℤ × ℤ) → ℤ) (cfg : EngineConfig) (sender : Option VideoSender)
    (fingerprint : String) (events : List TimelineEvent) : TimelineReceiver :=
  ((machine fitSlope).exec (fresh cfg sender fingerprint) events).1

/-- The receiver after one more description. -/
def described (r : TimelineReceiver) (d : SessionDescription) (ice : IceLocal) (mungerOk : Bool) :
    TimelineReceiver :=
  { r with engine := (r.engine.step (.processRemoteSdp (some d) ice mungerOk)).1 }

/-- What two receivers agree on when both were given a description. -/
structure Agree (d : SessionDescription) (r₁ r₂ r₁' r₂' : TimelineReceiver) : Prop where
  clockRates : r₁'.engine.remoteClockRateHz = r₂'.engine.remoteClockRateHz
  unseen : ∀ pv us₁ us₂, pv.ssrc ∉ r₁.clockRatePinnedSsrcs → pv.ssrc ∉ r₂.clockRatePinnedSsrcs →
    (r₁'.handleRtp pv us₁).1.srTracker.clockRateFor pv.ssrc
      = (r₂'.handleRtp pv us₂).1.srTracker.clockRateFor pv.ssrc
  fingerprint : (∃ m ∈ d.media.find? (·.recognised), m.GivesFingerprint) →
    r₁'.engine.dtls.peerFp = r₂'.engine.dtls.peerFp
  absSendTimeId : r₁.engine.remoteAbsSendTimeId = 0 → r₂.engine.remoteAbsSendTimeId = 0 →
    r₁'.engine.remoteAbsSendTimeId = r₂'.engine.remoteAbsSendTimeId

/-- What a receiver that was given a description keeps of before, whatever comes after. -/
structure Kept (fitSlope : List (ℤ × ℤ) → ℤ) (d : SessionDescription) (r r' : TimelineReceiver) :
    Prop where
  seen : ∀ ssrc ∈ r.clockRatePinnedSsrcs, ∀ events,
    ((machine fitSlope).exec r' events).1.srTracker.clockRateFor ssrc
      = r.srTracker.clockRateFor ssrc
  fingerprint : (∀ m ∈ d.media.find? (·.recognised), ¬ m.GivesFingerprint) →
    r'.engine.dtls.peerFp = r.engine.dtls.peerFp

variable {r : TimelineReceiver} {cfg : EngineConfig}

theorem described_engine (h : r.engine.isOpen = true) (d : SessionDescription) (ice : IceLocal)
    (mungerOk : Bool) : ∃ localAbsSendTimeId, (r.described d ice mungerOk).engine
      = { r.engine.applyRemote d with localAbsSendTimeId } :=
  Engine.processRemoteSdp_eq h d ice mungerOk

theorem sameRates_described (r : TimelineReceiver) (d : SessionDescription) (ice : IceLocal)
    (mungerOk : Bool) : SameRates r (r.described d ice mungerOk) :=
  ⟨Engine.cfg_step _ _, fun _ => rfl, rfl⟩

/-- The rate of a stream that is not pinned, after its first packet. -/
theorem clockRateFor_handleRtp (h : Rated cfg r) {pv : Rtp.PacketView}
    (hnew : pv.ssrc ∉ r.clockRatePinnedSsrcs) (steadyUs : ℤ) :
    (r.handleRtp pv steadyUs).1.srTracker.clockRateFor pv.ssrc
      = if cfg.timelineEnabled = true ∧ r.engine.mediaClockRate pv.payloadType ≠ 0 then
        r.engine.mediaClockRate pv.payloadType else Rtp.kDefaultClockRateHz := by
  unfold handleRtp
  rw [h.cfg]
  by_cases htimeline : cfg.timelineEnabled = true
  · rw [if_pos htimeline, (sameRates_observeTimeline _ _ _).rates]
    rcases r.pinClockRate_cases pv with ⟨heq, hzero | hpinned⟩ | ⟨-, hrate, -, -, hrates⟩
    · rw [heq, h.unpinned _ hnew, if_neg fun hboth => hboth.2 hzero]
    · exact absurd hpinned hnew
    · rw [hrates, if_pos rfl, if_pos ⟨htimeline, hrate⟩]
  · rw [if_neg htimeline, h.unpinned _ hnew, if_neg fun hboth => htimeline hboth.1]

theorem kept_described (fitSlope : List (ℤ × ℤ) → ℤ) (h : Rated cfg r)
    (hopen : r.engine.isOpen = true) (d : SessionDescription) (ice : IceLocal) (mungerOk : Bool) :
    Kept fitSlope d r (r.described d ice mungerOk) where
  seen ssrc hssrc events := by
    have hsame := sameRates_described r d ice mungerOk
    exact ((rates_exec fitSlope (hsame.rated h) events).2 ssrc _
      (hsame.pinnedAt ⟨hssrc, rfl⟩)).rate
  fingerprint hnone := by
    obtain ⟨id, heq⟩ := described_engine hopen d ice mungerOk
    rw [heq]
    rcases r.engine.dtls_applyRemote d with
      ⟨-, hdtls⟩ | ⟨m, role, hm, ⟨hgives, -⟩ | ⟨-, hdtls⟩⟩
    · exact congrArg DtlsSession.peerFp hdtls
    · exact absurd hgives (hnone m hm)
    · exact (congrArg DtlsSession.peerFp hdtls).trans (DtlsSession.peerFp_setRole _ role)

theorem agree_described {r₁ r₂ : TimelineReceiver} (h₁ : Rated cfg r₁) (h₂ : Rated cfg r₂)
    (hopen₁ : r₁.engine.isOpen = true) (hopen₂ : r₂.engine.isOpen = true) (d : SessionDescription)
    (ice₁ ice₂ : IceLocal) (mungerOk₁ mungerOk₂ : Bool) :
    Agree d r₁ r₂ (r₁.described d ice₁ mungerOk₁) (r₂.described d ice₂ mungerOk₂) := by
  obtain ⟨id₁, heq₁⟩ := described_engine hopen₁ d ice₁ mungerOk₁
  obtain ⟨id₂, heq₂⟩ := described_engine hopen₂ d ice₂ mungerOk₂
  obtain ⟨hrates₁, hid₁⟩ := r₁.engine.remote_applyRemote d
  obtain ⟨hrates₂, hid₂⟩ := r₂.engine.remote_applyRemote d
  have hrates : (r₁.described d ice₁ mungerOk₁).engine.remoteClockRateHz
      = (r₂.described d ice₂ mungerOk₂).engine.remoteClockRateHz := by
    rw [heq₁, heq₂]
    exact hrates₁.trans hrates₂.symm
  have hrated₁ := (sameRates_described r₁ d ice₁ mungerOk₁).rated h₁
  have hrated₂ := (sameRates_described r₂ d ice₂ mungerOk₂).rated h₂
  refine ⟨hrates, fun pv us₁ us₂ hnew₁ hnew₂ => ?_, ?_, fun hnone₁ hnone₂ => ?_⟩
  · have hrate : (r₁.described d ice₁ mungerOk₁).engine.mediaClockRate pv.payloadType
        = (r₂.described d ice₂ mungerOk₂).engine.mediaClockRate pv.payloadType := by
      unfold Engine.mediaClockRate
      rw [hrates, hrated₁.cfg, hrated₂.cfg]
    rw [clockRateFor_handleRtp hrated₁ hnew₁, clockRateFor_handleRtp hrated₂ hnew₂, hrate]
  · rintro ⟨m, hm, hgives⟩
    have hpin : ∀ e : Engine, ∃ s : DtlsSession, (e.applyRemote d).dtls
        = s.setPeerFingerprint m.dtlsFingerprintAlgo (Fingerprint.decode m.dtlsFingerprintValue) := by
      intro e
      rcases e.dtls_applyRemote d with ⟨hnone, -⟩ | ⟨m', role, hm', hcases⟩
      · cases hnone.symm.trans hm
      · cases hm'.symm.trans hm
        rcases hcases with ⟨-, hdtls⟩ | ⟨hnot, -⟩
        · exact ⟨_, hdtls⟩
        · exact absurd hgives hnot
    obtain ⟨s₁, hs₁⟩ := hpin r₁.engine
    obtain ⟨s₂, hs₂⟩ := hpin r₂.engine
    rw [heq₁, heq₂]
    show (r₁.engine.applyRemote d).dtls.peerFp = (r₂.engine.applyRemote d).dtls.peerFp
    rw [hs₁, hs₂]
    exact DtlsSession.peerFp_setPeerFingerprint s₁ s₂ _ _
  · rw [heq₁, heq₂]
    show (r₁.engine.applyRemote d).remoteAbsSendTimeId
      = (r₂.engine.applyRemote d).remoteAbsSendTimeId
    rw [hid₁ hnone₁, hid₂ hnone₂, h₁.cfg, h₂.cfg]

/-- After any two runs a new description leaves the same table of clock rates, the same rate for a
stream that has none, the same fingerprint if it gives one, and the same extension id if none was
read before. The rates that are pinned stay for good, and so does the fingerprint if it gives none. -/
theorem renegotiation_agrees (fitSlope : List (ℤ × ℤ) → ℤ) (cfg : EngineConfig)
    (sender : Option VideoSender) (fingerprint : String) (events₁ events₂ : List TimelineEvent)
    (d : SessionDescription) (ice₁ ice₂ : IceLocal) (mungerOk₁ mungerOk₂ : Bool)
    (hopen₁ : (after fitSlope cfg sender fingerprint events₁).engine.isOpen = true)
    (hopen₂ : (after fitSlope cfg sender fingerprint events₂).engine.isOpen = true) :
    let r₁ := after fitSlope cfg sender fingerprint events₁
    let r₂ := after fitSlope cfg sender fingerprint events₂
    let r₁' := r₁.described d ice₁ mungerOk₁
    let r₂' := r₂.described d ice₂ mungerOk₂
    Agree d r₁ r₂ r₁' r₂' ∧ Kept fitSlope d r₁ r₁' ∧ Kept fitSlope d r₂ r₂' := by
  intro r₁ r₂ r₁' r₂'
  have hrated : ∀ events, Rated cfg (after fitSlope cfg sender fingerprint events) := fun events =>
    (rates_exec fitSlope (rated_fresh cfg sender fingerprint) events).1
  exact ⟨agree_described (hrated events₁) (hrated events₂) hopen₁ hopen₂ d _ _ _ _,
    kept_described fitSlope (hrated events₁) hopen₁ d ice₁ mungerOk₁,
    kept_described fitSlope (hrated events₂) hopen₂ d ice₂ mungerOk₂⟩

/-- A description of audio under one payload type at a clock rate, with a fingerprint and the
extension of the send time. -/
def audioAt (clockRate : UInt32) (fingerprint : String) : SessionDescription :=
  { originSessionId := "7"
    media := [{
      mid := "0"
      port := 9
      protocol := "UDP/TLS/RTP/SAVPF"
      formats := ["111"]
      dtlsFingerprintAlgo := "sha-256"
      dtlsFingerprintValue := fingerprint
      dtlsSetup := "actpass"
      rtpmap := [("111", { encoding := "opus", clockRate, channels := 2 })]
      extmap := [Engine.absSendTimeMap 4] }] }

def audioPacket : Rtp.PacketView :=
  { payload := []
    ssrc := 1
    seq := 0
    timestamp := 0
    payloadType := 111
    marker := false
    csrc := []
    extension := none
    extmapUri := fun _ => none }

/-- A run in which a stream is seen under a description. -/
def seenAt (clockRate : UInt32) (fingerprint : String) : List TimelineEvent :=
  [.engine (.open {} true),
    .engine (.processRemoteSdp (some (audioAt clockRate fingerprint)) {} true),
    .handleRtp audioPacket 0]

theorem renegotiation_agrees_audio :
    let r := after (fun _ => 0) { timelineEnabled := true } none "" (seenAt 48000 "0A:1B")
    let r' := after (fun _ => 0) { timelineEnabled := true } none "" (seenAt 8000 "2C:3D")
    let d := audioAt 16000 "4E:5F"
    Agree d r r' (r.described d {} true) (r'.described d {} true)
      ∧ (r.described d {} true).engine.dtls.peerFp = (r'.described d {} true).engine.dtls.peerFp := by
  intro r r' d
  have hagree : Agree d r r' (r.described d {} true) (r'.described d {} true) :=
    (renegotiation_agrees (fun _ => 0) { timelineEnabled := true } none "" (seenAt 48000 "0A:1B")
      (seenAt 8000 "2C:3D") d {} {} true true rfl rfl).1
  have hgives : ∃ m ∈ d.media.find? (·.recognised), m.GivesFingerprint :=
    ⟨_, rfl, show "sha-256" ≠ "" by decide, show "4E:5F" ≠ "" by decide⟩
  exact ⟨hagree, hagree.fingerprint hgives⟩

/-- The rate of a stream that was seen is that of the first description, not of the last. -/
theorem stale_clock_rate : ¬ ∀ (cfg : EngineConfig) (events₁ events₂ : List TimelineEvent)
    (d : SessionDescription) (ssrc : UInt32),
    let r₁ := after (fun _ => 0) cfg none "" events₁
    let r₂ := after (fun _ => 0) cfg none "" events₂
    r₁.engine.isOpen = true → r₂.engine.isOpen = true →
      (r₁.described d {} true).srTracker.clockRateFor ssrc
        = (r₂.described d {} true).srTracker.clockRateFor ssrc := by
  intro hall
  have hrates := hall { timelineEnabled := true } (seenAt 48000 "") (seenAt 8000 "") (audioAt 16000 "")
    1 rfl rfl
  exact absurd (show (48000 : UInt32) = 8000 from hrates) (by decide)

end TimelineReceiver

end NimRtc
