import NimRtc.EngineRuns
import NimRtc.Proofs.DtlsStep
import NimRtc.Proofs.SrtpKeys

/-!
# What the operations of the engine leave alone

The media paths touch neither the DTLS session nor the engine's idea of its role, and of the SRTP
context they only add sessions. Each operation has one lemma that says so, and the invariants of
the engine are carried over the media paths by it.
-/

namespace NimRtc

namespace SrtpContext

/-- Every session of the context has a libsrtp session. -/
def Ready (c : SrtpContext) : Prop :=
  ∀ d ssrc s, (c.sessions d).lookup ssrc = some (some s) → s.session.isSome

theorem ready_empty : ({} : SrtpContext).Ready := by
  intro d ssrc s h
  cases d <;> cases h

/-- A context with the same keys and sessions that are as ready. -/
structure SameKeys (c c' : SrtpContext) : Prop where
  key : ∀ d, c'.key d = c.key d
  salt : ∀ d, c'.salt d = c.salt d
  ready : c.Ready → c'.Ready

theorem SameKeys.refl (c : SrtpContext) : SameKeys c c := ⟨fun _ => rfl, fun _ => rfl, id⟩

theorem SameKeys.trans {c c' c'' : SrtpContext} (h : SameKeys c c') (h' : SameKeys c' c'') :
    SameKeys c c'' :=
  ⟨fun d => (h'.key d).trans (h.key d), fun d => (h'.salt d).trans (h.salt d),
    fun hc => h'.ready (h.ready hc)⟩

theorem sameKeys_getSession (c : SrtpContext) (ssrc : UInt32) (outgoing create : Bool) :
    SameKeys c (c.getSession ssrc outgoing create).2 := by
  unfold getSession
  rcases c.install_cases ssrc outgoing create with ⟨s, -, h⟩ | ⟨m, hm, h⟩ | ⟨s, -, hs, h⟩
  · rw [h]
    exact .refl c
  · rw [h]
    refine ⟨fun d => by simp, fun d => by simp, fun hc d x s hx => ?_⟩
    simp only [sessions_setSessions] at hx
    split_ifs at hx with hd
    · exact hc outgoing x s (hm x s hx)
    · exact hc d x s hx
  · rw [h]
    refine ⟨fun d => by simp, fun d => by simp, fun hc d x s' hx => ?_⟩
    simp only [sessions_setSessions] at hx
    split_ifs at hx with hd
    · by_cases hxs : x = ssrc
      · subst hxs
        rw [AList.lookup_insert, Option.some.injEq, Option.some.injEq] at hx
        obtain ⟨-, l, hl, -⟩ := hs
        rw [← hx, hl]
        rfl
      · rw [AList.lookup_insert_ne hxs] at hx
        exact hc outgoing x s' hx
    · exact hc d x s' hx

theorem ready_getSession {c : SrtpContext} (hc : c.Ready) {ssrc : UInt32} {outgoing create : Bool}
    {s : SrtpSession} (h : (c.getSession ssrc outgoing create).1 = some s) : s.session.isSome := by
  unfold getSession at h
  rcases c.install_cases ssrc outgoing create with
      ⟨s', hs', heq⟩ | ⟨m, -, heq⟩ | ⟨s', -, hs', heq⟩ <;>
    rw [heq] at h
  · cases h
    exact hc outgoing ssrc s hs'
  · cases h
  · cases h
    obtain ⟨-, l, hl, -⟩ := hs'
    rw [hl]
    rfl

/-- `get_session` gives a session if there is one, or libsrtp creates it and there are keys. -/
theorem getSession_isSome {c : SrtpContext} {ssrc : UInt32} {outgoing create : Bool}
    (hkey : c.key outgoing ≠ []) (hsalt : c.salt outgoing ≠ []) :
    (c.getSession ssrc outgoing create).1.isSome
      ↔ (∃ s, (c.sessions outgoing).lookup ssrc = some (some s)) ∨ create := by
  unfold getSession install
  split
  · rename_i s hs
    simp [hs]
  · rename_i hnone
    rw [if_neg (by simp [hkey, hsalt])]
    have hno : ¬ ∃ s, (c.sessions outgoing).lookup ssrc = some (some s) := fun ⟨s, hs⟩ => hnone s hs
    cases create <;> simp [SrtpSession.initFromMasterKeyDir, hkey, hsalt, hno]

end SrtpContext

/-- The report of a media path. -/
def EngineReport.ofMedia : EngineReport → Prop
  | .emitted _ | .handed _ => True
  | .dtlsRecord _ | .dtls _ | .installed _ _ => False

namespace Engine

/-- What a media path leaves of an engine, and that it reports of media only. -/
structure MediaOp (e : Engine) (r : Engine × List EngineReport) : Prop where
  cfg : r.1.cfg = e.cfg
  state : r.1.state = e.state
  dtls : r.1.dtls = e.dtls
  dtlsIsClient : r.1.dtlsIsClient = e.dtlsIsClient
  srtpInstalled : r.1.srtpInstalled = e.srtpInstalled
  history : r.1.history = e.history
  srtp : e.srtp.SameKeys r.1.srtp
  reports : ∀ x ∈ r.2, x.ofMedia

theorem MediaOp.of_eq {e e' : Engine} (h₁ : e'.cfg = e.cfg) (h₂ : e'.state = e.state)
    (h₃ : e'.dtls = e.dtls) (h₄ : e'.dtlsIsClient = e.dtlsIsClient)
    (h₅ : e'.srtpInstalled = e.srtpInstalled) (h₆ : e'.history = e.history)
    (h₇ : e'.srtp = e.srtp) : MediaOp e (e', []) :=
  ⟨h₁, h₂, h₃, h₄, h₅, h₆, h₇ ▸ .refl _, by simp⟩

theorem MediaOp.refl (e : Engine) : MediaOp e (e, []) := .of_eq rfl rfl rfl rfl rfl rfl rfl

theorem MediaOp.andThen {e : Engine} {r : Engine × List EngineReport}
    {f : Engine → Engine × List EngineReport} (h : MediaOp e r) (h' : MediaOp r.1 (f r.1)) :
    MediaOp e (andThen r f) where
  cfg := h'.cfg.trans h.cfg
  state := h'.state.trans h.state
  dtls := h'.dtls.trans h.dtls
  dtlsIsClient := h'.dtlsIsClient.trans h.dtlsIsClient
  srtpInstalled := h'.srtpInstalled.trans h.srtpInstalled
  history := h'.history.trans h.history
  srtp := h.srtp.trans h'.srtp
  reports x hx := by
    rcases List.mem_append.1 hx with hx | hx
    · exact h.reports x hx
    · exact h'.reports x hx

/-- The same operation after a change of fields that no media path is asked about. -/
theorem MediaOp.of_start {e s : Engine} {r : Engine × List EngineReport}
    (h : MediaOp e (s, [])) (h' : MediaOp s r) : MediaOp e r :=
  h.andThen (f := fun _ => r) h'

/-- Before keys are installed a packet passes as it is; after, it is dropped or it is the output of
a protect call of the session of its SSRC. -/
theorem protectOrPass_cases (e : Engine) (rtcp : Bool) (ssrc : UInt32) (packet : List UInt8)
    (lib : LibSrtpCall) :
    (e.srtpInstalled = false ∧ e.protectOrPass rtcp ssrc packet lib = (e, some (packet, none)))
      ∨ e.srtpInstalled = true ∧ ∃ srtp, e.srtp.SameKeys srtp
        ∧ (e.protectOrPass rtcp ssrc packet lib = ({ e with srtp }, none)
          ∨ ∃ s out, (e.srtp.Ready → s.session.isSome)
            ∧ (⟨s, rtcp, packet, lib.out⟩ : PacketCall).protect = .ok out
            ∧ e.protectOrPass rtcp ssrc packet lib
              = ({ e with srtp }, some (out, some ⟨s, rtcp, packet, lib.out⟩))) := by
  unfold protectOrPass
  cases hins : e.srtpInstalled with
  | false => exact .inl ⟨rfl, rfl⟩
  | true =>
    refine .inr ⟨rfl, (e.srtp.getSession ssrc true lib.create).2,
      e.srtp.sameKeys_getSession ssrc true lib.create, ?_⟩
    simp only [if_true]
    cases hs : (e.srtp.getSession ssrc true lib.create).1 with
    | none => exact .inl rfl
    | some s =>
      have hready : e.srtp.Ready → s.session.isSome :=
        fun hr => SrtpContext.ready_getSession hr hs
      cases hp : (⟨s, rtcp, packet, lib.out⟩ : PacketCall).protect with
      | error err => exact .inl (by simp only [hp])
      | ok out => exact .inr ⟨s, out, hready, hp, by simp only [hp]⟩

theorem mediaOp_srtp (e : Engine) {srtp : SrtpContext} (h : e.srtp.SameKeys srtp) :
    MediaOp e ({ e with srtp }, []) :=
  ⟨rfl, rfl, rfl, rfl, rfl, rfl, h, by simp⟩

theorem mediaOp_videoPacket (e : Engine) (p : CachedPacket) (lib : LibSrtpCall) :
    MediaOp e (e.videoPacket p lib) := by
  unfold videoPacket
  rcases e.protectOrPass_cases false e.cfg.videoSenderSsrc (videoRtpHeader e.cfg p ++ p.payload)
    lib with ⟨-, h⟩ | ⟨-, srtp, hkeys, h | ⟨s, out, -, -, h⟩⟩ <;> rw [h]
  · exact ⟨rfl, rfl, rfl, rfl, rfl, rfl, .refl _, by simp [EngineReport.ofMedia]⟩
  · exact mediaOp_srtp e hkeys
  · exact ⟨rfl, rfl, rfl, rfl, rfl, rfl, hkeys, by simp [EngineReport.ofMedia]⟩

theorem mediaOp_videoPackets : ∀ (ps : List CachedPacket) (e : Engine) (lib : ℕ → LibSrtpCall),
    MediaOp e (e.videoPackets ps lib)
  | [], e, _ => .refl e
  | p :: ps, e, lib => (mediaOp_videoPacket e p (lib 0)).andThen (mediaOp_videoPackets ps _ _)

theorem mediaOp_sendRtcp (e : Engine) (kind : MediaKind) (ssrc : UInt32) (r : RtcpBuild) :
    MediaOp e (e.sendRtcp kind ssrc r) := by
  unfold sendRtcp
  rcases e.protectOrPass_cases true ssrc r.bytes r.lib with
      ⟨-, h⟩ | ⟨-, srtp, hkeys, h | ⟨s, out, -, -, h⟩⟩ <;> rw [h]
  · exact ⟨rfl, rfl, rfl, rfl, rfl, rfl, .refl _, by simp [EngineReport.ofMedia]⟩
  · exact mediaOp_srtp e hkeys
  · exact ⟨rfl, rfl, rfl, rfl, rfl, rfl, hkeys, by simp [EngineReport.ofMedia]⟩

theorem mediaOp_sendVideo (e : Engine) (f : VideoFrame) : MediaOp e (e.sendVideo f) := by
  unfold sendVideo
  split
  · exact .of_eq rfl rfl rfl rfl rfl rfl rfl
  · refine .andThen (.of_start ?_ (mediaOp_videoPackets _ _ _)) ?_
    · exact .of_eq rfl rfl rfl rfl rfl rfl rfl
    · exact .of_eq rfl rfl rfl rfl rfl rfl rfl

/-- The engine after `send_audio` has read the clock. -/
def stamped (e : Engine) (f : AudioFrame) : Engine :=
  if e.cfg.timelineEnabled then { e with audioLastSendUnixUs := f.sendUnixUs } else e

/-- What is handed over, if anything is left of the packet. -/
def handAudio : Engine × Option (List UInt8 × Option PacketCall) → Engine × List EngineReport
  | (e, none) => (e, [])
  | (e, some (bytes, call)) => (e, [.emitted ⟨.audio, e.sendPath .audio, bytes, call⟩])

@[simp] theorem handAudio_fst (r : Engine × Option (List UInt8 × Option PacketCall)) :
    (handAudio r).1 = r.1 := by
  rcases r with ⟨e, _ | ⟨bytes, sess⟩⟩ <;> rfl

@[simp] theorem handAudio_eq_nil (r : Engine × Option (List UInt8 × Option PacketCall)) :
    (handAudio r).2 = [] ↔ r.2 = none := by
  rcases r with ⟨e, _ | ⟨bytes, sess⟩⟩ <;> simp [handAudio]

theorem sendAudio_eq (e : Engine) (f : AudioFrame) :
    e.sendAudio f = if !e.audioReady f then (e, []) else if f.packet = [] then (e.stamped f, [])
      else handAudio (((e.stamped f).countAudio f).protectOrPass false audioSsrcOnWire f.packet
        f.lib) := rfl

theorem mediaOp_sendAudio (e : Engine) (f : AudioFrame) : MediaOp e (e.sendAudio f) := by
  rw [sendAudio_eq]
  split
  · exact .refl e
  · have htime : MediaOp e (e.stamped f, []) := by
      unfold stamped
      split_ifs <;> exact .of_eq rfl rfl rfl rfl rfl rfl rfl
    refine .of_start htime ?_
    generalize e.stamped f = e'
    split_ifs
    · exact .refl e'
    · refine .of_start (s := e'.countAudio f) (.of_eq rfl rfl rfl rfl rfl rfl rfl) ?_
      rcases (e'.countAudio f).protectOrPass_cases false audioSsrcOnWire f.packet f.lib with
          ⟨-, h⟩ | ⟨-, srtp, hkeys, h | ⟨s, out, -, -, h⟩⟩ <;> rw [h]
      · exact ⟨rfl, rfl, rfl, rfl, rfl, rfl, .refl _, by simp [handAudio, EngineReport.ofMedia]⟩
      · exact mediaOp_srtp _ hkeys
      · exact ⟨rfl, rfl, rfl, rfl, rfl, rfl, hkeys, by simp [handAudio, EngineReport.ofMedia]⟩

theorem mediaOp_maybeSendSenderReport (e : Engine) (iceUp elapsed : Bool) (r : RtcpBuild) :
    MediaOp e (e.maybeSendSenderReport iceUp elapsed r) := by
  unfold maybeSendSenderReport
  split_ifs
  · exact mediaOp_sendRtcp e _ _ r
  · exact .refl e

theorem mediaOp_flushVideoFeedback (e : Engine) (iceUp : Bool) (r : RtcpBuild) :
    MediaOp e (e.flushVideoFeedback iceUp r) := by
  refine .of_start (s := { e with pendingVideoFeedback := none })
    (.of_eq rfl rfl rfl rfl rfl rfl rfl) ?_
  unfold flushVideoFeedback
  simp only []
  split_ifs
  · exact mediaOp_sendRtcp _ _ _ r
  · exact .refl _

theorem mediaOp_handleRtp (e : Engine) (feedback : Option VideoFeedbackReport) :
    MediaOp e (e.handleRtp feedback, []) := by
  unfold handleRtp
  split_ifs
  · cases feedback with
    | none => exact .refl e
    | some r =>
      simp only [Option.map_some, Option.getD_some, queueVideoFeedback]
      split_ifs
      · exact .refl e
      · split <;> exact .of_eq rfl rfl rfl rfl rfl rfl rfl
  · exact .refl e

theorem mediaOp_handleRtcp (e : Engine) (actions : List FeedbackAction) (lib : ℕ → LibSrtpCall) :
    MediaOp e (e.handleRtcp actions lib) := by
  refine .of_start ?_ (mediaOp_videoPackets _ _ _)
  exact .of_eq rfl rfl rfl rfl rfl rfl rfl

theorem mediaOp_handed (e : Engine) (h : Handed) : MediaOp e (e, [.handed h]) :=
  ⟨rfl, rfl, rfl, rfl, rfl, rfl, .refl _, by simp [EngineReport.ofMedia]⟩

theorem mediaOp_dispatchMediaInbound (e : Engine) (d : Inbound) (packet : List UInt8)
    (call : Option PacketCall) : MediaOp e (e.dispatchMediaInbound d packet call) := by
  unfold dispatchMediaInbound
  split_ifs
  · exact (mediaOp_handed e _).andThen (mediaOp_handleRtcp e _ _)
  · exact (mediaOp_handed e _).andThen (f := fun e => (e.handleRtp d.feedback, []))
      (mediaOp_handleRtp e _)
  · exact .refl e

theorem mediaOp_recvMedia (e : Engine) (d : Inbound) : MediaOp e (e.recvMedia d) := by
  unfold recvMedia
  by_cases hins : e.srtpInstalled = true
  · rw [if_pos hins]
    refine .of_start (mediaOp_srtp e (e.srtp.sameKeys_getSession 0 false d.create)) ?_
    simp only []
    split
    · exact mediaOp_dispatchMediaInbound _ _ _ _
    · split
      · exact mediaOp_dispatchMediaInbound _ _ _ _
      · split
        · exact (mediaOp_handed _ _).andThen (mediaOp_handleRtcp _ _ _)
        · exact .of_eq rfl rfl rfl rfl rfl rfl rfl
  · rw [if_neg hins]
    exact mediaOp_dispatchMediaInbound _ _ _ _

/-- Keys are installed from a connected session that has them, if none are. -/
theorem maybeInstallSrtpKeys_cases (e : Engine) :
    e.maybeInstallSrtpKeys = (e, [])
      ∨ e.dtls.state = .connected ∧ ∃ km, e.dtls.srtpKeys = some km
        ∧ e.maybeInstallSrtpKeys
          = ({ e with
                srtp := e.installKeys km
                srtpInstalled := true
                history := { e.history with keyedOnce := true } },
              [.installed e.dtlsIsClient e.history.lastHandshake]) := by
  unfold maybeInstallSrtpKeys
  by_cases hins : e.srtpInstalled = true
  · exact .inl (if_pos hins)
  · rw [if_neg hins]
    by_cases hstate : e.dtls.state = .connected
    · rw [if_neg (not_not.2 hstate), DtlsSession.srtpKeyingMaterial, if_neg (not_not.2 hstate)]
      cases hkm : e.dtls.srtpKeys with
      | none => exact .inl rfl
      | some km => exact .inr ⟨hstate, km, rfl, rfl⟩
    · exact .inl (if_pos hstate)

theorem state_maybeInstallSrtpKeys (e : Engine) : e.maybeInstallSrtpKeys.1.state = e.state := by
  rcases e.maybeInstallSrtpKeys_cases with h | ⟨-, km, -, h⟩ <;> rw [h]

/-- The DTLS session is driven, its records are sent, and the keys are installed if it is
connected. -/
theorem drainDtls_eq (e : Engine) (d : DrainEnv) :
    e.drainDtls d
      = andThen (e.onDtls ((e.dtls.call (.tick d.resent)).1.call (.takeOutbound d.pump))) fun e' =>
        andThen (e', ((e.dtls.tick d.resent).takeOutbound d.pump).1.map .dtlsRecord) fun e' =>
          if e'.dtls.state = .connected then e'.maybeInstallSrtpKeys else (e', []) := rfl

theorem state_drainDtls (e : Engine) (d : DrainEnv) : (e.drainDtls d).1.state = e.state := by
  simp only [drainDtls, andThen]
  split_ifs
  · rw [state_maybeInstallSrtpKeys]
    rfl
  · rfl

/-- The watch on ICE writes its own fields, and it may start a rehandshake. -/
theorem pollIceFlap_cases (e : Engine) (cur : IceState) (r : RehandshakeEnv) :
    ∃ once armed, (e.rehandshakeDue cur = false ∧ e.pollIceFlapForRehandshake cur r
        = ({ e with lastIceState := cur, iceConnectedOnce := once, iceRehandshakeArmed := armed },
          []))
      ∨ ∃ installed, (installed = true → e.srtpInstalled = true)
        ∧ e.pollIceFlapForRehandshake cur r
        = andThen ({ e with
            lastIceState := cur
            iceConnectedOnce := once
            iceRehandshakeArmed := armed }.onDtls
          (e.dtls.call (.rehandshake r.renegotiated r.setup r.pump)))
          fun e => ({ e with srtpInstalled := installed }, []) := by
  unfold pollIceFlapForRehandshake
  by_cases hsame : cur = e.lastIceState
  · refine ⟨e.iceConnectedOnce, e.iceRehandshakeArmed, .inl ⟨by simp [rehandshakeDue, hsame], ?_⟩⟩
    rw [if_pos hsame, hsame]
  · rw [if_neg hsame]
    simp only []
    by_cases hup : (cur.up && !e.lastIceState.up) = true
    · rw [if_pos hup]
      by_cases honce : (!e.iceConnectedOnce) = true
      · refine ⟨true, e.iceRehandshakeArmed, .inl ⟨?_, if_pos honce⟩⟩
        rw [Bool.not_eq_true'] at honce
        simp [rehandshakeDue, honce]
      · rw [if_neg honce]
        by_cases harmed : e.iceRehandshakeArmed = true
        · rw [if_pos harmed]
          by_cases hdue : e.rehandshakeDue cur = true
          · refine ⟨e.iceConnectedOnce, false, .inr
              ⟨if (e.dtls.rehandshake r.renegotiated r.setup r.pump).1 = .ok then false
                else e.srtpInstalled, ?_, ?_⟩⟩
            · split_ifs <;> simp
            rw [if_pos hdue]
            simp only [andThen, onDtls, DtlsSession.call]
            split_ifs <;> rfl
          · exact ⟨e.iceConnectedOnce, false, .inl ⟨by simpa using hdue, if_neg hdue⟩⟩
        · refine ⟨e.iceConnectedOnce, e.iceRehandshakeArmed, .inl ⟨?_, if_neg harmed⟩⟩
          simp [rehandshakeDue, harmed]
    · rw [if_neg hup]
      have hdue : e.rehandshakeDue cur = false := by
        unfold rehandshakeDue
        rw [Bool.and_assoc (decide _) cur.up, Bool.eq_false_iff.2 hup]
        simp
      by_cases hdown : (!cur.up && e.iceConnectedOnce) = true
      · exact ⟨e.iceConnectedOnce, true, .inl ⟨hdue, if_pos hdown⟩⟩
      · exact ⟨e.iceConnectedOnce, e.iceRehandshakeArmed, .inl ⟨hdue, if_neg hdown⟩⟩

theorem state_pollIceFlap (e : Engine) (cur : IceState) (r : RehandshakeEnv) :
    (e.pollIceFlapForRehandshake cur r).1.state = e.state := by
  rcases e.pollIceFlap_cases cur r with ⟨once, armed, ⟨-, h⟩ | ⟨installed, -, h⟩⟩
  · rw [h]
  · rw [h]
    rfl

/-- `open` fails or succeeds on an engine that is not open yet, with a new DTLS session unless
there is one. -/
theorem open_cases (e : Engine) (setup : WolfSetup) (iceOk : Bool) :
    e.open setup iceOk = (e, [])
      ∨ e.state = .constructed ∧ ∃ state modules,
        e.open setup iceOk = ({ e with state, modules }, [])
          ∨ e.open setup iceOk
            = ({ e with state, modules, dtls := (DtlsSession.open {} setup).2, srtp := {} },
              [.dtls (.opened (DtlsSession.open {} setup).1 (DtlsSession.open {} setup).2.ssl)]) := by
  unfold Engine.open
  by_cases hstate : e.state = .constructed
  · refine .inr ⟨hstate, ?_⟩
    rw [if_neg (not_not.2 hstate)]
    generalize DtlsSession.open {} setup = opened
    obtain ⟨ok, d⟩ := opened
    cases hmod : e.modules with
    | true =>
      cases iceOk with
      | true => exact ⟨.open, true, .inl (by simp [hmod])⟩
      | false => exact ⟨e.state, false, .inl (by simp)⟩
    | false =>
      cases ok with
      | false => exact ⟨e.state, true, .inr rfl⟩
      | true =>
        cases iceOk with
        | true => exact ⟨.open, true, .inr rfl⟩
        | false => exact ⟨e.state, false, .inr rfl⟩
  · exact .inl (if_pos hstate)

theorem control_onDtls (e : Engine) (r : DtlsSession × List DtlsReport) :
    ∀ o ∈ (e.onDtls r).2, ¬ o.ofMedia := by
  intro o ho
  obtain ⟨d, -, rfl⟩ := List.mem_map.1 ho
  exact id

theorem control_maybeInstallSrtpKeys (e : Engine) :
    ∀ o ∈ e.maybeInstallSrtpKeys.2, ¬ o.ofMedia := by
  rcases e.maybeInstallSrtpKeys_cases with h | ⟨-, km, -, h⟩ <;> rw [h] <;>
    simp [EngineReport.ofMedia]

theorem control_drainDtls (e : Engine) (d : DrainEnv) : ∀ o ∈ (e.drainDtls d).2, ¬ o.ofMedia := by
  intro o ho
  rw [drainDtls_eq] at ho
  simp only [andThen] at ho
  rcases List.mem_append.1 ho with ho | ho
  · exact control_onDtls e _ o ho
  · rcases List.mem_append.1 ho with ho | ho
    · obtain ⟨b, -, rfl⟩ := List.mem_map.1 ho
      exact id
    · split_ifs at ho
      · exact control_maybeInstallSrtpKeys _ o ho
      · cases ho

theorem control_pollIceFlap (e : Engine) (cur : IceState) (r : RehandshakeEnv) :
    ∀ o ∈ (e.pollIceFlapForRehandshake cur r).2, ¬ o.ofMedia := by
  rcases e.pollIceFlap_cases cur r with ⟨once, armed, ⟨-, h⟩ | ⟨installed, -, h⟩⟩ <;> rw [h]
  · simp
  · intro o ho
    rcases List.mem_append.1 ho with ho | ho
    · exact control_onDtls _ _ o ho
    · cases ho

theorem control_open (e : Engine) (setup : WolfSetup) (iceOk : Bool) :
    ∀ o ∈ (e.open setup iceOk).2, ¬ o.ofMedia := by
  rcases e.open_cases setup iceOk with h | ⟨-, state, modules, h | h⟩ <;> rw [h] <;>
    simp [EngineReport.ofMedia]

/-- What signalling leaves of an engine. -/
structure Signalled (e e' : Engine) : Prop where
  state : e'.state = e.state
  srtp : e'.srtp = e.srtp
  srtpInstalled : e'.srtpInstalled = e.srtpInstalled

/-- The fields that a description's first section decides. -/
structure SameSection (e e' : Engine) : Prop where
  dtls : e'.dtls = e.dtls
  dtlsIsClient : e'.dtlsIsClient = e.dtlsIsClient
  history : e'.history = e.history

theorem Signalled.trans {e e' e'' : Engine} (h : Signalled e e') (h' : Signalled e' e'') :
    Signalled e e'' :=
  ⟨h'.state.trans h.state, h'.srtp.trans h.srtp, h'.srtpInstalled.trans h.srtpInstalled⟩

theorem SameSection.trans {e e' e'' : Engine} (h : SameSection e e') (h' : SameSection e' e'') :
    SameSection e e'' :=
  ⟨h'.dtls.trans h.dtls, h'.dtlsIsClient.trans h.dtlsIsClient, h'.history.trans h.history⟩

theorem signalled_createOffer (e : Engine) (sessionId : String) (ice : IceLocal) (mungerOk : Bool) :
    Signalled e (e.createOffer sessionId ice mungerOk).1
      ∧ SameSection e (e.createOffer sessionId ice mungerOk).1 := by
  unfold createOffer
  cases mungerOk <;> exact ⟨⟨rfl, rfl, rfl⟩, rfl, rfl, rfl⟩

theorem signalled_applyRemote (e : Engine) (remote : SessionDescription) :
    Signalled e (e.applyRemote remote)
      ∧ (SameSection e (e.applyRemote remote)
        ∨ ∃ m, remote.media.find? (·.recognised) = some m
          ∧ SameSection (e.applyDtlsSection (e.remoteIsAnswer remote) m) (e.applyRemote remote)) := by
  unfold applyRemote applyDtls
  cases hm : remote.media.find? (·.recognised) with
  | none => exact ⟨⟨rfl, rfl, rfl⟩, .inl ⟨rfl, rfl, rfl⟩⟩
  | some m => exact ⟨⟨rfl, rfl, rfl⟩, .inr ⟨m, rfl, rfl, rfl, rfl⟩⟩

/-- An answer changes nothing but the engine's own extension id after the description is applied. -/
theorem processRemoteSdp_eq {e : Engine} (h : e.isOpen = true) (d : SessionDescription)
    (ice : IceLocal) (mungerOk : Bool) :
    ∃ localAbsSendTimeId, (e.processRemoteSdp (some d) ice mungerOk).1
      = { e.applyRemote d with localAbsSendTimeId } := by
  rw [isOpen, decide_eq_true_eq] at h
  unfold processRemoteSdp
  rw [if_neg (not_not.2 h)]
  dsimp only
  split_ifs
  · exact ⟨(e.applyRemote d).localAbsSendTimeId, rfl⟩
  · exact ⟨((e.applyRemote d).declareAbsSendTimeId d).localAbsSendTimeId, rfl⟩
  · exact ⟨((e.applyRemote d).declareAbsSendTimeId d).localAbsSendTimeId, rfl⟩

/-- `process_remote_sdp` leaves the role and the pin alone, or takes them from the first section
that it recognises. -/
theorem signalled_processRemoteSdp (e : Engine) (parsed : Option SessionDescription)
    (ice : IceLocal) (mungerOk : Bool) :
    Signalled e (e.processRemoteSdp parsed ice mungerOk).1
      ∧ (SameSection e (e.processRemoteSdp parsed ice mungerOk).1
        ∨ e.isOpen = true ∧ ∃ remote m, parsed = some remote
          ∧ remote.media.find? (·.recognised) = some m
          ∧ SameSection (e.applyDtlsSection (e.remoteIsAnswer remote) m)
            (e.processRemoteSdp parsed ice mungerOk).1) := by
  by_cases hopen : e.state = .open
  · cases parsed with
    | none =>
      have hfailed : e.processRemoteSdp none ice mungerOk = (e, .failed) := by
        unfold processRemoteSdp
        split_ifs <;> rfl
      rw [hfailed]
      exact ⟨⟨rfl, rfl, rfl⟩, .inl ⟨rfl, rfl, rfl⟩⟩
    | some remote =>
      have hisOpen : e.isOpen = true := by
        rw [isOpen, hopen]
        rfl
      have hafter : Signalled (e.applyRemote remote)
          (e.processRemoteSdp (some remote) ice mungerOk).1
          ∧ SameSection (e.applyRemote remote)
            (e.processRemoteSdp (some remote) ice mungerOk).1 := by
        obtain ⟨id, heq⟩ := processRemoteSdp_eq hisOpen remote ice mungerOk
        rw [heq]
        exact ⟨⟨rfl, rfl, rfl⟩, rfl, rfl, rfl⟩
      obtain ⟨hs, hsec⟩ := hafter
      rcases e.signalled_applyRemote remote with ⟨h, hsec' | ⟨m, hm, hsec'⟩⟩
      · exact ⟨h.trans hs, .inl (hsec'.trans hsec)⟩
      · exact ⟨h.trans hs, .inr ⟨hisOpen, remote, m, rfl, hm, hsec'.trans hsec⟩⟩
  · unfold processRemoteSdp
    rw [if_pos hopen]
    exact ⟨⟨rfl, rfl, rfl⟩, .inl ⟨rfl, rfl, rfl⟩⟩

/-- Only an offer is answered. -/
theorem processRemoteSdp_eq_answer {e : Engine} {parsed : Option SessionDescription}
    {ice : IceLocal} {mungerOk : Bool} {answer : SessionDescription}
    (h : (e.processRemoteSdp parsed ice mungerOk).2 = .answer answer) :
    ∃ remote, parsed = some remote ∧ e.remoteIsAnswer remote = false
      ∧ answer = (e.applyRemote remote).answerTo remote ice := by
  unfold processRemoteSdp at h
  by_cases hopen : e.state = .open
  · rw [if_neg (not_not.2 hopen)] at h
    cases parsed with
    | none => cases h
    | some remote =>
      cases hans : e.remoteIsAnswer remote with
      | true => simp [hans] at h
      | false =>
        cases mungerOk with
        | false => simp [hans] at h
        | true =>
          simp only [hans, Bool.false_eq_true, if_false, if_true, SdpResult.answer.injEq] at h
          exact ⟨remote, rfl, hans, h.symm⟩
  · rw [if_pos hopen] at h
    cases h

theorem isOpen_of_state {e e' : Engine} (h : e'.state = e.state) : e'.isOpen = e.isOpen := by
  unfold isOpen
  rw [h]

/-- A datagram is dropped, goes to the DTLS session, or is media. -/
theorem onTransportRecv_cases (e : Engine) (d : Inbound) :
    (¬ (e.isOpen = true ∧ d.isMedia = true) ∧ e.onTransportRecv d = (e, []))
      ∨ (e.isOpen = true ∧ d.isMedia = false ∧ e.onTransportRecv d
        = andThen (e.onDtls (e.dtls.feedInbound d.bytes d.reassembly d.pump)) fun e =>
          if d.iceUp then e.drainDtls d.drain else (e, []))
      ∨ e.isOpen = true ∧ d.isMedia = true ∧ e.onTransportRecv d = e.recvMedia d := by
  unfold onTransportRecv Inbound.isMedia
  cases hopen : e.isOpen with
  | false => exact .inl ⟨by simp, rfl⟩
  | true =>
    cases d.bytes with
    | nil => exact .inl ⟨by simp, rfl⟩
    | cons b0 bs =>
      cases hb : isDtls b0 with
      | true => exact .inr (.inl ⟨rfl, by simp [hb], by simp [hb]⟩)
      | false => exact .inr (.inr ⟨rfl, by simp [hb], by simp [hb]⟩)

end Engine

/-- The event is on a media path. -/
def EngineEvent.ofMedia : EngineEvent → Bool
  | .sendAudio _ | .sendVideo _ | .senderReport _ _ _ | .flushVideoFeedback _ _ => true
  | .recv d => d.isMedia
  | _ => false

namespace Engine

theorem mediaOp_step (e : Engine) {ev : EngineEvent} (h : ev.ofMedia = true) :
    MediaOp e (e.step ev) := by
  cases ev with
  | sendAudio f => exact mediaOp_sendAudio e f
  | sendVideo f => exact mediaOp_sendVideo e f
  | senderReport iceUp elapsed r =>
    simp only [step]
    split_ifs
    · exact mediaOp_maybeSendSenderReport e iceUp elapsed r
    · exact .refl e
  | flushVideoFeedback iceUp r =>
    simp only [step]
    split_ifs
    · exact mediaOp_flushVideoFeedback e iceUp r
    · exact .refl e
  | recv d =>
    simp only [step]
    rcases e.onTransportRecv_cases d with ⟨-, hrecv⟩ | ⟨-, hmedia, -⟩ | ⟨-, -, hrecv⟩
    · rw [hrecv]
      exact .refl e
    · exact absurd (hmedia.symm.trans h) (by simp)
    · rw [hrecv]
      exact mediaOp_recvMedia e d
  | _ => cases h

theorem control_step (e : Engine) {ev : EngineEvent} (h : ev.ofMedia = false) :
    ∀ o ∈ (e.step ev).2, ¬ o.ofMedia := by
  cases ev with
  | «open» setup iceOk => exact control_open e setup iceOk
  | createOffer sessionId ice mungerOk => simp [step]
  | processRemoteSdp parsed ice mungerOk => simp [step]
  | pollIceFlap cur r =>
    simp only [step]
    split_ifs
    · exact control_pollIceFlap e cur r
    · simp
  | drainDtls d =>
    simp only [step]
    split_ifs
    · exact control_drainDtls e d
    · simp
  | recv d =>
    simp only [step]
    rcases e.onTransportRecv_cases d with ⟨-, hrecv⟩ | ⟨-, -, hrecv⟩ | ⟨-, hmedia, -⟩
    · simp [hrecv]
    · rw [hrecv]
      simp only [andThen, List.forall_mem_append]
      refine ⟨control_onDtls e _, ?_⟩
      split_ifs
      · exact control_drainDtls _ d.drain
      · simp
    · exact absurd (hmedia.symm.trans h) (by simp)
  | dtls c => exact control_onDtls e _
  | _ => cases h

end Engine

/-- The events other than `open`, those of signalling, and the calls on the DTLS session. -/
def EngineEvent.ofTransport : EngineEvent → Prop
  | .open _ _ | .createOffer _ _ _ | .processRemoteSdp _ _ _ | .dtls _ => False
  | _ => True

namespace Engine

/-- The operation keeps `I` and reports only what is good. -/
def Preserves (I : Engine → Prop) (good : EngineReport → Prop) (r : Engine × List EngineReport) :
    Prop :=
  I r.1 ∧ ∀ o ∈ r.2, good o

/-- What the transport is made of, the media paths apart, keeps `I` and reports only what is
good. -/
structure KeepsControl (I : Engine → Prop) (good : EngineReport → Prop) : Prop where
  call : ∀ e c, c.ofTransport → I e → Preserves I good (e.onDtls (e.dtls.call c))
  install : ∀ e, e.isOpen = true → I e → Preserves I good e.maybeInstallSrtpKeys
  ice : ∀ (e : Engine) s once armed installed, I e → I { e with
    lastIceState := s
    iceConnectedOnce := once
    iceRehandshakeArmed := armed
    srtpInstalled := installed }
  record : ∀ bytes, good (.dtlsRecord bytes)

/-- And so do the media paths. -/
structure Keeps (I : Engine → Prop) (good : EngineReport → Prop) : Prop
    extends KeepsControl I good where
  media : ∀ e r, MediaOp e r → I e → I r.1
  ofMedia : ∀ o, o.ofMedia → good o

variable {I : Engine → Prop} {good : EngineReport → Prop}

theorem Preserves.refl {e : Engine} (h : I e) : Preserves I good (e, []) := ⟨h, by simp⟩

theorem Preserves.andThen {r : Engine × List EngineReport} {f : Engine → Engine × List EngineReport}
    (h : Preserves I good r) (h' : I r.1 → Preserves I good (f r.1)) :
    Preserves I good (andThen r f) := by
  obtain ⟨hI, hgood⟩ := h' h.1
  exact ⟨hI, List.forall_mem_append.2 ⟨h.2, hgood⟩⟩

theorem KeepsControl.drainDtls (h : KeepsControl I good) {e : Engine} (hopen : e.isOpen = true) (hI : I e)
    (d : DrainEnv) : Preserves I good (e.drainDtls d) := by
  rw [drainDtls_eq]
  refine .andThen ?_ fun hI' => .andThen ⟨hI', ?_⟩ fun hI' => ?_
  · exact h.call _ (.takeOutbound d.pump) trivial (h.call e (.tick d.resent) trivial hI).1
  · intro o ho
    obtain ⟨bytes, -, rfl⟩ := List.mem_map.1 ho
    exact h.record bytes
  · split_ifs
    · exact h.install _ hopen hI'
    · exact .refl hI'

theorem KeepsControl.pollIceFlap (h : KeepsControl I good) {e : Engine} (hI : I e) (cur : IceState)
    (r : RehandshakeEnv) : Preserves I good (e.pollIceFlapForRehandshake cur r) := by
  rcases e.pollIceFlap_cases cur r with ⟨once, armed, ⟨-, heq⟩ | ⟨installed, -, heq⟩⟩ <;> rw [heq]
  · exact .refl (h.ice e cur once armed e.srtpInstalled hI)
  · refine .andThen ?_ fun hI' => .refl ?_
    · exact h.call { e with
        lastIceState := cur, iceConnectedOnce := once, iceRehandshakeArmed := armed }
        (.rehandshake r.renegotiated r.setup r.pump) trivial
        (h.ice e cur once armed e.srtpInstalled hI)
    · exact h.ice _ cur once armed installed hI'

theorem KeepsControl.recvDtls (h : KeepsControl I good) {e : Engine} (hI : I e) {d : Inbound}
    (hmedia : d.isMedia = false) : Preserves I good (e.onTransportRecv d) := by
  rcases e.onTransportRecv_cases d with ⟨-, heq⟩ | ⟨hopen, -, heq⟩ | ⟨-, hm, -⟩
  · rw [heq]
    exact .refl hI
  · rw [heq]
    refine .andThen ?_ fun hI' => ?_
    · exact h.call e (.feedInbound d.bytes d.reassembly d.pump) trivial hI
    · split_ifs
      · refine h.drainDtls ?_ hI' d.drain
        exact hopen
      · exact .refl hI'
  · exact absurd (hm.symm.trans hmedia) (by simp)

theorem KeepsControl.step (h : KeepsControl I good) {e : Engine} (hI : I e) {ev : EngineEvent}
    (hev : ev.ofTransport) (hmedia : ev.ofMedia = false) : Preserves I good (e.step ev) := by
  cases ev with
  | pollIceFlap cur r =>
    simp only [Engine.step]
    split_ifs
    · exact h.pollIceFlap hI cur r
    · exact .refl hI
  | drainDtls d =>
    simp only [Engine.step]
    split_ifs with hopen
    · exact h.drainDtls hopen hI d
    · exact .refl hI
  | recv d => exact h.recvDtls hI hmedia
  | «open» | createOffer | processRemoteSdp | dtls => exact hev.elim
  | _ => cases hmedia

theorem Keeps.step (h : Keeps I good) {e : Engine} (hI : I e) {ev : EngineEvent}
    (hev : ev.ofTransport) : Preserves I good (e.step ev) := by
  cases hmedia : ev.ofMedia with
  | true =>
    have hop := mediaOp_step e hmedia
    exact ⟨h.media e _ hop hI, fun o ho => h.ofMedia o (hop.reports o ho)⟩
  | false => exact h.toKeepsControl.step hI hev hmedia

/-- What only the video path changes. -/
structure SameVideo (e e' : Engine) : Prop where
  cfg : e'.cfg = e.cfg
  videoSender : e'.videoSender = e.videoSender

theorem keepsControl_sameVideo (e : Engine) :
    KeepsControl (SameVideo e) fun _ => True where
  call _ _ _ h := ⟨⟨h.cfg, h.videoSender⟩, fun _ _ => trivial⟩
  install e' _ h := by
    rcases e'.maybeInstallSrtpKeys_cases with heq | ⟨-, km, -, heq⟩ <;> rw [heq]
    · exact .refl h
    · exact ⟨⟨h.cfg, h.videoSender⟩, fun _ _ => trivial⟩
  ice _ _ _ _ _ h := ⟨h.cfg, h.videoSender⟩
  record _ := trivial

/-- An event off the media paths leaves the configuration and the video sender. -/
theorem sameVideo_step (e : Engine) {ev : EngineEvent} (hmedia : ev.ofMedia = false) :
    SameVideo e (e.step ev).1 := by
  cases ev with
  | «open» setup iceOk =>
    simp only [step]
    rcases e.open_cases setup iceOk with h | ⟨-, state, modules, h | h⟩ <;> rw [h] <;>
      exact ⟨rfl, rfl⟩
  | createOffer sessionId ice mungerOk =>
    simp only [step, createOffer]
    split_ifs <;> exact ⟨rfl, rfl⟩
  | processRemoteSdp parsed ice mungerOk =>
    have hremote : ∀ remote, SameVideo e (e.applyRemote remote) := by
      intro remote
      unfold applyRemote applyDtls
      split <;> exact ⟨rfl, rfl⟩
    by_cases hopen : e.isOpen = true
    · cases parsed with
      | none =>
        simp only [step, processRemoteSdp]
        split_ifs <;> exact ⟨rfl, rfl⟩
      | some remote =>
        obtain ⟨id, h⟩ := processRemoteSdp_eq hopen remote ice mungerOk
        simp only [step, h]
        exact ⟨(hremote remote).cfg, (hremote remote).videoSender⟩
    · have hclosed : e.state ≠ .open := fun hs => hopen (decide_eq_true hs)
      simp only [step, processRemoteSdp]
      rw [if_pos hclosed]
      exact ⟨rfl, rfl⟩
  | dtls c => exact ⟨rfl, rfl⟩
  | _ =>
    refine ((keepsControl_sameVideo e).step ⟨rfl, rfl⟩ ?_ hmedia).1
    trivial

/-- Nothing changes the configuration. -/
theorem cfg_step (e : Engine) (ev : EngineEvent) : (e.step ev).1.cfg = e.cfg := by
  cases hmedia : ev.ofMedia with
  | true => exact (mediaOp_step e hmedia).cfg
  | false => exact (sameVideo_step e hmedia).cfg

theorem exec_recv : ∀ (ds : List Inbound) (e : Engine),
    machine.exec e (ds.map .recv) = e.recvAll ds
  | [], e => rfl
  | d :: ds, e => by
    rw [List.map_cons, Machine.exec_cons, exec_recv ds]
    rfl

/-- A `tick` of an open engine is the run of its events. -/
theorem exec_tickEvents {e : Engine} (h : e.isOpen = true) (t : TickEnv) :
    machine.exec e t.events = e.tick t := by
  have hpoll : (e.pollIceFlapForRehandshake t.ice t.rehandshake).1.isOpen = true :=
    (isOpen_of_state (state_pollIceFlap e _ _)).trans h
  unfold tick
  rw [if_neg (by simp [h])]
  simp only [TickEnv.events, List.cons_append, List.nil_append, Machine.exec_cons]
  simp only [machine, step, h, if_true, andThen]
  generalize (e.pollIceFlapForRehandshake t.ice t.rehandshake).1 = e₁ at hpoll
  cases t.iceUp with
  | false =>
    simp only [Bool.false_eq_true, if_false, List.nil_append]
    have := exec_recv t.datagrams e₁
    simp only [machine] at this
    rw [this]
  | true =>
    have hdrain : (e₁.drainDtls t.drain).1.isOpen = true :=
      (isOpen_of_state (state_drainDtls e₁ _)).trans hpoll
    have hsr : ((e₁.drainDtls t.drain).1.maybeSendSenderReport t.srIceUp t.srElapsed
        t.sr).1.isOpen = true :=
      (isOpen_of_state (mediaOp_maybeSendSenderReport _ _ _ _).state).trans hdrain
    simp only [if_true, List.cons_append, List.nil_append, Machine.exec_cons, step, hpoll, hdrain,
      hsr]
    have := exec_recv t.datagrams (((e₁.drainDtls t.drain).1.maybeSendSenderReport t.srIceUp
      t.srElapsed t.sr).1.flushVideoFeedback t.feedbackIceUp t.feedback).1
    simp only [machine] at this
    rw [this]
    simp only [List.append_assoc]

end Engine

end NimRtc
