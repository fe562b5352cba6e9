import NimRtc.Proofs.DtlsKeys
import NimRtc.Proofs.EngineStep

/-!
# Media leaves protected and is taken in unprotected

The send paths protect a packet only while SRTP keys are installed, and the receive path hands a
datagram on as it came when they are not or when there is no session. The keys are taken down when
an ICE flap starts a rehandshake. A run sends only protected media exactly when every send finds
the keys installed, and takes in only authentic media, once it had keys, exactly when every
datagram finds keys and a session.
-/

namespace NimRtc

/-- No field of the keying material is empty. -/
def SrtpKeyingMaterial.Filled (k : SrtpKeyingMaterial) : Prop :=
  k.clientMasterKey ≠ [] ∧ k.serverMasterKey ≠ [] ∧ k.clientMasterSalt ≠ [] ∧ k.serverMasterSalt ≠ []

namespace DtlsSession

def KeysFilled (s : DtlsSession) : Prop := ∀ k ∈ s.srtpKeys, k.Filled

theorem read_ne_nil {sp : Span} (h : 0 < sp.size) (memory : List UInt8) : sp.read memory ≠ [] := by
  rw [← List.length_pos_iff, Span.read, List.length_map, List.length_range]
  exact h

theorem filled_split (bytes beyond : List UInt8) :
    (SrtpKeyingMaterial.split bytes beyond).Filled :=
  ⟨read_ne_nil (by decide) _, read_ne_nil (by decide) _, read_ne_nil (by decide) _,
    read_ne_nil (by decide) _⟩

variable {s : DtlsSession}

theorem keysFilled_pump (h : s.KeysFilled) (w : WolfPump) : (s.pumpHandshake w).1.KeysFilled := by
  intro k hk
  by_cases hcomp : s.Completes w
  · obtain ⟨peer, exported, beyond, -, -, -, -, -, hkeys⟩ := pumpHandshake_of_completes hcomp
    rw [hkeys] at hk
    split_ifs at hk
    · cases hk
    · obtain ⟨x, -, rfl⟩ := Option.map_eq_some_iff.1 hk
      exact filled_split _ _
  · rw [(pumpHandshake_of_not_completes hcomp).2.1] at hk
    exact h k hk

theorem keysFilled_of_restarted {s' : DtlsSession} (h : Restarted s s') : s'.KeysFilled := by
  intro k hk
  rw [h.srtpKeys] at hk
  cases hk

theorem keysFilled_transport (h : s.KeysFilled) {c : DtlsCall} (hc : c.ofTransport) :
    (s.call c).1.KeysFilled := by
  rcases s.call_cases hc with ⟨sendBuf, outbound, heq⟩ | ⟨torn, heq, hrest, -⟩
    | ⟨s₀, w, outbound, heq, ⟨out, rfl⟩ | ⟨-, hanew⟩⟩ <;> rw [heq]
  · exact h
  · exact keysFilled_of_restarted hrest
  · exact keysFilled_pump (s := { s with outbound := out }) h w
  · exact keysFilled_pump (keysFilled_of_restarted hanew.toRestarted) w

theorem keysFilled_call (h : s.KeysFilled) (c : DtlsCall) : (s.call c).1.KeysFilled := by
  cases c with
  | «open» setup =>
    simp only [call]
    rcases s.open_cases setup with ⟨-, heq⟩ | ⟨ctx, heq, -⟩ | heq <;> rw [heq] <;> exact h
  | close => exact h
  | setPeerFingerprint algo value =>
    simp only [call, setPeerFingerprint]
    split_ifs <;> exact h
  | setRole r =>
    simp only [call, setRole]
    split_ifs <;> exact h
  | _ =>
    refine keysFilled_transport h ?_
    trivial

end DtlsSession

namespace Engine

/-- What holds of an engine in every run: nothing is negotiated before it is open, its SRTP
sessions and keys are there when they should be. -/
structure Base (e : Engine) : Prop where
  constructed : e.state = .constructed → e.history.keyedOnce = false
  ready : e.srtp.Ready
  keyed : e.history.keyedOnce = true → e.srtp.key false ≠ [] ∧ e.srtp.salt false ≠ []
  filled : e.dtls.KeysFilled

variable {e : Engine}

theorem base_fresh (cfg : EngineConfig) (sender : Option VideoSender) (fingerprint : String) :
    (fresh cfg sender fingerprint).Base where
  constructed _ := rfl
  ready := SrtpContext.ready_empty
  keyed h := by cases h
  filled k hk := by
    cases hk
    exact ⟨by simp, by simp, by simp, by simp⟩

theorem Base.of_mediaOp {r : Engine × List EngineReport} (hI : e.Base) (h : MediaOp e r) :
    r.1.Base where
  constructed hs := by
    rw [h.history]
    exact hI.constructed (h.state ▸ hs)
  ready := h.srtp.ready hI.ready
  keyed hk := by
    rw [h.srtp.key, h.srtp.salt]
    exact hI.keyed (h.history ▸ hk)
  filled := h.dtls ▸ hI.filled

theorem ready_installKeys (h : e.srtp.Ready) (km : SrtpKeyingMaterial) :
    (e.installKeys km).Ready := by
  intro d ssrc s hs
  refine h d ssrc s ?_
  unfold installKeys at hs
  simp only [] at hs
  split_ifs at hs <;> cases d <;> exact hs

theorem installKeys_inbound (e : Engine) (km : SrtpKeyingMaterial) :
    (e.installKeys km).key false = (e.peerKeys km).1
      ∧ (e.installKeys km).salt false = (e.peerKeys km).2 := by
  unfold installKeys
  simp only []
  split_ifs <;> exact ⟨rfl, rfl⟩

theorem base_maybeInstallSrtpKeys (hI : e.Base) (hopen : e.isOpen = true) :
    e.maybeInstallSrtpKeys.1.Base := by
  rcases e.maybeInstallSrtpKeys_cases with h | ⟨-, km, hkm, h⟩ <;> rw [h]
  · exact hI
  · have hfilled := hI.filled km hkm
    have hpeer : (e.peerKeys km).1 ≠ [] ∧ (e.peerKeys km).2 ≠ [] := by
      unfold peerKeys
      split_ifs
      · exact ⟨hfilled.2.1, hfilled.2.2.2⟩
      · exact ⟨hfilled.1, hfilled.2.2.1⟩
    refine ⟨fun hs => ?_, ready_installKeys hI.ready km, fun _ => ?_, hI.filled⟩
    · rw [isOpen, decide_eq_true_eq] at hopen
      exact absurd (hopen.symm.trans hs) (by simp)
    · rw [(installKeys_inbound e km).1, (installKeys_inbound e km).2]
      exact hpeer

theorem keeps_base : Keeps Base fun _ => True where
  media _ _ hop hI := hI.of_mediaOp hop
  ofMedia _ _ := trivial
  call _ c _ hI :=
    ⟨⟨hI.constructed, hI.ready, hI.keyed, DtlsSession.keysFilled_call hI.filled c⟩,
      fun _ _ => trivial⟩
  install _ hopen hI := ⟨base_maybeInstallSrtpKeys hI hopen, fun _ _ => trivial⟩
  ice _ _ _ _ _ hI := ⟨hI.constructed, hI.ready, hI.keyed, hI.filled⟩
  record _ := trivial

theorem base_signalled {e' : Engine} (hI : e.Base) (h : Signalled e e')
    (hdtls : e'.dtls.KeysFilled) (honce : e'.history.keyedOnce = e.history.keyedOnce) :
    e'.Base where
  constructed hs := honce.trans (hI.constructed (h.state ▸ hs))
  ready := h.srtp ▸ hI.ready
  keyed hk := by
    rw [h.srtp]
    exact hI.keyed (honce ▸ hk)
  filled := hdtls

theorem keysFilled_applyDtlsSection (hI : e.dtls.KeysFilled) (isAnswer : Bool)
    (m : MediaDescription) : (e.applyDtlsSection isAnswer m).dtls.KeysFilled := by
  unfold applyDtlsSection
  generalize resolveRole isAnswer (if m.dtlsSetup = "" then "actpass" else m.dtlsSetup) = resolved
  have hrole := DtlsSession.keysFilled_call hI (.setRole resolved.1)
  simp only []
  split_ifs
  · exact DtlsSession.keysFilled_call hrole (.setPeerFingerprint m.dtlsFingerprintAlgo _)
  · exact hrole

theorem base_step (hI : e.Base) (ev : EngineEvent) : (e.step ev).1.Base := by
  cases ev with
  | «open» setup iceOk =>
    simp only [step]
    rcases e.open_cases setup iceOk with h | ⟨hstate, state, modules, h | h⟩ <;> rw [h]
    · exact hI
    · exact ⟨fun _ => hI.constructed hstate, hI.ready, hI.keyed, hI.filled⟩
    · refine ⟨fun _ => hI.constructed hstate, SrtpContext.ready_empty, fun hk => ?_, ?_⟩
      · rw [show e.history.keyedOnce = false from hI.constructed hstate] at hk
        cases hk
      · exact DtlsSession.keysFilled_call (base_fresh {} none "").filled (.open setup)
  | createOffer sessionId ice mungerOk =>
    obtain ⟨h, hsec⟩ := e.signalled_createOffer sessionId ice mungerOk
    exact base_signalled hI h (hsec.dtls ▸ hI.filled) (congrArg _ hsec.history)
  | processRemoteSdp parsed ice mungerOk =>
    rcases e.signalled_processRemoteSdp parsed ice mungerOk with
      ⟨h, hsec | ⟨-, remote, m, -, -, hsec⟩⟩
    · exact base_signalled hI h (hsec.dtls ▸ hI.filled) (congrArg _ hsec.history)
    · exact base_signalled hI h (hsec.dtls ▸ keysFilled_applyDtlsSection hI.filled _ m)
        ((congrArg History.keyedOnce hsec.history).trans rfl)
  | dtls c =>
    exact ⟨hI.constructed, hI.ready, hI.keyed, DtlsSession.keysFilled_call hI.filled c⟩
  | _ =>
    refine (keeps_base.step hI ?_).1
    trivial

/-! ### What is sent -/

theorem protectsMedia_of_control {ev : EngineEvent} (h : ev.ofMedia = false) :
    e.ProtectsMedia ev := by
  intro o ho
  cases o with
  | emitted m => exact absurd trivial (control_step e h _ ho)
  | _ => trivial

/-- The report of a packet that was protected or passed. -/
def sentAs (kind : MediaKind) (path : SendPath) (x : Option (List UInt8 × Option PacketCall)) :
    List EngineReport :=
  (x.map fun y => EngineReport.emitted ⟨kind, path, y.1, y.2⟩).toList

/-- Whether what a send path reports is protected, its calls being those that `asks` allows. -/
def Protects (asks : PacketCall → Prop) (rs : List EngineReport) : Prop :=
  ∀ m, .emitted m ∈ rs → ∃ call ∈ m.protectedBy, call.session.session.isSome ∧ asks call
    ∧ call.protect = .ok m.bytes

variable {asks asks' : PacketCall → Prop}

theorem protectsMedia_iff (ev : EngineEvent) :
    e.ProtectsMedia ev ↔ Protects (e.Asks · ev) (e.step ev).2 := by
  constructor
  · exact fun h m hm => h _ hm
  · intro h o ho
    cases o with
    | emitted m => exact h m ho
    | _ => trivial

theorem protects_append {rs rs' : List EngineReport} :
    Protects asks (rs ++ rs') ↔ Protects asks rs ∧ Protects asks rs' := by
  simp only [Protects, List.mem_append, or_imp, forall_and]

theorem protects_nil : Protects asks [] := fun _ hm => absurd hm List.not_mem_nil

theorem protects_handed (h : Handed) : Protects asks [.handed h] := fun _ hm => by simp at hm

theorem Protects.mono {rs : List EngineReport} (h : Protects asks rs)
    (himp : ∀ call, asks call → asks' call) : Protects asks' rs := by
  intro m hm
  obtain ⟨call, hcall, hsession, hasks, hok⟩ := h m hm
  exact ⟨call, hcall, hsession, himp call hasks, hok⟩

/-- The packet is protected exactly when there are keys, by a call on the packet itself. -/
theorem protects_sentAs (hr : e.srtp.Ready) {rtcp : Bool} {ssrc : UInt32} {packet : List UInt8}
    {lib : LibSrtpCall} (hasks : ∀ s, asks ⟨s, rtcp, packet, lib.out⟩) (kind : MediaKind)
    (path : SendPath) :
    Protects asks (sentAs kind path (e.protectOrPass rtcp ssrc packet lib).2)
      ↔ e.srtpInstalled := by
  rcases e.protectOrPass_cases rtcp ssrc packet lib with
      ⟨hins, h⟩ | ⟨hins, srtp, -, h | ⟨s, out, hs, hok, h⟩⟩ <;> rw [h, hins]
  · simp [sentAs, Protects]
  · exact iff_of_true protects_nil rfl
  · refine iff_of_true (fun m hm => ?_) rfl
    obtain rfl : m = ⟨kind, path, out, some ⟨s, rtcp, packet, lib.out⟩⟩ := by
      simpa [sentAs] using hm
    exact ⟨_, rfl, hs hr, hasks s, hok⟩

theorem reports_videoPacket (e : Engine) (p : CachedPacket) (lib : LibSrtpCall) :
    ∃ path, (e.videoPacket p lib).2 = sentAs .video path (e.protectOrPass false
      e.cfg.videoSenderSsrc (videoRtpHeader e.cfg p ++ p.payload) lib).2 := by
  unfold videoPacket
  split
  · rename_i h
    rw [h]
    exact ⟨.ice, rfl⟩
  · rename_i h
    rw [h]
    exact ⟨_, rfl⟩

theorem reports_sendRtcp (e : Engine) (kind : MediaKind) (ssrc : UInt32) (r : RtcpBuild) :
    (e.sendRtcp kind ssrc r).2 = sentAs kind .ice (e.protectOrPass true ssrc r.bytes r.lib).2 := by
  unfold sendRtcp
  split <;> rename_i h <;> rw [h] <;> rfl

theorem AsksVideo.tail {e e' : Engine} (hcfg : e'.cfg = e.cfg) {p : CachedPacket}
    {ps : List CachedPacket} {lib : ℕ → LibSrtpCall} {call : PacketCall}
    (h : e'.AsksVideo ps (fun n => lib (n + 1)) call) : e.AsksVideo (p :: ps) lib call := by
  obtain ⟨hrtcp, n, q, hq, hpacket, hanswer⟩ := h
  exact ⟨hrtcp, n + 1, q, hq, hcfg ▸ hpacket, hanswer⟩

theorem protects_videoPackets : ∀ (ps : List CachedPacket) {e : Engine}, e.srtp.Ready →
    ∀ lib : ℕ → LibSrtpCall, Protects (e.AsksVideo ps lib) (e.videoPackets ps lib).2
      ↔ (ps ≠ [] → e.srtpInstalled)
  | [], e, _, lib => by simp [videoPackets, protects_nil]
  | p :: ps, e, hr, lib => by
    have hop := mediaOp_videoPacket e p (lib 0)
    obtain ⟨path, hfirst⟩ := e.reports_videoPacket p (lib 0)
    have hhead : Protects (e.AsksVideo (p :: ps) lib) (e.videoPacket p (lib 0)).2
        ↔ e.srtpInstalled := by
      rw [hfirst]
      exact protects_sentAs hr (fun s => ⟨rfl, 0, p, rfl, rfl, rfl⟩) _ _
    have hrest := protects_videoPackets ps (hop.srtp.ready hr) fun n => lib (n + 1)
    rw [hop.srtpInstalled] at hrest
    simp only [videoPackets, andThen, protects_append, hhead]
    constructor
    · exact fun h _ => h.1
    · intro h
      refine ⟨h (by simp), (hrest.2 fun _ => h (by simp)).mono fun call hcall => ?_⟩
      exact hcall.tail hop.cfg

theorem protects_sendRtcp (hr : e.srtp.Ready) {r : RtcpBuild}
    (hasks : ∀ s, asks ⟨s, true, r.bytes, r.lib.out⟩) (kind : MediaKind) (ssrc : UInt32) :
    Protects asks (e.sendRtcp kind ssrc r).2 ↔ e.srtpInstalled := by
  rw [reports_sendRtcp]
  exact protects_sentAs hr hasks kind .ice

theorem protects_sendVideo (hr : e.srtp.Ready) (f : VideoFrame) :
    Protects (e.Asks · (.sendVideo f)) (e.sendVideo f).2 ↔ e.SendsKeyed (.sendVideo f) := by
  unfold sendVideo
  simp only [SendsKeyed, Asks]
  cases hsend : e.videoToSend f with
  | none => simp [protects_nil]
  | some sent =>
    obtain ⟨s, packets⟩ := sent
    simp only [andThen, List.append_nil, Option.some.injEq, Prod.mk.injEq]
    have hpackets := protects_videoPackets packets (e := { e with
      videoKeyframePending := e.videoKeyframePending || (e.isOpen && e.cfg.videoCodec
        && e.videoSender.isSome && (f.encoded.map (·.2)).getD false)
      videoSender := some s }) hr f.lib
    simp only [AsksVideo] at hpackets ⊢
    constructor
    · rintro h ⟨s', packets', ⟨rfl, rfl⟩, hne⟩
      refine hpackets.1 (h.mono ?_) hne
      rintro call ⟨s', packets', ⟨rfl, rfl⟩, hcall⟩
      exact hcall
    · intro h
      refine (hpackets.2 fun hne => h ⟨s, packets, ⟨rfl, rfl⟩, hne⟩).mono fun call hcall => ?_
      exact ⟨s, packets, ⟨rfl, rfl⟩, hcall⟩

/-- The packet is protected in a state that differs from the engine's in what is counted. -/
theorem reports_sendAudio {f : AudioFrame} (hready : e.audioReady f = true)
    (hpacket : f.packet ≠ []) :
    ∃ (e' : Engine) (path : SendPath), e'.srtp = e.srtp ∧ e'.srtpInstalled = e.srtpInstalled
      ∧ (e.sendAudio f).2
        = sentAs .audio path (e'.protectOrPass false audioSsrcOnWire f.packet f.lib).2 := by
  unfold sendAudio
  rw [if_neg (by simp [hready])]
  have hsrtp : (if e.cfg.timelineEnabled then { e with audioLastSendUnixUs := f.sendUnixUs }
      else e).srtp = e.srtp := by
    split_ifs <;> rfl
  have hins : (if e.cfg.timelineEnabled then { e with audioLastSendUnixUs := f.sendUnixUs }
      else e).srtpInstalled = e.srtpInstalled := by
    split_ifs <;> rfl
  generalize (if e.cfg.timelineEnabled then { e with audioLastSendUnixUs := f.sendUnixUs }
    else e) = e' at hsrtp hins
  simp only [if_neg hpacket]
  split <;> rename_i h
  · exact ⟨e'.countAudio f, .ice, hsrtp, hins, by rw [h]; rfl⟩
  · exact ⟨e'.countAudio f, _, hsrtp, hins, by rw [h]; rfl⟩

theorem protects_sendAudio (hr : e.srtp.Ready) (f : AudioFrame) :
    Protects (e.Asks · (.sendAudio f)) (e.sendAudio f).2 ↔ e.SendsKeyed (.sendAudio f) := by
  simp only [SendsKeyed]
  by_cases hready : e.audioReady f = true
  · by_cases hpacket : f.packet = []
    · simp [sendAudio, hready, hpacket, protects_nil]
    · obtain ⟨e', path, hsrtp, hins, h⟩ := reports_sendAudio hready hpacket
      rw [h, protects_sentAs (hsrtp.symm ▸ hr) (fun s => ⟨rfl, rfl, rfl⟩), hins]
      simp [hready, hpacket]
  · simp [sendAudio, hready, protects_nil]

theorem protects_handleRtcp (hr : e.srtp.Ready) (actions : List FeedbackAction)
    (lib : ℕ → LibSrtpCall) :
    Protects (e.AsksVideo (e.retransmissions actions) lib) (e.handleRtcp actions lib).2
      ↔ (e.retransmissions actions ≠ [] → e.srtpInstalled) := by
  unfold handleRtcp
  exact protects_videoPackets (e.retransmissions actions)
    (e := { e with videoSender := e.videoSender.map fun s => (s.applyFeedback actions).1 }) hr lib

theorem protects_dispatchMediaInbound (hr : e.srtp.Ready) (d : Inbound) (packet : List UInt8)
    (call : Option PacketCall) :
    Protects (e.Asks · (.recv d)) (e.dispatchMediaInbound d packet call).2
      ↔ (looksLikeRtcp packet → e.retransmissions d.actions ≠ [] → e.srtpInstalled) := by
  unfold dispatchMediaInbound
  split_ifs with hrtcp
  · simp only [andThen, protects_append, Asks, protects_handleRtcp hr, protects_handed, hrtcp,
      true_and, forall_const]
  · simp [protects_handed, hrtcp]
  · simp [protects_nil, hrtcp]

theorem protects_recvMedia (hr : e.srtp.Ready) (d : Inbound) :
    Protects (e.Asks · (.recv d)) (e.recvMedia d).2
      ↔ (looksLikeRtcp d.bytes → e.retransmissions d.actions ≠ [] → e.srtpInstalled) := by
  unfold recvMedia
  by_cases hins : e.srtpInstalled = true
  · rw [if_pos hins]
    have hr' := (e.srtp.sameKeys_getSession 0 false d.create).ready hr
    refine iff_of_true ?_ fun _ _ => hins
    -- whatever is retransmitted here is protected
    have hdispatch : ∀ packet call, Protects (e.Asks · (.recv d))
        ({ e with srtp := (e.srtp.getSession 0 false d.create).2 }.dispatchMediaInbound d packet
          call).2 := fun packet call =>
      (protects_dispatchMediaInbound (e := { e with srtp := _ }) hr' d packet call).2
        fun _ _ => hins
    simp only []
    split
    · exact hdispatch _ _
    · split
      · exact hdispatch _ _
      · split
        · simp only [andThen, protects_append]
          exact ⟨protects_handed _, (protects_handleRtcp (e := { e with srtp := _ }) hr' d.actions
            d.lib).2 fun _ => hins⟩
        · exact protects_nil
  · rw [if_neg hins]
    exact protects_dispatchMediaInbound hr d d.bytes none

theorem protects_recv (hr : e.srtp.Ready) {d : Inbound} (hmedia : d.isMedia = true) :
    Protects (e.Asks · (.recv d)) (e.onTransportRecv d).2 ↔ e.SendsKeyed (.recv d) := by
  simp only [SendsKeyed]
  rcases e.onTransportRecv_cases d with ⟨hnot, h⟩ | ⟨-, hm, -⟩ | ⟨hopen, -, h⟩
  · rw [h]
    exact iff_of_true protects_nil fun hopen _ => absurd ⟨hopen, hmedia⟩ hnot
  · exact absurd (hm.symm.trans hmedia) (by simp)
  · rw [h, protects_recvMedia hr]
    simp [hopen, hmedia]

theorem sendsKeyed_of_control {ev : EngineEvent} (h : ev.ofMedia = false) : e.SendsKeyed ev := by
  cases ev with
  | recv d =>
    intro _ hmedia
    exact absurd (hmedia.symm.trans h) (by simp)
  | sendAudio | sendVideo | senderReport | flushVideoFeedback => cases h
  | _ => trivial

theorem protectsMedia_step (hI : e.Base) (ev : EngineEvent) :
    e.ProtectsMedia ev ↔ e.SendsKeyed ev := by
  cases hmedia : ev.ofMedia with
  | false => exact iff_of_true (protectsMedia_of_control hmedia) (sendsKeyed_of_control hmedia)
  | true =>
    rw [protectsMedia_iff]
    cases ev with
    | sendAudio f => exact protects_sendAudio hI.ready f
    | sendVideo f => exact protects_sendVideo hI.ready f
    | senderReport iceUp elapsed r =>
      have hsend : Protects (e.Asks · (.senderReport iceUp elapsed r))
          (e.sendRtcp .senderReport e.audioSsrc r).2 ↔ e.srtpInstalled :=
        protects_sendRtcp hI.ready (fun s => ⟨rfl, rfl, rfl⟩) .senderReport e.audioSsrc
      simp only [step, SendsKeyed, maybeSendSenderReport]
      split_ifs with hopen hdue
      · rw [hsend]
        simp [hopen, hdue]
      · simp [hdue, protects_nil]
      · simp [hopen, protects_nil]
    | flushVideoFeedback iceUp r =>
      have hsend : Protects (e.Asks · (.flushVideoFeedback iceUp r))
          ({ e with pendingVideoFeedback := none }.sendRtcp .feedback e.cfg.videoSenderSsrc r).2
            ↔ e.srtpInstalled :=
        protects_sendRtcp (e := { e with pendingVideoFeedback := none }) hI.ready
          (fun s => ⟨rfl, rfl, rfl⟩) .feedback e.cfg.videoSenderSsrc
      simp only [step, SendsKeyed, flushVideoFeedback]
      split_ifs with hopen hdue
      · rw [hsend]
        simp [hopen, hdue]
      · simp [hdue, protects_nil]
      · simp [hopen, protects_nil]
    | recv d => exact protects_recv hI.ready hmedia
    | _ => cases hmedia

/-- A run sends only protected media exactly when every send finds SRTP keys installed. -/
theorem media_protected_iff (cfg : EngineConfig) (sender : Option VideoSender)
    (fingerprint : String) (evs : List EngineEvent) :
    machine.Meets ProtectsMedia (fresh cfg sender fingerprint) evs
      ↔ machine.Meets SendsKeyed (fresh cfg sender fingerprint) evs :=
  Machine.meets_congr (I := Base) (fun _ ev hI => base_step hI ev)
    (fun _ ev hI => protectsMedia_step hI ev) evs (base_fresh cfg sender fingerprint)

theorem media_sent_plain : ¬ machine.Meets ProtectsMedia (fresh {} (some { cfg := {} }) "")
    [.open {} true, .sendVideo { encoded := some ([[0x65, 1, 2]], true) }] := by
  rintro ⟨-, h, -⟩
  obtain ⟨call, hcall, -⟩ := h (.emitted ⟨.video, .scheduler .videoKeyframe,
    [0x80, 0xE6, 0, 0, 0, 0, 0, 0, 0xCA, 0xFE, 0xBA, 0xBE, 0x65, 1, 2], none⟩) (by decide)
  cases hcall

/-! ### What is taken in -/

theorem takesAuthentic_of_control {ev : EngineEvent} (h : ev.ofMedia = false) :
    e.TakesAuthentic ev := by
  intro o ho
  cases o with
  | handed m => exact absurd trivial (control_step e h _ ho)
  | _ => trivial

/-- Nothing is handed on. -/
def NoneHanded (rs : List EngineReport) : Prop := ∀ m, .handed m ∉ rs

theorem noneHanded_sentAs (kind : MediaKind) (path : SendPath)
    (x : Option (List UInt8 × Option PacketCall)) : NoneHanded (sentAs kind path x) := by
  intro m hm
  obtain ⟨y, -, hy⟩ := Option.map_eq_some_iff.1 (Option.mem_toList.1 hm)
  cases hy

theorem noneHanded_append {rs rs' : List EngineReport} :
    NoneHanded (rs ++ rs') ↔ NoneHanded rs ∧ NoneHanded rs' := by
  simp only [NoneHanded, List.mem_append, not_or, forall_and]

theorem noneHanded_nil : NoneHanded [] := fun _ => List.not_mem_nil

theorem noneHanded_videoPackets : ∀ (ps : List CachedPacket) (e : Engine)
    (lib : ℕ → LibSrtpCall), NoneHanded (e.videoPackets ps lib).2
  | [], e, lib => noneHanded_nil
  | p :: ps, e, lib => by
    obtain ⟨path, hfirst⟩ := e.reports_videoPacket p (lib 0)
    simp only [videoPackets, andThen, noneHanded_append]
    rw [hfirst]
    exact ⟨noneHanded_sentAs _ _ _, noneHanded_videoPackets ps _ _⟩

theorem noneHanded_sendRtcp (e : Engine) (kind : MediaKind) (ssrc : UInt32) (r : RtcpBuild) :
    NoneHanded (e.sendRtcp kind ssrc r).2 := by
  rw [reports_sendRtcp]
  exact noneHanded_sentAs _ _ _

theorem noneHanded_sendVideo (e : Engine) (f : VideoFrame) : NoneHanded (e.sendVideo f).2 := by
  unfold sendVideo
  simp only []
  split
  · exact noneHanded_nil
  · simp only [andThen, List.append_nil]
    exact noneHanded_videoPackets _ _ _

theorem noneHanded_sendAudio (e : Engine) (f : AudioFrame) : NoneHanded (e.sendAudio f).2 := by
  by_cases hready : e.audioReady f = true
  · by_cases hpacket : f.packet = []
    · simp [sendAudio, hready, hpacket, noneHanded_nil]
    · obtain ⟨e', path, -, -, h⟩ := reports_sendAudio hready hpacket
      rw [h]
      exact noneHanded_sentAs _ _ _
  · simp [sendAudio, hready, noneHanded_nil]

theorem takesAuthentic_of_noneHanded {ev : EngineEvent} (h : NoneHanded (e.step ev).2) :
    e.TakesAuthentic ev := by
  intro o ho
  cases o with
  | handed m => exact absurd ho (h m)
  | _ => trivial

/-- Of everything that a datagram leads to only what is handed on has to be authentic. -/
def Takes (e : Engine) (d : Inbound) (rs : List EngineReport) : Prop :=
  ∀ o ∈ rs, e.MediaAuthentic (.recv d) o

theorem takes_handed (e : Engine) (d : Inbound) (h : Handed) {rs : List EngineReport}
    (hrs : NoneHanded rs) :
    e.Takes d (.handed h :: rs) ↔ e.MediaAuthentic (.recv d) (.handed h) := by
  refine ⟨fun hall => hall _ List.mem_cons_self, fun hh o ho => ?_⟩
  rcases List.mem_cons.1 ho with rfl | ho
  · exact hh
  · cases o with
    | handed m => exact absurd ho (hrs m)
    | _ => trivial

/-- A datagram that is handed on as it came is authentic only before there are keys. -/
theorem authentic_raw (e : Engine) (d : Inbound) :
    e.MediaAuthentic (.recv d) (.handed ⟨d.bytes, d.bytes, none⟩)
      ↔ e.history.keyedOnce = false := by
  simp [MediaAuthentic]

/-- `dispatch_media_inbound` hands one packet on, if it can tell what it is. -/
theorem takes_dispatchMediaInbound (e e' : Engine) (d : Inbound) (packet : List UInt8)
    (call : Option PacketCall) :
    e.Takes d (e'.dispatchMediaInbound d packet call).2
      ↔ (looksLikeRtcp packet ∨ d.rtpParses →
        e.MediaAuthentic (.recv d) (.handed ⟨d.bytes, packet, call⟩)) := by
  unfold dispatchMediaInbound
  simp only []
  split_ifs with hrtcp hrtp
  · simp only [andThen, List.singleton_append]
    rw [takes_handed e d _ (by exact noneHanded_videoPackets _ _ _)]
    simp [hrtcp]
  · rw [takes_handed e d _ noneHanded_nil]
    simp [hrtp]
  · simp [Takes, hrtcp, hrtp]

theorem takes_recvMedia (hI : e.Base) (d : Inbound) :
    e.Takes d (e.recvMedia d).2
      ↔ (looksLikeRtcp d.bytes ∨ d.rtpParses → e.history.keyedOnce →
        e.srtpInstalled ∧ e.InboundSession d) := by
  unfold recvMedia
  by_cases hins : e.srtpInstalled = true
  · rw [if_pos hins]
    simp only []
    -- once there were keys there are, so that only libsrtp can leave the engine without a session
    have hsome : e.history.keyedOnce = true →
        ((e.srtp.getSession 0 false d.create).1.isSome ↔ e.InboundSession d) := fun hk =>
      SrtpContext.getSession_isSome (hI.keyed hk).1 (hI.keyed hk).2
    have hready := @SrtpContext.ready_getSession e.srtp hI.ready 0 false d.create
    generalize e.srtp.getSession 0 false d.create = got at hsome hready
    obtain ⟨sess, srtp⟩ := got
    cases sess with
    | none =>
      simp only [takes_dispatchMediaInbound, authentic_raw]
      refine imp_congr_right fun _ => ?_
      cases hk : e.history.keyedOnce with
      | false => simp
      | true => simp [hins, ← hsome hk]
    | some s =>
      have hsess := hready rfl
      refine iff_of_true ?_ fun _ hk => ⟨hins, (hsome hk).1 rfl⟩
      simp only []
      split
      · rename_i packet hu
        rw [takes_dispatchMediaInbound]
        exact fun _ _ => ⟨d, _, rfl, rfl, hsess, ⟨rfl, rfl⟩, hu⟩
      · split
        · rename_i packet hu
          simp only [andThen, List.singleton_append]
          rw [takes_handed e d _ (by exact noneHanded_videoPackets _ _ _)]
          exact fun _ => ⟨d, _, rfl, rfl, hsess, ⟨rfl, rfl⟩, hu⟩
        · exact fun o ho => absurd ho List.not_mem_nil
  · rw [if_neg hins, takes_dispatchMediaInbound, authentic_raw]
    simp [hins]

theorem takes_recv (hI : e.Base) {d : Inbound} (hmedia : d.isMedia = true) :
    e.TakesAuthentic (.recv d) ↔ e.ReceivesKeyed (.recv d) := by
  change e.Takes d (e.onTransportRecv d).2 ↔ _
  simp only [ReceivesKeyed]
  rcases e.onTransportRecv_cases d with ⟨hnot, h⟩ | ⟨-, hm, -⟩ | ⟨hopen, -, h⟩
  · rw [h]
    exact iff_of_true (by simp [Takes]) fun hopen _ => absurd ⟨hopen, hmedia⟩ hnot
  · exact absurd (hm.symm.trans hmedia) (by simp)
  · rw [h, takes_recvMedia hI]
    simp [hopen, hmedia]

theorem receivesKeyed_of_control {ev : EngineEvent} (h : ev.ofMedia = false) :
    e.ReceivesKeyed ev := by
  cases ev with
  | recv d =>
    intro _ hmedia
    exact absurd (hmedia.symm.trans h) (by simp)
  | _ => trivial

theorem takesAuthentic_step (hI : e.Base) (ev : EngineEvent) :
    e.TakesAuthentic ev ↔ e.ReceivesKeyed ev := by
  cases hmedia : ev.ofMedia with
  | false => exact iff_of_true (takesAuthentic_of_control hmedia) (receivesKeyed_of_control hmedia)
  | true =>
    cases ev with
    | sendAudio f =>
      exact iff_of_true (takesAuthentic_of_noneHanded (noneHanded_sendAudio e f)) trivial
    | sendVideo f =>
      exact iff_of_true (takesAuthentic_of_noneHanded (noneHanded_sendVideo e f)) trivial
    | senderReport iceUp elapsed r =>
      refine iff_of_true (takesAuthentic_of_noneHanded ?_) trivial
      simp only [step, maybeSendSenderReport]
      split_ifs
      · exact noneHanded_sendRtcp e _ _ r
      · exact noneHanded_nil
      · exact noneHanded_nil
    | flushVideoFeedback iceUp r =>
      refine iff_of_true (takesAuthentic_of_noneHanded ?_) trivial
      simp only [step, flushVideoFeedback]
      split_ifs
      · exact noneHanded_sendRtcp _ _ _ r
      · exact noneHanded_nil
      · exact noneHanded_nil
    | recv d => exact takes_recv hI hmedia
    | _ => cases hmedia

/-- A run takes in only authentic media, once it had keys, exactly when every datagram that is
taken for media then finds keys installed and a session. -/
theorem media_authentic_iff (cfg : EngineConfig) (sender : Option VideoSender)
    (fingerprint : String) (evs : List EngineEvent) :
    machine.Meets TakesAuthentic (fresh cfg sender fingerprint) evs
      ↔ machine.Meets ReceivesKeyed (fresh cfg sender fingerprint) evs :=
  Machine.meets_congr (I := Base) (fun _ ev hI => base_step hI ev)
    (fun _ ev hI => takesAuthentic_step hI ev) evs (base_fresh cfg sender fingerprint)

/-- Once the session has started its rehandshake a plain RTP packet is handed on. -/
theorem media_taken_plain : ¬ machine.Meets TakesAuthentic (fresh {} none "")
    [.open {} true,
      .recv { bytes := [22, 0xFE, 0xFD], pump := ⟨.success none (some ⟨List.replicate 16 1,
        List.replicate 16 2, List.replicate 14 3, List.replicate 14 4⟩) [], []⟩ },
      .pollIceFlap .connected {}, .pollIceFlap .disconnected {}, .pollIceFlap .connected {},
      .recv { bytes := [0x80, 0x66, 0, 1, 0, 0, 0, 1, 0, 0, 0, 7] }] := by
  rintro ⟨-, -, -, -, -, h, -⟩
  obtain ⟨d, call, -, hcall, -⟩ := h (.handed ⟨[0x80, 0x66, 0, 1, 0, 0, 0, 1, 0, 0, 0, 7],
    [0x80, 0x66, 0, 1, 0, 0, 0, 1, 0, 0, 0, 7], none⟩) (by decide) (by decide)
  cases hcall

end Engine

end NimRtc
