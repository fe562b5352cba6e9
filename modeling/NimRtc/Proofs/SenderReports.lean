import NimRtc.AudioSend
import NimRtc.Proofs.EngineStep

/-!
# Sender Reports

A report is made of five fields of the engine, which `send_audio` alone writes. It writes the instant
before the packet is built and the others before SRTP sees it. When no encoded frame is lost in
between, the instant and the timestamp are those of the last packet handed over.
-/

namespace NimRtc

namespace Engine

/-- What the Sender Reports of an engine are made of. -/
def audioState (e : Engine) : Bool × UInt32 × UInt32 × UInt32 × Int :=
  (e.cfg.timelineEnabled, e.audioPacketCount, e.audioOctetCount, e.audioRtpTimestamp,
    e.audioLastSendUnixUs)

/-! ### The other operations leave it alone -/

theorem audioState_protectOrPass (e : Engine) (rtcp : Bool) (ssrc : UInt32) (packet : List UInt8)
    (lib : LibSrtpCall) : (e.protectOrPass rtcp ssrc packet lib).1.audioState = e.audioState := by
  rcases e.protectOrPass_cases rtcp ssrc packet lib with ⟨-, h⟩ | ⟨-, srtp, -, h | ⟨s, out, -, -, h⟩⟩
    <;> rw [h] <;> rfl

theorem audioState_videoPacket (e : Engine) (p : CachedPacket) (lib : LibSrtpCall) :
    (e.videoPacket p lib).1.audioState = e.audioState := by
  have h := e.audioState_protectOrPass false e.cfg.videoSenderSsrc
    (videoRtpHeader e.cfg p ++ p.payload) lib
  rw [videoPacket]
  split
  · rename_i heq
    rw [heq] at h
    exact h
  · rename_i heq
    rw [heq] at h
    exact h

theorem audioState_videoPackets : ∀ (ps : List CachedPacket) (e : Engine) (lib : ℕ → LibSrtpCall),
    (e.videoPackets ps lib).1.audioState = e.audioState
  | [], _, _ => rfl
  | p :: ps, e, lib =>
    (audioState_videoPackets ps _ _).trans (audioState_videoPacket e p (lib 0))

theorem audioState_sendVideo (e : Engine) (f : VideoFrame) :
    (e.sendVideo f).1.audioState = e.audioState := by
  rw [sendVideo]
  split
  · rfl
  · exact audioState_videoPackets _ _ _

theorem audioState_sendRtcp (e : Engine) (kind : MediaKind) (ssrc : UInt32) (r : RtcpBuild) :
    (e.sendRtcp kind ssrc r).1.audioState = e.audioState := by
  have h := e.audioState_protectOrPass true ssrc r.bytes r.lib
  rw [sendRtcp]
  split
  · rename_i heq
    rw [heq] at h
    exact h
  · rename_i heq
    rw [heq] at h
    exact h

theorem audioState_maybeSendSenderReport (e : Engine) (iceUp elapsed : Bool) (r : RtcpBuild) :
    (e.maybeSendSenderReport iceUp elapsed r).1.audioState = e.audioState := by
  rw [maybeSendSenderReport]
  split
  · exact audioState_sendRtcp e _ _ r
  · rfl

theorem audioState_flushVideoFeedback (e : Engine) (iceUp : Bool) (r : RtcpBuild) :
    (e.flushVideoFeedback iceUp r).1.audioState = e.audioState := by
  rw [flushVideoFeedback]
  split
  · exact audioState_sendRtcp _ _ _ r
  · rfl

theorem audioState_handleRtp (e : Engine) (feedback : Option VideoFeedbackReport) :
    (e.handleRtp feedback).audioState = e.audioState := by
  rw [handleRtp]
  split
  · rcases feedback with _ | r
    · rfl
    · show (e.queueVideoFeedback r).audioState = _
      rw [queueVideoFeedback]
      split
      · rfl
      · split <;> rfl
  · rfl

theorem audioState_handleRtcp (e : Engine) (actions : List FeedbackAction) (lib : ℕ → LibSrtpCall) :
    (e.handleRtcp actions lib).1.audioState = e.audioState :=
  audioState_videoPackets _ _ _

theorem audioState_dispatch (e : Engine) (d : Inbound) (packet : List UInt8)
    (call : Option PacketCall) :
    (e.dispatchMediaInbound d packet call).1.audioState = e.audioState := by
  simp only [dispatchMediaInbound]
  split
  · exact audioState_handleRtcp e _ _
  · split
    · exact audioState_handleRtp e _
    · rfl

theorem audioState_recvMedia (e : Engine) (d : Inbound) :
    (e.recvMedia d).1.audioState = e.audioState := by
  simp only [recvMedia]
  split
  · split
    · exact audioState_dispatch _ _ _ _
    · split
      · exact audioState_dispatch _ _ _ _
      · split
        · exact audioState_handleRtcp _ _ _
        · rfl
  · exact audioState_dispatch _ _ _ _

theorem audioState_maybeInstallSrtpKeys (e : Engine) :
    e.maybeInstallSrtpKeys.1.audioState = e.audioState := by
  rw [maybeInstallSrtpKeys]
  split
  · rfl
  · split
    · rfl
    · split <;> rfl

theorem audioState_drainDtls (e : Engine) (d : DrainEnv) :
    (e.drainDtls d).1.audioState = e.audioState := by
  simp only [drainDtls, andThen]
  split
  · exact audioState_maybeInstallSrtpKeys _
  · rfl

theorem audioState_pollIceFlap (e : Engine) (cur : IceState) (r : RehandshakeEnv) :
    (e.pollIceFlapForRehandshake cur r).1.audioState = e.audioState := by
  rcases e.pollIceFlap_cases cur r with ⟨once, armed, ⟨-, heq⟩ | ⟨installed, -, heq⟩⟩ <;> rw [heq] <;> rfl

theorem audioState_onTransportRecv (e : Engine) (d : Inbound) :
    (e.onTransportRecv d).1.audioState = e.audioState := by
  rcases e.onTransportRecv_cases d with ⟨-, heq⟩ | ⟨-, -, heq⟩ | ⟨-, -, heq⟩ <;> rw [heq]
  · simp only [andThen]
    split
    · exact audioState_drainDtls _ _
    · rfl
  · exact audioState_recvMedia e d

theorem audioState_open (e : Engine) (setup : WolfSetup) (iceOk : Bool) :
    (e.open setup iceOk).1.audioState = e.audioState := by
  simp only [Engine.open]
  split
  · rfl
  · split <;> split <;> (try split) <;> rfl

theorem audioState_processRemoteSdp (e : Engine) (parsed : Option SessionDescription)
    (ice : IceLocal) (mungerOk : Bool) :
    (e.processRemoteSdp parsed ice mungerOk).1.audioState = e.audioState := by
  have happly : ∀ remote, (e.applyRemote remote).audioState = e.audioState := by
    intro remote
    show ((e.applyIce remote).applyDtls (e.remoteIsAnswer remote) remote).audioState = _
    rw [applyDtls]
    split <;> rfl
  simp only [processRemoteSdp]
  split
  · rfl
  · split
    · rfl
    · split
      · exact happly _
      · exact happly _

theorem audioState_step (e : Engine) {ev : EngineEvent} (h : ∀ f, ev ≠ .sendAudio f) :
    (e.step ev).1.audioState = e.audioState := by
  cases ev with
  | «open» setup iceOk => exact audioState_open e setup iceOk
  | createOffer sessionId ice mungerOk => cases mungerOk <;> rfl
  | processRemoteSdp parsed ice mungerOk => exact audioState_processRemoteSdp e parsed ice mungerOk
  | sendAudio f => exact absurd rfl (h f)
  | sendVideo f => exact audioState_sendVideo e f
  | pollIceFlap cur r =>
    rw [step]
    split
    · exact audioState_pollIceFlap e cur r
    · rfl
  | drainDtls d =>
    rw [step]
    split
    · exact audioState_drainDtls e d
    · rfl
  | senderReport iceUp elapsed r =>
    rw [step]
    split
    · exact audioState_maybeSendSenderReport e iceUp elapsed r
    · rfl
  | flushVideoFeedback iceUp r =>
    rw [step]
    split
    · exact audioState_flushVideoFeedback e iceUp r
    · rfl
  | recv d => exact audioState_onTransportRecv e d
  | dtls c => rfl

/-! ### What is in a report -/

/-- The fields of the reports after some packets were handed over. -/
structure Reports (sent : List (UInt32 × Int × ℕ)) (e : Engine) : Prop where
  count : e.audioPacketCount = UInt32.ofNat sent.length
  octets : e.audioOctetCount = UInt32.ofNat (sent.map (·.2.2)).sum
  last : e.cfg.timelineEnabled = true → sent ≠ [] →
    ∃ p ∈ sent, e.audioLastSendUnixUs = p.2.1 ∧ e.audioRtpTimestamp = p.1

variable {sent : List (UInt32 × Int × ℕ)} {e e' : Engine}

theorem Reports.of_audioState (h : Reports sent e) (heq : e'.audioState = e.audioState) :
    Reports sent e' := by
  simp only [audioState, Prod.mk.injEq] at heq
  obtain ⟨hcfg, hcount, hoctets, hts, hlast⟩ := heq
  refine ⟨hcount.trans h.count, hoctets.trans h.octets, fun htimeline hne => ?_⟩
  rw [hts, hlast]
  exact h.last (hcfg ▸ htimeline) hne

/-- A packet that is handed over leaves its timestamp and its instant. -/
theorem audioState_handed {f : AudioFrame} (h : (e.sendAudio f).2 ≠ []) :
    (e.sendAudio f).1.audioState = ((e.stamped f).countAudio f).audioState := by
  rw [sendAudio_eq] at h ⊢
  split
  · rename_i hready
    rw [if_pos hready] at h
    exact absurd rfl h
  · rename_i hready
    rw [if_neg hready] at h
    split
    · rename_i hpacket
      rw [if_pos hpacket] at h
      exact absurd rfl h
    · rw [handAudio_fst]
      exact audioState_protectOrPass _ _ _ _ _

theorem Reports.handed (h : Reports sent e) {f : AudioFrame} (hout : (e.sendAudio f).2 ≠ []) :
    Reports (sent ++ [(f.rtpTs, f.sendUnixUs, f.encoded.length)]) (e.sendAudio f).1 := by
  refine Reports.of_audioState ?_ (audioState_handed hout)
  have hcount : ((e.stamped f).countAudio f).audioPacketCount = e.audioPacketCount + 1 := by
    rw [stamped, countAudio]
    split <;> rfl
  have hoctets : ((e.stamped f).countAudio f).audioOctetCount
      = e.audioOctetCount + UInt32.ofNat f.encoded.length := by
    rw [stamped, countAudio]
    split <;> rfl
  refine ⟨?_, ?_, fun htimeline _ => ⟨_, List.mem_append_right _ List.mem_cons_self, ?_, rfl⟩⟩
  · rw [hcount, h.count, List.length_append, List.length_singleton, UInt32.ofNat_add]
    rfl
  · rw [hoctets, h.octets, List.map_append, List.sum_append, UInt32.ofNat_add]
    rfl
  · have hcfg : e.cfg.timelineEnabled = true := by
      rw [stamped, countAudio] at htimeline
      split at htimeline
      · assumption
      · exact htimeline
    rw [stamped, if_pos hcfg]
    rfl

theorem Reports.describes (h : Reports sent e) {iceUp elapsed : Bool} {r : RtcpBuild}
    (hdue : e.senderReportDue iceUp elapsed r = true) : AudioNote.Describes e.senderReport sent := by
  simp only [senderReportDue, Bool.and_eq_true, decide_eq_true_eq] at hdue
  obtain ⟨⟨⟨⟨⟨⟨htimeline, -⟩, -⟩, -⟩, hcount⟩, -⟩, -⟩ := hdue
  have hne : sent ≠ [] := by
    rintro rfl
    exact hcount h.count
  obtain ⟨p, hp, hlast, hts⟩ := h.last htimeline hne
  exact ⟨⟨p, hp, congrArg ntp64From hlast, hts⟩, h.count, h.octets⟩

/-! ### Runs -/

theorem packets_append (l m : List AudioNote) :
    AudioNote.packets (l ++ m) = AudioNote.packets l ++ AudioNote.packets m :=
  List.filterMap_append

/-- A frame that is not lost is handed over. -/
theorem sendAudio_ne_nil {f : AudioFrame} (hready : e.audioReady f = true)
    (hok : e.HandsOver (.sendAudio f)) : (e.sendAudio f).2 ≠ [] := by
  obtain ⟨hpacket, hsrtp⟩ := hok hready
  have hinstalled : ((e.stamped f).countAudio f).srtpInstalled = e.srtpInstalled := by
    rw [stamped, countAudio]
    split <;> rfl
  have hkeys : ((e.stamped f).countAudio f).srtp = e.srtp := by
    rw [stamped, countAudio]
    split <;> rfl
  rw [sendAudio_eq, hready, if_neg (by simp), if_neg hpacket, Ne, handAudio_eq_nil, protectOrPass,
    hinstalled, hkeys]
  split
  · rename_i hins
    obtain ⟨s, hs, hsession, hout⟩ := hsrtp hins
    obtain ⟨l, hl⟩ := Option.isSome_iff_exists.1 hsession
    obtain ⟨out, hout⟩ := Option.isSome_iff_exists.1 hout
    simp [hs, PacketCall.protect, SrtpSession.protectRtp, hl, hout]
  · simp

theorem sendAudio_not_ready {f : AudioFrame} (hready : e.audioReady f = false) :
    e.sendAudio f = (e, []) := by
  rw [sendAudio_eq, hready]
  rfl

theorem Reports.sendAudio (h : Reports sent e) {f : AudioFrame} (hok : e.HandsOver (.sendAudio f)) :
    Reports (sent ++ AudioNote.packets (e.notes (.sendAudio f))) (e.sendAudio f).1 := by
  cases hready : e.audioReady f with
  | true =>
    have hout := sendAudio_ne_nil hready hok
    rw [notes, if_pos hout]
    exact h.handed hout
  | false =>
    rw [notes, sendAudio_not_ready hready, if_neg (by simp)]
    simpa [AudioNote.packets] using h

theorem withReport_eq_sendAudio {ev : EngineEvent} {f : AudioFrame} :
    e.withReport ev = .sendAudio f ↔ ev = .sendAudio f := by
  cases ev <;> simp [withReport]

theorem packets_notes {ev : EngineEvent} (hev : ∀ f, ev ≠ .sendAudio f) :
    AudioNote.packets (e.notes ev) = [] := by
  cases ev with
  | sendAudio f => exact absurd rfl (hev f)
  | senderReport iceUp elapsed r =>
    rw [notes]
    split <;> rfl
  | _ => rfl

/-- A report is built of the fields as they are. -/
theorem mem_notes_report {ev : EngineEvent} {sr : Rtp.SenderReport} (hsr : .report sr ∈ e.notes ev) :
    sr = e.senderReport ∧ ∃ iceUp elapsed r, e.senderReportDue iceUp elapsed r = true := by
  cases ev with
  | sendAudio f =>
    rw [notes] at hsr
    split at hsr <;> simp at hsr
  | senderReport iceUp elapsed r =>
    rw [notes] at hsr
    split at hsr
    · rename_i hdue
      rw [Bool.and_eq_true] at hdue
      simp only [List.mem_singleton, AudioNote.report.injEq] at hsr
      exact ⟨hsr, iceUp, elapsed, r, hdue.2⟩
    · cases hsr
  | _ => cases hsr

theorem Reports.step (h : Reports sent e) {ev : EngineEvent} (hok : e.HandsOver ev) :
    Reports (sent ++ AudioNote.packets (noting.step e ev).2) (noting.step e ev).1
      ∧ ∀ sr, .report sr ∈ (noting.step e ev).2 → AudioNote.Describes sr sent := by
  constructor
  · by_cases hev : ∃ f, ev = .sendAudio f
    · obtain ⟨f, rfl⟩ := hev
      exact h.sendAudio hok
    · have hother : ∀ f, e.withReport ev ≠ .sendAudio f := fun f hf =>
        hev ⟨f, withReport_eq_sendAudio.1 hf⟩
      show Reports (sent ++ AudioNote.packets (e.notes (e.withReport ev))) _
      rw [packets_notes hother, List.append_nil]
      exact h.of_audioState (audioState_step e hother)
  · intro sr hsr
    obtain ⟨rfl, iceUp, elapsed, r, hdue⟩ := mem_notes_report hsr
    exact h.describes hdue

/-- An event is noted once at most. -/
theorem notes_length_le (e : Engine) (ev : EngineEvent) : (e.notes ev).length ≤ 1 := by
  cases ev with
  | sendAudio f =>
    rw [notes]
    split <;> simp
  | senderReport iceUp elapsed r =>
    rw [notes]
    split <;> simp
  | _ => simp [notes]

/-- The reports of a run describe the packets before them, those from before the run included. -/
theorem Reports.exec : ∀ {evs : List EngineEvent} {sent : List (UInt32 × Int × ℕ)} {e : Engine},
    Reports sent e → noting.Meets HandsOver e evs →
    ∀ before sr after, (noting.exec e evs).2 = before ++ .report sr :: after →
      AudioNote.Describes sr (sent ++ AudioNote.packets before)
  | [], _, _, _, _, before, sr, after, heq => by simp at heq
  | ev :: evs, sent, e, h, hm, before, sr, after, heq => by
    obtain ⟨hnext, hsr⟩ := h.step hm.1
    have hlater := Reports.exec hnext hm.2
    rw [Machine.exec_cons] at heq
    rcases List.append_eq_append_iff.1 heq with ⟨rest, rfl, hrest⟩ | ⟨rest, hstep, hrest⟩
    · -- a later event builds the report
      rw [packets_append, ← List.append_assoc]
      exact hlater rest sr after hrest
    · cases rest with
      | nil =>
        rw [List.append_nil] at hstep
        rw [← hstep]
        have := hlater [] sr after hrest.symm
        rwa [AudioNote.packets, List.filterMap_nil, List.append_nil] at this
      | cons note rest =>
        -- this event builds it, and nothing else
        obtain ⟨rfl, -⟩ := List.cons_eq_cons.1 hrest
        have hlen : (noting.step e ev).2.length ≤ 1 := notes_length_le e _
        rw [hstep, List.length_append, List.length_cons] at hlen
        obtain rfl : before = [] := List.eq_nil_of_length_eq_zero (by omega)
        rw [AudioNote.packets, List.filterMap_nil, List.append_nil]
        exact hsr sr (by rw [hstep]; simp)

theorem reports_fresh (cfg : EngineConfig) (sender : Option VideoSender) (fingerprint : String) :
    Reports [] (fresh cfg sender fingerprint) :=
  ⟨rfl, rfl, fun _ h => absurd rfl h⟩

/-- The Sender Reports describe the packets handed over, in the runs that lose no encoded frame. -/
theorem noting_truthful (cfg : EngineConfig) (sender : Option VideoSender) (fingerprint : String)
    {evs : List EngineEvent} (h : noting.Meets HandsOver (fresh cfg sender fingerprint) evs) :
    AudioNote.Truthful (noting.exec (fresh cfg sender fingerprint) evs).2 :=
  (reports_fresh cfg sender fingerprint).exec h

/-- A record on which the handshake of a fresh engine succeeds, so that it has keys. -/
def keyed : Inbound :=
  { bytes := [22, 0xFE, 0xFD]
    pump := ⟨.success none (some ⟨List.replicate 16 1, List.replicate 16 2, List.replicate 14 3,
      List.replicate 14 4⟩) [], []⟩ }

theorem noting_truthful_keyed :
    let evs : List EngineEvent := [.open {} true, .recv keyed,
      .sendAudio { encoded := [7], packet := [0x80], rtpTs := 960, sendUnixUs := 20000 },
      .senderReport true true ⟨[], {}⟩]
    noting.Meets HandsOver (fresh { timelineEnabled := true } none "") evs
      ∧ AudioNote.Truthful (noting.exec (fresh { timelineEnabled := true } none "") evs).2 := by
  intro evs
  have h : noting.Meets HandsOver (fresh { timelineEnabled := true } none "") evs := by
    refine ⟨trivial, trivial, fun _ => ⟨by simp, fun _ => ?_⟩, trivial, trivial⟩
    exact ⟨_, rfl, rfl, rfl⟩
  exact ⟨h, noting_truthful _ _ _ h⟩

/-- The second packet is lost to SRTP, and the report is about it: two packets, and the instant and
the timestamp of the second. -/
theorem lost_packet_reported : ¬ AudioNote.Truthful
    (noting.exec (fresh { timelineEnabled := true } none "")
      [.open {} true, .recv keyed,
        .sendAudio { encoded := [7], packet := [0x80], rtpTs := 0, sendUnixUs := 20000 },
        .sendAudio { encoded := [7], packet := [0x80], rtpTs := 960, sendUnixUs := 40000
                     lib := { out := none } },
        .senderReport true true ⟨[], {}⟩]).2 := by
  intro h
  obtain ⟨⟨p, hp, -, hts⟩, -, -⟩ := h [.handed 0 20000 1]
    { ssrc := audioSsrcOnWire, ntpTimestamp := ntp64From 40000, rtpTimestamp := 960
      senderPacketCount := 2, senderOctetCount := 2 } [] (by rfl)
  obtain rfl : p = (0, 20000, 1) := List.mem_singleton.1 hp
  cases hts

end Engine

end NimRtc
