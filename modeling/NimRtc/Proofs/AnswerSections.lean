import NimRtc.AudioSend
import NimRtc.Proofs.EngineStep

/-!
# The sections of an answer

An answer has a section for each section of the offer that the engine negotiates, in the order of the
offer. Each of those for RTP maps the one extension that the engine knows, whether it was offered or
not.
-/

namespace NimRtc

/-- The sections whose media are RTP. -/
def MediaDescription.isRtp (m : MediaDescription) : Bool := m.recognised && m.type ≠ .application

/-- What of an offered section is found in the one that answers it. -/
structure Mirrors (m a : MediaDescription) : Prop where
  type : a.type = m.type
  port : a.port = 9
  mid : m.mid ≠ "" → a.mid = m.mid

/-- The extension was offered under the same id. -/
def MediaDescription.Offers (m : MediaDescription) (x : ExtMap) : Prop :=
  ∃ y ∈ m.extmap, y.id = x.id ∧ y.uri = x.uri

theorem toString_nat_ne_empty (n : ℕ) : toString n ≠ "" := by
  intro h
  have hlen := congrArg String.toList h
  simp at hlen

namespace Engine

variable {e : Engine} {remote answer : SessionDescription} {ice : IceLocal} {mungerOk : Bool}

theorem applyRemote_keeps (e : Engine) (remote : SessionDescription) :
    (e.applyRemote remote).cfg = e.cfg
      ∧ (e.applyRemote remote).localAbsSendTimeId = e.localAbsSendTimeId := by
  unfold applyRemote applyDtls
  split <;> exact ⟨rfl, rfl⟩

/-- The sections of the answer are those that answer the recognised ones of the offer. -/
theorem forall₂_answer {R : MediaDescription → MediaDescription → Prop} (e : Engine)
    (remote : SessionDescription) (ice : IceLocal) :
    List.Forall₂ R (remote.media.filter (·.recognised)) (e.answerTo remote ice).media
      ↔ ∀ m ∈ remote.media, m.recognised = true →
        R m (e.answerSection ice remote.media.length e.answerAbsSendTimeId m) := by
  rw [answerTo, List.forall₂_map_right_iff, List.forall₂_same]
  simp only [List.mem_filter, and_imp]

theorem mid_answerSection_ne (e : Engine) (ice : IceLocal) (sections : ℕ) (id : UInt16)
    (m : MediaDescription) : (e.answerSection ice sections id m).mid ≠ "" := by
  show (if m.mid = "" then toString sections else m.mid) ≠ ""
  split_ifs with hmid
  · exact toString_nat_ne_empty sections
  · exact hmid

theorem bundleMids_answerTo (e : Engine) (remote : SessionDescription) (ice : IceLocal)
    (h : (e.answerTo remote ice).media ≠ []) :
    (e.answerTo remote ice).bundleMids = (e.answerTo remote ice).media.map (·.mid) := by
  have hall : ∀ mid ∈ (e.answerTo remote ice).media.map (·.mid), decide (mid ≠ "") = true := by
    intro mid hmid
    obtain ⟨a, ha, rfl⟩ := List.mem_map.1 hmid
    obtain ⟨m, -, rfl⟩ := List.mem_map.1 ha
    exact decide_eq_true (mid_answerSection_ne _ _ _ _ m)
  have hmids := List.filter_eq_self.2 hall
  have hsome : (e.answerTo remote ice).media.map (·.mid) ≠ [] := by simpa using h
  show (if (e.answerTo remote ice).media = [] then remote.bundleMids
    else if ((e.answerTo remote ice).media.map (·.mid)).filter (· ≠ "") = [] then ["0"]
      else ((e.answerTo remote ice).media.map (·.mid)).filter (· ≠ "")) = _
  rw [hmids, if_neg h, if_neg hsome]

/-- An answer has a section for each audio, video and application section of the offer, in the same
order, at port 9 and with the mid that was offered, and its BUNDLE group is the mids of its
sections if it has any. -/
theorem answer_mirrors_offer
    (h : (e.processRemoteSdp (some remote) ice mungerOk).2 = .answer answer) :
    List.Forall₂ Mirrors (remote.media.filter (·.recognised)) answer.media
      ∧ (answer.media ≠ [] → answer.bundleMids = answer.media.map (·.mid)) := by
  obtain ⟨remote', hremote, -, rfl⟩ := processRemoteSdp_eq_answer h
  cases hremote
  refine ⟨(forall₂_answer _ _ _).2 fun m _ _ => ⟨rfl, rfl, fun hmid => if_neg hmid⟩, ?_⟩
  exact bundleMids_answerTo _ _ _

/-- An offer of an audio section that is switched off, a section of another medium, and a video
section. -/
def mixedOffer : SessionDescription :=
  { originSessionId := "7"
    media := [{ mid := "a", port := 0 }, { type := .other, mid := "b", port := 9 },
      { type := .video, mid := "c", port := 9 }] }

theorem answer_mirrors_offer_mixed :
    let e : Engine := { state := .open }
    List.Forall₂ Mirrors (mixedOffer.media.filter (·.recognised))
      ((e.applyRemote mixedOffer).answerTo mixedOffer {}).media :=
  (answer_mirrors_offer
    (show (({ state := .open } : Engine).processRemoteSdp (some mixedOffer) {} true).2 = _
      from rfl)).1

/-- The answer to it has two sections, the first of which is switched on. -/
theorem mixed_offer_answered :
    ∃ answer, (({ state := .open } : Engine).processRemoteSdp (some mixedOffer) {} true).2
        = .answer answer
      ∧ answer.media.length ≠ mixedOffer.media.length
      ∧ mixedOffer.media.head?.map (·.port) = some 0 ∧ answer.media.head?.map (·.port) = some 9 :=
  ⟨_, rfl, by decide, rfl, rfl⟩

/-! ### Header extensions -/

/-- The id that `send_audio` stamps abs-send-time with. -/
def stampedId (e : Engine) : Option UInt16 :=
  if e.cfg.timelineEnabled ∧ e.localAbsSendTimeId ≠ 0 then some e.localAbsSendTimeId else none

/-- The packets of `send_audio` are stamped with that id and no other. -/
theorem builder_stampedId (e : Engine) (call : AudioCall) (c : AudioCounters) :
    ∃ b : Rtp.PacketBuilder, b.extension = none
      ∧ call.builder e c = e.stampedId.elim b (b.setAbsSendTime call.absSendTime ·) := by
  unfold AudioCall.builder stampedId
  dsimp only
  split_ifs <;> exact ⟨_, rfl, rfl⟩

/-- What an answer agrees on about header extensions: it maps those that were offered, the packets
of `send_audio` are stamped as it says, and not at all if abs-send-time was not offered. -/
structure ExtensionsNegotiated (remote answer : SessionDescription) (after : Engine) : Prop where
  offered : List.Forall₂ (fun m a : MediaDescription => ∀ x ∈ a.extmap, m.Offers x)
    (remote.media.filter (·.recognised)) answer.media
  stamped : ∀ id ∈ after.stampedId, ∃ a ∈ answer.media,
    ∃ x ∈ a.extmap, x.uri = absSendTimeUri ∧ x.id = id.toNat
  silent : (∀ m ∈ remote.media, ∀ x ∈ m.extmap, x.uri ≠ absSendTimeUri) → after.stampedId = none

theorem extmap_answerSection (h : e.cfg.timelineEnabled = true) (ice : IceLocal) (sections : ℕ)
    (id : UInt16) {m : MediaDescription} (hm : m.recognised = true) :
    (e.answerSection ice sections id m).extmap = if m.isRtp then [absSendTimeMap id] else [] := by
  show (if (e.cfg.timelineEnabled && m.type ≠ .application) = true then _ else _) = _
  rw [MediaDescription.isRtp, h, hm]

/-- Applying a description does not change the id that the answer declares. -/
theorem answerAbsSendTimeId_applyRemote (e : Engine) (remote : SessionDescription) :
    (e.applyRemote remote).answerAbsSendTimeId = e.answerAbsSendTimeId := by
  rw [answerAbsSendTimeId, (applyRemote_keeps e remote).2, answerAbsSendTimeId]

theorem answerAbsSendTimeId_ne_zero (e : Engine) : e.answerAbsSendTimeId ≠ 0 := by
  unfold answerAbsSendTimeId
  split_ifs with hset
  · exact hset
  · decide

/-- The engine after it answered, as far as the id it stamps goes. -/
theorem stampedId_processRemoteSdp (htimeline : e.cfg.timelineEnabled = true)
    (h : (e.processRemoteSdp (some remote) ice mungerOk).2 = .answer answer) :
    (e.processRemoteSdp (some remote) ice mungerOk).1.stampedId
      = if remote.media.any (·.isRtp) then some e.answerAbsSendTimeId
        else if e.localAbsSendTimeId ≠ 0 then some e.localAbsSendTimeId else none := by
  obtain ⟨hcfg, hlocal⟩ := applyRemote_keeps e remote
  have hopen : e.state = .open := by
    by_contra hclosed
    rw [processRemoteSdp, if_pos hclosed] at h
    cases h
  obtain ⟨remote', hremote, hoffer, -⟩ := processRemoteSdp_eq_answer h
  cases hremote
  have hafter : (e.processRemoteSdp (some remote) ice mungerOk).1
      = (e.applyRemote remote).declareAbsSendTimeId remote := by
    simp only [processRemoteSdp, hopen, hoffer, ne_eq, not_true_eq_false, if_false,
      Bool.false_eq_true]
  rw [hafter, stampedId, declareAbsSendTimeId, hcfg, htimeline, answerAbsSendTimeId_applyRemote,
    hlocal]
  simp only [true_and, Bool.true_and]
  by_cases hrtp : remote.media.any (·.isRtp) = true
  · have hany : (remote.media.any fun m => m.recognised && decide (m.type ≠ .application)) = true :=
      hrtp
    rw [if_pos hrtp, if_pos hany, if_pos (answerAbsSendTimeId_ne_zero e)]
  · have hany : ¬ (remote.media.any fun m => m.recognised && decide (m.type ≠ .application)) = true :=
      hrtp
    rw [if_neg hrtp, if_neg hany]

theorem extmap_answered (htimeline : e.cfg.timelineEnabled = true) (ice : IceLocal)
    {m : MediaDescription} (hm : m.recognised = true) :
    ((e.applyRemote remote).answerSection ice remote.media.length
        (e.applyRemote remote).answerAbsSendTimeId m).extmap
      = if m.isRtp then [absSendTimeMap e.answerAbsSendTimeId] else [] := by
  have htimeline' : (e.applyRemote remote).cfg.timelineEnabled = true := by
    rw [(applyRemote_keeps e remote).1, htimeline]
  rw [extmap_answerSection htimeline' ice _ _ hm, answerAbsSendTimeId_applyRemote]

/-- What the answer maps was offered exactly when each section for RTP offers the one map there is. -/
theorem offered_iff (htimeline : e.cfg.timelineEnabled = true) (remote : SessionDescription)
    (ice : IceLocal) :
    List.Forall₂ (fun m a : MediaDescription => ∀ x ∈ a.extmap, m.Offers x)
        (remote.media.filter (·.recognised)) ((e.applyRemote remote).answerTo remote ice).media
      ↔ ∀ m ∈ remote.media, m.isRtp = true →
        m.Offers (absSendTimeMap e.answerAbsSendTimeId) := by
  rw [forall₂_answer]
  refine forall₂_congr fun m _ => ⟨fun hall hrtp => ?_, fun hall hm x hx => ?_⟩
  · have hm : m.recognised = true := (Bool.and_eq_true_iff.1 hrtp).1
    refine hall hm _ ?_
    rw [extmap_answered htimeline ice hm, if_pos hrtp]
    exact List.mem_singleton_self _
  · rw [extmap_answered htimeline ice hm] at hx
    split_ifs at hx with hrtp
    · rw [List.mem_singleton.1 hx]
      exact hall hrtp
    · cases hx

/-- The answer maps abs-send-time where a section for RTP is offered, under the id that the engine
declares, and nowhere else. -/
theorem mapped_iff (htimeline : e.cfg.timelineEnabled = true) (remote : SessionDescription)
    (ice : IceLocal) (id : UInt16) :
    (∃ a ∈ ((e.applyRemote remote).answerTo remote ice).media, ∃ x ∈ a.extmap,
        x.uri = absSendTimeUri ∧ x.id = id.toNat)
      ↔ remote.media.any (·.isRtp) = true ∧ e.answerAbsSendTimeId = id := by
  constructor
  · rintro ⟨a, ha, x, hx, -, hid⟩
    obtain ⟨m, hm, rfl⟩ := List.mem_map.1 ha
    obtain ⟨hmem, hrec⟩ := List.mem_filter.1 hm
    rw [extmap_answered htimeline ice hrec] at hx
    split_ifs at hx with hrtp
    · rw [List.mem_singleton.1 hx] at hid
      exact ⟨List.any_eq_true.2 ⟨m, hmem, hrtp⟩, UInt16.toNat_inj.1 (Int.ofNat_inj.1 hid)⟩
    · cases hx
  · rintro ⟨hany, rfl⟩
    obtain ⟨m, hm, hrtp⟩ := List.any_eq_true.1 hany
    have hrec : m.recognised = true := (Bool.and_eq_true_iff.1 hrtp).1
    refine ⟨_, List.mem_map_of_mem (List.mem_filter.2 ⟨hm, hrec⟩), absSendTimeMap _, ?_, rfl, rfl⟩
    rw [extmap_answered htimeline ice hrec, if_pos hrtp]
    exact List.mem_singleton_self _

/-- An answer agrees with its offer about header extensions exactly when every section of the
offer for RTP has abs-send-time under the id that the engine declares, and an engine that is
offered none for RTP has not declared one before. -/
theorem extensions_negotiated_iff (htimeline : e.cfg.timelineEnabled = true)
    (h : (e.processRemoteSdp (some remote) ice mungerOk).2 = .answer answer) :
    ExtensionsNegotiated remote answer (e.processRemoteSdp (some remote) ice mungerOk).1
      ↔ (∀ m ∈ remote.media, m.isRtp = true → m.Offers (absSendTimeMap e.answerAbsSendTimeId))
        ∧ (remote.media.any (·.isRtp) = false → e.localAbsSendTimeId = 0) := by
  have hstamped := stampedId_processRemoteSdp htimeline h
  generalize (e.processRemoteSdp (some remote) ice mungerOk).1 = after at hstamped
  obtain ⟨remote', hremote, -, rfl⟩ := processRemoteSdp_eq_answer h
  cases hremote
  constructor
  · rintro ⟨hoff, hstamp, -⟩
    refine ⟨(offered_iff htimeline remote ice).1 hoff, fun hnone => ?_⟩
    by_contra hset
    rw [if_neg (by rw [hnone]; exact Bool.false_ne_true), if_pos hset] at hstamped
    have hmapped := (mapped_iff htimeline remote ice _).1 (hstamp _ hstamped)
    exact Bool.false_ne_true (hnone.symm.trans hmapped.1)
  · rintro ⟨hall, hnone⟩
    have hsilent : remote.media.any (·.isRtp) = false → after.stampedId = none := by
      intro hany
      rw [hstamped, hany, if_neg Bool.false_ne_true, if_neg (not_not.2 (hnone hany))]
    refine ⟨(offered_iff htimeline remote ice).2 hall, fun id hstamp => ?_, fun hunoffered => ?_⟩
    · cases hany : remote.media.any (·.isRtp) with
      | false =>
        rw [hsilent hany] at hstamp
        cases hstamp
      | true =>
        rw [hstamped, hany, if_pos rfl] at hstamp
        exact (mapped_iff htimeline remote ice id).2 ⟨hany, Option.some.inj hstamp⟩
    · refine hsilent (List.any_eq_false.2 fun m hm hrtp => ?_)
      obtain ⟨y, hy, -, huri⟩ := hall m hm hrtp
      exact hunoffered m hm y hy huri

/-- An open engine with the timeline. -/
def timelineEngine : Engine := { state := .open, cfg := { timelineEnabled := true } }

/-- An offer of an audio section that maps abs-send-time to an id. -/
def offerOf (id : UInt16) : SessionDescription :=
  { originSessionId := "7", media := [{ mid := "0", port := 9, extmap := [absSendTimeMap id] }] }

theorem extensions_negotiated_same_id :
    ExtensionsNegotiated (offerOf 4) ((timelineEngine.applyRemote (offerOf 4)).answerTo (offerOf 4) {})
      (timelineEngine.processRemoteSdp (some (offerOf 4)) {} true).1 := by
  have hanswer : (timelineEngine.processRemoteSdp (some (offerOf 4)) {} true).2
      = .answer ((timelineEngine.applyRemote (offerOf 4)).answerTo (offerOf 4) {}) := rfl
  refine (extensions_negotiated_iff rfl hanswer).2 ⟨fun m hm _ => ?_, fun _ => rfl⟩
  rw [List.mem_singleton.1 hm]
  exact ⟨absSendTimeMap 4, List.mem_singleton_self _, rfl, rfl⟩

/-- A peer that offers abs-send-time under another id is answered with the id of the engine. -/
theorem other_id_answered :
    ∃ answer, (timelineEngine.processRemoteSdp (some (offerOf 2)) {} true).2 = .answer answer
      ∧ ¬ ExtensionsNegotiated (offerOf 2) answer
          (timelineEngine.processRemoteSdp (some (offerOf 2)) {} true).1 := by
  refine ⟨_, rfl, fun hneg => ?_⟩
  obtain ⟨hsection, -⟩ := List.forall₂_cons.1 hneg.offered
  obtain ⟨y, hy, hid, -⟩ := hsection (absSendTimeMap 4) (List.mem_singleton_self _)
  rw [List.mem_singleton.1 hy] at hid
  exact absurd hid (by decide)

end Engine

end NimRtc
