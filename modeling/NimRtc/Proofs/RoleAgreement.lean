import NimRtc.Proofs.EngineStep
import NimRtc.SignalingNet

/-!
# Two engines agree on the DTLS client

An offer is answered as the server and its answer makes the offerer the client, so the two agree
whenever offers and answers come one after the other. They do not when each answers the other's
offer before it has the answer to its own, when an answer is not taken for one because a later
offer was made, and when the answer to an engine that is the server is lost. In a run without
these exactly one engine is the client once both have negotiated and nothing is in flight.
-/

namespace NimRtc

namespace Engine

variable {e : Engine} {remote : SessionDescription} {s : MediaDescription}

theorem localSessionId_applyRemote (e : Engine) (remote : SessionDescription) :
    (e.applyRemote remote).localSessionId = e.localSessionId := by
  unfold applyRemote applyDtls
  split <;> rfl

/-- The role and the `a=setup` value that a description settles. -/
theorem resolved_applyRemote (hs : remote.media.find? (·.recognised) = some s) :
    (e.applyRemote remote).dtlsIsClient = decide ((resolveRole (e.remoteIsAnswer remote)
        (if s.dtlsSetup = "" then "actpass" else s.dtlsSetup)).1 = .client)
      ∧ (e.applyRemote remote).dtlsLocalSetup = (resolveRole (e.remoteIsAnswer remote)
        (if s.dtlsSetup = "" then "actpass" else s.dtlsSetup)).2 := by
  unfold applyRemote applyDtls
  rw [hs]
  exact ⟨rfl, rfl⟩

theorem createOffer_spec (e : Engine) (sessionId : String) (ice : IceLocal) (mungerOk : Bool) :
    ∃ (e' : Engine) (sdp : SessionDescription),
      e.createOffer sessionId ice mungerOk = (e', if mungerOk then some sdp else none)
      ∧ e'.state = e.state ∧ e'.localSessionId = sessionId ∧ e'.dtlsIsClient = e.dtlsIsClient
      ∧ sdp.originSessionId = sessionId
      ∧ sdp.media.find? (·.recognised) = some (e.offerAudio ice) := by
  unfold createOffer
  cases mungerOk with
  | false => exact ⟨_, { originSessionId := sessionId, media := [e.offerAudio ice] }, rfl, rfl, rfl,
      rfl, rfl, rfl⟩
  | true => exact ⟨_, _, rfl, rfl, rfl, rfl, rfl, rfl⟩

theorem processRemoteSdp_offer (hopen : e.state = .open) (hoffer : e.remoteIsAnswer remote = false)
    (hs : remote.media.find? (·.recognised) = some s) (ice : IceLocal) (mungerOk : Bool) :
    ∃ e', e.processRemoteSdp (some remote) ice mungerOk
        = (e', if mungerOk then .answer ((e.applyRemote remote).answerTo remote ice) else .failed)
      ∧ e'.state = .open ∧ e'.localSessionId = e.localSessionId ∧ e'.dtlsIsClient = false := by
  unfold processRemoteSdp
  rw [if_neg (not_not.2 hopen)]
  simp only [hoffer, Bool.false_eq_true, if_false]
  refine ⟨_, rfl, ?_, localSessionId_applyRemote e remote, ?_⟩
  · exact (e.signalled_applyRemote remote).1.state.trans hopen
  · have h := (resolved_applyRemote (e := e) hs).1
    rw [hoffer] at h
    exact h

theorem processRemoteSdp_answer (hopen : e.state = .open) (hanswer : e.remoteIsAnswer remote = true)
    (hs : remote.media.find? (·.recognised) = some s) (hpassive : s.dtlsSetup = "passive")
    (ice : IceLocal) (mungerOk : Bool) :
    ∃ e', e.processRemoteSdp (some remote) ice mungerOk = (e', .empty)
      ∧ e'.state = .open ∧ e'.localSessionId = e.localSessionId ∧ e'.dtlsIsClient = true := by
  unfold processRemoteSdp
  rw [if_neg (not_not.2 hopen)]
  simp only [hanswer, if_true]
  refine ⟨_, rfl, ?_, localSessionId_applyRemote e remote, ?_⟩
  · exact (e.signalled_applyRemote remote).1.state.trans hopen
  · have h := (resolved_applyRemote (e := e) hs).1
    rw [hanswer, hpassive] at h
    exact h

/-- An offer is answered as passive in every section. -/
theorem dtlsSetup_answerTo (hoffer : e.remoteIsAnswer remote = false) (ice : IceLocal) :
    ∀ a ∈ ((e.applyRemote remote).answerTo remote ice).media, a.dtlsSetup = "passive" := by
  intro a ha
  obtain ⟨m, hm, rfl⟩ := List.mem_map.1 ha
  obtain ⟨hmem, hrec⟩ := List.mem_filter.1 hm
  have hsome : (remote.media.find? (·.recognised)).isSome := List.find?_isSome.2 ⟨m, hmem, hrec⟩
  obtain ⟨s, hs⟩ := Option.isSome_iff_exists.1 hsome
  have hsetup := (resolved_applyRemote (e := e) hs).2
  rw [hoffer] at hsetup
  simp only [answerSection, hsetup]
  rfl

/-- The answer to an offer with a section that is recognised has one, too. -/
theorem find?_answerTo (hoffer : e.remoteIsAnswer remote = false)
    (hs : remote.media.find? (·.recognised) = some s) (ice : IceLocal) :
    ∃ a, ((e.applyRemote remote).answerTo remote ice).media.find? (·.recognised) = some a
      ∧ a.dtlsSetup = "passive" := by
  have hmem := List.mem_of_find?_eq_some hs
  have hrec : s.recognised = true := List.find?_some hs
  have hanswered : (e.applyRemote remote).answerSection ice remote.media.length
      (e.applyRemote remote).answerAbsSendTimeId s
        ∈ ((e.applyRemote remote).answerTo remote ice).media :=
    List.mem_map.2 ⟨s, List.mem_filter.2 ⟨hmem, hrec⟩, rfl⟩
  have hsome : (((e.applyRemote remote).answerTo remote ice).media.find? (·.recognised)).isSome :=
    List.find?_isSome.2 ⟨_, hanswered, hrec⟩
  obtain ⟨a, ha⟩ := Option.isSome_iff_exists.1 hsome
  exact ⟨a, ha, dtlsSetup_answerTo hoffer ice a (List.mem_of_find?_eq_some ha)⟩

/-- The answer's `a=setup` values are complementary exactly when no section offers `passive`. -/
theorem complementary_answer_iff {ice : IceLocal} {mungerOk : Bool} {answer : SessionDescription}
    (h : (e.processRemoteSdp (some remote) ice mungerOk).2 = .answer answer) :
    List.Forall₂ (fun m a : MediaDescription => ComplementarySetup m.dtlsSetup a.dtlsSetup)
        (remote.media.filter (·.recognised)) answer.media
      ↔ ∀ m ∈ remote.media, m.recognised = true → m.dtlsSetup ≠ "passive" := by
  obtain ⟨_, hremote, hoffer, rfl⟩ := processRemoteSdp_eq_answer h
  cases hremote
  have hpassive := dtlsSetup_answerTo hoffer ice
  simp only [answerTo] at hpassive ⊢
  rw [List.forall₂_map_right_iff, List.forall₂_same]
  constructor
  · intro hcomp m hm hrec hoffered
    have hmem := List.mem_filter.2 ⟨hm, hrec⟩
    exact (hcomp m hmem).1 ⟨hoffered, hpassive _ (List.mem_map_of_mem hmem)⟩
  · intro hnone m hm
    obtain ⟨hmem, hrec⟩ := List.mem_filter.1 hm
    refine ⟨fun hboth => hnone m hmem hrec hboth.1, fun hboth => ?_⟩
    rw [hpassive _ (List.mem_map_of_mem hm)] at hboth
    exact absurd hboth.2 (by decide)

end Engine

theorem mem_eraseIdx_of_ne {α : Type*} {l : List α} {i : ℕ} {a b : α} (hb : l[i]? = some b)
    (ha : a ∈ l) (hne : a ≠ b) : a ∈ l.eraseIdx i := by
  obtain ⟨j, hj⟩ := List.mem_iff_getElem?.1 ha
  refine List.mem_eraseIdx_iff_getElem?.2 ⟨j, ?_, hj⟩
  rintro rfl
  exact hne (Option.some.inj (hj.symm.trans hb))

@[simp] theorem Side.peer_peer (x : Side) : x.peer.peer = x := by cases x <;> rfl

theorem Side.peer_ne (x : Side) : x.peer ≠ x := by cases x <;> nofun

theorem Side.eq_or_eq_peer (x y : Side) : y = x ∨ y = x.peer := by
  cases x <;> cases y <;> simp [peer]

/-- The side whose offer the description is or answers. -/
def InFlight.offerer (m : InFlight) : Side :=
  match m.kind with
  | .offer => m.dst.peer
  | .answer => m.dst

namespace SignalingNet

/-- What holds in an orderly run. The last three fields are the argument: an answer in flight finds
its sender the server and no answer on its way there, so that whoever takes it is the only
client. -/
structure Inv (n : SignalingNet) : Prop where
  isOpen : ∀ x, (n.engine x).state = .open
  localId : ∀ x, (n.engine x).localSessionId = "" ∨ (n.engine x).localSessionId ∈ n.ids x
  ids : ∀ x, ∀ id ∈ n.ids x, id ≠ "" ∧ id ∉ n.ids x.peer
  sessionId : ∀ m ∈ n.inFlight, m.sdp.originSessionId ∈ n.ids m.offerer
  media : ∀ m ∈ n.inFlight, ∃ s, m.sdp.media.find? (·.recognised) = some s
    ∧ (m.kind = .answer → s.dtlsSetup = "passive")
  answers : ∀ m ∈ n.inFlight, m.kind = .answer → (n.engine m.dst.peer).dtlsIsClient = false
    ∧ ∀ m' ∈ n.inFlight, m'.dst = m.dst.peer → m'.kind = .offer
  one : ∀ x, (n.engine x).dtlsIsClient = true → (n.engine x.peer).dtlsIsClient = false
  settled : (∀ x, n.negotiated x = true) →
    (∃ x, (n.engine x).dtlsIsClient = true) ∨ ∃ m ∈ n.inFlight, m.kind = .answer

variable {n : SignalingNet}

theorem Inv.agrees (hI : n.Inv) : n.Agrees := by
  intro hneg hnone
  rcases hI.settled hneg with ⟨x, hx⟩ | ⟨m, hm, -⟩
  · have hpeer := hI.one x hx
    cases x with
    | left =>
      rw [hx, show (n.engine .right).dtlsIsClient = false from hpeer]
      simp
    | right =>
      rw [hx, show (n.engine .left).dtlsIsClient = false from hpeer]
      simp
  · rw [hnone] at hm
    cases hm

theorem inv_init (cfg : Side → EngineConfig) (sender : Side → Option VideoSender)
    (fingerprint : Side → String) : (init cfg sender fingerprint).Inv where
  isOpen _ := rfl
  localId _ := .inl rfl
  ids _ := nofun
  sessionId := nofun
  media := nofun
  answers := nofun
  one _ := nofun
  settled h := absurd (h .left) (by simp [init])

theorem inv_lose (hI : n.Inv) {i : ℕ} (hok : n.Orderly (.lose i)) : (n.lose i).Inv where
  isOpen := hI.isOpen
  localId := hI.localId
  ids := hI.ids
  sessionId m hm := hI.sessionId m (List.mem_of_mem_eraseIdx hm)
  media m hm := hI.media m (List.mem_of_mem_eraseIdx hm)
  answers m hm hk := by
    obtain ⟨hserver, hoffers⟩ := hI.answers m (List.mem_of_mem_eraseIdx hm) hk
    exact ⟨hserver, fun m' hm' => hoffers m' (List.mem_of_mem_eraseIdx hm')⟩
  one := hI.one
  settled hneg := by
    rcases hI.settled hneg with hclient | ⟨m, hm, hk⟩
    · exact .inl hclient
    · cases hlost : n.inFlight[i]? with
      | none =>
        refine .inr ⟨m, ?_, hk⟩
        simp only [lose]
        rwa [List.eraseIdx_of_length_le (List.getElem?_eq_none_iff.1 hlost)]
      | some lost =>
        -- a lost answer is one that its side can spare
        cases hl : lost.kind with
        | answer =>
          rcases hok lost hlost hl with hclient | hnot
          · exact .inl ⟨_, hclient⟩
          · exact absurd (hneg lost.dst) (by simp [lose, hnot])
        | offer =>
          refine .inr ⟨m, mem_eraseIdx_of_ne hlost hm ?_, hk⟩
          rintro rfl
          exact absurd (hk.symm.trans hl) nofun

section CreateOffer

variable (n) (x : Side) (sessionId : String) (ice : IceLocal) (mungerOk : Bool)

/-- An offer leaves both roles as they are. -/
@[simp] theorem dtlsIsClient_createOffer (y : Side) :
    ((n.createOffer x sessionId ice mungerOk).engine y).dtlsIsClient = (n.engine y).dtlsIsClient := by
  obtain ⟨e', sdp, heq, -, -, hclient, -, -⟩ := (n.engine x).createOffer_spec sessionId ice mungerOk
  simp only [createOffer, heq]
  rcases Side.eq_or_eq_peer x y with rfl | rfl
  · rw [Function.update_self, hclient]
  · rw [Function.update_of_ne x.peer_ne]

theorem mem_ids_createOffer (y : Side) (id : String) :
    id ∈ (n.createOffer x sessionId ice mungerOk).ids y
      ↔ id ∈ n.ids y ∨ y = x ∧ id = sessionId := by
  show id ∈ Function.update n.ids x (sessionId :: n.ids x) y ↔ _
  rcases Side.eq_or_eq_peer x y with rfl | rfl
  · rw [Function.update_self, List.mem_cons]
    tauto
  · rw [Function.update_of_ne x.peer_ne]
    simp [x.peer_ne]

/-- What is new in flight, if anything, is the offer. -/
theorem mem_inFlight_createOffer {m : InFlight}
    (hm : m ∈ (n.createOffer x sessionId ice mungerOk).inFlight) :
    m ∈ n.inFlight ∨ m.dst = x.peer ∧ m.kind = .offer ∧ m.sdp.originSessionId = sessionId
      ∧ ∃ s, m.sdp.media.find? (·.recognised) = some s := by
  obtain ⟨e', sdp, heq, -, -, -, hid, hmedia⟩ := (n.engine x).createOffer_spec sessionId ice mungerOk
  simp only [createOffer, heq, List.mem_append] at hm
  rcases hm with hm | hm
  · exact .inl hm
  · cases mungerOk with
    | false => cases hm
    | true =>
      obtain rfl := List.mem_singleton.1 hm
      exact .inr ⟨rfl, rfl, hid, _, hmedia⟩

end CreateOffer

theorem inv_createOffer (hI : n.Inv) (x : Side) {sessionId : String} {ice : IceLocal}
    {mungerOk : Bool} (hfresh : n.FreshId (.createOffer x sessionId ice mungerOk)) :
    (n.createOffer x sessionId ice mungerOk).Inv := by
  obtain ⟨hne, hnew⟩ := hfresh
  obtain ⟨e', sdp, heq, hstate, hlocal, -, -, -⟩ :=
    (n.engine x).createOffer_spec sessionId ice mungerOk
  refine ⟨fun y => ?_, fun y => ?_, fun y id hmem => ?_, fun m hm => ?_, fun m hm => ?_,
    fun m hm hk => ?_, fun y hy => ?_, fun hneg => ?_⟩
  · simp only [createOffer, heq]
    rcases Side.eq_or_eq_peer x y with rfl | rfl
    · rw [Function.update_self, hstate]
      exact hI.isOpen _
    · rw [Function.update_of_ne x.peer_ne]
      exact hI.isOpen _
  · rw [mem_ids_createOffer]
    simp only [createOffer, heq]
    rcases Side.eq_or_eq_peer x y with rfl | rfl
    · rw [Function.update_self, hlocal]
      exact .inr (.inr ⟨rfl, rfl⟩)
    · rw [Function.update_of_ne x.peer_ne]
      exact (hI.localId _).imp_right .inl
  · rw [mem_ids_createOffer] at hmem ⊢
    rw [not_or]
    rcases hmem with hold | ⟨rfl, rfl⟩
    · obtain ⟨hid', hpeer⟩ := hI.ids y id hold
      refine ⟨hid', hpeer, ?_⟩
      rintro ⟨-, rfl⟩
      exact hnew y hold
    · exact ⟨hne, hnew _, fun h => y.peer_ne h.1⟩
  · rw [mem_ids_createOffer]
    rcases mem_inFlight_createOffer n x sessionId ice mungerOk hm with hm | ⟨hdst, hk, hid, -⟩
    · exact .inl (hI.sessionId m hm)
    · refine .inr ⟨?_, hid⟩
      rw [InFlight.offerer, hk, hdst]
      exact x.peer_peer
  · rcases mem_inFlight_createOffer n x sessionId ice mungerOk hm with hm | ⟨-, hoffer, -, s, hs⟩
    · exact hI.media m hm
    · exact ⟨s, hs, fun hk => by simp [hk] at hoffer⟩
  · rw [dtlsIsClient_createOffer]
    rcases mem_inFlight_createOffer n x sessionId ice mungerOk hm with hm | ⟨-, hoffer, -⟩
    · obtain ⟨hserver, hoffers⟩ := hI.answers m hm hk
      refine ⟨hserver, fun m' hm' hdst => ?_⟩
      rcases mem_inFlight_createOffer n x sessionId ice mungerOk hm' with hm' | ⟨-, hoffer, -⟩
      · exact hoffers m' hm' hdst
      · exact hoffer
    · simp [hk] at hoffer
  · rw [dtlsIsClient_createOffer] at hy ⊢
    exact hI.one y hy
  · rcases hI.settled hneg with ⟨y, hy⟩ | ⟨m, hm, hk⟩
    · exact .inl ⟨y, by simpa using hy⟩
    · exact .inr ⟨m, List.mem_append_left _ hm, hk⟩

/-- The fields that a delivery keeps for either kind of description. -/
theorem inv_delivered (hI : n.Inv) {x : Side} {e' : Engine} (hstate : e'.state = .open)
    (hlocal : e'.localSessionId = (n.engine x).localSessionId) {flight : List InFlight}
    (hflight : ∀ m ∈ flight, m.sdp.originSessionId ∈ n.ids m.offerer
      ∧ ∃ s, m.sdp.media.find? (·.recognised) = some s
        ∧ (m.kind = .answer → s.dtlsSetup = "passive"))
    (hanswers : ∀ m ∈ flight, m.kind = .answer →
      (Function.update n.engine x e' m.dst.peer).dtlsIsClient = false
        ∧ ∀ m' ∈ flight, m'.dst = m.dst.peer → m'.kind = .offer)
    (hone : e'.dtlsIsClient = true → (n.engine x.peer).dtlsIsClient = false)
    {negotiated : Side → Bool}
    (hsettled : (∀ y, negotiated y = true) →
      e'.dtlsIsClient = true ∨ (n.engine x.peer).dtlsIsClient = true
        ∨ ∃ m ∈ flight, m.kind = .answer) :
    Inv { n with
      engine := Function.update n.engine x e', inFlight := flight, negotiated := negotiated } where
  isOpen y := by
    rcases Side.eq_or_eq_peer x y with rfl | rfl
    · simpa using hstate
    · simpa [x.peer_ne] using hI.isOpen _
  localId y := by
    rcases Side.eq_or_eq_peer x y with rfl | rfl
    · simpa [hlocal] using hI.localId _
    · simpa [x.peer_ne] using hI.localId _
  ids := hI.ids
  sessionId m hm := (hflight m hm).1
  media m hm := (hflight m hm).2
  answers := hanswers
  one y hy := by
    rcases Side.eq_or_eq_peer x y with rfl | rfl
    · simp only [Function.update_self] at hy
      simpa [y.peer_ne] using hone hy
    · simp only [Function.update_of_ne x.peer_ne] at hy
      simp only [Side.peer_peer, Function.update_self]
      cases hc : e'.dtlsIsClient with
      | false => rfl
      | true => exact absurd ((hone hc).symm.trans hy) (by simp)
  settled hneg := by
    rcases hsettled hneg with hc | hc | hm
    · exact .inl ⟨x, by simpa using hc⟩
    · exact .inl ⟨x.peer, by simpa [x.peer_ne] using hc⟩
    · exact .inr hm

/-- An offer is not taken for an answer, since the two sides have other session ids. -/
theorem Inv.remoteIsAnswer_of_offer (hI : n.Inv) {m : InFlight} (hm : m ∈ n.inFlight)
    (hk : m.kind = .offer) : (n.engine m.dst).remoteIsAnswer m.sdp = false := by
  have hid := hI.sessionId m hm
  rw [InFlight.offerer, hk] at hid
  rcases hI.localId m.dst with hempty | hlocal
  · simp [Engine.remoteIsAnswer, hempty]
  · have hne : m.sdp.originSessionId ≠ (n.engine m.dst).localSessionId := by
      intro h
      rw [h] at hid
      exact (hI.ids _ _ hlocal).2 hid
    simp [Engine.remoteIsAnswer, hne]

/-- The answer to the last offer is taken for one. -/
theorem Inv.remoteIsAnswer_of_answer (hI : n.Inv) {m : InFlight} (hm : m ∈ n.inFlight)
    (hk : m.kind = .answer) (hlast : m.sdp.originSessionId = (n.engine m.dst).localSessionId) :
    (n.engine m.dst).remoteIsAnswer m.sdp = true := by
  have hid := hI.sessionId m hm
  rw [InFlight.offerer, hk] at hid
  have hne := (hI.ids _ _ hid).1
  rw [hlast] at hne
  simp [Engine.remoteIsAnswer, hlast, hne]

theorem inv_deliverOffer (hI : n.Inv) {i : ℕ} {m : InFlight} (hm : n.inFlight[i]? = some m)
    (hk : m.kind = .offer) {ice : IceLocal} {mungerOk : Bool}
    (hoffers : ∀ m' ∈ n.inFlight, m'.dst = m.dst → m'.kind = .offer)
    (hspares : mungerOk = false → n.Spares m.dst.peer) : (n.deliver i ice mungerOk).Inv := by
  have hmem := List.mem_of_getElem? hm
  have hid : m.sdp.originSessionId ∈ n.ids m.dst.peer := by
    have h := hI.sessionId m hmem
    rwa [InFlight.offerer, hk] at h
  obtain ⟨s, hs, -⟩ := hI.media m hmem
  have hoffer := hI.remoteIsAnswer_of_offer hmem hk
  obtain ⟨e', heq, hstate, hlocal, hserver⟩ :=
    Engine.processRemoteSdp_offer (hI.isOpen m.dst) hoffer hs ice mungerOk
  obtain ⟨a, ha, hpassive⟩ := Engine.find?_answerTo hoffer hs ice
  have hrest : ∀ m' ∈ n.inFlight.eraseIdx i, m' ∈ n.inFlight :=
    fun m' hm' => List.mem_of_mem_eraseIdx hm'
  -- the answers in flight go to the peer, so that their sender is the server now
  have htoPeer : ∀ m' ∈ n.inFlight, m'.kind = .answer → m'.dst = m.dst.peer := by
    intro m' hm' hk'
    rcases Side.eq_or_eq_peer m.dst m'.dst with hdst | hdst
    · exact absurd (hk'.symm.trans (hoffers m' hm' hdst)) nofun
    · exact hdst
  have hsender : ∀ m' : InFlight, m'.dst = m.dst.peer →
      (Function.update n.engine m.dst e' m'.dst.peer).dtlsIsClient = false := by
    intro m' hdst
    rw [hdst, Side.peer_peer, Function.update_self]
    exact hserver
  unfold deliver
  simp only [hm, heq]
  cases mungerOk with
  | false =>
    simp only [Bool.false_eq_true, if_false, if_true, List.append_nil]
    refine inv_delivered hI hstate hlocal
      (fun m' hm' => ⟨hI.sessionId m' (hrest m' hm'), hI.media m' (hrest m' hm')⟩)
      (fun m' hm' hk' => ?_) (fun hc => absurd (hserver.symm.trans hc) nofun) (fun hneg => ?_)
    · have hdst := htoPeer m' (hrest m' hm') hk'
      refine ⟨hsender m' hdst, fun m'' hm'' hdst' => hoffers m'' (hrest m'' hm'') ?_⟩
      rw [hdst', hdst, Side.peer_peer]
    · rcases hspares rfl with hc | hnot
      · exact .inr (.inl hc)
      · exact absurd (hneg m.dst.peer) (by simp [hnot])
  | true =>
    simp only [if_true, reduceCtorEq, if_false]
    refine inv_delivered hI hstate hlocal (fun m' hm' => ?_)
      (fun m' hm' hk' => ?_) (fun hc => absurd (hserver.symm.trans hc) nofun) (fun _ => ?_)
    · rcases List.mem_append.1 hm' with hm' | hm'
      · exact ⟨hI.sessionId m' (hrest m' hm'), hI.media m' (hrest m' hm')⟩
      · obtain rfl := List.mem_singleton.1 hm'
        exact ⟨hid, a, ha, fun _ => hpassive⟩
    · have hdst : m'.dst = m.dst.peer := by
        rcases List.mem_append.1 hm' with hm' | hm'
        · exact htoPeer m' (hrest m' hm') hk'
        · rw [List.mem_singleton.1 hm']
      refine ⟨hsender m' hdst, fun m'' hm'' hdst' => ?_⟩
      rw [hdst, Side.peer_peer] at hdst'
      rcases List.mem_append.1 hm'' with hm'' | hm''
      · exact hoffers m'' (hrest m'' hm'') hdst'
      · obtain rfl := List.mem_singleton.1 hm''
        exact absurd hdst' m.dst.peer_ne
    · exact .inr (.inr ⟨_, List.mem_append_right _ (List.mem_singleton.2 rfl), rfl⟩)

theorem inv_deliverAnswer (hI : n.Inv) {i : ℕ} {m : InFlight} (hm : n.inFlight[i]? = some m)
    (hk : m.kind = .answer) {ice : IceLocal} {mungerOk : Bool}
    (hlast : m.sdp.originSessionId = (n.engine m.dst).localSessionId) :
    (n.deliver i ice mungerOk).Inv := by
  have hmem := List.mem_of_getElem? hm
  obtain ⟨s, hs, hpassive⟩ := hI.media m hmem
  have hanswer := hI.remoteIsAnswer_of_answer hmem hk hlast
  obtain ⟨e', heq, hstate, hlocal, hclient⟩ :=
    Engine.processRemoteSdp_answer (hI.isOpen m.dst) hanswer hs (hpassive hk) ice mungerOk
  obtain ⟨hserver, hoffers⟩ := hI.answers m hmem hk
  have hrest : ∀ m' ∈ n.inFlight.eraseIdx i, m' ∈ n.inFlight :=
    fun m' hm' => List.mem_of_mem_eraseIdx hm'
  unfold deliver
  simp only [hm, heq, reduceCtorEq, if_false, List.append_nil]
  refine inv_delivered hI hstate hlocal
    (fun m' hm' => ⟨hI.sessionId m' (hrest m' hm'), hI.media m' (hrest m' hm')⟩)
    (fun m' hm' hk' => ?_) (fun _ => hserver) (fun _ => .inl hclient)
  -- every other answer in flight goes where this one goes
  have hdst : m'.dst = m.dst := by
    rcases Side.eq_or_eq_peer m.dst m'.dst with hdst | hdst
    · exact hdst
    · exact absurd (hk'.symm.trans (hoffers m' (hrest m' hm') hdst)) nofun
  rw [hdst, Function.update_of_ne m.dst.peer_ne]
  exact ⟨hserver, fun m'' hm'' => hoffers m'' (hrest m'' hm'')⟩

theorem inv_step (hI : n.Inv) {ev : SignalingEvent} (hfresh : n.FreshId ev) (hok : n.Orderly ev) :
    (n.step ev).Inv := by
  cases ev with
  | createOffer x sessionId ice mungerOk => exact inv_createOffer hI x hfresh
  | lose i => exact inv_lose hI hok
  | deliver i ice mungerOk =>
    simp only [step]
    cases hm : n.inFlight[i]? with
    | none =>
      unfold deliver
      rw [hm]
      exact hI
    | some m =>
      have h := hok m hm
      cases hk : m.kind with
      | offer =>
        simp only [hk] at h
        exact inv_deliverOffer hI hm hk h.1 h.2
      | answer =>
        simp only [hk] at h
        exact inv_deliverAnswer hI hm hk h

/-- In an orderly run exactly one engine is the client whenever both have negotiated and nothing is
in flight, and an answer is complementary to its offer unless a section of it offers `passive`. -/
theorem roles_agree (cfg : Side → EngineConfig) (sender : Side → Option VideoSender)
    (fingerprint : Side → String) (evs : List SignalingEvent)
    (hfresh : machine.Meets FreshId (init cfg sender fingerprint) evs)
    (hok : machine.Meets Orderly (init cfg sender fingerprint) evs) :
    machine.Always Agrees (init cfg sender fingerprint) evs
      ∧ ∀ (e : Engine) (remote : SessionDescription) (ice : IceLocal) (mungerOk : Bool)
        (answer : SessionDescription),
        (e.processRemoteSdp (some remote) ice mungerOk).2 = .answer answer →
        (List.Forall₂ (fun m a : MediaDescription => ComplementarySetup m.dtlsSetup a.dtlsSetup)
            (remote.media.filter (·.recognised)) answer.media
          ↔ ∀ m ∈ remote.media, m.recognised = true → m.dtlsSetup ≠ "passive") := by
  refine ⟨?_, fun _ _ _ _ _ h => Engine.complementary_answer_iff h⟩
  have hstep : ∀ n ev, Inv n → FreshId n ev ∧ Orderly n ev → Inv (machine.step n ev).1 :=
    fun n ev hI h => inv_step hI h.1 h.2
  exact Machine.always_of_meets hstep (fun _ hI => hI.agrees) evs
    (inv_init cfg sender fingerprint) (hfresh.and hok)

/-- Two engines with the default configuration. -/
def plain : SignalingNet := init (fun _ => {}) (fun _ => none) (fun _ => "")

theorem roles_agree_plain :
    let evs : List SignalingEvent := [.createOffer .left "1" {} true, .deliver 0 {} true,
      .deliver 0 {} true]
    machine.Meets FreshId plain evs ∧ machine.Meets Orderly plain evs
      ∧ machine.Always Agrees plain evs := by
  intro evs
  have hfresh : machine.Meets FreshId plain evs := by
    refine ⟨⟨by decide, fun x => ?_⟩, trivial, trivial, trivial⟩
    cases x <;> exact List.not_mem_nil
  have hok : machine.Meets Orderly plain evs := by
    refine ⟨trivial, fun m hm => ?_, fun m hm => ?_, trivial⟩
    · cases hm
      refine ⟨fun m' hm' _ => ?_, nofun⟩
      rw [List.mem_singleton.1 hm']
    · cases hm
      rfl
  exact ⟨hfresh, hok, (roles_agree _ _ _ evs hfresh hok).1⟩

/-- Both sides offer at the same time, answer each other and become the client. -/
theorem glare_disagrees :
    let evs : List SignalingEvent := [.createOffer .left "1" {} true, .createOffer .right "2" {} true,
      .deliver 0 {} true, .deliver 0 {} true, .deliver 0 {} true, .deliver 0 {} true]
    machine.Meets FreshId plain evs ∧ ¬ machine.Always Agrees plain evs := by
  intro evs
  have hfresh : machine.Meets FreshId plain evs := by
    refine ⟨⟨by decide, fun x => ?_⟩, ⟨by decide, fun x => ?_⟩, trivial, trivial, trivial, trivial,
      trivial⟩ <;> cases x <;> decide
  refine ⟨hfresh, fun h => ?_⟩
  have hlast : (machine.exec plain evs).1.Agrees := h.2.2.2.2.2.2
  exact hlast (fun x => by cases x <;> decide) (by decide) (by decide)

end SignalingNet

end NimRtc
