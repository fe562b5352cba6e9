import NimRtc.Proofs.DtlsStep
import NimRtc.Proofs.EngineStep

/-!
# The DTLS role is one in the three places it is kept

The context is created with the method of the session's role at `open`, `set_role` writes the role
of the session alone and only before the handshake, and the engine's flag follows every
description. The three agree, and the handshake calls and the installed keys with them, as long as
every role that is taken is the role of the context and every role that is refused is the
session's.
-/

namespace NimRtc

def DtlsReport.Coherent : DtlsReport → Prop
  | .handshakeCall role ctx => ctx = some role
  | .opened ok ssl => ok → ssl
  | .completed _ => True

namespace DtlsSession

/-- An SSL object comes with a context of the session's role, and a connected session completed
its last handshake in that role. -/
structure RoleInv (s : DtlsSession) (last : Option Handshake) : Prop where
  ctx : s.ssl = true → s.ctx = some s.role
  opened : s.ssl = true → s.openCalled = true
  connected : s.state = .connected → ∃ h ∈ last, h.role = s.role

/-- The call keeps the role of a context there is, and does not open a session again that has no
SSL object. -/
def KeepsRole (s : DtlsSession) : DtlsCall → Prop
  | .setRole role => Engine.TakesRole s → s.ssl → s.ctx = some role
  | .open _ => s.openCalled → s.ssl
  | _ => True

variable {s : DtlsSession} {last : Option Handshake}

/-- What a call does to a session with a coherent role. -/
def RoleStep (last : Option Handshake) (r : DtlsSession × List DtlsReport) : Prop :=
  r.1.RoleInv (lastCompleted last r.2) ∧ ∀ o ∈ r.2, o.Coherent

/-- A session with no SSL object that is not connected has no role to keep. -/
theorem RoleInv.of_down (hssl : s.ssl = false) (hstate : s.state ≠ .connected) : s.RoleInv last where
  ctx h := by simp [hssl] at h
  opened h := by simp [hssl] at h
  connected h := absurd h hstate

theorem roleStep_silent (h : s.RoleInv last) : RoleStep last (s, []) := ⟨h, by simp⟩

theorem RoleInv.of_sameSetup {s' : DtlsSession} (h : s.RoleInv last) (hs : SameSetup s s')
    {last' : Option Handshake}
    (hconn : s'.state = .connected → ∃ x ∈ last', x.role = s.role) : s'.RoleInv last' where
  ctx hssl := by
    rw [hs.ctx, hs.role]
    exact h.ctx (hs.ssl ▸ hssl)
  opened hssl := by
    rw [hs.openCalled]
    exact h.opened (hs.ssl ▸ hssl)
  connected hc := by
    rw [hs.role]
    exact hconn hc

theorem roleStep_pump (h : s.RoleInv last) (w : WolfPump) : RoleStep last (s.pumpHandshake w) := by
  by_cases hcomp : s.Completes w
  · obtain ⟨peer, exported, beyond, -, -, hreports, hsame, -, -⟩ := pumpHandshake_of_completes hcomp
    unfold RoleStep
    rw [hreports]
    refine ⟨h.of_sameSetup hsame fun _ => ⟨⟨s.role, peer, exported⟩, rfl, rfl⟩, ?_⟩
    simpa [DtlsReport.Coherent] using h.ctx hcomp.1
  · obtain ⟨hsame, -, hconn, -, hreports⟩ := pumpHandshake_of_not_completes hcomp
    unfold RoleStep
    rcases hreports with hreports | ⟨hssl, hreports⟩ <;> rw [hreports]
    · exact ⟨h.of_sameSetup hsame fun hc => h.connected (hconn.1 hc), by simp⟩
    · refine ⟨h.of_sameSetup hsame fun hc => h.connected (hconn.1 hc), ?_⟩
      simpa [DtlsReport.Coherent] using h.ctx hssl

theorem roleStep_open (h : s.RoleInv last) (setup : WolfSetup) (hok : s.KeepsRole (.open setup)) :
    RoleStep last (s.call (.open setup)) := by
  simp only [call]
  by_cases hopen : s.openCalled = true
  · have heq : s.open setup = (true, s) := by
      unfold DtlsSession.open
      rw [if_pos hopen]
    rw [heq]
    exact ⟨h, by simpa [DtlsReport.Coherent] using hok hopen⟩
  · -- there is no SSL object before the first `open`
    have hssl : s.ssl = false := by
      rcases hs : s.ssl with _ | _
      · rfl
      · exact absurd (h.opened hs) hopen
    rcases s.open_cases setup with ⟨hcalled, -⟩ | ⟨ctx, heq, -⟩ | heq
    · exact absurd hcalled hopen
    · rw [heq]
      refine ⟨⟨fun hs => ?_, fun _ => rfl, h.connected⟩, by simp [DtlsReport.Coherent]⟩
      exact absurd (hssl.symm.trans hs) (by simp)
    · rw [heq]
      exact ⟨⟨fun _ => rfl, fun _ => rfl, h.connected⟩, by simp [DtlsReport.Coherent]⟩

/-- A session that starts its handshake anew has a context of its role. -/
theorem RoleInv.of_anew (h : s.RoleInv last) (hre : s.Rehandshakes) {s' : DtlsSession}
    (hanew : Anew s s') : s'.RoleInv last where
  ctx _ := by
    rw [hanew.role]
    rcases hanew.ctx with ⟨hctx, -⟩ | ⟨hctx, -⟩
    · rw [hctx]
      exact h.ctx hre.1
    · exact hctx
  opened _ := by
    rcases hanew.ctx with ⟨-, hopened⟩ | ⟨-, hopened⟩
    · rw [hopened]
      exact h.opened hre.1
    · exact hopened
  connected hc := absurd hc hanew.not_connected

theorem roleStep_transport (h : s.RoleInv last) {c : DtlsCall} (hc : c.ofTransport) :
    RoleStep last (s.call c) ∧ (s.call c).1.role = s.role := by
  have hpump : ∀ (s₀ : DtlsSession) (w : WolfPump) (outbound : List (List UInt8)),
      s₀.RoleInv last → s₀.role = s.role →
      RoleStep last ({ (s₀.pumpHandshake w).1 with outbound }, (s₀.pumpHandshake w).2)
        ∧ (s₀.pumpHandshake w).1.role = s.role := by
    intro s₀ w outbound h₀ hrole
    obtain ⟨hinv, hgood⟩ := roleStep_pump h₀ w
    exact ⟨⟨⟨hinv.ctx, hinv.opened, hinv.connected⟩, hgood⟩,
      (sameSetup_pumpHandshake s₀ w).role.trans hrole⟩
  rcases s.call_cases hc with ⟨sendBuf, outbound, heq⟩ | ⟨torn, heq, hrest, hssl, hfailed⟩
    | ⟨s₀, w, outbound, heq, ⟨out, rfl⟩ | ⟨hre, hanew⟩⟩ <;> rw [heq]
  · exact ⟨roleStep_silent ⟨h.ctx, h.opened, h.connected⟩, rfl⟩
  · refine ⟨roleStep_silent ⟨fun hs => ?_, fun hs => ?_, fun hc => ?_⟩, hrest.role⟩
    · exact absurd (hssl.symm.trans hs) (by simp)
    · exact absurd (hssl.symm.trans hs) (by simp)
    · exact absurd (hfailed.symm.trans hc) (by simp)
  · exact hpump { s with outbound := out } w outbound ⟨h.ctx, h.opened, h.connected⟩ rfl
  · exact hpump s₀ w outbound (h.of_anew hre hanew) hanew.role

theorem role_setRole (s : DtlsSession) (role : DtlsRole) :
    s.setRole role = if Engine.TakesRole s then { s with role } else s := by
  unfold setRole
  by_cases h : Engine.TakesRole s
  · rw [if_pos h, if_neg]
    rintro ⟨hc, hi⟩
    exact h.elim hc hi
  · rw [if_neg h, if_pos (not_or.1 h)]

theorem role_setPeerFingerprint (s : DtlsSession) (algo : String) (value : List UInt8) :
    (s.setPeerFingerprint algo value).role = s.role := by
  unfold setPeerFingerprint
  split_ifs <;> rfl

theorem role_open (s : DtlsSession) (setup : WolfSetup) : (s.open setup).2.role = s.role := by
  rcases s.open_cases setup with ⟨-, heq⟩ | ⟨ctx, heq, -⟩ | heq <;> rw [heq]

theorem roleStep_call (h : s.RoleInv last) (c : DtlsCall) (hok : s.KeepsRole c) :
    RoleStep last (s.call c) := by
  cases c with
  | «open» setup => exact roleStep_open h setup hok
  | close => exact roleStep_silent (.of_down rfl (by simp [close, teardown]))
  | setPeerFingerprint algo value =>
    simp only [call, setPeerFingerprint]
    split_ifs <;> exact roleStep_silent ⟨h.ctx, h.opened, h.connected⟩
  | setRole role =>
    simp only [call, role_setRole]
    split_ifs with htakes
    · refine roleStep_silent ⟨hok htakes, h.opened, fun hc => ?_⟩
      rcases htakes with hs | hs <;> exact absurd (hs.symm.trans hc) (by simp)
    · exact roleStep_silent h
  | _ =>
    refine (roleStep_transport h ?_).1
    trivial

end DtlsSession

namespace Engine

/-- The session's role is coherent and is the engine's. -/
structure RoleInv (e : Engine) : Prop where
  session : e.dtls.RoleInv e.history.lastHandshake
  flag : e.dtls.role = .client ↔ e.dtlsIsClient = true
  constructed : e.state = .constructed → e.dtlsIsClient = false

variable {e : Engine}

theorem roleInv_fresh (cfg : EngineConfig) (sender : Option VideoSender) (fingerprint : String) :
    (fresh cfg sender fingerprint).RoleInv :=
  ⟨.of_down rfl (by simp [fresh]), by simp [fresh], fun _ => rfl⟩

theorem RoleInv.of_mediaOp {r : Engine × List EngineReport} (hI : e.RoleInv) (h : MediaOp e r) :
    r.1.RoleInv where
  session := by
    rw [h.dtls, h.history]
    exact hI.session
  flag := by
    rw [h.dtls, h.dtlsIsClient]
    exact hI.flag
  constructed hs := by
    rw [h.dtlsIsClient]
    exact hI.constructed (h.state ▸ hs)

/-- A call on the DTLS session that is coherent there is for the engine. -/
theorem roleStep_onDtls (hI : e.RoleInv) {r : DtlsSession × List DtlsReport}
    (h : DtlsSession.RoleStep e.history.lastHandshake r)
    (hflag : r.1.role = .client ↔ e.dtlsIsClient = true) :
    Preserves RoleInv EngineReport.RoleCoherent (e.onDtls r) := by
  refine ⟨⟨h.1, hflag, hI.constructed⟩, fun o ho => ?_⟩
  obtain ⟨d, hd, rfl⟩ := List.mem_map.1 ho
  have := h.2 d hd
  cases d with
  | handshakeCall role ctx => exact this
  | completed x => trivial
  | opened ok ssl => exact this

theorem keeps_roleInv : Keeps RoleInv EngineReport.RoleCoherent where
  media _ _ hop hI := hI.of_mediaOp hop
  ofMedia o ho := by
    cases o with
    | emitted m => trivial
    | handed h => trivial
    | _ => exact ho.elim
  call e c hc hI := by
    obtain ⟨hstep, hrole⟩ := DtlsSession.roleStep_transport hI.session hc
    exact roleStep_onDtls hI hstep (hrole ▸ hI.flag)
  install e _ hI := by
    rcases e.maybeInstallSrtpKeys_cases with h | ⟨hconn, km, -, h⟩ <;> rw [h]
    · exact .refl hI
    · refine ⟨⟨hI.session, hI.flag, hI.constructed⟩, ?_⟩
      obtain ⟨x, hx, hrole⟩ := hI.session.connected hconn
      intro o ho
      obtain rfl := List.mem_singleton.1 ho
      refine ⟨x, hx, ?_⟩
      rw [hrole]
      exact hI.flag
  ice _ _ _ _ _ hI := ⟨hI.session, hI.flag, hI.constructed⟩
  record _ := trivial

theorem roleInv_applyDtlsSection (hI : e.RoleInv) (hopen : e.isOpen = true) (isAnswer : Bool)
    (m : MediaDescription)
    (hrole : if TakesRole e.dtls then
        e.dtls.ssl → e.dtls.ctx = some (resolveRole isAnswer
          (if m.dtlsSetup = "" then "actpass" else m.dtlsSetup)).1
      else e.dtls.role = (resolveRole isAnswer
        (if m.dtlsSetup = "" then "actpass" else m.dtlsSetup)).1) :
    (e.applyDtlsSection isAnswer m).RoleInv := by
  unfold applyDtlsSection
  generalize resolveRole isAnswer (if m.dtlsSetup = "" then "actpass" else m.dtlsSetup) = resolved
    at hrole
  obtain ⟨role, setup⟩ := resolved
  -- whether it is taken or refused, the role is the session's afterwards
  have hset : (e.dtls.setRole role).RoleInv e.history.lastHandshake
      ∧ (e.dtls.setRole role).role = role := by
    by_cases htakes : TakesRole e.dtls
    · rw [if_pos htakes] at hrole
      refine ⟨(DtlsSession.roleStep_call hI.session (.setRole role) fun _ => hrole).1, ?_⟩
      rw [DtlsSession.role_setRole, if_pos htakes]
    · rw [if_neg htakes] at hrole
      rw [DtlsSession.role_setRole, if_neg htakes]
      exact ⟨hI.session, hrole⟩
  have hpin := DtlsSession.roleStep_call hset.1
    (.setPeerFingerprint m.dtlsFingerprintAlgo (Fingerprint.decode m.dtlsFingerprintValue)) trivial
  have hclosed : e.state ≠ .constructed := by
    rw [isOpen, decide_eq_true_eq] at hopen
    simp [hopen]
  refine ⟨?_, ?_, fun hs => absurd hs hclosed⟩
  · show (if _ then _ else _ : DtlsSession).RoleInv e.history.lastHandshake
    split_ifs
    · exact hpin.1
    · exact hset.1
  · show (if _ then _ else _ : DtlsSession).role = .client ↔ decide (role = .client) = true
    rw [decide_eq_true_eq]
    split_ifs
    · rw [DtlsSession.role_setPeerFingerprint, hset.2]
    · rw [hset.2]

theorem RoleInv.of_sameSection {e' : Engine} (hI : e.RoleInv) (hsec : SameSection e e')
    (hstate : e'.state = e.state) : e'.RoleInv where
  session := by
    rw [hsec.dtls, hsec.history]
    exact hI.session
  flag := by
    rw [hsec.dtls, hsec.dtlsIsClient]
    exact hI.flag
  constructed hs := by
    rw [hsec.dtlsIsClient]
    exact hI.constructed (hstate ▸ hs)

theorem roles_step (hI : e.RoleInv) (ev : EngineEvent) (hok : e.KeepsRoles ev) :
    Preserves RoleInv EngineReport.RoleCoherent (e.step ev) := by
  cases ev with
  | «open» setup iceOk =>
    simp only [step]
    rcases e.open_cases setup iceOk with h | ⟨hstate, state, modules, h | h⟩ <;> rw [h]
    · exact .refl hI
    · exact .refl ⟨hI.session, hI.flag, fun _ => hI.constructed hstate⟩
    · have hempty : ({} : DtlsSession).RoleInv e.history.lastHandshake :=
        .of_down rfl (by simp)
      have hnew := DtlsSession.roleStep_call hempty (.open setup) (by simp [DtlsSession.KeepsRole])
      refine ⟨⟨hnew.1, ?_, fun _ => hI.constructed hstate⟩, ?_⟩
      · rw [DtlsSession.role_open, show e.dtlsIsClient = false from hI.constructed hstate]
        simp
      · intro o ho
        obtain rfl := List.mem_singleton.1 ho
        exact hnew.2 _ (List.mem_singleton.2 rfl)
  | createOffer sessionId ice mungerOk =>
    obtain ⟨h, hsec⟩ := e.signalled_createOffer sessionId ice mungerOk
    exact .refl (hI.of_sameSection hsec h.state)
  | processRemoteSdp parsed ice mungerOk =>
    rcases e.signalled_processRemoteSdp parsed ice mungerOk with
      ⟨h, hsec | ⟨hopen, remote, m, rfl, hm, hsec⟩⟩
    · exact .refl (hI.of_sameSection hsec h.state)
    · refine .refl ((roleInv_applyDtlsSection hI hopen _ m ?_).of_sameSection hsec h.state)
      refine hok hopen _ ?_
      simp [resolvedRole, hm]
  | dtls c =>
    simp only [step]
    cases c with
    | «open» setup =>
      refine roleStep_onDtls hI (DtlsSession.roleStep_call hI.session _ hok) ?_
      exact (DtlsSession.role_open e.dtls setup).symm ▸ hI.flag
    | close =>
      exact roleStep_onDtls hI (DtlsSession.roleStep_call hI.session _ trivial) hI.flag
    | setPeerFingerprint algo value =>
      refine roleStep_onDtls hI (DtlsSession.roleStep_call hI.session _ trivial) ?_
      exact (DtlsSession.role_setPeerFingerprint e.dtls algo value).symm ▸ hI.flag
    | setRole role =>
      refine roleStep_onDtls hI (DtlsSession.roleStep_call hI.session _ fun ht => (hok ht).1) ?_
      simp only [DtlsSession.call, DtlsSession.role_setRole]
      split_ifs with htakes
      · exact (hok htakes).2
      · exact hI.flag
    | _ =>
      refine keeps_roleInv.call e _ ?_ hI
      trivial
  | _ =>
    refine keeps_roleInv.step hI ?_
    trivial

/-- In a run that keeps the roles every handshake call is on a context of its own method, keys are
installed by the role of the handshake they come from, and `open` succeeds only with an SSL
object. -/
theorem roles_coherent (cfg : EngineConfig) (sender : Option VideoSender) (fingerprint : String)
    (evs : List EngineEvent)
    (h : machine.Meets KeepsRoles (fresh cfg sender fingerprint) evs) :
    ∀ o ∈ (machine.exec (fresh cfg sender fingerprint) evs).2, o.RoleCoherent := by
  have hstep : ∀ e ev, RoleInv e → KeepsRoles e ev →
      RoleInv (machine.step e ev).1 ∧ ∀ o ∈ (machine.step e ev).2, o.RoleCoherent :=
    fun e ev hI hok => roles_step hI ev hok
  exact (Machine.exec_inv hstep evs (roleInv_fresh cfg sender fingerprint) h).2

/-- A description of one audio section that sets up DTLS as `setup`. -/
def audioOnly (setup : String) : SessionDescription :=
  { originSessionId := "7", media := [{ dtlsSetup := setup }] }

/-- An engine that answers an offer is the server its context was made for. -/
theorem roles_coherent_answerer :
    let evs : List EngineEvent := [.open {} true,
      .processRemoteSdp (some (audioOnly "actpass")) {} true,
      .recv { bytes := [22, 0xFE, 0xFD], pump := ⟨.success none (some ⟨List.replicate 16 1,
        List.replicate 16 2, List.replicate 14 3, List.replicate 14 4⟩) [], []⟩ }]
    machine.Meets KeepsRoles (fresh {} none "") evs
      ∧ ∀ o ∈ (machine.exec (fresh {} none "") evs).2, o.RoleCoherent := by
  intro evs
  have h : machine.Meets KeepsRoles (fresh {} none "") evs := by
    refine ⟨trivial, fun _ role hrole => ?_, trivial, trivial⟩
    obtain rfl : DtlsRole.server = role := Option.some.inj hrole
    decide
  exact ⟨h, roles_coherent {} none "" evs h⟩

/-- An engine whose offer is answered as passive connects on the context of a server. -/
theorem connects_on_server_context : ¬ ∀ o ∈ (machine.exec (fresh {} none "")
    [.open {} true, .createOffer "7" {} true,
      .processRemoteSdp (some (audioOnly "passive")) {} true, .drainDtls {}]).2,
    o.RoleCoherent := by
  intro h
  have hcall := h (.dtls (.handshakeCall .client (some .server))) (by decide)
  cases hcall

end Engine

end NimRtc
