import NimRtc.Proofs.SrtpKeys
import NimRtc.SrtpSessionRuns

/-!
# When SRTP fails

Without an installed session RTP is refused, and RTCP comes back as it was given. A lookup in a map of
sessions makes a null slot, which stays where the lookup finds no keys, and goes where libsrtp
refuses them.
-/

namespace NimRtc

/-! ### Sessions -/

namespace SrtpSession

theorem protectRtp_fromLibsrtp (s : SrtpSession) (libOut : Option (List UInt8)) :
    SrtpAnswer.FromLibsrtp ⟨s.session, libOut, s.protectRtp libOut⟩ := by
  intro out hout
  unfold protectRtp at hout
  dsimp only at hout ⊢
  split at hout
  · cases hout
  · cases hout
  · rename_i hsession
    cases hout
    exact ⟨by rw [hsession]; exact Option.some_ne_none _, rfl⟩

theorem unprotectRtp_fromLibsrtp (s : SrtpSession) (packet : List UInt8)
    (libOut : Option (List UInt8)) :
    SrtpAnswer.FromLibsrtp ⟨s.session, libOut, s.unprotectRtp packet libOut⟩ := by
  intro out hout
  unfold unprotectRtp at hout
  dsimp only at hout ⊢
  split at hout
  · cases hout
  · rename_i hsession
    split_ifs at hout
    split at hout
    · cases hout
    · cases hout
      exact ⟨by rw [hsession]; exact Option.some_ne_none _, rfl⟩

theorem protectRtcp_fromLibsrtp_iff (s : SrtpSession) (packet : List UInt8)
    (libOut : Option (List UInt8)) :
    SrtpAnswer.FromLibsrtp ⟨s.session, libOut, s.protectRtcp packet libOut⟩ ↔ s.session ≠ none := by
  constructor
  · intro h hnone
    have hplain : s.protectRtcp packet libOut = .ok packet := by
      unfold protectRtcp
      rw [hnone]
    exact (h packet hplain).1 hnone
  · intro hsession out hout
    refine ⟨hsession, ?_⟩
    unfold protectRtcp at hout
    dsimp only at hout ⊢
    split at hout
    · rename_i hnone
      exact absurd hnone hsession
    · cases hout
    · cases hout
      rfl

theorem fromLibsrtp_step_iff (s : SrtpSession) (call : SessionCall) :
    (∀ a ∈ (machine.step s call).2, a.FromLibsrtp) ↔ RtcpInstalled s call := by
  cases call with
  | initFromMasterKey => exact iff_of_true (fun _ h => absurd h List.not_mem_nil) trivial
  | initFromMasterKeyInbound => exact iff_of_true (fun _ h => absurd h List.not_mem_nil) trivial
  | initFromSessionKeys => exact iff_of_true (fun _ h => absurd h List.not_mem_nil) trivial
  | protectRtp libOut =>
    exact iff_of_true (List.forall_mem_singleton.2 (protectRtp_fromLibsrtp s libOut)) trivial
  | unprotectRtp packet libOut =>
    exact iff_of_true (List.forall_mem_singleton.2 (unprotectRtp_fromLibsrtp s packet libOut)) trivial
  | protectRtcp packet libOut =>
    exact List.forall_mem_singleton.trans (protectRtcp_fromLibsrtp_iff s packet libOut)
  | unprotectRtcp packet libOut =>
    exact List.forall_mem_singleton.trans (protectRtcp_fromLibsrtp_iff s packet libOut)

/-- The room is the packet and the tag of RTP. It is enough only when the configured suite is GCM
and the session was made with another. -/
theorem rtcpSpace_iff (s : SrtpSession) (lib : LibSrtp) (packet : List UInt8) :
    lib.rtcpSpaceNeeded packet ≤ s.rtcpSpace packet
      ↔ s.config.suite = .aes128Gcm_128 ∧ lib.suite ≠ .aes128Gcm_128 := by
  rw [LibSrtp.rtcpSpaceNeeded, rtcpSpace]
  cases lib.suite <;> cases s.config.suite <;>
    simp only [srtcpTagLen, authTagLenFor, kAuthTagLenSha1_80, kAuthTagLenSha1_32, reduceCtorEq,
      ne_eq, not_false_eq_true, not_true_eq_false, and_true, and_false, iff_true, iff_false] <;>
    omega

/-- In a run of calls every success is what libsrtp made of the packet exactly when every call for
an RTCP packet finds an installed session. On one, the room for the output is enough exactly when the
configured suite is GCM and the session's is not. -/
theorem fails_closed_iff (calls : List SessionCall) :
    ((∀ a ∈ (machine.exec {} calls).2, a.FromLibsrtp) ↔ machine.Meets RtcpInstalled {} calls)
      ∧ ∀ lib ∈ (machine.exec {} calls).1.session, ∀ packet : List UInt8,
        lib.rtcpSpaceNeeded packet ≤ (machine.exec {} calls).1.rtcpSpace packet
          ↔ (machine.exec {} calls).1.config.suite = .aes128Gcm_128
            ∧ lib.suite ≠ .aes128Gcm_128 :=
  ⟨Machine.reports_iff_meets (I := fun _ => True) (fun _ _ _ => trivial)
      (fun s call _ => fromLibsrtp_step_iff s call) calls trivial,
    fun lib _ packet => rtcpSpace_iff _ lib packet⟩

/-- A receiver report is handed back as it is by a new session, and with the default suite there
are 10 bytes for the 14 that are added to it. -/
theorem report_in_the_clear :
    let report : List UInt8 := [0x80, 201, 0, 1, 0, 0, 0, 1]
    let calls := [SessionCall.protectRtcp report none]
    let keyed := (machine.exec {} [.initFromMasterKey {} [1] [2] true]).1
    (¬ ∀ a ∈ (machine.exec {} calls).2, a.FromLibsrtp)
      ∧ ∃ lib ∈ keyed.session, ¬ lib.rtcpSpaceNeeded report ≤ keyed.rtcpSpace report := by
  refine ⟨fun hall => ?_, _, rfl, by decide⟩
  exact (hall _ List.mem_cons_self _ rfl).1 rfl

end SrtpSession

/-! ### Contexts -/

namespace SrtpContext

variable {c : SrtpContext} (statsOf : SrtpSession → SrtpStats)

theorem setSessions_self (c : SrtpContext) (outgoing : Bool) :
    c.setSessions outgoing (c.sessions outgoing) = c := by
  cases outgoing <;> rfl

theorem NoNull.lookup_eq_none (h : c.NoNull) {outgoing : Bool} {ssrc : UInt32}
    (hs : ∀ s, (c.sessions outgoing).lookup ssrc ≠ some (some s)) :
    (c.sessions outgoing).lookup ssrc = none := by
  cases hlookup : (c.sessions outgoing).lookup ssrc with
  | none => rfl
  | some slot =>
    cases slot with
    | none => exact absurd hlookup (h outgoing ssrc)
    | some s => exact absurd hlookup (hs s)

theorem erase_eq_self {map : AList fun _ : UInt32 => Option SrtpSession} {ssrc : UInt32}
    (h : map.lookup ssrc = none) : map.erase ssrc = map := by
  have hkeys : ssrc ∉ map.entries.keys := AList.lookup_eq_none.1 h
  exact AList.ext (List.kerase_of_notMem_keys hkeys)

theorem NoNull.insert_some (h : c.NoNull) (outgoing : Bool) (ssrc : UInt32) (s : SrtpSession) :
    (c.setSessions outgoing ((c.sessions outgoing).insert ssrc (some s))).NoNull := by
  intro d x hx
  rw [sessions_setSessions] at hx
  split_ifs at hx with hd
  · by_cases hxs : x = ssrc
    · rw [hxs, AList.lookup_insert] at hx
      cases hx
    · rw [AList.lookup_insert_ne hxs] at hx
      exact h outgoing x hx
  · exact h d x hx

/-- From maps without null sessions, `install` either has a session or keys, and keeps the maps so,
or it leaves a null slot behind. -/
theorem NoNull.install (h : c.NoNull) (ssrc : UInt32) (outgoing libOk : Bool) :
    let r := c.install ssrc outgoing libOk
    Keyed c (.getSession ssrc outgoing libOk) ∧ r.2.NoNull ∧ (r.1 = none → r.2 = c)
      ∨ ¬ Keyed c (.getSession ssrc outgoing libOk) ∧ ¬ r.2.NoNull := by
  intro r
  have hr : r = c.install ssrc outgoing libOk := rfl
  unfold SrtpContext.install at hr
  split at hr
  · rename_i s hs
    rw [hr]
    exact .inl ⟨.inl ⟨s, hs⟩, h, fun _ => rfl⟩
  · rename_i hs
    have hnone := h.lookup_eq_none hs
    dsimp only at hr
    by_cases hkeys : c.key outgoing = [] ∨ c.salt outgoing = []
    · rw [if_pos hkeys] at hr
      refine .inr ⟨?_, fun hnull => hnull outgoing ssrc ?_⟩
      · rintro (⟨s, hfound⟩ | ⟨hkey, hsalt⟩)
        · exact hs s hfound
        · exact hkeys.elim hkey hsalt
      · rw [hr, sessions_setSessions, if_pos rfl, AList.lookup_insert]
    · rw [if_neg hkeys] at hr
      refine .inl ⟨.inr (not_or.1 hkeys), ?_⟩
      cases libOk with
      | false =>
        simp only [SrtpSession.initFromMasterKeyDir, if_neg hkeys, Bool.false_eq_true, if_false,
          erase_eq_self hnone, setSessions_self] at hr
        rw [hr]
        exact ⟨h, fun _ => rfl⟩
      | true =>
        simp only [SrtpSession.initFromMasterKeyDir, if_neg hkeys, if_true] at hr
        rw [hr]
        exact ⟨h.insert_some _ _ _, fun hn => absurd hn (Option.some_ne_none _)⟩

theorem NoNull.removeSession (h : c.NoNull) (ssrc : UInt32) : (c.removeSession ssrc).NoNull := by
  intro d x hx
  have herase : ((c.sessions d).erase ssrc).lookup x = some none := by cases d <;> exact hx
  by_cases hxs : x = ssrc
  · rw [hxs, AList.lookup_erase] at herase
    cases herase
  · rw [AList.lookup_erase_ne hxs] at herase
    exact h d x herase

theorem noNull_step_iff (c : SrtpContext) (call : ContextCall) (h : c.NoNull) :
    ((machine statsOf).step c call).1.NoNull ↔ Keyed c call := by
  cases call with
  | deriveKeysForLocal key salt suite =>
    refine iff_of_true (fun d => ?_) trivial
    cases d
    · exact h false
    · exact h true
  | deriveKeysForRemote key salt suite =>
    refine iff_of_true (fun d => ?_) trivial
    cases d
    · exact h false
    · exact h true
  | getSession ssrc outgoing libOk =>
    rcases h.install ssrc outgoing libOk with ⟨hkeyed, hnull, -⟩ | ⟨hkeyed, hnull⟩
    · exact iff_of_true hnull hkeyed
    · exact iff_of_false hnull hkeyed
  | removeSession ssrc => exact iff_of_true (h.removeSession ssrc) trivial
  | totalStats => exact iff_of_true h trivial

theorem accumulate_ne_none {map : AList fun _ : UInt32 => Option SrtpSession}
    (h : ∀ ssrc, map.lookup ssrc ≠ some none) (total : SrtpStats) :
    ∃ sum, accumulate statsOf total map = some sum := by
  have hentries : ∀ slot ∈ map.entries, slot.2 ≠ none := by
    rintro ⟨ssrc, slot⟩ hmem rfl
    exact h ssrc (AList.mem_lookup_iff.2 hmem)
  unfold accumulate
  generalize map.entries = entries at hentries
  induction entries generalizing total with
  | nil => exact ⟨total, rfl⟩
  | cons slot rest ih =>
    obtain ⟨s, hs⟩ := Option.ne_none_iff_exists'.1 (hentries slot List.mem_cons_self)
    rw [List.foldlM_cons, hs]
    exact ih (total.add (statsOf s)) fun slot' hmem => hentries slot' (List.mem_cons_of_mem _ hmem)

theorem NoNull.totalStats (h : c.NoNull) : c.totalStats statsOf ≠ none := by
  obtain ⟨sum, hsum⟩ := accumulate_ne_none statsOf (h true) {}
  obtain ⟨total, htotal⟩ := accumulate_ne_none statsOf (h false) sum
  have hstats : c.totalStats statsOf = some total := by
    rw [SrtpContext.totalStats]
    exact (congrArg (· >>= _) hsum).trans htotal
  rw [hstats]
  exact Option.some_ne_none _

theorem sound_step (c : SrtpContext) (call : ContextCall) (h : c.NoNull) (hok : Keyed c call) :
    ∀ a ∈ ((machine statsOf).step c call).2, Sound a := by
  cases call with
  | deriveKeysForLocal => exact fun _ ha => absurd ha List.not_mem_nil
  | deriveKeysForRemote => exact fun _ ha => absurd ha List.not_mem_nil
  | getSession ssrc outgoing libOk =>
    refine List.forall_mem_singleton.2 fun hnone => ?_
    rcases h.install ssrc outgoing libOk with ⟨-, -, hsame⟩ | ⟨hkeyed, -⟩
    · exact congrArg sessions (hsame hnone)
    · exact absurd hok hkeyed
  | removeSession => exact fun _ ha => absurd ha List.not_mem_nil
  | totalStats => exact List.forall_mem_singleton.2 (h.totalStats statsOf)

/-- The maps hold no null session at any point of a run, a `get_session` that returns null changes
nothing and `total_stats` is safe, exactly when every `get_session` finds a session or keys. -/
theorem no_null_sessions_iff (calls : List ContextCall) :
    ((machine statsOf).Always NoNull {} calls ∧ ∀ a ∈ ((machine statsOf).exec {} calls).2, Sound a)
      ↔ (machine statsOf).Meets Keyed {} calls := by
  have hinit : NoNull {} := by
    intro d x hx
    cases d <;> cases hx
  exact Machine.always_and_reports_iff_meets (I := fun _ => True) (fun _ _ _ => trivial)
    (fun c call _ h => noNull_step_iff statsOf c call h)
    (fun c call _ h hok => sound_step statsOf c call h hok) calls trivial hinit

/-- A packet that comes before there are keys leaves a null session, which the statistics find. -/
theorem packet_before_keys :
    let calls := [ContextCall.getSession 1 false true, .totalStats]
    (¬ ((machine fun _ => {}).exec {} calls).1.NoNull)
      ∧ ¬ ∀ a ∈ ((machine fun _ => {}).exec {} calls).2, Sound a := by
  refine ⟨fun h => h false 1 rfl, fun hall => ?_⟩
  exact hall (.stats none) (List.mem_cons_of_mem _ List.mem_cons_self) rfl

end SrtpContext

end NimRtc
