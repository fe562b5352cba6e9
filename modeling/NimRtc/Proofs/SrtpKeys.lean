import NimRtc.SrtpRuns

/-!
# Which keys a session handed out has

`derive_keys_for_local` and `derive_keys_for_remote` overwrite the keys new sessions are made
with and leave the sessions there are as they were, and the suite is one for both directions. A
session handed out has the keys derived last when every derivation finds no session of its
direction keyed otherwise and the suites of the two directions agree.
-/

namespace NimRtc

namespace SrtpContext

@[simp] theorem sessions_setSessions (c : SrtpContext) (outgoing : Bool)
    (m : AList (fun _ : UInt32 => Option SrtpSession)) (d : Bool) :
    (c.setSessions outgoing m).sessions d = if d = outgoing then m else c.sessions d := by
  cases outgoing <;> cases d <;> rfl

@[simp] theorem key_setSessions (c : SrtpContext) (outgoing : Bool)
    (m : AList (fun _ : UInt32 => Option SrtpSession)) (d : Bool) :
    (c.setSessions outgoing m).key d = c.key d := by
  cases outgoing <;> rfl

@[simp] theorem salt_setSessions (c : SrtpContext) (outgoing : Bool)
    (m : AList (fun _ : UInt32 => Option SrtpSession)) (d : Bool) :
    (c.setSessions outgoing m).salt d = c.salt d := by
  cases outgoing <;> rfl

@[simp] theorem defaultSuite_setSessions (c : SrtpContext) (outgoing : Bool)
    (m : AList (fun _ : UInt32 => Option SrtpSession)) :
    (c.setSessions outgoing m).defaultSuite = c.defaultSuite := by
  cases outgoing <;> rfl

/-- `install` hands out the session it has, or none, or a new one with the keys it has. -/
theorem install_cases (c : SrtpContext) (ssrc : UInt32) (outgoing libOk : Bool) :
    (∃ s, (c.sessions outgoing).lookup ssrc = some (some s)
        ∧ c.install ssrc outgoing libOk = (some s, c))
      ∨ (∃ m, (∀ x s, m.lookup x = some (some s) → (c.sessions outgoing).lookup x = some (some s))
        ∧ c.install ssrc outgoing libOk = (none, c.setSessions outgoing m))
      ∨ ∃ s, c.key outgoing ≠ []
        ∧ s.KeyedWith ⟨c.key outgoing, c.salt outgoing, c.defaultSuite⟩
        ∧ c.install ssrc outgoing libOk
          = (some s, c.setSessions outgoing ((c.sessions outgoing).insert ssrc (some s))) := by
  unfold install
  split
  · rename_i s hs
    exact .inl ⟨s, hs, rfl⟩
  · refine .inr ?_
    by_cases hkey : c.key outgoing = [] ∨ c.salt outgoing = []
    · rw [if_pos hkey]
      refine .inl ⟨_, fun x s hx => ?_, rfl⟩
      by_cases hxs : x = ssrc
      · subst hxs
        simp at hx
      · rwa [AList.lookup_insert_ne hxs] at hx
    · rw [if_neg hkey]
      cases libOk with
      | false =>
        refine .inl ⟨(c.sessions outgoing).erase ssrc, fun x s hx => ?_, ?_⟩
        · by_cases hxs : x = ssrc
          · subst hxs
            simp at hx
          · rwa [AList.lookup_erase_ne hxs] at hx
        · simp [SrtpSession.initFromMasterKeyDir, hkey]
      | true =>
        refine .inr ⟨_, fun h => hkey (.inl h), ?_, by
          simp only [SrtpSession.initFromMasterKeyDir, if_neg hkey, if_true]; rfl⟩
        exact ⟨rfl, _, rfl, rfl, rfl, rfl⟩

end SrtpContext

namespace SrtpRun

/-- The sessions there are have the keys derived last, and the next will have them too. -/
structure Inv (r : SrtpRun) : Prop where
  keyed : ∀ d ssrc s, (r.ctx.sessions d).lookup ssrc = some (some s) →
    ∃ k ∈ r.latest d, s.KeyedWith k
  current : ∀ d k, r.latest d = some k →
    r.ctx.key d = k.key ∧ r.ctx.salt d = k.salt ∧ r.ctx.defaultSuite = k.suite
  unkeyed : ∀ d, r.latest d = none → r.ctx.key d = []

theorem inv_init : ({} : SrtpRun).Inv where
  keyed d ssrc s h := by cases d <;> cases h
  current d k h := by cases d <;> cases h
  unkeyed d _ := by cases d <;> rfl

variable {r : SrtpRun}

theorem inv_getSession (hI : r.Inv) (ssrc : UInt32) (outgoing libOk : Bool) :
    (r.step (.getSession ssrc outgoing libOk)).1.Inv
      ∧ ∀ h ∈ (r.step (.getSession ssrc outgoing libOk)).2, FollowsKeys h := by
  simp only [step, SrtpContext.getSession]
  rcases r.ctx.install_cases ssrc outgoing libOk with ⟨s, hs, h⟩ | ⟨m, hm, h⟩ | ⟨s, hkey, hs, h⟩
  · rw [h]
    exact ⟨hI, by simpa [FollowsKeys] using hI.keyed outgoing ssrc s hs⟩
  · rw [h]
    refine ⟨⟨fun d x s hx => ?_, fun d k hk => ?_, fun d hd => ?_⟩, by simp⟩
    · simp only [SrtpContext.sessions_setSessions] at hx
      split_ifs at hx with hd
      · subst hd
        exact hI.keyed d x s (hm x s hx)
      · exact hI.keyed d x s hx
    · simpa using hI.current d k hk
    · simpa using hI.unkeyed d hd
  · -- the new session has the context's keys, which are those derived last
    have hlatest : ∃ k ∈ r.latest outgoing, s.KeyedWith k := by
      cases hk : r.latest outgoing with
      | none => exact absurd (hI.unkeyed outgoing hk) hkey
      | some k =>
        obtain ⟨h₁, h₂, h₃⟩ := hI.current outgoing k hk
        rw [h₁, h₂, h₃] at hs
        exact ⟨k, rfl, hs⟩
    rw [h]
    refine ⟨⟨fun d x s' hx => ?_, fun d k hk => ?_, fun d hd => ?_⟩,
      by simpa [FollowsKeys] using hlatest⟩
    · simp only [SrtpContext.sessions_setSessions] at hx
      split_ifs at hx with hd
      · subst hd
        by_cases hxs : x = ssrc
        · subst hxs
          rw [AList.lookup_insert, Option.some.injEq, Option.some.injEq] at hx
          exact hx ▸ hlatest
        · rw [AList.lookup_insert_ne hxs] at hx
          exact hI.keyed d x s' hx
      · exact hI.keyed d x s' hx
    · simpa using hI.current d k hk
    · simpa using hI.unkeyed d hd

theorem inv_derive (hI : r.Inv) {k : Keying} :
    (r.Rekeys true k → (r.step (.deriveKeysForLocal k)).1.Inv)
      ∧ (r.Rekeys false k → (r.step (.deriveKeysForRemote k)).1.Inv) := by
  refine ⟨fun ⟨hsess, hsuite⟩ => ⟨?_, ?_, ?_⟩, fun ⟨hsess, hsuite⟩ => ⟨?_, ?_, ?_⟩⟩
  · intro d ssrc s hs
    cases d with
    | true => exact ⟨k, rfl, hsess ssrc s hs⟩
    | false => exact hI.keyed false ssrc s hs
  · intro d k' hk'
    cases d with
    | true =>
      cases hk'
      exact ⟨rfl, rfl, rfl⟩
    | false =>
      obtain ⟨h₁, h₂, -⟩ := hI.current false k' hk'
      exact ⟨h₁, h₂, (hsuite k' hk').symm⟩
  · intro d hd
    cases d with
    | true => cases hd
    | false => exact hI.unkeyed false hd
  · intro d ssrc s hs
    cases d with
    | true => exact hI.keyed true ssrc s hs
    | false => exact ⟨k, rfl, hsess ssrc s hs⟩
  · intro d k' hk'
    cases d with
    | true =>
      obtain ⟨h₁, h₂, -⟩ := hI.current true k' hk'
      exact ⟨h₁, h₂, (hsuite k' hk').symm⟩
    | false =>
      cases hk'
      exact ⟨rfl, rfl, rfl⟩
  · intro d hd
    cases d with
    | true => exact hI.unkeyed true hd
    | false => cases hd

theorem inv_removeSession (hI : r.Inv) (ssrc : UInt32) :
    (r.step (.removeSession ssrc)).1.Inv := by
  refine ⟨fun d x s hx => ?_, fun d k hk => ?_, fun d hd => ?_⟩
  · refine hI.keyed d x s ?_
    by_cases hxs : x = ssrc
    · subst hxs
      cases d <;> simp [step, SrtpContext.removeSession, SrtpContext.sessions] at hx
    · cases d <;>
        simpa [step, SrtpContext.removeSession, SrtpContext.sessions,
          AList.lookup_erase_ne hxs] using hx
  · cases d <;> exact hI.current _ k hk
  · cases d <;> exact hI.unkeyed _ hd

/-- In every run whose derivations find no session of their direction keyed otherwise and keep
one suite, every session handed out has the keys derived last for its direction. -/
theorem sessions_follow_keys (calls : List SrtpCall)
    (h : machine.Meets DeriveRekeys {} calls) :
    ∀ o ∈ (machine.exec {} calls).2, FollowsKeys o := by
  refine (Machine.exec_inv (I := Inv) ?_ calls inv_init h).2
  intro r c hI hok
  cases c with
  | deriveKeysForLocal k => exact ⟨(inv_derive hI).1 hok, by simp [machine, step]⟩
  | deriveKeysForRemote k => exact ⟨(inv_derive hI).2 hok, by simp [machine, step]⟩
  | getSession ssrc outgoing libOk => exact inv_getSession hI ssrc outgoing libOk
  | removeSession ssrc => exact ⟨inv_removeSession hI ssrc, by simp [machine, step]⟩

def firstKeying : Keying := ⟨[1], [2], .aes128CmSha1_80⟩

def secondKeying : Keying := ⟨[3], [4], .aes128CmSha1_80⟩

/-- Keys of both directions, a session, its removal, and then new keys of its direction. -/
def removedRekey : List SrtpCall :=
  [.deriveKeysForRemote firstKeying, .deriveKeysForLocal firstKeying, .getSession 7 true true,
    .removeSession 7, .deriveKeysForLocal secondKeying, .getSession 7 true true]

theorem sessions_follow_keys_removedRekey :
    ((machine.exec {} removedRekey).2.map fun o => o.latest) = [some firstKeying, some secondKeying]
      ∧ ∀ o ∈ (machine.exec {} removedRekey).2, FollowsKeys o := by
  refine ⟨rfl, sessions_follow_keys removedRekey ?_⟩
  refine ⟨⟨?_, ?_⟩, ⟨?_, ?_⟩, trivial, trivial, ⟨?_, ?_⟩, trivial, trivial⟩
  · intro ssrc s h
    cases h
  · intro k h
    cases h
  · intro ssrc s h
    cases h
  · intro k h
    cases h
    rfl
  · -- the session was removed, so there is none left with the old keys
    intro ssrc s h
    cases h
  · intro k h
    cases h
    rfl

/-- New keys for a direction that has a session: the session is handed out with the old keys. -/
theorem session_keeps_old_keys :
    ¬ ∀ calls : List SrtpCall, ∀ o ∈ (machine.exec {} calls).2, FollowsKeys o := by
  intro h
  have hall := h [.deriveKeysForLocal firstKeying, .getSession 7 true true,
    .deriveKeysForLocal secondKeying, .getSession 7 true true]
  obtain ⟨k, hk, -, l, hl, hkey, -⟩ := hall ⟨_, some secondKeying⟩ (.tail _ (.head _))
  cases hk
  cases hl
  exact absurd hkey (by decide)

end SrtpRun

end NimRtc
