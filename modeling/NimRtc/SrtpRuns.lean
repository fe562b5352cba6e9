import NimRtc.Lib.Machine
import NimRtc.Srtp

/-!
# Runs of an SRTP context

The calls on an `SrtpContext` in any order. Beside the context a run keeps what was derived last
for each direction, which is what a session handed out should be keyed with.
-/

namespace NimRtc

/-- Keying material as it is derived. -/
structure Keying where
  key : List UInt8
  salt : List UInt8
  suite : CryptoSuite
  deriving DecidableEq, Repr

/-- The session is keyed with `k`. -/
def SrtpSession.KeyedWith (s : SrtpSession) (k : Keying) : Prop :=
  s.config.suite = k.suite
    ∧ ∃ l ∈ s.session, l.key = k.key ∧ l.salt = k.salt ∧ l.suite = k.suite

instance (s : SrtpSession) (k : Keying) : Decidable (s.KeyedWith k) :=
  inferInstanceAs (Decidable (_ ∧ _))

/-- The context, with what was derived last in each direction. -/
structure SrtpRun where
  ctx : SrtpContext := {}
  /-- What was derived last for this side's packets. -/
  lastLocal : Option Keying := none
  /-- What was derived last for the peer's packets. -/
  lastRemote : Option Keying := none

/-- A call on the context. -/
inductive SrtpCall
  | deriveKeysForLocal (k : Keying)
  | deriveKeysForRemote (k : Keying)
  | getSession (ssrc : UInt32) (outgoing libOk : Bool)
  | removeSession (ssrc : UInt32)
  deriving DecidableEq, Repr

/-- A session handed out by `get_session`, with what was derived last for its direction. -/
structure HandedOut where
  session : SrtpSession
  latest : Option Keying

namespace SrtpRun

/-- The keys derived last for one direction. -/
def latest (r : SrtpRun) (outgoing : Bool) : Option Keying :=
  if outgoing then r.lastLocal else r.lastRemote

/-- One call, and the session it hands out. -/
def step (r : SrtpRun) : SrtpCall → SrtpRun × List HandedOut
  | .deriveKeysForLocal k =>
    ({ r with ctx := r.ctx.deriveKeysForLocal k.key k.salt k.suite, lastLocal := some k }, [])
  | .deriveKeysForRemote k =>
    ({ r with ctx := r.ctx.deriveKeysForRemote k.key k.salt k.suite, lastRemote := some k }, [])
  | .getSession ssrc outgoing libOk =>
    let (s, ctx) := r.ctx.getSession ssrc outgoing libOk
    ({ r with ctx }, s.toList.map fun s => ⟨s, r.latest outgoing⟩)
  | .removeSession ssrc => ({ r with ctx := r.ctx.removeSession ssrc }, [])

/-- The context under a list of calls. -/
def machine : Machine SrtpRun SrtpCall HandedOut := ⟨step⟩

/-- The session handed out is keyed with what was derived last for its direction. -/
def FollowsKeys (h : HandedOut) : Prop := ∃ k ∈ h.latest, h.session.KeyedWith k

/-- Keys derived for a direction find no session of the direction keyed otherwise, and the suite
is the one derived last for the other direction, if there is one. -/
def Rekeys (r : SrtpRun) (outgoing : Bool) (k : Keying) : Prop :=
  (∀ ssrc s, (r.ctx.sessions outgoing).lookup ssrc = some (some s) → s.KeyedWith k)
    ∧ ∀ k' ∈ r.latest (!outgoing), k'.suite = k.suite

/-- A derive call repeats the keys that the sessions of its direction have, and keeps the suite. -/
def DeriveRekeys (r : SrtpRun) : SrtpCall → Prop
  | .deriveKeysForLocal k => r.Rekeys true k
  | .deriveKeysForRemote k => r.Rekeys false k
  | _ => True

end SrtpRun

end NimRtc
