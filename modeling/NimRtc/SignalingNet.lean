import NimRtc.EngineRuns

/-!
# Two engines and the channel their descriptions go through

Either engine may make an offer at any time. The channel delivers each description at most once
and in any order, and may lose it. Beside the engines the model keeps what a description was made
as, the session ids of the offers, and which engine has answered an offer or applied an answer.
-/

namespace NimRtc

/-- One of the two ends. -/
inductive Side
  | left
  | right
  deriving DecidableEq, Repr

/-- The other end. -/
def Side.peer : Side → Side
  | left => right
  | right => left

/-- An offer or an answer. -/
inductive DescriptionKind
  | offer
  | answer
  deriving DecidableEq, Repr

/-- A description on its way to a side. -/
structure InFlight where
  dst : Side
  kind : DescriptionKind
  sdp : SessionDescription
  deriving DecidableEq, Repr

/-- An end makes an offer, or the network delivers or loses a description. -/
inductive SignalingEvent
  | createOffer (x : Side) (sessionId : String) (ice : IceLocal) (mungerOk : Bool)
  | deliver (i : ℕ) (ice : IceLocal) (mungerOk : Bool)
  | lose (i : ℕ)
  deriving DecidableEq, Repr

/-- Two engines and the descriptions in flight between them. -/
structure SignalingNet where
  engine : Side → Engine
  inFlight : List InFlight := []
  /-- The session ids of the offers that a side has made. -/
  ids : Side → List String := fun _ => []
  /-- The side has answered an offer or applied an answer. -/
  negotiated : Side → Bool := fun _ => false

namespace SignalingNet

/-- Two engines that are open, with any configuration. -/
def init (cfg : Side → EngineConfig) (sender : Side → Option VideoSender)
    (fingerprint : Side → String) : SignalingNet where
  engine x := ((Engine.fresh (cfg x) (sender x) (fingerprint x)).open {} true).1

/-- An end makes an offer, which goes into flight if it was made. -/
def createOffer (n : SignalingNet) (x : Side) (sessionId : String) (ice : IceLocal)
    (mungerOk : Bool) : SignalingNet :=
  let (e, sdp) := (n.engine x).createOffer sessionId ice mungerOk
  { n with
    engine := Function.update n.engine x e
    inFlight := n.inFlight ++ (sdp.map fun d => ⟨x.peer, .offer, d⟩).toList
    ids := Function.update n.ids x (sessionId :: n.ids x) }

/-- The `i`-th description in flight reaches its end, which may answer. -/
def deliver (n : SignalingNet) (i : ℕ) (ice : IceLocal) (mungerOk : Bool) : SignalingNet :=
  match n.inFlight[i]? with
  | none => n
  | some m =>
    let (e, result) := (n.engine m.dst).processRemoteSdp (some m.sdp) ice mungerOk
    { n with
      engine := Function.update n.engine m.dst e
      inFlight := n.inFlight.eraseIdx i ++
        (match result with
        | .answer d => [⟨m.dst.peer, .answer, d⟩]
        | .failed | .empty => [])
      negotiated :=
        if result = .failed then n.negotiated else Function.update n.negotiated m.dst true }

/-- The `i`-th description in flight is lost. -/
def lose (n : SignalingNet) (i : ℕ) : SignalingNet :=
  { n with inFlight := n.inFlight.eraseIdx i }

/-- One event. -/
def step (n : SignalingNet) : SignalingEvent → SignalingNet
  | .createOffer x sessionId ice mungerOk => n.createOffer x sessionId ice mungerOk
  | .deliver i ice mungerOk => n.deliver i ice mungerOk
  | .lose i => n.lose i

/-- The two ends under any order of events. -/
def machine : Machine SignalingNet SignalingEvent Empty := ⟨fun n ev => (n.step ev, [])⟩

/-- Once both have negotiated and nothing is in flight, exactly one is the DTLS client. -/
def Agrees (n : SignalingNet) : Prop :=
  (∀ x, n.negotiated x) → n.inFlight = [] →
    (n.engine .left).dtlsIsClient ≠ (n.engine .right).dtlsIsClient

/-- The session id of an offer is not that of another. -/
def FreshId (n : SignalingNet) : SignalingEvent → Prop
  | .createOffer _ sessionId _ _ => sessionId ≠ "" ∧ ∀ x, sessionId ∉ n.ids x
  | _ => True

/-- The side is the client already, or it has not negotiated yet. -/
def Spares (n : SignalingNet) (x : Side) : Prop :=
  (n.engine x).dtlsIsClient = true ∨ n.negotiated x = false

/-- An offer is not delivered to a side that an answer is on its way to, an answer is delivered
only as the answer to the last offer, and the side that an answer is lost for, or that is not
given one, can spare it. -/
def Orderly (n : SignalingNet) : SignalingEvent → Prop
  | .createOffer _ _ _ _ => True
  | .deliver i _ mungerOk => ∀ m ∈ n.inFlight[i]?,
    match m.kind with
    | .offer => (∀ m' ∈ n.inFlight, m'.dst = m.dst → m'.kind = .offer)
      ∧ (mungerOk = false → n.Spares m.dst.peer)
    | .answer => m.sdp.originSessionId = (n.engine m.dst).localSessionId
  | .lose i => ∀ m ∈ n.inFlight[i]?, m.kind = .answer → n.Spares m.dst

end SignalingNet

/-- The two `a=setup` values do not commit both sides to the same role. -/
def ComplementarySetup (offered answered : String) : Prop :=
  ¬ (offered = "passive" ∧ answered = "passive") ∧ ¬ (offered = "active" ∧ answered = "active")

end NimRtc
