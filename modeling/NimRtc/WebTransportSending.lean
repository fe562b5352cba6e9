import NimRtc.BidiStream
import NimRtc.Lib.Custody
import NimRtc.Lib.History
import NimRtc.WebTransportChannel

/-!
# The sending side of the WebTransport data channel

The rest of `WebTransportDataChannel`, around what it makes of the bytes it receives: the stream it
opens when it has something to send, what the four modes of reliability let through, and the
callbacks it leaves with the session and the streams. A stream of its own is a number, given in the
order in which the session gives them. What the session answers and what the clock reads is up to
the run.
-/

namespace NimRtc

/-- A stream the channel has to do with: one that it opened, or one of the peer. -/
inductive ChannelStream
  | own (n : ℕ)
  | peer (n : ℕ)
  deriving DecidableEq, Repr

/-- The state of the session, and whether it gives a stream. -/
structure SessionAnswer where
  connected : Bool := true
  gives : Bool := true
  deriving DecidableEq, Repr

/-- What a channel does with its session and its streams, and what it returns and calls. -/
inductive StreamAction
  | opened (n : ℕ)
  | setOnData (s : ChannelStream) (set : Bool)
  | sent (n : ℕ) (data : List UInt8)
  | closed (n : ℕ)
  | reset (n : ℕ)
  | datagram (data : List UInt8)
  | setOnDatagram (set : Bool)
  | setOnPeerStream (set : Bool)
  | report (r : ChannelReport)
  | returned (status : UInt32)
  deriving DecidableEq, Repr

/-- A channel with what its outbound side needs. -/
structure SendingChannel where
  /-- The fields that the inbound side reads. -/
  chan : WebTransportDataChannel := { onMsg := false, onState := false }
  /-- The probe that the factory makes has no session. -/
  session : Bool := true
  streamRaw : Option ℕ := none
  peerStreamRaw : Option ℕ := none
  /-- In nanoseconds of the clock, whose epoch is zero. -/
  prTtlDeadline : ℤ := 0
  prCountRemaining : UInt16 := 0
  /-- The streams that the session has given so far. -/
  streams : ℕ := 0
  deriving DecidableEq, Repr

def kNanosecondsPerLifetimeMs : ℤ := 1000000

def kUnbounded : UInt16 := 0xFFFF

namespace SendingChannel

/-- `ensure_stream_open`, with what it returns. -/
def ensureStreamOpen (c : SendingChannel) (a : SessionAnswer) :
    SendingChannel × List StreamAction × Bool :=
  if !c.session then (c, [], false)
  else if c.chan.streamReady then (c, [], true)
  else if !a.connected then (c, [], false)
  else if !a.gives then (c, [], false)
  else
    ({ c with chan.streamReady := true, streamRaw := some c.streams, streams := c.streams + 1 },
      [.opened c.streams, .setOnData (.own c.streams) true], true)

/-- `open` -/
def «open» (c : SendingChannel) (a : SessionAnswer) : SendingChannel × List StreamAction :=
  if !c.session then (c, [.returned kErrNotReady])
  else if c.chan.opened then (c, [.returned kOk])
  else
    let c := { c with chan.opened := true }
    let (c, acts) :=
      if c.chan.cfg.reliability = .unreliable then (c, [])
      else ((c.ensureStreamOpen a).1, (c.ensureStreamOpen a).2.1)
    let state := WebTransportDataChannel.reliabilityToStateString c.chan.cfg.reliability
      c.chan.streamReady
    (c, acts ++ (c.chan.reportState state).map .report ++ [.returned kOk])

/-- `detach_peer_stream`. -/
def detachPeerStream (c : SendingChannel) : SendingChannel × List StreamAction :=
  ({ c with chan := c.chan.detachPeerStream, peerStreamRaw := none },
    c.peerStreamRaw.toList.map fun p => .setOnData (.peer p) false)

/-- `close()`, which the destructor calls. The callback of the channel's own stream stays. -/
def close (c : SendingChannel) : SendingChannel × List StreamAction :=
  let (chan, reports) := c.chan.close
  let acts := c.streamRaw.toList.map StreamAction.closed
  let (c, detached) := { c with streamRaw := none }.detachPeerStream
  ({ c with chan }, acts ++ detached
    ++ (if c.session then [.setOnDatagram false, .setOnPeerStream false] else [])
    ++ reports.map .report)

/-- `open(cfg)` at `now`. A lifetime of zero leaves the deadline as it is. -/
def configure (c : SendingChannel) (cfg : DataChannelConfig) (now : ℤ) : SendingChannel :=
  let c := { c with chan.cfg := cfg }
  let c :=
    if cfg.reliability = .partialReliableTtl ∧ 0 < cfg.maxPacketLifetimeMs then
      { c with prTtlDeadline := now + cfg.maxPacketLifetimeMs.toNat * kNanosecondsPerLifetimeMs }
    else c
  if cfg.reliability = .partialReliableCount then { c with prCountRemaining := cfg.maxRetransmits }
  else c

/-- The send on the stream; its status is not looked at. -/
def sendOnStream (c : SendingChannel) (data : List UInt8) : List StreamAction :=
  c.streamRaw.toList.map fun n => .sent n data

/-- The channel's own stream is reset and forgotten. -/
def resetStream (c : SendingChannel) : SendingChannel × List StreamAction :=
  match c.streamRaw with
  | none => (c, [])
  | some n => ({ c with streamRaw := none, chan.streamReady := false }, [.reset n])

/-- The switch of `send`. -/
def sendByMode (c : SendingChannel) (data : List UInt8) (now : ℤ) :
    SendingChannel × List StreamAction :=
  match c.chan.cfg.reliability with
  | .reliableOrdered => (c, c.sendOnStream data)
  | .unreliable => (c, if c.session then [.datagram data] else [])
  | .partialReliableTtl =>
    if c.prTtlDeadline < now then c.resetStream else (c, c.sendOnStream data)
  | .partialReliableCount =>
    -- a count of zero is exhausted from the start
    if c.prCountRemaining = 0 then c.resetStream
    else if c.prCountRemaining ≠ kUnbounded then
      ({ c with prCountRemaining := c.prCountRemaining - 1 }, c.sendOnStream data)
    else (c, c.sendOnStream data)

/-- `send` -/
def send (c : SendingChannel) (data : List UInt8) (a : SessionAnswer) (now : ℤ) :
    SendingChannel × List StreamAction :=
  if !c.chan.opened || data = [] then (c, [])
  else if c.chan.cfg.reliability ≠ .unreliable ∧ c.chan.streamReady = false then
    let (c, acts, ok) := c.ensureStreamOpen a
    if !ok then (c, acts)
    else
      let (c, sent) := c.sendByMode data now
      (c, acts ++ sent)
  else c.sendByMode data now

/-- `attach_session_callbacks` -/
def attachSessionCallbacks (c : SendingChannel) : List StreamAction :=
  if c.session then [.setOnDatagram true, .setOnPeerStream true] else []

/-- `on_peer_stream`, for a stream that is there. -/
def onPeerStream (c : SendingChannel) (p : ℕ) : SendingChannel × List StreamAction :=
  if !c.chan.opened || c.chan.cfg.reliability = .unreliable then (c, [])
  else
    let (c, acts) := c.detachPeerStream
    ({ c with chan := c.chan.onPeerStream, peerStreamRaw := some p },
      acts ++ [.setOnData (.peer p) true])

/-- The callback of a stream: the channel's own go to `on_stream_data`, open or not. -/
def onData (c : SendingChannel) (s : ChannelStream) (data : List UInt8) :
    SendingChannel × List StreamAction :=
  match s with
  | .own _ => (c, (c.chan.onStreamData data).map .report)
  | .peer _ =>
    let (chan, reports) := c.chan.onPeerStreamData data
    ({ c with chan }, reports.map .report)

/-! ### Runs -/

/-- A call on the channel after it was configured. -/
inductive Call
  | «open» (a : SessionAnswer)
  | close
  | send (data : List UInt8) (a : SessionAnswer) (now : ℤ)
  | attachSessionCallbacks
  | setOnMessage (set : Bool)
  | setOnState (set : Bool)
  | onPeerStream (p : ℕ)
  | onData (s : ChannelStream) (data : List UInt8)
  | onSessionDatagram (bytes : List UInt8)

/-- The configuration, or a call. -/
inductive Event
  | configure (cfg : DataChannelConfig) (now : ℤ)
  | call (c : Call)

/-- One call, and what is done. -/
def call (c : SendingChannel) : Call → SendingChannel × List StreamAction
  | .open a => c.open a
  | .close => c.close
  | .send data a now => c.send data a now
  | .attachSessionCallbacks => (c, c.attachSessionCallbacks)
  | .setOnMessage set => ({ c with chan.onMsg := set }, [])
  | .setOnState set => ({ c with chan.onState := set }, [])
  | .onPeerStream p => c.onPeerStream p
  | .onData s data => c.onData s data
  | .onSessionDatagram bytes => (c, (c.chan.onSessionDatagram bytes).map .report)

/-- One event, and what is done. -/
def step (c : SendingChannel) : Event → SendingChannel × List StreamAction
  | .configure cfg now => (c.configure cfg now, [])
  | .call e => c.call e

/-- The channel under a list of events. -/
def machine : Machine SendingChannel Event StreamAction := ⟨step⟩

end SendingChannel

/-! ### What a run does with a stream and a payload -/

namespace StreamAction

/-- What an action does with a stream of the channel's own. -/
def on (n : ℕ) : StreamAction → List Custody.Use
  | opened m => if m = n then [.opened] else []
  | setOnData (.own m) _ | sent m _ => if m = n then [.used] else []
  | closed m | reset m => if m = n then [.closed] else []
  | _ => []

/-- What the actions do with a stream of the channel's own. -/
def uses (acts : List StreamAction) (n : ℕ) : List Custody.Use := acts.flatMap (on n)

/-- Whether the data of a stream still comes to the channel, if it did before. -/
def hears (s : ChannelStream) (before : Bool) : StreamAction → Bool
  | setOnData t set => if t = s then set else before
  | _ => before

/-- Whether the data of a stream comes to the channel in the end. -/
def listening (acts : List StreamAction) (s : ChannelStream) : Bool := acts.foldl (hears s) false

/-- The payloads that are handed to the session or to a stream of it. -/
def handed : List StreamAction → List (List UInt8) := List.filterMap fun
  | sent _ data | datagram data => some data
  | _ => none

/-- The streams that are reset. -/
def resets : List StreamAction → List ℕ := List.filterMap fun
  | reset n => some n
  | _ => none

end StreamAction

/-- What a mode lets through of the sends, each with the time it is made at: those before the
deadline, or the first `count`. -/
def DataChannelConfig.lets (cfg : DataChannelConfig) (deadline : ℤ) (count : UInt16)
    (sends : List (List UInt8 × ℤ)) : List (List UInt8 × ℤ) :=
  match cfg.reliability with
  | .reliableOrdered | .unreliable => sends
  | .partialReliableTtl => sends.filter fun s => s.2 ≤ deadline
  | .partialReliableCount => if count = kUnbounded then sends else sends.take count.toNat

namespace SendingChannel

/-- The sends that come as far as the switch: the channel is open and has its stream, or gets
it. -/
def reaches (c : SendingChannel) : Call → List (List UInt8 × ℤ)
  | .send data a now =>
    if c.chan.opened ∧ data ≠ [] ∧ (c.chan.cfg.reliability = .unreliable ∨ c.chan.streamReady
        ∨ a.connected ∧ a.gives) then
      [(data, now)]
    else []
  | _ => []

/-- All the sends of a run that come as far as the switch. -/
def sends : SendingChannel → List Call → List (List UInt8 × ℤ)
  | _, [] => []
  | c, e :: es => c.reaches e ++ sends (c.call e).1 es

/-- What the mode lets through from here on. -/
def lets (c : SendingChannel) (sends : List (List UInt8 × ℤ)) : List (List UInt8 × ℤ) :=
  c.chan.cfg.lets c.prTtlDeadline c.prCountRemaining sends

/-- The streams whose data comes to the channel: all that it ever opened, and the one of the peer
that it adopted last. -/
def hearsFrom (c : SendingChannel) : ChannelStream → Prop
  | .own n => n < c.streams
  | .peer p => c.peerStreamRaw = some p

/-- The channel and the stream it holds, and what was done with one of its streams so far. -/
def Accounted (c : SendingChannel) (acts : List StreamAction) (n : ℕ) : Prop :=
  if c.streamRaw = some n then n < c.streams ∧ Custody.Held (StreamAction.uses acts n)
  else if n < c.streams then Custody.GivenUp .closed (StreamAction.uses acts n)
  else StreamAction.uses acts n = []

end SendingChannel

end NimRtc
