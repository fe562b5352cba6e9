import NimRtc.DataChannel
import NimRtc.Lib.Machine

/-!
# The SCTP data channel

`SctpDataChannel` over `UsrsctpSocket`, from `sctp_data_channel.cpp` and `usrsctp_socket.cpp`. The
socket hands an inbound message to each of the two callbacks that is registered, and the channel
registers both. usrsctp's answer to a send is part of the call.
-/

namespace NimRtc

/-- What the channel sees of the socket: its callbacks that are registered, and whether it is in a
state to send in. -/
structure UsrsctpSocket where
  onRecv : Bool := false
  onRecvPpid : Bool := false
  sendable : Bool := true
  deriving DecidableEq, Repr

/-- An inbound message, the PPID in host byte order; `accepts` is usrsctp's answer to a reply. -/
structure SctpMessage where
  stream : UInt16
  ppid : UInt32
  payload : List UInt8
  accepts : Bool := true
  deriving DecidableEq, Repr

/-- A message of the user: PPID string or binary. -/
def SctpMessage.ofUser (m : SctpMessage) : Bool := m.ppid = kPpidString || m.ppid = kPpidBinary

/-- The sends of the socket: `send_stream_with_ppid` and its variants, by their status. -/
def UsrsctpSocket.sends (s : UsrsctpSocket) (data : List UInt8) (accepts : Bool) : Bool :=
  s.sendable && data ≠ [] && accepts

/-- `SctpDataChannel`: its socket, its configuration and its flags. -/
structure SctpDataChannel where
  sock : Option UsrsctpSocket := some {}
  cfg : DataChannelConfig := {}
  opened : Bool := false
  dcepOpenSent : Bool := false
  /-- The message and the state callback are set. -/
  onMsg : Bool := true
  onState : Bool := true
  deriving DecidableEq, Repr

namespace SctpDataChannel

/-- `s_stream_from_priority`: every priority shares stream 0. -/
def streamFromPriority (_ : UInt8) : UInt16 := 0

/-- The state callback, when one is set. -/
def reportState (c : SctpDataChannel) (s : String) : List ChannelReport :=
  if c.onState then [.state s] else []

/-- `open()`; whether it succeeds. -/
def «open» (c : SctpDataChannel) : Bool × SctpDataChannel × List ChannelReport :=
  if c.opened then (true, c, [])
  else
    match c.sock with
    | none => (false, c, [])
    | some s =>
      (true,
        { c with sock := some { s with onRecv := true, onRecvPpid := true }, opened := true },
        c.reportState "connecting" ++ c.reportState "open")

/-- `close`: the socket, the flags and the callbacks go. -/
def close (c : SctpDataChannel) : SctpDataChannel × List ChannelReport :=
  ({ c with
      sock := none
      opened := false
      dcepOpenSent := false
      onMsg := false
      onState := false },
    c.reportState "closed")

/-- `configure` -/
def configure (c : SctpDataChannel) (cfg : DataChannelConfig) : SctpDataChannel := { c with cfg }

/-- A message to the socket, if there is one that takes it; whether it does. -/
def toSocket (c : SctpDataChannel) (mode : SctpSendMode) (ppid : UInt32) (data : List UInt8)
    (accepts : Bool) : Bool × List ChannelReport :=
  match c.sock with
  | none => (false, [])
  | some s =>
    if s.sends data accepts then (true, [.sent mode (streamFromPriority c.cfg.priority) ppid data])
    else (false, [])

/-- `s_ttl_from_retransmits`: 100 ms a retransmission, one minute at most. -/
def ttlFromRetransmits (maxRetransmits : UInt16) : ℕ := min (maxRetransmits.toNat * 100) 60000

/-- The send method `route_send` chooses. -/
def sendMode (cfg : DataChannelConfig) : SctpSendMode :=
  let unordered := cfg.reliability = .unreliable || !cfg.ordered
  match cfg.reliability with
  | .reliableOrdered => .stream
  | .unreliable => .datagram
  | .partialReliableTtl => .partialReliable cfg.maxPacketLifetimeMs.toNat unordered
  | .partialReliableCount => .partialReliable (ttlFromRetransmits cfg.maxRetransmits) unordered

/-- `send` -/
def send (c : SctpDataChannel) (data : List UInt8) (accepts : Bool) : List ChannelReport :=
  if !c.opened then c.reportState "error"
  else
    let (ok, reports) := c.toSocket (sendMode c.cfg) (dcepPpidForConfig c.cfg) data accepts
    reports ++ if ok then [] else c.reportState "error"

/-- `send_dcep_open` -/
def sendDcepOpen (c : SctpDataChannel) (accepts : Bool) : SctpDataChannel × List ChannelReport :=
  if !c.opened || c.sock.isNone || c.dcepOpenSent then (c, [])
  else
    let (ok, reports) := c.toSocket .stream kPpidDcep (dcepEncodeOpen c.cfg) accepts
    if ok then ({ c with dcepOpenSent := true }, reports)
    else (c, c.reportState "error")

/-- `on_sctp_recv` -/
def onSctpRecv (c : SctpDataChannel) (data : List UInt8) : List ChannelReport :=
  if c.onMsg then [.message data] else []

/-- The configuration of the peer's OPEN is taken over, if it decodes. -/
def adopt (c : SctpDataChannel) (data : List UInt8) : SctpDataChannel :=
  match dcepDecodeOpen data with
  | none => c
  | some p => { c with
      cfg := { c.cfg with
        label := p.label
        reliability := p.reliability
        ordered := p.ordered
        maxRetransmits := p.maxRetransmits
        maxPacketLifetimeMs := p.maxPacketLifetimeMs } }

/-- `on_sctp_recv_with_ppid` -/
def onSctpRecvWithPpid (c : SctpDataChannel) (m : SctpMessage) :
    SctpDataChannel × List ChannelReport :=
  if m.ppid = kPpidDcep then
    match m.payload.head? with
    | none => (c, [])
    | some b =>
      if b = kDcepAck then (c, c.reportState "open")
      else if b = kDcepOpen then
        let c := c.adopt m.payload
        (c, (c.toSocket .stream kPpidDcep dcepEncodeAck m.accepts).2 ++ c.reportState "open")
      else (c, [])
  else if m.ppid = kPpidString ∨ m.ppid = kPpidBinary then (c, c.onSctpRecv m.payload)
  else (c, [])

/-- `s_instance_recv_cb` on a message, which goes to every callback that is registered. -/
def instanceRecv (c : SctpDataChannel) (m : SctpMessage) : SctpDataChannel × List ChannelReport :=
  match c.sock with
  | none => (c, [])
  | some s =>
    let legacy := if s.onRecv then c.onSctpRecv m.payload else []
    let (c, reports) := if s.onRecvPpid then c.onSctpRecvWithPpid m else (c, [])
    (c, legacy ++ reports)

/-- The messages of the association, one after the other. -/
def recvAll (c : SctpDataChannel) : List SctpMessage → SctpDataChannel × List ChannelReport
  | [] => (c, [])
  | m :: ms =>
    let (c, reports) := c.instanceRecv m
    let (c, rest) := c.recvAll ms
    (c, reports ++ rest)

/-- The calls of the user, and the messages that come in. A callback is set or cleared. -/
inductive Call
  | «open»
  | configure (cfg : DataChannelConfig)
  | setOnMessage (set : Bool)
  | setOnState (set : Bool)
  | sendDcepOpen (accepts : Bool)
  | send (data : List UInt8) (accepts : Bool)
  | recv (m : SctpMessage)
  | close
  deriving DecidableEq, Repr

/-- One call on the channel. -/
def call (c : SctpDataChannel) : Call → SctpDataChannel × List ChannelReport
  | .open => c.open.2
  | .configure cfg => (c.configure cfg, [])
  | .setOnMessage set => ({ c with onMsg := set }, [])
  | .setOnState set => ({ c with onState := set }, [])
  | .sendDcepOpen accepts => c.sendDcepOpen accepts
  | .send data accepts => (c, c.send data accepts)
  | .recv m => c.instanceRecv m
  | .close => c.close

/-- The channel under a list of calls. -/
def machine : Machine SctpDataChannel Call ChannelReport := ⟨call⟩

/-- The channel is open over a socket, and its user takes messages. -/
structure Ready (c : SctpDataChannel) : Prop where
  opened : c.opened
  callbacks : ∃ s, c.sock = some s ∧ s.onRecv ∧ s.onRecvPpid
  onMsg : c.onMsg

/-- Each user message is delivered once and in order, and nothing else is. -/
def DeliversOnce (ms : List SctpMessage) (reports : List ChannelReport) : Prop :=
  ChannelReport.messages reports = (ms.filter (·.ofUser)).map (·.payload)

/-! ### What an OPEN does -/

end SctpDataChannel

namespace ChannelReport

/-- What is handed to the SCTP socket. -/
def sends : List ChannelReport → List (SctpSendMode × UInt32 × List UInt8) := List.filterMap fun
  | .sent mode _ ppid data => some (mode, ppid, data)
  | _ => none

/-- The states a run reported. -/
def states : List ChannelReport → List String := List.filterMap fun
  | .state s => some s
  | _ => none

/-- The OPENs among what is handed to the SCTP socket. -/
def opens (rs : List ChannelReport) : List (SctpSendMode × UInt32 × List UInt8) :=
  (sends rs).filter fun m => m.2.1 = kPpidDcep ∧ m.2.2.head? = some kDcepOpen

end ChannelReport

/-- The send method for the parameters of an OPEN. -/
def DcepOpenParams.sendMode (p : DcepOpenParams) : SctpSendMode :=
  match p.reliability with
  | .reliableOrdered => .stream
  | .unreliable => .datagram
  | .partialReliableTtl => .partialReliable p.maxPacketLifetimeMs.toNat (!p.ordered)
  | .partialReliableCount =>
    .partialReliable (SctpDataChannel.ttlFromRetransmits p.maxRetransmits) (!p.ordered)

/-- The message is not an OPEN that decodes. -/
def SctpMessage.IsNoOpen (m : SctpMessage) : Prop :=
  m.ppid = kPpidDcep → dcepDecodeOpen m.payload = none

namespace SctpDataChannel

/-- There is a socket that takes an ACK. -/
def takesAck (c : SctpDataChannel) (accepts : Bool) : Bool :=
  c.sock.any fun s => s.sends dcepEncodeAck accepts

/-- The configuration is as it was, nothing is sent and no state is reported. -/
structure NoEffect (c : SctpDataChannel) (r : SctpDataChannel × List ChannelReport) : Prop where
  cfg : r.1.cfg = c.cfg
  sends : ChannelReport.sends r.2 = []
  states : ChannelReport.states r.2 = []

/-- There is one ACK, and what is sent from then on goes by the parameters. -/
structure Applies (p : DcepOpenParams) (r : SctpDataChannel × List ChannelReport) : Prop where
  ack : ChannelReport.sends r.2 = [(.stream, kPpidDcep, dcepEncodeAck)]
  label : r.1.cfg.label = p.label
  reliability : r.1.cfg.reliability = p.reliability
  ordered : r.1.cfg.ordered = p.ordered
  maxRetransmits : r.1.cfg.maxRetransmits = p.maxRetransmits
  maxPacketLifetimeMs : r.1.cfg.maxPacketLifetimeMs = p.maxPacketLifetimeMs
  sends : ∀ ms : List SctpMessage, (∀ m ∈ ms, m.IsNoOpen) → ∀ data accepts,
    ∀ o ∈ ChannelReport.sends ((r.1.recvAll ms).1.send data accepts), o.1 = p.sendMode

/-- What a DCEP message should do. -/
def HandlesOpen (c : SctpDataChannel) (stream : UInt16) (payload : List UInt8) (accepts : Bool) :
    Prop :=
  let r := c.onSctpRecvWithPpid ⟨stream, kPpidDcep, payload, accepts⟩
  match dcepDecodeOpen payload with
  | none => NoEffect c r
  | some p => Applies p r

/-- An OPEN that decodes finds a socket that takes the ACK. Of the other messages, one that begins
like an OPEN finds neither that nor a state callback, and one that begins like an ACK finds no state
callback. -/
def Answerable (c : SctpDataChannel) (payload : List UInt8) (accepts : Bool) : Prop :=
  match dcepDecodeOpen payload with
  | none => (payload.head? = some kDcepOpen → c.onState = false ∧ c.takesAck accepts = false)
    ∧ (payload.head? = some kDcepAck → c.onState = false)
  | some _ => c.takesAck accepts = true

end SctpDataChannel

end NimRtc
