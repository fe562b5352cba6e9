import NimRtc.BidiStream
import NimRtc.Lib.Custody

/-!
# The handles of a WebTransport session

`MsQuicSessionImpl` of `web_transport_msquic_session.cpp` with its streams, seen from msquic: which
handles it opens, uses and closes, and which payloads it leaves with msquic until they are sent. A
handle and a payload are numbers, given in the order in which they come. What msquic answers, and
what it reports and when, is up to the run; a payload it reports on is one that it has, and a
session of whose connection it has reported the end hears nothing more of it.
-/

namespace NimRtc.MsQuic

/-- A handle of msquic; each is given out once. -/
abbrev HQUIC := ℕ

/-- What msquic answers. -/
inductive QuicStatus
  | success
  | connectionIdle
  | invalidState
  | invalidParameter
  | other (code : ℕ)
  deriving DecidableEq

/-- `QUIC_FAILED` -/
def QuicStatus.failed (rc : QuicStatus) : Bool := rc ≠ .success

/-- The flags of a stream's shutdown. -/
inductive ShutdownFlag
  | graceful
  | abortSend
  | abortReceive

/-- What passes between a session and msquic, and the release of a payload. -/
inductive Action
  | registrationOpen (registration : HQUIC)
  | registrationClose (registration : HQUIC)
  | configurationOpen (configuration registration : HQUIC)
  | configurationClose (configuration : HQUIC)
  | connectionOpen (conn registration : HQUIC)
  | newConnection (conn : HQUIC)
  | connectionSetConfiguration (conn configuration : HQUIC)
  | connectionStart (conn configuration : HQUIC)
  | connectionShutdown (conn : HQUIC)
  | connectionClose (conn : HQUIC)
  | streamOpen (stream : HQUIC)
  | peerStreamStarted (stream : HQUIC)
  | streamStart (stream : HQUIC) (rc : QuicStatus)
  | streamSend (stream : HQUIC) (fin : Bool) (payload : ℕ) (rc : QuicStatus)
  | streamShutdown (stream : HQUIC) (flags : List ShutdownFlag)
  | streamShutdownComplete (stream : HQUIC)
  | streamClose (stream : HQUIC)
  | datagramSend (conn : Option HQUIC) (payload : ℕ) (rc : QuicStatus)
  | releaseOutboundPayload (payload : ℕ)
  | returned (status : UInt32)

namespace Action

/-- The handles an action speaks of. -/
def handles : Action → List HQUIC
  | registrationOpen h | registrationClose h | configurationClose h | newConnection h
  | connectionShutdown h | connectionClose h | streamOpen h | peerStreamStarted h | streamStart h _
  | streamSend h _ _ _ | streamShutdown h _ | streamShutdownComplete h | streamClose h => [h]
  | configurationOpen h h' | connectionOpen h h' | connectionSetConfiguration h h'
  | connectionStart h h' => [h, h']
  | datagramSend conn _ _ => conn.toList
  | releaseOutboundPayload _ | returned _ => []

/-- The handles an action brings into being. -/
def opens : Action → List HQUIC
  | registrationOpen h | configurationOpen h _ | connectionOpen h _ | newConnection h
  | streamOpen h | peerStreamStarted h => [h]
  | _ => []

/-- The handles an action closes. -/
def closes : Action → List HQUIC
  | registrationClose h | configurationClose h | connectionClose h | streamClose h => [h]
  | _ => []

/-- A stream that msquic is done with. -/
def ends : Action → List HQUIC
  | streamShutdownComplete h => [h]
  | _ => []

/-- The streams whose start failed. -/
def failedStarts : Action → List HQUIC
  | streamStart h rc => if rc.failed then [h] else []
  | _ => []

/-- What is done with a handle. -/
def on (a : Action) (h : HQUIC) : List Custody.Use :=
  if h ∈ a.opens then [.opened]
  else if h ∈ a.closes then [.closed]
  else if h ∈ a.ends then [.left]
  else if h ∈ a.handles then [.used]
  else []

/-- The payloads an action lets go. -/
def releases : Action → List ℕ
  | releaseOutboundPayload payload => [payload]
  | _ => []

end Action

/-- `MsQuicBidiStream` and `MsQuicUniStream` as holders of a handle. -/
structure QuicStream where
  unidirectional : Bool
  stream : Option HQUIC := none
  closed : Bool := false
  /-- What it receives is sent back. -/
  echo : Bool := false

namespace QuicStream

/-- A stream that is not closed yet is shut down. -/
def shutdown (s : QuicStream) (flags : List ShutdownFlag) : QuicStream × List Action :=
  match s.stream with
  | none => (s, [])
  | some h => if s.closed then (s, []) else ({ s with closed := true }, [.streamShutdown h flags])

/-- `close`: a stream that only sends is aborted. -/
def close (s : QuicStream) : QuicStream × List Action :=
  s.shutdown (if s.unidirectional then [.abortSend] else [.graceful])

/-- `reset` -/
def reset (s : QuicStream) : QuicStream × List Action :=
  s.shutdown (if s.unidirectional then [.abortSend] else [.abortSend, .abortReceive])

/-- The destructor. -/
def destroy (s : QuicStream) : List Action :=
  match s.stream with
  | none => []
  | some h =>
    (if s.closed then [] else [Action.streamShutdown h [.graceful]]) ++ [Action.streamClose h]

/-- Only a bidirectional stream looks at it. -/
def onPeerAborted (s : QuicStream) : QuicStream :=
  if s.unidirectional then s else { s with closed := true }

/-- The stream has shut down and lets its handle go. -/
def onStreamClosed (s : QuicStream) : QuicStream × List Action :=
  ({ s with closed := true, stream := none }, s.stream.toList.map Action.streamShutdownComplete)

end QuicStream

/-- `WebTransportState` -/
inductive WebTransportState
  | connecting
  | connected
  | closing
  | closed
  | failed
  deriving DecidableEq

/-- `MsQuicSessionImpl`: its handles, which of them it owns, and its streams. -/
structure MsQuicSessionImpl where
  registration : Option HQUIC := none
  configuration : Option HQUIC := none
  conn : Option HQUIC := none
  state : WebTransportState := .connecting
  closing : Bool := false
  bidiStreams : List QuicStream := []
  uniStreams : List QuicStream := []
  ownsRegistration : Bool := false
  ownsConfiguration : Bool := false
  ownsConnection : Bool := false
  /-- `on_peer_stream_cb_` is set. -/
  onPeerStreamCb : Bool := false
  datagramStateKnown : Bool := false
  datagramSendEnabled : Bool := false
  datagramMaxSendLength : ℕ := 0

namespace MsQuicSessionImpl

/-- A stream by its kind and place. -/
def stream? (x : MsQuicSessionImpl) (unidirectional : Bool) (i : ℕ) : Option QuicStream :=
  if unidirectional then x.uniStreams[i]? else x.bidiStreams[i]?

/-- The stream at a place is replaced. -/
def setStream (x : MsQuicSessionImpl) (unidirectional : Bool) (i : ℕ) (s : QuicStream) :
    MsQuicSessionImpl :=
  if unidirectional then { x with uniStreams := x.uniStreams.set i s }
  else { x with bidiStreams := x.bidiStreams.set i s }

/-- A stream is added to those of its kind. -/
def pushStream (x : MsQuicSessionImpl) (s : QuicStream) : MsQuicSessionImpl :=
  if s.unidirectional then { x with uniStreams := x.uniStreams ++ [s] }
  else { x with bidiStreams := x.bidiStreams ++ [s] }

/-- The handles of the streams. -/
def streamHandles (x : MsQuicSessionImpl) : List HQUIC :=
  (x.bidiStreams ++ x.uniStreams).filterMap (·.stream)

/-! What the session opened itself, and so closes. -/

/-- The connection, if the session is to close it. -/
def ownConnection (x : MsQuicSessionImpl) : Option HQUIC :=
  if x.ownsConnection then x.conn else none

/-- The configuration, if the session is to close it. -/
def ownConfiguration (x : MsQuicSessionImpl) : Option HQUIC :=
  if x.ownsConfiguration then x.configuration else none

/-- The registration, if the session is to close it. -/
def ownRegistration (x : MsQuicSessionImpl) : Option HQUIC :=
  if x.ownsRegistration then x.registration else none

/-- The handles the session is to close. -/
def own (x : MsQuicSessionImpl) : List HQUIC :=
  x.ownConnection.toList ++ x.ownConfiguration.toList ++ x.ownRegistration.toList

/-- `close`: the connection is shut down, once. -/
def close (x : MsQuicSessionImpl) : MsQuicSessionImpl × List Action :=
  if x.closing then (x, [])
  else
    ({ x with
        closing := true
        state := .closing
        bidiStreams := x.bidiStreams.map (·.close.1)
        uniStreams := x.uniStreams.map (·.close.1)
        conn := x.ownConnection },
      x.bidiStreams.flatMap (·.close.2) ++ x.uniStreams.flatMap (·.close.2)
        ++ x.ownConnection.toList.map Action.connectionShutdown)

/-- The destructors of the streams. -/
def clear (x : MsQuicSessionImpl) : MsQuicSessionImpl × List Action :=
  ({ x with bidiStreams := [], uniStreams := [] },
    x.bidiStreams.flatMap (·.destroy) ++ x.uniStreams.flatMap (·.destroy))

/-- The end of `on_shutdown_complete`. -/
def closeHandles (x : MsQuicSessionImpl) : MsQuicSessionImpl × List Action :=
  ({ x with
      conn := none
      configuration := if x.ownsConfiguration then none else x.configuration
      registration := if x.ownsRegistration then none else x.registration },
    x.ownConnection.toList.map Action.connectionClose
      ++ x.ownConfiguration.toList.map Action.configurationClose
      ++ x.ownRegistration.toList.map Action.registrationClose)

/-- What is left of a session that is gone. -/
def gone (x : MsQuicSessionImpl) : MsQuicSessionImpl :=
  { x with conn := none, configuration := none, registration := none }

/-- msquic says whether datagrams may be sent, and how long. -/
def onDatagramStateChanged (x : MsQuicSessionImpl) (sendEnabled : Bool) (maxSendLength : ℕ) :
    MsQuicSessionImpl :=
  { x with
    datagramStateKnown := true
    datagramSendEnabled := sendEnabled
    datagramMaxSendLength := maxSendLength }

/-- The datagram state a listener knew before there was a session. -/
def seedDatagramState (x : MsQuicSessionImpl) (sendEnabled : Bool) (maxSendLength : ℕ)
    (known : Bool) : MsQuicSessionImpl :=
  if known then x.onDatagramStateChanged sendEnabled maxSendLength
  else { x with datagramStateKnown := false }

end MsQuicSessionImpl

/-- A session and what msquic has of it. -/
structure Link where
  session : MsQuicSessionImpl
  /-- How many handles and payloads there have been. -/
  handles : ℕ
  payloads : ℕ := 0
  /-- The payloads that streams and datagrams still need. -/
  sends : List ℕ := []
  datagrams : List ℕ := []
  finished : Bool := false
  /-- The handles of a listener, which closes them itself. -/
  borrowed : List HQUIC := []
  /-- The handles that a session left open when it was destroyed. -/
  leaked : List HQUIC := []

/-! ### The two constructors -/

/-- How msquic answers while a client connects. -/
structure ConnectAnswers where
  registrationOpen : QuicStatus := .success
  configurationOpen : QuicStatus := .success
  connectionOpen : QuicStatus := .success
  connectionSetConfiguration : QuicStatus := .success
  connectionStart : QuicStatus := .success

/-- A `std::runtime_error`; the status of the call ends its text. -/
structure RuntimeError where
  what : String
  rc : Option QuicStatus := none

/-- The constructor of a client's session. -/
def connect (apiOk : Bool) (a : ConnectAnswers) : Except RuntimeError Link × List Action :=
  if !apiOk then (.error ⟨"WebTransportMsQuicSession: msquic API not available", none⟩, [])
  else if a.registrationOpen.failed then
    (.error ⟨"MsQuicRegistrationOpen failed: ", a.registrationOpen⟩, [])
  else if a.configurationOpen.failed then
    (.error ⟨"MsQuicConfigurationOpen failed: ", a.configurationOpen⟩,
      [.registrationOpen 0, .registrationClose 0])
  else if a.connectionOpen.failed then
    (.error ⟨"MsQuicConnectionOpen failed: ", a.connectionOpen⟩,
      [.registrationOpen 0, .configurationOpen 1 0, .configurationClose 1, .registrationClose 0])
  else if a.connectionSetConfiguration.failed then
    (.error ⟨"MsQuicConnectionSetConfiguration failed: ", a.connectionSetConfiguration⟩,
      [.registrationOpen 0, .configurationOpen 1 0, .connectionOpen 2 0,
        .connectionSetConfiguration 2 1, .connectionClose 2, .configurationClose 1,
        .registrationClose 0])
  else if a.connectionStart.failed then
    (.error ⟨"MsQuicConnectionStart failed: ", a.connectionStart⟩,
      [.registrationOpen 0, .configurationOpen 1 0, .connectionOpen 2 0,
        .connectionSetConfiguration 2 1, .connectionStart 2 1, .connectionClose 2,
        .configurationClose 1, .registrationClose 0])
  else
    (.ok
      { session :=
          { registration := some 0, configuration := some 1, conn := some 2, state := .connecting
            ownsRegistration := true, ownsConfiguration := true, ownsConnection := true }
        handles := 3 },
      [.registrationOpen 0, .configurationOpen 1 0, .connectionOpen 2 0,
        .connectionSetConfiguration 2 1, .connectionStart 2 1])

/-- The constructor of a server's session, with what the listener did before. -/
def accept : Link × List Action :=
  ({ session :=
      { registration := some 0, configuration := some 1, conn := some 2, state := .connected }
     handles := 3
     borrowed := [0, 1, 2] },
    [.registrationOpen 0, .configurationOpen 1 0, .newConnection 2,
      .connectionSetConfiguration 2 1])

/-- A session that was constructed, and the actions up to then. -/
def Started (w : Link) (log : List Action) : Prop :=
  (∃ apiOk a, connect apiOk a = (.ok w, log)) ∨ accept = (w, log)

/-! ### The calls and the events -/

/-- What is answered to a stream that is opened: there is memory for the wrapper, `StreamOpen` gives
a handle, and the status of `StreamStart`. -/
structure OpenAnswers where
  wrapper : Bool := true
  streamOpen : Bool := true
  streamStart : QuicStatus := .success

/-- What is answered to a payload: there is memory for it, and the status of the send. -/
structure SendAnswers where
  payload : Bool := true
  rc : QuicStatus := .success

namespace Link

/-- `open_bidi_stream` and `open_uni_stream`. -/
def openStream (w : Link) (unidirectional : Bool) (a : OpenAnswers) : Link × List Action :=
  if w.session.state ≠ .connected ∨ w.session.closing ∨ !a.wrapper ∨ !a.streamOpen then (w, [])
  else
    let h := w.handles
    let s : QuicStream := { unidirectional, stream := some h }
    if a.streamStart.failed then
      -- the wrapper has the handle by now, and closes it again when it goes out of scope
      ({ w with handles := h + 1 },
        Action.streamOpen h :: .streamStart h a.streamStart :: .streamClose h :: s.destroy)
    else
      ({ w with handles := h + 1, session := w.session.pushStream s },
        [.streamOpen h, .streamStart h a.streamStart])

/-- What a failed stream call returns. -/
def streamStatus (rc : QuicStatus) : UInt32 :=
  if !rc.failed then kOk else if rc = .connectionIdle then kErrClosed else kErrInternal

/-- What a failed datagram call returns. -/
def datagramStatus (rc : QuicStatus) : UInt32 :=
  if !rc.failed then kOk
  else if rc = .connectionIdle then kErrClosed
  else if rc = .invalidState ∨ rc = .invalidParameter then kErrBufferTooSmall
  else kErrInternal

/-- A send on the stream `i`, which is `s` and has the handle `h`. -/
def sendOn (w : Link) (unidirectional : Bool) (i : ℕ) (s : QuicStream) (h : HQUIC)
    (rc : QuicStatus) : Link × List Action :=
  let payload := w.payloads
  let out := [Action.streamSend h unidirectional payload rc]
  if rc.failed then
    ({ w with payloads := payload + 1 }, out ++ [Action.releaseOutboundPayload payload])
  else
    ({ w with
        payloads := payload + 1
        sends := w.sends ++ [payload]
        session :=
          if unidirectional then w.session.setStream unidirectional i { s with closed := true }
          else w.session }, out)

/-- `send` on a stream of the session. -/
def send (w : Link) (unidirectional : Bool) (i : ℕ) (bytes : List UInt8) (a : SendAnswers) :
    Link × List Action :=
  match w.session.stream? unidirectional i with
  | none => (w, [])
  | some s =>
    match s.stream with
    | none => (w, [.returned kErrNotReady])
    | some h =>
      if s.closed then (w, [.returned kErrNotReady])
      else if bytes = [] then (w, [.returned kOk])
      else if !a.payload then (w, [.returned kErrInternal])
      else
        let (w, out) := w.sendOn unidirectional i s h a.rc
        (w, out ++ [Action.returned (streamStatus a.rc)])

/-- `send_datagram` -/
def sendDatagram (w : Link) (bytes : List UInt8) (a : SendAnswers) : Link × List Action :=
  if w.session.state ≠ .connected then (w, [.returned kErrNotReady])
  else if bytes = [] then (w, [.returned kOk])
  else if w.session.datagramStateKnown ∧ !w.session.datagramSendEnabled then
    (w, [.returned kErrBufferTooSmall])
  else if !a.payload then (w, [.returned kErrInternal])
  else
    let payload := w.payloads
    let out := [Action.datagramSend w.session.conn payload a.rc]
    if a.rc.failed then
      ({ w with payloads := payload + 1 },
        out ++ [Action.releaseOutboundPayload payload, .returned (datagramStatus a.rc)])
    else
      ({ w with payloads := payload + 1, datagrams := w.datagrams ++ [payload] },
        out ++ [Action.returned (datagramStatus a.rc)])

/-- A change of one stream, if there is such a stream. -/
def onStream (w : Link) (unidirectional : Bool) (i : ℕ)
    (f : QuicStream → QuicStream × List Action) : Link × List Action :=
  match w.session.stream? unidirectional i with
  | none => (w, [])
  | some s => ({ w with session := w.session.setStream unidirectional i (f s).1 }, (f s).2)

/-- A change of the session. -/
def onSession (w : Link) (f : MsQuicSessionImpl → MsQuicSessionImpl × List Action) :
    Link × List Action :=
  ({ w with session := (f w.session).1 }, (f w.session).2)

/-- The peer opens a stream; one that cannot be kept is shut down and closed. -/
def onPeerStreamStarted (w : Link) (unidirectional wrapper : Bool) : Link × List Action :=
  let h := w.handles
  if unidirectional ∨ !wrapper then
    ({ w with handles := h + 1 },
      [.peerStreamStarted h, .streamShutdown h [.abortSend, .abortReceive], .streamClose h])
  else
    ({ w with
        handles := h + 1
        session := w.session.pushStream
          { unidirectional := false, stream := some h, echo := !w.session.onPeerStreamCb } },
      [.peerStreamStarted h])

/-- The connection is over: streams and handles are closed. -/
def onShutdownComplete (w : Link) : Link × List Action :=
  let (w, out) := w.onSession fun x => { x with state := .closed }.clear
  let (w, out') := w.onSession MsQuicSessionImpl.closeHandles
  ({ w with finished := true }, out ++ out')

/-- The session goes away, and with it what it knew of its handles. -/
def forget (w : Link) : Link :=
  { w with finished := true, leaked := w.leaked ++ w.session.own, session := w.session.gone }

/-- The destructor. It shuts a connection down but does not close it, which is left to the end of the
connection. Nobody calls a session that is gone. -/
def destroy (w : Link) : Link × List Action :=
  let (w, out) := w.onSession MsQuicSessionImpl.close
  let (w, out') := w.onSession MsQuicSessionImpl.clear
  (w.forget, out ++ out')

/-- A chunk that arrives on a bidirectional stream, which may send it back. -/
def onReceive (w : Link) (i : ℕ) (bytes : List UInt8) (a : SendAnswers) : Link × List Action :=
  match w.session.stream? false i with
  | none => (w, [])
  | some s => if s.stream = none ∨ !s.echo ∨ bytes = [] then (w, []) else w.send false i bytes a

end Link

/-- What a connection, or one of its streams, reports. -/
inductive Report
  | connected
  | shutdownInitiatedByTransport
  | shutdownInitiatedByPeer
  | shutdownComplete
  | peerStreamStarted (unidirectional wrapper : Bool)
  | datagramStateChanged (sendEnabled : Bool) (maxSendLength : ℕ)
  | receive (i : ℕ) (bytes : List UInt8) (a : SendAnswers)
  | peerAborted (unidirectional : Bool) (i : ℕ)
  | streamShutdownComplete (unidirectional : Bool) (i : ℕ)

/-- What can happen to a session. -/
inductive Event
  | openStream (unidirectional : Bool) (a : OpenAnswers)
  | send (unidirectional : Bool) (i : ℕ) (bytes : List UInt8) (a : SendAnswers)
  | closeStream (unidirectional : Bool) (i : ℕ)
  | resetStream (unidirectional : Bool) (i : ℕ)
  | setOnData (i : ℕ)
  | setOnPeerStream (set : Bool)
  | seedDatagramState (sendEnabled : Bool) (maxSendLength : ℕ) (known : Bool)
  | sendDatagram (bytes : List UInt8) (a : SendAnswers)
  | close
  | destroy
  /-- `SEND_COMPLETE` for the payload `k` of those that streams need. -/
  | sendComplete (k : ℕ)
  /-- `DATAGRAM_SEND_STATE_CHANGED` for the payload `k` of those that datagrams need. -/
  | datagramSendStateChanged (k : ℕ) (isFinal : Bool)
  | report (r : Report)

namespace Link

/-- What msquic reports of the connection. -/
def report (w : Link) : Report → Link × List Action
  | .connected => w.onSession fun x => ({ x with state := .connected }, [])
  | .shutdownInitiatedByTransport => w.onSession fun x => ({ x with state := .failed }, [])
  | .shutdownInitiatedByPeer => w.onSession fun x => ({ x with state := .closing }, [])
  | .shutdownComplete => w.onShutdownComplete
  | .peerStreamStarted unidirectional wrapper => w.onPeerStreamStarted unidirectional wrapper
  | .datagramStateChanged sendEnabled maxSendLength =>
    w.onSession fun x => (x.onDatagramStateChanged sendEnabled maxSendLength, [])
  | .receive i bytes a => w.onReceive i bytes a
  | .peerAborted unidirectional i => w.onStream unidirectional i fun s => (s.onPeerAborted, [])
  | .streamShutdownComplete unidirectional i =>
    w.onStream unidirectional i QuicStream.onStreamClosed

/-- One event, and what is done. -/
def step (w : Link) : Event → Link × List Action
  | .openStream unidirectional a => w.openStream unidirectional a
  | .send unidirectional i bytes a => w.send unidirectional i bytes a
  | .closeStream unidirectional i => w.onStream unidirectional i QuicStream.close
  | .resetStream unidirectional i => w.onStream unidirectional i QuicStream.reset
  | .setOnData i => w.onStream false i fun s => ({ s with echo := false }, [])
  | .setOnPeerStream set => w.onSession fun x => ({ x with onPeerStreamCb := set }, [])
  | .seedDatagramState sendEnabled maxSendLength known =>
    w.onSession fun x => (x.seedDatagramState sendEnabled maxSendLength known, [])
  | .sendDatagram bytes a => w.sendDatagram bytes a
  | .close => w.onSession MsQuicSessionImpl.close
  | .destroy => w.destroy
  | .sendComplete k =>
    match w.sends[k]? with
    | none => (w, [])
    | some payload => ({ w with sends := w.sends.eraseIdx k }, [.releaseOutboundPayload payload])
  | .datagramSendStateChanged k isFinal =>
    match w.datagrams[k]? with
    | none => (w, [])
    | some payload =>
      if isFinal then
        ({ w with datagrams := w.datagrams.eraseIdx k }, [.releaseOutboundPayload payload])
      else (w, [])
  | .report r => if w.finished then (w, []) else w.report r

/-- The session under a list of events. -/
def machine : Machine Link Event Action := ⟨step⟩

/-- The handles other than those of streams that the session or its listener closes. -/
def base (w : Link) : List HQUIC :=
  w.session.own ++ w.borrowed

/-- The handles that are open and that the session or its listener still has. -/
def held (w : Link) : List HQUIC := w.session.streamHandles ++ w.base

end Link

/-- The session is destroyed before its connection has come to its end. -/
def destroyedFirst : List Event → Bool
  | [] => false
  | .destroy :: _ => true
  | .report .shutdownComplete :: _ => false
  | _ :: es => destroyedFirst es

namespace Action

/-- What a log does with a handle. -/
def uses (out : List Action) (h : HQUIC) : List Custody.Use := out.flatMap (·.on h)

/-- The streams that did not start. -/
def failed (out : List Action) : List HQUIC := out.flatMap failedStarts

/-- The payloads that are let go. -/
def released (out : List Action) : List ℕ := out.flatMap releases

end Action

/-- What has been done with a handle by the time of `w`: a stream that did not start was closed
twice, and any other handle is unknown, or held, or was given up, or is open and nobody has it. -/
def Accounted (w : Link) (out : List Action) (h : HQUIC) : Prop :=
  if h ∈ Action.failed out then
    h < w.handles ∧ h ∉ w.held ∧ Action.uses out h = [.opened, .used, .closed, .used, .closed]
  else
    (w.handles ≤ h ∧ Action.uses out h = [])
      ∨ (h ∈ w.held ∧ Custody.Held (Action.uses out h))
      ∨ (h < w.handles ∧ h ∉ w.held
        ∧ (Custody.GivenUp .closed (Action.uses out h) ∨ Custody.GivenUp .left (Action.uses out h)
          ∨ h ∈ w.leaked ∧ Custody.Held (Action.uses out h)))

/-- The payloads are those that were released and those that msquic still has, each of them once. -/
def Released (w : Link) (out : List Action) : Prop :=
  (Action.released out ++ (w.sends ++ w.datagrams)).Perm (List.range w.payloads)

end NimRtc.MsQuic
