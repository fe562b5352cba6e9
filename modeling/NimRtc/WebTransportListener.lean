import NimRtc.WebTransportSession

/-!
# The handles of a WebTransport server

`Impl` of `web_transport_msquic_listener.cpp`, with the connections that it accepts and the streams of
their HTTP/3 handlers, seen from msquic as a session is. Handles and payloads are numbers again. What
msquic answers and reports is up to the run: a connection that is closed reports no new streams, and a
stream that has shut down reports nothing more.
-/

namespace NimRtc.MsQuic

/-- What passes between a listener and msquic. -/
inductive ListenerAction
  | quic (a : Action)
  | configurationLoadCredential (configuration : HQUIC)
  | listenerOpen (listener registration : HQUIC)
  | listenerStart (listener : HQUIC)
  | listenerClose (listener : HQUIC)

/-- What is done with a handle. -/
def ListenerAction.on (h : HQUIC) : ListenerAction → List Custody.Use
  | quic a => a.on h
  | configurationLoadCredential configuration => if h = configuration then [.used] else []
  | listenerOpen listener registration =>
    if h = listener then [.opened] else if h = registration then [.used] else []
  | listenerStart listener => if h = listener then [.used] else []
  | listenerClose listener => if h = listener then [.closed] else []

/-- What a log does with a handle. -/
def listenerUses (out : List ListenerAction) (h : HQUIC) : List Custody.Use :=
  out.flatMap (ListenerAction.on h)

/-- The handles a listener keeps. -/
structure ListenerImpl where
  registration : Option HQUIC := none
  configuration : Option HQUIC := none
  listener : Option HQUIC := none
  connections : List HQUIC := []
  running : Bool := false
  stopped : Bool := false

/-- A listener and what msquic has of it. -/
structure Server where
  impl : ListenerImpl
  /-- How many handles and payloads there have been. -/
  handles : ℕ
  payloads : ℕ := 0
  /-- The connections that report to their `ServerConnCtx`. -/
  contexts : List HQUIC := []
  /-- The streams that report to an `Http3Handler`, with its connection. -/
  streams : List (HQUIC × HQUIC) := []
  /-- The payloads that streams still need. -/
  sends : List ℕ := []
  /-- The connections that msquic did not give the configuration. -/
  refused : List HQUIC := []

/-! ### The constructor -/

/-- How msquic answers while the listener starts. -/
structure ListenAnswers where
  registrationOpen : QuicStatus := .success
  configurationOpen : QuicStatus := .success
  /-- `load_tls_credential` found the credential. -/
  credentialFound : Bool := true
  configurationLoadCredential : QuicStatus := .success
  /-- The status of `ListenerOpen`, and that it gave a handle. -/
  listenerOpen : QuicStatus := .success
  listenerGiven : Bool := true
  listenerStart : QuicStatus := .success

/-- A `std::runtime_error`; the status of the call follows its text, and then the port. -/
structure ListenError where
  what : String
  rc : Option QuicStatus := none
  port : Option UInt16 := none

/-- A listener that came up. -/
def listening : Server :=
  { impl := { registration := some 0, configuration := some 1, listener := some 2, running := true }
    handles := 3 }

/-- The constructor of `Impl`. -/
def listen (apiOk : Bool) (port : UInt16) (a : ListenAnswers) :
    Except ListenError Server × List ListenerAction :=
  let opened := [ListenerAction.quic (.registrationOpen 0), .quic (.configurationOpen 1 0)]
  let closed := [ListenerAction.quic (.configurationClose 1), .quic (.registrationClose 0)]
  if !apiOk then (.error ⟨"WebTransport listener: msquic API not available", none, none⟩, [])
  else if a.registrationOpen.failed then
    (.error ⟨"MsQuicRegistrationOpen failed: ", a.registrationOpen, none⟩, [])
  else if a.configurationOpen.failed then
    (.error ⟨"MsQuicConfigurationOpen failed: ", a.configurationOpen, none⟩,
      [.quic (.registrationOpen 0), .quic (.registrationClose 0)])
  else if !a.credentialFound then
    (.error ⟨"WebTransport listener: failed to load TLS credentials", none, none⟩, opened ++ closed)
  else
    let opened := opened ++ [ListenerAction.configurationLoadCredential 1]
    if a.configurationLoadCredential.failed then
      (.error ⟨"WebTransport listener: failed to load TLS credentials", none, none⟩,
        opened ++ closed)
    else if a.listenerOpen.failed ∨ !a.listenerGiven then
      (.error ⟨"MsQuicListenerOpen failed: ", a.listenerOpen, none⟩, opened ++ closed)
    else
      let opened := opened ++ [ListenerAction.listenerOpen 2 0, .listenerStart 2]
      if a.listenerStart.failed then
        (.error ⟨"MsQuicListenerStart failed: ", a.listenerStart, port⟩,
          opened ++ ListenerAction.listenerClose 2 :: closed)
      else (.ok listening, opened)

/-! ### The callbacks and `stop` -/

/-- What is answered to a stream that is opened for the settings. -/
structure ControlAnswers where
  streamOpen : Bool := true
  streamStart : QuicStatus := .success
  streamSend : QuicStatus := .success

/-- What can happen to a listener that has started. -/
inductive ServerEvent
  | newConnection (connectionSetConfiguration : QuicStatus)
  | connected (conn : HQUIC) (a : ControlAnswers)
  | peerStreamStarted (conn : HQUIC)
  /-- A stream comes to the request for a session, which is answered with this status. -/
  | request (stream : HQUIC) (streamSend : QuicStatus)
  /-- `SEND_COMPLETE` for the payload `k` of those that streams need. -/
  | sendComplete (k : ℕ)
  | streamShutdownComplete (stream : HQUIC)
  | shutdownComplete (conn : HQUIC)
  | stop

namespace Server

/-- A connection comes, is configured, and is kept in either case. -/
def newConnection (w : Server) (rc : QuicStatus) : Server × List ListenerAction :=
  match w.impl.listener, w.impl.configuration with
  | some _, some configuration =>
    let h := w.handles
    let w : Server :=
      { w with handles := h + 1, impl := { w.impl with connections := w.impl.connections ++ [h] } }
    let out := [ListenerAction.quic (.newConnection h),
      .quic (.connectionSetConfiguration h configuration)]
    if rc.failed then
      -- it is closed, and stays among the connections
      ({ w with refused := w.refused ++ [h] }, out ++ [ListenerAction.quic (.connectionClose h)])
    else ({ w with contexts := w.contexts ++ [h] }, out)
  | _, _ => (w, [])

/-- A connection that is open and reports to its `ServerConnCtx`. -/
def Reports (w : Server) (conn : HQUIC) : Prop := conn ∈ w.contexts ∧ conn ∈ w.impl.connections

instance (w : Server) (conn : HQUIC) : Decidable (w.Reports conn) :=
  inferInstanceAs (Decidable (_ ∧ _))

/-- `send_settings`, when the handshake is complete. -/
def sendSettings (w : Server) (conn : HQUIC) (a : ControlAnswers) : Server × List ListenerAction :=
  if !a.streamOpen then (w, [])
  else
    let h := w.handles
    let payload := w.payloads
    let out := [ListenerAction.quic (.streamOpen h), .quic (.streamStart h a.streamStart)]
    if a.streamStart.failed then
      ({ w with handles := h + 1 }, out ++ [ListenerAction.quic (.streamClose h)])
    else
      let out := out ++ [ListenerAction.quic (.streamSend h false payload a.streamSend)]
      if a.streamSend.failed then
        ({ w with handles := h + 1, payloads := payload + 1 },
          out ++ [ListenerAction.quic (.releaseOutboundPayload payload), .quic (.streamClose h)])
      else
        ({ w with
            handles := h + 1
            payloads := payload + 1
            streams := w.streams ++ [(h, conn)]
            sends := w.sends ++ [payload] }, out)

/-- A connection is established and gets its settings. -/
def connected (w : Server) (conn : HQUIC) (a : ControlAnswers) : Server × List ListenerAction :=
  if w.Reports conn then w.sendSettings conn a else (w, [])

/-- The peer opens a stream. -/
def peerStreamStarted (w : Server) (conn : HQUIC) : Server × List ListenerAction :=
  if w.Reports conn then
    ({ w with handles := w.handles + 1, streams := w.streams ++ [(w.handles, conn)] },
      [.quic (.peerStreamStarted w.handles)])
  else (w, [])

/-- The answer to a request. The session that comes of it takes the reports of the connection over. -/
def request (w : Server) (stream : HQUIC) (rc : QuicStatus) : Server × List ListenerAction :=
  match w.streams.find? (·.1 = stream) with
  | none => (w, [])
  | some (h, conn) =>
    let payload := w.payloads
    let out := [ListenerAction.quic (.streamSend h false payload rc)]
    if rc.failed then
      ({ w with payloads := payload + 1 },
        out ++ [ListenerAction.quic (.releaseOutboundPayload payload)])
    else
      ({ w with
          payloads := payload + 1
          sends := w.sends ++ [payload]
          contexts := w.contexts.filter (· ≠ conn) }, out)

/-- msquic is done with a payload. -/
def sendComplete (w : Server) (k : ℕ) : Server × List ListenerAction :=
  match w.sends[k]? with
  | none => (w, [])
  | some payload =>
    ({ w with sends := w.sends.eraseIdx k }, [.quic (.releaseOutboundPayload payload)])

/-- `on_stream_closed`. -/
def onStreamClosed (w : Server) (stream : HQUIC) : Server × List ListenerAction :=
  if stream ∈ w.streams.map (·.1) then
    ({ w with streams := w.streams.filter (·.1 ≠ stream) }, [.quic (.streamClose stream)])
  else (w, [])

/-- `stop`: every handle that is kept is closed. -/
def stop (w : Server) : Server × List ListenerAction :=
  if w.impl.stopped then (w, [])
  else
    ({ w with impl := { stopped := true } },
      w.impl.listener.toList.map ListenerAction.listenerClose
        ++ (w.impl.connections.map fun conn => ListenerAction.quic (.connectionClose conn))
        ++ (w.impl.configuration.toList.map fun c => ListenerAction.quic (.configurationClose c))
        ++ w.impl.registration.toList.map fun r => ListenerAction.quic (.registrationClose r))

/-- One event, and what is done about it. -/
def step (w : Server) : ServerEvent → Server × List ListenerAction
  | .newConnection rc => w.newConnection rc
  | .connected conn a => w.connected conn a
  | .peerStreamStarted conn => w.peerStreamStarted conn
  | .request stream rc => w.request stream rc
  | .sendComplete k => w.sendComplete k
  | .streamShutdownComplete stream => w.onStreamClosed stream
  | .shutdownComplete conn => ({ w with contexts := w.contexts.filter (· ≠ conn) }, [])
  | .stop => w.stop

/-- The listener under a list of events. -/
def machine : Machine Server ServerEvent ListenerAction := ⟨step⟩

/-- What `stop` closes. -/
def closing (w : Server) : List HQUIC :=
  w.impl.listener.toList ++ w.impl.connections ++ w.impl.configuration.toList
    ++ w.impl.registration.toList

/-- The handles that are open. -/
def held (w : Server) : List HQUIC := w.streams.map (·.1) ++ w.closing.filter (· ∉ w.refused)

/-- What was done with a handle. A connection that did not get the configuration was closed, and
`stop` closes it again. -/
def Accounted (w : Server) (us : List Custody.Use) (h : HQUIC) : Prop :=
  if h ∈ w.refused then us = [.opened, .used, .closed] ++ if w.impl.stopped then [.closed] else []
  else
    (w.handles ≤ h ∧ us = []) ∨ (h ∈ w.held ∧ Custody.Held us)
      ∨ (h < w.handles ∧ h ∉ w.held ∧ Custody.GivenUp .closed us)

end Server

end NimRtc.MsQuic
