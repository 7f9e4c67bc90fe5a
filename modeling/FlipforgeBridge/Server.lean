import FlipforgeBridge.RpcProxy

/-! `bridge_server.c`: the accept loop, the client task and its management requests. -/
namespace FlipforgeBridge

structure ClientContext where
  socket : ℕ
  pairingSecret : Vector UInt8 bridgePairingSecretBytes

/-- The answer `send_response` builds. -/
def responseTo (request : BridgeMessage) (status : BridgeStatus) (payload : List UInt8) :
    BridgeMessage where
  version := flipforgeBridgeProtocolVersion
  command := request.command
  flags := bridgeManagementResponseFlag
  status := status
  requestId := request.requestId
  payload := payload

def sendResponse (socket : ℕ) (request : BridgeMessage) (status : BridgeStatus)
    (payload : List UInt8) : Routine EspErr := do
  op (.mark (.respond request status payload))
  if bridgeManagementMaxPayload < payload.length then return .invalidSize
  match bridgeMessageEncode (responseTo request status payload) bridgeManagementFrameSize with
  | none => return .invalidArg
  | some encoded => sendAll socket encoded

theorem sendResponse_only {allowed : Op → Prop} {socket : ℕ} {request : BridgeMessage}
    {status : BridgeStatus} {payload : List UInt8}
    (hmark : allowed (.mark (.respond request status payload)))
    (hsend : ∀ bytes, allowed (.send socket bytes)) :
    (sendResponse socket request status payload).Only allowed := by
  refine only_op hmark fun _ => ?_
  split
  · exact only_pure
  · split
    · exact only_pure
    · exact sendAll_only hsend _

/-- The characters of an ASCII string. -/
def asciiBytes (text : String) : List UInt8 := text.toList.map fun c => c.toNat.toUInt8

/-- The text `GetBridgeInfo` prints. -/
def bridgeInfoJson (uptimeMs : UInt64) (wifiStarted : Bool) (state : ExpansionState)
    (baud : UInt32) : String :=
  "\x7b\"product\":\"" ++ flipforgeBridgeProduct ++ "\",\"version\":\"" ++ flipforgeBridgeVersion ++
  "\",\"protocol\":" ++ Nat.repr flipforgeBridgeProtocolVersion.toNat ++
  ",\"chip\":\"ESP32-S2\",\"uptime_ms\":" ++ Nat.repr uptimeMs.toNat ++
  ",\"wifi\":\"" ++ (if wifiStarted then "softap" else "stopped") ++
  "\",\"expansion\":\"" ++ expansionTransportStateName state ++
  "\",\"baud\":" ++ Nat.repr baud.toNat ++ ",\"rpc_proxy\":false\x7d"

/-- The text `GetStatus` prints. -/
def statusJson (state : ExpansionState) (baud : UInt32) (metrics : BridgeMetricsSnapshot) :
    String :=
  "\x7b\"expansion\":\"" ++ expansionTransportStateName state ++
  "\",\"baud\":" ++ Nat.repr baud.toNat ++
  ",\"tcp_rx\":" ++ Nat.repr metrics.tcpRxBytes.toNat ++
  ",\"tcp_tx\":" ++ Nat.repr metrics.tcpTxBytes.toNat ++
  ",\"rpc_rx\":" ++ Nat.repr metrics.rpcPayloadRxBytes.toNat ++
  ",\"rpc_tx\":" ++ Nat.repr metrics.rpcPayloadTxBytes.toNat ++
  ",\"retries\":" ++ Nat.repr metrics.retries.toNat ++
  ",\"errors\":" ++ Nat.repr metrics.protocolErrors.toNat ++ "\x7d"

/-- `(unsigned long long)(esp_timer_get_time() / 1000LL)` -/
def uptimeMsOf (nowUs : ℤ) : UInt64 := ((nowUs.tdiv 1000) % 2 ^ 64).toNat.toUInt64

/-! Handlers return the error, the session they leave and whether raw mode begins. -/

def answer (socket : ℕ) (session : BridgeSession) (request : BridgeMessage)
    (status : BridgeStatus) (payload : List UInt8) : Routine (EspErr × BridgeSession × Bool) := do
  let error ← sendResponse socket request status payload
  return (error, session, false)

/-- A JSON text goes out if `snprintf` had room for it. -/
def answerJson (socket : ℕ) (session : BridgeSession) (request : BridgeMessage) (json : String) :
    Routine (EspErr × BridgeSession × Bool) :=
  if bridgeManagementMaxPayload ≤ (asciiBytes json).length then
    pure (.invalidSize, session, false)
  else answer socket session request .ok (asciiBytes json)

/-- `case BridgeCommandGetBridgeInfo`. The arguments of `snprintf` are read in the order in which
they are written; C leaves the order open. -/
def getBridgeInfo (transport : TransportApi) (socket : ℕ) (session : BridgeSession)
    (request : BridgeMessage) : Routine (EspErr × BridgeSession × Bool) :=
  if request.payload.length ≠ 0 then answer socket session request .malformed []
  else do
    let nowUs : ℤ ← op .timerGetTime
    let wifiStarted : Bool ← op .wifiIsStarted
    let state ← transport.state
    let baud ← transport.negotiatedBaud
    answerJson socket session request (bridgeInfoJson (uptimeMsOf nowUs) wifiStarted state baud)

/-- `case BridgeCommandGetStatus`, with the arguments read in this order, too. -/
def getStatus (transport : TransportApi) (socket : ℕ) (session : BridgeSession)
    (request : BridgeMessage) : Routine (EspErr × BridgeSession × Bool) :=
  if request.payload.length ≠ 0 then answer socket session request .malformed []
  else do
    let metrics : BridgeMetricsSnapshot ← op .metricsSnapshot
    let state ← transport.state
    let baud ← transport.negotiatedBaud
    answerJson socket session request (statusJson state baud metrics)

/-- `case BridgeCommandBeginRpcProxy` -/
def beginRpcProxy (transport : TransportApi) (socket : ℕ) (session : BridgeSession)
    (request : BridgeMessage) : Routine (EspErr × BridgeSession × Bool) := do
  let refused ← (if request.payload.length ≠ 0 then pure true else do
    let state ← transport.state
    pure (decide (state ≠ .ready)))
  if refused then
    transport.requestReconnect
    answer socket session request .unavailable []
  else
    let error ← transport.beginRpc
    if error ≠ .ok then answer socket session request .unavailable []
    else match bridgeSessionBeginProxy session with
      | none =>
        let _stopped ← transport.endRpc
        return (.invalidState, session, false)
      | some session =>
        let error ← sendResponse socket request .ok []
        if error ≠ .ok then
          let _stopped ← transport.endRpc
          return (error, session, false)
        return (error, session, true)

/-- `case BridgeCommandEndRpcProxy` -/
def endRpcProxy (socket : ℕ) (session : BridgeSession) (request : BridgeMessage) :
    Routine (EspErr × BridgeSession × Bool) :=
  if request.payload.length ≠ 0 then answer socket session request .malformed []
  else answer socket session request .ok []

def handleAuthenticatedCommand (transport : TransportApi) (context : ClientContext)
    (session : BridgeSession) (request : BridgeMessage) :
    Routine (EspErr × BridgeSession × Bool) :=
  if session.state ≠ .authenticated then answer context.socket session request .unauthorized []
  else if request.command = BridgeCommand.getBridgeInfo.toByte then
    getBridgeInfo transport context.socket session request
  else if request.command = BridgeCommand.getStatus.toByte then
    getStatus transport context.socket session request
  else if request.command = BridgeCommand.ping.toByte then
    answer context.socket session request .ok request.payload
  else if request.command = BridgeCommand.beginRpcProxy.toByte then
    beginRpcProxy transport context.socket session request
  else if request.command = BridgeCommand.endRpcProxy.toByte then
    endRpcProxy context.socket session request
  else answer context.socket session request .invalidState []

/-- The `BridgeCommandHello` branch of `handle_management_message`. -/
def handleHello (socket : ℕ) (session : BridgeSession) (request : BridgeMessage) :
    Routine (EspErr × BridgeSession × Bool) :=
  if request.payload.length ≠ bridgeNonceBytes then
    answer socket session request .invalidState []
  else match bridgeSessionAcceptHello session (request.payloadArray bridgeNonceBytes) with
    | none => answer socket session request .invalidState []
    | some session =>
      answer socket session request .ok (session.bridgeNonce.toList ++ session.sessionId.toList)

/-- The `BridgeCommandAuthenticate` branch of `handle_management_message`. -/
def handleAuthenticate (context : ClientContext) (session : BridgeSession)
    (request : BridgeMessage) : Routine (EspErr × BridgeSession × Bool) :=
  if session.state ≠ .awaitingAuthentication ∨ request.payload.length ≠ bridgeHmacBytes then
    answer context.socket session request .invalidState []
  else do
    let expected : Option (Vector UInt8 bridgeHmacBytes) ←
      op (.hmacSha256 context.pairingSecret (bridgeSessionAuthMaterial session 128))
    match expected.bind fun expected =>
        bridgeSessionAuthenticate session expected (request.payloadArray bridgeHmacBytes) with
    | none =>
      let _sent ← sendResponse context.socket request .unauthorized []
      return (.invalidCrc, session, false)
    | some session => answer context.socket session request .ok []

def handleManagementMessage (transport : TransportApi) (context : ClientContext)
    (session : BridgeSession) (request : BridgeMessage) :
    Routine (EspErr × BridgeSession × Bool) :=
  if request.flags ≠ 0 ∨ request.status ≠ .ok then
    answer context.socket session request .malformed []
  else if !bridgeProtocolVersionSupported request.version then
    answer context.socket session request .unsupportedProtocol []
  else if request.command = BridgeCommand.hello.toByte then
    handleHello context.socket session request
  else if request.command = BridgeCommand.authenticate.toByte then
    handleAuthenticate context session request
  else handleAuthenticatedCommand transport context session request

/-- Record a request, the session it meets and what becomes of it. -/
def tracedHandle (transport : TransportApi) (context : ClientContext) (session : BridgeSession)
    (request : BridgeMessage) : Routine (EspErr × BridgeSession × Bool) := do
  op (.mark (.handle session request))
  let (error, after, beginProxy) ← handleManagementMessage transport context session request
  op (.mark (.handled session request after error beginProxy))
  return (error, after, beginProxy)

/-- The inner loop of `client_task` over one received chunk; the flag tells whether the
connection is finished. -/
def handleInput (transport : TransportApi) (context : ClientContext) (input : List UInt8)
    (session : BridgeSession) (decoder : BridgeMessageDecoder) :
    Routine (BridgeSession × BridgeMessageDecoder × Bool) :=
  .loop (session, decoder, 0) fun (session, decoder, offset) => do
    if ¬ offset < input.length then return .inr (session, decoder, false)
    let (decoded, consumed, decoder) := bridgeMessageDecoderPush decoder (input.drop offset)
    let offset := offset + consumed
    match decoded with
    | .ready request =>
      let (error, session, beginProxy) ← tracedHandle transport context session request
      if error ≠ .ok then return .inr (session, decoder, true)
      if beginProxy then
        let _result ← rpcProxyRun transport context.socket (input.drop offset)
        return .inr (session, decoder, true)
      return .inl (session, decoder, offset)
    | .malformed | .tooLarge =>
      let fallback : BridgeMessage := {
        version := flipforgeBridgeProtocolVersion
        command := BridgeCommand.hello.toByte }
      let _sent ← sendResponse context.socket fallback
        (if decoded = .tooLarge then .tooLarge else .malformed) []
      return .inr (session, decoder, true)
    | .needMore => return .inl (session, decoder, offset)

def clientTask (transport : TransportApi) (context : ClientContext) : Routine Unit := do
  op (.setSocketTimeouts context.socket)
  let bridgeNonce : Vector UInt8 bridgeNonceBytes ← op (.fillRandom bridgeNonceBytes)
  let sessionId : Vector UInt8 bridgeSessionIdBytes ← op (.fillRandom bridgeSessionIdBytes)
  let session := bridgeSessionInit bridgeNonce sessionId
  op (.mark (.session session))
  let startedUs : ℤ ← op .timerGetTime
  let session ← .loop (session, bridgeMessageDecoderReset, startedUs)
    fun (session, decoder, lastActivityUs) => do
      let received : RecvResult ← op (.recv context.socket bridgeTcpReadBytes)
      match received with
      | .closed => return .inr session
      | .error errno =>
        if errno = .eintr then return .inl (session, decoder, lastActivityUs)
        let idle ← (if errno = .eagain then do
            let nowUs : ℤ ← op .timerGetTime
            pure (decide (nowUs - lastActivityUs < bridgeClientIdleTimeoutMs * 1000))
          else pure false)
        return if idle then .inl (session, decoder, lastActivityUs) else .inr session
      | .data input =>
        let nowUs : ℤ ← op .timerGetTime
        let (session, decoder, finished) ← handleInput transport context input session decoder
        return if finished then .inr session else .inl (session, decoder, nowUs)
  op (.mark (.session (bridgeSessionClose session)))
  op (.shutdown context.socket)
  op (.close context.socket)
  op .releaseClient
  op .taskDeleteSelf

def rejectBusyClient (socket : ℕ) : Routine Unit := do
  op (.setSocketTimeouts socket)
  let request : BridgeMessage := {
    version := flipforgeBridgeProtocolVersion
    command := BridgeCommand.hello.toByte }
  let _sent ← sendResponse socket request .busy []
  op (.shutdown socket)
  op (.close socket)

/-- The `for(;;)` of `server_task`. -/
def acceptLoop : Routine Unit :=
  .loop () fun _ => do
    let accepted : Except Errno ℕ ← op .accept
    match accepted with
    | .error errno =>
      (if errno = .eintr then pure () else op (.delay 250))
      return (.inl () : Unit ⊕ Unit)
    | .ok socket =>
      let claimed : Bool ← op .claimClient
      if !claimed then
        rejectBusyClient socket
        return .inl ()
      let allocated : Bool ← op .callocContext
      if !allocated then
        op (.close socket)
        op .releaseClient
        return .inl ()
      let created : Bool ← op (.taskCreate (.client socket))
      (if created then pure () else do
        op (.close socket)
        op .releaseClient)
      return .inl ()

def serverTask : Routine Unit := do
  let listening : Bool ← op .listen
  (if listening then acceptLoop else pure ())
  op .taskDeleteSelf

end FlipforgeBridge
