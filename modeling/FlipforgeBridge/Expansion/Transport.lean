import FlipforgeBridge.Io

/-!
`expansion_transport.c`: the link to the Flipper. Metrics counters, log lines and the activity
LED are left out, since nothing here reads them; everything else follows the source statement by
statement. A `status` the source leaves uninitialised is `unknown`; no caller reads it.
-/
namespace FlipforgeBridge

def transportApply (event : ExpansionEvent) : Routine (Bool × ExpansionAction) :=
  locked (.apply event)

def expansionTransportState : Routine ExpansionState := locked .state

def expansionTransportNegotiatedBaud : Routine UInt32 := locked .negotiatedBaud

def expansionTransportStateName : ExpansionState → String
  | .disconnected => "disconnected"
  | .initialUart => "initial_uart"
  | .negotiatingBaud => "negotiating_baud"
  | .ready => "ready"
  | .startingRpc => "starting_rpc"
  | .rpcReady => "rpc_ready"
  | .stoppingRpc => "stopping_rpc"
  | .backoff => "backoff"

/-- The bits read first only decide whether the loss is logged. -/
def signalLinkLost (reason : LossReason) : Routine Unit := do
  let _previous ← op .eventBits
  op (.setLost reason)

def uartConfigure (baud : UInt32) : Routine EspErr := do
  let error : EspErr ← op (.uartParamConfig baud)
  let error ← (if error = .ok then op .uartSetPin else pure error)
  if error = .ok then op .uartFlushInput else return error

def sendFrame (frame : ExpansionFrame) : Routine EspErr := do
  match expansionProtocolEncode frame expansionFrameSize with
  | none => return .invalidArg
  | some encoded =>
    let taken : Bool ← op .takeTxMutex
    if !taken then return .timeout
    let written : ℤ ← op (.uartWriteBytes encoded)
    let error ← (if written = encoded.length then op .uartWaitTxDone else pure .fail)
    let _now ← (if error = .ok then locked .markTxActivity else pure 0)
    op .giveTxMutex
    return error

def sendStatus (status : ExpansionFrameError) : Routine EspErr := sendFrame (.status status)

/-- Bytes are read until a frame, a decoding error, a driver error or the deadline. -/
def receiveFrameSync (timeoutMs : ℕ) : Routine (Except EspErr ExpansionFrame) := do
  let now : ℤ ← op .timerGetTime
  let deadline := now + timeoutMs * 1000
  .loop expansionDecoderReset fun decoder => do
    let now : ℤ ← op .timerGetTime
    if ¬ now < deadline then return .inr (.error .timeout)
    let read : UartRead ← op .uartReadByte
    match read with
    | .error => return .inr (.error .fail)
    | .nothing => return .inl decoder
    | .byte byte =>
      let (result, decoder) := expansionDecoderPush decoder byte
      match result with
      | .frameReady frame =>
        let _now ← locked .markRxActivity
        return .inr (.ok frame)
      | .malformed | .checksumError =>
        let _sent ← sendStatus .unknown
        return .inr (.error .invalidResponse)
      | .needMore => return .inl decoder

/-- `while(xSemaphoreTake(transport->status_semaphore, 0U) == pdTRUE) {}` -/
def drainStatus : Routine Unit :=
  .loop () fun _ => do
    let taken : Bool ← op .pollStatus
    return if taken then .inl () else .inr ()

def sendWaitStatus (frame : ExpansionFrame) : Routine (EspErr × ExpansionFrameError) := do
  let taken : Bool ← op .takeRequestMutex
  if !taken then return (.timeout, .unknown)
  drainStatus
  locked .armRequest
  let _started ← op .timerGetTime
  let error ← sendFrame frame
  let error ← (if error = .ok then do
      let answered : Bool ← op .waitStatus
      pure (if answered then .ok else .timeout)
    else pure error)
  let _now ← op .timerGetTime
  let status ← locked .disarmRequest
  op .giveRequestMutex
  return (error, status)

/-- What `expansion_rx_task` does with a complete frame; false ends the task. -/
def handleRxFrame (frame : ExpansionFrame) : Routine Bool := do
  op (.mark (.frame frame))
  let _now ← locked .markRxActivity
  match frame with
  | .heartbeat => return true
  | .status status =>
    let expected ← locked (.offerStatus status)
    if expected then
      op .giveStatus
      return true
    signalLinkLost .unsolicitedStatus
    return false
  | .data bytes =>
    let state ← expansionTransportState
    if state ≠ .rpcReady then
      signalLinkLost .unexpectedFrame
      return false
    let used : ℕ ← op .streamBytesAvailable
    if !bridgeIoBufferCanAccept used bytes.length bridgeRpcRxBufferBytes then
      let _sent ← sendStatus .unknown
      signalLinkLost .rpcRxOverflow
      return false
    let sent : ℕ ← op (.streamSend bytes)
    if sent ≠ bytes.length then
      signalLinkLost .rpcRxOverflow
      return false
    let error ← sendStatus .none
    if error ≠ .ok then
      signalLinkLost .dataAck
      return false
    return true
  | .baudRate _ | .control _ =>
    signalLinkLost .unexpectedFrame
    return false

def expansionRxTask : Routine Unit := do
  .loop expansionDecoderReset fun decoder => do
    let bits : EventBits ← op .eventBits
    if bits.stop || bits.lost then return .inr ()
    let read : UartRead ← op .uartReadByte
    match read with
    | .error =>
      signalLinkLost .uartRead
      return .inr ()
    | .nothing => return .inl decoder
    | .byte byte =>
      let (result, decoder) := expansionDecoderPush decoder byte
      match result with
      | .needMore => return .inl decoder
      | .checksumError =>
        signalLinkLost .checksum
        return .inr ()
      | .malformed =>
        signalLinkLost .frame
        return .inr ()
      | .frameReady frame =>
        let goOn ← handleRxFrame frame
        return if goOn then .inl decoder else .inr ()
  op (.clearTaskHandle .rx)
  op .taskDeleteSelf

def expansionHeartbeatTask : Routine Unit := do
  .loop () fun _ => do
    let bits : EventBits ← op .eventBits
    if bits.stop || bits.lost then return .inr ()
    let now : ℤ ← op .timerGetTime
    let (lastRxUs, lastTxUs, requestPending) ← locked .activity
    if now - lastRxUs > bridgeExpansionTimeoutMs * 1000 then
      signalLinkLost .heartbeatTimeout
      return .inr ()
    if now - lastTxUs ≥ bridgeExpansionHeartbeatMs * 1000 then
      if requestPending then
        op (.delay (bridgeExpansionHeartbeatMs / 4))
        return .inl ()
      let error ← sendFrame .heartbeat
      if error ≠ .ok then
        signalLinkLost .heartbeatSend
        return .inr ()
    op (.delay (bridgeExpansionHeartbeatMs / 4))
    return .inl ()
  op (.clearTaskHandle .heartbeat)
  op .taskDeleteSelf

def releaseExpansionPins : Routine Unit := do
  let _tx ← op .gpioResetTx
  let _rx ← op .gpioResetRx

def pulseFlipperRx : Routine EspErr := do
  let error : EspErr ← op .gpioResetTx
  if error ≠ .ok then return error
  let error : EspErr ← op .gpioSetTxDirection
  if error ≠ .ok then return error
  let error : EspErr ← op (.gpioSetTxLevel true)
  if error ≠ .ok then return error
  let error : EspErr ← op (.gpioSetTxLevel false)
  if error ≠ .ok then return error
  op (.delay bridgeExpansionDetectPulseMs)
  op (.gpioSetTxLevel true)

/-- The accepted branch of the negotiation: switch the UART and record the rate. -/
def switchBaud (baud : UInt32) : Routine EspErr := do
  op (.delay bridgeExpansionBaudDeadTimeMs)
  let error : EspErr ← op (.uartSetBaudrate baud)
  if error ≠ .ok then return error
  locked (.storeBaud baud)
  let _now ← locked .restartActivity
  return .ok

/-- The `for` loop of `establish_expansion` over the rates still to be tried. -/
def negotiateBaud : List UInt32 → Routine EspErr
  | [] => pure .notSupported
  | baud :: rest => do
    let error ← sendFrame (.baudRate baud)
    if error ≠ .ok then return error
    let response ← receiveFrameSync bridgeExpansionTimeoutMs
    match response with
    | .ok (.status .baudRate) =>
      let _rejected ← transportApply .baudRejected
      negotiateBaud rest
    | .ok (.status .none) =>
      let (accepted, _) ← transportApply .baudAccepted
      if !accepted then return .invalidResponse
      switchBaud baud
    | _ => return .invalidResponse

def establishExpansion : Routine EspErr := do
  locked .restart
  let (accepted, action) ← transportApply .start
  if !accepted || action ≠ .detectPulse then return .fail
  let error ← uartConfigure bridgeExpansionInitialBaud
  if error ≠ .ok then return error
  let error ← pulseFlipperRx
  if error ≠ .ok then return error
  let error : EspErr ← op .uartSetPin
  if error ≠ .ok then return error
  let response ← receiveFrameSync bridgeExpansionTimeoutMs
  match response with
  | .ok .heartbeat =>
    let (accepted, _) ← transportApply .heartbeatReceived
    if !accepted then return .fail
    negotiateBaud bridgePreferredBaudRates
  | _ => return .timeout

/-- `if(handle) { vTaskDelete(handle); handle = NULL; }`, with the handle read twice. -/
def deleteIoTask (kind : TaskKind) : Routine Unit := do
  let handle : Option ℕ ← op (.taskHandle kind)
  if handle.isSome then
    let handle : Option ℕ ← op (.taskHandle kind)
    op (.taskDelete kind handle)
    op (.clearTaskHandle kind)

def stopIoTasks : Routine Unit := do
  .loop (0 : ℕ) fun wait => do
    if ¬ wait < 25 then return .inr ()
    let rx : Option ℕ ← op (.taskHandle .rx)
    let busy ← (if rx.isSome then pure true else do
      let heartbeat : Option ℕ ← op (.taskHandle .heartbeat)
      pure heartbeat.isSome)
    if !busy then return .inr ()
    op (.delay 10)
    return .inl (wait + 1)
  deleteIoTask .rx
  deleteIoTask .heartbeat

/-- `establish_expansion` is a parameter, so that the retry policy can also be studied for
arbitrary outcomes. -/
def expansionSupervisorTask (establishExpansion : Routine EspErr) : Routine Unit := do
  op .clearReconnect
  op (.delay bridgeExpansionStartupDelayMs)
  .loop (0 : ℕ) fun attempts => do
    let running : Bool ← op .running
    if !running then return .inr ()
    let waited ← (if bridgeExpansionMaxRetries ≤ attempts then do
        releaseExpansionPins
        let wake : EventBits ← op .waitRetry
        pure (if wake.stop then none else some 0)
      else pure (some attempts))
    match waited with
    | none => return .inr ()
    | some attempts =>
      op .clearLostReady
      let error ← establishExpansion
      if error ≠ .ok then
        releaseExpansionPins
        let _timeout ← transportApply .timeout
        op (.delay (bridgeExpansionRetryBaseMs * (attempts + 1)))
        return .inl (attempts + 1)
      let attempts := 0
      op .streamReset
      let rx : Bool ← op (.taskCreate .rx)
      let created : Bool ← (if rx then op (.taskCreate .heartbeat) else pure false)
      (if created then pure () else signalLinkLost .taskAllocation)
      op .setReady
      let _wake ← op .waitLost
      stopIoTasks
      op .clearReady
      let bits : EventBits ← op .eventBits
      if bits.stop then return .inr ()
      let _timeout ← transportApply .timeout
      let _flushed ← op .uartFlushInput
      releaseExpansionPins
      op (.delay (bridgeExpansionRetryBaseMs * (attempts + 1)))
      return .inl (attempts + 1)
  op .clearSupervisorHandle
  op .taskDeleteSelf

def expansionTransportRequestReconnect : Routine Unit := op .setReconnect

def expansionTransportBeginRpc : Routine EspErr := do
  let state ← expansionTransportState
  if state ≠ .ready then
    expansionTransportRequestReconnect
    return .invalidState
  let (accepted, _) ← transportApply .beginRpc
  if !accepted then return .invalidState
  let (error, status) ← sendWaitStatus (.control .startRpc)
  let started ← (if error ≠ .ok ∨ status ≠ .none then pure false else do
    let (accepted, _) ← transportApply .rpcStarted
    pure accepted)
  if !started then
    signalLinkLost .startRpc
    return if error = .ok then .invalidResponse else error
  return .ok

def expansionTransportEndRpc : Routine EspErr := do
  let state ← expansionTransportState
  if state = .ready then return .ok
  let state ← expansionTransportState
  if state ≠ .rpcReady then return .invalidState
  let (accepted, _) ← transportApply .endRpc
  if !accepted then return .invalidState
  let (error, status) ← sendWaitStatus (.control .stopRpc)
  let stopped ← (if error ≠ .ok ∨ status ≠ .none then pure false else do
    let (accepted, _) ← transportApply .rpcStopped
    pure accepted)
  if !stopped then
    signalLinkLost .stopRpc
    return if error = .ok then .invalidResponse else error
  op .streamReset
  return .ok

def expansionTransportSendRpc (bytes : List UInt8) : Routine EspErr := do
  let state ← expansionTransportState
  if state ≠ .rpcReady then return .invalidState
  .loop (0 : ℕ) fun offset => do
    if ¬ offset < bytes.length then return .inr .ok
    let chunk := if bytes.length - offset < bridgeExpansionMaxData then bytes.length - offset
      else bridgeExpansionMaxData
    let (error, status) ← sendWaitStatus (.data ((bytes.drop offset).take chunk))
    if error ≠ .ok ∨ status ≠ .none then
      signalLinkLost .rpcAck
      return .inr (if error = .ok then .invalidResponse else error)
    return .inl (offset + chunk)

def expansionTransportReceiveRpc (capacity : ℕ) : Routine (EspErr × List UInt8) := do
  let received : List UInt8 ← op (.streamReceive capacity)
  if received ≠ [] then return (.ok, received)
  let state ← expansionTransportState
  return (if state = .rpcReady then .timeout else .invalidState, [])

/-- The transport as its callers see it. -/
structure TransportApi where
  state : Routine ExpansionState
  negotiatedBaud : Routine UInt32
  requestReconnect : Routine Unit
  beginRpc : Routine EspErr
  endRpc : Routine EspErr
  sendRpc : List UInt8 → Routine EspErr
  receiveRpc : ℕ → Routine (EspErr × List UInt8)

/-- Record a call and its result. -/
def traced (call : TransportCall) (body : Routine EspErr) : Routine EspErr := do
  op (.mark (.enter call))
  let error ← body
  op (.mark (.leave call error))
  return error

/-- The transport of `expansion_transport.c`. -/
def expansionTransport : TransportApi where
  state := expansionTransportState
  negotiatedBaud := expansionTransportNegotiatedBaud
  requestReconnect := expansionTransportRequestReconnect
  beginRpc := traced .beginRpc expansionTransportBeginRpc
  endRpc := traced .endRpc expansionTransportEndRpc
  sendRpc bytes := traced (.sendRpc bytes) (expansionTransportSendRpc bytes)
  receiveRpc := expansionTransportReceiveRpc

/-- A transport about which nothing is known but its interface. -/
def abstractTransport : TransportApi where
  state := op (.transport .state)
  negotiatedBaud := op (.transport .negotiatedBaud)
  requestReconnect := op (.transport .requestReconnect)
  beginRpc := op (.transport .beginRpc)
  endRpc := op (.transport .endRpc)
  sendRpc bytes := op (.transport (.sendRpc bytes))
  receiveRpc capacity := op (.transport (.receiveRpc capacity))

end FlipforgeBridge
