import FlipforgeBridge.Process.Program
import FlipforgeBridge.Session
import FlipforgeBridge.Expansion.Guarded

/-!
What the firmware asks of its platform: FreeRTOS, the UART and GPIO drivers, lwIP sockets and
the few variables shared between tasks outside a mutex. An operation is one call that the other
tasks see as a single step.
-/
namespace FlipforgeBridge
open Process

/-- `esp_err_t`; `driver` stands for any error of an ESP-IDF driver. -/
inductive EspErr
  | ok | fail | noMem | invalidArg | invalidState | invalidSize | notSupported | timeout
  | invalidResponse | invalidCrc | driver (code : ℕ)
  deriving DecidableEq, Repr

/-- The bits of the transport's event group. -/
structure EventBits where
  stop : Bool := false
  lost : Bool := false
  ready : Bool := false
  reconnect : Bool := false
  deriving DecidableEq, Repr

/-- The bits of a proxy's event group. -/
structure ProxyBits where
  writerDone : Bool := false
  stop : Bool := false
  deriving DecidableEq, Repr

/-- The reason given to `signal_link_lost`. -/
inductive LossReason
  | uartRead | checksum | frame | unsolicitedStatus | rpcRxOverflow | dataAck | unexpectedFrame
  | heartbeatTimeout | heartbeatSend | taskAllocation | startRpc | stopRpc | rpcAck
  deriving DecidableEq, Repr

inductive Errno
  | eintr | eagain | other
  deriving DecidableEq, Repr

inductive RecvResult
  | data (bytes : List UInt8)
  | closed
  | error (errno : Errno)
  deriving DecidableEq, Repr

/-- The value of `send` and whether `errno` is `EINTR`. -/
structure SendResult where
  sent : ℤ
  eintr : Bool := false
  deriving DecidableEq, Repr

inductive UartRead
  | byte (value : UInt8)
  | nothing
  | error
  deriving DecidableEq, Repr

/-- The members of `BridgeMetricsSnapshot` that `GetStatus` reports. -/
structure BridgeMetricsSnapshot where
  tcpRxBytes : UInt64 := 0
  tcpTxBytes : UInt64 := 0
  rpcPayloadRxBytes : UInt64 := 0
  rpcPayloadTxBytes : UInt64 := 0
  retries : UInt32 := 0
  protocolErrors : UInt32 := 0
  deriving DecidableEq, Repr

/-- The tasks created at run time; a socket names the tasks that serve it. -/
inductive TaskKind
  | client (socket : ℕ) | writer (socket : ℕ) | rx | heartbeat
  deriving DecidableEq, Repr

/-- Entry points of the transport. -/
inductive TransportCall
  | state | negotiatedBaud | requestReconnect | beginRpc | endRpc
  | sendRpc (bytes : List UInt8) | receiveRpc (capacity : ℕ) | establish
  deriving DecidableEq, Repr

@[reducible] def TransportCall.Res : TransportCall → Type
  | .state => ExpansionState
  | .negotiatedBaud => UInt32
  | .requestReconnect => Unit
  | .receiveRpc _ => EspErr × List UInt8
  | _ => EspErr

/-- Points of the code recorded in the trace. Marks have no effect. -/
inductive Mark
  | enter (call : TransportCall)
  | leave (call : TransportCall) (error : EspErr)
  | handle (session : BridgeSession) (request : BridgeMessage)
  | handled (session : BridgeSession) (request : BridgeMessage) (after : BridgeSession)
      (error : EspErr) (beginProxy : Bool)
  | respond (request : BridgeMessage) (status : BridgeStatus) (payload : List UInt8)
  | session (session : BridgeSession)
  | frame (frame : ExpansionFrame)
  deriving DecidableEq, Repr

inductive Op
  | locked (s : Section)
  -- the transport's event group
  | eventBits
  | setLost (reason : LossReason) | setReady | setReconnect
  | clearReconnect | clearLostReady | clearReady
  | waitRetry | waitLost
  -- the other mutexes and the status semaphore
  | takeTxMutex | giveTxMutex | takeRequestMutex | giveRequestMutex
  | pollStatus | waitStatus | giveStatus
  -- UART and GPIO drivers
  | uartParamConfig (baud : UInt32) | uartSetPin | uartFlushInput
  | uartWriteBytes (bytes : List UInt8) | uartWaitTxDone | uartReadByte
  | uartSetBaudrate (baud : UInt32)
  | gpioResetTx | gpioResetRx | gpioSetTxDirection | gpioSetTxLevel (level : Bool)
  -- the stream buffer `rpc_rx`
  | streamBytesAvailable | streamSend (bytes : List UInt8) | streamReceive (capacity : ℕ)
  | streamReset
  -- tasks; `taskDelete none` deletes the caller
  | taskCreate (kind : TaskKind) | taskDelete (kind : TaskKind) (handle : Option ℕ)
  | taskHandle (kind : TaskKind) | clearTaskHandle (kind : TaskKind) | taskDeleteSelf
  | running | clearSupervisorHandle
  -- time, randomness and the rest of the platform
  | timerGetTime | delay (ms : ℕ) | fillRandom (n : ℕ)
  | hmacSha256 (key : Vector UInt8 bridgePairingSecretBytes) (message : List UInt8)
  | wifiIsStarted | metricsSnapshot
  -- sockets
  | listen | accept
  | setSocketTimeouts (socket : ℕ) | recv (socket : ℕ) (size : ℕ)
  | send (socket : ℕ) (bytes : List UInt8) | shutdown (socket : ℕ) | close (socket : ℕ)
  -- the client slot
  | claimClient | releaseClient | callocContext
  -- the event group of the proxy serving a socket
  | proxyCreate (socket : ℕ) | proxyBits (socket : ℕ) | proxySetDone (socket : ℕ)
  | proxySetStop (socket : ℕ) | proxyWaitDone (socket : ℕ) | proxyDelete (socket : ℕ)
  /-- A call into a transport left abstract. -/
  | transport (call : TransportCall)
  | mark (m : Mark)
  deriving DecidableEq, Repr

@[reducible] def Op.Res : Op → Type
  | .locked s => s.Res
  | .eventBits | .waitRetry | .waitLost => EventBits
  | .takeTxMutex | .takeRequestMutex | .pollStatus | .waitStatus => Bool
  | .uartParamConfig _ | .uartSetPin | .uartFlushInput | .uartWaitTxDone | .uartSetBaudrate _ =>
    EspErr
  | .gpioResetTx | .gpioResetRx | .gpioSetTxDirection | .gpioSetTxLevel _ => EspErr
  | .uartWriteBytes _ => ℤ
  | .uartReadByte => UartRead
  | .streamBytesAvailable | .streamSend _ => ℕ
  | .streamReceive _ => List UInt8
  | .taskCreate _ | .running => Bool
  | .taskHandle _ => Option ℕ
  | .timerGetTime => ℤ
  | .fillRandom n => Vector UInt8 n
  | .hmacSha256 _ _ => Option (Vector UInt8 bridgeHmacBytes)
  | .wifiIsStarted => Bool
  | .metricsSnapshot => BridgeMetricsSnapshot
  | .listen => Bool
  | .accept => Except Errno ℕ
  | .recv _ _ => RecvResult
  | .send _ _ => SendResult
  | .claimClient | .callocContext | .proxyCreate _ => Bool
  | .proxyBits _ => ProxyBits
  | .transport call => call.Res
  | _ => Unit

/-! ### The smooth case

A result for every operation when nothing goes wrong. Schedules override the ones they are
about. -/

def Section.smooth : (s : Section) → s.Res
  | .markRxActivity | .markTxActivity | .restartActivity => 0
  | .apply _ => (true, .none)
  | .state => .ready
  | .negotiatedBaud => 0
  | .restart | .storeBaud _ | .armRequest => ()
  | .disarmRequest => .none
  | .offerStatus _ => true
  | .activity => (0, 0, false)

def TransportCall.smooth : (call : TransportCall) → call.Res
  | .state => .ready
  | .negotiatedBaud => 0
  | .requestReconnect => ()
  | .beginRpc | .endRpc | .sendRpc _ | .establish => .ok
  | .receiveRpc _ => (.timeout, [])

def Op.smooth : (o : Op) → o.Res
  | .locked s => s.smooth
  | .eventBits | .waitRetry | .waitLost => {}
  | .takeTxMutex | .takeRequestMutex | .waitStatus => true
  | .pollStatus => false
  | .uartParamConfig _ | .uartSetPin | .uartFlushInput | .uartWaitTxDone | .uartSetBaudrate _ => .ok
  | .gpioResetTx | .gpioResetRx | .gpioSetTxDirection | .gpioSetTxLevel _ => .ok
  | .uartWriteBytes bytes => bytes.length
  | .uartReadByte => .nothing
  | .streamBytesAvailable => 0
  | .streamSend bytes => bytes.length
  | .streamReceive _ => []
  | .taskCreate _ | .running => true
  | .taskHandle _ => none
  | .timerGetTime => 0
  | .fillRandom n => .replicate n 0
  | .hmacSha256 _ _ => none
  | .wifiIsStarted => true
  | .metricsSnapshot => {}
  | .listen => true
  | .accept => .ok 0
  | .recv _ _ => .closed
  | .send _ bytes => { sent := bytes.length }
  | .claimClient | .callocContext | .proxyCreate _ => true
  | .proxyBits _ => {}
  | .transport call => call.smooth
  | .giveTxMutex | .giveRequestMutex | .giveStatus | .setLost _ | .setReady | .setReconnect
  | .clearReconnect | .clearLostReady | .clearReady | .streamReset | .taskDelete _ _
  | .clearTaskHandle _ | .taskDeleteSelf | .clearSupervisorHandle | .delay _
  | .setSocketTimeouts _ | .shutdown _ | .close _ | .releaseClient | .proxySetDone _
  | .proxySetStop _ | .proxyWaitDone _ | .proxyDelete _ | .mark _ => ()

abbrev platform : Interface := ⟨Op, Op.Res⟩

/-- Code of the firmware. -/
abbrev Routine := Prog platform

def locked (s : Section) : Routine s.Res := .perform (ι := platform) (.locked s)

end FlipforgeBridge
