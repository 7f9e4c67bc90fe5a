import FlipforgeBridge.Process.Choreography
import FlipforgeBridge.Server

/-!
The whole firmware: the accept loop, the supervisor and every task they create, over one state.
The outside is left open. The UART delivers any bytes, clients send anything, and drivers,
allocations, sockets, HMAC and the random generator may answer anything they can answer.

A socket is named by the order of its acceptance and an I/O task by the order of its creation,
so that a name is never used twice. The STOP bit is never set: the firmware does not destroy
its transport.
-/
namespace FlipforgeBridge
open Process

namespace Bridge

inductive Tid
  | server
  | supervisor
  | client (socket : ℕ)
  | writer (socket : ℕ)
  | rx (id : ℕ)
  | heartbeat (id : ℕ)
  deriving DecidableEq

structure State where
  guarded : Guarded := {}
  bits : EventBits := {}
  txMutex : Bool := false
  requestMutex : Bool := false
  statusSemaphore : Bool := false
  uartBaud : UInt32 := 0
  rpcRx : List UInt8 := []
  rxTask : Option ℕ := none
  heartbeatTask : Option ℕ := none
  rxCreated : ℕ := 0
  heartbeatCreated : ℕ := 0
  socketsAccepted : ℕ := 0
  clientActive : Bool := false
  proxy : ℕ → ProxyBits := fun _ => {}
  live : Tid → Bool := fun t => t = .server || t = .supervisor

namespace State

def setLive (st : State) (t : Tid) (alive : Bool) : State :=
  { st with live := Function.update st.live t alive }

def setProxy (st : State) (socket : ℕ) (bits : ProxyBits) : State :=
  { st with proxy := Function.update st.proxy socket bits }

/-- `xTaskCreate`: the handle is written before the task runs. -/
def create (st : State) : TaskKind → State
  | .client socket => st.setLive (.client socket) true
  | .writer socket => st.setLive (.writer socket) true
  | .rx =>
    { st.setLive (.rx st.rxCreated) true with
      rxTask := some st.rxCreated
      rxCreated := st.rxCreated + 1 }
  | .heartbeat =>
    { st.setLive (.heartbeat st.heartbeatCreated) true with
      heartbeatTask := some st.heartbeatCreated
      heartbeatCreated := st.heartbeatCreated + 1 }

/-- The handles kept in the transport. -/
def handle (st : State) : TaskKind → Option ℕ
  | .rx => st.rxTask
  | .heartbeat => st.heartbeatTask
  | _ => none

def clearHandle (st : State) : TaskKind → State
  | .rx => { st with rxTask := none }
  | .heartbeat => { st with heartbeatTask := none }
  | _ => st

/-- `vTaskDelete` of a task other than the caller. If the task has ended since its handle was read,
nothing happens: that the kernel may have used its memory again is not modelled. -/
def delete (st : State) (kind : TaskKind) (id : ℕ) : State :=
  match kind with
  | .rx => st.setLive (.rx id) false
  | .heartbeat => st.setLive (.heartbeat id) false
  | _ => st

end State

/-- A mutex is taken with a timeout, which may expire whether or not it is free. -/
def take (held taken : Bool) (held' : State) (st : State) : Option State :=
  if taken then (if held then none else some held') else some st

def effect (i : Tid) : (o : Op) → o.Res → State → Option State
  | .locked s, result, st =>
    (s.run result st.guarded).map fun guarded => { st with guarded := guarded }
  | .eventBits, seen, st => if seen = st.bits then some st else none
  | .setLost _, _, st => some { st with bits := { st.bits with lost := true } }
  | .setReady, _, st => some { st with bits := { st.bits with ready := true } }
  | .setReconnect, _, st => some { st with bits := { st.bits with reconnect := true } }
  | .clearReconnect, _, st => some { st with bits := { st.bits with reconnect := false } }
  | .clearLostReady, _, st =>
    some { st with bits := { st.bits with lost := false, ready := false } }
  | .clearReady, _, st => some { st with bits := { st.bits with ready := false } }
  | .waitRetry, seen, st =>
    if seen = st.bits ∧ (seen.reconnect || seen.stop) then
      some { st with bits := { st.bits with reconnect := false, stop := false } }
    else none
  | .waitLost, seen, st =>
    if seen = st.bits ∧ (seen.lost || seen.stop) then some st else none
  | .takeTxMutex, taken, st => take st.txMutex taken { st with txMutex := true } st
  | .giveTxMutex, _, st => some { st with txMutex := false }
  | .takeRequestMutex, taken, st =>
    take st.requestMutex taken { st with requestMutex := true } st
  | .giveRequestMutex, _, st => some { st with requestMutex := false }
  | .pollStatus, taken, st =>
    if taken = st.statusSemaphore then some { st with statusSemaphore := false } else none
  | .waitStatus, answered, st =>
    take (!st.statusSemaphore) answered { st with statusSemaphore := false } st
  | .giveStatus, _, st => some { st with statusSemaphore := true }
  | .uartParamConfig baud, error, st =>
    some (if error = EspErr.ok then { st with uartBaud := baud } else st)
  | .uartSetBaudrate baud, error, st =>
    some (if error = EspErr.ok then { st with uartBaud := baud } else st)
  | .streamBytesAvailable, used, st => if used = st.rpcRx.length then some st else none
  | .streamSend bytes, sent, st =>
    if sent = min bytes.length (bridgeRpcRxBufferBytes - st.rpcRx.length) then
      some { st with rpcRx := st.rpcRx ++ bytes.take sent }
    else none
  | .streamReceive capacity, bytes, st =>
    if bytes = st.rpcRx.take capacity then some { st with rpcRx := st.rpcRx.drop capacity }
    else none
  | .streamReset, _, st => some { st with rpcRx := [] }
  | .taskCreate kind, created, st => some (if created = true then st.create kind else st)
  | .taskDelete kind (some id), _, st => some (st.delete kind id)
  | .taskDelete _ none, _, st => some (st.setLive i false)
  | .taskDeleteSelf, _, st => some (st.setLive i false)
  | .taskHandle kind, handle, st => if handle = st.handle kind then some st else none
  | .clearTaskHandle kind, _, st => some (st.clearHandle kind)
  | .running, running, st => if running = true then some st else none
  | .accept, .ok socket, st =>
    if socket = st.socketsAccepted then some { st with socketsAccepted := socket + 1 } else none
  | .recv _ size, .data bytes, st =>
    if bytes ≠ [] ∧ bytes.length ≤ size then some st else none
  | .send _ bytes, result, st => if result.sent ≤ bytes.length then some st else none
  | .claimClient, claimed, st =>
    if claimed = !st.clientActive then some { st with clientActive := true } else none
  | .releaseClient, _, st => some { st with clientActive := false }
  | .proxyCreate socket, created, st =>
    some (if created = true then st.setProxy socket {} else st)
  | .proxyBits socket, bits, st => if bits = st.proxy socket then some st else none
  | .proxySetDone socket, _, st =>
    some (st.setProxy socket { st.proxy socket with writerDone := true })
  | .proxySetStop socket, _, st =>
    some (st.setProxy socket { st.proxy socket with stop := true })
  | .proxyWaitDone socket, _, st => if (st.proxy socket).writerDone then some st else none
  | _, _, st => some st

end Bridge

/-- The firmware with this pairing secret. -/
abbrev bridge (secret : Vector UInt8 bridgePairingSecretBytes) : System platform where
  Tid := Bridge.Tid
  State := Bridge.State
  init := {}
  effect := Bridge.effect
  live := Bridge.State.live
  code
    | .server => serverTask
    | .supervisor => expansionSupervisorTask (traced .establish establishExpansion)
    | .client socket => clientTask expansionTransport { socket, pairingSecret := secret }
    | .writer socket => proxyWriterTask expansionTransport socket
    | .rx _ => expansionRxTask
    | .heartbeat _ => expansionHeartbeatTask

end FlipforgeBridge
