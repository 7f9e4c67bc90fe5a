import FlipforgeBridge.Bridge.System

/-!
The roles of the firmware's tasks. A phase keeps what the other tasks depend on: how far the
supervisor is with the link, what the receiving task does with a frame, what the writer still
has to send, and how far a client is with its RPC session.
-/
namespace FlipforgeBridge
open Process

namespace Bridge

/-- Operations no role has to account for. -/
def quiet : Op → Bool
  | .locked .markRxActivity | .locked .markTxActivity | .locked .negotiatedBaud
  | .locked .restartActivity | .locked .activity => true
  | .locked _ => false
  | .setLost _ | .clearLostReady | .waitLost | .eventBits => false
  | .uartParamConfig _ | .uartSetBaudrate _ | .uartWriteBytes _ | .uartReadByte => false
  | .streamBytesAvailable | .streamSend _ | .streamReceive _ | .streamReset => false
  | .taskCreate .heartbeat | .taskHandle .heartbeat => true
  | .clearTaskHandle .heartbeat => true
  | .taskCreate _ | .taskDelete _ _ | .taskHandle _ | .clearTaskHandle _ => false
  | .taskDeleteSelf => false
  | .accept | .send _ _ | .claimClient | .releaseClient => false
  | .proxyCreate _ | .proxySetDone _ | .proxyWaitDone _ => false
  | .mark _ => false
  | _ => true

/-! ### The supervisor -/

inductive SupervisorPhase
  | down
  /-- An attempt; `request` was written last. -/
  | trying (request : List UInt8)
  | accepted (request : List UInt8)
  /-- `uart_set_baudrate` failed. -/
  | failed
  | switched (baud : UInt32)
  | stored (baud : UInt32)
  | cleared (baud : UInt32)
  /-- There was no memory for the receiving task. -/
  | unmanned (baud : UInt32)
  | linked (baud : UInt32)
  /-- The link is lost; `seen` was read from the handle of the receiving task. -/
  | closing (baud : UInt32) (seen : Option ℕ)
  | closed (baud : UInt32)
  deriving DecidableEq, Repr

def SupervisorPhase.apply : SupervisorPhase → ExpansionEvent → Bool → Option SupervisorPhase
  | .trying request, .start, _ | .trying request, .heartbeatReceived, _
  | .trying request, .baudRejected, _ => some (.trying request)
  | .trying request, .baudAccepted, ok => some (if ok then .accepted request else .trying request)
  | .trying _, .timeout, _ | .failed, .timeout, _ | .closed _, .timeout, _ => some .down
  | _, _, _ => none

/-- How `establish_expansion` may return. -/
def SupervisorPhase.returns : SupervisorPhase → EspErr → Bool
  | .trying _, error | .failed, error => error ≠ .ok
  | .stored _, error => error = .ok
  | _, _ => false

def supervisorNext : SupervisorPhase → (o : Op) → o.Res → Option SupervisorPhase
  | .down, .clearLostReady, _ => some (.trying [])
  | .trying request, .locked .restart, _ => some (.trying request)
  | .trying request, .uartParamConfig _, _ => some (.trying request)
  | .trying request, .uartReadByte, _ => some (.trying request)
  | .trying _, .uartWriteBytes bytes, _ => some (.trying bytes)
  | .accepted request, .uartSetBaudrate baud, error =>
    if baud ∈ bridgePreferredBaudRates ∧
        expansionProtocolEncode (.baudRate baud) expansionFrameSize = some request then
      some (if error = EspErr.ok then .switched baud else .failed)
    else none
  | .switched baud, .locked (.storeBaud baud'), _ =>
    if baud' = baud then some (.stored baud) else none
  | .stored baud, .streamReset, _ => some (.cleared baud)
  | .cleared baud, .taskCreate .rx, created =>
    some (if created = true then .linked baud else .unmanned baud)
  | .unmanned baud, .setLost _, _ => some (.linked baud)
  | .linked baud, .setLost _, _ => some (.linked baud)
  | .linked baud, .waitLost, _ => some (.closing baud none)
  | .closing baud _, .taskHandle .rx, handle =>
    some (if handle = none then .closed baud else .closing baud handle)
  | .closing baud seen, .taskDelete .rx handle, _ =>
    if handle = seen ∧ handle ≠ none then some (.closed baud) else none
  | .closed baud, .taskHandle .rx, _ | .closed baud, .taskDelete .rx _, _
  | .closed baud, .clearTaskHandle .rx, _ => some (.closed baud)
  | ph, .locked (.apply event), (ok, _) => ph.apply event ok
  | ph, .mark (.enter .establish), _ => some ph
  | ph, .mark (.leave .establish error), _ => if ph.returns error then some ph else none
  | ph, .eventBits, _ | ph, .taskDeleteSelf, _ | ph, .taskDelete .heartbeat _, _ => some ph
  | ph, o, _ => if quiet o then some ph else none

/-! ### The receiving and the heartbeat task -/

inductive RxPhase
  | reading
  | data (bytes : List UInt8)
  /-- The state was `RpcReady`. -/
  | checked (bytes : List UInt8)
  /-- There was room. -/
  | counted (bytes : List UInt8)
  | stored
  /-- The frame is out of place, not stored or not acknowledged. -/
  | refused
  /-- The link loss was signalled or seen. -/
  | leaving
  | ended
  deriving DecidableEq, Repr

/-- The acknowledgement of a DATA frame. -/
def ackBytes : List UInt8 := [2, 0, 2]

def rxNext : RxPhase → (o : Op) → o.Res → Option RxPhase
  | .reading, .mark (.frame frame), _ =>
    match frame with
    | .data bytes => some (.data bytes)
    | _ => some .reading
  | .reading, .uartReadByte, _ => some .reading
  | .reading, .locked (.offerStatus _), _ => some .reading
  | .reading, .eventBits, seen => some (if seen.stop || seen.lost then .leaving else .reading)
  | .data bytes, .locked .state, state =>
    some (if state = ExpansionState.rpcReady then .checked bytes else .refused)
  | .checked bytes, .streamBytesAvailable, used =>
    some (if bridgeIoBufferCanAccept used bytes.length bridgeRpcRxBufferBytes then .counted bytes
      else .refused)
  | .counted bytes, .streamSend bytes', sent =>
    if bytes' = bytes then some (if sent = bytes.length then .stored else .refused) else none
  | .stored, .uartWriteBytes bytes, written =>
    if bytes = ackBytes then some (if written = bytes.length then .reading else .refused)
    else none
  | .refused, .uartWriteBytes bytes, _ => if bytes = ackBytes then none else some .refused
  | .leaving, .clearTaskHandle .rx, _ => some .ended
  | .ended, o, _ => if o = .taskDeleteSelf then some .ended else none
  | _, .setLost _, _ => some .leaving
  | ph, .eventBits, _ => some ph
  | ph, o, _ => if quiet o then some ph else none

def heartbeatNext (ph : Unit) (o : Op) (_ : o.Res) : Option Unit :=
  match o with
  | .setLost _ | .eventBits | .uartWriteBytes _ | .taskDeleteSelf => some ph
  | o => if quiet o then some ph else none

/-! ### The proxy writer -/

inductive WriterPhase
  /-- `rest` was taken from `rpc_rx` and is still to be sent. -/
  | running (rest : List UInt8)
  | done
  deriving DecidableEq, Repr

def writerNext (socket : ℕ) : WriterPhase → (o : Op) → o.Res → Option WriterPhase
  | .running rest, .streamReceive _, bytes => if rest = [] then some (.running bytes) else none
  | .running rest, .send socket' bytes, result =>
    if socket' = socket ∧ bytes = rest then some (.running (rest.drop result.sent.toNat))
    else none
  | .running rest, .locked .state, _ => some (.running rest)
  | .running _, .proxySetDone socket', _ => if socket' = socket then some .done else none
  | .done, .taskDeleteSelf, _ => some .done
  | .done, _, _ => none
  | ph, o, _ => if quiet o then some ph else none

/-! ### The client task -/

/-- How far a request to the Flipper has got. -/
inductive Exchange
  | unarmed
  | armed
  /-- STATUS None was read. -/
  | acked
  deriving DecidableEq, Repr

inductive SessionPhase
  | managing
  /-- `BeginRpc` was accepted. -/
  | begun (exchange : Exchange)
  /-- `RpcStarted` was accepted; `answer` is what is left to be sent of the answer. -/
  | opened (answer : Option (List UInt8))
  /-- `EndRpc` was accepted. -/
  | ending (exchange : Exchange)
  /-- `RpcStopped` was accepted; the buffer is still to be cleared. -/
  | stopped
  | finished
  | released
  deriving DecidableEq, Repr

namespace SessionPhase

def apply : SessionPhase → ExpansionEvent → Bool → Option SessionPhase
  | .managing, .beginRpc, ok => some (if ok then .begun .unarmed else .managing)
  | .begun .acked, .rpcStarted, ok => some (if ok then .opened none else .begun .unarmed)
  | .opened _, .endRpc, ok | .finished, .endRpc, ok =>
    some (if ok then .ending .unarmed else .finished)
  | .ending .acked, .rpcStopped, ok => some (if ok then .stopped else .ending .unarmed)
  | _, _, _ => none

/-- Reading the state: an open session that is not `RpcReady` any more is over. -/
def look : SessionPhase → ExpansionState → SessionPhase
  | .opened answer, state => if state = .rpcReady then .opened answer else .finished
  | ph, _ => ph

def arm : SessionPhase → SessionPhase
  | .begun _ => .begun .armed
  | .ending _ => .ending .armed
  | ph => ph

def disarm : SessionPhase → ExpansionFrameError → SessionPhase
  | .begun .armed, status => .begun (if status = .none then .acked else .unarmed)
  | .ending .armed, status => .ending (if status = .none then .acked else .unarmed)
  | ph, _ => ph

/-- Signalling the link loss gives an exchange up. -/
def signal : SessionPhase → SessionPhase
  | .begun _ => .managing
  | .ending _ => .finished
  | ph => ph

/-- The answer to `BeginRPCProxy` is the last one. -/
def respond : SessionPhase → BridgeMessage → BridgeStatus → List UInt8 → Option SessionPhase
  | .managing, _, _, _ => some .managing
  | .opened none, request, status, payload =>
    if request.command = BridgeCommand.beginRpcProxy.toByte ∧ status = .ok then
      (bridgeMessageEncode (responseTo request status payload) bridgeManagementFrameSize).map
        fun encoded => .opened (some encoded)
    else none
  | _, _, _, _ => none

/-- Sending on the socket. -/
def send : SessionPhase → List UInt8 → ℤ → Option SessionPhase
  | .managing, _, _ => some .managing
  | .opened (some rest), bytes, sent =>
    if bytes = rest then some (.opened (some (rest.drop sent.toNat))) else none
  | _, _, _ => none

/-- Where a mark may stand. A request is handled from `managing` on, and what is left of the
session is known when the handling or the call of `begin_rpc` is over. -/
def admits : SessionPhase → Mark → Bool
  | ph, .handle _ _ => ph = .managing
  | ph, .handled _ _ _ _ beginProxy =>
    if beginProxy then ph = .opened (some []) else ph = .managing || ph = .finished
  | ph, .leave .beginRpc error => if error = .ok then ph = .opened none else ph = .managing
  | _, .frame _ => false
  | ph, _ => ph ≠ .released

end SessionPhase

inductive ProxyPhase
  | none
  | created
  | running
  /-- The writer was seen to be done. -/
  | drained
  deriving DecidableEq, Repr

structure ClientPhase where
  session : SessionPhase := .managing
  proxy : ProxyPhase := .none
  deriving DecidableEq, Repr

def clientNext (socket : ℕ) (ph : ClientPhase) :
    (o : Op) → o.Res → Option ClientPhase
  | .taskDeleteSelf, _ => if ph.session = .released then some ph else none
  | .locked (.apply event), (ok, _) =>
    if event = .endRpc ∧ ph.proxy = .running then none
    else (ph.session.apply event ok).map fun session => { ph with session := session }
  | .locked .state, state =>
    if ph.session = .released then none else some { ph with session := ph.session.look state }
  | .locked .armRequest, _ =>
    if ph.session = .released then none else some { ph with session := ph.session.arm }
  | .locked .disarmRequest, status =>
    if ph.session = .released then none else some { ph with session := ph.session.disarm status }
  | .setLost _, _ =>
    if ph.session = .released then none else some { ph with session := ph.session.signal }
  | .streamReset, _ =>
    if ph.session = .stopped then some { ph with session := .finished } else none
  | .mark (.respond request status payload), _ =>
    if ph.proxy = .none then
      (ph.session.respond request status payload).map fun session => { ph with session := session }
    else none
  | .send socket' bytes, result =>
    if socket' = socket ∧ ph.proxy = .none then
      (ph.session.send bytes result.sent).map fun session => { ph with session := session }
    else none
  | .proxyCreate socket', created =>
    if socket' = socket ∧ ph.session = .opened (some []) ∧ ph.proxy = .none then
      some (if created = true then { ph with proxy := .created } else ph)
    else none
  | .taskCreate (.writer socket'), created =>
    if socket' = socket ∧ ph.proxy = .created ∧ ph.session = .opened (some []) then
      some (if created = true then { ph with proxy := .running } else ph)
    else none
  | .proxyWaitDone socket', _ =>
    if socket' = socket ∧ ph.proxy = .running ∧ ph.session ≠ .released then
      some { ph with proxy := .drained }
    else none
  | .releaseClient, _ =>
    if (ph.session = .managing ∨ ph.session = .finished) ∧ ph.proxy ≠ .running then
      some { ph with session := .released }
    else none
  | .mark m, _ => if ph.session.admits m then some ph else none
  | .eventBits, _ | .uartWriteBytes _, _ =>
    if ph.session = .released then none else some ph
  | o, _ => if quiet o ∧ ph.session ≠ .released then some ph else none

/-! ### The accept loop -/

inductive ServerPhase
  | listening
  | accepted (socket : ℕ)
  | holding (socket : ℕ)
  deriving DecidableEq, Repr

def serverNext : ServerPhase → (o : Op) → o.Res → Option ServerPhase
  | .listening, .accept, result | .accepted _, .accept, result =>
    match result with
    | .ok socket => some (.accepted socket)
    | .error _ => some .listening
  | .accepted socket, .claimClient, claimed =>
    some (if claimed = true then .holding socket else .accepted socket)
  | .accepted socket, .send socket' _, _ =>
    if socket' = socket then some (.accepted socket) else none
  | .accepted socket, .mark (.respond _ _ _), _ => some (.accepted socket)
  | .holding socket, .taskCreate (.client socket'), created =>
    if socket' = socket then some (if created = true then .listening else .holding socket)
    else none
  | .holding _, .releaseClient, _ => some .listening
  | .listening, .taskDeleteSelf, _ => some .listening
  | ph, o, _ => if quiet o then some ph else none

end Bridge
end FlipforgeBridge
