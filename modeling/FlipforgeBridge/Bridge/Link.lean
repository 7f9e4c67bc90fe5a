import FlipforgeBridge.Bridge.Client

/-!
The link to the Flipper and those who work on it, as one flat state: the supervisor, the receiving
task in charge, the client that holds the slot, and its writer. Tasks that have ended, and the
client that has released the slot, have no part in it any more. Its steps are what the roles and
the platform leave of the firmware's operations.
-/
namespace FlipforgeBridge
open Process

namespace Bridge

abbrev Entry := Label platform Tid

/-- What the tasks share of the link. -/
structure Shared where
  machine : ExpansionStateMachine := {}
  negotiatedBaud : UInt32 := 0
  awaiting : Bool := false
  lastStatus : ExpansionFrameError := .none
  lost : Bool := false
  uartBaud : UInt32 := 0
  rpcRx : List UInt8 := []
  rxCreated : ℕ := 0
  socketsAccepted : ℕ := 0

structure Link extends Shared where
  supervisor : SupervisorPhase := .down
  server : ServerPhase := .listening
  rx : Option (ℕ × RxPhase) := none
  client : Option (ℕ × ClientPhase) := none
  /-- The bytes a running writer has yet to send. -/
  writer : Option (ℕ × List UInt8) := none

/-- Operations without any effect on the link. -/
def idle : Op → Bool
  | .eventBits | .uartReadByte | .taskDeleteSelf | .taskDelete .heartbeat _ => true
  | o => quiet o

namespace Link

/-- The session of the client changes. -/
def withSession (l : Link) (socket : ℕ) (ph : ClientPhase) (session : SessionPhase) : Link :=
  { l with client := some (socket, { ph with session := session }) }

def withProxy (l : Link) (socket : ℕ) (ph : ClientPhase) (proxy : ProxyPhase) : Link :=
  { l with client := some (socket, { ph with proxy := proxy }) }

/-- The supervisor. -/
inductive SupervisorStep (l : Link) : Entry → Link → Prop
  | attempt (h : l.supervisor = .down) :
    SupervisorStep l ⟨.supervisor, .clearLostReady, ()⟩
      { l with supervisor := .trying [], lost := false }
  | restart {request : List UInt8} (h : l.supervisor = .trying request) :
    SupervisorStep l ⟨.supervisor, .locked .restart, ()⟩
      { l with machine := expansionStateMachineInit, negotiatedBaud := 0 }
  | configure {request : List UInt8} (h : l.supervisor = .trying request) (baud : UInt32)
      (error : EspErr) :
    SupervisorStep l ⟨.supervisor, .uartParamConfig baud, error⟩
      { l with uartBaud := if error = .ok then baud else l.uartBaud }
  | write {request : List UInt8} (h : l.supervisor = .trying request) (bytes : List UInt8)
      (written : ℤ) :
    SupervisorStep l ⟨.supervisor, .uartWriteBytes bytes, written⟩
      { l with supervisor := .trying bytes }
  | advance {request : List UInt8} (h : l.supervisor = .trying request) (event : ExpansionEvent)
      (hevent : event = .start ∨ event = .heartbeatReceived ∨ event = .baudRejected) {ok : Bool}
      {action : ExpansionAction} {machine : ExpansionStateMachine}
      (happly : expansionStateMachineApply l.machine event = (ok, action, machine)) :
    SupervisorStep l ⟨.supervisor, .locked (.apply event), (ok, action)⟩
      { l with machine := machine }
  | accept {request : List UInt8} (h : l.supervisor = .trying request) {ok : Bool}
      {action : ExpansionAction} {machine : ExpansionStateMachine}
      (happly : expansionStateMachineApply l.machine .baudAccepted = (ok, action, machine)) :
    SupervisorStep l ⟨.supervisor, .locked (.apply .baudAccepted), (ok, action)⟩
      { l with
        machine := machine
        supervisor := if ok then .accepted request else .trying request }
  | fall (h : (∃ request, l.supervisor = .trying request) ∨ l.supervisor = .failed ∨
        ∃ baud, l.supervisor = .closed baud) {ok : Bool} {action : ExpansionAction}
      {machine : ExpansionStateMachine}
      (happly : expansionStateMachineApply l.machine .timeout = (ok, action, machine)) :
    SupervisorStep l ⟨.supervisor, .locked (.apply .timeout), (ok, action)⟩
      { l with machine := machine, supervisor := .down }
  | switch {request : List UInt8} (h : l.supervisor = .accepted request) {baud : UInt32}
      (hbaud : baud ∈ bridgePreferredBaudRates)
      (hrequest : expansionProtocolEncode (.baudRate baud) expansionFrameSize = some request)
      (error : EspErr) :
    SupervisorStep l ⟨.supervisor, .uartSetBaudrate baud, error⟩
      { l with
        uartBaud := if error = .ok then baud else l.uartBaud
        supervisor := if error = .ok then .switched baud else .failed }
  | store {baud : UInt32} (h : l.supervisor = .switched baud) :
    SupervisorStep l ⟨.supervisor, .locked (.storeBaud baud), ()⟩
      { l with negotiatedBaud := baud, supervisor := .stored baud }
  | clear {baud : UInt32} (h : l.supervisor = .stored baud) :
    SupervisorStep l ⟨.supervisor, .streamReset, ()⟩
      { l with rpcRx := [], supervisor := .cleared baud }
  | createRx {baud : UInt32} (h : l.supervisor = .cleared baud) :
    SupervisorStep l ⟨.supervisor, .taskCreate .rx, true⟩
      { l with
        rx := some (l.rxCreated, .reading)
        rxCreated := l.rxCreated + 1
        supervisor := .linked baud }
  | createNone {baud : UInt32} (h : l.supervisor = .cleared baud) :
    SupervisorStep l ⟨.supervisor, .taskCreate .rx, false⟩ { l with supervisor := .unmanned baud }
  | lose {baud : UInt32} (h : l.supervisor = .unmanned baud ∨ l.supervisor = .linked baud)
      (reason : LossReason) :
    SupervisorStep l ⟨.supervisor, .setLost reason, ()⟩
      { l with lost := true, supervisor := .linked baud }
  | wake {baud : UInt32} (h : l.supervisor = .linked baud) (hlost : l.lost = true)
      (seen : EventBits) :
    SupervisorStep l ⟨.supervisor, .waitLost, seen⟩ { l with supervisor := .closing baud none }
  | look {baud : UInt32} {seen : Option ℕ} (h : l.supervisor = .closing baud seen)
      (handle : Option ℕ) (hhandle : ∀ id ph, l.rx = some (id, ph) → handle = some id) :
    SupervisorStep l ⟨.supervisor, .taskHandle .rx, handle⟩
      { l with supervisor := if handle = none then .closed baud else .closing baud handle }
  | delete {baud : UInt32} {id : ℕ} (h : l.supervisor = .closing baud (some id)) :
    SupervisorStep l ⟨.supervisor, .taskDelete .rx (some id), ()⟩
      { l with supervisor := .closed baud, rx := none }
  | tidy {baud : UInt32} (h : l.supervisor = .closed baud) (o : Op) (r : o.Res)
      (ho : o = .taskHandle .rx ∨ o = .clearTaskHandle .rx ∨ ∃ handle, o = .taskDelete .rx handle) :
    SupervisorStep l ⟨.supervisor, o, r⟩ l
  | enter : SupervisorStep l ⟨.supervisor, .mark (.enter .establish), ()⟩ l
  | leave {error : EspErr} (h : l.supervisor.returns error = true) :
    SupervisorStep l ⟨.supervisor, .mark (.leave .establish error), ()⟩ l

/-- The receiving task. -/
inductive RxStep (l : Link) (id : ℕ) : Entry → Link → Prop
  | frame (h : l.rx = some (id, .reading)) (frame : ExpansionFrame) :
    RxStep l id ⟨.rx id, .mark (.frame frame), ()⟩
      { l with rx := some (id, match frame with
        | .data bytes => .data bytes
        | _ => .reading) }
  | offer (h : l.rx = some (id, .reading)) (status : ExpansionFrameError)
      (hawaiting : l.awaiting = true) :
    RxStep l id ⟨.rx id, .locked (.offerStatus status), true⟩ { l with lastStatus := status }
  | unexpected (h : l.rx = some (id, .reading)) (status : ExpansionFrameError)
      (hawaiting : l.awaiting = false) :
    RxStep l id ⟨.rx id, .locked (.offerStatus status), false⟩ l
  | peek (h : l.rx = some (id, .reading)) (seen : EventBits) :
    RxStep l id ⟨.rx id, .eventBits, seen⟩
      { l with rx := some (id, if seen.stop || seen.lost then .leaving else .reading) }
  | check {bytes : List UInt8} (h : l.rx = some (id, .data bytes)) :
    RxStep l id ⟨.rx id, .locked .state, l.machine.state⟩
      { l with rx := some (id,
        if l.machine.state = .rpcReady then .checked bytes else .refused) }
  | count {bytes : List UInt8} (h : l.rx = some (id, .checked bytes)) :
    RxStep l id ⟨.rx id, .streamBytesAvailable, l.rpcRx.length⟩
      { l with rx := some (id,
        if bridgeIoBufferCanAccept l.rpcRx.length bytes.length bridgeRpcRxBufferBytes then
          .counted bytes
        else .refused) }
  | deposit {bytes : List UInt8} (h : l.rx = some (id, .counted bytes)) {sent : ℕ}
      (hsent : sent = min bytes.length (bridgeRpcRxBufferBytes - l.rpcRx.length)) :
    RxStep l id ⟨.rx id, .streamSend bytes, sent⟩
      { l with
        rpcRx := l.rpcRx ++ bytes.take sent
        rx := some (id, if sent = bytes.length then .stored else .refused) }
  | acknowledge (h : l.rx = some (id, .stored)) (written : ℤ) :
    RxStep l id ⟨.rx id, .uartWriteBytes ackBytes, written⟩
      { l with rx := some (id, if written = ackBytes.length then .reading else .refused) }
  | refuse (h : l.rx = some (id, .refused)) {bytes : List UInt8} (hbytes : bytes ≠ ackBytes)
      (written : ℤ) : RxStep l id ⟨.rx id, .uartWriteBytes bytes, written⟩ l
  | lose {ph : RxPhase} (h : l.rx = some (id, ph)) (reason : LossReason) :
    RxStep l id ⟨.rx id, .setLost reason, ()⟩ { l with lost := true, rx := some (id, .leaving) }
  | leave (h : l.rx = some (id, .leaving)) :
    RxStep l id ⟨.rx id, .clearTaskHandle .rx, ()⟩ { l with rx := none }

/-- The proxy writer. -/
inductive WriterStep (l : Link) (socket : ℕ) : Entry → Link → Prop
  | take (h : l.writer = some (socket, [])) (capacity : ℕ) :
    WriterStep l socket ⟨.writer socket, .streamReceive capacity, l.rpcRx.take capacity⟩
      { l with
        rpcRx := l.rpcRx.drop capacity
        writer := some (socket, l.rpcRx.take capacity) }
  | send {rest : List UInt8} (h : l.writer = some (socket, rest)) {result : SendResult}
      (hsent : result.sent ≤ rest.length) :
    WriterStep l socket ⟨.writer socket, .send socket rest, result⟩
      { l with writer := some (socket, rest.drop result.sent.toNat) }
  | state {rest : List UInt8} (h : l.writer = some (socket, rest)) :
    WriterStep l socket ⟨.writer socket, .locked .state, l.machine.state⟩ l
  | finish {rest : List UInt8} (h : l.writer = some (socket, rest)) :
    WriterStep l socket ⟨.writer socket, .proxySetDone socket, ()⟩ { l with writer := none }

/-- The client that holds the slot. -/
inductive ClientStep (l : Link) (socket : ℕ) (ph : ClientPhase) : Entry → Link → Prop
  | apply {event : ExpansionEvent} {ok : Bool} {action : ExpansionAction}
      {machine : ExpansionStateMachine} {session : SessionPhase}
      (happly : expansionStateMachineApply l.machine event = (ok, action, machine))
      (hsession : ph.session.apply event ok = some session)
      (hproxy : event = .endRpc → ph.proxy ≠ .running) :
    ClientStep l socket ph ⟨.client socket, .locked (.apply event), (ok, action)⟩
      { l.withSession socket ph session with machine := machine }
  | look : ClientStep l socket ph ⟨.client socket, .locked .state, l.machine.state⟩
      (l.withSession socket ph (ph.session.look l.machine.state))
  | arm : ClientStep l socket ph ⟨.client socket, .locked .armRequest, ()⟩
      { l.withSession socket ph ph.session.arm with awaiting := true, lastStatus := .unknown }
  | disarm : ClientStep l socket ph ⟨.client socket, .locked .disarmRequest, l.lastStatus⟩
      { l.withSession socket ph (ph.session.disarm l.lastStatus) with awaiting := false }
  | signal (reason : LossReason) :
    ClientStep l socket ph ⟨.client socket, .setLost reason, ()⟩
      { l.withSession socket ph ph.session.signal with lost := true }
  | reset (h : ph.session = .stopped) :
    ClientStep l socket ph ⟨.client socket, .streamReset, ()⟩
      { l.withSession socket ph .finished with rpcRx := [] }
  | respond {request : BridgeMessage} {status : BridgeStatus} {payload : List UInt8}
      {session : SessionPhase} (hproxy : ph.proxy = .none)
      (hsession : ph.session.respond request status payload = some session) :
    ClientStep l socket ph ⟨.client socket, .mark (.respond request status payload), ()⟩
      (l.withSession socket ph session)
  | mark {m : Mark} (h : ph.session.admits m)
      (hm : ∀ request status payload, m ≠ .respond request status payload) :
    ClientStep l socket ph ⟨.client socket, .mark m, ()⟩ l
  | send {bytes : List UInt8} {result : SendResult} {session : SessionPhase}
      (hproxy : ph.proxy = .none) (hsent : result.sent ≤ bytes.length)
      (hsession : ph.session.send bytes result.sent = some session) :
    ClientStep l socket ph ⟨.client socket, .send socket bytes, result⟩
      (l.withSession socket ph session)
  | write (bytes : List UInt8) (written : ℤ) :
    ClientStep l socket ph ⟨.client socket, .uartWriteBytes bytes, written⟩ l
  | open (hsession : ph.session = .opened (some [])) (hproxy : ph.proxy = .none) (created : Bool) :
    ClientStep l socket ph ⟨.client socket, .proxyCreate socket, created⟩
      (if created then l.withProxy socket ph .created else l)
  | start (hsession : ph.session = .opened (some [])) (hproxy : ph.proxy = .created)
    (created : Bool) :
    ClientStep l socket ph ⟨.client socket, .taskCreate (.writer socket), created⟩
      (if created then { l.withProxy socket ph .running with writer := some (socket, []) } else l)
  | drain (hproxy : ph.proxy = .running) (hwriter : l.writer = none) :
    ClientStep l socket ph ⟨.client socket, .proxyWaitDone socket, ()⟩
      (l.withProxy socket ph .drained)
  | release (hsession : ph.session = .managing ∨ ph.session = .finished)
      (hproxy : ph.proxy ≠ .running) :
    ClientStep l socket ph ⟨.client socket, .releaseClient, ()⟩ { l with client := none }

/-- The accept loop. -/
inductive ServerStep (l : Link) : Entry → Link → Prop
  | accept (h : ∀ socket, l.server ≠ .holding socket) :
    ServerStep l ⟨.server, .accept, .ok l.socketsAccepted⟩
      { l with
        server := .accepted l.socketsAccepted
        socketsAccepted := l.socketsAccepted + 1 }
  | acceptNone (h : ∀ socket, l.server ≠ .holding socket) (errno : Errno) :
    ServerStep l ⟨.server, .accept, .error errno⟩ { l with server := .listening }
  | claim {socket : ℕ} (h : l.server = .accepted socket) (hclient : l.client = none) :
    ServerStep l ⟨.server, .claimClient, true⟩ { l with server := .holding socket }
  | busy {socket : ℕ} (h : l.server = .accepted socket) {socket' : ℕ} {ph : ClientPhase}
      (hclient : l.client = some (socket', ph)) : ServerStep l ⟨.server, .claimClient, false⟩ l
  | send {socket : ℕ} (h : l.server = .accepted socket) (bytes : List UInt8)
      (result : SendResult) : ServerStep l ⟨.server, .send socket bytes, result⟩ l
  | mark {socket : ℕ} (h : l.server = .accepted socket) (request : BridgeMessage)
      (status : BridgeStatus) (payload : List UInt8) :
    ServerStep l ⟨.server, .mark (.respond request status payload), ()⟩ l
  | create {socket : ℕ} (h : l.server = .holding socket) (hclient : l.client = none) :
    ServerStep l ⟨.server, .taskCreate (.client socket), true⟩
      { l with server := .listening, client := some (socket, managing) }
  | createNone {socket : ℕ} (h : l.server = .holding socket) :
    ServerStep l ⟨.server, .taskCreate (.client socket), false⟩ l
  | release {socket : ℕ} (h : l.server = .holding socket) (hclient : l.client = none) :
    ServerStep l ⟨.server, .releaseClient, ()⟩ { l with server := .listening }

inductive Step (l : Link) : Entry → Link → Prop
  | supervisor {e : Entry} {l' : Link} (h : SupervisorStep l e l') : Step l e l'
  | rx {id : ℕ} {e : Entry} {l' : Link} (h : RxStep l id e l') : Step l e l'
  | writer {socket : ℕ} {e : Entry} {l' : Link} (h : WriterStep l socket e l') : Step l e l'
  | client {socket : ℕ} {ph : ClientPhase} {e : Entry} {l' : Link}
      (h : l.client = some (socket, ph)) (hstep : ClientStep l socket ph e l') : Step l e l'
  | server {e : Entry} {l' : Link} (h : ServerStep l e l') : Step l e l'
  | heartbeatLost (id : ℕ) (reason : LossReason) :
    Step l ⟨.heartbeat id, .setLost reason, ()⟩ { l with lost := true }
  | heartbeat (id : ℕ) (bytes : List UInt8) (written : ℤ) :
    Step l ⟨.heartbeat id, .uartWriteBytes bytes, written⟩ l
  | idle {i : Tid} {o : Op} (ho : idle o = true) (r : o.Res) : Step l ⟨i, o, r⟩ l

/-- The courses the link can take, with what was done, newest first. -/
inductive Course : List Entry → Link → Prop
  | nil : Course [] {}
  | cons {trace : List Entry} {l l' : Link} {e : Entry} (h : Course trace l) (hstep : Step l e l') :
    Course (e :: trace) l'

theorem Course.of_append {later past : List Entry} {l : Link} (h : Course (later ++ past) l) :
    ∃ l', Course past l' := by
  induction later generalizing l with
  | nil => exact ⟨l, h⟩
  | cons e later ih =>
    cases h with
    | cons h hstep => exact ih h

end Link

end Bridge
end FlipforgeBridge
