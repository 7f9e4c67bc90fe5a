import FlipforgeBridge.BridgeConfig

/-! `expansion_state_machine.c`. -/
namespace FlipforgeBridge

inductive ExpansionState
  | disconnected | initialUart | negotiatingBaud | ready | startingRpc | rpcReady | stoppingRpc
  | backoff
  deriving DecidableEq, Repr

inductive ExpansionEvent
  | start | heartbeatReceived | baudAccepted | baudRejected | beginRpc | rpcStarted | endRpc
  | rpcStopped | timeout | frameError | backoffElapsed
  deriving DecidableEq, Repr

inductive ExpansionAction
  | none | detectPulse | requestBaud | tryLowerBaud | switchBaud | sendStartRpc | sendStopRpc
  | scheduleReconnect
  deriving DecidableEq, Repr

structure ExpansionStateMachine where
  state : ExpansionState := .disconnected
  reconnectAttempts : ℕ := 0
  deriving DecidableEq, Repr

def expansionStateMachineInit : ExpansionStateMachine := {}

def failConnection (machine : ExpansionStateMachine) :
    Bool × ExpansionAction × ExpansionStateMachine :=
  if bridgeExpansionMaxRetries ≤ machine.reconnectAttempts then
    (true, .none, { machine with state := .disconnected })
  else
    (true, .scheduleReconnect,
      { state := .backoff, reconnectAttempts := machine.reconnectAttempts + 1 })

/-- Whether the event is accepted, the action to take, and the machine afterwards. -/
def expansionStateMachineApply (machine : ExpansionStateMachine) (event : ExpansionEvent) :
    Bool × ExpansionAction × ExpansionStateMachine :=
  match event with
  | .timeout | .frameError => failConnection machine
  | _ =>
    match machine.state, event with
    | .disconnected, .start => (true, .detectPulse, { machine with state := .initialUart })
    | .initialUart, .heartbeatReceived =>
      (true, .requestBaud, { machine with state := .negotiatingBaud })
    | .negotiatingBaud, .baudRejected => (true, .tryLowerBaud, machine)
    | .negotiatingBaud, .baudAccepted =>
      (true, .switchBaud, { state := .ready, reconnectAttempts := 0 })
    | .ready, .beginRpc => (true, .sendStartRpc, { machine with state := .startingRpc })
    | .startingRpc, .rpcStarted => (true, .none, { machine with state := .rpcReady })
    | .rpcReady, .endRpc => (true, .sendStopRpc, { machine with state := .stoppingRpc })
    | .stoppingRpc, .rpcStopped => (true, .none, { machine with state := .ready })
    | .backoff, .backoffElapsed => (true, .detectPulse, { machine with state := .initialUart })
    | _, _ => (false, .none, machine)

end FlipforgeBridge
