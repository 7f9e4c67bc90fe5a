import FlipforgeBridge.Expansion.Protocol
import FlipforgeBridge.Expansion.StateMachine

/-!
The members of `ExpansionTransport` protected by `state_mutex`, and the critical sections of
`expansion_transport.c` that take it. Each section is one atomic step; the mutex is taken with
`portMAX_DELAY`, so no section fails.
-/
namespace FlipforgeBridge

structure Guarded where
  machine : ExpansionStateMachine := {}
  negotiatedBaud : UInt32 := 0
  awaitingStatus : Bool := false
  lastStatus : ExpansionFrameError := .none
  lastRxUs : ℤ := 0
  lastTxUs : ℤ := 0
  deriving DecidableEq, Repr

inductive Section
  /-- `mark_rx_activity` -/
  | markRxActivity
  /-- `mark_tx_activity` -/
  | markTxActivity
  /-- `transport_apply` -/
  | apply (event : ExpansionEvent)
  /-- `expansion_transport_state` -/
  | state
  /-- `expansion_transport_negotiated_baud` -/
  | negotiatedBaud
  /-- `establish_expansion`: the machine and the baud rate start over. -/
  | restart
  /-- `establish_expansion`: the accepted baud rate. -/
  | storeBaud (baud : UInt32)
  /-- `establish_expansion`: both activity times. -/
  | restartActivity
  /-- `send_wait_status`, before sending. -/
  | armRequest
  /-- `send_wait_status`, after waiting. -/
  | disarmRequest
  /-- `expansion_rx_task`, on a STATUS frame. -/
  | offerStatus (status : ExpansionFrameError)
  /-- `expansion_heartbeat_task` -/
  | activity
  deriving DecidableEq, Repr

/-- What a section hands to its task; an integer is the time read inside the section. -/
@[reducible] def Section.Res : Section → Type
  | .markRxActivity | .markTxActivity | .restartActivity => ℤ
  | .apply _ => Bool × ExpansionAction
  | .state => ExpansionState
  | .negotiatedBaud => UInt32
  | .restart | .storeBaud _ | .armRequest => Unit
  | .disarmRequest => ExpansionFrameError
  | .offerStatus _ => Bool
  | .activity => ℤ × ℤ × Bool

/-- The members after the section, if it hands over this result. -/
def Section.run : (s : Section) → s.Res → Guarded → Option Guarded
  | .markRxActivity, now, t => some { t with lastRxUs := now }
  | .markTxActivity, now, t => some { t with lastTxUs := now }
  | .apply event, result, t =>
    let (accepted, action, machine) := expansionStateMachineApply t.machine event
    if result = (accepted, action) then some { t with machine } else none
  | .state, current, t => if current = t.machine.state then some t else none
  | .negotiatedBaud, baud, t => if baud = t.negotiatedBaud then some t else none
  | .restart, _, t => some { t with machine := expansionStateMachineInit, negotiatedBaud := 0 }
  | .storeBaud baud, _, t => some { t with negotiatedBaud := baud }
  | .restartActivity, now, t => some { t with lastRxUs := now, lastTxUs := now }
  | .armRequest, _, t => some { t with awaitingStatus := true, lastStatus := .unknown }
  | .disarmRequest, status, t =>
    if status = t.lastStatus then some { t with awaitingStatus := false } else none
  | .offerStatus status, expected, t =>
    if expected = t.awaitingStatus then
      some (if expected then { t with lastStatus := status } else t)
    else none
  | .activity, result, t =>
    if result = (t.lastRxUs, t.lastTxUs, t.awaitingStatus) then some t else none

end FlipforgeBridge
