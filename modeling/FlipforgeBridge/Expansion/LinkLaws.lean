import FlipforgeBridge.Expansion.StateMachine

/-!
The link's state machine over every sequence of events: what its state and its counter say of the
events it was given.
-/
namespace FlipforgeBridge
namespace LinkLaws

def failure : ExpansionEvent → Bool
  | .timeout | .frameError => true
  | _ => false

/-- The transitions of the machine, each with its answer. -/
inductive Transition : ExpansionStateMachine → ExpansionEvent →
    Bool × ExpansionAction × ExpansionStateMachine → Prop
  | retried {m : ExpansionStateMachine} {e : ExpansionEvent} (he : failure e = true)
      (h : m.reconnectAttempts < 3) :
      Transition m e (true, .scheduleReconnect, ⟨.backoff, m.reconnectAttempts + 1⟩)
  | exhausted {m : ExpansionStateMachine} {e : ExpansionEvent} (he : failure e = true)
      (h : 3 ≤ m.reconnectAttempts) :
      Transition m e (true, .none, ⟨.disconnected, m.reconnectAttempts⟩)
  | start {n : ℕ} : Transition ⟨.disconnected, n⟩ .start (true, .detectPulse, ⟨.initialUart, n⟩)
  | elapsed {n : ℕ} :
      Transition ⟨.backoff, n⟩ .backoffElapsed (true, .detectPulse, ⟨.initialUart, n⟩)
  | heartbeat {n : ℕ} : Transition ⟨.initialUart, n⟩ .heartbeatReceived
      (true, .requestBaud, ⟨.negotiatingBaud, n⟩)
  | lower {n : ℕ} : Transition ⟨.negotiatingBaud, n⟩ .baudRejected
      (true, .tryLowerBaud, ⟨.negotiatingBaud, n⟩)
  | negotiated {n : ℕ} : Transition ⟨.negotiatingBaud, n⟩ .baudAccepted
      (true, .switchBaud, ⟨.ready, 0⟩)
  | begin {n : ℕ} : Transition ⟨.ready, n⟩ .beginRpc (true, .sendStartRpc, ⟨.startingRpc, n⟩)
  | started {n : ℕ} : Transition ⟨.startingRpc, n⟩ .rpcStarted (true, .none, ⟨.rpcReady, n⟩)
  | finish {n : ℕ} : Transition ⟨.rpcReady, n⟩ .endRpc (true, .sendStopRpc, ⟨.stoppingRpc, n⟩)
  | stopped {n : ℕ} : Transition ⟨.stoppingRpc, n⟩ .rpcStopped (true, .none, ⟨.ready, n⟩)
  | rejected {m : ExpansionStateMachine} {e : ExpansionEvent} (he : failure e = false) :
      Transition m e (false, .none, m)

theorem failConnection_transition (m : ExpansionStateMachine) {e : ExpansionEvent}
    (he : failure e = true) : Transition m e (failConnection m) := by
  unfold failConnection
  by_cases h : bridgeExpansionMaxRetries ≤ m.reconnectAttempts
  · rw [if_pos h]
    exact .exhausted he h
  · rw [if_neg h]
    exact .retried he (Nat.not_le.mp h)

theorem apply_transition (m : ExpansionStateMachine) (e : ExpansionEvent) :
    Transition m e (expansionStateMachineApply m e) := by
  obtain ⟨state, n⟩ := m
  cases e with
  | timeout => exact failConnection_transition _ rfl
  | frameError => exact failConnection_transition _ rfl
  | start =>
    cases state with
    | disconnected => exact .start
    | _ => exact .rejected rfl
  | heartbeatReceived =>
    cases state with
    | initialUart => exact .heartbeat
    | _ => exact .rejected rfl
  | baudAccepted =>
    cases state with
    | negotiatingBaud => exact .negotiated
    | _ => exact .rejected rfl
  | baudRejected =>
    cases state with
    | negotiatingBaud => exact .lower
    | _ => exact .rejected rfl
  | beginRpc =>
    cases state with
    | ready => exact .begin
    | _ => exact .rejected rfl
  | rpcStarted =>
    cases state with
    | startingRpc => exact .started
    | _ => exact .rejected rfl
  | endRpc =>
    cases state with
    | rpcReady => exact .finish
    | _ => exact .rejected rfl
  | rpcStopped =>
    cases state with
    | stoppingRpc => exact .stopped
    | _ => exact .rejected rfl
  | backoffElapsed =>
    cases state with
    | backoff => exact .elapsed
    | _ => exact .rejected rfl

/-! ### Histories, newest event first -/

/-- The machine after some events from `expansion_state_machine_init`. -/
def machineAfter : List ExpansionEvent → ExpansionStateMachine
  | [] => expansionStateMachineInit
  | e :: past => (expansionStateMachineApply (machineAfter past) e).2.2

/-- An event with its answer. -/
structure Applied where
  event : ExpansionEvent
  accepted : Bool
  action : ExpansionAction

def history : List ExpansionEvent → List Applied
  | [] => []
  | e :: past =>
    let (accepted, action, _) := expansionStateMachineApply (machineAfter past) e
    ⟨e, accepted, action⟩ :: history past

/-- What happened after the last reset. -/
def since (reset : Applied → Bool) (trace : List Applied) : List Applied :=
  trace.takeWhile fun l => !reset l

def failed (l : Applied) : Bool := failure l.event

/-- An accepted `BaudAccepted`. -/
def negotiated (l : Applied) : Bool := l.accepted && l.event = .baudAccepted

def scheduled (l : Applied) : Bool := l.action = .scheduleReconnect

def startSent (l : Applied) : Bool := l.action = .sendStartRpc

def stopSent (l : Applied) : Bool := l.action = .sendStopRpc

/-- An accepted `RpcStopped`. -/
def rpcStopped (l : Applied) : Bool := l.accepted && l.event = .rpcStopped

/-- The events accepted since the last failure, oldest first. -/
def acceptedEvents (trace : List Applied) : List ExpansionEvent :=
  (((since failed trace).filter fun l => l.accepted).map fun l => l.event).reverse

theorem since_of_reset {reset : Applied → Bool} {l : Applied} (h : reset l = true)
    (past : List Applied) : since reset (l :: past) = [] := by
  simp [since, h]

theorem since_cons {reset : Applied → Bool} {l : Applied} (h : reset l = false)
    (past : List Applied) : since reset (l :: past) = l :: since reset past := by
  simp [since, h]

/-- A history and the machine it leads to. -/
inductive Chronicle : List Applied → ExpansionStateMachine → Prop
  | init : Chronicle [] expansionStateMachineInit
  | step {trace : List Applied} {m m' : ExpansionStateMachine} {e : ExpansionEvent}
      {accepted : Bool} {action : ExpansionAction} (h : Chronicle trace m)
      (t : Transition m e (accepted, action, m')) : Chronicle (⟨e, accepted, action⟩ :: trace) m'

theorem chronicle (events : List ExpansionEvent) :
    Chronicle (history events) (machineAfter events) := by
  induction events with
  | nil => exact .init
  | cons e past ih => exact .step ih (apply_transition _ e)

namespace Chronicle
variable {trace : List Applied} {m m' : ExpansionStateMachine} {e : ExpansionEvent}
  {accepted : Bool} {action : ExpansionAction}

theorem not_negotiated (he : failure e = true) : negotiated ⟨e, accepted, action⟩ = false := by
  cases e with
  | timeout => simp [negotiated]
  | frameError => simp [negotiated]
  | _ => cases he

/-- The counter is the number of failures since the rate was negotiated, up to three. -/
theorem attempts (h : Chronicle trace m) :
    m.reconnectAttempts = min 3 ((since negotiated trace).countP failed) := by
  induction h with
  | init => rfl
  | step _ t ih =>
    cases t with
    | retried he hlt =>
      rw [since_cons (not_negotiated he), List.countP_cons_of_pos (by exact he)]
      dsimp only
      omega
    | exhausted he hge =>
      rw [since_cons (not_negotiated he), List.countP_cons_of_pos (by exact he)]
      dsimp only
      omega
    | negotiated => rfl
    | rejected he =>
      rw [since_cons (by rfl), List.countP_cons_of_neg (by simp [failed, he])]
      exact ih
    | _ =>
      rw [since_cons (by rfl), List.countP_cons_of_neg (by simp [failed, failure])]
      exact ih

/-- It is also the number of reconnects scheduled since then. -/
theorem schedules (h : Chronicle trace m) :
    (since negotiated trace).countP scheduled = m.reconnectAttempts := by
  induction h with
  | init => rfl
  | step _ t ih =>
    cases t with
    | retried he hlt =>
      rw [since_cons (not_negotiated he), List.countP_cons_of_pos rfl, ih]
    | exhausted he hge =>
      rw [since_cons (not_negotiated he), List.countP_cons_of_neg (by simp [scheduled]), ih]
    | negotiated => rfl
    | _ =>
      rw [since_cons (by rfl), List.countP_cons_of_neg (by simp [scheduled]), ih]

/-- The states in which the rate is negotiated. -/
def up : ExpansionState → Bool
  | .ready | .startingRpc | .rpcReady | .stoppingRpc => true
  | _ => false

theorem attempts_of_up (h : Chronicle trace m) (hup : up m.state = true) :
    m.reconnectAttempts = 0 := by
  induction h with
  | init => cases hup
  | step _ t ih =>
    cases t with
    | negotiated => rfl
    | begin => exact ih rfl
    | started => exact ih rfl
    | finish => exact ih rfl
    | stopped => exact ih rfl
    | rejected => exact ih hup
    | _ => cases hup

/-- What must have been accepted since the last failure to be in a state. -/
def path : ExpansionState → List ExpansionEvent
  | .disconnected | .initialUart | .backoff => []
  | .negotiatingBaud => [.heartbeatReceived]
  | .ready => [.heartbeatReceived, .baudAccepted]
  | .startingRpc => [.heartbeatReceived, .baudAccepted, .beginRpc]
  | .rpcReady | .stoppingRpc => [.heartbeatReceived, .baudAccepted, .beginRpc, .rpcStarted]

theorem acceptedEvents_accepted (he : failure e = false) :
    acceptedEvents (⟨e, true, action⟩ :: trace) = acceptedEvents trace ++ [e] := by
  unfold acceptedEvents
  rw [since_cons he, List.filter_cons_of_pos rfl, List.map_cons, List.reverse_cons]

theorem acceptedEvents_rejected (he : failure e = false) :
    acceptedEvents (⟨e, false, action⟩ :: trace) = acceptedEvents trace := by
  unfold acceptedEvents
  rw [since_cons he, List.filter_cons_of_neg Bool.false_ne_true]

theorem path_sublist (h : Chronicle trace m) : (path m.state).Sublist (acceptedEvents trace) := by
  induction h with
  | init => exact List.nil_sublist _
  | step _ t ih =>
    cases t with
    | retried => exact List.nil_sublist _
    | exhausted => exact List.nil_sublist _
    | start => exact List.nil_sublist _
    | elapsed => exact List.nil_sublist _
    | rejected he =>
      rw [acceptedEvents_rejected he]
      exact ih
    | heartbeat =>
      rw [acceptedEvents_accepted rfl]
      exact ih.append (List.Sublist.refl [_])
    | negotiated =>
      rw [acceptedEvents_accepted rfl]
      exact ih.append (List.Sublist.refl [_])
    | begin =>
      rw [acceptedEvents_accepted rfl]
      exact ih.append (List.Sublist.refl [_])
    | started =>
      rw [acceptedEvents_accepted rfl]
      exact ih.append (List.Sublist.refl [_])
    | lower =>
      rw [acceptedEvents_accepted rfl]
      exact ih.trans (List.sublist_append_left _ _)
    | finish =>
      rw [acceptedEvents_accepted rfl]
      exact ih.trans (List.sublist_append_left _ _)
    | stopped =>
      rw [acceptedEvents_accepted rfl]
      have hready : (path .ready).Sublist (path .stoppingRpc) := by decide
      exact hready.trans (ih.trans (List.sublist_append_left _ _))

/-- A stop sent and, later, its end accepted. -/
def Stopped (trace : List Applied) : Prop :=
  ∃ stop ended, [ended, stop].Sublist trace ∧ stopSent stop ∧ rpcStopped ended

/-- A failure, or a stop. -/
def Over (stretch : List Applied) : Prop := (∃ l ∈ stretch, failed l) ∨ Stopped stretch

/-- How far the session begun by the last start has come. -/
def Course (state : ExpansionState) (stretch : List Applied) : Prop :=
  Over stretch ∨ state = .startingRpc ∨ state = .rpcReady ∨
    state = .stoppingRpc ∧ ∃ stop ∈ stretch, stopSent stop

theorem Over.cons {stretch : List Applied} (h : Over stretch) (l : Applied) :
    Over (l :: stretch) := by
  rcases h with ⟨f, hf, hfailed⟩ | ⟨stop, ended, hsub, hboth⟩
  · exact .inl ⟨f, List.mem_cons_of_mem l hf, hfailed⟩
  · exact .inr ⟨stop, ended, hsub.trans (List.sublist_cons_self l _), hboth⟩

theorem Course.cons {state : ExpansionState} {stretch : List Applied} (h : Course state stretch)
    (l : Applied) : Course state (l :: stretch) := by
  rcases h with h | h | h | ⟨hstate, stop, hstop, hsent⟩
  · exact .inl (h.cons l)
  · exact .inr (.inl h)
  · exact .inr (.inr (.inl h))
  · exact .inr (.inr (.inr ⟨hstate, stop, List.mem_cons_of_mem l hstop, hsent⟩))

def inSession : ExpansionState → Bool
  | .startingRpc | .rpcReady | .stoppingRpc => true
  | _ => false

theorem Course.over {state : ExpansionState} {stretch : List Applied} (h : Course state stretch)
    (hstate : inSession state = false) : Over stretch := by
  rcases h with h | rfl | rfl | ⟨rfl, -⟩
  · exact h
  · cases hstate
  · cases hstate
  · cases hstate

/-- The end of a stop. -/
theorem Course.stopped {stretch : List Applied} (h : Course .stoppingRpc stretch) {l : Applied}
    (hl : rpcStopped l) : Over (l :: stretch) := by
  rcases h with h | h | h | ⟨-, stop, hstop, hsent⟩
  · exact h.cons l
  · cases h
  · cases h
  · exact .inr ⟨stop, l, (List.singleton_sublist.mpr hstop).cons_cons l, hsent, hl⟩

theorem course (h : Chronicle trace m) (hstart : ∃ l ∈ trace, startSent l) :
    Course m.state (since startSent trace) := by
  induction h with
  | init => simp at hstart
  | @step trace m m' e accepted action _ t ih =>
    by_cases hl : startSent ⟨e, accepted, action⟩ = true
    · rw [since_of_reset hl]
      cases t with
      | begin => exact .inr (.inl rfl)
      | _ => cases hl
    rw [Bool.not_eq_true] at hl
    rw [since_cons hl]
    have hpast : ∃ l ∈ trace, startSent l := by
      obtain ⟨l, hmem, hsent⟩ := hstart
      rcases List.mem_cons.mp hmem with rfl | hmem
      · cases hsent.symm.trans hl
      · exact ⟨l, hmem, hsent⟩
    have hcourse := ih hpast
    cases t with
    | retried he => exact .inl (.inl ⟨_, List.mem_cons_self, he⟩)
    | exhausted he => exact .inl (.inl ⟨_, List.mem_cons_self, he⟩)
    | begin => cases hl
    | rejected => exact hcourse.cons _
    | started => exact .inr (.inr (.inl rfl))
    | finish => exact .inr (.inr (.inr ⟨rfl, _, List.mem_cons_self, rfl⟩))
    | stopped => exact .inl (hcourse.stopped rfl)
    | _ => exact .inl ((hcourse.over rfl).cons _)

end Chronicle

/-- After three reconnects a failure is final. -/
theorem apply_exhausted {m : ExpansionStateMachine} {e : ExpansionEvent} (he : failure e = true)
    (h : m.reconnectAttempts = 3) :
    expansionStateMachineApply m e = (true, .none, ⟨.disconnected, 3⟩) := by
  have ht := apply_transition m e
  generalize expansionStateMachineApply m e = answer at ht
  cases ht with
  | exhausted => rw [h]
  | retried _ hlt => omega
  | rejected hrejected => cases he.symm.trans hrejected
  | _ => cases he

theorem state_of_sendStartRpc {m : ExpansionStateMachine} {e : ExpansionEvent}
    (h : (expansionStateMachineApply m e).2.1 = .sendStartRpc) : m.state = .ready := by
  have ht := apply_transition m e
  generalize expansionStateMachineApply m e = answer at ht h
  cases ht with
  | begin => rfl
  | _ => cases h

theorem apply_rejected {m : ExpansionStateMachine} {e : ExpansionEvent}
    (h : (expansionStateMachineApply m e).1 = false) :
    (expansionStateMachineApply m e).2 = (.none, m) := by
  have ht := apply_transition m e
  generalize expansionStateMachineApply m e = answer at ht h
  cases ht with
  | rejected => rfl
  | _ => cases h

/-- After any events, newest first: the counter counts the failures since the rate was negotiated
and is zero while it is; at most three reconnects are scheduled, and later failures give up; a
session was reached step by step since the last failure; before it is started again it failed or
was stopped; and an event that is not accepted changes nothing. -/
theorem expansion_link_laws (events : List ExpansionEvent) :
    (machineAfter events).reconnectAttempts =
      min 3 ((since negotiated (history events)).countP failed) ∧
    (Chronicle.up (machineAfter events).state → (machineAfter events).reconnectAttempts = 0) ∧
    (since negotiated (history events)).countP scheduled ≤ 3 ∧
    (∀ e, failure e → (since negotiated (history events)).countP scheduled = 3 →
      expansionStateMachineApply (machineAfter events) e = (true, .none, ⟨.disconnected, 3⟩)) ∧
    ((machineAfter events).state = .rpcReady →
      [.heartbeatReceived, .baudAccepted, .beginRpc, .rpcStarted].Sublist
        (acceptedEvents (history events))) ∧
    (∀ e, (expansionStateMachineApply (machineAfter events) e).2.1 = .sendStartRpc →
      (∃ l ∈ history events, startSent l) →
      Chronicle.Over (since startSent (history events))) ∧
    ∀ e, (expansionStateMachineApply (machineAfter events) e).1 = false →
      (expansionStateMachineApply (machineAfter events) e).2 = (.none, machineAfter events) := by
  have h := chronicle events
  have hattempts := h.attempts
  have hschedules := h.schedules
  refine ⟨hattempts, h.attempts_of_up, by omega, ?_, ?_, ?_, fun e => apply_rejected⟩
  · intro e he hthree
    exact apply_exhausted he (hschedules.symm.trans hthree)
  · intro hready
    have hpath := h.path_sublist
    rw [hready] at hpath
    exact hpath
  · intro e hsend hstart
    apply (h.course hstart).over
    rw [state_of_sendStartRpc hsend]
    rfl

end LinkLaws
end FlipforgeBridge
