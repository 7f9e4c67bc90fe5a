import FlipforgeBridge.Bridge.Run
import FlipforgeBridge.Bridge.Simulation
import FlipforgeBridge.Expansion.LinkLaws

/-!
What holds of the link in every course: how the state machine, the supervisor, the receiving task
and the session of the client fit together.
-/
namespace FlipforgeBridge
open Process

namespace Bridge

/-- There is no link. -/
def offline : ExpansionState → Bool
  | .disconnected | .initialUart | .negotiatingBaud | .backoff => true
  | _ => false

namespace SupervisorPhase

/-- There is no link. -/
def offline : SupervisorPhase → Bool
  | .down | .trying _ => true
  | _ => false

/-- A rate was accepted, and there is no receiving task yet. -/
def early : SupervisorPhase → Bool
  | .accepted _ | .failed | .switched _ | .stored _ | .cleared _ | .unmanned _ => true
  | _ => false

/-- A rate was accepted, and the buffer is still that of the previous link. -/
def stale : SupervisorPhase → Bool
  | .accepted _ | .failed | .switched _ | .stored _ => true
  | _ => false

/-- The link is being given up. -/
def ending : SupervisorPhase → Bool
  | .closing _ _ | .closed _ => true
  | _ => false

end SupervisorPhase

/-- STATUS None has not been read, and is not waiting to be read. -/
def Exchange.unheard (lastStatus : ExpansionFrameError) : Exchange → Prop
  | .unarmed => True
  | .armed => lastStatus ≠ .none
  | .acked => False

def SessionPhase.unheard (lastStatus : ExpansionFrameError) : SessionPhase → Prop
  | .begun exchange | .ending exchange => exchange.unheard lastStatus
  | _ => True

namespace Link

/-- The session of the client that holds the slot. -/
def session (l : Link) : Option SessionPhase := l.client.map fun client => client.2.session

/-- No request of the client was answered. -/
def Unheard (l : Link) : Prop := ∀ session, l.session = some session → session.unheard l.lastStatus

structure Sound (l : Link) : Prop where
  offline : l.supervisor.offline = true → Bridge.offline l.machine.state = true
  early : l.supervisor.early = true →
    l.machine.state = .ready ∨ l.machine.state = .startingRpc ∧ l.Unheard
  lost : l.supervisor.ending = true → l.lost = true
  manned : l.supervisor.manned = false → l.rx = none
  starting : l.machine.state = .startingRpc →
    (∃ exchange, l.session = some (.begun exchange)) ∨ l.lost = true
  ready : l.machine.state = .rpcReady → ∃ answer, l.session = some (.opened answer)
  stopping : l.machine.state = .stoppingRpc →
    ((∃ exchange, l.session = some (.ending exchange)) ∨ l.lost = true) ∧
      (∀ answer, l.session ≠ some (.opened answer)) ∧ l.writer = none
  receiving : ∀ id bytes, l.rx = some (id, .checked bytes) ∨ l.rx = some (id, .counted bytes) →
    l.machine.state = .rpcReady ∨ l.machine.state = .stoppingRpc ∧ l.Unheard
  bounded : l.rpcRx.length ≤ bridgeRpcRxBufferBytes
  fits : ∀ id bytes, l.rx = some (id, .counted bytes) →
    l.rpcRx.length + bytes.length ≤ bridgeRpcRxBufferBytes
  /-- The buffer is empty where a session can start, but for bytes of the previous link that are yet
  to be cleared, and those of a session that was just stopped. -/
  clean : l.machine.state = .ready →
    l.supervisor.stale = true ∨ l.rpcRx = [] ∨ l.session = some .stopped
  cleanStart : l.machine.state = .startingRpc → l.supervisor.stale = true ∨ l.rpcRx = []
  writer : ∀ socket rest, l.writer = some (socket, rest) →
    ∃ ph, l.client = some (socket, ph) ∧ ph.proxy = .running

theorem sound_init : Sound {} where
  offline _ := rfl
  early := by simp [SupervisorPhase.early]
  lost := by simp [SupervisorPhase.ending]
  manned _ := rfl
  starting := by simp
  ready := by simp
  stopping := by simp
  receiving := by simp
  bounded := by simp
  fits := by simp
  clean := by simp
  cleanStart := by simp
  writer := by simp

/-! ### The supervisor -/

section Supervisor
variable {l l' : Link} {e : Entry}

open LinkLaws in
theorem apply_eq {m m' : ExpansionStateMachine} {event : ExpansionEvent} {ok : Bool}
    {action : ExpansionAction} (h : expansionStateMachineApply m event = (ok, action, m')) :
    Transition m event (ok, action, m') := h ▸ apply_transition m event

theorem offline_of_advance {m m' : ExpansionStateMachine} {event : ExpansionEvent} {ok : Bool}
    {action : ExpansionAction} (h : expansionStateMachineApply m event = (ok, action, m'))
    (hevent : event = .start ∨ event = .heartbeatReceived ∨ event = .baudRejected)
    (hm : Bridge.offline m.state = true) : Bridge.offline m'.state = true := by
  have ht := apply_eq h
  rcases hevent with rfl | rfl | rfl <;> cases ht <;> first | rfl | exact hm

theorem offline_of_timeout {m m' : ExpansionStateMachine} {ok : Bool} {action : ExpansionAction}
    (h : expansionStateMachineApply m .timeout = (ok, action, m')) :
    Bridge.offline m'.state = true := by
  have ht := apply_eq h
  cases ht with
  | retried | exhausted => rfl
  | rejected he => cases he

theorem baudAccepted_cases {m m' : ExpansionStateMachine} {ok : Bool} {action : ExpansionAction}
    (h : expansionStateMachineApply m .baudAccepted = (ok, action, m')) :
    ok = true ∧ m'.state = .ready ∨ ok = false ∧ m' = m := by
  have ht := apply_eq h
  cases ht with
  | negotiated => exact .inl ⟨rfl, rfl⟩
  | rejected => exact .inr ⟨rfl, rfl⟩
  | retried he | exhausted he => cases he

/-- While there is no link, all that is asked of the link is that the machine says so. -/
theorem Sound.of_offline (h : l.Sound) (hrx : l'.rx = none)
    (hmachine : Bridge.offline l'.machine.state = true) (hearly : l'.supervisor.early = false)
    (hending : l'.supervisor.ending = false)
    (hrpcRx : l'.rpcRx = l.rpcRx) (hwriter : l'.writer = l.writer)
    (hclient : l'.client = l.client) :
    l'.Sound where
  offline _ := hmachine
  early := by simp [hearly]
  lost := by simp [hending]
  manned _ := hrx
  starting hstate := by simp [hstate, Bridge.offline] at hmachine
  ready hstate := by simp [hstate, Bridge.offline] at hmachine
  stopping hstate := by simp [hstate, Bridge.offline] at hmachine
  receiving := by simp [hrx]
  bounded := by rw [hrpcRx]; exact h.bounded
  fits := by simp [hrx]
  clean hstate := by simp [hstate, Bridge.offline] at hmachine
  cleanStart hstate := by simp [hstate, Bridge.offline] at hmachine
  writer := by rw [hwriter, hclient]; exact h.writer

theorem early_not_manned {ph : SupervisorPhase} (h : ph.early = true) : ph.manned = false := by
  cases ph <;> first | rfl | cases h

/-- Before there is a receiving task, the supervisor prepares the link. -/
theorem Sound.of_early (h : l.Sound) (hold : l.supervisor.early = true)
    (hoffline : l'.supervisor.offline = false)
    (hending : l'.supervisor.ending = false) (hmachine : l'.machine = l.machine)
    (hlastStatus : l'.lastStatus = l.lastStatus) (hlost : l'.lost = l.lost) (hrx : l'.rx = l.rx)
    (hclient : l'.client = l.client) (hwriter : l'.writer = l.writer)
    (hrpcRx : l'.supervisor.stale = true ∧ l'.rpcRx = l.rpcRx ∨ l'.rpcRx = []) : l'.Sound := by
  have hnone : l'.rx = none := by rw [hrx, h.manned (early_not_manned hold)]
  have hsession : l'.session = l.session := by rw [session, hclient]; rfl
  have hbounded : l'.rpcRx.length ≤ bridgeRpcRxBufferBytes := by
    obtain ⟨-, hrpcRx⟩ | hrpcRx := hrpcRx
    · rw [hrpcRx]
      exact h.bounded
    · simp [hrpcRx]
  have hclean : l'.supervisor.stale = true ∨ l'.rpcRx = [] := hrpcRx.imp_left And.left
  exact {
    offline := by simp [hoffline]
    early := by
      intro
      have hmachine' := h.early hold
      rwa [← hmachine, Unheard, ← hsession, ← hlastStatus] at hmachine'
    lost := by simp [hending]
    manned := fun _ => hnone
    starting := by rw [hmachine, hsession, hlost]; exact h.starting
    ready := by rw [hmachine, hsession]; exact h.ready
    stopping := by rw [hmachine, hsession, hlost, hwriter]; exact h.stopping
    receiving := by simp [hnone]
    bounded := hbounded
    fits := by simp [hnone]
    clean := fun _ => hclean.imp_right .inl
    cleanStart := fun _ => hclean
    writer := by rw [hwriter, hclient]; exact h.writer }

theorem SupervisorStep.sound (h : l.Sound) (hstep : SupervisorStep l e l') : l'.Sound := by
  obtain ⟨shared, supervisor, server, rx, client, writer⟩ := l
  cases hstep with
  | attempt hsup =>
    obtain rfl : supervisor = _ := hsup
    exact h.of_offline (h.manned rfl) (h.offline rfl) rfl rfl rfl rfl rfl
  | restart hsup =>
    obtain rfl : supervisor = _ := hsup
    exact h.of_offline (h.manned rfl) rfl rfl rfl rfl rfl rfl
  | configure hsup baud error =>
    obtain rfl : supervisor = _ := hsup
    exact h.of_offline (h.manned rfl) (h.offline rfl) rfl rfl rfl rfl rfl
  | write hsup bytes written =>
    obtain rfl : supervisor = _ := hsup
    exact h.of_offline (h.manned rfl) (h.offline rfl) rfl rfl rfl rfl rfl
  | advance hsup event hevent happly =>
    obtain rfl : supervisor = _ := hsup
    have hoffline := offline_of_advance happly hevent (h.offline rfl)
    exact h.of_offline (h.manned rfl) hoffline rfl rfl rfl rfl rfl
  | accept hsup happly =>
    obtain rfl : supervisor = _ := hsup
    have hrx : rx = none := h.manned rfl
    obtain ⟨rfl, hready⟩ | ⟨rfl, rfl⟩ := baudAccepted_cases happly
    · exact {
        offline := by simp [SupervisorPhase.offline]
        early := fun _ => .inl hready
        lost := by simp [SupervisorPhase.ending]
        manned := fun _ => hrx
        starting := by simp [hready]
        ready := by simp [hready]
        stopping := by simp [hready]
        receiving := by simp [hrx]
        bounded := h.bounded
        fits := by simp [hrx]
        clean := fun _ => .inl rfl
        cleanStart := by simp [hready]
        writer := h.writer }
    · exact h.of_offline hrx (h.offline rfl) rfl rfl rfl rfl rfl
  | fall hsup happly =>
    have hrx : rx = none := by
      obtain ⟨request, rfl⟩ | rfl | ⟨baud, rfl⟩ : (∃ request, supervisor = .trying request) ∨
        supervisor = .failed ∨ ∃ baud, supervisor = .closed baud := hsup
      all_goals exact h.manned rfl
    exact h.of_offline hrx (offline_of_timeout happly) rfl rfl rfl rfl rfl
  | switch hsup hbaud hrequest error =>
    obtain rfl : supervisor = _ := hsup
    by_cases herror : error = .ok
    · rw [if_pos herror, if_pos herror]
      exact h.of_early rfl rfl rfl rfl rfl rfl rfl rfl rfl (.inl ⟨rfl, rfl⟩)
    · rw [if_neg herror, if_neg herror]
      exact h.of_early rfl rfl rfl rfl rfl rfl rfl rfl rfl (.inl ⟨rfl, rfl⟩)
  | store hsup =>
    obtain rfl : supervisor = _ := hsup
    exact h.of_early rfl rfl rfl rfl rfl rfl rfl rfl rfl (.inl ⟨rfl, rfl⟩)
  | clear hsup =>
    obtain rfl : supervisor = _ := hsup
    exact h.of_early rfl rfl rfl rfl rfl rfl rfl rfl rfl (.inr rfl)
  | createRx hsup =>
    obtain rfl : supervisor = _ := hsup
    exact { h with
      offline := by simp [SupervisorPhase.offline]
      early := by simp [SupervisorPhase.early]
      lost := by simp [SupervisorPhase.ending]
      manned := by simp [SupervisorPhase.manned]
      receiving := by simp
      fits := by simp }
  | createNone hsup =>
    obtain rfl : supervisor = _ := hsup
    exact { h with }
  | lose hsup reason =>
    obtain rfl | rfl : supervisor = .unmanned _ ∨ supervisor = .linked _ := hsup
    all_goals exact { h with
      offline := by simp [SupervisorPhase.offline]
      early := by simp [SupervisorPhase.early]
      lost := fun _ => rfl
      manned := by simp [SupervisorPhase.manned]
      starting := fun _ => .inr rfl
      stopping := fun hstate => ⟨.inr rfl, (h.stopping hstate).2⟩ }
  | wake hsup hlost seen =>
    obtain rfl : supervisor = _ := hsup
    exact { h with
      lost := fun _ => hlost
      manned := by simp [SupervisorPhase.manned] }
  | look hsup handle hhandle =>
    obtain rfl : supervisor = _ := hsup
    cases handle with
    | none =>
      have hrx : rx = none := by
        cases hrx : rx with
        | none => rfl
        | some named => exact absurd (hhandle named.1 named.2 hrx) (by simp)
      exact { h with manned := fun _ => hrx }
    | some id => exact { h with }
  | delete hsup =>
    obtain rfl : supervisor = _ := hsup
    exact { h with
      manned := fun _ => rfl
      receiving := by simp
      fits := by simp }
  | tidy hsup o r ho => exact h
  | enter => exact h
  | leave hreturns => exact h

end Supervisor

/-! ### The receiving task and the writer -/

section Rx
variable {l l' : Link} {e : Entry} {id : ℕ}

theorem RxStep.sound (h : l.Sound) (hstep : RxStep l id e l') : l'.Sound := by
  obtain ⟨shared, supervisor, server, rx, client, writer⟩ := l
  have hmanned : ∀ ph : RxPhase, rx = some (id, ph) → ∀ rx' : Option (ℕ × RxPhase),
      supervisor.manned = false → rx' = none := by
    rintro ph rfl rx' hunmanned
    exact absurd (h.manned hunmanned) (by simp)
  cases hstep with
  | frame hrx frame =>
    exact { h with
      manned := hmanned _ hrx _
      receiving := by cases frame <;> simp
      fits := by cases frame <;> simp }
  | offer hrx status hawaiting =>
    exact { h with
      early := fun hearly => absurd (hrx.symm.trans (h.manned (early_not_manned hearly))) (by simp)
      receiving := by rw [show rx = some (id, .reading) from hrx]; simp }
  | unexpected hrx status hawaiting => exact h
  | peek hrx seen =>
    exact { h with
      manned := hmanned _ hrx _
      receiving := by split <;> simp
      fits := by split <;> simp }
  | check hrx =>
    refine { h with manned := hmanned _ hrx _, receiving := ?_, fits := ?_ }
    · intro n bytes
      split
      · next hready => exact fun _ => .inl hready
      · simp
    · split <;> simp
  | count hrx =>
    refine { h with manned := hmanned _ hrx _, receiving := ?_, fits := ?_ }
    · intro n bytes
      split
      · exact fun _ => h.receiving id _ (.inl hrx)
      · simp
    · split
      · next hfits =>
        rintro n bytes ⟨⟩
        simp only [bridgeIoBufferCanAccept, Bool.and_eq_true, decide_eq_true_eq] at hfits
        change shared.rpcRx.length + _ ≤ _
        omega
      · simp
  | deposit hrx hsent =>
    have hfits := h.fits id _ hrx
    have hstate := h.receiving id _ (.inr hrx)
    have hready : shared.machine.state ≠ .ready := by
      intro hready
      rcases hstate with hstate | ⟨hstate, -⟩ <;> exact absurd (hready.symm.trans hstate) (by simp)
    have hstart : shared.machine.state ≠ .startingRpc := by
      intro hstart
      rcases hstate with hstate | ⟨hstate, -⟩ <;> exact absurd (hstart.symm.trans hstate) (by simp)
    refine { h with
      manned := hmanned _ hrx _
      receiving := by split <;> simp
      bounded := ?_
      fits := by split <;> simp
      clean := fun hstate => absurd hstate hready
      cleanStart := fun hstate => absurd hstate hstart }
    simp only [List.length_append, List.length_take]
    change shared.rpcRx.length + _ ≤ _ at hfits
    omega
  | acknowledge hrx written =>
    exact { h with
      manned := hmanned _ hrx _
      receiving := by split <;> simp
      fits := by split <;> simp }
  | refuse hrx hbytes written => exact h
  | lose hrx reason =>
    exact { h with
      lost := fun _ => rfl
      manned := hmanned _ hrx _
      starting := fun _ => .inr rfl
      stopping := fun hstate => ⟨.inr rfl, (h.stopping hstate).2⟩
      receiving := by simp
      fits := by simp }
  | leave hrx =>
    exact { h with
      manned := fun _ => rfl
      receiving := by simp
      fits := by simp }

end Rx

theorem WriterStep.sound {l l' : Link} {e : Entry} {socket : ℕ} (h : l.Sound)
    (hstep : WriterStep l socket e l') : l'.Sound := by
  obtain ⟨shared, supervisor, server, rx, client, writer⟩ := l
  cases hstep with
  | take hwriter capacity =>
    obtain rfl : writer = _ := hwriter
    have hlength : (shared.rpcRx.drop capacity).length ≤ shared.rpcRx.length :=
      (List.drop_sublist _ _).length_le
    exact { h with
      stopping := fun hstate => absurd (h.stopping hstate).2.2 (by simp)
      bounded := hlength.trans h.bounded
      fits := fun id bytes hrx => (Nat.add_le_add_right hlength _).trans (h.fits id bytes hrx)
      clean := fun hstate => (h.clean hstate).imp_right (.imp_left fun hempty => by
        rw [show shared.rpcRx = [] from hempty]
        exact List.drop_nil)
      cleanStart := fun hstate => (h.cleanStart hstate).imp_right fun hempty => by
        rw [show shared.rpcRx = [] from hempty]
        exact List.drop_nil
      writer := by
        rintro n rest ⟨⟩
        exact h.writer _ _ rfl }
  | send hwriter hsent =>
    obtain rfl : writer = _ := hwriter
    exact { h with
      stopping := fun hstate => absurd (h.stopping hstate).2.2 (by simp)
      writer := by
        rintro n rest ⟨⟩
        exact h.writer _ _ rfl }
  | state hwriter => exact h
  | finish hwriter =>
    exact { h with
      stopping := fun hstate => ⟨(h.stopping hstate).1, (h.stopping hstate).2.1, rfl⟩
      writer := by simp }

/-! ### The client -/

/-- What becomes of an event the client gives to the machine. -/
inductive Verdict (m m' : ExpansionStateMachine) :
    ExpansionEvent → Bool → SessionPhase → SessionPhase → Prop
  | begun (h : m.state = .ready) (h' : m'.state = .startingRpc) :
    Verdict m m' .beginRpc true .managing (.begun .unarmed)
  | started (h : m.state = .startingRpc) (h' : m'.state = .rpcReady) :
    Verdict m m' .rpcStarted true (.begun .acked) (.opened none)
  | ended {session : SessionPhase} (hsession : Unfinished session) (h : m.state = .rpcReady)
      (h' : m'.state = .stoppingRpc) : Verdict m m' .endRpc true session (.ending .unarmed)
  | stopped (h : m.state = .stoppingRpc) (h' : m'.state = .ready) :
    Verdict m m' .rpcStopped true (.ending .acked) .stopped
  | notBegun (h : m' = m) : Verdict m m' .beginRpc false .managing .managing
  | notStarted (h : m' = m) : Verdict m m' .rpcStarted false (.begun .acked) (.begun .unarmed)
  | notEnded {session : SessionPhase} (hsession : Unfinished session) (h : m' = m)
      (hstate : m.state ≠ .rpcReady) : Verdict m m' .endRpc false session .finished
  | notStopped (h : m' = m) : Verdict m m' .rpcStopped false (.ending .acked) (.ending .unarmed)

theorem state_ne_of_endRpc {m m' : ExpansionStateMachine} {action : ExpansionAction}
    (h : expansionStateMachineApply m .endRpc = (false, action, m')) : m.state ≠ .rpcReady := by
  intro hstate
  unfold expansionStateMachineApply at h
  rw [hstate] at h
  cases h

theorem verdict {m m' : ExpansionStateMachine} {event : ExpansionEvent} {ok : Bool}
    {action : ExpansionAction} {session session' : SessionPhase}
    (happly : expansionStateMachineApply m event = (ok, action, m'))
    (hsession : session.apply event ok = some session') :
    Verdict m m' event ok session session' := by
  have hended : ∀ ok, expansionStateMachineApply m .endRpc = (ok, action, m') →
      Unfinished session → Verdict m m' .endRpc ok session
        (if ok then .ending .unarmed else .finished) := by
    intro ok happly hunfinished
    have ht := apply_eq happly
    cases ht with
    | finish => exact .ended hunfinished rfl rfl
    | rejected => exact .notEnded hunfinished rfl (state_ne_of_endRpc happly)
    | retried he | exhausted he => cases he
  have ht := apply_eq happly
  unfold SessionPhase.apply at hsession
  split at hsession
  · obtain rfl := Option.some_inj.mp hsession
    cases ht with
    | begin => exact .begun rfl rfl
    | rejected => exact .notBegun rfl
    | retried he | exhausted he => cases he
  · obtain rfl := Option.some_inj.mp hsession
    cases ht with
    | started => exact .started rfl rfl
    | rejected => exact .notStarted rfl
    | retried he | exhausted he => cases he
  · obtain rfl := Option.some_inj.mp hsession
    exact hended _ happly (.inl ⟨_, rfl⟩)
  · obtain rfl := Option.some_inj.mp hsession
    exact hended _ happly (.inr rfl)
  · obtain rfl := Option.some_inj.mp hsession
    cases ht with
    | stopped => exact .stopped rfl rfl
    | rejected => exact .notStopped rfl
    | retried he | exhausted he => cases he
  · cases hsession

/-- Changes of the client, or of who is the client, that the machine does not take part in. A
session may be given up once the loss was signalled, or the machine has left it. -/
structure Mild (l l' : Link) : Prop where
  machine : l'.machine = l.machine
  supervisor : l'.supervisor = l.supervisor
  rx : l'.rx = l.rx
  idle : l.writer = none → l'.writer = none ∨ l.machine.state ≠ .stoppingRpc
  lost : l.lost = true → l'.lost = true
  unheard : l.Unheard → l'.Unheard
  begun : ∀ exchange, l.session = some (.begun exchange) →
    (∃ exchange', l'.session = some (.begun exchange')) ∨ l'.lost = true
  ending : ∀ exchange, l.session = some (.ending exchange) →
    (∃ exchange', l'.session = some (.ending exchange')) ∨ l'.lost = true
  opened : ∀ answer, l.session = some (.opened answer) →
    (∃ answer', l'.session = some (.opened answer')) ∨ l.machine.state ≠ .rpcReady
  notOpened : ∀ answer, l'.session = some (.opened answer) →
    ∃ answer', l.session = some (.opened answer')
  stopped : l.session = some .stopped → l'.session = some .stopped ∨ l'.rpcRx = []
  rpcRx : l'.rpcRx = l.rpcRx ∨ l'.rpcRx = []
  writer : ∀ socket rest, l'.writer = some (socket, rest) →
    ∃ ph, l'.client = some (socket, ph) ∧ ph.proxy = .running

section Client
variable {l l' : Link} {e : Entry}

theorem Mild.empty (hmild : Mild l l') (hempty : l.rpcRx = []) : l'.rpcRx = [] := by
  obtain hrpcRx | hrpcRx := hmild.rpcRx
  · rw [hrpcRx, hempty]
  · exact hrpcRx

theorem Mild.length_le (hmild : Mild l l') : l'.rpcRx.length ≤ l.rpcRx.length := by
  obtain hrpcRx | hrpcRx := hmild.rpcRx
  · rw [hrpcRx]
  · simp [hrpcRx]

theorem Mild.sound (h : l.Sound) (hmild : Mild l l') : l'.Sound where
  offline := by rw [hmild.supervisor, hmild.machine]; exact h.offline
  early := by
    rw [hmild.supervisor, hmild.machine]
    exact fun hearly => (h.early hearly).imp_right fun hstart => ⟨hstart.1, hmild.unheard hstart.2⟩
  lost := by
    rw [hmild.supervisor]
    exact fun hending => hmild.lost (h.lost hending)
  manned := by rw [hmild.supervisor, hmild.rx]; exact h.manned
  starting := by
    rw [hmild.machine]
    intro hstate
    obtain ⟨exchange, hsession⟩ | hlost := h.starting hstate
    · exact hmild.begun exchange hsession
    · exact .inr (hmild.lost hlost)
  ready := by
    rw [hmild.machine]
    intro hstate
    obtain ⟨answer, hsession⟩ := h.ready hstate
    exact (hmild.opened answer hsession).resolve_right (not_not.mpr hstate)
  stopping := by
    rw [hmild.machine]
    intro hstate
    obtain ⟨hending, hopened, hwriter⟩ := h.stopping hstate
    refine ⟨?_, ?_, (hmild.idle hwriter).resolve_right (not_not.mpr hstate)⟩
    · obtain ⟨exchange, hsession⟩ | hlost := hending
      · exact hmild.ending exchange hsession
      · exact .inr (hmild.lost hlost)
    · intro answer hsession
      obtain ⟨answer', hold⟩ := hmild.notOpened answer hsession
      exact hopened answer' hold
  receiving := by
    rw [hmild.rx, hmild.machine]
    intro id bytes hrx
    exact (h.receiving id bytes hrx).imp_right fun hstop => ⟨hstop.1, hmild.unheard hstop.2⟩
  bounded := hmild.length_le.trans h.bounded
  fits := by
    rw [hmild.rx]
    exact fun id bytes hrx => (Nat.add_le_add_right hmild.length_le _).trans (h.fits id bytes hrx)
  clean := by
    rw [hmild.machine, hmild.supervisor]
    intro hstate
    obtain hstale | hempty | hstopped := h.clean hstate
    · exact .inl hstale
    · exact .inr (.inl (hmild.empty hempty))
    · exact .inr (hmild.stopped hstopped).symm
  cleanStart := by
    rw [hmild.machine, hmild.supervisor]
    exact fun hstate => (h.cleanStart hstate).imp_right hmild.empty
  writer := hmild.writer

/-- How a session may change without the machine. -/
structure Session (l : Link) (shared : Shared) (session session' : SessionPhase) : Prop where
  unheard : session.unheard l.lastStatus → session'.unheard shared.lastStatus
  begun : ∀ exchange, session = .begun exchange →
    (∃ exchange', session' = .begun exchange') ∨ shared.lost = true
  ending : ∀ exchange, session = .ending exchange →
    (∃ exchange', session' = .ending exchange') ∨ shared.lost = true
  opened : ∀ answer, session = .opened answer →
    (∃ answer', session' = .opened answer') ∨ l.machine.state ≠ .rpcReady
  notOpened : ∀ answer, session' = .opened answer → ∃ answer', session = .opened answer'
  stopped : session = .stopped → session' = .stopped ∨ shared.rpcRx = []

theorem session_of_client {socket : ℕ} {ph : ClientPhase} (h : l.client = some (socket, ph)) :
    l.session = some ph.session := by
  rw [session, h]
  rfl

/-- The writer works for the client, whose proxy is running. -/
theorem Sound.running {socket n : ℕ} {ph : ClientPhase} {rest : List UInt8} (h : l.Sound)
    (hclient : l.client = some (socket, ph)) (hwriter : l.writer = some (n, rest)) :
    n = socket ∧ ph.proxy = .running := by
  obtain ⟨ph', hph', hrunning⟩ := h.writer n rest hwriter
  rw [hclient] at hph'
  cases hph'
  exact ⟨rfl, hrunning⟩

theorem Sound.still_running {socket : ℕ} {ph ph' : ClientPhase} (h : l.Sound)
    (hclient : l.client = some (socket, ph)) (hproxy : ph'.proxy = ph.proxy) :
    ∀ n rest, l.writer = some (n, rest) →
      ∃ ph'', some (socket, ph') = some (n, ph'') ∧ ph''.proxy = .running := by
  intro n rest hwriter
  obtain ⟨rfl, hrunning⟩ := h.running hclient hwriter
  exact ⟨ph', rfl, hproxy.trans hrunning⟩

theorem Sound.not_manned {socket : ℕ} {ph : ClientPhase} (h : l.Sound)
    (hclient : l.client = some (socket, ph)) (hproxy : ph.proxy ≠ .running) : l.writer = none := by
  cases hwriter : l.writer with
  | none => rfl
  | some writer => exact absurd (h.running hclient hwriter).2 hproxy

theorem Session.sound {socket : ℕ} {ph : ClientPhase} {shared : Shared} {session' : SessionPhase}
    (h : l.Sound) (hclient : l.client = some (socket, ph))
    (hsession : Session l shared ph.session session') (hmachine : shared.machine = l.machine)
    (hlost : l.lost = true → shared.lost = true)
    (hrpcRx : shared.rpcRx = l.rpcRx ∨ shared.rpcRx = []) :
    Sound { l with
      toShared := shared
      client := some (socket, { ph with session := session' }) } := by
  have hold := session_of_client hclient
  have hmild : Mild l { l with
      toShared := shared
      client := some (socket, { ph with session := session' }) } :=
    { machine := hmachine
      supervisor := rfl
      rx := rfl
      idle := .inl
      lost := hlost
      unheard := by
        rintro hunheard _ ⟨⟩
        exact hsession.unheard (hunheard _ hold)
      begun := by
        intro exchange hbegun
        rw [hold, Option.some_inj] at hbegun
        exact (hsession.begun exchange hbegun).imp_left (.imp fun _ => congrArg some)
      ending := by
        intro exchange hending
        rw [hold, Option.some_inj] at hending
        exact (hsession.ending exchange hending).imp_left (.imp fun _ => congrArg some)
      opened := by
        intro answer hopened
        rw [hold, Option.some_inj] at hopened
        exact (hsession.opened answer hopened).imp_left (.imp fun _ => congrArg some)
      notOpened := by
        intro answer hopened
        obtain ⟨answer', hold'⟩ := hsession.notOpened answer (Option.some_inj.mp hopened)
        exact ⟨answer', hold.trans (congrArg some hold')⟩
      stopped := by
        intro hstopped
        rw [hold, Option.some_inj] at hstopped
        exact (hsession.stopped hstopped).imp_left (congrArg some)
      rpcRx := hrpcRx
      writer := h.still_running hclient rfl }
  exact hmild.sound h

/-- Changes that leave the session alone. -/
theorem Sound.of_session_eq (h : l.Sound) (hsession : l'.session = l.session)
    (hshared : l'.toShared = l.toShared) (hsupervisor : l'.supervisor = l.supervisor)
    (hrx : l'.rx = l.rx)
    (hidle : l.writer = none → l'.writer = none ∨ l.machine.state ≠ .stoppingRpc)
    (hwriter : ∀ socket rest, l'.writer = some (socket, rest) →
      ∃ ph, l'.client = some (socket, ph) ∧ ph.proxy = .running) : l'.Sound := by
  have hmild : Mild l l' :=
    { machine := congrArg Shared.machine hshared
      supervisor := hsupervisor
      rx := hrx
      idle := hidle
      lost := by rw [hshared]; exact id
      unheard := by rw [Unheard, Unheard, hsession, hshared]; exact id
      begun := by rw [hsession]; exact fun exchange hbegun => .inl ⟨exchange, hbegun⟩
      ending := by rw [hsession]; exact fun exchange hending => .inl ⟨exchange, hending⟩
      opened := by rw [hsession]; exact fun answer hopened => .inl ⟨answer, hopened⟩
      notOpened := by rw [hsession]; exact fun answer hopened => ⟨answer, hopened⟩
      stopped := by rw [hsession]; exact .inl
      rpcRx := .inl (congrArg Shared.rpcRx hshared)
      writer := hwriter }
  exact hmild.sound h

theorem Sound.not_stopping (h : l.Sound) {answer : Option (List UInt8)}
    (hsession : l.session = some (.opened answer)) : l.machine.state ≠ .stoppingRpc := by
  intro hstate
  exact (h.stopping hstate).2.1 answer hsession

theorem Sound.not_rpcReady (h : l.Sound) {socket : ℕ} {ph : ClientPhase}
    (hclient : l.client = some (socket, ph)) (hsession : ∀ answer, ph.session ≠ .opened answer) :
    l.machine.state ≠ .rpcReady := by
  intro hstate
  obtain ⟨answer, hopened⟩ := h.ready hstate
  rw [session_of_client hclient, Option.some_inj] at hopened
  exact hsession answer hopened

/-- While the machine is in a session, the supervisor watches the link. -/
theorem Sound.watched (h : l.Sound) (hstate : l.machine.state = .rpcReady ∨
    l.machine.state = .stoppingRpc) :
      l.supervisor.offline = false ∧ l.supervisor.early = false := by
  constructor
  · apply Bool.eq_false_iff.mpr
    intro hoffline
    have hmachine := h.offline hoffline
    rcases hstate with hstate | hstate <;> simp [hstate, Bridge.offline] at hmachine
  · apply Bool.eq_false_iff.mpr
    intro hearly
    rcases h.early hearly with hready | ⟨hstart, -⟩
    · rcases hstate with hstate | hstate <;> simp [hstate] at hready
    · rcases hstate with hstate | hstate <;> simp [hstate] at hstart

/-! What becomes of the session when the machine takes an event of the client. -/

section Apply
variable {socket : ℕ} {ph : ClientPhase} {machine : ExpansionStateMachine} (h : l.Sound)
  (hclient : l.client = some (socket, ph))
include h hclient

theorem Sound.begun (hsession : ph.session = .managing) (hready : l.machine.state = .ready)
    (hstart : machine.state = .startingRpc) :
    Sound { l.withSession socket ph (.begun .unarmed) with machine := machine } :=
  { h with
    offline := by
      intro hoffline
      have hmachine := h.offline hoffline
      simp [hready, Bridge.offline] at hmachine
    early := by
      refine fun _ => .inr ⟨hstart, ?_⟩
      rintro _ ⟨⟩
      trivial
    starting := fun _ => .inl ⟨_, rfl⟩
    ready := by simp [hstart]
    stopping := by simp [hstart]
    receiving := by
      intro id bytes hrx
      rcases h.receiving id bytes hrx with hstate | ⟨hstate, -⟩ <;> simp [hready] at hstate
    clean := by simp [hstart]
    cleanStart := by
      have hclean : l.supervisor.stale = true ∨ l.rpcRx = [] := by
        simpa [session_of_client hclient, hsession] using h.clean hready
      exact fun _ => hclean
    writer := h.still_running hclient rfl }

theorem Sound.started (hsession : ph.session = .begun .acked)
    (hstart : l.machine.state = .startingRpc) (hready : machine.state = .rpcReady) :
    Sound { l.withSession socket ph (.opened none) with machine := machine } :=
  { h with
    offline := by
      intro hoffline
      have hmachine := h.offline hoffline
      simp [hstart, Bridge.offline] at hmachine
    early := by
      intro hearly
      rcases h.early hearly with hmachine | ⟨-, hunheard⟩
      · simp [hstart] at hmachine
      · have hacked := hunheard _ (session_of_client hclient)
        rw [hsession] at hacked
        exact hacked.elim
    starting := by simp [hready]
    ready := fun _ => ⟨none, rfl⟩
    stopping := by simp [hready]
    receiving := fun _ _ _ => .inl hready
    clean := by simp [hready]
    cleanStart := by simp [hready]
    writer := h.still_running hclient rfl }

theorem Sound.ended (hproxy : ph.proxy ≠ .running) (hready : l.machine.state = .rpcReady)
    (hstop : machine.state = .stoppingRpc) :
    Sound { l.withSession socket ph (.ending .unarmed) with machine := machine } := by
  obtain ⟨hoffline, hearly⟩ := h.watched (.inl hready)
  exact { h with
    offline := fun h => absurd (hoffline.symm.trans h) (by simp)
    early := fun h => absurd (hearly.symm.trans h) (by simp)
    starting := by simp [hstop]
    ready := by simp [hstop]
    stopping := fun _ =>
      ⟨.inl ⟨_, rfl⟩, by simp [withSession, Link.session], h.not_manned hclient hproxy⟩
    receiving := by
      refine fun _ _ _ => .inr ⟨hstop, ?_⟩
      rintro _ ⟨⟩
      trivial
    clean := by simp [hstop]
    cleanStart := by simp [hstop]
    writer := h.still_running hclient rfl }

theorem Sound.stopped (hsession : ph.session = .ending .acked)
    (hstop : l.machine.state = .stoppingRpc) (hready : machine.state = .ready) :
    Sound { l.withSession socket ph .stopped with machine := machine } := by
  obtain ⟨hoffline, hearly⟩ := h.watched (.inr hstop)
  exact { h with
    offline := fun h => absurd (hoffline.symm.trans h) (by simp)
    early := fun h => absurd (hearly.symm.trans h) (by simp)
    starting := by simp [hready]
    ready := by simp [hready]
    stopping := by simp [hready]
    receiving := by
      intro id bytes hrx
      rcases h.receiving id bytes hrx with hstate | ⟨-, hunheard⟩
      · simp [hstop] at hstate
      · have hacked := hunheard _ (session_of_client hclient)
        rw [hsession] at hacked
        exact hacked.elim
    clean := fun _ => .inr (.inr rfl)
    cleanStart := by simp [hready]
    writer := h.still_running hclient rfl }

/-- The machine does not take the event. -/
theorem Sound.refused {session' : SessionPhase} (hmachine : machine = l.machine)
    (hsession : Session l l.toShared ph.session session') :
    Sound { l.withSession socket ph session' with machine := machine } := by
  subst hmachine
  have hsound := hsession.sound h hclient rfl id (.inl rfl)
  exact hsound

theorem Sound.apply {event : ExpansionEvent} {ok : Bool} {session' : SessionPhase}
    (hproxy : event = .endRpc → ph.proxy ≠ .running)
    (hverdict : Verdict l.machine machine event ok ph.session session') :
    Sound { l.withSession socket ph session' with machine := machine } := by
  generalize hsession : ph.session = session at hverdict
  cases hverdict with
  | begun hready hstart => exact h.begun hclient hsession hready hstart
  | started hstart hready => exact h.started hclient hsession hstart hready
  | ended hunfinished hready hstop => exact h.ended hclient (hproxy rfl) hready hstop
  | stopped hstop hready => exact h.stopped hclient hsession hstop hready
  | notBegun hmachine =>
    apply h.refused hclient hmachine
    rw [hsession]
    constructor <;> simp
  | notStarted hmachine =>
    apply h.refused hclient hmachine
    rw [hsession]
    constructor <;> simp [SessionPhase.unheard, Exchange.unheard]
  | notEnded hunfinished hmachine hstate =>
    apply h.refused hclient hmachine
    rw [hsession]
    obtain ⟨answer, rfl⟩ | rfl := hunfinished
    all_goals constructor <;> simp [SessionPhase.unheard, hstate]
  | notStopped hmachine =>
    apply h.refused hclient hmachine
    rw [hsession]
    constructor <;> simp [SessionPhase.unheard, Exchange.unheard]

end Apply

/-! What the client does to its session by itself. -/

namespace Session
variable {session session' : SessionPhase}

theorem look : Session l l.toShared session (session.look l.machine.state) := by
  cases session
  case opened answer =>
    by_cases hstate : l.machine.state = .rpcReady
    · rw [SessionPhase.look, if_pos hstate]
      constructor <;> simp
    · rw [SessionPhase.look, if_neg hstate]
      constructor <;> simp [SessionPhase.unheard, hstate]
  all_goals constructor <;> simp [SessionPhase.look]

theorem arm :
    Session l { l.toShared with awaiting := true, lastStatus := .unknown } session session.arm := by
  cases session
  all_goals constructor <;> simp [SessionPhase.arm, SessionPhase.unheard, Exchange.unheard]

theorem disarm :
    Session l { l.toShared with awaiting := false } session (session.disarm l.lastStatus) := by
  cases session
  case begun exchange | ending exchange =>
    by_cases hnone : l.lastStatus = .none
    · cases exchange
      all_goals constructor <;>
        simp [SessionPhase.disarm, SessionPhase.unheard, Exchange.unheard, hnone]
    · cases exchange
      all_goals constructor <;>
        simp [SessionPhase.disarm, SessionPhase.unheard, Exchange.unheard, hnone]
  all_goals constructor <;> simp [SessionPhase.disarm, SessionPhase.unheard]

theorem signal : Session l { l.toShared with lost := true } session session.signal := by
  cases session
  all_goals constructor <;> simp [SessionPhase.signal, SessionPhase.unheard]

theorem reset : Session l { l.toShared with rpcRx := [] } .stopped .finished := by
  constructor <;> simp [SessionPhase.unheard]

theorem respond {request : BridgeMessage} {status : BridgeStatus} {payload : List UInt8}
    (h : session.respond request status payload = some session') :
    Session l l.toShared session session' := by
  unfold SessionPhase.respond at h
  split at h
  · obtain rfl := Option.some_inj.mp h
    constructor <;> simp
  · obtain ⟨-, hmap⟩ := Option.ite_none_right_eq_some.mp h
    obtain ⟨encoded, -, rfl⟩ := Option.map_eq_some_iff.mp hmap
    constructor <;> simp [SessionPhase.unheard]
  · cases h

theorem send {bytes : List UInt8} {sent : ℤ} (h : session.send bytes sent = some session') :
    Session l l.toShared session session' := by
  unfold SessionPhase.send at h
  split at h
  · obtain rfl := Option.some_inj.mp h
    constructor <;> simp
  · obtain ⟨-, ⟨⟩⟩ := Option.ite_none_right_eq_some.mp h
    constructor <;> simp [SessionPhase.unheard]
  · cases h

end Session

/-- A client that is done with its session gives the slot back. -/
theorem Mild.release {socket : ℕ} {ph : ClientPhase} (h : l.Sound)
    (hclient : l.client = some (socket, ph))
    (hover : ph.session = .managing ∨ ph.session = .finished) (hproxy : ph.proxy ≠ .running) :
    Mild l { l with client := none } := by
  have hdone : ∀ session, l.session = some session → session = .managing ∨ session = .finished := by
    intro session hsession
    rw [session_of_client hclient, Option.some_inj] at hsession
    exact hsession ▸ hover
  exact
    { machine := rfl
      supervisor := rfl
      rx := rfl
      idle := .inl
      lost := id
      unheard := by rintro - _ ⟨⟩
      begun := fun exchange hbegun => absurd (hdone _ hbegun) (by simp)
      ending := fun exchange hending => absurd (hdone _ hending) (by simp)
      opened := fun answer hopened => absurd (hdone _ hopened) (by simp)
      notOpened := by rintro answer ⟨⟩
      stopped := fun hstopped => absurd (hdone _ hstopped) (by simp)
      rpcRx := .inl rfl
      writer := fun n rest hwriter => absurd ((h.not_manned hclient hproxy).symm.trans hwriter)
        (by simp) }

theorem ClientStep.sound {socket : ℕ} {ph : ClientPhase} (h : l.Sound)
    (hclient : l.client = some (socket, ph)) (hstep : ClientStep l socket ph e l') : l'.Sound := by
  have hold := session_of_client hclient
  have hmoves {shared : Shared} {session : SessionPhase} :
      Session l shared ph.session session → shared.machine = l.machine →
      (l.lost = true → shared.lost = true) → (shared.rpcRx = l.rpcRx ∨ shared.rpcRx = []) →
      Sound { l with
        toShared := shared
        client := some (socket, { ph with session := session }) } :=
    fun hsession => hsession.sound h hclient
  cases hstep with
  | apply happly hsession hproxy => exact h.apply hclient hproxy (verdict happly hsession)
  | look => exact hmoves .look rfl id (.inl rfl)
  | arm => exact hmoves .arm rfl id (.inl rfl)
  | disarm => exact hmoves .disarm rfl id (.inl rfl)
  | signal reason => exact hmoves .signal rfl (fun _ => rfl) (.inl rfl)
  | reset hstopped => exact hmoves (hstopped ▸ .reset) rfl id (.inr rfl)
  | respond hproxy hrespond => exact hmoves (.respond hrespond) rfl id (.inl rfl)
  | mark hadmits hm => exact h
  | send hproxy hsent hsend => exact hmoves (.send hsend) rfl id (.inl rfl)
  | write bytes written => exact h
  | «open» hopened hproxy created =>
    cases created with
    | false => exact h
    | true =>
      refine h.of_session_eq hold.symm rfl rfl rfl .inl ?_
      intro n rest hwriter
      exact absurd (hproxy.symm.trans (h.running hclient hwriter).2) (by simp)
  | start hopened hproxy created =>
    cases created with
    | false => exact h
    | true =>
      refine h.of_session_eq hold.symm rfl rfl rfl (fun _ => .inr ?_) ?_
      · rw [hopened] at hold
        exact h.not_stopping hold
      · rintro n rest ⟨⟩
        exact ⟨_, rfl, rfl⟩
  | drain hproxy hnone =>
    refine h.of_session_eq hold.symm rfl rfl rfl .inl ?_
    intro n rest hwriter
    exact absurd (hnone.symm.trans hwriter) (by simp)
  | release hover hproxy => exact (Mild.release h hclient hover hproxy).sound h

end Client

theorem ServerStep.sound {l l' : Link} {e : Entry} (h : l.Sound) (hstep : ServerStep l e l') :
    l'.Sound := by
  cases hstep with
  | @create socket hserver hclient =>
    have hnone : l.session = none := by rw [session, hclient]; rfl
    have hmild : Mild l { l with server := .listening, client := some (socket, managing) } :=
      { machine := rfl
        supervisor := rfl
        rx := rfl
        idle := .inl
        lost := id
        unheard := by
          rintro - _ ⟨⟩
          trivial
        begun := by simp [hnone]
        ending := by simp [hnone]
        opened := by simp [hnone]
        notOpened := by rintro answer ⟨⟩
        stopped := by simp [hnone]
        rpcRx := .inl rfl
        writer := by
          intro n rest hwriter
          obtain ⟨ph, hph, -⟩ := h.writer n rest hwriter
          exact absurd (hclient.symm.trans hph) (by simp) }
    exact hmild.sound h
  | _ => exact { h with }

theorem Step.sound {l l' : Link} {e : Entry} (h : l.Sound) (hstep : l.Step e l') : l'.Sound := by
  cases hstep with
  | supervisor hstep => exact hstep.sound h
  | rx hstep => exact hstep.sound h
  | writer hstep => exact hstep.sound h
  | client hclient hstep => exact hstep.sound h hclient
  | server hstep => exact hstep.sound h
  | heartbeatLost id reason =>
    exact { h with
      lost := fun _ => rfl
      starting := fun _ => .inr rfl
      stopping := fun hstate => ⟨.inr rfl, (h.stopping hstate).2⟩ }
  | heartbeat id bytes written => exact h
  | idle ho r => exact h

theorem Course.sound {l : Link} {trace : List Entry} (h : Course trace l) : l.Sound := by
  induction h with
  | nil => exact sound_init
  | cons _ hstep ih => exact hstep.sound ih

/-- What the link shows of a state of the firmware: what the tasks share, and that the tasks it
names are live. -/
structure Shows (l : Link) (st : State) : Prop where
  shared : st.shared = l.toShared
  rx : ∀ id ph, l.rx = some (id, ph) → st.live (.rx id) = true ∧ st.rxTask = some id
  client : ∀ n ph, l.client = some (n, ph) → st.live (.client n) = true
  writer : ∀ n rest, l.writer = some (n, rest) → st.live (.writer n) = true
  slot : st.clientActive = (l.server.claimed.isSome || l.client.isSome)

end Link

theorem Depicts.shows {secret : Vector UInt8 bridgePairingSecretBytes}
    {s : (choreography secret).Scene} {l : Link} (h : Depicts s l) : l.Shows s.world.state where
  shared := h.shared
  rx := by
    intro id ph hrx
    exact ⟨(h.rx_live hrx).1, h.rxBooks.handle id (by rw [hrx]; rfl)⟩
  client n ph hclient := (h.client_live hclient).1
  writer n rest hwriter := (h.writer_live hwriter).1
  slot := by
    have hactive := h.clientBooks.active
    rw [Link.holder, Option.isSome_map] at hactive
    exact hactive

end Bridge

/-- The firmware refines the link. Every interleaving of its tasks is a course of the link, which
ends with the shared state of the firmware, names live tasks and is sound. -/
theorem bridge_refines_link {secret : Vector UInt8 bridgePairingSecretBytes}
    {c : System.Config (bridge secret)} (hc : System.Reachable c) :
    ∃ l, Bridge.Link.Course c.world.trace l ∧ l.Sound ∧ l.Shows c.world.state := by
  obtain ⟨s, hs, hworld⟩ := (Bridge.choreography secret).exists_allowed hc
  obtain ⟨l, hcourse, hdepicts⟩ := Bridge.exists_course hs
  rw [← hworld]
  exact ⟨l, hcourse, hcourse.sound, hdepicts.shows⟩

/-- With a session open and all its tasks at work. -/
theorem bridge_refines_link_open : ∃ c : Bridge.Sample,
    c.world.state.guarded.machine.state = .rpcReady ∧
      ∃ l, Bridge.Link.Course c.world.trace l ∧ l.Sound ∧ l.Shows c.world.state := by
  obtain ⟨c, hc, htest⟩ := Bridge.exists_run Bridge.Script.returns
    (fun c : Bridge.Sample => c.world.state.guarded.machine.state == .rpcReady) (by decide +kernel)
  exact ⟨c, beq_iff_eq.mp htest, bridge_refines_link hc⟩

end FlipforgeBridge
