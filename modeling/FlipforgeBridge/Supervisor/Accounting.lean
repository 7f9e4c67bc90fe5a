import FlipforgeBridge.Bridge.Client

/-!
Two counters for one limit: the supervisor counts its failures in `attempts`, the state machine in
`reconnect_attempts`. Every attempt starts the machine over, so the two agree only as long as no
attempt fails after another failure, and the limit is never reached in both.
-/
namespace FlipforgeBridge
open Process

namespace Accounting

abbrev Entry := Label platform Bridge.Tid

/-- What an operation does to the state machine. -/
def onMachine : Op → ExpansionStateMachine → ExpansionStateMachine
  | .locked .restart, _ => expansionStateMachineInit
  | .locked (.apply event), machine => (expansionStateMachineApply machine event).2.2
  | _, machine => machine

/-- The state machine after everything done to it. -/
def machine : List Entry → ExpansionStateMachine
  | [] => {}
  | l :: past => onMachine l.op (machine past)

/-- The supervisor's `attempts`: failed attempts and losses in a row. -/
def attempts : List Entry → ℕ
  | [] => 0
  | ⟨.supervisor, .mark (.leave .establish error), _⟩ :: past =>
    if error = .ok then 0 else attempts past + 1
  | ⟨.supervisor, .waitLost, _⟩ :: past => attempts past + 1
  | ⟨.supervisor, .waitRetry, _⟩ :: _ => 0
  | _ :: past => attempts past

/-- The link is down and no attempt is being made: from the start, or from when the machine is told
of a failure, to the next attempt. -/
def resting : List Entry → Bool
  | [] => true
  | ⟨.supervisor, .mark (.enter .establish), _⟩ :: _ => false
  | ⟨.supervisor, .locked (.apply .timeout), _⟩ :: _ => true
  | _ :: past => resting past

/-- The two accounts agree, also about the limit. -/
def Agrees (past : List Entry) : Prop :=
  resting past → (machine past).reconnectAttempts = attempts past ∧
    (bridgeExpansionMaxRetries ≤ attempts past → (machine past).state = .disconnected)

/-- No failure after another. -/
def Single (past : List Entry) : Prop := resting past → attempts past ≤ 1

/-- In every state so far. -/
def Throughout (P : List Entry → Prop) (trace : List Entry) : Prop :=
  ∀ past, past <:+ trace → P past

/-- How the code uses its counter: for the pause after a failure, and for what comes next. -/
def Counted : Entry → List Entry → Prop
  | ⟨.supervisor, .delay ms, _⟩, past =>
    resting past → attempts past = 0 ∨ ms = bridgeExpansionRetryBaseMs * attempts past
  | ⟨.supervisor, .waitRetry, _⟩, past => bridgeExpansionMaxRetries ≤ attempts past
  | ⟨.supervisor, .mark (.enter .establish), _⟩, past => attempts past < bridgeExpansionMaxRetries
  | _, _ => True

theorem throughout_cons {P : List Entry → Prop} {l : Entry} {past : List Entry} :
    Throughout P (l :: past) ↔ P (l :: past) ∧ Throughout P past := by
  constructor
  · intro h
    exact ⟨h _ (List.suffix_refl _), fun past' h' => h past' (h'.trans (List.suffix_cons l past))⟩
  · rintro ⟨hnow, hpast⟩ past' h'
    rcases List.suffix_cons_iff.mp h' with rfl | h'
    · exact hnow
    · exact hpast past' h'

/-! ### The role of the supervisor -/

inductive Phase
  /-- Down, having counted `attempts`. -/
  | resting (attempts : ℕ)
  | entering (attempts : ℕ)
  | trying (attempts : ℕ)
  | failing (attempts : ℕ)
  | linked
  | closing
  deriving DecidableEq

/-- Operations without a part in the accounts. -/
def quiet : Op → Bool
  | .locked .restart | .locked (.apply _) | .delay _ | .waitRetry | .waitLost | .mark _ => false
  | _ => true

/-- Operations of an attempt, once the machine has been started over. -/
def attempting : Op → Bool
  | .locked (.apply .start) | .locked (.apply .heartbeatReceived)
  | .locked (.apply .baudAccepted) | .locked (.apply .baudRejected) | .delay _ => true
  | o => quiet o

def next : Phase → (o : Op) → o.Res → Option Phase
  | .resting attempts, .delay ms, _ =>
    if attempts = 0 ∨ ms = bridgeExpansionRetryBaseMs * attempts then some (.resting attempts)
    else none
  | .resting attempts, .waitRetry, _ =>
    if bridgeExpansionMaxRetries ≤ attempts then some (.resting 0) else none
  | .resting attempts, .mark (.enter .establish), _ =>
    if attempts < bridgeExpansionMaxRetries then some (.entering attempts) else none
  | .entering attempts, .locked .restart, _ => some (.trying attempts)
  | .trying attempts, .mark (.leave .establish error), _ =>
    some (if error = .ok then .linked else .failing attempts)
  | .trying attempts, o, _ => if attempting o then some (.trying attempts) else none
  | .failing attempts, .locked (.apply .timeout), _ => some (.resting (attempts + 1))
  | .linked, .waitLost, _ => some .closing
  | .closing, .delay _, _ => some .closing
  | .closing, .locked (.apply .timeout), _ => some (.resting 1)
  | ph, o, _ => if quiet o then some ph else none

theorem attempting_of_quiet {o : Op} (h : quiet o = true) : attempting o = true := by
  unfold attempting
  split <;> first | rfl | exact h

/-- Operations that leave the supervisor where it is. -/
def Stays (ph : Phase) (o : Op) : Prop := ∀ r, next ph o r = some ph

theorem stays_of_quiet (ph : Phase) {o : Op} (h : quiet o = true) : Stays ph o := by
  intro r
  unfold next
  split
  all_goals first
    | exact absurd h Bool.false_ne_true
    | exact if_pos h
    | exact if_pos (attempting_of_quiet h)

/-! ### The supervisor's code -/

theorem rests (attempts : ℕ) : Rests next (.trying attempts) where
  free o ho := by
    cases o with
    | locked s =>
      cases s with
      | apply event => cases event <;> first | exact fun _ => rfl | cases ho
      | _ => first | exact fun _ => rfl | cases ho
    | _ => first | exact fun _ => rfl | cases ho
  send frame := by
    refine Prog.Only.keeps (sendFrame_only ?_ frame)
    intro o ho
    cases o with
    | locked s => cases s <;> first | exact fun _ => rfl | cases ho
    | _ => first | exact fun _ => rfl | cases ho

theorem releaseExpansionPins_stays (ph : Phase) : releaseExpansionPins.Keeps next ph := by
  have honly : releaseExpansionPins.Only (quiet · = true) := releaseExpansionPins_only rfl rfl
  exact Prog.Only.keeps (honly.mono fun _ ho => stays_of_quiet ph ho)

/-- Where the supervisor is at the points of its loop. -/
def supervisorWalk : SupervisorWalk next (traced .establish establishExpansion) where
  waiting attempts ph := ph = .resting attempts
  trying attempts ph := attempts < bridgeExpansionMaxRetries ∧ ph = .resting attempts
  failed attempts ph := ph = .failing attempts
  linked ph := ph = .linked
  receiving ph := ph = .linked
  unmanned ph := ph = .linked
  manned ph := ph = .linked
  lost ph := ph = .closing
  closed ph := ph = .closing
  reopening ph := ph = .closing
  ending _ := True
  running := by
    rintro attempts _ rfl
    refine follows_last fun running => ⟨.resting attempts, rfl, ?_⟩
    cases running <;> trivial
  retry := by
    rintro attempts _ rfl hlimit
    refine .bind (releaseExpansionPins_stays _) ?_
    rintro _ _ rfl
    refine follows_last fun wake => ⟨.resting 0, if_pos hlimit, ?_⟩
    split
    · trivial
    · exact ⟨by decide, rfl⟩
  early h hlimit := ⟨hlimit, h⟩
  attempt := by
    rintro attempts _ ⟨hlimit, rfl⟩
    refine follows_op fun _ => ⟨.resting attempts, rfl, follows_op fun _ => ?_⟩
    refine ⟨.entering attempts, if_pos hlimit, .bind ((rests attempts).establish fun _ => rfl) ?_⟩
    rintro error _ rfl
    refine follows_op fun _ => ⟨_, rfl, follows_pure ?_⟩
    split <;> rfl
  retreat := by
    rintro attempts _ rfl
    refine .bind (releaseExpansionPins_stays _) ?_
    rintro _ _ rfl
    refine follows_op fun _ => ⟨.resting (attempts + 1), rfl, ?_⟩
    exact follows_op fun _ => ⟨.resting (attempts + 1), if_pos (.inr rfl), follows_pure rfl⟩
  receive := by
    rintro _ rfl
    exact follows_either (keeps_op (fun _ => rfl) fun _ => keeps_last fun _ => rfl)
  beat := by
    rintro _ rfl
    exact follows_either (keeps_last fun _ => rfl)
  alarm := by
    rintro _ rfl
    exact keeps_op (fun _ => rfl) fun _ => keeps_last fun _ => rfl
  watch := by
    rintro _ rfl
    exact follows_op fun _ => ⟨.linked, rfl, follows_last fun _ => ⟨.closing, rfl, rfl⟩⟩
  stop := by
    rintro _ rfl
    have hstop : stopIoTasks.Keeps next .closing := by
      refine Prog.Only.keeps (stopIoTasks_only ?_)
      intro o ho
      cases o <;> first | exact fun _ => rfl | cases ho
    exact hstop.bind fun _ => keeps_last fun _ => rfl
  look := by
    rintro _ rfl
    refine follows_last fun bits => ⟨.closing, rfl, ?_⟩
    split
    · trivial
    · rfl
  reopen := by
    rintro _ rfl
    refine follows_op fun _ => ⟨.resting 1, rfl, follows_op fun _ => ⟨.resting 1, rfl, ?_⟩⟩
    refine .bind (releaseExpansionPins_stays _) ?_
    rintro _ _ rfl
    exact follows_op fun _ => ⟨.resting 1, rfl, follows_pure rfl⟩

theorem supervisor_follows :
    (expansionSupervisorTask (traced .establish establishExpansion)).Follows next
      (fun _ _ => True) (.resting 0) := by
  apply supervisorWalk.follows
  · exact follows_op fun _ => ⟨.resting 0, rfl, follows_last fun _ => ⟨.resting 0, rfl, rfl⟩⟩
  · intro ph _
    refine follows_op fun _ => ⟨ph, stays_of_quiet ph rfl _, ?_⟩
    exact follows_last fun _ => ⟨ph, stays_of_quiet ph rfl _, trivial⟩

/-! ### The other tasks -/

/-- Operations of tasks other than the supervisor: of the machine, only the steps of a session. -/
def sessional : Op → Bool
  | .locked (.apply .beginRpc) | .locked (.apply .rpcStarted)
  | .locked (.apply .endRpc) | .locked (.apply .rpcStopped) => true
  | .locked (.apply _) | .locked .restart => false
  | _ => true

theorem apply_sessional {ph ph' : Bridge.SessionPhase} {event : ExpansionEvent} {ok : Bool}
    (h : ph.apply event ok = some ph') : sessional (.locked (.apply event)) = true := by
  unfold Bridge.SessionPhase.apply at h
  split at h
  all_goals first | rfl | cases h

theorem client_sessional {socket : ℕ} {ph ph' : Bridge.ClientPhase} {o : Op} {r : o.Res}
    (h : Bridge.clientNext socket ph o r = some ph') : sessional o = true := by
  cases o with
  | locked s =>
    cases s with
    | restart =>
      unfold Bridge.clientNext at h
      obtain ⟨⟨hquiet, -⟩, -⟩ := Option.ite_none_right_eq_some.mp h
      cases hquiet
    | apply event =>
      obtain ⟨-, hmap⟩ := Option.ite_none_left_eq_some.mp h
      obtain ⟨session, happly, -⟩ := Option.map_eq_some_iff.mp hmap
      exact apply_sessional happly
    | _ => rfl
  | _ => rfl

theorem writer_sessional {socket : ℕ} {ph ph' : Bridge.WriterPhase} {o : Op} {r : o.Res}
    (h : Bridge.writerNext socket ph o r = some ph') : sessional o = true := by
  cases o with
  | locked s =>
    cases s with
    | restart | apply => cases ph <;> cases h
    | _ => rfl
  | _ => rfl

theorem rx_sessional {ph ph' : Bridge.RxPhase} {o : Op} {r : o.Res}
    (h : Bridge.rxNext ph o r = some ph') : sessional o = true := by
  cases o with
  | locked s =>
    cases s with
    | restart | apply => cases ph <;> cases h
    | _ => rfl
  | _ => rfl

theorem heartbeat_sessional {ph ph' : Unit} {o : Op} {r : o.Res}
    (h : Bridge.heartbeatNext ph o r = some ph') : sessional o = true := by
  cases o with
  | locked s =>
    cases s with
    | restart | apply => cases h
    | _ => rfl
  | _ => rfl

theorem server_sessional {ph ph' : Bridge.ServerPhase} {o : Op} {r : o.Res}
    (h : Bridge.serverNext ph o r = some ph') : sessional o = true := by
  cases o with
  | locked s =>
    cases s with
    | restart | apply => cases ph <;> cases h
    | _ => rfl
  | _ => rfl

/-- The supervisor with its accounts among the tasks of the bridge. -/
def choreography (secret : Vector UInt8 bridgePairingSecretBytes) :
    Choreography (bridge secret) where
  Phase
    | .supervisor => Phase
    | i => Bridge.Phase i
  next
    | .supervisor => next
    | .server => Bridge.serverNext
    | .client socket => Bridge.clientNext socket
    | .writer socket => Bridge.writerNext socket
    | .rx _ => Bridge.rxNext
    | .heartbeat _ => Bridge.heartbeatNext
  entry
    | .supervisor => Phase.resting 0
    | .server => Bridge.entry .server
    | .client socket => Bridge.entry (.client socket)
    | .writer socket => Bridge.entry (.writer socket)
    | .rx id => Bridge.entry (.rx id)
    | .heartbeat id => Bridge.entry (.heartbeat id)
  follows
    | .supervisor => supervisor_follows
    | .server => Bridge.server_follows
    | .client socket => Bridge.client_follows { socket, pairingSecret := secret }
    | .writer _ => Bridge.writer_follows
    | .rx _ => Bridge.rx_follows
    | .heartbeat _ => Bridge.heartbeat_follows

theorem sessional_of_role {secret : Vector UInt8 bridgePairingSecretBytes} {i : Bridge.Tid}
    (hi : i ≠ .supervisor) {ph ph' : (choreography secret).Phase i} {o : Op} {r : o.Res}
    (h : (choreography secret).next i ph o r = some ph') : sessional o = true := by
  cases i with
  | supervisor => exact absurd rfl hi
  | server => exact server_sessional h
  | client socket => exact client_sessional h
  | writer socket => exact writer_sessional h
  | rx id => exact rx_sessional h
  | heartbeat id => exact heartbeat_sessional h

/-! ### The invariant -/

/-- The machine as a failure leaves it: one attempt, whatever came before. -/
def failedOnce : ExpansionStateMachine := { state := .backoff, reconnectAttempts := 1 }

/-- Both accounts, phase by phase. -/
def Accounts : Phase → List Entry → Prop
  | .resting n, trace => resting trace = true ∧ attempts trace = n ∧
    (n = 0 ∧ machine trace = {} ∨
      machine trace = failedOnce ∧ (n = 0 → ¬Throughout Single trace))
  | .entering n, trace => resting trace = false ∧ attempts trace = n
  | .trying n, trace =>
    resting trace = false ∧ attempts trace = n ∧ (machine trace).reconnectAttempts = 0
  | .failing n, trace =>
    resting trace = false ∧ attempts trace = n + 1 ∧ (machine trace).reconnectAttempts = 0
  | .linked, trace =>
    resting trace = false ∧ attempts trace = 0 ∧ (machine trace).reconnectAttempts = 0
  | .closing, trace =>
    resting trace = false ∧ attempts trace = 1 ∧ (machine trace).reconnectAttempts = 0

section Accounts
variable {past : List Entry} {ph : Phase} {i : Bridge.Tid} {o : Op} {r : o.Res}

theorem not_throughout_cons {P : List Entry → Prop} {l : Entry} (h : ¬Throughout P past) :
    ¬Throughout P (l :: past) := fun hall => h (throughout_cons.mp hall).2

/-- Operations that the accounts do not see. -/
structure Unseen (l : Entry) (past : List Entry) : Prop where
  attempts : attempts (l :: past) = attempts past
  resting : resting (l :: past) = resting past
  count : (machine (l :: past)).reconnectAttempts = (machine past).reconnectAttempts
  waiting : (machine past = {} ∨ machine past = failedOnce) → machine (l :: past) = machine past

theorem Accounts.unseen {l : Entry} (h : Accounts ph past) (hl : Unseen l past) :
    Accounts ph (l :: past) := by
  cases ph with
  | resting n =>
    obtain ⟨hresting, hattempts, hmachine⟩ := h
    refine ⟨hl.resting.trans hresting, hl.attempts.trans hattempts, ?_⟩
    rcases hmachine with ⟨hn, hinit⟩ | ⟨hfailed, hsingle⟩
    · exact .inl ⟨hn, (hl.waiting (.inl hinit)).trans hinit⟩
    · refine .inr ⟨(hl.waiting (.inr hfailed)).trans hfailed, ?_⟩
      intro hn
      exact not_throughout_cons (hsingle hn)
  | entering n => exact ⟨hl.resting.trans h.1, hl.attempts.trans h.2⟩
  | _ => exact ⟨hl.resting.trans h.1, hl.attempts.trans h.2.1, hl.count.trans h.2.2⟩

theorem unseen_of_quiet (h : quiet o = true) (past : List Entry) :
    Unseen ⟨.supervisor, o, r⟩ past := by
  cases o with
  | locked s =>
    cases s with
    | restart | apply => cases h
    | _ => exact ⟨rfl, rfl, rfl, fun _ => rfl⟩
  | delay | waitRetry | waitLost | mark => cases h
  | _ => exact ⟨rfl, rfl, rfl, fun _ => rfl⟩

theorem onMachine_sessional (h : sessional o = true) (m : ExpansionStateMachine) :
    (onMachine o m).reconnectAttempts = m.reconnectAttempts ∧
      (m = {} ∨ m = failedOnce → onMachine o m = m) := by
  cases o with
  | locked s =>
    cases s with
    | apply event =>
      cases event with
      | beginRpc | rpcStarted | endRpc | rpcStopped =>
        constructor
        · obtain ⟨state, count⟩ := m
          cases state <;> rfl
        · rintro (rfl | rfl) <;> rfl
      | _ => cases h
    | restart => cases h
    | _ => exact ⟨rfl, fun _ => rfl⟩
  | _ => exact ⟨rfl, fun _ => rfl⟩

theorem unseen_of_sessional (hi : i ≠ .supervisor) (h : sessional o = true) (past : List Entry) :
    Unseen ⟨i, o, r⟩ past := by
  obtain ⟨hcount, hwaiting⟩ := onMachine_sessional h (machine past)
  cases i with
  | supervisor => exact absurd rfl hi
  | _ => exact ⟨rfl, rfl, hcount, hwaiting⟩

theorem counted_of_ne (hi : i ≠ .supervisor) (past : List Entry) : Counted ⟨i, o, r⟩ past := by
  cases i with
  | supervisor => exact absurd rfl hi
  | _ => trivial

theorem counted_of_quiet (h : quiet o = true) (past : List Entry) :
    Counted ⟨.supervisor, o, r⟩ past := by
  cases o with
  | delay | waitRetry | waitLost | mark => cases h
  | _ => trivial

/-- A failure leaves the machine as if there had been no other. -/
theorem failure_accounts {n : ℕ} (hattempts : attempts past = n)
    (hzero : (machine past).reconnectAttempts = 0) (hn : n ≠ 0) (r : Bool × ExpansionAction) :
    Accounts (.resting n) (⟨.supervisor, .locked (.apply .timeout), r⟩ :: past) := by
  refine ⟨rfl, hattempts, .inr ⟨?_, fun h => absurd h hn⟩⟩
  change (failConnection (machine past)).2.2 = failedOnce
  rw [failConnection, hzero]
  rfl

theorem unseen_delay (ms : ℕ) (r : Unit) (past : List Entry) :
    Unseen ⟨.supervisor, .delay ms, r⟩ past := ⟨rfl, rfl, rfl, fun _ => rfl⟩

theorem onMachine_attempting (h : attempting o = true) {m : ExpansionStateMachine}
    (hm : m.reconnectAttempts = 0) : (onMachine o m).reconnectAttempts = 0 := by
  cases o with
  | locked s =>
    cases s with
    | restart => cases h
    | apply event =>
      cases event with
      | start | heartbeatReceived | baudAccepted | baudRejected =>
        obtain ⟨state, count⟩ := m
        cases state <;> first | exact hm | rfl
      | _ => cases h
    | _ => exact hm
  | _ => exact hm

/-- Within an attempt the count of the machine stays at nothing. -/
theorem trying_accounts {n : ℕ} (h : Accounts (.trying n) past) (ho : attempting o = true) :
    Accounts (.trying n) (⟨.supervisor, o, r⟩ :: past) ∧ Counted ⟨.supervisor, o, r⟩ past := by
  obtain ⟨hresting, hattempts, hzero⟩ := h
  have hmachine := onMachine_attempting ho hzero
  cases o with
  | locked s =>
    cases s with
    | restart => cases ho
    | apply event =>
      cases event with
      | start | heartbeatReceived | baudAccepted | baudRejected =>
        exact ⟨⟨hresting, hattempts, hmachine⟩, trivial⟩
      | _ => cases ho
    | _ => exact ⟨⟨hresting, hattempts, hmachine⟩, trivial⟩
  | delay ms =>
    refine ⟨⟨hresting, hattempts, hmachine⟩, ?_⟩
    intro htrue
    rw [hresting] at htrue
    cases htrue
  | waitRetry | waitLost | mark => cases ho
  | _ => exact ⟨⟨hresting, hattempts, hmachine⟩, trivial⟩

theorem accounts_step {ph' : Phase} (h : Accounts ph past) (hnext : next ph o r = some ph') :
    Accounts ph' (⟨.supervisor, o, r⟩ :: past) ∧ Counted ⟨.supervisor, o, r⟩ past := by
  unfold next at hnext
  split at hnext
  · next n ms r =>
    obtain ⟨hpause, ⟨⟩⟩ := Option.ite_none_right_eq_some.mp hnext
    refine ⟨h.unseen (unseen_delay ms r past), ?_⟩
    intro _
    rw [h.2.1]
    exact hpause
  · next n seen =>
    -- At the limit there have been failures after others.
    obtain ⟨hlimit, ⟨⟩⟩ := Option.ite_none_right_eq_some.mp hnext
    obtain ⟨hresting, hattempts, hmachine⟩ := h
    have hthree : 3 ≤ n := hlimit
    refine ⟨⟨hresting, rfl, .inr ⟨?_, ?_⟩⟩, ?_⟩
    · rcases hmachine with ⟨rfl, -⟩ | ⟨hfailed, -⟩
      · cases hthree
      · exact hfailed
    · intro _ hsingle
      have hone := (throughout_cons.mp hsingle).2 past (List.suffix_refl past) hresting
      omega
    · change bridgeExpansionMaxRetries ≤ attempts past
      rw [hattempts]
      exact hlimit
  · next n =>
    obtain ⟨hlimit, ⟨⟩⟩ := Option.ite_none_right_eq_some.mp hnext
    refine ⟨⟨rfl, h.2.1⟩, ?_⟩
    change attempts past < bridgeExpansionMaxRetries
    rw [h.2.1]
    exact hlimit
  · cases hnext
    exact ⟨⟨h.1, h.2, rfl⟩, trivial⟩
  · next n error r =>
    obtain ⟨hresting, hattempts, hzero⟩ := h
    cases hnext
    refine ⟨?_, trivial⟩
    by_cases herror : error = .ok
    · rw [if_pos herror]
      exact ⟨hresting, if_pos herror, hzero⟩
    · rw [if_neg herror]
      refine ⟨hresting, ?_, hzero⟩
      rw [← hattempts]
      exact if_neg herror
  · obtain ⟨ho, ⟨⟩⟩ := Option.ite_none_right_eq_some.mp hnext
    exact trying_accounts h ho
  · next n r =>
    obtain ⟨-, hattempts, hzero⟩ := h
    cases hnext
    exact ⟨failure_accounts hattempts hzero (Nat.succ_ne_zero n) r, trivial⟩
  · cases hnext
    obtain ⟨hresting, hattempts, hzero⟩ := h
    refine ⟨⟨hresting, ?_, hzero⟩, trivial⟩
    exact congrArg (· + 1) hattempts
  · next ms r =>
    cases hnext
    refine ⟨h.unseen (unseen_delay ms r past), ?_⟩
    intro htrue
    rw [h.1] at htrue
    cases htrue
  · next r =>
    cases hnext
    exact ⟨failure_accounts h.2.1 h.2.2 Nat.one_ne_zero r, trivial⟩
  · obtain ⟨ho, ⟨⟩⟩ := Option.ite_none_right_eq_some.mp hnext
    exact ⟨h.unseen (unseen_of_quiet ho past), counted_of_quiet ho past⟩

/-- After a single failure the accounts agree, after more of them they do not. -/
theorem agrees_iff_single {l : Entry} (h : Accounts ph (l :: past))
    (hpast : Throughout Single past) : Agrees (l :: past) ↔ Single (l :: past) := by
  cases ph with
  | resting n =>
    obtain ⟨hresting, hattempts, hmachine⟩ := h
    rw [Agrees, Single, hresting, hattempts]
    rcases hmachine with ⟨rfl, hinit⟩ | ⟨hfailed, hsingle⟩
    · rw [hinit]
      exact iff_of_true (fun _ => ⟨rfl, fun _ => rfl⟩) fun _ => Nat.zero_le 1
    · rw [hfailed]
      have hn : n ≠ 0 := by
        intro hn
        refine hsingle hn (throughout_cons.mpr ⟨?_, hpast⟩)
        intro _
        rw [hattempts, hn]
        exact Nat.zero_le 1
      constructor
      · intro hagrees _
        exact Nat.le_of_eq (hagrees rfl).1.symm
      · intro hsingle _
        have hone : n = 1 := by
          have hle := hsingle rfl
          omega
        rw [hone]
        exact ⟨rfl, fun hlimit => absurd hlimit (by decide)⟩
  | _ =>
    refine iff_of_true ?_ ?_
    all_goals
      intro htrue
      rw [h.1] at htrue
      cases htrue

end Accounts

/-! ### The system -/

variable {secret : Vector UInt8 bridgePairingSecretBytes}

structure Holds (s : (choreography secret).Scene) : Prop where
  machine : s.world.state.guarded.machine = machine s.world.trace
  accounts : Accounts (s.phase .supervisor) s.world.trace
  counted : Justified Counted s.world.trace
  exact : Throughout Agrees s.world.trace ↔ Throughout Single s.world.trace

/-- The parts of the state that matter here: the machine, and that nothing revives a supervisor. -/
structure Frame (machine : ExpansionStateMachine) (st st' : Bridge.State) : Prop where
  machine : st'.guarded.machine = machine
  live : st'.live .supervisor → st.live .supervisor

theorem take_frame {held taken : Bool} {st st' st'' : Bridge.State}
    (hst : Frame st.guarded.machine st st') (h : Bridge.take held taken st' st = some st'') :
    Frame st.guarded.machine st st'' := by
  unfold Bridge.take at h
  split at h
  · obtain ⟨-, ⟨⟩⟩ := Option.ite_none_left_eq_some.mp h
    exact hst
  · cases h
    exact ⟨rfl, id⟩

theorem create_frame (st : Bridge.State) (kind : TaskKind) :
    Frame st.guarded.machine st (st.create kind) := by
  cases kind <;> exact ⟨rfl, id⟩

theorem delete_frame (st : Bridge.State) (i : Bridge.Tid) :
    Frame st.guarded.machine st (st.setLive i false) := by
  refine ⟨rfl, ?_⟩
  intro h
  change Function.update st.live i false .supervisor = true at h
  by_cases hi : i = .supervisor
  · rw [hi, Function.update_self] at h
    cases h
  · rwa [Function.update_of_ne (Ne.symm hi)] at h

theorem section_machine {s : Section} {r : s.Res} {t t' : Guarded} (h : s.run r t = some t') :
    t'.machine = onMachine (.locked s) t.machine := by
  cases s with
  | apply event =>
    obtain ⟨-, ⟨⟩⟩ := Option.ite_none_right_eq_some.mp h
    rfl
  | offerStatus status =>
    obtain ⟨-, ⟨⟩⟩ := Option.ite_none_right_eq_some.mp h
    split <;> rfl
  | state | negotiatedBaud | disarmRequest | activity =>
    obtain ⟨-, ⟨⟩⟩ := Option.ite_none_right_eq_some.mp h
    rfl
  | _ =>
    cases h
    rfl

theorem effect_frame {i : Bridge.Tid} {o : Op} {r : o.Res} {st st' : Bridge.State}
    (h : Bridge.effect i o r st = some st') :
    Frame (onMachine o st.guarded.machine) st st' := by
  cases o with
  | locked s =>
    obtain ⟨t, hrun, rfl⟩ := Option.map_eq_some_iff.mp h
    exact ⟨section_machine hrun, id⟩
  | takeTxMutex | takeRequestMutex | waitStatus =>
    unfold Bridge.effect at h
    exact take_frame (by exact ⟨rfl, id⟩) h
  | taskCreate kind =>
    cases h
    split
    · exact create_frame st kind
    · exact ⟨rfl, id⟩
  | taskDelete kind handle =>
    cases handle with
    | none =>
      cases h
      exact delete_frame st i
    | some id =>
      cases h
      cases kind with
      | rx => exact delete_frame st (.rx id)
      | heartbeat => exact delete_frame st (.heartbeat id)
      | _ => exact ⟨rfl, fun h => h⟩
  | taskDeleteSelf =>
    cases h
    exact delete_frame st i
  | clearTaskHandle kind =>
    cases h
    cases kind <;> exact ⟨rfl, id⟩
  | accept =>
    cases r with
    | error e =>
      cases h
      exact ⟨rfl, id⟩
    | ok socket =>
      obtain ⟨-, ⟨⟩⟩ := Option.ite_none_right_eq_some.mp h
      exact ⟨rfl, id⟩
  | recv socket size =>
    cases r with
    | data bytes =>
      obtain ⟨-, ⟨⟩⟩ := Option.ite_none_right_eq_some.mp h
      exact ⟨rfl, id⟩
    | _ =>
      cases h
      exact ⟨rfl, id⟩
  | uartParamConfig | uartSetBaudrate | proxyCreate =>
    cases h
    split <;> exact ⟨rfl, id⟩
  | eventBits | waitRetry | waitLost | pollStatus | streamBytesAvailable | streamSend
  | streamReceive | taskHandle | running | send | claimClient | proxyBits | proxyWaitDone =>
    obtain ⟨-, ⟨⟩⟩ := Option.ite_none_right_eq_some.mp h
    exact ⟨rfl, id⟩
  | _ =>
    cases h
    exact ⟨rfl, id⟩

theorem holds_of_allowed {s : (choreography secret).Scene}
    (hs : (choreography secret).Allowed s) : Holds s := by
  apply hs.induction
  · refine ⟨rfl, ⟨rfl, rfl, .inl ⟨rfl, rfl⟩⟩, trivial, ?_⟩
    have hnil : ∀ P : List Entry → Prop, P [] → Throughout P [] := by
      intro P h past hpast
      rw [List.suffix_nil.mp hpast]
      exact h
    refine iff_of_true (hnil _ ?_) (hnil _ ?_)
    · exact fun _ => ⟨rfl, fun _ => rfl⟩
    · exact fun _ => Nat.zero_le 1
  · rintro s _ - h ⟨live, role, effect⟩
    rename_i i o r ph st
    have hframe := effect_frame effect
    have hmachine : st.guarded.machine = onMachine o (machine s.world.trace) := by
      rw [hframe.machine, h.machine]
    have hlive : s.world.state.live .supervisor = true ∨ st.live .supervisor = false := by
      by_cases hst : st.live .supervisor
      · exact .inl (hframe.live hst)
      · exact .inr (Bool.eq_false_iff.mpr hst)
    obtain ⟨haccounts, hcounted⟩ :
        Accounts ((s.moved i ph ⟨st, ⟨i, o, r⟩ :: s.world.trace⟩).phase .supervisor)
          (⟨i, o, r⟩ :: s.world.trace) ∧ Counted ⟨i, o, r⟩ s.world.trace := by
      by_cases hi : i = .supervisor
      · subst hi
        rw [Choreography.Scene.moved_phase_self ph live]
        exact accounts_step h.accounts role
      · rw [Choreography.Scene.moved_phase_of_ne ph (Ne.symm hi) hlive]
        exact ⟨h.accounts.unseen (unseen_of_sessional hi (sessional_of_role hi role) _),
          counted_of_ne hi _⟩
    refine ⟨hmachine, haccounts, ⟨hcounted, h.counted⟩, ?_⟩
    apply throughout_cons.trans
    rw [h.exact]
    apply Iff.trans _ throughout_cons.symm
    exact and_congr_left fun hpast => agrees_iff_single haccounts hpast

/-- Every attempt fails at once, for want of a UART. -/
def unplugged (rounds : ℕ) : List (System.Choice (bridge (.replicate _ 0))) :=
  let answer : (o : Op) → o.Res
    | .uartParamConfig _ => .fail
    | .locked (.apply .start) => (true, .detectPulse)
    | .locked (.apply .timeout) => (true, .scheduleReconnect)
    | o => o.smooth
  .replicate (2 + 11 * rounds) (.supervisor, answer)

end Accounting

/-- The two accounts agree in every state of a run exactly when no attempt fails after another
failure. The trace shows both: the machine as it is, and the counter as the supervisor uses it. -/
theorem accounts_agree_iff {secret : Vector UInt8 bridgePairingSecretBytes}
    {c : System.Config (bridge secret)} (hc : System.Reachable c) :
    c.world.state.guarded.machine = Accounting.machine c.world.trace ∧
      Justified Accounting.Counted c.world.trace ∧
      (Accounting.Throughout Accounting.Agrees c.world.trace ↔
        Accounting.Throughout Accounting.Single c.world.trace) := by
  obtain ⟨s, hs, hworld⟩ := (Accounting.choreography secret).exists_allowed hc
  rw [← hworld]
  have h := Accounting.holds_of_allowed hs
  exact ⟨h.machine, h.counted, h.exact⟩

theorem accounts_agree_iff_start :
    ∃ c : System.Config (bridge (.replicate _ 0)), Accounting.attempts c.world.trace = 1 ∧
      c.world.state.guarded.machine = Accounting.machine c.world.trace ∧
      Justified Accounting.Counted c.world.trace ∧
      (Accounting.Throughout Accounting.Agrees c.world.trace ↔
        Accounting.Throughout Accounting.Single c.world.trace) := by
  obtain ⟨c, hc, htest⟩ := System.exists_reachable (Accounting.unplugged 1)
    (fun c => Accounting.attempts c.world.trace == 1) (by decide +kernel)
  exact ⟨c, beq_iff_eq.mp htest, accounts_agree_iff hc⟩

/-- After three failures the supervisor is at its limit, and the machine, which has counted one,
waits in `Backoff` for a reconnection that nobody has scheduled. -/
theorem limit_in_backoff :
    ∃ c : System.Config (bridge (.replicate _ 0)), System.Reachable c ∧
      Accounting.resting c.world.trace = true ∧
      Accounting.attempts c.world.trace = bridgeExpansionMaxRetries ∧
      c.world.state.guarded.machine = { state := .backoff, reconnectAttempts := 1 } ∧
      ¬Accounting.Throughout Accounting.Agrees c.world.trace := by
  obtain ⟨c, hc, htest⟩ := System.exists_reachable (Accounting.unplugged 3)
    (fun c => decide (Accounting.resting c.world.trace = true ∧
      Accounting.attempts c.world.trace = bridgeExpansionMaxRetries ∧
      c.world.state.guarded.machine = { state := .backoff, reconnectAttempts := 1 } ∧
      (Accounting.machine c.world.trace).reconnectAttempts = 1)) (by decide +kernel)
  obtain ⟨hresting, hattempts, hmachine, hone⟩ := of_decide_eq_true htest
  refine ⟨c, hc, hresting, hattempts, hmachine, ?_⟩
  intro hagrees
  have hcount := (hagrees _ (List.suffix_refl _) hresting).1
  rw [hone, hattempts] at hcount
  cases hcount

end FlipforgeBridge
