import FlipforgeBridge.Process.Lock
import FlipforgeBridge.Bridge.Depicts
import FlipforgeBridge.Connection.Traversal
import FlipforgeBridge.Bridge.Run

/-!
The mutexes of the transport that are held over several operations: `tx_mutex`, under which a frame
goes out, and `request_mutex`, under which it is sent and its answer awaited. Both are used in one
helper each, and so exclude whatever the tasks do.
-/
namespace FlipforgeBridge
open Process

namespace Bridge

/-- `tx_mutex` -/
def txLock : Lock platform where
  move
    | .takeTxMutex, true => .takes
    | .giveTxMutex, _ => .gives
    | .uartWriteBytes _, _ | .uartWaitTxDone, _ | .locked .markTxActivity, _ => .needs
    | _, _ => .free

/-- `request_mutex` -/
def requestLock : Lock platform where
  move
    | .takeRequestMutex, true => .takes
    | .giveRequestMutex, _ => .gives
    | .pollStatus, _ | .waitStatus, _ => .needs
    | .locked .armRequest, _ | .locked .disarmRequest, _ => .needs
    | _, _ => .free

/-! ### Code that uses a lock in one place -/

/-- Operations of neither `send_frame` nor `send_wait_status`. -/
def elsewhere : Op → Bool
  | .takeTxMutex | .giveTxMutex | .uartWriteBytes _ | .uartWaitTxDone => false
  | .takeRequestMutex | .giveRequestMutex | .pollStatus | .waitStatus => false
  | .locked .markTxActivity | .locked .armRequest | .locked .disarmRequest => false
  | _ => true

theorem elsewhere_of_linking {o : Op} (h : linking o = true) : elsewhere o = true := by
  cases o with
  | locked s => cases s <;> first | rfl | cases h
  | _ => first | rfl | cases h

theorem elsewhere_of_serving {socket : ℕ} {o : Op} (h : serving socket o = true) :
    elsewhere o = true := by
  cases o <;> first | rfl | cases h

theorem elsewhere_of_relaying {socket : ℕ} {o : Op} (h : relaying socket o = true) :
    elsewhere o = true := by
  cases o <;> first | rfl | cases h

/-- A lock that is used in these two helpers only. -/
abbrev Local (lock : Lock platform) : Prop := Passes lock.next false elsewhere

namespace Local
variable {lock : Lock platform} {socket : ℕ} (h : Local lock)
include h

theorem links : Passes lock.next false linking := h.sub fun _ => elsewhere_of_linking

theorem calls : Passes lock.next false calling := h.links.calls_of_links

theorem serves (socket : ℕ) : Attends lock.next false expansionTransport (serving socket) :=
  h.calls.attends fun o ho => h.free o (elsewhere_of_serving ho)

theorem proxy {initial : List UInt8} :
    lock.Brackets (rpcProxyRun expansionTransport socket initial) :=
  rpcProxyRun_keeps (fun o ho => h.free o (elsewhere_of_relaying ho)) (h.last rfl)
    (h.calls.traced h.calls.endRpc) fun _ => h.calls.traced h.calls.sendRpc

theorem client {context : ClientContext} :
    lock.Brackets (clientTask expansionTransport context) := by
  refine (h.serves context.socket).client (E := (· = false)) rfl (fun _ => h.proxy) ?_
  rintro session _ rfl
  exact h.step rfl fun _ => h.step rfl fun _ => h.step rfl fun _ => h.step rfl fun _ => h.last rfl

theorem writer : lock.Brackets (proxyWriterTask expansionTransport socket) := by
  have hreceive : lock.Brackets (expansionTransport.receiveRpc bridgeTcpReadBytes) := by
    apply h.step rfl
    intro received
    split
    · exact keeps_pure
    · exact h.step rfl fun _ => keeps_pure
  let walk : WriterWalk lock.next expansionTransport socket :=
    { turning := (· = false)
      reading := (· = false)
      leaving := (· = false)
      look := by
        rintro _ rfl
        exact follows_either (h.last rfl)
      pass := by
        rintro _ rfl
        refine Prog.Follows.mono hreceive ?_
        rintro ⟨error, bytes⟩ _ rfl
        dsimp only
        split
        · exact follows_either (h.only (sendAll_only (fun _ => rfl) _))
        · split
          · rfl
          · rfl }
  apply walk.follows rfl
  rintro _ rfl
  refine h.step rfl fun bits => .bind ?_ fun _ => h.step rfl fun _ => h.last rfl
  split
  · exact keeps_pure
  · exact h.last rfl

theorem server : lock.Brackets serverTask := by
  let walk : AcceptWalk lock.next :=
    { listening := (· = false)
      accepted := fun _ => (· = false)
      holding := fun _ => (· = false)
      allocated := fun _ => (· = false)
      failed := fun _ => (· = false)
      accept := by
        rintro _ rfl
        refine follows_last fun result => ⟨false, h.free _ rfl _, ?_⟩
        cases result with
        | error errno =>
          dsimp only
          split
          · exact keeps_pure
          · exact h.last rfl
        | ok socket => rfl
      claim := by
        rintro socket _ rfl
        refine follows_last fun claimed => ⟨false, h.free _ rfl _, ?_⟩
        split
        · rfl
        · apply h.step rfl
          intro _
          exact (h.serves _).answers.respond.bind fun _ => h.step rfl fun _ => h.last rfl
      allocate := by
        rintro _ _ rfl
        exact follows_either (h.last rfl)
      create := by
        rintro _ _ rfl
        exact follows_either (h.last rfl)
      abandon := by
        rintro _ _ rfl
        exact h.step rfl fun _ => h.last rfl }
  refine walk.follows (follows_last fun listening => ⟨false, h.free _ rfl _, ?_⟩)
  split
  · rfl
  · exact h.last rfl

theorem code {secret : Vector UInt8 bridgePairingSecretBytes} (i : Tid) :
    lock.Brackets ((bridge secret).code i) := by
  cases i with
  | server => exact h.server
  | supervisor => exact h.links.supervisor
  | client socket => exact h.client
  | writer socket => exact h.writer
  | rx id => exact h.links.rx
  | heartbeat id => exact h.links.heartbeat

end Local

/-! ### The two mutexes -/

theorem sendFrame_txLock (frame : ExpansionFrame) : txLock.Brackets (sendFrame frame) := by
  unfold Lock.Brackets Prog.Keeps sendFrame
  split
  · exact keeps_pure
  refine follows_op fun taken => ⟨taken, by cases taken <;> rfl, ?_⟩
  cases taken with
  | false => exact keeps_pure
  | true =>
    refine follows_op fun written => ⟨true, rfl, ?_⟩
    refine .bind (S := fun _ holds => holds = true) ?_ ?_
    · split
      · exact follows_last fun _ => ⟨true, rfl, rfl⟩
      · exact follows_pure rfl
    rintro error _ rfl
    refine .bind (S := fun _ holds => holds = true) ?_ ?_
    · split
      · exact follows_last fun _ => ⟨true, rfl, rfl⟩
      · exact follows_pure rfl
    rintro now _ rfl
    exact follows_op fun _ => ⟨false, rfl, follows_pure rfl⟩

theorem sendWaitStatus_txLock (frame : ExpansionFrame) :
    txLock.Brackets (sendWaitStatus frame) := by
  apply keeps_op fun _ => rfl
  intro taken
  split
  · exact keeps_pure
  apply Prog.Keeps.bind
  · apply Prog.Keeps.loop
    intro _
    apply keeps_op fun _ => rfl
    intro taken
    exact keeps_pure
  intro _
  apply keeps_op fun _ => rfl
  intro _
  apply keeps_op fun _ => rfl
  intro started
  apply (sendFrame_txLock frame).bind
  intro error
  apply Prog.Keeps.bind
  · split
    · exact keeps_op (fun _ => rfl) fun _ => keeps_pure
    · exact keeps_pure
  intro error
  exact keeps_op (fun _ => rfl) fun _ => keeps_op (fun _ => rfl) fun _ =>
    keeps_op (fun _ => rfl) fun _ => keeps_pure

theorem txLock_local : Local txLock where
  free o ho := by
    suffices hfree : txLock.Free o from fun r => Lock.next_free hfree r
    cases o with
    | locked s => cases s <;> first | exact fun _ => rfl | cases ho
    | takeTxMutex | giveTxMutex | uartWriteBytes bytes | uartWaitTxDone => cases ho
    | _ => exact fun _ => rfl
  send := sendFrame_txLock
  ask := sendWaitStatus_txLock

theorem requestLock_free_of_sending {o : Op} (ho : sending o = true) : requestLock.Free o := by
  cases o with
  | locked s => cases s <;> first | exact fun _ => rfl | cases ho
  | takeTxMutex | uartWriteBytes bytes | uartWaitTxDone | giveTxMutex => exact fun _ => rfl
  | _ => cases ho

theorem sendFrame_requestLock (frame : ExpansionFrame) :
    (sendFrame frame).Only requestLock.Free :=
  sendFrame_only (fun _ ho => requestLock_free_of_sending ho) frame

theorem sendWaitStatus_requestLock (frame : ExpansionFrame) :
    requestLock.Brackets (sendWaitStatus frame) := by
  refine follows_op fun taken => ⟨taken, by cases taken <;> rfl, ?_⟩
  cases taken with
  | false => exact keeps_pure
  | true =>
    refine .bind (S := fun _ holds => holds = true) ?_ ?_
    · refine .loop (fun _ holds => holds = true) rfl ?_
      rintro _ _ rfl
      refine follows_op fun taken => ⟨true, rfl, ?_⟩
      cases taken <;> exact follows_pure rfl
    rintro _ _ rfl
    refine follows_op fun _ => ⟨true, rfl, ?_⟩
    refine follows_op fun started => ⟨true, rfl, ?_⟩
    have hsend : (sendFrame frame).Keeps requestLock.next true :=
      Lock.keeps_of_only (sendFrame_requestLock frame)
    refine Prog.Follows.bind hsend ?_
    rintro error _ rfl
    refine .bind (S := fun _ holds => holds = true) ?_ ?_
    · split
      · exact follows_op fun _ => ⟨true, rfl, follows_pure rfl⟩
      · exact follows_pure rfl
    rintro error _ rfl
    refine follows_op fun now => ⟨true, rfl, ?_⟩
    refine follows_op fun status => ⟨true, rfl, ?_⟩
    exact follows_op fun _ => ⟨false, rfl, follows_pure rfl⟩

theorem requestLock_local : Local requestLock where
  free o ho := by
    suffices hfree : requestLock.Free o from fun r => Lock.next_free hfree r
    cases o with
    | locked s => cases s <;> first | exact fun _ => rfl | cases ho
    | takeRequestMutex | giveRequestMutex | pollStatus | waitStatus => cases ho
    | _ => exact fun _ => rfl
  send frame := Lock.keeps_of_only (sendFrame_requestLock frame)
  ask := sendWaitStatus_requestLock

/-! ### The state -/

section Effect
variable {i : Tid} {o : Op} {r : o.Res} {st st' : State}

def State.mutexes (st : State) : Bool × Bool := (st.txMutex, st.requestMutex)

/-- Operations on a mutex. -/
def locking : Op → Bool
  | .takeTxMutex | .giveTxMutex | .takeRequestMutex | .giveRequestMutex => true
  | _ => false

theorem effect_mutexes (h : effect i o r st = some st') (ho : locking o = false) :
    st'.mutexes = st.mutexes := by
  unfold effect at h
  split at h
  case h_11 | h_12 | h_13 | h_14 => cases ho
  case h_18 | h_19 | h_36 =>
    obtain rfl := Option.some_inj.mp h
    split <;> rfl
  case h_24 kind created =>
    obtain rfl := Option.some_inj.mp h
    split
    · cases kind <;> rfl
    · rfl
  case h_25 kind id _ | h_29 kind _ =>
    obtain rfl := Option.some_inj.mp h
    cases kind <;> rfl
  all_goals first
    | (obtain ⟨guarded, -, rfl⟩ := Option.map_eq_some_iff.mp h; rfl)
    | (obtain rfl := Option.some_inj.mp h; rfl)
    | (obtain ⟨-, ⟨⟩⟩ := Option.ite_none_right_eq_some.mp h; rfl)
    | (obtain rfl | rfl := effect_take h <;> rfl)

end Effect

theorem take_taken {held : Bool} {held' st' : State} (st : State)
    (h : take held true held' st = some st') :
    held = false ∧ st' = held' := by
  cases held with
  | true => cases h
  | false => exact ⟨rfl, (Option.some_inj.mp h).symm⟩

theorem txLock_guards {secret : Vector UInt8 bridgePairingSecretBytes} :
    txLock.Guards (bridge secret) State.txMutex where
  init := rfl
  takes := by
    intro i o r st st' h hmove
    cases o with
    | takeTxMutex =>
      cases r with
      | true =>
        obtain ⟨hfree, rfl⟩ := take_taken st h
        exact ⟨hfree, rfl⟩
      | false => cases hmove
    | locked s => cases s <;> cases hmove
    | _ => cases hmove
  gives := by
    intro i o r st st' h hmove
    cases o with
    | giveTxMutex =>
      obtain rfl := Option.some_inj.mp h
      rfl
    | takeTxMutex => cases r <;> cases hmove
    | locked s => cases s <;> cases hmove
    | _ => cases hmove
  keeps := by
    intro i o r st st' h htake hgive
    have hkept : locking o = false → st'.mutexes = st.mutexes := effect_mutexes h
    cases o with
    | takeTxMutex =>
      cases r with
      | true => exact absurd rfl htake
      | false =>
        obtain rfl := Option.some_inj.mp h
        rfl
    | giveTxMutex => exact absurd rfl hgive
    | takeRequestMutex => obtain rfl | rfl := effect_take h <;> rfl
    | giveRequestMutex =>
      obtain rfl := Option.some_inj.mp h
      rfl
    | _ => exact congrArg Prod.fst (hkept rfl)

theorem requestLock_guards {secret : Vector UInt8 bridgePairingSecretBytes} :
    requestLock.Guards (bridge secret) State.requestMutex where
  init := rfl
  takes := by
    intro i o r st st' h hmove
    cases o with
    | takeRequestMutex =>
      cases r with
      | true =>
        obtain ⟨hfree, rfl⟩ := take_taken st h
        exact ⟨hfree, rfl⟩
      | false => cases hmove
    | locked s => cases s <;> cases hmove
    | _ => cases hmove
  gives := by
    intro i o r st st' h hmove
    cases o with
    | giveRequestMutex =>
      obtain rfl := Option.some_inj.mp h
      rfl
    | takeRequestMutex => cases r <;> cases hmove
    | locked s => cases s <;> cases hmove
    | _ => cases hmove
  keeps := by
    intro i o r st st' h htake hgive
    have hkept : locking o = false → st'.mutexes = st.mutexes := effect_mutexes h
    cases o with
    | takeRequestMutex =>
      cases r with
      | true => exact absurd rfl htake
      | false =>
        obtain rfl := Option.some_inj.mp h
        rfl
    | giveRequestMutex => exact absurd rfl hgive
    | takeTxMutex => obtain rfl | rfl := effect_take h <;> rfl
    | giveTxMutex =>
      obtain rfl := Option.some_inj.mp h
      rfl
    | _ => exact congrArg Prod.snd (hkept rfl)

end Bridge

/-- Frames of different tasks never mix on the UART. Between taking and giving back `tx_mutex` only
the task that took it writes; nobody else gives it back, and it is taken only when it is free. -/
theorem frames_do_not_mix {secret : Vector UInt8 bridgePairingSecretBytes}
    {c : System.Config (bridge secret)} (hc : System.Reachable c) :
    Justified Bridge.txLock.Excludes c.world.trace ∧
      c.world.state.txMutex = (Bridge.txLock.holder c.world.trace).isSome :=
  Lock.excludes Bridge.txLock_local.code Bridge.txLock_guards hc

/-- The client holds the mutex while it writes. -/
theorem frames_do_not_mix_writing : ∃ c : Bridge.Sample,
    Bridge.txLock.holder c.world.trace = some (.client 0) ∧
      Justified Bridge.txLock.Excludes c.world.trace ∧
      c.world.state.txMutex = (Bridge.txLock.holder c.world.trace).isSome := by
  obtain ⟨c, hc, htest⟩ :=
    Bridge.exists_run (Bridge.Script.begins ++ Bridge.Script.goes (.client 0) 15)
    (fun c : Bridge.Sample => Bridge.txLock.holder c.world.trace == some (.client 0))
    (by decide +kernel)
  exact ⟨c, beq_iff_eq.mp htest, frames_do_not_mix hc⟩

/-- Exchanges never mix either: only the task that holds `request_mutex` drains and waits for the
semaphore, and asks for and reads a STATUS. -/
theorem exchanges_do_not_mix {secret : Vector UInt8 bridgePairingSecretBytes}
    {c : System.Config (bridge secret)} (hc : System.Reachable c) :
    Justified Bridge.requestLock.Excludes c.world.trace ∧
      c.world.state.requestMutex = (Bridge.requestLock.holder c.world.trace).isSome :=
  Lock.excludes Bridge.requestLock_local.code Bridge.requestLock_guards hc

/-- The client holds the mutex until it has read the answer. -/
theorem exchanges_do_not_mix_asking : ∃ c : Bridge.Sample,
    Bridge.requestLock.holder c.world.trace = some (.client 0) ∧
      Justified Bridge.requestLock.Excludes c.world.trace ∧
      c.world.state.requestMutex = (Bridge.requestLock.holder c.world.trace).isSome := by
  obtain ⟨c, hc, htest⟩ :=
    Bridge.exists_run (Bridge.Script.begins ++ Bridge.Script.goes (.client 0) 15)
    (fun c : Bridge.Sample => Bridge.requestLock.holder c.world.trace == some (.client 0))
    (by decide +kernel)
  exact ⟨c, beq_iff_eq.mp htest, exchanges_do_not_mix hc⟩

end FlipforgeBridge
