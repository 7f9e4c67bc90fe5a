import FlipforgeBridge.Bridge.System

/-!
Running the firmware. In every state the platform has an answer to every operation that does not
wait for another task; a run takes these answers and leaves to the outside what it may decide.
-/
namespace FlipforgeBridge
open Process

/-- What a section hands over. -/
def Section.answer (t : Guarded) : (s : Section) → s.Res
  | .markRxActivity | .markTxActivity | .restartActivity => 0
  | .apply event =>
    ((expansionStateMachineApply t.machine event).1,
     (expansionStateMachineApply t.machine event).2.1)
  | .state => t.machine.state
  | .negotiatedBaud => t.negotiatedBaud
  | .restart | .storeBaud _ | .armRequest => ()
  | .disarmRequest => t.lastStatus
  | .offerStatus _ => t.awaitingStatus
  | .activity => (t.lastRxUs, t.lastTxUs, t.awaitingStatus)

theorem Section.exists_run (t : Guarded) (s : Section) : ∃ t', s.run (s.answer t) t = some t' := by
  cases s <;> simp [run, answer]

namespace Bridge

/-- What the outside decides in one step. -/
structure Outside where
  uart : UartRead := .nothing
  recv : RecvResult := .closed
  hmac : Option (Vector UInt8 bridgeHmacBytes) := none
  now : ℤ := 0
  /-- Drivers, allocations and sockets report an error. -/
  fails : Bool := false

namespace Outside

def error (out : Outside) : EspErr := if out.fails then .fail else .ok

/-- What the platform answers in this state. -/
def answer (out : Outside) (st : State) : (o : Op) → o.Res
  | .locked s => s.answer st.guarded
  | .eventBits | .waitRetry | .waitLost => st.bits
  | .takeTxMutex => !st.txMutex
  | .takeRequestMutex => !st.requestMutex
  | .pollStatus | .waitStatus => st.statusSemaphore
  | .uartParamConfig _ | .uartSetPin | .uartFlushInput | .uartWaitTxDone | .uartSetBaudrate _ =>
    out.error
  | .gpioResetTx | .gpioResetRx | .gpioSetTxDirection | .gpioSetTxLevel _ => out.error
  | .uartWriteBytes bytes => if out.fails then -1 else bytes.length
  | .uartReadByte => out.uart
  | .streamBytesAvailable => st.rpcRx.length
  | .streamSend bytes => min bytes.length (bridgeRpcRxBufferBytes - st.rpcRx.length)
  | .streamReceive capacity => st.rpcRx.take capacity
  | .taskCreate _ | .listen | .callocContext | .proxyCreate _ => !out.fails
  | .taskHandle kind => st.handle kind
  | .hmacSha256 _ _ => out.hmac
  | .timerGetTime => out.now
  | .accept => if out.fails then .error .other else .ok st.socketsAccepted
  | .recv _ _ => out.recv
  | .send _ bytes => { sent := if out.fails then -1 else bytes.length }
  | .claimClient => !st.clientActive
  | .proxyBits socket => st.proxy socket
  | o => o.smooth

end Outside

/-- Operations that wait until another task has done its part. -/
def waits : Op → Bool
  | .waitRetry | .waitLost | .proxyWaitDone _ => true
  | _ => false

/-- What a client sends fits into the chunk it is read with. -/
def Outside.Fits (out : Outside) : Op → Prop
  | .recv _ size => ∀ bytes, out.recv = .data bytes → bytes ≠ [] ∧ bytes.length ≤ size
  | _ => True

theorem take_not (held : Bool) (held' st : State) :
    take held (!held) held' st = some (if held then st else held') := by
  cases held <;> rfl

theorem exists_effect {i : Tid} {o : Op} {st : State} {out : Outside} (ho : waits o = false)
    (hout : out.Fits o) : ∃ st', effect i o (out.answer st o) st = some st' := by
  cases o with
  | locked s =>
    obtain ⟨t, ht⟩ := s.exists_run st.guarded
    exact ⟨{ st with guarded := t }, Option.map_eq_some_iff.mpr ⟨t, ht, rfl⟩⟩
  | waitRetry | waitLost | proxyWaitDone socket => cases ho
  | recv socket size =>
    obtain ⟨uart, recv, hmac, now, fails⟩ := out
    cases recv with
    | data bytes => exact ⟨st, if_pos (hout bytes rfl)⟩
    | _ => exact ⟨st, rfl⟩
  | takeTxMutex | takeRequestMutex => exact ⟨_, take_not _ _ _⟩
  | waitStatus =>
    have htake := take_not (!st.statusSemaphore) { st with statusSemaphore := false } st
    rw [Bool.not_not] at htake
    exact ⟨_, htake⟩
  | taskDelete kind handle => cases handle <;> exact ⟨_, rfl⟩
  | accept =>
    obtain ⟨uart, recv, hmac, now, fails⟩ := out
    cases fails with
    | true => exact ⟨st, rfl⟩
    | false => exact ⟨_, if_pos rfl⟩
  | send socket bytes =>
    refine ⟨st, if_pos ?_⟩
    change (if out.fails then -1 else (bytes.length : ℤ)) ≤ bytes.length
    split <;> omega
  | _ => first | exact ⟨_, rfl⟩ | exact ⟨_, if_pos rfl⟩

/-- Who moves next, and what the outside decides then. -/
abbrev Script := List (Tid × Outside)

section Run
variable {secret : Vector UInt8 bridgePairingSecretBytes}

def run : Script → System.Config (bridge secret) → Option (System.Config (bridge secret))
  | [], c => some c
  | (i, out) :: rest, c => (System.fire (i, out.answer c.world.state) c).bind (run rest)

theorem run_steps {script : Script} {c c' : System.Config (bridge secret)}
    (h : run script c = some c') : Relation.ReflTransGen System.Step c c' := by
  induction script generalizing c with
  | nil => exact Option.some_inj.mp h ▸ .refl
  | cons move rest ih =>
    obtain ⟨d, hd, hrest⟩ := Option.bind_eq_some_iff.mp h
    exact (System.fire_steps hd).trans (ih hrest)

/-- A run that ends in a configuration satisfying a test exhibits a reachable one. -/
theorem exists_run (script : Script) (test : System.Config (bridge secret) → Bool)
    (h : (run script (System.start (bridge secret))).any test = true) :
    ∃ c, System.Reachable c ∧ test c = true := by
  obtain ⟨c, hc, htest⟩ := (Option.any_eq_true _ _).mp h
  exact ⟨c, run_steps hc, htest⟩

/-- The same for a run that is then carried on. -/
theorem exists_run_on (script rest : Script) (test test' : System.Config (bridge secret) → Bool)
    (h : (run script (System.start (bridge secret))).any
      (fun c => test c && (run rest c).any test') = true) :
    ∃ c c', System.Reachable c ∧ Relation.ReflTransGen System.Step c c' ∧ test c = true ∧
      test' c' = true := by
  obtain ⟨c, hc, hrest⟩ := (Option.any_eq_true _ _).mp h
  obtain ⟨htest, hafter⟩ := Bool.and_eq_true_iff.mp hrest
  obtain ⟨c', hc', htest'⟩ := (Option.any_eq_true _ _).mp hafter
  exact ⟨c, c', run_steps hc, run_steps hc', htest, htest'⟩

/-- A mark that was recorded last. -/
theorem exists_past {trace : List (Label platform Tid)} {i : Tid} {m : Mark}
    (h : trace.head?.map (fun e => (e.tid, e.op)) = some (i, .mark m)) :
    ∃ past, trace = ⟨i, .mark m, ()⟩ :: past := by
  obtain ⟨⟨j, o, r⟩, hhead, heq⟩ := Option.map_eq_some_iff.mp h
  obtain ⟨rfl, rfl⟩ := Prod.mk.inj heq
  obtain ⟨past, hpast⟩ := List.head?_eq_some_iff.mp hhead
  exact ⟨past, hpast⟩

end Run

/-! ### A sample run

One client, from the first attempt to the end of its connection: it sends three bytes and gets
two. The other runs branch off this one. -/

namespace Script

/-- A task moves, and nothing comes from outside. -/
def goes (i : Tid) (n : ℕ) : Script := .replicate n (i, {})

/-- A task reads a frame, in two steps for each byte. -/
def hears (i : Tid) (frame : ExpansionFrame) : Script :=
  ((expansionProtocolEncode frame expansionFrameSize).getD []).flatMap fun byte =>
    [(i, {}), (i, { uart := .byte byte })]

/-- The exchange of `send_wait_status`, answered STATUS None. -/
def asks (n : ℕ) : Script :=
  goes (.client n) 9 ++ hears (.rx 0) (.status .none) ++ goes (.rx 0) 4 ++ goes (.client n) 4

/-- The first preferred rate is accepted. -/
def establishes : Script :=
  goes .supervisor 18 ++ hears .supervisor .heartbeat ++ goes .supervisor 8 ++
    hears .supervisor (.status .none) ++ goes .supervisor 7

def request (command : BridgeCommand) (payload : List UInt8) : List UInt8 :=
  (bridgeMessageEncode { version := 1, command := command.toByte, payload }
    bridgeManagementFrameSize).getD []

/-- One chunk with all requests, and three raw bytes behind them; START RPC is accepted. -/
def starts (n : ℕ) : Script :=
  goes (.client n) 5 ++
    [(.client n, { recv := .data (request .hello (.replicate 32 9) ++
      request .authenticate (.replicate 32 0) ++ request .beginRpcProxy [] ++ [1, 2, 3]) })] ++
    goes (.client n) 6 ++ [(.client n, { hmac := some (.replicate _ 0) })] ++ goes (.client n) 8 ++
    asks n ++ goes (.client n) 1

/-- `begin_rpc` succeeds. -/
def begins : Script :=
  establishes ++ goes .supervisor 4 ++ goes .server 5 ++ starts 0 ++ goes (.client 0) 1

/-- The three bytes go to the Flipper. -/
def forwards : Script := begins ++ goes (.client 0) 8 ++ asks 0 ++ goes (.client 0) 1

/-- Seventy more go in two frames. -/
def splits : Script :=
  forwards ++ goes (.client 0) 1 ++ [(.client 0, { recv := .data (.replicate 70 1) })] ++
    goes (.client 0) 1 ++ asks 0 ++ asks 0 ++ goes (.client 0) 2

/-- Two bytes come back. -/
def returns : Script :=
  forwards ++ hears (.rx 0) (.data [7, 8]) ++ goes (.rx 0) 10 ++ goes (.writer 0) 3

/-- The client closes the connection, and the slot is given back. -/
def closes : Script :=
  goes (.client 0) 4 ++ goes (.writer 0) 4 ++ goes (.client 0) 6 ++ asks 0 ++ goes (.client 0) 7

def releases : Script := returns ++ closes

/-- The client closes the connection before its two bytes are taken. Another client begins a
session, and gets one byte before `begin_rpc` returns. -/
def resumes : Script :=
  forwards ++ hears (.rx 0) (.data [7, 8]) ++ goes (.rx 0) 10 ++ closes ++ goes .server 4 ++
    starts 1 ++ hears (.rx 0) (.data [9]) ++ goes (.rx 0) 10 ++ goes (.client 1) 1

/-- A DATA frame comes in, and its acknowledgement does not get beyond taking `tx_mutex`: the
heartbeat task finds the Flipper silent, and the supervisor deletes the receiving task. -/
def deletes : Script :=
  forwards ++ hears (.rx 0) (.data [7, 8]) ++ goes (.rx 0) 6 ++ goes (.heartbeat 0) 1 ++
    [(.heartbeat 0, { now := 300000 })] ++ goes (.heartbeat 0) 3 ++ goes .supervisor 54

/-- The supervisor begins its next attempt, up to the first rate. -/
def retries : Script := goes .supervisor 28 ++ hears .supervisor .heartbeat ++ goes .supervisor 4

/-- The receiving task fails to read, but clears its handle only when the supervisor has waited for
it 25 times and found it set once more. -/
def races : Script :=
  establishes ++ goes .supervisor 4 ++ goes (.rx 0) 1 ++ [(.rx 0, { uart := .error })] ++
    goes (.rx 0) 2 ++ goes .supervisor 52 ++ goes (.rx 0) 1 ++ goes .supervisor 2

end Script

/-- Configurations of the sample run. -/
abbrev Sample := System.Config (bridge (.replicate _ 0))

end Bridge
end FlipforgeBridge
