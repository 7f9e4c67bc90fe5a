import FlipforgeBridge.Expansion.Transport

/-!
Going through the code of the transport once for every role. What a role says of `send_frame`, of
`send_wait_status` and of the operations around them, it says of the functions made of them; and
of the supervisor it says what holds at a few points of its loop, and answers for the straight
pieces of code between them.
-/
namespace FlipforgeBridge
open Process

/-! ### Kinds of operations -/

/-- Operations of `establish_expansion` outside `send_frame`, once the machine has been started
over. -/
def establishing : Op → Bool
  | .locked (.apply .start) | .locked (.apply .heartbeatReceived) => true
  | .locked (.apply .baudAccepted) | .locked (.apply .baudRejected) => true
  | .locked (.storeBaud _) | .locked .markRxActivity | .locked .restartActivity => true
  | .uartParamConfig _ | .uartSetPin | .uartFlushInput | .uartReadByte | .uartSetBaudrate _ => true
  | .gpioResetTx | .gpioSetTxDirection | .gpioSetTxLevel _ => true
  | .timerGetTime | .delay _ => true
  | _ => false

/-- Operations of `send_frame`. -/
def sending : Op → Bool
  | .takeTxMutex | .uartWriteBytes _ | .uartWaitTxDone | .locked .markTxActivity => true
  | .giveTxMutex => true
  | _ => false

/-- Operations of `send_wait_status`. -/
def exchanging : Op → Bool
  | .takeRequestMutex | .giveRequestMutex | .pollStatus | .waitStatus | .timerGetTime => true
  | .locked .armRequest | .locked .disarmRequest => true
  | o => sending o

/-- Operations of `stop_io_tasks`. -/
def stopping : Op → Bool
  | .taskHandle _ | .taskDelete _ _ | .clearTaskHandle _ | .delay _ => true
  | _ => false

/-- What the calls of the transport do besides `send_wait_status`. -/
def calling : Op → Bool
  | .locked (.apply _) | .locked .state | .locked .negotiatedBaud => true
  | .eventBits | .setLost _ | .setReconnect | .streamReset | .streamReceive _ | .mark _ => true
  | _ => false

/-- What the supervisor and the I/O tasks do besides `send_frame`. -/
def linking : Op → Bool
  | .takeTxMutex | .giveTxMutex | .uartWriteBytes _ | .uartWaitTxDone => false
  | .takeRequestMutex | .giveRequestMutex | .pollStatus | .waitStatus => false
  | .locked .markTxActivity | .locked .armRequest | .locked .disarmRequest => false
  | .listen | .accept | .claimClient | .releaseClient | .callocContext => false
  | .setSocketTimeouts _ | .recv _ _ | .send _ _ | .shutdown _ | .close _ => false
  | .proxyCreate _ | .proxyBits _ | .proxySetDone _ | .proxySetStop _ => false
  | .proxyWaitDone _ | .proxyDelete _ => false
  | .taskCreate (.client _) | .taskCreate (.writer _) => false
  | _ => true

theorem exchanging_of_sending {o : Op} (h : sending o = true) : exchanging o = true := by
  cases o with
  | locked s => cases s <;> first | exact h | cases h
  | _ => first | exact h | cases h

theorem linking_of_establishing {o : Op} (h : establishing o = true) : linking o = true := by
  cases o with
  | locked s => cases s <;> first | rfl | cases h
  | _ => first | rfl | cases h

theorem linking_of_stopping {o : Op} (h : stopping o = true) : linking o = true := by
  cases o <;> first | rfl | cases h

theorem linking_of_calling {o : Op} (h : calling o = true) : linking o = true := by
  cases o with
  | locked s => cases s <;> first | rfl | cases h
  | _ => first | rfl | cases h

theorem sendFrame_only {allowed : Op → Prop} (h : ∀ o, sending o = true → allowed o)
    (frame : ExpansionFrame) : (sendFrame frame).Only allowed := by
  unfold sendFrame
  split
  · exact only_pure
  apply only_op (h _ rfl)
  intro taken
  split
  · exact only_pure
  apply only_op (h _ rfl)
  intro written
  apply Prog.Only.bind
  · split
    · exact (Prog.only_perform _).mpr (h _ rfl)
    · exact only_pure
  intro error
  apply Prog.Only.bind
  · split
    · exact (Prog.only_perform _).mpr (h _ rfl)
    · exact only_pure
  intro now
  exact only_op (h _ rfl) fun _ => only_pure

theorem sendWaitStatus_only {allowed : Op → Prop} (h : ∀ o, exchanging o = true → allowed o)
    (frame : ExpansionFrame) : (sendWaitStatus frame).Only allowed := by
  apply only_op (h _ rfl)
  intro taken
  split
  · exact only_pure
  apply Prog.Only.bind
  · apply Prog.Only.loop
    intro _
    exact only_op (h _ rfl) fun taken => only_pure
  intro _
  refine only_op (h _ rfl) fun _ => only_op (h _ rfl) fun started => ?_
  apply (sendFrame_only (fun o ho => h o (exchanging_of_sending ho)) frame).bind
  intro error
  apply Prog.Only.bind
  · split
    · exact only_op (h _ rfl) fun answered => only_pure
    · exact only_pure
  intro error
  exact only_op (h _ rfl) fun now => only_op (h _ rfl) fun status =>
    only_op (h _ rfl) fun _ => only_pure

theorem releaseExpansionPins_only {allowed : Op → Prop} (htx : allowed .gpioResetTx)
    (hrx : allowed .gpioResetRx) : releaseExpansionPins.Only allowed :=
  only_op htx fun _ => only_op hrx fun _ => only_pure

theorem deleteIoTask_only {allowed : Op → Prop} (h : ∀ o, stopping o = true → allowed o)
    (kind : TaskKind) : (deleteIoTask kind).Only allowed := by
  apply only_op (h _ rfl)
  intro handle
  split
  · refine only_op (h _ rfl) fun _ => only_op (h _ rfl) fun _ => ?_
    exact (Prog.only_perform _).mpr (h _ rfl)
  · exact only_pure

theorem stopIoTasks_only {allowed : Op → Prop} (h : ∀ o, stopping o = true → allowed o) :
    stopIoTasks.Only allowed := by
  refine .bind (.loop fun wait => ?_) fun _ =>
    .bind (deleteIoTask_only h _) fun _ => deleteIoTask_only h _
  split
  · exact only_pure
  apply only_op (h _ rfl)
  intro rx
  refine .bind ?_ fun busy => ?_
  · split
    · exact only_pure
    · exact only_op (h _ rfl) fun _ => only_pure
  · split
    · exact only_pure
    · exact only_op (h _ rfl) fun _ => only_pure

/-! ### Establishing a link -/

section Keeps
variable {Phase α : Type} {next : Phase → (o : Op) → o.Res → Option Phase} {ph : Phase} {o : Op}
  {k : o.Res → Routine α}

theorem keeps_pure {a : α} : (pure a : Routine α).Keeps next ph := Prog.keeps_ret a

theorem keeps_last (ho : ∀ r, next ph o r = some ph) : (op o).Keeps next ph :=
  follows_last fun r => ⟨ph, ho r, rfl⟩

theorem keeps_op (ho : ∀ r, next ph o r = some ph) (hk : ∀ r, (k r).Keeps next ph) :
    (op o >>= k).Keeps next ph := follows_stay ho hk

variable (next ph) in
/-- A phase that establishing a link does not leave. -/
structure Rests : Prop where
  free : ∀ o, establishing o = true → ∀ r, next ph o r = some ph
  send : ∀ frame, (sendFrame frame).Keeps next ph

namespace Rests
variable (h : Rests next ph)
include h

theorem last (ho : establishing o = true) : (op o).Keeps next ph := keeps_last (h.free o ho)

theorem step (ho : establishing o = true) (hk : ∀ r, (k r).Keeps next ph) :
    (op o >>= k).Keeps next ph := keeps_op (h.free o ho) hk

theorem configure {baud : UInt32} : (uartConfigure baud).Keeps next ph := by
  apply h.step rfl
  intro error
  refine .bind ?_ fun error => ?_
  · split
    · exact h.last rfl
    · exact keeps_pure
  · split
    · exact h.last rfl
    · exact keeps_pure

theorem receive {timeoutMs : ℕ} : (receiveFrameSync timeoutMs).Keeps next ph := by
  apply h.step rfl
  intro now
  refine .loop fun decoder => ?_
  apply h.step rfl
  intro now
  split
  · exact keeps_pure
  apply h.step rfl
  intro read
  split
  · exact keeps_pure
  · exact keeps_pure
  dsimp only
  split
  · exact h.step rfl fun _ => keeps_pure
  · exact (h.send _).bind fun _ => keeps_pure
  · exact (h.send _).bind fun _ => keeps_pure
  · exact keeps_pure

theorem pulse : pulseFlipperRx.Keeps next ph := by
  apply h.step rfl
  intro error
  split
  · exact keeps_pure
  apply h.step rfl
  intro error
  split
  · exact keeps_pure
  apply h.step rfl
  intro error
  split
  · exact keeps_pure
  apply h.step rfl
  intro error
  split
  · exact keeps_pure
  · exact h.step rfl fun _ => h.last rfl

theorem switch {baud : UInt32} : (switchBaud baud).Keeps next ph := by
  refine h.step rfl fun _ => h.step rfl fun error => ?_
  split
  · exact keeps_pure
  · exact h.step rfl fun _ => h.step rfl fun _ => keeps_pure

theorem negotiate {rates : List UInt32} : (negotiateBaud rates).Keeps next ph := by
  induction rates with
  | nil => exact keeps_pure
  | cons baud rest ih =>
    apply (h.send _).bind
    intro error
    split
    · exact keeps_pure
    apply h.receive.bind
    intro response
    split
    · exact h.step rfl fun _ => ih
    · apply h.step rfl
      rintro ⟨accepted, action⟩
      dsimp only
      split
      · exact keeps_pure
      · exact h.switch
    · exact keeps_pure

/-- The attempt begins where the machine is started over. -/
theorem establish {start : Phase} (hstart : ∀ r, next start (.locked .restart) r = some ph) :
    establishExpansion.Follows next (fun _ ph' => ph' = ph) start := by
  refine follows_op fun _ => ⟨ph, hstart _, ?_⟩
  apply h.step rfl
  rintro ⟨accepted, action⟩
  dsimp only
  split
  · exact keeps_pure
  apply h.configure.bind
  intro error
  split
  · exact keeps_pure
  apply h.pulse.bind
  intro error
  split
  · exact keeps_pure
  apply h.step rfl
  intro error
  split
  · exact keeps_pure
  apply h.receive.bind
  intro response
  split
  · apply h.step rfl
    rintro ⟨accepted, action⟩
    dsimp only
    split
    · exact keeps_pure
    · exact h.negotiate
  · exact keeps_pure

end Rests

/-! ### Functions made of the helpers -/

variable (next ph) in
/-- Neither the two helpers nor these operations leave the phase. -/
structure Passes (ok : Op → Bool) : Prop where
  free : ∀ o, ok o = true → ∀ r, next ph o r = some ph
  send : ∀ frame, (sendFrame frame).Keeps next ph
  ask : ∀ frame, (sendWaitStatus frame).Keeps next ph

namespace Passes
variable {ok : Op → Bool}

theorem sub {ok' : Op → Bool} (h : Passes next ph ok) (hsub : ∀ o, ok' o = true → ok o = true) :
    Passes next ph ok' := ⟨fun o ho => h.free o (hsub o ho), h.send, h.ask⟩

section Any
variable (h : Passes next ph ok)
include h

theorem last (ho : ok o = true) : (op o).Keeps next ph := keeps_last (h.free o ho)

theorem step (ho : ok o = true) (hk : ∀ r, (k r).Keeps next ph) : (op o >>= k).Keeps next ph :=
  keeps_op (h.free o ho) hk

theorem only {p : Routine α} (hp : p.Only (ok · = true)) : p.Keeps next ph :=
  Prog.Only.keeps (hp.mono h.free)

end Any

section Calls
variable (h : Passes next ph calling)
include h

theorem lose {reason : LossReason} : (signalLinkLost reason).Keeps next ph :=
  h.step rfl fun _ => h.last rfl

theorem traced {call : TransportCall} {body : Routine EspErr} (hbody : body.Keeps next ph) :
    (FlipforgeBridge.traced call body).Keeps next ph :=
  h.step rfl fun _ => hbody.bind fun _ => h.step rfl fun _ => keeps_pure

theorem confirm {event : ExpansionEvent} {error : EspErr} {status : ExpansionFrameError} :
    Prog.Keeps next ph (if error ≠ .ok ∨ status ≠ .none then pure false else do
      let (accepted, _) ← transportApply event
      pure accepted : Routine Bool) := by
  split
  · exact keeps_pure
  · exact h.step rfl fun _ => keeps_pure

theorem beginRpc : expansionTransportBeginRpc.Keeps next ph := by
  apply h.step rfl
  intro state
  split
  · exact h.step rfl fun _ => keeps_pure
  apply h.step rfl
  rintro ⟨accepted, action⟩
  dsimp only
  split
  · exact keeps_pure
  apply (h.ask _).bind
  rintro ⟨error, status⟩
  apply h.confirm.bind
  intro started
  split
  · exact h.lose.bind fun _ => keeps_pure
  · exact keeps_pure

theorem endRpc : expansionTransportEndRpc.Keeps next ph := by
  apply h.step rfl
  intro state
  split
  · exact keeps_pure
  apply h.step rfl
  intro state
  split
  · exact keeps_pure
  apply h.step rfl
  rintro ⟨accepted, action⟩
  dsimp only
  split
  · exact keeps_pure
  apply (h.ask _).bind
  rintro ⟨error, status⟩
  apply h.confirm.bind
  intro stopped
  split
  · exact h.lose.bind fun _ => keeps_pure
  · exact h.step rfl fun _ => keeps_pure

theorem sendRpc {bytes : List UInt8} : (expansionTransportSendRpc bytes).Keeps next ph := by
  apply h.step rfl
  intro state
  split
  · exact keeps_pure
  refine .loop fun offset => ?_
  split
  · exact keeps_pure
  apply (h.ask _).bind
  rintro ⟨error, status⟩
  dsimp only
  split
  · exact h.lose.bind fun _ => keeps_pure
  · exact keeps_pure

end Calls

section Links
variable (h : Passes next ph linking)
include h

theorem calls_of_links : Passes next ph calling := h.sub fun _ => linking_of_calling

theorem rests : Rests next ph := ⟨fun o ho => h.free o (linking_of_establishing ho), h.send⟩

theorem establish : establishExpansion.Keeps next ph := h.rests.establish (h.free _ rfl)

theorem pins : releaseExpansionPins.Keeps next ph := h.only (releaseExpansionPins_only rfl rfl)

theorem stop : stopIoTasks.Keeps next ph :=
  h.only (stopIoTasks_only fun _ => linking_of_stopping)

theorem frame {frame : ExpansionFrame} : (handleRxFrame frame).Keeps next ph := by
  refine h.step rfl fun _ => h.step rfl fun _ => ?_
  cases frame with
  | heartbeat => exact keeps_pure
  | status status =>
    apply h.step rfl
    intro expected
    split
    · exact h.step rfl fun _ => keeps_pure
    · exact h.calls_of_links.lose.bind fun _ => keeps_pure
  | data bytes =>
    apply h.step rfl
    intro state
    split
    · exact h.calls_of_links.lose.bind fun _ => keeps_pure
    apply h.step rfl
    intro used
    split
    · exact (h.send _).bind fun _ => h.calls_of_links.lose.bind fun _ => keeps_pure
    apply h.step rfl
    intro sent
    split
    · exact h.calls_of_links.lose.bind fun _ => keeps_pure
    apply (h.send _).bind
    intro error
    split
    · exact h.calls_of_links.lose.bind fun _ => keeps_pure
    · exact keeps_pure
  | baudRate baud | control command => exact h.calls_of_links.lose.bind fun _ => keeps_pure

theorem rx : expansionRxTask.Keeps next ph := by
  refine .bind (.loop fun decoder => ?_) fun _ => h.step rfl fun _ => h.last rfl
  apply h.step rfl
  intro bits
  split
  · exact keeps_pure
  apply h.step rfl
  intro read
  split
  · exact h.calls_of_links.lose.bind fun _ => keeps_pure
  · exact keeps_pure
  dsimp only
  split
  · exact keeps_pure
  · exact h.calls_of_links.lose.bind fun _ => keeps_pure
  · exact h.calls_of_links.lose.bind fun _ => keeps_pure
  · exact h.frame.bind fun goOn => keeps_pure

theorem heartbeat : expansionHeartbeatTask.Keeps next ph := by
  refine .bind (.loop fun _ => ?_) fun _ => h.step rfl fun _ => h.last rfl
  apply h.step rfl
  intro bits
  split
  · exact keeps_pure
  refine h.step rfl fun now => h.step rfl ?_
  rintro ⟨lastRxUs, lastTxUs, requestPending⟩
  dsimp only
  split
  · exact h.calls_of_links.lose.bind fun _ => keeps_pure
  split
  · split
    · exact h.step rfl fun _ => keeps_pure
    apply (h.send _).bind
    intro error
    split
    · exact h.calls_of_links.lose.bind fun _ => keeps_pure
    · exact h.step rfl fun _ => keeps_pure
  · exact h.step rfl fun _ => keeps_pure

end Links

end Passes
end Keeps

/-! ### The supervisor -/

section Walk
variable {Phase : Type}

/-- What holds of the phase at the points of the supervisor's loop, and that the code leads from
one to the next. -/
structure SupervisorWalk (next : Phase → (o : Op) → o.Res → Option Phase)
    (establish : Routine EspErr) where
  /-- After so many failed attempts. -/
  waiting : ℕ → Phase → Prop
  trying : ℕ → Phase → Prop
  failed : ℕ → Phase → Prop
  linked : Phase → Prop
  /-- The receiving task was created. -/
  receiving : Phase → Prop
  /-- A task could not be created. -/
  unmanned : Phase → Prop
  manned : Phase → Prop
  lost : Phase → Prop
  closed : Phase → Prop
  reopening : Phase → Prop
  ending : Phase → Prop
  running {attempts : ℕ} {ph : Phase} (h : waiting attempts ph) :
    (op .running).Follows next
      (fun (running : Bool) ph => if running then waiting attempts ph else ending ph) ph
  retry {attempts : ℕ} {ph : Phase} (h : waiting attempts ph)
    (hlimit : bridgeExpansionMaxRetries ≤ attempts) :
    (do
      releaseExpansionPins
      op .waitRetry : Routine EventBits).Follows next
      (fun wake ph => if wake.stop then ending ph else trying 0 ph) ph
  early {attempts : ℕ} {ph : Phase} (h : waiting attempts ph)
    (hlimit : attempts < bridgeExpansionMaxRetries) : trying attempts ph
  attempt {attempts : ℕ} {ph : Phase} (h : trying attempts ph) :
    (do
      op .clearLostReady
      establish).Follows next
      (fun error ph => if error = EspErr.ok then linked ph else failed attempts ph) ph
  retreat {attempts : ℕ} {ph : Phase} (h : failed attempts ph) :
    (do
      releaseExpansionPins
      let _timeout ← transportApply .timeout
      op (.delay (bridgeExpansionRetryBaseMs * (attempts + 1)))
      return .inl (attempts + 1) : Routine (ℕ ⊕ Unit)).Follows next
      (Sum.elim waiting fun _ => ending) ph
  receive {ph : Phase} (h : linked ph) :
    (do
      op .streamReset
      op (.taskCreate .rx) : Routine Bool).Follows next
      (fun rx ph => if rx then receiving ph else unmanned ph) ph
  beat {ph : Phase} (h : receiving ph) :
    (op (.taskCreate .heartbeat)).Follows next
      (fun (created : Bool) ph => if created then manned ph else unmanned ph) ph
  alarm {ph : Phase} (h : unmanned ph) :
    (signalLinkLost .taskAllocation).Follows next (fun _ => manned) ph
  watch {ph : Phase} (h : manned ph) :
    (do
      op .setReady
      op .waitLost : Routine EventBits).Follows next (fun _ => lost) ph
  stop {ph : Phase} (h : lost ph) :
    (do
      stopIoTasks
      op .clearReady : Routine Unit).Follows next (fun _ => closed) ph
  look {ph : Phase} (h : closed ph) :
    (op .eventBits).Follows next
      (fun (bits : EventBits) ph => if bits.stop then ending ph else reopening ph) ph
  reopen {ph : Phase} (h : reopening ph) :
    (do
      let _timeout ← transportApply .timeout
      let _flushed ← op .uartFlushInput
      releaseExpansionPins
      op (.delay (bridgeExpansionRetryBaseMs * (0 + 1)))
      return .inl (0 + 1) : Routine (ℕ ⊕ Unit)).Follows next (Sum.elim waiting fun _ => ending) ph

namespace SupervisorWalk
variable {next : Phase → (o : Op) → o.Res → Option Phase} {establish : Routine EspErr}
  (walk : SupervisorWalk next establish)
include walk

/-- From the acceptance of a rate to the loss of the link. -/
theorem link {α : Type} {Q : α → Phase → Prop} {ph : Phase} (h : walk.linked ph)
    {k : Routine α} (hk : ∀ ph, walk.lost ph → k.Follows next Q ph) :
    (do
      op .streamReset
      let rx : Bool ← op (.taskCreate .rx)
      let created : Bool ← (if rx then op (.taskCreate .heartbeat) else pure false)
      (if created then pure () else signalLinkLost .taskAllocation)
      op .setReady
      let _wake ← op .waitLost
      k).Follows next Q ph := by
  rw [← bind_assoc]
  refine (walk.receive h).bind fun rx ph h => ?_
  have hcreated : (if rx then op (.taskCreate .heartbeat) else pure false).Follows next
      (fun created ph => if created then walk.manned ph else walk.unmanned ph) ph := by
    cases rx with
    | true => exact walk.beat h
    | false => exact follows_pure h
  refine hcreated.bind fun created ph h => ?_
  have hmanned : (if created then pure () else signalLinkLost .taskAllocation).Follows next
      (fun _ => walk.manned) ph := by
    cases created with
    | true => exact follows_pure h
    | false => exact walk.alarm h
  refine hmanned.bind fun _ ph h => ?_
  rw [← bind_assoc]
  exact (walk.watch h).bind fun _ => hk

/-- From the head of the loop to the next attempt. -/
theorem wait {attempts : ℕ} {ph : Phase} (h : walk.waiting attempts ph) :
    (if bridgeExpansionMaxRetries ≤ attempts then do
        releaseExpansionPins
        let wake : EventBits ← op .waitRetry
        pure (if wake.stop then none else some 0)
      else pure (some attempts) : Routine (Option ℕ)).Follows next
      (fun waited ph => match waited with
        | none => walk.ending ph
        | some attempts => walk.trying attempts ph) ph := by
  split
  · next hlimit =>
    rw [← bind_assoc]
    refine (walk.retry h hlimit).bind fun wake ph h => follows_pure ?_
    cases hstop : wake.stop with
    | true => simpa [hstop] using h
    | false => simpa [hstop] using h
  · next hlimit => exact follows_pure (walk.early h (Nat.lt_of_not_le hlimit))

theorem follows {Q : Unit → Phase → Prop} {ph : Phase}
    (hstart : (do
      op .clearReconnect
      op (.delay bridgeExpansionStartupDelayMs) : Routine Unit).Follows next
      (fun _ => walk.waiting 0) ph)
    (hfinish : ∀ ph, walk.ending ph → (do
      op .clearSupervisorHandle
      op .taskDeleteSelf : Routine Unit).Follows next Q ph) :
    (expansionSupervisorTask establish).Follows next Q ph := by
  unfold expansionSupervisorTask
  rw [← bind_assoc]
  refine hstart.bind fun _ ph h => ?_
  refine .bind (S := fun _ => walk.ending) ?_ fun _ => hfinish
  refine .loop walk.waiting h ?_
  intro attempts ph h
  refine (walk.running h).bind fun running ph h => ?_
  cases running with
  | false => exact follows_pure h
  | true =>
  refine (walk.wait h).bind fun waited ph h => ?_
  cases waited with
  | none => exact follows_pure h
  | some attempts =>
  dsimp only
  rw [← bind_assoc]
  refine (walk.attempt h).bind fun error ph h => ?_
  by_cases herror : error = .ok
  · rw [if_neg (not_not.mpr herror)]
    rw [if_pos herror] at h
    refine walk.link h fun ph h => ?_
    rw [← bind_assoc]
    refine (walk.stop h).bind fun _ ph h => ?_
    refine (walk.look h).bind fun bits ph h => ?_
    cases hbits : bits.stop with
    | true =>
      rw [hbits] at h
      exact follows_pure h
    | false =>
      rw [hbits] at h
      exact walk.reopen h
  · rw [if_pos herror]
    rw [if_neg herror] at h
    exact walk.retreat h

end SupervisorWalk

variable {next : Phase → (o : Op) → o.Res → Option Phase} {ph : Phase}

theorem follows_either {α : Type} {p : Routine α} {c : α → Prop} [DecidablePred c]
    (h : p.Keeps next ph) :
    p.Follows next (fun a ph' => if c a then ph' = ph else ph' = ph) ph := by
  refine h.mono fun a ph' hph => ?_
  rwa [ite_self]

/-- The supervisor's way within one phase. -/
def Passes.supervisorWalk (h : Passes next ph linking) :
    SupervisorWalk next (FlipforgeBridge.traced .establish establishExpansion) where
  waiting _ ph' := ph' = ph
  trying _ ph' := ph' = ph
  failed _ ph' := ph' = ph
  linked ph' := ph' = ph
  receiving ph' := ph' = ph
  unmanned ph' := ph' = ph
  manned ph' := ph' = ph
  lost ph' := ph' = ph
  closed ph' := ph' = ph
  reopening ph' := ph' = ph
  ending ph' := ph' = ph
  running := by
    rintro _ _ rfl
    exact follows_either (h.last rfl)
  retry := by
    rintro _ _ rfl -
    exact follows_either (h.pins.bind fun _ => h.last rfl)
  early hph _ := hph
  attempt := by
    rintro _ _ rfl
    exact follows_either (h.step rfl fun _ => h.calls_of_links.traced h.establish)
  retreat := by
    rintro _ _ rfl
    refine .bind h.pins ?_
    rintro _ _ rfl
    exact follows_stay (h.free _ rfl) fun _ => follows_stay (h.free _ rfl) fun _ => follows_pure rfl
  receive := by
    rintro _ rfl
    exact follows_either (h.step rfl fun _ => h.last rfl)
  beat := by
    rintro _ rfl
    exact follows_either (h.last rfl)
  alarm := by
    rintro _ rfl
    exact h.calls_of_links.lose
  watch := by
    rintro _ rfl
    exact h.step rfl fun _ => h.last rfl
  stop := by
    rintro _ rfl
    exact h.stop.bind fun _ => h.last rfl
  look := by
    rintro _ rfl
    exact follows_either (h.last rfl)
  reopen := by
    rintro _ rfl
    refine follows_stay (h.free _ rfl) fun _ => follows_stay (h.free _ rfl) fun _ => ?_
    refine .bind h.pins ?_
    rintro _ _ rfl
    exact follows_stay (h.free _ rfl) fun _ => follows_pure rfl

theorem Passes.supervisor (h : Passes next ph linking) :
    (expansionSupervisorTask (FlipforgeBridge.traced .establish establishExpansion)).Keeps
      next ph := by
  apply h.supervisorWalk.follows
  · exact h.step rfl fun _ => h.last rfl
  · intro ph' hph
    obtain rfl : ph' = ph := hph
    exact h.step rfl fun _ => h.last rfl

end Walk
end FlipforgeBridge
