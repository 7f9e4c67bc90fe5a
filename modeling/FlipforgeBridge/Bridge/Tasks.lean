import FlipforgeBridge.Bridge.Roles
import FlipforgeBridge.Connection.Traversal

/-! The supervisor, the receiving task, the heartbeat task, the proxy writer and the accept loop
follow their roles. -/
namespace FlipforgeBridge
open Process

namespace Bridge

section Frames
variable {Phase : Type} {next : Phase → (o : Op) → o.Res → Option Phase} {ph : Phase}

/-- Quiet operations leave the phase alone. -/
def Idles (next : Phase → (o : Op) → o.Res → Option Phase) (ph : Phase) : Prop :=
  ∀ o r, quiet o = true → next ph o r = some ph

theorem Idles.stay {α : Type} {o : Op} {k : o.Res → Routine α} {Q : α → Phase → Prop}
    (h : Idles next ph) (ho : quiet o = true) (hk : ∀ r, (k r).Follows next Q ph) :
    (op o >>= k).Follows next Q ph :=
  follows_stay (fun r => h o r ho) hk

theorem Idles.last {o : Op} {Q : o.Res → Phase → Prop} (h : Idles next ph)
    (ho : quiet o = true) (hQ : ∀ r, Q r ph) : (op o).Follows next Q ph :=
  follows_last fun r => ⟨ph, h o r ho, hQ r⟩

/-- Code that is quiet throughout. -/
theorem Idles.only {α : Type} {p : Routine α} (h : Idles next ph) (hp : p.Only (quiet · = true)) :
    p.Follows next (fun _ ph' => ph' = ph) ph :=
  (hp.mono fun o ho r => h o r ho).follows

/-- A frame is written at most once, and entirely if `send_frame` succeeds. -/
theorem sendFrame_follows {frame : ExpansionFrame} {Q : EspErr → Phase → Prop}
    (hidle : Idles next ph) (hunsent : ∀ error, error ≠ .ok → Q error ph)
    (hwrite : ∀ encoded, expansionProtocolEncode frame expansionFrameSize = some encoded →
      ∀ written : ℤ, ∃ ph', next ph (.uartWriteBytes encoded) written = some ph' ∧
        Idles next ph' ∧ ∀ error, (error = .ok → written = encoded.length) → Q error ph') :
    (sendFrame frame).Follows next Q ph := by
  unfold sendFrame
  split
  · exact follows_pure (hunsent _ nofun)
  · next encoded hencode =>
    refine hidle.stay rfl fun taken => ?_
    split
    · exact follows_pure (hunsent _ nofun)
    refine follows_op fun written => ?_
    obtain ⟨ph', hnext, hidle', hQ⟩ := hwrite encoded hencode written
    refine ⟨ph', hnext, ?_⟩
    refine .bind (S := fun error ph => ph = ph' ∧ (error = .ok → written = encoded.length)) ?_ ?_
    · split
      · next hfull => exact hidle'.last rfl fun _ => ⟨rfl, fun _ => hfull⟩
      · exact follows_pure ⟨rfl, nofun⟩
    rintro error ph₁ ⟨rfl, hfull⟩
    refine .bind (S := fun _ ph => ph = ph₁) ?_ ?_
    · split
      · exact hidle'.last rfl fun _ => rfl
      · exact follows_pure rfl
    rintro _ _ rfl
    exact hidle'.stay rfl fun _ => follows_pure (hQ error hfull)

end Frames

/-! ### The supervisor -/

theorem supervisor_idles (ph : SupervisorPhase) : Idles supervisorNext ph := by
  intro o r ho
  unfold supervisorNext
  split
  all_goals first
    | exact absurd ho Bool.false_ne_true
    | exact if_pos ho

theorem rx_idles {ph : RxPhase} (h : ph ≠ .ended) : Idles rxNext ph := by
  intro o r ho
  unfold rxNext
  split
  all_goals first
    | exact absurd rfl h
    | exact absurd ho Bool.false_ne_true
    | exact if_pos ho

theorem heartbeat_idles (ph : Unit) : Idles heartbeatNext ph := by
  intro o r ho
  unfold heartbeatNext
  split
  all_goals first
    | exact absurd ho Bool.false_ne_true
    | exact if_pos ho

theorem writer_idles (socket : ℕ) (rest : List UInt8) :
    Idles (writerNext socket) (.running rest) := by
  intro o r ho
  unfold writerNext
  split
  all_goals first
    | contradiction
    | exact absurd ho Bool.false_ne_true
    | exact if_pos ho

theorem client_idles (socket : ℕ) {ph : ClientPhase} (h : ph.session ≠ .released) :
    Idles (clientNext socket) ph := by
  intro o r ho
  unfold clientNext
  split
  all_goals first
    | exact absurd rfl h
    | exact absurd ho Bool.false_ne_true
    | exact if_pos ⟨ho, h⟩

theorem server_idles (ph : ServerPhase) : Idles serverNext ph := by
  intro o r ho
  unfold serverNext
  split
  all_goals first
    | exact absurd ho Bool.false_ne_true
    | exact if_pos ho

theorem pulseFlipperRx_only : pulseFlipperRx.Only (quiet · = true) := by
  refine only_op rfl fun error => ?_
  split
  · exact only_pure
  refine only_op rfl fun error => ?_
  split
  · exact only_pure
  refine only_op rfl fun error => ?_
  split
  · exact only_pure
  refine only_op rfl fun error => ?_
  split
  · exact only_pure
  exact only_op rfl fun _ => (Prog.only_perform _).mpr rfl

/-- An attempt that has not been accepted. -/
def Trying (ph : SupervisorPhase) : Prop := ∃ request, ph = .trying request

theorem uartConfigure_follows {request : List UInt8} {baud : UInt32} :
    (uartConfigure baud).Follows supervisorNext (fun _ ph => ph = .trying request)
      (.trying request) := by
  have hidle := supervisor_idles (.trying request)
  refine follows_op fun error => ⟨_, rfl, ?_⟩
  refine .bind (S := fun _ ph => ph = .trying request) ?_ ?_
  · split
    · exact hidle.last rfl fun _ => rfl
    · exact follows_pure rfl
  rintro error _ rfl
  split
  · exact hidle.last rfl fun _ => rfl
  · exact follows_pure rfl

/-- A frame of the attempt; what was written last is that frame if it went out. -/
theorem sendFrame_trying {frame : ExpansionFrame} {request : List UInt8} :
    (sendFrame frame).Follows supervisorNext (fun error ph => ∃ request', ph = .trying request' ∧
      (error = .ok → expansionProtocolEncode frame expansionFrameSize = some request'))
      (.trying request) := by
  refine sendFrame_follows (supervisor_idles _) ?_ ?_
  · intro error herror
    exact ⟨request, rfl, fun h => absurd h herror⟩
  · intro encoded hencode written
    exact ⟨.trying encoded, rfl, supervisor_idles _,
      fun error _ => ⟨encoded, rfl, fun _ => hencode⟩⟩

/-- Nothing is written while waiting for a frame that arrives intact. -/
theorem receiveFrameSync_follows {timeoutMs : ℕ} {request : List UInt8} :
    (receiveFrameSync timeoutMs).Follows supervisorNext (fun response ph => Trying ph ∧
      ((∃ frame, response = .ok frame) → ph = .trying request)) (.trying request) := by
  have hidle := supervisor_idles (.trying request)
  refine hidle.stay rfl fun now => ?_
  refine .loop (fun _ ph => ph = .trying request) rfl ?_
  rintro decoder _ rfl
  refine hidle.stay rfl fun now => ?_
  split
  · exact follows_pure ⟨⟨request, rfl⟩, fun _ => rfl⟩
  refine follows_op fun read => ⟨.trying request, rfl, ?_⟩
  split
  · exact follows_pure ⟨⟨request, rfl⟩, fun _ => rfl⟩
  · exact follows_pure rfl
  · next byte =>
    dsimp only
    split
    · exact hidle.stay rfl fun _ => follows_pure ⟨⟨request, rfl⟩, fun _ => rfl⟩
    · refine sendFrame_trying.bind ?_
      rintro error _ ⟨request', rfl, -⟩
      exact follows_pure ⟨⟨request', rfl⟩, nofun⟩
    · refine sendFrame_trying.bind ?_
      rintro error _ ⟨request', rfl, -⟩
      exact follows_pure ⟨⟨request', rfl⟩, nofun⟩
    · exact follows_pure rfl

/-- How an attempt ends. -/
def Established (error : EspErr) (ph : SupervisorPhase) : Prop :=
  if error = .ok then ∃ baud, ph = .stored baud else ph = .failed ∨ Trying ph

theorem switchBaud_follows {request : List UInt8} {baud : UInt32}
    (hbaud : baud ∈ bridgePreferredBaudRates)
    (hrequest : expansionProtocolEncode (.baudRate baud) expansionFrameSize = some request) :
    (switchBaud baud).Follows supervisorNext Established (.accepted request) := by
  refine (supervisor_idles _).stay rfl fun _ => ?_
  refine follows_op fun error => ⟨_, if_pos ⟨hbaud, hrequest⟩, ?_⟩
  by_cases herror : error = .ok
  · rw [if_neg (not_not.mpr herror), if_pos herror]
    refine follows_op fun _ => ⟨.stored baud, if_pos rfl, ?_⟩
    exact (supervisor_idles _).stay rfl fun _ => follows_pure ⟨baud, rfl⟩
  · rw [if_pos herror, if_neg herror]
    refine follows_pure ?_
    rw [Established, if_neg herror]
    exact .inl rfl

theorem negotiateBaud_follows {bauds : List UInt32}
    (hbauds : ∀ baud ∈ bauds, baud ∈ bridgePreferredBaudRates) {request : List UInt8} :
    (negotiateBaud bauds).Follows supervisorNext Established (.trying request) := by
  induction bauds generalizing request with
  | nil => exact follows_pure (.inr ⟨request, rfl⟩)
  | cons baud rest ih =>
    unfold negotiateBaud
    refine sendFrame_trying.bind ?_
    rintro error _ ⟨request', rfl, hrequest⟩
    by_cases herror : error = .ok
    · rw [if_neg (not_not.mpr herror)]
      refine receiveFrameSync_follows.bind ?_
      rintro response ph ⟨htrying, hsame⟩
      split
      · obtain rfl := hsame ⟨_, rfl⟩
        refine follows_op fun _ => ⟨.trying request', rfl, ?_⟩
        exact ih fun baud h => hbauds baud (.tail _ h)
      · obtain rfl := hsame ⟨_, rfl⟩
        refine follows_op fun (ok, _) =>
          ⟨if ok = true then .accepted request' else .trying request',
          rfl, ?_⟩
        cases ok
        · exact follows_pure (.inr ⟨request', rfl⟩)
        · exact switchBaud_follows (hbauds baud (.head _)) (hrequest herror)
      · exact follows_pure (.inr htrying)
    · rw [if_pos herror]
      refine follows_pure ?_
      rw [Established, if_neg herror]
      exact .inr ⟨request', rfl⟩

theorem established_of_trying {error : EspErr} {ph : SupervisorPhase} (herror : error ≠ .ok)
    (h : Trying ph) : Established error ph := by
  rw [Established, if_neg herror]
  exact .inr h

theorem establishExpansion_follows :
    establishExpansion.Follows supervisorNext Established (.trying []) := by
  have hidle := supervisor_idles (.trying [])
  refine follows_op fun _ => ⟨.trying [], rfl, ?_⟩
  refine follows_op fun (ok, action) => ⟨.trying [], rfl, ?_⟩
  dsimp only
  split
  · exact follows_pure (.inr ⟨[], rfl⟩)
  refine uartConfigure_follows.bind ?_
  rintro error _ rfl
  split
  · next herror => exact follows_pure (established_of_trying herror ⟨[], rfl⟩)
  refine (hidle.only pulseFlipperRx_only).bind ?_
  rintro error _ rfl
  split
  · next herror => exact follows_pure (established_of_trying herror ⟨[], rfl⟩)
  refine hidle.stay rfl fun error => ?_
  split
  · next herror => exact follows_pure (established_of_trying herror ⟨[], rfl⟩)
  refine receiveFrameSync_follows.bind ?_
  rintro response ph ⟨htrying, hsame⟩
  split
  · obtain rfl := hsame ⟨_, rfl⟩
    refine follows_op fun (ok, _) => ⟨.trying [], rfl, ?_⟩
    dsimp only
    split
    · exact follows_pure (.inr ⟨[], rfl⟩)
    · exact negotiateBaud_follows fun _ h => h
  · exact follows_pure (.inr htrying)

theorem traced_establish_follows :
    (traced .establish establishExpansion).Follows supervisorNext Established (.trying []) := by
  refine follows_op fun _ => ⟨.trying [], rfl, ?_⟩
  refine establishExpansion_follows.bind fun error ph h => ?_
  refine follows_op fun _ => ⟨ph, ?_, follows_pure h⟩
  have hreturns : ph.returns error = true := by
    by_cases herror : error = .ok
    · rw [Established, if_pos herror] at h
      obtain ⟨baud, rfl⟩ := h
      exact decide_eq_true herror
    · rw [Established, if_neg herror] at h
      obtain rfl | ⟨request, rfl⟩ := h <;> exact decide_eq_true herror
  cases ph <;> exact if_pos hreturns

/-- The receiving task is gone, or was and the handle is still to be looked at. -/
def Closing (ph : SupervisorPhase) : Prop :=
  (∃ baud seen, ph = .closing baud seen) ∨ ∃ baud, ph = .closed baud

/-- The handle is `NULL` only once the receiving task is gone. -/
theorem taskHandle_closing {ph : SupervisorPhase} (h : Closing ph) (handle : Option ℕ) :
    ∃ ph', supervisorNext ph (.taskHandle .rx) handle = some ph' ∧
      ((∃ baud, ph' = .closed baud) ∨ ∃ baud, ph' = .closing baud handle ∧ handle ≠ none) := by
  obtain ⟨baud, seen, rfl⟩ | ⟨baud, rfl⟩ := h
  · cases handle with
    | none => exact ⟨.closed baud, rfl, .inl ⟨baud, rfl⟩⟩
    | some id => exact ⟨.closing baud (some id), rfl, .inr ⟨baud, rfl, nofun⟩⟩
  · exact ⟨.closed baud, rfl, .inl ⟨baud, rfl⟩⟩

theorem deleteIoTask_rx_follows {ph : SupervisorPhase} (h : Closing ph) :
    (deleteIoTask .rx).Follows supervisorNext (fun _ ph => ∃ baud, ph = .closed baud) ph := by
  refine follows_op fun handle => ?_
  obtain ⟨ph', hnext, hph'⟩ := taskHandle_closing h handle
  refine ⟨ph', hnext, ?_⟩
  split
  · have hclosing : Closing ph' := by
      obtain ⟨baud, rfl⟩ | ⟨baud, rfl, -⟩ := hph'
      · exact .inr ⟨baud, rfl⟩
      · exact .inl ⟨baud, _, rfl⟩
    refine follows_op fun handle' => ?_
    obtain ⟨ph'', hnext', hph''⟩ := taskHandle_closing hclosing handle'
    refine ⟨ph'', hnext', ?_⟩
    have hdelete :
        ∃ baud, supervisorNext ph'' (.taskDelete .rx handle') () = some (.closed baud) := by
      obtain ⟨baud, rfl⟩ | ⟨baud, rfl, hsome⟩ := hph''
      · exact ⟨baud, rfl⟩
      · exact ⟨baud, if_pos ⟨rfl, hsome⟩⟩
    obtain ⟨baud, hdelete⟩ := hdelete
    refine follows_op fun _ => ⟨.closed baud, hdelete, ?_⟩
    exact follows_last fun _ => ⟨.closed baud, rfl, baud, rfl⟩
  · next hnone =>
    refine follows_pure ?_
    obtain hclosed | ⟨baud, -, hsome⟩ := hph'
    · exact hclosed
    · exact absurd (Option.isSome_iff_ne_none.mpr hsome) hnone

theorem deleteIoTask_heartbeat_only (baud : UInt32) : (deleteIoTask .heartbeat).Only fun o =>
    ∀ r, supervisorNext (.closed baud) o r = some (.closed baud) := by
  apply only_op (fun _ => rfl)
  intro handle
  split
  · apply only_op (fun _ => rfl)
    intro handle
    apply only_op (fun _ => rfl)
    intro _
    exact (Prog.only_perform _).mpr fun _ => rfl
  · exact only_pure

theorem stopIoTasks_follows {ph : SupervisorPhase} (h : Closing ph) :
    stopIoTasks.Follows supervisorNext (fun _ ph => ∃ baud, ph = .closed baud) ph := by
  refine .bind (S := fun _ ph => Closing ph) ?_ ?_
  · refine .loop (fun _ ph => Closing ph) h fun wait ph hph => ?_
    split
    · exact follows_pure hph
    refine follows_op fun rx => ?_
    obtain ⟨ph', hnext, hph'⟩ := taskHandle_closing hph rx
    have hclosing : Closing ph' := by
      obtain ⟨baud, rfl⟩ | ⟨baud, rfl, -⟩ := hph'
      · exact .inr ⟨baud, rfl⟩
      · exact .inl ⟨baud, _, rfl⟩
    refine ⟨ph', hnext, .bind (S := fun _ ph => ph = ph') ?_ ?_⟩
    · split
      · exact follows_pure rfl
      · exact (supervisor_idles ph').stay rfl fun _ => follows_pure rfl
    rintro busy ph₁ rfl
    split
    · exact follows_pure hclosing
    · exact (supervisor_idles ph₁).stay rfl fun _ => follows_pure hclosing
  intro _ ph hph
  refine (deleteIoTask_rx_follows hph).bind ?_
  rintro _ _ ⟨baud, rfl⟩
  refine (deleteIoTask_heartbeat_only baud).follows.mono ?_
  rintro _ _ rfl
  exact ⟨baud, rfl⟩

/-- Where the supervisor is at the points of its loop. -/
def supervisorWalk : SupervisorWalk supervisorNext (traced .establish establishExpansion) where
  waiting _ ph := ph = .down
  trying _ ph := ph = .down
  failed _ ph := ph = .failed ∨ Trying ph
  linked ph := ∃ baud, ph = .stored baud
  receiving ph := ∃ baud, ph = .linked baud
  unmanned ph := ∃ baud, ph = .linked baud ∨ ph = .unmanned baud
  manned ph := ∃ baud, ph = .linked baud
  lost := Closing
  closed ph := ∃ baud, ph = .closed baud
  reopening ph := ∃ baud, ph = .closed baud
  ending _ := True
  running := by
    rintro _ _ rfl
    exact (supervisor_idles _).last rfl fun running => by cases running <;> trivial
  retry := by
    rintro _ _ rfl -
    refine ((supervisor_idles _).only (releaseExpansionPins_only rfl rfl)).bind ?_
    rintro _ _ rfl
    refine (supervisor_idles _).last rfl fun wake => ?_
    split
    · trivial
    · rfl
  early h _ := h
  attempt := by
    rintro _ _ rfl
    exact follows_op fun _ => ⟨.trying [], rfl, traced_establish_follows⟩
  retreat := by
    intro _ ph h
    refine ((supervisor_idles ph).only (releaseExpansionPins_only rfl rfl)).bind ?_
    rintro _ _ rfl
    refine follows_op fun _ => ⟨.down, ?_, ?_⟩
    · obtain rfl | ⟨request, rfl⟩ := h <;> rfl
    · exact (supervisor_idles _).stay rfl fun _ => follows_pure rfl
  receive := by
    rintro _ ⟨baud, rfl⟩
    refine follows_op fun _ => ⟨.cleared baud, rfl, follows_last fun rx => ?_⟩
    cases rx with
    | true => exact ⟨.linked baud, rfl, baud, rfl⟩
    | false => exact ⟨.unmanned baud, rfl, baud, .inr rfl⟩
  beat := by
    rintro _ ⟨baud, rfl⟩
    refine (supervisor_idles _).last rfl fun created => ?_
    cases created with
    | true => exact ⟨baud, rfl⟩
    | false => exact ⟨baud, .inl rfl⟩
  alarm := by
    rintro ph ⟨baud, hph⟩
    refine follows_op fun _ => ⟨ph, ?_, follows_last fun _ => ⟨.linked baud, ?_, baud, rfl⟩⟩
    · obtain rfl | rfl := hph <;> rfl
    · obtain rfl | rfl := hph <;> rfl
  watch := by
    rintro _ ⟨baud, rfl⟩
    refine (supervisor_idles _).stay rfl fun _ => ?_
    exact follows_last fun _ => ⟨.closing baud none, rfl, .inl ⟨baud, none, rfl⟩⟩
  stop := by
    intro _ h
    refine (stopIoTasks_follows h).bind ?_
    rintro _ _ ⟨baud, rfl⟩
    exact (supervisor_idles _).last rfl fun _ => ⟨baud, rfl⟩
  look := by
    rintro _ ⟨baud, rfl⟩
    refine follows_last fun bits => ⟨.closed baud, rfl, ?_⟩
    split
    · trivial
    · exact ⟨baud, rfl⟩
  reopen := by
    rintro _ ⟨baud, rfl⟩
    refine follows_op fun _ => ⟨.down, rfl, (supervisor_idles _).stay rfl fun _ => ?_⟩
    refine ((supervisor_idles _).only (releaseExpansionPins_only rfl rfl)).bind ?_
    rintro _ _ rfl
    exact (supervisor_idles _).stay rfl fun _ => follows_pure rfl

theorem supervisor_follows :
    (expansionSupervisorTask (traced .establish establishExpansion)).Follows supervisorNext
      (fun _ _ => True) .down := by
  apply supervisorWalk.follows
  · exact (supervisor_idles _).stay rfl fun _ => (supervisor_idles _).last rfl fun _ => rfl
  · intro ph _
    refine (supervisor_idles ph).stay rfl fun _ => ?_
    exact follows_last fun _ => ⟨ph, by cases ph <;> rfl, trivial⟩

/-! ### The receiving and the heartbeat task -/

theorem signalLinkLost_rx {reason : LossReason} {ph : RxPhase} (h : ph ≠ .ended) :
    (signalLinkLost reason).Follows rxNext (fun _ ph => ph = .leaving) ph := by
  have hbits : ∀ seen, ∃ ph', rxNext ph .eventBits seen = some ph' ∧ ph' ≠ .ended := by
    intro seen
    cases ph with
    | ended => exact absurd rfl h
    | reading =>
      refine ⟨_, rfl, ?_⟩
      split <;> exact nofun
    | _ => exact ⟨_, rfl, nofun⟩
  refine follows_op fun seen => ?_
  obtain ⟨ph', hnext, hne⟩ := hbits seen
  refine ⟨ph', hnext, follows_last fun _ => ⟨.leaving, ?_, rfl⟩⟩
  cases ph' <;> first | rfl | exact absurd rfl hne

/-- The loss is signalled and the task told to leave. -/
theorem giveUp_rx {reason : LossReason} {ph : RxPhase} (h : ph ≠ .ended) :
    (do signalLinkLost reason; return false : Routine Bool).Follows rxNext
      (fun goOn ph => ph = if goOn then .reading else .leaving) ph := by
  refine (signalLinkLost_rx h).bind ?_
  rintro _ _ rfl
  exact follows_pure rfl

theorem sendStatus_none_follows :
    (sendStatus .none).Follows rxNext (fun error ph => ph ≠ .ended ∧ (error = .ok → ph = .reading))
      .stored := by
  refine sendFrame_follows (rx_idles nofun) ?_ ?_
  · intro error herror
    exact ⟨nofun, fun h => absurd h herror⟩
  · intro encoded hencode written
    obtain rfl : ackBytes = encoded := by
      rw [← Option.some_inj, ← hencode]
      rfl
    refine ⟨if written = ackBytes.length then .reading else .refused, rfl, ?_, ?_⟩
    · split <;> exact rx_idles nofun
    · intro error hfull
      split
      · exact ⟨nofun, fun _ => rfl⟩
      · next hshort => exact ⟨nofun, fun h => absurd (hfull h) hshort⟩

theorem sendStatus_unknown_follows :
    (sendStatus .unknown).Follows rxNext (fun _ ph => ph = .refused) .refused := by
  refine sendFrame_follows (rx_idles nofun) (fun _ _ => rfl) ?_
  intro encoded hencode written
  refine ⟨.refused, if_neg ?_, rx_idles nofun, fun _ _ => rfl⟩
  rintro rfl
  exact absurd hencode (by decide)

theorem reading_idles : Idles rxNext .reading := rx_idles nofun

theorem handleRxFrame_follows {frame : ExpansionFrame} :
    (handleRxFrame frame).Follows rxNext
      (fun goOn ph => ph = if goOn then .reading else .leaving) .reading := by
  cases frame with
  | heartbeat =>
    refine follows_op fun _ => ⟨.reading, rfl, ?_⟩
    exact reading_idles.stay rfl fun _ => follows_pure rfl
  | status status =>
    refine follows_op fun _ => ⟨.reading, rfl, ?_⟩
    refine reading_idles.stay rfl fun _ => ?_
    refine follows_op fun expected => ⟨.reading, rfl, ?_⟩
    split
    · exact reading_idles.stay rfl fun _ => follows_pure rfl
    · exact giveUp_rx nofun
  | baudRate baud =>
    refine follows_op fun _ => ⟨.reading, rfl, ?_⟩
    exact reading_idles.stay rfl fun _ => giveUp_rx nofun
  | control command =>
    refine follows_op fun _ => ⟨.reading, rfl, ?_⟩
    exact reading_idles.stay rfl fun _ => giveUp_rx nofun
  | data bytes =>
    have hidle : Idles rxNext (.data bytes) := rx_idles nofun
    refine follows_op fun _ => ⟨.data bytes, rfl, ?_⟩
    refine hidle.stay rfl fun _ => ?_
    refine follows_op fun state => ⟨_, rfl, ?_⟩
    by_cases hstate : state = .rpcReady
    · rw [if_neg (not_not.mpr hstate), if_pos hstate]
      refine follows_op fun used => ⟨_, rfl, ?_⟩
      cases hfits : bridgeIoBufferCanAccept used bytes.length bridgeRpcRxBufferBytes with
      | false =>
        refine sendStatus_unknown_follows.bind ?_
        rintro _ _ rfl
        exact giveUp_rx nofun
      | true =>
        refine follows_op fun sent => ⟨_, if_pos rfl, ?_⟩
        by_cases hsent : sent = bytes.length
        · rw [if_neg (not_not.mpr hsent), if_pos hsent]
          refine sendStatus_none_follows.bind fun error ph h => ?_
          split
          · exact giveUp_rx h.1
          · next herror => exact follows_pure (h.2 (not_not.mp herror))
        · rw [if_pos hsent, if_neg hsent]
          exact giveUp_rx nofun
    · rw [if_pos hstate, if_neg hstate]
      exact giveUp_rx nofun

theorem rx_follows : expansionRxTask.Follows rxNext (fun _ _ => True) .reading := by
  have hlost : ∀ reason, (signalLinkLost reason).Follows rxNext (fun _ ph => ph = .leaving)
      .reading := fun _ => signalLinkLost_rx nofun
  refine .bind (S := fun _ ph => ph = .leaving) ?_ ?_
  · refine .loop (fun _ ph => ph = .reading) rfl ?_
    rintro decoder _ rfl
    refine follows_op fun bits => ⟨_, rfl, ?_⟩
    split
    · exact follows_pure rfl
    refine follows_op fun read => ⟨.reading, rfl, ?_⟩
    split
    · refine (hlost _).bind ?_
      rintro _ _ rfl
      exact follows_pure rfl
    · exact follows_pure rfl
    · dsimp only
      split
      · exact follows_pure rfl
      · refine (hlost _).bind ?_
        rintro _ _ rfl
        exact follows_pure rfl
      · refine (hlost _).bind ?_
        rintro _ _ rfl
        exact follows_pure rfl
      · refine handleRxFrame_follows.bind ?_
        rintro goOn _ rfl
        cases goOn <;> exact follows_pure rfl
  rintro _ _ rfl
  refine follows_op fun _ => ⟨.ended, rfl, ?_⟩
  exact follows_last fun _ => ⟨.ended, rfl, trivial⟩

theorem heartbeat_follows : expansionHeartbeatTask.Follows heartbeatNext (fun _ _ => True) () := by
  have hidle := heartbeat_idles ()
  have hlost : ∀ reason, (signalLinkLost reason).Follows heartbeatNext (fun _ _ => True) () := by
    intro reason
    refine follows_op fun _ => ⟨(), rfl, ?_⟩
    exact follows_last fun _ => ⟨(), rfl, trivial⟩
  refine .bind (S := fun _ _ => True) ?_ ?_
  · refine .loop (fun _ _ => True) trivial fun _ ph _ => ?_
    refine follows_op fun bits => ⟨(), rfl, ?_⟩
    split
    · exact follows_pure trivial
    refine hidle.stay rfl fun now => hidle.stay rfl fun (lastRxUs, lastTxUs, requestPending) => ?_
    dsimp only
    split
    · exact (hlost _).bind fun _ _ _ => follows_pure trivial
    split
    · split
      · exact hidle.stay rfl fun _ => follows_pure trivial
      · refine .bind (S := fun _ _ => True) ?_ ?_
        · refine sendFrame_follows hidle (fun _ _ => trivial) ?_
          exact fun encoded _ written => ⟨(), rfl, hidle, fun _ _ => trivial⟩
        intro error _ _
        split
        · exact (hlost _).bind fun _ _ _ => follows_pure trivial
        · exact hidle.stay rfl fun _ => follows_pure trivial
    · exact hidle.stay rfl fun _ => follows_pure trivial
  intro _ ph _
  refine hidle.stay rfl fun _ => ?_
  exact follows_last fun _ => ⟨(), rfl, trivial⟩

/-! ### The proxy writer -/

/-- A role that keeps the bytes still to be sent sees `send_all` succeed only with none left. -/
theorem sendAll_drains {Phase : Type} {next : Phase → (o : Op) → o.Res → Option Phase}
    {socket : ℕ} (pending : List UInt8 → Phase)
    (hsend : ∀ (rest : List UInt8) (result : SendResult),
      next (pending rest) (.send socket rest) result =
        some (pending (rest.drop result.sent.toNat))) (bytes : List UInt8) :
    (sendAll socket bytes).Follows next
      (fun error ph => ∃ rest, ph = pending rest ∧ (error = .ok → rest = [])) (pending bytes) := by
  refine .bind (S := fun written ph => ∃ rest, ph = pending rest ∧ (written = true → rest = []))
    ?_ ?_
  · refine .loop (fun offset ph => ph = pending (bytes.drop offset)) rfl ?_
    rintro offset _ rfl
    split
    · next hend =>
      refine follows_pure ⟨_, rfl, fun _ => ?_⟩
      exact List.drop_of_length_le (Nat.not_lt.mp hend)
    refine .bind (S := fun result ph =>
      ph = pending ((bytes.drop offset).drop result.1.toNat)) ?_ ?_
    · exact follows_op fun result => ⟨_, hsend _ _, follows_pure rfl⟩
    rintro ⟨written, retryable⟩ _ rfl
    dsimp only
    split
    · exact follows_pure (by simp [List.drop_drop])
    · split
      · next hneg =>
        refine follows_pure ?_
        have hneg : written ≤ 0 := Int.le_of_lt hneg.1
        change _ = pending (bytes.drop offset)
        rw [Int.toNat_of_nonpos hneg]
        rfl
      · exact follows_pure ⟨_, rfl, nofun⟩
  rintro written _ ⟨rest, rfl, hrest⟩
  refine follows_pure ⟨rest, rfl, fun h => hrest ?_⟩
  cases written
  · cases h
  · rfl

theorem sendAll_writer {socket : ℕ} {bytes : List UInt8} :
    (sendAll socket bytes).Follows (writerNext socket)
      (fun error ph => ∃ rest, ph = .running rest ∧ (error = .ok → rest = []))
      (.running bytes) :=
  sendAll_drains WriterPhase.running (fun _ _ => if_pos ⟨rfl, rfl⟩) bytes

/-- The writer sends all of what it takes before it takes more. -/
def writerWalk {socket : ℕ} : WriterWalk (writerNext socket) expansionTransport socket where
  turning ph := ph = .running []
  reading ph := ph = .running []
  leaving ph := ∃ rest, ph = .running rest
  look := by
    rintro _ rfl
    refine (writer_idles socket []).last rfl fun bits => ?_
    split
    · exact ⟨[], rfl⟩
    · rfl
  pass := by
    rintro _ rfl
    refine follows_op fun bytes => ⟨.running bytes, rfl, ?_⟩
    split
    · refine follows_pure (sendAll_writer.mono ?_)
      rintro sent _ ⟨rest, rfl, hrest⟩
      split
      · next hsent => rw [hrest hsent]
      · exact ⟨rest, rfl⟩
    · next hempty =>
      rw [ne_eq, not_not] at hempty
      subst hempty
      refine follows_op fun state => ⟨.running [], rfl, follows_pure ?_⟩
      by_cases hready : state = .rpcReady
      · rw [if_pos hready]
        rfl
      · rw [if_neg hready]
        exact ⟨[], rfl⟩

theorem writer_follows {socket : ℕ} :
    (proxyWriterTask expansionTransport socket).Follows (writerNext socket) (fun _ _ => True)
      (.running []) := by
  apply writerWalk.follows rfl
  rintro _ ⟨rest, rfl⟩
  have hidle := writer_idles socket rest
  refine hidle.stay rfl fun bits => ?_
  refine .bind (S := fun _ ph => ph = WriterPhase.running rest) ?_ ?_
  · split
    · exact follows_pure rfl
    · exact hidle.last rfl fun _ => rfl
  rintro _ _ rfl
  refine follows_op fun _ => ⟨.done, if_pos rfl, ?_⟩
  exact follows_last fun _ => ⟨.done, rfl, trivial⟩

/-! ### The accept loop -/

theorem answering_server {socket : ℕ} {request : BridgeMessage} {status : BridgeStatus}
    {payload : List UInt8} :
    (sendResponse socket request status payload).Follows serverNext
      (fun _ ph => ph = .accepted socket) (.accepted socket) :=
  Prog.Only.follows (sendResponse_only (fun _ => rfl) fun _ _ => if_pos rfl)

/-- Between two connections. -/
def Between (ph : ServerPhase) : Prop := ph = .listening ∨ ∃ socket, ph = .accepted socket

theorem accept_server {ph : ServerPhase} (h : Between ph) (result : Except Errno ℕ) :
    serverNext ph .accept result = some (match result with
      | .ok socket => .accepted socket
      | .error _ => .listening) := by
  obtain rfl | ⟨socket, rfl⟩ := h <;> cases result <;> rfl

theorem rejectBusyClient_follows {socket : ℕ} :
    (rejectBusyClient socket).Follows serverNext (fun _ ph => ph = .accepted socket)
      (.accepted socket) := by
  have hidle := server_idles (.accepted socket)
  refine hidle.stay rfl fun _ => answering_server.bind ?_
  rintro _ _ rfl
  exact hidle.stay rfl fun _ => hidle.last rfl fun _ => rfl

def acceptWalk : AcceptWalk serverNext where
  listening := Between
  accepted socket ph := ph = .accepted socket
  holding socket ph := ph = .holding socket
  allocated socket ph := ph = .holding socket
  failed socket ph := ph = .holding socket
  accept {ph} h := by
    refine follows_last fun result => ⟨_, accept_server h result, ?_⟩
    cases result with
    | error errno =>
      dsimp only
      split
      · exact follows_pure (.inl rfl)
      · exact (server_idles _).last rfl fun _ => .inl rfl
    | ok socket => rfl
  claim := by
    rintro socket _ rfl
    refine follows_last fun claimed => ⟨_, rfl, ?_⟩
    cases claimed with
    | true => exact rfl
    | false => exact rejectBusyClient_follows.mono fun _ _ h => .inr ⟨socket, h⟩
  allocate := by
    rintro socket _ rfl
    refine (server_idles (.holding socket)).last rfl fun success => ?_
    split
    · rfl
    · rfl
  create := by
    rintro socket _ rfl
    refine follows_last fun created => ⟨_, if_pos rfl, ?_⟩
    cases created with
    | true => exact .inl rfl
    | false => exact rfl
  abandon := by
    rintro socket _ rfl
    refine (server_idles (.holding socket)).stay rfl fun _ => ?_
    exact follows_last fun _ => ⟨.listening, rfl, .inl rfl⟩

theorem server_follows : serverTask.Follows serverNext (fun _ _ => True) .listening := by
  refine acceptWalk.follows ((server_idles .listening).last rfl fun listening => ?_)
  split
  · exact .inl rfl
  · exact follows_last fun _ => ⟨.listening, rfl, trivial⟩

end Bridge
end FlipforgeBridge
