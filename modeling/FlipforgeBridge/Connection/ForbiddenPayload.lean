import FlipforgeBridge.Connection.Answer
import FlipforgeBridge.Process.Execution

/-!
Requests that must carry no payload and do. Three of the four commands refuse them and touch
nothing; `BeginRPCProxy` takes them for a link that is not ready, and asks for a reconnect.
-/
namespace FlipforgeBridge
open Process

namespace ForbiddenPayload

/-- The commands whose request payload is empty. -/
def commands : List BridgeCommand := [.getBridgeInfo, .getStatus, .beginRpcProxy, .endRpcProxy]

/-- Operations on the state, the drivers or the tasks of the transport, and entries into it. -/
def onTransport : Op → Bool
  | .locked _ | .eventBits | .setLost _ | .setReady | .setReconnect | .clearReconnect
  | .clearLostReady | .clearReady | .waitRetry | .waitLost | .takeTxMutex | .giveTxMutex
  | .takeRequestMutex | .giveRequestMutex | .pollStatus | .waitStatus | .giveStatus
  | .uartParamConfig _ | .uartSetPin | .uartFlushInput | .uartWriteBytes _ | .uartWaitTxDone
  | .uartReadByte | .uartSetBaudrate _ | .gpioResetTx | .gpioResetRx | .gpioSetTxDirection
  | .gpioSetTxLevel _ | .streamBytesAvailable | .streamSend _ | .streamReceive _ | .streamReset
  | .taskCreate _ | .taskDelete _ _ | .taskHandle _ | .clearTaskHandle _ | .running
  | .clearSupervisorHandle | .transport _ | .mark (.enter _) | .mark (.leave _ _)
  | .mark (.frame _) => true
  | _ => false

/-- The responses given, in order. -/
def responses (events : List (Event platform)) : List (BridgeMessage × BridgeStatus × List UInt8) :=
  events.filterMap fun e => match e.op with
    | .mark (.respond request status payload) => some (request, status, payload)
    | _ => none

/-- In every run the request is answered by `Malformed` and nothing else happens. -/
def Refused (context : ClientContext) (session : BridgeSession) (request : BridgeMessage) : Prop :=
  ∀ events result,
    (handleManagementMessage expansionTransport context session request).Yields events result →
    responses events = [(request, .malformed, [])] ∧ result.2 = (session, false) ∧
      ∀ e ∈ events, ¬ onTransport e.op

variable {context : ClientContext} {session : BridgeSession} {request : BridgeMessage}

def sending : Op → Bool
  | .send _ _ => true
  | _ => false

theorem responses_sends {events : List (Event platform)} (h : ∀ e ∈ events, sending e.op) :
    responses events = [] := by
  apply List.filterMap_eq_nil_iff.mpr
  rintro ⟨o, r⟩ he
  have hsend : sending o = true := h _ he
  cases o with
  | send => rfl
  | _ => cases hsend

theorem not_onTransport_of_sending {o : Op} (h : sending o = true) : ¬ onTransport o := by
  cases o with
  | send => exact Bool.false_ne_true
  | _ => cases h

/-- What is left of `send_response` after its mark only sends. -/
theorem encoded_only {socket : ℕ} {status : BridgeStatus} {payload : List UInt8} :
    (if bridgeManagementMaxPayload < payload.length then pure .invalidSize
      else match bridgeMessageEncode (responseTo request status payload)
        bridgeManagementFrameSize with
      | none => pure .invalidArg
      | some encoded => sendAll socket encoded : Routine EspErr).Only (sending · = true) := by
  split
  · exact only_pure
  · split
    · exact only_pure
    · exact sendAll_only (fun _ => rfl) _

/-- An answer is one response, whatever becomes of the bytes sent. -/
theorem answer_follows {socket : ℕ} {status : BridgeStatus} {payload : List UInt8}
    {past : List (Event platform)} :
    (answer socket session request status payload).Follows Prog.record
      (fun result events => ∃ sends,
        events = past ++ ⟨.mark (.respond request status payload), ()⟩ :: sends ∧
        (∀ e ∈ sends, sending e.op) ∧ result.2 = (session, false)) past := by
  apply Prog.Follows.bind (S := fun _ events => ∃ sends,
    events = past ++ ⟨.mark (.respond request status payload), ()⟩ :: sends ∧
      ∀ e ∈ sends, sending e.op)
  · apply follows_op
    intro r
    refine ⟨_, rfl, (encoded_only.follows_record _).mono ?_⟩
    rintro error all ⟨sends, rfl, hall⟩
    exact ⟨sends, by rw [List.append_assoc]; rfl, hall⟩
  · rintro error _ ⟨sends, rfl, hall⟩
    exact follows_pure ⟨sends, rfl, hall, rfl⟩

theorem refused_of_malformed
    (h : handleManagementMessage expansionTransport context session request =
      answer context.socket session request .malformed []) : Refused context session request := by
  intro events result hy
  rw [h] at hy
  obtain ⟨sends, rfl, hsends, hresult⟩ := answer_follows.of_yields hy
  rw [List.nil_append]
  have hresponses := responses_sends hsends
  refine ⟨congrArg (_ :: ·) hresponses, hresult, ?_⟩
  intro e he
  rcases List.mem_cons.mp he with rfl | he
  · exact Bool.false_ne_true
  · exact not_onTransport_of_sending (hsends e he)

section Request
variable (hs : session.state = .authenticated) (hflags : request.flags = 0)
  (hstatus : request.status = .ok) (hversion : request.version = flipforgeBridgeProtocolVersion)
  (hpayload : request.payload ≠ [])
include hs hflags hstatus hversion hpayload

/-- Which branch a command takes. -/
theorem handleManagementMessage_of_command {command : BridgeCommand}
    (hcommand : request.command = command.toByte) (hmem : command ∈ commands) :
    handleManagementMessage expansionTransport context session request =
      if command = .beginRpcProxy then do
        expansionTransport.requestReconnect
        answer context.socket session request .unavailable []
      else answer context.socket session request .malformed [] := by
  have hlength : request.payload.length ≠ 0 := fun h => hpayload (List.length_eq_zero_iff.mp h)
  have hgood : ¬ (request.flags ≠ 0 ∨ request.status ≠ .ok) := by simp [hflags, hstatus]
  have hsupported : ¬ (!bridgeProtocolVersionSupported request.version) = true := by
    simp [bridgeProtocolVersionSupported, hversion]
  unfold handleManagementMessage handleAuthenticatedCommand
  rw [if_neg hgood, if_neg hsupported, if_neg (not_not.mpr hs), hcommand]
  cases command with
  | getBridgeInfo => exact if_pos hlength
  | getStatus => exact if_pos hlength
  | endRpcProxy => exact if_pos hlength
  | beginRpcProxy =>
    have hbegin : beginRpcProxy expansionTransport context.socket session request = (do
        expansionTransport.requestReconnect
        answer context.socket session request .unavailable []) := by
      unfold beginRpcProxy
      rw [if_pos hlength]
      rfl
    exact hbegin
  | _ => simp [commands] at hmem

/-- Three commands refuse a payload. -/
theorem refused_of_command {command : BridgeCommand} (hcommand : request.command = command.toByte)
    (hmem : command ∈ commands) (hbegin : command ≠ .beginRpcProxy) :
    Refused context session request := by
  apply refused_of_malformed
  rw [handleManagementMessage_of_command hs hflags hstatus hversion hpayload hcommand hmem,
    if_neg hbegin]

/-- The fourth asks for a reconnect in every run, and it has one. -/
theorem not_refused_of_begin (hcommand : request.command = BridgeCommand.beginRpcProxy.toByte) :
    ¬ Refused context session request := by
  have hencodable : Answer.Encodable request := by
    rw [Answer.Encodable, hcommand]
    decide
  have hanswer : (answer context.socket session request .unavailable []).Terminates
      (Answer.effect fun _ _ => .replicate _ 0) (Answer.Answered request) {} :=
    Answer.short_answer_terminates hencodable
  obtain ⟨events, result, _, hy, -⟩ := hanswer.exists_yields
  intro hrefused
  have hrun : (handleManagementMessage expansionTransport context session request).Yields
      (⟨.setReconnect, ()⟩ :: events) result := by
    rw [handleManagementMessage_of_command hs hflags hstatus hversion hpayload hcommand (by decide),
      if_pos rfl]
    exact .call hy
  obtain ⟨-, -, hquiet⟩ := hrefused _ _ hrun
  exact hquiet _ List.mem_cons_self rfl

/-- A payload where none belongs is refused without effect by every command but
`BeginRPCProxy`. -/
theorem forbidden_payload_refused_iff {command : BridgeCommand}
    (hcommand : request.command = command.toByte) (hmem : command ∈ commands) :
    Refused context session request ↔ command ≠ .beginRpcProxy := by
  constructor
  · rintro hrefused rfl
    exact not_refused_of_begin hs hflags hstatus hversion hpayload hcommand hrefused
  · exact refused_of_command hs hflags hstatus hversion hpayload hcommand hmem

end Request

theorem forbidden_payload_refused_getStatus :
    Refused ⟨3, .replicate _ 1⟩ { state := .authenticated }
      { version := 1, command := 4, payload := [7] } :=
  (forbidden_payload_refused_iff rfl rfl rfl rfl (by decide) (show (4 : UInt8) =
    BridgeCommand.getStatus.toByte from rfl) (by decide)).mpr (by decide)

/-- A single byte of payload. -/
theorem begin_rpc_proxy_payload_not_refused :
    ¬ Refused ⟨3, .replicate _ 1⟩ { state := .authenticated }
      { version := 1, command := 5, payload := [0] } :=
  not_refused_of_begin rfl rfl rfl rfl (by decide) rfl

end ForbiddenPayload
end FlipforgeBridge
