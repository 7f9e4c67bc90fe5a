import FlipforgeBridge.Connection.System
import Mathlib.Algebra.Order.Ring.Nat
import Mathlib.Tactic.GCongr

/-!
Every management request is answered exactly once, provided its command byte is one the encoder
knows: the encoder refuses to echo any other byte, so no answer goes out at all.
-/
namespace FlipforgeBridge
open Process

theorem length_asciiBytes (text : String) : (asciiBytes text).length = text.length := by
  rw [asciiBytes, List.length_map, String.length_toList]

theorem length_stateName_le (state : ExpansionState) :
    (expansionTransportStateName state).length ≤ 16 := by
  cases state <;> decide

theorem length_repr_uInt64_le (n : UInt64) : (Nat.repr n.toNat).length ≤ 20 :=
  (Nat.length_repr_le_iff (by decide)).mpr (Nat.lt_trans n.toNat_lt (by decide))

theorem length_repr_uInt32_le (n : UInt32) : (Nat.repr n.toNat).length ≤ 10 :=
  (Nat.length_repr_le_iff (by decide)).mpr (Nat.lt_trans n.toNat_lt (by decide))

theorem length_bridgeInfoJson_lt (uptimeMs : UInt64) (wifiStarted : Bool) (state : ExpansionState)
    (baud : UInt32) :
    (asciiBytes (bridgeInfoJson uptimeMs wifiStarted state baud)).length <
      bridgeManagementMaxPayload := by
  have h1 := length_repr_uInt64_le uptimeMs
  have h2 := length_repr_uInt32_le baud
  have h3 := length_stateName_le state
  have h4 : (if wifiStarted then "softap" else "stopped" : String).length ≤ 7 := by
    cases wifiStarted <;> decide
  rw [length_asciiBytes]
  unfold bridgeInfoJson
  repeat rw [String.length_append]
  refine Nat.lt_of_le_of_lt
    (?_ : _ ≤ 12 + 16 + 13 + 5 + 13 + 1 + 32 + 20 + 10 + 7 + 15 + 16 + 9 + 10 + 19) (by decide)
  gcongr <;> decide

theorem length_statusJson_lt (state : ExpansionState) (baud : UInt32)
    (metrics : BridgeMetricsSnapshot) :
    (asciiBytes (statusJson state baud metrics)).length < bridgeManagementMaxPayload := by
  have h1 := length_repr_uInt32_le baud
  have h2 := length_stateName_le state
  have h3 := length_repr_uInt64_le metrics.tcpRxBytes
  have h4 := length_repr_uInt64_le metrics.tcpTxBytes
  have h5 := length_repr_uInt64_le metrics.rpcPayloadRxBytes
  have h6 := length_repr_uInt64_le metrics.rpcPayloadTxBytes
  have h7 := length_repr_uInt32_le metrics.retries
  have h8 := length_repr_uInt32_le metrics.protocolErrors
  rw [length_asciiBytes]
  unfold statusJson
  repeat rw [String.length_append]
  refine Nat.lt_of_le_of_lt (?_ : _ ≤ 14 + 16 + 9 + 10 + 10 + 20 + 10 + 20 +
    10 + 20 + 10 + 20 + 11 + 10 + 10 + 10 + 1) (by decide)
  gcongr <;> decide

namespace Answer

/-- The bytes the socket has taken while one request is handled, and the digests computed. -/
structure Log where
  sent : List UInt8 := []
  digests : List (Option (Vector UInt8 bridgeHmacBytes)) := []
  deriving DecidableEq

/-- A socket that takes at least one byte of every write, and an HMAC that may refuse. The other
operations answer anything. -/
def effect
    (hmac : Vector UInt8 bridgePairingSecretBytes → List UInt8 → Vector UInt8 bridgeHmacBytes) :
    (o : Op) → o.Res → Log → Option Log
  | .send _ bytes, result, log =>
    if 0 < result.sent ∧ result.sent ≤ bytes.length then
      some { log with sent := log.sent ++ bytes.take result.sent.toNat }
    else none
  | .hmacSha256 key message, digest, log =>
    if digest = none ∨ digest = some (hmac key message) then
      some { log with digests := digest :: log.digests }
    else none
  | _, _, log => some log

/-- A proof was computed and the request does not carry it. -/
def ProofFailed (request : BridgeMessage) (log : Log) : Prop :=
  request.command = BridgeCommand.authenticate.toByte ∧
    ∃ digest ∈ log.digests, digest ≠ some (request.payloadArray bridgeHmacBytes)

/-- One response frame to the request went out. -/
def Framed (request : BridgeMessage) (log : Log) : Prop :=
  ∃ response : BridgeMessage,
    bridgeMessageEncode response bridgeManagementFrameSize = some log.sent ∧
    response.flags = bridgeManagementResponseFlag ∧ response.command = request.command ∧
    response.requestId = request.requestId

/-- One response frame to the request went out, and the connection stays open unless a proof
failed. -/
structure Answered (request : BridgeMessage) (result : EspErr × BridgeSession × Bool) (log : Log) :
    Prop where
  frame : Framed request log
  kept : result.1 = .ok ↔ ¬ ProofFailed request log

variable {hmac : Vector UInt8 bridgePairingSecretBytes → List UInt8 → Vector UInt8 bridgeHmacBytes}
  {α : Type} {Q : α → Log → Prop} {log : Log} {request : BridgeMessage} {session : BridgeSession}
  {socket : ℕ}

/-- Operations the log does not see. -/
theorem neutral {o : Op} {k : o.Res → Routine α} (h : ∀ r, effect hmac o r log = some log)
    (hk : ∀ r, (k r).Terminates (effect hmac) Q log) :
    (op o >>= k).Terminates (effect hmac) Q log := by
  refine .call ⟨o.smooth, log, h _⟩ fun r log' hr => ?_
  rw [h r, Option.some_inj] at hr
  exact hr ▸ hk r

theorem hmac_terminates {key : Vector UInt8 bridgePairingSecretBytes} {message : List UInt8}
    {k : Option (Vector UInt8 bridgeHmacBytes) → Routine α}
    (hk : ∀ digest, (k digest).Terminates (effect hmac) Q
      { log with digests := digest :: log.digests }) :
    (op (.hmacSha256 key message) >>= k).Terminates (effect hmac) Q log := by
  refine .call ⟨none, { log with digests := none :: log.digests }, by simp [effect]⟩ ?_
  intro digest log' hr
  obtain ⟨-, hlog⟩ := Option.ite_none_right_eq_some.mp hr
  cases hlog
  exact hk digest

theorem sendAll_terminates (bytes : List UInt8) :
    (sendAll socket bytes).Terminates (effect hmac)
      (fun error log' => error = .ok ∧ log' = { log with sent := log.sent ++ bytes }) log := by
  refine .bind (Q := fun written log' =>
    written = true ∧ log' = { log with sent := log.sent ++ bytes }) ?_ ?_
  · refine .loop (fun offset log' => offset ≤ bytes.length ∧
      log' = { log with sent := log.sent ++ bytes.take offset })
      (fun offset _ => bytes.length - offset) ?_ ⟨Nat.zero_le _, by simp⟩
    rintro offset log' ⟨hoffset, rfl⟩
    dsimp only
    split
    · have hend : offset = bytes.length := by omega
      exact .ret ⟨rfl, by simp [hend]⟩
    · next hlt =>
      rw [not_not] at hlt
      have hfull : (bytes.drop offset).length = bytes.length - offset := List.length_drop ..
      refine .call ⟨⟨1, false⟩, _, if_pos ⟨by simp, by simp; omega⟩⟩ fun result log' hr => ?_
      obtain ⟨⟨hpos, hle⟩, hlog⟩ := Option.ite_none_right_eq_some.mp hr
      cases hlog
      have hnat : result.sent.toNat ≤ bytes.length - offset := by omega
      simp only [Prog.ret_bind, Prog.pure_eq_ret]
      rw [if_pos ⟨hpos, hnat⟩]
      refine .ret ⟨⟨by omega, ?_⟩, by omega⟩
      simp only [List.append_assoc, List.take_add]
  · rintro written log' ⟨rfl, rfl⟩
    exact .ret ⟨rfl, rfl⟩

/-- The request's command byte is one the encoder echoes. -/
def Encodable (request : BridgeMessage) : Prop :=
  BridgeCommand.hello.toByte ≤ request.command ∧ request.command ≤ BridgeCommand.ping.toByte

instance : Decidable (Encodable request) := inferInstanceAs (Decidable (_ ∧ _))

theorem sendResponse_terminates {status : BridgeStatus} {payload : List UInt8}
    (hcommand : Encodable request) (hpayload : payload.length ≤ bridgeManagementMaxPayload)
    (hlog : log.sent = []) :
    (sendResponse socket request status payload).Terminates (effect hmac)
      (fun error log' => error = .ok ∧ log'.digests = log.digests ∧ Framed request log') log := by
  refine neutral (fun _ => rfl) fun _ => ?_
  rw [if_neg (Nat.not_lt.mpr hpayload)]
  have hencode : ∃ encoded, bridgeMessageEncode (responseTo request status payload)
      bridgeManagementFrameSize = some encoded := by
    unfold bridgeMessageEncode
    rw [if_neg, if_neg]
    · exact ⟨_, rfl⟩
    · exact Nat.not_lt.mpr (Nat.add_le_add_left hpayload _)
    · simp only [not_or, UInt8.not_lt]
      exact ⟨Nat.not_lt.mpr hpayload, hcommand.1, hcommand.2⟩
  obtain ⟨encoded, hencoded⟩ := hencode
  rw [hencoded]
  refine (sendAll_terminates encoded).mono ?_
  rintro error log' ⟨rfl, rfl⟩
  refine ⟨rfl, rfl, responseTo request status payload, ?_, rfl, rfl, rfl⟩
  rw [hlog]
  exact hencoded

/-- A command byte the encoder refuses is never answered. -/
theorem sendResponse_refused {status : BridgeStatus} {payload : List UInt8}
    (hcommand : ¬ Encodable request) :
    (sendResponse socket request status payload).Terminates (effect hmac)
      (fun error log' => error ≠ .ok ∧ log' = log) log := by
  refine neutral (fun _ => rfl) fun _ => ?_
  split
  · exact .ret ⟨by decide, rfl⟩
  · have hencode : bridgeMessageEncode (responseTo request status payload)
        bridgeManagementFrameSize = none := by
      refine if_pos (.inr ?_)
      rwa [Encodable, not_and_or, UInt8.not_le, UInt8.not_le] at hcommand
    rw [hencode]
    exact .ret ⟨by decide, rfl⟩

theorem answer_terminates {after : BridgeSession} {status : BridgeStatus} {payload : List UInt8}
    (hcommand : Encodable request) (hpayload : payload.length ≤ bridgeManagementMaxPayload)
    (hsent : log.sent = []) (hproof : ¬ ProofFailed request log) :
    (answer socket after request status payload).Terminates (effect hmac)
      (Answered request) log := by
  refine (sendResponse_terminates hcommand hpayload hsent).bind ?_
  rintro error log' ⟨rfl, hdigests, hframed⟩
  refine .ret ⟨hframed, ?_⟩
  simpa [ProofFailed, hdigests] using hproof

theorem not_proofFailed_empty : ¬ ProofFailed request {} := by simp [ProofFailed]

section Encodable
variable (hcommand : Encodable request)
include hcommand

theorem short_answer_terminates {after : BridgeSession} {status : BridgeStatus} :
    (answer socket after request status []).Terminates (effect hmac) (Answered request) {} :=
  answer_terminates hcommand (Nat.zero_le _) rfl not_proofFailed_empty

theorem answerJson_terminates {json : String}
    (hjson : (asciiBytes json).length < bridgeManagementMaxPayload) :
    (answerJson socket session request json).Terminates (effect hmac) (Answered request) {} := by
  rw [answerJson, if_neg (Nat.not_le.mpr hjson)]
  exact answer_terminates hcommand (Nat.le_of_lt hjson) rfl not_proofFailed_empty

theorem getBridgeInfo_terminates :
    (getBridgeInfo abstractTransport socket session request).Terminates (effect hmac)
      (Answered request) {} := by
  unfold getBridgeInfo
  split
  · exact short_answer_terminates hcommand
  · refine neutral (fun _ => rfl) fun _ => ?_
    refine neutral (fun _ => rfl) fun _ => ?_
    refine neutral (fun _ => rfl) fun _ => ?_
    refine neutral (fun _ => rfl) fun _ => ?_
    exact answerJson_terminates hcommand (length_bridgeInfoJson_lt ..)

theorem getStatus_terminates :
    (getStatus abstractTransport socket session request).Terminates (effect hmac)
      (Answered request) {} := by
  unfold getStatus
  split
  · exact short_answer_terminates hcommand
  · refine neutral (fun _ => rfl) fun _ => ?_
    refine neutral (fun _ => rfl) fun _ => ?_
    refine neutral (fun _ => rfl) fun _ => ?_
    exact answerJson_terminates hcommand (length_statusJson_lt ..)

theorem beginRpcProxy_terminates (hs : session.state = .authenticated) :
    (beginRpcProxy abstractTransport socket session request).Terminates (effect hmac)
      (Answered request) {} := by
  unfold beginRpcProxy
  refine .bind (Q := fun _ log => log = {}) ?_ ?_
  · split
    · exact .ret rfl
    · exact neutral (fun _ => rfl) fun _ => .ret rfl
  rintro refused _ rfl
  split
  · exact neutral (fun _ => rfl) fun _ => short_answer_terminates hcommand
  refine neutral (fun _ => rfl) fun error => ?_
  split
  · exact short_answer_terminates hcommand
  rw [bridgeSessionBeginProxy, if_neg (not_not.mpr hs)]
  refine (sendResponse_terminates hcommand (Nat.zero_le _) rfl).bind ?_
  rintro error log ⟨rfl, hdigests, hframed⟩
  exact .ret ⟨hframed, by simp [ProofFailed, hdigests]⟩

theorem endRpcProxy_terminates :
    (endRpcProxy socket session request).Terminates (effect hmac) (Answered request) {} := by
  unfold endRpcProxy
  split <;> exact short_answer_terminates hcommand

theorem handleHello_terminates :
    (handleHello socket session request).Terminates (effect hmac) (Answered request) {} := by
  unfold handleHello
  split
  · exact short_answer_terminates hcommand
  split
  · exact short_answer_terminates hcommand
  · exact answer_terminates hcommand (by simp; decide) rfl not_proofFailed_empty

theorem handleAuthenticate_terminates {context : ClientContext}
    (hauth : request.command = BridgeCommand.authenticate.toByte) :
    (handleAuthenticate context session request).Terminates (effect hmac)
      (Answered request) {} := by
  unfold handleAuthenticate
  split
  · exact short_answer_terminates hcommand
  rename_i h
  rw [not_or, not_not, not_not] at h
  refine hmac_terminates fun digest => ?_
  split
  · next hnone =>
    refine (sendResponse_terminates hcommand (Nat.zero_le _) rfl).bind ?_
    rintro _ log ⟨-, hdigests, hframed⟩
    refine .ret ⟨hframed, ?_⟩
    have hne : digest ≠ some (request.payloadArray bridgeHmacBytes) := by
      rintro rfl
      simp [bridgeSessionAuthenticate_eq_some.mpr ⟨h.1, rfl, rfl⟩] at hnone
    simp [ProofFailed, hdigests, hauth, hne]
  · next after hafter =>
    obtain ⟨expected, rfl, hsome⟩ := Option.bind_eq_some_iff.mp hafter
    obtain ⟨-, rfl, -⟩ := bridgeSessionAuthenticate_eq_some.mp hsome
    exact answer_terminates hcommand (Nat.zero_le _) rfl (by simp [ProofFailed])

theorem handleAuthenticatedCommand_terminates {context : ClientContext}
    (hpayload : request.payload.length ≤ bridgeManagementMaxPayload) :
    (handleAuthenticatedCommand abstractTransport context session request).Terminates
      (effect hmac) (Answered request) {} := by
  unfold handleAuthenticatedCommand
  split
  · exact short_answer_terminates hcommand
  rename_i hs
  split
  · exact getBridgeInfo_terminates hcommand
  split
  · exact getStatus_terminates hcommand
  split
  · exact answer_terminates hcommand hpayload rfl not_proofFailed_empty
  split
  · exact beginRpcProxy_terminates hcommand (not_not.mp hs)
  split
  · exact endRpcProxy_terminates hcommand
  · exact short_answer_terminates hcommand

theorem handleManagementMessage_terminates {context : ClientContext}
    (hpayload : request.payload.length ≤ bridgeManagementMaxPayload) :
    (handleManagementMessage abstractTransport context session request).Terminates
      (effect hmac) (Answered request) {} := by
  unfold handleManagementMessage
  split
  · exact short_answer_terminates hcommand
  split
  · exact short_answer_terminates hcommand
  split
  · exact handleHello_terminates hcommand
  split
  · exact handleAuthenticate_terminates hcommand ‹_›
  · exact handleAuthenticatedCommand_terminates hcommand hpayload

end Encodable

theorem answer_refused {after : BridgeSession} {status : BridgeStatus} {payload : List UInt8}
    (hcommand : ¬ Encodable request) :
    (answer socket after request status payload).Terminates (effect hmac)
      (fun _ log => log.sent = []) {} := by
  refine (sendResponse_refused hcommand).bind ?_
  rintro error _ ⟨-, rfl⟩
  exact .ret rfl

/-- A command byte without an enumerator only ever meets answers that cannot be encoded. -/
theorem handleManagementMessage_refused {context : ClientContext}
    (hcommand : ¬ Encodable request) :
    (handleManagementMessage abstractTransport context session request).Terminates
      (effect hmac) (fun _ log => log.sent = []) {} := by
  have hne : ∀ command : BridgeCommand, request.command ≠ command.toByte := by
    intro command h
    refine hcommand ?_
    rw [Encodable, h]
    cases command <;> decide
  unfold handleManagementMessage
  split
  · exact answer_refused hcommand
  split
  · exact answer_refused hcommand
  rw [if_neg (hne _), if_neg (hne _)]
  unfold handleAuthenticatedCommand
  split
  · exact answer_refused hcommand
  rw [if_neg (hne _), if_neg (hne _), if_neg (hne _), if_neg (hne _), if_neg (hne _)]
  exact answer_refused hcommand

theorem sent_ne_nil_of_framed {log : Log} (h : Framed request log) : log.sent ≠ [] := by
  obtain ⟨response, hencode, -⟩ := h
  intro hnil
  rw [hnil, bridgeMessageEncode] at hencode
  split at hencode
  · cases hencode
  · split at hencode
    · cases hencode
    · simp [bridgeManagementMagic] at hencode

end Answer

/-- A request is answered exactly once, and the connection kept open unless a proof failed,
precisely when its command byte is that of a command. -/
theorem request_answered_iff
    (hmac : Vector UInt8 bridgePairingSecretBytes → List UInt8 → Vector UInt8 bridgeHmacBytes)
    (context : ClientContext) (session : BridgeSession) {request : BridgeMessage}
    (hpayload : request.payload.length ≤ bridgeManagementMaxPayload) :
    (handleManagementMessage abstractTransport context session request).Terminates
        (Answer.effect hmac) (Answer.Answered request) {} ↔
      BridgeCommand.hello.toByte ≤ request.command ∧
        request.command ≤ BridgeCommand.ping.toByte := by
  constructor
  · intro h
    by_contra hcommand
    obtain ⟨_, log, hanswered, hsent⟩ :=
      h.exists_result (Answer.handleManagementMessage_refused hcommand)
    exact Answer.sent_ne_nil_of_framed hanswered.frame hsent
  · exact fun hcommand => Answer.handleManagementMessage_terminates hcommand hpayload

/-- Command byte 8 of an authenticated client: the answer is refused by the encoder. -/
theorem unknown_command_unanswered :
    ¬ (handleManagementMessage abstractTransport { socket := 3, pairingSecret := .replicate _ 1 }
        { state := .authenticated } { version := 1, command := 8, requestId := 5 }).Terminates
      (Answer.effect fun _ _ => .replicate _ 0)
      (Answer.Answered { version := 1, command := 8, requestId := 5 }) {} := by
  intro h
  obtain ⟨_, log, hanswered, hsent⟩ :=
    h.exists_result (Answer.handleManagementMessage_refused (by decide))
  exact Answer.sent_ne_nil_of_framed hanswered.frame hsent

theorem request_answered_ping :
    (handleManagementMessage abstractTransport { socket := 3, pairingSecret := .replicate _ 1 }
        { state := .authenticated } { version := 1, command := 7, payload := [1, 2, 3] }).Terminates
      (Answer.effect fun _ _ => .replicate _ 0)
      (Answer.Answered { version := 1, command := 7, payload := [1, 2, 3] }) {} :=
  (request_answered_iff _ _ _ (by decide)).mpr (by decide)

end FlipforgeBridge
