import FlipforgeBridge.Connection.System
import FlipforgeBridge.Connection.Traversal
import FlipforgeBridge.Codec.ManagementRoundTrip

/-!
What a client that has not authenticated can see of a connection: what is read and written, and
when the clock is looked at. It is an automaton over the session, the decoder and the input, with
one inner step, the comparison of a proof. Nothing in it depends on the pairing secret or on the
device. The client task follows it up to the first request of an authenticated client.
-/
namespace FlipforgeBridge
open Process

namespace Conversation

/-- The next thing the other side notices. -/
inductive Query
  | clock | recv | send (bytes : List UInt8) | shutdown | close
  deriving DecidableEq

/-- Something the other side noticed, with its outcome. Times count from some point of reference. -/
inductive Observation
  | clock (elapsedUs : ℤ)
  | received (result : RecvResult)
  | sent (bytes : List UInt8) (result : SendResult)
  | shutdown
  | closed
  deriving DecidableEq

def Observation.query : Observation → Query
  | .clock _ => .clock
  | .received _ => .recv
  | .sent bytes _ => .send bytes
  | .shutdown => .shutdown
  | .closed => .close

/-- What the client task keeps between two requests. -/
structure Keep where
  session : BridgeSession
  decoder : BridgeMessageDecoder := bridgeMessageDecoderReset
  lastActivityUs : ℤ

inductive View
  | opening (session : BridgeSession)
  | waiting (k : Keep)
  /-- Nothing came in time. -/
  | idle (k : Keep)
  | received (k : Keep) (input : List UInt8)
  /-- A proof is to be compared, `rest` is still to be decoded. -/
  | comparing (k : Keep) (request : BridgeMessage) (rest : List UInt8)
  /-- `bytes` are to be written; then `rest` is decoded, or the connection closed. -/
  | sending (bytes : List UInt8) (k : Keep) (rest : List UInt8) (goOn : Bool)
  /-- A client that has authenticated makes a request. -/
  | unlocked
  | closing
  | shut
  | closed

/-- A response goes out if the encoder takes it. -/
def answering (request : BridgeMessage) (status : BridgeStatus) (payload : List UInt8) (k : Keep)
    (rest : List UInt8) (goOn : Bool) : View :=
  if bridgeManagementMaxPayload < payload.length then .closing
  else match bridgeMessageEncode (responseTo request status payload) bridgeManagementFrameSize with
    | none => .closing
    | some bytes => .sending bytes k rest goOn

/-- A request before authentication. -/
def respond (k : Keep) (request : BridgeMessage) (rest : List UInt8) : View :=
  let refuse (status : BridgeStatus) : View := answering request status [] k rest true
  if k.session.state ≠ .awaitingHello ∧ k.session.state ≠ .awaitingAuthentication then .unlocked
  else if request.flags ≠ 0 ∨ request.status ≠ .ok then refuse .malformed
  else if !bridgeProtocolVersionSupported request.version then refuse .unsupportedProtocol
  else if request.command = BridgeCommand.hello.toByte then
    if request.payload.length ≠ bridgeNonceBytes then refuse .invalidState
    else match bridgeSessionAcceptHello k.session (request.payloadArray bridgeNonceBytes) with
      | none => refuse .invalidState
      | some session =>
        answering request .ok (session.bridgeNonce.toList ++ session.sessionId.toList)
          { k with session } rest true
  else if request.command = BridgeCommand.authenticate.toByte then
    if k.session.state ≠ .awaitingAuthentication ∨ request.payload.length ≠ bridgeHmacBytes then
      refuse .invalidState
    else .comparing k request rest
  else refuse .unauthorized

/-- The answer to a stream that is not a request. -/
def complain (k : Keep) (status : BridgeStatus) : View :=
  answering { version := flipforgeBridgeProtocolVersion, command := BridgeCommand.hello.toByte }
    status [] k [] false

/-- Go on with the input. -/
def serve (k : Keep) (input : List UInt8) : View :=
  match bridgeMessageDecoderPush k.decoder input with
  | (.ready request, consumed, decoder) => respond { k with decoder } request (input.drop consumed)
  | (.needMore, _, decoder) => .waiting { k with decoder }
  | (.malformed, _, decoder) => complain { k with decoder } .malformed
  | (.tooLarge, _, decoder) => complain { k with decoder } .tooLarge

/-- The writing is over. -/
def finish (k : Keep) (rest : List UInt8) (goOn : Bool) : View :=
  if goOn then serve k rest else .closing

/-- How a comparison ends. -/
def compared (k : Keep) (request : BridgeMessage) (rest : List UInt8) :
    Option BridgeSession → View
  | none => answering request .unauthorized [] k rest false
  | some session => answering request .ok [] { k with session } rest true

/-- What one `send` leaves to be written. -/
def View.write (bytes : List UInt8) (k : Keep) (rest : List UInt8) (goOn : Bool)
    (result : SendResult) : View :=
  if 0 < result.sent ∧ result.sent.toNat ≤ bytes.length then
    if bytes.length ≤ result.sent.toNat then finish k rest goOn
    else .sending (bytes.drop result.sent.toNat) k rest goOn
  else if result.sent < 0 ∧ result.eintr then .sending bytes k rest goOn
  else .closing

def View.step : View → Observation → Option View
  | .opening session, .clock t => some (.waiting { session, lastActivityUs := t })
  | .waiting _, .received .closed => some .closing
  | .waiting k, .received (.error .eintr) => some (.waiting k)
  | .waiting k, .received (.error .eagain) => some (.idle k)
  | .waiting _, .received (.error .other) => some .closing
  | .waiting k, .received (.data input) => some (.received k input)
  | .idle k, .clock t =>
    some (if t - k.lastActivityUs < bridgeClientIdleTimeoutMs * 1000 then .waiting k else .closing)
  | .received k input, .clock t => some (serve { k with lastActivityUs := t } input)
  | .sending bytes k rest goOn, .sent bytes' result =>
    if bytes' = bytes then some (View.write bytes k rest goOn result) else none
  | .closing, .shutdown => some .shut
  | .shut, .closed => some .closed
  | _, _ => none

/-- What the other side will notice next. -/
def View.query : View → Option Query
  | .opening _ | .idle _ | .received _ _ => some .clock
  | .waiting _ => some .recv
  | .sending bytes _ _ _ => some (.send bytes)
  | .closing => some .shutdown
  | .shut => some .close
  | .comparing _ _ _ | .unlocked | .closed => none

theorem View.query_of_step {v v' : View} {x : Observation} (h : v.step x = some v') :
    v.query = some x.query := by
  unfold View.step at h
  split at h
  all_goals first
    | rfl
    | cases h
    | skip
  obtain ⟨rfl, -⟩ := Option.ite_none_right_eq_some.mp h
  rfl

/-! ### The role of the client task -/

/-- What the other side notices of an operation; the clock counts from `originUs`. -/
def observe (originUs : ℤ) : (o : Op) → o.Res → Option Observation
  | .timerGetTime, now => some (.clock (now - originUs))
  | .recv _ _, result => some (.received result)
  | .send _ bytes, result => some (.sent bytes result)
  | .shutdown _, _ => some .shutdown
  | .close _, _ => some .closed
  | _, _ => none

/-- Operations nobody notices. -/
def silent : Op → Bool
  | .mark (.respond _ _ _) | .setSocketTimeouts _ | .releaseClient => true
  | _ => false

/-- A request being handled, the session that met it and the session it leaves, if it is
answered. -/
structure Handling where
  session : BridgeSession
  request : BridgeMessage
  after : Option BridgeSession

/-- What is known of the session left by a request: all of it, or that it is not authenticated. -/
def Handling.leaves (h : Handling) (after : BridgeSession) : Bool :=
  match h.after with
  | some session => after = session
  | none => after.state ≠ .authenticated

/-- A request has been met or the connection is at its end. -/
def View.busy : View → Bool
  | .opening _ | .waiting _ | .idle _ | .received _ _ => false
  | _ => true

/-- The session left by the request that led here. -/
def View.left : View → Option BridgeSession
  | .comparing k _ _ | .sending _ k _ _ => some k.session
  | _ => none

/-- Answers to requests are written while they are handled, the rest happens in between. -/
def View.admits (v : View) (handling : Option Handling) : Bool :=
  match v with
  | .sending _ _ _ goOn => !goOn || handling.isSome
  | v => v.busy || handling.isNone

inductive Phase
  /-- The session is set up with the random bytes drawn so far. -/
  | starting (nonce sessionId : List UInt8)
  | at (v : View) (handling : Option Handling)

def Phase.step : Phase → Observation → Option Phase
  | .starting _ _, _ => none
  | .at v handling, x =>
    if v.admits handling then (v.step x).map (.at · handling) else none

def next (secret : Vector UInt8 bridgePairingSecretBytes) (originUs : ℤ) :
    Phase → (o : Op) → o.Res → Option Phase
  | .at .unlocked handling, _, _ => some (.at .unlocked handling)
  | .at (.waiting _) _, .recv _ 0, _ => none
  | .at v none, .mark (.handle session request), _ =>
    if v.busy then some (.at v (some ⟨session, request, v.left⟩)) else none
  | .at v (some h), .mark (.handled _ _ after _ _), _ =>
    if h.leaves after then some (.at v none) else none
  | .starting nonce sessionId, .fillRandom n, value =>
    if n = bridgeNonceBytes then some (.starting value.toList sessionId)
    else if n = bridgeSessionIdBytes then some (.starting nonce value.toList)
    else none
  | .starting nonce sessionId, .mark (.session session), _ =>
    if session = bridgeSessionInit session.bridgeNonce session.sessionId ∧
        session.bridgeNonce.toList = nonce ∧ session.sessionId.toList = sessionId then
      some (.at (.opening session) none)
    else none
  | .at .closing handling, .mark (.session session), _ =>
    if session.state = .closed then some (.at .closing handling) else none
  | .at (.comparing k request rest) (some h), .hmacSha256 key message, digest =>
    if key = secret ∧ message = bridgeSessionAuthMaterial k.session 128 ∧
        h.session = k.session ∧ h.request = request then
      let v := compared k request rest (digest.bind fun expected =>
        bridgeSessionAuthenticate k.session expected (request.payloadArray bridgeHmacBytes))
      some (.at v (some { h with after := v.left }))
    else none
  | .at .closed handling, .taskDeleteSelf, _ => some (.at .closed handling)
  | ph, o, r =>
    match observe originUs o r with
    | some x => ph.step x
    | none => if silent o then some ph else none

/-- What the role allows, case by case. -/
inductive Moves (secret : Vector UInt8 bridgePairingSecretBytes) (originUs : ℤ) :
    Phase → (o : Op) → o.Res → Phase → Prop
  | unlocked {handling : Option Handling} {o : Op} {r : o.Res} :
    Moves secret originUs (.at .unlocked handling) o r (.at .unlocked handling)
  | nonce {nonce sessionId : List UInt8} {value : Vector UInt8 bridgeNonceBytes} :
    Moves secret originUs (.starting nonce sessionId) (.fillRandom bridgeNonceBytes) value
      (.starting value.toList sessionId)
  | sessionId {nonce sessionId : List UInt8} {value : Vector UInt8 bridgeSessionIdBytes} :
    Moves secret originUs (.starting nonce sessionId) (.fillRandom bridgeSessionIdBytes) value
      (.starting nonce value.toList)
  | opens {session : BridgeSession} {r : Unit}
      (init : session = bridgeSessionInit session.bridgeNonce session.sessionId) :
    Moves secret originUs (.starting session.bridgeNonce.toList session.sessionId.toList)
      (.mark (.session session)) r (.at (.opening session) none)
  | handle {v : View} {session : BridgeSession} {request : BridgeMessage} {r : Unit}
      (busy : v.busy) :
    Moves secret originUs (.at v none) (.mark (.handle session request)) r
      (.at v (some ⟨session, request, v.left⟩))
  | handled {v : View} {h : Handling} {session after : BridgeSession} {request : BridgeMessage}
      {error : EspErr} {beginProxy : Bool} {r : Unit} (leaves : h.leaves after) :
    Moves secret originUs (.at v (some h))
      (.mark (.handled session request after error beginProxy)) r (.at v none)
  | closes {handling : Option Handling} {session : BridgeSession} {r : Unit}
      (closed : session.state = .closed) :
    Moves secret originUs (.at .closing handling) (.mark (.session session)) r
      (.at .closing handling)
  | compares {k : Keep} {request : BridgeMessage} {rest : List UInt8} {h : Handling}
      {digest : Option (Vector UInt8 bridgeHmacBytes)} {v : View} (request_eq : h.request = request)
      (verdict : v = compared k request rest (digest.bind fun expected =>
        bridgeSessionAuthenticate k.session expected (request.payloadArray bridgeHmacBytes))) :
    Moves secret originUs (.at (.comparing k request rest) (some h))
      (.hmacSha256 secret (bridgeSessionAuthMaterial k.session 128)) digest
      (.at v (some { h with after := v.left }))
  | deletes {handling : Option Handling} {r : Unit} :
    Moves secret originUs (.at .closed handling) .taskDeleteSelf r (.at .closed handling)
  | observed {v v' : View} {handling : Option Handling} {o : Op} {r : o.Res} {x : Observation}
      (noticed : observe originUs o r = some x) (admits : v.admits handling)
      (step : v.step x = some v') :
    Moves secret originUs (.at v handling) o r (.at v' handling)
  | silent {ph : Phase} {o : Op} {r : o.Res} (unnoticed : observe originUs o r = none)
      (silent : silent o) :
    Moves secret originUs ph o r ph

theorem moves_of_next {secret : Vector UInt8 bridgePairingSecretBytes} {originUs : ℤ}
    {ph ph' : Phase} {o : Op} {r : o.Res} (h : next secret originUs ph o r = some ph') :
    Moves secret originUs ph o r ph' := by
  unfold next at h
  split at h
  · cases h
    exact .unlocked
  · cases h
  · obtain ⟨hbusy, h⟩ := Option.ite_none_right_eq_some.mp h
    cases h
    exact .handle hbusy
  · obtain ⟨hleaves, h⟩ := Option.ite_none_right_eq_some.mp h
    cases h
    exact .handled hleaves
  · next n value =>
    split at h
    · next hn =>
      subst hn
      cases h
      exact .nonce
    · obtain ⟨hn, h⟩ := Option.ite_none_right_eq_some.mp h
      subst hn
      cases h
      exact .sessionId
  · obtain ⟨⟨hinit, hnonce, hid⟩, h⟩ := Option.ite_none_right_eq_some.mp h
    cases h
    rw [← hnonce, ← hid]
    exact .opens hinit
  · obtain ⟨hclosed, h⟩ := Option.ite_none_right_eq_some.mp h
    cases h
    exact .closes hclosed
  · obtain ⟨⟨rfl, rfl, -, hrequest⟩, hph⟩ := Option.ite_none_right_eq_some.mp h
    cases hph
    exact .compares hrequest rfl
  · cases h
    exact .deletes
  · split at h
    · next x hx =>
      cases ph with
      | starting => cases h
      | «at» v handling =>
        obtain ⟨hadmits, h⟩ := Option.ite_none_right_eq_some.mp h
        obtain ⟨v', hv, rfl⟩ := Option.map_eq_some_iff.mp h
        exact .observed hx hadmits hv
    · next hx =>
      obtain ⟨hsilent, h⟩ := Option.ite_none_right_eq_some.mp h
      cases h
      exact .silent hx hsilent

/-- Random bytes are drawn once they are not empty. -/
theorem eq_of_drawn {n : ℕ} {value random : Vector UInt8 n} {drawn : List UInt8} (hn : 0 < n)
    (hdrawn : drawn = [] ∨ drawn = random.toList) (hvalue : value.toList = drawn) :
    value = random := by
  rcases hdrawn with rfl | rfl
  · have hlength : value.toList.length = n := Vector.length_toList
    rw [hvalue] at hlength
    exact absurd hlength (Nat.ne_of_lt hn)
  · exact Vector.toList_inj.mp hvalue

section Follows
variable {context : ClientContext} {originUs : ℤ} {k : Keep} {rest : List UInt8} {goOn : Bool}
  {handling : Option Handling} {request : BridgeMessage} {α : Type}

theorem next_observed {v v' : View} {o : Op} {r : o.Res} {x : Observation}
    (hx : observe originUs o r = some x) (hv : v.step x = some v')
    (hadmits : v.admits handling = true) (hquery : x.query ≠ .recv) :
    next context.pairingSecret originUs (.at v handling) o r = some (.at v' handling) := by
  have hstep : Phase.step (.at v handling) x = some (.at v' handling) := by
    rw [Phase.step, if_pos hadmits, hv]
    rfl
  cases o with
  | recv =>
    cases hx
    exact absurd rfl hquery
  | timerGetTime | send | shutdown | close =>
    cases hx
    cases v with
    | unlocked => cases hv
    | _ => cases handling <;> exact hstep
  | _ => cases hx

theorem next_received {v : View} {received : RecvResult}
    (hv : View.step (.waiting k) (.received received) = some v) :
    next context.pairingSecret originUs (.at (.waiting k) none)
      (.recv context.socket bridgeTcpReadBytes) received = some (.at v none) := by
  have hadmits : (View.waiting k).admits none = true := rfl
  have hstep : Phase.step (.at (.waiting k) none) (.received received) = some (.at v none) := by
    rw [Phase.step, if_pos hadmits, hv]
    rfl
  exact hstep

theorem next_silent {v : View} {o : Op} (h : silent o = true) (r : o.Res) :
    next context.pairingSecret originUs (.at v handling) o r = some (.at v handling) := by
  cases o with
  | mark m =>
    cases m with
    | respond => cases v <;> cases handling <;> rfl
    | _ => cases h
  | setSocketTimeouts | releaseClient => cases v <;> cases handling <;> rfl
  | _ => cases h

/-- A phase after authentication. -/
def Unlocked (ph : Phase) : Prop := ∃ handling, ph = .at .unlocked handling

/-- After authentication anything may happen. -/
theorem unlocked_follows {ph : Phase} (h : Unlocked ph) (p : Routine α) :
    p.Follows (next context.pairingSecret originUs) (fun _ => Unlocked) ph := by
  refine .of_closed ?_ h p
  rintro _ ⟨handling, rfl⟩ o r
  exact ⟨.at .unlocked handling, rfl, handling, rfl⟩

theorem next_send {socket : ℕ} {bytes : List UInt8} (hon : goOn = true → handling.isSome = true)
    (result : SendResult) :
    next context.pairingSecret originUs (.at (.sending bytes k rest goOn) handling)
      (.send socket bytes) result = some (.at (View.write bytes k rest goOn result) handling) := by
  have hstep : View.step (.sending bytes k rest goOn) (.sent bytes result) =
      some (View.write bytes k rest goOn result) := if_pos rfl
  refine next_observed rfl hstep ?_ Query.noConfusion
  cases goOn with
  | false => rfl
  | true => exact hon rfl

/-- Where the writing of a response leads. -/
def written (k : Keep) (rest : List UInt8) (goOn : Bool) (error : EspErr) : View :=
  if error = .ok then finish k rest goOn else .closing

theorem sendAll_follows {bytes : List UInt8} (hbytes : bytes ≠ [])
    (hon : goOn = true → handling.isSome = true) :
    (sendAll context.socket bytes).Follows (next context.pairingSecret originUs)
      (fun error ph => ph = .at (written k rest goOn error) handling)
      (.at (.sending bytes k rest goOn) handling) := by
  refine .bind (S := fun (done : Bool) ph =>
    ph = .at (if done then finish k rest goOn else .closing) handling) ?_ ?_
  · refine .loop (fun offset ph =>
      offset < bytes.length ∧ ph = .at (.sending (bytes.drop offset) k rest goOn) handling ∨
        offset = bytes.length ∧ ph = .at (finish k rest goOn) handling) ?_ ?_
    · exact .inl ⟨List.length_pos_iff.mpr hbytes, rfl⟩
    rintro offset ph (⟨hoffset, rfl⟩ | ⟨hoffset, rfl⟩)
    · rw [if_neg (not_not.mpr hoffset), socketWrite, bind_assoc]
      refine follows_op fun result => ⟨_, next_send hon result, ?_⟩
      rw [pure_bind]
      dsimp only
      have hlength : (bytes.drop offset).length = bytes.length - offset := List.length_drop
      by_cases htaken : 0 < result.sent ∧ result.sent.toNat ≤ bytes.length - offset
      · rw [View.write, hlength, if_pos htaken, if_pos htaken]
        refine follows_pure ?_
        by_cases hall : bytes.length - offset ≤ result.sent.toNat
        · rw [if_pos hall]
          exact .inr ⟨by omega, rfl⟩
        · rw [if_neg hall, List.drop_drop]
          exact .inl ⟨by omega, rfl⟩
      · have hretry : (result.sent < 0 ∧ (decide (result.sent < 0) && result.eintr) = true) ↔
            result.sent < 0 ∧ result.eintr = true := by
          rw [Bool.and_eq_true, decide_eq_true_iff, and_self_left]
        rw [View.write, hlength, if_neg htaken, if_neg htaken]
        by_cases hagain : result.sent < 0 ∧ result.eintr = true
        · rw [if_pos hagain, if_pos (hretry.mpr hagain)]
          exact follows_pure (.inl ⟨hoffset, rfl⟩)
        · rw [if_neg hagain, if_neg fun h => hagain (hretry.mp h)]
          exact follows_pure rfl
    · rw [if_pos (by omega)]
      exact follows_pure rfl
  · rintro done _ rfl
    refine follows_pure ?_
    cases done <;> rfl

theorem encode_ne_nil {message : BridgeMessage} {capacity : ℕ} {bytes : List UInt8}
    (h : bridgeMessageEncode message capacity = some bytes) : bytes ≠ [] := by
  rw [encode_eq_wire h]
  refine List.ne_nil_of_length_pos ?_
  rw [length_wire]
  exact Nat.add_pos_left (by decide) _

theorem sendResponse_follows {status : BridgeStatus} {payload : List UInt8}
    (hon : goOn = true → handling.isSome = true) :
    (sendResponse context.socket request status payload).Follows
      (next context.pairingSecret originUs)
      (fun error ph => ph = .at (written k rest goOn error) handling)
      (.at (answering request status payload k rest goOn) handling) := by
  refine follows_op fun _ => ⟨_, next_silent rfl _, ?_⟩
  rw [answering]
  split
  · exact follows_pure rfl
  · cases hencode : bridgeMessageEncode (responseTo request status payload)
      bridgeManagementFrameSize with
    | none => exact follows_pure rfl
    | some bytes => exact sendAll_follows (encode_ne_nil hencode) hon

/-- Where handling a request leads: to the next one or the end, or past authentication. -/
def Handled (k : Keep) (rest : List UInt8) (result : EspErr × BridgeSession × Bool) (ph : Phase) :
    Prop :=
  Unlocked ph ∨ ∃ h : Handling,
    ph = .at (written { k with session := result.2.1 } rest true result.1) (some h) ∧
      h.leaves result.2.1 ∧ result.2.2 = false

theorem leaves_answering {status : BridgeStatus} {payload : List UInt8} {before : BridgeSession}
    {request' : BridgeMessage} (hs : k.session.state ≠ .authenticated) :
    Handling.leaves ⟨before, request', (answering request status payload k rest goOn).left⟩
      k.session = true := by
  unfold answering
  split
  · exact decide_eq_true hs
  · split
    · exact decide_eq_true hs
    · exact decide_eq_true rfl

/-- The answer to a command the encoder knows goes out. -/
theorem answering_eq {status : BridgeStatus} {payload : List UInt8}
    (hpayload : payload.length ≤ bridgeManagementMaxPayload)
    (hello_le : BridgeCommand.hello.toByte ≤ request.command)
    (le_ping : request.command ≤ BridgeCommand.ping.toByte) :
    answering request status payload k rest goOn =
      .sending (wire (responseTo request status payload)) k rest goOn := by
  have hroom : bridgeManagementHeaderSize + (responseTo request status payload).payload.length ≤
      bridgeManagementFrameSize := Nat.add_le_add_left hpayload _
  have hencode := @encode_of_known (responseTo request status payload) hpayload hello_le le_ping
    bridgeManagementFrameSize
  rw [if_pos hroom] at hencode
  rw [answering, if_neg (Nat.not_lt.mpr hpayload), hencode]

theorem answer_follows {session : BridgeSession} {status : BridgeStatus} {payload : List UInt8}
    {h : Handling} (hafter : h.leaves session) :
    (answer context.socket session request status payload).Follows
      (next context.pairingSecret originUs) (Handled k rest)
      (.at (answering request status payload { k with session } rest true) (some h)) := by
  refine (sendResponse_follows fun _ => rfl).bind ?_
  rintro error _ rfl
  exact follows_pure (.inr ⟨h, rfl, hafter, rfl⟩)

theorem state_of_acceptHello {session after : BridgeSession}
    {nonce : Vector UInt8 bridgeNonceBytes}
    (h : bridgeSessionAcceptHello session nonce = some after) :
    after.state ≠ .authenticated := by
  obtain ⟨-, h⟩ := Option.ite_none_left_eq_some.mp h
  cases h
  exact BridgeSessionState.noConfusion

theorem handleManagementMessage_follows :
    (handleManagementMessage abstractTransport context k.session request).Follows
      (next context.pairingSecret originUs) (Handled k rest)
      (.at (respond k request rest)
        (some ⟨k.session, request, (respond k request rest).left⟩)) := by
  unfold respond
  split
  · refine (unlocked_follows ⟨_, rfl⟩ _).mono ?_
    intro result ph hph
    exact .inl hph
  next hstate =>
  have hlocked : k.session.state ≠ .authenticated := by
    intro h
    rw [h] at hstate
    exact hstate ⟨by decide, by decide⟩
  unfold handleManagementMessage
  split
  · exact answer_follows (leaves_answering hlocked)
  split
  · exact answer_follows (leaves_answering hlocked)
  split
  · unfold handleHello
    split
    · exact answer_follows (leaves_answering hlocked)
    cases haccept : bridgeSessionAcceptHello k.session (request.payloadArray bridgeNonceBytes) with
    | none => exact answer_follows (leaves_answering hlocked)
    | some session => exact answer_follows (leaves_answering (state_of_acceptHello haccept))
  split
  · next hauthenticate =>
    unfold handleAuthenticate
    split
    · exact answer_follows (leaves_answering hlocked)
    refine follows_op fun digest => ⟨_, if_pos ⟨rfl, rfl, rfl, rfl⟩, ?_⟩
    split
    · next hnone =>
      rw [hnone]
      refine (sendResponse_follows fun _ => rfl).bind ?_
      rintro error _ rfl
      refine follows_pure (.inr ⟨⟨k.session, request, (compared k request rest none).left⟩, ?_,
        leaves_answering hlocked, rfl⟩)
      cases error <;> rfl
    · next session hsome =>
      rw [hsome]
      refine answer_follows ?_
      rw [compared, answering_eq (Nat.zero_le _) (hauthenticate ▸ by decide)
        (hauthenticate ▸ by decide)]
      exact decide_eq_true rfl
  · unfold handleAuthenticatedCommand
    rw [if_pos hlocked]
    exact answer_follows (leaves_answering hlocked)

theorem busy_answering {status : BridgeStatus} {payload : List UInt8} :
    (answering request status payload k rest goOn).busy = true := by
  unfold answering
  split
  · rfl
  · split <;> rfl

theorem busy_respond : (respond k request rest).busy = true := by
  unfold respond
  split
  · rfl
  split
  · exact busy_answering
  split
  · exact busy_answering
  split
  · split
    · exact busy_answering
    split
    · exact busy_answering
    · exact busy_answering
  split
  · split
    · exact busy_answering
    · rfl
  · exact busy_answering

/-- Where a request leads once it has been handled. -/
def Served (k : Keep) (rest : List UInt8) (result : EspErr × BridgeSession × Bool) (ph : Phase) :
    Prop :=
  Unlocked ph ∨
    ph = .at (written { k with session := result.2.1 } rest true result.1) none ∧
      result.2.2 = false

theorem next_handle {v : View} {session : BridgeSession} (hbusy : v.busy = true) (r : Unit) :
    ∃ ph, next context.pairingSecret originUs (.at v none) (.mark (.handle session request)) r =
        some ph ∧ (Unlocked ph ∨ ph = .at v (some ⟨session, request, v.left⟩)) := by
  cases v with
  | unlocked => exact ⟨_, rfl, .inl ⟨none, rfl⟩⟩
  | opening | waiting | idle | received => cases hbusy
  | _ => exact ⟨_, rfl, .inr rfl⟩

theorem next_handled {v : View} {h : Handling} {session after : BridgeSession} {error : EspErr}
    {beginProxy : Bool} (hafter : h.leaves after) (r : Unit) :
    ∃ ph, next context.pairingSecret originUs (.at v (some h))
        (.mark (.handled session request after error beginProxy)) r = some ph ∧
        (Unlocked ph ∨ ph = .at v none) := by
  cases v with
  | unlocked => exact ⟨_, rfl, .inl ⟨some h, rfl⟩⟩
  | _ => exact ⟨_, if_pos hafter, .inr rfl⟩

theorem tracedHandle_follows :
    (tracedHandle abstractTransport context k.session request).Follows
      (next context.pairingSecret originUs) (Served k rest)
      (.at (respond k request rest) none) := by
  refine follows_op fun r => ?_
  obtain ⟨ph, hnext, hph⟩ : ∃ ph, next context.pairingSecret originUs (.at (respond k request rest)
      none) (.mark (.handle k.session request)) r = some ph ∧ _ := next_handle busy_respond r
  refine ⟨ph, hnext, ?_⟩
  rcases hph with hunlocked | rfl
  · refine (unlocked_follows hunlocked _).mono ?_
    intro result ph hph
    exact .inl hph
  refine handleManagementMessage_follows.bind ?_
  rintro ⟨error, session, beginProxy⟩ ph (hunlocked | ⟨h, rfl, hafter, hproxy⟩)
  · refine (unlocked_follows hunlocked _).mono ?_
    intro result ph hph
    exact .inl hph
  · refine follows_op fun r => ?_
    obtain ⟨ph, hnext, hph⟩ := next_handled hafter r
    refine ⟨ph, hnext, follows_pure ?_⟩
    rcases hph with hunlocked | rfl
    · exact .inl hunlocked
    · exact .inr ⟨rfl, hproxy⟩

/-- Between two chunks: past authentication, finished, or waiting for the next. -/
def Rests (lastActivityUs : ℤ) (result : BridgeSession × BridgeMessageDecoder × Bool) (ph : Phase) :
    Prop :=
  Unlocked ph ∨ ph = .at
    (if result.2.2 then .closing else .waiting ⟨result.1, result.2.1, lastActivityUs⟩) none

theorem serve_nil (k : Keep) : serve k [] = .waiting k := rfl

/-- Going on with a chunk, or past authentication. -/
def Turning (lastActivityUs : ℤ) (input : List UInt8) (session : BridgeSession)
    (decoder : BridgeMessageDecoder) (offset : ℕ) (ph : Phase) : Prop :=
  Unlocked ph ∨ ph = .at (serve ⟨session, decoder, lastActivityUs⟩ (input.drop offset)) none

theorem turning_end {lastActivityUs : ℤ} {input : List UInt8} {session : BridgeSession}
    {decoder : BridgeMessageDecoder} {offset : ℕ} (hend : input.length ≤ offset) :
    Turning lastActivityUs input session decoder offset
      (.at (.waiting ⟨session, decoder, lastActivityUs⟩) none) := by
  rw [Turning, List.drop_of_length_le hend, serve_nil]
  exact .inr rfl

def inputWalk (originUs lastActivityUs : ℤ) (input : List UInt8) :
    InputWalk (next context.pairingSecret originUs) abstractTransport context input where
  turning := Turning lastActivityUs input
  done := Rests lastActivityUs
  finish := by
    rintro session decoder offset ph (hunlocked | rfl) hend
    · exact .inl hunlocked
    · rw [List.drop_of_length_le hend, serve_nil]
      exact .inr rfl
  more := by
    rintro session decoder decoder' offset consumed ph (hunlocked | rfl) hlt hpush
    · exact .inl hunlocked
    · have hlength := consumed_of_needMore hpush
      rw [List.length_drop] at hlength
      rw [serve, hpush]
      exact turning_end (by omega)
  ready := by
    rintro session decoder decoder' offset consumed ph request (hunlocked | rfl) hlt hpush
    · refine (unlocked_follows hunlocked _).mono fun result ph hunlocked => ?_
      split
      · exact .inl hunlocked
      split
      · exact (unlocked_follows hunlocked _).mono fun _ _ => .inl
      · exact .inl hunlocked
    · rw [serve, hpush]
      refine (tracedHandle_follows (k := ⟨session, decoder', lastActivityUs⟩)).mono ?_
      rintro ⟨error, session', beginProxy⟩ ph (hunlocked | ⟨rfl, hproxy⟩)
      · dsimp only
        split
        · exact .inl hunlocked
        split
        · exact (unlocked_follows hunlocked _).mono fun _ _ => .inl
        · exact .inl hunlocked
      · obtain rfl : beginProxy = false := hproxy
        dsimp only
        rw [written]
        by_cases herror : error = .ok
        · rw [if_neg (not_not.mpr herror), if_pos herror, if_neg Bool.false_ne_true, finish,
            if_pos rfl, List.drop_drop]
          exact .inr rfl
        · rw [if_pos herror, if_neg herror]
          exact .inr rfl
  refuse := by
    rintro session decoder decoder' offset consumed ph decoded (hunlocked | rfl) hlt hpush hrefused
    · exact (unlocked_follows hunlocked _).mono fun _ _ => .inl
    · rw [serve, hpush]
      obtain rfl | rfl := hrefused
      all_goals
        refine (sendResponse_follows (absurd · Bool.false_ne_true)).mono ?_
        rintro error _ rfl
        rw [written, finish, if_neg Bool.false_ne_true, ite_self]
        exact .inr rfl

theorem handleInput_follows {input : List UInt8} {session : BridgeSession}
    {decoder : BridgeMessageDecoder} {lastActivityUs : ℤ} :
    (handleInput abstractTransport context input session decoder).Follows
      (next context.pairingSecret originUs) (Rests lastActivityUs)
      (.at (serve ⟨session, decoder, lastActivityUs⟩ input) none) :=
  (inputWalk originUs lastActivityUs input).follows (.inr rfl)

theorem next_random {nonce sessionId : List UInt8} (value : Vector UInt8 bridgeNonceBytes)
    (value' : Vector UInt8 bridgeSessionIdBytes) :
    next context.pairingSecret originUs (.starting nonce sessionId) (.fillRandom bridgeNonceBytes)
      value = some (.starting value.toList sessionId) ∧
    next context.pairingSecret originUs (.starting nonce sessionId)
      (.fillRandom bridgeSessionIdBytes) value' = some (.starting nonce value'.toList) := by
  constructor
  · rw [next, if_pos rfl]
  · rw [next, if_neg (by decide), if_pos rfl]

def clientWalk (originUs : ℤ) :
    ClientWalk (next context.pairingSecret originUs) abstractTransport context where
  turning session decoder lastActivityUs ph :=
    Unlocked ph ∨ ph = .at (.waiting ⟨session, decoder, lastActivityUs - originUs⟩) none
  ended _ ph := Unlocked ph ∨ ph = .at .closing none
  receive := by
    rintro session decoder lastActivityUs ph (hunlocked | rfl)
    · refine (unlocked_follows hunlocked _).mono fun received ph hunlocked => ?_
      match received with
      | .closed | .error .other | .error .eintr => exact .inl hunlocked
      | .error .eagain =>
        refine (unlocked_follows hunlocked _).mono fun nowUs ph hunlocked => ?_
        split
        · exact .inl hunlocked
        · exact .inl hunlocked
      | .data input =>
        refine (unlocked_follows hunlocked _).mono fun nowUs ph hunlocked => ?_
        refine (unlocked_follows hunlocked _).mono fun result ph hunlocked => ?_
        split
        · exact .inl hunlocked
        · exact .inl hunlocked
    refine follows_last fun received => ?_
    match received with
    | .closed => exact ⟨_, next_received rfl, .inr rfl⟩
    | .error .eintr => exact ⟨_, next_received rfl, .inr rfl⟩
    | .error .other => exact ⟨_, next_received rfl, .inr rfl⟩
    | .error .eagain =>
      refine ⟨_, next_received rfl, ?_⟩
      refine follows_last fun (nowUs : ℤ) => ⟨_, next_observed rfl rfl rfl Query.noConfusion, ?_⟩
      have helapsed : nowUs - originUs - (lastActivityUs - originUs) = nowUs - lastActivityUs := by
        omega
      dsimp only
      rw [helapsed]
      split
      · exact .inr rfl
      · exact .inr rfl
    | .data input =>
      refine ⟨_, next_received rfl, ?_⟩
      refine follows_last fun (nowUs : ℤ) => ⟨_, next_observed rfl rfl rfl Query.noConfusion, ?_⟩
      refine handleInput_follows.mono ?_
      rintro ⟨session, decoder, finished⟩ ph (hunlocked | rfl)
      · cases finished <;> exact .inl hunlocked
      · cases finished <;> exact .inr rfl

theorem clientTask_follows :
    (clientTask abstractTransport context).Follows (next context.pairingSecret originUs)
      (fun _ _ => True) (.starting [] []) := by
  apply (clientWalk originUs).follows
  · refine follows_op fun _ => ⟨_, rfl, ?_⟩
    refine follows_op fun nonce => ⟨_, (next_random nonce (.replicate _ 0)).1, ?_⟩
    refine follows_op fun sessionId => ⟨_, (next_random nonce sessionId).2, ?_⟩
    refine follows_op fun _ => ⟨_, if_pos ⟨rfl, rfl, rfl⟩, ?_⟩
    refine follows_op fun (startedUs : ℤ) => ⟨_, next_observed rfl rfl rfl Query.noConfusion, ?_⟩
    exact follows_pure (.inr rfl)
  rintro session ph (hunlocked | rfl)
  · exact (unlocked_follows hunlocked _).mono fun _ _ _ => trivial
  refine follows_op fun _ => ⟨.at .closing none, rfl, ?_⟩
  refine follows_op fun _ => ⟨_, next_observed rfl rfl rfl Query.noConfusion, ?_⟩
  refine follows_op fun _ => ⟨_, next_observed rfl rfl rfl Query.noConfusion, ?_⟩
  refine follows_op fun _ => ⟨_, next_silent rfl _, ?_⟩
  exact follows_last fun _ => ⟨_, rfl, trivial⟩

end Follows

end Conversation
end FlipforgeBridge
