import FlipforgeBridge.Connection.System
import FlipforgeBridge.Connection.Traversal

/-!
The authentication gate over a whole connection: what is reserved to an authenticated client
happens only after one accepted `Hello` and a proof of the pairing secret bound to its nonce.
-/
namespace FlipforgeBridge
open Process

namespace Gate

abbrev Entry := Label platform Unit

/-- The calls and answers reserved to an authenticated client. -/
def reserved : Op → Bool
  | .transport .beginRpc | .transport .requestReconnect => true
  | .mark (.respond request .ok _) =>
    [BridgeCommand.getBridgeInfo, .getStatus, .ping].any fun c => request.command = c.toByte
  | _ => false

/-- The payload of a `Hello` that took the session out of `AwaitingHello`. -/
def acceptedHello (l : Entry) : Option (List UInt8) :=
  match l.op with
  | .mark (.handled before request after _ _) =>
    if before.state = .awaitingHello ∧ after.state = .awaitingAuthentication ∧
      request.command = BridgeCommand.hello.toByte then some request.payload else none
  | _ => none

/-- What the HMAC is taken of, for a client that chose the nonce `nonce`. -/
def proofMaterial (setting : Setting) (nonce : List UInt8) : List UInt8 :=
  authContext ++ [1] ++ nonce ++ (setting.random bridgeNonceBytes).toList ++
    (setting.random bridgeSessionIdBytes).toList

/-- An `Authenticate` with the right 32-byte proof, processed in `AwaitingAuthentication`. -/
def proves (setting : Setting) (nonce : List UInt8) (l : Entry) : Prop :=
  ∃ before request after error beginProxy,
    l.op = .mark (.handled before request after error beginProxy) ∧
    before.state = .awaitingAuthentication ∧ after.state = .authenticated ∧
    request.command = BridgeCommand.authenticate.toByte ∧
    request.payload.length = bridgeHmacBytes ∧
    request.payload =
      (setting.hmac setting.context.pairingSecret (proofMaterial setting nonce)).toList

structure Unlocked (setting : Setting) (nonce : List UInt8) (past : List Entry) : Prop where
  hello : past.filterMap acceptedHello = [nonce]
  length : nonce.length = bridgeNonceBytes
  proof : ∃ l ∈ past, proves setting nonce l

/-- The position of a state in the life of a session. -/
def rank : BridgeSessionState → ℕ
  | .awaitingHello => 0
  | .awaitingAuthentication => 1
  | .authenticated => 2
  | .proxying => 3
  | .closed => 4

/-- The session state recorded by an entry. -/
def stateOf (l : Entry) : Option BridgeSessionState :=
  match l.op with
  | .mark (.session session) => some session.state
  | .mark (.handle session _) => some session.state
  | .mark (.handled _ _ after _ _) => some after.state
  | _ => none

def isComparison (l : Entry) : Bool :=
  match l.op with
  | .hmacSha256 _ _ => true
  | _ => false

/-- The error a handled request ended with. -/
def errorOf (l : Entry) : Option EspErr :=
  match l.op with
  | .mark (.handled _ _ _ error _) => some error
  | _ => none

/-- The bridge goes on reading or serving the connection. -/
def isServing (l : Entry) : Bool :=
  match l.op with
  | .recv _ _ | .mark (.handle _ _) => true
  | _ => false

/-- What the gate demands of one entry of a connection's trace. -/
structure Guarded (setting : Setting) (l : Entry) (past : List Entry) : Prop where
  reserved : reserved l.op → ∃ nonce, Unlocked setting nonce past
  forward : ∀ state ∈ stateOf l, ∀ state' ∈ past.filterMap stateOf, rank state' ≤ rank state
  once : isComparison l → ∀ l' ∈ past, ¬ isComparison l'
  /-- After a comparison, a request either leaves the session authenticated or fails. -/
  mismatch : ∀ error ∈ errorOf l, stateOf l = some .awaitingAuthentication →
    (∃ l' ∈ past, isComparison l') → error ≠ .ok
  closes : isServing l → ∀ error ∈ past.filterMap errorOf, error = .ok

/-! ### The role of the client task -/

inductive Phase
  | opening (nonce sessionId : List UInt8)
  | managing (session : BridgeSession)
  | handling (session : BridgeSession) (request : BridgeMessage)
  | compared (session : BridgeSession) (request : BridgeMessage)
      (digest : Option (Vector UInt8 bridgeHmacBytes))
  | closing

/-- Operations the gate does not look at. -/
def quiet : Op → Bool
  | .fillRandom _ | .hmacSha256 _ _ | .recv _ _ => false
  | .mark (.session _) | .mark (.handle _ _) | .mark (.handled _ _ _ _ _) => false
  | o => !reserved o

/-- How a request may change the session when no proof is compared. -/
def movesTo (session : BridgeSession) (request : BridgeMessage) (after : BridgeSession) : Bool :=
  after = session ||
    (request.command = BridgeCommand.hello.toByte && request.payload.length = bridgeNonceBytes &&
      bridgeSessionAcceptHello session (request.payloadArray bridgeNonceBytes) = some after) ||
    bridgeSessionBeginProxy session = some after

/-- How a compared proof ends. -/
def verdict (session : BridgeSession) (request : BridgeMessage)
    (digest : Option (Vector UInt8 bridgeHmacBytes)) (after : BridgeSession) (error : EspErr) :
    Bool :=
  match digest.bind fun expected =>
      bridgeSessionAuthenticate session expected (request.payloadArray bridgeHmacBytes) with
  | none => after = session && error ≠ .ok
  | some session => after = session

def Phase.served (after : BridgeSession) (error : EspErr) : Phase :=
  if error = .ok then .managing after else .closing

def next (setting : Setting) : Phase → (o : Op) → o.Res → Option Phase
  | .opening nonce sessionId, .fillRandom n, value =>
    if n = bridgeNonceBytes then some (.opening value.toList sessionId)
    else if n = bridgeSessionIdBytes then some (.opening nonce value.toList)
    else none
  | .opening nonce sessionId, .mark (.session session), _ =>
    if session.state = .awaitingHello ∧ session.bridgeNonce.toList = nonce ∧
      session.sessionId.toList = sessionId then some (.managing session) else none
  | .managing session, .recv _ _, _ => some (.managing session)
  | .managing session, .mark (.handle session' request), _ =>
    if session' = session then some (.handling session request) else none
  | .managing _, .mark (.session session), _ | .closing, .mark (.session session), _ =>
    if session.state = .closed then some .closing else none
  | .handling session request, .hmacSha256 key message, digest =>
    if session.state = .awaitingAuthentication ∧
      request.command = BridgeCommand.authenticate.toByte ∧
      request.payload.length = bridgeHmacBytes ∧ key = setting.context.pairingSecret ∧
      message = bridgeSessionAuthMaterial session 128 then
      some (.compared session request digest)
    else none
  | .handling session request, .mark (.handled before request' after error _), _ =>
    if before = session ∧ request' = request ∧ movesTo session request after then
      some (.served after error)
    else none
  | .compared session request digest, .mark (.handled before request' after error _), _ =>
    if before = session ∧ request' = request ∧ verdict session request digest after error then
      some (.served after error)
    else none
  | .handling session request, o, _ =>
    if quiet o ∨ (reserved o ∧ session.state = .authenticated) then
      some (.handling session request)
    else none
  | ph, o, _ => if quiet o then some ph else none

variable {setting : Setting} {session : BridgeSession} {request : BridgeMessage}

theorem next_quiet {ph : Phase} {o : Op} (h : quiet o = true) (r : o.Res) :
    next setting ph o r = some ph := by
  unfold next
  split <;> simp_all [quiet]

theorem next_reserved {o : Op} (h : reserved o = true) (hs : session.state = .authenticated)
    (r : o.Res) :
    next setting (.handling session request) o r = some (.handling session request) := by
  unfold next
  split <;> simp_all [reserved]

/-- A handler ends where its result can be recorded. -/
def Ends (setting : Setting) (session : BridgeSession) (request : BridgeMessage)
    (result : EspErr × BridgeSession × Bool) (ph : Phase) : Prop :=
  next setting ph (.mark (.handled session request result.2.1 result.1 result.2.2)) () =
    some (.served result.2.1 result.1)

theorem ends_of_movesTo {error : EspErr} {after : BridgeSession} {beginProxy : Bool}
    (h : movesTo session request after = true) :
    Ends setting session request (error, after, beginProxy) (.handling session request) := by
  simp [Ends, next, h]

theorem movesTo_self : movesTo session request session = true := by simp [movesTo]

/-- Answering changes nothing, where the answer is allowed. -/
theorem sendResponse_follows {ph : Phase} {status : BridgeStatus} {payload : List UInt8}
    (h : next setting ph (.mark (.respond request status payload)) () = some ph) :
    (sendResponse setting.context.socket request status payload).Follows (next setting)
      (fun _ ph' => ph' = ph) ph := by
  have honly : (sendResponse setting.context.socket request status payload).Only
      fun o => ∀ r, next setting ph o r = some ph :=
    sendResponse_only (fun _ => h) fun _ _ => next_quiet rfl _
  exact honly.follows

theorem answer_follows {status : BridgeStatus} {payload : List UInt8} {after : BridgeSession}
    (hmark : next setting (.handling session request)
      (.mark (.respond request status payload)) () = some (.handling session request))
    (h : movesTo session request after = true) :
    (answer setting.context.socket after request status payload).Follows (next setting)
        (Ends setting session request) (.handling session request) := by
  refine (sendResponse_follows hmark).bind ?_
  rintro error _ rfl
  exact follows_pure (ends_of_movesTo h)

theorem next_refuse {ph : Phase} {status : BridgeStatus} {payload : List UInt8}
    (h : status ≠ .ok) :
    next setting ph (.mark (.respond request status payload)) () = some ph :=
  next_quiet (by cases status <;> first | rfl | exact absurd rfl h) _

theorem refuse_follows {status : BridgeStatus} {payload : List UInt8} (h : status ≠ .ok) :
    (answer setting.context.socket session request status payload).Follows (next setting)
        (Ends setting session request) (.handling session request) :=
  answer_follows (next_refuse h) movesTo_self

section Authenticated
variable (hs : session.state = .authenticated)
include hs

theorem next_reply {payload : List UInt8} : next setting (.handling session request)
    (.mark (.respond request .ok payload)) () = some (.handling session request) := by
  cases hr : reserved (.mark (.respond request .ok payload)) with
  | true => exact next_reserved hr hs _
  | false => exact next_quiet (by simp [quiet, hr]) _

theorem answerJson_follows (json : String) :
    (answerJson setting.context.socket session request json).Follows (next setting)
        (Ends setting session request) (.handling session request) := by
  unfold answerJson
  split
  · exact follows_pure (ends_of_movesTo movesTo_self)
  · exact answer_follows (next_reply hs) movesTo_self

theorem getBridgeInfo_follows :
    (getBridgeInfo abstractTransport setting.context.socket session request).Follows
      (next setting) (Ends setting session request) (.handling session request) := by
  unfold getBridgeInfo
  split
  · exact refuse_follows (by decide)
  · refine follows_stay (next_quiet rfl) fun _ => ?_
    refine follows_stay (next_quiet rfl) fun _ => ?_
    refine follows_stay (next_quiet rfl) fun _ => ?_
    refine follows_stay (next_quiet rfl) fun _ => ?_
    exact answerJson_follows hs _

theorem getStatus_follows :
    (getStatus abstractTransport setting.context.socket session request).Follows
      (next setting) (Ends setting session request) (.handling session request) := by
  unfold getStatus
  split
  · exact refuse_follows (by decide)
  · refine follows_stay (next_quiet rfl) fun _ => ?_
    refine follows_stay (next_quiet rfl) fun _ => ?_
    refine follows_stay (next_quiet rfl) fun _ => ?_
    exact answerJson_follows hs _

theorem beginRpcProxy_follows :
    (beginRpcProxy abstractTransport setting.context.socket session request).Follows
      (next setting) (Ends setting session request) (.handling session request) := by
  unfold beginRpcProxy
  refine .bind (S := fun _ ph => ph = .handling session request) ?_ ?_
  · split
    · exact follows_pure rfl
    · exact follows_stay (next_quiet rfl) fun _ => follows_pure rfl
  rintro refused _ rfl
  split
  · exact follows_stay (next_reserved rfl hs) fun _ => refuse_follows (by decide)
  refine follows_stay (next_reserved rfl hs) fun error => ?_
  split
  · exact refuse_follows (by decide)
  split
  · exact follows_stay (next_quiet rfl) fun _ => follows_pure (ends_of_movesTo movesTo_self)
  · next after hafter =>
    have moves : movesTo session request after = true := by simp [movesTo, hafter]
    refine (sendResponse_follows (next_reply hs)).bind ?_
    rintro error _ rfl
    split
    · exact follows_stay (next_quiet rfl) fun _ => follows_pure (ends_of_movesTo moves)
    · exact follows_pure (ends_of_movesTo moves)

theorem endRpcProxy_follows :
    (endRpcProxy setting.context.socket session request).Follows
      (next setting) (Ends setting session request) (.handling session request) := by
  unfold endRpcProxy
  split
  · exact refuse_follows (by decide)
  · exact answer_follows (next_reply hs) movesTo_self

end Authenticated

theorem handleAuthenticatedCommand_follows :
    (handleAuthenticatedCommand abstractTransport setting.context session request).Follows
      (next setting) (Ends setting session request) (.handling session request) := by
  unfold handleAuthenticatedCommand
  split
  · exact refuse_follows (by decide)
  rename_i hs
  rw [not_not] at hs
  split
  · exact getBridgeInfo_follows hs
  split
  · exact getStatus_follows hs
  split
  · exact answer_follows (next_reply hs) movesTo_self
  split
  · exact beginRpcProxy_follows hs
  split
  · exact endRpcProxy_follows hs
  · exact refuse_follows (by decide)

/-- The answer to a `Hello` is not a reserved one. -/
theorem handleHello_follows (hcommand : request.command = BridgeCommand.hello.toByte) :
    (handleHello setting.context.socket session request).Follows
      (next setting) (Ends setting session request) (.handling session request) := by
  unfold handleHello
  split
  · exact refuse_follows (by decide)
  rename_i hlength
  rw [not_not] at hlength
  split
  · exact refuse_follows (by decide)
  · next after hafter =>
    refine answer_follows (next_quiet ?_ _) ?_
    · simp [quiet, reserved, hcommand, BridgeCommand.toByte]
    · simp [movesTo, hcommand, hlength, hafter]

theorem handleAuthenticate_follows
    (hcommand : request.command = BridgeCommand.authenticate.toByte) :
    (handleAuthenticate setting.context session request).Follows
      (next setting) (Ends setting session request) (.handling session request) := by
  unfold handleAuthenticate
  split
  · exact refuse_follows (by decide)
  rename_i h
  rw [not_or, not_not, not_not] at h
  refine follows_op fun digest => ⟨.compared session request digest, ?_, ?_⟩
  · simp [next, h, hcommand]
  split
  · next hnone =>
    refine (sendResponse_follows (next_refuse (by decide))).bind ?_
    rintro _ _ rfl
    exact follows_pure (by simp [Ends, next, verdict, hnone])
  · next after hafter =>
    refine (sendResponse_follows (next_quiet ?_ _)).bind ?_
    · simp [quiet, reserved, hcommand, BridgeCommand.toByte]
    · rintro error _ rfl
      exact follows_pure (by simp [Ends, next, verdict, hafter])

theorem handleManagementMessage_follows :
    (handleManagementMessage abstractTransport setting.context session request).Follows
      (next setting) (Ends setting session request) (.handling session request) := by
  unfold handleManagementMessage
  split
  · exact refuse_follows (by decide)
  split
  · exact refuse_follows (by decide)
  split
  · exact handleHello_follows ‹_›
  split
  · exact handleAuthenticate_follows ‹_›
  · exact handleAuthenticatedCommand_follows

theorem tracedHandle_follows :
    (tracedHandle abstractTransport setting.context session request).Follows (next setting)
      (fun result ph => ph = .served result.2.1 result.1) (.managing session) := by
  refine follows_op fun _ => ⟨.handling session request, by simp [next], ?_⟩
  refine handleManagementMessage_follows.bind fun result ph hend => ?_
  exact follows_op fun _ => ⟨_, hend, follows_pure rfl⟩

theorem next_recv {socket n : ℕ} (r : RecvResult) :
    next setting (.managing session) (.recv socket n) r = some (.managing session) := rfl

theorem next_relaying {socket : ℕ} {o : Op} (h : relaying socket o = true) (r : o.Res) :
    next setting (.managing session) o r = some (.managing session) := by
  cases o with
  | recv => exact next_recv r
  | _ => first | exact next_quiet rfl r | cases h

/-- Raw mode happens with the gate open and asks nothing more of it. -/
theorem rpcProxyRun_follows {socket : ℕ} {initial : List UInt8} :
    (rpcProxyRun abstractTransport socket initial).Follows (next setting)
      (fun _ ph => ph = .managing session) (.managing session) :=
  rpcProxyRun_keeps (fun _ ho => next_relaying ho) (keeps_last (next_quiet rfl))
    (keeps_last (next_quiet rfl)) fun _ => keeps_last (next_quiet rfl)

/-- Between two chunks the client task is managing a session or finished. -/
def Rests (session : BridgeSession) (finished : Bool) (ph : Phase) : Prop :=
  ph = .managing session ∨ finished = true ∧ ph = .closing

def inputWalk (input : List UInt8) :
    InputWalk (next setting) abstractTransport setting.context input where
  turning session _ _ ph := ph = .managing session
  done result ph := Rests result.1 result.2.2 ph
  finish h _ := .inl h
  more h _ _ := h
  ready := by
    rintro session _ _ _ _ _ _ rfl - -
    refine tracedHandle_follows.mono ?_
    rintro ⟨error, after, beginProxy⟩ _ rfl
    dsimp only
    split
    · next herror => exact .inr ⟨rfl, if_neg herror⟩
    · next herror =>
      rw [not_not] at herror
      rw [Phase.served, if_pos herror]
      split
      · exact rpcProxyRun_follows.mono fun _ _ h => .inl h
      · rfl
  refuse := by
    rintro session _ _ _ _ _ _ rfl - - -
    refine (sendResponse_follows (next_refuse ?_)).mono ?_
    · split <;> decide
    · rintro _ _ rfl
      exact .inl rfl

theorem handleInput_follows {input : List UInt8} {decoder : BridgeMessageDecoder} :
    (handleInput abstractTransport setting.context input session decoder).Follows (next setting)
      (fun result ph => Rests result.1 result.2.2 ph) (.managing session) :=
  (inputWalk input).follows rfl

def clientWalk : ClientWalk (next setting) abstractTransport setting.context where
  turning session _ _ ph := ph = .managing session
  ended session ph := Rests session true ph
  receive := by
    rintro session _ _ _ rfl
    refine follows_last fun received => ⟨.managing session, next_recv received, ?_⟩
    cases received with
    | closed => exact .inl rfl
    | error errno =>
      cases errno with
      | eintr => rfl
      | eagain =>
        refine follows_last fun nowUs => ⟨.managing session, next_quiet rfl _, ?_⟩
        split
        · rfl
        · exact .inl rfl
      | other => exact .inl rfl
    | data input =>
      refine follows_last fun nowUs => ⟨.managing session, next_quiet rfl _, ?_⟩
      refine handleInput_follows.mono ?_
      rintro ⟨session, decoder, finished⟩ ph hrest
      cases finished with
      | true => exact hrest
      | false => exact hrest.resolve_right fun h => Bool.false_ne_true h.1

theorem clientTask_follows :
    (clientTask abstractTransport setting.context).Follows (next setting) (fun _ _ => True)
      (.opening [] []) := by
  apply clientWalk.follows
  · refine follows_stay (next_quiet rfl) fun _ => ?_
    refine follows_op fun nonce => ⟨.opening nonce.toList [], rfl, ?_⟩
    refine follows_op fun sessionId => ⟨.opening nonce.toList sessionId.toList, rfl, ?_⟩
    refine follows_op fun _ => ⟨.managing (bridgeSessionInit nonce sessionId),
      by simp [next, bridgeSessionInit], ?_⟩
    exact follows_stay (next_quiet rfl) fun startedUs => follows_pure rfl
  intro session ph hrest
  have hclosed : next setting ph (.mark (.session (bridgeSessionClose session))) () =
      some .closing := by
    rcases hrest with rfl | ⟨-, rfl⟩ <;> rfl
  refine follows_op fun _ => ⟨.closing, hclosed, ?_⟩
  refine follows_stay (next_quiet rfl) fun _ => ?_
  refine follows_stay (next_quiet rfl) fun _ => ?_
  refine follows_stay (next_quiet rfl) fun _ => ?_
  exact follows_last fun _ => ⟨_, next_quiet rfl _, trivial⟩

/-! ### The gate -/

/-- What the trace shows of the session a client task is holding. -/
structure Knows (setting : Setting) (session : BridgeSession) (past : List Entry) : Prop where
  bridgeNonce : session.bridgeNonce = setting.random bridgeNonceBytes
  sessionId : session.sessionId = setting.random bridgeSessionIdBytes
  unheard : session.state = .awaitingHello → past.filterMap acceptedHello = []
  heard : session.state ≠ .awaitingHello →
    past.filterMap acceptedHello = [session.clientNonce.toList]
  proved : rank .authenticated ≤ rank session.state →
    ∃ l ∈ past, proves setting session.clientNonce.toList l
  states : ∀ state ∈ past.filterMap stateOf, rank state ≤ rank session.state
  errors : ∀ error ∈ past.filterMap errorOf, error = .ok

/-- No proof has been compared unless the session is authenticated. -/
def Fresh (session : BridgeSession) (past : List Entry) : Prop :=
  rank session.state < rank .authenticated → ∀ l ∈ past, ¬ isComparison l

/-- The invariant of the client task's role. -/
def Holds (setting : Setting) : Phase → List Entry → Prop
  | .opening nonce sessionId, past =>
    (nonce = [] ∨ nonce = (setting.random bridgeNonceBytes).toList) ∧
    (sessionId = [] ∨ sessionId = (setting.random bridgeSessionIdBytes).toList) ∧
    past.filterMap acceptedHello = [] ∧ past.filterMap stateOf = [] ∧
    past.filterMap errorOf = [] ∧ ∀ l ∈ past, ¬ isComparison l
  | .managing session, past | .handling session _, past =>
    Knows setting session past ∧ Fresh session past
  | .compared session request digest, past =>
    Knows setting session past ∧ session.state = .awaitingAuthentication ∧
    request.command = BridgeCommand.authenticate.toByte ∧
    request.payload.length = bridgeHmacBytes ∧
    ∀ expected ∈ digest, expected = setting.hmac setting.context.pairingSecret
      (proofMaterial setting session.clientNonce.toList)
  | .closing, _ => True

theorem Knows.unlocked {past : List Entry} (h : Knows setting session past)
    (hs : session.state = .authenticated) :
    Unlocked setting session.clientNonce.toList past where
  hello := h.heard (by simp [hs])
  length := by simp
  proof := h.proved (by simp [hs])

theorem Knows.material {past : List Entry} (h : Knows setting session past) :
    bridgeSessionAuthMaterial session 128 =
      proofMaterial setting session.clientNonce.toList := by
  rw [bridgeSessionAuthMaterial_eq, h.bridgeNonce, h.sessionId]
  rfl

/-- Entries that do not concern the session. -/
structure Blank (l : Entry) : Prop where
  hello : acceptedHello l = none
  state : stateOf l = none
  error : errorOf l = none
  comparison : isComparison l = false

theorem blank_of_quiet {o : Op} {r : o.Res} (h : quiet o = true) : Blank ⟨(), o, r⟩ := by
  constructor
  · unfold acceptedHello
    split
    · simp_all [quiet]
    · rfl
  · unfold stateOf
    split <;> simp_all [quiet]
  · unfold errorOf
    split <;> simp_all [quiet]
  · unfold isComparison
    split <;> simp_all [quiet]

theorem blank_of_reserved {o : Op} {r : o.Res} (h : reserved o = true) : Blank ⟨(), o, r⟩ := by
  constructor
  · unfold acceptedHello
    split
    · simp_all [reserved]
    · rfl
  · unfold stateOf
    split <;> simp_all [reserved]
  · unfold errorOf
    split <;> simp_all [reserved]
  · unfold isComparison
    split <;> simp_all [reserved]

theorem isServing_of_quiet {o : Op} {r : o.Res} (h : quiet o = true) :
    isServing ⟨(), o, r⟩ = false := by
  unfold isServing
  split <;> simp_all [quiet]

theorem not_reserved_of_quiet {o : Op} (h : quiet o = true) : reserved o = false := by
  unfold quiet at h
  split at h <;> simp_all

/-- Blank entries leave what is known alone. -/
theorem Holds.blank {ph : Phase} {past : List Entry} {l : Entry} (h : Holds setting ph past)
    (hl : Blank l) : Holds setting ph (l :: past) := by
  have hknows : ∀ {session}, Knows setting session past → Knows setting session (l :: past) := by
    intro session h
    have proved := h.proved
    exact { h with
      unheard := by simpa [hl.hello] using h.unheard
      heard := by simpa [hl.hello] using h.heard
      proved := fun hr => (proved hr).imp fun _ hp => ⟨.tail _ hp.1, hp.2⟩
      states := by simpa [hl.state] using h.states
      errors := by simpa [hl.error] using h.errors }
  have hfresh : ∀ {session}, Fresh session past → Fresh session (l :: past) := by
    intro session h hr
    simpa [hl.comparison] using h hr
  cases ph with
  | opening nonce sessionId =>
    obtain ⟨h1, h2, h3, h4, h5, h6⟩ := h
    refine ⟨h1, h2, ?_, ?_, ?_, ?_⟩
    · simpa [hl.hello] using h3
    · simpa [hl.state] using h4
    · simpa [hl.error] using h5
    · simpa [hl.comparison] using h6
  | managing session => exact ⟨hknows h.1, hfresh h.2⟩
  | handling session request => exact ⟨hknows h.1, hfresh h.2⟩
  | compared session request digest => exact ⟨hknows h.1, h.2⟩
  | closing => trivial

theorem guarded_of_blank {l : Entry} {past : List Entry} (hl : Blank l)
    (hserving : isServing l → ∀ error ∈ past.filterMap errorOf, error = .ok)
    (hreserved : reserved l.op → ∃ nonce, Unlocked setting nonce past) :
    Guarded setting l past where
  reserved := hreserved
  forward := by simp [hl.state]
  once := by simp [hl.comparison]
  mismatch := by simp [hl.error]
  closes := hserving

theorem rank_le_closed (state : BridgeSessionState) : rank state ≤ rank .closed := by
  cases state <;> decide

/-- The entry made when a request has been handled. -/
abbrev handledEntry (session : BridgeSession) (request : BridgeMessage) (after : BridgeSession)
    (error : EspErr) (beginProxy : Bool) : Entry :=
  ⟨(), .mark (.handled session request after error beginProxy), ()⟩

/-- What is known of the new session when a request moves it, if the move is accounted for. -/
theorem Knows.handled {after : BridgeSession} {error : EspErr} {beginProxy : Bool}
    {past : List Entry} (h : Knows setting session past)
    (hnonces : after.bridgeNonce = session.bridgeNonce ∧ after.sessionId = session.sessionId)
    (hrank : rank session.state ≤ rank after.state)
    (hhello : acceptedHello (handledEntry session request after error beginProxy) = none ∧
        after.clientNonce = session.clientNonce ∧
        (after.state = .awaitingHello ↔ session.state = .awaitingHello) ∨
      acceptedHello (handledEntry session request after error beginProxy) =
        some after.clientNonce.toList ∧ session.state = .awaitingHello ∧
        after.state ≠ .awaitingHello)
    (hproof : rank .authenticated ≤ rank after.state →
      rank .authenticated ≤ rank session.state ∧ after.clientNonce = session.clientNonce ∨
      proves setting after.clientNonce.toList
        (handledEntry session request after error beginProxy))
    (herror : error = .ok) :
    Knows setting after (handledEntry session request after error beginProxy :: past) where
  bridgeNonce := hnonces.1.trans h.bridgeNonce
  sessionId := hnonces.2.trans h.sessionId
  unheard hs := by
    rcases hhello with ⟨hnone, -, hiff⟩ | ⟨-, -, hne⟩
    · rw [List.filterMap_cons_none hnone]
      exact h.unheard (hiff.mp hs)
    · exact absurd hs hne
  heard hs := by
    rcases hhello with ⟨hnone, hnonce, hiff⟩ | ⟨hsome, hs', -⟩
    · rw [List.filterMap_cons_none hnone, hnonce]
      exact h.heard fun hs' => hs (hiff.mpr hs')
    · rw [List.filterMap_cons_some hsome, h.unheard hs']
  proved hr := by
    rcases hproof hr with ⟨hr', hnonce⟩ | hproof
    · obtain ⟨l, hl, hp⟩ := h.proved hr'
      exact ⟨l, .tail _ hl, hnonce ▸ hp⟩
    · exact ⟨_, .head _, hproof⟩
  states state hstate := by
    have hl : stateOf (handledEntry session request after error beginProxy) =
        some after.state := rfl
    rw [List.filterMap_cons_some hl, List.mem_cons] at hstate
    rcases hstate with rfl | hstate
    · exact Nat.le_refl _
    · exact Nat.le_trans (h.states state hstate) hrank
  errors e he := by
    have hl : errorOf (handledEntry session request after error beginProxy) = some error := rfl
    rw [List.filterMap_cons_some hl, List.mem_cons] at he
    rcases he with rfl | he
    · exact herror
    · exact h.errors e he

theorem guarded_handled {after : BridgeSession} {error : EspErr} {beginProxy : Bool}
    {past : List Entry} (h : Knows setting session past)
    (hrank : rank session.state ≤ rank after.state)
    (hmismatch : after.state = .awaitingAuthentication → (∃ l ∈ past, isComparison l) →
      error ≠ .ok) :
    Guarded setting (handledEntry session request after error beginProxy) past where
  reserved h := absurd h Bool.false_ne_true
  forward state hstate state' hstate' := by
    cases hstate
    exact Nat.le_trans (h.states state' hstate') hrank
  once h := absurd h Bool.false_ne_true
  mismatch e he hs := by
    cases he
    exact hmismatch (Option.some_inj.mp hs)
  closes h := absurd h Bool.false_ne_true

theorem acceptHello_eq_some {nonce : Vector UInt8 bridgeNonceBytes} {after : BridgeSession} :
    bridgeSessionAcceptHello session nonce = some after ↔ session.state = .awaitingHello ∧
      after = { session with clientNonce := nonce, state := .awaitingAuthentication } := by
  simp [bridgeSessionAcceptHello, eq_comm]

theorem beginProxy_eq_some {after : BridgeSession} :
    bridgeSessionBeginProxy session = some after ↔
      session.state = .authenticated ∧ after = { session with state := .proxying } := by
  simp [bridgeSessionBeginProxy, eq_comm]

/-- A request handled without a comparison. -/
theorem holds_handled {after : BridgeSession} {error : EspErr} {beginProxy : Bool}
    {past : List Entry} (h : Knows setting session past ∧ Fresh session past)
    (hmove : movesTo session request after = true) :
    Guarded setting (handledEntry session request after error beginProxy) past ∧
      Holds setting (.served after error)
        (handledEntry session request after error beginProxy :: past) := by
  have hcases : after = session ∨
      (request.command = BridgeCommand.hello.toByte ∧
        request.payload.length = bridgeNonceBytes ∧ session.state = .awaitingHello ∧
        after = { session with
          clientNonce := request.payloadArray bridgeNonceBytes
          state := .awaitingAuthentication }) ∨
      (session.state = .authenticated ∧ after = { session with state := .proxying }) := by
    simpa [movesTo, acceptHello_eq_some, beginProxy_eq_some, or_assoc, and_assoc] using hmove
  have hrank : rank session.state ≤ rank after.state := by
    rcases hcases with rfl | ⟨-, -, hs, rfl⟩ | ⟨hs, rfl⟩
    · exact Nat.le_refl _
    · simp [hs, rank]
    · simp [hs, rank]
  have hlow : rank after.state < rank .authenticated → ∀ l ∈ past, ¬ isComparison l :=
    fun hr => h.2 (Nat.lt_of_le_of_lt hrank hr)
  refine ⟨guarded_handled h.1 hrank ?_, ?_⟩
  · rintro hs ⟨l, hl, hcomparison⟩
    exact absurd hcomparison (hlow (by simp [hs, rank]) l hl)
  unfold Phase.served
  split
  · next herror =>
    refine ⟨h.1.handled ?_ hrank ?_ ?_ herror, fun hr l hl => ?_⟩
    · rcases hcases with rfl | ⟨-, -, -, rfl⟩ | ⟨-, rfl⟩ <;> exact ⟨rfl, rfl⟩
    · rcases hcases with rfl | ⟨hc, hlen, hs, rfl⟩ | ⟨hs, rfl⟩
      · refine .inl ⟨?_, rfl, Iff.rfl⟩
        simp only [acceptedHello, ite_eq_right_iff]
        rintro ⟨h1, h2, -⟩
        exact absurd (h1.symm.trans h2) (by decide)
      · refine .inr ⟨?_, hs, by simp⟩
        simp [acceptedHello, hs, hc, BridgeMessage.toList_payloadArray hlen]
      · refine .inl ⟨?_, rfl, by simp [hs]⟩
        simp [acceptedHello]
    · intro hr
      rcases hcases with rfl | ⟨-, -, -, rfl⟩ | ⟨hs, rfl⟩
      · exact .inl ⟨hr, rfl⟩
      · exact absurd hr (by simp [rank])
      · exact .inl ⟨by simp [hs], rfl⟩
    · rw [List.mem_cons] at hl
      rcases hl with rfl | hl
      · exact Bool.false_ne_true
      · exact hlow hr l hl
  · trivial

/-- A request handled after a comparison. -/
theorem holds_verdict {after : BridgeSession} {error : EspErr} {beginProxy : Bool}
    {digest : Option (Vector UInt8 bridgeHmacBytes)} {past : List Entry}
    (h : Holds setting (.compared session request digest) past)
    (hverdict : verdict session request digest after error = true) :
    Guarded setting (handledEntry session request after error beginProxy) past ∧
      Holds setting (.served after error)
        (handledEntry session request after error beginProxy :: past) := by
  obtain ⟨hknows, hs, hcommand, hlength, hdigest⟩ := h
  unfold verdict at hverdict
  split at hverdict
  · simp only [Bool.and_eq_true, decide_eq_true_eq] at hverdict
    obtain ⟨rfl, herror⟩ := hverdict
    refine ⟨guarded_handled hknows (Nat.le_refl _) fun _ _ => herror, ?_⟩
    simp [Phase.served, herror, Holds]
  · next moved hmoved =>
    rw [decide_eq_true_eq] at hverdict
    obtain ⟨expected, hexpected, hauth⟩ := Option.bind_eq_some_iff.mp hmoved
    obtain ⟨-, hpayload, rfl⟩ := bridgeSessionAuthenticate_eq_some.mp hauth
    have hrank : rank session.state ≤ rank after.state := by simp [hs, hverdict, rank]
    refine ⟨guarded_handled hknows hrank fun h' => by simp [hverdict] at h', ?_⟩
    unfold Phase.served
    split
    · next herror =>
      refine ⟨hknows.handled ?_ hrank ?_ ?_ herror, ?_⟩
      · subst hverdict; exact ⟨rfl, rfl⟩
      · subst hverdict
        exact .inl ⟨by simp [acceptedHello], rfl, by simp [hs]⟩
      · intro _
        refine .inr ⟨session, request, after, error, beginProxy, rfl, hs, by simp [hverdict],
          hcommand, hlength, ?_⟩
        rw [← BridgeMessage.toList_payloadArray hlength, ← hpayload, hdigest _ hexpected,
          hverdict]
      · intro hr
        simp [hverdict] at hr
    · trivial

/-- The session starts with the nonce and the id drawn for it. -/
theorem holds_opened {past : List Entry} {r : Unit}
    (h : Holds setting (.opening session.bridgeNonce.toList session.sessionId.toList) past)
    (hs : session.state = .awaitingHello) :
    Guarded setting ⟨(), .mark (.session session), r⟩ past ∧
      Holds setting (.managing session) (⟨(), .mark (.session session), r⟩ :: past) := by
  obtain ⟨hnonce, hid, hhello, hstates, herrors, hcomparison⟩ := h
  have hl : stateOf ⟨(), .mark (.session session), r⟩ = some session.state := rfl
  have drawn : ∀ {n : ℕ} {v w : Vector UInt8 (n + 1)}, v.toList = [] ∨ v.toList = w.toList →
      v = w := by
    rintro n v w (h | h)
    · simpa using congrArg List.length h
    · exact Vector.toList_inj.mp h
  refine ⟨⟨(absurd · Bool.false_ne_true), by simp [hstates], (absurd · Bool.false_ne_true),
    by simp [errorOf], (absurd · Bool.false_ne_true)⟩,
    ⟨drawn hnonce, drawn hid, ?_, ?_, ?_, ?_, ?_⟩,
    ?_⟩
  · exact fun _ => by simpa [acceptedHello] using hhello
  · exact fun h => absurd hs h
  · exact fun h => by simp [hs, rank] at h
  · simp [List.filterMap_cons_some hl, hstates]
  · rw [List.filterMap_cons_none rfl, herrors]
    simp
  · exact fun _ => by simpa [isComparison] using hcomparison

/-- Reading on, while every request so far was served. -/
theorem holds_recv {past : List Entry} {socket n : ℕ} {r : RecvResult}
    (h : Holds setting (.managing session) past) :
    Guarded setting ⟨(), .recv socket n, r⟩ past ∧
      Holds setting (.managing session) (⟨(), .recv socket n, r⟩ :: past) := by
  have hl : Blank ⟨(), .recv socket n, r⟩ := ⟨rfl, rfl, rfl, rfl⟩
  exact ⟨guarded_of_blank hl (fun _ => h.1.errors) (absurd · Bool.false_ne_true), h.blank hl⟩

/-- A request meets the session. -/
theorem holds_received {past : List Entry} {r : Unit}
    (h : Holds setting (.managing session) past) :
    Guarded setting ⟨(), .mark (.handle session request), r⟩ past ∧
      Holds setting (.handling session request)
        (⟨(), .mark (.handle session request), r⟩ :: past) := by
  have hl : stateOf ⟨(), .mark (.handle session request), r⟩ = some session.state := rfl
  have hproved := h.1.proved
  refine ⟨⟨(absurd · Bool.false_ne_true), fun state hstate => ?_, (absurd · Bool.false_ne_true),
    by simp [errorOf], fun _ => h.1.errors⟩, { h.1 with
      unheard := by simpa [acceptedHello] using h.1.unheard
      heard := fun hs => (List.filterMap_cons_none rfl).trans (h.1.heard hs)
      proved := fun hr => (hproved hr).imp fun _ hp => ⟨.tail _ hp.1, hp.2⟩
      states := fun state hstate => ?_
      errors := by simpa [errorOf] using h.1.errors }, fun hr => ?_⟩
  · cases hstate
    exact h.1.states
  · rw [List.filterMap_cons_some hl, List.mem_cons] at hstate
    rcases hstate with rfl | hstate
    · exact Nat.le_refl _
    · exact h.1.states state hstate
  · simpa [isComparison] using h.2 hr

/-- The one comparison of a connection. -/
theorem holds_compared {past : List Entry} {unread unread' : List UInt8}
    {digest : Option (Vector UInt8 bridgeHmacBytes)}
    (h : Holds setting (.handling session request) past)
    (hs : session.state = .awaitingAuthentication)
    (hcommand : request.command = BridgeCommand.authenticate.toByte)
    (hlength : request.payload.length = bridgeHmacBytes)
    (heffect : setting.effect (.hmacSha256 setting.context.pairingSecret
      (bridgeSessionAuthMaterial session 128)) digest unread = some unread') :
    let l : Entry := ⟨(), .hmacSha256 setting.context.pairingSecret
      (bridgeSessionAuthMaterial session 128), digest⟩
    Guarded setting l past ∧ Holds setting (.compared session request digest) (l :: past) := by
  intro l
  have hproved := h.1.proved
  refine ⟨⟨(absurd · Bool.false_ne_true), by simp [l, stateOf], fun _ => h.2 (by simp [hs, rank]),
    by simp [l, errorOf], (absurd · Bool.false_ne_true)⟩, { h.1 with
      unheard := by simpa [l, acceptedHello] using h.1.unheard
      heard := fun hs => (List.filterMap_cons_none rfl).trans (h.1.heard hs)
      proved := fun hr => (hproved hr).imp fun _ hp => ⟨.tail _ hp.1, hp.2⟩
      states := by simpa [l, stateOf] using h.1.states
      errors := by simpa [l, errorOf] using h.1.errors }, hs, hcommand, hlength, ?_⟩
  rintro expected rfl
  rw [← h.1.material]
  by_contra hne
  simp [Setting.effect, hne] at heffect

/-- A finished connection only records that it is closed. -/
theorem guarded_closed {past : List Entry} {r : Unit} (hs : session.state = .closed) :
    Guarded setting ⟨(), .mark (.session session), r⟩ past := by
  refine ⟨(absurd · Bool.false_ne_true), fun state hstate state' _ => ?_,
    (absurd · Bool.false_ne_true), by simp [errorOf], (absurd · Bool.false_ne_true)⟩
  cases hstate
  exact hs ▸ rank_le_closed state'

theorem holds_quiet {ph : Phase} {o : Op} {r : o.Res} {past : List Entry}
    (h : Holds setting ph past) (ho : quiet o = true) :
    Guarded setting ⟨(), o, r⟩ past ∧ Holds setting ph (⟨(), o, r⟩ :: past) := by
  have hl := blank_of_quiet (r := r) ho
  refine ⟨guarded_of_blank hl (fun hserving => ?_) (fun hr => ?_), h.blank hl⟩
  · exact absurd hserving (by simp [isServing_of_quiet ho])
  · exact absurd hr (by simp [not_reserved_of_quiet ho])

/-- Every step the role allows is in order and keeps the invariant. -/
theorem holds_step {ph ph' : Phase} {o : Op} {r : o.Res} {past : List Entry}
    {unread unread' : List UInt8} (h : Holds setting ph past)
    (hrole : next setting ph o r = some ph') (heffect : setting.effect o r unread = some unread') :
    Guarded setting ⟨(), o, r⟩ past ∧ Holds setting ph' (⟨(), o, r⟩ :: past) := by
  unfold next at hrole
  split at hrole
  · next nonce sessionId n value =>
    have hvalue : value = setting.random n := by
      by_contra hne
      simp [Setting.effect, hne] at heffect
    have hl : Blank ⟨(), .fillRandom n, value⟩ := ⟨rfl, rfl, rfl, rfl⟩
    refine ⟨guarded_of_blank hl (absurd · Bool.false_ne_true) (absurd · Bool.false_ne_true), ?_⟩
    obtain ⟨h1, h2, hrest⟩ := h.blank hl
    split at hrole
    · next hn =>
      subst hn
      cases hrole
      exact ⟨.inr (hvalue ▸ rfl), h2, hrest⟩
    · split at hrole
      · next hn =>
        subst hn
        cases hrole
        exact ⟨h1, .inr (hvalue ▸ rfl), hrest⟩
      · cases hrole
  · split at hrole
    · next hsession =>
      obtain ⟨hs, rfl, rfl⟩ := hsession
      cases hrole
      exact holds_opened h hs
    · cases hrole
  · cases hrole
    exact holds_recv h
  · split at hrole
    · next hsession =>
      subst hsession
      cases hrole
      exact holds_received h
    · cases hrole
  · split at hrole
    · next hs =>
      cases hrole
      exact ⟨guarded_closed hs, trivial⟩
    · cases hrole
  · split at hrole
    · next hs =>
      cases hrole
      exact ⟨guarded_closed hs, trivial⟩
    · cases hrole
  · split at hrole
    · next hc =>
      obtain ⟨hs, hcommand, hlength, rfl, rfl⟩ := hc
      cases hrole
      exact holds_compared h hs hcommand hlength heffect
    · cases hrole
  · split at hrole
    · next hc =>
      obtain ⟨rfl, rfl, hmove⟩ := hc
      cases hrole
      exact holds_handled h hmove
    · cases hrole
  · split at hrole
    · next hc =>
      obtain ⟨rfl, rfl, hverdict⟩ := hc
      cases hrole
      exact holds_verdict h hverdict
    · cases hrole
  · split at hrole
    · next ho =>
      cases hrole
      rcases ho with ho | ⟨ho, hs⟩
      · exact holds_quiet h ho
      · have hl := blank_of_reserved (r := r) ho
        refine ⟨guarded_of_blank hl ?_ fun _ => ⟨_, h.1.unlocked hs⟩, h.blank hl⟩
        exact fun _ => h.1.errors
    · cases hrole
  · split at hrole
    · next ho =>
      cases hrole
      exact holds_quiet h ho
    · cases hrole

def choreography (setting : Setting) (stream : List UInt8) :
    Choreography (connection setting stream) where
  Phase _ := Phase
  next _ := next setting
  entry _ := .opening [] []
  follows _ := clientTask_follows

theorem allowed_holds {stream : List UInt8} {s : (choreography setting stream).Scene}
    (hs : (choreography setting stream).Allowed s) :
    Justified (Guarded setting) s.world.trace ∧ Holds setting (s.phase ()) s.world.trace := by
  refine Choreography.Allowed.induction (I := fun s => Justified (Guarded setting) s.world.trace ∧
    Holds setting (s.phase ()) s.world.trace) ?_ ?_ hs
  · exact ⟨justified_nil _, .inl rfl, .inl rfl, rfl, rfl, rfl, List.forall_mem_nil _⟩
  · rintro s _ - ⟨hjust, hholds⟩ (@⟨i, o, r, ph, st, live, role, effect⟩)
    obtain ⟨hguarded, hholds'⟩ := holds_step hholds role effect
    have hphase := s.moved_phase_self ph (w := ⟨st, ⟨i, o, r⟩ :: s.world.trace⟩) live
    refine ⟨⟨hguarded, hjust⟩, ?_⟩
    change Holds setting ((s.moved i ph _).phase i) _
    rw [hphase]
    exact hholds'

end Gate

/-- Whatever a client sends and however it arrives, every entry of its connection is guarded. -/
theorem authentication_gate {setting : Setting} {stream : List UInt8}
    {c : System.Config (connection setting stream)} (hc : System.Reachable c) :
    Justified (Gate.Guarded setting) c.world.trace := by
  obtain ⟨s, hs, hw⟩ := (Gate.choreography setting stream).exists_allowed hc
  rw [← hw]
  exact (Gate.allowed_holds hs).1

def Gate.sampleStream : List UInt8 :=
  sampleRequest .hello (.replicate 32 9) ++ sampleRequest .authenticate (.replicate 32 0xAA) ++
    sampleRequest .ping [1, 2, 3]

/-- A ping echoed after a handshake, all in one chunk. -/
theorem authentication_gate_ping :
    ∃ c : System.Config (connection Setting.sample Gate.sampleStream),
      (c.world.trace.any fun l => Gate.reserved l.op) = true ∧
        Justified (Gate.Guarded Setting.sample) c.world.trace := by
  obtain ⟨c, hc, htest⟩ := System.exists_reachable
    (List.replicate 18 ((), Setting.sample.answers Gate.sampleStream .ready))
    (fun c : System.Config (connection Setting.sample Gate.sampleStream) =>
      c.world.trace.any fun l => Gate.reserved l.op) (by decide +kernel)
  exact ⟨c, htest, authentication_gate hc⟩

end FlipforgeBridge
