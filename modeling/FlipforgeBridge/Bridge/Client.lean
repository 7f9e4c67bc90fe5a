import FlipforgeBridge.Bridge.Tasks
import FlipforgeBridge.Connection.Traversal

/-! The client task follows its role. -/
namespace FlipforgeBridge
open Process

namespace Bridge

variable {socket : ℕ}

/-! ### Calls of the transport -/

theorem signalLinkLost_client {reason : LossReason} (ph : ClientPhase)
    (h : ph.session ≠ .released) : (signalLinkLost reason).Follows (clientNext socket)
      (fun _ ph' => ph' = { ph with session := ph.session.signal }) ph := by
  refine follows_op fun _ => ⟨ph, if_neg h, ?_⟩
  exact follows_last fun _ => ⟨_, if_neg h, rfl⟩

theorem drainStatus_only : drainStatus.Only (quiet · = true) := by
  refine .loop fun _ => only_op rfl fun taken => ?_
  cases taken <;> exact only_pure

/-- An exchange leaves the session acknowledged exactly if STATUS None was read. -/
theorem sendWaitStatus_follows {frame : ExpansionFrame} (ph : ClientPhase)
    (h : ph.session ≠ .released) (harm : ph.session.arm ≠ .released)
    (hself : ph.session.arm.disarm .unknown = ph.session) :
    (sendWaitStatus frame).Follows (clientNext socket)
      (fun result ph' => ph' = { ph with session := ph.session.arm.disarm result.2 }) ph := by
  have hidle := client_idles socket h
  have harmed : Idles (clientNext socket) { ph with session := ph.session.arm } :=
    client_idles _ harm
  refine hidle.stay rfl fun taken => ?_
  split
  · exact follows_pure (by rw [hself])
  refine (hidle.only drainStatus_only).bind ?_
  rintro _ ph rfl
  refine follows_op fun _ => ⟨_, if_neg h, ?_⟩
  refine harmed.stay rfl fun started => ?_
  refine .bind (S := fun _ ph' => ph' = { ph with session := ph.session.arm }) ?_ ?_
  · refine sendFrame_follows harmed (fun _ _ => rfl) ?_
    exact fun encoded _ written => ⟨_, if_neg harm, harmed, fun _ _ => rfl⟩
  rintro error _ rfl
  refine .bind (S := fun _ ph' => ph' = { ph with session := ph.session.arm }) ?_ ?_
  · split
    · exact harmed.stay rfl fun _ => follows_pure rfl
    · exact follows_pure rfl
  rintro error _ rfl
  refine harmed.stay rfl fun now => ?_
  refine follows_op fun status => ⟨_, if_neg harm, ?_⟩
  have hstill : (ph.session.arm.disarm status) ≠ .released := by
    cases hs : ph.session <;> simp_all [SessionPhase.arm, SessionPhase.disarm]
  exact (client_idles _ hstill).stay rfl fun _ => follows_pure rfl

theorem expansionTransportState_follows {ph : ClientPhase} (h : ph.session ≠ .released) :
    expansionTransportState.Follows (clientNext socket)
      (fun state ph' => ph' = { ph with session := ph.session.look state }) ph :=
  follows_last fun _ => ⟨_, if_neg h, rfl⟩

/-- `begin_rpc` opens a session or leaves the client managing. -/
theorem beginRpc_follows {proxy : ProxyPhase} :
    expansionTransportBeginRpc.Follows (clientNext socket)
      (fun error ph => ph = ⟨if error = .ok then .opened none else .managing, proxy⟩)
      ⟨.managing, proxy⟩ := by
  have hidle : Idles (clientNext socket) ⟨.managing, proxy⟩ := client_idles _ nofun
  refine follows_op fun state => ⟨⟨.managing, proxy⟩, rfl, ?_⟩
  split
  · exact hidle.stay rfl fun _ => follows_pure rfl
  refine follows_op fun (ok, _) => ⟨⟨if ok then .begun .unarmed else .managing, proxy⟩, rfl, ?_⟩
  cases ok with
  | false => exact follows_pure rfl
  | true =>
    refine (sendWaitStatus_follows ⟨.begun .unarmed, proxy⟩ nofun nofun rfl).bind ?_
    rintro ⟨error, status⟩ _ rfl
    refine .bind (S := fun started ph =>
      if started = true then ph = ⟨.opened none, proxy⟩
        else ∃ exchange, ph = ⟨.begun exchange, proxy⟩) ?_ ?_
    · split
      · exact follows_pure ⟨_, rfl⟩
      · next hok =>
        rw [not_or, not_not, not_not] at hok
        obtain ⟨rfl, rfl⟩ := hok
        refine follows_op fun (ok, _) =>
          ⟨⟨if ok then .opened none else .begun .unarmed, proxy⟩, rfl, ?_⟩
        cases ok
        · exact follows_pure ⟨_, rfl⟩
        · exact follows_pure rfl
    rintro started ph h
    cases started with
    | true =>
      obtain rfl : ph = ⟨.opened none, proxy⟩ := h
      exact follows_pure rfl
    | false =>
      obtain ⟨exchange, rfl⟩ : ∃ exchange, ph = ⟨.begun exchange, proxy⟩ := h
      refine (signalLinkLost_client ⟨.begun exchange, proxy⟩ nofun).bind ?_
      rintro _ _ rfl
      refine follows_pure ?_
      by_cases herror : error = .ok
      · rw [if_pos herror, if_neg nofun]
        rfl
      · rw [if_neg herror, if_neg herror]
        rfl

/-- A session that may still be open. -/
def Unfinished (session : SessionPhase) : Prop :=
  (∃ answer, session = .opened answer) ∨ session = .finished

theorem Unfinished.look {session : SessionPhase} (h : Unfinished session)
    (state : ExpansionState) : Unfinished (session.look state) ∧
      (state ≠ .rpcReady → session.look state = .finished) := by
  obtain ⟨answer, rfl⟩ | rfl := h
  · unfold SessionPhase.look
    dsimp only
    split
    · next hready => exact ⟨.inl ⟨answer, rfl⟩, fun h => absurd hready h⟩
    · exact ⟨.inr rfl, fun _ => rfl⟩
  · exact ⟨.inr rfl, fun _ => rfl⟩

theorem Unfinished.not_released {session : SessionPhase} (h : Unfinished session) :
    session ≠ .released := by
  obtain ⟨answer, rfl⟩ | rfl := h <;> exact nofun

/-- After `end_rpc` the session is over in any case. -/
theorem endRpc_follows {session : SessionPhase} {proxy : ProxyPhase} (h : Unfinished session)
    (hproxy : proxy ≠ .running) : expansionTransportEndRpc.Follows (clientNext socket)
      (fun _ ph => ph = ⟨.finished, proxy⟩) ⟨session, proxy⟩ := by
  refine (expansionTransportState_follows h.not_released).bind ?_
  rintro state _ rfl
  obtain ⟨hlook, hfinished⟩ := h.look state
  split
  · next hready =>
    refine follows_pure ?_
    rw [hfinished (by rw [hready]; exact nofun)]
  refine (expansionTransportState_follows hlook.not_released).bind ?_
  rintro state' _ rfl
  obtain ⟨hlook', hfinished'⟩ := hlook.look state'
  split
  · next hready =>
    refine follows_pure ?_
    dsimp only
    rw [hfinished' hready]
  generalize (session.look state).look state' = session at hlook'
  refine follows_op fun (ok, _) => ⟨⟨if ok then .ending .unarmed else .finished, proxy⟩, ?_, ?_⟩
  · refine (if_neg fun h => hproxy h.2).trans ?_
    obtain ⟨answer, rfl⟩ | rfl := hlook' <;> rfl
  cases ok with
  | false => exact follows_pure rfl
  | true =>
    refine (sendWaitStatus_follows ⟨.ending .unarmed, proxy⟩ nofun nofun rfl).bind ?_
    rintro ⟨error, status⟩ _ rfl
    refine .bind (S := fun stopped ph =>
      if stopped = true then ph = ⟨.stopped, proxy⟩
        else ∃ exchange, ph = ⟨.ending exchange, proxy⟩) ?_ ?_
    · split
      · exact follows_pure ⟨_, rfl⟩
      · next hok =>
        rw [not_or, not_not, not_not] at hok
        obtain ⟨rfl, rfl⟩ := hok
        refine follows_op fun (ok, _) =>
          ⟨⟨if ok then .stopped else .ending .unarmed, proxy⟩, rfl, ?_⟩
        cases ok
        · exact follows_pure ⟨_, rfl⟩
        · exact follows_pure rfl
    rintro stopped ph h
    cases stopped with
    | true =>
      obtain rfl : ph = ⟨.stopped, proxy⟩ := h
      exact follows_op fun _ => ⟨⟨.finished, proxy⟩, rfl, follows_pure rfl⟩
    | false =>
      obtain ⟨exchange, rfl⟩ : ∃ exchange, ph = ⟨.ending exchange, proxy⟩ := h
      refine (signalLinkLost_client ⟨.ending exchange, proxy⟩ nofun).bind ?_
      rintro _ _ rfl
      exact follows_pure rfl

theorem Unfinished.exchange {session : SessionPhase} (h : Unfinished session)
    (status : ExpansionFrameError) :
    session.arm = session ∧ session.disarm status = session ∧ session.signal = session := by
  obtain ⟨answer, rfl⟩ | rfl := h <;> exact ⟨rfl, rfl, rfl⟩

theorem sendRpc_follows {bytes : List UInt8} {session : SessionPhase} {proxy : ProxyPhase}
    (h : Unfinished session) : (expansionTransportSendRpc bytes).Follows (clientNext socket)
      (fun _ ph => ∃ session', Unfinished session' ∧ ph = ⟨session', proxy⟩ ∧
        (session' = session ∨ session' = .finished)) ⟨session, proxy⟩ := by
  refine (expansionTransportState_follows h.not_released).bind ?_
  rintro state _ rfl
  have hsame : session.look state = session ∨ session.look state = .finished := by
    obtain ⟨answer, rfl⟩ | rfl := h
    · unfold SessionPhase.look
      dsimp only
      split
      · exact .inl rfl
      · exact .inr rfl
    · exact .inl rfl
  have hlook := (h.look state).1
  dsimp only
  generalize session.look state = session' at hsame hlook
  split
  · exact follows_pure ⟨session', hlook, rfl, hsame⟩
  refine .loop (fun _ ph => ph = ⟨session', proxy⟩) rfl ?_
  rintro offset _ rfl
  split
  · exact follows_pure ⟨session', hlook, rfl, hsame⟩
  obtain ⟨harm, -, hsignal⟩ := hlook.exchange .unknown
  have hdisarm := fun status => (hlook.exchange status).2.1
  refine (sendWaitStatus_follows ⟨session', proxy⟩ hlook.not_released
    (by rw [harm]; exact hlook.not_released) (by rw [harm, hdisarm])).bind ?_
  rintro ⟨error, status⟩ _ rfl
  dsimp only
  rw [harm, hdisarm]
  split
  · refine (signalLinkLost_client ⟨session', proxy⟩ hlook.not_released).bind ?_
    rintro _ _ rfl
    exact follows_pure ⟨session', hlook, by rw [hsignal], hsame⟩
  · exact follows_pure rfl

theorem traced_follows {call : TransportCall} {body : Routine EspErr} {ph : ClientPhase}
    {Q : EspErr → ClientPhase → Prop} (h : ph.session.admits (.enter call))
    (hbody : body.Follows (clientNext socket) Q ph)
    (hQ : ∀ error ph', Q error ph' → ph'.session.admits (.leave call error)) :
    (traced call body).Follows (clientNext socket) Q ph := by
  refine follows_op fun _ => ⟨ph, if_pos h, ?_⟩
  refine hbody.bind fun error ph' hph' => ?_
  exact follows_op fun _ => ⟨ph', if_pos (hQ error ph' hph'), follows_pure hph'⟩

theorem admits_enter {session : SessionPhase} {call : TransportCall} (h : session ≠ .released) :
    session.admits (.enter call) := by
  have hdecide : decide (session ≠ .released) = true := decide_eq_true h
  cases session <;> exact hdecide

theorem admits_leave {session : SessionPhase} {call : TransportCall} {error : EspErr}
    (h : session ≠ .released) (hcall : call ≠ .beginRpc) :
    session.admits (.leave call error) := by
  have hdecide : decide (session ≠ .released) = true := decide_eq_true h
  cases call with
  | beginRpc => exact absurd rfl hcall
  | _ => cases session <;> exact hdecide

theorem admits_session {session : SessionPhase} {state : BridgeSession}
    (h : session ≠ .released) : session.admits (.session state) := by
  have hdecide : decide (session ≠ .released) = true := decide_eq_true h
  cases session <;> exact hdecide

theorem traced_endRpc_follows {session : SessionPhase} (proxy : ProxyPhase)
    (hproxy : proxy ≠ .running) (h : Unfinished session) :
    (expansionTransport.endRpc).Follows (clientNext socket)
      (fun _ ph => ph = ⟨.finished, proxy⟩) ⟨session, proxy⟩ := by
  apply traced_follows (admits_enter h.not_released) (endRpc_follows h hproxy)
  rintro error _ rfl
  rfl

theorem traced_sendRpc_follows {bytes : List UInt8} {session : SessionPhase} (proxy : ProxyPhase)
    (h : Unfinished session) : (expansionTransport.sendRpc bytes).Follows (clientNext socket)
      (fun _ ph => ∃ session, Unfinished session ∧ ph = ⟨session, proxy⟩) ⟨session, proxy⟩ := by
  apply traced_follows (admits_enter h.not_released)
  · refine (sendRpc_follows h).mono ?_
    rintro _ _ ⟨session', hsession', rfl, -⟩
    exact ⟨session', hsession', rfl⟩
  · rintro error _ ⟨session', hsession', rfl⟩
    exact admits_leave hsession'.not_released nofun

/-! ### Raw mode -/

/-- How raw mode goes through the phases. The session may be over at any look at the state. -/
def proxyWalk (initial : List UInt8) :
    ProxyWalk (clientNext socket) expansionTransport socket initial where
  ready ph := ph = ⟨.opened (some []), .none⟩
  grouped ph := ph = ⟨.opened (some []), .created⟩
  unmanned ph := ph = ⟨.opened (some []), .created⟩
  manned ph := ph = ⟨.opened (some []), .running⟩
  forwarding ph := ∃ session, Unfinished session ∧ ph = ⟨session, .running⟩
  stopped ph := ∃ session, Unfinished session ∧ ph = ⟨session, .running⟩
  ending ph := ∃ session proxy, Unfinished session ∧ proxy ≠ .running ∧ ph = ⟨session, proxy⟩
  ended ph := ph.session = .finished ∧ ph.proxy ≠ .running
  create := by
    rintro _ rfl
    refine follows_last fun events => ⟨_, if_pos ⟨rfl, rfl, rfl⟩, ?_⟩
    cases events with
    | true => exact rfl
    | false => exact ⟨_, .none, .inl ⟨_, rfl⟩, nofun, rfl⟩
  man := by
    rintro _ rfl
    exact follows_last fun writer => ⟨_, if_pos ⟨rfl, rfl, rfl⟩, by cases writer <;> rfl⟩
  drop := by
    rintro _ rfl
    have hidle : Idles (clientNext socket) ⟨.opened (some []), .created⟩ := client_idles _ nofun
    exact follows_last fun _ => ⟨_, hidle _ _ rfl, _, .created, .inl ⟨_, rfl⟩, nofun, rfl⟩
  begin := by
    rintro _ rfl
    split
    · exact traced_sendRpc_follows .running (.inl ⟨_, rfl⟩)
    · exact follows_pure ⟨_, .inl ⟨_, rfl⟩, rfl⟩
  look := by
    rintro _ ⟨session, h, rfl⟩
    have hidle : Idles (clientNext socket) ⟨session, .running⟩ := client_idles _ h.not_released
    exact follows_last fun _ => ⟨_, hidle _ _ rfl, session, h, rfl⟩
  receive := by
    rintro _ ⟨session, h, rfl⟩
    have hidle : Idles (clientNext socket) ⟨session, .running⟩ := client_idles _ h.not_released
    refine follows_last fun received => ⟨_, hidle _ _ rfl, ?_⟩
    cases received with
    | data bytes => exact traced_sendRpc_follows .running h
    | closed => exact ⟨session, h, rfl⟩
    | error errno => exact ⟨session, h, rfl⟩
  stop := by
    rintro _ ⟨session, h, rfl⟩
    have hidle : Idles (clientNext socket) ⟨session, .running⟩ := client_idles _ h.not_released
    refine hidle.stay rfl fun _ => ?_
    exact follows_last fun _ => ⟨_, hidle _ _ rfl, session, h, rfl⟩
  drain := by
    rintro _ ⟨session, h, rfl⟩
    have hidle : Idles (clientNext socket) ⟨session, .drained⟩ := client_idles _ h.not_released
    refine follows_op fun _ => ⟨⟨session, .drained⟩, if_pos ⟨rfl, rfl, h.not_released⟩, ?_⟩
    exact follows_last fun _ => ⟨_, hidle _ _ rfl, session, .drained, h, nofun, rfl⟩
  finish := by
    rintro _ ⟨session, proxy, h, hproxy, rfl⟩
    refine (traced_endRpc_follows proxy hproxy h).mono ?_
    rintro _ _ rfl
    exact ⟨rfl, hproxy⟩

/-- Raw mode ends with the session over and no writer left. -/
theorem rpcProxyRun_follows {initial : List UInt8} :
    (rpcProxyRun expansionTransport socket initial).Follows (clientNext socket)
      (fun _ ph => ph.session = .finished ∧ ph.proxy ≠ .running) ⟨.opened (some []), .none⟩ := by
  have hopen : Unfinished (.opened (some [])) := .inl ⟨_, rfl⟩
  refine (proxyWalk initial).follows ((expansionTransportState_follows hopen.not_released).mono ?_)
  rintro state _ rfl
  split
  · next hready =>
    rw [hready]
    rfl
  · next hready => exact ⟨(hopen.look state).2 hready, nofun⟩

/-! ### Management -/

/-- Before any session. -/
abbrev managing : ClientPhase := ⟨.managing, .none⟩

/-- The answer is written and the client keeps managing. -/
def Answered (result : EspErr × BridgeSession × Bool) (ph : ClientPhase) : Prop :=
  result.2.2 = false ∧ ph = managing

section Management
variable {context : ClientContext} {session : BridgeSession} {request : BridgeMessage}

theorem managing_idles : Idles (clientNext socket) managing := client_idles _ nofun

theorem sendResponse_managing {status : BridgeStatus} {payload : List UInt8} :
    (sendResponse socket request status payload).Follows (clientNext socket)
      (fun _ ph => ph = managing) managing :=
  Prog.Only.follows (sendResponse_only (fun _ => rfl) fun _ _ => if_pos ⟨rfl, rfl⟩)

theorem answer_follows {status : BridgeStatus} {payload : List UInt8} :
    (answer socket session request status payload).Follows (clientNext socket) Answered
      managing := by
  refine sendResponse_managing.bind ?_
  rintro error _ rfl
  exact follows_pure ⟨rfl, rfl⟩

theorem answerJson_follows {json : String} :
    (answerJson socket session request json).Follows (clientNext socket) Answered managing := by
  unfold answerJson
  split
  · exact follows_pure ⟨rfl, rfl⟩
  · exact answer_follows

theorem state_managing {α : Type} {Q : α → ClientPhase → Prop} {k : ExpansionState → Routine α}
    (h : ∀ state, (k state).Follows (clientNext socket) Q managing) :
    (expansionTransportState >>= k).Follows (clientNext socket) Q managing :=
  follows_op fun state => ⟨managing, rfl, h state⟩

theorem getBridgeInfo_follows :
    (getBridgeInfo expansionTransport socket session request).Follows (clientNext socket)
      Answered managing := by
  unfold getBridgeInfo
  split
  · exact answer_follows
  refine managing_idles.stay rfl fun nowUs => managing_idles.stay rfl fun wifiStarted => ?_
  refine state_managing fun state => ?_
  exact managing_idles.stay rfl fun baud => answerJson_follows

theorem getStatus_follows :
    (getStatus expansionTransport socket session request).Follows (clientNext socket)
      Answered managing := by
  unfold getStatus
  split
  · exact answer_follows
  refine managing_idles.stay rfl fun metrics => state_managing fun state => ?_
  exact managing_idles.stay rfl fun baud => answerJson_follows

/-- What is left of the session when a request has been handled. -/
def Handled (result : EspErr × BridgeSession × Bool) (ph : ClientPhase) : Prop :=
  if result.2.2 then result.1 = .ok ∧ ph = ⟨.opened (some []), .none⟩
  else ph = managing ∨ result.1 ≠ .ok ∧ ph = ⟨.finished, .none⟩

theorem Answered.handled {result : EspErr × BridgeSession × Bool} {ph : ClientPhase}
    (h : Answered result ph) : Handled result ph := by
  obtain ⟨hresult, hph⟩ := h
  rw [Handled, hresult]
  exact .inl hph

/-- The answer to `BeginRPCProxy` can be written down. -/
theorem exists_encoded_response
    (hcommand : request.command = BridgeCommand.beginRpcProxy.toByte) :
    ∃ encoded, bridgeMessageEncode (responseTo request .ok []) bridgeManagementFrameSize =
      some encoded := by
  unfold bridgeMessageEncode
  rw [show (responseTo request .ok []).command = BridgeCommand.beginRpcProxy.toByte from hcommand]
  exact ⟨_, rfl⟩

theorem sendResponse_opened
    (hcommand : request.command = BridgeCommand.beginRpcProxy.toByte) :
    (sendResponse socket request .ok []).Follows (clientNext socket)
      (fun error ph => Unfinished ph.session ∧ ph.proxy = .none ∧
        (error = .ok → ph = ⟨.opened (some []), .none⟩)) ⟨.opened none, .none⟩ := by
  obtain ⟨encoded, hencoded⟩ := exists_encoded_response hcommand
  have hmark : clientNext socket ⟨.opened none, .none⟩ (.mark (.respond request .ok [])) () =
      some ⟨.opened (some encoded), .none⟩ := by
    simp [clientNext, SessionPhase.respond, hcommand, hencoded]
  refine follows_op fun _ => ⟨_, hmark, ?_⟩
  rw [if_neg (by decide), hencoded]
  dsimp only
  refine (sendAll_drains (fun rest => (⟨.opened (some rest), .none⟩ : ClientPhase)) ?_
    encoded).mono ?_
  · intro rest result
    simp [clientNext, SessionPhase.send]
  · rintro error _ ⟨rest, rfl, hrest⟩
    refine ⟨.inl ⟨_, rfl⟩, rfl, fun herror => ?_⟩
    rw [hrest herror]

theorem beginRpcProxy_follows (hcommand : request.command = BridgeCommand.beginRpcProxy.toByte) :
    (beginRpcProxy expansionTransport socket session request).Follows (clientNext socket)
      Handled managing := by
  refine .bind (S := fun _ ph => ph = managing) ?_ ?_
  · split
    · exact follows_pure rfl
    · exact state_managing fun state => follows_pure rfl
  rintro refused _ rfl
  split
  · refine managing_idles.stay rfl fun _ => answer_follows.mono ?_
    exact fun _ _ h => h.handled
  refine .bind (S := fun error ph =>
    ph = ⟨if error = .ok then .opened none else .managing, .none⟩) ?_ ?_
  · have henter : managing.session.admits (.enter .beginRpc) := rfl
    apply traced_follows henter beginRpc_follows
    rintro error _ rfl
    dsimp only
    rw [SessionPhase.admits]
    split <;> rfl
  rintro error _ rfl
  by_cases herror : error = .ok
  · rw [if_neg (not_not.mpr herror), if_pos herror]
    split
    · refine (traced_endRpc_follows .none nofun (.inl ⟨none, rfl⟩)).bind ?_
      rintro _ _ rfl
      exact follows_pure (.inr ⟨nofun, rfl⟩)
    · refine (sendResponse_opened hcommand).bind ?_
      rintro error ⟨session, proxy⟩ ⟨hsession, hproxy, hok⟩
      obtain rfl : proxy = .none := hproxy
      by_cases herror : error = .ok
      · rw [if_neg (not_not.mpr herror), hok herror]
        exact follows_pure ⟨herror, rfl⟩
      · rw [if_pos herror]
        refine (traced_endRpc_follows .none nofun hsession).bind ?_
        rintro _ _ rfl
        exact follows_pure (.inr ⟨herror, rfl⟩)
  · rw [if_pos herror, if_neg herror]
    exact answer_follows.mono fun _ _ h => h.handled

theorem handleAuthenticatedCommand_follows :
    (handleAuthenticatedCommand expansionTransport context session request).Follows
      (clientNext context.socket) Handled managing := by
  unfold handleAuthenticatedCommand
  split
  · exact answer_follows.mono fun _ _ h => h.handled
  split
  · exact getBridgeInfo_follows.mono fun _ _ h => h.handled
  split
  · exact getStatus_follows.mono fun _ _ h => h.handled
  split
  · exact answer_follows.mono fun _ _ h => h.handled
  split
  · next hcommand => exact beginRpcProxy_follows hcommand
  unfold endRpcProxy
  repeat' split
  all_goals exact answer_follows.mono fun _ _ h => h.handled

theorem handleAuthenticate_follows :
    (handleAuthenticate context session request).Follows (clientNext context.socket) Answered
      managing := by
  unfold handleAuthenticate
  split
  · exact answer_follows
  refine managing_idles.stay rfl fun expected => ?_
  split
  · refine sendResponse_managing.bind ?_
    rintro error _ rfl
    exact follows_pure ⟨rfl, rfl⟩
  · exact answer_follows

theorem handleManagementMessage_follows :
    (handleManagementMessage expansionTransport context session request).Follows
      (clientNext context.socket) Handled managing := by
  unfold handleManagementMessage handleHello
  repeat' split
  any_goals exact answer_follows.mono fun _ _ h => h.handled
  · exact handleAuthenticate_follows.mono fun _ _ h => h.handled
  · exact handleAuthenticatedCommand_follows

theorem Handled.admits {result : EspErr × BridgeSession × Bool} {ph : ClientPhase}
    (h : Handled result ph) :
    ph.session.admits (.handled session request result.2.1 result.1 result.2.2) := by
  obtain ⟨error, after, beginProxy⟩ := result
  cases beginProxy with
  | true =>
    obtain ⟨-, rfl⟩ := h
    rfl
  | false => obtain rfl | ⟨-, rfl⟩ := h <;> rfl

theorem tracedHandle_follows :
    (tracedHandle expansionTransport context session request).Follows
      (clientNext context.socket) Handled managing := by
  refine follows_op fun _ => ⟨managing, rfl, ?_⟩
  refine handleManagementMessage_follows.bind fun result ph h => ?_
  exact follows_op fun _ => ⟨ph, if_pos h.admits, follows_pure h⟩

/-- The client may close its connection. -/
def Over (ph : ClientPhase) : Prop :=
  (ph.session = .managing ∨ ph.session = .finished) ∧ ph.proxy ≠ .running

theorem Over.not_released {ph : ClientPhase} (h : Over ph) : ph.session ≠ .released := by
  obtain ⟨h | h, -⟩ := h <;> rw [h] <;> exact nofun

theorem over_managing : Over managing := ⟨.inl rfl, nofun⟩

/-- A request is answered in management, and raw mode is the last thing a chunk leads to. -/
def inputWalk (input : List UInt8) :
    InputWalk (clientNext context.socket) expansionTransport context input where
  turning _ _ _ ph := ph = managing
  done result ph := Over ph ∧ (result.2.2 = false → ph = managing)
  finish := by
    rintro _ _ _ _ rfl -
    exact ⟨over_managing, fun _ => rfl⟩
  more h _ _ := h
  ready := by
    rintro _ _ _ _ _ _ _ rfl - -
    refine tracedHandle_follows.mono ?_
    rintro ⟨error, after, beginProxy⟩ ph h
    cases beginProxy with
    | true =>
      obtain ⟨rfl, rfl⟩ : error = .ok ∧ ph = ⟨.opened (some []), .none⟩ := h
      refine rpcProxyRun_follows.mono ?_
      rintro result ph ⟨hsession, hproxy⟩
      exact ⟨⟨.inr hsession, hproxy⟩, nofun⟩
    | false =>
      obtain rfl | ⟨herror, rfl⟩ : ph = managing ∨ error ≠ .ok ∧ ph = ⟨.finished, .none⟩ := h
      · dsimp only
        split
        · exact ⟨over_managing, nofun⟩
        · exact rfl
      · dsimp only
        rw [if_pos herror]
        exact ⟨⟨.inr rfl, nofun⟩, nofun⟩
  refuse := by
    rintro _ _ _ _ _ _ _ rfl - - -
    refine sendResponse_managing.mono ?_
    rintro _ _ rfl
    exact ⟨over_managing, nofun⟩

theorem handleInput_follows {input : List UInt8} {decoder : BridgeMessageDecoder} :
    (handleInput expansionTransport context input session decoder).Follows
      (clientNext context.socket)
      (fun result ph => Over ph ∧ (result.2.2 = false → ph = managing)) managing :=
  (inputWalk input).follows rfl

def clientWalk (context : ClientContext) :
    ClientWalk (clientNext context.socket) expansionTransport context where
  turning _ _ _ ph := ph = managing
  ended _ := Over
  receive := by
    rintro _ _ _ _ rfl
    have hidle : Idles (clientNext context.socket) managing := managing_idles
    refine follows_last fun received => ⟨managing, hidle _ _ rfl, ?_⟩
    cases received with
    | closed => exact over_managing
    | error errno =>
      cases errno with
      | eintr => exact rfl
      | eagain =>
        refine follows_last fun nowUs => ⟨managing, hidle _ _ rfl, ?_⟩
        split
        · rfl
        · exact over_managing
      | other => exact over_managing
    | data input =>
      refine follows_last fun nowUs => ⟨managing, hidle _ _ rfl, handleInput_follows.mono ?_⟩
      rintro ⟨session, decoder, finished⟩ ph ⟨hover, hmanaging⟩
      cases finished with
      | true => exact hover
      | false => exact hmanaging rfl

theorem client_follows (context : ClientContext) :
    (clientTask expansionTransport context).Follows (clientNext context.socket)
      (fun _ _ => True) managing := by
  apply (clientWalk context).follows
  · have hidle : Idles (clientNext context.socket) managing := managing_idles
    refine hidle.stay rfl fun _ => hidle.stay rfl fun nonce => hidle.stay rfl fun sessionId => ?_
    refine follows_op fun _ => ⟨managing, rfl, ?_⟩
    exact hidle.stay rfl fun startedUs => follows_pure rfl
  intro session ph h
  have hover : Over ph := h
  have hidle := client_idles context.socket hover.not_released
  refine follows_op fun _ => ⟨ph, if_pos (admits_session hover.not_released), ?_⟩
  refine hidle.stay rfl fun _ => hidle.stay rfl fun _ => ?_
  refine follows_op fun _ => ⟨{ ph with session := .released }, if_pos h, ?_⟩
  exact follows_last fun _ => ⟨{ ph with session := .released }, rfl, trivial⟩

end Management

/-! ### The choreography -/

def Phase : Tid → Type
  | .server => ServerPhase
  | .supervisor => SupervisorPhase
  | .client _ => ClientPhase
  | .writer _ => WriterPhase
  | .rx _ => RxPhase
  | .heartbeat _ => Unit

def next : (i : Tid) → Phase i → (o : Op) → o.Res → Option (Phase i)
  | .server => serverNext
  | .supervisor => supervisorNext
  | .client socket => clientNext socket
  | .writer socket => writerNext socket
  | .rx _ => rxNext
  | .heartbeat _ => heartbeatNext

def entry : (i : Tid) → Phase i
  | .server => ServerPhase.listening
  | .supervisor => SupervisorPhase.down
  | .client _ => managing
  | .writer _ => WriterPhase.running []
  | .rx _ => RxPhase.reading
  | .heartbeat _ => ()

def choreography (secret : Vector UInt8 bridgePairingSecretBytes) :
    Choreography (bridge secret) where
  Phase := Phase
  next := next
  entry := entry
  follows
    | .server => server_follows
    | .supervisor => supervisor_follows
    | .client socket => client_follows { socket, pairingSecret := secret }
    | .writer _ => writer_follows
    | .rx _ => rx_follows
    | .heartbeat _ => heartbeat_follows

end Bridge
end FlipforgeBridge
