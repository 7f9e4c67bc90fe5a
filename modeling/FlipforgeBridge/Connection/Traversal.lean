import FlipforgeBridge.Expansion.Traversal
import FlipforgeBridge.Server

/-!
Going through the code of the server and of the proxy once for every role. Of a loop a role says
what holds where it turns, and answers for the straight pieces of code around it; a role that code
does not move at all only has to name the operations it lets pass.
-/
namespace FlipforgeBridge
open Process

/-! ### Kinds of operations -/

/-- What answering a request takes besides calls of the transport. -/
def answering (socket : ℕ) : Op → Bool
  | .send s _ => s == socket
  | .mark (.respond _ _ _) => true
  | .timerGetTime | .hmacSha256 _ _ | .wifiIsStarted | .metricsSnapshot => true
  | _ => false

/-- What a client's task does until it is at its end, raw RPC apart. -/
def serving (socket : ℕ) : Op → Bool
  | .setSocketTimeouts s | .recv s _ => s == socket
  | .mark (.session _) | .mark (.handle _ _) | .mark (.handled _ _ _ _ _) => true
  | .fillRandom _ => true
  | o => answering socket o

/-- What raw RPC takes besides calls of the transport. -/
def relaying (socket : ℕ) : Op → Bool
  | .proxyCreate s | .proxyBits s | .proxySetStop s | .proxyWaitDone s => s == socket
  | .proxyDelete s | .taskCreate (.writer s) | .recv s _ | .shutdown s => s == socket
  | _ => false

theorem serving_of_answering {socket : ℕ} {o : Op} (h : answering socket o = true) :
    serving socket o = true := by
  cases o with
  | mark m => cases m <;> first | rfl | cases h
  | setSocketTimeouts | recv | fillRandom => cases h
  | _ => exact h

section Walk
variable {Phase : Type} {next : Phase → (o : Op) → o.Res → Option Phase} {ph : Phase}
  {transport : TransportApi}

/-! ### The loops -/

/-- What holds of the phase at the points of `rpc_proxy_run`, and that the code leads from one to
the next. -/
structure ProxyWalk (next : Phase → (o : Op) → o.Res → Option Phase) (transport : TransportApi)
    (socket : ℕ) (initial : List UInt8) where
  ready : Phase → Prop
  grouped : Phase → Prop
  /-- The writer could not be created. -/
  unmanned : Phase → Prop
  manned : Phase → Prop
  forwarding : Phase → Prop
  stopped : Phase → Prop
  ending : Phase → Prop
  ended : Phase → Prop
  create {ph : Phase} (h : ready ph) : (op (.proxyCreate socket)).Follows next
    (fun (events : Bool) ph => if events then grouped ph else ending ph) ph
  man {ph : Phase} (h : grouped ph) : (op (.taskCreate (.writer socket))).Follows next
    (fun (writer : Bool) ph => if writer then manned ph else unmanned ph) ph
  drop {ph : Phase} (h : unmanned ph) :
    (op (.proxyDelete socket)).Follows next (fun _ => ending) ph
  begin {ph : Phase} (h : manned ph) :
    (if 0 < initial.length then transport.sendRpc initial else pure .ok).Follows next
      (fun _ => forwarding) ph
  look {ph : Phase} (h : forwarding ph) :
    (op (.proxyBits socket)).Follows next (fun _ => forwarding) ph
  receive {ph : Phase} (h : forwarding ph) : (op (.recv socket bridgeTcpReadBytes)).Follows next
    (fun (received : RecvResult) ph => match received with
      | .data bytes => (transport.sendRpc bytes).Follows next (fun _ => forwarding) ph
      | _ => forwarding ph) ph
  stop {ph : Phase} (h : forwarding ph) :
    (do
      op (.proxySetStop socket)
      op (.shutdown socket) : Routine Unit).Follows next (fun _ => stopped) ph
  drain {ph : Phase} (h : stopped ph) :
    (do
      op (.proxyWaitDone socket)
      op (.proxyDelete socket) : Routine Unit).Follows next (fun _ => ending) ph
  finish {ph : Phase} (h : ending ph) : transport.endRpc.Follows next (fun _ => ended) ph

namespace ProxyWalk
variable {socket : ℕ} {initial : List UInt8} (walk : ProxyWalk next transport socket initial)
include walk

theorem forward {result : EspErr} (h : walk.forwarding ph) :
    (forwardToTransport transport socket result).Follows next (fun _ => walk.forwarding) ph := by
  refine .loop (fun _ => walk.forwarding) h ?_
  intro result ph h
  split
  · exact follows_pure h
  refine (walk.look h).bind fun bits ph h => ?_
  split
  · exact follows_pure h
  refine (walk.receive h).bind fun received ph h => ?_
  split
  · exact Prog.Follows.bind h fun _ _ h => follows_pure h
  all_goals exact follows_pure h

theorem follows
    (hstate : transport.state.Follows next
      (fun state ph => if state = .rpcReady then walk.ready ph else walk.ended ph) ph) :
    (rpcProxyRun transport socket initial).Follows next (fun _ => walk.ended) ph := by
  have hfinish {ph : Phase} (h : walk.ending ph) {error : EspErr} :
      (do
        let _stopped ← transport.endRpc
        return error : Routine EspErr).Follows next (fun _ => walk.ended) ph :=
    (walk.finish h).bind fun _ _ h => follows_pure h
  refine hstate.bind fun state ph h => ?_
  by_cases hready : state = .rpcReady
  · rw [if_neg (not_not.mpr hready)]
    rw [if_pos hready] at h
    refine (walk.create h).bind fun events ph h => ?_
    cases events with
    | false => exact hfinish h
    | true =>
    refine (walk.man h).bind fun writer ph h => ?_
    cases writer with
    | false => exact (walk.drop h).bind fun _ _ h => hfinish h
    | true =>
    refine (walk.begin h).bind fun result ph h => ?_
    refine (walk.forward h).bind fun result ph h => ?_
    rw [← bind_assoc]
    refine (walk.stop h).bind fun _ ph h => ?_
    rw [← bind_assoc]
    refine (walk.drain h).bind fun _ ph h => ?_
    exact (walk.finish h).bind fun _ _ h => follows_pure h
  · rw [if_pos hready]
    rw [if_neg hready] at h
    exact follows_pure h

end ProxyWalk

/-- What holds of the phase at the turns of the loop over a chunk and behind it. -/
structure InputWalk (next : Phase → (o : Op) → o.Res → Option Phase) (transport : TransportApi)
    (context : ClientContext) (input : List UInt8) where
  turning : BridgeSession → BridgeMessageDecoder → ℕ → Phase → Prop
  done : BridgeSession × BridgeMessageDecoder × Bool → Phase → Prop
  finish {session : BridgeSession} {decoder : BridgeMessageDecoder} {offset : ℕ} {ph : Phase}
    (h : turning session decoder offset ph) (hend : input.length ≤ offset) :
    done (session, decoder, false) ph
  more {session : BridgeSession} {decoder decoder' : BridgeMessageDecoder} {offset consumed : ℕ}
    {ph : Phase} (h : turning session decoder offset ph) (hlt : offset < input.length)
    (hpush : bridgeMessageDecoderPush decoder (input.drop offset) =
      (.needMore, consumed, decoder')) :
    turning session decoder' (offset + consumed) ph
  ready {session : BridgeSession} {decoder decoder' : BridgeMessageDecoder} {offset consumed : ℕ}
    {ph : Phase} {request : BridgeMessage} (h : turning session decoder offset ph)
    (hlt : offset < input.length)
    (hpush : bridgeMessageDecoderPush decoder (input.drop offset) =
      (.ready request, consumed, decoder')) :
    (tracedHandle transport context session request).Follows next (fun result ph =>
      if result.1 ≠ .ok then done (result.2.1, decoder', true) ph
      else if result.2.2 then
        (rpcProxyRun transport context.socket (input.drop (offset + consumed))).Follows next
          (fun _ => done (result.2.1, decoder', true)) ph
      else turning result.2.1 decoder' (offset + consumed) ph) ph
  refuse {session : BridgeSession} {decoder decoder' : BridgeMessageDecoder} {offset consumed : ℕ}
    {ph : Phase} {decoded : BridgeMessageDecodeResult} (h : turning session decoder offset ph)
    (hlt : offset < input.length)
    (hpush : bridgeMessageDecoderPush decoder (input.drop offset) = (decoded, consumed, decoder'))
    (hrefused : decoded = .malformed ∨ decoded = .tooLarge) :
    (sendResponse context.socket { version := flipforgeBridgeProtocolVersion
                                   command := BridgeCommand.hello.toByte }
      (if decoded = .tooLarge then .tooLarge else .malformed) []).Follows next
      (fun _ => done (session, decoder', true)) ph

theorem InputWalk.follows {context : ClientContext} {input : List UInt8} {session : BridgeSession}
    {decoder : BridgeMessageDecoder} (walk : InputWalk next transport context input)
    (h : walk.turning session decoder 0 ph) :
    (handleInput transport context input session decoder).Follows next walk.done ph := by
  refine .loop (fun x => walk.turning x.1 x.2.1 x.2.2) h ?_
  rintro ⟨session, decoder, offset⟩ ph h
  dsimp only at h ⊢
  split
  · next hover => exact follows_pure (walk.finish h (Nat.not_lt.mp hover))
  next hlt =>
  rw [not_not] at hlt
  rcases hpush : bridgeMessageDecoderPush decoder (input.drop offset) with
    ⟨decoded, consumed, decoder'⟩
  dsimp only
  cases decoded with
  | needMore => exact follows_pure (walk.more h hlt hpush)
  | ready request =>
    refine (walk.ready h hlt hpush).bind ?_
    rintro ⟨error, after, beginProxy⟩ ph h
    dsimp only at h ⊢
    by_cases herror : error ≠ .ok
    · rw [if_pos herror] at h ⊢
      exact follows_pure h
    rw [if_neg herror] at h ⊢
    cases beginProxy with
    | true => exact Prog.Follows.bind h fun _ _ h => follows_pure h
    | false => exact follows_pure h
  | malformed => exact (walk.refuse h hlt hpush (.inl rfl)).bind fun _ _ h => follows_pure h
  | tooLarge => exact (walk.refuse h hlt hpush (.inr rfl)).bind fun _ _ h => follows_pure h

/-- What holds of the phase at the turns of the loop of `client_task` and behind it. -/
structure ClientWalk (next : Phase → (o : Op) → o.Res → Option Phase) (transport : TransportApi)
    (context : ClientContext) where
  turning : BridgeSession → BridgeMessageDecoder → ℤ → Phase → Prop
  ended : BridgeSession → Phase → Prop
  receive {session : BridgeSession} {decoder : BridgeMessageDecoder} {lastActivityUs : ℤ}
    {ph : Phase} (h : turning session decoder lastActivityUs ph) :
    (op (.recv context.socket bridgeTcpReadBytes)).Follows next
      (fun (received : RecvResult) ph => match received with
        | .closed | .error .other => ended session ph
        | .error .eintr => turning session decoder lastActivityUs ph
        | .error .eagain => (op .timerGetTime).Follows next (fun (nowUs : ℤ) ph =>
            if nowUs - lastActivityUs < bridgeClientIdleTimeoutMs * 1000 then
              turning session decoder lastActivityUs ph
            else ended session ph) ph
        | .data input => (op .timerGetTime).Follows next (fun (nowUs : ℤ) =>
            (handleInput transport context input session decoder).Follows next fun result ph =>
              if result.2.2 then ended result.1 ph
              else turning result.1 result.2.1 nowUs ph) ph) ph

/-- `client_task` up to its loop. -/
def clientOpening (context : ClientContext) : Routine (BridgeSession × ℤ) := do
  op (.setSocketTimeouts context.socket)
  let bridgeNonce : Vector UInt8 bridgeNonceBytes ← op (.fillRandom bridgeNonceBytes)
  let sessionId : Vector UInt8 bridgeSessionIdBytes ← op (.fillRandom bridgeSessionIdBytes)
  op (.mark (.session (bridgeSessionInit bridgeNonce sessionId)))
  let startedUs : ℤ ← op .timerGetTime
  return (bridgeSessionInit bridgeNonce sessionId, startedUs)

/-- And from there on. -/
def clientClosing (context : ClientContext) (session : BridgeSession) : Routine Unit := do
  op (.mark (.session (bridgeSessionClose session)))
  op (.shutdown context.socket)
  op (.close context.socket)
  op .releaseClient
  op .taskDeleteSelf

theorem ClientWalk.follows {context : ClientContext} {Q : Unit → Phase → Prop}
    (walk : ClientWalk next transport context)
    (hopen : (clientOpening context).Follows next (fun opened =>
      walk.turning opened.1 bridgeMessageDecoderReset opened.2) ph)
    (hclose : ∀ session ph, walk.ended session ph →
      (clientClosing context session).Follows next Q ph) :
    (clientTask transport context).Follows next Q ph := by
  have hopening {α : Type} (k : BridgeSession × ℤ → Routine α) : clientOpening context >>= k = (do
      op (.setSocketTimeouts context.socket)
      let bridgeNonce : Vector UInt8 bridgeNonceBytes ← op (.fillRandom bridgeNonceBytes)
      let sessionId : Vector UInt8 bridgeSessionIdBytes ← op (.fillRandom bridgeSessionIdBytes)
      op (.mark (.session (bridgeSessionInit bridgeNonce sessionId)))
      let startedUs : ℤ ← op .timerGetTime
      k (bridgeSessionInit bridgeNonce sessionId, startedUs)) := by
    simp only [clientOpening, bind_assoc, pure_bind]
  rw [clientTask]
  rw [← hopening fun opened => .loop (opened.1, bridgeMessageDecoderReset, opened.2) _ >>= _]
  refine hopen.bind fun opened ph h => ?_
  refine .bind (S := walk.ended) (.loop (fun x => walk.turning x.1 x.2.1 x.2.2) h ?_) hclose
  rintro ⟨session, decoder, lastActivityUs⟩ ph h
  refine (walk.receive h).bind fun received ph h => ?_
  cases received with
  | closed => exact follows_pure h
  | error errno =>
    cases errno with
    | eintr => exact follows_pure h
    | eagain =>
      dsimp only
      rw [if_neg (by decide), if_pos rfl, bind_assoc]
      refine Prog.Follows.bind h fun nowUs ph h => follows_pure ?_
      by_cases hidle : nowUs - lastActivityUs < bridgeClientIdleTimeoutMs * 1000
      · rw [if_pos hidle] at h
        rw [decide_eq_true hidle]
        exact h
      · rw [if_neg hidle] at h
        rw [decide_eq_false hidle]
        exact h
    | other => exact follows_pure h
  | data input =>
    refine Prog.Follows.bind h fun nowUs ph h => ?_
    refine Prog.Follows.bind h ?_
    rintro ⟨session, decoder, finished⟩ ph h
    cases finished with
    | true => exact follows_pure h
    | false => exact follows_pure h

/-- What holds of the phase at the points of the writer's loop and behind it. -/
structure WriterWalk (next : Phase → (o : Op) → o.Res → Option Phase) (transport : TransportApi)
    (socket : ℕ) where
  turning : Phase → Prop
  /-- The proxy has not stopped. -/
  reading : Phase → Prop
  leaving : Phase → Prop
  look {ph : Phase} (h : turning ph) : (op (.proxyBits socket)).Follows next
    (fun (bits : ProxyBits) ph => if bits.stop then leaving ph else reading ph) ph
  pass {ph : Phase} (h : reading ph) : (transport.receiveRpc bridgeTcpReadBytes).Follows next
    (fun received ph =>
      if received.1 = .ok then (sendAll socket received.2).Follows next
        (fun sent ph => if sent = .ok then turning ph else leaving ph) ph
      else if received.1 = .timeout then turning ph
      else leaving ph) ph

/-- `proxy_writer_task` from the end of its loop on. -/
def writerClosing (socket : ℕ) : Routine Unit := do
  let bits : ProxyBits ← op (.proxyBits socket)
  (if bits.stop then pure () else op (.shutdown socket))
  op (.proxySetDone socket)
  op .taskDeleteSelf

theorem WriterWalk.follows {socket : ℕ} {Q : Unit → Phase → Prop}
    (walk : WriterWalk next transport socket) (h : walk.turning ph)
    (hclose : ∀ ph, walk.leaving ph → (writerClosing socket).Follows next Q ph) :
    (proxyWriterTask transport socket).Follows next Q ph := by
  refine .bind (S := fun _ => walk.leaving) (.loop (fun _ => walk.turning) h ?_) fun _ => hclose
  intro _ ph h
  refine (walk.look h).bind fun bits ph h => ?_
  cases hstop : bits.stop with
  | true =>
    rw [hstop] at h
    exact follows_pure h
  | false =>
    rw [hstop] at h
    refine (walk.pass h).bind ?_
    rintro ⟨error, bytes⟩ ph h
    dsimp only at h ⊢
    by_cases hok : error = .ok
    · rw [if_pos hok] at h ⊢
      refine Prog.Follows.bind h fun sent ph h => follows_pure ?_
      by_cases hsent : sent = .ok
      · rw [if_pos hsent] at h ⊢
        exact h
      · rw [if_neg hsent] at h ⊢
        exact h
    · rw [if_neg hok] at h ⊢
      refine follows_pure ?_
      by_cases htimeout : error = .timeout
      · rw [if_pos htimeout] at h ⊢
        exact h
      · rw [if_neg htimeout] at h ⊢
        exact h

/-- What holds of the phase at the points of the accept loop. -/
structure AcceptWalk (next : Phase → (o : Op) → o.Res → Option Phase) where
  listening : Phase → Prop
  accepted : ℕ → Phase → Prop
  /-- The slot is claimed. -/
  holding : ℕ → Phase → Prop
  allocated : ℕ → Phase → Prop
  /-- There was no memory for the client's task. -/
  failed : ℕ → Phase → Prop
  accept {ph : Phase} (h : listening ph) : (op .accept).Follows next
    (fun (result : Except Errno ℕ) ph => match result with
      | .error errno => (if errno = .eintr then pure () else op (.delay 250)).Follows next
          (fun _ => listening) ph
      | .ok socket => accepted socket ph) ph
  claim {socket : ℕ} {ph : Phase} (h : accepted socket ph) : (op .claimClient).Follows next
    (fun (claimed : Bool) ph =>
      if claimed then holding socket ph
      else (rejectBusyClient socket).Follows next (fun _ => listening) ph) ph
  allocate {socket : ℕ} {ph : Phase} (h : holding socket ph) : (op .callocContext).Follows next
    (fun (success : Bool) ph => if success then allocated socket ph else failed socket ph) ph
  create {socket : ℕ} {ph : Phase} (h : allocated socket ph) :
    (op (.taskCreate (.client socket))).Follows next
      (fun (created : Bool) ph => if created then listening ph else failed socket ph) ph
  abandon {socket : ℕ} {ph : Phase} (h : failed socket ph) :
    (do
      op (.close socket)
      op .releaseClient : Routine Unit).Follows next (fun _ => listening) ph

namespace AcceptWalk
variable (walk : AcceptWalk next)
include walk

/-- The loop goes on for ever. -/
theorem accepts (h : walk.listening ph) : acceptLoop.Follows next (fun _ _ => False) ph := by
  refine .loop (fun _ => walk.listening) h fun _ ph h => ?_
  refine (walk.accept h).bind fun result ph h => ?_
  cases result with
  | error errno => exact Prog.Follows.bind h fun _ _ h => follows_pure h
  | ok socket =>
    refine (walk.claim h).bind fun claimed ph h => ?_
    cases claimed with
    | false => exact Prog.Follows.bind h fun _ _ h => follows_pure h
    | true =>
    refine (walk.allocate h).bind fun success ph h => ?_
    cases success with
    | false =>
      rw [Bool.not_false, if_pos rfl, ← bind_assoc]
      exact (walk.abandon h).bind fun _ _ h => follows_pure h
    | true =>
    refine (walk.create h).bind fun created ph h => ?_
    have hafter : (if created then pure () else do
        op (.close socket)
        op .releaseClient : Routine Unit).Follows next (fun _ => walk.listening) ph := by
      cases created with
      | true => exact follows_pure h
      | false => exact walk.abandon h
    exact hafter.bind fun _ _ h => follows_pure h

theorem follows {Q : Unit → Phase → Prop}
    (hlisten : (op .listen).Follows next (fun (listening : Bool) ph =>
      if listening then walk.listening ph else (op .taskDeleteSelf).Follows next Q ph) ph) :
    serverTask.Follows next Q ph := by
  refine hlisten.bind fun listening ph h => ?_
  cases listening with
  | true => exact Prog.Follows.bind (walk.accepts h) fun _ _ hnever => hnever.elim
  | false => exact h

end AcceptWalk

/-! ### Code that stays in one phase -/

variable (next ph transport) in
/-- Neither the calls of the transport that requests lead to nor these operations leave the
phase. -/
structure Attends (ok : Op → Bool) : Prop where
  free : ∀ o, ok o = true → ∀ r, next ph o r = some ph
  state : transport.state.Keeps next ph
  negotiatedBaud : transport.negotiatedBaud.Keeps next ph
  requestReconnect : transport.requestReconnect.Keeps next ph
  beginRpc : transport.beginRpc.Keeps next ph
  endRpc : transport.endRpc.Keeps next ph

/-- A role that the helpers of the transport do not move lets its calls pass. -/
theorem Passes.attends {ok : Op → Bool} (h : Passes next ph calling)
    (hfree : ∀ o, ok o = true → ∀ r, next ph o r = some ph) :
    Attends next ph expansionTransport ok where
  free := hfree
  state := h.last rfl
  negotiatedBaud := h.last rfl
  requestReconnect := h.last rfl
  beginRpc := h.traced h.beginRpc
  endRpc := h.traced h.endRpc

namespace Attends
variable {ok : Op → Bool}

theorem sub {ok' : Op → Bool} (h : Attends next ph transport ok)
    (hsub : ∀ o, ok' o = true → ok o = true) : Attends next ph transport ok' :=
  { h with free := fun o ho => h.free o (hsub o ho) }

section Any
variable (h : Attends next ph transport ok)
include h

theorem step {α : Type} {o : Op} {k : o.Res → Routine α} (ho : ok o = true)
    (hk : ∀ r, (k r).Keeps next ph) : (op o >>= k).Keeps next ph := keeps_op (h.free o ho) hk

end Any

section Answers
variable {socket : ℕ} {session : BridgeSession} {request : BridgeMessage}
  (h : Attends next ph transport (answering socket))
include h

theorem respond {status : BridgeStatus} {payload : List UInt8} :
    (sendResponse socket request status payload).Keeps next ph := by
  have honly : (sendResponse socket request status payload).Only (answering socket · = true) :=
    sendResponse_only rfl fun _ => BEq.rfl
  exact (honly.mono h.free).keeps

theorem answer {status : BridgeStatus} {payload : List UInt8} :
    (FlipforgeBridge.answer socket session request status payload).Keeps next ph :=
  h.respond.bind fun _ => keeps_pure

theorem answerJson {json : String} :
    (FlipforgeBridge.answerJson socket session request json).Keeps next ph := by
  unfold FlipforgeBridge.answerJson
  split
  · exact keeps_pure
  · exact h.answer

theorem beginProxy : (beginRpcProxy transport socket session request).Keeps next ph := by
  refine .bind ?_ fun refused => ?_
  · split
    · exact keeps_pure
    · exact h.state.bind fun _ => keeps_pure
  split
  · exact h.requestReconnect.bind fun _ => h.answer
  apply h.beginRpc.bind
  intro error
  split
  · exact h.answer
  split
  · exact h.endRpc.bind fun _ => keeps_pure
  apply h.respond.bind
  intro error
  split
  · exact h.endRpc.bind fun _ => keeps_pure
  · exact keeps_pure

end Answers

section Manages
variable {context : ClientContext} {session : BridgeSession} {request : BridgeMessage}
  (h : Attends next ph transport (answering context.socket))
include h

theorem command :
    (handleAuthenticatedCommand transport context session request).Keeps next ph := by
  unfold handleAuthenticatedCommand getBridgeInfo getStatus endRpcProxy
  repeat' split
  any_goals exact h.answer
  · exact h.step rfl fun _ => h.step rfl fun _ =>
      h.state.bind fun _ => h.negotiatedBaud.bind fun _ => h.answerJson
  · exact h.step rfl fun _ => h.state.bind fun _ => h.negotiatedBaud.bind fun _ => h.answerJson
  · exact h.beginProxy

theorem manage : (handleManagementMessage transport context session request).Keeps next ph := by
  unfold handleManagementMessage handleHello handleAuthenticate
  repeat' split
  any_goals first | exact h.answer | exact h.command
  apply h.step rfl
  intro expected
  split
  · exact h.respond.bind fun _ => keeps_pure
  · exact h.answer

end Manages

theorem answers {socket : ℕ} (h : Attends next ph transport (serving socket)) :
    Attends next ph transport (answering socket) := h.sub fun _ => serving_of_answering

section Serves
variable {context : ClientContext} (h : Attends next ph transport (serving context.socket))
include h

theorem handle {session : BridgeSession} {request : BridgeMessage} :
    (tracedHandle transport context session request).Keeps next ph :=
  h.step rfl fun _ => h.answers.manage.bind fun _ => h.step rfl fun _ => keeps_pure

variable {E : Phase → Prop} (hover : E ph)
  (hproxy : ∀ bytes, (rpcProxyRun transport context.socket bytes).Follows next (fun _ => E) ph)
include hover hproxy

/-- A chunk is dealt with in one phase, except that the connection is over after raw RPC. -/
theorem input {input : List UInt8} {session : BridgeSession} {decoder : BridgeMessageDecoder} :
    (handleInput transport context input session decoder).Follows next
      (fun result ph' => if result.2.2 = true then E ph' else ph' = ph) ph := by
  let walk : InputWalk next transport context input :=
    { turning := fun _ _ _ ph' => ph' = ph
      done := fun result ph' => if result.2.2 = true then E ph' else ph' = ph
      finish := fun h _ => h
      more := fun h _ _ => h
      ready := by
        rintro _ _ _ _ _ _ _ rfl - -
        refine h.handle.mono ?_
        rintro ⟨error, session, beginProxy⟩ _ rfl
        dsimp only
        split
        · exact hover
        cases beginProxy with
        | true => exact hproxy _
        | false => exact rfl
      refuse := by
        rintro _ _ _ _ _ _ _ rfl - - -
        refine h.answers.respond.mono ?_
        rintro _ _ rfl
        exact hover }
  exact walk.follows rfl

theorem client {Q : Unit → Phase → Prop}
    (hclose : ∀ session ph', E ph' → (clientClosing context session).Follows next Q ph') :
    (clientTask transport context).Follows next Q ph := by
  let walk : ClientWalk next transport context :=
    { turning := fun _ _ _ ph' => ph' = ph
      ended := fun _ => E
      receive := by
        rintro _ _ _ _ rfl
        refine follows_last fun received => ⟨_, h.free _ BEq.rfl _, ?_⟩
        cases received with
        | closed => exact hover
        | error errno =>
          cases errno with
          | eintr => exact rfl
          | eagain =>
            refine follows_last fun nowUs => ⟨_, h.free _ rfl _, ?_⟩
            split
            · rfl
            · exact hover
          | other => exact hover
        | data input =>
          exact follows_last fun nowUs => ⟨_, h.free _ rfl _, h.input hover hproxy⟩ }
  refine walk.follows ?_ hclose
  exact h.step BEq.rfl fun _ => h.step rfl fun _ => h.step rfl fun _ => h.step rfl fun _ =>
    h.step rfl fun _ => keeps_pure

end Serves
end Attends

section Relays
variable {socket : ℕ} (hfree : ∀ o, relaying socket o = true → ∀ r, next ph o r = some ph)
  (hstate : transport.state.Keeps next ph) (hend : transport.endRpc.Keeps next ph)
  (hsend : ∀ bytes, (transport.sendRpc bytes).Keeps next ph)
include hfree hstate hend hsend

/-- Raw RPC in one phase. -/
theorem rpcProxyRun_keeps {initial : List UInt8} :
    (rpcProxyRun transport socket initial).Keeps next ph := by
  let walk : ProxyWalk next transport socket initial :=
    { ready := fun ph' => ph' = ph
      grouped := fun ph' => ph' = ph
      unmanned := fun ph' => ph' = ph
      manned := fun ph' => ph' = ph
      forwarding := fun ph' => ph' = ph
      stopped := fun ph' => ph' = ph
      ending := fun ph' => ph' = ph
      ended := fun ph' => ph' = ph
      create := by
        rintro _ rfl
        exact follows_either (keeps_last (hfree _ BEq.rfl))
      man := by
        rintro _ rfl
        exact follows_either (keeps_last (hfree _ BEq.rfl))
      drop := by
        rintro _ rfl
        exact keeps_last (hfree _ BEq.rfl)
      begin := by
        rintro _ rfl
        split
        · exact hsend _
        · exact keeps_pure
      look := by
        rintro _ rfl
        exact keeps_last (hfree _ BEq.rfl)
      receive := by
        rintro _ rfl
        refine follows_last fun received => ⟨_, hfree _ BEq.rfl _, ?_⟩
        cases received with
        | data bytes => exact hsend _
        | closed => exact rfl
        | error errno => exact rfl
      stop := by
        rintro _ rfl
        exact keeps_op (hfree _ BEq.rfl) fun _ => keeps_last (hfree _ BEq.rfl)
      drain := by
        rintro _ rfl
        exact keeps_op (hfree _ BEq.rfl) fun _ => keeps_last (hfree _ BEq.rfl)
      finish := by
        rintro _ rfl
        exact hend }
  exact walk.follows (follows_either hstate)

end Relays

end Walk
end FlipforgeBridge
