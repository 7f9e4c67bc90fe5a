import FlipforgeBridge.Bridge.Client
import FlipforgeBridge.Connection.Traversal

/-!
How a client task asks the Flipper. Another role of the same code: between the critical sections
of `send_wait_status` at most one frame is written, the link loss is signalled when no STATUS None
was read, and a call of `send_rpc` asks for its bytes piece by piece.
-/
namespace FlipforgeBridge
open Process

namespace Bridge

/-- How far a call of `send_rpc` is. -/
inductive Forward
  | none
  | entered (bytes : List UInt8)
  /-- `rest` is not acknowledged yet. -/
  | sending (bytes rest : List UInt8)
  /-- The link loss was signalled. -/
  | broken (bytes : List UInt8)
  deriving DecidableEq, Repr

namespace Forward

/-- The first request of a call. -/
def begin : Forward → Forward
  | .entered bytes => .sending bytes bytes
  | forward => forward

/-- What the call may write next. -/
def allows : Forward → List UInt8 → Bool
  | .none, _ => true
  | .sending _ rest, frame => rest ≠ [] ∧
      expansionProtocolEncode (.data (rest.take bridgeExpansionMaxData)) expansionFrameSize =
        some frame
  | _, _ => false

/-- A piece was acknowledged. -/
def acked : Forward → Forward
  | .sending bytes rest => .sending bytes (rest.drop bridgeExpansionMaxData)
  | forward => forward

def broke : Forward → Forward
  | .entered bytes | .sending bytes _ | .broken bytes => .broken bytes
  | .none => .none

/-- How the call may return. -/
def leaves : Forward → List UInt8 → EspErr → Bool
  | .entered bytes, bytes', error => bytes' = bytes ∧ (error = .ok → bytes = [])
  | .sending bytes rest, bytes', error => bytes' = bytes ∧ rest = [] ∧ error = .ok
  | .broken bytes, bytes', error => bytes' = bytes ∧ error ≠ .ok
  | .none, _, _ => false

end Forward

inductive AskStage
  | resting
  | armed
  /-- A frame was written. -/
  | asked
  /-- The link loss is to be signalled. -/
  | owing
  deriving DecidableEq, Repr

structure AskPhase where
  forward : Forward := .none
  stage : AskStage := .resting
  deriving DecidableEq, Repr

/-- Operations that have no part in asking. -/
def apart : Op → Bool
  | .mark (.enter (.sendRpc _)) | .mark (.leave (.sendRpc _) _) => false
  | .locked .armRequest | .locked .disarmRequest => false
  | .uartWriteBytes _ | .setLost _ => false
  | .releaseClient | .taskDeleteSelf | .taskDelete _ _ => false
  | _ => true

def askNext (ph : AskPhase) : (o : Op) → o.Res → Option AskPhase
  | .mark (.enter (.sendRpc bytes)), _ =>
    if ph = {} then some { forward := .entered bytes } else none
  | .mark (.leave (.sendRpc bytes) error), _ =>
    if ph.stage = .resting ∧ ph.forward.leaves bytes error then some {} else none
  | .locked .armRequest, _ =>
    if ph.stage = .resting then some ⟨ph.forward.begin, .armed⟩ else none
  | .uartWriteBytes frame, _ =>
    if ph.stage = .armed ∧ ph.forward.allows frame then some { ph with stage := .asked } else none
  | .locked .disarmRequest, status =>
    if ph.stage = .asked ∧ status = ExpansionFrameError.none then some ⟨ph.forward.acked, .resting⟩
    else if ph.stage = .armed ∨ ph.stage = .asked then some { ph with stage := .owing }
    else none
  | .setLost _, _ =>
    if ph.stage = .resting ∨ ph.stage = .owing then some ⟨ph.forward.broke, .resting⟩ else none
  | .releaseClient, _ | .taskDeleteSelf, _ => if ph = {} then some ph else none
  | .taskDelete _ _, _ => none
  | _, _ => some ph

theorem askNext_apart {ph : AskPhase} {o : Op} (h : apart o = true) (r : o.Res) :
    askNext ph o r = some ph := by
  cases o with
  | mark m =>
    cases m with
    | enter call => cases call <;> first | rfl | cases h
    | leave call error => cases call <;> first | rfl | cases h
    | _ => rfl
  | locked s => cases s <;> first | rfl | cases h
  | uartWriteBytes bytes | setLost reason => cases h
  | releaseClient | taskDeleteSelf | taskDelete kind handle => cases h
  | _ => rfl

theorem apart_of_quiet {o : Op} (h : quiet o = true) : apart o = true := by
  cases o with
  | mark m => cases h
  | locked s => cases s <;> first | rfl | cases h
  | uartWriteBytes bytes | setLost reason => cases h
  | releaseClient | taskDeleteSelf | taskDelete kind handle => cases h
  | _ => rfl

theorem ask_idles (ph : AskPhase) : Idles askNext ph := fun _ r ho =>
  askNext_apart (apart_of_quiet ho) r

section Asks
variable {α : Type} {ph : AskPhase} {o : Op} {k : o.Res → Routine α} {Q : α → AskPhase → Prop}

theorem asks_stay (ho : apart o = true) (hk : ∀ r, (k r).Follows askNext Q ph) :
    (op o >>= k).Follows askNext Q ph := follows_stay (askNext_apart ho) hk

end Asks

/-! ### Calls of the transport -/

/-- An exchange that did not end with STATUS None leaves the link loss to be signalled. -/
def Unanswered (forward : Forward) (ph : AskPhase) : Prop :=
  (ph.stage = .resting ∨ ph.stage = .owing) ∧ ph.forward.broke = forward.broke

theorem signalLinkLost_asks {reason : LossReason} {forward : Forward} {ph : AskPhase}
    (h : Unanswered forward ph) : (signalLinkLost reason).Follows askNext
      (fun _ ph' => ph' = ⟨forward.broke, .resting⟩) ph := by
  obtain ⟨hstage, hforward⟩ := h
  apply asks_stay rfl
  intro _
  exact follows_last fun _ => ⟨_, if_pos hstage, by rw [hforward]⟩

theorem sendWaitStatus_asks {frame : ExpansionFrame} (forward : Forward)
    (hbegin : forward.begin.broke = forward.broke)
    (hacked : forward.begin.acked.broke = forward.broke)
    (hallows : ∀ encoded, expansionProtocolEncode frame expansionFrameSize = some encoded →
      forward.begin.allows encoded = true) :
    (sendWaitStatus frame).Follows askNext
      (fun result ph => if result.1 = .ok ∧ result.2 = .none
        then ph = ⟨forward.begin.acked, .resting⟩
        else Unanswered forward ph) ⟨forward, .resting⟩ := by
  have hidle := ask_idles ⟨forward, .resting⟩
  refine hidle.stay rfl fun taken => ?_
  split
  · exact follows_pure ⟨.inl rfl, rfl⟩
  refine (hidle.only drainStatus_only).bind ?_
  rintro _ _ rfl
  refine follows_op fun _ => ⟨⟨forward.begin, .armed⟩, rfl, ?_⟩
  refine asks_stay rfl fun started => ?_
  refine .bind (S := fun error ph => ph = ⟨forward.begin, .asked⟩ ∨
    error ≠ .ok ∧ ph = ⟨forward.begin, .armed⟩) ?_ ?_
  · refine sendFrame_follows (ask_idles _) (fun error herror => .inr ⟨herror, rfl⟩) ?_
    intro encoded hencode written
    have hwrite : askNext ⟨forward.begin, .armed⟩ (.uartWriteBytes encoded) written =
        some ⟨forward.begin, .asked⟩ := if_pos ⟨rfl, hallows encoded hencode⟩
    exact ⟨_, hwrite, ask_idles _, fun _ _ => .inl rfl⟩
  rintro error ph hph
  refine .bind (S := fun error' ph' => ph' = ph ∧ (error' = .ok → error = .ok)) ?_ ?_
  · split
    · next herror => exact asks_stay rfl fun _ => follows_pure ⟨rfl, fun _ => herror⟩
    · exact follows_pure ⟨rfl, fun herror => herror⟩
  rintro error' ph ⟨rfl, herror⟩
  refine asks_stay rfl fun now => ?_
  refine follows_op fun status => ?_
  have hafter : ∃ ph', askNext ph (.locked .disarmRequest) status = some ph' ∧
      if error' = .ok ∧ status = .none then ph' = ⟨forward.begin.acked, .resting⟩
        else Unanswered forward ph' := by
    obtain rfl | ⟨hunsent, rfl⟩ := hph
    · by_cases hstatus : status = .none
      · refine ⟨⟨forward.begin.acked, .resting⟩, if_pos ⟨rfl, hstatus⟩, ?_⟩
        split
        · rfl
        · exact ⟨.inl rfl, hacked⟩
      · refine ⟨⟨forward.begin, .owing⟩, ?_, ?_⟩
        · simp [askNext, hstatus]
        · rw [if_neg fun hboth => hstatus hboth.2]
          exact ⟨.inr rfl, hbegin⟩
    · refine ⟨⟨forward.begin, .owing⟩, by simp [askNext], ?_⟩
      rw [if_neg fun hboth => hunsent (herror hboth.1)]
      exact ⟨.inr rfl, hbegin⟩
  obtain ⟨ph', hnext, hresult⟩ := hafter
  exact ⟨ph', hnext, asks_stay rfl fun _ => follows_pure hresult⟩

/-- Outside `send_rpc`, with nothing asked. -/
abbrev unasked : AskPhase := {}

theorem control_asks {frame : ExpansionFrame} : (sendWaitStatus frame).Follows askNext
    (fun result ph => if result.1 = .ok ∧ result.2 = .none then ph = unasked
      else Unanswered .none ph) unasked :=
  sendWaitStatus_asks .none rfl rfl fun _ _ => rfl

/-- What a client does with the answer to START RPC or STOP RPC. -/
theorem confirm_asks {event : ExpansionEvent} {error : EspErr} {status : ExpansionFrameError}
    {ph : AskPhase}
    (h : if error = .ok ∧ status = .none then ph = unasked else Unanswered .none ph) :
    (if error ≠ .ok ∨ status ≠ .none then pure false else do
      let (accepted, _) ← transportApply event
      pure accepted : Routine Bool).Follows askNext
      (fun confirmed ph => if confirmed = true then ph = unasked else Unanswered .none ph) ph := by
  by_cases hok : error = .ok ∧ status = .none
  · rw [if_pos hok] at h
    obtain rfl := h
    rw [if_neg (by simp [hok])]
    apply asks_stay rfl
    rintro ⟨accepted, action⟩
    cases accepted
    · exact follows_pure ⟨.inl rfl, rfl⟩
    · exact follows_pure rfl
  · rw [if_neg hok] at h
    rw [if_pos (by simpa [or_iff_not_imp_left] using hok)]
    exact follows_pure h

theorem beginRpc_asks : expansionTransportBeginRpc.Follows askNext (fun _ ph => ph = unasked)
    unasked := by
  apply asks_stay rfl
  intro state
  split
  · exact asks_stay rfl fun _ => follows_pure rfl
  apply asks_stay rfl
  rintro ⟨accepted, action⟩
  dsimp only
  split
  · exact follows_pure rfl
  refine control_asks.bind ?_
  rintro ⟨error, status⟩ ph hph
  refine (confirm_asks hph).bind ?_
  rintro started ph hph
  cases started with
  | true => exact follows_pure hph
  | false =>
    refine (signalLinkLost_asks hph).bind ?_
    rintro _ _ rfl
    exact follows_pure rfl

theorem endRpc_asks : expansionTransportEndRpc.Follows askNext (fun _ ph => ph = unasked)
    unasked := by
  apply asks_stay rfl
  intro state
  split
  · exact follows_pure rfl
  apply asks_stay rfl
  intro state
  split
  · exact follows_pure rfl
  apply asks_stay rfl
  rintro ⟨accepted, action⟩
  dsimp only
  split
  · exact follows_pure rfl
  refine control_asks.bind ?_
  rintro ⟨error, status⟩ ph hph
  refine (confirm_asks hph).bind ?_
  rintro stopped ph hph
  cases stopped with
  | true =>
    obtain rfl : ph = unasked := hph
    exact asks_stay rfl fun _ => follows_pure rfl
  | false =>
    refine (signalLinkLost_asks hph).bind ?_
    rintro _ _ rfl
    exact follows_pure rfl

/-- A piece is what is left, up to the size of a DATA frame. -/
theorem take_chunk (rest : List UInt8) :
    rest.take
      (if rest.length < bridgeExpansionMaxData then rest.length else bridgeExpansionMaxData) =
      rest.take bridgeExpansionMaxData := by
  split
  · next hshort => rw [List.take_length, List.take_of_length_le (Nat.le_of_lt hshort)]
  · rfl

theorem drop_chunk (rest : List UInt8) :
    rest.drop
      (if rest.length < bridgeExpansionMaxData then rest.length else bridgeExpansionMaxData) =
      rest.drop bridgeExpansionMaxData := by
  split
  · next hshort => rw [List.drop_length, List.drop_of_length_le (Nat.le_of_lt hshort)]
  · rfl

/-- Between two pieces. -/
inductive Sending (bytes rest : List UInt8) : AskPhase → Prop
  | entered (h : rest = bytes) : Sending bytes rest ⟨.entered bytes, .resting⟩
  | sending : Sending bytes rest ⟨.sending bytes rest, .resting⟩

theorem piece_asks {bytes rest : List UInt8} {ph : AskPhase} (h : Sending bytes rest ph)
    (hrest : rest ≠ []) :
    (sendWaitStatus (.data (rest.take bridgeExpansionMaxData))).Follows askNext
      (fun result ph => if result.1 = .ok ∧ result.2 = .none then
          ph = ⟨.sending bytes (rest.drop bridgeExpansionMaxData), .resting⟩
        else (ph.stage = .resting ∨ ph.stage = .owing) ∧ ph.forward.broke = .broken bytes) ph := by
  have hallows : ∀ encoded, expansionProtocolEncode (.data (rest.take bridgeExpansionMaxData))
      expansionFrameSize = some encoded → (Forward.sending bytes rest).allows encoded = true :=
    fun encoded hencode => decide_eq_true ⟨hrest, hencode⟩
  cases h with
  | entered h =>
    subst h
    exact sendWaitStatus_asks (.entered rest) rfl rfl hallows
  | sending => exact sendWaitStatus_asks (.sending bytes rest) rfl rfl hallows

theorem sendRpc_asks {bytes : List UInt8} : (expansionTransportSendRpc bytes).Follows askNext
    (fun error ph => ph.stage = .resting ∧ ph.forward.leaves bytes error = true)
    ⟨.entered bytes, .resting⟩ := by
  apply asks_stay rfl
  intro state
  split
  · exact follows_pure ⟨rfl, by simp [Forward.leaves]⟩
  refine .loop (fun offset ph => Sending bytes (bytes.drop offset) ph) (.entered rfl) ?_
  intro offset ph hph
  split
  · next hend =>
    have hnil : bytes.drop offset = [] := List.drop_of_length_le (Nat.le_of_not_lt hend)
    rw [hnil] at hph
    cases hph with
    | entered h =>
      subst h
      exact follows_pure ⟨rfl, rfl⟩
    | sending => exact follows_pure ⟨rfl, by simp [Forward.leaves]⟩
  next hmore =>
  have hrest : bytes.drop offset ≠ [] := by
    rw [ne_eq, List.drop_eq_nil_iff, Nat.not_le]
    exact not_not.mp hmore
  dsimp only
  rw [← List.length_drop, take_chunk]
  refine (piece_asks hph hrest).bind ?_
  rintro ⟨error, status⟩ ph' hph'
  by_cases hok : error = .ok ∧ status = .none
  · rw [if_pos hok] at hph'
    obtain rfl := hph'
    dsimp only
    rw [if_neg (by simp [hok])]
    refine follows_pure ?_
    change Sending bytes _ _
    rw [← List.drop_drop, drop_chunk]
    exact .sending
  · rw [if_neg hok] at hph'
    dsimp only
    rw [if_pos (by simpa [or_iff_not_imp_left] using hok)]
    have hbroken : Unanswered (.broken bytes) ph' := hph'
    refine (signalLinkLost_asks hbroken).bind ?_
    rintro _ _ rfl
    refine follows_pure ⟨rfl, ?_⟩
    by_cases herror : error = .ok
    · simp [Forward.leaves, Forward.broke, herror]
    · simp [Forward.leaves, Forward.broke, herror]

theorem traced_sendRpc_asks {bytes : List UInt8} :
    (expansionTransport.sendRpc bytes).Follows askNext (fun _ ph => ph = unasked) unasked := by
  refine follows_op fun _ => ⟨⟨.entered bytes, .resting⟩, rfl, ?_⟩
  refine sendRpc_asks.bind ?_
  rintro error ph ⟨hstage, hleaves⟩
  exact follows_op fun _ => ⟨unasked, if_pos ⟨hstage, hleaves⟩, follows_pure rfl⟩

theorem traced_beginRpc_asks : expansionTransport.beginRpc.Follows askNext
    (fun _ ph => ph = unasked) unasked := by
  apply asks_stay rfl
  intro _
  refine beginRpc_asks.bind ?_
  rintro error _ rfl
  exact asks_stay rfl fun _ => follows_pure rfl

theorem traced_endRpc_asks : expansionTransport.endRpc.Follows askNext
    (fun _ ph => ph = unasked) unasked := by
  apply asks_stay rfl
  intro _
  refine endRpc_asks.bind ?_
  rintro error _ rfl
  exact asks_stay rfl fun _ => follows_pure rfl

/-! ### The client task -/

theorem apart_of_serving {socket : ℕ} {o : Op} (h : serving socket o = true) :
    apart o = true := by
  cases o with
  | mark m => cases m <;> first | rfl | cases h
  | _ => first | rfl | cases h

theorem apart_of_relaying {socket : ℕ} {o : Op} (h : relaying socket o = true) :
    apart o = true := by
  cases o <;> first | rfl | cases h

theorem serves_unasked (socket : ℕ) :
    Attends askNext unasked expansionTransport (serving socket) where
  free _ ho := askNext_apart (apart_of_serving ho)
  state := keeps_last (askNext_apart rfl)
  negotiatedBaud := keeps_last (askNext_apart rfl)
  requestReconnect := keeps_last (askNext_apart rfl)
  beginRpc := traced_beginRpc_asks
  endRpc := traced_endRpc_asks

theorem rpcProxyRun_asks {socket : ℕ} (initial : List UInt8) :
    (rpcProxyRun expansionTransport socket initial).Follows askNext (fun _ ph => ph = unasked)
      unasked :=
  rpcProxyRun_keeps (fun _ ho => askNext_apart (apart_of_relaying ho))
    (keeps_last (askNext_apart rfl)) traced_endRpc_asks fun _ => traced_sendRpc_asks

theorem client_asks {context : ClientContext} :
    (clientTask expansionTransport context).Follows askNext (fun _ _ => True) unasked := by
  apply (serves_unasked context.socket).client (E := (· = unasked)) rfl rpcProxyRun_asks
  rintro session _ rfl
  refine asks_stay rfl fun _ => asks_stay rfl fun _ => asks_stay rfl fun _ => ?_
  refine follows_op fun _ => ⟨unasked, rfl, ?_⟩
  exact follows_last fun _ => ⟨unasked, rfl, trivial⟩

/-! ### The choreography -/

def AskingPhase : Tid → Type
  | .client _ => AskPhase
  | _ => Unit

def askingNext : (i : Tid) → AskingPhase i → (o : Op) → o.Res → Option (AskingPhase i)
  | .client _ => askNext
  | .server | .supervisor | .writer _ | .rx _ | .heartbeat _ => fun ph _ _ => some ph

def askingEntry : (i : Tid) → AskingPhase i
  | .client _ => unasked
  | .server | .supervisor | .writer _ | .rx _ | .heartbeat _ => ()

/-- A role that allows everything. -/
theorem follows_anything {α : Type} (p : Routine α) :
    p.Follows (fun (ph : Unit) _ _ => some ph) (fun _ _ => True) () :=
  .of_closed (fun ph _ _ _ => ⟨ph, rfl, trivial⟩) trivial p

/-- The other tasks may do as they like. -/
def asking (secret : Vector UInt8 bridgePairingSecretBytes) : Choreography (bridge secret) where
  Phase := AskingPhase
  next := askingNext
  entry := askingEntry
  follows
    | .client _ => client_asks
    | .server | .supervisor | .writer _ | .rx _ | .heartbeat _ => follows_anything _

end Bridge
end FlipforgeBridge
