import FlipforgeBridge.Codec.Management
import FlipforgeBridge.Connection.System
import FlipforgeBridge.Connection.Traversal

/-!
The hand-over from management frames to raw mode. However `recv` splits the stream, the frames
of the management part are handled in order and the bytes after them go to the transport: none
is read as a frame, dropped or repeated at the boundary.
-/
namespace FlipforgeBridge
open Process

namespace Handover

abbrev Entry := Label platform Unit

/-- The bytes of one `recv`. -/
def chunk : RecvResult → List UInt8
  | .data bytes => bytes
  | _ => []

def receivedBy (l : Entry) : List UInt8 :=
  match l with
  | ⟨_, .recv _ _, result⟩ => chunk result
  | _ => []

def requestBy (l : Entry) : List BridgeMessage :=
  match l.op with
  | .mark (.handle _ request) => [request]
  | _ => []

def forwardedBy (l : Entry) : List UInt8 :=
  match l.op with
  | .transport (.sendRpc bytes) => bytes
  | _ => []

/-- Everything received, handled and handed to the transport so far, in order. -/
def received (trace : List Entry) : List UInt8 := gather receivedBy trace
def requests (trace : List Entry) : List BridgeMessage := gather requestBy trace
def forwarded (trace : List Entry) : List UInt8 := gather forwardedBy trace

def isRecv (l : Entry) : Bool :=
  match l.op with
  | .recv _ _ => true
  | _ => false

/-- The proxy's receive loop is over. -/
def isStop (l : Entry) : Bool :=
  match l.op with
  | .proxySetStop _ => true
  | _ => false

/-- The proxy has created its writer. -/
def isStart (l : Entry) : Bool :=
  match l with
  | ⟨_, .taskCreate _, created⟩ => created
  | _ => false

def wires (messages : List BridgeMessage) : List UInt8 := messages.flatMap wire

/-- Raw mode is agreed on with the last of `messages` and not before. -/
def Opens (messages : List BridgeMessage) (l : Entry) (past : List Entry) : Prop :=
  match l.op with
  | .mark (.handled _ _ _ _ beginProxy) =>
    beginProxy = true ↔ (requests past).length = messages.length
  | _ => True

instance {messages : List BridgeMessage} : ∀ l past, Decidable (Opens messages l past)
  | ⟨_, .mark (.handled _ _ _ _ _), _⟩, _ => inferInstanceAs (Decidable (_ ↔ _))
  | ⟨_, o, _⟩, _ => by
    unfold Opens
    split <;> infer_instance

/-- Where the task waits for input or the proxy stops, nothing received is left behind. -/
structure Settled (messages : List BridgeMessage) (l : Entry) (past : List Entry) : Prop where
  management : isRecv l → (∀ l' ∈ past, ¬ isStart l') → ∃ m later part,
    requests past ++ m :: later = messages ∧ received past = wires (requests past) ++ part ∧
      part.length < (wire m).length
  raw : isRecv l ∨ isStop l → (∃ l' ∈ past, isStart l') →
    received past = wires messages ++ forwarded past

/-! ### The role of the client task -/

inductive Phase
  | managing (decoder : BridgeMessageDecoder) (input : List UInt8)
  | handling (decoder : BridgeMessageDecoder) (input : List UInt8)
  | opened (input : List UInt8)
  | forwarding (pending : List UInt8)

/-- Operations that neither take, handle nor pass on input. -/
def neutral : Op → Bool
  | .recv _ _ | .mark (.handle _ _) | .mark (.handled _ _ _ _ _) | .transport (.sendRpc _)
  | .taskCreate _ | .proxySetStop _ => false
  | _ => true

def next : Phase → (o : Op) → o.Res → Option Phase
  | .managing decoder input, .recv _ _, result =>
    match bridgeMessageDecoderPush decoder input with
    | (.needMore, _, decoder) => some (.managing decoder (chunk result))
    | _ => none
  | .managing decoder input, .mark (.handle _ request), _ =>
    match bridgeMessageDecoderPush decoder input with
    | (.ready request', consumed, decoder) =>
      if request = request' then some (.handling decoder (input.drop consumed)) else none
    | _ => none
  | .handling decoder input, .mark (.handled _ _ _ _ beginProxy), _ =>
    some (if beginProxy then .opened input else .managing decoder input)
  | .opened input, .taskCreate _, created =>
    some (if created = true then .forwarding input else .opened input)
  | .forwarding pending, .transport (.sendRpc bytes), _ =>
    if bytes = pending then some (.forwarding []) else none
  | .forwarding pending, .recv _ _, result =>
    if pending = [] then some (.forwarding (chunk result)) else none
  | .forwarding pending, .proxySetStop _, _ =>
    if pending = [] then some (.forwarding []) else none
  | ph, o, _ => if neutral o then some ph else none

theorem next_neutral {ph : Phase} {o : Op} (h : neutral o = true) (r : o.Res) :
    next ph o r = some ph := by
  unfold next
  split <;> simp_all [neutral]

variable {context : ClientContext} {session : BridgeSession} {request : BridgeMessage}
  {socket : ℕ}

theorem neutral_of_answering {o : Op} (h : answering socket o = true) : neutral o = true := by
  cases o with
  | mark m => cases m <;> first | rfl | cases h
  | _ => first | rfl | cases h

theorem neutral_attends (ph : Phase) :
    Attends next ph abstractTransport (answering socket) where
  free _ ho := next_neutral (neutral_of_answering ho)
  state := keeps_last (next_neutral rfl)
  negotiatedBaud := keeps_last (next_neutral rfl)
  requestReconnect := keeps_last (next_neutral rfl)
  beginRpc := keeps_last (next_neutral rfl)
  endRpc := keeps_last (next_neutral rfl)

theorem tracedHandle_follows {decoder decoder' : BridgeMessageDecoder} {input : List UInt8}
    {consumed : ℕ}
    (h : bridgeMessageDecoderPush decoder input = (.ready request, consumed, decoder')) :
    (tracedHandle abstractTransport context session request).Follows next
      (fun result ph => ph = if result.2.2 then .opened (input.drop consumed)
        else .managing decoder' (input.drop consumed)) (.managing decoder input) := by
  have hhandle : next (.managing decoder input) (.mark (.handle session request)) () =
      some (.handling decoder' (input.drop consumed)) := by
    simp [next, h]
  refine follows_op fun _ => ⟨_, hhandle, ?_⟩
  refine .bind (neutral_attends _).manage ?_
  rintro ⟨error, after, beginProxy⟩ _ rfl
  exact follows_op fun _ => ⟨_, rfl, follows_pure rfl⟩

/-- The proxy hands over what it was given, then everything it receives. -/
def proxyWalk (initial : List UInt8) : ProxyWalk next abstractTransport socket initial where
  ready ph := ph = .opened initial
  grouped ph := ph = .opened initial
  unmanned _ := True
  manned ph := ph = .forwarding initial
  forwarding ph := ph = .forwarding []
  stopped _ := True
  ending _ := True
  ended _ := True
  create := by
    rintro _ rfl
    refine follows_last fun events => ⟨_, next_neutral rfl _, ?_⟩
    cases events <;> trivial
  man := by
    rintro _ rfl
    exact follows_last fun writer => ⟨_, rfl, by cases writer <;> trivial⟩
  drop _ := follows_last fun _ => ⟨_, next_neutral rfl _, trivial⟩
  begin := by
    rintro _ rfl
    split
    · exact follows_last fun _ => ⟨.forwarding [], if_pos rfl, rfl⟩
    · next hempty =>
      rw [Nat.not_lt, Nat.le_zero, List.length_eq_zero_iff] at hempty
      exact follows_pure (by rw [hempty])
  look := by
    rintro _ rfl
    exact follows_last fun _ => ⟨_, next_neutral rfl _, rfl⟩
  receive := by
    rintro _ rfl
    refine follows_last fun received => ⟨.forwarding (chunk received), rfl, ?_⟩
    cases received with
    | data bytes => exact follows_last fun _ => ⟨.forwarding [], if_pos rfl, rfl⟩
    | closed => rfl
    | error errno => rfl
  stop := by
    rintro _ rfl
    refine follows_op fun _ => ⟨.forwarding [], by simp [next], ?_⟩
    exact follows_last fun _ => ⟨_, next_neutral rfl _, trivial⟩
  drain _ := by
    refine follows_stay (next_neutral rfl) fun _ => ?_
    exact follows_last fun _ => ⟨_, next_neutral rfl _, trivial⟩
  finish _ := follows_last fun _ => ⟨_, next_neutral rfl _, trivial⟩

theorem rpcProxyRun_follows {initial : List UInt8} :
    (rpcProxyRun abstractTransport socket initial).Follows next (fun _ _ => True)
      (.opened initial) := by
  refine (proxyWalk initial).follows (follows_last fun state => ⟨_, next_neutral rfl _, ?_⟩)
  split
  · rfl
  · trivial

/-- The chunk is used up and the decoder has the beginning of a frame. -/
def Awaiting (decoder : BridgeMessageDecoder) (ph : Phase) : Prop :=
  ∃ before input consumed, ph = .managing before input ∧
    bridgeMessageDecoderPush before input = (.needMore, consumed, decoder)

theorem awaiting_nil (decoder : BridgeMessageDecoder) :
    Awaiting decoder (.managing decoder []) := ⟨decoder, [], 0, rfl, rfl⟩

/-- Where the loop over a chunk turns, the rest is still to be decoded or there is none. -/
def Turning (input : List UInt8) (decoder : BridgeMessageDecoder) (offset : ℕ) (ph : Phase) :
    Prop :=
  ph = .managing decoder (input.drop offset) ∨ input.length ≤ offset ∧ Awaiting decoder ph

namespace Turning
variable {input : List UInt8} {decoder decoder' : BridgeMessageDecoder} {offset consumed : ℕ}
  {ph : Phase}

theorem managing (h : Turning input decoder offset ph) (hlt : offset < input.length) :
    ph = .managing decoder (input.drop offset) :=
  h.resolve_right fun hover => absurd hlt (Nat.not_lt.mpr hover.1)

theorem awaiting (h : Turning input decoder offset ph) (hend : input.length ≤ offset) :
    Awaiting decoder ph := by
  rcases h with rfl | ⟨-, hawaiting⟩
  · rw [List.drop_of_length_le hend]
    exact awaiting_nil decoder
  · exact hawaiting

theorem more (h : Turning input decoder offset ph) (hlt : offset < input.length)
    (hpush : bridgeMessageDecoderPush decoder (input.drop offset) =
      (.needMore, consumed, decoder')) :
    Turning input decoder' (offset + consumed) ph := by
  obtain rfl := h.managing hlt
  refine .inr ⟨?_, decoder, input.drop offset, consumed, rfl, hpush⟩
  have hconsumed := consumed_of_needMore hpush
  rw [List.length_drop] at hconsumed
  omega

end Turning

def inputWalk (input : List UInt8) : InputWalk next abstractTransport context input where
  turning _ decoder offset ph := Turning input decoder offset ph
  done result ph := result.2.2 = false → Awaiting result.2.1 ph
  finish h hend _ := Turning.awaiting h hend
  more h hlt hpush := Turning.more h hlt hpush
  ready := by
    intro _ decoder _ offset consumed ph request h hlt hpush
    obtain rfl := Turning.managing h hlt
    refine (tracedHandle_follows hpush).mono ?_
    rintro ⟨error, after, beginProxy⟩ _ rfl
    dsimp only
    split
    · exact fun h => nomatch h
    cases beginProxy with
    | true =>
      rw [if_pos rfl, if_pos rfl, List.drop_drop]
      exact rpcProxyRun_follows.mono fun _ _ _ h => nomatch h
    | false =>
      rw [if_neg Bool.false_ne_true, if_neg Bool.false_ne_true, List.drop_drop]
      exact .inl rfl
  refuse _ _ _ _ := (neutral_attends _).respond.mono fun _ _ _ h => nomatch h

theorem handleInput_follows {input : List UInt8} {decoder : BridgeMessageDecoder} :
    (handleInput abstractTransport context input session decoder).Follows next
      (fun result ph => result.2.2 = false → Awaiting result.2.1 ph)
      (.managing decoder input) :=
  (inputWalk input).follows (.inl rfl)

def clientWalk (context : ClientContext) : ClientWalk next abstractTransport context where
  turning _ decoder _ ph := Awaiting decoder ph
  ended _ _ := True
  receive := by
    rintro _ decoder _ _ ⟨before, input, consumed, rfl, hpush⟩
    have hrecv : ∀ received, next (.managing before input)
        (.recv context.socket bridgeTcpReadBytes) received =
          some (.managing decoder (chunk received)) := by
      intro received
      simp [next, hpush]
    refine follows_last fun received => ⟨_, hrecv received, ?_⟩
    cases received with
    | closed => trivial
    | error errno =>
      cases errno with
      | eintr => exact awaiting_nil decoder
      | eagain =>
        refine follows_last fun nowUs => ⟨_, next_neutral rfl _, ?_⟩
        split
        · exact awaiting_nil decoder
        · trivial
      | other => trivial
    | data input =>
      refine follows_last fun nowUs => ⟨_, next_neutral rfl _, handleInput_follows.mono ?_⟩
      rintro ⟨session, decoder, finished⟩ ph hawaiting
      cases finished with
      | true => trivial
      | false => exact hawaiting rfl

theorem clientTask_follows :
    (clientTask abstractTransport context).Follows next (fun _ _ => True)
      (.managing bridgeMessageDecoderReset []) := by
  apply (clientWalk context).follows
  · refine follows_stay (next_neutral rfl) fun _ => ?_
    refine follows_stay (next_neutral rfl) fun nonce => ?_
    refine follows_stay (next_neutral rfl) fun sessionId => ?_
    refine follows_stay (next_neutral rfl) fun _ => ?_
    exact follows_stay (next_neutral rfl) fun startedUs => follows_pure (awaiting_nil _)
  rintro session ph -
  refine follows_stay (next_neutral rfl) fun _ => ?_
  refine follows_stay (next_neutral rfl) fun _ => ?_
  refine follows_stay (next_neutral rfl) fun _ => ?_
  refine follows_stay (next_neutral rfl) fun _ => ?_
  exact follows_last fun _ => ⟨_, next_neutral rfl _, trivial⟩

/-! ### The invariant -/

theorem wires_append (messages : List BridgeMessage) (message : BridgeMessage) :
    wires (messages ++ [message]) = wires messages ++ wire message := by
  simp [wires]

/-- What the trace shows in each phase, for a stream that starts with `messages`. -/
def Holds (messages : List BridgeMessage) : Phase → List Entry → Prop
  | .managing decoder input, past =>
    (∀ l ∈ past, ¬ isStart l) ∧ forwarded past = [] ∧ ∃ m later rest,
      requests past ++ m :: later = messages ∧ Midst m decoder rest ∧
      received past = wires (requests past) ++ decoder.bytes ++ input
  | .handling decoder input, past =>
    (∀ l ∈ past, ¬ isStart l) ∧ forwarded past = [] ∧ decoder = bridgeMessageDecoderReset ∧
      requests past <+: messages ∧ received past = wires (requests past) ++ input
  | .opened input, past =>
    (∀ l ∈ past, ¬ isStart l) ∧ forwarded past = [] ∧ requests past = messages ∧
      received past = wires messages ++ input
  | .forwarding pending, past =>
    (∃ l ∈ past, isStart l) ∧ requests past = messages ∧
      received past = wires messages ++ forwarded past ++ pending

/-- Entries of neutral operations. -/
theorem blank_of_neutral {o : Op} {r : o.Res} (h : neutral o = true) :
    receivedBy ⟨(), o, r⟩ = [] ∧ requestBy ⟨(), o, r⟩ = [] ∧ forwardedBy ⟨(), o, r⟩ = [] ∧
      isRecv ⟨(), o, r⟩ = false ∧ isStop ⟨(), o, r⟩ = false ∧ isStart ⟨(), o, r⟩ = false := by
  refine ⟨?_, ?_, ?_, ?_, ?_, ?_⟩
  · unfold receivedBy
    split <;> simp_all [neutral]
  · unfold requestBy
    split <;> simp_all [neutral]
  · unfold forwardedBy
    split <;> simp_all [neutral]
  · unfold isRecv
    split <;> simp_all [neutral]
  · unfold isStop
    split <;> simp_all [neutral]
  · unfold isStart
    split <;> simp_all [neutral]

theorem Holds.blank {messages : List BridgeMessage} {ph : Phase} {past : List Entry} {l : Entry}
    (h : Holds messages ph past) (hreceived : receivedBy l = []) (hrequest : requestBy l = [])
    (hforwarded : forwardedBy l = []) (hstart : isStart l = false) :
    Holds messages ph (l :: past) := by
  cases ph with
  | managing decoder input =>
    simpa [Holds, received, requests, forwarded, hreceived, hrequest, hforwarded, hstart] using h
  | handling decoder input =>
    simpa [Holds, received, requests, forwarded, hreceived, hrequest, hforwarded, hstart] using h
  | opened input =>
    simpa [Holds, received, requests, forwarded, hreceived, hrequest, hforwarded, hstart] using h
  | forwarding pending =>
    simpa [Holds, received, requests, forwarded, hreceived, hrequest, hforwarded, hstart] using h

theorem settled_of_blank {messages : List BridgeMessage} {past : List Entry} {l : Entry}
    (hrecv : isRecv l = false) (hstop : isStop l = false) : Settled messages l past where
  management h := absurd h (by simp [hrecv])
  raw h := absurd h (by simp [hrecv, hstop])

/-- The part of a frame in hand, and what more the chunk brings. -/
theorem push_cases {m : BridgeMessage} {decoder : BridgeMessageDecoder}
    {rest input tail : List UInt8} (hm : WellFormed m) (hmidst : Midst m decoder rest)
    (h : input <+: rest ++ tail) :
    (∃ more, input = rest ++ more ∧ bridgeMessageDecoderPush decoder input =
      (.ready m, rest.length, bridgeMessageDecoderReset)) ∨
    ∃ more decoder', more ≠ [] ∧ rest = input ++ more ∧
      bridgeMessageDecoderPush decoder input = (.needMore, input.length, decoder') ∧
      Midst m decoder' more ∧ decoder'.bytes = decoder.bytes ++ input := by
  obtain ⟨hready, hmore⟩ := push_midst hm input hmidst
  rcases List.prefix_or_prefix_of_prefix h (List.prefix_append rest tail) with hle | hle
  · obtain ⟨more, rfl⟩ := hle
    by_cases hnil : more = []
    · subst hnil
      exact .inl ⟨[], by simp, hready [] (by simp)⟩
    · obtain ⟨decoder', hpush, hmidst', hbytes⟩ := hmore more hnil rfl
      exact .inr ⟨more, decoder', hnil, rfl, hpush, hmidst', hbytes⟩
  · obtain ⟨more, rfl⟩ := hle
    exact .inl ⟨more, rfl, hready more rfl⟩

theorem stream_step {setting : Setting} {o : Op} {r : o.Res} {unread unread' : List UInt8}
    (heffect : setting.effect o r unread = some unread') :
    receivedBy ⟨(), o, r⟩ ++ unread' = unread := by
  unfold Setting.effect at heffect
  split at heffect
  · obtain ⟨⟨-, -, hprefix⟩, hunread⟩ := Option.ite_none_right_eq_some.mp heffect
    cases hunread
    exact List.prefix_iff_eq_append.mp hprefix
  · obtain ⟨-, hunread⟩ := Option.ite_none_right_eq_some.mp heffect
    cases hunread
    rfl
  · obtain ⟨-, hunread⟩ := Option.ite_none_right_eq_some.mp heffect
    cases hunread
    rfl
  · next hrecv _ _ =>
    cases heffect
    unfold receivedBy
    split
    · next result heq =>
      cases heq
      cases result with
      | data bytes => exact absurd HEq.rfl (hrecv _ _ _ rfl)
      | closed => rfl
      | error errno => rfl
    · rfl

theorem stream_next {setting : Setting} {stream : List UInt8} {past : List Entry} {o : Op}
    {r : o.Res} {unread unread' : List UInt8} (hstream : received past ++ unread = stream)
    (heffect : setting.effect o r unread = some unread') :
    received (⟨(), o, r⟩ :: past) ++ unread' = stream := by
  rw [← hstream, ← stream_step heffect]
  exact List.append_assoc ..

section Step
variable {messages : List BridgeMessage} {tail unread : List UInt8} {past : List Entry}
  (hwf : ∀ m ∈ messages, WellFormed m)
  (hstream : received past ++ unread = wires messages ++ tail)
include hwf hstream

/-- What can be decoded in management mode: the next message, or nothing yet. -/
theorem managing_cases {decoder : BridgeMessageDecoder} {input : List UInt8}
    (h : Holds messages (.managing decoder input) past) :
    ∃ m later, requests past ++ m :: later = messages ∧
      ((∃ more consumed, bridgeMessageDecoderPush decoder input =
          (.ready m, consumed, bridgeMessageDecoderReset) ∧ input.drop consumed = more ∧
          received past = wires (requests past ++ [m]) ++ more) ∨
        ∃ decoder' more, bridgeMessageDecoderPush decoder input =
          (.needMore, input.length, decoder') ∧ Midst m decoder' more ∧
          received past = wires (requests past) ++ decoder'.bytes) := by
  obtain ⟨-, -, m, later, rest, hmessages, hmidst, hreceived⟩ := h
  refine ⟨m, later, hmessages, ?_⟩
  have hm : WellFormed m := hwf m (by rw [← hmessages]; simp)
  have hprefix : input <+: rest ++ (wires later ++ tail) := by
    refine ⟨unread, ?_⟩
    rw [hreceived, ← hmessages] at hstream
    simp only [wires, List.flatMap_append, List.flatMap_cons, List.append_assoc, ← hmidst.bytes,
      List.append_cancel_left_eq] at hstream
    simpa [wires] using hstream
  rcases push_cases hm hmidst hprefix with
    ⟨more, rfl, hpush⟩ | ⟨more, decoder', hnil, rfl, hpush, hmidst', hbytes⟩
  · refine .inl ⟨more, rest.length, hpush, List.drop_left, ?_⟩
    rw [hreceived, wires_append, ← hmidst.bytes]
    simp only [List.append_assoc]
  · refine .inr ⟨decoder', more, hpush, hmidst', ?_⟩
    rw [hreceived, hbytes, List.append_assoc]

theorem holds_step {ph ph' : Phase} {o : Op} {r : o.Res} (h : Holds messages ph past)
    (hopens : Opens messages ⟨(), o, r⟩ past) (hrole : next ph o r = some ph') :
    Settled messages ⟨(), o, r⟩ past ∧ Holds messages ph' (⟨(), o, r⟩ :: past) := by
  unfold next at hrole
  split at hrole
  · next decoder input _ _ =>
    obtain ⟨m, later, hmessages, hcases⟩ := managing_cases hwf hstream h
    rcases hcases with ⟨more, consumed, hpush, -⟩ | ⟨decoder', more, hpush, hmidst, hreceived⟩
    · simp [hpush] at hrole
    · simp only [hpush, Option.some_inj] at hrole
      subst hrole
      refine ⟨⟨fun _ _ => ⟨m, later, decoder'.bytes, hmessages, hreceived, ?_⟩, fun _ hstart => ?_⟩,
        ?_, ?_, m, later, more, ?_, hmidst, ?_⟩
      · rw [← hmidst.bytes, List.length_append]
        have := List.length_pos_iff.mpr hmidst.more
        omega
      · obtain ⟨l, hl, hstart⟩ := hstart
        exact absurd hstart (h.1 l hl)
      · simpa [isStart] using h.1
      · simpa [forwarded, forwardedBy] using h.2.1
      · simpa [requests, requestBy] using hmessages
      · simp only [received, requests, gather_cons, receivedBy, requestBy, List.append_nil]
        rw [← received, ← requests, hreceived]
  · next decoder input _ request _ =>
    obtain ⟨m, later, hmessages, hcases⟩ := managing_cases hwf hstream h
    rcases hcases with ⟨more, consumed, hpush, hdrop, hreceived⟩ | ⟨decoder', more, hpush, -⟩
    · simp only [hpush, Option.ite_none_right_eq_some, Option.some_inj] at hrole
      obtain ⟨rfl, rfl⟩ := hrole
      refine ⟨settled_of_blank rfl rfl, ?_, ?_, rfl, ?_, ?_⟩
      · simpa [isStart] using h.1
      · simpa [forwarded, forwardedBy] using h.2.1
      · rw [← hmessages]
        exact ⟨later, by simp [requests, requestBy]⟩
      · rw [hdrop]
        simpa [received, receivedBy, requests, requestBy] using hreceived
    · simp [hpush] at hrole
  · next decoder input before request after error beginProxy _ =>
    obtain ⟨hstart, hforwarded, rfl, ⟨later, hmessages⟩, hreceived⟩ := h
    have hcount : beginProxy = true ↔ (requests past).length = messages.length := hopens
    cases hrole
    refine ⟨settled_of_blank rfl rfl, ?_⟩
    suffices h : Holds messages (if beginProxy = true then .opened input
      else .managing bridgeMessageDecoderReset input) past from h.blank rfl rfl rfl rfl
    have hlength := congrArg List.length hmessages
    rw [List.length_append] at hlength
    cases beginProxy with
    | true =>
      have hnil : later = [] := List.length_eq_zero_iff.mp (by
        have := hcount.mp rfl
        omega)
      rw [hnil, List.append_nil] at hmessages
      exact ⟨hstart, hforwarded, hmessages, hmessages ▸ hreceived⟩
    | false =>
      cases later with
      | nil =>
        refine absurd (hcount.mpr ?_) Bool.false_ne_true
        rw [List.length_nil] at hlength
        omega
      | cons m later =>
        refine ⟨hstart, hforwarded, m, later, wire m, hmessages, midst_reset m, ?_⟩
        rw [hreceived]
        exact congrArg (· ++ input) (List.append_nil _).symm
  · next input kind created =>
    obtain ⟨hstart, hforwarded, hrequests, hreceived⟩ := h
    cases hrole
    refine ⟨settled_of_blank rfl rfl, ?_⟩
    cases created with
    | false =>
      suffices h : Holds messages (.opened input) past from h.blank rfl rfl rfl rfl
      exact ⟨hstart, hforwarded, hrequests, hreceived⟩
    | true =>
      refine ⟨⟨_, .head _, rfl⟩, ?_, ?_⟩
      · simpa [requests, requestBy] using hrequests
      · have hnone : gather forwardedBy past = [] := hforwarded
        simpa [received, receivedBy, forwarded, forwardedBy, hnone] using hreceived
  · next pending bytes _ =>
    obtain ⟨⟨l, hl, hstart⟩, hrequests, hreceived⟩ := h
    obtain ⟨rfl, hph⟩ := Option.ite_none_right_eq_some.mp hrole
    cases hph
    refine ⟨settled_of_blank rfl rfl, ⟨l, .tail _ hl, hstart⟩, ?_, ?_⟩
    · simpa [requests, requestBy] using hrequests
    · simpa [received, receivedBy, forwarded, forwardedBy] using hreceived
  · next pending _ _ result =>
    obtain ⟨⟨l, hl, hstart⟩, hrequests, hreceived⟩ := h
    obtain ⟨rfl, hph⟩ := Option.ite_none_right_eq_some.mp hrole
    cases hph
    rw [List.append_nil] at hreceived
    refine ⟨⟨fun _ hno => absurd hstart (hno l hl), fun _ _ => hreceived⟩,
      ⟨l, .tail _ hl, hstart⟩, ?_, ?_⟩
    · simpa [requests, requestBy] using hrequests
    · change received past ++ chunk result =
        wires messages ++ (forwarded past ++ []) ++ chunk result
      rw [hreceived, List.append_nil]
  · next pending _ _ =>
    obtain ⟨⟨l, hl, hstart⟩, hrequests, hreceived⟩ := h
    obtain ⟨rfl, hph⟩ := Option.ite_none_right_eq_some.mp hrole
    cases hph
    have hsettled : received past = wires messages ++ forwarded past := by
      rw [hreceived, List.append_nil]
    refine ⟨⟨fun hrecv => absurd hrecv Bool.false_ne_true, fun _ _ => hsettled⟩, ?_⟩
    suffices h : Holds messages (.forwarding []) past from h.blank rfl rfl rfl rfl
    exact ⟨⟨l, hl, hstart⟩, hrequests, hreceived⟩
  · split at hrole
    · next ho =>
      cases hrole
      obtain ⟨h1, h2, h3, h4, h5, h6⟩ := blank_of_neutral (r := r) ho
      exact ⟨settled_of_blank h4 h5, h.blank h1 h2 h3 h6⟩
    · cases hrole

end Step

theorem Holds.requests_prefix {messages : List BridgeMessage} {ph : Phase} {past : List Entry}
    (h : Holds messages ph past) : requests past <+: messages := by
  cases ph with
  | managing decoder input =>
    obtain ⟨-, -, m, later, -, hmessages, -⟩ := h
    exact ⟨m :: later, hmessages⟩
  | handling decoder input => exact h.2.2.2.1
  | opened input => exact h.2.2.1 ▸ List.prefix_refl _
  | forwarding pending => exact h.2.1 ▸ List.prefix_refl _

theorem Holds.forwarded_prefix {messages : List BridgeMessage} {ph : Phase} {past : List Entry}
    {unread tail : List UInt8} (h : Holds messages ph past)
    (hstream : received past ++ unread = wires messages ++ tail) : forwarded past <+: tail := by
  cases ph with
  | managing decoder input => exact h.2.1 ▸ List.nil_prefix
  | handling decoder input => exact h.2.1 ▸ List.nil_prefix
  | opened input => exact h.2.1 ▸ List.nil_prefix
  | forwarding pending =>
    rw [h.2.2] at hstream
    refine ⟨pending ++ unread, ?_⟩
    simpa only [List.append_assoc, List.append_cancel_left_eq] using hstream

def choreography (setting : Setting) (stream : List UInt8) :
    Choreography (connection setting stream) where
  Phase _ := Phase
  next _ := next
  entry _ := .managing bridgeMessageDecoderReset []
  follows _ := clientTask_follows

theorem allowed_holds {setting : Setting} {front : List BridgeMessage} {last : BridgeMessage}
    {tail : List UInt8} (hwf : ∀ m ∈ front ++ [last], WellFormed m)
    {s : (choreography setting (wires (front ++ [last]) ++ tail)).Scene}
    (hs : (choreography setting (wires (front ++ [last]) ++ tail)).Allowed s)
    (hopens : Justified (Opens (front ++ [last])) s.world.trace) :
    Justified (Settled (front ++ [last])) s.world.trace ∧
      Holds (front ++ [last]) (s.phase ()) s.world.trace ∧
      ∃ unread : List UInt8, s.world.state = unread ∧
        received s.world.trace ++ unread = wires (front ++ [last]) ++ tail := by
  refine Choreography.Allowed.induction (I := fun s =>
    Justified (Opens (front ++ [last])) s.world.trace →
    Justified (Settled (front ++ [last])) s.world.trace ∧
      Holds (front ++ [last]) (s.phase ()) s.world.trace ∧
      ∃ unread : List UInt8, s.world.state = unread ∧
        received s.world.trace ++ unread = wires (front ++ [last]) ++ tail) ?_ ?_ hs hopens
  · intro _
    refine ⟨justified_nil _, ⟨List.forall_mem_nil _, rfl, ?_⟩, _, rfl, rfl⟩
    cases front with
    | nil => exact ⟨last, [], wire last, rfl, midst_reset last, rfl⟩
    | cons m front => exact ⟨m, front ++ [last], wire m, rfl, midst_reset m, rfl⟩
  · rintro s _ - ih (@⟨i, o, r, ph, st, live, role, effect⟩) ⟨hopens, hpast⟩
    obtain ⟨hsettled, hholds, unread, hunread, hstream⟩ := ih hpast
    obtain ⟨hsettled', hholds'⟩ := holds_step hwf hstream hholds hopens role
    have hphase := s.moved_phase_self ph (w := ⟨st, ⟨i, o, r⟩ :: s.world.trace⟩) live
    refine ⟨⟨hsettled', hsettled⟩, ?_, st, rfl, ?_⟩
    · change Holds _ ((s.moved i ph _).phase i) _
      rw [hphase]
      exact hholds'
    · exact stream_next hstream (hunread ▸ effect)

end Handover

/-- However the stream is split, the management part is handled in order, what goes to the
transport is a prefix of the raw part, and nothing received is left behind. -/
theorem handover_in_order {setting : Setting} {front : List BridgeMessage} {last : BridgeMessage}
    {tail : List UInt8} (hwf : ∀ m ∈ front ++ [last], WellFormed m)
    {c : System.Config (connection setting (Handover.wires (front ++ [last]) ++ tail))}
    (hc : System.Reachable c)
    (hopens : Justified (Handover.Opens (front ++ [last])) c.world.trace) :
    Handover.requests c.world.trace <+: front ++ [last] ∧
      Handover.forwarded c.world.trace <+: tail ∧
      Justified (Handover.Settled (front ++ [last])) c.world.trace := by
  obtain ⟨s, hs, hw⟩ := (Handover.choreography setting _).exists_allowed hc
  rw [← hw] at hopens ⊢
  obtain ⟨hsettled, hholds, unread, -, hstream⟩ := Handover.allowed_holds hwf hs hopens
  refine ⟨hholds.requests_prefix, hholds.forwarded_prefix hstream, hsettled⟩

namespace Handover

/-- Some call of `expansion_transport_send_rpc` has failed. -/
def sendFailed (l : Entry) : Bool :=
  match l with
  | ⟨_, .transport (.sendRpc _), error⟩ => error ≠ EspErr.ok
  | _ => false

/-- The proxy's writer was seen to have finished. -/
def writerDone (l : Entry) : Bool :=
  match l with
  | ⟨_, .proxyBits _, bits⟩ => bits.writerDone
  | _ => false

def isRelease (l : Entry) : Bool :=
  match l.op with
  | .releaseClient => true
  | _ => false

/-- Raw mode was agreed on, no call failed, and yet the connection ended with the bytes `raw`
behind the management part received and not passed on. -/
def Abandons (messages : List BridgeMessage) (raw : List UInt8) (trace : List Entry) : Prop :=
  Justified (Opens messages) trace ∧ (∀ l ∈ trace, ¬ sendFailed l ∧ ¬ writerDone l) ∧
    trace.any isRelease = true ∧ requests trace = messages ∧
    received trace = wires messages ++ raw ∧ forwarded trace = []

instance {messages : List BridgeMessage} {raw : List UInt8} :
    DecidablePred (Abandons messages raw) :=
  fun _ => inferInstanceAs (Decidable (_ ∧ _))

def sampleFront : List BridgeMessage :=
  [{ version := 1, command := 1, payload := .replicate 32 9 },
    { version := 1, command := 2, payload := .replicate 32 0xAA }]

def sampleLast : BridgeMessage := { version := 1, command := 5 }

def sampleStream : List UInt8 := wires (sampleFront ++ [sampleLast]) ++ [1, 2, 3]

/-- Everything was passed on. -/
def Passes (messages : List BridgeMessage) (raw : List UInt8) (trace : List Entry) : Prop :=
  Justified (Opens messages) trace ∧ forwarded trace = raw

instance {messages : List BridgeMessage} {raw : List UInt8} :
    DecidablePred (Passes messages raw) :=
  fun _ => inferInstanceAs (Decidable (_ ∧ _))

end Handover

/-- When the link is lost right after the answer, the proxy refuses at its state check and what
came behind the last frame goes nowhere, although no call failed. -/
theorem handover_abandoned :
    ∃ c : System.Config (connection Setting.sample Handover.sampleStream), System.Reachable c ∧
      Handover.Abandons (Handover.sampleFront ++ [Handover.sampleLast]) [1, 2, 3]
        c.world.trace := by
  obtain ⟨c, hc, htest⟩ := System.exists_reachable
    (List.replicate 27 ((), Setting.sample.answers Handover.sampleStream .ready))
    (fun c : System.Config (connection Setting.sample Handover.sampleStream) => decide
      (Handover.Abandons (Handover.sampleFront ++ [Handover.sampleLast]) [1, 2, 3]
        c.world.trace)) (by decide +kernel)
  exact ⟨c, hc, of_decide_eq_true htest⟩

/-- Two raw bytes behind the last frame of one chunk, a third in the next. -/
theorem handover_in_order_split :
    ∃ c : System.Config (connection Setting.sample Handover.sampleStream),
      Handover.forwarded c.world.trace = [1, 2, 3] ∧
        Handover.requests c.world.trace <+: Handover.sampleFront ++ [Handover.sampleLast] ∧
        Handover.forwarded c.world.trace <+: [1, 2, 3] ∧
        Justified (Handover.Settled (Handover.sampleFront ++ [Handover.sampleLast]))
          c.world.trace := by
  have hwf : ∀ m ∈ Handover.sampleFront ++ [Handover.sampleLast], WellFormed m := by
    intro m hm
    simp only [Handover.sampleFront, List.cons_append, List.nil_append, List.mem_cons,
      List.not_mem_nil, or_false] at hm
    rcases hm with rfl | rfl | rfl <;> constructor <;> decide
  obtain ⟨c, hc, htest⟩ := System.exists_reachable
    (List.replicate 22 ((), Setting.sample.answers (Handover.sampleStream.take 108) .ready) ++
      List.replicate 7 ((), Setting.sample.answers [3] .rpcReady))
    (fun c : System.Config (connection Setting.sample Handover.sampleStream) => decide
      (Handover.Passes (Handover.sampleFront ++ [Handover.sampleLast]) [1, 2, 3] c.world.trace))
    (by decide +kernel)
  obtain ⟨hopens, hforwarded⟩ := of_decide_eq_true htest
  exact ⟨c, hforwarded, handover_in_order hwf hc hopens⟩

end FlipforgeBridge
