import FlipforgeBridge.Connection.Exchange

/-!
The two rounds of `authenticate` against the client task. In each the client sends a request, the
bridge reads it in pieces, and the client reads the response in pieces; whatever the pieces and
whoever is ahead, the bytes that are underway are the rest of the one or of the other.
-/
namespace FlipforgeBridge
open Process Conversation

namespace Meeting

inductive Round
  | first | second

variable (m : Meeting)

def nonce : Vector UInt8 bridgeNonceBytes := m.random 32

def challenge : List UInt8 :=
  (m.setting.random bridgeNonceBytes).toList ++ (m.setting.random bridgeSessionIdBytes).toList

/-- What the client takes the HMAC of. -/
def material : List UInt8 := BridgeClient.material m.nonce m.challenge

def proof : Vector UInt8 bridgeHmacBytes := m.setting.hmac m.pairingSecret m.material

/-- The HMAC under the bridge's secret is the same. -/
def Agrees : Prop := m.setting.hmac m.setting.context.pairingSecret m.material = m.proof

instance : Decidable m.Agrees := inferInstanceAs (Decidable (_ = _))

def stage : Round → BridgeClient.Stage
  | .first => .challenge m.nonce
  | .second => .verdict

def request : Round → BridgeMessage
  | .first => BridgeClient.requestOf .hello 1 m.nonce.toList
  | .second => BridgeClient.requestOf .authenticate 2 m.proof.toList

def response : Round → BridgeMessage
  | .first => responseTo (m.request .first) .ok m.challenge
  | .second => responseTo (m.request .second) (if m.Agrees then .ok else .unauthorized) []

/-- The session that meets the request of a round. -/
def session : Round → BridgeSession
  | .first => bridgeSessionInit (m.setting.random bridgeNonceBytes)
      (m.setting.random bridgeSessionIdBytes)
  | .second => {
      state := .awaitingAuthentication
      clientNonce := m.nonce
      bridgeNonce := m.setting.random bridgeNonceBytes
      sessionId := m.setting.random bridgeSessionIdBytes }

/-- The session that leaves it. -/
def after : Round → BridgeSession
  | .first => m.session .second
  | .second =>
    if m.Agrees then { m.session .second with state := .authenticated } else m.session .second

/-- Whether the bridge goes on reading. -/
def goesOn : Round → Bool
  | .first => true
  | .second => m.Agrees

/-- How the client is to end. -/
def outcome : Option BridgeClient.Exception :=
  if m.Agrees then none else some (.runtimeError "Bridge returned status 3")

theorem length_payload (ρ : Round) : (m.request ρ).payload.length = 32 := by
  cases ρ with
  | first => exact Vector.length_toList
  | second => exact Vector.length_toList

theorem wellFormed_request (ρ : Round) : WellFormed (m.request ρ) where
  flags := by cases ρ <;> exact UInt8.zero_le
  payload := by rw [m.length_payload]; decide

theorem known_request (ρ : Round) : BridgeCommand.hello.toByte ≤ (m.request ρ).command ∧
    (m.request ρ).command ≤ BridgeCommand.ping.toByte := by
  cases ρ with
  | first => exact (by decide : (1 : UInt8) ≤ 1 ∧ (1 : UInt8) ≤ 7)
  | second => exact (by decide : (1 : UInt8) ≤ 2 ∧ (2 : UInt8) ≤ 7)

theorem length_challenge : m.challenge.length = bridgeNonceBytes + bridgeSessionIdBytes := by
  rw [challenge, List.length_append, Vector.length_toList, Vector.length_toList]

/-- Both sides take the HMAC of the same bytes. -/
theorem material_eq : bridgeSessionAuthMaterial (m.session .second) 128 = m.material := by
  rw [bridgeSessionAuthMaterial_eq, List.append_assoc _ _ (Vector.toList _),
    ← BridgeClient.authContext_eq]
  rfl

/-- The session is authenticated only if the HMACs are the same. -/
theorem agrees_of_after {ρ : Round} (h : (m.after ρ).state = .authenticated) : m.Agrees := by
  cases ρ with
  | first => cases h
  | second =>
    by_contra hne
    rw [after, if_neg hne] at h
    cases h

end Meeting

namespace Conversation

variable {m : Meeting} {k : Keep}

theorem answering_request (ρ : Meeting.Round) {status : BridgeStatus} {payload : List UInt8}
    {goOn : Bool} (hpayload : payload.length ≤ bridgeManagementMaxPayload) :
    answering (m.request ρ) status payload k [] goOn =
      .sending (wire (responseTo (m.request ρ) status payload)) k [] goOn :=
  answering_eq hpayload (m.known_request ρ).1 (m.known_request ρ).2

theorem respond_first (h : k.session = m.session .first) :
    respond k (m.request .first) [] =
      .sending (wire (m.response .first)) { k with session := m.session .second } [] true := by
  have hstate : k.session.state = .awaitingHello := by
    rw [h]
    rfl
  have hflags : (m.request .first).flags = 0 ∧ (m.request .first).status = .ok := ⟨rfl, rfl⟩
  have hversion : bridgeProtocolVersionSupported (m.request .first).version = true := rfl
  have hcommand : (m.request .first).command = BridgeCommand.hello.toByte := rfl
  have hlength : (m.request .first).payload.length = bridgeNonceBytes := m.length_payload .first
  have hnonce : (m.request .first).payloadArray bridgeNonceBytes = m.nonce :=
    Vector.toList_inj.mp (BridgeMessage.toList_payloadArray hlength)
  have haccept : bridgeSessionAcceptHello k.session m.nonce = some (m.session .second) := by
    rw [h]
    rfl
  have hanswering : answering (m.request .first) .ok m.challenge
      { k with session := m.session .second } [] true = _ :=
    answering_request .first (by rw [m.length_challenge]; decide)
  simp only [respond, hstate, hflags, hversion, hcommand, hlength, hnonce, haccept]
  exact hanswering

theorem respond_second (h : k.session = m.session .second) :
    respond k (m.request .second) [] = .comparing k (m.request .second) [] := by
  have hstate : k.session.state = .awaitingAuthentication := by
    rw [h]
    rfl
  have hflags : (m.request .second).flags = 0 ∧ (m.request .second).status = .ok := ⟨rfl, rfl⟩
  have hversion : bridgeProtocolVersionSupported (m.request .second).version = true := rfl
  have hcommand : (m.request .second).command = BridgeCommand.authenticate.toByte := rfl
  have hother : BridgeCommand.authenticate.toByte ≠ BridgeCommand.hello.toByte := by decide
  have hlength : (m.request .second).payload.length = bridgeHmacBytes := m.length_payload .second
  simp [respond, hstate, hflags, hversion, hcommand, hlength, hother]

theorem compared_second (h : k.session = m.session .second) :
    compared k (m.request .second) []
      ((some (m.setting.hmac m.setting.context.pairingSecret m.material)).bind fun expected =>
        bridgeSessionAuthenticate k.session expected
          ((m.request .second).payloadArray bridgeHmacBytes)) =
      .sending (wire (m.response .second)) { k with session := m.after .second } []
        (m.goesOn .second) := by
  have hlength : (m.request .second).payload.length = bridgeHmacBytes := m.length_payload .second
  have hproof : (m.request .second).payloadArray bridgeHmacBytes = m.proof :=
    Vector.toList_inj.mp (BridgeMessage.toList_payloadArray hlength)
  rw [hproof, h, Option.bind_some]
  by_cases hagrees : m.Agrees
  · have hauthenticate := bridgeSessionAuthenticate_eq_some.mpr
      ⟨(rfl : (m.session .second).state = .awaitingAuthentication), hagrees, rfl⟩
    rw [hauthenticate, compared, answering_request .second (Nat.zero_le _)]
    simp only [Meeting.response, Meeting.after, Meeting.goesOn, if_pos hagrees,
      decide_eq_true hagrees]
  · have hauthenticate : bridgeSessionAuthenticate (m.session .second)
        (m.setting.hmac m.setting.context.pairingSecret m.material) m.proof = none := by
      rw [Option.eq_none_iff_forall_ne_some]
      intro after hafter
      exact hagrees (bridgeSessionAuthenticate_eq_some.mp hafter).2.1
    rw [hauthenticate, compared, answering_request .second (Nat.zero_le _)]
    simp only [Meeting.response, Meeting.after, Meeting.goesOn, if_neg hagrees,
      decide_eq_false hagrees, ← h]

end Conversation

namespace Handshake

abbrev Entry := Label (platform.sum BridgeClient.python) Party

def recordedBy : Op → Option BridgeSession
  | .mark (.session session) | .mark (.handled _ _ session _ _) => some session
  | _ => none

/-- The session an entry leaves. -/
def recorded (l : Entry) : Option BridgeSession :=
  match l.op with
  | .inl o => recordedBy o
  | .inr _ => none

/-- The session of the bridge, as recorded last. -/
def latest (trace : List Entry) : Option BridgeSession := trace.findSome? recorded

/-- How the client ended. -/
def ends (trace : List Entry) : List (Option BridgeClient.Exception) :=
  trace.filterMap fun l => match l.op with
    | .inr (.leave raised) => some raised
    | _ => none

/-- The session is the last one recorded, or about to be. -/
def Noted (session : BridgeSession) (handling : Option Handling) (trace : List Entry) : Prop :=
  match handling with
  | none => latest trace = some session
  | some h => h.after = some session

/-- `rest` of a request is still to be received. -/
def Reads (session : BridgeSession) (request : BridgeMessage) (rest : List UInt8) : View → Prop
  | .opening session' => session' = session ∧ rest = wire request
  | .waiting k | .idle k =>
    k.session = session ∧ 0 ≤ k.lastActivityUs ∧ Midst request k.decoder rest
  | .received k input =>
    k.session = session ∧ 0 ≤ k.lastActivityUs ∧ Midst request k.decoder (input ++ rest)
  | _ => False

def Listens (m : Meeting) (session : BridgeSession) (request : BridgeMessage) (rest : List UInt8)
    (trace : List Entry) : Conversation.Phase → Prop
  | .starting nonce sessionId =>
    session = m.session .first ∧ rest = wire request ∧
      (nonce = [] ∨ nonce = (m.setting.random bridgeNonceBytes).toList) ∧
      (sessionId = [] ∨ sessionId = (m.setting.random bridgeSessionIdBytes).toList)
  | .at v handling => Reads session request rest v ∧ Noted session handling trace

/-- Between two frames. -/
structure Fresh (session : BridgeSession) (k : Keep) : Prop where
  session : k.session = session
  decoder : k.decoder = bridgeMessageDecoderReset
  active : 0 ≤ k.lastActivityUs

section Listens
variable {m : Meeting} {session : BridgeSession} {request : BridgeMessage} {rest : List UInt8}
  {trace : List Entry} {secret : Vector UInt8 bridgePairingSecretBytes} {o : Op} {r : o.Res}
  {w w' : Wire} {v v' : View} {handling : Option Handling}

theorem latest_cons_none {l : Entry} (h : recorded l = none) : latest (l :: trace) = latest trace :=
  List.findSome?_cons_of_isNone (by rw [h]; rfl)

theorem recordedBy_of_observe {x : Observation} (h : observe 0 o r = some x) :
    recordedBy o = none := by
  cases o with
  | mark => cases h
  | _ => rfl

theorem recordedBy_of_silent (h : Conversation.silent o = true) : recordedBy o = none := by
  cases o with
  | mark m => cases m with
    | respond => rfl
    | _ => cases h
  | _ => rfl

theorem Noted.cons {l : Entry} (h : Noted session handling trace) (hl : recorded l = none) :
    Noted session handling (l :: trace) := by
  cases handling with
  | none => exact (latest_cons_none hl).trans h
  | some _ => exact h

/-- A chunk is decoded: the request is still not complete, or it is. -/
theorem serve_reads {k : Keep} {input : List UInt8} (hrequest : WellFormed request)
    (hsession : k.session = session) (hactive : 0 ≤ k.lastActivityUs)
    (hmidst : Midst request k.decoder (input ++ rest)) :
    Reads session request rest (serve k input) ∨
      rest = [] ∧ ∃ k', Fresh session k' ∧ serve k input = respond k' request [] := by
  by_cases hrest : rest = []
  · subst hrest
    have hpush := (push_midst hrequest input hmidst).1 [] (by simp)
    refine .inr ⟨rfl, { k with decoder := bridgeMessageDecoderReset }, ⟨hsession, rfl, hactive⟩, ?_⟩
    rw [serve, hpush]
    simp
  · obtain ⟨decoder, hpush, hmidst', -⟩ := (push_midst hrequest input hmidst).2 rest hrest rfl
    refine .inl ?_
    rw [serve, hpush]
    exact ⟨hsession, hactive, hmidst'⟩

/-- The clock of an exchange. -/
theorem clock_effect {t : ℤ} (hx : observe 0 o r = some (.clock t))
    (heffect : m.bridgeEffect o r w = some w') :
    w' = w ∧ 0 ≤ t ∧ t < bridgeClientIdleTimeoutMs * 1000 := by
  cases o with
  | timerGetTime =>
    obtain ⟨⟨hpos, hlt⟩, hw⟩ := Option.ite_none_right_eq_some.mp heffect
    cases hx
    cases hw
    rw [sub_zero]
    exact ⟨rfl, hpos, hlt⟩
  | _ => cases hx

/-- What a bridge that is reading a request does: take some of the rest, or go on to respond. -/
theorem Reads.observed {x : Observation} (hrequest : WellFormed request)
    (h : Reads session request rest v) (hrest : w.up <+: rest) (hx : observe 0 o r = some x)
    (hv : v.step x = some v') (heffect : m.bridgeEffect o r w = some w') :
    (∃ taken rest', w.up = taken ++ w'.up ∧ rest = taken ++ rest' ∧
      Reads session request rest' v' ∧ w'.down = w.down) ∨
    (rest = [] ∧ ∃ k, Fresh session k ∧ v' = respond k request [] ∧ w'.up = w.up ∧
      w'.down = w.down) := by
  cases v with
  | opening session' =>
    obtain ⟨rfl, rfl⟩ := h
    cases x with
    | clock t =>
      cases hv
      obtain ⟨rfl, hpos, -⟩ := clock_effect hx heffect
      exact .inl ⟨[], _, rfl, rfl, ⟨rfl, hpos, midst_reset request⟩, rfl⟩
    | _ => cases hv
  | idle k =>
    obtain ⟨hsession, hactive, hmidst⟩ := h
    cases x with
    | clock t =>
      obtain ⟨rfl, hpos, hlt⟩ := clock_effect hx heffect
      cases hv
      rw [if_pos (by omega)]
      exact .inl ⟨[], rest, rfl, rfl, ⟨hsession, hactive, hmidst⟩, rfl⟩
    | _ => cases hv
  | received k input =>
    obtain ⟨hsession, hactive, hmidst⟩ := h
    cases x with
    | clock t =>
      obtain ⟨rfl, hpos, -⟩ := clock_effect hx heffect
      cases hv
      have hserve := serve_reads (k := { k with lastActivityUs := t }) hrequest hsession hpos hmidst
      rcases hserve with hreads | ⟨hrest, k', hfresh, hserve⟩
      · exact .inl ⟨[], rest, rfl, rfl, hreads, rfl⟩
      · exact .inr ⟨hrest, k', hfresh, hserve, rfl, rfl⟩
    | _ => cases hv
  | waiting k =>
    obtain ⟨hsession, hactive, hmidst⟩ := h
    cases x with
    | received result =>
      cases o with
      | recv socket size =>
        cases hx
        match result with
        | .closed => cases heffect
        | .error .other => cases heffect
        | .error .eintr =>
          obtain ⟨-, hw⟩ := Option.ite_none_right_eq_some.mp heffect
          cases hw
          cases hv
          exact .inl ⟨[], rest, rfl, rfl, ⟨hsession, hactive, hmidst⟩, rfl⟩
        | .error .eagain =>
          obtain ⟨-, hw⟩ := Option.ite_none_right_eq_some.mp heffect
          cases hw
          cases hv
          exact .inl ⟨[], rest, rfl, rfl, ⟨hsession, hactive, hmidst⟩, rfl⟩
        | .data input =>
          obtain ⟨⟨-, -, htaken⟩, hw⟩ := Option.ite_none_right_eq_some.mp heffect
          cases hw
          cases hv
          obtain ⟨up, hup⟩ := htaken
          obtain ⟨owed, howed⟩ := hrest
          have hdrop : w.up.drop input.length = up := by rw [← hup, List.drop_left]
          rw [← hup, List.append_assoc] at howed
          refine .inl ⟨input, up ++ owed, ?_, howed.symm, ⟨hsession, hactive, ?_⟩, rfl⟩
          · change w.up = input ++ w.up.drop input.length
            rw [hdrop, hup]
          · rw [howed]
            exact hmidst
      | _ => cases hx
    | _ => cases hv
  | _ => cases h

theorem Reads.unhandled (h : Reads session request rest v) (hadmits : v.admits handling = true) :
    handling = none := by
  cases v with
  | opening | waiting | idle | received => exact Option.isNone_iff_eq_none.mp hadmits
  | _ => exact h.elim

/-- The bridge reads on, or has read the whole request. -/
def Hears (m : Meeting) (session : BridgeSession) (request : BridgeMessage) (rest : List UInt8)
    (trace : List Entry) (w w' : Wire) (ph : Conversation.Phase) : Prop :=
  (∃ taken rest', w.up = taken ++ w'.up ∧ rest = taken ++ rest' ∧
    Listens m session request rest' trace ph ∧ w'.down = w.down) ∨
  (rest = [] ∧ ∃ k, Fresh session k ∧ ph = .at (respond k request []) none ∧ w'.up = w.up ∧
    w'.down = w.down)

theorem Hears.stay {ph : Conversation.Phase} (h : Listens m session request rest trace ph)
    (hup : w'.up = w.up) (hdown : w'.down = w.down) :
    Hears m session request rest trace w w' ph :=
  .inl ⟨[], rest, hup.symm, rfl, h, hdown⟩

theorem silent_effect (ho : Conversation.silent o = true)
    (heffect : m.bridgeEffect o r w = some w') : w' = w := by
  cases o with
  | mark | setSocketTimeouts | releaseClient =>
    cases heffect
    rfl
  | _ => cases ho

theorem Listens.step {ph ph' : Conversation.Phase} (hrequest : WellFormed request)
    (h : Listens m session request rest trace ph) (hrest : w.up <+: rest)
    (hrole : Moves secret 0 ph o r ph') (heffect : m.bridgeEffect o r w = some w') :
    Hears m session request rest (⟨.bridge, .inl o, r⟩ :: trace) w w' ph' := by
  cases hrole with
  | unlocked => exact h.1.elim
  | @nonce nonce sessionId value =>
    obtain ⟨hvalue, hw⟩ := Option.ite_none_right_eq_some.mp heffect
    cases hw
    exact .stay ⟨h.1, h.2.1, .inr (hvalue ▸ rfl), h.2.2.2⟩ rfl rfl
  | @sessionId nonce sessionId value =>
    obtain ⟨hvalue, hw⟩ := Option.ite_none_right_eq_some.mp heffect
    cases hw
    exact .stay ⟨h.1, h.2.1, h.2.2.1, .inr (hvalue ▸ rfl)⟩ rfl rfl
  | @opens session' _ hinit =>
    obtain ⟨hsession, hwire, hnonce, hid⟩ := h
    cases heffect
    rw [eq_of_drawn (by decide) hnonce rfl, eq_of_drawn (by decide) hid rfl] at hinit
    obtain rfl : session' = session := hinit.trans hsession.symm
    exact .stay ⟨⟨rfl, hwire⟩, rfl⟩ rfl rfl
  | @handle v _ _ _ hbusy =>
    cases v with
    | opening | waiting | idle | received => cases hbusy
    | _ => exact h.1.elim
  | @handled v handling' _ after _ _ _ _ hleaves =>
    cases heffect
    have hafter : after = session := by
      have hnoted : handling'.after = some session := h.2
      rw [Handling.leaves, hnoted] at hleaves
      exact of_decide_eq_true hleaves
    exact .stay ⟨h.1, congrArg some hafter⟩ rfl rfl
  | closes => exact h.1.elim
  | compares => exact h.1.elim
  | deletes => exact h.1.elim
  | @observed v _ _ _ _ _ hx hadmits hv =>
    have hreads : Reads session request rest v := h.1
    rcases hreads.observed hrequest hrest hx hv heffect with
      ⟨taken, rest', hup, htaken, hreads', hdown⟩ | ⟨hall, k, hfresh, rfl, hup, hdown⟩
    · exact .inl ⟨taken, rest', hup, htaken, ⟨hreads', h.2.cons (recordedBy_of_observe hx)⟩, hdown⟩
    · exact .inr ⟨hall, k, hfresh, by rw [hreads.unhandled hadmits], hup, hdown⟩
  | silent hx hsilent =>
    obtain rfl := silent_effect hsilent heffect
    cases ph with
    | starting => exact .stay h rfl rfl
    | «at» v handling =>
      exact .stay ⟨h.1, h.2.cons (recordedBy_of_silent hsilent)⟩ rfl rfl

end Listens

/-! ### Answering -/

/-- A request is handled that leaves this session. -/
def Leaves (session : BridgeSession) (handling : Option Handling) : Prop :=
  ∀ h ∈ handling, h.after = some session

/-- `rest` of a response is still to be written. -/
def Sends (session : BridgeSession) (rest : List UInt8) (goOn : Bool) : Conversation.Phase → Prop
  | .at (.sending bytes k input goOn') handling =>
    bytes = rest ∧ input = [] ∧ goOn' = goOn ∧ Fresh session k ∧ Leaves session handling
  | _ => False

/-- The proof is there and is to be compared. -/
def Compares (m : Meeting) : Conversation.Phase → Prop
  | .at (.comparing k request input) handling =>
    request = m.request .second ∧ input = [] ∧ Fresh (m.session .second) k ∧
      Leaves (m.session .second) handling
  | _ => False

/-- Any request is still to be received. -/
def Awaits (m : Meeting) (session : BridgeSession) (trace : List Entry) (ph : Conversation.Phase) :
    Prop :=
  ∀ request, WellFormed request → Listens m session request (wire request) trace ph

def hangsUp (l : Entry) : Bool :=
  match l.op with
  | .inl (.close _) => true
  | _ => false

/-- The bridge is on its way out, and what is handled does not authenticate. -/
def Closes (trace : List Entry) : Conversation.Phase → Prop
  | .at v handling =>
    (v = .closing ∨ v = .shut ∨ v = .closed ∧ ∃ l ∈ trace, hangsUp l = true) ∧
      ∀ h ∈ handling, ∀ session ∈ h.after, session.state ≠ .authenticated
  | _ => False

/-- After the response of a round. -/
def Settled (m : Meeting) (ρ : Meeting.Round) (trace : List Entry) (ph : Conversation.Phase) :
    Prop :=
  if m.goesOn ρ then Awaits m (m.after ρ) trace ph else Closes trace ph

section Answers
variable {m : Meeting} {session : BridgeSession} {rest : List UInt8} {goOn : Bool}
  {trace : List Entry} {o : Op} {r : o.Res} {w w' : Wire} {ph ph' : Conversation.Phase}

theorem Leaves.noted {handling : Option Handling} (h : Leaves session handling)
    (hsome : handling.isSome = true) : Noted session handling trace := by
  obtain ⟨h', rfl⟩ := Option.isSome_iff_exists.mp hsome
  exact h h' rfl

theorem Fresh.awaits {k : Keep} {handling : Option Handling} (h : Fresh session k)
    (hnoted : Noted session handling trace) :
    Awaits m session trace (.at (.waiting k) handling) := by
  intro request _
  refine ⟨⟨h.session, h.active, ?_⟩, hnoted⟩
  rw [h.decoder]
  exact midst_reset request

/-- The bytes one `send` takes. -/
theorem send_effect {socket : ℕ} {bytes : List UInt8} {result : SendResult}
    (heffect : m.bridgeEffect (.send socket bytes) result w = some w') :
    (0 < result.sent ∧ result.sent ≤ bytes.length ∧
      w' = { w with down := w.down ++ bytes.take result.sent.toNat }) ∨
    (result.sent < 0 ∧ result.eintr = true ∧ w'.up = w.up ∧ w'.down = w.down) := by
  rw [Meeting.bridgeEffect] at heffect
  split at heffect
  · next htaken =>
    cases heffect
    exact .inl ⟨htaken.1, htaken.2, rfl⟩
  · obtain ⟨⟨hneg, hagain, -⟩, hw⟩ := Option.ite_none_right_eq_some.mp heffect
    cases hw
    exact .inr ⟨hneg, hagain, rfl, rfl⟩

/-- What is left of a response after some of it has been written. -/
def Writes (m : Meeting) (session : BridgeSession) (rest : List UInt8) (goOn : Bool)
    (trace : List Entry) (w w' : Wire) (ph : Conversation.Phase) : Prop :=
  ∃ written rest', rest = written ++ rest' ∧ w'.down = w.down ++ written ∧ w'.up = w.up ∧
    (rest' ≠ [] ∧ Sends session rest' goOn ph ∨
      rest' = [] ∧ if goOn then Awaits m session trace ph else Closes trace ph)

theorem Writes.stay (hmore : rest ≠ []) (h : Sends session rest goOn ph) (hup : w'.up = w.up)
    (hdown : w'.down = w.down) : Writes m session rest goOn trace w w' ph :=
  ⟨[], rest, rfl, by rw [hdown, List.append_nil], hup, .inl ⟨hmore, h⟩⟩

theorem Writes.send {socket : ℕ} {bytes : List UInt8} {result : SendResult} {k : Keep}
    {handling : Option Handling} (hclean : goOn = false → session.state ≠ .authenticated)
    (hmore : bytes ≠ []) (hfresh : Fresh session k) (hleaves : Leaves session handling)
    (hadmits : (View.sending bytes k [] goOn).admits handling = true)
    (heffect : m.bridgeEffect (.send socket bytes) result w = some w') :
    Writes m session bytes goOn trace w w' (.at (View.write bytes k [] goOn result) handling) := by
  rcases send_effect heffect with ⟨hpos, hle, rfl⟩ | ⟨hneg, hagain, hup, hdown⟩
  · have htaken : 0 < result.sent ∧ result.sent.toNat ≤ bytes.length := by omega
    refine ⟨bytes.take result.sent.toNat, bytes.drop result.sent.toNat,
      (List.take_append_drop _ _).symm, rfl, rfl, ?_⟩
    rw [View.write, if_pos htaken]
    by_cases hall : bytes.length ≤ result.sent.toNat
    · rw [if_pos hall]
      refine .inr ⟨List.drop_of_length_le hall, ?_⟩
      cases goOn with
      | true => exact hfresh.awaits (hleaves.noted hadmits)
      | false =>
        refine ⟨.inl rfl, fun h hh session' hsession => ?_⟩
        rw [hleaves h hh] at hsession
        cases hsession
        exact hclean rfl
    · rw [if_neg hall]
      refine .inl ⟨?_, rfl, rfl, rfl, hfresh, hleaves⟩
      rw [ne_eq, List.drop_eq_nil_iff]
      exact hall
  · have hrest : View.write bytes k [] goOn result = .sending bytes k [] goOn := by
      rw [View.write, if_neg (by omega), if_pos ⟨hneg, hagain⟩]
    rw [hrest]
    exact .stay hmore ⟨rfl, rfl, rfl, hfresh, hleaves⟩ hup hdown

/-- One step of a bridge that writes a response. -/
theorem Sends.step (hclean : goOn = false → session.state ≠ .authenticated) (hmore : rest ≠ [])
    (h : Sends session rest goOn ph) (hrole : Moves m.setting.context.pairingSecret 0 ph o r ph')
    (heffect : m.bridgeEffect o r w = some w') :
    Writes m session rest goOn (⟨.bridge, .inl o, r⟩ :: trace) w w' ph' := by
  cases hrole with
  | unlocked | nonce | sessionId | opens | closes | compares | deletes => exact h.elim
  | @handle v =>
    cases v with
    | sending bytes k input goOn' =>
      obtain ⟨rfl, rfl, rfl, hfresh, -⟩ := h
      cases heffect
      refine .stay hmore ⟨rfl, rfl, rfl, hfresh, ?_⟩ rfl rfl
      rintro _ ⟨⟩
      exact congrArg some hfresh.session
    | _ => exact h.elim
  | @handled v =>
    cases v with
    | sending bytes k input goOn' =>
      obtain ⟨rfl, rfl, rfl, hfresh, -⟩ := h
      cases heffect
      exact .stay hmore ⟨rfl, rfl, rfl, hfresh, fun _ => nofun⟩ rfl rfl
    | _ => exact h.elim
  | @observed v v' handling _ _ x hx hadmits hv =>
    cases v with
    | sending bytes k input goOn' =>
      obtain ⟨rfl, rfl, rfl, hfresh, hleaves⟩ := h
      cases x with
      | sent bytes' result =>
        obtain ⟨rfl, hv⟩ := Option.ite_none_right_eq_some.mp hv
        cases hv
        cases o with
        | send socket bytes =>
          cases hx
          exact .send hclean hmore hfresh hleaves hadmits heffect
        | _ => cases hx
      | _ => cases hv
    | _ => exact h.elim
  | silent hx hsilent =>
    obtain rfl := silent_effect hsilent heffect
    exact .stay hmore h rfl rfl

/-- The proof is compared as if `Agrees` were asked. -/
theorem Compares.step (h : Compares m ph)
    (hrole : Moves m.setting.context.pairingSecret 0 ph o r ph')
    (heffect : m.bridgeEffect o r w = some w') :
    w' = w ∧ (Compares m ph' ∨
      Sends (m.after .second) (wire (m.response .second)) (m.goesOn .second) ph') := by
  cases hrole with
  | unlocked | nonce | sessionId | opens | closes | deletes => exact h.elim
  | @handle v =>
    cases v with
    | comparing k request input =>
      obtain ⟨rfl, rfl, hfresh, -⟩ := h
      cases heffect
      refine ⟨rfl, .inl ⟨rfl, rfl, hfresh, ?_⟩⟩
      rintro _ ⟨⟩
      exact congrArg some hfresh.session
    | _ => exact h.elim
  | @handled v =>
    cases v with
    | comparing k request input =>
      obtain ⟨rfl, rfl, hfresh, -⟩ := h
      cases heffect
      exact ⟨rfl, .inl ⟨rfl, rfl, hfresh, fun _ => nofun⟩⟩
    | _ => exact h.elim
  | @compares k _ _ _ digest v _ hv =>
    obtain ⟨rfl, rfl, hfresh, -⟩ := h
    obtain ⟨hdigest, hw⟩ := Option.ite_none_right_eq_some.mp heffect
    cases hw
    rw [hfresh.session, m.material_eq] at hdigest
    subst hdigest
    rw [compared_second hfresh.session] at hv
    subst hv
    refine ⟨rfl, .inr ⟨rfl, rfl, rfl, ⟨rfl, hfresh.decoder, hfresh.active⟩, ?_⟩⟩
    rintro _ ⟨⟩
    rfl
  | @observed v v' handling _ _ x hx hadmits hv =>
    cases v with
    | comparing => cases x <;> cases hv
    | _ => exact h.elim
  | silent hx hsilent => exact ⟨silent_effect hsilent heffect, .inl h⟩

theorem Closes.cons {l : Entry} (h : Closes trace ph) : Closes (l :: trace) ph := by
  cases ph with
  | starting => exact h
  | «at» v handling =>
    obtain ⟨hv, hclean⟩ := h
    refine ⟨hv.imp_right (Or.imp_right ?_), hclean⟩
    rintro ⟨rfl, l', hl', hup⟩
    exact ⟨rfl, l', List.mem_cons_of_mem _ hl', hup⟩

/-- Nothing is read or written on the way out. -/
theorem Closes.step (h : Closes trace ph)
    (hrole : Moves m.setting.context.pairingSecret 0 ph o r ph')
    (heffect : m.bridgeEffect o r w = some w') :
    Closes (⟨.bridge, .inl o, r⟩ :: trace) ph' ∧ w'.up = w.up ∧ w'.down = w.down := by
  cases hrole with
  | nonce | sessionId | opens => exact h.elim
  | unlocked =>
    obtain ⟨(hv | hv | ⟨hv, -⟩), -⟩ := h
    all_goals cases hv
  | compares =>
    obtain ⟨(hv | hv | ⟨hv, -⟩), -⟩ := h
    all_goals cases hv
  | @handle v =>
    cases heffect
    refine ⟨⟨(Closes.cons h).1, ?_⟩, rfl, rfl⟩
    rintro _ ⟨⟩ session hsession
    obtain ⟨(rfl | rfl | ⟨rfl, -⟩), -⟩ := h
    all_goals cases hsession
  | handled =>
    cases heffect
    exact ⟨⟨(Closes.cons h).1, fun _ => nofun⟩, rfl, rfl⟩
  | closes =>
    cases heffect
    exact ⟨h.cons, rfl, rfl⟩
  | deletes =>
    cases heffect
    exact ⟨h.cons, rfl, rfl⟩
  | observed hx hadmits hv =>
    obtain ⟨(rfl | rfl | ⟨rfl, -⟩), hclean⟩ := h
    · cases o with
      | shutdown =>
        cases hx
        cases hv
        cases heffect
        exact ⟨⟨.inr (.inl rfl), hclean⟩, rfl, rfl⟩
      | _ => cases hx <;> cases hv
    · cases o with
      | close =>
        cases hx
        cases hv
        cases heffect
        exact ⟨⟨.inr (.inr ⟨rfl, _, List.mem_cons_self, rfl⟩), hclean⟩, rfl, rfl⟩
      | _ => cases hx <;> cases hv
    · cases hv
  | silent hx hsilent =>
    obtain rfl := silent_effect hsilent heffect
    exact ⟨h.cons, rfl, rfl⟩

theorem Listens.cons {request : BridgeMessage} {l : Entry}
    (h : Listens m session request rest trace ph) (hl : recorded l = none) :
    Listens m session request rest (l :: trace) ph := by
  cases ph with
  | starting => exact h
  | «at» v handling => exact ⟨h.1, h.2.cons hl⟩

theorem Awaits.cons {l : Entry} (h : Awaits m session trace ph) (hl : recorded l = none) :
    Awaits m session (l :: trace) ph :=
  fun request hrequest => (h request hrequest).cons hl

/-- As long as nothing is sent, the bridge waits. -/
theorem Awaits.step (h : Awaits m session trace ph) (hup : w.up = [])
    (hrole : Moves m.setting.context.pairingSecret 0 ph o r ph')
    (heffect : m.bridgeEffect o r w = some w') :
    Awaits m session (⟨.bridge, .inl o, r⟩ :: trace) ph' ∧ w'.up = [] ∧ w'.down = w.down := by
  have hears (request : BridgeMessage) (hrequest : WellFormed request) :
      Listens m session request (wire request) (⟨.bridge, .inl o, r⟩ :: trace) ph' ∧
        w'.up = [] ∧ w'.down = w.down := by
    have hrest : w.up <+: wire request := hup ▸ List.nil_prefix
    rcases (h request hrequest).step hrequest hrest hrole heffect with
      ⟨taken, rest', htaken, hrest', hlistens, hdown⟩ | ⟨hnil, -⟩
    · rw [hup] at htaken
      obtain ⟨rfl, hup'⟩ := List.append_eq_nil_iff.mp htaken.symm
      rw [List.nil_append] at hrest'
      subst hrest'
      exact ⟨hlistens, hup', hdown⟩
    · exact absurd hnil (midst_reset request).more
  obtain ⟨-, hup', hdown⟩ := hears _ (m.wellFormed_request .first)
  exact ⟨fun request hrequest => (hears request hrequest).1, hup', hdown⟩

theorem Settled.cons {ρ : Meeting.Round} {l : Entry} (h : Settled m ρ trace ph)
    (hl : recorded l = none) : Settled m ρ (l :: trace) ph := by
  unfold Settled at h ⊢
  split at h
  · next hon =>
    rw [if_pos hon]
    exact h.cons hl
  · next hon =>
    rw [if_neg hon]
    exact h.cons

theorem Settled.step {ρ : Meeting.Round} (h : Settled m ρ trace ph) (hup : w.up = [])
    (hrole : Moves m.setting.context.pairingSecret 0 ph o r ph')
    (heffect : m.bridgeEffect o r w = some w') :
    Settled m ρ (⟨.bridge, .inl o, r⟩ :: trace) ph' ∧ w'.up = [] ∧ w'.down = w.down := by
  unfold Settled at h ⊢
  split at h
  · next hon =>
    rw [if_pos hon]
    exact h.step hup hrole heffect
  · next hon =>
    rw [if_neg hon]
    obtain ⟨hcloses, hup', hdown⟩ := h.step hrole heffect
    exact ⟨hcloses, hup'.trans hup, hdown⟩

end Answers
end Handshake
end FlipforgeBridge
