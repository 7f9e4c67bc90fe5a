import FlipforgeBridge.Connection.Handshake

/-!
Where the reference client and the bridge are in the two rounds, what is underway between them,
and that every step of either keeps to it.
-/
namespace FlipforgeBridge
open Process Conversation

namespace Meeting
variable (m : Meeting)

/-! ### A response at the client -/

theorem valid_response (ρ : Round) :
    (BridgeClient.Header.of (m.response ρ)).valid (m.stage ρ).command = true := by
  have hversion : BridgeClient.version = flipforgeBridgeProtocolVersion.toNat := rfl
  have hcommand : (m.stage ρ).command = (m.response ρ).command.toNat := by cases ρ <;> rfl
  have hrest : (m.response ρ).version = flipforgeBridgeProtocolVersion ∧
      (m.response ρ).flags = bridgeManagementResponseFlag := by cases ρ <;> exact ⟨rfl, rfl⟩
  simp only [BridgeClient.Header.valid, BridgeClient.Header.of, BridgeClient.magic_eq, hversion,
    hcommand, hrest, decide_true, Bool.true_and]
  decide

theorem length_response (ρ : Round) : (m.response ρ).payload.length < 2 ^ 16 := by
  cases ρ with
  | first => exact m.length_challenge.trans_lt (by decide)
  | second => exact Nat.two_pow_pos 16

/-- Part of a response leaves the client reading. -/
theorem settle_part {ρ : Round} {got more : List UInt8} (h : got ++ more = wire (m.response ρ))
    (hmore : more ≠ []) : (m.stage ρ).settle got = .reading (m.stage ρ) got := by
  suffices hwanted : ∃ n, (m.stage ρ).reply got = .inl n by
    obtain ⟨n, hwanted⟩ := hwanted
    rw [BridgeClient.Stage.settle, hwanted]
  by_cases hshort : got.length < BridgeClient.headerSize
  · exact ⟨_, if_pos hshort⟩
  · obtain ⟨payload, rfl⟩ : frameHeader (m.response ρ) <+: got :=
      List.prefix_of_prefix_length_le ⟨_, rfl⟩ ⟨_, h⟩ (Nat.not_lt.mp hshort)
    rw [wire, List.append_assoc, List.append_cancel_left_eq] at h
    have hless : payload.length < (m.response ρ).payload.length := by
      rw [← h, List.length_append]
      exact Nat.lt_add_of_pos_right (List.length_pos_iff.mpr hmore)
    refine ⟨(m.response ρ).payload.length - payload.length, ?_⟩
    rw [(m.stage ρ).reply_append payload (length_frameHeader _),
      BridgeClient.unpack_frameHeader (m.length_response ρ), m.valid_response ρ]
    exact if_pos hless

/-- A whole response is accepted or not. -/
theorem settle_whole (ρ : Round) : (m.stage ρ).settle (wire (m.response ρ)) =
    (m.stage ρ).after ((BridgeClient.Header.of (m.response ρ)).accept (m.stage ρ).requestId
      (m.response ρ).payload) := by
  rw [BridgeClient.Stage.settle, wire,
    (m.stage ρ).reply_append _ (length_frameHeader (m.response ρ)),
    BridgeClient.unpack_frameHeader (m.length_response ρ), m.valid_response ρ]
  have hall : ¬ (m.response ρ).payload.length < (BridgeClient.Header.of (m.response ρ)).size :=
    Nat.lt_irrefl _
  rw [if_neg hall]
  rfl

theorem settle_first : (m.stage .first).settle (wire (m.response .first)) =
    .proving m.nonce m.challenge := by
  rw [settle_whole]
  exact if_neg (not_not.mpr m.length_challenge)

theorem settle_second : (m.stage .second).settle (wire (m.response .second)) =
    .leaving m.outcome := by
  rw [settle_whole]
  by_cases hagrees : m.Agrees
  · simp only [response, outcome, if_pos hagrees]
    rfl
  · have htext : "Bridge returned status " ++ Nat.repr 3 = "Bridge returned status 3" := by decide
    simp only [response, outcome, if_neg hagrees, ← htext]
    rfl

end Meeting

namespace Handshake

/-- The client is about to send the request of a round. -/
def Asks (m : Meeting) : Meeting.Round → BridgeClient.Phase → Prop
  | .first, .starting => True
  | .first, .greeting nonce => nonce = m.nonce
  | .second, .proving nonce challenge => nonce = m.nonce ∧ challenge = m.challenge
  | .second, .answering proof => proof = m.proof
  | _, _ => False

/-- Where the two are. -/
inductive Standing (m : Meeting) (w : Wire) (trace : List Entry) :
    BridgeClient.Phase → Conversation.Phase → Prop
  | unasked {ρ : Meeting.Round} {pc : BridgeClient.Phase} {pb : Conversation.Phase}
      (asks : Asks m ρ pc) (up : w.up = []) (down : w.down = [])
      (awaits : Awaits m (m.session ρ) trace pb) : Standing m w trace pc pb
  | asked {ρ : Meeting.Round} {pb : Conversation.Phase} (down : w.down = [])
      (listens : Listens m (m.session ρ) (m.request ρ) w.up trace pb) :
      Standing m w trace (.reading (m.stage ρ) []) pb
  | comparing {pb : Conversation.Phase} (up : w.up = []) (down : w.down = [])
      (compares : Compares m pb) : Standing m w trace (.reading (m.stage .second) []) pb
  | replying {ρ : Meeting.Round} {got rest : List UInt8} {pb : Conversation.Phase}
      (up : w.up = []) (more : rest ≠ []) (whole : got ++ w.down ++ rest = wire (m.response ρ))
      (sends : Sends (m.after ρ) rest (m.goesOn ρ) pb) :
      Standing m w trace (.reading (m.stage ρ) got) pb
  | replied {ρ : Meeting.Round} {got : List UInt8} {pb : Conversation.Phase} (up : w.up = [])
      (more : w.down ≠ []) (whole : got ++ w.down = wire (m.response ρ))
      (settled : Settled m ρ trace pb) : Standing m w trace (.reading (m.stage ρ) got) pb
  | finished {pc : BridgeClient.Phase} {pb : Conversation.Phase}
      (ended : pc = .leaving m.outcome ∨ pc = .gone) (up : w.up = []) (down : w.down = [])
      (settled : Settled m .second trace pb) : Standing m w trace pc pb

/-- The bytes the client has sent, at most. -/
def sent : BridgeClient.Phase → ℕ
  | .starting | .greeting _ => 0
  | .reading (.challenge _) _ | .proving _ _ | .answering _ => 46
  | _ => 92

/-- What the trace says of the end of the client. -/
def told (m : Meeting) : BridgeClient.Phase → List (Option BridgeClient.Exception)
  | .gone => [m.outcome]
  | _ => []

def IsDown : Conversation.Phase → Prop
  | .at v _ => v = .shut ∨ v = .closed
  | _ => False

def IsClosed : Conversation.Phase → Prop
  | .at v _ => v = .closed
  | _ => False

/-- The invariant. -/
structure Good (m : Meeting) (w : Wire) (trace : List Entry) (pc : BridgeClient.Phase)
    (pb : Conversation.Phase) : Prop where
  standing : Standing m w trace pc pb
  ends : ends trace = told m pc
  /-- A session is authenticated only if the HMACs are the same. -/
  clean : ∀ l ∈ trace, ∀ session, recorded l = some session → session.state = .authenticated →
    m.Agrees
  shut : w.shut = true → IsDown pb
  bridgeGone : w.bridgeGone = true → IsClosed pb
  clientGone : w.clientGone = true → pc = .gone
  sent : w.received + w.up.length ≤ sent pc

section Step
variable {m : Meeting} {w w' : Wire} {trace : List Entry} {pc pc' : BridgeClient.Phase}
  {pb pb' : Conversation.Phase}

/-! ### The client goes on -/

/-- What a call of the client does to the connection. -/
theorem clientEffect_frame {c : BridgeClient.Call} {r : c.Res}
    (heffect : m.clientEffect c r w = some w') :
    w'.shut = w.shut ∧ w'.bridgeGone = w.bridgeGone ∧ w'.received = w.received ∧
      w'.interruptions = w.interruptions ∧
      w'.clientGone = (w.clientGone || c matches .leave _) ∧
      w'.up = w.up ++ (match c with | .sendall data => data | _ => []) := by
  cases c with
  | sendall | leave =>
    cases heffect
    simp
  | recv =>
    rw [Meeting.clientEffect] at heffect
    split at heffect
    · obtain ⟨-, hw⟩ := Option.ite_none_right_eq_some.mp heffect
      cases hw
      simp
    · obtain ⟨-, hw⟩ := Option.ite_none_right_eq_some.mp heffect
      cases hw
      simp
  | tokenBytes | hmacDigest =>
    obtain ⟨-, hw⟩ := Option.ite_none_right_eq_some.mp heffect
    cases hw
    simp

/-- The client takes a chunk of what is there. -/
theorem recv_effect {n : ℕ} {chunk : List UInt8} (hsome : chunk ≠ [])
    (heffect : m.clientEffect (.recv n) chunk w = some w') :
    w.down = chunk ++ w'.down ∧ w'.up = w.up := by
  rw [Meeting.clientEffect, if_neg hsome] at heffect
  obtain ⟨⟨-, down, hdown⟩, hw⟩ := Option.ite_none_right_eq_some.mp heffect
  cases hw
  refine ⟨?_, rfl⟩
  change w.down = chunk ++ w.down.drop chunk.length
  rw [← hdown, List.drop_left]

/-- While a reply is read, the client takes some of what is there. -/
theorem read_effect {stage : BridgeClient.Stage} {got : List UInt8} {c : BridgeClient.Call}
    {r : c.Res} (hshut : w.shut = true → w.down ≠ [])
    (hrole : BridgeClient.Moves m.pairingSecret (.reading stage got) c r pc')
    (heffect : m.clientEffect c r w = some w') :
    ∃ chunk, chunk ≠ [] ∧ pc' = stage.settle (got ++ chunk) ∧ w.down = chunk ++ w'.down ∧
      w'.up = w.up := by
  cases hrole with
  | @strays _ _ n chunk hlong =>
    have hsome : chunk ≠ [] := List.ne_nil_of_length_pos (Nat.zero_lt_of_lt hlong)
    rw [Meeting.clientEffect, if_neg hsome] at heffect
    obtain ⟨⟨hshort, -⟩, -⟩ := Option.ite_none_right_eq_some.mp heffect
    exact absurd hlong (Nat.not_lt.mpr hshort)
  | breaks =>
    rw [Meeting.clientEffect, if_pos rfl] at heffect
    obtain ⟨⟨hdown, hend⟩, -⟩ := Option.ite_none_right_eq_some.mp heffect
    exact absurd hdown (hshut hend)
  | @reads _ _ n chunk hwanted hsome => exact ⟨chunk, hsome, rfl, recv_effect hsome heffect⟩

theorem Listens.not_down {session : BridgeSession} {request : BridgeMessage} {rest : List UInt8}
    (h : Listens m session request rest trace pb) : ¬ IsDown pb := by
  cases pb with
  | starting => exact not_false
  | «at» v =>
    rintro (rfl | rfl)
    · exact h.1
    · exact h.1

theorem Compares.not_down (h : Compares m pb) : ¬ IsDown pb := by
  cases pb with
  | starting => exact not_false
  | «at» v =>
    rintro (rfl | rfl)
    · exact h
    · exact h

theorem Sends.not_down {session : BridgeSession} {rest : List UInt8} {goOn : Bool}
    (h : Sends session rest goOn pb) : ¬ IsDown pb := by
  cases pb with
  | starting => exact not_false
  | «at» v =>
    rintro (rfl | rfl)
    · exact h
    · exact h

/-- A request is sent. -/
theorem asked_of_sendall {ρ : Meeting.Round} {l : Entry} {r : Unit} (hup : w.up = [])
    (hdown : w.down = []) (hawaits : Awaits m (m.session ρ) trace pb) (hl : recorded l = none)
    (heffect : m.clientEffect (.sendall (wire (m.request ρ))) r w = some w') :
    Standing m w' (l :: trace) ((m.stage ρ).settle []) pb := by
  cases heffect
  have hopen : (m.stage ρ).settle [] = .reading (m.stage ρ) [] :=
    m.settle_part (List.nil_append _) (midst_reset _).more
  rw [hopen]
  refine .asked hdown ?_
  change Listens m (m.session ρ) (m.request ρ) (w.up ++ wire (m.request ρ)) _ pb
  rw [hup]
  exact (hawaits.cons hl) _ (m.wellFormed_request ρ)

/-- A step of the client. -/
theorem Standing.client {c : BridgeClient.Call} {r : c.Res} (h : Standing m w trace pc pb)
    (hshut : w.shut = true → IsDown pb) (hrole : BridgeClient.Moves m.pairingSecret pc c r pc')
    (heffect : m.clientEffect c r w = some w') :
    Standing m w' (⟨.client, .inr c, r⟩ :: trace) pc' pb := by
  have hl : recorded ⟨.client, .inr c, r⟩ = none := rfl
  cases h with
  | @unasked ρ _ _ hasks hup hdown hawaits =>
    cases hrole with
    | stray | strays | breaks | reads | leaves => cases ρ <;> exact hasks.elim
    | draws =>
      obtain ⟨rfl, hw⟩ := Option.ite_none_right_eq_some.mp heffect
      cases hw
      cases ρ with
      | first => exact .unasked (ρ := .first) rfl hup hdown (hawaits.cons hl)
      | second => exact hasks.elim
    | greets =>
      cases ρ with
      | first =>
        obtain rfl := hasks
        exact asked_of_sendall (ρ := .first) hup hdown hawaits hl heffect
      | second => exact hasks.elim
    | proves =>
      cases ρ with
      | first => exact hasks.elim
      | second =>
        obtain ⟨rfl, rfl⟩ := hasks
        obtain ⟨rfl, hw⟩ := Option.ite_none_right_eq_some.mp heffect
        cases hw
        exact .unasked (ρ := .second) rfl hup hdown (hawaits.cons hl)
    | answers =>
      cases ρ with
      | first => exact hasks.elim
      | second =>
        obtain rfl := hasks
        exact asked_of_sendall (ρ := .second) hup hdown hawaits hl heffect
  | asked hdown hlistens =>
    obtain ⟨chunk, hsome, -, htaken, -⟩ :=
      read_effect (fun hend => absurd (hshut hend) hlistens.not_down) hrole heffect
    rw [hdown] at htaken
    exact absurd (List.append_eq_nil_iff.mp htaken.symm).1 hsome
  | comparing hup hdown hcompares =>
    obtain ⟨chunk, hsome, -, htaken, -⟩ :=
      read_effect (fun hend => absurd (hshut hend) hcompares.not_down) hrole heffect
    rw [hdown] at htaken
    exact absurd (List.append_eq_nil_iff.mp htaken.symm).1 hsome
  | @replying ρ got rest _ hup hmore hwhole hsends =>
    obtain ⟨chunk, -, rfl, htaken, hup'⟩ :=
      read_effect (fun hend => absurd (hshut hend) hsends.not_down) hrole heffect
    rw [htaken, ← List.append_assoc] at hwhole
    have hleft : got ++ chunk ++ (w'.down ++ rest) = wire (m.response ρ) :=
      (List.append_assoc _ _ _).symm.trans hwhole
    rw [m.settle_part hleft (List.append_ne_nil_of_right_ne_nil _ hmore)]
    exact .replying (hup'.trans hup) hmore hwhole hsends
  | @replied ρ got _ hup hmore hwhole hsettled =>
    obtain ⟨chunk, -, rfl, htaken, hup'⟩ := read_effect (fun _ => hmore) hrole heffect
    rw [htaken, ← List.append_assoc] at hwhole
    by_cases hall : w'.down = []
    · rw [hall, List.append_nil] at hwhole
      rw [hwhole]
      cases ρ with
      | first =>
        rw [m.settle_first]
        exact .unasked (ρ := .second) ⟨rfl, rfl⟩ (hup'.trans hup) hall (hsettled.cons hl)
      | second =>
        rw [m.settle_second]
        exact .finished (.inl rfl) (hup'.trans hup) hall (hsettled.cons hl)
    · rw [m.settle_part hwhole hall]
      exact .replied (hup'.trans hup) hall hwhole (hsettled.cons hl)
  | finished hended hup hdown hsettled =>
    rcases hended with rfl | rfl
    · cases hrole
      cases heffect
      exact .finished (.inr rfl) hup hdown (hsettled.cons hl)
    · cases hrole

/-! ### The bridge goes on -/

/-- What an operation of the bridge does to the connection. -/
theorem bridgeEffect_frame {o : Op} {r : o.Res} (heffect : m.bridgeEffect o r w = some w') :
    w'.clientGone = w.clientGone ∧ w'.received + w'.up.length = w.received + w.up.length ∧
      w'.shut = (w.shut || o matches .shutdown _) ∧
      w'.bridgeGone = (w.bridgeGone || o matches .taskDeleteSelf) := by
  cases o with
  | recv socket size =>
    match r with
    | .closed => cases heffect
    | .error .other => cases heffect
    | .error .eintr =>
      obtain ⟨-, hw⟩ := Option.ite_none_right_eq_some.mp heffect
      cases hw
      simp
    | .error .eagain =>
      obtain ⟨-, hw⟩ := Option.ite_none_right_eq_some.mp heffect
      cases hw
      simp
    | .data bytes =>
      obtain ⟨⟨-, -, htaken⟩, hw⟩ := Option.ite_none_right_eq_some.mp heffect
      cases hw
      refine ⟨rfl, ?_, by simp, by simp⟩
      have hle := htaken.length_le
      dsimp only
      rw [List.length_drop]
      omega
  | send socket bytes =>
    rw [Meeting.bridgeEffect] at heffect
    split at heffect
    · cases heffect
      simp
    · obtain ⟨-, hw⟩ := Option.ite_none_right_eq_some.mp heffect
      cases hw
      simp
  | fillRandom | hmacSha256 | timerGetTime =>
    obtain ⟨-, hw⟩ := Option.ite_none_right_eq_some.mp heffect
    cases hw
    simp
  | shutdown socket =>
    cases heffect
    simp
  | taskDeleteSelf =>
    cases heffect
    simp
  | _ =>
    cases heffect
    simp

/-- What is handled authenticates only if the HMACs are the same. -/
def Careful (m : Meeting) : Conversation.Phase → Prop
  | .starting _ _ => True
  | .at v handling => v ≠ .unlocked ∧ ∀ h ∈ handling, ∀ session, h.after = some session →
      session.state = .authenticated → m.Agrees

theorem Listens.careful {session : BridgeSession} {request : BridgeMessage} {rest : List UInt8}
    (h : Listens m session request rest trace pb)
    (hsession : session.state = .authenticated → m.Agrees) : Careful m pb := by
  cases pb with
  | starting => trivial
  | «at» v handling =>
    refine ⟨?_, ?_⟩
    · rintro rfl
      exact h.1
    · rintro h' rfl session' hafter
      have hnoted : h'.after = some session := h.2
      rw [hnoted] at hafter
      cases hafter
      exact hsession

theorem careful_of_leaves {v : View} {session : BridgeSession} {handling : Option Handling}
    (hv : v ≠ .unlocked) (h : Leaves session handling)
    (hsession : session.state = .authenticated → m.Agrees) : Careful m (.at v handling) := by
  refine ⟨hv, fun h' hh session' hafter => ?_⟩
  rw [h h' hh] at hafter
  cases hafter
  exact hsession

theorem Standing.careful (h : Standing m w trace pc pb) : Careful m pb := by
  have hsession (ρ : Meeting.Round) (hstate : (m.session ρ).state = .authenticated) : m.Agrees := by
    cases ρ <;> cases hstate
  have hsettled {ρ : Meeting.Round} (h : Settled m ρ trace pb) : Careful m pb := by
    unfold Settled at h
    split at h
    · exact (h _ (m.wellFormed_request .first)).careful m.agrees_of_after
    · cases pb with
      | starting => exact h.elim
      | «at» v handling =>
        refine ⟨?_, fun h' hh session hafter hstate => absurd hstate (h.2 h' hh session hafter)⟩
        rintro rfl
        obtain ⟨(hv | hv | ⟨hv, -⟩), -⟩ := h
        all_goals cases hv
  cases h with
  | unasked _ _ _ hawaits =>
    exact (hawaits _ (m.wellFormed_request .first)).careful (hsession _)
  | asked _ hlistens => exact hlistens.careful (hsession _)
  | comparing _ _ hcompares =>
    cases pb with
    | starting => exact hcompares.elim
    | «at» v handling =>
      cases v with
      | comparing => exact careful_of_leaves View.noConfusion hcompares.2.2.2 (hsession .second)
      | _ => exact hcompares.elim
  | replying _ _ _ hsends =>
    cases pb with
    | starting => exact hsends.elim
    | «at» v handling =>
      cases v with
      | sending => exact careful_of_leaves View.noConfusion hsends.2.2.2.2 m.agrees_of_after
      | _ => exact hsends.elim
  | replied _ _ _ h => exact hsettled h
  | finished _ _ _ h => exact hsettled h

/-- The whole request is there. -/
theorem Standing.of_respond {ρ : Meeting.Round} {k : Keep} (hup : w.up = []) (hdown : w.down = [])
    (h : Fresh (m.session ρ) k) : Standing m w trace (.reading (m.stage ρ) [])
      (.at (respond k (m.request ρ) []) none) := by
  cases ρ with
  | first =>
    rw [respond_first h.session]
    have hsends : Sends (m.after .first) (wire (m.response .first)) (m.goesOn .first)
        (.at (.sending (wire (m.response .first)) { k with session := m.session .second } [] true)
          none) :=
      ⟨rfl, rfl, rfl, ⟨rfl, h.decoder, h.active⟩, fun _ => nofun⟩
    refine .replying hup (midst_reset _).more ?_ hsends
    rw [hdown]
    rfl
  | second =>
    rw [respond_second h.session]
    exact .comparing hup hdown ⟨rfl, rfl, h, fun _ => nofun⟩

/-- A step of the bridge. -/
theorem Standing.bridge {o : Op} {r : o.Res} (h : Standing m w trace pc pb)
    (hrole : Moves m.setting.context.pairingSecret 0 pb o r pb')
    (heffect : m.bridgeEffect o r w = some w') :
    Standing m w' (⟨.bridge, .inl o, r⟩ :: trace) pc pb' := by
  cases h with
  | unasked hasks hup hdown hawaits =>
    obtain ⟨hawaits', hup', hdown'⟩ := hawaits.step hup hrole heffect
    exact .unasked hasks hup' (hdown'.trans hdown) hawaits'
  | @asked ρ _ hdown hlistens =>
    rcases hlistens.step (m.wellFormed_request ρ) (List.prefix_refl _) hrole heffect with
      ⟨taken, rest', htaken, hrest', hlistens', hdown'⟩ | ⟨hall, k, hfresh, rfl, hup', hdown'⟩
    · rw [htaken, List.append_cancel_left_eq] at hrest'
      subst hrest'
      exact .asked (hdown'.trans hdown) hlistens'
    · exact .of_respond (hup'.trans hall) (hdown'.trans hdown) hfresh
  | comparing hup hdown hcompares =>
    obtain ⟨rfl, hcompares' | hsends⟩ := hcompares.step hrole heffect
    · exact .comparing hup hdown hcompares'
    · refine .replying (ρ := .second) hup (midst_reset _).more ?_ hsends
      rw [hdown]
      rfl
  | @replying ρ got rest _ hup hmore hwhole hsends =>
    have hclean (hoff : m.goesOn ρ = false) : (m.after ρ).state ≠ .authenticated := by
      intro hstate
      cases ρ with
      | first => cases hstate
      | second => exact of_decide_eq_false hoff (m.agrees_of_after hstate)
    obtain ⟨written, rest', rfl, hdown', hup', hends⟩ := hsends.step hclean hmore hrole heffect
    rw [← List.append_assoc, List.append_assoc got, ← hdown'] at hwhole
    rcases hends with ⟨hmore', hsends'⟩ | ⟨rfl, hsettled⟩
    · exact .replying (hup'.trans hup) hmore' hwhole hsends'
    · rw [List.append_nil] at hwhole hmore
      refine .replied (hup'.trans hup) ?_ hwhole hsettled
      rw [hdown']
      exact List.append_ne_nil_of_right_ne_nil _ hmore
  | replied hup hmore hwhole hsettled =>
    obtain ⟨hsettled', hup', hdown'⟩ := hsettled.step hup hrole heffect
    rw [← hdown'] at hmore hwhole
    exact .replied hup' hmore hwhole hsettled'
  | finished hended hup hdown hsettled =>
    obtain ⟨hsettled', hup', hdown'⟩ := hsettled.step hup hrole heffect
    exact .finished hended hup' (hdown'.trans hdown) hsettled'

/-- A session that is recorded was left by the request being handled. -/
theorem Careful.recorded {o : Op} {r : o.Res} {session : BridgeSession} (h : Careful m pb)
    (hrole : Moves m.setting.context.pairingSecret 0 pb o r pb')
    (hrecorded : recordedBy o = some session) (hstate : session.state = .authenticated) :
    m.Agrees := by
  cases hrole with
  | unlocked => exact absurd rfl h.1
  | nonce | sessionId | handle | compares | deletes => cases hrecorded
  | opens hinit =>
    cases hrecorded
    rw [hinit] at hstate
    cases hstate
  | closes hclosed =>
    cases hrecorded
    rw [hclosed] at hstate
    cases hstate
  | @handled v h' _ after _ _ _ _ hleaves =>
    cases hrecorded
    unfold Handling.leaves at hleaves
    split at hleaves
    · next session hafter =>
      obtain rfl := of_decide_eq_true hleaves
      exact h.2 h' rfl _ hafter hstate
    · exact absurd hstate (of_decide_eq_true hleaves)
  | observed hx =>
    rw [recordedBy_of_observe hx] at hrecorded
    cases hrecorded
  | silent _ hsilent =>
    rw [recordedBy_of_silent hsilent] at hrecorded
    cases hrecorded

theorem IsDown.step {o : Op} {r : o.Res} (h : IsDown pb)
    (hrole : Moves m.setting.context.pairingSecret 0 pb o r pb') : IsDown pb' := by
  cases hrole with
  | nonce | sessionId | opens => exact h.elim
  | compares =>
    rcases h with h | h
    · cases h
    · cases h
  | @observed v v' _ _ _ x _ _ hv =>
    rcases h with rfl | rfl
    · cases x with
      | closed =>
        cases hv
        exact .inr rfl
      | _ => cases hv
    · cases hv
  | _ => exact h

theorem isDown_of_shutdown {socket : ℕ} {r : (Op.shutdown socket).Res} (h : Careful m pb)
    (hrole : Moves m.setting.context.pairingSecret 0 pb (.shutdown socket) r pb') : IsDown pb' := by
  cases hrole with
  | unlocked => exact absurd rfl h.1
  | @observed v v' _ _ _ x hx _ hv =>
    cases hx
    cases v with
    | closing =>
      cases hv
      exact .inl rfl
    | _ => cases hv
  | silent hx => cases hx

theorem isClosed_of_delete {r : Op.taskDeleteSelf.Res} (h : Careful m pb)
    (hrole : Moves m.setting.context.pairingSecret 0 pb .taskDeleteSelf r pb') : IsClosed pb' := by
  cases hrole with
  | unlocked => exact absurd rfl h.1
  | deletes => rfl
  | observed hx => cases hx
  | silent _ hsilent => cases hsilent

theorem Good.bridge {o : Op} {r : o.Res} (h : Good m w trace pc pb) (hlive : w.bridgeGone = false)
    (hrole : Moves m.setting.context.pairingSecret 0 pb o r pb')
    (heffect : m.bridgeEffect o r w = some w') :
    Good m w' (⟨.bridge, .inl o, r⟩ :: trace) pc pb' := by
  obtain ⟨hclient, hmeter, hshut, hgone⟩ := bridgeEffect_frame heffect
  have hcareful := h.standing.careful
  refine ⟨h.standing.bridge hrole heffect, h.ends, ?_, ?_, ?_, ?_, ?_⟩
  · intro l hl session hrecorded hstate
    rcases List.mem_cons.mp hl with rfl | hl
    · exact hcareful.recorded hrole hrecorded hstate
    · exact h.clean l hl session hrecorded hstate
  · intro hdown
    cases o with
    | shutdown => exact isDown_of_shutdown hcareful hrole
    | _ => exact (h.shut ((Bool.or_false _).symm.trans (hshut.symm.trans hdown))).step hrole
  · intro hdeleted
    rw [hgone, hlive] at hdeleted
    cases o with
    | taskDeleteSelf => exact isClosed_of_delete hcareful hrole
    | _ => cases hdeleted
  · rw [hclient]
    exact h.clientGone
  · rw [hmeter]
    exact h.sent

theorem Standing.not_stray (h : Standing m w trace pc pb) : pc ≠ .stray := by
  rintro rfl
  cases h with
  | @unasked ρ _ _ hasks => cases ρ <;> exact hasks
  | finished hended =>
    rcases hended with hended | hended
    · cases hended
    · cases hended

theorem sent_reading (stage : BridgeClient.Stage) (got : List UInt8) :
    sent (.reading stage got) ≤ 92 := by
  cases stage with
  | challenge => exact (by decide : 46 ≤ 92)
  | verdict => exact Nat.le_refl _

theorem sent_settle (stage : BridgeClient.Stage) (got got' : List UInt8) :
    sent (.reading stage got) ≤ sent (stage.settle got') ∧ told m (stage.settle got') = [] := by
  unfold BridgeClient.Stage.settle
  split
  · exact ⟨Nat.le_of_eq (by cases stage <;> rfl), rfl⟩
  · next result _ =>
    unfold BridgeClient.Stage.after
    split
    · split
      · exact ⟨sent_reading _ _, rfl⟩
      · exact ⟨Nat.le_refl _, rfl⟩
    · exact ⟨Nat.le_refl _, rfl⟩
    · exact ⟨sent_reading _ _, rfl⟩

/-- The bytes the client sends are counted. -/
theorem sent_step {c : BridgeClient.Call} {r : c.Res} (hstray : pc ≠ .stray)
    (hrole : BridgeClient.Moves m.pairingSecret pc c r pc')
    (heffect : m.clientEffect c r w = some w') (h : w.received + w.up.length ≤ sent pc) :
    w'.received + w'.up.length ≤ sent pc' := by
  obtain ⟨-, -, hreceived, -, -, hup⟩ := clientEffect_frame heffect
  rw [hreceived, hup, List.length_append, ← Nat.add_assoc]
  have hlength (command : BridgeCommand) (requestId : UInt32) (payload : Vector UInt8 32) :
      (wire (BridgeClient.requestOf command requestId payload.toList)).length = 46 := by
    rw [length_wire]
    exact congrArg (14 + ·) Vector.length_toList
  cases hrole with
  | stray => exact absurd rfl hstray
  | @greets nonce =>
    exact Nat.le_trans (Nat.le_of_eq (congrArg _ (hlength .hello 1 nonce)))
      (Nat.add_le_add_right h 46)
  | @answers proof =>
    exact Nat.le_trans (Nat.le_of_eq (congrArg _ (hlength .authenticate 2 proof)))
      (Nat.add_le_add_right h 46)
  | reads => exact Nat.le_trans h (sent_settle (m := m) _ _ _).1
  | strays | breaks => exact Nat.le_trans h (sent_reading _ _)
  | draws | proves | leaves => exact h

theorem Good.client {c : BridgeClient.Call} {r : c.Res} (h : Good m w trace pc pb)
    (hrole : BridgeClient.Moves m.pairingSecret pc c r pc')
    (heffect : m.clientEffect c r w = some w') :
    Good m w' (⟨.client, .inr c, r⟩ :: trace) pc' pb := by
  obtain ⟨hshut, hgone, -, -, hleft, -⟩ := clientEffect_frame heffect
  have hstray := h.standing.not_stray
  refine ⟨h.standing.client h.shut hrole heffect, ?_, ?_, ?_, ?_, ?_,
    sent_step hstray hrole heffect h.sent⟩
  · have hends := h.ends
    cases hrole with
    | stray => exact absurd rfl hstray
    | @leaves raised =>
      have hraised : raised = m.outcome := by
        cases h.standing with
        | @unasked ρ _ _ hasks => cases ρ <;> exact hasks.elim
        | finished hended =>
          rcases hended with hended | hended
          · cases hended
            rfl
          · cases hended
      rw [hraised]
      exact congrArg (m.outcome :: ·) hends
    | greets | answers | reads => exact hends.trans (sent_settle _ [] _).2.symm
    | _ => exact hends
  · intro l hl session hrecorded hstate
    rcases List.mem_cons.mp hl with rfl | hl
    · cases hrecorded
    · exact h.clean l hl session hrecorded hstate
  · rw [hshut]
    exact h.shut
  · rw [hgone]
    exact h.bridgeGone
  · intro hended
    cases hrole with
    | stray => exact absurd rfl hstray
    | leaves => rfl
    | _ =>
      rw [hleft, Bool.or_false] at hended
      cases h.clientGone hended

end Step
end Handshake
end FlipforgeBridge
