import FlipforgeBridge.Server

/-!
Proofs are bound to one session: what is authenticated determines both nonces and the session
id, so a proof made for one session is of use in another only if these coincide.
-/
namespace FlipforgeBridge

/-- A session that has been told the client's nonce. -/
structure Challenged (clientNonce bridgeNonce : Vector UInt8 bridgeNonceBytes)
    (sessionId : Vector UInt8 bridgeSessionIdBytes) (session : BridgeSession) : Prop where
  accepted : bridgeSessionAcceptHello (bridgeSessionInit bridgeNonce sessionId) clientNonce =
    some session

section Material
variable {clientNonce bridgeNonce : Vector UInt8 bridgeNonceBytes}
  {sessionId : Vector UInt8 bridgeSessionIdBytes} {session : BridgeSession}

theorem Challenged.eq (h : Challenged clientNonce bridgeNonce sessionId session) :
    session = { state := .awaitingAuthentication, clientNonce, bridgeNonce, sessionId } :=
  (Option.some_inj.mp h.accepted).symm

theorem Challenged.state (h : Challenged clientNonce bridgeNonce sessionId session) :
    session.state = .awaitingAuthentication := by
  rw [h.eq]

theorem authMaterial_of_capacity (session : BridgeSession) {capacity : ℕ} (h : 97 ≤ capacity) :
    bridgeSessionAuthMaterial session capacity =
      authContext ++ [flipforgeBridgeProtocolVersion] ++ session.clientNonce.toList ++
        session.bridgeNonce.toList ++ session.sessionId.toList :=
  if_neg (Nat.not_lt.mpr h)

theorem authMaterial_of_small (session : BridgeSession) {capacity : ℕ} (h : capacity < 97) :
    bridgeSessionAuthMaterial session capacity = [] := if_pos h

/-- The fields lie at fixed offsets, so the material determines them. -/
theorem authMaterial_inj {session session' : BridgeSession} {capacity capacity' : ℕ}
    (h : 97 ≤ capacity) (h' : 97 ≤ capacity') :
    bridgeSessionAuthMaterial session capacity = bridgeSessionAuthMaterial session' capacity' ↔
      session.clientNonce = session'.clientNonce ∧ session.bridgeNonce = session'.bridgeNonce ∧
        session.sessionId = session'.sessionId := by
  rw [authMaterial_of_capacity session h, authMaterial_of_capacity session' h']
  constructor
  · intro heq
    obtain ⟨heq, hid⟩ := List.append_inj' heq (by rw [Vector.length_toList, Vector.length_toList])
    obtain ⟨heq, hbridge⟩ := List.append_inj' heq
      (by rw [Vector.length_toList, Vector.length_toList])
    have hclient := List.append_cancel_left heq
    exact ⟨Vector.toList_inj.mp hclient, Vector.toList_inj.mp hbridge, Vector.toList_inj.mp hid⟩
  · intro heq
    rw [heq.1, heq.2.1, heq.2.2]

end Material

/-! ### Acceptance -/

section Acceptance
variable {session : BridgeSession} {expected provided : Vector UInt8 bridgeHmacBytes}

theorem authenticate_isSome_iff (h : session.state = .awaitingAuthentication) :
    (bridgeSessionAuthenticate session expected provided).isSome ↔
      bridgeConstantTimeEqual expected provided = true := by
  rw [Option.isSome_iff_exists, bridgeConstantTimeEqual_iff]
  simp only [bridgeSessionAuthenticate_eq_some, h, true_and]
  exact ⟨fun ⟨_, heq, _⟩ => heq, fun heq => ⟨_, heq, rfl⟩⟩

theorem authenticate_digest (h : session.state = .awaitingAuthentication) :
    bridgeSessionAuthenticate session provided provided =
      some { session with state := .authenticated } :=
  bridgeSessionAuthenticate_eq_some.mpr ⟨h, rfl, rfl⟩

theorem constantTimeEqual_iff_bytes : bridgeConstantTimeEqual expected provided = true ↔
    ∀ i (h : i < bridgeHmacBytes), expected[i] = provided[i] := by
  rw [bridgeConstantTimeEqual_iff]
  exact Vector.ext_iff

end Acceptance

/-- Remembers the digest that was computed last. -/
def digestRole : Option (Vector UInt8 bridgeHmacBytes) → (o : Op) → o.Res →
    Option (Option (Vector UInt8 bridgeHmacBytes))
  | _, .hmacSha256 _ _, digest => some digest
  | ph, _, _ => some ph

section Handler
variable {socket : ℕ} {session after : BridgeSession} {request : BridgeMessage}
  {status : BridgeStatus} {payload : List UInt8}

theorem sendResponse_digestRole (digest : Option (Vector UInt8 bridgeHmacBytes)) :
    (sendResponse socket request status payload).Follows digestRole (fun _ ph => ph = digest)
      digest := by
  have hstay : (sendResponse socket request status payload).Only
      fun o => ∀ r, digestRole digest o r = some digest :=
    sendResponse_only (fun _ => rfl) fun _ _ => rfl
  exact hstay.follows

theorem answer_digestRole (digest : Option (Vector UInt8 bridgeHmacBytes)) :
    (answer socket session request status payload).Follows digestRole
      (fun (result : EspErr × BridgeSession × Bool) ph => result.2.1 = session ∧ ph = digest)
      digest := by
  refine (sendResponse_digestRole digest).bind ?_
  intro error ph hph
  exact follows_pure ⟨rfl, hph⟩

/-- Whatever its operations answer, the handler of a proof hands back the session it was given,
unless that awaits a proof and the 32 bytes given are the digest. -/
theorem handleAuthenticate_session (context : ClientContext) (session : BridgeSession)
    (request : BridgeMessage) :
    (handleAuthenticate context session request).Follows digestRole
      (fun (result : EspErr × BridgeSession × Bool) digest => result.2.1 =
        if session.state = .awaitingAuthentication ∧ request.payload.length = bridgeHmacBytes ∧
          digest = some (request.payloadArray bridgeHmacBytes)
        then { session with state := .authenticated } else session) none := by
  unfold handleAuthenticate
  split
  · refine (answer_digestRole none).mono ?_
    rintro result _ ⟨hsame, rfl⟩
    rw [hsame, if_neg (by simp)]
  · next hready =>
    simp only [not_or, ne_eq, Decidable.not_not] at hready
    refine follows_op fun digest => ⟨digest, rfl, ?_⟩
    split
    · next hrefused =>
      refine (sendResponse_digestRole digest).bind ?_
      rintro error _ rfl
      refine follows_pure (if_neg ?_).symm
      rintro ⟨-, -, hdigest⟩
      subst hdigest
      exact absurd (hrefused.symm.trans (authenticate_digest hready.1)) nofun
    · next after haccepted =>
      refine (answer_digestRole digest).mono ?_
      rintro result _ ⟨hsame, rfl⟩
      obtain ⟨expected, hdigest, hafter⟩ := Option.bind_eq_some_iff.mp haccepted
      obtain ⟨-, hequal, hafter⟩ := bridgeSessionAuthenticate_eq_some.mp hafter
      rw [hsame, if_pos ⟨hready.1, hready.2, by rw [hdigest, hequal]⟩, hafter]

end Handler

/-- Equal material means equal nonces and ids, so a proof accepted in one session is accepted in
another exactly when these coincide. No function to 32 bytes is injective on all messages; what
is assumed of HMAC is that it does not collide on the two at hand. Acceptance compares all 32
bytes, and a session is left as it was by a proof that is not accepted. -/
theorem proofs_bound_to_session
    {clientNonce clientNonce' bridgeNonce bridgeNonce' : Vector UInt8 bridgeNonceBytes}
    {sessionId sessionId' : Vector UInt8 bridgeSessionIdBytes} {session session' : BridgeSession}
    (h : Challenged clientNonce bridgeNonce sessionId session)
    (h' : Challenged clientNonce' bridgeNonce' sessionId' session') :
    (∀ capacity capacity', 97 ≤ capacity → 97 ≤ capacity' →
      (bridgeSessionAuthMaterial session capacity = bridgeSessionAuthMaterial session' capacity' ↔
        clientNonce = clientNonce' ∧ bridgeNonce = bridgeNonce' ∧ sessionId = sessionId')) ∧
    (∀ capacity, capacity < 97 → bridgeSessionAuthMaterial session capacity = []) ∧
    (∀ (hmac : Vector UInt8 bridgePairingSecretBytes → List UInt8 → Vector UInt8 bridgeHmacBytes)
        secret capacity capacity' proof, 97 ≤ capacity → 97 ≤ capacity' →
      (hmac secret (bridgeSessionAuthMaterial session capacity) =
          hmac secret (bridgeSessionAuthMaterial session' capacity') →
        bridgeSessionAuthMaterial session capacity =
          bridgeSessionAuthMaterial session' capacity') →
      (bridgeSessionAuthenticate session
        (hmac secret (bridgeSessionAuthMaterial session capacity)) proof).isSome →
      ((bridgeSessionAuthenticate session'
          (hmac secret (bridgeSessionAuthMaterial session' capacity')) proof).isSome ↔
        clientNonce = clientNonce' ∧ bridgeNonce = bridgeNonce' ∧ sessionId = sessionId')) ∧
    (∀ expected provided,
      ((bridgeSessionAuthenticate session expected provided).isSome ↔
        bridgeConstantTimeEqual expected provided = true) ∧
      (bridgeConstantTimeEqual expected provided = true ↔
        ∀ i (h : i < bridgeHmacBytes), expected[i] = provided[i])) ∧
    ∀ context request, (handleAuthenticate context session request).Follows digestRole
      (fun (result : EspErr × BridgeSession × Bool) digest =>
        digest ≠ some (request.payloadArray bridgeHmacBytes) → result.2.1 = session) none := by
  have hmaterial (capacity capacity' : ℕ) (hc : 97 ≤ capacity) (hc' : 97 ≤ capacity') :
      bridgeSessionAuthMaterial session capacity = bridgeSessionAuthMaterial session' capacity' ↔
        clientNonce = clientNonce' ∧ bridgeNonce = bridgeNonce' ∧ sessionId = sessionId' := by
    rw [authMaterial_inj hc hc', h.eq, h'.eq]
  refine ⟨hmaterial, fun capacity => authMaterial_of_small session, ?_, ?_, ?_⟩
  · intro hmac secret capacity capacity' proof hc hc' hcollide haccepted
    rw [authenticate_isSome_iff h.state, bridgeConstantTimeEqual_iff] at haccepted
    rw [authenticate_isSome_iff h'.state, bridgeConstantTimeEqual_iff, ← haccepted,
      ← hmaterial capacity capacity' hc hc']
    exact ⟨fun heq => hcollide heq.symm, fun heq => by rw [heq]⟩
  · intro expected provided
    exact ⟨authenticate_isSome_iff h.state, constantTimeEqual_iff_bytes⟩
  · intro context request
    refine (handleAuthenticate_session context session request).mono ?_
    intro result digest hresult hdigest
    rw [hresult, if_neg fun haccepted => hdigest haccepted.2.2]

/-- HMAC-SHA256 under the key of 32 zeros of two messages: zero nonces, and a session id of
zeros or ones. -/
def sampleHmac (_ : Vector UInt8 bridgePairingSecretBytes) (message : List UInt8) :
    Vector UInt8 bridgeHmacBytes :=
  if message.drop 89 = .replicate 8 0 then
    #v[0x28, 0x9b, 0xac, 0x1c, 0x13, 0x49, 0x6f, 0x31, 0x52, 0x3d, 0x97, 0x88, 0x28, 0x5b,
      0x8d, 0x89, 0x23, 0xb6, 0xa3, 0x3f, 0x26, 0x81, 0xaa, 0x06, 0x81, 0x27, 0xee, 0x7d,
      0x19, 0x4a, 0xcb, 0xd2]
  else
    #v[0x64, 0xe9, 0x58, 0x20, 0x38, 0xd6, 0x1e, 0x8b, 0xed, 0xd5, 0x2f, 0xc2, 0xc6, 0x96,
      0x28, 0xf8, 0x3f, 0xea, 0x13, 0x44, 0x98, 0x36, 0xac, 0x2d, 0xc9, 0x32, 0x49, 0xc1,
      0xc5, 0x8f, 0xdb, 0x53]

def sampleSession (sessionId : Vector UInt8 bridgeSessionIdBytes) : BridgeSession :=
  { state := .awaitingAuthentication, sessionId }

def sampleProof (sessionId : Vector UInt8 bridgeSessionIdBytes) : Vector UInt8 bridgeHmacBytes :=
  sampleHmac (.replicate _ 0) (bridgeSessionAuthMaterial (sampleSession sessionId) 128)

/-- Two sessions that differ in the id alone. -/
theorem proofs_bound_to_session_id :
    bridgeSessionAuthMaterial (sampleSession (.replicate _ 0)) 128 ≠
      bridgeSessionAuthMaterial (sampleSession (.replicate _ 1)) 128 ∧
    ¬ (bridgeSessionAuthenticate (sampleSession (.replicate _ 1)) (sampleProof (.replicate _ 1))
        (sampleProof (.replicate _ 0))).isSome := by
  have hzero : Challenged (.replicate _ 0) (.replicate _ 0) (.replicate _ 0)
      (sampleSession (.replicate _ 0)) := ⟨rfl⟩
  have hone : Challenged (.replicate _ 0) (.replicate _ 0) (.replicate _ 1)
      (sampleSession (.replicate _ 1)) := ⟨rfl⟩
  obtain ⟨hmaterial, -, hproof, -⟩ := proofs_bound_to_session hzero hone
  have hid : (.replicate _ 0 : Vector UInt8 bridgeSessionIdBytes) ≠ .replicate _ 1 := by decide
  constructor
  · intro heq
    exact hid ((hmaterial 128 128 (by decide) (by decide)).mp heq).2.2
  · intro haccepted
    have hfirst : (bridgeSessionAuthenticate (sampleSession (.replicate _ 0))
        (sampleProof (.replicate _ 0)) (sampleProof (.replicate _ 0))).isSome :=
      (authenticate_isSome_iff hzero.state).mpr (bridgeConstantTimeEqual_iff.mpr rfl)
    have hsame := hproof sampleHmac (.replicate _ 0) 128 128 (sampleProof (.replicate _ 0))
      (by decide) (by decide) (fun hcollide => absurd hcollide (by decide)) hfirst
    exact hid (hsame.mp haccepted).2.2

end FlipforgeBridge
