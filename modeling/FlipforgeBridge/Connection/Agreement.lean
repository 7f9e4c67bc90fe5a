import FlipforgeBridge.Connection.Standing

/-!
The reference client and the bridge agree on authentication. In every interleaving, and however
the two directions are cut, the exchange comes to an end: with an authenticated session if the
HMACs are the same, and otherwise with an error at the client and a closed connection.
-/
namespace FlipforgeBridge
open Process Conversation

namespace Handshake

section Budget
variable {m : Meeting} {w w' : Wire} {trace : List Entry} {pc pc' : BridgeClient.Phase}
  {pb pb' : Conversation.Phase}

/-- The bridge spends what it receives and the interruptions. -/
theorem bridge_spend {o : Op} {r : o.Res} (h : Careful m pb)
    (hrole : Moves m.setting.context.pairingSecret 0 pb o r pb')
    (heffect : m.bridgeEffect o r w = some w') (hsent : w.received + w.up.length ≤ 92) :
    Ending.spend o r (92 - w.received + w.interruptions, w.bridgeGone) =
      some (92 - w'.received + w'.interruptions, w'.bridgeGone) := by
  cases o with
  | recv socket size =>
    match r with
    | .closed => cases heffect
    | .error .other => cases heffect
    | .error .eintr =>
      obtain ⟨hpos, hw⟩ := Option.ite_none_right_eq_some.mp heffect
      cases hw
      have hleft : 0 < 92 - w.received + w.interruptions := Nat.add_pos_right _ hpos
      rw [Ending.spend, if_pos hleft, Nat.add_sub_assoc hpos]
    | .error .eagain =>
      obtain ⟨hpos, hw⟩ := Option.ite_none_right_eq_some.mp heffect
      cases hw
      have hleft : 0 < 92 - w.received + w.interruptions := Nat.add_pos_right _ hpos
      rw [Ending.spend, if_pos hleft, Nat.add_sub_assoc hpos]
    | .data bytes =>
      obtain ⟨⟨hsome, -, htaken⟩, hw⟩ := Option.ite_none_right_eq_some.mp heffect
      cases hw
      have hle := htaken.length_le
      have hless : bytes.length ≤ 92 - w.received + w.interruptions := by omega
      have hleft : 92 - w.received + w.interruptions - bytes.length =
          92 - (w.received + bytes.length) + w.interruptions := by omega
      rw [Ending.spend, if_pos ⟨hsome, hless⟩, hleft]
  | send socket bytes =>
    rw [Meeting.bridgeEffect] at heffect
    split at heffect
    · next htaken =>
      cases heffect
      rw [Ending.spend, if_pos htaken]
    · next htaken =>
      obtain ⟨⟨hneg, hagain, hpos⟩, hw⟩ := Option.ite_none_right_eq_some.mp heffect
      cases hw
      have hleft : 0 < 92 - w.received + w.interruptions := Nat.add_pos_right _ hpos
      rw [Ending.spend, if_neg htaken, if_pos ⟨hneg, hagain, hleft⟩, Nat.add_sub_assoc hpos]
  | fillRandom | hmacSha256 | timerGetTime =>
    obtain ⟨-, hw⟩ := Option.ite_none_right_eq_some.mp heffect
    cases hw
    rfl
  | transport call =>
    cases hrole with
    | unlocked => exact absurd rfl h.1
    | observed hx => cases hx
    | silent _ hsilent => cases hsilent
  | _ =>
    cases heffect
    rfl

theorem sent_le (pc : BridgeClient.Phase) : sent pc ≤ 92 := by
  cases pc with
  | reading stage got => exact sent_reading stage got
  | starting | greeting => exact Nat.zero_le _
  | proving | answering => exact (by decide : 46 ≤ 92)
  | _ => exact Nat.le_refl _

theorem client_ending {c : BridgeClient.Call} {r : c.Res}
    (heffect : m.clientEffect c r w = some w') :
    BridgeClient.ending c r w.clientGone = some w'.clientGone := by
  obtain ⟨-, -, -, -, hgone, -⟩ := clientEffect_frame heffect
  rw [hgone]
  cases c with
  | leave => rw [Bool.or_true]; rfl
  | _ => rw [Bool.or_false]; rfl

/-- The invariant of the exchange. -/
def Sound (m : Meeting) (s : m.choreography.Scene) : Prop :=
  Good m s.world.state s.world.trace (s.phase .client) (s.phase .bridge)

theorem sound_opening (m : Meeting) : Sound m m.choreography.opening where
  standing := .unasked (ρ := .first) trivial rfl rfl fun _ _ => ⟨rfl, rfl, .inl rfl, .inl rfl⟩
  ends := rfl
  clean := fun _ => nofun
  shut := fun h => absurd h Bool.false_ne_true
  bridgeGone := fun h => absurd h Bool.false_ne_true
  clientGone := fun h => absurd h Bool.false_ne_true
  sent := Nat.le_refl 0

/-- Nobody comes back. -/
theorem live_of_live {i : Party} {o : (platform.sum BridgeClient.python).Op}
    {r : (platform.sum BridgeClient.python).Res o} {j : Party}
    (heffect : m.exchange.effect i o r w = some w') (hlive : w'.live j = true) :
    w.live j = true := by
  have hframe : (w.clientGone = true → w'.clientGone = true) ∧
      (w.bridgeGone = true → w'.bridgeGone = true) := by
    cases i with
    | client =>
      cases o with
      | inl => cases heffect
      | inr c =>
        obtain ⟨-, hbridge, -, -, hclient, -⟩ := clientEffect_frame heffect
        exact ⟨fun h => by rw [hclient, h]; rfl, fun h => hbridge.trans h⟩
    | bridge =>
      cases o with
      | inl o =>
        obtain ⟨hclient, -, -, hbridge⟩ := bridgeEffect_frame heffect
        exact ⟨fun h => hclient.trans h, fun h => by rw [hbridge, h]; rfl⟩
      | inr => cases heffect
  cases j with
  | client =>
    cases hgone : w.clientGone with
    | false => exact congrArg not hgone
    | true =>
      rw [Wire.live, hframe.1 hgone] at hlive
      cases hlive
  | bridge =>
    cases hgone : w.bridgeGone with
    | false => exact congrArg not hgone
    | true =>
      rw [Wire.live, hframe.2 hgone] at hlive
      cases hlive

variable {s : m.choreography.Scene}

/-- A step of one of the two leaves the other where it is. -/
theorem moved_phase {i j : Party} {o : (platform.sum BridgeClient.python).Op}
    {r : (platform.sum BridgeClient.python).Res o} {ph : m.choreography.Phase i}
    (heffect : m.exchange.effect i o r s.world.state = some w') (hij : j ≠ i) :
    (s.moved i ph ⟨w', ⟨i, o, r⟩ :: s.world.trace⟩).phase j = s.phase j := by
  refine Choreography.Scene.moved_phase_of_ne ph hij ?_
  cases hlive : w'.live j with
  | false => exact .inr hlive
  | true => exact .inl (live_of_live heffect hlive)

theorem Sound.step {s' : m.choreography.Scene} (h : Sound m s) (hs : Choreography.Step s s') :
    Sound m s' := by
  cases hs with
  | @mk i o r ph st live role heffect =>
    unfold Sound
    cases i with
    | client =>
      cases o with
      | inl => cases role
      | inr c =>
        rw [Choreography.Scene.moved_phase_self ph live, moved_phase heffect Party.noConfusion]
        exact Good.client h (BridgeClient.moves_of_next role) heffect
    | bridge =>
      cases o with
      | inl o =>
        rw [Choreography.Scene.moved_phase_self ph live, moved_phase heffect Party.noConfusion]
        exact Good.bridge h ((Bool.not_eq_true' _).mp live) (moves_of_next role) heffect
      | inr => cases role

end Budget

/-- The budget of the client is whether it is gone, that of the bridge also what may still happen
to it. -/
def budget (m : Meeting) : m.choreography.Budget where
  Good := Sound m
  W
    | .client => Bool
    | .bridge => ℕ × Bool
  left
    | .client, s => s.world.state.clientGone
    | .bridge, s => (92 - s.world.state.received + s.world.state.interruptions,
        s.world.state.bridgeGone)
  act
    | .client, .inr c, r => BridgeClient.ending c r
    | .bridge, .inl o, r => Ending.spend o r
    | _, _, _ => fun _ => none
  Done
    | .client => fun gone => gone = true
    | .bridge => fun w => w.2 = true
  opening := sound_opening m
  step := Sound.step
  own := by
    intro s i o r ph st h _ role heffect
    cases i with
    | client =>
      cases o with
      | inl => cases role
      | inr c => exact client_ending heffect
    | bridge =>
      cases o with
      | inl o =>
        exact bridge_spend h.standing.careful (moves_of_next role) heffect
          (Nat.le_trans h.sent (sent_le _))
      | inr => cases role
  other := by
    intro s i j o r ph st _ _ role heffect hij
    cases i with
    | client =>
      cases o with
      | inl => cases role
      | inr c =>
        obtain ⟨-, hgone, hreceived, hinterruptions, -⟩ := clientEffect_frame heffect
        cases j with
        | client => exact absurd rfl hij
        | bridge =>
          dsimp only [Choreography.Scene.moved]
          rw [hgone, hreceived, hinterruptions]
    | bridge =>
      cases o with
      | inl o =>
        cases j with
        | client => exact (bridgeEffect_frame heffect).1
        | bridge => exact absurd rfl hij
      | inr => cases role
  stays := live_of_live
  code
    | .client => BridgeClient.clientMain_terminates.lift (fun _ _ _ => rfl) fun _ =>
        Function.surjective_id
    | .bridge => (Ending.clientTask_terminates (92 + m.interruptions)).lift (fun _ _ _ => rfl)
        fun _ => Function.surjective_id

section Rests
variable {m : Meeting} {s : m.choreography.Scene}

/-- One byte can be taken off what is there. -/
theorem take_one {bytes : List UInt8} (h : bytes ≠ []) :
    bytes.take 1 ≠ [] ∧ (bytes.take 1).length = 1 ∧ bytes.take 1 <+: bytes := by
  have hlength : (bytes.take 1).length = 1 := by
    rw [List.length_take]
    exact Nat.min_eq_left (List.length_pos_iff.mpr h)
  exact ⟨List.ne_nil_of_length_pos (Nat.lt_of_lt_of_eq Nat.one_pos hlength.symm), hlength,
    List.take_prefix 1 bytes⟩

/-- A client that waits does so for a reply of which nothing more is there. -/
theorem client_waits (hsound : Sound m s) (h : Choreography.Waits s .client) :
    ∃ stage got, s.phase .client = .reading stage got ∧ s.world.state.down = [] := by
  obtain ⟨o, hrole, hstuck⟩ := h
  cases o with
  | inl o =>
    obtain ⟨ph, hph⟩ := hrole o.smooth
    cases hph
  | inr c =>
    cases c with
    | sendall | leave => cases hstuck ()
    | tokenBytes n =>
      have heffect : m.clientEffect (.tokenBytes n) (m.random n) s.world.state = _ := if_pos rfl
      cases heffect.symm.trans (hstuck _)
    | hmacDigest key message =>
      have heffect : m.clientEffect (.hmacDigest key message) (m.setting.hmac key message)
        s.world.state = _ := if_pos rfl
      cases heffect.symm.trans (hstuck _)
    | recv n =>
      obtain ⟨ph, hph⟩ := hrole []
      have hmoves : BridgeClient.Moves m.pairingSecret (s.phase .client) (.recv n) [] ph :=
        BridgeClient.moves_of_next hph
      have hstray := hsound.standing.not_stray
      generalize s.phase .client = pc at hmoves hstray ⊢
      cases hmoves with
      | stray => exact absurd rfl hstray
      | strays hlong => cases hlong
      | reads _ hsome => exact absurd rfl hsome
      | breaks hwanted =>
        refine ⟨_, _, rfl, ?_⟩
        by_contra hdown
        obtain ⟨hsome, hlength, hprefix⟩ := take_one hdown
        have hpos := BridgeClient.Stage.wanted_pos hwanted
        have heffect : m.clientEffect (.recv n) (s.world.state.down.take 1) s.world.state = _ :=
          (if_neg hsome).trans (if_pos ⟨Nat.le_trans (Nat.le_of_eq hlength) hpos, hprefix⟩)
        cases heffect.symm.trans (hstuck _)

theorem not_nil_of_sending {w : Wire} {trace : List Entry} {pc : BridgeClient.Phase}
    {bytes rest : List UInt8} {k : Keep} {goOn : Bool} {handling : Option Handling}
    (h : Standing m w trace pc (.at (.sending bytes k rest goOn) handling)) : bytes ≠ [] := by
  have hsettled {ρ : Meeting.Round}
      (h : Settled m ρ trace (.at (.sending bytes k rest goOn) handling)) : False := by
    unfold Settled at h
    split at h
    · exact (h _ (m.wellFormed_request .first)).1
    · obtain ⟨(hv | hv | ⟨hv, -⟩), -⟩ := h
      all_goals cases hv
  cases h with
  | unasked _ _ _ hawaits => exact (hawaits _ (m.wellFormed_request .first)).1.elim
  | asked _ hlistens => exact hlistens.1.elim
  | comparing _ _ hcompares => exact hcompares.elim
  | replying _ hmore _ hsends =>
    obtain ⟨rfl, -⟩ := hsends
    exact hmore
  | replied _ _ _ h => exact (hsettled h).elim
  | finished _ _ _ h => exact (hsettled h).elim

/-- Reading and writing can be held up, nothing else. -/
theorem held_up {w : Wire} {o : Op} (h : ∀ r, m.bridgeEffect o r w = none) :
    (∃ socket size, o = .recv socket size) ∨ ∃ socket bytes, o = .send socket bytes := by
  have hsmooth := h o.smooth
  cases o with
  | recv socket size => exact .inl ⟨socket, size, rfl⟩
  | send socket bytes => exact .inr ⟨socket, bytes, rfl⟩
  | fillRandom n =>
    have heffect : m.bridgeEffect (.fillRandom n) (m.setting.random n) w = _ := if_pos rfl
    cases heffect.symm.trans (h _)
  | hmacSha256 key message =>
    have heffect : m.bridgeEffect (.hmacSha256 key message) (some (m.setting.hmac key message))
      w = _ := if_pos rfl
    cases heffect.symm.trans (h _)
  | timerGetTime =>
    have hzero : (0 : ℤ) ≤ 0 ∧ (0 : ℤ) < bridgeClientIdleTimeoutMs * 1000 := by decide
    have heffect : m.bridgeEffect .timerGetTime (0 : ℤ) w = some w := by
      rw [Meeting.bridgeEffect]
      exact if_pos hzero
    cases heffect.symm.trans (h _)
  | _ => cases hsmooth

/-- A bridge that waits does so for a request of which nothing more is there. -/
theorem bridge_waits (hsound : Sound m s) (h : Choreography.Waits s .bridge) :
    ∃ k, s.phase .bridge = .at (.waiting k) none ∧ s.world.state.up = [] := by
  obtain ⟨o, hrole, hstuck⟩ := h
  cases o with
  | inr c =>
    cases c with
    | recv =>
      obtain ⟨ph, hph⟩ := hrole []
      cases hph
    | sendall | leave =>
      obtain ⟨ph, hph⟩ := hrole ()
      cases hph
    | tokenBytes n =>
      obtain ⟨ph, hph⟩ := hrole (m.random n)
      cases hph
    | hmacDigest key message =>
      obtain ⟨ph, hph⟩ := hrole (m.setting.hmac key message)
      cases hph
  | inl o =>
    have hcareful := hsound.standing.careful
    have hstanding := hsound.standing
    have hheld : ∀ r, m.bridgeEffect o r s.world.state = none := hstuck
    rcases held_up hheld with ⟨socket, size, rfl⟩ | ⟨socket, bytes, rfl⟩
    · obtain ⟨ph, hph⟩ := hrole RecvResult.closed
      have hzero : size = 0 → ∀ k handling, s.phase .bridge ≠ .at (.waiting k) handling := by
        rintro rfl k handling hphase
        change next _ 0 (s.phase .bridge) _ _ = some ph at hph
        rw [hphase] at hph
        cases hph
      have hmoves : Moves m.setting.context.pairingSecret 0 (s.phase .bridge)
        (.recv socket size) .closed ph := moves_of_next hph
      generalize s.phase .bridge = pb at hmoves hcareful hzero ⊢
      cases hmoves with
      | unlocked => exact absurd rfl hcareful.1
      | silent hx => cases hx
      | @observed v _ handling _ _ _ hx hadmits hv =>
        cases hx
        cases v with
        | waiting k =>
          obtain rfl := Option.isNone_iff_eq_none.mp hadmits
          refine ⟨k, rfl, ?_⟩
          by_contra hup
          obtain ⟨hsome, hlength, hprefix⟩ := take_one hup
          have hpos : 0 < size := Nat.pos_of_ne_zero fun h => hzero h k none rfl
          have heffect : m.bridgeEffect (.recv socket size) (.data (s.world.state.up.take 1))
            s.world.state = _ :=
              if_pos ⟨hsome, Nat.le_trans (Nat.le_of_eq hlength) hpos, hprefix⟩
          cases heffect.symm.trans (hheld _)
        | _ => cases hv
    · obtain ⟨ph, hph⟩ := hrole (⟨1, false⟩ : SendResult)
      have hmoves : Moves m.setting.context.pairingSecret 0 (s.phase .bridge)
        (.send socket bytes) ⟨1, false⟩ ph := moves_of_next hph
      generalize s.phase .bridge = pb at hmoves hcareful hstanding ⊢
      cases hmoves with
      | unlocked => exact absurd rfl hcareful.1
      | silent hx => cases hx
      | @observed v _ handling _ _ _ hx _ hv =>
        cases hx
        cases v with
        | sending bytes' k rest goOn =>
          obtain ⟨rfl, -⟩ := Option.ite_none_right_eq_some.mp hv
          have hpos := List.length_pos_iff.mpr (not_nil_of_sending hstanding)
          have heffect : m.bridgeEffect (.send socket bytes) ⟨1, false⟩ s.world.state = _ :=
            if_pos ⟨(by decide : (0 : ℤ) < 1), Int.ofNat_le.mpr hpos⟩
          cases heffect.symm.trans (hheld _)
        | _ => cases hv

theorem IsClosed.isDown {pb : Conversation.Phase} (h : IsClosed pb) : IsDown pb := by
  cases pb with
  | starting => exact h
  | «at» => exact .inr h

/-- Where neither can go on, both rounds are over. -/
theorem Standing.rests {w : Wire} {trace : List Entry} {pc : BridgeClient.Phase}
    {pb : Conversation.Phase} (h : Standing m w trace pc pb)
    (hclient : pc = .gone ∨ ∃ stage got, pc = .reading stage got ∧ w.down = [])
    (hbridge : IsClosed pb ∨ ∃ k, pb = .at (.waiting k) none ∧ w.up = []) :
    pc = .gone ∧ Settled m .second trace pb := by
  cases h with
  | @unasked ρ _ _ hasks =>
    rcases hclient with rfl | ⟨stage, got, rfl, -⟩
    · cases ρ <;> exact hasks.elim
    · cases ρ <;> exact hasks.elim
  | asked _ hlistens =>
    rcases hbridge with hclosed | ⟨k, rfl, hup⟩
    · exact absurd hclosed.isDown hlistens.not_down
    · exact absurd hup hlistens.1.2.2.more
  | comparing _ _ hcompares =>
    rcases hbridge with hclosed | ⟨k, rfl, -⟩
    · exact absurd hclosed.isDown hcompares.not_down
    · exact hcompares.elim
  | replying _ _ _ hsends =>
    rcases hbridge with hclosed | ⟨k, rfl, -⟩
    · exact absurd hclosed.isDown hsends.not_down
    · exact hsends.elim
  | replied _ hmore =>
    rcases hclient with hgone | ⟨_, _, -, hdown⟩
    · cases hgone
    · exact absurd hdown hmore
  | finished hended _ _ hsettled =>
    refine ⟨?_, hsettled⟩
    rcases hclient with rfl | ⟨stage, got, rfl, -⟩
    · rfl
    · rcases hended with hended | hended
      · cases hended
      · cases hended

end Rests

variable {m : Meeting}

/-- The client returns from `authenticate` and the bridge has an authenticated session. -/
structure Accepted (c : System.Config m.exchange) : Prop where
  client : ends c.world.trace = [none]
  bridge : ∃ session, latest c.world.trace = some session ∧ session.state = .authenticated

/-- The client raises an error and the bridge closes the connection, and no session was ever
authenticated. -/
structure Refused (c : System.Config m.exchange) : Prop where
  client : ends c.world.trace = [some (.runtimeError "Bridge returned status 3")]
  closed : ∃ l ∈ c.world.trace, hangsUp l = true
  never : ∀ l ∈ c.world.trace, ∀ session, recorded l = some session →
    session.state ≠ .authenticated

/-- What is left once nothing can happen any more. -/
theorem rests_verdict {c : System.Config m.exchange} (h : (budget m).Rests c) :
    if m.Agrees then Accepted c else Refused c := by
  obtain ⟨s, hsound, hw, hwaits⟩ := h
  rw [← hw] at hwaits
  have hclient : s.phase .client = .gone ∨
      ∃ stage got, s.phase .client = .reading stage got ∧ s.world.state.down = [] := by
    cases hgone : s.world.state.clientGone with
    | true => exact .inl (hsound.clientGone hgone)
    | false =>
      rcases hwaits .client (congrArg not hgone) with hdone | hwait
      · exact .inl (hsound.clientGone hdone)
      · exact .inr (client_waits hsound hwait)
  have hbridge : IsClosed (s.phase .bridge) ∨
      ∃ k, s.phase .bridge = .at (.waiting k) none ∧ s.world.state.up = [] := by
    cases hgone : s.world.state.bridgeGone with
    | true => exact .inl (hsound.bridgeGone hgone)
    | false =>
      rcases hwaits .bridge (congrArg not hgone) with hdone | hwait
      · exact .inl (hsound.bridgeGone hdone)
      · exact .inr (bridge_waits hsound hwait)
  obtain ⟨hgone, hsettled⟩ := hsound.standing.rests hclient hbridge
  have hends : ends s.world.trace = [m.outcome] := by
    rw [hsound.ends, hgone]
    rfl
  have hclean := hsound.clean
  rw [hw] at hends hclean hsettled
  by_cases hagrees : m.Agrees
  · rw [if_pos hagrees]
    have hon : m.goesOn .second = true := decide_eq_true hagrees
    unfold Settled at hsettled
    rw [if_pos hon] at hsettled
    have hlistens := hsettled _ (m.wellFormed_request .first)
    rcases hbridge with hclosed | ⟨k, hphase, -⟩
    · exact absurd hclosed.isDown hlistens.not_down
    · rw [hphase] at hlistens
      have hlatest : latest c.world.trace = some (m.after .second) := hlistens.2
      refine ⟨?_, _, hlatest, ?_⟩
      · rw [hends, Meeting.outcome, if_pos hagrees]
      · rw [Meeting.after, if_pos hagrees]
  · rw [if_neg hagrees]
    have hoff : ¬ m.goesOn .second = true := fun h => hagrees (of_decide_eq_true h)
    unfold Settled at hsettled
    rw [if_neg hoff] at hsettled
    refine ⟨?_, ?_, fun l hl session hrecorded hstate =>
      hagrees (hclean l hl session hrecorded hstate)⟩
    · rw [hends, Meeting.outcome, if_neg hagrees]
    · rcases hbridge with hclosed | ⟨k, hphase, -⟩
      · generalize s.phase .bridge = pb at hsettled hclosed
        cases pb with
        | starting => exact hsettled.elim
        | «at» v handling =>
          obtain ⟨(rfl | rfl | ⟨-, hup⟩), -⟩ := hsettled
          · cases hclosed
          · cases hclosed
          · exact hup
      · rw [hphase] at hsettled
        obtain ⟨(hv | hv | ⟨hv, -⟩), -⟩ := hsettled
        all_goals cases hv

end Handshake

/-- Whatever the secrets, the nonces, the session id and the HMAC, however the two directions are
cut and the two sides interleave: the exchange ends, both accept if the HMACs under the two
secrets are the same, as they are if the secrets are, and otherwise the client raises an error and
the bridge hangs up with no session authenticated. Both sides mean the same by a header. -/
theorem authentication_agreement :
    (∀ m : Meeting,
      System.Completes (fun c => if m.Agrees then Handshake.Accepted c else Handshake.Refused c)
        m.exchange.start ∧
      (m.setting.context.pairingSecret = m.pairingSecret → m.Agrees)) ∧
    (∀ (command : BridgeCommand) (requestId : ℕ) (payload : List UInt8),
      match BridgeClient.message command.toByte.toNat requestId payload with
      | .ok bytes =>
        payload.length ≤ 512 ∧ requestId < 2 ^ 32 ∧
          bridgeMessageEncode (BridgeClient.requestOf command (.ofNat requestId) payload)
            bridgeManagementFrameSize = some bytes ∧
          bridgeMessageDecoderPush bridgeMessageDecoderReset bytes =
            (.ready (BridgeClient.requestOf command (.ofNat requestId) payload), bytes.length,
              bridgeMessageDecoderReset)
      | .error _ => 512 < payload.length ∨ 2 ^ 32 ≤ requestId) ∧
    (∀ (response : BridgeMessage) (capacity : ℕ),
      match bridgeMessageEncode response capacity with
      | some bytes =>
        BridgeClient.Header.unpack (bytes.take BridgeClient.headerSize) =
          BridgeClient.Header.of response ∧
        bytes.drop BridgeClient.headerSize = response.payload
      | none => True) := by
  refine ⟨fun m => ⟨?_, ?_⟩, BridgeClient.message_denotes, BridgeClient.unpack_encoded⟩
  · have hdifferent : Party.client ≠ Party.bridge := Party.noConfusion
    have hall (t : Party) : t = .client ∨ t = .bridge := by
      cases t with
      | client => exact .inl rfl
      | bridge => exact .inr rfl
    exact ((Handshake.budget m).completes hdifferent hall).mono fun _ => Handshake.rests_verdict
  · intro hsecret
    unfold Meeting.Agrees Meeting.proof
    rw [hsecret]

end FlipforgeBridge
