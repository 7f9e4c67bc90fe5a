import FlipforgeBridge.Connection.System
import FlipforgeBridge.Codec.ManagementGrammar

/-!
The client task comes to an end once nothing more arrives: every turn of its loops is paid for by
a byte received, a byte written or an interrupted call. The device is taken not to be ready, so
that no proxy begins.
-/
namespace FlipforgeBridge
open Process

namespace Ending

/-- The bytes that may still arrive and the calls that may still be interrupted, together, and
whether the task has deleted itself. -/
def spend : (o : Op) → o.Res → ℕ × Bool → Option (ℕ × Bool)
  | .recv _ _, .data bytes, (n, gone) =>
    if bytes ≠ [] ∧ bytes.length ≤ n then some (n - bytes.length, gone) else none
  | .recv _ _, .error .eintr, (n, gone) | .recv _ _, .error .eagain, (n, gone) =>
    if 0 < n then some (n - 1, gone) else none
  | .send _ bytes, result, (n, gone) =>
    if 0 < result.sent ∧ result.sent ≤ bytes.length then some (n, gone)
    else if result.sent < 0 ∧ result.eintr ∧ 0 < n then some (n - 1, gone)
    else none
  | .transport .state, state, w => if state ≠ .ready then some w else none
  | .taskDeleteSelf, _, (n, _) => some (n, true)
  | _, _, w => some w

/-- Whatever is left, the program ends with less and a result in `P`. -/
def Spends {α : Type} (p : Routine α) (P : α → Prop) : Prop :=
  ∀ n, p.Terminates spend (fun a w => P a ∧ w.1 ≤ n ∧ w.2 = false) (n, false)

section Rules
variable {α β σ : Type} {P : α → Prop} {R : β → Prop} {o : Op}

theorem spends_pure {a : α} (h : P a) : Spends (pure a) P := fun n => .ret ⟨h, Nat.le_refl n, rfl⟩

theorem Spends.bind {p : Routine α} {k : α → Routine β} (hp : Spends p P)
    (hk : ∀ a, P a → Spends (k a) R) : Spends (p >>= k) R := by
  intro n
  refine (hp n).bind ?_
  rintro a ⟨m, _⟩ ⟨ha, hm, rfl⟩
  refine (hk a ha m).mono ?_
  rintro b w ⟨hb, hw, hgone⟩
  exact ⟨hb, Nat.le_trans hw hm, hgone⟩

/-- An operation that costs nothing. -/
theorem terminates_free {k : o.Res → Routine β} {Q : β → ℕ × Bool → Prop} {w : ℕ × Bool}
    (h : ∀ r, spend o r w = some w) (hk : ∀ r, (k r).Terminates spend Q w) :
    (op o >>= k).Terminates spend Q w := by
  refine .call ⟨o.smooth, _, h _⟩ fun r w' hr => ?_
  rw [h, Option.some_inj] at hr
  exact hr ▸ hk r

theorem spends_free {k : o.Res → Routine β} (h : ∀ r w, spend o r w = some w)
    (hk : ∀ r, Spends (k r) R) : Spends (op o >>= k) R :=
  fun n => terminates_free (fun r => h r _) fun r => hk r n

theorem spends_loop {x : σ} {body : σ → Routine (σ ⊕ β)} (J : σ → Prop) (measure : σ → ℕ)
    (hbody : ∀ x, J x → Spends (body x) (Sum.elim (fun x' => J x' ∧ measure x' < measure x) R))
    (hx : J x) : Spends (.loop x body) R := by
  intro n
  refine .loop (fun x w => J x ∧ w.1 ≤ n ∧ w.2 = false) (fun x _ => measure x) ?_
    ⟨hx, Nat.le_refl n, rfl⟩
  rintro x ⟨m, _⟩ ⟨hx, hm, rfl⟩
  refine (hbody x hx m).mono ?_
  rintro (x' | b) w ⟨h, hw, hgone⟩
  · exact ⟨⟨h.1, Nat.le_trans hw hm, hgone⟩, h.2⟩
  · exact ⟨h, Nat.le_trans hw hm, hgone⟩

end Rules

variable {socket : ℕ} {context : ClientContext} {session : BridgeSession} {request : BridgeMessage}
  {status : BridgeStatus} {payload : List UInt8}

theorem sendAll_spends (bytes : List UInt8) : Spends (sendAll socket bytes) fun _ => True := by
  intro n
  refine .bind (Q := fun _ w => w.1 ≤ n ∧ w.2 = false) ?_ ?_
  · refine .loop (fun _ w => w.1 ≤ n ∧ w.2 = false) (fun offset w => bytes.length - offset + w.1)
      ?_ ⟨Nat.le_refl n, rfl⟩
    rintro offset ⟨m, _⟩ ⟨hm, rfl⟩
    split
    · exact .ret ⟨hm, rfl⟩
    · next hlt =>
      rw [not_not] at hlt
      have hlength : (bytes.drop offset).length = bytes.length - offset := List.length_drop
      refine .call ⟨⟨1, false⟩, _, if_pos ⟨by simp, by simp; omega⟩⟩ fun result w hr => ?_
      simp only [Prog.ret_bind, Prog.pure_eq_ret]
      rw [spend] at hr
      split at hr
      · next htaken =>
        cases hr
        rw [hlength] at htaken
        have hnat : 0 < result.sent ∧ result.sent.toNat ≤ bytes.length - offset := by omega
        rw [if_pos hnat]
        exact .ret ⟨⟨hm, rfl⟩, by dsimp only; omega⟩
      · obtain ⟨⟨hneg, hagain, hpos⟩, hw⟩ := Option.ite_none_right_eq_some.mp hr
        cases hw
        rw [if_neg (by omega), if_pos ⟨hneg, by rw [hagain, decide_eq_true hneg]; rfl⟩]
        exact .ret ⟨⟨by dsimp only; omega, rfl⟩, by dsimp only; omega⟩
  · rintro written w hw
    exact .ret ⟨trivial, hw⟩

theorem sendResponse_spends :
    Spends (sendResponse socket request status payload) fun _ => True := by
  refine spends_free (fun _ _ => rfl) fun _ => ?_
  split
  · exact spends_pure trivial
  split
  · exact spends_pure trivial
  · exact sendAll_spends _

/-- A request is handled and no proxy begins. -/
abbrev Handles (p : Routine (EspErr × BridgeSession × Bool)) : Prop :=
  Spends p fun result => result.2.2 = false

theorem answer_handles : Handles (answer socket session request status payload) :=
  sendResponse_spends.bind fun _ _ => spends_pure rfl

theorem answerJson_handles {json : String} :
    Handles (answerJson socket session request json) := by
  unfold answerJson
  split
  · exact spends_pure rfl
  · exact answer_handles

/-- The device is not ready. -/
theorem spends_state {β : Type} {R : β → Prop} {k : ExpansionState → Routine β}
    (hk : ∀ state, state ≠ .ready → Spends (k state) R) :
    Spends (op (.transport .state) >>= k) R := by
  intro n
  have hdown : spend (.transport .state) .disconnected (n, false) = some (n, false) := rfl
  refine .call ⟨.disconnected, _, hdown⟩ fun (state : ExpansionState) w hr => ?_
  obtain ⟨hstate, hw⟩ := Option.ite_none_right_eq_some.mp hr
  cases hw
  exact hk state hstate n

theorem getBridgeInfo_handles :
    Handles (getBridgeInfo abstractTransport socket session request) := by
  unfold getBridgeInfo
  split
  · exact answer_handles
  refine spends_free (fun _ _ => rfl) fun _ => ?_
  refine spends_free (fun _ _ => rfl) fun _ => ?_
  refine spends_state fun _ _ => ?_
  refine spends_free (fun _ _ => rfl) fun _ => ?_
  exact answerJson_handles

theorem getStatus_handles : Handles (getStatus abstractTransport socket session request) := by
  unfold getStatus
  split
  · exact answer_handles
  refine spends_free (fun _ _ => rfl) fun _ => ?_
  refine spends_state fun _ _ => ?_
  refine spends_free (fun _ _ => rfl) fun _ => ?_
  exact answerJson_handles

theorem beginRpcProxy_handles :
    Handles (beginRpcProxy abstractTransport socket session request) := by
  unfold beginRpcProxy
  refine Spends.bind (P := fun refused => refused = true) ?_ ?_
  · split
    · exact spends_pure rfl
    · exact spends_state fun state hstate => spends_pure (decide_eq_true hstate)
  rintro _ rfl
  rw [if_pos rfl]
  exact spends_free (fun _ _ => rfl) fun _ => answer_handles

theorem endRpcProxy_handles : Handles (endRpcProxy socket session request) := by
  unfold endRpcProxy
  split
  · exact answer_handles
  · exact answer_handles

theorem handleHello_handles : Handles (handleHello socket session request) := by
  unfold handleHello
  split
  · exact answer_handles
  split
  · exact answer_handles
  · exact answer_handles

theorem handleAuthenticate_handles : Handles (handleAuthenticate context session request) := by
  unfold handleAuthenticate
  split
  · exact answer_handles
  refine spends_free (fun _ _ => rfl) fun _ => ?_
  split
  · exact sendResponse_spends.bind fun _ _ => spends_pure rfl
  · exact answer_handles

theorem handleAuthenticatedCommand_handles :
    Handles (handleAuthenticatedCommand abstractTransport context session request) := by
  unfold handleAuthenticatedCommand
  split
  · exact answer_handles
  split
  · exact getBridgeInfo_handles
  split
  · exact getStatus_handles
  split
  · exact answer_handles
  split
  · exact beginRpcProxy_handles
  split
  · exact endRpcProxy_handles
  · exact answer_handles

theorem tracedHandle_handles :
    Handles (tracedHandle abstractTransport context session request) := by
  refine spends_free (fun _ _ => rfl) fun _ => ?_
  refine Spends.bind (P := fun result => result.2.2 = false) ?_ ?_
  · unfold handleManagementMessage
    split
    · exact answer_handles
    split
    · exact answer_handles
    split
    · exact handleHello_handles
    split
    · exact handleAuthenticate_handles
    · exact handleAuthenticatedCommand_handles
  · rintro ⟨error, after, beginProxy⟩ hproxy
    exact spends_free (fun _ _ => rfl) fun _ => spends_pure hproxy

theorem handleInput_spends {input : List UInt8} {decoder : BridgeMessageDecoder} :
    Spends (handleInput abstractTransport context input session decoder) fun _ => True := by
  refine spends_loop (fun _ => True) (fun x => input.length - x.2.2) ?_ trivial
  rintro ⟨session, decoder, offset⟩ -
  dsimp only
  split
  · exact spends_pure trivial
  · next hlt =>
    rw [not_not] at hlt
    have hne : input.drop offset ≠ [] := by
      rw [ne_eq, List.drop_eq_nil_iff]
      omega
    rcases hpush : bridgeMessageDecoderPush decoder (input.drop offset) with
      ⟨decoded, consumed, decoder'⟩
    cases decoded with
    | ready request =>
      have hpos := consumed_pos hne (by exact Bool.false_ne_true) hpush
      refine Spends.bind tracedHandle_handles ?_
      rintro ⟨error, after, beginProxy⟩ hproxy
      obtain rfl : beginProxy = false := hproxy
      dsimp only
      split
      · exact spends_pure trivial
      · rw [if_neg Bool.false_ne_true]
        exact spends_pure ⟨trivial, by dsimp only; omega⟩
    | needMore =>
      have hpos := consumed_pos hne (by exact Bool.false_ne_true) hpush
      exact spends_pure ⟨trivial, by dsimp only; omega⟩
    | malformed => exact Spends.bind sendResponse_spends fun _ _ => spends_pure trivial
    | tooLarge => exact Spends.bind sendResponse_spends fun _ _ => spends_pure trivial

/-- The client task deletes itself in the end. -/
theorem clientTask_terminates (n : ℕ) :
    (clientTask abstractTransport context).Terminates spend (fun _ w => w.2 = true)
      (n, false) := by
  refine terminates_free (fun _ => rfl) fun _ => ?_
  refine terminates_free (fun _ => rfl) fun bridgeNonce => ?_
  refine terminates_free (fun _ => rfl) fun sessionId => ?_
  refine terminates_free (fun _ => rfl) fun _ => ?_
  refine terminates_free (fun _ => rfl) fun startedUs => ?_
  refine .bind (Q := fun _ w => w.2 = false) ?_ ?_
  · refine .loop (fun _ w => w.2 = false) (fun _ w => w.1) ?_ rfl
    rintro ⟨session, decoder, lastActivityUs⟩ ⟨m, _⟩ rfl
    refine .call ⟨.closed, _, rfl⟩ fun (received : RecvResult) w hr => ?_
    match received with
    | .closed =>
      cases hr
      exact .ret rfl
    | .error .other =>
      cases hr
      exact .ret rfl
    | .error .eintr =>
      obtain ⟨hpos, hw⟩ := Option.ite_none_right_eq_some.mp hr
      cases hw
      exact .ret ⟨rfl, Nat.sub_lt hpos Nat.one_pos⟩
    | .error .eagain =>
      obtain ⟨hpos, hw⟩ := Option.ite_none_right_eq_some.mp hr
      cases hw
      have hless : m - 1 < m := Nat.sub_lt hpos Nat.one_pos
      rw [Prog.ret_bind]
      dsimp only
      rw [if_neg (by decide), if_pos rfl, bind_assoc]
      refine terminates_free (fun _ => rfl) fun (nowUs : ℤ) => ?_
      rw [pure_bind]
      refine .ret ?_
      split
      · exact ⟨rfl, hless⟩
      · rfl
    | .data input =>
      obtain ⟨⟨hne, hle⟩, hw⟩ := Option.ite_none_right_eq_some.mp hr
      cases hw
      have hless : m - input.length < m :=
        Nat.sub_lt (Nat.lt_of_lt_of_le (List.length_pos_iff.mpr hne) hle)
          (List.length_pos_iff.mpr hne)
      refine terminates_free (fun _ => rfl) fun (nowUs : ℤ) => ?_
      refine (handleInput_spends _).bind ?_
      rintro ⟨session, decoder, finished⟩ w ⟨-, hw, hgone⟩
      refine .ret ?_
      cases finished
      · exact ⟨hgone, Nat.lt_of_le_of_lt hw hless⟩
      · exact hgone
  · rintro session ⟨m, _⟩ rfl
    refine terminates_free (fun _ => rfl) fun _ => ?_
    refine terminates_free (fun _ => rfl) fun _ => ?_
    refine terminates_free (fun _ => rfl) fun _ => ?_
    refine terminates_free (fun _ => rfl) fun _ => ?_
    refine .call ⟨(), _, rfl⟩ fun _ w hr => ?_
    cases hr
    exact .ret rfl

end Ending
end FlipforgeBridge
