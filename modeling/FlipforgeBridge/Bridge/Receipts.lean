import FlipforgeBridge.Bridge.Flow

/-!
The DATA frames of the Flipper. A frame is stored whole, in the session in which it was let in, and
acknowledged once; one that is not ends the link, and no other frame comes after it.
-/
namespace FlipforgeBridge
open Process

namespace Bridge

namespace Receipts

/-- Every frame was stored and acknowledged. -/
structure Settled (b : Receipts) : Prop where
  stored : b.decoded = b.stored
  acks : b.acks = b.stored.length
  acked : b.acked = b.stored.length

/-- The last frame is still to be stored. -/
structure Pending (b : Receipts) (bytes : List UInt8) : Prop where
  stored : b.decoded = b.stored ++ [bytes]
  acks : b.acks = b.stored.length
  acked : b.acked = b.stored.length

/-- The last frame was stored and is still to be acknowledged. -/
structure Deposited (b : Receipts) : Prop where
  stored : b.decoded = b.stored
  acks : b.acks + 1 = b.stored.length
  acked : b.acked + 1 = b.stored.length

/-- Only the last frame may be missing, and only the last acknowledgement. -/
structure Kept (b : Receipts) : Prop where
  stored : b.stored <+: b.decoded
  decoded : b.decoded.length ≤ b.stored.length + 1
  once : b.acks ≤ b.stored.length
  acks : b.stored.length ≤ b.acks + 1
  acked : b.stored.length ≤ b.acked + 1

theorem Settled.kept {b : Receipts} (h : b.Settled) : b.Kept where
  stored := h.stored ▸ List.prefix_refl _
  decoded := by rw [h.stored]; omega
  once := h.acks.le
  acks := by rw [h.acks]; omega
  acked := by rw [h.acked]; omega

theorem Pending.kept {b : Receipts} {bytes : List UInt8} (h : b.Pending bytes) : b.Kept where
  stored := h.stored ▸ List.prefix_append _ _
  decoded := by simp [h.stored]
  once := h.acks.le
  acks := by rw [h.acks]; omega
  acked := by rw [h.acked]; omega

theorem Deposited.kept {b : Receipts} (h : b.Deposited) : b.Kept where
  stored := h.stored ▸ List.prefix_refl _
  decoded := by rw [h.stored]; omega
  once := by rw [← h.acks]; omega
  acks := h.acks.ge
  acked := h.acked.ge

end Receipts

/-- What the receiving task has done so far, where it stands. -/
def RxPhase.Owes (b : Receipts) (signalled : ℕ) : RxPhase → Prop
  | .reading => b.Settled
  | .data bytes | .checked bytes | .counted bytes => b.Pending bytes
  | .stored => b.Deposited
  | .leaving => b.Settled ∨ 0 < signalled
  | .refused | .ended => True

/-- What stands before a frame is taken up, stored, and acknowledged, and before the task leaves. -/
def ReceiptOrder : Entry → List Entry → Prop
  | ⟨.rx id, .mark (.frame _), _⟩, past => (receipts id past).Settled
  | ⟨.rx id, .streamSend bytes, sent⟩, past =>
    sent = bytes.length ∧ (receipts id past).Pending bytes ∧
      ∃ n, owner past = some n ∧ admittedFor id past = some n
  | ⟨.rx id, .uartWriteBytes bytes, _⟩, past => bytes = ackBytes → (receipts id past).Deposited
  | ⟨.rx id, .clearTaskHandle .rx, _⟩, past =>
    (receipts id past).Settled ∨ 0 < signals (.rx id) past
  | _, _ => True

namespace Link

structure Received (l : Link) (trace : List Entry) : Prop where
  kept : ∀ id, (receipts id trace).Kept
  rx : ∀ id ph, l.rx = some (id, ph) → id < l.rxCreated ∧
    ph.Owes (receipts id trace) (signals (.rx id) trace)
  admitted : ∀ id bytes, l.rx = some (id, .checked bytes) ∨ l.rx = some (id, .counted bytes) →
    ∃ n, owner trace = some n ∧ admittedFor id trace = some n
  fresh : ∀ id, l.rxCreated ≤ id → receipts id trace = {}

theorem received_nil : Received {} [] where
  kept _ := Receipts.Settled.kept ⟨rfl, rfl, rfl⟩
  rx := by simp
  admitted := by simp
  fresh _ _ := rfl

section Received
variable {l l' : Link} {trace : List Entry} {e : Entry}

/-- Entries a receiving task has not to answer for. -/
structure Elsewhere (e : Entry) (past : List Entry) : Prop where
  receipts : ∀ id, receipts id (e :: past) = receipts id past
  signals : ∀ id, signals (.rx id) (e :: past) = signals (.rx id) past
  admitted : ∀ id, admittedFor id (e :: past) = admittedFor id past

theorem admittedFor_of_ne {i : Tid} {o : Op} {r : o.Res} {id : ℕ} (h : i ≠ .rx id) :
    admittedFor id (⟨i, o, r⟩ :: trace) = admittedFor id trace := by
  cases o with
  | locked s => cases s <;> first | rfl | exact if_neg h
  | _ => rfl

theorem elsewhere {i : Tid} {o : Op} {r : o.Res} (h : ∀ id, i ≠ .rx id) :
    Elsewhere ⟨i, o, r⟩ trace where
  receipts id := account_of_ne (h id)
  signals id := account_of_ne (h id)
  admitted id := admittedFor_of_ne (h id)

/-- Operations a receiving task has not to answer for. -/
def untold : Op → Bool
  | .mark (.frame (.data _)) | .streamSend _ | .uartWriteBytes _ | .setLost _ | .locked .state =>
    false
  | _ => true

theorem untold_of_idle {o : Op} (h : Bridge.idle o = true) : untold o = true := by
  cases o with
  | locked s => cases s <;> first | rfl | cases h
  | mark m => cases h
  | streamSend bytes | uartWriteBytes bytes | setLost reason => cases h
  | _ => rfl

theorem elsewhere_of_untold {i : Tid} {o : Op} {r : o.Res} (h : untold o = true) :
    Elsewhere ⟨i, o, r⟩ trace where
  receipts id := by
    apply account_idle
    intro b
    cases o with
    | mark m =>
      cases m with
      | frame frame => cases frame <;> first | rfl | cases h
      | _ => rfl
    | _ => first | rfl | cases h
  signals id := by
    apply account_idle
    intro count
    cases o <;> first | rfl | cases h
  admitted id := by
    cases o with
    | locked s => cases s <;> first | rfl | cases h
    | _ => rfl

theorem Received.frame (h : Received l trace) (he : Elsewhere e trace)
    (howner : ∀ id bytes, l.rx = some (id, .checked bytes) ∨ l.rx = some (id, .counted bytes) →
      owner (e :: trace) = owner trace)
    (hrx : l'.rx = l.rx ∨ l'.rx = none) (hcreated : l'.rxCreated = l.rxCreated) :
    Received l' (e :: trace) := by
  have hbefore : ∀ {id ph}, l'.rx = some (id, ph) → l.rx = some (id, ph) := by
    intro id ph hph
    obtain hrx | hrx := hrx
    · rwa [hrx] at hph
    · rw [hrx] at hph
      cases hph
  constructor
  case kept =>
    intro id
    rw [he.receipts]
    exact h.kept id
  case rx =>
    intro id ph hph
    rw [hcreated, he.receipts, he.signals]
    exact h.rx id ph (hbefore hph)
  case admitted =>
    intro id bytes hph
    have hph := hph.imp hbefore hbefore
    rw [howner id bytes hph, he.admitted]
    exact h.admitted id bytes hph
  case fresh =>
    intro id hid
    rw [he.receipts]
    exact h.fresh id (hcreated ▸ hid)

theorem SupervisorStep.received (h : Received l trace)
    (hstep : SupervisorStep l e l') : Received l' (e :: trace) := by
  cases hstep with
  | createRx hsup =>
    have he : Elsewhere ⟨.supervisor, .taskCreate .rx, true⟩ trace := elsewhere (by simp)
    constructor
    case kept =>
      intro id
      rw [he.receipts]
      exact h.kept id
    case rx =>
      rintro id _ ⟨⟩
      rw [he.receipts, h.fresh _ le_rfl]
      exact ⟨Nat.lt_succ_self _, rfl, rfl, rfl⟩
    case admitted =>
      intro id bytes hph
      simp at hph
    case fresh =>
      intro id hid
      rw [he.receipts]
      exact h.fresh id (Nat.le_of_succ_le hid)
  | delete hsup => exact h.frame (elsewhere (by simp)) (fun _ _ _ => rfl) (.inr rfl) rfl
  | advance hsup event hevent happly =>
    refine h.frame (elsewhere (by simp)) (fun id bytes _ => ?_) (.inl rfl) rfl
    obtain rfl | rfl | rfl := hevent <;> rfl
  | tidy hsup o r ho =>
    obtain rfl | rfl | ⟨handle, rfl⟩ := ho
    all_goals exact h.frame (elsewhere (by simp)) (fun _ _ _ => rfl) (.inl rfl) rfl
  | _ => exact h.frame (elsewhere (by simp)) (fun _ _ _ => rfl) (.inl rfl) rfl

/-- The receiving task moves on. -/
theorem Received.moves {id : ℕ} {ph ph' : RxPhase} {o : Op} {r : o.Res} (h : Received l trace)
    (hrx : l.rx = some (id, ph)) (hrx' : l'.rx = some (id, ph'))
    (hcreated : l'.rxCreated = l.rxCreated)
    (hkept : (receipts id (⟨.rx id, o, r⟩ :: trace)).Kept)
    (howes : ph'.Owes (receipts id (⟨.rx id, o, r⟩ :: trace))
      (signals (.rx id) (⟨.rx id, o, r⟩ :: trace)))
    (hadmitted : ∀ bytes, ph' = .checked bytes ∨ ph' = .counted bytes →
      ∃ n, owner (⟨.rx id, o, r⟩ :: trace) = some n ∧
        admittedFor id (⟨.rx id, o, r⟩ :: trace) = some n) :
    Received l' (⟨.rx id, o, r⟩ :: trace) := by
  have hid := (h.rx id ph hrx).1
  have hother : ∀ m, m ≠ id → receipts m (⟨.rx id, o, r⟩ :: trace) = receipts m trace :=
    fun m hm => account_of_ne (by simpa using Ne.symm hm)
  constructor
  case kept =>
    intro m
    by_cases hm : m = id
    · rw [hm]
      exact hkept
    · rw [hother m hm]
      exact h.kept m
  case rx =>
    intro m ph'' hm
    rw [hrx'] at hm
    cases hm
    exact ⟨hcreated ▸ hid, howes⟩
  case admitted =>
    intro m bytes hm
    simp only [hrx', Option.some.injEq, Prod.mk.injEq] at hm
    obtain ⟨rfl, hph⟩ | ⟨rfl, hph⟩ := hm
    · exact hadmitted bytes (.inl hph)
    · exact hadmitted bytes (.inr hph)
  case fresh =>
    intro m hm
    rw [hcreated] at hm
    rw [hother m (by omega)]
    exact h.fresh m hm

/-- Without anything to answer for. -/
theorem Received.proceeds {id : ℕ} {ph ph' : RxPhase} {o : Op} {r : o.Res} (h : Received l trace)
    (hrx : l.rx = some (id, ph)) (hrx' : l'.rx = some (id, ph'))
    (hcreated : l'.rxCreated = l.rxCreated) (ho : untold o = true)
    (howner : owner (⟨.rx id, o, r⟩ :: trace) = owner trace)
    (howes : ∀ b signalled, ph.Owes b signalled → ph'.Owes b signalled)
    (hadmitted : ∀ bytes, ph' = .checked bytes ∨ ph' = .counted bytes →
      ph = .checked bytes ∨ ph = .counted bytes) : Received l' (⟨.rx id, o, r⟩ :: trace) := by
  have he : Elsewhere ⟨.rx id, o, r⟩ trace := elsewhere_of_untold ho
  refine h.moves hrx hrx' hcreated ?_ ?_ ?_
  · rw [he.receipts]
    exact h.kept id
  · rw [he.receipts, he.signals]
    exact howes _ _ (h.rx id ph hrx).2
  · intro bytes hph
    rw [howner, he.admitted]
    obtain rfl | rfl := hadmitted bytes hph
    · exact h.admitted id bytes (.inl hrx)
    · exact h.admitted id bytes (.inr hrx)

/-- A DATA frame is decoded. -/
theorem Received.decoded {id : ℕ} {bytes : List UInt8} (h : Received l trace)
    (hrx : l.rx = some (id, .reading)) :
    Received { l with rx := some (id, .data bytes) }
      (⟨.rx id, .mark (.frame (.data bytes)), ()⟩ :: trace) := by
  have hreceipts : receipts id (⟨.rx id, .mark (.frame (.data bytes)), ()⟩ :: trace) =
      { receipts id trace with decoded := (receipts id trace).decoded ++ [bytes] } := account_self
  obtain ⟨hstored, hacks, hacked⟩ : (receipts id trace).Settled := (h.rx id _ hrx).2
  have hpending :
      (receipts id (⟨.rx id, .mark (.frame (.data bytes)), ()⟩ :: trace)).Pending bytes := by
    rw [hreceipts]
    exact ⟨by rw [hstored], hacks, hacked⟩
  exact h.moves hrx rfl rfl hpending.kept hpending (by simp)

/-- It may be stored for the client whose session is open. -/
theorem Received.checked {id : ℕ} {bytes : List UInt8} (h : Received l trace) (hflow : Flow l trace)
    (hsound : l.Sound) (hrx : l.rx = some (id, .data bytes)) :
    Received
      { l with rx := some (id, if l.machine.state = .rpcReady then .checked bytes else .refused) }
      (⟨.rx id, .locked .state, l.machine.state⟩ :: trace) := by
  have hreceipts : receipts id (⟨.rx id, .locked .state, l.machine.state⟩ :: trace) =
      receipts id trace := account_self
  refine h.moves hrx rfl rfl ?_ ?_ ?_
  · rw [hreceipts]
    exact h.kept id
  · rw [hreceipts]
    split
    · exact (h.rx id _ hrx).2
    · trivial
  · intro bytes' hph
    have hstate : l.machine.state = .rpcReady := by
      by_contra hstate
      simp [hstate] at hph
    obtain ⟨answer, hopened⟩ := hsound.ready hstate
    obtain ⟨⟨n, ph⟩, hclient, -⟩ := Option.map_eq_some_iff.mp hopened
    have howner := (hflow.ready hstate n ph hclient).1
    exact ⟨n, howner, (if_pos rfl).trans howner⟩

/-- It is stored whole. -/
theorem Received.deposited {id : ℕ} {bytes : List UInt8} {sent : ℕ} (h : Received l trace)
    (hsound : l.Sound) (hrx : l.rx = some (id, .counted bytes))
    (hsent : sent = min bytes.length (bridgeRpcRxBufferBytes - l.rpcRx.length)) :
    sent = bytes.length ∧ Received
      { l with
        rpcRx := l.rpcRx ++ bytes.take sent
        rx := some (id, if sent = bytes.length then .stored else .refused) }
      (⟨.rx id, .streamSend bytes, sent⟩ :: trace) := by
  have hfits := hsound.fits id bytes hrx
  have hwhole : sent = bytes.length := by omega
  have hreceipts : receipts id (⟨.rx id, .streamSend bytes, sent⟩ :: trace) =
      { receipts id trace with stored := (receipts id trace).stored ++ [bytes] } := by
    rw [receipts, account_self, ← receipts, Receipts.after, hwhole, List.take_length]
  obtain ⟨hstored, hacks, hacked⟩ : (receipts id trace).Pending bytes := (h.rx id _ hrx).2
  have hdeposited : (receipts id (⟨.rx id, .streamSend bytes, sent⟩ :: trace)).Deposited := by
    rw [hreceipts]
    exact ⟨hstored, by simp [hacks], by simp [hacked]⟩
  refine ⟨hwhole, h.moves hrx rfl rfl hdeposited.kept ?_ ?_⟩
  · rw [if_pos hwhole]
    exact hdeposited
  · rw [if_pos hwhole]
    simp

/-- It is acknowledged, or the acknowledgement is cut short. -/
theorem Received.acknowledged {id : ℕ} {written : ℤ} (h : Received l trace)
    (hrx : l.rx = some (id, .stored)) :
    Received { l with rx := some (id, if written = ackBytes.length then .reading else .refused) }
      (⟨.rx id, .uartWriteBytes ackBytes, written⟩ :: trace) := by
  have hreceipts : receipts id (⟨.rx id, .uartWriteBytes ackBytes, written⟩ :: trace) =
      { receipts id trace with
        acks := (receipts id trace).acks + 1
        acked := (receipts id trace).acked + if written = ackBytes.length then 1 else 0 } := by
    rw [receipts, account_self, ← receipts, Receipts.after, if_pos rfl]
  obtain ⟨hstored, hacks, hacked⟩ : (receipts id trace).Deposited := (h.rx id _ hrx).2
  refine h.moves hrx rfl rfl ?_ ?_ ?_
  · rw [hreceipts]
    exact ⟨hstored ▸ List.prefix_refl _, by simp [hstored], hacks.le, by dsimp only; omega,
      by dsimp only; omega⟩
  · rw [hreceipts]
    split
    · exact ⟨hstored, hacks, hacked⟩
    · trivial
  · split <;> simp

theorem RxStep.received {id : ℕ} (h : Received l trace) (hflow : Flow l trace) (hsound : l.Sound)
    (hstep : RxStep l id e l') : Received l' (e :: trace) := by
  cases hstep with
  | frame hrx frame =>
    cases frame with
    | data bytes => exact h.decoded hrx
    | _ => exact h.proceeds hrx rfl rfl rfl rfl (fun _ _ howes => howes) (by simp)
  | offer hrx status hawaiting =>
    exact h.proceeds hrx hrx rfl rfl rfl (fun _ _ howes => howes) (by simp)
  | unexpected hrx status hawaiting =>
    exact h.proceeds hrx hrx rfl rfl rfl (fun _ _ howes => howes) (by simp)
  | peek hrx seen =>
    refine h.proceeds hrx rfl rfl rfl rfl (fun b signalled howes => ?_) (by split <;> simp)
    split
    · exact .inl howes
    · exact howes
  | check hrx => exact h.checked hflow hsound hrx
  | count hrx =>
    refine h.proceeds hrx rfl rfl rfl rfl (fun b signalled howes => ?_) (by split <;> simp)
    split
    · exact howes
    · trivial
  | deposit hrx hsent => exact (h.deposited hsound hrx hsent).2
  | acknowledge hrx written => exact h.acknowledged hrx
  | refuse hrx hbytes written =>
    have hreceipts :
        receipts id (⟨.rx id, .uartWriteBytes _, written⟩ :: trace) = receipts id trace :=
      account_self.trans (if_neg hbytes)
    refine h.moves hrx hrx rfl ?_ trivial (by simp)
    rw [hreceipts]
    exact h.kept id
  | lose hrx reason =>
    have hreceipts : receipts id (⟨.rx id, .setLost reason, ()⟩ :: trace) = receipts id trace :=
      account_self
    refine h.moves hrx rfl rfl ?_ (.inr ?_) (by simp)
    · rw [hreceipts]
      exact h.kept id
    · rw [signals, account_self]
      exact Nat.succ_pos _
  | leave hrx => exact h.frame (elsewhere_of_untold rfl) (fun _ _ _ => rfl) (.inr rfl) rfl

theorem ClientStep.received {n : ℕ} {ph : ClientPhase} (h : Received l trace) (hsound : l.Sound)
    (hstep : ClientStep l n ph e l') : Received l' (e :: trace) := by
  cases hstep with
  | apply happly hsession hproxy =>
    refine h.frame (elsewhere (by simp)) (fun id bytes hrx => ?_) (.inl rfl) rfl
    have hverdict := verdict happly hsession
    rw [owner_apply_self]
    generalize ph.session = before at hverdict
    cases hverdict with
    | started hstart hready =>
      -- a frame let in is stored before the next session is opened
      have hreceiving := hsound.receiving id bytes hrx
      simp [hstart] at hreceiving
    | _ => simp
  | «open» hopened hproxy created =>
    cases created <;> exact h.frame (elsewhere (by simp)) (fun _ _ _ => rfl) (.inl rfl) rfl
  | start hopened hproxy created =>
    cases created <;> exact h.frame (elsewhere (by simp)) (fun _ _ _ => rfl) (.inl rfl) rfl
  | _ => exact h.frame (elsewhere (by simp)) (fun _ _ _ => rfl) (.inl rfl) rfl

theorem Step.received (h : Received l trace) (hflow : Flow l trace) (hsound : l.Sound)
    (hstep : l.Step e l') : Received l' (e :: trace) := by
  cases hstep with
  | supervisor hstep => exact hstep.received h
  | rx hstep => exact hstep.received h hflow hsound
  | writer hstep =>
    cases hstep <;> exact h.frame (elsewhere (by simp)) (fun _ _ _ => rfl) (.inl rfl) rfl
  | client hclient hstep => exact hstep.received h hsound
  | server hstep =>
    cases hstep <;> exact h.frame (elsewhere (by simp)) (fun _ _ _ => rfl) (.inl rfl) rfl
  | heartbeatLost id reason =>
    exact h.frame (elsewhere (by simp)) (fun _ _ _ => rfl) (.inl rfl) rfl
  | heartbeat id bytes written =>
    exact h.frame (elsewhere (by simp)) (fun _ _ _ => rfl) (.inl rfl) rfl
  | idle ho r =>
    exact h.frame (elsewhere_of_untold (untold_of_idle ho))
      (fun _ _ _ => owner_dry (dry_of_idle ho)) (.inl rfl) rfl

theorem Step.receiptOrder (h : Received l trace) (hsound : l.Sound) (hstep : l.Step e l') :
    ReceiptOrder e trace := by
  cases hstep with
  | @rx id _ _ hstep =>
    cases hstep with
    | frame hrx frame => exact (h.rx id _ hrx).2
    | @deposit bytes hrx sent hsent =>
      exact ⟨(h.deposited hsound hrx hsent).1, (h.rx id _ hrx).2, h.admitted id bytes (.inr hrx)⟩
    | acknowledge hrx written => exact fun _ => (h.rx id _ hrx).2
    | refuse hrx hbytes written => exact fun hack => absurd hack hbytes
    | leave hrx => exact (h.rx id _ hrx).2
    | _ => trivial
  | supervisor hstep => cases hstep <;> trivial
  | writer hstep => cases hstep <;> trivial
  | client hclient hstep => cases hstep <;> trivial
  | server hstep => cases hstep <;> trivial
  | heartbeatLost id reason => trivial
  | heartbeat id bytes written => trivial
  | @idle i o ho r =>
    cases i with
    | rx id =>
      cases o with
      | clearTaskHandle kind => cases kind <;> trivial
      | mark m | streamSend bytes | uartWriteBytes bytes => cases ho
      | _ => trivial
    | _ => trivial

theorem Course.received (h : Course trace l) : Received l trace ∧ Justified ReceiptOrder trace := by
  induction h with
  | nil => exact ⟨received_nil, trivial⟩
  | cons hcourse hstep ih =>
    exact ⟨hstep.received ih.1 hcourse.flow hcourse.sound,
      hstep.receiptOrder ih.1 hcourse.sound, ih.2⟩

end Received
end Link
end Bridge

/-- A receiving task takes up a frame when it has stored and acknowledged all before; it stores a
frame whole, for the client for which it let the frame in, and acknowledges it once, afterwards; and
if a frame is not stored or not acknowledged, it takes up no other, and leaves by itself only after
it has signalled the link loss. One that `stop_io_tasks` deletes neither acknowledges nor signals.
-/
theorem frames_stored_in_order {secret : Vector UInt8 bridgePairingSecretBytes}
    {c : System.Config (bridge secret)} (hc : System.Reachable c) :
    Justified Bridge.ReceiptOrder c.world.trace ∧
      (∀ id, (Bridge.receipts id c.world.trace).Kept) ∧
      c.world.state.rpcRx.length ≤ bridgeRpcRxBufferBytes := by
  obtain ⟨s, hs, hworld⟩ := (Bridge.choreography secret).exists_allowed hc
  rw [← hworld]
  obtain ⟨l, hcourse, hdepicts⟩ := Bridge.exists_course hs
  have hbounded : l.rpcRx.length ≤ bridgeRpcRxBufferBytes := hcourse.sound.bounded
  rw [← hdepicts.shared] at hbounded
  exact ⟨hcourse.received.2, hcourse.received.1.kept, hbounded⟩

/-- One frame was stored and acknowledged. -/
theorem frames_stored_in_order_returned : ∃ c : Bridge.Sample,
    Bridge.receipts 0 c.world.trace =
      { decoded := [[7, 8]], stored := [[7, 8]], acks := 1, acked := 1 } ∧
      Justified Bridge.ReceiptOrder c.world.trace ∧
      (∀ id, (Bridge.receipts id c.world.trace).Kept) ∧
      c.world.state.rpcRx.length ≤ bridgeRpcRxBufferBytes := by
  obtain ⟨c, hc, htest⟩ := Bridge.exists_run Bridge.Script.returns
    (fun c : Bridge.Sample => Bridge.receipts 0 c.world.trace ==
      { decoded := [[7, 8]], stored := [[7, 8]], acks := 1, acked := 1 }) (by decide +kernel)
  exact ⟨c, beq_iff_eq.mp htest, frames_stored_in_order hc⟩

end FlipforgeBridge
