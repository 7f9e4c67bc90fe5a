import FlipforgeBridge.Bridge.ClientSlot

/-!
Requests that open an RPC session. One that is not answered Ok has changed nothing, or what it
opened was stopped, or the link loss was signalled; and when the slot is given back, no session is
left behind that the loss of the link will not end.
-/
namespace FlipforgeBridge
open Process

namespace Bridge

/-! ### Requests that open a session -/

/-- What a request that has brought about a transition comes to: the session is open, or was
stopped, or the link loss was signalled. -/
def SessionPhase.Owes (state : ExpansionState) (h : Handling) : SessionPhase → Prop
  | .managing => h.lost = true
  | .opened _ => state = .rpcReady ∨ h.lost = true
  | .stopped => h.stopped = true
  | .finished => h.stopped = true ∨ h.lost = true
  | .begun _ | .ending _ | .released => True

theorem SessionPhase.Owes.of_state {session : SessionPhase} {state state' : ExpansionState}
    {h : Handling}
    (howes : session.Owes state h)
    (hstate : state = .rpcReady → state' = .rpcReady ∨ h.lost = true) :
    session.Owes state' h := by
  cases session with
  | opened answer => exact howes.elim hstate .inr
  | _ => exact howes

/-- Operations that tell nothing of requests and losses. -/
def uneventful : Op → Bool
  | .mark (.handle _ _) | .locked (.apply _) | .setLost _ | .clearLostReady => false
  | _ => true

theorem uneventful_of_idle {o : Op} (h : idle o = true) : uneventful o = true := by
  cases o with
  | locked s => cases s <;> first | rfl | cases h
  | mark m => cases h
  | setLost reason | clearLostReady => cases h
  | _ => rfl

section Uneventful
variable {i : Tid} {o : Op} {r : o.Res} {past : List Entry}

theorem lossSignalled_uneventful (h : uneventful o = true) :
    lossSignalled (⟨i, o, r⟩ :: past) = lossSignalled past := by
  cases o <;> first | rfl | cases h

theorem handling_uneventful (h : uneventful o = true) (n : ℕ) :
    handling n (⟨i, o, r⟩ :: past) = handling n past := by
  cases o with
  | locked s => cases s <;> first | rfl | cases h
  | mark m => cases m <;> first | rfl | cases h
  | setLost reason => cases h
  | _ => rfl

theorem handling_apply_of_ne {event : ExpansionEvent} {result : Bool × ExpansionAction} {n : ℕ}
    (h : i ≠ .client n) :
    handling n (⟨i, .locked (.apply event), result⟩ :: past) = handling n past :=
  if_neg fun hi => h hi.1

theorem handling_apply_self {event : ExpansionEvent} {ok : Bool} {action : ExpansionAction}
    {n : ℕ} :
    handling n (⟨.client n, .locked (.apply event), (ok, action)⟩ :: past) =
      if ok = true then
        { handling n past with
          moved := true
          stopped := (handling n past).stopped || event = .rpcStopped }
      else handling n past := by
  simp [handling]

end Uneventful

/-- How the handling of a request may end. -/
def HandlingEnds : Entry → List Entry → Prop
  | ⟨.client n, .mark (.handled _ _ _ _ beginProxy), _⟩, past =>
    if beginProxy then ∃ a, answer (.client n) past = some a ∧ a.Begins []
    else (handling n past).moved = true →
      (handling n past).stopped = true ∨ (handling n past).lost = true
  | _, _ => True

namespace Link

/-- The connection that holds the slot, with its session. -/
def serving (l : Link) : Option (ℕ × SessionPhase) :=
  l.client.map fun client => (client.1, client.2.session)

structure Owing (l : Link) (trace : List Entry) : Prop where
  signalled : lossSignalled trace = l.lost
  lost : ∀ n, l.lost = true → (handling n trace).lost = true
  session : ∀ n session, l.serving = some (n, session) → (handling n trace).moved = true →
    session.Owes l.machine.state (handling n trace)
  unserved : ∀ n, served n trace = false → (handling n trace).moved = false

theorem owing_nil : Owing {} [] where
  signalled := rfl
  lost := by simp
  session := by simp [serving]
  unserved _ _ := rfl

section Owing
variable {l l' : Link} {trace : List Entry} {e : Entry}

theorem Owing.frame {i : Tid} {o : Op} {r : o.Res} (h : Owing l trace) (ho : uneventful o = true)
    (hlost : l'.lost = l.lost) (hmachine : l'.machine = l.machine)
    (hserving : ∀ n session, l'.serving = some (n, session) → l.serving = some (n, session)) :
    Owing l' (⟨i, o, r⟩ :: trace) where
  signalled := by rw [lossSignalled_uneventful ho, hlost]; exact h.signalled
  lost := by
    intro n
    rw [handling_uneventful ho, hlost]
    exact h.lost n
  session := by
    intro n session hsession
    rw [handling_uneventful ho, hmachine]
    exact h.session n session (hserving n session hsession)
  unserved := by
    intro n hn
    rw [handling_uneventful ho]
    exact h.unserved n (served_cons n hn)

/-- The machine moves without the client. -/
theorem Owing.apply_other {i : Tid} {event : ExpansionEvent} {result : Bool × ExpansionAction}
    (h : Owing l trace) (hi : ∀ n, i ≠ .client n) (hlost : l'.lost = l.lost)
    (hserving : l'.serving = l.serving)
    (hmachine : l.machine.state = .rpcReady → l.lost = true) :
    Owing l' (⟨i, .locked (.apply event), result⟩ :: trace) where
  signalled := hlost ▸ h.signalled
  lost := by
    intro n
    rw [handling_apply_of_ne (hi n), hlost]
    exact h.lost n
  session := by
    intro n session
    rw [handling_apply_of_ne (hi n), hserving]
    intro hsession hmoved
    exact (h.session n session hsession hmoved).of_state fun hstate =>
      .inr (h.lost n (hmachine hstate))
  unserved := by
    intro n hn
    rw [handling_apply_of_ne (hi n)]
    exact h.unserved n hn

/-- The link loss is signalled. -/
theorem Owing.lose {i : Tid} {reason : LossReason} (h : Owing l trace) (hlost : l'.lost = true)
    (hserving : ∀ n session, l'.serving = some (n, session) → session = .managing ∨
      session = .finished ∨ l.serving = some (n, session)) :
    Owing l' (⟨i, .setLost reason, ()⟩ :: trace) where
  signalled := hlost.symm
  lost _ _ := rfl
  session := by
    intro n session hsession hmoved
    obtain rfl | rfl | hsession := hserving n session hsession
    · rfl
    · exact .inr rfl
    · have howes := h.session n session hsession hmoved
      cases session with
      | opened answer => exact .inr rfl
      | managing => rfl
      | finished => exact .inr rfl
      | _ => exact howes
  unserved := h.unserved

theorem SupervisorStep.owing (h : Owing l trace) (hsound : l.Sound)
    (hstep : SupervisorStep l e l') : Owing l' (e :: trace) := by
  cases hstep with
  | attempt hsup =>
    exact ⟨rfl, by simp, h.session, h.unserved⟩
  | restart hsup =>
    have hoffline : Bridge.offline l.machine.state = true := hsound.offline (by rw [hsup]; rfl)
    refine ⟨h.signalled, h.lost, fun n session hsession hmoved => ?_, h.unserved⟩
    refine (h.session n session hsession hmoved).of_state fun hstate => ?_
    rw [hstate] at hoffline
    cases hoffline
  | advance hsup event hevent happly =>
    refine h.apply_other (by simp) rfl rfl fun hstate => ?_
    have hoffline : Bridge.offline l.machine.state = true := hsound.offline (by rw [hsup]; rfl)
    rw [hstate] at hoffline
    cases hoffline
  | accept hsup happly =>
    refine h.apply_other (by simp) rfl rfl fun hstate => ?_
    have hoffline : Bridge.offline l.machine.state = true := hsound.offline (by rw [hsup]; rfl)
    rw [hstate] at hoffline
    cases hoffline
  | fall hsup happly =>
    refine h.apply_other (by simp) rfl rfl fun hstate => ?_
    obtain ⟨hoffline, hearly⟩ := hsound.watched (.inl hstate)
    obtain ⟨request, hsup⟩ | hsup | ⟨baud, hsup⟩ := hsup
    · rw [hsup] at hoffline
      cases hoffline
    · rw [hsup] at hearly
      cases hearly
    · exact hsound.lost (by rw [hsup]; rfl)
  | lose hsup reason => exact h.lose rfl fun n session hsession => .inr (.inr hsession)
  | tidy hsup o r ho =>
    obtain rfl | rfl | ⟨handle, rfl⟩ := ho
    all_goals exact h.frame rfl rfl rfl fun _ _ => id
  | _ => exact h.frame rfl rfl rfl fun _ _ => id

theorem RxStep.owing {id : ℕ} (h : Owing l trace) (hstep : RxStep l id e l') :
    Owing l' (e :: trace) := by
  cases hstep with
  | lose hrx reason => exact h.lose rfl fun n session hsession => .inr (.inr hsession)
  | _ => exact h.frame rfl rfl rfl fun _ _ h => h

theorem WriterStep.owing {socket : ℕ} (h : Owing l trace) (hstep : WriterStep l socket e l') :
    Owing l' (e :: trace) := by
  cases hstep <;> exact h.frame rfl rfl rfl fun _ _ h => h

theorem serving_of_client {n : ℕ} {ph : ClientPhase} (h : l.client = some (n, ph)) :
    l.serving = some (n, ph.session) := by
  rw [serving, h]
  rfl

/-- The client moves on with its session. -/
theorem Owing.moves {n : ℕ} {ph : ClientPhase} {i : Tid} {o : Op} {r : o.Res}
    {session : SessionPhase}
    (h : Owing l trace) (hclient : l.client = some (n, ph)) (ho : uneventful o = true)
    (hlost : l'.lost = l.lost) (hmachine : l'.machine = l.machine)
    (hserving : l'.serving = some (n, session))
    (howes : ∀ handling, ph.session.Owes l.machine.state handling →
      session.Owes l.machine.state handling) : Owing l' (⟨i, o, r⟩ :: trace) where
  signalled := by rw [lossSignalled_uneventful ho, hlost]; exact h.signalled
  lost := by
    intro m
    rw [handling_uneventful ho, hlost]
    exact h.lost m
  session := by
    intro m session' hsession hmoved
    rw [handling_uneventful ho] at hmoved ⊢
    rw [hserving] at hsession
    cases hsession
    rw [hmachine]
    exact howes _ (h.session n _ (serving_of_client hclient) hmoved)
  unserved := by
    intro m hm
    rw [handling_uneventful ho]
    exact h.unserved m (served_cons m hm)

theorem Owing.apply {n : ℕ} {ph : ClientPhase} {event : ExpansionEvent} {ok : Bool}
    {action : ExpansionAction} {machine : ExpansionStateMachine} {session : SessionPhase}
    (h : Owing l trace) (hclient : l.client = some (n, ph)) (hserved : served n trace = true)
    (hverdict : Verdict l.machine machine event ok ph.session session) :
    Owing { l.withSession n ph session with machine := machine }
      (⟨.client n, .locked (.apply event), (ok, action)⟩ :: trace) where
  signalled := h.signalled
  lost := by
    intro m hlost
    by_cases hm : m = n
    · rw [hm, handling_apply_self]
      split <;> exact h.lost n hlost
    · rw [handling_apply_of_ne (by simpa using Ne.symm hm)]
      exact h.lost m hlost
  session := by
    rintro m _ ⟨⟩
    rw [handling_apply_self]
    have hold := h.session n _ (serving_of_client hclient)
    generalize ph.session = before at hverdict hold
    cases hverdict with
    | begun hready hstart => exact fun _ => trivial
    | started hstart hready => exact fun _ => .inl hready
    | ended hsession hready hstop => exact fun _ => trivial
    | stopped hstop hready => exact fun _ => by simp [SessionPhase.Owes]
    | notBegun hmachine => exact hold
    | notStarted hmachine => exact fun _ => trivial
    | notEnded hsession hmachine hstate =>
      intro hmoved
      obtain ⟨answer, rfl⟩ | rfl := hsession
      · exact .inr ((hold hmoved).resolve_left hstate)
      · exact hold hmoved
    | notStopped hmachine => exact fun _ => trivial
  unserved := by
    intro m hm
    have hmn : m ≠ n := by
      rintro rfl
      exact absurd (hserved.symm.trans hm) (by simp)
    rw [handling_apply_of_ne (by simpa using hmn.symm)]
    exact h.unserved m hm

theorem Owing.mark {n : ℕ} {m : Mark} (h : Owing l trace) :
    Owing l (⟨.client n, .mark m, ()⟩ :: trace) := by
  cases m with
  | handle session request =>
    have hself : handling n (⟨.client n, .mark (.handle session request), ()⟩ :: trace) =
        { lost := lossSignalled trace } := if_pos rfl
    have hother : ∀ k, k ≠ n →
        handling k (⟨.client n, .mark (.handle session request), ()⟩ :: trace) =
        handling k trace := fun k hk => if_neg (by simpa using Ne.symm hk)
    refine ⟨h.signalled, fun k hlost => ?_, fun k session' hsession => ?_, fun k hunserved => ?_⟩
    · by_cases hk : k = n
      · rw [hk, hself, h.signalled]
        exact hlost
      · rw [hother k hk]
        exact h.lost k hlost
    · by_cases hk : k = n
      · rw [hk, hself]
        simp
      · rw [hother k hk]
        exact h.session k session' hsession
    · by_cases hk : k = n
      · rw [hk, hself]
      · rw [hother k hk]
        exact h.unserved k hunserved
  | _ => exact h.frame rfl rfl rfl fun _ _ => id

theorem ClientStep.owing {n : ℕ} {ph : ClientPhase} (h : Owing l trace)
    (hclient : l.client = some (n, ph)) (hserved : served n trace = true)
    (hstep : ClientStep l n ph e l') : Owing l' (e :: trace) := by
  cases hstep with
  | apply happly hsession hproxy => exact h.apply hclient hserved (verdict happly hsession)
  | look =>
    refine h.moves hclient rfl rfl rfl rfl fun handling howes => ?_
    unfold SessionPhase.look
    split
    · next answer hphase =>
      rw [hphase] at howes
      split
      · exact howes
      · next hstate => exact .inr (howes.resolve_left hstate)
    · exact howes
  | arm =>
    refine h.moves hclient rfl rfl rfl rfl fun handling howes => ?_
    unfold SessionPhase.arm
    split
    · trivial
    · trivial
    · exact howes
  | disarm =>
    refine h.moves hclient rfl rfl rfl rfl fun handling howes => ?_
    unfold SessionPhase.disarm
    split
    · trivial
    · trivial
    · exact howes
  | signal reason =>
    apply h.lose rfl
    rintro m _ ⟨⟩
    unfold SessionPhase.signal
    split
    · exact .inl rfl
    · exact .inr (.inl rfl)
    · exact .inr (.inr (serving_of_client hclient))
  | reset hstopped =>
    refine h.moves hclient rfl rfl rfl rfl fun handling howes => ?_
    rw [hstopped] at howes
    exact .inl howes
  | respond hproxy hrespond =>
    refine h.moves hclient rfl rfl rfl rfl fun handling howes => ?_
    unfold SessionPhase.respond at hrespond
    split at hrespond
    · next hphase =>
      obtain rfl := Option.some_inj.mp hrespond
      rwa [hphase] at howes
    · next hphase =>
      obtain ⟨-, hmap⟩ := Option.ite_none_right_eq_some.mp hrespond
      obtain ⟨encoded, -, rfl⟩ := Option.map_eq_some_iff.mp hmap
      rwa [hphase] at howes
    · cases hrespond
  | mark hadmits hm => exact h.mark
  | send hproxy hsent hsend =>
    refine h.moves hclient rfl rfl rfl rfl fun handling howes => ?_
    unfold SessionPhase.send at hsend
    split at hsend
    · next hphase =>
      obtain rfl := Option.some_inj.mp hsend
      rwa [hphase] at howes
    · next hphase =>
      obtain ⟨-, ⟨⟩⟩ := Option.ite_none_right_eq_some.mp hsend
      rwa [hphase] at howes
    · cases hsend
  | write bytes written => exact h.frame rfl rfl rfl fun _ _ => id
  | «open» hopened hproxy created =>
    cases created with
    | false => exact h.frame rfl rfl rfl fun _ _ => id
    | true => exact h.moves hclient rfl rfl rfl rfl fun _ => id
  | start hopened hproxy created =>
    cases created with
    | false => exact h.frame rfl rfl rfl fun _ _ => id
    | true => exact h.moves hclient rfl rfl rfl rfl fun _ => id
  | drain hproxy hwriter => exact h.moves hclient rfl rfl rfl rfl fun _ => id
  | release hover hproxy => exact h.frame rfl rfl rfl (by simp [serving])

theorem ServerStep.owing (h : Owing l trace) (hbooks : SlotBooks l trace)
    (hstep : ServerStep l e l') : Owing l' (e :: trace) := by
  cases hstep with
  | @create n hserver hclient =>
    obtain ⟨-, -, hserved⟩ := hbooks.accepted n (by rw [hserver]; rfl)
    refine ⟨h.signalled, h.lost, ?_, fun m hm => h.unserved m (served_cons m hm)⟩
    rintro m _ ⟨⟩ hmoved
    exact absurd ((h.unserved n hserved).symm.trans hmoved) (by simp)
  | _ => exact h.frame rfl rfl rfl fun _ _ h => h

theorem Step.owing (h : Owing l trace) (hsound : l.Sound) (hbooks : SlotBooks l trace)
    (hstep : l.Step e l') : Owing l' (e :: trace) := by
  cases hstep with
  | supervisor hstep => exact hstep.owing h hsound
  | rx hstep => exact hstep.owing h
  | writer hstep => exact hstep.owing h
  | client hclient hstep =>
    have hserved := (hbooks.client _ (by rw [hclient]; rfl)).2.1
    exact hstep.owing h hclient hserved
  | server hstep => exact hstep.owing h hbooks
  | heartbeatLost id reason => exact h.lose rfl fun n session hsession => .inr (.inr hsession)
  | heartbeat id bytes written => exact h.frame rfl rfl rfl fun _ _ h => h
  | idle ho r => exact h.frame (uneventful_of_idle ho) rfl rfl fun _ _ h => h

end Owing
end Link

/-! ### Answers -/

/-- Operations that neither begin an answer nor send. -/
def silent : Op → Bool
  | .mark (.handle _ _) | .mark (.respond _ _ _) | .send _ _ => false
  | _ => true

theorem answer_silent {i j : Tid} {o : Op} {r : o.Res} {past : List Entry} (h : silent o = true) :
    answer j (⟨i, o, r⟩ :: past) = answer j past := by
  apply account_idle
  intro a
  cases o with
  | mark m => cases m <;> first | rfl | cases h
  | send socket bytes => cases h
  | _ => rfl

/-- A session was opened, and the Ok sent. -/
def SessionPhase.told : SessionPhase → Bool
  | .opened (some []) | .ending _ | .stopped | .finished | .released => true
  | _ => false

namespace Link

/-- What a client may have sent: as long as its session is open and not yet raw, all of the Ok
but what is left, and in raw mode all of it. -/
structure Answered (l : Link) (trace : List Entry) : Prop where
  opened : ∀ n ph rest, l.client = some (n, ph) → ph.session = .opened (some rest) →
    ∃ a, answer (.client n) trace = some a ∧ a.Begins rest
  raw : ∀ n ph, l.client = some (n, ph) → ph.proxy ≠ .none → ph.session.told = true ∧
    ∃ a, answer (.client n) trace = some a ∧ a.Begins []

theorem answered_nil : Answered {} [] where
  opened := by simp
  raw := by simp

section Answered
variable {l l' : Link} {trace : List Entry} {e : Entry}

/-- Nothing is said, or not by the client. -/
theorem Answered.frame (h : Answered l trace) (hclient : l'.client = l.client)
    (hanswer : ∀ n ph, l.client = some (n, ph) →
      answer (.client n) (e :: trace) = answer (.client n) trace) : Answered l' (e :: trace) where
  opened := by
    intro n ph rest hph hopened
    rw [hclient] at hph
    rw [hanswer n ph hph]
    exact h.opened n ph rest hph hopened
  raw := by
    intro n ph hph hproxy
    rw [hclient] at hph
    rw [hanswer n ph hph]
    exact h.raw n ph hph hproxy

/-- The client moves on in silence. -/
theorem Answered.moves {n : ℕ} {ph ph' : ClientPhase} {i : Tid} {o : Op} {r : o.Res}
    (h : Answered l trace) (hclient : l.client = some (n, ph)) (ho : silent o = true)
    (hclient' : l'.client = some (n, ph'))
    (hsession : ∀ rest, ph'.session = .opened (some rest) → ph.session = .opened (some rest))
    (htold : ph.session.told = true → ph'.session.told = true)
    (hproxy : ph'.proxy ≠ .none → ph.proxy ≠ .none ∨ ph.session = .opened (some [])) :
    Answered l' (⟨i, o, r⟩ :: trace) where
  opened := by
    intro m ph'' rest hph hopened
    rw [hclient'] at hph
    cases hph
    rw [answer_silent ho]
    exact h.opened n ph rest hclient (hsession rest hopened)
  raw := by
    intro m ph'' hph hraw
    rw [hclient'] at hph
    cases hph
    rw [answer_silent ho]
    obtain hproxy | hopened := hproxy hraw
    · exact (h.raw n ph hclient hproxy).imp_left htold
    · exact ⟨htold (by rw [hopened]; rfl), h.opened n ph [] hclient hopened⟩

theorem Answered.respond {n : ℕ} {ph : ClientPhase} {request : BridgeMessage}
    {status : BridgeStatus} {payload : List UInt8} {session : SessionPhase}
    (hproxy : ph.proxy = .none)
    (hrespond : ph.session.respond request status payload = some session) :
    Answered (l.withSession n ph session)
      (⟨.client n, .mark (.respond request status payload), ()⟩ :: trace) where
  opened := by
    rintro m _ rest ⟨⟩ rfl
    refine ⟨{ request := request, status := status, payload := payload }, account_self, ?_⟩
    unfold SessionPhase.respond at hrespond
    split at hrespond
    · cases hrespond
    · obtain ⟨⟨hcommand, hstatus⟩, hmap⟩ := Option.ite_none_right_eq_some.mp hrespond
      obtain ⟨encoded, hencoded, ⟨⟩⟩ := Option.map_eq_some_iff.mp hmap
      exact ⟨hcommand, hstatus, hencoded⟩
    · cases hrespond
  raw := by
    rintro m _ ⟨⟩ hraw
    exact absurd hproxy hraw

theorem Answered.send {n : ℕ} {ph : ClientPhase} {bytes : List UInt8} {result : SendResult}
    {session : SessionPhase} (h : Answered l trace) (hclient : l.client = some (n, ph))
    (hproxy : ph.proxy = .none) (hsend : ph.session.send bytes result.sent = some session) :
    Answered (l.withSession n ph session) (⟨.client n, .send n bytes, result⟩ :: trace) where
  opened := by
    rintro m _ rest ⟨⟩ rfl
    unfold SessionPhase.send at hsend
    split at hsend
    · cases hsend
    · next before _ _ _ _ hphase =>
      obtain ⟨rfl, ⟨⟩⟩ := Option.ite_none_right_eq_some.mp hsend
      obtain ⟨a, ha, hcommand, hstatus, hencoded⟩ := h.opened n ph before hclient hphase
      have hafter : answer (.client n) (⟨.client n, .send n before, result⟩ :: trace) =
          some { a with sent := a.sent ++ before.take result.sent.toNat } := by
        rw [answer, account_self, ← answer, ha]
        rfl
      refine ⟨_, hafter, hcommand, hstatus, ?_⟩
      rw [List.append_assoc, List.take_append_drop]
      exact hencoded
    · cases hsend
  raw := by
    rintro m _ ⟨⟩ hraw
    exact absurd hproxy hraw

theorem ClientStep.answered {n : ℕ} {ph : ClientPhase} (h : Answered l trace)
    (hclient : l.client = some (n, ph)) (hstep : ClientStep l n ph e l') :
    Answered l' (e :: trace) := by
  cases hstep with
  | apply happly hsession hproxy =>
    have hverdict := verdict happly hsession
    refine h.moves hclient rfl rfl ?_ ?_ .inl
    all_goals
      dsimp only
      generalize ph.session = before at hverdict
      cases hverdict <;> simp [SessionPhase.told]
  | look =>
    refine h.moves hclient rfl rfl ?_ ?_ .inl
    all_goals
      dsimp only
      unfold SessionPhase.look
      repeat' split
    all_goals simp_all [SessionPhase.told]
  | arm =>
    refine h.moves hclient rfl rfl ?_ ?_ .inl
    all_goals cases ph.session <;> simp [SessionPhase.arm, SessionPhase.told]
  | disarm =>
    refine h.moves hclient rfl rfl ?_ ?_ .inl
    all_goals
      dsimp only
      unfold SessionPhase.disarm
      split <;> simp_all [SessionPhase.told]
  | signal reason =>
    refine h.moves hclient rfl rfl ?_ ?_ .inl
    all_goals cases ph.session <;> simp [SessionPhase.signal, SessionPhase.told]
  | reset hstopped => exact h.moves hclient rfl rfl (by simp) (fun _ => rfl) .inl
  | respond hproxy hrespond => exact .respond hproxy hrespond
  | @mark m hadmits hm =>
    cases m with
    | handle session request =>
      have hmanaging : ph.session = .managing := of_decide_eq_true hadmits
      refine ⟨?_, ?_⟩
      · intro k ph' rest hph hopened
        rw [hclient] at hph
        cases hph
        exact absurd (hmanaging.symm.trans hopened) (by simp)
      · intro k ph' hph hproxy
        have htold := (h.raw k ph' hph hproxy).1
        rw [hclient] at hph
        cases hph
        rw [hmanaging] at htold
        cases htold
    | respond request status payload => exact absurd rfl (hm request status payload)
    | _ => exact h.frame rfl fun _ _ _ => answer_silent rfl
  | send hproxy hsent hsend => exact h.send hclient hproxy hsend
  | write bytes written => exact h.frame rfl fun _ _ _ => answer_silent rfl
  | «open» hopened hproxy created =>
    cases created with
    | false => exact h.frame rfl fun _ _ _ => answer_silent rfl
    | true => exact h.moves hclient rfl rfl (fun _ => id) id fun _ => .inr hopened
  | start hopened hproxy created =>
    cases created with
    | false => exact h.frame rfl fun _ _ _ => answer_silent rfl
    | true => exact h.moves hclient rfl rfl (fun _ => id) id fun _ => .inr hopened
  | drain hproxy hwriter =>
    exact h.moves hclient rfl rfl (fun _ => id) id fun _ => .inl (by simp [hproxy])
  | release hover hproxy => exact ⟨by simp, by simp⟩

theorem Answered.idle {i : Tid} {o : Op} {r : o.Res} (h : Answered l trace) (ho : silent o = true)
    (hclient : l'.client = l.client) : Answered l' (⟨i, o, r⟩ :: trace) :=
  h.frame hclient fun _ _ _ => answer_silent ho

theorem silent_of_idle {o : Op} (h : Bridge.idle o = true) : silent o = true := by
  cases o with
  | mark m => cases h
  | send socket bytes => cases h
  | _ => rfl

theorem SupervisorStep.answered (h : Answered l trace) (hstep : SupervisorStep l e l') :
    Answered l' (e :: trace) := by
  cases hstep with
  | tidy hsup o r ho =>
    obtain rfl | rfl | ⟨handle, rfl⟩ := ho
    all_goals exact h.idle rfl rfl
  | _ => exact h.idle rfl rfl

theorem RxStep.answered {id : ℕ} (h : Answered l trace) (hstep : RxStep l id e l') :
    Answered l' (e :: trace) := by
  cases hstep <;> exact h.idle rfl rfl

theorem WriterStep.answered {socket : ℕ} (h : Answered l trace) (hstep : WriterStep l socket e l') :
    Answered l' (e :: trace) := by
  cases hstep with
  | send hwriter hsent => exact h.frame rfl fun n ph hclient => account_of_ne (by simp)
  | _ => exact h.idle rfl rfl

theorem ServerStep.answered (h : Answered l trace) (hstep : ServerStep l e l') :
    Answered l' (e :: trace) := by
  cases hstep with
  | create hserver hclient =>
    refine ⟨?_, ?_⟩
    · rintro n _ rest ⟨⟩ ⟨⟩
    · rintro n _ ⟨⟩ hproxy
      exact absurd rfl hproxy
  | send hserver bytes result =>
    exact h.frame rfl fun n ph hclient => account_of_ne (by simp)
  | mark hserver request status payload =>
    exact h.frame rfl fun n ph hclient => account_of_ne (by simp)
  | _ => exact h.idle rfl rfl

theorem Step.answered (h : Answered l trace) (hstep : l.Step e l') : Answered l' (e :: trace) := by
  cases hstep with
  | supervisor hstep => exact hstep.answered h
  | rx hstep => exact hstep.answered h
  | writer hstep => exact hstep.answered h
  | client hclient hstep => exact hstep.answered h hclient
  | server hstep => exact hstep.answered h
  | heartbeatLost id reason => exact h.idle rfl rfl
  | heartbeat id bytes written => exact h.idle rfl rfl
  | idle ho r => exact h.idle (silent_of_idle ho) rfl

end Answered

/-! ### Together -/

section Ends
variable {l l' : Link} {trace : List Entry} {e : Entry}

theorem Step.handlingEnds (howing : Owing l trace) (hanswered : Answered l trace)
    (hstep : l.Step e l') : HandlingEnds e trace := by
  cases hstep with
  | @client n ph e l' hclient hstep =>
    cases hstep with
    | @mark m hadmits hm =>
      cases m with
      | handled session request after error beginProxy =>
        cases beginProxy with
        | true =>
          have hopened : ph.session = .opened (some []) := of_decide_eq_true hadmits
          exact hanswered.opened n ph [] hclient hopened
        | false =>
          intro hmoved
          have howes := howing.session n _ (serving_of_client hclient) hmoved
          have hover : ph.session = .managing ∨ ph.session = .finished := by
            simpa [SessionPhase.admits] using hadmits
          obtain hsession | hsession := hover
          · rw [hsession] at howes
            exact .inr howes
          · rw [hsession] at howes
            exact howes
      | _ => trivial
    | _ => trivial
  | supervisor hstep => cases hstep <;> trivial
  | rx hstep => cases hstep <;> trivial
  | writer hstep => cases hstep <;> trivial
  | server hstep => cases hstep <;> trivial
  | heartbeatLost id reason => trivial
  | heartbeat id bytes written => trivial
  | @idle i o ho r => cases i <;> cases o <;> trivial

end Ends
end Link

theorem handling_of_course {l : Link} {trace : List Entry} (h : Link.Course trace l) :
    Link.Owing l trace ∧ Link.Answered l trace ∧ Justified HandlingEnds trace := by
  induction h with
  | nil => exact ⟨Link.owing_nil, Link.answered_nil, trivial⟩
  | @cons trace l l' e hcourse hstep ih =>
    obtain ⟨howing, hanswered, hends⟩ := ih
    have hbooks := hcourse.slotBooks.1
    exact ⟨hstep.owing howing hcourse.sound hbooks, hstep.answered hanswered,
      hstep.handlingEnds howing hanswered, hends⟩

namespace Link

/-- Whoever gives the slot back, no session is left behind that the loss of the link will not
end. -/
theorem Step.released {l l' : Link} {i : Tid} (hsound : l.Sound)
    (hstep : l.Step ⟨i, .releaseClient, ()⟩ l') :
    l'.lost = true ∨ l'.machine.state ≠ .startingRpc ∧ l'.machine.state ≠ .rpcReady ∧
      l'.machine.state ≠ .stoppingRpc := by
  have hover : ∀ (hsession : ∀ session, l.session = some session → session = .managing ∨
      session = .finished), l.lost = true ∨ l.machine.state ≠ .startingRpc ∧
        l.machine.state ≠ .rpcReady ∧ l.machine.state ≠ .stoppingRpc := by
    intro hsession
    by_cases hlost : l.lost = true
    · exact .inl hlost
    refine .inr ⟨fun hstate => ?_, fun hstate => ?_, fun hstate => ?_⟩
    · obtain ⟨exchange, hbegun⟩ := (hsound.starting hstate).resolve_right hlost
      simpa using hsession _ hbegun
    · obtain ⟨answer, hopened⟩ := hsound.ready hstate
      simpa using hsession _ hopened
    · obtain ⟨exchange, hending⟩ := (hsound.stopping hstate).1.resolve_right hlost
      simpa using hsession _ hending
  cases hstep with
  | @client n ph _ _ hclient hstep =>
    cases hstep with | release hsession hproxy =>
    apply hover
    intro session hsome
    rw [session_of_client hclient, Option.some_inj] at hsome
    rwa [← hsome]
  | server hstep =>
    cases hstep with | release hserver hclient =>
    apply hover
    intro session hsome
    rw [Link.session, hclient] at hsome
    cases hsome
  | supervisor hstep =>
    cases hstep with | tidy hsup o r ho => simp at ho
  | rx hstep => cases hstep
  | writer hstep => cases hstep
  | idle ho r => cases ho

end Link

end Bridge

/-- No session is left behind: when the slot is given back, the machine is in no RPC state unless
the link loss is signalled; and a request for raw mode that was not answered Ok has changed
nothing, or the session it opened was stopped, or the link loss was signalled. -/
theorem no_session_left {secret : Vector UInt8 bridgePairingSecretBytes}
    {c : System.Config (bridge secret)} (hc : System.Reachable c) :
    Justified Bridge.HandlingEnds c.world.trace ∧
      ∀ i past, c.world.trace = ⟨i, .releaseClient, ()⟩ :: past →
        c.world.state.bits.lost = true ∨ c.world.state.guarded.machine.state ≠ .startingRpc ∧
          c.world.state.guarded.machine.state ≠ .rpcReady ∧
          c.world.state.guarded.machine.state ≠ .stoppingRpc := by
  obtain ⟨s, hs, hworld⟩ := (Bridge.choreography secret).exists_allowed hc
  rw [← hworld]
  obtain ⟨l, hcourse, hdepicts⟩ := Bridge.exists_course hs
  refine ⟨(Bridge.handling_of_course hcourse).2.2, fun i past htrace => ?_⟩
  rw [htrace] at hcourse
  have hshared := hdepicts.shared
  cases hcourse with | cons hbefore hstep =>
  have hreleased := hstep.released hbefore.sound
  rw [← hshared] at hreleased
  exact hreleased

/-- After a session that was stopped. -/
theorem no_session_left_released : ∃ c : Bridge.Sample,
    (Bridge.handling 0 c.world.trace).stopped = true ∧
      Justified Bridge.HandlingEnds c.world.trace ∧
      ∀ i past, c.world.trace = ⟨i, .releaseClient, ()⟩ :: past →
        c.world.state.bits.lost = true ∨ c.world.state.guarded.machine.state ≠ .startingRpc ∧
          c.world.state.guarded.machine.state ≠ .rpcReady ∧
          c.world.state.guarded.machine.state ≠ .stoppingRpc := by
  obtain ⟨c, hc, htest⟩ := Bridge.exists_run Bridge.Script.releases
    (fun c : Bridge.Sample => (Bridge.handling 0 c.world.trace).stopped) (by decide +kernel)
  exact ⟨c, htest, no_session_left hc⟩

end FlipforgeBridge
