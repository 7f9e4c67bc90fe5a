import FlipforgeBridge.Bridge.Requests

/-!
The bytes on their way from the Flipper to a client. While its session is open, what the proxy
writer has taken and what waits in `rpc_rx` make up what was stored for the client, and nothing
stored for an earlier one is ever among it.
-/
namespace FlipforgeBridge
open Process

namespace Bridge

/-- No writer was created. -/
def ProxyPhase.unstarted : ProxyPhase → Bool
  | .none | .created => true
  | _ => false

/-- Operations that neither store, take nor send bytes, nor open a session. -/
def dry : Op → Bool
  | .locked (.apply event) => event ≠ .rpcStarted
  | .streamSend _ | .streamReceive _ | .send _ _ => false
  | _ => true

theorem dry_of_idle {o : Op} (h : idle o = true) : dry o = true := by
  cases o with
  | locked s => cases s <;> first | rfl | cases h
  | streamSend bytes | streamReceive capacity | send socket bytes => cases h
  | _ => rfl

/-- An entry that moves no bytes to a client. -/
structure Dry (e : Entry) (past : List Entry) : Prop where
  owner : owner (e :: past) = owner past
  deposit : depositBy e = []
  taken : ∀ n, taken n (e :: past) = taken n past
  rawSent : ∀ n, rawSent n (e :: past) = rawSent n past
  sends : ∀ n, sends (.writer n) (e :: past) = sends (.writer n) past

section Dry
variable {i : Tid} {o : Op} {r : o.Res} {past : List Entry}

theorem owner_dry (h : dry o = true) : owner (⟨i, o, r⟩ :: past) = owner past := by
  cases o with
  | locked s =>
    cases s with
    | apply event => cases event <;> first | rfl | cases h
    | _ => rfl
  | _ => rfl

theorem dry_of (h : dry o = true) : Dry ⟨i, o, r⟩ past where
  owner := owner_dry h
  deposit := by cases o <;> first | rfl | cases h
  taken n := by
    apply account_idle
    intro bytes
    cases o <;> first | rfl | cases h
  rawSent n := by
    apply account_idle
    intro sent
    cases o <;> first | rfl | cases h
  sends n := by
    apply account_idle
    intro count
    cases o <;> first | rfl | cases h

/-- Whoever is not a writer may send. -/
theorem dry_send {socket : ℕ} {bytes : List UInt8} {result : SendResult}
    (h : ∀ n, i ≠ .writer n) : Dry ⟨i, .send socket bytes, result⟩ past where
  owner := rfl
  deposit := rfl
  taken n := account_of_ne (h n)
  rawSent n := account_of_ne (h n)
  sends n := account_of_ne (h n)

theorem owner_apply_self {event : ExpansionEvent} {ok : Bool} {action : ExpansionAction} {n : ℕ} :
    owner (⟨.client n, .locked (.apply event), (ok, action)⟩ :: past) =
      if event = .rpcStarted ∧ ok = true then some n else owner past := by
  cases event <;> first | rfl | cases ok <;> rfl

theorem dry_apply {event : ExpansionEvent} {ok : Bool} {action : ExpansionAction} {n : ℕ}
    (h : ¬ (event = .rpcStarted ∧ ok = true)) :
    Dry ⟨.client n, .locked (.apply event), (ok, action)⟩ past where
  owner := by rw [owner_apply_self, if_neg h]
  deposit := rfl
  taken n := account_of_ne (by simp)
  rawSent n := account_of_ne (by simp)
  sends n := account_of_ne (by simp)

theorem storedFor_dry {e : Entry} (h : depositBy e = []) (past : List Entry) (n : ℕ) :
    storedFor n (e :: past) = storedFor n past := by
  rw [storedFor, h, ite_self, List.append_nil]

end Dry

/-- A session was opened. -/
def SessionPhase.late : SessionPhase → Bool
  | .opened _ | .ending _ | .stopped | .finished | .released => true
  | _ => false

namespace Link

structure Flow (l : Link) (trace : List Entry) : Prop where
  sent : ∀ n, rawSent n trace <+: taken n trace
  taken : ∀ n, taken n trace <+: storedFor n trace
  unserved : ∀ n, served n trace = false → sends (.writer n) trace = 0 ∧
    Bridge.taken n trace = [] ∧ owner trace ≠ some n ∧ storedFor n trace = []
  unopened : ∀ n ph, l.client = some (n, ph) → ph.session.late = false →
    owner trace ≠ some n ∧ storedFor n trace = []
  unstarted : ∀ n ph, l.client = some (n, ph) → ph.proxy.unstarted = true →
    sends (.writer n) trace = 0 ∧ Bridge.taken n trace = []
  opened : ∀ n ph answer, l.client = some (n, ph) → ph.session = .opened answer →
    owner trace = some n ∧ Bridge.taken n trace ++ l.rpcRx <+: storedFor n trace
  writer : ∀ n rest, l.writer = some (n, rest) → rawSent n trace ++ rest = Bridge.taken n trace ∧
    Bridge.taken n trace ++ l.rpcRx <+: storedFor n trace
  ready : l.machine.state = .rpcReady → ∀ n ph, l.client = some (n, ph) → owner trace = some n ∧
    Bridge.taken n trace ++ l.rpcRx = storedFor n trace

theorem flow_nil : Flow {} [] where
  sent _ := List.prefix_refl []
  taken _ := List.prefix_refl []
  unserved _ _ := ⟨rfl, rfl, by simp [owner], rfl⟩
  unopened := by simp
  unstarted := by simp
  opened := by simp
  writer := by simp
  ready := by simp

section Flow
variable {l l' : Link} {trace : List Entry} {e : Entry}

/-- How far a client may move without the bytes noticing. -/
def Follows (l l' : Link) : Prop :=
  ∀ n ph', l'.client = some (n, ph') → ∃ ph, l.client = some (n, ph) ∧
    (ph'.proxy.unstarted = true → ph.proxy.unstarted = true) ∧
    (∀ answer, ph'.session = .opened answer → ∃ answer', ph.session = .opened answer') ∧
    (ph'.session.late = false → ph.session.late = false)

theorem follows_of_eq (h : l'.client = l.client) : Follows l l' := by
  intro n ph hph
  rw [h] at hph
  exact ⟨ph, hph, id, fun answer hopened => ⟨answer, hopened⟩, id⟩

theorem follows_session {n : ℕ} {ph : ClientPhase} {session : SessionPhase}
    (hclient : l.client = some (n, ph))
    (hclient' : l'.client = some (n, { ph with session := session }))
    (hopened : ∀ answer, session = .opened answer → ∃ answer', ph.session = .opened answer')
    (hlate : session.late = false → ph.session.late = false) : Follows l l' := by
  intro m ph' hph'
  rw [hclient'] at hph'
  cases hph'
  exact ⟨ph, hclient, id, hopened, hlate⟩

/-- Entries that leave the bytes where they are, or clear the buffer. -/
theorem Flow.frame {i : Tid} {o : Op} {r : o.Res} (h : Flow l trace) (hdry : Dry ⟨i, o, r⟩ trace)
    (hclient : Follows l l') (hwriter : l'.writer = l.writer ∨ l'.writer = none)
    (hmachine : l'.machine.state = .rpcReady → l.machine.state = .rpcReady)
    (hrpcRx : l'.rpcRx = l.rpcRx ∨ l'.rpcRx = [] ∧ l'.machine.state ≠ .rpcReady) :
    Flow l' (⟨i, o, r⟩ :: trace) := by
  have hstored := storedFor_dry hdry.deposit trace
  have hbuffer : ∀ {before total : List UInt8}, before ++ l.rpcRx <+: total →
      before ++ l'.rpcRx <+: total := by
    intro before total hprefix
    obtain hrpcRx | ⟨hrpcRx, -⟩ := hrpcRx
    · rwa [hrpcRx]
    · rw [hrpcRx, List.append_nil]
      exact (List.prefix_append _ _).trans hprefix
  constructor
  case sent =>
    intro n
    rw [hdry.rawSent, hdry.taken]
    exact h.sent n
  case taken =>
    intro n
    rw [hdry.taken, hstored]
    exact h.taken n
  case unserved =>
    intro n hn
    rw [hdry.sends, hdry.taken, hdry.owner, hstored]
    exact h.unserved n (served_cons n hn)
  case unopened =>
    intro n ph' hph' hlate'
    obtain ⟨ph, hph, -, -, hlate⟩ := hclient n ph' hph'
    rw [hdry.owner, hstored]
    exact h.unopened n ph hph (hlate hlate')
  case unstarted =>
    intro n ph' hph' hproxy'
    obtain ⟨ph, hph, hproxy, -⟩ := hclient n ph' hph'
    rw [hdry.sends, hdry.taken]
    exact h.unstarted n ph hph (hproxy hproxy')
  case opened =>
    intro n ph' answer hph' hopened'
    obtain ⟨ph, hph, -, hopened, -⟩ := hclient n ph' hph'
    obtain ⟨answer', hanswer⟩ := hopened answer hopened'
    rw [hdry.owner, hdry.taken, hstored]
    exact (h.opened n ph answer' hph hanswer).imp_right hbuffer
  case writer =>
    intro n rest hn
    rw [hdry.rawSent, hdry.taken, hstored]
    obtain hwriter | hwriter := hwriter
    · rw [hwriter] at hn
      exact (h.writer n rest hn).imp_right hbuffer
    · rw [hwriter] at hn
      cases hn
  case ready =>
    intro hstate n ph' hph'
    obtain ⟨ph, hph, -⟩ := hclient n ph' hph'
    have hrpcRx := hrpcRx.resolve_right fun hcleared => hcleared.2 hstate
    rw [hdry.owner, hdry.taken, hrpcRx, hstored]
    exact h.ready (hmachine hstate) n ph hph

/-- Entries that leave the bytes and the client alone. -/
theorem Flow.stands {i : Tid} {o : Op} {r : o.Res} (h : Flow l trace) (ho : dry o = true)
    (hclient : l'.client = l.client) (hwriter : l'.writer = l.writer) (hrpcRx : l'.rpcRx = l.rpcRx)
    (hmachine : l'.machine.state = .rpcReady → l.machine.state = .rpcReady) :
    Flow l' (⟨i, o, r⟩ :: trace) :=
  h.frame (dry_of ho) (follows_of_eq hclient) (.inl hwriter) hmachine (.inl hrpcRx)

/-- The client moves on with its session. -/
theorem Flow.moves {n : ℕ} {ph : ClientPhase} {session : SessionPhase} {i : Tid} {o : Op}
    {r : o.Res}
    (h : Flow l trace) (hclient : l.client = some (n, ph)) (ho : dry o = true)
    (hclient' : l'.client = some (n, { ph with session := session }))
    (hwriter : l'.writer = l.writer) (hmachine : l'.machine = l.machine)
    (hrpcRx : l'.rpcRx = l.rpcRx)
    (hopened : ∀ answer, session = .opened answer → ∃ answer', ph.session = .opened answer')
    (hlate : session.late = false → ph.session.late = false) : Flow l' (⟨i, o, r⟩ :: trace) :=
  h.frame (dry_of ho) (follows_session hclient hclient' hopened hlate) (.inl hwriter)
    (by rw [hmachine]; exact id) (.inl hrpcRx)

/-! ### The supervisor and the receiving task -/

theorem not_rpcReady_of_offline {machine : ExpansionStateMachine}
    (h : Bridge.offline machine.state = true) : machine.state ≠ .rpcReady := by
  intro hstate
  rw [hstate] at h
  cases h

theorem SupervisorStep.flow (h : Flow l trace) (hsound : l.Sound) (hstep : SupervisorStep l e l') :
    Flow l' (e :: trace) := by
  cases hstep with
  | restart hsup => exact h.stands rfl rfl rfl rfl (by simp [expansionStateMachineInit])
  | advance hsup event hevent happly =>
    have hoffline := offline_of_advance happly hevent (hsound.offline (by rw [hsup]; rfl))
    refine h.stands ?_ rfl rfl rfl fun hstate => absurd hstate (not_rpcReady_of_offline hoffline)
    obtain rfl | rfl | rfl := hevent <;> rfl
  | accept hsup happly =>
    refine h.stands rfl rfl rfl rfl fun hstate => ?_
    obtain ⟨-, hready⟩ | ⟨-, rfl⟩ := baudAccepted_cases happly
    · exact absurd (hready.symm.trans hstate) (by simp)
    · exact hstate
  | fall hsup happly =>
    have hoffline := offline_of_timeout happly
    exact h.stands rfl rfl rfl rfl fun hstate => absurd hstate (not_rpcReady_of_offline hoffline)
  | clear hsup =>
    have hstate : l.machine.state ≠ .rpcReady := by
      intro hstate
      have hearly := (hsound.watched (.inl hstate)).2
      rw [hsup] at hearly
      cases hearly
    exact h.frame (dry_of rfl) (follows_of_eq rfl) (.inl rfl) id (.inr ⟨rfl, hstate⟩)
  | tidy hsup o r ho =>
    obtain rfl | rfl | ⟨handle, rfl⟩ := ho
    all_goals exact h.stands rfl rfl rfl rfl id
  | _ => exact h.stands rfl rfl rfl rfl id

theorem storedFor_deposit {id n : ℕ} {bytes : List UInt8} {sent : ℕ} :
    storedFor n (⟨.rx id, .streamSend bytes, sent⟩ :: trace) =
      storedFor n trace ++ if owner trace = some n then bytes.take sent else [] := rfl

theorem storedFor_deposit_of_ne {id n : ℕ} {bytes : List UInt8} {sent : ℕ}
    (h : owner trace ≠ some n) :
    storedFor n (⟨.rx id, .streamSend bytes, sent⟩ :: trace) = storedFor n trace := by
  rw [storedFor_deposit, if_neg h, List.append_nil]

/-- A frame is stored only for a client whose session is open, or is being stopped. -/
theorem Flow.deposit {id : ℕ} {bytes : List UInt8} (h : Flow l trace) (hsound : l.Sound)
    {rx : Option (ℕ × RxPhase)} {sent : ℕ} (hrx : l.rx = some (id, .counted bytes)) :
    Flow { l with rpcRx := l.rpcRx ++ bytes.take sent, rx := rx }
      (⟨.rx id, .streamSend bytes, sent⟩ :: trace) := by
  have hreceiving := hsound.receiving id bytes (.inr hrx)
  have hequal : l.machine.state = .rpcReady → ∀ n ph, l.client = some (n, ph) →
      owner trace = some n ∧ Bridge.taken n trace ++ (l.rpcRx ++ bytes.take sent) =
        storedFor n (⟨.rx id, .streamSend bytes, sent⟩ :: trace) := by
    intro hstate n ph hph
    obtain ⟨howner, hstored⟩ := h.ready hstate n ph hph
    rw [storedFor_deposit, if_pos howner, ← List.append_assoc, hstored]
    exact ⟨howner, rfl⟩
  constructor
  case sent => exact h.sent
  case taken => exact fun n => (h.taken n).trans (List.prefix_append _ _)
  case unserved =>
    intro n hn
    obtain ⟨hsends, htaken, howner, hstored⟩ := h.unserved n hn
    exact ⟨hsends, htaken, howner, (storedFor_deposit_of_ne howner).trans hstored⟩
  case unopened =>
    intro n ph hph hlate
    obtain ⟨howner, hstored⟩ := h.unopened n ph hph hlate
    exact ⟨howner, (storedFor_deposit_of_ne howner).trans hstored⟩
  case unstarted => exact h.unstarted
  case opened =>
    intro n ph answer hph hopened
    have hstate : l.machine.state = .rpcReady := by
      refine hreceiving.resolve_right fun hstop => ?_
      exact (hsound.stopping hstop.1).2.1 answer
        ((session_of_client hph).trans (congrArg some hopened))
    obtain ⟨howner, hstored⟩ := hequal hstate n ph hph
    exact ⟨howner, hstored ▸ List.prefix_refl _⟩
  case writer =>
    intro n rest hn
    have hstate : l.machine.state = .rpcReady := by
      refine hreceiving.resolve_right fun hstop => ?_
      exact absurd ((hsound.stopping hstop.1).2.2.symm.trans hn) (by simp)
    obtain ⟨ph, hph, -⟩ := hsound.writer n rest hn
    exact ⟨(h.writer n rest hn).1, (hequal hstate n ph hph).2 ▸ List.prefix_refl _⟩
  case ready => exact hequal

theorem RxStep.flow {id : ℕ} (h : Flow l trace) (hsound : l.Sound) (hstep : RxStep l id e l') :
    Flow l' (e :: trace) := by
  cases hstep with
  | deposit hrx hsent => exact h.deposit hsound hrx
  | _ => exact h.stands rfl rfl rfl rfl fun h => h

/-! ### The writer -/

/-- The writer takes bytes out of the buffer. -/
theorem Flow.take {n : ℕ} (h : Flow l trace) (hsound : l.Sound) (hbooks : SlotBooks l trace)
    (hwriter : l.writer = some (n, [])) (capacity : ℕ) :
    Flow { l with rpcRx := l.rpcRx.drop capacity, writer := some (n, l.rpcRx.take capacity) }
      (⟨.writer n, .streamReceive capacity, l.rpcRx.take capacity⟩ :: trace) := by
  obtain ⟨ph, hph, hrunning⟩ := hsound.writer n [] hwriter
  have hself :
      Bridge.taken n (⟨.writer n, .streamReceive capacity, l.rpcRx.take capacity⟩ :: trace) =
      Bridge.taken n trace ++ l.rpcRx.take capacity := account_self
  have hother : ∀ m, m ≠ n →
      Bridge.taken m (⟨.writer n, .streamReceive capacity, l.rpcRx.take capacity⟩ :: trace) =
        Bridge.taken m trace := fun m hm => account_of_ne (by simpa using Ne.symm hm)
  have hraw : ∀ m,
      rawSent m (⟨.writer n, .streamReceive capacity, l.rpcRx.take capacity⟩ :: trace) =
      rawSent m trace := by
    intro m
    apply account_idle
    exact fun sent => rfl
  have hsends : ∀ m, sends (.writer m)
      (⟨.writer n, .streamReceive capacity, l.rpcRx.take capacity⟩ :: trace) =
        sends (.writer m) trace := by
    intro m
    apply account_idle
    exact fun count => rfl
  have hstored : ∀ m, storedFor m
      (⟨.writer n, .streamReceive capacity, l.rpcRx.take capacity⟩ :: trace) = storedFor m trace :=
    storedFor_dry rfl trace
  have hsame : ∀ {m ph'}, l.client = some (m, ph') → n = m ∧ ph = ph' := by
    intro m ph' hph'
    simpa using hph.symm.trans hph'
  obtain ⟨hnil, hprefix⟩ := h.writer n [] hwriter
  rw [List.append_nil] at hnil
  have hwhole : Bridge.taken n trace ++ l.rpcRx.take capacity ++ l.rpcRx.drop capacity =
      Bridge.taken n trace ++ l.rpcRx := by
    rw [List.append_assoc, List.take_append_drop]
  constructor
  case sent =>
    intro m
    rw [hraw]
    by_cases hm : m = n
    · rw [hm, hself]
      exact (h.sent n).trans (List.prefix_append _ _)
    · rw [hother m hm]
      exact h.sent m
  case taken =>
    intro m
    rw [hstored]
    by_cases hm : m = n
    · rw [hm, hself]
      refine List.IsPrefix.trans ?_ hprefix
      exact (List.prefix_append_right_inj _).mpr (List.take_prefix _ _)
    · rw [hother m hm]
      exact h.taken m
  case unserved =>
    intro m hm
    have hmn : m ≠ n := by
      rintro rfl
      have hserved := (hbooks.client m (by rw [hph]; rfl)).2.1
      exact absurd (hserved.symm.trans hm) (by simp)
    rw [hsends, hother m hmn, hstored]
    exact h.unserved m hm
  case unopened =>
    intro m ph' hph' hlate
    rw [hstored]
    exact h.unopened m ph' hph' hlate
  case unstarted =>
    intro m ph' hph' hproxy
    obtain ⟨rfl, rfl⟩ := hsame hph'
    rw [hrunning] at hproxy
    cases hproxy
  case opened =>
    intro m ph' answer hph' hopened
    obtain ⟨rfl, rfl⟩ := hsame hph'
    rw [hself, hstored, hwhole]
    exact ⟨(h.opened n ph answer hph hopened).1, hprefix⟩
  case writer =>
    rintro m rest ⟨⟩
    rw [hraw, hself, hstored, hwhole, hnil]
    exact ⟨rfl, hprefix⟩
  case ready =>
    intro hstate m ph' hph'
    obtain ⟨rfl, rfl⟩ := hsame hph'
    rw [hself, hstored, hwhole]
    exact h.ready hstate n ph hph

/-- The writer sends some of what it has taken. -/
theorem Flow.send {n : ℕ} {rest : List UInt8} (h : Flow l trace) (hsound : l.Sound)
    (hbooks : SlotBooks l trace) (hwriter : l.writer = some (n, rest)) (result : SendResult) :
    Flow { l with writer := some (n, rest.drop result.sent.toNat) }
      (⟨.writer n, .send n rest, result⟩ :: trace) := by
  obtain ⟨ph, hph, hrunning⟩ := hsound.writer n rest hwriter
  have hself : rawSent n (⟨.writer n, .send n rest, result⟩ :: trace) =
      rawSent n trace ++ rest.take result.sent.toNat := account_self
  have hother : ∀ m, m ≠ n → rawSent m (⟨.writer n, .send n rest, result⟩ :: trace) =
      rawSent m trace := fun m hm => account_of_ne (by simpa using Ne.symm hm)
  have hsends : ∀ m, m ≠ n → sends (.writer m) (⟨.writer n, .send n rest, result⟩ :: trace) =
      sends (.writer m) trace := fun m hm => account_of_ne (by simpa using Ne.symm hm)
  have htaken : ∀ m, Bridge.taken m (⟨.writer n, .send n rest, result⟩ :: trace) =
      Bridge.taken m trace := by
    intro m
    apply account_idle
    exact fun bytes => rfl
  have hstored : ∀ m, storedFor m (⟨.writer n, .send n rest, result⟩ :: trace) =
      storedFor m trace := storedFor_dry rfl trace
  obtain ⟨hrest, hprefix⟩ := h.writer n rest hwriter
  have hwhole : rawSent n trace ++ rest.take result.sent.toNat ++ rest.drop result.sent.toNat =
      Bridge.taken n trace := by
    rw [List.append_assoc, List.take_append_drop]
    exact hrest
  constructor
  case sent =>
    intro m
    rw [htaken]
    by_cases hm : m = n
    · rw [hm, hself]
      exact ⟨_, hwhole⟩
    · rw [hother m hm]
      exact h.sent m
  case taken =>
    intro m
    rw [htaken, hstored]
    exact h.taken m
  case unserved =>
    intro m hm
    have hmn : m ≠ n := by
      rintro rfl
      have hserved := (hbooks.client m (by rw [hph]; rfl)).2.1
      exact absurd (hserved.symm.trans hm) (by simp)
    rw [hsends m hmn, htaken, hstored]
    exact h.unserved m hm
  case unopened =>
    intro m ph' hph' hlate
    rw [hstored]
    exact h.unopened m ph' hph' hlate
  case unstarted =>
    intro m ph' hph' hproxy
    obtain ⟨rfl, rfl⟩ : n = m ∧ ph = ph' := by simpa using hph.symm.trans hph'
    rw [hrunning] at hproxy
    cases hproxy
  case opened =>
    intro m ph' answer hph' hopened
    rw [htaken, hstored]
    exact h.opened m ph' answer hph' hopened
  case writer =>
    rintro m rest' ⟨⟩
    rw [hself, htaken, hstored]
    exact ⟨hwhole, hprefix⟩
  case ready =>
    intro hstate m ph' hph'
    rw [htaken, hstored]
    exact h.ready hstate m ph' hph'

theorem WriterStep.flow {n : ℕ} (h : Flow l trace) (hsound : l.Sound) (hbooks : SlotBooks l trace)
    (hstep : WriterStep l n e l') : Flow l' (e :: trace) := by
  cases hstep with
  | take hwriter capacity => exact h.take hsound hbooks hwriter capacity
  | @send rest hwriter result hsent => exact h.send hsound hbooks hwriter result
  | state hwriter => exact h.stands rfl rfl rfl rfl id
  | finish hwriter => exact h.frame (dry_of rfl) (follows_of_eq rfl) (.inr rfl) id (.inl rfl)

/-! ### The client and the accept loop -/

/-- START RPC is accepted, with nothing in the buffer. -/
theorem Flow.started {n : ℕ} {ph : ClientPhase} {action : ExpansionAction}
    {machine : ExpansionStateMachine} (h : Flow l trace) (hbooks : SlotBooks l trace)
    (hclient : l.client = some (n, ph)) (hlate : ph.session.late = false)
    (hproxy : ph.proxy.unstarted = true) (hwriter : l.writer = none) (hempty : l.rpcRx = []) :
    Flow { l.withSession n ph (.opened none) with machine := machine }
      (⟨.client n, .locked (.apply .rpcStarted), (true, action)⟩ :: trace) := by
  have hserved := (hbooks.client n (by rw [hclient]; rfl)).2.1
  have howner :
      owner (⟨.client n, .locked (.apply .rpcStarted), (true, action)⟩ :: trace) = some n :=
    rfl
  have hstored : ∀ m,
      storedFor m (⟨.client n, .locked (.apply .rpcStarted), (true, action)⟩ :: trace) =
      storedFor m trace := storedFor_dry rfl trace
  have hsends : ∀ m, sends (.writer m) (⟨.client n, .locked (.apply .rpcStarted), (true, action)⟩ ::
      trace) = sends (.writer m) trace := fun m => account_of_ne (by simp)
  have htaken : ∀ m, Bridge.taken m (⟨.client n, .locked (.apply .rpcStarted), (true, action)⟩ ::
      trace) = Bridge.taken m trace := fun m => account_of_ne (by simp)
  have hraw : ∀ m, rawSent m (⟨.client n, .locked (.apply .rpcStarted), (true, action)⟩ :: trace) =
      rawSent m trace := fun m => account_of_ne (by simp)
  have hnothing : Bridge.taken n trace ++ l.rpcRx = storedFor n trace := by
    rw [(h.unstarted n ph hclient hproxy).2, (h.unopened n ph hclient hlate).2, hempty]
    rfl
  constructor
  case sent =>
    intro m
    rw [hraw, htaken]
    exact h.sent m
  case taken =>
    intro m
    rw [htaken, hstored]
    exact h.taken m
  case unserved =>
    intro m hm
    have hmn : n ≠ m := by
      rintro rfl
      exact absurd (hserved.symm.trans hm) (by simp)
    obtain ⟨hzero, htake, -, hnil⟩ := h.unserved m hm
    rw [hsends, htaken, hstored, howner]
    exact ⟨hzero, htake, by simpa using hmn, hnil⟩
  case unopened =>
    rintro m _ ⟨⟩ hlate'
    cases hlate'
  case unstarted =>
    rintro m _ ⟨⟩ hunstarted
    rw [hsends, htaken]
    exact h.unstarted n ph hclient hunstarted
  case opened =>
    rintro m _ answer ⟨⟩ -
    rw [htaken, hstored]
    exact ⟨howner, hnothing ▸ List.prefix_refl _⟩
  case writer =>
    intro m rest hm
    exact absurd (hwriter.symm.trans hm) (by simp)
  case ready =>
    rintro - m _ ⟨⟩
    rw [htaken, hstored]
    exact ⟨howner, hnothing⟩

/-- The writer is created. -/
theorem Flow.start {n : ℕ} {ph : ClientPhase} (h : Flow l trace) (hclient : l.client = some (n, ph))
    (hopened : ph.session = .opened (some [])) (hproxy : ph.proxy.unstarted = true) :
    Flow { l with client := some (n, { ph with proxy := .running }), writer := some (n, []) }
      (⟨.client n, .taskCreate (.writer n), true⟩ :: trace) := by
  have hdry : Dry ⟨.client n, .taskCreate (.writer n), true⟩ trace := dry_of rfl
  have hstored := storedFor_dry hdry.deposit trace
  constructor
  case sent =>
    intro m
    rw [hdry.rawSent, hdry.taken]
    exact h.sent m
  case taken =>
    intro m
    rw [hdry.taken, hstored]
    exact h.taken m
  case unserved =>
    intro m hm
    rw [hdry.sends, hdry.taken, hdry.owner, hstored]
    exact h.unserved m (served_cons m hm)
  case unopened =>
    rintro m _ ⟨⟩ hlate
    rw [hdry.owner, hstored]
    exact h.unopened n ph hclient hlate
  case unstarted =>
    rintro m _ ⟨⟩ hrunning
    cases hrunning
  case opened =>
    rintro m _ answer ⟨⟩ hanswer
    rw [hdry.owner, hdry.taken, hstored]
    exact h.opened n ph answer hclient hanswer
  case writer =>
    rintro m rest ⟨⟩
    have hnil := (h.unstarted n ph hclient hproxy).2
    have hsent := h.sent n
    rw [hnil, List.prefix_nil] at hsent
    rw [hdry.rawSent, hdry.taken, hstored, hsent, hnil]
    have hwaiting := (h.opened n ph (some []) hclient hopened).2
    rw [hnil] at hwaiting
    exact ⟨rfl, hwaiting⟩
  case ready =>
    rintro hstate m _ ⟨⟩
    rw [hdry.owner, hdry.taken, hstored]
    exact h.ready hstate n ph hclient

/-- A client that was not told of a session has no proxy. -/
theorem Answered.proxy_eq_none (h : Answered l trace) {n : ℕ} {ph : ClientPhase}
    (hclient : l.client = some (n, ph)) (htold : ph.session.told = false) : ph.proxy = .none := by
  by_contra hproxy
  exact absurd (htold.symm.trans (h.raw n ph hclient hproxy).1) (by simp)

theorem Sound.writer_eq_none (h : l.Sound) {n : ℕ} {ph : ClientPhase}
    (hclient : l.client = some (n, ph)) (hproxy : ph.proxy ≠ .running) : l.writer = none := by
  cases hwriter : l.writer with
  | none => rfl
  | some writer =>
    obtain ⟨ph', hph', hrunning⟩ := h.writer writer.1 writer.2 hwriter
    rw [hclient] at hph'
    cases hph'
    exact absurd hrunning hproxy

/-- The buffer is empty when STATUS None to START RPC was read. -/
theorem Sound.rpcRx_eq_nil (h : l.Sound) (hstart : l.machine.state = .startingRpc)
    (hsession : l.session = some (.begun .acked)) : l.rpcRx = [] := by
  refine (h.cleanStart hstart).resolve_left fun hstale => ?_
  have hearly : l.supervisor.early = true := by
    cases hsup : l.supervisor <;> rw [hsup] at hstale <;> first | rfl | cases hstale
  obtain hmachine | ⟨-, hunheard⟩ := h.early hearly
  · exact absurd (hstart.symm.trans hmachine) (by simp)
  · exact hunheard _ hsession

theorem Flow.apply {n : ℕ} {ph : ClientPhase} {event : ExpansionEvent} {ok : Bool}
    {action : ExpansionAction} {machine : ExpansionStateMachine} {session : SessionPhase}
    (h : Flow l trace) (hsound : l.Sound) (hbooks : SlotBooks l trace)
    (hanswered : Answered l trace)
    (hclient : l.client = some (n, ph))
    (hverdict : Verdict l.machine machine event ok ph.session session) :
    Flow { l.withSession n ph session with machine := machine }
      (⟨.client n, .locked (.apply event), (ok, action)⟩ :: trace) := by
  have hframe : ¬ (event = .rpcStarted ∧ ok = true) →
      (∀ answer, session = .opened answer → ∃ answer', ph.session = .opened answer') →
      (session.late = false → ph.session.late = false) →
      (machine.state = .rpcReady → l.machine.state = .rpcReady) →
      Flow { l.withSession n ph session with machine := machine }
        (⟨.client n, .locked (.apply event), (ok, action)⟩ :: trace) := by
    intro hevent hopened hlate hmachine
    exact h.frame (dry_apply hevent) (follows_session hclient rfl hopened hlate) (.inl rfl) hmachine
      (.inl rfl)
  obtain ⟨before, proxy⟩ := ph
  dsimp only at hverdict hframe
  cases hverdict with
  | started hstart hready =>
    obtain rfl : proxy = .none := hanswered.proxy_eq_none hclient rfl
    have hwriter := hsound.writer_eq_none hclient (by simp)
    exact h.started hbooks hclient rfl rfl hwriter
      (hsound.rpcRx_eq_nil hstart (session_of_client hclient))
  | begun hready hstart =>
    exact hframe (by simp) (by simp) (by simp [SessionPhase.late]) (by simp [hstart])
  | ended hsession hready hstop =>
    exact hframe (by simp) (by simp) (by simp [SessionPhase.late]) fun _ => hready
  | stopped hstop hready =>
    exact hframe (by simp) (by simp) (by simp [SessionPhase.late]) (by simp [hready])
  | notBegun hmachine => exact hframe (by simp) (by simp) id (by rw [hmachine]; exact id)
  | notStarted hmachine => exact hframe (by simp) (by simp) id (by rw [hmachine]; exact id)
  | notEnded hsession hmachine hstate =>
    exact hframe (by simp) (by simp) (by simp [SessionPhase.late]) (by rw [hmachine]; exact id)
  | notStopped hmachine =>
    exact hframe (by simp) (by simp) (by simp [SessionPhase.late]) (by rw [hmachine]; exact id)

theorem ClientStep.flow {n : ℕ} {ph : ClientPhase} (h : Flow l trace) (hsound : l.Sound)
    (hbooks : SlotBooks l trace) (hanswered : Answered l trace) (hclient : l.client = some (n, ph))
    (hstep : ClientStep l n ph e l') : Flow l' (e :: trace) := by
  cases hstep with
  | apply happly hsession hproxy =>
    exact h.apply hsound hbooks hanswered hclient (verdict happly hsession)
  | look =>
    refine h.moves hclient rfl rfl rfl rfl rfl ?_ ?_
    all_goals
      unfold SessionPhase.look
      repeat' split
    all_goals simp_all [SessionPhase.late]
  | arm =>
    refine h.moves hclient rfl rfl rfl rfl rfl ?_ ?_
    all_goals cases ph.session <;> simp [SessionPhase.arm, SessionPhase.late]
  | disarm =>
    refine h.moves hclient rfl rfl rfl rfl rfl ?_ ?_
    all_goals
      unfold SessionPhase.disarm
      split <;> simp_all [SessionPhase.late]
  | signal reason =>
    refine h.moves hclient rfl rfl rfl rfl rfl ?_ ?_
    all_goals cases ph.session <;> simp [SessionPhase.signal, SessionPhase.late]
  | reset hstopped =>
    have hstate : l.machine.state ≠ .rpcReady := hsound.not_rpcReady hclient (by simp [hstopped])
    refine h.frame (dry_of rfl) (follows_session hclient rfl ?_ ?_) (.inl rfl) id
      (.inr ⟨rfl, hstate⟩)
    · simp
    · simp [SessionPhase.late]
  | respond hproxy hrespond =>
    refine h.moves hclient rfl rfl rfl rfl rfl ?_ ?_
    all_goals
      unfold SessionPhase.respond at hrespond
      split at hrespond
      · next hphase =>
        obtain rfl := Option.some_inj.mp hrespond
        simp [hphase, SessionPhase.late]
      · next hphase =>
        obtain ⟨-, hmap⟩ := Option.ite_none_right_eq_some.mp hrespond
        obtain ⟨encoded, -, rfl⟩ := Option.map_eq_some_iff.mp hmap
        simp [hphase, SessionPhase.late]
      · cases hrespond
  | mark hadmits hm => exact h.stands rfl rfl rfl rfl id
  | send hproxy hsent hsend =>
    refine h.frame (dry_send (by simp)) (follows_session hclient rfl ?_ ?_) (.inl rfl) id (.inl rfl)
    all_goals
      unfold SessionPhase.send at hsend
      split at hsend
      · next hphase =>
        obtain rfl := Option.some_inj.mp hsend
        simp [hphase, SessionPhase.late]
      · next hphase =>
        obtain ⟨-, ⟨⟩⟩ := Option.ite_none_right_eq_some.mp hsend
        simp [hphase, SessionPhase.late]
      · cases hsend
  | write bytes written => exact h.stands rfl rfl rfl rfl id
  | «open» hopened hproxy created =>
    cases created with
    | false => exact h.stands rfl rfl rfl rfl id
    | true =>
      refine h.frame (dry_of rfl) ?_ (.inl rfl) id (.inl rfl)
      rintro m _ ⟨⟩
      exact ⟨ph, hclient, by simp [hproxy, ProxyPhase.unstarted], fun answer ha => ⟨answer, ha⟩, id⟩
  | start hopened hproxy created =>
    cases created with
    | false => exact h.stands rfl rfl rfl rfl id
    | true =>
      have hstart := h.start hclient hopened (by rw [hproxy]; rfl)
      exact hstart
  | drain hproxy hwriter =>
    refine h.frame (dry_of rfl) ?_ (.inl rfl) id (.inl rfl)
    rintro m _ ⟨⟩
    exact ⟨ph, hclient, by simp [ProxyPhase.unstarted], fun answer ha => ⟨answer, ha⟩, id⟩
  | release hover hproxy => exact h.frame (dry_of rfl) (by simp [Follows]) (.inl rfl) id (.inl rfl)

/-- A new client has no bytes yet. -/
theorem Flow.create {n : ℕ} (h : Flow l trace) (hsound : l.Sound) (hclient : l.client = none)
    (hserved : served n trace = false) :
    Flow { l with server := .listening, client := some (n, managing) }
      (⟨.server, .taskCreate (.client n), true⟩ :: trace) := by
  have hstate : l.machine.state ≠ .rpcReady := by
    intro hstate
    obtain ⟨answer, hopened⟩ := hsound.ready hstate
    rw [session, hclient] at hopened
    cases hopened
  obtain ⟨hsends, htaken, howner, hstored⟩ := h.unserved n hserved
  have hdry : Dry ⟨.server, .taskCreate (.client n), true⟩ trace := dry_of rfl
  have hsame := storedFor_dry hdry.deposit trace
  constructor
  case sent =>
    intro m
    rw [hdry.rawSent, hdry.taken]
    exact h.sent m
  case taken =>
    intro m
    rw [hdry.taken, hsame]
    exact h.taken m
  case unserved =>
    intro m hm
    rw [hdry.sends, hdry.taken, hdry.owner, hsame]
    exact h.unserved m (served_cons m hm)
  case unopened =>
    rintro m _ ⟨⟩ -
    rw [hdry.owner, hsame]
    exact ⟨howner, hstored⟩
  case unstarted =>
    rintro m _ ⟨⟩ -
    rw [hdry.sends, hdry.taken]
    exact ⟨hsends, htaken⟩
  case opened =>
    rintro m _ answer ⟨⟩ hopened
    cases hopened
  case writer =>
    intro m rest hm
    rw [hdry.rawSent, hdry.taken, hsame]
    exact h.writer m rest hm
  case ready => exact fun hready => absurd hready hstate

theorem ServerStep.flow (h : Flow l trace) (hsound : l.Sound) (hbooks : SlotBooks l trace)
    (hstep : ServerStep l e l') : Flow l' (e :: trace) := by
  cases hstep with
  | @create n hserver hclient =>
    obtain ⟨-, -, hserved⟩ := hbooks.accepted n (by rw [hserver]; rfl)
    exact h.create hsound hclient hserved
  | send hserver bytes result =>
    exact h.frame (dry_send (by simp)) (follows_of_eq rfl) (.inl rfl) id (.inl rfl)
  | _ => exact h.stands rfl rfl rfl rfl fun h => h

theorem Step.flow (h : Flow l trace) (hsound : l.Sound) (hbooks : SlotBooks l trace)
    (hanswered : Answered l trace) (hstep : l.Step e l') : Flow l' (e :: trace) := by
  cases hstep with
  | supervisor hstep => exact hstep.flow h hsound
  | rx hstep => exact hstep.flow h hsound
  | writer hstep => exact hstep.flow h hsound hbooks
  | client hclient hstep => exact hstep.flow h hsound hbooks hanswered hclient
  | server hstep => exact hstep.flow h hsound hbooks
  | heartbeatLost id reason => exact h.stands rfl rfl rfl rfl fun h => h
  | heartbeat id bytes written => exact h.stands rfl rfl rfl rfl fun h => h
  | idle ho r => exact h.stands (dry_of_idle ho) rfl rfl rfl fun h => h

theorem Course.flow (h : Course trace l) : Flow l trace := by
  induction h with
  | nil => exact flow_nil
  | cons hcourse hstep ih =>
    exact hstep.flow ih hcourse.sound hcourse.slotBooks.1 (handling_of_course hcourse).2.1

/-- When `begin_rpc` succeeds, all that waits in the buffer was stored for its client. -/
theorem Course.begun {n : ℕ}
    (h : Course (⟨.client n, .mark (.leave .beginRpc .ok), ()⟩ :: trace) l) :
    owner trace = some n ∧ l.rpcRx <+: storedFor n trace := by
  cases h with | cons hcourse hstep =>
  cases hstep with
  | @client _ ph _ _ hclient hstep =>
    cases hstep with | mark hadmits hm =>
    have hopened : ph.session = .opened none := of_decide_eq_true hadmits
    have hproxy := (handling_of_course hcourse).2.1.proxy_eq_none hclient (by rw [hopened]; rfl)
    obtain ⟨howner, hstored⟩ := hcourse.flow.opened n ph none hclient hopened
    rw [(hcourse.flow.unstarted n ph hclient (by rw [hproxy]; rfl)).2] at hstored
    exact ⟨howner, hstored⟩
  | supervisor hstep => cases hstep
  | rx hstep => cases hstep
  | writer hstep => cases hstep
  | server hstep => cases hstep
  | idle ho r => cases ho

/-! ### What goes out on a socket -/

/-- Management comes before raw mode: the client and the accept loop send on a socket before its
writer does, and the writer once the Ok of `BeginRPCProxy` is out. -/
def SendOrder : Entry → List Entry → Prop
  | ⟨i, .send socket _, _⟩, past =>
    if i = .writer socket then ∃ a, answer (.client socket) past = some a ∧ a.Begins []
    else (i = .client socket ∨ i = .server ∧ lastAccepted past = some socket) ∧
      sends (.writer socket) past = 0
  | _, _ => True

theorem Step.sendOrder (h : Flow l trace) (hsound : l.Sound) (hbooks : SlotBooks l trace)
    (hanswered : Answered l trace) (hstep : l.Step e l') : SendOrder e trace := by
  cases hstep with
  | supervisor hstep =>
    cases hstep with
    | tidy hsup o r ho => obtain rfl | rfl | ⟨handle, rfl⟩ := ho <;> trivial
    | _ => trivial
  | rx hstep => cases hstep <;> trivial
  | @writer n _ _ hstep =>
    cases hstep with
    | send hwriter hsent =>
      obtain ⟨ph, hph, hrunning⟩ := hsound.writer n _ hwriter
      rw [SendOrder, if_pos rfl]
      exact (hanswered.raw n ph hph (by simp [hrunning])).2
    | _ => trivial
  | @client n ph _ _ hclient hstep =>
    cases hstep with
    | send hproxy hsent hsend =>
      rw [SendOrder, if_neg (by simp)]
      exact ⟨.inl rfl, (h.unstarted n ph hclient (by rw [hproxy]; rfl)).1⟩
    | _ => trivial
  | server hstep =>
    cases hstep with
    | send hserver bytes result =>
      obtain ⟨hlast, -, hserved⟩ := hbooks.accepted _ (by rw [hserver]; rfl)
      rw [SendOrder, if_neg (by simp)]
      exact ⟨.inr ⟨rfl, hlast⟩, (h.unserved _ hserved).1⟩
    | _ => trivial
  | heartbeatLost id reason => trivial
  | heartbeat id bytes written => trivial
  | @idle i o ho r => cases o <;> trivial

theorem Course.sendOrder (h : Course trace l) : Justified SendOrder trace := by
  induction h with
  | nil => trivial
  | cons hcourse hstep ih =>
    exact ⟨hstep.sendOrder hcourse.flow hcourse.sound hcourse.slotBooks.1
      (handling_of_course hcourse).2.1, ih⟩

end Flow
end Link
end Bridge

/-- No byte for a client is lost, repeated or out of order. What its writer sends is the beginning
of what it takes, and that of what was stored for the client; as long as the session is open, the
rest of what was stored waits in `rpc_rx`. On the socket all of it comes after the Ok. -/
theorem raw_bytes_in_order {secret : Vector UInt8 bridgePairingSecretBytes}
    {c : System.Config (bridge secret)} (hc : System.Reachable c) :
    Justified Bridge.Link.SendOrder c.world.trace ∧ ∀ n,
      Bridge.rawSent n c.world.trace <+: Bridge.taken n c.world.trace ∧
      Bridge.taken n c.world.trace <+: Bridge.storedFor n c.world.trace ∧
      (Bridge.owner c.world.trace = some n →
        c.world.state.guarded.machine.state = .rpcReady →
        Bridge.taken n c.world.trace ++ c.world.state.rpcRx =
          Bridge.storedFor n c.world.trace) := by
  obtain ⟨s, hs, hworld⟩ := (Bridge.choreography secret).exists_allowed hc
  rw [← hworld]
  obtain ⟨l, hcourse, hdepicts⟩ := Bridge.exists_course hs
  have hflow := hcourse.flow
  refine ⟨hcourse.sendOrder, fun n => ⟨hflow.sent n, hflow.taken n, fun howner hstate => ?_⟩⟩
  have hstate' : l.machine.state = .rpcReady := by
    rw [← hdepicts.shared]
    exact hstate
  obtain ⟨answer, hopened⟩ := hcourse.sound.ready hstate'
  obtain ⟨⟨m, ph⟩, hph, -⟩ := Option.map_eq_some_iff.mp hopened
  obtain ⟨howner', hstored⟩ := hflow.ready hstate' m ph hph
  obtain rfl : n = m := Option.some_inj.mp (howner.symm.trans howner')
  rw [← hdepicts.shared] at hstored
  exact hstored

/-- Two bytes have come back, and were sent. -/
theorem raw_bytes_in_order_returned : ∃ c : Bridge.Sample,
    Bridge.rawSent 0 c.world.trace = [7, 8] ∧ Justified Bridge.Link.SendOrder c.world.trace ∧ ∀ n,
      Bridge.rawSent n c.world.trace <+: Bridge.taken n c.world.trace ∧
      Bridge.taken n c.world.trace <+: Bridge.storedFor n c.world.trace ∧
      (Bridge.owner c.world.trace = some n →
        c.world.state.guarded.machine.state = .rpcReady →
        Bridge.taken n c.world.trace ++ c.world.state.rpcRx =
          Bridge.storedFor n c.world.trace) := by
  obtain ⟨c, hc, htest⟩ := Bridge.exists_run Bridge.Script.returns
    (fun c : Bridge.Sample => Bridge.rawSent 0 c.world.trace == [7, 8]) (by decide +kernel)
  exact ⟨c, beq_iff_eq.mp htest, raw_bytes_in_order hc⟩

/-- When `begin_rpc` succeeds, what is in `rpc_rx` was stored after this START RPC was accepted. -/
theorem session_isolated {secret : Vector UInt8 bridgePairingSecretBytes}
    {c : System.Config (bridge secret)} (hc : System.Reachable c) {n : ℕ}
    {past : List Bridge.Entry}
    (htrace : c.world.trace = ⟨.client n, .mark (.leave .beginRpc .ok), ()⟩ :: past) :
    Bridge.owner past = some n ∧ c.world.state.rpcRx <+: Bridge.storedFor n past := by
  obtain ⟨s, hs, hworld⟩ := (Bridge.choreography secret).exists_allowed hc
  rw [← hworld] at htrace ⊢
  obtain ⟨l, hcourse, hdepicts⟩ := Bridge.exists_course hs
  rw [htrace] at hcourse
  obtain ⟨howner, hstored⟩ := hcourse.begun
  rw [← hdepicts.shared] at hstored
  exact ⟨howner, hstored⟩

/-- The second session of a run, after one whose bytes were never taken. -/
theorem session_isolated_begun : ∃ c : Bridge.Sample, ∃ past,
    c.world.trace = ⟨.client 1, .mark (.leave .beginRpc .ok), ()⟩ :: past ∧
      Bridge.storedFor 0 past = [7, 8] ∧ Bridge.taken 0 past = [] ∧ c.world.state.rpcRx = [9] ∧
      Bridge.owner past = some 1 ∧ c.world.state.rpcRx <+: Bridge.storedFor 1 past := by
  obtain ⟨c, hc, htest⟩ := Bridge.exists_run Bridge.Script.resumes
    (fun c : Bridge.Sample =>
      c.world.trace.head?.map (fun e => (e.tid, e.op)) ==
        some (.client 1, .mark (.leave .beginRpc .ok)) &&
      (Bridge.storedFor 0 c.world.trace.tail, Bridge.taken 0 c.world.trace.tail,
        c.world.state.rpcRx) == ([7, 8], [], [9])) (by decide +kernel)
  obtain ⟨hhead, hbytes⟩ := Bool.and_eq_true_iff.mp htest
  obtain ⟨past, hpast⟩ := Bridge.exists_past (beq_iff_eq.mp hhead)
  have htail : c.world.trace.tail = past := congrArg List.tail hpast
  rw [htail] at hbytes
  obtain ⟨hstored, hrest⟩ := Prod.mk.inj (beq_iff_eq.mp hbytes)
  obtain ⟨htaken, hrpcRx⟩ := Prod.mk.inj hrest
  exact ⟨c, past, hpast, hstored, htaken, hrpcRx, session_isolated hc hpast⟩

end FlipforgeBridge
