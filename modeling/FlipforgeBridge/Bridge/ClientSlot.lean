import FlipforgeBridge.Bridge.History
import FlipforgeBridge.Bridge.Roster

/-!
One client at a time: the slot passes from the accept loop to a client task and back, and whoever
has not released it holds it.
-/
namespace FlipforgeBridge
open Process

namespace Bridge

/-! ### The slot -/

/-- Operations that neither accept nor serve a connection. -/
def slotless : Op → Bool
  | .accept | .claimClient | .releaseClient | .taskCreate (.client _) => false
  | _ => true

theorem slotless_of_idle {o : Op} (h : idle o = true) : slotless o = true := by
  cases o with
  | accept | claimClient | releaseClient => cases h
  | taskCreate kind => cases kind <;> first | rfl | cases h
  | _ => rfl

/-- The slot changes hands in order: a claim finds it free, it is released by the client it is
claimed for, or by the accept loop if that client got no task, and the accept loop does not go on
before one or the other. -/
def SlotOrder : Entry → List Entry → Prop
  | ⟨_, .claimClient, true⟩, past => claimed past = none
  | ⟨i, .releaseClient, _⟩, past => ∃ n, claimed past = some n ∧
      (i = .client n ∨ i = .server ∧ served n past = false)
  | ⟨_, .accept, _⟩, past => ∀ n, claimed past = some n → served n past = true
  | _, _ => True

/-- Only the client the slot is claimed for calls the transport. -/
def CallOrder : Entry → List Entry → Prop
  | ⟨i, .mark (.enter call), _⟩, past =>
    i = .supervisor ∧ call = .establish ∨ ∃ n, i = .client n ∧ claimed past = some n
  | _, _ => True

section Slotless
variable {i : Tid} {o : Op} {r : o.Res} {past : List Entry}

theorem lastAccepted_slotless (h : slotless o = true) :
    lastAccepted (⟨i, o, r⟩ :: past) = lastAccepted past := by
  cases o <;> first | rfl | cases h

theorem claimed_slotless (h : slotless o = true) : claimed (⟨i, o, r⟩ :: past) = claimed past := by
  cases o <;> first | rfl | cases h

theorem served_slotless (h : slotless o = true) (n : ℕ) :
    served n (⟨i, o, r⟩ :: past) = served n past := by
  cases o with
  | taskCreate kind => cases kind <;> first | rfl | cases h
  | _ => rfl

theorem served_cons (n : ℕ) (h : served n (⟨i, o, r⟩ :: past) = false) : served n past = false := by
  by_cases ho : slotless o = true
  · rwa [served_slotless ho] at h
  · cases o with
    | taskCreate kind =>
      cases kind with
      | client socket =>
        cases r with
        | false => exact h
        | true => exact (Bool.or_eq_false_iff.mp h).2
      | _ => exact h
    | _ => exact h

theorem releases_slotless (h : slotless o = true) (j : Tid) :
    releases j (⟨i, o, r⟩ :: past) = releases j past := by
  apply account_idle
  intro count
  apply if_neg
  rintro rfl
  cases h

theorem slotOrder_slotless (h : slotless o = true) : SlotOrder ⟨i, o, r⟩ past := by
  cases o <;> trivial

end Slotless

namespace Link

/-- What the trace tells of the client slot is what the link says. -/
structure SlotBooks (l : Link) (trace : List Entry) : Prop where
  claimed : claimed trace = l.server.claimed.or (l.client.map Prod.fst)
  accepted : ∀ n, l.server.socket = some n → lastAccepted trace = some n ∧
    n < l.socketsAccepted ∧ served n trace = false
  client : ∀ n, l.client.map Prod.fst = some n → l.server.claimed = none ∧
    served n trace = true ∧ releases (.client n) trace = 0
  gone : ∀ n, served n trace = true → l.client.map Prod.fst = some n ∨
    releases (.client n) trace = 1
  unserved : ∀ n, served n trace = false → releases (.client n) trace = 0
  fresh : ∀ n, l.socketsAccepted ≤ n → served n trace = false

theorem slotBooks_nil : SlotBooks {} [] where
  claimed := rfl
  accepted := by simp [ServerPhase.socket]
  client := by simp
  gone := by simp [served]
  unserved _ _ := rfl
  fresh _ _ := rfl

section Slot
variable {l l' : Link} {trace : List Entry} {e : Entry}

theorem SlotBooks.frame {i : Tid} {o : Op} {r : o.Res} (h : SlotBooks l trace)
    (ho : slotless o = true) (hserver : l'.server = l.server)
    (haccepted : l'.socketsAccepted = l.socketsAccepted)
    (hclient : l'.client.map Prod.fst = l.client.map Prod.fst) :
    SlotBooks l' (⟨i, o, r⟩ :: trace) where
  claimed := by rw [claimed_slotless ho, hserver, hclient]; exact h.claimed
  accepted := by
    intro n
    rw [lastAccepted_slotless ho, served_slotless ho, hserver, haccepted]
    exact h.accepted n
  client := by
    intro n
    rw [served_slotless ho, releases_slotless ho, hserver, hclient]
    exact h.client n
  gone := by
    intro n
    rw [served_slotless ho, releases_slotless ho, hclient]
    exact h.gone n
  unserved := by
    intro n
    rw [served_slotless ho, releases_slotless ho]
    exact h.unserved n
  fresh := by
    intro n
    rw [served_slotless ho, haccepted]
    exact h.fresh n

/-- What a step of the link keeps of the slot, and asks of it. -/
structure Kept (l' : Link) (e : Entry) (trace : List Entry) : Prop where
  books : SlotBooks l' (e :: trace)
  order : SlotOrder e trace
  calls : CallOrder e trace

theorem SlotBooks.kept {i : Tid} {o : Op} {r : o.Res} (h : SlotBooks l trace)
    (ho : slotless o = true) (hcalls : CallOrder ⟨i, o, r⟩ trace) (hserver : l'.server = l.server)
    (haccepted : l'.socketsAccepted = l.socketsAccepted)
    (hclient : l'.client.map Prod.fst = l.client.map Prod.fst) :
    Kept l' ⟨i, o, r⟩ trace where
  books := h.frame ho hserver haccepted hclient
  order := slotOrder_slotless ho
  calls := hcalls

theorem SupervisorStep.kept (h : SlotBooks l trace) (hstep : SupervisorStep l e l') :
    Kept l' e trace := by
  cases hstep with
  | enter => exact h.kept rfl (.inl ⟨rfl, rfl⟩) rfl rfl rfl
  | tidy hsup o r ho =>
    obtain rfl | rfl | ⟨handle, rfl⟩ := ho
    all_goals exact h.kept rfl trivial rfl rfl rfl
  | _ => exact h.kept rfl trivial rfl rfl rfl

theorem RxStep.kept {id : ℕ} (h : SlotBooks l trace) (hstep : RxStep l id e l') :
    Kept l' e trace := by
  cases hstep <;> exact h.kept rfl trivial rfl rfl rfl

theorem WriterStep.kept {socket : ℕ} (h : SlotBooks l trace) (hstep : WriterStep l socket e l') :
    Kept l' e trace := by
  cases hstep <;> exact h.kept rfl trivial rfl rfl rfl

theorem claimed_of_client {n : ℕ} {ph : ClientPhase} (h : SlotBooks l trace)
    (hclient : l.client = some (n, ph)) : Bridge.claimed trace = some n := by
  have hnamed : l.client.map Prod.fst = some n := by rw [hclient]; rfl
  rw [h.claimed, (h.client n hnamed).1, hnamed]
  rfl

theorem callOrder_of_client {n : ℕ} {ph : ClientPhase} {m : Mark} (h : SlotBooks l trace)
    (hclient : l.client = some (n, ph)) : CallOrder ⟨.client n, .mark m, ()⟩ trace := by
  cases m with
  | enter call => exact .inr ⟨n, rfl, claimed_of_client h hclient⟩
  | _ => trivial

/-- The client gives the slot back. -/
theorem SlotBooks.leave {n : ℕ} {ph : ClientPhase} (h : SlotBooks l trace)
    (hclient : l.client = some (n, ph)) :
    SlotBooks { l with client := none } (⟨.client n, .releaseClient, ()⟩ :: trace) := by
  have hnamed : l.client.map Prod.fst = some n := by rw [hclient]; rfl
  obtain ⟨hserver, hserved, hzero⟩ := h.client n hnamed
  have hreleases : ∀ m, m ≠ n → releases (.client m) (⟨.client n, .releaseClient, ()⟩ :: trace) =
      releases (.client m) trace := by
    intro m hm
    apply account_of_ne
    simpa using hm.symm
  have hone : releases (.client n) (⟨.client n, .releaseClient, ()⟩ :: trace) = 1 := by
    rw [releases, account_self, ← releases, hzero]
    rfl
  constructor
  case claimed =>
    change none = l.server.claimed.or none
    rw [hserver]
    rfl
  case accepted => exact h.accepted
  case client => simp
  case gone =>
    intro m hm
    apply Or.inr
    by_cases hmn : m = n
    · rw [hmn, hone]
    · rw [hreleases m hmn]
      refine (h.gone m hm).resolve_left ?_
      rw [hnamed, Option.some_inj]
      exact fun heq => hmn heq.symm
  case unserved =>
    intro m hm
    have hmn : m ≠ n := by
      rintro rfl
      exact absurd (hserved.symm.trans hm) (by simp)
    rw [hreleases m hmn]
    exact h.unserved m hm
  case fresh => exact h.fresh

theorem ClientStep.kept {n : ℕ} {ph : ClientPhase} (h : SlotBooks l trace)
    (hclient : l.client = some (n, ph)) (hstep : ClientStep l n ph e l') : Kept l' e trace := by
  have hnamed : some n = l.client.map Prod.fst := by rw [hclient]; rfl
  cases hstep with
  | respond hproxy hsession => exact h.kept rfl (callOrder_of_client h hclient) rfl rfl hnamed
  | mark hadmits hm => exact h.kept rfl (callOrder_of_client h hclient) rfl rfl rfl
  | write bytes written => exact h.kept rfl trivial rfl rfl rfl
  | «open» hsession hproxy created =>
    cases created
    · exact h.kept rfl trivial rfl rfl rfl
    · exact h.kept rfl trivial rfl rfl hnamed
  | start hsession hproxy created =>
    cases created
    · exact h.kept rfl trivial rfl rfl rfl
    · exact h.kept rfl trivial rfl rfl hnamed
  | release hsession hproxy =>
    have hclaimed := claimed_of_client h hclient
    exact ⟨h.leave hclient, ⟨n, hclaimed, .inl rfl⟩, trivial⟩
  | _ => exact h.kept rfl trivial rfl rfl hnamed

theorem SlotBooks.accept (h : SlotBooks l trace) (hserver : l.server.claimed = none) :
    SlotBooks { l with
      server := .accepted l.socketsAccepted
      socketsAccepted := l.socketsAccepted + 1 }
      (⟨.server, .accept, .ok l.socketsAccepted⟩ :: trace) where
  claimed := by
    have hclaimed := h.claimed
    rw [hserver] at hclaimed
    exact hclaimed
  accepted := by
    rintro n ⟨⟩
    exact ⟨rfl, Nat.lt_succ_self _, h.fresh _ le_rfl⟩
  client n hn := ⟨rfl, (h.client n hn).2⟩
  gone := h.gone
  unserved := h.unserved
  fresh n hn := h.fresh n (Nat.le_of_succ_le hn)

/-- The accept loop has nothing in hand any more. -/
theorem SlotBooks.listen {r : Except Errno ℕ} (h : SlotBooks l trace)
    (hserver : l.server.claimed = none) (hr : ∀ n, r ≠ .ok n) :
    SlotBooks { l with server := .listening } (⟨.server, .accept, r⟩ :: trace) := by
  cases r with
  | ok n => exact absurd rfl (hr n)
  | error errno =>
    have hclaimed := h.claimed
    rw [hserver] at hclaimed
    exact ⟨hclaimed, by simp [ServerPhase.socket], fun n hn => ⟨rfl, (h.client n hn).2⟩, h.gone,
      h.unserved, h.fresh⟩

theorem SlotBooks.claim {n : ℕ} (h : SlotBooks l trace) (hserver : l.server = .accepted n)
    (hclient : l.client = none) :
    SlotBooks { l with server := .holding n } (⟨.server, .claimClient, true⟩ :: trace) := by
  obtain ⟨hlast, hlt, hserved⟩ := h.accepted n (by rw [hserver]; rfl)
  constructor
  case claimed => rw [hclient]; exact hlast
  case accepted =>
    rintro m ⟨⟩
    exact ⟨hlast, hlt, hserved⟩
  case client => simp [hclient]
  case gone => exact h.gone
  case unserved => exact h.unserved
  case fresh => exact h.fresh

theorem SlotBooks.create {n : ℕ} (h : SlotBooks l trace) (hserver : l.server = .holding n)
    (hclient : l.client = none) :
    SlotBooks { l with server := .listening, client := some (n, managing) }
      (⟨.server, .taskCreate (.client n), true⟩ :: trace) := by
  obtain ⟨-, hlt, hserved⟩ := h.accepted n (by rw [hserver]; rfl)
  have hclaimed := h.claimed
  rw [hserver, hclient] at hclaimed
  have hserves : ∀ m, served m (⟨.server, .taskCreate (.client n), true⟩ :: trace) = true ↔
      n = m ∨ served m trace = true := by
    intro m
    simp [served]
  constructor
  case claimed => exact hclaimed
  case accepted => simp [ServerPhase.socket]
  case client =>
    rintro m ⟨⟩
    exact ⟨rfl, (hserves n).mpr (.inl rfl), h.unserved n hserved⟩
  case gone =>
    intro m hm
    obtain rfl | hm := (hserves m).mp hm
    · exact .inl rfl
    · apply Or.inr
      refine (h.gone m hm).resolve_left ?_
      simp [hclient]
  case unserved =>
    intro m hm
    refine h.unserved m (Bool.eq_false_iff.mpr fun hserved' => ?_)
    exact absurd ((hserves m).mpr (.inr hserved')) (by simp [hm])
  case fresh =>
    intro m hm
    refine Bool.eq_false_iff.mpr fun hserved' => ?_
    obtain rfl | hserved' := (hserves m).mp hserved'
    · exact absurd hm (Nat.not_le_of_lt hlt)
    · exact absurd (h.fresh m hm) (by simp [hserved'])

/-- The accept loop gives back a slot it found no task for. -/
theorem SlotBooks.abandon (h : SlotBooks l trace) (hclient : l.client = none) :
    SlotBooks { l with server := .listening } (⟨.server, .releaseClient, ()⟩ :: trace) := by
  have hreleases : ∀ m, releases (.client m) (⟨.server, .releaseClient, ()⟩ :: trace) =
      releases (.client m) trace := fun m => account_of_ne (by simp)
  constructor
  case claimed => rw [hclient]; rfl
  case accepted => simp [ServerPhase.socket]
  case client => simp [hclient]
  case gone =>
    intro m
    rw [hreleases]
    exact h.gone m
  case unserved =>
    intro m
    rw [hreleases]
    exact h.unserved m
  case fresh => exact h.fresh

theorem claimed_eq_none_of_idle {server : ServerPhase} (h : ∀ socket, server ≠ .holding socket) :
    server.claimed = none := by
  cases server with
  | holding socket => exact absurd rfl (h socket)
  | _ => rfl

theorem ServerStep.kept (h : SlotBooks l trace) (hstep : ServerStep l e l') : Kept l' e trace := by
  cases hstep with
  | accept hholding =>
    have hserver := claimed_eq_none_of_idle hholding
    refine ⟨h.accept hserver, fun n hn => ?_, trivial⟩
    rw [h.claimed, hserver] at hn
    exact (h.client n hn).2.1
  | acceptNone hholding errno =>
    have hserver := claimed_eq_none_of_idle hholding
    refine ⟨h.listen hserver (by simp), fun n hn => ?_, trivial⟩
    rw [h.claimed, hserver] at hn
    exact (h.client n hn).2.1
  | claim hserver hclient =>
    refine ⟨h.claim hserver hclient, ?_, trivial⟩
    change Bridge.claimed trace = none
    rw [h.claimed, hserver, hclient]
    rfl
  | busy hserver hclient =>
    exact ⟨⟨h.claimed, h.accepted, h.client, h.gone, h.unserved, h.fresh⟩, trivial, trivial⟩
  | send hserver bytes result => exact h.kept rfl trivial rfl rfl rfl
  | mark hserver request status payload => exact h.kept rfl trivial rfl rfl rfl
  | create hserver hclient => exact ⟨h.create hserver hclient, trivial, trivial⟩
  | createNone hserver =>
    exact ⟨⟨h.claimed, h.accepted, h.client, h.gone, h.unserved, h.fresh⟩, trivial, trivial⟩
  | release hserver hclient =>
    refine ⟨h.abandon hclient, ?_, trivial⟩
    obtain ⟨-, -, hserved⟩ := h.accepted _ (by rw [hserver]; rfl)
    refine ⟨_, ?_, .inr ⟨rfl, hserved⟩⟩
    rw [h.claimed, hserver]
    rfl

theorem callOrder_of_idle {i : Tid} {o : Op} {r : o.Res} (h : idle o = true) :
    CallOrder ⟨i, o, r⟩ trace := by
  cases o <;> trivial

theorem Step.kept (h : SlotBooks l trace) (hstep : l.Step e l') : Kept l' e trace := by
  cases hstep with
  | supervisor hstep => exact hstep.kept h
  | rx hstep => exact hstep.kept h
  | writer hstep => exact hstep.kept h
  | client hclient hstep => exact hstep.kept h hclient
  | server hstep => exact hstep.kept h
  | heartbeatLost id reason => exact h.kept rfl trivial rfl rfl rfl
  | heartbeat id bytes written => exact h.kept rfl trivial rfl rfl rfl
  | idle ho r => exact h.kept (slotless_of_idle ho) (callOrder_of_idle ho) rfl rfl rfl

theorem Course.slotBooks (h : Course trace l) : SlotBooks l trace ∧ Justified SlotOrder trace ∧
    Justified CallOrder trace := by
  induction h with
  | nil => exact ⟨slotBooks_nil, trivial, trivial⟩
  | cons _ hstep ih =>
    obtain ⟨hbooks, horder, hcalls⟩ := ih
    have hkept := hstep.kept hbooks
    exact ⟨hkept.books, ⟨hkept.order, horder⟩, ⟨hkept.calls, hcalls⟩⟩

end Slot
end Link

/-! ### Runs of the firmware -/

/-- A client task lives only after it was created. -/
theorem effect_live_client {i : Tid} {o : Op} {r : o.Res} {st st' : State} {n : ℕ}
    (h : effect i o r st = some st') (hlive : st'.live (.client n) = true) (past : List Entry) :
    st.live (.client n) = true ∨ served n (⟨i, o, r⟩ :: past) = true := by
  rw [effect_live h rfl, Bool.or_eq_true, decide_eq_true_eq] at hlive
  obtain hnew | hold := hlive
  · apply Or.inr
    cases o with
    | taskCreate kind =>
      cases kind <;> cases r <;> cases hnew
      simp [served]
    | _ => cases hnew
  · exact .inl (Bool.and_eq_true_iff.mp hold).1

theorem served_mono {e : Entry} {past : List Entry} {n : ℕ} (h : served n past = true) :
    served n (e :: past) = true := by
  by_contra hn
  exact absurd ((served_cons n (Bool.eq_false_iff.mpr hn)).symm.trans h) (by simp)

theorem served_of_live {s : (choreography secret).Scene} (hs : (choreography secret).Allowed s)
    {n : ℕ} (hlive : s.world.state.live (.client n) = true) : served n s.world.trace = true := by
  revert hlive
  induction hs with
  | refl => simp [Choreography.opening]
  | @tail s s' _ hstep ih =>
    intro hlive
    cases hstep with | @mk i o r ph st live role heffect =>
    obtain hbefore | hcreated := effect_live_client heffect hlive s.world.trace
    · exact served_mono (ih hbefore)
    · exact hcreated

/-- The client slot over a whole run. Of the client tasks at most one has not released the slot,
which is then claimed for it; a client task releases it once, before it ends. -/
structure SlotKept (w : (bridge secret).World) : Prop where
  single : ∀ n m, w.state.live (.client n) = true → w.state.live (.client m) = true →
    releases (.client n) w.trace = 0 → releases (.client m) w.trace = 0 → n = m
  holder : ∀ n, w.state.live (.client n) = true → releases (.client n) w.trace = 0 →
    claimed w.trace = some n
  active : w.state.clientActive = (claimed w.trace).isSome
  ended : ∀ n, served n w.trace = true → w.state.live (.client n) = false →
    releases (.client n) w.trace = 1
  once : ∀ n, releases (.client n) w.trace ≤ 1
  order : Justified SlotOrder w.trace
  calls : Justified CallOrder w.trace

theorem slotKept_of_allowed {s : (choreography secret).Scene}
    (hs : (choreography secret).Allowed s) :
    SlotKept s.world := by
  obtain ⟨l, hcourse, hdepicts⟩ := exists_course hs
  obtain ⟨hbooks, horder, hcalls⟩ := hcourse.slotBooks
  have hclaimed : ∀ n, l.client.map Prod.fst = some n → claimed s.world.trace = some n := by
    intro n hn
    rw [hbooks.claimed, (hbooks.client n hn).1]
    exact hn
  have hholder : ∀ n, s.world.state.live (.client n) = true →
      releases (.client n) s.world.trace = 0 → claimed s.world.trace = some n := by
    intro n hlive hreleases
    have hserved := served_of_live hs hlive
    refine hclaimed n ((hbooks.gone n hserved).resolve_right ?_)
    rw [hreleases]
    exact Nat.zero_ne_one
  exact {
    single := by
      intro n m hn hm hn' hm'
      have hboth := (hholder n hn hn').symm.trans (hholder m hm hm')
      exact Option.some_inj.mp hboth
    holder := hholder
    active := by
      have hactive := hdepicts.clientBooks.active
      rw [hbooks.claimed, Option.isSome_or]
      change _ = (l.server.claimed.isSome || l.holder.isSome) at hactive
      rw [Link.holder, Option.isSome_map] at hactive
      rw [Option.isSome_map]
      exact hactive
    ended := by
      intro n hserved hdead
      refine (hbooks.gone n hserved).resolve_left fun hclient => ?_
      obtain ⟨⟨m, ph⟩, hph, rfl⟩ := Option.map_eq_some_iff.mp hclient
      exact absurd ((hdepicts.client_live hph).1.symm.trans hdead) (by simp)
    once := by
      intro n
      by_cases hserved : served n s.world.trace = true
      · obtain hclient | hone := hbooks.gone n hserved
        · rw [(hbooks.client n hclient).2.2]
          exact Nat.zero_le 1
        · rw [hone]
      · rw [hbooks.unserved n (Bool.eq_false_iff.mpr hserved)]
        exact Nat.zero_le 1
    order := horder
    calls := hcalls }

end Bridge

/-- The client slot is kept in order in every run of the firmware. -/
theorem client_slot_kept {secret : Vector UInt8 bridgePairingSecretBytes}
    {c : System.Config (bridge secret)} (hc : System.Reachable c) : Bridge.SlotKept c.world := by
  obtain ⟨s, hs, hworld⟩ := (Bridge.choreography secret).exists_allowed hc
  rw [← hworld]
  exact Bridge.slotKept_of_allowed hs

/-- After a connection that gave back the slot. -/
theorem client_slot_kept_released : ∃ c : Bridge.Sample,
    Bridge.releases (.client 0) c.world.trace = 1 ∧ Bridge.SlotKept c.world := by
  obtain ⟨c, hc, htest⟩ := Bridge.exists_run Bridge.Script.releases
    (fun c : Bridge.Sample => Bridge.releases (.client 0) c.world.trace == 1) (by decide +kernel)
  exact ⟨c, beq_iff_eq.mp htest, client_slot_kept hc⟩

end FlipforgeBridge
