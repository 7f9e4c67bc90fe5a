import FlipforgeBridge.Process.Choreography
import FlipforgeBridge.Expansion.Traversal

/-!
The retry policy of the supervisor. `establish_expansion` may end in any way, the link may be
lost at any time and any number of clients may ask for a retry whenever they like.
-/
namespace FlipforgeBridge
open Process

namespace Reconnection

inductive Tid
  | supervisor
  | client (n : ℕ)
  | monitor (reason : LossReason)
  deriving DecidableEq

/-- A client that keeps asking for a retry. -/
def requester : Routine Unit :=
  .loop () fun _ => do
    expansionTransportRequestReconnect
    return (.inl () : Unit ⊕ Unit)

/-- A task that keeps finding the link lost. -/
def monitor (reason : LossReason) : Routine Unit :=
  .loop () fun _ => do
    signalLinkLost reason
    return (.inl () : Unit ⊕ Unit)

/-- The event group. The STOP bit may be found set at any time. -/
def effect : (o : Op) → o.Res → EventBits → Option EventBits
  | .setLost _, _, bits => some { bits with lost := true }
  | .setReady, _, bits => some { bits with ready := true }
  | .setReconnect, _, bits => some { bits with reconnect := true }
  | .clearReconnect, _, bits => some { bits with reconnect := false }
  | .clearLostReady, _, bits => some { bits with lost := false, ready := false }
  | .clearReady, _, bits => some { bits with ready := false }
  | .eventBits, seen, bits => if seen = { bits with stop := seen.stop } then some bits else none
  | .waitRetry, seen, bits =>
    if seen = { bits with stop := seen.stop } ∧ (seen.reconnect || seen.stop) then
      some { bits with reconnect := false }
    else none
  | .waitLost, seen, bits =>
    if seen = { bits with stop := seen.stop } ∧ (seen.lost || seen.stop) then some bits
    else none
  | _, _, bits => some bits

abbrev supervision : System platform where
  Tid := Tid
  State := EventBits
  init := {}
  effect _ := effect
  live _ _ := true
  code
    | .supervisor => expansionSupervisorTask (op (.transport .establish))
    | .client _ => requester
    | .monitor reason => monitor reason

abbrev Entry := Label platform Tid

def succeeded (l : Entry) : Bool :=
  match l with
  | ⟨_, .transport .establish, error⟩ => error = EspErr.ok
  | _ => false

def failed (l : Entry) : Bool :=
  match l with
  | ⟨_, .transport .establish, error⟩ => error ≠ EspErr.ok
  | _ => false

def requested (l : Entry) : Bool :=
  match l.op with
  | .setReconnect => true
  | _ => false

def lost (l : Entry) : Bool :=
  match l.op with
  | .waitLost => true
  | _ => false

def woken (l : Entry) : Bool :=
  match l.op with
  | .waitRetry => true
  | _ => false

/-- The link came up or was lost. -/
def changed (l : Entry) : Bool := succeeded l || lost l

/-- What happened after the last reset. -/
def since (reset : Entry → Bool) (trace : List Entry) : List Entry :=
  trace.takeWhile fun l => !reset l

def failures (reset : Entry → Bool) (trace : List Entry) : ℕ := (since reset trace).countP failed

def requests (reset : Entry → Bool) (trace : List Entry) : ℕ :=
  (since reset trace).countP requested

/-- A request is set in the event group. -/
def pending : List Entry → Bool
  | [] => false
  | l :: past =>
    match l.op with
    | .setReconnect => true
    | .clearReconnect | .waitRetry => false
    | _ => pending past

/-- The supervisor sees the link lost with no request pending. -/
def ClearAtLoss (l : Entry) (past : List Entry) : Prop := lost l → pending past = false

instance (l : Entry) (past : List Entry) : Decidable (ClearAtLoss l past) :=
  inferInstanceAs (Decidable (_ → _))

/-- Past the limit the supervisor only goes on when stopped, or after a request made since the
link last changed and since it last woke. -/
def Waits (l : Entry) (past : List Entry) : Prop :=
  match l with
  | ⟨_, .waitRetry, seen⟩ =>
    seen.stop ∨ ∃ l' ∈ since (fun l' => changed l' || woken l') past, requested l'
  | _ => True

/-! ### The role of the supervisor -/

inductive Phase
  | boot
  | idle (attempts : ℕ)
  | linked
  | stopped

/-- Operations that neither try the link nor touch the RECONNECT bit. -/
def quiet : Op → Bool
  | .setReconnect | .clearReconnect | .waitRetry | .waitLost | .transport .establish => false
  | _ => true

def next : Phase → (o : Op) → o.Res → Option Phase
  | .boot, .clearReconnect, _ => some (.idle 0)
  | .idle attempts, .transport .establish, error =>
    if attempts < bridgeExpansionMaxRetries then
      some (if error = EspErr.ok then .linked else .idle (attempts + 1))
    else none
  | .idle attempts, .waitRetry, seen =>
    if bridgeExpansionMaxRetries ≤ attempts then some (if seen.stop then .stopped else .idle 0)
    else none
  | .linked, .waitLost, _ => some (.idle 1)
  | ph, o, _ => if quiet o then some ph else none

theorem next_quiet {ph : Phase} {o : Op} (h : quiet o = true) (r : o.Res) :
    next ph o r = some ph := by
  unfold next
  split <;> simp_all [quiet]

theorem keeps_quiet {ph : Phase} {o : Op} (h : quiet o = true) : (op o).Keeps next ph :=
  keeps_last (next_quiet h)

theorem keeps_of_quiet {α : Type} {p : Routine α} (ph : Phase) (hp : p.Only (quiet · = true)) :
    p.Keeps next ph := Prog.Only.keeps (hp.mono fun _ ho => next_quiet ho)

theorem releaseExpansionPins_quiet (ph : Phase) : releaseExpansionPins.Keeps next ph :=
  keeps_of_quiet ph (releaseExpansionPins_only rfl rfl)

/-- Where the supervisor is at the points of its loop. -/
def supervisorWalk : SupervisorWalk next (op (.transport .establish)) where
  waiting attempts ph := ph = .idle attempts
  trying attempts ph := attempts < bridgeExpansionMaxRetries ∧ ph = .idle attempts
  failed attempts ph := ph = .idle (attempts + 1)
  linked ph := ph = .linked
  receiving ph := ph = .linked
  unmanned ph := ph = .linked
  manned ph := ph = .linked
  lost ph := ph = .idle 1
  closed ph := ph = .idle 1
  reopening ph := ph = .idle 1
  ending _ := True
  running := by
    rintro attempts _ rfl
    refine follows_last fun running => ⟨.idle attempts, rfl, ?_⟩
    cases running <;> trivial
  retry := by
    rintro attempts _ rfl hlimit
    refine .bind (releaseExpansionPins_quiet _) ?_
    rintro _ _ rfl
    refine follows_last fun wake => ⟨_, if_pos hlimit, ?_⟩
    cases hstop : wake.stop with
    | true => trivial
    | false => exact ⟨by decide, rfl⟩
  early h hlimit := ⟨hlimit, h⟩
  attempt := by
    rintro attempts _ ⟨hlimit, rfl⟩
    refine follows_op fun _ => ⟨.idle attempts, rfl, ?_⟩
    refine follows_last fun error => ⟨_, if_pos hlimit, ?_⟩
    split <;> rfl
  retreat := by
    rintro attempts _ rfl
    refine .bind (releaseExpansionPins_quiet _) ?_
    rintro _ _ rfl
    exact follows_stay (next_quiet rfl) fun _ => follows_stay (next_quiet rfl) fun _ =>
      follows_pure rfl
  receive := by
    rintro _ rfl
    exact follows_either (keeps_op (next_quiet rfl) fun _ => keeps_quiet rfl)
  beat := by
    rintro _ rfl
    exact follows_either (keeps_quiet rfl)
  alarm := by
    rintro _ rfl
    exact keeps_op (next_quiet rfl) fun _ => keeps_quiet rfl
  watch := by
    rintro _ rfl
    exact follows_stay (next_quiet rfl) fun _ => follows_last fun _ => ⟨.idle 1, rfl, rfl⟩
  stop := by
    rintro _ rfl
    have hquiet : stopIoTasks.Only (quiet · = true) := by
      apply stopIoTasks_only
      intro o ho
      cases o <;> first | rfl | cases ho
    exact (keeps_of_quiet _ hquiet).bind fun _ => keeps_quiet rfl
  look := by
    rintro _ rfl
    refine follows_last fun bits => ⟨.idle 1, rfl, ?_⟩
    split
    · trivial
    · rfl
  reopen := by
    rintro _ rfl
    refine follows_stay (next_quiet rfl) fun _ => follows_stay (next_quiet rfl) fun _ => ?_
    refine .bind (releaseExpansionPins_quiet _) ?_
    rintro _ _ rfl
    exact follows_stay (next_quiet rfl) fun _ => follows_pure rfl

theorem supervisor_follows :
    (expansionSupervisorTask (op (.transport .establish))).Follows next (fun _ _ => True)
      .boot := by
  apply supervisorWalk.follows
  · exact follows_op fun _ => ⟨.idle 0, rfl, follows_last fun _ => ⟨.idle 0, rfl, rfl⟩⟩
  · exact fun ph _ => follows_stay (next_quiet rfl) fun _ =>
      follows_last fun _ => ⟨ph, next_quiet rfl _, trivial⟩

/-- The other tasks may ask for a retry, and leave the link alone. -/
def bystander (ph : Phase) (o : Op) (_ : o.Res) : Option Phase :=
  if quiet o || o = .setReconnect then some ph else none

theorem requester_follows {ph : Phase} :
    requester.Follows bystander (fun _ _ => True) ph := by
  refine .loop (fun _ _ => True) trivial fun _ ph _ => ?_
  exact follows_op fun _ => ⟨ph, if_pos rfl, follows_pure trivial⟩

theorem monitor_follows {reason : LossReason} {ph : Phase} :
    (monitor reason).Follows bystander (fun _ _ => True) ph := by
  refine .loop (fun _ _ => True) trivial fun _ ph _ => ?_
  refine .bind (S := fun _ _ => True) ?_ fun _ _ _ => follows_pure trivial
  refine follows_op fun _ => ⟨ph, rfl, ?_⟩
  exact follows_last fun _ => ⟨ph, rfl, trivial⟩

def choreography : Choreography supervision where
  Phase _ := Phase
  next
    | .supervisor => next
    | _ => bystander
  entry _ := .boot
  follows
    | .supervisor => supervisor_follows
    | .client _ => requester_follows
    | .monitor _ => monitor_follows

/-! ### The invariant -/

section Budget
variable {reset : Entry → Bool} {l : Entry} {past : List Entry}

theorem since_cons (h : reset l = false) : since reset (l :: past) = l :: since reset past := by
  simp [since, h]

theorem failures_cons : failures reset (l :: past) =
    if reset l then 0 else failures reset past + if failed l then 1 else 0 := by
  unfold failures since
  cases h : reset l
  · simp [h, List.countP_cons]
  · simp [h]

theorem requests_cons : requests reset (l :: past) =
    if reset l then 0 else requests reset past + if requested l then 1 else 0 := by
  unfold requests since
  cases h : reset l
  · simp [h, List.countP_cons]
  · simp [h]

/-- An entry that counts for nothing. -/
structure Blank (l : Entry) (past : List Entry) : Prop where
  failed : failed l = false
  requested : requested l = false
  changed : changed l = false
  woken : woken l = false
  pending : pending (l :: past) = pending past

theorem blank_of_quiet {o : Op} (h : quiet o = true) (i : Tid) (r : o.Res) (past : List Entry) :
    Blank ⟨i, o, r⟩ past := by
  cases o with
  | transport call => cases call <;> first | exact ⟨rfl, rfl, rfl, rfl, rfl⟩ | cases h
  | _ => first | exact ⟨rfl, rfl, rfl, rfl, rfl⟩ | cases h

/-- Each round of attempts after the first has used up a request of its own. -/
def Budgeted (reset : Entry → Bool) : Phase → List Entry → Prop
  | .idle attempts, past =>
    attempts ≤ bridgeExpansionMaxRetries ∧
      failures reset past + 3 * (pending past).toNat ≤ attempts + 3 * requests reset past
  | .stopped, past => failures reset past ≤ 3 * (1 + requests reset past)
  | _, past => failures reset past = 0

theorem Budgeted.bound {ph : Phase} (h : Budgeted reset ph past) :
    failures reset past ≤ 3 * (1 + requests reset past) := by
  cases ph with
  | idle attempts =>
    obtain ⟨hle, hbound⟩ := h
    have : attempts ≤ 3 := hle
    omega
  | stopped => exact h
  | boot => exact le_of_eq_of_le h (Nat.zero_le _)
  | linked => exact le_of_eq_of_le h (Nat.zero_le _)

theorem Budgeted.of_le {ph : Phase} {past' : List Entry} (h : Budgeted reset ph past)
    (hfailures : failures reset past' = failures reset past)
    (hrequests : requests reset past + (pending past').toNat ≤
      requests reset past' + (pending past).toNat)
    (hmore : requests reset past ≤ requests reset past') : Budgeted reset ph past' := by
  cases ph with
  | idle attempts =>
    obtain ⟨hle, hbound⟩ := h
    exact ⟨hle, by omega⟩
  | stopped =>
    have hbound : failures reset past ≤ 3 * (1 + requests reset past) := h
    change failures reset past' ≤ 3 * (1 + requests reset past')
    omega
  | boot => exact hfailures.trans h
  | linked => exact hfailures.trans h

theorem Budgeted.quiet {ph : Phase} {i : Tid} {o : Op} {r : o.Res} (h : Budgeted reset ph past)
    (hreset : reset ⟨i, o, r⟩ = false) (ho : quiet o = true) :
    Budgeted reset ph (⟨i, o, r⟩ :: past) := by
  have hblank := blank_of_quiet ho i r past
  refine h.of_le (by simp [failures_cons, hreset, hblank.failed]) ?_ ?_ <;>
    simp [requests_cons, hreset, hblank.requested, hblank.pending]

theorem Budgeted.request {ph : Phase} {i : Tid} (h : Budgeted reset ph past)
    (hreset : reset ⟨i, .setReconnect, ()⟩ = false) :
    Budgeted reset ph (⟨i, .setReconnect, ()⟩ :: past) := by
  have hrequests : requests reset (⟨i, .setReconnect, ()⟩ :: past) = requests reset past + 1 := by
    simp [requests_cons, hreset, requested]
  refine h.of_le (by simp [failures_cons, hreset, failed]) ?_ ?_
  · rw [hrequests]
    change _ + 1 ≤ _
    omega
  · omega

/-- Woken without being stopped: there was a request. -/
def Woken (l : Entry) (past : List Entry) : Prop :=
  match l with
  | ⟨_, .waitRetry, seen⟩ => seen.stop = false → pending past = true
  | _ => True

/-- What one move of the supervisor does to the budget, for a reset that every success is and
that only a change of the link can be. -/
theorem Budgeted.step (hchanged : ∀ l, reset l = true → changed l = true)
    (hsucceeded : ∀ l, succeeded l = true → reset l = true) {ph ph' : Phase} {i : Tid} {o : Op}
    {r : o.Res} (h : Budgeted reset ph past) (hclear : ClearAtLoss ⟨i, o, r⟩ past)
    (hwoken : Woken ⟨i, o, r⟩ past) (hrole : next ph o r = some ph') :
    Budgeted reset ph' (⟨i, o, r⟩ :: past) := by
  have hreset : ∀ l, changed l = false → reset l = false := by
    intro l hl
    by_contra hne
    rw [hchanged l (Bool.of_not_eq_false hne)] at hl
    cases hl
  unfold next at hrole
  split at hrole
  · cases hrole
    have hzero : failures reset past = 0 := h
    refine ⟨Nat.zero_le _, ?_⟩
    rw [failures_cons, hreset _ rfl]
    simp [failed, pending, hzero]
  · next attempts error =>
    obtain ⟨hlimit, hph⟩ := Option.ite_none_right_eq_some.mp hrole
    obtain ⟨-, hbound⟩ := h
    cases hph
    by_cases herror : error = .ok
    · rw [if_pos herror]
      change failures reset _ = 0
      rw [failures_cons, if_pos (hsucceeded _ (by simp [succeeded, herror]))]
    · rw [if_neg herror]
      have hno : reset ⟨i, .transport .establish, error⟩ = false :=
        hreset _ (by simp [changed, succeeded, lost, herror])
      have hf : failures reset (⟨i, .transport .establish, error⟩ :: past) =
          failures reset past + 1 := by simp [failures_cons, hno, failed, herror]
      have hr : requests reset (⟨i, .transport .establish, error⟩ :: past) =
          requests reset past := by simp [requests_cons, hno, requested]
      refine ⟨hlimit, ?_⟩
      rw [hf, hr]
      change _ + 3 * (pending past).toNat ≤ _
      omega
  · next attempts seen =>
    obtain ⟨hlimit, hph⟩ := Option.ite_none_right_eq_some.mp hrole
    cases hph
    have hno : reset ⟨i, .waitRetry, seen⟩ = false := hreset _ rfl
    have hf : failures reset (⟨i, .waitRetry, seen⟩ :: past) = failures reset past := by
      simp [failures_cons, hno, failed]
    have hr : requests reset (⟨i, .waitRetry, seen⟩ :: past) = requests reset past := by
      simp [requests_cons, hno, requested]
    cases hstop : seen.stop with
    | false =>
      obtain ⟨hle, hbound⟩ := h
      rw [show pending past = true from hwoken hstop] at hbound
      refine ⟨Nat.zero_le _, ?_⟩
      rw [hf, hr]
      change failures reset past + 0 ≤ _
      simp only [Bool.toNat_true, bridgeExpansionMaxRetries] at hbound hle
      omega
    | true =>
      have hbound := h.bound
      rw [← hf, ← hr] at hbound
      exact hbound
  · cases hrole
    have hzero : failures reset past = 0 := h
    have hpending : pending past = false := hclear rfl
    refine ⟨by decide, ?_⟩
    rw [failures_cons]
    simp [failed, pending, hzero, hpending]
  · obtain ⟨ho, hph⟩ := Option.ite_none_right_eq_some.mp hrole
    cases hph
    exact h.quiet (hreset _ (blank_of_quiet ho i r past).changed) ho

end Budget

/-- A pending request was made since the link last changed and the supervisor last woke. -/
def Fresh (ph : Phase) (past : List Entry) : Prop :=
  ph ≠ .linked → pending past = true →
    ∃ l ∈ since (fun l => changed l || woken l) past, requested l

section Fresh
variable {past : List Entry} {ph : Phase} {i : Tid} {o : Op} {r : o.Res}

theorem Fresh.quiet (h : Fresh ph past) (ho : quiet o = true) :
    Fresh ph (⟨i, o, r⟩ :: past) := by
  have hblank := blank_of_quiet ho i r past
  intro hph hset
  rw [hblank.pending] at hset
  obtain ⟨l, hl, hrequested⟩ := h hph hset
  refine ⟨l, ?_, hrequested⟩
  rw [since_cons (by simp [hblank.changed, hblank.woken])]
  exact .tail _ hl

theorem Fresh.request : Fresh ph (⟨i, .setReconnect, ()⟩ :: past) := by
  intro _ _
  exact ⟨⟨i, .setReconnect, ()⟩, by simp [since, changed, succeeded, lost, woken], rfl⟩

theorem Fresh.of_clear (h : pending past = false) : Fresh ph past := by
  intro _ hset
  rw [h] at hset
  cases hset

theorem Fresh.step {ph' : Phase} (h : Fresh ph past) (hclear : ClearAtLoss ⟨i, o, r⟩ past)
    (hrole : next ph o r = some ph') : Fresh ph' (⟨i, o, r⟩ :: past) := by
  unfold next at hrole
  split at hrole
  · cases hrole
    exact .of_clear rfl
  · next attempts error =>
    obtain ⟨-, hph⟩ := Option.ite_none_right_eq_some.mp hrole
    cases hph
    by_cases herror : error = .ok
    · rw [if_pos herror]
      exact fun hne => absurd rfl hne
    · rw [if_neg herror]
      intro _ hset
      obtain ⟨l, hl, hrequested⟩ := h nofun hset
      refine ⟨l, ?_, hrequested⟩
      rw [since_cons (by simp [changed, succeeded, lost, woken, herror])]
      exact .tail _ hl
  · exact .of_clear rfl
  · exact .of_clear (hclear rfl)
  · obtain ⟨ho, hph⟩ := Option.ite_none_right_eq_some.mp hrole
    cases hph
    exact h.quiet ho

end Fresh

/-- The event group holds the request the trace shows. -/
theorem effect_reconnect {past : List Entry} {i : Tid} {o : Op} {r : o.Res}
    {bits bits' : EventBits} (h : bits.reconnect = pending past)
    (heffect : effect o r bits = some bits') :
    bits'.reconnect = pending (⟨i, o, r⟩ :: past) ∧ Woken ⟨i, o, r⟩ past := by
  cases o with
  | eventBits =>
    obtain ⟨-, hbits⟩ := Option.ite_none_right_eq_some.mp heffect
    cases hbits
    exact ⟨h, trivial⟩
  | waitRetry =>
    obtain ⟨⟨hseen, hset⟩, hbits⟩ := Option.ite_none_right_eq_some.mp heffect
    cases hbits
    refine ⟨rfl, fun hstop => ?_⟩
    rw [hstop, Bool.or_false, hseen] at hset
    exact h ▸ hset
  | waitLost =>
    obtain ⟨-, hbits⟩ := Option.ite_none_right_eq_some.mp heffect
    cases hbits
    exact ⟨h, trivial⟩
  | setReconnect =>
    cases heffect
    exact ⟨rfl, trivial⟩
  | clearReconnect =>
    cases heffect
    exact ⟨rfl, trivial⟩
  | _ =>
    cases heffect
    exact ⟨h, trivial⟩

structure Holds (s : choreography.Scene) : Prop where
  reconnect : s.world.state.reconnect = pending s.world.trace
  sinceSuccess : Budgeted succeeded (s.phase .supervisor) s.world.trace
  sinceChange : Budgeted changed (s.phase .supervisor) s.world.trace
  fresh : Fresh (s.phase .supervisor) s.world.trace
  waits : Justified Waits s.world.trace

theorem holds_opening : Holds choreography.opening where
  reconnect := rfl
  sinceSuccess := rfl
  sinceChange := rfl
  fresh := .of_clear rfl
  waits := justified_nil _

/-- What every task but the supervisor can do. -/
theorem bystander_cases {ph ph' : Phase} {o : Op} {r : o.Res} (h : bystander ph o r = some ph') :
    quiet o = true ∨ o = .setReconnect := by
  obtain ⟨ho, -⟩ := Option.ite_none_right_eq_some.mp h
  simpa using ho

theorem waits_of_quiet {i : Tid} {o : Op} {r : o.Res} {past : List Entry}
    (h : quiet o = true ∨ o = .setReconnect) : Waits ⟨i, o, r⟩ past := by
  cases o with
  | waitRetry => simp [quiet] at h
  | _ => trivial

theorem waits_of_fresh {ph ph' : Phase} {i : Tid} {o : Op} {r : o.Res} {past : List Entry}
    (h : Fresh ph past) (hwoken : Woken ⟨i, o, r⟩ past) (hrole : next ph o r = some ph') :
    Waits ⟨i, o, r⟩ past := by
  cases o with
  | waitRetry =>
    cases hstop : r.stop with
    | true => exact .inl hstop
    | false =>
      refine .inr (h ?_ (hwoken hstop))
      rintro rfl
      cases hrole
  | _ => trivial

theorem holds_step {s : choreography.Scene} {i : Tid} {o : Op} {r : o.Res} {ph : Phase}
    {st : EventBits} (h : Holds s) (live : supervision.live s.world.state i = true)
    (role : choreography.next i (s.phase i) o r = some ph)
    (heffect : effect o r s.world.state = some st)
    (hclear : ClearAtLoss ⟨i, o, r⟩ s.world.trace) :
    Holds (s.moved i ph ⟨st, ⟨i, o, r⟩ :: s.world.trace⟩) := by
  obtain ⟨hreconnect, hwoken⟩ := effect_reconnect (i := i) h.reconnect heffect
  by_cases hi : i = .supervisor
  · subst hi
    have hphase := s.moved_phase_self ph (w := ⟨st, ⟨.supervisor, o, r⟩ :: s.world.trace⟩) live
    constructor
    · exact hreconnect
    · rw [hphase]
      exact h.sinceSuccess.step (by simp +contextual [changed]) (fun _ hl => hl) hclear hwoken role
    · rw [hphase]
      exact h.sinceChange.step (fun _ hl => hl) (by simp +contextual [changed]) hclear hwoken role
    · rw [hphase]
      exact h.fresh.step hclear role
    · exact ⟨waits_of_fresh h.fresh hwoken role, h.waits⟩
  · have hphase := s.moved_phase_of_ne ph (w := ⟨st, ⟨i, o, r⟩ :: s.world.trace⟩)
      (Ne.symm hi) (.inl rfl)
    have ho : quiet o = true ∨ o = .setReconnect := by
      cases i with
      | supervisor => exact absurd rfl hi
      | client n => exact bystander_cases (r := r) role
      | monitor reason => exact bystander_cases (r := r) role
    have hwaits : Waits ⟨i, o, r⟩ s.world.trace := waits_of_quiet ho
    rcases ho with ho | rfl
    · have hblank := blank_of_quiet ho i r s.world.trace
      constructor
      · exact hreconnect
      · rw [hphase]
        refine h.sinceSuccess.quiet ?_ ho
        exact (Bool.or_eq_false_iff.mp hblank.changed).1
      · rw [hphase]
        exact h.sinceChange.quiet hblank.changed ho
      · rw [hphase]
        exact h.fresh.quiet ho
      · exact ⟨hwaits, h.waits⟩
    · constructor
      · exact hreconnect
      · rw [hphase]
        exact h.sinceSuccess.request rfl
      · rw [hphase]
        exact h.sinceChange.request rfl
      · rw [hphase]
        exact .request
      · exact ⟨hwaits, h.waits⟩

theorem allowed_holds {s : choreography.Scene} (hs : choreography.Allowed s)
    (hclear : Justified ClearAtLoss s.world.trace) : Holds s := by
  refine Choreography.Allowed.induction
    (I := fun s => Justified ClearAtLoss s.world.trace → Holds s) ?_ ?_ hs hclear
  · exact fun _ => holds_opening
  · rintro s _ - ih (@⟨i, o, r, ph, st, live, role, effect⟩) ⟨hclear, hpast⟩
    exact holds_step (ih hpast) live role effect hclear

end Reconnection

/-- If no request is pending whenever the supervisor sees the link lost, then the failed attempts
since the last success, and since the link last changed, stay within three for each request and
three more, and past the limit the supervisor waits for a new request. -/
theorem reconnection_bounded {c : System.Config Reconnection.supervision}
    (hc : System.Reachable c)
    (hclear : Justified Reconnection.ClearAtLoss c.world.trace) :
    Reconnection.failures Reconnection.succeeded c.world.trace ≤
        3 * (1 + Reconnection.requests Reconnection.succeeded c.world.trace) ∧
      Reconnection.failures Reconnection.changed c.world.trace ≤
        3 * (1 + Reconnection.requests Reconnection.changed c.world.trace) ∧
      Justified Reconnection.Waits c.world.trace := by
  obtain ⟨s, hs, hw⟩ := Reconnection.choreography.exists_allowed hc
  rw [← hw] at hclear ⊢
  have h := Reconnection.allowed_holds hs hclear
  exact ⟨h.sinceSuccess.bound, h.sinceChange.bound, h.waits⟩

namespace Reconnection

/-- What the event group shows, how an attempt ends, and otherwise the smooth case. -/
def answers (seen : EventBits) (error : EspErr) : (o : Op) → o.Res
  | .eventBits | .waitRetry | .waitLost => seen
  | .transport .establish => error
  | o => o.smooth

/-- The link comes up, is lost and cannot be had again. A client asks for a retry once, either
before the link comes up or when the supervisor has reached its limit. -/
def outage (early : Bool) : List (System.Choice supervision) :=
  let ask := [(.client 0, Op.smooth)]
  .replicate 2 (.supervisor, Op.smooth) ++ (if early then ask else []) ++
  .replicate 7 (.supervisor, Op.smooth) ++
  .replicate 2 (.monitor .uartRead, answers { ready := true, reconnect := early } .fail) ++
  .replicate 6 (.supervisor, answers { lost := true, ready := true, reconnect := early } .fail) ++
  .replicate 23 (.supervisor, answers { lost := true, reconnect := early } .fail) ++
  (if early then [] else ask) ++
  .replicate 17 (.supervisor, answers { reconnect := true } .fail)

end Reconnection

/-- A request made before the link came up outlives the connection: after the loss the supervisor
tries five times although nobody has asked again. -/
theorem stale_request_extends :
    ∃ c : System.Config Reconnection.supervision, System.Reachable c ∧
      Reconnection.requests Reconnection.succeeded c.world.trace = 0 ∧
      Reconnection.failures Reconnection.succeeded c.world.trace = 5 := by
  obtain ⟨c, hc, htest⟩ := System.exists_reachable (Reconnection.outage true)
    (fun c : System.Config Reconnection.supervision => decide
      (Reconnection.requests Reconnection.succeeded c.world.trace = 0 ∧
        Reconnection.failures Reconnection.succeeded c.world.trace = 5)) (by decide +kernel)
  exact ⟨c, hc, of_decide_eq_true htest⟩

/-- A request made when the supervisor waits grants three more attempts. -/
theorem reconnection_bounded_outage :
    ∃ c : System.Config Reconnection.supervision,
      (Reconnection.requests Reconnection.succeeded c.world.trace = 1 ∧
        Reconnection.failures Reconnection.succeeded c.world.trace = 5) ∧
      Reconnection.failures Reconnection.succeeded c.world.trace ≤
        3 * (1 + Reconnection.requests Reconnection.succeeded c.world.trace) ∧
      Reconnection.failures Reconnection.changed c.world.trace ≤
        3 * (1 + Reconnection.requests Reconnection.changed c.world.trace) ∧
      Justified Reconnection.Waits c.world.trace := by
  obtain ⟨c, hc, htest⟩ := System.exists_reachable (Reconnection.outage false)
    (fun c : System.Config Reconnection.supervision => decide
      ((Reconnection.requests Reconnection.succeeded c.world.trace = 1 ∧
        Reconnection.failures Reconnection.succeeded c.world.trace = 5) ∧
        Justified Reconnection.ClearAtLoss c.world.trace)) (by decide +kernel)
  obtain ⟨hcounts, hclear⟩ := of_decide_eq_true htest
  exact ⟨c, hcounts, reconnection_bounded hc hclear⟩

end FlipforgeBridge
