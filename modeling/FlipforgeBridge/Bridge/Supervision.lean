import FlipforgeBridge.Bridge.Stopping

/-!
The end of the supervisor. The firmware never stops its transport, so the supervisor should run for
ever. `stop_io_tasks` reads a handle once to test it and once more to delete the task; where the
task clears its handle in between, the supervisor deletes itself.
-/
namespace FlipforgeBridge
open Process

namespace Bridge

/-! ### What the supervisor reads -/

inductive StopPhase
  | calm
  /-- The handle was read last, and was set. -/
  | seen (kind : TaskKind)
  /-- The handle was found set, and NULL when it was read again. -/
  | missing (kind : TaskKind)
  /-- The STOP bit was seen, or `running` cleared. -/
  | ended
  deriving DecidableEq, Repr

def StopPhase.bits (bits : EventBits) : StopPhase := if bits.stop then .ended else .calm

def stopNext (ph : StopPhase) (o : Op) (r : o.Res) : Option StopPhase :=
  if ph = .ended then some .ended
  else match o, r with
    | .taskHandle kind, some _ => some (.seen kind)
    | .taskHandle kind, none => some (if ph = .seen kind then .missing kind else .calm)
    | .taskDelete kind none, _ => if ph = .missing kind then some .calm else none
    | .taskDeleteSelf, _ => none
    | .running, running => some (if running = true then .calm else .ended)
    | .waitRetry, wake => some (.bits wake)
    | .eventBits, seen => some (.bits seen)
    | _, _ => some .calm

section Follows
variable {α β : Type} {o : Op} {k : o.Res → Routine α} {Q : α → StopPhase → Prop}

/-- Once it has seen the STOP bit the supervisor may do anything. -/
theorem follows_ended (hQ : ∀ a, Q a .ended) (p : Routine α) : p.Follows stopNext Q .ended := by
  have hclosed : p.Follows stopNext (fun _ ph => ph = StopPhase.ended) .ended := by
    refine .of_closed (S := (· = StopPhase.ended)) ?_ rfl p
    rintro _ rfl o r
    exact ⟨.ended, if_pos rfl, rfl⟩
  refine hclosed.mono ?_
  rintro a _ rfl
  exact hQ a

/-- Neither `missing` nor in the middle of reading a handle. -/
def Rested (ph : StopPhase) : Prop := ph = .calm ∨ ph = .ended

theorem rested_bits (bits : EventBits) : Rested (.bits bits) := by
  unfold StopPhase.bits
  split
  · exact .inr rfl
  · exact .inl rfl

theorem Rested.next {ph : StopPhase} (h : Rested ph) (hQ : ∀ a, Q a .ended) {p : Routine α}
    (hp : p.Follows stopNext Q .calm) : p.Follows stopNext Q ph := by
  obtain rfl | rfl := h
  · exact hp
  · exact follows_ended hQ p

theorem rests : Rests stopNext .calm where
  free o ho := by
    cases o with
    | locked s => exact fun _ => rfl
    | running | waitRetry | eventBits | taskHandle kind | taskDelete kind handle => cases ho
    | taskDeleteSelf => cases ho
    | _ => exact fun _ => rfl
  send := by
    intro frame
    refine Prog.Only.keeps (sendFrame_only ?_ frame)
    intro o ho
    cases o with
    | locked s => exact fun _ => rfl
    | running | waitRetry | eventBits | taskHandle kind | taskDelete kind handle => cases ho
    | taskDeleteSelf => cases ho
    | _ => exact fun _ => rfl

/-- A handle is read twice, and the task deleted that the second reading gave. -/
theorem delete_follows (kind : TaskKind) : (deleteIoTask kind).Keeps stopNext .calm := by
  apply follows_op
  intro handle
  cases handle with
  | none => exact ⟨.calm, rfl, keeps_pure⟩
  | some id =>
    refine ⟨.seen kind, rfl, follows_op fun handle => ?_⟩
    cases handle with
    | none =>
      refine ⟨.missing kind, congrArg some (if_pos rfl), follows_op fun _ => ?_⟩
      exact ⟨.calm, if_pos rfl, keeps_last fun _ => rfl⟩
    | some id => exact ⟨.seen kind, rfl, follows_op fun _ => ⟨.calm, rfl, keeps_last fun _ => rfl⟩⟩

theorem stop_follows : stopIoTasks.Keeps stopNext .calm := by
  apply Prog.Keeps.bind
  · apply Prog.Keeps.loop
    intro wait
    split
    · exact keeps_pure
    apply follows_op
    intro rx
    cases rx with
    | some id => exact ⟨.seen .rx, rfl, follows_op fun _ => ⟨.calm, rfl, keeps_pure⟩⟩
    | none =>
      refine ⟨.calm, rfl, Prog.Follows.bind
        (S := fun busy ph => ph = .calm ∨ busy = true ∧ ph = .seen .heartbeat) ?_ ?_⟩
      · apply follows_op
        intro heartbeat
        cases heartbeat with
        | some id => exact ⟨.seen .heartbeat, rfl, follows_pure (.inr ⟨rfl, rfl⟩)⟩
        | none => exact ⟨.calm, rfl, follows_pure (.inl rfl)⟩
      · rintro busy _ (rfl | ⟨rfl, rfl⟩)
        · split
          · exact keeps_pure
          · exact follows_op fun _ => ⟨.calm, rfl, keeps_pure⟩
        · exact follows_op fun _ => ⟨.calm, rfl, keeps_pure⟩
  · exact fun _ => (delete_follows .rx).bind fun _ => delete_follows .heartbeat

theorem attempt_follows : (traced .establish establishExpansion).Keeps stopNext .calm := by
  apply keeps_op fun _ => rfl
  intro _
  refine Prog.Follows.bind (rests.establish fun _ => rfl) ?_
  rintro error _ rfl
  exact keeps_op (fun _ => rfl) fun _ => keeps_pure

theorem pins_follows : releaseExpansionPins.Keeps stopNext .calm :=
  Prog.Only.keeps (releaseExpansionPins_only (fun _ => rfl) fun _ => rfl)

theorem lose_follows {reason : LossReason} :
    (signalLinkLost reason).Follows stopNext (fun _ => Rested) .calm := by
  apply follows_op
  intro bits
  refine ⟨.bits bits, rfl, (rested_bits bits).next (fun _ => .inr rfl) ?_⟩
  exact follows_last fun _ => ⟨.calm, rfl, .inl rfl⟩

theorem Rested.keeps {p : Routine α} {ph : StopPhase} (h : Rested ph)
    (hp : p.Keeps stopNext .calm) : p.Follows stopNext (fun _ => Rested) ph :=
  h.next (fun _ => .inr rfl) (hp.mono fun _ _ hph => .inl hph)

/-- Where the supervisor may be told to stop. -/
theorem Rested.branch {p : Routine α} {c : α → Prop} [DecidablePred c] {ph : StopPhase}
    (h : Rested ph) (hp : p.Follows stopNext
      (fun a ph => if c a then ph = .ended else Rested ph) .calm) :
    p.Follows stopNext (fun a ph => if c a then ph = .ended else Rested ph) ph := by
  refine h.next (fun a => ?_) hp
  split
  · rfl
  · exact .inr rfl

/-- Nothing is decided. -/
theorem Rested.either {p : Routine α} {c : α → Prop} [DecidablePred c] {ph : StopPhase}
    (h : Rested ph) (hp : p.Keeps stopNext .calm) :
    p.Follows stopNext (fun a ph => if c a then Rested ph else Rested ph) ph := by
  refine (h.keeps hp).mono fun a ph' hph => ?_
  rwa [ite_self]

/-- The loop goes on. -/
theorem Rested.again {p : Routine (ℕ ⊕ Unit)} {ph : StopPhase} (h : Rested ph)
    (hp : p.Follows stopNext (Sum.elim (fun _ => Rested) fun _ ph => ph = .ended) .calm) :
    p.Follows stopNext (Sum.elim (fun _ => Rested) fun _ ph => ph = .ended) ph := by
  refine h.next ?_ hp
  rintro (attempts | ⟨⟩)
  · exact .inr rfl
  · rfl

theorem bits_follows {o : Op} (r : o.Res) {bits : EventBits}
    (hnext : stopNext .calm o r = some (.bits bits)) :
    ∃ ph, stopNext .calm o r = some ph ∧ if bits.stop then ph = .ended else Rested ph := by
  refine ⟨_, hnext, ?_⟩
  unfold StopPhase.bits
  split
  · rfl
  · exact .inl rfl

end Follows

/-- The supervisor rests at all points of its loop, and leaves it only when stopped. -/
def supervisionWalk : SupervisorWalk stopNext (traced .establish establishExpansion) where
  waiting _ := Rested
  trying _ := Rested
  failed _ := Rested
  linked := Rested
  receiving := Rested
  unmanned := Rested
  manned := Rested
  lost := Rested
  closed := Rested
  reopening := Rested
  ending ph := ph = .ended
  running h := by
    refine h.next (fun running => ?_) (follows_last fun running => ⟨_, rfl, ?_⟩)
    · cases running with
      | true => exact .inr rfl
      | false => rfl
    · cases running with
      | true => exact .inl rfl
      | false => rfl
  retry h _ := by
    refine h.branch (.bind pins_follows ?_)
    rintro _ _ rfl
    exact follows_last fun wake => bits_follows wake rfl
  early h _ := h
  attempt h := h.either (keeps_op (fun _ => rfl) fun _ => attempt_follows)
  retreat h := by
    refine h.again (.bind pins_follows ?_)
    rintro _ _ rfl
    exact follows_stay (fun _ => rfl) fun _ => follows_stay (fun _ => rfl) fun _ =>
      follows_pure (.inl rfl)
  receive h := h.either (keeps_op (fun _ => rfl) fun _ => keeps_last fun _ => rfl)
  beat h := h.either (keeps_last fun _ => rfl)
  alarm h := h.next (fun _ => .inr rfl) lose_follows
  watch h := h.keeps (keeps_op (fun _ => rfl) fun _ => keeps_last fun _ => rfl)
  stop h := h.keeps (stop_follows.bind fun _ => keeps_last fun _ => rfl)
  look h := h.branch (follows_last fun bits => bits_follows bits rfl)
  reopen h := by
    refine h.again (follows_stay (fun _ => rfl) fun _ => follows_stay (fun _ => rfl) fun _ => ?_)
    refine .bind pins_follows ?_
    rintro _ _ rfl
    exact follows_stay (fun _ => rfl) fun _ => follows_pure (.inl rfl)

theorem supervision_follows :
    (expansionSupervisorTask (traced .establish establishExpansion)).Follows stopNext
      (fun _ => Rested) .calm := by
  apply supervisionWalk.follows
  · exact Rested.keeps (.inl rfl) (keeps_op (fun _ => rfl) fun _ => keeps_last fun _ => rfl)
  · intro ph hended
    obtain rfl : ph = .ended := hended
    exact follows_ended (fun _ => .inr rfl) _

/-- The role of every task: only the supervisor's matters. -/
def supervision (secret : Vector UInt8 bridgePairingSecretBytes) :
    Choreography (bridge secret) where
  Phase _ := StopPhase
  next i ph o r := if i = .supervisor then stopNext ph o r else some ph
  entry _ := .calm
  follows i := by
    by_cases hi : i = .supervisor
    · subst hi
      exact supervision_follows.mono fun _ _ _ => trivial
    · refine .of_closed (S := fun _ => True) (fun ph _ o r => ⟨ph, if_neg hi, trivial⟩) trivial _

/-! ### What became of the handles -/

/-- A task cleared its handle since the supervisor found it set. -/
def clearedSince (kind : TaskKind) : List Entry → Bool
  | [] => false
  | ⟨.supervisor, .taskHandle kind', some _⟩ :: past =>
    if kind' = kind then false else clearedSince kind past
  | ⟨.supervisor, _, _⟩ :: past => clearedSince kind past
  | ⟨_, .clearTaskHandle kind', _⟩ :: past => kind' = kind || clearedSince kind past
  | _ :: past => clearedSince kind past

/-- The supervisor deletes itself only in the place of a task that has just ended. -/
def DeletesItself : Entry → List Entry → Prop
  | ⟨.supervisor, .taskDelete kind none, _⟩, past => clearedSince kind past = true
  | ⟨.supervisor, .taskDeleteSelf, _⟩, _ => False
  | _, _ => True

section Effect
variable {i : Tid} {o : Op} {r : o.Res} {st st' : State}

theorem effect_supervisor_live (h : effect i o r st = some st')
    (ho : i ≠ .supervisor ∨ ends o = false) : st'.live .supervisor = st.live .supervisor := by
  have hnew : attendant o r ≠ some .supervisor := by
    cases o with
    | taskCreate kind => cases kind <;> cases r <;> simp [attendant]
    | _ => simp [attendant]
  rw [effect_live h rfl]
  obtain hi | hends := ho
  · simp [hnew, hi]
  · simp [hnew, hends]

/-- A handle is cleared by one operation only. -/
theorem effect_handle (h : effect i o r st = some st') {kind : TaskKind}
    (ho : o ≠ .clearTaskHandle kind) (hset : (st.handle kind).isSome = true) :
    (st'.handle kind).isSome = true := by
  have hkept : staffing o = false → st'.handle kind = st.handle kind := by
    intro hstaff
    have hroster := effect_roster h hstaff
    cases kind with
    | rx => exact congrArg Roster.rxTask hroster
    | heartbeat => exact congrArg Roster.heartbeatTask hroster
    | _ => rfl
  cases o with
  | taskCreate kind' =>
    obtain rfl := Option.some_inj.mp h
    split
    · cases kind' <;> cases kind <;> first | exact hset | rfl
    · exact hset
  | taskDelete kind' handle =>
    cases handle with
    | none =>
      obtain rfl := Option.some_inj.mp h
      cases kind <;> exact hset
    | some id =>
      obtain rfl := Option.some_inj.mp h
      cases kind' <;> cases kind <;> exact hset
  | taskDeleteSelf =>
    obtain rfl := Option.some_inj.mp h
    cases kind <;> exact hset
  | clearTaskHandle kind' =>
    obtain rfl := Option.some_inj.mp h
    cases kind' <;> cases kind <;> first | exact hset | exact absurd rfl ho
  | waitRetry =>
    obtain ⟨-, ⟨⟩⟩ := Option.ite_none_right_eq_some.mp h
    cases kind <;> exact hset
  | _ => exact (congrArg Option.isSome (hkept rfl)).trans hset

theorem effect_stop (h : effect i o r st = some st') (hstop : st.bits.stop = false) :
    st'.bits.stop = false := by
  have hkept : staffing o = false → st'.roster = st.roster := effect_roster h
  cases o with
  | taskCreate kind =>
    obtain rfl := Option.some_inj.mp h
    split
    · cases kind <;> exact hstop
    · exact hstop
  | taskDelete kind handle =>
    cases handle with
    | none =>
      obtain rfl := Option.some_inj.mp h
      exact hstop
    | some id =>
      obtain rfl := Option.some_inj.mp h
      cases kind <;> exact hstop
  | taskDeleteSelf =>
    obtain rfl := Option.some_inj.mp h
    exact hstop
  | clearTaskHandle kind =>
    obtain rfl := Option.some_inj.mp h
    cases kind <;> exact hstop
  | waitRetry =>
    obtain ⟨-, ⟨⟩⟩ := Option.ite_none_right_eq_some.mp h
    rfl
  | _ => exact (congrArg Roster.stop (hkept rfl)).trans hstop

end Effect

/-! ### Every run -/

section Runs
variable {secret : Vector UInt8 bridgePairingSecretBytes}

/-- The supervisor is alive until it deletes itself, which it does where a handle went away. -/
structure Supervised (ph : StopPhase) (w : (bridge secret).World) : Prop where
  stop : w.state.bits.stop = false
  running : ph ≠ .ended
  seen : ∀ kind, ph = .seen kind →
    (w.state.handle kind).isSome = true ∨ clearedSince kind w.trace = true
  missing : ∀ kind, ph = .missing kind → clearedSince kind w.trace = true
  live : w.state.live .supervisor = false ↔
    ∃ kind, ⟨.supervisor, .taskDelete kind none, ()⟩ ∈ w.trace

variable {ph ph' : StopPhase} {w : (bridge secret).World} {i : Tid} {o : Op} {r : o.Res}
  {st : State}

theorem Supervised.frame (h : Supervised ph w) (heffect : effect i o r w.state = some st)
    (ho : i ≠ .supervisor ∨ ends o = false) (hrunning : ph' ≠ .ended)
    (hseen : ∀ kind, ph' = .seen kind →
      (st.handle kind).isSome = true ∨ clearedSince kind (⟨i, o, r⟩ :: w.trace) = true)
    (hmissing : ∀ kind, ph' = .missing kind → clearedSince kind (⟨i, o, r⟩ :: w.trace) = true) :
    Supervised ph' (⟨st, ⟨i, o, r⟩ :: w.trace⟩ : (bridge secret).World) where
  stop := effect_stop heffect h.stop
  running := hrunning
  seen := hseen
  missing := hmissing
  live := by
    rw [effect_supervisor_live heffect ho, h.live]
    refine exists_congr fun kind => ⟨List.mem_cons_of_mem _, fun hmem => ?_⟩
    obtain hnow | hearlier := List.mem_cons.mp hmem
    · cases hnow
      obtain hi | hends := ho
      · exact absurd rfl hi
      · cases hends
    · exact hearlier

theorem clearedSince_of_other {kind : TaskKind} {past : List Entry} (hi : i ≠ .supervisor) :
    clearedSince kind (⟨i, o, r⟩ :: past) =
      (decide (o = .clearTaskHandle kind) || clearedSince kind past) := by
  cases i with
  | supervisor => exact absurd rfl hi
  | _ => cases o <;> simp [clearedSince]

theorem Supervised.other (h : Supervised ph w) (hi : i ≠ .supervisor)
    (heffect : effect i o r w.state = some st) :
    Supervised ph (⟨st, ⟨i, o, r⟩ :: w.trace⟩ : (bridge secret).World) := by
  refine h.frame heffect (.inl hi) h.running ?_ ?_
  · intro kind hph
    rw [clearedSince_of_other hi]
    by_cases ho : o = .clearTaskHandle kind
    · exact .inr (by simp [ho])
    · refine (h.seen kind hph).imp (effect_handle heffect ho) fun hcleared => ?_
      rw [hcleared, Bool.or_true]
  · intro kind hph
    rw [clearedSince_of_other hi, h.missing kind hph, Bool.or_true]

/-- An operation after which the supervisor has nothing in mind. -/
theorem Supervised.calms (h : Supervised ph w) (heffect : effect i o r w.state = some st)
    (ho : i ≠ .supervisor ∨ ends o = false) :
    Supervised .calm (⟨st, ⟨i, o, r⟩ :: w.trace⟩ : (bridge secret).World) :=
  h.frame heffect ho (by simp) (by simp) (by simp)

theorem bits_eq_calm {bits : EventBits} (h : bits.stop = false) : StopPhase.bits bits = .calm :=
  if_neg (Bool.eq_false_iff.mp h)

theorem Supervised.own (h : Supervised ph w) (role : stopNext ph o r = some ph')
    (heffect : effect .supervisor o r w.state = some st) :
    Supervised ph' (⟨st, ⟨.supervisor, o, r⟩ :: w.trace⟩ : (bridge secret).World) ∧
      DeletesItself ⟨.supervisor, o, r⟩ w.trace := by
  unfold stopNext at role
  rw [if_neg h.running] at role
  cases o with
  | taskHandle kind =>
    obtain ⟨hhandle, hst⟩ := Option.ite_none_right_eq_some.mp heffect
    obtain rfl := Option.some_inj.mp hst
    cases r with
    | some id =>
      obtain rfl := Option.some_inj.mp role
      refine ⟨h.frame heffect (.inr rfl) (by simp) ?_ (by simp), trivial⟩
      rintro _ ⟨⟩
      exact .inl (congrArg Option.isSome hhandle.symm)
    | none =>
      replace role : (if ph = .seen kind then .missing kind else .calm) = ph' :=
        Option.some_inj.mp role
      by_cases hseen : ph = .seen kind
      · rw [if_pos hseen] at role
        subst role
        refine ⟨h.frame heffect (.inr rfl) (by simp) (by simp) ?_, trivial⟩
        rintro _ ⟨⟩
        exact (h.seen kind hseen).resolve_left (by simp [← hhandle])
      · rw [if_neg hseen] at role
        subst role
        exact ⟨h.calms heffect (.inr rfl), trivial⟩
  | taskDelete kind handle =>
    cases handle with
    | some id =>
      obtain rfl := Option.some_inj.mp role
      exact ⟨h.calms heffect (.inr rfl), trivial⟩
    | none =>
      obtain ⟨hmissing, hph⟩ := Option.ite_none_right_eq_some.mp role
      obtain rfl := Option.some_inj.mp hph
      obtain rfl := Option.some_inj.mp heffect
      refine ⟨⟨h.stop, by simp, by simp, by simp, fun _ => ?_, fun _ => setLive_self⟩, ?_⟩
      · exact ⟨kind, List.mem_cons_self ..⟩
      · exact h.missing kind hmissing
  | taskDeleteSelf => cases role
  | running =>
    obtain ⟨hrunning, -⟩ := Option.ite_none_right_eq_some.mp heffect
    replace role : (if r = true then .calm else .ended) = ph' := Option.some_inj.mp role
    rw [if_pos hrunning] at role
    subst role
    exact ⟨h.calms heffect (.inr rfl), trivial⟩
  | waitRetry =>
    obtain ⟨⟨hbits, -⟩, -⟩ := Option.ite_none_right_eq_some.mp heffect
    replace role : StopPhase.bits r = ph' := Option.some_inj.mp role
    rw [hbits, bits_eq_calm h.stop] at role
    subst role
    exact ⟨h.calms heffect (.inr rfl), trivial⟩
  | eventBits =>
    obtain ⟨hbits, -⟩ := Option.ite_none_right_eq_some.mp heffect
    replace role : StopPhase.bits r = ph' := Option.some_inj.mp role
    rw [hbits, bits_eq_calm h.stop] at role
    subst role
    exact ⟨h.calms heffect (.inr rfl), trivial⟩
  | _ =>
    obtain rfl := Option.some_inj.mp role
    exact ⟨h.calms heffect (.inr rfl), trivial⟩

theorem supervised_of_allowed {s : (supervision secret).Scene}
    (hs : (supervision secret).Allowed s) :
    Supervised (s.phase .supervisor) s.world ∧ Justified DeletesItself s.world.trace := by
  induction hs with
  | refl =>
    refine ⟨⟨rfl, ?_, ?_, ?_, ?_⟩, trivial⟩
    · intro h
      cases h
    · intro kind h
      cases h
    · intro kind h
      cases h
    · refine ⟨fun hdead => ?_, fun hdeleted => ?_⟩
      · cases hdead
      · obtain ⟨kind, hmem⟩ := hdeleted
        cases hmem
  | @tail s _ _ hstep ih =>
    obtain ⟨hsupervised, hjustified⟩ := ih
    cases hstep with | @mk i o r ph st live role effect =>
    by_cases hi : i = .supervisor
    · subst hi
      rw [Choreography.Scene.moved_phase_self ph live]
      obtain ⟨hmoved, hdeletes⟩ := hsupervised.own role effect
      exact ⟨hmoved, hdeletes, hjustified⟩
    · have hlive : st.live .supervisor = s.world.state.live .supervisor :=
        effect_supervisor_live effect (.inl hi)
      have hphase : (s.moved i ph ⟨st, ⟨i, o, r⟩ :: s.world.trace⟩).phase .supervisor =
          s.phase .supervisor := by
        apply Choreography.Scene.moved_phase_of_ne ph (Ne.symm hi)
        cases hold : s.world.state.live .supervisor with
        | true => exact .inl hold
        | false => exact .inr (hlive.trans hold)
      rw [hphase]
      refine ⟨hsupervised.other hi effect, ?_, hjustified⟩
      cases i <;> trivial

end Runs

end Bridge

/-- The supervisor never ends, whatever the other tasks and the outside do, except that it
deletes itself where an I/O task clears its handle between the two readings of `stop_io_tasks`. -/
theorem supervisor_survives {secret : Vector UInt8 bridgePairingSecretBytes}
    {c : System.Config (bridge secret)} (hc : System.Reachable c) :
    Justified Bridge.DeletesItself c.world.trace ∧
      (c.world.state.live .supervisor = false ↔
        ∃ kind, ⟨.supervisor, .taskDelete kind none, ()⟩ ∈ c.world.trace) := by
  obtain ⟨s, hs, hworld⟩ := (Bridge.supervision secret).exists_allowed hc
  rw [← hworld]
  obtain ⟨hsupervised, hjustified⟩ := Bridge.supervised_of_allowed hs
  exact ⟨hjustified, hsupervised.live⟩

/-- The receiving task ends after the last of the 25 waits, between the two readings. -/
theorem supervisor_survives_race : ∃ c : Bridge.Sample,
    c.world.state.live .supervisor = false ∧
      Justified Bridge.DeletesItself c.world.trace ∧
      (c.world.state.live .supervisor = false ↔
        ∃ kind, ⟨.supervisor, .taskDelete kind none, ()⟩ ∈ c.world.trace) := by
  obtain ⟨c, hc, htest⟩ := Bridge.exists_run Bridge.Script.races
    (fun c : Bridge.Sample => !c.world.state.live .supervisor) (by decide +kernel)
  exact ⟨c, (Bool.not_eq_true' _).mp htest, supervisor_survives hc⟩

end FlipforgeBridge
