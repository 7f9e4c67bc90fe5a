import FlipforgeBridge.Bridge.Depicts

/-!
Which tasks are alive. A few operations change this; tasks other than the I/O tasks die only by
themselves.
-/
namespace FlipforgeBridge
open Process

namespace Bridge

/-- A receiving or heartbeat task. -/
def Tid.io : Tid → Bool
  | .rx _ | .heartbeat _ => true
  | _ => false

/-- What the platform keeps about tasks. -/
structure Roster where
  stop : Bool
  rxTask : Option ℕ
  heartbeatTask : Option ℕ
  rxCreated : ℕ
  heartbeatCreated : ℕ
  live : Tid → Bool

def State.roster (st : State) : Roster where
  stop := st.bits.stop
  rxTask := st.rxTask
  heartbeatTask := st.heartbeatTask
  rxCreated := st.rxCreated
  heartbeatCreated := st.heartbeatCreated
  live := st.live

/-- Operations on tasks and their handles, and the one that clears the STOP bit. -/
def staffing : Op → Bool
  | .taskCreate _ | .taskDelete _ _ | .taskDeleteSelf | .clearTaskHandle _ | .waitRetry => true
  | _ => false

section Effect
variable {i : Tid} {o : Op} {r : o.Res} {st st' : State}

theorem effect_roster (h : effect i o r st = some st') (ho : staffing o = false) :
    st'.roster = st.roster := by
  unfold effect at h
  split at h
  case h_9 | h_24 | h_25 | h_26 | h_27 | h_29 => cases ho
  case h_18 | h_19 | h_36 =>
    obtain rfl := Option.some_inj.mp h
    split <;> rfl
  all_goals first
    | (obtain ⟨guarded, -, rfl⟩ := Option.map_eq_some_iff.mp h; rfl)
    | (obtain rfl := Option.some_inj.mp h; rfl)
    | (obtain ⟨-, ⟨⟩⟩ := Option.ite_none_right_eq_some.mp h; rfl)
    | (obtain rfl | rfl := effect_take h <;> rfl)

/-- The task other than an I/O task that is created. -/
def attendant : (o : Op) → o.Res → Option Tid
  | .taskCreate (.client n), true => some (.client n)
  | .taskCreate (.writer n), true => some (.writer n)
  | _, _ => none

/-- Operations that end their task. -/
def ends : Op → Bool
  | .taskDelete _ none | .taskDeleteSelf => true
  | _ => false

theorem attendant_of_not_staffing (ho : staffing o = false) : attendant o r = none := by
  cases o <;> first | rfl | cases ho

theorem ends_of_not_staffing (ho : staffing o = false) : ends o = false := by
  cases o <;> first | rfl | cases ho

theorem attendant_of_ends (ho : ends o = true) : attendant o r = none := by
  cases o <;> first | rfl | cases ho

/-- A task other than an I/O task is alive if it was just created, or if it was alive and did not
just end. -/
theorem effect_live (h : effect i o r st = some st') {t : Tid} (ht : t.io = false) :
    st'.live t = (decide (attendant o r = some t) || st.live t && !(ends o && decide (i = t))) := by
  cases hstaff : staffing o with
  | false =>
    have hsame : st'.live = st.live := congrArg Roster.live (effect_roster h hstaff)
    simp [attendant_of_not_staffing hstaff, ends_of_not_staffing hstaff, hsame]
  | true =>
  have hself : (st.setLive i false).live t = (st.live t && !decide (i = t)) := by
    by_cases hi : i = t
    · simp [hi, setLive_self]
    · simp [hi, setLive_of_ne (Ne.symm hi)]
  cases o with
  | taskCreate kind =>
    obtain rfl := Option.some_inj.mp h
    cases r with
    | false => cases kind <;> simp [attendant, ends]
    | true =>
      have hnew (t' : Tid) : (st.setLive t' true).live t = (decide (t' = t) || st.live t) := by
        by_cases ht' : t' = t
        · simp [ht', setLive_self]
        · simp [ht', setLive_of_ne (Ne.symm ht')]
      cases kind with
      | client m => simpa [attendant, ends, State.create] using hnew (.client m)
      | writer m => simpa [attendant, ends, State.create] using hnew (.writer m)
      | rx =>
        have hrx : Tid.rx st.rxCreated ≠ t := by
          rintro rfl
          cases ht
        simpa [attendant, ends, State.create, hrx] using hnew (.rx st.rxCreated)
      | heartbeat =>
        have hheartbeat : Tid.heartbeat st.heartbeatCreated ≠ t := by
          rintro rfl
          cases ht
        simpa [attendant, ends, State.create, hheartbeat]
          using hnew (.heartbeat st.heartbeatCreated)
  | taskDelete kind handle =>
    cases handle with
    | none =>
      obtain rfl := Option.some_inj.mp h
      simpa [attendant, ends] using hself
    | some id =>
      obtain rfl := Option.some_inj.mp h
      have hkept : (st.delete kind id).live t = st.live t := by
        cases kind with
        | rx | heartbeat =>
          refine setLive_of_ne ?_
          rintro rfl
          cases ht
        | _ => rfl
      simpa [attendant, ends] using hkept
  | taskDeleteSelf =>
    obtain rfl := Option.some_inj.mp h
    simpa [attendant, ends] using hself
  | clearTaskHandle kind =>
    obtain rfl := Option.some_inj.mp h
    cases kind <;> simp [attendant, ends, State.clearHandle]
  | waitRetry =>
    obtain ⟨-, ⟨⟩⟩ := Option.ite_none_right_eq_some.mp h
    simp [attendant, ends]
  | _ => cases hstaff

end Effect

/-! ### Scenes -/

section Scene
variable {secret : Vector UInt8 bridgePairingSecretBytes} {ch : Choreography (bridge secret)}
  {s : ch.Scene} {i t : Tid} {o : Op} {r : o.Res} {st : State} {ph : ch.Phase i}
  {trace : List Entry}

theorem part_self (hi : i.io = false) (live : s.world.state.live i = true)
    (heffect : effect i o r s.world.state = some st) :
    (s.moved i ph ⟨st, trace⟩).part i = if ends o = true then none else some ph := by
  have hlive := effect_live heffect hi
  refine (Choreography.Scene.part_moved_self live).trans ?_
  cases hends : ends o with
  | true =>
    have hdead : st.live i = false := by simpa [attendant_of_ends hends, hends] using hlive
    exact if_neg (Bool.eq_false_iff.mp hdead)
  | false =>
    have halive : st.live i = true := by simpa [hends, live] using hlive
    exact if_pos halive

theorem part_of_ne (ht : t.io = false) (hi : t ≠ i) (hnew : attendant o r ≠ some t)
    (heffect : effect i o r s.world.state = some st) :
    (s.moved i ph ⟨st, trace⟩).part t = s.part t := by
  refine Choreography.Scene.part_moved_of_ne hi ?_
  have hlive := effect_live heffect ht
  simpa [hnew, Ne.symm hi] using hlive

theorem part_created (ht : t.io = false) (hnew : attendant o r = some t) (hnone : s.part t = none)
    (heffect : effect i o r s.world.state = some st) :
    (s.moved i ph ⟨st, trace⟩).part t = some (ch.entry t) := by
  refine Choreography.Scene.part_moved_created (Choreography.Scene.part_eq_none.mp hnone) ?_
  have hlive := effect_live heffect ht
  simpa [hnew] using hlive

/-- The others stay where they are, and a new one is about to begin. -/
theorem part_other (ht : t.io = false) (hi : t ≠ i)
    (heffect : effect i o r s.world.state = some st) :
    (s.moved i ph ⟨st, trace⟩).part t = s.part t ∨
      s.part t = none ∧ (s.moved i ph ⟨st, trace⟩).part t = some (ch.entry t) := by
  by_cases hnew : attendant o r = some t
  · cases hpart : s.part t with
    | none => exact .inr ⟨rfl, part_created ht hnew hpart heffect⟩
    | some old =>
      left
      rw [← hpart]
      apply Choreography.Scene.part_moved_of_ne hi
      obtain ⟨hlive, -⟩ := Choreography.Scene.live_of_part hpart
      exact (effect_live heffect ht).trans (by simpa [hnew] using hlive.symm)
  · exact .inl (part_of_ne ht hi hnew heffect)

end Scene

end Bridge
end FlipforgeBridge
