import FlipforgeBridge.Bridge.Depicts

/-!
The flat link simulates the firmware: every scene the roles allow is depicted by a link that came
there by the same operations. One task at a time, each operation its role allows is a step of the
link.
-/
namespace FlipforgeBridge
open Process

namespace Bridge
variable {secret : Vector UInt8 bridgePairingSecretBytes}

/-- The link can take this step to where it depicts the scene. -/
def Simulated (l : Link) (e : Entry) (s' : (choreography secret).Scene) : Prop :=
  ∃ l', l.Step e l' ∧ Depicts s' l'

theorem idle_of_quiet {o : Op} (h : quiet o = true) : idle o = true := by
  unfold idle
  split <;> first | rfl | exact h

theorem effect_apply {i : Tid} {event : ExpansionEvent} {ok : Bool} {action : ExpansionAction}
    {st st' : State} (h : effect i (.locked (.apply event)) (ok, action) st = some st') :
    ∃ machine, expansionStateMachineApply st.guarded.machine event = (ok, action, machine) ∧
      st' = { st with guarded := { st.guarded with machine := machine } } := by
  obtain ⟨guarded, hrun, rfl⟩ := effect_locked h
  rcases hresult : expansionStateMachineApply st.guarded.machine event with ⟨ok', action', machine⟩
  have hif : (if (ok, action) = (ok', action') then some { st.guarded with machine := machine }
      else none) = some guarded := by
    rw [← hrun]
    dsimp only [Section.run]
    rw [hresult]
  obtain ⟨⟨⟩, ⟨⟩⟩ := Option.ite_none_right_eq_some.mp hif
  exact ⟨machine, rfl, rfl⟩

theorem effect_offer {i : Tid} {status : ExpansionFrameError} {expected : Bool} {st st' : State}
    (h : effect i (.locked (.offerStatus status)) expected st = some st') :
    expected = st.guarded.awaitingStatus ∧
      st' = if expected then { st with guarded := { st.guarded with lastStatus := status } }
        else st := by
  obtain ⟨guarded, hrun, rfl⟩ := effect_locked h
  obtain ⟨rfl, ⟨⟩⟩ := Option.ite_none_right_eq_some.mp hrun
  refine ⟨rfl, ?_⟩
  split <;> rfl

namespace RxBooks
variable {b : Ledger} {supervisor : SupervisorPhase} {rx : Option ℕ}

/-- While there is no receiving task, the supervisor may do anything. -/
theorem unmanned (h : RxBooks b supervisor rx) (hunmanned : supervisor.manned = false)
    (ph : SupervisorPhase) : RxBooks b ph rx := by
  obtain rfl := h.manned hunmanned
  exact ⟨by simp, by simp, by simp, h.fresh⟩

theorem unseen (h : RxBooks b supervisor rx) {ph : SupervisorPhase} (hmanned : ph.manned = true)
    (hseen : ph.seen = none) : RxBooks b ph rx where
  handle := h.handle
  seen := by simp [hseen]
  manned := by simp [hmanned]
  fresh := h.fresh

/-- The handle says whether there is a receiving task. -/
theorem look (h : RxBooks b supervisor rx) (baud : UInt32) :
    RxBooks b (if b.rxTask = none then .closed baud else .closing baud b.rxTask) rx := by
  cases htask : b.rxTask with
  | none =>
    have hrx : rx = none := by
      cases rx with
      | none => rfl
      | some id => exact absurd (h.handle id rfl) (by simp [htask])
    subst hrx
    exact ⟨by simp, by simp, by simp, h.fresh⟩
  | some id =>
    refine ⟨h.handle, ?_, by simp [SupervisorPhase.manned], h.fresh⟩
    intro seen id' hseen hrx
    have hid' := h.handle id' hrx
    rw [htask] at hid'
    cases hseen
    exact (Option.some_inj.mp hid').symm

end RxBooks

section Supervisor
variable {s : (choreography secret).Scene} {l : Link} {st : State} {trace : List Entry}

theorem Depicts.rx_none (h : Depicts s l) (hunmanned : l.supervisor.manned = false) :
    l.rx = none := by
  have hnone := h.rxBooks.manned hunmanned
  exact Option.map_eq_none_iff.mp hnone

theorem Depicts.unmanned_moves (h : Depicts s l) (live : s.world.state.live .supervisor = true)
    {ph : SupervisorPhase} (hunmanned : l.supervisor.manned = false)
    (hledger : st.ledger = s.world.state.ledger) (hstop : st.bits.stop = false) :
    Depicts (s.moved .supervisor ph ⟨st, trace⟩)
      { l with toShared := st.shared, supervisor := ph } := by
  apply h.supervisor_moves live (sameTasks_of_ledger hledger) hstop
  · rw [hledger]
    exact h.rxBooks.unmanned hunmanned ph
  · exact hledger ▸ h.clientBooks

/-- Idle operations and the end of the task leave the link as it is. -/
theorem supervisor_rests {o : Op} {r : o.Res} (h : Depicts s l)
    (live : s.world.state.live .supervisor = true) (hidle : idle o = true)
    (heffect : effect .supervisor o r s.world.state = some st) :
    Depicts (s.moved .supervisor (s.phase .supervisor) ⟨st, trace⟩) l := by
  have hdies : Depicts (s.moved .supervisor (s.phase .supervisor)
      ⟨s.world.state.setLive .supervisor false, trace⟩) l :=
    h.dies live (by simp) (by simp) (by simp)
  unfold idle at hidle
  split at hidle
  · obtain ⟨-, ⟨⟩⟩ := Option.ite_none_right_eq_some.mp heffect
    exact h.stands live ⟨rfl, rfl, h.stop⟩
  · obtain rfl := Option.some_inj.mp heffect
    exact h.stands live ⟨rfl, rfl, h.stop⟩
  · obtain rfl := Option.some_inj.mp heffect
    exact hdies
  · next handle =>
    cases handle with
    | none =>
      obtain rfl := Option.some_inj.mp heffect
      exact hdies
    | some id =>
      obtain rfl := Option.some_inj.mp heffect
      exact h.stands live ⟨rfl, ledger_setLive_heartbeat _ _ _, h.stop⟩
  · exact h.stands live (effect_quiet hidle h.stop heffect)

/-- Operations by which an attempt sets the link up. -/
def setting : Op → Bool
  | .clearLostReady | .locked .restart | .uartParamConfig _ | .uartWriteBytes _ => true
  | .uartSetBaudrate _ | .locked (.storeBaud _) | .streamReset => true
  | _ => false

theorem not_quiet_of_setting {o : Op} (h : setting o = true) : quiet o = false := by
  cases o with
  | locked sec => cases sec <;> first | rfl | cases h
  | _ => first | rfl | cases h

theorem supervisor_sets_up {o : Op} {r : o.Res} {ph : SupervisorPhase} (h : Depicts s l)
    (live : s.world.state.live .supervisor = true) (hsetting : setting o = true)
    (role : supervisorNext l.supervisor o r = some ph)
    (heffect : effect .supervisor o r s.world.state = some st) :
    Simulated l ⟨.supervisor, o, r⟩ (s.moved .supervisor ph ⟨st, trace⟩) := by
  obtain ⟨shared, supervisor, server, rx, client, writer⟩ := l
  obtain rfl : _ = shared := h.shared
  change supervisorNext supervisor o r = some ph at role
  unfold supervisorNext at role
  split at role
  case h_1 =>
    obtain rfl := Option.some_inj.mp heffect
    obtain rfl := Option.some_inj.mp role
    exact ⟨_, .supervisor (.attempt rfl), h.unmanned_moves live rfl rfl h.stop⟩
  case h_2 =>
    obtain rfl := Option.some_inj.mp heffect
    obtain rfl := Option.some_inj.mp role
    exact ⟨_, .supervisor (.restart rfl), h.unmanned_moves live rfl rfl h.stop⟩
  case h_3 baud error =>
    obtain rfl := Option.some_inj.mp heffect
    obtain rfl := Option.some_inj.mp role
    refine ⟨_, .supervisor (.configure rfl baud error), ?_⟩
    by_cases herror : error = .ok
    · rw [if_pos herror, if_pos herror]
      exact h.unmanned_moves live rfl rfl h.stop
    · rw [if_neg herror, if_neg herror]
      exact h.unmanned_moves live rfl rfl h.stop
  case h_5 bytes written =>
    obtain rfl := Option.some_inj.mp heffect
    obtain rfl := Option.some_inj.mp role
    exact ⟨_, .supervisor (.write rfl bytes written), h.unmanned_moves live rfl rfl h.stop⟩
  case h_6 baud error =>
    obtain ⟨⟨hbaud, hrequest⟩, ⟨⟩⟩ := Option.ite_none_right_eq_some.mp role
    obtain rfl := Option.some_inj.mp heffect
    refine ⟨_, .supervisor (.switch rfl hbaud hrequest error), ?_⟩
    by_cases herror : error = .ok
    · rw [if_pos herror, if_pos herror, if_pos herror]
      exact h.unmanned_moves live rfl rfl h.stop
    · rw [if_neg herror, if_neg herror, if_neg herror]
      exact h.unmanned_moves live rfl rfl h.stop
  case h_7 baud =>
    obtain ⟨rfl, ⟨⟩⟩ := Option.ite_none_right_eq_some.mp role
    obtain rfl := Option.some_inj.mp heffect
    exact ⟨_, .supervisor (.store rfl), h.unmanned_moves live rfl rfl h.stop⟩
  case h_8 =>
    obtain rfl := Option.some_inj.mp role
    obtain rfl := Option.some_inj.mp heffect
    exact ⟨_, .supervisor (.clear rfl), h.unmanned_moves live rfl rfl h.stop⟩
  case h_24 =>
    rw [not_quiet_of_setting hsetting] at role
    cases role
  all_goals cases hsetting

/-- Events the supervisor gives to the machine. -/
theorem supervisor_applies {event : ExpansionEvent} {ok : Bool} {action : ExpansionAction}
    {ph : SupervisorPhase} (h : Depicts s l) (live : s.world.state.live .supervisor = true)
    (role : l.supervisor.apply event ok = some ph)
    (heffect : effect .supervisor (.locked (.apply event)) (ok, action) s.world.state = some st) :
    Simulated l ⟨.supervisor, .locked (.apply event), (ok, action)⟩
      (s.moved .supervisor ph ⟨st, trace⟩) := by
  obtain ⟨machine, happly, rfl⟩ := effect_apply heffect
  obtain ⟨shared, supervisor, server, rx, client, writer⟩ := l
  obtain rfl : _ = shared := h.shared
  change supervisor.apply event ok = some ph at role
  unfold SupervisorPhase.apply at role
  split at role
  · obtain rfl := Option.some_inj.mp role
    refine ⟨_, .supervisor (.advance rfl _ (.inl rfl) happly), ?_⟩
    exact h.unmanned_moves live rfl rfl h.stop
  · obtain rfl := Option.some_inj.mp role
    refine ⟨_, .supervisor (.advance rfl _ (.inr (.inl rfl)) happly), ?_⟩
    exact h.unmanned_moves live rfl rfl h.stop
  · obtain rfl := Option.some_inj.mp role
    refine ⟨_, .supervisor (.advance rfl _ (.inr (.inr rfl)) happly), ?_⟩
    exact h.unmanned_moves live rfl rfl h.stop
  · obtain rfl := Option.some_inj.mp role
    refine ⟨_, .supervisor (.accept rfl happly), ?_⟩
    exact h.unmanned_moves live rfl rfl h.stop
  · obtain rfl := Option.some_inj.mp role
    refine ⟨_, .supervisor (.fall (.inl ⟨_, rfl⟩) happly), ?_⟩
    exact h.unmanned_moves live rfl rfl h.stop
  · obtain rfl := Option.some_inj.mp role
    refine ⟨_, .supervisor (.fall (.inr (.inl rfl)) happly), ?_⟩
    exact h.unmanned_moves live rfl rfl h.stop
  · obtain rfl := Option.some_inj.mp role
    refine ⟨_, .supervisor (.fall (.inr (.inr ⟨_, rfl⟩)) happly), ?_⟩
    exact h.unmanned_moves live rfl rfl h.stop
  · cases role

/-- With the receiving task gone, its handle is read, given to `vTaskDelete` and cleared again to
no effect. -/
theorem supervisor_tidies {o : Op} {r : o.Res} {baud : UInt32} (h : Depicts s l)
    (live : s.world.state.live .supervisor = true) (hclosed : l.supervisor = .closed baud)
    (ho : o = .taskHandle .rx ∨ o = .clearTaskHandle .rx ∨ ∃ handle, o = .taskDelete .rx handle)
    (heffect : effect .supervisor o r s.world.state = some st) :
    Simulated l ⟨.supervisor, o, r⟩
      (s.moved .supervisor (.closed baud : SupervisorPhase) ⟨st, trace⟩) := by
  have hnone : l.rx = none := h.rx_none (by rw [hclosed]; rfl)
  have hdies : Depicts (s.moved .supervisor (s.phase .supervisor)
      ⟨s.world.state.setLive .supervisor false, trace⟩) l :=
    h.dies live (by simp) (by simp) (by simp)
  rw [h.supervisor, hclosed] at hdies
  obtain ⟨shared, supervisor, server, rx, client, writer⟩ := l
  obtain rfl : _ = shared := h.shared
  obtain rfl : supervisor = .closed baud := hclosed
  obtain rfl : rx = none := hnone
  refine ⟨_, .supervisor (.tidy rfl o r ho), ?_⟩
  obtain rfl | rfl | ⟨handle, rfl⟩ := ho
  · obtain ⟨rfl, ⟨⟩⟩ := Option.ite_none_right_eq_some.mp heffect
    exact h.unmanned_moves live rfl rfl h.stop
  · obtain rfl := Option.some_inj.mp heffect
    have hlive : SameTasks s (s.world.state.clearHandle .rx) := fun _ _ => rfl
    apply h.supervisor_moves live hlive h.stop
    · exact ⟨by simp, by simp, by simp, h.rxBooks.fresh⟩
    · exact h.clientBooks.frame rfl rfl rfl (fun _ => rfl) fun _ => rfl
  · cases handle with
    | none =>
      obtain rfl := Option.some_inj.mp heffect
      exact hdies
    | some id =>
      obtain rfl := Option.some_inj.mp heffect
      exact h.supervisor_deletes live (by simp) _

theorem supervisor_simulated {o : Op} {r : o.Res} {ph : SupervisorPhase} (h : Depicts s l)
    (live : s.world.state.live .supervisor = true)
    (role : supervisorNext (s.phase .supervisor) o r = some ph)
    (heffect : effect .supervisor o r s.world.state = some st) :
    Simulated l ⟨.supervisor, o, r⟩ (s.moved .supervisor ph ⟨st, trace⟩) := by
  have hstands : Undisturbed s.world.state st →
      Depicts (s.moved .supervisor (s.phase .supervisor) ⟨st, trace⟩) l := h.stands live
  have hrests : ∀ hidle : idle o = true,
      Depicts (s.moved .supervisor (s.phase .supervisor) ⟨st, trace⟩) l :=
    fun hidle => supervisor_rests h live hidle heffect
  rw [h.supervisor] at role hstands hrests
  by_cases hsetting : setting o = true
  · exact supervisor_sets_up h live hsetting role heffect
  obtain ⟨shared, supervisor, server, rx, client, writer⟩ := l
  obtain rfl : _ = shared := h.shared
  change supervisorNext supervisor o r = some ph at role
  unfold supervisorNext at role
  split at role
  case h_1 | h_2 | h_3 | h_5 | h_6 | h_7 | h_8 => exact absurd rfl hsetting
  case h_4 =>
    obtain rfl := Option.some_inj.mp role
    exact ⟨_, .idle rfl _, hrests rfl⟩
  case h_9 created =>
    obtain rfl := Option.some_inj.mp role
    obtain rfl := Option.some_inj.mp heffect
    cases created with
    | false => exact ⟨_, .supervisor (.createNone rfl), h.unmanned_moves live rfl rfl h.stop⟩
    | true =>
      exact ⟨_, .supervisor (.createRx rfl), h.supervisor_creates live (h.rx_none rfl) rfl rfl⟩
  case h_10 reason _ =>
    obtain rfl := Option.some_inj.mp role
    obtain rfl := Option.some_inj.mp heffect
    exact ⟨_, .supervisor (.lose (.inl rfl) reason), h.unmanned_moves live rfl rfl h.stop⟩
  case h_11 reason _ =>
    obtain rfl := Option.some_inj.mp role
    obtain rfl := Option.some_inj.mp heffect
    refine ⟨_, .supervisor (.lose (.inr rfl) reason), ?_⟩
    exact h.supervisor_moves live (fun _ _ => rfl) h.stop h.rxBooks h.clientBooks
  case h_12 seen =>
    obtain rfl := Option.some_inj.mp role
    obtain ⟨⟨rfl, hbits⟩, ⟨⟩⟩ := Option.ite_none_right_eq_some.mp heffect
    have hlost : s.world.state.bits.lost = true := by
      have hstop : s.world.state.bits.stop = false := h.stop
      rw [hstop, Bool.or_false] at hbits
      exact hbits
    refine ⟨_, .supervisor (.wake rfl hlost _), ?_⟩
    exact h.supervisor_moves live (fun _ _ => rfl) h.stop (h.rxBooks.unseen rfl rfl) h.clientBooks
  case h_13 handle =>
    obtain rfl := Option.some_inj.mp role
    obtain ⟨rfl, ⟨⟩⟩ := Option.ite_none_right_eq_some.mp heffect
    have hhandle : ∀ id ph, rx = some (id, ph) → s.world.state.rxTask = some id := by
      rintro id ph rfl
      exact h.rxBooks.handle id rfl
    refine ⟨_, .supervisor (.look rfl _ hhandle), ?_⟩
    exact h.supervisor_moves live (fun _ _ => rfl) h.stop (h.rxBooks.look _) h.clientBooks
  case h_14 handle _ =>
    obtain ⟨⟨rfl, hhandle⟩, ⟨⟩⟩ := Option.ite_none_right_eq_some.mp role
    cases handle with
    | none => exact absurd rfl hhandle
    | some id =>
      obtain rfl := Option.some_inj.mp heffect
      refine ⟨_, .supervisor (.delete rfl), h.supervisor_deletes live ?_ _⟩
      rintro n ph rfl
      exact h.rxBooks.seen id n rfl rfl
  case h_15 =>
    obtain rfl := Option.some_inj.mp role
    exact supervisor_tidies h live rfl (.inl rfl) heffect
  case h_16 handle _ =>
    obtain rfl := Option.some_inj.mp role
    exact supervisor_tidies h live rfl (.inr (.inr ⟨handle, rfl⟩)) heffect
  case h_17 =>
    obtain rfl := Option.some_inj.mp role
    exact supervisor_tidies h live rfl (.inr (.inl rfl)) heffect
  case h_18 => exact supervisor_applies h live role heffect
  case h_19 =>
    obtain rfl := Option.some_inj.mp role
    obtain rfl := Option.some_inj.mp heffect
    exact ⟨_, .supervisor .enter, hstands ⟨rfl, rfl, h.stop⟩⟩
  case h_20 =>
    obtain ⟨hreturns, ⟨⟩⟩ := Option.ite_none_right_eq_some.mp role
    obtain rfl := Option.some_inj.mp heffect
    exact ⟨_, .supervisor (.leave hreturns), hstands ⟨rfl, rfl, h.stop⟩⟩
  case h_21 | h_22 | h_23 =>
    obtain rfl := Option.some_inj.mp role
    exact ⟨_, .idle rfl _, hrests rfl⟩
  case h_24 =>
    obtain ⟨hquiet, ⟨⟩⟩ := Option.ite_none_right_eq_some.mp role
    exact ⟨_, .idle (idle_of_quiet hquiet) _, hrests (idle_of_quiet hquiet)⟩

end Supervisor

section Rx
variable {s : (choreography secret).Scene} {l : Link} {st : State} {trace : List Entry} {id : ℕ}

/-- A receiving task that has cleared its handle only ends. -/
theorem rx_ended_simulated {o : Op} {r : o.Res} {ph : RxPhase} (h : Depicts s l)
    (live : s.world.state.live (.rx id) = true) (hended : s.phase (.rx id) = RxPhase.ended)
    (role : rxNext (s.phase (.rx id)) o r = some ph)
    (heffect : effect (.rx id) o r s.world.state = some st) :
    Simulated l ⟨.rx id, o, r⟩ (s.moved (.rx id) ph ⟨st, trace⟩) := by
  have hdies : Depicts (s.moved (.rx id) (s.phase (.rx id))
      ⟨s.world.state.setLive (.rx id) false, trace⟩) l := by
    apply h.dies live _ (by simp) (by simp)
    rintro n old ⟨⟩ hrx
    have hslot := h.rx
    rw [hrx] at hslot
    exact hslot.of_named.2 ((h.rx_live hrx).2.symm.trans hended)
  rw [hended] at role hdies
  obtain ⟨rfl, ⟨⟩⟩ := Option.ite_none_right_eq_some.mp role
  obtain rfl := Option.some_inj.mp heffect
  exact ⟨_, .idle rfl _, hdies⟩

theorem rx_simulated {o : Op} {r : o.Res} {ph : RxPhase} (h : Depicts s l)
    (live : s.world.state.live (.rx id) = true)
    (role : rxNext (s.phase (.rx id)) o r = some ph)
    (heffect : effect (.rx id) o r s.world.state = some st) :
    Simulated l ⟨.rx id, o, r⟩ (s.moved (.rx id) ph ⟨st, trace⟩) := by
  by_cases hended : s.phase (.rx id) = RxPhase.ended
  · exact rx_ended_simulated h live hended role heffect
  have hrx : l.rx = some (id, s.phase (.rx id)) :=
    h.rx.eq_some (Choreography.Scene.part_of_live live) hended
  have hstands : Undisturbed s.world.state st →
      Depicts (s.moved (.rx id) (s.phase (.rx id)) ⟨st, trace⟩) l := h.stands live
  have hmoves : ∀ ph : RxPhase, ph ≠ .ended → st.ledger = s.world.state.ledger →
      st.bits.stop = false → Depicts (s.moved (.rx id) ph ⟨st, trace⟩)
        { l with toShared := st.shared, rx := some (id, ph) } := fun ph => h.rx_moves hrx
  generalize s.phase (.rx id) = old at role hended hrx hstands
  change RxPhase at old
  obtain ⟨shared, supervisor, server, rx, client, writer⟩ := l
  obtain rfl : _ = shared := h.shared
  obtain rfl : rx = some (id, old) := hrx
  unfold rxNext at role
  split at role
  case h_1 frame _ =>
    obtain rfl := Option.some_inj.mp heffect
    refine ⟨_, .rx (.frame rfl frame), ?_⟩
    cases frame <;> cases role <;> exact hmoves _ (by simp) rfl h.stop
  case h_2 =>
    obtain rfl := Option.some_inj.mp role
    obtain rfl := Option.some_inj.mp heffect
    exact ⟨_, .idle rfl _, hstands ⟨rfl, rfl, h.stop⟩⟩
  case h_3 status expected =>
    obtain rfl := Option.some_inj.mp role
    obtain ⟨hexpected, rfl⟩ := effect_offer heffect
    cases expected with
    | true => exact ⟨_, .rx (.offer rfl status hexpected.symm), hmoves _ hended rfl h.stop⟩
    | false => exact ⟨_, .rx (.unexpected rfl status hexpected.symm), hstands ⟨rfl, rfl, h.stop⟩⟩
  case h_4 seen =>
    obtain rfl := Option.some_inj.mp role
    obtain ⟨-, ⟨⟩⟩ := Option.ite_none_right_eq_some.mp heffect
    exact ⟨_, .rx (.peek rfl seen), hmoves _ (by split <;> simp) rfl h.stop⟩
  case h_5 bytes state =>
    obtain rfl := Option.some_inj.mp role
    obtain ⟨guarded, hrun, rfl⟩ := effect_locked heffect
    obtain ⟨rfl, ⟨⟩⟩ := Option.ite_none_right_eq_some.mp hrun
    exact ⟨_, .rx (.check rfl), hmoves _ (by split <;> simp) rfl h.stop⟩
  case h_6 bytes used =>
    obtain rfl := Option.some_inj.mp role
    obtain ⟨rfl, ⟨⟩⟩ := Option.ite_none_right_eq_some.mp heffect
    exact ⟨_, .rx (.count rfl), hmoves _ (by split <;> simp) rfl h.stop⟩
  case h_7 bytes' sent =>
    obtain ⟨rfl, ⟨⟩⟩ := Option.ite_none_right_eq_some.mp role
    obtain ⟨hsent, ⟨⟩⟩ := Option.ite_none_right_eq_some.mp heffect
    exact ⟨_, .rx (.deposit rfl hsent), hmoves _ (by split <;> simp) rfl h.stop⟩
  case h_8 bytes written =>
    obtain ⟨rfl, ⟨⟩⟩ := Option.ite_none_right_eq_some.mp role
    obtain rfl := Option.some_inj.mp heffect
    exact ⟨_, .rx (.acknowledge rfl written), hmoves _ (by split <;> simp) rfl h.stop⟩
  case h_9 bytes written =>
    obtain ⟨hbytes, ⟨⟩⟩ := Option.ite_none_left_eq_some.mp role
    obtain rfl := Option.some_inj.mp heffect
    exact ⟨_, .rx (.refuse rfl hbytes written), hstands ⟨rfl, rfl, h.stop⟩⟩
  case h_10 =>
    obtain rfl := Option.some_inj.mp role
    obtain rfl := Option.some_inj.mp heffect
    refine ⟨_, .rx (.leave rfl), ?_⟩
    have hlive : SameTasks s (s.world.state.clearHandle .rx) := fun _ _ => rfl
    apply h.rx_leaves rfl hlive h.stop
    · exact ⟨by simp, by simp, by simp, h.rxBooks.fresh⟩
    · exact h.clientBooks.frame rfl rfl rfl (fun _ => rfl) fun _ => rfl
  case h_11 => exact absurd rfl hended
  case h_12 reason _ _ =>
    obtain rfl := Option.some_inj.mp role
    obtain rfl := Option.some_inj.mp heffect
    exact ⟨_, .rx (.lose rfl reason), hmoves _ (by simp) rfl h.stop⟩
  case h_13 =>
    obtain rfl := Option.some_inj.mp role
    obtain ⟨-, ⟨⟩⟩ := Option.ite_none_right_eq_some.mp heffect
    exact ⟨_, .idle rfl _, hstands ⟨rfl, rfl, h.stop⟩⟩
  case h_14 =>
    obtain ⟨hquiet, ⟨⟩⟩ := Option.ite_none_right_eq_some.mp role
    exact ⟨_, .idle (idle_of_quiet hquiet) _, hstands (effect_quiet hquiet h.stop heffect)⟩

end Rx

section Heartbeat
variable {s : (choreography secret).Scene} {l : Link} {st : State} {trace : List Entry} {id : ℕ}

theorem heartbeat_simulated {o : Op} {r : o.Res} {ph : Unit} (h : Depicts s l)
    (live : s.world.state.live (.heartbeat id) = true)
    (role : heartbeatNext () o r = some ph)
    (heffect : effect (.heartbeat id) o r s.world.state = some st) :
    Simulated l ⟨.heartbeat id, o, r⟩ (s.moved (.heartbeat id) ph ⟨st, trace⟩) := by
  have hstands : Undisturbed s.world.state st →
      Depicts (s.moved (.heartbeat id) () ⟨st, trace⟩) l := h.stands live
  unfold heartbeatNext at role
  split at role
  case h_1 reason _ =>
    obtain rfl := Option.some_inj.mp heffect
    obtain ⟨shared, supervisor, server, rx, client, writer⟩ := l
    obtain rfl : _ = shared := h.shared
    refine ⟨_, .heartbeatLost id reason, ?_⟩
    have hlive :
        SameTasks s { s.world.state with bits := { s.world.state.bits with lost := true } } :=
      fun _ _ => rfl
    apply h.other_moves (by simp) (by simp) hlive h.stop
    · exact h.rx.congr fun _ => Choreography.Scene.part_moved_of_ne (by simp) (hlive _ rfl)
    · exact h.client.congr fun _ => Choreography.Scene.part_moved_of_ne (by simp) (hlive _ rfl)
    · exact h.writer.congr fun _ => Choreography.Scene.part_moved_of_ne (by simp) (hlive _ rfl)
    · exact h.rxBooks
    · exact h.clientBooks
  case h_2 =>
    obtain ⟨-, ⟨⟩⟩ := Option.ite_none_right_eq_some.mp heffect
    exact ⟨_, .idle rfl _, hstands ⟨rfl, rfl, h.stop⟩⟩
  case h_3 bytes written =>
    obtain rfl := Option.some_inj.mp heffect
    exact ⟨_, .heartbeat id bytes written, hstands ⟨rfl, rfl, h.stop⟩⟩
  case h_4 =>
    obtain rfl := Option.some_inj.mp heffect
    exact ⟨_, .idle rfl _, h.dies live (by simp) (by simp) (by simp)⟩
  case h_5 =>
    obtain ⟨hquiet, -⟩ := Option.ite_none_right_eq_some.mp role
    exact ⟨_, .idle (idle_of_quiet hquiet) _, hstands (effect_quiet hquiet h.stop heffect)⟩

end Heartbeat

section Writer
variable {s : (choreography secret).Scene} {l : Link} {st : State} {trace : List Entry}
  {socket : ℕ}

theorem writer_done_simulated {o : Op} {r : o.Res} {ph : WriterPhase} (h : Depicts s l)
    (live : s.world.state.live (.writer socket) = true)
    (hdone : s.phase (.writer socket) = WriterPhase.done)
    (role : writerNext socket (s.phase (.writer socket)) o r = some ph)
    (heffect : effect (.writer socket) o r s.world.state = some st) :
    Simulated l ⟨.writer socket, o, r⟩ (s.moved (.writer socket) ph ⟨st, trace⟩) := by
  have hdies : Depicts (s.moved (.writer socket) (s.phase (.writer socket))
      ⟨s.world.state.setLive (.writer socket) false, trace⟩) l := by
    apply h.dies live (by simp) (by simp)
    rintro n rest ⟨⟩ hwriter
    exact absurd ((h.writer_live hwriter).2.symm.trans hdone) (by simp)
  rw [hdone] at role hdies
  unfold writerNext at role
  split at role
  case h_5 =>
    obtain rfl := Option.some_inj.mp role
    obtain rfl := Option.some_inj.mp heffect
    exact ⟨_, .idle rfl _, hdies⟩
  case h_6 => cases role
  all_goals contradiction

/-- The writer says that it is done. -/
theorem ClientBooks.finish {b b' : Ledger} {server : ServerPhase}
    {client : Option (ℕ × ProxyPhase)} (h : ClientBooks b server client (some socket))
    (hsockets : b'.socketsAccepted = b.socketsAccepted)
    (hactive : b'.clientActive = b.clientActive) (hlive : b'.live = b.live) :
    ClientBooks b' server client none where
  clientFresh n := by simpa only [hsockets, hlive] using h.clientFresh n
  writerFresh n := by simpa only [hsockets, hlive] using h.writerFresh n
  accepted n := by simpa only [hsockets, hlive] using h.accepted n
  active := by simpa only [hactive] using h.active
  single := h.single
  unserved n := by simpa only [hlive] using h.unserved n
  served := by simp
  undone := by simp [h.served socket rfl]
  done := by simp

theorem writer_simulated {o : Op} {r : o.Res} {ph : WriterPhase} (h : Depicts s l)
    (live : s.world.state.live (.writer socket) = true)
    (role : writerNext socket (s.phase (.writer socket)) o r = some ph)
    (heffect : effect (.writer socket) o r s.world.state = some st) :
    Simulated l ⟨.writer socket, o, r⟩ (s.moved (.writer socket) ph ⟨st, trace⟩) := by
  have hstands : Undisturbed s.world.state st →
      Depicts (s.moved (.writer socket) (s.phase (.writer socket)) ⟨st, trace⟩) l := h.stands live
  cases hphase : s.phase (.writer socket) with
  | done => exact writer_done_simulated h live hphase role heffect
  | running rest =>
    have hwriter : l.writer = some (socket, rest) := by
      have hslot := h.writer.eq_some (Choreography.Scene.part_of_live live) (by simp [hphase])
      rw [hphase] at hslot
      obtain ⟨⟨n, rest'⟩, hwriter, ⟨⟩⟩ := Option.map_eq_some_iff.mp hslot
      exact hwriter
    have hmoves : ∀ rest : List UInt8, st.ledger = s.world.state.ledger →
        st.bits.stop = false → Depicts (s.moved (.writer socket) (.running rest) ⟨st, trace⟩)
          { l with toShared := st.shared, writer := some (socket, rest) } :=
      fun rest => h.writer_moves hwriter
    rw [hphase] at role hstands
    obtain ⟨shared, supervisor, server, rx, client, writer⟩ := l
    obtain rfl : _ = shared := h.shared
    obtain rfl : writer = some (socket, rest) := hwriter
    unfold writerNext at role
    split at role
    case h_1 capacity bytes hrest =>
      cases hrest
      obtain ⟨rfl, ⟨⟩⟩ := Option.ite_none_right_eq_some.mp role
      obtain ⟨rfl, ⟨⟩⟩ := Option.ite_none_right_eq_some.mp heffect
      exact ⟨_, .writer (.take rfl capacity), hmoves _ rfl h.stop⟩
    case h_2 bytes result hrest =>
      cases hrest
      obtain ⟨⟨rfl, rfl⟩, ⟨⟩⟩ := Option.ite_none_right_eq_some.mp role
      obtain ⟨hsent, ⟨⟩⟩ := Option.ite_none_right_eq_some.mp heffect
      exact ⟨_, .writer (.send rfl hsent), hmoves _ rfl h.stop⟩
    case h_3 hrest =>
      cases hrest
      obtain rfl := Option.some_inj.mp role
      obtain ⟨guarded, hrun, rfl⟩ := effect_locked heffect
      obtain ⟨rfl, ⟨⟩⟩ := Option.ite_none_right_eq_some.mp hrun
      exact ⟨_, .writer (.state rfl), hstands ⟨rfl, rfl, h.stop⟩⟩
    case h_4 hrest =>
      obtain ⟨rfl, ⟨⟩⟩ := Option.ite_none_right_eq_some.mp role
      obtain rfl := Option.some_inj.mp heffect
      refine ⟨_, .writer (.finish rfl), ?_⟩
      refine h.writer_leaves rfl (fun _ _ => rfl) h.stop ?_ ?_
      · exact h.rxBooks.frame rfl rfl fun _ => rfl
      · exact h.clientBooks.finish rfl rfl rfl
    case h_5 hrest => cases hrest
    case h_6 => cases role
    case h_7 hrest =>
      obtain ⟨hquiet, ⟨⟩⟩ := Option.ite_none_right_eq_some.mp role
      exact ⟨_, .idle (idle_of_quiet hquiet) _, hstands (effect_quiet hquiet h.stop heffect)⟩

end Writer

section Client
variable {s : (choreography secret).Scene} {l : Link} {st : State} {trace : List Entry}
  {socket : ℕ}

theorem not_admits_released (m : Mark) : SessionPhase.released.admits m = false := by
  cases m with
  | leave call error =>
    cases call with
    | beginRpc => by_cases herror : error = .ok <;> simp [SessionPhase.admits, herror]
    | _ => rfl
  | handled session request after error beginProxy => cases beginProxy <;> rfl
  | _ => rfl

/-- A client that has released the slot only ends. -/
theorem clientNext_released {o : Op} {r : o.Res} {old ph : ClientPhase}
    (hreleased : old.session = .released) (role : clientNext socket old o r = some ph) :
    o = .taskDeleteSelf ∧ ph = old := by
  obtain ⟨session, proxy⟩ := old
  obtain rfl : session = .released := hreleased
  unfold clientNext at role
  split at role
  case h_1 =>
    cases role
    exact ⟨rfl, rfl⟩
  case h_2 =>
    obtain ⟨-, hsome⟩ := Option.ite_none_left_eq_some.mp role
    cases hsome
  case h_14 m _ _ =>
    rw [not_admits_released] at role
    cases role
  case h_8 | h_9 =>
    obtain ⟨-, hsome⟩ := Option.ite_none_right_eq_some.mp role
    cases hsome
  case h_17 =>
    obtain ⟨⟨-, hnot⟩, -⟩ := Option.ite_none_right_eq_some.mp role
    exact absurd rfl hnot
  all_goals simp at role

theorem client_released_simulated {o : Op} {r : o.Res} {ph : ClientPhase} (h : Depicts s l)
    (live : s.world.state.live (.client socket) = true) {old : ClientPhase}
    (hold : s.phase (.client socket) = old) (hreleased : old.session = .released)
    (role : clientNext socket old o r = some ph)
    (heffect : effect (.client socket) o r s.world.state = some st) :
    Simulated l ⟨.client socket, o, r⟩ (s.moved (.client socket) ph ⟨st, trace⟩) := by
  have hdies : Depicts (s.moved (.client socket) (s.phase (.client socket))
      ⟨s.world.state.setLive (.client socket) false, trace⟩) l := by
    apply h.dies live (by simp) _ (by simp)
    rintro n ph ⟨⟩ hclient
    obtain ⟨-, hphase, hph⟩ := h.client_live hclient
    rw [← hphase, hold] at hph
    exact hph hreleased
  rw [hold] at hdies
  obtain ⟨rfl, rfl⟩ := clientNext_released hreleased role
  obtain rfl := Option.some_inj.mp heffect
  exact ⟨_, .idle rfl _, hdies⟩

section Session
variable {session session' : SessionPhase}

theorem apply_not_released {event : ExpansionEvent} {ok : Bool}
    (h : session.apply event ok = some session') : session' ≠ .released := by
  unfold SessionPhase.apply at h
  split at h
  all_goals first
    | cases h; done
    | obtain rfl := Option.some_inj.mp h
      split <;> simp

theorem look_not_released (h : session ≠ .released) (state : ExpansionState) :
    session.look state ≠ .released := by
  unfold SessionPhase.look
  split
  · split <;> simp
  · exact h

theorem arm_not_released (h : session ≠ .released) : session.arm ≠ .released := by
  cases session <;> first | exact h | simp [SessionPhase.arm]

theorem disarm_not_released (h : session ≠ .released) (status : ExpansionFrameError) :
    session.disarm status ≠ .released := by
  unfold SessionPhase.disarm
  split
  · simp
  · simp
  · exact h

theorem signal_not_released (h : session ≠ .released) : session.signal ≠ .released := by
  cases session <;> first | exact h | simp [SessionPhase.signal]

theorem respond_not_released {request : BridgeMessage} {status : BridgeStatus}
    {payload : List UInt8} (h : session.respond request status payload = some session') :
    session' ≠ .released := by
  unfold SessionPhase.respond at h
  split at h
  · cases h
    simp
  · obtain ⟨-, hmap⟩ := Option.ite_none_right_eq_some.mp h
    obtain ⟨encoded, -, rfl⟩ := Option.map_eq_some_iff.mp hmap
    simp
  · cases h

theorem send_not_released {bytes : List UInt8} {sent : ℤ}
    (h : session.send bytes sent = some session') : session' ≠ .released := by
  unfold SessionPhase.send at h
  split at h
  · cases h
    simp
  · obtain ⟨-, ⟨⟩⟩ := Option.ite_none_right_eq_some.mp h
    simp
  · cases h

end Session

namespace ClientBooks
variable {b b' : Ledger} {server : ServerPhase} {writer : Option ℕ} {proxy : ProxyPhase}

theorem openProxy (h : ClientBooks b server (some (socket, .none)) writer)
    (hsockets : b'.socketsAccepted = b.socketsAccepted)
    (hactive : b'.clientActive = b.clientActive) (hlive : b'.live = b.live)
    (hdone : b'.writerDone socket = false) :
    ClientBooks b' server (some (socket, .created)) writer where
  clientFresh n := by simpa only [hsockets, hlive] using h.clientFresh n
  writerFresh n := by simpa only [hsockets, hlive] using h.writerFresh n
  accepted n := by simpa only [hsockets, hlive] using h.accepted n
  active := hactive.trans h.active
  single hclaimed := absurd (h.single hclaimed) (by simp)
  unserved := by
    rintro n proxy ⟨⟩ -
    rw [hlive]
    exact h.unserved socket _ rfl (.inl rfl)
  served n hwriter := absurd (h.served n hwriter) (by simp)
  undone := by
    rintro n ⟨⟩
    exact hdone
  done := by simp

/-- The writer of a running proxy is done. -/
theorem drain (h : ClientBooks b server (some (socket, .running)) writer) :
    ClientBooks b server (some (socket, .drained)) none where
  clientFresh := h.clientFresh
  writerFresh := h.writerFresh
  accepted := h.accepted
  active := h.active
  single hclaimed := absurd (h.single hclaimed) (by simp)
  unserved := by simp
  served := by simp
  undone := by simp
  done := by simp

/-- The client gives the slot back. -/
theorem release (h : ClientBooks b server (some (socket, proxy)) writer)
    (hproxy : proxy ≠ .running) (hsockets : b'.socketsAccepted = b.socketsAccepted)
    (hactive : b'.clientActive = false) (hlive : b'.live = b.live) :
    ClientBooks b' server none writer where
  clientFresh n := by simpa only [hsockets, hlive] using h.clientFresh n
  writerFresh n := by simpa only [hsockets, hlive] using h.writerFresh n
  accepted n := by simpa only [hsockets, hlive] using h.accepted n
  active := by
    have hunclaimed : server.claimed.isSome = false := by
      apply Bool.eq_false_iff.mpr
      intro hclaimed
      exact absurd (h.single hclaimed) (by simp)
    rw [hactive, hunclaimed]
    rfl
  single _ := rfl
  unserved := by simp
  served n hwriter := by
    have hserved := h.served n hwriter
    rw [Option.some_inj, Prod.mk.injEq] at hserved
    exact absurd hserved.2 hproxy
  undone := by simp
  done := by simp

end ClientBooks

/-- Only the session changes. -/
theorem Depicts.session_moves (h : Depicts s l) {old : ClientPhase}
    (hclient : l.client = some (socket, old)) {session : SessionPhase}
    (hsession : session ≠ .released) (hledger : st.ledger = s.world.state.ledger)
    (hstop : st.bits.stop = false) :
    Depicts (s.moved (.client socket) { old with session := session } ⟨st, trace⟩)
      { l with
        toShared := st.shared, client := some (socket, { old with session := session }) } := by
  have hbooks := h.clientBooks
  rw [Link.holder, hclient] at hbooks
  apply h.client_moves hclient hsession (sameTasks_of_ledger hledger) hstop
  · exact hledger ▸ h.rxBooks
  · exact hledger ▸ hbooks

/-! The client's proxy comes up and goes down. -/

section Proxy
variable {old : ClientPhase} {created : Bool} (h : Depicts s l)
  (hclient : l.client = some (socket, old))
include h hclient

theorem proxy_opens (hopened : old.session = .opened (some [])) (hproxy : old.proxy = .none)
    (heffect : effect (.client socket) (.proxyCreate socket) created s.world.state = some st) :
    Simulated l ⟨.client socket, .proxyCreate socket, created⟩ (s.moved (.client socket)
      (if created = true then { old with proxy := .created } else old : ClientPhase)
      ⟨st, trace⟩) := by
  obtain ⟨live, hphase, hreleased⟩ := h.client_live hclient
  obtain ⟨shared, supervisor, server, rx, client, writer⟩ := l
  obtain rfl : _ = shared := h.shared
  obtain rfl : client = some (socket, old) := hclient
  refine ⟨_, .client rfl (.open hopened hproxy created), ?_⟩
  cases created with
  | false =>
    obtain rfl := Option.some_inj.mp heffect
    have hstands : Depicts (s.moved (.client socket) (s.phase (.client socket))
        ⟨s.world.state, trace⟩) _ := h.stands live ⟨rfl, rfl, h.stop⟩
    rw [hphase] at hstands
    exact hstands
  | true =>
    obtain rfl := Option.some_inj.mp heffect
    have hbooks := h.clientBooks
    rw [Link.holder, Option.map_some, hproxy] at hbooks
    refine h.client_moves rfl hreleased (fun _ _ => rfl) h.stop ?_ ?_
    · exact h.rxBooks.frame rfl rfl fun _ => rfl
    · refine hbooks.openProxy rfl rfl rfl ?_
      have hnew : (Function.update s.world.state.proxy socket {}) socket = {} :=
        Function.update_self _ _ _
      exact congrArg ProxyBits.writerDone hnew

theorem proxy_starts (hopened : old.session = .opened (some [])) (hproxy : old.proxy = .created)
    (heffect : effect (.client socket) (.taskCreate (.writer socket)) created s.world.state =
      some st) :
    Simulated l ⟨.client socket, .taskCreate (.writer socket), created⟩ (s.moved (.client socket)
      (if created = true then { old with proxy := .running } else old : ClientPhase)
      ⟨st, trace⟩) := by
  obtain ⟨live, hphase, -⟩ := h.client_live hclient
  obtain ⟨shared, supervisor, server, rx, client, writer⟩ := l
  obtain rfl : _ = shared := h.shared
  obtain rfl : client = some (socket, old) := hclient
  refine ⟨_, .client rfl (.start hopened hproxy created), ?_⟩
  cases created with
  | false =>
    obtain rfl := Option.some_inj.mp heffect
    have hstands : Depicts (s.moved (.client socket) (s.phase (.client socket))
        ⟨s.world.state, trace⟩) _ := h.stands live ⟨rfl, rfl, h.stop⟩
    rw [hphase] at hstands
    exact hstands
  | true =>
    obtain rfl := Option.some_inj.mp heffect
    obtain ⟨session, proxy⟩ := old
    obtain rfl : proxy = .created := hproxy
    exact h.client_creates rfl

theorem proxy_drains {r : Unit} (hproxy : old.proxy = .running)
    (heffect : effect (.client socket) (.proxyWaitDone socket) r s.world.state = some st) :
    Simulated l ⟨.client socket, .proxyWaitDone socket, r⟩
      (s.moved (.client socket) ({ old with proxy := .drained } : ClientPhase) ⟨st, trace⟩) := by
  obtain ⟨-, -, hreleased⟩ := h.client_live hclient
  obtain ⟨shared, supervisor, server, rx, client, writer⟩ := l
  obtain rfl : _ = shared := h.shared
  obtain rfl : client = some (socket, old) := hclient
  obtain ⟨hdone, ⟨⟩⟩ := Option.ite_none_right_eq_some.mp heffect
  have hbooks := h.clientBooks
  rw [Link.holder, Option.map_some, hproxy] at hbooks
  obtain rfl : writer = none := Option.map_eq_none_iff.mp (hbooks.done _ rfl hdone)
  refine ⟨_, .client rfl (.drain hproxy rfl), ?_⟩
  exact h.client_moves rfl hreleased (fun _ _ => rfl) h.stop h.rxBooks hbooks.drain

end Proxy

theorem client_simulated {o : Op} {r : o.Res} {ph : ClientPhase} (h : Depicts s l)
    (live : s.world.state.live (.client socket) = true)
    (role : clientNext socket (s.phase (.client socket)) o r = some ph)
    (heffect : effect (.client socket) o r s.world.state = some st) :
    Simulated l ⟨.client socket, o, r⟩ (s.moved (.client socket) ph ⟨st, trace⟩) := by
  have hstands : Undisturbed s.world.state st →
      Depicts (s.moved (.client socket) (s.phase (.client socket)) ⟨st, trace⟩) l := h.stands live
  obtain ⟨old, hold⟩ : ∃ old : ClientPhase, s.phase (.client socket) = old := ⟨_, rfl⟩
  rw [hold] at role hstands
  by_cases hreleased : old.session = .released
  · exact client_released_simulated h live hold hreleased role heffect
  have hclient : l.client = some (socket, old) := by
    apply h.client.eq_some _ hreleased
    rw [← hold]
    exact Choreography.Scene.part_of_live live
  have hsession : ∀ session, session ≠ .released → st.ledger = s.world.state.ledger →
      st.bits.stop = false →
      Depicts (s.moved (.client socket) { old with session := session } ⟨st, trace⟩)
        { l with
          toShared := st.shared
          client := some (socket, { old with session := session }) } :=
    fun session => h.session_moves hclient
  obtain ⟨shared, supervisor, server, rx, client, writer⟩ := l
  obtain rfl : _ = shared := h.shared
  obtain rfl : client = some (socket, old) := hclient
  unfold clientNext at role
  split at role
  case h_1 =>
    obtain ⟨hold, -⟩ := Option.ite_none_right_eq_some.mp role
    exact absurd hold hreleased
  case h_2 event ok action =>
    obtain ⟨hproxy, hmap⟩ := Option.ite_none_left_eq_some.mp role
    obtain ⟨session, happly, rfl⟩ := Option.map_eq_some_iff.mp hmap
    obtain ⟨machine, hmachine, rfl⟩ := effect_apply heffect
    refine ⟨_, .client rfl (.apply hmachine happly fun hevent hrunning =>
      hproxy ⟨hevent, hrunning⟩), ?_⟩
    exact hsession _ (apply_not_released happly) rfl h.stop
  case h_3 =>
    obtain ⟨-, ⟨⟩⟩ := Option.ite_none_left_eq_some.mp role
    obtain ⟨guarded, hrun, rfl⟩ := effect_locked heffect
    obtain ⟨rfl, ⟨⟩⟩ := Option.ite_none_right_eq_some.mp hrun
    exact ⟨_, .client rfl .look, hsession _ (look_not_released hreleased _) rfl h.stop⟩
  case h_4 =>
    obtain ⟨-, ⟨⟩⟩ := Option.ite_none_left_eq_some.mp role
    obtain ⟨guarded, hrun, rfl⟩ := effect_locked heffect
    obtain rfl := Option.some_inj.mp hrun
    exact ⟨_, .client rfl .arm, hsession _ (arm_not_released hreleased) rfl h.stop⟩
  case h_5 =>
    obtain ⟨-, ⟨⟩⟩ := Option.ite_none_left_eq_some.mp role
    obtain ⟨guarded, hrun, rfl⟩ := effect_locked heffect
    obtain ⟨rfl, ⟨⟩⟩ := Option.ite_none_right_eq_some.mp hrun
    exact ⟨_, .client rfl .disarm, hsession _ (disarm_not_released hreleased _) rfl h.stop⟩
  case h_6 reason _ =>
    obtain ⟨-, ⟨⟩⟩ := Option.ite_none_left_eq_some.mp role
    obtain rfl := Option.some_inj.mp heffect
    exact ⟨_, .client rfl (.signal reason), hsession _ (signal_not_released hreleased) rfl h.stop⟩
  case h_7 =>
    obtain ⟨hstopped, ⟨⟩⟩ := Option.ite_none_right_eq_some.mp role
    obtain rfl := Option.some_inj.mp heffect
    exact ⟨_, .client rfl (.reset hstopped), hsession _ (by simp) rfl h.stop⟩
  case h_8 request status payload _ =>
    obtain ⟨hproxy, hmap⟩ := Option.ite_none_right_eq_some.mp role
    obtain ⟨session, hrespond, rfl⟩ := Option.map_eq_some_iff.mp hmap
    obtain rfl := Option.some_inj.mp heffect
    refine ⟨_, .client rfl (.respond hproxy hrespond), ?_⟩
    exact hsession _ (respond_not_released hrespond) rfl h.stop
  case h_9 bytes result =>
    obtain ⟨⟨rfl, hproxy⟩, hmap⟩ := Option.ite_none_right_eq_some.mp role
    obtain ⟨session, hsend, rfl⟩ := Option.map_eq_some_iff.mp hmap
    obtain ⟨hsent, ⟨⟩⟩ := Option.ite_none_right_eq_some.mp heffect
    refine ⟨_, .client rfl (.send hproxy hsent hsend), ?_⟩
    exact hsession _ (send_not_released hsend) rfl h.stop
  case h_10 =>
    obtain ⟨⟨rfl, hopened, hproxy⟩, ⟨⟩⟩ := Option.ite_none_right_eq_some.mp role
    exact proxy_opens h rfl hopened hproxy heffect
  case h_11 =>
    obtain ⟨⟨rfl, hproxy, hopened⟩, ⟨⟩⟩ := Option.ite_none_right_eq_some.mp role
    exact proxy_starts h rfl hopened hproxy heffect
  case h_12 =>
    obtain ⟨⟨rfl, hproxy, -⟩, ⟨⟩⟩ := Option.ite_none_right_eq_some.mp role
    exact proxy_drains h rfl hproxy heffect
  case h_13 =>
    obtain ⟨⟨hover, hproxy⟩, ⟨⟩⟩ := Option.ite_none_right_eq_some.mp role
    obtain rfl := Option.some_inj.mp heffect
    refine ⟨_, .client rfl (.release hover hproxy), ?_⟩
    have hbooks := h.clientBooks
    rw [Link.holder, Option.map_some] at hbooks
    refine h.client_leaves rfl rfl (fun _ _ => rfl) h.stop ?_ ?_
    · exact h.rxBooks.frame rfl rfl fun _ => rfl
    · exact hbooks.release hproxy rfl rfl rfl
  case h_14 m _ hm =>
    obtain ⟨hadmits, ⟨⟩⟩ := Option.ite_none_right_eq_some.mp role
    obtain rfl := Option.some_inj.mp heffect
    exact ⟨_, .client rfl (.mark hadmits hm), hstands ⟨rfl, rfl, h.stop⟩⟩
  case h_15 =>
    obtain ⟨-, ⟨⟩⟩ := Option.ite_none_left_eq_some.mp role
    obtain ⟨-, ⟨⟩⟩ := Option.ite_none_right_eq_some.mp heffect
    exact ⟨_, .idle rfl _, hstands ⟨rfl, rfl, h.stop⟩⟩
  case h_16 bytes written =>
    obtain ⟨-, ⟨⟩⟩ := Option.ite_none_left_eq_some.mp role
    obtain rfl := Option.some_inj.mp heffect
    exact ⟨_, .client rfl (.write bytes written), hstands ⟨rfl, rfl, h.stop⟩⟩
  case h_17 =>
    obtain ⟨⟨hquiet, -⟩, ⟨⟩⟩ := Option.ite_none_right_eq_some.mp role
    exact ⟨_, .idle (idle_of_quiet hquiet) _, hstands (effect_quiet hquiet h.stop heffect)⟩

end Client

section Server
variable {s : (choreography secret).Scene} {l : Link} {st : State} {trace : List Entry}

namespace ClientBooks
variable {b b' : Ledger} {server : ServerPhase} {client : Option (ℕ × ProxyPhase)}
  {writer : Option ℕ}

/-- The accept loop has nothing in hand. -/
theorem listen (h : ClientBooks b server client writer) (hunclaimed : server.claimed = none) :
    ClientBooks b .listening client writer where
  clientFresh := h.clientFresh
  writerFresh := h.writerFresh
  accepted := by simp [ServerPhase.socket]
  active := by
    have hactive := h.active
    rw [hunclaimed] at hactive
    exact hactive
  single := by simp [ServerPhase.claimed]
  unserved := h.unserved
  served := h.served
  undone := h.undone
  done := h.done

/-- A connection is accepted, under a new name. -/
theorem accept (h : ClientBooks b server client writer) (hunclaimed : server.claimed = none)
    (hsockets : b'.socketsAccepted = b.socketsAccepted + 1)
    (hactive : b'.clientActive = b.clientActive) (hlive : b'.live = b.live)
    (hdone : b'.writerDone = b.writerDone) :
    ClientBooks b' (.accepted b.socketsAccepted) client writer where
  clientFresh n hn := by
    rw [hlive] at hn
    rw [hsockets]
    exact Nat.lt_succ_of_lt (h.clientFresh n hn)
  writerFresh n hn := by
    rw [hlive] at hn
    rw [hsockets]
    exact Nat.lt_succ_of_lt (h.writerFresh n hn)
  accepted := by
    rintro n ⟨⟩
    rw [hsockets, hlive]
    refine ⟨Nat.lt_succ_self _, Bool.eq_false_iff.mpr fun hn => ?_,
      Bool.eq_false_iff.mpr fun hn => ?_⟩
    · exact absurd (h.clientFresh _ hn) (Nat.lt_irrefl _)
    · exact absurd (h.writerFresh _ hn) (Nat.lt_irrefl _)
  active := by
    have hold := h.active
    rw [hunclaimed] at hold
    rw [hactive]
    exact hold
  single := by simp [ServerPhase.claimed]
  unserved := by simpa only [hlive] using h.unserved
  served := h.served
  undone := by simpa only [hdone] using h.undone
  done := by simpa only [hdone] using h.done

/-- The slot is taken for an accepted connection. -/
theorem claim (h : ClientBooks b (.accepted socket) client writer) (hclient : client = none)
    (hsockets : b'.socketsAccepted = b.socketsAccepted) (hactive : b'.clientActive = true)
    (hlive : b'.live = b.live) : ClientBooks b' (.holding socket) client writer where
  clientFresh n := by simpa only [hsockets, hlive] using h.clientFresh n
  writerFresh n := by simpa only [hsockets, hlive] using h.writerFresh n
  accepted n hn := by
    rw [hsockets, hlive]
    exact h.accepted n hn
  active := hactive
  single _ := hclient
  unserved := by simp [hclient]
  served := h.served
  undone := by simp [hclient]
  done := by simp [hclient]

/-- The slot is given back without a client. -/
theorem abandon (h : ClientBooks b (.holding socket) client writer)
    (hsockets : b'.socketsAccepted = b.socketsAccepted) (hactive : b'.clientActive = false)
    (hlive : b'.live = b.live) : ClientBooks b' .listening client writer := by
  obtain rfl := h.single rfl
  exact {
    clientFresh n := by simpa only [hsockets, hlive] using h.clientFresh n
    writerFresh n := by simpa only [hsockets, hlive] using h.writerFresh n
    accepted := by simp [ServerPhase.socket]
    active := hactive
    single := fun _ => rfl
    unserved := by simp
    served := h.served
    undone := by simp
    done := by simp }

end ClientBooks

theorem accept_simulated {result : Except Errno ℕ} {ph : ServerPhase} (h : Depicts s l)
    (live : s.world.state.live .server = true) (hunclaimed : l.server.claimed = none)
    (role : (match result with
      | .ok socket => some (ServerPhase.accepted socket)
      | .error _ => some .listening) = some ph)
    (heffect : effect .server .accept result s.world.state = some st) :
    Simulated l ⟨.server, .accept, result⟩ (s.moved .server ph ⟨st, trace⟩) := by
  have hholding : ∀ socket, l.server ≠ .holding socket := by
    intro socket hserver
    rw [hserver] at hunclaimed
    cases hunclaimed
  obtain ⟨shared, supervisor, server, rx, client, writer⟩ := l
  obtain rfl : _ = shared := h.shared
  cases result with
  | ok socket =>
    cases role
    obtain ⟨rfl, ⟨⟩⟩ := Option.ite_none_right_eq_some.mp heffect
    refine ⟨_, .server (.accept hholding), ?_⟩
    refine h.server_moves live (fun _ _ => rfl) h.stop ?_ ?_
    · exact h.rxBooks.frame rfl rfl fun _ => rfl
    · exact h.clientBooks.accept hunclaimed rfl rfl rfl rfl
  | error errno =>
    cases role
    obtain rfl := Option.some_inj.mp heffect
    refine ⟨_, .server (.acceptNone hholding errno), ?_⟩
    exact h.server_moves live (fun _ _ => rfl) h.stop h.rxBooks (h.clientBooks.listen hunclaimed)

theorem server_simulated {o : Op} {r : o.Res} {ph : ServerPhase} (h : Depicts s l)
    (live : s.world.state.live .server = true)
    (role : serverNext (s.phase .server) o r = some ph)
    (heffect : effect .server o r s.world.state = some st) :
    Simulated l ⟨.server, o, r⟩ (s.moved .server ph ⟨st, trace⟩) := by
  have hphase := h.server
  have hstands : Undisturbed s.world.state st →
      Depicts (s.moved .server (s.phase .server) ⟨st, trace⟩) l := h.stands live
  have hdies : Depicts (s.moved .server (s.phase .server)
      ⟨s.world.state.setLive .server false, trace⟩) l :=
    h.dies live (by simp) (by simp) (by simp)
  rw [hphase] at role hstands hdies
  obtain ⟨shared, supervisor, server, rx, client, writer⟩ := l
  obtain rfl : _ = shared := h.shared
  change serverNext server o r = some ph at role
  unfold serverNext at role
  split at role
  case h_1 => exact accept_simulated h live rfl role heffect
  case h_2 => exact accept_simulated h live rfl role heffect
  case h_3 socket claimed =>
    obtain rfl := Option.some_inj.mp role
    obtain ⟨hclaimed, ⟨⟩⟩ := Option.ite_none_right_eq_some.mp heffect
    have hactive : s.world.state.clientActive = client.isSome := by
      have hactive := h.clientBooks.active
      change _ = (client.map fun client => (client.1, client.2.proxy)).isSome at hactive
      rwa [Option.isSome_map] at hactive
    rw [hactive] at hclaimed
    cases client with
    | none =>
      subst hclaimed
      refine ⟨_, .server (.claim rfl rfl), ?_⟩
      refine h.server_moves live (fun _ _ => rfl) h.stop ?_ ?_
      · exact h.rxBooks.frame rfl rfl fun _ => rfl
      · exact h.clientBooks.claim rfl rfl rfl rfl
    | some client =>
      subst hclaimed
      refine ⟨_, .server (.busy rfl rfl), hstands ⟨rfl, ?_, h.stop⟩⟩
      exact congrArg (fun active => { s.world.state.ledger with clientActive := active })
        hactive.symm
  case h_4 bytes result =>
    obtain ⟨rfl, ⟨⟩⟩ := Option.ite_none_right_eq_some.mp role
    obtain ⟨-, ⟨⟩⟩ := Option.ite_none_right_eq_some.mp heffect
    exact ⟨_, .server (.send rfl bytes result), hstands ⟨rfl, rfl, h.stop⟩⟩
  case h_5 request status payload _ =>
    obtain rfl := Option.some_inj.mp role
    obtain rfl := Option.some_inj.mp heffect
    exact ⟨_, .server (.mark rfl request status payload), hstands ⟨rfl, rfl, h.stop⟩⟩
  case h_6 created =>
    obtain ⟨rfl, ⟨⟩⟩ := Option.ite_none_right_eq_some.mp role
    obtain rfl := Option.some_inj.mp heffect
    cases created with
    | false => exact ⟨_, .server (.createNone rfl), hstands ⟨rfl, rfl, h.stop⟩⟩
    | true =>
      obtain rfl : client = none := Option.map_eq_none_iff.mp (h.clientBooks.single rfl)
      exact ⟨_, .server (.create rfl rfl), h.server_creates live rfl⟩
  case h_7 =>
    obtain rfl := Option.some_inj.mp role
    obtain rfl := Option.some_inj.mp heffect
    obtain rfl : client = none := Option.map_eq_none_iff.mp (h.clientBooks.single rfl)
    refine ⟨_, .server (.release rfl rfl), ?_⟩
    refine h.server_moves live (fun _ _ => rfl) h.stop ?_ ?_
    · exact h.rxBooks.frame rfl rfl fun _ => rfl
    · exact h.clientBooks.abandon rfl rfl rfl
  case h_8 =>
    obtain rfl := Option.some_inj.mp role
    obtain rfl := Option.some_inj.mp heffect
    exact ⟨_, .idle rfl _, hdies⟩
  case h_9 =>
    obtain ⟨hquiet, ⟨⟩⟩ := Option.ite_none_right_eq_some.mp role
    exact ⟨_, .idle (idle_of_quiet hquiet) _, hstands (effect_quiet hquiet h.stop heffect)⟩

end Server

/-! ### Runs -/

theorem depicts_opening : Depicts (choreography secret).opening {} where
  shared := rfl
  stop := rfl
  supervisor := rfl
  server := rfl
  rx := by
    intro n a
    simp [rxActs, Choreography.Scene.part, Choreography.opening]
  client := by
    intro n a
    simp [clientActs, Choreography.Scene.part, Choreography.opening]
  writer := by
    intro n a
    simp [writerActs, Choreography.Scene.part, Choreography.opening]
  rxBooks := ⟨by simp, by simp, by simp, by simp [State.ledger, Choreography.opening]⟩
  clientBooks := {
    clientFresh := by simp [State.ledger, Choreography.opening]
    writerFresh := by simp [State.ledger, Choreography.opening]
    accepted := by simp [ServerPhase.socket]
    active := rfl
    single := fun _ => rfl
    unserved := by simp [Link.holder]
    served := by simp
    undone := by simp [Link.holder]
    done := by simp [Link.holder] }

/-- Every step of the firmware is one of the link. -/
theorem Depicts.step {s s' : (choreography secret).Scene} {l : Link} (h : Depicts s l)
    (hstep : Choreography.Step s s') :
    ∃ e l', s'.world.trace = e :: s.world.trace ∧ l.Step e l' ∧ Depicts s' l' := by
  cases hstep with | @mk i o r ph st live role heffect =>
  suffices hsim : Simulated l ⟨i, o, r⟩ (s.moved i ph ⟨st, ⟨i, o, r⟩ :: s.world.trace⟩) by
    obtain ⟨l', hl', hdepicts⟩ := hsim
    exact ⟨_, l', rfl, hl', hdepicts⟩
  cases i with
  | server => exact server_simulated h live role heffect
  | supervisor => exact supervisor_simulated h live role heffect
  | client socket => exact client_simulated h live role heffect
  | writer socket => exact writer_simulated h live role heffect
  | rx id => exact rx_simulated h live role heffect
  | heartbeat id => exact heartbeat_simulated h live role heffect

/-- Every scene the roles allow is depicted by a link that took the same course. -/
theorem exists_course {s : (choreography secret).Scene} (hs : (choreography secret).Allowed s) :
    ∃ l, Link.Course s.world.trace l ∧ Depicts s l := by
  induction hs with
  | refl => exact ⟨{}, .nil, depicts_opening⟩
  | tail _ hstep ih =>
    obtain ⟨l, hcourse, hdepicts⟩ := ih
    obtain ⟨e, l', htrace, hl', hdepicts'⟩ := hdepicts.step hstep
    exact ⟨l', htrace ▸ .cons hcourse hl', hdepicts'⟩

end Bridge
end FlipforgeBridge
