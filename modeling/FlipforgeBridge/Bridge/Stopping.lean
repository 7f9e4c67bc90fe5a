import FlipforgeBridge.Bridge.Exclusion
import FlipforgeBridge.Bridge.Roster
import FlipforgeBridge.Bridge.Readiness

/-!
What `stop_io_tasks` can do. It deletes the I/O tasks that have not ended in time, wherever they
are; and it reads their handles twice, so that a task that ends in between makes the supervisor
delete itself.
-/
namespace FlipforgeBridge
open Process

namespace Bridge

/-! ### Tasks and their handles -/

/-- The name of an I/O task was given out. -/
def State.named (st : State) : Tid → Prop
  | .rx id => id < st.rxCreated
  | .heartbeat id => id < st.heartbeatCreated
  | _ => True

section Effect
variable {i : Tid} {o : Op} {r : o.Res} {st st' : State}

/-- Names stay given out, and a task comes to life under a new one. -/
structure Recruits (st st' : State) (t : Tid) : Prop where
  named : st.named t → st'.named t
  live : st'.live t = true → st.live t = true ∨ st'.named t ∧ ¬ st.named t

theorem Recruits.of_roster {t : Tid} (h : st'.roster = st.roster) : Recruits st st' t where
  named := by
    have hrx : st'.rxCreated = st.rxCreated := congrArg Roster.rxCreated h
    have hheartbeat : st'.heartbeatCreated = st.heartbeatCreated :=
      congrArg Roster.heartbeatCreated h
    cases t with
    | rx id => exact fun hid => Nat.lt_of_lt_of_eq hid hrx.symm
    | heartbeat id => exact fun hid => Nat.lt_of_lt_of_eq hid hheartbeat.symm
    | _ => exact fun _ => trivial
  live hlive := by
    have hsame : st'.live = st.live := congrArg Roster.live h
    exact .inl (hsame ▸ hlive)

theorem create_recruits (kind : TaskKind) {t : Tid} (ht : t.io = true) :
    Recruits st (st.create kind) t := by
  cases kind with
  | client socket | writer socket =>
    refine ⟨fun hnamed => hnamed, fun hlive => .inl ?_⟩
    refine (setLive_of_ne ?_).symm.trans hlive
    rintro rfl
    cases ht
  | rx =>
    refine ⟨?_, fun hlive => ?_⟩
    · cases t with
      | rx id => exact fun hid => Nat.lt_succ_of_lt hid
      | _ => exact fun hnamed => hnamed
    · by_cases hnew : t = .rx st.rxCreated
      · subst hnew
        exact .inr ⟨Nat.lt_succ_self _, Nat.lt_irrefl _⟩
      · exact .inl ((setLive_of_ne hnew).symm.trans hlive)
  | heartbeat =>
    refine ⟨?_, fun hlive => ?_⟩
    · cases t with
      | heartbeat id => exact fun hid => Nat.lt_succ_of_lt hid
      | _ => exact fun hnamed => hnamed
    · by_cases hnew : t = .heartbeat st.heartbeatCreated
      · subst hnew
        exact .inr ⟨Nat.lt_succ_self _, Nat.lt_irrefl _⟩
      · exact .inl ((setLive_of_ne hnew).symm.trans hlive)

theorem effect_recruits (h : effect i o r st = some st') {t : Tid} (ht : t.io = true) :
    Recruits st st' t := by
  cases o with
  | taskCreate kind =>
    obtain rfl := Option.some_inj.mp h
    split
    · exact create_recruits kind ht
    · exact .of_roster rfl
  | taskDelete kind handle =>
    cases handle with
    | none =>
      obtain rfl := Option.some_inj.mp h
      exact ⟨fun hnamed => hnamed, fun hlive => .inl (live_of_setLive hlive)⟩
    | some id =>
      obtain rfl := Option.some_inj.mp h
      cases kind with
      | rx | heartbeat =>
        exact ⟨fun hnamed => hnamed, fun hlive => .inl (live_of_setLive hlive)⟩
      | _ => exact .of_roster rfl
  | taskDeleteSelf =>
    obtain rfl := Option.some_inj.mp h
    exact ⟨fun hnamed => hnamed, fun hlive => .inl (live_of_setLive hlive)⟩
  | clearTaskHandle kind =>
    obtain rfl := Option.some_inj.mp h
    cases kind <;> exact ⟨fun hnamed => hnamed, .inl⟩
  | waitRetry =>
    obtain ⟨-, ⟨⟩⟩ := Option.ite_none_right_eq_some.mp h
    exact ⟨fun hnamed => hnamed, .inl⟩
  | _ => exact .of_roster (effect_roster h rfl)

end Effect

/-! ### A task deleted with the mutex in its hands -/

section Blocked
variable {secret : Vector UInt8 bridgePairingSecretBytes} {c c' : System.Config (bridge secret)}

/-- Live tasks, and whoever took `tx_mutex` last, have names that were given out. -/
structure Known (w : (bridge secret).World) : Prop where
  live : ∀ t, t.io = true → w.state.live t = true → w.state.named t
  holder : ∀ t, t.io = true → txLock.holder w.trace = some t → w.state.named t

theorem known_of_reachable (hc : System.Reachable c) : Known c.world := by
  induction hc with
  | refl =>
    constructor
    · intro t ht hlive
      have hdead : State.live {} t = false := by cases t <;> first | rfl | cases ht
      exact absurd hlive (Bool.eq_false_iff.mp hdead)
    · intro t _ hholder
      cases hholder
  | tail _ hstep ih =>
    cases hstep with
    | @call i o k r w live code act =>
      obtain ⟨st, heffect, rfl⟩ := (bridge secret).act_eq_some.mp act
      constructor
      · intro t ht hlive
        have hrecruits := effect_recruits heffect ht
        obtain hold | ⟨hnamed, -⟩ := hrecruits.live hlive
        · exact hrecruits.named (ih.live t ht hold)
        · exact hnamed
      · intro t ht hholder
        apply (effect_recruits heffect ht).named
        change txLock.holder (⟨i, o, r⟩ :: _) = some t at hholder
        rw [Lock.holder] at hholder
        cases hmove : txLock.move o r with
        | takes =>
          rw [hmove] at hholder
          obtain rfl := Option.some_inj.mp hholder
          exact ih.live i ht live
        | gives =>
          rw [hmove] at hholder
          cases hholder
        | needs | free =>
          rw [hmove] at hholder
          exact ih.holder t ht hholder
    | unroll live code => exact ih

/-- A dead I/O task whose name was given out never comes back to life. -/
theorem gone_for_good {t : Tid} (ht : t.io = true) (hnamed : c.world.state.named t)
    (hdead : c.world.state.live t = false) (h : Relation.ReflTransGen System.Step c c') :
    c'.world.state.live t = false := by
  suffices hkept : c'.world.state.named t ∧ c'.world.state.live t = false from hkept.2
  induction h with
  | refl => exact ⟨hnamed, hdead⟩
  | tail _ hstep ih =>
    obtain ⟨hnamed, hdead⟩ := ih
    cases hstep with
    | call live code act =>
      obtain ⟨st, heffect, rfl⟩ := (bridge secret).act_eq_some.mp act
      have hrecruits := effect_recruits heffect ht
      refine ⟨hrecruits.named hnamed, Bool.eq_false_iff.mpr fun hlive => ?_⟩
      obtain hold | ⟨-, hnew⟩ := hrecruits.live hlive
      · exact absurd hold (Bool.eq_false_iff.mp hdead)
      · exact hnew hnamed
    | unroll live code => exact ⟨hnamed, hdead⟩

theorem encode_ne_nil {frame : ExpansionFrame} {capacity : ℕ} :
    expansionProtocolEncode frame capacity ≠ some [] := by
  unfold expansionProtocolEncode expansionProtocolEncode.finish
  cases frame <;> simp only [] <;> split_ifs <;> simp

/-- Nothing was written since the attempt began. -/
theorem lastWritten_of_quiet {attempt past : List Entry}
    (hquiet : ∀ e ∈ attempt, ∀ bytes, e.op ≠ .uartWriteBytes bytes)
    (hbegun : ⟨.supervisor, .clearLostReady, ()⟩ ∈ attempt) :
    lastWritten .supervisor (attempt ++ past) = [] := by
  induction attempt with
  | nil => cases hbegun
  | cons e attempt ih =>
    obtain ⟨i, o, r⟩ := e
    have hwrites : ∀ bytes, o ≠ .uartWriteBytes bytes := hquiet _ (List.mem_cons_self ..)
    obtain hnow | hearlier := List.mem_cons.mp hbegun
    · cases hnow
      exact account_self
    have hlast := ih (fun e he => hquiet e (List.mem_cons_of_mem _ he)) hearlier
    by_cases hi : i = .supervisor
    · subst hi
      refine account_self.trans ?_
      cases o with
      | uartWriteBytes bytes => exact absurd rfl (hwrites bytes)
      | clearLostReady => rfl
      | _ => exact hlast
    · exact (account_of_ne hi).trans hlast

end Blocked

end Bridge

/-- If `stop_io_tasks` ever deletes an I/O task that holds `tx_mutex`, no byte goes to the Flipper
any more, and no attempt begun from then on establishes a link. -/
theorem deleted_holder_blocks {secret : Vector UInt8 bridgePairingSecretBytes}
    {c c' : System.Config (bridge secret)} (hc : System.Reachable c) {i : Bridge.Tid}
    (hi : i.io = true) (hholder : Bridge.txLock.holder c.world.trace = some i)
    (hdead : c.world.state.live i = false) (h : Relation.ReflTransGen System.Step c c') :
    ∃ later, c'.world.trace = later ++ c.world.trace ∧
      (∀ e ∈ later, ∀ bytes, e.op ≠ .uartWriteBytes bytes) ∧
      ∀ newer attempt,
        later = newer ++ ⟨.supervisor, .mark (.leave .establish .ok), ()⟩ :: attempt →
        ⟨.supervisor, .clearLostReady, ()⟩ ∉ attempt := by
  have hnamed := (Bridge.known_of_reachable hc).holder i hi hholder
  obtain ⟨later, htrace, -, hfree⟩ :=
    Lock.abandoned Bridge.txLock_local.code Bridge.txLock_guards hc
    hholder (fun d hd => Bridge.gone_for_good hi hnamed hdead hd) h
  have hquiet : ∀ e ∈ later, ∀ bytes, e.op ≠ .uartWriteBytes bytes := by
    rintro ⟨j, o, r⟩ he bytes rfl
    cases hfree _ he
  refine ⟨later, htrace, hquiet, ?_⟩
  rintro newer attempt rfl hbegun
  obtain ⟨s, hs, hworld⟩ := (Bridge.choreography secret).exists_allowed (hc.trans h)
  obtain ⟨l, hcourse, -⟩ := Bridge.exists_course hs
  rw [hworld, htrace, List.append_assoc, List.cons_append] at hcourse
  obtain ⟨l', hthen⟩ := hcourse.of_append
  have hestablished := hthen.established
  rw [if_pos rfl] at hestablished
  have hasked := hestablished.2.1.2
  rw [Bridge.lastWritten_of_quiet (fun e he => hquiet e (by simp [he])) hbegun] at hasked
  exact Bridge.encode_ne_nil hasked

/-- The receiving task is deleted while it acknowledges a DATA frame, and the next attempt fails. -/
theorem deleted_holder_blocks_rx : ∃ c c' : Bridge.Sample,
    Bridge.txLock.holder c.world.trace = some (.rx 0) ∧ c.world.state.live (.rx 0) = false ∧
      (∃ e ∈ c'.world.trace, e.op = .mark (.leave .establish .timeout)) ∧
      ∃ later, c'.world.trace = later ++ c.world.trace ∧
        (∀ e ∈ later, ∀ bytes, e.op ≠ .uartWriteBytes bytes) ∧
        ∀ newer attempt,
          later = newer ++ ⟨.supervisor, .mark (.leave .establish .ok), ()⟩ :: attempt →
          ⟨.supervisor, .clearLostReady, ()⟩ ∉ attempt := by
  obtain ⟨c, c', hc, hsteps, htest, hfailed⟩ := Bridge.exists_run_on Bridge.Script.deletes
    Bridge.Script.retries
    (fun c : Bridge.Sample => Bridge.txLock.holder c.world.trace == some (.rx 0) &&
      !c.world.state.live (.rx 0))
    (fun c : Bridge.Sample =>
      c.world.trace.any fun e => e.op == .mark (.leave .establish .timeout)) (by decide +kernel)
  obtain ⟨hholder, hdead⟩ := Bool.and_eq_true_iff.mp htest
  rw [beq_iff_eq] at hholder
  rw [Bool.not_eq_true'] at hdead
  obtain ⟨e, he, hop⟩ := List.any_eq_true.mp hfailed
  exact ⟨c, c', hholder, hdead, ⟨e, he, beq_iff_eq.mp hop⟩,
    deleted_holder_blocks hc rfl hholder hdead hsteps⟩

end FlipforgeBridge
