import FlipforgeBridge.Process.Choreography
import Mathlib.Order.GameAdd

/-!
Total correctness of two tasks together. Each of them makes finitely many steps as long as what
it meets keeps to some budget of its own, and the roles see to that. Then all runs end, and what
remains to be looked at is where neither task can go on.
-/
namespace Process

namespace Prog
variable {ι : Interface} {α W : Type}

/-- The next thing a program does, from the second argument to the first. -/
inductive Runs (act : (o : ι.Op) → ι.Res o → W → Option W) : Prog ι α × W → Prog ι α × W → Prop
  | call {o : ι.Op} {k : ι.Res o → Prog ι α} {r : ι.Res o} {w w' : W} (h : act o r w = some w') :
      Runs act (k r, w') (.call o k, w)
  | iter {σ β : Type} {x : σ} {body : σ → Prog ι (σ ⊕ β)} {k : β → Prog ι α} {w : W} :
      Runs act (unroll x body k, w) (.iter x body k, w)

variable {act : (o : ι.Op) → ι.Res o → W → Option W} {Q : α → W → Prop} {p p' : Prog ι α}
  {w w' : W}

theorem Terminates.acc (h : p.Terminates act Q w) : Acc (Runs act) (p, w) := by
  induction h with
  | ret _ => exact .intro _ (fun _ => nofun)
  | call _ _ ih =>
    refine .intro _ ?_
    rintro _ (hr | _)
    exact ih _ _ hr
  | iter _ ih =>
    refine .intro _ ?_
    rintro _ (_ | _)
    exact ih

theorem Terminates.runs (h : p.Terminates act Q w) (hr : Runs act (p', w') (p, w)) :
    p'.Terminates act Q w' := by
  cases hr with
  | call hr => cases h with | call _ hk => exact hk _ _ hr
  | iter => cases h with | iter hk => exact hk

end Prog

/-- Every run from here ends, and where it can go no further `Q` holds. -/
inductive System.Completes {ι : Interface} {sys : System ι} (Q : sys.Config → Prop) :
    sys.Config → Prop
  | intro {c : sys.Config} (next : ∀ c', System.Step c c' → Completes Q c')
      (stuck : (∀ c', ¬ System.Step c c') → Q c) : Completes Q c

theorem System.Completes.mono {ι : Interface} {sys : System ι} {Q R : sys.Config → Prop}
    {c : sys.Config} (h : System.Completes Q c) (hQR : ∀ c, Q c → R c) :
    System.Completes R c := by
  induction h with
  | intro _ hstuck ih => exact .intro ih fun hend => hQR _ (hstuck hend)

namespace Choreography
variable {ι : Interface} {sys : System ι} {ch : Choreography sys}

variable (ch) in
/-- An invariant of the roles, and for each task a budget within which its code terminates. Only
the task itself spends it. -/
structure Budget where
  Good : ch.Scene → Prop
  W : sys.Tid → Type
  left : (i : sys.Tid) → ch.Scene → W i
  act : (i : sys.Tid) → (o : ι.Op) → ι.Res o → W i → Option (W i)
  Done : (i : sys.Tid) → W i → Prop
  opening : Good ch.opening
  step {s s' : ch.Scene} : Good s → Step s s' → Good s'
  own {s : ch.Scene} {i : sys.Tid} {o : ι.Op} {r : ι.Res o} {ph : ch.Phase i} {st : sys.State} :
    Good s → sys.live s.world.state i → ch.next i (s.phase i) o r = some ph →
    sys.effect i o r s.world.state = some st →
    act i o r (left i s) = some (left i (s.moved i ph ⟨st, ⟨i, o, r⟩ :: s.world.trace⟩))
  other {s : ch.Scene} {i j : sys.Tid} {o : ι.Op} {r : ι.Res o} {ph : ch.Phase i}
    {st : sys.State} :
    Good s → sys.live s.world.state i → ch.next i (s.phase i) o r = some ph →
    sys.effect i o r s.world.state = some st → j ≠ i →
    left j (s.moved i ph ⟨st, ⟨i, o, r⟩ :: s.world.trace⟩) = left j s
  stays {i j : sys.Tid} {o : ι.Op} {r : ι.Res o} {st st' : sys.State} :
    sys.effect i o r st = some st' → sys.live st' j → sys.live st j
  code (i : sys.Tid) : (sys.code i).Terminates (act i) (fun _ => Done i) (left i ch.opening)

/-- A task is about to perform an operation that cannot return now. -/
def Waits (s : ch.Scene) (i : sys.Tid) : Prop :=
  ∃ o, (∀ r, ∃ ph, ch.next i (s.phase i) o r = some ph) ∧
    ∀ r, sys.effect i o r s.world.state = none

namespace Budget
variable (b : ch.Budget)

/-- Where neither task can go on: each is finished or waits. -/
def Rests (c : sys.Config) : Prop :=
  ∃ s, b.Good s ∧ s.world = c.world ∧
    ∀ i, sys.live c.world.state i → b.Done i (b.left i s) ∨ Waits s i

/-- A configuration and a scene agree, and every task is within its budget. -/
structure Within (c : sys.Config) (s : ch.Scene) : Prop where
  agree : Agree c s
  good : b.Good s
  code : ∀ i, (c.pool i).Terminates (b.act i) (fun _ => b.Done i) (b.left i s)

variable {c : sys.Config} {s : ch.Scene} {i : sys.Tid}

include b in
theorem moved_pool {st : sys.State} {o : ι.Op} {r : ι.Res o} {p : Prog ι Unit}
    (heffect : sys.effect i o r c.world.state = some st) (j : sys.Tid) :
    (c.moved i p ⟨st, ⟨i, o, r⟩ :: c.world.trace⟩).pool j = Function.update c.pool i p j := by
  refine if_neg ?_
  rw [Bool.and_eq_true, Bool.not_eq_true']
  rintro ⟨hnew, hold⟩
  exact absurd (b.stays heffect hnew) (hold ▸ Bool.false_ne_true)

variable {b}

theorem Within.call {o : ι.Op} {k : ι.Res o → Prog ι Unit} {r : ι.Res o} {st : sys.State}
    (h : b.Within c s) (live : sys.live c.world.state i) (code : c.pool i = .call o k)
    (heffect : sys.effect i o r c.world.state = some st) :
    ∃ s', b.Within (c.moved i (k r) ⟨st, ⟨i, o, r⟩ :: c.world.trace⟩) s' ∧
      Prog.Runs (b.act i) (k r, b.left i s') (c.pool i, b.left i s) ∧
      ∀ j ≠ i, b.left j s' = b.left j s := by
  obtain ⟨ph, hrole, hagree⟩ := h.agree.call live code heffect
  have hw := h.agree.1
  have hlive : sys.live s.world.state i := hw ▸ live
  have heffect' : sys.effect i o r s.world.state = some st := hw ▸ heffect
  have hruns : Prog.Runs (b.act i)
      (k r, b.left i (s.moved i ph ⟨st, ⟨i, o, r⟩ :: s.world.trace⟩)) (c.pool i, b.left i s) := by
    rw [code]
    exact .call (b.own h.good hlive hrole heffect')
  have hother : ∀ j ≠ i, b.left j (s.moved i ph ⟨st, ⟨i, o, r⟩ :: s.world.trace⟩) = b.left j s :=
    fun j hj => b.other h.good hlive hrole heffect' hj
  refine ⟨_, ⟨hagree, b.step h.good (.mk hlive hrole heffect'), fun j => ?_⟩, hruns, hother⟩
  rw [b.moved_pool heffect]
  by_cases hj : j = i
  · subst hj
    rw [Function.update_self]
    exact (h.code j).runs hruns
  · rw [Function.update_of_ne hj, hother j hj]
    exact h.code j

theorem Within.unroll {σ β : Type} {x : σ} {body : σ → Prog ι (σ ⊕ β)} {k : β → Prog ι Unit}
    (h : b.Within c s) (live : sys.live c.world.state i) (code : c.pool i = .iter x body k) :
    b.Within (c.moved i (.unroll x body k) c.world) s := by
  refine ⟨h.agree.unroll live code, h.good, fun j => ?_⟩
  by_cases hj : j = i
  · subst hj
    rw [c.moved_pool_self _ live]
    refine (h.code j).runs ?_
    rw [code]
    exact .iter
  · have hpool : (c.moved i (.unroll x body k) c.world).pool j = c.pool j := by
      simp [System.Config.moved, System.Config.started, hj]
    rw [hpool]
    exact h.code j

/-- A step is one of the two tasks going on. -/
theorem Within.step {c' : sys.Config} (h : b.Within c s) (hs : System.Step c c') :
    ∃ i s', b.Within c' s' ∧
      Prog.Runs (b.act i) (c'.pool i, b.left i s') (c.pool i, b.left i s) ∧
      ∀ j ≠ i, c'.pool j = c.pool j ∧ b.left j s' = b.left j s := by
  cases hs with
  | @call i o k r w live code act =>
    obtain ⟨st, heffect, rfl⟩ := sys.act_eq_some.mp act
    obtain ⟨s', hwithin, hruns, hother⟩ := h.call live code heffect
    refine ⟨i, s', hwithin, ?_, fun j hj => ⟨?_, hother j hj⟩⟩
    · rw [c.moved_pool_self _ live]
      exact hruns
    · rw [b.moved_pool heffect, Function.update_of_ne hj]
  | @unroll i σ β x body k live code =>
    refine ⟨i, s, h.unroll live code, ?_, fun j hj => ⟨?_, rfl⟩⟩
    · rw [c.moved_pool_self _ live, code]
      exact .iter
    · simp [System.Config.moved, System.Config.started, hj]

/-- Where no step is possible, no live task has anything left to do but wait. -/
theorem Within.rests (h : b.Within c s) (hstuck : ∀ c', ¬ System.Step c c') : b.Rests c := by
  refine ⟨s, h.good, h.agree.1, fun i live => ?_⟩
  have hcode := h.code i
  have hfollows := h.agree.2 i live
  cases hp : c.pool i with
  | ret a =>
    rw [hp] at hcode
    cases hcode with | ret hdone => exact .inl hdone
  | call o k =>
    rw [hp] at hfollows
    refine .inr ⟨o, fun r => ?_, fun r => ?_⟩
    · obtain ⟨ph, hrole, -⟩ := (Prog.follows_call o k).mp hfollows r
      exact ⟨ph, hrole⟩
    · rw [h.agree.1, Option.eq_none_iff_forall_ne_some]
      intro st heffect
      exact hstuck _ (.call live hp (sys.act_eq_some.mpr ⟨st, heffect, rfl⟩))
  | iter x body k => exact absurd (.unroll live hp) (hstuck _)

variable (b) in
/-- Two tasks that keep to their budgets come to an end, whatever the interleaving. -/
theorem completes {i j : sys.Tid} (hij : i ≠ j) (hall : ∀ t, t = i ∨ t = j) :
    System.Completes b.Rests sys.start := by
  suffices h : ∀ x, Acc (Prod.GameAdd (Prog.Runs (b.act i)) (Prog.Runs (b.act j))) x →
      ∀ c s, b.Within c s → x = ((c.pool i, b.left i s), (c.pool j, b.left j s)) →
        System.Completes b.Rests c by
    have hstart : b.Within sys.start ch.opening :=
      ⟨⟨rfl, fun i _ => ch.follows i⟩, b.opening, b.code⟩
    exact h _ ((b.code i).acc.prod_gameAdd (b.code j).acc) _ _ hstart rfl
  intro x hx
  induction hx with
  | intro x _ ih =>
    rintro c s h rfl
    refine .intro (fun c' hs => ?_) h.rests
    obtain ⟨t, s', hwithin, hruns, hother⟩ := h.step hs
    refine ih _ ?_ c' s' hwithin rfl
    rcases hall t with rfl | rfl
    · obtain ⟨hpool, hleft⟩ := hother j hij.symm
      rw [hpool, hleft]
      exact .fst hruns
    · obtain ⟨hpool, hleft⟩ := hother i hij
      rw [hpool, hleft]
      exact .snd hruns

end Budget
end Choreography
end Process
