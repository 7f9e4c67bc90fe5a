import FlipforgeBridge.Process.Choreography

/-!
Locks. Code brackets a lock if, whatever its operations answer, it performs those that need the lock
only between taking it and giving it back. In a system all of whose code does so, nobody else
performs them in between.
-/
namespace Process
variable {ι : Interface} {α : Type}

/-- What an operation with this result has to do with a lock. -/
inductive LockMove
  | takes | gives | needs | free
  deriving DecidableEq, Repr

structure Lock (ι : Interface) where
  move : (o : ι.Op) → ι.Res o → LockMove

namespace Lock
variable (lock : Lock ι)

/-- The role of code that brackets the lock; the phase tells whether it holds it. -/
def next (holds : Bool) (o : ι.Op) (r : ι.Res o) : Option Bool :=
  match lock.move o r with
  | .takes => if holds then none else some true
  | .gives => if holds then some false else none
  | .needs => if holds then some true else none
  | .free => some holds

/-- The code finds the lock not held by its task and leaves it so. -/
abbrev Brackets (p : Prog ι α) : Prop := p.Keeps lock.next false

/-- Operations that have nothing to do with the lock. -/
def Free (o : ι.Op) : Prop := ∀ r, lock.move o r = .free

theorem next_free {lock : Lock ι} {holds : Bool} {o : ι.Op} (ho : lock.Free o) (r : ι.Res o) :
    lock.next holds o r = some holds := by
  rw [next, ho r]

/-- Code that leaves the lock alone, whether it is held or not. -/
theorem keeps_of_only {lock : Lock ι} {p : Prog ι α} {holds : Bool} (hp : p.Only lock.Free) :
    p.Keeps lock.next holds :=
  (hp.mono fun _ ho r => next_free ho r).keeps

/-! ### Systems -/

section Trace
variable {Tid : Type}

/-- The task that took the lock last and has not given it back. -/
def holder : List (Label ι Tid) → Option Tid
  | [] => none
  | ⟨i, o, r⟩ :: past =>
    match lock.move o r with
    | .takes => some i
    | .gives => none
    | .needs | .free => holder past

/-- Nobody takes the lock while it is held; only the holder gives it back or does what needs it. -/
def Excludes : Label ι Tid → List (Label ι Tid) → Prop
  | ⟨i, o, r⟩, past =>
    match lock.move o r with
    | .takes => lock.holder past = none
    | .gives | .needs => lock.holder past = some i
    | .free => True

end Trace

section System
variable {lock} {sys : System ι} {locked : sys.State → Bool}

variable (lock sys locked) in
/-- The state remembers that the lock is held. -/
structure Guards : Prop where
  init : locked sys.init = false
  takes : ∀ i o r st st', sys.effect i o r st = some st' → lock.move o r = .takes →
    locked st = false ∧ locked st' = true
  gives : ∀ i o r st st', sys.effect i o r st = some st' → lock.move o r = .gives →
    locked st' = false
  keeps : ∀ i o r st st', sys.effect i o r st = some st' → lock.move o r ≠ .takes →
    lock.move o r ≠ .gives → locked st' = locked st

/-- Every task brackets the lock. -/
def choreography (hcode : ∀ i, lock.Brackets (sys.code i)) : Choreography sys where
  Phase _ := Bool
  next _ := lock.next
  entry _ := false
  follows i := (hcode i).mono fun _ _ _ => trivial

variable {hcode : ∀ i, lock.Brackets (sys.code i)}

/-- The state, the phases and the trace agree on who holds the lock. -/
structure Agrees (s : (choreography hcode).Scene) (locked : sys.State → Bool) : Prop where
  state : locked s.world.state = (lock.holder s.world.trace).isSome
  phase : ∀ i, sys.live s.world.state i = true → s.phase i = true →
    lock.holder s.world.trace = some i

theorem Agrees.step {s s' : (choreography hcode).Scene} (h : Agrees s locked)
    (hguards : lock.Guards sys locked) (hstep : Choreography.Step s s') :
    Agrees s' locked ∧ ∃ e, s'.world.trace = e :: s.world.trace ∧
      lock.Excludes e s.world.trace := by
  cases hstep with | @mk i o r ph st live role effect =>
  have hheld : s.phase i = true → lock.holder s.world.trace = some i := h.phase i live
  have hself : (s.moved i ph ⟨st, ⟨i, o, r⟩ :: s.world.trace⟩).phase i = ph :=
    Choreography.Scene.moved_phase_self ph live
  have hothers : ∀ j, j ≠ i → sys.live st j = true →
      (s.moved i ph ⟨st, ⟨i, o, r⟩ :: s.world.trace⟩).phase j = true →
      lock.holder s.world.trace = some j := by
    intro j hj hlive hphase
    cases hold : sys.live s.world.state j with
    | true =>
      rw [Choreography.Scene.moved_phase_of_ne ph hj (.inl hold)] at hphase
      exact h.phase j hold hphase
    | false => simp [Choreography.Scene.moved, hlive, hold, choreography] at hphase
  have hnext : lock.next (s.phase i) o r = some ph := role
  suffices hstep : locked st = (lock.holder (⟨i, o, r⟩ :: s.world.trace)).isSome ∧
      (ph = true → lock.holder (⟨i, o, r⟩ :: s.world.trace) = some i) ∧
      (∀ j, j ≠ i → lock.holder s.world.trace = some j →
        lock.holder (⟨i, o, r⟩ :: s.world.trace) = some j) ∧
      lock.Excludes ⟨i, o, r⟩ s.world.trace by
    obtain ⟨hstate, hown, hkept, hexcludes⟩ := hstep
    refine ⟨⟨hstate, fun j hlive hphase => ?_⟩, _, rfl, hexcludes⟩
    by_cases hj : j = i
    · subst hj
      exact hown (hself.symm.trans hphase)
    · exact hkept j hj (hothers j hj hlive hphase)
  have hkeeps := hguards.keeps i o r s.world.state st effect
  unfold next at hnext
  simp only [holder, Excludes]
  cases hmove : lock.move o r with
  | takes =>
    obtain ⟨hfree, htaken⟩ := hguards.takes i o r _ _ effect hmove
    have hnone : lock.holder s.world.trace = none := by
      rw [← Option.isSome_eq_false_iff.trans Option.isNone_iff_eq_none, ← h.state]
      exact hfree
    refine ⟨htaken, fun _ => rfl, fun j _ hholder => ?_, hnone⟩
    rw [hnone] at hholder
    cases hholder
  | gives =>
    rw [hmove] at hnext
    obtain ⟨hholds, hph⟩ := Option.ite_none_right_eq_some.mp hnext
    refine ⟨hguards.gives i o r _ _ effect hmove, fun hph' => ?_, fun j hj hholder => ?_,
      hheld hholds⟩
    · rw [hph', Option.some_inj] at hph
      cases hph
    · exact absurd (Option.some_inj.mp (hholder.symm.trans (hheld hholds))) hj
  | needs =>
    rw [hmove] at hnext hkeeps
    obtain ⟨hholds, hph⟩ := Option.ite_none_right_eq_some.mp hnext
    exact ⟨(hkeeps (by simp) (by simp)).trans h.state, fun _ => hheld hholds,
      fun _ _ hholder => hholder,
      hheld hholds⟩
  | free =>
    rw [hmove] at hnext hkeeps
    obtain rfl := Option.some_inj.mp hnext
    exact ⟨(hkeeps (by simp) (by simp)).trans h.state, hheld, fun _ _ hholder => hholder, trivial⟩

theorem agrees_of_allowed (hguards : lock.Guards sys locked) {s : (choreography hcode).Scene}
    (hs : (choreography hcode).Allowed s) :
    Agrees s locked ∧ Justified lock.Excludes s.world.trace := by
  induction hs with
  | refl =>
    refine ⟨⟨hguards.init, fun i _ hphase => ?_⟩, trivial⟩
    cases hphase
  | tail _ hstep ih =>
    obtain ⟨hagrees, hjustified⟩ := ih
    obtain ⟨hagrees', e, htrace, hexcludes⟩ := hagrees.step hguards hstep
    refine ⟨hagrees', ?_⟩
    rw [htrace]
    exact ⟨hexcludes, hjustified⟩

/-- In every run the lock excludes, and is marked as held exactly while it has a holder. -/
theorem excludes (hcode : ∀ i, lock.Brackets (sys.code i)) (hguards : lock.Guards sys locked)
    {c : System.Config sys} (hc : System.Reachable c) :
    Justified lock.Excludes c.world.trace ∧
      locked c.world.state = (lock.holder c.world.trace).isSome := by
  obtain ⟨s, hs, hworld⟩ := (choreography hcode).exists_allowed hc
  rw [← hworld]
  obtain ⟨hagrees, hjustified⟩ := agrees_of_allowed hguards hs
  exact ⟨hjustified, hagrees.state⟩

/-- Once the holder is gone for good, nobody does anything with the lock. -/
theorem abandoned (hcode : ∀ i, lock.Brackets (sys.code i)) (hguards : lock.Guards sys locked)
    {c c' : System.Config sys} (hc : System.Reachable c) {i : sys.Tid}
    (hholder : lock.holder c.world.trace = some i)
    (hgone : ∀ d, Relation.ReflTransGen System.Step c d → sys.live d.world.state i = false)
    (h : Relation.ReflTransGen System.Step c c') :
    ∃ later, c'.world.trace = later ++ c.world.trace ∧ lock.holder c'.world.trace = some i ∧
      ∀ e ∈ later, lock.move e.op e.res = .free := by
  induction h with
  | refl => exact ⟨[], rfl, hholder, by simp⟩
  | @tail d d' hd hstep ih =>
    obtain ⟨later, htrace, hheld, hfree⟩ := ih
    have hexcludes := (excludes hcode hguards (hc.trans (hd.tail hstep))).1
    cases hstep with
    | @call j o k r w live code act =>
      obtain ⟨st, -, rfl⟩ := sys.act_eq_some.mp act
      have hnow : lock.Excludes ⟨j, o, r⟩ d.world.trace := hexcludes.1
      have hother : lock.holder d.world.trace ≠ some j := by
        intro hj
        obtain rfl := Option.some_inj.mp (hheld.symm.trans hj)
        exact absurd live (Bool.eq_false_iff.mp (hgone d hd))
      have hmove : lock.move o r = .free := by
        cases hmove : lock.move o r with
        | free => rfl
        | takes =>
          simp only [Excludes, hmove] at hnow
          rw [hheld] at hnow
          cases hnow
        | gives | needs =>
          simp only [Excludes, hmove] at hnow
          exact absurd hnow hother
      refine ⟨⟨j, o, r⟩ :: later, congrArg _ htrace, ?_, ?_⟩
      · change lock.holder (⟨j, o, r⟩ :: d.world.trace) = some i
        rw [holder, hmove]
        exact hheld
      · intro e he
        obtain rfl | he := List.mem_cons.mp he
        · exact hmove
        · exact hfree e he
    | unroll live code => exact ⟨later, htrace, hheld, hfree⟩

end System
end Lock
end Process
