import FlipforgeBridge.Process.System

/-!
Verifying concurrent code in two layers. A role says, phase by phase, which operations a task
may perform and where each result leads. That a program follows its role is a matter of its own
code, whatever the other tasks do. What holds of the tasks together is then an invariant of
their roles, proved step by step with no code in sight.
-/
namespace Process

namespace Prog
variable {ι : Interface} {α β σ Phase : Type}

/-- Every run of the program, with any results, is allowed by the role `next` and ends, if it
does, in `Q`. Loops are given an invariant. -/
def Follows (next : Phase → (o : ι.Op) → ι.Res o → Option Phase) :
    {α : Type} → Prog ι α → (α → Phase → Prop) → Phase → Prop
  | _, .ret a, Q, ph => Q a ph
  | _, .call o k, Q, ph => ∀ r, ∃ ph', next ph o r = some ph' ∧ (k r).Follows next Q ph'
  | _, .iter (σ := σ) x body k, Q, ph => ∃ J : σ → Phase → Prop, J x ph ∧
      ∀ x ph, J x ph →
        (body x).Follows next (Sum.elim J fun b => (k b).Follows next Q) ph

section Follows
variable {next : Phase → (o : ι.Op) → ι.Res o → Option Phase} {Q R : α → Phase → Prop}
  {ph : Phase}

@[simp] theorem follows_ret (a : α) : (ret a : Prog ι α).Follows next Q ph ↔ Q a ph := Iff.rfl

@[simp] theorem follows_call (o : ι.Op) (k : ι.Res o → Prog ι α) :
    (call o k).Follows next Q ph ↔
      ∀ r, ∃ ph', next ph o r = some ph' ∧ (k r).Follows next Q ph' := Iff.rfl

theorem follows_bind (p : Prog ι β) (f : β → Prog ι α) :
    (p.bind f).Follows next Q = p.Follows next fun b => (f b).Follows next Q := by
  induction p with
  | ret a => rfl
  | call o k ih => funext ph; simp only [call_bind, Follows, ih]
  | iter x body k _ ih => funext ph; simp only [iter_bind, Follows, ih]

theorem follows_iter {x : σ} {body : σ → Prog ι (σ ⊕ β)} {k : β → Prog ι α} :
    (iter x body k).Follows next Q ph ↔ ∃ J : σ → Phase → Prop, J x ph ∧
      ∀ x ph, J x ph →
        (body x).Follows next (Sum.elim J fun b => (k b).Follows next Q) ph := Iff.rfl

theorem follows_perform (o : ι.Op) {Q : ι.Res o → Phase → Prop} :
    (perform o).Follows next Q ph ↔ ∀ r, ∃ ph', next ph o r = some ph' ∧ Q r ph' := Iff.rfl

-- The tactics should not look into long programs; the lemmas above take them apart.
attribute [irreducible] Follows

theorem Follows.mono {p : Prog ι α} (h : p.Follows next Q ph) (hQ : ∀ a ph, Q a ph → R a ph) :
    p.Follows next R ph := by
  induction p generalizing ph with
  | ret a => exact (follows_ret a).mpr (hQ a ph ((follows_ret a).mp h))
  | call o k ih =>
    refine (follows_call o k).mpr fun r => ?_
    obtain ⟨ph', hnext, hk⟩ := (follows_call o k).mp h r
    exact ⟨ph', hnext, ih r hk hQ⟩
  | iter x body k ihb ihk =>
    obtain ⟨J, hJ, hbody⟩ := follows_iter.mp h
    refine follows_iter.mpr ⟨J, hJ, fun x ph hx => ihb x (hbody x ph hx) ?_⟩
    rintro (x' | b) ph' h'
    · exact h'
    · exact ihk b h' hQ

theorem Follows.bind {S : β → Phase → Prop} {p : Prog ι β} {f : β → Prog ι α}
    (hp : p.Follows next S ph) (hf : ∀ b ph, S b ph → (f b).Follows next Q ph) :
    (p.bind f).Follows next Q ph := by
  rw [follows_bind]
  exact hp.mono hf

theorem Follows.perform {o : ι.Op} {k : ι.Res o → Prog ι α}
    (h : ∀ r, ∃ ph', next ph o r = some ph' ∧ (k r).Follows next Q ph') :
    ((perform o).bind k).Follows next Q ph := by
  rw [Prog.perform, call_bind]
  exact (follows_call o k).mpr h

theorem Follows.loop {Q : β → Phase → Prop} {x : σ} {body : σ → Prog ι (σ ⊕ β)}
    (J : σ → Phase → Prop) (hJ : J x ph)
    (hbody : ∀ x ph, J x ph → (body x).Follows next (Sum.elim J Q) ph) :
    (loop x body).Follows next Q ph := by
  refine follows_iter.mpr ⟨J, hJ, fun x ph hx => (hbody x ph hx).mono ?_⟩
  rintro (x' | b) ph' h'
  · exact h'
  · exact (follows_ret b).mpr h'

theorem Follows.unroll {x : σ} {body : σ → Prog ι (σ ⊕ β)} {k : β → Prog ι α}
    (h : (iter x body k).Follows next Q ph) : (unroll x body k).Follows next Q ph := by
  obtain ⟨J, hJ, hbody⟩ := follows_iter.mp h
  rw [Prog.unroll, follows_bind]
  refine (hbody x ph hJ).mono ?_
  rintro (x' | b) ph' h'
  · exact follows_iter.mpr ⟨J, h', hbody⟩
  · exact h'

/-- Phases that allow everything and are never left. -/
theorem Follows.of_closed {S : Phase → Prop}
    (hS : ∀ ph, S ph → ∀ o r, ∃ ph', next ph o r = some ph' ∧ S ph') (h : S ph) (p : Prog ι α) :
    p.Follows next (fun _ => S) ph := by
  induction p generalizing ph with
  | ret a => exact (follows_ret a).mpr h
  | call o k ih =>
    refine (follows_call o k).mpr fun r => ?_
    obtain ⟨ph', hnext, hph⟩ := hS ph h o r
    exact ⟨ph', hnext, ih r hph⟩
  | iter x body k ihb ihk =>
    refine follows_iter.mpr ⟨fun _ => S, h, ?_⟩
    intro x ph hph
    refine (ihb x hph).mono ?_
    rintro (x' | b) ph' hph'
    · exact hph'
    · exact ihk b hph'

/-- A program all of whose operations leave a phase alone stays in that phase. -/
theorem Only.follows {p : Prog ι α}
    (hp : p.Only fun o => ∀ r, next ph o r = some ph) :
    p.Follows next (fun _ ph' => ph' = ph) ph := by
  induction p with
  | ret a => exact (follows_ret a).mpr rfl
  | call o k ih =>
    obtain ⟨ho, hk⟩ := (only_call o k).mp hp
    exact (follows_call o k).mpr fun r => ⟨ph, ho r, ih r (hk r)⟩
  | iter x body k ihb ihk =>
    obtain ⟨hbody, hk⟩ := (only_iter x body k).mp hp
    refine follows_iter.mpr ⟨fun _ ph' => ph' = ph, rfl, ?_⟩
    rintro x' _ rfl
    refine (ihb x' (hbody x')).mono ?_
    rintro (x'' | b) ph' rfl
    · rfl
    · exact ihk b (hk b)

end Follows

/-- The program ends in the phase it begins in. -/
def Keeps (next : Phase → (o : ι.Op) → ι.Res o → Option Phase) (ph : Phase) (p : Prog ι α) : Prop :=
  p.Follows next (fun _ ph' => ph' = ph) ph

section Keeps
variable {next : Phase → (o : ι.Op) → ι.Res o → Option Phase} {ph : Phase}

theorem keeps_ret (a : α) : (ret a : Prog ι α).Keeps next ph := (follows_ret a).mpr rfl

theorem Keeps.bind {p : Prog ι β} {f : β → Prog ι α} (hp : p.Keeps next ph)
    (hf : ∀ b, (f b).Keeps next ph) : (p.bind f).Keeps next ph := by
  apply Follows.bind hp
  rintro b _ rfl
  exact hf b

theorem Keeps.loop {x : σ} {body : σ → Prog ι (σ ⊕ β)} (hbody : ∀ x, (body x).Keeps next ph) :
    (Prog.loop x body).Keeps next ph := by
  apply Follows.loop (fun _ ph' => ph' = ph) rfl
  rintro x _ rfl
  apply (hbody x).mono
  rintro (x' | b) ph' h
  · exact h
  · exact h

theorem Only.keeps {p : Prog ι α} (hp : p.Only fun o => ∀ r, next ph o r = some ph) :
    p.Keeps next ph := hp.follows

end Keeps
end Prog

/-- A role for every task of a system, and that its code follows it. -/
structure Choreography {ι : Interface} (sys : System ι) where
  Phase : sys.Tid → Type
  next : (i : sys.Tid) → Phase i → (o : ι.Op) → ι.Res o → Option (Phase i)
  entry : (i : sys.Tid) → Phase i
  follows : ∀ i, (sys.code i).Follows (next i) (fun _ _ => True) (entry i)

namespace Choreography
variable {ι : Interface} {sys : System ι} (ch : Choreography sys)

/-- The world together with the phase of every task. -/
structure Scene where
  world : sys.World
  phase : (i : sys.Tid) → ch.Phase i

variable {ch}

/-- The scene after task `i` moves to `ph` and the world to `w`; new tasks enter. -/
def Scene.moved (s : ch.Scene) (i : sys.Tid) (ph : ch.Phase i) (w : sys.World) : ch.Scene where
  world := w
  phase t := if sys.live w.state t && !sys.live s.world.state t then ch.entry t
    else Function.update s.phase i ph t

variable (ch) in
def opening : ch.Scene := ⟨⟨sys.init, []⟩, ch.entry⟩

/-- One operation by one live task, allowed by its role and by the state. -/
inductive Step : ch.Scene → ch.Scene → Prop
  | mk {s : ch.Scene} {i : sys.Tid} {o : ι.Op} {r : ι.Res o} {ph : ch.Phase i} {st : sys.State}
      (live : sys.live s.world.state i) (role : ch.next i (s.phase i) o r = some ph)
      (effect : sys.effect i o r s.world.state = some st) :
      Step s (s.moved i ph ⟨st, ⟨i, o, r⟩ :: s.world.trace⟩)

variable (ch) in
/-- The scenes the roles allow. -/
def Allowed (s : ch.Scene) : Prop := Relation.ReflTransGen Step ch.opening s

/-- What is true at first and kept by every step is true of all allowed scenes. -/
theorem Allowed.induction {I : ch.Scene → Prop} (h0 : I ch.opening)
    (hstep : ∀ s s', ch.Allowed s → I s → Step s s' → I s') {s : ch.Scene} (hs : ch.Allowed s) :
    I s := by
  induction hs with
  | refl => exact h0
  | tail hs hmove ih => exact hstep _ _ hs ih hmove

theorem Scene.moved_phase_self {s : ch.Scene} {i : sys.Tid} (ph : ch.Phase i) {w : sys.World}
    (live : sys.live s.world.state i) : (s.moved i ph w).phase i = ph := by
  simp [moved, live]

/-- A task that stays live and did not move keeps its phase. -/
theorem Scene.moved_phase_of_ne {s : ch.Scene} {i j : sys.Tid} (ph : ch.Phase i) {w : sys.World}
    (h : j ≠ i) (live : sys.live s.world.state j = true ∨ sys.live w.state j = false) :
    (s.moved i ph w).phase j = s.phase j := by
  rcases live with live | live <;> simp [moved, live, h]

/-- The phase of a live task. -/
def Scene.part (s : ch.Scene) (t : sys.Tid) : Option (ch.Phase t) :=
  if sys.live s.world.state t = true then some (s.phase t) else none

theorem Scene.part_of_live {s : ch.Scene} {t : sys.Tid} (live : sys.live s.world.state t = true) :
    s.part t = some (s.phase t) := if_pos live

theorem Scene.live_of_part {s : ch.Scene} {t : sys.Tid} {ph : ch.Phase t} (h : s.part t = some ph) :
    sys.live s.world.state t = true ∧ s.phase t = ph := by
  obtain ⟨hlive, hphase⟩ := Option.ite_none_right_eq_some.mp h
  exact ⟨hlive, Option.some_inj.mp hphase⟩

theorem Scene.part_eq_none {s : ch.Scene} {t : sys.Tid} :
    s.part t = none ↔ sys.live s.world.state t = false := by
  simp [part]

section Moved
variable {s : ch.Scene} {i t : sys.Tid} {ph : ch.Phase i} {w : sys.World}

theorem Scene.part_moved_self (live : sys.live s.world.state i) :
    (s.moved i ph w).part i = if sys.live w.state i = true then some ph else none := by
  rw [part, moved_phase_self ph live]
  rfl

/-- A task that moves and stays live. -/
theorem Scene.part_moved_live (live : sys.live s.world.state i)
    (hlive : sys.live w.state i = true) : (s.moved i ph w).part i = some ph :=
  (part_moved_self live).trans (if_pos hlive)

theorem Scene.part_moved_of_ne (h : t ≠ i) (hlive : sys.live w.state t = sys.live s.world.state t) :
    (s.moved i ph w).part t = s.part t := by
  cases hold : sys.live s.world.state t with
  | false =>
    rw [part_eq_none.mpr hold, part_eq_none]
    exact hlive.trans hold
  | true =>
    rw [part_of_live hold, ← moved_phase_of_ne ph h (.inl hold)]
    exact part_of_live (hlive.trans hold)

/-- A task that has become live is about to begin. -/
theorem Scene.part_moved_created (hdead : sys.live s.world.state t = false)
    (hlive : sys.live w.state t = true) : (s.moved i ph w).part t = some (ch.entry t) := by
  simp [part, moved, hdead, hlive]

end Moved

/-- What a configuration and a scene have in common: the world, and live tasks whose remaining
code follows their roles from their phases. -/
def Agree (c : System.Config sys) (s : ch.Scene) : Prop :=
  s.world = c.world ∧ ∀ i, sys.live c.world.state i →
    (c.pool i).Follows (ch.next i) (fun _ _ => True) (s.phase i)

theorem Agree.call {c : System.Config sys} {s : ch.Scene} {i : sys.Tid} {o : ι.Op}
    {k : ι.Res o → Prog ι Unit} {r : ι.Res o} {st : sys.State} (h : Agree c s)
    (live : sys.live c.world.state i) (code : c.pool i = .call o k)
    (heffect : sys.effect i o r c.world.state = some st) :
    ∃ ph, ch.next i (s.phase i) o r = some ph ∧
      Agree (c.moved i (k r) ⟨st, ⟨i, o, r⟩ :: c.world.trace⟩)
        (s.moved i ph ⟨st, ⟨i, o, r⟩ :: s.world.trace⟩) := by
  obtain ⟨hw, hf⟩ := h
  have hcall := hf i live
  rw [code] at hcall
  obtain ⟨ph, hrole, hk⟩ := (Prog.follows_call o k).mp hcall r
  refine ⟨ph, hrole, by rw [hw]; rfl, fun j hj => ?_⟩
  change sys.live st j = true at hj
  cases hold : sys.live c.world.state j with
  | false => simpa [System.Config.moved, System.Config.started, Scene.moved, hw, hj, hold]
      using ch.follows j
  | true =>
    by_cases hji : j = i
    · subst hji
      rw [c.moved_pool_self _ live, Scene.moved_phase_self _ (hw ▸ live)]
      exact hk
    · rw [Scene.moved_phase_of_ne _ hji (.inl (hw ▸ hold))]
      simpa [System.Config.moved, System.Config.started, hold, hji] using hf j hold

theorem Agree.unroll {c : System.Config sys} {s : ch.Scene} {i : sys.Tid} {σ β : Type} {x : σ}
    {body : σ → Prog ι (σ ⊕ β)} {k : β → Prog ι Unit} (h : Agree c s)
    (live : sys.live c.world.state i) (code : c.pool i = .iter x body k) :
    Agree (c.moved i (.unroll x body k) c.world) s := by
  obtain ⟨hw, hf⟩ := h
  refine ⟨hw, fun j hj => ?_⟩
  change sys.live c.world.state j = true at hj
  by_cases hji : j = i
  · subst hji
    rw [c.moved_pool_self _ live]
    exact Prog.Follows.unroll (code ▸ hf j live)
  · simpa [System.Config.moved, System.Config.started, hji] using hf j hj

theorem Agree.step {c c' : System.Config sys} {s : ch.Scene} (h : Agree c s)
    (hs : System.Step c c') : ∃ s', Relation.ReflTransGen Step s s' ∧ Agree c' s' := by
  cases hs with
  | @call i o k r w live code act =>
    obtain ⟨st, heffect, rfl⟩ := sys.act_eq_some.mp act
    obtain ⟨ph, hrole, hagree⟩ := h.call live code heffect
    obtain ⟨hw, -⟩ := h
    rw [← hw] at live heffect
    exact ⟨_, .single (.mk live hrole heffect), hagree⟩
  | unroll live code => exact ⟨s, .refl, h.unroll live code⟩

variable (ch) in
/-- Soundness: whatever an interleaving of the code reaches, the roles allow. -/
theorem exists_allowed {c : System.Config sys} (hc : System.Reachable c) :
    ∃ s, ch.Allowed s ∧ s.world = c.world := by
  suffices h : ∃ s, ch.Allowed s ∧ Agree c s from h.imp fun s hs => ⟨hs.1, hs.2.1⟩
  induction hc with
  | refl => exact ⟨ch.opening, .refl, rfl, fun i _ => ch.follows i⟩
  | tail _ hs ih =>
    obtain ⟨s, hallowed, hagree⟩ := ih
    obtain ⟨s', hsteps, hagree'⟩ := hagree.step hs
    exact ⟨s', hallowed.trans hsteps, hagree'⟩

end Choreography
end Process
