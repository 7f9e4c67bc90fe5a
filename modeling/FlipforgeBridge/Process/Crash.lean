import FlipforgeBridge.Process.Program

/-!
Programs that may be cut short. A run either returns or stops after any of its operations; what
they have done to the world stays. Specifications have two parts: what holds wherever a run stops,
and what holds when it returns.
-/
namespace Process

namespace Prog
variable {ι : Interface} {α β σ W : Type} {act : (o : ι.Op) → ι.Res o → W → Option W}

/-- A run from one world to another, with its result if it was not cut short. -/
inductive Reaches (act : (o : ι.Op) → ι.Res o → W → Option W) :
    Prog ι α → W → Option α → W → Prop
  | cut {p : Prog ι α} {w : W} : Reaches act p w none w
  | ret {a : α} {w : W} : Reaches act (.ret a) w (some a) w
  | call {o : ι.Op} {k : ι.Res o → Prog ι α} {r : ι.Res o} {out : Option α} {w w' w'' : W}
      (h : act o r w = some w') (rest : Reaches act (k r) w' out w'') :
      Reaches act (.call o k) w out w''
  | iter {σ β : Type} {x : σ} {body : σ → Prog ι (σ ⊕ β)} {k : β → Prog ι α} {out : Option α}
      {w w' : W} (h : Reaches act (unroll x body k) w out w') :
      Reaches act (.iter x body k) w out w'

/-- Wherever a run is cut, `C` holds, and where it returns, `Q` too. Loops are given an
invariant. -/
def Survives (act : (o : ι.Op) → ι.Res o → W → Option W) (C : W → Prop) :
    {α : Type} → Prog ι α → (α → W → Prop) → W → Prop
  | _, .ret a, Q, w => C w ∧ Q a w
  | _, .call o k, Q, w => C w ∧ ∀ r w', act o r w = some w' → (k r).Survives act C Q w'
  | _, .iter (σ := σ) x body k, Q, w => C w ∧ ∃ J : σ → W → Prop, J x w ∧
      ∀ x w, J x w → (body x).Survives act C (Sum.elim J fun b => (k b).Survives act C Q) w

section Survives
variable {C : W → Prop} {Q R : α → W → Prop} {w : W}

theorem survives_ret (a : α) : (ret a : Prog ι α).Survives act C Q w ↔ C w ∧ Q a w := Iff.rfl

theorem survives_call (o : ι.Op) (k : ι.Res o → Prog ι α) :
    (call o k).Survives act C Q w ↔
      C w ∧ ∀ r w', act o r w = some w' → (k r).Survives act C Q w' := Iff.rfl

theorem survives_iter {x : σ} {body : σ → Prog ι (σ ⊕ β)} {k : β → Prog ι α} :
    (iter x body k).Survives act C Q w ↔ C w ∧ ∃ J : σ → W → Prop, J x w ∧
      ∀ x w, J x w → (body x).Survives act C (Sum.elim J fun b => (k b).Survives act C Q) w :=
  Iff.rfl

theorem Survives.crash {p : Prog ι α} (h : p.Survives act C Q w) : C w := by
  cases p with
  | ret a => exact h.1
  | call o k => exact h.1
  | iter x body k => exact h.1

theorem Survives.mono {p : Prog ι α} (h : p.Survives act C Q w)
    (hQ : ∀ a w, Q a w → R a w) : p.Survives act C R w := by
  induction p generalizing w with
  | ret a => exact ⟨h.1, hQ a w h.2⟩
  | call o k ih =>
    obtain ⟨hC, hk⟩ := (survives_call o k).mp h
    exact (survives_call o k).mpr ⟨hC, fun r w' hr => ih r (hk r w' hr) hQ⟩
  | iter x body k ihb ihk =>
    obtain ⟨hC, J, hJ, hbody⟩ := survives_iter.mp h
    refine survives_iter.mpr ⟨hC, J, hJ, fun y w hy => ihb y (hbody y w hy) ?_⟩
    rintro (y' | b) w' h'
    · exact h'
    · exact ihk b h' hQ

theorem survives_bind (p : Prog ι β) (f : β → Prog ι α) (h : p.Survives act C
    (fun b => (f b).Survives act C Q) w) : (p.bind f).Survives act C Q w := by
  induction p generalizing w with
  | ret b => exact h.2
  | call o k ih =>
    obtain ⟨hC, hk⟩ := (survives_call o k).mp h
    exact (survives_call o _).mpr ⟨hC, fun r w' hr => ih r f (hk r w' hr)⟩
  | iter x body k ihb ihk =>
    obtain ⟨hC, J, hJ, hbody⟩ := survives_iter.mp h
    refine survives_iter.mpr ⟨hC, J, hJ, fun y w hy => (hbody y w hy).mono ?_⟩
    rintro (y' | b) w' h'
    · exact h'
    · exact ihk b f h'

theorem Survives.unroll {x : σ} {body : σ → Prog ι (σ ⊕ β)} {k : β → Prog ι α}
    (h : (iter x body k).Survives act C Q w) : (unroll x body k).Survives act C Q w := by
  obtain ⟨hC, J, hJ, hbody⟩ := survives_iter.mp h
  have hcrash (y : σ) (w : W) (hy : J y w) : C w := (hbody y w hy).crash
  apply survives_bind
  refine (hbody x w hJ).mono ?_
  rintro (y | b) w' h'
  · exact survives_iter.mpr ⟨hcrash y w' h', J, h', hbody⟩
  · exact h'

/-- Soundness. -/
theorem Survives.reaches {p : Prog ι α} {out : Option α} {w' : W} (h : p.Survives act C Q w)
    (hrun : p.Reaches act w out w') : C w' ∧ ∀ a, out = some a → Q a w' := by
  induction hrun with
  | cut =>
    constructor
    · exact h.crash
    · intro a ha
      cases ha
  | ret =>
    obtain ⟨hC, hQ⟩ := (survives_ret _).mp h
    constructor
    · exact hC
    · intro a ha
      cases ha
      exact hQ
  | @call o k r _ _ _ _ hr _ ih => exact ih (((survives_call o k).mp h).2 r _ hr)
  | iter _ ih => exact ih h.unroll

/-- The next operation of a program. -/
theorem Survives.perform {o : ι.Op} {k : ι.Res o → Prog ι α} (hC : C w)
    (h : ∀ r w', act o r w = some w' → (k r).Survives act C Q w') :
    ((perform o).bind k).Survives act C Q w := by
  rw [Prog.perform, call_bind]
  exact (survives_call o _).mpr ⟨hC, h⟩

end Survives

attribute [irreducible] Survives

end Prog
end Process
