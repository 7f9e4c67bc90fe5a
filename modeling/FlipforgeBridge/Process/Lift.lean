import FlipforgeBridge.Process.Choreography

/-!
Programs of different platforms side by side. Their operations are put into one interface, and
what is known of a program on its own platform carries over.
-/
namespace Process

/-- The operations of two interfaces together. -/
abbrev Interface.sum (ι κ : Interface) : Interface where
  Op := ι.Op ⊕ κ.Op
  Res := Sum.elim ι.Res κ.Res

namespace Prog
variable {ι κ : Interface} {α β σ Phase W : Type}

/-- The same program with its operations called by other names. -/
def lift (f : ι.Op → κ.Op) (g : (o : ι.Op) → κ.Res (f o) → ι.Res o) :
    {α : Type} → Prog ι α → Prog κ α
  | _, .ret a => .ret a
  | _, .call o k => .call (f o) fun r => (k (g o r)).lift f g
  | _, .iter x body k => .iter x (fun x => (body x).lift f g) fun b => (k b).lift f g

variable {f : ι.Op → κ.Op} {g : (o : ι.Op) → κ.Res (f o) → ι.Res o}

theorem lift_bind (p : Prog ι β) (k : β → Prog ι α) :
    (p.bind k).lift f g = (p.lift f g).bind fun b => (k b).lift f g := by
  induction p with
  | ret a => rfl
  | call o k ih => simp only [call_bind, lift, ih]
  | iter x body k _ ih => simp only [iter_bind, lift, ih]

theorem lift_unroll (x : σ) (body : σ → Prog ι (σ ⊕ β)) (k : β → Prog ι α) :
    (unroll x body k).lift f g =
      unroll x (fun x => (body x).lift f g) fun b => (k b).lift f g := by
  rw [unroll, unroll, lift_bind]
  congr 1
  funext r
  cases r <;> rfl

theorem Follows.lift {next : Phase → (o : ι.Op) → ι.Res o → Option Phase}
    {next' : Phase → (o : κ.Op) → κ.Res o → Option Phase} {p : Prog ι α} {Q : α → Phase → Prop}
    {ph : Phase} (h : p.Follows next Q ph)
    (hnext : ∀ ph o r, next' ph (f o) r = next ph o (g o r)) :
    (p.lift f g).Follows next' Q ph := by
  induction p generalizing ph with
  | ret a => exact (follows_ret a).mpr ((follows_ret a).mp h)
  | call o k ih =>
    refine (follows_call (f o) _).mpr fun r => ?_
    obtain ⟨ph', hph, hk⟩ := (follows_call o k).mp h (g o r)
    exact ⟨ph', (hnext ph o r).trans hph, ih (g o r) hk⟩
  | iter x body k ihb ihk =>
    obtain ⟨J, hJ, hbody⟩ := follows_iter.mp h
    refine follows_iter.mpr ⟨J, hJ, fun x ph hx => (ihb x (hbody x ph hx)).mono ?_⟩
    rintro (x' | b) ph' h'
    · exact h'
    · exact ihk b h'

theorem Terminates.lift {act : (o : ι.Op) → ι.Res o → W → Option W}
    {act' : (o : κ.Op) → κ.Res o → W → Option W} {p : Prog ι α} {Q : α → W → Prop} {w : W}
    (h : p.Terminates act Q w) (hact : ∀ o r w, act' (f o) r w = act o (g o r) w)
    (hg : ∀ o, Function.Surjective (g o)) : (p.lift f g).Terminates act' Q w := by
  induction h with
  | ret h => exact .ret h
  | @call o k w enabled _ ih =>
    refine .call ?_ fun r w' hr => ih (g o r) w' ((hact o r w).symm.trans hr)
    obtain ⟨r, w', hr⟩ := enabled
    obtain ⟨r', rfl⟩ := hg o r
    exact ⟨r', w', (hact o r' w).trans hr⟩
  | iter _ ih =>
    refine .iter ?_
    rw [lift_unroll] at ih
    exact ih

end Prog
end Process
