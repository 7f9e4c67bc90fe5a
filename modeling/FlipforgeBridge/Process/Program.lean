import Mathlib.Data.Nat.Init
import Mathlib.Logic.Function.Basic

/-!
Sequential programs over an interface of operations. A program is the syntax tree of what a
task does: it returns, performs one operation and continues with the result, or runs a loop.
The meaning of an operation is left to whoever runs the program, so the same code can be
studied alone, against an arbitrary environment, or next to other tasks.
-/
namespace Process

/-- The operations a program may perform, and what each of them returns. -/
structure Interface where
  Op : Type
  Res : Op → Type

/-- `iter x body k` runs `body` from the loop state `x` until it answers `inr b`, and goes on
with `k b`. -/
inductive Prog (ι : Interface) : Type → Type 1
  | ret {α : Type} (a : α) : Prog ι α
  | call {α : Type} (o : ι.Op) (k : ι.Res o → Prog ι α) : Prog ι α
  | iter {α σ β : Type} (x : σ) (body : σ → Prog ι (σ ⊕ β)) (k : β → Prog ι α) : Prog ι α

namespace Prog

variable {ι : Interface} {α β γ σ : Type}

def bind : {α β : Type} → Prog ι α → (α → Prog ι β) → Prog ι β
  | _, _, .ret a, f => f a
  | _, _, .call o k, f => .call o fun r => (k r).bind f
  | _, _, .iter x body k, f => .iter x body fun b => (k b).bind f

instance : Monad (Prog ι) where
  pure := .ret
  bind := .bind

/-- One operation. -/
def perform (o : ι.Op) : Prog ι (ι.Res o) := .call o .ret

/-- A loop: `inl` goes round again, `inr` leaves. -/
def loop (x : σ) (body : σ → Prog ι (σ ⊕ β)) : Prog ι β := .iter x body .ret

/-- One turn of a loop, followed by the rest of the loop. -/
def unroll (x : σ) (body : σ → Prog ι (σ ⊕ β)) (k : β → Prog ι α) : Prog ι α :=
  (body x).bind (Sum.elim (fun x' => .iter x' body k) k)

@[simp] theorem pure_eq_ret (a : α) : (pure a : Prog ι α) = .ret a := rfl

@[simp] theorem bind_eq_bind (p : Prog ι α) (f : α → Prog ι β) : p >>= f = p.bind f := rfl

@[simp] theorem ret_bind (a : α) (f : α → Prog ι β) : (ret a).bind f = f a := rfl

@[simp] theorem call_bind (o : ι.Op) (k : ι.Res o → Prog ι α) (f : α → Prog ι β) :
    (call o k).bind f = .call o fun r => (k r).bind f := rfl

@[simp] theorem iter_bind (x : σ) (body : σ → Prog ι (σ ⊕ γ)) (k : γ → Prog ι α)
    (f : α → Prog ι β) : (iter x body k).bind f = .iter x body fun b => (k b).bind f := rfl

theorem bind_ret (p : Prog ι α) : p.bind ret = p := by
  induction p with
  | ret a => rfl
  | call o k ih => simp only [call_bind, ih]
  | iter x body k _ ih => simp only [iter_bind, ih]

theorem bind_assoc (p : Prog ι α) (f : α → Prog ι β) (g : β → Prog ι γ) :
    (p.bind f).bind g = p.bind fun a => (f a).bind g := by
  induction p with
  | ret a => rfl
  | call o k ih => simp only [call_bind, ih]
  | iter x body k _ ih => simp only [iter_bind, ih]

theorem unroll_bind (x : σ) (body : σ → Prog ι (σ ⊕ γ)) (k : γ → Prog ι α)
    (f : α → Prog ι β) :
    (unroll x body k).bind f = unroll x body fun b => (k b).bind f := by
  rw [unroll, unroll, bind_assoc]
  congr 1
  funext r
  cases r <;> rfl

instance : LawfulMonad (Prog ι) := LawfulMonad.mk' _ bind_ret (fun _ _ => rfl) bind_assoc

/-- Every operation the program can perform, on any path, is an allowed one. -/
def Only (allowed : ι.Op → Prop) : {α : Type} → Prog ι α → Prop
  | _, .ret _ => True
  | _, .call o k => allowed o ∧ ∀ r, (k r).Only allowed
  | _, .iter _ body k => (∀ x, (body x).Only allowed) ∧ ∀ b, (k b).Only allowed

section Only
variable {allowed : ι.Op → Prop}

@[simp] theorem only_ret (a : α) : (ret a : Prog ι α).Only allowed := trivial

@[simp] theorem only_call (o : ι.Op) (k : ι.Res o → Prog ι α) :
    (call o k).Only allowed ↔ allowed o ∧ ∀ r, (k r).Only allowed := Iff.rfl

@[simp] theorem only_perform (o : ι.Op) : (perform o).Only allowed ↔ allowed o := by
  simp [perform]

theorem Only.bind {p : Prog ι α} {f : α → Prog ι β} (hp : p.Only allowed)
    (hf : ∀ a, (f a).Only allowed) : (p.bind f).Only allowed := by
  induction p with
  | ret a => exact hf a
  | call o k ih => exact ⟨hp.1, fun r => ih r (hp.2 r) hf⟩
  | iter x body k _ ih => exact ⟨hp.1, fun b => ih b (hp.2 b) hf⟩

theorem Only.loop {x : σ} {body : σ → Prog ι (σ ⊕ β)} (h : ∀ x, (body x).Only allowed) :
    (loop x body).Only allowed := ⟨h, fun _ => trivial⟩

theorem Only.mono {p : Prog ι α} {more : ι.Op → Prop} (hp : p.Only allowed)
    (h : ∀ o, allowed o → more o) : p.Only more := by
  induction p with
  | ret a => trivial
  | call o k ih => exact ⟨h o hp.1, fun r => ih r (hp.2 r)⟩
  | iter x body k ihb ihk => exact ⟨fun y => ihb y (hp.1 y), fun b => ihk b (hp.2 b)⟩

@[simp] theorem only_iter (x : σ) (body : σ → Prog ι (σ ⊕ β)) (k : β → Prog ι α) :
    (iter x body k).Only allowed ↔
      (∀ x, (body x).Only allowed) ∧ ∀ b, (k b).Only allowed := Iff.rfl

end Only

-- The tactics should not look into long programs; the lemmas above take them apart.
attribute [irreducible] Only

/-- Total correctness: whatever the operations answer, the program is never stuck, makes
finitely many turns and returns with `Q`. -/
inductive Terminates {W : Type} (act : (o : ι.Op) → ι.Res o → W → Option W)
    (Q : α → W → Prop) : Prog ι α → W → Prop
  | ret {a w} (h : Q a w) : Terminates act Q (.ret a) w
  | call {o k w} (enabled : ∃ r w', act o r w = some w')
      (h : ∀ r w', act o r w = some w' → Terminates act Q (k r) w') :
      Terminates act Q (.call o k) w
  | iter {σ β : Type} {x : σ} {body : σ → Prog ι (σ ⊕ β)} {k w}
      (h : Terminates act Q (unroll x body k) w) : Terminates act Q (.iter x body k) w

namespace Terminates
variable {W : Type} {act : (o : ι.Op) → ι.Res o → W → Option W} {Q : α → W → Prop}

theorem mono {Q' : α → W → Prop} {p : Prog ι α} {w : W} (h : p.Terminates act Q w)
    (hQ : ∀ a w, Q a w → Q' a w) : p.Terminates act Q' w := by
  induction h with
  | ret h => exact .ret (hQ _ _ h)
  | call enabled _ ih => exact .call enabled ih
  | iter _ ih => exact .iter ih

theorem bind {R : β → W → Prop} {p : Prog ι α} {f : α → Prog ι β} {w : W}
    (h : p.Terminates act Q w) (hf : ∀ a w, Q a w → (f a).Terminates act R w) :
    (p.bind f).Terminates act R w := by
  induction h with
  | ret h => exact hf _ _ h
  | call enabled _ ih => exact .call enabled ih
  | iter _ ih => exact .iter (unroll_bind .. ▸ ih)

theorem perform {o : ι.Op} {Q : ι.Res o → W → Prop} {w : W}
    (enabled : ∃ r w', act o r w = some w') (h : ∀ r w', act o r w = some w' → Q r w') :
    (perform o).Terminates act Q w :=
  .call enabled fun r w' hr => .ret (h r w' hr)

/-- A loop whose every turn decreases a measure terminates. -/
theorem loop {Q : β → W → Prop} {body : σ → Prog ι (σ ⊕ β)} (J : σ → W → Prop)
    (measure : σ → W → ℕ)
    (hbody : ∀ x w, J x w → (body x).Terminates act (fun r w' => match r with
      | .inl x' => J x' w' ∧ measure x' w' < measure x w
      | .inr b => Q b w') w)
    {x : σ} {w : W} (hJ : J x w) : (loop x body).Terminates act Q w := by
  generalize hm : measure x w = m
  induction m using Nat.strong_induction_on generalizing x w with
  | _ m ih =>
    refine .iter (.bind (hbody x w hJ) ?_)
    rintro (x' | b) w' h
    · exact ih _ (hm ▸ h.2) h.1 rfl
    · exact .ret h

/-- A terminating program has an actual run, so two postconditions meet in one result. -/
theorem exists_result {Q' : α → W → Prop} {p : Prog ι α} {w : W} (h : p.Terminates act Q w)
    (h' : p.Terminates act Q' w) : ∃ a w', Q a w' ∧ Q' a w' := by
  induction h with
  | ret hq => cases h' with | ret hq' => exact ⟨_, _, hq, hq'⟩
  | call enabled _ ih =>
    obtain ⟨r, w', hr⟩ := enabled
    cases h' with | call _ hk' => exact ih r w' hr (hk' r w' hr)
  | iter _ ih => cases h' with | iter hk' => exact ih hk'

end Terminates

end Prog
end Process
