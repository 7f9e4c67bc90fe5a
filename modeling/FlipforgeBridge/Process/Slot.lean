import Mathlib.Data.Nat.Init

/-!
Where at most one of many tasks is active, a slot can name it together with its phase. How the
slot changes when one task moves, enters or leaves.
-/
namespace Process

/-- The slot names exactly the task of `phases` that is active. -/
def Occupies {α : Type} (active : α → Prop) (phases : ℕ → Option α)
    (slot : Option (ℕ × α)) : Prop :=
  ∀ n a, slot = some (n, a) ↔ phases n = some a ∧ active a

namespace Occupies
variable {α : Type} {active : α → Prop} {phases phases' : ℕ → Option α} {slot : Option (ℕ × α)}
  {n : ℕ} {a a' : α}

theorem congr (h : Occupies active phases slot) (hphases : ∀ m, phases' m = phases m) :
    Occupies active phases' slot := by
  intro m b
  rw [hphases m]
  exact h m b

theorem of_named (h : Occupies active phases (some (n, a))) : phases n = some a ∧ active a :=
  (h n a).mp rfl

/-- Whoever is active is the one that is named. -/
theorem eq_some (h : Occupies active phases slot) (hn : phases n = some a) (ha : active a) :
    slot = some (n, a) :=
  (h n a).mpr ⟨hn, ha⟩

theorem not_active (h : Occupies active phases none) (hn : phases n = some a) : ¬ active a := by
  intro ha
  exact absurd (h.eq_some hn ha) (Option.some_ne_none _).symm

theorem eq_of_active (h : Occupies active phases (some (n, a))) {m : ℕ} {b : α}
    (hm : phases m = some b) (hb : active b) : m = n ∧ b = a := by
  have heq := h.eq_some hm hb
  rw [Option.some_inj, Prod.mk.injEq] at heq
  exact ⟨heq.1.symm, heq.2.symm⟩

theorem of_sole (hn : phases n = some a) (ha : active a)
    (hothers : ∀ m b, m ≠ n → phases m = some b → ¬ active b) :
    Occupies active phases (some (n, a)) := by
  intro m b
  rw [Option.some_inj, Prod.mk.injEq]
  constructor
  · rintro ⟨rfl, rfl⟩
    exact ⟨hn, ha⟩
  · rintro ⟨hb, hactive⟩
    by_cases hm : m = n
    · subst hm
      exact ⟨rfl, Option.some_inj.mp (hn.symm.trans hb)⟩
    · exact absurd hactive (hothers m b hm hb)

/-- The named task moves. -/
theorem move (h : Occupies active phases (some (n, a))) (hn : phases' n = some a')
    (ha' : active a') (hphases : ∀ m, m ≠ n → phases' m = phases m) :
    Occupies active phases' (some (n, a')) := by
  apply of_sole hn ha'
  intro m b hm hb hactive
  rw [hphases m hm] at hb
  exact hm (h.eq_of_active hb hactive).1

/-- The named task is not active any more. -/
theorem leave (h : Occupies active phases (some (n, a)))
    (hn : ∀ b, phases' n = some b → ¬ active b)
    (hphases : ∀ m, m ≠ n → phases' m = phases m) : Occupies active phases' none := by
  intro m b
  constructor
  · intro hnone
    exact absurd hnone (Option.some_ne_none _).symm
  · rintro ⟨hb, hactive⟩
    by_cases hm : m = n
    · subst hm
      exact absurd hactive (hn b hb)
    · rw [hphases m hm] at hb
      exact absurd (h.eq_of_active hb hactive).1 hm

/-- A task becomes active while none is. -/
theorem enter (h : Occupies active phases none) (hn : phases' n = some a') (ha' : active a')
    (hphases : ∀ m, m ≠ n → phases' m = phases m) :
    Occupies active phases' (some (n, a')) := by
  apply of_sole hn ha'
  intro m b hm hb
  rw [hphases m hm] at hb
  exact h.not_active hb

/-- Tasks that are not active may go. -/
theorem fade (h : Occupies active phases slot)
    (hphases : ∀ m, phases' m = phases m ∨
      phases' m = none ∧ ∀ b, phases m = some b → ¬ active b) : Occupies active phases' slot := by
  intro m b
  rcases hphases m with hsame | ⟨hgone, hidle⟩
  · rw [hsame]
    exact h m b
  · rw [hgone]
    constructor
    · intro hslot
      obtain ⟨hb, hactive⟩ := (h m b).mp hslot
      exact absurd hactive (hidle b hb)
    · rintro ⟨hb, -⟩
      cases hb

end Occupies
end Process
