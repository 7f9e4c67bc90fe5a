import FlipforgeBridge.Process.Choreography

/-!
Whole runs of one program on its own: the operations it performed, with their results, and what it
returned. A run follows every role the program follows, and a program that terminates has one.
-/
namespace Process

/-- An operation with its result. -/
structure Event (ι : Interface) where
  op : ι.Op
  res : ι.Res op

namespace Prog
variable {ι : Interface} {α β Phase W : Type}

/-- The program can perform these operations, oldest first, and return `a`. -/
inductive Yields : Prog ι α → List (Event ι) → α → Prop
  | ret {a : α} : Yields (.ret a) [] a
  | call {o : ι.Op} {k : ι.Res o → Prog ι α} {r : ι.Res o} {events : List (Event ι)} {a : α}
      (h : Yields (k r) events a) : Yields (.call o k) (⟨o, r⟩ :: events) a
  | iter {σ β : Type} {x : σ} {body : σ → Prog ι (σ ⊕ β)} {k : β → Prog ι α}
      {events : List (Event ι)} {a : α} (h : Yields (unroll x body k) events a) :
      Yields (.iter x body k) events a

/-- Where a role is after some operations. -/
def advance (next : Phase → (o : ι.Op) → ι.Res o → Option Phase) (ph : Phase) :
    List (Event ι) → Option Phase
  | [] => some ph
  | e :: events => (next ph e.op e.res).bind fun ph' => advance next ph' events

/-- The role that writes everything down. -/
def record (past : List (Event ι)) (o : ι.Op) (r : ι.Res o) : Option (List (Event ι)) :=
  some (past ++ [⟨o, r⟩])

variable {p : Prog ι α} {events : List (Event ι)} {a : α}

theorem Follows.yields {next : Phase → (o : ι.Op) → ι.Res o → Option Phase} {Q : α → Phase → Prop}
    {ph : Phase} (h : p.Follows next Q ph) (hy : p.Yields events a) :
    ∃ ph', advance next ph events = some ph' ∧ Q a ph' := by
  induction hy generalizing ph with
  | ret => exact ⟨ph, rfl, (follows_ret _).mp h⟩
  | @call o k r events a _ ih =>
    obtain ⟨ph', hnext, hk⟩ := (follows_call o k).mp h r
    obtain ⟨ph'', hrest, hQ⟩ := ih hk
    exact ⟨ph'', by rw [advance, hnext]; exact hrest, hQ⟩
  | iter _ ih => exact ih h.unroll

theorem advance_record (past events : List (Event ι)) :
    advance record past events = some (past ++ events) := by
  induction events generalizing past with
  | nil => rw [advance, List.append_nil]
  | cons e events ih =>
    have hcons : advance record past (e :: events) = advance record (past ++ [e]) events := rfl
    rw [hcons, ih, List.append_assoc]
    rfl

/-- What is shown of everything written down is true of every run. -/
theorem Follows.of_yields {Q : α → List (Event ι) → Prop} (h : p.Follows record Q [])
    (hy : p.Yields events a) : Q a events := by
  obtain ⟨past, hpast, hQ⟩ := h.yields hy
  rw [advance_record] at hpast
  cases hpast
  exact hQ

/-- Code of allowed operations adds allowed events. -/
theorem Only.follows_record {allowed : ι.Op → Prop} (hp : p.Only allowed) (past : List (Event ι)) :
    p.Follows record (fun _ all => ∃ more, all = past ++ more ∧ ∀ e ∈ more, allowed e.op) past := by
  induction p generalizing past with
  | ret a => exact (follows_ret a).mpr ⟨[], (List.append_nil past).symm, by simp⟩
  | call o k ih =>
    obtain ⟨ho, hk⟩ := (only_call o k).mp hp
    refine (follows_call o k).mpr fun r => ⟨_, rfl, (ih r (hk r) _).mono ?_⟩
    rintro a all ⟨more, rfl, hmore⟩
    refine ⟨⟨o, r⟩ :: more, List.append_assoc _ _ _, ?_⟩
    exact List.forall_mem_cons.mpr ⟨ho, hmore⟩
  | iter x body k ihb ihk =>
    obtain ⟨hbody, hk⟩ := (only_iter x body k).mp hp
    have hnil : ∃ more, past = past ++ more ∧ ∀ e ∈ more, allowed e.op :=
      ⟨[], (List.append_nil past).symm, by simp⟩
    refine follows_iter.mpr ⟨fun _ all => ∃ more, all = past ++ more ∧ ∀ e ∈ more, allowed e.op,
      hnil, ?_⟩
    rintro y all ⟨before, rfl, hbefore⟩
    refine (ihb y (hbody y) _).mono ?_
    rintro (y' | b) all ⟨more, rfl, hmore⟩
    · refine ⟨before ++ more, List.append_assoc _ _ _, ?_⟩
      exact List.forall_mem_append.mpr ⟨hbefore, hmore⟩
    · refine (ihk b (hk b) _).mono ?_
      rintro a all ⟨later, rfl, hlater⟩
      refine ⟨before ++ (more ++ later), by simp only [List.append_assoc], ?_⟩
      exact List.forall_mem_append.mpr ⟨hbefore, List.forall_mem_append.mpr ⟨hmore, hlater⟩⟩

theorem Terminates.exists_yields {act : (o : ι.Op) → ι.Res o → W → Option W} {Q : α → W → Prop}
    {w : W} (h : p.Terminates act Q w) : ∃ events a w', p.Yields events a ∧ Q a w' := by
  induction h with
  | ret h => exact ⟨[], _, _, .ret, h⟩
  | call enabled _ ih =>
    obtain ⟨r, w', hr⟩ := enabled
    obtain ⟨events, a, w'', hy, hQ⟩ := ih r w' hr
    exact ⟨_, a, w'', .call hy, hQ⟩
  | iter _ ih =>
    obtain ⟨events, a, w', hy, hQ⟩ := ih
    exact ⟨events, a, w', .iter hy, hQ⟩

end Prog
end Process
