import FlipforgeBridge.Process.Program
import Mathlib.Logic.Relation

/-!
Tasks running concurrently over one state, with a trace of everything they did. Any live task
may move at any time; an operation that cannot happen now simply waits. Tasks are created and
deleted by operations that change which of them are live.
-/
namespace Process

/-- One performed operation: by whom, which one, and what it returned. -/
structure Label (ι : Interface) (Tid : Type) where
  tid : Tid
  op : ι.Op
  res : ι.Res op

/-- A state together with everything performed so far, newest first. -/
structure World (ι : Interface) (Tid State : Type) where
  state : State
  trace : List (Label ι Tid)

/-- Everything in the trace was in order when it happened, given what came before it. -/
def Justified {α : Type} (P : α → List α → Prop) : List α → Prop
  | [] => True
  | l :: past => P l past ∧ Justified P past

@[simp] theorem justified_nil {α : Type} (P : α → List α → Prop) : Justified P [] := trivial

@[simp] theorem justified_cons {α : Type} {P : α → List α → Prop} {l : α} {past : List α} :
    Justified P (l :: past) ↔ P l past ∧ Justified P past := Iff.rfl

instance Justified.decidable {α : Type} {P : α → List α → Prop} [∀ l past, Decidable (P l past)] :
    (trace : List α) → Decidable (Justified P trace)
  | [] => .isTrue trivial
  | l :: past =>
    have := Justified.decidable (P := P) past
    inferInstanceAs (Decidable (P l past ∧ Justified P past))

theorem Justified.and {α : Type} {P Q : α → List α → Prop} {trace : List α}
    (hP : Justified P trace) (hQ : Justified Q trace) :
    Justified (fun l past => P l past ∧ Q l past) trace := by
  induction trace with
  | nil => trivial
  | cons l past ih => exact ⟨⟨hP.1, hQ.1⟩, ih hP.2 hQ.2⟩

theorem Justified.of_append {α : Type} {P : α → List α → Prop} {later past : List α}
    (h : Justified P (later ++ past)) : Justified P past := by
  induction later with
  | nil => exact h
  | cons l later ih => exact ih h.2

/-- Where the past decides what comes next, traces of one length agree. -/
theorem Justified.eq_of_length {α : Type} {P : α → List α → Prop}
    (hP : ∀ l l' past, P l past → P l' past → l = l') {trace trace' : List α}
    (h : Justified P trace) (h' : Justified P trace') (hlength : trace.length = trace'.length) :
    trace = trace' := by
  induction trace generalizing trace' with
  | nil => exact (List.length_eq_zero_iff.mp hlength.symm).symm
  | cons l past ih =>
    cases trace' with
    | nil => cases hlength
    | cons l' past' =>
      obtain rfl := ih h.2 h'.2 (Nat.succ.inj hlength)
      rw [hP l l' past h.1 h'.1]

/-- Where the past decides what comes next, there is only one course of events. -/
theorem Justified.suffix_of_le {α : Type} {P : α → List α → Prop}
    (hP : ∀ l l' past, P l past → P l' past → l = l') {trace trace' : List α}
    (h : Justified P trace) (h' : Justified P trace') (hle : trace.length ≤ trace'.length) :
    trace <:+ trace' := by
  have hsplit := List.take_append_drop (trace'.length - trace.length) trace'
  rw [← hsplit] at h'
  have heq : trace = trace'.drop (trace'.length - trace.length) := by
    apply h.eq_of_length hP h'.of_append
    rw [List.length_drop]
    omega
  rw [heq]
  exact List.drop_suffix _ _

theorem Justified.comparable {α : Type} {P : α → List α → Prop}
    (hP : ∀ l l' past, P l past → P l' past → l = l') {trace trace' : List α}
    (h : Justified P trace) (h' : Justified P trace') :
    trace <:+ trace' ∨ trace' <:+ trace := by
  rcases Nat.le_total trace.length trace'.length with hle | hle
  · exact .inl (h.suffix_of_le hP h' hle)
  · exact .inr (h'.suffix_of_le hP h hle)

/-- What the entries of a trace contribute, oldest first. -/
def gather {α β : Type} (f : α → List β) : List α → List β
  | [] => []
  | l :: past => gather f past ++ f l

@[simp] theorem gather_nil {α β : Type} (f : α → List β) : gather f [] = [] := rfl

@[simp] theorem gather_cons {α β : Type} (f : α → List β) (l : α) (past : List α) :
    gather f (l :: past) = gather f past ++ f l := rfl

section Account
variable {ι : Interface} {Tid G : Type} [DecidableEq Tid]

/-- What the operations of one task add up to. -/
def account (i : Tid) (after : G → (o : ι.Op) → ι.Res o → G) (g : G) : List (Label ι Tid) → G
  | [] => g
  | e :: past =>
    if e.tid = i then after (account i after g past) e.op e.res else account i after g past

variable {i j : Tid} {after : G → (o : ι.Op) → ι.Res o → G} {g : G} {o : ι.Op} {r : ι.Res o}
  {past : List (Label ι Tid)}

@[simp] theorem account_nil : account i after g [] = g := rfl

@[simp] theorem account_self :
    account i after g (⟨i, o, r⟩ :: past) = after (account i after g past) o r := if_pos rfl

theorem account_of_ne (h : j ≠ i) :
    account i after g (⟨j, o, r⟩ :: past) = account i after g past := if_neg h

/-- Operations that add nothing, whoever performs them. -/
theorem account_idle (h : ∀ g, after g o r = g) :
    account i after g (⟨j, o, r⟩ :: past) = account i after g past := by
  by_cases hj : j = i
  · rw [hj, account_self, h]
  · exact account_of_ne hj

end Account

structure System (ι : Interface) where
  Tid : Type
  [decEq : DecidableEq Tid]
  State : Type
  init : State
  /-- The state after the operation returns this result; `none` if it cannot return it now. -/
  effect : Tid → (o : ι.Op) → ι.Res o → State → Option State
  live : State → Tid → Bool
  code : Tid → Prog ι Unit

attribute [instance] System.decEq

namespace System
variable {ι : Interface} (sys : System ι)

abbrev World := Process.World ι sys.Tid sys.State

def act (i : sys.Tid) (o : ι.Op) (r : ι.Res o) (w : sys.World) : Option sys.World :=
  (sys.effect i o r w.state).map fun s => ⟨s, ⟨i, o, r⟩ :: w.trace⟩

theorem act_eq_some {i : sys.Tid} {o : ι.Op} {r : ι.Res o} {w w' : sys.World} :
    sys.act i o r w = some w' ↔
      ∃ s, sys.effect i o r w.state = some s ∧ w' = ⟨s, ⟨i, o, r⟩ :: w.trace⟩ := by
  simp only [act, Option.map_eq_some_iff]
  exact exists_congr fun s => and_congr_right fun _ => eq_comm

structure Config where
  world : sys.World
  pool : sys.Tid → Prog ι Unit

variable {sys}

/-- A task that has just become live starts from the beginning of its code. -/
def Config.started (old : sys.State) (c : Config sys) : Config sys where
  world := c.world
  pool t := if sys.live c.world.state t && !sys.live old t then sys.code t else c.pool t

/-- Task `i` is left with `p` to do in world `w`. -/
def Config.moved (c : Config sys) (i : sys.Tid) (p : Prog ι Unit) (w : sys.World) : Config sys :=
  Config.started c.world.state ⟨w, Function.update c.pool i p⟩

inductive Step : Config sys → Config sys → Prop
  | call {c : Config sys} {i : sys.Tid} {o : ι.Op} {k : ι.Res o → Prog ι Unit} {r : ι.Res o}
      {w : sys.World} (live : sys.live c.world.state i) (code : c.pool i = .call o k)
      (act : sys.act i o r c.world = some w) : Step c (c.moved i (k r) w)
  | unroll {c : Config sys} {i : sys.Tid} {σ β : Type} {x : σ} {body : σ → Prog ι (σ ⊕ β)}
      {k : β → Prog ι Unit} (live : sys.live c.world.state i) (code : c.pool i = .iter x body k) :
      Step c (c.moved i (.unroll x body k) c.world)

variable (sys) in
def start : Config sys := ⟨⟨sys.init, []⟩, sys.code⟩

/-- The configurations some interleaving leads to. -/
def Reachable (c : Config sys) : Prop := Relation.ReflTransGen Step sys.start c

/-! ### Schedules -/

/-- Who moves, and what the environment answers to the operation it performs. -/
abbrev Choice (sys : System ι) := sys.Tid × ((o : ι.Op) → ι.Res o)

/-- Unroll loops at the head of a program, at most `n` times. -/
def settle {α : Type} : ℕ → Prog ι α → Prog ι α
  | n + 1, .iter x body k => settle n (.unroll x body k)
  | _, p => p

/-- Let one task perform its next operation. -/
def fire (ch : Choice sys) (c : Config sys) : Option (Config sys) :=
  if sys.live c.world.state ch.1 then
    match settle 4 (c.pool ch.1) with
    | .call o k => (sys.act ch.1 o (ch.2 o) c.world).map (c.moved ch.1 (k (ch.2 o)))
    | _ => none
  else none

def exec : List (Choice sys) → Config sys → Option (Config sys)
  | [], c => some c
  | ch :: rest, c => (fire ch c).bind (exec rest)

theorem Config.moved_pool_self (c : Config sys) {i : sys.Tid} (p : Prog ι Unit) {w : sys.World}
    (live : sys.live c.world.state i) : (c.moved i p w).pool i = p := by
  simp [moved, started, live]

theorem Config.moved_moved (c : Config sys) (i : sys.Tid) (p q : Prog ι Unit) (w : sys.World) :
    (c.moved i p c.world).moved i q w = c.moved i q w := by
  simp [moved, started]

theorem step_settle (n : ℕ) {c : Config sys} {i : sys.Tid} (live : sys.live c.world.state i) :
    Relation.ReflTransGen Step c (c.moved i (settle n (c.pool i)) c.world) := by
  have stay : c.moved i (c.pool i) c.world = c := by simp [Config.moved, Config.started]
  suffices h : ∀ p, Relation.ReflTransGen Step (c.moved i p c.world)
      (c.moved i (settle n p) c.world) by simpa only [stay] using h (c.pool i)
  induction n with
  | zero => intro p; cases p <;> exact .refl
  | succ n ih =>
    intro p
    cases p with
    | ret a => exact .refl
    | call o k => exact .refl
    | iter x body k =>
      have hs := Step.unroll (c := c.moved i (.iter x body k) c.world) live
        (c.moved_pool_self _ live)
      rw [show (c.moved i (.iter x body k) c.world).world = c.world from rfl,
        c.moved_moved] at hs
      exact .head hs (ih _)

theorem fire_steps {ch : Choice sys} {c c' : Config sys} (h : fire ch c = some c') :
    Relation.ReflTransGen Step c c' := by
  unfold fire at h
  split at h
  · next live =>
    have hs := step_settle 4 live
    split at h
    · next o k hcode =>
      obtain ⟨w, hw, rfl⟩ := Option.map_eq_some_iff.mp h
      rw [hcode] at hs
      have hstep := Step.call (c := c.moved ch.1 (.call o k) c.world) live
        (c.moved_pool_self _ live) hw
      rw [c.moved_moved] at hstep
      exact hs.tail hstep
    · cases h
  · cases h

theorem exec_reachable {schedule : List (Choice sys)} {c c' : Config sys} (hc : Reachable c)
    (h : exec schedule c = some c') : Reachable c' := by
  induction schedule generalizing c with
  | nil => cases h; exact hc
  | cons ch rest ih =>
    obtain ⟨d, hd, hrest⟩ := Option.bind_eq_some_iff.mp h
    exact ih (hc.trans (fire_steps hd)) hrest

/-- A schedule that ends in a configuration satisfying a test exhibits a reachable one. -/
theorem exists_reachable (schedule : List (Choice sys)) (test : Config sys → Bool)
    (h : (exec schedule sys.start).any test = true) : ∃ c, Reachable c ∧ test c = true := by
  cases hc : exec schedule sys.start with
  | none => simp [hc] at h
  | some c => exact ⟨c, exec_reachable .refl hc, by simpa [hc] using h⟩

end System
end Process
