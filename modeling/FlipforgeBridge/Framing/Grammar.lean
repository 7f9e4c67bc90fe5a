import Mathlib.Data.List.Basic

/-!
Streams cut into frames. A grammar tells how a stream begins: with which result and after how
many symbols, or not yet. What is decided stays decided, and is decided by the symbols it counts.
Decoders fed in pieces are compared with the reading of the whole stream.
-/
namespace Framing

structure Grammar (β ρ : Type) where
  head : List β → Option (ρ × ℕ)
  pos {s : List β} {r : ρ} {n : ℕ} : head s = some (r, n) → 0 < n
  le {s : List β} {r : ρ} {n : ℕ} : head s = some (r, n) → n ≤ s.length
  append {s : List β} {r : ρ} {n : ℕ} (t : List β) :
    head s = some (r, n) → head (s ++ t) = some (r, n)
  take {s : List β} {r : ρ} {n : ℕ} : head s = some (r, n) → head (s.take n) = some (r, n)

namespace Grammar
variable {β ρ α σ : Type} (g : Grammar β ρ)

@[simp] theorem head_nil : g.head [] = none := by
  cases h : g.head [] with
  | none => rfl
  | some result =>
    have hpos := g.pos h
    have hle := g.le h
    rw [List.length_nil] at hle
    omega

section Undecided
variable {g} {part input : List β} {b : β} {r : ρ} {n : ℕ}

/-- What a longer stream decides, an undecided beginning leaves to the symbols after it. -/
theorem lt_of_head_none (h : g.head part = none) (hs : g.head (part ++ input) = some (r, n)) :
    part.length < n := by
  by_contra hlt
  have hle : n ≤ part.length := by omega
  have htake := g.take hs
  rw [List.take_append_of_le_length hle] at htake
  have happend := g.append (part.drop n) htake
  rw [List.take_append_drop, h] at happend
  cases happend

theorem head_none_of_append (h : g.head (part ++ input) = none) : g.head part = none := by
  cases hp : g.head part with
  | none => rfl
  | some result =>
    rw [g.append input hp] at h
    cases h

/-- A decision on the next symbol counts everything up to it. -/
theorem eq_of_head_concat (h : g.head part = none) (hs : g.head (part ++ [b]) = some (r, n)) :
    n = part.length + 1 := by
  have hlt := lt_of_head_none h hs
  have hle := g.le hs
  rw [List.length_append, List.length_singleton] at hle
  omega

end Undecided

/-! ### Whole streams -/

/-- The results of a stream and where each of them ends, up to and including the first final
one. -/
def parse (final : ρ → Bool) (start : ℕ) (s : List β) : List (ρ × ℕ) :=
  match h : g.head s with
  | none => []
  | some (r, n) =>
    have := g.pos h
    have := g.le h
    (r, start + n) :: if final r then [] else parse final (start + n) (s.drop n)
termination_by s.length
decreasing_by
  rw [List.length_drop]
  omega

/-- The result at every symbol: `wait` until a frame is decided. -/
def spread (wait : ρ) (s : List β) : List ρ :=
  match h : g.head s with
  | none => .replicate s.length wait
  | some (r, n) =>
    have := g.pos h
    have := g.le h
    .replicate (n - 1) wait ++ r :: spread wait (s.drop n)
termination_by s.length
decreasing_by
  rw [List.length_drop]
  omega

section Whole
variable {g} {final : ρ → Bool} {start : ℕ} {wait : ρ} {s : List β} {r : ρ} {n : ℕ}

theorem parse_of_none (h : g.head s = none) : g.parse final start s = [] := by
  rw [parse]
  split
  · rfl
  · next heq =>
    rw [h] at heq
    cases heq

theorem parse_of_some (h : g.head s = some (r, n)) : g.parse final start s =
    (r, start + n) :: if final r then [] else g.parse final (start + n) (s.drop n) := by
  rw [parse]
  split
  · next heq =>
    rw [h] at heq
    cases heq
  · next heq =>
    rw [h] at heq
    cases heq
    rfl

theorem spread_of_none (h : g.head s = none) : g.spread wait s = .replicate s.length wait := by
  rw [spread]
  split
  · rfl
  · next heq =>
    rw [h] at heq
    cases heq

theorem spread_of_some (h : g.head s = some (r, n)) :
    g.spread wait s = .replicate (n - 1) wait ++ r :: g.spread wait (s.drop n) := by
  rw [spread]
  split
  · next heq =>
    rw [h] at heq
    cases heq
  · next heq =>
    rw [h] at heq
    cases heq
    rfl

/-- Every result of a stream begins where the one before it ended. -/
theorem head_of_parse {stop : ℕ} {before after : List (ρ × ℕ)}
    (h : g.parse final start s = before ++ (r, stop) :: after) :
    let last := before.foldl (fun _ e => e.2) start
    start ≤ last ∧ last ≤ stop ∧ g.head (s.drop (last - start)) = some (r, stop - last) := by
  induction before generalizing start s with
  | nil =>
    cases hs : g.head s with
    | none =>
      rw [parse_of_none hs] at h
      cases h
    | some result =>
      obtain ⟨r', n⟩ := result
      rw [parse_of_some hs] at h
      obtain ⟨hr, -⟩ := List.cons.inj h
      obtain ⟨rfl, rfl⟩ := Prod.mk.inj hr
      refine ⟨Nat.le_refl start, Nat.le_add_right start n, ?_⟩
      simp only [List.foldl_nil, Nat.sub_self, List.drop_zero, Nat.add_sub_cancel_left]
      exact hs
  | cons first before ih =>
    cases hs : g.head s with
    | none =>
      rw [parse_of_none hs] at h
      cases h
    | some result =>
      obtain ⟨r', n⟩ := result
      rw [parse_of_some hs] at h
      obtain ⟨rfl, hrest⟩ := List.cons.inj h
      split at hrest
      · simp at hrest
      · obtain ⟨hstart, hstop, hhead⟩ := ih hrest
        refine ⟨Nat.le_trans (Nat.le_add_right start n) hstart, hstop, ?_⟩
        rw [List.drop_drop] at hhead
        rw [List.foldl_cons]
        rwa [show n + (before.foldl (fun _ e => e.2) (start + n) - (start + n)) =
          before.foldl (fun _ e => e.2) (start + n) - start by omega] at hhead

/-- A stream whose only decision is at its end is one frame. -/
theorem head_of_spread (hwait : ∀ n, g.head s ≠ some (wait, n)) (hr : r ≠ wait)
    (h : g.spread wait s = .replicate (s.length - 1) wait ++ [r]) :
    g.head s = some (r, s.length) := by
  cases hs : g.head s with
  | none =>
    rw [spread_of_none hs] at h
    have hmem : r ∈ List.replicate s.length wait := by
      rw [h]
      exact List.mem_append_right _ List.mem_cons_self
    exact absurd (List.eq_of_mem_replicate hmem) hr
  | some result =>
    obtain ⟨r', n⟩ := result
    have hpos := g.pos hs
    have hle := g.le hs
    rw [spread_of_some hs] at h
    have hlast : n - 1 = s.length - 1 := by
      by_contra hne
      have hlt : n - 1 < s.length - 1 := by omega
      have hget := congrArg (·[n - 1]?) h
      simp only [List.getElem?_append_right, List.length_replicate, Nat.le_refl, Nat.sub_self,
        List.getElem?_cons_zero, List.getElem?_append_left, hlt,
        List.getElem?_replicate_of_lt hlt, Option.some_inj] at hget
      exact hwait n (hget ▸ hs)
    rw [hlast, List.append_cancel_left_eq] at h
    obtain ⟨rfl, -⟩ := List.cons.inj h
    rw [show n = s.length by omega]

end Whole

/-! ### Streams of encoded values -/

/-- The results and ends of the frames of some values laid end to end. -/
def ends (wire : α → List β) (result : α → ρ) : ℕ → List α → List (ρ × ℕ)
  | _, [] => []
  | start, a :: rest =>
    (result a, start + (wire a).length) :: ends wire result (start + (wire a).length) rest

section Encoded
variable {wire : α → List β} {result : α → ρ}

theorem map_fst_ends (start : ℕ) (values : List α) :
    (ends wire result start values).map Prod.fst = values.map result := by
  induction values generalizing start with
  | nil => rfl
  | cons a rest ih => rw [ends, List.map_cons, List.map_cons, ih]

variable {g}

theorem parse_flatMap {final : ρ → Bool} {start : ℕ} {values : List α} (tail : List β)
    (h : ∀ a ∈ values, g.head (wire a) = some (result a, (wire a).length) ∧
      final (result a) = false) :
    g.parse final start (values.flatMap wire ++ tail) = ends wire result start values ++
      g.parse final (start + (values.flatMap wire).length) tail := by
  induction values generalizing start with
  | nil => rfl
  | cons a rest ih =>
    obtain ⟨hhead, hfinal⟩ := h a List.mem_cons_self
    rw [List.flatMap_cons, List.append_assoc, parse_of_some (g.append _ hhead), hfinal,
      List.drop_left, if_neg Bool.false_ne_true, ih fun a ha => h a (List.mem_cons_of_mem _ ha),
      List.length_append, Nat.add_assoc]
    rfl

end Encoded

/-! ### Symbol by symbol -/

/-- A machine that answers `wait` while the symbols since its last restart decide nothing, and
otherwise the decision; `hold` is its state after such symbols. -/
structure Decides (push : σ → β → ρ × σ) (wait : ρ) (hold : List β → σ) : Prop where
  wait {part : List β} {b : β} : g.head part = none → g.head (part ++ [b]) = none →
    push (hold part) b = (wait, hold (part ++ [b]))
  done {part : List β} {b : β} {r : ρ} {n : ℕ} : g.head part = none →
    g.head (part ++ [b]) = some (r, n) → push (hold part) b = (r, hold [])

/-- Push the symbols one after another. -/
def feed (push : σ → β → ρ × σ) : σ → List β → List ρ × σ
  | state, [] => ([], state)
  | state, b :: rest =>
    let (r, state) := push state b
    let (results, state) := feed push state rest
    (r :: results, state)

section Decides
variable {g} {push : σ → β → ρ × σ} {wait : ρ} {hold : List β → σ}

theorem feed_cons (state : σ) (b : β) (rest : List β) : feed push state (b :: rest) =
    ((push state b).1 :: (feed push (push state b).2 rest).1,
      (feed push (push state b).2 rest).2) := rfl

theorem feed_append (state : σ) (s t : List β) : feed push state (s ++ t) =
    ((feed push state s).1 ++ (feed push (feed push state s).2 t).1,
      (feed push (feed push state s).2 t).2) := by
  induction s generalizing state with
  | nil => rfl
  | cons b rest ih =>
    rw [List.cons_append, feed_cons, ih, feed_cons]
    rfl

/-- Undecided symbols are waited through. -/
theorem feed_wait (hd : g.Decides push wait hold) (part input : List β)
    (h : g.head (part ++ input) = none) :
    feed push (hold part) input = (.replicate input.length wait, hold (part ++ input)) := by
  induction input generalizing part with
  | nil =>
    rw [List.append_nil]
    rfl
  | cons b rest ih =>
    have happend : part ++ b :: rest = part ++ [b] ++ rest := by simp
    rw [happend] at h
    have hb := head_none_of_append h
    rw [feed_cons, hd.wait (head_none_of_append hb) hb, ih _ h, happend]
    rfl

/-- A frame is answered at its last symbol, after which the machine starts over. -/
theorem feed_frame (hd : g.Decides push wait hold) {s : List β} {r : ρ}
    (h : g.head s = some (r, s.length)) :
    feed push (hold []) s = (.replicate (s.length - 1) wait ++ [r], hold []) := by
  have hpos := g.pos h
  have hne := List.length_pos_iff.mp hpos
  obtain ⟨init, b, rfl⟩ : ∃ init b, s = init ++ [b] :=
    ⟨s.dropLast, s.getLast hne, (List.dropLast_append_getLast hne).symm⟩
  have hinit : g.head init = none := by
    cases hi : g.head init with
    | none => rfl
    | some result =>
      have hle := g.le hi
      have hsame := (g.append [b] hi).symm.trans h
      obtain ⟨-, hn⟩ := Prod.mk.inj (Option.some.inj hsame)
      rw [List.length_append, List.length_singleton] at hn
      omega
  have hwait := feed_wait hd [] init hinit
  rw [List.nil_append] at hwait
  rw [feed_append, hwait, feed_cons, hd.done hinit h, List.length_append, List.length_singleton,
    Nat.add_sub_cancel]
  rfl

/-- The machine's results are those of the whole stream, and it ends among undecided symbols. -/
theorem feed_eq_spread (hd : g.Decides push wait hold) (s : List β) :
    (feed push (hold []) s).1 = g.spread wait s ∧
      ∃ part, g.head part = none ∧ (feed push (hold []) s).2 = hold part := by
  induction hn : s.length using Nat.strongRecOn generalizing s with
  | _ n ih =>
    subst hn
    cases hs : g.head s with
    | none =>
      have hwait := feed_wait hd [] s hs
      rw [hwait, spread_of_none hs]
      exact ⟨rfl, s, hs, rfl⟩
    | some result =>
      obtain ⟨r, n⟩ := result
      have hpos := g.pos hs
      have hle := g.le hs
      have hlength : (s.take n).length = n := by
        rw [List.length_take]
        omega
      have hfirst : g.head (s.take n) = some (r, (s.take n).length) := by
        rw [hlength]
        exact g.take hs
      obtain ⟨hresults, hstate⟩ := ih (s.drop n).length (by rw [List.length_drop]; omega) _ rfl
      have hfeed : feed push (hold []) s = _ :=
        (congrArg _ (List.take_append_drop n s).symm).trans (feed_append _ _ _)
      rw [feed_frame hd hfirst, hlength] at hfeed
      rw [hfeed, spread_of_some hs, ← hresults]
      exact ⟨by rw [List.append_assoc, List.singleton_append], hstate⟩

theorem feed_flatMap (hd : g.Decides push wait hold) (wire : α → List β) (result : α → ρ)
    {values : List α} (h : ∀ a ∈ values, g.head (wire a) = some (result a, (wire a).length)) :
    feed push (hold []) (values.flatMap wire) =
      (values.flatMap fun a => .replicate ((wire a).length - 1) wait ++ [result a], hold []) := by
  induction values with
  | nil => rfl
  | cons a rest ih =>
    rw [List.flatMap_cons, feed_append, feed_frame hd (h a List.mem_cons_self),
      ih fun a ha => h a (List.mem_cons_of_mem _ ha)]
    rfl

/-- As many symbols as cannot stay undecided contain a decision. -/
theorem exists_decision (hd : g.Decides push wait hold) {bound : ℕ}
    (hbound : ∀ s, g.head s = none → s.length < bound) {part input : List β}
    (h : g.head part = none) (hlength : bound ≤ input.length) :
    ∃ r ∈ (feed push (hold part) input).1, ∃ s n, g.head s = some (r, n) := by
  have hwait := feed_wait hd [] part h
  have hall := (feed_eq_spread hd (part ++ input)).1
  rw [feed_append, hwait, List.nil_append] at hall
  cases hs : g.head (part ++ input) with
  | none =>
    have hlt := hbound _ hs
    rw [List.length_append] at hlt
    omega
  | some result =>
    obtain ⟨r, n⟩ := result
    have hlt := lt_of_head_none h hs
    refine ⟨r, ?_, part ++ input, n, hs⟩
    have hlater := congrArg (List.drop part.length) hall
    rw [List.drop_left' List.length_replicate, spread_of_some hs,
      List.drop_append_of_le_length (by rw [List.length_replicate]; omega)] at hlater
    rw [hlater]
    exact List.mem_append_right _ List.mem_cons_self

end Decides

end Grammar
end Framing
