import FlipforgeBridge.Io
import FlipforgeBridge.Process.Execution
import Mathlib.Algebra.Order.Ring.Int
import Mathlib.Tactic.Ring

/-!
`bridge_io_write_all` against any callback: whatever it answers, the bytes it takes are a prefix
of the array, and all of it if and only if the loop reports success.
-/
namespace FlipforgeBridge
open Process

namespace PartialWrites

/-- A callback, called with the bytes on offer: how many it took, and whether a failure may be
retried. -/
abbrev callback : Interface := ⟨List UInt8, fun _ => ℤ × Bool⟩

def writeAll (bytes : List UInt8) : Prog callback Bool :=
  bridgeIoWriteAll (fun offered => .perform (ι := callback) offered) bytes

abbrev Call := Event callback

/-- A positive count, and no more than was offered. -/
def valid (c : Call) : Bool := 0 < c.res.1 ∧ c.res.1 ≤ c.op.length

/-- A failure that may be retried. -/
def retryable (c : Call) : Bool := c.res.1 < 0 ∧ c.res.2

def takenBy (c : Call) : List UInt8 := if valid c then c.op.take c.res.1.toNat else []

/-- The bytes taken, in order. -/
def taken (calls : List Call) : List UInt8 := calls.flatMap takenBy

/-- The sum of the valid counts. -/
def total (calls : List Call) : ℤ := ((calls.filter valid).map fun c => c.res.1).sum

/-- What has not been taken. -/
def remainder (bytes : List UInt8) (calls : List Call) : List UInt8 :=
  bytes.drop (taken calls).length

theorem takenBy_of_valid {c : Call} (h : valid c) : takenBy c = c.op.take c.res.1.toNat := if_pos h

theorem takenBy_of_not_valid {c : Call} (h : ¬ valid c) : takenBy c = [] := if_neg h

theorem not_valid_of_retryable {c : Call} (h : retryable c) : ¬ valid c := by
  have hneg : c.res.1 < 0 := (of_decide_eq_true h).1
  intro hv
  have hpos : 0 < c.res.1 := (of_decide_eq_true hv).1
  omega

theorem taken_concat (calls : List Call) (c : Call) :
    taken (calls ++ [c]) = taken calls ++ takenBy c := by simp [taken]

theorem length_takenBy {c : Call} (h : valid c) : ((takenBy c).length : ℤ) = c.res.1 := by
  have hc : 0 < c.res.1 ∧ c.res.1 ≤ c.op.length := of_decide_eq_true h
  rw [takenBy_of_valid h, List.length_take]
  omega

/-- The valid counts add up to the number of bytes taken. -/
theorem total_eq_length (calls : List Call) : total calls = (taken calls).length := by
  induction calls with
  | nil => rfl
  | cons c calls ih =>
    have hcons : taken (c :: calls) = takenBy c ++ taken calls := rfl
    rw [hcons, List.length_append]
    by_cases hc : valid c
    · have hsum : total (c :: calls) = c.res.1 + total calls := by simp [total, hc]
      rw [hsum, ih, Nat.cast_add, length_takenBy hc]
    · have hsum : total (c :: calls) = total calls := by simp [total, hc]
      rw [hsum, ih, takenBy_of_not_valid hc, List.length_nil, Nat.zero_add]

/-- The calls so far were all accepted, and `rest` is what is still to be taken. -/
inductive Progress (bytes : List UInt8) : List Call → List UInt8 → Prop
  | start : Progress bytes [] bytes
  | advanced {past : List Call} {rest : List UInt8} {c : Call} (h : Progress bytes past rest)
      (hrest : rest ≠ []) (hop : c.op = rest) (hc : valid c) :
      Progress bytes (past ++ [c]) (rest.drop c.res.1.toNat)
  | retried {past : List Call} {rest : List UInt8} {c : Call} (h : Progress bytes past rest)
      (hrest : rest ≠ []) (hop : c.op = rest) (hc : retryable c) :
      Progress bytes (past ++ [c]) rest

namespace Progress
variable {bytes rest : List UInt8} {past : List Call}

theorem accepted (h : Progress bytes past rest) : ∀ c ∈ past, valid c ∨ retryable c := by
  induction h with
  | start => simp
  | advanced _ _ _ hc ih =>
    exact List.forall_mem_append.mpr ⟨ih, List.forall_mem_singleton.mpr (.inl hc)⟩
  | retried _ _ _ hc ih =>
    exact List.forall_mem_append.mpr ⟨ih, List.forall_mem_singleton.mpr (.inr hc)⟩

theorem taken_append (h : Progress bytes past rest) : taken past ++ rest = bytes := by
  induction h with
  | start => rfl
  | @advanced past rest c _ _ hop hc ih =>
    rw [taken_concat, takenBy_of_valid hc, hop, List.append_assoc, List.take_append_drop]
    exact ih
  | @retried past rest c _ _ _ hc ih =>
    rw [taken_concat, takenBy_of_not_valid (not_valid_of_retryable hc), List.append_nil]
    exact ih

/-- Every offer was what was left at the time, and never empty. -/
theorem offers (h : Progress bytes past rest) :
    ∀ before c, before ++ [c] <+: past → c.op ≠ [] ∧ taken before ++ c.op = bytes := by
  have last {past : List Call} {rest : List UInt8} {c : Call} (h : Progress bytes past rest)
      (hrest : rest ≠ []) (hop : c.op = rest)
      (ih : ∀ before d, before ++ [d] <+: past → d.op ≠ [] ∧ taken before ++ d.op = bytes) :
      ∀ before d, before ++ [d] <+: past ++ [c] → d.op ≠ [] ∧ taken before ++ d.op = bytes := by
    intro before d hd
    rcases List.prefix_concat_iff.mp hd with hd | hd
    · obtain ⟨rfl, hdc⟩ := List.append_inj' hd rfl
      cases hdc
      rw [hop]
      exact ⟨hrest, h.taken_append⟩
    · exact ih before d hd
  induction h with
  | start => intro before c hc; simp at hc
  | advanced h hrest hop _ ih => exact last h hrest hop ih
  | retried h hrest hop _ ih => exact last h hrest hop ih

end Progress

/-- How the loop stops: with everything taken, or at a call it does not accept. -/
inductive Outcome (bytes : List UInt8) : Bool → List Call → Prop
  | complete {calls : List Call} (h : Progress bytes calls []) : Outcome bytes true calls
  | refused {past : List Call} {rest : List UInt8} {c : Call} (h : Progress bytes past rest)
      (hrest : rest ≠ []) (hop : c.op = rest) (hc : ¬ valid c) (hr : ¬ retryable c) :
      Outcome bytes false (past ++ [c])

theorem writeAll_follows (bytes : List UInt8) :
    (writeAll bytes).Follows Prog.record (Outcome bytes) [] := by
  apply Prog.Follows.loop fun offset past => Progress bytes past (bytes.drop offset)
  · exact .start
  intro offset past h
  by_cases hoffset : offset < bytes.length
  · rw [if_neg (not_not.mpr hoffset)]
    have hrest : bytes.drop offset ≠ [] := by
      rw [Ne, List.drop_eq_nil_iff]
      omega
    have hlength : (bytes.drop offset).length = bytes.length - offset := List.length_drop
    apply Prog.Follows.perform
    rintro ⟨written, flag⟩
    refine ⟨_, rfl, ?_⟩
    have hvalid : 0 < written ∧ written.toNat ≤ bytes.length - offset ↔
        valid ⟨bytes.drop offset, written, flag⟩ := by
      have heval : valid ⟨bytes.drop offset, written, flag⟩ =
          decide (0 < written ∧ written ≤ (bytes.drop offset).length) := rfl
      rw [heval, decide_eq_true_eq, hlength]
      omega
    by_cases hc : 0 < written ∧ written.toNat ≤ bytes.length - offset
    · have hstep := h.advanced hrest rfl (hvalid.mp hc)
      rw [List.drop_drop] at hstep
      simp only [if_pos hc]
      exact (Prog.follows_ret _).mpr hstep
    simp only [if_neg hc]
    rw [hvalid] at hc
    by_cases hr : written < 0 ∧ flag
    · rw [if_pos hr]
      exact (Prog.follows_ret _).mpr (h.retried hrest rfl (decide_eq_true hr))
    · rw [if_neg hr]
      have hr' : ¬ retryable ⟨bytes.drop offset, written, flag⟩ := fun h => hr (of_decide_eq_true h)
      exact (Prog.follows_ret _).mpr (.refused h hrest rfl hc hr')
  · rw [if_pos hoffset]
    have hnil : bytes.drop offset = [] := List.drop_eq_nil_of_le (by omega)
    rw [hnil] at h
    exact (Prog.follows_ret _).mpr (.complete h)

variable {bytes : List UInt8} {calls : List Call} {result : Bool}

theorem Outcome.true_iff (h : Outcome bytes result calls) :
    result = true ↔ (∀ c ∈ calls, valid c ∨ retryable c) ∧ total calls = bytes.length := by
  cases h with
  | complete h =>
    have htaken : taken calls = bytes := by simpa using h.taken_append
    simp only [true_iff]
    exact ⟨h.accepted, by rw [total_eq_length, htaken]⟩
  | refused _ _ _ hc hr =>
    simp only [Bool.false_eq_true, false_iff]
    intro ⟨hall, _⟩
    rcases hall _ (List.mem_append_right _ (List.mem_singleton_self _)) with hv | hretry
    · exact hc hv
    · exact hr hretry

theorem Outcome.taken_eq (h : Outcome bytes true calls) : taken calls = bytes := by
  cases h with
  | complete h => simpa using h.taken_append

theorem Outcome.taken_prefix (h : Outcome bytes result calls) : taken calls <+: bytes := by
  cases h with
  | complete h => exact ⟨_, h.taken_append⟩
  | refused h _ _ hc _ =>
    rw [taken_concat, takenBy_of_not_valid hc, List.append_nil]
    exact ⟨_, h.taken_append⟩

theorem Outcome.offers (h : Outcome bytes result calls) :
    ∀ before c, before ++ [c] <+: calls → c.op ≠ [] ∧ taken before ++ c.op = bytes := by
  cases h with
  | complete h => exact h.offers
  | refused h hrest hop _ _ =>
    intro before c hc
    rcases List.prefix_concat_iff.mp hc with hc | hc
    · obtain ⟨rfl, hcd⟩ := List.append_inj' hc rfl
      cases hcd
      rw [hop]
      exact ⟨hrest, h.taken_append⟩
    · exact h.offers before c hc

/-- A valid step strictly shortens what is left, any other leaves it alone. -/
theorem remainder_concat {before : List Call} {c : Call} (hop : c.op ≠ [])
    (hbytes : taken before ++ c.op = bytes) :
    remainder bytes before = c.op ∧
      (valid c → (remainder bytes (before ++ [c])).length < (remainder bytes before).length) ∧
      (¬ valid c → remainder bytes (before ++ [c]) = remainder bytes before) := by
  have hbefore : remainder bytes before = c.op := by
    rw [remainder, ← hbytes, List.drop_left]
  refine ⟨hbefore, fun hc => ?_, fun hc => ?_⟩
  · have hpos := List.length_pos_iff.mpr hop
    have htaken := length_takenBy hc
    have hcount : 0 < c.res.1 := (of_decide_eq_true hc).1
    rw [hbefore, remainder, taken_concat, ← hbytes]
    simp only [List.length_drop, List.length_append]
    omega
  · rw [remainder, remainder, taken_concat, takenBy_of_not_valid hc, List.append_nil]

/-- Nothing is lost, repeated or offered out of range, whatever the callback answers. -/
theorem partial_writes (h : (writeAll bytes).Yields calls result) :
    (result = true ↔ (∀ c ∈ calls, valid c ∨ retryable c) ∧ total calls = bytes.length) ∧
    (result = true → taken calls = bytes) ∧
    (result = false → taken calls <+: bytes) ∧
    ∀ before c, before ++ [c] <+: calls →
      c.op ≠ [] ∧ taken before ++ c.op = bytes ∧ remainder bytes before = c.op ∧
      (valid c → (remainder bytes (before ++ [c])).length < (remainder bytes before).length) ∧
      (¬ valid c → remainder bytes (before ++ [c]) = remainder bytes before) := by
  have houtcome : Outcome bytes result calls := (writeAll_follows bytes).of_yields h
  refine ⟨houtcome.true_iff, ?_, fun _ => houtcome.taken_prefix, ?_⟩
  · rintro rfl
    exact houtcome.taken_eq
  · intro before c hc
    obtain ⟨hop, hbytes⟩ := houtcome.offers before c hc
    exact ⟨hop, hbytes, remainder_concat hop hbytes⟩

/-- Two bytes taken, one failure retried, the last byte taken. -/
def retriedRun : List Call :=
  [⟨[1, 2, 3], 2, false⟩, ⟨[3], -1, true⟩, ⟨[3], 1, false⟩]

theorem retriedRun_yields : (writeAll [1, 2, 3]).Yields retriedRun true :=
  .iter (.call (.iter (.call (.iter (.call (.iter .ret))))))

theorem partial_writes_retried : taken retriedRun = [1, 2, 3] :=
  (partial_writes retriedRun_yields).2.1 rfl

end PartialWrites
end FlipforgeBridge
