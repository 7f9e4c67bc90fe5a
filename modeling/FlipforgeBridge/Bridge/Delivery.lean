import FlipforgeBridge.Bridge.Asking
import FlipforgeBridge.Bridge.History
import FlipforgeBridge.Bridge.Roster
import Mathlib.Data.List.Forall2

/-!
The bytes on their way from a client to the Flipper. A call of `send_rpc` that succeeds has written
them all in pieces, each acknowledged before the next; one that fails has written the beginning of
them and signalled the link loss.
-/
namespace FlipforgeBridge
open Process

namespace Bridge

/-- The DATA frames of these pieces. -/
def DataFrames (pieces frames : List (List UInt8)) : Prop :=
  List.Forall₂ (fun piece frame =>
    expansionProtocolEncode (.data piece) expansionFrameSize = some frame) pieces frames

/-- The pieces fit into a DATA frame each. -/
def Sized (pieces : List (List UInt8)) : Prop :=
  ∀ piece ∈ pieces, piece ≠ [] ∧ piece.length ≤ bridgeExpansionMaxData

/-- What a call of `send_rpc` has done when it returns. -/
structure Delivered (d : Delivery) (bytes : List UInt8) (error : EspErr)
    (pieces : List (List UInt8)) : Prop where
  given : d.bytes = bytes
  sized : Sized pieces
  frames : DataFrames pieces d.frames
  whole : error = .ok → pieces.flatten = bytes ∧ d.acks = d.frames.length
  part : error ≠ .ok → pieces.flatten <+: bytes ∧ d.acks ≤ d.frames.length ∧
    d.frames.length ≤ d.acks + 1 ∧ (d.signalled = true ∨ d.frames = [])

/-- While a call goes on, a frame is written when all before it are acknowledged. -/
def DeliveryEnds : Entry → List Entry → Prop
  | ⟨.client n, .uartWriteBytes _, _⟩, past =>
    (delivery (.client n) past).calling = true →
      (delivery (.client n) past).acks = (delivery (.client n) past).frames.length
  | ⟨.client n, .mark (.leave (.sendRpc bytes) error), _⟩, past =>
    ∃ pieces, Delivered (delivery (.client n) past) bytes error pieces
  | _, _ => True

/-- The pieces of a call that goes on. -/
structure Progress (d : Delivery) (bytes rest : List UInt8) (pieces : List (List UInt8)) :
    Prop where
  given : d.bytes = bytes
  sized : Sized pieces
  frames : DataFrames pieces d.frames
  split : pieces.flatten ++ rest = bytes

/-- The frames of a call that are not acknowledged are the last one at most. -/
def Owed (d : Delivery) : Prop := d.acks ≤ d.frames.length ∧ d.frames.length ≤ d.acks + 1

/-- What a call has done so far, phase by phase. -/
def Delivers (d : Delivery) : AskPhase → Prop
  | ⟨.none, _⟩ => d.calling = false
  | ⟨.entered bytes, stage⟩ => stage = .resting ∧ d = { bytes, calling := true }
  | ⟨.sending bytes rest, .resting⟩ | ⟨.sending bytes rest, .armed⟩ =>
    ∃ pieces, Progress d bytes rest pieces ∧ d.acks = d.frames.length
  | ⟨.sending bytes rest, .asked⟩ =>
    ∃ pieces, Progress d bytes (rest.drop bridgeExpansionMaxData) pieces ∧
      d.acks + 1 = d.frames.length
  | ⟨.sending bytes _, .owing⟩ =>
    ∃ pieces rest, Progress d bytes rest pieces ∧ Owed d
  | ⟨.broken bytes, _⟩ =>
    ∃ pieces rest, Progress d bytes rest pieces ∧ Owed d ∧ d.signalled = true

section Delivers
variable {d : Delivery} {bytes rest : List UInt8} {pieces : List (List UInt8)}
  {forward : Forward}

/-- The next piece is written. -/
theorem Progress.write {frame : List UInt8} (h : Progress d bytes rest pieces) (hrest : rest ≠ [])
    (hencode : expansionProtocolEncode
      (.data (rest.take bridgeExpansionMaxData)) expansionFrameSize =
      some frame) :
    Progress { d with frames := d.frames ++ [frame] } bytes (rest.drop bridgeExpansionMaxData)
      (pieces ++ [rest.take bridgeExpansionMaxData]) where
  given := h.given
  sized := by
    intro piece hpiece
    obtain hpiece | hpiece := List.mem_append.mp hpiece
    · exact h.sized piece hpiece
    · obtain rfl := List.mem_singleton.mp hpiece
      constructor
      · rw [ne_eq, List.take_eq_nil_iff, not_or]
        exact ⟨by decide, hrest⟩
      · rw [List.length_take]
        exact Nat.min_le_left _ _
  frames := by
    apply List.rel_append h.frames
    exact .cons hencode .nil
  split := by
    rw [List.flatten_append, List.flatten_singleton, List.append_assoc, List.take_append_drop]
    exact h.split

theorem after_apart {o : Op} {r : o.Res} (h : apart o = true) : d.after o r = d := by
  cases o with
  | mark m =>
    cases m with
    | enter call | leave call error => cases call <;> first | rfl | cases h
    | _ => rfl
  | locked s => cases s <;> first | rfl | cases h
  | uartWriteBytes bytes | setLost reason => cases h
  | _ => rfl

theorem Progress.of_eq {d' : Delivery} (h : Progress d bytes rest pieces)
    (hgiven : d'.bytes = d.bytes) (hframes : d'.frames = d.frames) :
    Progress d' bytes rest pieces where
  given := hgiven.trans h.given
  sized := h.sized
  frames := hframes ▸ h.frames
  split := h.split

theorem Delivers.arm (h : Delivers d ⟨forward, .resting⟩) : Delivers d ⟨forward.begin, .armed⟩ := by
  cases forward with
  | none => exact h
  | entered bytes =>
    obtain ⟨-, rfl⟩ := h
    exact ⟨[], ⟨rfl, by simp [Sized], .nil, rfl⟩, rfl⟩
  | sending bytes rest => exact h
  | broken bytes => exact h

theorem Delivers.write {frame : List UInt8} (h : Delivers d ⟨forward, .armed⟩)
    (hallows : forward.allows frame = true) :
    Delivers { d with frames := d.frames ++ [frame] } ⟨forward, .asked⟩ := by
  cases forward with
  | none => exact h
  | sending bytes rest =>
    obtain ⟨hrest, hencode⟩ := of_decide_eq_true hallows
    obtain ⟨pieces, hprogress, hacks⟩ := h
    exact ⟨_, hprogress.write hrest hencode, by simp [hacks]⟩
  | _ => cases hallows

/-- In a call nothing is written before all frames are acknowledged. -/
theorem Delivers.writes {frame : List UInt8} (h : Delivers d ⟨forward, .armed⟩)
    (hallows : forward.allows frame = true) (hcalling : d.calling = true) :
    d.acks = d.frames.length := by
  cases forward with
  | none =>
    have hreturned : d.calling = false := h
    rw [hcalling] at hreturned
    cases hreturned
  | sending bytes rest =>
    obtain ⟨pieces, -, hacks⟩ := h
    exact hacks
  | _ => cases hallows

theorem Owed.status {status : ExpansionFrameError} (h : Owed d) :
    Owed (d.answered status) := by
  obtain ⟨hacks, hframes⟩ := h
  unfold Owed Delivery.answered
  split
  · exact ⟨Nat.min_le_right _ _, by dsimp only; omega⟩
  · exact ⟨hacks, hframes⟩

theorem Progress.status {status : ExpansionFrameError} (h : Progress d bytes rest pieces) :
    Progress (d.answered status) bytes rest pieces := by
  unfold Delivery.answered
  split
  · exact h.of_eq rfl rfl
  · exact h

/-- The call goes on or not as before. -/
theorem calling_status {status : ExpansionFrameError} :
    (d.answered status).calling = d.calling := by
  unfold Delivery.answered
  split <;> rfl

/-- STATUS None was read. -/
theorem Delivers.answered (h : Delivers d ⟨forward, .asked⟩) :
    Delivers (d.answered .none) ⟨forward.acked, .resting⟩ := by
  cases forward with
  | none => exact calling_status.trans h
  | entered bytes => exact absurd h.1 (by simp)
  | sending bytes rest =>
    obtain ⟨pieces, hprogress, hacks⟩ := h
    refine ⟨pieces, hprogress.status, ?_⟩
    change min (d.acks + 1) d.frames.length = d.frames.length
    omega
  | broken bytes =>
    obtain ⟨pieces, rest, hprogress, howed, hsignalled⟩ := h
    exact ⟨pieces, rest, hprogress.status, howed.status, hsignalled⟩

/-- The exchange failed. -/
theorem Delivers.unanswered {stage : AskStage} {status : ExpansionFrameError}
    (h : Delivers d ⟨forward, stage⟩) (hstage : stage = .armed ∨ stage = .asked) :
    Delivers (d.answered status) ⟨forward, .owing⟩ := by
  cases forward with
  | none => exact calling_status.trans h
  | entered bytes => obtain rfl | rfl := hstage <;> exact absurd h.1 (by simp)
  | sending bytes rest =>
    obtain rfl | rfl := hstage
    · obtain ⟨pieces, hprogress, hacks⟩ := h
      have howed : Owed d := ⟨hacks.le, hacks.ge.trans (Nat.le_succ _)⟩
      exact ⟨pieces, rest, hprogress.status, howed.status⟩
    · obtain ⟨pieces, hprogress, hacks⟩ := h
      have howed : Owed d := ⟨Nat.le_of_succ_le hacks.le, hacks.ge⟩
      exact ⟨pieces, _, hprogress.status, howed.status⟩
  | broken bytes =>
    obtain ⟨pieces, rest, hprogress, howed, hsignalled⟩ := h
    refine ⟨pieces, rest, hprogress.status, howed.status, ?_⟩
    unfold Delivery.answered
    split <;> exact hsignalled

theorem Delivers.lose {stage : AskStage} (h : Delivers d ⟨forward, stage⟩)
    (hstage : stage = .resting ∨ stage = .owing) :
    Delivers { d with signalled := true } ⟨forward.broke, .resting⟩ := by
  cases forward with
  | none => exact h
  | entered bytes =>
    obtain ⟨-, rfl⟩ := h
    exact ⟨[], bytes, ⟨rfl, by simp [Sized], .nil, rfl⟩, ⟨le_rfl, Nat.zero_le _⟩, rfl⟩
  | sending bytes rest =>
    obtain rfl | rfl := hstage
    · obtain ⟨pieces, hprogress, hacks⟩ := h
      exact ⟨pieces, rest, hprogress.of_eq rfl rfl, ⟨hacks.le, hacks.ge.trans (Nat.le_succ _)⟩, rfl⟩
    · obtain ⟨pieces, rest', hprogress, howed⟩ := h
      exact ⟨pieces, rest', hprogress.of_eq rfl rfl, howed, rfl⟩
  | broken bytes =>
    obtain ⟨pieces, rest, hprogress, howed, -⟩ := h
    exact ⟨pieces, rest, hprogress.of_eq rfl rfl, howed, rfl⟩

/-- One step of the code. -/
theorem Delivers.next {ph ph' : AskPhase} {o : Op} {r : o.Res} (h : Delivers d ph)
    (hnext : askNext ph o r = some ph') : Delivers (d.after o r) ph' := by
  by_cases ho : apart o = true
  · rw [askNext_apart ho, Option.some_inj] at hnext
    rwa [after_apart ho, ← hnext]
  obtain ⟨forward, stage⟩ := ph
  cases o with
  | mark m =>
    cases m with
    | enter call =>
      cases call with
      | sendRpc bytes =>
        obtain ⟨-, ⟨⟩⟩ := Option.ite_none_right_eq_some.mp hnext
        exact ⟨rfl, rfl⟩
      | _ => exact absurd rfl ho
    | leave call error =>
      cases call with
      | sendRpc bytes =>
        obtain ⟨-, ⟨⟩⟩ := Option.ite_none_right_eq_some.mp hnext
        rfl
      | _ => exact absurd rfl ho
    | _ => exact absurd rfl ho
  | locked s =>
    cases s with
    | armRequest =>
      obtain ⟨hstage, ⟨⟩⟩ := Option.ite_none_right_eq_some.mp hnext
      obtain rfl : stage = .resting := hstage
      exact h.arm
    | disarmRequest =>
      unfold askNext at hnext
      dsimp only at hnext
      split at hnext
      · next hanswered =>
        obtain ⟨rfl, rfl⟩ := hanswered
        obtain rfl := Option.some_inj.mp hnext
        exact h.answered
      · obtain ⟨hstage, hnext⟩ := Option.ite_none_right_eq_some.mp hnext
        obtain rfl := Option.some_inj.mp hnext
        exact h.unanswered hstage
    | _ => exact absurd rfl ho
  | uartWriteBytes frame =>
    obtain ⟨⟨hstage, hallows⟩, ⟨⟩⟩ := Option.ite_none_right_eq_some.mp hnext
    obtain rfl : stage = .armed := hstage
    exact h.write hallows
  | setLost reason =>
    obtain ⟨hstage, ⟨⟩⟩ := Option.ite_none_right_eq_some.mp hnext
    exact h.lose hstage
  | releaseClient | taskDeleteSelf =>
    obtain ⟨-, ⟨⟩⟩ := Option.ite_none_right_eq_some.mp hnext
    exact h
  | taskDelete kind handle => cases hnext
  | _ => exact absurd rfl ho

/-- What a call has done when it may return. -/
theorem Delivers.delivered {error : EspErr} (h : Delivers d ⟨forward, .resting⟩)
    (hleaves : forward.leaves bytes error = true) : ∃ pieces, Delivered d bytes error pieces := by
  cases forward with
  | none => cases hleaves
  | entered bytes' =>
    obtain ⟨rfl, hempty⟩ := of_decide_eq_true hleaves
    obtain ⟨-, rfl⟩ := h
    exact ⟨[], rfl, by simp [Sized], .nil, fun hok => ⟨(hempty hok).symm, rfl⟩,
      fun _ => ⟨List.nil_prefix, le_rfl, Nat.zero_le _, .inr rfl⟩⟩
  | sending bytes' rest =>
    obtain ⟨rfl, rfl, hok⟩ := of_decide_eq_true hleaves
    obtain ⟨pieces, hprogress, hacks⟩ := h
    have hwhole := hprogress.split
    rw [List.append_nil] at hwhole
    exact ⟨pieces, hprogress.given, hprogress.sized, hprogress.frames, fun _ => ⟨hwhole, hacks⟩,
      fun herror => absurd hok herror⟩
  | broken bytes' =>
    obtain ⟨rfl, herror⟩ := of_decide_eq_true hleaves
    obtain ⟨pieces, rest, hprogress, ⟨hacks, hframes⟩, hsignalled⟩ := h
    exact ⟨pieces, hprogress.given, hprogress.sized, hprogress.frames, fun hok => absurd hok herror,
      fun _ => ⟨⟨rest, hprogress.split⟩, hacks, hframes, .inl hsignalled⟩⟩

end Delivers

/-! ### Runs of the firmware -/

section Runs
variable {secret : Vector UInt8 bridgePairingSecretBytes} {s : (asking secret).Scene}

theorem DeliveryEnds.of_next {n : ℕ} {ph ph' : AskPhase} {o : Op} {r : o.Res} {past : List Entry}
    (h : Delivers (delivery (.client n) past) ph) (hnext : askNext ph o r = some ph') :
    DeliveryEnds ⟨.client n, o, r⟩ past := by
  obtain ⟨forward, stage⟩ := ph
  cases o with
  | uartWriteBytes frame =>
    obtain ⟨⟨hstage, hallows⟩, -⟩ := Option.ite_none_right_eq_some.mp hnext
    obtain rfl : stage = .armed := hstage
    exact h.writes hallows
  | mark m =>
    cases m with
    | leave call error =>
      cases call with
      | sendRpc bytes =>
        obtain ⟨⟨hstage, hleaves⟩, -⟩ := Option.ite_none_right_eq_some.mp hnext
        obtain rfl : stage = .resting := hstage
        exact h.delivered hleaves
      | _ => trivial
    | _ => trivial
  | _ => trivial

/-- A client that is not there is in no call. -/
def Accounts (d : Delivery) : Option AskPhase → Prop
  | none => d.calling = false
  | some ph => Delivers d ph

/-- One step of a client, which ends only outside of calls. -/
theorem Delivers.accounts {d : Delivery} {ph ph' : AskPhase} {o : Op} {r : o.Res}
    (h : Delivers d ph) (hnext : askNext ph o r = some ph') :
    Accounts (d.after o r) (if ends o = true then none else some ph') := by
  have hafter := h.next hnext
  split
  · next hends =>
    cases o with
    | taskDeleteSelf =>
      obtain ⟨rfl, ⟨⟩⟩ := Option.ite_none_right_eq_some.mp hnext
      exact hafter
    | taskDelete kind handle => cases hnext
    | _ => cases hends
  · exact hafter

theorem delivers_of_allowed (hs : (asking secret).Allowed s) :
    (∀ n, Accounts (delivery (.client n) s.world.trace) (s.part (.client n))) ∧
      Justified DeliveryEnds s.world.trace := by
  induction hs with
  | refl => exact ⟨fun _ => rfl, trivial⟩
  | @tail s s' hs hstep ih =>
    obtain ⟨haccounts, hends⟩ := ih
    cases hstep with | @mk i o r ph st live role effect =>
    have hdelivers (n : ℕ) (hlive : s.world.state.live (.client n) = true) :
        Delivers (delivery (.client n) s.world.trace) (s.phase (.client n)) := by
      have haccount := haccounts n
      rwa [Choreography.Scene.part_of_live hlive] at haccount
    refine ⟨fun n => ?_, ?_, hends⟩
    · change Accounts (delivery (.client n) (⟨i, o, r⟩ :: s.world.trace)) _
      by_cases hi : .client n = i
      · subst hi
        have hpart :
            (s.moved (.client n) ph ⟨st, ⟨.client n, o, r⟩ :: s.world.trace⟩).part (.client n) =
              if ends o = true then none else some ph := part_self rfl live effect
        rw [hpart, delivery, account_self]
        exact (hdelivers n live).accounts role
      · rw [delivery, account_of_ne (Ne.symm hi)]
        obtain hsame | ⟨hnone, hnew⟩ := part_other rfl hi effect
        · rw [hsame]
          exact haccounts n
        · have haccount := haccounts n
          rw [hnone] at haccount
          rw [hnew]
          exact haccount
    · cases i with
      | client n => exact .of_next (hdelivers n live) role
      | _ => trivial

end Runs
end Bridge

/-- A call of `send_rpc` writes a frame only when all before it in this call were answered STATUS
None. If it returns Ok, its frames are DATA frames that carry its bytes, in order, and the last was
answered too; if it fails, they carry the beginning of the bytes, at most the last is unanswered,
and the link loss was signalled unless nothing was written. -/
theorem send_rpc_delivers {secret : Vector UInt8 bridgePairingSecretBytes}
    {c : System.Config (bridge secret)} (hc : System.Reachable c) :
    Justified Bridge.DeliveryEnds c.world.trace := by
  obtain ⟨s, hs, hworld⟩ := (Bridge.asking secret).exists_allowed hc
  rw [← hworld]
  exact (Bridge.delivers_of_allowed hs).2

/-- Seventy bytes have gone out in two frames. -/
theorem send_rpc_delivers_forwarded : ∃ c : Bridge.Sample,
    Bridge.delivery (.client 0) c.world.trace =
        { bytes := .replicate 70 1
          frames := [[5, 64] ++ .replicate 64 1 ++ [69], [5, 6, 1, 1, 1, 1, 1, 1, 3]]
          acks := 2 } ∧
      Justified Bridge.DeliveryEnds c.world.trace := by
  obtain ⟨c, hc, htest⟩ := Bridge.exists_run Bridge.Script.splits
    (fun c : Bridge.Sample => Bridge.delivery (.client 0) c.world.trace ==
      { bytes := .replicate 70 1
        frames := [[5, 64] ++ .replicate 64 1 ++ [69], [5, 6, 1, 1, 1, 1, 1, 1, 3]]
        acks := 2 }) (by decide +kernel)
  exact ⟨c, beq_iff_eq.mp htest, send_rpc_delivers hc⟩

end FlipforgeBridge
