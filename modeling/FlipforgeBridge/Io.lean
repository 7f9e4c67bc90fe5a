import FlipforgeBridge.Platform
import FlipforgeBridge.Process.Choreography

/-!
`bridge_io.c`, and the two socket helpers that `bridge_server.c` and `rpc_proxy.c` both define.
-/
namespace FlipforgeBridge
open Process

/-- One operation of the platform. -/
def op (o : Op) : Routine o.Res := .perform (ι := platform) o

section Only
variable {α : Type} {allowed : Op → Prop} {o : Op} {k : o.Res → Routine α}

theorem only_pure {a : α} : (pure a : Routine α).Only allowed := Prog.only_ret a

theorem only_op (h : allowed o) (hk : ∀ r, (k r).Only allowed) : (op o >>= k).Only allowed :=
  .bind ((Prog.only_perform _).mpr h) hk

end Only

section Follows
variable {α Phase : Type} {next : Phase → (o : Op) → o.Res → Option Phase} {o : Op}
  {k : o.Res → Routine α} {Q : α → Phase → Prop} {ph : Phase}

theorem follows_pure {a : α} (h : Q a ph) : (pure a : Routine α).Follows next Q ph :=
  (Prog.follows_ret a).mpr h

theorem follows_op (h : ∀ r, ∃ ph', next ph o r = some ph' ∧ (k r).Follows next Q ph') :
    (op o >>= k).Follows next Q ph := Prog.Follows.perform h

theorem follows_last {Q : o.Res → Phase → Prop}
    (h : ∀ r, ∃ ph', next ph o r = some ph' ∧ Q r ph') : (op o).Follows next Q ph := by
  rw [op, Prog.follows_perform]
  exact h

theorem follows_stay (h : ∀ r, next ph o r = some ph) (hk : ∀ r, (k r).Follows next Q ph) :
    (op o >>= k).Follows next Q ph := follows_op fun r => ⟨ph, h r, hk r⟩

end Follows

/-- `bridge_io_write_all`: the callback is given the bytes from the current offset and returns
how many it took, and whether a failure may be retried. -/
def bridgeIoWriteAll {ι : Interface} (callback : List UInt8 → Prog ι (ℤ × Bool))
    (bytes : List UInt8) : Prog ι Bool :=
  .loop (0 : ℕ) fun offset => do
    if ¬ offset < bytes.length then return .inr true
    let (written, retryable) ← callback (bytes.drop offset)
    if 0 < written ∧ written.toNat ≤ bytes.length - offset then
      return .inl (offset + written.toNat)
    else if written < 0 ∧ retryable then return .inl offset
    else return .inr false

def bridgeIoBufferCanAccept (used incoming capacity : ℕ) : Bool :=
  used ≤ capacity && incoming ≤ capacity - used

def socketWrite (socket : ℕ) (bytes : List UInt8) : Routine (ℤ × Bool) := do
  let result : SendResult ← op (.send socket bytes)
  return (result.sent, decide (result.sent < 0) && result.eintr)

theorem bridgeIoWriteAll_only {allowed : Op → Prop} {callback : List UInt8 → Routine (ℤ × Bool)}
    (h : ∀ bytes, (callback bytes).Only allowed) (bytes : List UInt8) :
    (bridgeIoWriteAll callback bytes).Only allowed := by
  refine .loop fun offset => ?_
  split
  · exact only_pure
  · refine .bind (h _) fun (written, retryable) => ?_
    dsimp only
    split
    · exact only_pure
    · split <;> exact only_pure

def sendAll (socket : ℕ) (bytes : List UInt8) : Routine EspErr := do
  let written ← bridgeIoWriteAll (socketWrite socket) bytes
  return if written then .ok else .fail

theorem sendAll_only {allowed : Op → Prop} {socket : ℕ}
    (h : ∀ bytes, allowed (.send socket bytes)) (bytes : List UInt8) :
    (sendAll socket bytes).Only allowed :=
  .bind (bridgeIoWriteAll_only (fun bytes => only_op (h bytes) fun _ => only_pure) _)
    fun _ => only_pure

end FlipforgeBridge
