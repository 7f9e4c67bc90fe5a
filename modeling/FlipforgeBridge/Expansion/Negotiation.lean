import FlipforgeBridge.Expansion.RoundTrip
import FlipforgeBridge.Expansion.Transport

/-!
`establish_expansion` against any script of replies and any driver, with no other task in the way:
it stops at the first rate the peer accepts, and leaves the machine, the stored rate and the UART
in agreement.
-/
namespace FlipforgeBridge
open Process Framing

namespace Negotiation

/-- The frame at the beginning of these bytes. -/
def frameOf (bytes : List UInt8) : Option ExpansionFrame :=
  match expansionHead bytes with
  | some (.frameReady frame, _) => some frame
  | _ => none

/-- What reaches one reception in time: the bytes of a frame, bytes up to an error in them, or a
part of a frame, which may be empty, and then nothing until the time is over. -/
structure Reply where
  bytes : List UInt8
  whole : ∀ result n, expansionHead bytes = some (result, n) → n = bytes.length

def Reply.frame (reply : Reply) : Option ExpansionFrame := frameOf reply.bytes

/-- The transport and its UART, and what happened: the bytes of the reply that were not read yet,
when the reception began, whether a driver call or the sending of a frame failed, and the rates
requested. -/
structure World where
  guarded : Guarded
  uartBaud : UInt32
  now : ℤ
  pending : List UInt8
  started : Option ℤ := none
  failed : Bool := false
  requests : List UInt32 := []

def World.checked (w : World) (ok : Bool) : World := { w with failed := w.failed || !ok }

/-- A reply is read to its end before the time of its reception is over. -/
def World.InTime (w : World) (now : ℤ) : Prop :=
  w.pending = [] ∨ now < w.started.getD now + bridgeExpansionTimeoutMs * 1000

instance (w : World) (now : ℤ) : Decidable (w.InTime now) := inferInstanceAs (Decidable (_ ∨ _))

section Script
-- The replies to the detection pulse and then to each request.
variable (script : ℕ → Reply)

/-- Bytes are given to the UART; a request is replied to. -/
def World.wrote (w : World) (bytes : List UInt8) : World :=
  match frameOf bytes with
  | some (.baudRate baud) => { w with
      requests := w.requests ++ [baud]
      pending := w.pending ++ (script (w.requests.length + 1)).bytes
      started := none }
  | _ => w

/-- The peer follows the script. The clock never goes back, and goes on while the UART has nothing
to read; a reception begins when the clock is read for the first time. The driver may answer
anything. -/
def effect : (o : Op) → o.Res → World → Option World
  | .locked s, r, w => (s.run r w.guarded).map fun guarded => { w with guarded }
  | .timerGetTime, now, w =>
    if w.now ≤ now ∧ w.InTime now then some { w with now, started := some (w.started.getD now) }
    else none
  | .uartReadByte, .nothing, w =>
    if w.InTime (w.now + 1) then some { w with now := w.now + 1 } else none
  | .uartReadByte, .byte byte, w =>
    if w.pending.head? = some byte then some { w with pending := w.pending.tail } else none
  | .uartReadByte, .error, w => some (w.checked false)
  | .takeTxMutex, taken, w => some (w.checked taken)
  | .uartWriteBytes bytes, written, w =>
    some ((w.wrote script bytes).checked (written = bytes.length))
  | .uartParamConfig baud, error, w | .uartSetBaudrate baud, error, w =>
    some ({ w with uartBaud := if error = EspErr.ok then baud else w.uartBaud }.checked
      (error = EspErr.ok))
  | .uartSetPin, error, w | .uartFlushInput, error, w | .uartWaitTxDone, error, w
  | .gpioResetTx, error, w | .gpioSetTxDirection, error, w | .gpioSetTxLevel _, error, w =>
    some (w.checked (error = EspErr.ok))
  | _, _, w => some w

end Script

theorem frameOf_wire {frame : ExpansionFrame} (h : frame.Valid) :
    frameOf frame.wire = some frame := by
  rw [frameOf, ExpansionFrame.expansionHead_wire h]

/-- Any valid frame can be a reply. -/
def Reply.ofFrame (frame : ExpansionFrame) (h : frame.Valid) : Reply where
  bytes := frame.wire
  whole result n hhead := by
    rw [ExpansionFrame.expansionHead_wire h] at hhead
    exact (congrArg Prod.snd (Option.some_inj.mp hhead)).symm

/-! ### Sending -/

/-- All but the reply and the clock. -/
structure Same (w w' : World) : Prop where
  machine : w'.guarded.machine = w.guarded.machine
  negotiatedBaud : w'.guarded.negotiatedBaud = w.guarded.negotiatedBaud
  uartBaud : w'.uartBaud = w.uartBaud
  requests : w'.requests = w.requests

/-- The rest of the state, apart from a failure. -/
structure Still (w w' : World) : Prop extends Same w w' where
  pending : w'.pending = w.pending
  started : w'.started = w.started

theorem Same.refl (w : World) : Same w w := ⟨rfl, rfl, rfl, rfl⟩

theorem Same.trans {w w' w'' : World} (h : Same w w') (h' : Same w' w'') : Same w w'' :=
  ⟨h'.machine.trans h.machine, h'.negotiatedBaud.trans h.negotiatedBaud,
    h'.uartBaud.trans h.uartBaud, h'.requests.trans h.requests⟩

theorem still_checked (w : World) (ok : Bool) : Still w (w.checked ok) :=
  ⟨⟨rfl, rfl, rfl, rfl⟩, rfl, rfl⟩

theorem checked_true (w : World) : w.checked true = w := by
  have hfailed : (w.failed || !true) = w.failed := Bool.or_false _
  rw [World.checked, hfailed]

theorem failed_checked_false (w : World) : (w.checked false).failed = true := Bool.or_true _

section Operations
variable {script : ℕ → Reply} {α : Type} {Q : α → World → Prop} {w : World}

theorem operation_terminates {o : Op} {k : o.Res → Routine α} {f : o.Res → World}
    (h : ∀ r, effect script o r w = some (f r))
    (hk : ∀ r, (k r).Terminates (effect script) Q (f r)) :
    (op o >>= k).Terminates (effect script) Q w := by
  apply Prog.Terminates.call
  · exact ⟨o.smooth, _, h _⟩
  · intro r w' hr
    rw [h r, Option.some_inj] at hr
    exact hr ▸ hk r

theorem clock_terminates {k : ℤ → Routine α} (hnow : w.InTime w.now)
    (hk : ∀ now, w.now ≤ now → w.InTime now →
      (k now).Terminates (effect script) Q { w with now, started := some (w.started.getD now) }) :
    (op .timerGetTime >>= k).Terminates (effect script) Q w := by
  apply Prog.Terminates.call
  · exact ⟨w.now, _, if_pos ⟨Int.le_refl _, hnow⟩⟩
  · intro now w' hr
    obtain ⟨⟨hle, hinTime⟩, hsame⟩ := Option.ite_none_right_eq_some.mp hr
    cases hsame
    exact hk now hle hinTime

theorem apply_terminates {event : ExpansionEvent} {accepted : Bool} {action : ExpansionAction}
    {machine : ExpansionStateMachine} {k : Bool × ExpansionAction → Routine α}
    (h : expansionStateMachineApply w.guarded.machine event = (accepted, action, machine))
    (hk : (k (accepted, action)).Terminates (effect script) Q
      { w with guarded := { w.guarded with machine } }) :
    (transportApply event >>= k).Terminates (effect script) Q w := by
  have hrun (r : Bool × ExpansionAction) : effect script (.locked (.apply event)) r w =
      if r = (accepted, action) then some { w with guarded := { w.guarded with machine } }
      else none := by
    change Option.map _ (Section.run (.apply event) r w.guarded) = _
    rw [Section.run, h]
    dsimp only
    split <;> rfl
  apply Prog.Terminates.call
  · exact ⟨(accepted, action), _, (hrun _).trans (if_pos rfl)⟩
  · intro r w' hr
    rw [hrun r] at hr
    obtain ⟨rfl, hsame⟩ := Option.ite_none_right_eq_some.mp hr
    cases hsame
    exact hk

end Operations

theorem encode_frame {frame : ExpansionFrame} (h : frame.Valid) :
    expansionProtocolEncode frame expansionFrameSize = some frame.wire := by
  have hroom : frame.length ≤ expansionFrameSize := by
    cases frame with
    | data bytes => exact Nat.add_le_add_right h 3
    | _ => exact Nat.le_of_ble_eq_true rfl
  rw [frame.encode_of_valid h, if_pos hroom]

section Sending
variable {script : ℕ → Reply}

variable (script) in
/-- How the sending of some bytes ends. -/
def Sent (w : World) (bytes : List UInt8) (error : EspErr) (w' : World) : Prop :=
  (error = .ok → Still (w.wrote script bytes) w' ∧ w'.failed = w.failed) ∧
  (error ≠ .ok → w'.failed = true ∧ (Still w w' ∨ Still (w.wrote script bytes) w'))

theorem failed_wrote (w : World) (bytes : List UInt8) :
    (w.wrote script bytes).failed = w.failed := by
  unfold World.wrote
  split <;> rfl

theorem Sent.complete {w w' : World} {bytes : List UInt8} (h : Still (w.wrote script bytes) w')
    (hfailed : w'.failed = (w.wrote script bytes).failed) : Sent script w bytes .ok w' :=
  ⟨fun _ => ⟨h, hfailed.trans (failed_wrote w bytes)⟩, fun herror => absurd rfl herror⟩

theorem Sent.incomplete {w w' : World} {bytes : List UInt8} {error : EspErr} (herror : error ≠ .ok)
    (h : Still w w' ∨ Still (w.wrote script bytes) w') (hfailed : w'.failed = true) :
    Sent script w bytes error w' :=
  ⟨fun hok => absurd hok herror, fun _ => ⟨hfailed, h⟩⟩

/-- A frame goes out whole, or a failure is noted. -/
theorem sendFrame_terminates {frame : ExpansionFrame} (h : frame.Valid) (w : World) :
    (sendFrame frame).Terminates (effect script) (Sent script w frame.wire) w := by
  unfold sendFrame
  rw [encode_frame h]
  have hfail {error : EspErr} (herror : error ≠ .ok) :
      (do
        let _now ← (if error = .ok then locked .markTxActivity else pure 0)
        op .giveTxMutex
        return error : Routine EspErr).Terminates (effect script) (Sent script w frame.wire)
          ((w.wrote script frame.wire).checked false) := by
    rw [if_neg herror]
    apply operation_terminates (fun _ => rfl)
    intro _
    exact .ret (.incomplete herror (.inr (still_checked _ false)) (failed_checked_false _))
  apply operation_terminates (fun _ => rfl)
  intro taken
  cases taken with
  | false =>
    exact .ret (.incomplete (by decide) (.inl (still_checked w false)) (failed_checked_false w))
  | true =>
    rw [checked_true]
    apply operation_terminates (fun _ => rfl)
    intro written
    by_cases hwritten : written = frame.wire.length
    · rw [if_pos hwritten, decide_eq_true hwritten, checked_true]
      apply operation_terminates (fun _ => rfl)
      intro error
      by_cases herror : error = .ok
      · rw [decide_eq_true herror, checked_true, if_pos herror, herror]
        apply operation_terminates (fun _ => rfl)
        intro _
        apply operation_terminates (fun _ => rfl)
        intro _
        exact .ret (.complete ⟨⟨rfl, rfl, rfl, rfl⟩, rfl, rfl⟩ rfl)
      · rw [decide_eq_false herror]
        exact hfail herror
    · rw [if_neg hwritten, decide_eq_false hwritten]
      exact hfail (by decide)

/-- A status is no request. -/
theorem sendStatus_terminates (status : ExpansionFrameError) (w : World) :
    (sendStatus status).Terminates (effect script) (fun _ w' => Still w w') w := by
  have hvalid : (ExpansionFrame.status status).Valid := trivial
  have hwrote : w.wrote script (ExpansionFrame.status status).wire = w := by
    rw [World.wrote, frameOf_wire hvalid]
  apply (sendFrame_terminates hvalid w).mono
  intro error w' hsent
  rw [Sent, hwrote, or_self] at hsent
  by_cases herror : error = .ok
  · exact (hsent.1 herror).1
  · exact (hsent.2 herror).2

end Sending

/-! ### Receiving -/

/-- How a reception ends: with the frame of the reply, or with none. -/
def Received (reply : Reply) (w : World) (response : Except EspErr ExpansionFrame) (w' : World) :
    Prop :=
  Same w w' ∧ match response with
    | .ok frame => reply.frame = some frame ∧ w'.failed = w.failed ∧ w'.pending = []
    | .error _ => w'.failed = true ∨ reply.frame = none

/-- In the middle of a reception: the bytes heard and those to come make up the reply, and what was
heard is no whole frame yet. -/
structure Listening (reply : Reply) (w : World) (start : ℤ) (heard : List UInt8) (w' : World) :
    Prop extends Same w w' where
  failed : w'.failed = w.failed
  started : w'.started = some start
  bytes : heard ++ w'.pending = reply.bytes
  part : expansionHead heard = none
  inTime : w'.InTime w'.now

section Receiving
variable {script : ℕ → Reply} {reply : Reply} {w w' : World} {start : ℤ} {heard : List UInt8}

theorem Listening.inTime_iff (h : Listening reply w start heard w') {now : ℤ} :
    w'.InTime now ↔ w'.pending = [] ∨ now < start + bridgeExpansionTimeoutMs * 1000 := by
  rw [World.InTime, h.started]
  rfl

theorem Listening.waits (h : Listening reply w start heard w') {now : ℤ} (hnow : w'.InTime now) :
    Listening reply w start heard { w' with now } :=
  ⟨⟨h.machine, h.negotiatedBaud, h.uartBaud, h.requests⟩, h.failed, h.started, h.bytes, h.part,
    hnow⟩

/-- The time is over, and the reply has come to its end. -/
theorem Listening.over (h : Listening reply w start heard w') {now : ℤ} (hnow : w'.InTime now)
    (hover : ¬ now < start + bridgeExpansionTimeoutMs * 1000) : reply.frame = none := by
  have hpending : w'.pending = [] := (h.inTime_iff.mp hnow).resolve_right hover
  have hbytes := h.bytes
  rw [hpending, List.append_nil] at hbytes
  rw [Reply.frame, frameOf, ← hbytes, h.part]

/-- The byte that decides: it is the last one of the reply. -/
theorem Listening.decides (h : Listening reply w start heard w') {byte : UInt8}
    {rest : List UInt8} (hpending : w'.pending = byte :: rest) {result : ExpansionDecodeResult}
    {n : ℕ} (hhead : expansionHead (heard ++ [byte]) = some (result, n)) :
    expansionHead reply.bytes = some (result, n) ∧ rest = [] := by
  have hbytes : heard ++ [byte] ++ rest = reply.bytes := by
    rw [← h.bytes, hpending, List.append_assoc]
    rfl
  have hreply : expansionHead reply.bytes = some (result, n) := by
    rw [← hbytes]
    exact expansionHead_append rest hhead
  have hn : n = heard.length + 1 := expansionGrammar.eq_of_head_concat h.part hhead
  have hlength := reply.whole result n hreply
  rw [← hbytes, List.length_append, List.length_append, List.length_singleton, hn] at hlength
  exact ⟨hreply, List.length_eq_zero_iff.mp (by omega)⟩

/-- What follows the byte that decides. -/
theorem Listening.whole (h : Listening reply w start heard w') {byte : UInt8}
    (hbyte : w'.pending.head? = some byte) {result : ExpansionDecodeResult} {n : ℕ} :
    expansionHead (heard ++ [byte]) = some (result, n) →
    (match result with
      | .frameReady frame => do
        let _now ← locked .markRxActivity
        return .inr (.ok frame)
      | .malformed | .checksumError => do
        let _sent ← sendStatus .unknown
        return .inr (.error .invalidResponse)
      | .needMore => return .inl expansionDecoderReset :
        Routine (ExpansionDecoder ⊕ Except EspErr ExpansionFrame)).Terminates (effect script)
      (fun r w'' => ∃ response, r = .inr response ∧ Received reply w response w'')
      { w' with pending := w'.pending.tail } := by
  intro hhead
  have hsame : Same w { w' with pending := w'.pending.tail } :=
    ⟨h.machine, h.negotiatedBaud, h.uartBaud, h.requests⟩
  have hpending : w'.pending = byte :: w'.pending.tail := List.eq_cons_of_mem_head? hbyte
  obtain ⟨hreply, hrest⟩ := h.decides hpending hhead
  have hbroken (hnone : reply.frame = none) :
      (do
        let _sent ← sendStatus .unknown
        return .inr (.error .invalidResponse) :
          Routine (ExpansionDecoder ⊕ Except EspErr ExpansionFrame)).Terminates (effect script)
        (fun r w'' => ∃ response, r = .inr response ∧ Received reply w response w'')
        { w' with pending := w'.pending.tail } := by
    apply (sendStatus_terminates .unknown _).bind
    intro _ w'' hstill
    exact .ret ⟨_, rfl, hsame.trans hstill.toSame, .inr hnone⟩
  cases result with
  | needMore => exact absurd hhead expansionHead_ne_needMore
  | malformed | checksumError => exact hbroken (by rw [Reply.frame, frameOf, hreply])
  | frameReady frame =>
    apply operation_terminates (fun _ => rfl)
    intro _
    refine .ret ⟨_, rfl, hsame.trans ⟨rfl, rfl, rfl, rfl⟩, ?_, h.failed, hrest⟩
    rw [Reply.frame, frameOf, hreply]

theorem read_enabled (w : World) : ∃ r w', effect script .uartReadByte r w = some w' := by
  cases hpending : w.pending with
  | nil => exact ⟨.nothing, _, if_pos (.inl hpending)⟩
  | cons byte rest => exact ⟨.byte byte, _, if_pos (by rw [hpending]; rfl)⟩

/-- One turn of the loop: by a byte or by the clock it comes closer to the deadline. -/
theorem receiveFrameSync_turn (h : Listening reply w start heard w') :
    (do
      let now : ℤ ← op .timerGetTime
      if ¬ now < start + bridgeExpansionTimeoutMs * 1000 then return .inr (.error .timeout)
      let read : UartRead ← op .uartReadByte
      match read with
      | .error => return .inr (.error .fail)
      | .nothing => return .inl (holdingFrame heard)
      | .byte byte =>
        let (result, decoder) := expansionDecoderPush (holdingFrame heard) byte
        match result with
        | .frameReady frame =>
          let _now ← locked .markRxActivity
          return .inr (.ok frame)
        | .malformed | .checksumError =>
          let _sent ← sendStatus .unknown
          return .inr (.error .invalidResponse)
        | .needMore => return .inl decoder :
          Routine (ExpansionDecoder ⊕ Except EspErr ExpansionFrame)).Terminates (effect script)
      (fun r w'' => match r with
        | .inl decoder => (∃ heard', Listening reply w start heard' w'' ∧
            decoder = holdingFrame heard') ∧
          (start + bridgeExpansionTimeoutMs * 1000 - w''.now).toNat + w''.pending.length <
            (start + bridgeExpansionTimeoutMs * 1000 - w'.now).toNat + w'.pending.length
        | .inr response => Received reply w response w'') w' := by
  apply clock_terminates h.inTime
  intro now hle hnow
  have hstarted : w'.started.getD now = start := by rw [h.started]; rfl
  rw [hstarted, ← h.started]
  have hlater := h.waits hnow
  by_cases hdeadline : now < start + bridgeExpansionTimeoutMs * 1000
  · rw [if_neg (not_not.mpr hdeadline)]
    apply Prog.Terminates.call (read_enabled _)
    intro read w'' hread
    cases read with
    | error =>
      cases hread
      exact .ret ⟨hlater.toSame.trans (still_checked _ false).toSame,
        .inl (failed_checked_false _)⟩
    | nothing =>
      obtain ⟨hnext, hsame⟩ := Option.ite_none_right_eq_some.mp hread
      cases hsame
      refine .ret ⟨⟨heard, hlater.waits hnext, rfl⟩, ?_⟩
      dsimp only
      omega
    | byte byte =>
      obtain ⟨hbyte, hsame⟩ := Option.ite_none_right_eq_some.mp hread
      cases hsame
      have hpush := expansionDecoderPush_holding byte h.part
      have hpending : w'.pending = byte :: w'.pending.tail := List.eq_cons_of_mem_head? hbyte
      cases hwhole : expansionHead (heard ++ [byte]) with
      | none =>
        rw [hwhole] at hpush
        rw [Prog.ret_bind]
        dsimp only at hpush ⊢
        rw [hpush]
        have hbytes : heard ++ [byte] ++ w'.pending.tail = reply.bytes := by
          rw [← h.bytes, List.append_assoc, List.singleton_append, ← hpending]
        have hinTime : { w' with now, pending := w'.pending.tail }.InTime now := by
          refine .inr ?_
          rw [h.started]
          exact hdeadline
        refine .ret ⟨⟨_, ⟨⟨h.machine, h.negotiatedBaud, h.uartBaud, h.requests⟩, h.failed,
          h.started, hbytes, hwhole, hinTime⟩, rfl⟩, ?_⟩
        have hlength := congrArg List.length hpending
        rw [List.length_cons] at hlength
        dsimp only
        omega
      | some whole =>
        rw [hwhole] at hpush
        rw [Prog.ret_bind]
        dsimp only at hpush ⊢
        rw [hpush]
        apply (hlater.whole hbyte hwhole).mono
        rintro _ w'' ⟨response, rfl, hreceived⟩
        exact hreceived
  · rw [if_pos hdeadline]
    exact .ret ⟨hlater.toSame, .inr (h.over hnow hdeadline)⟩

theorem receiveFrameSync_terminates (hpending : w.pending = reply.bytes)
    (hstarted : w.started = none) :
    (receiveFrameSync bridgeExpansionTimeoutMs).Terminates (effect script) (Received reply w)
      w := by
  have hfree (now : ℤ) : w.InTime now := by
    refine .inr ?_
    rw [hstarted]
    exact Int.lt_add_of_pos_right _ (by decide)
  apply clock_terminates (hfree w.now)
  intro start _ _
  apply Prog.Terminates.loop
    (fun decoder w' => ∃ heard, Listening reply w start heard w' ∧ decoder = holdingFrame heard)
    (fun _ w' => (start + bridgeExpansionTimeoutMs * 1000 - w'.now).toNat + w'.pending.length)
  · rintro _ w' ⟨heard, hlistening, rfl⟩
    apply (receiveFrameSync_turn hlistening).mono
    rintro (decoder | response) w'' h
    · exact h
    · exact h
  · refine ⟨[], ⟨⟨rfl, rfl, rfl, rfl⟩, rfl, ?_, hpending, rfl, .inr ?_⟩, rfl⟩
    · rw [hstarted]
      rfl
    · rw [hstarted]
      exact Int.lt_add_of_pos_right _ (by decide)

end Receiving

/-! ### What negotiation comes to -/

/-- The peer sends a HEARTBEAT, refuses the rates before this one and takes it. -/
structure Accepts (script : ℕ → Reply) (k : ℕ) : Prop where
  listed : k < bridgePreferredBaudRates.length
  heartbeat : (script 0).frame = some .heartbeat
  refused : ∀ j < k, (script (j + 1)).frame = some (.status .baudRate)
  taken : (script (k + 1)).frame = some (.status .none)

/-- The rates were asked for in order, up to the one now in use. -/
structure Agreed (w : World) (k : ℕ) : Prop where
  requests : w.requests = bridgePreferredBaudRates.take (k + 1)
  rate : bridgePreferredBaudRates[k]? = some w.guarded.negotiatedBaud
  uart : w.uartBaud = w.guarded.negotiatedBaud
  machine : w.guarded.machine = { state := .ready, reconnectAttempts := 0 }

/-- The reply after so many requests leads no further: it is no HEARTBEAT, or neither a refusal nor
an acceptance, or a refusal of the last rate. -/
def Stops (script : ℕ → Reply) : ℕ → Prop
  | 0 => (script 0).frame ≠ some .heartbeat
  | n + 1 => (script (n + 1)).frame ≠ some (.status .none) ∧
      ((script (n + 1)).frame = some (.status .baudRate) → n + 1 = bridgePreferredBaudRates.length)

/-- No rate is in use, none was asked for twice, and each only while the peer went along; a failure
or a reply is the reason that no more were. -/
structure GivenUp (script : ℕ → Reply) (w : World) : Prop where
  negotiatedBaud : w.guarded.negotiatedBaud = 0
  ordered : w.requests.IsPrefix bridgePreferredBaudRates
  once : w.requests.Nodup
  replies : ∀ j < w.requests.length, (script 0).frame = some .heartbeat ∧
    ∀ i < j, (script (i + 1)).frame = some (.status .baudRate)
  stopped : w.failed = true ∨ Stops script w.requests.length

/-- What `establish_expansion` returns, and in which state. -/
structure Outcome (script : ℕ → Reply) (error : EspErr) (w : World) : Prop where
  ok : error = .ok ↔ w.failed = false ∧ ∃ k, Accepts script k
  agreed : error = .ok → ∀ k, Accepts script k → Agreed w k
  givenUp : error ≠ .ok → GivenUp script w

/-- Refusals up to a rate, which is taken. -/
def taking (k : ℕ) : ℕ → Reply
  | 0 => .ofFrame .heartbeat trivial
  | j + 1 => .ofFrame (.status (if j < k then .baudRate else .none)) trivial

/-- Every rate of the list is the first one for some peer. -/
theorem accepts_taking {k : ℕ} (hk : k < bridgePreferredBaudRates.length) :
    Accepts (taking k) k where
  listed := hk
  heartbeat := frameOf_wire trivial
  refused j hj := by
    have hframe : (taking k (j + 1)).frame = some (.status (if j < k then .baudRate else .none)) :=
      frameOf_wire trivial
    rw [hframe, if_pos hj]
  taken := by
    have hframe : (taking k (k + 1)).frame = some (.status (if k < k then .baudRate else .none)) :=
      frameOf_wire trivial
    rw [hframe, if_neg (Nat.lt_irrefl k)]

section Script
variable {script : ℕ → Reply}

theorem GivenUp.congr {w w' : World} (h : GivenUp script w)
    (hbaud : w'.guarded.negotiatedBaud = w.guarded.negotiatedBaud)
    (hrequests : w'.requests = w.requests) (hfailed : w'.failed = w.failed) :
    GivenUp script w' := by
  constructor
  · rw [hbaud, h.negotiatedBaud]
  · rw [hrequests]
    exact h.ordered
  · rw [hrequests]
    exact h.once
  · rw [hrequests]
    exact h.replies
  · rw [hrequests, hfailed]
    exact h.stopped

theorem Accepts.not_lt {k n : ℕ} (h : Accepts script k) (h' : Accepts script n) : ¬ k < n := by
  intro hlt
  have hreply := h'.refused k hlt
  rw [h.taken] at hreply
  cases hreply

theorem Accepts.unique {k n : ℕ} (h : Accepts script k) (h' : Accepts script n) : k = n :=
  Nat.le_antisymm (Nat.not_lt.mp (h'.not_lt h)) (Nat.not_lt.mp (h.not_lt h'))

theorem Outcome.success {w : World} {k : ℕ} (hsound : w.failed = false) (h : Accepts script k)
    (hagreed : Agreed w k) : Outcome script .ok w where
  ok := iff_of_true rfl ⟨hsound, k, h⟩
  agreed _ _ h' := h.unique h' ▸ hagreed
  givenUp herror := absurd rfl herror

theorem Outcome.failure {error : EspErr} {w : World} (herror : error ≠ .ok)
    (hnone : w.failed = false → ∀ k, ¬ Accepts script k) (hup : GivenUp script w) :
    Outcome script error w where
  ok := iff_of_false herror fun ⟨hsound, k, h⟩ => hnone hsound k h
  agreed hok := absurd hok herror
  givenUp _ := hup

/-- A driver call or the sending of a frame failed. -/
theorem Outcome.failed {error : EspErr} {w : World} (herror : error ≠ .ok)
    (hfailed : w.failed = true) (hup : GivenUp script w) : Outcome script error w :=
  .failure herror (fun hsound => absurd (hsound.symm.trans hfailed) Bool.false_ne_true) hup

/-! ### Asking for a rate -/

variable (script) in
/-- A HEARTBEAT and so many refusals. -/
structure Refused (n : ℕ) : Prop where
  heartbeat : (script 0).frame = some .heartbeat
  refused : ∀ j < n, (script (j + 1)).frame = some (.status .baudRate)

section Refused
variable {n : ℕ} {w : World}

theorem Refused.next (h : Refused script n)
    (hlast : (script (n + 1)).frame = some (.status .baudRate)) : Refused script (n + 1) where
  heartbeat := h.heartbeat
  refused j hj := by
    rcases Nat.lt_succ_iff_lt_or_eq.mp hj with hlt | rfl
    · exact h.refused j hlt
    · exact hlast

theorem Refused.not_lt {k : ℕ} (h : Refused script n) (haccepts : Accepts script k) : ¬ k < n := by
  intro hlt
  have htaken := haccepts.taken
  rw [h.refused k hlt] at htaken
  cases htaken

/-- An answer that is neither a refusal nor an acceptance. -/
theorem Refused.broken (h : Refused script n)
    (htaken : (script (n + 1)).frame ≠ some (.status .none))
    (hrefused : (script (n + 1)).frame ≠ some (.status .baudRate)) :
    (∀ k, ¬ Accepts script k) ∧ Stops script (n + 1) := by
  constructor
  · intro k haccepts
    rcases Nat.lt_or_eq_of_le (Nat.not_lt.mp (h.not_lt haccepts)) with hlt | rfl
    · exact hrefused (haccepts.refused n hlt)
    · exact htaken haccepts.taken
  · exact ⟨htaken, fun hframe => absurd hframe hrefused⟩

/-- All rates were refused. -/
theorem Refused.exhausted (h : Refused script bridgePreferredBaudRates.length) :
    (∀ k, ¬ Accepts script k) ∧ Stops script bridgePreferredBaudRates.length := by
  constructor
  · exact fun k haccepts => h.not_lt haccepts haccepts.listed
  · refine ⟨fun htaken => ?_, fun _ => rfl⟩
    have hlast := h.refused (bridgePreferredBaudRates.length - 1) (by decide)
    cases hlast.symm.trans htaken

theorem Refused.givenUp (h : Refused script n) (hbaud : w.guarded.negotiatedBaud = 0)
    (hordered : w.requests.IsPrefix bridgePreferredBaudRates) (hlength : w.requests.length ≤ n + 1)
    (hstopped : w.failed = true ∨ Stops script w.requests.length) : GivenUp script w where
  negotiatedBaud := hbaud
  ordered := hordered
  once := hordered.sublist.nodup (by decide)
  replies j hj := ⟨h.heartbeat, fun i hi => h.refused i (by omega)⟩
  stopped := hstopped

end Refused

/-- These rates were asked for and refused. -/
structure Asked (script : ℕ → Reply) (tried : List UInt32) (w : World) : Prop where
  machine : w.guarded.machine = { state := .negotiatingBaud, reconnectAttempts := 0 }
  negotiatedBaud : w.guarded.negotiatedBaud = 0
  requests : w.requests = tried
  pending : w.pending = []
  refused : Refused script tried.length

/-- One more rate was asked for. -/
structure Asking (script : ℕ → Reply) (tried : List UInt32) (baud : UInt32) (w : World) :
    Prop where
  machine : w.guarded.machine = { state := .negotiatingBaud, reconnectAttempts := 0 }
  negotiatedBaud : w.guarded.negotiatedBaud = 0
  requests : w.requests = tried ++ [baud]
  refused : Refused script tried.length

theorem wrote_baudRate (w : World) (baud : UInt32) :
    w.wrote script (ExpansionFrame.baudRate baud).wire = { w with
      requests := w.requests ++ [baud]
      pending := w.pending ++ (script (w.requests.length + 1)).bytes
      started := none } := by
  have hvalid : (ExpansionFrame.baudRate baud).Valid := trivial
  rw [World.wrote, frameOf_wire hvalid]

variable {tried rest : List UInt32} {baud : UInt32} {w w' : World}

theorem Asked.wrote (h : Asked script tried w)
    (hstill : Still (w.wrote script (ExpansionFrame.baudRate baud).wire) w') :
    Asking script tried baud w' ∧ w'.pending = (script (tried.length + 1)).bytes ∧
      w'.started = none := by
  rw [wrote_baudRate] at hstill
  have hpending := hstill.pending
  rw [h.pending, h.requests] at hpending
  refine ⟨⟨hstill.machine.trans h.machine, hstill.negotiatedBaud.trans h.negotiatedBaud, ?_,
    h.refused⟩, hpending, hstill.started⟩
  exact h.requests ▸ hstill.requests

theorem Asking.same (h : Asking script tried baud w) (hsame : Same w w') :
    Asking script tried baud w' :=
  ⟨hsame.machine.trans h.machine, hsame.negotiatedBaud.trans h.negotiatedBaud,
    hsame.requests.trans h.requests, h.refused⟩

theorem Asked.givenUp (h : Asked script tried w)
    (hordered : tried.IsPrefix bridgePreferredBaudRates)
    (hstopped : w.failed = true ∨ Stops script tried.length) : GivenUp script w := by
  apply h.refused.givenUp h.negotiatedBaud
  · exact h.requests ▸ hordered
  · rw [h.requests]
    exact Nat.le_succ _
  · exact h.requests ▸ hstopped

theorem Asking.givenUp (h : Asking script tried baud w)
    (hordered : (tried ++ [baud]).IsPrefix bridgePreferredBaudRates)
    (hstopped : w.failed = true ∨ Stops script (tried.length + 1)) : GivenUp script w := by
  have hlength : w.requests.length = tried.length + 1 := by
    rw [h.requests, List.length_append]
    rfl
  apply h.refused.givenUp h.negotiatedBaud
  · exact h.requests ▸ hordered
  · exact Nat.le_of_eq hlength
  · rwa [hlength]

/-- The peer took the rate: the machine is ready, and the UART follows or fails. -/
theorem switchBaud_terminates (h : Asking script tried baud w)
    (hrates : tried ++ baud :: rest = bridgePreferredBaudRates) (hsound : w.failed = false)
    (htaken : (script (tried.length + 1)).frame = some (.status .none)) :
    (switchBaud baud).Terminates (effect script) (Outcome script) { w with guarded :=
      { w.guarded with machine := { state := .ready, reconnectAttempts := 0 } } } := by
  have hordered : (tried ++ [baud]).IsPrefix bridgePreferredBaudRates :=
    ⟨rest, (List.append_assoc ..).trans hrates⟩
  have hlisted : tried.length < bridgePreferredBaudRates.length := by
    rw [← hrates, List.length_append, List.length_cons]
    omega
  apply operation_terminates (fun _ => rfl)
  intro _
  apply operation_terminates (fun _ => rfl)
  intro error
  by_cases herror : error = .ok
  · rw [if_neg (not_not.mpr herror), decide_eq_true herror, checked_true, if_pos herror]
    apply operation_terminates (fun _ => rfl)
    intro _
    apply operation_terminates (fun _ => rfl)
    intro _
    apply Prog.Terminates.ret
    apply Outcome.success (k := tried.length)
    · exact hsound
    · exact ⟨hlisted, h.refused.heartbeat, h.refused.refused, htaken⟩
    constructor
    · have htake := List.prefix_iff_eq_take.mp hordered
      rw [List.length_append] at htake
      exact h.requests.trans htake
    · rw [← hrates, List.getElem?_append_right (Nat.le_refl _), Nat.sub_self]
      rfl
    · rfl
    · rfl
  · rw [if_pos herror, decide_eq_false herror]
    apply Prog.Terminates.ret
    have hfailed := failed_checked_false w
    have hup := (h.same (still_checked w false).toSame).givenUp hordered (.inl hfailed)
    refine Outcome.failed herror ?_ (hup.congr rfl rfl rfl)
    exact hfailed

theorem negotiateBaud_terminates (h : Asked script tried w) (hsound : w.failed = false)
    (hrates : tried ++ rest = bridgePreferredBaudRates) :
    (negotiateBaud rest).Terminates (effect script) (Outcome script) w := by
  induction rest generalizing tried w with
  | nil =>
    rw [List.append_nil] at hrates
    obtain ⟨hnone, hstops⟩ := Refused.exhausted (hrates ▸ h.refused)
    apply Prog.Terminates.ret
    apply Outcome.failure (by decide) (fun _ => hnone)
    exact h.givenUp (hrates ▸ List.prefix_rfl) (.inr (hrates ▸ hstops))
  | cons baud rest ih =>
    have hordered : (tried ++ [baud]).IsPrefix bridgePreferredBaudRates :=
      ⟨rest, (List.append_assoc ..).trans hrates⟩
    have hvalid : (ExpansionFrame.baudRate baud).Valid := trivial
    unfold negotiateBaud
    apply (sendFrame_terminates hvalid w).bind
    intro error w' hsent
    by_cases herror : error = .ok
    · rw [if_neg (not_not.mpr herror)]
      obtain ⟨hstill, hfailed⟩ := hsent.1 herror
      obtain ⟨hasked, hpending, hstarted⟩ := h.wrote hstill
      apply (receiveFrameSync_terminates hpending hstarted).bind
      rintro response w'' ⟨hsame, hreply⟩
      have hasking := hasked.same hsame
      have hbroken (htaken : (script (tried.length + 1)).frame ≠ some (.status .none))
          (hrefused : (script (tried.length + 1)).frame ≠ some (.status .baudRate)) :
          Outcome script .invalidResponse w'' := by
        obtain ⟨hnone, hstops⟩ := hasking.refused.broken htaken hrefused
        apply Outcome.failure (by decide) (fun _ => hnone)
        exact hasking.givenUp hordered (.inr hstops)
      match response with
      | .ok (.status .baudRate) =>
        obtain ⟨hframe, hfailed', hempty⟩ := hreply
        have hmachine : expansionStateMachineApply w''.guarded.machine .baudRejected =
            (true, .tryLowerBaud, { state := .negotiatingBaud, reconnectAttempts := 0 }) := by
          rw [hasking.machine]
          rfl
        apply apply_terminates hmachine
        apply ih
        · refine ⟨rfl, hasking.negotiatedBaud, hasking.requests, hempty, ?_⟩
          rw [List.length_append]
          exact hasking.refused.next hframe
        · exact hfailed'.trans (hfailed.trans hsound)
        · exact (List.append_assoc ..).trans hrates
      | .ok (.status .none) =>
        obtain ⟨hframe, hfailed', -⟩ := hreply
        have hmachine : expansionStateMachineApply w''.guarded.machine .baudAccepted =
            (true, .switchBaud, { state := .ready, reconnectAttempts := 0 }) := by
          rw [hasking.machine]
          rfl
        apply apply_terminates hmachine
        exact switchBaud_terminates hasking hrates (hfailed'.trans (hfailed.trans hsound)) hframe
      | .error error =>
        rcases hreply with hfailed' | hframe
        · exact .ret (.failed (by decide) hfailed' (hasking.givenUp hordered (.inl hfailed')))
        · exact .ret (hbroken (by simp [hframe]) (by simp [hframe]))
      | .ok .heartbeat | .ok (.baudRate _) | .ok (.control _) | .ok (.data _)
      | .ok (.status .unknown) =>
        exact .ret (hbroken (by simp [hreply.1]) (by simp [hreply.1]))
    · rw [if_pos herror]
      obtain ⟨hfailed, hstill⟩ := hsent.2 herror
      apply Prog.Terminates.ret
      apply Outcome.failed herror hfailed
      rcases hstill with hstill | hstill
      · have hasked : Asked script tried w' := ⟨hstill.machine.trans h.machine,
          hstill.negotiatedBaud.trans h.negotiatedBaud, hstill.requests.trans h.requests,
          hstill.pending.trans h.pending, h.refused⟩
        exact hasked.givenUp ((List.prefix_append _ _).trans hordered) (.inl hfailed)
      · exact (h.wrote hstill).1.givenUp hordered (.inl hfailed)

end Script

/-! ### The UART and the detection pulse -/

section Script
variable (script : ℕ → Reply)

/-- Nothing was sent or received yet. -/
structure Fresh (w : World) : Prop where
  machine : w.guarded.machine = { state := .initialUart, reconnectAttempts := 0 }
  negotiatedBaud : w.guarded.negotiatedBaud = 0
  requests : w.requests = []
  pending : w.pending = (script 0).bytes
  started : w.started = none

/-- A driver routine: it talks to nobody, and says whether a call failed. -/
def Checks (p : Routine EspErr) : Prop :=
  ∀ w, Fresh script w → w.failed = false → p.Terminates (effect script)
    (fun error w' => Fresh script w' ∧ w'.failed = !decide (error = EspErr.ok)) w

variable {script}

section Checks
variable {p k : Routine EspErr}

theorem Checks.andThen {Q : EspErr → World → Prop} {w : World} (h : Checks script p)
    (hfresh : Fresh script w) (hsound : w.failed = false)
    (hbroken : ∀ error w', error ≠ .ok → Fresh script w' → w'.failed = true → Q error w')
    (hk : ∀ w', Fresh script w' → w'.failed = false → k.Terminates (effect script) Q w') :
    (do
      let error ← p
      if error ≠ .ok then return error
      k : Routine EspErr).Terminates (effect script) Q w := by
  apply (h w hfresh hsound).bind
  rintro error w' ⟨hfresh', hfailed⟩
  by_cases herror : error = .ok
  · rw [if_neg (not_not.mpr herror)]
    apply hk w' hfresh'
    rw [hfailed, decide_eq_true herror]
    rfl
  · rw [if_pos herror]
    apply Prog.Terminates.ret
    apply hbroken error w' herror hfresh'
    rw [hfailed, decide_eq_false herror]
    rfl

theorem Checks.seq (h : Checks script p) (hk : Checks script k) :
    Checks script (do
      let error ← p
      if error ≠ .ok then return error
      k) := by
  intro w hfresh hsound
  apply h.andThen hfresh hsound
  · intro error w' herror hfresh' hfailed
    rw [hfailed, decide_eq_false herror]
    exact ⟨hfresh', rfl⟩
  · exact hk

theorem Fresh.checked {w : World} (h : Fresh script w) (ok : Bool) : Fresh script (w.checked ok) :=
  ⟨h.machine, h.negotiatedBaud, h.requests, h.pending, h.started⟩

end Checks

/-- One call. -/
theorem driver_checks {o : Op} (k : o.Res → EspErr)
    (h : ∀ r w, Fresh script w → ∃ w', effect script o r w = some (w'.checked (k r = .ok)) ∧
      Fresh script w' ∧
      w'.failed = w.failed) :
    Checks script (do
      let r ← op o
      return k r) := by
  intro w hfresh hsound
  apply Prog.Terminates.call
  · exact ⟨o.smooth, _, (h o.smooth w hfresh).choose_spec.1⟩
  · intro r w'' hr
    obtain ⟨w', heffect, hfresh', hfailed⟩ := h r w hfresh
    rw [heffect, Option.some_inj] at hr
    subst hr
    apply Prog.Terminates.ret
    constructor
    · exact hfresh'.checked _
    · rw [World.checked, hfailed, hsound]
      exact Bool.false_or _

theorem uartSetPin_checks : Checks script (op .uartSetPin) :=
  driver_checks (o := .uartSetPin) id fun _ w h => ⟨w, rfl, h, rfl⟩

theorem gpioSetTxLevel_checks (high : Bool) : Checks script (op (.gpioSetTxLevel high)) :=
  driver_checks (o := .gpioSetTxLevel high) id fun _ w h => ⟨w, rfl, h, rfl⟩

theorem uartConfigure_eq (baud : UInt32) :
    uartConfigure baud = (do
      let error : EspErr ← op (.uartParamConfig baud)
      if error ≠ .ok then return error
      let error : EspErr ← op .uartSetPin
      if error ≠ .ok then return error
      op .uartFlushInput) := by
  unfold uartConfigure
  congr 1
  funext error
  by_cases herror : error = .ok
  · rw [if_pos herror, if_neg (not_not.mpr herror)]
    congr 1
    funext error
    exact (ite_not ..).symm
  · rw [if_neg herror, if_pos herror]
    exact if_neg herror

theorem uartConfigure_checks (baud : UInt32) : Checks script (uartConfigure baud) := by
  have hparam : Checks script (op (.uartParamConfig baud)) :=
    driver_checks (o := .uartParamConfig baud) id fun error w h =>
      ⟨{ w with uartBaud := if error = EspErr.ok then baud else w.uartBaud }, rfl,
        ⟨h.machine, h.negotiatedBaud, h.requests, h.pending, h.started⟩, rfl⟩
  have hflush : Checks script (op .uartFlushInput) :=
    driver_checks (o := .uartFlushInput) id fun _ w h => ⟨w, rfl, h, rfl⟩
  rw [uartConfigure_eq]
  exact hparam.seq (uartSetPin_checks.seq hflush)

theorem pulseFlipperRx_checks : Checks script pulseFlipperRx := by
  have hreset : Checks script (op .gpioResetTx) :=
    driver_checks (o := .gpioResetTx) id fun _ w h => ⟨w, rfl, h, rfl⟩
  have hdirection : Checks script (op .gpioSetTxDirection) :=
    driver_checks (o := .gpioSetTxDirection) id fun _ w h => ⟨w, rfl, h, rfl⟩
  have hpulse : Checks script (do
      op (.delay bridgeExpansionDetectPulseMs)
      op (.gpioSetTxLevel true)) := by
    intro w hfresh hsound
    apply operation_terminates (fun _ => rfl)
    intro _
    exact gpioSetTxLevel_checks true w hfresh hsound
  exact hreset.seq (hdirection.seq ((gpioSetTxLevel_checks true).seq
    ((gpioSetTxLevel_checks false).seq hpulse)))

/-- Without a HEARTBEAT no rate is asked for. -/
theorem Fresh.failure {w w' : World} {error : EspErr} (h : Fresh script w) (hsame : Same w w')
    (herror : error ≠ .ok) (hnone : w'.failed = true ∨ (script 0).frame ≠ some .heartbeat) :
    Outcome script error w' := by
  have hrequests : w'.requests = [] := hsame.requests.trans h.requests
  have hup : GivenUp script w' := by
    constructor
    · exact hsame.negotiatedBaud.trans h.negotiatedBaud
    · exact hrequests ▸ List.nil_prefix
    · exact hrequests ▸ List.nodup_nil
    · intro j hj
      rw [hrequests] at hj
      exact absurd hj (Nat.not_lt_zero j)
    · rw [hrequests]
      exact hnone
  rcases hnone with hfailed | hframe
  · exact .failed herror hfailed hup
  · exact .failure herror (fun _ k haccepts => hframe haccepts.heartbeat) hup

/-- The HEARTBEAT, and then the rates. -/
theorem greeting_terminates {w : World} (h : Fresh script w) (hsound : w.failed = false) :
    (do
      let response ← receiveFrameSync bridgeExpansionTimeoutMs
      match response with
      | .ok .heartbeat =>
        let (accepted, _) ← transportApply .heartbeatReceived
        if !accepted then return .fail
        negotiateBaud bridgePreferredBaudRates
      | _ => return .timeout : Routine EspErr).Terminates (effect script) (Outcome script) w := by
  apply (receiveFrameSync_terminates h.pending h.started).bind
  rintro response w' ⟨hsame, hreply⟩
  have hsilent (hnone : w'.failed = true ∨ (script 0).frame ≠ some .heartbeat) :
      Outcome script .timeout w' :=
    h.failure hsame (by decide) hnone
  match response with
  | .ok .heartbeat =>
    obtain ⟨hframe, hfailed, hempty⟩ := hreply
    have hmachine : expansionStateMachineApply w'.guarded.machine .heartbeatReceived =
        (true, .requestBaud, { state := .negotiatingBaud, reconnectAttempts := 0 }) := by
      rw [hsame.machine, h.machine]
      rfl
    apply apply_terminates hmachine
    have hasked : Asked script [] { w' with guarded := { w'.guarded with
        machine := { state := .negotiatingBaud, reconnectAttempts := 0 } } } := by
      constructor
      · rfl
      · exact hsame.negotiatedBaud.trans h.negotiatedBaud
      · exact hsame.requests.trans h.requests
      · exact hempty
      · exact ⟨hframe, fun j hj => absurd hj (Nat.not_lt_zero j)⟩
    exact negotiateBaud_terminates hasked (hfailed.trans hsound) rfl
  | .error error =>
    exact .ret (hsilent (hreply.imp_right fun hframe => by simp [hframe]))
  | .ok (.status _) | .ok (.baudRate _) | .ok (.control _) | .ok (.data _) =>
    exact .ret (hsilent (.inr (by simp [hreply.1])))

end Script

/-- Whatever the peer replies and the driver does, negotiation ends, and it succeeds exactly if no
driver call fails and the peer takes a rate after it has refused those before. -/
theorem negotiation_first_accepted (script : ℕ → Reply) (guarded : Guarded) (uartBaud : UInt32)
    (now : ℤ) :
    establishExpansion.Terminates (effect script) (fun error w =>
      (error = .ok ↔ w.failed = false ∧ ∃ k, Accepts script k) ∧
        (error = .ok → ∀ k, Accepts script k → Agreed w k) ∧ (error ≠ .ok → GivenUp script w))
      { guarded, uartBaud, now, pending := (script 0).bytes } := by
  have hbroken (error : EspErr) (w : World) (herror : error ≠ .ok) (h : Fresh script w)
      (hfailed : w.failed = true) : Outcome script error w :=
    h.failure (.refl w) herror (.inl hfailed)
  suffices houtcome : establishExpansion.Terminates (effect script) (Outcome script)
      { guarded, uartBaud, now, pending := (script 0).bytes } from
    houtcome.mono fun _ _ h => ⟨h.ok, h.agreed, h.givenUp⟩
  unfold establishExpansion
  apply operation_terminates (fun _ => rfl)
  intro _
  have hmachine : expansionStateMachineApply expansionStateMachineInit .start =
      (true, .detectPulse, { state := .initialUart, reconnectAttempts := 0 }) := rfl
  apply apply_terminates hmachine
  apply (uartConfigure_checks bridgeExpansionInitialBaud).andThen _ _ hbroken
  · intro w hfresh hsound
    apply pulseFlipperRx_checks.andThen hfresh hsound hbroken
    intro w hfresh hsound
    apply uartSetPin_checks.andThen hfresh hsound hbroken
    intro w hfresh hsound
    exact greeting_terminates hfresh hsound
  · exact ⟨rfl, rfl, rfl, rfl, rfl⟩
  · rfl

end Negotiation
end FlipforgeBridge
