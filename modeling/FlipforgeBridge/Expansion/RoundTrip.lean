import FlipforgeBridge.Expansion.Grammar

/-!
Encoding and decoding expansion frames undo each other, with the decoder fed one byte at a time
and going on from frame to frame.
-/
namespace FlipforgeBridge
open LittleEndian Framing

namespace ExpansionFrame

/-- The frames the protocol has; the other kinds of frames are always in range. -/
def Valid : ExpansionFrame → Prop
  | .data bytes => bytes.length ≤ bridgeExpansionMaxData
  | _ => True

/-- The length on the wire. -/
def length : ExpansionFrame → ℕ
  | .heartbeat => 2
  | .status _ => 3
  | .baudRate _ => 6
  | .control _ => 3
  | .data bytes => bytes.length + 3

def wire (frame : ExpansionFrame) : List UInt8 :=
  frame.body ++ [expansionProtocolChecksum frame.body]

theorem length_body (frame : ExpansionFrame) : frame.body.length + 1 = frame.length := by
  cases frame <;> rfl

theorem length_wire (frame : ExpansionFrame) : frame.wire.length = frame.length := by
  rw [wire, List.length_append, List.length_singleton, length_body]

theorem encode_of_valid {frame : ExpansionFrame} (h : frame.Valid) (capacity : ℕ) :
    expansionProtocolEncode frame capacity =
      if frame.length ≤ capacity then some frame.wire else none := by
  have hlength := frame.length_body
  have hfinish : expansionProtocolEncode.finish frame capacity =
      if frame.length ≤ capacity then some frame.wire else none := by
    rw [expansionProtocolEncode.finish, hlength]
    by_cases hroom : frame.length ≤ capacity
    · rw [if_pos hroom, if_neg (Nat.not_lt.mpr hroom)]
      rfl
    · rw [if_neg hroom, if_pos (Nat.not_le.mp hroom)]
  have htwo : 2 ≤ frame.length := by
    cases frame <;> simp only [length] <;> omega
  unfold expansionProtocolEncode
  by_cases hsmall : capacity < 2
  · rw [if_pos hsmall, if_neg (by omega)]
  · rw [if_neg hsmall, hfinish]
    cases frame with
    | data bytes => exact if_neg (Nat.not_lt.mpr h)
    | _ => rfl

/-- The bytes of a frame and what the grammar reads in them. -/
theorem frameVerdict_wire {frame : ExpansionFrame}
    (h : frameContent frame.wire = some frame) : frameVerdict frame.wire = .frameReady frame := by
  have hlast : frame.wire.length - 1 = frame.body.length := by
    rw [wire, List.length_append, List.length_singleton, Nat.add_sub_cancel]
  have hsum : frame.wire.getD frame.body.length 0 = expansionProtocolChecksum frame.body := by
    rw [wire, List.getD_eq_getElem?_getD, List.getElem?_append_right (Nat.le_refl _),
      Nat.sub_self]
    rfl
  rw [frameVerdict, hlast, hsum, h]
  have hbody : frame.wire.take frame.body.length = frame.body := List.take_left
  rw [hbody]
  exact if_neg (fun hne => hne rfl)

theorem secondByte_data {bytes : List UInt8} (h : bytes.length ≤ bridgeExpansionMaxData) :
    secondByte (data bytes).wire = bytes.length := by
  have hlt : bytes.length < 2 ^ 8 := Nat.lt_of_le_of_lt h (by decide)
  exact Nat.mod_eq_of_lt hlt

theorem frameContent_wire {frame : ExpansionFrame} (h : frame.Valid) :
    frameContent frame.wire = some frame := by
  cases frame with
  | heartbeat => rfl
  | status error => cases error <;> rfl
  | baudRate baud =>
    have hbaud : frameContent (baudRate baud).wire = some (baudRate (readU32Le baud.toUInt8
        (baud >>> 8).toUInt8 (baud >>> 16).toUInt8 (baud >>> 24).toUInt8)) := by
      rw [readU32Le_eq_ofNat]
      rfl
    rw [hbaud, readU32Le_write]
  | control command => cases command <;> rfl
  | data bytes =>
    have hdata : frameContent (data bytes).wire =
        some (data (((data bytes).wire.drop 2).take (secondByte (data bytes).wire))) := rfl
    have hdrop : (data bytes).wire.drop 2 =
        bytes ++ [expansionProtocolChecksum (data bytes).body] := rfl
    rw [hdata, secondByte_data h, hdrop, List.take_left]

theorem expansionHead_wire {frame : ExpansionFrame} (h : frame.Valid) :
    expansionHead frame.wire = some (.frameReady frame, frame.wire.length) := by
  have hlength : frameLength frame.wire = frame.wire.length := by
    rw [length_wire]
    cases frame with
    | data bytes =>
      have hsize : frameLength (data bytes).wire = 3 + secondByte (data bytes).wire := rfl
      rw [hsize, secondByte_data h, Nat.add_comm]
      rfl
    | _ => rfl
  have htype : 1 ≤ typeByte frame.wire ∧ typeByte frame.wire ≤ 5 := by
    cases frame with
    | heartbeat => exact ⟨by decide, by decide⟩
    | _ => exact ⟨Nat.le_of_ble_eq_true rfl, Nat.le_of_ble_eq_true rfl⟩
  have htwo := two_le_frameLength frame.wire
  rw [expansionHead_eq_some, hlength, List.take_length,
    frameVerdict_wire (frameContent_wire h)]
  refine ⟨by omega, .inr (.inr ⟨htype.1, htype.2, fun h5 => ⟨by omega, ?_⟩, Nat.le_refl _, rfl,
    rfl⟩)⟩
  cases frame with
  | data bytes =>
    rw [secondByte_data h]
    exact h
  | heartbeat => cases h5
  | status error => cases h5
  | baudRate baud => cases h5
  | control command => cases h5

/-! ### From bytes to a frame and back -/

theorem toByte_of_getElem_error {n : ℕ} {error : ExpansionFrameError}
    (h : [ExpansionFrameError.none, .unknown, .baudRate][n]? = some error) :
    error.toByte = UInt8.ofNat n := by
  match n with
  | 0 | 1 | 2 =>
    cases h
    rfl
  | n + 3 => cases h

theorem toByte_of_getElem_control {n : ℕ} {command : ExpansionControlCommand}
    (h : [ExpansionControlCommand.startRpc, .stopRpc][n]? = some command) :
    command.toByte = UInt8.ofNat n := by
  match n with
  | 0 | 1 =>
    cases h
    rfl
  | n + 2 => cases h

/-- The body of a frame that is read is the frame without its last byte. -/
theorem body_of_content {bytes : List UInt8} {frame : ExpansionFrame}
    (hlow : 1 ≤ typeByte bytes) (hhigh : typeByte bytes ≤ 5)
    (hlength : bytes.length = frameLength bytes) (h : frameContent bytes = some frame) :
    frame.body = bytes.take (bytes.length - 1) := by
  have htwo := two_le_frameLength bytes
  have hfirst : bytes.take 1 = [UInt8.ofNat (typeByte bytes)] := by
    rw [take_succ_getD (by omega), typeByte, UInt8.ofNat_toNat]
    rfl
  have hpair (h3 : 3 ≤ bytes.length) :
      bytes.take 2 = [UInt8.ofNat (typeByte bytes), UInt8.ofNat (secondByte bytes)] := by
    rw [take_succ_getD (by omega), hfirst, secondByte, UInt8.ofNat_toNat]
    rfl
  have hcases : typeByte bytes = 1 ∨ typeByte bytes = 2 ∨ typeByte bytes = 3 ∨
      typeByte bytes = 4 ∨ typeByte bytes = 5 := by omega
  unfold frameContent at h
  unfold frameLength at hlength
  rcases hcases with ht | ht | ht | ht | ht
  · rw [if_pos ht] at h hlength
    cases h
    rw [hlength, hfirst, ht]
    rfl
  · rw [if_neg (by omega), if_pos ht] at h
    rw [if_neg (by omega), if_neg (by omega), if_neg (by omega)] at hlength
    obtain ⟨error, herror, rfl⟩ := Option.map_eq_some_iff.mp h
    rw [hlength, hpair (by omega), ht, body, toByte_of_getElem_error herror]
    rfl
  · rw [if_neg (by omega), if_neg (by omega), if_pos ht] at h
    rw [if_neg (by omega), if_pos ht] at hlength
    cases h
    rw [body, ← readU32Le_eq_ofNat, writeU32Le_read, hlength, take_succ_getD (by omega),
      take_succ_getD (by omega), take_succ_getD (by omega), take_succ_getD (by omega), hfirst, ht]
    rfl
  · rw [if_neg (by omega), if_neg (by omega), if_neg (by omega), if_pos ht] at h
    rw [if_neg (by omega), if_neg (by omega), if_neg (by omega)] at hlength
    obtain ⟨command, hcommand, rfl⟩ := Option.map_eq_some_iff.mp h
    rw [hlength, hpair (by omega), ht, body, toByte_of_getElem_control hcommand]
    rfl
  · rw [if_neg (by omega), if_neg (by omega), if_neg (by omega), if_neg (by omega)] at h
    rw [if_neg (by omega), if_neg (by omega), if_pos ht] at hlength
    cases h
    have hdata : ((bytes.drop 2).take (secondByte bytes)).length = secondByte bytes := by
      rw [List.length_take, List.length_drop]
      omega
    rw [body, hdata, hlength, show 3 + secondByte bytes - 1 = 2 + secondByte bytes by omega,
      List.take_add, hpair (by omega), ht]
    rfl

/-- A frame that is read is in range and has exactly the bytes it was read from. -/
theorem wire_of_head {bytes : List UInt8} {frame : ExpansionFrame}
    (h : expansionHead bytes = some (.frameReady frame, bytes.length)) :
    frame.wire = bytes ∧ frame.Valid := by
  rw [expansionHead_eq_some] at h
  obtain ⟨hle, hcases⟩ := h
  rcases hcases with ⟨-, hr, -⟩ | ⟨-, -, -, hr, -⟩ | ⟨hlow, hhigh, hsize, -, hr, hn⟩
  · cases hr
  · cases hr
  rw [← hn, List.take_length, frameVerdict] at hr
  split at hr
  · cases hr
  · next hsum =>
    have hlast : expansionProtocolChecksum (bytes.take (bytes.length - 1)) =
        bytes.getD (bytes.length - 1) 0 := Decidable.not_not.mp hsum
    split at hr
    · cases hr
    · next content hcontent =>
      cases hr
      have hbody := body_of_content hlow hhigh hn hcontent
      constructor
      · rw [wire, hbody, hlast, ← take_succ_getD (by omega), Nat.sub_add_cancel hle,
          List.take_length]
      · cases frame with
        | data payload =>
          have hlength := congrArg List.length hbody
          rw [List.length_take] at hlength
          simp only [body, List.length_cons] at hlength
          have hsmall := frameLength_le fun h5 => (hsize h5).2
          rw [Valid, bridgeExpansionMaxData]
          omega
        | _ => trivial

end ExpansionFrame

/-- Encoding needs exactly the length of the frame; encodings laid end to end are decoded to the
frames, each at its last byte; and a frame decoded from bytes encodes to them. -/
theorem expansion_round_trip :
    (∀ frame : ExpansionFrame, frame.Valid → ∀ capacity,
      (expansionProtocolEncode frame capacity).isSome ↔ frame.length ≤ capacity) ∧
    (∀ (frames : List ExpansionFrame) (encodings : List (List UInt8)),
      (∀ frame ∈ frames, frame.Valid) →
      List.Forall₂ (fun frame bytes => ∃ capacity,
        expansionProtocolEncode frame capacity = some bytes) frames encodings →
      pushBytes encodings.flatten = (frames.flatMap fun frame =>
        .replicate (frame.length - 1) .needMore ++ [.frameReady frame], expansionDecoderReset)) ∧
    ∀ (bytes : List UInt8) frame,
      (pushBytes bytes).1 = .replicate (bytes.length - 1) .needMore ++ [.frameReady frame] →
      ∀ capacity, frame.length ≤ capacity →
      expansionProtocolEncode frame capacity = some bytes := by
  refine ⟨?_, ?_, ?_⟩
  · intro frame h capacity
    rw [frame.encode_of_valid h]
    split <;> simp_all
  · intro frames encodings hvalid hencode
    have hwires : encodings.flatten = frames.flatMap ExpansionFrame.wire := by
      induction hencode with
      | nil => rfl
      | @cons frame bytes frames encodings hfirst _ ih =>
        obtain ⟨capacity, hbytes⟩ := hfirst
        rw [frame.encode_of_valid (hvalid frame List.mem_cons_self)] at hbytes
        split at hbytes
        · rw [List.flatten_cons, List.flatMap_cons, Option.some_inj.mp hbytes,
            ih fun f hf => hvalid f (List.mem_cons_of_mem _ hf)]
        · cases hbytes
    have hfeed := Grammar.feed_flatMap expansionDecoderPush_decides ExpansionFrame.wire .frameReady
      fun frame h => ExpansionFrame.expansionHead_wire (hvalid frame h)
    simp only [ExpansionFrame.length_wire] at hfeed
    rw [hwires]
    exact hfeed
  · intro bytes frame h capacity hroom
    have hspread := (Grammar.feed_eq_spread expansionDecoderPush_decides bytes).1
    have hhead := Grammar.head_of_spread (g := expansionGrammar)
      (fun n => expansionHead_ne_needMore) (by simp) (hspread.symm.trans h)
    obtain ⟨hwire, hvalid⟩ := ExpansionFrame.wire_of_head hhead
    rw [frame.encode_of_valid hvalid, if_pos hroom, hwire]

/-- A STATUS frame behind one with a byte of data. -/
theorem expansion_round_trip_two :
    (expansionProtocolEncode (.data [7]) 4).isSome ∧
    pushBytes [5, 1, 7, 3, 2, 2, 0] =
      ([.needMore, .needMore, .needMore, .frameReady (.data [7]), .needMore, .needMore,
        .frameReady (.status .baudRate)], expansionDecoderReset) ∧
    expansionProtocolEncode (.data [7]) 64 = some [5, 1, 7, 3] := by
  have hdata : (ExpansionFrame.data [7]).Valid := Nat.le_of_ble_eq_true rfl
  have hencode : ∃ capacity, expansionProtocolEncode (.data [7]) capacity = some [5, 1, 7, 3] :=
    ⟨4, by decide⟩
  have hencode' : ∃ capacity,
      expansionProtocolEncode (.status .baudRate) capacity = some [2, 2, 0] := ⟨3, by decide⟩
  have hvalid : ∀ frame ∈ [ExpansionFrame.data [7], .status .baudRate], frame.Valid := by
    simpa using ⟨hdata, trivial⟩
  exact ⟨(expansion_round_trip.1 _ hdata 4).mpr (by decide),
    expansion_round_trip.2.1 [.data [7], .status .baudRate] [[5, 1, 7, 3], [2, 2, 0]] hvalid
      (.cons hencode (.cons hencode' .nil)),
    expansion_round_trip.2.2 [5, 1, 7, 3] _ (by decide) 64 (by decide)⟩

end FlipforgeBridge
