import FlipforgeBridge.Expansion.RoundTrip

/-!
What the checksum of an expansion frame detects. It is the exclusive or of the bytes, so a frame
altered behind its header is reported exactly when that of all its bytes changes.
-/
namespace FlipforgeBridge
open Framing

/-! ### The exclusive or of some bytes -/

theorem checksum_cons (byte : UInt8) (bytes : List UInt8) :
    expansionProtocolChecksum (byte :: bytes) = byte ^^^ expansionProtocolChecksum bytes := by
  unfold expansionProtocolChecksum
  rw [List.foldl_cons, UInt8.xor_comm, List.foldl_assoc]

theorem checksum_append (s t : List UInt8) : expansionProtocolChecksum (s ++ t) =
    expansionProtocolChecksum s ^^^ expansionProtocolChecksum t := by
  induction s with
  | nil => rw [List.nil_append, show expansionProtocolChecksum [] = 0 from rfl, UInt8.zero_xor]
  | cons byte s ih => rw [List.cons_append, checksum_cons, ih, checksum_cons, UInt8.xor_assoc]

theorem checksum_singleton (byte : UInt8) : expansionProtocolChecksum [byte] = byte :=
  UInt8.zero_xor

/-- Another byte in one place changes it. -/
theorem checksum_set_ne {bytes : List UInt8} {i : ℕ} (hi : i < bytes.length) {byte : UInt8}
    (h : byte ≠ bytes[i]) :
    expansionProtocolChecksum (bytes.set i byte) ≠ expansionProtocolChecksum bytes := by
  induction bytes generalizing i with
  | nil => exact absurd hi (Nat.not_lt_zero i)
  | cons first bytes ih =>
    cases i with
    | zero =>
      rw [List.set_cons_zero, checksum_cons, checksum_cons, Ne, UInt8.xor_left_inj]
      exact h
    | succ i =>
      rw [List.set_cons_succ, checksum_cons, checksum_cons, Ne, UInt8.xor_right_inj]
      exact ih (Nat.lt_of_succ_lt_succ hi) h

theorem checksum_wire (frame : ExpansionFrame) : expansionProtocolChecksum frame.wire = 0 := by
  rw [ExpansionFrame.wire, checksum_append, checksum_singleton, UInt8.xor_self]

/-- The verdict is about the exclusive or of all bytes, the checksum included. -/
theorem frameVerdict_eq_checksumError {bytes : List UInt8} (h : 1 ≤ bytes.length) :
    frameVerdict bytes = .checksumError ↔ expansionProtocolChecksum bytes ≠ 0 := by
  have hsplit : expansionProtocolChecksum bytes =
      expansionProtocolChecksum (bytes.take (bytes.length - 1)) ^^^
        bytes.getD (bytes.length - 1) 0 := by
    rw [← checksum_singleton (bytes.getD (bytes.length - 1) 0), ← checksum_append,
      ← LittleEndian.take_succ_getD (by omega), Nat.sub_add_cancel h, List.take_length]
  rw [hsplit, Ne, UInt8.xor_eq_zero_iff, frameVerdict, expansionProtocolChecksum]
  constructor
  · intro herror heq
    rw [if_neg (not_not.mpr heq)] at herror
    cases hcontent : frameContent bytes with
    | none =>
      rw [hcontent] at herror
      cases herror
    | some content =>
      rw [hcontent] at herror
      cases herror
  · intro hne
    exact if_pos hne

/-! ### Frames with their headers intact -/

/-- A type, for DATA a size, and as many bytes as they ask for. -/
structure Framed (bytes : List UInt8) : Prop where
  low : 1 ≤ typeByte bytes
  high : typeByte bytes ≤ 5
  size : typeByte bytes = 5 → secondByte bytes ≤ 64
  whole : frameLength bytes = bytes.length

namespace Framed
variable {bytes other : List UInt8}

theorem two_le (h : Framed bytes) : 2 ≤ bytes.length := h.whole ▸ two_le_frameLength bytes

theorem of_wire {frame : ExpansionFrame} (h : frame.Valid) : Framed frame.wire := by
  rcases (expansionHead_eq_some.mp (ExpansionFrame.expansionHead_wire h)).2 with
    ⟨-, hr, -⟩ | ⟨-, -, -, hr, -⟩ | ⟨hlow, hhigh, hsize, -, -, hn⟩
  · cases hr
  · cases hr
  · exact ⟨hlow, hhigh, fun h5 => (hsize h5).2, hn.symm⟩

theorem transfer (h : Framed bytes) (hlength : other.length = bytes.length)
    (htype : typeByte other = typeByte bytes)
    (hsize : typeByte bytes = 5 → secondByte other = secondByte bytes) : Framed other := by
  have hwhole : frameLength other = frameLength bytes := by
    unfold frameLength
    rw [htype]
    by_cases h5 : typeByte bytes = 5
    · rw [hsize h5]
    · rw [if_neg h5, if_neg h5]
  have hbound : typeByte other = 5 → secondByte other ≤ 64 := by
    intro h5
    rw [htype] at h5
    rw [hsize h5]
    exact h.size h5
  exact ⟨htype ▸ h.low, htype ▸ h.high, hbound, by rw [hwhole, h.whole, hlength]⟩

/-- The decoder answers at the last byte, and not before. -/
theorem pushBytes_eq (h : Framed bytes) : pushBytes bytes =
    (.replicate (bytes.length - 1) .needMore ++ [frameVerdict bytes], expansionDecoderReset) := by
  have htwo := h.two_le
  have hhead : expansionHead bytes = some (frameVerdict bytes, bytes.length) := by
    rw [expansionHead_eq_some, h.whole, List.take_length]
    exact ⟨by omega, .inr (.inr ⟨h.low, h.high, fun h5 => ⟨htwo, h.size h5⟩, Nat.le_refl _, rfl,
      rfl⟩)⟩
  exact Grammar.feed_frame expansionDecoderPush_decides hhead

end Framed

theorem ExpansionFrame.of_encode {frame : ExpansionFrame} {capacity : ℕ} {bytes : List UInt8}
    (h : expansionProtocolEncode frame capacity = some bytes) :
    frame.Valid ∧ bytes = frame.wire := by
  have hvalid : frame.Valid := by
    cases frame with
    | data payload =>
      apply Nat.not_lt.mp
      intro hlarge
      unfold expansionProtocolEncode at h
      by_cases hsmall : capacity < 2
      · rw [if_pos hsmall] at h
        cases h
      · rw [if_neg hsmall] at h
        cases (if_pos hlarge).symm.trans h
    | _ => trivial
  rw [frame.encode_of_valid hvalid] at h
  by_cases hroom : frame.length ≤ capacity
  · rw [if_pos hroom] at h
    exact ⟨hvalid, (Option.some_inj.mp h).symm⟩
  · rw [if_neg hroom] at h
    cases h

section Detection
variable {frame : ExpansionFrame} {capacity : ℕ} {sent : List UInt8}

/-- A frame received with its header intact is answered at its last byte, and there by a checksum
error exactly when the exclusive or of all its bytes is not the one sent. One wrong byte is always
found. -/
theorem expansion_error_detection (h : expansionProtocolEncode frame capacity = some sent) :
    (∀ received : List UInt8, received.length = sent.length →
      typeByte received = typeByte sent →
      (typeByte sent = 5 → secondByte received = secondByte sent) →
      ∃ result, (pushBytes received).1 =
          .replicate (sent.length - 1) .needMore ++ [result] ∧
        (result = .checksumError ↔
          expansionProtocolChecksum sent ≠ expansionProtocolChecksum received)) ∧
    ∀ i byte, (hi : i < sent.length) → 0 < i → (typeByte sent = 5 → 1 < i) → byte ≠ sent[i] →
      (pushBytes (sent.set i byte)).1 =
        .replicate (sent.length - 1) .needMore ++ [.checksumError] := by
  obtain ⟨hvalid, rfl⟩ := ExpansionFrame.of_encode h
  have hframed := Framed.of_wire hvalid
  have hany (received : List UInt8) (hlength : received.length = frame.wire.length)
      (htype : typeByte received = typeByte frame.wire)
      (hsize : typeByte frame.wire = 5 → secondByte received = secondByte frame.wire) :
      (pushBytes received).1 =
          .replicate (frame.wire.length - 1) .needMore ++ [frameVerdict received] ∧
        (frameVerdict received = .checksumError ↔
          expansionProtocolChecksum frame.wire ≠ expansionProtocolChecksum received) := by
    have hreceived := hframed.transfer hlength htype hsize
    have htwo := hreceived.two_le
    constructor
    · rw [hreceived.pushBytes_eq, hlength]
    · rw [frameVerdict_eq_checksumError (by omega), checksum_wire]
      exact ne_comm
  constructor
  · intro received hlength htype hsize
    exact ⟨_, hany received hlength htype hsize⟩
  · intro i byte hi hpos hdata hne
    have htype : typeByte (frame.wire.set i byte) = typeByte frame.wire := by
      rw [typeByte, typeByte, List.getD_eq_getElem?_getD, List.getElem?_set_ne (by omega),
        ← List.getD_eq_getElem?_getD]
    have hsize (h5 : typeByte frame.wire = 5) :
        secondByte (frame.wire.set i byte) = secondByte frame.wire := by
      have hbehind := hdata h5
      rw [secondByte, secondByte, List.getD_eq_getElem?_getD, List.getElem?_set_ne (by omega),
        ← List.getD_eq_getElem?_getD]
    obtain ⟨hresults, hverdict⟩ := hany _ List.length_set htype hsize
    rw [hresults, hverdict.mpr (checksum_set_ne hi hne).symm]

/-- A wrong byte of data is found; two that make up for each other are not. -/
theorem expansion_error_detection_data :
    (pushBytes [5, 2, 9, 6, 6]).1 = [.needMore, .needMore, .needMore, .needMore, .checksumError] ∧
    ∃ result, (pushBytes [5, 2, 6, 7, 6]).1 =
        [.needMore, .needMore, .needMore, .needMore, result] ∧ result ≠ .checksumError := by
  have h : expansionProtocolEncode (.data [7, 6]) 64 = some [5, 2, 7, 6, 6] := by decide
  obtain ⟨hany, hone⟩ := expansion_error_detection h
  obtain ⟨result, hresults, hresult⟩ := hany [5, 2, 6, 7, 6] rfl rfl fun _ => rfl
  constructor
  · exact hone 2 9 (by decide) (by decide) (by decide) (by decide)
  · refine ⟨result, hresults, fun herror => ?_⟩
    exact hresult.mp herror (by decide)

end Detection
end FlipforgeBridge
