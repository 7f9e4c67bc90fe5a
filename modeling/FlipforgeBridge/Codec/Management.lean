import FlipforgeBridge.Session

/-!
Incremental decoding of management frames: a decoder fed the bytes of an encoded message in any
chunks asks for more until the last byte, then delivers the message and consumes nothing after
it.
-/
namespace FlipforgeBridge
open LittleEndian

/-- The messages that can be put in a frame and read back. -/
structure WellFormed (message : BridgeMessage) : Prop where
  flags : message.flags ≤ 1
  payload : message.payload.length ≤ bridgeManagementMaxPayload

/-- The 14 bytes before the payload. -/
def frameHeader (message : BridgeMessage) : List UInt8 :=
  bridgeManagementMagic ++
    [message.version, message.command, message.flags, message.status.toByte] ++
    writeU32Le message.requestId ++ writeU16Le message.payload.length.toUInt16

/-- A message as a frame, whatever its command byte. -/
def wire (message : BridgeMessage) : List UInt8 := frameHeader message ++ message.payload

theorem encode_eq_wire {message : BridgeMessage} {capacity : ℕ} {bytes : List UInt8}
    (h : bridgeMessageEncode message capacity = some bytes) : bytes = wire message := by
  unfold bridgeMessageEncode at h
  split at h
  · cases h
  · split at h
    · cases h
    · rw [← Option.some_inj.mp h]
      rfl

@[simp] theorem length_frameHeader (message : BridgeMessage) :
    (frameHeader message).length = bridgeManagementHeaderSize := rfl

theorem length_wire (message : BridgeMessage) :
    (wire message).length = bridgeManagementHeaderSize + message.payload.length := by
  rw [wire, List.length_append, length_frameHeader]

@[simp] theorem BridgeStatus.ofByte_toByte (status : BridgeStatus) :
    BridgeStatus.ofByte status.toByte = some status := by
  cases status <;> rfl

/-- A decoder that has read some bytes of a frame, short of the last one. -/
structure Midst (message : BridgeMessage) (decoder : BridgeMessageDecoder) (rest : List UInt8) :
    Prop where
  bytes : decoder.bytes ++ rest = wire message
  more : rest ≠ []
  expected : decoder.expected =
    if decoder.bytes.length < bridgeManagementHeaderSize then 0 else (wire message).length

theorem midst_reset (message : BridgeMessage) :
    Midst message bridgeMessageDecoderReset (wire message) where
  bytes := rfl
  more := by simp [wire, frameHeader, bridgeManagementMagic]
  expected := rfl

section WellFormed
variable {message : BridgeMessage} (hm : WellFormed message)
include hm

theorem payloadSize_of_header {decoder : BridgeMessageDecoder} {tail : List UInt8}
    (h : decoder.bytes = frameHeader message ++ tail) :
    decoder.payloadSize.toNat = message.payload.length := by
  have hlt : message.payload.length < 2 ^ 16 := Nat.lt_of_le_of_lt hm.payload (by decide)
  have hsize : decoder.payloadSize = message.payload.length.toUInt16 := by
    rw [BridgeMessageDecoder.payloadSize, BridgeMessageDecoder.byte, BridgeMessageDecoder.byte, h]
    exact readU16Le_write _
  rw [hsize]
  exact Nat.mod_eq_of_lt hlt

theorem checkHeader_of_header {decoder : BridgeMessageDecoder}
    (h : decoder.bytes = frameHeader message) :
    decoder.checkHeader = .ok (wire message).length := by
  have hsize := payloadSize_of_header hm (h.trans (List.append_nil _).symm)
  have hflags : message.flags &&& ~~~bridgeManagementResponseFlag = 0 := by
    have hcases : message.flags = 0 ∨ message.flags = 1 := by
      have hle : message.flags.toNat ≤ 1 := UInt8.le_iff_toNat_le.mp hm.flags
      rcases Nat.le_one_iff_eq_zero_or_eq_one.mp hle with h | h
      · exact .inl (UInt8.toNat_inj.mp h)
      · exact .inr (UInt8.toNat_inj.mp h)
    rcases hcases with h | h <;> rw [h] <;> decide
  have hstatus : ¬ BridgeStatus.invalidState.toByte < message.status.toByte := by
    cases message.status <;> decide
  unfold BridgeMessageDecoder.checkHeader
  rw [if_neg, if_neg, length_wire, hsize]
  · rw [hsize]
    exact Nat.not_lt.mpr hm.payload
  · simp only [BridgeMessageDecoder.byte, h, not_or, ne_eq, Decidable.not_not]
    exact ⟨rfl, hflags, hstatus⟩

theorem message_of_wire {decoder : BridgeMessageDecoder} (h : decoder.bytes = wire message) :
    decoder.message = message := by
  have hsize := payloadSize_of_header hm h
  have hpayload : (decoder.bytes.drop bridgeManagementHeaderSize).take message.payload.length =
      message.payload := by
    rw [h, wire, List.drop_left' (length_frameHeader message), List.take_length]
  have hid : readU32Le (decoder.byte 8) (decoder.byte 9) (decoder.byte 10) (decoder.byte 11) =
      message.requestId := by
    simp only [BridgeMessageDecoder.byte, h]
    exact readU32Le_write _
  have hstatus : BridgeStatus.ofByte (decoder.byte 7) = some message.status := by
    simp only [BridgeMessageDecoder.byte, h]
    exact BridgeStatus.ofByte_toByte _
  unfold BridgeMessageDecoder.message
  rw [hsize, hpayload, hid, hstatus]
  simp only [BridgeMessageDecoder.byte, h]
  rfl

/-- One more byte: either the frame is complete or the decoder is further on. -/
theorem store_midst {decoder : BridgeMessageDecoder} {byte : UInt8} {rest : List UInt8}
    (h : Midst message decoder (byte :: rest)) :
    if rest = [] then decoder.store byte = .error (.ready message)
    else ∃ decoder', decoder.store byte = .ok decoder' ∧ Midst message decoder' rest ∧
      decoder'.bytes = decoder.bytes ++ [byte] := by
  have hbytes : (decoder.bytes ++ [byte]) ++ rest = wire message := by
    rw [List.append_assoc]
    exact h.bytes
  have hlength : decoder.bytes.length + 1 + rest.length = (wire message).length := by
    rw [← hbytes]
    simp only [List.length_append, List.length_cons, List.length_nil]
  have hused : (decoder.bytes ++ [byte]).length = decoder.bytes.length + 1 := by simp
  have hexpected : (if BridgeMessageDecoder.used { decoder with bytes := decoder.bytes ++ [byte] } =
        bridgeManagementHeaderSize then
      BridgeMessageDecoder.checkHeader { decoder with bytes := decoder.bytes ++ [byte] }
      else .ok decoder.expected) =
      .ok (if decoder.bytes.length + 1 < bridgeManagementHeaderSize then 0
        else (wire message).length) := by
    rw [BridgeMessageDecoder.used]
    split
    · next heq =>
      have hheader : decoder.bytes ++ [byte] = frameHeader message :=
        (List.append_inj hbytes heq).1
      rw [checkHeader_of_header hm hheader, if_neg (by rw [← hused, heq]; omega)]
    · next hne =>
      have hne' : decoder.bytes.length + 1 ≠ bridgeManagementHeaderSize := hused ▸ hne
      rw [h.expected]
      split
      · rw [if_pos (by omega)]
      · rw [if_neg (by omega)]
  have hwire := length_wire message
  unfold BridgeMessageDecoder.store
  dsimp only
  rw [hexpected]
  simp only [bind, Except.bind, BridgeMessageDecoder.used, hused]
  split
  · next hrest =>
    subst hrest
    rw [List.append_nil] at hbytes
    rw [List.length_nil] at hlength
    have hlow : ¬ decoder.bytes.length + 1 < bridgeManagementHeaderSize := by omega
    have hpos : 0 < (wire message).length := by
      rw [← hlength]
      exact Nat.succ_pos _
    rw [if_neg hlow, if_pos ⟨hpos, hlength⟩, message_of_wire hm hbytes]
  · next hrest =>
    have hpos : 0 < rest.length := List.length_pos_iff.mpr hrest
    refine ⟨_, if_neg ?_, ⟨hbytes, hrest, ?_⟩, rfl⟩
    · split <;> omega
    · rw [hused]

theorem push_cons_of_midst {decoder : BridgeMessageDecoder} {byte : UInt8}
    {rest input : List UInt8} (h : Midst message decoder (byte :: rest)) :
    (rest = [] ∧ bridgeMessageDecoderPush decoder (byte :: input) =
      (.ready message, 1, bridgeMessageDecoderReset)) ∨
    (rest ≠ [] ∧ ∃ decoder', Midst message decoder' rest ∧
      decoder'.bytes = decoder.bytes ++ [byte] ∧
      ∀ result consumed decoder'',
        bridgeMessageDecoderPush decoder' input = (result, consumed, decoder'') →
        bridgeMessageDecoderPush decoder (byte :: input) = (result, consumed + 1, decoder'')) := by
  have hroom : ¬ bridgeManagementFrameSize ≤ decoder.used := by
    have hlength : decoder.bytes.length + (rest.length + 1) = (wire message).length := by
      rw [← h.bytes]
      simp only [List.length_append, List.length_cons]
    have hwire := length_wire message
    have hpayload := hm.payload
    simp only [BridgeMessageDecoder.used, bridgeManagementFrameSize]
    omega
  have hstore := store_midst hm h
  rw [bridgeMessageDecoderPush, if_neg hroom]
  split at hstore
  · next hrest =>
    rw [hstore]
    exact .inl ⟨hrest, rfl⟩
  · next hrest =>
    obtain ⟨decoder', hok, hmidst, hbytes⟩ := hstore
    rw [hok]
    refine .inr ⟨hrest, decoder', hmidst, hbytes, ?_⟩
    intro result consumed decoder'' hpush
    simp only [hpush]

/-- Feeding a chunk: the rest of the frame and more completes it, anything less does not. -/
theorem push_midst {decoder : BridgeMessageDecoder} {rest : List UInt8} (input : List UInt8)
    (h : Midst message decoder rest) :
    (∀ tail, input = rest ++ tail → bridgeMessageDecoderPush decoder input =
        (.ready message, rest.length, bridgeMessageDecoderReset)) ∧
      ∀ tail, tail ≠ [] → rest = input ++ tail → ∃ decoder',
        bridgeMessageDecoderPush decoder input = (.needMore, input.length, decoder') ∧
        Midst message decoder' tail ∧ decoder'.bytes = decoder.bytes ++ input := by
  induction input generalizing decoder rest with
  | nil =>
    refine ⟨fun tail htail => ?_, fun tail _ htail => ⟨decoder, rfl, ?_, ?_⟩⟩
    · exact absurd (List.append_eq_nil_iff.mp htail.symm).1 h.more
    · rw [List.nil_append] at htail
      exact htail ▸ h
    · simp
  | cons byte input ih =>
    obtain ⟨first, rest, rfl⟩ := List.exists_cons_of_ne_nil h.more
    constructor
    · intro tail htail
      obtain ⟨rfl, htail'⟩ := List.cons.inj htail
      rcases push_cons_of_midst hm h with ⟨rfl, hpush⟩ | ⟨-, decoder', hmidst, -, hpush⟩
      · exact hpush
      · exact hpush _ _ _ ((ih hmidst).1 tail htail')
    · intro tail hne htail
      obtain ⟨rfl, htail'⟩ := List.cons.inj htail
      rcases push_cons_of_midst hm h with ⟨rfl, -⟩ | ⟨-, decoder', hmidst, hbytes, hpush⟩
      · exact absurd (List.append_eq_nil_iff.mp htail'.symm).2 hne
      · obtain ⟨decoder'', hmore, hmidst', hbytes'⟩ := (ih hmidst).2 tail hne htail'
        refine ⟨decoder'', hpush _ _ _ hmore, hmidst', ?_⟩
        rw [hbytes', hbytes, List.append_assoc]
        rfl

end WellFormed

theorem checkHeader_ne_needMore (decoder : BridgeMessageDecoder) :
    decoder.checkHeader ≠ .error .needMore := by
  unfold BridgeMessageDecoder.checkHeader
  split
  · exact fun h => by cases h
  · split <;> exact fun h => by cases h

theorem store_ne_needMore (decoder : BridgeMessageDecoder) (byte : UInt8) :
    decoder.store byte ≠ .error .needMore := by
  unfold BridgeMessageDecoder.store
  simp only [bind, Except.bind]
  intro h
  split at h
  · next heq =>
    cases h
    split at heq
    · exact checkHeader_ne_needMore _ heq
    · cases heq
  · split at h <;> cases h

/-- Asking for more means having consumed everything. -/
theorem consumed_of_needMore {decoder decoder' : BridgeMessageDecoder} {input : List UInt8}
    {consumed : ℕ} (h : bridgeMessageDecoderPush decoder input = (.needMore, consumed, decoder')) :
    consumed = input.length := by
  induction input generalizing decoder consumed with
  | nil =>
    cases h
    rfl
  | cons byte input ih =>
    rw [bridgeMessageDecoderPush] at h
    split at h
    · cases h
    · split at h
      · next hstore =>
        cases h
        exact absurd hstore (store_ne_needMore decoder byte)
      · next decoder'' _ =>
        rcases hpush : bridgeMessageDecoderPush decoder'' input with ⟨result, n, last⟩
        rw [hpush] at h
        cases h
        rw [ih hpush]
        rfl

end FlipforgeBridge
