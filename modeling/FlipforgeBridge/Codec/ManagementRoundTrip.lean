import FlipforgeBridge.Codec.ManagementGrammar

/-!
Encoding and decoding management frames undo each other: a stream of encoded messages is decoded
to them, and a frame that is decoded is the encoding of its message.
-/
namespace FlipforgeBridge
open LittleEndian Framing

/-- The messages the protocol is about. -/
structure Encodable (message : BridgeMessage) : Prop extends WellFormed message where
  hello_le : BridgeCommand.hello.toByte ≤ message.command
  le_ping : message.command ≤ BridgeCommand.ping.toByte

section Encode
variable {message : BridgeMessage}

theorem encode_of_known (hpayload : message.payload.length ≤ bridgeManagementMaxPayload)
    (hello_le : BridgeCommand.hello.toByte ≤ message.command)
    (le_ping : message.command ≤ BridgeCommand.ping.toByte) (capacity : ℕ) :
    bridgeMessageEncode message capacity =
      if bridgeManagementHeaderSize + message.payload.length ≤ capacity then some (wire message)
      else none := by
  have hknown : ¬ (bridgeManagementMaxPayload < message.payload.length ∨
      message.command < BridgeCommand.hello.toByte ∨
      BridgeCommand.ping.toByte < message.command) := by
    simp only [not_or, Nat.not_lt, UInt8.not_lt]
    exact ⟨hpayload, hello_le, le_ping⟩
  rw [bridgeMessageEncode, if_neg hknown]
  by_cases hroom : bridgeManagementHeaderSize + message.payload.length ≤ capacity
  · rw [if_pos hroom, if_neg (Nat.not_lt.mpr hroom)]
    rfl
  · rw [if_neg hroom, if_pos (Nat.not_le.mp hroom)]

theorem Encodable.encode (hm : Encodable message) (capacity : ℕ) :
    bridgeMessageEncode message capacity =
      if bridgeManagementHeaderSize + message.payload.length ≤ capacity then some (wire message)
      else none :=
  encode_of_known hm.payload hm.hello_le hm.le_ping capacity

/-- The frame of a message is read as the message. -/
theorem managementHead_wire (hm : WellFormed message) :
    managementHead (wire message) = some (.ready message, (wire message).length) := by
  have hpush := (push_midst hm (wire message) (midst_reset message)).1 [] (List.append_nil _).symm
  have hopen : managementHead [] = none := rfl
  have hhead := push_holding (wire message) hopen
  rw [List.nil_append] at hhead
  change bridgeMessageDecoderPush bridgeMessageDecoderReset (wire message) = _ at hhead
  rw [hpush] at hhead
  cases hs : managementHead (wire message) with
  | none =>
    rw [hs] at hhead
    cases hhead
  | some decided =>
    obtain ⟨result, n⟩ := decided
    rw [hs] at hhead
    simp only [Prod.mk.injEq, List.length_nil, Nat.sub_zero] at hhead
    rw [hhead.1, hhead.2.1]

end Encode

/-! ### From bytes to a message and back -/

theorem toByte_ofByte {byte : UInt8} (h : byte.toNat ≤ 7) :
    ((BridgeStatus.ofByte byte).getD .ok).toByte = byte := by
  have hall : ∀ n : Fin 8, ((BridgeStatus.ofByte (UInt8.ofNat n.val)).getD .ok).toByte =
      UInt8.ofNat n.val := by decide
  have hbyte := hall ⟨byte.toNat, Nat.lt_succ_of_le h⟩
  rwa [UInt8.ofNat_toNat] at hbyte

section Frame
variable {stream : List UInt8}

theorem requestId_eq : readU32Le (stream.getD 8 0) (stream.getD 9 0) (stream.getD 10 0)
    (stream.getD 11 0) = (messageField stream).requestId := readU32Le_eq_ofNat _ _ _ _

theorem length_payload (h : 14 + lengthField stream ≤ stream.length) :
    (messageField stream).payload.length = lengthField stream := by
  rw [messageField, List.length_take, List.length_drop]
  omega

/-- A complete frame with a good header is the frame of the message it is read as. -/
theorem wire_messageField (hgood : ¬ BadHeader stream)
    (h : 14 + lengthField stream ≤ stream.length) :
    wire (messageField stream) = stream.take (14 + lengthField stream) := by
  simp only [BadHeader, not_or, ne_eq, Decidable.not_not, Nat.not_lt] at hgood
  obtain ⟨hmagic, -, hstatus⟩ := hgood
  have hsize : (messageField stream).payload.length.toUInt16 =
      readU16Le (stream.getD 12 0) (stream.getD 13 0) := by
    have hlength := length_payload h
    rw [lengthField, ← toNat_readU16Le] at hlength
    rw [hlength]
    exact UInt16.ofNat_toNat
  have hheader : frameHeader (messageField stream) = stream.take 14 := by
    rw [frameHeader, hsize, writeU16Le_read, ← requestId_eq, writeU32Le_read, ← hmagic]
    simp only [messageField, toByte_ofByte hstatus]
    rw [take_succ_getD (show 13 < stream.length by omega),
      take_succ_getD (show 12 < stream.length by omega),
      take_succ_getD (show 11 < stream.length by omega),
      take_succ_getD (show 10 < stream.length by omega),
      take_succ_getD (show 9 < stream.length by omega),
      take_succ_getD (show 8 < stream.length by omega),
      take_succ_getD (show 7 < stream.length by omega),
      take_succ_getD (show 6 < stream.length by omega),
      take_succ_getD (show 5 < stream.length by omega),
      take_succ_getD (show 4 < stream.length by omega)]
    simp only [List.append_assoc]
    rfl
  rw [wire, hheader, List.take_add]
  rfl

/-- What is decoded is the frame of the message delivered. -/
theorem wire_of_managementHead {message : BridgeMessage} {n : ℕ}
    (h : managementHead stream = some (.ready message, n)) :
    wire message = stream.take n ∧ message.payload.length ≤ bridgeManagementMaxPayload := by
  rw [managementHead_eq_some] at h
  rcases h.2 with ⟨-, hr, -⟩ | ⟨-, -, hr, -⟩ | ⟨hgood, hsmall, henough, hr, hn⟩
  · cases hr
  · cases hr
  · cases hr
    subst hn
    exact ⟨wire_messageField hgood henough,
      Nat.le_trans (Nat.le_of_eq (length_payload henough)) hsmall⟩

end Frame

section Stream
variable {messages : List BridgeMessage}

/-- A stream of frames and more is read as the messages and whatever the rest is. -/
theorem parse_wires (hm : ∀ message ∈ messages, WellFormed message) (start : ℕ)
    (tail : List UInt8) :
    managementGrammar.parse BridgeMessageDecodeResult.isError start
        (messages.flatMap wire ++ tail) =
      Grammar.ends wire .ready start messages ++
        managementGrammar.parse BridgeMessageDecodeResult.isError
          (start + (messages.flatMap wire).length) tail :=
  Grammar.parse_flatMap tail fun message h => ⟨managementHead_wire (hm message h), rfl⟩

/-- A frame to come, by which one sees where a decoder stands. -/
def probe : BridgeMessage where
  version := flipforgeBridgeProtocolVersion
  command := BridgeCommand.ping.toByte

theorem parse_probe (start : ℕ) : managementGrammar.parse BridgeMessageDecodeResult.isError start
    (wire probe) = [(.ready probe, start + (wire probe).length)] := by
  have hprobe : WellFormed probe := ⟨by decide, by decide⟩
  have hall : ∀ message ∈ [probe], WellFormed message := by simpa using hprobe
  have h := parse_wires hall start []
  rwa [List.flatMap_singleton, List.append_nil, Grammar.parse_of_none managementGrammar.head_nil]
    at h

/-- Frames cut anywhere leave the decoder as after a reset. -/
theorem pushChunks_wires (hm : ∀ message ∈ messages, WellFormed message)
    {chunks : List (List UInt8)} (h : chunks.flatten = messages.flatMap wire) :
    boundaries 0 (pushChunks bridgeMessageDecoderReset chunks).1 =
        Grammar.ends wire .ready 0 messages ∧
      consumedBy (pushChunks bridgeMessageDecoderReset chunks).1 = chunks.flatten.length ∧
      (pushChunks bridgeMessageDecoderReset chunks).2 = some bridgeMessageDecoderReset := by
  have hc : Continues 0 [] chunks.flatten (pushChunks bridgeMessageDecoderReset chunks) :=
    pushChunks_continues 0 chunks rfl
  rcases hpush : pushChunks bridgeMessageDecoderReset chunks with ⟨calls, last⟩
  rw [hpush, h] at hc
  have hnil := parse_wires hm 0 []
  have hprobe := parse_wires hm 0 (wire probe)
  rw [Grammar.parse_of_none managementGrammar.head_nil, List.append_nil, List.append_nil] at hnil
  rw [parse_probe, Nat.zero_add] at hprobe
  cases last with
  | none =>
    -- An error would also hide the frame to come.
    have hsame := (hc []).trans (hc (wire probe)).symm
    rw [List.nil_append, List.append_nil, hnil, hprobe] at hsame
    simp at hsame
  | some decoder =>
    obtain ⟨part, start, rfl, hopen, hsum, hend, hrest⟩ := hc
    have hopen' : managementGrammar.head part = none := hopen
    have hboundaries := hrest []
    rw [List.nil_append, List.append_nil, List.append_nil, hnil, Grammar.parse_of_none hopen',
      List.append_nil] at hboundaries
    have hlater := hrest (wire probe)
    rw [List.nil_append, hprobe, ← hboundaries, List.append_cancel_left_eq] at hlater
    have hpart : part = [] := by
      cases hs : managementGrammar.head (part ++ wire probe) with
      | none =>
        rw [Grammar.parse_of_none hs] at hlater
        cases hlater
      | some decided =>
        obtain ⟨result, n⟩ := decided
        rw [Grammar.parse_of_some hs] at hlater
        obtain ⟨hfirst, -⟩ := List.cons.inj hlater
        obtain ⟨rfl, hn⟩ := Prod.mk.inj hfirst
        have hall : (part ++ wire probe).length ≤ n := by
          rw [List.length_append]
          simp only [List.length_nil] at hend
          omega
        have hwire := (wire_of_managementHead hs).1
        rw [List.take_of_length_le hall] at hwire
        exact List.self_eq_append_left.mp hwire
    subst hpart
    exact ⟨hboundaries.symm, h ▸ hsum, rfl⟩

end Stream

/-- Encoding needs exactly the room of the frame; encodings laid end to end and cut anywhere are
decoded to the messages, leaving nothing; and a message decoded from bytes encodes to them. -/
theorem management_round_trip :
    (∀ message, Encodable message → ∀ capacity, (bridgeMessageEncode message capacity).isSome ↔
      bridgeManagementHeaderSize + message.payload.length ≤ capacity) ∧
    (∀ (messages : List BridgeMessage) (encodings chunks : List (List UInt8)),
      (∀ message ∈ messages, Encodable message) →
      List.Forall₂ (fun message bytes => ∃ capacity,
        bridgeMessageEncode message capacity = some bytes) messages encodings →
      chunks.flatten = encodings.flatten →
      (boundaries 0 (pushChunks bridgeMessageDecoderReset chunks).1).map Prod.fst =
          messages.map .ready ∧
        consumedBy (pushChunks bridgeMessageDecoderReset chunks).1 = encodings.flatten.length ∧
        (pushChunks bridgeMessageDecoderReset chunks).2 = some bridgeMessageDecoderReset) ∧
    ∀ (chunks : List (List UInt8)) before message stop after,
      boundaries 0 (pushChunks bridgeMessageDecoderReset chunks).1 =
        before ++ (.ready message, stop) :: after →
      BridgeCommand.hello.toByte ≤ message.command →
      message.command ≤ BridgeCommand.ping.toByte →
      ∀ capacity, bridgeManagementHeaderSize + message.payload.length ≤ capacity →
      bridgeMessageEncode message capacity =
        some ((chunks.flatten.take stop).drop (before.foldl (fun _ e => e.2) 0)) := by
  refine ⟨?_, ?_, ?_⟩
  · intro message hm capacity
    rw [hm.encode]
    split <;> simp_all
  · intro messages encodings chunks hm hencode hchunks
    have hwires : encodings.flatten = messages.flatMap wire := by
      clear hm hchunks
      induction hencode with
      | nil => rfl
      | cons hfirst _ ih =>
        obtain ⟨capacity, hbytes⟩ := hfirst
        rw [List.flatten_cons, List.flatMap_cons, ih, encode_eq_wire hbytes]
    obtain ⟨hboundaries, hsum, hlast⟩ := pushChunks_wires
      (fun message h => (hm message h).toWellFormed) (hchunks.trans hwires)
    refine ⟨?_, hchunks ▸ hsum, hlast⟩
    rw [hboundaries, Grammar.map_fst_ends]
  · intro chunks before message stop after h hello_le le_ping capacity hroom
    rw [(pushChunks_reference chunks).1] at h
    obtain ⟨-, hlast, hhead⟩ := Grammar.head_of_parse h
    obtain ⟨hwire, hpayload⟩ := wire_of_managementHead hhead
    rw [encode_of_known hpayload hello_le le_ping, if_pos hroom, hwire, Nat.sub_zero,
      List.drop_take]

/-- A message with a payload and an id. -/
def greeting : BridgeMessage where
  version := flipforgeBridgeProtocolVersion
  command := BridgeCommand.hello.toByte
  requestId := 258
  payload := [7, 8, 9]

/-- A `Hello` with a payload behind a `Ping`, cut within the second. -/
theorem management_round_trip_two :
    (boundaries 0 (pushChunks bridgeMessageDecoderReset
      [wire probe ++ (wire greeting).take 9, (wire greeting).drop 9]).1).map Prod.fst =
        [.ready probe, .ready greeting] ∧
    bridgeMessageEncode greeting 17 = some (((([wire probe ++ (wire greeting).take 9,
      (wire greeting).drop 9] : List (List UInt8)).flatten).take 31).drop 14) := by
  have hprobe : Encodable probe := ⟨⟨by decide, by decide⟩, by decide, by decide⟩
  have hgreeting : Encodable greeting := ⟨⟨by decide, by decide⟩, by decide, by decide⟩
  have hmessages : ∀ message ∈ [probe, greeting], Encodable message := by
    simpa using ⟨hprobe, hgreeting⟩
  have hencode : ∃ capacity, bridgeMessageEncode probe capacity = some (wire probe) :=
    ⟨14, by decide⟩
  have hencode' : ∃ capacity, bridgeMessageEncode greeting capacity = some (wire greeting) :=
    ⟨17, by decide⟩
  have hdecoded := management_round_trip.2.1 [probe, greeting] [wire probe, wire greeting]
    [wire probe ++ (wire greeting).take 9, (wire greeting).drop 9] hmessages
    (.cons hencode (.cons hencode' .nil)) (by decide)
  have hchunks : ([wire probe ++ (wire greeting).take 9, (wire greeting).drop 9] :
      List (List UInt8)).flatten = [probe, greeting].flatMap wire := by decide
  have hboundaries :=
    (pushChunks_wires (fun m hm => (hmessages m hm).toWellFormed) hchunks).1
  exact ⟨hdecoded.1, management_round_trip.2.2 _ [(.ready probe, 14)] greeting 31 [] hboundaries
    (by decide) (by decide) 17 (by decide)⟩

end FlipforgeBridge
