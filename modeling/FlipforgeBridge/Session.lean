import FlipforgeBridge.BridgeConfig
import FlipforgeBridge.Codec.LittleEndian

/-!
`bridge_session.c`: the management frame codec and the authentication state of one connection.
A payload is the list of its `payload_size` bytes; the rest of the source's 512-byte array is
zero and is only read through `payloadArray`.
-/
namespace FlipforgeBridge
open LittleEndian

inductive BridgeCommand
  | hello | authenticate | getBridgeInfo | getStatus | beginRpcProxy | endRpcProxy | ping
  deriving DecidableEq, Repr

def BridgeCommand.toByte : BridgeCommand → UInt8
  | .hello => 1
  | .authenticate => 2
  | .getBridgeInfo => 3
  | .getStatus => 4
  | .beginRpcProxy => 5
  | .endRpcProxy => 6
  | .ping => 7

inductive BridgeStatus
  | ok | malformed | unsupportedProtocol | unauthorized | busy | unavailable | tooLarge
  | invalidState
  deriving DecidableEq, Repr

def BridgeStatus.toByte : BridgeStatus → UInt8
  | .ok => 0
  | .malformed => 1
  | .unsupportedProtocol => 2
  | .unauthorized => 3
  | .busy => 4
  | .unavailable => 5
  | .tooLarge => 6
  | .invalidState => 7

/-- The enumerator of a byte, if it is at most `BridgeStatusInvalidState`. -/
def BridgeStatus.ofByte (byte : UInt8) : Option BridgeStatus :=
  [.ok, .malformed, .unsupportedProtocol, .unauthorized, .busy, .unavailable, .tooLarge,
    .invalidState][byte.toNat]?

/-- The command is the raw byte: the source casts it without a range check. -/
structure BridgeMessage where
  version : UInt8 := 0
  command : UInt8
  flags : UInt8 := 0
  status : BridgeStatus := .ok
  requestId : UInt32 := 0
  payload : List UInt8 := []
  deriving DecidableEq, Repr

/-- The first `n` bytes of the zero-filled payload array. -/
def BridgeMessage.payloadArray (message : BridgeMessage) (n : ℕ) : Vector UInt8 n :=
  Vector.ofFn fun i => message.payload.getD i 0

theorem BridgeMessage.toList_payloadArray {message : BridgeMessage} {n : ℕ}
    (h : message.payload.length = n) : (message.payloadArray n).toList = message.payload := by
  subst h
  refine List.ext_getElem (by simp) fun i hi hi' => ?_
  simp [payloadArray]

def bridgeManagementMagic : List UInt8 := [0x46, 0x42, 0x52, 0x47]

def bridgeManagementResponseFlag : UInt8 := 0x01

/-- `sizeof(decoder->bytes)`. -/
def bridgeManagementFrameSize : ℕ := bridgeManagementHeaderSize + bridgeManagementMaxPayload

/-- `bytes` holds the first `used` bytes of the source's buffer. -/
structure BridgeMessageDecoder where
  bytes : List UInt8 := []
  expected : ℕ := 0
  deriving DecidableEq, Repr

def BridgeMessageDecoder.used (decoder : BridgeMessageDecoder) : ℕ := decoder.bytes.length

inductive BridgeMessageDecodeResult
  | needMore
  | ready (message : BridgeMessage)
  | malformed
  | tooLarge
  deriving DecidableEq, Repr

def bridgeMessageDecoderReset : BridgeMessageDecoder := {}

namespace BridgeMessageDecoder

/-- Byte `i` of the buffer. -/
def byte (decoder : BridgeMessageDecoder) (i : ℕ) : UInt8 := decoder.bytes.getD i 0

def payloadSize (decoder : BridgeMessageDecoder) : UInt16 :=
  readU16Le (decoder.byte 12) (decoder.byte 13)

/-- The check made when the header is complete: the expected frame size, or the error. -/
def checkHeader (decoder : BridgeMessageDecoder) : Except BridgeMessageDecodeResult ℕ :=
  if decoder.bytes.take 4 ≠ bridgeManagementMagic ∨
      decoder.byte 6 &&& ~~~bridgeManagementResponseFlag ≠ 0 ∨
      BridgeStatus.invalidState.toByte < decoder.byte 7 then
    .error .malformed
  else if bridgeManagementMaxPayload < decoder.payloadSize.toNat then .error .tooLarge
  else .ok (bridgeManagementHeaderSize + decoder.payloadSize.toNat)

/-- The message in a complete buffer. -/
def message (decoder : BridgeMessageDecoder) : BridgeMessage where
  version := decoder.byte 4
  command := decoder.byte 5
  flags := decoder.byte 6
  status := (BridgeStatus.ofByte (decoder.byte 7)).getD .ok
  requestId := readU32Le (decoder.byte 8) (decoder.byte 9) (decoder.byte 10) (decoder.byte 11)
  payload := (decoder.bytes.drop bridgeManagementHeaderSize).take decoder.payloadSize.toNat

/-- Store one byte; an error is a result other than `needMore`, after which the decoder is
reset. -/
def store (decoder : BridgeMessageDecoder) (byte : UInt8) :
    Except BridgeMessageDecodeResult BridgeMessageDecoder := do
  let decoder := { decoder with bytes := decoder.bytes ++ [byte] }
  let expected ← (if decoder.used = bridgeManagementHeaderSize then decoder.checkHeader
    else .ok decoder.expected)
  let decoder := { decoder with expected }
  if 0 < decoder.expected ∧ decoder.used = decoder.expected then .error (.ready decoder.message)
  else .ok decoder

end BridgeMessageDecoder

/-- The result, the number of bytes consumed and the decoder left behind. -/
def bridgeMessageDecoderPush (decoder : BridgeMessageDecoder) :
    List UInt8 → BridgeMessageDecodeResult × ℕ × BridgeMessageDecoder
  | [] => (.needMore, 0, decoder)
  | byte :: rest =>
    if bridgeManagementFrameSize ≤ decoder.used then (.tooLarge, 0, bridgeMessageDecoderReset)
    else match decoder.store byte with
      | .error result => (result, 1, bridgeMessageDecoderReset)
      | .ok decoder =>
        let (result, consumed, decoder) := bridgeMessageDecoderPush decoder rest
        (result, consumed + 1, decoder)

/-- `bridge_message_encode`: the bytes written, or `none` where the source answers false. -/
def bridgeMessageEncode (message : BridgeMessage) (capacity : ℕ) : Option (List UInt8) :=
  if bridgeManagementMaxPayload < message.payload.length ∨
      message.command < BridgeCommand.hello.toByte ∨
      BridgeCommand.ping.toByte < message.command then none
  else if capacity < bridgeManagementHeaderSize + message.payload.length then none
  else some (bridgeManagementMagic ++
    [message.version, message.command, message.flags, message.status.toByte] ++
    writeU32Le message.requestId ++ writeU16Le message.payload.length.toUInt16 ++
    message.payload)

inductive BridgeSessionState
  | awaitingHello | awaitingAuthentication | authenticated | proxying | closed
  deriving DecidableEq, Repr

structure BridgeSession where
  state : BridgeSessionState := .awaitingHello
  clientNonce : Vector UInt8 bridgeNonceBytes := .replicate _ 0
  bridgeNonce : Vector UInt8 bridgeNonceBytes := .replicate _ 0
  sessionId : Vector UInt8 bridgeSessionIdBytes := .replicate _ 0
  deriving DecidableEq, Repr

def bridgeSessionInit (bridgeNonce : Vector UInt8 bridgeNonceBytes)
    (sessionId : Vector UInt8 bridgeSessionIdBytes) : BridgeSession :=
  { state := .awaitingHello, bridgeNonce, sessionId }

/-- The session functions that may refuse answer `none` and leave the session alone. -/
def bridgeSessionAcceptHello (session : BridgeSession)
    (clientNonce : Vector UInt8 bridgeNonceBytes) : Option BridgeSession :=
  if session.state ≠ .awaitingHello then none
  else some { session with clientNonce, state := .awaitingAuthentication }

def bridgeSessionMarkAuthenticated (session : BridgeSession) : Option BridgeSession :=
  if session.state ≠ .awaitingAuthentication then none
  else some { session with state := .authenticated }

/-- The OR of the XORs of all bytes is zero. -/
def bridgeConstantTimeEqual {size : ℕ} (lhs rhs : Vector UInt8 size) : Bool :=
  (lhs.zipWith (· ^^^ ·) rhs).toList.foldl (· ||| ·) 0 == 0

theorem foldl_or_eq_zero (bytes : List UInt8) (byte : UInt8) :
    bytes.foldl (· ||| ·) byte = 0 ↔ byte = 0 ∧ ∀ b ∈ bytes, b = 0 := by
  induction bytes generalizing byte with
  | nil => simp
  | cons b bytes ih => simp [ih, UInt8.or_eq_zero_iff, and_assoc]

theorem bridgeConstantTimeEqual_iff {size : ℕ} {lhs rhs : Vector UInt8 size} :
    bridgeConstantTimeEqual lhs rhs = true ↔ lhs = rhs := by
  rw [bridgeConstantTimeEqual, beq_iff_eq, foldl_or_eq_zero]
  simp only [true_and]
  constructor
  · intro h
    refine Vector.ext fun i hi => ?_
    have hx : lhs[i] ^^^ rhs[i] = 0 := by
      refine h _ (Vector.mem_toList_iff.mpr (Vector.mem_iff_getElem.mpr ⟨i, hi, ?_⟩))
      exact Vector.getElem_zipWith ..
    exact UInt8.xor_eq_zero_iff.mp hx
  · rintro rfl b hb
    obtain ⟨i, hi, rfl⟩ := List.mem_iff_getElem.mp hb
    simp

def bridgeSessionAuthenticate (session : BridgeSession)
    (expected provided : Vector UInt8 bridgeHmacBytes) : Option BridgeSession :=
  if session.state ≠ .awaitingAuthentication ∨ !bridgeConstantTimeEqual expected provided then
    none
  else bridgeSessionMarkAuthenticated session

theorem bridgeSessionAuthenticate_eq_some {session after : BridgeSession}
    {expected provided : Vector UInt8 bridgeHmacBytes} :
    bridgeSessionAuthenticate session expected provided = some after ↔
      session.state = .awaitingAuthentication ∧ expected = provided ∧
        after = { session with state := .authenticated } := by
  unfold bridgeSessionAuthenticate bridgeSessionMarkAuthenticated
  rw [← bridgeConstantTimeEqual_iff]
  split <;> rename_i h
  · simp only [reduceCtorEq, false_iff]
    rintro ⟨hs, heq, -⟩
    simp [hs, heq] at h
  · simp only [not_or, ne_eq, Decidable.not_not, Bool.not_eq_true', Bool.not_eq_false] at h
    rw [if_neg (by simp [h.1]), Option.some_inj]
    exact ⟨fun hs => ⟨h.1, h.2, hs.symm⟩, fun hs => hs.2.2.symm⟩

def bridgeSessionBeginProxy (session : BridgeSession) : Option BridgeSession :=
  if session.state ≠ .authenticated then none else some { session with state := .proxying }

def bridgeSessionClose (_session : BridgeSession) : BridgeSession := { state := .closed }

/-- `"Flipforge Bridge Auth v1"`. -/
def authContext : List UInt8 :=
  [0x46, 0x6c, 0x69, 0x70, 0x66, 0x6f, 0x72, 0x67, 0x65, 0x20, 0x42, 0x72, 0x69, 0x64, 0x67, 0x65,
    0x20, 0x41, 0x75, 0x74, 0x68, 0x20, 0x76, 0x31]

def bridgeSessionAuthMaterial (session : BridgeSession) (capacity : ℕ) : List UInt8 :=
  if capacity < authContext.length + 1 + bridgeNonceBytes * 2 + bridgeSessionIdBytes then []
  else authContext ++ [flipforgeBridgeProtocolVersion] ++ session.clientNonce.toList ++
    session.bridgeNonce.toList ++ session.sessionId.toList

theorem bridgeSessionAuthMaterial_eq (session : BridgeSession) :
    bridgeSessionAuthMaterial session 128 =
      authContext ++ [flipforgeBridgeProtocolVersion] ++ session.clientNonce.toList ++
        session.bridgeNonce.toList ++ session.sessionId.toList :=
  if_neg (by decide)

def bridgeProtocolVersionSupported (version : UInt8) : Bool :=
  version == flipforgeBridgeProtocolVersion

end FlipforgeBridge
