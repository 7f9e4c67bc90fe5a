import FlipforgeBridge.BridgeConfig
import FlipforgeBridge.Codec.LittleEndian

/-!
`expansion_protocol.c`: frames of the Expansion Module Protocol, their encoder and the decoder
fed one byte at a time.
-/
namespace FlipforgeBridge
open LittleEndian

inductive ExpansionFrameError
  | none | unknown | baudRate
  deriving DecidableEq, Repr

def ExpansionFrameError.toByte : ExpansionFrameError → UInt8
  | .none => 0
  | .unknown => 1
  | .baudRate => 2

/-- The enumerator of a byte, if it is at most `ExpansionFrameErrorBaudRate`. -/
def ExpansionFrameError.ofByte (byte : UInt8) : Option ExpansionFrameError :=
  [.none, .unknown, .baudRate][byte.toNat]?

inductive ExpansionControlCommand
  | startRpc | stopRpc
  deriving DecidableEq, Repr

def ExpansionControlCommand.toByte : ExpansionControlCommand → UInt8
  | .startRpc => 0
  | .stopRpc => 1

/-- The enumerator of a byte, if it is at most `ExpansionControlStopRpc`. -/
def ExpansionControlCommand.ofByte (byte : UInt8) : Option ExpansionControlCommand :=
  [.startRpc, .stopRpc][byte.toNat]?

/-- The frame type together with the member of the union it selects; `data` holds the first
`size` bytes of the source's array. -/
inductive ExpansionFrame
  | heartbeat
  | status (error : ExpansionFrameError)
  | baudRate (baud : UInt32)
  | control (command : ExpansionControlCommand)
  | data (bytes : List UInt8)
  deriving DecidableEq, Repr

def expansionProtocolChecksum (bytes : List UInt8) : UInt8 := bytes.foldl (· ^^^ ·) 0

/-- The frame without its checksum. -/
def ExpansionFrame.body : ExpansionFrame → List UInt8
  | .heartbeat => [1]
  | .status error => [2, error.toByte]
  | .baudRate baud => 3 :: writeU32Le baud
  | .control command => [4, command.toByte]
  | .data bytes => 5 :: bytes.length.toUInt8 :: bytes

/-- `expansion_protocol_encode`: the bytes written, or `none` where the source answers false. -/
def expansionProtocolEncode (frame : ExpansionFrame) (capacity : ℕ) : Option (List UInt8) :=
  if capacity < 2 then none
  else match frame with
    | .data bytes =>
      if bridgeExpansionMaxData < bytes.length then none else finish
    | _ => finish
where
  finish : Option (List UInt8) :=
    if capacity < frame.body.length + 1 then none
    else some (frame.body ++ [expansionProtocolChecksum frame.body])

/-- `bytes` holds the first `used` bytes of the source's buffer. -/
structure ExpansionDecoder where
  bytes : List UInt8 := []
  expected : ℕ := 0
  deriving DecidableEq, Repr

def ExpansionDecoder.used (decoder : ExpansionDecoder) : ℕ := decoder.bytes.length

def ExpansionDecoder.byte (decoder : ExpansionDecoder) (i : ℕ) : UInt8 := decoder.bytes.getD i 0

inductive ExpansionDecodeResult
  | needMore
  | frameReady (frame : ExpansionFrame)
  | malformed
  | checksumError
  deriving DecidableEq, Repr

def expansionDecoderReset : ExpansionDecoder := {}

/-- `sizeof(decoder->bytes)`. -/
def expansionFrameSize : ℕ := bridgeExpansionMaxData + 3

/-- `decoder_set_expected`; `none` where the source answers false. -/
def decoderSetExpected (decoder : ExpansionDecoder) : Option ExpansionDecoder :=
  if decoder.used = 1 then
    match decoder.byte 0 with
    | 1 => some { decoder with expected := 2 }
    | 2 | 4 => some { decoder with expected := 3 }
    | 3 => some { decoder with expected := 6 }
    | 5 => some { decoder with expected := 0 }
    | _ => none
  else if decoder.used = 2 ∧ decoder.byte 0 = 5 then
    if bridgeExpansionMaxData < (decoder.byte 1).toNat then none
    else some { decoder with expected := 3 + (decoder.byte 1).toNat }
  else some decoder

/-- The frame in a complete buffer; `none` for a status or control out of range. -/
def ExpansionDecoder.frame (decoder : ExpansionDecoder) : Option ExpansionFrame :=
  match decoder.byte 0 with
  | 1 => some .heartbeat
  | 2 => (ExpansionFrameError.ofByte (decoder.byte 1)).map .status
  | 3 => some (.baudRate
      (readU32Le (decoder.byte 1) (decoder.byte 2) (decoder.byte 3) (decoder.byte 4)))
  | 4 => (ExpansionControlCommand.ofByte (decoder.byte 1)).map .control
  | 5 => some (.data ((decoder.bytes.drop 2).take (decoder.byte 1).toNat))
  | _ => none

def expansionDecoderPush (decoder : ExpansionDecoder) (byte : UInt8) :
    ExpansionDecodeResult × ExpansionDecoder :=
  if expansionFrameSize ≤ decoder.used then (.malformed, expansionDecoderReset)
  else match decoderSetExpected { decoder with bytes := decoder.bytes ++ [byte] } with
    | none => (.malformed, expansionDecoderReset)
    | some decoder =>
      if decoder.expected = 0 ∨ decoder.used < decoder.expected then (.needMore, decoder)
      else if decoder.used ≠ decoder.expected then (.malformed, expansionDecoderReset)
      else if expansionProtocolChecksum (decoder.bytes.take (decoder.expected - 1)) ≠
          decoder.byte (decoder.expected - 1) then (.checksumError, expansionDecoderReset)
      else match decoder.frame with
        | none => (.malformed, expansionDecoderReset)
        | some frame => (.frameReady frame, expansionDecoderReset)

end FlipforgeBridge
