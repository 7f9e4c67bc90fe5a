import FlipforgeBridge.Server
import FlipforgeBridge.Codec.ManagementRoundTrip

/-!
`tools/bridge_client.py` up to the end of `authenticate`. Exceptions are values, and the calls
into the Python library are operations of a platform of their own.
-/
namespace FlipforgeBridge
open Process

namespace BridgeClient

def magic : List UInt8 := asciiBytes "FBRG"
def version : ℕ := 1
def hello : ℕ := 1
def authenticateCommand : ℕ := 2
def ok : ℕ := 0
def authContext : List UInt8 := asciiBytes "Flipforge Bridge Auth v1"

/-- The exceptions that leave `authenticate`, with their texts. -/
inductive Exception
  | connectionError (text : String)
  | runtimeError (text : String)
  | valueError (text : String)
  | structError
  deriving DecidableEq, Repr

inductive Call
  | sendall (data : List UInt8)
  | recv (bufsize : ℕ)
  | tokenBytes (n : ℕ)
  | hmacDigest (key : Vector UInt8 bridgePairingSecretBytes) (message : List UInt8)
  /-- `authenticate` returns, or raises an exception. -/
  | leave (raised : Option Exception)
  deriving DecidableEq, Repr

@[reducible] def Call.Res : Call → Type
  | .recv _ => List UInt8
  | .tokenBytes n => Vector UInt8 n
  | .hmacDigest _ _ => Vector UInt8 bridgeHmacBytes
  | _ => Unit

abbrev python : Interface := ⟨Call, Call.Res⟩

def call (c : Call) : Prog python c.Res := .perform (ι := python) c

/-! ### `HEADER = struct.Struct("<4sBBBBIH")` -/

structure Header where
  magic : List UInt8
  version : ℕ
  command : ℕ
  flags : ℕ
  status : ℕ
  requestId : ℕ
  size : ℕ
  deriving DecidableEq, Repr

/-- An integer as `n` bytes, low byte first. -/
def littleEndian : ℕ → ℕ → List UInt8
  | 0, _ => []
  | n + 1, value => UInt8.ofNat value :: littleEndian n (value / 256)

def ofLittleEndian : List UInt8 → ℕ
  | [] => 0
  | byte :: rest => byte.toNat + 256 * ofLittleEndian rest

def headerSize : ℕ := 14

/-- `HEADER.pack`; an integer that does not fit is a `struct.error`. -/
def Header.pack (h : Header) : Option (List UInt8) :=
  if h.version < 2 ^ 8 ∧ h.command < 2 ^ 8 ∧ h.flags < 2 ^ 8 ∧ h.status < 2 ^ 8 ∧
      h.requestId < 2 ^ 32 ∧ h.size < 2 ^ 16 then
    some ((h.magic ++ List.replicate 4 0).take 4 ++ littleEndian 1 h.version ++
      littleEndian 1 h.command ++ littleEndian 1 h.flags ++ littleEndian 1 h.status ++
      littleEndian 4 h.requestId ++ littleEndian 2 h.size)
  else none

/-- `HEADER.unpack` of 14 bytes. -/
def Header.unpack (bytes : List UInt8) : Header where
  magic := bytes.take 4
  version := ofLittleEndian ((bytes.drop 4).take 1)
  command := ofLittleEndian ((bytes.drop 5).take 1)
  flags := ofLittleEndian ((bytes.drop 6).take 1)
  status := ofLittleEndian ((bytes.drop 7).take 1)
  requestId := ofLittleEndian ((bytes.drop 8).take 4)
  size := ofLittleEndian ((bytes.drop 12).take 2)

/-! ### The client -/

def receiveExact (size : ℕ) : Prog python (Except Exception (List UInt8)) :=
  .loop [] fun output => do
    if ¬ output.length < size then return .inr (.ok output)
    let chunk : List UInt8 ← call (.recv (size - output.length))
    if chunk = [] then return .inr (.error (.connectionError "Bridge closed the connection"))
    return .inl (output ++ chunk)

/-- The bytes `send_message` hands to `sendall`. -/
def message (command requestId : ℕ) (payload : List UInt8) : Except Exception (List UInt8) :=
  if 512 < payload.length then .error (.valueError "Management payload exceeds 512 bytes")
  else
    match Header.pack ⟨magic, version, command, 0, 0, requestId, payload.length⟩ with
    | none => .error .structError
    | some header => .ok (header ++ payload)

def sendMessage (command requestId : ℕ) (payload : List UInt8) :
    Prog python (Except Exception Unit) :=
  match message command requestId payload with
  | .error exception => pure (.error exception)
  | .ok data => do
    call (.sendall data)
    return .ok ()

/-- The check of a response's header. -/
def Header.valid (h : Header) (expectedCommand : ℕ) : Bool :=
  h.magic = BridgeClient.magic && h.version = BridgeClient.version &&
    h.command = expectedCommand && h.flags &&& 1 ≠ 0

/-- The checks made once the payload is there. -/
def Header.accept (h : Header) (expectedId : ℕ) (payload : List UInt8) :
    Except Exception (List UInt8) :=
  if h.requestId ≠ expectedId then .error (.runtimeError "Mismatched Bridge request ID")
  else if h.status ≠ BridgeClient.ok then
    .error (.runtimeError ("Bridge returned status " ++ Nat.repr h.status))
  else .ok payload

def receiveMessage (expectedCommand expectedId : ℕ) :
    Prog python (Except Exception (List UInt8)) := do
  match ← receiveExact headerSize with
  | .error exception => return .error exception
  | .ok bytes =>
    let header := Header.unpack bytes
    if !header.valid expectedCommand then
      return .error (.runtimeError "Invalid Bridge response header")
    match ← receiveExact header.size with
    | .error exception => return .error exception
    | .ok payload => return header.accept expectedId payload

def authenticate (pairingSecret : Vector UInt8 bridgePairingSecretBytes) :
    Prog python (Except Exception Unit) := do
  let clientNonce : Vector UInt8 32 ← call (.tokenBytes 32)
  match ← sendMessage hello 1 clientNonce.toList with
  | .error exception => return .error exception
  | .ok () =>
  match ← receiveMessage hello 1 with
  | .error exception => return .error exception
  | .ok challenge =>
  if challenge.length ≠ 40 then
    return .error (.runtimeError "Invalid Bridge challenge length")
  let material := authContext ++ [UInt8.ofNat version] ++ clientNonce.toList ++ challenge
  let proof : Vector UInt8 bridgeHmacBytes ← call (.hmacDigest pairingSecret material)
  match ← sendMessage authenticateCommand 2 proof.toList with
  | .error exception => return .error exception
  | .ok () =>
  match ← receiveMessage authenticateCommand 2 with
  | .error exception => return .error exception
  | .ok _ => return .ok ()

/-- `authenticate`, recording how it ends. -/
def clientMain (pairingSecret : Vector UInt8 bridgePairingSecretBytes) : Prog python Unit := do
  match ← authenticate pairingSecret with
  | .error exception => call (.leave (some exception))
  | .ok () => call (.leave none)

/-! ### Both sides mean the same header -/

theorem ofLittleEndian_littleEndian (n value : ℕ) :
    ofLittleEndian (littleEndian n value) = value % 256 ^ n := by
  induction n generalizing value with
  | zero => rw [Nat.pow_zero, Nat.mod_one]; rfl
  | succ n ih =>
    have hlow : (UInt8.ofNat value).toNat = value % 256 := UInt8.toNat_ofNat'
    rw [littleEndian, ofLittleEndian, ih, hlow, Nat.pow_succ', Nat.mod_mul]

theorem littleEndian_uInt8 (value : UInt8) : littleEndian 1 value.toNat = [value] := by
  rw [littleEndian, UInt8.ofNat_toNat]
  rfl

theorem littleEndian_uInt16 (value : UInt16) :
    littleEndian 2 value.toNat = LittleEndian.writeU16Le value := by
  have hhigh : UInt8.ofNat (value.toNat / 256) = (value >>> 8).toUInt8 := by
    apply UInt8.toNat_inj.mp
    simp [Nat.shiftRight_eq_div_pow]
  simp only [littleEndian, hhigh]
  rfl

theorem littleEndian_uInt32 (value : UInt32) :
    littleEndian 4 value.toNat = LittleEndian.writeU32Le value := by
  have hbyte (k : ℕ) (n : UInt32) (hn : n.toNat = 8 * k) (hk : k < 4) :
      UInt8.ofNat (value.toNat / 256 ^ k) = (value >>> n).toUInt8 := by
    apply UInt8.toNat_inj.mp
    have hlt : 8 * k < 32 := by omega
    simp [Nat.shiftRight_eq_div_pow, hn, Nat.mod_eq_of_lt hlt, Nat.pow_mul]
  rw [LittleEndian.writeU32Le, ← hbyte 1 8 rfl (by decide), ← hbyte 2 16 rfl (by decide),
    ← hbyte 3 24 rfl (by decide)]
  simp only [littleEndian, Nat.div_div_eq_div_mul]
  rfl

/-- The fields of a message as Python integers. -/
def Header.of (message : BridgeMessage) : Header where
  magic := bridgeManagementMagic
  version := message.version.toNat
  command := message.command.toNat
  flags := message.flags.toNat
  status := message.status.toByte.toNat
  requestId := message.requestId.toNat
  size := message.payload.length

theorem pack_of {message : BridgeMessage} (h : message.payload.length < 2 ^ 16) :
    (Header.of message).pack = some (frameHeader message) := by
  have hsize : (message.payload.length.toUInt16).toNat = message.payload.length :=
    Nat.mod_eq_of_lt h
  rw [Header.pack, if_pos]
  · simp only [Header.of, littleEndian_uInt8, littleEndian_uInt32]
    rw [← hsize, littleEndian_uInt16, frameHeader]
    rfl
  · exact ⟨UInt8.toNat_lt _, UInt8.toNat_lt _, UInt8.toNat_lt _, UInt8.toNat_lt _,
      UInt32.toNat_lt _, h⟩

theorem unpack_frameHeader {message : BridgeMessage} (h : message.payload.length < 2 ^ 16) :
    Header.unpack (frameHeader message) = Header.of message := by
  have hbyte (byte : UInt8) : ofLittleEndian [byte] = byte.toNat := by
    rw [ofLittleEndian, ofLittleEndian, Nat.mul_zero, Nat.add_zero]
  have hid : ofLittleEndian (LittleEndian.writeU32Le message.requestId) =
      message.requestId.toNat := by
    rw [← littleEndian_uInt32, ofLittleEndian_littleEndian]
    exact Nat.mod_eq_of_lt message.requestId.toNat_lt
  have hsize : ofLittleEndian (LittleEndian.writeU16Le message.payload.length.toUInt16) =
      message.payload.length := by
    rw [← littleEndian_uInt16, ofLittleEndian_littleEndian]
    have hnat : (message.payload.length.toUInt16).toNat = message.payload.length :=
      Nat.mod_eq_of_lt h
    rw [hnat]
    exact Nat.mod_eq_of_lt h
  have hfields : Header.unpack (frameHeader message) = {
      magic := bridgeManagementMagic
      version := ofLittleEndian [message.version]
      command := ofLittleEndian [message.command]
      flags := ofLittleEndian [message.flags]
      status := ofLittleEndian [message.status.toByte]
      requestId := ofLittleEndian (LittleEndian.writeU32Le message.requestId)
      size := ofLittleEndian (LittleEndian.writeU16Le message.payload.length.toUInt16) } := rfl
  rw [hfields, hbyte, hbyte, hbyte, hbyte, hid, hsize]
  rfl

theorem magic_eq : magic = bridgeManagementMagic := by decide

theorem authContext_eq : authContext = FlipforgeBridge.authContext := by decide

/-- The request the client means. -/
def requestOf (command : BridgeCommand) (requestId : UInt32) (payload : List UInt8) :
    BridgeMessage :=
  { version := flipforgeBridgeProtocolVersion, command := command.toByte, requestId, payload }

/-- What the client puts on the wire is the frame of its request. -/
theorem message_eq_wire (command : BridgeCommand) (requestId : UInt32) {payload : List UInt8}
    (h : payload.length ≤ 512) : message command.toByte.toNat requestId.toNat payload =
      .ok (wire (requestOf command requestId payload)) := by
  have hheader : Header.mk magic version command.toByte.toNat 0 0 requestId.toNat payload.length =
      Header.of (requestOf command requestId payload) := by
    rw [magic_eq]
    rfl
  rw [message, if_neg (Nat.not_lt.mpr h), hheader, pack_of (Nat.lt_of_le_of_lt h (by decide))]
  rfl

/-- The bytes of a request are read back by the C decoder as the C encoder would write them. -/
theorem message_denotes (command : BridgeCommand) (requestId : ℕ) (payload : List UInt8) :
    match message command.toByte.toNat requestId payload with
    | .ok bytes =>
      payload.length ≤ 512 ∧ requestId < 2 ^ 32 ∧
        bridgeMessageEncode (requestOf command (.ofNat requestId) payload)
          bridgeManagementFrameSize = some bytes ∧
        bridgeMessageDecoderPush bridgeMessageDecoderReset bytes =
          (.ready (requestOf command (.ofNat requestId) payload), bytes.length,
            bridgeMessageDecoderReset)
    | .error _ => 512 < payload.length ∨ 2 ^ 32 ≤ requestId := by
  by_cases hpayload : payload.length ≤ 512
  · by_cases hid : requestId < 2 ^ 32
    · have hnat : (UInt32.ofNat requestId).toNat = requestId := UInt32.toNat_ofNat_of_lt' hid
      have hmessage := message_eq_wire command (.ofNat requestId) hpayload
      have hrequest : WellFormed (requestOf command (.ofNat requestId) payload) :=
        ⟨UInt8.zero_le, hpayload⟩
      have hroom : bridgeManagementHeaderSize + payload.length ≤ bridgeManagementFrameSize :=
        Nat.add_le_add_left hpayload _
      have hknown : BridgeCommand.hello.toByte ≤ command.toByte ∧
          command.toByte ≤ BridgeCommand.ping.toByte := by cases command <;> decide
      rw [hnat] at hmessage
      rw [hmessage]
      refine ⟨hpayload, hid, ?_, ?_⟩
      · exact (encode_of_known hpayload hknown.1 hknown.2 _).trans (if_pos hroom)
      · exact (push_midst hrequest _ (midst_reset _)).1 [] (List.append_nil _).symm
    · have hlarge : 2 ^ 32 ≤ requestId := Nat.not_lt.mp hid
      have hpack : Header.pack ⟨magic, version, command.toByte.toNat, 0, 0, requestId,
          payload.length⟩ = none := if_neg fun h => hid h.2.2.2.2.1
      rw [message, if_neg (Nat.not_lt.mpr hpayload), hpack]
      exact .inr hlarge
  · rw [message, if_pos (Nat.not_le.mp hpayload)]
    exact .inl (Nat.not_le.mp hpayload)

/-- The client unpacks what the C encoder wrote. -/
theorem unpack_encoded (response : BridgeMessage) (capacity : ℕ) :
    match bridgeMessageEncode response capacity with
    | some bytes => Header.unpack (bytes.take headerSize) = Header.of response ∧
        bytes.drop headerSize = response.payload
    | none => True := by
  split
  · next bytes h =>
    have hpayload : response.payload.length ≤ 512 := by
      by_contra hlong
      rw [bridgeMessageEncode, if_pos (.inl (Nat.not_le.mp hlong))] at h
      cases h
    have htake : (wire response).take headerSize = frameHeader response :=
      List.take_left' (length_frameHeader response)
    have hdrop : (wire response).drop headerSize = response.payload :=
      List.drop_left' (length_frameHeader response)
    rw [encode_eq_wire h, htake, hdrop]
    exact ⟨unpack_frameHeader (Nat.lt_of_le_of_lt hpayload (by decide)), rfl⟩
  · trivial

end BridgeClient
end FlipforgeBridge
