import FlipforgeBridge.Process.Choreography
import FlipforgeBridge.Server

/-!
One client connection on its own. The client sends some stream of bytes, which `recv` splits as
it likes; the network may also fail or close at any moment. HMAC-SHA256 is an arbitrary function
that may refuse, the transport an arbitrary one behind its interface.
-/
namespace FlipforgeBridge
open Process

structure Setting where
  context : ClientContext
  random : (n : ℕ) → Vector UInt8 n
  hmac : Vector UInt8 bridgePairingSecretBytes → List UInt8 → Vector UInt8 bridgeHmacBytes

/-- The state is what `recv` has not returned yet. -/
def Setting.effect (setting : Setting) :
    (o : Op) → o.Res → List UInt8 → Option (List UInt8)
  | .recv _ size, .data bytes, unread =>
    if bytes ≠ [] ∧ bytes.length ≤ size ∧ bytes <+: unread then
      some (unread.drop bytes.length)
    else none
  | .fillRandom n, value, unread => if value = setting.random n then some unread else none
  | .hmacSha256 key message, digest, unread =>
    if digest = none ∨ digest = some (setting.hmac key message) then some unread else none
  | _, _, unread => some unread

abbrev connection (setting : Setting) (stream : List UInt8) : System platform where
  Tid := Unit
  State := List UInt8
  init := stream
  effect _ := setting.effect
  live _ _ := true
  code _ := clientTask abstractTransport setting.context

/-! ### A sample connection -/

/-- Fixed random bytes and a constant HMAC. -/
def Setting.sample : Setting where
  context := { socket := 3, pairingSecret := .replicate _ 1 }
  random n := .replicate n 7
  hmac _ _ := .replicate _ 0xAA

/-- A request as a client puts it on the wire. -/
def sampleRequest (command : BridgeCommand) (payload : List UInt8) : List UInt8 :=
  (bridgeMessageEncode { version := 1, command := command.toByte, payload }
    bridgeManagementFrameSize).getD []

/-- The setting's own results, a chunk for every `recv`, a state for every look at the
transport, and otherwise the smooth case. -/
def Setting.answers (setting : Setting) (chunk : List UInt8) (state : ExpansionState) :
    (o : Op) → o.Res
  | .fillRandom n => setting.random n
  | .hmacSha256 key message => some (setting.hmac key message)
  | .recv _ _ => .data chunk
  | .transport .state => state
  | o => o.smooth

end FlipforgeBridge
