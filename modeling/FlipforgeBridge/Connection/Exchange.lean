import FlipforgeBridge.Process.Lift
import FlipforgeBridge.Process.Completion
import FlipforgeBridge.Tools.ClientRole
import FlipforgeBridge.Connection.Conversation
import FlipforgeBridge.Connection.Ending

/-!
The reference client and the client task at the two ends of one TCP connection. Both directions
are cut into pieces anywhere, and calls of the bridge may be interrupted or time out some number
of times; nothing is lost, and the whole takes less than the idle timeout.
-/
namespace FlipforgeBridge
open Process

/-- The bridge's setting, the client's secret and random bytes, and the number of interruptions. -/
structure Meeting where
  setting : Setting
  pairingSecret : Vector UInt8 bridgePairingSecretBytes
  random : (n : ℕ) → Vector UInt8 n
  interruptions : ℕ

inductive Party
  | client | bridge
  deriving DecidableEq

structure Wire where
  /-- Sent by the client and not received yet. -/
  up : List UInt8 := []
  /-- Sent by the bridge and not received yet. -/
  down : List UInt8 := []
  /-- The bridge has shut the connection down. -/
  shut : Bool := false
  interruptions : ℕ
  /-- The number of bytes the bridge has received. -/
  received : ℕ := 0
  clientGone : Bool := false
  bridgeGone : Bool := false
  deriving DecidableEq

def Wire.live (w : Wire) : Party → Bool
  | .client => !w.clientGone
  | .bridge => !w.bridgeGone

namespace Meeting
variable (meeting : Meeting)

def bridgeEffect : (o : Op) → o.Res → Wire → Option Wire
  | .recv _ size, .data bytes, w =>
    if bytes ≠ [] ∧ bytes.length ≤ size ∧ bytes <+: w.up then
      some { w with up := w.up.drop bytes.length, received := w.received + bytes.length }
    else none
  | .recv _ _, .error .eintr, w | .recv _ _, .error .eagain, w =>
    if 0 < w.interruptions then some { w with interruptions := w.interruptions - 1 } else none
  | .recv _ _, _, _ => none
  | .send _ bytes, result, w =>
    if 0 < result.sent ∧ result.sent ≤ bytes.length then
      some { w with down := w.down ++ bytes.take result.sent.toNat }
    else if result.sent < 0 ∧ result.eintr ∧ 0 < w.interruptions then
      some { w with interruptions := w.interruptions - 1 }
    else none
  | .fillRandom n, value, w => if value = meeting.setting.random n then some w else none
  | .hmacSha256 key message, digest, w =>
    if digest = some (meeting.setting.hmac key message) then some w else none
  | .timerGetTime, nowUs, w =>
    if 0 ≤ nowUs ∧ nowUs < bridgeClientIdleTimeoutMs * 1000 then some w else none
  | .shutdown _, _, w => some { w with shut := true }
  | .taskDeleteSelf, _, w => some { w with bridgeGone := true }
  | _, _, w => some w

/-- `recv` answers no bytes at the end of the stream only. -/
def clientEffect : (c : BridgeClient.Call) → c.Res → Wire → Option Wire
  | .sendall data, _, w => some { w with up := w.up ++ data }
  | .recv bufsize, chunk, w =>
    if chunk = [] then if w.down = [] ∧ w.shut then some w else none
    else if chunk.length ≤ bufsize ∧ chunk <+: w.down then
      some { w with down := w.down.drop chunk.length }
    else none
  | .tokenBytes n, value, w => if value = meeting.random n then some w else none
  | .hmacDigest key message, digest, w =>
    if digest = meeting.setting.hmac key message then some w else none
  | .leave _, _, w => some { w with clientGone := true }

abbrev exchange : System (platform.sum BridgeClient.python) where
  Tid := Party
  State := Wire
  init := { interruptions := meeting.interruptions }
  effect
    | .client, .inr c, r, w => meeting.clientEffect c r w
    | .bridge, .inl o, r, w => meeting.bridgeEffect o r w
    | _, _, _, _ => none
  live := Wire.live
  code
    | .client => (BridgeClient.clientMain meeting.pairingSecret).lift Sum.inr fun _ => id
    | .bridge => (clientTask abstractTransport meeting.setting.context).lift Sum.inl fun _ => id

abbrev Phase : Party → Type
  | .client => BridgeClient.Phase
  | .bridge => Conversation.Phase

def choreography : Choreography meeting.exchange where
  Phase := Meeting.Phase
  next
    | .client, ph, .inr c, r => BridgeClient.next meeting.pairingSecret ph c r
    | .bridge, ph, .inl o, r =>
      Conversation.next meeting.setting.context.pairingSecret 0 ph o r
    | _, _, _, _ => none
  entry
    | .client => BridgeClient.Phase.starting
    | .bridge => .starting [] []
  follows
    | .client => BridgeClient.clientMain_follows.lift fun _ _ _ => rfl
    | .bridge => Conversation.clientTask_follows.lift fun _ _ _ => rfl

end Meeting
end FlipforgeBridge
