import FlipforgeBridge.Expansion.Transport

/-!
`rpc_proxy.c`: raw RPC between a client's socket and the transport. The checks of
`rpc_proxy_run` for a negative socket and null pointers are left out: its one caller passes
neither.
-/
namespace FlipforgeBridge

def proxyWriterTask (transport : TransportApi) (socket : ℕ) : Routine Unit := do
  .loop () fun _ => do
    let bits : ProxyBits ← op (.proxyBits socket)
    if bits.stop then return .inr ()
    let (error, bytes) ← transport.receiveRpc bridgeTcpReadBytes
    if error = .ok then
      let sent ← sendAll socket bytes
      return if sent = .ok then .inl () else .inr ()
    return if error = .timeout then .inl () else .inr ()
  let bits : ProxyBits ← op (.proxyBits socket)
  (if bits.stop then pure () else op (.shutdown socket))
  op (.proxySetDone socket)
  op .taskDeleteSelf

/-- The receive loop: bytes go to the transport as they arrive. -/
def forwardToTransport (transport : TransportApi) (socket : ℕ) (result : EspErr) :
    Routine EspErr :=
  .loop result fun result => do
    if result ≠ .ok then return .inr result
    let bits : ProxyBits ← op (.proxyBits socket)
    if bits.writerDone then return .inr result
    let received : RecvResult ← op (.recv socket bridgeTcpReadBytes)
    match received with
    | .data bytes =>
      let result ← transport.sendRpc bytes
      return .inl result
    | .closed => return .inr result
    | .error .eintr | .error .eagain => return .inl result
    | .error .other => return .inl .fail

def rpcProxyRun (transport : TransportApi) (socket : ℕ) (initialBytes : List UInt8) :
    Routine EspErr := do
  let state ← transport.state
  if state ≠ .rpcReady then return .invalidState
  let events : Bool ← op (.proxyCreate socket)
  if !events then
    let _stopped ← transport.endRpc
    return .noMem
  let writer : Bool ← op (.taskCreate (.writer socket))
  if !writer then
    op (.proxyDelete socket)
    let _stopped ← transport.endRpc
    return .noMem
  let result ← (if 0 < initialBytes.length then transport.sendRpc initialBytes else pure .ok)
  let result ← forwardToTransport transport socket result
  op (.proxySetStop socket)
  op (.shutdown socket)
  op (.proxyWaitDone socket)
  op (.proxyDelete socket)
  let stopError ← transport.endRpc
  return if result = .ok ∧ stopError ≠ .ok ∧ stopError ≠ .invalidState then stopError else result

end FlipforgeBridge
