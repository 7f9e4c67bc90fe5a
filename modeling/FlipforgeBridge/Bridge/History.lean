import FlipforgeBridge.Bridge.Invariant

/-!
What the trace of the firmware tells: who was accepted and served, what was answered, stored and
sent, and how the link was lost and set up again.
-/
namespace FlipforgeBridge
open Process

namespace Bridge

/-! ### The client slot -/

/-- The connection accepted last. -/
def lastAccepted : List Entry → Option ℕ
  | [] => none
  | ⟨_, .accept, .ok socket⟩ :: _ => some socket
  | _ :: past => lastAccepted past

/-- The connection for which the client slot is claimed. -/
def claimed : List Entry → Option ℕ
  | [] => none
  | ⟨_, .claimClient, true⟩ :: past => lastAccepted past
  | ⟨_, .releaseClient, _⟩ :: _ => none
  | _ :: past => claimed past

/-- A task was created for this connection. -/
def served (socket : ℕ) : List Entry → Bool
  | [] => false
  | ⟨_, .taskCreate (.client n), true⟩ :: past => n = socket || served socket past
  | _ :: past => served socket past

/-- How often a task released the slot. -/
def releases (i : Tid) : List Entry → ℕ :=
  account i (fun count o _ => if o = .releaseClient then count + 1 else count) 0

/-! ### Requests and answers -/

/-- The link loss is signalled, and no new attempt was begun. -/
def lossSignalled : List Entry → Bool
  | [] => false
  | ⟨_, .setLost _, _⟩ :: _ => true
  | ⟨_, .clearLostReady, _⟩ :: _ => false
  | _ :: past => lossSignalled past

/-- What happened since a client began to handle its last request. -/
structure Handling where
  /-- It brought about a transition of the state machine. -/
  moved : Bool := false
  /-- STOP RPC was acknowledged. -/
  stopped : Bool := false
  /-- The link loss was signalled. -/
  lost : Bool := false
  deriving DecidableEq, Repr

def handling (socket : ℕ) : List Entry → Handling
  | [] => {}
  | ⟨i, .mark (.handle _ _), _⟩ :: past =>
    if i = .client socket then { lost := lossSignalled past } else handling socket past
  | ⟨i, .locked (.apply event), (ok, _)⟩ :: past =>
    if i = .client socket ∧ ok then
      { handling socket past with
        moved := true
        stopped := (handling socket past).stopped || event = .rpcStopped }
    else handling socket past
  | ⟨_, .setLost _, _⟩ :: past => { handling socket past with lost := true }
  | _ :: past => handling socket past

/-- An answer, and what was sent since it was begun. -/
structure Answer where
  request : BridgeMessage
  status : BridgeStatus
  payload : List UInt8
  sent : List UInt8 := []

def Answer.after (a : Option Answer) : (o : Op) → o.Res → Option Answer
  | .mark (.handle _ _), _ => none
  | .mark (.respond request status payload), _ => some { request, status, payload }
  | .send _ bytes, result =>
    a.map fun a => { a with sent := a.sent ++ bytes.take result.sent.toNat }
  | _, _ => a

/-- The answer a task has begun to the request it handles. -/
def answer (i : Tid) : List Entry → Option Answer := account i Answer.after none

/-- It is the Ok of `BeginRPCProxy`, all of it sent but `rest`. -/
def Answer.Begins (a : Answer) (rest : List UInt8) : Prop :=
  a.request.command = BridgeCommand.beginRpcProxy.toByte ∧ a.status = .ok ∧
    bridgeMessageEncode (responseTo a.request a.status a.payload) bridgeManagementFrameSize =
      some (a.sent ++ rest)

/-- How often a task called `send`. -/
def sends (i : Tid) : List Entry → ℕ :=
  account i (fun count o _ => match o with
    | .send _ _ => count + 1
    | _ => count) 0

/-! ### Bytes on their way to a client -/

/-- The client whose START RPC was accepted last. -/
def owner : List Entry → Option ℕ
  | [] => none
  | ⟨i, .locked (.apply .rpcStarted), (ok, _)⟩ :: past =>
    match i, ok with
    | .client socket, true => some socket
    | _, _ => owner past
  | _ :: past => owner past

/-- What an entry adds to `rpc_rx`. -/
def depositBy : Entry → List UInt8
  | ⟨_, .streamSend bytes, sent⟩ => bytes.take sent
  | _ => []

/-- The bytes stored since the START RPC of this client was accepted, until that of the next. -/
def storedFor (socket : ℕ) : List Entry → List UInt8
  | [] => []
  | e :: past => storedFor socket past ++ if owner past = some socket then depositBy e else []

/-- The bytes the proxy writer of a socket has taken out of `rpc_rx`. -/
def taken (socket : ℕ) : List Entry → List UInt8 :=
  account (.writer socket) (fun bytes o r => match o, r with
    | .streamReceive _, received => bytes ++ received
    | _, _ => bytes) []

/-- The bytes it has sent. -/
def rawSent (socket : ℕ) : List Entry → List UInt8 :=
  account (.writer socket) (fun sent o r => match o, r with
    | .send _ bytes, result => sent ++ bytes.take result.sent.toNat
    | _, _ => sent) []

/-- What a receiving task did with the DATA frames it decoded. -/
structure Receipts where
  decoded : List (List UInt8) := []
  stored : List (List UInt8) := []
  /-- How often it wrote the acknowledgement, and how often all of it. -/
  acks : ℕ := 0
  acked : ℕ := 0
  deriving DecidableEq, Repr

def Receipts.after (b : Receipts) : (o : Op) → o.Res → Receipts
  | .mark (.frame (.data bytes)), _ => { b with decoded := b.decoded ++ [bytes] }
  | .streamSend bytes, sent => { b with stored := b.stored ++ [bytes.take sent] }
  | .uartWriteBytes bytes, written =>
    if bytes = ackBytes then
      { b with acks := b.acks + 1, acked := b.acked + if written = ackBytes.length then 1 else 0 }
    else b
  | _, _ => b

def receipts (id : ℕ) : List Entry → Receipts := account (.rx id) Receipts.after {}

/-- How often a task signalled the link loss. -/
def signals (i : Tid) : List Entry → ℕ :=
  account i (fun count o _ => match o with
    | .setLost _ => count + 1
    | _ => count) 0

/-- The client that owned the session when a receiving task read the state last. -/
def admittedFor (id : ℕ) : List Entry → Option ℕ
  | [] => none
  | ⟨i, .locked .state, _⟩ :: past => if i = .rx id then owner past else admittedFor id past
  | _ :: past => admittedFor id past

/-! ### Bytes on their way to the Flipper -/

/-- What a task did in its last call of `send_rpc`. -/
structure Delivery where
  bytes : List UInt8 := []
  frames : List (List UInt8) := []
  /-- How many exchanges ended with STATUS None while a frame had no answer yet. -/
  acks : ℕ := 0
  signalled : Bool := false
  /-- The call has not returned. -/
  calling : Bool := false
  deriving DecidableEq, Repr

/-- An exchange ended. -/
def Delivery.answered (d : Delivery) (status : ExpansionFrameError) : Delivery :=
  if status = .none then { d with acks := min (d.acks + 1) d.frames.length } else d

def Delivery.after (d : Delivery) : (o : Op) → o.Res → Delivery
  | .mark (.enter (.sendRpc bytes)), _ => { bytes, calling := true }
  | .mark (.leave (.sendRpc _) _), _ => { d with calling := false }
  | .uartWriteBytes frame, _ => { d with frames := d.frames ++ [frame] }
  | .locked .disarmRequest, status => d.answered status
  | .setLost _, _ => { d with signalled := true }
  | _, _ => d

def delivery (i : Tid) : List Entry → Delivery := account i Delivery.after {}

/-- An exchange: the frames that went out whole, and the STATUS frames that arrived. -/
structure Inquiry where
  frames : List (List UInt8) := []
  answers : List ExpansionFrameError := []
  deriving DecidableEq, Repr

/-- Requests and answers since the last attempt was begun. -/
structure Line where
  asked : ℕ := 0
  heard : ℕ := 0
  /-- An exchange did not end with STATUS None, or one begun on an earlier link ended. -/
  failed : Bool := false
  inquiry : Option Inquiry := none
  deriving DecidableEq, Repr

def line : List Entry → Line
  | [] => {}
  | ⟨_, .clearLostReady, _⟩ :: _ => {}
  | ⟨_, .locked .armRequest, _⟩ :: past => { line past with inquiry := some {} }
  | ⟨.client _, .uartWriteBytes bytes, written⟩ :: past =>
    if written = bytes.length then
      { line past with
        asked := (line past).asked + 1
        inquiry := (line past).inquiry.map fun x => { x with frames := x.frames ++ [bytes] } }
    else line past
  | ⟨_, .locked (.offerStatus status), _⟩ :: past =>
    { line past with
      heard := (line past).heard + 1
      inquiry := (line past).inquiry.map fun x => { x with answers := x.answers ++ [status] } }
  | ⟨_, .locked .disarmRequest, status⟩ :: past =>
    { line past with
      failed := (line past).failed || (line past).inquiry.isNone ||
        status ≠ ExpansionFrameError.none
      inquiry := none }
  | _ :: past => line past

/-- A STATUS frame is waited for. -/
def expecting : List Entry → Bool
  | [] => false
  | ⟨_, .locked .armRequest, _⟩ :: _ => true
  | ⟨_, .locked .disarmRequest, _⟩ :: _ => false
  | _ :: past => expecting past

/-- The STATUS that was expected and arrived last. -/
def lastAnswer : List Entry → ExpansionFrameError
  | [] => .none
  | ⟨_, .locked .armRequest, _⟩ :: _ => .unknown
  | ⟨_, .locked (.offerStatus status), true⟩ :: _ => status
  | _ :: past => lastAnswer past

/-! ### The link -/

/-- A receiving task was created since the last attempt was begun. -/
def manned : List Entry → Bool
  | [] => false
  | ⟨_, .clearLostReady, _⟩ :: _ => false
  | ⟨_, .taskCreate .rx, true⟩ :: _ => true
  | _ :: past => manned past

/-- The driver refused the accepted rate since the last attempt was begun. -/
def switchFailed : List Entry → Bool
  | [] => false
  | ⟨_, .clearLostReady, _⟩ :: _ => false
  | ⟨_, .uartSetBaudrate _, error⟩ :: _ => error ≠ EspErr.ok
  | _ :: past => switchFailed past

/-- What a task wrote to the UART last, in the attempt it has begun. -/
def lastWritten (i : Tid) : List Entry → List UInt8 :=
  account i (fun last o _ => match o with
    | .uartWriteBytes bytes => bytes
    | .clearLostReady => []
    | _ => last) []

/-- It is one of the preferred rates, and the supervisor wrote nothing after it asked for it. -/
def Requested (baud : UInt32) (trace : List Entry) : Prop :=
  baud ∈ bridgePreferredBaudRates ∧
    expansionProtocolEncode (.baudRate baud) expansionFrameSize =
      some (lastWritten .supervisor trace)

end Bridge
end FlipforgeBridge
