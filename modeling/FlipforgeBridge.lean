import FlipforgeBridge.Process.Program
import FlipforgeBridge.Process.Choreography
import FlipforgeBridge.Process.System
import FlipforgeBridge.Process.Slot
import FlipforgeBridge.Framing.Grammar
import FlipforgeBridge.BridgeConfig
import FlipforgeBridge.Codec.LittleEndian
import FlipforgeBridge.Session
import FlipforgeBridge.Codec.Management
import FlipforgeBridge.Codec.ManagementGrammar
import FlipforgeBridge.Codec.ManagementRoundTrip
import FlipforgeBridge.Expansion.Protocol
import FlipforgeBridge.Expansion.Grammar
import FlipforgeBridge.Expansion.RoundTrip
import FlipforgeBridge.Expansion.StateMachine
import FlipforgeBridge.Expansion.Guarded
import FlipforgeBridge.Platform
import FlipforgeBridge.Io
import FlipforgeBridge.Expansion.Transport
import FlipforgeBridge.RpcProxy
import FlipforgeBridge.Server
import FlipforgeBridge.Expansion.Traversal
import FlipforgeBridge.Connection.Traversal
import FlipforgeBridge.Connection.System
import FlipforgeBridge.Connection.Gate
import FlipforgeBridge.Connection.Answer
import FlipforgeBridge.Connection.Handover
import FlipforgeBridge.Connection.Binding
import FlipforgeBridge.Pairing.Service
import FlipforgeBridge.Pairing.Watch
import FlipforgeBridge.Pairing.Consent
import FlipforgeBridge.Pairing.Recognition
import FlipforgeBridge.Supervisor.Reconnection
import FlipforgeBridge.Bridge.System
import FlipforgeBridge.Bridge.Roles
import FlipforgeBridge.Bridge.Tasks
import FlipforgeBridge.Bridge.Client
import FlipforgeBridge.Bridge.Link
import FlipforgeBridge.Bridge.Depicts
import FlipforgeBridge.Bridge.Simulation
import FlipforgeBridge.Bridge.Run
import FlipforgeBridge.Bridge.Invariant
import FlipforgeBridge.Bridge.History
import FlipforgeBridge.Bridge.ClientSlot
import FlipforgeBridge.Bridge.Requests
import FlipforgeBridge.Bridge.Flow
import FlipforgeBridge.Bridge.Receipts
import FlipforgeBridge.Bridge.Readiness
import FlipforgeBridge.Bridge.Asking
import FlipforgeBridge.Bridge.Delivery
import FlipforgeBridge.Bridge.StopAndWait
import FlipforgeBridge.Supervisor.Accounting
import FlipforgeBridge.Process.Lift
import FlipforgeBridge.Process.Completion
import FlipforgeBridge.Connection.Conversation
import FlipforgeBridge.Connection.Noninterference
import FlipforgeBridge.Connection.Ending
import FlipforgeBridge.Tools.BridgeClient
import FlipforgeBridge.Tools.ClientRole
import FlipforgeBridge.Connection.Exchange
import FlipforgeBridge.Connection.Handshake
import FlipforgeBridge.Connection.Standing
import FlipforgeBridge.Connection.Agreement
import FlipforgeBridge.Process.Execution
import FlipforgeBridge.PartialWrites
import FlipforgeBridge.Expansion.ErrorDetection
import FlipforgeBridge.Expansion.LinkLaws
import FlipforgeBridge.Connection.ForbiddenPayload
import FlipforgeBridge.Process.Crash
import FlipforgeBridge.Credentials
import FlipforgeBridge.Expansion.Negotiation
import FlipforgeBridge.Bridge.Exclusion
import FlipforgeBridge.Bridge.Stopping
import FlipforgeBridge.Bridge.Supervision
import FlipforgeBridge.Bridge.Holdings
import FlipforgeBridge.Bridge.Lifetime
