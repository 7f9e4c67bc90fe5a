import Mathlib.Algebra.Order.Ring.Int
import Mathlib.Algebra.Order.Ring.Nat

/-! The constants of `bridge_config.h` that the modelled code uses. -/
namespace FlipforgeBridge

def flipforgeBridgeProduct : String := "Flipforge Bridge"
def flipforgeBridgeVersion : String := "0.1.3"
def flipforgeBridgeProtocolVersion : UInt8 := 1

def bridgeClientIdleTimeoutMs : ℕ := 30000

def bridgeExpansionInitialBaud : UInt32 := 9600
def bridgeExpansionStartupDelayMs : ℕ := 3000
def bridgeExpansionTimeoutMs : ℕ := 250
def bridgeExpansionHeartbeatMs : ℕ := 100
def bridgeExpansionBaudDeadTimeMs : ℕ := 25
def bridgeExpansionDetectPulseMs : ℕ := 2
def bridgeExpansionMaxData : ℕ := 64
def bridgeExpansionMaxRetries : ℕ := 3
def bridgeExpansionRetryBaseMs : ℕ := 250

def bridgeRpcRxBufferBytes : ℕ := 8192
def bridgeTcpReadBytes : ℕ := 1024
def bridgeManagementMaxPayload : ℕ := 512
def bridgeManagementHeaderSize : ℕ := 14

def bridgeNonceBytes : ℕ := 32
def bridgeSessionIdBytes : ℕ := 8
def bridgePairingSecretBytes : ℕ := 32
def bridgeHmacBytes : ℕ := 32
def bridgeApPasswordBytes : ℕ := 20

def bridgePairingWindowMs : ℕ := 120000

/-- `bridge_preferred_baud_rates`. -/
def bridgePreferredBaudRates : List UInt32 := [230400, 115200, 57600, 38400, 19200, 9600]

end FlipforgeBridge
