import FlipforgeBridge.Platform
import FlipforgeBridge.Process.Choreography

/-!
`pairing_service.c`: the console that discloses the pairing secret. It shares nothing with the
other tasks, so its calls form an interface of their own. Log lines are left out.
-/
namespace FlipforgeBridge
open Process

/-- `char` arrays are given by the characters before their NUL. -/
structure BridgeCredentials where
  apPassword : List UInt8
  pairingSecret : Vector UInt8 bridgePairingSecretBytes
  newlyCreated : Bool

structure PairingContext where
  credentials : BridgeCredentials
  ssid : List UInt8
  deadlineUs : UInt64

/-- `esp_timer_get_time`: an `int64_t` that counts up from zero. -/
abbrev Time := Fin (2 ^ 63)

inductive ConsoleOp
  | callocContext | gpioConfig | taskCreate | fcntlNonblock
  | gpioGetLevel | timerGetTime | read | print (line : List UInt8) | delay (ms : ℕ)
  /-- `command_size`, recorded at the head of the reading loop. -/
  | commandSize (size : ℕ)
  deriving DecidableEq, Repr

@[reducible] def ConsoleOp.Res : ConsoleOp → Type
  | .callocContext | .taskCreate | .gpioGetLevel => Bool
  | .gpioConfig => EspErr
  | .timerGetTime => Time
  | .read => Option UInt8
  | _ => Unit

abbrev console : Interface := ⟨ConsoleOp, ConsoleOp.Res⟩

def ask (o : ConsoleOp) : Prog console o.Res := .perform (ι := console) o

def encodeHex (bytes : List UInt8) : List UInt8 :=
  bytes.flatMap fun byte : UInt8 => [digit (byte >>> 4), digit (byte &&& 0x0F)]
where
  digit (n : UInt8) : UInt8 :=
    [0x30, 0x31, 0x32, 0x33, 0x34, 0x35, 0x36, 0x37, 0x38, 0x39, 0x61, 0x62, 0x63, 0x64, 0x65,
      0x66].getD n.toNat 0

/-- `"FFPAIR1 %s %s %s\n"` -/
def disclosure (context : PairingContext) : List UInt8 :=
  [0x46, 0x46, 0x50, 0x41, 0x49, 0x52, 0x31, 0x20] ++ context.ssid ++ [0x20] ++
    context.credentials.apPassword ++ [0x20] ++
    encodeHex context.credentials.pairingSecret.toList ++ [0x0A]

/-- `(uint64_t)esp_timer_get_time() + (uint64_t)BRIDGE_PAIRING_WINDOW_MS * 1000ULL` -/
def windowEnd (now : Time) : UInt64 :=
  now.val.toUInt64 + bridgePairingWindowMs.toUInt64 * 1000

def isTerminator (byte : UInt8) : Bool := byte == 0x0A || byte == 0x0D

/-- `"PAIR"` -/
def pairText : List UInt8 := [0x50, 0x41, 0x49, 0x52]

/-- `sizeof(command)`. -/
def commandCapacity : ℕ := 16

/-- `strcmp(command, "PAIR") == 0`, after a NUL was put behind the `command_size` bytes. -/
def isPairCommand (command : List UInt8) : Bool := command.takeWhile (· != 0) == pairText

/-- What a byte other than a terminator does to the `command_size` bytes of `command`. -/
def storeCommand (command : List UInt8) (byte : UInt8) : List UInt8 :=
  if command.length + 1 < commandCapacity then command ++ [byte] else []

/-- `while(read(STDIN_FILENO, &byte, 1U) == 1)`, over `command` and `deadline_us`. -/
def readConsole (context : PairingContext) (buttonHeld : Bool) (command : List UInt8)
    (deadlineUs : UInt64) : Prog console (List UInt8 × UInt64) :=
  .loop (command, deadlineUs) fun (command, deadlineUs) => do
    ask (.commandSize command.length)
    let read : Option UInt8 ← ask .read
    match read with
    | none => return .inr (command, deadlineUs)
    | some byte =>
      if isTerminator byte then
        let now : Time ← ask .timerGetTime
        let windowOpen := decide (now.val.toUInt64 < deadlineUs)
        if isPairCommand command && windowOpen && buttonHeld then
          ask (.print (disclosure context))
          return .inl ([], 0)
        else return .inl ([], deadlineUs)
      else return .inl (storeCommand command byte, deadlineUs)

/-- The variables of `pairing_task` that live from poll to poll. -/
structure PairingLocals where
  command : List UInt8 := []
  heldMs : UInt32 := 0
  deadlineUs : UInt64

def pairingTask (context : PairingContext) : Prog console Unit := do
  ask .fcntlNonblock
  .loop ({ deadlineUs := context.deadlineUs } : PairingLocals) fun locals => do
    let level : Bool ← ask .gpioGetLevel
    let buttonHeld := !level
    let heldMs := if buttonHeld then locals.heldMs + 50 else 0
    let deadlineUs ← (if heldMs = 2000 then do
        let now : Time ← ask .timerGetTime
        pure (windowEnd now)
      else pure locals.deadlineUs)
    let (command, deadlineUs) ← readConsole context buttonHeld locals.command deadlineUs
    ask (.delay 50)
    return .inl { command, heldMs, deadlineUs }

/-- The error, and the context of the task if it was created. -/
def pairingServiceStart (credentials : BridgeCredentials) (ssid : List UInt8) :
    Prog console (EspErr × Option PairingContext) := do
  let allocated : Bool ← ask .callocContext
  if !allocated then return (.noMem, none)
  let deadlineUs ← (if credentials.newlyCreated then do
      let now : Time ← ask .timerGetTime
      pure (windowEnd now)
    else pure 0)
  let error : EspErr ← ask .gpioConfig
  if error ≠ .ok then return (error, none)
  let created : Bool ← ask .taskCreate
  if !created then return (.noMem, none)
  return (.ok, some { credentials, ssid := ssid.take 19, deadlineUs })

/-- The service from its start on. The clock does not go back; button and console are arbitrary. -/
abbrev pairing (credentials : BridgeCredentials) (ssid : List UInt8) : System console where
  Tid := Unit
  State := Time
  init := 0
  effect _ o r clock := match o, r with
    | .timerGetTime, now => if clock ≤ now then some now else none
    | _, _ => some clock
  live _ _ := true
  code _ := do
    let (_, context) ← pairingServiceStart credentials ssid
    match context with
    | none => pure ()
    | some context => pairingTask context

end FlipforgeBridge
