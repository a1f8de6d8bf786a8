import UscopeDriver.Timing
import UscopeDriver.Surroundings

/-!
# The endpoints of the platform

What the commands on clocks, versions and the log level do with their arguments. The timing
manager behind them is made by its default constructor and is never given a bridge.
-/

namespace UscopeDriver

/-- The levels of the logger that the commands know. -/
inductive LogLevel where
  | warn
  | info
  | trace
  | other
  deriving DecidableEq, Repr

/-- The endpoints with the fields of their timing manager. -/
structure PlatformEndpoints where
  psPlClkF : Fin 4 → UInt64
  generatedClocks : String → Option ClockDefinition
  logLevel : LogLevel

namespace PlatformEndpoints

/-- The timing manager, without a bridge. -/
def tm (s : PlatformEndpoints) : TimingManager where
  hw := none
  psPlClkF := s.psPlClkF
  generatedClocks := s.generatedClocks

/-- A call on the timing manager. -/
def onTiming {α : Type} (m : Exec Failure TimingManager α) : Exec Failure PlatformEndpoints α :=
  Exec.zoom tm
    (fun tm s => { s with psPlClkF := tm.psPlClkF, generatedClocks := tm.generatedClocks }) m

/-- The two checks that the commands on clocks share : the keys are there, and `is_primary` is a
truth value. Otherwise the request is refused with the text of the command. -/
def checkClock (arguments : Json) (keys : List String) (missing : String) : Except Response Bool :=
  if ∃ key ∈ keys, arguments.find? key = none then .error (.refused .invalidArg missing)
  else match arguments.find? "is_primary" with
    | some (.boolean isPrimary) => .ok isPrimary
    | _ => .error (.refused .invalidArg
        "DRIVER ERROR: The is_primary argument of the get clock command must be boolean\n")

/-- The frequency of a base clock by its number, or of a generated one by its name. -/
def processGetClock (w : Surroundings) (arguments : Json) :
    Exec Failure PlatformEndpoints Response :=
  match checkClock arguments ["is_primary", "id"] ("DRIVER ERROR: The arguments for the get " ++
      "clock command must contain the id and is_primary keys\n") with
  | .error response => pure response
  | .ok isPrimary => do
    let id ← arguments.atOrNull "id"
    let data ← if isPrimary then do
        let clkN ← id.get (Json.uint32? w.env.platform)
        onTiming (TimingManager.getBaseClock w.env.platform (UInt8.ofNat clkN))
      else do
        let clockName ← id.get Json.text?
        onTiming (TimingManager.getGeneratedClock w.env.platform clockName)
    pure { responseCode := .ok, data := some (.numberUnsigned data.toNat) }

/-- `arguments["value"][key]` as a `uint16_t`. -/
def clockFactor {σ : Type} (pl : Platform) (value : Json) (key : String) :
    Exec Failure σ UInt16 := do
  let factor ← value.atOrNull key
  let n ← factor.get (Json.uint32? pl)
  pure (UInt16.ofNat n)

/-- A base clock gets a frequency, or a generated one its three factors. -/
def processSetClock (w : Surroundings) (arguments : Json) :
    Exec Failure PlatformEndpoints Response :=
  match checkClock arguments ["is_primary", "id", "value"] ("DRIVER ERROR: The arguments for " ++
      "the set clock clock command must contain the id and is_primary and value keys\n") with
  | .error response => pure response
  | .ok isPrimary => do
    let id ← arguments.atOrNull "id"
    let value ← arguments.atOrNull "value"
    let respCode ← if isPrimary then do
        let freq ← value.get (Json.uint32? w.env.platform)
        let clkN ← id.get (Json.uint32? w.env.platform)
        onTiming (TimingManager.setBaseClock w.env.platform w.devices (UInt8.ofNat clkN)
          (UInt64.ofNat freq))
      else do
        let clockName ← id.get Json.text?
        let m ← clockFactor w.env.platform value "m"
        let d ← clockFactor w.env.platform value "d"
        let p ← clockFactor w.env.platform value "p"
        onTiming (TimingManager.setGeneratedClock w.env.platform clockName m d p)
    pure { responseCode := respCode }

/-- The version of a component. The text about an unknown one is data of a good response. -/
def version (w : Surroundings) (component : String) : Json :=
  if component = "driver" then w.driverVersions
  else if component = "toolchain" then w.toolchainVersions
  else if component = "module" then .string "KERNEL MODULE VERSIONING NOT IMPLEMENTED YET"
  else if component = "hardware" then .string "HARDWARE VERSIONING NOT IMPLEMENTED YET"
  else .string "DRIVER ERROR: Unknown component\n"

/-- The component is the argument itself. -/
def processGetVersion (w : Surroundings) (arguments : Json) :
    Exec Failure PlatformEndpoints Response :=
  match arguments with
  | .string component => pure { responseCode := .ok, data := some (version w component) }
  | _ => pure (.refused .invalidArg
      "DRIVER ERROR: The argument for the get version command must be a string\n")

/-- The level that a text selects. Any other text leaves the level as it is. -/
def selectLevel (level : String) (current : LogLevel) : LogLevel :=
  if level = "minimal" then .warn
  else if level = "debug" then .info
  else if level = "trace" then .trace
  else current

/-- The level that the argument names. The refusal has the text of another command. -/
def processSetDebugLevel (arguments : Json) : Exec Failure PlatformEndpoints Response :=
  match arguments with
  | .string level => do
    modify fun s => { s with logLevel := selectLevel level s.logLevel }
    pure { responseCode := .ok }
  | _ => pure (.refused .invalidArg
      "DRIVER ERROR: The argument for the get version command must be a string\n")

/-- The text of a level. -/
def levelName : LogLevel → String
  | .warn => "minimal"
  | .info => "debug"
  | .trace => "trace"
  | .other => ""

/-- The text of the level. -/
def processGetDebugLevel : Exec Failure PlatformEndpoints Response := do
  let level ← Exec.gets (·.logLevel)
  pure { responseCode := .ok, data := some (.string (levelName level)) }

/-- The table of the platform commands. -/
def processCommand (w : Surroundings) (commandString : String) (arguments : Json) :
    Exec Failure PlatformEndpoints Response :=
  if commandString = "set_pl_clock" then processSetClock w arguments
  else if commandString = "get_clock" then processGetClock w arguments
  else if commandString = "get_version" then processGetVersion w arguments
  else if commandString = "set_debug_level" then processSetDebugLevel arguments
  else if commandString = "get_debug_level" then processGetDebugLevel
  else pure .unexpected

end PlatformEndpoints

end UscopeDriver
