import UscopeDriver.HilDeployer
import UscopeDriver.Schema

/-!
# The surroundings of a request

What the driver takes from the files, the kernel, the toolchain and its libraries while it works
on one request. The toolchain reports its failures as texts, each the text of a
`std::runtime_error`.
-/

namespace UscopeDriver

/-- Where the toolchain puts a core of custom logic. -/
structure DeploymentOptions where
  romAddress : Nat
  controlAddress : Nat
  hasReciprocal : Bool
  deriving DecidableEq, Repr

/-- The commands of the debugger. -/
inductive CommandType where
  | addBreakpoint
  | removeBreakpoint
  | stepOver
  | resumeEmulation
  | initializeEmulation
  | startEmulation
  | getBreakpoints
  deriving DecidableEq, Repr

/-- A command for the emulator. -/
structure InteractiveCommand where
  type : CommandType
  id : String := ""
  /-- None until it is set. -/
  targetInstruction : Option Nat := none
  spec : Json := .null

/-- What a message finds around the driver : the toolchain, the devices and what they hold, and the
libraries. -/
structure Surroundings where
  env : Environment Json
  deploymentOptions : Json → String → Except String DeploymentOptions
  validator : SchemaValidator
  devices : Devices
  loadBitstream : String → List UInt8 → BitstreamLoad
  /-- The number in the file of the DMA buffer. -/
  bufferAddress : String → Nat
  /-- None when there is nothing to read. -/
  scopeData : Option (List Nat)
  random : Nat
  /-- None when the text is not in base 64. -/
  decodeBase64 : String → Option (List UInt8)
  floatOfBits : Nat → Json
  compile : String → List String → Json → Except String (List Nat)
  emulate : Json → Except String String
  disassemble : Json → Except String Json
  runCommand : InteractiveCommand → Except String String
  driverVersions : Json
  toolchainVersions : Json

/-- Surroundings whose toolchain returns these programs and slots, and where nothing else
answers. -/
def Surroundings.of (programs : List DeployedProgram) (slots : List DeployerInterconnectSlot) :
    Surroundings where
  env := .of (fun _ => .returning programs slots) fun _ => 1
  deploymentOptions := fun _ _ => .error "no deployment options"
  validator := .plain
  devices := ⟨⟨"emulate"⟩, fun _ => .written⟩
  loadBitstream := fun _ _ => .refused
  bufferAddress := fun _ => 0
  scopeData := none
  random := 0
  decodeBase64 := fun _ => none
  floatOfBits := fun _ => .null
  compile := fun _ _ _ => .error "no compiler"
  emulate := fun _ => .error "no emulator"
  disassemble := fun _ => .error "no disassembler"
  runCommand := fun _ => .error "no emulator"
  driverVersions := .null
  toolchainVersions := .null

end UscopeDriver
