import UscopeDriver.CustomDeployer

/-!
# The endpoints of the cores

What the commands on the cores do with their arguments. These are constant : reading a key that is
not there is undefined. Only the deployments and the compiler have their exceptions caught.
-/

namespace UscopeDriver

/-- Every deployer talks to the one bridge `hw`, which is lent to it for each call. -/
structure CoresEndpoints where
  hw : FpgaBridge
  hil : HilDeployer
  custom : CustomDeployer

namespace CoresEndpoints

/-- A call on the HIL deployer, which is lent the bridge. -/
def onHil {α : Type} (m : Exec Failure HilDeployer α) : Exec Failure CoresEndpoints α :=
  Exec.zoom (fun s => { s.hil with hw := s.hw })
    (fun hil s => { s with hw := hil.hw, hil := hil }) m

/-- A call on the custom deployer, which is lent the bridge. -/
def onCustom {α : Type} (m : Exec Failure CustomDeployer α) : Exec Failure CoresEndpoints α :=
  Exec.zoom (fun s => { s.custom with hw := s.hw })
    (fun custom s => { s with hw := custom.hw, custom := custom }) m

/-- A call on the bridge. -/
def onBridge {α : Type} (m : Exec Failure FpgaBridge α) : Exec Failure CoresEndpoints α :=
  Exec.zoom (·.hw) (fun hw s => { s with hw := hw }) m

/-- The three roundings give the same value, compared as floating-point numbers. -/
def checkFloatIntness (pl : Platform) (d : ℚ) : Bool :=
  let roundedAddr := pl.toUint64 (roundAway d)
  (⌈d⌉ : ℚ) = roundedAddr && (⌊d⌋ : ℚ) = roundedAddr

/-- A program goes to a core, once its address is checked to be an integer. -/
def processApplyProgram (w : Surroundings) (arguments : Json) :
    Exec Failure CoresEndpoints Response := do
  match w.validator.validate (Commands.loadProgram w.validator.integralFloats) arguments with
  | some errorMessage => pure (.refused .invalidArg
      ("DRIVER ERROR: Invalid arguments for the apply program command\n" ++ errorMessage))
  | none =>
    let address ← arguments.at' "address"
    let d ← address.get Json.number?
    if checkFloatIntness w.env.platform d then
      let address ← address.get (Json.uint64? w.env.platform)
      let program ← (← arguments.at' "program").get (Json.vector? (Json.uint32? w.env.platform))
      onBridge (FpgaBridge.applyProgram address program)
      pure { responseCode := .ok }
    else pure (.refused .invalidArg "DRIVER ERROR: core address must be an integer like number\n")

/-- The answer to a deployment that threw. -/
def deploymentError (what : String) : Response where
  responseCode := .ok
  data := some (.object [
    ("error_code", .numberUnsigned ResponseCode.deploymentError.asInteger),
    ("error", .string ("HIL DEPLOYMENT ERROR:\n" ++ what)),
    ("duplicates", .array [])])

/-- The body of the `try` of `process_deploy_hil`. -/
def deployHil (w : Surroundings) (arguments : Json) : Exec Failure CoresEndpoints Response := do
  let customDeploy ← (← arguments.at' "deployment_mode").get Json.bool?
  if customDeploy then onCustom (CustomDeployer.deploy w arguments)
  else onHil (HilDeployer.deploy w.env arguments)
  pure { responseCode := .ok }

/-- A deployment. What it throws with a text becomes the response. -/
def processDeployHil (w : Surroundings) (arguments : Json) :
    Exec Failure CoresEndpoints Response :=
  Exec.catching Failure.IsRuntimeError (deployHil w arguments) fun e =>
    pure (deploymentError e.what)

/-- `hil_emulator::emulate` catches what the toolchain throws. -/
def emulationResults (result : Except String String) : Json :=
  let fields : String × Bool × Nat := match result with
    | .ok results => (results, true, 1)
    | .error what => ("EMULATION ERROR:\n" ++ what, false, 7)
  .object [("results", .string fields.1), ("results_valid", .boolean fields.2.1),
    ("duplicates", .string ""), ("code", .numberInteger fields.2.2)]

/-- The results of an emulation, which the toolchain runs. -/
def processEmulateHil (w : Surroundings) (arguments : Json) :
    Exec Failure CoresEndpoints Response :=
  pure { responseCode := .ok, data := some (emulationResults (w.emulate arguments)) }

/-- An output goes to a channel of the scope. Without an output nothing is done. -/
def processHilSelectOut (w : Surroundings) (arguments : Json) :
    Exec Failure CoresEndpoints Response := do
  match arguments.find? "output" with
  | none => pure { responseCode := .ok }
  | some output =>
    let coreName ← (← output.at' "core").get Json.text?
    let sourceOutput ← (← output.at' "name").get Json.text?
    let outputChannel ← (← output.at' "channel").get (Json.uint32? w.env.platform)
    let channel ← (← arguments.at' "channel").get (Json.uint32? w.env.platform)
    onHil (HilDeployer.selectOutput w.env channel ⟨coreName, sourceOutput, outputChannel⟩)
    pure { responseCode := .ok }

/-- A live update of an input. Its channel is cut to 16 bits. -/
def processHilSetIn (w : Surroundings) (arguments : Json) :
    Exec Failure CoresEndpoints Response := do
  let name ← (← arguments.at' "name").get Json.text?
  let value ← (← arguments.at' "value").get Json.number?
  let core ← (← arguments.at' "core").get Json.text?
  let channel ← (← arguments.at' "channel").get (Json.uint32? w.env.platform)
  onHil (HilDeployer.setInput w.env core name (u16 channel) value)
  pure { responseCode := .ok }

/-- The logic is started. -/
def processHilStart (w : Surroundings) : Exec Failure CoresEndpoints Response := do
  onHil (HilDeployer.start w.env)
  pure { responseCode := .ok }

/-- The logic is stopped. -/
def processHilStop (w : Surroundings) : Exec Failure CoresEndpoints Response := do
  onHil (HilDeployer.stop w.env)
  pure { responseCode := .ok }

/-- The frequency of the last timebase. -/
def processGetSamplingFrequency : Exec Failure CoresEndpoints Response := do
  let timebaseFrequency ← Exec.gets (·.hil.timebaseFrequency)
  pure { responseCode := .ok, data := some (.numberFloat timebaseFrequency) }

/-- `toolchain_manager::compile` : the contents of the headers, then the compiler. -/
def compile (w : Surroundings) (content : String) (headers io : Json) :
    Exec Failure CoresEndpoints (List Nat) := do
  let contents ← headers.elements.mapM fun item => do
    let headerContent ← item.atOrNull "content"
    headerContent.get Json.text?
  callDispatcher (w.compile content contents io)

/-- The body of the `try` of `process_compile_program`. -/
def compileProgram (w : Surroundings) (arguments : Json) : Exec Failure CoresEndpoints Json := do
  let content ← (← arguments.at' "content").get Json.text?
  let headers ← arguments.at' "headers"
  let io ← arguments.at' "io"
  let hex ← compile w content headers io
  pure (.object [("status", .string "ok"), ("hex", .array (hex.map .numberUnsigned))])

/-- The toolchain compiles a program. An error of its becomes data of the response. -/
def processCompileProgram (w : Surroundings) (arguments : Json) :
    Exec Failure CoresEndpoints Response := do
  match w.validator.validate (Commands.compileProgramSchema w.validator.integralFloats)
    arguments with
  | some errorMessage => pure (.refused .invalidArg
      ("DRIVER ERROR: Invalid arguments for the compile program command\n" ++ errorMessage))
  | none =>
    let compilationResult ← Exec.catching Failure.IsRuntimeError (compileProgram w arguments)
      fun e => pure (.object [("status", .string "error"), ("error", .string e.what)])
    pure { responseCode := .ok, data := some compilationResult }

/-- The text of the programs of a specification. -/
def processHilDisassemble (w : Surroundings) (arguments : Json) :
    Exec Failure CoresEndpoints Response := do
  let data ← callDispatcher (w.disassemble arguments)
  pure { responseCode := .ok, data := some data }

/-- The texts of a simulation as an object. -/
def simDataObject (d : HardwareSimData) : Json :=
  .object [("code", .string d.code), ("control", .string d.control),
    ("outputs", .string d.outputs), ("inputs", .string d.inputs)]

/-- The texts of a simulation. What its deployment throws is not caught. -/
def processHilHardwareSim (w : Surroundings) (arguments : Json) :
    Exec Failure CoresEndpoints Response := do
  let data ← onHil (HilDeployer.getHardwareSimData w.env arguments)
  pure { responseCode := .ok, data := some (simDataObject data) }

/-- The command for the emulator. The type stays unset for a text that is not known. -/
def interactiveCommand (w : Surroundings) (command : String) (arguments : Json) :
    Exec Failure CoresEndpoints InteractiveCommand := do
  if command = "add_breakpoint" then
    Exec.throwIf ((arguments.find? "id").isNone)
      (.runtimeError "Missing core id argument for add_breakpoint command")
    let id ← arguments.at' "id"
    Exec.throwIf (id.text?.isNone) (.runtimeError "Core id must be a string")
    let id ← id.get Json.text?
    let line ← (← arguments.at' "line").get (Json.uint32? w.env.platform)
    pure { type := .addBreakpoint, id := id, targetInstruction := some line }
  else if command = "remove_breakpoint" then
    let id ← (← arguments.at' "id").get Json.text?
    let line ← (← arguments.at' "line").get (Json.uint32? w.env.platform)
    pure { type := .removeBreakpoint, id := id, targetInstruction := some line }
  else if command = "step" then pure { type := .stepOver }
  else if command = "resume" then pure { type := .resumeEmulation }
  else if command = "initialize" then pure { type := .initializeEmulation, spec := arguments }
  else if command = "run" then pure { type := .startEmulation }
  else if command = "get_breakpoints" then
    let id ← (← arguments.at' "id").get Json.text?
    pure { type := .getBreakpoints, id := id }
  else throw (.undefined .uninitialised)

/-- A command for the debugger of the toolchain. -/
def processHilDebug (w : Surroundings) (arguments : Json) :
    Exec Failure CoresEndpoints Response := do
  match arguments.find? "command", arguments.find? "arguments" with
  | some command, some commandArguments =>
    let command ← command.get Json.text?
    if command = "test" then pure { responseCode := .ok, data := some (.string "success") }
    else
      let c ← interactiveCommand w command commandArguments
      let data ← callDispatcher (w.runCommand c)
      pure { responseCode := .ok, data := some (.string data) }
  | _, _ =>
    pure (.refused .invalidArg "DRIVER ERROR: Invalid arguments for the debug hil command\n")

/-- The map goes to one deployer, then to the other. -/
def processSetHilAddressMap (pl : Platform) (arguments : Json) :
    Exec Failure CoresEndpoints Response := do
  onHil (HilDeployer.base (DeployerBase.setLayoutMap pl arguments))
  onCustom (CustomDeployer.base (DeployerBase.setLayoutMap pl arguments))
  pure { responseCode := .ok }

/-- The map that describes the layout of the HIL deployer. -/
def processGetHilAddressMap : Exec Failure CoresEndpoints Response := do
  let layout ← onHil (HilDeployer.base DeployerBase.getLayoutMap)
  pure { responseCode := .ok, data := layout }

/-- The table of the core commands. -/
def processCommand (w : Surroundings) (commandString : String) (arguments : Json) :
    Exec Failure CoresEndpoints Response :=
  if commandString = "apply_program" then processApplyProgram w arguments
  else if commandString = "deploy_hil" then processDeployHil w arguments
  else if commandString = "emulate_hil" then processEmulateHil w arguments
  else if commandString = "hil_select_out" then processHilSelectOut w arguments
  else if commandString = "hil_set_in" then processHilSetIn w arguments
  else if commandString = "hil_start" then processHilStart w
  else if commandString = "hil_stop" then processHilStop w
  else if commandString = "hil_debug" then processHilDebug w arguments
  else if commandString = "hil_disassemble" then processHilDisassemble w arguments
  else if commandString = "hil_hardware_sim" then processHilHardwareSim w arguments
  else if commandString = "compile_program" then processCompileProgram w arguments
  else if commandString = "set_hil_address_map" then
    processSetHilAddressMap w.env.platform arguments
  else if commandString = "get_hil_address_map" then processGetHilAddressMap
  else if commandString = "get_sampling_frequency" then processGetSamplingFrequency
  else pure .unexpected

end CoresEndpoints

end UscopeDriver
