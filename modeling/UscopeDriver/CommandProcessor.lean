import UscopeDriver.ControlEndpoints
import UscopeDriver.CoresEndpoints
import UscopeDriver.PlatformEndpoints
import UscopeDriver.ScopeEndpoints

/-!
# The command processor

A command goes to the endpoint that has it. All endpoints talk to the one bus, so there is one
bridge, which is lent to each of them. Around it is the loop of the server : every message of a
client is answered, unless something escapes from its command. Nothing catches that, and the
driver is gone.
-/

namespace UscopeDriver

namespace Commands

/-- The command that only asks whether the driver is there. -/
def infrastructureCommands : List String := ["null"]

/-- The commands on the bus itself. -/
def controlCommands : List String :=
  ["load_bitstream", "register_write", "register_read", "apply_filter"]

/-- The commands on the scope. -/
def scopeCommands : List String :=
  ["read_data", "set_scaling_factors", "set_channel_status", "disable_scope_dma",
    "get_acquisition_status", "set_acquisition", "set_scope_address"]

/-- The commands on programs and deployments. -/
def coreCommands : List String :=
  ["apply_program", "deploy_hil", "emulate_hil", "compile_program", "hil_select_out", "hil_set_in",
    "hil_start", "hil_stop", "hil_disassemble", "set_hil_address_map", "get_hil_address_map",
    "hil_debug", "hil_hardware_sim", "get_sampling_frequency"]

/-- The commands on clocks, versions and the log level. -/
def platformCommands : List String :=
  ["set_pl_clock", "get_clock", "get_version", "set_debug_level", "get_debug_level"]

end Commands

/-- The processor with its endpoints. The one bridge is kept beside them. -/
structure CommandProcessor where
  hw : FpgaBridge
  cores : CoresEndpoints
  scope : ScopeEndpoints
  platform : PlatformEndpoints

namespace CommandProcessor

open Commands

/-- A call on the control endpoints. -/
def onControl {α : Type} (m : Exec Failure FpgaBridge α) : Exec Failure CommandProcessor α :=
  Exec.zoom (·.hw) (fun hw s => { s with hw := hw }) m

/-- A call on the scope endpoints, which are lent the bridge. -/
def onScope {α : Type} (m : Exec Failure ScopeEndpoints α) : Exec Failure CommandProcessor α :=
  Exec.zoom (fun s => { s.scope with hw := s.hw })
    (fun scope s => { s with hw := scope.hw, scope := scope }) m

/-- A call on the cores endpoints, which are lent the bridge. -/
def onCores {α : Type} (m : Exec Failure CoresEndpoints α) : Exec Failure CommandProcessor α :=
  Exec.zoom (fun s => { s.cores with hw := s.hw })
    (fun cores s => { s with hw := cores.hw, cores := cores }) m

/-- A call on the platform endpoints. They have no bridge. -/
def onPlatform {α : Type} (m : Exec Failure PlatformEndpoints α) :
    Exec Failure CommandProcessor α :=
  Exec.zoom (·.platform) (fun platform s => { s with platform := platform }) m

/-- The body of the response, from the endpoint that has the command. -/
def body (w : Surroundings) (commandString : String) (arguments : Json) :
    Exec Failure CommandProcessor Response :=
  if commandString ∈ controlCommands then
    onControl (ControlEndpoints.processCommand w commandString arguments)
  else if commandString ∈ scopeCommands then
    onScope (ScopeEndpoints.processCommand w commandString arguments)
  else if commandString ∈ coreCommands then
    onCores (CoresEndpoints.processCommand w commandString arguments)
  else if commandString ∈ platformCommands then
    onPlatform (PlatformEndpoints.processCommand w commandString arguments)
  else if commandString ∈ infrastructureCommands then pure { responseCode := .ok }
  else pure (.refused .invalidCmdSchema "DRIVER ERROR: Unknown command received\n")

/-- The response of an endpoint, with the name of the command. -/
def processCommand (w : Surroundings) (commandString : String) (arguments : Json) :
    Exec Failure CommandProcessor Json := do
  let response ← body w commandString arguments
  pure (.object [("cmd", .string commandString), ("body", response.toJson)])

/-! ## The loop of the server -/

/-- One message of a client, up to the response that is sent. -/
def answer (w : Surroundings) (commandObj : Json) : Exec Failure CommandProcessor Json :=
  match w.validator.validate (command w.validator.integralFloats) commandObj with
  | some errorMessage => pure (Response.refused .invalidCmdSchema
      ("DRIVER ERROR: Invalid command object received\n" ++ errorMessage)).toJson
  | none => do
    let cmd ← Exec.require (commandObj.find? "cmd") .jsonError
    let commandString ← cmd.get Json.text?
    let arguments ← Exec.require (commandObj.find? "args") .jsonError
    processCommand w commandString arguments

/-- The messages of a client one after the other, each with the surroundings it finds. -/
def serve (messages : List (Surroundings × Json)) : Exec Failure CommandProcessor (List Json) :=
  messages.mapM fun message => answer message.1 message.2

end CommandProcessor

end UscopeDriver
