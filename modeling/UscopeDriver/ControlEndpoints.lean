import UscopeDriver.Surroundings

/-!
# The endpoints of the control bus

What the commands on single registers, filters and bitstreams do with their arguments. The only
state of these endpoints is the bridge.
-/

namespace UscopeDriver

namespace ControlEndpoints

/-- Rounding, rounding up and rounding down give the same `uint64_t`. -/
def checkFloatIntness (pl : Platform) (d : ℚ) : Bool :=
  let roundedAddr := pl.toUint64 (roundAway d)
  let cFactor := pl.toUint64 ⌈d⌉
  let fFactor := pl.toUint64 ⌊d⌋
  cFactor = roundedAddr && fFactor = roundedAddr

/-- The tests of `&&` : the first argument that fails ends them. -/
def checkArguments (pl : Platform) (arguments : Json) : List String → Exec Failure FpgaBridge Bool
  | [] => pure true
  | key :: keys => do
    let d ← (← arguments.atOrNull key).getDouble
    if checkFloatIntness pl d then checkArguments pl arguments keys else pure false

/-- A register write, once its addresses and its value are checked to be integers. -/
def processSingleWriteRegister (pl : Platform) (validator : SchemaValidator) (arguments : Json) :
    Exec Failure FpgaBridge Response := do
  match validator.validate (Commands.writeRegister validator.integralFloats) arguments with
  | some errorMessage => pure {
      responseCode := .invalidArg
      data := some (.string
        ("DRIVER ERROR: Invalid arguments for the write register command\n" ++ errorMessage)) }
  | none =>
    if ← checkArguments pl arguments ["address", "proxy_address", "value"] then
      FpgaBridge.singleWriteRegister pl arguments
      pure { responseCode := .ok }
    else pure {
      responseCode := .invalidArg
      data := some (.string
        "DRIVER ERROR: addresses and values for register writes must be integers\n") }

/-- A register read. A float address is converted, not refused. -/
def processSingleReadRegister (w : Surroundings) (arguments : Json) :
    Exec Failure FpgaBridge Response :=
  if arguments.number?.isNone then
    pure (.refused .invalidArg
      "DRIVER ERROR:The argument for the single read register call must be a numeric value\n")
  else do
    let address ← arguments.get (Json.uint64? w.env.platform)
    let value ← FpgaBridge.readDirect w.random address
    pure { responseCode := .ok, data := some (.numberUnsigned value) }

/-- The bitstream is decoded from the text of the argument. A text that is not in base 64 throws. -/
def processLoadBitstream (w : Surroundings) (arguments : Json) : Exec Failure FpgaBridge Response :=
  match arguments with
  | .string text => do
    let decodedData ← Exec.require (w.decodeBase64 text) .logicError
    let code ← FpgaBridge.loadBitstream w.devices.ifDict w.loadBitstream decodedData
    pure { responseCode := code }
  | _ => pure (.refused .invalidArg
      "DRIVER ERROR: The bitstream data must be a base 64 encoded string")

/-- The taps go to a filter, once its address is checked to be an integer. -/
def processApplyFilter (w : Surroundings) (arguments : Json) :
    Exec Failure FpgaBridge Response := do
  match w.validator.validate (Commands.applyFilterSchema w.validator.integralFloats) arguments with
  | some errorMessage => pure (.refused .invalidArg
      ("DRIVER ERROR: Invalid arguments for the apply filter command\n" ++ errorMessage))
  | none =>
    let address ← arguments.atOrNull "address"
    let d ← address.get Json.number?
    if checkFloatIntness w.env.platform d then
      let address ← address.get (Json.uint64? w.env.platform)
      let taps ← (← arguments.atOrNull "taps").get (Json.vector? (Json.uint32? w.env.platform))
      FpgaBridge.applyFilter address taps
      pure { responseCode := .ok }
    else pure (.refused .invalidArg
      "DRIVER ERROR: The filter address must be an integer or integer like float number")

/-- The table of the control commands. -/
def processCommand (w : Surroundings) (commandString : String) (arguments : Json) :
    Exec Failure FpgaBridge Response :=
  if commandString = "load_bitstream" then processLoadBitstream w arguments
  else if commandString = "register_write" then
    processSingleWriteRegister w.env.platform w.validator arguments
  else if commandString = "register_read" then processSingleReadRegister w arguments
  else if commandString = "apply_filter" then processApplyFilter w arguments
  else pure .unexpected

end ControlEndpoints

end UscopeDriver
