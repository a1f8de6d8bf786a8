import UscopeDriver.Scope
import UscopeDriver.Surroundings

/-!
# The endpoints of the scope

The scope manager with its settings, and what the commands on the scope do with their arguments.
Every command checks its arguments in its own way, some of them not at all.
-/

namespace UscopeDriver

/-! ## Addresses of the scope -/

namespace ScopeAddressMap

/-- The multiplexer of the scope. -/
def muxBase : Nat := 0x0

/-- The timebase of the scope. -/
def tbBase : Nat := 0x100

/-- The registers of the trigger and the acquisition. -/
def internalBase : Nat := 0x200

namespace Mux

/-- The control register of the multiplexer. -/
def ctrl : Nat := 0x0

end Mux

namespace Tb

/-- The control register of the timebase. -/
def ctrl : Nat := 0x0

/-- The period of the timebase. -/
def period : Nat := 0x4

/-- The threshold of the timebase. -/
def threshold : Nat := 0x8

end Tb

namespace ScopeInt

/-- The edge of the trigger. -/
def trgMode : Nat := 0x0

/-- The level of the trigger. -/
def trgLvl : Nat := 0x4

/-- The channel of the trigger. -/
def trgSrc : Nat := 0x10

/-- The place of the trigger in the buffer. -/
def trgPoint : Nat := 0x14

/-- The mode of the acquisition. -/
def acqMode : Nat := 0x18

/-- The trigger is rearmed here, and the status is read. -/
def trgRearmStatus : Nat := 0x1C

end ScopeInt

end ScopeAddressMap

/-- `std::stoi` : blanks, a sign and the digits up to the first other character. None when there
is no digit or the number is not an `int`. -/
def stoi (text : String) : Option Int :=
  let unsigned (sign : Int) (chars : List Char) : Option Int :=
    let digits := chars.takeWhile (·.isDigit)
    let number := sign * digits.foldl (fun n c => 10 * n + (c.toNat - '0'.toNat)) 0
    if digits ≠ [] ∧ -2 ^ 31 ≤ number ∧ number < 2 ^ 31 then some number else none
  match text.toList.dropWhile (·.toNat ∈ [0x20, 0x9, 0xA, 0xB, 0xC, 0xD]) with
  | '-' :: chars => unsigned (-1) chars
  | '+' :: chars => unsigned 1 chars
  | chars => unsigned 1 chars

/-- The settings of an acquisition. -/
structure AcquisitionMetadata where
  mode : String
  triggerMode : String
  triggerSource : Nat
  triggerLevel : ℚ
  levelType : String
  triggerPoint : Nat
  prescaler : Nat
  deriving DecidableEq, Repr

/-- The scope manager behind the endpoints. -/
structure ScopeEndpoints extends ScopeManager where
  hw : FpgaBridge
  scopeBaseAddress : Nat
  firstLoad : Bool
  channelStatus : Int → Bool

namespace ScopeEndpoints

open ScopeAddressMap ScopeManager

/-- The endpoints as constructed. -/
def construct (hw : FpgaBridge) : ScopeEndpoints where
  scalingFactors := [1, 1, 1, 1, 1, 1]
  hw := hw
  scopeBaseAddress := 0
  firstLoad := true
  channelStatus := fun channel => 0 ≤ channel ∧ channel < 6

/-- A call on the bridge. -/
def onBridge {α : Type} (m : Exec Failure FpgaBridge α) : Exec Failure ScopeEndpoints α :=
  Exec.zoom (·.hw) (fun hw s => { s with hw := hw }) m

/-- A call on the samples. -/
def onSamples {α : Type} (m : Exec Failure ScopeManager α) : Exec Failure ScopeEndpoints α :=
  Exec.zoom (·.toScopeManager) (fun samples s => { s with toScopeManager := samples }) m

/-! ## The scope manager -/

/-- The JSON number of a sample. -/
def sampleValue (floatOfBits : Nat → Json) : ScaledSample → Json
  | .scaled scalingFactor sample => .numberFloat (scalingFactor * sample)
  | .float bits => floatOfBits bits

/-- The object of one channel. -/
def channelObject (w : Surroundings) (data : List (List ScaledSample)) (i : Nat) :
    Exec Failure ScopeEndpoints Json := do
  let samples ← index data i
  pure (.object [("channel", .numberUnsigned i),
    ("data", .array (samples.map (sampleValue w.floatOfBits)))])

/-- The channels that are on. Without data there are none. -/
def readData (w : Surroundings) : Exec Failure ScopeEndpoints (List Json) :=
  match w.scopeData with
  | none => pure []
  | some rawData => do
    let data ← onSamples (shuntData rawData)
    let status ← Exec.gets (·.channelStatus)
    ((List.range nChannels).filter fun i : Nat => status i).mapM (channelObject w data)

/-- The first six factors are logged. -/
def setScalingFactors (sf : List ℚ) : Exec Failure ScopeEndpoints Unit := do
  Exec.throwIf (sf.length < 6) (.undefined .vectorIndex)
  modify fun s => { s with scalingFactors := sf }

/-- The channels that are on. -/
def setChannelStatus (status : Int → Bool) : Exec Failure ScopeEndpoints Unit :=
  modify fun s => { s with channelStatus := status }

/-- The text of a status word. -/
def acquisitionStatus : Nat → String
  | 0 => "wait"
  | 1 => "run"
  | 2 => "stop"
  | 3 => "free run"
  | _ => "unknown"

/-- The status of the acquisition, once the scope has an address. -/
def getAcquisitionStatus (random : Nat) : Exec Failure ScopeEndpoints String := do
  let base ← Exec.gets (·.scopeBaseAddress)
  if base = 0 then pure "not present"
  else do
    let res ← onBridge
      (FpgaBridge.readDirect random (base + internalBase + ScopeInt.trgRearmStatus))
    pure (acquisitionStatus res)

/-- The code of an edge. Any other text counts as a rising one. -/
def trgMode (triggerMode : String) : Nat :=
  if triggerMode = "rising_edge" then 0
  else if triggerMode = "falling_edge" then 1
  else if triggerMode = "both" then 2
  else 0

/-- The code of a mode. Any other text counts as continuous. -/
def acqMode (mode : String) : Nat :=
  if mode = "continuous" then 0
  else if mode = "single" then 1
  else if mode = "free_running" then 2
  else 0

/-- The registers and their values, in the order in which they are written. Both types of level
give the bits of the level. -/
def acquisitionWrites (pl : Platform) (base : Nat) (data : AcquisitionMetadata) :
    List (Nat × Nat) :=
  let scopeInternalAddr := base + internalBase
  [(scopeInternalAddr + ScopeInt.trgMode, trgMode data.triggerMode),
    (scopeInternalAddr + ScopeInt.trgSrc, sub32 data.triggerSource 1),
    (scopeInternalAddr + ScopeInt.trgLvl, pl.floatToUint32 data.triggerLevel),
    (scopeInternalAddr + ScopeInt.acqMode, acqMode data.mode),
    (scopeInternalAddr + ScopeInt.trgPoint, data.triggerPoint)] ++
  if data.prescaler > 2 then
    [(base + tbBase + Tb.ctrl, 1), (base + tbBase + Tb.period, data.prescaler),
      (base + tbBase + Tb.threshold, 1)]
  else []

/-- The writes of an acquisition, once the scope has an address. -/
def setAcquisition (pl : Platform) (data : AcquisitionMetadata) :
    Exec Failure ScopeEndpoints Unit := do
  let base ← Exec.gets (·.scopeBaseAddress)
  Exec.when (base ≠ 0) <| forM (acquisitionWrites pl base data) fun write =>
    onBridge (FpgaBridge.writeDirect write.1 write.2)

/-- The register of the buffer gets the address of the DMA buffer. -/
def setScopeAddress (w : Surroundings) (addr bufferOffset : Nat) :
    Exec Failure ScopeEndpoints Unit := do
  onBridge (FpgaBridge.setScopeData w.devices.ifDict w.bufferAddress (addr + bufferOffset))
  modify fun s => { s with scopeBaseAddress := addr }

/-- The first call only clears a flag. -/
def disableDma (status : Bool) : Exec Failure ScopeEndpoints Unit := do
  if ← Exec.gets (·.firstLoad) then modify fun s => { s with firstLoad := false }
  else do
    let base ← Exec.gets (·.scopeBaseAddress)
    let writeAddr := u64 (base + muxBase + Mux.ctrl)
    Exec.when (writeAddr ≠ 0) (onBridge (FpgaBridge.writeDirect writeAddr status.toNat))

/-! ## The commands -/

/-- The samples of the channels that are on. -/
def processReadData (w : Surroundings) : Exec Failure ScopeEndpoints Response := do
  let respData ← readData w
  pure { responseCode := .ok, data := some (.array respData) }

/-- The factors of the channels, from a list of numbers that has at least one. -/
def processSetScalingFactors (arguments : Json) : Exec Failure ScopeEndpoints Response :=
  match arguments with
  | .array elements =>
    if elements = [] then
      pure (.refused .invalidArg ("DRIVER ERROR: The arguments for the set scaling factor " ++
        "command can not be an empty array\n"))
    else if ∃ el ∈ elements, el.number? = none then
      pure (.refused .invalidArg ("DRIVER ERROR: The arguments for the set scaling factor " ++
        "command must be numeric values\n"))
    else do
      let sfs ← arguments.get (Json.vector? Json.float?)
      setScalingFactors sfs
      pure { responseCode := .ok }
  | _ => pure (.refused .invalidArg
      "DRIVER ERROR: The argument for the set scaling factor command must be an array\n")

/-- `status[std::stoi(item.key())] = item.value()` for every item. -/
def channelStatuses : (Int → Bool) → List (String × Json) →
    Exec Failure ScopeEndpoints (Int → Bool)
  | status, [] => pure status
  | status, (key, value) :: items => do
    let channel ← Exec.require (stoi key) .logicError
    let on ← value.get Json.bool?
    channelStatuses (Function.update status channel on) items

/-- The channels that are on, by their numbers as texts. -/
def processSetChannelStatus (arguments : Json) : Exec Failure ScopeEndpoints Response :=
  match arguments with
  | .object items => do
    let status ← channelStatuses (fun _ => false) items
    setChannelStatus status
    pure { responseCode := .ok }
  | _ => pure (.refused .invalidArg ("DRIVER ERROR: The argument for the set channel status " ++
      "command must be an array of objects\n"))

/-- The text of the status. -/
def processGetAcquisitionStatus (w : Surroundings) : Exec Failure ScopeEndpoints Response := do
  let status ← getAcquisitionStatus w.random
  pure { responseCode := .ok, data := some (.string status) }

/-- The value behind a key, converted. -/
def read {σ α : Type} (arguments : Json) (key : String) (as : Json → Option α) :
    Exec Failure σ α := do
  let value ← arguments.atOrNull key
  value.get as

/-- The refusal of arguments with a missing key is followed by the reads. -/
def processSetAcquisition (pl : Platform) (arguments : Json) :
    Exec Failure ScopeEndpoints Response := do
  let missing := ["trigger", "level", "source", "mode", "level_type", "trigger_point",
    "prescaler"].any fun key => (arguments.find? key).isNone
  let refusal := if missing then
    some (.string "DRIVER ERROR: Wrong arguments for set acquisition command\n") else none
  let triggerLevel ← read arguments "level" Json.float?
  let triggerSource ← read arguments "source" (Json.uint32? pl)
  let mode ← read arguments "mode" Json.text?
  let levelType ← read arguments "level_type" Json.text?
  let triggerMode ← read arguments "trigger" Json.text?
  let triggerPoint ← read arguments "trigger_point" (Json.uint32? pl)
  let prescaler ← read arguments "prescaler" (Json.uint32? pl)
  setAcquisition pl ⟨mode, triggerMode, triggerSource, triggerLevel, levelType, triggerPoint,
    prescaler⟩
  pure { responseCode := .ok, data := refusal }

/-- An address is unsigned, or a floating-point value that is one. -/
def isScopeAddress (pl : Platform) : Json → Bool
  | .numberUnsigned _ => true
  | .numberFloat rawAddr =>
    let roundedAddr := pl.toUint64 (roundAway rawAddr)
    (⌈rawAddr⌉ : ℚ) = roundedAddr && (⌊rawAddr⌋ : ℚ) = rawAddr
  | _ => false

/-- A missing address is null from the first access on. -/
def processSetScopeAddress (w : Surroundings) (arguments : Json) :
    Exec Failure ScopeEndpoints Response := do
  let address ← arguments.atOrNull "address"
  match address with
  | .null => pure { responseCode := .ok }
  | address => do
    let offset ← arguments.atOrNull "dma_buffer_offset"
    match isScopeAddress w.env.platform address, offset with
    | true, .numberUnsigned bufferOffset => do
      let addr ← address.get (Json.uint64? w.env.platform)
      setScopeAddress w addr (u64 bufferOffset)
      pure { responseCode := .ok }
    | _, _ => pure (.refused .invalidArg
        ("DRIVER ERROR: The scope address and dma buffer offset " ++
          "values must be an unsigned integers\n"))

/-- The DMA is switched off or on. -/
def processDisableDma (arguments : Json) : Exec Failure ScopeEndpoints Response := do
  let status ← read arguments "status" Json.bool?
  disableDma status
  pure { responseCode := .ok }

/-- The table of the scope commands. -/
def processCommand (w : Surroundings) (commandString : String) (arguments : Json) :
    Exec Failure ScopeEndpoints Response :=
  if commandString = "read_data" then processReadData w
  else if commandString = "set_scaling_factors" then processSetScalingFactors arguments
  else if commandString = "disable_scope_dma" then processDisableDma arguments
  else if commandString = "set_channel_status" then processSetChannelStatus arguments
  else if commandString = "get_acquisition_status" then processGetAcquisitionStatus w
  else if commandString = "set_acquisition" then processSetAcquisition w.env.platform arguments
  else if commandString = "set_scope_address" then processSetScopeAddress w arguments
  else pure .unexpected

end ScopeEndpoints

end UscopeDriver
