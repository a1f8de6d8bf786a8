import UscopeDriver.Bridge
import UscopeDriver.Toolchain
import UscopeDriver.LogicLayout

/-!
# The deployer base

What the deployers share : the writes that set up one core, one interconnect entry, one memory
or one input, and the state these leave behind. `ivs` and `inputs` survive from one deployment
to the next. The maps that are only looked up are functions, the two that are printed are
ordered maps.
-/

namespace UscopeDriver

/-- What a live update of an input needs to know : the engine with its selector, the destination and
how the value is encoded. -/
structure InputMetadata where
  core : String
  name : String
  constIpAddr : Nat × Nat
  channel : Nat
  dest : Nat
  isFloat : Bool
  deriving DecidableEq, Repr

/-- Where a test bench finds an input. -/
structure TbInputAddresses where
  peripheral : Nat
  destination : Nat
  selector : Nat
  coreIdx : Nat
  deriving DecidableEq, Repr

/-- An address of the interconnect with its channel. -/
structure BusAddress where
  address : Nat
  channel : Nat
  deriving DecidableEq, Repr

/-- The output that a client selects. -/
structure OutputSpecs where
  coreName : String
  sourceOutput : String
  channel : Nat
  deriving DecidableEq, Repr

/-- What the two deployers share. -/
structure DeployerBase where
  hw : FpgaBridge
  addresses : LogicLayout
  ivs : String → String → Option (List Nat)
  activeRandomInputs : Nat
  activeWaveforms : Nat
  hilClockFrequency : {f : ℚ // 0 < f}
  timebaseFrequency : Int
  busMap : List DeployerInterconnectSlot
  busLabels : Std.TreeMap Nat String
  inputsLabels : Std.TreeMap String TbInputAddresses
  inputs : List InputMetadata

/-- The word of the value in a constant engine. -/
def constLsb : Nat := 0

/-- The word of its destination. -/
def constDest : Nat := 0x8

/-- The word of its selector. -/
def constSelector : Nat := 0xC

namespace SquareWaveGen

/-! The registers of a waveform generator. -/

/-- The number of channels that are running. -/
def activeChannels : Nat := 0x0

/-- The shapes of the channels. -/
def shapeSelector : Nat := 0x4

/-- The channel that the words below are for. -/
def channelSelector : Nat := 0x8

/-- The value while the wave is on. -/
def vOn : Nat := 0xC

/-- The value while it is off. -/
def vOff : Nat := 0x10

/-- The clocks before the first rise. -/
def tDelay : Nat := 0x14

/-- The clocks for which it is on. -/
def tOn : Nat := 0x18

/-- The clocks of a period. -/
def period : Nat := 0x1C

/-- The destination of the samples. -/
def destOut : Nat := 0x20

/-- The user field of the samples. -/
def userOut : Nat := 0x24

end SquareWaveGen

/-- `ret` of `get_metadata_value`, whose `size` is a `uint8_t`. -/
def getMetadataValue (size : Nat) (isSigned isFloat : Bool) : Nat :=
  let ret := sub32 (u8 size) 8
  let ret := if isSigned then ret ||| 0x10 else ret
  if isFloat then ret ||| 0x20 else ret

/-- `name.substr(0, name.find_last_of('['))` -/
def substrToLastBracket (name : String) : String :=
  if '[' ∈ name.toList then
    String.ofList ((name.toList.reverse.dropWhile (· ≠ '[')).drop 1).reverse
  else name

/-- The first entry of the bus map for an output. -/
def translateOutput {σ : Type} (busMap : List DeployerInterconnectSlot) (out : OutputSpecs) :
    Exec Failure σ BusAddress := do
  let e ← Exec.require
    (busMap.find? fun e => e.sourceId = out.coreName ∧ e.sourceName = out.sourceOutput ∧
      e.sourceChannel.toNat = out.channel)
    (.runtimeError ("Unable to find requested output: " ++ out.coreName ++ "." ++
      out.sourceOutput ++ "[" ++ toString out.channel ++ "]"))
  pure ⟨e.destinationBusAddress.toNat, e.destinationChannel.toNat⟩

namespace DeployerBase

/-- A call on the bridge. -/
def onBridge {α : Type} (m : Exec Failure FpgaBridge α) : Exec Failure DeployerBase α :=
  Exec.zoom (·.hw) (fun hw s => { s with hw := hw }) m

/-- The layout is read from a map. A map that ends in an error leaves the addresses before it
assigned. -/
def setLayoutMap (pl : Platform) (obj : Json) : Exec Failure DeployerBase Unit :=
  Exec.zoom (·.addresses) (fun l s => { s with addresses := l })
    (LogicLayout.parseLayoutObject pl obj)

/-- The map that describes the layout. -/
def getLayoutMap : Exec Failure DeployerBase Json :=
  Exec.gets fun s => LogicLayout.dumpLayoutObject s.addresses

/-- The JSON object that `write_register` passes on. -/
def writeObject (addr val : Nat) : Json :=
  .object [("address", .numberUnsigned (u64 addr)), ("type", .string "direct"),
    ("value", .numberUnsigned (u32 val))]

/-- A register write as all stages make it, through the object of the command. -/
def writeRegister (pl : Platform) (addr val : Nat) : Exec Failure DeployerBase Unit :=
  onBridge (FpgaBridge.singleWriteRegister pl (writeObject addr val))

/-- A program goes to the ROM of a core. -/
def loadCore (address : Nat) (program : List UInt32) : Exec Failure DeployerBase Unit :=
  onBridge (FpgaBridge.applyProgram address (program.map (·.toNat)))

/-- A core is told its channels. -/
def setupCore (pl : Platform) (coreAddress nChannels : Nat) : Exec Failure DeployerBase Unit :=
  writeRegister pl coreAddress nChannels

/-! ## Interconnects -/

/-- The half of a mapping word for the source, with a channel of four bits. -/
def sourcePortion (e : DeployerInterconnectSlot) : Nat :=
  u16 ((e.sourceIoAddress.toNat &&& 0xFFF) ||| ((e.sourceChannel.toNat &&& 0xF) <<< 12))

/-- The half of a mapping word for the destination. -/
def destinationPortion (e : DeployerInterconnectSlot) : Nat :=
  u16 ((e.destinationBusAddress.toNat &&& 0xFFF) ||| ((e.destinationChannel.toNat &&& 0xF) <<< 12))

/-- The mapping word of an entry. -/
def mapping (e : DeployerInterconnectSlot) : Nat :=
  u32 (destinationPortion e <<< 16) ||| sourcePortion e

/-- The key of an entry in the bus labels. -/
def busDest (e : DeployerInterconnectSlot) : Nat :=
  (e.destinationBusAddress.toNat &&& 0xFFF) ||| ((e.destinationChannel.toNat &&& 0xF) <<< 16)

/-- The name of an output, with its channel where the core has several. -/
def signalName (e : DeployerInterconnectSlot) (nChannels : Nat) : String :=
  if nChannels = 1 then e.sourceId ++ "." ++ e.sourceName
  else e.sourceId ++ "." ++ e.sourceName ++ "[" ++ toString e.sourceChannel.toNat ++ "]"

/-- The register of the mapping of an entry. -/
def mappingAddress (dmaAddress ioProgressive : Nat) : Nat :=
  dmaAddress + 3 * 4 + u32 (ioProgressive * 4)

/-- The register of the metadata of an entry. -/
def metadataAddress (dmaAddress ioProgressive : Nat) : Nat :=
  dmaAddress + 4 * (16 + 3) + u32 (ioProgressive * 4)

/-- The metadata word of an entry. A `float` is 32 bits and signed. -/
def metadataValue (e : DeployerInterconnectSlot) : Nat :=
  match e.metadata.type with
  | .typeFloat => getMetadataValue 32 true true
  | .typeInteger => getMetadataValue e.metadata.width.toNat e.metadata.isSigned false

/-- The initial value of an entry, if its source has any. -/
def fillInitialValue (pl : Platform) (dmaAddress ioProgressive sourceChannel : Nat) :
    Option (List Nat) → Exec Failure DeployerBase Unit
  | none => pure ()
  | some iv => do
    writeRegister pl (dmaAddress + 8) ioProgressive
    let value ← index iv sourceChannel .initialValue
    writeRegister pl (dmaAddress + 4) value

/-- One entry of a DMA : its checks, its mapping, its initial value and its metadata. -/
def setupOutputEntry (pl : Platform) (e : DeployerInterconnectSlot)
    (dmaAddress ioProgressive nChannels : Nat) : Exec Failure DeployerBase Unit := do
  Exec.throwIf (e.sourceIoAddress > 0xFFF)
    (.runtimeError "The maximum source address in an interconnect is 0xFFF")
  Exec.throwIf (e.destinationBusAddress > 0xFFF)
    (.runtimeError "The maximum destination address in an interconnect is 0xFFF")
  Exec.throwIf (e.sourceChannel > 0xF)
    (.runtimeError "The maximum number source of channels in an interconnect is 16")
  Exec.throwIf (e.destinationChannel > 0xF)
    (.runtimeError "The maximum number destination of channels in an interconnect is 16")
  writeRegister pl (mappingAddress dmaAddress ioProgressive) (mapping e)
  modify fun s => { s with busLabels := s.busLabels.insert (busDest e) (signalName e nChannels) }
  let iv ← Exec.gets (·.ivs e.sourceId e.sourceName)
  fillInitialValue pl dmaAddress ioProgressive e.sourceChannel.toNat iv
  writeRegister pl (metadataAddress dmaAddress ioProgressive) (metadataValue e)

/-- The entries of one core, in the order of the bus map. Their number goes to the first
register of the DMA. -/
def setupOutputDma (pl : Platform) (address : Nat) (coreName : String) (nChannels : Nat) :
    Exec Failure DeployerBase Nat := do
  let entries ← Exec.gets (·.busMap.filter (·.sourceId = coreName))
  forM entries.zipIdx fun (e, currentIo) => setupOutputEntry pl e address currentIo nChannels
  writeRegister pl address entries.length
  pure (u16 entries.length)

/-! ## Memories -/

/-- The register of channel `i` of a memory. -/
def memoryChannelAddress (baseAddress address i : Nat) : Nat :=
  baseAddress + u32 (u32 ((address &&& 0xFF) + (i <<< 8)) * 4)

/-- One word per channel when there are as many, otherwise the first word only. -/
def setupMemory (pl : Platform) (baseAddress nChannels : Nat) (m : MemoryInitValue) :
    Exec Failure DeployerBase Unit :=
  if m.value.toWords.length = nChannels then
    forM m.value.toWords.zipIdx fun (v, i) => do
      let address ← index m.address 0
      writeRegister pl (memoryChannelAddress baseAddress address.toNat i) v.toNat
  else do
    let v ← index m.value.toWords 0
    let address ← index m.address 0
    writeRegister pl (baseAddress + u32 (address.toNat * 4)) v.toNat

/-- The initial values of the memories of a core. -/
def setupMemories (pl : Platform) (baseAddress : Nat) (initValues : List MemoryInitValue)
    (nChannels : Nat) : Exec Failure DeployerBase Unit :=
  forM initValues (setupMemory pl baseAddress nChannels)

/-! ## Inputs -/

/-- The generator of square waves, the only shape there is. -/
def setupWaveform (pl : Platform) (address : Nat) (dest : Nat) :
    WaveformParameters → Exec Failure DeployerBase Unit
  | .square p => do
    let clock ← Exec.gets (·.hilClockFrequency)
    let channel := (0xFFF0000 &&& dest) >>> 16
    let period ← index p.period channel
    let tOn ← index p.tOn channel
    let tDelay ← index p.tDelay channel
    let activeWaveforms ← Exec.gets (·.activeWaveforms)
    writeRegister pl (address + SquareWaveGen.channelSelector) activeWaveforms
    let vOn ← index p.vOn channel
    writeRegister pl (address + SquareWaveGen.vOn) vOn.toNat
    let vOff ← index p.vOff channel
    writeRegister pl (address + SquareWaveGen.vOff) vOff.toNat
    writeRegister pl (address + SquareWaveGen.tDelay) (pl.toUint64 (pl.mulFloat tDelay clock))
    writeRegister pl (address + SquareWaveGen.tOn) (pl.toUint64 (pl.mulFloat tOn clock))
    writeRegister pl (address + SquareWaveGen.period) (pl.toUint64 (pl.mulFloat period clock))
    writeRegister pl (address + SquareWaveGen.destOut) dest
    writeRegister pl (address + SquareWaveGen.shapeSelector) 0
    writeRegister pl (address + SquareWaveGen.userOut) (getMetadataValue 32 true true)
    modify fun s => { s with activeWaveforms := u32 (s.activeWaveforms + 1) }
    writeRegister pl (address + SquareWaveGen.activeChannels) (u32 (activeWaveforms + 1))
  | .sine | .triangle => throw (.runtimeError "Not implemented in hardware yet")

/-- The path of an input in the input labels. -/
def inputPath (coreName name : String) (targetChannel : Nat) (isMultichannel : Bool) : String :=
  if isMultichannel then coreName ++ "[" ++ toString targetChannel ++ "]" ++ "." ++ name
  else coreName ++ "." ++ name

/-- The label of a random or waveform input. -/
def generatorLabel (coreName name : String) (targetChannel : Nat) (isMultichannel : Bool) :
    String :=
  if isMultichannel then
    substrToLastBracket coreName ++ "." ++ name ++ "[" ++ toString targetChannel ++ "]"
  else coreName ++ "." ++ name

/-- `in.address[0] + (target_channel<<16)` -/
def inputDestination (address : UInt32) (targetChannel : Nat) : Nat :=
  u32 (address.toNat + u32 (targetChannel <<< 16))

/-- `const_idx + (target_channel<<16)` -/
def inputSelector (constIdx targetChannel : Nat) : Nat :=
  u32 (constIdx + u32 (targetChannel <<< 16))

/-- A constant engine is set up, and the input is recorded for live updates. -/
def setupConstantInput (pl : Platform) (input : DeployedCoreInputs)
    (constIpAddress constIdx targetChannel : Nat) (coreName : String) (isMultichannel : Bool) :
    Exec Failure DeployerBase Unit := do
  let address ← index input.address 0
  let dest := inputDestination address targetChannel
  let selector := inputSelector constIdx targetChannel
  let data ← index input.data 0
  let inputValue ← index data.toWords 0
  modify fun s => { s with
    inputsLabels := s.inputsLabels.insert
      (inputPath coreName input.name targetChannel isMultichannel)
      ⟨u64 (constIpAddress + constLsb), dest, selector, 0⟩ }
  writeRegister pl (constIpAddress + constSelector) selector
  writeRegister pl (constIpAddress + constDest) dest
  writeRegister pl (constIpAddress + constLsb) inputValue.toNat
  modify fun s => { s with
    inputs := s.inputs ++ [{
      core := coreName
      name := input.name
      constIpAddr := (u64 constIpAddress, selector)
      channel := u32 targetChannel
      dest := dest
      isFloat := input.metadata.type = .typeFloat }] }

/-- The next channel of the noise generator gets its destination. -/
def setupRandomInput (pl : Platform) (input : DeployedCoreInputs)
    (ipAddress targetChannel : Nat) (coreName : String) (isMultichannel : Bool) :
    Exec Failure DeployerBase Unit := do
  let address ← index input.address 0
  let dest := inputDestination address targetChannel
  let activeRandomInputs ← Exec.gets (·.activeRandomInputs)
  writeRegister pl (ipAddress + u32 ((activeRandomInputs + 1) * 4)) dest
  modify fun s => { s with
    activeRandomInputs := u32 (s.activeRandomInputs + 1)
    busLabels := s.busLabels.insert dest
      (generatorLabel coreName input.name targetChannel isMultichannel) }

/-- The next channel of the waveform generator is set up. -/
def setupWaveformInput (pl : Platform) (input : DeployedCoreInputs)
    (ipAddress targetChannel : Nat) (coreName : String) (isMultichannel : Bool) :
    Exec Failure DeployerBase Unit := do
  let address ← index input.address 0
  let dest := inputDestination address targetChannel
  modify fun s => { s with
    busLabels := s.busLabels.insert dest
      (generatorLabel coreName input.name targetChannel isMultichannel) }
  setupWaveform pl ipAddress dest input.waveformParameters

/-- An input by its source. -/
def setupInput (pl : Platform) (input : DeployedCoreInputs)
    (constIpAddress constIdx targetChannel : Nat) (coreName : String) (isMultichannel : Bool) :
    Exec Failure DeployerBase Unit :=
  match input.sourceType with
  | .constantInput | .timeSeriesInput =>
    setupConstantInput pl input constIpAddress constIdx targetChannel coreName isMultichannel
  | .randomInput => setupRandomInput pl input constIpAddress targetChannel coreName isMultichannel
  | .waveformInput =>
    setupWaveformInput pl input constIpAddress targetChannel coreName isMultichannel
  | .external => pure ()

/-- The value that reaches the engine. A `float` input gets the bits of the value instead of
its integer part. -/
def liveValue (pl : Platform) (input : InputMetadata) (rawValue : ℚ) : Nat :=
  if input.isFloat then u32 (pl.floatToUint32 rawValue) else pl.toUint32 rawValue

/-- The writes that give a new value to one input. -/
def writeInputValue (pl : Platform) (rawValue : ℚ) (input : InputMetadata) :
    Exec Failure DeployerBase Unit := do
  writeRegister pl (input.constIpAddr.1 + constSelector) input.constIpAddr.2
  writeRegister pl (input.constIpAddr.1 + constDest) input.dest
  writeRegister pl (input.constIpAddr.1 + constLsb) (liveValue pl input rawValue)

/-- Every input of that name, core and channel gets the value. -/
def updateInputValue (pl : Platform) (coreName name : String) (channel : Nat) (rawValue : ℚ) :
    Exec Failure DeployerBase Unit := do
  let inputs ← Exec.gets (·.inputs)
  forM (inputs.filter fun i => i.name = name ∧ i.core = coreName ∧ i.channel = u16 channel)
    (writeInputValue pl rawValue)

end DeployerBase

end UscopeDriver
