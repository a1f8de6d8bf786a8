import UscopeDriver.DeployerBase
import Mathlib.Data.List.Sort

/-!
# The HIL deployer

`deploy` turns a specification into register writes and program loads in a fixed order :
programs, output DMAs, memories, inputs, sequencer, cores. `get_hardware_sim_data` prints the
log of the last deployment, or of a deployment on a muted bus when the hash of the
specification is not the stored one. What the driver takes from its surroundings is an
`Environment`.
-/

namespace UscopeDriver

/-- What the shift of a program is calculated from. -/
structure ShiftCalcData where
  name : String
  executionOrder : Nat
  programLength : Nat
  deriving DecidableEq, Repr

/-- `std::ranges::sort` by execution order : any sorted permutation, it is not stable. -/
structure ExecutionOrderSort where
  sort : List ShiftCalcData → List ShiftCalcData
  perm : ∀ l, (sort l).Perm l
  sorted : ∀ l, (sort l).Pairwise fun a b => a.executionOrder ≤ b.executionOrder

/-- Insertion sort is one such sort. -/
def ExecutionOrderSort.insertion : ExecutionOrderSort where
  sort := List.insertionSort fun a b => a.executionOrder ≤ b.executionOrder
  perm := List.perm_insertionSort _
  sorted := fun l => by
    have htotal : Std.Total fun a b : ShiftCalcData => a.executionOrder ≤ b.executionOrder :=
      ⟨fun a b => le_total a.executionOrder b.executionOrder⟩
    have htrans : IsTrans ShiftCalcData fun a b => a.executionOrder ≤ b.executionOrder :=
      ⟨fun _ _ _ => le_trans⟩
    exact List.pairwise_insertionSort _ l

/-- The surroundings of the driver : the machine, the toolchain, the hash of specifications
and the sort of the standard library. -/
structure Environment (Spec : Type) where
  platform : Platform
  isa : FcoreIsa
  dispatcher : Spec → EmulatorDispatcher
  hash : Spec → Nat
  sort : ExecutionOrderSort

/-- Surroundings with a given toolchain and hash. -/
def Environment.of {Spec : Type} (dispatcher : Spec → EmulatorDispatcher) (hash : Spec → Nat) :
    Environment Spec where
  platform := .zeros
  isa := ⟨5, 12, 15⟩
  dispatcher := dispatcher
  hash := hash
  sort := .insertion

/-- The deployer of the HIL logic, with the specification it holds and the tables of its cores. -/
structure HilDeployer extends DeployerBase where
  deployedHash : Nat
  coresIdx : String → Nat
  minTimebase : Nat
  nChannels : String → Nat
  executionOrder : String → Nat
  timebaseDivider : {d : ℚ // 1 ≤ d}
  fullCoresOverride : Bool

/-- The texts for a simulation of the hardware. -/
structure HardwareSimData where
  code : String
  control : String
  outputs : String
  inputs : String
  deriving DecidableEq, Repr

namespace HilDeployer

/-- The deployer as constructed. -/
def construct (hw : FpgaBridge) (addresses : LogicLayout)
    (hilClockFrequency : {f : ℚ // 0 < f}) : HilDeployer where
  hw := hw
  addresses := addresses
  ivs := fun _ _ => none
  activeRandomInputs := 0
  activeWaveforms := 0
  hilClockFrequency := hilClockFrequency
  timebaseFrequency := 0
  busMap := []
  busLabels := ∅
  inputsLabels := ∅
  inputs := []
  deployedHash := 0
  coresIdx := fun _ => 0
  minTimebase := 0
  nChannels := fun _ => 0
  executionOrder := fun _ => 0
  timebaseDivider := ⟨1, le_refl 1⟩
  fullCoresOverride := true

/-- A deployer as in the tests : an empty bus, a loaded bitstream and a clock of 100 MHz. -/
def fresh : HilDeployer :=
  construct ⟨.zynqmp, true⟩ .addrMapV2 ⟨100000000, by norm_num⟩

/-- A call on the base. -/
def base {α : Type} (m : Exec Failure DeployerBase α) : Exec Failure HilDeployer α :=
  Exec.zoom (·.toDeployerBase) (fun b s => { s with toDeployerBase := b }) m

/-- A register write of the base. -/
def writeRegister (pl : Platform) (addr val : Nat) : Exec Failure HilDeployer Unit :=
  base (DeployerBase.writeRegister pl addr val)

/-! ## Programs -/

/-- The scan of `check_reciprocal` from the third section on : an instruction after a load of a
constant is that constant. -/
def reciprocalInCode (isa : FcoreIsa) : Bool → List UInt32 → Bool
  | _, [] => false
  | true, _ :: code => reciprocalInCode isa false code
  | false, instr :: code =>
    let opcode := instr.toNat &&& ((1 <<< isa.opcodeWidth) - 1)
    opcode = isa.opcodeRec.toNat || reciprocalInCode isa (opcode = isa.opcodeLdc.toNat) code

/-- The whole scan, with the number of sections still to skip. -/
def reciprocalPresent (isa : FcoreIsa) : Nat → List UInt32 → Bool
  | 0, code => reciprocalInCode isa false code
  | _ + 1, [] => false
  | sections + 1, instr :: code =>
    reciprocalPresent isa (if instr = 0xC then sections else sections + 1) code

/-- The number of channels, set by the pipeline length of the processor. -/
def checkReciprocal (isa : FcoreIsa) (fullCoresOverride : Bool) (program : List UInt32) : Nat :=
  if reciprocalPresent isa 2 program || fullCoresOverride then 11 else 8

/-- The first loop of `deploy`, for one program. -/
def setupProgram (isa : FcoreIsa) (p : DeployedProgram) : Exec Failure HilDeployer Unit := do
  let addresses ← Exec.gets (·.addresses)
  let coreAddress := addresses.bases.coresRom + p.index.toNat * addresses.offsets.coresRom
  modify fun s => { s with
    coresIdx := Function.update s.coresIdx p.name p.index.toNat
    executionOrder := Function.update s.executionOrder p.name p.order.toNat }
  base (DeployerBase.loadCore coreAddress p.binary)
  modify fun s => { s with
    nChannels := Function.update s.nChannels p.name
      (checkReciprocal isa s.fullCoresOverride p.binary) }

/-! ## The timebase -/

/-- `std::lcm` on `uint32_t`. -/
def stdLcm {σ : Type} (a b : Nat) : Exec Failure σ Nat := do
  Exec.throwIf (2 ^ 32 ≤ a.lcm b) (.undefined .lcm)
  pure (a.lcm b)

/-- The fold over the frequencies. Its accumulator is an `int`. -/
def accumulateLcm {σ : Type} : Int → List Nat → Exec Failure σ Int
  | acc, [] => pure acc
  | acc, f :: frequencies => do
    let l ← stdLcm (acc % 2 ^ 32).toNat f
    accumulateLcm (int32 l) frequencies

/-- `fixed_portion + n_channels[p.name]*per_channel_portion` -/
def programLength (nChannels : String → Nat) (p : DeployedProgram) : Nat :=
  u32 (p.programLength.fixedPortion.toNat +
    u32 (nChannels p.name * p.programLength.perChannelPortion.toNat))

/-- Below `timebase / maxFrequency` the divider is below its ceiling. -/
theorem raiseDivider_measure {timebase maxFrequency divider : ℚ} (hm : 0 < maxFrequency)
    (hd : 1 ≤ divider) (h : timebase / divider > maxFrequency) :
    ⌈timebase / maxFrequency - (divider + 1)⌉.toNat <
      ⌈timebase / maxFrequency - divider⌉.toNat := by
  have hlt : divider < timebase / maxFrequency := by
    rw [lt_div_iff₀ hm]
    rw [gt_iff_lt, lt_div_iff₀ (by linarith)] at h
    linarith
  have hstep : ⌈timebase / maxFrequency - (divider + 1)⌉ =
      ⌈timebase / maxFrequency - divider⌉ - 1 := by
    rw [← sub_sub, Int.ceil_sub_one]
  have hpos : 0 < ⌈timebase / maxFrequency - divider⌉ := Int.ceil_pos.2 (by linarith)
  omega

/-- The `while` loop : raise the divider until the divided timebase is not too fast. -/
def raiseDivider (timebase : ℚ) (maxFrequency : {m : ℚ // 0 < m}) (divider : {d : ℚ // 1 ≤ d}) :
    {d : ℚ // 1 ≤ d} :=
  if timebase / divider > maxFrequency then
    raiseDivider timebase maxFrequency ⟨divider + 1, le_add_of_le_of_nonneg divider.2 zero_le_one⟩
  else divider
termination_by ⌈timebase / maxFrequency - divider⌉.toNat
decreasing_by exact raiseDivider_measure maxFrequency.2 divider.2 ‹_›

/-- The divider after one program. A program of no length has an infinite maximum frequency. -/
def fitDivider (clock : {f : ℚ // 0 < f}) (timebase : ℚ) (length : Nat)
    (divider : {d : ℚ // 1 ≤ d}) : {d : ℚ // 1 ≤ d} :=
  let totalLength : ℚ := length * (1 / clock)
  if h : 0 < totalLength then raiseDivider timebase ⟨1 / totalLength, one_div_pos.2 h⟩ divider
  else divider

/-- The divider register value of one program, before the sequencer subtracts one. -/
def coreDivider (pl : Platform) (timebaseFrequency : Int) (p : DeployedProgram) : Nat :=
  if p.samplingFrequency = 0 then 1
  else pl.toUint32 timebaseFrequency / p.samplingFrequency.toNat

/-- The side effect of `calculate_timebase_divider` for one program. -/
def fitProgram (p : DeployedProgram) : Exec Failure HilDeployer Unit :=
  Exec.when (p.samplingFrequency ≠ 0) <| modify fun s => { s with
    timebaseDivider := fitDivider s.hilClockFrequency s.timebaseFrequency
      (programLength s.nChannels p) s.timebaseDivider }

/-- The dividers of the cores, once the timebase fits every program. -/
def calculateTimebaseDivider (pl : Platform) (dispatcher : EmulatorDispatcher) :
    Exec Failure HilDeployer (List Nat) := do
  let programs ← callDispatcher dispatcher.getPrograms
  forM programs fitProgram
  let timebaseFrequency ← Exec.gets (·.timebaseFrequency)
  pure (programs.map (coreDivider pl timebaseFrequency))

/-! ## Shifts -/

/-- The clocks between a core and the next one. -/
def interCoreBuffer : Nat := 90

/-- `calc_data_v` before it is sorted. -/
def calcData (s : HilDeployer) (programs : List DeployedProgram) : List ShiftCalcData :=
  programs.map fun p => ⟨p.name, s.executionOrder p.name, programLength s.nChannels p⟩

/-- The shifts from the second program on, by name, from the starting point on. -/
def orderedShifts : Nat → List ShiftCalcData → (String → Nat) → String → Nat
  | _, [], shifts => shifts
  | nextStartingPoint, d :: rest, shifts =>
    orderedShifts (u32 (nextStartingPoint + u32 (d.programLength + interCoreBuffer))) rest
      (Function.update shifts d.name nextStartingPoint)

/-- `min_timebase` after the sorted list. -/
def extendTimebase (minTimebase : Nat) (data : List ShiftCalcData) : Nat :=
  data.foldl (fun acc d => u32 (acc + u32 (d.programLength + interCoreBuffer))) minTimebase

/-- The shifts of the cores in the order of their execution. The timebase is extended to fit
them. -/
def calculateTimebaseShift (sort : ExecutionOrderSort) (dispatcher : EmulatorDispatcher) :
    Exec Failure HilDeployer (List Nat) := do
  let programs ← callDispatcher dispatcher.getPrograms
  let sorted ← Exec.gets fun s => sort.sort (calcData s programs)
  let first ← index sorted 0
  let shifts := orderedShifts (u32 (first.programLength + 2 + interCoreBuffer)) sorted.tail
    (Function.update (fun _ => 0) first.name 2)
  modify fun s => { s with minTimebase := extendTimebase s.minTimebase sorted }
  pure (programs.map fun p => shifts p.name)

/-! ## Interconnect initial values -/

/-- The first word of a data entry. -/
def firstWord {σ : Type} (data : InitialData) : Exec Failure σ Nat := do
  let word ← index data.toWords 0
  pure word.toNat

/-- The words of all entries of a list of data. -/
def firstWords {σ : Type} : List InitialData → Exec Failure σ (List Nat)
  | [] => pure []
  | data :: rest => do
    let word ← firstWord data
    let words ← firstWords rest
    pure (word :: words)

/-- The words for an input : a single entry is repeated for each channel. -/
def initialWords {σ : Type} (p : DeployedProgram) (input : DeployedCoreInputs) :
    Exec Failure σ (List Nat) :=
  if input.data.length = 1 ∧ p.nChannels > 1 then
    firstWords (input.data.flatMap (List.replicate p.nChannels.toNat))
  else firstWords input.data

/-- The initial value of one input, stored under the source of the slot. -/
def storeInitialValue (slot : DeployerInterconnectSlot) (p : DeployedProgram)
    (input : DeployedCoreInputs) : Exec Failure HilDeployer Unit := do
  let data ← initialWords p input
  modify fun s => { s with
    ivs := Function.update s.ivs slot.sourceId
      (Function.update (s.ivs slot.sourceId) slot.sourceName (some data)) }

/-- The three nested loops, each with its test on the names. -/
def setupInterconnectIv (dispatcher : EmulatorDispatcher) (programs : List DeployedProgram) :
    Exec Failure HilDeployer Unit := do
  let slots ← callDispatcher dispatcher.getInterconnectSlots
  forM slots fun slot =>
    forM (programs.filter (·.name = slot.destinationId)) fun p =>
      forM (p.inputs.filter (·.name = slot.destinationName)) fun input =>
        storeInitialValue slot p input

/-! ## Cores, DMAs and memories -/

/-- The base address of the control registers of a core. -/
def controlAddress (addresses : LogicLayout) (index : Nat) : Nat :=
  u64 (addresses.bases.coresControl + addresses.offsets.coresControl * index)

/-- The DMA of a program. -/
def setupProgramDma (pl : Platform) (p : DeployedProgram) : Exec Failure HilDeployer Unit := do
  let addresses ← Exec.gets (·.addresses)
  let i ← Exec.gets (·.coresIdx p.name)
  let dmaAddress := u64 (controlAddress addresses i + addresses.offsets.dma)
  let _ ← base (DeployerBase.setupOutputDma pl dmaAddress p.name p.nChannels.toNat)

/-- The memories of a program. -/
def setupProgramMemories (pl : Platform) (memories : String → List MemoryInitValue)
    (p : DeployedProgram) : Exec Failure HilDeployer Unit := do
  let addresses ← Exec.gets (·.addresses)
  let i ← Exec.gets (·.coresIdx p.name)
  base (DeployerBase.setupMemories pl (controlAddress addresses i) (memories p.name)
    p.nChannels.toNat)

/-- The core of a program is told its channels. -/
def setupProgramCore (pl : Platform) (p : DeployedProgram) : Exec Failure HilDeployer Unit := do
  let addresses ← Exec.gets (·.addresses)
  let n ← Exec.gets (·.nChannels p.name)
  base (DeployerBase.setupCore pl (controlAddress addresses p.index.toNat) n)

/-- The last stage : all cores are told their channels. -/
def setupCores (pl : Platform) (programs : List DeployedProgram) : Exec Failure HilDeployer Unit :=
  forM programs (setupProgramCore pl)

/-! ## Inputs -/

/-- `p.name[j]` -/
def channelName (p : DeployedProgram) (j : Nat) : String :=
  p.name ++ "[" ++ toString j ++ "]"

/-- The core index of an input label, if the label is there. -/
def labelCore (p : DeployedProgram) (path : String) : Exec Failure HilDeployer Unit :=
  modify fun s => { s with
    inputsLabels := s.inputsLabels.modify path fun tb => { tb with coreIdx := p.index.toNat } }

/-- The engine of an input by its source : the generators are shared, a core has its own constant
engine. -/
def inputIpAddress (addresses : LogicLayout) (p : DeployedProgram) : SourceType → Nat
  | .randomInput => addresses.bases.noiseGenerator
  | .waveformInput => addresses.bases.waveformGenerator
  | _ => u64 (controlAddress addresses p.index.toNat + addresses.bases.coresInputs)

/-- One channel of a constant or time series input, and its label. -/
def setupInputChannel (pl : Platform) (p : DeployedProgram) (input : DeployedCoreInputs)
    (ipAddr inputProgressive j : Nat) : Exec Failure HilDeployer Unit := do
  base (DeployerBase.setupInput pl input ipAddr inputProgressive j p.name true)
  labelCore p (channelName p j ++ "." ++ input.name)

/-- The last value of a loop variable that names the channels below `n`. -/
def lastChannelName (p : DeployedProgram) (n : Nat) : String :=
  if n = 0 then "" else channelName p (n - 1)

/-- The channels of an input of a program with several. It returns the last value of
`core_name`. The first entry of the data is dropped after each channel that has one. -/
def setupMultichannelInput (pl : Platform) (p : DeployedProgram) (input : DeployedCoreInputs)
    (ipAddr inputProgressive : Nat) : Exec Failure HilDeployer String :=
  if input.data.length > 1 then do
    forM (List.range input.data.length) fun j =>
      setupInputChannel pl p { input with data := input.data.drop j } ipAddr inputProgressive j
    pure (lastChannelName p input.data.length)
  else match input.sourceType with
    | .randomInput | .waveformInput => do
      forM (List.range p.nChannels.toNat) fun j =>
        base (DeployerBase.setupInput pl input ipAddr inputProgressive j p.name true)
      pure (lastChannelName p p.nChannels.toNat)
    | .constantInput | .timeSeriesInput =>
      if input.data.length = 1 then do
        forM (List.range p.nChannels.toNat) (setupInputChannel pl p input ipAddr inputProgressive)
        pure (lastChannelName p p.nChannels.toNat)
      else pure ""
    | .external => pure ""

/-- One input of a program. -/
def setupProgramInput (pl : Platform) (p : DeployedProgram) (inputProgressive : Nat)
    (input : DeployedCoreInputs) : Exec Failure HilDeployer Unit := do
  let addresses ← Exec.gets (·.addresses)
  let ipAddr := inputIpAddress addresses p input.sourceType
  if p.nChannels > 1 then
    let coreName ← setupMultichannelInput pl p input ipAddr inputProgressive
    labelCore p (coreName ++ "." ++ input.name)
  else
    base (DeployerBase.setupInput pl input ipAddr inputProgressive 0 p.name false)
    labelCore p (p.name ++ "." ++ input.name)

/-- The inputs of a program. The progressive counts its constant and time series inputs. -/
def setupProgramInputs (pl : Platform) (p : DeployedProgram) :
    Nat → List DeployedCoreInputs → Exec Failure HilDeployer Unit
  | _, [] => pure ()
  | inputProgressive, input :: rest => do
    setupProgramInput pl p inputProgressive input
    setupProgramInputs pl p
      (if input.sourceType.IsConstant then inputProgressive + 1 else inputProgressive) rest

/-- The noise generator is told how many random inputs there are. -/
def enableRandomInputs (pl : Platform) : Exec Failure HilDeployer Unit := do
  let addresses ← Exec.gets (·.addresses)
  let activeRandomInputs ← Exec.gets (·.activeRandomInputs)
  Exec.when (activeRandomInputs > 0)
    (writeRegister pl addresses.bases.noiseGenerator activeRandomInputs)

/-- The inputs of a program. The number of random inputs is written after each program. -/
def setupInputsOf (pl : Platform) (dispatcher : EmulatorDispatcher) (p : DeployedProgram) :
    Exec Failure HilDeployer Unit := do
  let inputs ← callDispatcher (dispatcher.getInputs p.name)
  setupProgramInputs pl p 0 inputs
  enableRandomInputs pl

/-- The inputs of all programs. -/
def setupInputs (pl : Platform) (dispatcher : EmulatorDispatcher)
    (programs : List DeployedProgram) : Exec Failure HilDeployer Unit :=
  forM programs (setupInputsOf pl dispatcher)

/-! ## The sequencer -/

/-- The divider and the shift of core `i`. -/
def setupSequencerCore (pl : Platform) (divisors shifts : List Nat) (i : Nat) :
    Exec Failure HilDeployer Unit := do
  let addresses ← Exec.gets (·.addresses)
  let divisor ← index divisors i
  writeRegister pl (addresses.bases.controller + addresses.offsets.controller + 0x4 + 4 * i)
    (sub32 divisor 1)
  let shift ← index shifts i
  writeRegister pl (addresses.bases.controller + addresses.offsets.hilTb + 8 + 4 * i) shift

/-- The value of the period register. -/
def timebasePeriod (pl : Platform) (s : HilDeployer) : Nat :=
  if s.timebaseFrequency = 0 then s.minTimebase
  else pl.toUint32 (s.hilClockFrequency / s.timebaseFrequency)

/-- The cores in order, the period, and last the enable mask. -/
def setupSequencer (pl : Platform) (nCores : Nat) (divisors shifts : List Nat) :
    Exec Failure HilDeployer Unit := do
  let addresses ← Exec.gets (·.addresses)
  forM (List.range (u16 nCores)) (setupSequencerCore pl divisors shifts)
  let period ← Exec.gets (timebasePeriod pl)
  writeRegister pl (addresses.bases.controller + addresses.offsets.hilTb + 4) period
  writeRegister pl (addresses.bases.controller + addresses.offsets.controller) (2 ^ u16 nCores - 1)

/-! ## The calls -/

section Calls

variable {Spec : Type} (env : Environment Spec)

/-- It returns `ok` or throws. -/
def deploy (arguments : Spec) : Exec Failure HilDeployer Unit := do
  modify fun s => { s with
    deployedHash := env.hash arguments
    minTimebase := 0
    activeWaveforms := 0
    activeRandomInputs := 0
    inputsLabels := ∅
    busLabels := ∅ }
  base (DeployerBase.onBridge FpgaBridge.clearOperationsVector)
  callDispatcher (env.dispatcher arguments).setSpecs
  let programs ← callDispatcher (env.dispatcher arguments).getPrograms
  modify fun s => { s with busMap := [] }
  let slots ← callDispatcher (env.dispatcher arguments).getInterconnectSlots
  modify fun s => { s with busMap := slots }
  Exec.throwIf (programs.length > 32)
    (.runtimeError "The HIL SYSTEM ONLY SUPPORTS UP TO 32 CORES AT ONCE")
  forM programs (setupProgram env.isa)
  let timebaseFrequency ← accumulateLcm 1 (programs.map (·.samplingFrequency.toNat))
  modify fun s => { s with timebaseFrequency := timebaseFrequency }
  let dividers ← calculateTimebaseDivider env.platform (env.dispatcher arguments)
  let shifts ← calculateTimebaseShift env.sort (env.dispatcher arguments)
  setupInterconnectIv (env.dispatcher arguments) programs
  forM programs (setupProgramDma env.platform)
  let memories ← callDispatcher (env.dispatcher arguments).getMemoryInitializations
  forM programs (setupProgramMemories env.platform memories)
  setupInputs env.platform (env.dispatcher arguments) programs
  setupSequencer env.platform programs.length dividers shifts
  setupCores env.platform programs

/-- The multiplexer setting of an output. -/
def selector (data : BusAddress) : Nat :=
  data.address ||| u32 (data.channel <<< 16)

/-- The output goes to a channel of the scope. An output that is in no slot throws. -/
def selectOutput (channel : Nat) (output : OutputSpecs) : Exec Failure HilDeployer Unit := do
  let busMap ← Exec.gets (·.busMap)
  let data ← translateOutput busMap output
  let addresses ← Exec.gets (·.addresses)
  writeRegister env.platform (addresses.bases.scopeMux + u32 (4 * channel) + 4) (selector data)

/-- A live update of the inputs of that name. -/
def setInput (core name : String) (channel : Nat) (value : ℚ) : Exec Failure HilDeployer Unit :=
  base (DeployerBase.updateInputValue env.platform core name channel value)

/-- The logic runs. -/
def start : Exec Failure HilDeployer Unit := do
  let addresses ← Exec.gets (·.addresses)
  writeRegister env.platform addresses.bases.hilControl 1

/-- The logic stands. -/
def stop : Exec Failure HilDeployer Unit := do
  let addresses ← Exec.gets (·.addresses)
  writeRegister env.platform addresses.bases.hilControl 0

/-- Spaces become underscores in the printed labels. -/
def underscored (name : String) : String :=
  name.map fun c => if c = ' ' then '_' else c

/-- A line of the outputs. -/
def outputLine (key : Nat) (name : String) : String :=
  toString key ++ ":" ++ underscored name ++ "\n"

/-- A line of the inputs. -/
def inputLine (name : String) (tb : TbInputAddresses) : String :=
  underscored name ++ "," ++ toString tb.peripheral ++ "," ++ toString tb.destination ++ "," ++
    toString tb.selector ++ "," ++ toString tb.coreIdx ++ "\n"

/-- The texts of the operations log and of the labels. -/
def simData (s : HilDeployer) : HardwareSimData where
  code := s.hw.busses.getHardwareSimulationData.1
  control := s.hw.busses.getHardwareSimulationData.2
  outputs := String.join (s.busLabels.toList.map fun (key, name) => outputLine key name)
  inputs := String.join (s.inputsLabels.toList.map fun (name, tb) => inputLine name tb)

/-- A deployment on the muted bus, as if it were started. -/
def deployMuted (specs : Spec) : Exec Failure HilDeployer Unit := do
  base (DeployerBase.onBridge FpgaBridge.disableBusAccess)
  deploy env specs
  start env
  base (DeployerBase.onBridge FpgaBridge.enableBusAccess)

/-- The texts of a simulation. The specification is deployed on the muted bus unless it is the one
that is held. -/
def getHardwareSimData (specs : Spec) : Exec Failure HilDeployer HardwareSimData := do
  let deployedHash ← Exec.gets (·.deployedHash)
  Exec.when (deployedHash ≠ env.hash specs) (deployMuted env specs)
  Exec.gets simData

end Calls

end HilDeployer

end UscopeDriver
