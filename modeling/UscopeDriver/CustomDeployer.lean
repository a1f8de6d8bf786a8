import UscopeDriver.Surroundings

/-!
# The deployer of custom logic

It shares the base with the HIL deployer. The toolchain says where each core is, and there is no
sequencer.
-/

namespace UscopeDriver

/-- The deployer of custom logic. It takes the addresses of its cores from the options of the
specification. -/
structure CustomDeployer extends DeployerBase where
  coresIdx : String → Nat

namespace CustomDeployer

/-- A call on the base. -/
def base {α : Type} (m : Exec Failure DeployerBase α) : Exec Failure CustomDeployer α :=
  Exec.zoom (·.toDeployerBase) (fun b s => { s with toDeployerBase := b }) m

variable (pl : Platform) (options : String → Except String DeploymentOptions)

/-- The program goes to the ROM that the options name. -/
def setupProgram (p : DeployedProgram) : Exec Failure CustomDeployer Unit := do
  let opts ← callDispatcher (options p.name)
  modify fun s => { s with coresIdx := Function.update s.coresIdx p.name p.index.toNat }
  base (DeployerBase.loadCore opts.romAddress p.binary)

/-- The DMA of the program in position `i`. -/
def setupProgramDma (program : DeployedProgram × Nat) : Exec Failure CustomDeployer Unit := do
  let addresses ← Exec.gets (·.addresses)
  let complexBaseAddr := addresses.bases.coresControl + addresses.offsets.coresControl * program.2
  let dmaAddress := u64 (complexBaseAddr + addresses.offsets.dma)
  let _ ← base (DeployerBase.setupOutputDma pl dmaAddress program.1.name program.1.nChannels.toNat)

/-- The initial values of the memories of a core. -/
def setupProgramMemories (memories : String → List MemoryInitValue) (p : DeployedProgram) :
    Exec Failure CustomDeployer Unit := do
  let opts ← callDispatcher (options p.name)
  base (DeployerBase.setupMemories pl opts.controlAddress (memories p.name) p.nChannels.toNat)

/-- The base of all inputs is 1. -/
def inputIpAddress (addresses : LogicLayout) : SourceType → Nat
  | .randomInput => u64 (1 + addresses.bases.noiseGenerator)
  | _ => u64 (1 + addresses.bases.coresInputs)

/-- The loop over the channels of an input, from `j` on. Every round drops the first entry, and the
loop runs up to the number of entries that are left. -/
def setupChannels (p : DeployedProgram) (input : DeployedCoreInputs) (ipAddr i : Nat) :
    Nat → List InitialData → Exec Failure CustomDeployer Unit
  | _, [] => pure ()
  | j, entry :: rest =>
    if j < (entry :: rest).length then do
      base (DeployerBase.setupInput pl { input with data := entry :: rest } ipAddr i j p.name true)
      setupChannels p input ipAddr i (j + 1) rest
    else pure ()

/-- The input in position `i`. -/
def setupProgramInput (p : DeployedProgram) (input : DeployedCoreInputs × Nat) :
    Exec Failure CustomDeployer Unit := do
  let addresses ← Exec.gets (·.addresses)
  let ipAddr := inputIpAddress addresses input.1.sourceType
  if input.1.data.length > 1 ∧ p.nChannels > 1 then
    setupChannels pl p input.1 ipAddr input.2 0 input.1.data
  else base (DeployerBase.setupInput pl input.1 ipAddr input.2 0 p.name false)

/-- The inputs of a program, by their place in the list. -/
def setupInputsOf (dispatcher : EmulatorDispatcher) (p : DeployedProgram) :
    Exec Failure CustomDeployer Unit := do
  let inputs ← callDispatcher (dispatcher.getInputs p.name)
  forM inputs.zipIdx (setupProgramInput pl p)

/-- The channels of a core, no fewer than its pipeline has stages. -/
def coreChannels (opts : DeploymentOptions) (p : DeployedProgram) : Nat :=
  let minChannels := if opts.hasReciprocal then 11 else 8
  if p.nChannels.toNat > minChannels then p.nChannels.toNat else minChannels

/-- The core is told its channels. -/
def setupProgramCore (p : DeployedProgram) : Exec Failure CustomDeployer Unit := do
  let opts ← callDispatcher (options p.name)
  base (DeployerBase.setupCore pl opts.controlAddress (coreChannels opts p))

/-- It returns `ok` or throws. -/
def deploy (w : Surroundings) (arguments : Json) : Exec Failure CustomDeployer Unit := do
  let dispatcher := w.env.dispatcher arguments
  let options := w.deploymentOptions arguments
  callDispatcher dispatcher.setSpecs
  let programs ← callDispatcher dispatcher.getPrograms
  modify fun s => { s with busMap := [] }
  let slots ← callDispatcher dispatcher.getInterconnectSlots
  modify fun s => { s with busMap := slots }
  forM programs (setupProgram options)
  forM programs.zipIdx (setupProgramDma w.env.platform)
  let memories ← callDispatcher dispatcher.getMemoryInitializations
  forM programs (setupProgramMemories w.env.platform options memories)
  forM programs (setupInputsOf w.env.platform dispatcher)
  forM programs (setupProgramCore w.env.platform options)

end CustomDeployer

end UscopeDriver
