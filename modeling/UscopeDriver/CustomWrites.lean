import UscopeDriver.Deployment
import UscopeDriver.CustomDeployer

/-!
# The stages of a deployment of custom logic

For each stage of `deploy`, when it returns, the requests it makes and what it leaves in the
deployer. The inputs stage is a list of calls of `setup_input` (`inputSetups`). The loop over the
channels of an input makes only half of the rounds (`setupChannels_eq`). `deploy_eq_ok` puts the
stages together, and `SetsUpInput` is the run of one input within a deployment.
-/

namespace UscopeDriver

namespace CustomDeployer

open HilDeployer (Elaborates HasInputs inputsOf)
open LastWrite

/-- The deployer after requests to the bridge. -/
def emit (s : CustomDeployer) (rs : List Request) : CustomDeployer :=
  { s with toDeployerBase := s.toDeployerBase.emit rs }

instance : Drives CustomDeployer where
  hw := (·.hw)
  emit := emit
  hw_emit := fun _ _ => rfl
  emit_nil := fun s => by simp [emit]
  emit_emit := fun s rs rs' => by simp [emit]

@[simp] theorem drives_hw (s : CustomDeployer) : Drives.hw s = s.hw := rfl

@[simp] theorem drives_emit (s : CustomDeployer) (rs : List Request) :
    Drives.emit s rs = s.emit rs := rfl

/-- Requests one after the other are one list of requests. -/
@[simp] theorem emit_emit (s : CustomDeployer) (rs rs' : List Request) :
    (s.emit rs).emit rs' = s.emit (rs ++ rs') := Drives.emit_emit s rs rs'

@[simp] theorem emit_hw (s : CustomDeployer) (rs : List Request) :
    (s.emit rs).hw = s.hw.performAll rs := rfl

/-- A call on the base returns as it does there. -/
theorem base_eq_ok {α : Type} {m : Exec Failure DeployerBase α} {a : α} {s s' : CustomDeployer} :
    (base m).run s = .ok a s' ↔
      ∃ b, m.run s.toDeployerBase = .ok a b ∧ s' = { s with toDeployerBase := b } :=
  Exec.zoom_eq_ok

/-! ## Programs -/

variable {pl : Platform} {options : String → Except String DeploymentOptions}

/-- The specification has options for the program. -/
def HasOptions (options : String → Except String DeploymentOptions) (p : DeployedProgram) : Prop :=
  ∃ opts, options p.name = .ok opts

/-- The options of a program, zeros when the toolchain throws. -/
def optionsOf (options : String → Except String DeploymentOptions) (p : DeployedProgram) :
    DeploymentOptions :=
  match options p.name with
  | .ok opts => opts
  | .error _ => ⟨0, 0, false⟩

/-- A stage that first asks for the options. -/
theorem callOptions_eq_ok {p : DeployedProgram} {s : CustomDeployer}
    {P : DeploymentOptions → CustomDeployer → Prop} :
    (∃ opts t, (callDispatcher (options p.name)).run s = .ok opts t ∧ P opts t) ↔
      HasOptions options p ∧ P (optionsOf options p) s := by
  unfold HasOptions optionsOf
  simp only [callDispatcher_eq_ok, and_assoc, exists_and_left, exists_eq_left]
  cases options p.name with
  | ok opts => simp
  | error what => simp

/-- The load of a program. -/
def loadRequest (options : String → Except String DeploymentOptions) (p : DeployedProgram) :
    Request :=
  .load (u64 (optionsOf options p).romAddress) (p.binary.map (·.toNat))

/-- The deployer after a program was loaded, apart from the bridge. -/
def recordProgram (p : DeployedProgram) (s : CustomDeployer) : CustomDeployer :=
  { s with coresIdx := Function.update s.coresIdx p.name p.index.toNat }

/-- To load a program is a round. -/
theorem round_setupProgram : Drives.Round (setupProgram options)
    (fun p _ => HasOptions options p) (fun p _ => [loadRequest options p]) recordProgram where
  run := by
    intro p s u s'
    simp only [setupProgram, Exec.bind_eq_ok, callOptions_eq_ok, Exec.modify_eq_ok, base_eq_ok,
      DeployerBase.loadCore_eq_ok, exists_const, and_assoc, exists_and_left, exists_eq_left]
    rfl
  record := fun _ => ⟨fun _ => rfl, fun _ _ => rfl⟩
  guard_emit := fun _ _ _ => Iff.rfl
  requests_emit := fun _ _ _ => rfl

/-- What the first loop records : for each name the last program of that name. -/
def recordPrograms (programs : List DeployedProgram) (s : CustomDeployer) : CustomDeployer :=
  { s with coresIdx := store s.coresIdx (programs.map fun p => (p.name, p.index.toNat)) }

theorem foldl_recordProgram (programs : List DeployedProgram) (s : CustomDeployer) :
    programs.foldl (fun t p => recordProgram p t) s = recordPrograms programs s := by
  induction programs generalizing s with
  | nil => rfl
  | cons p programs ih =>
    rw [List.foldl_cons, ih]
    rfl

/-- All programs are loaded exactly if all have options. -/
theorem setupPrograms_eq_ok {programs : List DeployedProgram} {s s' : CustomDeployer} {u : PUnit} :
    (forM programs (setupProgram options)).run s = .ok u s' ↔
      (∀ p ∈ programs, HasOptions options p) ∧
        s.hw.Admits (programs.map (loadRequest options)) ∧
          s' = (recordPrograms programs s).emit (programs.map (loadRequest options)) := by
  rw [round_setupProgram.forM_emit_uniform (fun _ _ _ => Iff.rfl) (fun _ _ _ => rfl),
    ← List.map_eq_flatMap, foldl_recordProgram]
  rfl

/-! ## DMAs and memories -/

/-- The requests of the DMA of the program in position `i`. -/
def programDmaRequests (s : CustomDeployer) (program : DeployedProgram × Nat) : List Request :=
  DeployerBase.dmaRequests s.ivs
    (u64 (s.addresses.bases.coresControl + s.addresses.offsets.coresControl * program.2 +
      s.addresses.offsets.dma))
    (DeployerBase.entriesOf s.busMap program.1.name)

/-- The deployer after the DMA of a program was set up, apart from the bridge. -/
def labelProgram (program : DeployedProgram × Nat) (s : CustomDeployer) : CustomDeployer :=
  { s with
    toDeployerBase := DeployerBase.labelEntries program.1.nChannels.toNat
      (DeployerBase.entriesOf s.busMap program.1.name) s.toDeployerBase }

/-- To set up the DMA of a program is a round. -/
theorem round_setupProgramDma : Drives.Round (setupProgramDma pl)
    (fun program s => ∀ e ∈ DeployerBase.entriesOf s.busMap program.1.name,
      DeployerBase.Mappable e ∧ DeployerBase.IvInRange s.ivs e)
    (fun program s => s.programDmaRequests program) labelProgram where
  run := by
    intro program s u s'
    simp only [setupProgramDma, Exec.bind_eq_ok, Exec.gets_eq_ok, base_eq_ok,
      DeployerBase.setupOutputDma_eq_ok, Exec.pure_eq_ok, and_assoc, exists_and_left,
      exists_eq_left, true_and]
    rfl
  record := fun _ => ⟨fun _ => rfl, fun _ _ => rfl⟩
  guard_emit := fun _ _ _ => Iff.rfl
  requests_emit := fun _ _ _ => rfl

/-- The bus labels of all programs. -/
def labelPrograms (programs : List DeployedProgram) (s : CustomDeployer) : CustomDeployer :=
  { s with
    busLabels := programs.foldl (fun l p =>
      (DeployerBase.entriesOf s.busMap p.name).foldl (fun l e =>
        l.insert (DeployerBase.busDest e) (DeployerBase.signalName e p.nChannels.toNat)) l)
      s.busLabels }

theorem foldl_labelProgram (programs : List DeployedProgram) (k : Nat) (s : CustomDeployer) :
    (programs.zipIdx k).foldl (fun t program => labelProgram program t) s =
      labelPrograms programs s := by
  induction programs generalizing k s with
  | nil => rfl
  | cons p programs ih =>
    rw [List.zipIdx_cons, List.foldl_cons, ih]
    rfl

/-- The entries of a program can be mapped and have the initial values that they ask for. -/
def DmaReady (s : CustomDeployer) (p : DeployedProgram) : Prop :=
  ∀ e ∈ DeployerBase.entriesOf s.busMap p.name,
    DeployerBase.Mappable e ∧ DeployerBase.IvInRange s.ivs e

/-- The DMAs of all programs. -/
theorem setupProgramDmas_eq_ok {programs : List DeployedProgram} {s s' : CustomDeployer}
    {u : PUnit} :
    (forM programs.zipIdx (setupProgramDma pl)).run s = .ok u s' ↔
      (∀ p ∈ programs, s.DmaReady p) ∧
        s.hw.Admits (programs.zipIdx.flatMap s.programDmaRequests) ∧
          s' = (labelPrograms programs s).emit (programs.zipIdx.flatMap s.programDmaRequests) := by
  have hmem : (∀ program ∈ programs.zipIdx, s.DmaReady program.1) ↔
      ∀ p ∈ programs, s.DmaReady p := by
    conv_rhs => rw [← List.zipIdx_map_fst 0 programs]
    simp only [List.forall_mem_map]
  rw [round_setupProgramDma.forM_emit_uniform (fun _ _ _ => Iff.rfl) (fun _ _ _ => rfl),
    foldl_labelProgram, ← hmem]
  rfl

/-- The requests that initialise the memories of a program. -/
def programMemoryRequests (options : String → Except String DeploymentOptions)
    (memories : String → List MemoryInitValue) (p : DeployedProgram) : List Request :=
  (memories p.name).flatMap
    (DeployerBase.memoryRequests (optionsOf options p).controlAddress p.nChannels.toNat)

/-- The memories of a program. -/
theorem setupProgramMemories_eq_ok {memories : String → List MemoryInitValue}
    (p : DeployedProgram) (s : CustomDeployer) (u : PUnit) (s' : CustomDeployer) :
    (setupProgramMemories pl options memories p).run s = .ok u s' ↔
      (HasOptions options p ∧
        ∀ m ∈ memories p.name, DeployerBase.MemoryReady p.nChannels.toNat m) ∧
        s.hw.Admits (programMemoryRequests options memories p) ∧
          s' = s.emit (programMemoryRequests options memories p) := by
  simp only [setupProgramMemories, Exec.bind_eq_ok, callOptions_eq_ok, base_eq_ok,
    DeployerBase.setupMemories_eq_ok, and_assoc, exists_and_left, exists_eq_left]
  rfl

/-- The memories of all programs. -/
theorem setupAllMemories_eq_ok {memories : String → List MemoryInitValue}
    {programs : List DeployedProgram} {s s' : CustomDeployer} {u : PUnit} :
    (forM programs (setupProgramMemories pl options memories)).run s = .ok u s' ↔
      (∀ p ∈ programs, HasOptions options p ∧
        ∀ m ∈ memories p.name, DeployerBase.MemoryReady p.nChannels.toNat m) ∧
        s.hw.Admits (programs.flatMap (programMemoryRequests options memories)) ∧
          s' = s.emit (programs.flatMap (programMemoryRequests options memories)) :=
  Drives.forM_requests setupProgramMemories_eq_ok programs

/-! ## Inputs -/

/-- The rounds of the loop over the channels of an input : half of its entries, rounded up. -/
def channelRounds (entries : Nat) : Nat := (entries + 1) / 2

/-- The loop over the channels makes as many rounds as are left between `j` and the end of the
entries, which comes nearer by one in each round. -/
theorem setupChannels_eq {p : DeployedProgram} {input : DeployedCoreInputs} {ipAddr i : Nat}
    (j : Nat) (data : List InitialData) :
    setupChannels pl p input ipAddr i j data =
      forM (List.range (channelRounds (data.length - j))) fun r =>
        base (DeployerBase.setupInput pl { input with data := data.drop r } ipAddr i (j + r)
          p.name true) := by
  induction data generalizing j with
  | nil => simp [setupChannels, channelRounds]
  | cons entry rest ih =>
    rw [setupChannels]
    split_ifs with hj
    · have hrounds : channelRounds ((entry :: rest).length - j) =
          channelRounds (rest.length - (j + 1)) + 1 := by
        simp only [channelRounds, List.length_cons] at hj ⊢
        omega
      rw [hrounds, List.range_succ_eq_map, List.forM_cons, List.forM_map, ih]
      simp only [List.drop_zero, List.drop_succ_cons, Nat.add_zero, Nat.succ_eq_add_one,
        Nat.add_assoc, Nat.add_comm 1]
    · have hrounds : channelRounds ((entry :: rest).length - j) = 0 := by
        simp only [channelRounds]
        omega
      rw [hrounds, List.range_zero, List.forM_nil]

/-- The calls of `setup_input` for the input in position `i`. -/
def inputSetups (addresses : LogicLayout) (p : DeployedProgram) (input : DeployedCoreInputs × Nat) :
    List InputSetup :=
  let ipAddr := inputIpAddress addresses input.1.sourceType
  if input.1.data.length > 1 ∧ p.nChannels > 1 then
    (List.range (channelRounds input.1.data.length)).map fun j =>
      ⟨{ input.1 with data := input.1.data.drop j }, ipAddr, input.2, j, p.name, true⟩
  else [⟨input.1, ipAddr, input.2, 0, p.name, false⟩]

/-- The call of `setup_input`. -/
def runSetup (pl : Platform) (c : InputSetup) : Exec Failure CustomDeployer Unit :=
  base (c.run pl)

/-- An input is a list of calls of `setup_input`, as the loop of the source makes them. -/
theorem run_setupProgramInput (p : DeployedProgram) (input : DeployedCoreInputs × Nat)
    (s : CustomDeployer) :
    (setupProgramInput pl p input).run s =
      (forM (inputSetups s.addresses p input) (runSetup pl)).run s := by
  rw [setupProgramInput, Exec.run_gets_bind, inputSetups]
  split_ifs with hn
  · rw [setupChannels_eq, List.forM_map]
    simp only [runSetup, InputSetup.run, Nat.sub_zero, Nat.zero_add]
  · simp [runSetup, InputSetup.run]

/-- The deployer after an input was set up, apart from the bridge. -/
def recordSetup (c : InputSetup) (s : CustomDeployer) : CustomDeployer :=
  { s with toDeployerBase := c.record s.toDeployerBase }

/-- Each of these calls is a round. -/
theorem round_runSetup : Drives.Round (runSetup pl) (fun c _ => c.Ready)
    (fun c s => c.requests pl s.toDeployerBase) recordSetup where
  run := by
    intro c s u s'
    simp only [runSetup, base_eq_ok, InputSetup.run_eq_ok, and_assoc, exists_and_left,
      exists_eq_left]
    rfl
  record := by
    intro c
    refine ⟨fun s => c.record_hw s.toDeployerBase, fun s rs => ?_⟩
    have h := c.record_emit s.toDeployerBase rs
    simp only [recordSetup, drives_emit, emit, h]
  guard_emit := fun _ _ _ => Iff.rfl
  requests_emit := fun c s rs => c.requests_emit pl s.toDeployerBase rs

/-- The requests of a list of calls. -/
def setupRequests (pl : Platform) (calls : List InputSetup) (s : CustomDeployer) : List Request :=
  Drives.requestsAlong (fun c s => c.requests pl s.toDeployerBase) recordSetup calls s

/-- What a list of calls records. -/
def recordSetups (calls : List InputSetup) (s : CustomDeployer) : CustomDeployer :=
  calls.foldl (fun t c => recordSetup c t) s

/-- The calls make their requests exactly if each finds its data. -/
theorem forM_runSetup_eq_ok {calls : List InputSetup} {s s' : CustomDeployer} {u : PUnit} :
    (forM calls (runSetup pl)).run s = .ok u s' ↔
      (∀ c ∈ calls, c.Ready) ∧ s.hw.Admits (setupRequests pl calls s) ∧
        s' = (recordSetups calls s).emit (setupRequests pl calls s) := by
  have hguard : Drives.GuardAlong (fun c _ => c.Ready) recordSetup calls s ↔
      ∀ c ∈ calls, c.Ready := by
    refine Drives.guardAlong_uniform ?_ calls s
    exact fun _ _ _ => Iff.rfl
  rw [round_runSetup.forM_emit, hguard]
  rfl

/-- The inputs stage leaves the other fields alone. -/
theorem recordSetups_eq (calls : List InputSetup) (s : CustomDeployer) :
    recordSetups calls s = { s with
      inputsLabels := (recordSetups calls s).inputsLabels
      busLabels := (recordSetups calls s).busLabels
      inputs := (recordSetups calls s).inputs
      activeRandomInputs := (recordSetups calls s).activeRandomInputs
      activeWaveforms := (recordSetups calls s).activeWaveforms } := by
  induction calls generalizing s with
  | nil => rfl
  | cons c calls ih =>
    have hcons : recordSetups (c :: calls) s = recordSetups calls (recordSetup c s) := rfl
    have hrecord := c.record_eq s.toDeployerBase
    rw [hcons, ih]
    generalize recordSetups calls (recordSetup c s) = t
    simp only [recordSetup]
    rw [hrecord]

/-- The inputs that a live update finds are the constant and time series inputs. -/
theorem recordSetups_inputs (calls : List InputSetup) (s : CustomDeployer) :
    (recordSetups calls s).inputs = s.inputs ++
      (calls.filter (·.input.sourceType.IsConstant)).map (·.metadata) := by
  induction calls generalizing s with
  | nil => simp [recordSetups]
  | cons c calls ih =>
    have hcons : recordSetups (c :: calls) s = recordSetups calls (recordSetup c s) := rfl
    have hrecord : (recordSetup c s).inputs =
      s.inputs ++ if c.input.sourceType.IsConstant then [c.metadata] else [] :=
        c.record_inputs s.toDeployerBase
    rw [hcons, ih, hrecord, List.filter_cons]
    by_cases hc : c.input.sourceType.IsConstant
    · simp [hc]
    · simp [hc]

/-- They keep the layout. -/
theorem addresses_of_forM_runSetup {calls : List InputSetup} {s s' : CustomDeployer} {u : PUnit}
    (h : (forM calls (runSetup pl)).run s = .ok u s') : s'.addresses = s.addresses := by
  obtain ⟨-, -, rfl⟩ := forM_runSetup_eq_ok.1 h
  rw [recordSetups_eq]
  rfl

theorem fpgaLoaded_of_forM_runSetup {calls : List InputSetup} {s s' : CustomDeployer} {u : PUnit}
    (h : (forM calls (runSetup pl)).run s = .ok u s') : s'.hw.fpgaLoaded = s.hw.fpgaLoaded := by
  obtain ⟨-, -, rfl⟩ := forM_runSetup_eq_ok.1 h
  rw [recordSetups_eq]
  rfl

/-- The calls for the inputs of a program. -/
def programSetups (addresses : LogicLayout) (dispatcher : EmulatorDispatcher)
    (p : DeployedProgram) : List InputSetup :=
  (inputsOf dispatcher p.name).zipIdx.flatMap (inputSetups addresses p)

/-- A loop over the inputs of a program is the loop over its calls. -/
theorem run_forM_setupProgramInput {p : DeployedProgram} (inputs : List (DeployedCoreInputs × Nat))
    (s : CustomDeployer) :
    (forM inputs (setupProgramInput pl p)).run s =
      (forM (inputs.flatMap (inputSetups s.addresses p)) (runSetup pl)).run s := by
  induction inputs generalizing s with
  | nil => rfl
  | cons input inputs ih =>
    rw [List.forM_cons, List.flatMap_cons, List.forM_append, EStateM.run_bind, EStateM.run_bind,
      run_setupProgramInput]
    cases h : (forM (inputSetups s.addresses p input) (runSetup pl)).run s with
    | ok u s' => simp only [ih, addresses_of_forM_runSetup h]
    | error e s' => rfl

/-- The inputs of a program. -/
theorem setupInputsOf_eq_ok {dispatcher : EmulatorDispatcher} {p : DeployedProgram}
    {s s' : CustomDeployer} {u : Unit} :
    (setupInputsOf pl dispatcher p).run s = .ok u s' ↔ HasInputs dispatcher p ∧
      (forM (programSetups s.addresses dispatcher p) (runSetup pl)).run s = .ok u s' := by
  simp only [setupInputsOf, Exec.bind_eq_ok, callDispatcher_eq_ok, and_assoc, exists_and_left,
    exists_eq_left, run_forM_setupProgramInput, HasInputs, programSetups, inputsOf]
  cases dispatcher.getInputs p.name with
  | ok inputs => simp
  | error what => simp

/-- The inputs of all programs. -/
theorem setupAllInputs_eq_ok {dispatcher : EmulatorDispatcher} {programs : List DeployedProgram}
    {s s' : CustomDeployer} {u : PUnit} :
    (forM programs (setupInputsOf pl dispatcher)).run s = .ok u s' ↔
      (∀ p ∈ programs, HasInputs dispatcher p) ∧
        (forM (programs.flatMap (programSetups s.addresses dispatcher)) (runSetup pl)).run s =
          .ok u s' :=
  Exec.forM_blocks_eq_ok (fun s : CustomDeployer => s.addresses)
    (fun l => programSetups l dispatcher) (fun _ _ _ _ => setupInputsOf_eq_ok)
    addresses_of_forM_runSetup

/-! ## Cores -/

/-- The write of the channel count of a program. -/
def coreRequest (options : String → Except String DeploymentOptions) (p : DeployedProgram) :
    Request :=
  regWrite (optionsOf options p).controlAddress (coreChannels (optionsOf options p) p)

/-- The core of a program. -/
theorem setupProgramCore_eq_ok (p : DeployedProgram) (s : CustomDeployer) (u : PUnit)
    (s' : CustomDeployer) :
    (setupProgramCore pl options p).run s = .ok u s' ↔
      HasOptions options p ∧ s.hw.Admits [coreRequest options p] ∧
        s' = s.emit [coreRequest options p] := by
  simp only [setupProgramCore, DeployerBase.setupCore, Exec.bind_eq_ok, callOptions_eq_ok,
    base_eq_ok, DeployerBase.writeRegister_eq_ok, and_assoc, exists_and_left, exists_eq_left]
  rfl

/-- The cores of all programs. -/
theorem setupCores_eq_ok {programs : List DeployedProgram} {s s' : CustomDeployer} {u : PUnit} :
    (forM programs (setupProgramCore pl options)).run s = .ok u s' ↔
      (∀ p ∈ programs, HasOptions options p) ∧ s.hw.Admits (programs.map (coreRequest options)) ∧
        s' = s.emit (programs.map (coreRequest options)) := by
  rw [List.map_eq_flatMap]
  exact Drives.forM_requests setupProgramCore_eq_ok programs

/-! ## What the requests of a stage do not depend on -/

section Independence

variable (s : CustomDeployer) (rs : List Request) (programs : List DeployedProgram)

@[simp] theorem emit_addresses : (s.emit rs).addresses = s.addresses := rfl

@[simp] theorem emit_programDmaRequests :
    (s.emit rs).programDmaRequests = s.programDmaRequests := rfl

@[simp] theorem emit_dmaReady (p : DeployedProgram) : (s.emit rs).DmaReady p ↔ s.DmaReady p :=
  Iff.rfl

@[simp] theorem recordPrograms_hw : (recordPrograms programs s).hw = s.hw := rfl

@[simp] theorem recordPrograms_programDmaRequests :
    (recordPrograms programs s).programDmaRequests = s.programDmaRequests := rfl

@[simp] theorem recordPrograms_dmaReady (p : DeployedProgram) :
    (recordPrograms programs s).DmaReady p ↔ s.DmaReady p := Iff.rfl

@[simp] theorem labelPrograms_emit :
    labelPrograms programs (s.emit rs) = (labelPrograms programs s).emit rs := rfl

@[simp] theorem labelPrograms_hw : (labelPrograms programs s).hw = s.hw := rfl

@[simp] theorem setupRequests_emit (pl : Platform) (calls : List InputSetup) :
    setupRequests pl calls (s.emit rs) = setupRequests pl calls s :=
  round_runSetup.requestsAlong_emit calls s rs

/-- What is recorded does not depend on the bridge. -/
@[simp] theorem recordSetups_emit (calls : List InputSetup) :
    recordSetups calls (s.emit rs) = (recordSetups calls s).emit rs :=
  (Drives.record_foldl (@round_runSetup .zeros).record calls).emit s rs

@[simp] theorem recordSetups_hw (calls : List InputSetup) :
    (recordSetups calls s).hw = s.hw := by
  rw [recordSetups_eq]

end Independence

/-! ## The stages together -/

variable {w : Surroundings} {arguments : Json}

/-- The deployment up to the inputs stage. -/
def prepare (w : Surroundings) (arguments : Json) :
    Exec Failure CustomDeployer (List DeployedProgram) := do
  let dispatcher := w.env.dispatcher arguments
  let options := w.deploymentOptions arguments
  callDispatcher dispatcher.setSpecs
  let programs ← callDispatcher dispatcher.getPrograms
  modify fun s => { s with busMap := [] }
  let slots ← callDispatcher dispatcher.getInterconnectSlots
  modify fun s => { s with busMap := slots }
  forM programs (setupProgram options)
  forM programs.zipIdx (setupProgramDma w.env.platform)
  let memories ← callDispatcher dispatcher.getMemoryInitializations
  forM programs (setupProgramMemories w.env.platform options memories)
  pure programs

/-- A deployment is what it prepares, then its inputs and cores. -/
theorem deploy_eq (w : Surroundings) (arguments : Json) : deploy w arguments = (do
    let programs ← prepare w arguments
    forM programs (setupInputsOf w.env.platform (w.env.dispatcher arguments))
    forM programs (setupProgramCore w.env.platform (w.deploymentOptions arguments))) := by
  simp only [deploy, prepare, bind_assoc, pure_bind]

/-- The deployer with the slots of a specification. -/
def withBusMap (slots : List DeployerInterconnectSlot) (s : CustomDeployer) : CustomDeployer :=
  { s with busMap := slots }

/-- The deployer before the inputs stage, but for the requests. -/
def prepared (programs : List DeployedProgram) (slots : List DeployerInterconnectSlot)
    (s : CustomDeployer) : CustomDeployer :=
  labelPrograms programs (recordPrograms programs (withBusMap slots s))

/-- The requests before the inputs stage. -/
def prepareRequests (options : String → Except String DeploymentOptions)
    (programs : List DeployedProgram) (slots : List DeployerInterconnectSlot)
    (memories : String → List MemoryInitValue) (s : CustomDeployer) : List Request :=
  programs.map (loadRequest options) ++
    programs.zipIdx.flatMap (withBusMap slots s).programDmaRequests ++
    programs.flatMap (programMemoryRequests options memories)

/-- Up to the inputs, a deployment makes its requests exactly if the specification elaborates and
each stage finds its data. -/
theorem prepare_eq_ok {programs : List DeployedProgram} {s s' : CustomDeployer} :
    (prepare w arguments).run s = .ok programs s' ↔
      ∃ slots memories, Elaborates (w.env.dispatcher arguments) programs slots memories ∧
        ((∀ p ∈ programs, HasOptions (w.deploymentOptions arguments) p) ∧
          (∀ p ∈ programs, (withBusMap slots s).DmaReady p) ∧
          ∀ p ∈ programs, ∀ m ∈ memories p.name,
            DeployerBase.MemoryReady p.nChannels.toNat m) ∧
        s.hw.Admits (prepareRequests (w.deploymentOptions arguments) programs slots memories s) ∧
        s' = (prepared programs slots s).emit
          (prepareRequests (w.deploymentOptions arguments) programs slots memories s) := by
  have hmap : ∀ slots, ({ s with busMap := slots } : CustomDeployer) = withBusMap slots s :=
    fun _ => rfl
  simp only [prepare, Exec.bind_eq_ok, callDispatcher_eq_ok, Exec.modify_eq_ok, Exec.pure_eq_ok,
    setupPrograms_eq_ok, setupProgramDmas_eq_ok, setupAllMemories_eq_ok, exists_const, and_assoc,
    exists_and_left, exists_eq_left, hmap, emit_dmaReady, emit_programDmaRequests, emit_emit,
    emit_hw, recordPrograms_dmaReady, recordPrograms_programDmaRequests, recordPrograms_hw,
    labelPrograms_emit, labelPrograms_hw, FpgaBridge.admits_performAll, FpgaBridge.admits_append,
    forall_and, prepareRequests, ← List.append_assoc]
  constructor
  · rintro ⟨_, hspecs, _, hprograms, slots, hslots, hoptions, ap, hd, ad, memories, hmemories, -,
      hm, am, rfl, rfl⟩
    exact ⟨slots, memories, ⟨hspecs, hprograms, hslots, hmemories⟩, hoptions, hd, hm, ap, ad, am,
      rfl⟩
  · rintro ⟨slots, memories, h, hoptions, hd, hm, ap, ad, am, rfl⟩
    exact ⟨_, h.setSpecs, programs, h.getPrograms, slots, h.getInterconnectSlots, hoptions, ap, hd,
      ad, memories, h.getMemoryInitializations, hoptions, hm, am, rfl, rfl⟩

/-- The calls of the whole inputs stage. -/
def deploymentSetups (addresses : LogicLayout) (dispatcher : EmulatorDispatcher)
    (programs : List DeployedProgram) : List InputSetup :=
  programs.flatMap (programSetups addresses dispatcher)

/-- No stage fails. `s` is the deployer before. -/
structure Deployable (w : Surroundings) (arguments : Json) (programs : List DeployedProgram)
    (slots : List DeployerInterconnectSlot) (memories : String → List MemoryInitValue)
    (s : CustomDeployer) : Prop where
  hasOptions : ∀ p ∈ programs, HasOptions (w.deploymentOptions arguments) p
  dmaReady : ∀ p ∈ programs, (withBusMap slots s).DmaReady p
  memoriesReady : ∀ p ∈ programs, ∀ m ∈ memories p.name,
    DeployerBase.MemoryReady p.nChannels.toNat m
  hasInputs : ∀ p ∈ programs, HasInputs (w.env.dispatcher arguments) p
  inputsReady : ∀ c ∈ deploymentSetups s.addresses (w.env.dispatcher arguments) programs, c.Ready

/-- All requests of a deployment. `s` is the deployer before. -/
def deploymentRequests (w : Surroundings) (arguments : Json) (programs : List DeployedProgram)
    (slots : List DeployerInterconnectSlot) (memories : String → List MemoryInitValue)
    (s : CustomDeployer) : List Request :=
  prepareRequests (w.deploymentOptions arguments) programs slots memories s ++
    setupRequests w.env.platform
      (deploymentSetups s.addresses (w.env.dispatcher arguments) programs)
      (prepared programs slots s) ++
    programs.map (coreRequest (w.deploymentOptions arguments))

/-- The deployer after a deployment, but for the requests. `s` is the deployer before. -/
def deployed (w : Surroundings) (arguments : Json) (programs : List DeployedProgram)
    (slots : List DeployerInterconnectSlot) (s : CustomDeployer) : CustomDeployer :=
  recordSetups (deploymentSetups s.addresses (w.env.dispatcher arguments) programs)
    (prepared programs slots s)

/-- A deployment returns exactly when the toolchain does, no stage fails and the bus admits the
requests. -/
theorem deploy_eq_ok {s s' : CustomDeployer} {u : Unit} :
    (deploy w arguments).run s = .ok u s' ↔
      ∃ programs slots memories, Elaborates (w.env.dispatcher arguments) programs slots memories ∧
        Deployable w arguments programs slots memories s ∧
        s.hw.Admits (deploymentRequests w arguments programs slots memories s) ∧
        s' = (deployed w arguments programs slots s).emit
          (deploymentRequests w arguments programs slots memories s) := by
  simp only [deploy_eq, Exec.bind_eq_ok, prepare_eq_ok, setupAllInputs_eq_ok, forM_runSetup_eq_ok,
    setupCores_eq_ok]
  constructor
  · rintro ⟨programs, s₁, ⟨slots, memories, h, ⟨ho, hd, hm⟩, ap, rfl⟩, v, s₂, ⟨hi, hr, ai, rfl⟩, -,
      ac, rfl⟩
    simp only [setupRequests_emit, recordSetups_emit, recordSetups_hw, emit_hw, emit_emit,
      FpgaBridge.admits_performAll] at ai ac ⊢
    refine ⟨programs, slots, memories, h, ⟨ho, hd, hm, hi, hr⟩, ?_, rfl⟩
    exact (FpgaBridge.admits_append _ _ _).2 ⟨(FpgaBridge.admits_append _ _ _).2 ⟨ap, ai⟩, ac⟩
  · rintro ⟨programs, slots, memories, h, ⟨ho, hd, hm, hi, hr⟩, ha, rfl⟩
    obtain ⟨ha, ac⟩ := (FpgaBridge.admits_append _ _ _).1 ha
    obtain ⟨ap, ai⟩ := (FpgaBridge.admits_append _ _ _).1 ha
    refine ⟨programs, _, ⟨slots, memories, h, ⟨ho, hd, hm⟩, ap, rfl⟩, ⟨⟩, _, ⟨hi, hr, ?_, rfl⟩, ho,
      ?_, ?_⟩
    · rw [setupRequests_emit, emit_hw, FpgaBridge.admits_performAll]
      exact ai
    · simp only [setupRequests_emit, recordSetups_emit, recordSetups_hw, emit_hw,
        FpgaBridge.admits_performAll]
      exact ac
    · simp only [setupRequests_emit, recordSetups_emit, emit_emit]
      rfl

/-! ## The run of one input -/

/-- In a deployment from `s` to `s'`, the input in position `i` of the program in position `n` is
set up from `t` to `t'`. -/
def SetsUpInput (w : Surroundings) (arguments : Json) (s s' : CustomDeployer) (n : Nat)
    (p : DeployedProgram) (i : Nat) (input : DeployedCoreInputs) (t t' : CustomDeployer) : Prop :=
  ∃ programs inputs s₁ s₂ t₁ t₂, (prepare w arguments).run s = .ok programs s₁ ∧
    Exec.RoundAt (setupInputsOf w.env.platform (w.env.dispatcher arguments)) programs n s₁ s₂ p
      t₁ t₂ ∧
    (w.env.dispatcher arguments).getInputs p.name = .ok inputs ∧
    Exec.RoundAt (setupProgramInput w.env.platform p) inputs.zipIdx i t₁ t₂ (input, i) t t' ∧
    (forM programs (setupProgramCore w.env.platform (w.deploymentOptions arguments))).run s₂ =
      .ok ⟨⟩ s'

/-- A deployment sets up each input of each program. -/
theorem exists_setsUpInput {programs : List DeployedProgram}
    (hprograms : (w.env.dispatcher arguments).getPrograms = .ok programs) {s s' : CustomDeployer}
    {u : Unit} (hrun : (deploy w arguments).run s = .ok u s') {n : Nat} {p : DeployedProgram}
    (hp : programs[n]? = some p) {inputs : List DeployedCoreInputs}
    (hinputs : (w.env.dispatcher arguments).getInputs p.name = .ok inputs) {i : Nat}
    {input : DeployedCoreInputs} (hi : inputs[i]? = some input) :
    ∃ t t', SetsUpInput w arguments s s' n p i input t t' := by
  rw [deploy_eq, Exec.bind_eq_ok] at hrun
  obtain ⟨programs', s₁, hprepare, hrun⟩ := hrun
  obtain ⟨⟨⟩, s₂, hloop, hcores⟩ := Exec.bind_eq_ok.1 hrun
  obtain ⟨slots, memories, h, -, -, -⟩ := prepare_eq_ok.1 hprepare
  obtain rfl : programs' = programs := Except.ok.inj (h.getPrograms.symm.trans hprograms)
  obtain ⟨t₁, t₂, hround⟩ := Exec.exists_roundAt hp hloop
  have hinner : (forM inputs.zipIdx (setupProgramInput w.env.platform p)).run t₁ = .ok ⟨⟩ t₂ := by
    have hcall := hround.round
    rw [setupInputsOf, hinputs] at hcall
    exact hcall
  have hx : inputs.zipIdx[i]? = some (input, i) := by
    rw [List.getElem?_zipIdx, hi]
    simp
  obtain ⟨t, t', hround'⟩ := Exec.exists_roundAt hx hinner
  exact ⟨t, t', programs', inputs, s₁, s₂, t₁, t₂, hprepare, hround, hinputs, hround', hcores⟩

end CustomDeployer

end UscopeDriver
