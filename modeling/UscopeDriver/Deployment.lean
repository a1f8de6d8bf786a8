import UscopeDriver.HilInputs
import UscopeDriver.Timebase
import UscopeDriver.InitialValues

/-!
# A whole deployment

`deploy_eq_ok` puts the stages together. A deployment returns exactly when the toolchain does
(`Elaborates`), there are between 1 and 32 programs, no stage fails (`Deployable`) and the bus
admits the requests. Then `deploymentRequests` is what it asked of the bridge, in order, and
`deployed` what it left in the deployer. Of the state before it, they depend on the layout, the
clock and the initial values of earlier deployments.
-/

namespace UscopeDriver

namespace HilDeployer

variable {Spec : Type}

/-! ## The state the writes start from -/

/-- The deployer at the start of a deployment, with the log cleared. -/
def reset (hash : Nat) (s : HilDeployer) : HilDeployer :=
  { s with
    deployedHash := hash
    minTimebase := 0
    activeWaveforms := 0
    activeRandomInputs := 0
    inputsLabels := ∅
    busLabels := ∅
    hw := { s.hw with busses := { s.hw.busses with operations := [] } } }

/-- The deployer with the slots of a specification. -/
def withBusMap (slots : List DeployerInterconnectSlot) (s : HilDeployer) : HilDeployer :=
  { s with busMap := slots }

/-- The deployer with the least common multiple of the frequencies. -/
def withTimebase (timebaseFrequency : Int) (s : HilDeployer) : HilDeployer :=
  { s with timebaseFrequency := timebaseFrequency }

/-- The deployer before the first register write of a deployment, but for the loads. -/
def prepared (env : Environment Spec) (arguments : Spec) (programs : List DeployedProgram)
    (slots : List DeployerInterconnectSlot) (s : HilDeployer) : HilDeployer :=
  recordIvs slots programs <| recordShifts env.sort programs <| recordDividers programs <|
    withTimebase (int32 (frequencyLcm programs)) <| recordPrograms env.isa programs <|
      withBusMap slots <| reset (env.hash arguments) s

/-! ## The closed form -/

/-- What the toolchain returns for a specification. -/
structure Elaborates (dispatcher : EmulatorDispatcher) (programs : List DeployedProgram)
    (slots : List DeployerInterconnectSlot) (memories : String → List MemoryInitValue) : Prop where
  setSpecs : dispatcher.setSpecs = .ok ()
  getPrograms : dispatcher.getPrograms = .ok programs
  getInterconnectSlots : dispatcher.getInterconnectSlots = .ok slots
  getMemoryInitializations : dispatcher.getMemoryInitializations = .ok memories

namespace Elaborates

variable {dispatcher : EmulatorDispatcher} {programs programs' : List DeployedProgram}
  {slots slots' : List DeployerInterconnectSlot}
  {memories memories' : String → List MemoryInitValue}
  (h : Elaborates dispatcher programs slots memories)

include h

/-- The programs are those that the toolchain hands over. -/
theorem programs_eq (hp : dispatcher.getPrograms = .ok programs') : programs = programs' :=
  Except.ok.inj (h.getPrograms.symm.trans hp)

/-- So are the slots. -/
theorem slots_eq (hs : dispatcher.getInterconnectSlots = .ok slots') : slots = slots' :=
  Except.ok.inj (h.getInterconnectSlots.symm.trans hs)

/-- So are the initial values. -/
theorem memories_eq (hm : dispatcher.getMemoryInitializations = .ok memories') :
    memories = memories' :=
  Except.ok.inj (h.getMemoryInitializations.symm.trans hm)

end Elaborates

/-- No stage fails. `s` is the prepared deployer. -/
structure Deployable (dispatcher : EmulatorDispatcher) (programs : List DeployedProgram)
    (slots : List DeployerInterconnectSlot) (memories : String → List MemoryInitValue)
    (s : HilDeployer) : Prop where
  length_le : programs.length ≤ 32
  ne_nil : programs ≠ []
  lcmFits : LcmFits 1 (programs.map (·.samplingFrequency.toNat))
  hasWords : ∀ d ∈ destinations slots programs, HasWords d
  dmaReady : ∀ p ∈ programs, s.DmaReady p
  memoriesReady : ∀ p ∈ programs, MemoriesReady memories p
  hasInputs : ∀ p ∈ programs, HasInputs dispatcher p
  inputsReady : ∀ a ∈ inputActions s.addresses dispatcher programs, a.Ready

/-- The divider values that the sequencer gets. -/
def dividers (pl : Platform) (programs : List DeployedProgram) (s : HilDeployer) : List Nat :=
  programs.map (coreDivider pl s.timebaseFrequency)

/-- The shifts that the sequencer gets. -/
def shifts (sort : ExecutionOrderSort) (programs : List DeployedProgram) (s : HilDeployer) :
    List Nat :=
  programs.map fun p => shiftOf (sortedData sort s programs) p.name

/-- The writes before those of the sequencer. -/
def setupRequests (env : Environment Spec) (arguments : Spec) (programs : List DeployedProgram)
    (memories : String → List MemoryInitValue) (s : HilDeployer) : List Request :=
  programs.flatMap s.programDmaRequests ++ programs.flatMap (programMemoryRequests memories s) ++
    InputAction.requestsOf env.platform
      (inputActions s.addresses (env.dispatcher arguments) programs) (labelPrograms programs s)

/-- All register writes of a deployment. `s` is the prepared deployer. -/
def writeRequests (env : Environment Spec) (arguments : Spec) (programs : List DeployedProgram)
    (memories : String → List MemoryInitValue) (s : HilDeployer) : List Request :=
  setupRequests env arguments programs memories s ++
    sequencerRequests s.addresses (timebasePeriod env.platform s) programs.length
      (dividers env.platform programs s) (shifts env.sort programs s) ++
    programs.map s.coreRequest

/-- All requests of a deployment. `s` is the prepared deployer. -/
def deploymentRequests (env : Environment Spec) (arguments : Spec)
    (programs : List DeployedProgram) (memories : String → List MemoryInitValue)
    (s : HilDeployer) : List Request :=
  programs.map (loadRequest s.addresses) ++ writeRequests env arguments programs memories s

/-- The deployer after a deployment, but for the requests. `s` is the prepared deployer. -/
def deployed (env : Environment Spec) (arguments : Spec) (programs : List DeployedProgram)
    (s : HilDeployer) : HilDeployer :=
  InputAction.recordAll (inputActions s.addresses (env.dispatcher arguments) programs)
    (labelPrograms programs s)

/-- A deployment begins with an empty record. -/
theorem clearOperations_eq_ok {s s' : HilDeployer} {u : Unit} :
    (base (DeployerBase.onBridge FpgaBridge.clearOperationsVector)).run s = .ok u s' ↔
      s' = { s with hw := { s.hw with busses := { s.hw.busses with operations := [] } } } := by
  simp only [base_eq_ok, DeployerBase.onBridge_eq_ok, FpgaBridge.clearOperationsVector,
    FpgaBridge.onBus_eq_ok, BusAccessor.clearOperations, Exec.modify_eq_ok, exists_eq_left]

/-! ## What the requests of a stage do not depend on -/

section Independence

variable (s : HilDeployer) (rs : List Request) (programs : List DeployedProgram)
  (actions : List InputAction)

@[simp] theorem emit_addresses : (s.emit rs).addresses = s.addresses := rfl

/-- The requests of a DMA do not depend on the bridge. -/
@[simp] theorem emit_programDmaRequests :
    (s.emit rs).programDmaRequests = s.programDmaRequests := rfl

@[simp] theorem emit_dmaReady (p : DeployedProgram) : (s.emit rs).DmaReady p ↔ s.DmaReady p :=
  Iff.rfl

@[simp] theorem emit_programMemoryRequests (memories : String → List MemoryInitValue) :
    programMemoryRequests memories (s.emit rs) = programMemoryRequests memories s := rfl

/-- Neither does the period. -/
@[simp] theorem emit_timebasePeriod (pl : Platform) :
    timebasePeriod pl (s.emit rs) = timebasePeriod pl s := rfl

@[simp] theorem emit_coreRequest : (s.emit rs).coreRequest = s.coreRequest := rfl

/-- Labels and requests commute. -/
@[simp] theorem labelPrograms_emit :
    labelPrograms programs (s.emit rs) = (labelPrograms programs s).emit rs := rfl

@[simp] theorem labelPrograms_hw : (labelPrograms programs s).hw = s.hw := rfl

@[simp] theorem labelPrograms_addresses : (labelPrograms programs s).addresses = s.addresses := rfl

/-- The memories do not look at the labels. -/
@[simp] theorem labelPrograms_programMemoryRequests (memories : String → List MemoryInitValue) :
    programMemoryRequests memories (labelPrograms programs s) =
      programMemoryRequests memories s := rfl

@[simp] theorem labelPrograms_timebasePeriod (pl : Platform) :
    timebasePeriod pl (labelPrograms programs s) = timebasePeriod pl s := rfl

@[simp] theorem labelPrograms_coreRequest :
    (labelPrograms programs s).coreRequest = s.coreRequest := rfl

@[simp] theorem recordAll_addresses :
    (InputAction.recordAll actions s).addresses = s.addresses := by
  rw [InputAction.recordAll_eq]

/-- The inputs do not change the period. -/
@[simp] theorem recordAll_timebasePeriod (pl : Platform) :
    timebasePeriod pl (InputAction.recordAll actions s) = timebasePeriod pl s := by
  rw [InputAction.recordAll_eq]
  rfl

@[simp] theorem recordAll_coreRequest :
    (InputAction.recordAll actions s).coreRequest = s.coreRequest := by
  rw [InputAction.recordAll_eq]
  rfl

end Independence

/-! ## The stages together -/

section Stages

variable {env : Environment Spec} {arguments : Spec} {programs : List DeployedProgram}
  {slots : List DeployerInterconnectSlot} {memories : String → List MemoryInitValue}

/-- The stages up to the first register write. -/
theorem prepare_eq_ok (h : Elaborates (env.dispatcher arguments) programs slots memories)
    {s s' : HilDeployer} {ds ss : List Nat} :
    (∃ u s₁, (forM programs (setupProgram env.isa)).run
        (withBusMap slots (reset (env.hash arguments) s)) = .ok u s₁ ∧
      ∃ t s₂, (accumulateLcm 1 (programs.map (·.samplingFrequency.toNat))).run s₁ = .ok t s₂ ∧
      ∃ s₃, (calculateTimebaseDivider env.platform (env.dispatcher arguments)).run
        (withTimebase t s₂) = .ok ds s₃ ∧
      ∃ s₄, (calculateTimebaseShift env.sort (env.dispatcher arguments)).run s₃ = .ok ss s₄ ∧
      ∃ v, (setupInterconnectIv (env.dispatcher arguments) programs).run s₄ = .ok v s') ↔
      s.hw.Admits (programs.map (loadRequest s.addresses)) ∧
        LcmFits 1 (programs.map (·.samplingFrequency.toNat)) ∧ programs ≠ [] ∧
        (∀ d ∈ destinations slots programs, HasWords d) ∧
        ds = dividers env.platform programs (prepared env arguments programs slots s) ∧
        ss = shifts env.sort programs (prepared env arguments programs slots s) ∧
        s' = (prepared env arguments programs slots s).emit
          (programs.map (loadRequest s.addresses)) := by
  have hadmits : (withBusMap slots (reset (env.hash arguments) s)).hw.Admits
      (programs.map (loadRequest s.addresses)) ↔
        s.hw.Admits (programs.map (loadRequest s.addresses)) := Iff.rfl
  simp only [setupPrograms_eq_ok, accumulateLcm_programs_eq_ok,
    calculateTimebaseDivider_eq_ok h.getPrograms, calculateTimebaseShift_eq_ok h.getPrograms,
    setupInterconnectIv_eq_ok h.getInterconnectSlots, and_assoc, exists_const, exists_and_left,
    exists_eq_left, prepared]
  generalize int32 (frequencyLcm programs) = timebaseFrequency
  constructor
  · rintro ⟨ha, hl, rfl, hne, rfl, hw, rfl⟩
    exact ⟨ha, hl, hne, hw, rfl, rfl, rfl⟩
  · rintro ⟨ha, hl, hne, hw, rfl, rfl, rfl⟩
    exact ⟨ha, hl, rfl, hne, rfl, hw, rfl⟩

/-- As many programs as there can be fit 16 bits. -/
theorem u16_length (hlen : programs.length ≤ 32) : u16 programs.length = programs.length :=
  Nat.mod_eq_of_lt (by omega)

/-- The sequencer gets a divider and a shift for each program. -/
theorem sequencer_data (env : Environment Spec) (programs : List DeployedProgram)
    (s : HilDeployer) : ∀ i < programs.length,
    i < (dividers env.platform programs s).length ∧ i < (shifts env.sort programs s).length := by
  intro i hi
  rw [dividers, shifts, List.length_map, List.length_map]
  exact ⟨hi, hi⟩

/-- The stages from the first register write on, on the prepared deployer. -/
theorem write_eq_ok (hlen : programs.length ≤ 32) {s s' : HilDeployer} {rs : List Request}
    {u : Unit} :
    (∃ v s₁, (forM programs (setupProgramDma env.platform)).run (s.emit rs) = .ok v s₁ ∧
      ∃ v s₂, (forM programs (setupProgramMemories env.platform memories)).run s₁ = .ok v s₂ ∧
      ∃ v s₃, (setupInputs env.platform (env.dispatcher arguments) programs).run s₂ = .ok v s₃ ∧
      ∃ v s₄, (setupSequencer env.platform programs.length (dividers env.platform programs s)
        (shifts env.sort programs s)).run s₃ = .ok v s₄ ∧
      (setupCores env.platform programs).run s₄ = .ok u s') ↔
      (∀ p ∈ programs, s.DmaReady p) ∧ (∀ p ∈ programs, MemoriesReady memories p) ∧
        (∀ p ∈ programs, HasInputs (env.dispatcher arguments) p) ∧
        (∀ a ∈ inputActions s.addresses (env.dispatcher arguments) programs, a.Ready) ∧
        s.hw.Admits (writeRequests env arguments programs memories s) ∧
        s' = (deployed env arguments programs s).emit
          (rs ++ writeRequests env arguments programs memories s) := by
  simp only [setupProgramDmas_eq_ok, setupAllMemories_eq_ok, setupInputs_eq_ok,
    InputAction.forM_run_eq_ok, setupSequencer_eq_ok, setupCores_eq_ok, and_assoc, exists_const,
    exists_and_left, exists_eq_left, emit_addresses, emit_programDmaRequests, emit_dmaReady,
    emit_programMemoryRequests, emit_timebasePeriod, emit_coreRequest, emit_emit, emit_hw,
    labelPrograms_emit, labelPrograms_hw, labelPrograms_addresses,
    labelPrograms_programMemoryRequests, labelPrograms_timebasePeriod, labelPrograms_coreRequest,
    InputAction.recordAll_emit, InputAction.requestsOf_emit, InputAction.recordAll_hw,
    recordAll_addresses, recordAll_timebasePeriod, recordAll_coreRequest,
    FpgaBridge.admits_performAll, FpgaBridge.admits_append, List.append_assoc, writeRequests,
    setupRequests, deployed]
  rw [u16_length hlen]
  constructor
  · rintro ⟨hd, ad, hm, am, hi, hr, ai, -, as, ac, rfl⟩
    exact ⟨hd, hm, hi, hr, ad, am, ai, as, ac, rfl⟩
  · rintro ⟨hd, hm, hi, hr, ad, am, ai, as, ac, rfl⟩
    exact ⟨hd, ad, hm, am, hi, hr, ai, sequencer_data env programs s, as, ac, rfl⟩

/-- A deployment returns exactly when the toolchain does, no stage fails and the bus admits the
requests. -/
theorem deploy_eq_ok {s s' : HilDeployer} {u : Unit} :
    (deploy env arguments).run s = .ok u s' ↔
      ∃ programs slots memories, Elaborates (env.dispatcher arguments) programs slots memories ∧
        Deployable (env.dispatcher arguments) programs slots memories
          (prepared env arguments programs slots s) ∧
        s.hw.Admits (deploymentRequests env arguments programs memories
          (prepared env arguments programs slots s)) ∧
        s' = (deployed env arguments programs (prepared env arguments programs slots s)).emit
          (deploymentRequests env arguments programs memories
            (prepared env arguments programs slots s)) := by
  have hreset : ∀ (t : HilDeployer) (slots : List DeployerInterconnectSlot),
      ({ t with
        deployedHash := env.hash arguments
        minTimebase := 0
        activeWaveforms := 0
        activeRandomInputs := 0
        inputsLabels := ∅
        busLabels := ∅
        busMap := slots
        hw := { t.hw with busses := { t.hw.busses with operations := [] } } } : HilDeployer) =
      withBusMap slots (reset (env.hash arguments) t) := fun _ _ => rfl
  have htimebase : ∀ (t : HilDeployer) (f : Int),
      ({ t with timebaseFrequency := f } : HilDeployer) = withTimebase f t := fun _ _ => rfl
  simp only [deploy, Exec.bind_eq_ok, Exec.modify_eq_ok, callDispatcher_eq_ok,
    Exec.throwIf_eq_ok, clearOperations_eq_ok, and_assoc, exists_const, exists_and_left,
    exists_eq_left, hreset, htimebase]
  constructor
  · rintro ⟨_, hspecs, programs, hprograms, slots, hslots, hlen, v₁, s₁, h₁, t, s₂, h₂, ds, s₃, h₃,
      ss, s₄, h₄, v₅, s₅, h₅, v₆, s₆, h₆, memories, hmemories, hrest⟩
    have h : Elaborates (env.dispatcher arguments) programs slots memories :=
      ⟨hspecs, hprograms, hslots, hmemories⟩
    obtain ⟨ha, hl, hne, hw, rfl, rfl, rfl⟩ := (prepare_eq_ok h).1
      ⟨v₁, s₁, h₁, t, s₂, h₂, s₃, h₃, s₄, h₄, v₅, h₅⟩
    obtain ⟨hd, hm, hi, hr, ha', rfl⟩ := (write_eq_ok (not_lt.1 hlen)).1 ⟨v₆, s₆, h₆, hrest⟩
    exact ⟨programs, slots, memories, h, ⟨not_lt.1 hlen, hne, hl, hw, hd, hm, hi, hr⟩,
      (FpgaBridge.admits_append _ _ _).2 ⟨ha, ha'⟩, rfl⟩
  · rintro ⟨programs, slots, memories, h, ⟨hlen, hne, hl, hw, hd, hm, hi, hr⟩, ha, rfl⟩
    obtain ⟨ha, ha'⟩ := (FpgaBridge.admits_append _ _ _).1 ha
    obtain ⟨v₁, s₁, h₁, t, s₂, h₂, s₃, h₃, s₄, h₄, v₅, h₅⟩ :=
      (prepare_eq_ok h).2 ⟨ha, hl, hne, hw, rfl, rfl, rfl⟩
    obtain ⟨v₆, s₆, h₆, hrest⟩ := (write_eq_ok hlen).2 ⟨hd, hm, hi, hr, ha', rfl⟩
    exact ⟨_, h.setSpecs, programs, h.getPrograms, slots, h.getInterconnectSlots, not_lt.2 hlen,
      v₁, s₁, h₁, t, s₂, h₂, _, s₃, h₃, _, s₄, h₄, v₅, _, h₅, v₆, s₆, h₆, memories,
      h.getMemoryInitializations, hrest⟩

end Stages

end HilDeployer

end UscopeDriver
