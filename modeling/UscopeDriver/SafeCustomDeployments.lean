import UscopeDriver.CustomWrites
import UscopeDriver.SafeSetups

/-!
# Deployments of custom logic that can be caught

The same for the other deployer. It also asks the toolchain where each core is, and what that
throws is caught as well (`failsOnly_deploy_iff`).
-/

namespace UscopeDriver

open Exec (FailsOnly)
open Failure (IsRuntimeError)

namespace CustomDeployer

open DeployerBase (SupportedInput)
open HilDeployer (HasInputs)

variable {pl : Platform} {options : String → Except String DeploymentOptions}
  {memories : String → List MemoryInitValue} {dispatcher : EmulatorDispatcher}

theorem failsOnly_base {α : Type} {m : Exec Failure DeployerBase α} {s : CustomDeployer} :
    FailsOnly IsRuntimeError (base m) s ↔ FailsOnly IsRuntimeError m s.toDeployerBase :=
  Exec.failsOnly_zoom

/-- A stage that first asks for the options. -/
theorem failsOnly_callOptions_bind {β : Type} {p : DeployedProgram}
    {f : DeploymentOptions → Exec Failure CustomDeployer β} {s : CustomDeployer} :
    FailsOnly IsRuntimeError (callDispatcher (options p.name) >>= f) s ↔
      (HasOptions options p → FailsOnly IsRuntimeError (f (optionsOf options p)) s) := by
  rw [failsOnly_callDispatcher_bind]
  unfold HasOptions optionsOf
  cases options p.name with
  | ok opts => simp
  | error what => simp

/-! ## The stages -/

/-- The load of a program with options. -/
def LoadSafe (options : String → Except String DeploymentOptions) (p : DeployedProgram)
    (s : CustomDeployer) : Prop :=
  HasOptions options p → s.hw.Admits [loadRequest options p]

theorem stopping_setupProgram : Drives.Stopping IsRuntimeError (setupProgram options)
    (LoadSafe options) (fun p _ => HasOptions options p) recordProgram := by
  refine round_setupProgram.stopping (fun p s => ?_) (fun p s hsafe => ?_) (fun p s rs => ?_)
    fun _ _ _ => Iff.rfl
  · rw [setupProgram, failsOnly_callOptions_bind]
    refine imp_congr_right fun _ => ?_
    rw [Exec.failsOnly_modify_bind, failsOnly_base, DeployerBase.failsOnly_loadCore]
    exact Iff.rfl
  · simp only [round_setupProgram.run, exists_const, exists_and_left, exists_eq, and_true]
    exact ⟨fun h => ⟨h, hsafe h⟩, And.left⟩
  · simp only [LoadSafe, drives_emit, emit_hw, FpgaBridge.admits_performAll]

/-- The DMA of the program in position `i`. -/
def ProgramDmaSafe (program : DeployedProgram × Nat) (s : CustomDeployer) : Prop :=
  DeployerBase.DmaSafe
    (u64 (s.addresses.bases.coresControl + s.addresses.offsets.coresControl * program.2 +
      s.addresses.offsets.dma))
    program.1.nChannels.toNat program.1.name s.toDeployerBase

/-- The entries of a program can be mapped. -/
def DmaMappable (program : DeployedProgram × Nat) (s : CustomDeployer) : Prop :=
  ∀ e ∈ DeployerBase.entriesOf s.busMap program.1.name, DeployerBase.Mappable e

theorem stopping_setupProgramDma : Drives.Stopping IsRuntimeError (setupProgramDma pl)
    ProgramDmaSafe DmaMappable labelProgram := by
  refine round_setupProgramDma.stopping (fun p s => ?_) (fun p s hsafe => ?_)
    (fun p s rs => DeployerBase.dmaSafe_emit rs) fun _ _ _ => Iff.rfl
  · rw [setupProgramDma, Exec.failsOnly_gets_bind, Exec.failsOnly_bind, failsOnly_base]
    exact (and_iff_left fun _ _ _ => Exec.failsOnly_pure _ _).trans
      DeployerBase.failsOnly_setupOutputDma
  · simp only [round_setupProgramDma.run, exists_const, exists_and_left, exists_eq, and_true]
    exact hsafe.goes_iff

/-- The memories of a program with options. -/
def ProgramMemoriesSafe (options : String → Except String DeploymentOptions)
    (memories : String → List MemoryInitValue) (p : DeployedProgram) (s : CustomDeployer) : Prop :=
  HasOptions options p →
    (∀ m ∈ memories p.name, DeployerBase.MemoryReady p.nChannels.toNat m) ∧
      s.hw.Admits (programMemoryRequests options memories p)

theorem stopping_setupProgramMemories : Drives.Stopping IsRuntimeError
    (setupProgramMemories pl options memories) (ProgramMemoriesSafe options memories)
    (fun p _ => HasOptions options p) fun _ s => s where
  failsOnly := fun p s => by
    rw [setupProgramMemories, failsOnly_callOptions_bind]
    refine imp_congr_right fun _ => ?_
    rw [failsOnly_base, DeployerBase.failsOnly_setupMemories]
    exact Iff.rfl
  goes := fun p s hsafe => by
    simp only [setupProgramMemories_eq_ok, exists_const, exists_and_left, exists_eq, and_true]
    exact ⟨fun h => ⟨⟨h, (hsafe h).1⟩, (hsafe h).2⟩, fun h => h.1.1⟩
  moves := fun p s u s' hrun => ⟨_, ((setupProgramMemories_eq_ok p s u s').1 hrun).2.2⟩
  record := fun _ _ _ => rfl
  safe_emit := fun p s rs => by
    simp only [ProgramMemoriesSafe, drives_emit, emit_hw, FpgaBridge.admits_performAll]
  goes_emit := fun _ _ _ => Iff.rfl

/-- The core of a program with options. -/
def CoreSafe (options : String → Except String DeploymentOptions) (p : DeployedProgram)
    (s : CustomDeployer) : Prop :=
  HasOptions options p → s.hw.Admits [coreRequest options p]

theorem stopping_setupProgramCore : Drives.Stopping IsRuntimeError
    (setupProgramCore pl options) (CoreSafe options) (fun p _ => HasOptions options p)
    fun _ s => s where
  failsOnly := fun p s => by
    rw [setupProgramCore, failsOnly_callOptions_bind]
    refine imp_congr_right fun _ => ?_
    rw [failsOnly_base, DeployerBase.setupCore, DeployerBase.failsOnly_writeRegister]
    exact Iff.rfl
  goes := fun p s hsafe => by
    simp only [setupProgramCore_eq_ok, exists_const, exists_and_left, exists_eq, and_true]
    exact ⟨fun h => ⟨h, hsafe h⟩, And.left⟩
  moves := fun p s u s' hrun => ⟨_, ((setupProgramCore_eq_ok p s u s').1 hrun).2.2⟩
  record := fun _ _ _ => rfl
  safe_emit := fun p s rs => by
    simp only [CoreSafe, drives_emit, emit_hw, FpgaBridge.admits_performAll]
  goes_emit := fun _ _ _ => Iff.rfl

/-! ## Inputs -/

theorem stopping_runSetup : Drives.Stopping IsRuntimeError (runSetup pl)
    (fun c s => c.Safe pl s.toDeployerBase) (fun c _ => SupportedInput c.input) recordSetup := by
  refine round_runSetup.stopping (fun c s => ?_) (fun c s hsafe => ?_) (fun c s rs => ?_)
    fun _ _ _ => Iff.rfl
  · exact failsOnly_base.trans (c.failsOnly_run s.toDeployerBase)
  · simp only [round_runSetup.run, exists_const, exists_and_left, exists_eq, and_true]
    exact ⟨hsafe.1, fun h => InputSetup.supported_of_ready h.1⟩
  · simp only [InputSetup.Safe, drives_emit, emit, DeployerBase.emit_hw,
      FpgaBridge.admits_performAll, InputSetup.requests_emit]

/-- If the toolchain has the inputs of a program, their setups are safe up to the first refusal. -/
def ProgramInputsSafe (pl : Platform) (dispatcher : EmulatorDispatcher) (p : DeployedProgram)
    (s : CustomDeployer) : Prop :=
  HasInputs dispatcher p → Drives.SafeAlong (fun c s => c.Safe pl s.toDeployerBase)
    (fun c _ => SupportedInput c.input) recordSetup (programSetups s.addresses dispatcher p) s

/-- The toolchain has the inputs of a program, and all are supported. -/
def InputsSupported (dispatcher : EmulatorDispatcher) (p : DeployedProgram) (s : CustomDeployer) :
    Prop :=
  HasInputs dispatcher p ∧ ∀ c ∈ programSetups s.addresses dispatcher p, SupportedInput c.input

/-- The deployer after the inputs of a program were set up, apart from the bridge. -/
def recordInputs (dispatcher : EmulatorDispatcher) (p : DeployedProgram) (s : CustomDeployer) :
    CustomDeployer :=
  recordSetups (programSetups s.addresses dispatcher p) s

theorem stopping_setupInputsOf : Drives.Stopping IsRuntimeError (setupInputsOf pl dispatcher)
    (ProgramInputsSafe pl dispatcher) (InputsSupported dispatcher) (recordInputs dispatcher) where
  failsOnly := fun p s => by
    rw [setupInputsOf, failsOnly_callDispatcher_bind]
    unfold ProgramInputsSafe HasInputs programSetups HilDeployer.inputsOf
    cases dispatcher.getInputs p.name with
    | ok inputs =>
      simp only [Except.ok.injEq, forall_eq', exists_eq', true_imp_iff]
      rw [← (@stopping_runSetup pl).failsOnly_forM]
      unfold FailsOnly
      rw [run_forM_setupProgramInput]
    | error what => simp
  goes := fun p s hsafe => by
    simp only [setupInputsOf_eq_ok, exists_and_left]
    exact and_congr_right fun hhas =>
      (@stopping_runSetup pl).forall_goes_iff (fun _ _ _ => Iff.rfl) (hsafe hhas)
  moves := fun p s u s' hrun => ⟨_, (forM_runSetup_eq_ok.1 (setupInputsOf_eq_ok.1 hrun).2).2.2⟩
  record := fun p s rs => recordSetups_emit s rs _
  safe_emit := fun p s rs =>
    imp_congr_right fun _ => (@stopping_runSetup pl).safeAlong_emit _ s rs
  goes_emit := fun _ _ _ => Iff.rfl

/-! ## The whole deployment -/

section Deployment

variable {w : Surroundings} {arguments : Json} {programs : List DeployedProgram}

/-- From the inputs stage on, the deployment is safe up to its first refusal. -/
def InputsSafe (w : Surroundings) (arguments : Json) (programs : List DeployedProgram)
    (s : CustomDeployer) : Prop :=
  Drives.SafeAlong (ProgramInputsSafe w.env.platform (w.env.dispatcher arguments))
      (InputsSupported (w.env.dispatcher arguments)) (recordInputs (w.env.dispatcher arguments))
      programs s ∧
    ((∀ p ∈ programs, InputsSupported (w.env.dispatcher arguments) p s) →
      ∀ p ∈ programs, CoreSafe (w.deploymentOptions arguments) p s)

/-- The same from the memories on. -/
def MemoriesSafe (w : Surroundings) (arguments : Json) (programs : List DeployedProgram)
    (s : CustomDeployer) : Prop :=
  ∀ memories, (w.env.dispatcher arguments).getMemoryInitializations = .ok memories →
    (∀ p ∈ programs, ProgramMemoriesSafe (w.deploymentOptions arguments) memories p s) ∧
      InputsSafe w arguments programs s

/-- The same from the DMAs on. -/
def WritesSafe (w : Surroundings) (arguments : Json) (programs : List DeployedProgram)
    (s : CustomDeployer) : Prop :=
  Drives.SafeAlong ProgramDmaSafe DmaMappable labelProgram programs.zipIdx s ∧
    ((∀ program ∈ programs.zipIdx, DmaMappable program s) →
      MemoriesSafe w arguments programs (labelPrograms programs s))

/-- A deployment is safe up to its first refusal. -/
def DeploymentSafe (w : Surroundings) (arguments : Json) (s : CustomDeployer) : Prop :=
  ∀ programs slots, (w.env.dispatcher arguments).setSpecs = .ok () →
    (w.env.dispatcher arguments).getPrograms = .ok programs →
    (w.env.dispatcher arguments).getInterconnectSlots = .ok slots →
    Drives.SafeAlong (LoadSafe (w.deploymentOptions arguments))
      (fun p _ => HasOptions (w.deploymentOptions arguments) p) recordProgram programs
      (withBusMap slots s) ∧
    ((∀ p ∈ programs, HasOptions (w.deploymentOptions arguments) p) →
      WritesSafe w arguments programs (recordPrograms programs (withBusMap slots s)))

/-- The cores, when the toolchain has the options of all programs. -/
theorem failsOnly_cores
    (ho : ∀ p ∈ programs, HasOptions (w.deploymentOptions arguments) p) {s : CustomDeployer} :
    FailsOnly IsRuntimeError
      (forM programs (setupProgramCore w.env.platform (w.deploymentOptions arguments))) s ↔
      ∀ p ∈ programs, CoreSafe (w.deploymentOptions arguments) p s := by
  rw [stopping_setupProgramCore.failsOnly_forM]
  exact Drives.safeAlong_of_goes (fun _ _ _ => Iff.rfl) (fun _ _ _ => Iff.rfl) ho

theorem failsOnly_inputs (ho : ∀ p ∈ programs, HasOptions (w.deploymentOptions arguments) p)
    {s : CustomDeployer} (rs : List Request) :
    FailsOnly IsRuntimeError (do
      forM programs (setupInputsOf w.env.platform (w.env.dispatcher arguments))
      forM programs (setupProgramCore w.env.platform (w.deploymentOptions arguments)))
      (s.emit rs) ↔ InputsSafe w arguments programs s := by
  refine (stopping_setupInputsOf.failsOnly_forM_bind (fun p q t => ?_) fun u t hrun => ?_).trans
    (and_congr_left' (stopping_setupInputsOf.safeAlong_emit programs s rs))
  · unfold InputsSupported recordInputs
    rw [recordSetups_eq]
  · obtain ⟨-, -, rfl⟩ := forM_runSetup_eq_ok.1 (setupAllInputs_eq_ok.1 hrun).2
    rw [failsOnly_cores ho]
    simp only [CoreSafe, recordSetups_emit, recordSetups_hw, emit_hw, FpgaBridge.admits_performAll]

theorem failsOnly_memories (ho : ∀ p ∈ programs, HasOptions (w.deploymentOptions arguments) p)
    {s : CustomDeployer} (rs : List Request) :
    FailsOnly IsRuntimeError (do
      let memories ← callDispatcher (w.env.dispatcher arguments).getMemoryInitializations
      forM programs (setupProgramMemories w.env.platform (w.deploymentOptions arguments) memories)
      forM programs (setupInputsOf w.env.platform (w.env.dispatcher arguments))
      forM programs (setupProgramCore w.env.platform (w.deploymentOptions arguments)))
      (s.emit rs) ↔ MemoriesSafe w arguments programs s := by
  rw [failsOnly_callDispatcher_bind]
  refine forall_congr' fun memories => imp_congr_right fun _ => ?_
  have hstop :=
    @stopping_setupProgramMemories w.env.platform (w.deploymentOptions arguments) memories
  refine (hstop.failsOnly_forM_bind (fun _ _ _ => Iff.rfl) fun u t hrun => ?_).trans <|
    and_congr ((hstop.safeAlong_emit programs s rs).trans ?_) (forall_prop_of_true ho)
  · obtain ⟨-, -, rfl⟩ := setupAllMemories_eq_ok.1 hrun
    rw [emit_emit]
    exact failsOnly_inputs ho _
  · exact Drives.safeAlong_of_goes (fun _ _ _ => Iff.rfl) (fun _ _ _ => Iff.rfl) ho

theorem failsOnly_writes (ho : ∀ p ∈ programs, HasOptions (w.deploymentOptions arguments) p)
    {s : CustomDeployer} (rs : List Request) :
    FailsOnly IsRuntimeError (do
      forM programs.zipIdx (setupProgramDma w.env.platform)
      let memories ← callDispatcher (w.env.dispatcher arguments).getMemoryInitializations
      forM programs (setupProgramMemories w.env.platform (w.deploymentOptions arguments) memories)
      forM programs (setupInputsOf w.env.platform (w.env.dispatcher arguments))
      forM programs (setupProgramCore w.env.platform (w.deploymentOptions arguments)))
      (s.emit rs) ↔ WritesSafe w arguments programs s := by
  have hstop := @stopping_setupProgramDma w.env.platform
  refine (hstop.failsOnly_forM_bind (fun _ _ _ => Iff.rfl) fun u t hrun => ?_).trans
    (and_congr_left' (hstop.safeAlong_emit programs.zipIdx s rs))
  obtain ⟨-, -, rfl⟩ := setupProgramDmas_eq_ok.1 hrun
  rw [labelPrograms_emit, emit_emit]
  exact failsOnly_memories ho _

theorem failsOnly_stages {s : CustomDeployer} :
    FailsOnly IsRuntimeError (do
      forM programs (setupProgram (w.deploymentOptions arguments))
      forM programs.zipIdx (setupProgramDma w.env.platform)
      let memories ← callDispatcher (w.env.dispatcher arguments).getMemoryInitializations
      forM programs (setupProgramMemories w.env.platform (w.deploymentOptions arguments) memories)
      forM programs (setupInputsOf w.env.platform (w.env.dispatcher arguments))
      forM programs (setupProgramCore w.env.platform (w.deploymentOptions arguments))) s ↔
      Drives.SafeAlong (LoadSafe (w.deploymentOptions arguments))
        (fun p _ => HasOptions (w.deploymentOptions arguments) p) recordProgram programs s ∧
      ((∀ p ∈ programs, HasOptions (w.deploymentOptions arguments) p) →
        WritesSafe w arguments programs (recordPrograms programs s)) := by
  refine stopping_setupProgram.failsOnly_forM_bind (fun _ _ _ => Iff.rfl) fun u t hrun => ?_
  obtain ⟨ho, -, rfl⟩ := setupPrograms_eq_ok.1 hrun
  exact failsOnly_writes ho _

/-- A deployment returns or throws what is caught exactly when it is safe up to its first
refusal. -/
theorem failsOnly_deploy_iff {s : CustomDeployer} :
    FailsOnly IsRuntimeError (deploy w arguments) s ↔ DeploymentSafe w arguments s := by
  unfold deploy DeploymentSafe
  simp only [failsOnly_callDispatcher_bind, Exec.failsOnly_modify_bind]
  constructor
  · intro hdeploy programs slots hspecs hprograms hslots
    exact failsOnly_stages.1 (hdeploy () hspecs programs hprograms slots hslots)
  · intro hsafe _ hspecs programs hprograms slots hslots
    exact failsOnly_stages.2 (hsafe programs slots hspecs hprograms hslots)

end Deployment

end CustomDeployer

end UscopeDriver
