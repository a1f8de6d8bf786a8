import UscopeDriver.SafeSetups

/-!
# Deployments that can be caught

Exactly when a deployment returns or throws what its caller catches (`failsOnly_deploy_iff`). What
the toolchain throws is caught, and so are the refusals of the deployer : a specification for more
than 32 cores, an entry that cannot be mapped, an unsupported waveform. Up to there the deployment
must be free of the rest : requests that the bus does not admit, a timebase that does not fit its
type, a missing word or an empty list of programs.
-/

namespace UscopeDriver

open Exec (FailsOnly FrameAt)
open Failure (IsRuntimeError)

/-! ## The inputs stage -/

namespace InputAction

open HilDeployer

/-- The action asks for a waveform that there is. -/
def Supported : InputAction → Prop
  | .setup c => DeployerBase.SupportedInput c.input
  | _ => True

/-- What the action reads is there and its writes are admitted, up to its refusal. -/
def Safe (pl : Platform) (s : HilDeployer) : InputAction → Prop
  | .setup c => c.Safe pl s.toDeployerBase
  | a => s.hw.Admits (a.requests pl s)

theorem failsOnly_run {pl : Platform} (a : InputAction) (s : HilDeployer) :
    FailsOnly IsRuntimeError (a.run pl) s ↔ a.Safe pl s := by
  cases a with
  | setup c => exact Exec.failsOnly_zoom.trans (c.failsOnly_run s.toDeployerBase)
  | label path coreIdx =>
    exact iff_of_true (Exec.failsOnly_modify _ s) (FpgaBridge.admits_nil _)
  | enableRandom =>
    have hframe := frameAt_action (E := False) DeployerBase.steps_advances pl
      (a := .enableRandom) (s := s) (n := s.activeRandomInputs) nofun nofun (fun _ => trivial)
      le_rfl
    rw [failsOnly_iff_of_frame hframe]
    simp only [run_eq_ok, Ready, exists_const, exists_and_left, exists_eq, and_true, true_and, Safe]

theorem stopping_run (pl : Platform) :
    Drives.Stopping IsRuntimeError (run pl) (fun a s => a.Safe pl s) (fun a _ => a.Supported)
      (fun a s => a.record s) := by
  refine (round_run pl).stopping failsOnly_run (fun a s hsafe => ?_) (fun a s rs => ?_)
    fun _ _ _ => Iff.rfl
  · simp only [run_eq_ok, exists_const, exists_and_left, exists_eq, and_true]
    cases a with
    | setup c => exact ⟨hsafe.1, fun h => InputSetup.supported_of_ready h.1⟩
    | label path coreIdx => exact iff_of_true trivial ⟨trivial, hsafe⟩
    | enableRandom => exact iff_of_true trivial ⟨trivial, hsafe⟩
  · cases a with
    | setup c =>
      simp only [Safe, InputSetup.Safe, drives_emit, emit, DeployerBase.emit_hw,
        FpgaBridge.admits_performAll, InputSetup.requests_emit]
    | label path coreIdx => exact FpgaBridge.admits_performAll _ _ _
    | enableRandom => exact FpgaBridge.admits_performAll _ _ _

end InputAction

namespace HilDeployer

open InputAction (ofProgram recordAll)

variable {pl : Platform} {s : HilDeployer}

/-- If the toolchain has the inputs of a program, its actions are safe up to the first refusal. -/
def ProgramInputsSafe (pl : Platform) (dispatcher : EmulatorDispatcher) (p : DeployedProgram)
    (s : HilDeployer) : Prop :=
  HasInputs dispatcher p → Drives.SafeAlong (fun a s => a.Safe pl s) (fun a _ => a.Supported)
    (fun a s => a.record s) (ofProgram s.addresses (inputsOf dispatcher) p) s

/-- The toolchain has the inputs of a program, and all are supported. -/
def InputsSupported (dispatcher : EmulatorDispatcher) (p : DeployedProgram) (s : HilDeployer) :
    Prop :=
  HasInputs dispatcher p ∧ ∀ a ∈ ofProgram s.addresses (inputsOf dispatcher) p, a.Supported

/-- The deployer after the actions of a program, apart from the bridge. -/
def recordInputs (dispatcher : EmulatorDispatcher) (p : DeployedProgram) (s : HilDeployer) :
    HilDeployer :=
  recordAll (ofProgram s.addresses (inputsOf dispatcher) p) s

theorem stopping_setupInputsOf (pl : Platform) (dispatcher : EmulatorDispatcher) :
    Drives.Stopping IsRuntimeError (setupInputsOf pl dispatcher) (ProgramInputsSafe pl dispatcher)
      (InputsSupported dispatcher) (recordInputs dispatcher) where
  failsOnly := fun p s => by
    unfold ProgramInputsSafe
    cases hinputs : dispatcher.getInputs p.name with
    | ok inputs =>
      have hhas : HasInputs dispatcher p := ⟨inputs, hinputs⟩
      rw [forall_prop_of_true hhas, ← (InputAction.stopping_run pl).failsOnly_forM]
      unfold FailsOnly
      rw [run_setupInputsOf hinputs]
    | error what =>
      refine iff_of_true ?_ fun hhas => ?_
      · rw [setupInputsOf, hinputs]
        exact failsOnly_callDispatcher_bind.2 (by rintro _ ⟨⟩)
      · obtain ⟨inputs, hok⟩ := hhas
        rw [hinputs] at hok
        cases hok
  goes := fun p s hsafe => by
    simp only [setupInputsOf_eq_ok, exists_and_left]
    exact and_congr_right fun hhas =>
      (InputAction.stopping_run pl).forall_goes_iff (fun _ _ _ => Iff.rfl) (hsafe hhas)
  moves := fun p s u s' hrun =>
    ⟨_, (InputAction.forM_run_eq_ok.1 (setupInputsOf_eq_ok.1 hrun).2).2.2⟩
  record := fun p s rs => InputAction.recordAll_emit _ s rs
  safe_emit := fun p s rs =>
    imp_congr_right fun _ => (InputAction.stopping_run pl).safeAlong_emit _ s rs
  goes_emit := fun _ _ _ => Iff.rfl

/-! ## The DMAs -/

/-- The DMA of a program. -/
def ProgramDmaSafe (p : DeployedProgram) (s : HilDeployer) : Prop :=
  DeployerBase.DmaSafe (dmaAddress s.addresses (s.coresIdx p.name)) p.nChannels.toNat p.name
    s.toDeployerBase

/-- The entries of a program can be mapped. -/
def DmaMappable (p : DeployedProgram) (s : HilDeployer) : Prop :=
  ∀ e ∈ DeployerBase.entriesOf s.busMap p.name, DeployerBase.Mappable e

theorem stopping_setupProgramDma (pl : Platform) :
    Drives.Stopping IsRuntimeError (setupProgramDma pl) ProgramDmaSafe DmaMappable
      labelProgram := by
  refine (round_setupProgramDma pl).stopping (fun p s => ?_) (fun p s hsafe => ?_)
    (fun p s rs => DeployerBase.dmaSafe_emit rs) fun _ _ _ => Iff.rfl
  · rw [setupProgramDma, Exec.failsOnly_bind_of_ok (Exec.run_gets _ s),
      Exec.failsOnly_bind_of_ok (Exec.run_gets _ s), Exec.failsOnly_bind]
    exact (and_iff_left fun _ _ _ => Exec.failsOnly_pure _ _).trans <|
      Exec.failsOnly_zoom.trans DeployerBase.failsOnly_setupOutputDma
  · simp only [(round_setupProgramDma pl).run, exists_const, exists_and_left, exists_eq, and_true]
    exact hsafe.goes_iff

/-! ## The whole deployment -/

section Deployment

variable {Spec : Type} {env : Environment Spec} {arguments : Spec}
  {programs : List DeployedProgram} {slots : List DeployerInterconnectSlot}

/-- The bus admits the writes of the sequencer and the cores. `s` is the prepared deployer. -/
def EnableSafe (env : Environment Spec) (programs : List DeployedProgram) (s : HilDeployer) :
    Prop :=
  s.hw.Admits (sequencerRequests s.addresses (timebasePeriod env.platform s) programs.length
      (dividers env.platform programs s) (shifts env.sort programs s)) ∧
    s.hw.Admits (programs.map s.coreRequest)

/-- The same from the inputs stage on, up to the first refusal. -/
def InputsSafe (env : Environment Spec) (arguments : Spec) (programs : List DeployedProgram)
    (s : HilDeployer) : Prop :=
  Drives.SafeAlong (ProgramInputsSafe env.platform (env.dispatcher arguments))
      (InputsSupported (env.dispatcher arguments)) (recordInputs (env.dispatcher arguments))
      programs (labelPrograms programs s) ∧
    ((∀ p ∈ programs, InputsSupported (env.dispatcher arguments) p s) → EnableSafe env programs s)

/-- The same from the memories on. -/
def MemoriesSafe (env : Environment Spec) (arguments : Spec) (programs : List DeployedProgram)
    (s : HilDeployer) : Prop :=
  ∀ memories, (env.dispatcher arguments).getMemoryInitializations = .ok memories →
    (∀ p ∈ programs, MemoriesReady memories p) ∧
      s.hw.Admits (programs.flatMap (programMemoryRequests memories s)) ∧
      InputsSafe env arguments programs s

/-- The same from the DMAs on. -/
def WritesSafe (env : Environment Spec) (arguments : Spec) (programs : List DeployedProgram)
    (s : HilDeployer) : Prop :=
  Drives.SafeAlong ProgramDmaSafe DmaMappable labelProgram programs s ∧
    ((∀ p ∈ programs, DmaMappable p s) → MemoriesSafe env arguments programs s)

/-- A deployment is safe up to its first refusal. -/
def DeploymentSafe (env : Environment Spec) (arguments : Spec) (s : HilDeployer) : Prop :=
  ∀ programs slots, (env.dispatcher arguments).setSpecs = .ok () →
    (env.dispatcher arguments).getPrograms = .ok programs →
    (env.dispatcher arguments).getInterconnectSlots = .ok slots → programs.length ≤ 32 →
    s.hw.Admits (programs.map (loadRequest s.addresses)) ∧
      LcmFits 1 (programs.map (·.samplingFrequency.toNat)) ∧ programs ≠ [] ∧
      (∀ d ∈ destinations slots programs, HasWords d) ∧
      WritesSafe env arguments programs (prepared env arguments programs slots s)

/-- The sequencer and the cores throw nothing. -/
theorem failsOnly_enable {divisors shifts : List Nat} {t : HilDeployer} :
    FailsOnly IsRuntimeError (do
      setupSequencer env.platform programs.length divisors shifts
      setupCores env.platform programs) t ↔
      (∀ i < u16 programs.length, i < divisors.length ∧ i < shifts.length) ∧
        t.hw.Admits (sequencerRequests t.addresses (timebasePeriod env.platform t)
          (u16 programs.length) divisors shifts) ∧
        t.hw.Admits (programs.map t.coreRequest) := by
  have hsequencer : Exec.Frame Failure.Fatal False (Over DeployerBase.Advances)
      (setupSequencer env.platform programs.length divisors shifts) := by
    rw [setupSequencer_eq]
    exact Exec.Frame.bind
      (fun s => frameAt_setupTimebase DeployerBase.steps_advances env.platform _ _
        (s := s) fun _ _ => trivial)
      fun _ => (Exec.frame_gets _).bind fun _ =>
        frame_writeRegister DeployerBase.steps_advances env.platform _ trivial
  have hcores : Exec.Frame Failure.Fatal False (Over DeployerBase.Advances)
      (setupCores env.platform programs) := fun s =>
    frameAt_setupCores DeployerBase.steps_advances env.platform fun _ _ => trivial
  have hframe := hsequencer.bind fun _ => hcores
  rw [failsOnly_iff_of_frame (hframe t)]
  simp only [Exec.bind_eq_ok, setupSequencer_eq_ok, setupCores_eq_ok, and_assoc, exists_const,
    exists_and_left, exists_eq_left, exists_eq, and_true, emit_hw, emit_coreRequest,
    FpgaBridge.admits_performAll]

/-- The inputs stage and what comes after it. -/
theorem failsOnly_inputs (hlen : programs.length ≤ 32) {s : HilDeployer} (rs : List Request) :
    FailsOnly IsRuntimeError (do
      setupInputs env.platform (env.dispatcher arguments) programs
      setupSequencer env.platform programs.length (dividers env.platform programs s)
        (shifts env.sort programs s)
      setupCores env.platform programs) ((labelPrograms programs s).emit rs) ↔
      InputsSafe env arguments programs s := by
  have hstop := stopping_setupInputsOf env.platform (env.dispatcher arguments)
  refine (hstop.failsOnly_forM_bind (fun p q t => ?_) fun u t hrun => ?_).trans
    (and_congr_left' (hstop.safeAlong_emit programs (labelPrograms programs s) rs))
  · unfold InputsSupported recordInputs
    rw [recordAll_addresses]
  · -- the inputs leave what the sequencer and the cores look at
    obtain ⟨-, -, rfl⟩ := InputAction.forM_run_eq_ok.1 (setupInputs_eq_ok.1 hrun).2
    rw [failsOnly_enable, u16_length hlen]
    simp only [InputAction.recordAll_emit, InputAction.recordAll_hw, recordAll_addresses,
      recordAll_timebasePeriod, recordAll_coreRequest, emit_hw, emit_addresses,
      emit_timebasePeriod, emit_coreRequest, labelPrograms_hw, labelPrograms_addresses,
      labelPrograms_timebasePeriod, labelPrograms_coreRequest, FpgaBridge.admits_performAll]
    exact and_iff_right (sequencer_data env programs s)

/-- The memories and what comes after them. -/
theorem failsOnly_memories (hlen : programs.length ≤ 32) {s : HilDeployer} (rs : List Request) :
    FailsOnly IsRuntimeError (do
      let memories ← callDispatcher (env.dispatcher arguments).getMemoryInitializations
      forM programs (setupProgramMemories env.platform memories)
      setupInputs env.platform (env.dispatcher arguments) programs
      setupSequencer env.platform programs.length (dividers env.platform programs s)
        (shifts env.sort programs s)
      setupCores env.platform programs) ((labelPrograms programs s).emit rs) ↔
      MemoriesSafe env arguments programs s := by
  rw [failsOnly_callDispatcher_bind]
  refine forall_congr' fun memories => imp_congr_right fun _ => ?_
  have hframe : FrameAt Failure.Fatal False (Over DeployerBase.Advances)
      (forM programs (setupProgramMemories env.platform memories))
      ((labelPrograms programs s).emit rs) :=
    Exec.frame_forM (fun p _ t => frameAt_setupProgramMemories DeployerBase.steps_advances
      env.platform memories p (s := t) fun _ _ _ _ => trivial) _
  rw [failsOnly_seq_of_frame hframe fun _ _ => setupAllMemories_eq_ok.trans and_assoc.symm,
    emit_emit, failsOnly_inputs hlen, and_assoc, emit_hw, FpgaBridge.admits_performAll]
  exact Iff.rfl

/-- The stages from the first register write on, on the prepared deployer. -/
theorem failsOnly_writes (hlen : programs.length ≤ 32) {s : HilDeployer} (rs : List Request) :
    FailsOnly IsRuntimeError (do
      forM programs (setupProgramDma env.platform)
      let memories ← callDispatcher (env.dispatcher arguments).getMemoryInitializations
      forM programs (setupProgramMemories env.platform memories)
      setupInputs env.platform (env.dispatcher arguments) programs
      setupSequencer env.platform programs.length (dividers env.platform programs s)
        (shifts env.sort programs s)
      setupCores env.platform programs) (s.emit rs) ↔ WritesSafe env arguments programs s := by
  have hstop := stopping_setupProgramDma env.platform
  refine (hstop.failsOnly_forM_bind (fun _ _ _ => Iff.rfl) fun u t hrun => ?_).trans
    (and_congr_left' (hstop.safeAlong_emit programs s rs))
  obtain ⟨-, -, rfl⟩ := setupProgramDmas_eq_ok.1 hrun
  rw [labelPrograms_emit, emit_emit]
  exact failsOnly_memories hlen _

/-- The stages from the loads on. `s` is the deployer before. -/
theorem failsOnly_stages (hlen : programs.length ≤ 32)
    (hprograms : (env.dispatcher arguments).getPrograms = .ok programs)
    (hslots : (env.dispatcher arguments).getInterconnectSlots = .ok slots) {s : HilDeployer} :
    FailsOnly IsRuntimeError (do
      forM programs (setupProgram env.isa)
      let timebaseFrequency ← accumulateLcm 1 (programs.map (·.samplingFrequency.toNat))
      modify fun s : HilDeployer => { s with timebaseFrequency := timebaseFrequency }
      let dividers ← calculateTimebaseDivider env.platform (env.dispatcher arguments)
      let shifts ← calculateTimebaseShift env.sort (env.dispatcher arguments)
      setupInterconnectIv (env.dispatcher arguments) programs
      forM programs (setupProgramDma env.platform)
      let memories ← callDispatcher (env.dispatcher arguments).getMemoryInitializations
      forM programs (setupProgramMemories env.platform memories)
      setupInputs env.platform (env.dispatcher arguments) programs
      setupSequencer env.platform programs.length dividers shifts
      setupCores env.platform programs) (withBusMap slots (reset (env.hash arguments) s)) ↔
      s.hw.Admits (programs.map (loadRequest s.addresses)) ∧
        LcmFits 1 (programs.map (·.samplingFrequency.toNat)) ∧ programs ≠ [] ∧
        (∀ d ∈ destinations slots programs, HasWords d) ∧
        WritesSafe env arguments programs (prepared env arguments programs slots s) := by
  have hsteps := steps_keepsBase (E := False)
  have hloads := Exec.frame_forM fun p (_ : p ∈ programs) => frame_setupProgram hsteps env.isa p
  have hlcm := frame_accumulateLcm hsteps (programs.map (·.samplingFrequency.toNat)) 1
  have hdivider := frame_calculateTimebaseDivider hsteps env.platform fun hno =>
    hno programs hprograms
  have hshift := frame_calculateTimebaseShift hsteps env.sort fun hno => hno programs hprograms
  have hiv := frame_setupInterconnectIv hsteps (fun _ _ => keepsBase_of_hw rfl rfl rfl)
    (fun hno => hno slots hslots) programs
  rw [failsOnly_seq_of_frame (hloads _) fun _ _ => setupPrograms_eq_ok,
    failsOnly_bind_of_frame (hlcm _) fun _ _ => accumulateLcm_programs_eq_ok,
    Exec.failsOnly_modify_bind,
    failsOnly_bind_of_frame (hdivider _) fun _ _ =>
      (calculateTimebaseDivider_eq_ok hprograms).trans (iff_of_eq (true_and _)).symm,
    failsOnly_bind_of_frame (hshift _) fun _ _ => calculateTimebaseShift_eq_ok hprograms,
    failsOnly_seq_of_frame (hiv _) fun _ _ => setupInterconnectIv_eq_ok hslots, true_and]
  have hwrites := @failsOnly_writes Spec env arguments programs hlen
    (prepared env arguments programs slots s) (programs.map (loadRequest s.addresses))
  unfold prepared at hwrites ⊢
  generalize int32 (frequencyLcm programs) = timebaseFrequency at hwrites ⊢
  exact and_congr_right fun _ => and_congr_right fun _ => and_congr_right fun _ =>
    and_congr_right fun _ => hwrites

/-- A deployment returns or throws what is caught exactly when it is safe up to its first
refusal. -/
theorem failsOnly_deploy_iff {s : HilDeployer} :
    FailsOnly IsRuntimeError (deploy env arguments) s ↔ DeploymentSafe env arguments s := by
  unfold deploy DeploymentSafe
  rw [Exec.failsOnly_modify_bind,
    Exec.failsOnly_bind_of_ok ((clearOperations_eq_ok (u := ())).2 rfl)]
  simp only [failsOnly_callDispatcher_bind, Exec.failsOnly_modify_bind,
    failsOnly_refusal_bind, gt_iff_lt, not_lt]
  constructor
  · intro hdeploy programs slots hspecs hprograms hslots hlen
    exact (failsOnly_stages hlen hprograms hslots).1
      (hdeploy () hspecs programs hprograms slots hslots hlen)
  · intro hsafe _ hspecs programs hprograms slots hslots hlen
    exact (failsOnly_stages hlen hprograms hslots).2
      (hsafe programs slots hspecs hprograms hslots hlen)

end Deployment

end HilDeployer

end UscopeDriver
