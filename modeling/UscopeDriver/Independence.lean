import UscopeDriver.Schedule

/-!
# What a deployment takes from the deployer

Two deployers of one layout, clock and setting of the cores (`SameSetting`) make the same requests
for a specification, all but those of the DMAs, and print the same labels. The requests of the
DMAs differ by the initial values that earlier deployments left (`ivs`).
-/

namespace UscopeDriver

/-- What the inputs stage reads and writes, apart from `inputs`. -/
structure SameInputs (s t : DeployerBase) : Prop where
  addresses : s.addresses = t.addresses
  hilClockFrequency : s.hilClockFrequency = t.hilClockFrequency
  activeRandomInputs : s.activeRandomInputs = t.activeRandomInputs
  activeWaveforms : s.activeWaveforms = t.activeWaveforms
  busLabels : s.busLabels = t.busLabels
  inputsLabels : s.inputsLabels = t.inputsLabels

namespace SameInputs

/-- An input keeps the bases alike. -/
theorem setup {s t : DeployerBase} (h : SameInputs s t) (c : InputSetup) :
    SameInputs (c.record s) (c.record t) := by
  have hconstant : SameInputs (c.recordConstant s) (c.recordConstant t) :=
    { h with inputsLabels := by simp only [InputSetup.recordConstant, h.inputsLabels] }
  have hrandom : SameInputs (c.recordRandom s) (c.recordRandom t) :=
    { h with
      activeRandomInputs := by simp only [InputSetup.recordRandom, h.activeRandomInputs]
      busLabels := by simp only [InputSetup.recordRandom, h.busLabels] }
  have hwaveform : SameInputs (c.recordWaveform s) (c.recordWaveform t) :=
    { h with
      activeWaveforms := by simp only [InputSetup.recordWaveform, h.activeWaveforms]
      busLabels := by simp only [InputSetup.recordWaveform, h.busLabels] }
  unfold InputSetup.record
  cases c.input.sourceType with
  | constantInput => exact hconstant
  | timeSeriesInput => exact hconstant
  | randomInput => exact hrandom
  | waveformInput => exact hwaveform
  | external => exact h

/-- On bases that are alike an input makes the same requests. -/
theorem setup_requests {s t : DeployerBase} (h : SameInputs s t) (pl : Platform) (c : InputSetup) :
    c.requests pl s = c.requests pl t := by
  unfold InputSetup.requests
  cases c.input.sourceType with
  | constantInput => rfl
  | timeSeriesInput => rfl
  | randomInput => simp only [InputSetup.randomRequests, h.activeRandomInputs]
  | waveformInput =>
    simp only [InputSetup.waveformRequests, h.activeWaveforms, h.hilClockFrequency]
  | external => rfl

variable {s t : HilDeployer}

theorem record (h : SameInputs s.toDeployerBase t.toDeployerBase) (a : InputAction) :
    SameInputs (a.record s).toDeployerBase (a.record t).toDeployerBase := by
  cases a with
  | setup c => exact h.setup c
  | label path coreIdx =>
    exact { h with inputsLabels := by simp only [InputAction.record, h.inputsLabels] }
  | enableRandom => exact h

theorem requests (h : SameInputs s.toDeployerBase t.toDeployerBase) (pl : Platform)
    (a : InputAction) : a.requests pl s = a.requests pl t := by
  cases a with
  | setup c => exact h.setup_requests pl c
  | label path coreIdx => rfl
  | enableRandom => simp only [InputAction.requests, h.activeRandomInputs, h.addresses]

/-- Actions keep the bases alike. -/
theorem recordAll (h : SameInputs s.toDeployerBase t.toDeployerBase)
    (actions : List InputAction) : SameInputs (InputAction.recordAll actions s).toDeployerBase
      (InputAction.recordAll actions t).toDeployerBase := by
  induction actions generalizing s t with
  | nil => exact h
  | cons a actions ih => exact ih (h.record a)

/-- On bases that are alike actions make the same requests. -/
theorem requestsOf (h : SameInputs s.toDeployerBase t.toDeployerBase) (pl : Platform)
    (actions : List InputAction) :
    InputAction.requestsOf pl actions s = InputAction.requestsOf pl actions t := by
  induction actions generalizing s t with
  | nil => rfl
  | cons a actions ih => exact congrArg₂ (· ++ ·) (h.requests pl a) (ih (h.record a))

/-- Requests are no difference. -/
theorem emit (h : SameInputs s.toDeployerBase t.toDeployerBase) (rs rs' : List Request) :
    SameInputs (s.emit rs).toDeployerBase (t.emit rs').toDeployerBase :=
  { h with }

end SameInputs

namespace HilDeployer

open LastWrite

/-- Two deployers on one layout, with one clock and one setting of the cores. -/
structure SameSetting (s t : HilDeployer) : Prop where
  addresses : s.addresses = t.addresses
  hilClockFrequency : s.hilClockFrequency = t.hilClockFrequency
  fullCoresOverride : s.fullCoresOverride = t.fullCoresOverride

theorem SameSetting.symm {s t : HilDeployer} (h : SameSetting s t) : SameSetting t s :=
  ⟨h.addresses.symm, h.hilClockFrequency.symm, h.fullCoresOverride.symm⟩

theorem SameSetting.trans {s t u : HilDeployer} (h : SameSetting s t) (h' : SameSetting t u) :
    SameSetting s u :=
  ⟨h.addresses.trans h'.addresses, h.hilClockFrequency.trans h'.hilClockFrequency,
    h.fullCoresOverride.trans h'.fullCoresOverride⟩

section SameSetting

variable {Spec : Type} {env : Environment Spec} {arguments : Spec}
  {programs : List DeployedProgram} {slots : List DeployerInterconnectSlot}
  {memories : String → List MemoryInitValue} {s t : HilDeployer}

/-- On the same setting, deployers come to the inputs stage alike. -/
theorem SameSetting.sameInputs (h : SameSetting s t) :
    SameInputs (labelPrograms programs (prepared env arguments programs slots s)).toDeployerBase
      (labelPrograms programs (prepared env arguments programs slots t)).toDeployerBase :=
  ⟨h.addresses, h.hilClockFrequency, rfl, rfl, rfl, rfl⟩

/-- The labels after a deployment do not depend on the deployer. -/
theorem SameSetting.deployed (h : SameSetting s t) :
    SameInputs
      (deployed env arguments programs
        (prepared env arguments programs slots s)).toDeployerBase
      (deployed env arguments programs
        (prepared env arguments programs slots t)).toDeployerBase := by
  have haddresses : (prepared env arguments programs slots s).addresses =
    (prepared env arguments programs slots t).addresses := h.addresses
  rw [HilDeployer.deployed, HilDeployer.deployed, haddresses]
  exact h.sameInputs.recordAll _

/-- The requests of a deployment that are not for the DMAs. `s` is the prepared deployer. -/
def laterRequests (env : Environment Spec) (arguments : Spec) (programs : List DeployedProgram)
    (memories : String → List MemoryInitValue) (s : HilDeployer) : List Request :=
  programs.flatMap (programMemoryRequests memories s) ++
    (InputAction.requestsOf env.platform
      (inputActions s.addresses (env.dispatcher arguments) programs) (labelPrograms programs s) ++
    (sequencerRequests s.addresses (timebasePeriod env.platform s) programs.length
      (dividers env.platform programs s) (shifts env.sort programs s) ++
    programs.map s.coreRequest))

/-- The requests of a deployment : its programs, its DMAs and the rest. -/
theorem deploymentRequests_eq (s : HilDeployer) :
    deploymentRequests env arguments programs memories s =
      programs.map (loadRequest s.addresses) ++ (programs.flatMap s.programDmaRequests ++
        laterRequests env arguments programs memories s) := by
  simp only [deploymentRequests, writeRequests, setupRequests, laterRequests, List.append_assoc]

/-- The requests that are not for the DMAs do not depend on the deployer. -/
theorem SameSetting.laterRequests (h : SameSetting s t) :
    laterRequests env arguments programs memories (prepared env arguments programs slots s) =
      HilDeployer.laterRequests env arguments programs memories
        (prepared env arguments programs slots t) := by
  have haddresses : (prepared env arguments programs slots s).addresses =
    (prepared env arguments programs slots t).addresses := h.addresses
  have hclock : (prepared env arguments programs slots s).hilClockFrequency =
    (prepared env arguments programs slots t).hilClockFrequency := h.hilClockFrequency
  have hmemories : programs.flatMap (programMemoryRequests memories
      (prepared env arguments programs slots s)) =
        programs.flatMap (programMemoryRequests memories
          (prepared env arguments programs slots t)) := by
    refine List.flatMap_congr fun p hp => ?_
    have hcores : (prepared env arguments programs slots s).coresIdx p.name =
      (prepared env arguments programs slots t).coresIdx p.name := store_names_congr _ _ _ hp
    rw [programMemoryRequests, programMemoryRequests, haddresses, hcores]
  have hperiod : timebasePeriod env.platform (prepared env arguments programs slots s) =
      timebasePeriod env.platform (prepared env arguments programs slots t) := by
    simp only [timebasePeriod, prepared_timebaseFrequency, prepared_minTimebase, hclock,
      h.fullCoresOverride]
  have hdividers : dividers env.platform programs (prepared env arguments programs slots s) =
      dividers env.platform programs (prepared env arguments programs slots t) := by
    simp only [dividers, prepared_timebaseFrequency]
  have hshifts : shifts env.sort programs (prepared env arguments programs slots s) =
      shifts env.sort programs (prepared env arguments programs slots t) := by
    simp only [shifts, prepared_sortedData, h.fullCoresOverride]
  have hcores : programs.map (prepared env arguments programs slots s).coreRequest =
      programs.map (prepared env arguments programs slots t).coreRequest := by
    refine List.map_congr_left fun p hp => ?_
    rw [coreRequest, coreRequest, haddresses, prepared_nChannels env arguments slots s hp,
      prepared_nChannels env arguments slots t hp, h.fullCoresOverride]
  rw [HilDeployer.laterRequests, HilDeployer.laterRequests, hmemories, haddresses,
    h.sameInputs.requestsOf, hperiod, hdividers, hshifts, hcores]

end SameSetting

end HilDeployer

end UscopeDriver
