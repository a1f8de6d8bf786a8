import UscopeDriver.HilWrites

/-!
# The inputs stage

The nested loops of `setup_inputs` come down to one list of actions (`inputActions`) : calls of
`setup_input`, labels that get their core index, and after each program the noise generator.
`setupInputs_eq_ok` says that the stage runs this list.
-/

namespace UscopeDriver

/-- One step of the inputs stage. -/
inductive InputAction where
  | setup (c : InputSetup)
  | label (path : String) (coreIdx : Nat)
  | enableRandom

namespace InputAction

open HilDeployer

/-- What an action runs. -/
def run (pl : Platform) : InputAction → Exec Failure HilDeployer Unit
  | .setup c => base (c.run pl)
  | .label path coreIdx => modify fun s => { s with
      inputsLabels := s.inputsLabels.modify path fun tb => { tb with coreIdx := coreIdx } }
  | .enableRandom => enableRandomInputs pl

/-- The steps of one channel of a constant or time series input. -/
def ofChannel (p : DeployedProgram) (input : DeployedCoreInputs) (ipAddr inputProgressive j : Nat) :
    List InputAction :=
  [.setup ⟨input, ipAddr, inputProgressive, j, p.name, true⟩,
    .label (channelName p j ++ "." ++ input.name) p.index.toNat]

/-- The steps of the channels of an input of a program with several. -/
def ofMultichannelInput (p : DeployedProgram) (input : DeployedCoreInputs)
    (ipAddr inputProgressive : Nat) : List InputAction :=
  if input.data.length > 1 then
    (List.range input.data.length).flatMap fun j =>
      ofChannel p { input with data := input.data.drop j } ipAddr inputProgressive j
  else match input.sourceType with
    | .randomInput | .waveformInput => (List.range p.nChannels.toNat).map fun j =>
        .setup ⟨input, ipAddr, inputProgressive, j, p.name, true⟩
    | .constantInput | .timeSeriesInput =>
      if input.data.length = 1 then
        (List.range p.nChannels.toNat).flatMap (ofChannel p input ipAddr inputProgressive)
      else []
    | .external => []

/-- The last value of `core_name`. -/
def lastCoreName (p : DeployedProgram) (input : DeployedCoreInputs) : String :=
  if input.data.length > 1 then lastChannelName p input.data.length
  else match input.sourceType with
    | .randomInput | .waveformInput => lastChannelName p p.nChannels.toNat
    | .constantInput | .timeSeriesInput =>
      if input.data.length = 1 then lastChannelName p p.nChannels.toNat else ""
    | .external => ""

/-- The actions of one input. -/
def ofInput (addresses : LogicLayout) (p : DeployedProgram) (inputProgressive : Nat)
    (input : DeployedCoreInputs) : List InputAction :=
  let ipAddr := inputIpAddress addresses p input.sourceType
  if p.nChannels > 1 then
    ofMultichannelInput p input ipAddr inputProgressive ++
      [.label (lastCoreName p input ++ "." ++ input.name) p.index.toNat]
  else
    [.setup ⟨input, ipAddr, inputProgressive, 0, p.name, false⟩,
      .label (p.name ++ "." ++ input.name) p.index.toNat]

/-- The actions of the inputs. Only constant and time series inputs raise the index. -/
def ofInputs (addresses : LogicLayout) (p : DeployedProgram) :
    Nat → List DeployedCoreInputs → List InputAction
  | _, [] => []
  | inputProgressive, input :: rest => ofInput addresses p inputProgressive input ++
      ofInputs addresses p
        (if input.sourceType.IsConstant then inputProgressive + 1 else inputProgressive) rest

/-- The actions of a program. -/
def ofProgram (addresses : LogicLayout) (inputs : String → List DeployedCoreInputs)
    (p : DeployedProgram) : List InputAction :=
  ofInputs addresses p 0 (inputs p.name) ++ [.enableRandom]

/-! ## The loops are lists of actions -/

theorem setupInputChannel_eq (pl : Platform) (p : DeployedProgram) (input : DeployedCoreInputs)
    (ipAddr inputProgressive j : Nat) :
    setupInputChannel pl p input ipAddr inputProgressive j =
      forM (ofChannel p input ipAddr inputProgressive j) (run pl) := by
  simp [setupInputChannel, ofChannel, run, InputSetup.run, labelCore]

theorem setupMultichannelInput_eq (pl : Platform) (p : DeployedProgram)
    (input : DeployedCoreInputs) (ipAddr inputProgressive : Nat) :
    setupMultichannelInput pl p input ipAddr inputProgressive = (do
      forM (ofMultichannelInput p input ipAddr inputProgressive) (run pl)
      pure (lastCoreName p input)) := by
  unfold setupMultichannelInput ofMultichannelInput lastCoreName
  by_cases hd : input.data.length > 1
  · simp [hd, Exec.forM_flatMap, setupInputChannel_eq]
  · rw [if_neg hd, if_neg hd, if_neg hd]
    cases input.sourceType with
    | randomInput => simp [List.forM_map, run, InputSetup.run]
    | waveformInput => simp [List.forM_map, run, InputSetup.run]
    | constantInput =>
      by_cases h₁ : input.data.length = 1 <;>
        simp [h₁, Exec.forM_flatMap, ← setupInputChannel_eq]
    | timeSeriesInput =>
      by_cases h₁ : input.data.length = 1 <;>
        simp [h₁, Exec.forM_flatMap, ← setupInputChannel_eq]
    | external => simp

theorem run_setupProgramInput (pl : Platform) (p : DeployedProgram) (inputProgressive : Nat)
    (input : DeployedCoreInputs) (s : HilDeployer) :
    (setupProgramInput pl p inputProgressive input).run s =
      (forM (ofInput s.addresses p inputProgressive input) (run pl)).run s := by
  rw [setupProgramInput, Exec.run_gets_bind, ofInput]
  split_ifs with hn
  · simp [setupMultichannelInput_eq, run, labelCore, List.forM_append]
  · simp [run, labelCore, InputSetup.run]

/-! ## What an action does -/

/-- The action finds the data it reads. -/
def Ready : InputAction → Prop
  | .setup c => c.Ready
  | _ => True

/-- The writes of an action. -/
def requests (pl : Platform) (s : HilDeployer) : InputAction → List Request
  | .setup c => c.requests pl s.toDeployerBase
  | .label _ _ => []
  | .enableRandom =>
    if s.activeRandomInputs > 0 then
      [regWrite s.addresses.bases.noiseGenerator s.activeRandomInputs]
    else []

/-- The deployer after an action, apart from the bridge. -/
def record (s : HilDeployer) : InputAction → HilDeployer
  | .setup c => { s with toDeployerBase := c.record s.toDeployerBase }
  | .label path coreIdx => { s with
      inputsLabels := s.inputsLabels.modify path fun tb => { tb with coreIdx := coreIdx } }
  | .enableRandom => s

theorem run_eq_ok (pl : Platform) (a : InputAction) (s : HilDeployer) (u : Unit)
    (s' : HilDeployer) :
    (a.run pl).run s = .ok u s' ↔
      a.Ready ∧ s.hw.Admits (a.requests pl s) ∧ s' = (a.record s).emit (a.requests pl s) := by
  cases a with
  | setup c =>
    simp only [run, base_eq_ok, InputSetup.run_eq_ok, and_assoc, exists_and_left, exists_eq_left]
    rfl
  | label path coreIdx =>
    simp only [run, Exec.modify_eq_ok, Ready, requests, record, FpgaBridge.admits_nil, true_and,
      emit_nil]
  | enableRandom =>
    simp only [run, enableRandomInputs, Exec.bind_eq_ok, Exec.gets_eq_ok, Exec.when_eq_ok,
      writeRegister_eq_ok, and_assoc, exists_and_left, exists_eq_left, Ready, requests, record,
      true_and]
    by_cases h : s.activeRandomInputs > 0
    · simp [h]
    · simp [h]

/-- An action leaves the other fields alone. -/
theorem record_eq (s : HilDeployer) (a : InputAction) :
    a.record s = { s with
      inputsLabels := (a.record s).inputsLabels
      busLabels := (a.record s).busLabels
      inputs := (a.record s).inputs
      activeRandomInputs := (a.record s).activeRandomInputs
      activeWaveforms := (a.record s).activeWaveforms } := by
  cases a with
  | setup c =>
    have h := c.record_eq s.toDeployerBase
    simp only [record]
    rw [h]
  | label path coreIdx => rfl
  | enableRandom => rfl

theorem round_run (pl : Platform) :
    Drives.Round (run pl) (fun a _ => a.Ready) (fun a s => a.requests pl s)
      (fun a s => a.record s) where
  run := run_eq_ok pl
  record := by
    intro a
    cases a with
    | setup c =>
      refine ⟨fun s => c.record_hw s.toDeployerBase, fun s rs => ?_⟩
      have h := c.record_emit s.toDeployerBase rs
      simp only [record, drives_emit, emit, h]
    | label path coreIdx => exact ⟨fun _ => rfl, fun _ _ => rfl⟩
    | enableRandom => exact ⟨fun _ => rfl, fun _ _ => rfl⟩
  guard_emit := fun _ _ _ => Iff.rfl
  requests_emit := by
    intro a s rs
    cases a <;> rfl

/-- The requests of a list of actions. -/
def requestsOf (pl : Platform) (actions : List InputAction) (s : HilDeployer) : List Request :=
  Drives.requestsAlong (fun a s => a.requests pl s) (fun a s => a.record s) actions s

/-- What a list of actions records. -/
def recordAll (actions : List InputAction) (s : HilDeployer) : HilDeployer :=
  actions.foldl record s

/-- The inputs stage leaves the other fields alone. -/
theorem recordAll_eq (actions : List InputAction) (s : HilDeployer) :
    recordAll actions s = { s with
      inputsLabels := (recordAll actions s).inputsLabels
      busLabels := (recordAll actions s).busLabels
      inputs := (recordAll actions s).inputs
      activeRandomInputs := (recordAll actions s).activeRandomInputs
      activeWaveforms := (recordAll actions s).activeWaveforms } := by
  induction actions generalizing s with
  | nil => rfl
  | cons a actions ih =>
    have hcons : recordAll (a :: actions) s = recordAll actions (a.record s) := rfl
    rw [hcons, ih]
    generalize recordAll actions (a.record s) = t
    rw [record_eq]

theorem requestsOf_emit (pl : Platform) (actions : List InputAction) (s : HilDeployer)
    (rs : List Request) : requestsOf pl actions (s.emit rs) = requestsOf pl actions s :=
  (round_run pl).requestsAlong_emit actions s rs

theorem recordAll_emit (actions : List InputAction) (s : HilDeployer) (rs : List Request) :
    recordAll actions (s.emit rs) = (recordAll actions s).emit rs :=
  (Drives.record_foldl (round_run .zeros).record actions).emit s rs

theorem recordAll_hw (actions : List InputAction) (s : HilDeployer) :
    (recordAll actions s).hw = s.hw := by
  rw [recordAll_eq]

theorem forM_run_eq_ok {pl : Platform} {actions : List InputAction} {s s' : HilDeployer}
    {u : PUnit} :
    (forM actions (run pl)).run s = .ok u s' ↔
      (∀ a ∈ actions, a.Ready) ∧ s.hw.Admits (requestsOf pl actions s) ∧
        s' = (recordAll actions s).emit (requestsOf pl actions s) := by
  have hguard : Drives.GuardAlong (fun a _ => a.Ready) (fun a s => a.record s) actions s ↔
      ∀ a ∈ actions, a.Ready := by
    refine Drives.guardAlong_uniform ?_ actions s
    exact fun _ _ _ => Iff.rfl
  rw [(round_run pl).forM_emit, hguard]
  rfl

/-- A list of actions keeps the addresses. -/
theorem addresses_of_forM_run {pl : Platform} {actions : List InputAction} {s s' : HilDeployer}
    {u : PUnit} (h : (forM actions (run pl)).run s = .ok u s') : s'.addresses = s.addresses := by
  obtain ⟨-, -, rfl⟩ := forM_run_eq_ok.1 h
  rw [recordAll_eq]
  rfl

/-! ## The stage -/

theorem run_setupProgramInputs (pl : Platform) (p : DeployedProgram)
    (inputs : List DeployedCoreInputs) : ∀ (inputProgressive : Nat) (s : HilDeployer),
      (setupProgramInputs pl p inputProgressive inputs).run s =
        (forM (ofInputs s.addresses p inputProgressive inputs) (run pl)).run s := by
  induction inputs with
  | nil => exact fun _ _ => rfl
  | cons input rest ih =>
    intro inputProgressive s
    rw [setupProgramInputs, ofInputs, List.forM_append, EStateM.run_bind, EStateM.run_bind,
      run_setupProgramInput]
    cases h : (forM (ofInput s.addresses p inputProgressive input) (run pl)).run s with
    | ok u s' => simp only [ih, addresses_of_forM_run h]
    | error e s' => rfl

end InputAction

namespace HilDeployer

open InputAction

/-- The inputs of a program, none when the toolchain throws. -/
def inputsOf (dispatcher : EmulatorDispatcher) (name : String) : List DeployedCoreInputs :=
  match dispatcher.getInputs name with
  | .ok inputs => inputs
  | .error _ => []

/-- The whole inputs stage. -/
def inputActions (addresses : LogicLayout) (dispatcher : EmulatorDispatcher)
    (programs : List DeployedProgram) : List InputAction :=
  programs.flatMap (ofProgram addresses (inputsOf dispatcher))

/-- The toolchain has the inputs of the program. -/
def HasInputs (dispatcher : EmulatorDispatcher) (p : DeployedProgram) : Prop :=
  ∃ inputs, dispatcher.getInputs p.name = .ok inputs

theorem run_setupInputsOf {pl : Platform} {dispatcher : EmulatorDispatcher} {p : DeployedProgram}
    {inputs : List DeployedCoreInputs} (h : dispatcher.getInputs p.name = .ok inputs)
    (s : HilDeployer) :
    (setupInputsOf pl dispatcher p).run s =
      (forM (ofProgram s.addresses (inputsOf dispatcher) p) (run pl)).run s := by
  have hinputs : inputsOf dispatcher p.name = inputs := by rw [inputsOf, h]
  rw [ofProgram, List.forM_append, hinputs, setupInputsOf, h, EStateM.run_bind]
  change (setupProgramInputs pl p 0 inputs >>= fun _ => enableRandomInputs pl).run s = _
  rw [EStateM.run_bind, EStateM.run_bind, run_setupProgramInputs]
  cases (forM (ofInputs s.addresses p 0 inputs) (run pl)).run s with
  | ok u s' => simp [run]
  | error e s' => rfl

theorem setupInputsOf_eq_ok {pl : Platform} {dispatcher : EmulatorDispatcher} {p : DeployedProgram}
    {s s' : HilDeployer} {u : Unit} :
    (setupInputsOf pl dispatcher p).run s = .ok u s' ↔ HasInputs dispatcher p ∧
      (forM (ofProgram s.addresses (inputsOf dispatcher) p) (run pl)).run s = .ok u s' := by
  cases hd : dispatcher.getInputs p.name with
  | error what => simp only [setupInputsOf, HasInputs, hd, Exec.bind_eq_ok, callDispatcher_eq_ok,
      reduceCtorEq, false_and, exists_false]
  | ok inputs =>
    rw [run_setupInputsOf hd]
    exact (and_iff_right ⟨inputs, hd⟩).symm

theorem setupInputs_eq_ok {pl : Platform} {dispatcher : EmulatorDispatcher}
    {programs : List DeployedProgram} {s s' : HilDeployer} {u : Unit} :
    (setupInputs pl dispatcher programs).run s = .ok u s' ↔
      (∀ p ∈ programs, HasInputs dispatcher p) ∧
        (forM (inputActions s.addresses dispatcher programs) (run pl)).run s = .ok u s' :=
  Exec.forM_blocks_eq_ok (fun s : HilDeployer => s.addresses)
    (fun l => ofProgram l (inputsOf dispatcher)) (fun _ _ _ _ => setupInputsOf_eq_ok)
    addresses_of_forM_run

end HilDeployer

end UscopeDriver
