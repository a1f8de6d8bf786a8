import UscopeDriver.BaseWrites

/-!
# The writes that set up and update inputs

An `InputSetup` is one call of `setup_input` with its arguments. A constant or time series input
makes three writes to its engine and is entered in `inputs`, where a live update finds it. A
random or waveform input makes writes that depend on how many came before it.
-/

namespace UscopeDriver

/-- The arguments of `setup_input`. -/
structure InputSetup where
  input : DeployedCoreInputs
  ipAddress : Nat
  constIdx : Nat
  targetChannel : Nat
  coreName : String
  isMultichannel : Bool

namespace InputSetup

open DeployerBase

/-- The call. -/
def run (pl : Platform) (c : InputSetup) : Exec Failure DeployerBase Unit :=
  setupInput pl c.input c.ipAddress c.constIdx c.targetChannel c.coreName c.isMultichannel

/-- The bus address that the input drives. -/
def dest (c : InputSetup) : Nat :=
  inputDestination (c.input.address.headD 0) c.targetChannel

/-- The selector that a constant engine gets. -/
def selector (c : InputSetup) : Nat :=
  inputSelector c.constIdx c.targetChannel

/-- The first word of the first data entry. -/
def word (c : InputSetup) : UInt32 :=
  (c.input.data.headD (.words [])).toWords.headD 0

/-- The entry in `inputs`. -/
def metadata (c : InputSetup) : InputMetadata where
  core := c.coreName
  name := c.input.name
  constIpAddr := (u64 c.ipAddress, c.selector)
  channel := u32 c.targetChannel
  dest := c.dest
  isFloat := c.input.metadata.type = .typeFloat

/-- The name under which the input is recorded. -/
def path (c : InputSetup) : String :=
  inputPath c.coreName c.input.name c.targetChannel c.isMultichannel

/-- The name of a generated signal. -/
def label (c : InputSetup) : String :=
  generatorLabel c.coreName c.input.name c.targetChannel c.isMultichannel

/-! ## The three kinds of input -/

/-- The writes of a constant engine. -/
def constantRequests (c : InputSetup) : List Request :=
  [regWrite (c.ipAddress + constSelector) c.selector, regWrite (c.ipAddress + constDest) c.dest,
    regWrite (c.ipAddress + constLsb) c.word.toNat]

/-- The base after a constant engine was set up, apart from the bridge. -/
def recordConstant (c : InputSetup) (s : DeployerBase) : DeployerBase :=
  { s with
    inputsLabels :=
      s.inputsLabels.insert c.path ⟨u64 (c.ipAddress + constLsb), c.dest, c.selector, 0⟩
    inputs := s.inputs ++ [c.metadata] }

/-- The address and the word of a constant are there. -/
def ConstantReady (c : InputSetup) : Prop :=
  c.input.address ≠ [] ∧ c.input.data ≠ [] ∧ (c.input.data.headD (.words [])).toWords ≠ []

/-- A constant engine is set up exactly if its data is there. -/
theorem setupConstantInput_eq_ok {pl : Platform} {c : InputSetup} {s s' : DeployerBase}
    {u : Unit} :
    (setupConstantInput pl c.input c.ipAddress c.constIdx c.targetChannel c.coreName
        c.isMultichannel).run s = .ok u s' ↔
      c.ConstantReady ∧ s.hw.Admits c.constantRequests ∧
        s' = (c.recordConstant s).emit c.constantRequests := by
  simp only [setupConstantInput, Exec.bind_eq_ok, index_zero_eq_ok (0 : UInt32),
    index_zero_eq_ok (InitialData.words []), Exec.modify_eq_ok, writeRegister_eq_ok, exists_const,
    and_assoc, exists_and_left, exists_eq_left, ConstantReady, emit,
    FpgaBridge.admits_performAll, FpgaBridge.performAll_performAll, List.cons_append,
    List.nil_append, constantRequests, recordConstant, FpgaBridge.admits_cons_cons]
  rfl

/-- The write of a random input. -/
def randomRequests (c : InputSetup) (s : DeployerBase) : List Request :=
  [regWrite (c.ipAddress + u32 ((s.activeRandomInputs + 1) * 4)) c.dest]

/-- The base after a random input was set up, apart from the bridge. -/
def recordRandom (c : InputSetup) (s : DeployerBase) : DeployerBase :=
  { s with
    activeRandomInputs := u32 (s.activeRandomInputs + 1)
    busLabels := s.busLabels.insert c.dest c.label }

/-- A random input is set up exactly if it has an address. -/
theorem setupRandomInput_eq_ok {pl : Platform} {c : InputSetup} {s s' : DeployerBase} {u : Unit} :
    (setupRandomInput pl c.input c.ipAddress c.targetChannel c.coreName c.isMultichannel).run s =
        .ok u s' ↔
      c.input.address ≠ [] ∧ s.hw.Admits (c.randomRequests s) ∧
        s' = (c.recordRandom s).emit (c.randomRequests s) := by
  simp only [setupRandomInput, Exec.bind_eq_ok, index_zero_eq_ok (0 : UInt32), Exec.gets_eq_ok,
    Exec.modify_eq_ok, writeRegister_eq_ok, exists_const, and_assoc, exists_and_left,
    exists_eq_left, emit]
  rfl

/-- The channel of a waveform, out of its destination. -/
def waveformChannel (c : InputSetup) : Nat :=
  (0xFFF0000 &&& c.dest) >>> 16

/-- The waveform is a square wave with this channel. -/
def WaveformReady (c : InputSetup) : Prop :=
  match c.input.waveformParameters with
  | .square p => c.waveformChannel < p.period.length ∧ c.waveformChannel < p.tOn.length ∧
      c.waveformChannel < p.tDelay.length ∧ c.waveformChannel < p.vOn.length ∧
        c.waveformChannel < p.vOff.length
  | .sine | .triangle => False

/-- The writes of a square wave, the `active`-th waveform. -/
def squareRequests (pl : Platform) (ip dest channel active : Nat) (clock : ℚ)
    (p : SquareWaveParameters) : List Request :=
  [regWrite (ip + SquareWaveGen.channelSelector) active,
    regWrite (ip + SquareWaveGen.vOn) (p.vOn.getD channel 0).toNat,
    regWrite (ip + SquareWaveGen.vOff) (p.vOff.getD channel 0).toNat,
    regWrite (ip + SquareWaveGen.tDelay)
      (pl.toUint64 (pl.mulFloat (p.tDelay.getD channel 0) clock)),
    regWrite (ip + SquareWaveGen.tOn) (pl.toUint64 (pl.mulFloat (p.tOn.getD channel 0) clock)),
    regWrite (ip + SquareWaveGen.period)
      (pl.toUint64 (pl.mulFloat (p.period.getD channel 0) clock)),
    regWrite (ip + SquareWaveGen.destOut) dest,
    regWrite (ip + SquareWaveGen.shapeSelector) 0,
    regWrite (ip + SquareWaveGen.userOut) (getMetadataValue 32 true true),
    regWrite (ip + SquareWaveGen.activeChannels) (u32 (active + 1))]

/-- The writes of a waveform input. -/
def waveformRequests (pl : Platform) (c : InputSetup) (s : DeployerBase) : List Request :=
  match c.input.waveformParameters with
  | .square p => squareRequests pl c.ipAddress c.dest c.waveformChannel s.activeWaveforms
      s.hilClockFrequency p
  | .sine | .triangle => []

/-- The base after a waveform input was set up, apart from the bridge. -/
def recordWaveform (c : InputSetup) (s : DeployerBase) : DeployerBase :=
  { s with
    activeWaveforms := u32 (s.activeWaveforms + 1)
    busLabels := s.busLabels.insert c.dest c.label }

/-- A waveform input is set up exactly if it has an address and a square wave with its
parameters. -/
theorem setupWaveformInput_eq_ok {pl : Platform} {c : InputSetup} {s s' : DeployerBase}
    {u : Unit} :
    (setupWaveformInput pl c.input c.ipAddress c.targetChannel c.coreName c.isMultichannel).run s =
        .ok u s' ↔
      (c.input.address ≠ [] ∧ c.WaveformReady) ∧ s.hw.Admits (waveformRequests pl c s) ∧
        s' = (c.recordWaveform s).emit (waveformRequests pl c s) := by
  simp only [setupWaveformInput, Exec.bind_eq_ok, index_zero_eq_ok (0 : UInt32),
    Exec.modify_eq_ok, exists_const, and_assoc, exists_and_left, exists_eq_left]
  cases hp : c.input.waveformParameters with
  | square p =>
    have hdest : inputDestination (c.input.address.headD 0) c.targetChannel = c.dest := rfl
    have hchannel : (0xFFF0000 &&& c.dest) >>> 16 = c.waveformChannel := rfl
    have hlabel : generatorLabel c.coreName c.input.name c.targetChannel c.isMultichannel =
      c.label := rfl
    simp only [setupWaveform, hdest, hchannel, hlabel, Exec.bind_eq_ok, Exec.gets_eq_ok,
      index_eq_ok (0 : UInt32), index_eq_ok (0 : ℚ), Exec.modify_eq_ok,
      writeRegister_eq_ok, exists_const, and_assoc, exists_and_left, exists_eq_left, emit,
      FpgaBridge.admits_performAll, FpgaBridge.performAll_performAll, List.cons_append,
      List.nil_append, waveformRequests, hp, squareRequests, FpgaBridge.admits_cons_cons,
      WaveformReady, recordWaveform]
    -- the levels are looked up between the writes
    constructor
    · rintro ⟨ha, hperiod, htOn, htDelay, hw, hvOn, hw', hvOff, hrest⟩
      exact ⟨ha, hperiod, htOn, htDelay, hvOn, hvOff, hw, hw', hrest⟩
    · rintro ⟨ha, hperiod, htOn, htDelay, hvOn, hvOff, hw, hw', hrest⟩
      exact ⟨ha, hperiod, htOn, htDelay, hw, hvOn, hw', hvOff, hrest⟩
  | sine => simp [setupWaveform, WaveformReady, hp]
  | triangle => simp [setupWaveform, WaveformReady, hp]

/-! ## One call -/

/-- What the call reads is there. -/
def Ready (c : InputSetup) : Prop :=
  match c.input.sourceType with
  | .constantInput | .timeSeriesInput => c.ConstantReady
  | .randomInput => c.input.address ≠ []
  | .waveformInput => c.input.address ≠ [] ∧ c.WaveformReady
  | .external => True

/-- The writes of the call by the source of the input. -/
def requests (pl : Platform) (c : InputSetup) (s : DeployerBase) : List Request :=
  match c.input.sourceType with
  | .constantInput | .timeSeriesInput => c.constantRequests
  | .randomInput => c.randomRequests s
  | .waveformInput => waveformRequests pl c s
  | .external => []

/-- The base after the call, apart from the bridge. -/
def record (c : InputSetup) (s : DeployerBase) : DeployerBase :=
  match c.input.sourceType with
  | .constantInput | .timeSeriesInput => c.recordConstant s
  | .randomInput => c.recordRandom s
  | .waveformInput => c.recordWaveform s
  | .external => s

/-- An input is set up exactly if its data is there. -/
theorem run_eq_ok {pl : Platform} {c : InputSetup} {s s' : DeployerBase} {u : Unit} :
    (c.run pl).run s = .ok u s' ↔
      c.Ready ∧ s.hw.Admits (c.requests pl s) ∧ s' = (c.record s).emit (c.requests pl s) := by
  unfold InputSetup.run setupInput Ready requests record
  cases c.input.sourceType with
  | constantInput => exact setupConstantInput_eq_ok
  | timeSeriesInput => exact setupConstantInput_eq_ok
  | randomInput => exact setupRandomInput_eq_ok
  | waveformInput => exact setupWaveformInput_eq_ok
  | external => simp [eq_comm]

theorem record_hw (c : InputSetup) (s : DeployerBase) : (c.record s).hw = s.hw := by
  unfold record
  cases c.input.sourceType <;> rfl

/-- The call leaves the other fields alone. -/
theorem record_eq (c : InputSetup) (s : DeployerBase) :
    c.record s = { s with
      inputsLabels := (c.record s).inputsLabels
      busLabels := (c.record s).busLabels
      inputs := (c.record s).inputs
      activeRandomInputs := (c.record s).activeRandomInputs
      activeWaveforms := (c.record s).activeWaveforms } := by
  unfold record
  cases c.input.sourceType <;> rfl

/-- What is recorded does not depend on the bridge. -/
theorem record_emit (c : InputSetup) (s : DeployerBase) (rs : List Request) :
    c.record (s.emit rs) = (c.record s).emit rs := by
  unfold record
  cases c.input.sourceType <;> rfl

/-- Neither do the requests. -/
theorem requests_emit (pl : Platform) (c : InputSetup) (s : DeployerBase) (rs : List Request) :
    c.requests pl (s.emit rs) = c.requests pl s := rfl

/-- A constant or time series input makes the same requests in every state. -/
theorem requests_of_isConstant (pl : Platform) {c : InputSetup} (h : c.input.sourceType.IsConstant)
    (s : DeployerBase) : c.requests pl s = c.constantRequests := by
  unfold requests
  rcases h with h | h <;> rw [h]

theorem requests_of_random (pl : Platform) {c : InputSetup} (h : c.input.sourceType = .randomInput)
    (s : DeployerBase) : c.requests pl s = c.randomRequests s := by
  unfold requests
  rw [h]

/-- A waveform that is set up is a square wave. -/
theorem requests_of_waveform (pl : Platform) {c : InputSetup}
    (h : c.input.sourceType = .waveformInput) (hready : c.Ready) (s : DeployerBase) :
    ∃ p, c.requests pl s = squareRequests pl c.ipAddress c.dest c.waveformChannel
      s.activeWaveforms s.hilClockFrequency p := by
  unfold Ready at hready
  unfold requests waveformRequests
  rw [h] at hready ⊢
  unfold WaveformReady at hready
  cases hp : c.input.waveformParameters with
  | square p => exact ⟨p, rfl⟩
  | sine => simp [hp] at hready
  | triangle => simp [hp] at hready

/-- Only a random input counts as one. -/
theorem record_activeRandomInputs (c : InputSetup) (s : DeployerBase) :
    (c.record s).activeRandomInputs = if c.input.sourceType = .randomInput then
      u32 (s.activeRandomInputs + 1) else s.activeRandomInputs := by
  unfold record
  cases c.input.sourceType <;> rfl

/-- Only a waveform counts as one. -/
theorem record_activeWaveforms (c : InputSetup) (s : DeployerBase) :
    (c.record s).activeWaveforms = if c.input.sourceType = .waveformInput then
      u32 (s.activeWaveforms + 1) else s.activeWaveforms := by
  unfold record
  cases c.input.sourceType <;> rfl

/-- The inputs that a live update finds are the constant and time series inputs. -/
theorem record_inputs (c : InputSetup) (s : DeployerBase) :
    (c.record s).inputs =
      s.inputs ++ if c.input.sourceType.IsConstant then [c.metadata] else [] := by
  unfold record
  cases c.input.sourceType <;> simp [SourceType.IsConstant, recordConstant, recordRandom,
    recordWaveform]

end InputSetup

namespace DeployerBase

/-! ## Live updates -/

/-- The three writes of a live update. -/
def liveRequests (pl : Platform) (rawValue : ℚ) (i : InputMetadata) : List Request :=
  [regWrite (i.constIpAddr.1 + constSelector) i.constIpAddr.2,
    regWrite (i.constIpAddr.1 + constDest) i.dest,
    regWrite (i.constIpAddr.1 + constLsb) (liveValue pl i rawValue)]

/-- The inputs that a live update addresses. -/
def addressedInputs (coreName name : String) (channel : Nat) (inputs : List InputMetadata) :
    List InputMetadata :=
  inputs.filter fun i => i.name = name ∧ i.core = coreName ∧ i.channel = u16 channel

/-- The update of an input is its three writes. -/
theorem writeInputValue_eq_ok {pl : Platform} {rawValue : ℚ} (i : InputMetadata)
    (s : DeployerBase) (u : PUnit) (s' : DeployerBase) :
    (writeInputValue pl rawValue i).run s = .ok u s' ↔ True ∧
      s.hw.Admits (liveRequests pl rawValue i) ∧ s' = s.emit (liveRequests pl rawValue i) := by
  simp only [writeInputValue, Exec.bind_eq_ok, writeRegister_eq_ok, exists_const, and_assoc,
    exists_and_left, exists_eq_left, emit, FpgaBridge.admits_performAll,
    FpgaBridge.performAll_performAll, List.cons_append, List.nil_append, liveRequests,
    FpgaBridge.admits_cons_cons, true_and]

/-- An update writes to all inputs of the name. -/
theorem updateInputValue_eq_ok {pl : Platform} {coreName name : String} {channel : Nat}
    {rawValue : ℚ} {s s' : DeployerBase} {u : Unit} :
    (updateInputValue pl coreName name channel rawValue).run s = .ok u s' ↔
      s.hw.Admits ((addressedInputs coreName name channel s.inputs).flatMap
        (liveRequests pl rawValue)) ∧
      s' = s.emit ((addressedInputs coreName name channel s.inputs).flatMap
        (liveRequests pl rawValue)) := by
  simp only [updateInputValue, Exec.bind_eq_ok, Exec.gets_eq_ok, and_assoc, exists_and_left,
    exists_eq_left]
  rw [Drives.forM_requests writeInputValue_eq_ok]
  simp [addressedInputs]

end DeployerBase

end UscopeDriver
