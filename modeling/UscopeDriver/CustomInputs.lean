import UscopeDriver.CustomWrites
import UscopeDriver.Registers

/-!
# The inputs of custom logic

Of an input with several entries, only the channels of the first half are programmed
(`channels_programmed`). All inputs of one kind share an engine whose base address is odd, so what
an input writes is neither at a register nor its own (`keeps_apart_iff`).
-/

namespace UscopeDriver

namespace CustomDeployer

open HilDeployer (Elaborates HasInputs inputsOf)

variable {w : Surroundings} {arguments : Json}

/-! ## The state around an input -/

/-- The call for an input from `t` to `t'` is a list of calls of `setup_input`. -/
theorem SetsUpInput.run {s s' t t' : CustomDeployer} {n i : Nat} {p : DeployedProgram}
    {input : DeployedCoreInputs} (h : SetsUpInput w arguments s s' n p i input t t') :
    (forM (inputSetups t.addresses p (input, i)) (runSetup w.env.platform)).run t = .ok ⟨⟩ t' := by
  obtain ⟨programs, inputs, s₁, s₂, t₁, t₂, -, -, -, hround, -⟩ := h
  rw [← run_setupProgramInput]
  exact hround.round

/-- The stages before an input leave the layout, and a bitstream loaded. -/
theorem SetsUpInput.before {s s' t t' : CustomDeployer} {n i : Nat} {p : DeployedProgram}
    {input : DeployedCoreInputs} (h : SetsUpInput w arguments s s' n p i input t t') :
    t.addresses = s.addresses ∧ t.hw.fpgaLoaded = s.hw.fpgaLoaded := by
  obtain ⟨programs, inputs, s₁, s₂, t₁, t₂, hprepare, hround, -, hround', -⟩ := h
  obtain ⟨slots, memories, -, -, -, rfl⟩ := prepare_eq_ok.1 hprepare
  obtain ⟨-, hbefore⟩ := setupAllInputs_eq_ok.1 hround.before
  have hbefore' := hround'.before
  rw [run_forM_setupProgramInput] at hbefore'
  constructor
  · rw [addresses_of_forM_runSetup hbefore', addresses_of_forM_runSetup hbefore]
    rfl
  · rw [fpgaLoaded_of_forM_runSetup hbefore', fpgaLoaded_of_forM_runSetup hbefore]
    rfl

/-! ## The channels of an input with several entries -/

/-- The first word of entry `j`. -/
def entryWord (input : DeployedCoreInputs) (j : Nat) : UInt32 :=
  (input.data.getD j (.words [])).toWords.headD 0

/-- The writes that program a channel with a word, at the engine with address `ip`. -/
def channelRequests (ip i : Nat) (address : UInt32) (channel : Nat × UInt32) : List Request :=
  [regWrite (ip + constSelector) (DeployerBase.inputSelector i channel.1),
    regWrite (ip + constDest) (DeployerBase.inputDestination address channel.1),
    regWrite (ip + constLsb) channel.2.toNat]

/-- From `t` to `t'`, these channels of the input in position `i` are programmed at the engine with
address `ip`, with these words and in this order, and nothing else is. -/
structure ProgramsChannels (p : DeployedProgram) (input : DeployedCoreInputs) (ip i : Nat)
    (channels : List (Nat × UInt32)) (t t' : CustomDeployer) : Prop where
  recorded : ∃ entries, t'.inputs = t.inputs ++ entries ∧
    entries.map (fun e => (e.core, e.name, e.channel)) =
      channels.map fun c => (p.name, input.name, u32 c.1)
  written : t'.hw.busses.operations = t.hw.busses.operations ++
    t.hw.logged (channels.flatMap (channelRequests ip i (input.address.headD 0)))

/-- Each channel enters one input. -/
theorem ProgramsChannels.length_inputs {p : DeployedProgram} {input : DeployedCoreInputs}
    {ip i : Nat} {channels : List (Nat × UInt32)} {t t' : CustomDeployer}
    (h : ProgramsChannels p input ip i channels t t') :
    t'.inputs.length = t.inputs.length + channels.length := by
  obtain ⟨entries, hinputs, hentries⟩ := h.recorded
  have hlen := congrArg List.length hentries
  rw [List.length_map, List.length_map] at hlen
  rw [hinputs, List.length_append, hlen]

/-- Calls for constants make their requests in every state. -/
theorem setupRequests_of_isConstant (pl : Platform) {calls : List InputSetup}
    (h : ∀ c ∈ calls, c.input.sourceType.IsConstant) (s : CustomDeployer) :
    setupRequests pl calls s = calls.flatMap (·.constantRequests) := by
  unfold setupRequests
  induction calls generalizing s with
  | nil => rfl
  | cons c calls ih =>
    rw [List.forall_mem_cons] at h
    rw [Drives.requestsAlong, ih h.2, c.requests_of_isConstant pl h.1, List.flatMap_cons]

/-- Of `k` entries, the first half are programmed. -/
theorem programsChannels_of_setsUpInput {s s' t t' : CustomDeployer} {n i : Nat}
    {p : DeployedProgram} {input : DeployedCoreInputs}
    (h : SetsUpInput w arguments s s' n p i input t t') (hn : 1 < p.nChannels)
    (hc : input.sourceType.IsConstant) (hk : 2 ≤ input.data.length) :
    ProgramsChannels p input (inputIpAddress s.addresses input.sourceType) i
      ((List.range (channelRounds input.data.length)).map fun j => (j, entryWord input j))
      t t' := by
  have hrun := h.run
  rw [inputSetups, if_pos ⟨hk, hn⟩, h.before.1] at hrun
  set calls := (List.range (channelRounds input.data.length)).map fun j =>
    (⟨{ input with data := input.data.drop j }, inputIpAddress s.addresses input.sourceType, i, j,
      p.name, true⟩ : InputSetup) with hcalls
  have hconstant : ∀ c ∈ calls, c.input.sourceType.IsConstant := by
    rw [hcalls, List.forall_mem_map]
    exact fun _ _ => hc
  obtain ⟨-, -, rfl⟩ := forM_runSetup_eq_ok.1 hrun
  refine ⟨⟨calls.map (·.metadata), ?_, ?_⟩, ?_⟩
  · change (recordSetups calls t).inputs = _
    rw [recordSetups_inputs, List.filter_eq_self.2 (by simpa using hconstant)]
  · rw [hcalls, List.map_map, List.map_map, List.map_map]
    rfl
  · have hrequests : calls.flatMap (·.constantRequests) =
        ((List.range (channelRounds input.data.length)).map fun j => (j, entryWord input j)).flatMap
          (channelRequests (inputIpAddress s.addresses input.sourceType) i
            (input.address.headD 0)) := by
      rw [hcalls, List.flatMap_map, List.flatMap_map]
      refine List.flatMap_congr fun j _ => ?_
      simp only [InputSetup.constantRequests, InputSetup.word, headD_drop, channelRequests,
        entryWord]
      rfl
    rw [setupRequests_of_isConstant _ hconstant, ← hrequests, emit_hw, recordSetups_hw]
    rfl

/-- Half of the entries are never all of them. -/
theorem not_programsChannels_of_setsUpInput {s s' t t' : CustomDeployer} {n i : Nat}
    {p : DeployedProgram} {input : DeployedCoreInputs}
    (h : SetsUpInput w arguments s s' n p i input t t') (hn : 1 < p.nChannels)
    (hc : input.sourceType.IsConstant) (hk : 2 ≤ input.data.length) (ip : Nat) :
    ¬ProgramsChannels p input ip i
      ((List.range input.data.length).map fun j => (j, entryWord input j)) t t' := by
  intro hall
  have hhalf := (programsChannels_of_setsUpInput h hn hc hk).length_inputs
  have hlen := hall.length_inputs
  simp only [List.length_map, List.length_range, channelRounds] at hhalf hlen
  omega

/-- Every deployment sets up every input of a program with several channels, and never programs all
the channels of a constant or time series input with several entries : it programs the channels of
the first half of the entries. -/
theorem channels_programmed {programs : List DeployedProgram}
    (hprograms : (w.env.dispatcher arguments).getPrograms = .ok programs) {s s' : CustomDeployer}
    {u : Unit} (hrun : (deploy w arguments).run s = .ok u s') {n : Nat} {p : DeployedProgram}
    (hp : programs[n]? = some p) (hn : 1 < p.nChannels) {inputs : List DeployedCoreInputs}
    (hinputs : (w.env.dispatcher arguments).getInputs p.name = .ok inputs) {i : Nat}
    {input : DeployedCoreInputs} (hi : inputs[i]? = some input) (hc : input.sourceType.IsConstant)
    (hk : 2 ≤ input.data.length) :
    (∃ t t', SetsUpInput w arguments s s' n p i input t t') ∧
      ∀ t t', SetsUpInput w arguments s s' n p i input t t' →
        ProgramsChannels p input (inputIpAddress s.addresses input.sourceType) i
          ((List.range ((input.data.length + 1) / 2)).map fun j => (j, entryWord input j)) t t' ∧
        ∀ ip, ¬ProgramsChannels p input ip i
          ((List.range input.data.length).map fun j => (j, entryWord input j)) t t' :=
  ⟨exists_setsUpInput hprograms hrun hp hinputs hi, fun _ _ h =>
    ⟨programsChannels_of_setsUpInput h hn hc hk,
      not_programsChannels_of_setsUpInput h hn hc hk⟩⟩

/-- The map of the tests, with the engines among the control registers. -/
def inputsMap : LogicLayout :=
  { LogicLayout.addrMapV2 with
    bases := { LogicLayout.addrMapV2.bases with coresInputs := 18316861440 } }

/-- A deployer on an empty bus with a loaded bitstream. -/
def fresh : CustomDeployer where
  toDeployerBase := { HilDeployer.fresh.toDeployerBase with addresses := inputsMap }
  coresIdx := fun _ => 0

/-- A toolchain that returns these programs, on two cores. -/
def customSurroundings (programs : List DeployedProgram) : Surroundings :=
  { Surroundings.of programs [] with
    deploymentOptions := fun _ name => .ok (if name = "other" then
      ⟨21743271936, 18316918784, false⟩ else ⟨21474836480, 18316853248, false⟩) }

/-- A constant with these entries. -/
def constantOf (entries : List UInt32) : DeployedCoreInputs :=
  ⟨"in", .constantInput, [5], entries.map fun x => .words [x], ⟨.typeInteger, 32, false⟩, .sine⟩

/-- A program with one input. -/
def programOf (name : String) (nChannels : UInt32) (input : DeployedCoreInputs) : DeployedProgram :=
  ⟨name, 0, 1, 100, nChannels, [], ⟨10, 2⟩, [input]⟩

/-- A constant for two channels. -/
def twoEntries : DeployedCoreInputs := constantOf [7, 8]

/-- A program with one input for two channels. -/
def twoChannels : DeployedProgram := programOf "core" 2 twoEntries

/-- The surroundings of a specification with that program. -/
def twoSurroundings : Surroundings := customSurroundings [twoChannels]

/-- The deployment returns. -/
theorem deploy_two : ∃ u s', (deploy twoSurroundings .null).run fresh = .ok u s' ∧ True :=
  Exec.exists_of_returnsIn (by decide +kernel)

/-- Of two entries only the first one is programmed. -/
theorem channels_programmed_of_two : ∃ u s' t t',
    (deploy twoSurroundings .null).run fresh = .ok u s' ∧
      SetsUpInput twoSurroundings .null fresh s' 0 twoChannels 0 twoEntries t t' ∧
      ProgramsChannels twoChannels twoEntries 18316861441 0 [(0, 7)] t t' := by
  obtain ⟨u, s', hrun, -⟩ := deploy_two
  have hp : [twoChannels][0]? = some twoChannels := rfl
  have hi : [twoEntries][0]? = some twoEntries := rfl
  obtain ⟨⟨t, t', hset⟩, hprogrammed⟩ :=
    channels_programmed rfl hrun hp (by decide) rfl hi (by decide) (by decide)
  exact ⟨u, s', t, t', hrun, hset, (hprogrammed t t' hset).1⟩

/-- Of two channels the second is not programmed. -/
theorem second_channel_not_programmed : ∃ u s' t t',
    (deploy twoSurroundings .null).run fresh = .ok u s' ∧
      SetsUpInput twoSurroundings .null fresh s' 0 twoChannels 0 twoEntries t t' ∧
      ∀ ip, ¬ProgramsChannels twoChannels twoEntries ip 0 [(0, 7), (1, 8)] t t' := by
  obtain ⟨u, s', hrun, -⟩ := deploy_two
  have hp : [twoChannels][0]? = some twoChannels := rfl
  have hi : [twoEntries][0]? = some twoEntries := rfl
  obtain ⟨t, t', hset⟩ := exists_setsUpInput rfl hrun hp rfl hi
  exact ⟨u, s', t, t', hrun, hset, fun ip =>
    not_programsChannels_of_setsUpInput hset (by decide) (by decide) (by decide) ip⟩

/-! ## Where the inputs write -/

/-- The addresses that a deployment computes with are multiples of 4. -/
structure AlignedLayout (addresses : LogicLayout) : Prop where
  coresControl : 4 ∣ addresses.bases.coresControl
  coresInputs : 4 ∣ addresses.bases.coresInputs
  noiseGenerator : 4 ∣ addresses.bases.noiseGenerator
  offsetsCoresControl : 4 ∣ addresses.offsets.coresControl
  offsetsDma : 4 ∣ addresses.offsets.dma

/-- The base addresses of the engines and the selectors that an input programs from `t` to `t'`.
Without a bitstream it programs none. -/
def programmedPairs (t t' : CustomDeployer) : List (Nat × Nat) :=
  if t.hw.fpgaLoaded then (t'.inputs.drop t.inputs.length).map (·.constIpAddr) else []

/-- The deployment from `s` to `s'` writes to multiples of 4 only, and no two of its constants
share an engine and a selector. -/
structure KeepsApart (w : Surroundings) (arguments : Json) (s s' : CustomDeployer) : Prop where
  aligned : ∀ op ∈ s'.hw.busses.operations.drop s.hw.busses.operations.length,
    op.type = .controlPlaneWrite → ∀ a ∈ op.address, 4 ∣ a
  apart : ∀ n p i input t t' m q j input' v v',
    SetsUpInput w arguments s s' n p i input t t' → SetsUpInput w arguments s s' m q j input' v v' →
      input.sourceType.IsConstant → input'.sourceType.IsConstant → (n, i) ≠ (m, j) →
        List.Disjoint (programmedPairs t t') (programmedPairs v v')

/-- A multiple of four stays one in 64 bits. -/
theorem dvd_u64 {n : Nat} (h : 4 ∣ n) : 4 ∣ u64 n :=
  (Nat.dvd_mod_iff (by norm_num)).2 h

/-- One past a multiple of 4. -/
theorem inputIpAddress_mod {addresses : LogicLayout} (h : AlignedLayout addresses)
    (type : SourceType) : inputIpAddress addresses type % 4 = 1 := by
  have hinputs := h.coresInputs
  have hnoise := h.noiseGenerator
  unfold inputIpAddress u64
  split <;> omega

/-- Every input that writes writes one past a multiple of 4. -/
theorem exists_request_mod (pl : Platform) {c : InputSetup} (hready : c.Ready)
    (hext : c.input.sourceType ≠ .external) (hip : c.ipAddress % 4 = 1) (s : DeployerBase) :
    ∃ a v, regWrite a v ∈ c.requests pl s ∧ u64 a % 4 = 1 := by
  have hconstant : c.input.sourceType.IsConstant →
      ∃ a v, regWrite a v ∈ c.requests pl s ∧ u64 a % 4 = 1 := by
    intro h
    refine ⟨c.ipAddress + constSelector, c.selector, ?_, ?_⟩
    · rw [c.requests_of_isConstant pl h]
      exact List.mem_cons_self
    · unfold u64 constSelector
      omega
  cases htype : c.input.sourceType with
  | constantInput => exact hconstant (Or.inl htype)
  | timeSeriesInput => exact hconstant (Or.inr htype)
  | randomInput =>
    refine ⟨c.ipAddress + u32 ((s.activeRandomInputs + 1) * 4), c.dest, ?_, ?_⟩
    · rw [c.requests_of_random pl htype]
      exact List.mem_cons_self
    · unfold u64 u32
      omega
  | waveformInput =>
    obtain ⟨parameters, hrequests⟩ := c.requests_of_waveform pl htype hready s
    refine ⟨c.ipAddress + SquareWaveGen.channelSelector, s.activeWaveforms, ?_, ?_⟩
    · rw [hrequests]
      exact List.mem_cons_self
    · unfold u64 SquareWaveGen.channelSelector
      omega
  | external => exact absurd htype hext

/-- Every input has a call for its first channel. -/
theorem exists_first_setup (addresses : LogicLayout) (p : DeployedProgram)
    (input : DeployedCoreInputs × Nat) : ∃ c ∈ inputSetups addresses p input,
      c.input.sourceType = input.1.sourceType ∧
      c.ipAddress = inputIpAddress addresses input.1.sourceType ∧ c.constIdx = input.2 ∧
      c.targetChannel = 0 := by
  unfold inputSetups
  split_ifs with hn
  · have hpos : 0 < channelRounds input.1.data.length := by
      simp only [channelRounds]
      omega
    exact ⟨_, List.mem_map_of_mem (List.mem_range.2 hpos), rfl, rfl, rfl, rfl⟩
  · exact ⟨_, List.mem_singleton_self _, rfl, rfl, rfl, rfl⟩

/-- The calls for an input are for its type. -/
theorem sourceType_of_mem_inputSetups {addresses : LogicLayout} {p : DeployedProgram}
    {input : DeployedCoreInputs × Nat} {c : InputSetup} (hc : c ∈ inputSetups addresses p input) :
    c.input.sourceType = input.1.sourceType := by
  unfold inputSetups at hc
  split_ifs at hc
  · obtain ⟨j, -, rfl⟩ := List.mem_map.1 hc
    rfl
  · rw [List.mem_singleton.1 hc]

/-- Inputs that are all external make no request. -/
theorem setupRequests_eq_nil (pl : Platform) {addresses : LogicLayout}
    {dispatcher : EmulatorDispatcher} {programs : List DeployedProgram}
    (h : ∀ p ∈ programs, ∀ input ∈ inputsOf dispatcher p.name, input.sourceType = .external)
    (s : CustomDeployer) :
    setupRequests pl (deploymentSetups addresses dispatcher programs) s = [] := by
  refine Drives.requestsAlong_eq_nil (fun c hc t => ?_) s
  obtain ⟨p, hp, hc⟩ := List.mem_flatMap.1 hc
  obtain ⟨⟨input, i⟩, hinput, hc⟩ := List.mem_flatMap.1 hc
  have htype : c.input.sourceType = .external :=
    (sourceType_of_mem_inputSetups hc).trans
      (h p hp input (List.mem_of_getElem? (List.mem_zipIdx_iff_getElem?.1 hinput)))
  rw [InputSetup.requests, htype]

/-- Any other input writes one past a multiple of 4. -/
theorem exists_write_mod (pl : Platform) {addresses : LogicLayout}
    (hlayout : AlignedLayout addresses) {dispatcher : EmulatorDispatcher}
    {programs : List DeployedProgram}
    (hready : ∀ c ∈ deploymentSetups addresses dispatcher programs, c.Ready) {p : DeployedProgram}
    (hp : p ∈ programs) {input : DeployedCoreInputs} (hinput : input ∈ inputsOf dispatcher p.name)
    (hext : input.sourceType ≠ .external) (s : CustomDeployer) :
    ∃ a v, Request.write a v ∈
      setupRequests pl (deploymentSetups addresses dispatcher programs) s ∧ a % 4 = 1 := by
  obtain ⟨i, hi⟩ := List.getElem?_of_mem hinput
  obtain ⟨c, hc, htype, hip, -, -⟩ := exists_first_setup addresses p (input, i)
  have hmem : c ∈ deploymentSetups addresses dispatcher programs :=
    List.mem_flatMap.2 ⟨p, hp, List.mem_flatMap.2 ⟨_, List.mem_zipIdx_iff_getElem?.2 hi, hc⟩⟩
  obtain ⟨t, ht⟩ := Drives.subset_requestsAlong
    (R := fun (c : InputSetup) (s : CustomDeployer) => c.requests pl s.toDeployerBase)
    (F := recordSetup) hmem s
  have hext' : c.input.sourceType ≠ .external := by rwa [htype]
  have hmod : c.ipAddress % 4 = 1 := by
    rw [hip]
    exact inputIpAddress_mod hlayout _
  obtain ⟨a, v, hr, ha⟩ :=
    exists_request_mod pl (hready c hmem) hext' hmod t.toDeployerBase
  exact ⟨u64 a, u32 v, ht hr, ha⟩

theorem dvd_dmaRegister {address n a : Nat} (h : 4 ∣ address) (ha : DmaRegister address n a) :
    4 ∣ a := by
  rcases ha with rfl | rfl | rfl | ⟨k, -, rfl | rfl⟩
  · exact h
  · omega
  · omega
  · unfold DeployerBase.mappingAddress u32
    omega
  · unfold DeployerBase.metadataAddress u32
    omega

theorem dvd_memoryRegister {address n a : Nat} {m : MemoryInitValue} (h : 4 ∣ address)
    (ha : MemoryRegister address n m a) : 4 ∣ a := by
  unfold MemoryRegister at ha
  split_ifs at ha
  · obtain ⟨i, -, rfl⟩ := ha
    unfold DeployerBase.memoryChannelAddress u32
    omega
  · rw [ha]
    unfold u32
    omega

/-- Beside the inputs, a deployment writes to multiples of 4. -/
theorem aligned_of_mem {programs : List DeployedProgram}
    {slots : List DeployerInterconnectSlot} {memories : String → List MemoryInitValue}
    {s : CustomDeployer} (hlayout : AlignedLayout s.addresses)
    (hoptions : ∀ p ∈ programs, 4 ∣ (optionsOf (w.deploymentOptions arguments) p).controlAddress)
    {address value : Nat} (h : Request.write address value ∈
      prepareRequests (w.deploymentOptions arguments) programs slots memories s ++
        programs.map (coreRequest (w.deploymentOptions arguments))) : 4 ∣ address := by
  have hwrites : OnlyWrites (4 ∣ ·)
      (programs.zipIdx.flatMap (withBusMap slots s).programDmaRequests ++
        programs.flatMap (programMemoryRequests (w.deploymentOptions arguments) memories) ++
        programs.map (coreRequest (w.deploymentOptions arguments))) := by
    refine .append (.append (.flatMap fun x _ => ?_) (.flatMap fun p hp => .flatMap fun m _ => ?_))
      ?_
    · refine (onlyWrites_dmaRequests _ _ _).mono fun a ha => dvd_dmaRegister (dvd_u64 ?_) ha
      exact dvd_add (dvd_add hlayout.coresControl (hlayout.offsetsCoresControl.mul_right _))
        hlayout.offsetsDma
    · exact (onlyWrites_memoryRequests _ _ m).mono fun a ha => dvd_memoryRegister (hoptions p hp) ha
    · intro r hr
      obtain ⟨p, hp, rfl⟩ := List.mem_map.1 hr
      exact ⟨_, _, hoptions p hp, rfl⟩
  rw [prepareRequests, List.append_assoc, List.append_assoc, ← List.append_assoc _ _ (List.map _ _)]
    at h
  rcases List.mem_append.1 h with h | h
  · obtain ⟨p, -, hp⟩ := List.mem_map.1 h
    cases hp
  · obtain ⟨a, v, ha, hr⟩ := hwrites _ h
    obtain ⟨rfl, -⟩ := Request.write.inj hr
    exact dvd_u64 ha

/-- What a deployment logs. -/
theorem drop_operations_deployed {programs : List DeployedProgram}
    {slots : List DeployerInterconnectSlot} {s : CustomDeployer} (rs : List Request) :
    ((deployed w arguments programs slots s).emit rs).hw.busses.operations.drop
      s.hw.busses.operations.length = s.hw.logged rs := by
  have hhw : (deployed w arguments programs slots s).hw = s.hw := recordSetups_hw _ _
  rw [emit_hw, hhw, FpgaBridge.performAll_operations, List.drop_left]

/-- The writes of a list of requests go to multiples of 4, or are dropped. -/
theorem aligned_logged_iff {hw : FpgaBridge} {rs : List Request} :
    (∀ op ∈ hw.logged rs, op.type = .controlPlaneWrite → ∀ a ∈ op.address, 4 ∣ a) ↔
      (hw.fpgaLoaded = true → ∀ a v, Request.write a v ∈ rs → 4 ∣ a) := by
  constructor
  · intro h hloaded a v hr
    have hop : (Request.write a v).op ∈ hw.logged rs := by
      rw [FpgaBridge.logged_of_loaded hloaded]
      exact List.mem_map_of_mem hr
    exact h _ hop rfl a (List.mem_singleton_self a)
  · intro h op hop htype a ha
    obtain ⟨r, hr, rfl⟩ := List.mem_map.1 hop
    obtain ⟨hr, hreaches⟩ := List.mem_filter.1 hr
    cases r with
    | write address value =>
      obtain rfl : a = address := List.mem_singleton.1 ha
      exact h hreaches a value hr
    | load address program => cases htype

/-- A deployment writes to multiples of 4 only, just when no input writes. -/
theorem aligned_iff {programs : List DeployedProgram} {s s' : CustomDeployer} {u : Unit}
    (hprograms : (w.env.dispatcher arguments).getPrograms = .ok programs)
    (hlayout : AlignedLayout s.addresses)
    (hoptions : ∀ p ∈ programs, 4 ∣ (optionsOf (w.deploymentOptions arguments) p).controlAddress)
    (hrun : (deploy w arguments).run s = .ok u s') :
    (∀ op ∈ s'.hw.busses.operations.drop s.hw.busses.operations.length,
      op.type = .controlPlaneWrite → ∀ a ∈ op.address, 4 ∣ a) ↔
    (s.hw.fpgaLoaded = true → ∀ p ∈ programs,
      ∀ input ∈ inputsOf (w.env.dispatcher arguments) p.name, input.sourceType = .external) := by
  obtain ⟨programs', slots, memories, hel, hdep, -, rfl⟩ := deploy_eq_ok.1 hrun
  obtain rfl := hel.programs_eq hprograms
  rw [drop_operations_deployed, aligned_logged_iff]
  refine forall_congr' fun hloaded => ⟨fun h p hp input hinput => ?_, fun h a v hr => ?_⟩
  · by_contra hext
    obtain ⟨a, v, hr, ha⟩ := exists_write_mod w.env.platform hlayout hdep.inputsReady hp hinput hext
      (prepared programs' slots s)
    have hdvd := h a v (List.mem_append_left _ (List.mem_append_right _ hr))
    omega
  · rw [deploymentRequests, setupRequests_eq_nil _ h, List.append_nil] at hr
    exact aligned_of_mem hlayout hoptions hr

/-! ## What the inputs share -/

/-- What a constant programs first depends on its position only. -/
theorem mem_programmedPairs {s s' t t' : CustomDeployer} {n i : Nat} {p : DeployedProgram}
    {input : DeployedCoreInputs} (h : SetsUpInput w arguments s s' n p i input t t')
    (hloaded : s.hw.fpgaLoaded = true) (hc : input.sourceType.IsConstant) :
    (u64 (inputIpAddress s.addresses input.sourceType), DeployerBase.inputSelector i 0) ∈
      programmedPairs t t' := by
  obtain ⟨haddresses, hbefore⟩ := h.before
  obtain ⟨c, hmem, htype, hip, hidx, hchannel⟩ := exists_first_setup t.addresses p (input, i)
  obtain ⟨-, -, rfl⟩ := forM_runSetup_eq_ok.1 h.run
  have hinputs : ((recordSetups (inputSetups t.addresses p (input, i)) t).emit
      (setupRequests w.env.platform (inputSetups t.addresses p (input, i)) t)).inputs = t.inputs ++
        ((inputSetups t.addresses p (input, i)).filter (·.input.sourceType.IsConstant)).map
          (·.metadata) := recordSetups_inputs _ _
  rw [programmedPairs, if_pos (hbefore.trans hloaded), hinputs, List.drop_left, List.map_map]
  have hpair : (u64 (inputIpAddress s.addresses input.sourceType), DeployerBase.inputSelector i 0) =
      c.metadata.constIpAddr := by
    rw [InputSetup.metadata, InputSetup.selector, hip, hidx, hchannel, haddresses]
  rw [hpair]
  refine List.mem_map_of_mem (f := (·.constIpAddr) ∘ (·.metadata)) (List.mem_filter.2 ⟨hmem, ?_⟩)
  simpa only [htype, decide_eq_true_eq] using hc

/-- Constants in the same position of two programs overwrite each other. -/
theorem not_disjoint_programmedPairs {s s' t t' v v' : CustomDeployer} {n m i : Nat}
    {p q : DeployedProgram} {input input' : DeployedCoreInputs}
    (h : SetsUpInput w arguments s s' n p i input t t')
    (h' : SetsUpInput w arguments s s' m q i input' v v') (hloaded : s.hw.fpgaLoaded = true)
    (hc : input.sourceType.IsConstant) (hc' : input'.sourceType.IsConstant) :
    ¬List.Disjoint (programmedPairs t t') (programmedPairs v v') := by
  have hsame : inputIpAddress s.addresses input'.sourceType =
      inputIpAddress s.addresses input.sourceType := by
    rcases hc with hc | hc <;> rcases hc' with hc' | hc' <;> rw [hc, hc'] <;> rfl
  have hmem := mem_programmedPairs h hloaded hc
  have hmem' := mem_programmedPairs h' hloaded hc'
  rw [hsame] at hmem'
  exact fun hdisjoint => hdisjoint hmem hmem'

/-- An input that is set up is one of its program. -/
theorem SetsUpInput.mem {programs : List DeployedProgram} {s s' t t' : CustomDeployer} {n i : Nat}
    {p : DeployedProgram} {input : DeployedCoreInputs}
    (h : SetsUpInput w arguments s s' n p i input t t')
    (hprograms : (w.env.dispatcher arguments).getPrograms = .ok programs) :
    p ∈ programs ∧ input ∈ inputsOf (w.env.dispatcher arguments) p.name := by
  obtain ⟨programs', inputs, s₁, s₂, t₁, t₂, hprepare, hround, hinputs, hround', -⟩ := h
  obtain ⟨slots, memories, hel, -, -, -⟩ := prepare_eq_ok.1 hprepare
  obtain rfl := hel.programs_eq hprograms
  refine ⟨List.mem_of_getElem? hround.getElem?, ?_⟩
  rw [inputsOf, hinputs]
  have hx := hround'.getElem?
  rw [List.getElem?_zipIdx] at hx
  obtain ⟨input', hi, hx⟩ := Option.map_eq_some_iff.1 hx
  obtain ⟨rfl, -⟩ := Prod.mk.inj hx
  exact List.mem_of_getElem? hi

/-- On a layout of multiples of 4, a deployment keeps the inputs apart just when none of them
writes : the bitstream is not loaded, or every input of every program is external. Constants in the
same position of two programs share an engine and a selector. -/
theorem keeps_apart_iff {programs : List DeployedProgram} {s s' : CustomDeployer} {u : Unit}
    (hprograms : (w.env.dispatcher arguments).getPrograms = .ok programs)
    (hlayout : AlignedLayout s.addresses)
    (hoptions : ∀ p ∈ programs, 4 ∣ (optionsOf (w.deploymentOptions arguments) p).controlAddress)
    (hrun : (deploy w arguments).run s = .ok u s') :
    (KeepsApart w arguments s s' ↔ (s.hw.fpgaLoaded = true → ∀ p ∈ programs,
      ∀ input ∈ inputsOf (w.env.dispatcher arguments) p.name, input.sourceType = .external)) ∧
    (s.hw.fpgaLoaded = true → ∀ n p m q i input input' t t' v v',
      SetsUpInput w arguments s s' n p i input t t' →
      SetsUpInput w arguments s s' m q i input' v v' → input.sourceType.IsConstant →
      input'.sourceType.IsConstant →
        ¬List.Disjoint (programmedPairs t t') (programmedPairs v v')) := by
  have haligned := aligned_iff hprograms hlayout hoptions hrun
  refine ⟨⟨fun h => haligned.1 h.aligned, fun h => ⟨haligned.2 h, ?_⟩⟩, ?_⟩
  · intro n p i input t t' m q j input' v v' hset _ hc _ _
    by_cases hloaded : s.hw.fpgaLoaded = true
    · obtain ⟨hp, hinput⟩ := hset.mem hprograms
      have hext := h hloaded p hp input hinput
      rw [hext] at hc
      exact absurd hc (by decide)
    · have hnil : programmedPairs t t' = [] := by
        rw [programmedPairs, if_neg]
        rwa [hset.before.2]
      rw [hnil]
      exact List.disjoint_nil_left _
  · intro hloaded n p m q i input input' t t' v v' hset hset' hc hc'
    exact not_disjoint_programmedPairs hset hset' hloaded hc hc'

/-- Two programs with a constant each. -/
def twoCores (type : SourceType) : List DeployedProgram :=
  [programOf "core" 1 { constantOf [7] with sourceType := type },
    programOf "other" 1 { constantOf [9] with sourceType := type }]

/-- The map is aligned. -/
theorem alignedLayout_inputsMap : AlignedLayout inputsMap := by
  constructor <;> decide

/-- So are the cores of these specifications. -/
theorem aligned_customSurroundings (programs : List DeployedProgram) (p : DeployedProgram) :
    4 ∣ (optionsOf ((customSurroundings programs).deploymentOptions .null) p).controlAddress := by
  simp only [optionsOf, customSurroundings]
  split_ifs <;> decide

theorem keeps_apart_of_external : ∃ u s',
    (deploy (customSurroundings (twoCores .external)) .null).run fresh = .ok u s' ∧
      KeepsApart (customSurroundings (twoCores .external)) .null fresh s' := by
  obtain ⟨u, s', hrun, -⟩ : ∃ u s',
      (deploy (customSurroundings (twoCores .external)) .null).run fresh = .ok u s' ∧ True :=
    Exec.exists_of_returnsIn (by decide +kernel)
  have hiff := (keeps_apart_iff rfl alignedLayout_inputsMap
    (fun p _ => aligned_customSurroundings _ p) hrun).1
  exact ⟨u, s', hrun, hiff.2 fun _ => by decide⟩

/-- The constants of two cores are programmed into one selector of one engine. -/
theorem cores_share_constant : AlignedLayout fresh.addresses ∧
    (∀ p ∈ twoCores .constantInput, 4 ∣ (optionsOf ((customSurroundings
      (twoCores .constantInput)).deploymentOptions .null) p).controlAddress) ∧
    ∃ u s', (deploy (customSurroundings (twoCores .constantInput)) .null).run fresh = .ok u s' ∧
      ¬KeepsApart (customSurroundings (twoCores .constantInput)) .null fresh s' := by
  obtain ⟨u, s', hrun, -⟩ : ∃ u s',
      (deploy (customSurroundings (twoCores .constantInput)) .null).run fresh = .ok u s' ∧ True :=
    Exec.exists_of_returnsIn (by decide +kernel)
  have hprograms : ((customSurroundings (twoCores .constantInput)).env.dispatcher
    .null).getPrograms = .ok (twoCores .constantInput) := rfl
  have hp : (twoCores .constantInput)[0]? = some (programOf "core" 1 (constantOf [7])) := rfl
  have hq : (twoCores .constantInput)[1]? = some (programOf "other" 1 (constantOf [9])) := rfl
  have hi : [constantOf [7]][0]? = some (constantOf [7]) := rfl
  have hj : [constantOf [9]][0]? = some (constantOf [9]) := rfl
  obtain ⟨t, t', hset⟩ := exists_setsUpInput hprograms hrun hp rfl hi
  obtain ⟨v, v', hset'⟩ := exists_setsUpInput hprograms hrun hq rfl hj
  refine ⟨alignedLayout_inputsMap, fun p _ => aligned_customSurroundings _ p, u, s', hrun,
    fun h => ?_⟩
  exact not_disjoint_programmedPairs hset hset' rfl (by decide) (by decide)
    (h.apart _ _ _ _ _ _ _ _ _ _ _ _ hset hset' (by decide) (by decide) (by decide))

end CustomDeployer

end UscopeDriver
