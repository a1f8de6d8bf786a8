import UscopeDriver.HilInputs

/-!
# The registers of a deployment

Which registers a specification makes a deployment set up, on a given layout : the output DMA and
the memories of each core, the engine or the generator behind each input, the sequencer and the
number of channels of each core (`SetupRegister`). The generators are shared by all cores, so theirs
depend on how many channels they drive (`generatorDestinations`).
-/

namespace UscopeDriver

/-! ## The channels of the generators -/

/-- The channels that the inputs stage gives a random or waveform input. -/
def generatorChannels (p : DeployedProgram) (input : DeployedCoreInputs) : List Nat :=
  if p.nChannels > 1 then
    List.range (if input.data.length > 1 then input.data.length else p.nChannels.toNat)
  else [0]

/-- The bus destinations of an input, by channel. -/
def channelDestinations (p : DeployedProgram) (input : DeployedCoreInputs) : List Nat :=
  (generatorChannels p input).map (DeployerBase.inputDestination (input.address.headD 0))

/-- The bus destinations of the inputs of a type, by program, input and channel. -/
def generatorDestinations (type : SourceType) (programs : List DeployedProgram)
    (inputs : String → List DeployedCoreInputs) : List Nat :=
  programs.flatMap fun p =>
    (inputs p.name).flatMap fun i => if i.sourceType = type then channelDestinations p i else []

theorem exists_of_generatorDestinations {type : SourceType} {programs : List DeployedProgram}
    {inputs : String → List DeployedCoreInputs}
    (h : 0 < (generatorDestinations type programs inputs).length) :
    ∃ p ∈ programs, ∃ i ∈ inputs p.name, i.sourceType = type := by
  obtain ⟨d, hd⟩ := List.exists_mem_of_length_pos h
  obtain ⟨p, hp, hd⟩ := List.mem_flatMap.1 hd
  obtain ⟨i, hi, hd⟩ := List.mem_flatMap.1 hd
  refine ⟨p, hp, i, hi, ?_⟩
  by_contra hs
  simp [hs] at hd

/-- The two types of input that share a generator with those of the other cores. -/
def SourceType.IsGenerated (type : SourceType) : Prop :=
  type = .randomInput ∨ type = .waveformInput

namespace InputAction

open HilDeployer

/-- The destination that an action sets up, if it is for an input of the type. -/
def generated (type : SourceType) : InputAction → Option Nat
  | .setup c => if c.input.sourceType = type then some c.dest else none
  | _ => none

theorem generated_ofInput {type : SourceType} (h : type.IsGenerated) (addresses : LogicLayout)
    (p : DeployedProgram) (k : Nat) (input : DeployedCoreInputs) :
    (ofInput addresses p k input).filterMap (generated type) =
      if input.sourceType = type then channelDestinations p input else [] := by
  unfold ofInput ofMultichannelInput ofChannel channelDestinations generatorChannels
  by_cases hn : p.nChannels > 1
  · by_cases hd : input.data.length > 1
    · by_cases ht : input.sourceType = type
      · simp [hn, hd, ht, generated, List.filterMap_flatMap, List.filterMap_cons, InputSetup.dest,
          List.map_eq_flatMap]
      · simp [hn, hd, ht, generated, List.filterMap_flatMap, List.filterMap_cons]
    · rcases h with rfl | rfl
      · cases hs : input.sourceType <;> by_cases h₁ : input.data.length = 1 <;>
          simp [hn, hd, hs, h₁, generated, List.filterMap_map, List.filterMap_flatMap,
            List.filterMap_cons, InputSetup.dest, Function.comp_def]
      · cases hs : input.sourceType <;> by_cases h₁ : input.data.length = 1 <;>
          simp [hn, hd, hs, h₁, generated, List.filterMap_map, List.filterMap_flatMap,
            List.filterMap_cons, InputSetup.dest, Function.comp_def]
  · by_cases ht : input.sourceType = type
    · simp [hn, ht, generated, InputSetup.dest]
    · simp [hn, ht, generated]

theorem generated_ofInputs {type : SourceType} (h : type.IsGenerated) (addresses : LogicLayout)
    (p : DeployedProgram) (inputs : List DeployedCoreInputs) (k : Nat) :
    (ofInputs addresses p k inputs).filterMap (generated type) =
      inputs.flatMap fun i => if i.sourceType = type then channelDestinations p i else [] := by
  induction inputs generalizing k with
  | nil => rfl
  | cons input rest ih =>
    rw [ofInputs, List.filterMap_append, generated_ofInput h, ih, List.flatMap_cons]

/-- The actions of the inputs stage set up each channel of a generator once. -/
theorem generated_inputActions {type : SourceType} (h : type.IsGenerated)
    (addresses : LogicLayout) (dispatcher : EmulatorDispatcher) (programs : List DeployedProgram) :
    (inputActions addresses dispatcher programs).filterMap (generated type) =
      generatorDestinations type programs (inputsOf dispatcher) := by
  induction programs with
  | nil => rfl
  | cons p programs ih =>
    have hprogram : (ofProgram addresses (inputsOf dispatcher) p).filterMap (generated type) =
        (inputsOf dispatcher p.name).flatMap fun i =>
          if i.sourceType = type then channelDestinations p i else [] := by
      rw [ofProgram, List.filterMap_append, generated_ofInputs h]
      simp [generated]
    rw [inputActions, List.flatMap_cons, List.filterMap_append, hprogram]
    exact congrArg _ ih

end InputAction

/-! ## The registers of each stage -/

/-- The registers of an output DMA with a number of entries. -/
def DmaRegister (address entries a : Nat) : Prop :=
  a = address ∨ a = address + 4 ∨ a = address + 8 ∨ ∃ k < entries,
    a = DeployerBase.mappingAddress address k ∨ a = DeployerBase.metadataAddress address k

/-- The registers of one memory of a core. -/
def MemoryRegister (baseAddress nChannels : Nat) (m : MemoryInitValue) (a : Nat) : Prop :=
  if m.value.toWords.length = nChannels then ∃ i < nChannels,
    a = DeployerBase.memoryChannelAddress baseAddress (m.address.headD 0).toNat i
  else a = baseAddress + u32 ((m.address.headD 0).toNat * 4)

/-- The registers behind an input of a type, on a generator with `n` channels. -/
def InputRegister (ipAddress n : Nat) : SourceType → Nat → Prop
  | .constantInput, a | .timeSeriesInput, a =>
    a = ipAddress + constSelector ∨ a = ipAddress + constDest ∨ a = ipAddress + constLsb
  | .randomInput, a => a = ipAddress ∨ ∃ k < n, a = ipAddress + u32 ((k + 1) * 4)
  | .waveformInput, a => ∃ k < 10, a = ipAddress + 4 * k
  | .external, _ => False

/-- The registers of the sequencer before it is enabled. -/
def SequencerRegister (addresses : LogicLayout) (nCores a : Nat) : Prop :=
  a = HilDeployer.periodAddress addresses ∨ ∃ i < nCores,
    a = HilDeployer.dividerAddress addresses i ∨ a = HilDeployer.shiftAddress addresses i

/-- The registers that a deployment sets up, but for the enable register. DMAs and memories go by
the name of a program, so where two programs share one, the core is either. -/
inductive SetupRegister (addresses : LogicLayout) (programs : List DeployedProgram)
    (slots : List DeployerInterconnectSlot) (memories : String → List MemoryInitValue)
    (inputs : String → List DeployedCoreInputs) : Nat → Prop
  | dma {p q : DeployedProgram} {a : Nat} (hp : p ∈ programs) (hq : q ∈ programs)
      (hname : q.name = p.name)
      (h : DmaRegister (HilDeployer.dmaAddress addresses q.index.toNat)
        (DeployerBase.entriesOf slots p.name).length a) :
      SetupRegister addresses programs slots memories inputs a
  | memory {p q : DeployedProgram} {m : MemoryInitValue} {a : Nat} (hp : p ∈ programs)
      (hq : q ∈ programs) (hname : q.name = p.name) (hm : m ∈ memories p.name)
      (h : MemoryRegister (HilDeployer.controlAddress addresses q.index.toNat) p.nChannels.toNat m
        a) :
      SetupRegister addresses programs slots memories inputs a
  | input {p : DeployedProgram} {i : DeployedCoreInputs} {a : Nat} (hp : p ∈ programs)
      (hi : i ∈ inputs p.name)
      (h : InputRegister (HilDeployer.inputIpAddress addresses p i.sourceType)
        (generatorDestinations .randomInput programs inputs).length i.sourceType a) :
      SetupRegister addresses programs slots memories inputs a
  | sequencer {a : Nat} (h : SequencerRegister addresses programs.length a) :
      SetupRegister addresses programs slots memories inputs a
  | core {p : DeployedProgram} (hp : p ∈ programs) :
      SetupRegister addresses programs slots memories inputs
        (HilDeployer.controlAddress addresses p.index.toNat)

/-- The registers that the deployment of a specification sets up. Where the toolchain throws, there
is nothing to set up. -/
def EmulatorDispatcher.SetupRegister (dispatcher : EmulatorDispatcher) (addresses : LogicLayout) :
    Nat → Prop :=
  UscopeDriver.SetupRegister addresses (dispatcher.getPrograms.toOption.getD [])
    (dispatcher.getInterconnectSlots.toOption.getD [])
    (dispatcher.getMemoryInitializations.toOption.getD fun _ => [])
    (HilDeployer.inputsOf dispatcher)

/-! ## The requests of each stage -/

/-- The requests are writes to registers with `A`. -/
def OnlyWrites (A : Nat → Prop) (rs : List Request) : Prop :=
  ∀ r ∈ rs, ∃ a v, A a ∧ r = regWrite a v

namespace OnlyWrites

variable {A B : Nat → Prop} {rs rs' : List Request}

theorem nil : OnlyWrites A [] := by
  simp [OnlyWrites]

theorem cons {a v : Nat} (ha : A a) (h : OnlyWrites A rs) : OnlyWrites A (regWrite a v :: rs) :=
  List.forall_mem_cons.2 ⟨⟨a, v, ha, rfl⟩, h⟩

theorem append (h : OnlyWrites A rs) (h' : OnlyWrites A rs') : OnlyWrites A (rs ++ rs') :=
  List.forall_mem_append.2 ⟨h, h'⟩

theorem flatMap {β : Type} {f : β → List Request} {xs : List β}
    (h : ∀ x ∈ xs, OnlyWrites A (f x)) : OnlyWrites A (xs.flatMap f) := by
  intro r hr
  obtain ⟨x, hx, hr⟩ := List.mem_flatMap.1 hr
  exact h x hx r hr

theorem mono (h : OnlyWrites A rs) (hAB : ∀ a, A a → B a) : OnlyWrites B rs := fun r hr => by
  obtain ⟨a, v, ha, hr⟩ := h r hr
  exact ⟨a, v, hAB a ha, hr⟩

end OnlyWrites

theorem onlyWrites_dmaRequests (ivs : String → String → Option (List Nat)) (address : Nat)
    (entries : List DeployerInterconnectSlot) :
    OnlyWrites (DmaRegister address entries.length)
      (DeployerBase.dmaRequests ivs address entries) := by
  refine .append (.flatMap fun x hx => ?_) (.cons (Or.inl rfl) .nil)
  have hk : x.2 < entries.length := List.snd_lt_of_mem_zipIdx hx
  refine .cons (Or.inr (Or.inr (Or.inr ⟨x.2, hk, Or.inl rfl⟩))) (.append ?_
    (.cons (Or.inr (Or.inr (Or.inr ⟨x.2, hk, Or.inr rfl⟩))) .nil))
  unfold DeployerBase.fillRequests
  split
  · exact .nil
  · exact .cons (Or.inr (Or.inr (Or.inl rfl))) (.cons (Or.inr (Or.inl rfl)) .nil)

theorem onlyWrites_memoryRequests (baseAddress nChannels : Nat) (m : MemoryInitValue) :
    OnlyWrites (MemoryRegister baseAddress nChannels m)
      (DeployerBase.memoryRequests baseAddress nChannels m) := by
  unfold DeployerBase.memoryRequests MemoryRegister
  split_ifs with hn
  · intro r hr
    obtain ⟨x, hx, rfl⟩ := List.mem_map.1 hr
    exact ⟨_, _, ⟨x.2, hn ▸ List.snd_lt_of_mem_zipIdx hx, rfl⟩, rfl⟩
  · exact .cons rfl .nil

theorem onlyWrites_constantRequests {c : InputSetup} (h : c.input.sourceType.IsConstant)
    (n : Nat) : OnlyWrites (InputRegister c.ipAddress n c.input.sourceType) c.constantRequests := by
  rcases h with h | h <;> rw [h] <;>
    exact .cons (Or.inl rfl) (.cons (Or.inr (Or.inl rfl)) (.cons (Or.inr (Or.inr rfl)) .nil))

theorem onlyWrites_squareRequests (pl : Platform) (ip n dest channel active : Nat) (clock : ℚ)
    (p : SquareWaveParameters) :
    OnlyWrites (InputRegister ip n .waveformInput)
      (InputSetup.squareRequests pl ip dest channel active clock p) := by
  have hk : ∀ k < 10, InputRegister ip n .waveformInput (ip + 4 * k) := fun k hk => ⟨k, hk, rfl⟩
  exact .cons (hk 2 (by omega)) <| .cons (hk 3 (by omega)) <| .cons (hk 4 (by omega)) <|
    .cons (hk 5 (by omega)) <| .cons (hk 6 (by omega)) <| .cons (hk 7 (by omega)) <|
    .cons (hk 8 (by omega)) <| .cons (hk 1 (by omega)) <| .cons (hk 9 (by omega)) <|
    .cons (hk 0 (by omega)) .nil

theorem onlyWrites_sequencerRequests (addresses : LogicLayout) (period n : Nat)
    (divisors shifts : List Nat) :
    OnlyWrites (fun a => SequencerRegister addresses n a ∨ a = HilDeployer.enableAddress addresses)
      (HilDeployer.sequencerRequests addresses period n divisors shifts) := by
  refine .append (.flatMap fun i hi => ?_) (.cons (Or.inl (Or.inl rfl)) (.cons (Or.inr rfl) .nil))
  have hi : i < n := List.mem_range.1 hi
  exact .cons (Or.inl (Or.inr ⟨i, hi, Or.inl rfl⟩))
    (.cons (Or.inl (Or.inr ⟨i, hi, Or.inr rfl⟩)) .nil)

/-! ## The map of the tests -/

namespace HilDeployer

theorem controlAddress_addrMapV2 {i : Nat} (hi : i < 2 ^ 32) :
    controlAddress .addrMapV2 i = 18316853248 + 65536 * i :=
  u64_of_lt (by simp [LogicLayout.addrMapV2]; omega)

theorem dmaAddress_addrMapV2 {i : Nat} (hi : i < 2 ^ 32) :
    dmaAddress .addrMapV2 i = 18316853248 + 65536 * i + 4096 := by
  rw [dmaAddress, controlAddress_addrMapV2 hi]
  exact u64_of_lt (by simp [LogicLayout.addrMapV2]; omega)

theorem inputIpAddress_addrMapV2 (p : DeployedProgram) {type : SourceType}
    (h : ¬type.IsGenerated) :
    inputIpAddress .addrMapV2 p type = 18316853248 + 65536 * p.index.toNat + 8192 := by
  have hi := p.index.toNat_lt
  have hengine : u64 (controlAddress .addrMapV2 p.index.toNat + 8192) =
      18316853248 + 65536 * p.index.toNat + 8192 := by
    rw [controlAddress_addrMapV2 hi]
    exact u64_of_lt (by omega)
  cases type with
  | randomInput => exact absurd (Or.inl rfl) h
  | waveformInput => exact absurd (Or.inr rfl) h
  | constantInput => exact hengine
  | timeSeriesInput => exact hengine
  | external => exact hengine

theorem dmaRegister_addrMapV2 {i n a : Nat} (hi : i < 2 ^ 32)
    (h : DmaRegister (dmaAddress .addrMapV2 i) n a) : 18316853248 ≤ a ∧ a < 2 ^ 50 := by
  rw [dmaAddress_addrMapV2 hi] at h
  rcases h with rfl | rfl | rfl | ⟨k, -, rfl | rfl⟩
  · omega
  · omega
  · omega
  · have := u32_lt (k * 4)
    unfold DeployerBase.mappingAddress
    omega
  · have := u32_lt (k * 4)
    unfold DeployerBase.metadataAddress
    omega

theorem memoryRegister_addrMapV2 {i n a : Nat} {m : MemoryInitValue} (hi : i < 2 ^ 32)
    (h : MemoryRegister (controlAddress .addrMapV2 i) n m a) :
    18316853248 ≤ a ∧ a < 2 ^ 50 := by
  rw [controlAddress_addrMapV2 hi] at h
  unfold MemoryRegister DeployerBase.memoryChannelAddress at h
  split_ifs at h
  · obtain ⟨k, -, rfl⟩ := h
    have := u32_lt (u32 (((m.address.headD 0).toNat &&& 0xFF) + (k <<< 8)) * 4)
    omega
  · have := u32_lt ((m.address.headD 0).toNat * 4)
    omega

theorem inputRegister_addrMapV2 {p : DeployedProgram} {n a : Nat} {type : SourceType}
    (hg : ¬type.IsGenerated) (h : InputRegister (inputIpAddress .addrMapV2 p type) n type a) :
    18316853248 ≤ a ∧ a < 2 ^ 50 := by
  have hp := p.index.toNat_lt
  rw [inputIpAddress_addrMapV2 p hg] at h
  have hlsb : constLsb = 0 := rfl
  have hdest : constDest = 8 := rfl
  have hselector : constSelector = 12 := rfl
  cases type with
  | randomInput => exact absurd (Or.inl rfl) hg
  | waveformInput => exact absurd (Or.inr rfl) hg
  | constantInput => rcases h with h | h | h <;> omega
  | timeSeriesInput => rcases h with h | h | h <;> omega
  | external => exact h.elim

/-- All but the sequencer and the generators is above the base of the first core. -/
theorem setupRegister_addrMapV2 {programs : List DeployedProgram}
    {slots : List DeployerInterconnectSlot} {memories : String → List MemoryInitValue}
    {inputs : String → List DeployedCoreInputs} {a : Nat}
    (h : SetupRegister .addrMapV2 programs slots memories inputs a) :
    (18316853248 ≤ a ∧ a < 2 ^ 50) ∨ SequencerRegister .addrMapV2 programs.length a ∨
      ∃ p ∈ programs, ∃ i ∈ inputs p.name, i.sourceType.IsGenerated ∧
        InputRegister (inputIpAddress .addrMapV2 p i.sourceType)
          (generatorDestinations .randomInput programs inputs).length i.sourceType a := by
  cases h with
  | @dma p q _ hp hq hname h => exact Or.inl (dmaRegister_addrMapV2 q.index.toNat_lt h)
  | @memory p q m _ hp hq hname hm h => exact Or.inl (memoryRegister_addrMapV2 q.index.toNat_lt h)
  | @input p i _ hp hi h =>
    by_cases hg : i.sourceType.IsGenerated
    · exact Or.inr (Or.inr ⟨p, hp, i, hi, hg, h⟩)
    · exact Or.inl (inputRegister_addrMapV2 hg h)
  | sequencer h => exact Or.inr (Or.inl h)
  | @core p hp =>
    have hlt := p.index.toNat_lt
    rw [controlAddress_addrMapV2 hlt]
    exact Or.inl (by omega)

theorem sequencerRegister_addrMapV2 {n a : Nat} (hn : n ≤ 32)
    (h : SequencerRegister .addrMapV2 n a) :
    18316591104 < a ∧ a < 18316595200 + 4 * 33 ∧ a ≠ 18316595200 := by
  rcases h with rfl | ⟨i, hi, rfl | rfl⟩
  · decide
  · simp only [dividerAddress, LogicLayout.addrMapV2]
    omega
  · simp only [shiftAddress, LogicLayout.addrMapV2]
    omega

end HilDeployer

end UscopeDriver
