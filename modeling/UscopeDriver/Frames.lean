import UscopeDriver.Deployment
import UscopeDriver.Registers

/-!
# What a call leaves behind, however it ends

`Deployment` says what a deployment does when it returns. A deployment can also throw half way,
and the process goes on. The frames of this file hold in both cases. They are proved once, for any
relation that writes to a set of registers, loads and records move along (`Steps`), and a
deployment writes to the registers of its specification only, up to the enable mask
(`frameAt_configure`). With the relation that the bridge moves by requests and the layout and the
clock stay, an exception has its reason in the specification (`Accepts`, `frameAt_deploy`).
-/

namespace UscopeDriver

open Exec (Frame FrameAt)

/-- An exit cannot be caught. -/
theorem fatal_exit : Failure.Fatal .exit := not_false

/-- Neither can undefined behaviour. -/
theorem fatal_undefined (site : UndefinedSite) : Failure.Fatal (.undefined site) := not_false

/-- An exception with a text can be. -/
theorem not_fatal_runtimeError (what : String) : ¬Failure.Fatal (.runtimeError what) :=
  not_not.2 trivial

section Frames

variable {σ α : Type} {fatal : Failure → Prop} {E : Prop} {R : σ → σ → Prop} [IsPreorder σ R]

/-- To look past the end of a vector is undefined. -/
theorem frame_index (hf : ∀ {f : Failure}, f.Fatal → fatal f ∨ E) (v : List α) (i : Nat)
    (site : UndefinedSite) : Frame fatal E R (index v i site) :=
  Exec.frame_require fun _ => hf (fatal_undefined site)

/-- What the toolchain throws can be caught, so it needs a reason. -/
theorem frame_callDispatcher {x : Except String α} (h : (∀ a, x ≠ .ok a) → E) :
    Frame fatal E R (callDispatcher x) := by
  cases x with
  | ok a => exact Exec.frame_pure a
  | error what => exact Exec.frame_throw (Or.inr (h fun _ => nofun))

end Frames

/-! ## The bridge -/

namespace BusAccessor

/-- To access a register can only end the process. -/
theorem frame_accessRegister {fatal : Failure → Prop} {E : Prop} (hexit : fatal .exit ∨ E)
    {R : BusAccessor → BusAccessor → Prop} [IsPreorder BusAccessor R] (address : Nat) :
    Frame fatal E R (accessRegister address) := by
  unfold accessRegister registerAddressToIndex
  exact ((Exec.frame_gets _).bind fun _ => (Exec.frame_throwIf fun _ => hexit).bind fun _ =>
    Exec.frame_pure _).bind fun _ => (Exec.frame_gets _).bind fun _ =>
      (Exec.frame_throwIf fun _ => hexit).bind fun _ => Exec.frame_pure _

/-- A register write can only end the process. -/
theorem frame_writeRegister {fatal : Failure → Prop} (hexit : fatal .exit) (address data : Nat) :
    Frame fatal False (fun _ _ => True) (writeRegister [address] data) := by
  unfold writeRegister storeRegister
  exact (Exec.frame_modify fun _ => trivial).bind fun _ => (Exec.frame_gets _).bind fun _ =>
    Exec.frame_when fun _ => (frame_accessRegister (Or.inl hexit) _).bind fun _ =>
      Exec.frame_modify fun _ => trivial

/-- The word of a program goes to the fCore window. -/
theorem frame_storeInstruction {fatal : Failure → Prop} {E : Prop} (hexit : fatal .exit ∨ E)
    {R : BusAccessor → BusAccessor → Prop} [IsPreorder BusAccessor R]
    (hstore : ∀ b fCore, R b { b with fCore := fCore }) (address : Nat)
    (instruction : Nat × Nat) : Frame fatal E R (storeInstruction address instruction) := by
  unfold storeInstruction fcoreAddressToIndex
  exact ((Exec.frame_gets _).bind fun _ => (Exec.frame_throwIf fun _ => hexit).bind fun _ =>
    Exec.frame_pure _).bind fun _ => (Exec.frame_gets _).bind fun _ =>
      (Exec.frame_throwIf fun _ => hexit).bind fun _ => Exec.frame_modify fun b => hstore b _

/-- To load a program can only end the process. -/
theorem frame_loadProgram (address : Nat) (program : List Nat) :
    Frame Failure.Fatal False (fun _ _ => True) (loadProgram address program) :=
  (Exec.frame_gets _).bind fun _ => (Exec.frame_when fun _ => Exec.frame_forM fun _ _ =>
    frame_storeInstruction (Or.inl fatal_exit) (fun _ _ => trivial) _ _).bind fun _ =>
      Exec.frame_modify fun _ => trivial

end BusAccessor

namespace FpgaBridge

/-- The bridge moves by requests. -/
def Advances (hw hw' : FpgaBridge) : Prop :=
  ∃ rs, hw' = hw.performAll rs

instance : IsPreorder FpgaBridge Advances where
  refl := fun hw => ⟨[], (performAll_nil hw).symm⟩
  trans := by
    rintro hw _ _ ⟨rs, rfl⟩ ⟨rs', rfl⟩
    exact ⟨rs ++ rs', performAll_performAll hw rs rs'⟩

/-- A write moves the bridge by its request. -/
theorem frame_writeDirect {fatal : Failure → Prop} (hexit : fatal .exit) {E : Prop}
    (addr val : Nat) : Frame fatal E Advances (writeDirect addr val) := by
  refine Exec.frame_of_ok ?_ fun hw u hw' h => ⟨_, (writeDirect_eq_ok.1 h).2⟩
  unfold writeDirect onBus
  exact (Exec.frame_gets _).bind fun _ => Exec.frame_when fun _ => fun s =>
    (BusAccessor.frame_writeRegister hexit _ _ s.busses).zoom fun _ _ => trivial

/-- A load moves the bridge by its request. -/
theorem frame_applyProgram {E : Prop} (address : Nat) (program : List Nat) :
    Frame Failure.Fatal E Advances (applyProgram address program) :=
  Exec.frame_of_ok
    (fun s => (BusAccessor.frame_loadProgram _ _ s.busses).zoom fun _ _ => trivial)
    fun _ _ _ h => ⟨_, (applyProgram_eq_ok.1 h).2⟩

end FpgaBridge

/-! ## The deployer base -/

namespace DeployerBase

/-- The base moves by requests, and what a deployment is set up with stays. -/
structure Advances (s s' : DeployerBase) : Prop where
  hw : FpgaBridge.Advances s.hw s'.hw
  addresses : s'.addresses = s.addresses
  hilClockFrequency : s'.hilClockFrequency = s.hilClockFrequency
  busMap : s'.busMap = s.busMap
  ivs : s'.ivs = s.ivs

instance : IsPreorder DeployerBase Advances where
  refl := fun s => ⟨refl_of FpgaBridge.Advances s.hw, rfl, rfl, rfl, rfl⟩
  trans := fun _ _ _ h h' => ⟨trans_of FpgaBridge.Advances h.hw h'.hw,
    h'.addresses.trans h.addresses, h'.hilClockFrequency.trans h.hilClockFrequency,
    h'.busMap.trans h.busMap, h'.ivs.trans h.ivs⟩

/-- Nothing but labels and counters differs. -/
structure SameSetup (s s' : DeployerBase) : Prop where
  hw : s'.hw = s.hw
  addresses : s'.addresses = s.addresses
  hilClockFrequency : s'.hilClockFrequency = s.hilClockFrequency
  busMap : s'.busMap = s.busMap
  ivs : s'.ivs = s.ivs
  inputs : s'.inputs = s.inputs

/-- The registers of the engine of an entry of `inputs` are some of `A`. -/
def EngineIn (A : Nat → Prop) (i : InputMetadata) : Prop :=
  ∃ ipAddress, i.constIpAddr.1 = u64 ipAddress ∧
    ∀ a, InputRegister ipAddress 0 .constantInput a → A a

/-- What the frames ask of a relation : writes to the registers `A`, loads, records and the entry
of an input whose engine has registers of `A` move along it, and a failure that nobody can catch is
one of the frame. -/
structure Steps (fatal : Failure → Prop) (E : Prop) (A : Nat → Prop)
    (R : DeployerBase → DeployerBase → Prop) : Prop where
  fails : ∀ {f : Failure}, f.Fatal → fatal f ∨ E
  write : ∀ (pl : Platform) {addr : Nat} (val : Nat), A addr →
    Frame fatal E R (writeRegister pl addr val)
  load : ∀ (address : Nat) (program : List UInt32), Frame fatal E R (loadCore address program)
  record : ∀ {s s' : DeployerBase}, SameSetup s s' → R s s'
  enter : ∀ {i : InputMetadata}, EngineIn A i → ∀ s : DeployerBase,
    R s { s with inputs := s.inputs ++ [i] }

section Bridge

variable {fatal : Failure → Prop} {E : Prop}

/-- The base moves as its bridge does. -/
theorem frame_onBridge {α : Type} {m : Exec Failure FpgaBridge α}
    (h : Frame fatal E FpgaBridge.Advances m) : Frame fatal E Advances (onBridge m) :=
  fun s => (h s.hw).zoom fun _ hw => ⟨hw, rfl, rfl, rfl, rfl⟩

/-- A register write of the base moves it by the request. -/
theorem frame_writeRegister (hexit : fatal .exit) (pl : Platform) (addr val : Nat) :
    Frame fatal E Advances (writeRegister pl addr val) := by
  rw [writeRegister, singleWriteRegister_writeObject]
  exact frame_onBridge (FpgaBridge.frame_writeDirect hexit _ _)

end Bridge

/-- All that the stages do are requests. -/
theorem steps_advances {E : Prop} : Steps Failure.Fatal E (fun _ => True) Advances where
  fails := Or.inl
  write := fun pl addr val _ => frame_writeRegister fatal_exit pl addr val
  load := fun _ _ => frame_onBridge (FpgaBridge.frame_applyProgram _ _)
  record := fun {s _} h => ⟨by rw [h.hw]; exact refl_of FpgaBridge.Advances s.hw, h.addresses,
    h.hilClockFrequency, h.busMap, h.ivs⟩
  enter := fun _ s => ⟨refl_of FpgaBridge.Advances s.hw, rfl, rfl, rfl, rfl⟩

section Frames

variable {fatal : Failure → Prop} {E : Prop} {A : Nat → Prop}
  {R : DeployerBase → DeployerBase → Prop} [IsPreorder DeployerBase R] (steps : Steps fatal E A R)
  (pl : Platform)

include steps

omit [IsPreorder DeployerBase R] in
/-- A change of the state that the frames do not see. -/
theorem frame_record {f : DeployerBase → DeployerBase}
    (h : ∀ s, SameSetup s (f s) := by exact fun s => ⟨rfl, rfl, rfl, rfl, rfl, rfl⟩) :
    Frame fatal E R (modify f) :=
  Exec.frame_modify fun s => steps.record (h s)

/-- The initial value goes to the two registers behind the number of entries. -/
theorem frame_fillInitialValue {address : Nat} (ioProgressive sourceChannel : Nat)
    (iv : Option (List Nat)) (hA : A (address + 4) ∧ A (address + 8)) :
    Frame fatal E R (fillInitialValue pl address ioProgressive sourceChannel iv) := by
  cases iv with
  | none => exact Exec.frame_pure _
  | some iv =>
    exact (steps.write pl _ hA.2).bind fun _ => (frame_index steps.fails _ _ _).bind fun _ =>
      steps.write pl _ hA.1

/-- Only an entry that cannot be mapped throws. -/
theorem frame_setupOutputEntry {e : DeployerInterconnectSlot} (h : ¬Mappable e → E)
    {address entries ioProgressive : Nat} (hA : ∀ a, DmaRegister address entries a → A a)
    (hio : ioProgressive < entries) (nChannels : Nat) :
    Frame fatal E R (setupOutputEntry pl e address ioProgressive nChannels) := by
  unfold setupOutputEntry
  have hmapping := hA _ (Or.inr (Or.inr (Or.inr ⟨ioProgressive, hio, Or.inl rfl⟩)))
  have hmetadata := hA _ (Or.inr (Or.inr (Or.inr ⟨ioProgressive, hio, Or.inr rfl⟩)))
  have hfill : A (address + 4) ∧ A (address + 8) :=
    ⟨hA _ (Or.inr (Or.inl rfl)), hA _ (Or.inr (Or.inr (Or.inl rfl)))⟩
  refine (Exec.frame_throwIf fun hc => Or.inr (h fun hm => ?_)).bind fun _ =>
    (Exec.frame_throwIf fun hc => Or.inr (h fun hm => ?_)).bind fun _ =>
    (Exec.frame_throwIf fun hc => Or.inr (h fun hm => ?_)).bind fun _ =>
    (Exec.frame_throwIf fun hc => Or.inr (h fun hm => ?_)).bind fun _ =>
    (steps.write pl _ hmapping).bind fun _ =>
    (frame_record steps).bind fun _ => (Exec.frame_gets _).bind fun _ =>
    (frame_fillInitialValue steps pl _ _ _ hfill).bind fun _ => steps.write pl _ hmetadata
  · exact UInt32.not_lt.2 hm.1 hc
  · exact UInt32.not_lt.2 hm.2.1 hc
  · exact UInt32.not_lt.2 hm.2.2.1 hc
  · exact UInt32.not_lt.2 hm.2.2.2 hc

/-- The DMA of a core stays within its registers. -/
theorem frameAt_setupOutputDma {address : Nat} (nChannels : Nat) (coreName : String)
    {s : DeployerBase} (h : ∀ e ∈ entriesOf s.busMap coreName, ¬Mappable e → E)
    (hA : ∀ a, DmaRegister address (entriesOf s.busMap coreName).length a → A a) :
    FrameAt fatal E R (setupOutputDma pl address coreName nChannels) s := by
  unfold setupOutputDma
  refine (Exec.frame_gets _ s).bind fun entries s' hrun _ => ?_
  obtain ⟨rfl, rfl⟩ := Exec.gets_eq_ok.1 hrun
  exact ((Exec.frame_forM fun x hx => frame_setupOutputEntry steps pl
    (h x.1 (List.fst_mem_of_mem_zipIdx hx)) hA (List.snd_lt_of_mem_zipIdx hx) _).bind fun _ =>
      (steps.write pl _ (hA _ (Or.inl rfl))).bind fun _ => Exec.frame_pure _) s'

/-- An initial value stays within its memory. -/
theorem frame_setupMemory {baseAddress nChannels : Nat} {m : MemoryInitValue}
    (hA : ∀ a, MemoryRegister baseAddress nChannels m a → A a) :
    Frame fatal E R (setupMemory pl baseAddress nChannels m) := by
  unfold setupMemory
  unfold MemoryRegister at hA
  split_ifs at hA ⊢ with hn
  · refine Exec.frame_forM fun x hx s =>
      (frame_index steps.fails _ _ _ s).bind fun address s' hrun _ => ?_
    obtain ⟨-, rfl, -⟩ := (index_zero_eq_ok 0).1 hrun
    have hi : x.2 < nChannels := hn ▸ List.snd_lt_of_mem_zipIdx hx
    exact steps.write pl _ (hA _ ⟨x.2, hi, rfl⟩) s'
  · refine (frame_index steps.fails _ _ _).bind fun _ s =>
      (frame_index steps.fails _ _ _ s).bind fun address s' hrun _ => ?_
    obtain ⟨-, rfl, -⟩ := (index_zero_eq_ok 0).1 hrun
    exact steps.write pl _ (hA _ rfl) s'

/-- Only a waveform that there is not throws. -/
theorem frame_setupWaveform {address : Nat} (dest : Nat) {p : WaveformParameters}
    (h : (∀ q, p ≠ .square q) → E) (hA : ∀ k < 10, A (address + 4 * k)) :
    Frame fatal E R (setupWaveform pl address dest p) := by
  cases p with
  | square p =>
    have hwrite : ∀ k < 10, ∀ val, Frame fatal E R (writeRegister pl (address + 4 * k) val) :=
      fun k hk val => steps.write pl val (hA k hk)
    exact (Exec.frame_gets _).bind fun _ => (frame_index steps.fails _ _ _).bind fun _ =>
      (frame_index steps.fails _ _ _).bind fun _ => (frame_index steps.fails _ _ _).bind fun _ =>
      (Exec.frame_gets _).bind fun _ => (hwrite 2 (by omega) _).bind fun _ =>
      (frame_index steps.fails _ _ _).bind fun _ => (hwrite 3 (by omega) _).bind fun _ =>
      (frame_index steps.fails _ _ _).bind fun _ => (hwrite 4 (by omega) _).bind fun _ =>
      (hwrite 5 (by omega) _).bind fun _ => (hwrite 6 (by omega) _).bind fun _ =>
      (hwrite 7 (by omega) _).bind fun _ => (hwrite 8 (by omega) _).bind fun _ =>
      (hwrite 1 (by omega) _).bind fun _ => (hwrite 9 (by omega) _).bind fun _ =>
      (frame_record steps).bind fun _ => hwrite 0 (by omega) _
  | sine => exact Exec.frame_throw (Or.inr (h fun _ => nofun))
  | triangle => exact Exec.frame_throw (Or.inr (h fun _ => nofun))

/-- The only waveform there is. -/
def SupportedInput (input : DeployedCoreInputs) : Prop :=
  input.sourceType = .waveformInput → ∃ p, input.waveformParameters = .square p

/-- The next register of the noise generator is one of its `n`. -/
theorem frameAt_setupInput {input : DeployedCoreInputs} (h : ¬SupportedInput input → E)
    {ipAddress n : Nat} (hA : ∀ a, InputRegister ipAddress n input.sourceType a → A a)
    (constIdx targetChannel : Nat) (coreName : String) (isMultichannel : Bool) {s : DeployerBase}
    (hn : input.sourceType = .randomInput → s.activeRandomInputs < n) :
    FrameAt fatal E R
      (setupInput pl input ipAddress constIdx targetChannel coreName isMultichannel) s := by
  have hconstant (hA : ∀ a, InputRegister ipAddress n .constantInput a → A a) :
      Frame fatal E R
        (setupConstantInput pl input ipAddress constIdx targetChannel coreName isMultichannel) :=
    (frame_index steps.fails _ _ _).bind fun _ => (frame_index steps.fails _ _ _).bind fun _ =>
      (frame_index steps.fails _ _ _).bind fun _ => (frame_record steps).bind fun _ =>
      (steps.write pl _ (hA _ (Or.inl rfl))).bind fun _ =>
      (steps.write pl _ (hA _ (Or.inr (Or.inl rfl)))).bind fun _ =>
      (steps.write pl _ (hA _ (Or.inr (Or.inr rfl)))).bind fun _ =>
      Exec.frame_modify fun s => steps.enter ⟨ipAddress, rfl, hA⟩ s
  unfold setupInput
  cases hs : input.sourceType <;> rw [hs] at hA
  case constantInput => exact hconstant hA s
  case timeSeriesInput => exact hconstant hA s
  case randomInput =>
    refine (frame_index steps.fails _ _ _ s).bind fun _ s₁ h₁ _ => ?_
    refine (Exec.frame_gets _ s₁).bind fun active s₂ h₂ _ => ?_
    obtain ⟨-, -, rfl⟩ := (index_zero_eq_ok 0).1 h₁
    obtain ⟨rfl, -⟩ := Exec.gets_eq_ok.1 h₂
    exact ((steps.write pl _ (hA _ (Or.inr ⟨_, hn hs, rfl⟩))).bind fun _ => frame_record steps) s₂
  case waveformInput =>
    refine ((frame_index steps.fails _ _ _).bind fun _ => (frame_record steps).bind fun _ =>
      frame_setupWaveform steps pl _ (fun hp => h fun hi => ?_) fun k hk => hA _ ⟨k, hk, rfl⟩) s
    obtain ⟨p, hp'⟩ := hi hs
    exact hp p hp'
  case external => exact Exec.frame_pure _ s

/-- A live update may write anywhere, and throws nothing that is caught. -/
theorem frame_updateInputValue (coreName name : String) (channel : Nat) (rawValue : ℚ)
    (hA : ∀ a, A a) :
    Frame fatal E R (updateInputValue pl coreName name channel rawValue) :=
  (Exec.frame_gets _).bind fun _ => Exec.frame_forM fun _ _ =>
    (steps.write pl _ (hA _)).bind fun _ => (steps.write pl _ (hA _)).bind fun _ =>
      steps.write pl _ (hA _)

end Frames

end DeployerBase

/-- An input that finds its data is supported. -/
theorem InputSetup.supported_of_ready {c : InputSetup} (h : c.Ready) :
    DeployerBase.SupportedInput c.input := by
  intro htype
  rw [Ready, htype] at h
  unfold WaveformReady at h
  cases hp : c.input.waveformParameters with
  | square p => exact ⟨p, rfl⟩
  | sine => simp [hp] at h
  | triangle => simp [hp] at h

/-! ## The HIL deployer -/

namespace HilDeployer

open LastWrite

/-- The deployer moves by requests, and stays the same deployer on the same logic. -/
structure Keeps (s s' : HilDeployer) : Prop where
  hw : FpgaBridge.Advances s.hw s'.hw
  addresses : s'.addresses = s.addresses
  hilClockFrequency : s'.hilClockFrequency = s.hilClockFrequency
  deployedHash : s'.deployedHash = s.deployedHash
  fullCoresOverride : s'.fullCoresOverride = s.fullCoresOverride

/-- The base moves along `R`, and the deployer stays the same. -/
structure Over (R : DeployerBase → DeployerBase → Prop) (s s' : HilDeployer) : Prop where
  base : R s.toDeployerBase s'.toDeployerBase
  deployedHash : s'.deployedHash = s.deployedHash
  fullCoresOverride : s'.fullCoresOverride = s.fullCoresOverride

instance {R : DeployerBase → DeployerBase → Prop} [IsPreorder DeployerBase R] :
    IsPreorder HilDeployer (Over R) where
  refl := fun s => ⟨refl_of R s.toDeployerBase, rfl, rfl⟩
  trans := fun _ _ _ h h' => ⟨trans_of R h.base h'.base, h'.deployedHash.trans h.deployedHash,
    h'.fullCoresOverride.trans h.fullCoresOverride⟩

section Frames

variable {fatal : Failure → Prop} {E : Prop} {A : Nat → Prop}
  {R : DeployerBase → DeployerBase → Prop} [IsPreorder DeployerBase R]
  (steps : DeployerBase.Steps fatal E A R) (pl : Platform)

omit [IsPreorder DeployerBase R] in
/-- A call on the base moves as the base does. -/
theorem frameAt_base {α : Type} {m : Exec Failure DeployerBase α} {s : HilDeployer}
    (h : FrameAt fatal E R m s.toDeployerBase) : FrameAt fatal E (Over R) (base m) s :=
  h.zoom fun _ hb => ⟨hb, rfl, rfl⟩

omit [IsPreorder DeployerBase R] in
theorem frame_base {α : Type} {m : Exec Failure DeployerBase α} (h : Frame fatal E R m) :
    Frame fatal E (Over R) (base m) :=
  fun s => frameAt_base (h s.toDeployerBase)

include steps

omit [IsPreorder DeployerBase R] in
/-- A change of the state that the frames do not see. -/
theorem frame_record {f : HilDeployer → HilDeployer}
    (h : ∀ s, DeployerBase.SameSetup s.toDeployerBase (f s).toDeployerBase ∧
        (f s).deployedHash = s.deployedHash ∧ (f s).fullCoresOverride = s.fullCoresOverride := by
      exact fun s => ⟨⟨rfl, rfl, rfl, rfl, rfl, rfl⟩, rfl, rfl⟩) :
    Frame fatal E (Over R) (modify f) :=
  Exec.frame_modify fun s => ⟨steps.record (h s).1, (h s).2.1, (h s).2.2⟩

omit [IsPreorder DeployerBase R] in
/-- A register write to one of the registers `A`. -/
theorem frame_writeRegister {addr : Nat} (val : Nat) (hA : A addr) :
    Frame fatal E (Over R) (writeRegister pl addr val) :=
  frame_base (steps.write pl val hA)

theorem frame_start {Spec : Type} (env : Environment Spec) (hA : ∀ a, A a) :
    Frame fatal E (Over R) (HilDeployer.start env) :=
  (Exec.frame_gets _).bind fun _ => frame_writeRegister steps _ _ (hA _)

theorem frame_stop {Spec : Type} (env : Environment Spec) (hA : ∀ a, A a) :
    Frame fatal E (Over R) (HilDeployer.stop env) :=
  (Exec.frame_gets _).bind fun _ => frame_writeRegister steps _ _ (hA _)

/-- A program is loaded, and the tables get its entry. -/
theorem frame_setupProgram (isa : FcoreIsa) (p : DeployedProgram) :
    Frame fatal E (Over R) (setupProgram isa p) :=
  (Exec.frame_gets _).bind fun _ => (frame_record steps).bind fun _ =>
    (frame_base (steps.load _ _)).bind fun _ => frame_record steps

/-- A least common multiple that does not fit is undefined. -/
theorem frame_accumulateLcm (frequencies : List Nat) (acc : Int) :
    Frame fatal E (Over R) (accumulateLcm acc frequencies) := by
  induction frequencies generalizing acc with
  | nil => exact Exec.frame_pure acc
  | cons f frequencies ih =>
    exact ((Exec.frame_throwIf fun _ => steps.fails (fatal_undefined _)).bind fun _ =>
      Exec.frame_pure _).bind fun _ => ih _

/-- The dividers are a matter of the deployer alone. -/
theorem frame_calculateTimebaseDivider {dispatcher : EmulatorDispatcher}
    (h : (∀ programs, dispatcher.getPrograms ≠ .ok programs) → E) :
    Frame fatal E (Over R) (calculateTimebaseDivider pl dispatcher) :=
  (frame_callDispatcher h).bind fun _ =>
    (Exec.frame_forM fun _ _ => Exec.frame_when fun _ => frame_record steps).bind fun _ =>
      (Exec.frame_gets _).bind fun _ => Exec.frame_pure _

/-- So are the shifts. -/
theorem frame_calculateTimebaseShift (sort : ExecutionOrderSort) {dispatcher : EmulatorDispatcher}
    (h : (∀ programs, dispatcher.getPrograms ≠ .ok programs) → E) :
    Frame fatal E (Over R) (calculateTimebaseShift sort dispatcher) :=
  (frame_callDispatcher h).bind fun _ => (Exec.frame_gets _).bind fun _ =>
    (frame_index steps.fails _ _ _).bind fun _ => (frame_record steps).bind fun _ =>
      Exec.frame_pure _

/-- The words of an initial value are only looked at. -/
theorem frame_firstWords (data : List InitialData) :
    Frame fatal E (Over R) (firstWords data) := by
  induction data with
  | nil => exact Exec.frame_pure _
  | cons d data ih =>
    exact ((frame_index steps.fails _ _ _).bind fun _ => Exec.frame_pure _).bind fun _ =>
      ih.bind fun _ => Exec.frame_pure _

/-- The relation does not look at the initial values. -/
theorem frame_setupInterconnectIv
    (hivs : ∀ (s : DeployerBase) (ivs : String → String → Option (List Nat)),
      R s { s with ivs := ivs })
    {dispatcher : EmulatorDispatcher}
    (h : (∀ slots, dispatcher.getInterconnectSlots ≠ .ok slots) → E)
    (programs : List DeployedProgram) :
    Frame fatal E (Over R) (setupInterconnectIv dispatcher programs) := by
  refine (frame_callDispatcher h).bind fun _ => Exec.frame_forM fun slot _ =>
    Exec.frame_forM fun p _ => Exec.frame_forM fun input _ => Exec.Frame.bind ?_ fun _ =>
      Exec.frame_modify fun s => ⟨hivs _ _, rfl, rfl⟩
  unfold initialWords
  split_ifs
  · exact frame_firstWords steps _
  · exact frame_firstWords steps _

theorem frameAt_setupProgramDma (p : DeployedProgram) {s : HilDeployer}
    (h : ∀ e ∈ DeployerBase.entriesOf s.busMap p.name, ¬DeployerBase.Mappable e → E)
    (hA : ∀ a, DmaRegister (dmaAddress s.addresses (s.coresIdx p.name))
      (DeployerBase.entriesOf s.busMap p.name).length a → A a) :
    FrameAt fatal E (Over R) (setupProgramDma pl p) s := by
  refine (Exec.frame_gets _ s).bind fun addresses s₁ h₁ _ => ?_
  obtain ⟨rfl, rfl⟩ := Exec.gets_eq_ok.1 h₁
  refine (Exec.frame_gets _ s₁).bind fun i s₂ h₂ _ => ?_
  obtain ⟨rfl, rfl⟩ := Exec.gets_eq_ok.1 h₂
  exact (frameAt_base (DeployerBase.frameAt_setupOutputDma steps pl _ _ h hA)).bind
    fun _ s₃ _ _ => Exec.frame_pure _ s₃

theorem frameAt_setupProgramMemories (memories : String → List MemoryInitValue)
    (p : DeployedProgram) {s : HilDeployer}
    (hA : ∀ m ∈ memories p.name, ∀ a, MemoryRegister
      (controlAddress s.addresses (s.coresIdx p.name)) p.nChannels.toNat m a → A a) :
    FrameAt fatal E (Over R) (setupProgramMemories pl memories p) s := by
  refine (Exec.frame_gets _ s).bind fun addresses s₁ h₁ _ => ?_
  obtain ⟨rfl, rfl⟩ := Exec.gets_eq_ok.1 h₁
  refine (Exec.frame_gets _ s₁).bind fun i s₂ h₂ _ => ?_
  obtain ⟨rfl, rfl⟩ := Exec.gets_eq_ok.1 h₂
  exact frame_base (Exec.frame_forM fun m hm =>
    DeployerBase.frame_setupMemory steps pl (hA m hm)) s₂

end Frames

/-! ## The inputs stage -/

/-- A call of `setup_input` gets the input, with the end of its data, and its engine. -/
theorem input_of_setup_mem {addresses : LogicLayout} {p : DeployedProgram} {k : Nat}
    {input : DeployedCoreInputs} {c : InputSetup}
    (h : InputAction.setup c ∈ InputAction.ofInput addresses p k input) :
    c.input = { input with data := c.input.data } ∧
      c.ipAddress = inputIpAddress addresses p input.sourceType ∧
      c.input.data <:+ input.data := by
  unfold InputAction.ofInput InputAction.ofMultichannelInput InputAction.ofChannel at h
  by_cases hn : p.nChannels > 1
  · by_cases hd : input.data.length > 1
    · simp [hn, hd] at h
      obtain ⟨j, -, rfl⟩ := h
      exact ⟨rfl, rfl, List.drop_suffix j _⟩
    · cases hs : input.sourceType with
      | constantInput =>
        simp [hn, hd, hs] at h
        obtain ⟨-, j, -, rfl⟩ := h
        exact ⟨by rw [← hs], rfl, List.suffix_refl _⟩
      | timeSeriesInput =>
        simp [hn, hd, hs] at h
        obtain ⟨-, j, -, rfl⟩ := h
        exact ⟨by rw [← hs], rfl, List.suffix_refl _⟩
      | randomInput =>
        simp [hn, hd, hs] at h
        obtain ⟨j, -, rfl⟩ := h
        exact ⟨by rw [← hs], rfl, List.suffix_refl _⟩
      | waveformInput =>
        simp [hn, hd, hs] at h
        obtain ⟨j, -, rfl⟩ := h
        exact ⟨by rw [← hs], rfl, List.suffix_refl _⟩
      | external => simp [hn, hd, hs] at h
  · simp [hn] at h
    rw [h]
    exact ⟨rfl, rfl, List.suffix_refl _⟩

/-- An input of a generator is set up at least once, and one of an engine if it has data. -/
theorem exists_setup_of_input (addresses : LogicLayout) (p : DeployedProgram) (k : Nat)
    {input : DeployedCoreInputs}
    (h : input.sourceType.IsGenerated ∨ input.sourceType.IsConstant ∧ input.data ≠ []) :
    ∃ c, InputAction.setup c ∈ InputAction.ofInput addresses p k input := by
  unfold InputAction.ofInput InputAction.ofMultichannelInput InputAction.ofChannel
  by_cases hn : p.nChannels > 1
  · by_cases hd : input.data.length > 1
    · refine ⟨⟨{ input with data := input.data.drop 0 },
        inputIpAddress addresses p input.sourceType, k, 0, p.name, true⟩, ?_⟩
      simp only [hn, hd, if_true, List.mem_append, List.mem_flatMap, List.mem_range]
      exact Or.inl ⟨0, by omega, List.mem_cons_self⟩
    · have hpos : 0 < p.nChannels.toNat := by
        have := UInt32.lt_iff_toNat_lt.1 hn
        omega
      have hone : input.data ≠ [] → input.data.length = 1 := fun hdata => by
        have := List.length_pos_of_ne_nil hdata
        omega
      refine ⟨⟨input, inputIpAddress addresses p input.sourceType, k, 0, p.name, true⟩, ?_⟩
      simp only [hn, hd, if_true, if_false, List.mem_append]
      refine Or.inl ?_
      rcases h with (hs | hs) | ⟨hs | hs, hdata⟩
      · rw [hs]
        exact List.mem_map.2 ⟨0, List.mem_range.2 hpos, rfl⟩
      · rw [hs]
        exact List.mem_map.2 ⟨0, List.mem_range.2 hpos, rfl⟩
      · simp only [hs, hone hdata, if_true]
        exact List.mem_flatMap.2 ⟨0, List.mem_range.2 hpos, List.mem_cons_self⟩
      · simp only [hs, hone hdata, if_true]
        exact List.mem_flatMap.2 ⟨0, List.mem_range.2 hpos, List.mem_cons_self⟩
  · refine ⟨⟨input, inputIpAddress addresses p input.sourceType, k, 0, p.name, false⟩, ?_⟩
    simp only [hn, if_false]
    exact List.mem_cons_self

/-- An action of a program is one of its inputs. -/
theorem mem_ofInputs {addresses : LogicLayout} {p : DeployedProgram} {a : InputAction}
    {inputs : List DeployedCoreInputs} {k : Nat}
    (h : a ∈ InputAction.ofInputs addresses p k inputs) :
    ∃ k', ∃ input ∈ inputs, a ∈ InputAction.ofInput addresses p k' input := by
  induction inputs generalizing k with
  | nil => simp [InputAction.ofInputs] at h
  | cons input rest ih =>
    rw [InputAction.ofInputs, List.mem_append] at h
    rcases h with h | h
    · exact ⟨k, input, by simp, h⟩
    · obtain ⟨k', i, hi, ha⟩ := ih h
      exact ⟨k', i, by simp [hi], ha⟩

/-- Each input has its actions among those of the program. -/
theorem exists_ofInput_subset {addresses : LogicLayout} {p : DeployedProgram}
    {inputs : List DeployedCoreInputs} {input : DeployedCoreInputs} (h : input ∈ inputs) (k : Nat) :
    ∃ k', InputAction.ofInput addresses p k' input ⊆ InputAction.ofInputs addresses p k inputs := by
  induction inputs generalizing k with
  | nil => simp at h
  | cons i rest ih =>
    rw [InputAction.ofInputs]
    rcases List.mem_cons.1 h with rfl | h
    · exact ⟨k, List.subset_append_left _ _⟩
    · obtain ⟨k', hk⟩ := ih h _
      exact ⟨k', fun a ha => List.mem_append_right _ (hk ha)⟩

/-- The calls of `setup_input` for a program. -/
theorem setup_mem_ofProgram {addresses : LogicLayout} {inputs : String → List DeployedCoreInputs}
    {p : DeployedProgram} {c : InputSetup}
    (h : InputAction.setup c ∈ InputAction.ofProgram addresses inputs p) :
    ∃ input ∈ inputs p.name, c.input = { input with data := c.input.data } ∧
      c.ipAddress = inputIpAddress addresses p input.sourceType ∧
      c.input.data <:+ input.data := by
  rw [InputAction.ofProgram, List.mem_append] at h
  rcases h with h | h
  · obtain ⟨k, input, hi, hc⟩ := mem_ofInputs h
    exact ⟨input, hi, input_of_setup_mem hc⟩
  · simp at h

/-- An action starts at most the random input that it is for. -/
theorem activeRandomInputs_record_le (a : InputAction) (s : HilDeployer) :
    (a.record s).activeRandomInputs ≤
      s.activeRandomInputs + (a.generated .randomInput).toList.length := by
  cases a with
  | setup c =>
    simp only [InputAction.record, c.record_activeRandomInputs, InputAction.generated]
    split_ifs
    · exact Nat.mod_le _ _
    · exact Nat.le_add_right _ _
  | label path coreIdx => exact Nat.le_add_right _ _
  | enableRandom => exact Nat.le_add_right _ _

/-- The generated channels of an action come first. -/
theorem length_generated_cons (sourceType : SourceType) (a : InputAction)
    (actions : List InputAction) :
    ((a :: actions).filterMap (InputAction.generated sourceType)).length =
      (a.generated sourceType).toList.length +
        (actions.filterMap (InputAction.generated sourceType)).length := by
  rw [List.filterMap_cons]
  cases a.generated sourceType <;> simp [Nat.add_comm]

/-- Actions start at most the random inputs that they are for. -/
theorem activeRandomInputs_recordAll_le (actions : List InputAction) (s : HilDeployer) :
    (InputAction.recordAll actions s).activeRandomInputs ≤
      s.activeRandomInputs + (actions.filterMap (InputAction.generated .randomInput)).length := by
  induction actions generalizing s with
  | nil => exact Nat.le_add_right _ _
  | cons a actions ih =>
    have hstep := activeRandomInputs_record_le a s
    have hrest := ih (a.record s)
    rw [length_generated_cons]
    change (InputAction.recordAll actions (a.record s)).activeRandomInputs ≤ _
    omega

section Frames

variable {fatal : Failure → Prop} {E : Prop} {A : Nat → Prop}
  {R : DeployerBase → DeployerBase → Prop} [IsPreorder DeployerBase R]
  (steps : DeployerBase.Steps fatal E A R) (pl : Platform) {n : Nat}

include steps

/-- An action stays within the registers of its input. -/
theorem frameAt_action {a : InputAction} {s : HilDeployer}
    (h : ∀ c, a = .setup c → ¬DeployerBase.SupportedInput c.input → E)
    (hA : ∀ c, a = .setup c → ∀ x, InputRegister c.ipAddress n c.input.sourceType x → A x)
    (hnoise : 0 < n → A s.addresses.bases.noiseGenerator)
    (hn : s.activeRandomInputs + (a.generated .randomInput).toList.length ≤ n) :
    FrameAt fatal E (Over R) (a.run pl) s := by
  cases a with
  | setup c =>
    refine frameAt_base (DeployerBase.frameAt_setupInput steps pl (h c rfl) (hA c rfl) _ _ _ _ ?_)
    intro hs
    simp only [InputAction.generated, hs, if_true, Option.toList_some, List.length_singleton] at hn
    exact hn
  | label path coreIdx => exact (frame_record steps) s
  | enableRandom =>
    refine (Exec.frame_gets _ s).bind fun addresses s₁ h₁ _ => ?_
    obtain ⟨rfl, rfl⟩ := Exec.gets_eq_ok.1 h₁
    refine (Exec.frame_gets _ s₁).bind fun active s₂ h₂ _ => ?_
    obtain ⟨rfl, rfl⟩ := Exec.gets_eq_ok.1 h₂
    refine Exec.frame_when (fun hactive => frame_writeRegister steps pl _ (hnoise ?_)) s₂
    omega

/-- So do the actions of a list, as long as the noise generator has room. -/
theorem frameAt_actions {actions : List InputAction} {s : HilDeployer}
    (h : ∀ c, .setup c ∈ actions → ¬DeployerBase.SupportedInput c.input → E)
    (hA : ∀ c, .setup c ∈ actions → ∀ x, InputRegister c.ipAddress n c.input.sourceType x → A x)
    (hnoise : 0 < n → A s.addresses.bases.noiseGenerator)
    (hn : s.activeRandomInputs +
      (actions.filterMap (InputAction.generated .randomInput)).length ≤ n) :
    FrameAt fatal E (Over R) (forM actions (InputAction.run pl)) s := by
  induction actions generalizing s with
  | nil => exact Exec.frame_pure _ s
  | cons a actions ih =>
    rw [length_generated_cons] at hn
    rw [List.forM_cons]
    refine (frameAt_action steps pl (fun c hc => h c (by simp [hc]))
      (fun c hc => hA c (by simp [hc])) hnoise (by omega)).bind fun u s' hrun _ => ?_
    obtain ⟨-, -, rfl⟩ := (InputAction.run_eq_ok pl a s u s').1 hrun
    refine ih (fun c hc => h c (by simp [hc])) (fun c hc => hA c (by simp [hc])) ?_ ?_
    · rwa [emit_addresses, InputAction.record_eq]
    · have hstep := activeRandomInputs_record_le a s
      change (a.record s).activeRandomInputs + _ ≤ n
      omega

/-- The inputs of a program throw only what the specification has a reason for. -/
theorem frameAt_setupInputsOf {dispatcher : EmulatorDispatcher} {p : DeployedProgram}
    {s : HilDeployer} (hi : ¬HasInputs dispatcher p → E)
    (hs : ∀ input ∈ inputsOf dispatcher p.name, ¬DeployerBase.SupportedInput input → E)
    (hA : ∀ input ∈ inputsOf dispatcher p.name, ∀ a,
      InputRegister (inputIpAddress s.addresses p input.sourceType) n input.sourceType a → A a)
    (hnoise : 0 < n → A s.addresses.bases.noiseGenerator)
    (hn : s.activeRandomInputs +
      ((InputAction.ofProgram s.addresses (inputsOf dispatcher) p).filterMap
        (InputAction.generated .randomInput)).length ≤ n) :
    FrameAt fatal E (Over R) (setupInputsOf pl dispatcher p) s := by
  cases hinputs : dispatcher.getInputs p.name with
  | error what =>
    rw [setupInputsOf, hinputs]
    refine Or.inr ⟨hi ?_, refl_of (Over R) s⟩
    rintro ⟨inputs, h⟩
    simp [hinputs] at h
  | ok inputs =>
    unfold FrameAt
    rw [run_setupInputsOf hinputs]
    refine frameAt_actions (n := n) steps pl (fun c hc hsupported => ?_) (fun c hc x hx => ?_)
      hnoise hn
    · obtain ⟨input, hinput, hc, -⟩ := setup_mem_ofProgram hc
      refine hs input hinput fun hi => hsupported ?_
      rw [hc]
      exact hi
    · obtain ⟨input, hinput, hc, hip, -⟩ := setup_mem_ofProgram hc
      refine hA input hinput x ?_
      rw [hip, hc] at hx
      exact hx

/-- The noise generator has a register for each channel that is still to come. -/
theorem frameAt_setupInputs {dispatcher : EmulatorDispatcher} {programs : List DeployedProgram}
    {s : HilDeployer} (hi : ∀ p ∈ programs, ¬HasInputs dispatcher p → E)
    (hs : ∀ p ∈ programs, ∀ input ∈ inputsOf dispatcher p.name,
      ¬DeployerBase.SupportedInput input → E)
    (hA : ∀ p ∈ programs, ∀ input ∈ inputsOf dispatcher p.name, ∀ a,
      InputRegister (inputIpAddress s.addresses p input.sourceType) n input.sourceType a → A a)
    (hnoise : 0 < n → A s.addresses.bases.noiseGenerator)
    (hn : s.activeRandomInputs +
      (generatorDestinations .randomInput programs (inputsOf dispatcher)).length ≤ n) :
    FrameAt fatal E (Over R) (setupInputs pl dispatcher programs) s := by
  unfold setupInputs
  induction programs generalizing s with
  | nil => exact Exec.frame_pure _ s
  | cons p programs ih =>
    rw [← InputAction.generated_inputActions (Or.inl rfl) s.addresses, inputActions,
      List.flatMap_cons, List.filterMap_append, List.length_append] at hn
    rw [List.forM_cons]
    refine (frameAt_setupInputsOf steps pl (hi p (by simp)) (hs p (by simp)) (hA p (by simp))
      hnoise (by omega)).bind fun u s' hrun _ => ?_
    obtain ⟨-, -, rfl⟩ := InputAction.forM_run_eq_ok.1 (setupInputsOf_eq_ok.1 hrun).2
    have hactive := activeRandomInputs_recordAll_le
      (InputAction.ofProgram s.addresses (inputsOf dispatcher) p) s
    refine ih (fun q hq => hi q (by simp [hq])) (fun q hq => hs q (by simp [hq])) ?_ ?_ ?_
    · intro q hq
      rw [emit_addresses, recordAll_addresses]
      exact hA q (by simp [hq])
    · rwa [emit_addresses, recordAll_addresses]
    · rw [← InputAction.generated_inputActions (Or.inl rfl) s.addresses, inputActions]
      change (InputAction.recordAll _ s).activeRandomInputs + _ ≤ n
      omega

end Frames

/-! ## The whole deployment -/

/-- The toolchain elaborates the specification, and the deployer supports what it asks for. -/
structure Accepted (dispatcher : EmulatorDispatcher) (programs : List DeployedProgram)
    (slots : List DeployerInterconnectSlot) (memories : String → List MemoryInitValue) : Prop
    extends Elaborates dispatcher programs slots memories where
  length_le : programs.length ≤ 32
  mappable : ∀ p ∈ programs, ∀ e ∈ DeployerBase.entriesOf slots p.name, DeployerBase.Mappable e
  hasInputs : ∀ p ∈ programs, HasInputs dispatcher p
  supported : ∀ p ∈ programs, ∀ input ∈ inputsOf dispatcher p.name,
    DeployerBase.SupportedInput input

/-- The deployer can deploy the specification. -/
def Accepts (dispatcher : EmulatorDispatcher) : Prop :=
  ∃ programs slots memories, Accepted dispatcher programs slots memories

/-- What is accepted is the specification that the toolchain hands over. -/
theorem Accepts.accepted {dispatcher : EmulatorDispatcher} {programs : List DeployedProgram}
    {slots : List DeployerInterconnectSlot} (h : Accepts dispatcher)
    (hp : dispatcher.getPrograms = .ok programs)
    (hs : dispatcher.getInterconnectSlots = .ok slots) :
    ∃ memories, Accepted dispatcher programs slots memories := by
  obtain ⟨programs', slots', memories, h⟩ := h
  obtain rfl := h.programs_eq hp
  obtain rfl := h.slots_eq hs
  exact ⟨memories, h⟩

section Configure

variable {Spec : Type} (env : Environment Spec) (arguments : Spec)

/-- The sequencer but for the enable mask. -/
def setupTimebase (pl : Platform) (nCores : Nat) (divisors shifts : List Nat) :
    Exec Failure HilDeployer Unit := do
  let addresses ← Exec.gets (·.addresses)
  forM (List.range (u16 nCores)) (setupSequencerCore pl divisors shifts)
  let period ← Exec.gets (timebasePeriod pl)
  writeRegister pl (addresses.bases.controller + addresses.offsets.hilTb + 4) period

/-- The enable mask. -/
def enableSequencer (pl : Platform) (nCores : Nat) : Exec Failure HilDeployer Unit := do
  let addresses ← Exec.gets (·.addresses)
  writeRegister pl (addresses.bases.controller + addresses.offsets.controller) (2 ^ u16 nCores - 1)

/-- A deployment up to the enable mask. It returns the programs. -/
def configure : Exec Failure HilDeployer (List DeployedProgram) := do
  modify fun s => { s with
    deployedHash := env.hash arguments
    minTimebase := 0
    activeWaveforms := 0
    activeRandomInputs := 0
    inputsLabels := ∅
    busLabels := ∅ }
  base (DeployerBase.onBridge FpgaBridge.clearOperationsVector)
  callDispatcher (env.dispatcher arguments).setSpecs
  let programs ← callDispatcher (env.dispatcher arguments).getPrograms
  modify fun s => { s with busMap := [] }
  let slots ← callDispatcher (env.dispatcher arguments).getInterconnectSlots
  modify fun s => { s with busMap := slots }
  Exec.throwIf (programs.length > 32)
    (.runtimeError "The HIL SYSTEM ONLY SUPPORTS UP TO 32 CORES AT ONCE")
  forM programs (setupProgram env.isa)
  let timebaseFrequency ← accumulateLcm 1 (programs.map (·.samplingFrequency.toNat))
  modify fun s => { s with timebaseFrequency := timebaseFrequency }
  let dividers ← calculateTimebaseDivider env.platform (env.dispatcher arguments)
  let shifts ← calculateTimebaseShift env.sort (env.dispatcher arguments)
  setupInterconnectIv (env.dispatcher arguments) programs
  forM programs (setupProgramDma env.platform)
  let memories ← callDispatcher (env.dispatcher arguments).getMemoryInitializations
  forM programs (setupProgramMemories env.platform memories)
  setupInputs env.platform (env.dispatcher arguments) programs
  setupTimebase env.platform programs.length dividers shifts
  pure programs

end Configure

/-- The sequencer keeps the layout. -/
theorem addresses_of_setupTimebase {pl : Platform} {nCores : Nat} {divisors shifts : List Nat}
    {s s' : HilDeployer} {u : Unit}
    (h : (setupTimebase pl nCores divisors shifts).run s = .ok u s') :
    s'.addresses = s.addresses := by
  simp only [setupTimebase, Exec.bind_eq_ok, Exec.gets_eq_ok,
    (round_setupSequencerCore pl divisors shifts).forM_emit_uniform (fun _ _ _ => Iff.rfl)
      (fun _ _ _ => rfl), List.foldl_fixed, writeRegister_eq_ok, and_assoc, exists_and_left,
    exists_eq_left] at h
  obtain ⟨-, -, -, -, rfl⟩ := h
  rfl

/-- The enable mask is the last write of the sequencer. -/
theorem setupSequencer_eq (pl : Platform) (nCores : Nat) (divisors shifts : List Nat) :
    setupSequencer pl nCores divisors shifts = (do
      setupTimebase pl nCores divisors shifts
      enableSequencer pl nCores) := by
  refine Exec.ext_run fun s => ?_
  have hsplit : (setupSequencer pl nCores divisors shifts).run s =
      (setupTimebase pl nCores divisors shifts >>= fun _ => writeRegister pl
        (s.addresses.bases.controller + s.addresses.offsets.controller)
        (2 ^ u16 nCores - 1)).run s := by
    rw [setupSequencer, setupTimebase, bind_assoc, Exec.run_gets_bind, Exec.run_gets_bind]
    simp only [bind_assoc]
  rw [hsplit, EStateM.run_bind, EStateM.run_bind]
  cases h : (setupTimebase pl nCores divisors shifts).run s with
  | ok u s' =>
    simp only [enableSequencer]
    rw [Exec.run_gets_bind, addresses_of_setupTimebase h]
  | error e s' => rfl

/-- A deployment configures, enables the sequencer and tells the cores their channels. -/
theorem deploy_eq_configure {Spec : Type} (env : Environment Spec) (arguments : Spec) :
    deploy env arguments = (do
      let programs ← configure env arguments
      enableSequencer env.platform programs.length
      setupCores env.platform programs) := by
  simp only [deploy, configure, setupSequencer_eq, bind_assoc, pure_bind]

/-- The core of the programs with a name : that of the last one. -/
def coreOf (programs : List DeployedProgram) : String → Nat :=
  store (fun _ => 0) (programs.map fun p => (p.name, p.index.toNat))

/-- Each program has an entry in the table of cores. -/
theorem mem_coreKeys {programs : List DeployedProgram} {p : DeployedProgram} (hp : p ∈ programs) :
    p.name ∈ (programs.map fun p => (p.name, p.index.toNat)).map Prod.fst := by
  rw [List.map_map]
  exact List.mem_map_of_mem (f := fun p : DeployedProgram => p.name) hp

/-- The core of a name is that of a program of the name. -/
theorem exists_coreOf {programs : List DeployedProgram} {p : DeployedProgram}
    (hp : p ∈ programs) :
    ∃ q ∈ programs, q.name = p.name ∧ coreOf programs p.name = q.index.toNat := by
  obtain ⟨i, hi⟩ :=
    Option.ne_none_iff_exists'.1 (mt lastValue_eq_none.1 (not_not.2 (mem_coreKeys hp)))
  obtain ⟨q, hq, heq⟩ := List.mem_map.1 (mem_of_lastValue hi)
  obtain ⟨hname, rfl⟩ := Prod.mk.injEq .. ▸ heq
  refine ⟨q, hq, hname, ?_⟩
  rw [coreOf, store_apply, hi]
  rfl

/-- A deployment looks the core of a program up by its name. -/
theorem coresIdx_prepared {Spec : Type} (env : Environment Spec) (arguments : Spec)
    {programs : List DeployedProgram} (slots : List DeployerInterconnectSlot) (s : HilDeployer)
    {p : DeployedProgram} (hp : p ∈ programs) :
    (prepared env arguments programs slots s).coresIdx p.name = coreOf programs p.name :=
  store_congr _ _ (mem_coreKeys hp)

/-- So the table holds the index of a program of the name. -/
theorem exists_coresIdx_prepared {Spec : Type} (env : Environment Spec) (arguments : Spec)
    {programs : List DeployedProgram} (slots : List DeployerInterconnectSlot) (s : HilDeployer)
    {p : DeployedProgram} (hp : p ∈ programs) : ∃ q ∈ programs, q.name = p.name ∧
      (prepared env arguments programs slots s).coresIdx p.name = q.index.toNat := by
  rw [coresIdx_prepared env arguments slots s hp]
  exact exists_coreOf hp

/-- Where the DMAs and memories of a deployment are, and the start of its generators. -/
structure Sited (t s : HilDeployer) : Prop where
  addresses : s.addresses = t.addresses
  coresIdx : s.coresIdx = t.coresIdx
  busMap : s.busMap = t.busMap
  activeRandomInputs : s.activeRandomInputs = t.activeRandomInputs

section Configure

variable {fatal : Failure → Prop} {E : Prop} {A : Nat → Prop}
  {R : DeployerBase → DeployerBase → Prop} [IsPreorder DeployerBase R]
  (steps : DeployerBase.Steps fatal E A R)

include steps

/-- The sequencer stays within its registers. -/
theorem frameAt_setupTimebase (pl : Platform) {nCores : Nat} (divisors shifts : List Nat)
    {s : HilDeployer} (hA : ∀ a, SequencerRegister s.addresses nCores a → A a) :
    FrameAt fatal E (Over R) (setupTimebase pl nCores divisors shifts) s := by
  have hle : u16 nCores ≤ nCores := Nat.mod_le _ _
  refine (Exec.frame_gets _ s).bind fun addresses s₁ h₁ _ => ?_
  obtain ⟨rfl, rfl⟩ := Exec.gets_eq_ok.1 h₁
  refine Exec.FrameAt.bind (Exec.frameAt_forM (I := fun t => t.addresses = s₁.addresses)
    (fun i hi t u t' ht hrun => ?_) (fun i hi t ht => ?_) rfl) fun _ s₂ _ _ => ?_
  · obtain ⟨-, -, rfl⟩ := ((round_setupSequencerCore pl divisors shifts).run i t u t').1 hrun
    exact ht
  · refine (Exec.frame_gets _ t).bind fun addresses t₁ h₁ _ => ?_
    obtain ⟨rfl, rfl⟩ := Exec.gets_eq_ok.1 h₁
    rw [ht]
    have hi' : i < nCores := (List.mem_range.1 hi).trans_le hle
    exact ((frame_index steps.fails _ _ _).bind fun _ =>
      (frame_writeRegister steps pl _ (hA _ (Or.inr ⟨i, hi', Or.inl rfl⟩))).bind fun _ =>
      (frame_index steps.fails _ _ _).bind fun _ =>
      frame_writeRegister steps pl _ (hA _ (Or.inr ⟨i, hi', Or.inr rfl⟩))) t₁
  · exact ((Exec.frame_gets _).bind fun _ =>
      frame_writeRegister steps pl _ (hA _ (Or.inl rfl))) s₂

/-- The last stage writes the control words of the programs. -/
theorem frameAt_setupCores (pl : Platform) {programs : List DeployedProgram} {s : HilDeployer}
    (hA : ∀ p ∈ programs, A (controlAddress s.addresses p.index.toNat)) :
    FrameAt fatal E (Over R) (setupCores pl programs) s := by
  refine Exec.frameAt_forM (I := fun t => t.addresses = s.addresses)
    (fun p hp t u t' ht hrun => ?_) (fun p hp t ht => ?_) rfl
  · obtain ⟨-, -, rfl⟩ := ((round_setupProgramCore pl).run p t u t').1 hrun
    exact ht
  · refine (Exec.frame_gets _ t).bind fun addresses t₁ h₁ _ => ?_
    obtain ⟨rfl, rfl⟩ := Exec.gets_eq_ok.1 h₁
    rw [ht]
    exact ((Exec.frame_gets _).bind fun _ => frame_base (steps.write pl _ (hA p hp))) t₁

section Sited

variable {Spec : Type} {env : Environment Spec} {arguments : Spec}
  {programs : List DeployedProgram} {slots : List DeployerInterconnectSlot} {s t : HilDeployer}
  (ht : Sited (prepared env arguments programs slots s) t)

include ht

/-- The DMAs of all programs. -/
theorem frameAt_setupProgramDmas (pl : Platform)
    (hE : ∀ p ∈ programs, ∀ e ∈ DeployerBase.entriesOf slots p.name,
      ¬DeployerBase.Mappable e → E)
    (hA : ∀ p ∈ programs, ∀ q ∈ programs, q.name = p.name → ∀ a,
      DmaRegister (dmaAddress s.addresses q.index.toNat)
        (DeployerBase.entriesOf slots p.name).length a → A a) :
    FrameAt fatal E (Over R) (forM programs (setupProgramDma pl)) t := by
  refine Exec.frameAt_forM (I := Sited (prepared env arguments programs slots s))
    (fun p _ t u t' ht hrun => ?_) (fun p hp t ht => ?_) ht
  · obtain ⟨-, -, rfl⟩ := ((round_setupProgramDma pl).run p t u t').1 hrun
    exact ⟨ht.addresses, ht.coresIdx, ht.busMap, ht.activeRandomInputs⟩
  · have hmap : t.busMap = slots := ht.busMap
    refine frameAt_setupProgramDma steps _ p (fun e he hm => ?_) fun a ha => ?_
    · rw [hmap] at he
      exact hE p hp e he hm
    · obtain ⟨q, hq, hname, hidx⟩ := exists_coresIdx_prepared env arguments slots s hp
      rw [ht.addresses, ht.coresIdx, hidx, hmap] at ha
      exact hA p hp q hq hname a ha

/-- The memories of all programs. -/
theorem frameAt_setupAllMemories (pl : Platform) (memories : String → List MemoryInitValue)
    (hA : ∀ p ∈ programs, ∀ q ∈ programs, q.name = p.name → ∀ m ∈ memories p.name, ∀ a,
      MemoryRegister (controlAddress s.addresses q.index.toNat) p.nChannels.toNat m a → A a) :
    FrameAt fatal E (Over R) (forM programs (setupProgramMemories pl memories)) t := by
  refine Exec.frameAt_forM (I := Sited (prepared env arguments programs slots s))
    (fun p _ t u t' ht hrun => ?_) (fun p hp t ht => ?_) ht
  · obtain ⟨-, -, rfl⟩ := ((round_setupProgramMemories pl memories).run p t u t').1 hrun
    exact ⟨ht.addresses, ht.coresIdx, ht.busMap, ht.activeRandomInputs⟩
  · refine frameAt_setupProgramMemories steps _ memories p fun m hm a ha => ?_
    obtain ⟨q, hq, hname, hidx⟩ := exists_coresIdx_prepared env arguments slots s hp
    rw [ht.addresses, ht.coresIdx, hidx] at ha
    exact hA p hp q hq hname m hm a ha

end Sited

/-- The stages that write registers, from a state `t` on that is sited as the prepared deployer. -/
theorem frameAt_writeRegisters {Spec : Type} (env : Environment Spec) (arguments : Spec)
    {programs : List DeployedProgram} {slots : List DeployerInterconnectSlot}
    (hprograms : (env.dispatcher arguments).getPrograms = .ok programs)
    (hslots : (env.dispatcher arguments).getInterconnectSlots = .ok slots)
    (dividers shifts : List Nat) {s t : HilDeployer}
    (ht : Sited (prepared env arguments programs slots s) t)
    (hE : (∀ memories, ¬Accepted (env.dispatcher arguments) programs slots memories) → E)
    (hA : ∀ a, (env.dispatcher arguments).SetupRegister s.addresses a → A a) :
    FrameAt fatal E (Over R) (do
      forM programs (setupProgramDma env.platform)
      let memories ← callDispatcher (env.dispatcher arguments).getMemoryInitializations
      forM programs (setupProgramMemories env.platform memories)
      setupInputs env.platform (env.dispatcher arguments) programs
      setupTimebase env.platform programs.length dividers shifts
      pure programs) t := by
  have hregisters : ∀ memories : String → List MemoryInitValue,
      (env.dispatcher arguments).getMemoryInitializations.toOption.getD (fun _ => []) = memories →
      ∀ a, SetupRegister s.addresses programs slots memories
        (inputsOf (env.dispatcher arguments)) a → A a := by
    rintro _ rfl a ha
    refine hA a ?_
    rwa [EmulatorDispatcher.SetupRegister, hprograms, hslots]
  refine (frameAt_setupProgramDmas steps ht env.platform
    (fun p hp e he hm => hE fun _ h => hm (h.mappable p hp e he))
    fun p hp q hq hname a ha => hregisters _ rfl a (.dma hp hq hname ha)).bind fun _ t₁ h₁ _ => ?_
  have ht₁ : Sited (prepared env arguments programs slots s) t₁ := by
    obtain ⟨-, -, rfl⟩ := setupProgramDmas_eq_ok.1 h₁
    exact ⟨ht.addresses, ht.coresIdx, ht.busMap, ht.activeRandomInputs⟩
  refine (frame_callDispatcher (fun hno => hE fun memories h => ?_) t₁).bind
    fun memories t₂ h₂ _ => ?_
  · exact hno memories h.getMemoryInitializations
  obtain ⟨hmemories, rfl⟩ := callDispatcher_eq_ok.1 h₂
  replace hregisters := hregisters memories (by rw [hmemories]; rfl)
  refine (frameAt_setupAllMemories steps ht₁ env.platform memories
    fun p hp q hq hname m hm a ha => hregisters a (.memory hp hq hname hm ha)).bind
      fun _ t₃ h₃ _ => ?_
  have ht₃ : Sited (prepared env arguments programs slots s) t₃ := by
    obtain ⟨-, -, rfl⟩ := setupAllMemories_eq_ok.1 h₃
    exact ⟨ht₁.addresses, ht₁.coresIdx, ht₁.busMap, ht₁.activeRandomInputs⟩
  have haddresses : t₃.addresses = s.addresses := ht₃.addresses
  have hactive : t₃.activeRandomInputs = 0 := ht₃.activeRandomInputs
  refine (frameAt_setupInputs (n := (generatorDestinations .randomInput programs
      (inputsOf (env.dispatcher arguments))).length) steps _
    (fun p hp hi => hE fun _ h => hi (h.hasInputs p hp))
    (fun p hp input hi hs => hE fun _ h => hs (h.supported p hp input hi))
    (fun p hp input hi a ha => ?_) (fun hn => ?_) (by omega)).bind fun _ t₄ h₄ _ => ?_
  · rw [haddresses] at ha
    exact hregisters a (.input hp hi ha)
  · obtain ⟨p, hp, input, hi, hs⟩ := exists_of_generatorDestinations hn
    rw [haddresses]
    refine hregisters _ (.input hp hi ?_)
    rw [hs]
    exact Or.inl rfl
  have haddresses₄ : t₄.addresses = s.addresses := by
    rw [InputAction.addresses_of_forM_run (setupInputs_eq_ok.1 h₄).2, haddresses]
  refine (frameAt_setupTimebase steps env.platform dividers shifts fun a ha => ?_).bind
    fun _ t₅ _ _ => Exec.frame_pure _ t₅
  rw [haddresses₄] at ha
  exact hregisters a (.sequencer ha)

/-- A deployment up to the enable mask, for a relation that looks at nothing but the bridge, the
layout, the clock and the inputs. -/
theorem frameAt_configure
    (hR : ∀ s s' : DeployerBase, s'.hw = s.hw → s'.addresses = s.addresses →
      s'.hilClockFrequency = s.hilClockFrequency → s'.inputs = s.inputs → R s s')
    {Spec : Type} (env : Environment Spec) (arguments : Spec) (s : HilDeployer)
    (hE : ¬Accepts (env.dispatcher arguments) → E)
    (hA : ∀ a, (env.dispatcher arguments).SetupRegister s.addresses a → A a) :
    FrameAt fatal E (fun _ => Over R (reset (env.hash arguments) s))
      (configure env arguments) s := by
  refine FrameAt.bind_of_eq_ok rfl (FrameAt.bind_of_eq_ok rfl ?_)
  change FrameAt fatal E (Over R) _ (reset (env.hash arguments) s)
  refine (frame_callDispatcher (fun hno => hE ?_) _).bind fun _ s₁ h₁ _ => ?_
  · rintro ⟨_, _, _, h⟩
    exact hno _ h.setSpecs
  refine (frame_callDispatcher (fun hno => hE ?_) s₁).bind fun programs s₂ h₂ _ => ?_
  · rintro ⟨_, _, _, h⟩
    exact hno _ h.getPrograms
  obtain ⟨-, rfl⟩ := callDispatcher_eq_ok.1 h₁
  obtain ⟨hprograms, rfl⟩ := callDispatcher_eq_ok.1 h₂
  refine (Exec.frame_modify (fun _ => ⟨hR _ _ rfl rfl rfl rfl, rfl, rfl⟩) _).bind
    fun _ s₃ h₃ _ => ?_
  refine (frame_callDispatcher (fun hno => hE ?_) s₃).bind fun slots s₄ h₄ _ => ?_
  · rintro ⟨_, _, _, h⟩
    exact hno _ h.getInterconnectSlots
  obtain ⟨hslots, rfl⟩ := callDispatcher_eq_ok.1 h₄
  obtain rfl := Exec.modify_eq_ok.1 h₃
  refine (Exec.frame_modify (fun _ => ⟨hR _ _ rfl rfl rfl rfl, rfl, rfl⟩) _).bind
    fun _ s₅ h₅ _ => ?_
  obtain rfl := Exec.modify_eq_ok.1 h₅
  -- from here on what can throw is in `Accepted`
  have reason : (∀ memories, ¬Accepted (env.dispatcher arguments) programs slots memories) → E :=
    fun hno => hE fun h => by
      obtain ⟨memories, h⟩ := h.accepted hprograms hslots
      exact hno memories h
  refine (Exec.frame_throwIf (fun hc => Or.inr (reason fun _ h => ?_)) _).bind fun _ s₆ h₆ _ => ?_
  · exact absurd h.length_le (not_le.2 hc)
  obtain ⟨-, rfl⟩ := Exec.throwIf_eq_ok.1 h₆
  refine (Exec.frame_forM (fun p _ => frame_setupProgram steps env.isa p) _).bind
    fun _ s₇ h₇ _ => ?_
  refine (frame_accumulateLcm steps _ _ s₇).bind fun timebase s₈ h₈ _ => ?_
  refine ((frame_record steps) s₈).bind fun _ s₉ h₉ _ => ?_
  refine (frame_calculateTimebaseDivider steps _ (fun hno => (hno _ hprograms).elim) s₉).bind
    fun dividers s₁₀ h₁₀ _ => ?_
  refine (frame_calculateTimebaseShift steps _ (fun hno => (hno _ hprograms).elim) s₁₀).bind
    fun shifts s₁₁ h₁₁ _ => ?_
  refine (frame_setupInterconnectIv steps (fun _ _ => hR _ _ rfl rfl rfl rfl)
    (fun hno => (hno _ hslots).elim) programs s₁₁).bind fun _ s₁₂ h₁₂ _ => ?_
  refine frameAt_writeRegisters steps env arguments hprograms hslots dividers shifts (s := s) ?_
    reason hA
  obtain ⟨-, rfl⟩ := setupPrograms_eq_ok.1 h₇
  obtain ⟨-, -, rfl⟩ := accumulateLcm_programs_eq_ok.1 h₈
  obtain rfl := Exec.modify_eq_ok.1 h₉
  obtain ⟨-, rfl⟩ := (calculateTimebaseDivider_eq_ok hprograms).1 h₁₀
  obtain ⟨-, -, rfl⟩ := (calculateTimebaseShift_eq_ok hprograms).1 h₁₁
  obtain ⟨-, rfl⟩ := (setupInterconnectIv_eq_ok hslots).1 h₁₂
  exact ⟨rfl, rfl, rfl, rfl⟩

end Configure

/-- What is left of the base after any deployment. -/
structure KeepsBase (s s' : DeployerBase) : Prop where
  hw : FpgaBridge.Advances s.hw s'.hw
  addresses : s'.addresses = s.addresses
  hilClockFrequency : s'.hilClockFrequency = s.hilClockFrequency

instance : IsPreorder DeployerBase KeepsBase where
  refl := fun s => ⟨refl_of FpgaBridge.Advances s.hw, rfl, rfl⟩
  trans := fun _ _ _ h h' => ⟨trans_of FpgaBridge.Advances h.hw h'.hw,
    h'.addresses.trans h.addresses, h'.hilClockFrequency.trans h.hilClockFrequency⟩

/-- What keeps the bridge, the layout and the clock. -/
theorem keepsBase_of_hw {s s' : DeployerBase} (h : s'.hw = s.hw) (ha : s'.addresses = s.addresses)
    (hc : s'.hilClockFrequency = s.hilClockFrequency) : KeepsBase s s' :=
  ⟨by rw [h]; exact refl_of FpgaBridge.Advances s.hw, ha, hc⟩

/-- The stages keep the layout and the clock. -/
theorem steps_keepsBase {E : Prop} :
    DeployerBase.Steps Failure.Fatal E (fun _ => True) KeepsBase where
  fails := Or.inl
  write := fun pl _ val hA s => (DeployerBase.steps_advances.write pl val hA s).mono id
    fun _ h => ⟨h.hw, h.addresses, h.hilClockFrequency⟩
  load := fun address program s => (DeployerBase.steps_advances.load address program s).mono id
    fun _ h => ⟨h.hw, h.addresses, h.hilClockFrequency⟩
  record := fun h => keepsBase_of_hw h.hw h.addresses h.hilClockFrequency
  enter := fun _ _ => keepsBase_of_hw rfl rfl rfl

/-- From the enable mask on nothing throws. -/
theorem frame_enableCores {E : Prop} (pl : Platform) (programs : List DeployedProgram) :
    Frame Failure.Fatal E (Over KeepsBase) (do
      enableSequencer pl programs.length
      setupCores pl programs) :=
  Exec.Frame.bind ((Exec.frame_gets _).bind fun _ =>
    frame_writeRegister steps_keepsBase _ _ trivial) fun _ _ =>
      frameAt_setupCores steps_keepsBase _ fun _ _ => trivial

/-- A deployment that ends in an exception was not acceptable. However it ends, from the reset on
the deployer only moved by requests. -/
theorem frameAt_deploy {Spec : Type} (env : Environment Spec) (arguments : Spec)
    (s : HilDeployer) :
    FrameAt Failure.Fatal (¬Accepts (env.dispatcher arguments))
      (fun s s' => Keeps (reset (env.hash arguments) s) s') (deploy env arguments) s := by
  refine FrameAt.mono (R := fun _ => Over KeepsBase (reset (env.hash arguments) s)) ?_ id fun _ h =>
    ⟨h.base.hw, h.base.addresses, h.base.hilClockFrequency, h.deployedHash, h.fullCoresOverride⟩
  rw [deploy_eq_configure]
  exact (frameAt_configure steps_keepsBase (fun _ _ h ha hc _ => keepsBase_of_hw h ha hc) env
    arguments s id fun _ _ => trivial).bind_from
    fun programs t _ _ => frame_enableCores env.platform programs t

/-- An input that is set up is supported. -/
theorem supported_of_ready {addresses : LogicLayout} {p : DeployedProgram} {k : Nat}
    {input : DeployedCoreInputs}
    (h : ∀ a ∈ InputAction.ofInput addresses p k input, a.Ready) :
    DeployerBase.SupportedInput input := by
  intro hs
  obtain ⟨c, hc⟩ := exists_setup_of_input addresses p k (Or.inl (Or.inr hs))
  have hsupported := InputSetup.supported_of_ready (h _ hc)
  rw [(input_of_setup_mem hc).1] at hsupported
  exact hsupported hs

/-- A deployment that returns was acceptable. -/
theorem accepts_of_deploy {Spec : Type} {env : Environment Spec} {arguments : Spec}
    {s s' : HilDeployer} {u : Unit} (h : (deploy env arguments).run s = .ok u s') :
    Accepts (env.dispatcher arguments) := by
  obtain ⟨programs, slots, memories, hel, hd, -, -⟩ := deploy_eq_ok.1 h
  refine ⟨programs, slots, memories, hel, hd.length_le, fun p hp e he => (hd.dmaReady p hp e he).1,
    hd.hasInputs, fun p hp input hi => ?_⟩
  have haddresses : (prepared env arguments programs slots s).addresses = s.addresses := rfl
  obtain ⟨k, hk⟩ := @exists_ofInput_subset s.addresses p _ _ hi 0
  have hready : ∀ a ∈ InputAction.ofInput s.addresses p k input, a.Ready := by
    refine fun a ha => hd.inputsReady a ?_
    rw [haddresses]
    exact List.mem_flatMap.2 ⟨p, hp, List.mem_append_left _ (hk ha)⟩
  exact supported_of_ready hready

end HilDeployer

end UscopeDriver
