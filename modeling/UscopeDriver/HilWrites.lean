import UscopeDriver.Library.LastWrite
import UscopeDriver.InputWrites
import UscopeDriver.HilDeployer

/-!
# The stages of a deployment

For each stage of `deploy`, when it returns, the requests it makes, what it leaves in the
deployer and what it returns : one `_eq_ok` theorem a stage.
-/

namespace UscopeDriver

namespace HilDeployer

open LastWrite

/-- The deployer after requests to the bridge. -/
def emit (s : HilDeployer) (rs : List Request) : HilDeployer :=
  { s with toDeployerBase := s.toDeployerBase.emit rs }

instance : Drives HilDeployer where
  hw := (·.hw)
  emit := emit
  hw_emit := fun _ _ => rfl
  emit_nil := fun s => by simp [emit]
  emit_emit := fun s rs rs' => by simp [emit]

@[simp] theorem drives_hw (s : HilDeployer) : Drives.hw s = s.hw := rfl

@[simp] theorem drives_emit (s : HilDeployer) (rs : List Request) :
    Drives.emit s rs = s.emit rs := rfl

@[simp] theorem emit_nil (s : HilDeployer) : s.emit [] = s := Drives.emit_nil s

/-- Requests one after the other are one list of requests. -/
@[simp] theorem emit_emit (s : HilDeployer) (rs rs' : List Request) :
    (s.emit rs).emit rs' = s.emit (rs ++ rs') := Drives.emit_emit s rs rs'

@[simp] theorem emit_hw (s : HilDeployer) (rs : List Request) :
    (s.emit rs).hw = s.hw.performAll rs := rfl

/-- A call on the base returns as it does there. -/
theorem base_eq_ok {α : Type} {m : Exec Failure DeployerBase α} {a : α} {s s' : HilDeployer} :
    (base m).run s = .ok a s' ↔
      ∃ b, m.run s.toDeployerBase = .ok a b ∧ s' = { s with toDeployerBase := b } :=
  Exec.zoom_eq_ok

/-- A register write is its one request. -/
theorem writeRegister_eq_ok {pl : Platform} {addr val : Nat} {s s' : HilDeployer} {u : Unit} :
    (writeRegister pl addr val).run s = .ok u s' ↔
      s.hw.Admits [regWrite addr val] ∧ s' = s.emit [regWrite addr val] := by
  simp only [writeRegister, base_eq_ok, DeployerBase.writeRegister_eq_ok, and_assoc,
    exists_and_left, exists_eq_left, emit]

/-! ## Programs -/

/-- The load of a program. -/
def loadRequest (addresses : LogicLayout) (p : DeployedProgram) : Request :=
  .load (u64 (addresses.bases.coresRom + p.index.toNat * addresses.offsets.coresRom))
    (p.binary.map (·.toNat))

/-- What the first loop records of a program. -/
def recordProgram (isa : FcoreIsa) (p : DeployedProgram) (s : HilDeployer) : HilDeployer :=
  { s with
    coresIdx := Function.update s.coresIdx p.name p.index.toNat
    executionOrder := Function.update s.executionOrder p.name p.order.toNat
    nChannels := Function.update s.nChannels p.name
      (checkReciprocal isa s.fullCoresOverride p.binary) }

/-- To load a program is a round. -/
theorem round_setupProgram (isa : FcoreIsa) :
    Drives.Round (setupProgram isa) (fun _ _ => True) (fun p s => [loadRequest s.addresses p])
      (recordProgram isa) where
  run := by
    intro p s u s'
    simp only [setupProgram, Exec.bind_eq_ok, Exec.gets_eq_ok, Exec.modify_eq_ok, base_eq_ok,
      DeployerBase.loadCore_eq_ok, exists_const, and_assoc, exists_and_left, exists_eq_left,
      true_and]
    rfl
  record := fun _ => ⟨fun _ => rfl, fun _ _ => rfl⟩
  guard_emit := fun _ _ _ => Iff.rfl
  requests_emit := fun _ _ _ => rfl

/-- What the first loop records : for each name the last program of that name. -/
def recordPrograms (isa : FcoreIsa) (programs : List DeployedProgram) (s : HilDeployer) :
    HilDeployer :=
  { s with
    coresIdx := store s.coresIdx (programs.map fun p => (p.name, p.index.toNat))
    executionOrder := store s.executionOrder (programs.map fun p => (p.name, p.order.toNat))
    nChannels := store s.nChannels
      (programs.map fun p => (p.name, checkReciprocal isa s.fullCoresOverride p.binary)) }

/-- The tables after all programs. -/
theorem foldl_recordProgram (isa : FcoreIsa) (programs : List DeployedProgram) (s : HilDeployer) :
    programs.foldl (fun t p => recordProgram isa p t) s = recordPrograms isa programs s := by
  induction programs generalizing s with
  | nil => rfl
  | cons p programs ih =>
    rw [List.foldl_cons, ih]
    rfl

/-- All programs are loaded. -/
theorem setupPrograms_eq_ok {isa : FcoreIsa} {programs : List DeployedProgram}
    {s s' : HilDeployer} {u : PUnit} :
    (forM programs (setupProgram isa)).run s = .ok u s' ↔
      s.hw.Admits (programs.map (loadRequest s.addresses)) ∧
        s' = (recordPrograms isa programs s).emit (programs.map (loadRequest s.addresses)) := by
  rw [(round_setupProgram isa).forM_emit_uniform (fun _ _ _ => Iff.rfl) (fun _ _ _ => rfl),
    ← List.map_eq_flatMap, foldl_recordProgram]
  simp

/-! ## DMAs and memories -/

/-- The DMA of a core. -/
def dmaAddress (addresses : LogicLayout) (i : Nat) : Nat :=
  u64 (controlAddress addresses i + addresses.offsets.dma)

/-- The requests of the DMA of a program. -/
def programDmaRequests (s : HilDeployer) (p : DeployedProgram) : List Request :=
  DeployerBase.dmaRequests s.ivs (dmaAddress s.addresses (s.coresIdx p.name))
    (DeployerBase.entriesOf s.busMap p.name)

/-- The deployer after the DMA of a program was set up, apart from the bridge. -/
def labelProgram (p : DeployedProgram) (s : HilDeployer) : HilDeployer :=
  { s with
    toDeployerBase := DeployerBase.labelEntries p.nChannels.toNat
      (DeployerBase.entriesOf s.busMap p.name) s.toDeployerBase }

/-- The entries of a program can be mapped and have the initial values that they ask for. -/
def DmaReady (s : HilDeployer) (p : DeployedProgram) : Prop :=
  ∀ e ∈ DeployerBase.entriesOf s.busMap p.name,
    DeployerBase.Mappable e ∧ DeployerBase.IvInRange s.ivs e

/-- To set up the DMA of a program is a round. -/
theorem round_setupProgramDma (pl : Platform) :
    Drives.Round (setupProgramDma pl) (fun p s => s.DmaReady p)
      (fun p s => s.programDmaRequests p) labelProgram where
  run := by
    intro p s u s'
    simp only [setupProgramDma, Exec.bind_eq_ok, Exec.gets_eq_ok, base_eq_ok,
      DeployerBase.setupOutputDma_eq_ok, Exec.pure_eq_ok, and_assoc, exists_and_left,
      exists_eq_left, true_and]
    rfl
  record := fun _ => ⟨fun _ => rfl, fun _ _ => rfl⟩
  guard_emit := fun _ _ _ => Iff.rfl
  requests_emit := fun _ _ _ => rfl

/-- The bus labels of all programs. -/
def labelPrograms (programs : List DeployedProgram) (s : HilDeployer) : HilDeployer :=
  { s with
    busLabels := programs.foldl (fun l p =>
      (DeployerBase.entriesOf s.busMap p.name).foldl (fun l e =>
        l.insert (DeployerBase.busDest e) (DeployerBase.signalName e p.nChannels.toNat)) l)
      s.busLabels }

/-- The labels after all programs. -/
theorem foldl_labelProgram (programs : List DeployedProgram) (s : HilDeployer) :
    programs.foldl (fun t p => labelProgram p t) s = labelPrograms programs s := by
  induction programs generalizing s with
  | nil => rfl
  | cons p programs ih =>
    rw [List.foldl_cons, ih]
    rfl

/-- The DMAs of all programs. -/
theorem setupProgramDmas_eq_ok {pl : Platform} {programs : List DeployedProgram}
    {s s' : HilDeployer} {u : PUnit} :
    (forM programs (setupProgramDma pl)).run s = .ok u s' ↔
      (∀ p ∈ programs, s.DmaReady p) ∧ s.hw.Admits (programs.flatMap s.programDmaRequests) ∧
        s' = (labelPrograms programs s).emit (programs.flatMap s.programDmaRequests) := by
  rw [(round_setupProgramDma pl).forM_emit_uniform (fun _ _ _ => Iff.rfl) (fun _ _ _ => rfl),
    foldl_labelProgram]
  rfl

/-- The requests that initialise the memories of a program. -/
def programMemoryRequests (memories : String → List MemoryInitValue) (s : HilDeployer)
    (p : DeployedProgram) : List Request :=
  (memories p.name).flatMap (DeployerBase.memoryRequests
    (controlAddress s.addresses (s.coresIdx p.name)) p.nChannels.toNat)

/-- The initial values of a program have their addresses and words. -/
def MemoriesReady (memories : String → List MemoryInitValue) (p : DeployedProgram) : Prop :=
  ∀ m ∈ memories p.name, DeployerBase.MemoryReady p.nChannels.toNat m

/-- To set up the memories of a program is a round. -/
theorem round_setupProgramMemories (pl : Platform) (memories : String → List MemoryInitValue) :
    Drives.Round (setupProgramMemories pl memories) (fun p _ => MemoriesReady memories p)
      (fun p s => programMemoryRequests memories s p) (fun _ s => s) where
  run := by
    intro p s u s'
    simp only [setupProgramMemories, Exec.bind_eq_ok, Exec.gets_eq_ok, base_eq_ok,
      DeployerBase.setupMemories_eq_ok, and_assoc, exists_and_left, exists_eq_left]
    rfl
  record := fun _ => ⟨fun _ => rfl, fun _ _ => rfl⟩
  guard_emit := fun _ _ _ => Iff.rfl
  requests_emit := fun _ _ _ => rfl

/-- The memories of all programs. -/
theorem setupAllMemories_eq_ok {pl : Platform} {memories : String → List MemoryInitValue}
    {programs : List DeployedProgram} {s s' : HilDeployer} {u : PUnit} :
    (forM programs (setupProgramMemories pl memories)).run s = .ok u s' ↔
      (∀ p ∈ programs, MemoriesReady memories p) ∧
        s.hw.Admits (programs.flatMap (programMemoryRequests memories s)) ∧
          s' = s.emit (programs.flatMap (programMemoryRequests memories s)) := by
  rw [(round_setupProgramMemories pl memories).forM_emit_uniform (fun _ _ _ => Iff.rfl)
    (fun _ _ _ => rfl), List.foldl_fixed]
  rfl

/-! ## Sequencer and cores -/

/-- The write of the channel count of a program. -/
def coreRequest (s : HilDeployer) (p : DeployedProgram) : Request :=
  regWrite (controlAddress s.addresses p.index.toNat) (s.nChannels p.name)

/-- To tell a core its channels is a round. -/
theorem round_setupProgramCore (pl : Platform) :
    Drives.Round (setupProgramCore pl) (fun _ _ => True) (fun p s => [s.coreRequest p])
      (fun _ s => s) where
  run := by
    intro p s u s'
    simp only [setupProgramCore, Exec.bind_eq_ok, Exec.gets_eq_ok, base_eq_ok,
      DeployerBase.setupCore, DeployerBase.writeRegister_eq_ok, and_assoc, exists_and_left,
      exists_eq_left, true_and]
    rfl
  record := fun _ => ⟨fun _ => rfl, fun _ _ => rfl⟩
  guard_emit := fun _ _ _ => Iff.rfl
  requests_emit := fun _ _ _ => rfl

/-- All cores are told their channels. -/
theorem setupCores_eq_ok {pl : Platform} {programs : List DeployedProgram} {s s' : HilDeployer}
    {u : Unit} :
    (setupCores pl programs).run s = .ok u s' ↔
      s.hw.Admits (programs.map s.coreRequest) ∧ s' = s.emit (programs.map s.coreRequest) := by
  rw [setupCores, (round_setupProgramCore pl).forM_emit_uniform (fun _ _ _ => Iff.rfl)
    (fun _ _ _ => rfl), List.foldl_fixed, ← List.map_eq_flatMap]
  simp

/-- The register of the divider of a core. -/
def dividerAddress (addresses : LogicLayout) (i : Nat) : Nat :=
  addresses.bases.controller + addresses.offsets.controller + 0x4 + 4 * i

/-- The register of the shift of a core. -/
def shiftAddress (addresses : LogicLayout) (i : Nat) : Nat :=
  addresses.bases.controller + addresses.offsets.hilTb + 8 + 4 * i

/-- The register of the period of the timebase. -/
def periodAddress (addresses : LogicLayout) : Nat :=
  addresses.bases.controller + addresses.offsets.hilTb + 4

/-- The register of the enable mask. -/
def enableAddress (addresses : LogicLayout) : Nat :=
  addresses.bases.controller + addresses.offsets.controller

/-- The divider and shift registers of core `i`. -/
def sequencerCoreRequests (addresses : LogicLayout) (divisors shifts : List Nat) (i : Nat) :
    List Request :=
  [regWrite (dividerAddress addresses i) (sub32 (divisors.getD i 0) 1),
    regWrite (shiftAddress addresses i) (shifts.getD i 0)]

/-- The requests of the sequencer of `n` cores. -/
def sequencerRequests (addresses : LogicLayout) (period n : Nat) (divisors shifts : List Nat) :
    List Request :=
  (List.range n).flatMap (sequencerCoreRequests addresses divisors shifts) ++
    [regWrite (periodAddress addresses) period, regWrite (enableAddress addresses) (2 ^ n - 1)]

section

variable {addresses : LogicLayout} {period n i : Nat} {divisors shifts : List Nat}

/-- The sequencer gets the divider of each core, less one. -/
theorem divider_mem_sequencerRequests (hi : i < n) :
    regWrite (dividerAddress addresses i) (sub32 (divisors.getD i 0) 1) ∈
      sequencerRequests addresses period n divisors shifts :=
  List.mem_append_left _ (List.mem_flatMap.2 ⟨i, List.mem_range.2 hi, by
    simp [sequencerCoreRequests]⟩)

/-- It gets the shift of each core. -/
theorem shift_mem_sequencerRequests (hi : i < n) :
    regWrite (shiftAddress addresses i) (shifts.getD i 0) ∈
      sequencerRequests addresses period n divisors shifts :=
  List.mem_append_left _ (List.mem_flatMap.2 ⟨i, List.mem_range.2 hi, by
    simp [sequencerCoreRequests]⟩)

/-- It gets the period. -/
theorem period_mem_sequencerRequests :
    regWrite (periodAddress addresses) period ∈
      sequencerRequests addresses period n divisors shifts :=
  List.mem_append_right _ List.mem_cons_self

end

/-- To set the divider and the shift of a core is a round. -/
theorem round_setupSequencerCore (pl : Platform) (divisors shifts : List Nat) :
    Drives.Round (setupSequencerCore pl divisors shifts)
      (fun i _ => i < divisors.length ∧ i < shifts.length)
      (fun i s => sequencerCoreRequests s.addresses divisors shifts i) (fun _ s => s) where
  run := by
    intro i s u s'
    simp only [setupSequencerCore, Exec.bind_eq_ok, Exec.gets_eq_ok, writeRegister_eq_ok,
      index_eq_ok 0, and_assoc, exists_const, exists_and_left, exists_eq_left, emit_emit, emit_hw,
      FpgaBridge.admits_performAll, sequencerCoreRequests, FpgaBridge.admits_cons_cons,
      List.cons_append, List.nil_append]
    exact and_congr_right fun _ => and_left_comm
  record := fun _ => ⟨fun _ => rfl, fun _ _ => rfl⟩
  guard_emit := fun _ _ _ => Iff.rfl
  requests_emit := fun _ _ _ => rfl

/-- The sequencer is set exactly if each core has a divider and a shift. -/
theorem setupSequencer_eq_ok {pl : Platform} {nCores : Nat} {divisors shifts : List Nat}
    {s s' : HilDeployer} {u : Unit} :
    (setupSequencer pl nCores divisors shifts).run s = .ok u s' ↔
      (∀ i < u16 nCores, i < divisors.length ∧ i < shifts.length) ∧
        s.hw.Admits (sequencerRequests s.addresses (timebasePeriod pl s) (u16 nCores) divisors
          shifts) ∧
        s' = s.emit (sequencerRequests s.addresses (timebasePeriod pl s) (u16 nCores) divisors
          shifts) := by
  have hperiod : ∀ rs, timebasePeriod pl (s.emit rs) = timebasePeriod pl s := fun _ => rfl
  simp only [setupSequencer, Exec.bind_eq_ok, Exec.gets_eq_ok,
    (round_setupSequencerCore pl divisors shifts).forM_emit_uniform (fun _ _ _ => Iff.rfl)
      (fun _ _ _ => rfl), List.foldl_fixed, List.mem_range, writeRegister_eq_ok, and_assoc,
    exists_const, exists_and_left, exists_eq_left, drives_hw, drives_emit, emit_emit, emit_hw,
    hperiod, FpgaBridge.admits_performAll, sequencerRequests, FpgaBridge.admits_append,
    FpgaBridge.admits_cons_cons, List.cons_append, List.nil_append]
  rfl

end HilDeployer

end UscopeDriver
