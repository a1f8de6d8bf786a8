import UscopeDriver.Driver
import UscopeDriver.DeployerBase

/-!
# What the deployer base asks of the bridge

For each call of the base, when it returns, the requests it makes and what it leaves in the
state : one `_eq_ok` theorem a call. Nothing but the programs goes around `writeRegister`, so
every request is `regWrite` or a load.
-/

namespace UscopeDriver

/-- The request behind `write_register(addr, val)`. -/
def regWrite (addr val : Nat) : Request :=
  .write (u64 addr) (u32 val)

/-- A value of 32 bits is written as it is. -/
theorem regWrite_of_lt {val : Nat} (h : val < 2 ^ 32) (addr : Nat) :
    regWrite addr val = .write (u64 addr) val := by
  rw [regWrite, u32_of_lt h]

namespace DeployerBase

/-- The base after requests to the bridge. -/
def emit (s : DeployerBase) (rs : List Request) : DeployerBase :=
  { s with hw := s.hw.performAll rs }

instance : Drives DeployerBase where
  hw := (·.hw)
  emit := emit
  hw_emit := fun _ _ => rfl
  emit_nil := fun s => by simp [emit]
  emit_emit := fun s rs rs' => by simp [emit]

@[simp] theorem drives_hw (s : DeployerBase) : Drives.hw s = s.hw := rfl

@[simp] theorem drives_emit (s : DeployerBase) (rs : List Request) :
    Drives.emit s rs = s.emit rs := rfl

@[simp] theorem emit_nil (s : DeployerBase) : s.emit [] = s := Drives.emit_nil s

/-- Requests one after the other are one list of requests. -/
@[simp] theorem emit_emit (s : DeployerBase) (rs rs' : List Request) :
    (s.emit rs).emit rs' = s.emit (rs ++ rs') := Drives.emit_emit s rs rs'

@[simp] theorem emit_hw (s : DeployerBase) (rs : List Request) :
    (s.emit rs).hw = s.hw.performAll rs := rfl

/-- A call on the bridge returns as it does there. -/
theorem onBridge_eq_ok {α : Type} {m : Exec Failure FpgaBridge α} {a : α} {s s' : DeployerBase} :
    (onBridge m).run s = .ok a s' ↔ ∃ hw, m.run s.hw = .ok a hw ∧ s' = { s with hw := hw } :=
  Exec.zoom_eq_ok

/-- The JSON object is always a direct write of these two numbers. -/
theorem singleWriteRegister_writeObject (pl : Platform) (addr val : Nat) :
    FpgaBridge.singleWriteRegister pl (writeObject addr val) =
      FpgaBridge.writeDirect (u64 addr) (u32 val) := by
  simp [FpgaBridge.singleWriteRegister, writeObject, Json.at', Json.isString, Json.getUint64,
    Json.getUint32, Exec.require, List.lookup_cons]

/-- A register write is its one request. -/
theorem writeRegister_eq_ok {pl : Platform} {addr val : Nat} {s s' : DeployerBase} {u : Unit} :
    (writeRegister pl addr val).run s = .ok u s' ↔
      s.hw.Admits [regWrite addr val] ∧ s' = s.emit [regWrite addr val] := by
  rw [writeRegister, singleWriteRegister_writeObject, onBridge_eq_ok]
  simp [FpgaBridge.writeDirect_eq_ok, regWrite, emit]

/-- The program of a core is one request. -/
theorem loadCore_eq_ok {address : Nat} {program : List UInt32} {s s' : DeployerBase} {u : Unit} :
    (loadCore address program).run s = .ok u s' ↔
      s.hw.Admits [.load (u64 address) (program.map (·.toNat))] ∧
        s' = s.emit [.load (u64 address) (program.map (·.toNat))] := by
  rw [loadCore, onBridge_eq_ok]
  simp [FpgaBridge.applyProgram_eq_ok, emit]

/-! ## Interconnects -/

/-- The fields of an entry that fit the mapping word. -/
def Mappable (e : DeployerInterconnectSlot) : Prop :=
  e.sourceIoAddress ≤ 0xFFF ∧ e.destinationBusAddress ≤ 0xFFF ∧ e.sourceChannel ≤ 0xF ∧
    e.destinationChannel ≤ 0xF

instance (e : DeployerInterconnectSlot) : Decidable (Mappable e) :=
  inferInstanceAs (Decidable (_ ∧ _))

/-- The initial value of an entry is there, if its source has any. -/
def IvInRange (ivs : String → String → Option (List Nat)) (e : DeployerInterconnectSlot) : Prop :=
  ∀ iv, ivs e.sourceId e.sourceName = some iv → e.sourceChannel.toNat < iv.length

/-- The two writes of an initial value. -/
def fillRequests (dmaAddress ioProgressive sourceChannel : Nat) :
    Option (List Nat) → List Request
  | none => []
  | some iv =>
    [regWrite (dmaAddress + 8) ioProgressive, regWrite (dmaAddress + 4) (iv.getD sourceChannel 0)]

/-- The writes of entry `ioProgressive` of a DMA. -/
def entryRequests (ivs : String → String → Option (List Nat)) (dmaAddress : Nat)
    (e : DeployerInterconnectSlot) (ioProgressive : Nat) : List Request :=
  regWrite (mappingAddress dmaAddress ioProgressive) (mapping e) ::
    fillRequests dmaAddress ioProgressive e.sourceChannel.toNat (ivs e.sourceId e.sourceName) ++
      [regWrite (metadataAddress dmaAddress ioProgressive) (metadataValue e)]

/-- The bus label of an entry. -/
def labelEntry (nChannels : Nat) (e : DeployerInterconnectSlot) (s : DeployerBase) : DeployerBase :=
  { s with busLabels := s.busLabels.insert (busDest e) (signalName e nChannels) }

/-- The two writes of an initial value. The channel has to be in the vector. -/
theorem fillInitialValue_eq_ok {pl : Platform} {dmaAddress ioProgressive sourceChannel : Nat}
    {iv : Option (List Nat)} {s s' : DeployerBase} {u : Unit} :
    (fillInitialValue pl dmaAddress ioProgressive sourceChannel iv).run s = .ok u s' ↔
      (∀ v, iv = some v → sourceChannel < v.length) ∧
        s.hw.Admits (fillRequests dmaAddress ioProgressive sourceChannel iv) ∧
          s' = s.emit (fillRequests dmaAddress ioProgressive sourceChannel iv) := by
  cases iv with
  | none => simp [fillInitialValue, fillRequests, eq_comm]
  | some v =>
    simp only [fillInitialValue, fillRequests, Exec.bind_eq_ok, writeRegister_eq_ok,
      index_eq_ok 0, Option.some.injEq, forall_eq', exists_const, and_assoc, exists_and_left,
      exists_eq_left, emit_emit, emit_hw, FpgaBridge.admits_performAll,
      FpgaBridge.admits_cons_cons, List.cons_append, List.nil_append]
    exact and_left_comm

/-- An entry is set up exactly if it can be mapped and its initial value is there. -/
theorem setupOutputEntry_eq_ok {pl : Platform} {e : DeployerInterconnectSlot}
    {dmaAddress ioProgressive nChannels : Nat} {s s' : DeployerBase} {u : Unit} :
    (setupOutputEntry pl e dmaAddress ioProgressive nChannels).run s = .ok u s' ↔
      (Mappable e ∧ IvInRange s.ivs e) ∧
        s.hw.Admits (entryRequests s.ivs dmaAddress e ioProgressive) ∧
          s' = (labelEntry nChannels e s).emit
            (entryRequests s.ivs dmaAddress e ioProgressive) := by
  have hadm : s.hw.Admits (entryRequests s.ivs dmaAddress e ioProgressive) ↔
      s.hw.Admits [regWrite (mappingAddress dmaAddress ioProgressive) (mapping e)] ∧
        s.hw.Admits (fillRequests dmaAddress ioProgressive e.sourceChannel.toNat
          (s.ivs e.sourceId e.sourceName)) ∧
        s.hw.Admits [regWrite (metadataAddress dmaAddress ioProgressive) (metadataValue e)] := by
    rw [entryRequests, ← List.singleton_append, FpgaBridge.admits_append,
      FpgaBridge.admits_append, and_assoc]
  simp only [setupOutputEntry, Exec.bind_eq_ok, Exec.throwIf_eq_ok, writeRegister_eq_ok,
    Exec.modify_eq_ok, Exec.gets_eq_ok, fillInitialValue_eq_ok, exists_const, and_assoc,
    exists_and_left, exists_eq_left, hadm, Mappable, IvInRange, gt_iff_lt]
  simp only [UInt32.not_lt, entryRequests, labelEntry, emit, FpgaBridge.performAll_performAll,
    FpgaBridge.admits_performAll, List.cons_append, List.nil_append]
  tauto

/-- The requests of the entries of a core, in order, and the write of their number. -/
def dmaRequests (ivs : String → String → Option (List Nat)) (address : Nat)
    (entries : List DeployerInterconnectSlot) : List Request :=
  entries.zipIdx.flatMap (fun x => entryRequests ivs address x.1 x.2) ++
    [regWrite address entries.length]

/-- The entries of a core in the bus map. -/
def entriesOf (busMap : List DeployerInterconnectSlot) (coreName : String) :
    List DeployerInterconnectSlot :=
  busMap.filter (·.sourceId = coreName)

/-- The bus labels of the entries of a core. -/
def labelEntries (nChannels : Nat) (entries : List DeployerInterconnectSlot) (s : DeployerBase) :
    DeployerBase :=
  { s with busLabels :=
      entries.foldl (fun l e => l.insert (busDest e) (signalName e nChannels)) s.busLabels }

/-- An entry is a round of the loop of its DMA. -/
theorem round_setupOutputEntry (pl : Platform) (address nChannels : Nat) :
    Drives.Round
      (fun x : DeployerInterconnectSlot × Nat =>
        setupOutputEntry pl x.1 address x.2 nChannels)
      (fun x s => Mappable x.1 ∧ IvInRange s.ivs x.1)
      (fun x s => entryRequests s.ivs address x.1 x.2)
      (fun x => labelEntry nChannels x.1) where
  run := fun _ _ _ _ => setupOutputEntry_eq_ok
  record := fun _ => ⟨fun _ => rfl, fun _ _ => rfl⟩
  guard_emit := fun _ _ _ => Iff.rfl
  requests_emit := fun _ _ _ => rfl

/-- The labels of the rounds are the labels of the entries. -/
theorem foldl_labelEntry (nChannels : Nat) (entries : List DeployerInterconnectSlot) (k : Nat)
    (s : DeployerBase) :
    (entries.zipIdx k).foldl (fun t x => labelEntry nChannels x.1 t) s =
      labelEntries nChannels entries s := by
  induction entries generalizing k s with
  | nil => rfl
  | cons e entries ih =>
    rw [List.zipIdx_cons, List.foldl_cons, ih]
    rfl

/-- The rounds of a DMA. -/
theorem setupEntries_eq_ok {pl : Platform} {address nChannels : Nat}
    {entries : List DeployerInterconnectSlot} {s s' : DeployerBase} {u : PUnit} :
    (forM entries.zipIdx fun x => setupOutputEntry pl x.1 address x.2 nChannels).run s =
        .ok u s' ↔
      (∀ e ∈ entries, Mappable e ∧ IvInRange s.ivs e) ∧
        s.hw.Admits (entries.zipIdx.flatMap fun x => entryRequests s.ivs address x.1 x.2) ∧
          s' = (labelEntries nChannels entries s).emit
            (entries.zipIdx.flatMap fun x => entryRequests s.ivs address x.1 x.2) := by
  have hmem : (∀ x ∈ entries.zipIdx, Mappable x.1 ∧ IvInRange s.ivs x.1) ↔
      ∀ e ∈ entries, Mappable e ∧ IvInRange s.ivs e := by
    conv_rhs => rw [← List.zipIdx_map_fst 0 entries]
    simp only [List.forall_mem_map]
  rw [(round_setupOutputEntry pl address nChannels).forM_emit_uniform
    (fun _ _ _ => Iff.rfl) (fun _ _ _ => rfl), foldl_labelEntry, hmem]
  rfl

/-- The DMA of a core is its entries, then their number. -/
theorem setupOutputDma_eq_ok {pl : Platform} {address nChannels n : Nat} {coreName : String}
    {s s' : DeployerBase} :
    (setupOutputDma pl address coreName nChannels).run s = .ok n s' ↔
      (∀ e ∈ entriesOf s.busMap coreName, Mappable e ∧ IvInRange s.ivs e) ∧
        s.hw.Admits (dmaRequests s.ivs address (entriesOf s.busMap coreName)) ∧
        n = u16 (entriesOf s.busMap coreName).length ∧
          s' = (labelEntries nChannels (entriesOf s.busMap coreName) s).emit
            (dmaRequests s.ivs address (entriesOf s.busMap coreName)) := by
  simp only [setupOutputDma, Exec.bind_eq_ok, Exec.gets_eq_ok, setupEntries_eq_ok,
    writeRegister_eq_ok, Exec.pure_eq_ok, exists_const, and_assoc, exists_and_left,
    exists_eq_left, dmaRequests, entriesOf, FpgaBridge.admits_append, emit_emit, emit_hw,
    FpgaBridge.admits_performAll]
  rfl

/-! ## Memories -/

/-- The address and the words that a memory is initialised with are there. -/
def MemoryReady (nChannels : Nat) (m : MemoryInitValue) : Prop :=
  if m.value.toWords.length = nChannels then m.value.toWords = [] ∨ m.address ≠ []
  else m.value.toWords ≠ [] ∧ m.address ≠ []

/-- The writes of one initial value : a word a channel where there are as many words as channels,
and the first word otherwise. -/
def memoryRequests (baseAddress nChannels : Nat) (m : MemoryInitValue) : List Request :=
  if m.value.toWords.length = nChannels then
    m.value.toWords.zipIdx.map fun x =>
      regWrite (memoryChannelAddress baseAddress (m.address.headD 0).toNat x.2) x.1.toNat
  else
    [regWrite (baseAddress + u32 ((m.address.headD 0).toNat * 4)) (m.value.toWords.headD 0).toNat]

/-- One word of an initial value. -/
theorem memoryWord_eq_ok {pl : Platform} {baseAddress : Nat} {address : List UInt32}
    (x : UInt32 × Nat) (s : DeployerBase) (u : PUnit) (s' : DeployerBase) :
    (do let a ← index address 0
        writeRegister pl (memoryChannelAddress baseAddress a.toNat x.2) x.1.toNat).run s =
          .ok u s' ↔
      address ≠ [] ∧
        s.hw.Admits [regWrite (memoryChannelAddress baseAddress (address.headD 0).toNat x.2)
          x.1.toNat] ∧
        s' = s.emit [regWrite (memoryChannelAddress baseAddress (address.headD 0).toNat x.2)
          x.1.toNat] := by
  simp only [Exec.bind_eq_ok, index_zero_eq_ok (0 : UInt32), writeRegister_eq_ok, and_assoc,
    exists_and_left, exists_eq_left]

/-- An initial value is written exactly if it has its address and words. -/
theorem setupMemory_eq_ok {pl : Platform} {baseAddress nChannels : Nat} {m : MemoryInitValue}
    {s s' : DeployerBase} {u : Unit} :
    (setupMemory pl baseAddress nChannels m).run s = .ok u s' ↔
      MemoryReady nChannels m ∧ s.hw.Admits (memoryRequests baseAddress nChannels m) ∧
        s' = s.emit (memoryRequests baseAddress nChannels m) := by
  unfold setupMemory MemoryReady memoryRequests
  split_ifs with hn
  · have hguard : (∀ x ∈ m.value.toWords.zipIdx, m.address ≠ []) ↔
        m.value.toWords = [] ∨ m.address ≠ [] := by
      by_cases h : m.address = []
      · simp [h, ← List.eq_nil_iff_forall_not_mem]
      · simp [h]
    rw [Drives.forM_requests memoryWord_eq_ok, hguard, ← List.map_eq_flatMap]
    rfl
  · simp only [Exec.bind_eq_ok, index_zero_eq_ok (0 : UInt32), writeRegister_eq_ok, and_assoc,
      exists_and_left, exists_eq_left]

/-- The memories of a core. -/
theorem setupMemories_eq_ok {pl : Platform} {baseAddress nChannels : Nat}
    {initValues : List MemoryInitValue} {s s' : DeployerBase} {u : Unit} :
    (setupMemories pl baseAddress initValues nChannels).run s = .ok u s' ↔
      (∀ m ∈ initValues, MemoryReady nChannels m) ∧
        s.hw.Admits (initValues.flatMap (memoryRequests baseAddress nChannels)) ∧
          s' = s.emit (initValues.flatMap (memoryRequests baseAddress nChannels)) :=
  Drives.forM_requests (fun _ _ _ _ => setupMemory_eq_ok) initValues

end DeployerBase

end UscopeDriver
