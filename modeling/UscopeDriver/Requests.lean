import UscopeDriver.Bridge

/-!
# What the bridge does with a list of requests

The deployers only ever ask the bridge for direct register writes and program loads. A
`Request` is one of these, and `performAll` what a list of them does. On a live bus a request
that is not inside its window ends the process, the others are admitted (`Admits`). A call of
the bridge returns exactly when its request is admitted, and performs it (`writeDirect_eq_ok`,
`applyProgram_eq_ok`).
-/

namespace UscopeDriver

/-- A direct register write or a program load. -/
inductive Request where
  | write (address value : Nat)
  | load (address : Nat) (program : List Nat)
  deriving DecidableEq, Repr

namespace Request

/-- The log entry of a request. -/
def op : Request → BusOp
  | .write address value => ⟨[address], [value], .controlPlaneWrite⟩
  | .load address program => ⟨[address], program, .romPlaneWrite⟩

theorem op_injective : Function.Injective op := by
  intro r r' h
  cases r <;> cases r' <;> simp_all [op]

/-- The register window after a request, on a live bus. -/
def store (controlAddr : Nat) (registers : Nat → Nat) : Request → Nat → Nat
  | .write address value =>
    Function.update registers ((address - controlAddr) / 4) (u32 value)
  | .load _ _ => registers

/-- The fCore window after a request, on a live bus. -/
def storeProgram (coreAddr : Nat) (fCore : Nat → Nat) : Request → Nat → Nat
  | .write _ _ => fCore
  | .load address program => program.zipIdx.foldl
      (fun mem p => Function.update mem (p.2 + (address - coreAddr) / 4) (u32 p.1)) fCore

end Request

namespace BusAccessor

/-- The bus after the requests `rs`. -/
def performAll (b : BusAccessor) (rs : List Request) : BusAccessor :=
  { b with
    operations := b.operations ++ rs.map Request.op
    registers :=
      if b.sinkMode then b.registers else rs.foldl (Request.store b.controlAddr) b.registers
    fCore :=
      if b.sinkMode then b.fCore else rs.foldl (Request.storeProgram b.coreAddr) b.fCore }

/-- The address is that of a word of the register window. -/
def MapsRegister (b : BusAccessor) (address : Nat) : Prop :=
  b.controlAddr ≤ address ∧ (address - b.controlAddr) / 4 < b.nPagesCtrl * wordsPerPage

instance (b : BusAccessor) : DecidablePred b.MapsRegister := fun _ =>
  inferInstanceAs (Decidable (_ ∧ _))

/-- It is decided by where the windows are. -/
theorem mapsRegister_congr {b b' : BusAccessor} (h : b'.windows = b.windows) :
    b'.MapsRegister = b.MapsRegister := by
  obtain ⟨hbase, hpages, -⟩ := windows_eq_iff.1 h
  funext address
  rw [MapsRegister, MapsRegister, hbase, hpages]

/-- The fCore window has `n` words from the address on. -/
def MapsProgram (b : BusAccessor) (address n : Nat) : Prop :=
  b.coreAddr ≤ address ∧ n + (address - b.coreAddr) / 4 ≤ b.nPagesFcore * wordsPerPage

instance (b : BusAccessor) (address n : Nat) : Decidable (b.MapsProgram address n) :=
  inferInstanceAs (Decidable (_ ∧ _))

theorem mapsProgram_congr {b b' : BusAccessor} (h : b'.windows = b.windows) :
    b'.MapsProgram = b.MapsProgram := by
  obtain ⟨-, -, hbase, hpages⟩ := windows_eq_iff.1 h
  funext address n
  rw [MapsProgram, MapsProgram, hbase, hpages]

/-- The request does not end the process. A load of no instruction computes no index. -/
def Admits (b : BusAccessor) : Request → Prop
  | .write address _ => b.sinkMode = true ∨ b.MapsRegister address
  | .load address program =>
    b.sinkMode = true ∨ program = [] ∨ b.MapsProgram address program.length

@[simp] theorem performAll_nil (b : BusAccessor) : b.performAll [] = b := by
  simp [performAll]

theorem performAll_append (b : BusAccessor) (rs rs' : List Request) :
    b.performAll (rs ++ rs') = (b.performAll rs).performAll rs' := by
  by_cases h : b.sinkMode <;> simp [performAll, h]

theorem registerAddressToIndex_eq_ok {b b' : BusAccessor} {address i : Nat} :
    (registerAddressToIndex address).run b = .ok i b' ↔
      b.controlAddr ≤ address ∧ i = (address - b.controlAddr) / 4 ∧ b' = b := by
  simp only [registerAddressToIndex, Exec.bind_eq_ok, Exec.gets_eq_ok, Exec.throwIf_eq_ok,
    Exec.pure_eq_ok]
  simp

theorem fcoreAddressToIndex_eq_ok {b b' : BusAccessor} {address i : Nat} :
    (fcoreAddressToIndex address).run b = .ok i b' ↔
      b.coreAddr ≤ address ∧ i = (address - b.coreAddr) / 4 ∧ b' = b := by
  simp only [fcoreAddressToIndex, Exec.bind_eq_ok, Exec.gets_eq_ok, Exec.throwIf_eq_ok,
    Exec.pure_eq_ok]
  simp

theorem accessRegister_eq_ok {b b' : BusAccessor} {address i : Nat} :
    (accessRegister address).run b = .ok i b' ↔
      b.MapsRegister address ∧ i = (address - b.controlAddr) / 4 ∧ b' = b := by
  simp only [accessRegister, Exec.bind_eq_ok, registerAddressToIndex_eq_ok, Exec.gets_eq_ok,
    Exec.throwIf_eq_ok, Exec.pure_eq_ok, MapsRegister]
  constructor
  · rintro ⟨_, _, ⟨hbase, rfl, rfl⟩, _, _, ⟨rfl, rfl⟩, _, _, ⟨hpages, rfl⟩, rfl, rfl⟩
    exact ⟨⟨hbase, Nat.not_le.1 hpages⟩, rfl, rfl⟩
  · rintro ⟨⟨hbase, hpages⟩, rfl, rfl⟩
    exact ⟨_, _, ⟨hbase, rfl, rfl⟩, _, _, ⟨rfl, rfl⟩, (), _, ⟨Nat.not_le.2 hpages, rfl⟩, rfl, rfl⟩

theorem storeRegister_eq_ok {b b' : BusAccessor} {address data : Nat} {u : Unit} :
    (storeRegister address data).run b = .ok u b' ↔
      b.MapsRegister address ∧ b' = { b with
        registers := Function.update b.registers ((address - b.controlAddr) / 4) (u32 data) } := by
  simp only [storeRegister, Exec.bind_eq_ok, accessRegister_eq_ok, Exec.modify_eq_ok]
  simp

theorem storeInstruction_eq_ok {b b' : BusAccessor} {address : Nat} {instruction : Nat × Nat}
    {u : Unit} : (storeInstruction address instruction).run b = .ok u b' ↔
      b.MapsProgram address (instruction.2 + 1) ∧ b' = { b with
        fCore := Function.update b.fCore (instruction.2 + (address - b.coreAddr) / 4)
          (u32 instruction.1) } := by
  simp only [storeInstruction, Exec.bind_eq_ok, fcoreAddressToIndex_eq_ok, Exec.gets_eq_ok,
    Exec.throwIf_eq_ok, Exec.modify_eq_ok, MapsProgram]
  constructor
  · rintro ⟨_, _, ⟨hbase, rfl, rfl⟩, _, _, ⟨rfl, rfl⟩, _, _, ⟨hpages, rfl⟩, rfl⟩
    exact ⟨⟨hbase, by omega⟩, rfl⟩
  · rintro ⟨⟨hbase, hpages⟩, rfl⟩
    exact ⟨_, _, ⟨hbase, rfl, rfl⟩, _, _, ⟨rfl, rfl⟩, (), _, ⟨by omega, rfl⟩, rfl⟩

/-- A direct write returns exactly when its address is admitted, and performs the request. -/
theorem writeRegister_eq_ok {b b' : BusAccessor} {address data : Nat} {u : Unit} :
    (writeRegister [address] data).run b = .ok u b' ↔
      b.Admits (.write address data) ∧ b' = b.performAll [.write address data] := by
  simp only [writeRegister, Exec.bind_eq_ok, Exec.modify_eq_ok, Exec.gets_eq_ok, Exec.when_eq_ok,
    storeRegister_eq_ok]
  by_cases hs : b.sinkMode
  · simp [hs, Admits, performAll, Request.op]
  · simp [hs, Admits, MapsRegister, performAll, Request.op, Request.store, Request.storeProgram]

/-- The words of a program, stored one after the other. -/
theorem forM_storeInstruction_eq_ok {address : Nat} {u : Unit} (program : List (Nat × Nat)) :
    ∀ {b b' : BusAccessor},
      (forM program (storeInstruction address)).run b = .ok u b' ↔
        (∀ p ∈ program, b.MapsProgram address (p.2 + 1)) ∧ b' = { b with
          fCore := program.foldl
            (fun mem p => Function.update mem (p.2 + (address - b.coreAddr) / 4) (u32 p.1))
            b.fCore } := by
  induction program with
  | nil =>
    intro b b'
    rw [Exec.forM_nil_eq_ok]
    simp
  | cons p program ih =>
    intro b b'
    simp only [Exec.forM_cons_eq_ok, storeInstruction_eq_ok, ih, List.forall_mem_cons]
    constructor
    · rintro ⟨_, ⟨h, rfl⟩, hrest, rfl⟩
      exact ⟨⟨h, hrest⟩, rfl⟩
    · rintro ⟨⟨h, hrest⟩, rfl⟩
      exact ⟨_, ⟨h, rfl⟩, hrest, rfl⟩

/-- All words of a program have their place when the last one has. -/
theorem mapsProgram_zipIdx {b : BusAccessor} {address : Nat} {program : List Nat} :
    (∀ p ∈ program.zipIdx, b.MapsProgram address (p.2 + 1)) ↔
      program = [] ∨ b.MapsProgram address program.length := by
  constructor
  · intro h
    refine or_iff_not_imp_left.2 fun hne => ?_
    have hlast := h _ (List.mk_mem_zipIdx_iff_getElem?.2
      (List.getLast?_eq_getElem? (l := program) ▸ List.getLast?_eq_some_getLast hne))
    rwa [Nat.sub_add_cancel (List.length_pos_of_ne_nil hne)] at hlast
  · rintro (rfl | ⟨hbase, hpages⟩) p hp
    · cases hp
    · obtain ⟨hi, -⟩ := List.getElem?_eq_some_iff.1 (List.mk_mem_zipIdx_iff_getElem?.1 hp)
      exact ⟨hbase, by omega⟩

/-- A program load returns exactly when its address is admitted, and performs the request. -/
theorem loadProgram_eq_ok {b b' : BusAccessor} {address : Nat} {program : List Nat} {u : Unit} :
    (loadProgram address program).run b = .ok u b' ↔
      b.Admits (.load address program) ∧ b' = b.performAll [.load address program] := by
  simp only [loadProgram, Exec.bind_eq_ok, Exec.modify_eq_ok, Exec.gets_eq_ok, Exec.when_eq_ok,
    forM_storeInstruction_eq_ok, mapsProgram_zipIdx]
  by_cases hs : b.sinkMode
  · simp [hs, Admits, performAll, Request.op]
  · simp [hs, Admits, performAll, Request.op, Request.store, Request.storeProgram, and_assoc]

end BusAccessor

namespace FpgaBridge

/-- Register writes are dropped before a bitstream is loaded. -/
def reachesBus (hw : FpgaBridge) : Request → Bool
  | .write _ _ => hw.fpgaLoaded
  | .load _ _ => true

/-- The bridge after the requests `rs`. -/
def performAll (hw : FpgaBridge) (rs : List Request) : FpgaBridge :=
  { hw with busses := hw.busses.performAll (rs.filter hw.reachesBus) }

/-- None of the requests ends the process. -/
def Admits (hw : FpgaBridge) (rs : List Request) : Prop :=
  ∀ r ∈ rs, hw.reachesBus r = true → hw.busses.Admits r

/-- The operations a list of requests logs. -/
def logged (hw : FpgaBridge) (rs : List Request) : List BusOp :=
  (rs.filter hw.reachesBus).map Request.op

@[simp] theorem performAll_nil (hw : FpgaBridge) : hw.performAll [] = hw := by
  simp [performAll]

@[simp] theorem performAll_performAll (hw : FpgaBridge) (rs rs' : List Request) :
    (hw.performAll rs).performAll rs' = hw.performAll (rs ++ rs') := by
  rw [performAll, performAll, performAll, List.filter_append, BusAccessor.performAll_append]
  rfl

@[simp] theorem performAll_operations (hw : FpgaBridge) (rs : List Request) :
    (hw.performAll rs).busses.operations = hw.busses.operations ++ hw.logged rs := rfl

@[simp] theorem performAll_fpgaLoaded (hw : FpgaBridge) (rs : List Request) :
    (hw.performAll rs).fpgaLoaded = hw.fpgaLoaded := rfl

@[simp] theorem performAll_sinkMode (hw : FpgaBridge) (rs : List Request) :
    (hw.performAll rs).busses.sinkMode = hw.busses.sinkMode := rfl

@[simp] theorem admits_nil (hw : FpgaBridge) : hw.Admits [] := by
  simp [Admits]

@[simp] theorem admits_append (hw : FpgaBridge) (rs rs' : List Request) :
    hw.Admits (rs ++ rs') ↔ hw.Admits rs ∧ hw.Admits rs' := by
  simp [Admits, or_imp, forall_and]

theorem admits_flatMap {α : Type} (hw : FpgaBridge) (xs : List α) (R : α → List Request) :
    hw.Admits (xs.flatMap R) ↔ ∀ x ∈ xs, hw.Admits (R x) := by
  simp only [Admits, List.mem_flatMap]
  exact ⟨fun h x hx r hr => h r ⟨x, hx, hr⟩, fun h r ⟨x, hx, hr⟩ => h x hx r hr⟩

/-- A list of requests one by one. -/
theorem admits_cons_cons (hw : FpgaBridge) (r r' : Request) (rs : List Request) :
    hw.Admits (r :: r' :: rs) ↔ hw.Admits [r] ∧ hw.Admits (r' :: rs) :=
  hw.admits_append [r] (r' :: rs)

@[simp] theorem admits_performAll (hw : FpgaBridge) (rs rs' : List Request) :
    (hw.performAll rs).Admits rs' ↔ hw.Admits rs' := by
  refine forall_congr' fun r => ?_
  cases r <;> rfl

/-- A muted bus admits everything. -/
theorem admits_of_sinkMode {hw : FpgaBridge} (h : hw.busses.sinkMode = true)
    (rs : List Request) : hw.Admits rs := by
  intro r _ _
  cases r <;> exact Or.inl h

@[simp] theorem logged_performAll (hw : FpgaBridge) (rs rs' : List Request) :
    (hw.performAll rs).logged rs' = hw.logged rs' := rfl

@[simp] theorem logged_append (hw : FpgaBridge) (rs rs' : List Request) :
    hw.logged (rs ++ rs') = hw.logged rs ++ hw.logged rs' := by
  simp [logged]

/-- With a bitstream loaded every request is logged. -/
theorem logged_of_loaded {hw : FpgaBridge} (h : hw.fpgaLoaded = true) (rs : List Request) :
    hw.logged rs = rs.map Request.op := by
  rw [logged, List.filter_eq_self.2]
  intro r _
  cases r <;> simp [reachesBus, h]

/-- Only what reaches the bus can end the process. -/
theorem admits_iff_filter {hw : FpgaBridge} {rs : List Request} :
    hw.Admits rs ↔ ∀ r ∈ rs.filter hw.reachesBus, hw.busses.Admits r := by
  simp only [Admits, List.mem_filter, and_imp]

theorem reachesBus_congr {hw hw' : FpgaBridge} (h : hw.fpgaLoaded = hw'.fpgaLoaded) :
    hw.reachesBus = hw'.reachesBus := by
  funext r
  cases r with
  | write address value => exact h
  | load address program => rfl

/-- Two bridges that treat a request in the same way. -/
structure SameBus (hw hw' : FpgaBridge) : Prop where
  fpgaLoaded : hw.fpgaLoaded = hw'.fpgaLoaded
  sinkMode : hw.busses.sinkMode = hw'.busses.sinkMode
  windows : hw.busses.windows = hw'.busses.windows

namespace SameBus

theorem refl (hw : FpgaBridge) : hw.SameBus hw := ⟨rfl, rfl, rfl⟩

theorem trans {hw₁ hw₂ hw₃ : FpgaBridge} (h : hw₁.SameBus hw₂) (h' : hw₂.SameBus hw₃) :
    hw₁.SameBus hw₃ :=
  ⟨h.fpgaLoaded.trans h'.fpgaLoaded, h.sinkMode.trans h'.sinkMode, h.windows.trans h'.windows⟩

theorem admits {hw hw' : FpgaBridge} (h : hw.SameBus hw') (r : Request) :
    hw.busses.Admits r ↔ hw'.busses.Admits r := by
  cases r <;> simp only [BusAccessor.Admits, h.sinkMode, BusAccessor.mapsRegister_congr h.windows,
    BusAccessor.mapsProgram_congr h.windows]

end SameBus

theorem onBus_eq_ok {α : Type} {m : Exec Failure BusAccessor α} {a : α} {hw hw' : FpgaBridge} :
    (onBus m).run hw = .ok a hw' ↔
      ∃ b, m.run hw.busses = .ok a b ∧ hw' = { hw with busses := b } :=
  Exec.zoom_eq_ok

theorem writeDirect_eq_ok {addr val : Nat} {hw hw' : FpgaBridge} {u : Unit} :
    (writeDirect addr val).run hw = .ok u hw' ↔
      hw.Admits [.write (u64 addr) (u32 val)] ∧
        hw' = hw.performAll [.write (u64 addr) (u32 val)] := by
  have hrun : (writeDirect addr val).run hw =
      (Exec.when (hw.fpgaLoaded = true)
        (onBus (BusAccessor.writeRegister [u64 addr] (u32 val)))).run hw := rfl
  rw [hrun, Exec.when_eq_ok, onBus_eq_ok]
  simp only [BusAccessor.writeRegister_eq_ok]
  by_cases h : hw.fpgaLoaded = true
  · have hf : [Request.write (u64 addr) (u32 val)].filter hw.reachesBus =
        [.write (u64 addr) (u32 val)] := by
      simp [reachesBus, h]
    constructor
    · rintro ⟨hl, -⟩
      obtain ⟨_, ⟨ha, rfl⟩, rfl⟩ := hl h
      exact ⟨by simpa [Admits, reachesBus, h] using ha, by rw [performAll, hf]⟩
    · rintro ⟨ha, rfl⟩
      exact ⟨fun _ => ⟨_, ⟨ha _ (by simp) h, rfl⟩, by rw [performAll, hf]⟩, fun hn => (hn h).elim⟩
  · have hf : [Request.write (u64 addr) (u32 val)].filter hw.reachesBus = [] := by
      simp [reachesBus, h]
    constructor
    · rintro ⟨-, hn⟩
      exact ⟨by simp [Admits, reachesBus, h],
        by rw [hn h, performAll, hf, BusAccessor.performAll_nil]⟩
    · rintro ⟨-, rfl⟩
      exact ⟨fun hl => (h hl).elim, fun _ => by rw [performAll, hf, BusAccessor.performAll_nil]⟩

theorem applyProgram_eq_ok {address : Nat} {program : List Nat} {hw hw' : FpgaBridge} {u : Unit} :
    (applyProgram address program).run hw = .ok u hw' ↔
      hw.Admits [.load (u64 address) program] ∧
        hw' = hw.performAll [.load (u64 address) program] := by
  simp only [applyProgram, onBus_eq_ok, BusAccessor.loadProgram_eq_ok]
  constructor
  · rintro ⟨_, ⟨ha, rfl⟩, rfl⟩
    exact ⟨by simpa [Admits, reachesBus] using ha,
      by simp [performAll, List.filter_cons, reachesBus]⟩
  · rintro ⟨ha, rfl⟩
    exact ⟨_, ⟨ha _ (by simp) rfl, rfl⟩, by simp [performAll, List.filter_cons, reachesBus]⟩

end FpgaBridge

end UscopeDriver
