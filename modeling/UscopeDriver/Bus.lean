import UscopeDriver.Machine
import Mathlib.Logic.Function.Basic

/-!
# The bus accessor

`bus_accessor` maps two windows of physical memory, the registers of the control plane and
the fCore program memories, and logs every operation. While `sinkMode` is on the windows are
not touched. The object is shared by every component of the driver, and there is one. A
window is an array of 32-bit words, as long as its pages. An access past the last page faults, and
the handler of the signal ends the process, as an address below the base does.
-/

namespace UscopeDriver

/-- The kinds of an entry in the record. -/
inductive BusAccessType where
  | controlPlaneWrite
  | romPlaneWrite
  | controlPlaneRead
  | romPlaneRead
  deriving DecidableEq, Repr

/-- An entry of the operations log. -/
structure BusOp where
  address : List Nat
  data : List Nat
  type : BusAccessType
  deriving DecidableEq, Repr

/-- The bus as the accessor has it : the two windows with what they hold, the mute with the one it
goes back to, and the record of operations. -/
structure BusAccessor where
  previousSinkMode : Bool
  controlAddr : Nat
  coreAddr : Nat
  /-- The pages that are mapped from the control bus. -/
  nPagesCtrl : Nat
  /-- The pages that are mapped from the fCore programming bus. -/
  nPagesFcore : Nat
  registers : Nat → Nat
  fCore : Nat → Nat
  sinkMode : Bool
  operations : List BusOp

namespace BusAccessor

/-- The accessor as constructed, over the words that the memory holds. -/
def construct (controlAddr coreAddr nPagesCtrl nPagesFcore : Nat) (registers fCore : Nat → Nat) :
    BusAccessor where
  previousSinkMode := false
  controlAddr := controlAddr
  coreAddr := coreAddr
  nPagesCtrl := nPagesCtrl
  nPagesFcore := nPagesFcore
  registers := registers
  fCore := fCore
  sinkMode := false
  operations := []

/-- The bases of the Zynq UltraScale+, with the default number of pages, over empty memory. -/
def zynqmp : BusAccessor :=
  construct 0x400000000 0x500000000 344000 344000 (fun _ => 0) fun _ => 0

/-- Where the two windows are, and how long they are. -/
def windows (b : BusAccessor) : Nat × Nat × Nat × Nat :=
  (b.controlAddr, b.nPagesCtrl, b.coreAddr, b.nPagesFcore)

/-- The windows are their two bases with their pages. -/
theorem windows_eq_iff {b b' : BusAccessor} : b'.windows = b.windows ↔
    b'.controlAddr = b.controlAddr ∧ b'.nPagesCtrl = b.nPagesCtrl ∧
      b'.coreAddr = b.coreAddr ∧ b'.nPagesFcore = b.nPagesFcore := by
  simp only [windows, Prod.mk.injEq]

/-- The 32-bit words of a page. -/
def wordsPerPage : Nat := 4096 / 4

/-- The word of the register window behind `address`. -/
def registerAddressToIndex (address : Nat) : Exec Failure BusAccessor Nat := do
  let controlAddr ← Exec.gets (·.controlAddr)
  Exec.throwIf (controlAddr > address) .exit
  pure ((address - controlAddr) / 4)

/-- The word of the fCore window behind `address`. -/
def fcoreAddressToIndex (address : Nat) : Exec Failure BusAccessor Nat := do
  let coreAddr ← Exec.gets (·.coreAddr)
  Exec.throwIf (coreAddr > address) .exit
  pure ((address - coreAddr) / 4)

/-- `registers[register_address_to_index(address)]`, which has to be in a page of the window. -/
def accessRegister (address : Nat) : Exec Failure BusAccessor Nat := do
  let i ← registerAddressToIndex address
  let nPagesCtrl ← Exec.gets (·.nPagesCtrl)
  Exec.throwIf (nPagesCtrl * wordsPerPage ≤ i) .exit
  pure i

/-- `registers[register_address_to_index(address)] = data` -/
def storeRegister (address data : Nat) : Exec Failure BusAccessor Unit := do
  let i ← accessRegister address
  modify fun b => { b with registers := Function.update b.registers i (u32 data) }

/-- One address is a direct write. With two, the first is the target and the second the
proxy, which is told the target before the data. -/
def writeRegister (addresses : List Nat) (data : Nat) : Exec Failure BusAccessor Unit := do
  modify fun b => { b with operations := b.operations ++ [⟨addresses, [data], .controlPlaneWrite⟩] }
  let sink ← Exec.gets (·.sinkMode)
  Exec.when (sink = false) <| match addresses with
    | [address] => storeRegister address data
    | target :: proxy :: _ => do
      storeRegister (u64 (proxy + 4)) target
      storeRegister proxy data
    | [] => throw (.undefined .vectorIndex)

/-- What is read on a muted bus is random. -/
def readRegister (random : Nat) (addresses : List Nat) : Exec Failure BusAccessor Nat := do
  modify fun b => { b with operations := b.operations ++ [⟨addresses, [0], .controlPlaneRead⟩] }
  let sink ← Exec.gets (·.sinkMode)
  if sink = true then pure (random % 100)
  else match addresses with
    | [address] => do
      let i ← accessRegister address
      Exec.gets (·.registers i)
    | _ => pure 0

/-- One word of a program into the fCore window, which has to have a page for it. -/
def storeInstruction (address : Nat) (instruction : Nat × Nat) : Exec Failure BusAccessor Unit := do
  let i ← fcoreAddressToIndex address
  let nPagesFcore ← Exec.gets (·.nPagesFcore)
  Exec.throwIf (nPagesFcore * wordsPerPage ≤ instruction.2 + i) .exit
  modify fun b =>
    { b with fCore := Function.update b.fCore (instruction.2 + i) (u32 instruction.1) }

/-- A program is stored word by word unless the bus is muted. It is recorded in any case. -/
def loadProgram (address : Nat) (program : List Nat) : Exec Failure BusAccessor Unit := do
  let sink ← Exec.gets (·.sinkMode)
  Exec.when (sink = false) (forM program.zipIdx (storeInstruction address))
  modify fun b => { b with operations := b.operations ++ [⟨[address], program, .romPlaneWrite⟩] }

/-- The bus is muted. The former state is kept for `enableAccess`. -/
def disableAccess : Exec Failure BusAccessor Unit :=
  modify fun b => { b with previousSinkMode := b.sinkMode, sinkMode := true }

/-- The mute before the last `disableAccess` is back. -/
def enableAccess : Exec Failure BusAccessor Unit :=
  modify fun b => { b with sinkMode := b.previousSinkMode }

/-- A new record begins. -/
def clearOperations : Exec Failure BusAccessor Unit :=
  modify fun b => { b with operations := [] }

/-! ## The simulation texts -/

/-- `address:data` and a line feed, in decimal. -/
def simulationLine (address data : Nat) : String :=
  toString address ++ ":" ++ toString data ++ "\n"

/-- `rom_address + 4*i`, with `4*i` an `int`. -/
def romAddressAt (romAddress i : Nat) : Nat :=
  ((romAddress + int32 (4 * i)) % 2 ^ 64).toNat

/-- The lines one operation adds to the program text. -/
def romPlaneLines (o : BusOp) : List String :=
  match o.type with
  | .romPlaneWrite =>
    o.data.zipIdx.map fun (word, i) => simulationLine (romAddressAt (o.address.headD 0) i) word
  | _ => []

/-- The lines one operation adds to the control text : one for each data word, at the address
of the same position. -/
def controlPlaneLines (o : BusOp) : List String :=
  match o.type with
  | .controlPlaneWrite =>
    o.data.zipIdx.map fun (word, i) => simulationLine (o.address.getD i 0) word
  | _ => []

/-- The texts of the program plane and of the control plane. -/
def getHardwareSimulationData (b : BusAccessor) : String × String :=
  (String.join (b.operations.flatMap romPlaneLines),
    String.join (b.operations.flatMap controlPlaneLines))

end BusAccessor

end UscopeDriver
