import UscopeDriver.Requests
import UscopeDriver.Library.WordLines

/-!
# The simulation texts as a trace

The two texts of `get_hardware_simulation_data` are replayed as word writes into the two windows.
A call of the bus stores the words `stored`, and its lines are the words `printed`. They are the
same for direct writes, and for program loads whose addresses stay in range. So whatever calls
return leave what the replay of their texts leaves (`trace_faithful`). A proxied write stores two
words and prints a third.
-/

namespace UscopeDriver

/-- A call of the bus accessor. -/
inductive BusCall where
  | loadProgram (address : Nat) (program : List Nat)
  | writeDirect (address data : Nat)
  | writeProxied (proxy target data : Nat)
  deriving DecidableEq, Repr

namespace BusCall

/-- What a call runs. -/
def exec : BusCall → Exec Failure BusAccessor Unit
  | loadProgram address program => BusAccessor.loadProgram address program
  | writeDirect address data => BusAccessor.writeRegister [address] data
  | writeProxied proxy target data => BusAccessor.writeRegister [target, proxy] data

/-- The entry of the log. -/
def op : BusCall → BusOp
  | loadProgram address program => ⟨[address], program, .romPlaneWrite⟩
  | writeDirect address data => ⟨[address], [data], .controlPlaneWrite⟩
  | writeProxied proxy target data => ⟨[target, proxy], [data], .controlPlaneWrite⟩

/-- The words that the call stores have their places in the windows. -/
def Mapped (b : BusAccessor) : BusCall → Prop
  | loadProgram address program => program = [] ∨ b.MapsProgram address program.length
  | writeDirect address _ => b.MapsRegister address
  | writeProxied proxy _ _ => b.MapsRegister (u64 (proxy + 4)) ∧ b.MapsRegister proxy

instance (b : BusAccessor) (c : BusCall) : Decidable (c.Mapped b) := by
  cases c <;> unfold Mapped <;> infer_instance

/-- The words that the call stores in the register window. -/
def stored : BusCall → List (Nat × Nat)
  | loadProgram _ _ => []
  | writeDirect address data => [(address, data)]
  | writeProxied proxy target data => [(u64 (proxy + 4), target), (proxy, data)]

/-- The words of the control text. -/
def printed : BusCall → List (Nat × Nat)
  | loadProgram _ _ => []
  | writeDirect address data => [(address, data)]
  | writeProxied _ target data => [(target, data)]

/-- The words that the call stores in the fCore window. -/
def storedProgram : BusCall → List (Nat × Nat)
  | loadProgram address program => program.zipIdx.map fun (word, i) => (address + 4 * i, word)
  | _ => []

/-- The words of the program text. -/
def printedProgram : BusCall → List (Nat × Nat)
  | loadProgram address program =>
    program.zipIdx.map fun (word, i) => (BusAccessor.romAddressAt address i, word)
  | _ => []

/-- The call is not a proxied write, and the lines of a load do not overflow. -/
def InRange : BusCall → Prop
  | loadProgram address program => program.length ≤ 2 ^ 29 ∧ address + 4 * program.length ≤ 2 ^ 64
  | writeDirect _ _ => True
  | writeProxied _ _ _ => False

end BusCall

namespace BusAccessor

/-- One word into the window at `base`. -/
def storeWord (base : Nat) (memory : Nat → Nat) (w : Nat × Nat) : Nat → Nat :=
  Function.update memory ((w.1 - base) / 4) (u32 w.2)

/-- A text line by line as word writes into the window at `base`, which every address must be in. -/
def replay (base : Nat) (text : String) (memory : Nat → Nat) : Option (Nat → Nat) := do
  let words ← WordLines.parse text
  if words.all (base ≤ ·.1) then pure (words.foldl (storeWord base) memory) else none

/-- The bus after a call. -/
def after (b : BusAccessor) (c : BusCall) : BusAccessor :=
  { b with
    operations := b.operations ++ [c.op]
    registers := c.stored.foldl (storeWord b.controlAddr) b.registers
    fCore := c.storedProgram.foldl (storeWord b.coreAddr) b.fCore }

/-- The words of a program, stored one after the other, by their addresses. -/
theorem foldl_program {address base : Nat} (h : base ≤ address) (words : List (Nat × Nat))
    (memory : Nat → Nat) :
    words.foldl (fun mem w => Function.update mem (w.2 + (address - base) / 4) (u32 w.1)) memory =
      (words.map fun (word, i) => (address + 4 * i, word)).foldl (storeWord base) memory := by
  rw [List.foldl_map]
  congr 1
  funext mem w
  have hindex : (address + 4 * w.2 - base) / 4 = w.2 + (address - base) / 4 := by omega
  rw [storeWord, hindex]

/-- A program that is mapped is stored by the addresses of its words. -/
theorem storeProgram_of_mapped {b : BusAccessor} {address : Nat} {program : List Nat}
    (h : program = [] ∨ b.MapsProgram address program.length) :
    (Request.load address program).storeProgram b.coreAddr b.fCore =
      (BusCall.loadProgram address program).storedProgram.foldl (storeWord b.coreAddr)
        b.fCore := by
  rcases h with rfl | ⟨hbase, -⟩
  · rfl
  · exact foldl_program hbase _ _

/-- On a live bus a call returns just when it is mapped. -/
theorem exec_eq_ok {b b' : BusAccessor} (hsink : b.sinkMode = false) {c : BusCall} {u : Unit} :
    c.exec.run b = .ok u b' ↔ c.Mapped b ∧ b' = b.after c := by
  cases c with
  | loadProgram address program =>
    have hadmits : b.Admits (.load address program) ↔
        (BusCall.loadProgram address program).Mapped b := by
      simp [Admits, hsink, BusCall.Mapped]
    refine loadProgram_eq_ok.trans ?_
    rw [hadmits]
    refine and_congr_right fun hc => ?_
    simp [after, BusCall.op, BusCall.stored, performAll, hsink, Request.op, Request.store,
      storeProgram_of_mapped hc]
  | writeDirect address data =>
    refine writeRegister_eq_ok.trans (and_congr (by simp [Admits, hsink, BusCall.Mapped]) ?_)
    simp [after, BusCall.op, BusCall.stored, BusCall.storedProgram, performAll, hsink, Request.op,
      Request.store, Request.storeProgram, storeWord]
  | writeProxied proxy target data =>
    simp only [BusCall.exec, writeRegister, Exec.bind_eq_ok, Exec.modify_eq_ok, Exec.gets_eq_ok,
      Exec.when_eq_ok, storeRegister_eq_ok, exists_const, and_assoc, exists_and_left,
      exists_eq_left, hsink, true_imp_iff, not_true_eq_false, false_imp_iff, and_true]
    refine and_assoc.symm.trans (and_congr Iff.rfl ?_)
    simp [after, BusCall.op, BusCall.stored, BusCall.storedProgram, storeWord, hsink]

/-- What is mapped stays mapped. -/
theorem mapped_after {b : BusAccessor} (c d : BusCall) : d.Mapped (b.after c) ↔ d.Mapped b := by
  cases d <;> exact Iff.rfl

/-- On a live bus calls return just when they are all mapped. -/
theorem forM_exec_eq_ok {calls : List BusCall} {u : PUnit} : ∀ {b b' : BusAccessor},
    b.sinkMode = false → ((forM calls BusCall.exec).run b = .ok u b' ↔
      (∀ c ∈ calls, c.Mapped b) ∧ b' = calls.foldl after b) := by
  induction calls with
  | nil =>
    intro b b' _
    rw [Exec.forM_nil_eq_ok]
    simp
  | cons c calls ih =>
    intro b b' hsink
    have hsink' : (b.after c).sinkMode = false := hsink
    simp only [Exec.forM_cons_eq_ok, exec_eq_ok hsink, List.forall_mem_cons, List.foldl_cons]
    constructor
    · rintro ⟨_, ⟨hc, rfl⟩, hrest⟩
      obtain ⟨hcalls, rfl⟩ := (ih hsink').1 hrest
      exact ⟨⟨hc, fun d hd => (mapped_after c d).1 (hcalls d hd)⟩, rfl⟩
    · rintro ⟨⟨hc, hcalls⟩, rfl⟩
      exact ⟨_, ⟨hc, rfl⟩, (ih hsink').2 ⟨fun d hd => (mapped_after c d).2 (hcalls d hd), rfl⟩⟩

theorem foldl_after (calls : List BusCall) (b : BusAccessor) : calls.foldl after b =
    { b with
      operations := b.operations ++ calls.map BusCall.op
      registers := (calls.flatMap BusCall.stored).foldl (storeWord b.controlAddr) b.registers
      fCore := (calls.flatMap BusCall.storedProgram).foldl (storeWord b.coreAddr) b.fCore } := by
  induction calls generalizing b with
  | nil => simp
  | cons c calls ih =>
    rw [List.foldl_cons, ih]
    simp [after, List.flatMap_cons, List.foldl_append]

theorem lines_op (c : BusCall) :
    romPlaneLines c.op = c.printedProgram.map WordLines.line ∧
      controlPlaneLines c.op = c.printed.map WordLines.line := by
  cases c with
  | loadProgram address program =>
    refine ⟨?_, rfl⟩
    simp [romPlaneLines, BusCall.op, BusCall.printedProgram, WordLines.line, simulationLine]
  | writeDirect address data => exact ⟨rfl, rfl⟩
  | writeProxied proxy target data => exact ⟨rfl, rfl⟩

/-- The texts of a log are the printed words. -/
theorem simulationData_of_calls {b : BusAccessor} {calls : List BusCall}
    (h : b.operations = calls.map BusCall.op) :
    b.getHardwareSimulationData = (WordLines.print (calls.flatMap BusCall.printedProgram),
      WordLines.print (calls.flatMap BusCall.printed)) := by
  simp only [getHardwareSimulationData, h, List.flatMap_map, lines_op, WordLines.print,
    List.map_flatMap]

/-- A text of words in the window. -/
theorem replay_print {base : Nat} {words : List (Nat × Nat)} (h : ∀ w ∈ words, base ≤ w.1)
    (memory : Nat → Nat) :
    replay base (WordLines.print words) memory = some (words.foldl (storeWord base) memory) := by
  rw [replay, WordLines.parse_print]
  simpa using h

/-- In range, `4*i` does not overflow. -/
theorem romAddressAt_of_lt {address i : Nat} (hi : i < 2 ^ 29) (h : address + 4 * i < 2 ^ 64) :
    romAddressAt address i = address + 4 * i := by
  have hint : int32 (4 * (i : Int)) = 4 * (i : Int) := by
    rw [int32, Int.bmod_def]
    omega
  rw [romAddressAt, hint]
  omega

/-- In range, what is printed is what is stored. -/
theorem printed_of_inRange {c : BusCall} (h : c.InRange) :
    c.printed = c.stored ∧ c.printedProgram = c.storedProgram := by
  cases c with
  | loadProgram address program =>
    obtain ⟨hlength, haddress⟩ := h
    refine ⟨rfl, List.map_congr_left fun ⟨word, i⟩ hw => ?_⟩
    obtain ⟨hi, -⟩ := List.getElem?_eq_some_iff.1 (List.mk_mem_zipIdx_iff_getElem?.1 hw)
    simp only [romAddressAt_of_lt (by omega : i < 2 ^ 29) (by omega : address + 4 * i < 2 ^ 64)]
  | writeDirect address data => exact ⟨rfl, rfl⟩
  | writeProxied proxy target data => exact h.elim

/-- What a mapped call stores is at or above the bases. -/
theorem stored_of_mapped {b : BusAccessor} {c : BusCall} (h : c.Mapped b) :
    (∀ w ∈ c.stored, b.controlAddr ≤ w.1) ∧ ∀ w ∈ c.storedProgram, b.coreAddr ≤ w.1 := by
  cases c with
  | loadProgram address program =>
    refine ⟨by simp [BusCall.stored], fun w hw => ?_⟩
    obtain ⟨x, hx, rfl⟩ := List.mem_map.1 hw
    rcases h with rfl | ⟨hbase, -⟩
    · cases hx
    · exact Nat.le_add_right_of_le hbase
  | writeDirect address data =>
    simpa [BusCall.stored, BusCall.storedProgram] using h.1
  | writeProxied proxy target data =>
    obtain ⟨hnext, hproxy⟩ := h
    simpa [BusCall.stored, BusCall.storedProgram] using And.intro hnext.1 hproxy.1

/-- Calls in range return when all of them are mapped. Replaying their texts from the memory they
started in then gives the memory they left. -/
theorem trace_faithful {controlAddr coreAddr nPagesCtrl nPagesFcore : Nat}
    {registers fCore : Nat → Nat} {calls : List BusCall} (hrange : ∀ c ∈ calls, c.InRange) :
    ((∃ u b, (forM calls BusCall.exec).run
        (construct controlAddr coreAddr nPagesCtrl nPagesFcore registers fCore) = .ok u b) ↔
      ∀ c ∈ calls,
        c.Mapped (construct controlAddr coreAddr nPagesCtrl nPagesFcore registers fCore)) ∧
    ∀ u b, (forM calls BusCall.exec).run
        (construct controlAddr coreAddr nPagesCtrl nPagesFcore registers fCore) = .ok u b →
      replay coreAddr b.getHardwareSimulationData.1 fCore = some b.fCore ∧
        replay controlAddr b.getHardwareSimulationData.2 registers = some b.registers := by
  set start := construct controlAddr coreAddr nPagesCtrl nPagesFcore registers fCore with hstart
  have hsink : start.sinkMode = false := rfl
  refine ⟨⟨fun ⟨_, _, h⟩ => ((forM_exec_eq_ok hsink).1 h).1,
    fun h => ⟨⟨⟩, _, (forM_exec_eq_ok hsink).2 ⟨h, rfl⟩⟩⟩, fun u b h => ?_⟩
  obtain ⟨hmapped, rfl⟩ := (forM_exec_eq_ok hsink).1 h
  have hprinted : calls.flatMap BusCall.printed = calls.flatMap BusCall.stored :=
    List.flatMap_congr fun c hc => (printed_of_inRange (hrange c hc)).1
  have hprogram : calls.flatMap BusCall.printedProgram = calls.flatMap BusCall.storedProgram :=
    List.flatMap_congr fun c hc => (printed_of_inRange (hrange c hc)).2
  have hlog : (calls.foldl after start).operations = calls.map BusCall.op := by
    rw [foldl_after]
    rfl
  rw [simulationData_of_calls hlog, hprinted, hprogram, foldl_after]
  refine ⟨replay_print (fun w hw => ?_) _, replay_print (fun w hw => ?_) _⟩
  · obtain ⟨c, hc, hwc⟩ := List.mem_flatMap.1 hw
    exact (stored_of_mapped (hmapped c hc)).2 w hwc
  · obtain ⟨c, hc, hwc⟩ := List.mem_flatMap.1 hw
    exact (stored_of_mapped (hmapped c hc)).1 w hwc

/-- The driver on a Zynq, over empty memory. -/
def zynq : BusAccessor :=
  construct 0x43c00000 0x83c00000 344000 344000 (fun _ => 0) fun _ => 0

theorem trace_faithful_two_calls :
    ∃ u b, (forM [BusCall.loadProgram 0x83c00010 [7, 8], .writeDirect 0x43c00004 5]
        BusCall.exec).run zynq = .ok u b ∧
      replay 0x83c00000 b.getHardwareSimulationData.1 (fun _ => 0) = some b.fCore ∧
      replay 0x43c00000 b.getHardwareSimulationData.2 (fun _ => 0) = some b.registers := by
  obtain ⟨hreturns, hreplay⟩ := @trace_faithful 0x43c00000 0x83c00000 344000 344000 (fun _ => 0)
    (fun _ => 0) [BusCall.loadProgram 0x83c00010 [7, 8], .writeDirect 0x43c00004 5]
    (by simp [BusCall.InRange])
  obtain ⟨u, b, h⟩ := hreturns.2 (by decide)
  exact ⟨u, b, h, hreplay u b h⟩

/-- A proxied write stores the data at the proxy, and its line stores it at the target. -/
theorem proxied_write_unfaithful :
    ∃ u b memory, (forM [BusCall.writeProxied 0x43c00000 0x43c00010 5] BusCall.exec).run zynq =
        .ok u b ∧
      replay 0x43c00000 b.getHardwareSimulationData.2 (fun _ => 0) = some memory ∧
      (b.registers 0 = 5 ∧ memory 0 = 0) ∧ b.registers 4 = 0 ∧ memory 4 = 5 := by
  refine ⟨(), _, storeWord 0x43c00000 (fun _ => 0) (0x43c00010, 5),
    (forM_exec_eq_ok rfl).2 ⟨by decide, rfl⟩, ?_, ?_⟩
  · rw [simulationData_of_calls (by rw [foldl_after]; rfl)]
    exact @replay_print 0x43c00000 [(0x43c00010, 5)] (by decide) _
  · rw [foldl_after]
    decide

end BusAccessor

end UscopeDriver
