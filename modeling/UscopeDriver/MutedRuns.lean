import UscopeDriver.Trace
import Mathlib.Data.List.Induction

/-!
# Muted and live runs

`disable_access` and `enable_access` decide whether the calls of the bus accessor reach the memory.
The log does not depend on them : it is the log of the calls alone
(`foldl_afterStep_operations`). The memory changes in the calls of a live bus only, and on a bus
that is live throughout it is the replay of the log (`muting_invisible`). A call that is not mapped
returns on a muted bus only.
-/

namespace UscopeDriver

/-- A call of the bus accessor, with the addresses as the caller lists them. -/
inductive AccessorCall where
  | writeRegister (addresses : List Nat) (data : Nat)
  | readRegister (addresses : List Nat)
  | loadProgram (address : Nat) (program : List Nat)
  | clearOperations
  deriving DecidableEq, Repr

namespace AccessorCall

/-- The call, with the random number that a muted read may draw. -/
def exec (random : Nat) : AccessorCall → Exec Failure BusAccessor Unit
  | writeRegister addresses data => BusAccessor.writeRegister addresses data
  | readRegister addresses => do
    let _ ← BusAccessor.readRegister random addresses
    pure ()
  | loadProgram address program => BusAccessor.loadProgram address program
  | clearOperations => BusAccessor.clearOperations

/-- What the call accesses has its place in the windows. -/
def Mapped (b : BusAccessor) : AccessorCall → Prop
  | writeRegister [address] _ => b.MapsRegister address
  | writeRegister (_ :: proxy :: _) _ => b.MapsRegister (u64 (proxy + 4)) ∧ b.MapsRegister proxy
  | writeRegister [] _ => False
  | readRegister [address] => b.MapsRegister address
  | readRegister _ => True
  | loadProgram address program => program = [] ∨ b.MapsProgram address program.length
  | clearOperations => True

/-- The log after the call. -/
def log (operations : List BusOp) : AccessorCall → List BusOp
  | writeRegister addresses data => operations ++ [⟨addresses, [data], .controlPlaneWrite⟩]
  | readRegister addresses => operations ++ [⟨addresses, [0], .controlPlaneRead⟩]
  | loadProgram address program => operations ++ [⟨[address], program, .romPlaneWrite⟩]
  | clearOperations => []

end AccessorCall

namespace BusOp

/-- The words that a logged operation stores in the register window. A proxied write stores the
target behind the proxy first. -/
def stored (o : BusOp) : List (Nat × Nat) :=
  match o.type, o.address with
  | .controlPlaneWrite, [address] => o.data.map fun data => (address, data)
  | .controlPlaneWrite, target :: proxy :: _ =>
    o.data.flatMap fun data => [(u64 (proxy + 4), target), (proxy, data)]
  | _, _ => []

/-- The words that a logged operation stores in the fCore window. -/
def storedProgram (o : BusOp) : List (Nat × Nat) :=
  match o.type, o.address with
  | .romPlaneWrite, [address] => o.data.zipIdx.map fun (word, i) => (address + 4 * i, word)
  | _, _ => []

end BusOp

/-- A step of a run : a call, or one of the toggles. -/
inductive AccessorStep where
  | call (c : AccessorCall) (random : Nat)
  | disableAccess
  | enableAccess
  deriving DecidableEq, Repr

namespace AccessorStep

/-- What a step runs. -/
def exec : AccessorStep → Exec Failure BusAccessor Unit
  | call c random => c.exec random
  | disableAccess => BusAccessor.disableAccess
  | enableAccess => BusAccessor.enableAccess

/-- The calls of a run, without the toggles. -/
def calls (steps : List AccessorStep) : List AccessorCall :=
  steps.filterMap fun
    | call c _ => some c
    | disableAccess | enableAccess => none

end AccessorStep

namespace BusAccessor

/-- The operations one after the other, as words into the register window. -/
def replayRegisters (controlAddr : Nat) (ops : List BusOp) (registers : Nat → Nat) : Nat → Nat :=
  (ops.flatMap BusOp.stored).foldl (storeWord controlAddr) registers

/-- The operations one after the other, as words into the fCore window. -/
def replayProgram (coreAddr : Nat) (ops : List BusOp) (fCore : Nat → Nat) : Nat → Nat :=
  (ops.flatMap BusOp.storedProgram).foldl (storeWord coreAddr) fCore

/-- The operation that a call enters in the log, none for a clear. -/
def entry : AccessorCall → List BusOp
  | .clearOperations => []
  | c => c.log []

/-- The bus after a step. -/
def afterStep (b : BusAccessor) : AccessorStep → BusAccessor
  | .call c _ =>
    { b with
      operations := c.log b.operations
      registers := if b.sinkMode then b.registers else
        replayRegisters b.controlAddr (entry c) b.registers
      fCore := if b.sinkMode then b.fCore else replayProgram b.coreAddr (entry c) b.fCore }
  | .disableAccess => { b with previousSinkMode := b.sinkMode, sinkMode := true }
  | .enableAccess => { b with sinkMode := b.previousSinkMode }

/-- A read only enters itself in the log. -/
theorem readRegister_eq_ok {b b' : BusAccessor} {addresses : List Nat} {random : Nat} :
    (∃ value, (readRegister random addresses).run b = .ok value b') ↔
      (b.sinkMode = true ∨ (AccessorCall.readRegister addresses).Mapped b) ∧
        b' = { b with
          operations := b.operations ++ [⟨addresses, [0], .controlPlaneRead⟩] } := by
  simp only [readRegister, Exec.bind_eq_ok, Exec.modify_eq_ok, Exec.gets_eq_ok, exists_const,
    and_assoc, exists_and_left, exists_eq_left]
  by_cases hsink : b.sinkMode = true
  · simp [hsink, eq_comm]
  -- only one address makes the accessor read the memory
  rcases addresses with - | ⟨address, - | ⟨proxy, rest⟩⟩
  · simp [hsink, AccessorCall.Mapped, eq_comm]
  · rw [if_neg hsink, or_iff_right hsink]
    simp only [Exec.bind_eq_ok, accessRegister_eq_ok, Exec.gets_eq_ok, AccessorCall.Mapped]
    constructor
    · rintro ⟨_, _, _, ⟨hmapped, rfl, rfl⟩, rfl, rfl⟩
      exact ⟨hmapped, rfl⟩
    · rintro ⟨hmapped, rfl⟩
      exact ⟨_, _, _, ⟨hmapped, rfl, rfl⟩, rfl, rfl⟩
  · simp [hsink, AccessorCall.Mapped, eq_comm]

/-- A call returns on a muted bus, and on a live one if it is mapped. -/
theorem call_eq_ok {b b' : BusAccessor} {c : AccessorCall} {random : Nat} {u : Unit} :
    (c.exec random).run b = .ok u b' ↔
      (b.sinkMode = true ∨ c.Mapped b) ∧ b' = b.afterStep (.call c random) := by
  cases c with
  | writeRegister addresses data =>
    simp only [AccessorCall.exec, writeRegister, Exec.bind_eq_ok, Exec.modify_eq_ok,
      Exec.gets_eq_ok, Exec.when_eq_ok, exists_const, and_assoc, exists_and_left, exists_eq_left]
    cases hsink : b.sinkMode with
    | true => simp [hsink, afterStep, AccessorCall.log]
    | false =>
      rcases addresses with - | ⟨address, - | ⟨proxy, rest⟩⟩
      · simp [AccessorCall.Mapped]
      · simp [AccessorCall.Mapped, storeRegister_eq_ok, MapsRegister, hsink, afterStep,
          AccessorCall.log, entry, replayRegisters, replayProgram, BusOp.stored,
          BusOp.storedProgram, storeWord]
      · simp only [Exec.bind_eq_ok, storeRegister_eq_ok, exists_const, and_assoc,
          exists_and_left, exists_eq_left]
        simp [AccessorCall.Mapped, MapsRegister, hsink, afterStep, AccessorCall.log, entry,
          replayRegisters, replayProgram, BusOp.stored, BusOp.storedProgram, storeWord, and_assoc]
  | readRegister addresses =>
    have hafter : b.afterStep (.call (.readRegister addresses) random) = { b with
        operations := b.operations ++ [⟨addresses, [0], .controlPlaneRead⟩] } := by
      cases hsink : b.sinkMode <;>
        simp [hsink, afterStep, AccessorCall.log, entry, replayRegisters, replayProgram,
          BusOp.stored, BusOp.storedProgram]
    rw [hafter, ← @readRegister_eq_ok b b' addresses random, AccessorCall.exec, Exec.bind_eq_ok]
    constructor
    · rintro ⟨value, _, hread, hpure⟩
      obtain ⟨-, rfl⟩ := Exec.pure_eq_ok.1 hpure
      exact ⟨value, hread⟩
    · rintro ⟨value, hread⟩
      exact ⟨value, b', hread, rfl⟩
  | loadProgram address program =>
    refine loadProgram_eq_ok.trans (and_congr_right fun hmapped => ?_)
    cases hsink : b.sinkMode with
    | true => simp [hsink, performAll, Request.op, afterStep, AccessorCall.log]
    | false =>
      have hstored := storeProgram_of_mapped (hmapped.resolve_left (by simp [hsink]))
      simp [hsink, performAll, Request.op, Request.store, hstored, afterStep, AccessorCall.log,
        entry, replayRegisters, replayProgram, BusOp.stored, BusOp.storedProgram,
        BusCall.storedProgram]
  | clearOperations =>
    cases hsink : b.sinkMode <;>
      simp [AccessorCall.exec, AccessorCall.Mapped, clearOperations, afterStep, AccessorCall.log,
        entry, hsink, replayRegisters, replayProgram, eq_comm]

/-! ## Runs -/

variable {b b' : BusAccessor} {steps : List AccessorStep}

/-- A toggle always returns. -/
theorem step_eq_ok {x : AccessorStep} {u : Unit} : x.exec.run b = .ok u b' ↔
    (∀ c ∈ AccessorStep.calls [x], b.sinkMode = true ∨ c.Mapped b) ∧ b' = b.afterStep x := by
  cases x with
  | call c random =>
    rw [AccessorStep.exec, call_eq_ok]
    simp [AccessorStep.calls]
  | disableAccess => exact Exec.modify_eq_ok.trans (by simp [AccessorStep.calls, afterStep])
  | enableAccess => exact Exec.modify_eq_ok.trans (by simp [AccessorStep.calls, afterStep])

/-- The calls of two lists of steps. -/
theorem calls_append (xs ys : List AccessorStep) :
    AccessorStep.calls (xs ++ ys) = AccessorStep.calls xs ++ AccessorStep.calls ys :=
  List.filterMap_append

/-- The windows stay where they are. -/
theorem foldl_afterStep_bases (steps : List AccessorStep) (b : BusAccessor) :
    (steps.foldl afterStep b).controlAddr = b.controlAddr ∧
      (steps.foldl afterStep b).coreAddr = b.coreAddr := by
  induction steps generalizing b with
  | nil => exact ⟨rfl, rfl⟩
  | cons x steps ih =>
    rw [List.foldl_cons, (ih _).1, (ih _).2]
    cases x <;> exact ⟨rfl, rfl⟩

/-- What is mapped stays mapped. -/
theorem mapped_afterStep (x : AccessorStep) (c : AccessorCall) :
    c.Mapped (b.afterStep x) ↔ c.Mapped b := by
  cases x <;> exact Iff.rfl

/-- A run that returns is a sequence of steps. -/
theorem eq_of_run {u : PUnit} (h : (forM steps AccessorStep.exec).run b = .ok u b') :
    b' = steps.foldl afterStep b := by
  induction steps generalizing b with
  | nil => exact Exec.forM_nil_eq_ok.1 h
  | cons x steps ih =>
    obtain ⟨t, hx, hsteps⟩ := Exec.forM_cons_eq_ok.1 h
    obtain rfl := (step_eq_ok.1 hx).2
    exact ih hsteps

/-- With all calls in the windows a run returns. -/
theorem run_of_mapped (h : ∀ c ∈ AccessorStep.calls steps, c.Mapped b) :
    ∃ b', (forM steps AccessorStep.exec).run b = .ok ⟨⟩ b' := by
  induction steps generalizing b with
  | nil => exact ⟨b, rfl⟩
  | cons x steps ih =>
    have hsplit := calls_append [x] steps
    rw [List.singleton_append] at hsplit
    rw [hsplit, List.forall_mem_append] at h
    obtain ⟨b', hrest⟩ := ih fun c hc => (mapped_afterStep x c).2 (h.2 c hc)
    exact ⟨b', Exec.forM_cons_eq_ok.2
      ⟨_, step_eq_ok.2 ⟨fun c hc => Or.inr (h.1 c hc), rfl⟩, hrest⟩⟩

/-- The log is that of the calls, wherever the toggles are. -/
theorem foldl_afterStep_operations (steps : List AccessorStep) (b : BusAccessor) :
    (steps.foldl afterStep b).operations =
      (AccessorStep.calls steps).foldl AccessorCall.log b.operations := by
  induction steps generalizing b with
  | nil => rfl
  | cons x steps ih =>
    rw [List.foldl_cons, ih]
    cases x <;> rfl

/-- A step that changes a word is a call on a live bus. -/
theorem live_of_changed {x : AccessorStep} {i : Nat}
    (h : (b.afterStep x).registers i ≠ b.registers i ∨ (b.afterStep x).fCore i ≠ b.fCore i) :
    (∃ c random, x = .call c random) ∧ b.sinkMode = false := by
  cases x with
  | call c random =>
    refine ⟨⟨c, random, rfl⟩, ?_⟩
    by_contra hsink
    rw [Bool.not_eq_false] at hsink
    simp [afterStep, hsink] at h
  | disableAccess => simp [afterStep] at h
  | enableAccess => simp [afterStep] at h

/-- The bus is live before and after every step. -/
def LiveThroughout (b : BusAccessor) (steps : List AccessorStep) : Prop :=
  ∀ before, before <+: steps → ∀ b', (forM before AccessorStep.exec).run b = .ok ⟨⟩ b' →
    b'.sinkMode = false

/-- On a live bus the calls replay what they log. -/
theorem foldl_afterStep_replay (hlive : ∀ before, before <+: steps →
      (before.foldl afterStep b).sinkMode = false)
    (hclear : .clearOperations ∉ AccessorStep.calls steps) :
    ∃ ops, (steps.foldl afterStep b).operations = b.operations ++ ops ∧
      (steps.foldl afterStep b).registers = replayRegisters b.controlAddr ops b.registers ∧
      (steps.foldl afterStep b).fCore = replayProgram b.coreAddr ops b.fCore := by
  induction steps using List.reverseRecOn with
  | nil => exact ⟨[], by simp [replayRegisters, replayProgram]⟩
  | append_singleton steps x ih =>
    rw [calls_append, List.mem_append, not_or] at hclear
    obtain ⟨ops, hops, hregisters, hfCore⟩ := ih
      (fun before hbefore => hlive before (hbefore.trans (List.prefix_append _ _))) hclear.1
    obtain ⟨hcontrol, hcore⟩ := foldl_afterStep_bases steps b
    have hsink := hlive steps (List.prefix_append _ _)
    rw [List.foldl_append, List.foldl_cons, List.foldl_nil]
    cases x with
    | call c random =>
      have hlog : c.log (steps.foldl afterStep b).operations =
          (steps.foldl afterStep b).operations ++ entry c := by
        cases c with
        | clearOperations => simp [AccessorStep.calls] at hclear
        | writeRegister addresses data => rfl
        | readRegister addresses => rfl
        | loadProgram address program => rfl
      refine ⟨ops ++ entry c, ?_, ?_, ?_⟩
      · rw [← List.append_assoc, ← hops]
        exact hlog
      · simp [afterStep, hsink, hregisters, hcontrol, replayRegisters]
      · simp [afterStep, hsink, hfCore, hcore, replayProgram]
    | disableAccess => exact ⟨ops, hops, hregisters, hfCore⟩
    | enableAccess => exact ⟨ops, hops, hregisters, hfCore⟩

/-- In a run, words change in the calls of a live bus only. On a bus that stays live and whose log
is not cleared, the memory is the replay of what the run logs. -/
structure ChangesWhenLive (b : BusAccessor) (steps : List AccessorStep) : Prop where
  changed : ∀ before x b₁ b₂, before ++ [x] <+: steps →
    (forM before AccessorStep.exec).run b = .ok ⟨⟩ b₁ → x.exec.run b₁ = .ok () b₂ →
      (∃ i, b₂.registers i ≠ b₁.registers i ∨ b₂.fCore i ≠ b₁.fCore i) →
        (∃ c random, x = .call c random) ∧ b₁.sinkMode = false
  replayed : LiveThroughout b steps → .clearOperations ∉ AccessorStep.calls steps →
    ∀ b', (forM steps AccessorStep.exec).run b = .ok ⟨⟩ b' →
      ∃ ops, b'.operations = b.operations ++ ops ∧
      b'.registers = replayRegisters b.controlAddr ops b.registers ∧
      b'.fCore = replayProgram b.coreAddr ops b.fCore

/-- Only a step on the live bus changes what is stored. -/
theorem changesWhenLive (b : BusAccessor) (steps : List AccessorStep) :
    ChangesWhenLive b steps := by
  constructor
  · rintro before x b₁ b₂ - - hrun ⟨i, hi⟩
    obtain rfl := (step_eq_ok.1 hrun).2
    exact live_of_changed hi
  · intro hlive hclear b' hrun
    obtain rfl := eq_of_run hrun
    refine foldl_afterStep_replay (fun before hbefore => ?_) hclear
    -- a prefix of a run that returns is a run that returns
    obtain ⟨after, rfl⟩ := hbefore
    rw [List.forM_append] at hrun
    obtain ⟨_, t, hbefore, -⟩ := Exec.bind_eq_ok.1 hrun
    have hsink := hlive before (List.prefix_append _ _) t hbefore
    rwa [eq_of_run hbefore] at hsink

/-- Two runs of the same calls have the same log after every call, wherever the toggles are. They
return when what is accessed is in the windows. -/
theorem muting_invisible {b : BusAccessor} {xs ys : List AccessorStep}
    (hcalls : AccessorStep.calls xs = AccessorStep.calls ys) :
    (∀ xs₁ ys₁, xs₁ <+: xs → ys₁ <+: ys → AccessorStep.calls xs₁ = AccessorStep.calls ys₁ →
      ∀ b₁ b₂, (forM xs₁ AccessorStep.exec).run b = .ok ⟨⟩ b₁ →
        (forM ys₁ AccessorStep.exec).run b = .ok ⟨⟩ b₂ → b₁.operations = b₂.operations) ∧
      ChangesWhenLive b xs ∧ ChangesWhenLive b ys ∧
      ((∀ c ∈ AccessorStep.calls xs, c.Mapped b) →
        (∃ b₁, (forM xs AccessorStep.exec).run b = .ok ⟨⟩ b₁) ∧
          ∃ b₂, (forM ys AccessorStep.exec).run b = .ok ⟨⟩ b₂) := by
  refine ⟨?_, changesWhenLive b xs, changesWhenLive b ys,
    fun h => ⟨run_of_mapped h, run_of_mapped (hcalls ▸ h)⟩⟩
  rintro xs₁ ys₁ - - hsame b₁ b₂ hx hy
  rw [eq_of_run hx, eq_of_run hy, foldl_afterStep_operations, foldl_afterStep_operations, hsame]

/-- A program, a proxied write, a read and a direct write on a live bus. -/
def liveCalls : List AccessorStep :=
  [.call (.loadProgram 0x500000010 [7, 8]) 0, .call (.writeRegister [0x10, 0x443C00000] 5) 0,
    .call (.readRegister [0x443C00000]) 0, .call (.writeRegister [0x443C00008] 6) 0]

/-- The same calls, the program and the read on a muted bus. -/
def mutedCalls : List AccessorStep :=
  [.disableAccess, .call (.loadProgram 0x500000010 [7, 8]) 3, .enableAccess,
    .call (.writeRegister [0x10, 0x443C00000] 5) 1, .disableAccess,
    .call (.readRegister [0x443C00000]) 4, .enableAccess, .call (.writeRegister [0x443C00008] 6) 0]

theorem muting_invisible_of_calls :
    ∃ b₁ b₂, (forM liveCalls AccessorStep.exec).run zynqmp = .ok ⟨⟩ b₁ ∧
      (forM mutedCalls AccessorStep.exec).run zynqmp = .ok ⟨⟩ b₂ ∧
      b₁.operations = b₂.operations ∧ b₁.operations.length = 4 ∧ b₁.fCore 4 ≠ b₂.fCore 4 ∧
      ChangesWhenLive zynqmp liveCalls ∧ ChangesWhenLive zynqmp mutedCalls := by
  obtain ⟨hlogs, hlive, hmuted, hreturns⟩ :=
    muting_invisible (b := zynqmp) (show AccessorStep.calls liveCalls =
      AccessorStep.calls mutedCalls by decide)
  obtain ⟨⟨b₁, h₁⟩, b₂, h₂⟩ := hreturns fun c hc => by
    simp only [AccessorStep.calls, liveCalls, List.filterMap_cons, List.filterMap_nil,
      List.mem_cons, List.not_mem_nil, or_false] at hc
    rcases hc with rfl | rfl | rfl | rfl <;> unfold AccessorCall.Mapped <;> decide
  refine ⟨b₁, b₂, h₁, h₂,
    hlogs _ _ List.prefix_rfl List.prefix_rfl (by decide) _ _ h₁ h₂, ?_, ?_, hlive, hmuted⟩
  · rw [eq_of_run h₁, foldl_afterStep_operations]
    decide
  · rw [eq_of_run h₁, eq_of_run h₂]
    decide

end BusAccessor

end UscopeDriver
