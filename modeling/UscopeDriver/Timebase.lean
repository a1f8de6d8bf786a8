import UscopeDriver.HilWrites
import Mathlib.Algebra.GCDMonoid.Multiset
import Mathlib.Algebra.GCDMonoid.Nat

/-!
# Timebase, dividers and shifts

The timing stages of a deployment. The timebase is the least common multiple of the sampling
frequencies as far as an `int` holds it (`accumulateLcm_eq_ok`), the dividers are quotients of
it, and the shifts place one program after the other in the order of the sort.
-/

namespace UscopeDriver

namespace HilDeployer

/-! ## The least common multiple -/

/-- Every least common multiple on the way fits a `uint32_t`. -/
def LcmFits : Nat → List Nat → Prop
  | _, [] => True
  | a, f :: frequencies => a.lcm f < 2 ^ 32 ∧ LcmFits (a.lcm f) frequencies

theorem int32_emod {a : Nat} (h : a < 2 ^ 32) : (int32 a % 2 ^ 32).toNat = a := by
  unfold int32
  rw [Int.bmod_def]
  split_ifs <;> omega

theorem accumulateLcm_eq_ok {σ : Type} (frequencies : List Nat) :
    ∀ {a : Nat} {t : Int} {s s' : σ}, a < 2 ^ 32 →
      ((accumulateLcm (int32 a) frequencies).run s = .ok t s' ↔
        LcmFits a frequencies ∧ t = int32 (frequencies.foldl Nat.lcm a : Nat) ∧ s' = s) := by
  induction frequencies with
  | nil =>
    intro a t s s' _
    rw [accumulateLcm, Exec.pure_eq_ok]
    simp [LcmFits]
  | cons f frequencies ih =>
    intro a t s s' ha
    simp only [accumulateLcm, stdLcm, Exec.bind_eq_ok, Exec.throwIf_eq_ok, Exec.pure_eq_ok,
      int32_emod ha, and_assoc, exists_const, exists_and_left, exists_eq_left, not_le, LcmFits]
    refine and_congr_right fun hl => ?_
    rw [ih hl]
    rfl

theorem foldl_lcm (frequencies : List Nat) (a : Nat) :
    frequencies.foldl Nat.lcm a = a.lcm (frequencies : Multiset Nat).lcm := by
  induction frequencies generalizing a with
  | nil => simp
  | cons f frequencies ih =>
    rw [List.foldl_cons, ih, ← Multiset.cons_coe, Multiset.lcm_cons, Nat.lcm_assoc]
    rfl

/-- With no zero among the frequencies only the whole multiple counts. -/
theorem lcmFits_iff {frequencies : List Nat} (hf : ∀ f ∈ frequencies, 0 < f) {a : Nat}
    (ha : 0 < a) (ha' : a < 2 ^ 32) :
    LcmFits a frequencies ↔ a.lcm (frequencies : Multiset Nat).lcm < 2 ^ 32 := by
  induction frequencies generalizing a with
  | nil => simpa [LcmFits] using ha'
  | cons f frequencies ih =>
    have hf' : ∀ g ∈ frequencies, 0 < g := fun g hg => hf g (by simp [hg])
    have hpos : 0 < a.lcm f := Nat.lcm_pos ha (hf f (by simp))
    have hrest : 0 < (frequencies : Multiset Nat).lcm := by
      rw [Nat.pos_iff_ne_zero, Ne, Multiset.lcm_eq_zero_iff]
      intro h0
      exact (hf' 0 h0).ne rfl
    have hle : a.lcm f ≤ (a.lcm f).lcm (frequencies : Multiset Nat).lcm :=
      Nat.le_of_dvd (Nat.lcm_pos hpos hrest) (Nat.dvd_lcm_left _ _)
    have hcons : a.lcm ((f :: frequencies : List Nat) : Multiset Nat).lcm =
        (a.lcm f).lcm (frequencies : Multiset Nat).lcm := by
      rw [← foldl_lcm, ← foldl_lcm]
      rfl
    rw [LcmFits, hcons]
    constructor
    · rintro ⟨h, hs⟩
      exact (ih hf' hpos h).1 hs
    · intro h
      have hl : a.lcm f < 2 ^ 32 := hle.trans_lt h
      exact ⟨hl, (ih hf' hpos hl).2 h⟩

/-- The least common multiple of the sampling frequencies. -/
def frequencyLcm (programs : List DeployedProgram) : Nat :=
  ((programs.map (·.samplingFrequency.toNat) : List Nat) : Multiset Nat).lcm

theorem accumulateLcm_programs_eq_ok {σ : Type} {programs : List DeployedProgram} {t : Int}
    {s s' : σ} :
    (accumulateLcm 1 (programs.map (·.samplingFrequency.toNat))).run s = .ok t s' ↔
      LcmFits 1 (programs.map (·.samplingFrequency.toNat)) ∧ t = int32 (frequencyLcm programs) ∧
        s' = s := by
  have hl : (programs.map (·.samplingFrequency.toNat)).foldl Nat.lcm 1 = frequencyLcm programs := by
    rw [foldl_lcm, Nat.lcm_comm, Nat.lcm_one_right]
    rfl
  have hone : (1 : Int) = int32 (1 : Nat) := by decide
  rw [← hl, hone]
  exact accumulateLcm_eq_ok _ (by norm_num)

/-! ## Dividers -/

/-- The divider after the programs. -/
def fittedDivider (s : HilDeployer) (programs : List DeployedProgram) : {d : ℚ // 1 ≤ d} :=
  programs.foldl (fun d p =>
    if p.samplingFrequency ≠ 0 then
      fitDivider s.hilClockFrequency s.timebaseFrequency (programLength s.nChannels p) d
    else d) s.timebaseDivider

/-- What the divider stage records. Nothing reads it afterwards. -/
def recordDividers (programs : List DeployedProgram) (s : HilDeployer) : HilDeployer :=
  { s with timebaseDivider := s.fittedDivider programs }

theorem forM_fitProgram_eq_ok {programs : List DeployedProgram} {s s' : HilDeployer} {u : PUnit} :
    (forM programs fitProgram).run s = .ok u s' ↔ s' = recordDividers programs s := by
  induction programs generalizing s with
  | nil =>
    rw [Exec.forM_nil_eq_ok]
    rfl
  | cons p programs ih =>
    simp only [Exec.forM_cons_eq_ok, ih, fitProgram, Exec.when_eq_ok, Exec.modify_eq_ok]
    unfold recordDividers fittedDivider
    by_cases h : p.samplingFrequency = 0
    · simp [h]
    · simp [h]

theorem calculateTimebaseDivider_eq_ok {pl : Platform} {dispatcher : EmulatorDispatcher}
    {programs : List DeployedProgram} (hp : dispatcher.getPrograms = .ok programs)
    {dividers : List Nat} {s s' : HilDeployer} :
    (calculateTimebaseDivider pl dispatcher).run s = .ok dividers s' ↔
      dividers = programs.map (coreDivider pl s.timebaseFrequency) ∧
        s' = recordDividers programs s := by
  simp only [calculateTimebaseDivider, Exec.bind_eq_ok, callDispatcher_eq_ok, hp, Except.ok.injEq,
    forM_fitProgram_eq_ok, Exec.gets_eq_ok, Exec.pure_eq_ok, and_assoc, exists_const,
    exists_and_left, exists_eq_left, exists_eq_left', recordDividers]

/-! ## Shifts -/

/-- The sorted data of the programs. -/
def sortedData (sort : ExecutionOrderSort) (s : HilDeployer) (programs : List DeployedProgram) :
    List ShiftCalcData :=
  sort.sort (calcData s programs)

/-- The shift of each name. -/
def shiftOf : List ShiftCalcData → String → Nat
  | [], _ => 0
  | first :: rest, name =>
    orderedShifts (u32 (first.programLength + 2 + interCoreBuffer)) rest
      (Function.update (fun _ => 0) first.name 2) name

/-- What the shift stage records. -/
def recordShifts (sort : ExecutionOrderSort) (programs : List DeployedProgram) (s : HilDeployer) :
    HilDeployer :=
  { s with minTimebase := extendTimebase s.minTimebase (sortedData sort s programs) }

theorem sortedData_ne_nil {sort : ExecutionOrderSort} {s : HilDeployer}
    {programs : List DeployedProgram} : sortedData sort s programs ≠ [] ↔ programs ≠ [] := by
  have hperm : (sortedData sort s programs).Perm (calcData s programs) := sort.perm _
  rw [Ne, Ne, ← List.length_eq_zero_iff, hperm.length_eq, calcData, List.length_map,
    List.length_eq_zero_iff]

theorem calculateTimebaseShift_eq_ok {sort : ExecutionOrderSort} {dispatcher : EmulatorDispatcher}
    {programs : List DeployedProgram} (hp : dispatcher.getPrograms = .ok programs)
    {shifts : List Nat} {s s' : HilDeployer} :
    (calculateTimebaseShift sort dispatcher).run s = .ok shifts s' ↔
      programs ≠ [] ∧
        shifts = programs.map (fun p => shiftOf (sortedData sort s programs) p.name) ∧
          s' = recordShifts sort programs s := by
  simp only [calculateTimebaseShift, Exec.bind_eq_ok, callDispatcher_eq_ok, hp, Except.ok.injEq,
    Exec.gets_eq_ok, Exec.modify_eq_ok, Exec.pure_eq_ok, and_assoc, exists_const, exists_and_left,
    exists_eq_left, exists_eq_left', index_zero_eq_ok (⟨"", 0, 0⟩ : ShiftCalcData)]
  rw [← @sortedData_ne_nil sort s programs]
  unfold recordShifts sortedData
  cases sort.sort (calcData s programs) with
  | nil => simp
  | cons first rest => exact Iff.rfl

end HilDeployer

end UscopeDriver
