import UscopeDriver.Library.WhileLoop
import UscopeDriver.Timebase
import Mathlib.Data.List.MinMax

/-!
# The search for the timebase divider

The loop of `calculate_timebase_divider` has no counter. It raises a divider that all programs and
all deployments share, until the divided timebase is not above the highest frequency of the program.
For every program it ends, and the divider stays within one of where it started or of what the
slowest program needs (`divider_search_ends`).
-/

namespace UscopeDriver

namespace HilDeployer

open WhileLoop

/-- The condition of the loop. -/
def TooFast (timebase maxFrequency divider : ℚ) : Prop :=
  timebase / divider > maxFrequency

/-- The length of a program in clock periods, as time. -/
def totalProgramLength (clock : {f : ℚ // 0 < f}) (nChannels : String → Nat)
    (p : DeployedProgram) : ℚ :=
  programLength nChannels p * (1 / clock)

/-- What a program needs the divider to be. -/
def neededDivider (clock : {f : ℚ // 0 < f}) (timebase : ℚ) (nChannels : String → Nat)
    (p : DeployedProgram) : ℚ :=
  timebase * totalProgramLength clock nChannels p

/-- The divider after one program after the other. -/
def fitAll (clock : {f : ℚ // 0 < f}) (timebase : ℚ) (nChannels : String → Nat)
    (programs : List DeployedProgram) (divider : {d : ℚ // 1 ≤ d}) : {d : ℚ // 1 ≤ d} :=
  programs.foldl (fun d p => fitDivider clock timebase (programLength nChannels p) d) divider

variable {clock : {f : ℚ // 0 < f}} {timebase : ℚ} {nChannels : String → Nat}
  {programs : List DeployedProgram}

/-- The recursion runs the loop to its end. -/
theorem ends_raiseDivider (timebase : ℚ) (maxFrequency : {m : ℚ // 0 < m})
    (divider : {d : ℚ // 1 ≤ d}) :
    Ends (TooFast timebase maxFrequency) (· + 1) divider
      (raiseDivider timebase maxFrequency divider : ℚ) := by
  induction divider using raiseDivider.induct timebase maxFrequency with
  | case1 divider hfast ih =>
    rw [raiseDivider, if_pos hfast]
    exact .round hfast ih
  | case2 divider hslow =>
    rw [raiseDivider, if_neg hslow]
    exact .stop hslow

/-- A program with an instruction takes time. -/
theorem totalProgramLength_pos {p : DeployedProgram} (h : 0 < programLength nChannels p) :
    0 < totalProgramLength clock nChannels p :=
  mul_pos (Nat.cast_pos.2 h) (one_div_pos.2 clock.2)

/-- The divider that the model computes is the one at which the loop of the source ends. -/
theorem ends_fitDivider (clock : {f : ℚ // 0 < f}) (timebase : ℚ) {p : DeployedProgram}
    (h : 0 < programLength nChannels p) (divider : {d : ℚ // 1 ≤ d}) :
    Ends (TooFast timebase (1 / totalProgramLength clock nChannels p)) (· + 1) divider
      (fitDivider clock timebase (programLength nChannels p) divider : ℚ) := by
  have hpos : 0 < totalProgramLength clock nChannels p := totalProgramLength_pos h
  have hfit : fitDivider clock timebase (programLength nChannels p) divider =
      raiseDivider timebase ⟨1 / totalProgramLength clock nChannels p, one_div_pos.2 hpos⟩
        divider :=
    dif_pos hpos
  rw [hfit]
  exact ends_raiseDivider timebase ⟨_, one_div_pos.2 hpos⟩ divider

/-- A divider that is too small for a program. -/
theorem lt_of_tooFast (htimebase : 0 < timebase) {length divider : ℚ} (hlength : 0 < length)
    (h : TooFast timebase (1 / length) divider) : divider < timebase * length := by
  have hquotient : 0 < timebase / divider := (one_div_pos.2 hlength).trans h
  have hdivider : 0 < divider := (div_pos_iff_of_pos_left htimebase).1 hquotient
  have hcross : 1 / length * divider < timebase := (lt_div_iff₀ hdivider).1 h
  rw [one_div_mul_eq_div, div_lt_iff₀ hlength] at hcross
  exact hcross

/-- One loop only raises the divider, to less than one above what the program needs. -/
theorem fitDivider_spec (clock : {f : ℚ // 0 < f}) (htimebase : 0 < timebase) {p : DeployedProgram}
    (h : 0 < programLength nChannels p) (divider : {d : ℚ // 1 ≤ d}) :
    (divider : ℚ) ≤ fitDivider clock timebase (programLength nChannels p) divider ∧
      timebase / fitDivider clock timebase (programLength nChannels p) divider ≤
        1 / totalProgramLength clock nChannels p ∧
      (fitDivider clock timebase (programLength nChannels p) divider : ℚ) ≤
        max (divider : ℚ) (neededDivider clock timebase nChannels p + 1) := by
  have hends := ends_fitDivider clock timebase h divider
  refine ⟨hends.invariant (I := fun d => (divider : ℚ) ≤ d) ?_ le_rfl, not_lt.1 hends.not_guard, ?_⟩
  · intro t ht _
    linarith
  · rcases hends.last_round with heq | ⟨t, hfast, heq⟩
    · exact heq.le.trans (le_max_left _ _)
    · have hlt : t < neededDivider clock timebase nChannels p :=
        lt_of_tooFast htimebase (totalProgramLength_pos h) hfast
      exact heq.le.trans ((by linarith : t + 1 ≤ _).trans (le_max_right _ _))

/-- All loops together. The bound `b` is one above what any of the programs needs. -/
theorem fitAll_spec (htimebase : 0 < timebase)
    (h : ∀ p ∈ programs, 0 < programLength nChannels p) {b : ℚ}
    (hb : ∀ p ∈ programs, neededDivider clock timebase nChannels p + 1 ≤ b)
    (divider : {d : ℚ // 1 ≤ d}) :
    (divider : ℚ) ≤ fitAll clock timebase nChannels programs divider ∧
      (∀ p ∈ programs, timebase / fitAll clock timebase nChannels programs divider ≤
        1 / totalProgramLength clock nChannels p) ∧
      (fitAll clock timebase nChannels programs divider : ℚ) ≤ max (divider : ℚ) b := by
  induction programs generalizing divider with
  | nil => exact ⟨le_rfl, nofun, le_max_left _ _⟩
  | cons p programs ih =>
    rw [List.forall_mem_cons] at h hb
    obtain ⟨hle, hslow, hbound⟩ := fitDivider_spec clock htimebase h.1 divider
    obtain ⟨hle', hslow', hbound'⟩ :=
      ih h.2 hb.2 (fitDivider clock timebase (programLength nChannels p) divider)
    refine ⟨hle.trans hle', List.forall_mem_cons.2 ⟨?_, hslow'⟩, hbound'.trans ?_⟩
    -- a larger divider suits the program too
    · have hone := (fitDivider clock timebase (programLength nChannels p) divider).2
      refine le_trans ?_ hslow
      exact div_le_div_of_nonneg_left htimebase.le (by linarith) hle'
    · refine max_le (hbound.trans (max_le_max le_rfl hb.1)) (le_max_right _ _)

/-- The maximum is at least where it starts. -/
theorem le_foldr_max (b : ℚ) (l : List ℚ) : b ≤ l.foldr max b := by
  induction l with
  | nil => exact le_rfl
  | cons a l ih => exact ih.trans (le_max_right _ _)

/-- The call leaves the divider that the loops leave. -/
theorem run_calculateTimebaseDivider (pl : Platform) {dispatcher : EmulatorDispatcher}
    (hp : dispatcher.getPrograms = .ok programs)
    (hfrequency : ∀ p ∈ programs, p.samplingFrequency ≠ 0) (s : HilDeployer) :
    ∃ dividers s', (calculateTimebaseDivider pl dispatcher).run s = .ok dividers s' ∧
      s'.timebaseDivider =
        fitAll s.hilClockFrequency s.timebaseFrequency s.nChannels programs s.timebaseDivider := by
  refine ⟨_, _, (calculateTimebaseDivider_eq_ok hp).2 ⟨rfl, rfl⟩, ?_⟩
  refine List.foldl_ext _ _ _ fun d p hmem => ?_
  exact if_pos (hfrequency p hmem)

/-- For every program the loop ends, from the divider that the programs before it have left. The
last divider is not below the first, suits every program, and is at most one above the larger of
the first and of what the slowest program needs. -/
theorem divider_search_ends {clock : {f : ℚ // 0 < f}} {timebase : ℚ} (htimebase : 0 < timebase)
    {nChannels : String → Nat} {programs : List DeployedProgram}
    (hfrequency : ∀ p ∈ programs, p.samplingFrequency ≠ 0)
    (hlength : ∀ p ∈ programs, 0 < programLength nChannels p) (start : {d : ℚ // 1 ≤ d}) :
    (∀ before p after, programs = before ++ p :: after →
      Ends (TooFast timebase (1 / totalProgramLength clock nChannels p)) (· + 1)
        (fitAll clock timebase nChannels before start : ℚ)
        (fitAll clock timebase nChannels (before ++ [p]) start)) ∧
    (start : ℚ) ≤ fitAll clock timebase nChannels programs start ∧
    (∀ p ∈ programs, timebase / fitAll clock timebase nChannels programs start ≤
      1 / totalProgramLength clock nChannels p) ∧
    (fitAll clock timebase nChannels programs start : ℚ) ≤
      (programs.map (neededDivider clock timebase nChannels)).foldr max (start : ℚ) + 1 ∧
    ∀ (pl : Platform) (dispatcher : EmulatorDispatcher) (s : HilDeployer),
      dispatcher.getPrograms = .ok programs → s.hilClockFrequency = clock →
      (s.timebaseFrequency : ℚ) = timebase → s.nChannels = nChannels → s.timebaseDivider = start →
        ∃ dividers s', (calculateTimebaseDivider pl dispatcher).run s = .ok dividers s' ∧
          s'.timebaseDivider = fitAll clock timebase nChannels programs start := by
  have hneeded : ∀ p ∈ programs, neededDivider clock timebase nChannels p ≤
      (programs.map (neededDivider clock timebase nChannels)).foldr max (start : ℚ) :=
    fun p hp => List.le_max_of_le' _ (List.mem_map_of_mem hp) le_rfl
  have hstart : (start : ℚ) ≤
      (programs.map (neededDivider clock timebase nChannels)).foldr max (start : ℚ) :=
    le_foldr_max _ _
  obtain ⟨hle, hslow, hbound⟩ := fitAll_spec htimebase hlength
    (fun p hp => add_le_add_left (hneeded p hp) 1) start
  refine ⟨?_, hle, hslow, hbound.trans (max_le (by linarith) le_rfl), ?_⟩
  · rintro before p after rfl
    have hstep : fitAll clock timebase nChannels (before ++ [p]) start =
        fitDivider clock timebase (programLength nChannels p)
          (fitAll clock timebase nChannels before start) := by
      rw [fitAll, List.foldl_append]
      rfl
    rw [hstep]
    exact ends_fitDivider clock timebase (hlength p (by simp)) _
  · rintro pl dispatcher s hp rfl rfl rfl rfl
    exact run_calculateTimebaseDivider pl hp hfrequency s

/-- A program of 25 clock periods, ten million times a second. -/
def fastProgram : DeployedProgram :=
  ⟨"core", 0, 0, 10000000, 1, [], ⟨25, 0⟩, []⟩

/-- A program that is too slow for its timebase. -/
theorem divider_search_of_fast :
    (∀ p ∈ [fastProgram], (10000000 : ℚ) /
        fitAll fresh.hilClockFrequency 10000000 (fun _ => 1) [fastProgram] fresh.timebaseDivider ≤
      1 / totalProgramLength fresh.hilClockFrequency (fun _ => 1) p) ∧
    (fitAll fresh.hilClockFrequency 10000000 (fun _ => 1) [fastProgram] fresh.timebaseDivider :
        ℚ) ≤
      ([fastProgram].map (neededDivider fresh.hilClockFrequency 10000000 fun _ => 1)).foldr max
        (fresh.timebaseDivider : ℚ) + 1 := by
  obtain ⟨-, -, hslow, hbound, -⟩ := @divider_search_ends fresh.hilClockFrequency 10000000
    (by norm_num) (fun _ => 1) [fastProgram] (by decide) (by decide) fresh.timebaseDivider
  exact ⟨hslow, hbound⟩

end HilDeployer

end UscopeDriver
