import UscopeDriver.Schedule

/-!
# Free-running cores beside clocked ones

A sampling frequency of zero marks a free-running core. The divider loop gives such a core the
divider 1, but its zero also enters the least common multiple, so the timebase is zero and every
clocked core beside it gets the divider 0 (`mixed_dividers`). The sequencer subtracts one from it.
-/

namespace UscopeDriver

namespace HilDeployer

/-- The least common multiple is zero if a frequency is. -/
theorem frequencyLcm_eq_zero {programs : List DeployedProgram} :
    frequencyLcm programs = 0 ↔ ∃ p ∈ programs, p.samplingFrequency = 0 := by
  simp [frequencyLcm, Multiset.lcm_eq_zero_iff, ← UInt32.toNat_inj]

/-- On a timebase of zero a core is clocked just when its divider is zero. -/
theorem coreDivider_zero (pl : Platform) (p : DeployedProgram) :
    coreDivider pl 0 p = 0 ↔ p.samplingFrequency ≠ 0 := by
  have hzero : pl.toUint32 0 = 0 := by
    simpa using pl.toUint32_natCast (by norm_num : 0 < 2 ^ 32)
  unfold coreDivider
  split_ifs with h
  · simp [h]
  · simp [h, hzero]

/-- A divider of zero wraps in the register. -/
theorem write_dividerAddress_mem {addresses : LogicLayout} {period n : Nat}
    {divisors shifts : List Nat} {i : Nat} (hi : i < n) (h : divisors[i]? = some 0) :
    .write (u64 (dividerAddress addresses i)) 0xFFFFFFFF ∈
      sequencerRequests addresses period n divisors shifts := by
  have hcore : regWrite (dividerAddress addresses i) (sub32 (divisors.getD i 0) 1) =
      .write (u64 (dividerAddress addresses i)) 0xFFFFFFFF := by
    rw [List.getD_eq_getElem?_getD, h]
    rfl
  exact hcore ▸ divider_mem_sequencerRequests hi

/-- In a list with free-running and clocked programs, whose frequencies the driver can fold at all,
the dividers of the clocked ones, and only these, are zero. So some divider is not at least 1, and
the sequencer writes the wrapped value for each of them. -/
theorem mixed_dividers {pl : Platform} {dispatcher : EmulatorDispatcher}
    {programs : List DeployedProgram} (hp : dispatcher.getPrograms = .ok programs)
    (hfree : ∃ p ∈ programs, p.samplingFrequency = 0)
    (hclocked : ∃ p ∈ programs, p.samplingFrequency ≠ 0) {timebase : Int} {s s₁ : HilDeployer}
    (hfold : (accumulateLcm 1 (programs.map (·.samplingFrequency.toNat))).run s =
      .ok timebase s₁) :
    ∃ divisors s₂, (calculateTimebaseDivider pl dispatcher).run (withTimebase timebase s₁) =
        .ok divisors s₂ ∧
      (∀ i (hi : i < programs.length),
        divisors[i]? = some 0 ↔ programs[i].samplingFrequency ≠ 0) ∧
      (¬∀ d ∈ divisors, 1 ≤ d) ∧
      ∀ (shifts : List Nat) (t t' : HilDeployer) (u : Unit), programs.length ≤ 32 →
        (setupSequencer pl programs.length divisors shifts).run t = .ok u t' →
        ∃ rs, t' = t.emit rs ∧ ∀ i (hi : i < programs.length),
          programs[i].samplingFrequency ≠ 0 →
            .write (u64 (dividerAddress t.addresses i)) 0xFFFFFFFF ∈ rs := by
  obtain ⟨-, ht, rfl⟩ := accumulateLcm_programs_eq_ok.1 hfold
  have hzero : timebase = 0 := by
    simp [ht, frequencyLcm_eq_zero.2 hfree, int32]
  subst hzero
  have hdivisor : ∀ i (hi : i < programs.length),
      (programs.map (coreDivider pl 0))[i]? = some 0 ↔ programs[i].samplingFrequency ≠ 0 := by
    intro i hi
    rw [List.getElem?_map, List.getElem?_eq_getElem hi, Option.map_some, Option.some_inj,
      coreDivider_zero]
  refine ⟨programs.map (coreDivider pl 0), _, (calculateTimebaseDivider_eq_ok hp).2
    ⟨rfl, rfl⟩, hdivisor, fun hpos => ?_, fun shifts t t' u hlen hrun => ?_⟩
  · obtain ⟨p, hpm, hclock⟩ := hclocked
    have hone := hpos _ (List.mem_map_of_mem hpm)
    rw [(coreDivider_zero pl p).2 hclock] at hone
    omega
  · obtain ⟨-, -, rfl⟩ := setupSequencer_eq_ok.1 hrun
    rw [u16_length hlen]
    exact ⟨_, rfl, fun i hi hclock => write_dividerAddress_mem hi ((hdivisor i hi).2 hclock)⟩

/-- A free-running program and one at 100 Hz. -/
def mixedPair : List DeployedProgram :=
  [⟨"a", 0, 1, 0, 1, [], ⟨50, 0⟩, []⟩, ⟨"b", 1, 2, 100, 1, [], ⟨50, 0⟩, []⟩]

/-- The second of two programs gets a divider of zero. -/
theorem mixed_dividers_pair : ∃ divisors s₂,
    (calculateTimebaseDivider .zeros (.returning mixedPair [])).run
      (withTimebase 0 fresh) = .ok divisors s₂ ∧ divisors[1]? = some 0 := by
  have hfold : (accumulateLcm 1 (mixedPair.map (·.samplingFrequency.toNat))).run fresh =
      .ok 0 fresh := by
    rw [accumulateLcm_programs_eq_ok, frequencyLcm_eq_zero.2 (by decide)]
    exact ⟨⟨by decide, by decide, trivial⟩, by simp [int32], rfl⟩
  obtain ⟨divisors, s₂, hrun, hdivisor, -⟩ := @mixed_dividers .zeros
    (.returning mixedPair []) mixedPair rfl (by decide) (by decide) 0 fresh fresh hfold
  exact ⟨divisors, s₂, hrun, (hdivisor 1 (by decide)).2 (by decide)⟩

/-- Deployed together, the clocked program of the pair gets a wrapped divider. -/
theorem deploy_mixedPair : ∃ u s', (deploy (Environment.of (fun _ : Unit =>
    .returning mixedPair []) fun _ => 1) ()).run fresh = .ok u s' ∧
      (⟨[dividerAddress fresh.addresses 1], [0xFFFFFFFF], .controlPlaneWrite⟩ : BusOp) ∈
        s'.hw.busses.operations :=
  Exec.exists_of_returnsIn (by decide +kernel)

end HilDeployer

end UscopeDriver
