import UscopeDriver.Cache
import UscopeDriver.Schedule

/-!
# The channels that a core runs

The number of channels that a core is set to is that of its pipeline, not that of its program. It
goes to the control register of the core, and the timebase is made for it (`UsesChannels`). The
pipeline has 11 stages, and a program may have 16 channels (`channels_suffice_iff`).
-/

namespace UscopeDriver

namespace HilDeployer

open LastWrite

variable {Spec : Type} {env : Environment Spec}

/-! ## Every core is a full core -/

/-- A call leaves the object. -/
theorem sameObject_call {call : HilCall Spec} {s s' : HilDeployer}
    (h : Exec.settle Failure.Fatal (call.exec env) s = some s') : SameObject s s' := by
  rcases call with
    obj | arguments | specs | ⟨channel, output⟩ | ⟨core, name, channel, value⟩ | _ | _
  · exact (sameObject_direct (by trivial) h).1
  · exact (sameObject_deploy h).1
  · rw [HilCall.exec, Exec.settle_discard] at h
    rcases settle_getHardwareSimData h with ⟨-, rfl⟩ | ⟨-, ⟨u, t, hrun, rfl⟩ | ⟨e, he, hrun⟩⟩
    · exact ⟨rfl, rfl, rfl⟩
    · obtain ⟨hclock, hfull, hloaded⟩ := (sameObject_deploy (Exec.settle_of_ok hrun)).1
      exact ⟨hclock, hfull, hloaded⟩
    · obtain ⟨hclock, hfull, hloaded⟩ :=
        (sameObject_deploy (Exec.settle_eq_some.2 (Or.inr ⟨e, he, hrun⟩))).1
      exact ⟨hclock, hfull, hloaded⟩
  · exact (sameObject_direct (by trivial) h).1
  · exact (sameObject_direct (by trivial) h).1
  · exact (sameObject_direct (by trivial) h).1
  · exact (sameObject_direct (by trivial) h).1

/-- No call makes another object of the deployer. -/
theorem sameObject_history {history : List (HilCall Spec)} {start s : HilDeployer}
    (h : Exec.settleAll Failure.Fatal (HilCall.exec env) history start = some s) :
    SameObject start s := by
  have hstep : ∀ (call : HilCall Spec) (_ : Unit) (t t' : HilDeployer), SameObject start t →
      Exec.settle Failure.Fatal (call.exec env) t = some t' → SameObject start t' :=
    fun call _ t t' ht hcall => ht.trans (sameObject_call hcall)
  exact Exec.settleAll_simulation (g := fun _ _ => ()) (b := ()) hstep ⟨rfl, rfl, rfl⟩ h

/-- With full cores only, every program gets 11 channels. -/
theorem specChannels_full (isa : FcoreIsa) {programs : List DeployedProgram} {p : DeployedProgram}
    (hp : p ∈ programs) : specChannels isa true programs p.name = 11 := by
  have hkey : p.name ∈ (programs.map fun q =>
      (q.name, checkReciprocal isa true q.binary)).map Prod.fst := by
    rw [List.map_map]
    exact List.mem_map_of_mem (f := Prod.fst ∘ fun q : DeployedProgram =>
      (q.name, checkReciprocal isa true q.binary)) hp
  obtain ⟨n, hn⟩ := Option.ne_none_iff_exists'.1 (mt lastValue_eq_none.1 (not_not.2 hkey))
  obtain ⟨q, -, hq⟩ := List.mem_map.1 (mem_of_lastValue hn)
  obtain ⟨-, rfl⟩ := Prod.mk.inj hq
  rw [specChannels, store_apply, hn, checkReciprocal, Bool.or_true, if_pos rfl]
  rfl

/-! ## What the counts are used for -/

/-- A deployment of the programs from `s` to `s'` uses these channel counts : for the control
registers, for the divider of the timebase and for the shifts. -/
structure UsesChannels (env : Environment Spec) (programs : List DeployedProgram)
    (s s' : HilDeployer) (nChannels : String → Nat) : Prop where
  written : ∃ before, s'.hw.busses.operations = before ++ s.hw.logged (programs.map fun p =>
    regWrite (controlAddress s.addresses p.index.toNat) (nChannels p.name))
  divider : s'.timebaseDivider = programs.foldl (fun d p =>
    if p.samplingFrequency ≠ 0 then
      fitDivider s.hilClockFrequency s'.timebaseFrequency (programLength nChannels p) d
    else d) s.timebaseDivider
  shift : s'.minTimebase = extendTimebase 0 (env.sort.sort (programs.map fun p =>
    ⟨p.name, s'.executionOrder p.name, programLength nChannels p⟩))

/-- The divider is fitted to the counts that the deployment ends with. -/
theorem prepared_timebaseDivider (env : Environment Spec) (arguments : Spec)
    (programs : List DeployedProgram) (slots : List DeployerInterconnectSlot) (s : HilDeployer) :
    (prepared env arguments programs slots s).timebaseDivider = programs.foldl (fun d p =>
      if p.samplingFrequency ≠ 0 then fitDivider s.hilClockFrequency
        (prepared env arguments programs slots s).timebaseFrequency
        (programLength (prepared env arguments programs slots s).nChannels p) d
      else d) s.timebaseDivider := by
  unfold prepared
  generalize int32 (frequencyLcm programs) = t
  rfl

/-- So is the shortest period. -/
theorem prepared_shifts (env : Environment Spec) (arguments : Spec)
    (programs : List DeployedProgram) (slots : List DeployerInterconnectSlot) (s : HilDeployer) :
    (prepared env arguments programs slots s).minTimebase =
      extendTimebase 0 (env.sort.sort (programs.map fun p => ⟨p.name,
        (prepared env arguments programs slots s).executionOrder p.name,
        programLength (prepared env arguments programs slots s).nChannels p⟩)) := by
  unfold prepared
  generalize int32 (frequencyLcm programs) = t
  rfl

/-- A deployment tells the cores the channels that it has stored for them. -/
theorem usesChannels_of_deploy {arguments : Spec} {programs : List DeployedProgram}
    (hprograms : (env.dispatcher arguments).getPrograms = .ok programs) {s s' : HilDeployer}
    {u : Unit} (hrun : (deploy env arguments).run s = .ok u s') :
    UsesChannels env programs s s' s'.nChannels ∧
      ∀ p ∈ programs, s'.nChannels p.name =
        specChannels env.isa s.fullCoresOverride programs p.name := by
  obtain ⟨programs', slots, memories, hel, -, -, rfl⟩ := deploy_eq_ok.1 hrun
  obtain rfl := hel.programs_eq hprograms
  set t := prepared env arguments programs' slots s
  have hchannels : (deployed env arguments programs' t).nChannels = t.nChannels :=
    deployed_nChannels env arguments programs' t
  refine ⟨⟨⟨s.hw.logged (programs'.map (loadRequest s.addresses) ++
      setupRequests env arguments programs' memories t ++ sequencerRequests s.addresses
        (timebasePeriod env.platform t) programs'.length (dividers env.platform programs' t)
        (shifts env.sort programs' t)), ?_⟩, ?_, ?_⟩, fun p hp => ?_⟩
  · have hcores : (programs'.map fun p => regWrite (controlAddress s.addresses p.index.toNat)
        ((deployed env arguments programs' t).nChannels p.name)) = programs'.map t.coreRequest := by
      rw [hchannels]
      rfl
    change _ = _ ++ s.hw.logged (programs'.map fun p => regWrite
      (controlAddress s.addresses p.index.toNat) ((deployed env arguments programs' t).nChannels
        p.name))
    have haddresses : t.addresses = s.addresses := rfl
    rw [operations_deployed, hcores, ← FpgaBridge.logged_append, deploymentRequests, writeRequests,
      haddresses, ← List.append_assoc, ← List.append_assoc]
  · change (deployed env arguments programs' t).timebaseDivider = programs'.foldl (fun d p =>
      if p.samplingFrequency ≠ 0 then fitDivider s.hilClockFrequency
        (deployed env arguments programs' t).timebaseFrequency
        (programLength (deployed env arguments programs' t).nChannels p) d
      else d) s.timebaseDivider
    rw [deployed_timebaseDivider, deployed_timebaseFrequency, hchannels]
    exact prepared_timebaseDivider env arguments programs' slots s
  · change (deployed env arguments programs' t).minTimebase =
      extendTimebase 0 (env.sort.sort (programs'.map fun p => ⟨p.name,
        (deployed env arguments programs' t).executionOrder p.name,
        programLength (deployed env arguments programs' t).nChannels p⟩))
    rw [deployed_minTimebase, deployed_executionOrder, hchannels]
    exact prepared_shifts env arguments programs' slots s
  · change (deployed env arguments programs' t).nChannels p.name = _
    rw [hchannels, prepared_nChannels env arguments slots s hp]

/-- Both counts of a program are enough for its channels and for its pipeline. -/
def RunsAllChannels (isa : FcoreIsa) (fullCoresOverride : Bool) (nChannels : String → Nat)
    (p : DeployedProgram) : Prop :=
  p.nChannels.toNat ≤ nChannels p.name ∧
    checkReciprocal isa fullCoresOverride p.binary ≤ nChannels p.name

/-- After any history, a deployment uses counts that are enough for every program with 1 to 16
channels just when these have at most 11. -/
theorem channels_suffice_iff {hw : FpgaBridge} {addresses : LogicLayout} {clock : {f : ℚ // 0 < f}}
    {history : List (HilCall Spec)} {s : HilDeployer}
    (hhistory : Exec.settleAll Failure.Fatal (HilCall.exec env) history
      (construct hw addresses clock) = some s) {arguments : Spec} {programs : List DeployedProgram}
    (hprograms : (env.dispatcher arguments).getPrograms = .ok programs) {s' : HilDeployer}
    {u : Unit}
    (hrun : (deploy env arguments).run s = .ok u s') :
    UsesChannels env programs s s' s'.nChannels ∧
      ((∀ p ∈ programs, 1 ≤ p.nChannels.toNat → p.nChannels.toNat ≤ 16 →
          RunsAllChannels env.isa s.fullCoresOverride s'.nChannels p) ↔
        ∀ p ∈ programs, 1 ≤ p.nChannels.toNat → p.nChannels.toNat ≤ 16 →
          p.nChannels.toNat ≤ 11) := by
  obtain ⟨huses, hcounts⟩ := usesChannels_of_deploy hprograms hrun
  refine ⟨huses, forall₂_congr fun p hp => ?_⟩
  have hfull : s.fullCoresOverride = true := (sameObject_history hhistory).fullCoresOverride
  have hpipeline : checkReciprocal env.isa true p.binary = 11 := by
    rw [checkReciprocal, Bool.or_true, if_pos rfl]
  rw [RunsAllChannels, hcounts p hp, hfull, specChannels_full env.isa hp, hpipeline,
    and_iff_left le_rfl]

/-- A program with `n` channels. -/
def coreOfChannels (n : UInt32) : DeployedProgram :=
  ⟨"core", 0, 1, 100, n, [], ⟨10, 2⟩, []⟩

/-- The specification is the number of channels of its one core. -/
def withChannels : Environment UInt32 :=
  .of (fun n => .returning [coreOfChannels n] []) fun _ => 1

/-- Four channels on a core that is long enough. -/
theorem channels_suffice_for_four : ∃ u s', (deploy withChannels 4).run fresh = .ok u s' ∧
    RunsAllChannels withChannels.isa true s'.nChannels (coreOfChannels 4) := by
  obtain ⟨u, s', hrun, -⟩ : ∃ u s', (deploy withChannels 4).run fresh = .ok u s' ∧ True :=
    Exec.exists_of_returnsIn (by decide +kernel)
  have hiff := (@channels_suffice_iff _ withChannels _ _ _ [] fresh rfl 4 _ rfl _ _ hrun).2
  exact ⟨u, s', hrun, hiff.2 (by decide) _ (List.mem_singleton_self _) (by decide) (by decide)⟩

/-- Of 12 channels one is not run. -/
theorem twelve_channels : ∃ u s', (deploy withChannels 12).run fresh = .ok u s' ∧
    ¬RunsAllChannels withChannels.isa true s'.nChannels (coreOfChannels 12) := by
  obtain ⟨u, s', hrun, hchannels⟩ : ∃ u s', (deploy withChannels 12).run fresh = .ok u s' ∧
      s'.nChannels "core" = 11 := Exec.exists_of_returnsIn (by decide +kernel)
  refine ⟨u, s', hrun, fun h => ?_⟩
  have hle : 12 ≤ s'.nChannels "core" := h.1
  omega

end HilDeployer

end UscopeDriver
