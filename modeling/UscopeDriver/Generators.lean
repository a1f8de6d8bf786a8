import UscopeDriver.History

/-!
# The generators after a run of deployments

The noise generator and the waveform generator are shared by all cores. A deployment counts their
channels while it sets the inputs up, and writes the counts on the way. A deployment with no random
input never writes the number of the noise generator, one with no waveform never that of the other :
these registers keep what an earlier deployment wrote. So they are right just when the last
deployment has such inputs or no earlier one had (`generators_reflect_iff`).
-/

namespace UscopeDriver

open LastWrite

/-! ## The value of a register -/

/-- The word of the register window that a write goes to. -/
def registerWord (controlAddr address : Nat) : Nat :=
  (u64 address - controlAddr) / 4

/-- What a request stores in the register window. -/
def Request.registerWrite (controlAddr : Nat) : Request → Option (Nat × Nat)
  | .write address value => some ((address - controlAddr) / 4, u32 value)
  | .load _ _ => none

/-- The last value that a list of requests stores behind an address. -/
def lastWritten (controlAddr : Nat) (rs : List Request) (address : Nat) : Option Nat :=
  lastValue (rs.filterMap (Request.registerWrite controlAddr)) (registerWord controlAddr address)

/-- The values that a log writes to an address, in order. -/
def valuesWritten (address : Nat) (ops : List BusOp) : List Nat :=
  ops.flatMap fun o =>
    if o.type = .controlPlaneWrite ∧ o.address = [u64 address] then o.data else []

/-- The value of the register behind an address. -/
def BusAccessor.registerValue (b : BusAccessor) (address : Nat) : Nat :=
  b.registers (registerWord b.controlAddr address)

section LastWritten

variable (controlAddr : Nat)

/-- Requests store the values of their register writes. -/
theorem foldl_store (rs : List Request) (registers : Nat → Nat) :
    rs.foldl (Request.store controlAddr) registers =
      store registers (rs.filterMap (Request.registerWrite controlAddr)) := by
  induction rs generalizing registers with
  | nil => rfl
  | cons r rs ih =>
    rw [List.foldl_cons, ih]
    cases r <;> rfl

/-- The last write wins. -/
theorem BusAccessor.registerValue_performAll {b : BusAccessor} (h : b.sinkMode = false)
    (rs : List Request) (address : Nat) :
    (b.performAll rs).registerValue address =
      (lastWritten b.controlAddr rs address).getD (b.registerValue address) := by
  have hregisters : (b.performAll rs).registers =
      rs.foldl (Request.store b.controlAddr) b.registers := by
    simp [BusAccessor.performAll, h]
  rw [BusAccessor.registerValue, hregisters, foldl_store, store_apply]
  rfl

@[simp] theorem lastWritten_nil (address : Nat) : lastWritten controlAddr [] address = none := rfl

/-- The last write of two lists is that of the second, if it has one. -/
theorem lastWritten_append (rs rs' : List Request) (address : Nat) :
    lastWritten controlAddr (rs ++ rs') address =
      (lastWritten controlAddr rs' address).or (lastWritten controlAddr rs address) := by
  rw [lastWritten, List.filterMap_append, lastValue_append]
  rfl

/-- A register write is one to its word. -/
theorem registerWrite_regWrite (a v : Nat) :
    (regWrite a v).registerWrite controlAddr = some (registerWord controlAddr a, u32 v) := by
  rw [regWrite, Request.registerWrite, u32_u32]
  rfl

/-- A write counts unless a later one is to the same word. -/
theorem lastWritten_cons (a v : Nat) (rs : List Request) (address : Nat) :
    lastWritten controlAddr (regWrite a v :: rs) address =
      (lastWritten controlAddr rs address).or
        (if registerWord controlAddr address = registerWord controlAddr a then some (u32 v)
          else none) := by
  rw [lastWritten, List.filterMap_cons, registerWrite_regWrite, lastValue_cons]
  rfl

variable {controlAddr}

/-- Writes to other words do not count. -/
theorem lastWritten_eq_none {A : Nat → Prop} {rs : List Request} (h : OnlyWrites A rs)
    {address : Nat}
    (hA : ∀ a, A a → registerWord controlAddr a ≠ registerWord controlAddr address) :
    lastWritten controlAddr rs address = none := by
  induction rs with
  | nil => rfl
  | cons r rs ih =>
    obtain ⟨⟨a, v, ha, rfl⟩, hrs⟩ := List.forall_mem_cons.1 h
    rw [lastWritten_cons, ih hrs, if_neg (hA a ha).symm, Option.none_or]

/-- The values that a register gets, one list after the other. -/
theorem valuesWritten_append (address : Nat) (ops ops' : List BusOp) :
    valuesWritten address (ops ++ ops') = valuesWritten address ops ++ valuesWritten address ops' :=
  List.flatMap_append

/-- A write gives its value to its register only. -/
theorem valuesWritten_regWrite (address a v : Nat) :
    valuesWritten address [(regWrite a v).op] = if u64 a = u64 address then [u32 v] else [] := by
  simp [valuesWritten, regWrite, Request.op]

/-- Writes to other registers give none. -/
theorem valuesWritten_eq_nil {A : Nat → Prop} {rs : List Request} (h : OnlyWrites A rs)
    {address : Nat}
    (hA : ∀ a, A a → registerWord controlAddr a ≠ registerWord controlAddr address) :
    valuesWritten address (rs.map Request.op) = [] := by
  induction rs with
  | nil => rfl
  | cons r rs ih =>
    obtain ⟨⟨a, v, ha, rfl⟩, hrs⟩ := List.forall_mem_cons.1 h
    have hne : u64 a ≠ u64 address := fun heq => hA a ha (by rw [registerWord, heq, registerWord])
    rw [List.map_cons, ← List.singleton_append, valuesWritten_append, valuesWritten_regWrite,
      if_neg hne, ih hrs, List.nil_append]

/-- Loads give none. -/
theorem valuesWritten_loads (addresses : LogicLayout) (programs : List DeployedProgram)
    (address : Nat) :
    valuesWritten address ((programs.map (HilDeployer.loadRequest addresses)).map Request.op) =
      [] := by
  simp [valuesWritten, HilDeployer.loadRequest, Request.op]

/-- Neither is a load the last write of a register. -/
theorem lastWritten_loads (addresses : LogicLayout) (programs : List DeployedProgram)
    (address : Nat) :
    lastWritten controlAddr (programs.map (HilDeployer.loadRequest addresses)) address = none := by
  have hloads : (programs.map (HilDeployer.loadRequest addresses)).filterMap
      (Request.registerWrite controlAddr) = [] := by
    simp [Request.registerWrite, HilDeployer.loadRequest]
  rw [lastWritten, hloads, lastValue_nil]

end LastWritten

/-! ## One action of the inputs stage -/

/-- The words of the generators are apart from each other and from those of the registers
`others`, for up to `n` channels of the noise generator. -/
structure GeneratorsApart (controlAddr noise wave n : Nat) (others : Nat → Prop) : Prop where
  others_noise : ∀ a, others a → ∀ k ≤ n,
    registerWord controlAddr a ≠ registerWord controlAddr (noise + u32 (k * 4))
  others_wave : ∀ a, others a → ∀ k < 10,
    registerWord controlAddr a ≠ registerWord controlAddr (wave + 4 * k)
  noise_wave : ∀ k ≤ n, ∀ j < 10,
    registerWord controlAddr (noise + u32 (k * 4)) ≠ registerWord controlAddr (wave + 4 * j)
  noise_injective : ∀ j ≤ n, ∀ k ≤ n, registerWord controlAddr (noise + u32 (j * 4)) =
    registerWord controlAddr (noise + u32 (k * 4)) → j = k
  wave_injective : ∀ j < 10, ∀ k < 10, registerWord controlAddr (wave + 4 * j) =
    registerWord controlAddr (wave + 4 * k) → j = k

/-- An action that finds what it reads, for an input of these generators or of the engines behind
the registers `others`. -/
def InputAction.Placed (noise wave : Nat) (others : Nat → Prop) : InputAction → Prop
  | .setup c => c.Ready ∧
      (c.input.sourceType.IsConstant → OnlyWrites others c.constantRequests) ∧
      (c.input.sourceType = .randomInput → c.ipAddress = noise) ∧
      (c.input.sourceType = .waveformInput → c.ipAddress = wave)
  | _ => True

/-- The requests of an action, by what it is for. -/
inductive ActionRequests (pl : Platform) (noise wave : Nat) (others : Nat → Prop)
    (s : HilDeployer) : InputAction → List Request → Prop
  | other {a : InputAction} {rs : List Request} (h : OnlyWrites others rs)
      (hrandom : a.generated .randomInput = none) (hwave : a.generated .waveformInput = none)
      (henable : a ≠ .enableRandom) : ActionRequests pl noise wave others s a rs
  | random {c : InputSetup} (h : c.input.sourceType = .randomInput) :
      ActionRequests pl noise wave others s (.setup c)
        [regWrite (noise + u32 ((s.activeRandomInputs + 1) * 4)) c.dest]
  | waveform {c : InputSetup} (p : SquareWaveParameters)
      (h : c.input.sourceType = .waveformInput) :
      ActionRequests pl noise wave others s (.setup c)
        (InputSetup.squareRequests pl wave c.dest c.waveformChannel s.activeWaveforms
          s.hilClockFrequency p)
  | enable : ActionRequests pl noise wave others s .enableRandom
      (if s.activeRandomInputs > 0 then [regWrite noise s.activeRandomInputs] else [])

theorem actionRequests (pl : Platform) {noise wave : Nat} {others : Nat → Prop} {a : InputAction}
    (hplaced : a.Placed noise wave others) {s : HilDeployer}
    (hnoise : s.addresses.bases.noiseGenerator = noise) :
    ActionRequests pl noise wave others s a (a.requests pl s) := by
  cases a with
  | setup c =>
    obtain ⟨hready, hconstant, hrandom, hwave⟩ := hplaced
    change ActionRequests pl noise wave others s (.setup c) (c.requests pl s.toDeployerBase)
    cases hs : c.input.sourceType with
    | constantInput =>
      rw [InputSetup.requests_of_isConstant pl (Or.inl hs)]
      exact .other (hconstant (Or.inl hs)) (by simp [InputAction.generated, hs])
        (by simp [InputAction.generated, hs]) (by rintro ⟨⟩)
    | timeSeriesInput =>
      rw [InputSetup.requests_of_isConstant pl (Or.inr hs)]
      exact .other (hconstant (Or.inr hs)) (by simp [InputAction.generated, hs])
        (by simp [InputAction.generated, hs]) (by rintro ⟨⟩)
    | randomInput =>
      rw [InputSetup.requests_of_random pl hs, InputSetup.randomRequests, hrandom hs]
      exact .random hs
    | waveformInput =>
      obtain ⟨p, hp⟩ := InputSetup.requests_of_waveform pl hs hready s.toDeployerBase
      rw [hp, hwave hs]
      exact .waveform p hs
    | external =>
      have hnone : c.requests pl s.toDeployerBase = [] := by
        unfold InputSetup.requests
        rw [hs]
      rw [hnone]
      exact .other .nil (by simp [InputAction.generated, hs])
        (by simp [InputAction.generated, hs]) (by rintro ⟨⟩)
  | label path coreIdx => exact .other .nil rfl rfl (by rintro ⟨⟩)
  | enableRandom =>
    rw [← hnoise]
    exact .enable

/-- The channel of a generated input. -/
theorem generated_setup {type : SourceType} {c : InputSetup} (h : c.input.sourceType = type) :
    InputAction.generated type (.setup c) = some c.dest :=
  if_pos h

theorem generated_setup_of_ne {type : SourceType} {c : InputSetup}
    (h : c.input.sourceType ≠ type) : InputAction.generated type (.setup c) = none :=
  if_neg h

namespace ActionRequests

variable {pl : Platform} {controlAddr noise wave n : Nat} {others : Nat → Prop} {a : InputAction}
  {s : HilDeployer} {rs : List Request} (hr : ActionRequests pl noise wave others s a rs)
  (hapart : GeneratorsApart controlAddr noise wave n others)
  (hactive : s.activeRandomInputs + (a.generated .randomInput).toList.length ≤ n)

include hr hapart hactive

/-- An action writes at most the next destination of the noise generator. -/
theorem lastWritten_destination {k : Nat} (hk : k < n) :
    lastWritten controlAddr rs (noise + u32 ((k + 1) * 4)) =
      if k = s.activeRandomInputs then a.generated .randomInput else none := by
  cases hr with
  | other h hrandom hwave henable =>
    rw [lastWritten_eq_none h fun x hx => hapart.others_noise x hx _ hk, hrandom, ite_self]
  | @random c h =>
    have hdest : u32 c.dest = c.dest := u32_u32 _
    have hgenerated := generated_setup h
    have hn : s.activeRandomInputs < n := by rwa [hgenerated] at hactive
    have hword : registerWord controlAddr (noise + u32 ((k + 1) * 4)) =
        registerWord controlAddr (noise + u32 ((s.activeRandomInputs + 1) * 4)) ↔
          k = s.activeRandomInputs := by
      refine ⟨fun h => ?_, fun h => by rw [h]⟩
      have := hapart.noise_injective _ hk _ hn h
      omega
    simp [lastWritten_cons, hword, hdest, hgenerated]
  | @waveform c p h =>
    rw [lastWritten_eq_none (onlyWrites_squareRequests pl wave 0 _ _ _ _ p),
      generated_setup_of_ne (by simp [h]), ite_self]
    rintro _ ⟨j, hj, rfl⟩
    exact (hapart.noise_wave _ hk j hj).symm
  | enable =>
    have hne : registerWord controlAddr (noise + u32 ((k + 1) * 4)) ≠
        registerWord controlAddr noise := fun h => by
      have := hapart.noise_injective (k + 1) hk 0 (Nat.zero_le n) (by simpa [u32] using h)
      omega
    split_ifs <;> simp [lastWritten_cons, hne, InputAction.generated]

/-- Only the end of a program that follows a random input writes the number of channels. -/
theorem lastWritten_noise (h : a ≠ .enableRandom ∨ s.activeRandomInputs = 0) :
    lastWritten controlAddr rs noise = none := by
  have hzero : registerWord controlAddr noise =
    registerWord controlAddr (noise + u32 (0 * 4)) := rfl
  cases hr with
  | other h hrandom hwave henable =>
    exact lastWritten_eq_none h fun x hx => hapart.others_noise x hx 0 (Nat.zero_le n)
  | @random c hs =>
    have hgenerated := generated_setup hs
    have hn : s.activeRandomInputs < n := by rwa [hgenerated] at hactive
    rw [lastWritten_cons, if_neg fun heq => ?_]
    · rfl
    · have := hapart.noise_injective 0 (Nat.zero_le n) _ hn (hzero ▸ heq)
      omega
  | @waveform c p h =>
    refine lastWritten_eq_none (onlyWrites_squareRequests pl wave 0 _ _ _ _ p) ?_
    rintro _ ⟨j, hj, rfl⟩
    exact (hapart.noise_wave 0 (Nat.zero_le n) j hj).symm
  | enable =>
    have hactive : s.activeRandomInputs = 0 := by simpa using h
    simp [hactive]

/-- A waveform writes the number of channels of its generator. -/
theorem lastWritten_activeChannels :
    lastWritten controlAddr rs (wave + SquareWaveGen.activeChannels) =
      (a.generated .waveformInput).map fun _ => u32 (s.activeWaveforms + 1) := by
  have hregister : wave + SquareWaveGen.activeChannels = wave + 4 * 0 := rfl
  cases hr with
  | other h hrandom hwave henable =>
    rw [hwave]
    exact lastWritten_eq_none h fun x hx => hapart.others_wave x hx 0 (by omega)
  | @random c h =>
    have hn : s.activeRandomInputs < n := by rwa [generated_setup h] at hactive
    rw [generated_setup_of_ne (by simp [h]), hregister, lastWritten_cons,
      if_neg (hapart.noise_wave _ hn 0 (by omega)).symm]
    rfl
  | @waveform c p h =>
    rw [generated_setup h]
    simp [InputSetup.squareRequests, lastWritten_cons]
  | enable =>
    have hne := (hapart.noise_wave 0 (Nat.zero_le n) 0 (by omega)).symm
    rw [hregister]
    split_ifs
    · rw [lastWritten_cons, if_neg (by simpa [u32] using hne)]
      rfl
    · rfl

/-- A waveform is programmed under the number of those before it. -/
theorem valuesWritten_channelSelector :
    valuesWritten (wave + SquareWaveGen.channelSelector) (rs.map Request.op) =
      (a.generated .waveformInput).toList.map fun _ => u32 s.activeWaveforms := by
  have hregister : wave + SquareWaveGen.channelSelector = wave + 4 * 2 := rfl
  rw [hregister]
  cases hr with
  | other h hrandom hwave henable =>
    rw [hwave]
    exact valuesWritten_eq_nil h fun x hx => hapart.others_wave x hx 2 (by omega)
  | @random c h =>
    have hn : s.activeRandomInputs < n := by rwa [generated_setup h] at hactive
    rw [generated_setup_of_ne (by simp [h])]
    have hother : ∀ x, noise + u32 ((s.activeRandomInputs + 1) * 4) = x →
        registerWord controlAddr x ≠ registerWord controlAddr (wave + 4 * 2) := by
      rintro _ rfl
      exact hapart.noise_wave _ hn 2 (by omega)
    exact valuesWritten_eq_nil (.cons rfl .nil) hother
  | @waveform c p h =>
    have hrest : OnlyWrites (fun x => ∃ k < 10, k ≠ 2 ∧ x = wave + 4 * k)
        (InputSetup.squareRequests pl wave c.dest c.waveformChannel s.activeWaveforms
          s.hilClockFrequency p).tail :=
      .cons ⟨3, by omega, by omega, rfl⟩ <| .cons ⟨4, by omega, by omega, rfl⟩ <|
        .cons ⟨5, by omega, by omega, rfl⟩ <| .cons ⟨6, by omega, by omega, rfl⟩ <|
        .cons ⟨7, by omega, by omega, rfl⟩ <| .cons ⟨8, by omega, by omega, rfl⟩ <|
        .cons ⟨1, by omega, by omega, rfl⟩ <| .cons ⟨9, by omega, by omega, rfl⟩ <|
        .cons ⟨0, by omega, by omega, rfl⟩ .nil
    have hother : ∀ x, (∃ k < 10, k ≠ 2 ∧ x = wave + 4 * k) →
        registerWord controlAddr x ≠ registerWord controlAddr (wave + 4 * 2) := by
      rintro _ ⟨k, hk, hne, rfl⟩ heq
      exact hne (hapart.wave_injective k hk 2 (by omega) heq)
    have htail := valuesWritten_eq_nil hrest hother
    have hhead : valuesWritten (wave + 4 * 2)
        [(regWrite (wave + SquareWaveGen.channelSelector) s.activeWaveforms).op] =
          [u32 s.activeWaveforms] := by
      rw [valuesWritten_regWrite, hregister, if_pos rfl]
    rw [generated_setup h]
    exact (valuesWritten_append _ [_] _).trans (by rw [hhead]; exact congrArg _ htail)
  | enable =>
    have hother : ∀ x, noise = x →
        registerWord controlAddr x ≠ registerWord controlAddr (wave + 4 * 2) := by
      rintro _ rfl
      exact hapart.noise_wave 0 (Nat.zero_le n) 2 (by omega)
    split_ifs
    · exact valuesWritten_eq_nil (.cons rfl .nil) hother
    · rfl

end ActionRequests

/-! ## The inputs stage -/

/-- There is room for fewer channels than 32 bits can count. -/
theorem GeneratorsApart.lt {controlAddr noise wave n : Nat} {others : Nat → Prop}
    (h : GeneratorsApart controlAddr noise wave n others) : n < 2 ^ 30 := by
  by_contra hn
  -- the register of channel `2 ^ 30` is that of the number of channels
  have := h.noise_injective (2 ^ 30) (not_lt.1 hn) 0 (Nat.zero_le n) rfl
  norm_num at this

/-- An action counts one random input more if it is for one. -/
theorem activeRandomInputs_record (a : InputAction) (s : HilDeployer) :
    (a.record s).activeRandomInputs = if a.generated .randomInput = none then s.activeRandomInputs
      else u32 (s.activeRandomInputs + 1) := by
  cases a with
  | setup c =>
    simp only [InputAction.record, c.record_activeRandomInputs]
    split_ifs with hs hg hg
    · rw [generated_setup hs] at hg
      cases hg
    · rfl
    · rfl
    · exact absurd (generated_setup_of_ne hs) hg
  | label path coreIdx => rfl
  | enableRandom => rfl

/-- The count does not wrap while there is room. -/
theorem activeRandomInputs_record_of_lt {a : InputAction} {s : HilDeployer}
    (h : s.activeRandomInputs + (a.generated .randomInput).toList.length < 2 ^ 32) :
    (a.record s).activeRandomInputs =
      s.activeRandomInputs + (a.generated .randomInput).toList.length := by
  rw [activeRandomInputs_record]
  cases hg : a.generated .randomInput with
  | none => rfl
  | some d =>
    rw [hg] at h
    exact u32_of_lt h

/-- The same for waveforms. -/
theorem activeWaveforms_record (a : InputAction) (s : HilDeployer) :
    (a.record s).activeWaveforms = if a.generated .waveformInput = none then s.activeWaveforms
      else u32 (s.activeWaveforms + 1) := by
  cases a with
  | setup c =>
    simp only [InputAction.record, c.record_activeWaveforms]
    split_ifs with hs hg hg
    · rw [generated_setup hs] at hg
      cases hg
    · rfl
    · rfl
    · exact absurd (generated_setup_of_ne hs) hg
  | label path coreIdx => rfl
  | enableRandom => rfl

theorem filterMap_cons_toList {α β : Type} (f : α → Option β) (a : α) (as : List α) :
    (a :: as).filterMap f = (f a).toList ++ as.filterMap f := by
  rw [List.filterMap_cons]
  cases f a <;> rfl

/-- The requests of a list of actions, one action after the other. -/
inductive StageRequests (pl : Platform) (noise wave n : Nat) (others : Nat → Prop) :
    HilDeployer → List InputAction → List Request → Prop
  | nil (s : HilDeployer) : StageRequests pl noise wave n others s [] []
  | cons {s : HilDeployer} {a : InputAction} {actions : List InputAction} {rs rs' : List Request}
      (hr : ActionRequests pl noise wave others s a rs)
      (hactive : s.activeRandomInputs + (a.generated .randomInput).toList.length ≤ n)
      (hrecord : (a.record s).activeRandomInputs =
        s.activeRandomInputs + (a.generated .randomInput).toList.length)
      (hrest : StageRequests pl noise wave n others (a.record s) actions rs') :
      StageRequests pl noise wave n others s (a :: actions) (rs ++ rs')

theorem stageRequests (pl : Platform) {noise wave n : Nat} {others : Nat → Prop}
    (hn : n < 2 ^ 32) {actions : List InputAction} {s : HilDeployer}
    (hplaced : ∀ a ∈ actions, a.Placed noise wave others)
    (hnoise : s.addresses.bases.noiseGenerator = noise)
    (hactive : s.activeRandomInputs +
      (actions.filterMap (InputAction.generated .randomInput)).length ≤ n) :
    StageRequests pl noise wave n others s actions (InputAction.requestsOf pl actions s) := by
  induction actions generalizing s with
  | nil => exact .nil s
  | cons a actions ih =>
    rw [filterMap_cons_toList, List.length_append] at hactive
    have hrecord := @activeRandomInputs_record_of_lt a s (by omega)
    exact .cons (actionRequests pl (hplaced a (by simp)) hnoise) (by omega) hrecord
      (ih (fun b hb => hplaced b (by simp [hb])) (by rwa [InputAction.record_eq]) (by omega))

namespace StageRequests

variable {pl : Platform} {controlAddr noise wave n : Nat} {others : Nat → Prop} {s : HilDeployer}
  {actions : List InputAction} {rs : List Request}
  (h : StageRequests pl noise wave n others s actions rs)
  (hapart : GeneratorsApart controlAddr noise wave n others)

include h hapart

/-- The destinations go to the registers behind those of the channels before them. -/
theorem lastWritten_destinations :
    (∀ k < s.activeRandomInputs, k < n →
      lastWritten controlAddr rs (noise + u32 ((k + 1) * 4)) = none) ∧
    ∀ j, s.activeRandomInputs + j < n →
      lastWritten controlAddr rs (noise + u32 ((s.activeRandomInputs + j + 1) * 4)) =
        (actions.filterMap (InputAction.generated .randomInput))[j]? := by
  induction h with
  | nil s => exact ⟨fun _ _ _ => rfl, fun _ _ => rfl⟩
  | @cons s a actions rs rs' hr hactive hrecord hrest ih =>
    obtain ⟨ihbefore, ihafter⟩ := ih
    rw [hrecord] at ihbefore ihafter
    rw [filterMap_cons_toList]
    refine ⟨fun k hk hkn => ?_, fun j hj => ?_⟩
    · rw [lastWritten_append, ihbefore k (by omega) hkn,
        hr.lastWritten_destination hapart hactive hkn, if_neg (by omega)]
      rfl
    · rw [lastWritten_append, hr.lastWritten_destination hapart hactive hj]
      cases hg : a.generated .randomInput with
      | none =>
        rw [hg] at ihafter
        simpa using ihafter j hj
      | some d =>
        rw [hg] at ihbefore ihafter
        cases j with
        | zero => simp [ihbefore s.activeRandomInputs (by simp) (by omega)]
        | succ j =>
          have := ihafter j (by simpa using (by omega : s.activeRandomInputs + 1 + j < n))
          rw [if_neg (by omega)]
          simpa [Nat.add_assoc, Nat.add_comm 1] using this

/-- The end of the last program leaves the number of all random inputs, if there are any. -/
theorem lastWritten_noise (hlast : actions.getLast? = some .enableRandom) :
    lastWritten controlAddr rs noise =
      if s.activeRandomInputs +
          (actions.filterMap (InputAction.generated .randomInput)).length = 0 then none
      else some (u32 (s.activeRandomInputs +
        (actions.filterMap (InputAction.generated .randomInput)).length)) := by
  induction h with
  | nil s => cases hlast
  | @cons s a actions rs rs' hr hactive hrecord hrest ih =>
    rw [filterMap_cons_toList, List.length_append, lastWritten_append]
    cases actions with
    | nil =>
      obtain rfl : a = .enableRandom := by simpa using hlast
      cases hrest
      cases hr with
      | other _ _ _ henable => exact absurd rfl henable
      | enable =>
        by_cases hzero : s.activeRandomInputs = 0
        · simp [hzero, InputAction.generated]
        · simp [hzero, Nat.pos_of_ne_zero hzero, InputAction.generated, lastWritten_cons]
    | cons b actions =>
      rw [ih (by rwa [List.getLast?_cons_cons] at hlast), hrecord, Nat.add_assoc]
      split_ifs with hzero
      · rw [hr.lastWritten_noise hapart hactive (Or.inr (by omega))]
        rfl
      · rfl

/-- The last waveform leaves the number of all of them. -/
theorem lastWritten_waveforms :
    lastWritten controlAddr rs (wave + SquareWaveGen.activeChannels) =
      if (actions.filterMap (InputAction.generated .waveformInput)).length = 0 then none
      else some (u32 (s.activeWaveforms +
        (actions.filterMap (InputAction.generated .waveformInput)).length)) := by
  induction h with
  | nil s => rfl
  | @cons s a actions rs rs' hr hactive hrecord hrest ih =>
    rw [lastWritten_append, hr.lastWritten_activeChannels hapart hactive, ih,
      activeWaveforms_record, filterMap_cons_toList]
    cases hg : a.generated .waveformInput with
    | none => simp
    | some d =>
      by_cases hnone : (actions.filterMap (InputAction.generated .waveformInput)).length = 0
      · simp [hnone]
      · have hwrap : ∀ m, u32 (u32 (s.activeWaveforms + 1) + m) =
            u32 (s.activeWaveforms + (m + 1)) := fun m => by
          rw [u32, u32, Nat.mod_add_mod, Nat.add_assoc, Nat.add_comm 1, u32]
        simp [hnone, hwrap]

/-- The waveforms are programmed one after the other. -/
theorem valuesWritten_selectors (hwaves : s.activeWaveforms +
      (actions.filterMap (InputAction.generated .waveformInput)).length < 2 ^ 32) :
    valuesWritten (wave + SquareWaveGen.channelSelector) (rs.map Request.op) =
      List.range' s.activeWaveforms
        (actions.filterMap (InputAction.generated .waveformInput)).length := by
  induction h with
  | nil s => rfl
  | @cons s a actions rs rs' hr hactive hrecord hrest ih =>
    rw [filterMap_cons_toList, List.length_append] at hwaves
    rw [List.map_append, valuesWritten_append, hr.valuesWritten_channelSelector hapart hactive,
      filterMap_cons_toList]
    rw [activeWaveforms_record] at ih
    cases hg : a.generated .waveformInput with
    | none =>
      rw [hg] at ih hwaves
      simpa using ih (by simpa using hwaves)
    | some d =>
      rw [hg, Option.toList_some, List.length_singleton] at hwaves
      have hself : u32 s.activeWaveforms = s.activeWaveforms := u32_of_lt (by omega)
      have hnext : u32 (s.activeWaveforms + 1) = s.activeWaveforms + 1 := u32_of_lt (by omega)
      rw [hg, if_neg nofun, hnext] at ih
      rw [ih (by omega)]
      simp [hself, List.range'_succ]

end StageRequests

/-! ## One deployment -/

namespace EmulatorDispatcher

open HilDeployer

variable (dispatcher : EmulatorDispatcher) (addresses : LogicLayout)

/-- The bus destinations of the inputs of a type. Where the toolchain throws, there are none. -/
def generatorDestinations (type : SourceType) : List Nat :=
  UscopeDriver.generatorDestinations type (dispatcher.getPrograms.toOption.getD [])
    (inputsOf dispatcher)

/-- The registers that a deployment writes, but for those of the generators. -/
def OtherRegister (a : Nat) : Prop :=
  UscopeDriver.SetupRegister addresses (dispatcher.getPrograms.toOption.getD [])
    (dispatcher.getInterconnectSlots.toOption.getD [])
    (dispatcher.getMemoryInitializations.toOption.getD fun _ => [])
    (fun name => (inputsOf dispatcher name).filter (·.sourceType.IsConstant)) a ∨
  a = enableAddress addresses

/-- On this layout the registers of the generators are apart, for the channels of the
specification. -/
def GeneratorsApart (controlAddr : Nat) : Prop :=
  UscopeDriver.GeneratorsApart controlAddr addresses.bases.noiseGenerator
    addresses.bases.waveformGenerator (dispatcher.generatorDestinations .randomInput).length
    (dispatcher.OtherRegister addresses)

end EmulatorDispatcher

namespace HilDeployer

variable {Spec : Type} {env : Environment Spec}

section Deployment

variable {arguments : Spec} {programs : List DeployedProgram}
  {slots : List DeployerInterconnectSlot} {memories : String → List MemoryInitValue}
  (hel : Elaborates (env.dispatcher arguments) programs slots memories)

include hel

/-- The channels of a deployment, in the order in which they are set up. -/
theorem generated_deployed {type : SourceType} (h : type.IsGenerated) (addresses : LogicLayout) :
    (inputActions addresses (env.dispatcher arguments) programs).filterMap
        (InputAction.generated type) =
      (env.dispatcher arguments).generatorDestinations type := by
  rw [InputAction.generated_inputActions h, EmulatorDispatcher.generatorDestinations,
    hel.getPrograms]
  rfl

/-- The registers of a deployment that belong to no generator. -/
theorem otherRegister_eq (addresses : LogicLayout) (a : Nat) :
    (env.dispatcher arguments).OtherRegister addresses a =
      (SetupRegister addresses programs slots memories (fun name =>
        (inputsOf (env.dispatcher arguments) name).filter (·.sourceType.IsConstant)) a ∨
      a = enableAddress addresses) := by
  rw [EmulatorDispatcher.OtherRegister, hel.getPrograms, hel.getInterconnectSlots,
    hel.getMemoryInitializations]
  rfl

/-- The inputs stage reaches the generators and the constant engines. -/
theorem placed_inputActions {addresses : LogicLayout}
    (hready : ∀ a ∈ inputActions addresses (env.dispatcher arguments) programs, a.Ready) :
    ∀ a ∈ inputActions addresses (env.dispatcher arguments) programs,
      a.Placed addresses.bases.noiseGenerator addresses.bases.waveformGenerator
        ((env.dispatcher arguments).OtherRegister addresses) := by
  intro a ha
  cases a with
  | setup c =>
    obtain ⟨p, hp, hc⟩ := List.mem_flatMap.1 ha
    obtain ⟨input, hi, hinput, hip, -⟩ := setup_mem_ofProgram hc
    have htype : c.input.sourceType = input.sourceType := by rw [hinput]
    refine ⟨hready _ ha, fun hs => ?_, fun hs => ?_, fun hs => ?_⟩
    · refine (onlyWrites_constantRequests hs (generatorDestinations .randomInput programs
        fun name => (inputsOf (env.dispatcher arguments) name).filter
          (·.sourceType.IsConstant)).length).mono fun x hx => ?_
      rw [otherRegister_eq hel]
      rw [hip, htype] at hx
      refine Or.inl (.input hp (List.mem_filter.2 ⟨hi, ?_⟩) hx)
      simpa [htype] using hs
    · rw [hip, ← htype, hs]
      rfl
    · rw [hip, ← htype, hs]
      rfl
  | label path coreIdx => trivial
  | enableRandom => trivial

/-- The DMAs write none of the generators. -/
theorem onlyWrites_dmas (s : HilDeployer) :
    OnlyWrites ((env.dispatcher arguments).OtherRegister s.addresses)
      (programs.flatMap (prepared env arguments programs slots s).programDmaRequests) := by
  refine .flatMap fun p hp => (onlyWrites_dmaRequests _ _ _).mono fun a ha => ?_
  obtain ⟨q, hq, hname, hidx⟩ := exists_coresIdx_prepared env arguments slots s hp
  rw [hidx] at ha
  rw [otherRegister_eq hel]
  exact Or.inl (.dma hp hq hname ha)

/-- The memories write none of them. -/
theorem onlyWrites_memories (s : HilDeployer) :
    OnlyWrites ((env.dispatcher arguments).OtherRegister s.addresses)
      (programs.flatMap
        (programMemoryRequests memories (prepared env arguments programs slots s))) := by
  refine .flatMap fun p hp => .flatMap fun m hm => (onlyWrites_memoryRequests _ _ m).mono
    fun a ha => ?_
  obtain ⟨q, hq, hname, hidx⟩ := exists_coresIdx_prepared env arguments slots s hp
  rw [hidx] at ha
  rw [otherRegister_eq hel]
  exact Or.inl (.memory hp hq hname hm ha)

/-- The sequencer writes none of them. -/
theorem onlyWrites_sequencer (addresses : LogicLayout) (period : Nat)
    (divisors shifts : List Nat) :
    OnlyWrites ((env.dispatcher arguments).OtherRegister addresses)
      (sequencerRequests addresses period programs.length divisors shifts) := by
  refine (onlyWrites_sequencerRequests _ _ _ _ _).mono fun a ha => ?_
  rw [otherRegister_eq hel]
  exact ha.imp_left .sequencer

theorem onlyWrites_cores (s : HilDeployer) :
    OnlyWrites ((env.dispatcher arguments).OtherRegister s.addresses)
      (programs.map s.coreRequest) := by
  intro r hr
  obtain ⟨p, hp, rfl⟩ := List.mem_map.1 hr
  refine ⟨_, _, ?_, rfl⟩
  rw [otherRegister_eq hel]
  exact Or.inl (.core hp)

variable {controlAddr address : Nat} {s : HilDeployer}
  (hother : ∀ a, (env.dispatcher arguments).OtherRegister s.addresses a →
    registerWord controlAddr a ≠ registerWord controlAddr address)

include hother

/-- Only the inputs stage writes to the generators. -/
theorem lastWritten_deploymentRequests :
    lastWritten controlAddr (deploymentRequests env arguments programs memories
        (prepared env arguments programs slots s)) address =
      lastWritten controlAddr (InputAction.requestsOf env.platform
        (inputActions s.addresses (env.dispatcher arguments) programs)
          (labelPrograms programs (prepared env arguments programs slots s))) address := by
  have hdmas := lastWritten_eq_none (onlyWrites_dmas hel s) hother
  have hmemories := lastWritten_eq_none (onlyWrites_memories hel s) hother
  have hsequencer := fun period divisors shifts => lastWritten_eq_none
    (onlyWrites_sequencer hel s.addresses period divisors shifts) hother
  have hcores := lastWritten_eq_none
    (onlyWrites_cores hel (prepared env arguments programs slots s)) hother
  have haddresses : (prepared env arguments programs slots s).addresses = s.addresses := rfl
  simp only [deploymentRequests, writeRequests, setupRequests, lastWritten_append,
    lastWritten_loads, hdmas, hmemories, hsequencer, hcores, haddresses, Option.none_or,
    Option.or_none]

theorem valuesWritten_deploymentRequests :
    valuesWritten address ((deploymentRequests env arguments programs memories
        (prepared env arguments programs slots s)).map Request.op) =
      valuesWritten address ((InputAction.requestsOf env.platform
        (inputActions s.addresses (env.dispatcher arguments) programs)
          (labelPrograms programs (prepared env arguments programs slots s))).map Request.op) := by
  have hdmas := valuesWritten_eq_nil (onlyWrites_dmas hel s) hother
  have hmemories := valuesWritten_eq_nil (onlyWrites_memories hel s) hother
  have hsequencer := fun period divisors shifts => valuesWritten_eq_nil
    (onlyWrites_sequencer hel s.addresses period divisors shifts) hother
  have hcores := valuesWritten_eq_nil
    (onlyWrites_cores hel (prepared env arguments programs slots s)) hother
  have haddresses : (prepared env arguments programs slots s).addresses = s.addresses := rfl
  simp only [deploymentRequests, writeRequests, setupRequests, List.map_append,
    valuesWritten_append, valuesWritten_loads, hdmas, hmemories, hsequencer, hcores, haddresses,
    List.nil_append, List.append_nil]

end Deployment

/-! ## The registers of the generators after a deployment -/

/-- A bitstream is loaded and the bus is not muted. -/
structure Live (s : HilDeployer) : Prop where
  fpgaLoaded : s.hw.fpgaLoaded = true
  sinkMode : s.hw.busses.sinkMode = false

/-- The value of the register behind an address. -/
def registerValue (s : HilDeployer) (address : Nat) : Nat :=
  s.hw.busses.registerValue address

theorem Live.registerValue_emit {s : HilDeployer} (h : Live s) (rs : List Request)
    (address : Nat) : (s.emit rs).registerValue address =
      (lastWritten s.hw.busses.controlAddr rs address).getD (s.registerValue address) := by
  have hall : rs.filter s.hw.reachesBus = rs := by
    refine List.filter_eq_self.2 fun r _ => ?_
    cases r
    · exact h.fpgaLoaded
    · rfl
  rw [registerValue, emit_hw, FpgaBridge.performAll, hall]
  exact BusAccessor.registerValue_performAll h.sinkMode rs address

/-- What a deployment leaves in the generators. -/
structure SetsGenerators (dispatcher : EmulatorDispatcher) (s s' : HilDeployer) : Prop where
  noise : s'.registerValue s.addresses.bases.noiseGenerator =
    if (dispatcher.generatorDestinations .randomInput).length = 0 then
      s.registerValue s.addresses.bases.noiseGenerator
    else u32 (dispatcher.generatorDestinations .randomInput).length
  destinations : ∀ k (hk : k < (dispatcher.generatorDestinations .randomInput).length),
    s'.registerValue (s.addresses.bases.noiseGenerator + u32 ((k + 1) * 4)) =
      (dispatcher.generatorDestinations .randomInput)[k]
  activeChannels :
    s'.registerValue (s.addresses.bases.waveformGenerator + SquareWaveGen.activeChannels) =
      if (dispatcher.generatorDestinations .waveformInput).length = 0 then
        s.registerValue (s.addresses.bases.waveformGenerator + SquareWaveGen.activeChannels)
      else u32 (dispatcher.generatorDestinations .waveformInput).length
  selectors : (dispatcher.generatorDestinations .waveformInput).length < 2 ^ 32 →
    valuesWritten (s.addresses.bases.waveformGenerator + SquareWaveGen.channelSelector)
        s'.hw.busses.operations =
      List.range (dispatcher.generatorDestinations .waveformInput).length

/-- The inputs stage ends with the number of random inputs. -/
theorem getLast?_inputActions (addresses : LogicLayout) (dispatcher : EmulatorDispatcher)
    {programs : List DeployedProgram} (h : programs ≠ []) :
    (inputActions addresses dispatcher programs).getLast? = some .enableRandom := by
  rcases List.eq_nil_or_concat programs with rfl | ⟨first, p, rfl⟩
  · exact absurd rfl h
  · rw [inputActions, List.concat_eq_append, List.flatMap_append, List.flatMap_singleton,
      InputAction.ofProgram, ← List.append_assoc, List.getLast?_concat]

/-- A register that only the generators have ends as the inputs stage left it. -/
theorem registerValue_deployed {arguments : Spec} {programs : List DeployedProgram}
    {slots : List DeployerInterconnectSlot} {memories : String → List MemoryInitValue}
    (hel : Elaborates (env.dispatcher arguments) programs slots memories) {s : HilDeployer}
    (hlive : Live s) (address : Nat)
    (hother : ∀ a, (env.dispatcher arguments).OtherRegister s.addresses a →
      registerWord s.hw.busses.controlAddr a ≠ registerWord s.hw.busses.controlAddr address) :
    ((deployed env arguments programs (prepared env arguments programs slots s)).emit
        (deploymentRequests env arguments programs memories
          (prepared env arguments programs slots s))).registerValue address =
      (lastWritten s.hw.busses.controlAddr (InputAction.requestsOf env.platform
        (inputActions s.addresses (env.dispatcher arguments) programs)
          (labelPrograms programs (prepared env arguments programs slots s))) address).getD
        (s.registerValue address) := by
  have hhw := deployed_hw env arguments programs (prepared env arguments programs slots s)
  have hlive' : Live (deployed env arguments programs (prepared env arguments programs slots s)) :=
    ⟨by rw [hhw]; exact hlive.fpgaLoaded, by rw [hhw]; exact hlive.sinkMode⟩
  rw [hlive'.registerValue_emit, registerValue, hhw, ← lastWritten_deploymentRequests hel hother]
  rfl

theorem setsGenerators_of_deploy {arguments : Spec} {s s' : HilDeployer} {u : Unit}
    (h : (deploy env arguments).run s = .ok u s') (hlive : Live s)
    (hapart : (env.dispatcher arguments).GeneratorsApart s.addresses s.hw.busses.controlAddr) :
    SetsGenerators (env.dispatcher arguments) s s' := by
  obtain ⟨programs, slots, memories, hel, hd, -, rfl⟩ := deploy_eq_ok.1 h
  have hrandom := generated_deployed hel (.inl rfl : SourceType.randomInput.IsGenerated) s.addresses
  have hwave := generated_deployed hel (.inr rfl : SourceType.waveformInput.IsGenerated) s.addresses
  have hready : ∀ a ∈ inputActions s.addresses (env.dispatcher arguments) programs, a.Ready :=
    hd.inputsReady
  obtain ⟨l, hl, haddresses, hactive, hwaveforms⟩ : ∃ l,
      labelPrograms programs (prepared env arguments programs slots s) = l ∧
        l.addresses = s.addresses ∧ l.activeRandomInputs = 0 ∧ l.activeWaveforms = 0 :=
    ⟨_, rfl, rfl, rfl, rfl⟩
  have hstage := stageRequests env.platform (hapart.lt.trans (by norm_num))
    (placed_inputActions hel hready) (s := l) (by rw [haddresses])
    (by rw [hactive, hrandom, Nat.zero_add])
  refine ⟨?_, fun k hk => ?_, ?_, fun hlt => ?_⟩
  · have hlast := hstage.lastWritten_noise hapart (getLast?_inputActions _ _ hd.ne_nil)
    rw [hactive, hrandom, Nat.zero_add] at hlast
    rw [registerValue_deployed hel hlive s.addresses.bases.noiseGenerator fun a ha =>
      hapart.others_noise a ha 0 (Nat.zero_le _), hl, hlast]
    split_ifs <;> rfl
  · have hlast := (hstage.lastWritten_destinations hapart).2 k (by rwa [hactive, Nat.zero_add])
    rw [hactive, hrandom, Nat.zero_add, List.getElem?_eq_getElem hk] at hlast
    rw [registerValue_deployed hel hlive _ fun a ha => hapart.others_noise a ha (k + 1) hk, hl,
      hlast]
    rfl
  · have hlast := hstage.lastWritten_waveforms hapart
    rw [hwaveforms, hwave, Nat.zero_add] at hlast
    rw [registerValue_deployed hel hlive
      (s.addresses.bases.waveformGenerator + SquareWaveGen.activeChannels)
      fun a ha => hapart.others_wave a ha 0 (by norm_num), hl, hlast]
    split_ifs <;> rfl
  · have hvalues := hstage.valuesWritten_selectors hapart
    rw [hwaveforms, hwave, Nat.zero_add] at hvalues
    have hother := fun a ha => hapart.others_wave a ha 2 (by norm_num)
    rw [operations_deployed, FpgaBridge.logged_of_loaded hlive.fpgaLoaded, List.range_eq_range',
      ← hvalues hlt, ← hl]
    exact valuesWritten_deploymentRequests hel hother

/-! ## A run of deployments -/

/-- What a deployment leaves in a register that counts channels. -/
def countAfter (value channels : Nat) : Nat :=
  if channels = 0 then value else u32 channels

/-- The last number of a list that is not zero, if there is one. -/
def lastNonzero (counts : List Nat) : Nat :=
  (counts.filter (· ≠ 0)).getLastD 0

theorem lastNonzero_eq_zero {counts : List Nat} :
    lastNonzero counts = 0 ↔ ∀ n ∈ counts, n = 0 := by
  rw [lastNonzero, List.getLastD_eq_getLast?]
  cases h : (counts.filter (· ≠ 0)).getLast? with
  | none =>
    have hnil : counts.filter (· ≠ 0) = [] := List.getLast?_eq_none_iff.1 h
    simpa using hnil
  | some n =>
    obtain ⟨hn, hne⟩ := List.mem_filter.1 (List.mem_of_getLast? h)
    simp only [decide_eq_true_eq] at hne
    exact ⟨fun hzero => absurd hzero hne, fun hall => hall n hn⟩

theorem lastNonzero_lt {counts : List Nat} {b : Nat} (hb : 0 < b) (h : ∀ n ∈ counts, n < b) :
    lastNonzero counts < b := by
  rw [lastNonzero, List.getLastD_eq_getLast?]
  cases hlast : (counts.filter (· ≠ 0)).getLast? with
  | none => exact hb
  | some n => exact h n (List.mem_filter.1 (List.mem_of_getLast? hlast)).1

/-- The register counts the channels of the last deployment that had any. -/
theorem foldl_countAfter (counts : List Nat) :
    counts.foldl countAfter 0 = u32 (lastNonzero counts) := by
  induction counts using List.reverseRecOn with
  | nil => rfl
  | append_singleton counts n ih =>
    rw [List.foldl_append, List.foldl_cons, List.foldl_nil, ih, countAfter, lastNonzero,
      lastNonzero, List.filter_append]
    split_ifs with hn
    · simp [hn]
    · simp [hn]

/-- The bus and the layout after a run, and the registers that count channels. -/
structure CountsChannels (env : Environment Spec) (specs : List Spec) (s s' : HilDeployer) :
    Prop where
  addresses : s'.addresses = s.addresses
  live : Live s'
  controlAddr : s'.hw.busses.controlAddr = s.hw.busses.controlAddr
  noise : s'.registerValue s.addresses.bases.noiseGenerator =
    (specs.map fun spec =>
      ((env.dispatcher spec).generatorDestinations .randomInput).length).foldl countAfter
        (s.registerValue s.addresses.bases.noiseGenerator)
  activeChannels :
    s'.registerValue (s.addresses.bases.waveformGenerator + SquareWaveGen.activeChannels) =
      (specs.map fun spec =>
        ((env.dispatcher spec).generatorDestinations .waveformInput).length).foldl countAfter
          (s.registerValue (s.addresses.bases.waveformGenerator + SquareWaveGen.activeChannels))

/-- One deployment of a run. -/
theorem countsChannels_of_deploy {spec : Spec} {s s' : HilDeployer} {u : Unit}
    (h : (deploy env spec).run s = .ok u s') (hlive : Live s)
    (hapart : (env.dispatcher spec).GeneratorsApart s.addresses s.hw.busses.controlAddr) :
    CountsChannels env [spec] s s' := by
  have hkeeps := (frameAt_deploy env spec s).of_ok h
  obtain ⟨rs, hhw⟩ := hkeeps.hw
  have hsets := setsGenerators_of_deploy h hlive hapart
  exact ⟨hkeeps.addresses, ⟨by rw [hhw]; exact hlive.fpgaLoaded, by rw [hhw]; exact hlive.sinkMode⟩,
    by rw [hhw]; rfl, hsets.noise, hsets.activeChannels⟩

theorem countsChannels_of_run {specs : List Spec} {s s' : HilDeployer} {u : PUnit}
    (h : (forM specs (deploy env)).run s = .ok u s') (hlive : Live s)
    (hapart : ∀ spec ∈ specs,
      (env.dispatcher spec).GeneratorsApart s.addresses s.hw.busses.controlAddr) :
    CountsChannels env specs s s' := by
  induction specs generalizing s with
  | nil =>
    obtain ⟨-, rfl⟩ := Exec.pure_eq_ok.1 h
    exact ⟨rfl, hlive, rfl, rfl, rfl⟩
  | cons spec specs ih =>
    rw [List.forM_cons, Exec.bind_eq_ok] at h
    obtain ⟨v, t, hstep, hrest⟩ := h
    have hfirst := countsChannels_of_deploy hstep hlive (hapart spec (by simp))
    have hthen := ih hrest hfirst.live fun x hx => by
      rw [hfirst.addresses, hfirst.controlAddr]
      exact hapart x (by simp [hx])
    refine ⟨hthen.addresses.trans hfirst.addresses, hthen.live,
      hthen.controlAddr.trans hfirst.controlAddr, ?_, ?_⟩
    · have hnoise := hthen.noise
      rw [hfirst.addresses, hfirst.noise] at hnoise
      exact hnoise
    · have hactive := hthen.activeChannels
      rw [hfirst.addresses, hfirst.activeChannels] at hactive
      exact hactive

/-- The map of the tests is such a layout, up to the window between the two generators. -/
theorem generatorsApart_addrMapV2 {dispatcher : EmulatorDispatcher}
    (hprograms : (dispatcher.getPrograms.toOption.getD []).length ≤ 32)
    (hchannels : (dispatcher.generatorDestinations .randomInput).length < 16384) :
    dispatcher.GeneratorsApart .addrMapV2 BusAccessor.zynqmp.controlAddr := by
  have hword : ∀ a < 2 ^ 64, registerWord BusAccessor.zynqmp.controlAddr a =
      (a - 17179869184) / 4 := fun a ha => by
    rw [registerWord, u64_of_lt ha]
    rfl
  have hnoise : ∀ k < 16384, LogicLayout.addrMapV2.bases.noiseGenerator + u32 (k * 4) =
      18316722176 + 4 * k := fun k hk => by
    rw [u32_of_lt (by omega), Nat.mul_comm k]
    rfl
  have hwave : ∀ k, LogicLayout.addrMapV2.bases.waveformGenerator + 4 * k = 18316787712 + 4 * k :=
    fun _ => rfl
  have hother : ∀ a, dispatcher.OtherRegister .addrMapV2 a →
      18316591104 < a ∧ (a < 18316722172 ∨ 18316853248 ≤ a) ∧ a < 2 ^ 50 := by
    rintro a (ha | rfl)
    · rcases setupRegister_addrMapV2 ha with h | h | ⟨p, hp, i, hi, hg, h⟩
      · omega
      · have := sequencerRegister_addrMapV2 hprograms h
        omega
      · have hconstant : i.sourceType.IsConstant := by simpa using (List.mem_filter.1 hi).2
        rcases hg with hs | hs <;> simp [hs, SourceType.IsConstant] at hconstant
    · decide
  refine ⟨fun a ha k hk => ?_, fun a ha k hk => ?_, fun k hk j hj => ?_, fun j hj k hk h => ?_,
    fun j hj k hk h => ?_⟩
  · obtain ⟨h₁, h₂, h₃⟩ := hother a ha
    rw [hnoise k (by omega), hword a (by omega), hword _ (by omega)]
    omega
  · obtain ⟨h₁, h₂, h₃⟩ := hother a ha
    rw [hwave, hword a (by omega), hword _ (by omega)]
    omega
  · rw [hnoise k (by omega), hwave, hword _ (by omega), hword _ (by omega)]
    omega
  · rw [hnoise j (by omega), hnoise k (by omega), hword _ (by omega), hword _ (by omega)] at h
    omega
  · rw [hwave, hwave, hword _ (by omega), hword _ (by omega)] at h
    omega

/-- The generators reflect a specification. -/
structure ReflectsGenerators (dispatcher : EmulatorDispatcher) (s : HilDeployer) : Prop where
  noise : s.registerValue s.addresses.bases.noiseGenerator =
    (dispatcher.generatorDestinations .randomInput).length
  destinations : ∀ k (hk : k < (dispatcher.generatorDestinations .randomInput).length),
    s.registerValue (s.addresses.bases.noiseGenerator + u32 ((k + 1) * 4)) =
      (dispatcher.generatorDestinations .randomInput)[k]
  activeChannels :
    s.registerValue (s.addresses.bases.waveformGenerator + SquareWaveGen.activeChannels) =
      (dispatcher.generatorDestinations .waveformInput).length
  selectors : valuesWritten
      (s.addresses.bases.waveformGenerator + SquareWaveGen.channelSelector)
        s.hw.busses.operations =
    List.range (dispatcher.generatorDestinations .waveformInput).length

/-- The register counts the channels of the last deployment just when it had some, or no count of
an earlier one is left. -/
theorem countAfter_eq_iff {value channels : Nat} :
    countAfter value channels = channels ↔
      channels < 2 ^ 32 ∧ (channels ≠ 0 ∨ value = 0) := by
  have hlt := u32_lt channels
  unfold countAfter
  split_ifs with hzero
  · omega
  · refine ⟨fun h => ⟨by omega, Or.inl hzero⟩, fun h => u32_of_lt h.1⟩

/-- After a run of deployments on a live bus, from zero registers and on a layout that keeps the
registers of the generators apart, the generators reflect the last specification exactly when it has
a random input or no earlier one had, and it has a square wave or none is left of the earlier ones.
The counts have 32 bits. -/
theorem generators_reflect_iff {earlier : List Spec} {spec : Spec} {s s' : HilDeployer} {u : PUnit}
    (h : (forM (earlier ++ [spec]) (deploy env)).run s = .ok u s') (hlive : Live s)
    (hzero : s.hw.busses.registers = fun _ => 0)
    (hapart : ∀ x ∈ earlier ++ [spec],
      (env.dispatcher x).GeneratorsApart s.addresses s.hw.busses.controlAddr) :
    ReflectsGenerators (env.dispatcher spec) s' ↔
      (((env.dispatcher spec).generatorDestinations .randomInput) ≠ [] ∨
        ∀ x ∈ earlier, (env.dispatcher x).generatorDestinations .randomInput = []) ∧
      ((env.dispatcher spec).generatorDestinations .waveformInput).length < 2 ^ 32 ∧
      ((env.dispatcher spec).generatorDestinations .waveformInput ≠ [] ∨
        2 ^ 32 ∣ lastNonzero (earlier.map fun x =>
          ((env.dispatcher x).generatorDestinations .waveformInput).length)) := by
  rw [List.forM_append, Exec.bind_eq_ok] at h
  obtain ⟨v, t, hbefore, hlast⟩ := h
  obtain ⟨w, t', hlast, hend⟩ := Exec.bind_eq_ok.1 hlast
  obtain ⟨-, rfl⟩ := Exec.pure_eq_ok.1 hend
  have hrun := countsChannels_of_run hbefore hlive fun x hx => hapart x (by simp [hx])
  have hapart' : (env.dispatcher spec).GeneratorsApart t.addresses t.hw.busses.controlAddr := by
    rw [hrun.addresses, hrun.controlAddr]
    exact hapart spec (by simp)
  have hsets := setsGenerators_of_deploy hlast hrun.live hapart'
  have haddresses := (countsChannels_of_deploy hlast hrun.live hapart').addresses
  have hvalue : ∀ address, s.registerValue address = 0 := fun address => by
    rw [registerValue, BusAccessor.registerValue, hzero]
  have hnoise := hsets.noise
  have hactive := hsets.activeChannels
  rw [hrun.addresses, hrun.noise, hvalue, foldl_countAfter] at hnoise
  rw [hrun.addresses, hrun.activeChannels, hvalue, foldl_countAfter] at hactive
  have hcount : ∀ x ∈ earlier, ((env.dispatcher x).generatorDestinations .randomInput).length <
      2 ^ 32 := fun x hx => (hapart x (by simp [hx])).lt.trans (by norm_num)
  have hnoise_iff := @countAfter_eq_iff (u32 (lastNonzero (earlier.map fun x =>
    ((env.dispatcher x).generatorDestinations .randomInput).length)))
    ((env.dispatcher spec).generatorDestinations .randomInput).length
  have hactive_iff := @countAfter_eq_iff (u32 (lastNonzero (earlier.map fun x =>
    ((env.dispatcher x).generatorDestinations .waveformInput).length)))
    ((env.dispatcher spec).generatorDestinations .waveformInput).length
  have hlastNoise : u32 (lastNonzero (earlier.map fun x =>
      ((env.dispatcher x).generatorDestinations .randomInput).length)) = 0 ↔
      ∀ x ∈ earlier, (env.dispatcher x).generatorDestinations .randomInput = [] := by
    rw [u32_of_lt (lastNonzero_lt (by norm_num) (by simpa using hcount)), lastNonzero_eq_zero]
    simp
  rw [hlastNoise, ne_eq, List.length_eq_zero_iff] at hnoise_iff
  rw [ne_eq, List.length_eq_zero_iff] at hactive_iff
  constructor
  · rintro ⟨rnoise, -, ractive, -⟩
    rw [haddresses, hrun.addresses, hnoise] at rnoise
    rw [haddresses, hrun.addresses, hactive] at ractive
    obtain ⟨hlt, hwave⟩ := hactive_iff.1 ractive
    exact ⟨(hnoise_iff.1 rnoise).2, hlt, hwave.imp_right Nat.dvd_of_mod_eq_zero⟩
  · rintro ⟨hrandom, hlt, hwave⟩
    refine ⟨?_, ?_, ?_, ?_⟩
    · rw [haddresses, hrun.addresses, hnoise]
      exact hnoise_iff.2 ⟨(hapart spec (by simp)).lt.trans (by norm_num), hrandom⟩
    · rw [haddresses]
      exact hsets.destinations
    · rw [haddresses, hrun.addresses, hactive]
      exact hactive_iff.2 ⟨hlt, hwave.imp_right Nat.mod_eq_zero_of_dvd⟩
    · rw [haddresses]
      exact hsets.selectors hlt

/-- A core with a random input, and one without inputs. -/
def withAndWithoutNoise : Environment Bool :=
  .of (fun noise => .returning [⟨"core", 0, 1, 100, 1, [], ⟨10, 0⟩,
    if noise then
      [⟨"in", .randomInput, [1], [], ⟨.typeFloat, 32, true⟩, .square ⟨[], [], [], [], []⟩⟩]
    else []⟩] []) fun _ => 1

theorem generators_reflect_noise : ∃ u s',
    (forM [false, true] (deploy withAndWithoutNoise)).run fresh = .ok u s' ∧
      ReflectsGenerators (withAndWithoutNoise.dispatcher true) s' := by
  obtain ⟨u, s', h, -⟩ : ∃ u s',
      (forM [false, true] (deploy withAndWithoutNoise)).run fresh = .ok u s' ∧ True :=
    Exec.exists_of_returnsIn (by decide +kernel)
  refine ⟨u, s', h, (@generators_reflect_iff Bool withAndWithoutNoise [false] true fresh s' u h
    ⟨rfl, rfl⟩ rfl ?_).2 ⟨Or.inl (by decide), by decide, Or.inr (by decide)⟩⟩
  rintro (_ | _) - <;> exact generatorsApart_addrMapV2 (by decide) (by decide)

/-- After the core without inputs the noise generator still counts the input of the other. -/
theorem stale_noise : ∃ u s',
    (forM [true, false] (deploy withAndWithoutNoise)).run fresh = .ok u s' ∧
      ¬ReflectsGenerators (withAndWithoutNoise.dispatcher false) s' := by
  obtain ⟨u, s', h, hstale⟩ : ∃ u s',
      (forM [true, false] (deploy withAndWithoutNoise)).run fresh = .ok u s' ∧
        s'.registerValue s'.addresses.bases.noiseGenerator = 1 :=
    Exec.exists_of_returnsIn (by decide +kernel)
  refine ⟨u, s', h, fun hreflects => ?_⟩
  have hnoise := hreflects.noise
  rw [hstale] at hnoise
  revert hnoise
  decide

end HilDeployer

end UscopeDriver
