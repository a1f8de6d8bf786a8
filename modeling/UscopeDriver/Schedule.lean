import UscopeDriver.Deployment
import Mathlib.Algebra.Order.BigOperators.Group.List

/-!
# The schedule of a deployment

The shifts put the programs one after the other, in the order of the sort, with a buffer between
them : in closed form, each starts where the lengths and buffers of those before it end
(`placements`). The windows do not overlap (`shifts_separate`). Whether they fit the period, and
whether the dividers give the sampling frequencies, depends on the least common multiple of the
frequencies : `timebase_frequency` is an `int`, and nothing compares the period with the shifts.
-/

namespace UscopeDriver

namespace HilDeployer

open LastWrite

/-! ## Windows one after the other -/

/-- The length of a window and the buffer after it. -/
def slotLength (d : ShiftCalcData) : Nat :=
  d.programLength + interCoreBuffer

/-- The start of each window, the first at `start`. -/
def placements : Nat → List ShiftCalcData → List (String × Nat)
  | _, [] => []
  | start, d :: rest => (d.name, u32 start) :: placements (start + slotLength d) rest

theorem placements_names (data : List ShiftCalcData) (start : Nat) :
    (placements start data).map Prod.fst = data.map (·.name) := by
  induction data generalizing start with
  | nil => rfl
  | cons d rest ih => simp [placements, ih]

theorem orderedShifts_eq (data : List ShiftCalcData) (start : Nat) (acc : String → Nat) :
    orderedShifts (u32 start) data acc = store acc (placements start data) := by
  induction data generalizing start acc with
  | nil => rfl
  | cons d rest ih =>
    have hmod : u32 (u32 start + u32 (d.programLength + interCoreBuffer)) =
        u32 (start + slotLength d) := by
      unfold u32 slotLength
      omega
    rw [orderedShifts, hmod, ih]
    rfl

/-- Where the window of a name starts : its last placement, with two programs of one name. -/
def startOf (start : Nat) (data : List ShiftCalcData) (name : String) : Nat :=
  (lastValue (placements start data) name).getD 0

theorem shiftOf_eq (data : List ShiftCalcData) (name : String) :
    shiftOf data name = startOf 2 data name := by
  rw [startOf, ← store_apply (fun _ => 0)]
  cases data with
  | nil => rfl
  | cons first rest =>
    have hstart : first.programLength + 2 + interCoreBuffer = 2 + slotLength first := by
      unfold slotLength
      omega
    rw [shiftOf, hstart, orderedShifts_eq]
    rfl

/-- The windows and buffers of a list of programs. -/
def totalLength (data : List ShiftCalcData) : Nat :=
  (data.map slotLength).sum

theorem extendTimebase_eq (data : List ShiftCalcData) (m : Nat) :
    extendTimebase (u32 m) data = u32 (m + totalLength data) := by
  induction data generalizing m with
  | nil => rfl
  | cons d rest ih =>
    have hmod : u32 (u32 m + u32 (d.programLength + interCoreBuffer)) = u32 (m + slotLength d) := by
      unfold u32 slotLength
      omega
    have hcons : extendTimebase (u32 m) (d :: rest) =
      extendTimebase (u32 (u32 m + u32 (d.programLength + interCoreBuffer))) rest := rfl
    rw [hcons, hmod, ih, totalLength, totalLength, List.map_cons, List.sum_cons, Nat.add_assoc]

theorem startOf_cons_self {d : ShiftCalcData} {rest : List ShiftCalcData} {start : Nat}
    (h : d.name ∉ rest.map (·.name)) (hs : start < 2 ^ 32) :
    startOf start (d :: rest) d.name = start := by
  rw [← placements_names rest (start + slotLength d), ← lastValue_eq_none] at h
  rw [startOf, placements, lastValue_cons, h, if_pos rfl, u32_of_lt hs]
  rfl

theorem startOf_cons_of_ne {d : ShiftCalcData} {rest : List ShiftCalcData} {start : Nat}
    {name : String} (h : name ≠ d.name) :
    startOf start (d :: rest) name = startOf (start + slotLength d) rest name := by
  rw [startOf, placements, lastValue_cons, if_neg h, Option.or_none, startOf]

/-- With no wrap every window starts behind the ones before it, and all end before the total. -/
theorem startOf_separate {data : List ShiftCalcData} (hn : (data.map (·.name)).Nodup) {start : Nat}
    (h : start + totalLength data < 2 ^ 32 + interCoreBuffer) :
    data.Pairwise (fun a b => startOf start data a.name + a.programLength + interCoreBuffer ≤
        startOf start data b.name) ∧
      ∀ d ∈ data, start ≤ startOf start data d.name ∧
        startOf start data d.name + slotLength d ≤ start + totalLength data := by
  induction data generalizing start with
  | nil => simp
  | cons d rest ih =>
    rw [List.map_cons, List.nodup_cons] at hn
    obtain ⟨hd, hn⟩ := hn
    have htotal : totalLength (d :: rest) = slotLength d + totalLength rest := by
      simp [totalLength]
    have hslot : slotLength d = d.programLength + interCoreBuffer := rfl
    have hnext : start + slotLength d + totalLength rest < 2 ^ 32 + interCoreBuffer := by omega
    obtain ⟨hpair, hbounds⟩ := ih hn hnext
    have hself : startOf start (d :: rest) d.name = start :=
      startOf_cons_self hd (by unfold interCoreBuffer at *; omega)
    have hrest : ∀ e ∈ rest, startOf start (d :: rest) e.name =
        startOf (start + slotLength d) rest e.name := fun e he =>
      startOf_cons_of_ne fun heq => hd (heq ▸ List.mem_map_of_mem he)
    refine ⟨List.pairwise_cons.2 ⟨fun e he => ?_, ?_⟩, fun e he => ?_⟩
    · rw [hself, hrest e he]
      have := (hbounds e he).1
      omega
    · refine hpair.imp_of_mem fun ha hb hab => ?_
      rwa [hrest _ ha, hrest _ hb]
    · rcases List.mem_cons.1 he with rfl | he
      · rw [hself]
        omega
      · rw [hrest e he]
        have := hbounds e he
        omega

/-- With no wrap no window starts at zero. -/
theorem startOf_pos {data : List ShiftCalcData} {start : Nat} (hs : 0 < start)
    (h : start + totalLength data < 2 ^ 32) {name : String} (hn : name ∈ data.map (·.name)) :
    0 < startOf start data name := by
  have hall : ∀ x ∈ placements start data, 0 < x.2 := by
    clear hn
    induction data generalizing start with
    | nil => simp [placements]
    | cons d rest ih =>
      have htotal : totalLength (d :: rest) = slotLength d + totalLength rest := by
        simp [totalLength]
      rw [placements, List.forall_mem_cons]
      refine ⟨?_, ih (by omega) (by omega)⟩
      rw [u32_of_lt (by omega)]
      exact hs
  rw [← placements_names data start] at hn
  obtain ⟨v, hv⟩ := Option.ne_none_iff_exists'.1 (mt lastValue_eq_none.1 (not_not.2 hn))
  rw [startOf, hv]
  exact hall _ (mem_of_lastValue hv)

/-! ## The windows of the programs -/

/-- The length of a program, with no wrap. -/
def windowLength (nChannels : String → Nat) (p : DeployedProgram) : Nat :=
  p.programLength.fixedPortion.toNat + nChannels p.name * p.programLength.perChannelPortion.toNat

theorem programLength_eq {nChannels : String → Nat} {p : DeployedProgram}
    (h : windowLength nChannels p < 2 ^ 32) :
    programLength nChannels p = windowLength nChannels p := by
  unfold windowLength at h
  rw [programLength, windowLength, u32_of_lt (by omega : nChannels p.name * _ < 2 ^ 32),
    u32_of_lt h]

theorem sortedData_perm (sort : ExecutionOrderSort) (s : HilDeployer)
    (programs : List DeployedProgram) : (sortedData sort s programs).Perm (calcData s programs) :=
  sort.perm _

theorem sortedData_names (sort : ExecutionOrderSort) (s : HilDeployer)
    (programs : List DeployedProgram) :
    ((sortedData sort s programs).map (·.name)).Perm (programs.map (·.name)) := by
  have h := (sortedData_perm sort s programs).map (·.name)
  rwa [calcData, List.map_map] at h

theorem totalLength_sortedData (sort : ExecutionOrderSort) (s : HilDeployer)
    (programs : List DeployedProgram) : totalLength (sortedData sort s programs) =
      (programs.map (programLength s.nChannels)).sum + interCoreBuffer * programs.length := by
  have h := ((sortedData_perm sort s programs).map slotLength).sum_eq
  rw [totalLength, h, calcData, List.map_map]
  clear h
  induction programs with
  | nil => rfl
  | cons p programs ih =>
    have hslot : (slotLength ∘ fun p => (⟨p.name, s.executionOrder p.name,
        programLength s.nChannels p⟩ : ShiftCalcData)) p =
          programLength s.nChannels p + interCoreBuffer := rfl
    rw [List.map_cons, List.sum_cons, ih, List.map_cons, List.sum_cons, List.length_cons,
      Nat.mul_succ, hslot]
    omega

theorem mem_sortedData (sort : ExecutionOrderSort) (s : HilDeployer)
    {programs : List DeployedProgram} {p : DeployedProgram} (h : p ∈ programs) :
    ⟨p.name, s.executionOrder p.name, programLength s.nChannels p⟩ ∈ sortedData sort s programs :=
  (sortedData_perm sort s programs).mem_iff.2 (List.mem_map_of_mem h)

/-- The windows of a sorted list, with a buffer after each, one after the other from 2 on. -/
structure Separate (order : List ShiftCalcData) (shift : String → Nat) : Prop where
  windows : order.Pairwise fun a b =>
    shift a.name + a.programLength + interCoreBuffer ≤ shift b.name
  first : ∃ d ∈ order, shift d.name = 2
  two_le : ∀ d ∈ order, 2 ≤ shift d.name

theorem separate_startOf {order : List ShiftCalcData} (hne : order ≠ [])
    (hn : (order.map (·.name)).Nodup) (h : totalLength order < 2 ^ 32) :
    Separate order (startOf 2 order) := by
  have hbound : 2 + totalLength order < 2 ^ 32 + interCoreBuffer := by
    unfold interCoreBuffer
    omega
  obtain ⟨hpair, hbounds⟩ := startOf_separate hn hbound
  refine ⟨hpair, ?_, fun d hd => (hbounds d hd).1⟩
  cases order with
  | nil => exact absurd rfl hne
  | cons d rest =>
    exact ⟨d, by simp, startOf_cons_self (List.nodup_cons.1 hn).1 (by norm_num)⟩

/-- Two programs of one frequency and length. The second is first in the execution order. -/
def programPair (frequency length : UInt32) : List DeployedProgram :=
  [⟨"a", 0, 2, frequency, 1, [], ⟨length, 0⟩, []⟩, ⟨"b", 1, 1, frequency, 1, [], ⟨length, 0⟩, []⟩]

/-- Surroundings in which every specification is that pair. -/
def pairEnvironment (frequency length : UInt32) : Environment Unit :=
  .of (fun _ => .returning (programPair frequency length) []) fun _ => 1

/-- The window of a program ends with its buffer before the end of the schedule. -/
theorem startOf_add_windowLength_le {sort : ExecutionOrderSort} {s : HilDeployer}
    {programs : List DeployedProgram} {p : DeployedProgram} (hp : p ∈ programs)
    (hnames : (programs.map (·.name)).Nodup)
    (hsum : totalLength (sortedData sort s programs) < 2 ^ 32)
    (hlength : programLength s.nChannels p = windowLength s.nChannels p) :
    startOf 2 (sortedData sort s programs) p.name + windowLength s.nChannels p + interCoreBuffer ≤
      2 + totalLength (sortedData sort s programs) := by
  have hbound : 2 + totalLength (sortedData sort s programs) < 2 ^ 32 + interCoreBuffer := by
    unfold interCoreBuffer
    omega
  have h := ((startOf_separate ((sortedData_names sort s programs).nodup_iff.2 hnames) hbound).2 _
    (mem_sortedData sort s hp)).2
  simp only [slotLength, hlength] at h
  omega

/-- The sequencer gets the shift of each program and, without a timebase, the shortest period. -/
theorem setupSequencer_writes {pl : Platform} {programs : List DeployedProgram}
    {shift : String → Nat} (hlen : programs.length ≤ 32)
    (hshift : ∀ p ∈ programs, shift p.name < 2 ^ 32) {divisors : List Nat} {t t' : HilDeployer}
    {u : Unit} (hmin : t.minTimebase < 2 ^ 32)
    (hrun : (setupSequencer pl programs.length divisors
      (programs.map fun p => shift p.name)).run t = .ok u t') :
    ∃ rs, t' = t.emit rs ∧
      (∀ i (h : i < programs.length),
        .write (u64 (shiftAddress t.addresses i)) (shift programs[i].name) ∈ rs) ∧
      (t.timebaseFrequency = 0 →
        .write (u64 (periodAddress t.addresses)) t.minTimebase ∈ rs) := by
  obtain ⟨-, -, rfl⟩ := setupSequencer_eq_ok.1 hrun
  refine ⟨_, rfl, fun i hi => ?_, fun hz => ?_⟩
  · have hget : (programs.map fun p => shift p.name).getD i 0 = shift programs[i].name := by
      simp [hi]
    rw [u16_length hlen, ← regWrite_of_lt (hshift _ (List.getElem_mem hi)), ← hget]
    exact shift_mem_sequencerRequests hi
  · have hperiod : timebasePeriod pl t = t.minTimebase := by
      rw [timebasePeriod, if_pos hz]
    rw [← regWrite_of_lt hmin, hperiod]
    exact period_mem_sequencerRequests

/-- The execution windows never overlap, and without a timebase the period covers them all. The
programs fit 32 bits together with their buffers. `t` is a later state of the deployment, in which
the sequencer is set up. -/
theorem shifts_separate {pl : Platform} {sort : ExecutionOrderSort}
    {dispatcher : EmulatorDispatcher} {programs : List DeployedProgram}
    (hp : dispatcher.getPrograms = .ok programs) (hne : programs ≠ [])
    (hnames : (programs.map (·.name)).Nodup) {s : HilDeployer} (hzero : s.minTimebase = 0)
    (htotal : (programs.map (windowLength s.nChannels)).sum + interCoreBuffer * programs.length <
      2 ^ 32) :
    ∃ shifts s', (calculateTimebaseShift sort dispatcher).run s = .ok shifts s' ∧
      ∃ shift : String → Nat, shifts = programs.map (fun p => shift p.name) ∧
        Separate (sort.sort (calcData s programs)) shift ∧
        (∀ p ∈ programs, programLength s.nChannels p = windowLength s.nChannels p ∧
          shift p.name + windowLength s.nChannels p ≤ s'.minTimebase) ∧
        ∀ (t t' : HilDeployer) (divisors : List Nat) (u : Unit), programs.length ≤ 32 →
          t.minTimebase = s'.minTimebase →
          (setupSequencer pl programs.length divisors shifts).run t = .ok u t' →
          ∃ rs, t' = t.emit rs ∧
            (∀ i (h : i < programs.length),
              .write (u64 (shiftAddress t.addresses i)) (shift programs[i].name) ∈ rs) ∧
            (t.timebaseFrequency = 0 →
              .write (u64 (periodAddress t.addresses)) s'.minTimebase ∈ rs) := by
  have hlength : ∀ p ∈ programs, programLength s.nChannels p = windowLength s.nChannels p := by
    intro p hpm
    have hle := List.le_sum_of_mem (List.mem_map_of_mem (f := windowLength s.nChannels) hpm)
    exact programLength_eq (by omega)
  have hsum : totalLength (sortedData sort s programs) < 2 ^ 32 := by
    rwa [totalLength_sortedData, List.map_congr_left hlength]
  have hsep : Separate (sortedData sort s programs) (startOf 2 (sortedData sort s programs)) :=
    separate_startOf (sortedData_ne_nil.2 hne)
      ((sortedData_names sort s programs).nodup_iff.2 hnames) hsum
  have hmin : extendTimebase s.minTimebase (sortedData sort s programs) =
      totalLength (sortedData sort s programs) := by
    have h := extendTimebase_eq (sortedData sort s programs) 0
    rw [Nat.zero_add, u32_of_lt hsum] at h
    rwa [hzero]
  have hend := fun p (hpm : p ∈ programs) =>
    startOf_add_windowLength_le hpm hnames hsum (hlength p hpm)
  have hshifts : programs.map (fun p => shiftOf (sortedData sort s programs) p.name) =
      programs.map fun p => startOf 2 (sortedData sort s programs) p.name :=
    List.map_congr_left fun p _ => shiftOf_eq _ _
  refine ⟨_, _, (calculateTimebaseShift_eq_ok hp).2 ⟨hne, rfl, rfl⟩,
    startOf 2 (sortedData sort s programs), hshifts, hsep, fun p hpm => ⟨hlength p hpm, ?_⟩, ?_⟩
  · change _ ≤ extendTimebase s.minTimebase (sortedData sort s programs)
    have h := hend p hpm
    unfold interCoreBuffer at h
    omega
  · intro t t' divisors u hlen ht hrun
    change t.minTimebase = extendTimebase s.minTimebase (sortedData sort s programs) at ht
    change ∃ rs, _ ∧ _ ∧
      (_ → Request.write _ (extendTimebase s.minTimebase (sortedData sort s programs)) ∈ rs)
    rw [hshifts] at hrun
    rw [← ht]
    refine setupSequencer_writes hlen (fun p hpm => ?_) (by rw [ht, hmin]; exact hsum) hrun
    have h := hend p hpm
    unfold interCoreBuffer at h
    omega

theorem shifts_separate_pair : ∃ shifts s' shift,
    (calculateTimebaseShift .insertion (.returning (programPair 100 50) [])).run fresh =
      .ok shifts s' ∧ shifts = (programPair 100 50).map (fun p => shift p.name) ∧
        Separate (ExecutionOrderSort.insertion.sort
          (calcData fresh (programPair 100 50))) shift := by
  obtain ⟨shifts, s', h, shift, hshift, hsep, -⟩ := @shifts_separate .zeros
    .insertion (.returning (programPair 100 50) []) (programPair 100 50) rfl
    (by decide) (by decide +kernel) fresh rfl (by decide +kernel)
  exact ⟨shifts, s', shift, h, hshift, hsep⟩

/-! ## What a deployment gives to the sequencer -/

theorem deployed_eq {Spec : Type} (env : Environment Spec) (arguments : Spec)
    (programs : List DeployedProgram) (s : HilDeployer) :
    deployed env arguments programs s = { s with
      inputsLabels := (deployed env arguments programs s).inputsLabels
      busLabels := (deployed env arguments programs s).busLabels
      inputs := (deployed env arguments programs s).inputs
      activeRandomInputs := (deployed env arguments programs s).activeRandomInputs
      activeWaveforms := (deployed env arguments programs s).activeWaveforms } := by
  rw [deployed, InputAction.recordAll_eq]
  rfl

section Deployed

variable {Spec : Type} (env : Environment Spec) (arguments : Spec) (programs : List DeployedProgram)
  (s : HilDeployer)

theorem deployed_hw : (deployed env arguments programs s).hw = s.hw := by
  rw [deployed_eq]

theorem deployed_timebaseFrequency :
    (deployed env arguments programs s).timebaseFrequency = s.timebaseFrequency := by
  rw [deployed_eq]

theorem deployed_hilClockFrequency :
    (deployed env arguments programs s).hilClockFrequency = s.hilClockFrequency := by
  rw [deployed_eq]

theorem deployed_nChannels : (deployed env arguments programs s).nChannels = s.nChannels := by
  rw [deployed_eq]

theorem deployed_executionOrder :
    (deployed env arguments programs s).executionOrder = s.executionOrder := by
  rw [deployed_eq]

theorem deployed_timebaseDivider :
    (deployed env arguments programs s).timebaseDivider = s.timebaseDivider := by
  rw [deployed_eq]

theorem deployed_minTimebase :
    (deployed env arguments programs s).minTimebase = s.minTimebase := by
  rw [deployed_eq]

theorem deployed_timebasePeriod (pl : Platform) :
    timebasePeriod pl (deployed env arguments programs s) = timebasePeriod pl s := by
  rw [deployed_eq]
  rfl

theorem deployed_sortedData (sort : ExecutionOrderSort) :
    sortedData sort (deployed env arguments programs s) programs = sortedData sort s programs := by
  rw [deployed_eq]
  rfl

theorem deployed_dividers (pl : Platform) :
    dividers pl programs (deployed env arguments programs s) = dividers pl programs s := by
  rw [dividers, deployed_timebaseFrequency, dividers]

theorem deployed_shifts (sort : ExecutionOrderSort) :
    shifts sort programs (deployed env arguments programs s) = shifts sort programs s := by
  rw [shifts, deployed_sortedData, shifts]

end Deployed

/-- The channel count that a deployment gives to each name. -/
def specChannels (isa : FcoreIsa) (fullCoresOverride : Bool) (programs : List DeployedProgram) :
    String → Nat :=
  store (fun _ => 0)
    (programs.map fun p => (p.name, checkReciprocal isa fullCoresOverride p.binary))

/-- The execution order that a deployment gives to each name. -/
def specOrder (programs : List DeployedProgram) : String → Nat :=
  store (fun _ => 0) (programs.map fun p => (p.name, p.order.toNat))

/-- The data of the programs, in the order of the sort. -/
def specData {Spec : Type} (env : Environment Spec) (fullCoresOverride : Bool)
    (programs : List DeployedProgram) : List ShiftCalcData :=
  env.sort.sort (programs.map fun p => ⟨p.name, specOrder programs p.name,
    programLength (specChannels env.isa fullCoresOverride programs) p⟩)

theorem store_names_congr (m m' : String → Nat) (f : DeployedProgram → Nat)
    {programs : List DeployedProgram} {p : DeployedProgram} (h : p ∈ programs) :
    store m (programs.map fun p => (p.name, f p)) p.name =
      store m' (programs.map fun p => (p.name, f p)) p.name :=
  store_congr m m' (by simpa using ⟨p, h, rfl⟩)

section Prepared

variable {Spec : Type} (env : Environment Spec) (arguments : Spec) (programs : List DeployedProgram)
  (slots : List DeployerInterconnectSlot) (s : HilDeployer)

omit programs in
theorem prepared_nChannels {programs : List DeployedProgram} {p : DeployedProgram}
    (hp : p ∈ programs) : (prepared env arguments programs slots s).nChannels p.name =
      specChannels env.isa s.fullCoresOverride programs p.name :=
  store_names_congr _ _ _ hp

omit programs in
theorem prepared_executionOrder {programs : List DeployedProgram} {p : DeployedProgram}
    (hp : p ∈ programs) : (prepared env arguments programs slots s).executionOrder p.name =
      specOrder programs p.name :=
  store_names_congr _ _ _ hp

omit slots in
theorem sortedData_eq_specData {override : Bool} {t : HilDeployer}
    (hn : ∀ p ∈ programs, t.nChannels p.name = specChannels env.isa override programs p.name)
    (ho : ∀ p ∈ programs, t.executionOrder p.name = specOrder programs p.name) :
    sortedData env.sort t programs = specData env override programs := by
  refine congrArg env.sort.sort (List.map_congr_left fun p hp => ?_)
  rw [programLength, hn p hp, ho p hp, programLength]

theorem prepared_sortedData :
    sortedData env.sort (prepared env arguments programs slots s) programs =
      specData env s.fullCoresOverride programs :=
  sortedData_eq_specData env programs (fun _ => prepared_nChannels env arguments slots s)
    fun _ => prepared_executionOrder env arguments slots s

theorem prepared_timebaseFrequency :
    (prepared env arguments programs slots s).timebaseFrequency =
      int32 (frequencyLcm programs) := by
  unfold prepared
  generalize int32 (frequencyLcm programs) = t
  rfl

theorem prepared_minTimebase : (prepared env arguments programs slots s).minTimebase =
    extendTimebase 0 (specData env s.fullCoresOverride programs) := by
  unfold prepared
  generalize int32 (frequencyLcm programs) = t
  refine congrArg (extendTimebase 0) (sortedData_eq_specData env programs ?_ ?_)
  · exact fun p hp => store_names_congr _ _ _ hp
  · exact fun p hp => store_names_congr _ _ _ hp

end Prepared

/-- A returning deployment, seen from the sequencer : `s` is the deployer before it, `s'` after. -/
structure Scheduled {Spec : Type} (env : Environment Spec) (arguments : Spec)
    (programs : List DeployedProgram) (s s' : HilDeployer) : Prop where
  writes : ∃ before after, s'.hw = (reset (env.hash arguments) s).hw.performAll (before ++
    sequencerRequests s.addresses (timebasePeriod env.platform s') programs.length
      (dividers env.platform programs s') (shifts env.sort programs s') ++ after)
  ne_nil : programs ≠ []
  length_le : programs.length ≤ 32
  lcmFits : LcmFits 1 (programs.map (·.samplingFrequency.toNat))
  timebaseFrequency : s'.timebaseFrequency = int32 (frequencyLcm programs)
  hilClockFrequency : s'.hilClockFrequency = s.hilClockFrequency
  nChannels : ∀ p ∈ programs,
    s'.nChannels p.name = specChannels env.isa s.fullCoresOverride programs p.name
  sortedData : sortedData env.sort s' programs = specData env s.fullCoresOverride programs

theorem scheduled_of_deploy {Spec : Type} {env : Environment Spec} {arguments : Spec}
    {s s' : HilDeployer} {u : Unit} {programs : List DeployedProgram}
    (h : (deploy env arguments).run s = .ok u s')
    (hp : (env.dispatcher arguments).getPrograms = .ok programs) :
    Scheduled env arguments programs s s' := by
  obtain ⟨programs', slots, memories, hel, hd, -, rfl⟩ := deploy_eq_ok.1 h
  obtain rfl := hel.programs_eq hp
  refine ⟨⟨programs'.map (loadRequest s.addresses) ++
      setupRequests env arguments programs' memories (prepared env arguments programs' slots s),
    programs'.map (prepared env arguments programs' slots s).coreRequest, ?_⟩, hd.ne_nil,
    hd.length_le, hd.lcmFits, ?_, ?_, ?_, ?_⟩
  · have hwrites : ∀ t : HilDeployer, deploymentRequests env arguments programs' memories t =
        programs'.map (loadRequest t.addresses) ++
          setupRequests env arguments programs' memories t ++
          sequencerRequests t.addresses (timebasePeriod env.platform t) programs'.length
            (dividers env.platform programs' t) (shifts env.sort programs' t) ++
          programs'.map t.coreRequest := by
      intro t
      simp only [deploymentRequests, writeRequests, List.append_assoc]
    rw [emit_hw, deployed_hw, hwrites, emit_timebasePeriod, deployed_timebasePeriod,
      ← deployed_dividers env arguments programs', ← deployed_shifts env arguments programs']
    rfl
  · exact (deployed_timebaseFrequency _ _ _ _).trans (prepared_timebaseFrequency _ _ _ _ _)
  · exact deployed_hilClockFrequency env arguments programs' _
  · exact fun p hpm => (congrFun (deployed_nChannels _ _ _ _) p.name).trans
      (prepared_nChannels env arguments slots s hpm)
  · exact (deployed_sortedData env arguments programs' _ _).trans
      (prepared_sortedData env arguments programs' slots s)

theorem int32_of_lt {n : Nat} (h : n < 2 ^ 31) : int32 n = n := by
  unfold int32
  rw [Int.bmod_def]
  omega

theorem int32_of_ge {n : Nat} (h : 2 ^ 31 ≤ n) (h' : n < 2 ^ 32) : int32 n = n - 2 ^ 32 := by
  unfold int32
  rw [Int.bmod_def]
  omega

section Scheduled

variable {Spec : Type} {env : Environment Spec} {arguments : Spec}
  {programs : List DeployedProgram} {s s' : HilDeployer}

theorem Scheduled.frequencyLcm_lt (h : Scheduled env arguments programs s s')
    (hf : ∀ p ∈ programs, p.samplingFrequency ≠ 0) :
    0 < frequencyLcm programs ∧ frequencyLcm programs < 2 ^ 32 := by
  have hpos : ∀ f ∈ programs.map (·.samplingFrequency.toNat), 0 < f := by
    intro f hmem
    obtain ⟨p, hp, rfl⟩ := List.mem_map.1 hmem
    exact UInt32.lt_iff_toNat_lt.1 (UInt32.pos_iff_ne_zero.2 (hf p hp))
  have hl := (lcmFits_iff hpos (by norm_num) (by norm_num)).1 h.lcmFits
  rw [Nat.lcm_comm, Nat.lcm_one_right] at hl
  refine ⟨Nat.pos_of_ne_zero fun h0 => ?_, hl⟩
  exact (hpos 0 (Multiset.lcm_eq_zero_iff _ |>.1 h0)).ne rfl

theorem deploy_pair : ∃ u s', (deploy (pairEnvironment 100 50) ()).run fresh = .ok u s' ∧ True :=
  Exec.exists_of_returnsIn (p := fun _ => True) (by decide +kernel)

/-- The timebase is the least common multiple of the frequencies, and the divider registers give
each program its own. -/
def RatesExact (pl : Platform) (programs : List DeployedProgram) (s : HilDeployer) : Prop :=
  s.timebaseFrequency = frequencyLcm programs ∧
    ∀ i (hi : i < programs.length), ((sub32 ((dividers pl programs s).getD i 0) 1 + 1) *
      programs[i].samplingFrequency.toNat : ℤ) = s.timebaseFrequency

instance (pl : Platform) (programs : List DeployedProgram) :
    DecidablePred (RatesExact pl programs) := fun _ =>
  inferInstanceAs (Decidable (_ ∧ _))

/-- The sampling rates are exact when the least common multiple of the frequencies fits an `int`,
and only then. -/
theorem sampling_rates_exact_iff {u : Unit} (h : (deploy env arguments).run s = .ok u s')
    (hp : (env.dispatcher arguments).getPrograms = .ok programs)
    (hf : ∀ p ∈ programs, p.samplingFrequency ≠ 0) :
    (∃ before after, s'.hw = (reset (env.hash arguments) s).hw.performAll (before ++
      sequencerRequests s.addresses (timebasePeriod env.platform s') programs.length
        (dividers env.platform programs s') (shifts env.sort programs s') ++ after)) ∧
    (RatesExact env.platform programs s' ↔ frequencyLcm programs < 2 ^ 31) := by
  have hs := scheduled_of_deploy h hp
  obtain ⟨hpos, hlt⟩ := hs.frequencyLcm_lt hf
  refine ⟨hs.writes, ?_, ?_⟩
  · rintro ⟨ht, -⟩
    by_contra hge
    rw [hs.timebaseFrequency, int32_of_ge (not_lt.1 hge) hlt] at ht
    omega
  · intro hl
    have ht : s'.timebaseFrequency = frequencyLcm programs := by
      rw [hs.timebaseFrequency, int32_of_lt hl]
    refine ⟨ht, fun i hi => ?_⟩
    have hfi := hf programs[i] (List.getElem_mem hi)
    have hfpos : 0 < programs[i].samplingFrequency.toNat :=
      UInt32.lt_iff_toNat_lt.1 (UInt32.pos_iff_ne_zero.2 hfi)
    have hdvd : programs[i].samplingFrequency.toNat ∣ frequencyLcm programs :=
      Multiset.dvd_lcm (Multiset.mem_coe.2 (List.mem_map.2 ⟨_, List.getElem_mem hi, rfl⟩))
    have hdivider : (dividers env.platform programs s').getD i 0 =
        frequencyLcm programs / programs[i].samplingFrequency.toNat := by
      have hget : (dividers env.platform programs s').getD i 0 =
          coreDivider env.platform s'.timebaseFrequency programs[i] := by
        simp [dividers, hi]
      rw [hget, coreDivider, if_neg hfi, ht, Int.cast_natCast, env.platform.toUint32_natCast hlt]
    have hq : 0 < frequencyLcm programs / programs[i].samplingFrequency.toNat :=
      Nat.div_pos (Nat.le_of_dvd hpos hdvd) hfpos
    rw [hdivider, sub32_one hq (lt_of_le_of_lt (Nat.div_le_self _ _) hlt), ht]
    have hmul : (frequencyLcm programs / programs[i].samplingFrequency.toNat - 1 + 1) *
        programs[i].samplingFrequency.toNat = frequencyLcm programs := by
      rw [Nat.sub_add_cancel hq, Nat.div_mul_cancel hdvd]
    exact_mod_cast hmul

theorem sampling_rates_exact_pair : ∃ u s',
    (deploy (pairEnvironment 100 50) ()).run fresh = .ok u s' ∧
      RatesExact .zeros (programPair 100 50) s' := by
  obtain ⟨u, s', h, -⟩ := deploy_pair
  exact ⟨u, s', h, (sampling_rates_exact_iff h rfl (by decide)).2.2 (by decide +kernel)⟩

/-- At 3 GHz the timebase is negative. -/
theorem sampling_rates_not_exact : ∃ u s',
    (deploy (pairEnvironment 3000000000 50) ()).run fresh = .ok u s' ∧
      ¬RatesExact .zeros (programPair 3000000000 50) s' :=
  Exec.exists_of_returnsIn (by decide +kernel)

/-- The integer part of the period. -/
def exactPeriod (s : HilDeployer) : Int :=
  truncate (s.hilClockFrequency / s.timebaseFrequency)

theorem shifts_getD {sort : ExecutionOrderSort} {programs : List DeployedProgram} {s : HilDeployer}
    {i : Nat} (hi : i < programs.length) : (shifts sort programs s).getD i 0 =
      startOf 2 (HilDeployer.sortedData sort s programs) programs[i].name := by
  simp [shifts, hi, shiftOf_eq]

/-- Some window has an end. -/
theorem Scheduled.exists_pos (h : Scheduled env arguments programs s s') :
    ∃ i, ∃ hi : i < programs.length, 0 < (shifts env.sort programs s').getD i 0 +
      programLength s'.nChannels programs[i] := by
  by_cases hlen : ∃ p ∈ programs, 0 < programLength s'.nChannels p
  · obtain ⟨p, hp, hpos⟩ := hlen
    obtain ⟨i, hi, rfl⟩ := List.getElem_of_mem hp
    exact ⟨i, hi, by omega⟩
  · have hzero : ∀ p ∈ programs, programLength s'.nChannels p = 0 := fun p hp =>
      Nat.eq_zero_of_not_pos fun hpos => hlen ⟨p, hp, hpos⟩
    have htotal : totalLength (HilDeployer.sortedData env.sort s' programs) =
        interCoreBuffer * programs.length := by
      rw [totalLength_sortedData, List.map_congr_left hzero]
      simp
    have hle := h.length_le
    have hi : 0 < programs.length := List.length_pos_of_ne_nil h.ne_nil
    have hname : programs[0].name ∈
        (HilDeployer.sortedData env.sort s' programs).map (·.name) :=
      (sortedData_names env.sort s' programs).mem_iff.2
        (List.mem_map_of_mem (List.getElem_mem hi))
    have hbound : 2 + totalLength (HilDeployer.sortedData env.sort s' programs) < 2 ^ 32 := by
      rw [htotal]
      unfold interCoreBuffer
      omega
    refine ⟨0, hi, ?_⟩
    rw [shifts_getD hi]
    exact Nat.add_pos_left (startOf_pos (by norm_num) hbound hname) _

/-- The execution windows lie inside the period. -/
def WindowsFit (sort : ExecutionOrderSort) (programs : List DeployedProgram) (s : HilDeployer) :
    Prop :=
  ∀ i (hi : i < programs.length), ((shifts sort programs s).getD i 0 +
    programLength s.nChannels programs[i] : ℤ) ≤ exactPeriod s

instance (sort : ExecutionOrderSort) (programs : List DeployedProgram) :
    DecidablePred (WindowsFit sort programs) := fun _ =>
  inferInstanceAs (Decidable (∀ _ _, _))

/-- The windows fit the period when they fit the clock cycles of the least common multiple of the
frequencies, and that multiple fits an `int`, and only then. -/
theorem windows_fit_period_iff {u : Unit} (h : (deploy env arguments).run s = .ok u s')
    (hp : (env.dispatcher arguments).getPrograms = .ok programs)
    (hf : ∀ p ∈ programs, p.samplingFrequency ≠ 0) :
    (∃ before after, s'.hw = (reset (env.hash arguments) s).hw.performAll (before ++
      sequencerRequests s.addresses (timebasePeriod env.platform s') programs.length
        (dividers env.platform programs s') (shifts env.sort programs s') ++ after)) ∧
    (WindowsFit env.sort programs s' ↔
      frequencyLcm programs < 2 ^ 31 ∧ ∀ p ∈ programs,
        (startOf 2 (specData env s.fullCoresOverride programs) p.name +
          programLength (specChannels env.isa s.fullCoresOverride programs) p : ℤ) ≤
            ⌊(s.hilClockFrequency / frequencyLcm programs : ℚ)⌋) := by
  have hs := scheduled_of_deploy h hp
  obtain ⟨hpos, hlt⟩ := hs.frequencyLcm_lt hf
  refine ⟨hs.writes, ?_⟩
  have hwindow : ∀ i (hi : i < programs.length), ((shifts env.sort programs s').getD i 0 +
      programLength s'.nChannels programs[i] : ℤ) =
        startOf 2 (specData env s.fullCoresOverride programs) programs[i].name +
          programLength (specChannels env.isa s.fullCoresOverride programs) programs[i] := by
    intro i hi
    rw [shifts_getD hi, hs.sortedData, programLength, hs.nChannels _ (List.getElem_mem hi),
      programLength]
  rcases lt_or_ge (frequencyLcm programs) (2 ^ 31) with hl | hge
  · have hperiod : exactPeriod s' = ⌊(s.hilClockFrequency / frequencyLcm programs : ℚ)⌋ := by
      rw [exactPeriod, hs.timebaseFrequency, hs.hilClockFrequency, int32_of_lt hl, Int.cast_natCast]
      exact truncate_of_nonneg (div_nonneg s.hilClockFrequency.2.le (Nat.cast_nonneg _))
    rw [WindowsFit, hperiod, List.forall_mem_iff_forall_getElem]
    simp only [hwindow, hl, true_and]
  · refine iff_of_false (fun hfit => ?_) fun hl => absurd hl.1 (not_lt.2 hge)
    obtain ⟨i, hi, hend⟩ := hs.exists_pos
    have hneg : exactPeriod s' ≤ 0 := by
      rw [exactPeriod, hs.timebaseFrequency, hs.hilClockFrequency, int32_of_ge hge hlt]
      refine truncate_of_nonpos (div_nonpos_of_nonneg_of_nonpos s.hilClockFrequency.2.le ?_)
      exact_mod_cast (by omega : (frequencyLcm programs : ℤ) - 2 ^ 32 ≤ 0)
    have hle := hfit i hi
    omega

theorem windows_fit_period_pair : ∃ u s',
    (deploy (pairEnvironment 100 50) ()).run fresh = .ok u s' ∧
      WindowsFit .insertion (programPair 100 50) s' := by
  obtain ⟨u, s', h, -⟩ := deploy_pair
  exact ⟨u, s', h, (windows_fit_period_iff h rfl (by decide)).2.2 (by decide +kernel)⟩

/-- At 1 MHz each the period is 100 cycles, and the second window ends after 192. -/
theorem windows_do_not_fit : ∃ u s', (deploy (pairEnvironment 1000000 50) ()).run fresh = .ok u s' ∧
    ¬WindowsFit .insertion (programPair 1000000 50) s' :=
  Exec.exists_of_returnsIn (by decide +kernel)

end Scheduled

end HilDeployer

end UscopeDriver
