import UscopeDriver.Answers
import UscopeDriver.PlatformEndpoints
import UscopeDriver.ScopeSamples

/-!
# Commands on the scope and the clocks that are answered

Most of these commands convert what they are given without a test, so that a missing key or a
value of another type escapes. The rest depends on the settings that earlier commands left : the
factors of the samples, the address of the scope, the clocks.
-/

namespace UscopeDriver

namespace ScopeEndpoints

open ScopeAddressMap ScopeManager

variable {w : Surroundings} {pl : Platform} {arguments : Json} {s : ScopeEndpoints}

theorem answers_onBridge {α : Type} {m : Exec Failure FpgaBridge α} :
    Answers (onBridge m) s ↔ Answers m s.hw :=
  answers_zoom

/-- The value behind the key is there and converts. -/
theorem answers_read_bind {σ α β : Type} {t : σ} {key : String} {as : Json → Option α}
    {f : α → Exec Failure σ β} (hnull : as .null = none) :
    Answers (read arguments key as >>= f) t ↔
      ∃ a, (arguments.find? key).bind as = some a ∧ Answers (f a) t := by
  rw [read, bind_assoc, answers_atOrNull_bind, answers_get_bind]
  cases hkey : arguments.find? key with
  | none => simp [hnull]
  | some v =>
    simp [Json.object_of_find? hkey]

/-- There is a factor for the channel of every sample. -/
def ReadDataAnswered (w : Surroundings) (s : ScopeEndpoints) : Prop :=
  ∀ rawData, w.scopeData = some rawData → HasFactors s.scalingFactors rawData

theorem answers_processReadData : Answers (processReadData w) s ↔ ReadDataAnswered w s :=
  answers_bind_pure.trans (answers_iff_failsOnly.trans (failsOnly_readData not_false))

/-- An array of numbers has one for each of the six channels. -/
def ScalingFactorsAnswered (arguments : Json) : Prop :=
  ∀ elements, arguments = .array elements → elements ≠ [] →
    (∀ el ∈ elements, el.number? ≠ none) → 6 ≤ elements.length

theorem answers_processSetScalingFactors :
    Answers (processSetScalingFactors arguments) s ↔ ScalingFactorsAnswered arguments := by
  unfold ScalingFactorsAnswered
  rcases arguments with _ | _ | _ | _ | _ | _ | elements | _
  case array =>
    by_cases hne : elements = []
    · exact iff_of_true (by simp [processSetScalingFactors, hne, answers_pure]) (by simp [hne])
    by_cases hnumbers : ∀ el ∈ elements, el.number? ≠ none
    · obtain ⟨sfs, hlength, hset⟩ := processSetScalingFactors_of_numbers hne hnumbers
      rw [hset, answers_bind_pure, answers_iff_failsOnly, failsOnly_setScalingFactors not_false,
        hlength]
      exact ⟨fun h _ heq _ _ => by rwa [← Json.array.inj heq], fun h => h _ rfl hne hnumbers⟩
    · refine iff_of_true ?_ fun _ heq _ h => absurd (Json.array.inj heq ▸ h) hnumbers
      push Not at hnumbers
      rw [processSetScalingFactors, if_neg hne, if_pos hnumbers]
      exact answers_pure _
  all_goals exact iff_of_true (answers_pure _) (by rintro _ ⟨⟩)

/-- The status is a truth value, and the bus maps the multiplexer that it is written to. -/
def DisableDmaAnswered (arguments : Json) (s : ScopeEndpoints) : Prop :=
  (∃ status, arguments.find? "status" = some (.boolean status)) ∧
    (s.firstLoad = true ∨ u64 s.scopeBaseAddress = 0 ∨ s.hw.MapsRegister (u64 s.scopeBaseAddress))

theorem answers_disableDma {status : Bool} : Answers (disableDma status) s ↔
    s.firstLoad = true ∨ u64 s.scopeBaseAddress = 0 ∨
      s.hw.MapsRegister (u64 s.scopeBaseAddress) := by
  have hlt : u64 (u64 s.scopeBaseAddress) = u64 s.scopeBaseAddress := u64_of_lt (u64_lt _)
  rw [disableDma, answers_gets_bind]
  split_ifs with hfirst
  · exact iff_of_true ⟨_, _, rfl⟩ (Or.inl hfirst)
  · rw [answers_gets_bind, answers_when, answers_onBridge, FpgaBridge.answers_writeDirect,
      or_iff_right hfirst, muxBase, Mux.ctrl, add_zero, add_zero, hlt]
    exact Decidable.or_iff_not_imp_left.symm

theorem answers_processDisableDma :
    Answers (processDisableDma arguments) s ↔ DisableDmaAnswered arguments s := by
  unfold DisableDmaAnswered
  simp only [processDisableDma, answers_read_bind (show Json.bool? .null = none from rfl),
    answers_bind_pure, answers_disableDma, Option.bind_eq_some_iff, Json.bool?_eq_some,
    exists_and_right]
  simp

/-- Every key of an object starts with a number, and every value is a truth value. -/
def ChannelStatusAnswered (arguments : Json) : Prop :=
  ∀ items, arguments = .object items →
    ∀ item ∈ items, (∃ channel, stoi item.1 = some channel) ∧ ∃ on, item.2 = .boolean on

theorem answers_channelStatuses {items : List (String × Json)} (status : Int → Bool) :
    Answers (channelStatuses status items) s ↔
      ∀ item ∈ items, (∃ channel, stoi item.1 = some channel) ∧ ∃ on, item.2 = .boolean on := by
  induction items generalizing status with
  | nil => exact iff_of_true (answers_pure _) nofun
  | cons item items ih =>
    rw [channelStatuses, answers_require_bind, List.forall_mem_cons]
    simp only [answers_get_bind, ih, Json.bool?_eq_some]
    constructor
    · rintro ⟨channel, hchannel, on, hon, hitems⟩
      exact ⟨⟨⟨channel, hchannel⟩, on, hon⟩, hitems⟩
    · rintro ⟨⟨⟨channel, hchannel⟩, on, hon⟩, hitems⟩
      exact ⟨channel, hchannel, on, hon, hitems⟩

theorem answers_processSetChannelStatus :
    Answers (processSetChannelStatus arguments) s ↔ ChannelStatusAnswered arguments := by
  unfold ChannelStatusAnswered
  rcases arguments with _ | _ | _ | _ | _ | _ | _ | items
  case object =>
    rw [processSetChannelStatus, answers_bind]
    simp only [Json.object.injEq, forall_eq']
    rw [← answers_channelStatuses (s := s) fun _ => false]
    constructor
    · rintro ⟨status, t, hrun, -⟩
      exact ⟨status, t, hrun⟩
    · rintro ⟨status, t, hrun⟩
      exact ⟨status, t, hrun, _, _, rfl⟩
  all_goals exact iff_of_true (answers_pure _) nofun

/-- Without an address nothing is read. -/
def AcquisitionStatusAnswered (s : ScopeEndpoints) : Prop :=
  s.scopeBaseAddress = 0 ∨
    s.hw.MapsRegister (u64 (s.scopeBaseAddress + internalBase + ScopeInt.trgRearmStatus))

theorem answers_processGetAcquisitionStatus :
    Answers (processGetAcquisitionStatus w) s ↔ AcquisitionStatusAnswered s := by
  rw [processGetAcquisitionStatus, answers_bind_pure, getAcquisitionStatus, answers_gets_bind,
    AcquisitionStatusAnswered]
  split_ifs with hbase
  · exact iff_of_true (answers_pure _) (Or.inl hbase)
  · rw [answers_bind_pure, answers_onBridge, FpgaBridge.answers_readDirect, or_iff_right hbase]

/-- What the arguments of an acquisition convert to. -/
def acquisition? (pl : Platform) (arguments : Json) : Option AcquisitionMetadata := do
  let triggerLevel ← (arguments.find? "level").bind Json.float?
  let triggerSource ← (arguments.find? "source").bind (Json.uint32? pl)
  let mode ← (arguments.find? "mode").bind Json.text?
  let levelType ← (arguments.find? "level_type").bind Json.text?
  let triggerMode ← (arguments.find? "trigger").bind Json.text?
  let triggerPoint ← (arguments.find? "trigger_point").bind (Json.uint32? pl)
  let prescaler ← (arguments.find? "prescaler").bind (Json.uint32? pl)
  pure ⟨mode, triggerMode, triggerSource, triggerLevel, levelType, triggerPoint, prescaler⟩

/-- All of an acquisition is there, and the bus maps the registers of a scope with an address. -/
def AcquisitionAnswered (pl : Platform) (arguments : Json) (s : ScopeEndpoints) : Prop :=
  ∃ data, acquisition? pl arguments = some data ∧ (s.scopeBaseAddress ≠ 0 →
    ∀ write ∈ acquisitionWrites pl s.scopeBaseAddress data, s.hw.MapsRegister (u64 write.1))

theorem mapsRegister_emit {hw : FpgaBridge} {rs : List Request} {address : Nat} :
    (hw.performAll rs).MapsRegister address ↔ hw.MapsRegister address := by
  rw [← @FpgaBridge.admits_write _ _ 0, FpgaBridge.admits_performAll, FpgaBridge.admits_write]

theorem onBridge_writeDirect_eq_ok {addr val : Nat} {u : Unit} {s' : ScopeEndpoints} :
    (onBridge (FpgaBridge.writeDirect addr val)).run s = .ok u s' ↔
      s.hw.MapsRegister (u64 addr) ∧
        s' = { s with hw := s.hw.performAll [.write (u64 addr) (u32 val)] } := by
  simp only [onBridge, Exec.zoom_eq_ok, FpgaBridge.writeDirect_eq_ok, FpgaBridge.admits_write]
  constructor
  · rintro ⟨hw, ⟨hmaps, rfl⟩, rfl⟩
    exact ⟨hmaps, rfl⟩
  · rintro ⟨hmaps, rfl⟩
    exact ⟨_, ⟨hmaps, rfl⟩, rfl⟩

theorem answers_writes (writes : List (Nat × Nat)) :
    Answers (forM writes fun write => onBridge (FpgaBridge.writeDirect write.1 write.2)) s ↔
      ∀ write ∈ writes, s.hw.MapsRegister (u64 write.1) := by
  induction writes generalizing s with
  | nil => exact iff_of_true (answers_pure _) nofun
  | cons write writes ih =>
    rw [List.forM_cons, answers_bind, List.forall_mem_cons]
    simp only [onBridge_writeDirect_eq_ok, ih, and_assoc, exists_and_left, exists_eq_left,
      exists_const, mapsRegister_emit]

theorem answers_processSetAcquisition :
    Answers (processSetAcquisition pl arguments) s ↔ AcquisitionAnswered pl arguments s := by
  unfold AcquisitionAnswered acquisition?
  simp only [processSetAcquisition, answers_read_bind (show Json.float? .null = none from rfl),
    answers_read_bind (show Json.uint32? pl .null = none from rfl),
    answers_read_bind (show Json.text? .null = none from rfl), answers_bind_pure,
    setAcquisition, answers_gets_bind, answers_when, answers_writes]
  constructor
  · rintro ⟨level, hlevel, source, hsource, mode, hmode, levelType, htype, trigger, htrigger, point,
      hpoint, prescaler, hprescaler, hmaps⟩
    refine ⟨_, ?_, hmaps⟩
    simp [hlevel, hsource, hmode, htype, htrigger, hpoint, hprescaler]
  · rintro ⟨data, hdata, hmaps⟩
    simp only [Option.bind_eq_bind, Option.bind_eq_some_iff, Option.pure_def,
      Option.some.injEq] at hdata
    simp only [Option.bind_eq_some_iff]
    obtain ⟨level, hlevel, source, hsource, mode, hmode, levelType, htype, trigger, htrigger, point,
      hpoint, prescaler, hprescaler, rfl⟩ := hdata
    exact ⟨level, hlevel, source, hsource, mode, hmode, levelType, htype, trigger, htrigger, point,
      hpoint, prescaler, hprescaler, hmaps⟩

/-- An address that passes the tests is stored when the buffer has one too and the bus maps the
register. A missing address passes none. -/
def ScopeAddressAnswered (w : Surroundings) (arguments : Json) (s : ScopeEndpoints) : Prop :=
  ((∃ members, arguments = .object members) ∨ arguments = .null) ∧
    ∀ address bufferOffset addr, arguments.find? "address" = some address →
      isScopeAddress w.env.platform address = true →
      arguments.find? "dma_buffer_offset" = some (.numberUnsigned bufferOffset) →
      address.uint64? w.env.platform = some addr →
      (∃ file, w.devices.ifDict.getBufferAddressIf = .ok file) ∧
        s.hw.MapsRegister (u64 (addr + u64 bufferOffset))

theorem answers_setScopeAddress {addr bufferOffset : Nat} :
    Answers (setScopeAddress w addr bufferOffset) s ↔
      (∃ file, w.devices.ifDict.getBufferAddressIf = .ok file) ∧
        s.hw.MapsRegister (u64 (addr + bufferOffset)) := by
  have hset : Answers (setScopeAddress w addr bufferOffset) s ↔
      Answers (onBridge (FpgaBridge.setScopeData w.devices.ifDict w.bufferAddress
        (addr + bufferOffset))) s := by
    rw [setScopeAddress, answers_bind]
    exact ⟨fun ⟨a, t, h, _⟩ => ⟨a, t, h⟩, fun ⟨a, t, h⟩ => ⟨a, t, h, _, _, rfl⟩⟩
  rw [hset, answers_onBridge, FpgaBridge.setScopeData, answers_ofExcept_bind]
  simp only [FpgaBridge.answers_writeDirect, exists_and_right]

theorem answers_processSetScopeAddress :
    Answers (processSetScopeAddress w arguments) s ↔ ScopeAddressAnswered w arguments s := by
  rw [processSetScopeAddress, answers_atOrNull_bind, ScopeAddressAnswered]
  refine and_congr_right fun hroot => ?_
  cases hkey : arguments.find? "address" with
  | none => exact iff_of_true (answers_pure _) nofun
  | some address =>
    simp only [Option.getD_some, Option.some.injEq]
    split
    · exact iff_of_true (answers_pure _) (by rintro _ _ _ rfl ⟨⟩)
    · rw [answers_atOrNull_bind, and_iff_right hroot]
      split
      · rename_i bufferOffset haddress hoffset
        obtain ⟨addr, haddr⟩ : ∃ addr, address.uint64? w.env.platform = some addr := by
          cases address <;> first | exact ⟨_, rfl⟩ | cases haddress
        have hsome : arguments.find? "dma_buffer_offset" = some (.numberUnsigned bufferOffset) := by
          cases h : arguments.find? "dma_buffer_offset" <;> simp_all
        simp only [answers_get_bind, answers_bind_pure, answers_setScopeAddress, haddr, hsome,
          Option.some.injEq, exists_eq_left']
        constructor
        · rintro h _ _ _ rfl - ⟨⟩ haddr'
          rw [haddr] at haddr'
          exact Option.some.inj haddr' ▸ h
        · exact fun h => h address bufferOffset addr rfl haddress rfl haddr
      · rename_i hrefused
        refine iff_of_true (answers_pure _) ?_
        rintro _ bufferOffset _ rfl haddress hoffset
        exact absurd (by rw [hoffset]; rfl) (hrefused bufferOffset haddress)

/-- The condition under which a scope command is answered. -/
def CommandAnswered (w : Surroundings) (commandString : String) (arguments : Json)
    (s : ScopeEndpoints) : Prop :=
  if commandString = "read_data" then ReadDataAnswered w s
  else if commandString = "set_scaling_factors" then ScalingFactorsAnswered arguments
  else if commandString = "disable_scope_dma" then DisableDmaAnswered arguments s
  else if commandString = "set_channel_status" then ChannelStatusAnswered arguments
  else if commandString = "get_acquisition_status" then AcquisitionStatusAnswered s
  else if commandString = "set_acquisition" then AcquisitionAnswered w.env.platform arguments s
  else if commandString = "set_scope_address" then ScopeAddressAnswered w arguments s
  else True

theorem answers_processCommand {commandString : String} :
    Answers (processCommand w commandString arguments) s ↔
      CommandAnswered w commandString arguments s :=
  answers_ite answers_processReadData <|
  answers_ite answers_processSetScalingFactors <|
  answers_ite answers_processDisableDma <|
  answers_ite answers_processSetChannelStatus <|
  answers_ite answers_processGetAcquisitionStatus <|
  answers_ite answers_processSetAcquisition <|
  answers_ite answers_processSetScopeAddress <|
  iff_of_true (answers_pure _) trivial

end ScopeEndpoints

/-! ## Clocks -/

namespace PlatformEndpoints

variable {w : Surroundings} {pl : Platform} {arguments : Json} {s : PlatformEndpoints}
  {clockName : String}

theorem hw_tm (s : PlatformEndpoints) : s.tm.hw = none := rfl

theorem answers_onTiming {α : Type} {m : Exec Failure TimingManager α} :
    Answers (onTiming m) s ↔ Answers m s.tm :=
  answers_zoom

theorem checkClock_eq_ok {keys : List String} {missing : String} {isPrimary : Bool} :
    checkClock arguments ("is_primary" :: keys) missing = .ok isPrimary ↔
      arguments.find? "is_primary" = some (.boolean isPrimary) ∧
        ∀ key ∈ keys, ∃ v, arguments.find? key = some v := by
  simp only [← Option.ne_none_iff_exists', checkClock]
  split_ifs with hmissing
  · obtain ⟨key, hkey, hnone⟩ := hmissing
    refine iff_of_false nofun fun ⟨hprimary, hkeys⟩ => ?_
    rcases List.mem_cons.1 hkey with rfl | hkey
    · cases hnone.symm.trans hprimary
    · exact hkeys key hkey hnone
  · push Not at hmissing
    rw [and_iff_left fun key hkey => hmissing key (List.mem_cons_of_mem _ hkey)]
    split
    · rename_i hprimary
      simp [hprimary]
    · rename_i hother
      exact iff_of_false nofun (hother isPrimary)

/-- A refusal is an answer. -/
theorem answers_checkClock {keys : List String} {missing : String}
    {f : Bool → Exec Failure PlatformEndpoints Response} :
    Answers (match checkClock arguments ("is_primary" :: keys) missing with
      | .error response => pure response
      | .ok isPrimary => f isPrimary) s ↔
      ∀ isPrimary, arguments.find? "is_primary" = some (.boolean isPrimary) →
        (∀ key ∈ keys, ∃ v, arguments.find? key = some v) → Answers (f isPrimary) s := by
  simp only [← and_imp, ← @checkClock_eq_ok _ _ missing]
  cases checkClock arguments ("is_primary" :: keys) missing with
  | error response => exact iff_of_true (answers_pure _) nofun
  | ok isPrimary => simp

/-- The base clock can be read, or the generated clock computed. The clock of an unknown name is
computed from zeros. -/
def ClockRead (pl : Platform) (isPrimary : Bool) (id : Json) (s : PlatformEndpoints) : Prop :=
  if isPrimary then
    ∃ clkN, id.uint32? pl = some clkN ∧ TimingManager.ReadsClock pl (UInt8.ofNat clkN)
  else ∃ clockName, id.text? = some clockName ∧
    TimingManager.ComputesClock pl ((s.generatedClocks clockName).getD .zero)

/-- The request is refused, or the clock can be read. -/
def GetClockAnswered (pl : Platform) (arguments : Json) (s : PlatformEndpoints) : Prop :=
  ∀ isPrimary, arguments.find? "is_primary" = some (.boolean isPrimary) →
    ∀ id, arguments.find? "id" = some id → ClockRead pl isPrimary id s

theorem answers_getBaseClock {clkN : UInt8} {tm : TimingManager} :
    Answers (TimingManager.getBaseClock pl clkN) tm ↔ TimingManager.ReadsClock pl clkN := by
  simp only [Answers, TimingManager.getBaseClock_eq_ok, exists_and_left, exists_eq, and_true,
    TimingManager.exists_baseFrequency]

theorem answers_getGeneratedClock {tm : TimingManager} :
    Answers (TimingManager.getGeneratedClock pl clockName) tm ↔
      TimingManager.ComputesClock pl ((tm.generatedClocks clockName).getD .zero) := by
  unfold Answers
  cases hclock : tm.generatedClocks clockName with
  | none =>
    rw [TimingManager.run_getGeneratedClock_unknown pl hclock]
    simp [Exec.require_eq_ok, TimingManager.ComputesClock, TimingManager.ReadsClock,
      ClockDefinition.zero]
  | some c =>
    rw [TimingManager.run_getGeneratedClock pl hclock, Option.getD_some,
      TimingManager.ComputesClock, ← TimingManager.exists_baseFrequency tm.psPlClkF]
    cases TimingManager.baseFrequency pl tm.psPlClkF c.baseClock with
    | none => simp
    | some baseFreq =>
      rw [← TimingManager.exists_generatedFrequency baseFreq]
      dsimp only
      cases TimingManager.generatedFrequency pl c baseFreq with
      | none => simp
      | some f => simp

theorem answers_processGetClock :
    Answers (processGetClock w arguments) s ↔ GetClockAnswered w.env.platform arguments s := by
  refine answers_checkClock.trans
    (forall_congr' fun isPrimary => imp_congr_right fun hprimary => ?_)
  simp only [List.forall_mem_singleton]
  cases hid : arguments.find? "id" with
  | none => simp
  | some id =>
    simp only [Option.some.injEq, exists_eq', forall_const, forall_eq', answers_atOrNull_bind, hid,
      Json.object_of_find? hprimary, Option.getD_some, true_or, true_and, ClockRead]
    cases isPrimary with
    | false =>
      simp only [Bool.false_eq_true, if_false, answers_get_bind, answers_bind_pure,
        answers_onTiming, answers_getGeneratedClock]
      exact Iff.rfl
    | true =>
      simp only [if_true, answers_get_bind, answers_bind_pure, answers_onTiming,
        answers_getBaseClock]

/-- The frequency and the clock are numbers, the architecture has a file for the clock, and the
platform calls `set_pl_clock` through the null bridge. -/
def BaseClockSet (w : Surroundings) (id value : Json) : Prop :=
  (∃ freq, value.uint32? w.env.platform = some freq) ∧
    (∃ clkN, id.uint32? w.env.platform = some clkN ∧
      ∃ file, w.devices.ifDict.getClockIf (UInt8.ofNat clkN) = .ok file) ∧
    w.env.platform.nullCalls = true

/-- `m`, `d` and `p` are numbers, and a definition with the name has a multiplier, or the platform
does without the bridge. -/
def GeneratedClockSet (pl : Platform) (id value : Json) (s : PlatformEndpoints) : Prop :=
  (∃ clockName, id.text? = some clockName ∧
    ∀ c, s.generatedClocks clockName = some c →
      c.multiplierPresent = true ∨ pl.nullWrites = true) ∧
    ∀ key ∈ ["m", "d", "p"], ∃ n, (value.find? key).bind (Json.uint32? pl) = some n

/-- The request is refused, or the clock can be set. -/
def SetClockAnswered (w : Surroundings) (arguments : Json) (s : PlatformEndpoints) : Prop :=
  ∀ isPrimary, arguments.find? "is_primary" = some (.boolean isPrimary) →
    ∀ id, arguments.find? "id" = some id → ∀ value, arguments.find? "value" = some value →
      if isPrimary then BaseClockSet w id value
      else GeneratedClockSet w.env.platform id value s

theorem answers_clockFactor_bind {σ β : Type} {t : σ} {value : Json} {key : String}
    {f : UInt16 → Exec Failure σ β} : Answers (clockFactor pl value key >>= f) t ↔
      ∃ n, (value.find? key).bind (Json.uint32? pl) = some n ∧ Answers (f (UInt16.ofNat n)) t := by
  have hread : clockFactor pl value key >>= f =
      ScopeEndpoints.read value key (Json.uint32? pl) >>= fun n => f (UInt16.ofNat n) := by
    simp only [clockFactor, ScopeEndpoints.read, bind_assoc, pure_bind]
  rw [hread, ScopeEndpoints.answers_read_bind rfl]

theorem exists_setPlClock {dev : Devices} {clkN : UInt8} (freq : UInt32) :
    (∃ code, FpgaBridge.setPlClock dev clkN freq = .ok code) ↔
      ∃ file, dev.ifDict.getClockIf clkN = .ok file := by
  unfold FpgaBridge.setPlClock
  cases dev.ifDict.getClockIf clkN <;> simp [Except.map]

theorem answers_setBaseClock {dev : Devices} {clkN : UInt8} {clkF : UInt64}
    {tm : TimingManager} (hhw : tm.hw = none) :
    Answers (TimingManager.setBaseClock pl dev clkN clkF) tm ↔
      (∃ file, dev.ifDict.getClockIf clkN = .ok file) ∧ pl.nullCalls = true := by
  unfold Answers
  have hcalls : TimingManager.CallsBridge pl tm ↔ pl.nullCalls = true :=
    or_iff_right (not_not.2 hhw)
  by_cases hnull : pl.nullCalls = true
  · rw [TimingManager.run_setBaseClock pl dev clkN clkF (hcalls.2 hnull), and_iff_left hnull,
      ← exists_setPlClock clkF.toUInt32]
    cases FpgaBridge.setPlClock dev clkN clkF.toUInt32 <;> simp
  · rw [TimingManager.run_setBaseClock_null pl dev clkN clkF (mt hcalls.1 hnull)]
    simp [hnull]

/-- A definition with a multiplier does without the bridge. -/
theorem answers_setGeneratedClock {m d p : UInt16} {tm : TimingManager} (hhw : tm.hw = none) :
    Answers (TimingManager.setGeneratedClock pl clockName m d p) tm ↔
      ∀ c, tm.generatedClocks clockName = some c →
        c.multiplierPresent = true ∨ pl.nullWrites = true := by
  rw [TimingManager.setGeneratedClock, answers_gets_bind]
  cases tm.generatedClocks clockName with
  | none => exact iff_of_true (answers_pure _) nofun
  | some stored =>
    dsimp only
    split_ifs with hpresent
    · exact iff_of_true ⟨_, _, rfl⟩ fun c hc => Or.inl (Option.some.inj hc ▸ hpresent)
    · rw [answers_bind_pure]
      constructor
      · rintro ⟨u, t, hrun⟩ c -
        exact Or.inr ((TimingManager.setupClockDivider_null_eq_ok hhw).1 hrun).1
      · intro h
        have hwrites := (h stored rfl).resolve_left hpresent
        exact ⟨(), tm, (TimingManager.setupClockDivider_null_eq_ok hhw).2 ⟨hwrites, rfl⟩⟩

theorem answers_processSetClock :
    Answers (processSetClock w arguments) s ↔ SetClockAnswered w arguments s := by
  refine answers_checkClock.trans
    (forall_congr' fun isPrimary => imp_congr_right fun hprimary => ?_)
  simp only [List.forall_mem_cons, List.not_mem_nil, false_implies, forall_const, and_true]
  cases hid : arguments.find? "id" with
  | none => simp
  | some id =>
    cases hvalue : arguments.find? "value" with
    | none => simp
    | some value =>
      simp only [Option.some.injEq, exists_eq', and_self, forall_const, forall_eq',
        answers_atOrNull_bind, hid, hvalue, Json.object_of_find? hprimary, Option.getD_some,
        true_or, true_and]
      cases isPrimary with
      | false =>
        simp only [Bool.false_eq_true, if_false, answers_get_bind, answers_clockFactor_bind,
          answers_bind_pure, answers_onTiming, answers_setGeneratedClock s.hw_tm,
          GeneratedClockSet, List.forall_mem_cons, List.not_mem_nil, false_implies, forall_const,
          and_true]
        constructor
        · rintro ⟨clockName, hname, m, hm, d, hd, p, hp, hpresent⟩
          exact ⟨⟨clockName, hname, hpresent⟩, ⟨m, hm⟩, ⟨d, hd⟩, p, hp⟩
        · rintro ⟨⟨clockName, hname, hpresent⟩, ⟨m, hm⟩, ⟨d, hd⟩, p, hp⟩
          exact ⟨clockName, hname, m, hm, d, hd, p, hp, hpresent⟩
      | true =>
        simp only [if_true, answers_get_bind, answers_bind_pure, answers_onTiming,
          answers_setBaseClock s.hw_tm, BaseClockSet]
        constructor
        · rintro ⟨freq, hfreq, clkN, hclkN, hfile, hnull⟩
          exact ⟨⟨freq, hfreq⟩, ⟨clkN, hclkN, hfile⟩, hnull⟩
        · rintro ⟨⟨freq, hfreq⟩, ⟨clkN, hclkN, hfile⟩, hnull⟩
          exact ⟨freq, hfreq, clkN, hclkN, hfile, hnull⟩

/-- The commands on the platform that are answered. -/
def CommandAnswered (w : Surroundings) (commandString : String) (arguments : Json)
    (s : PlatformEndpoints) : Prop :=
  if commandString = "set_pl_clock" then SetClockAnswered w arguments s
  else if commandString = "get_clock" then GetClockAnswered w.env.platform arguments s
  else True

theorem answers_processGetVersion : Answers (processGetVersion w arguments) s := by
  unfold processGetVersion
  split <;> exact answers_pure _

theorem answers_processSetDebugLevel : Answers (processSetDebugLevel arguments) s := by
  unfold processSetDebugLevel
  split <;> exact ⟨_, _, rfl⟩

theorem answers_processCommand {commandString : String} :
    Answers (processCommand w commandString arguments) s ↔
      CommandAnswered w commandString arguments s := by
  refine answers_ite answers_processSetClock <| answers_ite answers_processGetClock <|
    iff_of_true ?_ trivial
  split_ifs
  · exact answers_processGetVersion
  · exact answers_processSetDebugLevel
  · exact ⟨_, _, rfl⟩
  · exact answers_pure _

end PlatformEndpoints

end UscopeDriver
