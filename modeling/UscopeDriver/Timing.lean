import UscopeDriver.Bridge

/-!
# Clocks

The timing manager keeps the frequencies of the four base clocks and a definition for each
generated clock. `ClockBook` says what a run of requests asks for : the base frequencies last
set, and for each name the definition last added and the one last requested. The stored
definitions follow the requested ones in the multiplier only (`Stored`), for the divider of
`set_generated_clock` goes to a copy.
-/

namespace UscopeDriver

/-- A clock that a generator derives from a base clock. -/
structure ClockDefinition where
  multiplier : UInt16
  divider : UInt16
  baseClock : UInt8
  generatorBaseAddress : UInt64
  multiplierPresent : Bool
  phase : UInt64
  deriving DecidableEq, Repr

/-- What a map makes for a missing key. -/
def ClockDefinition.zero : ClockDefinition := ⟨0, 0, 0, 0, false, 0⟩

/-- The timing manager with its clocks. -/
structure TimingManager where
  /-- Null in a manager that was made by the default constructor. -/
  hw : Option FpgaBridge
  psPlClkF : Fin 4 → UInt64
  generatedClocks : String → Option ClockDefinition

namespace TimingManager

/-- The manager as constructed on a bridge. -/
def construct (hw : FpgaBridge) : TimingManager where
  hw := some hw
  psPlClkF := fun i => (FpgaBridge.getPlClock (UInt8.ofNat i)).toUInt64
  generatedClocks := fun _ => none

/-- `hw->write_direct`, of which the platform knows what it does through a null pointer. -/
def writeDirect (pl : Platform) (addr : UInt64) (val : UInt16) :
    Exec Failure TimingManager Unit := do
  match ← Exec.gets (·.hw) with
  | none => Exec.throwIf (pl.nullWrites = false) (.undefined .nullPointer)
  | some hw =>
    Exec.zoom (fun _ => hw) (fun hw tm => { tm with hw := some hw })
      (FpgaBridge.writeDirect addr.toNat val.toNat)

/-- A position in `ps_pl_clk_f`. -/
def baseClockIndex {σ : Type} (clkN : UInt8) : Exec Failure σ (Fin 4) :=
  if h : clkN.toNat < 4 then pure ⟨clkN.toNat, h⟩ else throw (.undefined .arrayIndex)

/-- A call on the shared bridge that touches no member of it, so it is the platform's whether it
needs one. -/
def onAnyBridge {α : Type} (pl : Platform) (x : Except Failure α) :
    Exec Failure TimingManager α := do
  let hw ← Exec.gets (·.hw)
  Exec.throwIf (hw.isNone = true ∧ pl.nullCalls = false) (.undefined .nullPointer)
  Exec.ofExcept x

/-- The file gets 32 bits of the frequency. -/
def setBaseClock (pl : Platform) (dev : Devices) (clkN : UInt8) (clkF : UInt64) :
    Exec Failure TimingManager ResponseCode := do
  let resp ← onAnyBridge pl (FpgaBridge.setPlClock dev clkN clkF.toUInt32)
  Exec.when (resp = .ok) do
    let i ← baseClockIndex clkN
    modify fun tm => { tm with psPlClkF := Function.update tm.psPlClkF i clkF }
  pure resp

/-- `ps_pl_clk_f[clk_n]`, which has four elements. -/
def getBaseClock (pl : Platform) (clkN : UInt8) : Exec Failure TimingManager UInt64 :=
  if h : clkN.toNat < 4 then Exec.gets (·.psPlClkF ⟨_, h⟩)
  else Exec.require (pl.pastClocks clkN) (.undefined .arrayIndex)

/-- `generated_clocks[clock_name] = c` -/
def addGeneratedClock (clockName : String) (c : ClockDefinition) :
    Exec Failure TimingManager Unit :=
  modify fun tm =>
    { tm with generatedClocks := Function.update tm.generatedClocks clockName (some c) }

/-- Not implemented by the hardware. -/
def setupPll (_baseAddress : UInt64) (_div _mult _phase : UInt16) :
    Exec Failure TimingManager Unit :=
  pure ()

/-- The divider and the phase of a generator. -/
def setupClockDivider (pl : Platform) (baseAddress : UInt64) (div phase : UInt16) :
    Exec Failure TimingManager Unit := do
  writeDirect pl (baseAddress + 0x4) div
  writeDirect pl (baseAddress + 0x8) phase

/-- The divider and the phase go to a copy of the definition, the multiplier to the map. -/
def setGeneratedClock (pl : Platform) (clockName : String) (m d p : UInt16) :
    Exec Failure TimingManager ResponseCode := do
  match ← Exec.gets (·.generatedClocks clockName) with
  | none => pure .ok
  | some stored => do
    let clkDef := { stored with divider := d, phase := p.toUInt64 }
    if clkDef.multiplierPresent then
      addGeneratedClock clockName { stored with multiplier := m }
      setupPll clkDef.generatorBaseAddress clkDef.divider clkDef.multiplier clkDef.phase.toUInt16
    else
      setupClockDivider pl clkDef.generatorBaseAddress clkDef.divider clkDef.phase.toUInt16
    pure .ok

/-- `generated_clocks[clock_name]`, which makes the definition if there is none. -/
def definitionOf (clockName : String) : Exec Failure TimingManager ClockDefinition := do
  match ← Exec.gets (·.generatedClocks clockName) with
  | some c => pure c
  | none => do
    addGeneratedClock clockName .zero
    pure .zero

/-- The divider may be zero. -/
def getGeneratedClock (pl : Platform) (clockName : String) :
    Exec Failure TimingManager UInt64 := do
  let clkDef ← definitionOf clockName
  let baseFreq ← getBaseClock pl clkDef.baseClock
  if clkDef.divider = 0 then Exec.require pl.divideByZero (.undefined .divisionByZero)
  else pure (baseFreq * clkDef.multiplier.toUInt64 / clkDef.divider.toUInt64)

/-! ## What each call does -/

section

variable {tm tm' : TimingManager} {clockName : String} {c : ClockDefinition}

theorem run_writeDirect_null (pl : Platform) (addr : UInt64) (val : UInt16) (hhw : tm.hw = none) :
    (writeDirect pl addr val).run tm =
      (Exec.throwIf (pl.nullWrites = false) (.undefined .nullPointer)).run tm := by
  unfold writeDirect
  rw [Exec.run_gets_bind, hhw]

theorem run_writeDirect (pl : Platform) (addr : UInt64) (val : UInt16) {hw : FpgaBridge}
    (hhw : tm.hw = some hw) : (writeDirect pl addr val).run tm =
      (Exec.zoom (fun _ => hw) (fun hw tm => { tm with hw := some hw })
        (FpgaBridge.writeDirect addr.toNat val.toNat)).run tm := by
  unfold writeDirect
  rw [Exec.run_gets_bind, hhw]

/-- Without a bridge the platform has whether a generator can be set up. -/
theorem setupClockDivider_null_eq_ok {pl : Platform} {baseAddress : UInt64} {div phase : UInt16}
    {u : Unit} (hhw : tm.hw = none) :
    (setupClockDivider pl baseAddress div phase).run tm = .ok u tm' ↔
      pl.nullWrites = true ∧ tm' = tm := by
  have hnull : ∀ addr val {v : Unit} {t}, (writeDirect pl addr val).run tm = .ok v t ↔
      pl.nullWrites = true ∧ t = tm := fun addr val v t => by
    rw [run_writeDirect_null pl addr val hhw, Exec.throwIf_eq_ok, Bool.not_eq_false]
  unfold setupClockDivider
  rw [Exec.bind_eq_ok]
  constructor
  · rintro ⟨v, t, hfirst, hsecond⟩
    obtain ⟨-, rfl⟩ := (hnull _ _).1 hfirst
    exact (hnull _ _).1 hsecond
  · intro h
    exact ⟨(), tm, (hnull _ _).2 ⟨h.1, rfl⟩, (hnull _ _).2 h⟩

/-- The manager can call what touches no member. -/
def CallsBridge (pl : Platform) (tm : TimingManager) : Prop :=
  tm.hw ≠ none ∨ pl.nullCalls = true

theorem run_onAnyBridge {α : Type} (pl : Platform) (x : Except Failure α)
    (h : CallsBridge pl tm) : (onAnyBridge pl x).run tm = (Exec.ofExcept x).run tm := by
  have hcond : ¬(tm.hw.isNone = true ∧ pl.nullCalls = false) := by
    rcases h with h | h
    · simp [h]
    · simp [h]
  unfold onAnyBridge
  rw [Exec.run_gets_bind, Exec.throwIf, Exec.when, if_neg hcond]
  rfl

theorem run_setBaseClock_null (pl : Platform) (dev : Devices) (clkN : UInt8) (clkF : UInt64)
    (h : ¬CallsBridge pl tm) :
    (setBaseClock pl dev clkN clkF).run tm = .error (.undefined .nullPointer) tm := by
  rw [CallsBridge, not_or, not_not, Bool.not_eq_true] at h
  have hcond : tm.hw.isNone = true ∧ pl.nullCalls = false := ⟨by rw [h.1]; rfl, h.2⟩
  unfold setBaseClock onAnyBridge
  rw [EStateM.run_bind, Exec.run_gets_bind, Exec.throwIf, Exec.when, if_pos hcond]
  rfl

theorem run_setBaseClock (pl : Platform) (dev : Devices) (clkN : UInt8) (clkF : UInt64)
    (h : CallsBridge pl tm) : (setBaseClock pl dev clkN clkF).run tm =
      match FpgaBridge.setPlClock dev clkN clkF.toUInt32 with
      | .error e => .error e tm
      | .ok r => .ok r { tm with psPlClkF := fun i =>
          if r = .ok ∧ i.val = clkN.toNat then clkF else tm.psPlClkF i } := by
  unfold setBaseClock
  rw [EStateM.run_bind, run_onAnyBridge _ _ h]
  obtain ⟨hw', psPlClkF, clocks⟩ := tm
  cases hset : FpgaBridge.setPlClock dev clkN clkF.toUInt32 with
  | error e => rfl
  | ok r =>
    have hlt := FpgaBridge.lt_four_of_setPlClock hset
    have hupdate : Function.update psPlClkF ⟨clkN.toNat, hlt⟩ clkF = fun i =>
        if i.val = clkN.toNat then clkF else psPlClkF i := by
      funext i
      simp [Function.update_apply, Fin.ext_iff]
    by_cases hr : r = .ok
    · subst hr
      simp only [true_and, ← hupdate]
      simp only [Exec.ofExcept, EStateM.run_pure, Exec.when, if_true, baseClockIndex, hlt, dif_pos]
      rfl
    · simp [Exec.ofExcept, Exec.when, hr]

/-- A write to the bridge leaves the clocks alone. -/
def SameClocks (tm tm' : TimingManager) : Prop :=
  tm'.psPlClkF = tm.psPlClkF ∧ tm'.generatedClocks = tm.generatedClocks

instance : IsPreorder TimingManager SameClocks where
  refl := fun _ => ⟨rfl, rfl⟩
  trans := fun _ _ _ h h' => ⟨h'.1.trans h.1, h'.2.trans h.2⟩

theorem frame_writeDirect (pl : Platform) (addr : UInt64) (val : UInt16) :
    Exec.Frame Failure.Fatal True SameClocks (writeDirect pl addr val) := by
  intro tm
  unfold Exec.FrameAt
  cases hhw : tm.hw with
  | none =>
    rw [run_writeDirect_null pl addr val hhw]
    exact Exec.frame_throwIf (fun _ => Or.inr trivial) tm
  | some hw =>
    rw [run_writeDirect pl addr val hhw, Exec.run_zoom]
    cases (FpgaBridge.writeDirect addr.toNat val.toNat).run hw with
    | ok a hw' => exact ⟨rfl, rfl⟩
    | error e hw' => exact Or.inr ⟨trivial, rfl, rfl⟩

/-- Of a definition, only the multiplier changes. -/
theorem settle_setGeneratedClock {pl : Platform} {m d p : UInt16}
    (h : Exec.settle Failure.Fatal (setGeneratedClock pl clockName m d p) tm = some tm') :
    tm'.psPlClkF = tm.psPlClkF ∧
      tm'.generatedClocks = Function.update tm.generatedClocks clockName
        ((tm.generatedClocks clockName).map fun c =>
          { c with multiplier := if c.multiplierPresent then m else c.multiplier }) := by
  unfold Exec.settle setGeneratedClock at h
  rw [Exec.run_gets_bind] at h
  cases hc : tm.generatedClocks clockName with
  | none =>
    obtain rfl : tm = tm' := by simpa [hc] using h
    rw [Option.map_none, ← hc, Function.update_eq_self]
    exact ⟨rfl, rfl⟩
  | some c =>
    obtain ⟨mult, div, baseClock, base, present, phase⟩ := c
    simp only [hc] at h
    cases present with
    | true =>
      obtain rfl := Option.some.inj h
      exact ⟨rfl, rfl⟩
    | false =>
      have hframe : Exec.Frame Failure.Fatal True SameClocks
          (do setupClockDivider pl base d p.toUInt64.toUInt16; pure ResponseCode.ok) :=
        ((frame_writeDirect _ _ _).bind fun _ => frame_writeDirect _ _ _).bind fun _ =>
          Exec.frame_pure _
      obtain ⟨hf, hg⟩ := (hframe tm).of_settle h
      refine ⟨hf, hg.trans ?_⟩
      exact (Function.update_eq_self_iff.2 hc.symm).symm

/-- The frequency of a base clock, if the read does not trap. -/
def baseFrequency (pl : Platform) (psPlClkF : Fin 4 → UInt64) (clkN : UInt8) : Option UInt64 :=
  if h : clkN.toNat < 4 then some (psPlClkF ⟨_, h⟩) else pl.pastClocks clkN

/-- The frequency of a generated clock, if the division does not trap. -/
def generatedFrequency (pl : Platform) (c : ClockDefinition) (baseFreq : UInt64) : Option UInt64 :=
  if c.divider = 0 then pl.divideByZero
  else some (baseFreq * c.multiplier.toUInt64 / c.divider.toUInt64)

/-- The clock is one of the four, or the platform finds something behind them. -/
def ReadsClock (pl : Platform) (clkN : UInt8) : Prop :=
  clkN.toNat < 4 ∨ ∃ f, pl.pastClocks clkN = some f

/-- The base clock of the definition is read, and its divider is not zero or divides nonetheless. -/
def ComputesClock (pl : Platform) (c : ClockDefinition) : Prop :=
  ReadsClock pl c.baseClock ∧ (c.divider ≠ 0 ∨ ∃ f, pl.divideByZero = some f)

theorem exists_baseFrequency {pl : Platform} {clkN : UInt8} (psPlClkF : Fin 4 → UInt64) :
    (∃ f, baseFrequency pl psPlClkF clkN = some f) ↔ ReadsClock pl clkN := by
  unfold baseFrequency ReadsClock
  split_ifs with h <;> simp [h]

theorem exists_generatedFrequency {pl : Platform} (baseFreq : UInt64) :
    (∃ f, generatedFrequency pl c baseFreq = some f) ↔
      c.divider ≠ 0 ∨ ∃ f, pl.divideByZero = some f := by
  unfold generatedFrequency
  split_ifs with h <;> simp [h]

theorem getBaseClock_eq_ok {pl : Platform} {clkN : UInt8} {f : UInt64} :
    (getBaseClock pl clkN).run tm = .ok f tm' ↔
      baseFrequency pl tm.psPlClkF clkN = some f ∧ tm' = tm := by
  unfold getBaseClock baseFrequency
  split_ifs with h
  · rw [Exec.gets_eq_ok, Option.some.injEq, eq_comm]
  · exact Exec.require_eq_ok

/-- The definition is found, and both the read and the division give something. -/
theorem run_getGeneratedClock (pl : Platform) (h : tm.generatedClocks clockName = some c) :
    (getGeneratedClock pl clockName).run tm =
      match baseFrequency pl tm.psPlClkF c.baseClock with
      | none => .error (.undefined .arrayIndex) tm
      | some baseFreq => match generatedFrequency pl c baseFreq with
        | none => .error (.undefined .divisionByZero) tm
        | some f => .ok f tm := by
  unfold getGeneratedClock definitionOf getBaseClock baseFrequency generatedFrequency
  rw [EStateM.run_bind, Exec.run_gets_bind, h, EStateM.run_pure]
  by_cases hb : c.baseClock.toNat < 4
  · by_cases hd : c.divider = 0
    · simp only [hb, dif_pos, if_pos hd]
      cases pl.divideByZero <;> rfl
    · simp only [hb, dif_pos, if_neg hd]
      rfl
  · simp only [hb, dif_neg, not_false_eq_true]
    cases pl.pastClocks c.baseClock with
    | none => rfl
    | some baseFreq =>
      by_cases hd : c.divider = 0
      · simp only [if_pos hd]
        cases pl.divideByZero <;> rfl
      · simp only [if_neg hd]
        rfl

/-- For an unknown name, a definition of zeros is made and used. -/
theorem run_getGeneratedClock_unknown (pl : Platform)
    (h : tm.generatedClocks clockName = none) : (getGeneratedClock pl clockName).run tm =
      (Exec.require pl.divideByZero (.undefined .divisionByZero) : Exec Failure _ _).run { tm with
        generatedClocks := Function.update tm.generatedClocks clockName (some .zero) } := by
  unfold getGeneratedClock definitionOf
  rw [EStateM.run_bind, Exec.run_gets_bind, h]
  rfl

/-- Without success nothing is stored. -/
theorem eq_of_setBaseClock_failed {pl : Platform} {dev : Devices} {clkN : UInt8} {clkF : UInt64}
    (h : (∃ e, (setBaseClock pl dev clkN clkF).run tm = .error e tm') ∨
      ∃ r, r ≠ .ok ∧ (setBaseClock pl dev clkN clkF).run tm = .ok r tm') : tm' = tm := by
  by_cases hcalls : CallsBridge pl tm
  · rw [run_setBaseClock pl dev clkN clkF hcalls] at h
    cases hset : FpgaBridge.setPlClock dev clkN clkF.toUInt32 with
    | error e =>
      rw [hset] at h
      rcases h with ⟨e', h⟩ | ⟨r, -, h⟩
      · cases h
        rfl
      · cases h
    | ok r =>
      rw [hset] at h
      rcases h with ⟨e, h⟩ | ⟨r', hr, h⟩
      · cases h
      · cases h
        simp [hr]
  · rw [run_setBaseClock_null pl dev clkN clkF hcalls] at h
    rcases h with ⟨e, h⟩ | ⟨r, -, h⟩
    · cases h
      rfl
    · cases h

end

end TimingManager

/-! ## Runs of requests -/

/-- A request that changes the clocks. -/
inductive TimingCall where
  | addGeneratedClock (clockName : String) (c : ClockDefinition)
  | setBaseClock (pl : Platform) (dev : Devices) (clkN : UInt8) (clkF : UInt64)
  | setGeneratedClock (pl : Platform) (clockName : String) (m d p : UInt16)

/-- What a call runs. -/
def TimingCall.exec : TimingCall → Exec Failure TimingManager Unit
  | .addGeneratedClock clockName c => TimingManager.addGeneratedClock clockName c
  | .setBaseClock pl dev clkN clkF => discard (TimingManager.setBaseClock pl dev clkN clkF)
  | .setGeneratedClock pl clockName m d p =>
    discard (TimingManager.setGeneratedClock pl clockName m d p)

/-- The definition that `set_generated_clock` asks for. -/
def ClockDefinition.revise (c : ClockDefinition) (m d p : UInt16) : ClockDefinition where
  multiplier := if c.multiplierPresent then m else c.multiplier
  divider := d
  baseClock := c.baseClock
  generatorBaseAddress := c.generatorBaseAddress
  multiplierPresent := c.multiplierPresent
  phase := p.toUInt64

/-- What has been asked for. -/
structure ClockBook where
  /-- The frequency of each base clock last set successfully. -/
  frequency : Fin 4 → UInt64
  /-- The definition last given to `add_generated_clock`. -/
  added : String → Option ClockDefinition
  /-- The same with what was asked for since. -/
  requested : String → Option ClockDefinition

namespace ClockBook

/-- Before the first request. -/
def start (tm : TimingManager) : ClockBook := ⟨tm.psPlClkF, fun _ => none, fun _ => none⟩

/-- The book after a call. -/
def record (b : ClockBook) : TimingCall → ClockBook
  | .addGeneratedClock clockName c =>
    { b with
      added := Function.update b.added clockName (some c)
      requested := Function.update b.requested clockName (some c) }
  | .setBaseClock _ dev clkN clkF =>
    { b with
      frequency := fun i =>
        if FpgaBridge.setPlClock dev clkN clkF.toUInt32 = .ok .ok ∧ i.val = clkN.toNat then clkF
        else b.frequency i }
  | .setGeneratedClock _ clockName m d p =>
    { b with
      requested := Function.update b.requested clockName
        ((b.requested clockName).map (·.revise m d p)) }

/-- The last definition added, with the multiplier requested. -/
inductive Stored : Option ClockDefinition → Option ClockDefinition → Option ClockDefinition → Prop
  | unknown : Stored none none none
  | known {added requested : ClockDefinition} (hclock : requested.baseClock = added.baseClock)
      (hpresent : requested.multiplierPresent = added.multiplierPresent) :
      Stored (some added) (some requested) (some { added with multiplier := requested.multiplier })

/-- The manager keeps the base frequencies that were set, and `Stored` definitions. -/
def Tracks (b : ClockBook) (tm : TimingManager) : Prop :=
  tm.psPlClkF = b.frequency ∧
    ∀ name, Stored (b.added name) (b.requested name) (tm.generatedClocks name)

theorem tracks_start {tm : TimingManager} (h : tm.generatedClocks = fun _ => none) :
    (start tm).Tracks tm :=
  ⟨rfl, fun name => by rw [h]; exact .unknown⟩

theorem Stored.revise {added requested stored : Option ClockDefinition} (m d p : UInt16)
    (h : Stored added requested stored) :
    Stored added (requested.map (·.revise m d p)) (stored.map fun c =>
      { c with multiplier := if c.multiplierPresent then m else c.multiplier }) := by
  cases h with
  | unknown => exact .unknown
  | @known a c hclock hpresent =>
    have h' : Stored (some a) (some (c.revise m d p)) _ := .known hclock hpresent
    simpa [ClockDefinition.revise, hpresent] using h'

theorem tracks_record {call : TimingCall} {b : ClockBook} {tm tm' : TimingManager}
    (h : b.Tracks tm) (hrun : Exec.settle Failure.Fatal call.exec tm = some tm') :
    (b.record call).Tracks tm' := by
  cases call with
  | addGeneratedClock clockName c =>
    obtain rfl := Option.some.inj hrun
    refine ⟨h.1, fun name => ?_⟩
    simp only [record, Function.update_apply]
    split_ifs with hname
    · exact .known rfl rfl
    · exact h.2 name
  | setBaseClock pl dev clkN clkF =>
    rw [TimingCall.exec, Exec.settle_discard, Exec.settle] at hrun
    by_cases hcalls : TimingManager.CallsBridge pl tm
    · rw [TimingManager.run_setBaseClock pl dev clkN clkF hcalls] at hrun
      cases hset : FpgaBridge.setPlClock dev clkN clkF.toUInt32 with
      | error e =>
        simp only [hset] at hrun
        obtain rfl : tm = tm' := by
          split_ifs at hrun
          exact Option.some.inj hrun
        exact ⟨by simp [record, hset, h.1], h.2⟩
      | ok r =>
        simp only [hset] at hrun
        obtain rfl := Option.some.inj hrun
        exact ⟨by simp [record, hset, h.1], h.2⟩
    · rw [TimingManager.run_setBaseClock_null pl dev clkN clkF hcalls] at hrun
      simp [Failure.Fatal, Failure.Throws] at hrun
  | setGeneratedClock pl clockName m d p =>
    rw [TimingCall.exec, Exec.settle_discard] at hrun
    obtain ⟨hfrequency, hclocks⟩ := TimingManager.settle_setGeneratedClock hrun
    refine ⟨hfrequency.trans h.1, fun name => ?_⟩
    rw [hclocks]
    simp only [record, Function.update_apply]
    split_ifs with hname
    · subst hname
      exact (h.2 name).revise m d p
    · exact h.2 name

/-- Over a whole run, the manager tracks what was asked for. -/
theorem tracks_run {calls : List TimingCall} {tm tm' : TimingManager}
    (h : tm.generatedClocks = fun _ => none)
    (hrun : Exec.settleAll Failure.Fatal TimingCall.exec calls tm = some tm') :
    (calls.foldl record (start tm)).Tracks tm' :=
  Exec.settleAll_simulation (fun _ _ _ _ => tracks_record) (tracks_start h) hrun

/-! ## The frequency of a generated clock -/

/-- `get_generated_clock` returns the frequency requested for `name`, if there is one, and does
not divide by zero. Where such a division and a read behind the base clocks trap, neither does. -/
def Follows (b : ClockBook) (tm : TimingManager) (name : String) : Prop :=
  (∀ c, b.requested name = some c → c.divider ≠ 0 ∧ ∃ (h : c.baseClock.toNat < 4) (f : UInt64)
    (tm' : TimingManager), (TimingManager.getGeneratedClock .traps name).run tm = .ok f tm' ∧
      f.toNat = (b.frequency ⟨_, h⟩).toNat * c.multiplier.toNat / c.divider.toNat) ∧
  ∀ tm', (TimingManager.getGeneratedClock .traps name).run tm ≠
    .error (.undefined .divisionByZero) tm'

/-- `name` was added, over one of the four base clocks, neither the divider added nor the one
requested is zero, and they give the same quotient. -/
def SameQuotient (b : ClockBook) (name : String) : Prop :=
  ∃ a c, b.added name = some a ∧ b.requested name = some c ∧ a.divider ≠ 0 ∧ c.divider ≠ 0 ∧
    ∃ h : c.baseClock.toNat < 4,
      (b.frequency ⟨_, h⟩).toNat * c.multiplier.toNat % 2 ^ 64 / a.divider.toNat =
        (b.frequency ⟨_, h⟩).toNat * c.multiplier.toNat / c.divider.toNat

theorem toNat_quotient (f : UInt64) (m d : UInt16) :
    (f * m.toUInt64 / d.toUInt64).toNat = f.toNat * m.toNat % 2 ^ 64 / d.toNat := by
  rw [UInt64.toNat_div, UInt64.toNat_mul, UInt16.toNat_toUInt64, UInt16.toNat_toUInt64]

theorem follows_iff {b : ClockBook} {tm : TimingManager} (h : b.Tracks tm) (name : String) :
    b.Follows tm name ↔ b.SameQuotient name := by
  obtain ⟨hfrequency, hstored⟩ := h
  have hname := hstored name
  unfold Follows SameQuotient
  generalize hadded : b.added name = added at hname ⊢
  generalize hrequested : b.requested name = requested at hname ⊢
  generalize hclocks : tm.generatedClocks name = stored at hname
  cases hname with
  | unknown =>
    have hrun := TimingManager.run_getGeneratedClock_unknown .traps hclocks
    refine iff_of_false (fun hfollows => hfollows.2 _ hrun) ?_
    rintro ⟨a, c, ha, -⟩
    cases ha
  | @known a c hclock hpresent =>
    have hrun := TimingManager.run_getGeneratedClock .traps hclocks
    simp only [← hclock, hfrequency, TimingManager.baseFrequency] at hrun
    constructor
    · rintro ⟨hreturns, hzero⟩
      obtain ⟨hd, hb, f, tm', hf, hvalue⟩ := hreturns c rfl
      rw [hrun, dif_pos hb] at hf
      by_cases ha : a.divider = 0
      · simp only [TimingManager.generatedFrequency, if_pos ha] at hf
        cases hf
      · simp only [TimingManager.generatedFrequency, if_neg ha] at hf
        cases hf
        exact ⟨a, c, rfl, rfl, ha, hd, hb, by rw [← toNat_quotient, hvalue]⟩
    · rintro ⟨a', c', ha', hc', ha, hd, hb, hquotient⟩
      obtain rfl := Option.some.inj ha'
      obtain rfl := Option.some.inj hc'
      rw [dif_pos hb] at hrun
      simp only [TimingManager.generatedFrequency, if_neg ha] at hrun
      refine ⟨fun c' hc' => ?_, fun tm' herror => ?_⟩
      · obtain rfl := Option.some.inj hc'
        exact ⟨hd, hb, _, tm, hrun, by rw [toNat_quotient, hquotient]⟩
      · rw [hrun] at herror
        cases herror

end ClockBook

/-- In every run of requests from a manager without generated clocks, and for every name, the
frequency of the clock is the one requested and no division by zero happens exactly when the
name was added, over a base clock, with a divider that gives the same quotient as the one
requested. A `set_base_clock` that fails changes nothing. -/
theorem clocks_follow_iff {calls : List TimingCall} {tm tm' : TimingManager}
    (h : tm.generatedClocks = fun _ => none)
    (hrun : Exec.settleAll Failure.Fatal TimingCall.exec calls tm = some tm') :
    (∀ name, (calls.foldl ClockBook.record (.start tm)).Follows tm' name ↔
      (calls.foldl ClockBook.record (.start tm)).SameQuotient name) ∧
    ∀ pl dev clkN clkF t,
      ((∃ e, (TimingManager.setBaseClock pl dev clkN clkF).run tm' = .error e t) ∨
        ∃ r, r ≠ .ok ∧ (TimingManager.setBaseClock pl dev clkN clkF).run tm' = .ok r t) →
      t = tm' :=
  ⟨ClockBook.follows_iff (ClockBook.tracks_run h hrun), fun _ _ _ _ _ =>
    TimingManager.eq_of_setBaseClock_failed⟩

/-- A multiplier and a base frequency that are changed after the clock was added. -/
theorem clocks_follow_multiplier :
    let tm := TimingManager.construct ⟨.zynqmp, true⟩
    let calls : List TimingCall :=
      [.addGeneratedClock "adc" ⟨1, 4, 0, 0x4000, true, 0⟩,
        .setBaseClock .zeros ⟨⟨"zynqmp"⟩, fun _ => .written⟩ 0 200000000,
        .setGeneratedClock .zeros "adc" 3 4 0]
    ∃ tm', Exec.settleAll Failure.Fatal TimingCall.exec calls tm = some tm' ∧
      (calls.foldl ClockBook.record (.start tm)).Follows tm' "adc" := by
  intro tm calls
  refine ⟨_, rfl, ((clocks_follow_iff rfl rfl).1 "adc").2 ?_⟩
  exact ⟨_, _, rfl, rfl, by decide, by decide, by decide, by decide⟩

/-- After a divider of 2 is replaced by 4, the frequency is still half of the base. -/
theorem clocks_keep_divider :
    let tm := TimingManager.construct ⟨.zynqmp, true⟩
    let calls : List TimingCall :=
      [.addGeneratedClock "adc" ⟨1, 2, 0, 0x4000, true, 0⟩, .setGeneratedClock .zeros "adc" 1 4 0]
    ∃ tm', Exec.settleAll Failure.Fatal TimingCall.exec calls tm = some tm' ∧
      (TimingManager.getGeneratedClock .traps "adc").run tm' = .ok 49999999 tm' ∧
      ¬(calls.foldl ClockBook.record (.start tm)).Follows tm' "adc" := by
  intro tm calls
  have htracks : (calls.foldl ClockBook.record (.start tm)).Tracks _ :=
    ClockBook.tracks_run rfl rfl
  refine ⟨_, rfl, ?_, fun hfollows => ?_⟩
  · rw [TimingManager.run_getGeneratedClock .traps rfl, TimingManager.baseFrequency,
      dif_pos (by decide)]
    exact congrArg (EStateM.Result.ok · _) (by decide)
  obtain ⟨a, c, ha, hc, -, -, hb, hquotient⟩ := (ClockBook.follows_iff htracks "adc").1 hfollows
  obtain rfl := Option.some.inj ha
  obtain rfl := Option.some.inj hc
  exact absurd hquotient (show ¬99999999 * 1 % 2 ^ 64 / 2 = 99999999 * 1 / 4 by norm_num)

end UscopeDriver
