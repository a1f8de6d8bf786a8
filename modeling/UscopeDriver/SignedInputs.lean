import UscopeDriver.Frames
import UscopeDriver.LiveInputs

/-!
# Live updates with signed values

`update_input_value` converts its value to a `uint32_t` for every input that it finds, before it
looks whether the input is a `float`. The conversion of a negative value is undefined, for the
inputs of both kinds. The conversions of a call are those of a second version of it, in which an
undefined one is a failure : up to that failure the two versions are the same
(`updateDefinedValue_run`). So an update takes the negative integers only where it finds no input
(`acceptsInteger_iff`).
-/

namespace UscopeDriver

/-- The integer part is a `uint32_t`. -/
def FitsUint32 (x : ℚ) : Prop :=
  0 ≤ truncate x ∧ truncate x < 2 ^ 32

instance (x : ℚ) : Decidable (FitsUint32 x) :=
  inferInstanceAs (Decidable (_ ∧ _))

/-- The word that encodes a signed value. -/
def twosComplement (v : Int) : Nat := (v % 2 ^ 32).toNat

theorem truncate_intCast (v : Int) : truncate (v : ℚ) = v := by
  simp [truncate]

theorem fitsUint32_intCast {v : Int} (h : -2 ^ 31 ≤ v ∧ v < 2 ^ 31) :
    FitsUint32 (v : ℚ) ↔ 0 ≤ v := by
  rw [FitsUint32, truncate_intCast]
  omega

theorem toUint32_intCast (pl : Platform) {v : Int} (h₀ : 0 ≤ v) (h : v < 2 ^ 31) :
    pl.toUint32 (v : ℚ) = twosComplement v := by
  have hfits : 0 ≤ truncate (v : ℚ) ∧ truncate (v : ℚ) < 2 ^ 32 := by
    rw [truncate_intCast]
    omega
  rw [Platform.toUint32, if_pos hfits, truncate_intCast, twosComplement]
  omega

namespace DeployerBase

/-- `static_cast<uint32_t>`, where it is defined. -/
def definedUint32 (x : ℚ) : Exec Failure DeployerBase Nat := do
  Exec.throwIf (¬FitsUint32 x) (.undefined .conversion)
  pure (truncate x).toNat

/-- `writeInputValue`, statement by statement. -/
def writeDefinedValue (pl : Platform) (rawValue : ℚ) (input : InputMetadata) :
    Exec Failure DeployerBase Unit := do
  let converted ← definedUint32 rawValue
  let value := if input.isFloat then u32 (pl.floatToUint32 rawValue) else converted
  writeRegister pl (input.constIpAddr.1 + constSelector) input.constIpAddr.2
  writeRegister pl (input.constIpAddr.1 + constDest) input.dest
  writeRegister pl (input.constIpAddr.1 + constLsb) value

/-- `updateInputValue`, with a failure for an undefined conversion. -/
def updateDefinedValue (pl : Platform) (coreName name : String) (channel : Nat) (rawValue : ℚ) :
    Exec Failure DeployerBase Unit := do
  let inputs ← Exec.gets (·.inputs)
  forM (inputs.filter fun i => i.name = name ∧ i.core = coreName ∧ i.channel = u16 channel)
    (writeDefinedValue pl rawValue)

variable {pl : Platform} {rawValue : ℚ} {s : DeployerBase}

theorem writeDefinedValue_of_fits (h : FitsUint32 rawValue) :
    writeDefinedValue pl rawValue = writeInputValue pl rawValue := by
  funext i
  have hvalue : liveValue pl i rawValue =
      if i.isFloat then u32 (pl.floatToUint32 rawValue) else (truncate rawValue).toNat := by
    rw [liveValue, Platform.toUint32, if_pos (show 0 ≤ truncate rawValue ∧ _ from h)]
  unfold writeDefinedValue writeInputValue
  rw [hvalue, definedUint32, Exec.throwIf, Exec.when, if_neg (not_not.2 h)]
  rfl

/-- The first input that an update finds is where it fails. -/
theorem updateDefinedValue_run (coreName name : String) (channel : Nat) :
    (updateDefinedValue pl coreName name channel rawValue).run s =
      if FitsUint32 rawValue ∨ addressedInputs coreName name channel s.inputs = [] then
        (updateInputValue pl coreName name channel rawValue).run s
      else .error (.undefined .conversion) s := by
  have hstrict : (updateDefinedValue pl coreName name channel rawValue).run s =
      (forM (addressedInputs coreName name channel s.inputs)
        (writeDefinedValue pl rawValue)).run s := rfl
  have hplain : (updateInputValue pl coreName name channel rawValue).run s =
      (forM (addressedInputs coreName name channel s.inputs)
        (writeInputValue pl rawValue)).run s := rfl
  rw [hstrict, hplain]
  by_cases hfits : FitsUint32 rawValue
  · rw [if_pos (Or.inl hfits), writeDefinedValue_of_fits hfits]
  cases hinputs : addressedInputs coreName name channel s.inputs with
  | nil =>
    rw [if_pos (Or.inr rfl)]
    rfl
  | cons i inputs =>
    rw [if_neg (by simp [hfits]), List.forM_cons, EStateM.run_bind]
    have hfirst : (writeDefinedValue pl rawValue i).run s =
        .error (.undefined .conversion) s := by
      rw [writeDefinedValue, EStateM.run_bind, definedUint32, Exec.run_throwIf_bind, if_pos hfits]
    rw [hfirst]

theorem updateInputValue_eq_error {coreName name : String} {channel : Nat} {e : Failure}
    {s' : DeployerBase}
    (h : (updateInputValue pl coreName name channel rawValue).run s = .error e s') :
    e = .exit := by
  have hwrite := @frame_writeRegister (· = Failure.exit) False rfl pl
  have hframe : Exec.Frame (· = Failure.exit) False Advances
      (updateInputValue pl coreName name channel rawValue) :=
    (Exec.frame_gets _).bind fun _ => Exec.frame_forM fun _ _ =>
      (hwrite _ _).bind fun _ => (hwrite _ _).bind fun _ => hwrite _ _
  by_contra he
  exact ((hframe s).of_error h he).1

end DeployerBase

namespace HilDeployer

open DeployerBase

variable {Spec : Type} {env : Environment Spec} {core name : String} {channel : Nat}

/-- `setInput`, with a failure for an undefined conversion. -/
def setDefinedInput (env : Environment Spec) (core name : String) (channel : Nat) (value : ℚ) :
    Exec Failure HilDeployer Unit :=
  base (updateDefinedValue env.platform core name channel value)

/-- The three writes for an input, with the encoding of the integer unless it is a `float`. -/
def integerRequests (pl : Platform) (v : Int) (i : InputMetadata) : List Request :=
  [regWrite (i.constIpAddr.1 + constSelector) i.constIpAddr.2,
    regWrite (i.constIpAddr.1 + constDest) i.dest,
    regWrite (i.constIpAddr.1 + constLsb)
      (if i.isFloat then u32 (pl.floatToUint32 v) else twosComplement v)]

/-- An update with an integer has no undefined conversion, and what it writes for each input is
the encoding of the integer. -/
structure AcceptsInteger (env : Environment Spec) (core name : String) (channel : Nat) (v : Int)
    (s : HilDeployer) : Prop where
  defined : ∀ e s', (setDefinedInput env core name channel v).run s = .error e s' →
    e ≠ .undefined .conversion
  encoded : ∀ u s', (setInput env core name channel v).run s = .ok u s' →
    s' = s.emit ((addressedInputs core name channel s.inputs).flatMap
      (integerRequests env.platform v))

theorem setDefinedInput_run (env : Environment Spec) (core name : String) (channel : Nat)
    (value : ℚ) (s : HilDeployer) :
    (setDefinedInput env core name channel value).run s =
      if FitsUint32 value ∨ addressedInputs core name channel s.inputs = [] then
        (setInput env core name channel value).run s
      else .error (.undefined .conversion) s := by
  rw [setDefinedInput, base, Exec.run_zoom, updateDefinedValue_run, setInput, base, Exec.run_zoom]
  split_ifs <;> rfl

theorem setInput_eq_error {value : ℚ} {e : Failure} {s s' : HilDeployer}
    (h : (setInput env core name channel value).run s = .error e s') : e = .exit := by
  rw [setInput, base, Exec.run_zoom] at h
  cases hrun : (updateInputValue env.platform core name channel value).run s.toDeployerBase with
  | ok u t => simp [hrun] at h
  | error f t =>
    rw [hrun] at h
    cases h
    exact updateInputValue_eq_error hrun

/-- Of its whole signed range an input takes the nonnegative integers. -/
theorem acceptsInteger_iff (env : Environment Spec) (core name : String) (channel : Nat)
    (s : HilDeployer) {v : Int} (h : -2 ^ 31 ≤ v ∧ v < 2 ^ 31) :
    AcceptsInteger env core name channel v s ↔
      0 ≤ v ∨ addressedInputs core name channel s.inputs = [] := by
  rw [← fitsUint32_intCast h]
  constructor
  · intro haccepts
    by_contra hnot
    have hrun := setDefinedInput_run env core name channel v s
    rw [if_neg hnot] at hrun
    exact haccepts.defined _ _ hrun rfl
  · intro hor
    have hrun := setDefinedInput_run env core name channel v s
    rw [if_pos hor] at hrun
    refine ⟨fun e s' he => ?_, fun u s' hok => ?_⟩
    · rw [hrun] at he
      rw [setInput_eq_error he]
      exact nofun
    · rw [(setInput_eq_ok.1 hok).2, setInputRequests]
      congr 1
      rcases hor with hfits | hnone
      · refine List.flatMap_congr fun i _ => ?_
        rw [liveRequests, liveValue, toUint32_intCast _ ((fitsUint32_intCast h).1 hfits) h.2,
          integerRequests]
      · rw [hnone]
        rfl

theorem accepts_five : ∃ u s', (deploy oneInput ()).run fresh = .ok u s' ∧
    addressedInputs "core" "k" 0 s'.inputs ≠ [] ∧ AcceptsInteger oneInput "core" "k" 0 5 s' := by
  obtain ⟨u, s', hrun, hinputs⟩ : ∃ u s', (deploy oneInput ()).run fresh = .ok u s' ∧
      addressedInputs "core" "k" 0 s'.inputs ≠ [] := Exec.exists_of_returnsIn (by decide +kernel)
  exact ⟨u, s', hrun, hinputs,
    (acceptsInteger_iff oneInput "core" "k" 0 s' (by decide)).2 (Or.inl (by decide))⟩

/-- An integer input does not take -1. -/
theorem not_accepts_minus_one : ∃ u s', (deploy oneInput ()).run fresh = .ok u s' ∧
    ¬AcceptsInteger oneInput "core" "k" 0 (-1) s' := by
  obtain ⟨u, s', hrun, hfails⟩ : ∃ u s', (deploy oneInput ()).run fresh = .ok u s' ∧
      addressedInputs "core" "k" 0 s'.inputs ≠ [] := Exec.exists_of_returnsIn (by decide +kernel)
  refine ⟨u, s', hrun, fun haccepts => ?_⟩
  have hnegative : ¬FitsUint32 ((-1 : Int) : ℚ) := by decide
  refine haccepts.defined _ s' ?_ rfl
  rw [setDefinedInput_run, if_neg (by simp only [hnegative, hfails, or_self, not_false_eq_true])]

end HilDeployer

end UscopeDriver
