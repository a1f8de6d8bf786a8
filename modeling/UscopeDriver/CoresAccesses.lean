import UscopeDriver.Accesses

/-!
# What the commands on the cores may do

A deployment writes registers and loads programs, also one that throws half way, and both deployers
keep their layout. A simulation deploys too, but on a bus that is muted for it : when it returns the
bus is as live as before, and nothing was written. What the other commands do is a register write,
a program load or nothing.
-/

namespace UscopeDriver

open Exec (Frame FrameAt)

/-- What a `catch` catches is an exception. -/
theorem not_fatal_of_isRuntimeError {e : Failure} (h : e.IsRuntimeError) : ¬Failure.Fatal e := by
  cases e with
  | runtimeError what => exact not_fatal_runtimeError what
  | logicError => cases h
  | jsonError => cases h
  | exit => cases h
  | undefined site => cases h

/-! ## The deployers -/

namespace DeployerBase

/-- The deployer after code with the accesses `A` : its layout is the same. -/
structure Touches (A : Set Access) (s s' : DeployerBase) : Prop where
  hw : s.hw.Touches A s'.hw
  addresses : s'.addresses = s.addresses

variable {A : Set Access}

instance : IsPreorder DeployerBase (Touches A) where
  refl := fun s => ⟨refl_of (FpgaBridge.Touches A) s.hw, rfl⟩
  trans := fun _ _ _ h h' => ⟨trans_of (FpgaBridge.Touches A) h.hw h'.hw,
    h'.addresses.trans h.addresses⟩

/-- What keeps the bridge and the layout is no access. -/
theorem touches_of_hw {s s' : DeployerBase} (h : s'.hw = s.hw) (ha : s'.addresses = s.addresses) :
    Touches A s s' :=
  ⟨by rw [h]; exact refl_of (FpgaBridge.Touches A) s.hw, ha⟩

/-- A run of requests writes and loads at most. -/
theorem touches_of_advances {s s' : DeployerBase} (h : Advances s s') :
    Touches {.write, .load} s s' :=
  ⟨FpgaBridge.touches_of_advances h.hw, h.addresses⟩

/-- The stages of a deployment write and load at most. -/
theorem steps_touches :
    Steps Failure.Fatal True (fun _ => True) (Touches {.write, .load}) where
  fails := Or.inl
  write := fun pl _ val hA s => (steps_advances.write pl val hA s).mono id
    fun _ h => touches_of_advances h
  load := fun address program s => (steps_advances.load address program s).mono id
    fun _ h => touches_of_advances h
  record := fun h => touches_of_hw h.hw h.addresses
  enter := fun _ _ => touches_of_hw rfl rfl

theorem moves_writeRegister (pl : Platform) (addr val : Nat) :
    Exec.Moves (Touches {.write}) (writeRegister pl addr val) :=
  Exec.moves_zoom (FpgaBridge.moves_singleWriteRegister _ _) fun _ _ h => ⟨h, rfl⟩

theorem moves_updateInputValue (pl : Platform) (coreName name : String) (channel : Nat)
    (rawValue : ℚ) :
    Exec.Moves (Touches {.write}) (updateInputValue pl coreName name channel rawValue) :=
  (Exec.frame_gets _).bind fun _ => Exec.frame_forM fun _ _ =>
    (moves_writeRegister _ _ _).bind fun _ => (moves_writeRegister _ _ _).bind fun _ =>
      moves_writeRegister _ _ _

end DeployerBase

namespace CustomDeployer

/-- The base moves along `R`. -/
def Over (R : DeployerBase → DeployerBase → Prop) (s s' : CustomDeployer) : Prop :=
  R s.toDeployerBase s'.toDeployerBase

instance {R : DeployerBase → DeployerBase → Prop} [IsPreorder DeployerBase R] :
    IsPreorder CustomDeployer (Over R) where
  refl := fun s => refl_of R s.toDeployerBase
  trans := fun _ _ _ h h' => trans_of R h h'

section Frames

variable {fatal : Failure → Prop} {R : DeployerBase → DeployerBase → Prop}
  [IsPreorder DeployerBase R] (steps : DeployerBase.Steps fatal True (fun _ => True) R)
  (pl : Platform) (options : String → Except String DeploymentOptions)

omit [IsPreorder DeployerBase R] in
/-- A call on the base moves as the base does. -/
theorem frameAt_base {α : Type} {m : Exec Failure DeployerBase α} {s : CustomDeployer}
    (h : FrameAt fatal True R m s.toDeployerBase) : FrameAt fatal True (Over R) (base m) s :=
  h.zoom fun _ hb => hb

omit [IsPreorder DeployerBase R] in
theorem frame_base {α : Type} {m : Exec Failure DeployerBase α} (h : Frame fatal True R m) :
    Frame fatal True (Over R) (base m) :=
  fun s => frameAt_base (h s.toDeployerBase)

omit [IsPreorder DeployerBase R] in
/-- What is recorded in the tables of the deployer moves as the base does. -/
theorem frame_record {f : CustomDeployer → CustomDeployer}
    (h : ∀ s, R s.toDeployerBase (f s).toDeployerBase) :
    Frame fatal True (Over R) (modify f) :=
  Exec.frame_modify h

include steps

theorem frame_setupProgram (p : DeployedProgram) :
    Frame fatal True (Over R) (setupProgram options p) := by
  refine (frame_callDispatcher fun _ => trivial).bind fun _ => Exec.Frame.bind ?_ fun _ =>
    frame_base (steps.load _ _)
  exact frame_record fun _ => steps.record ⟨rfl, rfl, rfl, rfl, rfl, rfl⟩

theorem frame_setupProgramDma (program : DeployedProgram × Nat) :
    Frame fatal True (Over R) (setupProgramDma pl program) :=
  (Exec.frame_gets _).bind fun _ => Exec.Frame.bind (fun _ => frameAt_base
    (DeployerBase.frameAt_setupOutputDma steps _ _ _ (fun _ _ _ => trivial) fun _ _ => trivial))
      fun _ => Exec.frame_pure _

theorem frame_setupProgramMemories (memories : String → List MemoryInitValue)
    (p : DeployedProgram) :
    Frame fatal True (Over R) (setupProgramMemories pl options memories p) :=
  (frame_callDispatcher fun _ => trivial).bind fun _ => frame_base (Exec.frame_forM fun _ _ =>
    DeployerBase.frame_setupMemory steps _ fun _ _ => trivial)

/-- An input of a custom deployment, whatever registers it writes. -/
theorem frame_setupInput (input : DeployedCoreInputs)
    (ipAddress constIdx targetChannel : Nat) (coreName : String) (isMultichannel : Bool) :
    Frame fatal True (Over R) (base (DeployerBase.setupInput pl input ipAddress constIdx
      targetChannel coreName isMultichannel)) := fun s =>
  frameAt_base (DeployerBase.frameAt_setupInput (n := s.activeRandomInputs + 1) steps pl
    (fun _ => trivial) (fun _ _ => trivial) _ _ _ _ fun _ => Nat.lt_succ_self _)

theorem frame_setupChannels (p : DeployedProgram) (input : DeployedCoreInputs) (ipAddr i j : Nat)
    (data : List InitialData) :
    Frame fatal True (Over R) (setupChannels pl p input ipAddr i j data) := by
  induction data generalizing j with
  | nil => exact Exec.frame_pure ()
  | cons entry rest ih =>
    rw [setupChannels]
    split_ifs
    · exact (frame_setupInput steps _ _ _ _ _ _ _).bind fun _ => ih (j + 1)
    · exact Exec.frame_pure ()

theorem frame_setupInputsOf (dispatcher : EmulatorDispatcher) (p : DeployedProgram) :
    Frame fatal True (Over R) (setupInputsOf pl dispatcher p) := by
  refine (frame_callDispatcher fun _ => trivial).bind fun inputs =>
    Exec.frame_forM fun input _ => (Exec.frame_gets _).bind fun addresses => ?_
  simp only
  split_ifs
  · exact frame_setupChannels steps _ _ _ _ _ _ _
  · exact frame_setupInput steps _ _ _ _ _ _ _

theorem frame_setupProgramCore (p : DeployedProgram) :
    Frame fatal True (Over R) (setupProgramCore pl options p) :=
  (frame_callDispatcher fun _ => trivial).bind fun _ => frame_base (steps.write _ _ trivial)

/-- For a relation that does not look at the slots. -/
theorem frame_deploy
    (hR : ∀ (s : DeployerBase) (slots : List DeployerInterconnectSlot),
      R s { s with busMap := slots })
    (w : Surroundings) (arguments : Json) :
    Frame fatal True (Over R) (deploy w arguments) := by
  have hslots (f : CustomDeployer → CustomDeployer) (slots : List DeployerInterconnectSlot)
      (hf : ∀ s, (f s).toDeployerBase = { s.toDeployerBase with busMap := slots }) :
      Frame fatal True (Over R) (modify f) :=
    frame_record fun s => by
      rw [hf]
      exact hR _ _
  unfold deploy
  refine (frame_callDispatcher fun _ => trivial).bind fun _ => ?_
  refine (frame_callDispatcher fun _ => trivial).bind fun programs => ?_
  refine (hslots _ [] fun _ => rfl).bind fun _ => ?_
  refine (frame_callDispatcher fun _ => trivial).bind fun slots => ?_
  refine (hslots _ slots fun _ => rfl).bind fun _ => ?_
  exact (Exec.frame_forM fun p _ => frame_setupProgram steps _ p).bind fun _ =>
    (Exec.frame_forM fun p _ => frame_setupProgramDma steps _ p).bind fun _ =>
    (frame_callDispatcher fun _ => trivial).bind fun _ =>
    (Exec.frame_forM fun p _ => frame_setupProgramMemories steps _ _ _ p).bind fun _ =>
    (Exec.frame_forM fun p _ => frame_setupInputsOf steps _ _ p).bind fun _ =>
    Exec.frame_forM fun p _ => frame_setupProgramCore steps _ _ p

end Frames

/-- A custom deployment writes and loads at most, however it ends. -/
theorem frame_deploy_touches (w : Surroundings) (arguments : Json) :
    Frame Failure.Fatal True (Over (DeployerBase.Touches {.write, .load})) (deploy w arguments) :=
  frame_deploy DeployerBase.steps_touches (fun _ _ => DeployerBase.touches_of_hw rfl rfl) w
    arguments

end CustomDeployer

namespace HilDeployer

variable {Spec : Type} (env : Environment Spec) {A B : Set Access}

/-- The base after code with the accesses `A`. -/
def Touches (A : Set Access) (s s' : HilDeployer) : Prop :=
  DeployerBase.Touches A s.toDeployerBase s'.toDeployerBase

instance : IsPreorder HilDeployer (Touches A) where
  refl := fun s => refl_of (DeployerBase.Touches A) s.toDeployerBase
  trans := fun _ _ _ h h' => trans_of (DeployerBase.Touches A) h h'

/-- A call on the base does what the base does. -/
theorem moves_base {α : Type} {m : Exec Failure DeployerBase α}
    (h : Exec.Moves (DeployerBase.Touches A) m) : Exec.Moves (Touches A) (base m) :=
  Exec.moves_zoom h fun _ _ h => h

theorem moves_writeRegister (pl : Platform) (addr val : Nat) :
    Exec.Moves (Touches {.write}) (writeRegister pl addr val) :=
  moves_base (DeployerBase.moves_writeRegister _ _ _)

theorem moves_start : Exec.Moves (Touches {.write}) (start env) :=
  (Exec.frame_gets _).bind fun _ => moves_writeRegister _ _ _

theorem moves_stop : Exec.Moves (Touches {.write}) (stop env) :=
  (Exec.frame_gets _).bind fun _ => moves_writeRegister _ _ _

theorem moves_setInput (core name : String) (channel : Nat) (value : ℚ) :
    Exec.Moves (Touches {.write}) (setInput env core name channel value) :=
  moves_base (DeployerBase.moves_updateInputValue _ _ _ _ _)

/-- A selection writes, and an unknown output leaves everything as it is. -/
theorem moves_selectOutput (channel : Nat) (output : OutputSpecs) :
    Exec.Moves (Touches {.write}) (selectOutput env channel output) :=
  (Exec.frame_gets _).bind fun _ => Exec.Frame.bind
    ((Exec.moves_require _ _).bind fun _ => Exec.frame_pure _) fun _ =>
      (Exec.frame_gets _).bind fun _ => moves_writeRegister _ _ _

theorem touches_reset (hash : Nat) (s : HilDeployer) : Touches A s (reset hash s) :=
  ⟨⟨rfl, rfl, id, fun _ => rfl, fun _ => rfl, fun _ => rfl⟩, rfl⟩

/-- So does a deployment of the HIL deployer. -/
theorem frame_deploy_touches (arguments : Spec) :
    Frame Failure.Fatal True (Touches {.write, .load}) (deploy env arguments) := by
  refine fun s => (frameAt_deploy env arguments s).mono (fun _ => trivial) fun t h => ?_
  exact trans_of (Touches {.write, .load}) (touches_reset _ s)
    ⟨FpgaBridge.touches_of_advances h.hw, h.addresses⟩

/-- A simulation leaves the hardware and the bus as they were. -/
theorem moves_getHardwareSimData (specs : Spec) :
    Exec.Moves (Touches ∅) (getHardwareSimData env specs) := by
  refine Exec.frame_of_returns fun s data s' h => ?_
  rw [run_getHardwareSimData] at h
  split_ifs at h with hhash
  · cases h
    exact refl_of (Touches ∅) s
  · cases hdeploy : (deploy env specs).run s.muted with
    | error e t => simp [hdeploy] at h
    | ok u t =>
      simp only [hdeploy] at h
      cases h
      have ht : Touches {.write, .load} s.muted t :=
        (frame_deploy_touches env specs _).of_ok hdeploy
      have hkeeps := ((frameAt_deploy env specs s.muted).of_ok hdeploy).sinkMode
      have hstart : t.hw.Touches {.write} (t.hw.performAll [t.controlRequest 1]) :=
        FpgaBridge.touches_performAll (by simp [controlRequest, regWrite, Request.access]) t.hw
      have hmuted : t.hw.busses.sinkMode = true := hkeeps.1
      exact ⟨⟨hkeeps.2, ht.hw.windows, ht.hw.loaded,
        fun _ => ht.hw.fpgaLoaded (by simp),
        fun _ => (hstart.registers (by simp [hmuted])).trans
          (ht.hw.registers fun h => absurd h.2.1 (by simp [muted])),
        fun _ => (hstart.fCore (by simp)).trans
          (ht.hw.fCore fun h => absurd h.2 (by simp [muted]))⟩, ht.addresses⟩

end HilDeployer

/-! ## The commands on the cores -/

namespace CoresEndpoints

/-- The endpoints after code with the accesses `A` : both layouts are the same. -/
structure Touches (A : Set Access) (s s' : CoresEndpoints) : Prop where
  hw : s.hw.Touches A s'.hw
  hil : s'.hil.addresses = s.hil.addresses
  custom : s'.custom.addresses = s.custom.addresses

variable {A B : Set Access}

instance : IsPreorder CoresEndpoints (Touches A) where
  refl := fun s => ⟨refl_of (FpgaBridge.Touches A) s.hw, rfl, rfl⟩
  trans := fun _ _ _ h h' => ⟨trans_of (FpgaBridge.Touches A) h.hw h'.hw, h'.hil.trans h.hil,
    h'.custom.trans h.custom⟩

/-- More accesses may be allowed. -/
theorem Touches.mono {s s' : CoresEndpoints} (h : Touches A s s') (hAB : A ⊆ B) :
    Touches B s s' :=
  ⟨h.hw.mono hAB, h.hil, h.custom⟩

/-- A call on the HIL deployer does what the deployer does. -/
theorem frame_onHil {fatal : Failure → Prop} {α : Type} {m : Exec Failure HilDeployer α}
    (h : Frame fatal True (HilDeployer.Touches A) m) : Frame fatal True (Touches A) (onHil m) :=
  fun _ => Exec.FrameAt.zoom (R := HilDeployer.Touches A) (h _) fun _ h => ⟨h.hw, h.addresses, rfl⟩

/-- A call on the custom deployer does what the deployer does. -/
theorem frame_onCustom {fatal : Failure → Prop} {α : Type} {m : Exec Failure CustomDeployer α}
    (h : Frame fatal True (CustomDeployer.Over (DeployerBase.Touches A)) m) :
    Frame fatal True (Touches A) (onCustom m) :=
  fun _ => Exec.FrameAt.zoom (R := CustomDeployer.Over (DeployerBase.Touches A)) (h _)
    fun _ h => ⟨h.hw, rfl, h.addresses⟩

theorem moves_onBridge {α : Type} {m : Exec Failure FpgaBridge α}
    (h : Exec.Moves (FpgaBridge.Touches A) m) : Exec.Moves (Touches A) (onBridge m) :=
  Exec.moves_zoom h fun _ _ h => ⟨h, rfl, rfl⟩

theorem moves_processApplyProgram (w : Surroundings) (arguments : Json) :
    Exec.Moves (Touches {.load}) (processApplyProgram w arguments) := by
  unfold processApplyProgram
  split
  · exact Exec.frame_pure _
  · refine (Json.moves_at' _ _).bind fun _ => (Json.moves_get _ _).bind fun d => ?_
    split_ifs
    · exact (Json.moves_get _ _).bind fun _ => (Json.moves_at' _ _).bind fun _ =>
        (Json.moves_get _ _).bind fun _ =>
        (moves_onBridge (FpgaBridge.moves_applyProgram _ _)).bind fun _ => Exec.frame_pure _
    · exact Exec.frame_pure _

/-- A deployment by either deployer. -/
theorem frame_deployHil (w : Surroundings) (arguments : Json) :
    Frame Failure.Fatal True (Touches {.write, .load}) (deployHil w arguments) := by
  unfold deployHil
  refine (Json.moves_at' _ _).bind fun _ => (Json.moves_get _ _).bind fun customDeploy => ?_
  split_ifs
  · exact (frame_onCustom (CustomDeployer.frame_deploy_touches w arguments)).bind fun _ =>
      Exec.frame_pure _
  · exact (frame_onHil (HilDeployer.frame_deploy_touches w.env arguments)).bind fun _ =>
      Exec.frame_pure _

/-- A deployment that throws is answered, from where it was left. -/
theorem moves_processDeployHil (w : Surroundings) (arguments : Json) :
    Exec.Moves (Touches {.write, .load}) (processDeployHil w arguments) := by
  exact fun s => Exec.FrameAt.catching (frame_deployHil w arguments s)
    (fun _ he => not_fatal_of_isRuntimeError he) (fun _ _ => trivial) fun _ _ => Exec.frame_pure _

theorem moves_processHilSelectOut (w : Surroundings) (arguments : Json) :
    Exec.Moves (Touches {.write}) (processHilSelectOut w arguments) := by
  unfold processHilSelectOut
  split
  · exact Exec.frame_pure _
  · exact (Json.moves_at' _ _).bind fun _ => (Json.moves_get _ _).bind fun _ =>
      (Json.moves_at' _ _).bind fun _ => (Json.moves_get _ _).bind fun _ =>
      (Json.moves_at' _ _).bind fun _ => (Json.moves_get _ _).bind fun _ =>
      (Json.moves_at' _ _).bind fun _ => (Json.moves_get _ _).bind fun _ =>
      (frame_onHil (HilDeployer.moves_selectOutput _ _ _)).bind fun _ => Exec.frame_pure _

theorem moves_processHilSetIn (w : Surroundings) (arguments : Json) :
    Exec.Moves (Touches {.write}) (processHilSetIn w arguments) :=
  (Json.moves_at' _ _).bind fun _ => (Json.moves_get _ _).bind fun _ =>
    (Json.moves_at' _ _).bind fun _ => (Json.moves_get _ _).bind fun _ =>
    (Json.moves_at' _ _).bind fun _ => (Json.moves_get _ _).bind fun _ =>
    (Json.moves_at' _ _).bind fun _ => (Json.moves_get _ _).bind fun _ =>
    (frame_onHil (HilDeployer.moves_setInput _ _ _ _ _)).bind fun _ => Exec.frame_pure _

theorem moves_processHilStart (w : Surroundings) :
    Exec.Moves (Touches {.write}) (processHilStart w) :=
  (frame_onHil (HilDeployer.moves_start _)).bind fun _ => Exec.frame_pure _

theorem moves_processHilStop (w : Surroundings) :
    Exec.Moves (Touches {.write}) (processHilStop w) :=
  (frame_onHil (HilDeployer.moves_stop _)).bind fun _ => Exec.frame_pure _

/-- A simulation that returns has left the hardware alone : its bus was muted. -/
theorem moves_processHilHardwareSim (w : Surroundings) (arguments : Json) :
    Exec.Moves (Touches ∅) (processHilHardwareSim w arguments) :=
  (frame_onHil (HilDeployer.moves_getHardwareSimData _ _)).bind fun _ => Exec.frame_pure _

section Idle

variable {R : CoresEndpoints → CoresEndpoints → Prop} [IsPreorder CoresEndpoints R]

/-! What the toolchain does touches nothing at all. -/

theorem moves_callDispatcher {α : Type} {fatal : Failure → Prop} (x : Except String α) :
    Frame fatal True R (callDispatcher x) :=
  frame_callDispatcher fun _ => trivial

theorem frame_compileProgram (w : Surroundings) (arguments : Json) :
    Frame Failure.Fatal True R (compileProgram w arguments) := by
  refine (Json.moves_at' _ _).bind fun _ => (Json.moves_get _ _).bind fun _ =>
    (Json.moves_at' _ _).bind fun _ => (Json.moves_at' _ _).bind fun _ =>
    Exec.Frame.bind ?_ fun _ => Exec.frame_pure _
  exact (Exec.frame_mapM fun _ _ => (Json.moves_atOrNull _ _).bind fun _ =>
    Json.moves_get _ _).bind fun _ => moves_callDispatcher _

/-- The toolchain compiles without the hardware. -/
theorem moves_processCompileProgram (w : Surroundings) (arguments : Json) :
    Exec.Moves R (processCompileProgram w arguments) := by
  unfold processCompileProgram
  split
  · exact Exec.frame_pure _
  · exact Exec.Frame.bind (fun s => Exec.FrameAt.catching (frame_compileProgram w arguments s)
      (fun _ he => not_fatal_of_isRuntimeError he) (fun _ _ => trivial)
        fun _ _ => Exec.frame_pure _) fun _ => Exec.frame_pure _

theorem moves_interactiveCommand (w : Surroundings) (command : String) (arguments : Json) :
    Exec.Moves R (interactiveCommand w command arguments) := by
  unfold interactiveCommand
  split_ifs
  · exact (Exec.moves_throwIf _ _).bind fun _ => (Json.moves_at' _ _).bind fun _ =>
      (Exec.moves_throwIf _ _).bind fun _ => (Json.moves_get _ _).bind fun _ =>
      (Json.moves_at' _ _).bind fun _ => (Json.moves_get _ _).bind fun _ => Exec.frame_pure _
  · exact (Json.moves_at' _ _).bind fun _ => (Json.moves_get _ _).bind fun _ =>
      (Json.moves_at' _ _).bind fun _ => (Json.moves_get _ _).bind fun _ => Exec.frame_pure _
  · exact Exec.frame_pure _
  · exact Exec.frame_pure _
  · exact Exec.frame_pure _
  · exact Exec.frame_pure _
  · exact (Json.moves_at' _ _).bind fun _ => (Json.moves_get _ _).bind fun _ => Exec.frame_pure _
  · exact Exec.moves_throw _

theorem moves_processHilDebug (w : Surroundings) (arguments : Json) :
    Exec.Moves R (processHilDebug w arguments) := by
  unfold processHilDebug
  split
  · refine (Json.moves_get _ _).bind fun command => ?_
    split_ifs
    · exact Exec.frame_pure _
    · exact (moves_interactiveCommand _ _ _).bind fun _ => (moves_callDispatcher _).bind fun _ =>
        Exec.frame_pure _
  · exact Exec.frame_pure _

end Idle

theorem moves_processGetHilAddressMap :
    Exec.Moves (Touches ∅) processGetHilAddressMap :=
  (frame_onHil (HilDeployer.moves_base (Exec.frame_gets _))).bind fun _ => Exec.frame_pure _

/-- All commands but the one that sets the layout. -/
theorem moves_processCommand (w : Surroundings) {commandString : String}
    (hset : commandString ≠ "set_hil_address_map") (arguments : Json) :
    Exec.Moves (Touches (Commands.accesses commandString))
      (processCommand w commandString arguments) := by
  have one {a : Access} {m : Exec Failure CoresEndpoints Response} (hm : Exec.Moves (Touches {a}) m)
      (ha : commandString ∈ Commands.needing a) :
      Exec.Moves (Touches (Commands.accesses commandString)) m :=
    hm.mono fun _ _ h => h.mono (Commands.singleton_subset_accesses ha)
  have none {m : Exec Failure CoresEndpoints Response} (hm : Exec.Moves (Touches ∅) m) :
      Exec.Moves (Touches (Commands.accesses commandString)) m :=
    hm.mono fun _ _ h => h.mono (Set.empty_subset _)
  refine Exec.frame_ite (fun h => one (moves_processApplyProgram w arguments)
    (by simp [h, Commands.needing])) fun _ => ?_
  refine Exec.frame_ite (fun h => (moves_processDeployHil w arguments).mono
    fun _ _ ht => ht.mono ?_) fun _ => ?_
  · rintro a (rfl | rfl) <;> simp [h, Commands.accesses, Commands.needing]
  refine Exec.frame_ite (fun _ => Exec.frame_pure _) fun _ => ?_
  refine Exec.frame_ite (fun h => one (moves_processHilSelectOut w arguments)
    (by simp [h, Commands.needing])) fun _ => ?_
  refine Exec.frame_ite (fun h => one (moves_processHilSetIn w arguments)
    (by simp [h, Commands.needing])) fun _ => ?_
  refine Exec.frame_ite (fun h => one (moves_processHilStart w)
    (by simp [h, Commands.needing])) fun _ => ?_
  refine Exec.frame_ite (fun h => one (moves_processHilStop w)
    (by simp [h, Commands.needing])) fun _ => ?_
  refine Exec.frame_ite (fun _ => none (moves_processHilDebug w arguments)) fun _ => ?_
  refine Exec.frame_ite (fun _ => (moves_callDispatcher _).bind fun _ => Exec.frame_pure _)
    fun _ => ?_
  refine Exec.frame_ite (fun _ => none (moves_processHilHardwareSim w arguments)) fun _ => ?_
  refine Exec.frame_ite (fun _ => none (moves_processCompileProgram w arguments)) fun _ => ?_
  refine Exec.frame_ite (fun h => absurd h hset) fun _ => ?_
  exact Exec.frame_ite (fun _ => none moves_processGetHilAddressMap) fun _ =>
    Exec.frame_ite (fun _ => (Exec.frame_gets _).bind fun _ => Exec.frame_pure _) fun _ =>
      Exec.frame_pure _

/-- The layout of both deployers is what the map says. -/
theorem setHilAddressMap_eq_ok {pl : Platform} {obj : Json} {s s' : CoresEndpoints}
    {response : Response} (h : (processSetHilAddressMap pl obj).run s = .ok response s') :
    s'.hw = s.hw ∧ ∃ l, s'.Holds l ∧ ∀ a : LogicLayout.Address,
      LogicLayout.readAddress pl obj a = .ok (a.read l) := by
  obtain ⟨u, s₁, hhil, h₁⟩ := Exec.bind_eq_ok.1 h
  obtain ⟨u', s₂, hcustom, hpure⟩ := Exec.bind_eq_ok.1 h₁
  obtain ⟨-, rfl⟩ := Exec.pure_eq_ok.1 hpure
  rw [run_setHil] at hhil
  cases hl : (LogicLayout.parseLayoutObject pl obj).run s.hil.addresses with
  | error e l => simp [hl] at hhil
  | ok v l =>
    simp only [hl] at hhil
    cases hhil
    rw [run_setCustom] at hcustom
    cases hl' : (LogicLayout.parseLayoutObject pl obj).run
      (s.withHilAddresses l).custom.addresses with
    | error e l' => simp [hl'] at hcustom
    | ok v l' =>
      simp only [hl'] at hcustom
      cases hcustom
      have hread := LogicLayout.parseLayoutObject_eq_ok.1 hl
      have hread' := LogicLayout.parseLayoutObject_eq_ok.1 hl'
      obtain rfl : l = l' := LogicLayout.Address.fields.ext _ _ fun a =>
        Except.ok.inj ((hread a).symm.trans (hread' a))
      exact ⟨rfl, l, ⟨rfl, rfl⟩, hread⟩

end CoresEndpoints

end UscopeDriver
