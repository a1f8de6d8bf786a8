import UscopeDriver.Frames

/-!
# The calls of the deployer

A client drives the deployer by calls (`HilCall`). One that throws leaves the state it ended in,
and the client goes on. `deploy` is the matter of `Deployment` and `Frames`,
`get_hardware_sim_data` deploys on a muted bus (`settle_getHardwareSimData`), the others set the
layout or write registers (`settle_direct`).
-/

namespace UscopeDriver

/-- A call of a client. -/
inductive HilCall (Spec : Type) where
  | setLayoutMap (obj : Json)
  | deploy (arguments : Spec)
  | getHardwareSimData (specs : Spec)
  | selectOutput (channel : Nat) (output : OutputSpecs)
  | setInput (core name : String) (channel : Nat) (value : ℚ)
  | start
  | stop

namespace HilDeployer

variable {Spec : Type} {env : Environment Spec}

/-- The deployer on another layout. -/
def withAddresses (addresses : LogicLayout) (s : HilDeployer) : HilDeployer :=
  { s with addresses := addresses }

/-! ## Register writes -/

/-- The write to `hil_control`. -/
def controlRequest (s : HilDeployer) (value : Nat) : Request :=
  regWrite s.addresses.bases.hilControl value

/-- A start is one request. -/
theorem start_eq_ok {s s' : HilDeployer} {u : Unit} :
    (start env).run s = .ok u s' ↔
      s.hw.Admits [s.controlRequest 1] ∧ s' = s.emit [s.controlRequest 1] := by
  simp only [start, Exec.bind_eq_ok, Exec.gets_eq_ok, writeRegister_eq_ok, and_assoc,
    exists_and_left, exists_eq_left]
  rfl

/-- A stop is one request. -/
theorem stop_eq_ok {s s' : HilDeployer} {u : Unit} :
    (stop env).run s = .ok u s' ↔
      s.hw.Admits [s.controlRequest 0] ∧ s' = s.emit [s.controlRequest 0] := by
  simp only [stop, Exec.bind_eq_ok, Exec.gets_eq_ok, writeRegister_eq_ok, and_assoc,
    exists_and_left, exists_eq_left]
  rfl

/-- The write of a multiplexer setting, none when the output is not found. -/
def selectRequests (s : HilDeployer) (channel : Nat) (output : OutputSpecs) : List Request :=
  match s.busMap.find? fun e => e.sourceId = output.coreName ∧ e.sourceName = output.sourceOutput ∧
    e.sourceChannel.toNat = output.channel with
  | some e => [regWrite (s.addresses.bases.scopeMux + u32 (4 * channel) + 4)
      (selector ⟨e.destinationBusAddress.toNat, e.destinationChannel.toNat⟩)]
  | none => []

/-- The requests of a live update. -/
def setInputRequests (pl : Platform) (core name : String) (channel : Nat) (value : ℚ)
    (s : HilDeployer) : List Request :=
  (DeployerBase.addressedInputs core name channel s.inputs).flatMap
    (DeployerBase.liveRequests pl value)

/-- A live update is its requests. -/
theorem setInput_eq_ok {core name : String} {channel : Nat} {value : ℚ} {s s' : HilDeployer}
    {u : Unit} : (setInput env core name channel value).run s = .ok u s' ↔
      s.hw.Admits (setInputRequests env.platform core name channel value s) ∧
        s' = s.emit (setInputRequests env.platform core name channel value s) := by
  simp only [setInput, base_eq_ok, DeployerBase.updateInputValue_eq_ok, and_assoc, exists_and_left,
    exists_eq_left]
  rfl

/-! ## The simulation data -/

/-- The deployer behind a muted bus, with the log cleared. -/
def muted (s : HilDeployer) : HilDeployer :=
  { s with hw := { s.hw with busses := { s.hw.busses with
      previousSinkMode := s.hw.busses.sinkMode
      sinkMode := true
      operations := [] } } }

/-- The deployer with the bus as `enable_access` leaves it. -/
def unmuted (s : HilDeployer) : HilDeployer :=
  { s with hw := { s.hw with busses := { s.hw.busses with
      sinkMode := s.hw.busses.previousSinkMode } } }

theorem run_disableBusAccess (s : HilDeployer) :
    (base (DeployerBase.onBridge FpgaBridge.disableBusAccess)).run s = .ok () s.muted := rfl

theorem run_enableBusAccess (s : HilDeployer) :
    (base (DeployerBase.onBridge FpgaBridge.enableBusAccess)).run s = .ok () s.unmuted := rfl

/-- A deployment keeps the bus as it is, however it ends. -/
theorem Keeps.sinkMode {s s' : HilDeployer} (h : Keeps s s') :
    s'.hw.busses.sinkMode = s.hw.busses.sinkMode ∧
      s'.hw.busses.previousSinkMode = s.hw.busses.previousSinkMode := by
  obtain ⟨rs, hrs⟩ := h.hw
  rw [hrs]
  exact ⟨rfl, rfl⟩

theorem Keeps.fpgaLoaded {s s' : HilDeployer} (h : Keeps s s') :
    s'.hw.fpgaLoaded = s.hw.fpgaLoaded := by
  obtain ⟨rs, hrs⟩ := h.hw
  rw [hrs]
  rfl

/-- The three ways through `get_hardware_sim_data` : nothing to do, a deployment on the muted bus
that returns, and one that throws. -/
theorem run_getHardwareSimData (specs : Spec) (s : HilDeployer) :
    (getHardwareSimData env specs).run s =
      if s.deployedHash = env.hash specs then .ok s.simData s
      else match (deploy env specs).run s.muted with
        | .ok _ t => .ok (t.emit [t.controlRequest 1]).unmuted.simData
            (t.emit [t.controlRequest 1]).unmuted
        | .error e t => .error e t := by
  have hrun : (getHardwareSimData env specs).run s =
      (do Exec.when (s.deployedHash ≠ env.hash specs) (deployMuted env specs)
          Exec.gets simData : Exec Failure HilDeployer HardwareSimData).run s := rfl
  rw [hrun]
  by_cases hhash : s.deployedHash = env.hash specs
  · rw [if_pos hhash, Exec.when, if_neg (not_not.2 hhash)]
    rfl
  · rw [if_neg hhash, Exec.when, if_pos hhash, deployMuted]
    simp only [EStateM.run_bind, run_disableBusAccess]
    cases hd : (deploy env specs).run s.muted with
    | error e t => rfl
    | ok v t =>
      have hsink : t.hw.busses.sinkMode = true :=
        ((frameAt_deploy env specs s.muted).of_ok hd).sinkMode.1
      have hstart : (start env).run t = .ok () (t.emit [t.controlRequest 1]) :=
        start_eq_ok.2 ⟨FpgaBridge.admits_of_sinkMode hsink _, rfl⟩
      simp only [hstart, run_enableBusAccess, Exec.run_gets]

/-- A simulation leaves the deployer as it is, or deploys on the muted bus. If that throws, the bus
stays muted. -/
theorem settle_getHardwareSimData {specs : Spec} {s s' : HilDeployer}
    (h : Exec.settle Failure.Fatal (getHardwareSimData env specs) s = some s') :
    (s.deployedHash = env.hash specs ∧ s' = s) ∨
      s.deployedHash ≠ env.hash specs ∧
        ((∃ u t, (deploy env specs).run s.muted = .ok u t ∧
          s' = (t.emit [t.controlRequest 1]).unmuted) ∨
        ∃ e, ¬Failure.Fatal e ∧ (deploy env specs).run s.muted = .error e s') := by
  unfold Exec.settle at h
  rw [run_getHardwareSimData] at h
  by_cases hhash : s.deployedHash = env.hash specs
  · rw [if_pos hhash] at h
    exact Or.inl ⟨hhash, (Option.some.inj h).symm⟩
  · rw [if_neg hhash] at h
    refine Or.inr ⟨hhash, ?_⟩
    cases hd : (deploy env specs).run s.muted with
    | ok u t =>
      rw [hd] at h
      exact Or.inl ⟨u, t, rfl, (Option.some.inj h).symm⟩
    | error e t =>
      by_cases he : Failure.Fatal e
      · simp [hd, he] at h
      · obtain rfl : t = s' := by simpa [hd, he] using h
        exact Or.inr ⟨e, he, rfl⟩

section SelectOutput

variable {Spec : Type} (env : Environment Spec) {output : OutputSpecs} (channel : Nat)
  {s : HilDeployer}

/-- An output that no slot carries is not selected. -/
theorem selectOutput_of_none
    (h : (s.busMap.find? fun e => e.sourceId = output.coreName ∧
      e.sourceName = output.sourceOutput ∧ e.sourceChannel.toNat = output.channel) = none) :
    ∃ what, (selectOutput env channel output).run s = .error (.runtimeError what) s := by
  simp only [selectOutput, translateOutput, h, EStateM.run_bind, Exec.run_require_none,
    Exec.run_gets]
  exact ⟨_, rfl⟩

/-- The first slot that carries the output is selected. -/
theorem run_selectOutput_of_some {e : DeployerInterconnectSlot}
    (h : (s.busMap.find? fun e => e.sourceId = output.coreName ∧
      e.sourceName = output.sourceOutput ∧ e.sourceChannel.toNat = output.channel) = some e) :
    (selectOutput env channel output).run s =
      (writeRegister env.platform (s.addresses.bases.scopeMux + u32 (4 * channel) + 4)
        (selector ⟨e.destinationBusAddress.toNat, e.destinationChannel.toNat⟩)).run s := by
  have htranslate : (translateOutput s.busMap output).run s =
      .ok ⟨e.destinationBusAddress.toNat, e.destinationChannel.toNat⟩ s := by
    simp only [translateOutput, h, EStateM.run_bind, Exec.run_require_some, EStateM.run_pure]
  rw [selectOutput, Exec.run_gets_bind, EStateM.run_bind, htranslate]
  exact Exec.run_gets_bind _ _ _

end SelectOutput

end HilDeployer

namespace HilCall

open HilDeployer

variable {Spec : Type}

/-- What a call runs. -/
def exec (env : Environment Spec) : HilCall Spec → Exec Failure HilDeployer Unit
  | setLayoutMap obj => base (DeployerBase.setLayoutMap env.platform obj)
  | deploy arguments => HilDeployer.deploy env arguments
  | getHardwareSimData specs => discard (HilDeployer.getHardwareSimData env specs)
  | selectOutput channel output => HilDeployer.selectOutput env channel output
  | setInput core name channel value => HilDeployer.setInput env core name channel value
  | start => HilDeployer.start env
  | stop => HilDeployer.stop env

/-- The calls that do not deploy. -/
def Direct : HilCall Spec → Prop
  | deploy _ | getHardwareSimData _ => False
  | _ => True

/-- The requests of a call that does not deploy. -/
def requests (env : Environment Spec) (s : HilDeployer) : HilCall Spec → List Request
  | selectOutput channel output => s.selectRequests channel output
  | setInput core name channel value => setInputRequests env.platform core name channel value s
  | start => [s.controlRequest 1]
  | stop => [s.controlRequest 0]
  | _ => []

variable {env : Environment Spec}

/-- A selection makes its writes, or throws and makes none. -/
theorem settle_selectOutput {channel : Nat} {output : OutputSpecs} {s s' : HilDeployer}
    (h : Exec.settle Failure.Fatal (HilDeployer.selectOutput env channel output) s = some s') :
    s' = s.emit (s.selectRequests channel output) := by
  unfold selectRequests
  cases hf : s.busMap.find? fun e => e.sourceId = output.coreName ∧
      e.sourceName = output.sourceOutput ∧ e.sourceChannel.toNat = output.channel with
  | none =>
    obtain ⟨what, hrun⟩ := HilDeployer.selectOutput_of_none env channel hf
    rw [Exec.settle, hrun] at h
    simpa [not_fatal_runtimeError, eq_comm] using h
  | some e =>
    rw [Exec.settle, HilDeployer.run_selectOutput_of_some env channel hf] at h
    obtain ⟨_, hok⟩ :=
      (frame_writeRegister DeployerBase.steps_advances env.platform _ trivial s).exists_ok h
    exact (writeRegister_eq_ok.1 hok).2

/-- A call that does not deploy makes its requests, and may set the layout. -/
theorem settle_direct {call : HilCall Spec} (hc : call.Direct) {s s' : HilDeployer}
    (h : Exec.settle Failure.Fatal (call.exec env) s = some s') :
    ∃ l, s' = withAddresses l (s.emit (call.requests env s)) := by
  have hemit : s' = s.emit (call.requests env s) →
      ∃ l, s' = withAddresses l (s.emit (call.requests env s)) := by
    rintro rfl
    exact ⟨_, rfl⟩
  cases call with
  | setLayoutMap obj =>
    obtain ⟨b, hb, rfl⟩ := Exec.settle_zoom h
    obtain ⟨l, -, rfl⟩ := Exec.settle_zoom hb
    have hnone : requests env s (.setLayoutMap obj) = [] := rfl
    refine ⟨l, ?_⟩
    rw [hnone, emit_nil]
    rfl
  | deploy arguments => exact hc.elim
  | getHardwareSimData specs => exact hc.elim
  | selectOutput channel output => exact hemit (settle_selectOutput h)
  | setInput core name channel value =>
    obtain ⟨u, hok⟩ := (frame_base (DeployerBase.frame_updateInputValue
      DeployerBase.steps_advances env.platform core name channel value fun _ => trivial)
        s).exists_ok h
    exact hemit (setInput_eq_ok.1 hok).2
  | start =>
    obtain ⟨u, hok⟩ := (frame_start DeployerBase.steps_advances env (fun _ => trivial)
      s).exists_ok h
    exact hemit (start_eq_ok.1 hok).2
  | stop =>
    obtain ⟨u, hok⟩ := (frame_stop DeployerBase.steps_advances env (fun _ => trivial)
      s).exists_ok h
    exact hemit (stop_eq_ok.1 hok).2

end HilCall

namespace HilDeployer

/-- A deployment of `n` cores. -/
def cores (n : Nat) : Environment Unit :=
  .of (fun _ => .returning (List.replicate n ⟨"core", 0, 0, 0, 1, [], ⟨10, 0⟩, []⟩) []) fun _ => 1

end HilDeployer

end UscopeDriver
