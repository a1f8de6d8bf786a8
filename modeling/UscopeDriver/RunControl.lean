import UscopeDriver.Redeployment
import UscopeDriver.Enabling
import UscopeDriver.Muting

/-!
# Starting and stopping

`hil_control` is a switch : whatever deployments, simulations, selections and updates a client asks
for in between, its position is that of the last start or stop that reached the bus. A simulation
whose deployment throws loses the bus, and from then on the switch cannot be moved. The deployer
refines this switch (`switch_refines`).
-/

namespace UscopeDriver

open Exec (Frame FrameAt)

/-! ## The inputs that a deployment enters -/

namespace DeployerBase

/-- New entries of `inputs` are of engines in `A`. -/
def Enters (A : Nat → Prop) (s s' : DeployerBase) : Prop :=
  ∀ i ∈ s'.inputs, i ∈ s.inputs ∨ EngineIn A i

variable {fatal : Failure → Prop} {A : Nat → Prop}

instance : IsPreorder DeployerBase (Enters A) where
  refl := fun _ _ => Or.inl
  trans := fun _ _ _ h h' i hi => (h' i hi).elim (h i) Or.inr

theorem enters_onBridge {α : Type} (m : Exec Failure FpgaBridge α) :
    Frame fatal True (Enters A) (onBridge m) :=
  fun s => (Exec.frame_true m s.hw).zoom fun _ _ _ => Or.inl

/-- The inputs do not depend on the writes, and an entry follows the writes of its engine. -/
theorem steps_enters (A : Nat → Prop) : Steps fatal True A (Enters A) where
  fails := fun _ => Or.inr trivial
  write := fun _ _ _ _ => enters_onBridge _
  load := fun _ _ => enters_onBridge _
  record := fun h _ hi => Or.inl (h.inputs ▸ hi)
  enter := fun {_} hengine _ i hi => by
    rcases List.mem_append.1 hi with hi | hi
    · exact Or.inl hi
    · obtain rfl := List.mem_singleton.1 hi
      exact Or.inr hengine

end DeployerBase

namespace HilDeployer

/-- However a deployment ends, it enters inputs whose engines it sets up. -/
theorem enters_deploy {Spec : Type} {fatal : Failure → Prop} (env : Environment Spec)
    (arguments : Spec) (s : HilDeployer) :
    FrameAt fatal True (fun s s' : HilDeployer => DeployerBase.Enters
      ((env.dispatcher arguments).SetupRegister s.addresses) s.toDeployerBase s'.toDeployerBase)
      (deploy env arguments) s := by
  let A := (env.dispatcher arguments).SetupRegister s.addresses
  refine FrameAt.mono (R := fun _ => Over (DeployerBase.Enters A) (reset (env.hash arguments) s))
    ?_ id fun _ h => h.base
  rw [deploy_eq_configure]
  refine (frameAt_configure (DeployerBase.steps_enters A)
    (fun _ _ _ _ _ hinputs _ hi => Or.inl (hinputs ▸ hi)) env arguments s (fun _ => trivial)
    fun _ h => h).bind_from fun programs t _ _ => ?_
  have hwrite (addr val : Nat) : Frame fatal True (Over (DeployerBase.Enters A))
      (writeRegister env.platform addr val) := frame_base (DeployerBase.enters_onBridge _)
  exact Exec.Frame.bind ((Exec.frame_gets _).bind fun _ => hwrite _ _) (fun _ =>
    Exec.frame_forM fun _ _ => (Exec.frame_gets _).bind fun _ => (Exec.frame_gets _).bind
      fun _ => hwrite _ _) t

end HilDeployer

/-! ## The switch -/

/-- The position that a call asks for. -/
def HilCall.position {Spec : Type} : HilCall Spec → Option Nat
  | .start => some 1
  | .stop => some 0
  | _ => none

/-- The switch of the logic, and whether it can be reached. -/
@[ext]
structure RunSwitch where
  position : Nat
  live : Bool
  deployedHash : Nat

namespace RunSwitch

open Classical in
/-- The switch after a call. It moves while the bus is live, and a simulation that has to deploy a
specification which the deployer does not accept loses the bus. -/
noncomputable def after {Spec : Type} (env : Environment Spec) (b : RunSwitch) :
    HilCall Spec → RunSwitch
  | .start => if b.live then { b with position := 1 } else b
  | .stop => if b.live then { b with position := 0 } else b
  | .deploy arguments => { b with deployedHash := env.hash arguments }
  | .getHardwareSimData specs =>
    if b.deployedHash = env.hash specs then b
    else { b with
      deployedHash := env.hash specs
      live := b.live && HilDeployer.Accepts (env.dispatcher specs) }
  | .setLayoutMap _ | .selectOutput _ _ | .setInput _ _ _ _ => b

open Classical in
theorem after_getHardwareSimData {Spec : Type} (env : Environment Spec) (b : RunSwitch)
    (specs : Spec) : b.after env (.getHardwareSimData specs) =
      if b.deployedHash = env.hash specs then b
      else { b with
        deployedHash := env.hash specs
        live := b.live && HilDeployer.Accepts (env.dispatcher specs) } := rfl

section Live

variable {Spec : Type} {env : Environment Spec} {b : RunSwitch}

/-- A lost bus stays lost. -/
theorem live_of_after {call : HilCall Spec} (h : (b.after env call).live = true) :
    b.live = true := by
  cases call with
  | start =>
    simp only [after] at h
    split_ifs at h with hlive
    · exact hlive
    · exact h
  | stop =>
    simp only [after] at h
    split_ifs at h with hlive
    · exact hlive
    · exact h
  | getHardwareSimData specs =>
    rw [after_getHardwareSimData] at h
    split_ifs at h
    · exact h
    · exact (Bool.and_eq_true_iff.1 h).1
  | deploy arguments => exact h
  | setLayoutMap obj => exact h
  | selectOutput channel output => exact h
  | setInput core name channel value => exact h

theorem position_after (h : b.live = true) (call : HilCall Spec) :
    (b.after env call).position = call.position.getD b.position := by
  cases call with
  | start => simp [after, h, HilCall.position]
  | stop => simp [after, h, HilCall.position]
  | getHardwareSimData specs =>
    rw [after_getHardwareSimData]
    split_ifs <;> rfl
  | deploy arguments => rfl
  | setLayoutMap obj => rfl
  | selectOutput channel output => rfl
  | setInput core name channel value => rfl

/-- While the bus is not lost, the position is that of the last start or stop. -/
theorem position_of_live {calls : List (HilCall Spec)}
    (h : (calls.foldl (after env) b).live = true) :
    (calls.foldl (after env) b).position =
      (calls.filterMap HilCall.position).getLast?.getD b.position := by
  induction calls using List.reverseRecOn with
  | nil => rfl
  | append_singleton calls call ih =>
    rw [List.foldl_append, List.foldl_cons, List.foldl_nil] at h ⊢
    have hlive := live_of_after h
    rw [position_after hlive, ih hlive, List.filterMap_append]
    cases hcall : call.position with
    | none => simp [hcall]
    | some position => simp [hcall]

end Live

end RunSwitch

namespace HilDeployer

/-- The switch as the deployer has it. -/
def runSwitch (s : HilDeployer) : RunSwitch where
  position := s.hw.busses.registerValue s.addresses.bases.hilControl
  live := !s.hw.busses.sinkMode
  deployedHash := s.deployedHash

/-- A register in another word than `hil_control`. -/
def ApartFromSwitch (layout : LogicLayout) (window a : Nat) : Prop :=
  registerWord window a ≠ registerWord window layout.bases.hilControl

end HilDeployer

/-- A call whose registers are apart from `hil_control`, and that sets no other layout. -/
def HilCall.SparesSwitch {Spec : Type} (env : Environment Spec) (layout : LogicLayout)
    (window : Nat) : HilCall Spec → Prop
  | .setLayoutMap _ => False
  | .deploy arguments | .getHardwareSimData arguments => ∀ a,
    (env.dispatcher arguments).SetupRegister layout a ∨ a = HilDeployer.enableAddress layout →
      HilDeployer.ApartFromSwitch layout window a
  | .selectOutput channel _ =>
    HilDeployer.ApartFromSwitch layout window
      (layout.bases.scopeMux + u32 (4 * channel) + 4)
  | .setInput _ _ _ _ | .start | .stop => True

namespace HilDeployer

/-- What the refinement rests on : the layout and the window, a loaded bitstream, and no input whose
engine is at `hil_control`. -/
structure Wired (layout : LogicLayout) (window : Nat) (s : HilDeployer) : Prop where
  addresses : s.addresses = layout
  controlAddr : s.hw.busses.controlAddr = window
  fpgaLoaded : s.hw.fpgaLoaded = true
  inputs : ∀ i ∈ s.inputs, ∀ offset, offset = constSelector ∨ offset = constDest ∨
    offset = constLsb → ApartFromSwitch layout window (i.constIpAddr.1 + offset)

variable {layout : LogicLayout} {window : Nat} {Spec : Type} {env : Environment Spec}
  {s s' : HilDeployer}

/-! ### Requests -/

/-- Writes that spare the switch. -/
theorem switch_emit (h : Wired layout window s) {rs : List Request}
    (hrs : OnlyWrites (ApartFromSwitch layout window) rs) :
    Wired layout window (s.emit rs) ∧ (s.emit rs).runSwitch = s.runSwitch := by
  refine ⟨⟨h.addresses, h.controlAddr, h.fpgaLoaded, h.inputs⟩, ?_⟩
  have hposition : (s.hw.performAll rs).busses.registerValue s.addresses.bases.hilControl =
      s.hw.busses.registerValue s.addresses.bases.hilControl := by
    cases hsink : s.hw.busses.sinkMode with
    | true => simp [FpgaBridge.performAll, BusAccessor.performAll, BusAccessor.registerValue, hsink]
    | false =>
      have hnone : lastWritten s.hw.busses.controlAddr (rs.filter s.hw.reachesBus)
          s.addresses.bases.hilControl = none := by
        rw [h.controlAddr, h.addresses]
        exact lastWritten_eq_none (fun r hr => hrs r (List.mem_of_mem_filter hr)) fun _ => id
      rw [FpgaBridge.performAll, BusAccessor.registerValue_performAll hsink, hnone]
      rfl
  exact congrArg (fun v => { s.runSwitch with position := v }) hposition

theorem switch_control (h : Wired layout window s) {value : Nat} (hvalue : value < 2 ^ 32) :
    Wired layout window (s.emit [s.controlRequest value]) ∧
      (s.emit [s.controlRequest value]).runSwitch =
        if s.runSwitch.live then { s.runSwitch with position := value } else s.runSwitch := by
  refine ⟨⟨h.addresses, h.controlAddr, h.fpgaLoaded, h.inputs⟩, ?_⟩
  have hfilter : [s.controlRequest value].filter s.hw.reachesBus = [s.controlRequest value] := by
    simp [controlRequest, regWrite, FpgaBridge.reachesBus, h.fpgaLoaded]
  have hposition : (s.hw.performAll [s.controlRequest value]).busses.registerValue
      s.addresses.bases.hilControl =
        if s.runSwitch.live then value else s.runSwitch.position := by
    rw [FpgaBridge.performAll, hfilter]
    cases hsink : s.hw.busses.sinkMode with
    | true =>
      simp [BusAccessor.performAll, BusAccessor.registerValue, runSwitch, hsink]
    | false =>
      rw [BusAccessor.registerValue_performAll hsink, controlRequest, lastWritten_cons]
      simp [runSwitch, hsink, u32_of_lt hvalue]
  refine (congrArg (fun v => { s.runSwitch with position := v }) hposition).trans ?_
  split_ifs <;> rfl

/-! ### Deployments -/

theorem log_of_deploy_at {arguments : Spec}
    (h : Exec.settle Failure.Fatal (deploy env arguments) s = some s') :
    ∀ o ∈ s'.hw.busses.operations, o.LoadOrWriteAt fun a =>
      (env.dispatcher arguments).SetupRegister s.addresses a ∨ a = enableAddress s.addresses := by
  have hend : (∃ u, (deploy env arguments).run s = .ok u s') ∨
      ∃ e, (deploy env arguments).run s = .error e s' := by
    rcases Exec.settle_eq_some.1 h with hrun | ⟨e, -, hrun⟩
    · exact Or.inl hrun
    · exact Or.inr ⟨e, hrun⟩
  obtain ⟨before, mask, cores, hops, hbefore, -, hmask, hcores⟩ := (log_of_deploy s).1 s' hend
  have hsetup : ∀ {o : BusOp}, o.LoadOrWriteAt ((env.dispatcher arguments).SetupRegister
      s.addresses) → o.LoadOrWriteAt fun a =>
        (env.dispatcher arguments).SetupRegister s.addresses a ∨ a = enableAddress s.addresses :=
    fun h => h.imp_right fun ⟨a, v, ha, ho⟩ => ⟨a, v, Or.inl ha, ho⟩
  intro o ho
  rw [hops, List.mem_append, List.mem_append] at ho
  rcases ho with (ho | ho) | ho
  · exact hsetup (hbefore o ho)
  · obtain ⟨v, rfl⟩ := hmask o ho
    exact Or.inr ⟨_, _, Or.inr rfl, rfl⟩
  · exact hsetup (KeepsApart.coreOp (hcores o ho))

theorem switch_deploy {arguments : Spec} (h : Wired layout window s)
    (hspares : HilCall.SparesSwitch env layout window (.deploy arguments))
    (hrun : Exec.settle Failure.Fatal (deploy env arguments) s = some s') :
    Wired layout window s' ∧
      s'.runSwitch = { s.runSwitch with deployedHash := env.hash arguments } := by
  have hkeeps := (frameAt_deploy env arguments s).of_settle hrun
  have henters := (enters_deploy env arguments s).of_settle hrun
  have hlog := log_of_deploy_at hrun
  rw [h.addresses] at hlog henters
  obtain ⟨rs, hrs⟩ := hkeeps.hw
  have haddresses : s'.addresses = s.addresses := hkeeps.addresses
  have hwindow : s'.hw.busses.controlAddr = s.hw.busses.controlAddr := by
    rw [hrs]
    rfl
  refine ⟨⟨haddresses.trans h.addresses, hwindow.trans h.controlAddr,
    hkeeps.fpgaLoaded.trans h.fpgaLoaded, fun i hi offset hoffset => ?_⟩, ?_⟩
  · rcases henters i hi with hi | ⟨ipAddress, heq, hsetup⟩
    · exact h.inputs i hi offset hoffset
    · have hregister : InputRegister ipAddress 0 .constantInput (ipAddress + offset) := by
        rcases hoffset with rfl | rfl | rfl <;> simp [InputRegister]
      have hapart := hspares _ (Or.inl (hsetup _ hregister))
      rwa [ApartFromSwitch, registerWord, heq, u64, u64, Nat.mod_add_mod]
  · have hnot : ¬s'.hw.busses.Wrote
        (registerWord s.hw.busses.controlAddr s.addresses.bases.hilControl) := by
      rintro ⟨address, value, hmem, hword⟩
      rw [h.addresses, h.controlAddr] at hword
      rw [hwindow, h.controlAddr] at hword
      rcases hlog _ hmem with htype | ⟨a, v, ha, ho⟩
      · cases htype
      · obtain rfl : address = u64 a := by simpa using congrArg BusOp.address ho
        exact hspares a ha hword
    have hposition : s'.hw.busses.registerValue s'.addresses.bases.hilControl =
        s.hw.busses.registerValue s.addresses.bases.hilControl := by
      rw [BusAccessor.registerValue, haddresses, hwindow]
      rw [hrs] at hnot ⊢
      exact BusAccessor.registers_performAll_of_notMem
        (mt (BusAccessor.wrote_performAll rfl).2 hnot)
    rw [runSwitch, hposition, hkeeps.sinkMode.1, hkeeps.deployedHash]
    rfl

/-- A simulation, also one that throws. -/
theorem switch_getHardwareSimData {specs : Spec} (h : Wired layout window s)
    (hspares : HilCall.SparesSwitch env layout window (.getHardwareSimData specs))
    (hrun : Exec.settle Failure.Fatal (getHardwareSimData env specs) s = some s') :
    Wired layout window s' ∧
      s'.runSwitch = s.runSwitch.after env (.getHardwareSimData specs) := by
  have hmuted : Wired layout window s.muted :=
    ⟨h.addresses, h.controlAddr, h.fpgaLoaded, h.inputs⟩
  have hcached : s.runSwitch.deployedHash = s.deployedHash := rfl
  rw [RunSwitch.after_getHardwareSimData, hcached]
  rcases settle_getHardwareSimData hrun with
    ⟨hhash, rfl⟩ | ⟨hhash, ⟨u, t, hdeploy, rfl⟩ | ⟨e, he, hdeploy⟩⟩
  · exact ⟨h, (if_pos hhash).symm⟩
  · obtain ⟨ht, hswitch⟩ := switch_deploy hmuted hspares (Exec.settle_of_ok hdeploy)
    obtain ⟨hstarted, hsame⟩ := switch_control ht (show 1 < 2 ^ 32 by decide)
    have hlive : t.runSwitch.live = false := by
      rw [hswitch]
      rfl
    rw [if_neg (by simp [hlive]), hswitch] at hsame
    refine ⟨⟨hstarted.addresses, hstarted.controlAddr, hstarted.fpgaLoaded, hstarted.inputs⟩, ?_⟩
    simp only [if_neg hhash, accepts_of_deploy hdeploy, decide_true, Bool.and_true]
    have hposition := congrArg RunSwitch.position hsame
    have hdeployed := congrArg RunSwitch.deployedHash hsame
    have hrestored := congrArg not ((frameAt_deploy env specs s.muted).of_ok hdeploy).sinkMode.2
    exact RunSwitch.ext hposition hrestored hdeployed
  · obtain ⟨ht, hswitch⟩ := switch_deploy hmuted hspares
      (Exec.settle_eq_some.2 (Or.inr ⟨e, he, hdeploy⟩))
    have hno := ((frameAt_deploy env specs s.muted).of_error hdeploy he).1
    refine ⟨ht, hswitch.trans ?_⟩
    simp only [if_neg hhash, hno, decide_false, Bool.and_false]
    rfl

/-! ### Runs -/

/-- The writes of a live update stay at the engines. -/
theorem onlyWrites_setInput (h : Wired layout window s) (core name : String) (channel : Nat)
    (value : ℚ) : OnlyWrites (ApartFromSwitch layout window)
      (setInputRequests env.platform core name channel value s) :=
  .flatMap fun i hi => by
    have hi := (List.mem_filter.1 hi).1
    exact .cons (h.inputs i hi _ (Or.inl rfl)) (.cons (h.inputs i hi _ (Or.inr (Or.inl rfl)))
      (.cons (h.inputs i hi _ (Or.inr (Or.inr rfl))) .nil))

theorem onlyWrites_select (h : Wired layout window s) {channel : Nat} {output : OutputSpecs}
    (hspares : HilCall.SparesSwitch env layout window (.selectOutput channel output)) :
    OnlyWrites (ApartFromSwitch layout window) (s.selectRequests channel output) := by
  unfold selectRequests
  rw [h.addresses]
  split
  · exact .cons hspares .nil
  · exact .nil

/-- One call moves the switch as the abstract one. -/
theorem switch_call {call : HilCall Spec} (h : Wired layout window s)
    (hspares : call.SparesSwitch env layout window)
    (hrun : Exec.settle Failure.Fatal (call.exec env) s = some s') :
    Wired layout window s' ∧ s'.runSwitch = s.runSwitch.after env call := by
  cases call with
  | setLayoutMap obj => exact hspares.elim
  | deploy arguments => exact switch_deploy h hspares hrun
  | getHardwareSimData specs =>
    rw [HilCall.exec, Exec.settle_discard] at hrun
    exact switch_getHardwareSimData h hspares hrun
  | selectOutput channel output =>
    have hlive : HilCall.Live (.selectOutput channel output : HilCall Spec) := trivial
    obtain rfl := settle_live hlive hrun
    exact switch_emit h (onlyWrites_select h hspares)
  | setInput core name channel value =>
    have hlive : HilCall.Live (.setInput core name channel value : HilCall Spec) := trivial
    obtain rfl := settle_live hlive hrun
    exact switch_emit h (onlyWrites_setInput h core name channel value)
  | start =>
    have hlive : HilCall.Live (.start : HilCall Spec) := trivial
    obtain rfl := settle_live hlive hrun
    exact switch_control h (by decide)
  | stop =>
    have hlive : HilCall.Live (.stop : HilCall Spec) := trivial
    obtain rfl := settle_live hlive hrun
    exact switch_control h (by decide)

/-- Whatever calls a client makes between two maps, with any of them ending in an exception,
`hil_control` and the mute follow the switch. So as long as the bus is live, the logic runs or
stands as the last start or stop has it. -/
theorem switch_refines {calls : List (HilCall Spec)} (hs : Wired layout window s)
    (hspares : ∀ call ∈ calls, call.SparesSwitch env layout window)
    (h : Exec.settleAll Failure.Fatal (HilCall.exec env) calls s = some s') :
    s'.runSwitch = calls.foldl (RunSwitch.after env) s.runSwitch ∧
      (s'.hw.busses.sinkMode = false →
        s'.hw.busses.registerValue layout.bases.hilControl =
          (calls.filterMap HilCall.position).getLast?.getD
            (s.hw.busses.registerValue layout.bases.hilControl)) := by
  obtain ⟨hs', hswitch⟩ := Exec.settleAll_refines (I := Wired layout window)
    (fun call hcall _ _ ht hrun => switch_call ht (hspares call hcall) hrun) hs h
  refine ⟨hswitch, fun hsink => ?_⟩
  have hlive : s'.runSwitch.live = true := congrArg not hsink
  rw [hswitch] at hlive
  have hposition := (congrArg RunSwitch.position hswitch).trans (RunSwitch.position_of_live hlive)
  rwa [runSwitch, runSwitch, hs'.addresses, hs.addresses] at hposition

/-! ### The map of the tests -/

theorem wired_fresh : Wired .addrMapV2 fresh.hw.busses.controlAddr fresh :=
  ⟨rfl, rfl, rfl, fun _ hi => absurd hi List.not_mem_nil⟩

/-- On the map of the tests no register of a deployment shares a word with `hil_control`. -/
theorem apart_addrMapV2 {dispatcher : EmulatorDispatcher}
    (hlen : (dispatcher.getPrograms.toOption.getD []).length ≤ 32) {a : Nat}
    (h : dispatcher.SetupRegister .addrMapV2 a ∨ a = enableAddress .addrMapV2) :
    ApartFromSwitch .addrMapV2 fresh.hw.busses.controlAddr a := by
  have hrange : a < 2 ^ 64 ∧ (a < 18316656640 ∨ 18316656644 ≤ a) := by
    rcases h with h | rfl
    · rcases setupRegister_addrMapV2 h with h | h | ⟨p, hp, i, hi, hg, h⟩
      · omega
      · have := sequencerRegister_addrMapV2 hlen h
        omega
      · rcases hg with hs | hs <;> rw [hs] at h
        · have hip : inputIpAddress .addrMapV2 p .randomInput = 18316722176 := rfl
          rcases h with rfl | ⟨k, -, rfl⟩
          · omega
          · have := u32_lt ((k + 1) * 4)
            omega
        · have hip : inputIpAddress .addrMapV2 p .waveformInput = 18316787712 := rfl
          obtain ⟨k, hk, rfl⟩ := h
          omega
    · decide
  have hwindow : fresh.hw.busses.controlAddr = 17179869184 := by decide
  have hcontrol : LogicLayout.addrMapV2.bases.hilControl = 18316656640 := rfl
  rw [ApartFromSwitch, registerWord, registerWord, hwindow, hcontrol, u64_of_lt hrange.1,
    u64_of_lt (by decide)]
  omega

/-- A deployment, a start, an update, a simulation, an output that there is not, and a stop. -/
def startAndStop : List (HilCall Unit) :=
  [.deploy (), .start, .setInput "core" "k" 0 7, .getHardwareSimData (),
    .selectOutput 0 ⟨"core", "missing", 0⟩, .stop]

theorem switch_refines_startAndStop : ∃ s,
    Exec.settleAll Failure.Fatal (HilCall.exec oneInput) startAndStop fresh = some s ∧
      s.runSwitch = startAndStop.foldl (RunSwitch.after oneInput) fresh.runSwitch := by
  obtain ⟨s, hs⟩ : ∃ s, Exec.settleAll Failure.Fatal (HilCall.exec oneInput) startAndStop fresh =
    some s := Option.isSome_iff_exists.1 (by decide +kernel)
  have hdeploy : ∀ a, (oneInput.dispatcher ()).SetupRegister .addrMapV2 a ∨
      a = enableAddress .addrMapV2 → ApartFromSwitch .addrMapV2 fresh.hw.busses.controlAddr a :=
    fun _ => apart_addrMapV2 (by decide)
  refine ⟨s, hs, (switch_refines wired_fresh (fun call hcall => ?_) hs).1⟩
  simp only [startAndStop, List.mem_cons, List.not_mem_nil, or_false] at hcall
  rcases hcall with rfl | rfl | rfl | rfl | rfl | rfl
  · exact hdeploy
  · trivial
  · trivial
  · exact hdeploy
  · unfold HilCall.SparesSwitch ApartFromSwitch
    decide
  · trivial

end HilDeployer

end UscopeDriver
