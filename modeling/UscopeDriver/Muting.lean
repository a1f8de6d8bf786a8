import UscopeDriver.Calls

/-!
# Muting the bus

`get_hardware_sim_data` mutes the bus, deploys and puts the bus back. A deployment that throws
leaves the bus muted (`sinkMode_iff`), and then no write reaches the registers any more. In a run
without such a deployment every write does (`muting_ends`).
-/

namespace UscopeDriver

namespace HilCall

/-- `get_hardware_sim_data` gets past its deployment : it needs none, or the deployer accepts the
specification. -/
def Restores {Spec : Type} (env : Environment Spec) : HilCall Spec → HilDeployer → Prop
  | getHardwareSimData specs, s =>
    s.deployedHash = env.hash specs ∨ HilDeployer.Accepts (env.dispatcher specs)
  | _, _ => True

/-- The bridge where the requests of a call start : a deployment clears the log. -/
def startHw {Spec : Type} : HilCall Spec → FpgaBridge → FpgaBridge
  | deploy _, hw => { hw with busses := { hw.busses with operations := [] } }
  | _, hw => hw

end HilCall

namespace HilDeployer

variable {Spec : Type} {env : Environment Spec}

/-- A simulation restores the mute, unless it has to deploy on a live bus a specification that is
not accepted. -/
theorem sinkMode_iff {specs : Spec} {s s' : HilDeployer}
    (h : Exec.settle Failure.Fatal (getHardwareSimData env specs) s = some s') :
    s'.hw.busses.sinkMode = s.hw.busses.sinkMode ↔
      s.deployedHash = env.hash specs ∨ Accepts (env.dispatcher specs) ∨
        s.hw.busses.sinkMode = true := by
  rcases settle_getHardwareSimData h with ⟨hhash, rfl⟩ | ⟨hhash, ⟨u, t, hrun, rfl⟩ | ⟨e, he, hrun⟩⟩
  · exact iff_of_true rfl (Or.inl hhash)
  · refine iff_of_true ?_ (Or.inr (Or.inl (accepts_of_deploy hrun)))
    exact ((frameAt_deploy env specs s.muted).of_ok hrun).sinkMode.2
  · obtain ⟨hno, hkeeps⟩ := (frameAt_deploy env specs s.muted).of_error hrun he
    have hsink : s'.hw.busses.sinkMode = true := hkeeps.sinkMode.1
    rw [hsink]
    simp only [hhash, hno, false_or]
    exact eq_comm

/-- Outside `get_hardware_sim_data` a call only makes requests of the bridge. -/
theorem hw_of_call {call : HilCall Spec} (hc : ∀ specs, call ≠ .getHardwareSimData specs)
    {s s' : HilDeployer} (h : Exec.settle Failure.Fatal (call.exec env) s = some s') :
    ∃ rs, s'.hw = (call.startHw s.hw).performAll rs := by
  have direct : call.Direct → call.startHw s.hw = s.hw →
      ∃ rs, s'.hw = (call.startHw s.hw).performAll rs := by
    intro hd hstart
    obtain ⟨l, rfl⟩ := HilCall.settle_direct hd h
    exact ⟨_, by rw [hstart]; rfl⟩
  cases call with
  | deploy arguments => exact ((frameAt_deploy env arguments s).of_settle h).hw
  | getHardwareSimData specs => exact absurd rfl (hc specs)
  | setLayoutMap obj => exact direct trivial rfl
  | selectOutput channel output => exact direct trivial rfl
  | setInput core name channel value => exact direct trivial rfl
  | start => exact direct trivial rfl
  | stop => exact direct trivial rfl

/-- One call keeps the bus live on the condition of its row. -/
theorem sinkMode_of_call {call : HilCall Spec} {s s' : HilDeployer}
    (hs : s.hw.busses.sinkMode = false) (hr : call.Restores env s)
    (h : Exec.settle Failure.Fatal (call.exec env) s = some s') :
    s'.hw.busses.sinkMode = false := by
  by_cases hc : ∃ specs, call = .getHardwareSimData specs
  · obtain ⟨specs, rfl⟩ := hc
    rw [HilCall.exec, Exec.settle_discard] at h
    rw [← hs, sinkMode_iff h, ← or_assoc]
    exact Or.inl hr
  · obtain ⟨rs, hrs⟩ := hw_of_call (fun specs h => hc ⟨specs, h⟩) h
    rw [hrs, FpgaBridge.performAll_sinkMode, ← hs]
    cases call <;> rfl

/-- `get_hardware_sim_data` leaves the bus as it was just when it needs no deployment, the
deployer accepts the specification, or the bus was muted. After a run that starts on a live bus
and in which this holds of every such call, the bus is live and the register writes of every other
call reach the registers. -/
theorem muting_ends {hw : FpgaBridge} (hlive : hw.busses.sinkMode = false)
    {addresses : LogicLayout} {clock : {f : ℚ // 0 < f}} {calls : List (HilCall Spec)}
    (hcalls : Exec.Along Failure.Fatal (HilCall.exec env) (HilCall.Restores env) calls
      (construct hw addresses clock)) {s : HilDeployer}
    (hrun : Exec.settleAll Failure.Fatal (HilCall.exec env) calls (construct hw addresses clock) =
      some s) :
    (∀ (specs : Spec) (t t' : HilDeployer),
      Exec.settle Failure.Fatal (getHardwareSimData env specs) t = some t' →
        (t'.hw.busses.sinkMode = t.hw.busses.sinkMode ↔
          t.deployedHash = env.hash specs ∨ Accepts (env.dispatcher specs) ∨
            t.hw.busses.sinkMode = true)) ∧
    s.hw.busses.sinkMode = false ∧
    ∀ (call : HilCall Spec) (s' : HilDeployer), (∀ specs, call ≠ .getHardwareSimData specs) →
      Exec.settle Failure.Fatal (call.exec env) s = some s' →
        ∃ rs, s'.hw = (call.startHw s.hw).performAll rs ∧
          (s.hw.fpgaLoaded = true → s'.hw.busses.registers =
            rs.foldl (Request.store s.hw.busses.controlAddr) s.hw.busses.registers) := by
  have hs : s.hw.busses.sinkMode = false :=
    Exec.settleAll_invariant (f := HilCall.exec env) (P := HilCall.Restores env)
      (I := fun s => s.hw.busses.sinkMode = false) (fun _ _ _ => sinkMode_of_call) hcalls hlive hrun
  refine ⟨fun _ _ _ => sinkMode_iff, hs, fun call s' hc h => ?_⟩
  obtain ⟨rs, hrs⟩ := hw_of_call hc h
  refine ⟨rs, hrs, fun hl => ?_⟩
  have hstart : (call.startHw s.hw).fpgaLoaded = true ∧
      (call.startHw s.hw).busses.sinkMode = false ∧
      (call.startHw s.hw).busses.controlAddr = s.hw.busses.controlAddr ∧
      (call.startHw s.hw).busses.registers = s.hw.busses.registers := by
    cases call <;> exact ⟨hl, hs, rfl, rfl⟩
  have hall : rs.filter (call.startHw s.hw).reachesBus = rs :=
    List.filter_eq_self.2 fun r _ => by
      cases r with
      | write address value => exact hstart.1
      | load address program => rfl
  rw [hrs, FpgaBridge.performAll, hall]
  simp only [BusAccessor.performAll, hstart, Bool.false_eq_true, if_false]

/-- A simulation of one core. -/
theorem muting_ends_one : ∃ s,
    Exec.settleAll Failure.Fatal (HilCall.exec (cores 1)) [.getHardwareSimData ()] fresh = some s ∧
      s.hw.busses.sinkMode = false := by
  obtain ⟨s, hs⟩ : ∃ s, Exec.settleAll Failure.Fatal (HilCall.exec (cores 1))
      [.getHardwareSimData ()] fresh = some s := Option.isSome_iff_exists.1 (by decide +kernel)
  obtain ⟨u, t, hrun, -⟩ : ∃ u t, (deploy (cores 1) ()).run fresh = .ok u t ∧ True :=
    Exec.exists_of_returnsIn (by decide +kernel)
  have hrestores : Exec.Along Failure.Fatal (HilCall.exec (cores 1)) (HilCall.Restores (cores 1))
      [.getHardwareSimData ()] fresh :=
    ⟨Or.inr (accepts_of_deploy hrun), fun _ _ => trivial⟩
  exact ⟨s, hs, (muting_ends rfl hrestores hs).2.1⟩

/-- With too many cores the bus stays muted, and the start of the HIL is lost. -/
theorem muting_of_many_cores :
    ((Exec.settle Failure.Fatal (getHardwareSimData (cores 33) ()) fresh).map
      (·.hw.busses.sinkMode)) = some true ∧
    ((Exec.settleAll Failure.Fatal (HilCall.exec (cores 33)) [.getHardwareSimData (), .start]
      fresh).map fun s => s.hw.busses.registers
        ((s.addresses.bases.hilControl - s.hw.busses.controlAddr) / 4)) = some 0 ∧
    ((Exec.settleAll Failure.Fatal (HilCall.exec (cores 33)) [.start]
      fresh).map fun s => s.hw.busses.registers
        ((s.addresses.bases.hilControl - s.hw.busses.controlAddr) / 4)) = some 1 := by
  decide +kernel

end HilDeployer

end UscopeDriver
