import UscopeDriver.Cache
import UscopeDriver.RunControl
import UscopeDriver.ScopeSettings

/-!
# The HIL deployer behind the messages

Seen from the HIL deployer, a client that leaves the hardware to it makes calls : a message is one
call on the deployer or none (`HilCall.ofCommand`), and what the driver serves is a run of these
calls, with the deployments that throw among them (`serve_calls`). So what holds after any run of
calls holds after any run of such messages.
-/

namespace UscopeDriver

namespace HilCall

/-- What is selected, and for which channel of the scope. -/
def selectOutput? (pl : Platform) (arguments : Json) : Option (HilCall Json) := do
  let output ← arguments.find? "output"
  let coreName ← (output.find? "core").bind Json.text?
  let sourceOutput ← (output.find? "name").bind Json.text?
  let outputChannel ← (output.find? "channel").bind (Json.uint32? pl)
  let channel ← (arguments.find? "channel").bind (Json.uint32? pl)
  pure (.selectOutput channel ⟨coreName, sourceOutput, outputChannel⟩)

/-- The live update that the arguments ask for. -/
def setInput? (pl : Platform) (arguments : Json) : Option (HilCall Json) := do
  let name ← (arguments.find? "name").bind Json.text?
  let value ← (arguments.find? "value").bind Json.number?
  let core ← (arguments.find? "core").bind Json.text?
  let channel ← (arguments.find? "channel").bind (Json.uint32? pl)
  pure (.setInput core name (u16 channel) value)

/-- The deployment is one of custom logic. -/
def isCustom (arguments : Json) : Option Bool :=
  (arguments.find? "deployment_mode").bind Json.bool?

/-- The call that a command makes. -/
def ofCommand (pl : Platform) (commandString : String) (arguments : Json) :
    Option (HilCall Json) :=
  if commandString = "deploy_hil" then
    if isCustom arguments = some false then some (.deploy arguments) else none
  else if commandString = "hil_select_out" then selectOutput? pl arguments
  else if commandString = "hil_set_in" then setInput? pl arguments
  else if commandString = "hil_start" then some .start
  else if commandString = "hil_stop" then some .stop
  else if commandString = "hil_hardware_sim" then some (.getHardwareSimData arguments)
  else if commandString = "set_hil_address_map" then some (.setLayoutMap arguments)
  else none

theorem ofCommand_of_notMem {commandString : String} (h : commandString ∉ Commands.coreCommands)
    (pl : Platform) (arguments : Json) : ofCommand pl commandString arguments = none := by
  have hne : ∀ command ∈ Commands.coreCommands, commandString ≠ command :=
    fun command hcommand heq => h (heq ▸ hcommand)
  simp only [Commands.coreCommands, List.forall_mem_cons] at hne
  simp [ofCommand, hne]

end HilCall

/-! ## The endpoints -/

namespace CoresEndpoints

variable {w : Surroundings} {arguments : Json} {s s' : CoresEndpoints} {r : Response}

theorem settle_onHil {α : Type} {m : Exec Failure HilDeployer α}
    (h : Exec.settle Failure.Fatal (onHil m) s = some s') :
    Exec.settle Failure.Fatal m s.hilOf = some s'.hilOf := by
  obtain ⟨hil, hm, rfl⟩ := Exec.settle_zoom h
  exact hm

/-- A call that returns, and then an answer. -/
theorem settle_onHil_pure {α : Type} {m : Exec Failure HilDeployer α} {f : α → Response}
    (h : Exec.settle Failure.Fatal (onHil m >>= fun a => pure (f a)) s = some s') :
    Exec.settle Failure.Fatal m s.hilOf = some s'.hilOf := by
  rw [Exec.settle_bind_pure] at h
  exact settle_onHil h

theorem run_at_get {α : Type} {σ : Type} {β : Type} {read : Json → Option α} {key : String}
    {f : α → Exec Failure σ β} {b : β} {t t' : σ}
    (h : (arguments.at' key >>= fun v => v.get read >>= f).run t = .ok b t') :
    ∃ a, (arguments.find? key).bind read = some a ∧ (f a).run t = .ok b t' := by
  obtain ⟨v, t₁, hv, hrest⟩ := Exec.bind_eq_ok.1 h
  obtain ⟨hfind, rfl⟩ := Json.at'_eq_ok.1 hv
  obtain ⟨a, t₂, hget, hf⟩ := Exec.bind_eq_ok.1 hrest
  obtain ⟨hread, rfl⟩ := Exec.require_eq_ok.1 hget
  exact ⟨a, by rw [hfind]; exact hread, hf⟩

/-- The deployment returned, or its exception was caught. -/
theorem settle_deployHil (hcustom : HilCall.isCustom arguments ≠ some true)
    (h : (processDeployHil w arguments).run s = .ok r s') :
    HilCall.isCustom arguments = some false ∧
      Exec.settle Failure.Fatal (HilDeployer.deploy w.env arguments) s.hilOf = some s'.hilOf := by
  obtain ⟨customDeploy, hmode, -⟩ := answers_processDeployHil.1 ⟨r, s', h⟩
  have hisCustom : HilCall.isCustom arguments = some customDeploy := by
    rw [HilCall.isCustom, hmode]
    rfl
  cases customDeploy with
  | true => exact absurd hisCustom hcustom
  | false =>
    have hrun : (deployHil w arguments).run s = (onHil (HilDeployer.deploy w.env arguments) >>=
        fun _ => pure { responseCode := .ok }).run s := by
      rw [deployHil, EStateM.run_bind, Json.at'_eq_ok.2 ⟨hmode, rfl⟩]
      rfl
    have hsettle := Exec.settle_of_catching (fun _ => not_fatal_of_isRuntimeError) h
    rw [Exec.settle, hrun] at hsettle
    exact ⟨hisCustom, settle_onHil_pure hsettle⟩

theorem settle_selectOut (h : (processHilSelectOut w arguments).run s = .ok r s') :
    Exec.settleAll Failure.Fatal (HilCall.exec w.env)
      (HilCall.selectOutput? w.env.platform arguments).toList s.hilOf = some s'.hilOf := by
  unfold processHilSelectOut at h
  cases houtput : arguments.find? "output" with
  | none =>
    rw [houtput] at h
    obtain ⟨-, rfl⟩ := Exec.pure_eq_ok.1 h
    simp [HilCall.selectOutput?, houtput, Exec.settleAll]
  | some output =>
    rw [houtput] at h
    obtain ⟨coreName, hcore, h⟩ := run_at_get h
    obtain ⟨sourceOutput, hname, h⟩ := run_at_get h
    obtain ⟨outputChannel, houtputChannel, h⟩ := run_at_get h
    obtain ⟨channel, hchannel, h⟩ := run_at_get h
    have hcall : HilCall.selectOutput? w.env.platform arguments =
        some (.selectOutput channel ⟨coreName, sourceOutput, outputChannel⟩) := by
      simp [HilCall.selectOutput?, houtput, hcore, hname, houtputChannel, hchannel]
    rw [hcall]
    exact HilDeployer.settleAll_singleton.2 (settle_onHil_pure (Exec.settle_of_ok h))

theorem settle_setIn (h : (processHilSetIn w arguments).run s = .ok r s') :
    ∃ call, HilCall.setInput? w.env.platform arguments = some call ∧
      Exec.settle Failure.Fatal (call.exec w.env) s.hilOf = some s'.hilOf := by
  obtain ⟨name, hname, h⟩ := run_at_get h
  obtain ⟨value, hvalue, h⟩ := run_at_get h
  obtain ⟨core, hcore, h⟩ := run_at_get h
  obtain ⟨channel, hchannel, h⟩ := run_at_get h
  refine ⟨.setInput core name (u16 channel) value, ?_,
    settle_onHil_pure (Exec.settle_of_ok h)⟩
  simp [HilCall.setInput?, hname, hvalue, hcore, hchannel]

/-- The other deployer is set up after the first. -/
theorem settle_setMap {pl : Platform}
    (h : (processSetHilAddressMap pl arguments).run s = .ok r s') :
    Exec.settle Failure.Fatal
      (HilDeployer.base (DeployerBase.setLayoutMap pl arguments)) s.hilOf = some s'.hilOf := by
  obtain ⟨u, t, hhil, hrest⟩ := Exec.bind_eq_ok.1 h
  obtain ⟨u', t', hcustom, hpure⟩ := Exec.bind_eq_ok.1 hrest
  obtain ⟨-, rfl⟩ := Exec.pure_eq_ok.1 hpure
  have hsettle := settle_onHil (Exec.settle_of_ok hhil)
  obtain ⟨custom, hrun, rfl⟩ := Exec.zoom_eq_ok.1 hcustom
  obtain ⟨base, hbase, rfl⟩ := Exec.zoom_eq_ok.1 hrun
  obtain ⟨addresses, -, rfl⟩ := Exec.zoom_eq_ok.1 hbase
  exact hsettle

/-- A command on the cores is a call of the HIL deployer, or it leaves that deployer alone. -/
theorem settle_processCommand {commandString : String} (hprogram : commandString ≠ "apply_program")
    (hcustom : commandString = "deploy_hil" → HilCall.isCustom arguments ≠ some true)
    (h : (processCommand w commandString arguments).run s = .ok r s') :
    Exec.settleAll Failure.Fatal (HilCall.exec w.env)
      (HilCall.ofCommand w.env.platform commandString arguments).toList s.hilOf =
        some s'.hilOf := by
  have idle {m : Exec Failure CoresEndpoints Response} (hm : Exec.Moves Eq m)
      (hrun : m.run s = .ok r s') : Exec.settleAll Failure.Fatal (HilCall.exec w.env) [] s.hilOf =
        some s'.hilOf := by
    obtain rfl := hm.of_ok hrun
    rfl
  have one {call : HilCall Json}
      (hsettle : Exec.settle Failure.Fatal (call.exec w.env) s.hilOf = some s'.hilOf) :
      Exec.settleAll Failure.Fatal (HilCall.exec w.env) [call] s.hilOf = some s'.hilOf :=
    HilDeployer.settleAll_singleton.2 hsettle
  unfold processCommand at h
  rcases Exec.ite_eq_ok.1 h with ⟨happly, h⟩ | ⟨happly, h⟩
  · exact absurd happly hprogram
  rcases Exec.ite_eq_ok.1 h with ⟨hdeploy, h⟩ | ⟨hdeploy, h⟩
  · subst hdeploy
    obtain ⟨hmode, hsettle⟩ := settle_deployHil (hcustom rfl) h
    have hcall : Exec.settle Failure.Fatal ((HilCall.deploy arguments).exec w.env) s.hilOf =
      some s'.hilOf := hsettle
    simpa [HilCall.ofCommand, hmode] using one hcall
  rcases Exec.ite_eq_ok.1 h with ⟨hemulate, h⟩ | ⟨hemulate, h⟩
  · simpa [HilCall.ofCommand, hemulate] using idle (Exec.frame_pure _) h
  rcases Exec.ite_eq_ok.1 h with ⟨hselect, h⟩ | ⟨hselect, h⟩
  · simpa [HilCall.ofCommand, hselect] using settle_selectOut h
  rcases Exec.ite_eq_ok.1 h with ⟨hset, h⟩ | ⟨hset, h⟩
  · obtain ⟨call, hcall, hsettle⟩ := settle_setIn h
    simpa [HilCall.ofCommand, hset, hcall] using one hsettle
  rcases Exec.ite_eq_ok.1 h with ⟨hstart, h⟩ | ⟨hstart, h⟩
  · have hsettle : Exec.settle Failure.Fatal (HilCall.start.exec w.env) s.hilOf = some s'.hilOf :=
      settle_onHil_pure (Exec.settle_of_ok h)
    simpa [HilCall.ofCommand, hstart] using one hsettle
  rcases Exec.ite_eq_ok.1 h with ⟨hstop, h⟩ | ⟨hstop, h⟩
  · have hsettle : Exec.settle Failure.Fatal (HilCall.stop.exec w.env) s.hilOf = some s'.hilOf :=
      settle_onHil_pure (Exec.settle_of_ok h)
    simpa [HilCall.ofCommand, hstop] using one hsettle
  rcases Exec.ite_eq_ok.1 h with ⟨hdebug, h⟩ | ⟨hdebug, h⟩
  · simpa [HilCall.ofCommand, hdebug] using idle (moves_processHilDebug w arguments) h
  rcases Exec.ite_eq_ok.1 h with ⟨hdisassemble, h⟩ | ⟨hdisassemble, h⟩
  · simpa [HilCall.ofCommand, hdisassemble] using
      idle ((moves_callDispatcher _).bind fun _ => Exec.frame_pure _) h
  rcases Exec.ite_eq_ok.1 h with ⟨hsim, h⟩ | ⟨hsim, h⟩
  · have hsettle : Exec.settle Failure.Fatal
        ((HilCall.getHardwareSimData arguments).exec w.env) s.hilOf = some s'.hilOf := by
      rw [HilCall.exec, Exec.settle_discard]
      exact settle_onHil_pure (Exec.settle_of_ok h)
    simpa [HilCall.ofCommand, hsim] using one hsettle
  rcases Exec.ite_eq_ok.1 h with ⟨hcompile, h⟩ | ⟨hcompile, h⟩
  · simpa [HilCall.ofCommand, hcompile] using idle (moves_processCompileProgram w arguments) h
  rcases Exec.ite_eq_ok.1 h with ⟨hmap, h⟩ | ⟨hmap, h⟩
  · have hsettle : Exec.settle Failure.Fatal
        ((HilCall.setLayoutMap arguments).exec w.env) s.hilOf = some s'.hilOf := settle_setMap h
    simpa [HilCall.ofCommand, hmap] using one hsettle
  have hnone : HilCall.ofCommand w.env.platform commandString arguments = none := by
    simp [HilCall.ofCommand, hdeploy, hselect, hset, hstart, hstop, hsim, hmap]
  rw [hnone]
  rcases Exec.ite_eq_ok.1 h with ⟨hget, h⟩ | ⟨hget, h⟩
  · obtain ⟨layout, t, hread, hpure⟩ := Exec.bind_eq_ok.1 h
    obtain ⟨-, rfl⟩ := Exec.pure_eq_ok.1 hpure
    obtain ⟨hil, hrun, rfl⟩ := Exec.zoom_eq_ok.1 hread
    obtain ⟨base, hbase, rfl⟩ := Exec.zoom_eq_ok.1 hrun
    obtain ⟨-, rfl⟩ := Exec.gets_eq_ok.1 hbase
    rfl
  rcases Exec.ite_eq_ok.1 h with ⟨hfrequency, h⟩ | ⟨hfrequency, h⟩
  · exact idle ((Exec.frame_gets _).bind fun _ => Exec.frame_pure _) h
  · exact idle (Exec.frame_pure _) h

end CoresEndpoints

/-! ## Served messages -/

namespace Commands

/-- The commands that reach the bridge past the HIL deployer. -/
def onBridge : List String :=
  ["load_bitstream", "register_write", "register_read", "apply_filter", "apply_program",
    "disable_scope_dma", "get_acquisition_status", "set_acquisition", "set_scope_address"]

end Commands

namespace CommandProcessor

variable {env : Environment Json} {message : Surroundings × Json} {p p' : CommandProcessor}
  {response : Json}

/-- The call that a message makes. -/
def hilCall (message : Surroundings × Json) : Option (HilCall Json) :=
  (asked message).bind fun command => HilCall.ofCommand message.1.env.platform command.1 command.2

/-- The message is served in the environment `env`, and leaves the hardware to the HIL deployer. -/
structure LeavesToHil (env : Environment Json) (message : Surroundings × Json) : Prop where
  env : message.1.env = env
  command : ∀ commandString arguments, asked message = some (commandString, arguments) →
    commandString ∉ Commands.onBridge ∧
      (commandString = "deploy_hil" → HilCall.isCustom arguments ≠ some true)

/-- The commands on the scope that only set what is read. -/
theorem hw_of_scope {w : Surroundings} {commandString : String} {arguments : Json}
    (hbridge : commandString ∉ Commands.onBridge) {s s' : ScopeEndpoints} {r : Response}
    (h : (ScopeEndpoints.processCommand w commandString arguments).run s = .ok r s') :
    s'.hw = s.hw := by
  simp only [Commands.onBridge, List.mem_cons, List.not_mem_nil, or_false, not_or] at hbridge
  obtain ⟨-, -, -, -, -, hdma, hstatus, hacquisition, haddress⟩ := hbridge
  unfold ScopeEndpoints.processCommand at h
  rw [if_neg hdma, if_neg hstatus, if_neg hacquisition, if_neg haddress] at h
  rcases Exec.ite_eq_ok.1 h with ⟨-, h⟩ | ⟨-, h⟩
  · obtain ⟨data, t, hrun, hpure⟩ := Exec.bind_eq_ok.1 h
    obtain ⟨-, rfl⟩ := Exec.pure_eq_ok.1 hpure
    rw [(ScopeEndpoints.readData_eq_ok hrun).2]
  rcases Exec.ite_eq_ok.1 h with ⟨-, h⟩ | ⟨-, h⟩
  · rcases ScopeEndpoints.processSetScalingFactors_cases arguments with
      ⟨factors, -, hset⟩ | ⟨-, text, hrefused⟩
    · rw [hset] at h
      obtain ⟨u, t, hrun, hpure⟩ := Exec.bind_eq_ok.1 h
      obtain ⟨-, rfl⟩ := Exec.pure_eq_ok.1 hpure
      obtain ⟨u', t', hthrow, hmodify⟩ := Exec.bind_eq_ok.1 hrun
      obtain ⟨-, rfl⟩ := Exec.throwIf_eq_ok.1 hthrow
      rw [Exec.modify_eq_ok.1 hmodify]
    · rw [hrefused] at h
      rw [(Exec.pure_eq_ok.1 h).2]
  rcases Exec.ite_eq_ok.1 h with ⟨-, h⟩ | ⟨-, h⟩
  · rcases ScopeEndpoints.processSetChannelStatus_eq_ok h with ⟨channels, -, -, rfl⟩ | ⟨-, rfl⟩
    · rfl
    · rfl
  · rw [(Exec.pure_eq_ok.1 h).2]

theorem settle_body {w : Surroundings} {commandString : String} {arguments : Json} {r : Response}
    (hbridge : commandString ∉ Commands.onBridge)
    (hcustom : commandString = "deploy_hil" → HilCall.isCustom arguments ≠ some true)
    (h : (body w commandString arguments).run p = .ok r p') :
    Exec.settleAll Failure.Fatal (HilCall.exec w.env)
      (HilCall.ofCommand w.env.platform commandString arguments).toList p.coresOf.hilOf =
        some p'.coresOf.hilOf := by
  unfold body at h
  rcases Exec.ite_eq_ok.1 h with ⟨hcontrol, h⟩ | ⟨hcontrol, h⟩
  · refine absurd ?_ hbridge
    simp only [Commands.controlCommands, List.mem_cons, List.not_mem_nil, or_false] at hcontrol
    rcases hcontrol with rfl | rfl | rfl | rfl <;> decide
  rcases Exec.ite_eq_ok.1 h with ⟨hscope, h⟩ | ⟨hscope, h⟩
  · have hcore : commandString ∉ Commands.coreCommands := by
      simp only [Commands.scopeCommands, List.mem_cons, List.not_mem_nil, or_false] at hscope
      rcases hscope with rfl | rfl | rfl | rfl | rfl | rfl | rfl <;> decide
    obtain ⟨scope, hrun, rfl⟩ := Exec.zoom_eq_ok.1 h
    rw [HilCall.ofCommand_of_notMem hcore]
    have hhw : scope.hw = p.hw := hw_of_scope hbridge hrun
    simp [coresOf, CoresEndpoints.hilOf, hhw, Exec.settleAll]
  rcases Exec.ite_eq_ok.1 h with ⟨hcore, h⟩ | ⟨hcore, h⟩
  · obtain ⟨cores, hrun, rfl⟩ := Exec.zoom_eq_ok.1 h
    have hprogram : commandString ≠ "apply_program" := by
      rintro rfl
      exact hbridge (by decide)
    exact CoresEndpoints.settle_processCommand hprogram hcustom hrun
  rw [HilCall.ofCommand_of_notMem hcore]
  rcases Exec.ite_eq_ok.1 h with ⟨-, h⟩ | ⟨-, h⟩
  · obtain ⟨platform, -, rfl⟩ := Exec.zoom_eq_ok.1 h
    rfl
  rcases Exec.ite_eq_ok.1 h with ⟨-, h⟩ | ⟨-, h⟩
  · obtain ⟨-, rfl⟩ := Exec.pure_eq_ok.1 h
    rfl
  · obtain ⟨-, rfl⟩ := Exec.pure_eq_ok.1 h
    rfl

theorem settle_answer (hm : LeavesToHil env message)
    (h : (answer message.1 message.2).run p = .ok response p') :
    Exec.settleAll Failure.Fatal (HilCall.exec env) (hilCall message).toList p.coresOf.hilOf =
      some p'.coresOf.hilOf := by
  obtain ⟨rfl, hcommand⟩ := hm
  rcases answer_eq_ok h with ⟨hasked, rfl⟩ | ⟨commandString, arguments, hasked, hprocess⟩
  · rw [hilCall, hasked]
    rfl
  obtain ⟨hbridge, hcustom⟩ := hcommand _ _ hasked
  obtain ⟨r, p₁, hbody, hpure⟩ := Exec.bind_eq_ok.1 hprocess
  obtain ⟨-, rfl⟩ := Exec.pure_eq_ok.1 hpure
  have hcall : hilCall message =
      HilCall.ofCommand message.1.env.platform commandString arguments := by
    rw [hilCall, hasked]
    rfl
  rw [hcall]
  exact settle_body hbridge hcustom hbody

/-- What is served of messages that leave the hardware to the HIL deployer is a run of their calls
on it. -/
theorem serve_calls {messages : List (Surroundings × Json)}
    (hmessages : ∀ message ∈ messages, LeavesToHil env message) {responses : List Json}
    (h : (serve messages).run p = .ok responses p') :
    Exec.settleAll Failure.Fatal (HilCall.exec env) (messages.filterMap hilCall) p.coresOf.hilOf =
      some p'.coresOf.hilOf :=
  Exec.settleAll_of_mapM settle_answer hmessages h

/-- A core with one constant. -/
def oneCore : Surroundings :=
  .of [⟨"core", 0, 0, 0, 1, [], ⟨10, 0⟩,
    [⟨"k", .constantInput, [3], [.words [5]], ⟨.typeInteger, 32, false⟩, .sine⟩]⟩] []

/-- A deployment, a start, some factors and an update. -/
def deployAndStart : List (Surroundings × Json) :=
  [(oneCore, .object [("cmd", .string "deploy_hil"),
      ("args", .object [("deployment_mode", .boolean false)])]),
    (oneCore, .object [("cmd", .string "hil_start"), ("args", .object [])]),
    (oneCore, .object [("cmd", .string "set_scaling_factors"), ("args", .array [])]),
    (oneCore, .object [("cmd", .string "hil_set_in"), ("args", .object
      [("name", .string "k"), ("value", .numberUnsigned 1), ("core", .string "core"),
        ("channel", .numberUnsigned 0)])])]

theorem leavesToHil_deployAndStart :
    ∀ message ∈ deployAndStart, LeavesToHil oneCore.env message := by
  intro message hmessage
  simp only [deployAndStart, List.mem_cons, List.not_mem_nil, or_false] at hmessage
  rcases hmessage with rfl | rfl | rfl | rfl <;>
    exact ⟨rfl, by rintro commandString arguments ⟨⟩; decide⟩

theorem serve_calls_deployAndStart : ∃ responses p,
    (serve deployAndStart).run started = .ok responses p ∧
      Exec.settleAll Failure.Fatal (HilCall.exec oneCore.env)
        (deployAndStart.filterMap hilCall) started.coresOf.hilOf = some p.coresOf.hilOf := by
  obtain ⟨responses, p, h, -⟩ := Exec.exists_of_returnsIn (p := fun _ => True)
    (show Exec.returnsIn (fun _ => True) (serve deployAndStart) started = true by decide +kernel)
  exact ⟨responses, p, h, serve_calls leavesToHil_deployAndStart h⟩

/-! ### The switch -/

open HilDeployer (Wired)

/-- On a live bus the logic runs or stands as the last start or stop that was served has it, also
when deployments fail and simulations run in between. -/
theorem serve_switch {layout : LogicLayout} {window : Nat} {messages : List (Surroundings × Json)}
    (hp : Wired layout window p.coresOf.hilOf) (hlive : p.hw.busses.sinkMode = false)
    (hmessages : ∀ message ∈ messages, LeavesToHil env message)
    (hspares : ∀ call ∈ messages.filterMap hilCall, call.SparesSwitch env layout window)
    {responses : List Json} (h : (serve messages).run p = .ok responses p') :
    p'.hw.busses.registerValue layout.bases.hilControl =
      ((messages.filterMap hilCall).filterMap HilCall.position).getLast?.getD
        (p.hw.busses.registerValue layout.bases.hilControl) := by
  have hcalls := Exec.settleAll_of_mapM settle_answer hmessages h
  obtain ⟨hp', hswitch⟩ := Exec.settleAll_refines (I := Wired layout window)
    (fun call hcall _ _ ht hrun => HilDeployer.switch_call ht (hspares call hcall) hrun) hp hcalls
  have hsink : p'.hw.busses.sinkMode = p.hw.busses.sinkMode :=
    (touches_serve (A := Set.univ) (fun _ _ => Set.subset_univ _) h).sinkMode
  have hlive' : p'.coresOf.hilOf.runSwitch.live = true := congrArg not (hsink.trans hlive)
  rw [hswitch] at hlive'
  have hposition := (congrArg RunSwitch.position hswitch).trans (RunSwitch.position_of_live hlive')
  rwa [HilDeployer.runSwitch, HilDeployer.runSwitch, hp'.addresses, hp.addresses] at hposition

theorem serve_switch_deployAndStart : ∃ responses p,
    (serve deployAndStart).run started = .ok responses p ∧
      p.hw.busses.registerValue LogicLayout.addrMapV2.bases.hilControl = 1 := by
  obtain ⟨responses, p, h, -⟩ := Exec.exists_of_returnsIn (p := fun _ => True)
    (show Exec.returnsIn (fun _ => True) (serve deployAndStart) started = true by decide +kernel)
  refine ⟨responses, p, h, (serve_switch HilDeployer.wired_fresh rfl leavesToHil_deployAndStart
    (fun call hcall => ?_) h).trans rfl⟩
  have hcalls : deployAndStart.filterMap hilCall =
      [.deploy (.object [("deployment_mode", .boolean false)]), .start,
        .setInput "core" "k" 0 1] := rfl
  simp only [hcalls, List.mem_cons, List.not_mem_nil, or_false] at hcall
  rcases hcall with rfl | rfl | rfl
  · exact fun _ => HilDeployer.apart_addrMapV2 (by decide)
  · trivial
  · trivial

end CommandProcessor

end UscopeDriver
