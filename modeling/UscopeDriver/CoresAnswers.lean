import UscopeDriver.AddressMaps
import UscopeDriver.SafeCustomDeployments
import UscopeDriver.SafeDeployments
import UscopeDriver.ScopeAnswers

/-!
# Commands on the cores that are answered

The arguments of these commands are constant objects : a key that is not there is undefined. What
the toolchain throws escapes from all but the deployments and the compiler, and so does the
selection of an output that is not deployed.
-/

namespace UscopeDriver

namespace CoresEndpoints

open Exec (FailsOnly)
open Failure (IsRuntimeError)
open LogicLayout (Address namedAddress parseLayoutObject readAddress)

variable {w : Surroundings} {pl : Platform} {arguments : Json} {s : CoresEndpoints}

/-- The deployers with the bridge that they are lent. -/
def hilOf (s : CoresEndpoints) : HilDeployer :=
  { s.hil with hw := s.hw }

/-- The custom deployer with the bridge that is lent to it. -/
def customOf (s : CoresEndpoints) : CustomDeployer :=
  { s.custom with hw := s.hw }

/-- A call on the HIL deployer is answered as by the deployer. -/
theorem answers_onHil {α : Type} {m : Exec Failure HilDeployer α} :
    Answers (onHil m) s ↔ Answers m s.hilOf :=
  answers_zoom

/-! ## Programs -/

/-- The schema rejects the arguments, the address is not integral, or the window has a place for
every word of the program. -/
def ApplyProgramAnswered (w : Surroundings) (arguments : Json) (s : CoresEndpoints) : Prop :=
  Commands.loadProgram w.validator.integralFloats arguments = true →
    ∀ x, arguments.numberAt "address" = some x → checkFloatIntness w.env.platform x = true →
      ∀ address, arguments.find? "address" = some address →
        ∀ n, address.uint64? w.env.platform = some n →
          ∀ words, arguments.find? "program" = some (.array words) →
            s.hw.busses.sinkMode = true ∨ words = [] ∨ s.hw.busses.MapsProgram n words.length

/-- A program is answered if all of its words are in the window, or if nothing is stored. -/
theorem answers_applyProgram {address : Nat} {program : List Nat} {hw : FpgaBridge} :
    Answers (FpgaBridge.applyProgram address program) hw ↔
      hw.busses.sinkMode = true ∨ program = [] ∨
        hw.busses.MapsProgram (u64 address) program.length := by
  simp [Answers, FpgaBridge.applyProgram_eq_ok, FpgaBridge.Admits, FpgaBridge.reachesBus,
    BusAccessor.Admits]

theorem answers_processApplyProgram :
    Answers (processApplyProgram w arguments) s ↔ ApplyProgramAnswered w arguments s := by
  unfold processApplyProgram ApplyProgramAnswered
  rcases w.validator.validate_cases (Commands.loadProgram w.validator.integralFloats) arguments with
    ⟨errorMessage, hvalidate, hrejected⟩ | ⟨hvalidate, haccepted⟩
  · rw [hvalidate]
    exact iff_of_true (answers_pure _) fun h => absurd h hrejected
  · rw [hvalidate, forall_prop_of_true haccepted]
    obtain ⟨⟨members, rfl⟩, ⟨x, haddress⟩, elements, words, hprogram, hwords, hlength⟩ :=
      ControlEndpoints.words_of_accepted w.env.platform haccepted
    have hnil : words = [] ↔ elements = [] := by
      rw [← List.length_eq_zero_iff, hlength, List.length_eq_zero_iff]
    obtain ⟨a, ha, hx⟩ := Json.numberAt_eq_some.1 haddress
    obtain ⟨n, hn⟩ := Json.exists_uint64? w.env.platform hx
    simp only [answers_at'_bind, answers_get_bind, ha, hx, haddress, hn, Option.some.injEq,
      exists_eq_left', forall_eq']
    split_ifs with hintegral
    · simp only [answers_get_bind, answers_at'_bind, answers_bind_pure, hn, hprogram, hwords, hnil,
        hlength, onBridge, answers_zoom, answers_applyProgram, u64_of_lt (Json.uint64?_lt hn),
        hintegral, forall_const, Option.some.injEq, exists_eq_left', forall_eq',
        Json.array.injEq]
    · exact iff_of_true (answers_pure _) fun h => absurd h hintegral

/-! ## Deployments -/

/-- A missing key is not caught. -/
theorem failsOnly_at'_bind {σ α : Type} {t : σ} {j : Json} {key : String}
    {f : Json → Exec Failure σ α} : FailsOnly IsRuntimeError (j.at' key >>= f) t ↔
      ∃ v, j.find? key = some v ∧ FailsOnly IsRuntimeError (f v) t := by
  cases hkey : j.find? key with
  | none =>
    refine iff_of_false (fun h => ?_) nofun
    have hfirst := (Exec.failsOnly_bind.1 h).1
    rcases j with _ | _ | _ | _ | _ | _ | _ | members
    case object => exact Exec.failsOnly_require.1 hfirst hkey
    all_goals exact Exec.failsOnly_throw.1 hfirst
  | some v =>
    have hrun : (j.at' key).run t = .ok v t := Json.at'_eq_ok.2 ⟨hkey, rfl⟩
    simp only [Exec.failsOnly_bind_of_ok hrun, Option.some.injEq, exists_eq_left']

/-- An argument of the wrong kind is not caught. -/
theorem failsOnly_get_bind {σ α β : Type} {t : σ} {j : Json} {read : Json → Option α}
    {f : α → Exec Failure σ β} : FailsOnly IsRuntimeError (j.get read >>= f) t ↔
      ∃ a, read j = some a ∧ FailsOnly IsRuntimeError (f a) t := by
  rw [Json.get, Exec.failsOnly_bind, Exec.failsOnly_require]
  simp only [Exec.require_eq_ok]
  cases read j with
  | none => exact iff_of_false (fun h => h.1 rfl) (by rintro ⟨a, ⟨⟩, -⟩)
  | some a => simp

/-- The mode is a truth value, and the deployment is safe. -/
def DeployAnswered (w : Surroundings) (arguments : Json) (s : CoresEndpoints) : Prop :=
  ∃ customDeploy, arguments.find? "deployment_mode" = some (.boolean customDeploy) ∧
    if customDeploy then CustomDeployer.DeploymentSafe w arguments s.customOf
    else HilDeployer.DeploymentSafe w.env arguments s.hilOf

/-- The response adds no failure. -/
theorem failsOnly_response {σ : Type} {m : Exec Failure σ Unit} {response : Response} {t : σ} :
    FailsOnly IsRuntimeError (m >>= fun _ => pure response) t ↔ FailsOnly IsRuntimeError m t := by
  rw [Exec.failsOnly_bind]
  exact and_iff_left fun _ _ _ => Exec.failsOnly_pure _ _

theorem answers_processDeployHil :
    Answers (processDeployHil w arguments) s ↔ DeployAnswered w arguments s := by
  rw [answers_iff_failsOnly, processDeployHil,
    Exec.failsOnly_catching fun _ _ _ => Exec.failsOnly_pure _ _, deployHil, failsOnly_at'_bind]
  simp only [failsOnly_get_bind, Json.bool?_eq_some]
  have hcustom : FailsOnly IsRuntimeError (onCustom (CustomDeployer.deploy w arguments)) s ↔
      CustomDeployer.DeploymentSafe w arguments s.customOf :=
    Exec.failsOnly_zoom.trans CustomDeployer.failsOnly_deploy_iff
  have hhil : FailsOnly IsRuntimeError (onHil (HilDeployer.deploy w.env arguments)) s ↔
      HilDeployer.DeploymentSafe w.env arguments s.hilOf :=
    Exec.failsOnly_zoom.trans HilDeployer.failsOnly_deploy_iff
  constructor
  · rintro ⟨_, hmode, customDeploy, rfl, hdeploy⟩
    refine ⟨customDeploy, hmode, ?_⟩
    cases customDeploy with
    | false => exact hhil.1 (failsOnly_response.1 hdeploy)
    | true => exact hcustom.1 (failsOnly_response.1 hdeploy)
  · rintro ⟨customDeploy, hmode, hsafe⟩
    refine ⟨_, hmode, customDeploy, rfl, ?_⟩
    cases customDeploy with
    | false => exact failsOnly_response.2 (hhil.2 hsafe)
    | true => exact failsOnly_response.2 (hcustom.2 hsafe)

/-! ## Calls of the deployer -/

/-- An output that is deployed, on a bus that maps the multiplexer. Without an output there is
nothing to select. -/
def SelectOutAnswered (w : Surroundings) (arguments : Json) (s : CoresEndpoints) : Prop :=
  ∀ output, arguments.find? "output" = some output →
    ∃ coreName, (output.find? "core").bind Json.text? = some coreName ∧
      ∃ sourceOutput, (output.find? "name").bind Json.text? = some sourceOutput ∧
      ∃ outputChannel, (output.find? "channel").bind (Json.uint32? w.env.platform) =
        some outputChannel ∧
      ∃ channel, (arguments.find? "channel").bind (Json.uint32? w.env.platform) = some channel ∧
        (∃ e ∈ s.hil.busMap, e.sourceId = coreName ∧ e.sourceName = sourceOutput ∧
          e.sourceChannel.toNat = outputChannel) ∧
        s.hw.MapsRegister (u64 (s.hil.addresses.bases.scopeMux + u32 (4 * channel) + 4))

/-- A selection is answered if a slot has the output and the register of the channel is mapped. -/
theorem answers_selectOutput {channel : Nat} {output : OutputSpecs} {t : HilDeployer} :
    Answers (HilDeployer.selectOutput w.env channel output) t ↔
      (∃ e ∈ t.busMap, e.sourceId = output.coreName ∧ e.sourceName = output.sourceOutput ∧
        e.sourceChannel.toNat = output.channel) ∧
      t.hw.MapsRegister (u64 (t.addresses.bases.scopeMux + u32 (4 * channel) + 4)) := by
  cases hfind : t.busMap.find? fun e => e.sourceId = output.coreName ∧
      e.sourceName = output.sourceOutput ∧ e.sourceChannel.toNat = output.channel with
  | none =>
    obtain ⟨what, hrun⟩ := HilDeployer.selectOutput_of_none w.env channel hfind
    refine iff_of_false ?_ ?_
    · rintro ⟨a, t', hok⟩
      cases hrun.symm.trans hok
    · rintro ⟨⟨e, he, hsource⟩, -⟩
      exact List.find?_eq_none.1 hfind e he (by simpa using hsource)
  | some e =>
    have hsource := List.find?_some hfind
    rw [and_iff_right ⟨e, List.mem_of_find?_eq_some hfind, by simpa using hsource⟩]
    simp only [Answers, HilDeployer.run_selectOutput_of_some w.env channel hfind,
      HilDeployer.writeRegister_eq_ok, exists_const, exists_and_left, exists_eq, and_true]
    exact FpgaBridge.admits_write

theorem answers_processHilSelectOut :
    Answers (processHilSelectOut w arguments) s ↔ SelectOutAnswered w arguments s := by
  unfold processHilSelectOut SelectOutAnswered
  cases arguments.find? "output" with
  | none => exact iff_of_true (answers_pure _) nofun
  | some output =>
    simp only [answers_at'_get_bind, answers_bind_pure, answers_onHil, answers_selectOutput,
      Option.some.injEq, forall_eq']
    exact Iff.rfl

/-- All of an input is there, and the bus admits its live update. -/
def SetInAnswered (w : Surroundings) (arguments : Json) (s : CoresEndpoints) : Prop :=
  ∃ name, (arguments.find? "name").bind Json.text? = some name ∧
    ∃ value, (arguments.find? "value").bind Json.number? = some value ∧
    ∃ core, (arguments.find? "core").bind Json.text? = some core ∧
    ∃ channel, (arguments.find? "channel").bind (Json.uint32? w.env.platform) = some channel ∧
      s.hw.Admits
        (HilDeployer.setInputRequests w.env.platform core name (u16 channel) value s.hilOf)

theorem answers_processHilSetIn :
    Answers (processHilSetIn w arguments) s ↔ SetInAnswered w arguments s := by
  unfold processHilSetIn SetInAnswered
  simp only [answers_at'_get_bind, answers_bind_pure, answers_onHil]
  simp only [Answers, HilDeployer.setInput_eq_ok, exists_const, exists_and_left, exists_eq,
    and_true]
  exact Iff.rfl

/-- The bus maps the control register. -/
def ControlAnswered (s : CoresEndpoints) : Prop :=
  s.hw.MapsRegister (u64 s.hil.addresses.bases.hilControl)

theorem answers_processHilStart : Answers (processHilStart w) s ↔ ControlAnswered s := by
  rw [processHilStart, answers_bind_pure, answers_onHil]
  simp only [Answers, HilDeployer.start_eq_ok, exists_const, exists_and_left, exists_eq, and_true]
  exact FpgaBridge.admits_write

theorem answers_processHilStop : Answers (processHilStop w) s ↔ ControlAnswered s := by
  rw [processHilStop, answers_bind_pure, answers_onHil]
  simp only [Answers, HilDeployer.stop_eq_ok, exists_const, exists_and_left, exists_eq, and_true]
  exact FpgaBridge.admits_write

/-- The data are those of the deployed specification, or it can be deployed on a muted bus. -/
def HardwareSimAnswered (w : Surroundings) (arguments : Json) (s : CoresEndpoints) : Prop :=
  s.hil.deployedHash = w.env.hash arguments ∨
    ∃ programs slots memories,
      HilDeployer.Elaborates (w.env.dispatcher arguments) programs slots memories ∧
      HilDeployer.Deployable (w.env.dispatcher arguments) programs slots memories
        (HilDeployer.prepared w.env arguments programs slots s.hilOf.muted)

theorem answers_processHilHardwareSim :
    Answers (processHilHardwareSim w arguments) s ↔ HardwareSimAnswered w arguments s := by
  rw [processHilHardwareSim, answers_bind_pure, answers_onHil, HardwareSimAnswered]
  have hsame : s.hilOf.deployedHash = s.hil.deployedHash := rfl
  unfold Answers
  rw [HilDeployer.run_getHardwareSimData, hsame]
  split_ifs with hhash
  · exact iff_of_true ⟨_, _, rfl⟩ (Or.inl hhash)
  · have hadmits : ∀ rs, s.hilOf.muted.hw.Admits rs := FpgaBridge.admits_of_sinkMode rfl
    rw [or_iff_right hhash]
    cases hd : (HilDeployer.deploy w.env arguments).run s.hilOf.muted with
    | ok u t =>
      obtain ⟨programs, slots, memories, hel, hdep, -, -⟩ := HilDeployer.deploy_eq_ok.1 hd
      exact iff_of_true ⟨_, _, rfl⟩ ⟨programs, slots, memories, hel, hdep⟩
    | error e t =>
      refine iff_of_false nofun ?_
      rintro ⟨programs, slots, memories, hel, hdep⟩
      have hok := HilDeployer.deploy_eq_ok (u := ()).2
        ⟨programs, slots, memories, hel, hdep, hadmits _, rfl⟩
      cases hd.symm.trans hok

/-! ## The emulator, the compiler and the address map -/

/-- The command for the emulator that a text and its arguments make. -/
def command? (pl : Platform) (command : String) (arguments : Json) : Option InteractiveCommand :=
  if command = "add_breakpoint" ∨ command = "remove_breakpoint" then do
    let id ← (arguments.find? "id").bind Json.text?
    let line ← (arguments.find? "line").bind (Json.uint32? pl)
    some {
      type := if command = "add_breakpoint" then .addBreakpoint else .removeBreakpoint
      id := id
      targetInstruction := some line }
  else if command = "step" then some { type := .stepOver }
  else if command = "resume" then some { type := .resumeEmulation }
  else if command = "initialize" then some { type := .initializeEmulation, spec := arguments }
  else if command = "run" then some { type := .startEmulation }
  else if command = "get_breakpoints" then do
    let id ← (arguments.find? "id").bind Json.text?
    some { type := .getBreakpoints, id := id }
  else none

theorem answers_interactiveCommand_bind {command : String} {α : Type}
    {f : InteractiveCommand → Exec Failure CoresEndpoints α} :
    Answers (interactiveCommand w command arguments >>= f) s ↔
      ∃ c, command? w.env.platform command arguments = some c ∧ Answers (f c) s := by
  unfold interactiveCommand command?
  by_cases hadd : command = "add_breakpoint"
  · rw [if_pos hadd, if_pos (Or.inl hadd), if_pos hadd]
    simp only [bind_assoc, pure_bind, answers_throwIf_bind, answers_at'_bind, answers_get_bind,
      Option.bind_eq_bind, Option.bind_eq_some_iff, Option.some.injEq]
    constructor
    · rintro ⟨-, v, hv, -, id, hid, l, hl, line, hline, hf⟩
      exact ⟨_, ⟨id, ⟨v, hv, hid⟩, line, ⟨l, hl, hline⟩, rfl⟩, hf⟩
    · rintro ⟨_, ⟨id, ⟨v, hv, hid⟩, line, ⟨l, hl, hline⟩, rfl⟩, hf⟩
      exact ⟨by simp [hv], v, hv, by simp [hid], id, hid, l, hl, line, hline, hf⟩
  by_cases hremove : command = "remove_breakpoint"
  · rw [if_neg hadd, if_pos hremove, if_pos (Or.inr hremove), if_neg hadd]
    simp only [bind_assoc, pure_bind, answers_at'_get_bind, Option.bind_eq_bind,
      Option.bind_eq_some_iff, Option.some.injEq]
    constructor
    · rintro ⟨id, hid, line, hline, hf⟩
      exact ⟨_, ⟨id, hid, line, hline, rfl⟩, hf⟩
    · rintro ⟨_, ⟨id, hid, line, hline, rfl⟩, hf⟩
      exact ⟨id, hid, line, hline, hf⟩
  rw [if_neg hadd, if_neg hremove, if_neg (not_or.2 ⟨hadd, hremove⟩)]
  split_ifs
  · simp only [pure_bind, Option.some.injEq, exists_eq_left']
  · simp only [pure_bind, Option.some.injEq, exists_eq_left']
  · simp only [pure_bind, Option.some.injEq, exists_eq_left']
  · simp only [pure_bind, Option.some.injEq, exists_eq_left']
  · simp only [bind_assoc, pure_bind, answers_at'_get_bind, Option.bind_eq_bind,
      Option.bind_eq_some_iff, Option.some.injEq]
    constructor
    · rintro ⟨id, hid, hf⟩
      exact ⟨_, ⟨id, hid, rfl⟩, hf⟩
    · rintro ⟨_, ⟨id, hid, rfl⟩, hf⟩
      exact ⟨id, hid, hf⟩
  · refine iff_of_false (fun h => ?_) (by rintro ⟨c, ⟨⟩, -⟩)
    obtain ⟨_, _, hthrow, -⟩ := answers_bind.1 h
    exact Exec.throw_eq_ok.1 hthrow

/-- The command is a text, and it is the test or the emulator runs it. Without a command and its
arguments the request is refused. -/
def DebugAnswered (w : Surroundings) (arguments : Json) : Prop :=
  ∀ command, arguments.find? "command" = some command →
    ∀ commandArguments, arguments.find? "arguments" = some commandArguments →
      ∃ text, command.text? = some text ∧ (text = "test" ∨
        ∃ c, command? w.env.platform text commandArguments = some c ∧
          ∃ data, w.runCommand c = .ok data)

theorem answers_processHilDebug :
    Answers (processHilDebug w arguments) s ↔ DebugAnswered w arguments := by
  unfold processHilDebug DebugAnswered
  rcases arguments.find? "command" with - | command
  · exact iff_of_true (answers_pure _) nofun
  rcases arguments.find? "arguments" with - | commandArguments
  · exact iff_of_true (answers_pure _) nofun
  simp only [answers_get_bind, Option.some.injEq, forall_eq']
  refine exists_congr fun text => and_congr_right fun _ => ?_
  split_ifs with htest
  · exact iff_of_true (answers_pure _) (Or.inl htest)
  · rw [or_iff_right htest]
    simp only [answers_interactiveCommand_bind, answers_bind_pure, answers_callDispatcher]

/-- The toolchain can disassemble the cores. -/
def DisassembleAnswered (w : Surroundings) (arguments : Json) : Prop :=
  ∃ data, w.disassemble arguments = .ok data

theorem answers_processHilDisassemble :
    Answers (processHilDisassemble w arguments) s ↔ DisassembleAnswered w arguments := by
  rw [processHilDisassemble, answers_bind_pure, answers_callDispatcher, DisassembleAnswered]

theorem failsOnly_callDispatcher {σ α : Type} {x : Except String α} {t : σ} :
    FailsOnly IsRuntimeError (callDispatcher x) t := by
  cases x with
  | ok a => exact Exec.failsOnly_pure _ _
  | error what => exact Exec.failsOnly_throw.2 trivial

/-- An accepted program has a text, headers with texts and a list of ports. -/
theorem program_of_accepted {integralFloats : Bool}
    (h : Commands.compileProgramSchema integralFloats arguments = true) :
    (∃ content, arguments.find? "content" = some (.string content)) ∧
      (∃ headers, arguments.find? "headers" = some (.array headers) ∧
        ∀ item ∈ headers, ∃ content, item.find? "content" = some (.string content)) ∧
      ∃ io, arguments.find? "io" = some io := by
  obtain ⟨-, hrequired, hproperties⟩ := Schema.of_object h
  obtain ⟨content, hcontent⟩ := hrequired "content" (by simp)
  obtain ⟨headers, hheaders⟩ := hrequired "headers" (by simp)
  obtain ⟨io, hio⟩ := hrequired "io" (by simp)
  obtain ⟨text, rfl⟩ := Schema.string_of_type (hproperties (List.mem_cons_self ..) hcontent)
  obtain ⟨items, rfl, hitems⟩ := Schema.of_array
    (hproperties (List.mem_cons_of_mem _ (List.mem_cons_self ..)) hheaders)
  refine ⟨⟨text, hcontent⟩, ⟨items, hheaders, fun item hitem => ?_⟩, io, hio⟩
  have hheader := hitems item hitem
  obtain ⟨members, rfl⟩ := Schema.object_of_type
    (Schema.of_keywords hheader (List.mem_cons_self ..))
  obtain ⟨v, hv⟩ := Schema.isSome_of_required (Schema.of_keywords hheader
    (List.mem_cons_of_mem _ (List.mem_cons_of_mem _ (List.mem_cons_self ..)))) "content" (by simp)
  obtain ⟨headerContent, rfl⟩ := Schema.string_of_type (Schema.of_properties
    (Schema.of_keywords hheader (List.mem_cons_of_mem _ (List.mem_cons_self ..)))
    (List.mem_cons_self ..) hv)
  exact ⟨headerContent, hv⟩

/-- The compiler gets the texts of all headers. -/
theorem failsOnly_compile {content : String} {headers : List Json} {io : Json}
    (h : ∀ item ∈ headers, ∃ content, item.find? "content" = some (.string content)) :
    FailsOnly IsRuntimeError (compile w content (.array headers) io) s := by
  have hcontents : ∀ item ∈ headers, (do
      let headerContent ← item.atOrNull "content"
      headerContent.get Json.text? : Exec Failure CoresEndpoints String).run s =
        .ok (((item.find? "content").bind Json.text?).getD "") s := by
    intro item hitem
    obtain ⟨text, htext⟩ := h item hitem
    rw [EStateM.run_bind, Json.run_atOrNull htext, htext]
    rfl
  rw [compile, Json.elements, Exec.failsOnly_bind_of_ok (Exec.run_mapM_of_ok hcontents)]
  exact failsOnly_callDispatcher

/-- What the schema accepts is compiled, or the failure is caught. -/
theorem answers_processCompileProgram : Answers (processCompileProgram w arguments) s := by
  unfold processCompileProgram
  rcases w.validator.validate_cases (Commands.compileProgramSchema w.validator.integralFloats)
    arguments with ⟨errorMessage, hvalidate, hrejected⟩ | ⟨hvalidate, haccepted⟩
  · rw [hvalidate]
    exact answers_pure _
  · rw [hvalidate]
    refine answers_bind_pure.2 (answers_iff_failsOnly.2 ?_)
    rw [Exec.failsOnly_catching fun _ _ _ => Exec.failsOnly_pure _ _, compileProgram]
    obtain ⟨⟨content, hcontent⟩, ⟨headers, hheaders, hitems⟩, io, hio⟩ :=
      program_of_accepted haccepted
    simp only [failsOnly_at'_bind, failsOnly_get_bind, hcontent, hheaders, hio, Json.text?,
      Option.some.injEq, exists_eq_left']
    exact Exec.failsOnly_bind.2 ⟨failsOnly_compile hitems, fun _ _ _ => Exec.failsOnly_pure _ _⟩

/-- Every address is a number. -/
def SetAddressMapAnswered (arguments : Json) : Prop :=
  ∀ a, ∃ x, namedAddress arguments a = some x

/-- An address can be read exactly if the map names a number for it. -/
theorem exists_readAddress_iff {a : Address} :
    (∃ n, readAddress pl arguments a = .ok n) ↔ ∃ x, namedAddress arguments a = some x := by
  simp only [LogicLayout.readAddress_eq_ok, LogicLayout.namedAddress_eq_some]
  constructor
  · rintro ⟨n, entries, value, hs, hk, hn⟩
    obtain ⟨x, hx⟩ : ∃ x, value.number? = some x := by
      cases value <;> first | exact ⟨_, rfl⟩ | cases hn
    exact ⟨x, entries, value, hs, hk, hx⟩
  · rintro ⟨x, entries, value, hs, hk, hx⟩
    obtain ⟨n, -, -, hn⟩ := Json.exists_getUint64 pl hx
    exact ⟨n, entries, value, hs, hk, hn ()⟩

/-- The map is set in both deployers or in none. -/
theorem answers_processSetHilAddressMap :
    Answers (processSetHilAddressMap pl arguments) s ↔ SetAddressMapAnswered arguments := by
  have hparse : ∀ l, (∃ l', (parseLayoutObject pl arguments).run l = .ok () l') ↔
      SetAddressMapAnswered arguments := fun l => by
    rw [LogicLayout.parseLayoutObject_eq, Fields.exists_ok_iff]
    exact ⟨fun h a => exists_readAddress_iff.1 (h a (Address.mem_order a)),
      fun h a _ => exists_readAddress_iff.2 (h a)⟩
  unfold processSetHilAddressMap
  rw [answers_bind]
  constructor
  · rintro ⟨u, t, hrun, -⟩
    rw [run_setHil] at hrun
    cases h : (parseLayoutObject pl arguments).run s.hil.addresses with
    | error e l => simp [h] at hrun
    | ok u l => exact (hparse _).1 ⟨l, h⟩
  · intro h
    obtain ⟨l, hl⟩ := (hparse s.hil.addresses).2 h
    obtain ⟨l', hl'⟩ := (hparse s.custom.addresses).2 h
    have hcustom : (s.withHilAddresses l).custom.addresses = s.custom.addresses := rfl
    refine ⟨(), s.withHilAddresses l, by rw [run_setHil, hl], answers_bind_pure.2 ?_⟩
    exact ⟨(), (s.withHilAddresses l).withCustomAddresses l', by rw [run_setCustom, hcustom, hl']⟩

/-- The commands on the cores that are answered. -/
def CommandAnswered (w : Surroundings) (commandString : String) (arguments : Json)
    (s : CoresEndpoints) : Prop :=
  if commandString = "apply_program" then ApplyProgramAnswered w arguments s
  else if commandString = "deploy_hil" then DeployAnswered w arguments s
  else if commandString = "emulate_hil" then True
  else if commandString = "hil_select_out" then SelectOutAnswered w arguments s
  else if commandString = "hil_set_in" then SetInAnswered w arguments s
  else if commandString = "hil_start" then ControlAnswered s
  else if commandString = "hil_stop" then ControlAnswered s
  else if commandString = "hil_debug" then DebugAnswered w arguments
  else if commandString = "hil_disassemble" then DisassembleAnswered w arguments
  else if commandString = "hil_hardware_sim" then HardwareSimAnswered w arguments s
  else if commandString = "compile_program" then True
  else if commandString = "set_hil_address_map" then SetAddressMapAnswered arguments
  else True

/-- The last commands only read. -/
theorem answers_constant {commandString : String} :
    Answers (if commandString = "get_hil_address_map" then processGetHilAddressMap
      else if commandString = "get_sampling_frequency" then processGetSamplingFrequency
      else pure .unexpected) s := by
  split_ifs <;> exact ⟨_, _, rfl⟩

/-- A core command is answered on its condition. -/
theorem answers_processCommand {commandString : String} :
    Answers (processCommand w commandString arguments) s ↔
      CommandAnswered w commandString arguments s :=
  answers_ite answers_processApplyProgram <|
  answers_ite answers_processDeployHil <|
  answers_ite (iff_of_true (answers_pure _) trivial) <|
  answers_ite answers_processHilSelectOut <|
  answers_ite answers_processHilSetIn <|
  answers_ite answers_processHilStart <|
  answers_ite answers_processHilStop <|
  answers_ite answers_processHilDebug <|
  answers_ite answers_processHilDisassemble <|
  answers_ite answers_processHilHardwareSim <|
  answers_ite (iff_of_true answers_processCompileProgram trivial) <|
  answers_ite answers_processSetHilAddressMap <|
  iff_of_true answers_constant trivial

end CoresEndpoints

end UscopeDriver
