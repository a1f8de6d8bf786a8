import UscopeDriver.Library.Interleaving
import UscopeDriver.ServedRuns

/-!
# Platform and hardware

The commands on clocks, versions and the log level work on a timing manager that never has a
bridge, so nothing they do reaches the hardware, and nothing the other commands do reaches them :
the driver is two services behind one loop (`CommandProcessor.parts`). Platform messages may
therefore be moved past all others without any client seeing it (`serve_interleavings`).
-/

namespace UscopeDriver

/-- The driver without the endpoints of the platform. -/
structure HardwareService where
  hw : FpgaBridge
  cores : CoresEndpoints
  scope : ScopeEndpoints

namespace HardwareService

open Commands

/-- A call on the control endpoints. -/
def onControl {α : Type} (m : Exec Failure FpgaBridge α) : Exec Failure HardwareService α :=
  Exec.zoom (·.hw) (fun hw s => { s with hw := hw }) m

/-- A call on the scope endpoints, which are lent the bridge. -/
def onScope {α : Type} (m : Exec Failure ScopeEndpoints α) : Exec Failure HardwareService α :=
  Exec.zoom (fun s => { s.scope with hw := s.hw })
    (fun scope s => { s with hw := scope.hw, scope := scope }) m

/-- A call on the cores endpoints, which are lent the bridge. -/
def onCores {α : Type} (m : Exec Failure CoresEndpoints α) : Exec Failure HardwareService α :=
  Exec.zoom (fun s => { s.cores with hw := s.hw })
    (fun cores s => { s with hw := cores.hw, cores := cores }) m

/-- The body of the response to a command of the hardware. -/
def body (w : Surroundings) (commandString : String) (arguments : Json) :
    Exec Failure HardwareService Response :=
  if commandString ∈ controlCommands then
    onControl (ControlEndpoints.processCommand w commandString arguments)
  else if commandString ∈ scopeCommands then
    onScope (ScopeEndpoints.processCommand w commandString arguments)
  else if commandString ∈ coreCommands then
    onCores (CoresEndpoints.processCommand w commandString arguments)
  else if commandString ∈ infrastructureCommands then pure { responseCode := .ok }
  else pure (.refused .invalidCmdSchema "DRIVER ERROR: Unknown command received\n")

/-- The response of an endpoint, with the name of the command. -/
def processCommand (w : Surroundings) (commandString : String) (arguments : Json) :
    Exec Failure HardwareService Json := do
  let response ← body w commandString arguments
  pure (.object [("cmd", .string commandString), ("body", response.toJson)])

end HardwareService

namespace PlatformEndpoints

/-- The response to a command of the platform. -/
def respond (w : Surroundings) (commandString : String) (arguments : Json) :
    Exec Failure PlatformEndpoints Json := do
  let response ← processCommand w commandString arguments
  pure (.object [("cmd", .string commandString), ("body", response.toJson)])

end PlatformEndpoints

namespace CommandProcessor

open Commands

/-- The driver is the platform and the rest. -/
def parts : CommandProcessor ≃ PlatformEndpoints × HardwareService where
  toFun p := (p.platform, ⟨p.hw, p.cores, p.scope⟩)
  invFun s := ⟨s.2.hw, s.2.cores, s.2.scope, s.1⟩
  left_inv _ := rfl
  right_inv _ := rfl

variable {w : Surroundings} {commandString : String} {arguments : Json}

/-- The four groups of commands have none in common. -/
theorem notMem_of_platform (h : commandString ∈ platformCommands) :
    commandString ∉ controlCommands ∧ commandString ∉ scopeCommands ∧
      commandString ∉ coreCommands := by
  simp only [platformCommands, List.mem_cons, List.not_mem_nil, or_false] at h
  rcases h with rfl | rfl | rfl | rfl | rfl <;> decide

theorem body_of_platform (h : commandString ∈ platformCommands) :
    body w commandString arguments =
      Exec.onFst parts (PlatformEndpoints.processCommand w commandString arguments) := by
  obtain ⟨hcontrol, hscope, hcore⟩ := notMem_of_platform h
  rw [body, if_neg hcontrol, if_neg hscope, if_neg hcore, if_pos h]
  rfl

theorem body_of_not_platform (h : commandString ∉ platformCommands) :
    body w commandString arguments =
      Exec.onSnd parts (HardwareService.body w commandString arguments) := by
  unfold body HardwareService.body
  split_ifs
  · rw [HardwareService.onControl, Exec.onSnd_zoom]
    rfl
  · rw [HardwareService.onScope, Exec.onSnd_zoom]
    rfl
  · rw [HardwareService.onCores, Exec.onSnd_zoom]
    rfl
  · exact (Exec.onSnd_ofExcept parts (.ok _)).symm
  · exact (Exec.onSnd_ofExcept parts (.ok _)).symm

theorem processCommand_of_platform (h : commandString ∈ platformCommands) :
    processCommand w commandString arguments =
      Exec.onFst parts (PlatformEndpoints.respond w commandString arguments) := by
  rw [processCommand, body_of_platform h, PlatformEndpoints.respond, Exec.onFst_bind_pure]

theorem processCommand_of_not_platform (h : commandString ∉ platformCommands) :
    processCommand w commandString arguments =
      Exec.onSnd parts (HardwareService.processCommand w commandString arguments) := by
  rw [processCommand, body_of_not_platform h, HardwareService.processCommand,
    Exec.onSnd_bind_pure]

/-! ## Messages -/

/-- The answer to a message, up to the processing of its command. -/
def answerWith {σ : Type} (process : String → Json → Exec Failure σ Json)
    (message : Surroundings × Json) : Exec Failure σ Json :=
  match message.1.validator.validate (command message.1.validator.integralFloats) message.2 with
  | some errorMessage => pure (Response.refused .invalidCmdSchema
      ("DRIVER ERROR: Invalid command object received\n" ++ errorMessage)).toJson
  | none => do
    let cmd ← Exec.require (message.2.find? "cmd") .jsonError
    let commandString ← cmd.get Json.text?
    let arguments ← Exec.require (message.2.find? "args") .jsonError
    process commandString arguments

/-- The answer to a message that asks for no command. -/
def unasked (message : Surroundings × Json) : Except Failure Json :=
  Exec.outcome (answerWith (fun _ _ => pure .null) message)

theorem answerWith_cases {σ : Type} (process : String → Json → Exec Failure σ Json)
    (message : Surroundings × Json) :
    (asked message = none ∧ answerWith process message = Exec.ofExcept (unasked message)) ∨
      ∃ commandString arguments, asked message = some (commandString, arguments) ∧
        answerWith process message = process commandString arguments := by
  unfold asked unasked answerWith
  cases message.1.validator.validate (command message.1.validator.integralFloats) message.2 with
  | some errorMessage => exact Or.inl ⟨rfl, rfl⟩
  | none =>
    cases message.2.find? "cmd" with
    | none => exact Or.inl ⟨rfl, rfl⟩
    | some cmd =>
      cases cmd with
      | string commandString =>
        cases message.2.find? "args" with
        | none => exact Or.inl ⟨rfl, rfl⟩
        | some arguments => exact Or.inr ⟨commandString, arguments, rfl, rfl⟩
      | _ => exact Or.inl ⟨rfl, rfl⟩

theorem answerWith_of_asked {σ : Type} {process : String → Json → Exec Failure σ Json}
    {message : Surroundings × Json} (h : asked message = some (commandString, arguments)) :
    answerWith process message = process commandString arguments := by
  rcases answerWith_cases process message with
    ⟨hasked, -⟩ | ⟨commandString', arguments', hasked, hanswer⟩
  · rw [h] at hasked
    cases hasked
  · rw [h] at hasked
    cases hasked
    exact hanswer

/-- The message asks for a command of the platform. -/
def forPlatform (message : Surroundings × Json) : Bool :=
  match asked message with
  | some (commandString, _) => commandString ∈ platformCommands
  | none => false

theorem answer_parts (message : Surroundings × Json) :
    answer message.1 message.2 =
      if forPlatform message then
        Exec.onFst parts (answerWith (PlatformEndpoints.respond message.1) message)
      else Exec.onSnd parts (answerWith (HardwareService.processCommand message.1) message) := by
  change answerWith (processCommand message.1) message = _
  unfold forPlatform
  rcases answerWith_cases (processCommand message.1) message with
    ⟨hasked, hanswer⟩ | ⟨commandString, arguments, hasked, hanswer⟩
  · rcases answerWith_cases (HardwareService.processCommand message.1) message with
      ⟨-, hanswer'⟩ | ⟨commandString, arguments, hasked', -⟩
    · simp only [hasked, hanswer, hanswer', Exec.onSnd_ofExcept, Bool.false_eq_true, if_false]
    · rw [hasked] at hasked'
      cases hasked'
  · simp only [hasked, hanswer, answerWith_of_asked hasked, decide_eq_true_eq]
    by_cases h : commandString ∈ platformCommands
    · rw [if_pos h, processCommand_of_platform h]
    · rw [if_neg h, processCommand_of_not_platform h]

/-- Platform messages and the others may be interleaved in any way : with the order among the
platform messages and the order among the others kept, the driver ends in the same state and every
message has the same response. -/
theorem serve_interleavings {messages messages' : List (Surroundings × Json)}
    (hplatform : messages.filter forPlatform = messages'.filter forPlatform)
    (hrest : messages.filter (!forPlatform ·) = messages'.filter (!forPlatform ·))
    {p p' : CommandProcessor} {responses : List Json}
    (h : (serve messages).run p = .ok responses p') :
    ∃ responses', (serve messages').run p = .ok responses' p' ∧
      Exec.resultsOf forPlatform messages' responses' =
        Exec.resultsOf forPlatform messages responses ∧
      Exec.resultsOf (!forPlatform ·) messages' responses' =
        Exec.resultsOf (!forPlatform ·) messages responses :=
  Exec.mapM_interleavings answer_parts hplatform hrest h

/-- The log level is set before the logic is started, or after. -/
def traceThenStart : List (Surroundings × Json) :=
  [(.of [] [], .object [("cmd", .string "set_debug_level"), ("args", .string "trace")]),
    (.of [] [], .object [("cmd", .string "hil_start"), ("args", .object [])]),
    (.of [] [], .object [("cmd", .string "get_debug_level"), ("args", .object [])])]

/-- A client that starts the logic, then sets the log level and reads it. -/
def startThenTrace : List (Surroundings × Json) :=
  [(.of [] [], .object [("cmd", .string "hil_start"), ("args", .object [])]),
    (.of [] [], .object [("cmd", .string "set_debug_level"), ("args", .string "trace")]),
    (.of [] [], .object [("cmd", .string "get_debug_level"), ("args", .object [])])]

theorem serve_traceThenStart :
    ∃ responses p, (serve traceThenStart).run started = .ok responses p :=
  ⟨_, _, rfl⟩

theorem serve_interleavings_startThenTrace : ∃ responses responses' p,
    (serve traceThenStart).run started = .ok responses p ∧
      (serve startThenTrace).run started = .ok responses' p ∧
      Exec.resultsOf forPlatform startThenTrace responses' =
        Exec.resultsOf forPlatform traceThenStart responses := by
  obtain ⟨responses, p, h⟩ := serve_traceThenStart
  have hplatform : traceThenStart.filter forPlatform = startThenTrace.filter forPlatform := rfl
  obtain ⟨responses', h', hresponses, -⟩ := serve_interleavings hplatform rfl h
  exact ⟨responses, responses', p, h, h', hresponses⟩

end CommandProcessor

end UscopeDriver
