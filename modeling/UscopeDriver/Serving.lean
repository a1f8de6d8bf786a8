import UscopeDriver.CommandProcessor
import UscopeDriver.CoresAnswers

/-!
# What takes the driver down

Nothing catches what leaves a command, so one message can end the driver. `Answerable` is the
condition on a message and on the state that it finds, command by command, under which it is
answered. A client is served exactly as long as its messages meet it (`serves_iff`).
-/

namespace UscopeDriver

namespace CommandProcessor

open Commands

variable {w : Surroundings} {commandString : String} {arguments commandObj : Json}
  {s : CommandProcessor}

/-- The endpoints with the bridge that they are lent. -/
def scopeOf (s : CommandProcessor) : ScopeEndpoints :=
  { s.scope with hw := s.hw }

/-- The cores endpoints with the bridge that is lent to them. -/
def coresOf (s : CommandProcessor) : CoresEndpoints :=
  { s.cores with hw := s.hw }

/-- The endpoint that has the command answers it. An unknown command is refused. -/
def CommandAnswered (w : Surroundings) (commandString : String) (arguments : Json)
    (s : CommandProcessor) : Prop :=
  if commandString ∈ controlCommands then
    ControlEndpoints.CommandAnswered w commandString arguments s.hw
  else if commandString ∈ scopeCommands then
    ScopeEndpoints.CommandAnswered w commandString arguments s.scopeOf
  else if commandString ∈ coreCommands then
    CoresEndpoints.CommandAnswered w commandString arguments s.coresOf
  else if commandString ∈ platformCommands then
    PlatformEndpoints.CommandAnswered w commandString arguments s.platform
  else True

theorem answers_rest :
    Answers (if commandString ∈ infrastructureCommands then pure { responseCode := .ok }
      else pure (.refused .invalidCmdSchema "DRIVER ERROR: Unknown command received\n") :
      Exec Failure CommandProcessor Response) s := by
  split_ifs <;> exact answers_pure _

theorem answers_body :
    Answers (body w commandString arguments) s ↔ CommandAnswered w commandString arguments s :=
  answers_ite (answers_zoom.trans ControlEndpoints.answers_processCommand) <|
  answers_ite (answers_zoom.trans ScopeEndpoints.answers_processCommand) <|
  answers_ite (answers_zoom.trans CoresEndpoints.answers_processCommand) <|
  answers_ite (answers_zoom.trans PlatformEndpoints.answers_processCommand) <|
  iff_of_true answers_rest trivial

/-- A message that the schema refuses is answered, and so is one whose command is. -/
def Answerable (w : Surroundings) (commandObj : Json) (s : CommandProcessor) : Prop :=
  command w.validator.integralFloats commandObj = true →
    ∀ commandString, commandObj.find? "cmd" = some (.string commandString) →
      ∀ arguments, commandObj.find? "args" = some arguments →
        CommandAnswered w commandString arguments s

/-- An accepted message has a command and arguments. -/
theorem command_of_accepted {integralFloats : Bool}
    (h : command integralFloats commandObj = true) :
    (∃ commandString, commandObj.find? "cmd" = some (.string commandString)) ∧
      ∃ arguments, commandObj.find? "args" = some arguments := by
  obtain ⟨-, hrequired, hproperties⟩ := Schema.of_object h
  obtain ⟨cmd, hcmd⟩ := hrequired "cmd" (by simp)
  obtain ⟨commandString, rfl⟩ := Schema.string_of_type (hproperties (List.mem_cons_self ..) hcmd)
  exact ⟨⟨commandString, hcmd⟩, hrequired "args" (by simp)⟩

theorem answers_answer : Answers (answer w commandObj) s ↔ Answerable w commandObj s := by
  unfold answer Answerable
  rcases w.validator.validate_cases (command w.validator.integralFloats) commandObj with
    ⟨errorMessage, hvalidate, hrejected⟩ | ⟨hvalidate, haccepted⟩
  · rw [hvalidate]
    exact iff_of_true (answers_pure _) fun h => absurd h hrejected
  · rw [hvalidate, forall_prop_of_true haccepted]
    obtain ⟨⟨commandString, hcmd⟩, arguments, hargs⟩ := command_of_accepted haccepted
    simp only [answers_require_bind, answers_get_bind, processCommand, answers_bind_pure,
      answers_body, hcmd, hargs, Json.text?, Option.some.injEq, exists_eq_left', forall_eq',
      Json.string.injEq]

/-! ## Clients -/

/-- Every message of a client is answered, and the server goes on. -/
def Serves (messages : List (Surroundings × Json)) (s : CommandProcessor) : Prop :=
  ∃ responses s', (serve messages).run s = .ok responses s' ∧ responses.length = messages.length

/-- From any state, a client is served exactly when every message can be answered in the state
that it finds. -/
theorem serves_iff (messages : List (Surroundings × Json)) (s : CommandProcessor) :
    Serves messages s ↔
      Exec.Along (fun _ => True) (fun message => answer message.1 message.2)
        (fun message t => Answerable message.1 message.2 t) messages s :=
  Exec.exists_mapM_iff.trans (Exec.along_congr fun _ _ => answers_answer)

/-- The processor of a driver that was just started, with a loaded bitstream. -/
def started : CommandProcessor where
  hw := CoresEndpoints.mapped.hw
  cores := .mapped
  scope := .construct CoresEndpoints.mapped.hw
  platform := ⟨fun _ => 0, fun _ => none, .info⟩

/-- The DMA of the scope is to be disabled, and the status is left out. -/
def withoutStatus : Json :=
  .object [("cmd", .string "disable_scope_dma"), ("args", .object [])]

/-- The missing status is null, which is no truth value. -/
theorem serves_without_status :
    command false withoutStatus = true ∧ ¬Serves [(.of [] [], withoutStatus)] started := by
  refine ⟨by decide +kernel, fun h => ?_⟩
  have hanswers := answers_answer.1 (Exec.exists_mapM_iff.1 h).1
  have hscope := hanswers (by decide +kernel) _ rfl _ rfl
  obtain ⟨⟨status, hstatus⟩, -⟩ :
      ScopeEndpoints.DisableDmaAnswered (.object []) started.scopeOf := by
    simpa [CommandAnswered, ScopeEndpoints.CommandAnswered, controlCommands, scopeCommands]
      using hscope
  cases hstatus

end CommandProcessor

end UscopeDriver
