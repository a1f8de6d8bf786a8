import UscopeDriver.Json

/-!
# Responses

What the components of the driver answer a request with.
-/

namespace UscopeDriver

/-- The codes of the responses. -/
inductive ResponseCode where
  | ok
  | bitstreamNotFound
  | invalidCmdSchema
  | invalidArg
  | bitstreamLoadFailed
  | internalError
  | emulationError
  | deploymentError
  | hilBusConflictWarning
  | driverFileNotFound
  | driverWriteFailed
  deriving DecidableEq, Repr

/-- The number that stands for the code in a response. -/
def ResponseCode.asInteger : ResponseCode → Nat
  | .ok => 1
  | .bitstreamNotFound => 2
  | .invalidCmdSchema => 3
  | .invalidArg => 4
  | .bitstreamLoadFailed => 5
  | .internalError => 6
  | .emulationError => 7
  | .deploymentError => 8
  | .hilBusConflictWarning => 9
  | .driverFileNotFound => 10
  | .driverWriteFailed => 11

theorem ResponseCode.asInteger_injective : Function.Injective asInteger := by
  intro code code' h
  cases code <;> cases code' <;> first | rfl | cases h

/-- What a command is answered with. -/
structure Response where
  responseCode : ResponseCode
  data : Option Json := none

namespace Response

/-- A refusal, with its text. -/
def refused (responseCode : ResponseCode) (text : String) : Response :=
  { responseCode := responseCode, data := some (.string text) }

/-- The answer of an endpoint to a command that it does not have. -/
def unexpected : Response :=
  refused .internalError "DRIVER ERROR: Internal driver error\n"

/-- The object that is sent. -/
def toJson (r : Response) : Json :=
  .object (("response_code", .numberUnsigned r.responseCode.asInteger) ::
    r.data.toList.map fun data => ("data", data))

theorem toJson_injective : Function.Injective toJson := by
  rintro ⟨code, data⟩ ⟨code', data'⟩ h
  simp only [toJson, Json.object.injEq, List.cons.injEq, Prod.mk.injEq, true_and,
    Json.numberUnsigned.injEq] at h
  obtain ⟨hcode, hdata⟩ := h
  obtain rfl := ResponseCode.asInteger_injective hcode
  cases data <;> cases data' <;> simp_all

end Response

end UscopeDriver
