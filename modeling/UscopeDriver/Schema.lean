import UscopeDriver.Json

/-!
# Argument schemas

The keywords of JSON Schema that the driver uses, each as the test it makes on a value, and
the schemas of the commands. The validator itself is a library : it accepts what passes the
tests and otherwise returns a text (`SchemaValidator`).
-/

namespace UscopeDriver

/-- The test that a schema makes. -/
abbrev Schema := Json → Bool

/-- The types that a schema asks for. -/
inductive JsonType where
  | object
  | array
  | string
  | number
  | integer
  deriving DecidableEq, Repr

namespace Schema

/-- Whether a floating-point value such as `5.0` is of type integer is up to the validator. -/
def type (integralFloats : Bool) : JsonType → Schema
  | .object, .object _ => true
  | .array, .array _ => true
  | .string, .string _ => true
  | .number, .numberUnsigned _ => true
  | .number, .numberInteger _ => true
  | .number, .numberFloat _ => true
  | .integer, .numberUnsigned _ => true
  | .integer, .numberInteger _ => true
  | .integer, .numberFloat x => integralFloats && x.den = 1
  | _, _ => false

/-- Only the keys that are there are tested. -/
def properties (schemas : List (String × Schema)) : Schema := fun j =>
  schemas.all fun (key, s) => (j.find? key).all s

/-- All the keys are there. Only an object can lack one. -/
def required (keys : List String) : Schema
  | .object members => keys.all fun key => (members.lookup key).isSome
  | _ => true

/-- One of the texts. -/
def enum (texts : List String) : Schema
  | .string s => s ∈ texts
  | _ => false

/-- `items` with one schema, for every element. -/
def items (s : Schema) : Schema
  | .array elements => elements.all s
  | _ => true

/-- `items` with an array of one schema, for the first element. -/
def firstItem (s : Schema) : Schema
  | .array elements => elements.head?.all s
  | _ => true

/-- Exactly one of the schemas holds. -/
def oneOf (schemas : List Schema) : Schema := fun j =>
  schemas.countP (· j) = 1

/-- Where the condition holds, so does the consequence. -/
def ifThen (condition consequence : Schema) : Schema := fun j =>
  !condition j || consequence j

/-- A schema is its keywords. -/
def keywords (tests : List Schema) : Schema := fun j =>
  tests.all (· j)

theorem isSome_of_required {keys : List String} {members : List (String × Json)}
    (h : required keys (.object members) = true) (key : String) (hk : key ∈ keys) :
    ∃ value, (Json.object members).find? key = some value :=
  Option.isSome_iff_exists.1 (List.all_eq_true.1 h key hk)

/-- The value of a property passes its test. -/
theorem of_properties {schemas : List (String × Schema)} {j value : Json} {key : String}
    {s : Schema} (h : properties schemas j = true) (hs : (key, s) ∈ schemas)
    (hv : j.find? key = some value) : s value = true := by
  have hall := List.all_eq_true.1 h (key, s) hs
  simpa [hv] using hall

theorem of_keywords {tests : List Schema} {j : Json} {test : Schema}
    (h : keywords tests j = true) (ht : test ∈ tests) : test j = true :=
  List.all_eq_true.1 h test ht

theorem number_of_type {integralFloats : Bool} {j : Json}
    (h : type integralFloats .number j = true) : ∃ x, j.number? = some x := by
  cases j <;> first | exact ⟨_, rfl⟩ | cases h

theorem string_of_type {integralFloats : Bool} {j : Json}
    (h : type integralFloats .string j = true) : ∃ s, j = .string s := by
  cases j <;> first | exact ⟨_, rfl⟩ | cases h

theorem object_of_type {integralFloats : Bool} {j : Json}
    (h : type integralFloats .object j = true) : ∃ members, j = .object members := by
  cases j <;> first | exact ⟨_, rfl⟩ | cases h

theorem array_of_type {integralFloats : Bool} {j : Json}
    (h : type integralFloats .array j = true) : ∃ elements, j = .array elements := by
  cases j <;> first | exact ⟨_, rfl⟩ | cases h

/-- A value of type integer is a number without a fraction. -/
theorem integer_of_type {integralFloats : Bool} {j : Json}
    (h : type integralFloats .integer j = true) : ∃ i : Int, j.number? = some (i : ℚ) := by
  cases j with
  | numberUnsigned n => exact ⟨n, rfl⟩
  | numberInteger i => exact ⟨i, rfl⟩
  | numberFloat x =>
    have hden : x.den = 1 := by simpa [type] using (Bool.and_eq_true_iff.1 h).2
    exact ⟨x.num, congrArg some ((Rat.den_eq_one_iff x).1 hden).symm⟩
  | _ => cases h

/-- An accepted object has the required keys, and its properties pass their tests. -/
theorem of_object {integralFloats : Bool} {schemas : List (String × Schema)} {keys : List String}
    {j : Json} (h : keywords [properties schemas, required keys, type integralFloats .object] j =
      true) : (∃ members, j = .object members) ∧ (∀ key ∈ keys, ∃ value, j.find? key = some value) ∧
      ∀ {key value s}, (key, s) ∈ schemas → j.find? key = some value → s value = true := by
  have hproperties := of_keywords h (List.mem_cons_self ..)
  have hrequired := of_keywords h (List.mem_cons_of_mem _ (List.mem_cons_self ..))
  have hobject := of_keywords h
    (List.mem_cons_of_mem _ (List.mem_cons_of_mem _ (List.mem_cons_self ..)))
  obtain ⟨members, rfl⟩ := object_of_type hobject
  exact ⟨⟨members, rfl⟩, isSome_of_required hrequired, of_properties hproperties⟩

/-- The elements of an accepted array pass their test. -/
theorem of_array {integralFloats : Bool} {item : Schema} {j : Json}
    (h : keywords [type integralFloats .array, items item] j = true) :
    ∃ elements, j = .array elements ∧ ∀ el ∈ elements, item el = true := by
  have hitems := of_keywords h (List.mem_cons_of_mem _ (List.mem_cons_self ..))
  obtain ⟨elements, rfl⟩ := array_of_type (of_keywords h (List.mem_cons_self ..))
  exact ⟨elements, rfl, List.all_eq_true.1 hitems⟩

end Schema

/-- The validator, with the text it returns for a value that fails a test. -/
structure SchemaValidator where
  integralFloats : Bool
  validate : Schema → Json → Option String
  validate_eq_none : ∀ s j, validate s j = none ↔ s j = true

/-- A value is refused with a text, or passes its tests. -/
theorem SchemaValidator.validate_cases (validator : SchemaValidator) (s : Schema) (j : Json) :
    (∃ errorMessage, validator.validate s j = some errorMessage ∧ ¬s j = true) ∨
      validator.validate s j = none ∧ s j = true := by
  rw [← validator.validate_eq_none]
  cases validator.validate s j <;> simp

/-- A validator with one text. -/
def SchemaValidator.plain : SchemaValidator where
  integralFloats := false
  validate := fun s j => if s j then none else some "invalid"
  validate_eq_none := fun s j => by simp

namespace Commands

open Schema

variable (integralFloats : Bool)

/-- What a client sends. -/
def command : Schema :=
  keywords [
    properties [
      ("cmd", type integralFloats .string),
      ("args", oneOf [type integralFloats .object, type integralFloats .string,
        type integralFloats .number, type integralFloats .array])],
    required ["cmd", "args"],
    type integralFloats .object]

/-- The arguments of `apply_program`. -/
def loadProgram : Schema :=
  keywords [
    properties [
      ("address", type integralFloats .number),
      ("program", keywords [type integralFloats .array, items (type integralFloats .integer)])],
    required ["address", "program"],
    type integralFloats .object]

/-- The arguments of `compile_program`. -/
def compileProgramSchema : Schema :=
  keywords [
    properties [
      ("content", type integralFloats .string),
      ("headers", keywords [
        type integralFloats .array,
        items (keywords [
          type integralFloats .object,
          properties [
            ("content", type integralFloats .string),
            ("name", type integralFloats .string)],
          required ["content", "name"]])]),
      ("io", keywords [
        type integralFloats .array,
        firstItem (keywords [
          type integralFloats .object,
          properties [
            ("address", type integralFloats .integer),
            ("associated_io", type integralFloats .string),
            ("type", type integralFloats .string)]])])],
    required ["content", "headers", "io"],
    type integralFloats .object]

/-- The arguments of `apply_filter`. -/
def applyFilterSchema : Schema :=
  keywords [
    properties [
      ("address", type integralFloats .number),
      ("taps", keywords [type integralFloats .array, items (type integralFloats .integer)])],
    required ["address", "taps"],
    type integralFloats .object]

/-- The arguments of `register_write`. -/
def writeRegister : Schema :=
  keywords [
    properties [
      ("type", keywords [type integralFloats .string, enum ["proxied", "direct"]]),
      ("proxy_type", type integralFloats .string),
      ("proxy_address", type integralFloats .integer),
      ("address", type integralFloats .number),
      ("value", type integralFloats .number)],
    required ["type", "address", "value"],
    type integralFloats .object,
    ifThen (properties [("type", enum ["proxied"])]) (required ["proxy_address", "proxy_type"])]

end Commands

end UscopeDriver
