import UscopeDriver.Machine

/-!
# What the fCore toolchain hands to the driver

The dispatcher elaborates a deployment specification into programs, interconnect slots,
memory initialisations and inputs. It is not part of the driver : here it is whatever these
calls return (`EmulatorDispatcher`), any of which can throw instead. Its 32-bit fields keep
their width. A `float` value is its 32 bits, the driver only ever reinterprets it.
-/

namespace UscopeDriver

/-- The type of a value on the interconnect. -/
inductive IomType where
  | typeFloat
  | typeInteger
  deriving DecidableEq, Repr

/-- The format of a value on the interconnect. -/
structure IomMetadata where
  type : IomType
  width : UInt32
  isSigned : Bool
  deriving DecidableEq, Repr

/-- A connection between a channel of an output and a channel of the HIL bus. -/
structure DeployerInterconnectSlot where
  sourceId : String
  sourceName : String
  destinationId : String
  destinationName : String
  sourceIoAddress : UInt32
  sourceChannel : UInt32
  destinationBusAddress : UInt32
  destinationChannel : UInt32
  metadata : IomMetadata
  deriving DecidableEq, Repr

/-- `std::variant<std::vector<float>, std::vector<uint32_t>>` -/
inductive InitialData where
  | floats (bits : List UInt32)
  | words (values : List UInt32)
  deriving DecidableEq, Repr

/-- The words of either alternative, a `float` through `float_to_uint32`. -/
def InitialData.toWords : InitialData → List UInt32
  | .floats bits => bits
  | .words values => values

/-- The levels of a square wave are `float`s, its times are in seconds. -/
structure SquareWaveParameters where
  vOn : List UInt32
  vOff : List UInt32
  period : List ℚ
  tOn : List ℚ
  tDelay : List ℚ
  deriving DecidableEq, Repr

/-- The waveforms of a specification. The driver supports square waves. -/
inductive WaveformParameters where
  | square (parameters : SquareWaveParameters)
  | sine
  | triangle
  deriving DecidableEq, Repr

/-- Where the value of an input comes from. -/
inductive SourceType where
  | constantInput
  | timeSeriesInput
  | randomInput
  | waveformInput
  | external
  deriving DecidableEq, Repr

/-- The two types of input that a constant engine drives. -/
def SourceType.IsConstant (t : SourceType) : Prop :=
  t = .constantInput ∨ t = .timeSeriesInput

instance : DecidablePred SourceType.IsConstant := fun _ =>
  inferInstanceAs (Decidable (_ ∨ _))

/-- An input of a program. -/
structure DeployedCoreInputs where
  name : String
  sourceType : SourceType
  address : List UInt32
  data : List InitialData
  metadata : IomMetadata
  waveformParameters : WaveformParameters
  deriving DecidableEq, Repr

/-- The length of a program : a part that is fixed and one for each channel. -/
structure ProgramLength where
  fixedPortion : UInt32
  perChannelPortion : UInt32
  deriving DecidableEq, Repr

/-- A program as the toolchain hands it over. -/
structure DeployedProgram where
  name : String
  index : UInt32
  order : UInt32
  samplingFrequency : UInt32
  nChannels : UInt32
  binary : List UInt32
  programLength : ProgramLength
  inputs : List DeployedCoreInputs
  deriving DecidableEq, Repr

/-- An initial value of a memory. -/
structure MemoryInitValue where
  address : List UInt32
  value : InitialData
  deriving DecidableEq, Repr

/-- The calls on the dispatcher after `set_specs` : what each returns, or the text of the
`std::runtime_error` it throws. -/
structure EmulatorDispatcher where
  setSpecs : Except String Unit
  getPrograms : Except String (List DeployedProgram)
  getInterconnectSlots : Except String (List DeployerInterconnectSlot)
  getMemoryInitializations : Except String (String → List MemoryInitValue)
  getInputs : String → Except String (List DeployedCoreInputs)

/-- A dispatcher that returns these programs and slots, the inputs of the programs and no
memories. -/
def EmulatorDispatcher.returning (programs : List DeployedProgram)
    (slots : List DeployerInterconnectSlot) : EmulatorDispatcher where
  setSpecs := .ok ()
  getPrograms := .ok programs
  getInterconnectSlots := .ok slots
  getMemoryInitializations := .ok fun _ => []
  getInputs := fun name => .ok ((programs.find? (·.name = name)).elim [] (·.inputs))

/-- The opcodes of the processor. -/
structure FcoreIsa where
  opcodeWidth : Nat
  opcodeLdc : UInt32
  opcodeRec : UInt32
  deriving DecidableEq, Repr

/-- A call that leaves the state of the driver alone. -/
def callDispatcher {σ α : Type} : Except String α → Exec Failure σ α
  | .ok a => pure a
  | .error what => throw (.runtimeError what)

theorem callDispatcher_eq_ok {σ α : Type} {x : Except String α} {a : α} {s s' : σ} :
    (callDispatcher x).run s = .ok a s' ↔ x = .ok a ∧ s' = s := by
  cases x with
  | ok b => simp [callDispatcher, eq_comm]
  | error what => simp [callDispatcher, Exec.throw_eq_ok]

end UscopeDriver
