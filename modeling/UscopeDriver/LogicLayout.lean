import UscopeDriver.Json
import UscopeDriver.Library.Fields

/-!
# The layout of the logic

Where the cores and the peripherals sit in the address space. The map arrives as a JSON object
and is assigned field by field, so a failure on the way leaves the fields before it changed.
-/

namespace UscopeDriver

/-- The base addresses of the logic. -/
structure LogicLayoutBases where
  coresRom : Nat
  coresControl : Nat
  coresInputs : Nat
  noiseGenerator : Nat
  waveformGenerator : Nat
  controller : Nat
  scopeMux : Nat
  hilControl : Nat
  deriving DecidableEq, Repr

/-- The offsets within a peripheral or from one core to the next. -/
structure LogicLayoutOffsets where
  dma : Nat
  hilTb : Nat
  controller : Nat
  coresRom : Nat
  coresControl : Nat
  coresInputs : Nat
  deriving DecidableEq, Repr

/-- The layout of the logic. -/
structure LogicLayout where
  bases : LogicLayoutBases
  offsets : LogicLayoutOffsets
  deriving DecidableEq, Repr

namespace LogicLayout

/-- The map of the tests. -/
def addrMapV2 : LogicLayout where
  bases := {
    coresRom := 21474836480
    coresControl := 18316853248
    coresInputs := 8192
    noiseGenerator := 18316722176
    waveformGenerator := 18316787712
    controller := 18316591104
    scopeMux := 18316525568
    hilControl := 18316656640 }
  offsets := {
    dma := 4096
    hilTb := 0
    controller := 4096
    coresRom := 268435456
    coresControl := 65536
    coresInputs := 4096 }

/-- `obj[section][key]` as a `uint64_t`. -/
def address {σ : Type} (pl : Platform) (obj : Json) (section' key : String) :
    Exec Failure σ Nat := do
  let entries ← obj.at' section'
  let value ← entries.at' key
  value.getUint64 pl

/-- `bases.key = obj["bases"]["key"]`, with the assignment as a function. -/
def parseBase (pl : Platform) (obj : Json) (key : String)
    (assign : Nat → LogicLayoutBases → LogicLayoutBases) : Exec Failure LogicLayout Unit := do
  let value ← address pl obj "bases" key
  modify fun l => { l with bases := assign value l.bases }

/-- `offsets.key = obj["offsets"]["key"]`, with the assignment as a function. -/
def parseOffset (pl : Platform) (obj : Json) (key : String)
    (assign : Nat → LogicLayoutOffsets → LogicLayoutOffsets) : Exec Failure LogicLayout Unit := do
  let value ← address pl obj "offsets" key
  modify fun l => { l with offsets := assign value l.offsets }

/-- The addresses of a map in the order in which the source assigns them. -/
def parseLayoutObject (pl : Platform) (obj : Json) : Exec Failure LogicLayout Unit := do
  parseBase pl obj "cores_rom" fun a b => { b with coresRom := a }
  parseBase pl obj "cores_control" fun a b => { b with coresControl := a }
  parseBase pl obj "cores_inputs" fun a b => { b with coresInputs := a }
  parseBase pl obj "controller" fun a b => { b with controller := a }
  parseBase pl obj "scope_mux" fun a b => { b with scopeMux := a }
  parseBase pl obj "hil_control" fun a b => { b with hilControl := a }
  parseBase pl obj "waveform_generator" fun a b => { b with waveformGenerator := a }
  parseBase pl obj "noise_generator" fun a b => { b with noiseGenerator := a }
  parseOffset pl obj "cores_rom" fun a o => { o with coresRom := a }
  parseOffset pl obj "dma" fun a o => { o with dma := a }
  parseOffset pl obj "cores_control" fun a o => { o with coresControl := a }
  parseOffset pl obj "controller" fun a o => { o with controller := a }
  parseOffset pl obj "cores_inputs" fun a o => { o with coresInputs := a }
  parseOffset pl obj "hil_tb" fun a o => { o with hilTb := a }

/-- The bases and the offsets as JSON numbers. -/
def dumpLayoutObject (l : LogicLayout) : Json :=
  .object [
    ("offsets", .object [
      ("cores_rom", .numberUnsigned l.offsets.coresRom),
      ("cores_control", .numberUnsigned l.offsets.coresControl),
      ("controller", .numberUnsigned l.offsets.controller),
      ("cores_inputs", .numberUnsigned l.offsets.coresInputs),
      ("dma", .numberUnsigned l.offsets.dma),
      ("hil_tb", .numberUnsigned l.offsets.hilTb)]),
    ("bases", .object [
      ("cores_rom", .numberUnsigned l.bases.coresRom),
      ("cores_control", .numberUnsigned l.bases.coresControl),
      ("cores_inputs", .numberUnsigned l.bases.coresInputs),
      ("controller", .numberUnsigned l.bases.controller),
      ("scope_mux", .numberUnsigned l.bases.scopeMux),
      ("hil_control", .numberUnsigned l.bases.hilControl),
      ("waveform_generator", .numberUnsigned l.bases.waveformGenerator),
      ("noise_generator", .numberUnsigned l.bases.noiseGenerator)])]

/-! ## The fourteen addresses -/

/-- The addresses, in the order in which they are parsed. -/
inductive Address where
  | coresRom
  | coresControl
  | coresInputs
  | controller
  | scopeMux
  | hilControl
  | waveformGenerator
  | noiseGenerator
  | coresRomOffset
  | dmaOffset
  | coresControlOffset
  | controllerOffset
  | coresInputsOffset
  | hilTbOffset
  deriving DecidableEq, Repr

namespace Address

/-- The order in which they are assigned. -/
def order : List Address :=
  [.coresRom, .coresControl, .coresInputs, .controller, .scopeMux, .hilControl,
    .waveformGenerator, .noiseGenerator, .coresRomOffset, .dmaOffset, .coresControlOffset,
    .controllerOffset, .coresInputsOffset, .hilTbOffset]

/-- Each address is assigned. -/
theorem mem_order (a : Address) : a ∈ order := by
  cases a <;> decide

/-- The object that holds the address. -/
def section' : Address → String
  | .coresRom => "bases"
  | .coresControl => "bases"
  | .coresInputs => "bases"
  | .controller => "bases"
  | .scopeMux => "bases"
  | .hilControl => "bases"
  | .waveformGenerator => "bases"
  | .noiseGenerator => "bases"
  | .coresRomOffset => "offsets"
  | .dmaOffset => "offsets"
  | .coresControlOffset => "offsets"
  | .controllerOffset => "offsets"
  | .coresInputsOffset => "offsets"
  | .hilTbOffset => "offsets"

/-- The key of an address in its section. -/
def key : Address → String
  | .coresRom => "cores_rom"
  | .coresControl => "cores_control"
  | .coresInputs => "cores_inputs"
  | .controller => "controller"
  | .scopeMux => "scope_mux"
  | .hilControl => "hil_control"
  | .waveformGenerator => "waveform_generator"
  | .noiseGenerator => "noise_generator"
  | .coresRomOffset => "cores_rom"
  | .dmaOffset => "dma"
  | .coresControlOffset => "cores_control"
  | .controllerOffset => "controller"
  | .coresInputsOffset => "cores_inputs"
  | .hilTbOffset => "hil_tb"

/-- The field of an address. -/
def read : Address → LogicLayout → Nat
  | .coresRom, l => l.bases.coresRom
  | .coresControl, l => l.bases.coresControl
  | .coresInputs, l => l.bases.coresInputs
  | .controller, l => l.bases.controller
  | .scopeMux, l => l.bases.scopeMux
  | .hilControl, l => l.bases.hilControl
  | .waveformGenerator, l => l.bases.waveformGenerator
  | .noiseGenerator, l => l.bases.noiseGenerator
  | .coresRomOffset, l => l.offsets.coresRom
  | .dmaOffset, l => l.offsets.dma
  | .coresControlOffset, l => l.offsets.coresControl
  | .controllerOffset, l => l.offsets.controller
  | .coresInputsOffset, l => l.offsets.coresInputs
  | .hilTbOffset, l => l.offsets.hilTb

/-- The layout with another value for an address. -/
def assign : Address → Nat → LogicLayout → LogicLayout
  | .coresRom, a, l => { l with bases.coresRom := a }
  | .coresControl, a, l => { l with bases.coresControl := a }
  | .coresInputs, a, l => { l with bases.coresInputs := a }
  | .controller, a, l => { l with bases.controller := a }
  | .scopeMux, a, l => { l with bases.scopeMux := a }
  | .hilControl, a, l => { l with bases.hilControl := a }
  | .waveformGenerator, a, l => { l with bases.waveformGenerator := a }
  | .noiseGenerator, a, l => { l with bases.noiseGenerator := a }
  | .coresRomOffset, a, l => { l with offsets.coresRom := a }
  | .dmaOffset, a, l => { l with offsets.dma := a }
  | .coresControlOffset, a, l => { l with offsets.coresControl := a }
  | .controllerOffset, a, l => { l with offsets.controller := a }
  | .coresInputsOffset, a, l => { l with offsets.coresInputs := a }
  | .hilTbOffset, a, l => { l with offsets.hilTb := a }

/-- The layout as a record of addresses. -/
def fields : Fields Address LogicLayout Nat where
  read := read
  assign := assign
  read_assign_self := fun a v l => by cases a <;> rfl
  read_assign_of_ne := fun a b v l hne => by
    cases b <;> cases a <;> first | rfl | exact absurd rfl hne
  ext := fun l l' h => by
    have hread : ∀ a : Address, a.read l = a.read l' := h
    obtain ⟨⟨_, _, _, _, _, _, _, _⟩, ⟨_, _, _, _, _, _⟩⟩ := l
    obtain ⟨⟨_, _, _, _, _, _, _, _⟩, ⟨_, _, _, _, _, _⟩⟩ := l'
    congr 1
    · congr 1
      exacts [hread .coresRom, hread .coresControl, hread .coresInputs, hread .noiseGenerator,
        hread .waveformGenerator, hread .controller, hread .scopeMux, hread .hilControl]
    · congr 1
      exacts [hread .dmaOffset, hread .hilTbOffset, hread .controllerOffset,
        hread .coresRomOffset, hread .coresControlOffset, hread .coresInputsOffset]

end Address

/-! ## Parsing and dumping -/

/-- What parsing an address gives, none of it depends on the layout. -/
def readAddress (pl : Platform) (obj : Json) (a : Address) : Except Failure Nat :=
  Exec.outcome (address pl obj a.section' a.key)

/-- The number that the object has for an address. -/
def namedAddress (obj : Json) (a : Address) : Option ℚ := do
  let entries ← obj.find? a.section'
  let value ← entries.find? a.key
  value.number?

theorem address_eq {σ : Type} (pl : Platform) (obj : Json) (section' key : String) :
    (address pl obj section' key : Exec Failure σ Nat) =
      Exec.ofExcept (Exec.outcome (address pl obj section' key)) := by
  unfold address
  cases obj with
  | object members =>
    cases hs : members.lookup section' with
    | none => simp [Json.at', hs, Exec.require]; rfl
    | some entries =>
      cases entries with
      | object entries =>
        cases hk : entries.lookup key with
        | none => simp [Json.at', hs, hk, Exec.require]; rfl
        | some value => cases value <;> simp [Json.at', hs, hk, Exec.require] <;> rfl
      | _ => simp [Json.at', hs, Exec.require]; rfl
  | _ => rfl

/-- The source assigns the fields one after the other. -/
theorem parseLayoutObject_eq (pl : Platform) (obj : Json) :
    parseLayoutObject pl obj = Address.fields.assignAll (readAddress pl obj) Address.order := by
  have hbase : ∀ key assign, parseBase pl obj key assign =
      Exec.ofExcept (Exec.outcome (address pl obj "bases" key)) >>= fun value =>
        modify fun l => { l with bases := assign value l.bases } := fun key assign => by
    rw [parseBase, address_eq]
  have hoffset : ∀ key assign, parseOffset pl obj key assign =
      Exec.ofExcept (Exec.outcome (address pl obj "offsets" key)) >>= fun value =>
        modify fun l => { l with offsets := assign value l.offsets } := fun key assign => by
    rw [parseOffset, address_eq]
  have hnil : ∀ m : Exec Failure LogicLayout Unit, (m >>= fun _ => pure ⟨⟩) = m := bind_pure
  unfold parseLayoutObject Fields.assignAll Address.order
  simp only [hbase, hoffset, List.forM_cons, List.forM_nil, hnil]
  rfl

/-- A map is read exactly if each address can be. -/
theorem parseLayoutObject_eq_ok {pl : Platform} {obj : Json} {l l' : LogicLayout} {u : Unit} :
    (parseLayoutObject pl obj).run l = .ok u l' ↔
      ∀ a : Address, readAddress pl obj a = .ok (a.read l') := by
  rw [parseLayoutObject_eq, Fields.assignAll_eq_ok Address.mem_order]
  rfl

/-- An address is read from a number under its key. -/
theorem readAddress_eq_ok {pl : Platform} {obj : Json} {a : Address} {n : Nat} :
    readAddress pl obj a = .ok n ↔ ∃ entries value, obj.find? a.section' = some entries ∧
      entries.find? a.key = some value ∧ (value.getUint64 pl).run () = .ok n () := by
  rw [readAddress, Exec.outcome_eq_ok, address, Exec.bind_eq_ok]
  constructor
  · rintro ⟨entries, _, hs, hrun⟩
    obtain ⟨value, _, hk, hv⟩ := Exec.bind_eq_ok.1 hrun
    exact ⟨entries, value, (Json.at'_eq_ok.1 hs).1, (Json.at'_eq_ok.1 hk).1, hv⟩
  · rintro ⟨entries, value, hs, hk, hv⟩
    exact ⟨entries, (), Json.at'_eq_ok.2 ⟨hs, rfl⟩,
      Exec.bind_eq_ok.2 ⟨value, (), Json.at'_eq_ok.2 ⟨hk, rfl⟩, hv⟩⟩

/-- The number that the map names for an address. -/
theorem namedAddress_eq_some {obj : Json} {a : Address} {x : ℚ} :
    namedAddress obj a = some x ↔ ∃ entries value, obj.find? a.section' = some entries ∧
      entries.find? a.key = some value ∧ value.number? = some x := by
  simp [namedAddress, Option.bind_eq_some_iff]

/-- An address that is read has 64 bits. -/
theorem readAddress_lt {pl : Platform} {obj : Json} {a : Address} {n : Nat}
    (h : readAddress pl obj a = .ok n) : n < 2 ^ 64 := by
  obtain ⟨_, _, -, -, hv⟩ := readAddress_eq_ok.1 h
  exact Json.getUint64_lt hv

/-- A natural number of 64 bits is taken as it is. -/
theorem readAddress_of_named (pl : Platform) {obj : Json} {a : Address} {n : Nat}
    (hn : n < 2 ^ 64) (h : namedAddress obj a = some (n : ℚ)) : readAddress pl obj a = .ok n := by
  obtain ⟨entries, value, hs, hk, hv⟩ := namedAddress_eq_some.1 h
  exact readAddress_eq_ok.2 ⟨entries, value, hs, hk, Json.getUint64_of_number pl hn hv ()⟩

/-- The map of a layout names its addresses. -/
theorem namedAddress_dump (l : LogicLayout) (a : Address) :
    namedAddress (dumpLayoutObject l) a = some (a.read l : ℚ) := by
  cases a <;> rfl

/-- A layout of 64-bit addresses is what parsing its dump gives. -/
theorem parse_dump (pl : Platform) {l : LogicLayout} (hl : ∀ a : Address, a.read l < 2 ^ 64)
    (l₀ : LogicLayout) : (parseLayoutObject pl (dumpLayoutObject l)).run l₀ = .ok () l :=
  parseLayoutObject_eq_ok.2 fun a => readAddress_of_named pl (hl a) (namedAddress_dump l a)

end LogicLayout

end UscopeDriver
