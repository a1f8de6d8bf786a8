import UscopeDriver.CoresEndpoints

/-!
# Updates of the address map

`set_hil_address_map` parses its argument into the layout of one deployer and then of the other.
The update is all or nothing (`AllOrNothing`) exactly when the fourteen addresses are natural
numbers of 64 bits, or one of them cannot be read and the ones before it are those that the
deployers already hold (`set_hil_address_map_iff`).
-/

namespace UscopeDriver

open LogicLayout (Address readAddress namedAddress parseLayoutObject)

namespace CoresEndpoints

variable {pl : Platform} {obj : Json} {s : CoresEndpoints}

/-- Both deployers hold the layout. -/
def Holds (s : CoresEndpoints) (l : LogicLayout) : Prop :=
  s.hil.addresses = l ∧ s.custom.addresses = l

/-- The endpoints after a call on the HIL deployer that left it with the layout `l`. -/
def withHilAddresses (l : LogicLayout) (s : CoresEndpoints) : CoresEndpoints :=
  { s with hil := { s.hil with hw := s.hw, addresses := l } }

/-- The endpoints after a call on the custom deployer that left it with the layout `l`. -/
def withCustomAddresses (l : LogicLayout) (s : CoresEndpoints) : CoresEndpoints :=
  { s with custom := { s.custom with hw := s.hw, addresses := l } }

/-- The HIL deployer reads the map into its own layout. -/
theorem run_setHil : (onHil (HilDeployer.base (DeployerBase.setLayoutMap pl obj))).run s =
    match (parseLayoutObject pl obj).run s.hil.addresses with
    | .ok u l => .ok u (s.withHilAddresses l)
    | .error e l => .error e (s.withHilAddresses l) := by
  unfold onHil HilDeployer.base DeployerBase.setLayoutMap
  simp only [Exec.run_zoom]
  cases (parseLayoutObject pl obj).run s.hil.addresses <;> rfl

/-- So does the custom deployer. -/
theorem run_setCustom : (onCustom (CustomDeployer.base (DeployerBase.setLayoutMap pl obj))).run s =
    match (parseLayoutObject pl obj).run s.custom.addresses with
    | .ok u l => .ok u (s.withCustomAddresses l)
    | .error e l => .error e (s.withCustomAddresses l) := by
  unfold onCustom CustomDeployer.base DeployerBase.setLayoutMap
  simp only [Exec.run_zoom]
  cases (parseLayoutObject pl obj).run s.custom.addresses <;> rfl

variable (pl obj) in
/-- Both deployers read the same map into the same layout, so they end with the same one. -/
theorem run_processSetHilAddressMap {l : LogicLayout} (h : s.Holds l) :
    (processSetHilAddressMap pl obj).run s =
      match (parseLayoutObject pl obj).run l with
      | .ok _ l' => .ok { responseCode := .ok } ((s.withHilAddresses l').withCustomAddresses l')
      | .error e l' => .error e (s.withHilAddresses l') := by
  unfold processSetHilAddressMap
  rw [EStateM.run_bind, run_setHil, h.1]
  cases hrun : (parseLayoutObject pl obj).run l with
  | error e l' => rfl
  | ok u l' =>
    have hcustom : (s.withHilAddresses l').custom.addresses = l := h.2
    simp only
    rw [EStateM.run_bind, run_setCustom, hcustom, hrun]
    rfl

/-- Both deployers hold the addresses that `obj` names, and the map that is read back gives
the same layout when it is set again. -/
def Updated (pl : Platform) (obj : Json) (s : CoresEndpoints) : Prop :=
  ∃ l, s.Holds l ∧ (∀ a : Address, namedAddress obj a = some (a.read l : ℚ)) ∧
    ∃ dump t r t',
      processGetHilAddressMap.run s = .ok { responseCode := .ok, data := some dump } t ∧
      (processSetHilAddressMap pl dump).run t = .ok r t' ∧ t'.Holds l

/-- The update completes, or it fails with both deployers as before. -/
def AllOrNothing (pl : Platform) (obj : Json) (l : LogicLayout) (s : CoresEndpoints) : Prop :=
  match (processSetHilAddressMap pl obj).run s with
  | .ok _ s' => Updated pl obj s'
  | .error _ s' => s'.Holds l

/-- What is read back is the dump of the layout. -/
theorem run_processGetHilAddressMap {l : LogicLayout} (h : s.Holds l) :
    processGetHilAddressMap.run s =
      .ok { responseCode := .ok, data := some l.dumpLayoutObject } (s.withHilAddresses l) := by
  obtain ⟨hw, hil, custom⟩ := s
  obtain ⟨rfl, -⟩ := h
  rfl

/-- After both calls both deployers have the layout. -/
theorem holds_set (l : LogicLayout) (s : CoresEndpoints) :
    ((s.withHilAddresses l).withCustomAddresses l).Holds l :=
  ⟨rfl, rfl⟩

/-- With a layout of 64-bit addresses, to be updated is to have each named address. -/
theorem updated_iff {l : LogicLayout} (h : s.Holds l) (hl : ∀ a : Address, a.read l < 2 ^ 64) :
    Updated pl obj s ↔ ∀ a : Address, namedAddress obj a = some (a.read l : ℚ) := by
  constructor
  · rintro ⟨l', h', hnamed, -⟩
    obtain rfl : l' = l := h'.1.symm.trans h.1
    exact hnamed
  · intro hnamed
    have hget := run_processGetHilAddressMap h
    have hset := run_processSetHilAddressMap pl l.dumpLayoutObject
      (s := s.withHilAddresses l) (l := l) ⟨rfl, h.2⟩
    rw [LogicLayout.parse_dump pl hl l] at hset
    exact ⟨l, h, hnamed, _, _, _, _, hget, hset, holds_set l _⟩

/-- In a state where both deployers hold the same layout, an update is all or nothing exactly when
every address is a natural number of 64 bits, or one cannot be read and all before it are those
of the layout. -/
theorem set_hil_address_map_iff {l : LogicLayout} (h : s.Holds l) :
    AllOrNothing pl obj l s ↔
      (∀ a, ∃ n : Nat, n < 2 ^ 64 ∧ namedAddress obj a = some (n : ℚ)) ∨
        (∃ a e, readAddress pl obj a = .error e) ∧
          ∀ a ∈ Fields.admitted (readAddress pl obj) Address.order,
            readAddress pl obj a = .ok (a.read l) := by
  unfold AllOrNothing
  rw [run_processSetHilAddressMap pl obj h]
  cases hrun : (parseLayoutObject pl obj).run l with
  | ok u l' =>
    have hread := LogicLayout.parseLayoutObject_eq_ok.1 hrun
    simp only
    rw [updated_iff (holds_set l' s) fun a => LogicLayout.readAddress_lt (hread a)]
    constructor
    · intro hnamed
      exact Or.inl fun a => ⟨a.read l', LogicLayout.readAddress_lt (hread a), hnamed a⟩
    · rintro (hnumbers | ⟨⟨a, e, ha⟩, -⟩)
      · intro a
        obtain ⟨n, hn, hnamed⟩ := hnumbers a
        have hsame := (LogicLayout.readAddress_of_named pl hn hnamed).symm.trans (hread a)
        rw [hnamed, Except.ok.inj hsame]
      · rw [hread a] at ha
        cases ha
  | error e l' =>
    rw [LogicLayout.parseLayoutObject_eq] at hrun
    have hholds : (s.withHilAddresses l').Holds l ↔ l' = l := and_iff_left h.2
    simp only
    rw [hholds, Fields.eq_iff_of_assignAll_error hrun]
    have hfails : ∃ a e, readAddress pl obj a = .error e := by
      by_contra hnone
      push Not at hnone
      have hok : ∀ a ∈ Address.order, ∃ v, readAddress pl obj a = .ok v := by
        intro a _
        cases ha : readAddress pl obj a with
        | ok v => exact ⟨v, rfl⟩
        | error e => exact absurd ha (hnone a e)
      obtain ⟨r', hr⟩ := (Fields.exists_ok_iff (F := Address.fields) (r := l)).2 hok
      rw [hrun] at hr
      cases hr
    constructor
    · exact fun hsame => Or.inr ⟨hfails, hsame⟩
    · rintro (hnumbers | ⟨-, hsame⟩)
      · obtain ⟨a, e, ha⟩ := hfails
        obtain ⟨n, hn, hnamed⟩ := hnumbers a
        rw [LogicLayout.readAddress_of_named pl hn hnamed] at ha
        cases ha
      · exact hsame

/-- Endpoints whose deployers hold the map of the tests. -/
def mapped : CoresEndpoints where
  hw := ⟨.zynqmp, true⟩
  hil := .fresh
  custom := ⟨HilDeployer.fresh.toDeployerBase, fun _ => 0⟩

/-- A map of small numbers. -/
theorem set_hil_address_map_small :
    AllOrNothing .zeros
      (LogicLayout.dumpLayoutObject ⟨⟨1, 2, 3, 4, 5, 6, 7, 8⟩, ⟨9, 10, 11, 12, 13, 14⟩⟩)
      .addrMapV2 mapped :=
  (set_hil_address_map_iff ⟨rfl, rfl⟩).2 <| Or.inl fun a =>
    ⟨_, by cases a <;> decide, LogicLayout.namedAddress_dump _ a⟩

/-- A map with a text for the second address. -/
def textMap : Json :=
  .object [("bases", .object [("cores_rom", .numberUnsigned 5), ("cores_control", .string "8")])]

/-- The first address has been assigned by then, in one of the deployers. -/
theorem set_hil_address_map_text : ¬AllOrNothing .zeros textMap .addrMapV2 mapped := by
  have hfirst : readAddress .zeros textMap .coresRom = .ok 5 := rfl
  have hsecond : readAddress .zeros textMap .coresControl = .error .jsonError := rfl
  have hrun : (parseLayoutObject .zeros textMap).run .addrMapV2 =
      .error .jsonError (Address.assign .coresRom 5 .addrMapV2) := by
    rw [LogicLayout.parseLayoutObject_eq, Address.order, Fields.run_assignAll_cons_ok hfirst]
    exact Fields.run_assignAll_cons_error hsecond
  unfold AllOrNothing
  rw [run_processSetHilAddressMap _ _ (l := .addrMapV2) ⟨rfl, rfl⟩, hrun]
  rintro ⟨h, -⟩
  exact absurd (congrArg (Address.read .coresRom) h) (by decide)

end CoresEndpoints

end UscopeDriver
