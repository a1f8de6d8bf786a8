import UscopeDriver.InterconnectValues
import UscopeDriver.Calls

/-!
# Live updates of inputs

A deployment enters its constant and time series inputs in `inputs` and nothing ever leaves it.
So `set_input` writes to the engines of the last deployment, and to those of every deployment
before it that had an input of that core, name and channel (`set_input_iff`).
-/

namespace UscopeDriver

/-- The calls of `setup_input` for the constant and time series inputs. -/
def constantSetups (actions : List InputAction) : List InputSetup :=
  actions.filterMap fun
    | .setup c => if c.input.sourceType.IsConstant then some c else none
    | _ => none

/-- The actions record their constant inputs, in their order. -/
theorem InputAction.recordAll_inputs (actions : List InputAction) (s : HilDeployer) :
    (recordAll actions s).inputs = s.inputs ++ (constantSetups actions).map (·.metadata) := by
  induction actions generalizing s with
  | nil => simp [recordAll, constantSetups]
  | cons a actions ih =>
    have hcons : recordAll (a :: actions) s = recordAll actions (a.record s) := rfl
    rw [hcons, ih]
    cases a with
    | setup c =>
      have hrecord : (InputAction.record s (.setup c)).inputs =
          s.inputs ++ if c.input.sourceType.IsConstant then [c.metadata] else [] :=
        c.record_inputs s.toDeployerBase
      rw [hrecord]
      by_cases hc : c.input.sourceType.IsConstant <;> simp [constantSetups, hc]
    | label path coreIdx => rfl
    | enableRandom => rfl

/-- A constant or time series input makes its writes wherever it stands in the stage. -/
theorem InputAction.constantRequests_isInfix (pl : Platform) {actions : List InputAction}
    {c : InputSetup} (hc : c ∈ constantSetups actions) (s : HilDeployer) :
    c.constantRequests <:+: requestsOf pl actions s := by
  obtain ⟨a, ha, hac⟩ := List.mem_filterMap.1 hc
  induction actions generalizing s with
  | nil => exact absurd ha List.not_mem_nil
  | cons a' actions ih =>
    have hcons : requestsOf pl (a' :: actions) s =
      a'.requests pl s ++ requestsOf pl actions (a'.record s) := rfl
    rw [hcons]
    rcases List.mem_cons.1 ha with rfl | ha
    · cases a with
      | setup c' =>
        obtain ⟨hconstant, rfl⟩ : c'.input.sourceType.IsConstant ∧ c' = c := by simpa using hac
        have hrequests : InputAction.requests pl s (.setup c') = c'.constantRequests :=
          c'.requests_of_isConstant pl hconstant s.toDeployerBase
        rw [hrequests]
        exact (List.prefix_append _ _).isInfix
      | label path coreIdx => simp at hac
      | enableRandom => simp at hac
    · exact (ih (List.mem_filterMap.2 ⟨a, ha, hac⟩) _ ha).trans (List.suffix_append _ _).isInfix

namespace InputSetup

/-- What a live update addresses the input by. -/
def key (c : InputSetup) : String × String × Nat :=
  (c.coreName, c.input.name, u32 c.targetChannel)

/-- The writes of a live update : those of the setup but for the word. -/
def updateRequests (pl : Platform) (rawValue : ℚ) (c : InputSetup) : List Request :=
  [regWrite (c.ipAddress + constSelector) c.selector,
    regWrite (c.ipAddress + constDest) c.dest,
    regWrite (c.ipAddress + constLsb)
      (DeployerBase.liveValue pl c.metadata rawValue)]

/-- An address may be cut to 64 bits before its offset is added. -/
theorem regWrite_u64_add (addr k val : Nat) :
    regWrite (u64 addr + k) val = regWrite (addr + k) val := by
  rw [regWrite, regWrite, u64, u64, u64, Nat.mod_add_mod]

/-- An entry of `inputs` keeps all that an update writes but for the word. -/
theorem liveRequests_metadata (pl : Platform) (rawValue : ℚ) (c : InputSetup) :
    DeployerBase.liveRequests pl rawValue c.metadata = c.updateRequests pl rawValue := by
  simp only [DeployerBase.liveRequests, metadata, regWrite_u64_add, updateRequests]

/-- The inputs of a name are those that were set up with its key. -/
theorem addressedInputs_metadata {core name : String} {channel : Nat} (h : channel < 2 ^ 16)
    (setups : List InputSetup) :
    DeployerBase.addressedInputs core name channel (setups.map metadata) =
      (setups.filter fun c => c.key = (core, name, channel)).map metadata := by
  have hchannel : u16 channel = channel := Nat.mod_eq_of_lt h
  rw [DeployerBase.addressedInputs, List.filter_map, hchannel]
  congr 1
  refine List.filter_congr fun c _ => decide_eq_decide.2 ?_
  simp only [metadata, key, Prod.mk.injEq]
  exact and_left_comm

/-- A register that is mapped takes any value. -/
theorem admits_regWrite {hw : FpgaBridge} {addr val : Nat} (h : hw.Admits [regWrite addr val])
    (val' : Nat) : hw.Admits [regWrite addr val'] := by
  intro r hr hreaches
  obtain rfl := List.mem_singleton.1 hr
  exact h (regWrite addr val) (List.mem_singleton_self _) hreaches

/-- The bus admits an update where it admitted the setup : the registers are the same. -/
theorem admits_updateRequests (pl : Platform) (rawValue : ℚ) {c : InputSetup} {hw : FpgaBridge}
    (h : hw.Admits c.constantRequests) : hw.Admits (c.updateRequests pl rawValue) := by
  simp only [constantRequests, FpgaBridge.admits_cons_cons] at h
  simp only [updateRequests, FpgaBridge.admits_cons_cons]
  exact ⟨h.1, h.2.1, admits_regWrite h.2.2 _⟩

end InputSetup

namespace HilDeployer

variable {Spec : Type} {env : Environment Spec}

/-- The programs of a specification, none when the toolchain throws. -/
def programsOf (dispatcher : EmulatorDispatcher) : List DeployedProgram :=
  match dispatcher.getPrograms with
  | .ok programs => programs
  | .error _ => []

/-- The inputs that a specification programs. -/
def programmedInputs (addresses : LogicLayout) (dispatcher : EmulatorDispatcher) :
    List InputSetup :=
  constantSetups (inputActions addresses dispatcher (programsOf dispatcher))

/-- A deployment adds the inputs that it programs. -/
theorem deploy_inputs {arguments : Spec} {s s' : HilDeployer} {u : Unit}
    (h : (deploy env arguments).run s = .ok u s') :
    s'.addresses = s.addresses ∧ s'.inputs = s.inputs ++
      (programmedInputs s.addresses (env.dispatcher arguments)).map (·.metadata) := by
  obtain ⟨programs, slots, memories, hel, -, -, rfl⟩ := deploy_eq_ok.1 h
  have hprograms : programsOf (env.dispatcher arguments) = programs := by
    rw [programsOf, hel.getPrograms]
  refine ⟨recordAll_addresses _ _, ?_⟩
  rw [programmedInputs, hprograms]
  exact InputAction.recordAll_inputs _ _

/-- Deployments add their inputs, and none is ever removed. -/
theorem deploy_history_inputs {history : List Spec} {s s' : HilDeployer} {u : PUnit}
    (h : (forM history (deploy env)).run s = .ok u s') :
    s'.addresses = s.addresses ∧ s'.inputs = s.inputs ++ history.flatMap fun a =>
      (programmedInputs s.addresses (env.dispatcher a)).map (·.metadata) := by
  induction history generalizing s with
  | nil =>
    rw [Exec.forM_nil_eq_ok] at h
    simp [h]
  | cons a history ih =>
    obtain ⟨t, ht, hrest⟩ := Exec.forM_cons_eq_ok.1 h
    obtain ⟨ha, hi⟩ := deploy_inputs ht
    obtain ⟨ha', hi'⟩ := ih hrest
    rw [ha', hi', hi, ha]
    simp

/-- The writes of an update are those of the input under its key, none if there is none. -/
def AddressesCurrent (pl : Platform) (value : ℚ) (setups : List InputSetup)
    (key : String × String × Nat) (rs : List Request) : Prop :=
  (∀ c ∈ setups, c.key = key → rs = c.updateRequests pl value) ∧
    ((∀ c ∈ setups, c.key ≠ key) → rs = [])

/-- A key that occurs once belongs to one input. -/
theorem filter_key_eq_singleton {setups : List InputSetup}
    (h : (setups.map InputSetup.key).Nodup) {c : InputSetup} (hc : c ∈ setups) :
    setups.filter (·.key = c.key) = [c] := by
  induction setups with
  | nil => exact absurd hc List.not_mem_nil
  | cons c' setups ih =>
    rw [List.map_cons, List.nodup_cons] at h
    rcases List.mem_cons.1 hc with rfl | hc
    · have hrest : setups.filter (·.key = c.key) = [] := by
        refine List.filter_eq_nil_iff.2 fun d hd hkey => h.1 ?_
        exact of_decide_eq_true hkey ▸ List.mem_map_of_mem hd
      rw [List.filter_cons_of_pos (by simp), hrest]
    · have hne : c'.key ≠ c.key := fun hkey => h.1 (hkey ▸ List.mem_map_of_mem hc)
      rw [List.filter_cons_of_neg (by simpa using hne), ih h.2 hc]

/-- With one input to a key at most, the inputs before it must not have the key. -/
theorem addressesCurrent_iff (pl : Platform) (value : ℚ) (before : List InputSetup)
    {setups : List InputSetup} (honce : (setups.map InputSetup.key).Nodup)
    (key : String × String × Nat) :
    AddressesCurrent pl value setups key
        (((before ++ setups).filter (·.key = key)).flatMap (InputSetup.updateRequests pl value)) ↔
      ∀ c ∈ before, c.key ≠ key := by
  have hbefore : (∀ c ∈ before, c.key ≠ key) ↔ before.filter (·.key = key) = [] := by
    simp [List.filter_eq_nil_iff]
  have hnone : ((before.filter (·.key = key)).flatMap (InputSetup.updateRequests pl value)) = [] ↔
      before.filter (·.key = key) = [] := by
    rw [List.flatMap_eq_nil_iff, List.eq_nil_iff_forall_not_mem]
    exact forall₂_congr fun c _ => iff_false_intro (List.cons_ne_nil _ _)
  rw [hbefore, ← hnone, List.filter_append, List.flatMap_append]
  by_cases hc : ∃ c ∈ setups, c.key = key
  · obtain ⟨c, hc, rfl⟩ := hc
    have hcurrent : (setups.filter (·.key = c.key)).flatMap (InputSetup.updateRequests pl value) =
        c.updateRequests pl value := by
      rw [filter_key_eq_singleton honce hc]
      exact List.flatMap_singleton ..
    rw [hcurrent]
    constructor
    · intro h
      exact List.append_left_eq_self.1 (h.1 c hc rfl)
    · intro h
      rw [h]
      refine ⟨fun d hd hkey => ?_, fun hne => absurd rfl (hne c hc)⟩
      rw [List.inj_on_of_nodup_map honce hd hc hkey]
      rfl
  · have hne : ∀ c ∈ setups, c.key ≠ key := fun c hmem hkey => hc ⟨c, hmem, hkey⟩
    have hcurrent : setups.filter (·.key = key) = [] := by simpa [List.filter_eq_nil_iff] using hne
    rw [hcurrent, List.flatMap_nil, List.append_nil]
    exact ⟨fun h => h.2 hne, fun h => ⟨fun c hmem hkey => absurd hkey (hne c hmem), fun _ => h⟩⟩

/-- The writes of an update, by the inputs of all deployments up to the last. -/
theorem setInputRequests_eq {pl : Platform} {core name : String} {channel : Nat}
    (hchannel : channel < 2 ^ 16) (value : ℚ) {setups : List InputSetup} {s : HilDeployer}
    (h : s.inputs = setups.map (·.metadata)) :
    setInputRequests pl core name channel value s =
      (setups.filter (·.key = (core, name, channel))).flatMap
        (InputSetup.updateRequests pl value) := by
  rw [setInputRequests, h, InputSetup.addressedInputs_metadata hchannel, List.flatMap_map]
  exact List.flatMap_congr fun c _ => c.liveRequests_metadata pl value

/-- The writes of the inputs stand together in a deployment. -/
theorem inputRequests_isInfix (arguments : Spec) (programs : List DeployedProgram)
    (memories : String → List MemoryInitValue) (s : HilDeployer) :
    InputAction.requestsOf env.platform
      (inputActions s.addresses (env.dispatcher arguments) programs)
      (labelPrograms programs s) <:+: deploymentRequests env arguments programs memories s := by
  rw [deploymentRequests, writeRequests, setupRequests]
  refine List.infix_append_of_infix_right ?_
  rw [List.append_assoc (_ ++ _)]
  exact List.infix_append_of_infix_left (List.suffix_append _ _).isInfix

/-- A deployment sets up the inputs that it programs. -/
theorem deploy_constantRequests {arguments : Spec} {s s' : HilDeployer} {u : Unit}
    (h : (deploy env arguments).run s = .ok u s') :
    ∃ rs, s.hw.Admits rs ∧ s'.hw = (reset (env.hash arguments) s).hw.performAll rs ∧
      ∀ c ∈ programmedInputs s.addresses (env.dispatcher arguments),
        c.constantRequests <:+: rs := by
  obtain ⟨programs, slots, memories, hel, -, ha, rfl⟩ := deploy_eq_ok.1 h
  have hprograms : programsOf (env.dispatcher arguments) = programs := by
    rw [programsOf, hel.getPrograms]
  refine ⟨_, ha, congrArg (FpgaBridge.performAll · _) (deployed_hw _ _ _ _), fun c hc => ?_⟩
  rw [programmedInputs, hprograms] at hc
  exact (InputAction.constantRequests_isInfix env.platform hc _).trans
    (inputRequests_isInfix (s := prepared env arguments programs slots s) ..)

/-- One program with one constant input. -/
def oneInput : Environment Unit :=
  .of (fun _ => .returning
    [⟨"core", 0, 0, 0, 1, [], ⟨10, 0⟩,
      [⟨"k", .constantInput, [3], [.words [5]], ⟨.typeInteger, 32, false⟩, .sine⟩]⟩] []) fun _ => 1

/-- After a history of deployments and a last one, an update makes the writes of the input that
the last one programmed under its core, name and channel just when none of the history
programmed one there. -/
theorem set_input_iff {hw : FpgaBridge} {addresses : LogicLayout} {clock : {f : ℚ // 0 < f}}
    {history : List Spec} {s : HilDeployer} {u : PUnit}
    (hhistory : (forM history (deploy env)).run (construct hw addresses clock) = .ok u s)
    {arguments : Spec} {v : Unit} {s' : HilDeployer}
    (hlast : (deploy env arguments).run s = .ok v s')
    (honce : ((programmedInputs addresses (env.dispatcher arguments)).map InputSetup.key).Nodup)
    (core name : String) {channel : Nat} (hchannel : channel < 2 ^ 16) (value : ℚ) :
    (∃ rs, s'.hw = (reset (env.hash arguments) s).hw.performAll rs ∧
      ∀ c ∈ programmedInputs addresses (env.dispatcher arguments), c.constantRequests <:+: rs) ∧
    (∀ w s'', (setInput env core name channel value).run s' = .ok w s'' ↔
      s'.hw.Admits (setInputRequests env.platform core name channel value s') ∧
        s'' = s'.emit (setInputRequests env.platform core name channel value s')) ∧
    ((s'.hw.Admits (setInputRequests env.platform core name channel value s') ∧
      AddressesCurrent env.platform value
        (programmedInputs addresses (env.dispatcher arguments)) (core, name, channel)
        (setInputRequests env.platform core name channel value s')) ↔
      ∀ a ∈ history, ∀ c ∈ programmedInputs addresses (env.dispatcher a),
        c.key ≠ (core, name, channel)) := by
  obtain ⟨haddresses, hinputs⟩ := deploy_history_inputs hhistory
  have haddresses : s.addresses = addresses := haddresses
  obtain ⟨-, hinputs'⟩ := deploy_inputs hlast
  obtain ⟨rs, hadmits, hhw, hmem⟩ := deploy_constantRequests hlast
  rw [haddresses] at hinputs' hmem
  have hall : s'.inputs = ((history.flatMap fun a =>
      programmedInputs addresses (env.dispatcher a)) ++
        programmedInputs addresses (env.dispatcher arguments)).map (·.metadata) := by
    rw [hinputs', hinputs, List.map_append, List.map_flatMap]
    rfl
  have hiff := addressesCurrent_iff env.platform value
    (history.flatMap fun a => programmedInputs addresses (env.dispatcher a)) honce
    (core, name, channel)
  rw [← setInputRequests_eq hchannel value hall, List.forall_mem_flatMap] at hiff
  refine ⟨⟨rs, hhw, hmem⟩, fun _ _ => setInput_eq_ok,
    ⟨fun h => hiff.1 h.2, fun h => ⟨?_, hiff.2 h⟩⟩⟩
  -- the registers are those that the last deployment wrote
  by_cases hc : ∃ c ∈ programmedInputs addresses (env.dispatcher arguments),
      c.key = (core, name, channel)
  · obtain ⟨c, hc, hkey⟩ := hc
    rw [(hiff.2 h).1 c hc hkey]
    refine c.admits_updateRequests env.platform value fun r hr => ?_
    have hadmits' : s'.hw.Admits rs := hhw ▸ (FpgaBridge.admits_performAll _ _ _).2 hadmits
    exact hadmits' r ((hmem c hc).subset hr)
  · rw [(hiff.2 h).2 fun c hmem hkey => hc ⟨c, hmem, hkey⟩]
    exact FpgaBridge.admits_nil _

/-- The program with a constant input of the name that the specification is. -/
def inputNamed : Environment String :=
  .of (fun name => .returning
    [⟨"core", 0, 0, 0, 1, [], ⟨10, 0⟩,
      [⟨name, .constantInput, [3], [.words [5]], ⟨.typeInteger, 32, false⟩, .sine⟩]⟩] []) fun _ => 1

/-- An earlier deployment programmed an input of another name. -/
theorem set_input_after_other : ∃ u s v s',
    (forM ["j"] (deploy inputNamed)).run fresh = .ok u s ∧
    (deploy inputNamed "k").run s = .ok v s' ∧
    AddressesCurrent inputNamed.platform 7
      (programmedInputs fresh.addresses (inputNamed.dispatcher "k")) ("core", "k", 0)
      (setInputRequests inputNamed.platform "core" "k" 0 7 s') := by
  obtain ⟨u, s, hhistory, hreturns⟩ : ∃ u s,
      (forM ["j"] (deploy inputNamed)).run fresh = .ok u s ∧
        Exec.returnsIn (fun _ => True) (deploy inputNamed "k") s = true :=
    Exec.exists_of_returnsIn (by decide +kernel)
  obtain ⟨v, s', hlast, -⟩ := Exec.exists_of_returnsIn hreturns
  have honce : ((programmedInputs fresh.addresses (inputNamed.dispatcher "k")).map
    InputSetup.key).Nodup := by decide +kernel
  have hearlier : ∀ a ∈ ["j"], ∀ c ∈ programmedInputs fresh.addresses (inputNamed.dispatcher a),
    c.key ≠ ("core", "k", 0) := by decide +kernel
  have hchannel : 0 < 2 ^ 16 := by decide
  have h := set_input_iff hhistory hlast honce "core" "k" hchannel 7
  exact ⟨u, s, v, s', hhistory, hlast, (h.2.2.2 hearlier).2⟩

/-- After two deployments of the same specification an update makes six writes. -/
theorem set_input_after_two : ∃ u s', (forM [(), ()] (deploy oneInput)).run fresh = .ok u s' ∧
    Exec.returnsIn (fun s'' => s''.hw.busses.operations.length =
      s'.hw.busses.operations.length + 6) (setInput oneInput "core" "k" 0 7) s' = true :=
  Exec.exists_of_returnsIn (by decide +kernel)

end HilDeployer

end UscopeDriver
