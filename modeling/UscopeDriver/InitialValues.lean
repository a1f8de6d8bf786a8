import UscopeDriver.HilWrites

/-!
# Interconnect initial values

The stage that fills `ivs`. For each slot, each deployed program of the destination's name and
each of its inputs of the destination's name, the words of that input are stored under the
source of the slot (`ivAssignment`). The last assignment to a source wins, and a source without
any keeps what an earlier deployment left there (`setupInterconnectIv_eq_ok`).
-/

namespace UscopeDriver

namespace HilDeployer

open LastWrite

/-- A destination of a slot : the program and the input. -/
structure Destination where
  slot : DeployerInterconnectSlot
  program : DeployedProgram
  input : DeployedCoreInputs
  deriving DecidableEq, Repr

/-- The destinations of the slots, in the order of the three loops. -/
def destinations (slots : List DeployerInterconnectSlot) (programs : List DeployedProgram) :
    List Destination :=
  slots.flatMap fun slot =>
    (programs.filter (·.name = slot.destinationId)).flatMap fun p =>
      (p.inputs.filter (·.name = slot.destinationName)).map fun input => ⟨slot, p, input⟩

/-- The data entries of an input, a single one for each channel. -/
def initialData (p : DeployedProgram) (input : DeployedCoreInputs) : List InitialData :=
  if input.data.length = 1 ∧ p.nChannels > 1 then
    input.data.flatMap (List.replicate p.nChannels.toNat)
  else input.data

/-- The words of an input. -/
def initialValue (p : DeployedProgram) (input : DeployedCoreInputs) : List Nat :=
  (initialData p input).map fun data => (data.toWords.headD 0).toNat

/-- Every data entry has a word. -/
def HasWords (d : Destination) : Prop :=
  ∀ data ∈ d.input.data, data.toWords ≠ []

/-- The initial value of a destination, under the name of its source. -/
def ivAssignment (d : Destination) : (String × String) × List Nat :=
  ((d.slot.sourceId, d.slot.sourceName), initialValue d.program d.input)

/-- What the specification gives to a source, if anything. -/
def specIvs (slots : List DeployerInterconnectSlot) (programs : List DeployedProgram)
    (sourceId sourceName : String) : Option (List Nat) :=
  lastValue ((destinations slots programs).map ivAssignment) (sourceId, sourceName)

/-- The initial values after the stage. -/
def mergedIvs (ivs : String → String → Option (List Nat)) (slots : List DeployerInterconnectSlot)
    (programs : List DeployedProgram) (sourceId sourceName : String) : Option (List Nat) :=
  (specIvs slots programs sourceId sourceName).or (ivs sourceId sourceName)

/-- The first words exist exactly if no entry is empty. -/
theorem firstWords_eq_ok {σ : Type} {l : List InitialData} {ws : List Nat} {s s' : σ} :
    (firstWords l).run s = .ok ws s' ↔
      (∀ data ∈ l, data.toWords ≠ []) ∧ ws = l.map (fun data => (data.toWords.headD 0).toNat) ∧
        s' = s := by
  induction l generalizing ws s' with
  | nil =>
    rw [firstWords, Exec.pure_eq_ok]
    simp
  | cons data l ih =>
    simp only [firstWords, firstWord, Exec.bind_eq_ok, index_zero_eq_ok (0 : UInt32),
      Exec.pure_eq_ok, ih, and_assoc, exists_and_left, exists_eq_left, List.forall_mem_cons,
      List.map_cons]

/-- The initial value of an input exists exactly if no entry is empty. -/
theorem initialWords_eq_ok {σ : Type} {p : DeployedProgram} {input : DeployedCoreInputs}
    {ws : List Nat} {s s' : σ} :
    (initialWords p input).run s = .ok ws s' ↔
      (∀ data ∈ input.data, data.toWords ≠ []) ∧ ws = initialValue p input ∧ s' = s := by
  unfold initialWords initialValue initialData
  split_ifs with h
  · rw [firstWords_eq_ok]
    have hn : p.nChannels.toNat ≠ 0 := by
      have := UInt32.lt_iff_toNat_lt.1 h.2
      omega
    simp [hn]
  · exact firstWords_eq_ok

/-- The stage as one loop over the destinations. -/
theorem setupInterconnectIv_eq {dispatcher : EmulatorDispatcher}
    {slots : List DeployerInterconnectSlot} (hs : dispatcher.getInterconnectSlots = .ok slots)
    (programs : List DeployedProgram) :
    setupInterconnectIv dispatcher programs =
      forM (destinations slots programs) fun d => storeInitialValue d.slot d.program d.input := by
  unfold setupInterconnectIv destinations
  rw [hs]
  simp only [callDispatcher, pure_bind, Exec.forM_flatMap, List.forM_map]

/-- The stage stores one initial value. -/
def recordIv (d : Destination) (s : HilDeployer) : HilDeployer :=
  { s with
    ivs := Function.update s.ivs d.slot.sourceId
      (Function.update (s.ivs d.slot.sourceId) d.slot.sourceName
        (some (initialValue d.program d.input))) }

/-- To store the value of a destination is a round. -/
theorem round_storeInitialValue :
    Drives.Round (fun d : Destination => storeInitialValue d.slot d.program d.input)
      (fun d _ => HasWords d) (fun _ _ => []) recordIv where
  run := by
    intro d s u s'
    simp only [storeInitialValue, Exec.bind_eq_ok, initialWords_eq_ok, Exec.modify_eq_ok,
      and_assoc, exists_and_left, exists_eq_left, FpgaBridge.admits_nil, true_and, drives_emit,
      emit_nil]
    rfl
  record := fun _ => ⟨fun _ => rfl, fun _ _ => rfl⟩
  guard_emit := fun _ _ _ => Iff.rfl
  requests_emit := fun _ _ _ => rfl

/-- The table of two keys with one entry changed. -/
theorem update_update_apply (ivs : String → String → Option (List Nat)) (id name : String)
    (iv : Option (List Nat)) (id' name' : String) :
    Function.update ivs id (Function.update (ivs id) name iv) id' name' =
      if (id', name') = (id, name) then iv else ivs id' name' := by
  by_cases hid : id' = id
  · subst hid
    by_cases hname : name' = name <;> simp [hname]
  · simp [hid]

/-- The values of the destinations are stored one after the other. -/
theorem foldl_recordIv (ds : List Destination) (s : HilDeployer) :
    ds.foldl (fun t d => recordIv d t) s = { s with
      ivs := fun id name => (lastValue (ds.map ivAssignment) (id, name)).or (s.ivs id name) } := by
  induction ds using List.reverseRecOn with
  | nil => simp
  | append_singleton ds d ih =>
    rw [List.foldl_concat, ih]
    unfold recordIv
    congr 2
    funext id name
    rw [update_update_apply, List.map_append, List.map_singleton, lastValue_concat, ivAssignment]
    split_ifs <;> rfl

/-- What the stage records. -/
def recordIvs (slots : List DeployerInterconnectSlot) (programs : List DeployedProgram)
    (s : HilDeployer) : HilDeployer :=
  { s with ivs := mergedIvs s.ivs slots programs }

/-- The stage stores the values exactly if no entry is empty. -/
theorem setupInterconnectIv_eq_ok {dispatcher : EmulatorDispatcher}
    {slots : List DeployerInterconnectSlot} (hs : dispatcher.getInterconnectSlots = .ok slots)
    {programs : List DeployedProgram} {s s' : HilDeployer} {u : Unit} :
    (setupInterconnectIv dispatcher programs).run s = .ok u s' ↔
      (∀ d ∈ destinations slots programs, HasWords d) ∧
        s' = recordIvs slots programs s := by
  rw [setupInterconnectIv_eq hs,
    round_storeInitialValue.forM_emit_uniform (fun _ _ _ => Iff.rfl) (fun _ _ _ => rfl),
    List.flatMap_eq_nil_iff.2 fun _ _ => rfl, foldl_recordIv]
  simp only [FpgaBridge.admits_nil, true_and, drives_emit, emit_nil]
  rfl

end HilDeployer

end UscopeDriver
