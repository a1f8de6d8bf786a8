import UscopeDriver.LiveInputs
import Mathlib.Data.List.ProdSigma
import Mathlib.Data.List.Nodup
import Mathlib.Data.List.Pairwise

/-!
# The constants of a deployment

The inputs stage programs each channel of each constant or time series input once
(`programs_constants`), where an input has one entry or one for each channel. The random and
waveform inputs in between do not count for the selectors. A program without channels is set up
like one with a single channel.
-/

namespace UscopeDriver

namespace InputAction

open HilDeployer (channelName)

/-! ## The setups of one program -/

/-- The input that channel `j` is set up with : its only entry, or the entries from `j` on. -/
def channelInput (input : DeployedCoreInputs) (j : Nat) : DeployedCoreInputs :=
  if input.data.length = 1 then input else { input with data := input.data.drop j }

/-- The setups of the `k`-th constant of a program, one for each channel. -/
def channelSetups (addresses : LogicLayout) (p : DeployedProgram)
    (input : DeployedCoreInputs × Nat) : List InputSetup :=
  (List.range (max p.nChannels.toNat 1)).map fun j =>
    ⟨channelInput input.1 j, HilDeployer.inputIpAddress addresses p input.1.sourceType, input.2, j,
      p.name, 1 < p.nChannels⟩

/-- One data entry, or one for each of several channels. -/
def EntriesMatch (p : DeployedProgram) (input : DeployedCoreInputs) : Prop :=
  input.data.length = 1 ∨ 1 < p.nChannels ∧ input.data.length = p.nChannels.toNat

theorem constantSetups_append (as bs : List InputAction) :
    constantSetups (as ++ bs) = constantSetups as ++ constantSetups bs :=
  List.filterMap_append

theorem constantSetups_flatMap {β : Type} (f : β → List InputAction) (xs : List β) :
    constantSetups (xs.flatMap f) = xs.flatMap fun x => constantSetups (f x) :=
  List.filterMap_flatMap

/-- A constant input sets up one engine for a channel. -/
theorem constantSetups_ofChannel {p : DeployedProgram} {input : DeployedCoreInputs}
    (h : input.sourceType.IsConstant) (ip k j : Nat) :
    constantSetups (ofChannel p input ip k j) = [⟨input, ip, k, j, p.name, true⟩] := by
  simp [constantSetups, ofChannel, h]

/-- An input that is not a constant sets none up. -/
theorem constantSetups_ofInput_of_not {input : DeployedCoreInputs}
    (h : ¬input.sourceType.IsConstant) (addresses : LogicLayout) (p : DeployedProgram) (k : Nat) :
    constantSetups (ofInput addresses p k input) = [] := by
  rw [constantSetups, List.filterMap_eq_nil_iff]
  rintro (c | ⟨path, idx⟩ | _) ha
  · have htype := congrArg (·.sourceType) (HilDeployer.input_of_setup_mem ha).1
    exact if_neg (by rwa [htype])
  · rfl
  · rfl

/-- The channels of a constant are set up in order, each with what is left of its data. -/
theorem constantSetups_ofInput {p : DeployedProgram} {input : DeployedCoreInputs}
    (h : input.sourceType.IsConstant) (hentries : EntriesMatch p input) (addresses : LogicLayout)
    (k : Nat) :
    constantSetups (ofInput addresses p k input) = channelSetups addresses p (input, k) := by
  unfold ofInput channelSetups
  set ip := HilDeployer.inputIpAddress addresses p input.sourceType
  by_cases hn : p.nChannels > 1
  · have hpos : 1 < p.nChannels.toNat := UInt32.lt_iff_toNat_lt.1 hn
    have hmax : max p.nChannels.toNat 1 = p.nChannels.toNat := by omega
    have hlabel : ∀ path idx, constantSetups [.label path idx] = [] := fun _ _ => rfl
    rw [if_pos hn, constantSetups_append, hlabel, List.append_nil, hmax, decide_eq_true hn,
      ofMultichannelInput]
    rcases hentries with hone | ⟨-, hall⟩
    · have hbranch : ¬input.data.length > 1 := by omega
      have hchannels : constantSetups ((List.range p.nChannels.toNat).flatMap
          (ofChannel p input ip k)) = (List.range p.nChannels.toNat).map fun j =>
            ⟨channelInput input j, ip, k, j, p.name, true⟩ := by
        simp only [constantSetups_flatMap, constantSetups_ofChannel h, List.map_eq_flatMap,
          channelInput, if_pos hone]
      rw [if_neg hbranch]
      rcases h with hs | hs <;> rw [hs] <;> simpa only [if_pos hone] using hchannels
    · have hne : ¬input.data.length = 1 := by omega
      have hbranch : input.data.length > 1 := by omega
      rw [if_pos hbranch, hall, constantSetups_flatMap, List.map_eq_flatMap]
      refine List.flatMap_congr fun j _ => ?_
      rw [channelInput, if_neg hne]
      exact @constantSetups_ofChannel p { input with data := input.data.drop j } h ip k j
  · have hmax : max p.nChannels.toNat 1 = 1 := by
      have := UInt32.lt_iff_toNat_lt.not.1 hn
      have hval : (1 : UInt32).toNat = 1 := rfl
      omega
    have hone : input.data.length = 1 := hentries.resolve_right fun hmany => hn hmany.1
    rw [if_neg hn, hmax]
    simp [constantSetups, h, channelInput, hone, hn]

/-- The engines of a program, by input and channel. -/
theorem constantSetups_ofInputs {p : DeployedProgram} (addresses : LogicLayout)
    {inputs : List DeployedCoreInputs}
    (h : ∀ input ∈ inputs, input.sourceType.IsConstant → EntriesMatch p input) (k : Nat) :
    constantSetups (ofInputs addresses p k inputs) =
      ((inputs.filter (·.sourceType.IsConstant)).zipIdx k).flatMap (channelSetups addresses p) := by
  induction inputs generalizing k with
  | nil => rfl
  | cons input rest ih =>
    rw [List.forall_mem_cons] at h
    rw [ofInputs, constantSetups_append, ih h.2, List.filter_cons]
    by_cases hc : input.sourceType.IsConstant
    · rw [constantSetups_ofInput hc (h.1 hc), if_pos hc, if_pos (decide_eq_true hc),
        List.zipIdx_cons, List.flatMap_cons]
    · rw [constantSetups_ofInput_of_not hc, if_neg hc, if_neg (by simpa using hc), List.nil_append]

/-- The constant and time series inputs of a program. -/
def constantInputsOf (dispatcher : EmulatorDispatcher) (p : DeployedProgram) :
    List DeployedCoreInputs :=
  (HilDeployer.inputsOf dispatcher p.name).filter (·.sourceType.IsConstant)

/-- The random inputs do not count. -/
theorem constantSetups_ofProgram (addresses : LogicLayout) {dispatcher : EmulatorDispatcher}
    {p : DeployedProgram} (h : ∀ input ∈ constantInputsOf dispatcher p, EntriesMatch p input) :
    constantSetups (ofProgram addresses (HilDeployer.inputsOf dispatcher) p) =
      (constantInputsOf dispatcher p).zipIdx.flatMap (channelSetups addresses p) := by
  have hrandom : constantSetups [.enableRandom] = [] := rfl
  rw [ofProgram, constantSetups_append, hrandom, List.append_nil]
  exact constantSetups_ofInputs addresses
    (fun input hinput hc => h input (List.mem_filter.2 ⟨hinput, decide_eq_true hc⟩)) 0

/-- The engines of all programs. -/
theorem constantSetups_inputActions (addresses : LogicLayout) {dispatcher : EmulatorDispatcher}
    {programs : List DeployedProgram}
    (h : ∀ p ∈ programs, ∀ input ∈ constantInputsOf dispatcher p, EntriesMatch p input) :
    constantSetups (HilDeployer.inputActions addresses dispatcher programs) =
      programs.flatMap fun p =>
        (constantInputsOf dispatcher p).zipIdx.flatMap (channelSetups addresses p) := by
  rw [HilDeployer.inputActions, constantSetups_flatMap]
  exact List.flatMap_congr fun p hp => constantSetups_ofProgram addresses (h p hp)

/-! ## The writes of the stage -/

/-- The action is a call of `setup_input` for a constant or time series input. -/
def isConstant : InputAction → Bool
  | .setup c => c.input.sourceType.IsConstant
  | _ => false

/-- The requests of the stage in order, each with whether it programs a constant. -/
def taggedRequests (pl : Platform) : List InputAction → HilDeployer → List (Bool × Request)
  | [], _ => []
  | a :: actions, s =>
    (a.requests pl s).map (Prod.mk a.isConstant) ++ taggedRequests pl actions (a.record s)

/-- Without their tags these are the requests of the actions. -/
theorem map_snd_taggedRequests (pl : Platform) (actions : List InputAction) (s : HilDeployer) :
    (taggedRequests pl actions s).map Prod.snd = requestsOf pl actions s := by
  induction actions generalizing s with
  | nil => rfl
  | cons a actions ih =>
    have hcons : requestsOf pl (a :: actions) s =
      a.requests pl s ++ requestsOf pl actions (a.record s) := rfl
    rw [taggedRequests, List.map_append, ih, List.map_map, hcons]
    simp

/-- The requests that program a constant are those of the constants, in order. -/
theorem filter_taggedRequests (pl : Platform) (actions : List InputAction) (s : HilDeployer) :
    ((taggedRequests pl actions s).filter Prod.fst).map Prod.snd =
      (constantSetups actions).flatMap (·.constantRequests) := by
  induction actions generalizing s with
  | nil => rfl
  | cons a actions ih =>
    have hcons : constantSetups (a :: actions) = constantSetups [a] ++ constantSetups actions :=
      constantSetups_append [a] actions
    rw [taggedRequests, List.filter_append, List.map_append, ih, hcons, List.flatMap_append]
    congr 1
    rcases a with c | ⟨path, idx⟩ | _
    · by_cases hc : c.input.sourceType.IsConstant
      · have hrequests : InputAction.requests pl s (.setup c) = c.constantRequests :=
          c.requests_of_isConstant pl hc s.toDeployerBase
        simp [hrequests, List.filter_map, Function.comp_def, isConstant, constantSetups, hc]
      · simp [List.filter_map, Function.comp_def, isConstant, constantSetups, hc]
    · rfl
    · simp [List.filter_map, Function.comp_def, isConstant, constantSetups]

/-! ## The labels of the stage -/

/-- The labels whose core index the actions set. -/
def labelsOf (actions : List InputAction) : List String :=
  actions.filterMap fun
    | .label path _ => some path
    | _ => none

/-- Every constant is followed by its label, and all labels get the core index `idx`. -/
inductive Labels (idx : Nat) : List InputAction → Prop
  | nil : Labels idx []
  | channel {c : InputSetup} {actions : List InputAction} (h : Labels idx actions) :
      Labels idx (.setup c :: .label c.path idx :: actions)
  | setup {c : InputSetup} {actions : List InputAction} (hc : ¬c.input.sourceType.IsConstant)
      (h : Labels idx actions) : Labels idx (.setup c :: actions)
  | label {path : String} {actions : List InputAction} (h : Labels idx actions) :
      Labels idx (.label path idx :: actions)
  | enableRandom {actions : List InputAction} (h : Labels idx actions) :
      Labels idx (.enableRandom :: actions)

theorem Labels.append {idx : Nat} {as bs : List InputAction} (ha : Labels idx as)
    (hb : Labels idx bs) : Labels idx (as ++ bs) := by
  induction ha with
  | nil => exact hb
  | channel _ ih => exact .channel ih
  | setup hc _ ih => exact .setup hc ih
  | label _ ih => exact .label ih
  | enableRandom _ ih => exact .enableRandom ih

theorem Labels.flatMap {idx : Nat} {β : Type} {f : β → List InputAction} {xs : List β}
    (h : ∀ x ∈ xs, Labels idx (f x)) : Labels idx (xs.flatMap f) := by
  induction xs with
  | nil => exact .nil
  | cons x xs ih =>
    rw [List.forall_mem_cons] at h
    exact h.1.append (ih h.2)

theorem labels_ofChannel (p : DeployedProgram) (input : DeployedCoreInputs) (ip k j : Nat) :
    Labels p.index.toNat (ofChannel p input ip k j) :=
  .channel (c := ⟨input, ip, k, j, p.name, true⟩) .nil

theorem labels_ofMultichannelInput (p : DeployedProgram) (input : DeployedCoreInputs)
    (ip k : Nat) : Labels p.index.toNat (ofMultichannelInput p input ip k) := by
  have hsetups (hc : ¬input.sourceType.IsConstant) : Labels p.index.toNat
      ((List.range p.nChannels.toNat).map fun j => .setup ⟨input, ip, k, j, p.name, true⟩) := by
    rw [List.map_eq_flatMap]
    exact .flatMap fun j _ => .setup hc .nil
  have hchannels : Labels p.index.toNat (if input.data.length = 1 then
      (List.range p.nChannels.toNat).flatMap (ofChannel p input ip k) else []) := by
    split_ifs
    · exact .flatMap fun j _ => labels_ofChannel p input ip k j
    · exact .nil
  unfold ofMultichannelInput
  by_cases hd : input.data.length > 1
  · rw [if_pos hd]
    exact .flatMap fun j _ => labels_ofChannel p _ ip k j
  · rw [if_neg hd]
    cases hs : input.sourceType with
    | randomInput => exact hsetups (by rw [hs]; decide)
    | waveformInput => exact hsetups (by rw [hs]; decide)
    | constantInput => exact hchannels
    | timeSeriesInput => exact hchannels
    | external => exact .nil

theorem labels_ofInput (addresses : LogicLayout) (p : DeployedProgram) (k : Nat)
    (input : DeployedCoreInputs) : Labels p.index.toNat (ofInput addresses p k input) := by
  unfold ofInput
  split_ifs with hn
  · exact (labels_ofMultichannelInput p input _ k).append (.label .nil)
  · exact .channel (c := ⟨input, _, k, 0, p.name, false⟩) .nil

/-- All labels of a program have the index of its core. -/
theorem labels_ofProgram (addresses : LogicLayout) (inputs : String → List DeployedCoreInputs)
    (p : DeployedProgram) : Labels p.index.toNat (ofProgram addresses inputs p) := by
  have hinputs : ∀ (rest : List DeployedCoreInputs) (k : Nat),
      Labels p.index.toNat (ofInputs addresses p k rest) := by
    intro rest
    induction rest with
    | nil => exact fun _ => .nil
    | cons input rest ih => exact fun k => (labels_ofInput addresses p k input).append (ih _)
  exact (hinputs _ 0).append (.enableRandom .nil)

/-- The path of a constant is one of the labels. -/
theorem Labels.path_mem {idx : Nat} {actions : List InputAction} (h : Labels idx actions)
    {c : InputSetup} (hc : c ∈ constantSetups actions) : c.path ∈ labelsOf actions := by
  induction h with
  | nil => exact absurd hc List.not_mem_nil
  | @channel c' actions _ ih =>
    change c.path ∈ c'.path :: labelsOf actions
    by_cases hc' : c'.input.sourceType.IsConstant
    · have hcons : constantSetups (.setup c' :: .label c'.path idx :: actions) =
          c' :: constantSetups actions := by simp [constantSetups, hc']
      rw [hcons] at hc
      rcases List.mem_cons.1 hc with rfl | hc
      · exact List.mem_cons_self
      · exact List.mem_cons_of_mem _ (ih hc)
    · have hcons : constantSetups (.setup c' :: .label c'.path idx :: actions) =
          constantSetups actions := by simp [constantSetups, hc']
      exact List.mem_cons_of_mem _ (ih (hcons ▸ hc))
  | @setup c' actions hc' _ ih =>
    have hcons : constantSetups (.setup c' :: actions) = constantSetups actions := by
      simp [constantSetups, hc']
    exact ih (hcons ▸ hc)
  | label _ ih => exact List.mem_cons_of_mem _ (ih hc)
  | enableRandom _ ih => exact ih hc

/-- What a setup leaves in the labels. -/
theorem inputsLabels_record_setup (c : InputSetup) (s : HilDeployer) :
    (InputAction.record s (.setup c)).inputsLabels =
      if c.input.sourceType.IsConstant then
        s.inputsLabels.insert c.path ⟨u64 (c.ipAddress + constLsb), c.dest, c.selector, 0⟩
      else s.inputsLabels := by
  simp only [InputAction.record, InputSetup.record]
  cases c.input.sourceType <;> rfl

/-- A setup changes the entry of its own path only. -/
theorem getElem?_record_setup {c : InputSetup} {path : String} (h : path ≠ c.path)
    (s : HilDeployer) :
    (InputAction.record s (.setup c)).inputsLabels[path]? = s.inputsLabels[path]? := by
  rw [inputsLabels_record_setup]
  split_ifs
  · rw [Std.TreeMap.getElem?_insert, if_neg]
    rw [Std.LawfulEqCmp.compare_eq_iff_eq]
    exact Ne.symm h
  · rfl

/-- A label changes the core index of its entry only. -/
theorem getElem?_record_label {path path' : String} {idx : Nat} {s : HilDeployer}
    {tb : TbInputAddresses}
    (h : (InputAction.record s (.label path' idx)).inputsLabels[path]? = some tb) :
    path = path' ∧ tb.coreIdx = idx ∨ path ≠ path' ∧ s.inputsLabels[path]? = some tb := by
  simp only [InputAction.record, Std.TreeMap.getElem?_modify,
    Std.LawfulEqCmp.compare_eq_iff_eq] at h
  by_cases hpath : path' = path
  · rw [if_pos hpath] at h
    obtain ⟨tb', -, rfl⟩ := Option.map_eq_some_iff.1 h
    exact Or.inl ⟨hpath.symm, rfl⟩
  · rw [if_neg hpath] at h
    exact Or.inr ⟨Ne.symm hpath, h⟩

/-- After the actions, a labelled entry has the core index, and the others are as before. -/
theorem Labels.getElem?_recordAll {idx : Nat} {actions : List InputAction}
    (h : Labels idx actions) {s : HilDeployer} {path : String} {tb : TbInputAddresses}
    (htb : (recordAll actions s).inputsLabels[path]? = some tb) :
    path ∈ labelsOf actions ∧ tb.coreIdx = idx ∨
      path ∉ labelsOf actions ∧ s.inputsLabels[path]? = some tb := by
  induction h generalizing s with
  | nil => exact Or.inr ⟨List.not_mem_nil, htb⟩
  | @channel c actions _ ih =>
    change path ∈ c.path :: labelsOf actions ∧ _ ∨ path ∉ c.path :: labelsOf actions ∧ _
    rcases ih htb with ⟨hmem, hidx⟩ | ⟨hmem, hlabels⟩
    · exact Or.inl ⟨List.mem_cons_of_mem _ hmem, hidx⟩
    · rcases getElem?_record_label hlabels with ⟨rfl, hidx⟩ | ⟨hne, hlabels⟩
      · exact Or.inl ⟨List.mem_cons_self, hidx⟩
      · rw [getElem?_record_setup hne] at hlabels
        exact Or.inr ⟨List.not_mem_cons_of_ne_of_not_mem hne hmem, hlabels⟩
  | @setup c actions hc _ ih =>
    rcases ih htb with h | ⟨hmem, hlabels⟩
    · exact Or.inl h
    · rw [inputsLabels_record_setup, if_neg hc] at hlabels
      exact Or.inr ⟨hmem, hlabels⟩
  | @label path' actions _ ih =>
    change path ∈ path' :: labelsOf actions ∧ _ ∨ path ∉ path' :: labelsOf actions ∧ _
    rcases ih htb with ⟨hmem, hidx⟩ | ⟨hmem, hlabels⟩
    · exact Or.inl ⟨List.mem_cons_of_mem _ hmem, hidx⟩
    · rcases getElem?_record_label hlabels with ⟨rfl, hidx⟩ | ⟨hne, hlabels⟩
      · exact Or.inl ⟨List.mem_cons_self, hidx⟩
      · exact Or.inr ⟨List.not_mem_cons_of_ne_of_not_mem hne hmem, hlabels⟩
  | enableRandom _ ih => exact ih htb

/-- An entry that is there stays. -/
theorem isSome_record {a : InputAction} {s : HilDeployer} {path : String}
    (h : s.inputsLabels[path]?.isSome) : (a.record s).inputsLabels[path]?.isSome := by
  rcases a with c | ⟨path', idx⟩ | _
  · rw [inputsLabels_record_setup]
    split_ifs
    · rw [Std.TreeMap.getElem?_insert]
      split_ifs
      · rfl
      · exact h
    · exact h
  · simp only [InputAction.record, Std.TreeMap.getElem?_modify]
    split_ifs with hpath
    · rw [Std.LawfulEqCmp.compare_eq_iff_eq] at hpath
      rw [Option.isSome_map, hpath]
      exact h
    · exact h
  · exact h

/-- A label stays a label. -/
theorem isSome_recordAll {actions : List InputAction} {s : HilDeployer} {path : String}
    (h : s.inputsLabels[path]?.isSome) :
    (recordAll actions s).inputsLabels[path]?.isSome := by
  induction actions generalizing s with
  | nil => exact h
  | cons a actions ih => exact ih (isSome_record h)

/-- A constant that is set up has its entry. -/
theorem isSome_of_mem_constantSetups {actions : List InputAction} {c : InputSetup}
    (hc : c ∈ constantSetups actions) (s : HilDeployer) :
    (recordAll actions s).inputsLabels[c.path]?.isSome := by
  induction actions generalizing s with
  | nil => exact absurd hc List.not_mem_nil
  | cons a actions ih =>
    obtain ⟨a', ha, hac⟩ := List.mem_filterMap.1 hc
    rcases List.mem_cons.1 ha with rfl | ha
    · refine @isSome_recordAll actions _ _ ?_
      rcases a' with c' | ⟨path, idx⟩ | _
      · obtain ⟨hconstant, rfl⟩ : c'.input.sourceType.IsConstant ∧ c' = c := by simpa using hac
        rw [inputsLabels_record_setup, if_pos hconstant, Std.TreeMap.getElem?_insert_self]
        rfl
      · simp at hac
      · simp at hac
    · exact ih (List.mem_filterMap.2 ⟨a', ha, hac⟩) (a.record s)

end InputAction

namespace HilDeployer

open InputAction

/-- The word for channel `j` : the first of entry `j`, or of the only entry. -/
def channelWord (input : DeployedCoreInputs) (j : Nat) : UInt32 :=
  (input.data.getD (if input.data.length = 1 then 0 else j) (.words [])).toWords.headD 0

/-- The writes for channel `j` of the `k`-th constant of a program. -/
def channelWrites (addresses : LogicLayout) (p : DeployedProgram)
    (input : DeployedCoreInputs × Nat) (j : Nat) : List Request :=
  let engine := addresses.bases.coresControl + addresses.offsets.coresControl * p.index.toNat +
    addresses.bases.coresInputs
  [regWrite (engine + constSelector) (input.2 + j * 2 ^ 16),
    regWrite (engine + constDest) ((input.1.address.headD 0).toNat + j * 2 ^ 16),
    regWrite (engine + constLsb) (channelWord input.1 j).toNat]

/-- The writes for all constants, by program, input and channel. -/
def constantWrites (addresses : LogicLayout) (dispatcher : EmulatorDispatcher)
    (programs : List DeployedProgram) (channels : DeployedProgram → Nat) : List Request :=
  programs.flatMap fun p => (constantInputsOf dispatcher p).zipIdx.flatMap fun input =>
    (List.range (channels p)).flatMap (channelWrites addresses p input)

/-- The selector has the channel in its upper half. -/
theorem regWrite_inputSelector (addr k j : Nat) :
    regWrite addr (DeployerBase.inputSelector k j) = regWrite addr (k + j * 2 ^ 16) := by
  rw [regWrite, regWrite, DeployerBase.inputSelector, Nat.shiftLeft_eq]
  congr 1
  unfold u32
  omega

/-- So has the destination. -/
theorem regWrite_inputDestination (addr j : Nat) (address : UInt32) :
    regWrite addr (DeployerBase.inputDestination address j) =
      regWrite addr (address.toNat + j * 2 ^ 16) :=
  regWrite_inputSelector addr address.toNat j

/-- The word that a setup of channel `j` writes. -/
theorem word_channelInput (input : DeployedCoreInputs) (j : Nat) :
    ((channelInput input j).data.headD (.words [])).toWords.headD 0 = channelWord input j := by
  unfold channelInput channelWord
  split_ifs with hone
  · rw [← headD_drop, List.drop_zero]
  · rw [headD_drop]

theorem channelInput_address (input : DeployedCoreInputs) (j : Nat) :
    (channelInput input j).address = input.address := by
  unfold channelInput
  split_ifs <;> rfl

theorem channelInput_name (input : DeployedCoreInputs) (j : Nat) :
    (channelInput input j).name = input.name := by
  unfold channelInput
  split_ifs <;> rfl

/-- The writes of an input are those of its channels. -/
theorem constantRequests_channelSetups (addresses : LogicLayout) (p : DeployedProgram)
    {input : DeployedCoreInputs × Nat} (h : input.1.sourceType.IsConstant) :
    (channelSetups addresses p input).flatMap (·.constantRequests) =
      (List.range (max p.nChannels.toNat 1)).flatMap (channelWrites addresses p input) := by
  have hip : inputIpAddress addresses p input.1.sourceType =
      u64 (addresses.bases.coresControl + addresses.offsets.coresControl * p.index.toNat +
        addresses.bases.coresInputs) := by
    have hmod : inputIpAddress addresses p .constantInput = u64 (addresses.bases.coresControl +
        addresses.offsets.coresControl * p.index.toNat + addresses.bases.coresInputs) := by
      simp only [inputIpAddress, controlAddress, u64, Nat.mod_add_mod]
    rcases h with hs | hs <;> rw [hs] <;> exact hmod
  rw [channelSetups, List.flatMap_map]
  refine List.flatMap_congr fun j _ => ?_
  simp only [InputSetup.constantRequests, InputSetup.selector, InputSetup.dest, InputSetup.word,
    word_channelInput, channelInput_address, hip, InputSetup.regWrite_u64_add,
    regWrite_inputSelector, regWrite_inputDestination, channelWrites]

/-- The selectors of the constants of a program, by input and channel. -/
def selectors (dispatcher : EmulatorDispatcher) (p : DeployedProgram) (channels : Nat) : List Nat :=
  (constantInputsOf dispatcher p).zipIdx.flatMap fun input =>
    (List.range channels).map fun j => u32 (input.2 + j * 2 ^ 16)

/-- No two channels of a program have the same selector. -/
theorem nodup_selectors {dispatcher : EmulatorDispatcher} {p : DeployedProgram} {channels : Nat}
    (hk : (constantInputsOf dispatcher p).length ≤ 2 ^ 16) (hn : channels ≤ 2 ^ 16) :
    (selectors dispatcher p channels).Nodup := by
  have hidx : (constantInputsOf dispatcher p).zipIdx.map Prod.snd =
      List.range (constantInputsOf dispatcher p).length := by
    rw [List.zipIdx_map_snd, List.range_eq_range']
  have hproduct : selectors dispatcher p channels =
      (List.range (constantInputsOf dispatcher p).length ×ˢ List.range channels).map
        fun x => u32 (x.1 + x.2 * 2 ^ 16) := by
    rw [selectors, ← hidx]
    simp only [SProd.sprod, List.product, List.flatMap_map, List.map_flatMap, List.map_map,
      Function.comp_def]
  rw [hproduct]
  refine List.Nodup.map_on ?_ (List.nodup_range.product List.nodup_range)
  rintro ⟨k, j⟩ hx ⟨k', j'⟩ hx' heq
  obtain ⟨hk₁, hj₁⟩ := List.mem_product.1 hx
  obtain ⟨hk₂, hj₂⟩ := List.mem_product.1 hx'
  rw [List.mem_range] at hk₁ hj₁ hk₂ hj₂
  rw [u32_of_lt (by omega), u32_of_lt (by omega)] at heq
  exact Prod.ext (by omega) (by omega)

/-! ## The stage -/

/-- The labels that the stage generates for the inputs of a program. -/
def generatedLabels (addresses : LogicLayout) (dispatcher : EmulatorDispatcher)
    (p : DeployedProgram) : List String :=
  labelsOf (ofProgram addresses (inputsOf dispatcher) p)

/-- After the stage, an entry with a label of a program has the index of such a program, and the
others are as before. -/
theorem getElem?_recordAll_inputActions {addresses : LogicLayout} {dispatcher : EmulatorDispatcher}
    {programs : List DeployedProgram} {s : HilDeployer} {path : String} {tb : TbInputAddresses}
    (htb : (recordAll (inputActions addresses dispatcher programs) s).inputsLabels[path]? =
      some tb) :
    (∃ p ∈ programs, path ∈ generatedLabels addresses dispatcher p ∧
        tb.coreIdx = p.index.toNat) ∨
      (∀ p ∈ programs, path ∉ generatedLabels addresses dispatcher p) ∧
        s.inputsLabels[path]? = some tb := by
  induction programs generalizing s with
  | nil => exact Or.inr ⟨fun _ h => absurd h List.not_mem_nil, htb⟩
  | cons p programs ih =>
    have hcons : recordAll (inputActions addresses dispatcher (p :: programs)) s =
        recordAll (inputActions addresses dispatcher programs)
          (recordAll (ofProgram addresses (inputsOf dispatcher) p) s) :=
      List.foldl_append
    rw [hcons] at htb
    rcases ih htb with ⟨q, hq, hmem, hidx⟩ | ⟨hnone, hlabels⟩
    · exact Or.inl ⟨q, List.mem_cons_of_mem _ hq, hmem, hidx⟩
    · rcases (labels_ofProgram addresses _ p).getElem?_recordAll hlabels with ⟨hmem, hidx⟩ |
        ⟨hmem, hlabels⟩
      · exact Or.inl ⟨p, List.mem_cons_self, hmem, hidx⟩
      · exact Or.inr ⟨List.forall_mem_cons.2 ⟨hmem, hnone⟩, hlabels⟩

/-- The stage from `s` to `s'` programs these numbers of channels of the constants : each once and
in order, with selectors apart, and with labels that lead to their core. -/
structure ProgramsConstants (pl : Platform) (dispatcher : EmulatorDispatcher)
    (programs : List DeployedProgram) (channels : DeployedProgram → Nat) (s s' : HilDeployer) :
    Prop where
  logged : s'.hw.busses.operations = s.hw.busses.operations ++ s.hw.logged
    ((taggedRequests pl (inputActions s.addresses dispatcher programs) s).map Prod.snd)
  constants :
    ((taggedRequests pl (inputActions s.addresses dispatcher programs) s).filter Prod.fst).map
      Prod.snd = constantWrites s.addresses dispatcher programs channels
  selectors : ∀ p ∈ programs, (constantInputsOf dispatcher p).length ≤ 2 ^ 16 →
    p.nChannels.toNat ≤ 2 ^ 16 → (selectors dispatcher p (channels p)).Nodup
  labelled : ∀ p ∈ programs, ∀ input ∈ constantInputsOf dispatcher p, ∀ j < channels p,
    DeployerBase.inputPath p.name input.name j (1 < p.nChannels) ∈
        generatedLabels s.addresses dispatcher p ∧
      s'.inputsLabels[DeployerBase.inputPath p.name input.name j (1 < p.nChannels)]?.isSome
  entries : ∀ path tb, s'.inputsLabels[path]? = some tb → s.inputsLabels[path]? = some tb ∨
    ∃ p ∈ programs, path ∈ generatedLabels s.addresses dispatcher p
  coreIdx : programs.Pairwise (fun p q => List.Disjoint
      (generatedLabels s.addresses dispatcher p) (generatedLabels s.addresses dispatcher q)) →
    ∀ p ∈ programs, ∀ path ∈ generatedLabels s.addresses dispatcher p, ∀ tb,
      s'.inputsLabels[path]? = some tb → tb.coreIdx = p.index.toNat

/-- Where every constant has one entry or one for each channel, every channel is programmed once. A
program without channels has one. -/
theorem programs_constants {pl : Platform} {dispatcher : EmulatorDispatcher}
    {programs : List DeployedProgram} {s s' : HilDeployer} {u : Unit}
    (hrun : (setupInputs pl dispatcher programs).run s = .ok u s')
    (hentries : ∀ p ∈ programs, ∀ input ∈ constantInputsOf dispatcher p, EntriesMatch p input) :
    ProgramsConstants pl dispatcher programs (fun p => max p.nChannels.toNat 1) s s' := by
  obtain ⟨-, hrun⟩ := setupInputs_eq_ok.1 hrun
  obtain ⟨-, -, rfl⟩ := forM_run_eq_ok.1 hrun
  refine ⟨?_, ?_, fun p _ hk hn => nodup_selectors hk (max_le hn (by norm_num)), ?_, ?_, ?_⟩
  · rw [map_snd_taggedRequests, emit_hw, recordAll_hw, FpgaBridge.performAll_operations]
  · rw [filter_taggedRequests, constantSetups_inputActions s.addresses hentries, constantWrites,
      List.flatMap_assoc]
    refine List.flatMap_congr fun p _ => ?_
    rw [List.flatMap_assoc]
    refine List.flatMap_congr fun input hinput => constantRequests_channelSetups _ _ ?_
    have hmem := List.mem_of_getElem? (List.mem_zipIdx_iff_getElem?.1 hinput)
    exact of_decide_eq_true (List.mem_filter.1 hmem).2
  · intro p hp input hinput j hj
    obtain ⟨k, hk⟩ := List.getElem?_of_mem hinput
    have hc : ⟨channelInput input j, inputIpAddress s.addresses p input.sourceType, k, j, p.name,
        1 < p.nChannels⟩ ∈ constantSetups (ofProgram s.addresses (inputsOf dispatcher) p) := by
      rw [constantSetups_ofProgram s.addresses (hentries p hp)]
      exact List.mem_flatMap.2 ⟨(input, k), List.mem_zipIdx_iff_getElem?.2 hk,
        List.mem_map.2 ⟨j, List.mem_range.2 hj, rfl⟩⟩
    have hpath : InputSetup.path ⟨channelInput input j,
        inputIpAddress s.addresses p input.sourceType, k, j, p.name, 1 < p.nChannels⟩ =
          DeployerBase.inputPath p.name input.name j (1 < p.nChannels) := by
      rw [InputSetup.path, channelInput_name]
    rw [← hpath]
    refine ⟨(labels_ofProgram s.addresses _ p).path_mem hc, ?_⟩
    refine @isSome_of_mem_constantSetups (inputActions s.addresses dispatcher programs) _ ?_ s
    rw [inputActions, constantSetups_flatMap]
    exact List.mem_flatMap.2 ⟨p, hp, hc⟩
  · intro path tb htb
    rcases getElem?_recordAll_inputActions htb with ⟨p, hp, hmem, -⟩ | ⟨-, hlabels⟩
    · exact Or.inr ⟨p, hp, hmem⟩
    · exact Or.inl hlabels
  · intro hdisjoint p hp path hmem tb htb
    rcases getElem?_recordAll_inputActions htb with ⟨q, hq, hmem', hidx⟩ | ⟨hnone, -⟩
    · by_cases hpq : p = q
      · rw [hpq, hidx]
      · have hsymm : Std.Symm fun p q : DeployedProgram => List.Disjoint
            (generatedLabels s.addresses dispatcher p) (generatedLabels s.addresses dispatcher q) :=
          ⟨fun _ _ h => h.symm⟩
        exact (hdisjoint.forall hp hq hpq hmem hmem').elim
    · exact absurd hmem (hnone p hp)

/-- A program with one constant. -/
def programWithConstant (nChannels : UInt32) (entries : List UInt32) : DeployedProgram :=
  ⟨"core", 1, 1, 100, nChannels, [], ⟨10, 2⟩, [⟨"in", .constantInput, [5],
    entries.map fun x => .words [x], ⟨.typeInteger, 32, false⟩, .sine⟩]⟩

/-- The toolchain for the program with one constant input. -/
def constantDispatcher (nChannels : UInt32) (entries : List UInt32) : EmulatorDispatcher :=
  .returning [programWithConstant nChannels entries] []

/-- One input with two entries, for two channels. -/
theorem programs_constants_of_two : ∃ u s',
    (setupInputs .zeros (constantDispatcher 2 [7, 8]) [programWithConstant 2 [7, 8]]).run fresh =
      .ok u s' ∧
    ProgramsConstants .zeros (constantDispatcher 2 [7, 8]) [programWithConstant 2 [7, 8]]
      (fun p => max p.nChannels.toNat 1) fresh s' := by
  obtain ⟨u, s', hrun, -⟩ : ∃ u s', (setupInputs .zeros (constantDispatcher 2 [7, 8])
      [programWithConstant 2 [7, 8]]).run fresh = .ok u s' ∧ True :=
    Exec.exists_of_returnsIn (by decide +kernel)
  refine ⟨u, s', hrun, programs_constants hrun fun p hp input hinput => ?_⟩
  obtain rfl := List.mem_singleton.1 hp
  have hinputs : constantInputsOf (constantDispatcher 2 [7, 8]) (programWithConstant 2 [7, 8]) =
    (programWithConstant 2 [7, 8]).inputs := rfl
  rw [hinputs] at hinput
  obtain rfl := List.mem_singleton.1 hinput
  exact Or.inr ⟨by decide, rfl⟩

/-- A program without channels has one channel programmed. -/
theorem programs_no_channels : ∃ u s',
    (setupInputs .zeros (constantDispatcher 0 [7]) [programWithConstant 0 [7]]).run fresh =
      .ok u s' ∧
    (∀ input ∈ constantInputsOf (constantDispatcher 0 [7]) (programWithConstant 0 [7]),
      EntriesMatch (programWithConstant 0 [7]) input) ∧
    ¬ProgramsConstants .zeros (constantDispatcher 0 [7]) [programWithConstant 0 [7]]
      (fun p => p.nChannels.toNat) fresh s' := by
  obtain ⟨u, s', hrun, -⟩ : ∃ u s', (setupInputs .zeros (constantDispatcher 0 [7])
      [programWithConstant 0 [7]]).run fresh = .ok u s' ∧ True :=
    Exec.exists_of_returnsIn (by decide +kernel)
  refine ⟨u, s', hrun, fun input hinput => ?_, fun h => ?_⟩
  · have hinputs : constantInputsOf (constantDispatcher 0 [7]) (programWithConstant 0 [7]) =
      (programWithConstant 0 [7]).inputs := rfl
    rw [hinputs] at hinput
    obtain rfl := List.mem_singleton.1 hinput
    exact Or.inl rfl
  · have hwrites := h.constants
    rw [filter_taggedRequests] at hwrites
    exact absurd hwrites (by decide +kernel)

end HilDeployer

end UscopeDriver
