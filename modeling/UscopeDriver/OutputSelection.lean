import UscopeDriver.Calls
import UscopeDriver.Schedule

/-!
# Scope channels and output labels

A deployment labels the word of every bus destination it uses. `select_output` sends such a word
to the scope multiplexer. The word is computed twice, once for the label and once for the
selection. Where no two slots and no generator share a destination, the two agree
(`select_output_labelled`).
-/

namespace UscopeDriver

open LastWrite

namespace DeployerBase

/-- The bus destination of an entry as one word. -/
def destination (e : DeployerInterconnectSlot) : Nat :=
  e.destinationBusAddress.toNat + 2 ^ 16 * e.destinationChannel.toNat

/-- The output that an entry carries. -/
def source (e : DeployerInterconnectSlot) : OutputSpecs :=
  ⟨e.sourceId, e.sourceName, e.sourceChannel.toNat⟩

/-- An output as text : the channel is left out where there is one only. -/
def outputText (nChannels : Nat) (out : OutputSpecs) : String :=
  if nChannels = 1 then out.coreName ++ "." ++ out.sourceOutput
  else out.coreName ++ "." ++ out.sourceOutput ++ "[" ++ toString out.channel ++ "]"

/-- The label of an output is its text. -/
theorem signalName_eq (e : DeployerInterconnectSlot) (nChannels : Nat) :
    signalName e nChannels = outputText nChannels (source e) := rfl

/-- Fields that do not overlap add up. -/
theorem or_shift_eq_add {a k : Nat} (h : a < 2 ^ k) (c : Nat) :
    a ||| (c <<< k) = a + 2 ^ k * c := by
  rw [Nat.or_comm, ← Nat.shiftLeft_add_eq_or_of_lt h, Nat.shiftLeft_eq, Nat.mul_comm, Nat.add_comm]

/-- The masks drop nothing of an address and a channel in range. -/
theorem or_shift_masked {a c k : Nat} (ha : a ≤ 0xFFF) (hc : c ≤ 0xF) (hk : 12 ≤ k) :
    (a &&& 0xFFF) ||| ((c &&& 0xF) <<< k) = a + 2 ^ k * c := by
  have hma : a &&& 0xFFF = a := by
    rw [Nat.and_two_pow_sub_one_eq_mod _ 12, Nat.mod_eq_of_lt (by omega)]
  have hmc : c &&& 0xF = c := by
    rw [Nat.and_two_pow_sub_one_eq_mod _ 4, Nat.mod_eq_of_lt (by omega)]
  have hlt : a < 2 ^ k :=
    (ha.trans_lt (by norm_num : 0xFFF < 2 ^ 12)).trans_le (Nat.pow_le_pow_right two_pos hk)
  rw [hma, hmc, or_shift_eq_add hlt]

/-- The bounds of an entry that can be mapped, as numbers. -/
theorem Mappable.toNat_le {e : DeployerInterconnectSlot} (h : Mappable e) :
    e.sourceIoAddress.toNat ≤ 0xFFF ∧ e.destinationBusAddress.toNat ≤ 0xFFF ∧
      e.sourceChannel.toNat ≤ 0xF ∧ e.destinationChannel.toNat ≤ 0xF :=
  ⟨UInt32.le_iff_toNat_le.1 h.1, UInt32.le_iff_toNat_le.1 h.2.1, UInt32.le_iff_toNat_le.1 h.2.2.1,
    UInt32.le_iff_toNat_le.1 h.2.2.2⟩

/-- The key in the bus labels. -/
theorem busDest_eq {e : DeployerInterconnectSlot} (h : Mappable e) : busDest e = destination e := by
  obtain ⟨-, ha, -, hc⟩ := h.toNat_le
  exact or_shift_masked ha hc (by norm_num)

/-- The word that selects the entry. -/
theorem selector_eq {e : DeployerInterconnectSlot} (h : Mappable e) :
    HilDeployer.selector ⟨e.destinationBusAddress.toNat, e.destinationChannel.toNat⟩ =
      destination e := by
  obtain ⟨-, ha, -, hc⟩ := h.toNat_le
  have ha' : e.destinationBusAddress.toNat < 2 ^ 16 := by omega
  have hu : u32 (e.destinationChannel.toNat <<< 16) = e.destinationChannel.toNat <<< 16 := by
    rw [Nat.shiftLeft_eq]
    exact u32_of_lt (by omega)
  rw [HilDeployer.selector, hu, or_shift_eq_add ha', destination]

/-- Its destination has 32 bits. -/
theorem destination_lt {e : DeployerInterconnectSlot} (h : Mappable e) :
    destination e < 2 ^ 32 := by
  obtain ⟨-, ha, -, hc⟩ := h.toNat_le
  unfold destination
  omega

/-- Entries in range with the same destination word have the same destination. -/
theorem eq_of_destination {e e' : DeployerInterconnectSlot} (h : Mappable e) (h' : Mappable e')
    (heq : destination e = destination e') :
    (e.destinationBusAddress, e.destinationChannel) =
      (e'.destinationBusAddress, e'.destinationChannel) := by
  obtain ⟨-, ha, -, -⟩ := h.toNat_le
  obtain ⟨-, ha', -, -⟩ := h'.toNat_le
  unfold destination at heq
  ext
  · simp only
    omega
  · simp only
    omega

end DeployerBase

/-- The input is driven by the noise generator or by a waveform generator. -/
def InputSetup.IsGenerator (c : InputSetup) : Prop :=
  c.input.sourceType = .randomInput ∨ c.input.sourceType = .waveformInput

instance (c : InputSetup) : Decidable c.IsGenerator :=
  inferInstanceAs (Decidable (_ ∨ _))

namespace InputAction

/-- The bus label of an action. -/
def busLabel : InputAction → List (Nat × String)
  | .setup c => if c.IsGenerator then [(c.dest, c.label)] else []
  | _ => []

/-- The inputs add their labels. -/
theorem recordAll_busLabels (actions : List InputAction) (s : HilDeployer) :
    (recordAll actions s).busLabels =
      (actions.flatMap busLabel).foldl (fun l w => l.insert w.1 w.2) s.busLabels := by
  induction actions generalizing s with
  | nil => rfl
  | cons a actions ih =>
    have hrecord : (a.record s).busLabels =
        a.busLabel.foldl (fun l w => l.insert w.1 w.2) s.busLabels := by
      cases a with
      | setup c =>
        have h : (record s (.setup c)).busLabels = (c.record s.toDeployerBase).busLabels := rfl
        rw [h, InputSetup.record, busLabel]
        cases hs : c.input.sourceType <;> simp [InputSetup.IsGenerator, hs,
          InputSetup.recordConstant, InputSetup.recordRandom, InputSetup.recordWaveform]
      | label path coreIdx => rfl
      | enableRandom => rfl
    have hcons : recordAll (a :: actions) s = recordAll actions (a.record s) := rfl
    rw [hcons, ih, hrecord, List.flatMap_cons, List.foldl_append]

end InputAction

namespace HilDeployer

open DeployerBase (Mappable entriesOf busDest destination source outputText)

variable {Spec : Type} {env : Environment Spec} {arguments : Spec}
  {programs : List DeployedProgram} {slots : List DeployerInterconnectSlot}

theorem emit_busMap (s : HilDeployer) (rs : List Request) : (s.emit rs).busMap = s.busMap := rfl

/-- The labels of the slots, in the order in which they are entered. -/
def slotLabels (programs : List DeployedProgram) (slots : List DeployerInterconnectSlot) :
    List (Nat × String) :=
  programs.flatMap fun p => (entriesOf slots p.name).map fun e =>
    (busDest e, outputText p.nChannels.toNat (source e))

/-- The DMAs add theirs. -/
theorem labelPrograms_busLabels (programs : List DeployedProgram) (s : HilDeployer) :
    (labelPrograms programs s).busLabels =
      (slotLabels programs s.busMap).foldl (fun l w => l.insert w.1 w.2) s.busLabels := by
  simp only [labelPrograms, slotLabels, List.foldl_flatMap, List.foldl_map,
    DeployerBase.signalName_eq]

/-- The bus labels of a deployment. -/
theorem deployed_busLabels (s : HilDeployer) (k : Nat) :
    (deployed env arguments programs (prepared env arguments programs slots s)).busLabels[k]? =
      (lastValue ((inputActions s.addresses (env.dispatcher arguments) programs).flatMap
        InputAction.busLabel) k).or (lastValue (slotLabels programs slots) k) := by
  have haddresses : (prepared env arguments programs slots s).addresses = s.addresses := rfl
  have hmap : (prepared env arguments programs slots s).busMap = slots := rfl
  have hempty : (prepared env arguments programs slots s).busLabels = ∅ := rfl
  rw [deployed, InputAction.recordAll_busLabels, getElem?_foldl_insert, labelPrograms_busLabels,
    getElem?_foldl_insert, haddresses, hmap, hempty]
  simp

section Labels

variable (hnames : (programs.map (·.name)).Nodup)
  (hdest : (slots.map fun e => (e.destinationBusAddress, e.destinationChannel)).Nodup)
  (hmappable : ∀ p ∈ programs, ∀ e ∈ entriesOf slots p.name, Mappable e)

include hdest hmappable in
/-- A label word belongs to one slot. -/
theorem eq_of_busDest {p p' : DeployedProgram} (hp : p ∈ programs) (hp' : p' ∈ programs)
    {e e' : DeployerInterconnectSlot} (he : e ∈ entriesOf slots p.name)
    (he' : e' ∈ entriesOf slots p'.name) (h : busDest e = busDest e') : e = e' := by
  have hm := hmappable p hp e he
  have hm' := hmappable p' hp' e' he'
  rw [DeployerBase.busDest_eq hm, DeployerBase.busDest_eq hm'] at h
  exact List.inj_on_of_nodup_map hdest (List.mem_of_mem_filter he) (List.mem_of_mem_filter he')
    (DeployerBase.eq_of_destination hm hm' h)

include hnames hdest hmappable in
/-- With distinct names and destinations no two slots share a label. -/
theorem slotLabels_nodup : ((slotLabels programs slots).map Prod.fst).Nodup := by
  have hkeys : (slotLabels programs slots).map Prod.fst =
      programs.flatMap fun p => (entriesOf slots p.name).map busDest := by
    simp only [slotLabels, List.map_flatMap, List.map_map]
    rfl
  rw [hkeys, List.nodup_flatMap]
  constructor
  · intro p hp
    refine (hdest.of_map.filter _).map_on fun e he e' he' h => ?_
    exact eq_of_busDest hdest hmappable hp hp he he' h
  · refine (List.pairwise_map.1 hnames).imp_of_mem fun {p p'} hp hp' hne => ?_
    intro k hk hk'
    obtain ⟨e, he, rfl⟩ := List.mem_map.1 hk
    obtain ⟨e', he', heq⟩ := List.mem_map.1 hk'
    obtain rfl := eq_of_busDest hdest hmappable hp' hp he' he heq
    have hsource : e'.sourceId = p.name := by simpa using List.of_mem_filter he
    have hsource' : e'.sourceId = p'.name := by simpa using List.of_mem_filter he'
    exact hne (hsource.symm.trans hsource')

end Labels

/-- The output of a slot is found, perhaps in an earlier slot with the same output. -/
theorem exists_find?_of_source {e : DeployerInterconnectSlot} (he : e ∈ slots) :
    ∃ e₀ ∈ slots, (slots.find? fun e' => e'.sourceId = (source e).coreName ∧
      e'.sourceName = (source e).sourceOutput ∧
        e'.sourceChannel.toNat = (source e).channel) = some e₀ ∧ source e₀ = source e := by
  obtain ⟨e₀, hfind⟩ : ∃ e₀, (slots.find? fun e' => e'.sourceId = (source e).coreName ∧
      e'.sourceName = (source e).sourceOutput ∧
        e'.sourceChannel.toNat = (source e).channel) = some e₀ := by
    refine Option.isSome_iff_exists.1 (List.find?_isSome.2 ⟨e, he, ?_⟩)
    simp [source]
  have h₀ := List.find?_some hfind
  simp only [decide_eq_true_eq] at h₀
  obtain ⟨hid, hname, hchannel⟩ := h₀
  exact ⟨e₀, List.mem_of_find?_eq_some hfind, hfind, by rw [source, hid, hname, hchannel]⟩

/-- Only the generators have labels of their own. -/
theorem lastValue_busLabels {actions : List InputAction} {k : Nat}
    (h : ∀ c, .setup c ∈ actions → c.IsGenerator → c.dest ≠ k) :
    lastValue (actions.flatMap InputAction.busLabel) k = none := by
  refine lastValue_eq_none.2 fun hkey => ?_
  obtain ⟨w, hw, rfl⟩ := List.mem_map.1 hkey
  obtain ⟨a, ha, hwa⟩ := List.mem_flatMap.1 hw
  cases a with
  | setup c =>
    by_cases hc : c.IsGenerator
    · obtain rfl : w = (c.dest, c.label) := by simpa [InputAction.busLabel, hc] using hwa
      exact h c ha hc rfl
    · simp [InputAction.busLabel, hc] at hwa
  | label path coreIdx => simp [InputAction.busLabel] at hwa
  | enableRandom => simp [InputAction.busLabel] at hwa

/-- After a deployment of programs with distinct names, whose slots share no destination with each
other or with a generator, the selection of an output that some slot of a program carries is one
write, of a word whose label names that output. The selection of any other output throws. -/
theorem select_output_labelled {s s' : HilDeployer} {u : Unit}
    (h : (deploy env arguments).run s = .ok u s')
    (hp : (env.dispatcher arguments).getPrograms = .ok programs)
    (hs : (env.dispatcher arguments).getInterconnectSlots = .ok slots)
    (hnames : (programs.map (·.name)).Nodup)
    (hdest : (slots.map fun e => (e.destinationBusAddress, e.destinationChannel)).Nodup)
    (hgenerators : ∀ c, .setup c ∈ inputActions s.addresses (env.dispatcher arguments) programs →
      c.IsGenerator → ∀ e ∈ slots, c.dest ≠ destination e)
    (channel : Nat) (output : OutputSpecs) :
    (∀ p ∈ programs, output.coreName = p.name → (∃ e ∈ slots, source e = output) →
      ∃ word, s'.busLabels[word]? = some (outputText p.nChannels.toNat output) ∧
        ∀ v s'', (selectOutput env channel output).run s' = .ok v s'' ↔
          s'.hw.Admits [.write (u64 (s.addresses.bases.scopeMux + u32 (4 * channel) + 4)) word] ∧
          s'' = s'.emit [.write (u64 (s.addresses.bases.scopeMux + u32 (4 * channel) + 4)) word]) ∧
    ((∀ e ∈ slots, source e ≠ output) →
      ∃ what, (selectOutput env channel output).run s' = .error (.runtimeError what) s') := by
  obtain ⟨programs', slots', memories, hel, hd, -, rfl⟩ := deploy_eq_ok.1 h
  obtain rfl := hel.programs_eq hp
  obtain rfl := hel.slots_eq hs
  have hmap : (deployed env arguments programs'
      (prepared env arguments programs' slots' s)).busMap = slots' := by
    rw [deployed_eq]
    rfl
  have haddresses : (deployed env arguments programs'
      (prepared env arguments programs' slots' s)).addresses = s.addresses := by
    rw [deployed_eq]
    rfl
  have hmappable : ∀ p ∈ programs', ∀ e ∈ entriesOf slots' p.name, Mappable e :=
    fun p hpm e he => (hd.dmaReady p hpm e he).1
  constructor
  · rintro p hpm hcore ⟨e, he, rfl⟩
    obtain ⟨e₀, he₀, hfind, hsource⟩ := exists_find?_of_source he
    have hmem : e₀ ∈ entriesOf slots' p.name := by
      refine List.mem_filter.2 ⟨he₀, ?_⟩
      have hid : e₀.sourceId = (source e).coreName := by rw [← hsource]; rfl
      simpa [hid] using hcore
    have hm := hmappable p hpm e₀ hmem
    refine ⟨destination e₀, ?_, fun v s'' => ?_⟩
    · have hlabel : (destination e₀, outputText p.nChannels.toNat (source e)) ∈
          slotLabels programs' slots' := by
        refine List.mem_flatMap.2 ⟨p, hpm, List.mem_map.2 ⟨e₀, hmem, ?_⟩⟩
        rw [DeployerBase.busDest_eq hm, hsource]
      have hgenerator := lastValue_busLabels fun c hc hg => hgenerators c hc hg e₀ he₀
      have hlast := lastValue_of_mem_nodup (slotLabels_nodup hnames hdest hmappable) hlabel
      change (deployed env arguments programs'
        (prepared env arguments programs' slots' s)).busLabels[destination e₀]? = _
      rw [deployed_busLabels, hgenerator, Option.none_or]
      exact hlast
    · rw [run_selectOutput_of_some env channel (by rw [emit_busMap, hmap]; exact hfind),
        writeRegister_eq_ok, DeployerBase.selector_eq hm, emit_addresses, haddresses]
      rw [regWrite_of_lt (DeployerBase.destination_lt hm)]
  · intro hnone
    refine selectOutput_of_none env channel (List.find?_eq_none.2 fun e he hpred => ?_)
    rw [emit_busMap, hmap] at he
    simp only [decide_eq_true_eq] at hpred
    obtain ⟨hid, hname, hchannel⟩ := hpred
    refine hnone e he ?_
    rw [source, hid, hname, hchannel]

/-- A program with two channels. -/
def twoChannelCore : DeployedProgram :=
  ⟨"core", 0, 1, 100, 2, [], ⟨10, 0⟩, []⟩

/-- A core whose output has two channels, both on the bus address 5. -/
def twoChannels : Environment Unit :=
  .of (fun _ => .returning [twoChannelCore]
    [⟨"core", "out", "", "", 3, 0, 5, 0, ⟨.typeFloat, 32, true⟩⟩,
      ⟨"core", "out", "", "", 3, 1, 5, 1, ⟨.typeFloat, 32, true⟩⟩]) fun _ => 1

/-- The second channel of an output. -/
theorem select_output_two_channels : ∃ (u : Unit) (s' : HilDeployer) (word : Nat),
    (deploy twoChannels ()).run fresh = .ok u s' ∧
      s'.busLabels[word]? = some (outputText 2 ⟨"core", "out", 1⟩) := by
  obtain ⟨u, s', h, -⟩ : ∃ u s', (deploy twoChannels ()).run fresh = .ok u s' ∧ True :=
    Exec.exists_of_returnsIn (by decide +kernel)
  have hinputs : inputActions fresh.addresses (twoChannels.dispatcher ()) [twoChannelCore] =
      [.enableRandom] := rfl
  obtain ⟨word, hlabel, -⟩ := (select_output_labelled h rfl rfl (by decide) (by decide)
    (by simp [hinputs]) 2 ⟨"core", "out", 1⟩).1 twoChannelCore (by simp) rfl
      ⟨_, List.mem_cons_of_mem _ List.mem_cons_self, rfl⟩
  exact ⟨u, s', word, h, hlabel⟩

end HilDeployer

end UscopeDriver
