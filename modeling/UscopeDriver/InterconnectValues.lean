import UscopeDriver.Schedule

/-!
# Which initial value an interconnect entry gets

The words that fill the entry of a slot are looked up under its source, by its source channel.
What is stored there are the words of one destination of the source, the last
(`storedWord_specIvs`). So a slot gets the words of its own destination when that is the last one
and the channels are the same, or the words happen to agree (`fill_data_right_iff`).
-/

namespace UscopeDriver

namespace HilDeployer

open LastWrite

/-! ## Words by channel -/

/-- The first word of a data entry. -/
def entryWord (data : InitialData) : Nat :=
  (data.toWords.headD 0).toNat

/-- The initial value of an input for a channel. A single one is for all channels. -/
def channelValue (input : DeployedCoreInputs) (channel : Nat) : Option Nat :=
  if input.data.length = 1 then input.data.head?.map entryWord
  else input.data[channel]?.map entryWord

/-- The number of words that the input of a program has in the stage. -/
def wordCount (p : DeployedProgram) (input : DeployedCoreInputs) : Nat :=
  if input.data.length = 1 then max 1 p.nChannels.toNat else input.data.length

/-- An initial value has a word for each channel up to its count. -/
theorem initialValue_getElem? (p : DeployedProgram) (input : DeployedCoreInputs) (channel : Nat) :
    (initialValue p input)[channel]? =
      if channel < wordCount p input then channelValue input channel else none := by
  unfold initialValue initialData wordCount channelValue
  rcases hd : input.data with _ | ⟨data, _ | ⟨data', rest⟩⟩
  · simp
  · by_cases hn : p.nChannels > 1
    · have hmax : max 1 p.nChannels.toNat = p.nChannels.toNat := by
        have := UInt32.lt_iff_toNat_lt.1 hn
        exact max_eq_right this.le
      simp [hn, hmax, List.getElem?_replicate, entryWord]
    · have hmax : max 1 p.nChannels.toNat = 1 := by
        have := UInt32.le_iff_toNat_le.1 (UInt32.not_lt.1 hn)
        exact max_eq_left this
      by_cases hc : channel = 0 <;> simp [hn, hmax, hc, entryWord]
  · have hlen : ¬(data :: data' :: rest).length = 1 := by simp
    rw [if_neg fun h => hlen h.1, if_neg hlen, if_neg hlen, List.getElem?_map]
    by_cases hc : channel < (data :: data' :: rest).length
    · rw [if_pos hc]
      rfl
    · rw [if_neg hc, List.getElem?_eq_none (not_lt.1 hc)]
      rfl

/-- The destination that comes last among those of the source of a slot. -/
def lastDestination (slots : List DeployerInterconnectSlot) (programs : List DeployedProgram)
    (e : DeployerInterconnectSlot) : Option Destination :=
  ((destinations slots programs).filter fun d =>
    (d.slot.sourceId, d.slot.sourceName) = (e.sourceId, e.sourceName)).getLast?

/-- The word that is looked up for an entry, if it is there. -/
def storedWord (ivs : String → String → Option (List Nat)) (e : DeployerInterconnectSlot) :
    Option Nat :=
  (ivs e.sourceId e.sourceName).bind (·[e.sourceChannel.toNat]?)

/-- On a fresh deployer the stored words are those of the last destination. -/
theorem specIvs_eq (slots : List DeployerInterconnectSlot) (programs : List DeployedProgram)
    (e : DeployerInterconnectSlot) : specIvs slots programs e.sourceId e.sourceName =
      (lastDestination slots programs e).map fun d => initialValue d.program d.input :=
  lastValue_map ivAssignment _ _

/-- The entry gets a word, and it is the initial value of the input for the channel. -/
def GetsValue (ivs : String → String → Option (List Nat)) (e : DeployerInterconnectSlot)
    (input : DeployedCoreInputs) : Prop :=
  (storedWord ivs e).isSome ∧ storedWord ivs e = channelValue input e.destinationChannel.toNat

instance (ivs : String → String → Option (List Nat)) (e : DeployerInterconnectSlot)
    (input : DeployedCoreInputs) : Decidable (GetsValue ivs e input) :=
  inferInstanceAs (Decidable (_ ∧ _))

/-- The word of a slot is that of its last destination. -/
theorem storedWord_specIvs {slots : List DeployerInterconnectSlot} {programs : List DeployedProgram}
    {e : DeployerInterconnectSlot} {d : Destination}
    (h : lastDestination slots programs e = some d) :
    storedWord (specIvs slots programs) e =
      if e.sourceChannel.toNat < wordCount d.program d.input then
        channelValue d.input e.sourceChannel.toNat
      else none := by
  rw [storedWord, specIvs_eq, h]
  exact initialValue_getElem? _ _ _

/-- A slot with a deployed destination has a last destination. -/
theorem exists_lastDestination {slots : List DeployerInterconnectSlot}
    {programs : List DeployedProgram} {e : DeployerInterconnectSlot} (he : e ∈ slots)
    {p : DeployedProgram} (hp : p ∈ programs) (hdst : p.name = e.destinationId)
    {input : DeployedCoreInputs} (hi : input ∈ p.inputs) (hname : input.name = e.destinationName) :
    ∃ d, lastDestination slots programs e = some d := by
  have hmem : (⟨e, p, input⟩ : Destination) ∈ destinations slots programs := by
    simp only [destinations, List.mem_flatMap, List.mem_map, List.mem_filter, decide_eq_true_eq]
    exact ⟨e, he, p, ⟨hp, hdst⟩, input, ⟨hi, hname⟩, rfl⟩
  rw [← Option.isSome_iff_exists, lastDestination, List.getLast?_isSome]
  exact List.ne_nil_of_mem (List.mem_filter.2 ⟨hmem, decide_eq_true rfl⟩)

theorem deployed_ivs {Spec : Type} (env : Environment Spec) (arguments : Spec)
    (programs : List DeployedProgram) (s : HilDeployer) :
    (deployed env arguments programs s).ivs = s.ivs := by
  rw [deployed_eq]

theorem deployed_coresIdx {Spec : Type} (env : Environment Spec) (arguments : Spec)
    (programs : List DeployedProgram) (s : HilDeployer) :
    (deployed env arguments programs s).coresIdx = s.coresIdx := by
  rw [deployed_eq]

theorem infix_flatMap {α β : Type} (f : α → List β) {a : α} {l : List α} (h : a ∈ l) :
    f a <:+: l.flatMap f := by
  rw [List.flatMap_def]
  exact List.infix_of_mem_flatten (List.mem_map_of_mem h)

/-- The requests for an entry are among those of its program. -/
theorem fillRequests_isInfix {s : HilDeployer} {p : DeployedProgram} {e : DeployerInterconnectSlot}
    {k : Nat} (hk : (DeployerBase.entriesOf s.busMap p.name)[k]? = some e) :
    DeployerBase.fillRequests (dmaAddress s.addresses (s.coresIdx p.name)) k e.sourceChannel.toNat
      (s.ivs e.sourceId e.sourceName) <:+: s.programDmaRequests p := by
  have hmem : (e, k) ∈ (DeployerBase.entriesOf s.busMap p.name).zipIdx :=
    List.mk_mem_zipIdx_iff_getElem?.2 hk
  have hentries := infix_flatMap (fun x : DeployerInterconnectSlot × Nat =>
    DeployerBase.entryRequests s.ivs (dmaAddress s.addresses (s.coresIdx p.name)) x.1 x.2) hmem
  rw [programDmaRequests, DeployerBase.dmaRequests]
  refine List.infix_append_of_infix_left (List.IsInfix.trans ?_ hentries)
  rw [DeployerBase.entryRequests]
  exact List.infix_append_of_infix_left (List.suffix_cons _ _).isInfix

/-- The writes of a DMA stand together in the log. -/
theorem programDmaRequests_isInfix {Spec : Type} (env : Environment Spec) (arguments : Spec)
    {programs : List DeployedProgram} (memories : String → List MemoryInitValue) (s : HilDeployer)
    {p : DeployedProgram} (hp : p ∈ programs) :
    s.programDmaRequests p <:+: deploymentRequests env arguments programs memories s := by
  have h : s.programDmaRequests p <:+: programs.flatMap s.programDmaRequests :=
    infix_flatMap _ hp
  rw [deploymentRequests, writeRequests, setupRequests, List.append_assoc, List.append_assoc,
    List.append_assoc]
  exact h.trans (List.infix_append' _ _ _)

/-- An external input with one word. -/
def scalarInput (name : String) (address value : UInt32) : DeployedCoreInputs :=
  ⟨name, .external, [address], [.words [value]], ⟨.typeInteger, 32, true⟩, .sine⟩

/-- A program without inputs. -/
def producer : DeployedProgram :=
  ⟨"producer", 0, 0, 0, 1, [], ⟨10, 0⟩, []⟩

/-- A program with two external inputs. -/
def consumer : DeployedProgram :=
  ⟨"consumer", 1, 1, 0, 1, [], ⟨10, 0⟩, [scalarInput "x" 1 5, scalarInput "y" 2 7]⟩

/-- The slot from the output of the producer to an input of the consumer. -/
def slotTo (name : String) (address : UInt32) : DeployerInterconnectSlot :=
  ⟨"producer", "out", "consumer", name, 1, 0, address, 0, ⟨.typeInteger, 32, true⟩⟩

/-- Both programs, with the slots between them. -/
def fanOut (slots : List DeployerInterconnectSlot) : Environment Unit :=
  .of (fun _ => .returning [producer, consumer] slots) fun _ => 1

/-- What a fresh deployment writes to `fill_data` for a slot is read from the stored words, and it
is the initial value of the destination for its channel just when the last destination of the
same source has that word for the source channel. -/
theorem fill_data_right_iff {Spec : Type} {env : Environment Spec} {arguments : Spec}
    {programs : List DeployedProgram} {slots : List DeployerInterconnectSlot}
    {memories : String → List MemoryInitValue}
    (hel : Elaborates (env.dispatcher arguments) programs slots memories)
    {hw : FpgaBridge} {addresses : LogicLayout} {clock : {f : ℚ // 0 < f}}
    {e : DeployerInterconnectSlot} (he : e ∈ slots)
    {q : DeployedProgram} (hq : q ∈ programs)
    {p : DeployedProgram} (hp : p ∈ programs) (hdst : p.name = e.destinationId)
    {input : DeployedCoreInputs} (hi : input ∈ p.inputs) (hname : input.name = e.destinationName) :
    (∀ u s', (deploy env arguments).run (construct hw addresses clock) = .ok u s' →
      s'.ivs = (prepared env arguments programs slots (construct hw addresses clock)).ivs ∧
      ∃ rs, s'.hw = (reset (env.hash arguments) (construct hw addresses clock)).hw.performAll rs ∧
        ∀ k, (DeployerBase.entriesOf slots q.name)[k]? = some e →
          DeployerBase.fillRequests (dmaAddress addresses (s'.coresIdx q.name)) k
            e.sourceChannel.toNat (s'.ivs e.sourceId e.sourceName) <:+: rs) ∧
    (GetsValue (prepared env arguments programs slots (construct hw addresses clock)).ivs e input ↔
      ∃ d, lastDestination slots programs e = some d ∧
        e.sourceChannel.toNat < wordCount d.program d.input ∧
        (channelValue input e.destinationChannel.toNat).isSome ∧
        channelValue d.input e.sourceChannel.toNat =
          channelValue input e.destinationChannel.toNat) := by
  constructor
  · intro u s' h
    obtain ⟨programs', slots', memories', hel', hd, -, rfl⟩ := deploy_eq_ok.1 h
    obtain rfl := hel'.programs_eq hel.getPrograms
    obtain rfl := hel'.slots_eq hel.getInterconnectSlots
    refine ⟨deployed_ivs _ _ _ _, _, congrArg (FpgaBridge.performAll · _) (deployed_hw _ _ _ _),
      fun k hk => ?_⟩
    have hcores : ∀ t rs, ((deployed env arguments programs' t).emit rs).coresIdx = t.coresIdx :=
      fun t _ => deployed_coresIdx env arguments programs' t
    have hivs : ∀ t rs, ((deployed env arguments programs' t).emit rs).ivs = t.ivs :=
      fun t _ => deployed_ivs env arguments programs' t
    rw [hcores, hivs]
    exact (fillRequests_isInfix hk).trans (programDmaRequests_isInfix env arguments memories' _ hq)
  · have hivs : (prepared env arguments programs slots (construct hw addresses clock)).ivs =
        specIvs slots programs := by
      funext id name
      exact Option.or_none
    obtain ⟨d, hlast⟩ := exists_lastDestination he hp hdst hi hname
    rw [hivs, GetsValue, storedWord_specIvs hlast]
    simp only [hlast, Option.some.injEq, exists_eq_left']
    split_ifs with hc
    · simp only [hc, true_and]
      exact and_congr_left fun h => by rw [h]
    · simp [hc]

/-- One producer and one consumer. -/
theorem fill_data_right_one :
    GetsValue (prepared (fanOut [slotTo "x" 1]) () [producer, consumer] [slotTo "x" 1] fresh).ivs
      (slotTo "x" 1) (scalarInput "x" 1 5) := by
  have h := @fill_data_right_iff Unit (fanOut [slotTo "x" 1]) () [producer, consumer]
    [slotTo "x" 1] (fun _ => []) ⟨rfl, rfl, rfl, rfl⟩ fresh.hw fresh.addresses
    fresh.hilClockFrequency (slotTo "x" 1) (by simp) producer (by simp) consumer (by simp) rfl
    (scalarInput "x" 1 5) (by simp [consumer]) rfl
  exact h.2.2 ⟨⟨slotTo "x" 1, consumer, scalarInput "x" 1 5⟩, by decide +kernel, by decide +kernel,
    rfl, rfl⟩

/-- The first of the two inputs gets the value of the second. -/
theorem fill_data_of_fan_out : ∃ u s',
    (deploy (fanOut [slotTo "x" 1, slotTo "y" 2]) ()).run fresh = .ok u s' ∧
      ¬GetsValue s'.ivs (slotTo "x" 1) (scalarInput "x" 1 5) :=
  Exec.exists_of_returnsIn (by decide +kernel)

end HilDeployer

end UscopeDriver
