import UscopeDriver.Generators

/-!
# The table of an output DMA

The mapping words of the entries of a core start at the third register of its DMA and their
metadata words sixteen registers later. Nothing bounds the number of entries, so the mapping of
entry `i + 16` goes to the register that holds the metadata of entry `i` (`table_intact_iff`).
-/

namespace UscopeDriver

namespace DeployerBase

/-! ## Registers by their number -/

/-- The address is in the register window, and its register has the value. -/
def Holds (b : BusAccessor) (address value : Nat) : Prop :=
  b.MapsRegister (u64 address) ∧ b.registerValue address = value

/-- The registers of the DMA are as the entries ask for. -/
structure TableIntact (b : BusAccessor) (dma : Nat) (entries : List DeployerInterconnectSlot) :
    Prop where
  count : Holds b dma entries.length
  mapping : ∀ i e, entries[i]? = some e → Holds b (dma + 12 + 4 * i) (mapping e)
  metadata : ∀ i e, entries[i]? = some e → Holds b (dma + 76 + 4 * i) (metadataValue e)

/-- Two registers in the window at a multiple of four bytes from each other. -/
theorem registerWord_eq_iff {controlAddr dma j k : Nat} (hj : controlAddr ≤ u64 (dma + 4 * j))
    (hk : controlAddr ≤ u64 (dma + 4 * k)) (hj' : j < 2 ^ 62) (hk' : k < 2 ^ 62) :
    registerWord controlAddr (dma + 4 * j) = registerWord controlAddr (dma + 4 * k) ↔ j = k := by
  unfold registerWord
  unfold u64 at *
  omega

/-- The mapping of an entry is the word behind three others. -/
theorem mappingAddress_eq {dma i : Nat} (h : i < 2 ^ 30) :
    mappingAddress dma i = dma + 4 * (3 + i) := by
  rw [mappingAddress, u32_of_lt (by omega)]
  omega

/-- Its metadata are sixteen words behind the mapping. -/
theorem metadataAddress_eq {dma i : Nat} (h : i < 2 ^ 30) :
    metadataAddress dma i = dma + 4 * (19 + i) := by
  rw [metadataAddress, u32_of_lt (by omega)]
  omega

/-- A mapping has 32 bits. -/
theorem u32_mapping (e : DeployerInterconnectSlot) : u32 (mapping e) = mapping e :=
  u32_of_lt (Nat.or_lt_two_pow (u32_lt _) ((Nat.mod_lt _ (by decide)).trans (by decide)))

theorem getMetadataValue_lt (size : Nat) (isSigned isFloat : Bool) :
    getMetadataValue size isSigned isFloat < 2 ^ 32 := by
  unfold getMetadataValue
  split_ifs
  · exact Nat.or_lt_two_pow (Nat.or_lt_two_pow (u32_lt _) (by decide)) (by decide)
  · exact Nat.or_lt_two_pow (u32_lt _) (by decide)
  · exact Nat.or_lt_two_pow (u32_lt _) (by decide)
  · exact u32_lt _

/-- So do the metadata. -/
theorem u32_metadataValue (e : DeployerInterconnectSlot) :
    u32 (metadataValue e) = metadataValue e := by
  refine u32_of_lt ?_
  unfold metadataValue
  split
  · exact getMetadataValue_lt _ _ _
  · exact getMetadataValue_lt _ _ _

/-! ## The table after the writes -/

/-- All addresses that the requests write are in the window. -/
def InWindow (controlAddr : Nat) (rs : List Request) : Prop :=
  ∀ a v, regWrite a v ∈ rs → controlAddr ≤ u64 a

variable {controlAddr dma : Nat} {ivs : String → String → Option (List Nat)}

/-- Requests in the window are so in each part. -/
theorem InWindow.append {rs rs' : List Request} (h : InWindow controlAddr (rs ++ rs')) :
    InWindow controlAddr rs ∧ InWindow controlAddr rs' :=
  ⟨fun a v hr => h a v (List.mem_append_left _ hr),
    fun a v hr => h a v (List.mem_append_right _ hr)⟩

theorem InWindow.tail {r : Request} {rs : List Request} (h : InWindow controlAddr (r :: rs)) :
    InWindow controlAddr rs :=
  fun a v hr => h a v (List.mem_cons_of_mem _ hr)

/-- A write to register `k`, seen from register `j`. -/
theorem lastWritten_register {j k v : Nat} {rs : List Request}
    (hin : InWindow controlAddr (regWrite (dma + 4 * k) v :: rs))
    (hat : controlAddr ≤ u64 (dma + 4 * j)) (hj : j < 2 ^ 62) (hk : k < 2 ^ 62) :
    lastWritten controlAddr (regWrite (dma + 4 * k) v :: rs) (dma + 4 * j) =
      (lastWritten controlAddr rs (dma + 4 * j)).or (if j = k then some (u32 v) else none) := by
  have hword := registerWord_eq_iff hat (hin _ _ (List.mem_cons_self ..)) hj hk
  rw [lastWritten_cons]
  simp only [hword]

/-- The initial values are written below the table. -/
theorem lastWritten_fill {i j sourceChannel : Nat} {iv : Option (List Nat)} (hj : j < 2 ^ 31)
    (hin : InWindow controlAddr (fillRequests dma i sourceChannel iv))
    (hat : controlAddr ≤ u64 (dma + 4 * (3 + j))) :
    lastWritten controlAddr (fillRequests dma i sourceChannel iv) (dma + 4 * (3 + j)) = none := by
  rcases iv with _ | v
  · rfl
  · have hselect : dma + 8 = dma + 4 * 2 := rfl
    have hvalue : dma + 4 = dma + 4 * 1 := rfl
    rw [fillRequests, hselect, hvalue] at hin ⊢
    rw [lastWritten_register hin hat (by omega) (by omega),
      lastWritten_register hin.tail hat (by omega) (by omega), if_neg (by omega),
      if_neg (by omega)]
    rfl

/-- What the writes of one entry leave in a register of the table. -/
theorem lastWritten_entry {e : DeployerInterconnectSlot} {i j : Nat} (hi : i < 2 ^ 30)
    (hj : j < 2 ^ 31) (hin : InWindow controlAddr (entryRequests ivs dma e i))
    (hat : controlAddr ≤ u64 (dma + 4 * (3 + j))) :
    lastWritten controlAddr (entryRequests ivs dma e i) (dma + 4 * (3 + j)) =
      if j = i + 16 then some (metadataValue e) else if j = i then some (mapping e) else none := by
  rw [entryRequests, mappingAddress_eq hi, metadataAddress_eq hi] at hin ⊢
  rw [List.cons_append] at hin ⊢
  have hrest := hin.tail.append
  rw [lastWritten_register hin hat (by omega) (by omega), lastWritten_append,
    lastWritten_fill hj hrest.1 hat, lastWritten_register hrest.2 hat (by omega) (by omega),
    u32_mapping, u32_metadataValue, lastWritten_nil]
  have hmetadata : 3 + j = 19 + i ↔ j = i + 16 := by omega
  have hmapping : 3 + j = 3 + i ↔ j = i := by omega
  simp only [hmetadata, hmapping, Option.none_or, Option.or_none]
  split_ifs <;> rfl

/-- What the writes of all entries leave there. -/
theorem lastWritten_entries {entries : List DeployerInterconnectSlot}
    (hlength : entries.length ≤ 2 ^ 30) {j : Nat} (hj : j < 2 ^ 31)
    (hin : InWindow controlAddr
      (entries.zipIdx.flatMap fun x => entryRequests ivs dma x.1 x.2))
    (hat : controlAddr ≤ u64 (dma + 4 * (3 + j))) :
    lastWritten controlAddr (entries.zipIdx.flatMap fun x => entryRequests ivs dma x.1 x.2)
        (dma + 4 * (3 + j)) =
      (entries[j]?.map mapping).or
        (if 16 ≤ j then entries[j - 16]?.map metadataValue else none) := by
  induction entries using List.reverseRecOn with
  | nil => simp
  | append_singleton entries e ih =>
    rw [List.length_append, List.length_singleton] at hlength
    rw [List.zipIdx_append, List.flatMap_append] at hin ⊢
    simp only [Nat.zero_add, List.zipIdx_singleton, List.flatMap_singleton] at hin ⊢
    rw [lastWritten_append, lastWritten_entry (by omega) hj hin.append.2 hat,
      ih (by omega) hin.append.1]
    rcases lt_trichotomy j entries.length with hlt | rfl | hgt
    · rw [if_neg (by omega), if_neg (by omega), List.getElem?_append_left hlt,
        List.getElem?_append_left (by omega), Option.none_or]
    · rw [if_neg (by omega), if_pos rfl, List.getElem?_concat_length]
      rfl
    · rw [List.getElem?_eq_none (by omega : entries.length ≤ j), List.getElem?_eq_none (by
        rw [List.length_append, List.length_singleton]
        omega : (entries ++ [e]).length ≤ j)]
      by_cases hlast : j = entries.length + 16
      · subst hlast
        simp
      · rw [if_neg hlast, if_neg (by omega)]
        by_cases h16 : 16 ≤ j
        · by_cases hl : j - 16 < entries.length
          · simp [h16, List.getElem?_append_left hl]
          · have hnone : (entries ++ [e])[j - 16]? = none :=
              List.getElem?_eq_none (by rw [List.length_append, List.length_singleton]; omega)
            simp [h16, hnone]
            omega
        · simp [h16]

/-- The number of the entries goes to the first register, after the table. -/
theorem lastWritten_dmaRequests {entries : List DeployerInterconnectSlot}
    (hlength : entries.length ≤ 2 ^ 30) (hin : InWindow controlAddr (dmaRequests ivs dma entries)) :
    lastWritten controlAddr (dmaRequests ivs dma entries) dma = some entries.length ∧
      ∀ j < 2 ^ 31, controlAddr ≤ u64 (dma + 4 * (3 + j)) →
        lastWritten controlAddr (dmaRequests ivs dma entries) (dma + 4 * (3 + j)) =
          (entries[j]?.map mapping).or
            (if 16 ≤ j then entries[j - 16]?.map metadataValue else none) := by
  have hfirst : dma = dma + 4 * 0 := rfl
  rw [dmaRequests] at hin ⊢
  refine ⟨?_, fun j hj hat => ?_⟩
  · rw [lastWritten_append, lastWritten_cons, if_pos rfl, u32_of_lt (by omega), lastWritten_nil,
      Option.none_or, Option.some_or]
  · have hlast := hin.append.2
    rw [hfirst] at hlast
    have hcount : lastWritten controlAddr [regWrite dma entries.length] (dma + 4 * (3 + j)) =
        none := by
      have := lastWritten_register hlast hat (by omega) (by omega)
      rwa [if_neg (by omega), Option.or_none, lastWritten_nil] at this
    rw [lastWritten_append, hcount, lastWritten_entries hlength hj hin.append.1 hat, Option.none_or]

/-- With more than `2 ^ 30` entries, the register behind the last metadata is not written. -/
theorem lastWritten_past {entries : List DeployerInterconnectSlot}
    (hin : InWindow controlAddr (dmaRequests ivs dma entries))
    (hat : controlAddr ≤ u64 (dma + 4 * (19 + 2 ^ 30))) :
    lastWritten controlAddr (dmaRequests ivs dma entries) (dma + 4 * (19 + 2 ^ 30)) = none := by
  have honly : OnlyWrites (fun a => controlAddr ≤ u64 a ∧ ∃ q < 19 + 2 ^ 30, a = dma + 4 * q)
      (dmaRequests ivs dma entries) := by
    intro r hr
    obtain ⟨a, v, ha, rfl⟩ := onlyWrites_dmaRequests ivs dma entries r hr
    refine ⟨a, v, ⟨hin a v hr, ?_⟩, rfl⟩
    rcases ha with rfl | rfl | rfl | ⟨k, -, rfl | rfl⟩
    · exact ⟨0, by omega, rfl⟩
    · exact ⟨1, by omega, rfl⟩
    · exact ⟨2, by omega, rfl⟩
    · refine ⟨3 + k % 2 ^ 30, by omega, ?_⟩
      unfold mappingAddress u32
      omega
    · refine ⟨19 + k % 2 ^ 30, by omega, ?_⟩
      unfold metadataAddress u32
      omega
  refine lastWritten_eq_none honly ?_
  rintro _ ⟨ha, q, hq, rfl⟩ heq
  have := (registerWord_eq_iff ha hat (by omega) (by omega)).1 heq
  omega

/-! ## Runs on a live bus -/

/-- The same deployer before a bus with these registers. -/
def withRegisters (s : DeployerBase) (registers : Nat → Nat) : DeployerBase :=
  { s with hw := { s.hw with busses := { s.hw.busses with registers := registers } } }

/-- The entries do not get in each other's way : their numbers fit, and where a mapping word comes
to the register of a metadata word, they are the same. -/
def TableFits (entries : List DeployerInterconnectSlot) : Prop :=
  entries.length ≤ 2 ^ 30 ∧ ∀ i e e', entries[i]? = some e → entries[i + 16]? = some e' →
    mapping e' = metadataValue e

/-- The writes of an entry are among those of its DMA. -/
theorem regWrite_mem_dmaRequests {entries : List DeployerInterconnectSlot} {i : Nat}
    {e : DeployerInterconnectSlot} (h : entries[i]? = some e) :
    regWrite (mappingAddress dma i) (mapping e) ∈ dmaRequests ivs dma entries ∧
      regWrite (metadataAddress dma i) (metadataValue e) ∈ dmaRequests ivs dma entries := by
  have hmem : (e, i) ∈ entries.zipIdx := List.mk_mem_zipIdx_iff_getElem?.2 h
  constructor
  · exact List.mem_append_left _ (List.mem_flatMap.2 ⟨(e, i), hmem, List.mem_cons_self ..⟩)
  · exact List.mem_append_left _ (List.mem_flatMap.2 ⟨(e, i), hmem,
      List.mem_append_right _ (List.mem_cons_self ..)⟩)

/-- The registers after the writes of a DMA, on a bus with any contents. -/
theorem tableIntact_iff {b : BusAccessor} (hsink : b.sinkMode = false)
    {entries : List DeployerInterconnectSlot}
    (hmaps : ∀ a v, regWrite a v ∈ dmaRequests ivs dma entries → b.MapsRegister (u64 a)) :
    (∀ registers, TableIntact
      ({ b with registers := registers }.performAll (dmaRequests ivs dma entries)) dma entries) ↔
      TableFits entries := by
  have hin : InWindow b.controlAddr (dmaRequests ivs dma entries) := fun a v hr => (hmaps a v hr).1
  have hvalue : ∀ registers address,
      ({ b with registers := registers }.performAll (dmaRequests ivs dma entries)).registerValue
        address = (lastWritten b.controlAddr (dmaRequests ivs dma entries) address).getD
          ({ b with registers := registers }.registerValue address) :=
    fun registers => BusAccessor.registerValue_performAll (b := { b with registers := registers })
      hsink _
  have hmetadata : ∀ i, dma + 76 + 4 * i = dma + 4 * (3 + (i + 16)) := by omega
  have hmapping : ∀ i, dma + 12 + 4 * i = dma + 4 * (3 + i) := by omega
  constructor
  · intro h
    have hle : entries.length ≤ 2 ^ 30 := by
      by_contra hgt
      obtain ⟨e, he⟩ : ∃ e, entries[2 ^ 30]? = some e :=
        ⟨_, List.getElem?_eq_getElem (not_le.1 hgt)⟩
      obtain ⟨hat, hheld⟩ := (h fun _ => metadataValue e + 1).metadata _ e he
      have hpast : dma + 76 + 4 * 2 ^ 30 = dma + 4 * (19 + 2 ^ 30) := by omega
      rw [hpast] at hat hheld
      rw [hvalue, lastWritten_past hin hat.1] at hheld
      exact Nat.succ_ne_self _ hheld
    refine ⟨hle, fun i e e' he he' => ?_⟩
    have hi := (List.getElem?_eq_some_iff.1 he').1
    obtain ⟨hat, hheld⟩ := (h b.registers).metadata i e he
    rw [hmetadata] at hat hheld
    rw [hvalue, (lastWritten_dmaRequests hle hin).2 _ (by omega) hat.1, he'] at hheld
    exact hheld
  · rintro ⟨hle, hfits⟩ registers
    obtain ⟨hcount, htable⟩ := lastWritten_dmaRequests hle hin
    refine ⟨⟨?_, by rw [hvalue, hcount]; rfl⟩, fun i e he => ?_, fun i e he => ?_⟩
    · exact hmaps dma entries.length (List.mem_append_right _ (List.mem_singleton_self _))
    · have hi := (List.getElem?_eq_some_iff.1 he).1
      have hat := hmaps _ _ (regWrite_mem_dmaRequests he).1
      rw [mappingAddress_eq (by omega)] at hat
      rw [Holds, hmapping]
      refine ⟨hat, ?_⟩
      rw [hvalue, htable i (by omega) hat.1, he]
      rfl
    · have hi := (List.getElem?_eq_some_iff.1 he).1
      have hat := hmaps _ _ (regWrite_mem_dmaRequests he).2
      have hsame : 19 + i = 3 + (i + 16) := by omega
      rw [metadataAddress_eq (by omega), hsame] at hat
      rw [Holds, hmetadata]
      refine ⟨hat, ?_⟩
      rw [hvalue, htable (i + 16) (by omega) hat.1, if_pos (by omega), Nat.add_sub_cancel, he]
      rcases he' : entries[i + 16]? with _ | e'
      · rfl
      · exact hfits i e e' he he'

/-- A deployer before a live bus, on which the call returns. -/
structure SetsUp (pl : Platform) (dma : Nat) (coreName : String) (nChannels : Nat)
    (s : DeployerBase) : Prop where
  fpgaLoaded : s.hw.fpgaLoaded = true
  sinkMode : s.hw.busses.sinkMode = false
  returns : ∃ n s', (setupOutputDma pl dma coreName nChannels).run s = .ok n s'

/-- The table is intact, whatever the registers held before, just when no mapping word comes to
the register of another metadata word. -/
theorem table_intact_iff {pl : Platform} {dma nChannels : Nat} {coreName : String}
    {s : DeployerBase} (h : SetsUp pl dma coreName nChannels s) :
    (∀ registers n s', (setupOutputDma pl dma coreName nChannels).run (s.withRegisters registers) =
        .ok n s' → TableIntact s'.hw.busses dma (entriesOf s.busMap coreName)) ↔
      TableFits (entriesOf s.busMap coreName) := by
  obtain ⟨hloaded, hsink, n, s', hrun⟩ := h
  obtain ⟨hready, hadmits, -, -⟩ := setupOutputDma_eq_ok.1 hrun
  have hmaps : ∀ a v, regWrite a v ∈ dmaRequests s.ivs dma (entriesOf s.busMap coreName) →
      s.hw.busses.MapsRegister (u64 a) := fun a v hr =>
    (hadmits _ hr hloaded).resolve_left (by simp [hsink])
  rw [← tableIntact_iff hsink hmaps]
  have hall : (dmaRequests s.ivs dma (entriesOf s.busMap coreName)).filter s.hw.reachesBus =
      dmaRequests s.ivs dma (entriesOf s.busMap coreName) := by
    refine List.filter_eq_self.2 fun r hr => ?_
    obtain ⟨a, v, -, rfl⟩ := onlyWrites_dmaRequests _ _ _ r hr
    exact hloaded
  have hbus : ∀ registers, ((labelEntries nChannels (entriesOf s.busMap coreName)
      (s.withRegisters registers)).emit
        (dmaRequests s.ivs dma (entriesOf s.busMap coreName))).hw.busses =
      { s.hw.busses with registers := registers }.performAll
        (dmaRequests s.ivs dma (entriesOf s.busMap coreName)) :=
    fun registers => congrArg (BusAccessor.performAll _) hall
  constructor
  · intro h registers
    rw [← hbus]
    exact h registers _ _ (setupOutputDma_eq_ok.2 ⟨hready, hadmits, rfl, rfl⟩)
  · intro h registers n s' hrun
    obtain ⟨-, -, -, rfl⟩ := setupOutputDma_eq_ok.1 hrun
    have htable := h registers
    rw [← hbus] at htable
    exact htable

/-- A deployer with entries of the one core. -/
def withOutputs (count : Nat) : DeployerBase :=
  { HilDeployer.fresh.toDeployerBase with
    busMap := List.replicate count ⟨"core", "out", "", "", 3, 0, 5, 0, ⟨.typeFloat, 32, true⟩⟩ }

/-- Two outputs of one core. -/
theorem table_intact_of_two : ∃ n s',
    (setupOutputDma .zeros 0x443C51000 "core" 1).run (withOutputs 2) = .ok n s' ∧
      TableIntact s'.hw.busses 0x443C51000 (entriesOf (withOutputs 2).busMap "core") := by
  obtain ⟨n, s', hrun, -⟩ : ∃ n s',
      (setupOutputDma .zeros 0x443C51000 "core" 1).run (withOutputs 2) = .ok n s' ∧ True :=
    Exec.exists_of_returnsIn (by decide +kernel)
  refine ⟨n, s', hrun, (table_intact_iff ⟨rfl, rfl, n, s', hrun⟩).2 ⟨by decide, ?_⟩
    (withOutputs 2).hw.busses.registers n s' hrun⟩
  intro i e e' _ he'
  have hi : i + 16 < 2 := (List.getElem?_eq_some_iff.1 he').1
  omega

/-- The mapping word of the last of 17 entries is where the metadata of the first one was. -/
theorem table_of_seventeen : ∃ n s',
    (setupOutputDma .zeros 0x443C51000 "core" 1).run (withOutputs 17) = .ok n s' ∧
      ¬TableIntact s'.hw.busses 0x443C51000 (entriesOf (withOutputs 17).busMap "core") := by
  obtain ⟨n, s', hrun, hvalue⟩ : ∃ n s',
      (setupOutputDma .zeros 0x443C51000 "core" 1).run (withOutputs 17) = .ok n s' ∧
        s'.hw.busses.registerValue (0x443C51000 + 76 + 4 * 0) = 0x50003 :=
    Exec.exists_of_returnsIn (by decide +kernel)
  refine ⟨n, s', hrun, fun h => ?_⟩
  have hfirst := (h.metadata 0 _ rfl).2
  rw [hvalue] at hfirst
  exact absurd hfirst (by decide)

end DeployerBase

end UscopeDriver
