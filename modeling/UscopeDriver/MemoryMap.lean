import UscopeDriver.Generators

/-!
# The memories among the peripherals

On the map of the tests a core has 16384 words : its number of channels in word 0, the output DMA
from word 1024 and the constant engine from word 2048. Channel `c` of the memory at address `a` is
word `a + 256 * c`, so four channels stay below the DMA, and the fifth is in it. What the memories
of a deployment are apart from is decided word by word (`memories_keep_out_iff`). Among themselves
they are always apart.
-/

namespace UscopeDriver

open HilDeployer LastWrite

/-! ## Written addresses -/

/-- The register that a request writes, if it is no load. -/
def Request.registerAddress : Request → Option Nat
  | .write address _ => some address
  | .load _ _ => none

/-- The registers that a list of requests writes. -/
def writtenAddresses (rs : List Request) : List Nat :=
  rs.filterMap Request.registerAddress

@[simp] theorem writtenAddresses_nil : writtenAddresses [] = [] := rfl

@[simp] theorem writtenAddresses_cons (a v : Nat) (rs : List Request) :
    writtenAddresses (regWrite a v :: rs) = u64 a :: writtenAddresses rs := rfl

@[simp] theorem writtenAddresses_append (rs rs' : List Request) :
    writtenAddresses (rs ++ rs') = writtenAddresses rs ++ writtenAddresses rs' :=
  List.filterMap_append

/-- The addresses of several lists of requests. -/
theorem writtenAddresses_flatMap {β : Type} (f : β → List Request) (xs : List β) :
    writtenAddresses (xs.flatMap f) = xs.flatMap fun x => writtenAddresses (f x) :=
  List.filterMap_flatMap

/-- Each address that is written is one of the allowed. -/
theorem OnlyWrites.exists_of_mem {A : Nat → Prop} {rs : List Request} (h : OnlyWrites A rs)
    {x : Nat} (hx : x ∈ writtenAddresses rs) : ∃ a, A a ∧ x = u64 a := by
  obtain ⟨r, hr, hrx⟩ := List.mem_filterMap.1 hx
  obtain ⟨a, v, ha, rfl⟩ := h r hr
  exact ⟨a, ha, (Option.some.inj hrx).symm⟩

/-- An entry writes its two registers, and those of the initial value if it has one. -/
theorem mem_entryRequests {ivs : String → String → Option (List Nat)} {address x : Nat}
    (e : DeployerInterconnectSlot) (k : Nat) :
    x ∈ writtenAddresses (DeployerBase.entryRequests ivs address e k) ↔
      x = u64 (DeployerBase.mappingAddress address k) ∨
      (ivs e.sourceId e.sourceName ≠ none ∧ (x = u64 (address + 8) ∨ x = u64 (address + 4))) ∨
      x = u64 (DeployerBase.metadataAddress address k) := by
  have hfill : ∀ (k channel : Nat) (iv : Option (List Nat)),
      x ∈ writtenAddresses (DeployerBase.fillRequests address k channel iv) ↔
        iv ≠ none ∧ (x = u64 (address + 8) ∨ x = u64 (address + 4)) := by
    intro k channel iv
    cases iv <;> simp [DeployerBase.fillRequests]
  simp only [DeployerBase.entryRequests, List.cons_append, writtenAddresses_cons,
    writtenAddresses_append, writtenAddresses_nil, List.mem_cons, List.mem_append, hfill,
    List.not_mem_nil, or_false]

/-- The registers of a DMA. Those of the initial values are written for an entry that has one. -/
theorem mem_dmaRequests {ivs : String → String → Option (List Nat)} {address x : Nat}
    {entries : List DeployerInterconnectSlot} :
    x ∈ writtenAddresses (DeployerBase.dmaRequests ivs address entries) ↔
      x = u64 address ∨
      ((∃ e ∈ entries, ivs e.sourceId e.sourceName ≠ none) ∧
        (x = u64 (address + 8) ∨ x = u64 (address + 4))) ∨
      ∃ k < entries.length, x = u64 (DeployerBase.mappingAddress address k) ∨
        x = u64 (DeployerBase.metadataAddress address k) := by
  have hzip : ∀ e k, (e, k) ∈ entries.zipIdx ↔ entries[k]? = some e := fun e k =>
    List.mk_mem_zipIdx_iff_getElem?
  simp only [DeployerBase.dmaRequests, writtenAddresses_append, writtenAddresses_flatMap,
    writtenAddresses_cons, writtenAddresses_nil, List.mem_append, List.mem_flatMap,
    List.mem_singleton, mem_entryRequests]
  constructor
  · rintro (⟨⟨e, k⟩, hek, h⟩ | h)
    · have hk : k < entries.length := List.snd_lt_of_mem_zipIdx hek
      have he : e ∈ entries := List.mem_of_getElem? ((hzip e k).1 hek)
      rcases h with h | ⟨hiv, h⟩ | h
      · exact Or.inr (Or.inr ⟨k, hk, Or.inl h⟩)
      · exact Or.inr (Or.inl ⟨⟨e, he, hiv⟩, h⟩)
      · exact Or.inr (Or.inr ⟨k, hk, Or.inr h⟩)
    · exact Or.inl h
  · rintro (h | ⟨⟨e, he, hiv⟩, h⟩ | ⟨k, hk, h⟩)
    · exact Or.inr h
    · obtain ⟨k, hk⟩ := List.mem_iff_getElem?.1 he
      exact Or.inl ⟨(e, k), (hzip e k).2 hk, Or.inr (Or.inl ⟨hiv, h⟩)⟩
    · refine Or.inl ⟨(entries[k], k), (hzip _ k).2 (List.getElem?_eq_getElem hk), ?_⟩
      exact h.imp_right Or.inr

/-! ## The cells of the memories -/

/-- A channel of a memory of a core. -/
structure MemoryCell where
  core : Nat
  address : Nat
  channel : Nat
  deriving DecidableEq, Repr

namespace MemoryCell

/-- The word of the core. -/
def word (m : MemoryCell) : Nat :=
  m.address + 256 * m.channel

/-- The register that `setup_memories` writes. -/
def register (m : MemoryCell) : Nat :=
  u64 (DeployerBase.memoryChannelAddress (controlAddress .addrMapV2 m.core) m.address m.channel)

/-- The cell is of a core, one of 255 addresses and one of 16 channels. -/
structure Fits (m : MemoryCell) : Prop where
  core_lt : m.core < 2 ^ 32
  address_pos : 0 < m.address
  address_lt : m.address < 256
  channel_lt : m.channel < 16

/-- The register of a word of a memory. -/
theorem Fits.register_eq {m : MemoryCell} (h : m.Fits) :
    m.register = 18316853248 + 65536 * m.core + 4 * m.word := by
  obtain ⟨hcore, -, haddress, hchannel⟩ := h
  have hmask : m.address &&& 0xFF = m.address := by
    rw [Nat.and_two_pow_sub_one_eq_mod m.address 8]
    exact Nat.mod_eq_of_lt haddress
  have hword : (m.address &&& 0xFF) + m.channel <<< 8 = m.word := by
    rw [hmask, Nat.shiftLeft_eq, word]
    omega
  have hlt : m.word < 4096 := by
    rw [word]
    omega
  rw [register, DeployerBase.memoryChannelAddress, controlAddress_addrMapV2 hcore, hword,
    u32_of_lt (show m.word < 2 ^ 32 by omega), u32_of_lt (show m.word * 4 < 2 ^ 32 by omega),
    u64_of_lt (by omega)]
  omega

/-- Distinct cells have distinct registers. -/
theorem Fits.register_injective {m m' : MemoryCell} (h : m.Fits) (h' : m'.Fits)
    (heq : m.register = m'.register) : m = m' := by
  rw [h.register_eq, h'.register_eq, word, word] at heq
  obtain ⟨hcore, hpos, haddress, hchannel⟩ := h
  obtain ⟨hcore', hpos', haddress', hchannel'⟩ := h'
  obtain ⟨core, address, channel⟩ := m
  obtain ⟨core', address', channel'⟩ := m'
  simp only at *
  have h₁ : core = core' := by omega
  have h₂ : address = address' := by omega
  have h₃ : channel = channel' := by omega
  rw [h₁, h₂, h₃]

/-! ## Where a cell meets a peripheral -/

/-- The cell is a register that the DMA of a core writes, with `n` entries, some with an initial
value or none. -/
def MeetsDma (m : MemoryCell) (core n : Nat) (initial : Prop) : Prop :=
  (initial ∧ m.core = core ∧ m.channel = 4 ∧ (m.address = 1 ∨ m.address = 2)) ∨
  ∃ k < min n (2 ^ 30), 16384 * m.core + m.word = 16384 * core + 1027 + k ∨
    16384 * m.core + m.word = 16384 * core + 1043 + k

/-- It is a register of a DMA at the same place in the map. -/
theorem Fits.register_eq_dma_iff {m : MemoryCell} (h : m.Fits) (core k : Nat)
    (hk : 18316853248 + 65536 * core + 4096 + k < 2 ^ 64) :
    m.register = u64 (18316853248 + 65536 * core + 4096 + k) ↔
      65536 * m.core + 4 * m.word = 65536 * core + 4096 + k := by
  rw [h.register_eq, u64_of_lt hk]
  omega

/-- The tables of the DMA start 3 and 19 words behind it, with 2 ^ 30 words until they wrap. -/
theorem Fits.register_eq_table_iff {m : MemoryCell} (h : m.Fits) {core : Nat}
    (hcore : core < 2 ^ 32) (k : Nat) :
    (m.register = u64 (DeployerBase.mappingAddress (18316853248 + 65536 * core + 4096) k) ↔
        16384 * m.core + m.word = 16384 * core + 1027 + k % 2 ^ 30) ∧
      (m.register = u64 (DeployerBase.metadataAddress (18316853248 + 65536 * core + 4096) k) ↔
        16384 * m.core + m.word = 16384 * core + 1043 + k % 2 ^ 30) := by
  have hu32 : u32 (k * 4) = 4 * (k % 2 ^ 30) := by
    unfold u32
    omega
  constructor
  · rw [DeployerBase.mappingAddress, hu32, Nat.add_assoc _ (3 * 4),
      h.register_eq_dma_iff core _ (by omega)]
    omega
  · rw [DeployerBase.metadataAddress, hu32, Nat.add_assoc _ (4 * (16 + 3)),
      h.register_eq_dma_iff core _ (by omega)]
    omega

/-- A DMA writes it just where the two meet. -/
theorem Fits.mem_dmaRequests {m : MemoryCell} (h : m.Fits)
    {ivs : String → String → Option (List Nat)} {core : Nat} (hcore : core < 2 ^ 32)
    {entries : List DeployerInterconnectSlot} :
    m.register ∈ writtenAddresses
        (DeployerBase.dmaRequests ivs (dmaAddress .addrMapV2 core) entries) ↔
      m.MeetsDma core entries.length (∃ e ∈ entries, ivs e.sourceId e.sourceName ≠ none) := by
  have hword : m.word = m.address + 256 * m.channel := rfl
  have hregister := h.register_eq_dma_iff core
  rw [UscopeDriver.mem_dmaRequests, dmaAddress_addrMapV2 hcore, MeetsDma]
  simp only [(h.register_eq_table_iff hcore _).1, (h.register_eq_table_iff hcore _).2]
  obtain ⟨-, hpos, haddress, hchannel⟩ := h
  constructor
  · rintro (heq | ⟨hinitial, heq⟩ | ⟨k, hk, heq⟩)
    · -- the number of entries is in a word that no memory has
      have := (hregister 0 (by omega)).1 heq
      omega
    · refine Or.inl ⟨hinitial, ?_⟩
      rw [hregister _ (by omega), hregister _ (by omega)] at heq
      omega
    · exact Or.inr ⟨k % 2 ^ 30, by omega, heq⟩
  · rintro (⟨hinitial, rfl, hc, ha⟩ | ⟨k, hk, heq⟩)
    · refine Or.inr (Or.inl ⟨hinitial, ?_⟩)
      rw [hregister _ (by omega), hregister _ (by omega)]
      omega
    · refine Or.inr (Or.inr ⟨k, by omega, ?_⟩)
      rwa [Nat.mod_eq_of_lt (by omega : k < 2 ^ 30)]

/-- The cell is a register that the engine of the constants of a core writes. -/
def MeetsEngine (m : MemoryCell) (core : Nat) : Prop :=
  m.core = core ∧ m.channel = 8 ∧ (m.address = 2 ∨ m.address = 3)

/-- A constant engine writes it just where the two meet. -/
theorem Fits.mem_constantRequests {m : MemoryCell} (h : m.Fits) {c : InputSetup} {core : Nat}
    (hcore : core < 2 ^ 32) (hip : c.ipAddress = 18316853248 + 65536 * core + 8192) :
    m.register ∈ writtenAddresses c.constantRequests ↔ m.MeetsEngine core := by
  have hword : m.word = m.address + 256 * m.channel := rfl
  have hlsb : constLsb = 0 := rfl
  have hdest : constDest = 8 := rfl
  have hselector : constSelector = 12 := rfl
  have hregister := h.register_eq
  obtain ⟨-, hpos, haddress, hchannel⟩ := h
  simp only [InputSetup.constantRequests, writtenAddresses_cons, writtenAddresses_nil,
    List.mem_cons, List.not_mem_nil, or_false]
  rw [u64_of_lt (by omega), u64_of_lt (by omega), u64_of_lt (by omega), MeetsEngine]
  omega

/-- No memory has the word of the number of channels of a core. -/
theorem Fits.ne_controlAddress {m : MemoryCell} (h : m.Fits) (i : UInt32) :
    m.register ≠ u64 (controlAddress .addrMapV2 i.toNat) := by
  have hi := i.toNat_lt
  have hword : m.word = m.address + 256 * m.channel := rfl
  rw [h.register_eq, controlAddress_addrMapV2 hi, u64_of_lt (by omega)]
  obtain ⟨-, hpos, haddress, hchannel⟩ := h
  omega

end MemoryCell

/-! ## The inputs stage -/

section Inputs

variable (pl : Platform) {others : Nat → Prop} {x : Nat} (hx : 18316853248 ≤ x)

include hx

/-- Above the generators an action reaches the engine of its core, or, with enough channels, a
register of the noise generator. -/
theorem mem_requests {a : InputAction}
    (hplaced : a.Placed LogicLayout.addrMapV2.bases.noiseGenerator
      LogicLayout.addrMapV2.bases.waveformGenerator others) {s : HilDeployer}
    (hs : s.addresses = .addrMapV2) :
    x ∈ writtenAddresses (a.requests pl s) ↔
      (∃ c, a = .setup c ∧ c.input.sourceType.IsConstant ∧
        x ∈ writtenAddresses c.constantRequests) ∨
      (a.generated .randomInput ≠ none ∧ x = u64 (LogicLayout.addrMapV2.bases.noiseGenerator +
        u32 ((s.activeRandomInputs + 1) * 4))) := by
  have hnoise : s.addresses.bases.noiseGenerator = 18316722176 := by rw [hs]; rfl
  cases a with
  | setup c =>
    obtain ⟨hready, -, hrandom, hwave⟩ := hplaced
    have hrequests : (InputAction.setup c).requests pl s = c.requests pl s.toDeployerBase := rfl
    rw [hrequests]
    cases htype : c.input.sourceType with
    | constantInput =>
      rw [InputSetup.requests_of_isConstant pl (Or.inl htype)]
      simp [InputAction.generated, htype, SourceType.IsConstant]
    | timeSeriesInput =>
      rw [InputSetup.requests_of_isConstant pl (Or.inr htype)]
      simp [InputAction.generated, htype, SourceType.IsConstant]
    | randomInput =>
      rw [InputSetup.requests_of_random pl htype, InputSetup.randomRequests, hrandom htype]
      simp [InputAction.generated, htype, SourceType.IsConstant]
    | waveformInput =>
      obtain ⟨p, hp⟩ := InputSetup.requests_of_waveform pl htype hready s.toDeployerBase
      have hbelow : x ∉ writtenAddresses (c.requests pl s.toDeployerBase) := fun hin => by
        rw [hp, hwave htype] at hin
        obtain ⟨_, ⟨k, hk, rfl⟩, heq⟩ :=
          (onlyWrites_squareRequests pl _ 0 _ _ _ _ p).exists_of_mem hin
        have hbase : LogicLayout.addrMapV2.bases.waveformGenerator = 18316787712 := rfl
        rw [hbase, u64_of_lt (by omega)] at heq
        omega
      simp [hbelow, InputAction.generated, htype, SourceType.IsConstant]
    | external =>
      have hnone : c.requests pl s.toDeployerBase = [] := by
        unfold InputSetup.requests
        rw [htype]
      simp [hnone, InputAction.generated, htype, SourceType.IsConstant]
  | label path coreIdx => simp [InputAction.requests, InputAction.generated]
  | enableRandom =>
    have hne : x ≠ u64 18316722176 := by
      rw [u64_of_lt (by norm_num)]
      omega
    simp only [InputAction.requests, hnoise, InputAction.generated]
    split_ifs <;> simp [hne]

/-- The inputs write to their engines and generators. -/
theorem mem_requestsOf {actions : List InputAction} (hplaced : ∀ a ∈ actions,
      a.Placed LogicLayout.addrMapV2.bases.noiseGenerator
        LogicLayout.addrMapV2.bases.waveformGenerator others) {s : HilDeployer}
    (hs : s.addresses = .addrMapV2) :
    x ∈ writtenAddresses (InputAction.requestsOf pl actions s) ↔
      (∃ c, .setup c ∈ actions ∧ c.input.sourceType.IsConstant ∧
        x ∈ writtenAddresses c.constantRequests) ∨
      ∃ j < (actions.filterMap (InputAction.generated .randomInput)).length,
        x = u64 (LogicLayout.addrMapV2.bases.noiseGenerator +
          u32 ((s.activeRandomInputs + j + 1) * 4)) := by
  induction actions generalizing s with
  | nil => simp [InputAction.requestsOf, Drives.requestsAlong]
  | cons a actions ih =>
    have hrequests : InputAction.requestsOf pl (a :: actions) s =
      a.requests pl s ++ InputAction.requestsOf pl actions (a.record s) := rfl
    have hrecord : (a.record s).addresses = .addrMapV2 := by rwa [InputAction.record_eq]
    rw [hrequests, writtenAddresses_append, List.mem_append,
      mem_requests pl hx (hplaced a (by simp)) hs,
      ih (fun b hb => hplaced b (by simp [hb])) hrecord,
      activeRandomInputs_record, filterMap_cons_toList, List.length_append]
    have hsetup : (∃ c, .setup c ∈ a :: actions ∧ c.input.sourceType.IsConstant ∧
        x ∈ writtenAddresses c.constantRequests) ↔
        (∃ c, a = .setup c ∧ c.input.sourceType.IsConstant ∧
          x ∈ writtenAddresses c.constantRequests) ∨
        ∃ c, .setup c ∈ actions ∧ c.input.sourceType.IsConstant ∧
          x ∈ writtenAddresses c.constantRequests := by
      simp only [List.mem_cons, or_and_right, exists_or, eq_comm]
    rw [hsetup]
    cases hg : a.generated .randomInput with
    | none => simp [or_assoc]
    | some d =>
      have hshift : ∀ j, u32 ((u32 (s.activeRandomInputs + 1) + j + 1) * 4) =
          u32 ((s.activeRandomInputs + (j + 1) + 1) * 4) := fun j => by
        unfold u32
        omega
      have hsplit : (∃ j < (actions.filterMap (InputAction.generated .randomInput)).length + 1,
          x = u64 (LogicLayout.addrMapV2.bases.noiseGenerator +
            u32 ((s.activeRandomInputs + j + 1) * 4))) ↔ _ := Nat.exists_lt_succ_left
      simp only [Option.toList_some, List.length_singleton, reduceCtorEq, not_false_eq_true,
        true_and, if_false, hshift, Nat.add_comm 1, ne_eq]
      rw [hsplit]
      exact or_or_or_comm

end Inputs

/-! ## The cells of a deployment -/

/-- The cells that a memory is initialised in, one for each channel when it has as many words. -/
def cellsOf (core nChannels : Nat) (m : MemoryInitValue) : List MemoryCell :=
  (List.range (if m.value.toWords.length = nChannels then nChannels else 1)).map fun channel =>
    ⟨core, (m.address.headD 0).toNat, channel⟩

/-- The cells that a deployment initialises. -/
def memoryCells (programs : List DeployedProgram) (memories : String → List MemoryInitValue) :
    List MemoryCell :=
  programs.flatMap fun p =>
    (memories p.name).flatMap (cellsOf (coreOf programs p.name) p.nChannels.toNat)

/-- Up to 16 channels, and memories at the addresses from 1 to 255. -/
structure MemoriesFit (programs : List DeployedProgram)
    (memories : String → List MemoryInitValue) : Prop where
  nChannels : ∀ p ∈ programs, p.nChannels.toNat ≤ 16
  address : ∀ p ∈ programs, ∀ m ∈ memories p.name,
    0 < (m.address.headD 0).toNat ∧ (m.address.headD 0).toNat < 256

/-- A core has an index of 32 bits. -/
theorem coreOf_lt {programs : List DeployedProgram} {p : DeployedProgram} (hp : p ∈ programs) :
    coreOf programs p.name < 2 ^ 32 := by
  obtain ⟨q, -, -, hq⟩ := exists_coreOf hp
  rw [hq]
  exact q.index.toNat_lt

/-- The words of memories that fit do. -/
theorem MemoriesFit.fits {programs : List DeployedProgram}
    {memories : String → List MemoryInitValue} (h : MemoriesFit programs memories)
    {m : MemoryCell} (hm : m ∈ memoryCells programs memories) : m.Fits := by
  obtain ⟨p, hp, hm⟩ := List.mem_flatMap.1 hm
  obtain ⟨v, hv, hm⟩ := List.mem_flatMap.1 hm
  obtain ⟨channel, hchannel, rfl⟩ := List.mem_map.1 hm
  obtain ⟨hpos, hlt⟩ := h.address p hp v hv
  have hn := h.nChannels p hp
  refine ⟨coreOf_lt hp, hpos, hlt, show channel < 16 from ?_⟩
  rw [List.mem_range] at hchannel
  split_ifs at hchannel <;> omega

/-- An initial value writes the registers of its words. -/
theorem writtenAddresses_memoryRequests (core nChannels : Nat) {m : MemoryInitValue}
    (h : (m.address.headD 0).toNat < 256) :
    writtenAddresses (DeployerBase.memoryRequests (controlAddress .addrMapV2 core) nChannels m) =
      (cellsOf core nChannels m).map MemoryCell.register := by
  unfold DeployerBase.memoryRequests cellsOf
  split_ifs with hn
  · have hrange : List.range nChannels = m.value.toWords.zipIdx.map Prod.snd := by
      rw [List.zipIdx_map_snd, hn, List.range_eq_range']
    rw [hrange, writtenAddresses, List.filterMap_map, List.map_map, List.map_map,
      ← List.filterMap_eq_map]
    rfl
  · generalize (m.address.headD 0).toNat = address at h ⊢
    have hmask : address &&& 0xFF = address := by
      rw [Nat.and_two_pow_sub_one_eq_mod address 8]
      exact Nat.mod_eq_of_lt h
    have hword : u32 (address &&& 0xFF) = address := by
      rw [hmask]
      exact u32_of_lt (by omega)
    simp [MemoryCell.register, DeployerBase.memoryChannelAddress, hword]

section Deployment

variable {Spec : Type} {env : Environment Spec} {arguments : Spec}
  {programs : List DeployedProgram} {slots : List DeployerInterconnectSlot}
  {memories : String → List MemoryInitValue} {s : HilDeployer} (hs : s.addresses = .addrMapV2)

include hs

/-- The memories are written cell by cell. -/
theorem writtenAddresses_memories (hfit : MemoriesFit programs memories) :
    writtenAddresses (programs.flatMap
        (programMemoryRequests memories (prepared env arguments programs slots s))) =
      (memoryCells programs memories).map MemoryCell.register := by
  rw [writtenAddresses_flatMap, memoryCells, List.map_flatMap]
  refine List.flatMap_congr fun p hp => ?_
  have haddresses : (prepared env arguments programs slots s).addresses = .addrMapV2 := hs
  rw [programMemoryRequests, writtenAddresses_flatMap, List.map_flatMap,
    coresIdx_prepared env arguments slots s hp, haddresses]
  exact List.flatMap_congr fun m hm =>
    writtenAddresses_memoryRequests _ _ (hfit.address p hp m hm).2

omit hs in
/-- The memories meet an engine in two of its three registers, where it is set up at all. -/
theorem mem_engines {m : MemoryCell} (hm : m.Fits) (hready : ∀ a ∈ inputActions .addrMapV2
      (env.dispatcher arguments) programs, a.Ready) :
    (∃ c, .setup c ∈ inputActions .addrMapV2 (env.dispatcher arguments) programs ∧
        c.input.sourceType.IsConstant ∧ m.register ∈ writtenAddresses c.constantRequests) ↔
      ∃ p ∈ programs, m.MeetsEngine p.index.toNat ∧
        ∃ input ∈ inputsOf (env.dispatcher arguments) p.name,
          input.sourceType.IsConstant ∧ input.data ≠ [] := by
  have hip : ∀ (p : DeployedProgram) {c : InputSetup} {type : SourceType},
      c.ipAddress = inputIpAddress .addrMapV2 p type → type.IsConstant →
        (m.register ∈ writtenAddresses c.constantRequests ↔ m.MeetsEngine p.index.toNat) := by
    intro p c type hip htype
    refine hm.mem_constantRequests p.index.toNat_lt ?_
    rw [hip, inputIpAddress_addrMapV2]
    rcases htype with rfl | rfl <;> simp [SourceType.IsGenerated]
  constructor
  · rintro ⟨c, hc, hconstant, hmem⟩
    obtain ⟨p, hp, hcp⟩ := List.mem_flatMap.1 hc
    obtain ⟨input, hi, hinput, hipc, hdata⟩ := setup_mem_ofProgram hcp
    have htype : c.input.sourceType = input.sourceType := by rw [hinput]
    rw [htype] at hconstant
    refine ⟨p, hp, (hip p hipc hconstant).1 hmem, input, hi, hconstant, fun hnil => ?_⟩
    rw [hnil, List.suffix_nil] at hdata
    have hr : c.Ready := hready _ hc
    unfold InputSetup.Ready at hr
    rw [htype] at hr
    rcases hconstant with h | h <;> rw [h] at hr <;> exact hr.2.1 hdata
  · rintro ⟨p, hp, hmeets, input, hi, hconstant, hdata⟩
    obtain ⟨k, hk⟩ := @exists_ofInput_subset .addrMapV2 p _ _ hi 0
    obtain ⟨c, hc⟩ := exists_setup_of_input .addrMapV2 p k (Or.inr ⟨hconstant, hdata⟩)
    obtain ⟨hinput, hipc, -⟩ := input_of_setup_mem hc
    have htype : c.input.sourceType = input.sourceType := by rw [hinput]
    exact ⟨c, List.mem_flatMap.2 ⟨p, hp, List.mem_append_left _ (hk hc)⟩, by rwa [htype],
      (hip p hipc hconstant).2 hmeets⟩

/-- The memories meet the output DMAs. -/
theorem mem_dmas {m : MemoryCell} (hm : m.Fits) :
    m.register ∈ writtenAddresses
        (programs.flatMap (prepared env arguments programs slots s).programDmaRequests) ↔
      ∃ p ∈ programs, m.MeetsDma (coreOf programs p.name)
        (DeployerBase.entriesOf slots p.name).length (∃ e ∈ DeployerBase.entriesOf slots p.name,
          specIvs slots programs e.sourceId e.sourceName ≠ none ∨
            s.ivs e.sourceId e.sourceName ≠ none) := by
  have haddresses : (prepared env arguments programs slots s).addresses = .addrMapV2 := hs
  have hivs : ∀ id name, (prepared env arguments programs slots s).ivs id name ≠ none ↔
      specIvs slots programs id name ≠ none ∨ s.ivs id name ≠ none := fun id name => by
    have hmerged : (prepared env arguments programs slots s).ivs id name =
      (specIvs slots programs id name).or (s.ivs id name) := rfl
    rw [hmerged, ne_eq, Option.or_eq_none_iff, not_and_or]
  have hmap : (prepared env arguments programs slots s).busMap = slots := rfl
  rw [writtenAddresses_flatMap, List.mem_flatMap]
  refine exists_congr fun p => and_congr_right fun hp => ?_
  rw [programDmaRequests, haddresses, hmap, coresIdx_prepared env arguments slots s hp,
    hm.mem_dmaRequests (coreOf_lt hp)]
  simp only [hivs]

omit hs in
/-- The memories meet the noise generator, when it has enough channels. -/
theorem mem_noise {m : MemoryCell} (hm : m.Fits) (n : Nat) :
    (∃ j < n, m.register = u64 (LogicLayout.addrMapV2.bases.noiseGenerator +
        u32 ((0 + j + 1) * 4))) ↔
      32768 + 16384 * m.core + m.word ≤ n ∧ 32768 + 16384 * m.core + m.word < 2 ^ 30 := by
  have hregister : ∀ j, m.register = u64 (LogicLayout.addrMapV2.bases.noiseGenerator +
      u32 ((0 + j + 1) * 4)) ↔ 32768 + 16384 * m.core + m.word = (j + 1) % 2 ^ 30 := fun j => by
    have hu32 : u32 ((0 + j + 1) * 4) = 4 * ((j + 1) % 2 ^ 30) := by
      unfold u32
      omega
    have hbase : LogicLayout.addrMapV2.bases.noiseGenerator = 18316722176 := rfl
    rw [hm.register_eq, hu32, hbase, u64_of_lt (by omega)]
    omega
  simp only [hregister]
  constructor
  · rintro ⟨j, hj, heq⟩
    omega
  · rintro ⟨hle, hlt⟩
    exact ⟨32768 + 16384 * m.core + m.word - 1, by omega, by omega⟩

/-- The memories meet the inputs stage in an engine or in the noise generator. -/
theorem mem_inputs {m : MemoryCell} (hm : m.Fits)
    (hel : Elaborates (env.dispatcher arguments) programs slots memories)
    (hready : ∀ a ∈ inputActions .addrMapV2 (env.dispatcher arguments) programs, a.Ready) :
    m.register ∈ writtenAddresses (InputAction.requestsOf env.platform
        (inputActions .addrMapV2 (env.dispatcher arguments) programs)
        (labelPrograms programs (prepared env arguments programs slots s))) ↔
      (∃ p ∈ programs, m.MeetsEngine p.index.toNat ∧
        ∃ input ∈ inputsOf (env.dispatcher arguments) p.name,
          input.sourceType.IsConstant ∧ input.data ≠ []) ∨
      32768 + 16384 * m.core + m.word ≤
          ((env.dispatcher arguments).generatorDestinations .randomInput).length ∧
        32768 + 16384 * m.core + m.word < 2 ^ 30 := by
  have hcount := congrArg List.length
    (generated_deployed hel (.inl rfl : SourceType.randomInput.IsGenerated) .addrMapV2)
  have hactive : (labelPrograms programs
    (prepared env arguments programs slots s)).activeRandomInputs = 0 := rfl
  have hinputs := mem_requestsOf env.platform (x := m.register) (by rw [hm.register_eq]; omega)
    (placed_inputActions hel hready)
    (s := labelPrograms programs (prepared env arguments programs slots s)) hs
  rwa [mem_engines hm hready, hcount, hactive, mem_noise hm] at hinputs

/-- The memories meet no control register. -/
theorem not_mem_cores {m : MemoryCell} (hm : m.Fits) :
    m.register ∉ writtenAddresses
      (programs.map (prepared env arguments programs slots s).coreRequest) := by
  have haddresses : (prepared env arguments programs slots s).addresses = .addrMapV2 := hs
  intro hin
  obtain ⟨r, hr, hrm⟩ := List.mem_filterMap.1 hin
  obtain ⟨p, -, rfl⟩ := List.mem_map.1 hr
  rw [coreRequest, haddresses] at hrm
  exact hm.ne_controlAddress p.index (Option.some.inj hrm).symm

/-- The cell meets no register that another stage writes. -/
structure MemoryCell.Clear (m : MemoryCell) (dispatcher : EmulatorDispatcher)
    (programs : List DeployedProgram) (slots : List DeployerInterconnectSlot)
    (ivs : String → String → Option (List Nat)) : Prop where
  dma : ∀ p ∈ programs, ¬m.MeetsDma (coreOf programs p.name)
    (DeployerBase.entriesOf slots p.name).length (∃ e ∈ DeployerBase.entriesOf slots p.name,
      specIvs slots programs e.sourceId e.sourceName ≠ none ∨ ivs e.sourceId e.sourceName ≠ none)
  engine : ∀ p ∈ programs, m.MeetsEngine p.index.toNat →
    ∀ input ∈ inputsOf dispatcher p.name, input.sourceType.IsConstant → input.data = []
  noise : (dispatcher.generatorDestinations .randomInput).length <
      32768 + 16384 * m.core + m.word ∨ 2 ^ 30 ≤ 32768 + 16384 * m.core + m.word

omit hs in
/-- Up to four channels a memory meets nothing, while the tables of the other cores and of the noise
generator end before the next core. -/
theorem clear_of_channel_lt_four {m : MemoryCell} (hm : m.Fits) (hchannel : m.channel < 4)
    (hentries : ∀ p ∈ programs, (DeployerBase.entriesOf slots p.name).length ≤ 15341)
    (hrandom : ((env.dispatcher arguments).generatorDestinations .randomInput).length ≤ 32768)
    (ivs : String → String → Option (List Nat)) :
    m.Clear (env.dispatcher arguments) programs slots ivs := by
  have hword : m.word = m.address + 256 * m.channel := rfl
  obtain ⟨hcore, hpos, haddress, -⟩ := hm
  refine ⟨fun p hp hmeets => ?_, fun p hp hmeets => ?_, Or.inl (by omega)⟩
  · have hn := hentries p hp
    rcases hmeets with ⟨-, -, hc, -⟩ | ⟨k, hk, heq⟩
    · omega
    · omega
  · obtain ⟨-, hc, -⟩ := hmeets
    omega

/-- No register that the memories of a deployment are written to is written by the output DMAs, the
inputs or the cores. `s` is the prepared deployer. -/
def MemoriesKeepOut (env : Environment Spec) (arguments : Spec) (programs : List DeployedProgram)
    (memories : String → List MemoryInitValue) (s : HilDeployer) : Prop :=
  ∀ a ∈ writtenAddresses (programs.flatMap (programMemoryRequests memories s)),
    a ∉ writtenAddresses (programs.flatMap s.programDmaRequests) ∧
    a ∉ writtenAddresses (InputAction.requestsOf env.platform
      (inputActions s.addresses (env.dispatcher arguments) programs)
      (labelPrograms programs s)) ∧
    a ∉ writtenAddresses (programs.map s.coreRequest)

/-- On the map of the tests, with up to 16 channels and memories at the addresses from 1 to 255, the
memories of a deployment keep out of the peripherals exactly when each of their cells is clear : of
the DMA of a core, of the engine of its own core and of the noise generator. Each memory, channel
and core has a register of its own. -/
theorem memories_keep_out_iff {s' : HilDeployer} {u : Unit}
    (h : (deploy env arguments).run s = .ok u s')
    (hp : (env.dispatcher arguments).getPrograms = .ok programs)
    (hslots : (env.dispatcher arguments).getInterconnectSlots = .ok slots)
    (hmemories : (env.dispatcher arguments).getMemoryInitializations = .ok memories)
    (hfit : MemoriesFit programs memories) :
    (MemoriesKeepOut env arguments programs memories (prepared env arguments programs slots s) ↔
      ∀ m ∈ memoryCells programs memories,
        m.Clear (env.dispatcher arguments) programs slots s.ivs) ∧
    writtenAddresses (programs.flatMap
        (programMemoryRequests memories (prepared env arguments programs slots s))) =
      (memoryCells programs memories).map MemoryCell.register ∧
    ∀ m ∈ memoryCells programs memories, ∀ m' ∈ memoryCells programs memories,
      m.register = m'.register → m = m' := by
  obtain ⟨programs', slots', memories', hel, hd, -, rfl⟩ := deploy_eq_ok.1 h
  obtain rfl := hel.programs_eq hp
  obtain rfl := hel.slots_eq hslots
  obtain rfl := hel.memories_eq hmemories
  have hwritten : writtenAddresses (programs'.flatMap
      (programMemoryRequests memories' (prepared env arguments programs' slots' s))) =
        (memoryCells programs' memories').map MemoryCell.register :=
    writtenAddresses_memories hs hfit
  refine ⟨?_, hwritten, fun m hm m' hm' => (hfit.fits hm).register_injective (hfit.fits hm')⟩
  rw [MemoriesKeepOut, hwritten, List.forall_mem_map]
  refine forall₂_congr fun m hm => ?_
  have hmfit := hfit.fits hm
  have hready : ∀ a ∈ inputActions .addrMapV2 (env.dispatcher arguments) programs', a.Ready := by
    rw [← hs]
    exact hd.inputsReady
  have haddresses : (prepared env arguments programs' slots' s).addresses = .addrMapV2 := hs
  rw [haddresses, mem_dmas hs hmfit, mem_inputs hs hmfit hel hready]
  constructor
  · rintro ⟨hdma, hinputs, -⟩
    rw [not_or] at hinputs
    refine ⟨fun p hp hmeets => hdma ⟨p, hp, hmeets⟩, fun p hp hmeets input hi hconstant => ?_, ?_⟩
    · by_contra hdata
      exact hinputs.1 ⟨p, hp, hmeets, input, hi, hconstant, hdata⟩
    · omega
  · rintro ⟨hdma, hengine, hnoise⟩
    refine ⟨?_, ?_, not_mem_cores hs hmfit⟩
    · rintro ⟨p, hp, hmeets⟩
      exact hdma p hp hmeets
    · rintro (⟨p, hp, hmeets, input, hi, hconstant, hdata⟩ | hle)
      · exact hdata (hengine p hp hmeets input hi hconstant)
      · omega

end Deployment

/-- A core with `n` channels, an output and a memory at the address 3 with a word for each. -/
def memoryCore (n : UInt32) : DeployedProgram :=
  ⟨"core", 0, 1, 100, n, [], ⟨10, 0⟩, []⟩

/-- One initial value with as many words as the specification says. -/
def memoryWords (n : UInt32) : String → List MemoryInitValue :=
  fun _ => [⟨[3], .words (List.replicate n.toNat 7)⟩]

/-- A slot from the core to itself. -/
def memoryOutput : DeployerInterconnectSlot :=
  ⟨"core", "out", "", "", 3, 0, 5, 0, ⟨.typeFloat, 32, true⟩⟩

/-- The specification is the number of words of the initial value. -/
def withMemory : Environment UInt32 :=
  .of (fun n => { EmulatorDispatcher.returning [memoryCore n] [memoryOutput] with
    getMemoryInitializations := .ok (memoryWords n) }) fun _ => 1

/-- A memory of two words on two channels. -/
theorem memories_keep_out_two_channels : ∃ u s', (deploy withMemory 2).run fresh = .ok u s' ∧
    MemoriesKeepOut withMemory 2 [memoryCore 2] (memoryWords 2)
      (prepared withMemory 2 [memoryCore 2] [memoryOutput] fresh) := by
  obtain ⟨u, s', h, -⟩ : ∃ u s', (deploy withMemory 2).run fresh = .ok u s' ∧ True :=
    Exec.exists_of_returnsIn (by decide +kernel)
  have hfit : MemoriesFit [memoryCore 2] (memoryWords 2) := ⟨by decide, by decide⟩
  refine ⟨u, s', h, (memories_keep_out_iff rfl h rfl rfl rfl hfit).1.2 fun m hm => ?_⟩
  have hchannel : ∀ m ∈ memoryCells [memoryCore 2] (memoryWords 2), m.channel < 4 := by
    decide +kernel
  exact clear_of_channel_lt_four (hfit.fits hm) (hchannel m hm) (by decide) (by decide) _

/-- The fifth channel of the memory is the first mapping register of the output DMA. -/
theorem memory_in_dma : ∃ u s', (deploy withMemory 5).run fresh = .ok u s' ∧
    MemoriesFit [memoryCore 5] (memoryWords 5) ∧
      ¬MemoriesKeepOut withMemory 5 [memoryCore 5] (memoryWords 5)
        (prepared withMemory 5 [memoryCore 5] [memoryOutput] fresh) := by
  obtain ⟨u, s', h, -⟩ : ∃ u s', (deploy withMemory 5).run fresh = .ok u s' ∧ True :=
    Exec.exists_of_returnsIn (by decide +kernel)
  refine ⟨u, s', h, ⟨by decide, by decide⟩, fun hkeep => ?_⟩
  exact (hkeep 18316857356 (by decide +kernel)).1 (by decide +kernel)

end UscopeDriver
