import UscopeDriver.Frames

/-!
# 64-bit values on 32-bit registers

The address of the DMA buffer and the counts of a square wave have 64 bits, and one register each.
They are narrowed on the way to it, at the call of `write_direct` or of `write_register`. A value
`Transfers` when the call records all of it, in registers of its own, or throws before any write.
That needs a bitstream, and a value of 32 bits (`transfers_iff`).
-/

namespace UscopeDriver

/-- The number of 32-bit words, the lowest first. -/
def ofWords : List Nat → Nat
  | [] => 0
  | word :: words => word + 2 ^ 32 * ofWords words

/-- Some operations write the words of the value to different registers, none of `others`. -/
def Carries (ops : List BusOp) (others : List Nat) (value : Nat) : Prop :=
  ∃ writes : List (Nat × Nat), writes ≠ [] ∧ (writes.map Prod.fst).Nodup ∧
    (∀ write ∈ writes, write.1 ∉ others ∧
      (⟨[write.1], [write.2], .controlPlaneWrite⟩ : BusOp) ∈ ops) ∧
    ofWords (writes.map Prod.snd) = value

/-- Nothing carries no value. -/
theorem not_carries_nil (others : List Nat) (value : Nat) : ¬Carries [] others value := by
  rintro ⟨writes, hne, -, hmem, -⟩
  obtain ⟨write, hwrite⟩ := List.exists_mem_of_ne_nil writes hne
  exact absurd (hmem write hwrite).2 List.not_mem_nil

/-- Where one register only is not of another value, its word is all that is carried. -/
theorem carries_iff_of_single {ops : List BusOp} {others : List Nat} (address word : Nat)
    (hat : address ∉ others)
    (hmem : (⟨[address], [word], .controlPlaneWrite⟩ : BusOp) ∈ ops)
    (honly : ∀ a w, a ∉ others → (⟨[a], [w], .controlPlaneWrite⟩ : BusOp) ∈ ops →
      a = address ∧ w = word) (value : Nat) : Carries ops others value ↔ value = word := by
  constructor
  · rintro ⟨writes, hne, hnodup, hall, rfl⟩
    have heach : ∀ write ∈ writes, write = (address, word) := fun write hwrite =>
      Prod.ext_iff.2 (honly _ _ (hall write hwrite).1 (hall write hwrite).2)
    match writes, hne with
    | [write], _ =>
      rw [heach write (List.mem_singleton_self _)]
      simp [ofWords]
    | write :: write' :: writes, _ =>
      have hsame : write.1 = write'.1 := by
        rw [heach write (by simp), heach write' (by simp)]
      simp [hsame] at hnodup
  · rintro rfl
    refine ⟨[(address, value)], List.cons_ne_nil _ _, List.nodup_singleton _, ?_, by simp [ofWords]⟩
    intro write hwrite
    rw [List.mem_singleton.1 hwrite]
    exact ⟨hat, hmem⟩

/-- A value keeps its 32 bits exactly if it has no more. -/
theorem eq_u32_iff {value : Nat} : value = u32 value ↔ value < 2 ^ 32 :=
  ⟨fun h => h ▸ u32_lt value, fun h => (u32_of_lt h).symm⟩

section Transfers

variable {σ : Type} [Drives σ]

/-- A call that returns has recorded operations that carry the value, and one that throws has
recorded none. -/
structure Transfers (m : Exec Failure σ Unit) (s : σ) (others : List Nat) (value : Nat) : Prop where
  returned : ∀ u s', m.run s = .ok u s' → ∃ ops,
    (Drives.hw s').busses.operations = (Drives.hw s).busses.operations ++ ops ∧
      Carries ops others value
  thrown : ∀ e s', m.run s = .error e s' → e.Throws →
    (Drives.hw s').busses.operations = (Drives.hw s).busses.operations

/-- A call that makes requests under a condition, and none when it throws. -/
theorem transfers_iff_carries {m : Exec Failure σ Unit} {s : σ} {others : List Nat} {value : Nat}
    {C : Prop} {rs : List Request}
    (hok : (∃ u s', m.run s = .ok u s') ↔ C)
    (hrun : ∀ u s', m.run s = .ok u s' → Drives.hw s' = (Drives.hw s).performAll rs)
    (hthrows : ∀ e s', m.run s = .error e s' → e.Throws → s' = s) :
    Transfers m s others value ↔ (C → Carries ((Drives.hw s).logged rs) others value) := by
  constructor
  · intro h hC
    obtain ⟨u, s', hs'⟩ := hok.2 hC
    obtain ⟨ops, hops, hcarries⟩ := h.returned u s' hs'
    rw [hrun u s' hs', FpgaBridge.performAll_operations] at hops
    rwa [List.append_cancel_left hops]
  · intro h
    refine ⟨fun u s' hs' => ⟨_, ?_, h (hok.1 ⟨u, s', hs'⟩)⟩, fun e s' hs' he => ?_⟩
    · rw [hrun u s' hs', FpgaBridge.performAll_operations]
    · rw [hthrows e s' hs' he]

end Transfers

/-! ## The address of the buffer -/

namespace FpgaBridge

/-- The address that a call reads, none without a file for the architecture. -/
def bufferAddresses (d : InterfacesDictionary) (file : String → Nat) : List Nat :=
  match d.getBufferAddressIf with
  | .ok path => [file path]
  | .error _ => []

variable {d : InterfacesDictionary} {file : String → Nat} {addr : Nat} {hw : FpgaBridge}

/-- A register write is recorded behind a bitstream. -/
theorem logged_regWrite (address value : Nat) :
    hw.logged [regWrite address value] =
      if hw.fpgaLoaded = true then
        [⟨[u64 address], [u32 value], .controlPlaneWrite⟩]
      else [] := by
  by_cases h : hw.fpgaLoaded = true <;> simp [logged, regWrite, reachesBus, Request.op, h]

/-- It carries the value if that fits. -/
theorem carries_regWrite (address value : Nat) :
    Carries (hw.logged [regWrite address value]) [] value ↔
      hw.fpgaLoaded = true ∧ value < 2 ^ 32 := by
  rw [logged_regWrite]
  by_cases h : hw.fpgaLoaded = true
  · rw [if_pos h, carries_iff_of_single (u64 address) (u32 value)
      List.not_mem_nil (List.mem_singleton_self _), eq_u32_iff, and_iff_right h]
    intro a w _ hmem
    simpa using hmem
  · rw [if_neg h]
    exact iff_of_false (not_carries_nil _ _) fun hand => h hand.1

/-- The address of the buffer is carried over just if it fits. -/
theorem transfers_setScopeData {value : Nat} (hvalue : value ∈ bufferAddresses d file) :
    Transfers (setScopeData d file addr) hw [] value ↔
      (hw.Admits [regWrite addr value] → hw.fpgaLoaded = true ∧ value < 2 ^ 32) := by
  unfold bufferAddresses at hvalue
  cases hpath : d.getBufferAddressIf with
  | error e => simp [hpath] at hvalue
  | ok path =>
    obtain rfl : value = file path := by simpa [hpath] using hvalue
    have hrun : (setScopeData d file addr).run hw = (writeDirect addr (file path)).run hw := by
      unfold setScopeData
      rw [hpath]
      rfl
    rw [← carries_regWrite addr]
    refine transfers_iff_carries (s := hw) ?_ ?_ ?_
    · rw [hrun]
      exact ⟨fun ⟨u, hw', h⟩ => (writeDirect_eq_ok.1 h).1,
        fun h => ⟨(), _, writeDirect_eq_ok.2 ⟨h, rfl⟩⟩⟩
    · intro u hw' h
      rw [hrun] at h
      exact (writeDirect_eq_ok.1 h).2
    · intro e hw' h he
      rw [hrun] at h
      exact ((@frame_writeDirect _ fatal_exit False _ _ hw).of_error h (not_not.2 he)).1.elim

end FpgaBridge

/-! ## The counts of a square wave -/

namespace SquareWaveGen

/-- The registers of a waveform generator. -/
def registers : List Nat :=
  [activeChannels, shapeSelector, channelSelector, vOn, vOff, tDelay, tOn, period, destOut, userOut]

/-- The registers of the generator at an address, but for one. -/
def otherRegisters (address register : Nat) : List Nat :=
  (registers.filter (· ≠ register)).map fun k => u64 (address + k)

end SquareWaveGen

namespace DeployerBase

/-- The counts of a channel, each with its register. -/
def cycleCounts (pl : Platform) (clock : ℚ) (channel : Nat) (p : SquareWaveParameters) :
    List (Nat × Nat) :=
  [(SquareWaveGen.period, pl.toUint64 (pl.mulFloat (p.period.getD channel 0) clock)),
    (SquareWaveGen.tOn, pl.toUint64 (pl.mulFloat (p.tOn.getD channel 0) clock)),
    (SquareWaveGen.tDelay, pl.toUint64 (pl.mulFloat (p.tDelay.getD channel 0) clock))]

/-- The channel of a waveform, out of its destination. -/
def channelOf (dest : Nat) : Nat := (0xFFF0000 &&& dest) >>> 16

/-- The parameters have the channel. -/
def HasChannel (p : SquareWaveParameters) (channel : Nat) : Prop :=
  channel < p.period.length ∧ channel < p.tOn.length ∧ channel < p.tDelay.length ∧
    channel < p.vOn.length ∧ channel < p.vOff.length

variable {pl : Platform} {address dest : Nat} {p : SquareWaveParameters} {s s' : DeployerBase}

/-- The requests of a square wave. -/
def waveRequests (pl : Platform) (address dest : Nat) (p : SquareWaveParameters)
    (s : DeployerBase) : List Request :=
  InputSetup.squareRequests pl address dest (channelOf dest) s.activeWaveforms s.hilClockFrequency p

/-- A square wave is set up exactly if the channel has its parameters. -/
theorem setupWaveform_eq_ok {u : Unit} :
    (setupWaveform pl address dest (.square p)).run s = .ok u s' ↔
      HasChannel p (channelOf dest) ∧ s.hw.Admits (waveRequests pl address dest p s) ∧
        s' = { s with activeWaveforms := u32 (s.activeWaveforms + 1) }.emit
          (waveRequests pl address dest p s) := by
  have hchannel : (0xFFF0000 &&& dest) >>> 16 = channelOf dest := rfl
  simp only [setupWaveform, hchannel, Exec.bind_eq_ok, Exec.gets_eq_ok, index_eq_ok (0 : UInt32),
    index_eq_ok (0 : ℚ), Exec.modify_eq_ok, writeRegister_eq_ok, exists_const, and_assoc,
    exists_and_left, exists_eq_left, emit, FpgaBridge.admits_performAll,
    FpgaBridge.performAll_performAll, List.cons_append, List.nil_append, waveRequests,
    InputSetup.squareRequests, FpgaBridge.admits_cons_cons, HasChannel]
  tauto

/-- The words of a square wave and their registers, in the order of the writes. -/
def squareWrites (pl : Platform) (dest : Nat) (p : SquareWaveParameters) (s : DeployerBase) :
    List (Nat × Nat) :=
  [(SquareWaveGen.channelSelector, s.activeWaveforms),
    (SquareWaveGen.vOn, (p.vOn.getD (channelOf dest) 0).toNat),
    (SquareWaveGen.vOff, (p.vOff.getD (channelOf dest) 0).toNat)] ++
  (cycleCounts pl s.hilClockFrequency (channelOf dest) p).reverse ++
  [(SquareWaveGen.destOut, dest), (SquareWaveGen.shapeSelector, 0),
    (SquareWaveGen.userOut, getMetadataValue 32 true true),
    (SquareWaveGen.activeChannels, u32 (s.activeWaveforms + 1))]

/-- The writes of a wave are at the offsets of its generator. -/
theorem waveRequests_eq_map :
    waveRequests pl address dest p s =
      (squareWrites pl dest p s).map fun write => regWrite (address + write.1) write.2 := rfl

/-- Each register of the generator is written once. -/
theorem squareWrites_fst_perm (pl : Platform) (dest : Nat) (p : SquareWaveParameters)
    (s : DeployerBase) : ((squareWrites pl dest p s).map Prod.fst).Perm
    SquareWaveGen.registers := by
  have hfst : (squareWrites pl dest p s).map Prod.fst =
      [0x8, 0xC, 0x10, 0x14, 0x18, 0x1C, 0x20, 0x4, 0x24, 0x0] := rfl
  rw [hfst]
  decide

/-- The registers of a generator lie close together, so none shadows another. -/
theorem u64_register_inj (address : Nat) {k k' : Nat} (hk : k ∈ SquareWaveGen.registers)
    (hk' : k' ∈ SquareWaveGen.registers) (h : u64 (address + k) = u64 (address + k')) : k = k' := by
  have hsmall : ∀ k ∈ SquareWaveGen.registers, k < 2 ^ 6 := by decide
  have hlt := hsmall k hk
  have hlt' := hsmall k' hk'
  unfold u64 at h
  omega

/-- Without a bitstream nothing is recorded. -/
theorem logged_waveRequests_of_not_loaded (h : s.hw.fpgaLoaded ≠ true) :
    s.hw.logged (waveRequests pl address dest p s) = [] := by
  rw [FpgaBridge.logged, List.map_eq_nil_iff, List.filter_eq_nil_iff, waveRequests_eq_map]
  intro r hr
  obtain ⟨write, -, rfl⟩ := List.mem_map.1 hr
  exact h

/-- With a bitstream loaded a count has its register for itself. -/
theorem carries_count {count : Nat × Nat}
    (hcount : count ∈ cycleCounts pl s.hilClockFrequency (channelOf dest) p) :
    Carries (s.hw.logged (waveRequests pl address dest p s))
        (SquareWaveGen.otherRegisters address count.1) count.2 ↔
      s.hw.fpgaLoaded = true ∧ count.2 < 2 ^ 32 := by
  have hperm := squareWrites_fst_perm pl dest p s
  have hnodup : ((squareWrites pl dest p s).map Prod.fst).Nodup :=
    hperm.nodup_iff.2 (by decide)
  have hwrite : count ∈ squareWrites pl dest p s := by
    refine List.mem_append_left _ (List.mem_append_right _ (List.mem_reverse.2 hcount))
  have hregister : ∀ write ∈ squareWrites pl dest p s, write.1 ∈ SquareWaveGen.registers :=
    fun write h => hperm.mem_iff.1 (List.mem_map_of_mem h)
  by_cases hloaded : s.hw.fpgaLoaded = true
  · rw [FpgaBridge.logged_of_loaded hloaded, waveRequests_eq_map, List.map_map,
      carries_iff_of_single (u64 (address + count.1)) (u32 count.2),
      eq_u32_iff, and_iff_right hloaded]
    · intro hother
      obtain ⟨k, hk, heq⟩ := List.mem_map.1 hother
      obtain ⟨hk, hne⟩ := List.mem_filter.1 hk
      exact of_decide_eq_true hne (u64_register_inj address hk (hregister count hwrite) heq)
    · exact List.mem_map.2 ⟨count, hwrite, rfl⟩
    · intro a w hother hmem
      obtain ⟨write, hw, heq⟩ := List.mem_map.1 hmem
      obtain ⟨haddr, hword⟩ : u64 (address + write.1) = a ∧ u32 write.2 = w := by
        simpa [regWrite, Request.op] using heq
      have hsame : write.1 = count.1 := by
        by_contra hne
        refine hother (List.mem_map.2 ⟨write.1, List.mem_filter.2 ⟨hregister write hw, ?_⟩, haddr⟩)
        exact decide_eq_true hne
      have hboth : write = count := List.inj_on_of_nodup_map hnodup hw hwrite hsame
      rw [← haddr, ← hword, hboth]
      exact ⟨rfl, rfl⟩
  · rw [logged_waveRequests_of_not_loaded hloaded]
    exact iff_of_false (not_carries_nil _ _) fun hand => hloaded hand.1

/-- A count is carried over just if it fits. -/
theorem transfers_setupWaveform {count : Nat × Nat}
    (hcount : count ∈ cycleCounts pl s.hilClockFrequency (channelOf dest) p) :
    Transfers (setupWaveform pl address dest (.square p)) s
        (SquareWaveGen.otherRegisters address count.1) count.2 ↔
      (HasChannel p (channelOf dest) ∧ s.hw.Admits (waveRequests pl address dest p s) →
        s.hw.fpgaLoaded = true ∧ count.2 < 2 ^ 32) := by
  rw [← carries_count hcount]
  refine transfers_iff_carries (s := s) ?_ ?_ ?_
  · constructor
    · rintro ⟨u, s', h⟩
      obtain ⟨hchannel, hadmits, -⟩ := setupWaveform_eq_ok.1 h
      exact ⟨hchannel, hadmits⟩
    · rintro ⟨hchannel, hadmits⟩
      exact ⟨(), _, setupWaveform_eq_ok.2 ⟨hchannel, hadmits, rfl⟩⟩
  · intro u s' h
    rw [(setupWaveform_eq_ok.1 h).2.2]
    rfl
  · intro e s' h he
    have hframe : Exec.Frame Failure.Fatal False Advances
        (setupWaveform pl address dest (.square p)) :=
      frame_setupWaveform steps_advances pl dest (fun hp => hp p rfl) fun _ _ => trivial
    exact ((hframe s).of_error h (not_not.2 he)).1.elim

end DeployerBase

/-- A value comes through whole just when a call that returns has a bitstream to write to, and the
value has 32 bits. -/
theorem transfers_iff (d : InterfacesDictionary) (file : String → Nat) (addr : Nat)
    (hw : FpgaBridge) (pl : Platform) (address dest : Nat) (p : SquareWaveParameters)
    (s : DeployerBase) :
    (∀ value ∈ FpgaBridge.bufferAddresses d file,
      Transfers (FpgaBridge.setScopeData d file addr) hw [] value ↔
        (hw.Admits [regWrite addr value] → hw.fpgaLoaded = true ∧ value < 2 ^ 32)) ∧
    ∀ count ∈ DeployerBase.cycleCounts pl s.hilClockFrequency (DeployerBase.channelOf dest) p,
      Transfers (DeployerBase.setupWaveform pl address dest (.square p)) s
          (SquareWaveGen.otherRegisters address count.1) count.2 ↔
        (DeployerBase.HasChannel p (DeployerBase.channelOf dest) ∧
            s.hw.Admits (DeployerBase.waveRequests pl address dest p s) →
          s.hw.fpgaLoaded = true ∧ count.2 < 2 ^ 32) :=
  ⟨fun _ hvalue => FpgaBridge.transfers_setScopeData hvalue,
    fun _ hcount => DeployerBase.transfers_setupWaveform hcount⟩

/-- A buffer at 4 GiB is announced to the scope as one at 0. -/
theorem not_transfers_four_gib :
    ¬Transfers (FpgaBridge.setScopeData ⟨"testing"⟩ (fun _ => 2 ^ 32) 0x443C00208)
      ⟨.zynqmp, true⟩ [] (2 ^ 32) := by
  have hread : 2 ^ 32 ∈ FpgaBridge.bufferAddresses ⟨"testing"⟩ fun _ => 2 ^ 32 :=
    List.mem_singleton_self _
  rw [FpgaBridge.transfers_setScopeData hread]
  intro h
  refine absurd (h fun r hr _ => ?_).2 (lt_irrefl _)
  rw [List.mem_singleton.1 hr]
  exact Or.inr (by decide)

end UscopeDriver
