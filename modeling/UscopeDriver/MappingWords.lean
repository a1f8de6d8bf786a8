import UscopeDriver.DmaTable
import UscopeDriver.OutputSelection

/-!
# Mapping words of a DMA

`setup_output_entry` packs four fields into a 32-bit word, through two halves of 16 bits, and two
of the fields into a key of the bus labels. Its four checks are what makes both lossless : without
them the masks would drop bits (`mapping_lossless`).
-/

namespace UscopeDriver

namespace DeployerBase

/-- The checks of the entry. -/
def TooLarge (e : DeployerInterconnectSlot) : Prop :=
  e.sourceIoAddress > 0xFFF ∨ e.destinationBusAddress > 0xFFF ∨ e.sourceChannel > 15 ∨
    e.destinationChannel > 15

/-- The fields of a mapping word, by the inverse shifts and masks : the source address and channel,
and the destination address and channel. -/
def unpack (word : Nat) : Nat × Nat × Nat × Nat :=
  (word &&& 0xFFF, word >>> 12 &&& 0xF, word >>> 16 &&& 0xFFF, word >>> 28 &&& 0xF)

variable {pl : Platform} {e e' : DeployerInterconnectSlot} {s : DeployerBase}

/-- An entry is too large if it cannot be mapped. -/
theorem tooLarge_iff : TooLarge e ↔ ¬Mappable e := by
  unfold TooLarge Mappable
  simp only [gt_iff_lt, ← UInt32.not_le, not_and_or]

/-- A field and a channel in a half word. -/
theorem half_eq {a c : Nat} (ha : a ≤ 0xFFF) (hc : c ≤ 0xF) :
    u16 ((a &&& 0xFFF) ||| ((c &&& 0xF) <<< 12)) = a + 2 ^ 12 * c := by
  rw [or_shift_masked ha hc le_rfl, u16]
  omega

/-- The word of an entry that can be mapped, as a sum of its fields. -/
theorem mapping_eq (h : Mappable e) :
    mapping e = e.sourceIoAddress.toNat + 2 ^ 12 * e.sourceChannel.toNat +
      2 ^ 16 * e.destinationBusAddress.toNat + 2 ^ 28 * e.destinationChannel.toNat := by
  obtain ⟨hs, hd, hsc, hdc⟩ := h.toNat_le
  have hshift : u32 (destinationPortion e <<< 16) = destinationPortion e <<< 16 := by
    rw [destinationPortion, half_eq hd hdc, Nat.shiftLeft_eq]
    exact u32_of_lt (by omega)
  rw [mapping, hshift, Nat.or_comm, sourcePortion, half_eq hs hsc, or_shift_eq_add (by omega),
    destinationPortion, half_eq hd hdc]
  omega

/-- The fields come back from the word. -/
theorem unpack_mapping (h : Mappable e) :
    unpack (mapping e) = (e.sourceIoAddress.toNat, e.sourceChannel.toNat,
      e.destinationBusAddress.toNat, e.destinationChannel.toNat) := by
  obtain ⟨hs, hd, hsc, hdc⟩ := h.toNat_le
  rw [unpack, mapping_eq h, Nat.and_two_pow_sub_one_eq_mod _ 12,
    Nat.and_two_pow_sub_one_eq_mod _ 4, Nat.and_two_pow_sub_one_eq_mod _ 12,
    Nat.and_two_pow_sub_one_eq_mod _ 4, Nat.shiftRight_eq_div_pow, Nat.shiftRight_eq_div_pow,
    Nat.shiftRight_eq_div_pow]
  refine Prod.ext ?_ (Prod.ext ?_ (Prod.ext ?_ ?_))
  all_goals
    simp only
    omega

/-- Different entries have different words. -/
theorem mapping_inj (h : Mappable e) (h' : Mappable e') :
    mapping e = mapping e' ↔ e.sourceIoAddress = e'.sourceIoAddress ∧
      e.sourceChannel = e'.sourceChannel ∧ e.destinationBusAddress = e'.destinationBusAddress ∧
        e.destinationChannel = e'.destinationChannel := by
  constructor
  · intro heq
    have hfields := congrArg unpack heq
    rw [unpack_mapping h, unpack_mapping h'] at hfields
    simpa only [Prod.mk.injEq, UInt32.toNat_inj] using hfields
  · rintro ⟨hs, hsc, hd, hdc⟩
    rw [mapping_eq h, mapping_eq h', hs, hsc, hd, hdc]

/-- A field that is too large is found before the first write. -/
theorem setupOutputEntry_of_tooLarge (h : TooLarge e) (dmaAddress ioProgressive nChannels : Nat) :
    ∃ what, (setupOutputEntry pl e dmaAddress ioProgressive nChannels).run s =
      .error (.runtimeError what) s := by
  rw [setupOutputEntry, Exec.run_throwIf_bind, Exec.run_throwIf_bind, Exec.run_throwIf_bind,
    Exec.run_throwIf_bind]
  split_ifs with hs hd hsc hdc
  · exact ⟨_, rfl⟩
  · exact ⟨_, rfl⟩
  · exact ⟨_, rfl⟩
  · exact ⟨_, rfl⟩
  · exact absurd h (by simp [TooLarge, hs, hd, hsc, hdc])

/-- Nothing else throws. -/
theorem tooLarge_of_throws {dmaAddress ioProgressive nChannels : Nat} {f : Failure}
    {s' : DeployerBase}
    (h : (setupOutputEntry pl e dmaAddress ioProgressive nChannels).run s = .error f s')
    (hf : f.Throws) : TooLarge e := by
  rw [tooLarge_iff]
  have hframe : Exec.Frame Failure.Fatal (¬Mappable e) Advances
      (setupOutputEntry pl e dmaAddress ioProgressive nChannels) :=
    frame_setupOutputEntry steps_advances pl id (fun _ _ => trivial)
      (Nat.lt_succ_self ioProgressive) nChannels
  exact ((hframe s).of_error h (not_not.2 hf)).1

/-- The word of an entry keeps its fields, and so does the key : an entry that does not fit them is
refused before any write. -/
structure Lossless (pl : Platform) (e : DeployerInterconnectSlot)
    (dmaAddress ioProgressive nChannels : Nat) (s : DeployerBase) : Prop where
  refused : (∃ f, (setupOutputEntry pl e dmaAddress ioProgressive nChannels).run s = .error f s ∧
    f.Throws) ↔ TooLarge e
  thrown : ∀ f s', (setupOutputEntry pl e dmaAddress ioProgressive nChannels).run s = .error f s' →
    f.Throws → s' = s
  written : ∀ u s', (setupOutputEntry pl e dmaAddress ioProgressive nChannels).run s = .ok u s' →
    ∃ rs, s'.hw = s.hw.performAll (regWrite (mappingAddress dmaAddress ioProgressive) (mapping e) ::
      rs) ∧ s'.busLabels = s.busLabels.insert (busDest e) (signalName e nChannels)
  fits : ¬TooLarge e → mapping e < 2 ^ 32
  recovered : ¬TooLarge e → unpack (mapping e) = (e.sourceIoAddress.toNat, e.sourceChannel.toNat,
    e.destinationBusAddress.toNat, e.destinationChannel.toNat)
  injective : ¬TooLarge e → ∀ e', ¬TooLarge e' → (mapping e = mapping e' ↔
    e.sourceIoAddress = e'.sourceIoAddress ∧ e.sourceChannel = e'.sourceChannel ∧
      e.destinationBusAddress = e'.destinationBusAddress ∧
        e.destinationChannel = e'.destinationChannel)
  label : ¬TooLarge e →
    busDest e = e.destinationBusAddress.toNat + e.destinationChannel.toNat * 2 ^ 16

/-- An entry is refused, or its word holds all its fields. -/
theorem mapping_lossless (pl : Platform) (e : DeployerInterconnectSlot)
    (dmaAddress ioProgressive nChannels : Nat) (s : DeployerBase) :
    Lossless pl e dmaAddress ioProgressive nChannels s := by
  have hmappable : ∀ e, ¬TooLarge e → Mappable e := fun e h => not_not.1 (mt tooLarge_iff.2 h)
  refine ⟨⟨?_, ?_⟩, ?_, ?_, ?_, ?_, ?_, ?_⟩
  · rintro ⟨f, hrun, hf⟩
    exact tooLarge_of_throws hrun hf
  · intro hlarge
    obtain ⟨what, hrun⟩ := setupOutputEntry_of_tooLarge hlarge dmaAddress ioProgressive nChannels
    exact ⟨_, hrun, trivial⟩
  · intro f s' hrun hf
    obtain ⟨what, hrun'⟩ := setupOutputEntry_of_tooLarge (tooLarge_of_throws hrun hf) dmaAddress
      ioProgressive nChannels
    rw [hrun'] at hrun
    cases hrun
    rfl
  · intro u s' hrun
    obtain ⟨-, -, rfl⟩ := setupOutputEntry_eq_ok.1 hrun
    exact ⟨_, rfl, rfl⟩
  · intro h
    exact u32_mapping e ▸ u32_lt _
  · exact fun h => unpack_mapping (hmappable e h)
  · exact fun h e' h' => mapping_inj (hmappable e h) (hmappable e' h')
  · intro h
    rw [busDest_eq (hmappable e h), destination, Nat.mul_comm]

end DeployerBase

end UscopeDriver
