import UscopeDriver.Frames

/-!
# Calls of the deployer base that can be caught

A deployment is called in a `try` that catches `std::runtime_error` and nothing else. For the calls
of the base, exactly when whatever they throw is caught : a refusal ends a loop, and up to there
every word that is read is there and the bus admits every request.
-/

namespace UscopeDriver

open Exec (FailsOnly FrameAt)
open Failure (IsRuntimeError)

theorem not_isRuntimeError_of_fatal {e : Failure} (h : e.Fatal) : ¬e.IsRuntimeError := by
  cases e with
  | runtimeError what => exact absurd h (not_fatal_runtimeError what)
  | _ => exact id

section Caught

variable {σ α β : Type} {R : σ → σ → Prop} {s t : σ}

/-- A call that throws nothing is caught exactly when it returns. -/
theorem failsOnly_iff_of_frame {m : Exec Failure σ α} (h : FrameAt Failure.Fatal False R m s) :
    FailsOnly IsRuntimeError m s ↔ ∃ a s', m.run s = .ok a s' :=
  h.failsOnly_iff fun _ => not_isRuntimeError_of_fatal

/-- What the toolchain throws is caught. -/
theorem failsOnly_callDispatcher_bind {x : Except String α} {f : α → Exec Failure σ β} :
    FailsOnly IsRuntimeError (callDispatcher x >>= f) s ↔
      ∀ a, x = .ok a → FailsOnly IsRuntimeError (f a) s := by
  rw [Exec.failsOnly_bind]
  cases x with
  | ok a => simp [callDispatcher, Exec.failsOnly_pure]
  | error what => simp [callDispatcher, Exec.failsOnly_throw, IsRuntimeError, Exec.throw_eq_ok]

/-- A refusal is caught. -/
theorem failsOnly_refusal_bind {c : Prop} [Decidable c] {what : String}
    {f : Unit → Exec Failure σ β} :
    FailsOnly IsRuntimeError (Exec.throwIf c (.runtimeError what) >>= f) s ↔
      (¬c → FailsOnly IsRuntimeError (f ()) s) := by
  rw [Exec.failsOnly_bind, Exec.failsOnly_throwIf]
  simp only [Exec.throwIf_eq_ok]
  constructor
  · exact fun hrest hc => hrest.2 () s ⟨hc, rfl⟩
  · refine fun hrest => ⟨fun _ => trivial, ?_⟩
    rintro _ _ ⟨hc, rfl⟩
    exact hrest hc

/-- A first part that throws nothing. -/
theorem failsOnly_bind_of_frame {m : Exec Failure σ α} {f : α → Exec Failure σ β} {G : Prop} {v : α}
    (hframe : FrameAt Failure.Fatal False R m s)
    (h : ∀ a s', m.run s = .ok a s' ↔ G ∧ a = v ∧ s' = t) :
    FailsOnly IsRuntimeError (m >>= f) s ↔ G ∧ FailsOnly IsRuntimeError (f v) t := by
  rw [Exec.failsOnly_bind, failsOnly_iff_of_frame hframe]
  simp only [h]
  constructor
  · rintro ⟨⟨_, _, hG, rfl, rfl⟩, hrest⟩
    exact ⟨hG, hrest _ _ ⟨hG, rfl, rfl⟩⟩
  · rintro ⟨hG, hrest⟩
    exact ⟨⟨v, t, hG, rfl, rfl⟩, by rintro _ _ ⟨-, rfl, rfl⟩; exact hrest⟩

/-- A first part that throws nothing and only changes the state. -/
theorem failsOnly_seq_of_frame {m : Exec Failure σ PUnit} {f : PUnit → Exec Failure σ β} {G : Prop}
    (hframe : FrameAt Failure.Fatal False R m s) (h : ∀ u s', m.run s = .ok u s' ↔ G ∧ s' = t) :
    FailsOnly IsRuntimeError (m >>= f) s ↔ G ∧ FailsOnly IsRuntimeError (f ⟨⟩) t :=
  failsOnly_bind_of_frame hframe fun u s' => by simp only [h, true_and]

end Caught

namespace DeployerBase

variable {pl : Platform} {s : DeployerBase}

theorem failsOnly_writeRegister {addr val : Nat} :
    FailsOnly IsRuntimeError (writeRegister pl addr val) s ↔ s.hw.Admits [regWrite addr val] := by
  rw [failsOnly_iff_of_frame (steps_advances.write pl val trivial s)]
  simp only [writeRegister_eq_ok, exists_const, exists_and_left, exists_eq, and_true]

theorem failsOnly_loadCore {address : Nat} {program : List UInt32} :
    FailsOnly IsRuntimeError (loadCore address program) s ↔
      s.hw.Admits [.load (u64 address) (program.map (·.toNat))] := by
  rw [failsOnly_iff_of_frame (steps_advances.load address program s)]
  simp only [loadCore_eq_ok, exists_const, exists_and_left, exists_eq, and_true]

/-! ## Interconnects -/

/-- An entry that can be mapped has its initial value, and its writes are admitted. -/
def EntrySafe (address : Nat) (x : DeployerInterconnectSlot × Nat) (s : DeployerBase) : Prop :=
  Mappable x.1 → IvInRange s.ivs x.1 ∧ s.hw.Admits (entryRequests s.ivs address x.1 x.2)

/-- An entry that cannot be mapped is refused before its first write. -/
theorem failsOnly_of_not_mappable {e : DeployerInterconnectSlot} (h : ¬Mappable e)
    (address ioProgressive nChannels : Nat) :
    FailsOnly IsRuntimeError (setupOutputEntry pl e address ioProgressive nChannels) s := by
  simp only [setupOutputEntry, failsOnly_refusal_bind, gt_iff_lt, UInt32.not_lt]
  exact fun hio hbus hsource hdestination => absurd ⟨hio, hbus, hsource, hdestination⟩ h

theorem failsOnly_setupOutputEntry {address nChannels : Nat}
    (x : DeployerInterconnectSlot × Nat) (s : DeployerBase) :
    FailsOnly IsRuntimeError (setupOutputEntry pl x.1 address x.2 nChannels) s ↔
      EntrySafe address x s := by
  by_cases hm : Mappable x.1
  · have hframe : FrameAt Failure.Fatal False Advances
        (setupOutputEntry pl x.1 address x.2 nChannels) s :=
      frame_setupOutputEntry steps_advances pl (fun hn => hn hm) (fun _ _ => trivial)
        (Nat.lt_succ_self x.2) nChannels s
    rw [failsOnly_iff_of_frame hframe]
    simp only [setupOutputEntry_eq_ok, exists_const, exists_and_left, exists_eq, and_true,
      EntrySafe, hm, true_and, true_imp_iff]
  · exact iff_of_true (failsOnly_of_not_mappable hm _ _ _) fun hm' => absurd hm' hm

theorem stopping_setupOutputEntry (pl : Platform) (address nChannels : Nat) :
    Drives.Stopping IsRuntimeError
      (fun x : DeployerInterconnectSlot × Nat => setupOutputEntry pl x.1 address x.2 nChannels)
      (EntrySafe address) (fun x _ => Mappable x.1) (fun x => labelEntry nChannels x.1) := by
  refine (round_setupOutputEntry pl address nChannels).stopping failsOnly_setupOutputEntry
    (fun x s hsafe => ?_) (fun x s rs => ?_) fun _ _ _ => Iff.rfl
  · simp only [setupOutputEntry_eq_ok, exists_const, exists_and_left, exists_eq, and_true]
    exact ⟨fun hm => ⟨⟨hm, (hsafe hm).1⟩, (hsafe hm).2⟩, fun h => h.1.1⟩
  · simp only [EntrySafe, drives_emit, emit, FpgaBridge.admits_performAll]

/-- The entries of a core up to the first that cannot be mapped are safe, and so is the write of
their number if there is none. -/
def DmaSafe (address nChannels : Nat) (coreName : String) (s : DeployerBase) : Prop :=
  Drives.SafeAlong (EntrySafe address) (fun x _ => Mappable x.1)
      (fun x => labelEntry nChannels x.1) (entriesOf s.busMap coreName).zipIdx s ∧
    ((∀ e ∈ entriesOf s.busMap coreName, Mappable e) →
      s.hw.Admits [regWrite address (entriesOf s.busMap coreName).length])

theorem forall_mem_zipIdx_mappable (entries : List DeployerInterconnectSlot) :
    (∀ x ∈ entries.zipIdx, Mappable x.1) ↔ ∀ e ∈ entries, Mappable e := by
  conv_rhs => rw [← List.zipIdx_map_fst 0 entries]
  simp only [List.forall_mem_map]

theorem failsOnly_setupOutputDma {address nChannels : Nat} {coreName : String} :
    FailsOnly IsRuntimeError (setupOutputDma pl address coreName nChannels) s ↔
      DmaSafe address nChannels coreName s := by
  have hafter : ∀ u t, (forM (entriesOf s.busMap coreName).zipIdx fun x =>
      setupOutputEntry pl x.1 address x.2 nChannels).run s = .ok u t →
      (FailsOnly IsRuntimeError (do
        writeRegister pl address (entriesOf s.busMap coreName).length
        pure (u16 (entriesOf s.busMap coreName).length)) t ↔
          s.hw.Admits [regWrite address (entriesOf s.busMap coreName).length]) := by
    intro u t hrun
    obtain ⟨-, -, rfl⟩ := setupEntries_eq_ok.1 hrun
    rw [Exec.failsOnly_bind, failsOnly_writeRegister, emit_hw, FpgaBridge.admits_performAll]
    exact and_iff_left fun _ _ _ => Exec.failsOnly_pure _ _
  rw [setupOutputDma, Exec.failsOnly_bind_of_ok (Exec.run_gets _ s)]
  refine ((stopping_setupOutputEntry pl address nChannels).failsOnly_forM_bind
    (fun _ _ _ => Iff.rfl) hafter).trans ?_
  rw [forall_mem_zipIdx_mappable]
  exact Iff.rfl

theorem dmaSafe_emit {address nChannels : Nat} {coreName : String} (rs : List Request) :
    DmaSafe address nChannels coreName (s.emit rs) ↔ DmaSafe address nChannels coreName s := by
  have hstop := stopping_setupOutputEntry .zeros address nChannels
  unfold DmaSafe
  rw [emit_hw, FpgaBridge.admits_performAll]
  exact and_congr_left' (hstop.safeAlong_emit _ s rs)

/-- A safe DMA is set up exactly when its entries can be mapped. -/
theorem DmaSafe.goes_iff {address nChannels : Nat} {coreName : String}
    (h : DmaSafe address nChannels coreName s) :
    (∀ e ∈ entriesOf s.busMap coreName, Mappable e) ↔
      (∀ e ∈ entriesOf s.busMap coreName, Mappable e ∧ IvInRange s.ivs e) ∧
        s.hw.Admits (dmaRequests s.ivs address (entriesOf s.busMap coreName)) := by
  refine ⟨fun hm => ?_, fun hrun e he => (hrun.1 e he).1⟩
  obtain ⟨_, _, hrun⟩ := ((stopping_setupOutputEntry .zeros address nChannels).forall_goes_iff
    (fun _ _ _ => Iff.rfl) h.1).1 ((forall_mem_zipIdx_mappable _).2 hm)
  obtain ⟨hready, hentries, -⟩ := setupEntries_eq_ok.1 hrun
  exact ⟨hready, (FpgaBridge.admits_append _ _ _).2 ⟨hentries, h.2 hm⟩⟩

/-! ## Memories -/

theorem failsOnly_setupMemories {baseAddress nChannels : Nat} {initValues : List MemoryInitValue} :
    FailsOnly IsRuntimeError (setupMemories pl baseAddress initValues nChannels) s ↔
      (∀ m ∈ initValues, MemoryReady nChannels m) ∧
        s.hw.Admits (initValues.flatMap (memoryRequests baseAddress nChannels)) := by
  have hframe : FrameAt Failure.Fatal False Advances
      (setupMemories pl baseAddress initValues nChannels) s :=
    Exec.frame_forM (fun m _ => frame_setupMemory steps_advances pl fun _ _ => trivial) s
  rw [failsOnly_iff_of_frame hframe]
  simp only [setupMemories_eq_ok, exists_const, exists_and_left, exists_eq, and_true]

end DeployerBase

/-! ## Inputs -/

namespace InputSetup

open DeployerBase (SupportedInput)

/-- A supported input has what its setup reads, and its writes are admitted. Any other is refused
once its address is read. -/
def Safe (pl : Platform) (c : InputSetup) (s : DeployerBase) : Prop :=
  (SupportedInput c.input → c.Ready ∧ s.hw.Admits (c.requests pl s)) ∧
    (¬SupportedInput c.input → c.input.address ≠ [])

/-- A waveform that is not a square wave. -/
theorem failsOnly_of_not_supported {pl : Platform} {c : InputSetup} {s : DeployerBase}
    (h : ¬SupportedInput c.input) :
    FailsOnly IsRuntimeError (c.run pl) s ↔ c.input.address ≠ [] := by
  unfold SupportedInput at h
  push Not at h
  obtain ⟨htype, hparameters⟩ := h
  have hthrow : ∀ (dest : Nat) (t : DeployerBase), FailsOnly IsRuntimeError
      (DeployerBase.setupWaveform pl c.ipAddress dest c.input.waveformParameters) t := by
    intro dest t
    cases hp : c.input.waveformParameters with
    | square p => exact absurd hp (hparameters p)
    | sine => exact Exec.failsOnly_throw.2 trivial
    | triangle => exact Exec.failsOnly_throw.2 trivial
  have haddress : FailsOnly IsRuntimeError
      (index c.input.address 0 : Exec Failure DeployerBase UInt32) s ↔ c.input.address ≠ [] := by
    rw [index, Exec.failsOnly_require, List.getElem?_eq_none_iff, Nat.le_zero,
      List.length_eq_zero_iff]
    exact Iff.rfl
  rw [InputSetup.run, DeployerBase.setupInput, htype]
  simp only [DeployerBase.setupWaveformInput]
  rw [Exec.failsOnly_bind, haddress]
  refine and_iff_left fun address t _ => Exec.failsOnly_bind.2 ⟨Exec.failsOnly_modify _ _, ?_⟩
  exact fun _ t' _ => hthrow _ t'

theorem failsOnly_run {pl : Platform} (c : InputSetup) (s : DeployerBase) :
    FailsOnly IsRuntimeError (c.run pl) s ↔ c.Safe pl s := by
  by_cases h : SupportedInput c.input
  · have hframe : FrameAt Failure.Fatal False DeployerBase.Advances (c.run pl) s :=
      DeployerBase.frameAt_setupInput DeployerBase.steps_advances pl (fun hn => hn h)
        (n := s.activeRandomInputs + 1) (fun _ _ => trivial) _ _ _ _ fun _ => Nat.lt_succ_self _
    rw [failsOnly_iff_of_frame hframe]
    simp only [run_eq_ok, exists_const, exists_and_left, exists_eq, and_true, Safe, h,
      true_imp_iff, not_true_eq_false, false_imp_iff]
  · rw [failsOnly_of_not_supported h, Safe]
    simp only [h, false_imp_iff, not_false_eq_true, true_imp_iff, true_and]

end InputSetup

end UscopeDriver
