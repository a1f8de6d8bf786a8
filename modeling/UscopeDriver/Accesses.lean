import UscopeDriver.AddressMaps
import UscopeDriver.Calls
import UscopeDriver.CommandProcessor

/-!
# What the commands may do to the hardware

A command writes registers, loads programs or configures the device, or it does nothing of that.
`Touches A` says what is left of the bridge by code that has the accesses `A` : what it has no
access to stays as it was, a muted bus stays muted and untouched, and no register changes before
there is a bitstream. The commands on single registers and on the scope are of this kind, each with
its own accesses.
-/

namespace UscopeDriver

open Exec (Frame FrameAt)

/-- What code can do to the hardware. -/
inductive Access where
  /-- It writes registers. -/
  | write
  /-- It loads programs into the cores. -/
  | load
  /-- It loads bitstreams. -/
  | configure
  deriving DecidableEq, Repr

namespace Commands

/-- The commands that have an access. -/
def needing : Access → List String
  | .write => ["register_write", "apply_filter", "deploy_hil", "hil_select_out", "hil_set_in",
      "hil_start", "hil_stop", "disable_scope_dma", "set_acquisition", "set_scope_address"]
  | .load => ["apply_program", "deploy_hil"]
  | .configure => ["load_bitstream"]

/-- What a command may do to the hardware. -/
def accesses (commandString : String) : Set Access :=
  {a | commandString ∈ needing a}

instance (a : Access) (commandString : String) : Decidable (a ∈ accesses commandString) :=
  inferInstanceAs (Decidable (commandString ∈ needing a))

theorem singleton_subset_accesses {a : Access} {commandString : String}
    (h : commandString ∈ needing a) : {a} ⊆ accesses commandString :=
  Set.singleton_subset_iff.2 h

end Commands

namespace Request

/-- The kind of a request. -/
def access : Request → Access
  | .write _ _ => .write
  | .load _ _ => .load

/-- Loads leave the registers as they are. -/
theorem foldl_store_of_loads (controlAddr : Nat) {rs : List Request}
    (h : ∀ r ∈ rs, r.access ≠ .write) (registers : Nat → Nat) :
    rs.foldl (store controlAddr) registers = registers := by
  induction rs generalizing registers with
  | nil => rfl
  | cons r rs ih =>
    rw [List.foldl_cons, ih fun r' hr' => h r' (by simp [hr'])]
    cases r with
    | write address value => exact absurd rfl (h _ List.mem_cons_self)
    | load address program => rfl

/-- Writes leave the programs as they are. -/
theorem foldl_storeProgram_of_writes (coreAddr : Nat) {rs : List Request}
    (h : ∀ r ∈ rs, r.access ≠ .load) (fCore : Nat → Nat) :
    rs.foldl (storeProgram coreAddr) fCore = fCore := by
  induction rs generalizing fCore with
  | nil => rfl
  | cons r rs ih =>
    rw [List.foldl_cons, ih fun r' hr' => h r' (by simp [hr'])]
    cases r with
    | write address value => rfl
    | load address program => exact absurd rfl (h _ List.mem_cons_self)

end Request

/-- Every request is a register write. -/
abbrev RegisterWrites (rs : List Request) : Prop :=
  OnlyWrites (fun _ => True) rs

/-- Register writes are no loads. -/
theorem RegisterWrites.access {rs : List Request} (h : RegisterWrites rs) :
    ∀ r ∈ rs, r.access ≠ .load := by
  intro r hr
  obtain ⟨a, v, -, rfl⟩ := h r hr
  rintro ⟨⟩

theorem OnlyWrites.any {A : Nat → Prop} {rs : List Request} (h : OnlyWrites A rs) :
    RegisterWrites rs :=
  h.mono fun _ _ => trivial

/-! ## Reading the arguments -/

namespace Json

section Moves

variable {σ α : Type} {fatal : Failure → Prop} {R : σ → σ → Prop} [IsPreorder σ R]

theorem moves_at' (key : String) (j : Json) :
    Frame fatal True R (j.at' key : Exec Failure σ Json) := by
  unfold at'
  split
  · exact Exec.moves_require _ _
  · exact Exec.moves_throw _

theorem moves_atOrNull (key : String) (j : Json) :
    Frame fatal True R (j.atOrNull key : Exec Failure σ Json) := by
  unfold atOrNull
  split
  · exact Exec.frame_pure _
  · exact Exec.frame_pure _
  · exact Exec.moves_throw _

theorem moves_getDouble (j : Json) : Frame fatal True R (j.getDouble : Exec Failure σ ℚ) := by
  unfold getDouble
  split
  · exact Exec.frame_pure _
  · exact Exec.frame_pure _
  · exact Exec.frame_pure _
  · exact Exec.moves_throw _

/-- To read an argument changes nothing. -/
theorem moves_get (read : Json → Option α) (j : Json) :
    Frame fatal True R (j.get read : Exec Failure σ α) :=
  Exec.moves_require _ _

theorem moves_getUint64 (pl : Platform) (j : Json) :
    Frame fatal True R (j.getUint64 pl : Exec Failure σ Nat) := by
  rw [getUint64_eq]
  exact Exec.moves_require _ _

theorem moves_getUint32 (pl : Platform) (j : Json) :
    Frame fatal True R (j.getUint32 pl : Exec Failure σ Nat) := by
  rw [getUint32_eq]
  exact Exec.moves_require _ _

end Moves

end Json

/-! ## The bus -/

namespace BusAccessor

/-- The bus after code with the accesses `A`. -/
structure Touches (A : Set Access) (b b' : BusAccessor) : Prop where
  sinkMode : b'.sinkMode = b.sinkMode
  windows : b'.windows = b.windows
  registers : ¬(Access.write ∈ A ∧ b.sinkMode = false) → b'.registers = b.registers
  fCore : ¬(Access.load ∈ A ∧ b.sinkMode = false) → b'.fCore = b.fCore

variable {A : Set Access}

instance : IsPreorder BusAccessor (Touches A) where
  refl := fun _ => ⟨rfl, rfl, fun _ => rfl, fun _ => rfl⟩
  trans := fun _ _ _ h h' => ⟨h'.sinkMode.trans h.sinkMode, h'.windows.trans h.windows,
    fun hA => (h'.registers (by rwa [h.sinkMode])).trans (h.registers hA),
    fun hA => (h'.fCore (by rwa [h.sinkMode])).trans (h.fCore hA)⟩

/-- The record of operations is no access. -/
theorem touches_log (b : BusAccessor) (operations : List BusOp) :
    Touches A b { b with operations := operations } :=
  ⟨rfl, rfl, fun _ => rfl, fun _ => rfl⟩

/-- Requests of allowed kinds are allowed accesses. -/
theorem touches_performAll {rs : List Request} (h : ∀ r ∈ rs, r.access ∈ A) (b : BusAccessor) :
    Touches A b (b.performAll rs) := by
  refine ⟨rfl, rfl, fun hA => ?_, fun hA => ?_⟩
  · cases hs : b.sinkMode with
    | true => simp [performAll, hs]
    | false =>
      have hloads : ∀ r ∈ rs, r.access ≠ .write := fun r hr heq => hA ⟨heq ▸ h r hr, hs⟩
      simp [performAll, hs, Request.foldl_store_of_loads _ hloads]
  · cases hs : b.sinkMode with
    | true => simp [performAll, hs]
    | false =>
      have hwrites : ∀ r ∈ rs, r.access ≠ .load := fun r hr heq => hA ⟨heq ▸ h r hr, hs⟩
      simp [performAll, hs, Request.foldl_storeProgram_of_writes _ hwrites]

/-- To find the word of a register changes nothing. -/
theorem moves_accessRegister (address : Nat) :
    Exec.Moves (Touches A) (accessRegister address) :=
  frame_accessRegister (Or.inl trivial) address

/-- The store of a live bus. -/
theorem frameAt_storeRegister (address data : Nat) {b : BusAccessor} (hb : b.sinkMode = false) :
    FrameAt (fun _ => True) True (Touches {.write}) (storeRegister address data) b := by
  unfold storeRegister
  refine (moves_accessRegister address b).bind fun i b' hrun _ => ?_
  obtain ⟨-, -, rfl⟩ := accessRegister_eq_ok.1 hrun
  exact ⟨rfl, rfl, fun h => absurd ⟨rfl, hb⟩ h, fun _ => rfl⟩

/-- Whether it is direct or goes through a proxy. -/
theorem moves_writeRegister (addresses : List Nat) (data : Nat) :
    Exec.Moves (Touches {.write}) (writeRegister addresses data) := by
  intro b
  refine (Exec.frame_modify (fun b => touches_log b _) b).bind fun _ b₁ _ _ => ?_
  refine (Exec.frame_gets _ b₁).bind fun sink b₂ hrun _ => ?_
  obtain ⟨rfl, rfl⟩ := Exec.gets_eq_ok.1 hrun
  by_cases hs : b₂.sinkMode = false
  · rw [Exec.when, if_pos hs]
    cases addresses with
    | nil => exact Or.inl trivial
    | cons target addresses =>
      cases addresses with
      | nil => exact frameAt_storeRegister target data hs
      | cons proxy addresses =>
        exact (frameAt_storeRegister _ _ hs).bind fun _ b₃ _ h₃ =>
          frameAt_storeRegister _ _ (h₃.sinkMode.trans hs)
  · rw [Exec.when, if_neg hs]
    exact Exec.frame_pure _ b₂

/-- What is read is only logged. -/
theorem moves_readRegister (random : Nat) (addresses : List Nat) :
    Exec.Moves (Touches ∅) (readRegister random addresses) := by
  unfold readRegister
  refine (Exec.frame_modify fun b => touches_log b _).bind fun _ =>
    (Exec.frame_gets _).bind fun sink => ?_
  split_ifs
  · exact Exec.frame_pure _
  · cases addresses with
    | nil => exact Exec.frame_pure _
    | cons address addresses =>
      cases addresses with
      | nil => exact (moves_accessRegister address).bind fun _ => Exec.frame_gets _
      | cons address' addresses => exact Exec.frame_pure _

end BusAccessor

/-! ## The bridge -/

namespace FpgaBridge

/-- The bridge after code with the accesses `A`. -/
structure Touches (A : Set Access) (hw hw' : FpgaBridge) : Prop where
  sinkMode : hw'.busses.sinkMode = hw.busses.sinkMode
  windows : hw'.busses.windows = hw.busses.windows
  loaded : hw.fpgaLoaded = true → hw'.fpgaLoaded = true
  fpgaLoaded : .configure ∉ A → hw'.fpgaLoaded = hw.fpgaLoaded
  registers : ¬(Access.write ∈ A ∧ hw.busses.sinkMode = false ∧ hw'.fpgaLoaded = true) →
    hw'.busses.registers = hw.busses.registers
  fCore : ¬(Access.load ∈ A ∧ hw.busses.sinkMode = false) → hw'.busses.fCore = hw.busses.fCore

variable {A B : Set Access}

instance : IsPreorder FpgaBridge (Touches A) where
  refl := fun _ => ⟨rfl, rfl, id, fun _ => rfl, fun _ => rfl, fun _ => rfl⟩
  trans := fun _ _ _ h h' => ⟨h'.sinkMode.trans h.sinkMode, h'.windows.trans h.windows,
    h'.loaded ∘ h.loaded,
    fun hA => (h'.fpgaLoaded hA).trans (h.fpgaLoaded hA),
    fun hA => (h'.registers (by rwa [h.sinkMode])).trans
      (h.registers fun hw => hA ⟨hw.1, hw.2.1, h'.loaded hw.2.2⟩),
    fun hA => (h'.fCore (by rwa [h.sinkMode])).trans (h.fCore hA)⟩

/-- More accesses may be allowed. -/
theorem Touches.mono {hw hw' : FpgaBridge} (h : Touches A hw hw') (hAB : A ⊆ B) :
    Touches B hw hw' :=
  ⟨h.sinkMode, h.windows, h.loaded, fun hB => h.fpgaLoaded fun hA => hB (hAB hA),
    fun hB => h.registers fun hA => hB ⟨hAB hA.1, hA.2⟩,
    fun hB => h.fCore fun hA => hB ⟨hAB hA.1, hA.2⟩⟩

/-- The registers are behind a bitstream. -/
theorem touches_of_busses {hw : FpgaBridge} {b : BusAccessor} (h : hw.busses.Touches A b)
    (hloaded : Access.write ∈ A → hw.fpgaLoaded = true) : Touches A hw { hw with busses := b } :=
  ⟨h.sinkMode, h.windows, id, fun _ => rfl,
    fun hA => h.registers fun hw => hA ⟨hw.1, hw.2, hloaded hw.1⟩, h.fCore⟩

/-- On the bridge as on the bus. -/
theorem touches_performAll {rs : List Request} (h : ∀ r ∈ rs, r.access ∈ A) (hw : FpgaBridge) :
    Touches A hw (hw.performAll rs) := by
  have hbusses : hw.busses.Touches A (hw.busses.performAll (rs.filter hw.reachesBus)) :=
    BusAccessor.touches_performAll (fun r hr => h r (List.mem_of_mem_filter hr)) hw.busses
  refine ⟨rfl, rfl, id, fun _ => rfl, fun hA => ?_, hbusses.fCore⟩
  by_cases hloaded : hw.fpgaLoaded = true
  · exact hbusses.registers fun hw => hA ⟨hw.1, hw.2, hloaded⟩
  · have hloads : ∀ r ∈ rs.filter hw.reachesBus, r.access ∈ ({.load} : Set Access) := by
      intro r hr
      obtain ⟨-, hreaches⟩ := List.mem_filter.1 hr
      cases r with
      | write address value => exact absurd hreaches hloaded
      | load address program => rfl
    exact (BusAccessor.touches_performAll hloads hw.busses).registers (by simp)

/-- A run of requests writes and loads at most. -/
theorem touches_of_advances {hw hw' : FpgaBridge} (h : Advances hw hw') :
    Touches {.write, .load} hw hw' := by
  obtain ⟨rs, rfl⟩ := h
  refine touches_performAll (fun r _ => ?_) hw
  cases r <;> simp [Request.access]

/-- A register write, when there is a bitstream. -/
theorem moves_onBus_write (addresses : List Nat) (data : Nat) : Exec.Moves (Touches {.write}) (do
    let loaded ← Exec.gets (·.fpgaLoaded)
    Exec.when (loaded = true) (onBus (BusAccessor.writeRegister addresses data))) := by
  intro hw
  refine (Exec.frame_gets _ hw).bind fun loaded hw₁ hrun _ => ?_
  obtain ⟨rfl, rfl⟩ := Exec.gets_eq_ok.1 hrun
  by_cases hloaded : hw₁.fpgaLoaded = true
  · rw [Exec.when, if_pos hloaded]
    exact (BusAccessor.moves_writeRegister _ _ hw₁.busses).zoom fun b hb =>
      touches_of_busses hb fun _ => hloaded
  · rw [Exec.when, if_neg hloaded]
    exact Exec.frame_pure _ hw₁

theorem moves_writeDirect (addr val : Nat) : Exec.Moves (Touches {.write}) (writeDirect addr val) :=
  moves_onBus_write _ _

theorem moves_writeProxied (proxyAddr targetAddr val : Nat) :
    Exec.Moves (Touches {.write}) (writeProxied proxyAddr targetAddr val) :=
  moves_onBus_write _ _

/-- A read leaves everything as it is. -/
theorem moves_readDirect (random address : Nat) :
    Exec.Moves (Touches ∅) (readDirect random address) := by
  unfold readDirect
  refine (Exec.frame_gets _).bind fun loaded => ?_
  split_ifs
  · exact Exec.moves_zoom (BusAccessor.moves_readRegister _ _) fun hw b hb =>
      touches_of_busses hb fun h => h.elim
  · exact Exec.frame_pure _

/-- In each of its forms it writes registers at most. -/
theorem moves_singleWriteRegister (pl : Platform) (writeObj : Json) :
    Exec.Moves (Touches {.write}) (singleWriteRegister pl writeObj) := by
  unfold singleWriteRegister
  refine (Json.moves_at' _ _).bind fun type => ?_
  split_ifs
  · exact (Json.moves_at' _ _).bind fun _ => (Json.moves_getUint64 _ _).bind fun _ =>
      (Json.moves_at' _ _).bind fun _ => (Json.moves_getUint32 _ _).bind fun _ =>
      moves_writeDirect _ _
  · refine (Json.moves_at' _ _).bind fun proxyType => ?_
    split_ifs
    · exact (Json.moves_at' _ _).bind fun _ => (Json.moves_getUint64 _ _).bind fun _ =>
        (Json.moves_at' _ _).bind fun _ => (Json.moves_getUint32 _ _).bind fun _ =>
        (Json.moves_at' _ _).bind fun _ => (Json.moves_getUint32 _ _).bind fun _ =>
        moves_writeProxied _ _ _
    · exact Exec.moves_throw _
  · exact Exec.moves_throw _

theorem moves_applyProgram (address : Nat) (program : List Nat) :
    Exec.Moves (Touches {.load}) (applyProgram address program) :=
  Exec.frame_of_returns fun hw _ _ h => by
    rw [(applyProgram_eq_ok.1 h).2]
    exact touches_performAll (by simp [Request.access]) hw

/-- A bitstream configures the logic and does nothing else. -/
theorem moves_loadBitstream (d : InterfacesDictionary) (load : String → List UInt8 → BitstreamLoad)
    (bitstream : List UInt8) :
    Exec.Moves (Touches {.configure}) (loadBitstream d load bitstream) := by
  unfold loadBitstream
  refine (Exec.moves_ofExcept _).bind fun driver => ?_
  cases load driver bitstream with
  | refused => exact Exec.frame_pure _
  | status status =>
    simp only
    split_ifs
    · exact Exec.frame_pure _
    · exact (Exec.frame_modify fun hw => ⟨rfl, rfl, fun _ => rfl, fun h => absurd rfl h,
        fun _ => rfl, fun _ => rfl⟩).bind fun _ => Exec.frame_pure _

theorem moves_applyFilter (address : Nat) (taps : List Nat) :
    Exec.Moves (Touches {.write}) (applyFilter address taps) :=
  Exec.frame_forM fun _ _ => (moves_writeDirect _ _).bind fun _ => moves_writeDirect _ _

/-- The address of the buffer is written like any other register. -/
theorem moves_setScopeData (d : InterfacesDictionary) (file : String → Nat) (addr : Nat) :
    Exec.Moves (Touches {.write}) (setScopeData d file addr) :=
  (Exec.moves_ofExcept _).bind fun _ => moves_writeDirect _ _

end FpgaBridge

/-! ## The commands on single registers -/

namespace ControlEndpoints

open FpgaBridge

theorem moves_checkArguments {R : FpgaBridge → FpgaBridge → Prop} [IsPreorder FpgaBridge R]
    (pl : Platform) (arguments : Json) (keys : List String) :
    Exec.Moves R (checkArguments pl arguments keys) := by
  induction keys with
  | nil => exact Exec.frame_pure true
  | cons key keys ih =>
    rw [checkArguments]
    refine (Json.moves_atOrNull _ _).bind fun _ => (Json.moves_getDouble _).bind fun d => ?_
    split_ifs
    · exact ih
    · exact Exec.frame_pure false

theorem moves_processSingleWriteRegister (pl : Platform) (validator : SchemaValidator)
    (arguments : Json) :
    Exec.Moves (Touches {.write}) (processSingleWriteRegister pl validator arguments) := by
  unfold processSingleWriteRegister
  split
  · exact Exec.frame_pure _
  · refine (moves_checkArguments _ _ _).bind fun passed => ?_
    split_ifs
    · exact (moves_singleWriteRegister _ _).bind fun _ => Exec.frame_pure _
    · exact Exec.frame_pure _

theorem moves_processSingleReadRegister (w : Surroundings) (arguments : Json) :
    Exec.Moves (Touches ∅) (processSingleReadRegister w arguments) := by
  unfold processSingleReadRegister
  split_ifs
  · exact Exec.frame_pure _
  · exact (Json.moves_get _ _).bind fun _ => (moves_readDirect _ _).bind fun _ =>
      Exec.frame_pure _

theorem moves_processLoadBitstream (w : Surroundings) (arguments : Json) :
    Exec.Moves (Touches {.configure}) (processLoadBitstream w arguments) := by
  unfold processLoadBitstream
  split
  · exact (Exec.moves_require _ _).bind fun _ => (moves_loadBitstream _ _ _).bind fun _ =>
      Exec.frame_pure _
  · exact Exec.frame_pure _

theorem moves_processApplyFilter (w : Surroundings) (arguments : Json) :
    Exec.Moves (Touches {.write}) (processApplyFilter w arguments) := by
  unfold processApplyFilter
  split
  · exact Exec.frame_pure _
  · refine (Json.moves_atOrNull _ _).bind fun _ => (Json.moves_get _ _).bind fun d => ?_
    split_ifs
    · exact (Json.moves_get _ _).bind fun _ => (Json.moves_atOrNull _ _).bind fun _ =>
        (Json.moves_get _ _).bind fun _ => (moves_applyFilter _ _).bind fun _ =>
        Exec.frame_pure _
    · exact Exec.frame_pure _

/-- A control command has the accesses of its row in the table. -/
theorem moves_processCommand (w : Surroundings) (commandString : String) (arguments : Json) :
    Exec.Moves (Touches (Commands.accesses commandString))
      (processCommand w commandString arguments) := by
  unfold processCommand
  split_ifs with hload hwrite hread hfilter
  · exact (moves_processLoadBitstream w arguments).mono fun _ _ h =>
      h.mono (Commands.singleton_subset_accesses (by simp [hload, Commands.needing]))
  · exact (moves_processSingleWriteRegister _ _ arguments).mono fun _ _ h =>
      h.mono (Commands.singleton_subset_accesses (by simp [hwrite, Commands.needing]))
  · exact (moves_processSingleReadRegister w arguments).mono fun _ _ h =>
      h.mono (Set.empty_subset _)
  · exact (moves_processApplyFilter w arguments).mono fun _ _ h =>
      h.mono (Commands.singleton_subset_accesses (by simp [hfilter, Commands.needing]))
  · exact Exec.frame_pure _

end ControlEndpoints

/-! ## The commands on the scope -/

namespace ScopeEndpoints

/-- The bridge of the scope after code with the accesses `A`. -/
def Touches (A : Set Access) (s s' : ScopeEndpoints) : Prop :=
  s.hw.Touches A s'.hw

variable {A : Set Access}

instance : IsPreorder ScopeEndpoints (Touches A) where
  refl := fun s => refl_of (FpgaBridge.Touches A) s.hw
  trans := fun _ _ _ h h' => trans_of (FpgaBridge.Touches A) h h'

/-- A call on the bridge does what the bridge does. -/
theorem moves_onBridge {α : Type} {m : Exec Failure FpgaBridge α}
    (h : Exec.Moves (FpgaBridge.Touches A) m) : Exec.Moves (Touches A) (onBridge m) :=
  Exec.moves_zoom h fun _ _ h => h

/-- What changes the settings of the scope only. -/
theorem moves_modify {f : ScopeEndpoints → ScopeEndpoints} (h : ∀ s, (f s).hw = s.hw) :
    Exec.Moves (Touches A) (modify f : Exec Failure ScopeEndpoints PUnit) :=
  Exec.frame_modify fun s => by
    rw [Touches, h]
    exact refl_of (FpgaBridge.Touches A) s.hw

/-- A call on the samples does not reach the bridge. -/
theorem moves_onSamples {α : Type} (m : Exec Failure ScopeManager α) :
    Exec.Moves (Touches A) (onSamples m) :=
  Exec.frame_of_returns fun s _ s' h => by
    obtain ⟨samples, -, rfl⟩ := Exec.zoom_eq_ok.1 h
    exact refl_of (FpgaBridge.Touches A) s.hw

theorem moves_readData (w : Surroundings) : Exec.Moves (Touches ∅) (readData w) := by
  unfold readData
  split
  · exact Exec.frame_pure _
  · exact (moves_onSamples _).bind fun _ => (Exec.frame_gets _).bind fun _ =>
      Exec.frame_mapM fun _ _ => (Exec.moves_require _ _).bind fun _ => Exec.frame_pure _

theorem moves_processReadData (w : Surroundings) :
    Exec.Moves (Touches ∅) (processReadData w) :=
  (moves_readData w).bind fun _ => Exec.frame_pure _

/-- The settings of an acquisition are register writes. -/
theorem moves_setAcquisition (pl : Platform) (data : AcquisitionMetadata) :
    Exec.Moves (Touches {.write}) (setAcquisition pl data) :=
  (Exec.frame_gets _).bind fun _ => Exec.frame_when fun _ => Exec.frame_forM fun _ _ =>
    moves_onBridge (FpgaBridge.moves_writeDirect _ _)

theorem moves_setScopeAddress (w : Surroundings) (addr bufferOffset : Nat) :
    Exec.Moves (Touches {.write}) (setScopeAddress w addr bufferOffset) :=
  (moves_onBridge (FpgaBridge.moves_setScopeData _ _ _)).bind fun _ => moves_modify fun _ => rfl

theorem moves_disableDma (status : Bool) : Exec.Moves (Touches {.write}) (disableDma status) := by
  refine (Exec.frame_gets _).bind fun firstLoad => ?_
  split_ifs
  · exact moves_modify fun _ => rfl
  · exact (Exec.frame_gets _).bind fun _ => Exec.frame_when fun _ =>
      moves_onBridge (FpgaBridge.moves_writeDirect _ _)

theorem moves_read {α : Type} (arguments : Json) (key : String) (as : Json → Option α) :
    Exec.Moves (Touches A) (read arguments key as) :=
  (Json.moves_atOrNull _ _).bind fun _ => Json.moves_get _ _

theorem moves_channelStatuses (status : Int → Bool) (items : List (String × Json)) :
    Exec.Moves (Touches A) (channelStatuses status items) := by
  induction items generalizing status with
  | nil => exact Exec.frame_pure status
  | cons item items ih =>
    exact (Exec.moves_require _ _).bind fun _ => (Json.moves_get _ _).bind fun _ => ih _

theorem moves_setScalingFactors (sf : List ℚ) :
    Exec.Moves (Touches ∅) (setScalingFactors sf) :=
  (Exec.moves_throwIf _ _).bind fun _ => moves_modify fun _ => rfl

theorem moves_setChannelStatus (status : Int → Bool) :
    Exec.Moves (Touches ∅) (setChannelStatus status) :=
  moves_modify fun _ => rfl

/-- The factors stay in the driver. -/
theorem moves_processSetScalingFactors (arguments : Json) :
    Exec.Moves (Touches ∅) (processSetScalingFactors arguments) := by
  unfold processSetScalingFactors
  split
  · split_ifs
    · exact Exec.frame_pure _
    · exact Exec.frame_pure _
    · exact (Json.moves_get _ _).bind fun _ => (moves_setScalingFactors _).bind fun _ =>
        Exec.frame_pure _
  · exact Exec.frame_pure _

/-- So do the channels that are on. -/
theorem moves_processSetChannelStatus (arguments : Json) :
    Exec.Moves (Touches ∅) (processSetChannelStatus arguments) := by
  unfold processSetChannelStatus
  split
  · exact (moves_channelStatuses _ _).bind fun _ => (moves_setChannelStatus _).bind fun _ =>
      Exec.frame_pure _
  · exact Exec.frame_pure _

theorem moves_processGetAcquisitionStatus (w : Surroundings) :
    Exec.Moves (Touches ∅) (processGetAcquisitionStatus w) := by
  refine Exec.Frame.bind ((Exec.frame_gets _).bind fun base => ?_) fun _ => Exec.frame_pure _
  split_ifs
  · exact Exec.frame_pure _
  · exact (moves_onBridge (FpgaBridge.moves_readDirect _ _)).bind fun _ => Exec.frame_pure _

theorem moves_processSetAcquisition (pl : Platform) (arguments : Json) :
    Exec.Moves (Touches {.write}) (processSetAcquisition pl arguments) :=
  (moves_read _ _ _).bind fun _ => (moves_read _ _ _).bind fun _ => (moves_read _ _ _).bind fun _ =>
    (moves_read _ _ _).bind fun _ => (moves_read _ _ _).bind fun _ =>
    (moves_read _ _ _).bind fun _ => (moves_read _ _ _).bind fun _ =>
    (moves_setAcquisition _ _).bind fun _ => Exec.frame_pure _

theorem moves_processSetScopeAddress (w : Surroundings) (arguments : Json) :
    Exec.Moves (Touches {.write}) (processSetScopeAddress w arguments) := by
  refine (Json.moves_atOrNull _ _).bind fun address => ?_
  split
  · exact Exec.frame_pure _
  · refine (Json.moves_atOrNull _ _).bind fun offset => ?_
    split
    · exact (Json.moves_get _ _).bind fun _ => (moves_setScopeAddress _ _ _).bind fun _ =>
        Exec.frame_pure _
    · exact Exec.frame_pure _

theorem moves_processDisableDma (arguments : Json) :
    Exec.Moves (Touches {.write}) (processDisableDma arguments) :=
  (moves_read _ _ _).bind fun _ => (moves_disableDma _).bind fun _ => Exec.frame_pure _

/-- A scope command has the accesses of its row in the table. -/
theorem moves_processCommand (w : Surroundings) (commandString : String) (arguments : Json) :
    Exec.Moves (Touches (Commands.accesses commandString))
      (processCommand w commandString arguments) := by
  unfold processCommand
  split_ifs with hread hscaling hdma hchannels hstatus hacquisition haddress
  · exact (moves_processReadData w).mono fun _ _ h => h.mono (Set.empty_subset _)
  · exact (moves_processSetScalingFactors arguments).mono fun _ _ h => h.mono (Set.empty_subset _)
  · exact (moves_processDisableDma arguments).mono fun _ _ h =>
      h.mono (Commands.singleton_subset_accesses (by simp [hdma, Commands.needing]))
  · exact (moves_processSetChannelStatus arguments).mono fun _ _ h => h.mono (Set.empty_subset _)
  · exact (moves_processGetAcquisitionStatus w).mono fun _ _ h => h.mono (Set.empty_subset _)
  · exact (moves_processSetAcquisition _ arguments).mono fun _ _ h =>
      h.mono (Commands.singleton_subset_accesses (by simp [hacquisition, Commands.needing]))
  · exact (moves_processSetScopeAddress w arguments).mono fun _ _ h =>
      h.mono (Commands.singleton_subset_accesses (by simp [haddress, Commands.needing]))
  · exact Exec.frame_pure _

end ScopeEndpoints

end UscopeDriver
