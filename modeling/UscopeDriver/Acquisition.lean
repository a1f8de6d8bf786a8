import UscopeDriver.DmaTable
import UscopeDriver.ScopeEndpoints

/-!
# Acquisition settings after earlier ones

`set_acquisition` writes the registers of the trigger on every call, those of the timebase only
for a prescaler above 2. With a smaller prescaler the timebase stays as an earlier call has left
it. So the registers do not show the earlier calls just when the last prescaler is above 2 or none
of the earlier ones was (`registers_independent_iff`).
-/

namespace UscopeDriver

open LastWrite

namespace FpgaBridge

/-- The register window after requests : the last write wins on a live bus with a bitstream. -/
theorem registers_performAll (hw : FpgaBridge) (rs : List Request) :
    (hw.performAll rs).busses.registers =
      if hw.fpgaLoaded = true ∧ hw.busses.sinkMode = false then
        store hw.busses.registers
          (rs.filterMap (Request.registerWrite hw.busses.controlAddr))
      else hw.busses.registers := by
  have hregisters : (hw.performAll rs).busses.registers =
      if hw.busses.sinkMode then hw.busses.registers
      else store hw.busses.registers
        ((rs.filter hw.reachesBus).filterMap (Request.registerWrite hw.busses.controlAddr)) := by
    rw [← foldl_store]
    rfl
  rw [hregisters]
  by_cases hsink : hw.busses.sinkMode
  · simp [hsink]
  by_cases hloaded : hw.fpgaLoaded
  · have hall : rs.filter hw.reachesBus = rs := by
      refine List.filter_eq_self.2 fun r _ => ?_
      cases r <;> simp [reachesBus, hloaded]
    simp [hsink, hloaded, hall]
  · have hnone : (rs.filter hw.reachesBus).filterMap
        (Request.registerWrite hw.busses.controlAddr) = [] := by
      refine List.filterMap_eq_nil_iff.2 fun r hr => ?_
      cases r with
      | write address value => simp [reachesBus, hloaded] at hr
      | load address program => rfl
    simp [hsink, hloaded, hnone]

end FpgaBridge

namespace ScopeEndpoints

open ScopeAddressMap

/-- The scope after requests to the bridge. -/
def emit (s : ScopeEndpoints) (rs : List Request) : ScopeEndpoints :=
  { s with hw := s.hw.performAll rs }

instance : Drives ScopeEndpoints where
  hw := (·.hw)
  emit := emit
  hw_emit := fun _ _ => rfl
  emit_nil := fun s => by simp [emit]
  emit_emit := fun s rs rs' => by simp [emit]

/-- The registers of the acquisition settings. -/
def acquisitionRegisters (base : Nat) : List Nat :=
  [base + internalBase + ScopeInt.trgMode, base + internalBase + ScopeInt.trgSrc,
    base + internalBase + ScopeInt.trgLvl, base + internalBase + ScopeInt.acqMode,
    base + internalBase + ScopeInt.trgPoint, base + tbBase + Tb.ctrl, base + tbBase + Tb.period,
    base + tbBase + Tb.threshold]

variable {pl : Platform} {base : Nat} {data : AcquisitionMetadata} {s s' : ScopeEndpoints}

/-- The requests of a call. -/
def acquisitionRequests (pl : Platform) (data : AcquisitionMetadata) (s : ScopeEndpoints) :
    List Request :=
  if s.scopeBaseAddress = 0 then []
  else (acquisitionWrites pl s.scopeBaseAddress data).map fun write => regWrite write.1 write.2

/-- An acquisition is set exactly by its writes. -/
theorem setAcquisition_eq_ok {u : Unit} :
    (setAcquisition pl data).run s = .ok u s' ↔
      s.hw.Admits (acquisitionRequests pl data s) ∧
        s' = s.emit (acquisitionRequests pl data s) := by
  have hwrite : ∀ (write : Nat × Nat) (t : ScopeEndpoints) (v : PUnit) (t' : ScopeEndpoints),
      (onBridge (FpgaBridge.writeDirect write.1 write.2)).run t = .ok v t' ↔ True ∧
        (Drives.hw t).Admits [regWrite write.1 write.2] ∧
          t' = Drives.emit t [regWrite write.1 write.2] := by
    intro write t v t'
    simp only [onBridge, Exec.zoom_eq_ok, FpgaBridge.writeDirect_eq_ok, true_and]
    constructor
    · rintro ⟨hw, ⟨hadmits, rfl⟩, rfl⟩
      exact ⟨hadmits, rfl⟩
    · rintro ⟨hadmits, rfl⟩
      exact ⟨_, ⟨hadmits, rfl⟩, rfl⟩
  have hrun : (setAcquisition pl data).run s = (Exec.when (s.scopeBaseAddress ≠ 0)
      (forM (acquisitionWrites pl s.scopeBaseAddress data) fun write =>
        onBridge (FpgaBridge.writeDirect write.1 write.2))).run s := rfl
  rw [hrun, Exec.when_eq_ok, Drives.forM_requests hwrite, acquisitionRequests,
    List.map_eq_flatMap]
  by_cases hbase : s.scopeBaseAddress = 0
  · have hemit : s.emit [] = s := Drives.emit_nil s
    simp [hbase, hemit]
  · simp [hbase, Drives.hw, Drives.emit]

/-- The calls do not affect each other's requests. -/
theorem forM_setAcquisition_eq_ok {settings : List AcquisitionMetadata} {u : PUnit} :
    (forM settings (setAcquisition pl)).run s = .ok u s' ↔
      s.hw.Admits (settings.flatMap (acquisitionRequests pl · s)) ∧
        s' = s.emit (settings.flatMap (acquisitionRequests pl · s)) := by
  have hround : Drives.Round (setAcquisition pl) (fun _ _ => True) (acquisitionRequests pl)
      fun _ s => s :=
    ⟨fun _ _ _ _ => setAcquisition_eq_ok.trans (iff_of_eq (true_and _)).symm,
      fun _ => ⟨fun _ => rfl, fun _ _ => rfl⟩, fun _ _ _ => Iff.rfl, fun _ _ _ => rfl⟩
  rw [hround.forM_emit_uniform (fun _ _ _ => Iff.rfl) (fun _ _ _ => rfl), List.foldl_fixed]
  simp [Drives.hw, Drives.emit]

/-- The registers are words of the scope. Word 64 starts the timebase, and only a prescaler above
2 writes it. -/
theorem acquisitionWrites_spec {write : Nat × Nat} (h : write ∈ acquisitionWrites pl base data) :
    ∃ j < 2 ^ 62, write.1 = base + 4 * j ∧ (j = 64 → write.2 = 1 ∧ data.prescaler > 2) := by
  rcases List.mem_append.1 h with h | h
  · simp only [List.mem_cons, List.not_mem_nil, or_false] at h
    rcases h with rfl | rfl | rfl | rfl | rfl
    · exact ⟨128, by norm_num, rfl, by norm_num⟩
    · exact ⟨132, by norm_num, rfl, by norm_num⟩
    · exact ⟨129, by norm_num, rfl, by norm_num⟩
    · exact ⟨134, by norm_num, rfl, by norm_num⟩
    · exact ⟨133, by norm_num, rfl, by norm_num⟩
  · split_ifs at h with hprescaler
    · simp only [List.mem_cons, List.not_mem_nil, or_false] at h
      rcases h with rfl | rfl | rfl
      · exact ⟨64, by norm_num, rfl, fun _ => ⟨rfl, hprescaler⟩⟩
      · exact ⟨65, by norm_num, rfl, by norm_num⟩
      · exact ⟨66, by norm_num, rfl, by norm_num⟩
    · simp at h

/-- A call writes what another writes, except the timebase. -/
theorem acquisitionAddresses_subset {earlier : AcquisitionMetadata}
    (h : earlier.prescaler > 2 → data.prescaler > 2) :
    (acquisitionWrites pl base earlier).map Prod.fst ⊆
      (acquisitionWrites pl base data).map Prod.fst := by
  unfold acquisitionWrites
  simp only [List.map_append, List.map_cons, List.map_nil]
  by_cases hearlier : earlier.prescaler > 2
  · rw [if_pos hearlier, if_pos (h hearlier)]
    exact List.Subset.refl _
  · rw [if_neg hearlier, List.map_nil, List.append_nil]
    exact List.subset_append_left _ _

/-- What a call stores in the register window. -/
def acquisitionStores (controlAddr : Nat) (pl : Platform) (base : Nat)
    (data : AcquisitionMetadata) : List (Nat × Nat) :=
  (acquisitionWrites pl base data).map fun write =>
    (registerWord controlAddr write.1, u32 write.2)

/-- What reaches the registers are the stores of the settings, one after the other. -/
theorem filterMap_registerWrite (hbase : s.scopeBaseAddress ≠ 0) (controlAddr : Nat)
    (settings : List AcquisitionMetadata) :
    (settings.flatMap (acquisitionRequests pl · s)).filterMap (Request.registerWrite controlAddr) =
      settings.flatMap (acquisitionStores controlAddr pl s.scopeBaseAddress) := by
  have hcall : ∀ data, (acquisitionRequests pl data s).filterMap
      (Request.registerWrite controlAddr) =
        acquisitionStores controlAddr pl s.scopeBaseAddress data := by
    intro data
    rw [acquisitionRequests, if_neg hbase, List.filterMap_map, acquisitionStores,
      ← List.filterMap_eq_map]
    exact List.filterMap_congr fun write _ => registerWrite_regWrite _ _ _
  induction settings with
  | nil => rfl
  | cons data settings ih =>
    rw [List.flatMap_cons, List.filterMap_append, hcall, ih, List.flatMap_cons]

/-- The registers after a number of calls on a scope. -/
theorem registers_emit (pl : Platform) (hbase : s.scopeBaseAddress ≠ 0)
    (settings : List AcquisitionMetadata) :
    (s.emit (settings.flatMap (acquisitionRequests pl · s))).hw.busses.registers =
      if s.hw.fpgaLoaded = true ∧ s.hw.busses.sinkMode = false then
        store s.hw.busses.registers
          (settings.flatMap (acquisitionStores s.hw.busses.controlAddr pl s.scopeBaseAddress))
      else s.hw.busses.registers := by
  rw [← filterMap_registerWrite hbase]
  exact FpgaBridge.registers_performAll _ _

/-- The last call hides the earlier ones where it writes what they have written. -/
theorem store_stores_of_hidden (registers : Nat → Nat) (controlAddr : Nat)
    {earlier : List AcquisitionMetadata}
    (h : data.prescaler > 2 ∨ ∀ e ∈ earlier, e.prescaler ≤ 2) :
    store registers ((earlier ++ [data]).flatMap (acquisitionStores controlAddr pl base)) =
      store registers (acquisitionStores controlAddr pl base data) := by
  have haddresses : ∀ e, (acquisitionStores controlAddr pl base e).map Prod.fst =
      ((acquisitionWrites pl base e).map Prod.fst).map (registerWord controlAddr) := by
    intro e
    rw [acquisitionStores, List.map_map, List.map_map]
    rfl
  rw [List.flatMap_append, List.flatMap_singleton]
  refine store_append_of_subset _ fun k hk => ?_
  obtain ⟨w, hw, rfl⟩ := List.mem_map.1 hk
  obtain ⟨e, he, hw⟩ := List.mem_flatMap.1 hw
  have hle : e.prescaler > 2 → data.prescaler > 2 := fun hgt =>
    h.resolve_right fun hall => absurd hgt (not_lt.2 (hall e he))
  have hk := List.mem_map_of_mem (f := Prod.fst) hw
  rw [haddresses] at hk ⊢
  exact List.map_subset _ (acquisitionAddresses_subset hle) hk

/-- Where the addresses are in the window, the start of the timebase is a word of its own. -/
theorem lastValue_timebase {controlAddr : Nat} {settings : List AcquisitionMetadata}
    (hin : ∀ e ∈ settings, ∀ write ∈ acquisitionWrites pl base e, controlAddr ≤ u64 write.1)
    (htb : controlAddr ≤ u64 (base + tbBase + Tb.ctrl)) :
    lastValue (settings.flatMap (acquisitionStores controlAddr pl base))
        (registerWord controlAddr (base + tbBase + Tb.ctrl)) =
      if ∃ e ∈ settings, e.prescaler > 2 then some 1 else none := by
  have hspec : ∀ e ∈ settings, ∀ write ∈ acquisitionWrites pl base e,
      registerWord controlAddr (base + tbBase + Tb.ctrl) = registerWord controlAddr write.1 →
        write.2 = 1 ∧ e.prescaler > 2 := by
    intro e he write hwrite hword
    obtain ⟨j, hj, haddr, hctrl⟩ := acquisitionWrites_spec hwrite
    have hat := hin e he write hwrite
    rw [haddr] at hword hat
    exact hctrl ((DeployerBase.registerWord_eq_iff (j := 64) htb hat (by norm_num) hj).1 hword).symm
  split_ifs with hsome
  · obtain ⟨e, he, hgt⟩ := hsome
    have hmem : (registerWord controlAddr (base + tbBase + Tb.ctrl), 1) ∈
        settings.flatMap (acquisitionStores controlAddr pl base) := by
      refine List.mem_flatMap.2 ⟨e, he, List.mem_map.2 ⟨(base + tbBase + Tb.ctrl, 1), ?_, rfl⟩⟩
      simp [acquisitionWrites, hgt]
    obtain ⟨v, hv⟩ := Option.ne_none_iff_exists'.1
      (mt lastValue_eq_none.1 (not_not.2 (List.mem_map_of_mem hmem)))
    obtain ⟨e', he', hstore⟩ := List.mem_flatMap.1 (mem_of_lastValue hv)
    obtain ⟨write, hwrite, heq⟩ := List.mem_map.1 hstore
    obtain ⟨hword, hvalue⟩ := Prod.mk.inj heq
    rw [hv, ← hvalue, (hspec e' he' write hwrite hword.symm).1]
    rfl
  · rw [lastValue_eq_none]
    intro hmem
    obtain ⟨w, hw, hword⟩ := List.mem_map.1 hmem
    obtain ⟨e, he, hstore⟩ := List.mem_flatMap.1 hw
    obtain ⟨write, hwrite, rfl⟩ := List.mem_map.1 hstore
    exact hsome ⟨e, he, (hspec e he write hwrite hword.symm).2⟩

/-- On a live bus the calls return only with all their registers in the window. -/
theorem le_of_admits {settings : List AcquisitionMetadata} (hbase : s.scopeBaseAddress ≠ 0)
    (hlive : s.hw.fpgaLoaded = true ∧ s.hw.busses.sinkMode = false)
    (hadmits : s.hw.Admits (settings.flatMap (acquisitionRequests pl · s))) :
    ∀ e ∈ settings, ∀ write ∈ acquisitionWrites pl s.scopeBaseAddress e,
      s.hw.busses.controlAddr ≤ u64 write.1 := by
  intro e he write hwrite
  have hmem : regWrite write.1 write.2 ∈ settings.flatMap (acquisitionRequests pl · s) := by
    refine List.mem_flatMap.2 ⟨e, he, ?_⟩
    rw [acquisitionRequests, if_neg hbase]
    exact List.mem_map.2 ⟨write, hwrite, rfl⟩
  exact ((hadmits _ hmem hlive.1).resolve_left (by simp [hlive.2])).1

/-- The timebase runs when one of the calls has started it. -/
theorem registerValue_timebase {settings : List AcquisitionMetadata}
    (hbase : s.scopeBaseAddress ≠ 0) (hzero : s.hw.busses.registers = fun _ => 0)
    (hlive : s.hw.fpgaLoaded = true ∧ s.hw.busses.sinkMode = false)
    (hadmits : s.hw.Admits (settings.flatMap (acquisitionRequests pl · s)))
    (htb : s.hw.busses.controlAddr ≤ u64 (s.scopeBaseAddress + tbBase + Tb.ctrl)) :
    (s.emit (settings.flatMap (acquisitionRequests pl · s))).hw.busses.registerValue
        (s.scopeBaseAddress + tbBase + Tb.ctrl) =
      if ∃ e ∈ settings, e.prescaler > 2 then 1 else 0 := by
  have hlast := lastValue_timebase (le_of_admits hbase hlive hadmits) htb
  rw [BusAccessor.registerValue, registers_emit pl hbase, if_pos hlive, store_apply, hzero]
  refine (congrArg (Option.getD · 0) hlast).trans ?_
  split_ifs <;> rfl

/-- A call with a small prescaler leaves the timebase on. -/
theorem timebase_differs {earlier : List AcquisitionMetadata} {e : AcquisitionMetadata}
    (hbase : s.scopeBaseAddress ≠ 0) (hzero : s.hw.busses.registers = fun _ => 0)
    (hlive : s.hw.fpgaLoaded = true ∧ s.hw.busses.sinkMode = false)
    (hadmits : s.hw.Admits ((earlier ++ [data]).flatMap (acquisitionRequests pl · s)))
    (he : e ∈ earlier) (hgt : e.prescaler > 2) (hle : data.prescaler ≤ 2) :
    (s.emit ((earlier ++ [data]).flatMap (acquisitionRequests pl · s))).hw.busses.registerValue
        (s.scopeBaseAddress + tbBase + Tb.ctrl) ≠
      (s.emit ([data].flatMap (acquisitionRequests pl · s))).hw.busses.registerValue
        (s.scopeBaseAddress + tbBase + Tb.ctrl) := by
  have hmem : e ∈ earlier ++ [data] := List.mem_append_left _ he
  have htb : s.hw.busses.controlAddr ≤ u64 (s.scopeBaseAddress + tbBase + Tb.ctrl) :=
    le_of_admits hbase hlive hadmits e hmem (_, 1) (by simp [acquisitionWrites, hgt])
  have hlast : s.hw.Admits ([data].flatMap (acquisitionRequests pl · s)) := by
    rw [List.flatMap_append, FpgaBridge.admits_append] at hadmits
    exact hadmits.2
  rw [registerValue_timebase hbase hzero hlive hadmits htb,
    registerValue_timebase hbase hzero hlive hlast htb, if_pos ⟨e, hmem, hgt⟩,
    if_neg (by simpa using hle)]
  exact one_ne_zero

/-- The acquisition registers after the calls are those after the last call alone, exactly when the
last call writes the timebase or none of the earlier ones did. -/
theorem registers_independent_iff {earlier : List AcquisitionMetadata} {u : PUnit}
    (hbase : s.scopeBaseAddress ≠ 0) (hzero : s.hw.busses.registers = fun _ => 0)
    (hrun : (forM (earlier ++ [data]) (setAcquisition pl)).run s = .ok u s') :
    ∃ s₂, (setAcquisition pl data).run s = .ok () s₂ ∧
      ((∀ address ∈ acquisitionRegisters s.scopeBaseAddress,
          s'.hw.busses.registerValue address = s₂.hw.busses.registerValue address) ↔
        s.hw.fpgaLoaded = false ∨ s.hw.busses.sinkMode = true ∨ data.prescaler > 2 ∨
          ∀ e ∈ earlier, e.prescaler ≤ 2) := by
  obtain ⟨hadmits, rfl⟩ := forM_setAcquisition_eq_ok.1 hrun
  have hsplit := hadmits
  rw [List.flatMap_append, FpgaBridge.admits_append] at hsplit
  have hone : [data].flatMap (acquisitionRequests pl · s) = acquisitionRequests pl data s :=
    List.flatMap_singleton _ _
  refine ⟨s.emit ([data].flatMap (acquisitionRequests pl · s)),
    setAcquisition_eq_ok.2 ⟨hone ▸ hsplit.2, by rw [hone]⟩, ?_⟩
  have hall := registers_emit pl hbase (earlier ++ [data])
  have hlast := registers_emit pl hbase [data]
  by_cases hlive : s.hw.fpgaLoaded = true ∧ s.hw.busses.sinkMode = false
  · rw [if_pos hlive] at hall hlast
    by_cases hhidden : data.prescaler > 2 ∨ ∀ e ∈ earlier, e.prescaler ≤ 2
    · rw [store_stores_of_hidden _ _ hhidden] at hall
      rw [List.flatMap_singleton (f := acquisitionStores _ pl _)] at hlast
      refine iff_of_true (fun address _ => ?_) (Or.inr (Or.inr hhidden))
      exact congrFun (hall.trans hlast.symm) (registerWord s.hw.busses.controlAddr address)
    -- an earlier call has started the timebase, and the last one does not write it
    · refine iff_of_false (fun heq => ?_) (by simp [hlive.1, hlive.2, hhidden])
      push Not at hhidden
      obtain ⟨hle, e, he, hgt⟩ := hhidden
      exact timebase_differs hbase hzero hlive hadmits he hgt hle
        (heq _ (by simp [acquisitionRegisters]))
  · rw [if_neg hlive] at hall hlast
    refine iff_of_true (fun address _ => ?_) ?_
    · exact congrFun (hall.trans hlast.symm) (registerWord s.hw.busses.controlAddr address)
    · rcases not_and_or.1 hlive with hloaded | hsink
      · exact Or.inl (Bool.eq_false_iff.2 hloaded)
      · exact Or.inr (Or.inl (Bool.not_eq_false _ ▸ hsink))

/-- A scope on the live bus of a loaded Zynq UltraScale+. -/
def scopeOnBus : ScopeEndpoints :=
  { construct ⟨.zynqmp, true⟩ with scopeBaseAddress := 0x443C00000 }

/-- Continuous acquisition with a prescaler. -/
def continuousWith (prescaler : Nat) : AcquisitionMetadata :=
  ⟨"continuous", "rising_edge", 1, 0, "int", 0, prescaler⟩

/-- Two acquisitions with prescalers above two. -/
theorem registers_independent_of_large_prescaler : ∃ s' s₂,
    (forM ([continuousWith 10] ++ [continuousWith 20]) (setAcquisition .zeros)).run scopeOnBus =
        .ok ⟨⟩ s' ∧
      (setAcquisition .zeros (continuousWith 20)).run scopeOnBus = .ok () s₂ ∧
      ∀ address ∈ acquisitionRegisters 0x443C00000,
        s'.hw.busses.registerValue address = s₂.hw.busses.registerValue address := by
  obtain ⟨u, s', hrun, -⟩ : ∃ u s', (forM ([continuousWith 10] ++ [continuousWith 20])
      (setAcquisition .zeros)).run scopeOnBus = .ok u s' ∧ True :=
    Exec.exists_of_returnsIn (by decide +kernel)
  obtain ⟨s₂, hlast, hiff⟩ := registers_independent_iff (by decide) rfl hrun
  exact ⟨s', s₂, hrun, hlast, hiff.2 (Or.inr (Or.inr (Or.inl (by decide))))⟩

/-- A prescaler of 10 leaves the timebase on for a call with a prescaler of 1. -/
theorem registers_after_small_prescaler : ∃ s' s₂,
    (forM ([continuousWith 10] ++ [continuousWith 1]) (setAcquisition .zeros)).run scopeOnBus =
        .ok ⟨⟩ s' ∧
      (setAcquisition .zeros (continuousWith 1)).run scopeOnBus = .ok () s₂ ∧
      ¬∀ address ∈ acquisitionRegisters 0x443C00000,
        s'.hw.busses.registerValue address = s₂.hw.busses.registerValue address := by
  obtain ⟨u, s', hrun, hone⟩ : ∃ u s', (forM ([continuousWith 10] ++ [continuousWith 1])
      (setAcquisition .zeros)).run scopeOnBus = .ok u s' ∧
        s'.hw.busses.registerValue 0x443C00100 = 1 :=
    Exec.exists_of_returnsIn (by decide +kernel)
  obtain ⟨u₂, s₂, hlast, hzero⟩ : ∃ u s₂,
      (setAcquisition .zeros (continuousWith 1)).run scopeOnBus = .ok u s₂ ∧
        s₂.hw.busses.registerValue 0x443C00100 = 0 :=
    Exec.exists_of_returnsIn (by decide +kernel)
  refine ⟨s', s₂, hrun, hlast, fun h => ?_⟩
  have hctrl := h 0x443C00100 (by decide)
  rw [hone, hzero] at hctrl
  exact absurd hctrl one_ne_zero

end ScopeEndpoints

end UscopeDriver
