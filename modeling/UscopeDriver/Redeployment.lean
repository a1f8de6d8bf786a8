import UscopeDriver.Generators
import UscopeDriver.History
import UscopeDriver.LiveInputs
import UscopeDriver.Accesses

/-!
# The same specification again

A deployment asks for the same requests when its specification is deployed again, and on words that
hold them already the same writes change nothing. So any number of deployments of one specification
leave the hardware, the log and the labels of the first, and only the inputs are entered again each
time (`redeploy`). After live updates, one more deployment puts every register that it writes back
to where the first had left it (`redeploy_restores`).
-/

namespace UscopeDriver

open LastWrite (store)

/-! ## The same requests again -/

/-- What a request stores in the program memories. -/
def Request.programWrites (coreAddr : Nat) : Request → List (Nat × Nat)
  | .write _ _ => []
  | .load address program =>
    program.zipIdx.map fun p => (p.2 + (address - coreAddr) / 4, u32 p.1)

/-- Requests store the words that they load. -/
theorem foldl_storeProgram (coreAddr : Nat) (rs : List Request) (fCore : Nat → Nat) :
    rs.foldl (Request.storeProgram coreAddr) fCore =
      store fCore (rs.flatMap (Request.programWrites coreAddr)) := by
  induction rs generalizing fCore with
  | nil => rfl
  | cons r rs ih =>
    rw [List.foldl_cons, ih, List.flatMap_cons, LastWrite.store_append]
    cases r with
    | write address value => rfl
    | load address program =>
      congr 1
      simp only [Request.storeProgram, Request.programWrites, store, List.foldl_map]

namespace BusAccessor

/-- The log has a write to the register word `k`. -/
def Wrote (b : BusAccessor) (k : Nat) : Prop :=
  ∃ address value, ⟨[address], [value], .controlPlaneWrite⟩ ∈ b.operations ∧
    (address - b.controlAddr) / 4 = k

/-- The words that the requests write. -/
def writtenWords (controlAddr : Nat) (rs : List Request) : List Nat :=
  (rs.filterMap (Request.registerWrite controlAddr)).map Prod.fst

/-- On an empty record the words written are those of the requests. -/
theorem wrote_performAll {b : BusAccessor} (hops : b.operations = []) {rs : List Request}
    {k : Nat} : (b.performAll rs).Wrote k ↔ k ∈ writtenWords b.controlAddr rs := by
  have hlog : (b.performAll rs).operations = rs.map Request.op := by simp [performAll, hops]
  rw [Wrote, hlog, writtenWords, List.mem_map]
  constructor
  · rintro ⟨address, value, hmem, rfl⟩
    obtain ⟨r, hr, hop⟩ := List.mem_map.1 hmem
    obtain rfl : r = .write address value := Request.op_injective hop
    exact ⟨_, List.mem_filterMap.2 ⟨_, hr, rfl⟩, rfl⟩
  · rintro ⟨w, hw, rfl⟩
    obtain ⟨r, hr, hwrite⟩ := List.mem_filterMap.1 hw
    cases r with
    | write address value =>
      obtain rfl := Option.some.inj hwrite
      exact ⟨address, value, List.mem_map.2 ⟨_, hr, rfl⟩, rfl⟩
    | load address program => cases hwrite

/-- The same requests once more, on a cleared log. -/
theorem performAll_again {b : BusAccessor} (hops : b.operations = []) (rs : List Request) :
    ({ b.performAll rs with operations := [] } : BusAccessor).performAll rs = b.performAll rs := by
  cases h : b.sinkMode with
  | true => simp [performAll, h, hops]
  | false => simp [performAll, h, hops, foldl_store, foldl_storeProgram, LastWrite.store_store]

/-- What the requests write does not depend on what was there. -/
theorem registers_performAll_of_mem {b b' : BusAccessor} (hlive : b.sinkMode = false)
    (hlive' : b'.sinkMode = false) (haddr : b.controlAddr = b'.controlAddr) {rs : List Request}
    {k : Nat} (hk : k ∈ writtenWords b.controlAddr rs) :
    (b.performAll rs).registers k = (b'.performAll rs).registers k := by
  simp only [performAll, hlive, hlive', ← haddr, Bool.false_eq_true, if_false, foldl_store]
  exact LastWrite.store_congr _ _ hk

/-- Other words keep their values. -/
theorem registers_performAll_of_notMem {b : BusAccessor} {rs : List Request} {k : Nat}
    (hk : k ∉ writtenWords b.controlAddr rs) :
    (b.performAll rs).registers k = b.registers k := by
  cases h : b.sinkMode with
  | true => simp [performAll, h]
  | false =>
    simp only [performAll, h, Bool.false_eq_true, if_false, foldl_store]
    rw [LastWrite.store_apply, LastWrite.lastValue_eq_none.2 hk]
    rfl

/-- The bus after requests, other writes and the same requests again. What the requests write they
write again, and the rest is where the other writes have left it. -/
theorem performAll_restores {b : BusAccessor} (hops : b.operations = []) {rs : List Request}
    (hrs : ∀ r ∈ rs, r.access ≠ .load) (qs : List Request) {b' : BusAccessor}
    (hb' : b' = ({ (b.performAll qs).performAll rs with operations := [] } : BusAccessor).performAll
      qs) :
    b'.operations = (b.performAll qs).operations ∧ b'.fCore = (b.performAll qs).fCore ∧
      (∀ k, (b.performAll qs).Wrote k → b'.registers k = (b.performAll qs).registers k) ∧
      ∀ k, ¬(b.performAll qs).Wrote k →
        b'.registers k = ((b.performAll qs).performAll rs).registers k := by
  subst hb'
  refine ⟨by simp [performAll, hops], ?_, fun k hk => ?_, fun k hk => ?_⟩
  · cases h : b.sinkMode with
    | true => simp [performAll, h]
    | false =>
      simp only [performAll, h, Bool.false_eq_true, if_false,
        Request.foldl_storeProgram_of_writes _ hrs]
      rw [foldl_storeProgram, foldl_storeProgram, LastWrite.store_store]
  · rw [wrote_performAll hops] at hk
    cases h : b.sinkMode with
    | true => simp [performAll, h]
    | false =>
      exact registers_performAll_of_mem
        (b := { (b.performAll qs).performAll rs with operations := [] }) h h rfl hk
  · rw [wrote_performAll hops] at hk
    exact registers_performAll_of_notMem hk

end BusAccessor

attribute [ext] DeployerBase HilDeployer

/-- The calls that update what is deployed. -/
def HilCall.Live {Spec : Type} : HilCall Spec → Prop
  | .setLayoutMap _ | .deploy _ | .getHardwareSimData _ => False
  | _ => True

namespace HilDeployer

variable {Spec : Type} {env : Environment Spec} {arguments : Spec}
  {programs : List DeployedProgram} {slots : List DeployerInterconnectSlot}
  {memories : String → List MemoryInitValue} {s s' t : HilDeployer}

/-! ## The deployment again -/

/-- Initial values that are stored again are the same. -/
theorem mergedIvs_mergedIvs (ivs : String → String → Option (List Nat)) :
    mergedIvs (mergedIvs ivs slots programs) slots programs = mergedIvs ivs slots programs := by
  funext id name
  cases h : specIvs slots programs id name with
  | some iv => rw [mergedIvs_of_spec h, mergedIvs_of_spec h]
  | none => rw [mergedIvs_of_none h]

/-- The bridge with the log cleared. -/
def cleared (hw : FpgaBridge) : FpgaBridge :=
  { hw with busses := { hw.busses with operations := [] } }

/-- The same requests twice leave the same bridge. -/
theorem performAll_cleared_again (hw : FpgaBridge) (rs : List Request) :
    (cleared ((cleared hw).performAll rs)).performAll rs = (cleared hw).performAll rs := by
  have hfilter : (cleared ((cleared hw).performAll rs)).reachesBus = (cleared hw).reachesBus :=
    FpgaBridge.reachesBus_congr rfl
  have hbusses : BusAccessor.performAll _ _ = _ :=
    BusAccessor.performAll_again (b := (cleared hw).busses) rfl (rs.filter (cleared hw).reachesBus)
  rw [FpgaBridge.performAll, hfilter]
  exact congrArg (fun b => { cleared hw with busses := b }) hbusses

/-- Two deployers with the same records of the programs and the schedule. -/
structure SameRecords (s t : HilDeployer) : Prop where
  ivs : s.ivs = t.ivs
  timebaseFrequency : s.timebaseFrequency = t.timebaseFrequency
  busMap : s.busMap = t.busMap
  deployedHash : s.deployedHash = t.deployedHash
  coresIdx : s.coresIdx = t.coresIdx
  minTimebase : s.minTimebase = t.minTimebase
  nChannels : s.nChannels = t.nChannels
  executionOrder : s.executionOrder = t.executionOrder

theorem SameRecords.symm (h : SameRecords s t) : SameRecords t s :=
  ⟨h.ivs.symm, h.timebaseFrequency.symm, h.busMap.symm, h.deployedHash.symm, h.coresIdx.symm,
    h.minTimebase.symm, h.nChannels.symm, h.executionOrder.symm⟩

theorem SameRecords.trans {s₁ s₂ s₃ : HilDeployer} (h : SameRecords s₁ s₂)
    (h' : SameRecords s₂ s₃) : SameRecords s₁ s₃ :=
  ⟨h.ivs.trans h'.ivs, h.timebaseFrequency.trans h'.timebaseFrequency, h.busMap.trans h'.busMap,
    h.deployedHash.trans h'.deployedHash, h.coresIdx.trans h'.coresIdx,
    h.minTimebase.trans h'.minTimebase, h.nChannels.trans h'.nChannels,
    h.executionOrder.trans h'.executionOrder⟩

/-- The stages that write registers keep the records. -/
theorem sameRecords_deployed (s : HilDeployer) (rs : List Request) :
    SameRecords ((deployed env arguments programs s).emit rs) s := by
  rw [deployed_eq]
  exact ⟨rfl, rfl, rfl, rfl, rfl, rfl, rfl, rfl⟩

/-- On top of the records of a specification the stages before them record the same. -/
theorem sameRecords_prepared (hset : SameSetting t s)
    (h : SameRecords t (prepared env arguments programs slots s)) :
    SameRecords (prepared env arguments programs slots t)
      (prepared env arguments programs slots s) where
  ivs := by
    have hivs : t.ivs = mergedIvs s.ivs slots programs := h.ivs
    change mergedIvs t.ivs slots programs = mergedIvs s.ivs slots programs
    rw [hivs, mergedIvs_mergedIvs]
  timebaseFrequency := rfl
  busMap := rfl
  deployedHash := rfl
  coresIdx := by
    have hcores : t.coresIdx = store s.coresIdx
      (programs.map fun p => (p.name, p.index.toNat)) := h.coresIdx
    change store t.coresIdx (programs.map fun p => (p.name, p.index.toNat)) = _
    rw [hcores, LastWrite.store_store]
    rfl
  minTimebase := by rw [prepared_minTimebase, prepared_minTimebase, hset.fullCoresOverride]
  nChannels := by
    have hchannels : t.nChannels = store s.nChannels (programs.map fun p =>
      (p.name, checkReciprocal env.isa s.fullCoresOverride p.binary)) := h.nChannels
    change store t.nChannels (programs.map fun p =>
      (p.name, checkReciprocal env.isa t.fullCoresOverride p.binary)) = _
    rw [hset.fullCoresOverride, hchannels, LastWrite.store_store]
    rfl
  executionOrder := by
    have horder : t.executionOrder = store s.executionOrder
      (programs.map fun p => (p.name, p.order.toNat)) := h.executionOrder
    change store t.executionOrder (programs.map fun p => (p.name, p.order.toNat)) = _
    rw [horder, LastWrite.store_store]
    rfl

/-- The deployer behind another state of the bridge. -/
def behind (s : HilDeployer) (hw : FpgaBridge) : HilDeployer :=
  { s with hw := hw }

theorem SameRecords.behind (h : SameRecords s t) (hw : FpgaBridge) :
    SameRecords (s.behind hw) t :=
  ⟨h.ivs, h.timebaseFrequency, h.busMap, h.deployedHash, h.coresIdx, h.minTimebase, h.nChannels,
    h.executionOrder⟩

section Again

variable (env arguments programs slots memories)

/-- What a deployment that returns leaves. -/
def afterDeployment (s : HilDeployer) : HilDeployer :=
  (deployed env arguments programs (prepared env arguments programs slots s)).emit
    (deploymentRequests env arguments programs memories (prepared env arguments programs slots s))

variable (s) (hw : FpgaBridge)

/-- A deployment leaves the bridge with its requests. -/
theorem afterDeployment_hw : (afterDeployment env arguments programs slots memories s).hw =
    (cleared s.hw).performAll (deploymentRequests env arguments programs memories
      (prepared env arguments programs slots s)) := by
  rw [afterDeployment, emit_hw, deployed_hw]
  rfl

/-- The setting is that of the first deployment. -/
theorem sameSetting_again :
    SameSetting ((afterDeployment env arguments programs slots memories s).behind hw) s := by
  rw [afterDeployment, deployed_eq]
  exact ⟨rfl, rfl, rfl⟩

/-- So are the records. -/
theorem sameRecords_again : SameRecords
    ((afterDeployment env arguments programs slots memories s).behind hw)
    (prepared env arguments programs slots s) :=
  (sameRecords_deployed _ _).behind hw

/-- So are the requests. -/
theorem deploymentRequests_again : deploymentRequests env arguments programs memories
    (prepared env arguments programs slots
      ((afterDeployment env arguments programs slots memories s).behind hw)) =
      deploymentRequests env arguments programs memories
        (prepared env arguments programs slots s) := by
  have hset := sameSetting_again env arguments programs slots memories s hw
  have hivs := (sameRecords_prepared hset
    (sameRecords_again env arguments programs slots memories s hw)).ivs
  exact hset.deploymentRequests fun p _ e _ => congrFun (congrFun hivs e.sourceId) e.sourceName

/-- Only the inputs grow, and the search for the divider goes on. -/
theorem afterDeployment_again : ∃ inputs d, afterDeployment env arguments programs slots memories
    ((afterDeployment env arguments programs slots memories s).behind hw) =
    { afterDeployment env arguments programs slots memories s with
      hw := (cleared hw).performAll (deploymentRequests env arguments programs memories
        (prepared env arguments programs slots s))
      inputs := inputs
      timebaseDivider := d } := by
  have hset := sameSetting_again env arguments programs slots memories s hw
  have hfirst := sameRecords_again env arguments programs slots memories s hw
  have hrequests := deploymentRequests_again env arguments programs slots memories s hw
  set t := (afterDeployment env arguments programs slots memories s).behind hw
  have hrecords : SameRecords (afterDeployment env arguments programs slots memories t) t :=
    (sameRecords_again env arguments programs slots memories t _).trans
      ((sameRecords_prepared hset hfirst).trans hfirst.symm)
  have hlabels : SameInputs
      (afterDeployment env arguments programs slots memories t).toDeployerBase
      (afterDeployment env arguments programs slots memories s).toDeployerBase :=
    hset.deployed.emit _ _
  refine ⟨_, _, HilDeployer.ext ?_ hlabels.addresses hrecords.ivs hlabels.activeRandomInputs
    hlabels.activeWaveforms hlabels.hilClockFrequency hrecords.timebaseFrequency hrecords.busMap
    hlabels.busLabels hlabels.inputsLabels rfl hrecords.deployedHash hrecords.coresIdx
    hrecords.minTimebase hrecords.nChannels hrecords.executionOrder rfl ?_⟩
  · rw [afterDeployment_hw, hrequests]
    rfl
  · rw [afterDeployment, deployed_eq]
    rfl

end Again

/-- The same specification again, on the deployer as the first deployment has left it, behind a
bridge that treats requests as before. -/
theorem deploy_again {u : Unit} (h : (deploy env arguments).run s = .ok u s') {hw : FpgaBridge}
    (hbus : hw.SameBus s'.hw) : ∃ rs d, s'.hw = (cleared s.hw).performAll rs ∧
      (deploy env arguments).run (s'.behind hw) = .ok () { s' with
        hw := (cleared hw).performAll rs
        inputs := s'.inputs ++
          (programmedInputs s'.addresses (env.dispatcher arguments)).map (·.metadata)
        timebaseDivider := d } := by
  obtain ⟨programs, slots, memories, hel, hd, ha, hs'⟩ := deploy_eq_ok.1 h
  have hhw := afterDeployment_hw env arguments programs slots memories s
  have hset := sameSetting_again env arguments programs slots memories s hw
  have hivs := (sameRecords_prepared hset
    (sameRecords_again env arguments programs slots memories s hw)).ivs
  have hrequests := deploymentRequests_again env arguments programs slots memories s hw
  obtain ⟨inputs, d, hagain⟩ := afterDeployment_again env arguments programs slots memories s hw
  obtain rfl : s' = afterDeployment env arguments programs slots memories s := hs'
  set t := (afterDeployment env arguments programs slots memories s).behind hw
  have hready := hd.of_sameSetting hset fun p hp e he => by
    have hrange := (hd.dmaReady p hp e he).2
    rwa [← hivs] at hrange
  have hbus : hw.SameBus s.hw := hbus.trans (by
    rw [hhw]
    exact ⟨rfl, rfl, rfl⟩)
  have hadmits : hw.Admits (deploymentRequests env arguments programs memories
      (prepared env arguments programs slots s)) := by
    rw [FpgaBridge.admits_iff_filter, FpgaBridge.reachesBus_congr hbus.fpgaLoaded]
    exact fun r hr => (hbus.admits r).2 (FpgaBridge.admits_iff_filter.1 ha r hr)
  have hrun : (deploy env arguments).run t =
      .ok () (afterDeployment env arguments programs slots memories t) :=
    deploy_eq_ok.2 ⟨programs, slots, memories, hel, hready, by rwa [hrequests], rfl⟩
  obtain ⟨-, hinputs⟩ := deploy_inputs hrun
  rw [hagain] at hinputs
  have hinputs : inputs = t.inputs ++
    (programmedInputs t.addresses (env.dispatcher arguments)).map (·.metadata) := hinputs
  subst hinputs
  exact ⟨_, d, hhw, hrun.trans (congrArg (EStateM.Result.ok ()) hagain)⟩

/-- Any number of deployments of a specification after one that returned : the hardware, the log
and the labels are those of the first, and the inputs are entered again each time. -/
theorem redeploy {u : Unit} (h : (deploy env arguments).run s = .ok u s') (n : Nat) :
    ∃ d, (forM (List.replicate n arguments) (deploy env)).run s' = .ok () { s' with
      inputs := s'.inputs ++ (List.replicate n
        ((programmedInputs s'.addresses (env.dispatcher arguments)).map (·.metadata))).flatten
      timebaseDivider := d } := by
  induction n generalizing s s' with
  | zero => exact ⟨s'.timebaseDivider, by simp⟩
  | succ n ih =>
    obtain ⟨rs, d, hhw, hagain⟩ := deploy_again h (.refl s'.hw)
    have hsame : (cleared s'.hw).performAll rs = s'.hw := by
      rw [hhw, performAll_cleared_again]
    rw [hsame] at hagain
    obtain ⟨d', hrest⟩ := ih hagain
    refine ⟨d', ?_⟩
    rw [List.replicate_succ, Exec.forM_cons_eq_ok]
    refine ⟨_, hagain, hrest.trans ?_⟩
    simp [List.replicate_succ]

/-- A program with one input, three times. -/
theorem redeploy_oneInput : ∃ v s' d, (deploy oneInput ()).run fresh = .ok v s' ∧
    (forM (List.replicate 2 ()) (deploy oneInput)).run s' = .ok () { s' with
      inputs := s'.inputs ++ (List.replicate 2
        ((programmedInputs s'.addresses (oneInput.dispatcher ())).map (·.metadata))).flatten
      timebaseDivider := d } := by
  obtain ⟨v, s', hrun, -⟩ : ∃ v s', (deploy oneInput ()).run fresh = .ok v s' ∧ True :=
    Exec.exists_of_returnsIn (by decide +kernel)
  obtain ⟨d, hagain⟩ := redeploy hrun 2
  exact ⟨v, s', d, hrun, hagain⟩

/-! ## Live updates in between -/

/-- A live update makes its requests, and leaves the rest of the deployer. -/
theorem settle_live {call : HilCall Spec} (hc : call.Live)
    (h : Exec.settle Failure.Fatal (call.exec env) s = some s') :
    s' = s.emit (call.requests env s) := by
  cases call with
  | setLayoutMap obj => exact hc.elim
  | deploy arguments => exact hc.elim
  | getHardwareSimData specs => exact hc.elim
  | selectOutput channel output => exact HilCall.settle_selectOutput h
  | setInput core name channel value =>
    obtain ⟨u, hok⟩ := (frame_base (DeployerBase.frame_updateInputValue
      DeployerBase.steps_advances env.platform core name channel value fun _ => trivial)
        s).exists_ok h
    exact (setInput_eq_ok.1 hok).2
  | start =>
    obtain ⟨u, hok⟩ := (frame_start DeployerBase.steps_advances env (fun _ => trivial)
      s).exists_ok h
    exact (start_eq_ok.1 hok).2
  | stop =>
    obtain ⟨u, hok⟩ := (frame_stop DeployerBase.steps_advances env (fun _ => trivial)
      s).exists_ok h
    exact (stop_eq_ok.1 hok).2

/-- Live calls write registers only. -/
theorem registerWrites_requests (call : HilCall Spec) (s : HilDeployer) :
    RegisterWrites (call.requests env s) := by
  cases call with
  | setLayoutMap obj => exact .nil
  | deploy arguments => exact .nil
  | getHardwareSimData specs => exact .nil
  | selectOutput channel output =>
    change RegisterWrites (s.selectRequests channel output)
    unfold selectRequests
    split
    · exact .cons trivial .nil
    · exact .nil
  | setInput core name channel value =>
    exact OnlyWrites.flatMap fun i _ => .cons trivial (.cons trivial (.cons trivial .nil))
  | start => exact .cons trivial .nil
  | stop => exact .cons trivial .nil

/-- Live calls are register writes. -/
theorem settle_lives {calls : List (HilCall Spec)} (hc : ∀ call ∈ calls, call.Live)
    (h : Exec.settleAll Failure.Fatal (HilCall.exec env) calls s = some s') :
    ∃ rs, RegisterWrites rs ∧ s' = s.emit rs := by
  induction calls generalizing s with
  | nil =>
    obtain rfl : s = s' := by simpa [Exec.settleAll] using h
    exact ⟨[], .nil, (emit_nil s).symm⟩
  | cons call calls ih =>
    obtain ⟨t, ht, hrest⟩ := Exec.settleAll_cons.1 h
    obtain rfl := settle_live (hc call (by simp)) ht
    obtain ⟨rs, hrs, rfl⟩ := ih (fun c hmem => hc c (by simp [hmem])) hrest
    exact ⟨_, (registerWrites_requests call s).append hrs, emit_emit _ _ _⟩

/-- Whatever live updates follow a deployment, the same specification can be deployed again. The
log and the programs are then those of the first deployment, every register that it wrote has the
value it had after it, and every other register stays where the updates have left it. -/
theorem redeploy_restores {u : Unit} (h : (deploy env arguments).run s = .ok u s')
    {calls : List (HilCall Spec)} (hc : ∀ call ∈ calls, call.Live)
    (hrun : Exec.settleAll Failure.Fatal (HilCall.exec env) calls s' = some t) :
    ∃ t', (deploy env arguments).run t = .ok () t' ∧
      t'.hw.busses.operations = s'.hw.busses.operations ∧
      t'.hw.busses.fCore = s'.hw.busses.fCore ∧
      (∀ k, s'.hw.busses.Wrote k →
        t'.hw.busses.registers k = s'.hw.busses.registers k) ∧
      ∀ k, ¬s'.hw.busses.Wrote k →
        t'.hw.busses.registers k = t.hw.busses.registers k := by
  obtain ⟨rs, hrs, rfl⟩ := settle_lives hc hrun
  have hbus : (s'.hw.performAll rs).SameBus s'.hw := ⟨rfl, rfl, rfl⟩
  obtain ⟨qs, d, hhw, hagain⟩ := deploy_again h hbus
  refine ⟨_, hagain, ?_⟩
  rw [emit_hw, hhw]
  exact BusAccessor.performAll_restores (b := (cleared s.hw).busses) rfl
    (fun r hr => hrs.access r (List.mem_of_mem_filter hr)) _ rfl

/-- A start and an update of the constant. -/
def startAndUpdate : List (HilCall Unit) :=
  [.start, .setInput "core" "k" 0 7]

/-- A start and an update in between. -/
theorem redeploy_restores_oneInput : ∃ v s' t t', (deploy oneInput ()).run fresh = .ok v s' ∧
    Exec.settleAll Failure.Fatal (HilCall.exec oneInput) startAndUpdate s' = some t ∧
    (deploy oneInput ()).run t = .ok () t' ∧
    ∀ k, s'.hw.busses.Wrote k → t'.hw.busses.registers k = s'.hw.busses.registers k := by
  obtain ⟨v, s', hrun, hupdates⟩ : ∃ v s', (deploy oneInput ()).run fresh = .ok v s' ∧
      (Exec.settleAll Failure.Fatal (HilCall.exec oneInput) startAndUpdate s').isSome = true :=
    Exec.exists_of_returnsIn (by decide +kernel)
  obtain ⟨t, ht⟩ := Option.isSome_iff_exists.1 hupdates
  obtain ⟨t', hagain, -, -, hwrote, -⟩ := redeploy_restores hrun
    (by simp [startAndUpdate, HilCall.Live]) ht
  exact ⟨v, s', t, t', hrun, ht, hagain, hwrote⟩

end HilDeployer

end UscopeDriver
