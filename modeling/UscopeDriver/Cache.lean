import UscopeDriver.History
import UscopeDriver.Calls

/-!
# The simulation data of a deployed specification

When the hash of the last deployment is that of the specification, `get_hardware_sim_data` prints
the log and the labels as they are. They are still those of a fresh deployer when that deployment
returned, found no earlier initial value, the layout is the same, and the log has grown by one
start at most (`Reusable`, `sim_data_transparent`).
-/

namespace UscopeDriver

namespace HilCall

variable {Spec : Type} (env : Environment Spec)

/-- The call that starts the logic. -/
def isStart : HilCall Spec → Bool
  | start => true
  | _ => false

/-- The call logs nothing, or is a start with the control register at `hilControl`. -/
def Quiet (hilControl : Nat) (call : HilCall Spec) (s : HilDeployer) : Prop :=
  s.hw.logged (call.requests env s) = [] ∨
    call.isStart = true ∧ s.addresses.bases.hilControl = hilControl

end HilCall

namespace HilDeployer

variable {Spec : Type} {env : Environment Spec}

/-! ## Histories -/

/-- What no call changes. -/
structure SameObject (s s' : HilDeployer) : Prop where
  hilClockFrequency : s'.hilClockFrequency = s.hilClockFrequency
  fullCoresOverride : s'.fullCoresOverride = s.fullCoresOverride
  fpgaLoaded : s'.hw.fpgaLoaded = s.hw.fpgaLoaded

theorem SameObject.trans {s t u : HilDeployer} (h : SameObject s t) (h' : SameObject t u) :
    SameObject s u :=
  ⟨h'.hilClockFrequency.trans h.hilClockFrequency,
    h'.fullCoresOverride.trans h.fullCoresOverride, h'.fpgaLoaded.trans h.fpgaLoaded⟩

/-- A call that only moves the bus leaves the object as it was made. -/
theorem sameObject_direct {call : HilCall Spec} (hc : call.Direct) {s s' : HilDeployer}
    (h : Exec.settle Failure.Fatal (call.exec env) s = some s') :
    SameObject s s' ∧ s'.deployedHash = s.deployedHash := by
  obtain ⟨l, rfl⟩ := HilCall.settle_direct hc h
  exact ⟨⟨rfl, rfl, rfl⟩, rfl⟩

/-- So does a deployment, which stores the hash before it can throw. -/
theorem sameObject_deploy {arguments : Spec} {s s' : HilDeployer}
    (h : Exec.settle Failure.Fatal (deploy env arguments) s = some s') :
    SameObject s s' ∧ s'.deployedHash = env.hash arguments ∧ s'.addresses = s.addresses := by
  have hkeeps := (frameAt_deploy env arguments s).of_settle h
  exact ⟨⟨hkeeps.hilClockFrequency, hkeeps.fullCoresOverride, hkeeps.fpgaLoaded⟩,
    hkeeps.deployedHash, hkeeps.addresses⟩

/-- A history ends as `s` : with the hash it started with, or with calls `after` its last
deployment. -/
inductive EndsIn (env : Environment Spec) (start : HilDeployer) :
    List (HilCall Spec) → HilDeployer → Prop where
  | undeployed {history : List (HilCall Spec)} {s : HilDeployer}
      (hash : s.deployedHash = start.deployedHash) : EndsIn env start history s
  | deployed {before after : List (HilCall Spec)} {specs : Spec} {t t' s : HilDeployer}
      (hbefore : Exec.settleAll Failure.Fatal (HilCall.exec env) before start = some t)
      (hdeploy : Exec.settle Failure.Fatal (deploy env specs) t = some t')
      (hafter : Exec.settleAll Failure.Fatal (HilCall.exec env) after t' = some s)
      (direct : ∀ call ∈ after, call.Direct) (hash : s.deployedHash = env.hash specs) :
      EndsIn env start (before ++ .deploy specs :: after) s

theorem settleAll_singleton {call : HilCall Spec} {s s' : HilDeployer} :
    Exec.settleAll Failure.Fatal (HilCall.exec env) [call] s = some s' ↔
      Exec.settle Failure.Fatal (call.exec env) s = some s' := by
  rw [Exec.settleAll_cons]
  constructor
  · rintro ⟨t, ht, h⟩
    obtain rfl : t = s' := by simpa [Exec.settleAll] using h
    exact ht
  · exact fun h => ⟨s', h, rfl⟩

/-- A history without `get_hardware_sim_data` keeps the object, and the stored hash is that of its
last deployment. -/
theorem endsIn_of_settleAll {start : HilDeployer} {history : List (HilCall Spec)}
    (hhistory : ∀ call ∈ history, ∀ specs, call ≠ .getHardwareSimData specs) {s : HilDeployer}
    (h : Exec.settleAll Failure.Fatal (HilCall.exec env) history start = some s) :
    SameObject start s ∧ EndsIn env start history s := by
  induction history using List.reverseRecOn generalizing s with
  | nil =>
    obtain rfl : start = s := by simpa [Exec.settleAll] using h
    exact ⟨⟨rfl, rfl, rfl⟩, .undeployed rfl⟩
  | append_singleton history call ih =>
    obtain ⟨t, ht, hcall⟩ := Exec.settleAll_append.1 h
    rw [settleAll_singleton] at hcall
    obtain ⟨hsame, hends⟩ := ih (fun c hc => hhistory c (by simp [hc])) ht
    have direct : call.Direct → SameObject start s ∧ EndsIn env start (history ++ [call]) s := by
      intro hd
      obtain ⟨hobject, hhash⟩ := sameObject_direct hd hcall
      refine ⟨hsame.trans hobject, ?_⟩
      cases hends with
      | undeployed hash => exact .undeployed (hhash.trans hash)
      | deployed hbefore hdeploy hafter hdirect hash =>
        rw [List.append_assoc, List.cons_append]
        refine .deployed hbefore hdeploy
          (Exec.settleAll_append.2 ⟨t, hafter, settleAll_singleton.2 hcall⟩) ?_ (hhash.trans hash)
        simpa [or_imp, forall_and] using ⟨hdirect, hd⟩
    cases call with
    | deploy specs =>
      obtain ⟨hobject, hhash, -⟩ := sameObject_deploy hcall
      exact ⟨hsame.trans hobject, .deployed ht hcall rfl (by simp) hhash⟩
    | getHardwareSimData specs => exact absurd rfl (hhistory _ (by simp) specs)
    | setLayoutMap obj => exact direct trivial
    | selectOutput channel output => exact direct trivial
    | setInput core name channel value => exact direct trivial
    | start => exact direct trivial
    | stop => exact direct trivial

/-- Quiet calls add starts to the log, and leave the labels. -/
theorem operations_of_quiet {hilControl : Nat} {after : List (HilCall Spec)}
    (hdirect : ∀ call ∈ after, call.Direct) {t s : HilDeployer}
    (h : Exec.settleAll Failure.Fatal (HilCall.exec env) after t = some s)
    (hquiet : Exec.Along Failure.Fatal (HilCall.exec env) (HilCall.Quiet env hilControl) after t) :
    s.busLabels = t.busLabels ∧ s.inputsLabels = t.inputsLabels ∧
      ∃ n ≤ after.countP HilCall.isStart, s.hw.busses.operations = t.hw.busses.operations ++
        (List.replicate n (t.hw.logged [regWrite hilControl 1])).flatten := by
  induction after generalizing t with
  | nil =>
    obtain rfl : t = s := by simpa [Exec.settleAll] using h
    exact ⟨rfl, rfl, 0, le_refl _, by simp⟩
  | cons call after ih =>
    obtain ⟨t', ht, hrest⟩ := Exec.settleAll_cons.1 h
    obtain ⟨hbus, hinputs, n, hn, hops⟩ :=
      ih (fun c hc => hdirect c (by simp [hc])) hrest (hquiet.2 t' ht)
    obtain ⟨l, rfl⟩ := HilCall.settle_direct (hdirect call (by simp)) ht
    have hone : (withAddresses l (t.emit (call.requests env t))).hw.busses.operations =
        t.hw.busses.operations ++ t.hw.logged (call.requests env t) := rfl
    have hlogged : (withAddresses l (t.emit (call.requests env t))).hw.logged
        [regWrite hilControl 1] = t.hw.logged [regWrite hilControl 1] := rfl
    rw [hone, hlogged] at hops
    refine ⟨hbus, hinputs, ?_⟩
    rcases hquiet.1 with hnothing | ⟨hstart, hcontrol⟩
    · rw [hnothing, List.append_nil] at hops
      exact ⟨n, hn.trans (List.sublist_cons_self ..).countP_le, hops⟩
    · have hrequests : call.requests env t = [regWrite hilControl 1] := by
        cases call <;> simp_all [HilCall.isStart, HilCall.requests, controlRequest]
      refine ⟨n + 1, ?_, ?_⟩
      · rw [List.countP_cons_of_pos hstart]
        omega
      · rw [hops, hrequests, List.replicate_succ, List.flatten_cons, List.append_assoc]

/-! ## The texts -/

/-- The control line of a start, none before a bitstream is loaded. -/
def startLine (addresses : LogicLayout) (fpgaLoaded : Bool) : String :=
  if fpgaLoaded then BusAccessor.simulationLine (u64 addresses.bases.hilControl) 1 else ""

/-- The data are the same, but for the start line at the end of the control text. -/
structure SameData (line : String) (d d' : HardwareSimData) : Prop where
  code : d.code = d'.code
  outputs : d.outputs = d'.outputs
  inputs : d.inputs = d'.inputs
  control : ∃ body, d'.control = body ++ line ∧ (d.control = body ∨ d.control = body ++ line)

/-- A start leaves one line, and only behind a bitstream. -/
theorem logged_start (hw : FpgaBridge) (addresses : LogicLayout) :
    (hw.logged [regWrite addresses.bases.hilControl 1]).flatMap BusAccessor.romPlaneLines = [] ∧
      String.join ((hw.logged [regWrite addresses.bases.hilControl 1]).flatMap
        BusAccessor.controlPlaneLines) = startLine addresses hw.fpgaLoaded := by
  cases hl : hw.fpgaLoaded with
  | true =>
    rw [FpgaBridge.logged_of_loaded hl]
    exact ⟨rfl, by simp [Request.op, regWrite, BusAccessor.controlPlaneLines, startLine, u32]⟩
  | false =>
    have hnone : hw.logged [regWrite addresses.bases.hilControl 1] = [] := by
      simp [FpgaBridge.logged, regWrite, FpgaBridge.reachesBus, hl]
    rw [hnone]
    exact ⟨rfl, rfl⟩

/-- The data of a log, with or without a start at its end, against those of the log with one. -/
theorem sameData_of_operations {s s' : HilDeployer} {operations : List BusOp} {hw : FpgaBridge}
    {addresses : LogicLayout}
    (hs : s.hw.busses.operations = operations ∨ s.hw.busses.operations =
      operations ++ hw.logged [regWrite addresses.bases.hilControl 1])
    (hs' : s'.hw.busses.operations = operations ++
      hw.logged [regWrite addresses.bases.hilControl 1])
    (hbus : s.busLabels = s'.busLabels) (hinputs : s.inputsLabels = s'.inputsLabels) :
    SameData (startLine addresses hw.fpgaLoaded) s.simData s'.simData := by
  obtain ⟨hcode, hcontrol⟩ := logged_start hw addresses
  refine ⟨?_, by simp only [simData, hbus], by simp only [simData, hinputs],
    String.join (operations.flatMap BusAccessor.controlPlaneLines), ?_, ?_⟩
  · simp only [simData, BusAccessor.getHardwareSimulationData, hs', List.flatMap_append, hcode,
      List.append_nil]
    rcases hs with hs | hs
    · rw [hs]
    · rw [hs, List.flatMap_append, hcode, List.append_nil]
  · simp only [simData, BusAccessor.getHardwareSimulationData, hs', List.flatMap_append,
      String.join_append, hcontrol]
  · simp only [simData, BusAccessor.getHardwareSimulationData]
    rcases hs with hs | hs
    · exact Or.inl (by rw [hs])
    · exact Or.inr (by rw [hs, List.flatMap_append, String.join_append, hcontrol])

/-! ## The two paths -/

/-- The deployer finds no initial value of an earlier deployment for what a specification
deploys. -/
def FindsNone (dispatcher : EmulatorDispatcher) (s : HilDeployer) : Prop :=
  ∀ programs slots, dispatcher.getPrograms = .ok programs →
    dispatcher.getInterconnectSlots = .ok slots →
      FindsNoValue s.ivs programs slots s.hw.fpgaLoaded

/-- The data of a fresh deployer. -/
theorem exists_fresh_data {specs : Spec} (hzero : env.hash specs ≠ 0) {hw : FpgaBridge}
    {addresses : LogicLayout} {clock : {f : ℚ // 0 < f}} {s : HilDeployer}
    (hset : SameSetting s (construct hw addresses clock))
    (hloaded : s.hw.fpgaLoaded = hw.fpgaLoaded) {u : Unit} {s' : HilDeployer}
    (hrun : (deploy env specs).run s = .ok u s') (hfind : FindsNone (env.dispatcher specs) s) :
    ∃ d' t', (getHardwareSimData env specs).run (construct hw addresses clock) = .ok d' t' ∧
      d' = t'.simData ∧ s'.busLabels = t'.busLabels ∧ s'.inputsLabels = t'.inputsLabels ∧
        t'.hw.busses.operations = s'.hw.busses.operations ++
          hw.logged [regWrite addresses.bases.hilControl 1] := by
  obtain ⟨t, ht, hops, hsame⟩ := deploy_fresh_of_findsNoValue
    (t := (construct hw addresses clock).muted) ⟨hset.addresses, hset.hilClockFrequency,
      hset.fullCoresOverride⟩ hloaded rfl rfl hrun hfind
  have hkeeps := (frameAt_deploy env specs (construct hw addresses clock).muted).of_ok ht
  have haddresses : t.addresses = addresses := hkeeps.addresses
  have hloaded' : t.hw.fpgaLoaded = hw.fpgaLoaded := hkeeps.fpgaLoaded
  have hhash : (construct hw addresses clock).deployedHash ≠ env.hash specs := Ne.symm hzero
  refine ⟨_, (t.emit [t.controlRequest 1]).unmuted, ?_, rfl, hsame.busLabels,
    hsame.inputsLabels, ?_⟩
  · rw [run_getHardwareSimData, if_neg hhash, ht]
  · have hstart : (t.emit [t.controlRequest 1]).unmuted.hw.busses.operations =
        t.hw.busses.operations ++ t.hw.logged [t.controlRequest 1] := rfl
    rw [hstart, hops, controlRequest, haddresses, FpgaBridge.logged, FpgaBridge.logged,
      FpgaBridge.reachesBus_congr hloaded']

/-- What was deployed with calls `after` from `t` to `s` on is good for another print. -/
structure Reusable (env : Environment Spec) (specs : Spec) (after : List (HilCall Spec))
    (t s : HilDeployer) : Prop where
  accepts : Accepts (env.dispatcher specs)
  findsNone : FindsNone (env.dispatcher specs) t
  addresses : s.addresses = t.addresses
  quiet : ∀ t', Exec.settle Failure.Fatal (deploy env specs) t = some t' →
    Exec.Along Failure.Fatal (HilCall.exec env)
      (HilCall.Quiet env t.addresses.bases.hilControl) after t'
  starts : after.countP HilCall.isStart ≤ 1

/-- The data of `specs` after a history on a deployer are those of a fresh one : where the
specification is deployed nothing is found, and where it was the last deployment it can be
reused. -/
structure Transparent (env : Environment Spec) (start : HilDeployer)
    (history : List (HilCall Spec)) (s : HilDeployer) (specs : Spec) : Prop where
  deploys : s.deployedHash ≠ env.hash specs → FindsNone (env.dispatcher specs) s
  reuses : ∀ before after t, history = before ++ .deploy specs :: after →
    (∀ call ∈ after, call.Direct) →
    Exec.settleAll Failure.Fatal (HilCall.exec env) before start = some t →
      Reusable env specs after t s

/-- What was deployed on a deployer that found nothing, and was started, can be reused. -/
theorem transparent_of_start {start s : HilDeployer} {specs : Spec}
    (h : Exec.settleAll Failure.Fatal (HilCall.exec env) [.deploy specs, .start] start = some s)
    (haccepts : Accepts (env.dispatcher specs)) (hfind : FindsNone (env.dispatcher specs) start) :
    Transparent env start [.deploy specs, .start] s specs := by
  obtain ⟨t, ht, hstart⟩ := Exec.settleAll_cons.1 h
  obtain ⟨-, hhash, haddresses⟩ := sameObject_deploy ht
  obtain ⟨u, hok⟩ := (frame_start DeployerBase.steps_advances env (fun _ => trivial)
    t).exists_ok (settleAll_singleton.1 hstart)
  obtain rfl := (start_eq_ok.1 hok).2
  refine ⟨fun hne => absurd hhash hne, fun before after t₀ hsplit hdirect hbefore => ?_⟩
  cases before with
  | nil =>
    obtain rfl : [HilCall.start] = after := by simpa using hsplit
    obtain rfl : start = t₀ := by simpa [Exec.settleAll] using hbefore
    refine ⟨haccepts, hfind, haddresses, fun t' ht' => ⟨Or.inr ⟨rfl, ?_⟩, fun _ _ => trivial⟩,
      le_refl _⟩
    rw [(sameObject_deploy ht').2.2]
  | cons call before =>
    simp [List.cons_eq_append_iff] at hsplit

/-- The data for a specification after a history, if there are any. -/
def dataAfter (env : Environment Spec) (history : List (HilCall Spec)) (specs : Spec)
    (start : HilDeployer) : Option HardwareSimData :=
  (Exec.settleAll Failure.Fatal (HilCall.exec env) history start).bind fun s =>
    match (getHardwareSimData env specs).run s with
    | .ok d _ => some d
    | .error _ _ => none

/-- The data of the last deployment, as long as it can be reused. -/
theorem sim_data_reused {env : Environment Spec} (hzero : ∀ specs, env.hash specs ≠ 0)
    {hw : FpgaBridge} {addresses : LogicLayout} {clock : {f : ℚ // 0 < f}}
    {before after : List (HilCall Spec)}
    (hbefore : ∀ call ∈ before, ∀ specs, call ≠ .getHardwareSimData specs) {t t' s : HilDeployer}
    (hrun : Exec.settleAll Failure.Fatal (HilCall.exec env) before
      (construct hw addresses clock) = some t) {specs : Spec}
    (hdeploy : Exec.settle Failure.Fatal (deploy env specs) t = some t')
    (hafter : Exec.settleAll Failure.Fatal (HilCall.exec env) after t' = some s)
    (direct : ∀ call ∈ after, call.Direct) (hreusable : Reusable env specs after t s)
    {hw' : FpgaBridge} (hloaded : hw'.fpgaLoaded = hw.fpgaLoaded) :
    ∃ d' f, (getHardwareSimData env specs).run (construct hw' s.addresses clock) = .ok d' f ∧
      SameData (startLine s.addresses hw'.fpgaLoaded) s.simData d' := by
  obtain ⟨haccepts, hfind, haddresses, hquiet, hstarts⟩ := hreusable
  obtain ⟨hsame, -⟩ := endsIn_of_settleAll hbefore hrun
  obtain ⟨u, hdeployed⟩ : ∃ u, (deploy env specs).run t = .ok u t' := by
    rcases Exec.settle_eq_some.1 hdeploy with hok | ⟨e, he, herror⟩
    · exact hok
    · exact absurd haccepts ((frameAt_deploy env specs t).of_error herror he).1
  have hset : SameSetting t (construct hw' s.addresses clock) :=
    ⟨haddresses.symm, hsame.hilClockFrequency, hsame.fullCoresOverride⟩
  obtain ⟨d', f, hf, rfl, hbus, hinputs, hops⟩ := exists_fresh_data (hzero specs) hset
    (hsame.fpgaLoaded.trans hloaded.symm) hdeployed hfind
  obtain ⟨hbus', hinputs', n, hn, hops'⟩ := operations_of_quiet direct hafter (hquiet t' hdeploy)
  have hlogged : t'.hw.logged = hw'.logged := by
    have hloaded' : t'.hw.fpgaLoaded = hw'.fpgaLoaded :=
      ((sameObject_deploy hdeploy).1.fpgaLoaded.trans hsame.fpgaLoaded).trans hloaded.symm
    funext rs
    rw [FpgaBridge.logged, FpgaBridge.logged, FpgaBridge.reachesBus_congr hloaded']
  refine ⟨_, f, hf, sameData_of_operations ?_ hops (hbus'.trans hbus) (hinputs'.trans hinputs)⟩
  rw [hops', hlogged, haddresses]
  rcases Nat.le_one_iff_eq_zero_or_eq_one.1 (hn.trans hstarts) with rfl | rfl
  · exact Or.inl (by simp)
  · exact Or.inr (by simp)

/-- The data of a deployment on the muted bus, where it finds no stale value. -/
theorem sim_data_deployed {env : Environment Spec} (hzero : ∀ specs, env.hash specs ≠ 0)
    {hw hw' : FpgaBridge} {addresses : LogicLayout} {clock : {f : ℚ // 0 < f}} {s t : HilDeployer}
    (hsame : SameObject (construct hw addresses clock) s)
    (hloaded : hw'.fpgaLoaded = hw.fpgaLoaded) {specs : Spec} {u : Unit}
    (hd : (deploy env specs).run s.muted = .ok u t) (hfind : FindsNone (env.dispatcher specs) s) :
    ∃ d' f, (getHardwareSimData env specs).run (construct hw' s.addresses clock) = .ok d' f ∧
      SameData (startLine s.addresses hw'.fpgaLoaded)
        (t.emit [t.controlRequest 1]).unmuted.simData d' := by
  have hset : SameSetting s.muted (construct hw' s.addresses clock) :=
    ⟨rfl, hsame.hilClockFrequency, hsame.fullCoresOverride⟩
  have hkeeps := (frameAt_deploy env specs s.muted).of_ok hd
  have hloaded' : t.hw.fpgaLoaded = hw'.fpgaLoaded :=
    (hkeeps.fpgaLoaded.trans hsame.fpgaLoaded).trans hloaded.symm
  have haddresses : t.addresses = s.addresses := hkeeps.addresses
  obtain ⟨d', f, hf, rfl, hbus, hinputs, hops⟩ := exists_fresh_data (hzero specs) hset
    (hsame.fpgaLoaded.trans hloaded.symm) hd hfind
  refine ⟨_, f, hf, sameData_of_operations (Or.inr ?_) hops hbus hinputs⟩
  have hstart : (t.emit [t.controlRequest 1]).unmuted.hw.busses.operations =
      t.hw.busses.operations ++ t.hw.logged [t.controlRequest 1] := rfl
  rw [hstart, controlRequest, haddresses, FpgaBridge.logged, FpgaBridge.logged,
    FpgaBridge.reachesBus_congr hloaded']

/-- After a history of calls, the data of a specification are those that a fresh deployer on the
current layout prints, but for the start line, when the history left no stale value where it is
deployed and, where it was deployed last, nothing but a start since. -/
theorem sim_data_transparent {env : Environment Spec} (hinj : Function.Injective env.hash)
    (hzero : ∀ specs, env.hash specs ≠ 0) {hw : FpgaBridge} {addresses : LogicLayout}
    {clock : {f : ℚ // 0 < f}} {history : List (HilCall Spec)}
    (hhistory : ∀ call ∈ history, ∀ specs, call ≠ .getHardwareSimData specs) {s : HilDeployer}
    (hrun : Exec.settleAll Failure.Fatal (HilCall.exec env) history
      (construct hw addresses clock) = some s)
    {specs : Spec} {d : HardwareSimData} {s' : HilDeployer}
    (hdata : (getHardwareSimData env specs).run s = .ok d s')
    (htransparent : Transparent env (construct hw addresses clock) history s specs)
    {hw' : FpgaBridge} (hloaded : hw'.fpgaLoaded = hw.fpgaLoaded) :
    ∃ d' t', (getHardwareSimData env specs).run (construct hw' s.addresses clock) = .ok d' t' ∧
      SameData (startLine s.addresses hw'.fpgaLoaded) d d' := by
  obtain ⟨hsame, hends⟩ := endsIn_of_settleAll hhistory hrun
  rw [run_getHardwareSimData] at hdata
  by_cases hhash : s.deployedHash = env.hash specs
  · rw [if_pos hhash] at hdata
    obtain ⟨rfl, rfl⟩ : s.simData = d ∧ s = s' := by simpa using hdata
    cases hends with
    | undeployed hash => exact absurd (hhash.symm.trans hash) (hzero specs)
    | @deployed before after specs' t t' _ hbefore hdeploy hafter direct hash =>
      obtain rfl := hinj (hash.symm.trans hhash)
      exact sim_data_reused hzero (fun c hc => hhistory c (List.mem_append_left _ hc)) hbefore
        hdeploy hafter direct (htransparent.reuses before after t rfl direct hbefore) hloaded
  · rw [if_neg hhash] at hdata
    cases hd : (deploy env specs).run s.muted with
    | error e t => simp [hd] at hdata
    | ok u t =>
      obtain ⟨rfl, -⟩ : (t.emit [t.controlRequest 1]).unmuted.simData = d ∧ _ = s' := by
        simpa [hd] using hdata
      exact sim_data_deployed hzero hsame hloaded hd (htransparent.deploys hhash)

/-- A start before the simulation is a line more in its control data. -/
theorem sim_data_after_start : ∃ s d s' d' t',
    Exec.settleAll Failure.Fatal (HilCall.exec (cores 1)) [.deploy (), .start] fresh = some s ∧
      (getHardwareSimData (cores 1) ()).run s = .ok d s' ∧
      (getHardwareSimData (cores 1) ()).run
          (construct fresh.hw s.addresses fresh.hilClockFrequency) =
        .ok d' t' ∧ SameData (startLine s.addresses fresh.hw.fpgaLoaded) d d' := by
  obtain ⟨s, hs⟩ : ∃ s, Exec.settleAll Failure.Fatal (HilCall.exec (cores 1))
      [.deploy (), .start] fresh = some s := Option.isSome_iff_exists.1 (by decide +kernel)
  obtain ⟨u, t, hdeploy, -⟩ : ∃ u t, (deploy (cores 1) ()).run fresh = .ok u t ∧ True :=
    Exec.exists_of_returnsIn (by decide +kernel)
  have htransparent := transparent_of_start hs (accepts_of_deploy hdeploy)
    fun _ _ _ _ => findsNoValue_none _
  obtain ⟨t', ht', hstart⟩ := Exec.settleAll_cons.1 hs
  have hhash : s.deployedHash = (cores 1).hash () :=
    (@sameObject_direct _ _ .start trivial _ _ (settleAll_singleton.1 hstart)).2.trans
      (sameObject_deploy ht').2.1
  have hdata : (getHardwareSimData (cores 1) ()).run s = .ok s.simData s := by
    rw [run_getHardwareSimData, if_pos hhash]
  obtain ⟨d', t', hfresh, hsame⟩ :=
    sim_data_transparent (fun _ _ _ => rfl) (fun _ => Nat.one_ne_zero)
    (by simp) hs hdata htransparent rfl
  exact ⟨s, s.simData, s, d', t', hs, hdata, hfresh, hsame⟩

/-- After a deployment that threw there are data, on a fresh deployer there are none. -/
theorem sim_data_of_aborted :
    (dataAfter (cores 33) [.deploy ()] () fresh).isSome ∧
      (dataAfter (cores 33) [] () fresh).isNone := by
  decide +kernel

end HilDeployer

end UscopeDriver
