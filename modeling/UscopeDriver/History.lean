import UscopeDriver.Frames
import UscopeDriver.Independence
import UscopeDriver.InterconnectValues

/-!
# A deployment after earlier ones

What the deployments before it leave for a deployment to find are the initial values under the
sources that it gives none to (`historyIvs`). The recorded operations are those of a fresh
deployer just when no such value is found for a deployed source (`deploy_history_iff`).
-/

namespace UscopeDriver

open Exec (Frame FrameAt)

namespace HilDeployer

open LastWrite

variable {Spec : Type}

/-! ## The initial values after a deployment -/

/-- The initial values after a deployment, also one that throws : the stage that stores them comes
after all that the toolchain says about programs and slots. -/
def ivsAfter (dispatcher : EmulatorDispatcher) (ivs : String → String → Option (List Nat)) :
    String → String → Option (List Nat) :=
  match dispatcher.setSpecs, dispatcher.getPrograms, dispatcher.getInterconnectSlots with
  | .ok _, .ok programs, .ok slots =>
    if programs.length ≤ 32 then mergedIvs ivs slots programs else ivs
  | _, _, _ => ivs

/-- A specification that is refused for its size leaves the initial values. -/
theorem ivsAfter_of_ok {dispatcher : EmulatorDispatcher} {programs : List DeployedProgram}
    {slots : List DeployerInterconnectSlot} {u : Unit} (hspecs : dispatcher.setSpecs = .ok u)
    (hprograms : dispatcher.getPrograms = .ok programs)
    (hslots : dispatcher.getInterconnectSlots = .ok slots)
    (ivs : String → String → Option (List Nat)) : ivsAfter dispatcher ivs =
      if programs.length ≤ 32 then mergedIvs ivs slots programs else ivs := by
  rw [ivsAfter, hspecs, hprograms, hslots]

/-- What the toolchain throws ends a deployment where it is. -/
theorem frameAt_callDispatcher_bind {σ α β : Type} {x : Except String α}
    {f : α → Exec Failure σ β} {R : σ → σ → Prop} {s : σ}
    (herror : ∀ what, x = .error what → R s s)
    (hok : ∀ a, x = .ok a → FrameAt Failure.Fatal True (fun _ => R s) (f a) s) :
    FrameAt Failure.Fatal True R (callDispatcher x >>= f) s := by
  cases x with
  | error what => exact Or.inr ⟨trivial, herror what rfl⟩
  | ok a => exact FrameAt.bind_of_eq_ok rfl (hok a rfl)

/-- The stages that write registers leave the initial values as they are. -/
theorem frame_writeRegisters_ivs (env : Environment Spec) (arguments : Spec)
    (programs : List DeployedProgram) (dividers shifts : List Nat) :
    Frame Failure.Fatal True (Over DeployerBase.Advances) (do
      forM programs (setupProgramDma env.platform)
      let memories ← callDispatcher (env.dispatcher arguments).getMemoryInitializations
      forM programs (setupProgramMemories env.platform memories)
      setupInputs env.platform (env.dispatcher arguments) programs
      setupSequencer env.platform programs.length dividers shifts
      setupCores env.platform programs) := by
  have steps {E : Prop} := @DeployerBase.steps_advances E
  rw [setupSequencer_eq, bind_assoc]
  exact (Exec.frame_forM fun p _ _ => frameAt_setupProgramDma steps _ p
      (fun _ _ _ => trivial) fun _ _ => trivial).bind fun _ =>
    (frame_callDispatcher fun _ => trivial).bind fun memories =>
    (Exec.frame_forM fun p _ _ => frameAt_setupProgramMemories steps _ memories p
      fun _ _ _ _ => trivial).bind fun _ =>
    Exec.Frame.bind (fun _ => frameAt_setupInputs steps _ (fun _ _ _ => trivial)
      (fun _ _ _ _ _ => trivial) (fun _ _ _ _ _ _ => trivial) (fun _ => trivial)
      le_rfl) fun _ =>
    Exec.Frame.bind (fun _ => frameAt_setupTimebase steps _ _ _ fun _ _ => trivial) fun _ =>
    Exec.Frame.bind ((Exec.frame_gets _).bind fun _ =>
      frame_writeRegister steps _ _ trivial) fun _ => fun _ =>
      frameAt_setupCores steps _ fun _ _ => trivial

/-- However a deployment ends, it merges the values of its specification or keeps the earlier
ones. -/
theorem frameAt_deploy_ivs (env : Environment Spec) (arguments : Spec) (s : HilDeployer) :
    FrameAt Failure.Fatal True
      (fun s s' => s'.ivs = ivsAfter (env.dispatcher arguments) s.ivs)
      (deploy env arguments) s := by
  refine FrameAt.bind_of_eq_ok rfl (FrameAt.bind_of_eq_ok rfl ?_)
  refine frameAt_callDispatcher_bind (fun what h => by simp [ivsAfter, h]) fun _ hspecs => ?_
  refine frameAt_callDispatcher_bind (fun what h => by simp [ivsAfter, h]) fun programs hprograms =>
    FrameAt.bind_of_eq_ok rfl ?_
  refine frameAt_callDispatcher_bind (fun what h => by simp [ivsAfter, h]) fun slots hslots =>
    FrameAt.bind_of_eq_ok rfl ?_
  rw [ivsAfter_of_ok hspecs hprograms hslots]
  by_cases hlen : programs.length ≤ 32
  · rw [if_pos hlen]
    refine FrameAt.bind_of_eq_ok (a := ()) (Exec.throwIf_eq_ok.2 ⟨not_lt.2 hlen, rfl⟩) ?_
    -- up to the stage that stores the values there is nothing that throws
    have steps {E : Prop} := @DeployerBase.steps_advances E
    refine FrameAt.bind_of_fatal (R := Over DeployerBase.Advances)
      (Exec.frame_forM (fun p _ => frame_setupProgram steps env.isa p) _) fun _ s₁ _ m₁ => ?_
    refine FrameAt.bind_of_fatal (R := Over DeployerBase.Advances)
      (frame_accumulateLcm steps _ _ s₁) fun t s₂ _ m₂ => ?_
    refine FrameAt.bind_of_fatal (R := Over DeployerBase.Advances) ((frame_record steps) s₂)
      fun _ s₃ _ m₃ => ?_
    refine FrameAt.bind_of_fatal (R := Over DeployerBase.Advances)
      (frame_calculateTimebaseDivider steps _ (fun hno => hno _ hprograms) s₃)
      fun dividers s₄ _ m₄ => ?_
    refine FrameAt.bind_of_fatal (R := Over DeployerBase.Advances)
      (frame_calculateTimebaseShift steps _ (fun hno => hno _ hprograms) s₄)
      fun shifts s₅ _ m₅ => ?_
    refine FrameAt.bind_of_fatal (R := Over KeepsBase)
      (frame_setupInterconnectIv steps_keepsBase
        (fun _ _ => keepsBase_of_hw rfl rfl rfl)
        (fun hno => hno _ hslots) programs s₅) fun _ s₆ h₆ _ => ?_
    have hivs : s₆.ivs = mergedIvs s.ivs slots programs := by
      obtain ⟨-, rfl⟩ := (setupInterconnectIv_eq_ok hslots).1 h₆
      rw [recordIvs, m₅.base.ivs, m₄.base.ivs, m₃.base.ivs, m₂.base.ivs, m₁.base.ivs]
    exact FrameAt.mono (frame_writeRegisters_ivs env arguments programs dividers shifts s₆) id
      fun s' h => h.base.ivs.trans hivs
  · rw [if_neg hlen, Exec.throwIf, Exec.when, if_pos (not_le.1 hlen)]
    exact Or.inr ⟨trivial, rfl⟩

/-- The initial values after the deployments of a history on a fresh deployer. -/
def historyIvs (env : Environment Spec) (history : List Spec) :
    String → String → Option (List Nat) :=
  history.foldl (fun ivs arguments => ivsAfter (env.dispatcher arguments) ivs) fun _ _ => none

/-- The reset keeps the setting. -/
theorem reset_sameSetting (hash : Nat) (s : HilDeployer) : SameSetting (reset hash s) s :=
  ⟨rfl, rfl, rfl⟩

/-- So does a deployment. -/
theorem Keeps.sameSetting {s s' : HilDeployer} (h : Keeps s s') : SameSetting s' s :=
  ⟨h.addresses, h.hilClockFrequency, h.fullCoresOverride⟩

/-- A history leaves the setting and the bus alone, and the initial values of `historyIvs`. -/
theorem settle_history {env : Environment Spec} {history : List Spec} {s s' : HilDeployer}
    (h : Exec.settleAll Failure.Fatal (deploy env) history s = some s') :
    SameSetting s' s ∧ s'.hw.SameBus s.hw ∧
      s'.ivs = history.foldl (fun ivs a => ivsAfter (env.dispatcher a) ivs) s.ivs := by
  induction history generalizing s with
  | nil =>
    obtain rfl : s = s' := by simpa [Exec.settleAll] using h
    exact ⟨⟨rfl, rfl, rfl⟩, .refl _, rfl⟩
  | cons a history ih =>
    obtain ⟨t, ht, hrest⟩ := Exec.settleAll_cons.1 h
    obtain ⟨hset, hbus, hivs⟩ := ih hrest
    have hkeeps := (frameAt_deploy env a s).of_settle ht
    have hone := (frameAt_deploy_ivs env a s).of_settle ht
    obtain ⟨rs, hrs⟩ := hkeeps.hw
    refine ⟨hset.trans (hkeeps.sameSetting.trans (reset_sameSetting _ _)), hbus.trans ?_, ?_⟩
    · rw [hrs]
      exact ⟨rfl, rfl, rfl⟩
    · rw [hivs, hone, List.foldl_cons]

/-! ## The requests of the DMAs -/

/-- The number of requests of an entry. -/
def entryCount (ivs : String → String → Option (List Nat)) (e : DeployerInterconnectSlot) : Nat :=
  if (ivs e.sourceId e.sourceName).isSome then 4 else 2

/-- An entry has two writes, and two more with an initial value. -/
theorem entryRequests_length (ivs : String → String → Option (List Nat)) (address k : Nat)
    (e : DeployerInterconnectSlot) :
    (DeployerBase.entryRequests ivs address e k).length = entryCount ivs e := by
  unfold DeployerBase.entryRequests entryCount
  cases ivs e.sourceId e.sourceName <;> rfl

/-- The DMA has the writes of its entries and the number. -/
theorem dmaRequests_length (ivs : String → String → Option (List Nat)) (address : Nat)
    (entries : List DeployerInterconnectSlot) :
    (DeployerBase.dmaRequests ivs address entries).length =
      (entries.map (entryCount ivs)).sum + 1 := by
  have hmap : entries.zipIdx.map (fun x => entryCount ivs x.1) = entries.map (entryCount ivs) := by
    conv_rhs => rw [← List.zipIdx_map_fst 0 entries, List.map_map]
    rfl
  rw [DeployerBase.dmaRequests, List.length_append, List.length_flatMap]
  simp only [entryRequests_length, hmap, List.length_singleton]

/-- They only depend on the values of the entries. -/
theorem dmaRequests_congr {ivs ivs' : String → String → Option (List Nat)} {address : Nat}
    {entries : List DeployerInterconnectSlot}
    (h : ∀ e ∈ entries, ivs e.sourceId e.sourceName = ivs' e.sourceId e.sourceName) :
    DeployerBase.dmaRequests ivs address entries =
      DeployerBase.dmaRequests ivs' address entries := by
  have hentries : ∀ x ∈ entries.zipIdx, DeployerBase.entryRequests ivs address x.1 x.2 =
      DeployerBase.entryRequests ivs' address x.1 x.2 := by
    intro x hx
    rw [DeployerBase.entryRequests, h x.1 (List.fst_mem_of_mem_zipIdx hx),
      DeployerBase.entryRequests]
  rw [DeployerBase.dmaRequests, List.flatMap_congr hentries, DeployerBase.dmaRequests]

/-- Register writes only : without a bitstream nothing reaches the bus. -/
theorem dmaRequests_not_reachesBus {hw : FpgaBridge} (h : hw.fpgaLoaded = false)
    (ivs : String → String → Option (List Nat)) (address : Nat)
    (entries : List DeployerInterconnectSlot) :
    ∀ r ∈ DeployerBase.dmaRequests ivs address entries, hw.reachesBus r = false := by
  have hwrite : ∀ addr val, hw.reachesBus (regWrite addr val) = false := fun _ _ => h
  have hentry : ∀ e k, ∀ r ∈ DeployerBase.entryRequests ivs address e k,
      hw.reachesBus r = false := by
    intro e k
    unfold DeployerBase.entryRequests
    cases ivs e.sourceId e.sourceName <;> simp [DeployerBase.fillRequests, hwrite]
  intro r hr
  rcases List.mem_append.1 hr with hr | hr
  · obtain ⟨x, -, hx⟩ := List.mem_flatMap.1 hr
    exact hentry x.1 x.2 r hx
  · rw [List.mem_singleton.1 hr, hwrite]

/-- With equal sums no term of the smaller family is smaller. -/
theorem eq_of_sum_le_of_le {α : Type} {f g : α → Nat} {l : List α} (h : ∀ x ∈ l, f x ≤ g x)
    (hs : (l.map g).sum ≤ (l.map f).sum) : ∀ x ∈ l, f x = g x := by
  induction l with
  | nil => simp
  | cons x l ih =>
    rw [List.forall_mem_cons] at h ⊢
    have hle : (l.map f).sum ≤ (l.map g).sum := List.sum_le_sum h.2
    simp only [List.map_cons, List.sum_cons] at hs
    exact ⟨by have := h.1; omega, ih h.2 (by have := h.1; omega)⟩

/-! ## The two runs -/

section TwoRuns

variable {env : Environment Spec} {arguments : Spec} {programs : List DeployedProgram}
  {slots : List DeployerInterconnectSlot} {memories : String → List MemoryInitValue}
  {s t : HilDeployer}

/-- The DMA of a program, with the merged initial values. -/
theorem programDmaRequests_prepared {p : DeployedProgram} (hp : p ∈ programs) :
    (prepared env arguments programs slots s).programDmaRequests p =
      DeployerBase.dmaRequests (mergedIvs s.ivs slots programs)
        (dmaAddress s.addresses (store (fun _ => 0) (programs.map fun p => (p.name, p.index.toNat))
          p.name))
        (DeployerBase.entriesOf slots p.name) := by
  rw [← store_names_congr s.coresIdx _ (fun p => p.index.toNat) hp]
  rfl

/-- With the same initial values for the deployed sources the requests are the same. -/
theorem SameSetting.deploymentRequests (h : SameSetting s t)
    (hivs : ∀ p ∈ programs, ∀ e ∈ DeployerBase.entriesOf slots p.name,
      mergedIvs s.ivs slots programs e.sourceId e.sourceName =
        mergedIvs t.ivs slots programs e.sourceId e.sourceName) :
    deploymentRequests env arguments programs memories (prepared env arguments programs slots s) =
      HilDeployer.deploymentRequests env arguments programs memories
        (prepared env arguments programs slots t) := by
  have hdmas : programs.flatMap (prepared env arguments programs slots s).programDmaRequests =
      programs.flatMap (prepared env arguments programs slots t).programDmaRequests := by
    refine List.flatMap_congr fun p hp => ?_
    rw [programDmaRequests_prepared hp, programDmaRequests_prepared hp,
      dmaRequests_congr (hivs p hp), h.addresses]
  have haddresses : (prepared env arguments programs slots s).addresses =
    (prepared env arguments programs slots t).addresses := h.addresses
  rw [deploymentRequests_eq, deploymentRequests_eq, hdmas, haddresses, h.laterRequests]

/-- What a deployment needs of the deployer beyond the initial values, another with the setting
gives too. -/
theorem Deployable.of_sameSetting
    (hd : Deployable (env.dispatcher arguments) programs slots memories
      (prepared env arguments programs slots t)) (h : SameSetting s t)
    (hivs : ∀ p ∈ programs, ∀ e ∈ DeployerBase.entriesOf slots p.name,
      DeployerBase.IvInRange (mergedIvs s.ivs slots programs) e) :
    Deployable (env.dispatcher arguments) programs slots memories
      (prepared env arguments programs slots s) where
  length_le := hd.length_le
  ne_nil := hd.ne_nil
  lcmFits := hd.lcmFits
  hasWords := hd.hasWords
  dmaReady := fun p hp e he => ⟨(hd.dmaReady p hp e he).1, hivs p hp e he⟩
  memoriesReady := hd.memoriesReady
  hasInputs := hd.hasInputs
  inputsReady := by
    have haddresses : (prepared env arguments programs slots s).addresses =
      (prepared env arguments programs slots t).addresses := h.addresses
    rw [haddresses]
    exact hd.inputsReady

/-- A deployed source that gets no initial value from the specification finds none, or without a
bitstream, where it would not be written, finds one for its channel. -/
def FindsNoValue (ivs : String → String → Option (List Nat)) (programs : List DeployedProgram)
    (slots : List DeployerInterconnectSlot) (fpgaLoaded : Bool) : Prop :=
  ∀ p ∈ programs, ∀ e ∈ DeployerBase.entriesOf slots p.name,
    specIvs slots programs e.sourceId e.sourceName = none →
      ∀ iv, ivs e.sourceId e.sourceName = some iv →
        fpgaLoaded = false ∧ e.sourceChannel.toNat < iv.length

/-- A value of the specification replaces an earlier one. -/
theorem mergedIvs_of_spec {ivs : String → String → Option (List Nat)} {id name : String}
    {iv : List Nat} (h : specIvs slots programs id name = some iv) :
    mergedIvs ivs slots programs id name = some iv := by
  rw [mergedIvs, h]
  rfl

/-- Where the specification has none, an earlier one stays. -/
theorem mergedIvs_of_none {ivs : String → String → Option (List Nat)} {id name : String}
    (h : specIvs slots programs id name = none) :
    mergedIvs ivs slots programs id name = ivs id name := by
  rw [mergedIvs, h]
  rfl

/-- The record of a deployment are its requests. -/
theorem operations_deployed (rs : List Request) :
    ((deployed env arguments programs (prepared env arguments programs slots s)).emit
      rs).hw.busses.operations = s.hw.logged rs := by
  rw [emit_hw, deployed_hw]
  rfl

/-- An initial value that is found is there for its channel. -/
theorem ivInRange_of_findsNoValue {ivs : String → String → Option (List Nat)} {fpgaLoaded : Bool}
    (hfind : FindsNoValue ivs programs slots fpgaLoaded)
    {ivs' : String → String → Option (List Nat)}
    (h : ∀ p ∈ programs, ∀ e ∈ DeployerBase.entriesOf slots p.name,
      DeployerBase.IvInRange (mergedIvs ivs' slots programs) e) :
    ∀ p ∈ programs, ∀ e ∈ DeployerBase.entriesOf slots p.name,
      DeployerBase.IvInRange (mergedIvs ivs slots programs) e := by
  intro p hp e he iv hiv
  cases hspec : specIvs slots programs e.sourceId e.sourceName with
  | some v =>
    rw [mergedIvs_of_spec hspec] at hiv
    exact h p hp e he iv ((mergedIvs_of_spec hspec).trans hiv)
  | none =>
    rw [mergedIvs_of_none hspec] at hiv
    exact (hfind p hp e he hspec iv hiv).2

/-- A fresh deployer finds nothing. -/
theorem findsNoValue_none (fpgaLoaded : Bool) :
    FindsNoValue (fun _ _ => none) programs slots fpgaLoaded :=
  fun _ _ _ _ _ _ => nofun

/-- Where nothing is found, what reaches the bus is what reaches it from a fresh deployer `t`. -/
theorem deploymentRequests_reachesBus (hset : SameSetting s t)
    (hloaded : s.hw.fpgaLoaded = t.hw.fpgaLoaded) (ht : t.ivs = fun _ _ => none)
    (hfind : FindsNoValue s.ivs programs slots s.hw.fpgaLoaded) :
    (HilDeployer.deploymentRequests env arguments programs memories
        (prepared env arguments programs slots s)).filter s.hw.reachesBus =
      (HilDeployer.deploymentRequests env arguments programs memories
        (prepared env arguments programs slots t)).filter t.hw.reachesBus := by
  rw [← FpgaBridge.reachesBus_congr hloaded]
  cases hl : s.hw.fpgaLoaded with
  | true =>
    rw [hset.deploymentRequests]
    intro p hp e he
    cases hspec : specIvs slots programs e.sourceId e.sourceName with
    | some v => rw [mergedIvs_of_spec hspec, mergedIvs_of_spec hspec]
    | none =>
      rw [mergedIvs_of_none hspec, mergedIvs_of_none hspec, ht]
      refine Option.eq_none_iff_forall_ne_some.2 fun iv hiv => ?_
      exact Bool.noConfusion (hl.symm.trans (hfind p hp e he hspec iv hiv).1)
  | false =>
    -- the requests of the DMAs do not get there
    have hdropped : ∀ r, (programs.flatMap (prepared env arguments programs slots
        r).programDmaRequests).filter s.hw.reachesBus = [] := by
      refine fun r => List.filter_eq_nil_iff.2 fun q hq => ?_
      obtain ⟨p, -, hqp⟩ := List.mem_flatMap.1 hq
      simp [dmaRequests_not_reachesBus hl _ _ _ q hqp]
    have haddresses : (prepared env arguments programs slots s).addresses =
      (prepared env arguments programs slots t).addresses := hset.addresses
    rw [deploymentRequests_eq, deploymentRequests_eq, hset.laterRequests, haddresses]
    simp only [List.filter_append, hdropped]

/-- Where nothing is found, a deployment does as on a fresh deployer `t`. -/
theorem deploy_of_findsNoValue (hset : SameSetting s t) (hbus : s.hw.SameBus t.hw)
    (ht : t.ivs = fun _ _ => none) {u : Unit} {t' : HilDeployer}
    (hrun : (deploy env arguments).run t = .ok u t')
    (hp : (env.dispatcher arguments).getPrograms = .ok programs)
    (hs : (env.dispatcher arguments).getInterconnectSlots = .ok slots)
    (hfind : FindsNoValue s.ivs programs slots s.hw.fpgaLoaded) :
    ∃ s', (deploy env arguments).run s = .ok u s' ∧
      s'.hw.busses.operations = t'.hw.busses.operations := by
  obtain ⟨programs', slots', memories, hel, hd, ha, rfl⟩ := deploy_eq_ok.1 hrun
  obtain rfl := hel.programs_eq hp
  obtain rfl := hel.slots_eq hs
  have hrequests := @deploymentRequests_reachesBus Spec env arguments programs' slots' memories s t
    hset hbus.fpgaLoaded ht hfind
  refine ⟨_, deploy_eq_ok.2 ⟨programs', slots', memories, hel, hd.of_sameSetting hset
    (ivInRange_of_findsNoValue hfind fun p hp e he => (hd.dmaReady p hp e he).2), ?_, rfl⟩, ?_⟩
  · rw [FpgaBridge.admits_iff_filter] at ha ⊢
    rw [hrequests]
    exact fun r hr => (hbus.admits r).2 (ha r hr)
  · rw [operations_deployed, operations_deployed, FpgaBridge.logged, hrequests, FpgaBridge.logged]

/-- A fresh deployer behind a muted bus follows a deployment that found nothing. -/
theorem deploy_fresh_of_findsNoValue (hset : SameSetting s t)
    (hloaded : s.hw.fpgaLoaded = t.hw.fpgaLoaded) (ht : t.ivs = fun _ _ => none)
    (hmuted : t.hw.busses.sinkMode = true) {u : Unit} {s' : HilDeployer}
    (hrun : (deploy env arguments).run s = .ok u s')
    (hfind : ∀ programs slots, (env.dispatcher arguments).getPrograms = .ok programs →
      (env.dispatcher arguments).getInterconnectSlots = .ok slots →
        FindsNoValue s.ivs programs slots s.hw.fpgaLoaded) :
    ∃ t', (deploy env arguments).run t = .ok u t' ∧
      t'.hw.busses.operations = s'.hw.busses.operations ∧
      SameInputs s'.toDeployerBase t'.toDeployerBase := by
  obtain ⟨programs, slots, memories, hel, hd, -, rfl⟩ := deploy_eq_ok.1 hrun
  have hfind := hfind programs slots hel.getPrograms hel.getInterconnectSlots
  have hnone : FindsNoValue t.ivs programs slots t.hw.fpgaLoaded := by
    rw [ht]
    exact findsNoValue_none _
  refine ⟨_, deploy_eq_ok.2 ⟨programs, slots, memories, hel, hd.of_sameSetting hset.symm
    (ivInRange_of_findsNoValue hnone fun p hp e he => (hd.dmaReady p hp e he).2),
    FpgaBridge.admits_of_sinkMode hmuted _, rfl⟩, ?_, hset.deployed.emit _ _⟩
  rw [operations_deployed, operations_deployed, FpgaBridge.logged, FpgaBridge.logged,
    deploymentRequests_reachesBus hset hloaded ht hfind]

/-- Earlier values can only add writes. -/
theorem entryCount_le (ht : t.ivs = fun _ _ => none) (e : DeployerInterconnectSlot) :
    entryCount (mergedIvs t.ivs slots programs) e ≤
      entryCount (mergedIvs s.ivs slots programs) e := by
  unfold entryCount
  cases hspec : specIvs slots programs e.sourceId e.sourceName with
  | some v => rw [mergedIvs_of_spec hspec, mergedIvs_of_spec hspec]
  | none =>
    rw [mergedIvs_of_none hspec, ht, if_neg (by simp)]
    split_ifs <;> omega

/-- A value that is found makes two requests more. -/
theorem entryCount_eq_of_requests (hset : SameSetting s t) (ht : t.ivs = fun _ _ => none)
    (h : HilDeployer.deploymentRequests env arguments programs memories
        (prepared env arguments programs slots s) =
      HilDeployer.deploymentRequests env arguments programs memories
        (prepared env arguments programs slots t)) :
    ∀ p ∈ programs, ∀ e ∈ DeployerBase.entriesOf slots p.name,
      entryCount (mergedIvs t.ivs slots programs) e =
        entryCount (mergedIvs s.ivs slots programs) e := by
  have haddresses : (prepared env arguments programs slots s).addresses =
    (prepared env arguments programs slots t).addresses := hset.addresses
  rw [deploymentRequests_eq, deploymentRequests_eq, hset.laterRequests, haddresses,
    List.append_cancel_left_eq, List.append_cancel_right_eq] at h
  have hlen := congrArg List.length h
  rw [List.length_flatMap, List.length_flatMap] at hlen
  have hcount : ∀ (r : HilDeployer) (p : DeployedProgram), p ∈ programs →
      ((prepared env arguments programs slots r).programDmaRequests p).length =
        ((DeployerBase.entriesOf slots p.name).map
          (entryCount (mergedIvs r.ivs slots programs))).sum + 1 := by
    intro r p hp
    rw [programDmaRequests_prepared hp, dmaRequests_length]
  rw [List.map_congr_left (hcount s), List.map_congr_left (hcount t)] at hlen
  have hle : ∀ p : DeployedProgram, ((DeployerBase.entriesOf slots p.name).map
      (entryCount (mergedIvs t.ivs slots programs))).sum ≤
        ((DeployerBase.entriesOf slots p.name).map
          (entryCount (mergedIvs s.ivs slots programs))).sum := fun p =>
    List.sum_le_sum fun e _ => entryCount_le ht e
  have hprograms := eq_of_sum_le_of_le (fun p _ => Nat.add_le_add_right (hle p) 1) hlen.le
  intro p hp
  exact eq_of_sum_le_of_le (fun e _ => entryCount_le ht e) (Nat.succ.inj (hprograms p hp)).ge

/-- The recorded operations are those of a fresh deployer `t` just when nothing is found. -/
theorem deploy_operations_iff (hset : SameSetting s t) (hbus : s.hw.SameBus t.hw)
    (ht : t.ivs = fun _ _ => none) {u : Unit} {t' : HilDeployer}
    (hrun : (deploy env arguments).run t = .ok u t')
    (hp : (env.dispatcher arguments).getPrograms = .ok programs)
    (hs : (env.dispatcher arguments).getInterconnectSlots = .ok slots) :
    (∃ u' s', (deploy env arguments).run s = .ok u' s' ∧
      s'.hw.busses.operations = t'.hw.busses.operations) ↔
        FindsNoValue s.ivs programs slots s.hw.fpgaLoaded := by
  constructor
  · rintro ⟨u', s', hrun', hops⟩ p hpm e he hspec iv hiv
    obtain ⟨programs', slots', memories, hel, -, -, rfl⟩ := deploy_eq_ok.1 hrun
    obtain rfl := hel.programs_eq hp
    obtain rfl := hel.slots_eq hs
    obtain ⟨programs'', slots'', memories', hel', hd', -, rfl⟩ := deploy_eq_ok.1 hrun'
    obtain rfl := hel.programs_eq hel'.getPrograms
    obtain rfl := hel.slots_eq hel'.getInterconnectSlots
    obtain rfl := hel.memories_eq hel'.getMemoryInitializations
    refine ⟨Bool.eq_false_iff.2 fun hl => ?_, ?_⟩
    · rw [operations_deployed, operations_deployed, FpgaBridge.logged_of_loaded hl,
        FpgaBridge.logged_of_loaded (hbus.fpgaLoaded ▸ hl)] at hops
      have hcount := entryCount_eq_of_requests hset ht
        (List.map_injective_iff.2 Request.op_injective hops) p hpm e he
      rw [entryCount, entryCount, mergedIvs_of_none hspec, mergedIvs_of_none hspec, ht,
        hiv] at hcount
      simp at hcount
    · exact (hd'.dmaReady p hpm e he).2 iv ((mergedIvs_of_none hspec).trans hiv)
  · intro hfind
    obtain ⟨s', hs', hops⟩ := deploy_of_findsNoValue hset hbus ht hrun hp hs hfind
    exact ⟨u, s', hs', hops⟩

end TwoRuns

/-- The operations that a deployment after a history records. -/
def recorded (env : Environment Spec) (history : List Spec) (arguments : Spec) (s : HilDeployer) :
    Option (List BusOp) :=
  (Exec.settleAll Failure.Fatal (deploy env) history s).bind fun t =>
    match (deploy env arguments).run t with
    | .ok _ t' => some t'.hw.busses.operations
    | .error _ _ => none

/-- The producer with the consumer that its slot goes to, and the producer alone. -/
def withAndWithoutConsumer : Environment Bool :=
  .of (fun withConsumer => .returning (if withConsumer then [producer, consumer] else [producer])
    [slotTo "x" 1]) fun withConsumer => if withConsumer then 1 else 2

/-- After a history of deployments that returned or threw, a specification that deploys on a fresh
deployer records the same operations just when the history leaves no initial value under a source
to which it gives none. -/
theorem deploy_history_iff {env : Environment Spec} {hw : FpgaBridge} {addresses : LogicLayout}
    {clock : {f : ℚ // 0 < f}} {history : List Spec} {s : HilDeployer}
    (hhistory : Exec.settleAll Failure.Fatal (deploy env) history (construct hw addresses clock) =
      some s)
    {arguments : Spec} {u : Unit} {t' : HilDeployer}
    (hfresh : (deploy env arguments).run (construct hw addresses clock) = .ok u t')
    {programs : List DeployedProgram} {slots : List DeployerInterconnectSlot}
    (hp : (env.dispatcher arguments).getPrograms = .ok programs)
    (hs : (env.dispatcher arguments).getInterconnectSlots = .ok slots) :
    (∃ u' s', (deploy env arguments).run s = .ok u' s' ∧
      s'.hw.busses.operations = t'.hw.busses.operations) ↔
        FindsNoValue (historyIvs env history) programs slots hw.fpgaLoaded := by
  obtain ⟨hset, hbus, hivs⟩ := settle_history hhistory
  rw [deploy_operations_iff hset hbus rfl hfresh hp hs, hivs, hbus.fpgaLoaded]
  exact Iff.rfl

/-- The same specification twice has the same writes. -/
theorem deploy_history_with_consumer : ∃ s u t' u' s',
    Exec.settleAll Failure.Fatal (deploy withAndWithoutConsumer) [true] fresh = some s ∧
      (deploy withAndWithoutConsumer true).run fresh = .ok u t' ∧
      (deploy withAndWithoutConsumer true).run s = .ok u' s' ∧
      s'.hw.busses.operations = t'.hw.busses.operations := by
  obtain ⟨u, t', hfresh, -⟩ : ∃ u t',
      (deploy withAndWithoutConsumer true).run fresh = .ok u t' ∧ True :=
    Exec.exists_of_returnsIn (by decide +kernel)
  obtain ⟨s, hhistory⟩ : ∃ s,
      Exec.settleAll Failure.Fatal (deploy withAndWithoutConsumer) [true] fresh = some s :=
    Option.isSome_iff_exists.1 (by decide +kernel)
  have hspec : ∀ p ∈ [producer, consumer], ∀ e ∈ DeployerBase.entriesOf [slotTo "x" 1] p.name,
      specIvs [slotTo "x" 1] [producer, consumer] e.sourceId e.sourceName ≠ none := by
    decide +kernel
  obtain ⟨u', s', hrun, hops⟩ := (deploy_history_iff hhistory hfresh rfl rfl).2
    fun p hp e he hnone => absurd hnone (hspec p hp e he)
  exact ⟨s, u, t', u', s', hhistory, hfresh, hrun, hops⟩

/-- The producer alone finds the value that the consumer left. -/
theorem recorded_after_consumer :
    (recorded withAndWithoutConsumer [] false fresh).isSome ∧
      (recorded withAndWithoutConsumer [true] false fresh).isSome ∧
      recorded withAndWithoutConsumer [true] false fresh ≠
        recorded withAndWithoutConsumer [] false fresh := by
  decide +kernel

end HilDeployer

end UscopeDriver
