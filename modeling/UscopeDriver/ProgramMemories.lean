import UscopeDriver.Library.Blocks
import UscopeDriver.Schedule
import UscopeDriver.ServedRuns

/-!
# The programs of the cores

A deployment on a live bus loads the binary of every program into the window of its core. When the
windows do not overlap every core has its whole binary afterwards, and it keeps it while no other
command loads programs : the live updates, the simulations and whatever else the clients ask for
leave the windows alone (`serve_programs`).
-/

namespace UscopeDriver

open LastWrite (block blocks store)

namespace HilDeployer

theorem registerWrites_action (pl : Platform) (a : InputAction) (s : HilDeployer) :
    RegisterWrites (a.requests pl s) := by
  cases a with
  | label path coreIdx => exact .nil
  | enableRandom =>
    unfold InputAction.requests
    split_ifs
    · exact .cons trivial .nil
    · exact .nil
  | setup c =>
    change RegisterWrites (c.requests pl s.toDeployerBase)
    unfold InputSetup.requests
    cases hs : c.input.sourceType with
    | constantInput => exact (onlyWrites_constantRequests (Or.inl hs) 0).any
    | timeSeriesInput => exact (onlyWrites_constantRequests (Or.inr hs) 0).any
    | randomInput => exact .cons trivial .nil
    | waveformInput =>
      simp only [InputSetup.waveformRequests]
      cases c.input.waveformParameters with
      | square p => exact (onlyWrites_squareRequests pl c.ipAddress 0 _ _ _ _ p).any
      | sine => exact .nil
      | triangle => exact .nil
    | external => exact .nil

/-- The inputs write registers only. -/
theorem registerWrites_requestsOf (pl : Platform) (actions : List InputAction) (s : HilDeployer) :
    RegisterWrites (InputAction.requestsOf pl actions s) := by
  induction actions generalizing s with
  | nil => exact .nil
  | cons a actions ih => exact .append (registerWrites_action pl a s) (ih _)

/-- After the loads a deployment only writes registers. -/
theorem registerWrites_writeRequests {Spec : Type} (env : Environment Spec) (arguments : Spec)
    (programs : List DeployedProgram) (memories : String → List MemoryInitValue)
    (s : HilDeployer) : RegisterWrites (writeRequests env arguments programs memories s) := by
  refine .append (.append (.append (.append (.flatMap fun p _ => ?_) (.flatMap fun p _ => ?_))
    (registerWrites_requestsOf _ _ _)) (onlyWrites_sequencerRequests _ _ _ _ _).any) fun r hr => ?_
  · exact (onlyWrites_dmaRequests _ _ _).any
  · exact .flatMap fun m _ => (onlyWrites_memoryRequests _ _ m).any
  · obtain ⟨p, -, rfl⟩ := List.mem_map.1 hr
    exact ⟨_, _, trivial, rfl⟩

/-! ## The windows -/

/-- The first word of the window of a program's core. -/
def programWindow (addresses : LogicLayout) (coreAddr : Nat) (p : DeployedProgram) : Nat :=
  (u64 (addresses.bases.coresRom + p.index.toNat * addresses.offsets.coresRom) - coreAddr) / 4

/-- The windows with the binaries. -/
def programBlocks (addresses : LogicLayout) (coreAddr : Nat) (programs : List DeployedProgram) :
    List (Nat × List Nat) :=
  programs.map fun p => (programWindow addresses coreAddr p, p.binary.map (·.toNat))

/-- A load stores the words of the program from its address on. -/
theorem storeProgram_load (coreAddr address : Nat) (words : List UInt32) (fCore : Nat → Nat) :
    (Request.load address (words.map (·.toNat))).storeProgram coreAddr fCore =
      store fCore (block ((address - coreAddr) / 4) (words.map (·.toNat))) := by
  have hload : (Request.load address (words.map (·.toNat))).storeProgram coreAddr fCore =
      (words.map (·.toNat)).zipIdx.foldl (fun mem p =>
        Function.update mem (p.2 + (address - coreAddr) / 4) (u32 p.1)) fCore := rfl
  rw [hload, store, block, List.foldl_map, List.zipIdx_map, List.foldl_map, List.foldl_map]
  congr 1
  funext mem word
  have hword : u32 word.1.toNat = word.1.toNat := u32_of_lt word.1.toNat_lt
  simp [hword, Nat.add_comm]

/-- Loads store the blocks of the programs. -/
theorem foldl_storeProgram_loads (addresses : LogicLayout) (coreAddr : Nat)
    (programs : List DeployedProgram) (fCore : Nat → Nat) :
    (programs.map (loadRequest addresses)).foldl (Request.storeProgram coreAddr) fCore =
      store fCore (blocks (programBlocks addresses coreAddr programs)) := by
  induction programs generalizing fCore with
  | nil => rfl
  | cons p programs ih =>
    rw [List.map_cons, List.foldl_cons, ih, loadRequest, storeProgram_load]
    exact (LastWrite.store_append _ _ _).symm

/-- What a deployment on a live bus leaves in the program memories. -/
theorem fCore_of_deploy {Spec : Type} {env : Environment Spec} {arguments : Spec}
    {programs : List DeployedProgram}
    (hprograms : (env.dispatcher arguments).getPrograms = .ok programs) {s s' : HilDeployer}
    {u : Unit} (hlive : s.hw.busses.sinkMode = false)
    (h : (deploy env arguments).run s = .ok u s') :
    s'.hw.busses.fCore = store s.hw.busses.fCore
      (blocks (programBlocks s.addresses s.hw.busses.coreAddr programs)) := by
  obtain ⟨programs', slots, memories, hel, -, -, rfl⟩ := deploy_eq_ok.1 h
  obtain rfl := hel.programs_eq hprograms
  set t := prepared env arguments programs' slots s
  have hwrites := registerWrites_writeRequests env arguments programs' memories t
  have hfilter : (deploymentRequests env arguments programs' memories t).filter t.hw.reachesBus =
      programs'.map (loadRequest t.addresses) ++
        (writeRequests env arguments programs' memories t).filter t.hw.reachesBus := by
    rw [deploymentRequests, List.filter_append, List.filter_eq_self.2]
    intro r hr
    obtain ⟨p, -, rfl⟩ := List.mem_map.1 hr
    rfl
  have hsink : t.hw.busses.sinkMode = false := hlive
  rw [emit_hw, deployed_hw, FpgaBridge.performAll, hfilter]
  simp only [BusAccessor.performAll, hsink, Bool.false_eq_true, if_false]
  rw [List.foldl_append, Request.foldl_storeProgram_of_writes _ fun r hr =>
    hwrites.access r (List.mem_of_mem_filter hr), foldl_storeProgram_loads]
  rfl

/-- No two windows overlap. -/
def ProgramsApart (addresses : LogicLayout) (coreAddr : Nat) (programs : List DeployedProgram) :
    Prop :=
  LastWrite.Apart (programBlocks addresses coreAddr programs)

instance (addresses : LogicLayout) (coreAddr : Nat) (programs : List DeployedProgram) :
    Decidable (ProgramsApart addresses coreAddr programs) :=
  inferInstanceAs (Decidable (LastWrite.Apart _))

/-- The map of the tests has 2^26 words for each core. -/
theorem programsApart_addrMapV2 {programs : List DeployedProgram}
    (hindex : (programs.map (·.index)).Nodup)
    (hlength : ∀ p ∈ programs, p.binary.length ≤ 2 ^ 26) :
    ProgramsApart .addrMapV2 0x500000000 programs := by
  have hwindow : ∀ p : DeployedProgram,
      programWindow .addrMapV2 0x500000000 p = p.index.toNat * 2 ^ 26 := fun p => by
    have hlt := p.index.toNat_lt
    have hrom : LogicLayout.addrMapV2.bases.coresRom +
        p.index.toNat * LogicLayout.addrMapV2.offsets.coresRom =
      21474836480 + p.index.toNat * 268435456 := rfl
    rw [programWindow, hrom, u64_of_lt (by omega)]
    omega
  rw [ProgramsApart, LastWrite.Apart, programBlocks, List.pairwise_map]
  refine (List.pairwise_map.1 hindex).imp_of_mem fun {p q} hp hq hne => ?_
  simp only [hwindow, List.length_map]
  have hp := hlength p hp
  have hq := hlength q hq
  have hidx : p.index.toNat ≠ q.index.toNat := fun h => hne (UInt32.toNat_inj.1 h)
  omega

/-- Every core has its whole binary, and the other words are as before. -/
def HasPrograms (addresses : LogicLayout) (coreAddr : Nat) (programs : List DeployedProgram)
    (fCore₀ fCore : Nat → Nat) : Prop :=
  (∀ p ∈ programs, ∀ i, ∀ hi : i < p.binary.length,
    fCore (programWindow addresses coreAddr p + i) = p.binary[i].toNat) ∧
  ∀ k, (∀ p ∈ programs, k < programWindow addresses coreAddr p ∨
    programWindow addresses coreAddr p + p.binary.length ≤ k) → fCore k = fCore₀ k

/-- Where the blocks are apart, each program is there as a whole. -/
theorem hasPrograms_of_apart {addresses : LogicLayout} {coreAddr : Nat}
    {programs : List DeployedProgram} (h : ProgramsApart addresses coreAddr programs)
    (fCore : Nat → Nat) : HasPrograms addresses coreAddr programs fCore
      (store fCore (blocks (programBlocks addresses coreAddr programs))) := by
  constructor
  · intro p hp i hi
    have hb : (programWindow addresses coreAddr p, p.binary.map (·.toNat)) ∈
      programBlocks addresses coreAddr programs := List.mem_map_of_mem hp
    have hword := LastWrite.store_blocks h fCore hb (i := i) (by simpa using hi)
    simpa using hword
  · intro k hk
    refine LastWrite.store_blocks_of_apart fCore fun b hb => ?_
    obtain ⟨p, hp, rfl⟩ := List.mem_map.1 hb
    simpa using hk p hp

end HilDeployer

/-! ## The driver -/

namespace CoresEndpoints

/-- A deployment of the HIL deployer is answered without an error when it returns. -/
theorem processDeployHil_eq_ok {w : Surroundings} {arguments : Json}
    (hmode : arguments.find? "deployment_mode" = some (.boolean false)) {s s' : CoresEndpoints} :
    (processDeployHil w arguments).run s = .ok { responseCode := .ok } s' ↔ ∃ u hil,
      (HilDeployer.deploy w.env arguments).run { s.hil with hw := s.hw } = .ok u hil ∧
        s' = { s with hw := hil.hw, hil := hil } := by
  constructor
  · intro h
    rcases Exec.catching_eq_ok.1 h with hok | ⟨e, s₁, -, -, herror⟩
    · obtain ⟨mode, s₁, hat, h₁⟩ := Exec.bind_eq_ok.1 hok
      obtain ⟨hfind, rfl⟩ := Json.at'_eq_ok.1 hat
      obtain rfl := Option.some.inj (hfind.symm.trans hmode)
      obtain ⟨customDeploy, s₂, hget, h₂⟩ := Exec.bind_eq_ok.1 h₁
      obtain ⟨hbool, rfl⟩ := Exec.require_eq_ok.1 hget
      obtain rfl : false = customDeploy := Option.some.inj hbool
      obtain ⟨u, s₃, hdeploy, hpure⟩ := Exec.bind_eq_ok.1 h₂
      obtain ⟨-, rfl⟩ := Exec.pure_eq_ok.1 hpure
      obtain ⟨hil, hrun, rfl⟩ := Exec.zoom_eq_ok.1 hdeploy
      exact ⟨u, hil, hrun, rfl⟩
    · obtain ⟨hresponse, -⟩ := Exec.pure_eq_ok.1 herror
      cases hresponse
  · rintro ⟨u, hil, hrun, rfl⟩
    have hdeploy : (onHil (HilDeployer.deploy w.env arguments)).run s =
        .ok u { s with hw := hil.hw, hil := hil } := by
      unfold onHil
      exact Exec.zoom_eq_ok.2 ⟨hil, hrun, rfl⟩
    refine Exec.catching_eq_ok.2 (Or.inl ?_)
    exact Exec.bind_eq_ok.2 ⟨_, s, Json.at'_eq_ok.2 ⟨hmode, rfl⟩, Exec.bind_eq_ok.2 ⟨false, s, rfl,
      Exec.bind_eq_ok.2 ⟨u, _, hdeploy, rfl⟩⟩⟩

end CoresEndpoints

namespace CommandProcessor

open HilDeployer

/-- The answer to a deployment without an error. -/
def deployedResponse : Json :=
  .object [("cmd", .string "deploy_hil"), ("body", Response.toJson { responseCode := .ok })]

/-- A deployment that is answered without an error. -/
theorem processDeploy_eq_ok {w : Surroundings} {arguments : Json}
    (hmode : arguments.find? "deployment_mode" = some (.boolean false))
    {p p' : CommandProcessor} :
    (processCommand w "deploy_hil" arguments).run p = .ok deployedResponse p' ↔ ∃ u hil,
      (HilDeployer.deploy w.env arguments).run { p.cores.hil with hw := p.hw } = .ok u hil ∧
        p' = { p with hw := hil.hw, cores := { p.cores with hw := hil.hw, hil := hil } } := by
  have hbody : body w "deploy_hil" arguments =
    onCores (CoresEndpoints.processDeployHil w arguments) := rfl
  constructor
  · intro h
    obtain ⟨response, p₁, hrun, hpure⟩ := Exec.bind_eq_ok.1 h
    obtain ⟨hresponse, rfl⟩ := Exec.pure_eq_ok.1 hpure
    obtain rfl : { responseCode := .ok } = response :=
      Response.toJson_injective (by simpa [deployedResponse] using hresponse)
    rw [hbody] at hrun
    obtain ⟨cores, hcores, rfl⟩ := Exec.zoom_eq_ok.1 hrun
    obtain ⟨u, hil, hdeploy, rfl⟩ := (CoresEndpoints.processDeployHil_eq_ok hmode).1 hcores
    exact ⟨u, hil, hdeploy, rfl⟩
  · rintro ⟨u, hil, hdeploy, rfl⟩
    have hcores : (CoresEndpoints.processDeployHil w arguments).run { p.cores with hw := p.hw } =
        .ok { responseCode := .ok } { p.cores with hw := hil.hw, hil := hil } :=
      (CoresEndpoints.processDeployHil_eq_ok hmode).2 ⟨u, hil, hdeploy, rfl⟩
    refine Exec.bind_eq_ok.2 ⟨{ responseCode := .ok },
      { p with hw := hil.hw, cores := { p.cores with hw := hil.hw, hil := hil } }, ?_, rfl⟩
    rw [hbody, onCores]
    exact Exec.zoom_eq_ok.2 ⟨_, hcores, rfl⟩

/-- A client deploys on a live bus, and is answered without an error. The windows of the programs do
not overlap. Then, whatever is served afterwards without a command that loads programs, every core
has its whole binary, and the other words of the program memories are as before the deployment. -/
theorem serve_programs {w : Surroundings} {arguments : Json} {p p₁ p₂ : CommandProcessor}
    (hlive : p.hw.busses.sinkMode = false)
    (hmode : arguments.find? "deployment_mode" = some (.boolean false))
    {programs : List DeployedProgram}
    (hprograms : (w.env.dispatcher arguments).getPrograms = .ok programs)
    (hapart : ProgramsApart p.cores.hil.addresses p.hw.busses.coreAddr programs)
    (hdeploy : (processCommand w "deploy_hil" arguments).run p = .ok deployedResponse p₁)
    {messages : List (Surroundings × Json)} {responses : List Json}
    (hloads : ∀ message ∈ messages, .load ∉ messageAccesses message)
    (hserve : (serve messages).run p₁ = .ok responses p₂) :
    HasPrograms p.cores.hil.addresses p.hw.busses.coreAddr programs p.hw.busses.fCore
      p₂.hw.busses.fCore := by
  obtain ⟨u, hil, hrun, rfl⟩ := (processDeploy_eq_ok hmode).1 hdeploy
  have hfCore := fCore_of_deploy hprograms hlive hrun
  have htouches := touches_serve (A := {a | a ≠ .load}) (fun message hmessage a ha hload =>
    hloads message hmessage (hload ▸ ha)) hserve
  rw [htouches.fCore fun h => h.1 rfl]
  change HasPrograms _ _ _ _ hil.hw.busses.fCore
  rw [hfCore]
  exact hasPrograms_of_apart hapart _

/-- Two programs of three words. -/
def twoPrograms : List DeployedProgram :=
  [⟨"first", 0, 1, 100, 1, [12, 12, 33], ⟨10, 2⟩, []⟩,
    ⟨"second", 1, 1, 100, 1, [12, 12, 65], ⟨10, 2⟩, []⟩]

/-- The argument of a deployment on the HIL logic. -/
def hilMode : Json :=
  .object [("deployment_mode", .boolean false)]

/-- The driver after a deployment from the start. -/
def afterDeploy (hil : HilDeployer) : CommandProcessor :=
  { started with hw := hil.hw, cores := { started.cores with hw := hil.hw, hil := hil } }

/-- This client loads no program. -/
theorem startAndMap_loads : ∀ message ∈ startAndMap, .load ∉ messageAccesses message := by
  rintro message hmessage ⟨commandString, arguments, hasked, hload⟩
  simp only [startAndMap, List.mem_cons, List.not_mem_nil, or_false] at hmessage
  rcases hmessage with rfl | rfl
  · obtain ⟨rfl, -⟩ := Prod.mk.inj (Option.some.inj (Eq.trans (b := some _) rfl hasked))
    exact absurd hload (by decide)
  · obtain ⟨rfl, -⟩ := Prod.mk.inj (Option.some.inj (Eq.trans (b := some _) rfl hasked))
    exact absurd hload (by decide)

theorem serve_twoPrograms : ∃ fCore, HasPrograms .addrMapV2 0x500000000 twoPrograms (fun _ => 0)
    fCore := by
  obtain ⟨u, hil, hrun, hserve⟩ : ∃ u hil,
      (HilDeployer.deploy (Surroundings.of twoPrograms []).env hilMode).run
        { started.cores.hil with hw := started.hw } = .ok u hil ∧
      Exec.returnsIn (fun _ => True) (serve startAndMap) (afterDeploy hil) = true :=
    Exec.exists_of_returnsIn (by decide +kernel)
  obtain ⟨responses, p₂, hserve, -⟩ := Exec.exists_of_returnsIn hserve
  exact ⟨_, serve_programs (w := .of twoPrograms []) (p := started) rfl rfl rfl
    (programsApart_addrMapV2 (by decide) (by decide))
    ((processDeploy_eq_ok rfl).2 ⟨u, hil, hrun, rfl⟩) startAndMap_loads hserve⟩

end CommandProcessor

end UscopeDriver
