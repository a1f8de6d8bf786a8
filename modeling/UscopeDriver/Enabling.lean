import UscopeDriver.History
import UscopeDriver.Schedule

/-!
# Nothing is enabled before it is configured

The log of a deployment, however it ends : up to the enable mask there are only loads and writes to
registers that the specification sets up (`Steps` for the relation `Logs`), then at most one mask,
then the numbers of channels of the cores. What can throw comes before the mask, so a deployment
that throws has not enabled anything (`deploy_enables_last`).
-/

namespace UscopeDriver

open Exec (Frame FrameAt)

/-! ## What is logged -/

/-- A write that reaches a register. -/
def BusOp.WritesTo (a : Nat) (o : BusOp) : Prop :=
  o.type = .controlPlaneWrite ∧ u64 a ∈ o.address

/-- A load, or a direct write to one of the registers `A`. -/
def BusOp.LoadOrWriteAt (A : Nat → Prop) (o : BusOp) : Prop :=
  o.type = .romPlaneWrite ∨ ∃ a value, A a ∧ o = ⟨[u64 a], [value], .controlPlaneWrite⟩

/-- Writes to other registers do not write to this one. -/
theorem BusOp.LoadOrWriteAt.not_writesTo {A : Nat → Prop} {o : BusOp} (h : o.LoadOrWriteAt A)
    {b : Nat} (hA : ∀ a, A a → u64 a ≠ u64 b) : ¬o.WritesTo b := by
  rintro ⟨htype, hb⟩
  rcases h with h | ⟨a, value, ha, rfl⟩
  · rw [h] at htype
    cases htype
  · exact hA a ha (List.mem_singleton.1 hb).symm

/-- Every end of a run, also one that the process does not survive. -/
abbrev Always {σ α : Type} (R : σ → σ → Prop) (m : Exec Failure σ α) : Prop :=
  Frame (fun _ => False) True R m

/-- The log grows by operations with `P`. -/
def Logs (P : BusOp → Prop) (hw hw' : FpgaBridge) : Prop :=
  ∃ ops, (∀ o ∈ ops, P o) ∧ hw'.busses.operations = hw.busses.operations ++ ops

/-- With the same record nothing was recorded. -/
theorem logs_of_eq {P : BusOp → Prop} {hw hw' : FpgaBridge}
    (h : hw'.busses.operations = hw.busses.operations) : Logs P hw hw' :=
  ⟨[], by simp, by simp [h]⟩

/-- Records one after the other are one record. -/
theorem Logs.trans {P : BusOp → Prop} {hw₁ hw₂ hw₃ : FpgaBridge} (h : Logs P hw₁ hw₂)
    (h' : Logs P hw₂ hw₃) : Logs P hw₁ hw₃ := by
  obtain ⟨ops, hops, h⟩ := h
  obtain ⟨ops', hops', h'⟩ := h'
  refine ⟨ops ++ ops', fun o ho => ?_, by rw [h', h, List.append_assoc]⟩
  rcases List.mem_append.1 ho with ho | ho
  · exact hops o ho
  · exact hops' o ho

instance (P : BusOp → Prop) : IsPreorder DeployerBase fun s s' => Logs P s.hw s'.hw where
  refl := fun _ => logs_of_eq rfl
  trans := fun _ _ _ => Logs.trans

namespace BusAccessor

/-- The log stays. -/
def SameLog (b b' : BusAccessor) : Prop := b'.operations = b.operations

instance : IsPreorder BusAccessor SameLog where
  refl := fun _ => rfl
  trans := fun _ _ _ h h' => h'.trans h

/-- The write is logged before anything can go wrong. -/
theorem always_writeRegister (address data : Nat) :
    Always (fun b b' => b'.operations = b.operations ++ [(Request.write address data).op])
      (writeRegister [address] data) := by
  intro b
  refine FrameAt.bind_of_eq_ok rfl (FrameAt.bind_of_eq_ok rfl ?_)
  have hstore : Always SameLog (storeRegister address data) :=
    (frame_accessRegister (Or.inr trivial) address).bind fun _ => Exec.frame_modify fun _ => rfl
  exact FrameAt.mono (R := SameLog) (Exec.frame_when (fun _ => hstore) _) id fun _ h => h

/-- The load is logged when it is done. -/
theorem always_loadProgram (address : Nat) (program : List Nat) :
    Always (fun b b' => b'.operations = b.operations ∨
      b'.operations = b.operations ++ [(Request.load address program).op])
      (loadProgram address program) := by
  intro b
  refine FrameAt.bind_of_eq_ok rfl ?_
  have hstore : Always SameLog (forM program.zipIdx (storeInstruction address)) :=
    Exec.frame_forM fun _ _ => frame_storeInstruction (Or.inr trivial) (fun _ _ => rfl) _ _
  have hwhen : Always SameLog
      (Exec.when (b.sinkMode = false) (forM program.zipIdx (storeInstruction address))) :=
    Exec.frame_when fun _ => hstore
  cases h : (Exec.when (b.sinkMode = false)
      (forM program.zipIdx (storeInstruction address))).run b with
  | error e b' =>
    unfold FrameAt
    rw [EStateM.run_bind, h]
    exact Or.inr ⟨trivial, Or.inl ((hwhen b).of_error h not_false).2⟩
  | ok u b' =>
    refine FrameAt.bind_of_eq_ok h (Or.inr ?_)
    have hlog : b'.operations = b.operations := (hwhen b).of_ok h
    change b'.operations ++ _ = _
    rw [hlog]
    rfl

end BusAccessor

namespace FpgaBridge

/-- However a write ends, it is recorded behind a bitstream. -/
theorem always_writeDirect (addr val : Nat) :
    Always (fun hw hw' => hw'.busses.operations =
      hw.busses.operations ++ hw.logged [.write (u64 addr) (u32 val)]) (writeDirect addr val) := by
  intro hw
  refine FrameAt.bind_of_eq_ok rfl ?_
  by_cases h : hw.fpgaLoaded = true
  · rw [Exec.when, if_pos h]
    refine (BusAccessor.always_writeRegister _ _ hw.busses).zoom fun b hb => ?_
    rw [logged_of_loaded h]
    exact hb
  · rw [Exec.when, if_neg h]
    simp [FrameAt, logged, reachesBus, h]

/-- However a load ends, it is recorded if anything is. -/
theorem always_applyProgram {P : BusOp → Prop} (address : Nat) (program : List Nat)
    (h : P (Request.load (u64 address) program).op) :
    Always (Logs P) (applyProgram address program) := fun hw =>
  (BusAccessor.always_loadProgram _ _ hw.busses).zoom fun b hb => by
    rcases hb with hb | hb
    · exact logs_of_eq hb
    · exact ⟨_, by simpa using h, hb⟩

end FpgaBridge

namespace DeployerBase

/-- However the write ends, it has logged its request. -/
theorem always_writeRegister (pl : Platform) (addr val : Nat) :
    Always (fun s s' => s'.hw.busses.operations =
      s.hw.busses.operations ++ s.hw.logged [regWrite addr val]) (writeRegister pl addr val) := by
  rw [writeRegister, singleWriteRegister_writeObject]
  refine fun s => (FpgaBridge.always_writeDirect _ _ s.hw).zoom fun hw h => ?_
  simpa [regWrite] using h

/-- What a write records is at its register. -/
theorem loadOrWriteAt_of_logged {A : Nat → Prop} {addr val : Nat} (hA : A addr) {hw : FpgaBridge}
    {o : BusOp} (h : o ∈ hw.logged [regWrite addr val]) : o.LoadOrWriteAt A := by
  obtain ⟨r, hr, rfl⟩ := List.mem_map.1 h
  obtain rfl := List.mem_singleton.1 (List.mem_filter.1 hr).1
  exact Or.inr ⟨addr, _, hA, rfl⟩

/-- The stages of a deployment record loads and writes to its registers. -/
theorem steps_logs (A : Nat → Prop) :
    Steps (fun _ => False) True A fun s s' => Logs (BusOp.LoadOrWriteAt A) s.hw s'.hw where
  fails := fun _ => Or.inr trivial
  write := fun pl addr val hA s => (always_writeRegister pl addr val s).mono id
    fun _ h => ⟨_, fun _ => loadOrWriteAt_of_logged hA, h⟩
  load := fun address program s =>
    (FpgaBridge.always_applyProgram (P := BusOp.LoadOrWriteAt A) _ _ (Or.inl rfl) s.hw).zoom
      fun _ h => h
  record := fun h => logs_of_eq (by rw [h.hw])
  enter := fun _ _ => logs_of_eq rfl

end DeployerBase

namespace HilDeployer

/-! ## The log of a deployment -/

/-- A write of the number of channels of a core. -/
def CoreOp (addresses : LogicLayout) (programs : List DeployedProgram) (o : BusOp) : Prop :=
  ∃ p ∈ programs, ∃ n,
    o = ⟨[u64 (controlAddress addresses p.index.toNat)], [n], .controlPlaneWrite⟩

/-- At most one operation writes the enable register, and after it only the cores are told their
channels. -/
def EnabledLast (addresses : LogicLayout) (programs : List DeployedProgram) (ops : List BusOp) :
    Prop :=
  ∃ before mask cores, ops = before ++ mask ++ cores ∧
    (∀ o ∈ before, ¬o.WritesTo (enableAddress addresses)) ∧ mask.length ≤ 1 ∧
    ∀ o ∈ cores, CoreOp addresses programs o ∧ ¬o.WritesTo (enableAddress addresses)

/-- On this layout the registers that the specification sets up, the enable register and
`hil_control` are apart. -/
structure KeepsApart (dispatcher : EmulatorDispatcher) (addresses : LogicLayout) : Prop where
  enable : ∀ a, dispatcher.SetupRegister addresses a → u64 a ≠ u64 (enableAddress addresses)
  hilControl : ∀ a, dispatcher.SetupRegister addresses a → u64 a ≠ u64 addresses.bases.hilControl
  distinct : u64 (enableAddress addresses) ≠ u64 addresses.bases.hilControl

/-- The mask has a bit for each core. -/
theorem enableSequencer_eq_ok {pl : Platform} {nCores : Nat} {s s' : HilDeployer} {u : Unit} :
    (enableSequencer pl nCores).run s = .ok u s' ↔
      s.hw.Admits [regWrite (enableAddress s.addresses) (2 ^ u16 nCores - 1)] ∧
        s' = s.emit [regWrite (enableAddress s.addresses) (2 ^ u16 nCores - 1)] := by
  simp only [enableSequencer, Exec.bind_eq_ok, Exec.gets_eq_ok, writeRegister_eq_ok, and_assoc,
    exists_and_left, exists_eq_left]
  rfl

/-- However the write of the mask ends, it is recorded. -/
theorem always_enableSequencer (pl : Platform) (nCores : Nat) :
    Always (fun s s' => s'.hw.busses.operations = s.hw.busses.operations ++
      s.hw.logged [regWrite (enableAddress s.addresses) (2 ^ u16 nCores - 1)])
      (enableSequencer pl nCores) := fun s =>
  FrameAt.bind_of_eq_ok rfl
    ((DeployerBase.always_writeRegister pl _ _ s.toDeployerBase).zoom fun _ hb => hb)

/-- However the last stage ends, it has recorded numbers of channels. -/
theorem always_setupCores (pl : Platform) (programs : List DeployedProgram) (s : HilDeployer) :
    FrameAt (fun _ => False) True
      (Over fun b b' => Logs (CoreOp s.addresses programs) b.hw b'.hw)
      (setupCores pl programs) s := by
  refine Exec.frameAt_forM (I := fun t => t.addresses = s.addresses)
    (fun p hp t u t' ht hrun => ?_) (fun p hp t ht => ?_) rfl
  · obtain ⟨-, -, rfl⟩ := ((round_setupProgramCore pl).run p t u t').1 hrun
    exact ht
  · refine (Exec.frame_gets _ t).bind fun addresses t₁ h₁ _ => ?_
    obtain ⟨rfl, rfl⟩ := Exec.gets_eq_ok.1 h₁
    rw [ht]
    refine ((Exec.frame_gets _).bind fun n => frame_base fun b => FrameAt.mono
      (DeployerBase.always_writeRegister pl _ _ b) id fun b' h => ⟨_, fun o ho => ?_, h⟩) t₁
    obtain ⟨r, hr, rfl⟩ := List.mem_map.1 ho
    obtain rfl := List.mem_singleton.1 (List.mem_filter.1 hr).1
    exact ⟨p, hp, _, rfl⟩

/-- From the enable mask on. -/
theorem always_enableCores (pl : Platform) (programs : List DeployedProgram) (s : HilDeployer) :
    FrameAt (fun _ => False) True
      (fun s s' => ∃ cores, s'.hw.busses.operations = s.hw.busses.operations ++
        s.hw.logged [regWrite (enableAddress s.addresses) (2 ^ u16 programs.length - 1)] ++ cores ∧
          ∀ o ∈ cores, CoreOp s.addresses programs o)
      (do enableSequencer pl programs.length
          setupCores pl programs) s := by
  have hmask := always_enableSequencer pl programs.length s
  cases h : (enableSequencer pl programs.length).run s with
  | error e s' =>
    unfold FrameAt
    rw [EStateM.run_bind, h]
    exact Or.inr ⟨trivial, [], by rw [List.append_nil]; exact (hmask.of_error h not_false).2,
      by simp⟩
  | ok u s' =>
    have hlog := hmask.of_ok h
    obtain ⟨-, rfl⟩ := enableSequencer_eq_ok.1 h
    refine FrameAt.bind_of_eq_ok h
      ((always_setupCores pl programs _).mono id fun s'' hcores => ?_)
    obtain ⟨cores, hcores, hops⟩ := hcores.base
    exact ⟨cores, hops.trans (by rw [hlog]), hcores⟩

/-! ## The whole deployment -/

section Deploy

variable {Spec : Type} {env : Environment Spec} {arguments : Spec} {s : HilDeployer}

/-- A deployment returns the programs that it has configured. -/
theorem returns_configure : Exec.Returns
    (fun programs => (env.dispatcher arguments).getPrograms = .ok programs)
    (configure env arguments) := by
  refine Exec.returns_bind fun _ _ => Exec.returns_bind fun _ _ => Exec.returns_bind fun _ _ =>
    Exec.returns_bind fun programs ⟨_, _, hprograms⟩ => ?_
  exact Exec.returns_bind fun _ _ => Exec.returns_bind fun _ _ => Exec.returns_bind fun _ _ =>
    Exec.returns_bind fun _ _ => Exec.returns_bind fun _ _ => Exec.returns_bind fun _ _ =>
    Exec.returns_bind fun _ _ => Exec.returns_bind fun _ _ => Exec.returns_bind fun _ _ =>
    Exec.returns_bind fun _ _ => Exec.returns_bind fun _ _ => Exec.returns_bind fun _ _ =>
    Exec.returns_bind fun _ _ => Exec.returns_bind fun _ _ => Exec.returns_bind fun _ _ =>
    Exec.returns_pure (callDispatcher_eq_ok.1 hprograms).1

/-- However a deployment ends, its log up to the mask has no write outside the registers of the
specification, and a failure that can be caught comes before the mask. -/
theorem log_of_deploy (s : HilDeployer) :
    (∀ s', ((∃ u, (deploy env arguments).run s = .ok u s') ∨
        ∃ e, (deploy env arguments).run s = .error e s') →
      ∃ before mask cores, s'.hw.busses.operations = before ++ mask ++ cores ∧
        (∀ o ∈ before, o.LoadOrWriteAt ((env.dispatcher arguments).SetupRegister s.addresses)) ∧
        mask.length ≤ 1 ∧
        (∀ o ∈ mask, ∃ v, o = (Request.write (u64 (enableAddress s.addresses)) v).op) ∧
        ∀ o ∈ cores,
          CoreOp s.addresses ((env.dispatcher arguments).getPrograms.toOption.getD []) o) ∧
    ∀ e s', (deploy env arguments).run s = .error e s' → e.Throws →
      ∀ o ∈ s'.hw.busses.operations,
        o.LoadOrWriteAt ((env.dispatcher arguments).SetupRegister s.addresses) := by
  have hconfigure := frameAt_configure (DeployerBase.steps_logs _)
    (fun _ _ h _ _ _ => logs_of_eq (by rw [h])) env arguments s (fun _ => trivial) fun _ h => h
  cases h : (configure env arguments).run s with
  | error e t =>
    obtain ⟨before, hbefore, hops⟩ := (hconfigure.of_error h not_false).2.base
    have hrun : (deploy env arguments).run s = .error e t := by
      rw [deploy_eq_configure, EStateM.run_bind, h]
    rw [hrun]
    constructor
    · rintro s' (⟨u, hend⟩ | ⟨e', hend⟩)
      · cases hend
      · cases hend
        exact ⟨before, [], [], by simpa [reset] using hops, hbefore, by simp, by simp, by simp⟩
    · rintro e' s' hend -
      cases hend
      rw [hops]
      exact hbefore
  | ok programs t =>
    obtain ⟨before, hbefore, hops⟩ := (hconfigure.of_ok h).base
    have hprograms := returns_configure s programs t h
    have haddresses := ((frameAt_configure (E := True) steps_keepsBase
      (fun _ _ h ha hc _ => keepsBase_of_hw h ha hc) env arguments s (fun _ => trivial)
      fun _ _ => trivial).of_ok h).base.addresses
    change t.addresses = s.addresses at haddresses
    have hrun : (deploy env arguments).run s = (do
        enableSequencer env.platform programs.length
        setupCores env.platform programs : Exec Failure HilDeployer Unit).run t := by
      rw [deploy_eq_configure, EStateM.run_bind, h]
    rw [hrun, hprograms]
    have htail := always_enableCores env.platform programs t
    constructor
    · intro s' hend
      have hcores : ∃ cores, s'.hw.busses.operations = t.hw.busses.operations ++
          t.hw.logged [regWrite (enableAddress t.addresses) (2 ^ u16 programs.length - 1)] ++
            cores ∧ ∀ o ∈ cores, CoreOp t.addresses programs o := by
        rcases hend with ⟨u, hend⟩ | ⟨e, hend⟩
        · exact htail.of_ok hend
        · exact (htail.of_error hend not_false).2
      rw [haddresses] at hcores
      obtain ⟨cores, hlog, hcores⟩ := hcores
      refine ⟨before, _, cores, by rw [hlog, hops]; rfl, hbefore, ?_, fun o ho => ?_, hcores⟩
      · exact (List.length_map _).trans_le (List.length_filter_le _ _)
      · obtain ⟨r, hr, rfl⟩ := List.mem_map.1 ho
        obtain rfl := List.mem_singleton.1 (List.mem_filter.1 hr).1
        exact ⟨_, rfl⟩
    · intro e s' hend he
      exact ((frame_enableCores (E := False) _ programs t).of_error hend (not_not.2 he)).1.elim

/-- The map of the tests is such a layout, for as many programs as there can be. -/
theorem keepsApart_addrMapV2 {dispatcher : EmulatorDispatcher}
    (hlen : (dispatcher.getPrograms.toOption.getD []).length ≤ 32) :
    KeepsApart dispatcher .addrMapV2 := by
  have hall : ∀ a, dispatcher.SetupRegister .addrMapV2 a →
      a < 2 ^ 64 ∧ a ≠ 18316595200 ∧ a ≠ 18316656640 := by
    intro a ha
    rcases setupRegister_addrMapV2 ha with h | h | ⟨p, hp, i, hi, hg, h⟩
    · omega
    · have := sequencerRegister_addrMapV2 hlen h
      omega
    · rcases hg with hs | hs <;> rw [hs] at h
      · have hip : inputIpAddress .addrMapV2 p .randomInput = 18316722176 := rfl
        rcases h with rfl | ⟨k, -, rfl⟩
        · omega
        · have := u32_lt ((k + 1) * 4)
          omega
      · have hip : inputIpAddress .addrMapV2 p .waveformInput = 18316787712 := rfl
        obtain ⟨k, hk, rfl⟩ := h
        omega
  have heq : ∀ a b, a < 2 ^ 64 → b < 2 ^ 64 → a ≠ b → u64 a ≠ u64 b := fun a b ha hb h => by
    rwa [u64_of_lt ha, u64_of_lt hb]
  exact ⟨fun a ha => heq _ _ (hall a ha).1 (by decide) (hall a ha).2.1,
    fun a ha => heq _ _ (hall a ha).1 (by decide) (hall a ha).2.2, by decide⟩

/-- A number of channels is written to a register of the specification. -/
theorem KeepsApart.coreOp {dispatcher : EmulatorDispatcher} {addresses : LogicLayout}
    {o : BusOp} (h : CoreOp addresses (dispatcher.getPrograms.toOption.getD []) o) :
    o.LoadOrWriteAt (dispatcher.SetupRegister addresses) := by
  obtain ⟨p, hp, n, rfl⟩ := h
  exact Or.inr ⟨_, n, .core hp, rfl⟩

/-- Nothing is enabled before it is configured, on a layout that keeps `hil_control` and the enable
register apart from the others, and whatever the deployer did before. No end of a deployment has
written `hil_control`. The enable register is written at most once, after everything but the numbers
of channels of the cores, and not at all when the deployment throws. -/
theorem deploy_enables_last (h : KeepsApart (env.dispatcher arguments) s.addresses) :
    (∀ s', ((∃ u, (deploy env arguments).run s = .ok u s') ∨
        ∃ e, (deploy env arguments).run s = .error e s') →
      (∀ o ∈ s'.hw.busses.operations, ¬o.WritesTo s.addresses.bases.hilControl) ∧
        EnabledLast s.addresses ((env.dispatcher arguments).getPrograms.toOption.getD [])
          s'.hw.busses.operations) ∧
    (∀ u s', (deploy env arguments).run s = .ok u s' → ∃ programs slots memories,
      Elaborates (env.dispatcher arguments) programs slots memories ∧
      s'.hw.busses.operations =
        s.hw.logged (programs.map (loadRequest s.addresses) ++
          setupRequests env arguments programs memories
            (prepared env arguments programs slots s) ++
          (List.range programs.length).flatMap (sequencerCoreRequests s.addresses
            (dividers env.platform programs (prepared env arguments programs slots s))
            (shifts env.sort programs (prepared env arguments programs slots s))) ++
          [regWrite (periodAddress s.addresses)
            (timebasePeriod env.platform (prepared env arguments programs slots s))]) ++
        s.hw.logged [regWrite (enableAddress s.addresses) (2 ^ programs.length - 1)] ++
        s.hw.logged (programs.map (prepared env arguments programs slots s).coreRequest)) ∧
    ∀ e s', (deploy env arguments).run s = .error e s' → e.Throws →
      ∀ o ∈ s'.hw.busses.operations, ¬o.WritesTo (enableAddress s.addresses) := by
  obtain ⟨hlog, hthrow⟩ := @log_of_deploy Spec env arguments s
  refine ⟨fun s' hend => ?_, fun u s' hrun => ?_, fun e s' hrun he o ho => ?_⟩
  · obtain ⟨before, mask, cores, hops, hbefore, hlen, hmask, hcores⟩ := hlog s' hend
    refine ⟨fun o ho => ?_, before, mask, cores, hops, fun o ho => ?_, hlen, fun o ho => ?_⟩
    · rw [hops, List.mem_append, List.mem_append] at ho
      rcases ho with (ho | ho) | ho
      · exact (hbefore o ho).not_writesTo h.hilControl
      · obtain ⟨v, rfl⟩ := hmask o ho
        rintro ⟨-, hin⟩
        exact h.distinct (by simpa [Request.op, eq_comm] using hin)
      · exact (KeepsApart.coreOp (hcores o ho)).not_writesTo h.hilControl
    · exact (hbefore o ho).not_writesTo h.enable
    · exact ⟨hcores o ho, (KeepsApart.coreOp (hcores o ho)).not_writesTo h.enable⟩
  · obtain ⟨programs, slots, memories, hel, -, -, rfl⟩ := deploy_eq_ok.1 hrun
    refine ⟨programs, slots, memories, hel, ?_⟩
    rw [operations_deployed, ← FpgaBridge.logged_append, ← FpgaBridge.logged_append]
    simp only [deploymentRequests, writeRequests, sequencerRequests, List.append_assoc,
      List.cons_append, List.nil_append]
    rfl
  · exact (hthrow e s' hrun he o ho).not_writesTo h.enable

/-- Two programs on the map of the tests. -/
theorem deploy_enables_last_pair : ∃ u s',
    (deploy (pairEnvironment 100 50) ()).run fresh = .ok u s' ∧
      EnabledLast .addrMapV2 (programPair 100 50) s'.hw.busses.operations := by
  obtain ⟨u, s', h, -⟩ := deploy_pair
  exact ⟨u, s', h, ((deploy_enables_last (keepsApart_addrMapV2 (by decide))).1 s'
    (Or.inl ⟨u, h⟩)).2⟩

end Deploy

end HilDeployer

end UscopeDriver
