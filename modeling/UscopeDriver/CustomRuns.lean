import UscopeDriver.CustomInputs

/-!
# Custom deployments one after the other

The deployer of the HIL starts each deployment with all channels of the noise generator free. The
custom deployer counts on. Its random inputs take the channels in one sequence through all
deployments, so no channel is given to two of them, and its inputs pile up
(`deployments_accumulate`).
-/

namespace UscopeDriver

namespace CustomDeployer

open HilDeployer (Elaborates)

variable {w : Surroundings} {arguments : Json} {s t s' : CustomDeployer}

/-- The calls of `setup_input` that a deployment makes. -/
def setupsOf (addresses : LogicLayout) (deployment : Surroundings × Json) : List InputSetup :=
  let dispatcher := deployment.1.env.dispatcher deployment.2
  deploymentSetups addresses dispatcher (dispatcher.getPrograms.toOption.getD [])

/-- The calls for random inputs. -/
def noiseSetups (calls : List InputSetup) : List InputSetup :=
  calls.filter (·.input.sourceType = .randomInput)

/-- The write that gives a channel of the noise generator to a random input. -/
def noiseWrite (setup : InputSetup × Nat) : Request :=
  regWrite (setup.1.ipAddress + (setup.2 + 1) * 4) setup.1.dest

/-- From `s` to `s'` the inputs of these calls were added to those there were, and the random ones
among them took the next free channels, in order. -/
structure Adds (calls : List InputSetup) (s s' : CustomDeployer) : Prop where
  addresses : s'.addresses = s.addresses
  fpgaLoaded : s'.hw.fpgaLoaded = s.hw.fpgaLoaded
  inputs : s'.inputs = s.inputs ++
    (calls.filter (·.input.sourceType.IsConstant)).map (·.metadata)
  activeRandomInputs : s'.activeRandomInputs = s.activeRandomInputs + (noiseSetups calls).length
  written : ∃ ops, s'.hw.busses.operations = s.hw.busses.operations ++ ops ∧
    List.Sublist
      ((((noiseSetups calls).zipIdx s.activeRandomInputs).map noiseWrite).map Request.op) ops

theorem Adds.nil (s : CustomDeployer) : Adds [] s s :=
  ⟨rfl, rfl, by simp, rfl, [], by simp, by simp [noiseSetups]⟩

theorem Adds.append {calls calls' : List InputSetup} (h : Adds calls s t) (h' : Adds calls' t s') :
    Adds (calls ++ calls') s s' := by
  obtain ⟨ops, hops, hsub⟩ := h.written
  obtain ⟨ops', hops', hsub'⟩ := h'.written
  have hnoise : noiseSetups (calls ++ calls') = noiseSetups calls ++ noiseSetups calls' :=
    List.filter_append ..
  refine ⟨h'.addresses.trans h.addresses, h'.fpgaLoaded.trans h.fpgaLoaded, ?_, ?_,
    ops ++ ops', ?_, ?_⟩
  · rw [h'.inputs, h.inputs, List.filter_append, List.map_append, List.append_assoc]
  · rw [h'.activeRandomInputs, h.activeRandomInputs, hnoise, List.length_append, Nat.add_assoc]
  · rw [hops', hops, List.append_assoc]
  · rw [h.activeRandomInputs] at hsub'
    rw [hnoise, List.zipIdx_append, List.map_append, List.map_append]
    exact hsub.append hsub'

/-! ## One deployment -/

/-- The calls take the channels one by one, as long as the address of a channel does not wrap. -/
theorem noise_recordSetups (pl : Platform) (calls : List InputSetup) (s : CustomDeployer)
    (hchannels : s.activeRandomInputs + (noiseSetups calls).length < 2 ^ 30) :
    (recordSetups calls s).activeRandomInputs =
        s.activeRandomInputs + (noiseSetups calls).length ∧
      List.Sublist (((noiseSetups calls).zipIdx s.activeRandomInputs).map noiseWrite)
        (setupRequests pl calls s) := by
  -- the count of the state before each call is the channel that a random input is given
  induction calls generalizing s with
  | nil => exact ⟨rfl, List.nil_sublist _⟩
  | cons c calls ih =>
    have hrecord : recordSetups (c :: calls) s = recordSetups calls (recordSetup c s) := rfl
    have hrequests : setupRequests pl (c :: calls) s =
      c.requests pl s.toDeployerBase ++ setupRequests pl calls (recordSetup c s) := rfl
    have hactive : (recordSetup c s).activeRandomInputs = _ :=
      c.record_activeRandomInputs s.toDeployerBase
    rw [hrecord, hrequests]
    by_cases hc : c.input.sourceType = .randomInput
    · have hnoise : noiseSetups (c :: calls) = c :: noiseSetups calls :=
        List.filter_cons_of_pos (by simpa using hc)
      rw [hnoise, List.length_cons] at hchannels ⊢
      rw [if_pos hc, u32_of_lt (by omega)] at hactive
      obtain ⟨hcount, hsub⟩ := ih (recordSetup c s) (by rw [hactive]; omega)
      rw [hactive] at hcount hsub
      refine ⟨by omega, ?_⟩
      rw [c.requests_of_random pl hc, InputSetup.randomRequests, u32_of_lt (by omega)]
      exact hsub.cons_cons _
    · have hnoise : noiseSetups (c :: calls) = noiseSetups calls :=
        List.filter_cons_of_neg (by simpa using hc)
      rw [hnoise] at hchannels ⊢
      rw [if_neg hc] at hactive
      obtain ⟨hcount, hsub⟩ := ih (recordSetup c s) (by rw [hactive]; exact hchannels)
      rw [hactive] at hcount hsub
      exact ⟨hcount, hsub.trans (List.sublist_append_right ..)⟩

/-- A deployment adds its own inputs. -/
theorem adds_deploy (hloaded : s.hw.fpgaLoaded = true)
    (hchannels : s.activeRandomInputs +
      (noiseSetups (setupsOf s.addresses (w, arguments))).length < 2 ^ 30) {u : Unit}
    (h : (deploy w arguments).run s = .ok u s') :
    Adds (setupsOf s.addresses (w, arguments)) s s' := by
  obtain ⟨programs, slots, memories, helaborates, -, -, rfl⟩ := deploy_eq_ok.1 h
  have hsetups : setupsOf s.addresses (w, arguments) =
      deploymentSetups s.addresses (w.env.dispatcher arguments) programs := by
    simp only [setupsOf, helaborates.getPrograms]
    rfl
  rw [hsetups] at hchannels ⊢
  set calls := deploymentSetups s.addresses (w.env.dispatcher arguments) programs with hcalls
  have hhw : (deployed w arguments programs slots s).hw = s.hw := recordSetups_hw _ calls
  obtain ⟨hcount, hsub⟩ := noise_recordSetups w.env.platform calls
    (prepared programs slots s) hchannels
  refine ⟨?_, ?_, ?_, hcount,
    s.hw.logged (deploymentRequests w arguments programs slots memories s), ?_, ?_⟩
  · change (recordSetups calls (prepared programs slots s)).addresses = s.addresses
    rw [recordSetups_eq]
    rfl
  · rw [emit_hw, hhw, FpgaBridge.performAll_fpgaLoaded]
  · exact recordSetups_inputs calls (prepared programs slots s)
  · rw [emit_hw, hhw, FpgaBridge.performAll_operations]
  · -- the requests of the inputs stand between those of the programs and those of the cores
    rw [FpgaBridge.logged_of_loaded hloaded]
    refine List.Sublist.map _ (hsub.trans ?_)
    exact (List.sublist_append_right ..).trans (List.sublist_append_left ..)

/-! ## Runs -/

/-- Whatever is deployed, the inputs of all deployments are there in the end, and all their random
inputs have channels of their own. -/
theorem deployments_accumulate {deployments : List (Surroundings × Json)}
    (hloaded : s.hw.fpgaLoaded = true)
    (hchannels : s.activeRandomInputs +
      (noiseSetups (deployments.flatMap (setupsOf s.addresses))).length < 2 ^ 30) {u : PUnit}
    (h : (forM deployments fun deployment => deploy deployment.1 deployment.2).run s = .ok u s') :
    Adds (deployments.flatMap (setupsOf s.addresses)) s s' := by
  induction deployments generalizing s with
  | nil =>
    obtain ⟨-, rfl⟩ := Exec.forM_nil_eq_ok.1 h
    exact .nil _
  | cons deployment deployments ih =>
    obtain ⟨w, arguments⟩ := deployment
    obtain ⟨t, hdeploy, hrest⟩ := Exec.forM_cons_eq_ok.1 h
    rw [List.flatMap_cons, noiseSetups, List.filter_append, List.length_append] at hchannels
    have hadds : Adds (setupsOf s.addresses (w, arguments)) s t :=
      adds_deploy hloaded (by rw [noiseSetups]; omega) hdeploy
    have hactive := hadds.activeRandomInputs
    rw [noiseSetups] at hactive
    have hadds' := ih (hadds.fpgaLoaded.trans hloaded)
      (by rw [hadds.addresses, noiseSetups]; omega) hrest
    rw [hadds.addresses] at hadds'
    rw [List.flatMap_cons]
    exact hadds.append hadds'

/-- Two programs with a random input each, deployed twice. -/
def noiseTwice : List (Surroundings × Json) :=
  List.replicate 2 (customSurroundings (twoCores .randomInput), .null)

theorem deployments_accumulate_noiseTwice : ∃ u s',
    (forM noiseTwice fun deployment => deploy deployment.1 deployment.2).run fresh = .ok u s' ∧
      Adds (noiseTwice.flatMap (setupsOf fresh.addresses)) fresh s' ∧
      s'.activeRandomInputs = 4 := by
  obtain ⟨u, s', h, -⟩ := Exec.exists_of_returnsIn (p := fun _ => True)
    (show Exec.returnsIn (fun _ => True)
      (forM noiseTwice fun deployment => deploy deployment.1 deployment.2) fresh = true by
        decide +kernel)
  have hadds := deployments_accumulate rfl (by decide +kernel) h
  exact ⟨u, s', h, hadds, hadds.activeRandomInputs.trans (by decide +kernel)⟩

end CustomDeployer

end UscopeDriver
