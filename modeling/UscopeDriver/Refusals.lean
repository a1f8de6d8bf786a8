import UscopeDriver.Library.TwoRuns
import UscopeDriver.ServedRuns

/-!
# Requests that are refused

A response with a code that is not `ok` is a refusal. No command touches the driver before it
refuses (`alike_of_refused`), and an answer depends on nothing but what the endpoints see of the
driver (`sameAt_answer`). So requests that were refused can be left out of any run, without a
difference for the others (`serve_unrefused`).
-/

namespace UscopeDriver

/-- The response is a refusal. -/
def Response.IsRefusal (r : Response) : Prop :=
  r.responseCode ≠ .ok

/-- A response with the code `ok` is no refusal. -/
theorem not_isRefusal_ok {data : Option Json} :
    ¬Response.IsRefusal { responseCode := .ok, data := data } :=
  fun h => h rfl

/-- What ends in a response with the code `ok` does not refuse. -/
theorem returns_ok {σ β : Type} {m : Exec Failure σ β} {f : β → Response}
    (h : ∀ b, (f b).responseCode = .ok) :
    Exec.Returns (fun r => ¬Response.IsRefusal r) (m >>= fun b => pure (f b)) :=
  Exec.returns_bind_pure fun b => not_not.2 (h b)

/-- What always answers `ok` never refuses. -/
theorem inert_of_ok {σ β : Type} {m : Exec Failure σ β} {f : β → Response}
    (h : ∀ b, (f b).responseCode = .ok) :
    Exec.Inert Response.IsRefusal (m >>= fun b => pure (f b)) :=
  Exec.inert_of_returns (returns_ok h)

/-! ## The endpoints -/

namespace ControlEndpoints

/-- A refused write has not reached the bus. -/
theorem inert_processSingleWriteRegister (pl : Platform) (validator : SchemaValidator)
    (arguments : Json) :
    Exec.Inert Response.IsRefusal (processSingleWriteRegister pl validator arguments) := by
  unfold processSingleWriteRegister
  split
  · exact Exec.inert_pure _
  · refine Exec.inert_bind (moves_checkArguments _ _ _) fun passed => Exec.inert_ite ?_ ?_
    · exact inert_of_ok fun _ => rfl
    · exact Exec.inert_pure _

/-- A refused read has not either. -/
theorem inert_processSingleReadRegister (w : Surroundings) (arguments : Json) :
    Exec.Inert Response.IsRefusal (processSingleReadRegister w arguments) :=
  Exec.inert_ite (Exec.inert_pure _)
    (Exec.inert_bind (Json.moves_get _ _) fun _ => inert_of_ok fun _ => rfl)

/-- A bitstream that is not loaded changes nothing. -/
theorem inert_processLoadBitstream (w : Surroundings) (arguments : Json) :
    Exec.Inert Response.IsRefusal (processLoadBitstream w arguments) := by
  unfold processLoadBitstream
  split
  · refine Exec.inert_bind (Exec.moves_require _ _) fun data => ?_
    rw [FpgaBridge.loadBitstream, bind_assoc]
    refine Exec.inert_bind (Exec.moves_ofExcept _) fun driver => ?_
    cases w.loadBitstream driver data with
    | refused => exact Exec.inert_pure _
    | status status =>
      simp only
      split_ifs
      · exact Exec.inert_pure _
      · rw [bind_assoc]
        exact inert_of_ok fun _ => rfl
  · exact Exec.inert_pure _

/-- Nor has a refused filter. -/
theorem inert_processApplyFilter (w : Surroundings) (arguments : Json) :
    Exec.Inert Response.IsRefusal (processApplyFilter w arguments) := by
  unfold processApplyFilter
  split
  · exact Exec.inert_pure _
  · refine Exec.inert_bind (Json.moves_atOrNull _ _) fun _ =>
      Exec.inert_bind (Json.moves_get _ _) fun d => Exec.inert_ite ?_ (Exec.inert_pure _)
    exact Exec.inert_bind (Json.moves_get _ _) fun _ =>
      Exec.inert_bind (Json.moves_atOrNull _ _) fun _ =>
      Exec.inert_bind (Json.moves_get _ _) fun _ => inert_of_ok fun _ => rfl

/-- No control command changes anything and then refuses. -/
theorem inert_processCommand (w : Surroundings) (commandString : String) (arguments : Json) :
    Exec.Inert Response.IsRefusal (processCommand w commandString arguments) :=
  Exec.inert_ite (inert_processLoadBitstream _ _) <|
  Exec.inert_ite (inert_processSingleWriteRegister _ _ _) <|
  Exec.inert_ite (inert_processSingleReadRegister _ _) <|
  Exec.inert_ite (inert_processApplyFilter _ _) (Exec.inert_pure _)

end ControlEndpoints

namespace ScopeEndpoints

theorem inert_processSetScalingFactors (arguments : Json) :
    Exec.Inert Response.IsRefusal (processSetScalingFactors arguments) := by
  unfold processSetScalingFactors
  split
  · exact Exec.inert_ite (Exec.inert_pure _) <| Exec.inert_ite (Exec.inert_pure _) <|
      Exec.inert_bind (Json.moves_get _ _) fun _ => inert_of_ok fun _ => rfl
  · exact Exec.inert_pure _

theorem inert_processSetChannelStatus (arguments : Json) :
    Exec.Inert Response.IsRefusal (processSetChannelStatus arguments) := by
  unfold processSetChannelStatus
  split
  · exact Exec.inert_of_returns (Exec.returns_bind fun _ _ => returns_ok fun _ => rfl)
  · exact Exec.inert_pure _

/-- An address is checked before it is set. -/
theorem inert_processSetScopeAddress (w : Surroundings) (arguments : Json) :
    Exec.Inert Response.IsRefusal (processSetScopeAddress w arguments) := by
  refine Exec.inert_bind (Json.moves_atOrNull _ _) fun address => ?_
  split
  · exact Exec.inert_pure _
  · refine Exec.inert_bind (Json.moves_atOrNull _ _) fun offset => ?_
    split
    · exact Exec.inert_bind (Json.moves_get _ _) fun _ => inert_of_ok fun _ => rfl
    · exact Exec.inert_pure _

/-- Arguments of an acquisition that are refused are answered with the code `ok`. -/
theorem returns_processSetAcquisition (pl : Platform) (arguments : Json) :
    Exec.Returns (fun r => ¬Response.IsRefusal r) (processSetAcquisition pl arguments) :=
  Exec.returns_bind fun _ _ => Exec.returns_bind fun _ _ => Exec.returns_bind fun _ _ =>
    Exec.returns_bind fun _ _ => Exec.returns_bind fun _ _ => Exec.returns_bind fun _ _ =>
    Exec.returns_bind fun _ _ => returns_ok fun _ => rfl

/-- No scope command changes anything and then refuses. -/
theorem inert_processCommand (w : Surroundings) (commandString : String) (arguments : Json) :
    Exec.Inert Response.IsRefusal (processCommand w commandString arguments) :=
  Exec.inert_ite (inert_of_ok fun _ => rfl) <|
  Exec.inert_ite (inert_processSetScalingFactors _) <|
  Exec.inert_ite (Exec.inert_of_returns (Exec.returns_bind fun _ _ => returns_ok fun _ => rfl)) <|
  Exec.inert_ite (inert_processSetChannelStatus _) <|
  Exec.inert_ite (inert_of_ok fun _ => rfl) <|
  Exec.inert_ite (Exec.inert_of_returns (returns_processSetAcquisition _ _)) <|
  Exec.inert_ite (inert_processSetScopeAddress _ _) (Exec.inert_pure _)

end ScopeEndpoints

namespace CoresEndpoints

/-- A refused program is not loaded. -/
theorem inert_processApplyProgram (w : Surroundings) (arguments : Json) :
    Exec.Inert Response.IsRefusal (processApplyProgram w arguments) := by
  unfold processApplyProgram
  split
  · exact Exec.inert_pure _
  · refine Exec.inert_bind (Json.moves_at' _ _) fun _ =>
      Exec.inert_bind (Json.moves_get _ _) fun d => Exec.inert_ite ?_ (Exec.inert_pure _)
    exact Exec.inert_bind (Json.moves_get _ _) fun _ =>
      Exec.inert_bind (Json.moves_at' _ _) fun _ =>
      Exec.inert_bind (Json.moves_get _ _) fun _ => inert_of_ok fun _ => rfl

/-- Also a deployment that failed is answered with the code `ok`. -/
theorem returns_processDeployHil (w : Surroundings) (arguments : Json) :
    Exec.Returns (fun r => ¬Response.IsRefusal r) (processDeployHil w arguments) := by
  refine Exec.returns_catching (Exec.returns_bind fun _ _ => Exec.returns_bind fun mode _ => ?_)
    fun _ => Exec.returns_pure not_isRefusal_ok
  split_ifs
  · exact returns_ok fun _ => rfl
  · exact returns_ok fun _ => rfl

theorem inert_processHilSelectOut (w : Surroundings) (arguments : Json) :
    Exec.Inert Response.IsRefusal (processHilSelectOut w arguments) := by
  unfold processHilSelectOut
  split
  · exact Exec.inert_pure _
  · exact Exec.inert_of_returns (Exec.returns_bind fun _ _ => Exec.returns_bind fun _ _ =>
      Exec.returns_bind fun _ _ => Exec.returns_bind fun _ _ => Exec.returns_bind fun _ _ =>
      Exec.returns_bind fun _ _ => Exec.returns_bind fun _ _ => Exec.returns_bind fun _ _ =>
      returns_ok fun _ => rfl)

/-- An update is never refused. -/
theorem returns_processHilSetIn (w : Surroundings) (arguments : Json) :
    Exec.Returns (fun r => ¬Response.IsRefusal r) (processHilSetIn w arguments) :=
  Exec.returns_bind fun _ _ => Exec.returns_bind fun _ _ => Exec.returns_bind fun _ _ =>
    Exec.returns_bind fun _ _ => Exec.returns_bind fun _ _ => Exec.returns_bind fun _ _ =>
    Exec.returns_bind fun _ _ => Exec.returns_bind fun _ _ => returns_ok fun _ => rfl

theorem inert_processHilDebug (w : Surroundings) (arguments : Json) :
    Exec.Inert Response.IsRefusal (processHilDebug w arguments) := by
  unfold processHilDebug
  split
  · exact Exec.inert_bind (Json.moves_get _ _) fun _ => Exec.inert_ite (Exec.inert_pure _)
      (Exec.inert_of_returns (Exec.returns_bind fun _ _ => returns_ok fun _ => rfl))
  · exact Exec.inert_pure _

theorem inert_processCompileProgram (w : Surroundings) (arguments : Json) :
    Exec.Inert Response.IsRefusal (processCompileProgram w arguments) := by
  unfold processCompileProgram
  split
  · exact Exec.inert_pure _
  · exact inert_of_ok fun _ => rfl

/-- No core command changes anything and then refuses. -/
theorem inert_processCommand (w : Surroundings) (commandString : String) (arguments : Json) :
    Exec.Inert Response.IsRefusal (processCommand w commandString arguments) :=
  Exec.inert_ite (inert_processApplyProgram _ _) <|
  Exec.inert_ite (Exec.inert_of_returns (returns_processDeployHil _ _)) <|
  Exec.inert_ite (Exec.inert_pure _) <|
  Exec.inert_ite (inert_processHilSelectOut _ _) <|
  Exec.inert_ite (Exec.inert_of_returns (returns_processHilSetIn _ _)) <|
  Exec.inert_ite (inert_of_ok fun _ => rfl) <|
  Exec.inert_ite (inert_of_ok fun _ => rfl) <|
  Exec.inert_ite (inert_processHilDebug _ _) <|
  Exec.inert_ite (inert_of_ok fun _ => rfl) <|
  Exec.inert_ite (inert_of_ok fun _ => rfl) <|
  Exec.inert_ite (inert_processCompileProgram _ _) <|
  Exec.inert_ite (Exec.inert_of_returns (Exec.returns_bind fun _ _ => returns_ok fun _ => rfl)) <|
  Exec.inert_ite (inert_of_ok fun _ => rfl) <|
  Exec.inert_ite (inert_of_ok fun _ => rfl) (Exec.inert_pure _)

end CoresEndpoints

namespace PlatformEndpoints

theorem inert_processGetClock (w : Surroundings) (arguments : Json) :
    Exec.Inert Response.IsRefusal (processGetClock w arguments) := by
  unfold processGetClock
  split
  · exact Exec.inert_pure _
  · refine Exec.inert_of_returns (Exec.returns_bind fun id _ => ?_)
    split_ifs
    · exact Exec.returns_bind fun _ _ => returns_ok fun _ => rfl
    · exact Exec.returns_bind fun _ _ => returns_ok fun _ => rfl

/-- A base clock that is not set is as before. -/
theorem inert_setBaseClock (pl : Platform) (dev : Devices) (clkN : UInt8) (clkF : UInt64) :
    Exec.Inert Response.IsRefusal (onTiming (TimingManager.setBaseClock pl dev clkN clkF) >>=
      fun code => pure { responseCode := code }) := by
  intro s r s' hrun hrefused
  obtain ⟨code, t, hclock, hpure⟩ := Exec.bind_eq_ok.1 hrun
  obtain ⟨rfl, rfl⟩ := Exec.pure_eq_ok.1 hpure
  obtain ⟨tm, htm, rfl⟩ := Exec.zoom_eq_ok.1 hclock
  obtain rfl := TimingManager.eq_of_setBaseClock_failed (Or.inr ⟨code, hrefused, htm⟩)
  rfl

/-- A generated clock is always set. -/
theorem returns_setGeneratedClock (pl : Platform) (clockName : String) (m d p : UInt16) :
    Exec.Returns (· = .ok) (TimingManager.setGeneratedClock pl clockName m d p) := by
  refine Exec.returns_bind fun stored _ => ?_
  cases stored with
  | none => exact Exec.returns_pure rfl
  | some stored =>
    simp only
    split_ifs
    · exact Exec.returns_bind fun _ _ => Exec.returns_bind_pure fun _ => rfl
    · exact Exec.returns_bind_pure fun _ => rfl

/-- A clock is refused before it is set. -/
theorem inert_processSetClock (w : Surroundings) (arguments : Json) :
    Exec.Inert Response.IsRefusal (processSetClock w arguments) := by
  unfold processSetClock
  split
  · exact Exec.inert_pure _
  · refine Exec.inert_bind (Json.moves_atOrNull _ _) fun id =>
      Exec.inert_bind (Json.moves_atOrNull _ _) fun value => ?_
    split_ifs
    · exact Exec.inert_bind (Json.moves_get _ _) fun _ =>
        Exec.inert_bind (Json.moves_get _ _) fun _ => inert_setBaseClock _ _ _ _
    · refine Exec.inert_of_returns (Exec.returns_bind fun _ _ => Exec.returns_bind fun _ _ =>
        Exec.returns_bind fun _ _ => Exec.returns_bind fun _ _ =>
        Exec.returns_bind fun code hcode => Exec.returns_pure ?_)
      obtain ⟨s, s', hcode⟩ := hcode
      obtain ⟨tm, htm, -⟩ := Exec.zoom_eq_ok.1 hcode
      obtain rfl := returns_setGeneratedClock _ _ _ _ _ _ _ _ htm
      exact not_isRefusal_ok

/-- No platform command changes anything and then refuses. -/
theorem inert_processCommand (w : Surroundings) (commandString : String) (arguments : Json) :
    Exec.Inert Response.IsRefusal (processCommand w commandString arguments) := by
  refine Exec.inert_ite (inert_processSetClock _ _) <| Exec.inert_ite (inert_processGetClock _ _) <|
    Exec.inert_ite ?_ <| Exec.inert_ite ?_ <|
    Exec.inert_ite (inert_of_ok fun _ => rfl) (Exec.inert_pure _)
  · unfold processGetVersion
    split <;> exact Exec.inert_pure _
  · unfold processSetDebugLevel
    split
    · exact inert_of_ok fun _ => rfl
    · exact Exec.inert_pure _

end PlatformEndpoints

/-! ## The driver -/

namespace CommandProcessor

/-- The endpoints see the same driver. Each of them is lent the one bridge. -/
structure Alike (p q : CommandProcessor) : Prop where
  hw : p.hw = q.hw
  scopeOf : p.scopeOf = q.scopeOf
  coresOf : p.coresOf = q.coresOf
  platform : p.platform = q.platform

theorem Alike.refl (p : CommandProcessor) : Alike p p :=
  ⟨rfl, rfl, rfl, rfl⟩

theorem Alike.trans {p q r : CommandProcessor} (h : Alike p q) (h' : Alike q r) : Alike p r :=
  ⟨h.hw.trans h'.hw, h.scopeOf.trans h'.scopeOf, h.coresOf.trans h'.coresOf,
    h.platform.trans h'.platform⟩

theorem Alike.symm {p q : CommandProcessor} (h : Alike p q) : Alike q p :=
  ⟨h.hw.symm, h.scopeOf.symm, h.coresOf.symm, h.platform.symm⟩

/-- The endpoints with another bridge. -/
theorem Alike.lend {p q : CommandProcessor} (h : Alike p q) (hw : FpgaBridge) :
    { p.scope with hw := hw } = { q.scope with hw := hw } ∧
      { p.cores with hw := hw } = { q.cores with hw := hw } :=
  ⟨congrArg (fun s : ScopeEndpoints => { s with hw := hw }) h.scopeOf,
    congrArg (fun s : CoresEndpoints => { s with hw := hw }) h.coresOf⟩

variable {w : Surroundings} {commandString : String} {arguments : Json} {p q : CommandProcessor}

/-- The one bridge passes to the endpoints that did not hold it. -/
theorem alike_of_hw (h : Alike p q) (hw : FpgaBridge) :
    Alike { p with hw := hw } { q with hw := hw } :=
  ⟨rfl, (h.lend hw).1, (h.lend hw).2, h.platform⟩

theorem alike_of_scope (h : Alike p q) (scope : ScopeEndpoints) :
    Alike { p with hw := scope.hw, scope := scope } { q with hw := scope.hw, scope := scope } :=
  ⟨rfl, rfl, (h.lend scope.hw).2, h.platform⟩

theorem alike_of_cores (h : Alike p q) (cores : CoresEndpoints) :
    Alike { p with hw := cores.hw, cores := cores } { q with hw := cores.hw, cores := cores } :=
  ⟨rfl, (h.lend cores.hw).1, rfl, h.platform⟩

theorem alike_of_platform (h : Alike p q) (platform : PlatformEndpoints) :
    Alike { p with platform := platform } { q with platform := platform } :=
  ⟨h.hw, h.scopeOf, h.coresOf, rfl⟩

/-- Drivers that the endpoints see alike answer a command alike. -/
theorem sameAt_body (h : Alike p q) :
    Exec.SameAt (fun _ => Alike) Alike (body w commandString arguments) p q := by
  unfold body
  split_ifs
  · refine Exec.SameAt.zoom (R := fun _ hw hw' => hw = hw') (E := (· = ·)) ?_
      (fun _ hw _ heq => heq ▸ alike_of_hw h hw) fun hw _ heq => heq ▸ alike_of_hw h hw
    rw [h.hw]
    exact Exec.sameAt_self _ _
  · refine Exec.SameAt.zoom (R := fun _ scope scope' => scope = scope') (E := (· = ·)) ?_
      (fun _ scope _ heq => heq ▸ alike_of_scope h scope)
      fun scope _ heq => heq ▸ alike_of_scope h scope
    change Exec.SameAt _ _ _ p.scopeOf q.scopeOf
    rw [h.scopeOf]
    exact Exec.sameAt_self _ _
  · refine Exec.SameAt.zoom (R := fun _ cores cores' => cores = cores') (E := (· = ·)) ?_
      (fun _ cores _ heq => heq ▸ alike_of_cores h cores)
      fun cores _ heq => heq ▸ alike_of_cores h cores
    change Exec.SameAt _ _ _ p.coresOf q.coresOf
    rw [h.coresOf]
    exact Exec.sameAt_self _ _
  · refine Exec.SameAt.zoom (R := fun _ platform platform' => platform = platform')
      (E := (· = ·)) ?_ (fun _ platform _ heq => heq ▸ alike_of_platform h platform)
      fun platform _ heq => heq ▸ alike_of_platform h platform
    rw [h.platform]
    exact Exec.sameAt_self _ _
  · exact Exec.sameAt_pure h
  · exact Exec.sameAt_pure h

/-- Drivers that the endpoints see alike answer a message alike. -/
theorem sameAt_answer {commandObj : Json} (h : Alike p q) :
    Exec.SameAt (fun _ => Alike) Alike (answer w commandObj) p q := by
  unfold answer
  split
  · exact Exec.sameAt_pure h
  · refine Exec.SameAt.bind (R := fun _ => Alike)
      (Exec.sameAt_require (fun _ _ => h) fun _ => h) fun cmd _ _ h => ?_
    refine Exec.SameAt.bind (R := fun _ => Alike)
      (Exec.sameAt_require (fun _ _ => h) fun _ => h) fun _ _ _ h => ?_
    refine Exec.SameAt.bind (R := fun _ => Alike)
      (Exec.sameAt_require (fun _ _ => h) fun _ => h) fun _ _ _ h => ?_
    exact Exec.SameAt.bind (sameAt_body h) fun _ _ _ h => Exec.sameAt_pure h

/-- A refused command leaves the driver as the endpoints see it. -/
theorem alike_of_refusal {p' : CommandProcessor} {response : Response}
    (h : (body w commandString arguments).run p = .ok response p')
    (hrefusal : response.IsRefusal) : Alike p p' := by
  unfold body at h
  split_ifs at h
  · obtain ⟨hw, hrun, rfl⟩ := Exec.zoom_eq_ok.1 h
    obtain rfl := ControlEndpoints.inert_processCommand _ _ _ _ _ _ hrun hrefusal
    exact .refl p
  · obtain ⟨scope, hrun, rfl⟩ := Exec.zoom_eq_ok.1 h
    obtain rfl := ScopeEndpoints.inert_processCommand _ _ _ _ _ _ hrun hrefusal
    exact ⟨rfl, rfl, rfl, rfl⟩
  · obtain ⟨cores, hrun, rfl⟩ := Exec.zoom_eq_ok.1 h
    obtain rfl := CoresEndpoints.inert_processCommand _ _ _ _ _ _ hrun hrefusal
    exact ⟨rfl, rfl, rfl, rfl⟩
  · obtain ⟨platform, hrun, rfl⟩ := Exec.zoom_eq_ok.1 h
    obtain rfl := PlatformEndpoints.inert_processCommand _ _ _ _ _ _ hrun hrefusal
    exact ⟨rfl, rfl, rfl, rfl⟩
  · obtain ⟨-, rfl⟩ := Exec.pure_eq_ok.1 h
    exact .refl _
  · obtain ⟨-, rfl⟩ := Exec.pure_eq_ok.1 h
    exact .refl _

/-- What a client reads in a response : whether its code is not `ok`. -/
def refused (response : Json) : Bool :=
  match ((response.find? "body").getD response).find? "response_code" with
  | some (.numberUnsigned n) => n ≠ ResponseCode.ok.asInteger
  | _ => true

/-- The code in the response is that of the endpoint. -/
theorem refused_processed {cmd : Json} {r : Response} :
    refused (.object [("cmd", cmd), ("body", r.toJson)]) = true ↔ r.IsRefusal := by
  have hcode : refused (.object [("cmd", cmd), ("body", r.toJson)]) =
    decide (r.responseCode.asInteger ≠ ResponseCode.ok.asInteger) := rfl
  rw [hcode, decide_eq_true_eq, Response.IsRefusal, ResponseCode.asInteger_injective.ne_iff]

/-- A refused message leaves the driver as the endpoints see it. -/
theorem alike_of_refused {message : Surroundings × Json} {p' : CommandProcessor} {response : Json}
    (h : (answer message.1 message.2).run p = .ok response p')
    (hrefused : refused response = true) : Alike p p' := by
  rcases answer_eq_ok h with ⟨-, rfl⟩ | ⟨commandString, arguments, -, hprocess⟩
  · exact .refl _
  · obtain ⟨r, p₁, hbody, hpure⟩ := Exec.bind_eq_ok.1 hprocess
    obtain ⟨rfl, rfl⟩ := Exec.pure_eq_ok.1 hpure
    exact alike_of_refusal hbody (refused_processed.1 hrefused)

/-- The messages that were not refused. -/
def unrefused (messages : List (Surroundings × Json)) (responses : List Json) :
    List (Surroundings × Json) :=
  ((messages.zip responses).filter fun answered => !refused answered.2).map Prod.fst

/-- The run without the refused messages, from any driver that the endpoints see alike. -/
theorem serve_unrefused_of_alike {messages : List (Surroundings × Json)} {p' : CommandProcessor}
    {responses : List Json} (h : (serve messages).run p = .ok responses p') (hq : Alike p q) :
    ∃ q', (serve (unrefused messages responses)).run q =
      .ok (responses.filter fun response => !refused response) q' ∧ Alike p' q' := by
  induction messages generalizing p q responses with
  | nil =>
    obtain ⟨rfl, rfl⟩ := Exec.pure_eq_ok.1 h
    exact ⟨q, rfl, hq⟩
  | cons message messages ih =>
    unfold serve at h
    rw [List.mapM_cons] at h
    obtain ⟨response, p₁, hanswer, h₁⟩ := Exec.bind_eq_ok.1 h
    obtain ⟨responses', p₂, hserve, hpure⟩ := Exec.bind_eq_ok.1 h₁
    obtain ⟨rfl, rfl⟩ := Exec.pure_eq_ok.1 hpure
    cases hrefused : refused response with
    | true =>
      obtain ⟨q', hq', halike⟩ := ih hserve ((alike_of_refused hanswer hrefused).symm.trans hq)
      exact ⟨q', by simpa [unrefused, hrefused] using hq', halike⟩
    | false =>
      have hsame : Exec.SameAt (fun _ => Alike) Alike (answer message.1 message.2) _ _ :=
        sameAt_answer hq
      rcases hsame with ⟨response', p₃, q₁, hp, hq₁, halike⟩ | ⟨e, p₃, q₁, hp, -⟩
      · rw [hanswer] at hp
        cases hp
        obtain ⟨q', hq', halike'⟩ := ih hserve halike
        refine ⟨q', ?_, halike'⟩
        simp only [unrefused, List.zip_cons_cons, List.filter_cons, hrefused, Bool.not_false,
          if_true, List.map_cons]
        unfold serve
        rw [List.mapM_cons]
        exact Exec.bind_eq_ok.2 ⟨response, q₁, hq₁, Exec.bind_eq_ok.2 ⟨_, q', hq', rfl⟩⟩
      · rw [hanswer] at hp
        cases hp

/-- In any run the refused messages can be left out : the others get the same responses, and the
endpoints see the same driver in the end. -/
theorem serve_unrefused {messages : List (Surroundings × Json)} {p' : CommandProcessor}
    {responses : List Json} (h : (serve messages).run p = .ok responses p') :
    ∃ p'', (serve (unrefused messages responses)).run p =
      .ok (responses.filter fun response => !refused response) p'' ∧ Alike p' p'' :=
  serve_unrefused_of_alike h (.refl p)

/-- A message that the schema refuses, one that its command refuses, and one that is answered. -/
def refusedAndNull : List (Surroundings × Json) :=
  [(.of [] [], .null),
    (.of [] [], .object [("cmd", .string "get_version"), ("args", .object [])]),
    (.of [] [], .object [("cmd", .string "null"), ("args", .object [])])]

/-- Of three messages one is left. -/
theorem serve_unrefused_of_null : ∃ responses p p',
    (serve refusedAndNull).run started = .ok responses p ∧
      (serve (unrefused refusedAndNull responses)).run started =
        .ok (responses.filter fun response => !refused response) p' ∧ Alike p p' := by
  obtain ⟨responses, p, h⟩ : ∃ responses p,
    (serve refusedAndNull).run started = .ok responses p := ⟨_, _, rfl⟩
  obtain ⟨p', h', halike⟩ := serve_unrefused h
  exact ⟨responses, p, p', h, h', halike⟩

end CommandProcessor

end UscopeDriver
