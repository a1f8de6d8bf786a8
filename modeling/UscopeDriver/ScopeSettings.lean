import UscopeDriver.Library.Service
import UscopeDriver.ScopeSamples
import UscopeDriver.ServedRuns

/-!
# The settings of the scope

The factors of the samples and the channels that are on are all that `read_data` takes from earlier
messages. They are a small machine of their own (`ScopeRequest.perform`) : the last factors and the
last channels hold, channels that were not named last are off, refused arguments change nothing, and
no other message of any kind reaches them (`serve_scope`).
-/

namespace UscopeDriver

open LastWrite (store)

/-- What the clients have set : the factors and the channels that are on. -/
structure ScopeSettings where
  scalingFactors : List ℚ
  channelStatus : Int → Bool

/-- What a message asks of the settings. -/
inductive ScopeRequest where
  | setScalingFactors (factors : List ℚ)
  | setChannelStatus (channels : List (Int × Bool))
  | readData (w : Surroundings)

namespace ScopeSettings

open ScopeManager (nChannels)

/-- The channels that are on, with their words. -/
def read (settings : ScopeSettings) (w : Surroundings) : List Json :=
  match w.scopeData with
  | none => []
  | some rawData => ((List.range nChannels).filter fun i : Nat => settings.channelStatus i).map
      (ScopeEndpoints.channelJson w settings.scalingFactors rawData)

end ScopeSettings

namespace ScopeRequest

/-- Some numbers. -/
def factors? : Json → Option (List ℚ)
  | .array [] => none
  | .array elements => elements.mapM Json.number?
  | _ => none

/-- An entry of the status as a channel and whether it is on. -/
def channel? (item : String × Json) : Option (Int × Bool) := do
  let channel ← stoi item.1
  let on ← item.2.bool?
  pure (channel, on)

/-- Channels and whether they are on. -/
def channels? : Json → Option (List (Int × Bool))
  | .object items => items.mapM channel?
  | _ => none

/-- The request of a command. There is none with arguments that the settings do not take. -/
def ofCommand (w : Surroundings) (commandString : String) (arguments : Json) :
    Option ScopeRequest :=
  if commandString = "set_scaling_factors" then (factors? arguments).map .setScalingFactors
  else if commandString = "set_channel_status" then (channels? arguments).map .setChannelStatus
  else if commandString = "read_data" then some (.readData w)
  else none

/-- The request in a message. -/
def of? (message : Surroundings × Json) : Option ScopeRequest :=
  match CommandProcessor.asked message with
  | some (commandString, arguments) => ofCommand message.1 commandString arguments
  | none => none

/-- The command of a request. -/
def cmd : ScopeRequest → String
  | .setScalingFactors _ => "set_scaling_factors"
  | .setChannelStatus _ => "set_channel_status"
  | .readData _ => "read_data"

/-- The settings after the request, and the data of the response. -/
def act (settings : ScopeSettings) : ScopeRequest → Option Json × ScopeSettings
  | .setScalingFactors factors => (none, { settings with scalingFactors := factors })
  | .setChannelStatus channels =>
    (none, { settings with channelStatus := store (fun _ => false) channels })
  | .readData w => (some (.array (settings.read w)), settings)

/-- A request on the settings, with its response. -/
def perform (request : ScopeRequest) : StateM ScopeSettings Json := do
  let settings ← get
  set (act settings request).2
  pure (.object [("cmd", .string request.cmd), ("body",
    Response.toJson { responseCode := .ok, data := (act settings request).1 })])

end ScopeRequest

namespace ScopeEndpoints

open ScopeManager (nChannels)
open ScopeRequest (factors? channel? channels?)

/-- The settings that the endpoints hold. -/
def settings (s : ScopeEndpoints) : ScopeSettings where
  scalingFactors := s.scalingFactors
  channelStatus := s.channelStatus

/-! ## The commands on the settings -/

theorem vector?_of_factors {elements : List Json} {factors : List ℚ}
    (h : elements.mapM Json.number? = some factors) :
    (Json.array elements).vector? Json.float? = some factors ∧
      ∀ el ∈ elements, el.number? ≠ none := by
  rw [Json.vector?]
  induction elements generalizing factors with
  | nil => exact ⟨h, by simp⟩
  | cons el elements ih =>
    simp only [List.mapM_cons, Option.bind_eq_bind, Option.bind_eq_some_iff, Option.pure_def,
      Option.some.injEq] at h
    obtain ⟨x, hx, xs, hxs, rfl⟩ := h
    obtain ⟨hrest, hnumbers⟩ := ih hxs
    have hfloat : el.float? = some x := by
      cases el <;> first | exact hx | cases hx
    refine ⟨by simp [hfloat, hrest], List.forall_mem_cons.2 ⟨by simp [hx], hnumbers⟩⟩

/-- Some numbers are set, and all else is refused. -/
theorem processSetScalingFactors_cases (arguments : Json) :
    (∃ factors, factors? arguments = some factors ∧ processSetScalingFactors arguments =
        (setScalingFactors factors >>= fun _ => pure { responseCode := .ok })) ∨
      factors? arguments = none ∧
        ∃ text, processSetScalingFactors arguments = pure (.refused .invalidArg text) := by
  rcases arguments with _ | _ | _ | _ | _ | _ | elements | _
  case array =>
    by_cases hne : elements = []
    · subst hne
      exact Or.inr ⟨rfl, _, rfl⟩
    have hfactors : factors? (.array elements) = elements.mapM Json.number? := by
      cases elements with
      | nil => exact absurd rfl hne
      | cons el elements => rfl
    by_cases hnumeric : ∃ el ∈ elements, el.number? = none
    · rw [hfactors, processSetScalingFactors, if_neg hne, if_pos hnumeric]
      refine Or.inr ⟨?_, _, rfl⟩
      by_contra hsome
      obtain ⟨factors, h⟩ := Option.ne_none_iff_exists'.1 hsome
      obtain ⟨el, hel, hnone⟩ := hnumeric
      exact (vector?_of_factors h).2 el hel hnone
    · push Not at hnumeric
      obtain ⟨factors, h, -⟩ := @Json.exists_vector? ℚ Json.number? elements
        fun el hel => Option.ne_none_iff_exists'.1 (hnumeric el hel)
      refine Or.inl ⟨factors, hfactors.trans h, ?_⟩
      rw [processSetScalingFactors, if_neg hne, if_neg (by push Not; exact hnumeric), Json.get,
        (vector?_of_factors h).1]
      rfl
  all_goals exact Or.inr ⟨rfl, _, rfl⟩

theorem channelStatuses_eq_ok {items : List (String × Json)} {status status' : Int → Bool}
    {s s' : ScopeEndpoints} : (channelStatuses status items).run s = .ok status' s' ↔
      ∃ channels, items.mapM channel? = some channels ∧ status' = store status channels ∧
        s' = s := by
  induction items generalizing status s with
  | nil =>
    rw [channelStatuses, Exec.pure_eq_ok, List.mapM_nil]
    simp
  | cons item items ih =>
    obtain ⟨key, value⟩ := item
    simp only [channelStatuses, Exec.bind_eq_ok, Exec.require_eq_ok, Json.get, ih, List.mapM_cons,
      channel?, Option.bind_eq_bind, Option.bind_eq_some_iff, Option.pure_def, Option.some.injEq]
    constructor
    · rintro ⟨channel, _, ⟨hchannel, rfl⟩, on, _, ⟨hon, rfl⟩, channels, hchannels, rfl, rfl⟩
      exact ⟨_, ⟨_, ⟨channel, hchannel, on, hon, rfl⟩, channels, hchannels, rfl⟩, rfl, rfl⟩
    · rintro ⟨_, ⟨_, ⟨channel, hchannel, on, hon, rfl⟩, channels, hchannels, rfl⟩, rfl, rfl⟩
      exact ⟨channel, _, ⟨hchannel, rfl⟩, on, _, ⟨hon, rfl⟩, channels, hchannels, rfl, rfl⟩

/-- Channels are set, and what is no object is refused. -/
theorem processSetChannelStatus_eq_ok {arguments : Json} {s s' : ScopeEndpoints} {r : Response}
    (h : (processSetChannelStatus arguments).run s = .ok r s') :
    (∃ channels, channels? arguments = some channels ∧ r = { responseCode := .ok } ∧
        s' = { s with channelStatus := store (fun _ => false) channels }) ∨
      channels? arguments = none ∧ s' = s := by
  rcases arguments with _ | _ | _ | _ | _ | _ | _ | items
  case object =>
    obtain ⟨status, t, hstatus, hrest⟩ := Exec.bind_eq_ok.1 h
    obtain ⟨channels, hchannels, rfl, rfl⟩ := channelStatuses_eq_ok.1 hstatus
    obtain ⟨_, t', hset, hpure⟩ := Exec.bind_eq_ok.1 hrest
    obtain ⟨rfl, rfl⟩ := Exec.pure_eq_ok.1 hpure
    exact Or.inl ⟨channels, hchannels, rfl, Exec.modify_eq_ok.1 hset⟩
  all_goals exact Or.inr ⟨rfl, (Exec.pure_eq_ok.1 h).2⟩

theorem readData_eq_ok {w : Surroundings} {s s' : ScopeEndpoints} {data : List Json} :
    (readData w).run s = .ok data s' → data = s.settings.read w ∧ s' = s := by
  intro h
  cases hdata : w.scopeData with
  | none =>
    rw [readData, hdata] at h
    obtain ⟨rfl, rfl⟩ := Exec.pure_eq_ok.1 h
    simp [ScopeSettings.read, hdata]
  | some rawData =>
    rw [readData_of_data hdata (hasFactors_of_readData hdata h)] at h
    cases h
    simp [ScopeSettings.read, hdata, settings]

/-! ## The other commands of the scope -/

/-- The settings are as before. -/
def SameSettings (s s' : ScopeEndpoints) : Prop := s'.settings = s.settings

instance : IsPreorder ScopeEndpoints SameSettings where
  refl := fun _ => rfl
  trans := fun _ _ _ h h' => h'.trans h

/-- The code leaves the settings alone. -/
abbrev SparesSettings {α : Type} (m : Exec Failure ScopeEndpoints α) : Prop :=
  Exec.Moves SameSettings m

theorem sparesSettings_onBridge {α : Type} (m : Exec Failure FpgaBridge α) :
    SparesSettings (onBridge m) :=
  Exec.frame_of_returns fun _ _ _ h => by
    obtain ⟨hw, -, rfl⟩ := Exec.zoom_eq_ok.1 h
    rfl

theorem sparesSettings_read {α : Type} (arguments : Json) (key : String) (as : Json → Option α) :
    SparesSettings (read arguments key as) :=
  (Json.moves_atOrNull _ _).bind fun _ => Json.moves_get _ _

theorem sparesSettings_processDisableDma (arguments : Json) :
    SparesSettings (processDisableDma arguments) := by
  refine (sparesSettings_read _ _ _).bind fun status =>
    Exec.Frame.bind ((Exec.frame_gets _).bind fun firstLoad => ?_) fun _ => Exec.frame_pure _
  split_ifs
  · exact Exec.frame_modify fun _ => rfl
  · exact (Exec.frame_gets _).bind fun _ => Exec.frame_when fun _ => sparesSettings_onBridge _

theorem sparesSettings_processGetAcquisitionStatus (w : Surroundings) :
    SparesSettings (processGetAcquisitionStatus w) := by
  refine Exec.Frame.bind ((Exec.frame_gets _).bind fun base => ?_) fun _ => Exec.frame_pure _
  split_ifs
  · exact Exec.frame_pure _
  · exact (sparesSettings_onBridge _).bind fun _ => Exec.frame_pure _

theorem sparesSettings_processSetAcquisition (pl : Platform) (arguments : Json) :
    SparesSettings (processSetAcquisition pl arguments) :=
  (sparesSettings_read _ _ _).bind fun _ => (sparesSettings_read _ _ _).bind fun _ =>
    (sparesSettings_read _ _ _).bind fun _ => (sparesSettings_read _ _ _).bind fun _ =>
    (sparesSettings_read _ _ _).bind fun _ => (sparesSettings_read _ _ _).bind fun _ =>
    (sparesSettings_read _ _ _).bind fun _ => Exec.Frame.bind
      ((Exec.frame_gets _).bind fun _ => Exec.frame_when fun _ => Exec.frame_forM fun _ _ =>
        sparesSettings_onBridge _) fun _ => Exec.frame_pure _

theorem sparesSettings_processSetScopeAddress (w : Surroundings) (arguments : Json) :
    SparesSettings (processSetScopeAddress w arguments) := by
  refine (Json.moves_atOrNull _ _).bind fun address => ?_
  split
  · exact Exec.frame_pure _
  · refine (Json.moves_atOrNull _ _).bind fun offset => ?_
    split
    · exact (Json.moves_get _ _).bind fun _ => Exec.Frame.bind
        ((sparesSettings_onBridge _).bind fun _ => Exec.frame_modify fun _ => rfl)
        fun _ => Exec.frame_pure _
    · exact Exec.frame_pure _

/-- A command that is none of the three. -/
theorem sparesSettings_processCommand (w : Surroundings) {commandString : String}
    (hread : commandString ≠ "read_data") (hfactors : commandString ≠ "set_scaling_factors")
    (hstatus : commandString ≠ "set_channel_status") (arguments : Json) :
    SparesSettings (processCommand w commandString arguments) := by
  unfold processCommand
  rw [if_neg hread, if_neg hfactors, if_neg hstatus]
  split_ifs
  · exact sparesSettings_processDisableDma arguments
  · exact sparesSettings_processGetAcquisitionStatus w
  · exact sparesSettings_processSetAcquisition _ arguments
  · exact sparesSettings_processSetScopeAddress w arguments
  · exact Exec.frame_pure _

/-- A request acts on the settings, and is answered with their data. -/
theorem act_of_processCommand {w : Surroundings} {commandString : String} {arguments : Json}
    {request : ScopeRequest} (hr : ScopeRequest.ofCommand w commandString arguments = some request)
    {s s' : ScopeEndpoints} {r : Response}
    (h : (processCommand w commandString arguments).run s = .ok r s') :
    commandString = request.cmd ∧
      r = { responseCode := .ok, data := (ScopeRequest.act s.settings request).1 } ∧
      s'.settings = (ScopeRequest.act s.settings request).2 := by
  unfold ScopeRequest.ofCommand at hr
  split_ifs at hr with hfactors hstatus hread
  · subst hfactors
    obtain ⟨factors, hsome, rfl⟩ := Option.map_eq_some_iff.1 hr
    change (processSetScalingFactors arguments).run s = _ at h
    rcases processSetScalingFactors_cases arguments with ⟨factors', hsome', hset⟩ | ⟨hnone, -⟩
    · cases hsome.symm.trans hsome'
      rw [hset] at h
      obtain ⟨u, t, hrun, hpure⟩ := Exec.bind_eq_ok.1 h
      obtain ⟨rfl, rfl⟩ := Exec.pure_eq_ok.1 hpure
      obtain ⟨u', t', hthrow, hmodify⟩ := Exec.bind_eq_ok.1 hrun
      obtain ⟨-, rfl⟩ := Exec.throwIf_eq_ok.1 hthrow
      obtain rfl := Exec.modify_eq_ok.1 hmodify
      exact ⟨rfl, rfl, rfl⟩
    · cases hsome.symm.trans hnone
  · subst hstatus
    obtain ⟨channels, hsome, rfl⟩ := Option.map_eq_some_iff.1 hr
    change (processSetChannelStatus arguments).run s = _ at h
    rcases processSetChannelStatus_eq_ok h with ⟨channels', hsome', rfl, rfl⟩ | ⟨hnone, -⟩
    · cases hsome.symm.trans hsome'
      exact ⟨rfl, rfl, rfl⟩
    · cases hsome.symm.trans hnone
  · subst hread
    cases hr
    obtain ⟨data, t, hrun, hpure⟩ := Exec.bind_eq_ok.1
      (show (readData w >>= fun respData =>
        pure { responseCode := .ok, data := some (.array respData) }).run s = .ok r s' from h)
    obtain ⟨rfl, rfl⟩ := Exec.pure_eq_ok.1 hpure
    obtain ⟨rfl, rfl⟩ := readData_eq_ok hrun
    exact ⟨rfl, rfl, rfl⟩

/-- Without a request the settings stay. -/
theorem sameSettings_of_processCommand {w : Surroundings} {commandString : String}
    {arguments : Json} (hr : ScopeRequest.ofCommand w commandString arguments = none)
    {s s' : ScopeEndpoints} {r : Response}
    (h : (processCommand w commandString arguments).run s = .ok r s') : SameSettings s s' := by
  unfold ScopeRequest.ofCommand at hr
  split_ifs at hr with hfactors hstatus hread
  · subst hfactors
    change (processSetScalingFactors arguments).run s = _ at h
    rcases processSetScalingFactors_cases arguments with ⟨factors, hsome, -⟩ | ⟨-, text, hrefused⟩
    · rw [hsome] at hr
      cases hr
    · rw [hrefused] at h
      obtain ⟨-, rfl⟩ := Exec.pure_eq_ok.1 h
      rfl
  · subst hstatus
    rcases processSetChannelStatus_eq_ok h with ⟨channels, hsome, -⟩ | ⟨-, rfl⟩
    · rw [hsome] at hr
      cases hr
    · rfl
  · exact (sparesSettings_processCommand w hread hfactors hstatus arguments).of_ok h

end ScopeEndpoints

/-! ## Served messages -/

namespace CommandProcessor

open ScopeEndpoints (settings)

/-- The settings that the driver holds. -/
def scopeSettings (p : CommandProcessor) : ScopeSettings := p.scope.settings

variable {message : Surroundings × Json} {p p' : CommandProcessor} {response : Json}

/-- A processed command of the scope, on the scope. -/
theorem processCommand_scope {w : Surroundings} {commandString : String} {arguments : Json}
    (hscope : commandString ∈ Commands.scopeCommands)
    (h : (processCommand w commandString arguments).run p = .ok response p') :
    ∃ r : Response, response = .object [("cmd", .string commandString), ("body", r.toJson)] ∧
      (ScopeEndpoints.processCommand w commandString arguments).run { p.scope with hw := p.hw } =
        .ok r { p'.scope with hw := p'.hw } := by
  have hcontrol : commandString ∉ Commands.controlCommands := by
    simp only [Commands.scopeCommands, List.mem_cons, List.not_mem_nil, or_false] at hscope
    rcases hscope with rfl | rfl | rfl | rfl | rfl | rfl | rfl <;> decide
  obtain ⟨r, p₁, hbody, hpure⟩ := Exec.bind_eq_ok.1 h
  obtain ⟨rfl, rfl⟩ := Exec.pure_eq_ok.1 hpure
  rw [body, if_neg hcontrol, if_pos hscope] at hbody
  obtain ⟨scope, hrun, rfl⟩ := Exec.zoom_eq_ok.1 hbody
  exact ⟨r, rfl, hrun⟩

/-- What is asked of the settings is done to them. -/
theorem answer_scopeRequest {request : ScopeRequest} (hr : ScopeRequest.of? message = some request)
    (h : (answer message.1 message.2).run p = .ok response p') :
    request.perform.run p.scopeSettings = (response, p'.scopeSettings) := by
  unfold ScopeRequest.of? at hr
  rcases answer_eq_ok h with ⟨hasked, -⟩ | ⟨commandString, arguments, hasked, hprocess⟩
  · rw [hasked] at hr
    cases hr
  rw [hasked] at hr
  have hscope : commandString ∈ Commands.scopeCommands := by
    simp only [ScopeRequest.ofCommand] at hr
    split_ifs at hr with hfactors hstatus hread
    · simp [hfactors, Commands.scopeCommands]
    · simp [hstatus, Commands.scopeCommands]
    · simp [hread, Commands.scopeCommands]
  obtain ⟨r, rfl, hrun⟩ := processCommand_scope hscope hprocess
  obtain ⟨rfl, rfl, hsettings⟩ := ScopeEndpoints.act_of_processCommand hr hrun
  exact Prod.ext rfl hsettings.symm

/-- Nothing else reaches them. -/
theorem answer_other (hr : ScopeRequest.of? message = none)
    (h : (answer message.1 message.2).run p = .ok response p') :
    p'.scopeSettings = p.scopeSettings := by
  unfold ScopeRequest.of? at hr
  rcases answer_eq_ok h with ⟨-, rfl⟩ | ⟨commandString, arguments, hasked, hprocess⟩
  · rfl
  rw [hasked] at hr
  by_cases hscope : commandString ∈ Commands.scopeCommands
  · obtain ⟨r, -, hrun⟩ := processCommand_scope hscope hprocess
    have hsame := ScopeEndpoints.sameSettings_of_processCommand hr hrun
    exact hsame
  · obtain ⟨r, p₁, hbody, hpure⟩ := Exec.bind_eq_ok.1 hprocess
    obtain ⟨-, rfl⟩ := Exec.pure_eq_ok.1 hpure
    unfold body at hbody
    split_ifs at hbody
    · obtain ⟨hw, -, rfl⟩ := Exec.zoom_eq_ok.1 hbody
      rfl
    · obtain ⟨cores, -, rfl⟩ := Exec.zoom_eq_ok.1 hbody
      rfl
    · obtain ⟨platform, -, rfl⟩ := Exec.zoom_eq_ok.1 hbody
      rfl
    · obtain ⟨-, rfl⟩ := Exec.pure_eq_ok.1 hbody
      rfl
    · obtain ⟨-, rfl⟩ := Exec.pure_eq_ok.1 hbody
      rfl

/-- Over any run of the driver the settings of the scope are the machine : every `read_data` shows
the channels that were set last, with the factors that were set last, whatever was served between
them. -/
theorem serve_scope {messages : List (Surroundings × Json)} {responses : List Json}
    (h : (serve messages).run p = .ok responses p') :
    ((messages.filterMap ScopeRequest.of?).mapM ScopeRequest.perform).run p.scopeSettings =
      (Exec.resultsOf (fun message => (ScopeRequest.of? message).isSome) messages responses,
        p'.scopeSettings) :=
  (Exec.mapM_refines (I := fun _ => True) (A := fun _ => True)
    (fun _ hr _ hanswer => ⟨trivial, answer_scopeRequest hr hanswer⟩)
    (fun _ hr _ hanswer => ⟨trivial, answer_other hr hanswer⟩) (fun _ _ => trivial) trivial h).2

/-- Channel 3 with a factor of 2, with a refused request and a start of the logic in between. -/
def oneChannel : List (Surroundings × Json) :=
  [(.of [] [], .object [("cmd", .string "set_scaling_factors"),
      ("args", .array (List.replicate 6 (.numberUnsigned 2)))]),
    (.of [] [], .object [("cmd", .string "set_channel_status"),
      ("args", .object [("3", .boolean true)])]),
    (.of [] [], .object [("cmd", .string "set_scaling_factors"), ("args", .array [])]),
    (.of [] [], .object [("cmd", .string "hil_start"), ("args", .object [])]),
    ({ Surroundings.of [] [] with scopeData := some [0x300000007, 0x400000007] },
      .object [("cmd", .string "read_data"), ("args", .object [])])]

theorem serve_scope_oneChannel : ∃ responses p, (serve oneChannel).run started = .ok responses p ∧
    ((oneChannel.filterMap ScopeRequest.of?).mapM ScopeRequest.perform).run started.scopeSettings =
      (Exec.resultsOf (fun message => (ScopeRequest.of? message).isSome) oneChannel responses,
        p.scopeSettings) := by
  obtain ⟨responses, p, h, -⟩ := Exec.exists_of_returnsIn (p := fun _ => True)
    (show Exec.returnsIn (fun _ => True) (serve oneChannel) started = true by decide +kernel)
  exact ⟨responses, p, h, serve_scope h⟩

end CommandProcessor

end UscopeDriver
