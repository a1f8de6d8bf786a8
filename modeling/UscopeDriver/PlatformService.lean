import UscopeDriver.Library.Service
import UscopeDriver.Services

/-!
# The clocks and the log level behind the messages

The timing manager of the platform has no bridge, and no message adds a definition to its generated
clocks : what is found there are the zeros that a lookup has left. So a generated clock is set in
vain, and to read one is to divide by zero. The base clocks are set through the null bridge, on a
platform where that runs. What a client can tell of the platform are four frequencies and a log
level (`serve_platform`).
-/

namespace UscopeDriver

/-- What the platform keeps between messages. -/
structure PlatformMemory where
  psPlClkF : Fin 4 → UInt64
  logLevel : LogLevel

/-- What is asked of the platform. -/
inductive PlatformRequest where
  /-- The code is what the file of the clock answers. -/
  | setBaseClock (clkN : UInt8) (clkF : UInt64) (code : ResponseCode)
  | setGeneratedClock (clockName : String) (m d p : UInt16)
  | getBaseClock (pl : Platform) (clkN : UInt8)
  | getGeneratedClock (pl : Platform) (clockName : String)
  | getVersion (component : String) (version : Json)
  | setDebugLevel (level : String)
  | getDebugLevel

namespace PlatformRequest

open PlatformEndpoints (version selectLevel levelName)

/-- The first test of the commands on clocks. -/
def isPrimary? (arguments : Json) : Option Bool :=
  (arguments.find? "is_primary").bind Json.bool?

/-- The arguments of `set_pl_clock` for a base clock. Eight bits of the number are read. -/
def setBaseClock? (w : Surroundings) (arguments : Json) : Option PlatformRequest := do
  let clkF ← (arguments.find? "value").bind (Json.uint32? w.env.platform)
  let clkN ← (arguments.find? "id").bind (Json.uint32? w.env.platform)
  let code ← (FpgaBridge.setPlClock w.devices (UInt8.ofNat clkN)
    (UInt64.ofNat clkF).toUInt32).toOption
  some (.setBaseClock (UInt8.ofNat clkN) (UInt64.ofNat clkF) code)

/-- The arguments of `set_pl_clock` for a generated clock. -/
def setGeneratedClock? (pl : Platform) (arguments : Json) : Option PlatformRequest := do
  let clockName ← (arguments.find? "id").bind Json.text?
  let value ← arguments.find? "value"
  let m ← (value.find? "m").bind (Json.uint32? pl)
  let d ← (value.find? "d").bind (Json.uint32? pl)
  let p ← (value.find? "p").bind (Json.uint32? pl)
  some (.setGeneratedClock clockName (UInt16.ofNat m) (UInt16.ofNat d) (UInt16.ofNat p))

/-- The arguments of `get_clock` for a base clock. -/
def getBaseClock? (pl : Platform) (arguments : Json) : Option PlatformRequest :=
  ((arguments.find? "id").bind (Json.uint32? pl)).map fun clkN =>
    .getBaseClock pl (UInt8.ofNat clkN)

/-- The arguments of `get_clock` for a generated clock. -/
def getGeneratedClock? (pl : Platform) (arguments : Json) : Option PlatformRequest :=
  ((arguments.find? "id").bind Json.text?).map (.getGeneratedClock pl)

/-- The request of a command on a clock, which says first which clock it means. -/
def ofClock (primary generated : Option PlatformRequest) (arguments : Json) :
    Option PlatformRequest :=
  (isPrimary? arguments).bind fun isPrimary => if isPrimary then primary else generated

/-- The request of a command. -/
def ofCommand (w : Surroundings) (commandString : String) (arguments : Json) :
    Option PlatformRequest :=
  if commandString = "set_pl_clock" then
    ofClock (setBaseClock? w arguments) (setGeneratedClock? w.env.platform arguments) arguments
  else if commandString = "get_clock" then
    ofClock (getBaseClock? w.env.platform arguments) (getGeneratedClock? w.env.platform arguments)
      arguments
  else if commandString = "get_version" then
    arguments.text?.map fun component => .getVersion component (version w component)
  else if commandString = "set_debug_level" then arguments.text?.map .setDebugLevel
  else if commandString = "get_debug_level" then some .getDebugLevel
  else none

/-- The request of a message, if it is one to the platform and well formed. -/
def of? (message : Surroundings × Json) : Option PlatformRequest :=
  (CommandProcessor.asked message).bind fun command => ofCommand message.1 command.1 command.2

/-- The command of a request. -/
def cmd : PlatformRequest → String
  | .setBaseClock _ _ _ | .setGeneratedClock _ _ _ _ => "set_pl_clock"
  | .getBaseClock _ _ | .getGeneratedClock _ _ => "get_clock"
  | .getVersion _ _ => "get_version"
  | .setDebugLevel _ => "set_debug_level"
  | .getDebugLevel => "get_debug_level"

/-- The response, and what is kept after the request. -/
def act (memory : PlatformMemory) : PlatformRequest → Response × PlatformMemory
  | .setBaseClock clkN clkF code => ({ responseCode := code }, { memory with
      psPlClkF := fun i =>
        if code = .ok ∧ i.val = clkN.toNat then clkF else memory.psPlClkF i })
  | .setGeneratedClock _ _ _ _ => ({ responseCode := .ok }, memory)
  | .getBaseClock pl clkN => ({
      responseCode := .ok
      data := (TimingManager.baseFrequency pl memory.psPlClkF clkN).map fun f =>
        .numberUnsigned f.toNat }, memory)
  | .getGeneratedClock pl _ => ({
      responseCode := .ok
      data := pl.divideByZero.map fun f => .numberUnsigned f.toNat }, memory)
  | .getVersion _ version => ({ responseCode := .ok, data := some version }, memory)
  | .setDebugLevel level => ({ responseCode := .ok },
      { memory with logLevel := selectLevel level memory.logLevel })
  | .getDebugLevel =>
    ({ responseCode := .ok, data := some (.string (levelName memory.logLevel)) }, memory)

/-- The request to a memory of frequencies and a level. -/
def perform (request : PlatformRequest) : StateM PlatformMemory Json := do
  let memory ← get
  set (act memory request).2
  pure (.object [("cmd", .string request.cmd), ("body", (act memory request).1.toJson)])

/-! ## What a message asks for -/

variable {arguments : Json}

/-- The truth value of `is_primary`. -/
theorem isPrimary?_eq_some {b : Bool} :
    isPrimary? arguments = some b ↔ arguments.find? "is_primary" = some (.boolean b) := by
  simp only [isPrimary?, Option.bind_eq_some_iff, Json.bool?_eq_some, exists_eq_right]

/-- Once it is known which clock is meant. -/
theorem ofClock_eq {primary generated : Option PlatformRequest} {isPrimary : Bool}
    (h : arguments.find? "is_primary" = some (.boolean isPrimary)) :
    ofClock primary generated arguments = if isPrimary then primary else generated := by
  rw [ofClock, isPrimary?_eq_some.2 h]
  rfl

/-- A request on clocks is one of the two kinds, by `is_primary`. -/
theorem exists_primary_of_ofClock {primary generated : Option PlatformRequest}
    {request : PlatformRequest} (h : ofClock primary generated arguments = some request) :
    ∃ isPrimary, arguments.find? "is_primary" = some (.boolean isPrimary) ∧
      (if isPrimary then primary else generated) = some request := by
  obtain ⟨isPrimary, hprimary, h⟩ := Option.bind_eq_some_iff.1 h
  exact ⟨isPrimary, isPrimary?_eq_some.1 hprimary, h⟩

/-- A base clock is asked for with its number and its frequency. -/
theorem setBaseClock?_eq_some {w : Surroundings} {request : PlatformRequest} :
    setBaseClock? w arguments = some request ↔
      ∃ clkF, (arguments.find? "value").bind (Json.uint32? w.env.platform) = some clkF ∧
      ∃ clkN, (arguments.find? "id").bind (Json.uint32? w.env.platform) = some clkN ∧
      ∃ code, FpgaBridge.setPlClock w.devices (UInt8.ofNat clkN)
          (UInt64.ofNat clkF).toUInt32 = .ok code ∧
        request = .setBaseClock (UInt8.ofNat clkN) (UInt64.ofNat clkF) code := by
  have htoOption : ∀ {x : Except Failure ResponseCode} {code},
      x.toOption = some code ↔ x = .ok code := by
    intro x code
    cases x <;> simp [Except.toOption]
  simp only [setBaseClock?, Option.bind_eq_bind, Option.bind_eq_some_iff, Option.some.injEq,
    htoOption, @eq_comm _ _ request]

/-- A generated clock is asked for with its name and three factors. -/
theorem setGeneratedClock?_eq_some {pl : Platform} {request : PlatformRequest} :
    setGeneratedClock? pl arguments = some request ↔
      ∃ clockName, (arguments.find? "id").bind Json.text? = some clockName ∧
      ∃ value, arguments.find? "value" = some value ∧
      ∃ m, (value.find? "m").bind (Json.uint32? pl) = some m ∧
      ∃ d, (value.find? "d").bind (Json.uint32? pl) = some d ∧
      ∃ p, (value.find? "p").bind (Json.uint32? pl) = some p ∧ request =
        .setGeneratedClock clockName (UInt16.ofNat m) (UInt16.ofNat d) (UInt16.ofNat p) := by
  simp only [setGeneratedClock?, Option.bind_eq_bind]
  constructor
  · intro h
    obtain ⟨clockName, hname, h⟩ := Option.bind_eq_some_iff.1 h
    obtain ⟨value, hvalue, h⟩ := Option.bind_eq_some_iff.1 h
    obtain ⟨m, hm, h⟩ := Option.bind_eq_some_iff.1 h
    obtain ⟨d, hd, h⟩ := Option.bind_eq_some_iff.1 h
    obtain ⟨p, hp, h⟩ := Option.bind_eq_some_iff.1 h
    exact ⟨clockName, hname, value, hvalue, m, hm, d, hd, p, hp, (Option.some.inj h).symm⟩
  · rintro ⟨clockName, hname, value, hvalue, m, hm, d, hd, p, hp, rfl⟩
    simp [hname, hvalue, hm, hd, hp]

/-- A request has the keys that the endpoint checks. -/
theorem keys_of_setClock {w : Surroundings} {isPrimary : Bool} {request : PlatformRequest}
    (h : (if isPrimary then setBaseClock? w arguments
      else setGeneratedClock? w.env.platform arguments) = some request) :
    ∀ key ∈ ["id", "value"], ∃ v, arguments.find? key = some v := by
  cases isPrimary with
  | true =>
    obtain ⟨clkF, hvalue, clkN, hid, -⟩ := setBaseClock?_eq_some.1 h
    obtain ⟨value, hvalue, -⟩ := Option.bind_eq_some_iff.1 hvalue
    obtain ⟨id, hid, -⟩ := Option.bind_eq_some_iff.1 hid
    simp [hid, hvalue]
  | false =>
    obtain ⟨clockName, hid, value, hvalue, -⟩ := setGeneratedClock?_eq_some.1 h
    obtain ⟨id, hid, -⟩ := Option.bind_eq_some_iff.1 hid
    simp [hid, hvalue]

/-- Both kinds of reading name a clock. -/
theorem keys_of_getClock {pl : Platform} {isPrimary : Bool} {request : PlatformRequest}
    (h : (if isPrimary then getBaseClock? pl arguments
      else getGeneratedClock? pl arguments) = some request) :
    ∀ key ∈ ["id"], ∃ v, arguments.find? key = some v := by
  have hid : ∃ id, arguments.find? "id" = some id := by
    cases isPrimary with
    | true =>
      obtain ⟨clkN, hclkN, -⟩ := Option.map_eq_some_iff.1 h
      obtain ⟨id, hid, -⟩ := Option.bind_eq_some_iff.1 hclkN
      exact ⟨id, hid⟩
    | false =>
      obtain ⟨clockName, hname, -⟩ := Option.map_eq_some_iff.1 h
      obtain ⟨id, hid, -⟩ := Option.bind_eq_some_iff.1 hname
      exact ⟨id, hid⟩
  simpa using hid

/-- Other commands ask nothing of the platform. -/
theorem ofCommand_of_notMem {w : Surroundings} {commandString : String}
    (h : commandString ∉ Commands.platformCommands) :
    ofCommand w commandString arguments = none := by
  simp only [Commands.platformCommands, List.mem_cons, List.not_mem_nil, or_false, not_or] at h
  obtain ⟨hset, hget, hversion, hsetLevel, hgetLevel⟩ := h
  simp only [ofCommand, *, if_false]

/-- The response to a request is the response to its command. -/
theorem cmd_of_ofCommand {w : Surroundings} {commandString : String} {request : PlatformRequest}
    (h : ofCommand w commandString arguments = some request) : request.cmd = commandString := by
  unfold ofCommand at h
  split_ifs at h with hset hget hversion hsetLevel hgetLevel
  · obtain ⟨isPrimary, -, h⟩ := exists_primary_of_ofClock h
    cases isPrimary with
    | true =>
      obtain ⟨clkF, -, clkN, -, code, -, rfl⟩ := setBaseClock?_eq_some.1 h
      exact hset.symm
    | false =>
      obtain ⟨clockName, -, value, -, m, -, d, -, p, -, rfl⟩ := setGeneratedClock?_eq_some.1 h
      exact hset.symm
  · obtain ⟨isPrimary, -, h⟩ := exists_primary_of_ofClock h
    cases isPrimary with
    | true =>
      obtain ⟨clkN, -, rfl⟩ := Option.map_eq_some_iff.1 h
      exact hget.symm
    | false =>
      obtain ⟨clockName, -, rfl⟩ := Option.map_eq_some_iff.1 h
      exact hget.symm
  · obtain ⟨component, -, rfl⟩ := Option.map_eq_some_iff.1 h
    exact hversion.symm
  · obtain ⟨level, -, rfl⟩ := Option.map_eq_some_iff.1 h
    exact hsetLevel.symm
  · obtain rfl := Option.some.inj h
    exact hgetLevel.symm

end PlatformRequest

/-! ## The commands on the platform -/

namespace PlatformEndpoints

open PlatformRequest (ofClock setBaseClock? setGeneratedClock? getBaseClock? getGeneratedClock?
  ofClock_eq setBaseClock?_eq_some setGeneratedClock?_eq_some)

/-- The frequencies and the level. -/
def memory (s : PlatformEndpoints) : PlatformMemory :=
  ⟨s.psPlClkF, s.logLevel⟩

/-- What is found of generated clocks are the zeros of a lookup. -/
def OnlyZeros (s : PlatformEndpoints) : Prop :=
  ∀ clockName c, s.generatedClocks clockName = some c → c = .zero

/-- The response and the state after it : a request acts on what the platform keeps, and without
one the command was refused. -/
def Answered (request? : Option PlatformRequest) (s : PlatformEndpoints) (r : Response)
    (s' : PlatformEndpoints) : Prop :=
  match request? with
  | some request => (r, s'.memory) = request.act s.memory ∧ OnlyZeros s'
  | none => s' = s ∧ ∃ text, r = .refused .invalidArg text

variable {w : Surroundings} {pl : Platform} {arguments : Json} {s s' : PlatformEndpoints}
  {r : Response} {clockName : String}

/-- A refusal of the check has the code of a wrong argument. -/
theorem refused_of_checkClock {keys : List String} {missing : String}
    (h : checkClock arguments keys missing = .error r) : ∃ text, r = .refused .invalidArg text := by
  unfold checkClock at h
  split_ifs at h
  · exact ⟨missing, (Except.error.inj h).symm⟩
  · split at h
    · cases h
    · exact ⟨_, (Except.error.inj h).symm⟩

/-- A factor that is a number is read. -/
theorem run_clockFactor {σ : Type} {t : σ} {value : Json} {key : String} {n : Nat}
    (h : (value.find? key).bind (Json.uint32? pl) = some n) :
    (clockFactor pl value key).run t = .ok (UInt16.ofNat n) t := by
  obtain ⟨factor, hfactor, hn⟩ := Option.bind_eq_some_iff.1 h
  exact Exec.bind_eq_ok.2 ⟨factor, t, Json.run_atOrNull hfactor t,
    Exec.bind_eq_ok.2 ⟨n, t, Exec.require_eq_ok.2 ⟨hn, rfl⟩, rfl⟩⟩

/-! ### The timing manager -/

/-- A base clock is set when its file takes the frequency. -/
theorem run_setBaseClock {clkN : UInt8} {clkF : UInt64} {code : ResponseCode}
    (hnull : pl.nullCalls = true)
    (hcode : FpgaBridge.setPlClock w.devices clkN clkF.toUInt32 = .ok code) :
    (onTiming (TimingManager.setBaseClock pl w.devices clkN clkF)).run s = .ok code { s with
      psPlClkF := fun i => if code = .ok ∧ i.val = clkN.toNat then clkF else s.psPlClkF i } := by
  refine Exec.zoom_eq_ok.2 ⟨{ s.tm with
    psPlClkF := fun i => if code = .ok ∧ i.val = clkN.toNat then clkF else s.psPlClkF i }, ?_, rfl⟩
  rw [TimingManager.run_setBaseClock pl w.devices clkN clkF (Or.inr hnull), hcode]
  rfl

/-- To set a generated clock does nothing. Without a definition there is nothing to set, and zeros
have no multiplier, so their generator is set up through the null bridge. -/
theorem run_setGeneratedClock (hs : OnlyZeros s) (hbridge : ∀ c,
      s.generatedClocks clockName = some c → c.multiplierPresent = true ∨ pl.nullWrites = true)
    (m d p : UInt16) :
    (onTiming (TimingManager.setGeneratedClock pl clockName m d p)).run s = .ok .ok s := by
  refine Exec.zoom_eq_ok.2 ⟨s.tm, ?_, rfl⟩
  rw [TimingManager.setGeneratedClock, Exec.run_gets_bind]
  cases hclock : s.tm.generatedClocks clockName with
  | none => rfl
  | some c =>
    obtain rfl := hs clockName c hclock
    have hwrites : pl.nullWrites = true := (hbridge _ hclock).resolve_left Bool.false_ne_true
    exact Exec.bind_eq_ok.2 ⟨(), s.tm,
      (TimingManager.setupClockDivider_null_eq_ok rfl).2 ⟨hwrites, rfl⟩, rfl⟩

/-- A base clock is read back. -/
theorem run_getBaseClock {clkN : UInt8} {f : UInt64}
    (hf : TimingManager.baseFrequency pl s.psPlClkF clkN = some f) :
    (onTiming (TimingManager.getBaseClock pl clkN)).run s = .ok f s :=
  Exec.zoom_eq_ok.2 ⟨s.tm, TimingManager.getBaseClock_eq_ok.2 ⟨hf, rfl⟩, rfl⟩

/-- Zeros are divided by zero, whether they were found or are made. -/
theorem run_getGeneratedClock (clockName : String) (hs : OnlyZeros s) {f : UInt64}
    (hf : pl.divideByZero = some f) :
    ∃ s', (onTiming (TimingManager.getGeneratedClock pl clockName)).run s = .ok f s' ∧
      s'.memory = s.memory ∧ OnlyZeros s' := by
  cases hclock : s.generatedClocks clockName with
  | none =>
    have hmade : OnlyZeros { s with
        generatedClocks := Function.update s.generatedClocks clockName (some .zero) } := by
      intro name c hc
      simp only [Function.update_apply] at hc
      split_ifs at hc
      · exact (Option.some.inj hc).symm
      · exact hs name c hc
    refine ⟨_, Exec.zoom_eq_ok.2 ⟨{ s.tm with
      generatedClocks := Function.update s.generatedClocks clockName (some .zero) }, ?_, rfl⟩,
      rfl, hmade⟩
    have hclock : s.tm.generatedClocks clockName = none := hclock
    rw [TimingManager.run_getGeneratedClock_unknown pl hclock, hf]
    rfl
  | some c =>
    obtain rfl := hs clockName c hclock
    refine ⟨s, Exec.zoom_eq_ok.2 ⟨s.tm, ?_, rfl⟩, rfl, hs⟩
    have hclock : s.tm.generatedClocks clockName = some .zero := hclock
    rw [TimingManager.run_getGeneratedClock pl hclock]
    simp [TimingManager.baseFrequency, TimingManager.generatedFrequency, ClockDefinition.zero, hf]

/-! ### The commands -/

/-- A command on clocks whose keys are missing asks for nothing, and is refused. -/
theorem answered_refused {keys : List String} {missing : String}
    {primary generated : Option PlatformRequest}
    (hcheck : checkClock arguments ("is_primary" :: keys) missing = .error r)
    (hkeys : ∀ {isPrimary : Bool} {request},
      (if isPrimary then primary else generated) = some request →
        ∀ key ∈ keys, ∃ v, arguments.find? key = some v) :
    Answered (ofClock primary generated arguments) s r s := by
  cases hrequest : ofClock primary generated arguments with
  | none => exact ⟨rfl, refused_of_checkClock hcheck⟩
  | some request =>
    obtain ⟨isPrimary, hprimary, hof⟩ := PlatformRequest.exists_primary_of_ofClock hrequest
    cases hcheck.symm.trans (checkClock_eq_ok.2 ⟨hprimary, hkeys hof⟩)

/-- To set a clock is to perform the request, or it is refused. -/
theorem answered_processSetClock (hs : OnlyZeros s)
    (h : (processSetClock w arguments).run s = .ok r s') :
    Answered (ofClock (setBaseClock? w arguments) (setGeneratedClock? w.env.platform arguments)
      arguments) s r s' := by
  have hanswered := answers_processSetClock.1 ⟨r, s', h⟩
  unfold processSetClock at h
  split at h
  · rename_i response hcheck
    obtain ⟨rfl, rfl⟩ := Exec.pure_eq_ok.1 h
    exact answered_refused hcheck PlatformRequest.keys_of_setClock
  · rename_i isPrimary hcheck
    obtain ⟨hprimary, hkeys⟩ := checkClock_eq_ok.1 hcheck
    obtain ⟨id, hid⟩ := hkeys "id" (by simp)
    obtain ⟨value, hvalue⟩ := hkeys "value" (by simp)
    have hset := hanswered isPrimary hprimary id hid value hvalue
    rw [ofClock_eq hprimary]
    rw [Exec.run_bind_of_ok (Json.run_atOrNull hid s),
      Exec.run_bind_of_ok (Json.run_atOrNull hvalue s)] at h
    cases isPrimary with
    | true =>
      obtain ⟨⟨clkF, hclkF⟩, ⟨clkN, hclkN, hfile⟩, hnull⟩ := hset
      obtain ⟨code, hcode⟩ := (exists_setPlClock (UInt64.ofNat clkF).toUInt32).2 hfile
      have hrequest := setBaseClock?_eq_some.2 ⟨clkF, by rw [hvalue]; exact hclkF, clkN,
        by rw [hid]; exact hclkN, code, hcode, rfl⟩
      rw [if_pos rfl,
        Exec.run_bind_of_ok (m := value.get (Json.uint32? _)) (Exec.require_eq_ok.2 ⟨hclkF, rfl⟩),
        Exec.run_bind_of_ok (m := id.get (Json.uint32? _)) (Exec.require_eq_ok.2 ⟨hclkN, rfl⟩),
        Exec.run_bind_of_ok (run_setBaseClock hnull hcode)] at h
      obtain ⟨rfl, rfl⟩ := Exec.pure_eq_ok.1 h
      rw [if_pos rfl, hrequest]
      exact ⟨rfl, hs⟩
    | false =>
      obtain ⟨⟨clockName, hname, hbridge⟩, hfactors⟩ := hset
      obtain ⟨m, hm⟩ := hfactors "m" (by simp)
      obtain ⟨d, hd⟩ := hfactors "d" (by simp)
      obtain ⟨p, hp⟩ := hfactors "p" (by simp)
      have hrequest := setGeneratedClock?_eq_some.2
        ⟨clockName, by rw [hid]; exact hname, value, hvalue, m, hm, d, hd, p, hp, rfl⟩
      rw [if_neg Bool.false_ne_true,
        Exec.run_bind_of_ok (m := id.get Json.text?) (Exec.require_eq_ok.2 ⟨hname, rfl⟩),
        Exec.run_bind_of_ok (run_clockFactor hm), Exec.run_bind_of_ok (run_clockFactor hd),
        Exec.run_bind_of_ok (run_clockFactor hp),
        Exec.run_bind_of_ok (run_setGeneratedClock hs hbridge _ _ _)] at h
      obtain ⟨rfl, rfl⟩ := Exec.pure_eq_ok.1 h
      rw [if_neg Bool.false_ne_true, hrequest]
      exact ⟨rfl, hs⟩

/-- So is to read one. -/
theorem answered_processGetClock (hs : OnlyZeros s)
    (h : (processGetClock w arguments).run s = .ok r s') :
    Answered (ofClock (getBaseClock? w.env.platform arguments)
      (getGeneratedClock? w.env.platform arguments) arguments) s r s' := by
  have hanswered := answers_processGetClock.1 ⟨r, s', h⟩
  unfold processGetClock at h
  split at h
  · rename_i response hcheck
    obtain ⟨rfl, rfl⟩ := Exec.pure_eq_ok.1 h
    exact answered_refused hcheck PlatformRequest.keys_of_getClock
  · rename_i isPrimary hcheck
    obtain ⟨hprimary, hkeys⟩ := checkClock_eq_ok.1 hcheck
    obtain ⟨id, hid⟩ := hkeys "id" (by simp)
    have hread := hanswered isPrimary hprimary id hid
    rw [ofClock_eq hprimary]
    rw [Exec.run_bind_of_ok (Json.run_atOrNull hid s)] at h
    cases isPrimary with
    | true =>
      obtain ⟨clkN, hclkN, hreads⟩ := hread
      obtain ⟨f, hf⟩ := (TimingManager.exists_baseFrequency s.psPlClkF).2 hreads
      have hrequest : getBaseClock? w.env.platform arguments =
          some (.getBaseClock w.env.platform (UInt8.ofNat clkN)) := by
        rw [getBaseClock?, hid]
        exact congrArg (Option.map _) hclkN
      rw [if_pos rfl,
        Exec.run_bind_of_ok (m := id.get (Json.uint32? _)) (Exec.require_eq_ok.2 ⟨hclkN, rfl⟩),
        Exec.run_bind_of_ok (run_getBaseClock hf)] at h
      obtain ⟨rfl, rfl⟩ := Exec.pure_eq_ok.1 h
      rw [if_pos rfl, hrequest]
      exact ⟨by simp only [PlatformRequest.act, memory, hf, Option.map_some], hs⟩
    | false =>
      obtain ⟨clockName, hname, hcomputes⟩ := hread
      have hzero : (s.generatedClocks clockName).getD .zero = .zero := by
        cases hclock : s.generatedClocks clockName with
        | none => rfl
        | some c => exact hs clockName c hclock
      rw [hzero] at hcomputes
      obtain ⟨f, hf⟩ := hcomputes.2.resolve_left (not_not.2 rfl)
      obtain ⟨t, hrun, hmemory, hzeros⟩ := run_getGeneratedClock clockName hs hf
      have hrequest : getGeneratedClock? w.env.platform arguments =
          some (.getGeneratedClock w.env.platform clockName) := by
        rw [getGeneratedClock?, hid]
        exact congrArg (Option.map _) hname
      rw [if_neg Bool.false_ne_true,
        Exec.run_bind_of_ok (m := id.get Json.text?) (Exec.require_eq_ok.2 ⟨hname, rfl⟩),
        Exec.run_bind_of_ok hrun] at h
      obtain ⟨rfl, rfl⟩ := Exec.pure_eq_ok.1 h
      rw [if_neg Bool.false_ne_true, hrequest]
      exact ⟨by simp only [PlatformRequest.act, hmemory, hf, Option.map_some], hzeros⟩

/-- Every command of the platform is answered as a request to it, or refused. -/
theorem answered_processCommand (hs : OnlyZeros s) {commandString : String}
    (hcommand : commandString ∈ Commands.platformCommands)
    (h : (processCommand w commandString arguments).run s = .ok r s') :
    Answered (PlatformRequest.ofCommand w commandString arguments) s r s' := by
  simp only [Commands.platformCommands, List.mem_cons, List.not_mem_nil, or_false] at hcommand
  rcases hcommand with rfl | rfl | rfl | rfl | rfl
  · exact answered_processSetClock hs h
  · exact answered_processGetClock hs h
  · change (processGetVersion w arguments).run s = _ at h
    cases arguments <;> obtain ⟨rfl, rfl⟩ := Exec.pure_eq_ok.1 h
    case string component => exact ⟨rfl, hs⟩
    all_goals exact ⟨rfl, _, rfl⟩
  · change (processSetDebugLevel arguments).run s = _ at h
    cases arguments
    case string level =>
      obtain ⟨u, t, hmodify, hpure⟩ := Exec.bind_eq_ok.1 h
      obtain rfl := Exec.modify_eq_ok.1 hmodify
      obtain ⟨rfl, rfl⟩ := Exec.pure_eq_ok.1 hpure
      exact ⟨rfl, hs⟩
    all_goals
      obtain ⟨rfl, rfl⟩ := Exec.pure_eq_ok.1 h
      exact ⟨rfl, _, rfl⟩
  · change (processGetDebugLevel).run s = _ at h
    obtain ⟨level, t, hlevel, hpure⟩ := Exec.bind_eq_ok.1 h
    obtain ⟨rfl, rfl⟩ := Exec.gets_eq_ok.1 hlevel
    obtain ⟨rfl, rfl⟩ := Exec.pure_eq_ok.1 hpure
    exact ⟨rfl, hs⟩

end PlatformEndpoints

/-! ## Served messages -/

namespace CommandProcessor

variable {message : Surroundings × Json} {p p' : CommandProcessor} {response : Json}

/-- The response to a command of the platform that was refused. -/
def RefusedAs (message : Surroundings × Json) (response : Json) : Prop :=
  ∃ commandString arguments text, asked message = some (commandString, arguments) ∧
    response = .object [("cmd", .string commandString), ("body",
      (Response.refused .invalidArg text).toJson)]

/-- What is not for the platform leaves it alone. -/
theorem platform_of_answer (hother : forPlatform message = false)
    (h : (answer message.1 message.2).run p = .ok response p') : p'.platform = p.platform := by
  rw [answer_parts, hother, if_neg Bool.false_ne_true] at h
  exact (Exec.onSnd_eq_ok.1 h).2

theorem of?_of_asked {commandString : String} {arguments : Json}
    (hasked : asked message = some (commandString, arguments)) :
    PlatformRequest.of? message =
      PlatformRequest.ofCommand message.1 commandString arguments := by
  rw [PlatformRequest.of?, hasked]
  rfl

theorem of?_of_not_forPlatform (hother : forPlatform message = false) :
    PlatformRequest.of? message = none := by
  unfold forPlatform at hother
  cases hasked : asked message with
  | none =>
    rw [PlatformRequest.of?, hasked]
    rfl
  | some command =>
    rw [hasked] at hother
    rw [of?_of_asked hasked]
    exact PlatformRequest.ofCommand_of_notMem (of_decide_eq_false hother)

/-- A message for the platform is answered by its request, or refused. -/
theorem answered_of_forPlatform (hp : p.platform.OnlyZeros)
    (hfor : forPlatform message = true) (h : (answer message.1 message.2).run p = .ok response p') :
    ∃ (commandString : String) (arguments : Json) (r : Response),
      asked message = some (commandString, arguments) ∧
      response = .object [("cmd", .string commandString), ("body", r.toJson)] ∧
      PlatformEndpoints.Answered (PlatformRequest.ofCommand message.1 commandString arguments)
        p.platform r p'.platform := by
  rw [answer_parts, if_pos hfor] at h
  unfold forPlatform at hfor
  cases hasked : asked message with
  | none =>
    rw [hasked] at hfor
    cases hfor
  | some command =>
    obtain ⟨commandString, arguments⟩ := command
    rw [hasked] at hfor
    rw [answerWith_of_asked hasked] at h
    obtain ⟨r, platform, hrun, hpure⟩ := Exec.bind_eq_ok.1 (Exec.onFst_eq_ok.1 h).1
    obtain ⟨rfl, hplatform⟩ := Exec.pure_eq_ok.1 hpure
    have hcommand : commandString ∈ Commands.platformCommands := of_decide_eq_true hfor
    have hanswered := PlatformEndpoints.answered_processCommand hp hcommand hrun
    rw [← hplatform] at hanswered
    exact ⟨commandString, arguments, r, rfl, rfl, hanswered⟩

/-- What is asked of the platform acts on what it keeps. -/
theorem answer_platformRequest (hp : p.platform.OnlyZeros)
    {request : PlatformRequest} (hrequest : PlatformRequest.of? message = some request)
    (h : (answer message.1 message.2).run p = .ok response p') :
    p'.platform.OnlyZeros ∧
      request.perform.run p.platform.memory = (response, p'.platform.memory) := by
  have hfor : forPlatform message = true := by
    by_contra hother
    rw [of?_of_not_forPlatform (Bool.eq_false_of_not_eq_true hother)] at hrequest
    cases hrequest
  obtain ⟨commandString, arguments, r, hasked, rfl, hanswered⟩ := answered_of_forPlatform hp hfor h
  rw [of?_of_asked hasked] at hrequest
  rw [hrequest] at hanswered
  obtain ⟨hact, hzeros⟩ := hanswered
  obtain rfl := PlatformRequest.cmd_of_ofCommand hrequest
  obtain ⟨hr, hmemory⟩ := Prod.mk.inj hact
  refine ⟨hzeros, ?_⟩
  rw [hr, hmemory]
  rfl

/-- And what is not understood is refused. -/
theorem answer_noPlatformRequest (hp : p.platform.OnlyZeros)
    (hrequest : PlatformRequest.of? message = none)
    (h : (answer message.1 message.2).run p = .ok response p') :
    p'.platform = p.platform ∧ (forPlatform message = true → RefusedAs message response) := by
  by_cases hfor : forPlatform message = true
  · obtain ⟨commandString, arguments, r, hasked, rfl, hanswered⟩ :=
      answered_of_forPlatform hp hfor h
    rw [← of?_of_asked hasked, hrequest] at hanswered
    obtain ⟨hplatform, text, rfl⟩ := hanswered
    exact ⟨hplatform, fun _ => ⟨commandString, arguments, text, hasked, rfl⟩⟩
  · exact ⟨platform_of_answer (Bool.eq_false_of_not_eq_true hfor) h, fun h' => absurd h' hfor⟩

/-- No message defines a clock that is not zero. -/
theorem onlyZeros_answer (hp : p.platform.OnlyZeros)
    (h : (answer message.1 message.2).run p = .ok response p') : p'.platform.OnlyZeros := by
  cases hrequest : PlatformRequest.of? message with
  | none =>
    rw [(answer_noPlatformRequest hp hrequest h).1]
    exact hp
  | some request => exact (answer_platformRequest hp hrequest h).1

/-- Over any run of the driver the platform is four frequencies and a log level : a base clock is
read as it was last set, a generated clock is set in vain and read as what a division by zero
leaves, and `get_debug_level` shows the level that was set last. What it answers otherwise is a
refusal, whatever was served between. -/
theorem serve_platform {messages : List (Surroundings × Json)} {responses : List Json}
    (hp : p.platform.OnlyZeros) (h : (serve messages).run p = .ok responses p') :
    p'.platform.OnlyZeros ∧
      ((messages.filterMap PlatformRequest.of?).mapM PlatformRequest.perform).run
          p.platform.memory =
        (Exec.resultsOf (fun message => (PlatformRequest.of? message).isSome) messages responses,
          p'.platform.memory) ∧
      List.Forall₂ (fun message response => forPlatform message = true →
        PlatformRequest.of? message = none → RefusedAs message response) messages responses := by
  obtain ⟨hzeros, hmemory⟩ := Exec.mapM_refines (A := fun _ => True)
    (I := fun t : CommandProcessor => t.platform.OnlyZeros)
    (v := fun t : CommandProcessor => t.platform.memory)
    (fun _ hrequest ht hanswer => answer_platformRequest ht hrequest hanswer)
    (fun _ hrequest ht hanswer => ⟨onlyZeros_answer ht hanswer,
      congrArg PlatformEndpoints.memory (answer_noPlatformRequest ht hrequest hanswer).1⟩)
    (fun _ _ => trivial) hp h
  refine ⟨hzeros, hmemory, Exec.forall₂_of_mapM (fun ht hanswer =>
    ⟨onlyZeros_answer ht hanswer, fun hfor hrequest => ?_⟩) hp h⟩
  exact (answer_noPlatformRequest ht hrequest hanswer).2 hfor

/-- The level is set and shown, a base clock is set and read by the low bits of its number, another
is not set without a frequency, and a generated clock is set and read in vain. -/
def levelAndClocks : List (Surroundings × Json) :=
  [(.of [] [], .object [("cmd", .string "set_debug_level"), ("args", .string "trace")]),
    (.of [] [], .object [("cmd", .string "set_pl_clock"), ("args", .object
      [("is_primary", .boolean true), ("id", .numberUnsigned 2),
        ("value", .numberUnsigned 150000000)])]),
    (.of [] [], .object [("cmd", .string "get_clock"), ("args", .object
      [("is_primary", .boolean true), ("id", .numberUnsigned 258)])]),
    (.of [] [], .object [("cmd", .string "set_pl_clock"), ("args", .object
      [("is_primary", .boolean true), ("id", .numberUnsigned 1)])]),
    (.of [] [], .object [("cmd", .string "set_pl_clock"), ("args", .object
      [("is_primary", .boolean false), ("id", .string "scope"), ("value", .object
        [("m", .numberUnsigned 2), ("d", .numberUnsigned 1), ("p", .numberUnsigned 0)])])]),
    (.of [] [], .object [("cmd", .string "get_clock"), ("args", .object
      [("is_primary", .boolean false), ("id", .string "scope")])]),
    (.of [] [], .object [("cmd", .string "hil_start"), ("args", .object [])]),
    (.of [] [], .object [("cmd", .string "get_debug_level"), ("args", .object [])])]

theorem serve_platform_levelAndClocks : ∃ responses p,
    (serve levelAndClocks).run started = .ok responses p ∧
      p.platform.psPlClkF 2 = 150000000 ∧
      ((levelAndClocks.filterMap PlatformRequest.of?).mapM PlatformRequest.perform).run
          started.platform.memory =
        (Exec.resultsOf (fun message => (PlatformRequest.of? message).isSome) levelAndClocks
          responses, p.platform.memory) := by
  obtain ⟨responses, p, h, hclock⟩ := Exec.exists_of_returnsIn
    (p := fun p : CommandProcessor => p.platform.psPlClkF 2 = 150000000)
    (show Exec.returnsIn (fun p : CommandProcessor => p.platform.psPlClkF 2 = 150000000)
      (serve levelAndClocks) started = true by decide +kernel)
  have hzeros : started.platform.OnlyZeros := fun _ _ hc => by cases hc
  obtain ⟨-, hmemory, -⟩ := serve_platform hzeros h
  exact ⟨responses, p, h, hclock, hmemory⟩

end CommandProcessor

end UscopeDriver
