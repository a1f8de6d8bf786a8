import UscopeDriver.Acquisition
import UscopeDriver.Answers
import UscopeDriver.Library.Service
import UscopeDriver.ServedRuns

/-!
# The driver as a memory

The commands on single registers and filters make a memory of the register window. As long as the
bus is live and a bitstream is loaded, a client that asks for them inside the window never sees
anything else, also when the other messages that the driver serves load programs, set maps or read
samples in between (`serve_registers`) : what is read is what was last stored, and every request
is answered with ok.
-/

namespace UscopeDriver

open LastWrite (store)

/-- What a client can ask of the registers. -/
inductive RegisterRequest where
  | write (address value : Nat)
  | proxied (proxyAddress target value : Nat)
  | filter (address : Nat) (taps : List Nat)
  | read (address : Nat)
  deriving DecidableEq, Repr

namespace RegisterRequest

/-- The command of a request. -/
def cmd : RegisterRequest → String
  | .write _ _ | .proxied _ _ _ => "register_write"
  | .filter _ _ => "apply_filter"
  | .read _ => "register_read"

/-- The arguments as a client sends them. A direct write has a proxy address as well. -/
def args : RegisterRequest → Json
  | .write address value => .object [("type", .string "direct"), ("proxy_type", .string ""),
      ("proxy_address", .numberUnsigned 0), ("address", .numberUnsigned address),
      ("value", .numberUnsigned value)]
  | .proxied proxyAddress target value => .object [("type", .string "proxied"),
      ("proxy_type", .string "axis_constant"), ("proxy_address", .numberUnsigned proxyAddress),
      ("address", .numberUnsigned target), ("value", .numberUnsigned value)]
  | .filter address taps => .object [("address", .numberUnsigned address),
      ("taps", .array (taps.map .numberUnsigned))]
  | .read address => .numberUnsigned address

/-- The message of a request. -/
def message (r : RegisterRequest) : Json :=
  .object [("cmd", .string r.cmd), ("args", r.args)]

/-- The address is in one of `nPages` pages from `controlAddr` on, and fits the bus. -/
def Maps (controlAddr nPages address : Nat) : Prop :=
  (controlAddr ≤ address ∧ (address - controlAddr) / 4 < nPages * BusAccessor.wordsPerPage) ∧
    address < 2 ^ 64

instance (controlAddr nPages address : Nat) : Decidable (Maps controlAddr nPages address) :=
  inferInstanceAs (Decidable (_ ∧ _))

/-- The request stays in the window, and its values fit the bus. -/
def InWindow (controlAddr nPages : Nat) : RegisterRequest → Prop
  | .write address value => Maps controlAddr nPages address ∧ value < 2 ^ 32
  | .proxied proxyAddress target value => Maps controlAddr nPages proxyAddress ∧
    Maps controlAddr nPages (proxyAddress + 4) ∧ target < 2 ^ 32 ∧ value < 2 ^ 32
  | .filter address taps => Maps controlAddr nPages address ∧
    Maps controlAddr nPages (address + 4) ∧ taps.length ≤ 2 ^ 32 ∧ ∀ tap ∈ taps, tap < 2 ^ 32
  | .read address => Maps controlAddr nPages address

instance (controlAddr nPages : Nat) (r : RegisterRequest) :
    Decidable (r.InWindow controlAddr nPages) := by
  cases r <;> unfold InWindow <;> infer_instance

/-- The words that the request stores, in order. The target goes behind the proxy, and the position
of a tap behind the tap. -/
def stores (controlAddr : Nat) : RegisterRequest → List (Nat × Nat)
  | .write address value => [((address - controlAddr) / 4, value)]
  | .proxied proxyAddress target value =>
    [((proxyAddress + 4 - controlAddr) / 4, target), ((proxyAddress - controlAddr) / 4, value)]
  | .filter address taps => taps.zipIdx.flatMap fun tap =>
    [((address - controlAddr) / 4, tap.1), ((address + 4 - controlAddr) / 4, tap.2)]
  | .read _ => []

/-- What a memory answers. -/
def data (controlAddr : Nat) (memory : Nat → Nat) : RegisterRequest → Option Json
  | .read address => some (.numberUnsigned (memory ((address - controlAddr) / 4)))
  | .write _ _ | .proxied _ _ _ | .filter _ _ => none

/-- The response to a request, by the registers. -/
def response (controlAddr : Nat) (memory : Nat → Nat) (r : RegisterRequest) : Json :=
  .object [("cmd", .string r.cmd),
    ("body", Response.toJson { responseCode := .ok, data := r.data controlAddr memory })]

/-- The request to a memory of words. -/
def perform (controlAddr : Nat) (r : RegisterRequest) : StateM (Nat → Nat) Json := do
  let memory ← get
  set (store memory (r.stores controlAddr))
  pure (r.response controlAddr memory)

end RegisterRequest

/-! ## The bridge -/

namespace FpgaBridge

variable {hw : FpgaBridge}

/-- The registers are behind a bus that is live and a bitstream. -/
structure Open (controlAddr nPages : Nat) (hw : FpgaBridge) : Prop where
  sinkMode : hw.busses.sinkMode = false
  loaded : hw.fpgaLoaded = true
  controlAddr : hw.busses.controlAddr = controlAddr
  nPagesCtrl : hw.busses.nPagesCtrl = nPages

variable {c n : Nat}

/-- On an open bus each address in the window is mapped. -/
theorem Open.mapsRegister (h : hw.Open c n) {address : Nat}
    (hmaps : RegisterRequest.Maps c n address) : hw.busses.MapsRegister address := by
  rw [BusAccessor.MapsRegister, h.controlAddr, h.nPagesCtrl]
  exact hmaps.1

/-- Requests store the words of their writes. -/
theorem Open.registers (h : hw.Open c n) (rs : List Request) :
    (hw.performAll rs).busses.registers =
      store hw.busses.registers (rs.filterMap (Request.registerWrite c)) := by
  rw [registers_performAll, if_pos ⟨h.loaded, h.sinkMode⟩, h.controlAddr]

/-- A proxied write stores the target and then the value. -/
theorem Open.writeProxied (h : hw.Open c n) {proxy target value : Nat}
    (hproxy : RegisterRequest.Maps c n proxy) (hproxy' : RegisterRequest.Maps c n (proxy + 4)) :
    ∃ hw', (writeProxied proxy target value).run hw = .ok () hw' ∧
      hw'.busses.registers = store hw.busses.registers
        [((proxy + 4 - c) / 4, u32 target), ((proxy - c) / 4, u32 value)] := by
  have hmaps := h.mapsRegister hproxy
  have hmaps' := h.mapsRegister hproxy'
  obtain ⟨hsink, hloaded, rfl, rfl⟩ := h
  have hp : u64 proxy = proxy := u64_of_lt hproxy.2
  have hp' : u64 (proxy + 4) = proxy + 4 := u64_of_lt hproxy'.2
  refine ⟨{ hw with busses := { hw.busses with
    operations := hw.busses.operations ++ [⟨[u32 target, proxy], [u32 value], .controlPlaneWrite⟩]
    registers := store hw.busses.registers [((proxy + 4 - hw.busses.controlAddr) / 4, u32 target),
      ((proxy - hw.busses.controlAddr) / 4, u32 value)] } }, ?_, rfl⟩
  rw [FpgaBridge.writeProxied, Exec.run_gets_bind, Exec.when_eq_ok]
  refine ⟨fun _ => onBus_eq_ok.2 ⟨_, ?_, rfl⟩, fun hn => absurd hloaded hn⟩
  simp only [BusAccessor.writeRegister, Exec.bind_eq_ok, Exec.modify_eq_ok, Exec.gets_eq_ok,
    Exec.when_eq_ok, BusAccessor.storeRegister_eq_ok, hp, hp']
  simp only [BusAccessor.MapsRegister] at hmaps hmaps'
  simp [hsink, BusAccessor.MapsRegister, hmaps, hmaps']

/-- A read gets the word and changes nothing. -/
theorem Open.readDirect (h : hw.Open c n) (random : Nat) {address : Nat}
    (haddress : RegisterRequest.Maps c n address) : ∃ hw',
      (readDirect random address).run hw = .ok (hw.busses.registers ((address - c) / 4)) hw' ∧
      hw'.busses.registers = hw.busses.registers := by
  have hmaps := h.mapsRegister haddress
  obtain ⟨hsink, hloaded, rfl, rfl⟩ := h
  refine ⟨{ hw with busses := { hw.busses with
    operations := hw.busses.operations ++ [⟨[address], [0], .controlPlaneRead⟩] } }, ?_, rfl⟩
  rw [FpgaBridge.readDirect, Exec.run_gets_bind, if_pos hloaded, u64_of_lt haddress.2]
  refine onBus_eq_ok.2 ⟨_, Exec.bind_eq_ok.2 ⟨(), _, rfl, Exec.bind_eq_ok.2 ⟨_, _, rfl, ?_⟩⟩, rfl⟩
  rw [if_neg (by simp [hsink])]
  exact Exec.bind_eq_ok.2 ⟨_, _, BusAccessor.accessRegister_eq_ok.2 ⟨hmaps, rfl, rfl⟩, rfl⟩

end FpgaBridge

/-! ## The endpoints -/

namespace ControlEndpoints

open FpgaBridge (Open)

variable {w : Surroundings} {c n : Nat} {hw : FpgaBridge}

/-- Natural numbers pass the tests of a write. -/
theorem checkArguments_naturals (pl : Platform) {arguments : Json} {address proxy value : Nat}
    (haddress : arguments.numberAt "address" = some (address : ℚ))
    (hproxy : arguments.numberAt "proxy_address" = some (proxy : ℚ))
    (hvalue : arguments.numberAt "value" = some (value : ℚ)) :
    (checkArguments pl arguments ["address", "proxy_address", "value"]).run hw = .ok true hw := by
  rw [run_checkArguments_cons _ _ _ haddress, if_pos (checkFloatIntness_natCast pl address),
    run_checkArguments_cons _ _ _ hproxy, if_pos (checkFloatIntness_natCast pl proxy),
    run_checkArguments_cons _ _ _ hvalue, if_pos (checkFloatIntness_natCast pl value)]
  rfl

/-- An accepted write of natural numbers does what the bridge does. -/
theorem run_writeRegister {hw' : FpgaBridge} (r : RegisterRequest) (address proxy value : Nat)
    (hcmd : r.cmd = "register_write")
    (haccepted : Commands.writeRegister w.validator.integralFloats r.args = true)
    (haddress : r.args.numberAt "address" = some (address : ℚ))
    (hproxy : r.args.numberAt "proxy_address" = some (proxy : ℚ))
    (hvalue : r.args.numberAt "value" = some (value : ℚ))
    (hrun : (FpgaBridge.singleWriteRegister w.env.platform r.args).run hw = .ok () hw') :
    (processCommand w r.cmd r.args).run hw = .ok { responseCode := .ok } hw' := by
  rw [hcmd]
  change (processSingleWriteRegister w.env.platform w.validator r.args).run hw = _
  unfold processSingleWriteRegister
  rw [(w.validator.validate_eq_none _ _).2 haccepted]
  exact Exec.bind_eq_ok.2 ⟨true, hw, checkArguments_naturals _ haddress hproxy hvalue,
    Exec.bind_eq_ok.2 ⟨(), hw', hrun, rfl⟩⟩

/-- A list of numbers is read as it is. -/
theorem vector?_numbers (pl : Platform) {words : List Nat} (h : ∀ word ∈ words, word < 2 ^ 32) :
    (Json.array (words.map .numberUnsigned)).vector? (Json.uint32? pl) = some words := by
  rw [Json.vector?]
  induction words with
  | nil => rfl
  | cons word words ih =>
    rw [List.forall_mem_cons] at h
    rw [List.map_cons, List.mapM_cons, ih h.2, Json.uint32?, u32_of_lt h.1]
    rfl

/-- A filter stores its taps in its two registers. -/
theorem run_filter (h : hw.Open c n) {address : Nat} {taps : List Nat}
    (hr : (RegisterRequest.filter address taps).InWindow c n) :
    ∃ hw', (FpgaBridge.applyFilter address taps).run hw = .ok () hw' ∧
      hw'.busses.registers =
        store hw.busses.registers ((RegisterRequest.filter address taps).stores c) := by
  obtain ⟨hmaps, hmaps', hlength, htaps⟩ := hr
  have ha : u64 address = address := u64_of_lt hmaps.2
  have ha' : u64 (address + 4) = address + 4 := u64_of_lt hmaps'.2
  have hadmits : hw.Admits (taps.zipIdx.flatMap (tapRequests address)) :=
    (FpgaBridge.admits_flatMap _ _ _).2 fun tap _ => by
      rw [tapRequests, FpgaBridge.admits_cons_cons, FpgaBridge.admits_write,
        FpgaBridge.admits_write, ha, ha']
      exact ⟨fun _ => Or.inr (h.mapsRegister hmaps), fun _ => Or.inr (h.mapsRegister hmaps')⟩
  refine ⟨_, (Drives.forM_requests applyTap_eq_ok _).2 ⟨fun _ _ => trivial, hadmits, rfl⟩, ?_⟩
  refine (h.registers _).trans (congrArg (store _) ?_)
  rw [List.filterMap_flatMap, RegisterRequest.stores]
  refine List.flatMap_congr fun tap htap => ?_
  have hword : tap.1 < 2 ^ 32 := htaps _ (List.fst_mem_of_mem_zipIdx htap)
  have hposition : tap.2 < 2 ^ 32 := by
    have := List.snd_lt_of_mem_zipIdx htap
    omega
  simp [tapRequests, Request.registerWrite, ha, ha', u32_of_lt hword, u32_of_lt hposition]

/-- A request in the window is answered with ok, and does what a memory does. -/
theorem processCommand_request (h : hw.Open c n) {r : RegisterRequest} (hr : r.InWindow c n) :
    ∃ hw', (processCommand w r.cmd r.args).run hw =
        .ok { responseCode := .ok, data := r.data c hw.busses.registers } hw' ∧
      hw'.busses.registers = store hw.busses.registers (r.stores c) := by
  cases r with
  | write address value =>
    obtain ⟨hmaps, hvalue⟩ := hr
    have hrange := hmaps.2
    have htype : (RegisterRequest.write address value).args.textAt "type" = some "direct" := rfl
    obtain ⟨a, m, -, -, ha, hm, hrun⟩ :=
      run_singleWriteRegister_direct w.env.platform htype rfl rfl rfl rfl
    obtain rfl := ha address hrange rfl
    obtain rfl := hm value hvalue rfl
    have hadmits : hw.Admits [.write (u64 a) (u32 m)] :=
      FpgaBridge.admits_write.2 fun _ => Or.inr (by
        rw [u64_of_lt hrange]
        exact h.mapsRegister hmaps)
    refine ⟨_, run_writeRegister (.write a m) a 0 m rfl rfl rfl rfl rfl
      ((hrun hw).trans (FpgaBridge.writeDirect_eq_ok.2 ⟨hadmits, rfl⟩)), ?_⟩
    rw [h.registers, u64_of_lt hrange, u32_of_lt hvalue]
    simp [Request.registerWrite, RegisterRequest.stores, u32_of_lt hvalue]
  | proxied proxyAddress target value =>
    obtain ⟨hmaps, hmaps', htarget, hvalue⟩ := hr
    have htype : (RegisterRequest.proxied proxyAddress target value).args.textAt "type" =
      some "proxied" := rfl
    obtain ⟨l, a, m, -, -, -, hl, ha, hm, hrun⟩ :=
      run_singleWriteRegister_proxied w.env.platform htype rfl rfl rfl rfl rfl rfl rfl
    obtain rfl := hl proxyAddress hmaps.2 rfl
    obtain rfl := ha target htarget rfl
    obtain rfl := hm value hvalue rfl
    obtain ⟨hw', hwrite, hregisters⟩ := h.writeProxied hmaps hmaps'
    refine ⟨hw', run_writeRegister (.proxied l a m) a l m rfl rfl rfl rfl rfl
      ((hrun hw).trans hwrite), ?_⟩
    rw [hregisters, u32_of_lt htarget, u32_of_lt hvalue]
    rfl
  | filter address taps =>
    obtain ⟨hw', hrun, hregisters⟩ := run_filter h hr
    obtain ⟨hmaps, -, hlength, htaps⟩ := hr
    have haccepted : Commands.applyFilterSchema w.validator.integralFloats
        (RegisterRequest.filter address taps).args = true := by
      simp [Commands.applyFilterSchema, Schema.keywords, Schema.properties, Schema.required,
        Schema.items, Schema.type, RegisterRequest.args, Json.find?, List.lookup_cons]
    have haddress : Json.uint64? w.env.platform (.numberUnsigned address) = some address :=
      congrArg some (u64_of_lt hmaps.2)
    refine ⟨hw', ?_, hregisters⟩
    change (processApplyFilter w _).run hw = _
    unfold processApplyFilter
    rw [(w.validator.validate_eq_none _ _).2 haccepted]
    refine Exec.bind_eq_ok.2 ⟨.numberUnsigned address, hw, rfl,
      Exec.bind_eq_ok.2 ⟨(address : ℚ), hw, rfl, ?_⟩⟩
    rw [if_pos (checkFloatIntness_natCast _ address)]
    exact Exec.bind_eq_ok.2 ⟨address, hw, Exec.require_eq_ok.2 ⟨haddress, rfl⟩,
      Exec.bind_eq_ok.2 ⟨.array (taps.map .numberUnsigned), hw, rfl,
        Exec.bind_eq_ok.2 ⟨taps, hw, Exec.require_eq_ok.2 ⟨vector?_numbers _ htaps, rfl⟩,
          Exec.bind_eq_ok.2 ⟨(), hw', hrun, rfl⟩⟩⟩⟩
  | read address =>
    obtain ⟨hw', hrun, hregisters⟩ := h.readDirect w.random hr
    have haddress : Json.uint64? w.env.platform (.numberUnsigned address) = some address :=
      congrArg some (u64_of_lt hr.2)
    exact ⟨hw', Exec.bind_eq_ok.2 ⟨address, hw, Exec.require_eq_ok.2 ⟨haddress, rfl⟩,
      Exec.bind_eq_ok.2 ⟨_, hw', hrun, rfl⟩⟩, hregisters⟩

end ControlEndpoints

/-! ## Served messages -/

/-- A message between requests to the registers. -/
inductive RegisterTraffic where
  | request (r : RegisterRequest)
  | other (commandObj : Json)

namespace RegisterTraffic

/-- The message of a client. -/
def message : RegisterTraffic → Json
  | .request r => r.message
  | .other commandObj => commandObj

/-- The request, if it is one for registers. -/
def request? : RegisterTraffic → Option RegisterRequest
  | .request r => some r
  | .other _ => none

/-- Requests are in the window, and nothing else writes registers. -/
def Orderly (controlAddr nPages : Nat) (w : Surroundings) : RegisterTraffic → Prop
  | .request r => r.InWindow controlAddr nPages
  | .other commandObj => Access.write ∉ CommandProcessor.messageAccesses (w, commandObj)

end RegisterTraffic

namespace CommandProcessor

variable {w : Surroundings} {c n : Nat} {p p' : CommandProcessor}

/-- A request is answered by the registers and changes them. -/
theorem answer_request (h : p.hw.Open c n) {r : RegisterRequest} (hr : r.InWindow c n) :
    ∃ p', (answer w r.message).run p = .ok (r.response c p.hw.busses.registers) p' ∧
      p'.hw.busses.registers = store p.hw.busses.registers (r.stores c) := by
  obtain ⟨hw', hrun, hregisters⟩ := ControlEndpoints.processCommand_request (w := w) h hr
  have haccepted : Commands.command w.validator.integralFloats r.message = true := by
    cases r <;> rfl
  have hcontrol : r.cmd ∈ Commands.controlCommands := by
    cases r <;> simp [RegisterRequest.cmd, Commands.controlCommands]
  refine ⟨{ p with hw := hw' }, ?_, hregisters⟩
  unfold answer
  rw [(w.validator.validate_eq_none _ _).2 haccepted]
  refine Exec.bind_eq_ok.2 ⟨.string r.cmd, p, rfl, Exec.bind_eq_ok.2 ⟨r.cmd, p, rfl,
    Exec.bind_eq_ok.2 ⟨r.args, p, rfl, Exec.bind_eq_ok.2 ⟨_, _, ?_, rfl⟩⟩⟩⟩
  rw [body, if_pos hcontrol]
  exact Exec.zoom_eq_ok.2 ⟨hw', hrun, rfl⟩

/-- The bus stays open whatever is served. -/
theorem open_answer {commandObj response : Json} (h : p.hw.Open c n)
    (hanswer : (answer w commandObj).run p = .ok response p') : p'.hw.Open c n := by
  have ht : p.hw.Touches (messageAccesses (w, commandObj)) p'.hw := touches_answer hanswer
  obtain ⟨hbase, hpages, -⟩ := BusAccessor.windows_eq_iff.1 ht.windows
  exact ⟨ht.sinkMode.trans h.sinkMode, ht.loaded h.loaded, hbase.trans h.controlAddr,
    hpages.trans h.nPagesCtrl⟩

/-- Requests in the window are all served. -/
theorem exists_serve_requests {traffic : List (Surroundings × RegisterTraffic)} (h : p.hw.Open c n)
    (htraffic : ∀ m ∈ traffic, m.2.Orderly c n m.1)
    (hrequests : ∀ m ∈ traffic, m.2.request?.isSome) :
    ∃ responses p', (serve (traffic.map fun m => (m.1, m.2.message))).run p =
      .ok responses p' := by
  induction traffic generalizing p with
  | nil => exact ⟨[], p, rfl⟩
  | cons m traffic ih =>
    rw [List.forall_mem_cons] at htraffic hrequests
    obtain ⟨r, hr⟩ := Option.isSome_iff_exists.1 hrequests.1
    have hm : m.2 = .request r := by
      cases hmessage : m.2 <;> simp_all [RegisterTraffic.request?]
    have hwindow : r.InWindow c n := by
      simpa [hm, RegisterTraffic.Orderly] using htraffic.1
    obtain ⟨t, hanswer, -⟩ := answer_request (w := m.1) h hwindow
    obtain ⟨responses, p', hrest⟩ := ih (open_answer h hanswer) htraffic.2 hrequests.2
    rw [List.map_cons, hm]
    exact ⟨_, p', Exec.mapM_cons_eq_ok.2 ⟨_, responses, t, rfl, hanswer, hrest⟩⟩

/-- With the bus live and a bitstream loaded, the requests to the registers see a memory of their
own, whatever is served between them that writes no register. On their own they are all served. -/
theorem serve_registers {traffic : List (Surroundings × RegisterTraffic)} (hp : p.hw.Open c n)
    (htraffic : ∀ m ∈ traffic, m.2.Orderly c n m.1) :
    ((∀ m ∈ traffic, m.2.request?.isSome) →
      ∃ responses p', (serve (traffic.map fun m => (m.1, m.2.message))).run p =
        .ok responses p') ∧
    ∀ responses p', (serve (traffic.map fun m => (m.1, m.2.message))).run p = .ok responses p' →
      ((traffic.filterMap fun m => m.2.request?).mapM (RegisterRequest.perform c)).run
          p.hw.busses.registers =
        (Exec.resultsOf (fun m => m.2.request?.isSome) traffic responses,
          p'.hw.busses.registers) := by
  refine ⟨exists_serve_requests hp htraffic, fun responses p' h => ?_⟩
  rw [serve, List.mapM_map] at h
  refine (Exec.mapM_refines (I := fun t => t.hw.Open c n) (v := fun t => t.hw.busses.registers)
    (A := fun m => m.2.Orderly c n m.1) ?_ ?_ htraffic hp h).2
  · rintro ⟨w, t⟩ r s response s' ht hr hs hanswer
    cases t with
    | other commandObj => cases hr
    | request r' =>
      obtain rfl := Option.some.inj hr
      obtain ⟨s'', hrun, hregisters⟩ := answer_request (w := w) hs ht
      cases hrun.symm.trans hanswer
      exact ⟨open_answer hs hanswer, Prod.ext rfl hregisters.symm⟩
  · rintro ⟨w, t⟩ s response s' ht hr hs hanswer
    cases t with
    | request r' => cases hr
    | other commandObj =>
      exact ⟨open_answer hs hanswer,
        (touches_answer hanswer).registers fun hwrite => ht hwrite.1⟩

/-- A value behind a proxy, the name of the processor, and a register that is read back. -/
def readBack : List (Surroundings × RegisterTraffic) :=
  [(.of [] [], .request (.proxied 0x400000000 5 7)),
    (.of [] [], .other (.object [("cmd", .string "null"), ("args", .object [])])),
    (.of [] [], .request (.read 0x400000004))]

/-- A proxied write, the read of its target, and another message in between. -/
theorem serve_registers_readBack : ∃ responses p,
    (serve (readBack.map fun m => (m.1, m.2.message))).run started = .ok responses p ∧
      ((readBack.filterMap fun m => m.2.request?).mapM (RegisterRequest.perform 0x400000000)).run
          started.hw.busses.registers =
        (Exec.resultsOf (fun m => m.2.request?.isSome) readBack responses,
          p.hw.busses.registers) := by
  obtain ⟨responses, p, h, -⟩ := Exec.exists_of_returnsIn (p := fun _ => True)
    (show Exec.returnsIn (fun _ => True) (serve (readBack.map fun m => (m.1, m.2.message)))
      started = true by decide +kernel)
  have hopen : started.hw.Open 0x400000000 344000 := ⟨rfl, rfl, rfl, rfl⟩
  refine ⟨responses, p, h, (serve_registers hopen fun m hm => ?_).2 responses p h⟩
  simp only [readBack, List.mem_cons, List.not_mem_nil, or_false] at hm
  rcases hm with rfl | rfl | rfl
  · exact show (RegisterRequest.proxied 0x400000000 5 7).InWindow 0x400000000 344000 by decide
  · rintro ⟨commandString, arguments, hasked, hwrite⟩
    cases hasked
    exact absurd hwrite (by decide)
  · exact show (RegisterRequest.read 0x400000004).InWindow 0x400000000 344000 by decide

end CommandProcessor

end UscopeDriver
