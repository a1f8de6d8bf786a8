import UscopeDriver.Calls
import UscopeDriver.RegisterWrites

/-!
# Commands that are answered

Nothing catches what leaves an endpoint. `Answers` says that a call returns, and has one rule per
construct of the endpoints. Behind the rules are the conditions on which the commands on
registers, filters and bitstreams are answered : the converted values are there, and the bus maps
the registers.
-/

namespace UscopeDriver

section Answers

variable {σ τ α β : Type} {s : σ}

/-- The call returns. -/
def Answers (m : Exec Failure σ α) (s : σ) : Prop :=
  ∃ a s', m.run s = .ok a s'

/-- To answer is to fail in no way. -/
theorem answers_iff_failsOnly {m : Exec Failure σ α} :
    Answers m s ↔ Exec.FailsOnly (fun _ => False) m s :=
  Exec.failsOnly_false.symm

/-- A value is an answer. -/
theorem answers_pure (a : α) : Answers (pure a : Exec Failure σ α) s :=
  ⟨a, s, rfl⟩

/-- An exception is none. -/
theorem not_answers_throw (e : Failure) : ¬Answers (throw e : Exec Failure σ α) s := by
  rintro ⟨a, s', h⟩
  exact Exec.throw_eq_ok.1 h

/-- A sequence answers if both parts do. -/
theorem answers_bind {m : Exec Failure σ α} {f : α → Exec Failure σ β} :
    Answers (m >>= f) s ↔ ∃ a t, m.run s = .ok a t ∧ Answers (f a) t := by
  unfold Answers
  simp only [Exec.bind_eq_ok]
  constructor
  · rintro ⟨b, s', a, t, hm, hf⟩
    exact ⟨a, t, hm, b, s', hf⟩
  · rintro ⟨a, t, hm, b, s', hf⟩
    exact ⟨b, s', a, t, hm, hf⟩

/-- The response of a call. -/
theorem answers_bind_pure {m : Exec Failure σ α} {f : α → β} :
    Answers (m >>= fun a => pure (f a)) s ↔ Answers m s := by
  rw [answers_bind]
  exact exists_congr fun a => exists_congr fun t => and_iff_left (answers_pure _)

/-- To look at the state always answers. -/
theorem answers_gets_bind {g : σ → α} {f : α → Exec Failure σ β} :
    Answers (Exec.gets g >>= f) s ↔ Answers (f (g s)) s :=
  Iff.rfl

/-- To change the state always answers. -/
theorem answers_modify_bind {g : σ → σ} {f : PUnit → Exec Failure σ β} :
    Answers (modify g >>= f) s ↔ Answers (f ⟨⟩) (g s) :=
  Iff.rfl

/-- One link of a chain of commands. -/
theorem answers_ite {c : Prop} [Decidable c] {m m' : Exec Failure σ α} {P Q : Prop}
    (hm : Answers m s ↔ P) (hm' : Answers m' s ↔ Q) :
    Answers (if c then m else m') s ↔ if c then P else Q := by
  split_ifs
  · exact hm
  · exact hm'

/-- A guarded call answers if it does where the guard holds. -/
theorem answers_when {c : Prop} [Decidable c] {m : Exec Failure σ Unit} :
    Answers (Exec.when c m) s ↔ (c → Answers m s) := by
  rw [answers_iff_failsOnly, answers_iff_failsOnly, Exec.failsOnly_when]

/-- A call on a part answers if it does on that part. -/
theorem answers_zoom {get : τ → σ} {set : σ → τ → τ} {m : Exec Failure σ α} {t : τ} :
    Answers (Exec.zoom get set m) t ↔ Answers m (get t) := by
  rw [answers_iff_failsOnly, answers_iff_failsOnly, Exec.failsOnly_zoom]

/-- A missing value is no answer. -/
theorem answers_require_bind {o : Option α} {e : Failure} {f : α → Exec Failure σ β} :
    Answers (Exec.require o e >>= f) s ↔ ∃ a, o = some a ∧ Answers (f a) s := by
  simp only [answers_bind, Exec.require_eq_ok, and_assoc, exists_and_left, exists_eq_left]

/-- An error is no answer. -/
theorem answers_ofExcept_bind {x : Except Failure α} {f : α → Exec Failure σ β} :
    Answers (Exec.ofExcept x >>= f) s ↔ ∃ a, x = .ok a ∧ Answers (f a) s := by
  simp only [answers_bind, Exec.ofExcept_eq_ok, and_assoc, exists_and_left, exists_eq_left]

theorem answers_callDispatcher {x : Except String α} :
    Answers (callDispatcher x : Exec Failure σ α) s ↔ ∃ a, x = .ok a := by
  simp only [Answers, callDispatcher_eq_ok, exists_and_left, exists_eq, and_true]

/-- A check answers if it does not throw. -/
theorem answers_throwIf_bind {c : Prop} [Decidable c] {e : Failure}
    {f : Unit → Exec Failure σ β} :
    Answers (Exec.throwIf c e >>= f) s ↔ ¬c ∧ Answers (f ()) s := by
  simp only [answers_bind, Exec.throwIf_eq_ok, and_assoc, exists_and_left, exists_eq_left]
  refine and_congr_right fun _ => ⟨?_, fun h => ⟨(), h⟩⟩
  rintro ⟨⟨⟩, h⟩
  exact h

/-- An argument of the wrong kind is no answer. -/
theorem answers_get_bind {read : Json → Option α} {j : Json} {f : α → Exec Failure σ β} :
    Answers (j.get read >>= f) s ↔ ∃ a, read j = some a ∧ Answers (f a) s :=
  answers_require_bind

/-- A missing key is no answer. -/
theorem answers_at'_bind {key : String} {j : Json} {f : Json → Exec Failure σ β} :
    Answers (j.at' key >>= f) s ↔ ∃ v, j.find? key = some v ∧ Answers (f v) s := by
  simp only [answers_bind, Json.at'_eq_ok, and_assoc, exists_and_left, exists_eq_left]

/-- Both at once. -/
theorem answers_at'_get_bind {key : String} {read : Json → Option α} {j : Json}
    {f : α → Exec Failure σ β} : Answers (j.at' key >>= fun v => v.get read >>= f) s ↔
      ∃ a, (j.find? key).bind read = some a ∧ Answers (f a) s := by
  simp only [answers_at'_bind, answers_get_bind, Option.bind_eq_some_iff]
  constructor
  · rintro ⟨v, hv, a, ha, hf⟩
    exact ⟨a, ⟨v, hv, ha⟩, hf⟩
  · rintro ⟨a, ⟨v, hv, ha⟩, hf⟩
    exact ⟨v, hv, a, ha, hf⟩

/-- A missing key of an object is null, and so is any key of null. -/
theorem answers_atOrNull_bind {key : String} {j : Json} {f : Json → Exec Failure σ β} :
    Answers (j.atOrNull key >>= f) s ↔ ((∃ members, j = .object members) ∨ j = .null) ∧
      Answers (f ((j.find? key).getD .null)) s := by
  cases j with
  | object members => simp [Json.atOrNull, Json.find?]
  | null => simp [Json.atOrNull, Json.find?]
  | _ => simp [Json.atOrNull, answers_bind, Exec.throw_eq_ok]

end Answers

/-! ## The bridge -/

namespace FpgaBridge

variable {hw : FpgaBridge}

/-- An access to the register does not end the process. -/
def MapsRegister (hw : FpgaBridge) (address : Nat) : Prop :=
  hw.fpgaLoaded = true → hw.busses.sinkMode = true ∨ hw.busses.MapsRegister address

/-- A write is admitted if its register is mapped, on a live bus behind a bitstream. -/
theorem admits_write {address value : Nat} :
    hw.Admits [.write address value] ↔ hw.MapsRegister address := by
  simp [Admits, MapsRegister, reachesBus, BusAccessor.Admits]

/-- A write is answered if its register is mapped. -/
theorem answers_writeDirect {addr val : Nat} :
    Answers (writeDirect addr val) hw ↔ hw.MapsRegister (u64 addr) := by
  simp only [Answers, writeDirect_eq_ok, exists_const, exists_and_left, exists_eq, and_true,
    admits_write]

/-- A muted bus answers every read. -/
theorem answers_readRegister {random address : Nat} {b : BusAccessor} :
    Answers (BusAccessor.readRegister random [address]) b ↔
      b.sinkMode = true ∨ b.MapsRegister address := by
  rw [BusAccessor.readRegister, answers_modify_bind, answers_gets_bind]
  by_cases hs : b.sinkMode = true
  · simp [hs, answers_pure]
  · rw [if_neg hs, or_iff_right hs, answers_bind]
    simp only [BusAccessor.accessRegister_eq_ok, and_assoc, exists_and_left, exists_eq_left]
    exact and_iff_left ⟨_, _, rfl⟩

/-- A read is answered if its register is mapped. -/
theorem answers_readDirect {random address : Nat} :
    Answers (readDirect random address) hw ↔ hw.MapsRegister (u64 address) := by
  rw [readDirect, answers_gets_bind]
  unfold MapsRegister
  split_ifs with hl
  · rw [onBus, answers_zoom, answers_readRegister, forall_prop_of_true hl]
  · exact iff_of_true (answers_pure _) fun h => absurd h hl

/-- A proxied write reaches two registers of the peripheral. -/
theorem answers_writeProxied {proxyAddr targetAddr val : Nat} :
    Answers (writeProxied proxyAddr targetAddr val) hw ↔
      hw.MapsRegister (u64 (u64 proxyAddr + 4)) ∧ hw.MapsRegister (u64 proxyAddr) := by
  rw [writeProxied, answers_gets_bind, answers_when, onBus, answers_zoom]
  unfold MapsRegister Answers
  simp only [BusAccessor.writeRegister, Exec.bind_eq_ok, Exec.modify_eq_ok, Exec.gets_eq_ok,
    Exec.when_eq_ok, BusAccessor.storeRegister_eq_ok, exists_const, exists_and_left, and_assoc,
    exists_eq_left]
  by_cases hs : hw.busses.sinkMode = true
  · simp [hs]
  · simp [hs, imp_and, BusAccessor.MapsRegister]

end FpgaBridge

/-! ## Registers, filters and bitstreams -/

namespace ControlEndpoints

variable {w : Surroundings} {pl : Platform} {validator : SchemaValidator} {arguments : Json}
  {hw : FpgaBridge}

/-- The bitstream can be decoded, and the architecture has a device for it. -/
def LoadBitstreamAnswered (w : Surroundings) : Json → Prop
  | .string text => (∃ data, w.decodeBase64 text = some data) ∧
      ∃ file, w.devices.ifDict.getFpgaBitstreamIf = .ok file
  | _ => True

/-- A bitstream is answered, loaded or not, once its device is known. -/
theorem answers_loadBitstream {d : InterfacesDictionary}
    {load : String → List UInt8 → BitstreamLoad} {bitstream : List UInt8} :
    Answers (FpgaBridge.loadBitstream d load bitstream) hw ↔
      ∃ file, d.getFpgaBitstreamIf = .ok file := by
  rw [FpgaBridge.loadBitstream, answers_ofExcept_bind]
  refine exists_congr fun file => and_iff_left ?_
  cases load file bitstream with
  | refused => exact answers_pure _
  | status c =>
    dsimp only
    split_ifs
    · exact answers_pure _
    · exact answers_modify_bind.2 (answers_pure _)

theorem answers_processLoadBitstream :
    Answers (processLoadBitstream w arguments) hw ↔ LoadBitstreamAnswered w arguments := by
  unfold processLoadBitstream LoadBitstreamAnswered
  cases arguments with
  | string text =>
    simp only [answers_require_bind, answers_bind_pure, answers_loadBitstream]
    exact exists_and_right
  | _ => exact iff_of_true (answers_pure _) trivial

/-- The bus maps the registers of the write, and the proxy is of the only known type. -/
def WriteAnswered (pl : Platform) (arguments : Json) (hw : FpgaBridge) : Prop :=
  (arguments.textAt "type" = some "direct" ∧ ∃ a n, arguments.find? "address" = some a ∧
      a.uint64? pl = some n ∧ hw.MapsRegister n) ∨
    arguments.textAt "type" = some "proxied" ∧
      arguments.textAt "proxy_type" = some "axis_constant" ∧
      ∃ p n, arguments.find? "proxy_address" = some p ∧ p.uint64? pl = some n ∧
        hw.MapsRegister (u64 (n + 4)) ∧ hw.MapsRegister n

/-- A register write is answered by the form it has. -/
theorem answers_singleWriteRegister (h : WellFormed arguments) :
    Answers (FpgaBridge.singleWriteRegister pl arguments) hw ↔ WriteAnswered pl arguments hw := by
  obtain ⟨y, hvalue⟩ := h.value
  obtain ⟨v, hv, hy⟩ := Json.numberAt_eq_some.1 hvalue
  obtain ⟨x, haddress⟩ := h.address
  obtain ⟨a, ha, hx⟩ := Json.numberAt_eq_some.1 haddress
  obtain ⟨m, hm⟩ := Json.exists_uint32? pl hy
  obtain ⟨k, hk⟩ := Json.exists_uint32? pl hx
  unfold WriteAnswered
  rcases h.type with ht | ⟨ht, -, t, hpt⟩
  · have hne : some "direct" ≠ some "proxied" := by decide
    simp only [FpgaBridge.singleWriteRegister, answers_at'_bind, Json.textAt_eq_some.1 ht,
      Option.some.injEq, exists_eq_left', Json.isString, beq_self_eq_true, if_true,
      Json.getUint64_eq, Json.getUint32_eq, answers_get_bind, FpgaBridge.answers_writeDirect, ha,
      hv, hm, ht, hne, false_and, or_false, true_and, exists_and_left]
    exact exists_congr fun n => and_congr_right fun hn => by rw [u64_of_lt (Json.uint64?_lt hn)]
  · have hne : some "proxied" ≠ some "direct" := by decide
    have htype : ("proxied" == "direct") = false := by decide
    simp only [FpgaBridge.singleWriteRegister, answers_at'_bind, Json.textAt_eq_some.1 ht,
      Json.textAt_eq_some.1 hpt, Option.some.injEq, exists_eq_left', Json.isString, htype,
      Bool.false_eq_true, if_false, beq_self_eq_true, if_true, ht, hpt, hne, false_and, false_or,
      true_and]
    by_cases hc : t = "axis_constant"
    · subst hc
      simp only [beq_self_eq_true, if_true, answers_at'_bind, Json.getUint64_eq,
        Json.getUint32_eq, answers_get_bind, FpgaBridge.answers_writeProxied, ha, hv, hm, hk,
        Option.some.injEq, exists_eq_left', true_and, exists_and_left]
      refine exists_congr fun p => and_congr_right fun _ => exists_congr fun n =>
        and_congr_right fun hn => ?_
      rw [u64_of_lt (Json.uint64?_lt hn)]
    · simp [hc, not_answers_throw]

/-- A request that the schema accepts is refused by a test, or the tests have a proxy address and
the write is answered. -/
def RegisterWriteAnswered (pl : Platform) (validator : SchemaValidator) (arguments : Json)
    (hw : FpgaBridge) : Prop :=
  Commands.writeRegister validator.integralFloats arguments = true →
    ¬Integral pl arguments "address" ∨ (∃ v, arguments.find? "proxy_address" = some v) ∧
      (¬Integral pl arguments "value" ∨ WriteAnswered pl arguments hw)

theorem answers_processSingleWriteRegister :
    Answers (processSingleWriteRegister pl validator arguments) hw ↔
      RegisterWriteAnswered pl validator arguments hw := by
  unfold processSingleWriteRegister RegisterWriteAnswered
  rcases validator.validate_cases (Commands.writeRegister validator.integralFloats) arguments with
    ⟨errorMessage, hvalidate, hrejected⟩ | ⟨hvalidate, haccepted⟩
  · rw [hvalidate]
    exact iff_of_true (answers_pure _) fun h => absurd h hrejected
  · have h := wellFormed_of_accepted haccepted
    rw [hvalidate, forall_prop_of_true haccepted]
    simp only [answers_bind]
    rcases checkArguments_cases h hw with ⟨ha, hrun⟩ | ⟨ha, hp, hrun⟩ | ⟨ha, hp, hv, hrun⟩ |
      ⟨ha, hp, hv, hrun⟩
    · exact iff_of_true ⟨_, _, hrun, answers_pure _⟩ (Or.inl ha)
    · simp [hrun, ha, hp]
    · exact iff_of_true ⟨_, _, hrun, answers_pure _⟩ (Or.inr ⟨hp, Or.inl hv⟩)
    · simp only [ha, hp, hv, not_true_eq_false, false_or, true_and,
        ← answers_singleWriteRegister h]
      constructor
      · rintro ⟨c, t, hc, hanswers⟩
        obtain ⟨rfl, rfl⟩ : c = true ∧ t = hw := by simpa [hrun, eq_comm] using hc
        rw [if_pos rfl] at hanswers
        exact answers_bind_pure.1 hanswers
      · intro hanswers
        exact ⟨true, hw, hrun, by rw [if_pos rfl]; exact answers_bind_pure.2 hanswers⟩

/-- The bus maps the register that a number stands for. -/
def RegisterReadAnswered (pl : Platform) (arguments : Json) (hw : FpgaBridge) : Prop :=
  arguments.number?.isSome → ∀ n, arguments.uint64? pl = some n → hw.MapsRegister n

theorem answers_processSingleReadRegister :
    Answers (processSingleReadRegister w arguments) hw ↔
      RegisterReadAnswered w.env.platform arguments hw := by
  unfold processSingleReadRegister RegisterReadAnswered
  cases hnumber : arguments.number? with
  | none => exact iff_of_true (by simpa using answers_pure _) nofun
  | some x =>
    obtain ⟨n, hn⟩ := Json.exists_uint64? w.env.platform hnumber
    simp only [Option.isNone_some, Bool.false_eq_true, if_false, answers_get_bind, hn,
      Option.some.injEq, exists_eq_left', answers_bind_pure, FpgaBridge.answers_readDirect,
      Option.isSome_some, forall_const, forall_eq', u64_of_lt (Json.uint64?_lt hn)]

/-- The two writes of a tap. -/
def tapRequests (address : Nat) (tap : Nat × Nat) : List Request :=
  [.write (u64 address) (u32 tap.1), .write (u64 (address + 4)) (u32 tap.2)]

/-- A tap makes its pair of writes. -/
theorem applyTap_eq_ok {address : Nat} (tap : Nat × Nat) (hw : FpgaBridge) (u : PUnit)
    (hw' : FpgaBridge) : (FpgaBridge.applyTap address tap).run hw = .ok u hw' ↔
      True ∧ hw.Admits (tapRequests address tap) ∧
        hw' = hw.performAll (tapRequests address tap) := by
  simp only [FpgaBridge.applyTap, Exec.bind_eq_ok, FpgaBridge.writeDirect_eq_ok, and_assoc,
    exists_const, exists_and_left, exists_eq_left, FpgaBridge.admits_performAll,
    FpgaBridge.performAll_performAll, tapRequests, FpgaBridge.admits_cons_cons, true_and]
  exact Iff.rfl

/-- A filter is answered if both of its registers are mapped. -/
theorem answers_applyFilter {address : Nat} {taps : List Nat} :
    Answers (FpgaBridge.applyFilter address taps) hw ↔
      taps = [] ∨ hw.MapsRegister (u64 address) ∧ hw.MapsRegister (u64 (address + 4)) := by
  have htap : ∀ tap, hw.Admits (tapRequests address tap) ↔
      hw.MapsRegister (u64 address) ∧ hw.MapsRegister (u64 (address + 4)) := fun tap => by
    rw [tapRequests, FpgaBridge.admits_cons_cons, FpgaBridge.admits_write, FpgaBridge.admits_write]
  unfold Answers FpgaBridge.applyFilter
  simp only [Drives.forM_requests applyTap_eq_ok, exists_const, exists_and_left, exists_eq,
    and_true]
  rw [and_iff_right fun _ _ => trivial]
  refine (FpgaBridge.admits_flatMap _ _ _).trans ?_
  simp only [Drives.hw, id, htap]
  rw [← @List.zipIdx_eq_nil_iff _ taps 0]
  rcases taps.zipIdx with - | ⟨tap, rest⟩
  · simp
  · simp only [List.forall_mem_cons, reduceCtorEq, false_or]
    exact ⟨And.left, fun h => ⟨h, fun _ _ => h⟩⟩

/-- An accepted object with an address and a list of integers. -/
theorem words_of_accepted (pl : Platform) {integralFloats : Bool} {key : String}
    (h : Schema.keywords [
      Schema.properties [("address", Schema.type integralFloats .number),
        (key, Schema.keywords [Schema.type integralFloats .array,
          Schema.items (Schema.type integralFloats .integer)])],
      Schema.required ["address", key], Schema.type integralFloats .object] arguments = true) :
    (∃ members, arguments = .object members) ∧ (∃ x, arguments.numberAt "address" = some x) ∧
      ∃ elements words, arguments.find? key = some (.array elements) ∧
        (Json.array elements).vector? (Json.uint32? pl) = some words ∧
        words.length = elements.length := by
  obtain ⟨hobject, hrequired, hproperties⟩ := Schema.of_object h
  obtain ⟨a, ha⟩ := hrequired "address" (by simp)
  obtain ⟨v, hv⟩ := hrequired key (by simp)
  obtain ⟨x, hx⟩ := Schema.number_of_type (hproperties (List.mem_cons_self ..) ha)
  obtain ⟨elements, rfl, hitems⟩ := Schema.of_array
    (hproperties (List.mem_cons_of_mem _ (List.mem_cons_self ..)) hv)
  refine ⟨hobject, ⟨x, Json.numberAt_eq_some.2 ⟨a, ha, hx⟩⟩, elements, ?_⟩
  have hwords : ∀ el ∈ elements, ∃ n, el.uint32? pl = some n := by
    intro el hel
    obtain ⟨i, hi⟩ := Schema.integer_of_type (hitems el hel)
    exact Json.exists_uint32? pl hi
  obtain ⟨words, hvector, hlength⟩ := Json.exists_vector? hwords
  exact ⟨words, hv, hvector, hlength⟩

/-- A filter that the schema accepts is refused by the test of its address, has no taps, or the bus
maps its two registers. -/
def FilterAnswered (w : Surroundings) (arguments : Json) (hw : FpgaBridge) : Prop :=
  Commands.applyFilterSchema w.validator.integralFloats arguments = true →
    ¬Integral w.env.platform arguments "address" ∨ arguments.find? "taps" = some (.array []) ∨
      ∀ a, arguments.find? "address" = some a → ∀ n, a.uint64? w.env.platform = some n →
        hw.MapsRegister n ∧ hw.MapsRegister (u64 (n + 4))

theorem answers_processApplyFilter :
    Answers (processApplyFilter w arguments) hw ↔ FilterAnswered w arguments hw := by
  unfold processApplyFilter FilterAnswered
  rcases w.validator.validate_cases (Commands.applyFilterSchema w.validator.integralFloats)
    arguments with ⟨errorMessage, hvalidate, hrejected⟩ | ⟨hvalidate, haccepted⟩
  · rw [hvalidate]
    exact iff_of_true (answers_pure _) fun h => absurd h hrejected
  · rw [hvalidate, forall_prop_of_true haccepted]
    obtain ⟨⟨members, rfl⟩, ⟨x, haddress⟩, elements, taps, htaps, hwords, hlength⟩ :=
      words_of_accepted w.env.platform haccepted
    have hnil : taps = [] ↔ elements = [] := by
      rw [← List.length_eq_zero_iff, hlength, List.length_eq_zero_iff]
    obtain ⟨a, ha, hx⟩ := Json.numberAt_eq_some.1 haddress
    obtain ⟨n, hn⟩ := Json.exists_uint64? w.env.platform hx
    have hintegral : Integral w.env.platform (.object members) "address" ↔
        checkFloatIntness w.env.platform x = true := by
      simp only [Integral, haddress, Option.some.injEq, exists_eq_left']
    simp only [answers_atOrNull_bind, answers_get_bind, ha, hx, Option.getD_some,
      Option.some.injEq, exists_eq_left', hintegral]
    by_cases hx : checkFloatIntness w.env.platform x = true
    · simp only [hx, if_true, answers_get_bind, answers_atOrNull_bind, answers_bind_pure, hn, htaps,
        hwords, hnil, Option.getD_some, Option.some.injEq, exists_eq_left', forall_eq',
        answers_applyFilter, u64_of_lt (Json.uint64?_lt hn), Json.array.injEq,
        Json.object.injEq, exists_eq', true_or, true_and, not_true_eq_false, false_or]
    · exact iff_of_true (by simp [hx, answers_pure]) (Or.inl hx)

/-- The commands on the control bus that are answered. -/
def CommandAnswered (w : Surroundings) (commandString : String) (arguments : Json)
    (hw : FpgaBridge) : Prop :=
  if commandString = "load_bitstream" then LoadBitstreamAnswered w arguments
  else if commandString = "register_write" then
    RegisterWriteAnswered w.env.platform w.validator arguments hw
  else if commandString = "register_read" then RegisterReadAnswered w.env.platform arguments hw
  else if commandString = "apply_filter" then FilterAnswered w arguments hw
  else True

/-- A control command is answered on its condition. -/
theorem answers_processCommand {commandString : String} :
    Answers (processCommand w commandString arguments) hw ↔
      CommandAnswered w commandString arguments hw :=
  answers_ite answers_processLoadBitstream <|
  answers_ite answers_processSingleWriteRegister <|
  answers_ite answers_processSingleReadRegister <|
  answers_ite answers_processApplyFilter <|
  iff_of_true (answers_pure _) trivial

end ControlEndpoints

end UscopeDriver
