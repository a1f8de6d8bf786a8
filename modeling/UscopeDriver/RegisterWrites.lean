import UscopeDriver.ControlEndpoints
import UscopeDriver.Requests

/-!
# Requests to write a register

A `register_write` that the schema accepts is executed exactly, with one recorded operation that
carries the numbers of the request, or refused without any (`ExecutedOrRefused`). The endpoint
tests the three numbers in turn, and makes the proxy address when it is missing. What the tests
let through is converted to the widths of the bus (`write_register_iff`).
-/

namespace UscopeDriver

namespace BusAccessor

/-- The call returns with one more operation in the log. -/
def Records (m : Exec Failure BusAccessor Unit) (b : BusAccessor) (o : BusOp) : Prop :=
  ∃ u b', m.run b = .ok u b' ∧ b'.operations = b.operations ++ [o]

/-- The bus records a write that is mapped or muted. -/
theorem records_direct {b : BusAccessor} {address data : Nat} {o : BusOp} :
    Records (writeRegister [address] data) b o ↔
      (b.sinkMode = true ∨ b.MapsRegister address) ∧
        o = ⟨[address], [data], .controlPlaneWrite⟩ := by
  simp only [Records, writeRegister, Exec.bind_eq_ok, Exec.modify_eq_ok, Exec.gets_eq_ok,
    Exec.when_eq_ok, storeRegister_eq_ok, MapsRegister, exists_const, exists_and_left, and_assoc,
    exists_eq_left]
  cases hs : b.sinkMode with
  | true => simp [eq_comm]
  | false => simp [and_assoc, eq_comm]

/-- The target goes to the second register of the proxy, the data to the first. -/
theorem records_proxied {b : BusAccessor} {target proxy data : Nat} {o : BusOp} :
    Records (writeRegister [target, proxy] data) b o ↔
      (b.sinkMode = true ∨ b.MapsRegister (u64 (proxy + 4)) ∧ b.MapsRegister proxy) ∧
        o = ⟨[target, proxy], [data], .controlPlaneWrite⟩ := by
  simp only [Records, writeRegister, Exec.bind_eq_ok, Exec.modify_eq_ok, Exec.gets_eq_ok,
    Exec.when_eq_ok, storeRegister_eq_ok, MapsRegister, exists_const, exists_and_left, and_assoc,
    exists_eq_left]
  cases hs : b.sinkMode with
  | true => simp [eq_comm]
  | false => simp [and_assoc, eq_comm]

end BusAccessor

namespace FpgaBridge

/-- The call returns and records that operation. -/
def Records (m : Exec Failure FpgaBridge Unit) (hw : FpgaBridge) (o : BusOp) : Prop :=
  ∃ u hw', m.run hw = .ok u hw' ∧ hw'.busses.operations = hw.busses.operations ++ [o]

/-- Without a bitstream nothing is recorded. -/
theorem records_when_loaded {m : Exec Failure BusAccessor Unit} {hw : FpgaBridge} {o : BusOp} :
    Records (Exec.gets (·.fpgaLoaded) >>= fun loaded => Exec.when (loaded = true) (onBus m)) hw o ↔
      hw.fpgaLoaded = true ∧ BusAccessor.Records m hw.busses o := by
  unfold Records
  rw [Exec.run_gets_bind]
  simp only [Exec.when_eq_ok, onBus_eq_ok]
  by_cases h : hw.fpgaLoaded = true
  · constructor
    · rintro ⟨u, hw', ⟨hrun, -⟩, hops⟩
      obtain ⟨b, hb, rfl⟩ := hrun h
      exact ⟨h, u, b, hb, hops⟩
    · rintro ⟨-, u, b, hb, hops⟩
      exact ⟨u, { hw with busses := b }, ⟨fun _ => ⟨b, hb, rfl⟩, fun hn => (hn h).elim⟩, hops⟩
  · refine iff_of_false ?_ fun hrecords => h hrecords.1
    rintro ⟨u, hw', ⟨-, hsame⟩, hops⟩
    simp [hsame h] at hops

/-- A direct write is recorded with its address. -/
theorem records_writeDirect {addr val : Nat} {hw : FpgaBridge} {o : BusOp} :
    Records (writeDirect addr val) hw o ↔ hw.fpgaLoaded = true ∧
      (hw.busses.sinkMode = true ∨ hw.busses.MapsRegister (u64 addr)) ∧
        o = ⟨[u64 addr], [u32 val], .controlPlaneWrite⟩ := by
  rw [writeDirect, records_when_loaded, BusAccessor.records_direct]

/-- A proxied write is recorded with both addresses. -/
theorem records_writeProxied {proxyAddr targetAddr val : Nat} {hw : FpgaBridge} {o : BusOp} :
    Records (writeProxied proxyAddr targetAddr val) hw o ↔ hw.fpgaLoaded = true ∧
      (hw.busses.sinkMode = true ∨ hw.busses.MapsRegister (u64 (u64 proxyAddr + 4)) ∧
        hw.busses.MapsRegister (u64 proxyAddr)) ∧
        o = ⟨[u32 targetAddr, u64 proxyAddr], [u32 val], .controlPlaneWrite⟩ := by
  rw [writeProxied, records_when_loaded, BusAccessor.records_proxied]

end FpgaBridge

namespace ControlEndpoints

/-- The operation that a request asks for. -/
def RequestedOp (arguments : Json) (o : BusOp) : Prop :=
  ∃ address value : Nat, arguments.numberAt "address" = some (address : ℚ) ∧
    arguments.numberAt "value" = some (value : ℚ) ∧
    ((arguments.textAt "type" = some "direct" ∧
        o = ⟨[address], [value], .controlPlaneWrite⟩) ∨
      ∃ proxyAddress : Nat, arguments.textAt "type" = some "proxied" ∧
        arguments.textAt "proxy_type" = some "axis_constant" ∧
        arguments.numberAt "proxy_address" = some (proxyAddress : ℚ) ∧
        o = ⟨[address, proxyAddress], [value], .controlPlaneWrite⟩)

/-- The widths of the bus : 32 bits of data, 64 of an address, 32 of a target behind a proxy. -/
def InRange (o : BusOp) : Prop :=
  (∀ value ∈ o.data, value < 2 ^ 32) ∧
    match o.address with
    | [address] => address < 2 ^ 64
    | [target, proxy] => target < 2 ^ 32 ∧ proxy < 2 ^ 64
    | _ => False

/-- Executed exactly, or refused with nothing recorded. What is in range is executed. -/
def ExecutedOrRefused (pl : Platform) (validator : SchemaValidator) (arguments : Json)
    (hw : FpgaBridge) : Prop :=
  ∃ r hw', (processSingleWriteRegister pl validator arguments).run hw = .ok r hw' ∧
    ((r.responseCode = .ok ∧ ∃ o, RequestedOp arguments o ∧
        hw'.busses.operations = hw.busses.operations ++ [o]) ∨
      r.responseCode = .invalidArg ∧ hw'.busses.operations = hw.busses.operations) ∧
    ((∃ o, RequestedOp arguments o ∧ InRange o) → r.responseCode = .ok)

/-- The operation reaches the log : it needs a bitstream and, on a live bus, addresses in the
window. -/
def Reaches (hw : FpgaBridge) (o : BusOp) : Prop :=
  hw.fpgaLoaded = true ∧ (hw.busses.sinkMode = true ∨
    match o.address with
    | [address] => hw.busses.MapsRegister address
    | [_, proxy] => hw.busses.MapsRegister (u64 (proxy + 4)) ∧ hw.busses.MapsRegister proxy
    | _ => False)

/-- The number behind a key passes the test of the endpoint. -/
def Integral (pl : Platform) (arguments : Json) (key : String) : Prop :=
  ∃ x, arguments.numberAt key = some x ∧ checkFloatIntness pl x = true

/-! ## What the schema accepts -/

/-- A request that the schema accepts. -/
structure WellFormed (arguments : Json) : Prop where
  object : ∃ members, arguments = .object members
  address : ∃ x, arguments.numberAt "address" = some x
  value : ∃ x, arguments.numberAt "value" = some x
  proxyAddress : ∀ v, arguments.find? "proxy_address" = some v → ∃ i : Int, v.number? = some (i : ℚ)
  type : arguments.textAt "type" = some "direct" ∨ arguments.textAt "type" = some "proxied" ∧
    (∃ v, arguments.find? "proxy_address" = some v) ∧ ∃ t, arguments.textAt "proxy_type" = some t

/-- What the schema accepts has its fields. -/
theorem wellFormed_of_accepted {integralFloats : Bool} {arguments : Json}
    (h : Commands.writeRegister integralFloats arguments = true) : WellFormed arguments := by
  simp only [Commands.writeRegister, Schema.keywords, List.all_cons, List.all_nil,
    Bool.and_true, Bool.and_eq_true] at h
  obtain ⟨hproperties, hrequired, hobject, hproxied⟩ := h
  obtain ⟨members, rfl⟩ := Schema.object_of_type hobject
  obtain ⟨type, htype⟩ := Schema.isSome_of_required hrequired "type" (by simp)
  obtain ⟨address, haddress⟩ := Schema.isSome_of_required hrequired "address" (by simp)
  obtain ⟨value, hvalue⟩ := Schema.isSome_of_required hrequired "value" (by simp)
  simp only [Schema.properties, List.all_cons, List.all_nil, Bool.and_true,
    Bool.and_eq_true] at hproperties
  obtain ⟨htested, htestedProxyType, htestedProxy, htestedAddress, htestedValue⟩ := hproperties
  rw [htype, Option.all_some, Schema.keywords, List.all_cons, List.all_cons,
    Bool.and_eq_true, Bool.and_eq_true] at htested
  rw [haddress] at htestedAddress
  rw [hvalue] at htestedValue
  obtain ⟨x, hx⟩ := Schema.number_of_type htestedAddress
  obtain ⟨y, hy⟩ := Schema.number_of_type htestedValue
  obtain ⟨text, rfl⟩ := Schema.string_of_type htested.1
  have htext : text = "proxied" ∨ text = "direct" := by
    simpa [Schema.enum] using htested.2.1
  refine ⟨⟨members, rfl⟩, ⟨x, Json.numberAt_eq_some.2 ⟨_, haddress, hx⟩⟩,
    ⟨y, Json.numberAt_eq_some.2 ⟨_, hvalue, hy⟩⟩, fun v hv => ?_, ?_⟩
  · rw [hv] at htestedProxy
    exact Schema.integer_of_type htestedProxy
  · rcases htext with rfl | rfl
    · have hboth : Schema.required ["proxy_address", "proxy_type"] (.object members) = true := by
        simpa [Schema.ifThen, Schema.properties, Schema.enum, htype] using hproxied
      obtain ⟨proxy, hproxy⟩ := Schema.isSome_of_required hboth "proxy_address" (by simp)
      obtain ⟨t, ht⟩ := Schema.isSome_of_required hboth "proxy_type" (by simp)
      rw [ht] at htestedProxyType
      obtain ⟨proxyType, rfl⟩ := Schema.string_of_type htestedProxyType
      exact Or.inr ⟨Json.textAt_eq_some.2 htype, ⟨proxy, hproxy⟩, proxyType,
        Json.textAt_eq_some.2 ht⟩
    · exact Or.inl (Json.textAt_eq_some.2 htype)

/-! ## The tests of the endpoint -/

/-- An integer is like an integer. -/
theorem checkFloatIntness_intCast (pl : Platform) (i : Int) : checkFloatIntness pl i = true := by
  simp [checkFloatIntness, roundAway_intCast]

/-- So is a natural number. -/
theorem checkFloatIntness_natCast (pl : Platform) (n : Nat) : checkFloatIntness pl n = true := by
  exact_mod_cast checkFloatIntness_intCast pl n

/-- An argument that is a natural number passes the check. -/
theorem integral_of_numberAt (pl : Platform) {arguments : Json} {key : String} {n : Nat}
    (h : arguments.numberAt key = some (n : ℚ)) : Integral pl arguments key :=
  ⟨n, h, checkFloatIntness_natCast pl n⟩

section

variable {pl : Platform} {arguments : Json} {hw : FpgaBridge} {key : String} {keys : List String}

variable (pl hw keys) in
/-- The check goes on while an argument is integral. -/
theorem run_checkArguments_cons {x : ℚ} (h : arguments.numberAt key = some x) :
    (checkArguments pl arguments (key :: keys)).run hw =
      if checkFloatIntness pl x then (checkArguments pl arguments keys).run hw
      else .ok false hw := by
  obtain ⟨v, hv, hx⟩ := Json.numberAt_eq_some.1 h
  rw [checkArguments, EStateM.run_bind, Json.run_atOrNull hv]
  simp only
  rw [EStateM.run_bind, Json.run_getDouble hx]
  by_cases hc : checkFloatIntness pl x = true <;> simp [hc]

/-- A missing argument throws. -/
theorem run_checkArguments_missing {members : List (String × Json)}
    (h : (Json.object members).find? key = none) :
    (checkArguments pl (.object members) (key :: keys)).run hw = .error .jsonError hw := by
  have hnull : ((Json.object members).atOrNull key).run hw = .ok .null hw := by
    have hv : members.lookup key = none := h
    simp [Json.atOrNull, hv]
  rw [checkArguments, EStateM.run_bind, hnull]
  rfl

/-- An argument passes if its number does. -/
theorem integral_iff {x : ℚ} (h : arguments.numberAt key = some x) :
    Integral pl arguments key ↔ checkFloatIntness pl x = true := by
  constructor
  · rintro ⟨y, hy, hc⟩
    obtain rfl : x = y := Option.some.inj (h.symm.trans hy)
    exact hc
  · exact fun hc => ⟨x, h, hc⟩

end

/-- The tests in order : the address, a proxy address that must be there, the value. -/
theorem checkArguments_cases {pl : Platform} {arguments : Json} (h : WellFormed arguments)
    (hw : FpgaBridge) :
    ¬Integral pl arguments "address" ∧
        (checkArguments pl arguments ["address", "proxy_address", "value"]).run hw =
          .ok false hw ∨
      Integral pl arguments "address" ∧ arguments.find? "proxy_address" = none ∧
        (checkArguments pl arguments ["address", "proxy_address", "value"]).run hw =
          .error .jsonError hw ∨
      Integral pl arguments "address" ∧ (∃ v, arguments.find? "proxy_address" = some v) ∧
        ¬Integral pl arguments "value" ∧
        (checkArguments pl arguments ["address", "proxy_address", "value"]).run hw =
          .ok false hw ∨
      Integral pl arguments "address" ∧ (∃ v, arguments.find? "proxy_address" = some v) ∧
        Integral pl arguments "value" ∧
        (checkArguments pl arguments ["address", "proxy_address", "value"]).run hw =
          .ok true hw := by
  obtain ⟨x, haddress⟩ := h.address
  obtain ⟨y, hvalue⟩ := h.value
  have hfirst := run_checkArguments_cons pl hw ["proxy_address", "value"] haddress
  rw [integral_iff haddress, integral_iff hvalue]
  by_cases hx : checkFloatIntness pl x = true
  · rw [if_pos hx] at hfirst
    refine Or.inr ?_
    cases hproxy : arguments.find? "proxy_address" with
    | none =>
      obtain ⟨members, rfl⟩ := h.object
      rw [run_checkArguments_missing hproxy] at hfirst
      exact Or.inl ⟨hx, rfl, hfirst⟩
    | some p =>
      obtain ⟨i, hi⟩ := h.proxyAddress p hproxy
      have hsecond := run_checkArguments_cons pl hw ["value"]
        (Json.numberAt_eq_some.2 ⟨p, hproxy, hi⟩)
      rw [if_pos (checkFloatIntness_intCast pl i), run_checkArguments_cons pl hw [] hvalue]
        at hsecond
      rw [hsecond] at hfirst
      refine Or.inr ?_
      by_cases hy : checkFloatIntness pl y = true
      · rw [if_pos hy] at hfirst
        exact Or.inr ⟨hx, ⟨p, rfl⟩, hy, hfirst⟩
      · rw [if_neg hy] at hfirst
        exact Or.inl ⟨hx, ⟨p, rfl⟩, hy, hfirst⟩
  · rw [if_neg hx] at hfirst
    exact Or.inl ⟨hx, hfirst⟩

/-! ## The write -/

/-- A direct write with numbers of any kind. -/
theorem run_singleWriteRegister_direct (pl : Platform) {arguments a v : Json} {x y : ℚ}
    (ht : arguments.textAt "type" = some "direct") (ha : arguments.find? "address" = some a)
    (hx : a.number? = some x) (hv : arguments.find? "value" = some v) (hy : v.number? = some y) :
    ∃ n m : Nat, n < 2 ^ 64 ∧ m < 2 ^ 32 ∧ (∀ k : Nat, k < 2 ^ 64 → x = k → n = k) ∧
      (∀ k : Nat, k < 2 ^ 32 → y = k → m = k) ∧
        ∀ hw, (FpgaBridge.singleWriteRegister pl arguments).run hw =
          (FpgaBridge.writeDirect n m).run hw := by
  obtain ⟨n, hn, hn', hrun⟩ := Json.exists_getUint64 pl hx
  obtain ⟨m, hm, hm', hrun'⟩ := Json.exists_getUint32 pl hy
  refine ⟨n, m, hn, hm, hn', hm', fun hw => ?_⟩
  have htype := (Json.at'_eq_ok (s := hw)).2 ⟨Json.textAt_eq_some.1 ht, rfl⟩
  have haddress := (Json.at'_eq_ok (s := hw)).2 ⟨ha, rfl⟩
  have hvalue := (Json.at'_eq_ok (s := hw)).2 ⟨hv, rfl⟩
  unfold FpgaBridge.singleWriteRegister
  rw [EStateM.run_bind, htype]
  simp [Json.isString, EStateM.run_bind, haddress, hvalue, hrun, hrun']

/-- A proxied write with numbers of any kind. -/
theorem run_singleWriteRegister_proxied (pl : Platform) {arguments p a v : Json} {z x y : ℚ}
    (ht : arguments.textAt "type" = some "proxied")
    (hpt : arguments.textAt "proxy_type" = some "axis_constant")
    (hp : arguments.find? "proxy_address" = some p) (hz : p.number? = some z)
    (ha : arguments.find? "address" = some a) (hx : a.number? = some x)
    (hv : arguments.find? "value" = some v) (hy : v.number? = some y) :
    ∃ l n m : Nat, l < 2 ^ 64 ∧ n < 2 ^ 32 ∧ m < 2 ^ 32 ∧
      (∀ k : Nat, k < 2 ^ 64 → z = k → l = k) ∧ (∀ k : Nat, k < 2 ^ 32 → x = k → n = k) ∧
      (∀ k : Nat, k < 2 ^ 32 → y = k → m = k) ∧
        ∀ hw, (FpgaBridge.singleWriteRegister pl arguments).run hw =
          (FpgaBridge.writeProxied l n m).run hw := by
  obtain ⟨l, hl, hl', hrun⟩ := Json.exists_getUint64 pl hz
  obtain ⟨n, hn, hn', hrun'⟩ := Json.exists_getUint32 pl hx
  obtain ⟨m, hm, hm', hrun''⟩ := Json.exists_getUint32 pl hy
  refine ⟨l, n, m, hl, hn, hm, hl', hn', hm', fun hw => ?_⟩
  have htype := (Json.at'_eq_ok (s := hw)).2 ⟨Json.textAt_eq_some.1 ht, rfl⟩
  have hproxyType := (Json.at'_eq_ok (s := hw)).2 ⟨Json.textAt_eq_some.1 hpt, rfl⟩
  have hproxy := (Json.at'_eq_ok (s := hw)).2 ⟨hp, rfl⟩
  have haddress := (Json.at'_eq_ok (s := hw)).2 ⟨ha, rfl⟩
  have hvalue := (Json.at'_eq_ok (s := hw)).2 ⟨hv, rfl⟩
  unfold FpgaBridge.singleWriteRegister
  rw [EStateM.run_bind, htype]
  simp [Json.isString, EStateM.run_bind, hproxyType, hproxy, haddress, hvalue, hrun, hrun', hrun'']

/-- The requested operation is recorded exactly when it is in range and reaches the log. -/
theorem records_requested_iff {pl : Platform} {arguments : Json} (h : WellFormed arguments)
    {hw : FpgaBridge} :
    (∃ o, RequestedOp arguments o ∧
        FpgaBridge.Records (FpgaBridge.singleWriteRegister pl arguments) hw o) ↔
      ∃ o, RequestedOp arguments o ∧ InRange o ∧ Reaches hw o := by
  obtain ⟨x, haddress⟩ := h.address
  obtain ⟨y, hvalue⟩ := h.value
  obtain ⟨a, ha, hx⟩ := Json.numberAt_eq_some.1 haddress
  obtain ⟨v, hv, hy⟩ := Json.numberAt_eq_some.1 hvalue
  refine exists_congr fun o => and_congr_right ?_
  rintro ⟨address, value, haddress', hvalue', hcase⟩
  obtain rfl : x = address := Option.some.inj (haddress.symm.trans haddress')
  obtain rfl : y = value := Option.some.inj (hvalue.symm.trans hvalue')
  rcases hcase with ⟨ht, rfl⟩ | ⟨proxyAddress, ht, hpt, hproxy, rfl⟩
  · obtain ⟨n, m, hn, hm, hn', hm', hrun⟩ := run_singleWriteRegister_direct pl ht ha hx hv hy
    have hrecords : ∀ o, FpgaBridge.Records (FpgaBridge.singleWriteRegister pl arguments) hw o ↔
        FpgaBridge.Records (FpgaBridge.writeDirect n m) hw o := fun o => by
      simp only [FpgaBridge.Records, hrun]
    rw [hrecords, FpgaBridge.records_writeDirect, u64_of_lt hn, u32_of_lt hm]
    simp only [InRange, Reaches, BusOp.mk.injEq, List.cons.injEq, and_true,
      List.forall_mem_singleton]
    constructor
    · rintro ⟨hl, hadmits, rfl, rfl⟩
      exact ⟨⟨hm, hn⟩, hl, hadmits⟩
    · rintro ⟨⟨hvalue, haddress⟩, hl, hadmits⟩
      rw [hn' address haddress rfl, hm' value hvalue rfl]
      exact ⟨hl, hadmits, rfl, rfl⟩
  · obtain ⟨p, hp, hz⟩ := Json.numberAt_eq_some.1 hproxy
    obtain ⟨l, n, m, hl, hn, hm, hl', hn', hm', hrun⟩ :=
      run_singleWriteRegister_proxied pl ht hpt hp hz ha hx hv hy
    have hrecords : ∀ o, FpgaBridge.Records (FpgaBridge.singleWriteRegister pl arguments) hw o ↔
        FpgaBridge.Records (FpgaBridge.writeProxied l n m) hw o := fun o => by
      simp only [FpgaBridge.Records, hrun]
    rw [hrecords, FpgaBridge.records_writeProxied, u64_of_lt hl, u32_of_lt hn, u32_of_lt hm]
    simp only [InRange, Reaches, BusOp.mk.injEq, List.cons.injEq, and_true,
      List.forall_mem_singleton]
    constructor
    · rintro ⟨hloaded, hadmits, ⟨rfl, rfl⟩, rfl⟩
      exact ⟨⟨hm, hn, hl⟩, hloaded, hadmits⟩
    · rintro ⟨⟨hvalue, htarget, hproxyAddress⟩, hloaded, hadmits⟩
      rw [hl' proxyAddress hproxyAddress rfl, hn' address htarget rfl, hm' value hvalue rfl]
      exact ⟨hloaded, hadmits, ⟨rfl, rfl⟩, rfl⟩

/-! ## Executed or refused -/

section

variable {pl : Platform} {validator : SchemaValidator} {arguments : Json} {hw : FpgaBridge}

/-- A refusal records nothing. -/
theorem refused (haccepted : Commands.writeRegister validator.integralFloats arguments = true)
    (hcheck : (checkArguments pl arguments ["address", "proxy_address", "value"]).run hw =
      .ok false hw)
    (hnone : ¬∃ o, RequestedOp arguments o) : ExecutedOrRefused pl validator arguments hw := by
  unfold ExecutedOrRefused processSingleWriteRegister
  rw [(validator.validate_eq_none _ _).2 haccepted, EStateM.run_bind, hcheck]
  refine ⟨_, hw, rfl, Or.inr ⟨rfl, rfl⟩, ?_⟩
  rintro ⟨o, ho, -⟩
  exact absurd ⟨o, ho⟩ hnone

/-- After the tests the write decides. -/
theorem executed_iff (haccepted : Commands.writeRegister validator.integralFloats arguments = true)
    (hcheck : (checkArguments pl arguments ["address", "proxy_address", "value"]).run hw =
      .ok true hw) :
    ExecutedOrRefused pl validator arguments hw ↔ ∃ o, RequestedOp arguments o ∧
      FpgaBridge.Records (FpgaBridge.singleWriteRegister pl arguments) hw o := by
  unfold ExecutedOrRefused processSingleWriteRegister
  rw [(validator.validate_eq_none _ _).2 haccepted, EStateM.run_bind, hcheck]
  simp only [if_true]
  rw [EStateM.run_bind]
  unfold FpgaBridge.Records
  cases hrun : (FpgaBridge.singleWriteRegister pl arguments).run hw with
  | error e hw' =>
    refine iff_of_false ?_ ?_
    · rintro ⟨r, t, h, -⟩
      cases h
    · rintro ⟨o, -, u, t, h, -⟩
      cases h
  | ok u hw' =>
    constructor
    · rintro ⟨r, t, h, (⟨-, o, ho, hops⟩ | ⟨hcode, -⟩), -⟩
      · cases h
        exact ⟨o, ho, u, hw', rfl, hops⟩
      · cases h
        cases hcode
    · rintro ⟨o, ho, u', t, h, hops⟩
      cases h
      exact ⟨_, hw', rfl, Or.inl ⟨rfl, o, ho, hops⟩, fun _ => rfl⟩

/-- A test that throws is not caught. -/
theorem not_executedOrRefused_of_error {e : Failure} {hw' : FpgaBridge}
    (haccepted : Commands.writeRegister validator.integralFloats arguments = true)
    (hcheck : (checkArguments pl arguments ["address", "proxy_address", "value"]).run hw =
      .error e hw') : ¬ExecutedOrRefused pl validator arguments hw := by
  unfold ExecutedOrRefused processSingleWriteRegister
  rw [(validator.validate_eq_none _ _).2 haccepted, EStateM.run_bind, hcheck]
  rintro ⟨r, t, h, -⟩
  cases h

/-- An accepted request is executed exactly or refused, exactly when its address fails the
integer test, or it has a proxy address and its value fails the test or the operation it asks for
is in range and reaches the log. -/
theorem write_register_iff
    (haccepted : Commands.writeRegister validator.integralFloats arguments = true) :
    ExecutedOrRefused pl validator arguments hw ↔
      ¬Integral pl arguments "address" ∨ (∃ v, arguments.find? "proxy_address" = some v) ∧
        (¬Integral pl arguments "value" ∨ ∃ o, RequestedOp arguments o ∧ InRange o ∧
          Reaches hw o) := by
  have h := wellFormed_of_accepted haccepted
  have hnone : ∀ key : String, ¬Integral pl arguments key →
      ¬∃ n : Nat, arguments.numberAt key = some (n : ℚ) :=
    fun _ hn ⟨_, hnumber⟩ => hn (integral_of_numberAt pl hnumber)
  rcases checkArguments_cases h hw with ⟨ha, hrun⟩ | ⟨ha, hp, hrun⟩ | ⟨ha, hp, hv, hrun⟩ |
    ⟨ha, hp, hv, hrun⟩
  · refine iff_of_true (refused haccepted hrun ?_) (Or.inl ha)
    rintro ⟨o, address, value, haddress, -⟩
    exact hnone _ ha ⟨address, haddress⟩
  · refine iff_of_false (not_executedOrRefused_of_error haccepted hrun) ?_
    simp [ha, hp]
  · refine iff_of_true (refused haccepted hrun ?_) (Or.inr ⟨hp, Or.inl hv⟩)
    rintro ⟨o, address, value, -, hvalue, -⟩
    exact hnone _ hv ⟨value, hvalue⟩
  · rw [executed_iff haccepted hrun, records_requested_iff h]
    simp only [ha, hp, hv, not_true_eq_false, false_or, true_and]

end

/-- A request as in the tests, which always have a proxy address. -/
theorem write_register_with_proxy :
    ExecutedOrRefused .zeros .plain
      (.object [("address", .numberUnsigned 18316525568), ("value", .numberUnsigned 3122),
        ("type", .string "direct"), ("proxy_address", .numberUnsigned 0),
        ("proxy_type", .string "")]) ⟨.zynqmp, true⟩ := by
  refine (write_register_iff (by decide)).2 (Or.inr ⟨⟨_, rfl⟩, Or.inr ⟨_,
    ⟨18316525568, 3122, rfl, rfl, Or.inl ⟨rfl, rfl⟩⟩, ?_, ?_⟩⟩)
  · simp [InRange]
  · exact ⟨rfl, Or.inr (by decide)⟩

/-- A direct write without a proxy address, which the schema does not ask for. -/
def directWrite : Json :=
  .object [("address", .numberUnsigned 18316525568), ("value", .numberUnsigned 3122),
    ("type", .string "direct")]

/-- The endpoint makes the proxy address and fails to convert it. -/
theorem write_register_without_proxy :
    Commands.writeRegister SchemaValidator.plain.integralFloats directWrite = true ∧
      ¬ExecutedOrRefused .zeros .plain directWrite ⟨.zynqmp, true⟩ := by
  have haccepted : Commands.writeRegister SchemaValidator.plain.integralFloats directWrite =
    true := by decide
  have hcheck : (checkArguments .zeros directWrite ["address", "proxy_address", "value"]).run
      ⟨.zynqmp, true⟩ = .error .jsonError ⟨.zynqmp, true⟩ := by
    rw [run_checkArguments_cons _ _ _ (x := (18316525568 : Nat)) rfl,
      if_pos (checkFloatIntness_natCast .zeros 18316525568)]
    exact run_checkArguments_missing rfl
  exact ⟨haccepted, not_executedOrRefused_of_error haccepted hcheck⟩

end ControlEndpoints

end UscopeDriver
