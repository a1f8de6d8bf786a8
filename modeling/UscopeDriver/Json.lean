import UscopeDriver.Machine

/-!
# JSON values

The values of the JSON library, as far as the driver builds and reads them. Only constant
objects are read : there a key must be present, the library does not check it.
-/

namespace UscopeDriver

/-- A value of the library, with its three kinds of numbers. -/
inductive Json where
  | null
  | boolean (b : Bool)
  | numberInteger (i : Int)
  | numberUnsigned (n : Nat)
  | numberFloat (x : ℚ)
  | string (s : String)
  | array (elements : List Json)
  | object (members : List (String × Json))

namespace Json

/-- `obj[key]` of a constant object. -/
def at' {σ : Type} (key : String) : Json → Exec Failure σ Json
  | .object members => Exec.require (members.lookup key) (.undefined .jsonKey)
  | _ => throw .jsonError

/-- `obj[key]` of an object that is not constant : a missing key is made, with null. -/
def atOrNull {σ : Type} (key : String) : Json → Exec Failure σ Json
  | .object members => pure ((members.lookup key).getD .null)
  | .null => pure .null
  | _ => throw .jsonError

/-- `obj == "text"` -/
def isString (text : String) : Json → Bool
  | .string s => s == text
  | _ => false

/-- Conversion to a `uint64_t`. -/
def getUint64 {σ : Type} (pl : Platform) : Json → Exec Failure σ Nat
  | .numberUnsigned n => pure (u64 n)
  | .numberInteger i => pure (i % 2 ^ 64).toNat
  | .numberFloat x => pure (pl.toUint64 x)
  | _ => throw .jsonError

/-- Conversion to a `uint32_t`. -/
def getUint32 {σ : Type} (pl : Platform) : Json → Exec Failure σ Nat
  | .numberUnsigned n => pure (u32 n)
  | .numberInteger i => pure (i % 2 ^ 32).toNat
  | .numberFloat x => pure (pl.toUint32 x)
  | .boolean b => pure b.toNat
  | _ => throw .jsonError

/-- Conversion to a `double`. -/
def getDouble {σ : Type} : Json → Exec Failure σ ℚ
  | .numberUnsigned n => pure n
  | .numberInteger i => pure i
  | .numberFloat x => pure x
  | _ => throw .jsonError

/-! ## Lookups and numbers -/

/-- The value behind a key. -/
def find? (key : String) : Json → Option Json
  | .object members => members.lookup key
  | _ => none

/-- The number that a value is. -/
def number? : Json → Option ℚ
  | .numberUnsigned n => some n
  | .numberInteger i => some i
  | .numberFloat x => some x
  | _ => none

/-- The `uint64_t` that a value converts to. -/
def uint64? (pl : Platform) : Json → Option Nat
  | .numberUnsigned n => some (u64 n)
  | .numberInteger i => some (i % 2 ^ 64).toNat
  | .numberFloat x => some (pl.toUint64 x)
  | _ => none

/-- The `uint32_t` that a value converts to. -/
def uint32? (pl : Platform) : Json → Option Nat
  | .numberUnsigned n => some (u32 n)
  | .numberInteger i => some (i % 2 ^ 32).toNat
  | .numberFloat x => some (pl.toUint32 x)
  | .boolean b => some b.toNat
  | _ => none

/-- The `float` that a value converts to. -/
def float? : Json → Option ℚ
  | .boolean b => some b.toNat
  | j => j.number?

/-- The value as a truth value. -/
def bool? : Json → Option Bool
  | .boolean b => some b
  | _ => none

/-- The value as a text. -/
def text? : Json → Option String
  | .string s => some s
  | _ => none

/-- The vector that an array converts to, element by element. -/
def vector? {α : Type} (element : Json → Option α) : Json → Option (List α)
  | .array elements => elements.mapM element
  | _ => none

/-- The values that a loop over a value goes through. -/
def elements : Json → List Json
  | .null => []
  | .array elements => elements
  | .object members => members.map (·.2)
  | j => [j]

/-- Conversion of a value that has an `α`. -/
def get {σ α : Type} (read : Json → Option α) (j : Json) : Exec Failure σ α :=
  Exec.require (read j) .jsonError

/-- The number behind a key. -/
def numberAt (key : String) (j : Json) : Option ℚ :=
  (j.find? key).bind number?

/-- The text behind a key. -/
def textAt (key : String) (j : Json) : Option String :=
  (j.find? key).bind fun
    | .string s => some s
    | _ => none

/-- The text under a key. -/
theorem textAt_eq_some {key text : String} {j : Json} :
    j.textAt key = some text ↔ j.find? key = some (.string text) := by
  unfold textAt
  cases j.find? key with
  | none => simp
  | some v => cases v <;> simp

/-- The number under a key, of any kind. -/
theorem numberAt_eq_some {key : String} {j : Json} {x : ℚ} :
    j.numberAt key = some x ↔ ∃ v, j.find? key = some v ∧ v.number? = some x :=
  Option.bind_eq_some_iff

/-- Only an object has a key. -/
theorem object_of_find? {j v : Json} {key : String} (h : j.find? key = some v) :
    ∃ members, j = .object members := by
  cases j <;> first | exact ⟨_, rfl⟩ | cases h

/-- The checked access finds the value or throws. -/
theorem at'_eq_ok {σ : Type} {key : String} {j v : Json} {s s' : σ} :
    (j.at' key).run s = .ok v s' ↔ j.find? key = some v ∧ s' = s := by
  cases j with
  | object members => exact Exec.require_eq_ok
  | _ => simp [at', find?, Exec.throw_eq_ok]

theorem getUint64_eq {σ : Type} (pl : Platform) (j : Json) :
    (j.getUint64 pl : Exec Failure σ Nat) = j.get (uint64? pl) := by
  cases j <;> rfl

theorem getUint32_eq {σ : Type} (pl : Platform) (j : Json) :
    (j.getUint32 pl : Exec Failure σ Nat) = j.get (uint32? pl) := by
  cases j <;> rfl

theorem run_atOrNull {σ : Type} {key : String} {j v : Json} (h : j.find? key = some v) (s : σ) :
    (j.atOrNull key).run s = .ok v s := by
  cases j with
  | object members =>
    have hv : members.lookup key = some v := h
    simp [atOrNull, hv]
  | _ => cases h

theorem run_getDouble {σ : Type} {j : Json} {x : ℚ} (h : j.number? = some x) (s : σ) :
    j.getDouble.run s = .ok x s := by
  cases j <;> cases h <;> rfl

/-- The conversion keeps 64 bits. -/
theorem getUint64_lt {σ : Type} {pl : Platform} {j : Json} {n : Nat} {s s' : σ}
    (h : (j.getUint64 pl).run s = .ok n s') : n < 2 ^ 64 := by
  cases j with
  | numberUnsigned m =>
    obtain ⟨rfl, -⟩ := Exec.pure_eq_ok.1 h
    exact u64_lt m
  | numberInteger i =>
    obtain ⟨rfl, -⟩ := Exec.pure_eq_ok.1 h
    have := Int.emod_lt_of_pos i (b := 2 ^ 64) (by norm_num)
    omega
  | numberFloat x =>
    obtain ⟨rfl, -⟩ := Exec.pure_eq_ok.1 h
    exact pl.toUint64_lt x
  | _ => cases h

/-- A natural number of 64 bits is converted to itself. -/
theorem getUint64_of_number {σ : Type} (pl : Platform) {j : Json} {n : Nat} (hn : n < 2 ^ 64)
    (h : j.number? = some (n : ℚ)) (s : σ) : (j.getUint64 pl).run s = .ok n s := by
  cases j with
  | numberUnsigned m =>
    obtain rfl : m = n := by simpa [number?] using h
    exact Exec.pure_eq_ok.2 ⟨(u64_of_lt hn).symm, rfl⟩
  | numberInteger i =>
    obtain rfl : i = n := by exact_mod_cast Option.some.inj h
    refine Exec.pure_eq_ok.2 ⟨?_, rfl⟩
    omega
  | numberFloat x =>
    obtain rfl : x = n := Option.some.inj h
    exact Exec.pure_eq_ok.2 ⟨(pl.toUint64_natCast hn).symm, rfl⟩
  | _ => cases h

/-- A number is converted to some 32 bits, a natural number of that size to itself. -/
theorem exists_getUint32 (pl : Platform) {j : Json} {x : ℚ} (h : j.number? = some x) :
    ∃ n, n < 2 ^ 32 ∧ (∀ m : Nat, m < 2 ^ 32 → x = m → n = m) ∧
      ∀ {σ : Type} (s : σ), (j.getUint32 pl).run s = .ok n s := by
  cases j with
  | numberUnsigned k =>
    refine ⟨u32 k, u32_lt k, fun m hm hx => ?_, fun _ => rfl⟩
    obtain rfl : k = m := by
      have hk : (k : ℚ) = m := (Option.some.inj h).trans hx
      exact_mod_cast hk
    exact u32_of_lt hm
  | numberInteger i =>
    have := Int.emod_lt_of_pos i (b := 2 ^ 32) (by norm_num)
    refine ⟨(i % 2 ^ 32).toNat, by omega, fun m hm hx => ?_, fun _ => rfl⟩
    obtain rfl : i = m := by
      have hi : (i : ℚ) = m := (Option.some.inj h).trans hx
      exact_mod_cast hi
    omega
  | numberFloat y =>
    obtain rfl : y = x := Option.some.inj h
    exact ⟨pl.toUint32 y, pl.toUint32_lt y, fun m hm hx => hx ▸ pl.toUint32_natCast hm,
      fun _ => rfl⟩
  | _ => cases h

/-- Any number converts, and one of 64 bits to itself. -/
theorem exists_getUint64 (pl : Platform) {j : Json} {x : ℚ} (h : j.number? = some x) :
    ∃ n, n < 2 ^ 64 ∧ (∀ m : Nat, m < 2 ^ 64 → x = m → n = m) ∧
      ∀ {σ : Type} (s : σ), (j.getUint64 pl).run s = .ok n s := by
  have hret : ∃ n, ∀ {σ : Type} (s : σ), (j.getUint64 pl).run s = .ok n s := by
    cases j <;> first | exact ⟨_, fun _ => rfl⟩ | cases h
  obtain ⟨n, hn⟩ := hret
  refine ⟨n, getUint64_lt (hn ()), fun m hm hx => ?_, hn⟩
  subst hx
  have hsame := getUint64_of_number pl hm h ()
  rw [hn] at hsame
  cases hsame
  rfl

theorem uint64?_lt {pl : Platform} {j : Json} {n : Nat} (h : j.uint64? pl = some n) :
    n < 2 ^ 64 := by
  have hget : (j.getUint64 pl).run () = .ok n () := by
    rw [getUint64_eq]
    exact Exec.require_eq_ok.2 ⟨h, rfl⟩
  exact getUint64_lt hget

/-- Any number converts to 32 bits. -/
theorem exists_uint32? (pl : Platform) {j : Json} {x : ℚ} (h : j.number? = some x) :
    ∃ n, j.uint32? pl = some n := by
  cases j <;> first | exact ⟨_, rfl⟩ | cases h

/-- Any number converts to 64 bits. -/
theorem exists_uint64? (pl : Platform) {j : Json} {x : ℚ} (h : j.number? = some x) :
    ∃ n, j.uint64? pl = some n := by
  cases j <;> first | exact ⟨_, rfl⟩ | cases h

theorem bool?_eq_some {j : Json} {b : Bool} : j.bool? = some b ↔ j = .boolean b := by
  cases j <;> simp [bool?]

/-- An array whose elements convert gives a vector of the same length. -/
theorem exists_vector? {α : Type} {element : Json → Option α} {elements : List Json}
    (h : ∀ el ∈ elements, ∃ a, element el = some a) :
    ∃ v : List α, (Json.array elements).vector? element = some v ∧
      v.length = elements.length := by
  rw [vector?]
  induction elements with
  | nil => exact ⟨[], rfl, rfl⟩
  | cons el elements ih =>
    rw [List.forall_mem_cons] at h
    obtain ⟨a, ha⟩ := h.1
    obtain ⟨v, hv, hlength⟩ := ih h.2
    refine ⟨a :: v, ?_, by rw [List.length_cons, List.length_cons, hlength]⟩
    rw [List.mapM_cons, ha, hv]
    rfl

end Json

end UscopeDriver
