import UscopeDriver.Library.Exec
import Mathlib.Data.Rat.Floor

/-!
# Machine integers, conversions and failures

Unsigned variables are natural numbers, reduced where the source assigns them (`u8` to
`u64`). Signed 32-bit variables are integers (`int32`). A floating-point value is the
rational it stands for. The products that become counts of a waveform are rounded by the platform,
elsewhere rounding is not modelled. A conversion from floating point to an unsigned integer
truncates. Out of range it is undefined in C++ and the targets differ (one wraps, one saturates),
so there the value is the platform's (`Platform`). So is what comes of a division by zero, of a
read behind the base clocks, and of a call through a null pointer to a function that touches no
member.
-/

namespace UscopeDriver

/-- Assignment to a `uint8_t`. -/
def u8 (n : Nat) : Nat := n % 2 ^ 8

/-- Assignment to a `uint16_t`. -/
def u16 (n : Nat) : Nat := n % 2 ^ 16

/-- Assignment to a `uint32_t`. -/
def u32 (n : Nat) : Nat := n % 2 ^ 32

/-- Assignment to a `uint64_t`. -/
def u64 (n : Nat) : Nat := n % 2 ^ 64

/-- `a - b` on `uint32_t`, for `b` in range. -/
def sub32 (a b : Nat) : Nat := u32 (a + (2 ^ 32 - b))

/-- Assignment to an `int`. -/
def int32 (n : Int) : Int := n.bmod (2 ^ 32)

theorem u32_lt (n : Nat) : u32 n < 2 ^ 32 := Nat.mod_lt _ (by decide)

theorem u64_lt (n : Nat) : u64 n < 2 ^ 64 := Nat.mod_lt _ (by decide)

@[simp] theorem u32_u32 (n : Nat) : u32 (u32 n) = u32 n := Nat.mod_mod _ _

@[simp] theorem u64_u64 (n : Nat) : u64 (u64 n) = u64 n := Nat.mod_mod _ _

@[simp] theorem u64_u32 (n : Nat) : u64 (u32 n) = u32 n :=
  Nat.mod_eq_of_lt ((u32_lt n).trans (by decide))

theorem u32_of_lt {n : Nat} (h : n < 2 ^ 32) : u32 n = n := Nat.mod_eq_of_lt h

theorem u64_of_lt {n : Nat} (h : n < 2 ^ 64) : u64 n = n := Nat.mod_eq_of_lt h

/-- Decrementing a nonzero `uint32_t` does not wrap. -/
theorem sub32_one {a : Nat} (h₀ : 0 < a) (h : a < 2 ^ 32) : sub32 a 1 = a - 1 := by
  unfold sub32 u32
  omega

/-- Truncation toward zero. -/
def truncate (x : ℚ) : Int := x.num.tdiv x.den

/-- Positive numbers are rounded down. -/
theorem truncate_of_nonneg {x : ℚ} (h : 0 ≤ x) : truncate x = ⌊x⌋ := by
  rw [truncate, Int.tdiv_eq_ediv_of_nonneg (Rat.num_nonneg.2 h), Rat.floor_def']

/-- Negative numbers are rounded up. -/
theorem truncate_of_nonpos {x : ℚ} (h : x ≤ 0) : truncate x ≤ 0 := by
  have hn : 0 ≤ (-x.num).tdiv x.den :=
    Int.tdiv_nonneg (by simpa using Rat.num_nonpos.2 h) (by positivity)
  rw [Int.neg_tdiv] at hn
  exact Int.neg_nonneg.1 hn

/-- `round` : halves go away from zero. -/
def roundAway (x : ℚ) : Int :=
  if 0 ≤ x then ⌊x + 1 / 2⌋ else ⌈x - 1 / 2⌉

/-- An integer needs no rounding. -/
theorem roundAway_intCast (i : Int) : roundAway (i : ℚ) = i := by
  unfold roundAway
  split_ifs with h
  · rw [Int.floor_eq_iff]
    constructor <;> linarith
  · rw [Int.ceil_eq_iff]
    constructor <;> linarith

theorem truncate_natCast (n : Nat) : truncate (n : ℚ) = n := by
  rw [truncate_of_nonneg (by positivity), Int.floor_natCast]

/-- What the language leaves to the platform, or leaves undefined where the builds of the driver
are known to differ. -/
structure Platform where
  /-- What a conversion leaves in a `uint32_t` that the value does not fit. -/
  toUint32OutOfRange : ℚ → Nat
  /-- The same for a `uint64_t`. -/
  toUint64OutOfRange : ℚ → Nat
  /-- The bits of the `float` nearest to a value. -/
  floatToUint32 : ℚ → Nat
  /-- The product of two `float`s, rounded. -/
  mulFloat : ℚ → ℚ → ℚ
  /-- A call through a null pointer runs, when the function touches no member. -/
  nullCalls : Bool
  /-- A register write through a null pointer does nothing, as it can without a bitstream. -/
  nullWrites : Bool
  /-- What is left by a `uint64_t` divided by zero, none where the division traps. -/
  divideByZero : Option UInt64
  /-- What is found behind the four base clocks at an index, none where the read traps. -/
  pastClocks : UInt8 → Option UInt64

/-- A platform that leaves zeros, does not round, and runs what it can. -/
def Platform.zeros : Platform where
  toUint32OutOfRange := fun _ => 0
  toUint64OutOfRange := fun _ => 0
  floatToUint32 := fun _ => 0
  mulFloat := (· * ·)
  nullCalls := true
  nullWrites := true
  divideByZero := some 0
  pastClocks := fun _ => some 0

/-- The same where what has no defined result traps. -/
def Platform.traps : Platform :=
  { Platform.zeros with
    nullCalls := false
    nullWrites := false
    divideByZero := none
    pastClocks := fun _ => none }

/-- Conversion of a floating-point value to a `uint32_t`. -/
def Platform.toUint32 (pl : Platform) (x : ℚ) : Nat :=
  if 0 ≤ truncate x ∧ truncate x < 2 ^ 32 then (truncate x).toNat
  else u32 (pl.toUint32OutOfRange x)

/-- Conversion of a floating-point value to a `uint64_t`. -/
def Platform.toUint64 (pl : Platform) (x : ℚ) : Nat :=
  if 0 ≤ truncate x ∧ truncate x < 2 ^ 64 then (truncate x).toNat
  else u64 (pl.toUint64OutOfRange x)

theorem Platform.toUint32_lt (pl : Platform) (x : ℚ) : pl.toUint32 x < 2 ^ 32 := by
  unfold Platform.toUint32
  split_ifs with h
  · omega
  · exact u32_lt _

/-- A number that fits is converted to itself. -/
theorem Platform.toUint32_natCast (pl : Platform) {n : Nat} (h : n < 2 ^ 32) :
    pl.toUint32 n = n := by
  rw [Platform.toUint32, truncate_natCast, if_pos (by omega), Int.toNat_natCast]

theorem Platform.toUint64_lt (pl : Platform) (x : ℚ) : pl.toUint64 x < 2 ^ 64 := by
  unfold Platform.toUint64
  split_ifs with h
  · omega
  · exact u64_lt _

/-- The same for 64 bits. -/
theorem Platform.toUint64_natCast (pl : Platform) {n : Nat} (h : n < 2 ^ 64) :
    pl.toUint64 n = n := by
  rw [Platform.toUint64, truncate_natCast, if_pos (by omega), Int.toNat_natCast]

/-- Where the source has no defined behaviour. -/
inductive UndefinedSite where
  /-- An element of a vector past its end. -/
  | vectorIndex
  /-- The initial value of an interconnect, read past the end of its vector. -/
  | initialValue
  /-- `std::lcm` of two values whose least common multiple does not fit the type. -/
  | lcm
  /-- A key that a constant JSON object does not have. -/
  | jsonKey
  /-- An element of an array past its end. -/
  | arrayIndex
  /-- A null pointer. -/
  | nullPointer
  /-- A variable that was never set. -/
  | uninitialised
  | divisionByZero
  /-- A floating-point value converted to an integer type that it does not fit. -/
  | conversion
  deriving DecidableEq, Repr

/-- How a call of the driver ends without returning. -/
inductive Failure where
  /-- A `std::runtime_error`, with its text. -/
  | runtimeError (what : String)
  /-- A `std::logic_error`, such as an invalid argument or a value out of range. -/
  | logicError
  /-- An exception of the JSON library. -/
  | jsonError
  /-- `exit(-1)` : the process is gone. -/
  | exit
  /-- Undefined behaviour : nothing is known from here on. -/
  | undefined (site : UndefinedSite)
  deriving DecidableEq, Repr

/-- An exception : the caller can catch it and the process goes on. -/
def Failure.Throws : Failure → Prop
  | .runtimeError _ | .logicError | .jsonError => True
  | .exit | .undefined _ => False

instance : DecidablePred Failure.Throws := fun f => by
  cases f <;> unfold Failure.Throws <;> infer_instance

/-- What `catch (std::runtime_error &e)` catches. -/
def Failure.IsRuntimeError : Failure → Prop
  | .runtimeError _ => True
  | _ => False

instance : DecidablePred Failure.IsRuntimeError := fun f => by
  cases f <;> unfold Failure.IsRuntimeError <;> infer_instance

/-- `e.what()` of a `std::runtime_error`. -/
def Failure.what : Failure → String
  | .runtimeError what => what
  | _ => ""

/-- The process does not go on in a known state. -/
def Failure.Fatal (f : Failure) : Prop := ¬f.Throws

instance : DecidablePred Failure.Fatal := fun f =>
  inferInstanceAs (Decidable (¬f.Throws))

/-- `v[i]` of a `std::vector`. -/
def index {σ α : Type} (v : List α) (i : Nat) (site : UndefinedSite := .vectorIndex) :
    Exec Failure σ α :=
  Exec.require v[i]? (.undefined site)

/-- An element that is there, with the default that names it. -/
theorem index_eq_ok {σ α : Type} (d : α) {v : List α} {i : Nat} {site : UndefinedSite} {a : α}
    {s s' : σ} : (index v i site).run s = .ok a s' ↔ i < v.length ∧ a = v.getD i d ∧ s' = s := by
  rw [index, Exec.require_eq_ok, List.getElem?_eq_some_iff]
  constructor
  · rintro ⟨⟨h, rfl⟩, rfl⟩
    simp [h]
  · rintro ⟨h, rfl, rfl⟩
    simp [h]

/-- The first entry after `i` are dropped. -/
theorem headD_drop {α : Type} (v : List α) (i : Nat) (d : α) : (v.drop i).headD d = v.getD i d := by
  rw [List.headD_eq_head?_getD, List.head?_drop, List.getD_eq_getElem?_getD]

/-- The first element, with a default for none. -/
theorem index_zero_eq_ok {σ α : Type} (d : α) {v : List α} {site : UndefinedSite} {a : α}
    {s s' : σ} : (index v 0 site).run s = .ok a s' ↔ v ≠ [] ∧ a = v.headD d ∧ s' = s := by
  rw [index_eq_ok d]
  cases v with
  | nil => simp
  | cons b v => simp

end UscopeDriver
