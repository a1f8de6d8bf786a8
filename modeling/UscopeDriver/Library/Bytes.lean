import Mathlib.Algebra.Group.Nat.Hom
import Mathlib.Data.List.Basic

/-!
# Little-endian bytes, and bytes in pieces

A number as a fixed count of bytes, the lowest first, and back. A stream delivers a list of bytes
in pieces (`IsSplit`) : a split of a list of known length is one of finitely many, found byte by
byte with `isSplit_cons`.
-/

namespace Bytes

/-! ## Little-endian numbers -/

/-- The lowest `count` bytes of a number. -/
def littleEndian : Nat → Nat → List UInt8
  | 0, _ => []
  | count + 1, n => UInt8.ofNat n :: littleEndian count (n / 256)

/-- The number that bytes stand for. -/
def ofLittleEndian : List UInt8 → Nat
  | [] => 0
  | b :: bs => b.toNat + 256 * ofLittleEndian bs

theorem length_littleEndian (count n : Nat) : (littleEndian count n).length = count := by
  induction count generalizing n with
  | zero => rfl
  | succ count ih => rw [littleEndian, List.length_cons, ih]

/-- A number that fits comes back. -/
theorem ofLittleEndian_littleEndian {count n : Nat} (h : n < 256 ^ count) :
    ofLittleEndian (littleEndian count n) = n := by
  induction count generalizing n with
  | zero =>
    have : n = 0 := by simpa using h
    rw [this]
    rfl
  | succ count ih =>
    have hdiv : n / 256 < 256 ^ count := Nat.div_lt_of_lt_mul (by rwa [pow_succ'] at h)
    have hbyte : (UInt8.ofNat n).toNat = n % 256 := rfl
    rw [littleEndian, ofLittleEndian, ih hdiv, hbyte]
    omega

/-- Zeros are zero. -/
theorem ofLittleEndian_eq_zero {bytes : List UInt8} (h : ∀ b ∈ bytes, b = 0) :
    ofLittleEndian bytes = 0 := by
  induction bytes with
  | nil => rfl
  | cons b bs ih =>
    obtain ⟨rfl, hbs⟩ := List.forall_mem_cons.1 h
    rw [ofLittleEndian, ih hbs]
    rfl

/-! ## Pieces -/

variable {α : Type}

/-- The list with `piece` written over it from position `t` on. -/
def overwriteAt (t : Nat) (piece l : List α) : List α :=
  l.take t ++ (piece ++ l.drop (t + piece.length))

/-- To overwrite within a list keeps its length. -/
theorem length_overwriteAt {t : Nat} {piece l : List α} (h : t + piece.length ≤ l.length) :
    (overwriteAt t piece l).length = l.length := by
  simp only [overwriteAt, List.length_append, List.length_take, List.length_drop]
  omega

/-- What was before the piece stays, and then comes the piece. -/
theorem take_overwriteAt {t k : Nat} {piece l : List α} (ht : t ≤ l.length)
    (hk : k ≤ piece.length) : (overwriteAt t piece l).take (t + k) = l.take t ++ piece.take k := by
  have hlength : (l.take t).length = t := List.length_take_of_le ht
  rw [overwriteAt, List.take_append, hlength, Nat.add_sub_cancel_left,
    List.take_of_length_le (by omega), List.take_append_of_le_length hk]

/-- The pieces are not empty, and together they are the list. -/
def IsSplit (l : List α) (pieces : List (List α)) : Prop :=
  pieces.flatten = l ∧ ∀ p ∈ pieces, p ≠ []

/-- Nothing is split into no pieces. -/
theorem isSplit_nil {pieces : List (List α)} : IsSplit [] pieces ↔ pieces = [] := by
  constructor
  · rintro ⟨hflatten, hne⟩
    refine List.eq_nil_iff_forall_not_mem.2 fun p hp => hne p hp ?_
    exact List.flatten_eq_nil_iff.1 hflatten p hp
  · rintro rfl
    exact ⟨rfl, by simp⟩

/-- The first element is a piece of its own, or begins the first piece. -/
theorem isSplit_cons {a : α} {l : List α} {pieces : List (List α)} :
    IsSplit (a :: l) pieces ↔ (∃ ps, pieces = [a] :: ps ∧ IsSplit l ps) ∨
      ∃ p ps, pieces = (a :: p) :: ps ∧ IsSplit l (p :: ps) := by
  constructor
  · rintro ⟨hflatten, hne⟩
    cases pieces with
    | nil => cases hflatten
    | cons q qs =>
      have hqs : ∀ p ∈ qs, p ≠ [] := fun p hp => hne p (by simp [hp])
      cases q with
      | nil => exact absurd rfl (hne [] (by simp))
      | cons b q =>
        obtain ⟨rfl, hrest⟩ := List.cons.inj hflatten
        cases q with
        | nil => exact Or.inl ⟨qs, rfl, hrest, hqs⟩
        | cons c q => exact Or.inr ⟨c :: q, qs, rfl, hrest, List.forall_mem_cons.2 ⟨by simp, hqs⟩⟩
  · rintro (⟨ps, rfl, hflatten, hne⟩ | ⟨p, ps, rfl, hflatten, hne⟩)
    · exact ⟨by simp [hflatten], List.forall_mem_cons.2 ⟨by simp, hne⟩⟩
    · rw [List.forall_mem_cons] at hne
      refine ⟨?_, List.forall_mem_cons.2 ⟨by simp, hne.2⟩⟩
      rw [List.flatten_cons, List.cons_append]
      exact congrArg _ hflatten

theorem IsSplit.ne_nil {l : List α} {pieces : List (List α)} (h : IsSplit l pieces)
    (hl : l ≠ []) : pieces ≠ [] := by
  rintro rfl
  exact hl h.1.symm

end Bytes
