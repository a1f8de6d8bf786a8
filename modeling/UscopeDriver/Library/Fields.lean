import UscopeDriver.Library.Exec
import Mathlib.Data.List.TakeWhile

/-!
# Records assigned field by field

`Fields` is a record type with named fields that are read and assigned one by one.
`assignAll` assigns a list of them in order, straight into the record, from a source that can
fail. It stops at the first field that fails, with the ones before it assigned
(`run_assignAll`). So a failure leaves the record as it was exactly when these held their
values before (`eq_iff_of_assignAll_error`).
-/

/-- Records `ρ` with fields `ι` of values `ν`. -/
structure Fields (ι ρ ν : Type) where
  read : ι → ρ → ν
  assign : ι → ν → ρ → ρ
  read_assign_self : ∀ i v r, read i (assign i v r) = v
  read_assign_of_ne : ∀ i j v r, i ≠ j → read i (assign j v r) = read i r
  ext : ∀ r r', (∀ i, read i r = read i r') → r = r'

namespace Fields

variable {ε ι ρ ν : Type} (F : Fields ι ρ ν) (src : ι → Except ε ν)

/-- Assign the fields in order, each from the source. -/
def assignAll (is : List ι) : Exec ε ρ Unit :=
  forM is fun i => do
    let v ← Exec.ofExcept (src i)
    modify (F.assign i v)

/-- The fields before the first one that fails. -/
def admitted (is : List ι) : List ι :=
  is.takeWhile fun i => (src i).isOk

variable {F src} {i j : ι} {is : List ι} {r : ρ}

/-- A field that can be read is assigned. -/
theorem run_assignAll_cons_ok {v : ν} (h : src i = .ok v) :
    (F.assignAll src (i :: is)).run r = (F.assignAll src is).run (F.assign i v r) := by
  unfold assignAll
  rw [List.forM_cons, h]
  rfl

/-- The first field that cannot be read ends it. -/
theorem run_assignAll_cons_error {e : ε} (h : src i = .error e) :
    (F.assignAll src (i :: is)).run r = .error e r := by
  unfold assignAll
  rw [List.forM_cons, h]
  rfl

theorem admitted_cons_ok {v : ν} (h : src i = .ok v) :
    admitted src (i :: is) = i :: admitted src is := by
  rw [admitted, List.takeWhile_cons, h]
  rfl

theorem admitted_cons_error {e : ε} (h : src i = .error e) : admitted src (i :: is) = [] := by
  rw [admitted, List.takeWhile_cons, h]
  rfl

/-- All fields are admitted if all can be read. -/
theorem admitted_eq_self : admitted src is = is ↔ ∀ i ∈ is, ∃ v, src i = .ok v := by
  rw [admitted, List.takeWhile_eq_self_iff]
  refine forall₂_congr fun i _ => ?_
  cases src i <;> simp [Except.isOk, Except.toBool]

variable [DecidableEq ι]

/-- What a field holds when the fields `is` have been assigned. -/
def after (F : Fields ι ρ ν) (src : ι → Except ε ν) (is : List ι) (r : ρ) (i : ι) : ν :=
  if i ∈ is then (src i).toOption.getD (F.read i r) else F.read i r

/-- A field that is assigned first counts unless it is assigned again. -/
theorem after_assign {v : ν} (h : src j = .ok v) (r : ρ) :
    F.after src is (F.assign j v r) i = F.after src (j :: is) r i := by
  unfold after
  by_cases hi : i = j
  · subst hi
    simp [h, Except.toOption, F.read_assign_self]
  · simp [hi, F.read_assign_of_ne i j v r hi]

variable (F src) in
/-- In either case the fields before the error hold what was read for them. -/
theorem run_assignAll (is : List ι) (r : ρ) :
    ∃ r', (∀ i, F.read i r' = F.after src (admitted src is) r i) ∧
      (((F.assignAll src is).run r = .ok () r' ∧ admitted src is = is) ∨
        ∃ e, (F.assignAll src is).run r = .error e r' ∧ admitted src is ≠ is) := by
  induction is generalizing r with
  | nil => exact ⟨r, fun i => by simp [admitted, after], Or.inl ⟨rfl, rfl⟩⟩
  | cons j is ih =>
    cases hj : src j with
    | error e =>
      rw [run_assignAll_cons_error hj, admitted_cons_error hj]
      exact ⟨r, fun i => by simp [after], Or.inr ⟨e, rfl, by simp⟩⟩
    | ok v =>
      obtain ⟨r', hread, hrun⟩ := ih (F.assign j v r)
      rw [run_assignAll_cons_ok hj, admitted_cons_ok hj]
      refine ⟨r', fun i => (hread i).trans (after_assign hj r), ?_⟩
      simpa using hrun

/-- The record is read exactly if each field is. -/
theorem exists_ok_iff : (∃ r', (F.assignAll src is).run r = .ok () r') ↔
    ∀ i ∈ is, ∃ v, src i = .ok v := by
  rw [← admitted_eq_self]
  obtain ⟨t, -, ⟨hrun, hok⟩ | ⟨e, hrun, hne⟩⟩ := run_assignAll F src is r
  · exact iff_of_true ⟨t, hrun⟩ hok
  · refine iff_of_false ?_ hne
    rintro ⟨r', h⟩
    rw [hrun] at h
    cases h

/-- The record is as it was when the assigned fields hold the values of the source. -/
theorem eq_self_iff {r' : ρ} (his : ∀ i ∈ is, ∃ v, src i = .ok v)
    (h : ∀ i, F.read i r' = F.after src is r i) :
    r' = r ↔ ∀ i ∈ is, src i = .ok (F.read i r) := by
  constructor
  · rintro rfl i hi
    obtain ⟨v, hv⟩ := his i hi
    have hread := h i
    rw [after, if_pos hi, hv] at hread
    rw [hv, hread]
    rfl
  · intro hsame
    refine F.ext r' r fun i => ?_
    rw [h, after]
    split_ifs with hi
    · rw [hsame i hi]
      rfl
    · rfl

/-- With all the fields of the record, a run that returns takes all of it from the source. -/
theorem assignAll_eq_ok (hall : ∀ i, i ∈ is) {u : Unit} {r' : ρ} :
    (F.assignAll src is).run r = .ok u r' ↔ ∀ i, src i = .ok (F.read i r') := by
  obtain ⟨t, hread, hrun⟩ := run_assignAll F src is r
  have htaken : admitted src is = is → ∀ i, src i = .ok (F.read i t) := by
    intro hok i
    obtain ⟨v, hv⟩ := admitted_eq_self.1 hok i (hall i)
    rw [hread, hok, after, if_pos (hall i), hv]
    rfl
  constructor
  · intro h
    rcases hrun with ⟨hrun, hok⟩ | ⟨e, hrun, -⟩
    · obtain rfl : t = r' := by
        rw [hrun] at h
        cases h
        rfl
      exact htaken hok
    · rw [hrun] at h
      cases h
  · intro h
    have hok : admitted src is = is := admitted_eq_self.2 fun i _ => ⟨_, h i⟩
    rcases hrun with ⟨hrun, -⟩ | ⟨e, -, hne⟩
    · obtain rfl : t = r' :=
        F.ext t r' fun i => Except.ok.inj ((htaken hok i).symm.trans (h i))
      exact hrun
    · exact absurd hok hne

/-- A run that fails leaves the record as it was exactly when the fields before the first failure
held the values of the source. -/
theorem eq_iff_of_assignAll_error {e : ε} {r' : ρ}
    (h : (F.assignAll src is).run r = .error e r') :
    r' = r ↔ ∀ i ∈ admitted src is, src i = .ok (F.read i r) := by
  obtain ⟨t, hread, ⟨hrun, -⟩ | ⟨e', hrun, -⟩⟩ := run_assignAll F src is r
  · rw [hrun] at h
    cases h
  · rw [hrun] at h
    cases h
    refine eq_self_iff (fun i hi => ?_) hread
    have hok := List.mem_takeWhile_imp hi
    cases hv : src i with
    | ok v => exact ⟨v, rfl⟩
    | error e => simp [hv, Except.isOk, Except.toBool] at hok

end Fields
