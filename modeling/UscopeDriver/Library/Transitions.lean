import Mathlib.Logic.Relation
import Mathlib.Order.WellFounded

/-!
# Runs of a transition system

A run is a path of steps (`Relation.ReflTransGen`). What every step keeps holds along it. Where
every step lowers a rank in a well-founded order, no run goes on for ever (`acc_of_rank`), and one
that goes as far as it can ends in a stuck state.
-/

namespace Transitions

variable {σ ρ : Type*} {step : σ → σ → Prop} {I : σ → Prop}

/-- The state has no step. -/
def Stuck (step : σ → σ → Prop) (s : σ) : Prop :=
  ∀ s', ¬step s s'

/-- What every step keeps holds along a run. -/
theorem invariant_of_reaches (keep : ∀ s s', I s → step s s' → I s') {s s' : σ}
    (h : Relation.ReflTransGen step s s') (hs : I s) : I s' := by
  induction h with
  | refl => exact hs
  | tail _ hstep ih => exact keep _ _ ih hstep

/-- With a rank that every step lowers from the states of an invariant, all runs are finite. -/
theorem acc_of_rank {lt : ρ → ρ → Prop} (wf : WellFounded lt) (rank : σ → ρ)
    (keep : ∀ s s', I s → step s s' → I s')
    (lower : ∀ s s', I s → step s s' → lt (rank s') (rank s)) {s : σ} (hs : I s) :
    Acc (fun t' t => step t t') s := by
  obtain ⟨r, hr⟩ : ∃ r, rank s = r := ⟨_, rfl⟩
  induction r using wf.induction generalizing s with
  | _ r ih =>
    subst hr
    exact ⟨s, fun s' hstep => ih _ (lower s s' hs hstep) (keep s s' hs hstep) rfl⟩

/-- A run that goes as far as it can. -/
theorem exists_stuck_of_acc {s : σ} (h : Acc (fun t' t => step t t') s) :
    ∃ s', Relation.ReflTransGen step s s' ∧ Stuck step s' := by
  induction h with
  | intro s _ ih =>
    by_cases hs : Stuck step s
    · exact ⟨s, .refl, hs⟩
    · obtain ⟨t, ht⟩ := not_forall_not.1 hs
      obtain ⟨s', hrun, hstuck⟩ := ih t ht
      exact ⟨s', .head ht hrun, hstuck⟩

end Transitions
