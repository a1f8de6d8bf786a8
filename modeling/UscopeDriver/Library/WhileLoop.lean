/-!
# Loops that end

`Ends guard body s s'` says that the loop `while (guard) body` ends in `s'` when it starts in `s`.
What a round keeps, the loop keeps (`Ends.invariant`), and a loop that does anything has a last
round (`Ends.last_round`).
-/

namespace WhileLoop

variable {σ : Type} {guard : σ → Prop} {body : σ → σ}

/-- The loop, from the first state to the last. -/
inductive Ends (guard : σ → Prop) (body : σ → σ) : σ → σ → Prop
  | stop {s : σ} (h : ¬guard s) : Ends guard body s s
  | round {s s' : σ} (h : guard s) (rest : Ends guard body (body s) s') : Ends guard body s s'

namespace Ends

variable {s s' : σ}

/-- The loop ends where the guard fails. -/
theorem not_guard (h : Ends guard body s s') : ¬guard s' := by
  induction h with
  | stop h => exact h
  | round _ _ ih => exact ih

/-- What the body keeps holds in the end. -/
theorem invariant {I : σ → Prop} (step : ∀ t, I t → guard t → I (body t))
    (h : Ends guard body s s') (hs : I s) : I s' := by
  induction h with
  | stop _ => exact hs
  | round hguard _ ih => exact ih (step _ hs hguard)

/-- The loop ends at once or after a round. -/
theorem last_round (h : Ends guard body s s') : s' = s ∨ ∃ t, guard t ∧ s' = body t := by
  induction h with
  | stop _ => exact Or.inl rfl
  | round hguard _ ih =>
    rcases ih with rfl | hlast
    · exact Or.inr ⟨_, hguard, rfl⟩
    · exact Or.inr hlast

end Ends

end WhileLoop
