import UscopeDriver.Library.Interleaving

/-!
# A service inside a loop

A loop over requests serves many purposes at once. Some of the requests are for one service, whose
state is a view `v` of the whole state, and the others leave that view alone. When each request for
the service acts on the view as a `step` of the service does, the whole loop is, for these requests
and their results, the service itself (`mapM_refines`). When the requests only make calls on an
object that the view shows, the loop is a run of these calls (`settleAll_of_mapM`). What each round
says of its own result holds of every round (`forall₂_of_mapM`).
-/

namespace Exec

variable {ε σ ι κ γ μ : Type}

section Service

variable {f : ι → Exec ε σ γ} {request : ι → Option κ} {step : κ → StateM μ γ} {v : σ → μ}
  {I : σ → Prop} {A : ι → Prop}

/-- What the service sees of a loop is the run of its own requests. -/
theorem mapM_refines
    (hrequest : ∀ {x k s c s'}, A x → request x = some k → I s → (f x).run s = .ok c s' →
      I s' ∧ (step k).run (v s) = (c, v s'))
    (hother : ∀ {x s c s'}, A x → request x = none → I s → (f x).run s = .ok c s' →
      I s' ∧ v s' = v s) {xs : List ι} (hxs : ∀ x ∈ xs, A x) {s s' : σ} {rs : List γ}
    (hs : I s) (h : (xs.mapM f).run s = .ok rs s') :
    I s' ∧ ((xs.filterMap request).mapM step).run (v s) =
      (resultsOf (fun x => (request x).isSome) xs rs, v s') := by
  induction xs generalizing s rs with
  | nil =>
    obtain ⟨rfl, rfl⟩ := mapM_nil_eq_ok.1 h
    exact ⟨hs, rfl⟩
  | cons x xs ih =>
    rw [List.forall_mem_cons] at hxs
    obtain ⟨r, rs, t, rfl, hx, hrest⟩ := mapM_cons_eq_ok.1 h
    cases hk : request x with
    | none =>
      obtain ⟨ht, hview⟩ := hother hxs.1 hk hs hx
      obtain ⟨hs', hrun⟩ := ih hxs.2 ht hrest
      rw [List.filterMap_cons_none hk, resultsOf_cons_neg (by simp [hk]), ← hview]
      exact ⟨hs', hrun⟩
    | some k =>
      obtain ⟨ht, hstep⟩ := hrequest hxs.1 hk hs hx
      obtain ⟨hs', hrun⟩ := ih hxs.2 ht hrest
      refine ⟨hs', ?_⟩
      rw [List.filterMap_cons_some hk, resultsOf_cons_pos (by simp [hk]), List.mapM_cons]
      rw [StateT.run_bind, hstep]
      change Prod.map (r :: ·) id (((xs.filterMap request).mapM step).run (v t)) = _
      rw [hrun]
      rfl

/-- What a loop does to an object is the run of the calls that its requests make. -/
theorem settleAll_of_mapM {ε' τ α : Type} {fatal : ε' → Prop} [DecidablePred fatal]
    {exec : κ → Exec ε' τ α} {object : σ → τ}
    (hstep : ∀ {x s c s'}, A x → (f x).run s = .ok c s' →
      settleAll fatal exec (request x).toList (object s) = some (object s'))
    {xs : List ι} (hxs : ∀ x ∈ xs, A x) {s s' : σ} {rs : List γ}
    (h : (xs.mapM f).run s = .ok rs s') :
    settleAll fatal exec (xs.filterMap request) (object s) = some (object s') := by
  induction xs generalizing s rs with
  | nil =>
    obtain ⟨-, rfl⟩ := mapM_nil_eq_ok.1 h
    rfl
  | cons x xs ih =>
    rw [List.forall_mem_cons] at hxs
    obtain ⟨r, rs, t, rfl, hx, hrest⟩ := mapM_cons_eq_ok.1 h
    have happend : (x :: xs).filterMap request =
        (request x).toList ++ xs.filterMap request := by
      cases hk : request x <;> simp [hk]
    rw [happend]
    exact settleAll_append.2 ⟨object t, hstep hxs.1 hx, ih hxs.2 hrest⟩

/-- What a round keeps, and what it says of its result, holds of every round of a loop. -/
theorem forall₂_of_mapM {R : ι → γ → Prop}
    (hstep : ∀ {x s c s'}, I s → (f x).run s = .ok c s' → I s' ∧ R x c) {xs : List ι} {s s' : σ}
    {rs : List γ} (hs : I s) (h : (xs.mapM f).run s = .ok rs s') : List.Forall₂ R xs rs := by
  induction xs generalizing s rs with
  | nil =>
    obtain ⟨rfl, -⟩ := mapM_nil_eq_ok.1 h
    exact .nil
  | cons x xs ih =>
    obtain ⟨r, rs, t, rfl, hx, hrest⟩ := mapM_cons_eq_ok.1 h
    obtain ⟨ht, hr⟩ := hstep hs hx
    exact .cons hr (ih ht hrest)

end Service

end Exec
